import Zuhttp.Proofs.Boundary
import Zuhttp.Proofs.Completion
import Zuhttp.Proofs.Delivery

/-!
# The body of the result

What a call leaves in the caller's sink or in its result is the decoded body of the response it
returns. No byte of a response that was followed is among it.
-/

namespace Zuhttp

open Prog World

variable {Z : Zlib} {C : Zlib.Codes}

/-! ### What writing to a sink keeps -/

/-- What the writes to a sink keep. -/
def Sink.Kept (I : Sink → Prop) : Prop := ∀ (s : Sink) (data : Bytes), I s → I (s.write data).1

variable {I : Sink → Prop}

namespace BodyPipe

lemma feed_writes (hI : Sink.Kept I) {p : BodyPipe Z} (s : Bytes) (h : I p.sink) :
    I (p.feed s).1.sink := by
  unfold feed
  split_ifs
  · exact h
  cases p.inflate with
  | none =>
    dsimp only
    cases p.capCheck s.length with
    | some f => exact h
    | none => exact hI p.sink s h
  | some z =>
    dsimp only
    cases z.run (some s) with
    | mk z' r =>
      obtain ⟨out, rc⟩ := r
      cases rc with
      | fail f => exact h
      | ok => exact hI p.sink out h
      | wouldblock => exact hI p.sink out h

lemma finish_writes (hI : Sink.Kept I) {p : BodyPipe Z} (h : I p.sink) : I p.finish.1.sink := by
  unfold finish
  cases p.inflate with
  | none => exact h
  | some z =>
    dsimp only
    cases z.run none with
    | mk z' r =>
      obtain ⟨out, rc⟩ := r
      cases rc with
      | fail f => exact h
      | ok => exact hI p.sink out h
      | wouldblock => exact h

end BodyPipe

namespace BodyReader

lemma stepChunked_writes (hI : Sink.Kept I) (st : State Z) (bytes : Bytes) (h : I st.pipe.sink) :
    I (stepChunked st bytes).1.pipe.sink := by
  unfold stepChunked
  dsimp only
  generalize st.reader.dec.decode bytes = decoded
  obtain ⟨dec, out, rc⟩ := decoded
  dsimp only
  have hfed := BodyPipe.feed_writes hI (p := { st.pipe with
    rawSeen := st.pipe.rawSeen + bytes.length }) out h
  generalize BodyPipe.feed { st.pipe with
    rawSeen := st.pipe.rawSeen + bytes.length } out = fed at hfed ⊢
  obtain ⟨pipe, res⟩ := fed
  cases res with
  | some f => exact hfed
  | none => cases rc <;> exact hfed

lemma stepPlain_writes (hI : Sink.Kept I) (st : State Z) (bytes : Bytes) (h : I st.pipe.sink) :
    I (stepPlain st bytes).1.pipe.sink := by
  unfold stepPlain
  dsimp only
  generalize (if st.reader.fr.kind = .length ∧
    st.pipe.rawSeen + bytes.length > st.reader.fr.length then
      st.reader.fr.length - st.pipe.rawSeen else bytes.length) = take
  have hfed := BodyPipe.feed_writes hI (p := { st.pipe with
    surplus := st.pipe.surplus + (bytes.length - take) }) (bytes.take take) h
  generalize BodyPipe.feed { st.pipe with
    surplus := st.pipe.surplus + (bytes.length - take) } (bytes.take take) = fed at hfed ⊢
  obtain ⟨pipe, res⟩ := fed
  cases res with
  | some f => exact hfed
  | none =>
    dsimp only
    split_ifs <;> exact hfed

lemma stepFramed_writes (hI : Sink.Kept I) (st : State Z) (h : I st.pipe.sink) :
    I (stepFramed st).1.pipe.sink := by
  unfold stepFramed
  dsimp only
  generalize st.reader.nextBytes st.stream = next
  obtain ⟨res, reader, stream⟩ := next
  cases res with
  | error f =>
    dsimp only
    split_ifs <;> exact h
  | ok bytes =>
    have hchunked := stepChunked_writes hI ⟨reader, stream, st.pipe⟩ bytes h
    have hplain := stepPlain_writes hI ⟨reader, stream, st.pipe⟩ bytes h
    dsimp only
    split_ifs <;> first | exact h | exact hchunked | exact hplain

lemma step_writes (hI : Sink.Kept I) (st : State Z) (h : I st.pipe.sink) :
    I (step st).1.pipe.sink := by
  have hframed := stepFramed_writes hI st h
  unfold step
  split_ifs
  · exact h
  · generalize stepFramed st = framed at hframed ⊢
    obtain ⟨st', res⟩ := framed
    cases res with
    | some f => exact hframed
    | none =>
      dsimp only
      split_ifs
      · exact BodyPipe.finish_writes hI hframed
      · exact hframed

end BodyReader

namespace H2

lemma endStep_writes (hI : Sink.Kept I) (h : H2) (p : BodyPipe Z) (hp : I p.sink) :
    I (endStep h p).1.pipe.sink := by
  have hfed : I (BodyPipe.feed { p with rawSeen := p.rawSeen + h.data.length } h.data).1.sink :=
    BodyPipe.feed_writes hI h.data hp
  have hcases := endStep_cases h p
  generalize endStep h p = ended at hcases ⊢
  obtain ⟨st, res⟩ := ended
  cases hcases with
  | refused hfeed => rwa [hfeed] at hfed
  | goesOn hfeed hopen => rwa [hfeed] at hfed
  | reset hfeed hclosed hout => rwa [hfeed] at hfed
  | unfinished hfeed hclosed hcode hfinish =>
    rw [hfeed] at hfed
    have hfinished := BodyPipe.finish_writes hI hfed
    rwa [hfinish] at hfinished
  | ended hfeed hclosed hcode hfinish =>
    rw [hfeed] at hfed
    have hfinished := BodyPipe.finish_writes hI hfed
    rwa [hfinish] at hfinished

lemma bodyStep_writes (hI : Sink.Kept I) (st : BodyState Z) (h : I st.pipe.sink) :
    I (bodyStep st).1.pipe.sink := by
  unfold bodyStep
  split_ifs
  · cases st.conn.pumpStream with
    | mk conn res =>
      cases res with
      | some f => exact h
      | none => exact endStep_writes hI conn st.pipe h
  · exact endStep_writes hI st.conn st.pipe h

end H2

namespace BodySource

/-- What the writes to a sink keep, the read of a body keeps. -/
lemma readAll_writes (hI : Sink.Kept I) (src : BodySource Z) (h : I src.pipe.sink) :
    I src.readAll.1.pipe.sink := by
  cases src with
  | h1 st =>
    have hloop : I (BodyReader.loop (st.left + 1) st).1.pipe.sink :=
      Loop.iterate_keeps (P := fun s : BodyReader.State Z => I s.pipe.sink)
        (fun s hs => BodyReader.step_writes hI s hs) h (st.left + 1)
    exact hloop
  | h2 st =>
    have hbody : I (H2.body st.conn st.pipe).1.pipe.sink :=
      Loop.iterate_keeps (P := fun s : H2.BodyState Z => I s.pipe.sink)
        (fun s hs => H2.bodyStep_writes hI s hs) (s := ⟨st.conn, st.pipe, false⟩) h _
    exact hbody

end BodySource

/-! ### The body of a response -/

/-- nghttp2 kept to its documentation. -/
def BodySource.Lawful : BodySource Z → Prop
  | .h1 _ => True
  | .h2 st => st.conn.lawful = true

/-- The body of a response as the peer sent it, when reading it led to `src`. -/
def OnWire (input : BodyInput) (src : BodySource Z) (data : Bytes) : Prop :=
  match input, src with
  | .h1 fr t seed, _ => (∃ trailers after, Framed fr (seed ++ t.unread) data trailers after) ∧
      (fr.kind = .untilClose → t.ending = .eof)
  | .h2 _, .h2 st => data = st.conn.payloads
  | .h2 _, .h1 _ => False

/-- Reading a body into a sink led to `src`: the sink got what the body stands for. -/
def Brings (C : Zlib.Codes) (input : BodyInput) (h : Headers) (noDecode : Bool) (sink : Sink)
    (src : BodySource Z) : Prop :=
  src.Lawful → ∃ data content, OnWire input src data ∧
    Content C (codingOf h noDecode) data content ∧ src.pipe.sink.bytes = sink.bytes ++ content

lemma settle_pipe (follow : Bool) (h : Headers) (minor : Int) (src : BodySource Z)
    (res : Option Fail) : (settle follow h minor src res).src.pipe = src.pipe := by
  unfold settle
  dsimp only
  cases src <;> split_ifs <;> rfl

/-- A body that is not tolerated passes when it was read to its end or its sink stopped it. -/
lemma settle_none {h : Headers} {minor : Int} {src : BodySource Z} {res : Option Fail}
    (hres : (settle false h minor src res).res = none) :
    (res = none ∧ (settle false h minor src res).src = src) ∨ src.pipe.sink.stopped = true := by
  have hcalm : ¬(false = true ∧ (resultCode res = .bodyLimit ∨ resultCode res = .parse)) :=
    fun hfollow => Bool.false_ne_true hfollow.1
  by_cases hstop : resultCode res = .cancelled ∧ src.pipe.sink.stopped = true
  · exact Or.inr hstop.2
  · unfold settle at hres ⊢
    dsimp only at hres ⊢
    rw [if_neg hcalm, if_neg hstop] at hres ⊢
    exact Or.inl ⟨hres, rfl⟩

/-- An HTTP/2 body that was read to its end. -/
lemma h2Body_gave (hZ : Z.Decodes C) {sink : Sink} {h h' : Headers} {noDecode : Bool}
    {maxBody : Nat} {p : BodyPipe Z} {conn : H2} {st : H2.BodyState Z}
    (hpipe : BodyPipe.init sink h noDecode maxBody = .ok (p, h'))
    (hbegun : conn.lawful = true → H2.Reported [] conn) (hread : H2.body conn p = (st, none))
    (hlaw : st.conn.lawful = true) : ∃ content,
      Content C (codingOf h noDecode) st.conn.payloads content ∧
      st.pipe.sink.bytes = sink.bytes ++ content := by
  obtain ⟨q, q', hfed, hfinish, hcore⟩ := (H2.body_ended hbegun hread).fed hlaw
  obtain ⟨out, hout⟩ := BodyPipe.fed_gave hZ (BodyPipe.init_gave hZ hpipe) hfed
  rcases BodyPipe.finish_asks hZ hout with ⟨hsame, hcontent⟩ | ⟨f, hfails, -⟩
  · rw [hsame] at hfinish
    obtain ⟨rfl, -⟩ := Prod.mk.inj hfinish
    exact ⟨out, hcontent, (hout.congr hcore).bytes⟩
  · rw [hfails] at hfinish
    cases hfinish

/-- A body that passes has given its sink what it stands for, unless the sink stopped it. -/
theorem receiveBody_brings (hZ : Z.Decodes C) {input : BodyInput} {sink : Sink} {h : Headers}
    {minor : Int} {cap : Nat} {noDecode : Bool}
    (hbegun : ∀ conn, input = .h2 conn → conn.lawful = true → H2.Reported [] conn)
    (hres : (receiveBody (Z := Z) false input sink h minor cap noDecode).res = none) :
    (receiveBody (Z := Z) false input sink h minor cap noDecode).src.pipe.sink.stopped = true ∨
      Brings C input h noDecode sink
        (receiveBody (Z := Z) false input sink h minor cap noDecode).src := by
  unfold receiveBody at hres ⊢
  cases hinit : BodyPipe.init (Z := Z) sink h noDecode cap with
  | error f =>
    rw [hinit] at hres
    dsimp only at hres ⊢
    refine Or.inl ?_
    rw [settle_pipe]
    rcases settle_none hres with ⟨hnone, -⟩ | hstopped
    · cases hnone
    · exact hstopped
  | ok r =>
    obtain ⟨p, h'⟩ := r
    rw [hinit] at hres
    dsimp only at hres ⊢
    cases hall : (input.source p cap).readAll with
    | mk src res =>
      rw [hall] at hres
      dsimp only at hres ⊢
      rcases settle_none hres with ⟨rfl, hsame⟩ | hstopped
      · rw [hsame]
        refine Or.inr (fun hlaw => ?_)
        cases input with
        | h1 fr t seed =>
          obtain ⟨hsrc, hread⟩ := Prod.mk.inj hall
          subst hsrc
          obtain ⟨data, extra, content, hframed, hclosed, -, hcontent, hbytes⟩ :=
            bodyRead_gave hZ hinit (Prod.ext rfl hread)
          exact ⟨data, content, ⟨⟨_, _, hframed⟩, hclosed⟩, hcontent, hbytes⟩
        | h2 conn =>
          obtain ⟨hsrc, hread⟩ := Prod.mk.inj hall
          subst hsrc
          obtain ⟨content, hcontent, hbytes⟩ :=
            h2Body_gave hZ hinit (hbegun conn rfl) (Prod.ext rfl hread) hlaw
          exact ⟨_, content, rfl, hcontent, hbytes⟩
      · refine Or.inl ?_
        rw [settle_pipe]
        exact hstopped

/-- A sink that does not stop a body. -/
def Sink.Patient (s : Sink) : Prop :=
  s.stopped = false ∧ ∀ handed data f, s.respond handed data ≠ .refuse f true

lemma patient_kept (s₀ : Sink) (h : s₀.Patient) :
    Sink.Kept (fun s => s.respond = s₀.respond ∧ s.stopped = false) := by
  rintro s data ⟨hrespond, hgoing⟩
  unfold Sink.write
  split_ifs
  · exact ⟨hrespond, hgoing⟩
  · cases hanswer : s.respond s.handed data with
    | accept => exact ⟨hrespond, hgoing⟩
    | refuse f stopped =>
      refine ⟨hrespond, ?_⟩
      cases stopped with
      | false => exact (Bool.or_false _).trans hgoing
      | true => exact absurd (hrespond ▸ hanswer) (h.2 _ _ _)

lemma receiveBody_patient {input : BodyInput} {sink : Sink} (hsink : sink.Patient) (h : Headers)
    (minor : Int) (cap : Nat) (noDecode : Bool) :
    (receiveBody (Z := Z) false input sink h minor cap noDecode).src.pipe.sink.stopped = false := by
  unfold receiveBody
  cases hinit : BodyPipe.init (Z := Z) sink h noDecode cap with
  | error f =>
    dsimp only
    rw [settle_pipe]
    cases input <;> exact hsink.1
  | ok r =>
    obtain ⟨p, h'⟩ := r
    have hstart : (input.source p cap).pipe.sink = sink := by
      cases input <;> exact (BodyPipe.init_fresh hinit).1
    have hread := BodySource.readAll_writes (patient_kept sink hsink) (input.source p cap)
      ⟨congrArg Sink.respond hstart, by rw [hstart]; exact hsink.1⟩
    dsimp only
    rw [settle_pipe]
    exact hread.2

lemma memSink_patient (full : List Bytes → Bytes → Bool) : (memSink full).Patient := by
  refine ⟨rfl, fun handed data f hanswer => ?_⟩
  unfold memSink at hanswer
  dsimp only at hanswer
  split_ifs at hanswer
  cases (SinkAnswer.refuse.inj hanswer).2

/-! ### The result of a call -/

/-- The body of a response that is the result, read into a sink. -/
def taken (call : Call) (a : Answer) (sink : Sink) : BodySource Z :=
  (receiveBody false a.input sink a.headers a.minorVersion (bodyCap call.opts false)
    (call.opts.noDecode || a.bodiless)).src

/-- That sink gets what the body stands for. -/
def Yields (C : Zlib.Codes) (Z : Zlib) (call : Call) (a : Answer) (sink : Sink) : Prop :=
  Brings C a.input a.headers (call.opts.noDecode || a.bodiless) sink (taken (Z := Z) call a sink)

/-- What a call leaves of the body of the response that it returns: in the caller's sink, in the
result, or for the caller to read. -/
def Leaves (C : Zlib.Codes) (call : Call) (a : Answer) (sink : Option Sink) (w : World Z) : Prop :=
  match sink with
  | some s => w.result.body = [] ∧ w.result.openBody = none ∧
      w.sink = some (taken (Z := Z) call a { s with written := 0 }).pipe.sink ∧
      ((taken (Z := Z) call a { s with written := 0 }).pipe.sink.stopped = true ∨
        Yields C Z call a { s with written := 0 })
  | none => w.sink = none ∧
      ((w.result.openBody = none ∧ ∃ full,
          w.result.body = (taken (Z := Z) call a (memSink full)).pipe.sink.bytes ∧
          Yields C Z call a (memSink full)) ∨
        (w.result.body = [] ∧ ∃ o, w.result.openBody = some o ∧ ∀ ns b out,
          (∀ n ∈ ns, 0 < n) → o.body.pull ns = (b, out, none) → b.done = true →
          out = (taken (Z := Z) call a .memory).pipe.sink.bytes ∧ Yields C Z call a .memory))

variable {env : Env} {call : Call} {c : Chain} {s : Stream} {a : Answer} {k k' : Core Z}
  {w : World Z}

/-- What nghttp2 reports of a response that answers a request. -/
lemma Asked.begun {r : Sent} (h : Asked r a) (conn : H2) (hinput : a.input = .h2 conn)
    (hlaw : conn.lawful = true) : H2.Reported [] conn := by
  unfold Asked at h
  rw [hinput] at h
  obtain ⟨-, h₀, rq, resp, hbegin⟩ := h
  exact H2.begin_reported hbegin hlaw

/-- The body of a hop that is not followed. -/
lemma hopBody_eq (hkeep : mayFollow call.opts a = false) (sink : Option Sink) :
    hopBody (Z := Z) env call c a sink = receiveBody false a.input
      (hopSink (env.hop c.hops).memoryFull false sink) a.headers a.minorVersion
      (bodyCap call.opts false) (call.opts.noDecode || a.bodiless) := by
  unfold hopBody
  rw [hkeep]
  dsimp only
  rw [Bool.or_false]

/-- An unread body yields what the buffered one does. -/
lemma pull_yields (hZ : Z.Decodes C)
    (hbegun : ∀ conn, a.input = .h2 conn → conn.lawful = true → H2.Reported [] conn)
    {b b' : OpenBody Z} {h' : Headers} {ns : List Nat} {out : Bytes}
    (hnew : OpenBody.new a.input a.headers a.minorVersion (bodyCap call.opts false)
      (call.opts.noDecode || a.bodiless) = .ok (b, h'))
    (hpos : ∀ n ∈ ns, 0 < n) (hpull : b.pull ns = (b', out, none)) (hdone : b'.done = true) :
    out = (taken (Z := Z) call a .memory).pipe.sink.bytes ∧ Yields C Z call a .memory := by
  obtain ⟨hopened, hbuffered⟩ := OpenBody.new_eq_ok hnew
  have hreads := OpenBody.pull_readsAs hopened hpos hpull
  rw [← hbuffered] at hreads
  obtain ⟨-, -, hend⟩ := hreads
  cases hres : (receiveBody (Z := Z) false a.input Sink.memory a.headers a.minorVersion
      (bodyCap call.opts false) (call.opts.noDecode || a.bodiless)).res with
  | some f =>
    rw [hres] at hend
    cases (hend.2.2 hdone).1
  | none =>
    rw [hres] at hend
    refine ⟨(hend.2 hdone).1, ?_⟩
    have hpatient : Sink.memory.Patient := ⟨rfl, fun _ _ _ hanswer => by cases hanswer⟩
    rcases receiveBody_brings hZ hbegun hres with hstopped | hbrings
    · rw [receiveBody_patient hpatient] at hstopped
      cases hstopped
    · exact hbrings

/-- The response of a hop that is not followed. -/
lemma takes_leaves (hZ : Z.Decodes C) {h : Headers} (ht : Takes env call c s a k h k')
    (hkeep : mayFollow call.opts a = false) (hclear : Clear k)
    (hbegun : ∀ conn, a.input = .h2 conn → conn.lawful = true → H2.Reported [] conn)
    (hcore : w.core = k') : Leaves C call a k.sink w := by
  have hsink : w.sink = k'.sink := congrArg Core.sink hcore
  have hbody : w.result.body = k'.body := congrArg Core.body hcore
  have hopen : w.result.openBody = k'.openBody := congrArg Core.openBody hcore
  unfold Leaves
  cases ht with
  | drained hfollow hres =>
    rw [hkeep] at hfollow
    cases hfollow
  | buffered _ hnone hres =>
    have hmem : hopSink (env.hop c.hops).memoryFull false none =
        memSink (env.hop c.hops).memoryFull := rfl
    rw [hopBody_eq hkeep, hnone, hmem] at hres hbody
    rw [hnone]
    refine ⟨hsink.trans hnone, Or.inl ⟨hopen.trans hclear.openBody, _, hbody, ?_⟩⟩
    rcases receiveBody_brings hZ hbegun hres with hstopped | hbrings
    · rw [receiveBody_patient (memSink_patient _)] at hstopped
      cases hstopped
    · exact hbrings
  | written _ hsome hres =>
    obtain ⟨sink, hcaller⟩ := Option.ne_none_iff_exists'.mp hsome
    rw [hopBody_eq hkeep, hcaller] at hres hsink
    rw [hcaller]
    exact ⟨hbody.trans hclear.body, hopen.trans hclear.openBody, hsink,
      receiveBody_brings hZ hbegun hres⟩
  | held key _ hnone hnew =>
    rw [hnone]
    refine ⟨hsink.trans hnone, Or.inr ⟨hbody.trans hclear.body, _, hopen, ?_⟩⟩
    intro ns b out hpos hpull hdone
    exact pull_yields hZ hbegun hnew hpos hpull hdone

/-- Only the response that a call returns has its body in the caller's sink or in the result, and
it has all of it there, decoded. -/
theorem perform_delivers (hZ : Z.Decodes C) (env : Env) (call : Call) (host : Host)
    (next release : Bool) (answers : List (Except Fail Bytes)) (sink : Option Sink) :
    let run := exec (perform (Z := Z) env call) (World.start host next release answers sink)
    run.1 = .ok () → ∃ past a, run.2.answered = past ++ [a] ∧ mayFollow call.opts a = false ∧
      run.2.result.status = a.status ∧ Leaves C call a sink run.2 := by
  have hends := perform_at env call (start_clear (Z := Z) host next release answers sink) rfl rfl
    rfl _ (start_at host next release answers sink)
  obtain ⟨front, more, -, -, hmatched⟩ :=
    perform_matched (Z := Z) env call host next release answers sink
  intro run hok
  change Ends _ _ run at hends
  change Matched call front run.2 at hmatched
  obtain ⟨res, w⟩ := run
  cases res with
  | error rc => cases hok
  | ok u =>
    obtain ⟨w', c₀, c, -, ⟨past, k, r, src, a, s, k', hdue, -, -, hkeep, hlands⟩, rfl⟩ := hends
    have hanswered : w'.answered = k.answered ++ [a] :=
      (log_of_core hlands.holds).2.1.trans (takes_log hlands.takes).2.1
    obtain ⟨hsent', hanswered', -, hresult⟩ := releaseSource_log w'
    have hcore : (releaseSource w').sink = w'.sink := by
      unfold releaseSource
      split_ifs <;> rfl
    refine ⟨k.answered, a, hanswered'.trans hanswered, hkeep, ?_, ?_⟩
    · rw [hresult]
      exact hlands.status
    · have hmem : a ∈ (releaseSource w').answered := by
        rw [hanswered', hanswered]
        exact List.mem_append_right _ (List.mem_singleton_self a)
      obtain ⟨r', -, hasked⟩ := forall₂_zip [] hmatched.asked hmem
      have hleaves := takes_leaves hZ hlands.takes hkeep ⟨hdue.clear.body, hdue.clear.openBody⟩
        hasked.begun hlands.holds.core
      have hsink : (k.answer r src a).sink = sink := hdue.sink
      rw [hsink] at hleaves
      unfold Leaves at hleaves ⊢
      rw [hcore, hresult]
      exact hleaves

lemma gzipHi_ne : gzipHi ≠ [] := by decide

/-- A server that redirects with a body, and answers the second request in gzip. -/
def packedEnv : Env where
  uri := .known [(ascii "http://a/", .http "a" "/" lower_a), (ascii "/b", .http "a" "/b" lower_a)]
  hop n := .plain [if n = 0 then
      .text "HTTP/1.1 302 Found\r\nLocation: /b\r\nContent-Length: 2\r\n\r\nno"
    else ⟨ascii "HTTP/1.1 200 OK\r\nContent-Encoding: gzip\r\nContent-Length: 22\r\n\r\n" ++ gzipHi,
      by decide +kernel, by decide +kernel⟩]

def packedCall : Call where
  url := ascii "http://a/"

def packedRun : Except Code Unit × World (Zlib.counting gzipHi (ascii "hi")) :=
  exec (perform packedEnv packedCall) (World.start {} false false [] (some .memory))

lemma packedRun_end : packedRun.1.isOk = true ∧
    packedRun.2.answered.map Answer.status = [302, 200] ∧
    packedRun.2.sink.map Sink.bytes = some (ascii "hi") := by decide +kernel

theorem perform_delivers_packed : packedRun.2.sink.map Sink.bytes = some (ascii "hi") ∧
    ∃ past a, packedRun.2.answered = past ++ [a] ∧ mayFollow packedCall.opts a = false ∧
      packedRun.2.result.status = a.status ∧
      Leaves (Zlib.oneWord gzipHi (ascii "hi") gzipHi_ne) packedCall a (some .memory)
        packedRun.2 := by
  have hZ : (Zlib.counting gzipHi (ascii "hi")).Decodes
      (Zlib.oneWord gzipHi (ascii "hi") gzipHi_ne) :=
    Zlib.counting_decodes (by decide) gzipHi_ne
  have hend := packedRun_end
  have hdelivers := perform_delivers hZ packedEnv packedCall {} false false [] (some .memory)
  unfold packedRun at hend ⊢
  generalize exec (perform (Z := Zlib.counting gzipHi (ascii "hi")) packedEnv packedCall)
    (World.start {} false false [] (some .memory)) = run at hend hdelivers ⊢
  obtain ⟨hok, -, hbytes⟩ := hend
  refine ⟨hbytes, hdelivers ?_⟩
  cases hres : run.1 with
  | ok _ => rfl
  | error rc =>
    rw [hres] at hok
    cases hok

end Zuhttp
