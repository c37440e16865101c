import Zuhttp.Proofs.Confinement

/-!
# Requests over HTTP/1.1 on the wire

The framing field in a request's head, what stands behind the head, and the Host field.
-/

namespace Zuhttp

open Prog World Dechunk

variable {Z : Zlib} {call : Call} {src : Source} {cs : List Chain} {sent : List Sent}
  {answered : List Answer} {c : Chain} {r : Sent} {k : Nat}

/-! ### The chain of a request -/

/-- A hop that streams its body is the first one. -/
lemma Logged.streams (h : Logged call src cs sent answered) (hc : cs[k]? = some c)
    (hlive : c.srcLive = true) : Starts call src.next c := by
  cases k with
  | zero => exact h.starts c hc
  | succ k =>
    obtain ⟨n, a, x, -, -, -, hnext⟩ := h.entered (i := 0) (Nat.succ_pos k) hc
    have hdead : c.srcLive = false := hnext.turns.srcLive
    rw [hlive] at hdead
    cases hdead

lemma Logged.first (h : Logged call src cs sent answered) (hc : cs[k]? = some c) :
    ∃ c₀, cs[0]? = some c₀ ∧ Starts call src.next c₀ := by
  have hlt : 0 < cs.length := Nat.zero_lt_of_lt (List.getElem?_eq_some_iff.mp hc).1
  exact ⟨_, List.getElem?_eq_getElem hlt, h.starts _ (List.getElem?_eq_getElem hlt)⟩

/-- A hop sends the caller's body or none. -/
lemma Logged.body (h : Logged call src cs sent answered) (hc : cs[k]? = some c) :
    c.body = call.req.body ∨ c.body = [] := by
  obtain ⟨c₀, hc₀, hstarts⟩ := h.first hc
  refine h.keeps (P := fun c => c.body = call.req.body ∨ c.body = []) (fun x a y hxy hx => ?_) hc₀
    (Or.inl hstarts.body) k c (by rwa [Nat.zero_add])
  have hbody := hxy.turns.table.2
  split_ifs at hbody
  · exact Or.inr hbody
  · exact hx.imp hbody.trans hbody.trans

/-! ### Framing -/

/-- The field that frames the body of a hop. -/
def framingOf (c : Chain) : List (Bytes × Bytes) :=
  if c.srcLive then [(ascii "Transfer-Encoding", ascii "chunked")]
  else if c.body ≠ [] ∨ methodExpectsContent c.method then
    [(ascii "Content-Length", Decimal.decimalText c.body.length)]
  else []

lemma has_false {h : Headers} {name : Bytes} (hall : ∀ f ∈ h.fields, ¬CaseEq f.1 name) :
    h.has name = false := by
  rw [Bool.eq_false_iff, Ne, Headers.has_iff, not_not]
  exact fieldsNamed_eq_nil hall

/-- The one framing field of a request. -/
lemma Records.framing (h : Records call src.answers c r) (hlen : c.body.length < 2 ^ 64)
    (hall : ∀ f ∈ r.rq.headers.fields, ¬IsFraming f) : r.rq.framingFields = framingOf c := by
  have hcl : r.rq.headers.has (ascii "Content-Length") = false :=
    has_false (fun f hf heq => hall f hf (Or.inl heq))
  have hte : r.rq.headers.has (ascii "Transfer-Encoding") = false :=
    has_false (fun f hf heq => hall f hf (Or.inr heq))
  have hbody := h.rq.body
  have hlength := h.rq.length
  unfold requestBody at hbody hlength
  unfold Request.framingFields framingOf
  rw [hcl, hte, hbody]
  by_cases hlive : c.srcLive = true
  · rw [if_pos hlive, if_pos hlive]
    rfl
  · rw [if_neg hlive] at hlength ⊢
    rw [if_neg hlive]
    by_cases hsome : c.body ≠ [] ∨ methodExpectsContent c.method = true
    · rw [if_pos hsome] at hlength ⊢
      rw [if_pos hsome]
      have hvalue : r.rq.contentLength.toNat = c.body.length := by
        rw [hlength]
        exact UInt64.toNat_ofNat_of_lt hlen
      rw [hvalue]
      rfl
    · rw [if_neg hsome, if_neg hsome]

lemma framingOf_cases (c : Chain) :
    (c.srcLive = true ∧ framingOf c = [(ascii "Transfer-Encoding", ascii "chunked")]) ∨
    (c.srcLive = false ∧
      framingOf c = [(ascii "Content-Length", Decimal.decimalText c.body.length)]) ∨
    (c.srcLive = false ∧ c.body = [] ∧ framingOf c = []) := by
  unfold framingOf
  by_cases hlive : c.srcLive = true
  · exact Or.inl ⟨hlive, if_pos hlive⟩
  · rw [if_neg hlive]
    have hdead := Bool.eq_false_iff.mpr hlive
    by_cases hsome : c.body ≠ [] ∨ methodExpectsContent c.method = true
    · exact Or.inr (Or.inl ⟨hdead, if_pos hsome⟩)
    · exact Or.inr (Or.inr ⟨hdead, not_not.mp (fun h => hsome (Or.inl h)), if_neg hsome⟩)

/-- The head of a request over HTTP/1.1, as a reader makes it out. -/
lemma Records.head (h : Records call src.answers c r) (hh1 : r.h2 = false) :
    ∃ b, exec r.rq.write (Buffer.init wireMax) = (.ok (), b) ∧
      readRequest b.data = some r.rq.onWire ∧
      ∀ bytes, r.wrote = some bytes → bytes = b.data ++ r.content := by
  obtain ⟨b, hwrite, hwrote⟩ := h.written hh1
  obtain ⟨out, hdata, -, hread, -⟩ := Request.write_reads hwrite
  have hout : b.data = out := hdata.trans (List.nil_append out)
  exact ⟨b, hwrite, hout ▸ hread, hwrote⟩

/-- What the framing field of a request says of the bytes behind the head. -/
structure Frames (pieces : List Bytes) (r : Sent) (fields : List (Bytes × Bytes))
    (body : Bytes) : Prop where
  length : ∀ f ∈ fields, CaseEq f.1 (ascii "Content-Length") →
    f.2 = Decimal.decimalText r.body.length ∧ body = r.body
  chunked : ∀ f ∈ fields, CaseEq f.1 (ascii "Transfer-Encoding") →
    f.2 = ascii "chunked" ∧ dechunk body = (pieces.flatten, some (ascii "\r\n"))
  none : (∀ f ∈ fields, ¬IsFraming f) → body = []

/-- A list with no framing field but the one of the hop. -/
lemma framing_fields {fs gs : List (Bytes × Bytes)} (h : ∀ f ∈ fs, ¬IsFraming f) :
    ∀ f ∈ fs ++ gs, IsFraming f → f ∈ gs := by
  intro f hf hframing
  rcases List.mem_append.mp hf with hf | hf
  · exact absurd hframing (h f hf)
  · exact hf

lemma Logged.frames (h : Logged call src cs sent answered)
    (hbody : call.req.body.length < 2 ^ 64) (hone : src.next = true → call.req.body = [])
    (hpieces : ∀ d, .ok d ∈ src.answers → d.length < 2 ^ 64) (hc : cs[k]? = some c)
    (hr : Records call src.answers c r) (hh1 : r.h2 = false) :
    (r.rq.onWire.fields.filter (fun f => decide (IsFraming f))).length ≤ 1 ∧
      Frames (pieces src.answers) r r.rq.onWire.fields r.content := by
  have hlen : c.body.length < 2 ^ 64 := by
    rcases h.body hc with hsame | hnone
    · rwa [hsame]
    · rw [hnone]
      decide
  obtain ⟨c₀, -, hstarts⟩ := h.first hc
  have hall := hr.unframed (if_neg (fun hh => by rw [hh1] at hh; cases hh.1)) hstarts.unframed
  have hfields : r.rq.onWire.fields = r.rq.headers.fields ++ framingOf c :=
    congrArg (r.rq.headers.fields ++ ·) (hr.framing hlen hall)
  have hcontent : r.content =
      c.body ++ if c.srcLive then chunksText (pieces r.answers) else [] := by
    rw [← hr.body, ← hr.streamed]
    rfl
  have hname : ¬CaseEq (ascii "Transfer-Encoding") (ascii "Content-Length") := by decide
  rw [hfields, hcontent, List.filter_append,
    List.filter_eq_nil_iff.mpr (fun f hf => by simpa using hall f hf), List.nil_append]
  rcases framingOf_cases c with ⟨hlive, hone'⟩ | ⟨hdead, hone'⟩ | ⟨hdead, hempty, hone'⟩
  · rw [hone', if_pos hlive]
    have hstart := h.streams hc hlive
    have hnone : c.body = [] := hstart.body.trans (hone (hstart.source ▸ hlive))
    have hsrc := hr.source hh1 (hr.streamed.trans hlive)
    rw [hnone, List.nil_append, hsrc]
    refine ⟨by decide, ?_, ?_, fun hno => absurd (Or.inr (CaseEq.refl _)) (hno _
      (List.mem_append_right _ (List.mem_singleton_self _)))⟩
    · intro f hf hcl
      rw [List.mem_singleton.mp (framing_fields hall f hf (Or.inl hcl))] at hcl
      exact absurd hcl hname
    · intro f hf hte
      rw [List.mem_singleton.mp (framing_fields hall f hf (Or.inr hte))]
      refine ⟨rfl, dechunk_chunksText (fun p hp => ?_)⟩
      obtain ⟨hne, hmem⟩ := mem_pieces hp
      exact ⟨hne, hpieces p hmem⟩
  · rw [hone', if_neg (by simp [hdead]), List.append_nil]
    refine ⟨(List.length_filter_le _ _).trans le_rfl, ?_, ?_, fun hno => absurd
      (Or.inl (CaseEq.refl _)) (hno _ (List.mem_append_right _ (List.mem_singleton_self _)))⟩
    · intro f hf hcl
      rw [List.mem_singleton.mp (framing_fields hall f hf (Or.inl hcl))]
      exact ⟨by rw [hr.body], hr.body.symm⟩
    · intro f hf hte
      rw [List.mem_singleton.mp (framing_fields hall f hf (Or.inr hte))] at hte
      exact absurd hte.symm hname
  · rw [hone', if_neg (by simp [hdead]), hempty]
    refine ⟨Nat.zero_le _, ?_, ?_, fun _ => rfl⟩
    · intro f hf hcl
      exact absurd (framing_fields hall f hf (Or.inl hcl)) List.not_mem_nil
    · intro f hf hte
      exact absurd (framing_fields hall f hf (Or.inr hte)) List.not_mem_nil

/-- A request over HTTP/1.1 has at most one field that frames a body, and what stands behind
its head is a body as that field says: the caller's or none, or the pieces of the source in
chunks. A call has a body in memory or a source, and the sizes are those of memory. -/
theorem perform_frames (env : Env) (call : Call) (host : Host) (next release : Bool)
    (answers : List (Except Fail Bytes)) (sink : Option Sink)
    (hbody : call.req.body.length < 2 ^ 64) (hone : next = true → call.req.body = [])
    (hpieces : ∀ d, .ok d ∈ answers → d.length < 2 ^ 64) :
    let run := exec (perform (Z := Z) env call) (World.start host next release answers sink)
    ∀ (k : Nat) (r : Sent), run.2.sent[k]? = some r → r.h2 = false →
      ∃ b q, exec r.rq.write (Buffer.init wireMax) = (.ok (), b) ∧ readRequest b.data = some q ∧
        (r.body = call.req.body ∨ r.body = []) ∧
        (q.fields.filter (fun f => decide (IsFraming f))).length ≤ 1 ∧
        ∀ bytes, r.wrote = some bytes →
          ∃ body, bytes = b.data ++ body ∧ Frames (pieces answers) r q.fields body := by
  intro run k r hr hh1
  obtain ⟨⟨⟨cs, hlog⟩, -⟩, -⟩ := perform_tells (Z := Z) env call host next release answers sink
  obtain ⟨c, hc, hrec⟩ := hlog.records k r hr
  obtain ⟨b, hwrite, hread, hwrote⟩ := hrec.head hh1
  obtain ⟨hcount, hframes⟩ := hlog.frames hbody hone hpieces hc hrec hh1
  refine ⟨b, r.rq.onWire, hwrite, hread, ?_, hcount, fun bytes hbytes =>
    ⟨r.content, hwrote bytes hbytes, hframes⟩⟩
  rw [hrec.body]
  exact hlog.body hc

/-- A POST whose body is streamed in two pieces. -/
def pieceCall : Call where
  url := ascii "http://a/"
  req := { method := some (ascii "POST") }

def pieceAnswers : List (Except Fail Bytes) := [.ok (ascii "ab"), .ok (ascii "c"), .ok []]

lemma pieceRun_log : (exec (perform (Z := Zlib.knowing [] []) movedEnv pieceCall)
    (World.start {} true false pieceAnswers none)).2.sent.map (fun r => (r.h2, r.wrote)) =
      [(false, some (ascii ("POST / HTTP/1.1\r\nHost: a\r\nUser-Agent: zuhttp\r\n" ++
        "Accept: */*\r\nAccept-Encoding: gzip\r\nConnection: close\r\n" ++
        "Transfer-Encoding: chunked\r\n\r\n2\r\nab\r\n1\r\nc\r\n0\r\n\r\n"))),
       (false, some (ascii ("GET /b HTTP/1.1\r\nHost: a\r\nUser-Agent: zuhttp\r\n" ++
        "Accept: */*\r\nAccept-Encoding: gzip\r\nConnection: close\r\n\r\n")))] := by
  decide +kernel

theorem perform_frames_pieces : ∃ r q body, (exec (perform (Z := Zlib.knowing [] []) movedEnv
      pieceCall) (World.start {} true false pieceAnswers none)).2.sent[0]? = some r ∧
    r.wrote.isSome = true ∧ Frames [ascii "ab", ascii "c"] r q body := by
  have hrun := perform_frames (Z := Zlib.knowing [] []) movedEnv pieceCall {} true false
    pieceAnswers none (by decide) (fun _ => rfl)
    (fun d hd => by
      simp only [pieceAnswers, List.mem_cons, Except.ok.injEq, List.not_mem_nil, or_false] at hd
      rcases hd with rfl | rfl | rfl <;> decide)
  have hlog := pieceRun_log
  dsimp only at hrun
  generalize (exec (perform (Z := Zlib.knowing [] []) movedEnv pieceCall)
    (World.start {} true false pieceAnswers none)).2.sent = sent at hrun hlog ⊢
  obtain ⟨r, sent, rfl, hr, -⟩ := List.map_eq_cons_iff.mp hlog
  obtain ⟨hh1, hwrote⟩ := Prod.mk.inj hr
  obtain ⟨b, q, -, -, -, -, hbytes⟩ := hrun 0 r rfl hh1
  obtain ⟨body, -, hframes⟩ := hbytes _ hwrote
  exact ⟨r, _, body, rfl, by rw [hwrote]; rfl, hframes⟩

/-! ### The Host field -/

/-- A request says once which host it is for, and says the host of its target. -/
def HostOf (u : Uri) (fs : List (Bytes × Bytes)) : Prop :=
  ∃ f, fieldsNamed (ascii "Host") fs = [f] ∧ u.hostHeader = some f.2

instance (u : Uri) (fs : List (Bytes × Bytes)) : Decidable (HostOf u fs) :=
  match h : fieldsNamed (ascii "Host") fs with
  | [f] => decidable_of_iff (u.hostHeader = some f.2) (by simp [HostOf, h])
  | [] => isFalse (by simp [HostOf, h])
  | _ :: _ :: _ => isFalse (by simp [HostOf, h])

/-- The Host fields of the caller that a hop sends agree with its target. -/
def HostsAgree (u : Uri) (fs : List (Bytes × Bytes)) : Prop :=
  fieldsNamed (ascii "Host") fs = [] ∨ HostOf u fs

lemma framingFields_hosts (rq : Request) :
    fieldsNamed (ascii "Host") rq.onWire.fields = fieldsNamed (ascii "Host") rq.headers.fields := by
  have hnone : fieldsNamed (ascii "Host") rq.framingFields = [] := by
    refine fieldsNamed_eq_nil (fun f hf => ?_)
    unfold Request.framingFields at hf
    split at hf
    · cases hf
    · split_ifs at hf
      · cases hf
      · rw [List.mem_singleton.mp hf]
        exact (by decide : ¬CaseEq (ascii "Content-Length") (ascii "Host"))
    · split_ifs at hf
      · cases hf
      · rw [List.mem_singleton.mp hf]
        decide
  unfold Request.onWire
  rw [fieldsNamed_append, hnone, List.append_nil]

/-- The host of a target is sent where the caller names none. -/
lemma hostOf_hostsSent {u : Uri} {fs gs : List (Bytes × Bytes)} (hsome : u.hostHeader.isSome = true)
    (hsent : fieldsNamed (ascii "Host") gs = hostsSent u.hostHeader fs) :
    HostOf u gs ↔ HostsAgree u fs := by
  unfold HostsAgree
  unfold hostsSent at hsent
  by_cases hnone : fieldsNamed (ascii "Host") fs = []
  · rw [if_pos hnone] at hsent
    obtain ⟨host, hhost⟩ := Option.isSome_iff_exists.mp hsome
    refine iff_of_true ⟨(ascii "Host", host), ?_, hhost⟩ (Or.inl hnone)
    rw [hsent, hhost]
    rfl
  · rw [if_neg hnone] at hsent
    unfold HostOf
    rw [hsent, or_iff_right hnone]

/-- A request names the host of its target, as HTTP/2 does in `:authority`. Over HTTP/1.1 its
head has this host in one Host field exactly where the caller's Host fields that it carries
agree with the target. -/
theorem perform_hosts (env : Env) (call : Call) (host : Host) (next release : Bool)
    (answers : List (Except Fail Bytes)) (sink : Option Sink) :
    let run := exec (perform (Z := Z) env call) (World.start host next release answers sink)
    ∀ (k : Nat) (r : Sent), run.2.sent[k]? = some r →
      (∀ c, r.uri.hostHeader = some (h2Request c r.rq).authority) ∧
      (r.h2 = false → ∃ b q crossed, exec r.rq.write (Buffer.init wireMax) = (.ok (), b) ∧
        readRequest b.data = some q ∧
        (crossed = false ↔ OneOrigin (run.2.sent.map Sent.uri) k) ∧
        (HostOf r.uri q.fields ↔
          HostsAgree r.uri (callerFields call.opts.redact crossed call.req.headers))) := by
  intro run k r hr
  obtain ⟨⟨⟨cs, hlog⟩, -⟩, -⟩ := perform_tells (Z := Z) env call host next release answers sink
  obtain ⟨c, hc, hrec⟩ := hlog.records k r hr
  have hhost : r.uri.hostHeader = r.rq.host := by rw [hrec.uri, hrec.rq.host]
  refine ⟨fun _ => ?_, fun hh1 => ?_⟩
  · obtain ⟨authority, hsome⟩ := Option.isSome_iff_exists.mp hrec.rq.hosted
    rw [hhost, hsome, h2Request, hsome]
    rfl
  · obtain ⟨b, hwrite, hread, -⟩ := hrec.head hh1
    refine ⟨b, r.rq.onWire, c.stripCreds, hwrite, hread, ?_, ?_⟩
    · rw [hlog.strips k c hc]
      exact hlog.oneOrigin hr
    · refine hostOf_hostsSent (by rw [hhost]; exact hrec.rq.hosted) ?_
      rw [framingFields_hosts, hrec.rq.hosts, keptHeaders_eq, hrec.uri]

/-- A server that redirects to another one. -/
def awayEnv : Env where
  uri := .known [(ascii "http://a/", .http "a" "/" lower_a), (ascii "http://b/", .http "b" "/")]
  hop n := .plain [if n = 0 then
      .text "HTTP/1.1 302 Found\r\nLocation: http://b/\r\nContent-Length: 0\r\n\r\n"
    else .text "HTTP/1.1 200 OK\r\nContent-Length: 0\r\n\r\n" okReply_fits]

def hostCall : Call where
  url := ascii "http://a/"
  req := { headers := [(ascii "Host", ascii "a")] }

/-- The host of the first target is sent to the second one. -/
theorem perform_keeps_host : ¬∀ (env : Env) (call : Call) (host : Host) (next release : Bool)
    (answers : List (Except Fail Bytes)) (sink : Option Sink),
    let run := exec (perform (Z := Zlib.knowing [] []) env call)
      (World.start host next release answers sink)
    ∀ (k : Nat) (r : Sent), run.2.sent[k]? = some r → r.h2 = false →
      ∀ b q, exec r.rq.write (Buffer.init wireMax) = (.ok (), b) → readRequest b.data = some q →
        HostOf r.uri q.fields := by
  intro hall
  have hrun := hall awayEnv hostCall {} false false [] none
  have hlog : (exec (perform (Z := Zlib.knowing [] []) awayEnv hostCall)
      (World.start {} false false [] none)).2.sent.map (fun r => (r.h2,
        (exec r.rq.write (Buffer.init wireMax)).1.isOk,
        (readRequest (exec r.rq.write (Buffer.init wireMax)).2.data).map (fun q =>
          decide (HostOf r.uri q.fields)))) =
        [(false, true, some true), (false, true, some false)] := by
    decide +kernel
  dsimp only at hrun
  generalize (exec (perform (Z := Zlib.knowing [] []) awayEnv hostCall)
    (World.start {} false false [] none)).2.sent = sent at hrun hlog
  obtain ⟨r, sent, rfl, -, hlog⟩ := List.map_eq_cons_iff.mp hlog
  obtain ⟨r', sent, rfl, hr', -⟩ := List.map_eq_cons_iff.mp hlog
  simp only [Prod.mk.injEq] at hr'
  obtain ⟨hh1, hwrite, hread⟩ := hr'
  obtain ⟨q, hq, hhost⟩ := Option.map_eq_some_iff.mp hread
  have hok : exec r'.rq.write (Buffer.init wireMax) =
      (.ok (), (exec r'.rq.write (Buffer.init wireMax)).2) := by
    cases hrun' : exec r'.rq.write (Buffer.init wireMax) with
    | mk res b =>
      rw [hrun'] at hwrite
      cases res with
      | ok u => rfl
      | error rc => cases hwrite
  exact of_decide_eq_false hhost (hrun 1 r' rfl hh1 _ q hok hq)

end Zuhttp
