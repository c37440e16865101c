import Zuhttp.Proofs.Cap

/-!
# Failures of the cap

Where a failure with the code of the cap comes from. The sink, the stream and nghttp2 have
codes of their own, and under identity coding the pipe refuses a piece for its size when it
goes past the cap. An HTTP/2 body that fits is never refused so.
-/

namespace Zuhttp

open Loop

variable {Z : Zlib}

/-- Not a failure of the cap. -/
def SparesLimit (res : Option Fail) : Prop := ∀ f, res = some f → f.rc ≠ .bodyLimit

/-- The sink fails with codes of its own. -/
def Sink.SparesLimit (respond : List Bytes → Bytes → SinkAnswer) : Prop :=
  ∀ handed data f stopped, respond handed data = .refuse f stopped → f.rc ≠ .bodyLimit

/-- The stream fails with codes of its own. -/
def Transport.SparesLimit (t : Transport) : Prop :=
  ∀ f, t.ending = .fail f → f.rc ≠ .bodyLimit

/-- nghttp2 and the stream under it fail with codes of their own. -/
structure H2Env.SparesLimit (env : H2Env) : Prop where
  flushes : ∀ a ∈ env.flushes, Zuhttp.SparesLimit a.failure
  reads : ∀ f, .fail f ∈ env.reads → f.rc ≠ .bodyLimit
  frames : ∀ events failure allowed, .frames events failure allowed ∈ env.reads →
    Zuhttp.SparesLimit failure

lemma sparesLimit_none : SparesLimit none := fun _ h => by cases h

lemma sparesLimit_set (rc : Code) (phase : Phase) (message : String) (h : rc ≠ .ok)
    (hrc : rc ≠ .bodyLimit) : SparesLimit (some (Fail.set rc phase message h)) := by
  intro f hf
  cases hf
  exact hrc

/-! ### The pipe -/

namespace BodyPipe

/-- Under identity coding a piece is refused for its size when it goes past the cap. -/
lemma feed_limit {p q : BodyPipe Z} {s : Bytes} {f : Fail} (hid : p.inflate = none)
    (hsink : Sink.SparesLimit p.sink.respond) (hfeed : p.feed s = (q, some f))
    (hf : f.rc = .bodyLimit) :
    p.capCheck s.length ≠ none ∧ p.maxBody < p.sink.written + s.length := by
  unfold feed at hfeed
  split_ifs at hfeed with hempty
  · cases hfeed
  rw [hid] at hfeed
  dsimp only at hfeed
  cases hcheck : p.capCheck s.length with
  | some g =>
    unfold capCheck at hcheck
    split_ifs at hcheck with hzero hle
    exact ⟨by simp, by omega⟩
  | none =>
    rw [hcheck] at hfeed
    unfold deliver Sink.write at hfeed
    rw [if_neg hempty] at hfeed
    cases hrespond : p.sink.respond p.sink.handed s with
    | accept =>
      rw [hrespond] at hfeed
      cases hfeed
    | refuse g stopped =>
      rw [hrespond] at hfeed
      cases hfeed
      exact absurd hf (hsink _ _ _ _ hrespond)

lemma feed_over {p : BodyPipe Z} {s : Bytes} (hid : p.inflate = none) (hs : s ≠ [])
    (hcheck : p.capCheck s.length ≠ none) : p.feed s = (p, some capExceeded) := by
  unfold feed
  rw [if_neg hs, hid]
  dsimp only
  unfold capCheck at hcheck ⊢
  split_ifs at hcheck ⊢ with hzero hle
  · exact absurd rfl hcheck
  · exact absurd rfl hcheck
  · rfl

/-- Under identity coding the sink counts what was fed. -/
lemma fed_written {p₀ p : BodyPipe Z} {data : Bytes} (hid : p₀.inflate = none)
    (h : p₀.Fed data p) : p.sink.written = p₀.sink.written + data.length ∧
      p.sink.respond = p₀.sink.respond ∧ p.maxBody = p₀.maxBody := by
  induction h with
  | start hcore =>
    obtain ⟨hsink, -, hmax⟩ := by simpa [core] using hcore
    exact ⟨by rw [hsink]; rfl, by rw [hsink], hmax⟩
  | @piece data p q r h s hfeed hr ih =>
    obtain ⟨hwritten, hrespond, hmax⟩ := ih
    obtain ⟨hsink, -, hmax'⟩ := by simpa [core] using hr
    have hkeeps := (feed_keeps p s).2.2.2
    rw [hfeed] at hkeeps
    obtain ⟨hnone, -⟩ := fed_identity hid h
    rw [hsink, hmax', hkeeps, hmax, List.length_append, ← Nat.add_assoc, ← hwritten, ← hrespond]
    unfold feed at hfeed
    split_ifs at hfeed with hempty
    · cases hfeed
      simp [hempty]
    · rw [hnone] at hfeed
      dsimp only at hfeed
      split at hfeed
      · cases hfeed
      · obtain ⟨-, -, -, hsame, hcount⟩ := write_cases p.sink s
        obtain ⟨hq, hres⟩ := Prod.mk.inj hfeed
        rw [← hq]
        exact ⟨hcount hres, hsame, rfl⟩

end BodyPipe

/-! ### HTTP/2 -/

namespace H2

/-- No failure of the cap is on the way. -/
def Spares (h : H2) : Prop := Zuhttp.SparesLimit h.cbFail ∧ h.env.SparesLimit

lemma cbFailWith_spares {h : H2} {f : Fail} (hh : Spares h) (hf : f.rc ≠ .bodyLimit) :
    Spares (h.cbFailWith f).1 := by
  unfold cbFailWith
  split
  · exact ⟨fun g hg => (by cases hg; exact hf), hh.2⟩
  · exact hh

lemma onBeginHeaders_spares {h : H2} (sid : Nat) (hh : Spares h) :
    Spares (h.onBeginHeaders sid).1 := by
  unfold onBeginHeaders
  dsimp only
  split_ifs
  · exact hh
  · exact hh
  · split
    · exact cbFailWith_spares hh (by decide)
    · exact hh

lemma onHeader_spares {h : H2} (sid : Nat) (name value : Bytes) (hh : Spares h) :
    Spares (h.onHeader sid name value).1 := by
  unfold onHeader
  dsimp only
  by_cases hsid : sid ≠ h.sid
  · rw [if_pos hsid]
    exact hh
  rw [if_neg hsid]
  by_cases hsize : h.blockBytes + name.length + value.length + fieldOverhead > h.maxHeaderBytes
  · rw [if_pos hsize]
    exact cbFailWith_spares hh (by simp)
  rw [if_neg hsize]
  by_cases hpseudo : name.head? = some 58
  · rw [if_pos hpseudo]
    split
    · split_ifs <;> exact hh
    · exact hh
  rw [if_neg hpseudo]
  by_cases htrailers : h.inTrailers = true
  · rw [if_pos htrailers]
    split
    · exact hh
    · exact cbFailWith_spares hh (by decide)
  · rw [if_neg htrailers]
    split
    · exact cbFailWith_spares hh (by decide)
    · split
      · exact hh
      · exact cbFailWith_spares hh (by decide)

lemma onFrameRecv_spares {h : H2} (f : Frame) (hh : Spares h) : Spares (h.onFrameRecv f).1 := by
  unfold onFrameRecv
  split
  · exact hh
  · exact hh
  · split_ifs <;> exact hh
  · split_ifs
    · exact hh
    · exact hh
    · split
      · exact cbFailWith_spares hh (by decide)
      · exact hh
    · exact hh
  · exact hh
  · exact hh

lemma callback_spares {h : H2} (e : H2Event) (hh : Spares h) : Spares (h.callback e).1 := by
  unfold callback
  dsimp only
  cases e with
  | beginHeaders sid => exact onBeginHeaders_spares sid hh
  | header sid name value => exact onHeader_spares sid name value hh
  | frameRecv f => exact onFrameRecv_spares f hh
  | dataChunk sid bytes =>
    unfold onData
    dsimp only
    split_ifs
    · exact hh
    · exact cbFailWith_spares hh (by decide)
    · exact hh
  | streamClose sid code =>
    unfold onClose
    dsimp only
    split_ifs <;> exact hh

lemma hear_spares {h : H2} (es : List H2Event) (hh : Spares h) : Spares (h.hear es).1 := by
  induction es generalizing h with
  | nil => exact hh
  | cons e es ih =>
    unfold hear
    have hnext := callback_spares e hh
    split
    · next hcb =>
      rw [hcb] at hnext
      exact hnext
    · next hcb =>
      rw [hcb] at hnext
      exact ih hnext

lemma flush_spares {h : H2} (hh : Spares h) :
    Spares h.flush.1 ∧ Zuhttp.SparesLimit h.flush.2 := by
  unfold flush
  split
  · exact ⟨hh, sparesLimit_none⟩
  · next a flushes hflushes =>
    have henv : H2Env.SparesLimit { h.env with flushes := flushes } :=
      ⟨fun b hb => hh.2.flushes b (by rw [hflushes]; exact List.mem_cons_of_mem _ hb),
        hh.2.reads, hh.2.frames⟩
    have hheard := hear_spares (h := { h with env.flushes := flushes })
      (a.closes.map (fun c => .streamClose c.1 c.2)) ⟨hh.1, henv⟩
    have hanswer := hh.2.flushes a (by rw [hflushes]; exact List.mem_cons_self)
    dsimp only
    cases hfail : a.failure with
    | none => exact ⟨hheard, sparesLimit_none⟩
    | some f =>
      rw [hfail] at hanswer
      exact ⟨hheard, hanswer⟩

lemma recv_spares {h : H2} (hh : Spares h) :
    Spares h.recv.1 ∧ Zuhttp.SparesLimit h.recv.2 := by
  unfold recv
  split
  · exact ⟨hh, sparesLimit_set _ _ _ _ (by decide)⟩
  · next a reads hreads =>
    have henv : H2Env.SparesLimit { h.env with reads := reads } :=
      ⟨hh.2.flushes, fun f hf => hh.2.reads f (by rw [hreads]; exact List.mem_cons_of_mem _ hf),
        fun es f al hf =>
          hh.2.frames es f al (by rw [hreads]; exact List.mem_cons_of_mem _ hf)⟩
    have hrest : Spares { h with env.reads := reads } := ⟨hh.1, henv⟩
    cases a with
    | finished =>
      dsimp only
      split_ifs
      · exact ⟨hrest, sparesLimit_set _ _ _ _ (by decide)⟩
      · exact ⟨hrest, sparesLimit_set _ _ _ _ (by decide)⟩
    | fail f =>
      have hf := hh.2.reads f (by rw [hreads]; exact List.mem_cons_self)
      exact ⟨hrest, fun g hg => (by cases hg; exact hf)⟩
    | wouldblock => exact ⟨hrest, sparesLimit_none⟩
    | frames events failure allowed =>
      have hfailure := hh.2.frames events failure allowed
        (by rw [hreads]; exact List.mem_cons_self)
      have hheard := hear_spares events hrest
      dsimp only
      generalize hear { h with env.reads := reads } events = heard at hheard ⊢
      obtain ⟨h₁, bad⟩ := heard
      have hall : Zuhttp.SparesLimit (if bad = true then some (Fail.bare .nomem) else failure) := by
        split_ifs
        · exact fun g hg => (by cases hg; decide)
        · exact hfailure
      dsimp only at hheard ⊢
      generalize (if bad = true then some (Fail.bare .nomem) else failure) = res at hall ⊢
      cases res with
      | none => exact flush_spares (h := { h₁ with allowed := allowed }) hheard
      | some f =>
        refine ⟨hheard, fun g hg => ?_⟩
        cases hg
        cases hcb : h₁.cbFail with
        | none => exact hall f rfl
        | some g => exact hheard.1 g hcb

lemma pump_spares {h : H2} (hh : Spares h) :
    Spares h.pump.1 ∧ Zuhttp.SparesLimit h.pump.2 := by
  have hflush := flush_spares hh
  unfold pump
  split
  · next heq =>
    rw [heq] at hflush
    exact hflush
  · next heq =>
    rw [heq] at hflush
    exact recv_spares hflush.1

lemma pumpStream_spares {h : H2} (hh : Spares h) :
    Spares h.pumpStream.1 ∧ Zuhttp.SparesLimit h.pumpStream.2 := by
  have hflush := flush_spares hh
  unfold pumpStream
  split
  · next heq =>
    rw [heq] at hflush
    exact hflush
  · next heq =>
    rw [heq] at hflush
    split_ifs
    · exact ⟨hflush.1, sparesLimit_none⟩
    · exact pump_spares hflush.1

lemma streamOutcome_spares {h h' : H2} {f : Fail} (hout : h.streamOutcome = (h', some f)) :
    f.rc ≠ .bodyLimit := by
  unfold streamOutcome at hout
  split_ifs at hout
  · cases hout
  all_goals
    cases hout
    simp

lemma beginStep_spares {h h' : H2} (hh : Spares h) (hstep : h.beginStep = (h', none)) :
    Spares h' := by
  unfold beginStep at hstep
  split_ifs at hstep
  · split at hstep
    · cases hstep
    · cases hstep
  · have hpump := (pumpStream_spares hh).1
    rw [hstep] at hpump
    exact hpump

lemma begin_spares {h h' : H2} {rq : H2Request} {hdrs : Headers} {resp : H2Response}
    (henv : h.env.SparesLimit) (hbegin : h.begin rq hdrs = (h', .ok resp)) : Spares h' := by
  unfold H2.begin at hbegin
  split_ifs at hbegin
  · cases hbegin
  · cases hbegin
  · dsimp only at hbegin
    split at hbegin
    · cases hbegin
    · next answer submits _ =>
      cases answer with
      | error f => cases hbegin
      | ok sid =>
        dsimp only at hbegin
        generalize hloop : Loop.iterate beginStep headersDone _ _ = r at hbegin
        obtain ⟨h₁, res⟩ := r
        cases res with
        | some f => cases hbegin
        | none =>
          cases hbegin
          have hall : Spares h₁ := by
            refine (Loop.iterate_reached hloop).invariant (I := Spares) ?_ ?_
            · exact ⟨sparesLimit_none, henv.flushes, henv.reads, henv.frames⟩
            · intro s s' hs _ hstep
              exact beginStep_spares hs hstep
          exact hall

section Limit

variable {p₀ : BodyPipe Z}

lemma endStep_limit {h : H2} {p : BodyPipe Z} {fed : Bytes} {st : BodyState Z} {f : Fail}
    (hid : p₀.inflate = none) (hzero : p₀.sink.written = 0)
    (hsink : Sink.SparesLimit p₀.sink.respond) (hreported : h.lawful = true → Reported fed h)
    (hfed : p₀.Fed fed p) (hstep : endStep h p = (st, some f)) (hf : f.rc = .bodyLimit)
    (hlaw : st.conn.lawful = true) : p₀.maxBody < st.conn.payloads.length := by
  have hcases := endStep_cases h p
  rw [hstep] at hcases
  have hfed' : p₀.Fed fed { p with rawSeen := p.rawSeen + h.data.length } := hfed.congr rfl
  obtain ⟨hnone, -⟩ := BodyPipe.fed_identity hid hfed
  obtain ⟨hwritten, hrespond, hmax⟩ := BodyPipe.fed_written hid hfed'
  cases hcases with
  | refused hfeed =>
    have hover := (BodyPipe.feed_limit (p := { p with
      rawSeen := p.rawSeen + h.data.length }) hnone (by rw [hrespond]; exact hsink) hfeed hf).2
    have hpayload := (reported_drained (hreported hlaw)).payload
    rw [hpayload, List.length_append, List.length_append]
    omega
  | reset hfeed _ hout => exact absurd hf (streamOutcome_spares hout)
  | unfinished hfeed _ _ hfinish =>
    have hnow := hfed'.piece h.data hfeed rfl
    rw [BodyPipe.finish_identity (BodyPipe.fed_identity hid hnow).1] at hfinish
    cases hfinish

lemma endStep_spares {h : H2} {p : BodyPipe Z} {st : BodyState Z} (hh : Spares h)
    (hstep : endStep h p = (st, none)) : Spares st.conn := by
  have hcases := endStep_cases h p
  rw [hstep] at hcases
  cases hcases with
  | goesOn _ _ => exact hh
  | ended _ _ _ _ =>
    exact (flush_spares (h := { h.drained with trailers := Headers.init }) hh).1

/-- Under identity coding an HTTP/2 body is refused for its size only past the cap. -/
lemma body_limit {h : H2} {st : BodyState Z} {f : Fail} (hid : p₀.inflate = none)
    (hzero : p₀.sink.written = 0) (hsink : Sink.SparesLimit p₀.sink.respond)
    (hstart : h.lawful = true → Reported [] h) (hspares : Spares h)
    (hbody : body h p₀ = (st, some f)) (hf : f.rc = .bodyLimit)
    (hlaw : st.conn.lawful = true) : p₀.maxBody < st.conn.payloads.length := by
  obtain ⟨last, hreached, hgoing, hlast⟩ := Loop.iterate_failed hbody
  have hinv := hreached.invariant
    (I := fun s => s.done = false → Going p₀ s ∧ Spares s.conn)
    (fun _ => ⟨⟨[], hstart, .start rfl⟩, hspares⟩) ?_
  · obtain ⟨⟨fed, hreported, hfed⟩, hspares⟩ := hinv hgoing
    unfold bodyStep at hlast
    split_ifs at hlast
    · have hpump := pumpStream_spares hspares
      split at hlast
      · next heq =>
        rw [heq] at hpump
        cases hlast
        exact absurd hf (hpump.2 f rfl)
      · next heq =>
        exact endStep_limit hid hzero hsink (pumpStream_keeps (reported_kept fed) hreported heq)
          hfed hlast hf hlaw
    · exact endStep_limit hid hzero hsink hreported hfed hlast hf hlaw
  · intro s s' hs hopen hstep hopen'
    obtain ⟨hgo, hspares⟩ := hs hopen
    refine ⟨?_, ?_⟩
    · rcases bodyStep_going hgo hstep with ⟨-, hnext⟩ | ⟨hdone, -⟩
      · exact hnext
      · rw [hopen'] at hdone
        cases hdone
    · unfold bodyStep at hstep
      split_ifs at hstep
      · have hpump := pumpStream_spares hspares
        split at hstep
        · cases hstep
        · next heq =>
          rw [heq] at hpump
          exact endStep_spares hpump.1 hstep
      · exact endStep_spares hspares hstep

end Limit

end H2

end Zuhttp
