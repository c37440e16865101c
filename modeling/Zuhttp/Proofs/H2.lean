import Zuhttp.H2
import Zuhttp.Proofs.Reader

/-!
# What the HTTP/2 driver keeps

A property that every callback keeps is kept by everything that moves bytes, unless the
session fails (`Kept`).
-/

namespace Zuhttp

namespace H2

/-- The property holds after a callback that did not fail, and says nothing about the
environment. -/
structure Kept (P : H2 → Prop) : Prop where
  callback : ∀ {h h' : H2} {e}, P h → h.callback e = (h', false) → P h'
  env : ∀ {h : H2} (env : H2Env) (allowed failed : Bool), P h →
    P { h with env := env, allowed := allowed, failed := failed }

variable {P : H2 → Prop}

lemma Kept.and {Q : H2 → Prop} (hP : Kept P) (hQ : Kept Q) : Kept (fun h => P h ∧ Q h) where
  callback := fun hh hcb => ⟨hP.callback hh.1 hcb, hQ.callback hh.2 hcb⟩
  env := fun env allowed failed hh => ⟨hP.env env allowed failed hh.1,
    hQ.env env allowed failed hh.2⟩

lemma hear_keeps (hP : Kept P) {h h' : H2} {es : List H2Event} (hh : P h)
    (hhear : h.hear es = (h', false)) : P h' := by
  induction es generalizing h with
  | nil =>
    cases hhear
    exact hh
  | cons e es ih =>
    unfold hear at hhear
    cases hcb : h.callback e with
    | mk h₁ bad =>
      rw [hcb] at hhear
      cases bad with
      | true => cases hhear
      | false => exact ih (hP.callback hh hcb) hhear

lemma hear_closes (h : H2) (closes : List (Nat × Nat)) :
    ∃ h', h.hear (closes.map (fun c => .streamClose c.1 c.2)) = (h', false) := by
  induction closes generalizing h with
  | nil => exact ⟨h, rfl⟩
  | cons c closes ih =>
    rw [List.map_cons, hear]
    exact ih _

lemma flush_keeps (hP : Kept P) {h : H2} (hh : P h) : P h.flush.1 := by
  unfold flush
  split
  · exact hh
  · next a flushes _ =>
    obtain ⟨h₁, hhear⟩ := hear_closes { h with env.flushes := flushes } a.closes
    have hh₁ := hear_keeps hP (hP.env _ h.allowed h.failed hh) hhear
    simp only [hhear]
    split
    · exact hP.env h₁.env a.allowed h₁.failed hh₁
    · have hfailed := hP.env h₁.env a.allowed true hh₁
      exact hfailed

lemma flush_res_keeps (hP : Kept P) {h h' : H2} {res : Option Fail} (hh : P h)
    (hflush : h.flush = (h', res)) : P h' := by
  have hkeeps := flush_keeps hP hh
  rwa [hflush] at hkeeps

lemma recv_keeps (hP : Kept P) {h h' : H2} (hh : P h) (hrecv : h.recv = (h', none)) : P h' := by
  unfold recv at hrecv
  split at hrecv
  · cases hrecv
  · next a reads _ =>
    cases a with
    | finished =>
      dsimp only at hrecv
      split_ifs at hrecv
      · cases hrecv
      · cases hrecv
    | fail f => cases hrecv
    | wouldblock =>
      cases hrecv
      exact hP.env _ h.allowed h.failed hh
    | frames events failure allowed =>
      dsimp only at hrecv
      cases hhear : hear { h with env.reads := reads } events with
      | mk h₁ bad =>
        simp only [hhear] at hrecv
        cases bad with
        | true => cases hrecv
        | false =>
          cases failure with
          | some f => cases hrecv
          | none =>
            have hh₁ := hear_keeps hP (hP.env _ h.allowed h.failed hh) hhear
            exact flush_res_keeps hP (hP.env h₁.env allowed h₁.failed hh₁) hrecv

lemma pump_keeps (hP : Kept P) {h h' : H2} (hh : P h) (hpump : h.pump = (h', none)) : P h' := by
  unfold pump at hpump
  split at hpump
  · cases hpump
  · next h₁ hflush => exact recv_keeps hP (flush_res_keeps hP hh hflush) hpump

lemma pumpStream_keeps (hP : Kept P) {h h' : H2} (hh : P h)
    (hpump : h.pumpStream = (h', none)) : P h' := by
  unfold pumpStream at hpump
  split at hpump
  · cases hpump
  · next h₁ hflush =>
    have hh₁ := flush_res_keeps hP hh hflush
    split_ifs at hpump
    · cases hpump
      exact hh₁
    · exact pump_keeps hP hh₁ hpump

lemma beginStep_keeps (hP : Kept P) {h h' : H2} (hh : P h)
    (hstep : h.beginStep = (h', none)) : P h' := by
  unfold beginStep at hstep
  split_ifs at hstep
  · split at hstep
    · cases hstep
    · cases hstep
  · exact pumpStream_keeps hP hh hstep

/-- What holds of a fresh stream holds when its response has come. -/
lemma begin_keeps (hP : Kept P) {h h' : H2} {rq : H2Request} {hdrs : Headers}
    {resp : H2Response}
    (hstart : ∀ sid, P { h.freshStream hdrs with
      sid := sid, submitted := h.submitted ++ [block rq] })
    (hhdrs : ∀ h : H2, P h → P { h with hdrs := none })
    (hbegin : h.begin rq hdrs = (h', .ok resp)) : P h' := by
  unfold H2.begin at hbegin
  split_ifs at hbegin
  · cases hbegin
  · cases hbegin
  · dsimp only at hbegin
    split at hbegin
    · cases hbegin
    · next answer submits _ =>
      cases answer with
      | error f => cases hbegin
      | ok sid =>
        dsimp only at hbegin
        generalize hloop : Loop.iterate beginStep headersDone _ _ = r at hbegin
        obtain ⟨h₁, res⟩ := r
        cases res with
        | some f => cases hbegin
        | none =>
          cases hbegin
          refine hhdrs h₁ ((Loop.iterate_reached hloop).invariant ?_ ?_)
          · exact hP.env _ _ _ (hstart sid)
          · intro s s' hs _ hstep
            exact beginStep_keeps hP hs hstep

/-! ### What holds whatever fails -/

/-- The property survives callbacks that fail, too. -/
structure Lasting (P : H2 → Prop) : Prop where
  callback : ∀ (h : H2) (e : H2Event), P h → P (h.callback e).1
  env : ∀ (h : H2) (env : H2Env) (allowed failed : Bool), P h →
    P { h with env := env, allowed := allowed, failed := failed }

lemma hear_lasts (hP : Lasting P) (h : H2) (es : List H2Event) (hh : P h) : P (h.hear es).1 := by
  induction es generalizing h with
  | nil => exact hh
  | cons e es ih =>
    have hnext := hP.callback h e hh
    unfold hear
    split
    · next heq =>
      rw [heq] at hnext
      exact hnext
    · next heq =>
      rw [heq] at hnext
      exact ih _ hnext

lemma flush_lasts (hP : Lasting P) (h : H2) (hh : P h) : P h.flush.1 := by
  unfold flush
  split
  · exact hh
  · next a flushes _ =>
    have hstart := hP.env h { h.env with flushes := flushes } h.allowed h.failed hh
    have hheard := hear_lasts hP _ (a.closes.map (fun c => .streamClose c.1 c.2)) hstart
    obtain ⟨h₁, hhear⟩ := hear_closes { h with env.flushes := flushes } a.closes
    rw [hhear] at hheard
    simp only [hhear]
    split
    · exact hP.env h₁ h₁.env a.allowed h₁.failed hheard
    · exact hP.env h₁ h₁.env a.allowed true hheard

lemma recv_lasts (hP : Lasting P) (h : H2) (hh : P h) : P h.recv.1 := by
  unfold recv
  split
  · exact hP.env h h.env h.allowed true hh
  · next a reads _ =>
    have hnext := hP.env h { h.env with reads := reads } h.allowed h.failed hh
    have hfailed := hP.env h { h.env with reads := reads } h.allowed true hh
    cases a with
    | finished =>
      dsimp only
      split_ifs
      · exact hfailed
      · exact hfailed
    | fail f => exact hfailed
    | wouldblock => exact hnext
    | frames events failure allowed =>
      have hheard := hear_lasts hP _ events hnext
      dsimp only
      cases hhear : hear { h with env.reads := reads } events with
      | mk h₁ bad =>
        rw [hhear] at hheard
        dsimp only
        split
        · exact hP.env h₁ h₁.env allowed true hheard
        · exact flush_lasts hP _ (hP.env h₁ h₁.env allowed h₁.failed hheard)

lemma pump_lasts (hP : Lasting P) (h : H2) (hh : P h) : P h.pump.1 := by
  have hflush := flush_lasts hP h hh
  unfold pump
  split
  · next heq =>
    rw [heq] at hflush
    exact hflush
  · next heq =>
    rw [heq] at hflush
    exact recv_lasts hP _ hflush

lemma pumpStream_lasts (hP : Lasting P) (h : H2) (hh : P h) : P h.pumpStream.1 := by
  have hflush := flush_lasts hP h hh
  unfold pumpStream
  split
  · next heq =>
    rw [heq] at hflush
    exact hflush
  · next heq =>
    rw [heq] at hflush
    split_ifs
    · exact hflush
    · exact pump_lasts hP _ hflush

lemma streamOutcome_lasts (hP : Lasting P) (h : H2) (hh : P h) : P h.streamOutcome.1 := by
  have hfailed := hP.env h h.env h.allowed true hh
  unfold streamOutcome
  split_ifs
  · exact hh
  · exact hfailed
  · exact hfailed
  · exact hfailed

lemma beginStep_lasts (hP : Lasting P) (h : H2) (hh : P h) : P h.beginStep.1 := by
  unfold beginStep
  split_ifs
  · have hout := streamOutcome_lasts hP h hh
    split
    · next heq =>
      rw [heq] at hout
      exact hout
    · next h₁ heq =>
      rw [heq] at hout
      exact hP.env h₁ h₁.env h₁.allowed true hout
  · exact pumpStream_lasts hP h hh

/-! ### What no callback touches -/

structure Untouched (h h' : H2) : Prop where
  env : h'.env = h.env
  allowed : h'.allowed = h.allowed
  failed : h'.failed = h.failed
  submitted : h'.submitted = h.submitted
  sid : h'.sid = h.sid
  maxHeaderBytes : h'.maxHeaderBytes = h.maxHeaderBytes
  closed : h.closed = true → h'.closed = true

lemma Untouched.refl (h : H2) : Untouched h h := ⟨rfl, rfl, rfl, rfl, rfl, rfl, id⟩

lemma Untouched.trans {h₁ h₂ h₃ : H2} (h : Untouched h₁ h₂) (h' : Untouched h₂ h₃) :
    Untouched h₁ h₃ :=
  ⟨h'.env.trans h.env, h'.allowed.trans h.allowed, h'.failed.trans h.failed,
    h'.submitted.trans h.submitted, h'.sid.trans h.sid,
    h'.maxHeaderBytes.trans h.maxHeaderBytes, h'.closed ∘ h.closed⟩

lemma cbFailWith_untouched (h : H2) (f : Fail) : Untouched h (h.cbFailWith f).1 := by
  unfold cbFailWith
  split
  · exact ⟨rfl, rfl, rfl, rfl, rfl, rfl, id⟩
  · exact ⟨rfl, rfl, rfl, rfl, rfl, rfl, id⟩

lemma onBeginHeaders_untouched (h : H2) (sid : Nat) : Untouched h (h.onBeginHeaders sid).1 := by
  have hcount : Untouched h { h with blockBytes := 0 } := ⟨rfl, rfl, rfl, rfl, rfl, rfl, id⟩
  unfold onBeginHeaders
  dsimp only
  split_ifs
  · exact .refl h
  · exact ⟨rfl, rfl, rfl, rfl, rfl, rfl, id⟩
  · split
    · exact hcount.trans (cbFailWith_untouched _ _)
    · exact ⟨rfl, rfl, rfl, rfl, rfl, rfl, id⟩

lemma onHeader_untouched (h : H2) (sid : Nat) (name value : Bytes) :
    Untouched h (h.onHeader sid name value).1 := by
  have hcount : Untouched h { h with
      blockBytes := h.blockBytes + name.length + value.length + fieldOverhead } :=
    ⟨rfl, rfl, rfl, rfl, rfl, rfl, id⟩
  unfold onHeader
  dsimp only
  split
  · exact .refl h
  · split
    · exact hcount.trans (cbFailWith_untouched _ _)
    · split
      · split
        · split
          · exact ⟨rfl, rfl, rfl, rfl, rfl, rfl, id⟩
          · exact hcount
        · exact hcount
      · split
        · split
          · exact ⟨rfl, rfl, rfl, rfl, rfl, rfl, id⟩
          · exact hcount.trans (cbFailWith_untouched _ _)
        · split
          · exact hcount.trans (cbFailWith_untouched _ _)
          · split
            · exact ⟨rfl, rfl, rfl, rfl, rfl, rfl, id⟩
            · exact hcount.trans (cbFailWith_untouched _ _)

lemma onFrameRecv_untouched (h : H2) (f : Frame) : Untouched h (h.onFrameRecv f).1 := by
  unfold onFrameRecv
  split
  · exact ⟨rfl, rfl, rfl, rfl, rfl, rfl, id⟩
  · exact .refl h
  · split_ifs
    · exact .refl h
    · exact ⟨rfl, rfl, rfl, rfl, rfl, rfl, id⟩
  · split_ifs
    · exact .refl h
    · exact .refl h
    · split
      · exact cbFailWith_untouched h _
      · exact ⟨rfl, rfl, rfl, rfl, rfl, rfl, id⟩
    · exact ⟨rfl, rfl, rfl, rfl, rfl, rfl, id⟩
  · exact .refl h
  · exact .refl h

lemma onData_untouched (h : H2) (sid : Nat) (bytes : Bytes) :
    Untouched h (h.onData sid bytes).1 := by
  have hcount : Untouched h { h with delivered := h.delivered + bytes.length } :=
    ⟨rfl, rfl, rfl, rfl, rfl, rfl, id⟩
  unfold onData
  dsimp only
  split_ifs
  · exact hcount
  · exact hcount.trans (cbFailWith_untouched _ _)
  · exact ⟨rfl, rfl, rfl, rfl, rfl, rfl, id⟩

lemma onClose_untouched (h : H2) (sid code : Nat) : Untouched h (h.onClose sid code) := by
  unfold onClose
  split_ifs
  · exact .refl h
  · exact ⟨rfl, rfl, rfl, rfl, rfl, rfl, fun _ => rfl⟩

theorem callback_untouched (h : H2) (e : H2Event) : Untouched h (h.callback e).1 := by
  have hheard : Untouched h { h with
      heard := h.heard ++ [e], lawful := h.lawful && h.documented e } :=
    ⟨rfl, rfl, rfl, rfl, rfl, rfl, id⟩
  cases e with
  | beginHeaders sid => exact hheard.trans (onBeginHeaders_untouched _ sid)
  | header sid name value => exact hheard.trans (onHeader_untouched _ sid name value)
  | frameRecv f => exact hheard.trans (onFrameRecv_untouched _ f)
  | dataChunk sid bytes => exact hheard.trans (onData_untouched _ sid bytes)
  | streamClose sid code => exact hheard.trans (onClose_untouched _ sid code)

lemma hear_untouched (h : H2) (es : List H2Event) : Untouched h (h.hear es).1 := by
  induction es generalizing h with
  | nil => exact .refl h
  | cons e es ih =>
    have hnext := callback_untouched h e
    unfold hear
    split
    · next heq =>
      rw [heq] at hnext
      exact hnext
    · next heq =>
      rw [heq] at hnext
      exact hnext.trans (ih _)

/-! ### What a callback does -/

def chunkLength : H2Event → Nat
  | .dataChunk _ bytes => bytes.length
  | _ => 0

/-- How the stream stands after an event. -/
def closing (h : H2) : H2Event → Bool × Nat
  | .streamClose sid code => if sid = h.sid then (true, code) else (h.closed, h.closeCode)
  | _ => (h.closed, h.closeCode)

/-- What a callback that did not fail leaves of the stream's state. -/
structure Effect (h : H2) (e : H2Event) (h' : H2) : Prop where
  sid : h'.sid = h.sid
  heard : h'.heard = h.heard ++ [e]
  lawful : h'.lawful = (h.lawful && h.documented e)
  resetSent : h'.resetSent = h.resetSent
  cancelled : h'.cancelled = h.cancelled
  consumed : h'.consumed = h.consumed
  delivered : h'.delivered = h.delivered + chunkLength e
  data : h'.data = h.data ++ payload h.sid e
  closed : (h'.closed, h'.closeCode) = h.closing e
  env : h'.env = h.env

lemma not_cbFailWith {h h' : H2} {f : Fail} : h.cbFailWith f ≠ (h', false) := by
  unfold cbFailWith
  split <;> simp

lemma onBeginHeaders_effect {h h' : H2} {sid : Nat} (hcb : h.onBeginHeaders sid = (h', false)) :
    ∃ n t d st, h' = { h with blockBytes := n, inTrailers := t, hdrs := d, status := st } := by
  unfold onBeginHeaders at hcb
  dsimp only at hcb
  split_ifs at hcb
  · cases hcb
    exact ⟨_, _, _, _, rfl⟩
  · cases hcb
    exact ⟨_, _, _, _, rfl⟩
  · split at hcb
    · exact absurd hcb not_cbFailWith
    · cases hcb
      exact ⟨_, _, _, _, rfl⟩

lemma onHeader_effect {h h' : H2} {sid : Nat} {name value : Bytes}
    (hcb : h.onHeader sid name value = (h', false)) :
    ∃ n t d st, h' = { h with blockBytes := n, trailers := t, hdrs := d, status := st } := by
  unfold onHeader at hcb
  dsimp only at hcb
  by_cases hsid : sid ≠ h.sid
  · rw [if_pos hsid] at hcb
    cases hcb
    exact ⟨_, _, _, _, rfl⟩
  · rw [if_neg hsid] at hcb
    by_cases hsize : h.blockBytes + name.length + value.length + fieldOverhead > h.maxHeaderBytes
    · rw [if_pos hsize] at hcb
      exact absurd hcb not_cbFailWith
    · rw [if_neg hsize] at hcb
      by_cases hpseudo : name.head? = some 58
      · rw [if_pos hpseudo] at hcb
        cases hstatus : statusOf value with
        | none =>
          rw [hstatus] at hcb
          cases hcb
          exact ⟨_, _, _, _, rfl⟩
        | some status =>
          rw [hstatus] at hcb
          dsimp only at hcb
          split_ifs at hcb
          · cases hcb
            exact ⟨_, _, _, _, rfl⟩
          · cases hcb
            exact ⟨_, _, _, _, rfl⟩
      · rw [if_neg hpseudo] at hcb
        by_cases htrailers : h.inTrailers = true
        · rw [if_pos htrailers] at hcb
          split at hcb
          · cases hcb
            exact ⟨_, _, _, _, rfl⟩
          · exact absurd hcb not_cbFailWith
        · rw [if_neg htrailers] at hcb
          split at hcb
          · exact absurd hcb not_cbFailWith
          · split at hcb
            · cases hcb
              exact ⟨_, _, _, _, rfl⟩
            · exact absurd hcb not_cbFailWith

lemma onFrameRecv_effect {h h' : H2} {f : Frame} (hcb : h.onFrameRecv f = (h', false)) :
    ∃ g r d st hd eh, h' = { h with
      goaway := g, peerReset := r, hdrs := d, status := st, headersDone := hd
      endedOnHeaders := eh } := by
  unfold onFrameRecv at hcb
  split at hcb
  · cases hcb
    exact ⟨_, _, _, _, _, _, rfl⟩
  · cases hcb
    exact ⟨_, _, _, _, _, _, rfl⟩
  · split_ifs at hcb <;>
    · cases hcb
      exact ⟨_, _, _, _, _, _, rfl⟩
  · split_ifs at hcb
    · cases hcb
      exact ⟨_, _, _, _, _, _, rfl⟩
    · cases hcb
      exact ⟨_, _, _, _, _, _, rfl⟩
    · split at hcb
      · exact absurd hcb not_cbFailWith
      · cases hcb
        exact ⟨_, _, _, _, _, _, rfl⟩
    · cases hcb
      exact ⟨_, _, _, _, _, _, rfl⟩
  · cases hcb
    exact ⟨_, _, _, _, _, _, rfl⟩
  · cases hcb
    exact ⟨_, _, _, _, _, _, rfl⟩

lemma callback_effect {h h' : H2} {e : H2Event} (hcb : h.callback e = (h', false)) :
    Effect h e h' := by
  unfold callback at hcb
  dsimp only at hcb
  cases e with
  | beginHeaders sid =>
    obtain ⟨n, t, d, st, rfl⟩ := onBeginHeaders_effect hcb
    exact ⟨rfl, rfl, rfl, rfl, rfl, rfl, rfl, (List.append_nil _).symm, rfl, rfl⟩
  | header sid name value =>
    obtain ⟨n, t, d, st, rfl⟩ := onHeader_effect hcb
    exact ⟨rfl, rfl, rfl, rfl, rfl, rfl, rfl, (List.append_nil _).symm, rfl, rfl⟩
  | frameRecv f =>
    obtain ⟨g, r, d, st, hd, eh, rfl⟩ := onFrameRecv_effect hcb
    exact ⟨rfl, rfl, rfl, rfl, rfl, rfl, rfl, (List.append_nil _).symm, rfl, rfl⟩
  | dataChunk sid bytes =>
    unfold onData at hcb
    dsimp only at hcb
    split_ifs at hcb with hsid hroom
    · cases hcb
      exact ⟨rfl, rfl, rfl, rfl, rfl, rfl, rfl, by simp [payload, hsid], rfl, rfl⟩
    · exact absurd hcb not_cbFailWith
    · cases hcb
      exact ⟨rfl, rfl, rfl, rfl, rfl, rfl, rfl, by simp [payload, not_not.mp hsid], rfl, rfl⟩
  | streamClose sid code =>
    cases hcb
    unfold onClose
    split_ifs with hsid
    · refine ⟨rfl, rfl, rfl, rfl, rfl, rfl, rfl, (List.append_nil _).symm, ?_, rfl⟩
      rw [closing, if_neg hsid]
    · refine ⟨rfl, rfl, rfl, rfl, rfl, rfl, rfl, (List.append_nil _).symm, ?_, rfl⟩
      rw [closing, if_pos (not_not.mp hsid)]

/-! ### A failed call leaves a failed session -/

lemma flush_failed {h h' : H2} {f : Fail} (hflush : h.flush = (h', some f)) :
    h'.failed = true := by
  unfold flush at hflush
  split at hflush
  · cases hflush
  · dsimp only at hflush
    split at hflush
    · cases hflush
    · cases hflush
      rfl

lemma recv_failed {h h' : H2} {f : Fail} (hrecv : h.recv = (h', some f)) : h'.failed = true := by
  unfold recv at hrecv
  split at hrecv
  · cases hrecv
    rfl
  · next a reads _ =>
    cases a with
    | finished =>
      dsimp only at hrecv
      split_ifs at hrecv
      · cases hrecv
        rfl
      · cases hrecv
        rfl
    | fail f =>
      cases hrecv
      rfl
    | wouldblock => cases hrecv
    | frames events failure allowed =>
      dsimp only at hrecv
      split at hrecv
      · cases hrecv
        rfl
      · exact flush_failed hrecv

lemma pump_failed {h h' : H2} {f : Fail} (hpump : h.pump = (h', some f)) : h'.failed = true := by
  unfold pump at hpump
  split at hpump
  · next h₁ g hflush =>
    cases hpump
    exact flush_failed hflush
  · exact recv_failed hpump

lemma pumpStream_failed {h h' : H2} {f : Fail} (hpump : h.pumpStream = (h', some f)) :
    h'.failed = true := by
  unfold pumpStream at hpump
  split at hpump
  · next h₁ g hflush =>
    cases hpump
    exact flush_failed hflush
  · split_ifs at hpump
    · cases hpump
    · exact pump_failed hpump

lemma streamOutcome_failed {h h' : H2} {f : Fail} (hout : h.streamOutcome = (h', some f)) :
    h'.failed = true := by
  unfold streamOutcome at hout
  split_ifs at hout
  · cases hout
  all_goals
    cases hout
    rfl

lemma streamOutcome_ok {h h' : H2} (hout : h.streamOutcome = (h', none)) :
    h' = h ∧ h.closeCode = noError := by
  unfold streamOutcome at hout
  split_ifs at hout with hcode
  · cases hout
    exact ⟨rfl, hcode⟩
  all_goals cases hout

/-! ### The body -/

variable {Z : Zlib}

/-- The driver when it has handed over what it buffered. -/
def drained (h : H2) : H2 := { h with consumed := h.consumed + h.data.length, data := [] }

/-- The five ways a step ends after its read. -/
inductive EndStep (h : H2) (p : BodyPipe Z) : BodyState Z → Option Fail → Prop
  | refused {q f} (hfeed : BodyPipe.feed { p with rawSeen := p.rawSeen + h.data.length }
      h.data = (q, some f)) : EndStep h p ⟨h.drained, q, false⟩ (some f)
  | goesOn {q} (hfeed : BodyPipe.feed { p with rawSeen := p.rawSeen + h.data.length }
      h.data = (q, none)) (hopen : h.closed = false) :
      EndStep h p ⟨h.drained, q, false⟩ none
  | reset {q h' f} (hfeed : BodyPipe.feed { p with rawSeen := p.rawSeen + h.data.length }
      h.data = (q, none)) (hclosed : h.closed = true)
      (hout : h.drained.streamOutcome = (h', some f)) : EndStep h p ⟨h', q, false⟩ (some f)
  | unfinished {q q' f} (hfeed : BodyPipe.feed { p with
      rawSeen := p.rawSeen + h.data.length } h.data = (q, none)) (hclosed : h.closed = true)
      (hcode : h.closeCode = noError) (hfinish : q.finish = (q', some f)) :
      EndStep h p ⟨h.drained, q', false⟩ (some f)
  | ended {q q'} (hfeed : BodyPipe.feed { p with rawSeen := p.rawSeen + h.data.length }
      h.data = (q, none)) (hclosed : h.closed = true) (hcode : h.closeCode = noError)
      (hfinish : q.finish = (q', none)) :
      EndStep h p ⟨({ h.drained with trailers := Headers.init }.flush).1,
        { q' with trailers := h.trailers }, true⟩ none

lemma deliver_eq (h : H2) (p : BodyPipe Z) :
    h.deliver p = (h.drained,
      BodyPipe.feed { p with rawSeen := p.rawSeen + h.data.length } h.data) := by
  unfold deliver drained
  split_ifs with hempty
  · obtain ⟨_, _, _, _, _, _, _, _, _, _, _, _, _, _, _, _, data⟩ := h
    dsimp only at hempty
    subst hempty
    rfl
  · rfl

lemma endStep_cases (h : H2) (p : BodyPipe Z) :
    EndStep h p (endStep h p).1 (endStep h p).2 := by
  unfold endStep
  rw [deliver_eq]
  cases hfeed : BodyPipe.feed { p with rawSeen := p.rawSeen + h.data.length } h.data with
  | mk q res =>
    cases res with
    | some f => exact .refused hfeed
    | none =>
      dsimp only
      cases hclosed : h.closed with
      | false =>
        rw [if_pos (Or.inl (by simp [drained, hclosed]))]
        exact .goesOn hfeed hclosed
      | true =>
        rw [if_neg (by simp [drained, hclosed])]
        cases hout : h.drained.streamOutcome with
        | mk h' res =>
          cases res with
          | some f => exact .reset hfeed hclosed hout
          | none =>
            obtain ⟨rfl, hcode⟩ := streamOutcome_ok hout
            dsimp only
            cases hfinish : q.finish with
            | mk q' res =>
              cases res with
              | some f => exact .unfinished hfeed hclosed hcode hfinish
              | none => exact .ended hfeed hclosed hcode hfinish

lemma not_reusable_of_failed {h : H2} (hfailed : h.failed = true) : h.reusable = false := by
  simp [reusable, hfailed]

end H2

end Zuhttp
