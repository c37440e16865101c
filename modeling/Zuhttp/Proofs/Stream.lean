import Zuhttp.Stream

/-!
# Writing all of a buffer is exact

Every turn of the loop offers what has not been taken yet, behind a look at the clock that found
time left.
-/

namespace Zuhttp

/-- The bytes are offered in time: behind a look at the clock that found the deadline passed
nothing happens, and an offer comes right behind one that did not. -/
structure Timely (d : Deadline) (log : List WriteEvent) : Prop where
  silent : ∀ front now rest, log = front ++ .looked now :: rest → d.expired now = true → rest = []
  looked : ∀ front bytes taken rest, log = front ++ .offered bytes taken :: rest →
    d = none ∨ ∃ before now, front = before ++ [.looked now] ∧ d.expired now = false

/-- The bytes taken in a run that is to write `buf`, its error and its offers. -/
structure WritesExactly (d : Deadline) (buf : Bytes) (run : WriteRun) : Prop where
  taken : run.accepted <+: buf
  success : run.result = some true → run.accepted = buf
  failure : run.result = some false →
    ∃ e, run.err = some e ∧ e.code ≠ .ok ∧ e.code ≠ .wouldblock
  short : run.result = some false → run.accepted.length < buf.length
  timely : Timely d run.log

variable {d : Deadline}

lemma accepted_after (events : List WriteEvent) (run : WriteRun) : (run.after events).accepted =
    (WriteRun.mk run.result run.err events).accepted ++ run.accepted := List.flatMap_append

/-! ### Looks and offers -/

lemma Timely.nil : Timely d [] where
  silent := by
    intro front now rest h
    simp at h
  looked := by
    intro front bytes taken rest h
    simp at h

lemma timely_expired (now : Int) : Timely d (lookedAt d now) := by
  unfold lookedAt
  split_ifs
  · refine ⟨fun front now' rest h _ => ?_, fun front bytes taken rest h => ?_⟩
    · cases front with
      | nil => exact (List.cons.inj h).2.symm
      | cons e front => simp at h
    · cases front with
      | nil => cases h
      | cons e front => simp at h
  · exact Timely.nil

/-- One more turn in front, which found time left. -/
lemma Timely.turn {now : Int} (hnow : d.expired now = false) {bytes : Bytes} {taken : Nat}
    {log : List WriteEvent} (h : Timely d log) :
    Timely d (lookedAt d now ++ .offered bytes taken :: log) := by
  cases d with
  | none =>
    refine ⟨fun front now' rest _ hexpired => ?_, fun _ _ _ _ _ => .inl rfl⟩
    cases hexpired
  | some due =>
    refine ⟨fun front now' rest hlog hexpired => ?_, fun front bytes' taken' rest hlog => ?_⟩
    · match front with
      | [] =>
        cases (List.cons.inj hlog).1
        rw [hnow] at hexpired
        cases hexpired
      | [_] => cases (List.cons.inj (List.cons.inj hlog).2).1
      | _ :: _ :: front =>
        exact h.silent front now' rest (List.cons.inj (List.cons.inj hlog).2).2 hexpired
    · match front with
      | [] => cases (List.cons.inj hlog).1
      | [e] =>
        obtain rfl := (List.cons.inj hlog).1
        exact .inr ⟨[], now, rfl, hnow⟩
      | e :: e' :: front =>
        refine (h.looked front bytes' taken' rest
          (List.cons.inj (List.cons.inj hlog).2).2).imp_right ?_
        rintro ⟨before, now', rfl, hnow'⟩
        exact ⟨e :: e' :: before, now', rfl, hnow'⟩

/-! ### One turn -/

lemma accepted_looked (now : Int) (result : Option Bool) (err : Option Error) :
    (WriteRun.mk result err (lookedAt d now)).accepted = [] := by
  unfold WriteRun.accepted lookedAt
  dsimp only
  split_ifs <;> rfl

lemma WritesExactly.looked {buf : Bytes} (hbuf : buf ≠ []) {e : Error} (hok : e.code ≠ .ok)
    (hblock : e.code ≠ .wouldblock) (now : Int) :
    WritesExactly d buf ⟨some false, some e, lookedAt d now⟩ where
  taken := by
    rw [accepted_looked]
    exact List.nil_prefix
  success := by rintro ⟨⟩
  failure := fun _ => ⟨e, rfl, hok, hblock⟩
  short := fun _ => by
    rw [accepted_looked]
    exact List.length_pos_iff.mpr hbuf
  timely := timely_expired now

lemma accepted_turn (now : Int) (bytes : Bytes) (taken : Nat) (result : Option Bool)
    (err : Option Error) :
    (WriteRun.mk result err (lookedAt d now ++ [.offered bytes taken])).accepted =
      bytes.take taken := by
  unfold WriteRun.accepted lookedAt
  dsimp only
  split_ifs <;> simp

/-- A turn in which the stream takes the next bytes. -/
lemma WritesExactly.turn {now : Int} (hnow : d.expired now = false) {buf bytes : Bytes}
    {taken : Nat} {run : WriteRun} (hbytes : bytes.take taken = buf.take taken)
    (h : WritesExactly d (buf.drop taken) run) :
    WritesExactly d buf (run.after (lookedAt d now ++ [.offered bytes taken])) := by
  have haccepted : (run.after (lookedAt d now ++ [.offered bytes taken])).accepted =
      buf.take taken ++ run.accepted := by
    rw [accepted_after, accepted_turn, hbytes]
  refine ⟨?_, fun hr => ?_, h.failure, fun hr => ?_, ?_⟩
  · rw [haccepted]
    conv_rhs => rw [← List.take_append_drop taken buf]
    exact (List.prefix_append_right_inj _).mpr h.taken
  · rw [haccepted, h.success hr, List.take_append_drop]
  · have hshort := h.short hr
    rw [List.length_drop] at hshort
    rw [haccepted, List.length_append, List.length_take]
    omega
  · have hlog : (run.after (lookedAt d now ++ [.offered bytes taken])).log =
        lookedAt d now ++ .offered bytes taken :: run.log := by
      rw [WriteRun.after, List.append_assoc, List.singleton_append]
    rw [hlog]
    exact h.timely.turn hnow

/-! ### Runs -/

/-- A stream that fails says why. -/
def SetsError (t : WriteTurn) : Prop := t.moved = none → ∃ e, t.err = some e ∧ e.code ≠ .ok

lemma writesExactly_done (err : Option Error) : WritesExactly d [] ⟨some true, err, []⟩ :=
  ⟨List.nil_prefix, fun _ => rfl, (by rintro ⟨⟩), (by rintro ⟨⟩), Timely.nil⟩

lemma writesExactly_going (buf : Bytes) (err : Option Error) :
    WritesExactly d buf ⟨none, err, []⟩ :=
  ⟨List.nil_prefix, (by rintro ⟨⟩), (by rintro ⟨⟩), (by rintro ⟨⟩), Timely.nil⟩

/-- A failure behind an offer of which nothing was taken. -/
lemma writesExactly_refused {now : Int} (hnow : d.expired now = false) {buf : Bytes}
    (hbuf : buf ≠ []) (bytes : Bytes) {e : Error} (hok : e.code ≠ .ok)
    (hblock : e.code ≠ .wouldblock) :
    WritesExactly d buf ⟨some false, some e, lookedAt d now ++ [.offered bytes 0]⟩ where
  taken := by
    rw [accepted_turn, List.take_zero]
    exact List.nil_prefix
  success := by rintro ⟨⟩
  failure := fun _ => ⟨e, rfl, hok, hblock⟩
  short := fun _ => by
    rw [accepted_turn, List.take_zero]
    exact List.length_pos_iff.mpr hbuf
  timely := Timely.nil.turn hnow

theorem writeAllFrom_exact (writable : Bool) (buf : Bytes) {turns : List WriteTurn}
    (hset : ∀ t ∈ turns, SetsError t) (off : Nat) (err : Option Error) :
    WritesExactly d (buf.drop off) (writeAllFrom d writable buf turns off err) := by
  induction turns generalizing off err with
  | nil =>
    rw [writeAllFrom]
    split_ifs with hoff
    · exact writesExactly_going _ _
    · rw [List.drop_eq_nil_of_le (Nat.not_lt.mp hoff)]
      exact writesExactly_done _
  | cons t turns ih =>
    rw [List.forall_mem_cons] at hset
    rw [writeAllFrom]
    by_cases hoff : off < buf.length
    · rw [if_pos hoff]
      have hleft : buf.drop off ≠ [] := by
        rw [ne_eq, List.drop_eq_nil_iff]
        omega
      by_cases hnow : d.expired t.now = true
      · rw [if_pos hnow]
        exact WritesExactly.looked hleft (by decide) (by decide) _
      · rw [if_neg hnow]
        have hnow : d.expired t.now = false := by simpa using hnow
        cases writable with
        | false =>
          have hlooked : WritesExactly d (buf.drop off) ⟨some false,
              some ⟨.io, .write, "stream is not writable"⟩, lookedAt d t.now ++ []⟩ := by
            rw [List.append_nil]
            exact WritesExactly.looked hleft (by decide) (by decide) _
          exact hlooked
        | true =>
          generalize hoffered : (buf.drop off).take ssizeMax = offered
          have hstream : streamWrite true t (buf.drop off) err =
              (t.moved.map (fun n => min n offered.length), t.err <|> err,
                [.offered offered ((t.moved.map (fun n => min n offered.length)).getD 0)]) := by
            rw [← hoffered]
            rfl
          rw [hstream]
          cases hmoved : t.moved with
          | none =>
            obtain ⟨e, he, hok⟩ := hset.1 hmoved
            rw [he]
            dsimp only [Option.map_none, Option.getD_none, Option.orElse_eq_orElse]
            by_cases hblock : e.code = .wouldblock
            · rw [if_pos (by simp [hblock])]
              refine WritesExactly.turn hnow (by simp) ?_
              rw [List.drop_zero]
              exact ih hset.2 off none
            · rw [if_neg (by simpa using hblock)]
              exact writesExactly_refused hnow hleft _ hok hblock
          | some n =>
            dsimp only [Option.map_some, Option.getD_some]
            have hle : min n offered.length ≤ offered.length := Nat.min_le_right _ _
            generalize min n offered.length = w at hle
            cases w with
            | zero => exact writesExactly_refused hnow hleft _ (by decide) (by decide)
            | succ w =>
              have hrest := ih hset.2 (off + (w + 1)) (t.err <|> err)
              rw [← List.drop_drop] at hrest
              refine WritesExactly.turn hnow ?_ hrest
              rw [← hoffered, List.length_take] at hle
              rw [← hoffered, List.take_take, Nat.min_eq_left (by omega)]
    · rw [if_neg hoff, List.drop_eq_nil_of_le (Nat.not_lt.mp hoff)]
      exact writesExactly_done _

/-- The stream takes the bytes in order and each of them once: all of them before a success, and
a beginning of them before a failure, which the error object explains. Once the clock has shown
the deadline passed, nothing is offered. -/
theorem streamWriteAll_exact (d : Deadline) (writable : Bool) (buf : Bytes)
    {turns : List WriteTurn} (hset : ∀ t ∈ turns, SetsError t) (err : Option Error) :
    WritesExactly d buf (streamWriteAll d writable buf turns err) :=
  writeAllFrom_exact writable buf hset 0 err

/-- A partial write, a stream that would block, and an end in time. -/
theorem streamWriteAll_exact_partial :
    WritesExactly (some 10) [1, 2, 3] (streamWriteAll (some 10) true [1, 2, 3]
      [⟨0, some 2, none⟩, ⟨4, none, some ⟨.wouldblock, .write, ""⟩⟩, ⟨9, some 7, none⟩] none) :=
  streamWriteAll_exact _ _ _ (by
    intro t ht hnone
    simp only [List.mem_cons, List.not_mem_nil, or_false] at ht
    rcases ht with rfl | rfl | rfl
    · cases hnone
    · exact ⟨_, rfl, by decide⟩
    · cases hnone) none

/-- To the engine a run that ended is one write of a transport, which fails where this one did. -/
theorem streamWriteAll_transport (d : Deadline) (writable : Bool) (buf : Bytes)
    {turns : List WriteTurn} (hset : ∀ t ∈ turns, SetsError t) (err : Option Error)
    (t : Transport) {done : Bool}
    (hdone : (streamWriteAll d writable buf turns err).result = some done) :
    ∃ limit f, { t with writeLimit := limit }.writeAll buf =
        ({ t with writeLimit := limit,
                  sent := t.sent ++ (streamWriteAll d writable buf turns err).accepted }, f) ∧
      (done = true ↔ f = none) ∧
      ∀ fail ∈ f, fail.err = (streamWriteAll d writable buf turns err).err ∧
        fail.err.map Error.code = some fail.rc := by
  have hexact : WritesExactly d buf (streamWriteAll d writable buf turns err) :=
    writeAllFrom_exact writable buf hset 0 err
  obtain ⟨htaken, hsuccess, hfailure, hshort, -⟩ := hexact
  cases done with
  | true =>
    refine ⟨none, none, ?_, by simp, by rintro fail ⟨⟩⟩
    rw [hsuccess hdone]
    rfl
  | false =>
    obtain ⟨e, he, hok, -⟩ := hfailure hdone
    have hlt := hshort hdone
    obtain ⟨rest, hrest⟩ := htaken
    generalize (streamWriteAll d writable buf turns err).accepted = accepted at hlt hrest ⊢
    refine ⟨some (t.sent.length + accepted.length, ⟨e.code, some e, hok⟩),
      some ⟨e.code, some e, hok⟩, ?_, by simp, ?_⟩
    · unfold Transport.writeAll
      dsimp only
      rw [if_neg (by omega), Nat.add_sub_cancel_left, ← hrest, List.take_left]
    · rintro fail ⟨⟩
      exact ⟨he.symm, rfl⟩

end Zuhttp
