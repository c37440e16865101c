import Zuhttp.Buffer

/-!
# Writers

What a writer that succeeds has appended, and the writers that only append.
-/

namespace Zuhttp

/-- A writer that succeeds has appended these bytes. -/
def Appends (w : Writer Unit) (s : Bytes) : Prop :=
  ∀ b b', Prog.exec w b = (.ok (), b') → b'.data = b.data ++ s

lemma Buffer.tryAppend_fits {b : Buffer} {s : Bytes} (h : (b.tryAppend s).2 = true) :
    (b.tryAppend s).1.data = b.data ++ s := by
  unfold tryAppend at h ⊢
  by_cases hempty : s = []
  · rw [if_pos hempty, hempty, List.append_nil]
  · rw [if_neg hempty] at h ⊢
    cases hsum : Headers.sizeAdd b.data.length s.length with
    | none =>
      rw [hsum] at h
      cases h
    | some need =>
      rw [hsum] at h
      dsimp only at h ⊢
      by_cases hmax : b.max ≠ 0 ∧ need > b.max
      · rw [if_pos hmax] at h
        cases h
      · rw [if_neg hmax]

lemma appends_append (s : Bytes) : Appends (Buffer.append s) s := by
  intro b b' hrun
  have hexec : Prog.exec (Buffer.append s) b =
      Prog.exec (if (b.tryAppend s).2 then pure () else throw .nomem : Writer Unit)
        (b.tryAppend s).1 := rfl
  rw [hexec] at hrun
  by_cases hfits : (b.tryAppend s).2 = true
  · rw [if_pos hfits] at hrun
    cases hrun
    exact Buffer.tryAppend_fits hfits
  · rw [if_neg hfits] at hrun
    cases hrun

lemma appends_pure : Appends (pure ()) [] := by
  intro b b' hrun
  cases hrun
  rw [List.append_nil]

lemma Appends.bind {w w' : Writer Unit} {s s' : Bytes} (h : Appends w s) (h' : Appends w' s') :
    Appends (do w; w') (s ++ s') := by
  intro b b' hrun
  obtain ⟨_, t, hw, hw'⟩ := Prog.exec_bind_eq_ok hrun
  rw [h' t b' hw', h b t hw, List.append_assoc]

/-- Append one piece after the other. -/
def appendAll : List Bytes → Writer Unit
  | [] => pure ()
  | s :: pieces => do
    Buffer.append s
    appendAll pieces

lemma append_nil : Buffer.append [] = pure () := rfl

lemma appendAll_singleton (s : Bytes) : appendAll [s] = Buffer.append s := by
  unfold appendAll appendAll
  exact bind_pure _

lemma appendAll_pair (s t : Bytes) :
    appendAll [s, t] = (do Buffer.append s; Buffer.append t) := by
  rw [appendAll, appendAll_singleton]

lemma appendAll_append (l m : List Bytes) :
    appendAll (l ++ m) = (do appendAll l; appendAll m) := by
  induction l with
  | nil =>
    rw [List.nil_append, appendAll, pure_bind]
  | cons s l ih =>
    rw [List.cons_append, appendAll, appendAll, ih, bind_assoc]

lemma appendAll_appends (pieces : List Bytes) : Appends (appendAll pieces) pieces.flatten := by
  induction pieces with
  | nil => exact appends_pure
  | cons s pieces ih =>
    rw [List.flatten_cons]
    exact (appends_append s).bind ih

/-- A buffer without a limit takes whatever fits in memory. -/
lemma appendAll_fits {b : Buffer} (pieces : List Bytes) (hmax : b.max = 0)
    (hsize : b.data.length + pieces.flatten.length < 2 ^ 64) :
    Prog.exec (appendAll pieces) b = (.ok (), { b with data := b.data ++ pieces.flatten }) := by
  induction pieces generalizing b with
  | nil =>
    rw [List.flatten_nil, List.append_nil]
    rfl
  | cons s pieces ih =>
    rw [List.flatten_cons, List.length_append] at hsize
    have happend : Prog.exec (Buffer.append s) b =
        (.ok (), { b with data := b.data ++ s }) := by
      by_cases hs : s = []
      · rw [hs, List.append_nil]
        rfl
      · have hfits : b.tryAppend s = ({ b with data := b.data ++ s }, true) := by
          unfold Buffer.tryAppend Headers.sizeAdd
          rw [if_neg hs, if_pos (by omega)]
          dsimp only
          rw [if_neg (fun h => h.1 hmax)]
        have hexec : Prog.exec (Buffer.append s) b =
            Prog.exec (if (b.tryAppend s).2 then pure () else throw .nomem : Writer Unit)
              (b.tryAppend s).1 := rfl
        rw [hexec, hfits]
        rfl
    have hrest := @ih { b with data := b.data ++ s } hmax ?_
    · rw [appendAll, Prog.exec_bind_ok happend, hrest, List.flatten_cons, List.append_assoc]
    · rw [List.length_append]
      omega

/-- A buffer with a limit takes what stays within it, and refuses the rest as lack of memory. -/
lemma appendAll_capped {b : Buffer} (pieces : List Bytes) (hmax : b.max ≠ 0)
    (hbig : b.max < 2 ^ 64) (hin : b.data.length ≤ b.max) :
    (b.data.length + pieces.flatten.length ≤ b.max →
      Prog.exec (appendAll pieces) b = (.ok (), { b with data := b.data ++ pieces.flatten })) ∧
    (b.max < b.data.length + pieces.flatten.length →
      (Prog.exec (appendAll pieces) b).1 = .error .nomem) := by
  induction pieces generalizing b with
  | nil =>
    rw [List.flatten_nil, List.append_nil]
    exact ⟨fun _ => rfl, fun hover => absurd hin (by simpa using hover)⟩
  | cons s pieces ih =>
    rw [List.flatten_cons, List.length_append]
    have hexec : Prog.exec (Buffer.append s) b =
        Prog.exec (if (b.tryAppend s).2 then pure () else throw .nomem : Writer Unit)
          (b.tryAppend s).1 := rfl
    by_cases hfits : b.data.length + s.length ≤ b.max
    · have htry : b.tryAppend s = ({ b with data := b.data ++ s }, true) := by
        unfold Buffer.tryAppend Headers.sizeAdd
        by_cases hs : s = []
        · rw [if_pos hs, hs, List.append_nil]
        · rw [if_neg hs, if_pos (by omega)]
          dsimp only
          rw [if_neg (by omega)]
      have happend : Prog.exec (Buffer.append s) b = (.ok (), { b with data := b.data ++ s }) := by
        rw [hexec, htry]
        rfl
      have hrest := @ih { b with data := b.data ++ s } hmax hbig (by simpa using hfits)
      simp only [List.length_append] at hrest
      rw [appendAll, Prog.exec_bind_ok happend]
      refine ⟨fun hle => ?_, fun hlt => hrest.2 (by omega)⟩
      rw [hrest.1 (by omega), List.append_assoc]
    · have htry : (b.tryAppend s).2 = false := by
        have hs : s ≠ [] := by
          rintro rfl
          exact hfits (by simpa using hin)
        unfold Buffer.tryAppend Headers.sizeAdd
        rw [if_neg hs]
        split
        · rfl
        · next need hneed =>
          split_ifs at hneed
          cases hneed
          rw [if_pos (by omega)]
      have happend : Prog.exec (Buffer.append s) b = (.error .nomem, (b.tryAppend s).1) := by
        rw [hexec, htry]
        rfl
      rw [appendAll, Prog.exec_bind_error happend]
      exact ⟨fun hle => by omega, fun _ => rfl⟩

/-- A string built in a buffer with a limit: its NUL needs room too. -/
lemma cstr_capped (pieces : List Bytes) {max : Nat} (hmax : max ≠ 0) (hbig : max < 2 ^ 64) :
    (Prog.exec (do appendAll pieces; Buffer.cstr) (Buffer.init max)).1 =
      if pieces.flatten.length < max then .ok pieces.flatten else .error .nomem := by
  have hcapped := appendAll_capped (b := Buffer.init max) pieces hmax hbig (Nat.zero_le _)
  simp only [Buffer.init, List.length_nil, Nat.zero_add, List.nil_append] at hcapped ⊢
  rcases Nat.lt_or_ge max pieces.flatten.length with hover | hle
  · rw [if_neg (by omega)]
    cases hrun : Prog.exec (appendAll pieces) ⟨[], max, false⟩ with
    | mk r b =>
      have hr := hcapped.2 hover
      rw [hrun] at hr
      cases r with
      | ok a => cases hr
      | error rc =>
        cases hr
        rw [Prog.exec_bind_error hrun]
  · rw [Prog.exec_bind_ok (hcapped.1 hle)]
    rw [Buffer.cstr, Prog.exec_bind_ok (Prog.exec_get _)]
    dsimp only
    unfold Headers.sizeAdd
    by_cases hlt : pieces.flatten.length < max
    · rw [if_pos hlt, if_pos (by omega)]
      dsimp only
      rw [if_neg (by omega)]
      rfl
    · rw [if_neg hlt]
      split
      · rfl
      · next need hneed =>
        split_ifs at hneed
        cases hneed
        rw [if_pos (by omega)]
        rfl

end Zuhttp
