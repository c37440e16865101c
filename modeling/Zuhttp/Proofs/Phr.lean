import Zuhttp.Phr

/-!
# The header parser is incremental

More input never revises what `phr_parse_headers` has decided.
-/

namespace Zuhttp.Phr

open Incremental Incremental.Parse

lemma expectChar_stable (ch : UInt8) : Stable (expectChar ch) := by
  have hcons : ∀ c s, expectChar ch (c :: s) = if c = ch then ok () s else bad :=
    fun c s => rfl
  refine Stable.head rfl hcons (fun c => ?_)
  by_cases h : c = ch
  · simp only [h, if_true]
    exact Stable.pure ()
  · simp only [h, if_false]
    exact Stable.refuse

/-- An answer that puts the deciding byte back. -/
lemma stable_unread {α : Type} (a : α) (c : UInt8) :
    Stable (fun s : Bytes => (ok a (c :: s) : Result α)) where
  ok_append := by
    intro s b r t h
    simp only [ok.injEq] at h ⊢
    exact ⟨h.1, by rw [← h.2, List.cons_append]⟩
  bad_append := by
    intro s t h
    cases h

/-- The end of a line, by CRLF or by a bare LF, or something else. -/
lemma lineEnd_stable {α : Type} (c : UInt8) (a : α) {q : Bytes → Result α} (hq : Stable q) :
    Stable (fun s => if c = 13 then (expectChar 10 s).map (fun _ => a)
      else if c = 10 then ok a s else q s) := by
  by_cases hcr : c = 13
  · simp only [hcr, if_true]
    exact (expectChar_stable 10).map _
  · simp only [hcr, if_false]
    by_cases hlf : c = 10
    · simp only [hlf, if_true]
      exact Stable.pure a
    · simp only [hlf, if_false]
      exact hq

lemma getTokenToEol_stable : Stable getTokenToEol := by
  have hcons : ∀ c s, getTokenToEol (c :: s) =
      if isCtl c then
        if c = 13 then (expectChar 10 s).map (fun _ => []) else if c = 10 then ok [] s else bad
      else (getTokenToEol s).map (c :: ·) := fun c s => rfl
  refine Stable.loop (· :: ·) rfl (fun c => ?_)
  by_cases hctl : isCtl c = true
  · right
    exact ⟨_, lineEnd_stable c [] Stable.refuse, fun s => by rw [hcons, if_pos hctl]⟩
  · left
    intro s
    rw [hcons, if_neg hctl]

lemma parseToken_stable (nextChar : UInt8) : Stable (parseToken nextChar) := by
  have hcons : ∀ c s, parseToken nextChar (c :: s) =
      if c = nextChar then ok [] (c :: s)
      else if isTchar c = false then bad
      else (parseToken nextChar s).map (c :: ·) := fun c s => rfl
  refine Stable.loop (· :: ·) rfl (fun c => ?_)
  by_cases hnext : c = nextChar
  · right
    exact ⟨_, stable_unread [] c, fun s => by rw [hcons, if_pos hnext]⟩
  · by_cases htok : isTchar c = false
    · right
      exact ⟨_, Stable.refuse, fun s => by rw [hcons, if_neg hnext, if_pos htok]⟩
    · left
      intro s
      rw [hcons, if_neg hnext, if_neg htok]

lemma skipBlanks_stable : Stable skipBlanks := by
  have hcons : ∀ c s, skipBlanks (c :: s) = if isOws c then skipBlanks s else ok () (c :: s) :=
    fun c s => rfl
  refine Stable.loop (fun _ u => u) rfl (fun c => ?_)
  by_cases hows : isOws c = true
  · left
    intro s
    rw [hcons, if_pos hows]
    cases skipBlanks s <;> rfl
  · right
    exact ⟨_, stable_unread () c, fun s => by rw [hcons, if_neg hows]⟩

lemma parseName_stable (first : Bool) : Stable (parseName first) := by
  have hname : Stable (fun s => (parseToken 58 s).bind (fun name rest =>
      if name = [] then (bad : Result (Option Bytes))
      else (expectChar 58 rest).bind
        (fun _ rest => (skipBlanks rest).map (fun _ => some name)))) := by
    refine (parseToken_stable 58).bind (fun name => ?_)
    by_cases hempty : name = []
    · simp only [hempty, if_true]
      exact Stable.refuse
    · simp only [hempty, if_false]
      exact (expectChar_stable 58).bind (fun _ => skipBlanks_stable.map _)
  have hcons : ∀ c s, parseName first (c :: s) =
      if first = false ∧ isOws c then ok none (c :: s)
      else (parseToken 58 (c :: s)).bind (fun name rest =>
        if name = [] then (bad : Result (Option Bytes))
        else (expectChar 58 rest).bind
          (fun _ rest => (skipBlanks rest).map (fun _ => some name))) := fun c s => rfl
  refine Stable.head rfl hcons (fun c => ?_)
  by_cases hfold : first = false ∧ isOws c = true
  · simp only [hfold, and_self, if_true]
    exact stable_unread none c
  · simp only [hfold, if_false]
    exact ⟨fun t h => hname.ok_append t h, fun t h => hname.bad_append t h⟩

lemma parseLine_stable (first : Bool) : Stable (parseLine first) :=
  (parseName_stable first).bind (fun _ => getTokenToEol_stable.map _)

/-- A header block that is complete or malformed stays so. -/
theorem parseHeaders_stable (first : Bool) (room : Nat) : Stable (parseHeaders first room) := by
  induction room generalizing first with
  | zero =>
    have hcons : ∀ c s, parseHeaders first 0 (c :: s) =
        if c = 13 then (expectChar 10 s).map (fun _ => [])
        else if c = 10 then ok [] s
        else bad := fun c s => by rw [parseHeaders]
    exact Stable.head rfl hcons (fun c => lineEnd_stable c [] Stable.refuse)
  | succ room ih =>
    have hcons : ∀ c s, parseHeaders first (room + 1) (c :: s) =
        if c = 13 then (expectChar 10 s).map (fun _ => [])
        else if c = 10 then ok [] s
        else (parseLine first (c :: s)).bind (fun h rest =>
          (parseHeaders false room rest).map (h :: ·)) := fun c s => by rw [parseHeaders]
    have hline : Stable (fun s => (parseLine first s).bind (fun h rest =>
        (parseHeaders false room rest).map (h :: ·))) :=
      (parseLine_stable first).bind (fun h => (ih false).map _)
    exact Stable.head rfl hcons (fun c => lineEnd_stable c []
      ⟨fun t h => hline.ok_append t h, fun t h => hline.bad_append t h⟩)

end Zuhttp.Phr
