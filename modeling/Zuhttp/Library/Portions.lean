import Mathlib.Data.List.Forall2
import Mathlib.Data.List.SplitLengths

/-!
# A list in portions

A list that is handed out in portions of given sizes, until there is nothing left of it.
-/

namespace Portions

variable {α : Type*}

/-- The portions in front of the first empty one, joined. -/
def joined [DecidableEq α] (ps : List (List α)) : List α := (ps.takeWhile (· ≠ [])).flatten

variable {s : List α} {sizes : List ℕ}

lemma splitLengths_nil_right (sizes : List ℕ) : ∀ p ∈ sizes.splitLengths ([] : List α), p = [] := by
  induction sizes with
  | nil => simp
  | cons n sizes ih => simpa using ih

lemma flatten_splitLengths_le (sizes : List ℕ) (s : List α) :
    (sizes.splitLengths s).flatten <+: s := by
  induction sizes generalizing s with
  | nil => exact List.nil_prefix
  | cons n sizes ih =>
    rw [List.splitLengths_cons, List.flatten_cons]
    conv_rhs => rw [← List.take_append_drop n s]
    exact List.prefix_append_right_inj _ |>.mpr (ih _)

lemma splitLengths_bounded (sizes : List ℕ) (s : List α) :
    List.Forall₂ (fun n p => p.length ≤ n) sizes (sizes.splitLengths s) := by
  induction sizes generalizing s with
  | nil => exact List.Forall₂.nil
  | cons n sizes ih =>
    rw [List.splitLengths_cons]
    exact List.Forall₂.cons (List.length_take_le n s) (ih _)

variable [DecidableEq α]

lemma joined_cons_nil (ps : List (List α)) : joined ([] :: ps) = [] := rfl

lemma joined_cons {p : List α} (hp : p ≠ []) (ps : List (List α)) :
    joined (p :: ps) = p ++ joined ps := by
  rw [joined, List.takeWhile_cons_of_pos (by simpa using hp), List.flatten_cons, joined]

theorem joined_isPrefix (sizes : List ℕ) (s : List α) :
    joined (sizes.splitLengths s) <+: s := by
  refine List.IsPrefix.trans ?_ (flatten_splitLengths_le sizes s)
  obtain ⟨rest, hrest⟩ := List.takeWhile_prefix (l := sizes.splitLengths s) (· ≠ [])
  exact ⟨rest.flatten, by rw [joined, ← List.flatten_append, hrest]⟩

/-- If no size is zero, an empty portion is behind all of the list. -/
theorem joined_eq (hsizes : ∀ n ∈ sizes, 0 < n) (h : [] ∈ sizes.splitLengths s) :
    joined (sizes.splitLengths s) = s := by
  induction sizes generalizing s with
  | nil => cases h
  | cons n sizes ih =>
    rw [List.forall_mem_cons] at hsizes
    rw [List.splitLengths_cons] at h ⊢
    by_cases hs : s = []
    · rw [hs, List.take_nil, joined_cons_nil]
    · have htake : s.take n ≠ [] := by
        rw [Ne, List.take_eq_nil_iff, not_or]
        exact ⟨hsizes.1.ne', hs⟩
      have hrest := ih hsizes.2 ((List.mem_cons.mp h).resolve_left htake.symm)
      rw [joined_cons htake, hrest, List.take_append_drop]

end Portions
