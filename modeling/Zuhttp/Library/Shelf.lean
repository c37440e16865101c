import Mathlib.Data.List.Basic
import Mathlib.Data.List.Count

/-!
# A shelf with limits

A list, newest first, with a limit on its length and one on the members of each group. What is
put on a full shelf takes the place of the oldest of what is too many.
-/

namespace Shelf

structure Limits where
  total : Nat
  /-- The members of one group; 0 is no limit. -/
  perGroup : Nat

variable {α : Type*} (same : α → α → Bool) (lim : Limits)

/-- There is a place in the group of `a`. -/
def HasPlace (a : α) (l : List α) : Prop :=
  0 < lim.perGroup → l.countP (same · a) < lim.perGroup

structure Within (l : List α) : Prop where
  total : l.length ≤ lim.total
  group : 0 < lim.perGroup → ∀ a, l.countP (same · a) ≤ lim.perGroup

/-- Putting `a` on a shelf, with the number of things there was no room for: it goes in front,
and only where its group or the whole shelf is full does the oldest thing of that group or of
all have to make room. -/
inductive Put (a : α) : List α × Nat → List α × Nat → Prop
  | free (l : List α) (n : Nat) (hplace : HasPlace same lim a l)
      (htotal : l.length < lim.total) : Put a (l, n) (a :: l, n)
  | replaceInGroup (pre : List α) (old : α) (post : List α) (n : Nat)
      (hfull : 0 < lim.perGroup ∧ lim.perGroup ≤ (pre ++ old :: post).countP (same · a))
      (hold : same old a = true) (holder : ∀ x ∈ post, same x a = false) :
      Put a (pre ++ old :: post, n) (a :: (pre ++ post), n + 1)
  | replaceLast (pre : List α) (old : α) (n : Nat)
      (hplace : HasPlace same lim a (pre ++ [old]))
      (hfull : lim.total ≤ (pre ++ [old]).length) :
      Put a (pre ++ [old], n) (a :: pre, n + 1)
  | refuse (l : List α) (n : Nat) (hnone : lim.total = 0) : Put a (l, n) (l, n + 1)

variable {same} {lim}

lemma Within.nil : Within same lim [] :=
  ⟨Nat.zero_le _, fun _ _ => Nat.zero_le _⟩

lemma Within.sublist {l l' : List α} (h : Within same lim l) (hsub : l'.Sublist l) :
    Within same lim l' :=
  ⟨Nat.le_trans hsub.length_le h.total, fun hpos a =>
    Nat.le_trans hsub.countP_le (h.group hpos a)⟩

section Groups

variable (hsymm : ∀ a b, same a b = true → same b a = true)
  (htrans : ∀ a b c, same a b = true → same b c = true → same a c = true)

include hsymm htrans

lemma countP_same {a b : α} (hab : same a b = true) (l : List α) :
    l.countP (same · a) = l.countP (same · b) := by
  refine List.countP_congr fun x _ => ⟨fun h => htrans _ _ _ h hab, fun h => ?_⟩
  exact htrans _ _ _ h (hsymm _ _ hab)

lemma Within.cons {a : α} {l : List α} (h : Within same lim l) (hplace : HasPlace same lim a l)
    (htotal : l.length < lim.total) : Within same lim (a :: l) where
  total := htotal
  group := by
    intro hpos b
    rw [List.countP_cons]
    split_ifs with hab
    · rw [← countP_same hsymm htrans hab]
      exact hplace hpos
    · exact h.group hpos b

/-- What is put on a shelf stays within its limits. -/
theorem Put.within {a : α} {s s' : List α × Nat} (hput : Put same lim a s s')
    (h : Within same lim s.1) : Within same lim s'.1 := by
  cases hput with
  | free l n hplace htotal => exact h.cons hsymm htrans hplace htotal
  | replaceInGroup pre old post n hfull hold holder =>
    have hsub : (pre ++ post).Sublist (pre ++ old :: post) :=
      (List.Sublist.refl pre).append (List.sublist_cons_self old post)
    refine (h.sublist hsub).cons hsymm htrans (fun hpos => ?_) ?_
    · have hgroup := h.group hpos a
      simp only [List.countP_append, List.countP_cons, hold, if_true] at hgroup ⊢
      omega
    · have htotal := h.total
      simp only [List.length_append, List.length_cons] at htotal ⊢
      omega
  | replaceLast pre old n hplace hfull =>
    have hsub : pre.Sublist (pre ++ [old]) := List.sublist_append_left pre [old]
    refine (h.sublist hsub).cons hsymm htrans (fun hpos => ?_) ?_
    · exact Nat.lt_of_le_of_lt hsub.countP_le (hplace hpos)
    · have htotal := h.total
      rw [List.length_append, List.length_singleton] at htotal
      omega
  | refuse l n hnone => exact h

end Groups

end Shelf
