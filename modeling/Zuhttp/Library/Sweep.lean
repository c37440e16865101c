import Mathlib.Algebra.Ring.Nat
import Mathlib.Data.List.Basic

/-!
# Erasing in place

A loop over an array that erases what a test picks out and looks at the same index again, and
a tally kept beside it. What is left is the rest in order, and the tally is a fold over what
was erased.
-/

namespace Sweep

variable {α β : Type*} (pick : α → Bool) (tally : β → α → β)

/-- The loop from the index `i` on. -/
def loop (l : List α) (i : Nat) (b : β) : List α × β :=
  if h : i < l.length then
    if pick l[i] then loop (l.eraseIdx i) i (tally b l[i])
    else loop l (i + 1) b
  else (l, b)
termination_by l.length - i
decreasing_by
  · rw [List.length_eraseIdx_of_lt h]
    omega
  · omega

variable {pick tally}

lemma loop_of_le {l : List α} {i : Nat} (h : l.length ≤ i) (b : β) :
    loop pick tally l i b = (l, b) := by
  rw [loop, dif_neg (Nat.not_lt.mpr h)]

lemma loop_picked {l : List α} {i : Nat} (h : i < l.length) (hp : pick l[i] = true) (b : β) :
    loop pick tally l i b = loop pick tally (l.eraseIdx i) i (tally b l[i]) := by
  rw [loop, dif_pos h, if_pos hp]

lemma loop_passed {l : List α} {i : Nat} (h : i < l.length) (hp : pick l[i] = false) (b : β) :
    loop pick tally l i b = loop pick tally l (i + 1) b := by
  rw [loop, dif_pos h, if_neg (by rw [hp]; decide)]

/-- What the loop has passed stays; what is still ahead is filtered. -/
lemma loop_append (done rest : List α) (b : β) :
    loop pick tally (done ++ rest) done.length b =
      (done ++ rest.filter (fun x => !pick x), (rest.filter pick).foldl tally b) := by
  induction rest generalizing done b with
  | nil => rw [List.append_nil, loop_of_le (Nat.le_refl _)]; simp
  | cons x rest ih =>
    have hlt : done.length < (done ++ x :: rest).length := by simp
    have hx : (done ++ x :: rest)[done.length] = x := by simp
    cases hp : pick x with
    | true =>
      have herase : (done ++ x :: rest).eraseIdx done.length = done ++ rest := by
        rw [List.eraseIdx_append_of_length_le (Nat.le_refl _), Nat.sub_self,
          List.eraseIdx_cons_zero]
      rw [loop_picked hlt (by rw [hx, hp]), herase, hx, ih]
      simp [hp]
    | false =>
      have hpart := ih (done ++ [x]) b
      rw [List.append_assoc, List.singleton_append, List.length_append,
        List.length_singleton] at hpart
      rw [loop_passed hlt (by rw [hx, hp]), hpart]
      simp [hp]

/-- The loop from the start. -/
theorem loop_zero (l : List α) (b : β) :
    loop pick tally l 0 b = (l.filter (fun x => !pick x), (l.filter pick).foldl tally b) :=
  loop_append [] l b

/-- A sum over a list is what was picked out of it and what was left. -/
theorem sum_filter (pick : α → Bool) (weight : α → Nat) (l : List α) :
    (l.map weight).sum =
      ((l.filter pick).map weight).sum + ((l.filter (fun x => !pick x)).map weight).sum := by
  induction l with
  | nil => rfl
  | cons x l ih =>
    rw [List.map_cons, List.sum_cons, ih]
    cases h : pick x <;> simp [h] <;> omega

/-- A tally that takes each weight off, and stops at 0, takes the sum off. -/
theorem foldl_sub (weight : α → Nat) (l : List α) (n : Nat) :
    l.foldl (fun b x => b - weight x) n = n - (l.map weight).sum := by
  induction l generalizing n with
  | nil => rfl
  | cons x l ih => rw [List.foldl_cons, ih, List.map_cons, List.sum_cons, Nat.sub_sub]

end Sweep
