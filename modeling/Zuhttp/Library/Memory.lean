import Mathlib.Data.List.Basic

/-!
# Memory

Bytes that are written from some place on, as `memcpy` does. Outside of these places the memory
stays as it is.
-/

namespace Memory

variable {α : Type*}

/-- The memory with `s` written from place `i` on. -/
def store (mem : List α) (i : Nat) (s : List α) : List α :=
  mem.take i ++ s ++ mem.drop (i + s.length)

lemma length_store {mem s : List α} {i : Nat} (h : i + s.length ≤ mem.length) :
    (store mem i s).length = mem.length := by
  simp only [store, List.length_append, List.length_take, List.length_drop]
  omega

lemma store_zero (mem s : List α) : store mem 0 s = s ++ mem.drop s.length := by
  rw [store, List.take_zero, List.nil_append, Nat.zero_add]

@[simp] lemma store_nil (mem : List α) (i : Nat) : store mem i [] = mem := by
  rw [store, List.append_nil, List.length_nil, Nat.add_zero, List.take_append_drop]

/-- What is written right behind a part that stays. -/
lemma store_append (a b s : List α) : store (a ++ b) a.length s = a ++ s ++ b.drop s.length := by
  rw [store, List.take_left, List.drop_append, Nat.add_sub_cancel_left, List.drop_eq_nil_of_le,
    List.nil_append]
  omega

/-- What is written behind what was written before is written in one piece with it. -/
lemma store_store {mem : List α} {i : Nat} (h : i ≤ mem.length) (a b : List α) :
    store (store mem i a) (i + a.length) b = store mem i (a ++ b) := by
  have hlen : (mem.take i ++ a).length = i + a.length := by
    rw [List.length_append, List.length_take, Nat.min_eq_left h]
  have hstored : store mem i a = mem.take i ++ a ++ mem.drop (i + a.length) := rfl
  rw [hstored, ← hlen, store_append, hlen, List.drop_drop, store, List.length_append,
    List.append_assoc (mem.take i), Nat.add_assoc]

/-- Nothing in front is touched. -/
lemma take_store {mem s : List α} {i k : Nat} (hk : k ≤ i) (hi : i ≤ mem.length) :
    (store mem i s).take k = mem.take k := by
  rw [store, List.append_assoc, List.take_append_of_le_length (by simp; omega), List.take_take,
    Nat.min_eq_left hk]

/-- Nothing behind is touched. -/
lemma drop_store {mem s : List α} {i k : Nat} (hk : i + s.length ≤ k) (hi : i ≤ mem.length) :
    (store mem i s).drop k = mem.drop k := by
  have hlen : (mem.take i ++ s).length = i + s.length := by
    rw [List.length_append, List.length_take, Nat.min_eq_left hi]
  rw [store, List.drop_append, hlen, List.drop_eq_nil_of_le (by omega), List.nil_append,
    List.drop_drop]
  congr 1
  omega

end Memory
