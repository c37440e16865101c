import Mathlib.Data.List.Basic

/-!
# Strings with their length in front

A sequence of strings, each behind one byte with its length.
-/

namespace Prefixed

def text (l : List (List UInt8)) : List UInt8 := l.flatMap (fun s => UInt8.ofNat s.length :: s)

def readN : Nat → List UInt8 → Option (List (List UInt8))
  | _, [] => some []
  | 0, _ :: _ => none
  | n + 1, c :: s =>
    if s.length < c.toNat then none
    else (readN n (s.drop c.toNat)).map (s.take c.toNat :: ·)

/-- The strings of a sequence; every one takes up a byte. -/
def read (s : List UInt8) : Option (List (List UInt8)) := readN s.length s

@[simp] lemma text_nil : text [] = [] := rfl

lemma text_cons (s : List UInt8) (l : List (List UInt8)) :
    text (s :: l) = UInt8.ofNat s.length :: s ++ text l := List.flatMap_cons

lemma readN_text {l : List (List UInt8)} (h : ∀ s ∈ l, s.length ≤ 255) {n : Nat}
    (hn : (text l).length ≤ n) : readN n (text l) = some l := by
  induction l generalizing n with
  | nil => cases n <;> rfl
  | cons s l ih =>
    rw [List.forall_mem_cons] at h
    rw [text_cons, List.cons_append] at hn ⊢
    rw [List.length_cons, List.length_append] at hn
    cases n with
    | zero => omega
    | succ n =>
      have hlen : (UInt8.ofNat s.length).toNat = s.length := by
        rw [UInt8.toNat_ofNat']
        exact Nat.mod_eq_of_lt (by omega)
      rw [readN, hlen, if_neg (by simp), List.drop_left, List.take_left, ih h.2 (by omega)]
      rfl

theorem read_text {l : List (List UInt8)} (h : ∀ s ∈ l, s.length ≤ 255) :
    read (text l) = some l := readN_text h (Nat.le_refl _)

end Prefixed
