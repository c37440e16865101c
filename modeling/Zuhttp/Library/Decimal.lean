import Mathlib.Data.Nat.Digits.Defs

/-!
# Decimal text and length-prefixed strings

Byte strings that write a number in base 10, most significant digit first, and the strings
that carry their own length in front.
-/

namespace Decimal

def IsDecimal (s : List UInt8) : Prop := s ≠ [] ∧ ∀ c ∈ s, 48 ≤ c ∧ c ≤ 57

/-- The number a string of digits writes. -/
def decimalValue (s : List UInt8) : Nat :=
  Nat.ofDigits 10 (s.reverse.map (fun c => c.toNat - 48))

lemma decimalValue_nil : decimalValue [] = 0 := rfl

lemma decimalValue_cons (c : UInt8) (s : List UInt8) :
    decimalValue (c :: s) = (c.toNat - 48) * 10 ^ s.length + decimalValue s := by
  simp only [decimalValue, List.reverse_cons, List.map_append, List.map_cons, List.map_nil,
    Nat.ofDigits_append, Nat.ofDigits_singleton, List.length_map, List.length_reverse]
  ring

/-- The digits of `v` written backward in front of `acc`, at most `fuel` of them. -/
def digitsOnto : Nat → Nat → List UInt8 → List UInt8
  | 0, _, acc => acc
  | fuel + 1, v, acc =>
    if v = 0 then acc else digitsOnto fuel (v / 10) (UInt8.ofNat (48 + v % 10) :: acc)

/-- The decimal text of a number, without leading zeros. -/
def decimalText (v : Nat) : List UInt8 := if v = 0 then [48] else digitsOnto v v []

lemma digit_toNat (v : Nat) : (UInt8.ofNat (48 + v % 10)).toNat = 48 + v % 10 := by
  have hlt : v % 10 < 10 := Nat.mod_lt v (by omega)
  rw [UInt8.toNat_ofNat_of_lt']
  simp only [UInt8.size]
  omega

lemma decimalValue_digitsOnto (fuel v : Nat) (acc : List UInt8) (hfuel : v < 10 ^ fuel) :
    decimalValue (digitsOnto fuel v acc) = v * 10 ^ acc.length + decimalValue acc := by
  induction fuel generalizing v acc with
  | zero =>
    have hzero : v = 0 := by simpa using hfuel
    rw [hzero, digitsOnto, zero_mul, zero_add]
  | succ fuel ih =>
    unfold digitsOnto
    by_cases hv : v = 0
    · rw [if_pos hv, hv, zero_mul, zero_add]
    · have hdiv : v / 10 < 10 ^ fuel := by
        rw [pow_succ] at hfuel
        omega
      rw [if_neg hv, ih _ _ hdiv, decimalValue_cons, digit_toNat, List.length_cons, pow_succ]
      have hsplit := Nat.div_add_mod v 10
      have hdigit : 48 + v % 10 - 48 = v % 10 := by omega
      rw [hdigit]
      calc v / 10 * (10 ^ acc.length * 10) + (v % 10 * 10 ^ acc.length + decimalValue acc)
          = (10 * (v / 10) + v % 10) * 10 ^ acc.length + decimalValue acc := by ring
        _ = v * 10 ^ acc.length + decimalValue acc := by rw [hsplit]

/-- Room for the digits is enough room. -/
lemma digitsOnto_room {fuel fuel' v : Nat} (h : v < 10 ^ fuel) (h' : v < 10 ^ fuel')
    (acc : List UInt8) : digitsOnto fuel v acc = digitsOnto fuel' v acc := by
  induction fuel generalizing fuel' v acc with
  | zero =>
    obtain rfl : v = 0 := by simpa using h
    cases fuel' <;> rfl
  | succ fuel ih =>
    cases fuel' with
    | zero =>
      obtain rfl : v = 0 := by simpa using h'
      rfl
    | succ fuel' =>
      rw [pow_succ] at h h'
      rw [digitsOnto, digitsOnto]
      split_ifs
      · rfl
      · exact ih (by omega) (by omega) _

/-- The text of a number has its value. -/
theorem decimalValue_decimalText (v : Nat) : decimalValue (decimalText v) = v := by
  unfold decimalText
  by_cases hv : v = 0
  · rw [if_pos hv, hv]
    rfl
  · rw [if_neg hv, decimalValue_digitsOnto v v [] (Nat.lt_pow_self (by omega))]
    simp [decimalValue_nil]

lemma digitsOnto_digits (fuel v : Nat) (acc : List UInt8)
    (hacc : ∀ c ∈ acc, 48 ≤ c ∧ c ≤ 57) : ∀ c ∈ digitsOnto fuel v acc, 48 ≤ c ∧ c ≤ 57 := by
  induction fuel generalizing v acc with
  | zero => exact hacc
  | succ fuel ih =>
    unfold digitsOnto
    split_ifs
    · exact hacc
    · apply ih
      rw [List.forall_mem_cons]
      refine ⟨?_, hacc⟩
      simp only [UInt8.le_iff_toNat_le, digit_toNat]
      have hlt : v % 10 < 10 := Nat.mod_lt v (by omega)
      constructor
      · change 48 ≤ _
        omega
      · change _ ≤ 57
        omega

lemma decimalText_digits (v : Nat) : ∀ c ∈ decimalText v, 48 ≤ c ∧ c ≤ 57 := by
  unfold decimalText
  split_ifs
  · simp
  · exact digitsOnto_digits v v [] (by simp)

lemma decimalText_ne_nil (v : Nat) : decimalText v ≠ [] := by
  intro hnil
  have hzero := decimalValue_decimalText v
  rw [hnil, decimalValue_nil] at hzero
  rw [← hzero] at hnil
  cases hnil

theorem decimalText_injective : Function.Injective decimalText := by
  intro v w h
  rw [← decimalValue_decimalText v, h, decimalValue_decimalText]

/-- A string behind its length and a colon. -/
def lengthPrefixed (s : List UInt8) : List UInt8 := decimalText s.length ++ 58 :: s

lemma colon_notMem_decimalText (v : Nat) : (58 : UInt8) ∉ decimalText v := by
  intro hmem
  exact absurd (decimalText_digits v 58 hmem).2 (by decide)

/-- What stands before the first separator and after it is determined. -/
lemma append_sep_inj {α : Type*} {s : α} {a b x y : List α} (ha : s ∉ a) (hb : s ∉ b)
    (h : a ++ s :: x = b ++ s :: y) : a = b ∧ x = y := by
  induction a generalizing b with
  | nil =>
    cases b with
    | nil => simpa using h
    | cons d b =>
      rw [List.nil_append, List.cons_append, List.cons.injEq] at h
      exact absurd (h.1 ▸ List.mem_cons_self) hb
  | cons c a ih =>
    rw [List.mem_cons, not_or] at ha
    cases b with
    | nil =>
      rw [List.nil_append, List.cons_append, List.cons.injEq] at h
      exact absurd h.1.symm ha.1
    | cons d b =>
      rw [List.mem_cons, not_or] at hb
      rw [List.cons_append, List.cons_append, List.cons.injEq] at h
      obtain ⟨rfl, hx⟩ := ih ha.2 hb.2 h.2
      exact ⟨by rw [h.1], hx⟩

/-- Length-prefixed strings are self-delimiting. -/
theorem lengthPrefixed_append_inj {a b x y : List UInt8}
    (h : lengthPrefixed a ++ x = lengthPrefixed b ++ y) : a = b ∧ x = y := by
  simp only [lengthPrefixed, List.append_assoc, List.cons_append] at h
  obtain ⟨htext, hrest⟩ :=
    append_sep_inj (colon_notMem_decimalText _) (colon_notMem_decimalText _) h
  exact List.append_inj hrest (decimalText_injective htext)

/-- A list of strings, each behind its length. -/
def lengthPrefixedAll (l : List (List UInt8)) : List UInt8 := l.flatMap lengthPrefixed

/-- Two lists of one length are equal when their encodings are. -/
theorem lengthPrefixedAll_inj {l m : List (List UInt8)} (hlen : l.length = m.length)
    (h : lengthPrefixedAll l = lengthPrefixedAll m) : l = m := by
  induction l generalizing m with
  | nil =>
    cases m with
    | nil => rfl
    | cons b m => cases hlen
  | cons a l ih =>
    cases m with
    | nil => cases hlen
    | cons b m =>
      obtain ⟨rfl, hrest⟩ := lengthPrefixed_append_inj h
      rw [ih (by simpa using hlen) hrest]

end Decimal
