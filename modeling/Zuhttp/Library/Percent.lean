import Mathlib.Data.List.Basic
import Zuhttp.Library.Ascii

/-!
# Percent-encoding

The escapes of RFC 3986, section 2.1. An encoder keeps some bytes and writes the others as an
escape with upper-case digits; the decoder takes digits of either case and refuses a `%` that
two digits do not follow.
-/

namespace Percent

open Ascii

/-- The digit of a value below 16. -/
def hexDigit (v : Nat) : UInt8 := UInt8.ofNat (if v < 10 then 48 + v else 55 + v)

def decode : List UInt8 → Option (List UInt8)
  | [] => some []
  | 37 :: a :: b :: s =>
    match hexValue a, hexValue b with
    | some hi, some lo => (decode s).map (UInt8.ofNat (hi * 16 + lo) :: ·)
    | _, _ => none
  | c :: s => if c = 37 then none else (decode s).map (c :: ·)

def encodeByte (keep : UInt8 → Bool) (c : UInt8) : List UInt8 :=
  if keep c then [c] else [37, hexDigit (c.toNat / 16), hexDigit (c.toNat % 16)]

def encode (keep : UInt8 → Bool) (s : List UInt8) : List UInt8 := s.flatMap (encodeByte keep)

variable {keep : UInt8 → Bool}

lemma decode_escape {a b : UInt8} {hi lo : Nat} (ha : hexValue a = some hi)
    (hb : hexValue b = some lo) (s : List UInt8) :
    decode (37 :: a :: b :: s) = (decode s).map (UInt8.ofNat (hi * 16 + lo) :: ·) := by
  rw [decode, ha, hb]

lemma decode_other {c : UInt8} (hc : c ≠ 37) (s : List UInt8) :
    decode (c :: s) = (decode s).map (c :: ·) := by
  rw [decode]
  · exact if_neg hc
  · rintro a b t rfl
    exact absurd rfl hc

lemma hexValue_hexDigit : ∀ v : Fin 16, hexValue (hexDigit v) = some v.val := by decide +kernel

lemma decode_encodeByte (hkeep : keep 37 = false) (c : UInt8) (s : List UInt8) :
    decode (encodeByte keep c ++ s) = (decode s).map (c :: ·) := by
  unfold encodeByte
  split_ifs with h
  · refine decode_other ?_ s
    rintro rfl
    rw [hkeep] at h
    cases h
  · have hhi := hexValue_hexDigit ⟨c.toNat / 16, by have := c.toNat_lt; omega⟩
    have hlo := hexValue_hexDigit ⟨c.toNat % 16, Nat.mod_lt _ (by decide)⟩
    have hbyte : UInt8.ofNat (c.toNat / 16 * 16 + c.toNat % 16) = c := by
      rw [Nat.div_add_mod']
      exact UInt8.ofNat_toNat
    rw [List.cons_append, List.cons_append, List.cons_append, List.nil_append,
      decode_escape hhi hlo, hbyte]

/-- Decoding takes back the encoding of every byte string. -/
theorem decode_encode (hkeep : keep 37 = false) (s : List UInt8) :
    decode (encode keep s) = some s := by
  induction s with
  | nil => rfl
  | cons c s ih =>
    have hcons : encode keep (c :: s) = encodeByte keep c ++ encode keep s := rfl
    rw [hcons, decode_encodeByte hkeep, ih]
    rfl

lemma hexDigit_digit : ∀ v : Fin 16, (48 ≤ hexDigit v ∧ hexDigit v ≤ 57) ∨
    (65 ≤ hexDigit v ∧ hexDigit v ≤ 70) := by
  decide +kernel

/-- An encoded text consists of kept bytes, `%` and upper-case hexadecimal digits. -/
theorem mem_encode {s : List UInt8} {c : UInt8} (hc : c ∈ encode keep s) :
    keep c = true ∨ c = 37 ∨ (48 ≤ c ∧ c ≤ 57) ∨ (65 ≤ c ∧ c ≤ 70) := by
  obtain ⟨b, -, hb⟩ := List.mem_flatMap.mp hc
  unfold encodeByte at hb
  split_ifs at hb with h
  · rw [List.mem_singleton.mp hb]
    exact .inl h
  · have hhi := hexDigit_digit ⟨b.toNat / 16, by have := b.toNat_lt; omega⟩
    have hlo := hexDigit_digit ⟨b.toNat % 16, Nat.mod_lt _ (by decide)⟩
    simp only [List.mem_cons, List.not_mem_nil, or_false] at hb
    rcases hb with rfl | rfl | rfl
    · exact .inr (.inl rfl)
    · exact .inr (.inr hhi)
    · exact .inr (.inr hlo)

end Percent
