import Mathlib.Data.List.Basic

/-!
# Base64

The encoding of RFC 4648, section 4: three bytes are four digits of six bits, and a shorter
last group is padded. The decoder takes nothing but what the encoder gives.
-/

namespace Base64

/-- The digits in the order of their values. -/
def alphabet : List UInt8 :=
  "ABCDEFGHIJKLMNOPQRSTUVWXYZabcdefghijklmnopqrstuvwxyz0123456789+/".toList.map
    (fun c => UInt8.ofNat c.toNat)

/-- The padding character. -/
def pad : UInt8 := 61

/-- The digit of the low six bits. -/
def digit (v : Nat) : UInt8 := alphabet.getD (v % 64) 0

def encode : List UInt8 → List UInt8
  | a :: b :: c :: s =>
    let v := a.toNat * 65536 + b.toNat * 256 + c.toNat
    digit (v / 262144) :: digit (v / 4096) :: digit (v / 64) :: digit v :: encode s
  | [a, b] =>
    let v := a.toNat * 65536 + b.toNat * 256
    [digit (v / 262144), digit (v / 4096), digit (v / 64), pad]
  | [a] =>
    let v := a.toNat * 65536
    [digit (v / 262144), digit (v / 4096), pad, pad]
  | [] => []

/-- The value of a digit. -/
def value (c : UInt8) : Option Nat := alphabet.findIdx? (· = c)

/-- Four digits are three bytes. -/
def decodeGroup (a b c d : UInt8) : Option (List UInt8) := do
  let v := (((← value a) * 64 + (← value b)) * 64 + (← value c)) * 64 + (← value d)
  some [UInt8.ofNat (v / 65536), UInt8.ofNat (v / 256), UInt8.ofNat v]

/-- The last four characters, of which one or two may be padding; the bits under the padding
are 0. -/
def decodeLast (a b c d : UInt8) : Option (List UInt8) :=
  if d ≠ pad then decodeGroup a b c d
  else if c ≠ pad then do
    let v := ((← value a) * 64 + (← value b)) * 64 + (← value c)
    if v % 4 = 0 then some [UInt8.ofNat (v / 1024), UInt8.ofNat (v / 4)] else none
  else do
    let v := (← value a) * 64 + (← value b)
    if v % 16 = 0 then some [UInt8.ofNat (v / 16)] else none

def decode : List UInt8 → Option (List UInt8)
  | [] => some []
  | [a, b, c, d] => decodeLast a b c d
  | a :: b :: c :: d :: e :: s => do
    let group ← decodeGroup a b c d
    let rest ← decode (e :: s)
    some (group ++ rest)
  | _ => none

lemma value_alphabet : ∀ v : Fin 64, value (alphabet.getD v 0) = some v ∧
    alphabet.getD v 0 ≠ pad := by
  decide +kernel

lemma value_digit (v : Nat) : value (digit v) = some (v % 64) :=
  (value_alphabet ⟨v % 64, Nat.mod_lt v (by decide)⟩).1

lemma digit_ne_pad (v : Nat) : digit v ≠ pad :=
  (value_alphabet ⟨v % 64, Nat.mod_lt v (by decide)⟩).2

/-- Four digits give back the three bytes of their group. -/
lemma decodeGroup_digits (a b c : UInt8) :
    let v := a.toNat * 65536 + b.toNat * 256 + c.toNat
    decodeGroup (digit (v / 262144)) (digit (v / 4096)) (digit (v / 64)) (digit v) =
      some [a, b, c] := by
  intro v
  have ha := a.toNat_lt
  have hb := b.toNat_lt
  have hc := c.toNat_lt
  have hv : ((v / 262144 % 64 * 64 + v / 4096 % 64) * 64 + v / 64 % 64) * 64 + v % 64 = v := by
    omega
  have hfirst : v / 65536 = a.toNat := by omega
  have hsecond : UInt8.ofNat (v / 256) = b := by
    apply UInt8.toNat_inj.mp
    rw [UInt8.toNat_ofNat']
    omega
  have hthird : UInt8.ofNat v = c := by
    apply UInt8.toNat_inj.mp
    rw [UInt8.toNat_ofNat']
    omega
  simp only [decodeGroup, value_digit, Option.bind_eq_bind, Option.bind_some, hv, hsecond, hthird,
    hfirst, UInt8.ofNat_toNat]

lemma decodeLast_two (a b : UInt8) :
    let v := a.toNat * 65536 + b.toNat * 256
    decodeLast (digit (v / 262144)) (digit (v / 4096)) (digit (v / 64)) pad = some [a, b] := by
  intro v
  have ha := a.toNat_lt
  have hb := b.toNat_lt
  have hv : (v / 262144 % 64 * 64 + v / 4096 % 64) * 64 + v / 64 % 64 = v / 64 := by omega
  have hfirst : v / 64 / 1024 = a.toNat := by omega
  have hsecond : UInt8.ofNat (v / 64 / 4) = b := by
    apply UInt8.toNat_inj.mp
    rw [UInt8.toNat_ofNat']
    omega
  have hlow : v / 64 % 4 = 0 := by omega
  rw [decodeLast, if_neg (not_not.mpr rfl), if_pos (digit_ne_pad _)]
  simp only [value_digit, Option.bind_eq_bind, Option.bind_some, hv, hlow, if_true, hfirst,
    hsecond, UInt8.ofNat_toNat]

lemma decodeLast_one (a : UInt8) :
    let v := a.toNat * 65536
    decodeLast (digit (v / 262144)) (digit (v / 4096)) pad pad = some [a] := by
  intro v
  have ha := a.toNat_lt
  have hv : v / 262144 % 64 * 64 + v / 4096 % 64 = v / 4096 := by omega
  have hfirst : v / 4096 / 16 = a.toNat := by omega
  have hlow : v / 4096 % 16 = 0 := by omega
  rw [decodeLast, if_neg (not_not.mpr rfl), if_neg (not_not.mpr rfl)]
  simp only [value_digit, Option.bind_eq_bind, Option.bind_some, hv, hlow, if_true, hfirst,
    UInt8.ofNat_toNat]

lemma encode_eq_nil {s : List UInt8} (h : encode s = []) : s = [] := by
  match s with
  | [] => rfl
  | [_] => cases h
  | [_, _] => cases h
  | _ :: _ :: _ :: _ => cases h

/-- Decoding takes back the encoding of every byte string. -/
theorem decode_encode (s : List UInt8) : decode (encode s) = some s := by
  induction s using encode.induct with
  | case1 a b c s ih =>
    rw [encode]
    cases hrest : encode s with
    | nil =>
      rw [encode_eq_nil hrest, decode, decodeLast, if_pos (digit_ne_pad _)]
      exact decodeGroup_digits a b c
    | cons e t =>
      rw [hrest] at ih
      rw [decode, decodeGroup_digits, ih]
      rfl
  | case2 a b => exact decodeLast_two a b
  | case3 a => exact decodeLast_one a
  | case4 => rfl

/-- The length of the text for a string of each length. -/
theorem length_encode (s : List UInt8) : (encode s).length = 4 * ((s.length + 2) / 3) := by
  induction s using encode.induct with
  | case1 a b c s ih =>
    rw [encode]
    simp only [List.length_cons, ih]
    omega
  | case2 a b => simp [encode]
  | case3 a => simp [encode]
  | case4 => simp [encode]

end Base64
