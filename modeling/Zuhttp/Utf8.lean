import Zuhttp.Bytes

/-!
# UTF-8 validation

`zuh_utf8_valid` of `zuh_headers.c`.
-/

namespace Zuhttp

/-- `need`, `lo` and `hi` for a first byte that is not ASCII. -/
def utf8Lead (c : UInt8) : Option (Nat × UInt8 × UInt8) :=
  if 0xC2 ≤ c ∧ c ≤ 0xDF then some (1, 0x80, 0xBF)
  else if c = 0xE0 then some (2, 0xA0, 0xBF)
  else if c = 0xED then some (2, 0x80, 0x9F)
  else if 0xE1 ≤ c ∧ c ≤ 0xEF then some (2, 0x80, 0xBF)
  else if c = 0xF0 then some (3, 0x90, 0xBF)
  else if c = 0xF4 then some (3, 0x80, 0x8F)
  else if 0xF1 ≤ c ∧ c ≤ 0xF3 then some (3, 0x80, 0xBF)
  else none

/-- Whether the bytes behind a first byte are those it needs. -/
def utf8Follows (need : Nat) (lo hi : UInt8) (s : Bytes) : Bool :=
  if s.length < need then false
  else
    match s with
    | [] => false
    | d :: s =>
      if d < lo ∨ d > hi then false
      else (s.take (need - 1)).all (fun c => !(c < 0x80 ∨ c > 0xBF))

/-- The loop over the bytes that are left; every turn uses up one of them. -/
def utf8ValidN : Nat → Bytes → Bool
  | n + 1, c :: s =>
    if c < 0x80 then utf8ValidN n s
    else
      match utf8Lead c with
      | none => false
      | some (need, lo, hi) =>
        if utf8Follows need lo hi s then utf8ValidN n (s.drop need) else false
  | _, _ => true

/-- `zuh_utf8_valid`. -/
def utf8Valid (s : Bytes) : Bool := utf8ValidN s.length s

end Zuhttp
