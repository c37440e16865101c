import Mathlib.Data.Nat.Notation

/-!
# Classes of ASCII bytes

The letters and digits of ASCII and the values of hexadecimal digits.
-/

namespace Ascii

def isDigit (c : UInt8) : Bool := 48 ≤ c ∧ c ≤ 57

def isAlpha (c : UInt8) : Bool := (65 ≤ c ∧ c ≤ 90) ∨ (97 ≤ c ∧ c ≤ 122)

/-- The value of a hexadecimal digit of either case. -/
def hexValue (c : UInt8) : Option Nat :=
  if isDigit c then some (c.toNat - 48)
  else if 97 ≤ c ∧ c ≤ 102 then some (c.toNat - 97 + 10)
  else if 65 ≤ c ∧ c ≤ 70 then some (c.toNat - 65 + 10)
  else none

end Ascii
