import Mathlib.Algebra.Ring.Nat
import Mathlib.Data.List.DropRight
import Mathlib.Data.List.Infix

/-!
# Byte strings

C strings are byte lists without their terminating NUL. `lower` and `asciiNcasecmp` are the
functions of `zuh_headers.c`, `trimOws` is that of `zuh_framing.c`; they are shared by the
header list, the framing decision, the content codings and the pool key.
-/

namespace Zuhttp

abbrev Bytes := List UInt8

instance : LawfulBEq Bytes := inferInstanceAs (LawfulBEq (List UInt8))

/-- The bytes of an ASCII string literal of the source. -/
def ascii (s : String) : Bytes := s.toList.map (fun c => UInt8.ofNat c.toNat)

def lower (c : UInt8) : UInt8 := if 65 ≤ c ∧ c ≤ 90 then c + 32 else c

def cmpLower : Bytes → Bytes → Int
  | a :: as, b :: bs =>
    if lower a ≠ lower b then (if lower a < lower b then -1 else 1) else cmpLower as bs
  | _, _ => 0

/-- `zuh_ascii_ncasecmp`; `zuh_ascii_casecmp` is the same comparison of two C strings. -/
def asciiNcasecmp (a b : Bytes) : Int :=
  if a.length ≠ b.length then (if a.length < b.length then -1 else 1) else cmpLower a b

def isOws (c : UInt8) : Bool := c = 32 ∨ c = 9

def trimOws (s : Bytes) : Bytes := (s.dropWhile isOws).rdropWhile isOws

/-- Equality of ASCII strings up to letter case. -/
def CaseEq (a b : Bytes) : Prop := a.map lower = b.map lower

instance (a b : Bytes) : Decidable (CaseEq a b) := inferInstanceAs (Decidable (_ = _))

lemma CaseEq.refl (a : Bytes) : CaseEq a a := rfl

lemma CaseEq.symm {a b : Bytes} (h : CaseEq a b) : CaseEq b a := Eq.symm h

lemma CaseEq.trans {a b c : Bytes} (h : CaseEq a b) (h' : CaseEq b c) : CaseEq a c :=
  Eq.trans h h'

lemma cmpLower_eq_zero (a b : Bytes) (h : a.length = b.length) :
    cmpLower a b = 0 ↔ CaseEq a b := by
  induction a generalizing b with
  | nil =>
    cases b with
    | nil => simp [cmpLower, CaseEq]
    | cons d b => simp at h
  | cons c a ih =>
    cases b with
    | nil => simp at h
    | cons d b =>
      have hab : a.length = b.length := by simpa using h
      by_cases hcd : lower c = lower d
      · simp only [cmpLower, hcd, ne_eq, not_true_eq_false, ite_false, ih b hab]
        simp [CaseEq, hcd]
      · have hne : ¬CaseEq (c :: a) (d :: b) := by
          intro he
          exact hcd (by simpa [CaseEq] using congrArg List.head? he)
        simp only [cmpLower, ne_eq, hcd, not_false_eq_true, ite_true, hne, iff_false]
        split <;> simp

/-- The comparison answers 0 exactly on strings equal up to letter case. -/
theorem asciiNcasecmp_eq_zero (a b : Bytes) : asciiNcasecmp a b = 0 ↔ CaseEq a b := by
  unfold asciiNcasecmp
  by_cases h : a.length = b.length
  · simp only [h, ne_eq, not_true_eq_false, ite_false]
    exact cmpLower_eq_zero a b h
  · have hne : ¬CaseEq a b := fun he => h (by simpa using congrArg List.length he)
    simp only [ne_eq, h, not_false_eq_true, ite_true, hne, iff_false]
    split <;> simp

end Zuhttp
