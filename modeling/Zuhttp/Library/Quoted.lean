import Mathlib.Data.List.Basic

/-!
# Quoted texts

The characters of a quoted text, each written as it is or behind an escape, and the reading that
takes what stands behind an escape as it is.
-/

namespace Quoted

variable {α : Type*}

inductive Piece (α : Type*)
  | plain (c : α)
  | pair (c : α)

namespace Piece

def value : Piece α → α
  | plain c => c
  | pair c => c

def text (esc : α) : Piece α → List α
  | plain c => [c]
  | pair c => [esc, c]

end Piece

/-- An escape at the very end stays. -/
def unescape [DecidableEq α] (esc : α) : List α → List α
  | [] => []
  | [c] => [c]
  | c :: d :: s => if c = esc then d :: unescape esc s else c :: unescape esc (d :: s)

variable [DecidableEq α] {esc : α}

lemma unescape_pair (c : α) (s : List α) : unescape esc (esc :: c :: s) = c :: unescape esc s := by
  rw [unescape, if_pos rfl]

lemma unescape_plain {c : α} (hc : c ≠ esc) (s : List α) :
    unescape esc (c :: s) = c :: unescape esc s := by
  cases s with
  | nil => rfl
  | cons d s => rw [unescape, if_neg hc]

/-- The characters come back, if none that is written as it is is the escape. -/
theorem unescape_text {pieces : List (Piece α)} (h : ∀ c, Piece.plain c ∈ pieces → c ≠ esc) :
    unescape esc (pieces.flatMap (Piece.text esc)) = pieces.map Piece.value := by
  induction pieces with
  | nil => rfl
  | cons p pieces ih =>
    have hrest := ih fun c hc => h c (List.mem_cons_of_mem _ hc)
    rw [List.flatMap_cons, List.map_cons]
    cases p with
    | plain c =>
      exact (unescape_plain (h c List.mem_cons_self) _).trans (congrArg (c :: ·) hrest)
    | pair c => exact (unescape_pair c _).trans (congrArg (c :: ·) hrest)

lemma mem_of_mem_unescape {x : α} {s : List α} (h : x ∈ unescape esc s) : x ∈ s := by
  induction s using unescape.induct esc with
  | case1 => exact h
  | case2 c => exact h
  | case3 d s ih =>
    rw [unescape_pair] at h
    refine List.mem_cons_of_mem _ ?_
    exact (List.mem_cons.mp h).elim (fun he => he ▸ List.mem_cons_self)
      fun hs => List.mem_cons_of_mem _ (ih hs)
  | case4 c d s hc ih =>
    rw [unescape_plain hc] at h
    exact (List.mem_cons.mp h).elim (fun he => he ▸ List.mem_cons_self)
      fun hs => List.mem_cons_of_mem _ (ih hs)

end Quoted
