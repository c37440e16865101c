import Mathlib.Data.List.Infix
import Mathlib.Data.Set.Basic

/-!
# Concatenated streams

A code whose words mark their own end, so that a concatenation of words can be taken apart in
one way only.
-/

/-- A code: its words, and what the beginning of a word stands for. -/
structure StreamCode (α β : Type*) where
  Word : List α → Prop
  plain : List α → List β
  ne_nil : ∀ {e}, Word e → e ≠ []
  prefix_free : ∀ {e e'}, Word e → Word e' → e <+: e' → e = e'

namespace StreamCode

variable {α β : Type*}

/-- One word after the other, and what they stand for together. -/
inductive Words (C : StreamCode α β) : List α → List β → Prop
  | nil : Words C [] []
  | cons {e s out} (he : C.Word e) (hs : Words C s out) : Words C (e ++ s) (C.plain e ++ out)

variable {C : StreamCode α β} {e e' s t : List α} {out out' : List β}

/-- Two words in front of one text are the same. -/
lemma eq_of_append_eq (he : C.Word e) (he' : C.Word e') (h : e ++ s = e' ++ t) :
    e = e' ∧ s = t := by
  have heq : e = e' := by
    rcases List.prefix_or_prefix_of_prefix (List.prefix_append e s)
      (h ▸ List.prefix_append e' t) with hp | hp
    · exact C.prefix_free he he' hp
    · exact (C.prefix_free he' he hp).symm
  subst heq
  exact ⟨rfl, List.append_cancel_left h⟩

lemma Words.snoc (h : C.Words s out) (he : C.Word e) : C.Words (s ++ e) (out ++ C.plain e) := by
  induction h with
  | nil =>
    have hone := Words.cons he Words.nil
    rwa [List.append_nil, List.append_nil] at hone
  | cons he' hs ih =>
    rw [List.append_assoc, List.append_assoc]
    exact Words.cons he' ih

/-- What is left of words behind words is words. -/
lemma Words.split (h : C.Words s out) (hall : C.Words (s ++ t) out') :
    ∃ rest, C.Words t rest ∧ out' = out ++ rest := by
  induction h generalizing out' with
  | nil => exact ⟨out', hall, rfl⟩
  | @cons e s out he hs ih =>
    generalize hx : e ++ s ++ t = x at hall
    cases hall with
    | nil =>
      have hempty := (List.append_eq_nil_iff.mp (List.append_eq_nil_iff.mp hx).1).1
      exact absurd hempty (C.ne_nil he)
    | cons he' hs' =>
      rw [List.append_assoc] at hx
      obtain ⟨rfl, rfl⟩ := eq_of_append_eq he he' hx
      obtain ⟨rest, hrest, rfl⟩ := ih hs'
      exact ⟨rest, hrest, (List.append_assoc ..).symm⟩

/-- Words begin with a word. -/
lemma Words.head (h : C.Words s out) (hs : s ≠ []) : ∃ e, C.Word e ∧ e <+: s := by
  cases h with
  | nil => exact absurd rfl hs
  | cons he _ => exact ⟨_, he, List.prefix_append _ _⟩

lemma Words.of_nil (h : C.Words [] out) : out = [] := by
  generalize hs : ([] : List α) = s at h
  cases h with
  | nil => rfl
  | cons he _ => exact absurd (List.append_eq_nil_iff.mp hs.symm).1 (C.ne_nil he)

/-- A text is taken apart in one way. -/
theorem Words.unique (h : C.Words s out) (h' : C.Words s out') : out = out' := by
  obtain ⟨rest, hrest, rfl⟩ := h.split (t := []) (by rwa [List.append_nil])
  rw [hrest.of_nil, List.append_nil]

end StreamCode
