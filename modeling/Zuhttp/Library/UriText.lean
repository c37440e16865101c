import Mathlib.Data.List.TakeWhile

/-!
# The components of a URI reference

The split of RFC 3986, appendix B. The fragment starts at the first `#`, and the query at the
first `?` in front of it.
-/

namespace UriText

structure Components where
  scheme : Option (List UInt8)
  authority : Option (List UInt8)
  path : List UInt8
  query : Option (List UInt8)
  fragment : Option (List UInt8)
  deriving DecidableEq

/-- What stands behind the first of these bytes. -/
def behind (c : UInt8) (s : List UInt8) : Option (List UInt8) :=
  match s.dropWhile (· ≠ c) with
  | [] => none
  | _ :: t => some t

/-- What stands in front of the query and the fragment. -/
def front (s : List UInt8) : List UInt8 := s.takeWhile (fun c => c ≠ 63 ∧ c ≠ 35)

/-- The scheme, if a colon ends it in front of the first slash, and the rest. -/
def cutScheme (s : List UInt8) : Option (List UInt8) × List UInt8 :=
  match s.dropWhile (fun c => c ≠ 58 ∧ c ≠ 47) with
  | 58 :: rest =>
    if s.takeWhile (fun c => c ≠ 58 ∧ c ≠ 47) = [] then (none, s)
    else (some (s.takeWhile (fun c => c ≠ 58 ∧ c ≠ 47)), rest)
  | _ => (none, s)

/-- The authority, if two slashes start it, and the path. -/
def cutAuthority : List UInt8 → Option (List UInt8) × List UInt8
  | 47 :: 47 :: s => (some (s.takeWhile (· ≠ 47)), s.dropWhile (· ≠ 47))
  | s => (none, s)

def components (s : List UInt8) : Components where
  scheme := (cutScheme (front s)).1
  authority := (cutAuthority (cutScheme (front s)).2).1
  path := (cutAuthority (cutScheme (front s)).2).2
  query := behind 63 (s.takeWhile (· ≠ 35))
  fragment := behind 35 s

variable {α : Type*} {p : α → Bool}

lemma takeWhile_append_stop {s : List α} (h : ∃ x ∈ s, p x = false) (t : List α) :
    (s ++ t).takeWhile p = s.takeWhile p := by
  induction s with
  | nil => obtain ⟨x, hx, -⟩ := h; cases hx
  | cons x s ih =>
    cases hp : p x with
    | false => rw [List.cons_append, List.takeWhile_cons_of_neg (by simp [hp]),
        List.takeWhile_cons_of_neg (by simp [hp])]
    | true =>
      obtain ⟨y, hy, hpy⟩ := h
      have hmem : y ∈ s := (List.mem_cons.mp hy).resolve_left (fun he => by
        rw [he, hp] at hpy
        cases hpy)
      rw [List.cons_append, List.takeWhile_cons_of_pos hp, List.takeWhile_cons_of_pos hp,
        ih ⟨y, hmem, hpy⟩]

lemma dropWhile_append_stop {s : List α} (h : ∃ x ∈ s, p x = false) (t : List α) :
    (s ++ t).dropWhile p = s.dropWhile p ++ t := by
  have htake := takeWhile_append_stop h t
  have hall := List.takeWhile_append_dropWhile (p := p) (l := s ++ t)
  have hpart := List.takeWhile_append_dropWhile (p := p) (l := s)
  rw [htake] at hall
  refine List.append_cancel_left (hall.trans ?_)
  rw [← List.append_assoc, hpart]

/-- What `p` takes in front of something that it does not. -/
lemma span_append {s t : List α} (hs : ∀ x ∈ s, p x = true) (ht : ∀ x ∈ t.head?, p x = false) :
    (s ++ t).takeWhile p = s ∧ (s ++ t).dropWhile p = t := by
  rw [List.takeWhile_append_of_pos hs, List.dropWhile_append_of_pos hs]
  cases t with
  | nil => exact ⟨List.append_nil s, rfl⟩
  | cons x t =>
    have hx : ¬p x = true := by simp [ht x rfl]
    rw [List.takeWhile_cons_of_neg hx, List.dropWhile_cons_of_neg hx, List.append_nil]
    exact ⟨rfl, rfl⟩

/-- Behind a byte that is there, what is appended is appended. -/
lemma behind_append {c : UInt8} {s : List UInt8} (h : c ∈ s) (t : List UInt8) :
    behind c (s ++ t) = (behind c s).map (· ++ t) := by
  unfold behind
  rw [dropWhile_append_stop ⟨c, h, by simp⟩]
  cases hdrop : s.dropWhile (· ≠ c) with
  | nil =>
    rw [List.dropWhile_eq_nil_iff] at hdrop
    exact absurd rfl (of_decide_eq_true (hdrop c h))
  | cons d rest => rfl

/-- Behind a byte that is not there before, all that follows it. -/
lemma behind_cons {c : UInt8} {s : List UInt8} (h : c ∉ s) (t : List UInt8) :
    behind c (s ++ c :: t) = some t := by
  unfold behind
  rw [List.dropWhile_append_of_pos, List.dropWhile_cons_of_neg (by simp)]
  intro x hx
  rw [decide_eq_true_eq]
  rintro rfl
  exact h hx

lemma behind_eq_none {c : UInt8} {s : List UInt8} (h : c ∉ s) : behind c s = none := by
  unfold behind
  rw [List.dropWhile_eq_nil_iff.mpr]
  intro x hx
  rw [decide_eq_true_eq]
  rintro rfl
  exact h hx

end UriText
