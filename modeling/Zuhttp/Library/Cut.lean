import Mathlib.Data.List.Basic

/-!
# Cutting a list at separators

`cutAll a b` cuts at every occurrence of the pair `a b`, `cutFirst a b` at the first one
and `splitOn a` at every `a`.
-/

namespace Cut

variable {α : Type*} [DecidableEq α]

/-- The list begins longer by one. -/
def onto (x : α) : List (List α) → List (List α)
  | [] => [[x]]
  | l :: ls => (x :: l) :: ls

/-- The pieces between the pairs `a b`. There is one more of them than there are pairs. -/
def cutAll (a b : α) : List α → List (List α)
  | [] => [[]]
  | [x] => [[x]]
  | x :: y :: s => if x = a ∧ y = b then [] :: cutAll a b s else onto x (cutAll a b (y :: s))

/-- What stands before and behind the first pair `a b`. -/
def cutFirst (a b : α) : List α → Option (List α × List α)
  | [] => none
  | [_] => none
  | x :: y :: s =>
    if x = a ∧ y = b then some ([], s)
    else (cutFirst a b (y :: s)).map (fun p => (x :: p.1, p.2))

/-- The pieces between the elements `a`. -/
def splitOn (a : α) : List α → List (List α)
  | [] => [[]]
  | x :: s => if x = a then [] :: splitOn a s else onto x (splitOn a s)

lemma cutAll_append {a b : α} {line : List α} (h : a ∉ line) (s : List α) :
    cutAll a b (line ++ a :: b :: s) = line :: cutAll a b s := by
  induction line with
  | nil => simp [cutAll]
  | cons x line ih =>
    rw [List.mem_cons, not_or] at h
    have hx : x ≠ a := fun he => h.1 he.symm
    have hrest := ih h.2
    cases line with
    | nil =>
      rw [List.nil_append] at hrest
      rw [List.cons_append, List.nil_append, cutAll, if_neg (fun he => hx he.1), hrest]
      rfl
    | cons y line =>
      rw [List.cons_append] at hrest
      rw [List.cons_append, List.cons_append, cutAll, if_neg (fun he => hx he.1), hrest]
      rfl

/-- Lines that are each closed by the pair are the pieces, with an empty rest. -/
theorem cutAll_flatMap {a b : α} {lines : List (List α)} (h : ∀ l ∈ lines, a ∉ l) :
    cutAll a b (lines.flatMap (fun l => l ++ [a, b])) = lines ++ [[]] := by
  induction lines with
  | nil => rfl
  | cons l lines ih =>
    rw [List.forall_mem_cons] at h
    rw [List.flatMap_cons, List.append_assoc, List.cons_append, List.cons_append,
      List.nil_append, cutAll_append h.1, ih h.2, List.cons_append]

theorem cutFirst_append {a b : α} {name : List α} (h : a ∉ name) (s : List α) :
    cutFirst a b (name ++ a :: b :: s) = some (name, s) := by
  induction name with
  | nil => simp [cutFirst]
  | cons x name ih =>
    rw [List.mem_cons, not_or] at h
    have hx : x ≠ a := fun he => h.1 he.symm
    have hrest := ih h.2
    cases name with
    | nil =>
      rw [List.nil_append] at hrest
      rw [List.cons_append, List.nil_append, cutFirst, if_neg (fun he => hx he.1), hrest]
      rfl
    | cons y name =>
      rw [List.cons_append] at hrest
      rw [List.cons_append, List.cons_append, cutFirst, if_neg (fun he => hx he.1), hrest]
      rfl

lemma splitOn_of_notMem {a : α} {s : List α} (h : a ∉ s) : splitOn a s = [s] := by
  induction s with
  | nil => rfl
  | cons x s ih =>
    rw [List.mem_cons, not_or] at h
    rw [splitOn, if_neg (fun he => h.1 he.symm), ih h.2]
    rfl

lemma splitOn_append {a : α} {piece : List α} (h : a ∉ piece) (s : List α) :
    splitOn a (piece ++ a :: s) = piece :: splitOn a s := by
  induction piece with
  | nil => simp [splitOn]
  | cons x piece ih =>
    rw [List.mem_cons, not_or] at h
    rw [List.cons_append, splitOn, if_neg (fun he => h.1 he.symm), ih h.2]
    rfl

lemma splitOn_ne_nil (a : α) (s : List α) : splitOn a s ≠ [] := by
  cases s with
  | nil => simp [splitOn]
  | cons x s =>
    rw [splitOn]
    split_ifs
    · simp
    · cases splitOn a s <;> simp [onto]

omit [DecidableEq α] in
lemma onto_append (x : α) {ls : List (List α)} (h : ls ≠ []) (ms : List (List α)) :
    onto x (ls ++ ms) = onto x ls ++ ms := by
  cases ls with
  | nil => exact absurd rfl h
  | cons l ls => rfl

/-- The pieces of two texts joined by the separator are those of both. -/
theorem splitOn_join (a : α) (s t : List α) :
    splitOn a (s ++ a :: t) = splitOn a s ++ splitOn a t := by
  induction s with
  | nil => simp [splitOn]
  | cons x s ih =>
    rw [List.cons_append, splitOn, splitOn, ih]
    split_ifs
    · rfl
    · exact onto_append x (splitOn_ne_nil a s) _

/-- The pieces behind the separator a list starts with. -/
def piecesBehind (a : α) : List α → List (List α)
  | [] => []
  | _ :: s => splitOn a s

lemma splitOn_eq (a : α) (s : List α) :
    splitOn a s = s.takeWhile (· ≠ a) :: piecesBehind a (s.dropWhile (· ≠ a)) := by
  induction s with
  | nil => rfl
  | cons x s ih =>
    rw [splitOn]
    by_cases hx : x = a
    · simp [hx, piecesBehind]
    · rw [if_neg hx, ih]
      simp [hx, onto]

lemma eq_nil_of_splitOn {a : α} {s : List α} (h : splitOn a s = [[]]) : s = [] := by
  cases s with
  | nil => rfl
  | cons x s =>
    rw [splitOn] at h
    split_ifs at h
    · exact absurd (List.cons.inj h).2 (splitOn_ne_nil a s)
    · cases hs : splitOn a s <;> rw [hs] at h <;> cases h

omit [DecidableEq α] in
lemma mem_onto {x y : α} {ls : List (List α)} {l : List α} (hl : l ∈ onto x ls) (hy : y ∈ l) :
    y = x ∨ ∃ l' ∈ ls, y ∈ l' := by
  cases ls with
  | nil =>
    rw [onto, List.mem_singleton] at hl
    exact Or.inl (List.mem_singleton.mp (hl ▸ hy))
  | cons m ls =>
    rcases List.mem_cons.mp hl with rfl | hl
    · exact (List.mem_cons.mp hy).imp_right fun hm => ⟨m, List.mem_cons_self, hm⟩
    · exact Or.inr ⟨l, List.mem_cons_of_mem _ hl, hy⟩

omit [DecidableEq α] in
lemma mem_of_mem_onto {x y : α} (ls : List (List α)) (h : y = x ∨ ∃ l ∈ ls, y ∈ l) :
    ∃ l ∈ onto x ls, y ∈ l := by
  cases ls with
  | nil =>
    obtain rfl : y = x := h.resolve_right (by simp)
    exact ⟨[y], List.mem_singleton_self _, List.mem_singleton_self _⟩
  | cons l ls =>
    rcases h with rfl | ⟨m, hm, hy⟩
    · exact ⟨y :: l, List.mem_cons_self, List.mem_cons_self⟩
    · rcases List.mem_cons.mp hm with rfl | hm
      · exact ⟨x :: m, List.mem_cons_self, List.mem_cons_of_mem _ hy⟩
      · exact ⟨m, List.mem_cons_of_mem _ hm, hy⟩

/-- An element is the separator or in a piece. -/
lemma mem_splitOn {s : List α} {c : α} (hc : c ∈ s) (a : α) :
    c = a ∨ ∃ p ∈ splitOn a s, c ∈ p := by
  induction s with
  | nil => cases hc
  | cons x s ih =>
    rw [splitOn]
    split_ifs with hx
    · rcases List.mem_cons.mp hc with rfl | hs
      · exact .inl hx
      · exact (ih hs).imp_right fun ⟨p, hp, hcp⟩ => ⟨p, List.mem_cons_of_mem _ hp, hcp⟩
    · rcases List.mem_cons.mp hc with rfl | hs
      · exact .inr (mem_of_mem_onto _ (.inl rfl))
      · exact (ih hs).imp_right fun h => mem_of_mem_onto _ (.inr h)

lemma eq_of_cutFirst {a b : α} {s l r : List α} (h : cutFirst a b s = some (l, r)) :
    s = l ++ a :: b :: r := by
  induction s using cutFirst.induct a b generalizing l r with
  | case1 => cases h
  | case2 x => cases h
  | case3 x y s hxy =>
    rw [cutFirst, if_pos hxy] at h
    cases h
    rw [hxy.1, hxy.2, List.nil_append]
  | case4 x y s hxy ih =>
    rw [cutFirst, if_neg hxy] at h
    obtain ⟨⟨l', r'⟩, hcut, heq⟩ := Option.map_eq_some_iff.mp h
    cases heq
    rw [ih hcut, List.cons_append]

/-- No piece holds the separator. -/
lemma notMem_of_mem_splitOn {a : α} {s p : List α} (hp : p ∈ splitOn a s) : a ∉ p := by
  induction s generalizing p with
  | nil =>
    rw [splitOn, List.mem_singleton] at hp
    exact hp ▸ List.not_mem_nil
  | cons x s ih =>
    intro ha
    rw [splitOn] at hp
    split_ifs at hp with hx
    · rcases List.mem_cons.mp hp with rfl | hp
      · cases ha
      · exact ih hp ha
    · rcases mem_onto hp ha with he | ⟨l, hl, hal⟩
      · exact hx he.symm
      · exact ih hl hal

omit [DecidableEq α] in
lemma flatMap_onto (x a : α) {ls : List (List α)} (h : ls ≠ []) :
    (onto x ls).flatMap (fun l => l ++ [a]) = x :: ls.flatMap (fun l => l ++ [a]) := by
  cases ls with
  | nil => exact absurd rfl h
  | cons l ls => rfl

/-- The pieces, each closed by the separator, are the list closed by it. -/
theorem flatMap_splitOn (a : α) (s : List α) :
    (splitOn a s).flatMap (fun l => l ++ [a]) = s ++ [a] := by
  induction s with
  | nil => rfl
  | cons x s ih =>
    rw [splitOn]
    split_ifs with hx
    · rw [List.flatMap_cons, ih, hx]
      rfl
    · rw [flatMap_onto x a (splitOn_ne_nil a s), ih]
      rfl

/-- Pieces without the separator are what their join splits into. -/
theorem splitOn_intercalate {a : α} {l : List (List α)} (hne : l ≠ []) (h : ∀ p ∈ l, a ∉ p) :
    splitOn a (List.intercalate [a] l) = l := by
  induction l with
  | nil => exact absurd rfl hne
  | cons p l ih =>
    rw [List.forall_mem_cons] at h
    cases l with
    | nil =>
      rw [List.intercalate_singleton]
      exact splitOn_of_notMem h.1
    | cons q l =>
      rw [List.intercalate_cons_cons, List.append_assoc, List.singleton_append,
        splitOn_append h.1, ih (List.cons_ne_nil q l) h.2]

/-- An empty last piece is behind a last separator. -/
lemma getLast?_of_splitOn {a : α} {s : List α} (h : (splitOn a s).getLast? = some []) :
    s = [] ∨ s.getLast? = some a := by
  induction s with
  | nil => exact .inl rfl
  | cons x s ih =>
    right
    obtain ⟨l, ls, hl⟩ := List.exists_cons_of_ne_nil (splitOn_ne_nil a s)
    have hrest : (splitOn a s).getLast? = some [] → (x = a ∨ s ≠ []) →
        (x :: s).getLast? = some a := by
      intro hlast hx
      rcases ih hlast with rfl | hs
      · rw [hx.resolve_right (fun hne => hne rfl)]
        rfl
      · rw [List.getLast?_cons, hs]
        rfl
    rw [splitOn] at h
    split_ifs at h with hx
    · rw [hl, List.getLast?_cons_cons, ← hl] at h
      exact hrest h (.inl hx)
    · rw [hl] at h
      cases ls with
      | nil => cases h
      | cons m ls =>
        have hlast : (splitOn a s).getLast? = some [] := by
          rw [hl, List.getLast?_cons_cons]
          rwa [onto, List.getLast?_cons_cons] at h
        refine hrest hlast (.inr ?_)
        rintro rfl
        cases hl

/-! A change of the elements that keeps the separators apart. -/

section Map

variable {β : Type*} [DecidableEq β] {f : α → β} {a b : α} {a' b' : β}

lemma splitOn_map (ha : ∀ x, f x = a' ↔ x = a) (s : List α) :
    splitOn a' (s.map f) = (splitOn a s).map (List.map f) := by
  induction s with
  | nil => rfl
  | cons x s ih =>
    rw [List.map_cons, splitOn, splitOn, ih]
    by_cases hx : x = a
    · rw [if_pos hx, if_pos ((ha x).mpr hx), List.map_cons, List.map_nil]
    · rw [if_neg hx, if_neg (fun h => hx ((ha x).mp h))]
      cases splitOn a s <;> rfl

lemma cutFirst_map (ha : ∀ x, f x = a' ↔ x = a) (hb : ∀ x, f x = b' ↔ x = b) (s : List α) :
    cutFirst a' b' (s.map f) =
      (cutFirst a b s).map (fun p => (p.1.map f, p.2.map f)) := by
  induction s with
  | nil => rfl
  | cons x s ih =>
    cases s with
    | nil => rfl
    | cons y s =>
      rw [List.map_cons, List.map_cons, cutFirst, cutFirst]
      rw [List.map_cons] at ih
      by_cases hxy : x = a ∧ y = b
      · rw [if_pos hxy, if_pos ⟨(ha x).mpr hxy.1, (hb y).mpr hxy.2⟩]
        rfl
      · rw [if_neg hxy, if_neg (fun h => hxy ⟨(ha x).mp h.1, (hb y).mp h.2⟩), ih]
        cases cutFirst a b (y :: s) <;> rfl

end Map

end Cut
