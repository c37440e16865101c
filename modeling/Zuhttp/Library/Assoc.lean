import Mathlib.Data.List.Nodup
import Mathlib.Logic.Function.Basic

/-!
# Lists of entries with a key

An entry is looked up by its key, and put in the place of the one with its key or at the end.
A list without a key twice is a finite map.
-/

namespace Assoc

variable {ι κ : Type*} [DecidableEq κ] (key : ι → κ)

/-- The first entry with this key. -/
def lookup (l : List ι) (k : κ) : Option ι := l.find? (fun x => key x = k)

def put (l : List ι) (e : ι) : List ι :=
  match l.findIdx? (fun x => key x = key e) with
  | some i => l.set i e
  | none => l ++ [e]

variable {key}

lemma put_nil (e : ι) : put key [] e = [e] := rfl

lemma put_cons_same {x e : ι} {l : List ι} (h : key x = key e) : put key (x :: l) e = e :: l := by
  unfold put
  rw [List.findIdx?_cons, decide_eq_true h]
  rfl

lemma put_cons_other {x e : ι} {l : List ι} (h : key x ≠ key e) :
    put key (x :: l) e = x :: put key l e := by
  unfold put
  rw [List.findIdx?_cons, decide_eq_false h]
  cases l.findIdx? (fun x => key x = key e) <;> rfl

lemma lookup_cons (x : ι) (l : List ι) (k : κ) :
    lookup key (x :: l) k = if key x = k then some x else lookup key l k := by
  unfold lookup
  rw [List.find?_cons]
  by_cases h : key x = k <;> simp [h]

lemma lookup_eq_none {l : List ι} {k : κ} : lookup key l k = none ↔ k ∉ l.map key := by
  unfold lookup
  rw [List.find?_eq_none]
  simp

/-- The map of the list changes at the key of what is put. -/
theorem lookup_put (l : List ι) (e : ι) :
    lookup key (put key l e) = Function.update (lookup key l) (key e) (some e) := by
  funext k
  induction l with
  | nil =>
    rw [put_nil, lookup_cons]
    by_cases h : key e = k
    · subst h
      rw [if_pos rfl, Function.update_self]
    · rw [if_neg h, Function.update_of_ne (Ne.symm h)]
  | cons x l ih =>
    by_cases hx : key x = key e
    · rw [put_cons_same hx, lookup_cons]
      by_cases h : key e = k
      · subst h
        rw [if_pos rfl, Function.update_self]
      · rw [if_neg h, Function.update_of_ne (Ne.symm h), lookup_cons, if_neg (hx ▸ h)]
    · rw [put_cons_other hx, lookup_cons, ih]
      by_cases h : key x = k
      · subst h
        rw [if_pos rfl, Function.update_of_ne hx, lookup_cons, if_pos rfl]
      · rw [if_neg h]
        by_cases hk : k = key e
        · subst hk
          rw [Function.update_self, Function.update_self]
        · rw [Function.update_of_ne hk, Function.update_of_ne hk, lookup_cons, if_neg h]

/-- The other entries stay, in their order. -/
theorem filter_put (l : List ι) (e : ι) :
    (put key l e).filter (fun x => key x ≠ key e) = l.filter (fun x => key x ≠ key e) := by
  induction l with
  | nil =>
    rw [put_nil]
    simp
  | cons x l ih =>
    by_cases hx : key x = key e
    · rw [put_cons_same hx]
      simp [hx]
    · rw [put_cons_other hx, List.filter_cons, List.filter_cons, ih]

lemma mem_keys_put {l : List ι} {e : ι} {k : κ} (h : k ∈ (put key l e).map key) :
    k = key e ∨ k ∈ l.map key := by
  by_cases hk : k = key e
  · exact Or.inl hk
  · refine Or.inr (of_not_not fun hnot => ?_)
    have hnone := lookup_eq_none.mpr hnot
    have hput : lookup key (put key l e) k = _ := congrFun (lookup_put l e) k
    rw [Function.update_of_ne hk, hnone] at hput
    exact lookup_eq_none.mp hput h

theorem nodup_put {l : List ι} (h : (l.map key).Nodup) (e : ι) :
    ((put key l e).map key).Nodup := by
  induction l with
  | nil =>
    rw [put_nil]
    exact List.nodup_singleton _
  | cons x l ih =>
    obtain ⟨hnot, hnodup⟩ := List.nodup_cons.mp h
    by_cases hx : key x = key e
    · rw [put_cons_same hx, List.map_cons, ← hx]
      exact h
    · rw [put_cons_other hx, List.map_cons, List.nodup_cons]
      exact ⟨fun hmem => (mem_keys_put hmem).elim hx hnot, ih hnodup⟩

lemma mem_put {l : List ι} {e x : ι} (h : x ∈ put key l e) : x = e ∨ x ∈ l := by
  unfold put at h
  cases hi : l.findIdx? (fun x => key x = key e) with
  | none =>
    rw [hi] at h
    exact (List.mem_append.mp h).symm.imp_left List.mem_singleton.mp
  | some i =>
    rw [hi] at h
    exact (List.mem_or_eq_of_mem_set h).symm

/-! Entries put one after another. -/

lemma lookup_foldl_put_of_notMem {es : List ι} {k : κ} (h : k ∉ es.map key) (l : List ι) :
    lookup key (es.foldl (put key) l) k = lookup key l k := by
  induction es generalizing l with
  | nil => rfl
  | cons e es ih =>
    rw [List.map_cons, List.mem_cons, not_or] at h
    rw [List.foldl_cons, ih h.2, lookup_put, Function.update_of_ne h.1]

/-- An entry is found if all of its key are this one. -/
theorem lookup_foldl_put {es : List ι} {e : ι} (he : e ∈ es)
    (h : ∀ x ∈ es, key x = key e → x = e) (l : List ι) :
    lookup key (es.foldl (put key) l) (key e) = some e := by
  induction es generalizing l with
  | nil => cases he
  | cons x es ih =>
    rw [List.forall_mem_cons] at h
    by_cases hmem : e ∈ es
    · exact ih hmem h.2 _
    · have hxe : e = x := (List.mem_cons.mp he).resolve_right hmem
      have hkey : key e ∉ es.map key := by
        rintro hk
        obtain ⟨y, hy, hye⟩ := List.mem_map.mp hk
        exact hmem (h.2 y hy hye ▸ hy)
      rw [List.foldl_cons, lookup_foldl_put_of_notMem hkey, lookup_put, hxe, Function.update_self]

lemma put_of_notMem {l : List ι} {e : ι} (h : key e ∉ l.map key) : put key l e = l ++ [e] := by
  induction l with
  | nil => rfl
  | cons x l ih =>
    rw [List.map_cons, List.mem_cons, not_or] at h
    rw [put_cons_other (Ne.symm h.1), ih h.2, List.cons_append]

/-- What is put in the place of an entry changes no key. -/
lemma keys_put_of_mem {l : List ι} {e : ι} (h : key e ∈ l.map key) :
    (put key l e).map key = l.map key := by
  induction l with
  | nil => cases h
  | cons x l ih =>
    by_cases hx : key x = key e
    · rw [put_cons_same hx, List.map_cons, List.map_cons, hx]
    · rw [put_cons_other hx, List.map_cons, List.map_cons,
        ih ((List.mem_cons.mp h).resolve_left (Ne.symm hx))]

/-! A change of the entries that keeps their keys. -/

section Map

variable {f : ι → ι} (hf : ∀ x, key (f x) = key x)

include hf

lemma lookup_map (l : List ι) (k : κ) : lookup key (l.map f) k = (lookup key l k).map f := by
  induction l with
  | nil => rfl
  | cons x l ih =>
    rw [List.map_cons, lookup_cons, lookup_cons, hf, ih]
    by_cases h : key x = k
    · rw [if_pos h, if_pos h]
      rfl
    · rw [if_neg h, if_neg h]

lemma put_map (l : List ι) (e : ι) : put key (l.map f) (f e) = (put key l e).map f := by
  induction l with
  | nil => rfl
  | cons x l ih =>
    by_cases h : key x = key e
    · rw [List.map_cons, put_cons_same (by rw [hf, hf, h]), put_cons_same h, List.map_cons]
    · rw [List.map_cons, put_cons_other (by rw [hf, hf]; exact h), put_cons_other h,
        List.map_cons, ih]

end Map

/-! The entries of one key, which a list may hold several times. -/

section Named

/-- The entries with this key, in their order. -/
def named (key : ι → κ) (l : List ι) (k : κ) : List ι := l.filter (fun x => key x = k)

lemma named_cons_same {x : ι} {k : κ} (h : key x = k) (l : List ι) :
    named key (x :: l) k = x :: named key l k := by
  rw [named, List.filter_cons_of_pos (by simpa using h), named]

lemma named_cons_other {x : ι} {k : κ} (h : key x ≠ k) (l : List ι) :
    named key (x :: l) k = named key l k := by
  rw [named, List.filter_cons_of_neg (by simpa using h), named]

lemma lookup_eq_head? (l : List ι) (k : κ) : lookup key l k = (named key l k).head? := by
  induction l with
  | nil => rfl
  | cons x l ih =>
    rw [lookup_cons]
    by_cases h : key x = k
    · rw [if_pos h, named_cons_same h, List.head?_cons]
    · rw [if_neg h, named_cons_other h, ih]

lemma named_put_same (l : List ι) (e : ι) :
    named key (put key l e) (key e) = e :: (named key l (key e)).tail := by
  induction l with
  | nil => rw [put_nil, named_cons_same rfl]; rfl
  | cons x l ih =>
    by_cases hx : key x = key e
    · rw [put_cons_same hx, named_cons_same rfl, named_cons_same hx, List.tail_cons]
    · rw [put_cons_other hx, named_cons_other hx, named_cons_other hx, ih]

lemma named_put_other {e : ι} {k : κ} (h : key e ≠ k) (l : List ι) :
    named key (put key l e) k = named key l k := by
  induction l with
  | nil => rw [put_nil, named_cons_other h]
  | cons x l ih =>
    by_cases hx : key x = key e
    · rw [put_cons_same hx, named_cons_other h, named_cons_other (hx ▸ h)]
    · rw [put_cons_other hx]
      by_cases hk : key x = k
      · rw [named_cons_same hk, named_cons_same hk, ih]
      · rw [named_cons_other hk, named_cons_other hk, ih]

lemma named_eraseP_same (l : List ι) (k : κ) :
    named key (l.eraseP (fun x => key x = k)) k = (named key l k).tail := by
  induction l with
  | nil => rfl
  | cons x l ih =>
    by_cases hx : key x = k
    · rw [List.eraseP_cons_of_pos (by simpa using hx), named_cons_same hx, List.tail_cons]
    · rw [List.eraseP_cons_of_neg (by simpa using hx), named_cons_other hx, named_cons_other hx,
        ih]

lemma named_eraseP_other {j k : κ} (h : j ≠ k) (l : List ι) :
    named key (l.eraseP (fun x => key x = j)) k = named key l k := by
  induction l with
  | nil => rfl
  | cons x l ih =>
    by_cases hx : key x = j
    · rw [List.eraseP_cons_of_pos (by simpa using hx), named_cons_other (hx ▸ h)]
    · rw [List.eraseP_cons_of_neg (by simpa using hx)]
      by_cases hk : key x = k
      · rw [named_cons_same hk, named_cons_same hk, ih]
      · rw [named_cons_other hk, named_cons_other hk, ih]

lemma named_eq_nil {l : List ι} {k : κ} : named key l k = [] ↔ k ∉ l.map key := by
  rw [named, List.filter_eq_nil_iff, List.mem_map]
  simp

end Named

end Assoc
