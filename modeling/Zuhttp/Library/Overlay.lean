import Mathlib.Data.List.Pairwise

/-!
# Entries put over a list

An entry that is put over a list takes the place of all those with its key: they go, and it
stands at the end, or nowhere if it only erases. What is left of a run of entries are the last
ones of their keys, in order.
-/

namespace Overlay

variable {ι κ : Type*} [DecidableEq κ] (key : ι → κ) (keep : ι → Bool)

/-- One entry over a list. -/
def overlay (l : List ι) (e : ι) : List ι :=
  l.filter (fun x => key x ≠ key e) ++ if keep e then [e] else []

def overAll (l es : List ι) : List ι := es.foldl (overlay key keep) l

/-- The entries that no later one of the same key follows. -/
def latest (es : List ι) : List ι := es.pwFilter (fun x y => key x ≠ key y)

/-- The entries whose key is none of these entries'. -/
def untouched (l es : List ι) : List ι := l.filter (fun x => key x ∉ es.map key)

variable {key keep}

lemma overAll_cons (l : List ι) (e : ι) (es : List ι) :
    overAll key keep l (e :: es) = overAll key keep (overlay key keep l e) es := rfl

lemma overAll_append (l es fs : List ι) :
    overAll key keep l (es ++ fs) = overAll key keep (overAll key keep l es) fs :=
  List.foldl_append

lemma forall_latest {es : List ι} {x : ι} :
    (∀ y ∈ latest key es, key x ≠ key y) ↔ key x ∉ es.map key := by
  rw [latest, List.forall_mem_pwFilter]
  · rw [List.mem_map]
    exact ⟨fun h ⟨y, hy, heq⟩ => h y hy heq.symm, fun h y hy heq => h ⟨y, hy, heq.symm⟩⟩
  · intro x y z hxz
    by_contra hboth
    rw [not_or, not_not, not_not] at hboth
    exact hxz (hboth.1.trans hboth.2)

lemma latest_cons_mem {x : ι} {es : List ι} (h : key x ∈ es.map key) :
    latest key (x :: es) = latest key es :=
  List.pwFilter_cons_of_neg (fun hall => forall_latest.mp hall h)

lemma latest_cons_notMem {x : ι} {es : List ι} (h : key x ∉ es.map key) :
    latest key (x :: es) = x :: latest key es :=
  List.pwFilter_cons_of_pos (forall_latest.mpr h)

lemma latest_sublist (es : List ι) : (latest key es).Sublist es := List.pwFilter_sublist es

variable (key) in
lemma pairwise_latest (es : List ι) : (latest key es).Pairwise (fun x y => key x ≠ key y) :=
  List.pairwise_pwFilter es

lemma latest_of_pairwise {es : List ι} (h : es.Pairwise (fun x y => key x ≠ key y)) :
    latest key es = es := h.pwFilter

lemma mem_keys_latest {es : List ι} {k : κ} : k ∈ (latest key es).map key ↔ k ∈ es.map key := by
  induction es with
  | nil => rfl
  | cons x es ih =>
    by_cases h : key x ∈ es.map key
    · rw [latest_cons_mem h, ih, List.map_cons, List.mem_cons]
      exact ⟨.inr, fun hk => hk.elim (fun he => he ▸ h) id⟩
    · rw [latest_cons_notMem h, List.map_cons, List.map_cons, List.mem_cons, List.mem_cons, ih]

lemma untouched_latest (l es : List ι) : untouched key l (latest key es) = untouched key l es :=
  List.filter_congr fun x _ => by rw [decide_eq_decide, not_iff_not]; exact mem_keys_latest

lemma untouched_overlay (l : List ι) (e : ι) (es : List ι) :
    untouched key (overlay key keep l e) es =
      untouched key l (e :: es) ++ if keep e = true ∧ key e ∉ es.map key then [e] else [] := by
  unfold untouched overlay
  rw [List.filter_append, List.filter_filter]
  congr 1
  · refine List.filter_congr fun x _ => ?_
    rw [List.map_cons, ← Bool.decide_and, decide_eq_decide, List.mem_cons, not_or]
    exact and_comm
  · by_cases hkeep : keep e = true
    · by_cases hmem : key e ∈ es.map key
      · rw [if_pos hkeep, if_neg (fun h => h.2 hmem), List.filter_cons_of_neg (by simpa using hmem)]
        rfl
      · rw [if_pos hkeep, if_pos ⟨hkeep, hmem⟩, List.filter_cons_of_pos (by simpa using hmem)]
        rfl
    · rw [if_neg hkeep, if_neg (fun h => hkeep h.1)]
      rfl

/-- Entries over a list leave those of other keys in place and put the last ones behind. -/
theorem overAll_eq (l es : List ι) :
    overAll key keep l es = untouched key l es ++ (latest key es).filter keep := by
  induction es generalizing l with
  | nil =>
    have hall : untouched key l [] = l := List.filter_eq_self.mpr fun x _ => by simp
    rw [hall]
    exact (List.append_nil l).symm
  | cons e es ih =>
    rw [overAll_cons, ih, untouched_overlay, List.append_assoc]
    congr 1
    by_cases hmem : key e ∈ es.map key
    · rw [latest_cons_mem hmem, if_neg (fun h => h.2 hmem), List.nil_append]
    · rw [latest_cons_notMem hmem]
      by_cases hkeep : keep e = true
      · rw [if_pos ⟨hkeep, hmem⟩, List.filter_cons_of_pos hkeep, List.singleton_append]
      · rw [if_neg (fun h => hkeep h.1), List.filter_cons_of_neg hkeep, List.nil_append]

/-- What is left of the entries that are kept does not depend on the others being there. -/
lemma filter_overAll (l es : List ι) :
    (overAll key keep l es).filter keep = overAll key keep (l.filter keep) es := by
  rw [overAll_eq, overAll_eq, List.filter_append, List.filter_filter]
  congr 1
  · unfold untouched
    rw [List.filter_filter, List.filter_filter]
    exact List.filter_congr fun x _ => Bool.and_comm _ _
  · exact List.filter_congr fun x _ => Bool.and_self _

variable (key keep) in
/-- A key of the entries occurs once at most. -/
theorem overAll_once (l es : List ι) {k : κ} (hk : k ∈ es.map key) :
    ((overAll key keep l es).filter (fun x => key x = k)).length ≤ 1 := by
  rw [overAll_eq, List.filter_append]
  have hnone : (untouched key l es).filter (fun x => key x = k) = [] := by
    rw [List.filter_eq_nil_iff]
    intro x hx heq
    have hnot := of_decide_eq_true (List.mem_filter.mp hx).2
    exact hnot (of_decide_eq_true heq ▸ hk)
  rw [hnone, List.nil_append]
  have hpair := ((pairwise_latest key es).filter keep).filter (fun x => key x = k)
  cases hl : ((latest key es).filter keep).filter (fun x => key x = k) with
  | nil => exact Nat.zero_le 1
  | cons x rest =>
    cases rest with
    | nil => exact Nat.le_refl 1
    | cons y rest =>
      rw [hl, List.pairwise_cons] at hpair
      have hmem : ∀ z ∈ x :: y :: rest, key z = k := by
        intro z hz
        rw [← hl] at hz
        exact of_decide_eq_true (List.mem_filter.mp hz).2
      exact absurd ((hmem x (List.mem_cons_self ..)).trans
        (hmem y (List.mem_cons_of_mem x (List.mem_cons_self ..))).symm)
        (hpair.1 y (List.mem_cons_self ..))

variable (key keep) in
/-- Entries of other keys stay, in their order. -/
theorem untouched_overAll (l es : List ι) :
    untouched key (overAll key keep l es) es = untouched key l es := by
  have hnone : untouched key ((latest key es).filter keep) es = [] := by
    rw [untouched, List.filter_eq_nil_iff]
    intro x hx hnot
    have hmem := (latest_sublist es).subset (List.mem_filter.mp hx).1
    exact of_decide_eq_true hnot (List.mem_map_of_mem hmem)
  rw [overAll_eq]
  unfold untouched at hnone ⊢
  rw [List.filter_append, hnone, List.append_nil, List.filter_filter]
  exact List.filter_congr fun x _ => Bool.and_self _

lemma overAll_latest (l es : List ι) :
    overAll key keep l (latest key es) = overAll key keep l es := by
  rw [overAll_eq, overAll_eq, untouched_latest, latest_of_pairwise (pairwise_latest key es)]

lemma mem_latest {es : List ι} {x : ι} :
    x ∈ latest key es ↔ ∃ before after, es = before ++ x :: after ∧ key x ∉ after.map key := by
  induction es with
  | nil => simp [latest]
  | cons y es ih =>
    constructor
    · intro hx
      by_cases hy : key y ∈ es.map key
      · rw [latest_cons_mem hy] at hx
        obtain ⟨before, after, rfl, hnot⟩ := ih.mp hx
        exact ⟨y :: before, after, rfl, hnot⟩
      · rw [latest_cons_notMem hy, List.mem_cons] at hx
        rcases hx with rfl | hx
        · exact ⟨[], es, rfl, hy⟩
        · obtain ⟨before, after, rfl, hnot⟩ := ih.mp hx
          exact ⟨y :: before, after, rfl, hnot⟩
    · rintro ⟨before, after, heq, hnot⟩
      cases before with
      | nil =>
        obtain ⟨rfl, rfl⟩ := List.cons.inj heq
        rw [latest_cons_notMem hnot]
        exact List.mem_cons_self ..
      | cons z before =>
        rw [List.cons_append, List.cons.injEq] at heq
        obtain ⟨rfl, rfl⟩ := heq
        have hx := ih.mpr ⟨before, after, rfl, hnot⟩
        by_cases hy : key y ∈ (before ++ x :: after).map key
        · rwa [latest_cons_mem hy]
        · rw [latest_cons_notMem hy]
          exact List.mem_cons_of_mem y hx

variable (key) in
/-- The last ones of the keys are found before or after a change that keeps the keys. -/
lemma latest_map {ν : Type*} (f : ν → ι) (es : List ν) :
    latest key (es.map f) = (latest (fun x => key (f x)) es).map f :=
  List.pwFilter_map f es

end Overlay
