import Zuhttp.Library.Cut
import Zuhttp.Query

/-!
# What a query text says

The pairs a query text is read as, against the pairs of the list it was built from.
-/

namespace Zuhttp

namespace QueryList

/-- A `name=value` text, read as RFC 3986 decodes it. -/
def readPair (s : Bytes) : Option (Bytes × Bytes) :=
  if 61 ∈ s then do
    let name ← Percent.decode (s.takeWhile (· ≠ 61))
    let value ← Percent.decode ((s.dropWhile (· ≠ 61)).drop 1)
    some (name, value)
  else none

/-- The pairs of a query text, which may be missing. -/
def readQuery : Option Bytes → Option (List (Bytes × Bytes))
  | none => some []
  | some s => (Cut.splitOn 38 s).mapM readPair

/-- The texts of a value, one for each element that is not NA. -/
def texts : QueryValue → List Bytes
  | .null => []
  | .logical v => (v.filterMap id).map (fun b => if b then ascii "true" else ascii "false")
  | .character v => v.filterMap id
  | .other v => v.filterMap id

/-- The pairs of a list, in its order. -/
def pairs (q : QueryList) : List (Bytes × Bytes) := q.flatMap (fun e => (texts e.2).map (e.1, ·))

/-- The pairs of the texts that are built. -/
def sentPairs (display : Bytes → Nat) (q : QueryList) : List (Bytes × Bytes) :=
  (q.map Prod.fst).flatMap (fun nm => (queryAtom display (byName q nm)).map (nm, ·))

lemma notMem_pctEncode {c : UInt8} (hc : isUnreserved c = false) (hne : c ≠ 37)
    (hdigit : ¬(48 ≤ c ∧ c ≤ 57)) (halpha : ¬(65 ≤ c ∧ c ≤ 70)) (s : Bytes) :
    c ∉ pctEncode s := by
  intro hmem
  rcases Percent.mem_encode hmem with h | h | h | h
  · rw [hc] at h
    cases h
  · exact hne h
  · exact hdigit h
  · exact halpha h

lemma equals_notMem (s : Bytes) : 61 ∉ pctEncode s :=
  notMem_pctEncode (by decide) (by decide) (by decide) (by decide) s

lemma ampersand_notMem (nm v : Bytes) : 38 ∉ pctEncode nm ++ 61 :: pctEncode v := by
  have hnot := notMem_pctEncode (c := 38) (by decide) (by decide) (by decide) (by decide)
  rw [List.mem_append, List.mem_cons, not_or, not_or]
  exact ⟨hnot nm, by decide, hnot v⟩

lemma decode_pctEncode (s : Bytes) : Percent.decode (pctEncode s) = some s :=
  Percent.decode_encode (by decide) s

lemma readPair_part (nm v : Bytes) :
    readPair (pctEncode nm ++ 61 :: pctEncode v) = some (nm, v) := by
  have hkeep : ∀ c ∈ pctEncode nm, decide (c ≠ 61) = true := by
    intro c hc
    rw [decide_eq_true_eq]
    rintro rfl
    exact equals_notMem nm hc
  have hstop : decide ((61 : UInt8) ≠ 61) = false := by decide
  have hname : (pctEncode nm ++ 61 :: pctEncode v).takeWhile (· ≠ 61) = pctEncode nm := by
    rw [List.takeWhile_append_of_pos hkeep, List.takeWhile_cons_of_neg (by simp), List.append_nil]
  have hvalue : (pctEncode nm ++ 61 :: pctEncode v).dropWhile (· ≠ 61) = 61 :: pctEncode v := by
    rw [List.dropWhile_append_of_pos hkeep, List.dropWhile_cons_of_neg (by simp)]
  rw [readPair, if_pos (by simp), hname, hvalue, List.drop_one, List.tail_cons, decode_pctEncode,
    decode_pctEncode]
  rfl

lemma mapM_readPair (q : List (Bytes × Bytes)) :
    (q.map (fun p => pctEncode p.1 ++ 61 :: pctEncode p.2)).mapM readPair = some q := by
  induction q with
  | nil => rfl
  | cons p q ih =>
    rw [List.map_cons, List.mapM_cons, readPair_part, ih]
    rfl

lemma parts_eq (display : Bytes → Nat) (q : QueryList) :
    parts display q =
      (sentPairs display q).map (fun p => pctEncode p.1 ++ 61 :: pctEncode p.2) := by
  rw [parts, sentPairs, List.map_flatMap]
  simp only [List.map_map]
  rfl

/-- The text that is built reads as the pairs it was built from. -/
theorem readQuery_buildQuery (display : Bytes → Nat) (q : QueryList) :
    readQuery (buildQuery display q) = some (sentPairs display q) := by
  unfold buildQuery
  split_ifs with hnone
  · rw [parts_eq, List.map_eq_nil_iff] at hnone
    rw [hnone]
    rfl
  · have hclean : ∀ p ∈ parts display q, 38 ∉ p := by
      intro p hp
      rw [parts_eq] at hp
      obtain ⟨pair, -, rfl⟩ := List.mem_map.mp hp
      exact ampersand_notMem pair.1 pair.2
    rw [readQuery, Cut.splitOn_intercalate hnone hclean, parts_eq, mapM_readPair]

/-! ### Lists read by name -/

lemma byName_put (q : QueryList) (nm : Bytes) (v : QueryValue) (k : Bytes) :
    byName (Assoc.put Prod.fst q (nm, v)) k = if k = nm then v else byName q k := by
  unfold byName
  rw [Assoc.lookup_put]
  by_cases h : k = nm
  · subst h
    rw [Function.update_self, if_pos rfl]
  · rw [Function.update_of_ne h, if_neg h]

/-- The value of the first of these entries. -/
def firstValue : QueryList → QueryValue
  | [] => .null
  | e :: _ => e.2

lemma byName_eq (q : QueryList) (nm : Bytes) :
    byName q nm = firstValue (Assoc.named Prod.fst q nm) := by
  rw [byName, Assoc.lookup_eq_head?]
  cases Assoc.named Prod.fst q nm <;> rfl

/-- A list whose NULL elements have become NA. -/
structure Filled (q q' : QueryList) : Prop where
  names : q'.map Prod.fst = q.map Prod.fst
  value : ∀ k, byName q' k = byName q k ∨ (byName q k = .null ∧ byName q' k = .logical [none])

lemma filled_step {q q' : QueryList} (h : Filled q q') {nm : Bytes} (hnm : nm ∈ q.map Prod.fst) :
    Filled q (if byName q' nm = .null then assign q' nm (.logical [none]) else q') := by
  split_ifs with hnull
  · rw [assign, if_neg (by decide)]
    refine ⟨?_, fun k => ?_⟩
    · rw [Assoc.keys_put_of_mem (by rw [h.names]; exact hnm), h.names]
    · rw [byName_put]
      split_ifs with hk
      · subst hk
        rcases h.value k with hv | ⟨hv, -⟩
        · exact .inr ⟨hv.symm.trans hnull, rfl⟩
        · exact .inr ⟨hv, rfl⟩
      · exact h.value k
  · exact h

lemma filled_foldl {q : QueryList} {ns : List Bytes} (hns : ∀ nm ∈ ns, nm ∈ q.map Prod.fst)
    {q' : QueryList} (h : Filled q q') :
    Filled q (ns.foldl
      (fun q nm => if byName q nm = .null then assign q nm (.logical [none]) else q) q') := by
  induction ns generalizing q' with
  | nil => exact h
  | cons nm ns ih =>
    rw [List.forall_mem_cons] at hns
    exact ih hns.2 (filled_step h hns.1)

lemma asQueryList_filled {q q' : QueryList} (h : asQueryList q = some q') : Filled q q' := by
  unfold asQueryList at h
  split_ifs at h
  rw [Option.some.injEq] at h
  exact h ▸ filled_foldl (fun _ hnm => hnm) ⟨rfl, fun _ => .inl rfl⟩

lemma fill_ne_null {q : QueryList} {nm k : Bytes} (h : k = nm ∨ byName q k ≠ .null) :
    byName (if byName q nm = .null then assign q nm (.logical [none]) else q) k ≠ .null := by
  split_ifs with hnull
  · rw [assign, if_neg (by decide), byName_put]
    split_ifs with hk
    · exact QueryValue.noConfusion
    · exact h.resolve_left hk
  · rcases h with rfl | h
    · exact hnull
    · exact h

lemma foldl_fill_ne_null {ns : List Bytes} {q : QueryList} {k : Bytes}
    (h : k ∈ ns ∨ byName q k ≠ .null) :
    byName (ns.foldl
      (fun q nm => if byName q nm = .null then assign q nm (.logical [none]) else q) q) k ≠
        .null := by
  induction ns generalizing q with
  | nil => exact h.resolve_left List.not_mem_nil
  | cons nm ns ih =>
    refine ih ?_
    rcases h with h | h
    · rcases List.mem_cons.mp h with hk | hk
      · exact .inr (fill_ne_null (.inl hk))
      · exact .inl hk
    · exact .inr (fill_ne_null (.inr h))

/-- No parameter of an accepted list is NULL where it is read by name. -/
lemma asQueryList_ne_null {q q' : QueryList} (h : asQueryList q = some q') {k : Bytes}
    (hk : k ∈ q.map Prod.fst) : byName q' k ≠ .null := by
  unfold asQueryList at h
  split_ifs at h
  rw [Option.some.injEq] at h
  exact h ▸ foldl_fill_ne_null (.inl hk)

lemma Filled.atoms {q q' : QueryList} (h : Filled q q') (display : Bytes → Nat) (k : Bytes) :
    queryAtom display (byName q' k) = queryAtom display (byName q k) := by
  rcases h.value k with hv | ⟨hv, hv'⟩
  · rw [hv]
  · rw [hv, hv']
    rfl

lemma Filled.sentPairs {q q' : QueryList} (h : Filled q q') (display : Bytes → Nat) :
    sentPairs display q' = sentPairs display q := by
  unfold QueryList.sentPairs
  rw [h.names]
  exact congrArg (fun f => List.flatMap f _) (funext fun k => by rw [h.atoms])

/-! ### When the pairs are those of the list -/

/-- Every value replaced by the first one of its name. -/
def firsts (q : QueryList) : QueryList := q.map (fun e => (e.1, byName q e.1))

/-- The strings of a character vector take the same width, so that none is padded. -/
def Level (display : Bytes → Nat) : QueryValue → Prop
  | .character v => ∀ s ∈ v.filterMap id, ∀ t ∈ v.filterMap id, display s = display t
  | _ => True

lemma le_foldl_max (l : List Nat) (a : Nat) : a ≤ l.foldl max a ∧ ∀ x ∈ l, x ≤ l.foldl max a := by
  induction l generalizing a with
  | nil => exact ⟨Nat.le_refl a, fun _ h => absurd h List.not_mem_nil⟩
  | cons x l ih =>
    obtain ⟨hstart, hall⟩ := ih (max a x)
    rw [List.foldl_cons, List.forall_mem_cons]
    exact ⟨(Nat.le_max_left a x).trans hstart, (Nat.le_max_right a x).trans hstart, hall⟩

lemma foldl_max_mem {l : List Nat} {a : Nat} : l.foldl max a = a ∨ l.foldl max a ∈ l := by
  induction l generalizing a with
  | nil => exact .inl rfl
  | cons x l ih =>
    rw [List.foldl_cons]
    rcases @ih (max a x) with h | h
    · rw [h]
      rcases Nat.le_total a x with hle | hle
      · rw [Nat.max_eq_right hle]
        exact .inr (List.mem_cons_self ..)
      · rw [Nat.max_eq_left hle]
        exact .inl rfl
    · exact .inr (List.mem_cons_of_mem x h)

/-- Nothing is padded exactly if all the strings take the same width. -/
lemma formatText_eq_iff (display : Bytes → Nat) (v : List Bytes) :
    formatText display v = v ↔ ∀ s ∈ v, ∀ t ∈ v, display s = display t := by
  have hpad : formatText display v = v ↔ ∀ s ∈ v, (v.map display).foldl max 0 ≤ display s := by
    have hmap := List.map_inj_left (l := v) (g := id)
      (f := fun s => s ++ List.replicate ((v.map display).foldl max 0 - display s) 32)
    rw [List.map_id] at hmap
    refine hmap.trans (forall₂_congr fun s _ => ?_)
    rw [id_eq, List.append_right_eq_self, List.replicate_eq_nil_iff]
    omega
  rw [hpad]
  constructor
  · intro h s hs t ht
    have hle := (le_foldl_max (v.map display) 0).2
    have h1 := hle _ (List.mem_map_of_mem hs)
    have h2 := hle _ (List.mem_map_of_mem ht)
    have h3 := h s hs
    have h4 := h t ht
    omega
  · intro h s hs
    rcases foldl_max_mem (l := v.map display) (a := 0) with h0 | hmem
    · omega
    · obtain ⟨t, ht, heq⟩ := List.mem_map.mp hmem
      rw [← heq, h t ht s hs]

lemma queryAtom_eq_iff (display : Bytes → Nat) (v : QueryValue) :
    queryAtom display v = texts v ↔ Level display v := by
  cases v with
  | null => exact ⟨fun _ => trivial, fun _ => rfl⟩
  | logical v => exact ⟨fun _ => trivial, fun _ => rfl⟩
  | character v => exact formatText_eq_iff display _
  | other v => exact ⟨fun _ => trivial, fun _ => rfl⟩

lemma queryAtom_length (display : Bytes → Nat) (v : QueryValue) :
    (queryAtom display v).length = (texts v).length := by
  cases v with
  | character v => exact List.length_map _
  | _ => rfl

/-- Two lists that start with pairs of other names and go on with as many pairs of one name
agree on these. -/
lemma eq_of_first {nm : Bytes} {pre pre' rest rest' : List (Bytes × Bytes)} {v w : List Bytes}
    (hpre : ∀ p ∈ pre, p.1 ≠ nm) (hpre' : ∀ p ∈ pre', p.1 ≠ nm) (hlen : v.length = w.length)
    (h : pre ++ (v.map (nm, ·) ++ rest) = pre' ++ (w.map (nm, ·) ++ rest')) : v = w := by
  have hdrop : ∀ {l : List (Bytes × Bytes)} {u : List Bytes} {r : List (Bytes × Bytes)},
      (∀ p ∈ l, p.1 ≠ nm) → u ≠ [] →
        (l ++ (u.map (nm, ·) ++ r)).dropWhile (fun p => p.1 ≠ nm) = u.map (nm, ·) ++ r := by
    intro l u r hl hu
    rw [List.dropWhile_append_of_pos (fun p hp => decide_eq_true (hl p hp))]
    cases u with
    | nil => exact absurd rfl hu
    | cons x u =>
      rw [List.map_cons, List.cons_append, List.dropWhile_cons_of_neg (by simp)]
  cases v with
  | nil => exact (List.eq_nil_of_length_eq_zero hlen.symm).symm
  | cons x v =>
    have hw : w ≠ [] := by
      rintro rfl
      cases hlen
    have heq := congrArg (List.dropWhile (fun p => decide (p.1 ≠ nm))) h
    rw [hdrop hpre (List.cons_ne_nil x v), hdrop hpre' hw] at heq
    have hmap := (List.append_inj heq (by simpa using hlen)).1
    exact List.map_injective_iff.mpr (fun a b hab => (Prod.mk.inj hab).2) hmap

/-- The first entry of a name, and what is in front of it. -/
lemma split_first {q : QueryList} {nm : Bytes} (h : nm ∈ q.map Prod.fst) :
    ∃ pre v post, q = pre ++ (nm, v) :: post ∧ ∀ e ∈ pre, e.1 ≠ nm := by
  induction q with
  | nil => cases h
  | cons e q ih =>
    by_cases he : e.1 = nm
    · exact ⟨[], e.2, q, by rw [← he]; rfl, fun _ hmem => absurd hmem List.not_mem_nil⟩
    · obtain ⟨pre, v, post, rfl, hpre⟩ := ih ((List.mem_cons.mp h).resolve_left (Ne.symm he))
      exact ⟨e :: pre, v, post, rfl, List.forall_mem_cons.mpr ⟨he, hpre⟩⟩

lemma byName_split {pre post : QueryList} {nm : Bytes} {v : QueryValue}
    (hpre : ∀ e ∈ pre, e.1 ≠ nm) : byName (pre ++ (nm, v) :: post) nm = v := by
  have hnone : Assoc.named Prod.fst pre nm = [] := by
    rw [Assoc.named_eq_nil, List.mem_map]
    rintro ⟨e, he, heq⟩
    exact hpre e he heq
  have hnamed : Assoc.named Prod.fst (pre ++ (nm, v) :: post) nm =
      Assoc.named Prod.fst pre nm ++ Assoc.named Prod.fst ((nm, v) :: post) nm :=
    List.filter_append _ _
  rw [byName_eq, hnamed, hnone, List.nil_append, Assoc.named_cons_same rfl]
  rfl

lemma tagged_ne {q : QueryList} {nm : Bytes} {f : Bytes × QueryValue → List Bytes}
    (h : ∀ e ∈ q, e.1 ≠ nm) : ∀ p ∈ q.flatMap (fun e => (f e).map (e.1, ·)), p.1 ≠ nm := by
  intro p hp
  obtain ⟨e, he, hmem⟩ := List.mem_flatMap.mp hp
  obtain ⟨t, -, rfl⟩ := List.mem_map.mp hmem
  exact h e he

lemma pairs_firsts (q : QueryList) :
    pairs (firsts q) = (q.map Prod.fst).flatMap (fun nm => (texts (byName q nm)).map (nm, ·)) := by
  rw [pairs, firsts, List.flatMap_map, List.flatMap_map]

lemma sentPairs_eq (display : Bytes → Nat) (q : QueryList) :
    sentPairs display q =
      q.flatMap (fun e => (queryAtom display (byName q e.1)).map (e.1, ·)) := by
  rw [sentPairs, List.flatMap_map]

/-- What is sent are the pairs of the list exactly if no string is padded and every value could
be replaced by the first one of its name. -/
theorem sentPairs_eq_iff (display : Bytes → Nat) (q : QueryList) :
    sentPairs display q = pairs q ↔
      (∀ nm ∈ q.map Prod.fst, Level display (byName q nm)) ∧ pairs (firsts q) = pairs q := by
  have hlevel : (∀ nm ∈ q.map Prod.fst, Level display (byName q nm)) →
      sentPairs display q = pairs (firsts q) := by
    intro h
    rw [sentPairs, pairs_firsts]
    refine List.flatMap_congr ?_
    intro nm hnm
    rw [(queryAtom_eq_iff display _).mpr (h nm hnm)]
  refine ⟨fun heq => ?_, fun h => (hlevel h.1).trans h.2⟩
  suffices hall : ∀ nm ∈ q.map Prod.fst, Level display (byName q nm) from
    ⟨hall, (hlevel hall).symm.trans heq⟩
  intro nm hnm
  obtain ⟨pre, v, post, rfl, hpre⟩ := split_first hnm
  rw [byName_split hpre, ← queryAtom_eq_iff]
  rw [sentPairs_eq, pairs, List.flatMap_append, List.flatMap_append, List.flatMap_cons,
    List.flatMap_cons, byName_split hpre] at heq
  exact eq_of_first (tagged_ne hpre) (tagged_ne hpre) (queryAtom_length display v) heq

/-! ### Staging on a request and merging with the client -/

/-- The pairs of one name. -/
lemma filter_tagged (q : QueryList) (f : Bytes → List Bytes) (k : Bytes) :
    (q.flatMap (fun e => (f e.1).map (e.1, ·))).filter (fun p => p.1 = k) =
      (List.replicate (Assoc.named Prod.fst q k).length ((f k).map (k, ·))).flatten := by
  induction q with
  | nil => rfl
  | cons e q ih =>
    rw [List.flatMap_cons, List.filter_append, ih]
    by_cases he : e.1 = k
    · rw [Assoc.named_cons_same he, List.length_cons, List.replicate_succ, List.flatten_cons,
        List.filter_eq_self.mpr, he]
      intro p hp
      obtain ⟨t, -, rfl⟩ := List.mem_map.mp hp
      exact decide_eq_true he
    · rw [Assoc.named_cons_other he, List.filter_eq_nil_iff.mpr, List.nil_append]
      intro p hp
      obtain ⟨t, -, rfl⟩ := List.mem_map.mp hp
      simpa using he

/-- Lists of pairs are permutations of each other if they are so name by name. -/
lemma perm_of_names {l m : List (Bytes × Bytes)}
    (h : ∀ k, (l.filter (fun p => p.1 = k)).Perm (m.filter (fun p => p.1 = k))) : l.Perm m := by
  rw [List.perm_iff_count]
  intro p
  have hcount := (h p.1).count_eq p
  rwa [List.count_filter (by simp), List.count_filter (by simp)] at hcount

lemma perm_flatten_replicate {l : List (Bytes × Bytes)} {m n : Nat} :
    (List.replicate m l).flatten.Perm (List.replicate n l).flatten ↔ l = [] ∨ m = n := by
  constructor
  · intro h
    have hlen := h.length_eq
    rw [List.length_flatten, List.length_flatten, List.map_replicate, List.map_replicate,
      List.sum_replicate_nat, List.sum_replicate_nat] at hlen
    rcases Nat.eq_zero_or_pos l.length with h0 | hpos
    · exact .inl (List.eq_nil_of_length_eq_zero h0)
    · exact .inr (Nat.eq_of_mul_eq_mul_right hpos hlen)
  · rintro (rfl | rfl)
    · rw [List.flatten_replicate_nil, List.flatten_replicate_nil]
    · exact List.Perm.refl _

lemma named_stage {g : Bytes → QueryValue} {ns : List Bytes} (hg : ∀ k ∈ ns, g k ≠ .null)
    (init : QueryList) (k : Bytes) :
    Assoc.named Prod.fst (ns.foldl (fun out nm => assign out nm (g nm)) init) k =
      if k ∈ ns then (k, g k) :: (Assoc.named Prod.fst init k).tail
      else Assoc.named Prod.fst init k := by
  induction ns generalizing init with
  | nil => rfl
  | cons nm ns ih =>
    rw [List.forall_mem_cons] at hg
    rw [List.foldl_cons, ih hg.2, assign, if_neg hg.1]
    by_cases hk : nm = k
    · subst hk
      rw [Assoc.named_put_same init (nm, g nm)]
      simp
    · rw [Assoc.named_put_other (e := (nm, g nm)) hk]
      simp [Ne.symm hk]

lemma named_merge {g : Bytes → QueryValue} {ns : List Bytes} (hnodup : ns.Nodup)
    (hg : ∀ k ∈ ns, g k ≠ .null) (client : QueryList) (k : Bytes) :
    Assoc.named Prod.fst (ns.foldl (fun out nm =>
        let v := g nm
        if v.erases then assign out nm .null else assign out nm v) client) k =
      if k ∈ ns then
        if (g k).erases then (Assoc.named Prod.fst client k).tail
        else (k, g k) :: (Assoc.named Prod.fst client k).tail
      else Assoc.named Prod.fst client k := by
  induction ns generalizing client with
  | nil => rfl
  | cons nm ns ih =>
    obtain ⟨hnot, hrest⟩ := List.nodup_cons.mp hnodup
    rw [List.forall_mem_cons] at hg
    rw [List.foldl_cons, ih hrest hg.2]
    by_cases hk : nm = k
    · subst hk
      rw [if_neg hnot, if_pos (List.mem_cons_self ..)]
      dsimp only
      by_cases herase : (g nm).erases = true
      · rw [if_pos herase, if_pos herase, assign, if_pos rfl]
        exact Assoc.named_eraseP_same client nm
      · rw [if_neg herase, if_neg herase, assign, if_neg hg.1]
        exact Assoc.named_put_same client (nm, g nm)
    · have hmem : k ∈ nm :: ns ↔ k ∈ ns := by simp [Ne.symm hk]
      have hother : Assoc.named Prod.fst (let v := g nm
          if v.erases then assign client nm .null else assign client nm v) k =
            Assoc.named Prod.fst client k := by
        dsimp only
        by_cases herase : (g nm).erases = true
        · rw [if_pos herase, assign, if_pos rfl]
          exact Assoc.named_eraseP_other hk client
        · rw [if_neg herase, assign, if_neg hg.1]
          exact Assoc.named_put_other (e := (nm, g nm)) hk client
      rw [hother]
      simp only [hmem]

lemma nodup_stage {g : Bytes → QueryValue} {ns : List Bytes} (hg : ∀ k ∈ ns, g k ≠ .null)
    {init : QueryList} (h : (init.map Prod.fst).Nodup) :
    ((ns.foldl (fun out nm => assign out nm (g nm)) init).map Prod.fst).Nodup := by
  induction ns generalizing init with
  | nil => exact h
  | cons nm ns ih =>
    rw [List.forall_mem_cons] at hg
    rw [List.foldl_cons, assign, if_neg hg.1]
    exact ih hg.2 (Assoc.nodup_put h _)

/-- The parameters that calls of `zu_query` leave on a request. -/
inductive Staged : QueryList → Prop
  | none : Staged []
  | query {earlier args staged : QueryList} (h : Staged earlier)
      (hstaged : zuQuery earlier args = some staged) : Staged staged

lemma mem_stage {g : Bytes → QueryValue} {ns : List Bytes} (hg : ∀ k ∈ ns, g k ≠ .null)
    (init : QueryList) (k : Bytes) :
    k ∈ (ns.foldl (fun out nm => assign out nm (g nm)) init).map Prod.fst ↔
      k ∈ init.map Prod.fst ∨ k ∈ ns := by
  rw [← not_iff_not, not_or, ← Assoc.named_eq_nil, ← Assoc.named_eq_nil, named_stage hg]
  by_cases hk : k ∈ ns
  · rw [if_pos hk]
    exact ⟨fun hnil => absurd hnil (List.cons_ne_nil _ _), fun h => absurd hk h.2⟩
  · rw [if_neg hk]
    exact ⟨fun hnil => ⟨hnil, hk⟩, fun h => h.1⟩

/-- What `zu_query` stages over what a request has: the first value of each name, NULL as NA. -/
lemma zuQuery_spec {earlier args staged : QueryList} (h : zuQuery earlier args = some staged)
    (hearlier : (earlier.map Prod.fst).Nodup) :
    (staged.map Prod.fst).Nodup ∧
      (∀ k, k ∈ staged.map Prod.fst ↔ k ∈ earlier.map Prod.fst ∨ k ∈ args.map Prod.fst) ∧
      (∀ k ∈ args.map Prod.fst, byName staged k =
        if byName args k = .null then .logical [none] else byName args k) ∧
      ∀ k, k ∉ args.map Prod.fst → byName staged k = byName earlier k := by
  obtain ⟨q, hq, rfl⟩ := Option.map_eq_some_iff.mp h
  have hfilled := asQueryList_filled hq
  have hne : ∀ k ∈ q.map Prod.fst, byName q k ≠ .null :=
    fun k hk => asQueryList_ne_null hq (hfilled.names ▸ hk)
  have hnamed := named_stage hne earlier
  have hvalue : ∀ k ∈ args.map Prod.fst, byName q k =
      if byName args k = .null then .logical [none] else byName args k := by
    intro k hk
    rcases hfilled.value k with hv | ⟨hnull, hv⟩
    · rw [if_neg (hv ▸ hne k (hfilled.names.symm ▸ hk)), hv]
    · rw [if_pos hnull, hv]
  refine ⟨nodup_stage hne hearlier, fun k => ?_, fun k hk => ?_, fun k hk => ?_⟩
  · rw [mem_stage hne earlier k, hfilled.names]
  · rw [byName_eq, hnamed, if_pos (hfilled.names.symm ▸ hk)]
    exact hvalue k hk
  · rw [byName_eq, hnamed, if_neg (hfilled.names.symm ▸ hk), ← byName_eq]

/-- Each name is staged once, with a value. -/
lemma Staged.spec {staged : QueryList} (h : Staged staged) :
    (staged.map Prod.fst).Nodup ∧ ∀ k ∈ staged.map Prod.fst, byName staged k ≠ .null := by
  induction h with
  | none => exact ⟨List.nodup_nil, fun k hk => absurd hk List.not_mem_nil⟩
  | @query earlier args staged _ hstaged ih =>
    obtain ⟨hnodup, hnames, hvalue, hkept⟩ := zuQuery_spec hstaged ih.1
    refine ⟨hnodup, fun k hk => ?_⟩
    by_cases hargs : k ∈ args.map Prod.fst
    · rw [hvalue k hargs]
      split_ifs with hnull
      · exact QueryValue.noConfusion
      · exact hnull
    · rw [hkept k hargs]
      exact ih.2 k (((hnames k).mp hk).resolve_right hargs)

/-- Whether a value that is staged takes a parameter of the client away. -/
def removes (v : QueryValue) : Bool := v.erases || v = .null

/-- The staged pairs of a name are sent once: what a removal leaves of the client's parameters
has no text, and a value that has one is given as often as it is sent, at the place of each
parameter of the client. -/
def OnceFor (client args : QueryList) (k : Bytes) : Prop :=
  if removes (byName args k) then
    texts (firstValue (Assoc.named Prod.fst client k).tail) = []
  else texts (byName args k) = [] ∨
    (Assoc.named Prod.fst args k).length = max 1 (Assoc.named Prod.fst client k).length

lemma filter_sentPairs (display : Bytes → Nat) (q : QueryList) (k : Bytes) :
    (sentPairs display q).filter (fun p => p.1 = k) =
      (List.replicate (Assoc.named Prod.fst q k).length
        ((queryAtom display (byName q k)).map (k, ·))).flatten := by
  rw [sentPairs_eq]
  exact filter_tagged q (fun nm => queryAtom display (byName q nm)) k

lemma filter_firsts (q : QueryList) (k : Bytes) :
    (pairs (firsts q)).filter (fun p => p.1 = k) =
      (List.replicate (Assoc.named Prod.fst q k).length
        ((texts (byName q k)).map (k, ·))).flatten := by
  rw [pairs_firsts, List.flatMap_map]
  exact filter_tagged q (fun nm => texts (byName q nm)) k

lemma queryAtom_eq_nil (display : Bytes → Nat) (v : QueryValue) :
    queryAtom display v = [] ↔ texts v = [] := by
  rw [← List.length_eq_zero_iff, queryAtom_length, List.length_eq_zero_iff]

lemma texts_eq_nil_of_removes {v : QueryValue} (h : removes v = true) : texts v = [] := by
  unfold removes QueryValue.erases at h
  split at h
  · rfl
  · rfl
  · rfl
  · rw [Bool.false_or, decide_eq_true_eq] at h
    rw [h]
    rfl

/-- One name of a staged request, whose pairs would be those of the list in its order. -/
lemma once_iff {display : Bytes → Nat} {client args earlier staged : QueryList}
    (hearlier : Staged earlier) (hstaged : zuQuery earlier args = some staged)
    (hlevel : ∀ nm ∈ args.map Prod.fst, Level display (byName args nm))
    (hfirsts : pairs (firsts args) = pairs args) {k : Bytes} (hk : k ∈ args.map Prod.fst) :
    ((sentPairs display (mergeQuery client staged)).filter (fun p => p.1 = k)).Perm
      ((pairs args).filter (fun p => p.1 = k)) ↔ OnceFor client args k := by
  obtain ⟨-, hnames, hvalue, -⟩ := zuQuery_spec hstaged hearlier.spec.1
  obtain ⟨hnodup, hne⟩ := (Staged.query hearlier hstaged).spec
  have hmerged := named_merge hnodup hne client k
  rw [if_pos ((hnames k).mpr (.inr hk))] at hmerged
  change Assoc.named Prod.fst (mergeQuery client staged) k = _ at hmerged
  have hremoves : (byName staged k).erases = removes (byName args k) := by
    rw [hvalue k hk, removes]
    split_ifs with hnull
    · rw [hnull]
      rfl
    · simp [hnull]
  rw [hremoves] at hmerged
  rw [← hfirsts, filter_sentPairs, filter_firsts, OnceFor, byName_eq (mergeQuery client staged) k]
  by_cases hrem : removes (byName args k) = true
  · rw [if_pos hrem, texts_eq_nil_of_removes hrem]
    rw [if_pos hrem] at hmerged
    rw [hmerged, List.map_nil, List.flatten_replicate_nil, List.perm_nil]
    rw [List.flatten_eq_nil_iff]
    cases (Assoc.named Prod.fst client k).tail with
    | nil => exact ⟨fun _ => rfl, fun _ l hl => absurd hl List.not_mem_nil⟩
    | cons e rest =>
      rw [List.length_cons, List.forall_mem_replicate, List.map_eq_nil_iff, queryAtom_eq_nil]
      simp
  · rw [if_neg hrem] at hmerged ⊢
    have hnull : byName args k ≠ .null := by
      intro hnull
      rw [hnull] at hrem
      exact hrem rfl
    rw [hmerged, firstValue, hvalue k hk, if_neg hnull,
      (queryAtom_eq_iff display _).mpr (hlevel k hk), perm_flatten_replicate, List.map_eq_nil_iff,
      List.length_cons, List.length_tail]
    refine or_congr_right ?_
    omega

/-- The pairs of a form body, which is empty for a list without any. -/
def readForm (body : Bytes) : Option (List (Bytes × Bytes)) :=
  if body = [] then some [] else readQuery (some body)

lemma readForm_getD (display : Bytes → Nat) (q : QueryList) :
    readForm ((buildQuery display q).getD []) = some (sentPairs display q) := by
  have hread := readQuery_buildQuery display q
  cases hbuild : buildQuery display q with
  | none =>
    rw [hbuild] at hread
    exact hread
  | some s =>
    rw [hbuild] at hread
    have hs : s ≠ [] := by
      rintro rfl
      cases hread
    rw [Option.getD_some, readForm, if_neg hs, hread]

lemma pairs_names {q : QueryList} {p : Bytes × Bytes} (hp : p ∈ pairs q) :
    p.1 ∈ q.map Prod.fst := by
  obtain ⟨e, he, hmem⟩ := List.mem_flatMap.mp hp
  obtain ⟨t, -, rfl⟩ := List.mem_map.mp hmem
  exact List.mem_map_of_mem he

/-- Pairs of some names are given in any order exactly if each of the names has its own. -/
lemma perm_names_iff {sent : List (Bytes × Bytes)} {q : QueryList} :
    (sent.filter (fun p => p.1 ∈ q.map Prod.fst)).Perm (pairs q) ↔
      ∀ k ∈ q.map Prod.fst, (sent.filter (fun p => p.1 = k)).Perm
        ((pairs q).filter (fun p => p.1 = k)) := by
  have hfilter : ∀ k ∈ q.map Prod.fst,
      (sent.filter (fun p => p.1 ∈ q.map Prod.fst)).filter (fun p => p.1 = k) =
        sent.filter (fun p => p.1 = k) := by
    intro k hk
    rw [List.filter_filter]
    refine List.filter_congr fun p _ => ?_
    by_cases hp : p.1 = k
    · rw [decide_eq_true hp, Bool.true_and]
      exact decide_eq_true (hp ▸ hk)
    · rw [decide_eq_false hp, Bool.false_and]
  constructor
  · intro h k hk
    rw [← hfilter k hk]
    exact h.filter _
  · intro h
    refine perm_of_names fun k => ?_
    by_cases hk : k ∈ q.map Prod.fst
    · rw [hfilter k hk]
      exact h k hk
    · rw [List.filter_eq_nil_iff.mpr, List.filter_eq_nil_iff.mpr]
      · intro p hp heq
        exact hk (of_decide_eq_true heq ▸ pairs_names hp)
      · intro p hp heq
        exact hk (of_decide_eq_true heq ▸ of_decide_eq_true (List.mem_filter.mp hp).2)

/-- The parameters of an accepted list reach the wire as they are given, in a query and in a
form, and those staged on a request, whatever was staged on it before, each once: exactly if no
string is padded, every value could be replaced by the first one of its name, and the client's
parameters of a staged name neither repeat it nor survive it. -/
theorem encoding_faithful_iff (display : Bytes → Nat) (client args q earlier staged : QueryList)
    (hq : asQueryList args = some q) (hearlier : Staged earlier)
    (hstaged : zuQuery earlier args = some staged) :
    (readQuery (buildQuery display q) = some (pairs args) ∧
      (∃ body, zuBodyForm display args = some body ∧ readForm body = some (pairs args)) ∧
      ∃ sent, readQuery (buildQuery display (mergeQuery client staged)) = some sent ∧
        (sent.filter (fun p => p.1 ∈ args.map Prod.fst)).Perm (pairs args)) ↔
    (∀ nm ∈ args.map Prod.fst, Level display (byName args nm)) ∧
      pairs (firsts args) = pairs args ∧ ∀ nm ∈ args.map Prod.fst, OnceFor client args nm := by
  have hlist := (asQueryList_filled hq).sentPairs display
  rw [readQuery_buildQuery, Option.some.injEq, hlist, sentPairs_eq_iff, readQuery_buildQuery]
  constructor
  · rintro ⟨⟨hlevel, hfirsts⟩, -, sent, hread, hperm⟩
    cases hread
    exact ⟨hlevel, hfirsts, fun nm hnm =>
      (once_iff hearlier hstaged hlevel hfirsts hnm).mp (perm_names_iff.mp hperm nm hnm)⟩
  · rintro ⟨hlevel, hfirsts, honce⟩
    have hform : zuBodyForm display args = some ((buildQuery display q).getD []) := by
      rw [zuBodyForm, hq]
      rfl
    have hpairs : sentPairs display args = pairs args :=
      (sentPairs_eq_iff display args).mpr ⟨hlevel, hfirsts⟩
    refine ⟨⟨hlevel, hfirsts⟩, ⟨_, hform, by rw [readForm_getD, hlist, hpairs]⟩, _, rfl, ?_⟩
    exact perm_names_iff.mpr fun nm hnm =>
      (once_iff hearlier hstaged hlevel hfirsts hnm).mpr (honce nm hnm)

/-- Distinct names, one of them staged before, strings of one width and a client with one
parameter that is erased. -/
theorem encoding_faithful_distinct :
    let args : QueryList := [(ascii "q", .character [some (ascii "a&b"), none, some (ascii "%=+")]),
      (ascii "trace", .null)]
    let q : QueryList := [(ascii "q", .character [some (ascii "a&b"), none, some (ascii "%=+")]),
      (ascii "trace", .logical [none])]
    let earlier : QueryList := [(ascii "trace", .logical [some false])]
    let staged : QueryList := [(ascii "trace", .logical [none]),
      (ascii "q", .character [some (ascii "a&b"), none, some (ascii "%=+")])]
    let client : QueryList :=
      [(ascii "trace", .logical [some true]), (ascii "v", .other [some [49]])]
    asQueryList args = some q ∧ zuQuery earlier args = some staged ∧
      readQuery (buildQuery List.length q) =
        some [(ascii "q", ascii "a&b"), (ascii "q", ascii "%=+")] ∧
      readQuery (buildQuery List.length (mergeQuery client staged)) =
        some [(ascii "v", [49]), (ascii "q", ascii "a&b"), (ascii "q", ascii "%=+")] := by
  intro args q earlier staged client
  have hnames : ∀ {P : Bytes → Prop}, P (ascii "q") → P (ascii "trace") →
      ∀ nm ∈ args.map Prod.fst, P nm := by
    intro P hfirst hsecond nm hnm
    change nm ∈ [ascii "q", ascii "trace"] at hnm
    simp only [List.mem_cons, List.not_mem_nil, or_false] at hnm
    rcases hnm with rfl | rfl
    · exact hfirst
    · exact hsecond
  have hfirst : zuQuery [] earlier = some earlier := by decide +kernel
  have hearlier : Staged earlier := .query .none hfirst
  have hstaged : zuQuery earlier args = some staged := by decide +kernel
  have h := (encoding_faithful_iff List.length client args q earlier staged (by decide +kernel)
    hearlier hstaged).mpr ⟨hnames ((queryAtom_eq_iff _ _).mp (by decide +kernel))
      ((queryAtom_eq_iff _ _).mp (by decide +kernel)), by decide +kernel,
      hnames (by unfold OnceFor; decide +kernel) (by unfold OnceFor; decide +kernel)⟩
  exact ⟨by decide +kernel, hstaged, h.1.trans (by decide +kernel), by decide +kernel⟩

/-- A repeated name sends its first value twice, and a short string is padded. -/
theorem encoding_repeats :
    let twice : QueryList := [(ascii "a", .character [some (ascii "x")]),
      (ascii "a", .character [some (ascii "y")])]
    let uneven : QueryList := [(ascii "a", .character [some (ascii "x"), some (ascii "long")])]
    (asQueryList twice).bind (buildQuery List.length) = some (ascii "a=x&a=x") ∧
      (asQueryList uneven).bind (buildQuery List.length) = some (ascii "a=x%20%20%20&a=long") ∧
      pairs twice = [(ascii "a", ascii "x"), (ascii "a", ascii "y")] ∧
      pairs uneven = [(ascii "a", ascii "x"), (ascii "a", ascii "long")] := by
  decide +kernel

end QueryList

end Zuhttp
