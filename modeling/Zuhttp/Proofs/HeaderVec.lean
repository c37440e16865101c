import Zuhttp.HeaderVec
import Zuhttp.Library.Overlay

/-!
# The law of the header merge

Staging and merging as entries put over a list, and when they are the staged ones.
-/

namespace Zuhttp

namespace HeaderVec

variable {tolower : Bytes → Bytes}

/-- The name of an entry up to letter case. -/
def fold (tolower : Bytes → Bytes) (e : Bytes × Option Bytes) : Bytes := tolower e.1

/-- An entry that is not NA. -/
def present (e : Bytes × Option Bytes) : Bool := e.2.isSome

/-- The entries with the values that are read by name. -/
def read (h : HeaderVec) : HeaderVec := h.map (fun e => (e.1, byName h e.1))

/-- Each staged entry in order over the client's headers: it replaces every one of its name, or
erases them. -/
def law (tolower : Bytes → Bytes) (client entries : HeaderVec) : HeaderVec :=
  Overlay.overAll (fold tolower) present (client.filter present) entries

lemma put_dropHeader (out : HeaderVec) (nm : Bytes) (v : Option Bytes) :
    Assoc.put Prod.fst (dropHeader tolower out nm) (nm, v) =
      dropHeader tolower out nm ++ [(nm, v)] := by
  refine Assoc.put_of_notMem ?_
  intro hmem
  obtain ⟨e, he, heq⟩ := List.mem_map.mp hmem
  have hne := of_decide_eq_true (List.mem_filter.mp he).2
  exact hne (congrArg tolower heq)

lemma zuHeaders_eq {staged h out : HeaderVec} (hcall : zuHeaders tolower staged h = some out) :
    out = Overlay.overAll (fold tolower) (fun _ => true) staged (read h) := by
  obtain ⟨h', hh, rfl⟩ := Option.map_eq_some_iff.mp hcall
  unfold asHeaderVec at hh
  split_ifs at hh
  cases hh
  rw [List.foldl_map, Overlay.overAll, read, List.foldl_map]
  congr 1
  funext out e
  exact put_dropHeader out e.1 (byName h e.1)

lemma mergeHeaders_eq (client req : HeaderVec) :
    mergeHeaders tolower client req = law tolower client (read req) := by
  rw [law, ← Overlay.filter_overAll, mergeHeaders]
  dsimp only
  rw [List.foldl_map, Overlay.overAll, read, List.foldl_map]
  congr 2
  funext out e
  change (if (byName req e.1).isSome then _ else _) = Overlay.overlay (fold tolower) present out
    (e.1, byName req e.1)
  unfold Overlay.overlay
  change _ = _ ++ (if (byName req e.1).isSome then _ else _)
  split_ifs
  · exact put_dropHeader out e.1 (byName req e.1)
  · exact (List.append_nil _).symm

variable (tolower) in
/-- Names that differ up to letter case are read each at its own entry. -/
lemma read_of_distinct {h : HeaderVec}
    (hdistinct : h.Pairwise (fun e f => fold tolower e ≠ fold tolower f)) : read h = h := by
  induction h with
  | nil => rfl
  | cons e h ih =>
    rw [List.pairwise_cons] at hdistinct
    have hrest : ∀ f ∈ h, byName (e :: h) f.1 = byName h f.1 := by
      intro f hf
      have hne : e.1 ≠ f.1 := fun heq => hdistinct.1 f hf (congrArg tolower heq)
      rw [byName, Assoc.lookup_cons, if_neg hne, byName]
    have hfirst : byName (e :: h) e.1 = e.2 := by
      rw [byName, Assoc.lookup_cons, if_pos rfl]
    rw [read, List.map_cons, hfirst]
    refine congrArg _ (Eq.trans ?_ (ih hdistinct.2))
    exact List.map_congr_left fun f hf => by rw [hrest f hf]

/-- The calls of `zu_headers` on one request, one after the other. -/
def stage (tolower : Bytes → Bytes) (calls : List HeaderVec) (staged : HeaderVec) :
    Option HeaderVec := calls.foldlM (zuHeaders tolower) staged

lemma stage_eq {calls : List HeaderVec} {staged out : HeaderVec}
    (hstage : stage tolower calls staged = some out) :
    out = Overlay.overAll (fold tolower) (fun _ => true) staged (calls.flatMap read) := by
  induction calls generalizing staged with
  | nil => exact (Option.some.inj hstage).symm
  | cons h calls ih =>
    obtain ⟨next, hcall, hrest⟩ := Option.bind_eq_some_iff.mp hstage
    rw [ih hrest, zuHeaders_eq hcall, List.flatMap_cons, Overlay.overAll_append]

/-- What has been staged are the last entries of their names. -/
lemma staged_eq {calls : List HeaderVec} {staged : HeaderVec}
    (hstage : stage tolower calls [] = some staged) :
    staged = Overlay.latest (fold tolower) (calls.flatMap read) := by
  rw [stage_eq hstage, Overlay.overAll_eq, List.filter_true]
  rfl

lemma merge_staged {calls : List HeaderVec} {staged : HeaderVec}
    (hstage : stage tolower calls [] = some staged) (client : HeaderVec) :
    mergeHeaders tolower client staged = law tolower client (calls.flatMap read) := by
  have hstaged := staged_eq hstage
  rw [mergeHeaders_eq, read_of_distinct tolower, hstaged, law, Overlay.overAll_latest,
    law]
  rw [hstaged]
  exact Overlay.pairwise_latest _ _

/-- The staged entries, each with the value that is read for it: the first of its name in its
call. -/
def tagged (calls : List HeaderVec) : List ((Bytes × Option Bytes) × Option Bytes) :=
  calls.flatMap (fun h => h.map (fun e => (e, byName h e.1)))

/-- The last entry of every name, up to letter case, has the value of the first entry of exactly
its name in its call. -/
def LastFirst (tolower : Bytes → Bytes) (calls : List HeaderVec) : Prop :=
  ∀ before x after, tagged calls = before ++ x :: after →
    (∀ y ∈ after, tolower y.1.1 ≠ tolower x.1.1) → x.2 = x.1.2

lemma tagged_staged (calls : List HeaderVec) : (tagged calls).map Prod.fst = calls.flatten := by
  rw [tagged, List.map_flatMap, ← List.flatMap_id']
  refine List.flatMap_congr fun h _ => ?_
  rw [List.map_map]
  exact List.map_id h

lemma tagged_read (calls : List HeaderVec) :
    (tagged calls).map (fun x => (x.1.1, x.2)) = calls.flatMap read := by
  rw [tagged, List.map_flatMap]
  refine List.flatMap_congr fun h _ => ?_
  rw [List.map_map]
  rfl

/-- Two values for each of some entries of distinct names are the same headers exactly if they
are the same. -/
lemma filter_eq_iff {l : List ((Bytes × Option Bytes) × Option Bytes)}
    (hdistinct : l.Pairwise (fun x y => tolower x.1.1 ≠ tolower y.1.1)) :
    (l.map (fun x => (x.1.1, x.2))).filter present = (l.map Prod.fst).filter present ↔
      ∀ x ∈ l, x.2 = x.1.2 := by
  have hinj : ∀ x ∈ l, ∀ y ∈ l, x.1.1 = y.1.1 → x = y := by
    have hnodup : (l.map (fun x => tolower x.1.1)).Nodup := List.pairwise_map.mpr hdistinct
    exact fun x hx y hy hxy => List.inj_on_of_nodup_map hnodup hx hy (congrArg tolower hxy)
  constructor
  · intro heq x hx
    by_cases hgiven : x.1.2.isSome = true
    · have hmem : x.1 ∈ (l.map Prod.fst).filter present :=
        List.mem_filter.mpr ⟨List.mem_map_of_mem hx, hgiven⟩
      rw [← heq] at hmem
      obtain ⟨y, hy, hyx⟩ := List.mem_map.mp (List.mem_filter.mp hmem).1
      rw [hinj y hy x hx (Prod.ext_iff.mp hyx).1] at hyx
      exact congrArg Prod.snd hyx
    · by_cases hread : x.2.isSome = true
      · have hmem : (x.1.1, x.2) ∈ (l.map (fun x => (x.1.1, x.2))).filter present :=
          List.mem_filter.mpr ⟨List.mem_map_of_mem hx, hread⟩
        rw [heq] at hmem
        obtain ⟨y, hy, hyx⟩ := List.mem_map.mp (List.mem_filter.mp hmem).1
        rw [hinj y hy x hx (Prod.ext_iff.mp hyx).1] at hyx
        exact (congrArg Prod.snd hyx).symm
      · rw [Option.not_isSome_iff_eq_none] at hgiven hread
        rw [hgiven, hread]
  · intro h
    congr 1
    refine List.map_congr_left fun x hx => ?_
    rw [h x hx]

/-- The merge is that of the staged entries exactly if the last ones have the values read. -/
lemma law_eq_iff (client : HeaderVec) (calls : List HeaderVec) :
    law tolower client (calls.flatMap read) = law tolower client calls.flatten ↔
      LastFirst tolower calls := by
  have hlatest := Overlay.pairwise_latest (fun x : (Bytes × Option Bytes) × Option Bytes =>
    tolower x.1.1) (tagged calls)
  have hread := Overlay.latest_map (fold tolower)
    (fun x : (Bytes × Option Bytes) × Option Bytes => (x.1.1, x.2)) (tagged calls)
  have hgiven := Overlay.latest_map (fold tolower)
    (Prod.fst : (Bytes × Option Bytes) × Option Bytes → _) (tagged calls)
  rw [tagged_read] at hread
  rw [tagged_staged] at hgiven
  have hsame : Overlay.untouched (fold tolower) (client.filter present) (calls.flatMap read) =
      Overlay.untouched (fold tolower) (client.filter present) calls.flatten := by
    rw [← tagged_read, ← tagged_staged]
    unfold Overlay.untouched
    rw [List.map_map, List.map_map]
    rfl
  rw [law, law, Overlay.overAll_eq, Overlay.overAll_eq, hsame, List.append_right_inj, hread, hgiven]
  refine (filter_eq_iff hlatest).trans ⟨fun h before x after heq hlast => ?_, fun h x hx => ?_⟩
  · refine h x (Overlay.mem_latest.mpr ⟨before, after, heq, ?_⟩)
    rintro hmem
    obtain ⟨y, hy, hyx⟩ := List.mem_map.mp hmem
    exact hlast y hy hyx
  · obtain ⟨before, after, heq, hnot⟩ := Overlay.mem_latest.mp hx
    exact h before x after heq fun y hy hyx => hnot (List.mem_map.mpr ⟨y, hy, hyx⟩)

/-- Staging two calls and merging once is merging one after the other. -/
lemma merge_twice {calls more : List HeaderVec} {first second both : HeaderVec}
    (hfirst : stage tolower calls [] = some first) (hsecond : stage tolower more [] = some second)
    (hboth : stage tolower (calls ++ more) [] = some both) (client : HeaderVec) :
    mergeHeaders tolower client both =
      mergeHeaders tolower (mergeHeaders tolower client first) second := by
  rw [merge_staged hboth, merge_staged hfirst, merge_staged hsecond, law, law, law,
    List.flatMap_append, Overlay.overAll_append, Overlay.filter_overAll, List.filter_filter]
  congr 2
  exact List.filter_congr fun x _ => (Bool.and_self _).symm

/-- The merge is the law of the staged entries exactly if the last entry of every name has the
value of the first entry of exactly its name in its call. Staging and merging compose, a name
that is mentioned occurs once at most, and the headers of other names stay, in every case. -/
theorem merge_law_iff (tolower : Bytes → Bytes) (client : HeaderVec) (calls : List HeaderVec)
    (staged : HeaderVec) (hstage : stage tolower calls [] = some staged) :
    (mergeHeaders tolower client staged = law tolower client calls.flatten ∧
      (∀ before after first second, calls = before ++ after →
        stage tolower before [] = some first → stage tolower after [] = some second →
        mergeHeaders tolower client staged =
          mergeHeaders tolower (mergeHeaders tolower client first) second) ∧
      (∀ e ∈ calls.flatten, ((mergeHeaders tolower client staged).filter
        (fun f => tolower f.1 = tolower e.1)).length ≤ 1) ∧
      (mergeHeaders tolower client staged).filter
          (fun f => tolower f.1 ∉ calls.flatten.map (fun e => tolower e.1)) =
        (client.filter present).filter
          (fun f => tolower f.1 ∉ calls.flatten.map (fun e => tolower e.1))) ↔
      LastFirst tolower calls := by
  have hmerge := merge_staged hstage client
  have hnames : (calls.flatMap read).map (fold tolower) =
      calls.flatten.map (fun e => tolower e.1) := by
    rw [← tagged_read, ← tagged_staged, List.map_map, List.map_map]
    rfl
  rw [← law_eq_iff client calls, hmerge]
  refine and_iff_left ⟨?_, ?_, ?_⟩
  · rintro before after first second rfl hfirst hsecond
    rw [← hmerge]
    exact merge_twice hfirst hsecond hstage client
  · intro e he
    refine Overlay.overAll_once (fold tolower) present _ _ ?_
    rw [hnames]
    exact List.mem_map_of_mem he
  · have huntouched := Overlay.untouched_overAll (fold tolower) present
      (client.filter present) (calls.flatMap read)
    unfold Overlay.untouched at huntouched
    rw [hnames] at huntouched
    convert huntouched <;> rfl

/-- An erasure staged after a value, and a client's header of another case. -/
theorem merge_law_erased :
    let client : HeaderVec := [(ascii "accept", some (ascii "*")), (ascii "X", some (ascii "1"))]
    let staged : HeaderVec := [(ascii "Accept", some (ascii "a/b")), (ascii "x", none)]
    mergeHeaders (List.map lower) client staged = [(ascii "Accept", some (ascii "a/b"))] := by
  intro client staged
  have hlaw := ((merge_law_iff (List.map lower) client
    [[(ascii "X", some (ascii "2")), (ascii "Accept", some (ascii "a/b"))], [(ascii "x", none)]]
    staged (by decide +kernel)).mpr ?_).1
  · rw [hlaw]
    decide +kernel
  · intro before x after heq _
    have hall : ∀ x ∈ tagged [[(ascii "X", some (ascii "2")), (ascii "Accept", some (ascii "a/b"))],
        [(ascii "x", none)]], x.2 = x.1.2 := by decide +kernel
    exact hall x (heq ▸ List.mem_append_right before (List.mem_cons_self ..))

/-- Of two values for one name in a call, the first one is sent. -/
theorem merge_keeps_first :
    let call : HeaderVec := [(ascii "A", some (ascii "1")), (ascii "A", some (ascii "2"))]
    (zuHeaders (List.map lower) [] call).map (mergeHeaders (List.map lower) []) =
        some [(ascii "A", some (ascii "1"))] ∧
      law (List.map lower) [] call = [(ascii "A", some (ascii "2"))] := by
  decide +kernel

end HeaderVec

end Zuhttp
