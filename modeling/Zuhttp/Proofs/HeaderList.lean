import Mathlib.Algebra.Order.BigOperators.Group.List
import Zuhttp.HeaderList
import Zuhttp.Proofs.Request

/-!
# The header list as a list of pairs

What every call keeps of the accounting, and the list of pairs that the calls build.
-/

namespace Zuhttp

lemma sizeAdd_eq_some {a b n : Nat} :
    Headers.sizeAdd a b = some n ↔ a + b = n ∧ a + b < 2 ^ 64 := by
  unfold Headers.sizeAdd
  split_ifs with h
  · rw [Option.some.injEq]
    exact ⟨fun he => ⟨he, h⟩, And.left⟩
  · exact ⟨nofun, fun he => absurd he.2 h⟩

lemma newBytes_eq_some {h : Headers} {name value : Bytes} {n : Nat} :
    h.newBytes name value = some n ↔
      h.bytes + (name.length + value.length + 4) = n ∧ n < 2 ^ 64 := by
  unfold Headers.newBytes
  simp only [bind, Option.bind_eq_some_iff, sizeAdd_eq_some]
  constructor
  · rintro ⟨a, ⟨rfl, -⟩, b, ⟨rfl, -⟩, rfl, hlt⟩
    exact ⟨rfl, hlt⟩
  · rintro ⟨rfl, hlt⟩
    exact ⟨_, ⟨rfl, by omega⟩, _, ⟨rfl, by omega⟩, rfl, hlt⟩

lemma zuhAlloc_iff {n : Nat} {granted : Bool} :
    zuhAlloc n granted = true ↔ n + 16 < 2 ^ 64 ∧ granted = true := by
  unfold zuhAlloc
  rw [Bool.and_eq_true, Option.isSome_iff_exists]
  simp [sizeAdd_eq_some]

lemma dupN_of_alloc {s : Bytes} {granted : Bool} (h : zuhAlloc (s.length + 1) granted = true) :
    dupN s granted = some s := by
  have hsize : Headers.sizeAdd s.length 1 = some (s.length + 1) :=
    sizeAdd_eq_some.mpr ⟨rfl, by have := (zuhAlloc_iff.mp h).1; omega⟩
  rw [dupN, hsize]
  exact if_pos h

lemma dupN_of_not_alloc {s : Bytes} {granted : Bool}
    (h : ¬zuhAlloc (s.length + 1) granted = true) : dupN s granted = none := by
  unfold dupN
  cases hsize : Headers.sizeAdd s.length 1 with
  | none => rfl
  | some total =>
    obtain ⟨rfl, -⟩ := sizeAdd_eq_some.mp hsize
    exact if_neg h

namespace HeaderList

/-- What `zuh_headers_add` needs beside a valid name and a valid value. -/
structure Admits (h : HeaderList) (name value : Bytes) (g : Grants) : Prop where
  count : h.maxCount = 0 ∨ h.items.length < h.maxCount
  nameFits : h.maxName = 0 ∨ name.length ≤ h.maxName
  valueFits : h.maxValue = 0 ∨ value.length ≤ h.maxValue
  total : h.bytes + (name.length + value.length + 4) < 2 ^ 64
  bytesFit : h.maxBytes = 0 ∨ h.bytes + (name.length + value.length + 4) ≤ h.maxBytes
  room : (h.reserveOne g.items).isSome
  nameCopy : zuhAlloc (name.length + 1) g.name = true
  valueCopy : zuhAlloc (value.length + 1) g.value = true

/-- The accounting of a list, within the slots of its array. -/
structure Sound (h : HeaderList) : Prop where
  bytes_eq : h.bytes = (h.items.map Header.size).sum
  bytes_lt : h.bytes < 2 ^ 64
  count : h.maxCount ≠ 0 → h.items.length ≤ h.maxCount
  name : h.maxName ≠ 0 → ∀ f ∈ h.items, f.name.length ≤ h.maxName
  value : h.maxValue ≠ 0 → ∀ f ∈ h.items, f.value.length ≤ h.maxValue
  bytes_le : h.maxBytes ≠ 0 → h.bytes ≤ h.maxBytes
  room : h.items.length ≤ h.cap
  storage : h.cap * itemSize < 2 ^ 64

/-- The limits of a list. -/
def limits (h : Headers) : Nat × Nat × Nat × Nat := (h.maxCount, h.maxName, h.maxValue, h.maxBytes)

lemma reserveOne_some {h h' : HeaderList} {granted : Bool}
    (hreserve : h.reserveOne granted = some h') :
    h' = { h with cap := h'.cap } ∧ (h.Sound → h.items.length < h'.cap ∧
      h'.cap * itemSize < 2 ^ 64) := by
  unfold reserveOne at hreserve
  by_cases hlt : h.items.length < h.cap
  · rw [if_pos hlt, Option.some.injEq] at hreserve
    subst hreserve
    exact ⟨rfl, fun hs => ⟨hlt, hs.storage⟩⟩
  · rw [if_neg hlt] at hreserve
    generalize hcap : (if h.cap ≠ 0 then h.cap * 2 % 2 ^ 64 else 8) = cap at hreserve
    dsimp only at hreserve
    by_cases hmul : cap * itemSize < 2 ^ 64
    swap
    · rw [sizeMul, if_neg hmul] at hreserve
      cases hreserve
    rw [sizeMul, if_pos hmul] at hreserve
    dsimp only at hreserve
    split_ifs at hreserve
    cases hreserve
    refine ⟨rfl, fun hs => ⟨?_, hmul⟩⟩
    -- the array never has half of the slots that would make the doubling wrap
    have hroom := hs.room
    have hstorage : h.cap * 32 < 2 ^ 64 := hs.storage
    dsimp only
    subst hcap
    split_ifs with h0 <;> omega

lemma reserveOne_of_lt {h : HeaderList} (hlt : h.items.length < h.cap) (granted : Bool) :
    h.reserveOne granted = some h := if_pos hlt

/-- An accepted field goes to the end of the list. -/
lemma add_of_admits {h : HeaderList} {name value : Bytes} {g : Grants}
    (hn : headerNameValid name = true) (hv : headerValueValid value = true)
    (ha : h.Admits name value g) :
    ∃ h', h.reserveOne g.items = some h' ∧ h.add name value g =
      (.ok, { h' with items := h.items ++ [⟨name, value, hn, hv⟩],
                      bytes := h.bytes + (name.length + value.length + 4) }) := by
  obtain ⟨h', hreserve⟩ := Option.isSome_iff_exists.mp ha.room
  refine ⟨h', hreserve, ?_⟩
  have hnew : h.newBytes name value = some (h.bytes + (name.length + value.length + 4)) :=
    newBytes_eq_some.mpr ⟨rfl, ha.total⟩
  have hitems : h'.items = h.items := by rw [(reserveOne_some hreserve).1]
  have hcount : ¬(h.maxCount ≠ 0 ∧ h.items.length ≥ h.maxCount) := by
    have := ha.count
    omega
  have hname : ¬(h.maxName ≠ 0 ∧ name.length > h.maxName) := by
    have := ha.nameFits
    omega
  have hvalue : ¬(h.maxValue ≠ 0 ∧ value.length > h.maxValue) := by
    have := ha.valueFits
    omega
  have hbytes : ¬(h.maxBytes ≠ 0 ∧ h.bytes + (name.length + value.length + 4) > h.maxBytes) := by
    have := ha.bytesFit
    omega
  rw [add, dif_pos hn, dif_pos hv, if_neg hcount, if_neg hname, if_neg hvalue, hnew]
  dsimp only
  rw [if_neg hbytes, hreserve]
  dsimp only
  rw [dupN_of_alloc ha.nameCopy, dupN_of_alloc ha.valueCopy]
  dsimp only
  rw [hitems]

/-- A refused field changes at most the slots the array has. -/
lemma add_of_refused {h : HeaderList} {name value : Bytes} {g : Grants}
    (h' : ¬(headerNameValid name = true ∧ headerValueValid value = true ∧
      h.Admits name value g)) :
    (h.add name value g).1 ≠ .ok ∧ ((h.add name value g).2 = h ∨
      h.reserveOne g.items = some (h.add name value g).2) := by
  unfold add
  split_ifs with hn hv hcount hname hvalue
  case neg =>
    cases hnew : h.newBytes name value with
    | none => exact ⟨(fun he => by cases he), .inl rfl⟩
    | some total =>
      obtain ⟨rfl, htotal⟩ := newBytes_eq_some.mp hnew
      dsimp only
      split_ifs with hbytes
      · exact ⟨(fun he => by cases he), .inl rfl⟩
      · cases hreserve : h.reserveOne g.items with
        | none => exact ⟨(fun he => by cases he), .inl rfl⟩
        | some h₁ =>
          dsimp only
          by_cases hname' : zuhAlloc (name.length + 1) g.name = true
          · by_cases hvalue' : zuhAlloc (value.length + 1) g.value = true
            · refine absurd ⟨hn, hv, ?_⟩ h'
              exact ⟨by omega, by omega, by omega, htotal, by omega,
                Option.isSome_iff_exists.mpr ⟨h₁, hreserve⟩, hname', hvalue'⟩
            · rw [dupN_of_not_alloc hvalue', dupN_of_alloc hname']
              exact ⟨(fun he => by cases he), .inr rfl⟩
          · rw [dupN_of_not_alloc hname']
            exact ⟨(fun he => by cases he), .inr rfl⟩
  all_goals exact ⟨(fun he => by cases he), .inl rfl⟩

/-- A failed add leaves the list as it was. -/
lemma add_failed {h : HeaderList} {name value : Bytes} {g : Grants}
    (hcode : (h.add name value g).1 ≠ .ok) :
    (h.add name value g).2.toHeaders = h.toHeaders := by
  have hrefused : ¬(headerNameValid name = true ∧ headerValueValid value = true ∧
      h.Admits name value g) := by
    rintro ⟨hn, hv, ha⟩
    obtain ⟨h', -, hadd⟩ := add_of_admits hn hv ha
    rw [hadd] at hcode
    exact hcode rfl
  rcases (add_of_refused hrefused).2 with heq | hreserve
  · rw [heq]
  · rw [(reserveOne_some hreserve).1]

lemma foldl_forget {l : List Header} (hl : ∀ f ∈ l, f.size < 2 ^ 64) (b k : Nat) :
    l.foldl forget (b, k) = (b - (l.map Header.size).sum, k + l.length) := by
  induction l generalizing b k with
  | nil => rfl
  | cons f l ih =>
    have hsub : forget (b, k) f = (b - f.size, k + 1) := by
      have hf := hl f (List.mem_cons_self ..)
      simp only [forget, Nat.mod_eq_of_lt hf, Prod.mk.injEq, and_true]
      split_ifs <;> omega
    rw [List.foldl_cons, hsub, ih (fun f' hf' => hl f' (List.mem_cons_of_mem _ hf')),
      List.map_cons, List.sum_cons, List.length_cons, Nat.sub_sub, Nat.add_assoc,
      Nat.add_comm 1]

/-- The fields that a removal of this name leaves. -/
def others (h : Headers) (name : Bytes) : List Header :=
  h.items.filter (fun f => !decide (CaseEq f.name name))

lemma others_sublist (h : Headers) (name : Bytes) : (others h name).Sublist h.items :=
  List.filter_sublist

lemma sum_others (h : Headers) (name : Bytes) :
    (h.items.map Header.size).sum =
      ((h.items.filter (fun f => decide (CaseEq f.name name))).map Header.size).sum +
        ((others h name).map Header.size).sum :=
  Sweep.sum_filter _ _ _

lemma Sound.size_lt {h : HeaderList} (hs : h.Sound) {f : Header} (hf : f ∈ h.items) :
    f.size < 2 ^ 64 := by
  have hle : f.size ≤ (h.items.map Header.size).sum :=
    List.le_sum_of_mem (List.mem_map_of_mem hf)
  have := hs.bytes_eq
  have := hs.bytes_lt
  omega

/-- The loop that erases in place leaves the other fields, and the sum of their sizes. -/
theorem remove_eq {h : HeaderList} (hs : h.Sound) (name : Bytes) :
    h.remove name = (h.items.length - (others h.toHeaders name).length,
      { h with items := others h.toHeaders name,
               bytes := ((others h.toHeaders name).map Header.size).sum }) := by
  have hpick : (fun f : Header => decide (asciiNcasecmp f.name name = 0)) =
      fun f => decide (CaseEq f.name name) := by
    funext f
    exact decide_eq_decide.mpr (asciiNcasecmp_eq_zero _ _)
  have hlen : h.items.length =
      (h.items.filter (fun f => decide (CaseEq f.name name))).length +
        (others h.toHeaders name).length :=
    List.length_eq_length_filter_add _
  rw [remove, hpick, Sweep.loop_zero,
    foldl_forget (fun f hf => hs.size_lt (List.mem_of_mem_filter hf)), Nat.zero_add]
  dsimp only
  rw [Prod.mk.injEq]
  have hsum := sum_others h.toHeaders name
  refine ⟨by omega, ?_⟩
  rw [hs.bytes_eq, hsum, Nat.add_sub_cancel_left]
  rfl

lemma Sound.remove {h : HeaderList} (hs : h.Sound) (name : Bytes) : (h.remove name).2.Sound := by
  have hsum := sum_others h.toHeaders name
  have hsub := others_sublist h.toHeaders name
  have hlen := hsub.length_le
  have hbytes := hs.bytes_eq
  rw [remove_eq hs]
  exact {
    bytes_eq := rfl
    bytes_lt := by
      have := hs.bytes_lt
      dsimp only
      omega
    count := fun hne => hlen.trans (hs.count hne)
    name := fun hne f hf => hs.name hne f (hsub.subset hf)
    value := fun hne f hf => hs.value hne f (hsub.subset hf)
    bytes_le := fun hne => by
      have : h.bytes ≤ h.maxBytes := hs.bytes_le hne
      dsimp only
      omega
    room := hlen.trans hs.room
    storage := hs.storage }

lemma Sound.withCap {h h' : HeaderList} (hs : h.Sound) {granted : Bool}
    (hreserve : h.reserveOne granted = some h') : h'.Sound := by
  obtain ⟨heq, hroom⟩ := reserveOne_some hreserve
  obtain ⟨hlt, hstorage⟩ := hroom hs
  rw [heq]
  exact ⟨hs.bytes_eq, hs.bytes_lt, hs.count, hs.name, hs.value, hs.bytes_le, hlt.le, hstorage⟩

lemma Sound.add {h : HeaderList} (hs : h.Sound) (name value : Bytes) (g : Grants) :
    (h.add name value g).2.Sound := by
  by_cases hall : headerNameValid name = true ∧ headerValueValid value = true ∧
      h.Admits name value g
  · obtain ⟨hn, hv, ha⟩ := hall
    obtain ⟨h', hreserve, hadd⟩ := add_of_admits hn hv ha
    obtain ⟨heq, hroom⟩ := reserveOne_some hreserve
    obtain ⟨hlt, hstorage⟩ := hroom hs
    rw [hadd, heq]
    exact {
      bytes_eq := by
        dsimp only
        rw [List.map_append, List.sum_append, hs.bytes_eq]
        rfl
      bytes_lt := ha.total
      count := fun hne => by
        have := ha.count.resolve_left hne
        simp only [List.length_append, List.length_singleton]
        omega
      name := fun hne f hf => by
        rcases List.mem_append.mp hf with hf | hf
        · exact hs.name hne f hf
        · rw [List.mem_singleton.mp hf]
          exact ha.nameFits.resolve_left hne
      value := fun hne f hf => by
        rcases List.mem_append.mp hf with hf | hf
        · exact hs.value hne f hf
        · rw [List.mem_singleton.mp hf]
          exact ha.valueFits.resolve_left hne
      bytes_le := ha.bytesFit.resolve_left
      room := by
        simp only [List.length_append, List.length_singleton]
        omega
      storage := hstorage }
  · rcases (add_of_refused hall).2 with heq | hreserve
    · rwa [heq]
    · exact hs.withCap hreserve

lemma Sound.set {h : HeaderList} (hs : h.Sound) (name value : Bytes) (g : Grants) :
    (h.set name value g).2.Sound := by
  unfold HeaderList.set
  split_ifs
  · exact (hs.remove name).add name value g
  · exact hs
  · exact hs

lemma sound_initLimited (maxCount maxName maxValue maxBytes : Nat) :
    (initLimited maxCount maxName maxValue maxBytes).Sound :=
  ⟨rfl, Nat.two_pow_pos 64, fun _ => Nat.zero_le _, fun _ _ hf => absurd hf List.not_mem_nil,
    fun _ _ hf => absurd hf List.not_mem_nil, fun _ => Nat.zero_le _, Nat.le_refl 0,
    Nat.two_pow_pos 64⟩

/-- What a set needs for its new field beside validity, once the fields of that name are gone:
the value within its limit, the byte total within its limit and `size_t`, and the two copies. -/
structure Affords (h : Headers) (name value : Bytes) (g : Grants) : Prop where
  valueFits : h.maxValue = 0 ∨ value.length ≤ h.maxValue
  total : ((others h name).map Header.size).sum + (name.length + value.length + 4) < 2 ^ 64
  bytesFit : h.maxBytes = 0 ∨
    ((others h name).map Header.size).sum + (name.length + value.length + 4) ≤ h.maxBytes
  nameCopy : zuhAlloc (name.length + 1) g.name = true
  valueCopy : zuhAlloc (value.length + 1) g.value = true

/-- A set that loses nothing: none of the fields has its name, or it is refused before the
removal, or the new field is affordable after it. -/
def Replaceable (h : Headers) (name value : Bytes) (g : Grants) : Prop :=
  (∃ f ∈ h.items, CaseEq f.name name) → headerNameValid name = true →
    headerValueValid value = true → Affords h name value g

lemma others_eq_of_none {h : Headers} {name : Bytes} (hnone : ¬∃ f ∈ h.items, CaseEq f.name name) :
    others h name = h.items := by
  rw [others, List.filter_eq_self]
  intro f hf
  rw [Bool.not_eq_true', decide_eq_false_iff_not]
  exact fun hname => hnone ⟨f, hf, hname⟩

lemma others_lt_of_some {h : Headers} {name : Bytes} (hsome : ∃ f ∈ h.items, CaseEq f.name name) :
    (others h name).length < h.items.length := by
  obtain ⟨f, hf, hname⟩ := hsome
  refine lt_of_le_of_ne (others_sublist h name).length_le fun heq => ?_
  have hself := (others_sublist h name).eq_of_length heq
  have hmem : f ∈ others h name := hself.symm ▸ hf
  have := List.of_mem_filter hmem
  simp [hname] at this

/-- Where a field goes, neither the number of fields nor the length of the name nor the array
stands in the way of the new one. -/
lemma admits_iff {h : HeaderList} (hs : h.Sound) {name value : Bytes} {g : Grants}
    (hsome : ∃ f ∈ h.items, CaseEq f.name name) :
    (h.remove name).2.Admits name value g ↔ Affords h.toHeaders name value g := by
  rw [remove_eq hs]
  constructor
  · exact fun ha => ⟨ha.valueFits, ha.total, ha.bytesFit, ha.nameCopy, ha.valueCopy⟩
  · intro ha
    have hlt := others_lt_of_some hsome
    obtain ⟨f, hf, hname⟩ := hsome
    have hlen : f.name.length = name.length := by simpa using congrArg List.length hname
    refine ⟨?_, ?_, ha.valueFits, ha.total, ha.bytesFit, ?_, ha.nameCopy, ha.valueCopy⟩
    · rcases Nat.eq_zero_or_pos h.maxCount with h0 | hpos
      · exact .inl h0
      · have := hs.count (by omega)
        exact .inr (by dsimp only; omega)
    · rcases Nat.eq_zero_or_pos h.maxName with h0 | hpos
      · exact .inl h0
      · have := hs.name (by omega) f hf
        exact .inr (by dsimp only; omega)
    · have hroom := hs.room
      rw [reserveOne_of_lt (by dsimp only; omega)]
      rfl

/-- A set that fails changes nothing, or only loses the fields of its name. -/
lemma set_failed {h : HeaderList} {name value : Bytes} {g : Grants}
    (hcode : (h.set name value g).1 ≠ .ok) :
    (h.set name value g).2.toHeaders = h.toHeaders ∨
      (headerNameValid name = true ∧ headerValueValid value = true ∧
        ¬(h.remove name).2.Admits name value g ∧
        (h.set name value g).2.toHeaders = (h.remove name).2.toHeaders) := by
  by_cases hn : headerNameValid name = true
  · by_cases hv : headerValueValid value = true
    · have hset : h.set name value g = (h.remove name).2.add name value g := by
        rw [HeaderList.set, if_pos hn, if_pos hv]
      rw [hset] at hcode ⊢
      refine .inr ⟨hn, hv, fun ha => ?_, add_failed hcode⟩
      obtain ⟨h', -, hadd⟩ := add_of_admits hn hv ha
      rw [hadd] at hcode
      exact hcode rfl
    · rw [HeaderList.set, if_pos hn, if_neg hv]
      exact .inl rfl
  · rw [HeaderList.set, if_neg hn]
    exact .inl rfl

lemma remove_of_none {h : HeaderList} (hs : h.Sound) {name : Bytes}
    (hnone : ¬∃ f ∈ h.items, CaseEq f.name name) : (h.remove name).2 = h := by
  rw [remove_eq hs, others_eq_of_none hnone, ← hs.bytes_eq]

lemma set_of_replaceable {h : HeaderList} (hs : h.Sound) {name value : Bytes} {g : Grants}
    (hrep : Replaceable h.toHeaders name value g) (hcode : (h.set name value g).1 ≠ .ok) :
    (h.set name value g).2.toHeaders = h.toHeaders := by
  rcases set_failed hcode with hsame | ⟨hn, hv, hrefused, heq⟩
  · exact hsame
  · by_cases hsome : ∃ f ∈ h.items, CaseEq f.name name
    · exact absurd ((admits_iff hs hsome).mpr (hrep hsome hn hv)) hrefused
    · rw [heq, remove_of_none hs hsome]

end HeaderList

namespace HeaderOp

open HeaderList

lemma call_sound {h : HeaderList} (hs : h.Sound) (op : HeaderOp) : (op.call h).2.Sound := by
  cases op with
  | add name value g => exact hs.add name value g
  | set name value g => exact hs.set name value g
  | remove name => exact hs.remove name

lemma run_sound {h : HeaderList} (hs : h.Sound) (ops : List HeaderOp) : (run h ops).Sound := by
  induction ops generalizing h with
  | nil => exact hs
  | cons op ops ih => exact ih (call_sound hs op)

/-- A set that fails leaves every list of the code as it was exactly if it was replaceable. -/
theorem set_unchanged_iff (maxCount maxName maxValue maxBytes : Nat) (ops : List HeaderOp)
    (name value : Bytes) (g : Grants) :
    let h := run (initLimited maxCount maxName maxValue maxBytes) ops
    ((h.set name value g).1 ≠ .ok → (h.set name value g).2.toHeaders = h.toHeaders) ↔
      Replaceable h.toHeaders name value g := by
  intro h
  have hs : h.Sound := run_sound (sound_initLimited maxCount maxName maxValue maxBytes) ops
  refine ⟨fun hkeeps hsome hn hv => ?_, set_of_replaceable hs⟩
  by_contra hpoor
  have hrefused : ¬(h.remove name).2.Admits name value g :=
    fun ha => hpoor ((admits_iff hs hsome).mp ha)
  have hset : h.set name value g = (h.remove name).2.add name value g := by
    rw [HeaderList.set, if_pos hn, if_pos hv]
  have hcode : (h.set name value g).1 ≠ .ok := by
    rw [hset]
    exact (add_of_refused fun hall => hrefused hall.2.2).1
  -- the fields of the name are gone
  have hsame := hkeeps hcode
  rw [hset, add_failed (hset ▸ hcode), remove_eq hs] at hsame
  have hlen := congrArg (fun h' : Headers => h'.items.length) hsame
  have hlt := others_lt_of_some hsome
  dsimp only at hlen
  omega

/-- A value over its limit costs the field that it was to replace. -/
theorem set_loses_value :
    let h := run (initLimited 100 256 2 65536) [add (ascii "Accept") (ascii "*") ⟨true, true, true⟩]
    h.fields = [(ascii "Accept", ascii "*")] ∧
      (h.set (ascii "accept") (ascii "a/b") ⟨true, true, true⟩).1 = .bodyLimit ∧
      (h.set (ascii "accept") (ascii "a/b") ⟨true, true, true⟩).2.fields = [] := by
  decide +kernel

/-- What a call does to a plain list of pairs. -/
def plain : HeaderOp → List (Bytes × Bytes) → List (Bytes × Bytes)
  | add name value _, l => l ++ [(name, value)]
  | set name value _, l => l.filter (fun f => !decide (CaseEq f.1 name)) ++ [(name, value)]
  | remove name, l => l.filter (fun f => !decide (CaseEq f.1 name))

def plainRun (l : List (Bytes × Bytes)) (ops : List HeaderOp) : List (Bytes × Bytes) :=
  ops.foldl (fun l op => op.plain l) l

/-- None of the calls is a set that fails after its removal has taken fields away. -/
def Spares (h : HeaderList) : List HeaderOp → Prop
  | [] => True
  | op :: ops =>
    (match op with
      | set name value g => Replaceable h.toHeaders name value g
      | _ => True) ∧ Spares (op.call h).2 ops

lemma fields_others (h : Headers) (name : Bytes) :
    (others h name).map (fun f => (f.name, f.value)) =
      h.fields.filter (fun f => !decide (CaseEq f.1 name)) := by
  rw [Headers.fields, List.filter_map]
  rfl

lemma remove_fields {h : HeaderList} (hs : h.Sound) (name : Bytes) :
    (h.remove name).2.fields = h.fields.filter (fun f => !decide (CaseEq f.1 name)) := by
  rw [remove_eq hs]
  exact fields_others h.toHeaders name

lemma add_fields_of_ok {h : HeaderList} {name value : Bytes} {g : Grants}
    (hcode : (h.add name value g).1 = .ok) :
    (h.add name value g).2.fields = h.fields ++ [(name, value)] := by
  by_cases hall : headerNameValid name = true ∧ headerValueValid value = true ∧
      h.Admits name value g
  · obtain ⟨hn, hv, ha⟩ := hall
    obtain ⟨h', -, hadd⟩ := add_of_admits hn hv ha
    rw [hadd]
    simp only [Headers.fields, List.map_append, List.map_cons, List.map_nil]
  · exact absurd hcode (add_of_refused hall).1

/-- One call: what succeeds is the call on pairs, what fails changes nothing. -/
lemma call_fields {h : HeaderList} (hs : h.Sound) (op : HeaderOp)
    (hspares : Spares h [op]) :
    (op.call h).2.fields = if (op.call h).1 = .ok then op.plain h.fields else h.fields := by
  have hfields : ∀ {h₁ h₂ : HeaderList}, h₁.toHeaders = h₂.toHeaders → h₁.fields = h₂.fields :=
    fun heq => congrArg Headers.fields heq
  cases op with
  | add name value g =>
    split_ifs with hcode
    · exact add_fields_of_ok hcode
    · exact hfields (add_failed hcode)
  | set name value g =>
    split_ifs with hcode
    · change (h.set name value g).1 = .ok at hcode
      unfold HeaderList.set at hcode
      split_ifs at hcode with hn hv
      have hset : h.set name value g = (h.remove name).2.add name value g := by
        rw [HeaderList.set, if_pos hn, if_pos hv]
      change (h.set name value g).2.fields = _
      rw [hset, add_fields_of_ok hcode, remove_fields hs]
      rfl
    · exact hfields (set_of_replaceable hs hspares.1 hcode)
  | remove name => exact remove_fields hs name

lemma add_limits (h : HeaderList) (name value : Bytes) (g : Grants) :
    limits (h.add name value g).2.toHeaders = limits h.toHeaders := by
  by_cases hall : headerNameValid name = true ∧ headerValueValid value = true ∧
      h.Admits name value g
  · obtain ⟨hn, hv, ha⟩ := hall
    obtain ⟨h', hreserve, hadd⟩ := add_of_admits hn hv ha
    rw [hadd, (reserveOne_some hreserve).1]
    rfl
  · rw [add_failed (add_of_refused hall).1]

lemma call_limits (h : HeaderList) (op : HeaderOp) :
    limits (op.call h).2.toHeaders = limits h.toHeaders := by
  cases op with
  | add name value g => exact add_limits h name value g
  | set name value g =>
    change limits (h.set name value g).2.toHeaders = _
    unfold HeaderList.set
    split_ifs
    · exact add_limits (h.remove name).2 name value g
    · rfl
    · rfl
  | remove name => rfl

lemma run_limits (h : HeaderList) (ops : List HeaderOp) :
    limits (run h ops).toHeaders = limits h.toHeaders := by
  induction ops generalizing h with
  | nil => rfl
  | cons op ops ih => exact (ih (op.call h).2).trans (call_limits h op)

lemma run_fields {h : HeaderList} (hs : h.Sound) {ops : List HeaderOp} (hspares : Spares h ops) :
    (run h ops).fields = plainRun h.fields (succeeded h ops) := by
  induction ops generalizing h with
  | nil => rfl
  | cons op ops ih =>
    have hcall := call_fields hs op ⟨hspares.1, trivial⟩
    have hrest := ih (call_sound hs op) hspares.2
    change (run (op.call h).2 ops).fields = _
    rw [hrest, hcall]
    rw [succeeded]
    dsimp only
    split_ifs <;> rfl

/-- The names and values that a list can hold: tokens, and no control byte but HTAB. -/
def WellFormed (f : Bytes × Bytes) : Prop :=
  (f.1 ≠ [] ∧ ∀ c ∈ f.1, isTchar c = true) ∧ ∀ c ∈ f.2, c < 32 ∨ c = 127 → c = 9

lemma wellFormed_of_valid {name value : Bytes} (hname : headerNameValid name = true)
    (hvalue : headerValueValid value = true) : WellFormed (name, value) := by
  obtain ⟨hne, hall⟩ := all_of_headerNameValid hname
  refine ⟨⟨hne, List.all_eq_true.mp hall⟩, fun c hc hctl => ?_⟩
  have hbyte : isFieldByte c = true := List.all_eq_true.mp hvalue c hc
  unfold isFieldByte at hbyte
  by_contra htab
  simp only [Bool.and_eq_true, Bool.not_eq_true', decide_eq_false_iff_not] at hbyte
  exact hctl.elim (fun hlt => hbyte.1.2 ⟨hlt, htab⟩) hbyte.2

/-- From an empty list with any limits, under any answers of the allocator: the accounting is
exact and within the limits, every field is well formed, a failed add changes nothing, and when
no failing set has taken fields away the list is the one the calls that succeeded build. -/
theorem run_refines (maxCount maxName maxValue maxBytes : Nat) (ops : List HeaderOp)
    (hspares : Spares (initLimited maxCount maxName maxValue maxBytes) ops) :
    let h := run (initLimited maxCount maxName maxValue maxBytes) ops
    h.bytes = (h.fields.map (fun f => f.1.length + f.2.length + 4)).sum ∧
      (maxCount ≠ 0 → h.fields.length ≤ maxCount) ∧
      (maxName ≠ 0 → ∀ f ∈ h.fields, f.1.length ≤ maxName) ∧
      (maxValue ≠ 0 → ∀ f ∈ h.fields, f.2.length ≤ maxValue) ∧
      (maxBytes ≠ 0 → h.bytes ≤ maxBytes) ∧
      (∀ f ∈ h.fields, WellFormed f) ∧
      h.fields =
        plainRun [] (succeeded (initLimited maxCount maxName maxValue maxBytes) ops) ∧
      ∀ name value g, (h.add name value g).1 ≠ .ok →
        (h.add name value g).2.toHeaders = h.toHeaders := by
  intro h
  have hinit := sound_initLimited maxCount maxName maxValue maxBytes
  have hs : h.Sound := run_sound hinit ops
  have hlimits : limits h.toHeaders = (maxCount, maxName, maxValue, maxBytes) :=
    run_limits _ ops
  simp only [limits, Prod.mk.injEq] at hlimits
  obtain ⟨hcount, hname, hvalue, hbytes⟩ := hlimits
  have hmem : ∀ p ∈ h.fields, ∃ f ∈ h.items, (f.name, f.value) = p :=
    fun p hp => List.mem_map.mp hp
  refine ⟨?_, ?_, ?_, ?_, ?_, ?_, run_fields hinit hspares, fun _ _ _ => add_failed⟩
  · rw [hs.bytes_eq, Headers.fields, List.map_map]
    rfl
  · rw [Headers.fields, List.length_map, ← hcount]
    exact hs.count
  · intro hne p hp
    obtain ⟨f, hf, rfl⟩ := hmem p hp
    rw [← hname] at hne ⊢
    exact hs.name hne f hf
  · intro hne p hp
    obtain ⟨f, hf, rfl⟩ := hmem p hp
    rw [← hvalue] at hne ⊢
    exact hs.value hne f hf
  · rw [← hbytes]
    exact hs.bytes_le
  · intro p hp
    obtain ⟨f, -, rfl⟩ := hmem p hp
    exact wellFormed_of_valid f.nameValid f.valueValid

theorem run_refines_replaced :
    let ops := [add (ascii "Accept") (ascii "*") ⟨true, true, true⟩,
      set (ascii "accept") (ascii "a/b") ⟨false, true, true⟩,
      add (ascii "X") (ascii "1") ⟨true, false, true⟩]
    (run (initLimited 100 256 8192 65536) ops).fields = [(ascii "accept", ascii "a/b")] := by
  intro ops
  have hspares : Spares (initLimited 100 256 8192 65536) ops := by
    refine ⟨trivial, fun _ _ _ => ?_, trivial, trivial⟩
    exact ⟨by decide +kernel, by decide +kernel, by decide +kernel, by decide +kernel,
      by decide +kernel⟩
  rw [(run_refines 100 256 8192 65536 ops hspares).2.2.2.2.2.2.1]
  decide +kernel

/-- After a set that failed, the list is not the one the successful calls build. -/
theorem run_forgets :
    let h := initLimited 100 256 2 65536
    let ops := [add (ascii "Accept") (ascii "*") ⟨true, true, true⟩,
      set (ascii "accept") (ascii "a/b") ⟨true, true, true⟩]
    plainRun [] (succeeded h ops) = [(ascii "Accept", ascii "*")] ∧ (run h ops).fields = [] := by
  decide +kernel

end HeaderOp

namespace HeaderList

lemma reserveOne_granted {h : HeaderList} (hsmall : h.cap * 64 + 16 < 2 ^ 64) :
    (h.reserveOne true).isSome := by
  unfold reserveOne
  by_cases hlt : h.items.length < h.cap
  · rw [if_pos hlt]
    rfl
  · have hbytes : (if h.cap ≠ 0 then h.cap * 2 % 2 ^ 64 else 8) * 32 + 16 < 2 ^ 64 := by
      split_ifs <;> omega
    have hmul : (if h.cap ≠ 0 then h.cap * 2 % 2 ^ 64 else 8) * itemSize + 16 < 2 ^ 64 := hbytes
    rw [if_neg hlt]
    generalize (if h.cap ≠ 0 then h.cap * 2 % 2 ^ 64 else 8) = cap at hmul ⊢
    dsimp only
    rw [sizeMul, if_pos (by omega)]
    dsimp only
    rw [if_pos (zuhAlloc_iff.mpr ⟨hmul, rfl⟩)]
    rfl

/-- When the allocator refuses nothing that fits `size_t`, the add is the one of the model
without an allocator. -/
theorem add_granted {h : HeaderList} {name value : Bytes} {h' : Headers}
    (hadd : h.toHeaders.add name value = .ok h') (hsmall : h.cap * 64 + 16 < 2 ^ 64)
    (hname : name.length + 17 < 2 ^ 64) (hvalue : value.length + 17 < 2 ^ 64) :
    (h.add name value ⟨true, true, true⟩).1 = .ok ∧
      (h.add name value ⟨true, true, true⟩).2.toHeaders = h' := by
  unfold Headers.add at hadd
  split_ifs at hadd with hn hv hcount hnameLe hvalueLe
  cases hnew : h.newBytes name value with
  | none =>
    rw [hnew] at hadd
    cases hadd
  | some total =>
    rw [hnew] at hadd
    dsimp only at hadd
    split_ifs at hadd with hbytes
    obtain ⟨rfl, htotal⟩ := newBytes_eq_some.mp hnew
    have ha : h.Admits name value ⟨true, true, true⟩ :=
      ⟨by omega, by omega, by omega, htotal, by omega, reserveOne_granted hsmall,
        zuhAlloc_iff.mpr ⟨by omega, rfl⟩, zuhAlloc_iff.mpr ⟨by omega, rfl⟩⟩
    obtain ⟨h₁, hreserve, heq⟩ := add_of_admits hn hv ha
    rw [heq, (reserveOne_some hreserve).1]
    exact ⟨rfl, by cases hadd; rfl⟩

/-- The loop that erases in place is the removal of the model that filters. -/
theorem remove_toHeaders {h : HeaderList} (hs : h.Sound) (name : Bytes) :
    (h.remove name).2.toHeaders = h.toHeaders.remove name := by
  have hleft : others h.toHeaders name =
      h.items.filter (fun f => decide (asciiNcasecmp f.name name ≠ 0)) := by
    refine List.filter_congr fun f _ => ?_
    rw [← decide_not, decide_eq_decide, ne_eq, asciiNcasecmp_eq_zero]
  have hgone : h.toHeaders.named name = h.items.filter (fun f => decide (CaseEq f.name name)) :=
    List.filter_congr fun f _ => decide_eq_decide.mpr (asciiNcasecmp_eq_zero _ _)
  have hbytes : (h.toHeaders.named name).foldl
      (fun b f => b - (f.name.length + f.value.length + 4)) h.bytes =
        ((others h.toHeaders name).map Header.size).sum := by
    have hfold := Sweep.foldl_sub Header.size (h.toHeaders.named name) h.bytes
    have hsum := sum_others h.toHeaders name
    rw [hs.bytes_eq, hgone, hsum, Nat.add_sub_cancel_left] at hfold
    rw [hs.bytes_eq, hgone, hsum]
    exact hfold
  rw [remove_eq hs, Headers.remove, hbytes, ← hleft]

end HeaderList

end Zuhttp
