import Mathlib.Data.List.Forall2
import Mathlib.Data.List.ReduceOption
import Zuhttp.H2Submit
import Zuhttp.Proofs.H2

/-!
# The vector of a request is the one that is meant

While the arrays are filled, the vector stands for the fields passed so far and every copy is
at home in the array of names. So no store leaves its array, what is submitted can be read,
and every copy is freed once.
-/

namespace Zuhttp

namespace H2

open Prog

/-! ### What is meant -/

/-- The fields that belong to a connection, in any letter case. -/
def OfConnection (name : Bytes) : Prop :=
  ∃ n ∈ ["connection", "keep-alive", "proxy-connection", "transfer-encoding", "upgrade", "host"],
    CaseEq name (ascii n)

instance (name : Bytes) : Decidable (OfConnection name) :=
  inferInstanceAs (Decidable (∃ n ∈ _, _))

/-- A field as HTTP/2 sends it. -/
def sentField (f : Header) : Bytes × Bytes := (f.name.map lower, f.value)

def sentFields (fs : List Header) : List (Bytes × Bytes) :=
  (fs.filter (fun f => ¬OfConnection f.name)).map sentField

def pseudoFields (rq : H2Request) : List (Bytes × Bytes) :=
  [(ascii ":method", rq.method), (ascii ":scheme", rq.scheme), (ascii ":authority", rq.authority),
    (ascii ":path", if rq.path ≠ [] then rq.path else ascii "/")]

/-- The vector for a request. -/
def requestVector (rq : H2Request) : List (Bytes × Bytes) :=
  pseudoFields rq ++ sentFields rq.headers.items

/-- A `TE` field that HTTP/2 has no place for. -/
def RefusedTe (rq : H2Request) : Prop :=
  ∃ f ∈ rq.headers.items, CaseEq f.name (ascii "TE") ∧ ¬CaseEq f.value (ascii "trailers")

instance (rq : H2Request) : Decidable (RefusedTe rq) :=
  inferInstanceAs (Decidable (∃ f ∈ _, _))

lemma isConnSpecific_iff (name : Bytes) : isConnSpecific name = true ↔ OfConnection name := by
  have hsame : ∀ s t : String, (ascii s).map lower = (ascii t).map lower →
      (asciiNcasecmp name (ascii s) = 0 ↔ CaseEq name (ascii t)) := by
    intro s t hst
    rw [asciiNcasecmp_eq_zero]
    exact ⟨fun h => Eq.trans h hst, fun h => Eq.trans h hst.symm⟩
  simp only [isConnSpecific, OfConnection, List.any_cons, List.any_nil, Bool.or_false,
    Bool.or_eq_true, decide_eq_true_eq, List.mem_cons, List.not_mem_nil, or_false,
    exists_eq_or_imp, exists_eq_left]
  rw [hsame "Connection" "connection" (by decide), hsame "Keep-Alive" "keep-alive" (by decide),
    hsame "Proxy-Connection" "proxy-connection" (by decide),
    hsame "Transfer-Encoding" "transfer-encoding" (by decide),
    hsame "Upgrade" "upgrade" (by decide), hsame "Host" "host" (by decide)]

lemma badTe_iff (rq : H2Request) : badTe rq = true ↔ RefusedTe rq := by
  simp [badTe, RefusedTe, asciiNcasecmp_eq_zero]

/-- The vector of the model of the driver. -/
lemma block_eq (rq : H2Request) : block rq = requestVector rq := by
  have hfilter : rq.headers.items.filter (fun f => !isConnSpecific f.name) =
      rq.headers.items.filter (fun f => ¬OfConnection f.name) := by
    apply List.filter_congr
    intro f _
    rw [Bool.eq_iff_iff]
    simp [← isConnSpecific_iff]
  have hpath : (if rq.path = [] then ascii "/" else rq.path) =
      if rq.path ≠ [] then rq.path else ascii "/" := by
    by_cases h : rq.path = [] <;> simp [h]
  unfold block requestVector pseudoFields sentFields
  rw [hfilter, hpath]
  rfl

/-! ### Memory while the arrays are filled -/

section Filling

variable {rq : H2Request} {n : Nat} {allocs₀ : List Bool}

/-- The entry is read as this pair. -/
def Reads (rq : H2Request) (copies : List (Option Bytes)) (nv : Nv) (p : Bytes × Bytes) : Prop :=
  nvRead rq copies (some nv) = some p

/-- The names at the first `i` indices are the copies, in their order; none was freed. -/
structure Homed (n i : Nat) (m : NvMemory) : Prop where
  names : ∃ homes : List (Option Nat), homes.length = i ∧
    m.names = some (homes ++ List.replicate (n + 1 - i) none) ∧
    homes.reduceOption = List.range m.copies.length
  live : ∀ c ∈ m.copies, c ≠ none

/-- The vector stands for `v`. -/
structure Filled (rq : H2Request) (n : Nat) (v : List (Bytes × Bytes)) (m : NvMemory) : Prop where
  cells : ∃ filled : List Nv, m.nvN = filled.length ∧
    m.nv = some (filled.map some ++ List.replicate (n + 4 - filled.length) none) ∧
    List.Forall₂ (Reads rq m.copies) filled v

/-- Nothing was submitted, and a refusal of the allocator is one of those it was asked for. -/
structure Unsent (allocs₀ : List Bool) (m : NvMemory) : Prop where
  submitted : m.submitted = []
  allocs : m.allocs <:+ allocs₀

structure Filling (rq : H2Request) (n : Nat) (allocs₀ : List Bool) (i : Nat)
    (v : List (Bytes × Bytes)) (m : NvMemory) : Prop where
  homed : Homed n i m
  filled : Filled rq n v m
  unsent : Unsent allocs₀ m

lemma Homed.skip {i : Nat} {m : NvMemory} (h : Homed n i m) (hi : i ≤ n) :
    Homed n (i + 1) m := by
  obtain ⟨homes, hlen, hnames, hids⟩ := h.names
  have hcells : List.replicate (n + 1 - i) (none : Option Nat) =
      none :: List.replicate (n + 1 - (i + 1)) none := by
    rw [← List.replicate_succ]
    congr 1
    omega
  refine ⟨⟨homes ++ [none], by simp [hlen], ?_, ?_⟩, h.live⟩
  · rw [hnames, hcells, List.append_assoc]
    rfl
  · rw [List.reduceOption_append, hids]
    simp [List.reduceOption]

lemma nvText_append {copies : List (Option Bytes)} {x : Option Bytes} {p : NvName} {s : Bytes}
    (h : nvText copies p = some s) : nvText (copies ++ [x]) p = some s := by
  cases p with
  | fixed t => exact h
  | copy id =>
    unfold nvText at h ⊢
    dsimp only at h ⊢
    cases hat : copies[id]? with
    | none =>
      rw [hat] at h
      cases h
    | some c =>
      have hlt := (List.getElem?_eq_some_iff.mp hat).1
      rw [List.getElem?_append_left hlt, hat]
      rw [hat] at h
      exact h

lemma Reads.append {copies : List (Option Bytes)} {nv : Nv} {p : Bytes × Bytes}
    (h : Reads rq copies nv p) (x : Option Bytes) : Reads rq (copies ++ [x]) nv p := by
  unfold Reads nvRead at h ⊢
  simp only [Option.bind_eq_bind, Option.bind_some] at h ⊢
  cases hname : nvText copies nv.name with
  | none =>
    rw [hname] at h
    cases h
  | some s =>
    rw [hname] at h
    rw [nvText_append hname]
    exact h

/-- Every copy that is there has its index among the names. -/
structure Freeable (n : Nat) (m : NvMemory) : Prop where
  names : ∀ names, m.names = some names → ∃ homes : List (Option Nat), homes.length ≤ n ∧
    names = homes ++ List.replicate (n + 1 - homes.length) none ∧
    homes.reduceOption = List.range m.copies.length
  bare : m.names = none → m.copies = []
  live : ∀ c ∈ m.copies, c ≠ none

/-- An allocation that failed before anything was submitted. -/
def OutOfMemory (n : Nat) (allocs₀ : List Bool) (e : NvEnd) (m : NvMemory) : Prop :=
  e = .nomem ∧ false ∈ allocs₀ ∧ m.submitted = [] ∧ Freeable n m

variable {i : Nat} {v : List (Bytes × Bytes)}

lemma Filling.freeable {m : NvMemory} (h : Filling rq n allocs₀ i v m) (hi : i ≤ n) :
    Freeable n m := by
  obtain ⟨homes, hlen, hnames, hids⟩ := h.homed.names
  refine ⟨fun names h => ⟨homes, hlen.trans_le hi, ?_, hids⟩, fun h => ?_, h.homed.live⟩
  · rw [hnames] at h
    rw [← Option.some.inj h, hlen]
  · rw [hnames] at h
    cases h

lemma Filling.homed_le {m : NvMemory} (h : Filling rq n allocs₀ i v m) (hi : i ≤ n) :
    Filling rq n allocs₀ (i + 1) v m := ⟨h.homed.skip hi, h.filled, h.unsent⟩

lemma nvAlloc_exec (m : NvMemory) : ∃ ok rest,
    exec nvAlloc m = (.ok ok, { m with allocs := rest }) ∧ rest <:+ m.allocs ∧
      (ok = false → false ∈ m.allocs) := by
  unfold nvAlloc
  rw [exec_bind_ok (exec_get m)]
  cases hallocs : m.allocs with
  | nil => exact ⟨true, m.allocs, rfl, hallocs ▸ List.suffix_refl _, fun h => by cases h⟩
  | cons ok allocs =>
    refine ⟨ok, allocs, rfl, List.suffix_cons ok allocs, ?_⟩
    rintro rfl
    exact List.mem_cons_self

lemma nvAlloc_fills : Triple (Filling rq n allocs₀ i v) nvAlloc
    (fun ok m => Filling rq n allocs₀ i v m ∧ (ok = false → false ∈ allocs₀))
    (fun _ _ => False) := by
  intro m hm
  obtain ⟨ok, rest, hexec, hrest, hfalse⟩ := nvAlloc_exec m
  rw [hexec]
  exact ⟨⟨⟨hm.homed.names, hm.homed.live⟩, ⟨hm.filled.cells⟩,
    ⟨hm.unsent.submitted, hrest.trans hm.unsent.allocs⟩⟩,
    fun h => hm.unsent.allocs.subset (hfalse h)⟩

lemma nvPush_fills {name : NvName} {value : NvValue} {p : Bytes × Bytes}
    (hroom : v.length < n + 4) :
    Triple (fun m => Filling rq n allocs₀ i v m ∧ Reads rq m.copies ⟨name, value⟩ p)
      (nvPush name value) (fun _ => Filling rq n allocs₀ i (v ++ [p])) (fun _ _ => False) := by
  rintro m ⟨hm, hreads⟩
  obtain ⟨filled, hcount, hcells, hall⟩ := hm.filled.cells
  have hlen : filled.length < n + 4 := by rwa [hall.length_eq]
  have hnext : List.replicate (n + 4 - filled.length) (none : Option Nv) =
      none :: List.replicate (n + 4 - (filled ++ [Nv.mk name value]).length) none := by
    rw [← List.replicate_succ]
    congr 1
    simp only [List.length_append, List.length_singleton]
    omega
  have hstore : (filled.map some ++ List.replicate (n + 4 - filled.length) none).set filled.length
      (some (Nv.mk name value)) = (filled ++ [Nv.mk name value]).map some ++
        List.replicate (n + 4 - (filled ++ [Nv.mk name value]).length) none := by
    rw [hnext, List.set_append_right _ _ (by simp), List.length_map, Nat.sub_self,
      List.set_cons_zero, List.map_append, List.append_assoc]
    rfl
  unfold nvPush
  rw [exec_bind_ok (exec_get m), hcells, hcount]
  have hin : filled.length <
      (filled.map some ++ List.replicate (n + 4 - filled.length) none).length := by
    simp only [List.length_append, List.length_map, List.length_replicate]
    omega
  simp only [storeAt, if_pos hin, hstore]
  refine ⟨⟨hm.homed.names, hm.homed.live⟩, ⟨filled ++ [Nv.mk name value], ?_, rfl, ?_⟩,
    ⟨hm.unsent.submitted, hm.unsent.allocs⟩⟩
  · simp
  · exact List.rel_append hall (.cons hreads .nil)

lemma lower_eq_zero (c : UInt8) : lower c = 0 ↔ c = 0 := by
  unfold lower
  split_ifs with hupper
  · constructor
    · intro h
      rw [← UInt8.toNat_inj] at h
      simp only [UInt8.le_iff_toNat_le, UInt8.toNat_ofNat] at hupper
      simp only [UInt8.toNat_add, UInt8.toNat_ofNat] at h
      omega
    · rintro rfl
      exact absurd hupper (by decide)
  · rfl

/-- The copy is the name up to its NUL. -/
lemma copy_text {name : Bytes} (hname : 0 ∉ name) :
    ((name ++ [0]).map lower).takeWhile (· ≠ 0) = name.map lower := by
  have hkeep : ∀ c ∈ name.map lower, decide (c ≠ 0) = true := by
    intro c hc
    obtain ⟨d, hd, rfl⟩ := List.mem_map.mp hc
    simp only [decide_eq_true_eq, ne_eq, lower_eq_zero]
    rintro rfl
    exact hname hd
  have hend : [0].map lower = [(0 : UInt8)] := by decide
  rw [List.map_append, hend, List.takeWhile_append_of_pos hkeep]
  simp

lemma nvName_fills {name : Bytes} (hname : 0 ∉ name) (hi : i < n) :
    Triple (Filling rq n allocs₀ i v) (nvName i name)
      (fun id m => Filling rq n allocs₀ (i + 1) v m ∧
        nvText m.copies (.copy id) = some (name.map lower))
      (OutOfMemory n allocs₀) := by
  unfold nvName
  refine Triple.bind (nvAlloc_fills.conseq (fun _ h => h) (fun _ _ h => h) (fun _ _ h => h.elim))
    (fun ok => ?_)
  cases ok with
  | false =>
    rintro m ⟨hm, hfalse⟩
    exact ⟨rfl, hfalse rfl, hm.unsent.submitted, hm.freeable hi.le⟩
  | true =>
    rintro m ⟨hm, -⟩
    obtain ⟨homes, hlen, hnames, hids⟩ := hm.homed.names
    have hnext : List.replicate (n + 1 - i) (none : Option Nat) =
        none :: List.replicate (n + 1 - (i + 1)) none := by
      rw [← List.replicate_succ]
      congr 1
      omega
    have hstore : (homes ++ List.replicate (n + 1 - i) none).set i (some m.copies.length) =
        (homes ++ [some m.copies.length]) ++ List.replicate (n + 1 - (i + 1)) none := by
      rw [hnext, List.set_append_right _ _ hlen.le, hlen, Nat.sub_self, List.set_cons_zero,
        List.append_assoc]
      rfl
    have hin : i < (homes ++ List.replicate (n + 1 - i) none).length := by
      simp only [List.length_append, List.length_replicate]
      omega
    rw [if_pos rfl, exec_bind_ok (exec_get m), hnames]
    simp only [storeAt, if_pos hin, hstore]
    obtain ⟨filled, hcount, hcells, hall⟩ := hm.filled.cells
    refine ⟨⟨⟨⟨homes ++ [some m.copies.length], by simp [hlen], rfl, ?_⟩, ?_⟩,
      ⟨filled, hcount, hcells, ?_⟩, ⟨hm.unsent.submitted, hm.unsent.allocs⟩⟩, ?_⟩
    · rw [List.reduceOption_append, hids, List.length_append, List.length_singleton,
        List.range_succ]
      rfl
    · intro c hc
      rcases List.mem_append.mp hc with hc | hc
      · exact hm.homed.live c hc
      · rw [List.mem_singleton.mp hc]
        exact Option.some_ne_none _
    · exact hall.imp (fun _ _ hreads => hreads.append _)
    · change nvText (m.copies ++ [some ((name ++ [0]).map lower)]) (.copy m.copies.length) = _
      have hat : (m.copies ++ [some ((name ++ [0]).map lower)])[m.copies.length]? =
          some (some ((name ++ [0]).map lower)) := by
        rw [List.getElem?_append_right le_rfl, Nat.sub_self, List.getElem?_cons_zero]
      unfold nvText
      simp only [hat]
      rw [copy_text hname]

lemma nvArrays_fills : Triple (fun m => m = { allocs := allocs₀ }) (nvArrays n)
    (fun _ => Filling rq n allocs₀ 0 []) (OutOfMemory n allocs₀) := by
  rintro m rfl
  obtain ⟨nvOk, rest, hnv, hrest, hnvFalse⟩ := nvAlloc_exec { allocs := allocs₀ }
  obtain ⟨namesOk, rest', hnames, hrest', hnamesFalse⟩ := nvAlloc_exec { allocs := rest }
  have hsuffix : rest' <:+ allocs₀ := hrest'.trans hrest
  have hfalse : nvOk = false ∨ namesOk = false → false ∈ allocs₀ := by
    rintro (h | h)
    · exact hnvFalse h
    · exact hrest.subset (hnamesFalse h)
  unfold nvArrays
  rw [exec_bind_ok hnv, exec_bind_ok hnames, exec_bind_ok (exec_modify _ _)]
  cases nvOk <;> cases namesOk
  · exact ⟨rfl, hfalse (Or.inl rfl), rfl, fun _ h => (by cases h), fun _ => rfl, by simp⟩
  · refine ⟨rfl, hfalse (Or.inl rfl), rfl, fun names h => ?_, fun _ => rfl, by simp⟩
    cases h
    exact ⟨[], Nat.zero_le n, rfl, rfl⟩
  · exact ⟨rfl, hfalse (Or.inr rfl), rfl, fun _ h => (by cases h), fun _ => rfl, by simp⟩
  · exact ⟨⟨⟨[], rfl, rfl, rfl⟩, by simp⟩, ⟨[], rfl, rfl, .nil⟩, rfl, hsuffix⟩

lemma nvPseudo_fills : Triple (Filling rq n allocs₀ 0 []) (nvPseudo rq)
    (fun _ => Filling rq n allocs₀ 0 (pseudoFields rq)) (OutOfMemory n allocs₀) := by
  unfold nvPseudo
  have hread : ∀ (s : Bytes) (value : NvValue) (b : Bytes), nvBytes rq value = some b →
      ∀ copies, Reads rq copies ⟨.fixed s, value⟩ (s, b) := by
    intro s value b hvalue copies
    simp [Reads, nvRead, nvText, hvalue]
  have hpath : nvBytes rq (if rq.path ≠ [] then .path else .slash) =
      some (if rq.path ≠ [] then rq.path else ascii "/") := by
    split_ifs <;> rfl
  refine Triple.bind ((nvPush_fills (p := (ascii ":method", rq.method)) (by simp)).conseq
    (fun m hm => ⟨hm, hread _ .method _ rfl _⟩) (fun _ _ h => h) (fun _ _ h => h.elim))
    (fun _ => ?_)
  refine Triple.bind ((nvPush_fills (p := (ascii ":scheme", rq.scheme)) (by simp)).conseq
    (fun m hm => ⟨hm, hread _ .scheme _ rfl _⟩) (fun _ _ h => h) (fun _ _ h => h.elim))
    (fun _ => ?_)
  refine Triple.bind ((nvPush_fills (p := (ascii ":authority", rq.authority)) (by simp)).conseq
    (fun m hm => ⟨hm, hread _ .authority _ rfl _⟩) (fun _ _ h => h) (fun _ _ h => h.elim))
    (fun _ => ?_)
  exact (nvPush_fills (p := (ascii ":path", if rq.path ≠ [] then rq.path else ascii "/"))
    (by simp)).conseq (fun m hm => ⟨hm, hread _ _ _ hpath _⟩) (fun _ _ h => h)
    (fun _ _ h => h.elim)

lemma name_no_nul (f : Header) : 0 ∉ f.name := by
  intro hin
  have hvalid := f.nameValid
  unfold headerNameValid at hvalid
  rw [Bool.and_eq_true, List.all_eq_true] at hvalid
  exact absurd (hvalid.2 0 hin) (by decide)

lemma sentFields_snoc (fs : List Header) (f : Header) : sentFields (fs ++ [f]) =
    if OfConnection f.name then sentFields fs else sentFields fs ++ [sentField f] := by
  unfold sentFields
  by_cases h : OfConnection f.name <;> simp [List.filter_append, h]

lemma sentFields_length (fs : List Header) : (sentFields fs).length ≤ fs.length := by
  unfold sentFields
  rw [List.length_map]
  exact List.length_filter_le _ _

lemma nvFields_fills (fs passed : List Header) (hitems : rq.headers.items = passed ++ fs)
    (hn : n = rq.headers.items.length) :
    Triple (Filling rq n allocs₀ passed.length (pseudoFields rq ++ sentFields passed))
      (nvFields passed.length fs) (fun _ => Filling rq n allocs₀ n (requestVector rq))
      (OutOfMemory n allocs₀) := by
  induction fs generalizing passed with
  | nil =>
    rw [List.append_nil] at hitems
    have hlen : passed.length = n := by rw [hn, hitems]
    refine Triple.pure (fun m hm => ?_)
    rw [requestVector, hitems]
    rwa [hlen] at hm
  | cons f fs ih =>
    have hnext : rq.headers.items = (passed ++ [f]) ++ fs := by simp [hitems]
    have hrest := ih (passed ++ [f]) hnext
    rw [sentFields_snoc, List.length_append, List.length_singleton] at hrest
    have hlt : passed.length < n := by
      rw [hn, hitems, List.length_append, List.length_cons]
      omega
    unfold nvFields
    refine Triple.ite (fun hspecific => ?_) (fun hspecific => ?_)
    · rw [if_pos ((isConnSpecific_iff _).mp hspecific)] at hrest
      exact hrest.conseq (fun m hm => hm.homed_le hlt.le) (fun _ _ h => h) (fun _ _ h => h)
    · rw [if_neg (fun h => hspecific ((isConnSpecific_iff _).mpr h)), ← List.append_assoc]
        at hrest
      refine Triple.bind (nvName_fills (name_no_nul f) hlt) (fun id => ?_)
      refine Triple.bind ((nvPush_fills (p := sentField f) ?_).conseq (fun m hm => ⟨hm.1, ?_⟩)
        (fun _ _ h => h) (fun _ _ h => h.elim)) (fun _ => hrest)
      · have hlen := sentFields_length passed
        simp only [List.length_append, pseudoFields, List.length_cons, List.length_nil]
        omega
      · have hvalue : nvBytes rq (.field passed.length) = some f.value := by
          simp [nvBytes, hitems]
        simp [Reads, nvRead, hm.2, hvalue, sentField]

lemma mapM_of_forall₂ {α β : Type} {f : α → Option β} {as : List α} {bs : List β}
    (h : List.Forall₂ (fun a b => f a = some b) as bs) : as.mapM f = some bs := by
  induction h with
  | nil => rfl
  | cons hab _ ih => rw [List.mapM_cons, hab, ih]; rfl

lemma nvSubmit_sends : Triple (Filling rq n allocs₀ n v) (nvSubmit rq)
    (fun _ m => m.submitted = [v] ∧ Freeable n m) (OutOfMemory n allocs₀) := by
  intro m hm
  obtain ⟨filled, hcount, hcells, hall⟩ := hm.filled.cells
  have hread : (filled.map some).mapM (nvRead rq m.copies) = some v :=
    mapM_of_forall₂ (List.forall₂_map_left_iff.mpr hall)
  have htake : (filled.map some ++ List.replicate (n + 4 - filled.length) (none : Option Nv)).take
      filled.length = filled.map some := by
    rw [List.take_append_of_le_length (by simp), List.take_of_length_le (by simp)]
  unfold nvSubmit
  rw [exec_bind_ok (exec_get m), hcells]
  dsimp only
  rw [hcount, if_pos (by simp), htake, hread]
  have hfree := hm.freeable le_rfl
  exact ⟨by simp [hm.unsent.submitted], ⟨hfree.names, hfree.bare, hfree.live⟩⟩

end Filling

/-! ### The clean-up -/

section Free

variable {n : Nat} {sent : List (List (Bytes × Bytes))}

/-- The first `k` of `count` copies were freed. -/
structure Freed (sent : List (List (Bytes × Bytes))) (count k : Nat) (m : NvMemory) : Prop where
  submitted : m.submitted = sent
  size : m.copies.length = count
  gone : ∀ j < k, m.copies[j]? = some none
  live : ∀ j, k ≤ j → j < count → ∃ s, m.copies[j]? = some (some s)

lemma Freed.next {count k : Nat} {m : NvMemory} (h : Freed sent count k m) (hk : k < count) :
    Freed sent count (k + 1) { m with copies := m.copies.set k none } := by
  have hlen : k < m.copies.length := by rw [h.size]; exact hk
  refine ⟨h.submitted, by simp [h.size], fun j hj => ?_, fun j hj hlt => ?_⟩
  · by_cases hjk : k = j
    · subst hjk
      simp [hlen]
    · simp only [List.getElem?_set_ne hjk]
      exact h.gone j (by omega)
  · simp only [List.getElem?_set_ne (Nat.ne_of_lt hj)]
    exact h.live j (by omega) hlt

lemma nvFreeNames_frees (names : List (Option Nat)) (count k : Nat)
    (hids : names.reduceOption = List.range' k (count - k)) (hk : k ≤ count) :
    Triple (Freed sent count k) (nvFreeNames names) (fun _ => Freed sent count count)
      (fun _ _ => False) := by
  induction names generalizing k with
  | nil =>
    have hall : k = count := by
      have hlen := congrArg List.length hids
      rw [List.length_range'] at hlen
      simp only [List.reduceOption_nil, List.length_nil] at hlen
      omega
    rw [hall]
    exact Triple.pure (fun _ h => h)
  | cons id names ih =>
    cases id with
    | none => exact ih k (by simpa using hids) hk
    | some id =>
      rw [List.reduceOption_cons_of_some] at hids
      have hlt : k < count := by
        by_contra hge
        rw [Nat.sub_eq_zero_of_le (by omega)] at hids
        cases hids
      have hsucc : count - k = (count - (k + 1)) + 1 := by omega
      rw [hsucc, List.range'_succ, List.cons.injEq] at hids
      obtain ⟨rfl, hids⟩ := hids
      intro m hm
      obtain ⟨s, hs⟩ := hm.live id le_rfl hlt
      unfold nvFreeNames
      rw [exec_bind_ok (exec_get m), hs]
      exact ih (id + 1) hids hlt _ (hm.next hlt)

/-- Nothing is left of what was allocated. -/
structure Released (sent : List (List (Bytes × Bytes))) (m : NvMemory) : Prop where
  submitted : m.submitted = sent
  copies : ∀ c ∈ m.copies, c = none
  nv : m.nv = none
  names : m.names = none

lemma nvFree_frees : Triple (fun m => m.submitted = sent ∧ Freeable n m) (nvFree n)
    (fun _ => Released sent) (fun _ _ => False) := by
  rintro m ⟨hsent, hm⟩
  unfold nvFree
  rw [exec_bind_ok (exec_get m)]
  cases hnames : m.names with
  | none =>
    exact ⟨hsent, by simp [hm.bare hnames], rfl, rfl⟩
  | some names =>
    obtain ⟨homes, hle, rfl, hids⟩ := hm.names names hnames
    have htake : (homes ++ List.replicate (n + 1 - homes.length) none).take n =
        homes ++ List.replicate (n - homes.length) none := by
      rw [List.take_append, List.take_of_length_le hle, List.take_replicate]
      congr 2
      omega
    have hreduce : (homes ++ List.replicate (n - homes.length) (none : Option Nat)).reduceOption =
        List.range' 0 (m.copies.length - 0) := by
      rw [List.reduceOption_append, hids, List.reduceOption_replicate_none, List.append_nil,
        List.range_eq_range', Nat.sub_zero]
    have hstart : Freed sent m.copies.length 0 m := by
      refine ⟨hsent, rfl, fun j hj => absurd hj (Nat.not_lt_zero j), fun j _ hlt => ?_⟩
      have hlive := hm.live _ (List.getElem_mem hlt)
      obtain ⟨s, hs⟩ := Option.ne_none_iff_exists'.mp hlive
      exact ⟨s, by rw [List.getElem?_eq_getElem hlt, hs]⟩
    have hfrees := nvFreeNames_frees _ m.copies.length 0 hreduce (Nat.zero_le _) m hstart
    dsimp only
    rw [if_pos (by simp; omega), htake, exec_bind]
    revert hfrees
    cases exec (nvFreeNames (homes ++ List.replicate (n - homes.length) none)) m with
    | mk r t =>
      cases r with
      | error e => exact fun h => h.elim
      | ok a =>
        intro h
        refine ⟨h.submitted, fun c hc => ?_, rfl, rfl⟩
        obtain ⟨j, hj, rfl⟩ := List.mem_iff_getElem.mp hc
        have hgone := h.gone j (h.size ▸ hj)
        rw [List.getElem?_eq_getElem hj] at hgone
        exact Option.some.inj hgone

end Free

/-! ### The request -/

/-- How the call ends, and what was submitted until then. -/
inductive Submission (rq : H2Request) (allocs : List Bool) :
    Except NvEnd Unit → List (List (Bytes × Bytes)) → Prop
  | refused (hte : RefusedTe rq) : Submission rq allocs (.error .refused) []
  | nomem (hte : ¬RefusedTe rq) (halloc : false ∈ allocs) : Submission rq allocs (.error .nomem) []
  | sent (hte : ¬RefusedTe rq) : Submission rq allocs (.ok ()) [requestVector rq]

lemma build_sends (rq : H2Request) (allocs : List Bool) :
    Triple (fun m => m = { allocs := allocs })
      (do
        nvArrays rq.headers.items.length
        nvPseudo rq
        nvFields 0 rq.headers.items
        nvSubmit rq)
      (fun _ m => m.submitted = [requestVector rq] ∧ Freeable rq.headers.items.length m)
      (OutOfMemory rq.headers.items.length allocs) := by
  have hfields : Triple (Filling rq rq.headers.items.length allocs 0 (pseudoFields rq))
      (nvFields 0 rq.headers.items)
      (fun _ => Filling rq rq.headers.items.length allocs rq.headers.items.length
        (requestVector rq))
      (OutOfMemory rq.headers.items.length allocs) :=
    nvFields_fills rq.headers.items [] rfl rfl
  exact nvArrays_fills.bind (fun _ => nvPseudo_fills.bind (fun _ => hfields.bind
    (fun _ => nvSubmit_sends)))

/-- The clean-up keeps the end of the call. -/
lemma nvFree_exec {n : Nat} {m : NvMemory} (h : Freeable n m) :
    ∃ m', exec (nvFree n) m = (.ok (), m') ∧ Released m.submitted m' := by
  have hfree := nvFree_frees m ⟨rfl, h⟩
  cases hrun : exec (nvFree n) m with
  | mk r m' =>
    rw [hrun] at hfree
    cases r with
    | error e => exact hfree.elim
    | ok _ => exact ⟨m', rfl, hfree⟩

lemma submitVector_run (rq : H2Request) (allocs : List Bool) :
    let run := exec (submitVector rq) { allocs := allocs }
    Submission rq allocs run.1 run.2.submitted ∧ Released run.2.submitted run.2 := by
  by_cases hte : RefusedTe rq
  · unfold submitVector
    rw [if_pos ((badTe_iff rq).mpr hte)]
    exact ⟨.refused hte, rfl, fun _ hc => (by cases hc), rfl, rfl⟩
  · unfold submitVector
    rw [if_neg (fun h => hte ((badTe_iff rq).mp h))]
    have hends := build_sends rq allocs _ rfl
    rw [exec_bind, exec_attempt]
    cases hrun : exec (do
        nvArrays rq.headers.items.length
        nvPseudo rq
        nvFields 0 rq.headers.items
        nvSubmit rq) { allocs := allocs } with
    | mk r m =>
      rw [hrun] at hends
      cases r with
      | ok _ =>
        obtain ⟨hsent, hfreeable⟩ := hends
        obtain ⟨m', hfree, hreleased⟩ := nvFree_exec hfreeable
        dsimp only
        rw [exec_bind_ok hfree]
        rw [hsent] at hreleased
        exact ⟨hreleased.submitted ▸ .sent hte, hreleased.submitted.symm ▸ hreleased⟩
      | error e =>
        obtain ⟨rfl, halloc, hsent, hfreeable⟩ := hends
        obtain ⟨m', hfree, hreleased⟩ := nvFree_exec hfreeable
        dsimp only
        rw [exec_bind_ok hfree]
        rw [hsent] at hreleased
        exact ⟨hreleased.submitted ▸ .nomem hte halloc, hreleased.submitted.symm ▸ hreleased⟩

/-! ### The driver -/

lemma submitted_lasts (s : List (List (Bytes × Bytes))) :
    Lasting (fun h => h.submitted = s) :=
  ⟨fun h e hh => (callback_untouched h e).submitted.trans hh, fun _ _ _ _ hh => hh⟩

lemma wait_submitted (h : H2) (n : Nat) :
    (Loop.iterate beginStep H2.headersDone n h).1.submitted = h.submitted :=
  Loop.iterate_keeps (beginStep_lasts (submitted_lasts h.submitted)) rfl n

/-- What `zuh_h2_begin` gives nghttp2, however it ends. -/
lemma begin_submitted (h : H2) (rq : H2Request) (hdrs : Headers) :
    (h.begin rq hdrs).1.submitted =
      if h.failed ∨ ¬h.allowed ∨ RefusedTe rq then h.submitted
      else h.submitted ++ [requestVector rq] := by
  by_cases hshut : h.failed ∨ ¬h.allowed
  · have hany : h.failed ∨ ¬h.allowed ∨ RefusedTe rq := by tauto
    unfold H2.begin
    rw [if_pos hshut, if_pos hany]
  · by_cases hte : RefusedTe rq
    · have hany : h.failed ∨ ¬h.allowed ∨ RefusedTe rq := by tauto
      unfold H2.begin
      rw [if_neg hshut, if_pos ((badTe_iff rq).mpr hte), if_pos hany]
    · have hnone : ¬(h.failed ∨ ¬h.allowed ∨ RefusedTe rq) := by tauto
      unfold H2.begin
      rw [if_neg hshut, if_neg (fun hbad => hte ((badTe_iff rq).mp hbad)), if_neg hnone,
        ← block_eq]
      dsimp only
      split
      · rfl
      · split
        · rfl
        · split
          · exact wait_submitted _ _
          · exact wait_submitted _ _

theorem request_vector_exact (rq : H2Request) :
    (∀ allocs : List Bool, let run := exec (submitVector rq) { allocs := allocs }
      Submission rq allocs run.1 run.2.submitted ∧ Released run.2.submitted run.2) ∧
    ∀ (h : H2) (hdrs : Headers), (h.begin rq hdrs).1.submitted =
      if h.failed ∨ ¬h.allowed ∨ RefusedTe rq then h.submitted
      else h.submitted ++ [requestVector rq] :=
  ⟨submitVector_run rq, fun h hdrs => begin_submitted h rq hdrs⟩

end H2

end Zuhttp
