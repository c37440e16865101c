import Zuhttp.Alpn
import Zuhttp.Library.Cut
import Zuhttp.Library.Prefixed

/-!
# What is put on the wire

The loop reads the names between the commas, but for an empty one behind a last comma.
-/

namespace Zuhttp

open Cut (splitOn)

/-- Names that have an encoding. -/
def AlpnNames (names : List Bytes) : Prop := ∀ name ∈ names, name ≠ [] ∧ name.length ≤ 255

/-- What the contract says of a list that is written into `cap` bytes. -/
structure AlpnHolds (list out : Bytes) (cap : Nat) : Prop where
  accepts : (alpnWire list out cap).2 ≠ 0 ↔ list ≠ [] ∧ AlpnNames (splitOn 44 list) ∧
    (Prefixed.text (splitOn 44 list)).length ≤ cap
  reads : (alpnWire list out cap).2 ≠ 0 →
    Prefixed.read ((alpnWire list out cap).1.take (alpnWire list out cap).2) =
      some (splitOn 44 list)
  confined : (alpnWire list out cap).1.length = out.length ∧
    (alpnWire list out cap).1.drop cap = out.drop cap

/-- A list that would be written, and a comma behind it. -/
def AlpnTrailing (list : Bytes) (cap : Nat) : Prop :=
  ∃ front, list = front ++ [44] ∧ front ≠ [] ∧ AlpnNames (splitOn 44 front) ∧
    (Prefixed.text (splitOn 44 front)).length ≤ cap

/-! ### The names the loop finds -/

def alpnFound (p : Bytes) : List Bytes :=
  if (splitOn 44 p).getLast? = some [] then (splitOn 44 p).dropLast else splitOn 44 p

lemma alpnFound_nil : alpnFound [] = [] := rfl

lemma alpnFound_turn {p : Bytes} (hp : p ≠ []) :
    alpnFound p = p.takeWhile (· ≠ 44) :: alpnFound (p.dropWhile (· ≠ 44)).tail := by
  have hsplit := List.takeWhile_append_dropWhile (p := (· ≠ 44)) (l := p)
  have hname : 44 ∉ p.takeWhile (· ≠ 44) := fun h => by simpa using List.mem_takeWhile_imp h
  cases hrest : p.dropWhile (· ≠ 44) with
  | nil =>
    rw [hrest, List.append_nil] at hsplit
    rw [hsplit] at hname ⊢
    rw [List.tail_nil, alpnFound_nil, alpnFound, Cut.splitOn_of_notMem hname, if_neg]
    simpa using hp
  | cons c r =>
    have hc : c = 44 := by
      have hstop := List.head?_dropWhile_not (· ≠ 44) p
      rw [hrest] at hstop
      simpa using hstop
    have hwhole : splitOn 44 p = p.takeWhile (· ≠ 44) :: splitOn 44 r := by
      rw [hrest, hc] at hsplit
      conv_lhs => rw [← hsplit]
      exact Cut.splitOn_append hname r
    obtain ⟨q, l, hl⟩ := List.exists_cons_of_ne_nil (Cut.splitOn_ne_nil 44 r)
    rw [List.tail_cons, alpnFound, alpnFound, hwhole, hl, List.getLast?_cons_cons,
      List.dropLast_cons_cons]
    split_ifs <;> rfl

lemma alpnFound_comma (front : Bytes) : alpnFound (front ++ [44]) = splitOn 44 front := by
  have hsplit : splitOn 44 (front ++ [44]) = splitOn 44 front ++ [[]] :=
    Cut.splitOn_join 44 front []
  rw [alpnFound, hsplit, if_pos (by simp), List.dropLast_concat]

/-- Without a last comma these are all names. -/
lemma alpnFound_all {p : Bytes} (hp : p ≠ []) (hlast : p.getLast? ≠ some 44) :
    alpnFound p = splitOn 44 p := by
  rw [alpnFound, if_neg]
  intro h
  exact (Cut.getLast?_of_splitOn h).elim hp hlast

/-! ### The loop -/

/-- The names are valid and there is room for them behind the first `n` bytes. -/
def AlpnFits (cap n : Nat) (names : List Bytes) : Prop :=
  AlpnNames names ∧ n + (Prefixed.text names).length ≤ cap

lemma alpnFits_cons {cap n : Nat} {name : Bytes} {names : List Bytes} :
    AlpnFits cap n (name :: names) ↔
      (name ≠ [] ∧ name.length ≤ 255) ∧ AlpnFits cap (n + 1 + name.length) names := by
  unfold AlpnFits AlpnNames
  rw [List.forall_mem_cons, Prefixed.text_cons, List.length_append, List.length_cons, and_assoc]
  have hsum : n + (name.length + 1 + (Prefixed.text names).length) =
      n + 1 + name.length + (Prefixed.text names).length := by omega
  rw [hsum]

lemma alpnLoop_nil (cap fuel n : Nat) (out : Bytes) : alpnLoop cap fuel [] out n = (out, n) := by
  cases fuel <;> rfl

/-- What a turn of the loop takes off the list. -/
lemma alpn_shorter {p : Bytes} (hname : p.takeWhile (· ≠ 44) ≠ []) :
    (p.dropWhile (· ≠ 44)).tail.length < p.length ∧
      (p.takeWhile (· ≠ 44)).length ≤ p.length ∧
      ((p.dropWhile (· ≠ 44)).tail ≠ [] →
        (p.takeWhile (· ≠ 44)).length + 1 + (p.dropWhile (· ≠ 44)).tail.length = p.length) := by
  have hsum := congrArg List.length (List.takeWhile_append_dropWhile (p := (· ≠ 44)) (l := p))
  have hpos := List.length_pos_iff.mpr hname
  rw [List.length_append] at hsum
  rw [List.length_tail]
  refine ⟨by omega, by omega, fun hne => ?_⟩
  have hrest := List.length_pos_iff.mpr hne
  rw [List.length_tail] at hrest
  omega

/-- What a run of the loop over `p` does: it writes the names it finds or returns 0, and stays
within the room. -/
structure AlpnRun (cap n : Nat) (p out : Bytes) (r : Bytes × Nat) : Prop where
  fits : AlpnFits cap n (alpnFound p) →
    r = (Memory.store out n (Prefixed.text (alpnFound p)),
      n + (Prefixed.text (alpnFound p)).length)
  refused : ¬AlpnFits cap n (alpnFound p) → r.2 = 0
  size : r.1.length = out.length
  behind : r.1.drop cap = out.drop cap

lemma alpnRun_nil {cap n : Nat} (hn : n ≤ cap) (fuel : Nat) (out : Bytes) :
    AlpnRun cap n [] out (alpnLoop cap fuel [] out n) := by
  rw [alpnLoop_nil]
  refine ⟨fun _ => ?_, fun h => absurd ⟨?_, hn⟩ h, rfl, rfl⟩
  · rw [alpnFound_nil, Prefixed.text_nil, Memory.store_nil]
    rfl
  · rintro name ⟨⟩

lemma alpnLoop_spec {cap fuel n : Nat} {p out : Bytes} (hfuel : p.length ≤ fuel) (hn : n ≤ cap)
    (hcap : cap ≤ out.length) (hsize : p ≠ [] → n + p.length + 1 < 2 ^ 64) :
    AlpnRun cap n p out (alpnLoop cap fuel p out n) := by
  induction fuel generalizing p out n with
  | zero =>
    rw [List.length_eq_zero_iff.mp (Nat.le_zero.mp hfuel)]
    exact alpnRun_nil hn _ _
  | succ fuel ih =>
    by_cases hp : p = []
    · rw [hp]
      exact alpnRun_nil hn _ _
    obtain ⟨c, q, hq⟩ := List.exists_cons_of_ne_nil hp
    have hturn : alpnLoop cap (fuel + 1) p out n =
        if (p.takeWhile (· ≠ 44)).length = 0 ∨ (p.takeWhile (· ≠ 44)).length > 255 ∨
            (n + 1 + (p.takeWhile (· ≠ 44)).length) % 2 ^ 64 > cap then (out, 0)
        else alpnLoop cap fuel (p.dropWhile (· ≠ 44)).tail
          (Memory.store (Memory.store out n [UInt8.ofNat (p.takeWhile (· ≠ 44)).length]) (n + 1)
            (p.takeWhile (· ≠ 44))) (n + 1 + (p.takeWhile (· ≠ 44)).length) := by
      rw [hq]
      rfl
    have hshorter := alpn_shorter (p := p)
    rw [hturn]
    have hfound := alpnFound_turn hp
    have hsmall := hsize hp
    generalize p.takeWhile (· ≠ 44) = name at hshorter hfound ⊢
    generalize (p.dropWhile (· ≠ 44)).tail = rest at hshorter hfound ⊢
    by_cases hbad : name.length = 0 ∨ name.length > 255 ∨ (n + 1 + name.length) % 2 ^ 64 > cap
    · rw [if_pos hbad]
      refine ⟨fun hfits => ?_, fun _ => rfl, rfl, rfl⟩
      rw [hfound, alpnFits_cons] at hfits
      obtain ⟨⟨hne, hlen⟩, -, hroom⟩ := hfits
      have hle := (hshorter hne).2.1
      rcases hbad with hzero | hlong | hover
      · exact absurd (List.length_eq_zero_iff.mp hzero) hne
      · omega
      · rw [Nat.mod_eq_of_lt (by omega)] at hover
        omega
    · rw [if_neg hbad]
      rw [not_or, not_or, List.length_eq_zero_iff] at hbad
      obtain ⟨hne, hlen, hroom⟩ := hbad
      obtain ⟨hrest, hle, hmore⟩ := hshorter hne
      rw [Nat.mod_eq_of_lt (by omega)] at hroom
      have hstored : Memory.store (Memory.store out n [UInt8.ofNat name.length]) (n + 1) name =
          Memory.store out n (UInt8.ofNat name.length :: name) :=
        Memory.store_store (a := [UInt8.ofNat name.length]) (by omega) name
      have hsame : (Memory.store out n (UInt8.ofNat name.length :: name)).length = out.length :=
        Memory.length_store (by rw [List.length_cons]; omega)
      have hbehind : (Memory.store out n (UInt8.ofNat name.length :: name)).drop cap =
          out.drop cap :=
        Memory.drop_store (by rw [List.length_cons]; omega) (by omega)
      rw [hstored]
      obtain ⟨hfits, hrefused, hsize', hdrop⟩ := ih (p := rest) (n := n + 1 + name.length)
        (by omega) (by omega) (hsame ▸ hcap) (fun hr => by have := hmore hr; omega)
      refine ⟨fun h => ?_, fun h => ?_, hsize'.trans hsame, hdrop.trans hbehind⟩
      · rw [hfound, alpnFits_cons] at h
        have hput : Memory.store (Memory.store out n (UInt8.ofNat name.length :: name))
            (n + 1 + name.length) (Prefixed.text (alpnFound rest)) =
            Memory.store out n (Prefixed.text (name :: alpnFound rest)) := by
          have hstart : n ≤ out.length := by omega
          have hput := Memory.store_store hstart (UInt8.ofNat name.length :: name)
            (Prefixed.text (alpnFound rest))
          rwa [List.length_cons, ← Nat.add_assoc, Nat.add_right_comm] at hput
        rw [hfits h.2, hfound, hput, Prefixed.text_cons, List.length_append, List.length_cons]
        congr 1
        omega
      · refine hrefused (fun hrest => h ?_)
        rw [hfound, alpnFits_cons]
        exact ⟨⟨hne, by omega⟩, hrest⟩

/-! ### The contract -/

variable {list out : Bytes} {cap : Nat}

lemma alpnWire_run (hne : list ≠ []) (hlist : list.length + 1 < 2 ^ 64)
    (hcap : cap ≤ out.length) : AlpnRun cap 0 list out (alpnWire list out cap) := by
  rw [alpnWire, if_neg hne]
  exact alpnLoop_spec (Nat.le_refl _) (Nat.zero_le _) hcap (fun _ => by omega)

lemma text_pos {names : List Bytes} (h : names ≠ []) : 0 < (Prefixed.text names).length := by
  obtain ⟨name, names, rfl⟩ := List.exists_cons_of_ne_nil h
  rw [Prefixed.text_cons, List.length_append, List.length_cons]
  omega

/-- What is written is read back as the names it was written from. -/
lemma read_stored {names : List Bytes} (h : AlpnNames names) (out : Bytes) :
    Prefixed.read ((Memory.store out 0 (Prefixed.text names)).take (Prefixed.text names).length) =
      some names := by
  rw [Memory.store_zero, List.take_left]
  exact Prefixed.read_text (fun name hname => (h name hname).2)

lemma alpnHolds_nil (out : Bytes) (cap : Nat) : AlpnHolds [] out cap where
  accepts := by simp [alpnWire]
  reads := by simp [alpnWire]
  confined := ⟨rfl, rfl⟩

lemma alpnHolds_of_last (hne : list ≠ []) (hlast : list.getLast? ≠ some 44)
    (hlist : list.length + 1 < 2 ^ 64) (hcap : cap ≤ out.length) : AlpnHolds list out cap := by
  obtain ⟨hfits, hrefused, hsize, hbehind⟩ := alpnWire_run hne hlist hcap
  rw [alpnFound_all hne hlast] at hfits hrefused
  have hpos := text_pos (Cut.splitOn_ne_nil 44 list)
  have hzero : AlpnFits cap 0 (splitOn 44 list) ↔ AlpnNames (splitOn 44 list) ∧
      (Prefixed.text (splitOn 44 list)).length ≤ cap := by
    rw [AlpnFits, Nat.zero_add]
  refine ⟨⟨fun hr => ⟨hne, hzero.mp (by_contra (fun h => hr (hrefused h)))⟩, fun h => ?_⟩,
    fun hr => ?_, hsize, hbehind⟩
  · rw [hfits (hzero.mpr h.2)]
    dsimp only
    omega
  · have hroom : AlpnFits cap 0 (splitOn 44 list) := by_contra (fun h => hr (hrefused h))
    rw [hfits hroom, Nat.zero_add]
    exact read_stored hroom.1 out

lemma alpnHolds_comma {front : Bytes} (hlist : (front ++ [44]).length + 1 < 2 ^ 64)
    (hcap : cap ≤ out.length) :
    AlpnHolds (front ++ [44]) out cap ↔ ¬AlpnFits cap 0 (splitOn 44 front) := by
  obtain ⟨hfits, hrefused, hsize, hbehind⟩ := alpnWire_run (by simp) hlist hcap
  rw [alpnFound_comma] at hfits hrefused
  have hsplit : splitOn 44 (front ++ [44]) = splitOn 44 front ++ [[]] :=
    Cut.splitOn_join 44 front []
  have hempty : ¬AlpnNames (splitOn 44 (front ++ [44])) := fun h => by
    rw [hsplit] at h
    exact (h [] (by simp)).1 rfl
  have hpos := text_pos (Cut.splitOn_ne_nil 44 front)
  constructor
  · intro holds hroom
    refine hempty (holds.accepts.mp ?_).2.1
    rw [hfits hroom]
    dsimp only
    omega
  · intro hno
    have hr := hrefused hno
    exact ⟨iff_of_false (fun h => h hr) (fun h => hempty h.2.1), fun h => absurd hr h, hsize,
      hbehind⟩

/-- The contract is kept on all lists but those that a comma makes end in an empty name. -/
theorem alpnWire_holds_iff (hlist : list.length + 1 < 2 ^ 64) (hcap : cap ≤ out.length) :
    AlpnHolds list out cap ↔ ¬AlpnTrailing list cap := by
  by_cases hne : list = []
  · subst hne
    refine iff_of_true (alpnHolds_nil out cap) ?_
    rintro ⟨front, hfront, -⟩
    simp at hfront
  · by_cases hlast : list.getLast? = some 44
    · obtain ⟨front, rfl⟩ := List.getLast?_eq_some_iff.mp hlast
      rw [alpnHolds_comma hlist hcap, not_iff_not]
      constructor
      · rintro ⟨hnames, hroom⟩
        refine ⟨front, rfl, ?_, hnames, by omega⟩
        rintro rfl
        exact (hnames [] (by decide)).1 rfl
      · rintro ⟨front', heq, -, hnames, hroom⟩
        rw [List.append_left_inj] at heq
        rw [heq]
        exact ⟨hnames, by omega⟩
    · refine iff_of_true (alpnHolds_of_last hne hlast hlist hcap) ?_
      rintro ⟨front, rfl, -⟩
      simp at hlast

theorem alpnWire_holds_offer :
    AlpnHolds (ascii "h2,http/1.1") (List.replicate 12 0) 12 :=
  (alpnWire_holds_iff (by decide +kernel) (by decide +kernel)).mpr (by
    rintro ⟨front, heq, -⟩
    have hlast := congrArg List.getLast? heq
    rw [List.getLast?_concat] at hlast
    revert hlast
    decide +kernel)

/-- The empty name behind the comma is passed over. -/
theorem alpnWire_trailing : ¬AlpnHolds (ascii "h2,") (List.replicate 64 0) 64 := by
  intro holds
  have hnames := (holds.accepts.mp (by decide +kernel)).2.1
  exact (hnames [] (by decide +kernel)).1 rfl

end Zuhttp
