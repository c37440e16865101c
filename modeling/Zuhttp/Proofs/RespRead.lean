import Zuhttp.RespRead
import Zuhttp.Library.Portions

/-!
# What reads in pieces return

A held body and a streamed one that is staged to its end hand out the same portions, as long as
the sizes keep the position in the held body whole.
-/

namespace Zuhttp

variable {Z : Zlib}

namespace ReadSize

/-- A piece of this many bytes is not too long. -/
def Allows (n : ReadSize) (length : Nat) : Prop :=
  match n with
  | bytes x _ => length ≤ x
  | infinite => True

/-- The size is whole or all that is left, and no more than 64 MiB are asked for or left. -/
def Fits (n : ReadSize) (left : ℚ) : Prop :=
  match n with
  | bytes x _ => (x.isInt = true ∨ left ≤ x) ∧ (x ≤ 64 * 1024 * 1024 ∨ left ≤ 64 * 1024 * 1024)
  | infinite => left ≤ 64 * 1024 * 1024

instance (n : ReadSize) (left : ℚ) : Decidable (n.Fits left) :=
  match n with
  | bytes x _ => inferInstanceAs (Decidable
      ((x.isInt = true ∨ left ≤ x) ∧ (x ≤ 64 * 1024 * 1024 ∨ left ≤ 64 * 1024 * 1024)))
  | infinite => inferInstanceAs (Decidable (left ≤ 64 * 1024 * 1024))

lemma check_number (n : ReadSize) : check (.numeric [n.number]) = some n := by
  cases n with
  | bytes x h => exact dif_neg (not_lt.mpr h)
  | infinite => rfl

/-- What the check accepts is one number, and not NA or less than 1. -/
theorem check_eq_some {n : RArg} {size : ReadSize} :
    check n = some size ↔ n = .numeric [size.number] := by
  refine ⟨fun h => ?_, fun h => h ▸ check_number size⟩
  unfold check at h
  split at h
  · split_ifs at h
    cases h
    rfl
  · cases h
    rfl
  · cases h

lemma want_pos (n : ReadSize) : 0 < n.want := by
  cases n with
  | bytes x h =>
    rw [want, Nat.floor_pos]
    exact le_min (le_max_right x 1) (by norm_num)
  | infinite => decide

lemma want_le {x : ℚ} (h : 1 ≤ x) : ((bytes x h).want : ℚ) ≤ x := by
  have hnonneg : 0 ≤ min (max x 1) (64 * 1024 * 1024) :=
    le_min (zero_le_one.trans (le_max_right x 1)) (by norm_num)
  calc ((bytes x h).want : ℚ) ≤ min (max x 1) (64 * 1024 * 1024) := Nat.floor_le hnonneg
    _ ≤ max x 1 := min_le_left _ _
    _ = x := max_eq_left h

lemma want_allows (n : ReadSize) {length : Nat} (h : length ≤ n.want) : n.Allows length := by
  cases n with
  | bytes x hx => exact (Nat.cast_le.mpr h).trans (want_le hx)
  | infinite => trivial

lemma le_want {x : ℚ} (h : 1 ≤ x) {left : Nat} (hx : left ≤ x) (hleft : left ≤ 64 * 1024 * 1024) :
    left ≤ (bytes x h).want := by
  refine Nat.le_floor (le_min (hx.trans (le_max_left x 1)) ?_)
  exact_mod_cast hleft

lemma want_natCast {j : Nat} (h : 1 ≤ (j : ℚ)) (hj : j ≤ 64 * 1024 * 1024) :
    (bytes j h).want = j := by
  have hmin : min (max (j : ℚ) 1) (64 * 1024 * 1024) = j := by
    rw [max_eq_left h, min_eq_left (by exact_mod_cast hj)]
  rw [want, hmin, Nat.floor_natCast]

lemma eq_natCast {x : ℚ} (h : 1 ≤ x) (hint : x.isInt = true) : ∃ j : Nat, x = j := by
  have hnum : (x.num : ℚ) = x := (Rat.den_eq_one_iff x).mp (beq_iff_eq.mp hint)
  have hpos : 0 ≤ x.num := Rat.num_nonneg.mpr (zero_le_one.trans h)
  refine ⟨x.num.toNat, ?_⟩
  rw [← hnum, Rat.num_intCast]
  exact_mod_cast (Int.toNat_of_nonneg hpos).symm

end ReadSize

namespace RawVector

/-- The elements at whole positions are a segment of the vector. -/
lemma elements_colon {v : Bytes} (hv : v.length ≤ 2 ^ 52) {k l : Nat} (hkl : k < l)
    (hl : l ≤ v.length) :
    elements v (colon (k + 1 : ℚ) l) = (v.drop k).take (l - k) := by
  have hcount : ⌊Double.round (Double.round (Double.round (l - (k + 1 : ℚ)) + 1) + 1 / 2 ^ 23)⌋₊ =
      l - k := by
    have hsub : (l : ℚ) - (k + 1) = (l - k - 1 : Nat) := by
      rw [Nat.sub_sub, Nat.cast_sub (by omega), Nat.cast_add, Nat.cast_one]
    have hadd : ((l - k - 1 : Nat) : ℚ) + 1 = (l - k : Nat) := by
      rw [← Nat.cast_add_one]
      congr 1
      omega
    have hbounds := Double.round_add_lt (k := l - k) (by omega) (e := 1 / 2 ^ 23) (by norm_num)
      (by norm_num)
    rw [hsub, Double.round_natCast (by omega), hadd, Double.round_natCast (by omega),
      Nat.floor_eq_iff ((Nat.cast_nonneg _).trans hbounds.1)]
    exact hbounds
  have hindex : ∀ i ∈ List.range (l - k),
      Double.round ((k + 1 : ℚ) + (i : Nat)) = (k + i + 1 : Nat) := by
    intro i hi
    have hlt := List.mem_range.mp hi
    have hcast : (k + 1 : ℚ) + (i : Nat) = (k + i + 1 : Nat) := by
      push_cast
      ring
    rw [hcast, Double.round_natCast (by omega)]
  rw [colon, hcount, List.map_congr_left hindex, elements, List.filterMap_map]
  have helem : ∀ i ∈ List.range (l - k), ((fun x : ℚ => if ⌊x⌋₊ = 0 then none
      else some (v.getD (⌊x⌋₊ - 1) 0)) ∘ fun i : Nat => ((k + i + 1 : Nat) : ℚ)) i =
        some (v.getD (k + i) 0) := by
    intro i _
    rw [Function.comp_apply, Nat.floor_natCast, if_neg (Nat.succ_ne_zero _), Nat.add_sub_cancel]
  rw [List.filterMap_congr helem, List.filterMap_eq_map']
  refine List.ext_getElem ?_ fun i h₁ h₂ => ?_
  · simp
    omega
  · rw [List.length_map, List.length_range] at h₁
    rw [List.getElem_map, List.getElem_range, List.getElem_take, List.getElem_drop,
      List.getD_eq_getElem?_getD, List.getElem?_eq_getElem (by omega), Option.getD_some]

end RawVector

namespace PieceResponse

lemma upTo_eq {length k : Nat} (hk : k ≤ length) (hlength : length ≤ 2 ^ 52) {n : ReadSize}
    (hfits : n.Fits ((length : ℚ) - k)) :
    upTo length k n = (min length (k + n.want) : Nat) := by
  have hleft : (length : ℚ) - k = (length - k : Nat) := (Nat.cast_sub hk).symm
  cases n with
  | infinite =>
    have hall : length - k ≤ 64 * 1024 * 1024 := by
      rw [ReadSize.Fits, hleft] at hfits
      exact_mod_cast hfits
    rw [upTo, ReadSize.want, Nat.min_eq_left (by omega)]
  | bytes x h =>
    obtain ⟨hwhole, hbound⟩ := hfits
    rw [hleft] at hwhole hbound
    by_cases hx : ((length - k : Nat) : ℚ) ≤ x
    · -- all that is left
      have hall : length - k ≤ 64 * 1024 * 1024 := by
        exact_mod_cast hbound.elim hx.trans id
      have hpast : (length : ℚ) ≤ k + x := by
        rw [← hleft] at hx
        linarith
      have hwant := ReadSize.le_want h hx hall
      rw [upTo, min_eq_left (Double.natCast_le_round (by omega) hpast), Nat.min_eq_left (by omega)]
    · -- a whole number of bytes
      have hint := hwhole.resolve_right hx
      obtain ⟨j, rfl⟩ := ReadSize.eq_natCast h hint
      have hj : j < length - k := by exact_mod_cast not_le.mp hx
      have hsmall : j ≤ 64 * 1024 * 1024 := by
        exact_mod_cast hbound.elim id (le_of_not_ge hx).trans
      have hsum : (k : ℚ) + j = (k + j : Nat) := (Nat.cast_add k j).symm
      rw [upTo, ReadSize.want_natCast h hsmall, hsum, Double.round_natCast (by omega),
        Nat.min_eq_right (by omega), min_eq_right]
      exact_mod_cast (show k + j ≤ length by omega)

/-! One read. -/

/-- At a whole position the piece is the portion that the size asks for. -/
lemma serve_eq {v : Bytes} (hv : v.length ≤ 2 ^ 52) {st : ReadState} {k : Nat} (hpos : st.pos = k)
    (hk : k ≤ v.length) {n : ReadSize} (hfits : n.Fits ((v.length : ℚ) - st.pos)) :
    ∃ st', serve v st n = ((v.drop k).take n.want, st') ∧
      st'.pos = (min v.length (k + n.want) : Nat) ∧ st'.aborted = st.aborted := by
  have hwant := n.want_pos
  have hfirst : Double.round (st.pos + 1) = (k + 1 : ℚ) := by
    rw [hpos, ← Nat.cast_add_one, Double.round_natCast (by omega)]
  have hlast : upTo v.length st.pos n = (min v.length (k + n.want) : Nat) := by
    rw [hpos] at hfits ⊢
    exact upTo_eq hk hv hfits
  unfold serve
  dsimp only
  rw [hfirst, hlast]
  by_cases hend : k = v.length
  · -- nothing is left
    have hgt : (k + 1 : ℚ) > (min v.length (k + n.want) : Nat) := by
      exact_mod_cast (show min v.length (k + n.want) < k + 1 by omega)
    refine ⟨{ st with ended := true }, ?_, ?_, rfl⟩
    · rw [if_pos hgt, hend, List.drop_length, List.take_nil]
    · rw [hpos, Nat.min_eq_left (by omega), hend]
  · have hle : ¬(k + 1 : ℚ) > (min v.length (k + n.want) : Nat) := by
      rw [gt_iff_lt, not_lt]
      exact_mod_cast (show k + 1 ≤ min v.length (k + n.want) by omega)
    refine ⟨{ st with pos := (min v.length (k + n.want) : Nat) }, ?_, rfl, rfl⟩
    rw [if_neg hle, RawVector.elements_colon hv (by omega) (Nat.min_le_left _ _)]
    congr 1
    rw [List.take_eq_take_iff, List.length_drop]
    omega

/-- What is left of a held body behind the position. -/
def left (resp : PieceResponse Z) : ℚ :=
  match resp.readState with
  | some st => resp.bytes.length - st.pos
  | none => 0

/-- A held body that is to be read on from the `k`th byte. -/
structure At (resp : PieceResponse Z) (v : Bytes) (k : Nat) : Prop where
  held : resp.stream = none
  bytes : resp.bytes = v
  state : ∃ st, resp.readState = some st ∧ st.pos = k ∧ st.aborted = false
  inside : k ≤ v.length

lemma length_bytes (resp : PieceResponse Z) : resp.bytes.length ≤ 2 ^ 52 :=
  (resp.body.getD RawVector.empty).2

lemma read_at {resp : PieceResponse Z} {v : Bytes} {k : Nat} (h : resp.At v k) {n : ReadSize}
    (hfits : n.Fits resp.left) :
    ∃ resp' : PieceResponse Z, resp.zuRespRead (.numeric [n.number]) .null =
      (.ok ((v.drop k).take n.want), resp') ∧ resp'.At v (min v.length (k + n.want)) := by
  obtain ⟨st, hst, hpos, haborted⟩ := h.state
  have hv : v.length ≤ 2 ^ 52 := h.bytes ▸ resp.length_bytes
  have hleft : resp.left = (v.length : ℚ) - st.pos := by rw [left, hst, h.bytes]
  obtain ⟨st', hserve, hpos', haborted'⟩ := serve_eq hv hpos h.inside (hleft ▸ hfits)
  refine ⟨{ resp with readState := some st' }, ?_, ⟨h.held, h.bytes, ?_, Nat.min_le_left _ _⟩⟩
  · unfold zuRespRead
    rw [ReadSize.check_number]
    dsimp only
    rw [if_neg (by decide), h.held]
    dsimp only
    rw [hst]
    dsimp only
    rw [if_neg (by simp [haborted]), h.bytes, hserve]
  · exact ⟨st', rfl, hpos', haborted'.trans haborted⟩

/-- A streamed body that is staged to its end. -/
structure Staged (b : OpenBody Z) (rest : Bytes) : Prop where
  going : b.failed = false ∧ b.aborted = false
  ended : b.ended = true
  rest : b.src.staged.drop b.stagedOff = rest

lemma read_staged {b : OpenBody Z} {rest : Bytes} (h : Staged b rest) (n : Nat) :
    ∃ b', b.read n = (b', .ok (rest.take n)) ∧ Staged b' (rest.drop n) := by
  have hready : b.ready = true := by
    unfold OpenBody.ready
    simp [h.ended]
  have hlength : rest.length = b.src.staged.length - b.stagedOff := by
    rw [← h.rest, List.length_drop]
  let m := if n > b.src.staged.length - b.stagedOff then b.src.staged.length - b.stagedOff else n
  have htake : rest.take m = rest.take n := by
    rw [List.take_eq_take_iff]
    simp only [m]
    split_ifs <;> omega
  have hdrop : rest.drop m = rest.drop n := by
    simp only [m]
    split_ifs with hn
    · rw [List.drop_eq_nil_of_le (by omega), List.drop_eq_nil_of_le (by omega)]
    · rfl
  refine ⟨{ b with stagedOff := b.stagedOff + m }, ?_, ⟨h.going, h.ended, ?_⟩⟩
  · unfold OpenBody.read
    rw [if_neg (by simp [h.going.1]), if_neg (by simp [h.going.2]),
      Loop.iterate_of_done _ hready, ← htake, ← h.rest]
  · rw [← hdrop, ← h.rest, List.drop_drop]

/-! A run of reads. -/

/-- The sizes fit what is left when they are asked for. -/
def AllFit : PieceResponse Z → List ReadSize → Prop
  | _, [] => True
  | resp, n :: ns =>
    n.Fits resp.left ∧ AllFit (resp.zuRespRead (.numeric [n.number]) .null).2 ns

instance decidableAllFit : (resp : PieceResponse Z) → (ns : List ReadSize) →
    Decidable (resp.AllFit ns)
  | _, [] => isTrue trivial
  | resp, n :: ns =>
    have := decidableAllFit (resp.zuRespRead (.numeric [n.number]) .null).2 ns
    inferInstanceAs (Decidable
      (n.Fits resp.left ∧ AllFit (resp.zuRespRead (.numeric [n.number]) .null).2 ns))

/-- The portions of these sizes. -/
def portions (v : Bytes) (ns : List ReadSize) : List Bytes :=
  (ns.map ReadSize.want).splitLengths v

lemma reads_at {resp : PieceResponse Z} {v : Bytes} {k : Nat} (h : resp.At v k)
    {ns : List ReadSize} (hns : resp.AllFit ns) :
    resp.reads ns = (portions (v.drop k) ns).map .ok := by
  induction ns generalizing resp k with
  | nil => rfl
  | cons n ns ih =>
    obtain ⟨resp', hread, hat⟩ := read_at h hns.1
    have hrest := hns.2
    rw [hread] at hrest
    have hdrop : v.drop (min v.length (k + n.want)) = (v.drop k).drop n.want := by
      rw [List.drop_drop]
      rcases Nat.le_total v.length (k + n.want) with hle | hle
      · rw [Nat.min_eq_left hle, List.drop_length, List.drop_eq_nil_of_le hle]
      · rw [Nat.min_eq_right hle]
    rw [reads, hread, portions, List.map_cons, List.splitLengths_cons, List.map_cons]
    dsimp only
    rw [ih hat hrest, hdrop, portions]

lemma reads_staged {b : OpenBody Z} {rest : Bytes} (h : Staged b rest) (ns : List ReadSize) :
    (streamed b).reads ns = (portions rest ns).map .ok := by
  induction ns generalizing b rest with
  | nil => rfl
  | cons n ns ih =>
    obtain ⟨b', hread, hstaged⟩ := read_staged h n.want
    have hstep : (streamed b).zuRespRead (.numeric [n.number]) .null =
        (.ok (rest.take n.want), streamed b') := by
      unfold zuRespRead
      rw [ReadSize.check_number]
      dsimp only [streamed]
      rw [if_neg (by decide), hread]
      rfl
    rw [reads, hstep, portions, List.map_cons, List.splitLengths_cons, List.map_cons]
    dsimp only
    rw [ih hstaged, portions]

lemma reads_aborted {resp : PieceResponse Z} {st : ReadState} (hstream : resp.stream = none)
    (hst : resp.readState = some st) (haborted : st.aborted = true) (ns : List ReadSize) :
    resp.reads ns = ns.map fun _ => .error (.cancelled "the response body was aborted") := by
  induction ns with
  | nil => rfl
  | cons n ns ih =>
    have hstep : resp.zuRespRead (.numeric [n.number]) .null =
        (.error (.cancelled "the response body was aborted"), resp) := by
      unfold zuRespRead
      rw [ReadSize.check_number]
      dsimp only
      rw [if_neg (by decide), hstream]
      dsimp only
      rw [hst]
      exact if_pos haborted
    rw [reads, hstep, List.map_cons]
    dsimp only
    rw [ih]

/-- After an abort every read fails, unless the body was read to its end before. -/
theorem abort_reads {resp : PieceResponse Z} {v : Bytes} {k : Nat} (h : resp.At v k)
    (ns : List ReadSize) :
    resp.zuRespAbort.reads ns =
      if k < v.length then ns.map fun _ => .error (.cancelled "the response body was aborted")
      else resp.reads ns := by
  obtain ⟨st, hst, hpos, -⟩ := h.state
  unfold zuRespAbort
  rw [h.held, hst]
  dsimp only
  rw [hpos, h.bytes]
  by_cases hk : k < v.length
  · rw [if_pos (by exact_mod_cast hk), if_pos hk]
    exact reads_aborted rfl rfl rfl ns
  · rw [if_neg (by exact_mod_cast hk), if_neg hk]

/-- The pieces in front of the first empty one are a first part of the body, and all of it if
there is an empty one; no piece is too long; an empty body has only empty pieces. -/
structure Lossless (v : Bytes) (ns : List ReadSize) (pieces : List Bytes) : Prop where
  joined : Portions.joined pieces <+: v
  whole : [] ∈ pieces → Portions.joined pieces = v
  bounded : List.Forall₂ (fun n p => n.Allows p.length) ns pieces
  empty : v = [] → ∀ p ∈ pieces, p = []

lemma portions_lossless (v : Bytes) (ns : List ReadSize) : Lossless v ns (portions v ns) where
  joined := Portions.joined_isPrefix _ v
  whole := by
    refine Portions.joined_eq fun m hm => ?_
    obtain ⟨n, -, rfl⟩ := List.mem_map.mp hm
    exact n.want_pos
  bounded := by
    have hbounded := Portions.splitLengths_bounded (ns.map ReadSize.want) v
    rw [List.forall₂_map_left_iff] at hbounded
    exact hbounded.imp fun n p hp => n.want_allows hp
  empty := by
    rintro rfl
    exact Portions.splitLengths_nil_right _

/-- All reads of a held body succeed and lose nothing, and those of a streamed body with the
same bytes staged return the same. -/
def ReadsWell (Z : Zlib) (body : Option RawVector) (ns : List ReadSize) : Prop :=
  ∃ pieces : List Bytes, (held body : PieceResponse Z).reads ns = pieces.map .ok ∧
    Lossless (held body : PieceResponse Z).bytes ns pieces ∧
    ∀ b : OpenBody Z, Staged b (held body : PieceResponse Z).bytes →
      (streamed b).reads ns = pieces.map .ok

/-- A body is read without loss by sizes that fit what is left of it. -/
theorem reads_lossless (body : Option RawVector) (ns : List ReadSize)
    (hns : (held body : PieceResponse Z).AllFit ns) : ReadsWell Z body ns := by
  have hat : (held body : PieceResponse Z).At (held body : PieceResponse Z).bytes 0 :=
    ⟨rfl, rfl, ⟨{}, rfl, Nat.cast_zero.symm, rfl⟩, Nat.zero_le _⟩
  refine ⟨portions (held body : PieceResponse Z).bytes ns, reads_at hat hns,
    portions_lossless _ _, fun b hb => reads_staged hb ns⟩

theorem reads_lossless_whole : ReadsWell (Zlib.knowing [] [])
    (some ⟨ascii "hello", by decide +kernel⟩)
    [.bytes 2 (by decide), .bytes (7 / 2) (by decide +kernel), .infinite] :=
  reads_lossless _ _ (by decide +kernel)

/-- Three bytes, and two sizes of one and a half bytes. -/
def threeBytes : Option RawVector := some ⟨ascii "abc", by decide +kernel⟩

def halfSizes : List ReadSize :=
  [.bytes (3 / 2) (by decide +kernel), .bytes (3 / 2) (by decide +kernel), .infinite]

/-- Two reads of one and a half bytes leave the position at 3, and the third byte is lost. -/
theorem reads_lose_byte :
    (held threeBytes : PieceResponse (Zlib.knowing [] [])).reads halfSizes =
      [[97], [98], []].map Except.ok ∧
    ¬∀ (body : Option RawVector) (ns : List ReadSize), ReadsWell (Zlib.knowing [] []) body ns := by
  have hreads : (held threeBytes : PieceResponse (Zlib.knowing [] [])).reads halfSizes =
      [[97], [98], []].map Except.ok := by
    decide +kernel
  refine ⟨hreads, fun hall => ?_⟩
  obtain ⟨pieces, hpieces, hlossless, -⟩ := hall threeBytes halfSizes
  have hinj : Function.Injective (Except.ok : Bytes → Except ReadError Bytes) :=
    fun _ _ h => Except.ok.inj h
  obtain rfl := List.map_injective_iff.mpr hinj (hreads.symm.trans hpieces)
  have hwhole := hlossless.whole (by decide)
  revert hwhole
  decide +kernel

end PieceResponse

end Zuhttp
