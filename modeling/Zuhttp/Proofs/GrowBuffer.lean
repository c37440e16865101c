import Zuhttp.GrowBuffer
import Zuhttp.Proofs.Framing

/-!
# A buffer is a list of bytes

Whatever the allocator answers, the operations do to the bytes of a buffer what they do to a
list, or nothing. A capacity below 64 is the limit itself, so that the loop never stands still.
-/

namespace Zuhttp

namespace GrowBuffer

/-- What holds of a buffer between two operations. -/
structure Sound (b : GrowBuffer) : Prop where
  size : b.data.length = b.cap
  used : b.len ≤ b.cap
  fits : b.cap < 2 ^ 64
  limit : b.max ≠ 0 → b.cap ≤ b.max
  grows : b.cap = 0 ∨ 64 ≤ b.cap ∨ b.max ≠ 0 ∧ b.cap = b.max

/-! ### Growth -/

lemma sizeAdd_of_lt {a b : Nat} (h : a + b < 2 ^ 64) : Headers.sizeAdd a b = some (a + b) :=
  if_pos h

lemma sizeAdd_of_ge {a b : Nat} (h : 2 ^ 64 ≤ a + b) : Headers.sizeAdd a b = none :=
  if_neg (Nat.not_lt.mpr h)

/-- One turn of the loop. -/
lemma growLoop_turn {need max turns cap : Nat} (hlt : cap < need) (hneed : need < 2 ^ 64)
    (hnext : ∀ total, total = cap + cap / 2 →
      ∃ c, growLoop need max turns total = some c ∧ (64 ≤ c ∨ max ≠ 0 ∧ c = max)) :
    ∃ c, growLoop need max (turns + 1) cap = some c ∧ (64 ≤ c ∨ max ≠ 0 ∧ c = max) := by
  rw [growLoop, if_pos hlt]
  rcases Nat.lt_or_ge (cap + cap / 2) (2 ^ 64) with hfits | hover
  · rw [sizeAdd_of_lt hfits]
    dsimp only
    by_cases hmax : max ≠ 0 ∧ cap + cap / 2 > max
    · rw [if_pos hmax]
      exact ⟨max, rfl, .inr ⟨hmax.1, rfl⟩⟩
    · rw [if_neg hmax]
      exact hnext _ rfl
  · rw [sizeAdd_of_ge hover]
    exact ⟨need, rfl, .inl (by omega)⟩

/-- Every two turns double the capacity, until it is enough. -/
lemma growLoop_ends {need : Nat} (hneed : need < 2 ^ 64) (max k : Nat) {cap : Nat}
    (hcap : 64 ≤ cap) (hk : 2 ^ 64 ≤ cap * 2 ^ k) :
    ∃ c, growLoop need max (2 * k + 1) cap = some c ∧ (64 ≤ c ∨ max ≠ 0 ∧ c = max) := by
  induction k generalizing cap with
  | zero =>
    rw [Nat.mul_zero, Nat.zero_add, growLoop, if_neg (by omega)]
    exact ⟨cap, rfl, .inl hcap⟩
  | succ k ih =>
    by_cases hlt : cap < need
    · refine growLoop_turn hlt hneed (fun total htotal => ?_)
      by_cases hmore : total < need
      · refine growLoop_turn hmore hneed (fun again hagain => ih (by omega) ?_)
        have hdouble : cap * 2 ≤ again := by omega
        calc 2 ^ 64 ≤ cap * 2 ^ (k + 1) := hk
          _ = cap * 2 * 2 ^ k := by rw [pow_succ']; ring
          _ ≤ again * 2 ^ k := Nat.mul_le_mul_right _ hdouble
      · have hturns : 2 * (k + 1) = 2 * k + 1 + 1 := by omega
        rw [hturns, growLoop, if_neg hmore]
        exact ⟨total, rfl, .inl (by omega)⟩
    · rw [growLoop, if_neg hlt]
      exact ⟨cap, rfl, .inl hcap⟩

/-- The loop asks for half of what is needed more, at most. -/
lemma growLoop_le {need max turns cap c : Nat} (h : growLoop need max turns cap = some c) :
    c ≤ cap ∨ c ≤ need + need / 2 := by
  induction turns generalizing cap with
  | zero => cases h
  | succ turns ih =>
    rw [growLoop] at h
    by_cases hlt : cap < need
    · rw [if_pos hlt] at h
      right
      cases htotal : Headers.sizeAdd cap (cap / 2) with
      | none =>
        rw [htotal] at h
        cases h
        omega
      | some total =>
        obtain ⟨-, hsum⟩ := Option.ite_none_right_eq_some.mp htotal
        cases hsum
        rw [htotal] at h
        dsimp only at h
        by_cases hmax : max ≠ 0 ∧ cap + cap / 2 > max
        · rw [if_pos hmax] at h
          cases h
          omega
        · rw [if_neg hmax] at h
          rcases ih h with hle | hle <;> omega
    · rw [if_neg hlt] at h
      cases h
      exact .inl (Nat.le_refl _)

lemma realloc_data {block data : Bytes} {n : Nat} {answer : Alloc} (hn : block.length ≤ n)
    (h : realloc block n answer = some data) : data.length = n ∧ block <+: data := by
  unfold realloc at h
  split at h
  · cases h
    rw [List.take_of_length_le hn]
    refine ⟨?_, List.prefix_append _ _⟩
    rw [List.length_append, List.length_map, List.length_range]
    omega
  · cases h

/-- The allocator gives no block, or the block and its header are too large. -/
lemma realloc_eq_none {block : Bytes} {n : Nat} {answer : Alloc} :
    realloc block n answer = none ↔ answer = none ∨ 2 ^ 64 ≤ n + allocHeader := by
  unfold realloc
  rcases Nat.lt_or_ge (n + allocHeader) (2 ^ 64) with hfits | hover
  · rw [sizeAdd_of_lt hfits]
    cases answer with
    | none => exact iff_of_true rfl (.inl rfl)
    | some fill =>
      refine iff_of_false (by rintro ⟨⟩) ?_
      rintro (hnone | hover)
      · cases hnone
      · omega
  · rw [sizeAdd_of_ge hover]
    exact iff_of_true rfl (.inr hover)

/-- The capacity that `grow_to` asks the allocator for. -/
def askedCap (b : GrowBuffer) (need : Nat) : Nat :=
  let cap := (growLoop need b.max growTurns (if b.cap = 0 then 64 else b.cap)).getD need
  let cap := if cap < need then need else cap
  if b.max ≠ 0 ∧ cap > b.max then b.max else cap

/-- There is no room for so many bytes and none can be made: they are beyond the limit, or the
allocator has no block of the capacity asked for. -/
def NoRoom (b : GrowBuffer) (need : Nat) (answer : Alloc) : Prop :=
  b.cap < need ∧
    (b.max ≠ 0 ∧ b.max < need ∨ answer = none ∨ 2 ^ 64 ≤ b.askedCap need + allocHeader)

/-- What an attempt to make room leaves. -/
structure Grown (b : GrowBuffer) (need : Nat) (answer : Alloc) (r : GrowBuffer × Bool) : Prop where
  sound : r.1.Sound
  len : r.1.len = b.len
  max : r.1.max = b.max
  kept : b.data <+: r.1.data
  room : r.2 = true → need ≤ r.1.cap
  flag : r.1.hitLimit = (b.hitLimit || decide (b.max ≠ 0 ∧ b.max < need))
  refused : r.2 = false ↔ b.NoRoom need answer

/-- The loop ends, and what is asked for is enough, within the limit and not much more than what
is needed. -/
lemma askedCap_spec {b : GrowBuffer} (hb : b.Sound) {need : Nat} (hneed : need < 2 ^ 64)
    (hmore : b.cap < need) (hlimit : ¬(b.max ≠ 0 ∧ need > b.max)) :
    ∃ c, growLoop need b.max growTurns (if b.cap = 0 then 64 else b.cap) = some c ∧
      need ≤ b.askedCap need ∧ (b.max ≠ 0 → b.askedCap need ≤ b.max) ∧
      b.askedCap need ≤ Nat.max 64 (need + need / 2) ∧
      (64 ≤ b.askedCap need ∨ b.max ≠ 0 ∧ b.askedCap need = b.max) := by
  have hstart : 64 ≤ if b.cap = 0 then 64 else b.cap := by
    split_ifs with hzero
    · exact Nat.le_refl _
    · rcases hb.grows with hnone | hbig | ⟨hmax, heq⟩
      · exact absurd hnone hzero
      · exact hbig
      · exact absurd ⟨hmax, by omega⟩ hlimit
  have hfirst : (if b.cap = 0 then 64 else b.cap) ≤ Nat.max 64 need := by
    split_ifs
    · exact Nat.le_max_left _ _
    · exact Nat.le_trans (Nat.le_of_lt hmore) (Nat.le_max_right _ _)
  unfold askedCap
  generalize (if b.cap = 0 then 64 else b.cap) = start at hstart hfirst
  obtain ⟨c, hc, hbound⟩ := growLoop_ends hneed b.max 58 hstart (by omega)
  have hturns : growTurns = 2 * 58 + 1 := rfl
  have hle := growLoop_le hc
  rw [hturns, hc]
  dsimp only [Option.getD_some]
  have hupper : c ≤ Nat.max 64 (need + need / 2) := by
    rcases hle with hle | hle
    · refine Nat.le_trans hle (Nat.le_trans hfirst ?_)
      exact Nat.max_le.mpr ⟨Nat.le_max_left _ _,
        Nat.le_trans (Nat.le_add_right _ _) (Nat.le_max_right _ _)⟩
    · exact Nat.le_trans hle (Nat.le_max_right _ _)
  have hneedle : need ≤ Nat.max 64 (need + need / 2) :=
    Nat.le_trans (Nat.le_add_right _ _) (Nat.le_max_right _ _)
  refine ⟨c, rfl, ?_, ?_, ?_, ?_⟩
  · split_ifs <;> omega
  · intro hne
    split_ifs <;> omega
  · split_ifs <;> omega
  · split_ifs <;> omega

lemma growTo_grown {b : GrowBuffer} (hb : b.Sound) {need : Nat} (hneed : need < 2 ^ 64)
    (answer : Alloc) : ∃ r, b.growTo need answer = some r ∧ b.Grown need answer r := by
  unfold growTo
  by_cases hfits : need ≤ b.cap
  · rw [if_pos hfits]
    have hwithin : ¬(b.max ≠ 0 ∧ b.max < need) := fun h => by
      have hle := hb.limit h.1
      omega
    refine ⟨_, rfl, hb, rfl, rfl, List.prefix_refl _, fun _ => hfits, by simp [hwithin], ?_⟩
    exact iff_of_false (by rintro ⟨⟩) (fun h => absurd h.1 (Nat.not_lt.mpr hfits))
  rw [if_neg hfits]
  have hmore : b.cap < need := Nat.lt_of_not_le hfits
  by_cases hlimit : b.max ≠ 0 ∧ need > b.max
  · rw [if_pos hlimit]
    have hover : b.max ≠ 0 ∧ b.max < need := hlimit
    exact ⟨_, rfl, ⟨hb.size, hb.used, hb.fits, hb.limit, hb.grows⟩, rfl, rfl,
      List.prefix_refl _, (by rintro ⟨⟩), by simp [hover],
      iff_of_true rfl ⟨hmore, .inl hlimit⟩⟩
  rw [if_neg hlimit]
  have hflag : b.hitLimit = (b.hitLimit || decide (b.max ≠ 0 ∧ b.max < need)) := by
    have hwithin : ¬(b.max ≠ 0 ∧ b.max < need) := hlimit
    simp [hwithin]
  obtain ⟨c, hc, hroom, hmax, -, hgrows⟩ := askedCap_spec hb hneed hmore hlimit
  have hcap : (if b.max ≠ 0 ∧ (if c < need then need else c) > b.max then b.max
      else if c < need then need else c) = b.askedCap need := by
    unfold askedCap
    rw [hc]
    rfl
  rw [hc]
  dsimp only
  rw [hcap]
  have hrefused : b.NoRoom need answer ↔ realloc b.data (b.askedCap need) answer = none := by
    rw [realloc_eq_none]
    exact ⟨fun h => h.2.resolve_left hlimit, fun h => ⟨hmore, .inr h⟩⟩
  cases hdata : realloc b.data (b.askedCap need) answer with
  | none =>
    exact ⟨_, rfl, hb, rfl, rfl, List.prefix_refl _, (by rintro ⟨⟩), hflag,
      iff_of_true rfl (hrefused.mpr hdata)⟩
  | some data =>
    obtain ⟨hlen, hkept⟩ := realloc_data (by rw [hb.size]; omega) hdata
    have hused : b.len ≤ b.askedCap need := by
      have hold := hb.used
      omega
    have hlarge : b.askedCap need < 2 ^ 64 := by
      have hsome : ¬(answer = none ∨ 2 ^ 64 ≤ b.askedCap need + allocHeader) := fun hnone => by
        rw [realloc_eq_none.mpr hnone] at hdata
        cases hdata
      exact Nat.lt_of_le_of_lt (Nat.le_add_right _ _)
        (Nat.lt_of_not_le fun hle => hsome (.inr hle))
    exact ⟨_, rfl, ⟨hlen, hused, hlarge, hmax, .inr hgrows⟩, rfl, rfl, hkept,
      fun _ => hroom, hflag, iff_of_false (by rintro ⟨⟩) fun hno => by
        rw [hrefused.mp hno] at hdata
        cases hdata⟩

/-! ### Operations -/

/-- When an operation that needs `extra` more bytes fails. -/
def Refuses (b : GrowBuffer) (extra : Nat) (answer : Alloc) : Prop :=
  2 ^ 64 ≤ b.len + extra ∨ b.NoRoom (b.len + extra) answer

/-- An operation that does `f` to a list of bytes, unless it has no room. -/
structure Does (b : GrowBuffer) (f : Bytes → Bytes) (extra : Nat) (answer : Alloc)
    (r : GrowBuffer × Bool) : Prop where
  sound : r.1.Sound
  max : r.1.max = b.max
  refused : r.2 = false ↔ b.Refuses extra answer
  success : r.2 = true → r.1.content = f b.content
  failure : r.2 = false → r.1.content = b.content

variable {b : GrowBuffer}

lemma content_length (hb : b.Sound) : b.content.length = b.len := by
  rw [content, List.length_take, hb.size, Nat.min_eq_left hb.used]

/-- An operation that needs no room does not fail. -/
lemma not_refuses (hb : b.Sound) (answer : Alloc) : ¬b.Refuses 0 answer := by
  have hused := hb.used
  have hfits := hb.fits
  rintro (hover | ⟨hmore, -⟩) <;> omega

lemma Grown.content {need : Nat} {answer : Alloc} {r : GrowBuffer × Bool} (hb : b.Sound)
    (h : b.Grown need answer r) : r.1.content = b.content := by
  obtain ⟨rest, hrest⟩ := h.kept
  rw [GrowBuffer.content, h.len, ← hrest, List.take_append_of_le_length, GrowBuffer.content]
  rw [hb.size]
  exact hb.used

/-- What is done in the room that was made. -/
lemma withRoom_does (hb : b.Sound) (extra : Nat) (answer : Alloc)
    {act : Nat → GrowBuffer → GrowBuffer} {f : Bytes → Bytes}
    (hact : ∀ c : GrowBuffer, c.Sound → c.len = b.len → b.len + extra ≤ c.cap →
      (act (b.len + extra) c).Sound ∧
        (act (b.len + extra) c).max = c.max ∧ (act (b.len + extra) c).content = f c.content) :
    ∃ r, b.withRoom extra answer act = some r ∧ b.Does f extra answer r := by
  unfold withRoom
  rcases Nat.lt_or_ge (b.len + extra) (2 ^ 64) with hfits | hover
  · rw [sizeAdd_of_lt hfits]
    obtain ⟨r, hr, hgrown⟩ := growTo_grown hb hfits answer
    have hcontent := hgrown.content hb
    dsimp only
    rw [hr, Option.map_some]
    cases hok : r.2 with
    | true =>
      obtain ⟨hsound, hmax, hdone⟩ := hact r.1 hgrown.sound hgrown.len (hgrown.room hok)
      rw [if_pos rfl]
      refine ⟨_, rfl, hsound, hmax.trans hgrown.max, iff_of_false (by rintro ⟨⟩) ?_,
        fun _ => hdone.trans (by rw [hcontent]), (by rintro ⟨⟩)⟩
      rintro (hover | hno)
      · omega
      · rw [hgrown.refused.mpr hno] at hok
        cases hok
    | false =>
      rw [if_neg (by decide)]
      exact ⟨_, rfl, hgrown.sound, hgrown.max,
        iff_of_true rfl (.inr (hgrown.refused.mp hok)), (by rintro ⟨⟩), fun _ => hcontent⟩
  · rw [sizeAdd_of_ge hover]
    exact ⟨_, rfl, hb, rfl, iff_of_true rfl (.inl hover), (by rintro ⟨⟩), fun _ => rfl⟩

lemma append_does (hb : b.Sound) (src : Bytes) (answer : Alloc) :
    ∃ r, b.append src answer = some r ∧ b.Does (· ++ src) src.length answer r := by
  unfold append
  by_cases hsrc : src = []
  · rw [if_pos hsrc, hsrc]
    exact ⟨_, rfl, hb, rfl, iff_of_false (by rintro ⟨⟩) (not_refuses hb answer),
      fun _ => (List.append_nil _).symm, (by rintro ⟨⟩)⟩
  · rw [if_neg hsrc]
    refine withRoom_does hb _ _ (fun c hc hlen hroom => ?_)
    have hstored : (Memory.store c.data c.len src).length = c.cap := by
      rw [Memory.length_store, hc.size]
      rw [hc.size]
      omega
    refine ⟨⟨hstored, hroom, hc.fits, hc.limit, hc.grows⟩, rfl, ?_⟩
    have htake : (c.data.take c.len).length = c.len := content_length hc
    rw [content, content, Memory.store, ← hlen]
    conv_lhs => rw [← htake]
    rw [← List.length_append, List.take_left', htake]
    rw [htake]

/-- The buffer without its memory. -/
def toBuffer (b : GrowBuffer) : Buffer := ⟨b.content, b.max, b.hitLimit⟩

/-- An append is that of a buffer without memory, unless it gets none. -/
theorem append_toBuffer (hb : b.Sound) (src : Bytes) (answer : Alloc) :
    ∃ c ok, b.append src answer = some (c, ok) ∧ ((c.toBuffer, ok) = b.toBuffer.tryAppend src ∨
      ok = false ∧ c.toBuffer = b.toBuffer ∧
        (answer = none ∨ 2 ^ 64 ≤ b.askedCap (b.len + src.length) + allocHeader)) := by
  obtain ⟨⟨c, ok⟩, hrun, hdoes⟩ := append_does hb src answer
  refine ⟨c, ok, hrun, ?_⟩
  unfold append at hrun
  unfold Buffer.tryAppend
  by_cases hsrc : src = []
  · rw [if_pos hsrc] at hrun ⊢
    cases hrun
    exact .inl rfl
  rw [if_neg hsrc] at hrun ⊢
  have hlen : b.toBuffer.data.length = b.len := content_length hb
  have hmax : b.toBuffer.max = b.max := rfl
  unfold withRoom at hrun
  rw [hlen]
  rcases Nat.lt_or_ge (b.len + src.length) (2 ^ 64) with hfits | hover
  · rw [sizeAdd_of_lt hfits] at hrun ⊢
    obtain ⟨r, hr, hgrown⟩ := growTo_grown hb hfits answer
    dsimp only at hrun ⊢
    rw [hr, Option.map_some, Option.some.injEq] at hrun
    have hflag := hgrown.flag
    cases hok : r.2 with
    | true =>
      rw [hok, if_pos rfl] at hrun
      cases hrun
      have hwithin : ¬(b.max ≠ 0 ∧ b.len + src.length > b.max) := fun h => by
        have hroom := hgrown.room hok
        have hlimit := hgrown.sound.limit (hgrown.max ▸ h.1)
        rw [hgrown.max] at hlimit
        omega
      have hflag : r.1.hitLimit = b.hitLimit := by
        rw [hflag, decide_eq_false hwithin, Bool.or_false]
      left
      rw [hmax, if_neg hwithin, Prod.mk.injEq]
      refine ⟨?_, rfl⟩
      have hcontent := hdoes.success rfl
      unfold toBuffer
      rw [hcontent]
      dsimp only
      rw [hgrown.max, hflag]
    | false =>
      rw [hok, if_neg (by decide)] at hrun
      cases hrun
      have hcontent := hgrown.content hb
      by_cases hlimit : b.max ≠ 0 ∧ b.len + src.length > b.max
      · left
        rw [hmax, if_pos hlimit, Prod.mk.injEq]
        refine ⟨?_, rfl⟩
        unfold toBuffer
        rw [hcontent, hgrown.max, hflag, decide_eq_true hlimit, Bool.or_true]
      · right
        refine ⟨rfl, ?_, (hgrown.refused.mp hok).2.resolve_left hlimit⟩
        unfold toBuffer
        rw [hcontent, hgrown.max, hflag, decide_eq_false hlimit, Bool.or_false]
  · rw [sizeAdd_of_ge hover] at hrun ⊢
    cases hrun
    exact .inl rfl

lemma consume_does (hb : b.Sound) (n : Nat) (answer : Alloc) :
    b.Does (·.drop n) 0 answer (b.consume n, true) := by
  have hlen := content_length hb
  unfold consume
  by_cases hall : n ≥ b.len
  · rw [if_pos hall]
    refine ⟨⟨hb.size, Nat.zero_le _, hb.fits, hb.limit, hb.grows⟩, rfl,
      iff_of_false (by rintro ⟨⟩) (not_refuses hb answer), fun _ => ?_, (by rintro ⟨⟩)⟩
    rw [List.drop_eq_nil_of_le (by omega)]
    rfl
  · rw [if_neg hall]
    have hused := hb.used
    have hmoved : ((b.data.drop n).take (b.len - n)).length = b.len - n := by
      rw [List.length_take, List.length_drop, hb.size]
      omega
    refine ⟨⟨?_, ?_, hb.fits, hb.limit, hb.grows⟩, rfl,
      iff_of_false (by rintro ⟨⟩) (not_refuses hb answer), fun _ => ?_, (by rintro ⟨⟩)⟩
    · dsimp only
      rw [Memory.length_store, hb.size]
      rw [hmoved, hb.size]
      omega
    · dsimp only
      omega
    · rw [content, content, Memory.store_zero]
      dsimp only
      conv_lhs => rw [← hmoved]
      rw [hmoved, List.take_left' hmoved, List.drop_take]

/-- The terminator stands behind the bytes. -/
lemma cstr_does (hb : b.Sound) (answer : Alloc) :
    ∃ r, b.cstr answer = some r ∧ b.Does id 1 answer r := by
  refine withRoom_does hb _ _ (fun c hc hlen hroom => ?_)
  have hused : c.len + [(0 : UInt8)].length ≤ c.data.length := by
    rw [hc.size, List.length_singleton]
    omega
  refine ⟨⟨(Memory.length_store hused).trans hc.size, hc.used, hc.fits, hc.limit, hc.grows⟩,
    rfl, ?_⟩
  exact Memory.take_store (Nat.le_refl _) (by omega)

lemma cstr_terminated (hb : b.Sound) {answer : Alloc} {c : GrowBuffer}
    (h : b.cstr answer = some (c, true)) : c.data[c.len]? = some 0 := by
  unfold cstr withRoom at h
  split at h
  · cases h
  · rename_i need hneed
    obtain ⟨hlt, heq⟩ := Option.ite_none_right_eq_some.mp hneed
    cases heq
    obtain ⟨r, hr, hgrown⟩ := growTo_grown hb hlt answer
    rw [hr, Option.map_some] at h
    cases hok : r.2 with
    | false =>
      rw [hok, if_neg (by decide)] at h
      cases h
    | true =>
      have hroom := hgrown.room hok
      have hlen : (r.1.data.take r.1.len).length = r.1.len := content_length hgrown.sound
      rw [hok, if_pos rfl] at h
      cases h
      dsimp only
      rw [Memory.store, List.append_assoc, List.getElem?_append_right (by omega), hlen,
        Nat.sub_self]
      rfl

end GrowBuffer

/-! ### Calls -/

namespace BufferOp

open GrowBuffer

/-- What an operation does to a list of bytes. -/
def onList : BufferOp → Bytes → Bytes
  | append src, l => l ++ src
  | appendStr s, l => l ++ s
  | appendByte c, l => l ++ [c]
  | appendU64 v, l => l ++ Decimal.decimalText v.toNat
  | reserve _, l => l
  | consume n, l => l.drop n
  | reset, _ => []
  | cstr, l => l

/-- The room an operation needs behind the bytes that are there. -/
def extra : BufferOp → Nat
  | append src => src.length
  | appendStr s => s.length
  | appendByte _ => 1
  | appendU64 v => (Decimal.decimalText v.toNat).length
  | reserve n => n
  | consume _ => 0
  | reset => 0
  | cstr => 1

/-- The operations that succeeded, on a list. -/
def onListAll : List BufferOp → List Bool → Bytes → Bytes
  | op :: ops, ok :: oks, l => onListAll ops oks (if ok then op.onList l else l)
  | _, _, l => l

lemma u64_digits {v : UInt64} (hv : v ≠ 0) :
    Decimal.digitsOnto 20 v.toNat [] = Decimal.decimalText v.toNat := by
  have hne : v.toNat ≠ 0 := fun h => hv (UInt64.toNat_inj.mp h)
  have hlt := v.toNat_lt
  rw [Decimal.decimalText, if_neg hne]
  exact Decimal.digitsOnto_room (by omega) (Nat.lt_pow_self (by omega)) []

variable {b : GrowBuffer}

lemma run_does (hb : b.Sound) (answer : Alloc) (op : BufferOp) :
    ∃ r, op.run b answer = some r ∧ b.Does op.onList op.extra answer r := by
  cases op with
  | append src => exact append_does hb src answer
  | appendStr s => exact append_does hb s answer
  | appendByte c => exact append_does hb [c] answer
  | appendU64 v =>
    by_cases hv : v = 0
    · subst hv
      exact append_does hb [48] answer
    · have hrun : (appendU64 v).run b answer = b.append (Decimal.decimalText v.toNat) answer := by
        rw [← u64_digits hv]
        exact if_neg hv
      rw [hrun]
      exact append_does hb _ answer
  | reserve n =>
    change ∃ r, b.withRoom n answer (fun _ b => b) = some r ∧ b.Does id n answer r
    exact withRoom_does hb n answer (fun c hc _ _ => ⟨hc, rfl, rfl⟩)
  | consume n => exact ⟨_, rfl, consume_does hb n answer⟩
  | reset => exact ⟨_, rfl, ⟨hb.size, Nat.zero_le _, hb.fits, hb.limit, hb.grows⟩, rfl,
      iff_of_false (by rintro ⟨⟩) (not_refuses hb answer), fun _ => rfl, (by rintro ⟨⟩)⟩
  | cstr => exact cstr_does hb answer

lemma runAll_content (calls : List (BufferOp × Alloc)) (hb : b.Sound) :
    ∃ c oks, runAll calls b = some (c, oks) ∧ oks.length = calls.length ∧ c.Sound ∧
      c.max = b.max ∧ c.content = onListAll (calls.map Prod.fst) oks b.content := by
  induction calls generalizing b with
  | nil => exact ⟨b, [], rfl, rfl, hb, rfl, rfl⟩
  | cons call calls ih =>
    obtain ⟨op, answer⟩ := call
    obtain ⟨⟨b', ok⟩, hrun, hdoes⟩ := run_does hb answer op
    obtain ⟨c, oks, hruns, hlen, hsound, hmax, hcontent⟩ := ih hdoes.sound
    refine ⟨c, ok :: oks, ?_, by rw [List.length_cons, List.length_cons, hlen], hsound,
      hmax.trans hdoes.max, ?_⟩
    · rw [runAll, hrun, Option.bind_eq_bind, Option.bind_some]
      dsimp only
      rw [hruns]
      rfl
    · rw [hcontent, List.map_cons, onListAll]
      congr 1
      cases ok with
      | true => exact hdoes.success rfl
      | false => exact hdoes.failure rfl

end BufferOp

namespace GrowBuffer

/-- The first capacity, cut to the limit. -/
def firstCap (initialCap max : Nat) : Nat :=
  if max ≠ 0 ∧ initialCap > max then max else initialCap

/-- A buffer without memory. -/
def empty (max : Nat) : GrowBuffer := ⟨[], 0, 0, max, false⟩

lemma init_sound {initialCap : Nat} (hinit : initialCap < 2 ^ 64) (max : Nat) (answer : Alloc) :
    ∃ b ok, init initialCap max answer = some (b, ok) ∧ b.Sound ∧ b.max = max ∧
      b.content = [] ∧ (ok = false ↔ (empty max).NoRoom (firstCap initialCap max) answer) := by
  have hempty : (empty max).Sound :=
    ⟨rfl, Nat.le_refl _, Nat.two_pow_pos 64, fun _ => Nat.zero_le _, .inl rfl⟩
  have hlt : firstCap initialCap max < 2 ^ 64 := by
    unfold firstCap
    split_ifs <;> omega
  have hinit : init initialCap max answer =
      if firstCap initialCap max = 0 then some (empty max, true)
      else (empty max).growTo (firstCap initialCap max) answer := rfl
  rw [hinit]
  by_cases hzero : firstCap initialCap max = 0
  · rw [if_pos hzero, hzero]
    exact ⟨_, _, rfl, hempty, rfl, rfl,
      iff_of_false (by rintro ⟨⟩) fun hno => absurd hno.1 (Nat.not_lt_zero _)⟩
  · rw [if_neg hzero]
    obtain ⟨⟨b, ok⟩, hr, hgrown⟩ := growTo_grown hempty hlt answer
    exact ⟨b, ok, hr, hgrown.sound, hgrown.max, hgrown.content hempty, hgrown.refused⟩

/-- A buffer behind any calls holds what the calls that succeeded make of the empty list, within
its capacity and its limit. Another call does to it what it does to the list, and fails only
where there is no room: the bytes are too many, or the allocator refuses the capacity, which is
enough and at most half more than that. -/
structure Refines (max : Nat) (l : Bytes) (b : GrowBuffer) : Prop where
  content : b.content = l
  size : b.data.length = b.cap
  used : b.len ≤ b.cap
  limit : max ≠ 0 → b.cap ≤ max
  call : ∀ (op : BufferOp) (answer : Alloc), ∃ c ok, op.run b answer = some (c, ok) ∧
    (ok = false ↔ b.Refuses op.extra answer) ∧
    (ok = true → c.content = op.onList l) ∧ (ok = false → c.content = l)
  asked : ∀ need < 2 ^ 64, b.cap < need → ¬(max ≠ 0 ∧ need > max) →
    need ≤ b.askedCap need ∧ (max ≠ 0 → b.askedCap need ≤ max) ∧
      b.askedCap need ≤ Nat.max 64 (need + need / 2)
  string : ∀ answer c, b.cstr answer = some (c, true) → c.data[c.len]? = some 0
  growth : ∀ need < 2 ^ 64, ∀ answer, (b.growTo need answer).isSome = true

lemma Sound.refines (hb : b.Sound) : Refines b.max b.content b where
  content := rfl
  size := hb.size
  used := hb.used
  limit := hb.limit
  call := by
    intro op answer
    obtain ⟨⟨c, ok⟩, hrun, hdoes⟩ := BufferOp.run_does hb answer op
    exact ⟨c, ok, hrun, hdoes.refused, hdoes.success, hdoes.failure⟩
  asked := by
    intro need hneed hmore hlimit
    obtain ⟨-, -, hroom, hmax, hupper, -⟩ := askedCap_spec hb hneed hmore hlimit
    exact ⟨hroom, hmax, hupper⟩
  string := fun _ _ h => cstr_terminated hb h
  growth := by
    intro need hneed answer
    obtain ⟨r, hr, -⟩ := growTo_grown hb hneed answer
    rw [hr]
    rfl

end GrowBuffer

lemma parseU64_decimalText (v : UInt64) :
    parseU64Strict (Decimal.decimalText v.toNat) = some v.toNat := by
  have hlt := v.toNat_lt
  refine (parseU64Strict_eq_some _ _).mpr
    ⟨⟨⟨Decimal.decimalText_ne_nil _, Decimal.decimalText_digits _⟩, ?_⟩, ?_⟩
  · rw [Decimal.decimalValue_decimalText]
    omega
  · exact (Decimal.decimalValue_decimalText _).symm

/-- From any first capacity, with any limit and any answers of the allocator, a run of calls
returns, and leaves the bytes that the calls which succeeded make of a list. -/
theorem bufferRun_refines {initialCap : Nat} (hinit : initialCap < 2 ^ 64) (max : Nat)
    (answer : Alloc) (calls : List (BufferOp × Alloc)) :
    ∃ b ok c oks, GrowBuffer.init initialCap max answer = some (b, ok) ∧
      (ok = false ↔ (GrowBuffer.empty max).NoRoom (GrowBuffer.firstCap initialCap max) answer) ∧
      GrowBuffer.Refines max [] b ∧
      BufferOp.runAll calls b = some (c, oks) ∧ oks.length = calls.length ∧
      GrowBuffer.Refines max (BufferOp.onListAll (calls.map Prod.fst) oks []) c ∧
      ∀ v : UInt64, parseU64Strict ((BufferOp.appendU64 v).onList []) = some v.toNat := by
  obtain ⟨b, ok, hb, hsound, hmax, hempty, hok⟩ := GrowBuffer.init_sound hinit max answer
  obtain ⟨c, oks, hrun, hlen, hc, hcmax, hcontent⟩ := BufferOp.runAll_content calls hsound
  refine ⟨b, ok, c, oks, hb, hok, ?_, hrun, hlen, ?_, parseU64_decimalText⟩
  · have hfirst := hsound.refines
    rwa [hempty, hmax] at hfirst
  · rw [← hempty, ← hcontent, ← hmax, ← hcmax]
    exact hc.refines

/-- The calls on a buffer of at most 3 bytes: it fills, refuses two more and is shifted. -/
def smallCalls : List (BufferOp × Alloc) :=
  [(.append [1, 2], some (fun _ => 7)), (.append [3, 4], none), (.consume 1, none),
    (.appendU64 9, none)]

theorem bufferRun_refines_small :
    ∃ b c oks, GrowBuffer.init 0 3 none = some (b, true) ∧
      BufferOp.runAll smallCalls b = some (c, oks) ∧ oks = [true, false, true, true] ∧
      GrowBuffer.Refines 3 [2, 57] c := by
  obtain ⟨b, ok, c, oks, hb, -, -, hrun, -, hrefines, -⟩ :=
    bufferRun_refines (Nat.two_pow_pos 64) 3 none smallCalls
  have hends : ((GrowBuffer.init 0 3 none).bind fun r => (BufferOp.runAll smallCalls r.1).map
      fun s => (r.2, s.2)) = some (true, [true, false, true, true]) := by decide +kernel
  rw [hb, Option.bind_some, hrun] at hends
  cases hends
  exact ⟨b, c, _, hb, hrun, rfl, hrefines⟩

end Zuhttp
