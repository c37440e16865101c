import Zuhttp.Library.Utf8
import Zuhttp.Utf8

/-!
# The validation is exact

One turn of the loop accepts the characters of UTF-8 and nothing else.
-/

namespace Zuhttp

open Utf8

/-! ### The bounds that a first byte sets -/

lemma utf8Lead_two {c : UInt8} (h : 0xC2 ≤ c ∧ c ≤ 0xDF) :
    utf8Lead c = some (1, 0x80, 0xBF) :=
  if_pos h

lemma utf8Lead_three {c : UInt8} (h : 0xE0 ≤ c ∧ c ≤ 0xEF) :
    utf8Lead c =
      some (2, if c = 0xE0 then 0xA0 else 0x80, if c = 0xED then 0x9F else 0xBF) := by
  grind [utf8Lead]

lemma utf8Lead_four {c : UInt8} (h : 0xF0 ≤ c ∧ c ≤ 0xF4) :
    utf8Lead c =
      some (3, if c = 0xF0 then 0x90 else 0x80, if c = 0xF4 then 0x8F else 0xBF) := by
  grind [utf8Lead]

lemma utf8Lead_none {c : UInt8} (h2 : ¬(0xC2 ≤ c ∧ c ≤ 0xDF)) (h3 : ¬(0xE0 ≤ c ∧ c ≤ 0xEF))
    (h4 : ¬(0xF0 ≤ c ∧ c ≤ 0xF4)) : utf8Lead c = none := by
  grind [utf8Lead]

/-! ### What follows a first byte -/

/-- A second byte within the bounds of the source is a tail that is not excluded. -/
lemma isTail_of_bounds {c lo hi : UInt8} (hlo : 0x80 ≤ lo) (hhi : hi ≤ 0xBF)
    (h : ¬(c < lo ∨ c > hi)) : IsTail c := by
  rw [not_or, UInt8.not_lt, gt_iff_lt, UInt8.not_lt] at h
  exact ⟨UInt8.le_trans hlo h.1, UInt8.le_trans h.2 hhi⟩

lemma isTail_of_not {c : UInt8} : (!decide (c < 0x80 ∨ c > 0xBF)) = true ↔ IsTail c := by
  rw [Bool.not_eq_true', decide_eq_false_iff_not, not_or, UInt8.not_lt, gt_iff_lt, UInt8.not_lt]
  exact Iff.rfl

/-- What `utf8Follows` accepts, as the bytes it is. -/
lemma utf8Follows_iff {k : Nat} {lo hi : UInt8} {s : Bytes} :
    utf8Follows (k + 1) lo hi s = true ↔ ∃ d tails rest, s = d :: (tails ++ rest) ∧
      tails.length = k ∧ ¬(d < lo ∨ d > hi) ∧ ∀ c ∈ tails, IsTail c := by
  unfold utf8Follows
  constructor
  · intro h
    cases s with
    | nil => simp at h
    | cons d s =>
      split_ifs at h with hlen
      dsimp only at h
      split_ifs at h with hd
      rw [Nat.add_sub_cancel, List.all_eq_true] at h
      rw [List.length_cons] at hlen
      exact ⟨d, s.take k, s.drop k, by rw [List.take_append_drop], by simp; omega, hd,
        fun c hc => isTail_of_not.mp (h c hc)⟩
  · rintro ⟨d, tails, rest, rfl, rfl, hd, htails⟩
    rw [if_neg (by simp)]
    dsimp only
    rw [if_neg hd, Nat.add_sub_cancel, List.take_left, List.all_eq_true]
    exact fun c hc => isTail_of_not.mpr (htails c hc)

/-- The bytes that a first byte may need are a character together with it. -/
lemma isChar_of_follows {c : UInt8} {need : Nat} {lo hi : UInt8}
    (hlead : utf8Lead c = some (need, lo, hi)) {s : Bytes}
    (h : utf8Follows need lo hi s = true) : IsChar (c :: s.take need) := by
  by_cases h2 : 0xC2 ≤ c ∧ c ≤ 0xDF
  · rw [utf8Lead_two h2] at hlead
    cases hlead
    obtain ⟨d, tails, rest, rfl, hlen, hd, -⟩ := utf8Follows_iff.mp h
    obtain rfl := List.length_eq_zero_iff.mp hlen
    exact .two h2 (isTail_of_bounds (by decide) (by decide) hd)
  by_cases h3 : 0xE0 ≤ c ∧ c ≤ 0xEF
  · rw [utf8Lead_three h3] at hlead
    cases hlead
    obtain ⟨d, tails, rest, rfl, hlen, hd, htails⟩ := utf8Follows_iff.mp h
    obtain ⟨e, rfl⟩ := List.length_eq_one_iff.mp hlen
    refine .three h3 (isTail_of_bounds ?_ ?_ hd) ?_ ?_ (htails e (by simp))
    · split_ifs <;> decide
    · split_ifs <;> decide
    · intro hshort
      rw [if_pos hshort, not_or] at hd
      exact UInt8.not_lt.mp hd.1
    · intro hsurrogate
      rw [if_pos hsurrogate, not_or] at hd
      exact UInt8.not_lt.mp hd.2
  by_cases h4 : 0xF0 ≤ c ∧ c ≤ 0xF4
  · rw [utf8Lead_four h4] at hlead
    cases hlead
    obtain ⟨d, tails, rest, rfl, hlen, hd, htails⟩ := utf8Follows_iff.mp h
    obtain ⟨e, f, rfl⟩ := List.length_eq_two.mp hlen
    refine .four h4 (isTail_of_bounds ?_ ?_ hd) ?_ ?_ (htails e (by simp))
      (htails f (by simp))
    · split_ifs <;> decide
    · split_ifs <;> decide
    · intro hshort
      rw [if_pos hshort, not_or] at hd
      exact UInt8.not_lt.mp hd.1
    · intro hlast
      rw [if_pos hlast, not_or] at hd
      exact UInt8.not_lt.mp hd.2
  · rw [utf8Lead_none h2 h3 h4] at hlead
    cases hlead

/-- A character that is not ASCII has the bytes that its first byte needs. -/
lemma follows_of_isChar {c : UInt8} (hc : ¬c < 0x80) {tails : Bytes} (h : IsChar (c :: tails))
    (rest : Bytes) : ∃ lo hi, utf8Lead c = some (tails.length, lo, hi) ∧
      utf8Follows tails.length lo hi (tails ++ rest) = true := by
  cases h with
  | one ha => exact absurd ha hc
  | @two _ b ha hb =>
    refine ⟨0x80, 0xBF, utf8Lead_two ha, ?_⟩
    refine utf8Follows_iff.mpr ⟨b, [], rest, rfl, rfl, ?_, by simp⟩
    rw [not_or]
    exact ⟨UInt8.not_lt.mpr hb.1, UInt8.not_lt.mpr hb.2⟩
  | @three _ b d ha hb hshort hsurrogate hd =>
    refine ⟨_, _, utf8Lead_three ha, ?_⟩
    refine utf8Follows_iff.mpr ⟨b, [d], rest, rfl, rfl, ?_, by simpa using hd⟩
    rw [not_or]
    constructor
    · split_ifs with heq
      · exact UInt8.not_lt.mpr (hshort heq)
      · exact UInt8.not_lt.mpr hb.1
    · split_ifs with heq
      · exact UInt8.not_lt.mpr (hsurrogate heq)
      · exact UInt8.not_lt.mpr hb.2
  | @four _ b d e ha hb hshort hlast hd he =>
    refine ⟨_, _, utf8Lead_four ha, ?_⟩
    refine utf8Follows_iff.mpr ⟨b, [d, e], rest, rfl, rfl, ?_, by simpa using ⟨hd, he⟩⟩
    rw [not_or]
    constructor
    · split_ifs with heq
      · exact UInt8.not_lt.mpr (hshort heq)
      · exact UInt8.not_lt.mpr hb.1
    · split_ifs with heq
      · exact UInt8.not_lt.mpr (hlast heq)
      · exact UInt8.not_lt.mpr hb.2

lemma tails_of_ascii {c : UInt8} (hc : c < 0x80) {tails : Bytes} (h : IsChar (c :: tails)) :
    tails = [] := by
  have hnot : ∀ low : UInt8, 0x80 ≤ low → ¬low ≤ c := fun low hlow hle =>
    UInt8.lt_irrefl _ (UInt8.lt_of_lt_of_le hc (UInt8.le_trans hlow hle))
  cases h with
  | one => rfl
  | two ha => exact absurd ha.1 (hnot _ (by decide))
  | three ha => exact absurd ha.1 (hnot _ (by decide))
  | four ha => exact absurd ha.1 (hnot _ (by decide))

lemma utf8ValidN_nil (n : Nat) : utf8ValidN n [] = true := by
  cases n <;> rfl

/-- One turn of the loop takes a character off the text. -/
lemma utf8ValidN_char {x t : Bytes} (hx : IsChar x) (n : Nat) :
    utf8ValidN (n + 1) (x ++ t) = utf8ValidN n t := by
  obtain ⟨c, tails, rfl, -⟩ := hx.tails
  rw [List.cons_append, utf8ValidN]
  by_cases hc : c < 0x80
  · rw [if_pos hc]
    rw [tails_of_ascii hc hx, List.nil_append]
  · obtain ⟨lo, hi, hlead, hfollows⟩ := follows_of_isChar hc hx t
    rw [if_neg hc, hlead]
    dsimp only
    rw [if_pos hfollows, List.drop_left]

lemma utf8ValidN_text {n : Nat} {s : Bytes} (hn : s.length ≤ n) :
    utf8ValidN n s = true ↔ Text s := by
  induction n generalizing s with
  | zero =>
    obtain rfl := List.length_eq_zero_iff.mp (Nat.le_zero.mp hn)
    exact iff_of_true rfl .nil
  | succ n ih =>
    constructor
    · intro h
      cases s with
      | nil => exact .nil
      | cons c s =>
        rw [List.length_cons] at hn
        rw [utf8ValidN] at h
        by_cases hc : c < 0x80
        · rw [if_pos hc] at h
          exact (IsChar.one hc).text.append ((ih (by omega)).mp h)
        · rw [if_neg hc] at h
          split at h
          · cases h
          · rename_i need lo hi hlead
            split_ifs at h with hfollows
            have hchar := (isChar_of_follows hlead hfollows).text
            have hrest := (ih (by rw [List.length_drop]; omega)).mp h
            have hwhole := hchar.append hrest
            rwa [List.cons_append, List.take_append_drop] at hwhole
    · intro h
      by_cases hs : s = []
      · rw [hs]
        exact utf8ValidN_nil _
      · obtain ⟨x, t, rfl, hx, ht⟩ := h.split hs
        obtain ⟨c, tails, rfl, -⟩ := hx.tails
        rw [utf8ValidN_char hx, ih]
        · exact ht
        · simp only [List.cons_append, List.length_cons, List.length_append] at hn
          omega

/-- Exactly the encodings of scalar values are valid. -/
theorem utf8Valid_iff (s : Bytes) : utf8Valid s = true ↔ Text s := utf8ValidN_text le_rfl

end Zuhttp
