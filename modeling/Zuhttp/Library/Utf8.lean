import Mathlib.Data.List.Basic

/-!
# UTF-8

The texts that encode a sequence of Unicode scalar values. A `Char` is such a value, and its
encodings are the sequences of the table in RFC 3629.
-/

namespace Utf8

/-- The encoding of some sequence of scalar values. -/
def Text (s : List UInt8) : Prop := ∃ cs : List Char, cs.flatMap String.utf8EncodeChar = s

/-- `UTF8-tail`. -/
def IsTail (c : UInt8) : Prop := 0x80 ≤ c ∧ c ≤ 0xBF

instance (c : UInt8) : Decidable (IsTail c) := inferInstanceAs (Decidable (_ ∧ _))

/-- `UTF8-char`: the second byte excludes what a shorter encoding has, the surrogates and what
is above the last scalar value. -/
inductive IsChar : List UInt8 → Prop
  | one {a} (ha : a < 0x80) : IsChar [a]
  | two {a b} (ha : 0xC2 ≤ a ∧ a ≤ 0xDF) (hb : IsTail b) : IsChar [a, b]
  | three {a b c} (ha : 0xE0 ≤ a ∧ a ≤ 0xEF) (hb : IsTail b) (hshort : a = 0xE0 → 0xA0 ≤ b)
      (hsurrogate : a = 0xED → b ≤ 0x9F) (hc : IsTail c) : IsChar [a, b, c]
  | four {a b c d} (ha : 0xF0 ≤ a ∧ a ≤ 0xF4) (hb : IsTail b) (hshort : a = 0xF0 → 0x90 ≤ b)
      (hlast : a = 0xF4 → b ≤ 0x8F) (hc : IsTail c) (hd : IsTail d) : IsChar [a, b, c, d]

/-! ### Characters -/

lemma val_toNat {n : Nat} (h : n.isValidChar) : (Char.ofNatAux n h).val.toNat = n := rfl

lemma isTail_iff (c : UInt8) : IsTail c ↔ 128 ≤ c.toNat ∧ c.toNat ≤ 191 := Iff.rfl

/-- The byte of six bits of a value. -/
lemma isTail_ofNat (n : Nat) : IsTail (UInt8.ofNat (n % 0x40 + 0x80)) := by
  rw [isTail_iff, UInt8.toNat_ofNat']
  omega

lemma ofNat_eq {a : UInt8} {n : Nat} (h : n = a.toNat) : UInt8.ofNat n = a := by
  rw [h, UInt8.ofNat_toNat]

/-- Every scalar value has an encoding of the table. -/
lemma isChar_encode (c : Char) : IsChar (String.utf8EncodeChar c) := by
  have hvalid : c.val.toNat < 0xd800 ∨ 0xdfff < c.val.toNat ∧ c.val.toNat < 0x110000 := c.valid
  unfold String.utf8EncodeChar
  generalize c.val.toNat = v at hvalid
  dsimp only
  split_ifs with h1 h2 h3
  · refine .one ?_
    rw [UInt8.lt_iff_toNat_lt, UInt8.toNat_ofNat']
    change v % 256 < 128
    omega
  · refine .two ?_ (isTail_ofNat v)
    rw [UInt8.le_iff_toNat_le, UInt8.le_iff_toNat_le, UInt8.toNat_ofNat']
    change 194 ≤ (v / 64 % 32 + 192) % 256 ∧ (v / 64 % 32 + 192) % 256 ≤ 223
    omega
  · have hb := isTail_ofNat (v / 64)
    refine .three ?_ hb ?_ ?_ (isTail_ofNat v)
    · rw [UInt8.le_iff_toNat_le, UInt8.le_iff_toNat_le, UInt8.toNat_ofNat']
      change 224 ≤ (v / 4096 % 16 + 224) % 256 ∧ (v / 4096 % 16 + 224) % 256 ≤ 239
      omega
    · rw [← UInt8.toNat_inj, UInt8.le_iff_toNat_le, UInt8.toNat_ofNat', UInt8.toNat_ofNat']
      change (v / 4096 % 16 + 224) % 256 = 224 → 160 ≤ (v / 64 % 64 + 128) % 256
      omega
    · rw [← UInt8.toNat_inj, UInt8.le_iff_toNat_le, UInt8.toNat_ofNat', UInt8.toNat_ofNat']
      change (v / 4096 % 16 + 224) % 256 = 237 → (v / 64 % 64 + 128) % 256 ≤ 159
      omega
  · have hb := isTail_ofNat (v / 4096)
    refine .four ?_ hb ?_ ?_ (isTail_ofNat (v / 64)) (isTail_ofNat v)
    · rw [UInt8.le_iff_toNat_le, UInt8.le_iff_toNat_le, UInt8.toNat_ofNat']
      change 240 ≤ (v / 262144 % 8 + 240) % 256 ∧ (v / 262144 % 8 + 240) % 256 ≤ 244
      omega
    · rw [← UInt8.toNat_inj, UInt8.le_iff_toNat_le, UInt8.toNat_ofNat', UInt8.toNat_ofNat']
      change (v / 262144 % 8 + 240) % 256 = 240 → 144 ≤ (v / 4096 % 64 + 128) % 256
      omega
    · rw [← UInt8.toNat_inj, UInt8.le_iff_toNat_le, UInt8.toNat_ofNat', UInt8.toNat_ofNat']
      change (v / 262144 % 8 + 240) % 256 = 244 → (v / 4096 % 64 + 128) % 256 ≤ 143
      omega

lemma encode_one {v : Nat} (h : v.isValidChar) (hv : v ≤ 0x7f) :
    String.utf8EncodeChar (Char.ofNatAux v h) = [UInt8.ofNat v] := by
  unfold String.utf8EncodeChar
  rw [val_toNat]
  exact if_pos hv

lemma encode_two {v : Nat} (h : v.isValidChar) (hlow : 0x7f < v) (hv : v ≤ 0x7ff) :
    String.utf8EncodeChar (Char.ofNatAux v h) =
      [UInt8.ofNat (v / 64 % 0x20 + 0xc0), UInt8.ofNat (v % 0x40 + 0x80)] := by
  unfold String.utf8EncodeChar
  rw [val_toNat]
  dsimp only
  rw [if_neg (by omega), if_pos hv]

lemma encode_three {v : Nat} (h : v.isValidChar) (hlow : 0x7ff < v) (hv : v ≤ 0xffff) :
    String.utf8EncodeChar (Char.ofNatAux v h) = [UInt8.ofNat (v / 4096 % 0x10 + 0xe0),
      UInt8.ofNat (v / 64 % 0x40 + 0x80), UInt8.ofNat (v % 0x40 + 0x80)] := by
  unfold String.utf8EncodeChar
  rw [val_toNat]
  dsimp only
  rw [if_neg (by omega), if_neg (by omega), if_pos hv]

lemma encode_four {v : Nat} (h : v.isValidChar) (hlow : 0xffff < v) :
    String.utf8EncodeChar (Char.ofNatAux v h) = [UInt8.ofNat (v / 262144 % 0x08 + 0xf0),
      UInt8.ofNat (v / 4096 % 0x40 + 0x80), UInt8.ofNat (v / 64 % 0x40 + 0x80),
      UInt8.ofNat (v % 0x40 + 0x80)] := by
  unfold String.utf8EncodeChar
  rw [val_toNat]
  dsimp only
  rw [if_neg (by omega), if_neg (by omega), if_neg (by omega)]

/-- The table is that of the encodings. -/
theorem isChar_iff (s : List UInt8) : IsChar s ↔ ∃ c, String.utf8EncodeChar c = s := by
  constructor
  · intro h
    cases h with
    | @one a ha =>
      have ha : a.toNat < 128 := ha
      have hv : a.toNat.isValidChar := .inl (by omega)
      exact ⟨_, (encode_one hv (by omega)).trans (by rw [UInt8.ofNat_toNat])⟩
    | @two a b ha hb =>
      have ha : 194 ≤ a.toNat ∧ a.toNat ≤ 223 := ha
      rw [isTail_iff] at hb
      have hv : ((a.toNat - 192) * 64 + (b.toNat - 128)).isValidChar := .inl (by omega)
      refine ⟨_, (encode_two hv (by omega) (by omega)).trans ?_⟩
      rw [ofNat_eq (a := a) (by omega), ofNat_eq (a := b) (by omega)]
    | @three a b c ha hb hshort hsurrogate hc =>
      have ha : 224 ≤ a.toNat ∧ a.toNat ≤ 239 := ha
      rw [isTail_iff] at hb hc
      have hshort : a.toNat = 224 → 160 ≤ b.toNat := fun h => hshort (UInt8.toNat_inj.mp h)
      have hsurrogate : a.toNat = 237 → b.toNat ≤ 159 :=
        fun h => hsurrogate (UInt8.toNat_inj.mp h)
      have hv : ((a.toNat - 224) * 4096 + (b.toNat - 128) * 64 + (c.toNat - 128)).isValidChar := by
        unfold Nat.isValidChar
        omega
      refine ⟨_, (encode_three hv (by omega) (by omega)).trans ?_⟩
      rw [ofNat_eq (a := a) (by omega), ofNat_eq (a := b) (by omega),
        ofNat_eq (a := c) (by omega)]
    | @four a b c d ha hb hshort hlast hc hd =>
      have ha : 240 ≤ a.toNat ∧ a.toNat ≤ 244 := ha
      rw [isTail_iff] at hb hc hd
      have hshort : a.toNat = 240 → 144 ≤ b.toNat := fun h => hshort (UInt8.toNat_inj.mp h)
      have hlast : a.toNat = 244 → b.toNat ≤ 143 := fun h => hlast (UInt8.toNat_inj.mp h)
      have hv : ((a.toNat - 240) * 262144 + (b.toNat - 128) * 4096 + (c.toNat - 128) * 64 +
          (d.toNat - 128)).isValidChar := by
        unfold Nat.isValidChar
        omega
      refine ⟨_, (encode_four hv (by omega)).trans ?_⟩
      rw [ofNat_eq (a := a) (by omega), ofNat_eq (a := b) (by omega),
        ofNat_eq (a := c) (by omega), ofNat_eq (a := d) (by omega)]
  · rintro ⟨c, rfl⟩
    exact isChar_encode c

/-- A character is a byte that is no tail, and tails behind it. -/
lemma IsChar.tails {s : List UInt8} (h : IsChar s) :
    ∃ a t, s = a :: t ∧ ∀ c ∈ t, IsTail c := by
  cases h with
  | one ha => exact ⟨_, _, rfl, by simp⟩
  | two ha hb => exact ⟨_, _, rfl, by simpa using hb⟩
  | three ha hb _ _ hc => exact ⟨_, _, rfl, by simpa using ⟨hb, hc⟩⟩
  | four ha hb _ _ hc hd => exact ⟨_, _, rfl, by simpa using ⟨hb, hc, hd⟩⟩

/-! ### Texts -/

lemma Text.nil : Text [] := ⟨[], rfl⟩

lemma Text.append {s t : List UInt8} (hs : Text s) (ht : Text t) : Text (s ++ t) := by
  obtain ⟨cs, rfl⟩ := hs
  obtain ⟨ds, rfl⟩ := ht
  exact ⟨cs ++ ds, List.flatMap_append⟩

lemma IsChar.text {s : List UInt8} (h : IsChar s) : Text s := by
  obtain ⟨c, rfl⟩ := (isChar_iff s).mp h
  exact ⟨[c], by simp⟩

lemma Text.ascii {s : List UInt8} (h : ∀ c ∈ s, c < 0x80) : Text s := by
  induction s with
  | nil => exact .nil
  | cons c s ih =>
    rw [List.forall_mem_cons] at h
    exact (IsChar.one h.1).text.append (ih h.2)

/-- A text that is not empty begins with a character. -/
lemma Text.split {s : List UInt8} (h : Text s) (hne : s ≠ []) :
    ∃ x t, s = x ++ t ∧ IsChar x ∧ Text t := by
  obtain ⟨cs, rfl⟩ := h
  cases cs with
  | nil => exact absurd rfl hne
  | cons c cs => exact ⟨_, _, rfl, isChar_encode c, cs, rfl⟩

/-- A text may be cut in front of any byte that is no tail. -/
theorem Text.cut {s t : List UInt8} (h : Text (s ++ t)) (ht : ∀ c ∈ t.head?, ¬IsTail c) :
    Text s := by
  obtain ⟨cs, hcs⟩ := h
  induction cs generalizing s with
  | nil =>
    obtain ⟨rfl, -⟩ := List.append_eq_nil_iff.mp hcs.symm
    exact .nil
  | cons c cs ih =>
    rw [List.flatMap_cons, List.append_eq_append_iff] at hcs
    rcases hcs with ⟨u, rfl, hrest⟩ | ⟨u, hchar, ht'⟩
    · exact (isChar_encode c).text.append (ih hrest)
    · cases u with
      | nil =>
        rw [List.append_nil] at hchar
        rw [← hchar]
        exact (isChar_encode c).text
      | cons d u =>
        -- the cut is inside of this character
        obtain ⟨a, tails, hsplit, htails⟩ := (isChar_encode c).tails
        cases s with
        | nil => exact .nil
        | cons b s =>
          rw [hchar, List.cons_append, List.cons.injEq] at hsplit
          have hd : IsTail d := htails d (hsplit.2 ▸ by simp)
          exact absurd hd (ht d (by rw [ht']; rfl))

end Utf8
