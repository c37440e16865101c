import Mathlib.Data.List.Chain
import Zuhttp.Proofs.Phr

/-!
# Where a response head ends

A head that parses ends at its first empty line, and `is_complete`, from wherever it starts in
front of that line, finds the same end.
-/

namespace Zuhttp.Phr

open Incremental Incremental.Parse

deriving instance DecidableEq for Incremental.Parse, PhrResponse

/-! ### The head parser is incremental -/

lemma parseInt_stable : Stable parseInt := by
  have hcons : ∀ c s, parseInt (c :: s) = if Ascii.isDigit c then ok (c.toNat - 48) s else bad :=
    fun c s => rfl
  refine Stable.head rfl hcons (fun c => ?_)
  by_cases h : Ascii.isDigit c = true
  · simp only [h, if_true]
    exact Stable.pure _
  · simp only [h]
    exact Stable.refuse

lemma skipSpaces_stable : Stable skipSpaces := by
  have hcons : ∀ c s, skipSpaces (c :: s) = if c = 32 then skipSpaces s else ok () (c :: s) :=
    fun c s => rfl
  refine Stable.loop (fun _ u => u) rfl (fun c => ?_)
  by_cases h : c = 32
  · left
    intro s
    rw [hcons, if_pos h]
    cases skipSpaces s <;> rfl
  · right
    exact ⟨_, stable_unread () c, fun s => by rw [hcons, if_neg h]⟩

/-- A parser that waits for a number of bytes first. -/
lemma stable_waiting {α : Type} (n : Nat) {p : Bytes → Result α} (hp : Stable p) :
    Stable (fun s => if s.length < n then incomplete else p s) where
  ok_append := by
    intro s a r t h
    split_ifs at h with hshort
    rw [if_neg (by rw [List.length_append]; omega)]
    exact hp.ok_append t h
  bad_append := by
    intro s t h
    split_ifs at h with hshort
    rw [if_neg (by rw [List.length_append]; omega)]
    exact hp.bad_append t h

lemma parseInt3_stable : Stable parseInt3 :=
  stable_waiting 4 (parseInt_stable.bind (fun _ => parseInt_stable.bind
    (fun _ => parseInt_stable.map _)))

lemma parseHttpVersion_stable : Stable parseHttpVersion where
  ok_append := by
    intro s a r t h
    unfold parseHttpVersion at h ⊢
    split_ifs at h with hshort hname
    rw [if_neg (by rw [List.length_append]; omega), List.take_append_of_le_length (by omega),
      if_neg hname, List.drop_append_of_le_length (by omega)]
    exact parseInt_stable.ok_append t h
  bad_append := by
    intro s t h
    unfold parseHttpVersion at h ⊢
    split_ifs at h with hshort hname
    · rw [if_neg (by rw [List.length_append]; omega), List.take_append_of_le_length (by omega),
        if_pos hname]
    · rw [if_neg (by rw [List.length_append]; omega), List.take_append_of_le_length (by omega),
        if_neg hname, List.drop_append_of_le_length (by omega)]
      exact parseInt_stable.bad_append t h

lemma parseMessage_stable : Stable parseMessage := by
  refine getTokenToEol_stable.bind (fun msg => ?_)
  cases msg with
  | nil => exact Stable.pure _
  | cons c msg =>
    by_cases h : c = 32
    · simp only [h, if_true]
      exact Stable.pure _
    · simp only [h, if_false]
      exact Stable.refuse

theorem parseHead_stable (maxHeaders : Nat) : Stable (parseHead maxHeaders) :=
  parseHttpVersion_stable.bind (fun _ => (expectChar_stable 32).bind (fun _ =>
    skipSpaces_stable.bind (fun _ => parseInt3_stable.bind (fun _ =>
      parseMessage_stable.bind (fun _ => (parseHeaders_stable true maxHeaders).map _)))))

/-! ### The empty line -/

/-- A text that ends in an empty line. -/
def EndsHead (s : Bytes) : Prop := [10, 10] <:+ s ∨ [10, 13, 10] <:+ s

/-- Every CR but a last one stands in front of an LF. -/
def Clean (s : Bytes) : Prop := s.IsChain (fun a b => a = 13 → b = 10)

lemma EndsHead.prepend {s : Bytes} (h : EndsHead s) (t : Bytes) : EndsHead (t ++ s) :=
  h.imp (fun h => h.trans (List.suffix_append _ _)) (fun h => h.trans (List.suffix_append _ _))

lemma EndsHead.tail {c : UInt8} {s : Bytes} (hc : c ≠ 10) (h : EndsHead (c :: s)) :
    EndsHead s := by
  refine h.imp (fun h => ?_) (fun h => ?_)
  all_goals
    rcases List.suffix_cons_iff.mp h with heq | h
    · cases heq
      exact absurd rfl hc
    · exact h

lemma EndsHead.pos {s : Bytes} (h : EndsHead s) : 0 < s.length := by
  rcases h with h | h
  · exact Nat.lt_of_lt_of_le (by decide) h.length_le
  · exact Nat.lt_of_lt_of_le (by decide) h.length_le

/-- Bytes of a line. -/
def InLine (s : Bytes) : Prop := ∀ c ∈ s, c ≠ 13 ∧ c ≠ 10

/-- An end of a line. -/
def IsEol (e : Bytes) : Prop := e = [10] ∨ e = [13, 10]

lemma IsEol.shorter {e : Bytes} (he : IsEol e) (t : Bytes) : t.length < (e ++ t).length := by
  rw [List.length_append]
  rcases he with rfl | rfl <;> simp

section
variable {n : Nat} {s rest : Bytes}

lemma isComplete_other {c : UInt8} (hcr : c ≠ 13) (hlf : c ≠ 10) (n : Nat) (s : Bytes) :
    isComplete n (c :: s) = isComplete 0 s := by
  rw [isComplete.eq_def]
  dsimp only
  rw [if_neg hcr, if_neg hlf]

/-- A line end by itself, or one behind another. -/
lemma isComplete_eol (n : Nat) {e : Bytes} (he : IsEol e) (rest : Bytes) :
    isComplete n (e ++ rest) = if n + 1 = 2 then ok () rest else isComplete (n + 1) rest := by
  rcases he with rfl | rfl
  · rw [List.singleton_append, isComplete.eq_def]
    rfl
  · rw [List.cons_append, List.singleton_append, isComplete.eq_def]
    rfl

lemma isComplete_inLine (n : Nat) {c : Bytes} (hne : c ≠ []) (hc : InLine c) (rest : Bytes) :
    isComplete n (c ++ rest) = isComplete 0 rest := by
  induction c generalizing n with
  | nil => exact absurd rfl hne
  | cons a c ih =>
    obtain ⟨hcr, hlf⟩ := hc a (List.mem_cons_self ..)
    rw [List.cons_append, isComplete_other hcr hlf]
    by_cases h : c = []
    · rw [h, List.nil_append]
    · exact ih 0 h (fun b hb => hc b (List.mem_cons_of_mem _ hb))

/-- What the loop does with the first bytes it looks at. -/
lemma isComplete_cases (n : Nat) (s : Bytes) :
    ((s = [] ∨ s = [13]) ∧ isComplete n s = incomplete) ∨
      (∃ d t, s = 13 :: d :: t ∧ d ≠ 10 ∧ isComplete n s = bad) ∨
      (∃ e t, s = e ++ t ∧ IsEol e ∧
        isComplete n s = if n + 1 = 2 then ok () t else isComplete (n + 1) t) ∨
      ∃ c t, s = c :: t ∧ c ≠ 13 ∧ c ≠ 10 ∧ isComplete n s = isComplete 0 t := by
  match s with
  | [] => exact .inl ⟨.inl rfl, by rw [isComplete.eq_def]⟩
  | [c] =>
    by_cases hcr : c = 13
    · subst hcr
      exact .inl ⟨.inr rfl, by rw [isComplete.eq_def]; rfl⟩
    · by_cases hlf : c = 10
      · subst hlf
        exact .inr (.inr (.inl ⟨[10], [], rfl, .inl rfl, isComplete_eol n (.inl rfl) []⟩))
      · exact .inr (.inr (.inr ⟨c, [], rfl, hcr, hlf, isComplete_other hcr hlf n []⟩))
  | c :: d :: t =>
    by_cases hcr : c = 13
    · subst hcr
      by_cases hd : d = 10
      · subst hd
        exact .inr (.inr (.inl ⟨[13, 10], t, rfl, .inr rfl, isComplete_eol n (.inr rfl) t⟩))
      · refine .inr (.inl ⟨d, t, rfl, hd, ?_⟩)
        rw [isComplete.eq_def]
        exact if_pos hd
    · by_cases hlf : c = 10
      · subst hlf
        exact .inr (.inr (.inl ⟨[10], _, rfl, .inl rfl, isComplete_eol n (.inl rfl) _⟩))
      · exact .inr (.inr (.inr ⟨c, _, rfl, hcr, hlf, isComplete_other hcr hlf n _⟩))

lemma Clean.cons {c : UInt8} (hc : c ≠ 13) (h : Clean s) : Clean (c :: s) :=
  List.isChain_cons.mpr ⟨fun _ _ hcr => absurd hcr hc, h⟩

lemma Clean.eol {e : Bytes} (he : IsEol e) (h : Clean s) : Clean (e ++ s) := by
  have hlf : Clean (10 :: s) := h.cons (by decide)
  rcases he with rfl | rfl
  · exact hlf
  · exact List.isChain_cons_cons.mpr ⟨fun _ => rfl, hlf⟩

lemma EndsHead.eol {e : Bytes} (he : IsEol e) (h : EndsHead (10 :: s)) : EndsHead (e ++ s) := by
  rcases he with rfl | rfl
  · exact h
  · exact h.prepend [13]

/-- What is found complete ends in an empty line. -/
lemma isComplete_ok {u : Unit} (hn : n ≤ 1) (h : isComplete n s = ok u rest) :
    ∃ c, s = c ++ rest ∧ EndsHead (List.replicate n 10 ++ c) ∧ Clean c := by
  induction hk : s.length using Nat.strong_induction_on generalizing n s with
  | _ k ih =>
    rcases isComplete_cases n s with ⟨-, heq⟩ | ⟨d, t, -, -, heq⟩ | ⟨e, t, rfl, he, heq⟩ |
      ⟨c, t, rfl, hcr, hlf, heq⟩
    · rw [heq] at h
      cases h
    · rw [heq] at h
      cases h
    · rw [heq] at h
      split_ifs at h with hlast
      · cases h
        obtain rfl : n = 1 := by omega
        refine ⟨e, rfl, ?_, (List.append_nil e) ▸ Clean.eol he List.IsChain.nil⟩
        rcases he with rfl | rfl
        · exact .inl (List.suffix_refl _)
        · exact .inr (List.suffix_refl _)
      · obtain rfl : n = 0 := by omega
        have hshorter : t.length < k := by rw [← hk]; exact he.shorter t
        obtain ⟨c, rfl, hends, hclean⟩ := ih t.length hshorter (Nat.le_refl 1) h rfl
        have hwhole : EndsHead (e ++ c) := EndsHead.eol he hends
        exact ⟨e ++ c, (List.append_assoc ..).symm, hwhole, hclean.eol he⟩
    · rw [heq] at h
      have hshorter : t.length < k := by rw [← hk, List.length_cons]; omega
      obtain ⟨b, rfl, hends, hclean⟩ := ih t.length hshorter (Nat.zero_le 1) h rfl
      refine ⟨c :: b, rfl, ?_, hclean.cons hcr⟩
      have hwhole := hends.prepend (List.replicate n 10 ++ [c])
      rwa [List.append_assoc] at hwhole

lemma isComplete_bad (h : isComplete n s = bad) : ¬Clean s := by
  induction hk : s.length using Nat.strong_induction_on generalizing n s with
  | _ k ih =>
    rcases isComplete_cases n s with ⟨-, heq⟩ | ⟨d, t, rfl, hd, -⟩ | ⟨e, t, rfl, he, heq⟩ |
      ⟨c, t, rfl, hcr, hlf, heq⟩
    · rw [heq] at h
      cases h
    · exact fun hclean => hd ((List.isChain_cons_cons.mp hclean).1 rfl)
    · rw [heq] at h
      split_ifs at h with hlast
      have hshorter : t.length < k := by rw [← hk]; exact he.shorter t
      exact fun hclean => ih t.length hshorter h rfl hclean.right_of_append
    · rw [heq] at h
      have hshorter : t.length < k := by rw [← hk, List.length_cons]; omega
      exact fun hclean => ih t.length hshorter h rfl hclean.tail

instance (s : Bytes) : Decidable (EndsHead s) := inferInstanceAs (Decidable (_ ∨ _))

lemma not_endsHead_short (hn : n ≤ 1) {c : Bytes} (hc : c = [] ∨ c = [13]) :
    ¬EndsHead (List.replicate n 10 ++ c) := by
  have hcases : n = 0 ∨ n = 1 := by omega
  rcases hcases with rfl | rfl <;> rcases hc with rfl | rfl <;> decide

/-- What is not found complete has no empty line. -/
lemma isComplete_incomplete (hn : n ≤ 1) (h : isComplete n s = incomplete) {c : Bytes}
    (hc : c <+: s) : ¬EndsHead (List.replicate n 10 ++ c) := by
  induction hk : s.length using Nat.strong_induction_on generalizing n s c with
  | _ k ih =>
    rcases isComplete_cases n s with ⟨hs, -⟩ | ⟨d, t, -, -, heq⟩ | ⟨e, t, rfl, he, heq⟩ |
      ⟨a, t, rfl, hcr, hlf, heq⟩
    · refine not_endsHead_short hn ?_
      rcases hs with rfl | rfl
      · exact .inl (List.prefix_nil.mp hc)
      · rcases List.prefix_cons_iff.mp hc with rfl | ⟨t, rfl, ht⟩
        · exact .inl rfl
        · exact .inr (by rw [List.prefix_nil.mp ht])
    · rw [heq] at h
      cases h
    · rw [heq] at h
      split_ifs at h with hlast
      obtain rfl : n = 0 := by omega
      have hshorter : t.length < k := by rw [← hk]; exact he.shorter t
      have hrest : ∀ b, b <+: t → ¬EndsHead (10 :: b) := fun b hb =>
        ih t.length hshorter (Nat.le_refl 1) h hb rfl
      rcases he with rfl | rfl
      · rw [List.singleton_append] at hc
        rcases List.prefix_cons_iff.mp hc with rfl | ⟨b, rfl, hb⟩
        · decide
        · exact hrest b hb
      · rcases List.prefix_cons_iff.mp hc with rfl | ⟨b, rfl, hb⟩
        · decide
        · rcases List.prefix_cons_iff.mp hb with rfl | ⟨b', rfl, hb'⟩
          · decide
          · exact fun hends => hrest b' hb' (EndsHead.tail (by decide) hends)
    · rw [heq] at h
      have hshorter : t.length < k := by rw [← hk, List.length_cons]; omega
      rcases List.prefix_cons_iff.mp hc with rfl | ⟨b, rfl, hb⟩
      · exact not_endsHead_short hn (.inl rfl)
      · intro hends
        refine ih t.length hshorter (Nat.zero_le 1) h hb rfl (EndsHead.tail hlf ?_)
        have hcases : n = 0 ∨ n = 1 := by omega
        rcases hcases with rfl | rfl
        · exact hends
        · refine hends.imp (fun hends => ?_) (fun hends => ?_)
          all_goals
            rcases List.suffix_cons_iff.mp hends with heq | hends
            · simp_all
            · exact hends

lemma isComplete_stable (n : Nat) : Stable (isComplete n) where
  ok_append := by
    intro s u r t h
    induction hk : s.length using Nat.strong_induction_on generalizing n s with
    | _ k ih =>
      rcases isComplete_cases n s with ⟨-, heq⟩ | ⟨d, b, -, -, heq⟩ | ⟨e, b, rfl, he, heq⟩ |
        ⟨c, b, rfl, hcr, hlf, heq⟩
      · rw [heq] at h
        cases h
      · rw [heq] at h
        cases h
      · rw [heq] at h
        rw [List.append_assoc, isComplete_eol n he]
        split_ifs at h ⊢ with hlast
        · cases h
          rfl
        · exact ih b.length (by rw [← hk]; exact he.shorter b) _ h rfl
      · rw [heq] at h
        rw [List.cons_append, isComplete_other hcr hlf]
        exact ih b.length (by rw [← hk, List.length_cons]; omega) _ h rfl
  bad_append := by
    intro s t h
    induction hk : s.length using Nat.strong_induction_on generalizing n s with
    | _ k ih =>
      rcases isComplete_cases n s with ⟨-, heq⟩ | ⟨d, b, rfl, hd, -⟩ | ⟨e, b, rfl, he, heq⟩ |
        ⟨c, b, rfl, hcr, hlf, heq⟩
      · rw [heq] at h
        cases h
      · rw [List.cons_append, List.cons_append, isComplete.eq_def]
        exact if_pos hd
      · rw [heq] at h
        rw [List.append_assoc, isComplete_eol n he]
        split_ifs at h ⊢ with hlast
        exact ih b.length (by rw [← hk]; exact he.shorter b) _ h rfl
      · rw [heq] at h
        rw [List.cons_append, isComplete_other hcr hlf]
        exact ih b.length (by rw [← hk, List.length_cons]; omega) _ h rfl
end

/-! ### A head that parses -/

variable {s rest : Bytes}

lemma InLine.nil : InLine [] := fun _ h => absurd h List.not_mem_nil

lemma InLine.cons {c : UInt8} (hc : c ≠ 13 ∧ c ≠ 10) (h : InLine s) : InLine (c :: s) := by
  intro a ha
  rcases List.mem_cons.mp ha with rfl | ha
  · exact hc
  · exact h a ha

lemma InLine.append {t : Bytes} (hs : InLine s) (ht : InLine t) : InLine (s ++ t) := by
  intro a ha
  rcases List.mem_append.mp ha with ha | ha
  · exact hs a ha
  · exact ht a ha

/-- Bytes of a line up to `rest`. -/
def Passes (s rest : Bytes) : Prop := ∃ c, s = c ++ rest ∧ InLine c

lemma Passes.refl (s : Bytes) : Passes s s := ⟨[], rfl, .nil⟩

lemma Passes.cons {c : UInt8} (hc : c ≠ 13 ∧ c ≠ 10) (h : Passes s rest) :
    Passes (c :: s) rest := by
  obtain ⟨l, rfl, hl⟩ := h
  exact ⟨c :: l, rfl, hl.cons hc⟩

lemma Passes.trans {t : Bytes} (h : Passes s t) (h' : Passes t rest) : Passes s rest := by
  obtain ⟨l, rfl, hl⟩ := h
  obtain ⟨l', rfl, hl'⟩ := h'
  exact ⟨l ++ l', (List.append_assoc ..).symm, hl.append hl'⟩

lemma expectChar_eq_ok {ch : UInt8} {u : Unit} (h : expectChar ch s = ok u rest) :
    s = ch :: rest := by
  cases s with
  | nil => cases h
  | cons c s =>
    rw [expectChar] at h
    split_ifs at h with hc
    cases h
    rw [hc]

lemma parseInt_eq_ok {n : Nat} (h : parseInt s = ok n rest) :
    ∃ c, s = c :: rest ∧ c ≠ 13 ∧ c ≠ 10 := by
  cases s with
  | nil => cases h
  | cons c s =>
    rw [parseInt] at h
    split_ifs at h with hc
    cases h
    refine ⟨c, rfl, ?_, ?_⟩
    all_goals
      rintro rfl
      exact absurd hc (by decide)

lemma skipSpaces_passes {u : Unit} (h : skipSpaces s = ok u rest) : Passes s rest := by
  induction s with
  | nil => cases h
  | cons c s ih =>
    rw [skipSpaces] at h
    split_ifs at h with hc
    · exact (ih h).cons (by rw [hc]; decide)
    · cases h
      exact Passes.refl _

lemma skipBlanks_passes {u : Unit} (h : skipBlanks s = ok u rest) : Passes s rest := by
  induction s with
  | nil => cases h
  | cons c s ih =>
    rw [skipBlanks] at h
    split_ifs at h with hc
    · refine (ih h).cons ⟨?_, ?_⟩
      all_goals
        rintro rfl
        exact absurd hc (by decide)
    · cases h
      exact Passes.refl _

lemma parseToken_passes {nextChar : UInt8} {v : Bytes} (h : parseToken nextChar s = ok v rest) :
    s = v ++ rest ∧ InLine v := by
  induction s generalizing v with
  | nil => cases h
  | cons c s ih =>
    rw [parseToken] at h
    split_ifs at h with hnext htok
    · cases h
      exact ⟨rfl, .nil⟩
    · obtain ⟨w, hw, rfl⟩ := map_eq_ok.mp h
      obtain ⟨rfl, hline⟩ := ih hw
      refine ⟨rfl, hline.cons ⟨?_, ?_⟩⟩
      all_goals
        rintro rfl
        exact htok (by decide +kernel)

/-- A text up to the end of its line. -/
lemma getTokenToEol_line {v : Bytes} (h : getTokenToEol s = ok v rest) :
    ∃ e, IsEol e ∧ s = v ++ (e ++ rest) ∧ InLine v := by
  induction s generalizing v with
  | nil => cases h
  | cons c s ih =>
    rw [getTokenToEol] at h
    split_ifs at h with hctl hcr hlf
    · obtain ⟨u, hu, rfl⟩ := map_eq_ok.mp h
      rw [hcr, expectChar_eq_ok hu]
      exact ⟨[13, 10], .inr rfl, rfl, .nil⟩
    · cases h
      rw [hlf]
      exact ⟨[10], .inl rfl, rfl, .nil⟩
    · obtain ⟨w, hw, rfl⟩ := map_eq_ok.mp h
      obtain ⟨e, he, rfl, hline⟩ := ih hw
      refine ⟨e, he, rfl, hline.cons ⟨?_, ?_⟩⟩
      all_goals
        rintro rfl
        exact hctl (by decide)

/-- A line of the header block is not empty. -/
lemma parseLine_line {first : Bool} {f : PhrHeader} (h : parseLine first s = ok f rest) :
    ∃ c e, s = c ++ (e ++ rest) ∧ c ≠ [] ∧ InLine c ∧ IsEol e := by
  obtain ⟨name, mid, hname, hvalue⟩ := bind_eq_ok.mp h
  obtain ⟨v, hv, -⟩ := map_eq_ok.mp hvalue
  obtain ⟨e, he, rfl, hline⟩ := getTokenToEol_line hv
  cases s with
  | nil => cases hname
  | cons c s =>
    rw [parseName] at hname
    split_ifs at hname with hfold
    · simp only [ok.injEq] at hname
      refine ⟨v, e, hname.2, ?_, hline, he⟩
      rintro rfl
      have hows := hfold.2
      rcases he with rfl | rfl
      · cases hname.2
        exact absurd hows (by decide)
      · cases hname.2
        exact absurd hows (by decide)
    · obtain ⟨tok, rest₁, htok, hname⟩ := bind_eq_ok.mp hname
      split_ifs at hname with hempty
      obtain ⟨u, rest₂, hcolon, hblanks⟩ := bind_eq_ok.mp hname
      obtain ⟨w, hw, -⟩ := map_eq_ok.mp hblanks
      obtain ⟨b, hb, hbline⟩ := skipBlanks_passes hw
      obtain ⟨heq, htline⟩ := parseToken_passes htok
      rw [heq, expectChar_eq_ok hcolon, hb]
      refine ⟨tok ++ 58 :: (b ++ v), e, by simp, by simp, ?_, he⟩
      exact htline.append ((hbline.append hline).cons (by decide))

/-- The empty line itself. -/
lemma parseHeaders_empty {c : UInt8} {fs : List PhrHeader} {p : Result (List PhrHeader)}
    (hp : p = ok fs rest → isComplete 1 (c :: s) = ok () rest)
    (h : (if c = 13 then (expectChar 10 s).map (fun _ => [])
      else if c = 10 then ok [] s else p) = ok fs rest) :
    isComplete 1 (c :: s) = ok () rest := by
  split_ifs at h with hcr hlf
  · obtain ⟨u, hu, -⟩ := map_eq_ok.mp h
    rw [hcr, expectChar_eq_ok hu]
    exact isComplete_eol 1 (.inr rfl) rest
  · cases h
    rw [hlf]
    exact isComplete_eol 1 (.inl rfl) s
  · exact hp h

/-- The loop that looks for the end goes through a header block as the parser does. -/
lemma parseHeaders_complete {first : Bool} {room : Nat} {fs : List PhrHeader}
    (h : parseHeaders first room s = ok fs rest) : isComplete 1 s = ok () rest := by
  induction room generalizing first s fs with
  | zero =>
    cases s with
    | nil => cases h
    | cons c s =>
      rw [parseHeaders] at h
      exact parseHeaders_empty (fun h => by cases h) h
  | succ room ih =>
    cases s with
    | nil => cases h
    | cons c s =>
      rw [parseHeaders] at h
      refine parseHeaders_empty (fun h => ?_) h
      obtain ⟨f, mid, hline, hmore⟩ := bind_eq_ok.mp h
      obtain ⟨fs', hfs, -⟩ := map_eq_ok.mp hmore
      obtain ⟨l, e, heq, hne, hl, he⟩ := parseLine_line hline
      rw [heq, isComplete_inLine 1 hne hl, isComplete_eol 0 he, if_neg (by decide)]
      exact ih hfs

lemma parseHttpVersion_passes {minor : Nat} (h : parseHttpVersion s = ok minor rest) :
    ∃ c, s = c ++ rest ∧ c ≠ [] ∧ InLine c := by
  unfold parseHttpVersion at h
  split_ifs at h with hshort hname
  obtain ⟨c, hc, hline⟩ := parseInt_eq_ok h
  have hname : s.take 7 = ascii "HTTP/1." := not_not.mp hname
  refine ⟨s.take 7 ++ [c], ?_, by simp, ?_⟩
  · rw [List.append_assoc, List.singleton_append, ← hc, List.take_append_drop]
  · rw [hname]
    exact InLine.append (by unfold InLine; decide +kernel) (InLine.nil.cons hline)

lemma parseInt3_passes {n : Nat} (h : parseInt3 s = ok n rest) : Passes s rest := by
  unfold parseInt3 at h
  split_ifs at h with hshort
  obtain ⟨a, s₁, ha, h⟩ := bind_eq_ok.mp h
  obtain ⟨b, s₂, hb, h⟩ := bind_eq_ok.mp h
  obtain ⟨c, hc, -⟩ := map_eq_ok.mp h
  obtain ⟨x, rfl, hx⟩ := parseInt_eq_ok ha
  obtain ⟨y, rfl, hy⟩ := parseInt_eq_ok hb
  obtain ⟨z, rfl, hz⟩ := parseInt_eq_ok hc
  exact (((Passes.refl rest).cons hz).cons hy).cons hx

lemma parseMessage_line {msg : Bytes} (h : parseMessage s = ok msg rest) :
    ∃ v e, s = v ++ (e ++ rest) ∧ InLine v ∧ IsEol e := by
  obtain ⟨v, mid, hv, hmsg⟩ := bind_eq_ok.mp h
  obtain ⟨e, he, rfl, hline⟩ := getTokenToEol_line hv
  suffices hmid : mid = rest from ⟨v, e, by rw [hmid], hline, he⟩
  cases v with
  | nil =>
    cases hmsg
    rfl
  | cons c v =>
    dsimp only at hmsg
    split_ifs at hmsg
    cases hmsg
    rfl

/-- A head that parses ends where `is_complete` finds its end. -/
theorem parseHead_complete {maxHeaders : Nat} {p : PhrResponse}
    (h : parseHead maxHeaders s = ok p rest) : isComplete 0 s = ok () rest := by
  obtain ⟨minor, s₁, hversion, h⟩ := bind_eq_ok.mp h
  obtain ⟨u, s₂, hspace, h⟩ := bind_eq_ok.mp h
  obtain ⟨u', s₃, hspaces, h⟩ := bind_eq_ok.mp h
  obtain ⟨status, s₄, hstatus, h⟩ := bind_eq_ok.mp h
  obtain ⟨msg, s₅, hmsg, h⟩ := bind_eq_ok.mp h
  obtain ⟨fs, hheaders, -⟩ := map_eq_ok.mp h
  obtain ⟨c, rfl, hne, hline⟩ := parseHttpVersion_passes hversion
  obtain ⟨b, hb, hbline⟩ :=
    (((skipSpaces_passes hspaces).trans (parseInt3_passes hstatus)).cons (by decide) :
      Passes (32 :: s₂) s₄)
  obtain ⟨v, e, rfl, hvline, he⟩ := parseMessage_line hmsg
  rw [expectChar_eq_ok hspace, hb, ← List.append_assoc b, ← List.append_assoc c,
    isComplete_inLine 0 (by simp [hne]) (hline.append (hbline.append hvline)),
    isComplete_eol 0 he, if_neg (by decide)]
  exact parseHeaders_complete hheaders

/-! ### Resuming -/

/-- A complete head: it ends in its first empty line, and the parser does not wait for more. -/
structure HeadText (maxHeaders : Nat) (h : Bytes) : Prop where
  ends : EndsHead h
  first : ∀ p, p <+: h → EndsHead p → p = h
  decided : parseHead maxHeaders h ≠ incomplete

variable {maxHeaders : Nat} {h : Bytes}

/-- A text that parses to its end is a complete head. -/
theorem headText_of_ok {p : PhrResponse} (hparse : parseHead maxHeaders h = ok p []) :
    HeadText maxHeaders h where
  ends := by
    obtain ⟨c, hc, hends, -⟩ := isComplete_ok (Nat.zero_le 1) (parseHead_complete hparse)
    rw [List.append_nil] at hc
    rw [hc]
    exact hends
  first := by
    rintro p ⟨t, rfl⟩ hends
    have hwhole := parseHead_complete hparse
    cases hp : isComplete 0 p with
    | incomplete =>
      exact absurd hends (isComplete_incomplete (Nat.zero_le 1) hp (List.prefix_refl p))
    | bad =>
      rw [(isComplete_stable 0).bad_append t hp] at hwhole
      cases hwhole
    | ok u r =>
      rw [(isComplete_stable 0).ok_append t hp] at hwhole
      simp only [ok.injEq, List.append_eq_nil_iff] at hwhole
      rw [hwhole.2.2, List.append_nil]
  decided := by
    rw [hparse]
    rintro ⟨⟩

namespace HeadText

/-- A prefix that is found to end is all of the head. -/
lemma eq_of_complete (hh : HeadText maxHeaders h) {a s rest : Bytes} {u : Unit}
    (hs : isComplete 0 s = ok u rest) (hpre : a ++ s <+: h) : a ++ s = h ∧ rest = [] := by
  obtain ⟨c, rfl, hends, -⟩ := isComplete_ok (Nat.zero_le 1) hs
  have hfound := hends.prepend a
  have hshort : a ++ c <+: h := (List.prefix_append (a ++ c) rest).trans (by
    rwa [List.append_assoc])
  have heq : a ++ c = h := hh.first _ hshort hfound
  have hlen := hpre.length_le
  rw [← heq] at hlen
  simp only [List.length_append] at hlen
  obtain rfl : rest = [] := List.length_eq_zero_iff.mp (by omega)
  rw [List.append_nil]
  exact ⟨heq, rfl⟩

lemma ok_rest (hh : HeadText maxHeaders h) {p : PhrResponse} {rest : Bytes}
    (hparse : parseHead maxHeaders h = ok p rest) : rest = [] :=
  (hh.eq_of_complete (parseHead_complete hparse) (List.prefix_refl ([] ++ h))).2

/-- A head with a CR by itself is malformed. -/
lemma bad_of_not_clean (hh : HeadText maxHeaders h) (hclean : ¬Clean h) :
    parseHead maxHeaders h = bad := by
  cases hparse : parseHead maxHeaders h with
  | incomplete => exact absurd hparse hh.decided
  | bad => rfl
  | ok p rest =>
    obtain ⟨c, hc, -, hcr⟩ := isComplete_ok (Nat.zero_le 1) (parseHead_complete hparse)
    rw [hh.ok_rest hparse, List.append_nil] at hc
    exact absurd (hc ▸ hcr) hclean

/-- Nothing in front of the end is taken for a head. -/
lemma parse_prefix (hh : HeadText maxHeaders h) {raw : Bytes} (hraw : raw <+: h)
    (hne : raw ≠ h) (lastLen : Nat) : parseResponse maxHeaders lastLen raw = incomplete ∨
      parseResponse maxHeaders lastLen raw = bad ∧ parseHead maxHeaders h = bad := by
  unfold parseResponse
  split_ifs with hzero
  · cases hparse : parseHead maxHeaders raw with
    | incomplete => exact .inl rfl
    | bad =>
      obtain ⟨t, rfl⟩ := hraw
      exact .inr ⟨rfl, (parseHead_stable maxHeaders).bad_append t hparse⟩
    | ok p rest =>
      have heq := hh.eq_of_complete (parseHead_complete hparse) (a := []) hraw
      exact absurd heq.1 hne
  · have hwindow : raw.take (lastLen - 3) ++ raw.drop (lastLen - 3) = raw :=
      List.take_append_drop _ _
    cases hscan : isComplete 0 (raw.drop (lastLen - 3)) with
    | incomplete => exact .inl rfl
    | bad =>
      have hclean : ¬Clean h := fun hclean =>
        isComplete_bad hscan (( List.IsChain.infix hclean hraw.isInfix).drop _)
      exact .inr ⟨rfl, hh.bad_of_not_clean hclean⟩
    | ok u rest =>
      have heq := hh.eq_of_complete hscan (hwindow.symm ▸ hraw)
      rw [hwindow] at heq
      exact absurd heq.1 hne

/-- The end of the head lies behind every point at which a shorter buffer is taken up again. -/
lemma ends_drop (hh : HeadText maxHeaders h) {lastLen : Nat} (hlast : lastLen < h.length) :
    EndsHead (h.drop (lastLen - 3)) := by
  have hsuffix : h.drop (lastLen - 3) <:+ h := List.drop_suffix _ _
  refine hh.ends.imp (fun hends => ?_) (fun hends => ?_)
  all_goals
    refine List.suffix_of_suffix_length_le hends hsuffix ?_
    have hall := hends.length_le
    simp only [List.length_drop, List.length_cons, List.length_nil] at hall ⊢
    omega

/-- A head and what follows it parse alike from wherever the search for the end is resumed. -/
lemma parse_whole (hh : HeadText maxHeaders h) {lastLen : Nat} (hlast : lastLen < h.length)
    (t : Bytes) : parseResponse maxHeaders lastLen (h ++ t) = parseHead maxHeaders (h ++ t) := by
  unfold parseResponse
  split_ifs with hzero
  · rfl
  rw [List.drop_append_of_le_length (by omega)]
  cases hscan : isComplete 0 (h.drop (lastLen - 3)) with
  | incomplete =>
    exact absurd (hh.ends_drop hlast)
      (isComplete_incomplete (Nat.zero_le 1) hscan (List.prefix_refl _))
  | bad =>
    have hclean : ¬Clean h := fun hclean => isComplete_bad hscan (List.IsChain.drop hclean _)
    rw [(isComplete_stable 0).bad_append t hscan,
      (parseHead_stable maxHeaders).bad_append t (hh.bad_of_not_clean hclean)]
    rfl
  | ok u rest =>
    rw [(isComplete_stable 0).ok_append t hscan]
    rfl

end HeadText

end Zuhttp.Phr
