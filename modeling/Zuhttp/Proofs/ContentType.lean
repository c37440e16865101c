import Zuhttp.ContentType
import Zuhttp.Headers

/-!
# What is read from a media type

The media types of RFC 9110, sections 5.6.6 and 8.3.1, and what `parse_content_type` reads from
them.
-/

namespace Zuhttp

namespace MediaType

structure Token where
  text : Bytes
  valid : headerNameValid text = true

/-- `qdtext`. -/
def isQdtext (c : UInt8) : Bool :=
  c = 9 ∨ c = 32 ∨ c = 33 ∨ (35 ≤ c ∧ c ≤ 91) ∨ (93 ≤ c ∧ c ≤ 126) ∨ 128 ≤ c

/-- What may stand behind the backslash of a `quoted-pair`. -/
def isQuotable (c : UInt8) : Bool := c = 9 ∨ (32 ≤ c ∧ c ≤ 126) ∨ 128 ≤ c

def pieceValid : Quoted.Piece UInt8 → Bool
  | .plain c => isQdtext c
  | .pair c => isQuotable c

/-- A `quoted-string`, without its quotes. -/
structure QuotedString where
  pieces : List (Quoted.Piece UInt8)
  valid : ∀ p ∈ pieces, pieceValid p = true

inductive ParameterValue
  | token (t : Token)
  | quoted (q : QuotedString)

namespace ParameterValue

def text : ParameterValue → Bytes
  | token t => t.text
  | quoted q => 34 :: q.pieces.flatMap (Quoted.Piece.text 92) ++ [34]

def value : ParameterValue → Bytes
  | token t => t.text
  | quoted q => q.pieces.map Quoted.Piece.value

end ParameterValue

structure Parameter where
  name : Token
  value : ParameterValue

def Parameter.text (p : Parameter) : Bytes := p.name.text ++ 61 :: p.value.text

structure Blanks where
  text : Bytes
  valid : ∀ c ∈ text, isOws c = true

/-- `OWS ";" OWS [ parameter ]`. -/
structure Segment where
  before : Blanks
  after : Blanks
  parameter : Option Parameter

namespace Segment

def content (s : Segment) : Bytes :=
  match s.parameter with
  | some p => p.text
  | none => []

def text (s : Segment) : Bytes := s.before.text ++ 59 :: (s.after.text ++ s.content)

end Segment

end MediaType

structure MediaType where
  type : MediaType.Token
  subtype : MediaType.Token
  segments : List MediaType.Segment

namespace MediaType

def fullType (m : MediaType) : Bytes := m.type.text ++ 47 :: m.subtype.text

def text (m : MediaType) : Bytes := m.fullType ++ m.segments.flatMap Segment.text

def parameters (m : MediaType) : List Parameter := m.segments.filterMap Segment.parameter

end MediaType

namespace ContentType

/-- The type and every parameter of the media type are there, in lower case, and the parameters
have their values. -/
structure Reads (r : ContentType) (m : MediaType) : Prop where
  type : r.type = some (m.fullType.map lower)
  param : ∀ p ∈ m.parameters,
    Assoc.lookup Prod.fst r.params (p.name.text.map lower) =
      some (p.name.text.map lower, p.value.value)

end ContentType

/-- Parameters of the same name up to case have the same value. -/
def MediaType.Consistent (m : MediaType) : Prop :=
  ∀ p ∈ m.parameters, ∀ q ∈ m.parameters, CaseEq p.name.text q.name.text →
    p.value.value = q.value.value

instance (m : MediaType) : Decidable m.Consistent :=
  inferInstanceAs (Decidable (∀ p ∈ m.parameters, ∀ q ∈ m.parameters,
    CaseEq p.name.text q.name.text → p.value.value = q.value.value))

namespace ContentType

open MediaType

/-! Characters. -/

lemma tchar_facts : ∀ v : Fin 256, isTchar (UInt8.ofFin v) = true →
    UInt8.ofFin v < 128 ∧ isBlank (UInt8.ofFin v) = false ∧ UInt8.ofFin v ≠ 34 ∧
      UInt8.ofFin v ≠ 59 ∧ UInt8.ofFin v ≠ 61 := by
  decide +kernel

lemma token_char {t : Token} {c : UInt8} (h : c ∈ t.text) :
    c < 128 ∧ isBlank c = false ∧ c ≠ 34 ∧ c ≠ 59 ∧ c ≠ 61 := by
  have hvalid := t.valid
  rw [headerNameValid, Bool.and_eq_true, List.all_eq_true] at hvalid
  exact tchar_facts c.toFin (hvalid.2 c h)

lemma token_ne_nil (t : Token) : t.text ≠ [] := by
  have hvalid := t.valid
  rintro hnil
  rw [hnil] at hvalid
  cases hvalid

lemma isBlank_of_mem (b : Blanks) : ∀ c ∈ b.text, isBlank c = true := by
  intro c hc
  rcases of_decide_eq_true (b.valid c hc) with rfl | rfl <;> rfl

lemma ne_of_isOws {c : UInt8} (h : isOws c = true) : c ≠ 59 ∧ c ≠ 61 := by
  rcases of_decide_eq_true h with rfl | rfl <;> decide

lemma ne_of_isQdtext {c : UInt8} (h : isQdtext c = true) : c ≠ 92 := by
  rintro rfl
  revert h
  decide

/-! Trimming. -/

lemma trimws_pad {l s r : Bytes} (hl : ∀ c ∈ l, isBlank c = true) (hr : ∀ c ∈ r, isBlank c = true)
    (hne : s ≠ []) (hhead : ∀ c ∈ s.head?, isBlank c = false)
    (hlast : ∀ c ∈ s.getLast?, isBlank c = false) : trimws (l ++ (s ++ r)) = s := by
  have hfront : (s ++ r).dropWhile isBlank = s ++ r := by
    cases s with
    | nil => exact absurd rfl hne
    | cons c s => exact List.dropWhile_cons_of_neg (by simp [hhead c rfl])
  rw [trimws, List.dropWhile_append_of_pos hl, hfront, List.rdropWhile, List.reverse_append,
    List.dropWhile_append_of_pos (fun c hc => hr c (List.mem_reverse.mp hc))]
  have hback : s.reverse.dropWhile isBlank = s.reverse := by
    cases hs : s.reverse with
    | nil => rfl
    | cons c t =>
      have hc : c ∈ s.getLast? := by rw [← List.head?_reverse, hs]; rfl
      exact List.dropWhile_cons_of_neg (by simp [hlast c hc])
  rw [hback, List.reverse_reverse]

lemma mem_of_mem_trimws {c : UInt8} {s : Bytes} (h : c ∈ trimws s) : c ∈ s :=
  (List.dropWhile_suffix isBlank).subset ((List.rdropWhile_prefix isBlank _).subset h)

lemma trimws_token {l r : Bytes} (hl : ∀ c ∈ l, isBlank c = true)
    (hr : ∀ c ∈ r, isBlank c = true) (t : Token) : trimws (l ++ (t.text ++ r)) = t.text :=
  trimws_pad hl hr (token_ne_nil t)
    (fun _ hc => (token_char (List.mem_of_head? hc)).2.1)
    (fun _ hc => (token_char (List.mem_of_getLast? hc)).2.1)

/-! The name and the value. -/

lemma keyValue_none {p : Bytes} (h : 61 ∉ p) : keyValue p = none := by
  have hdrop : p.dropWhile (· ≠ 61) = [] :=
    List.dropWhile_eq_nil_iff.mpr fun c hc => by
      simpa using fun he : c = 61 => h (he ▸ hc)
  rw [keyValue, hdrop]

lemma keyValue_append {k : Bytes} (h : 61 ∉ k) (v : Bytes) :
    keyValue (k ++ 61 :: v) = some (k, v) := by
  have hk : ∀ c ∈ k, decide (c ≠ 61) = true := fun c hc => by
    simpa using fun he : c = 61 => h (he ▸ hc)
  rw [keyValue, List.dropWhile_append_of_pos hk, List.takeWhile_append_of_pos hk]
  simp

lemma mem_of_keyValue {p k v : Bytes} (h : keyValue p = some (k, v)) : v ⊆ p := by
  rw [keyValue] at h
  cases hp : p.dropWhile (· ≠ 61) with
  | nil => rw [hp] at h; cases h
  | cons c s =>
    rw [hp] at h
    obtain ⟨-, rfl⟩ := Prod.mk.inj (Option.some.inj h)
    have hsuffix : c :: s <:+ p := hp ▸ List.dropWhile_suffix _
    exact fun x hx => hsuffix.subset (List.mem_cons_of_mem _ hx)

lemma unquote_token (t : Token) : unquote t.text = t.text := by
  refine if_neg fun hhead => ?_
  exact (token_char (List.mem_of_head? hhead)).2.2.1 rfl

lemma unquote_quoted (q : QuotedString) :
    unquote (ParameterValue.quoted q).text = (ParameterValue.quoted q).value := by
  have hplain : ∀ c, Quoted.Piece.plain c ∈ q.pieces → c ≠ 92 := fun c hc =>
    ne_of_isQdtext (q.valid _ hc)
  have hhead : (ParameterValue.quoted q).text.head? = some 34 := rfl
  rw [unquote, if_pos hhead]
  simp only [ParameterValue.text, List.cons_append, dropQuote]
  rw [rdropQuote, if_pos List.getLast?_concat, List.dropLast_concat, Quoted.unescape_text hplain]
  rfl

lemma unquote_value (v : ParameterValue) : unquote v.text = v.value := by
  cases v with
  | token t => exact unquote_token t
  | quoted q => exact unquote_quoted q

lemma mem_of_mem_unquote {c : UInt8} {s : Bytes} (h : c ∈ unquote s) : c ∈ s := by
  rw [unquote] at h
  split_ifs at h
  · have hr : ∀ t : Bytes, c ∈ rdropQuote t → c ∈ t := by
      intro t ht
      rw [rdropQuote] at ht
      split_ifs at ht
      · exact List.dropLast_subset t ht
      · exact ht
    have hd : ∀ t : Bytes, c ∈ dropQuote t → c ∈ t := by
      intro t ht
      unfold dropQuote at ht
      split at ht
      · exact List.mem_cons_of_mem _ ht
      · exact ht
    exact hd s (hr _ (Quoted.mem_of_mem_unescape h))
  · exact h

lemma value_ends {v : ParameterValue} :
    v.text ≠ [] ∧ (∀ c ∈ v.text.head?, isBlank c = false) ∧
      ∀ c ∈ v.text.getLast?, isBlank c = false := by
  cases v with
  | token t =>
    exact ⟨token_ne_nil t, fun c hc => (token_char (List.mem_of_head? hc)).2.1,
      fun c hc => (token_char (List.mem_of_getLast? hc)).2.1⟩
  | quoted q =>
    refine ⟨List.cons_ne_nil _ _, ?_, ?_⟩
    · rintro c ⟨⟩
      rfl
    · intro c hc
      rw [ParameterValue.text, List.getLast?_concat] at hc
      cases hc
      rfl

/-! The pieces. -/

/-- The name and the value that are read from a piece. -/
def paramOf (tolower : Bytes → Bytes) (p : Bytes) : Option (Bytes × Bytes) :=
  (keyValue p).map fun kv => (tolower (trimws kv.1), unquote (trimws kv.2))

/-- The pieces between the semicolons of the segments, of which the first begins so. -/
def pieces (front : Bytes) : List Segment → List Bytes
  | [] => [front]
  | s :: ss => (front ++ s.before.text) :: pieces (s.after.text ++ s.content) ss

lemma splitOn_segments {ss : List Segment} (hss : ∀ s ∈ ss, 59 ∉ s.content) {front : Bytes}
    (hfront : 59 ∉ front) :
    Cut.splitOn 59 (front ++ ss.flatMap Segment.text) = pieces front ss := by
  induction ss generalizing front with
  | nil =>
    rw [List.flatMap_nil, List.append_nil]
    exact Cut.splitOn_of_notMem hfront
  | cons s ss ih =>
    rw [List.forall_mem_cons] at hss
    have hbefore : 59 ∉ front ++ s.before.text := by
      rw [List.mem_append, not_or]
      exact ⟨hfront, fun h => (ne_of_isOws (s.before.valid _ h)).1 rfl⟩
    have hafter : 59 ∉ s.after.text ++ s.content := by
      rw [List.mem_append, not_or]
      exact ⟨fun h => (ne_of_isOws (s.after.valid _ h)).1 rfl, hss.1⟩
    rw [pieces, ← ih hss.2 hafter, ← Cut.splitOn_append hbefore, List.flatMap_cons, Segment.text]
    simp only [List.append_assoc, List.cons_append]

lemma strsplit_spec {s : Bytes} (hs : s ≠ []) (sep : UInt8) :
    ∃ part parts last, strsplit sep s = part :: parts ∧
      Cut.splitOn sep s = part :: (parts ++ last) ∧ (last = [] ∨ last = [[]]) := by
  obtain ⟨part, rest, hsplit⟩ := List.exists_cons_of_ne_nil (Cut.splitOn_ne_nil sep s)
  rw [strsplit, hsplit]
  by_cases hlast : (part :: rest).getLast? = some []
  · rw [if_pos hlast]
    cases rest with
    | nil =>
      cases hlast
      exact absurd (Cut.eq_nil_of_splitOn hsplit) hs
    | cons x rest =>
      refine ⟨part, (x :: rest).dropLast, [[]], rfl, ?_, .inr rfl⟩
      rw [List.getLast?_cons_cons] at hlast
      rw [List.dropLast_append_getLast? [] hlast]
  · rw [if_neg hlast]
    exact ⟨part, rest, [], rfl, by rw [List.append_nil], .inl rfl⟩

variable {tolower : Bytes → Bytes}

lemma foldl_addParam (parts : List Bytes) (params : List (Bytes × Bytes)) :
    parts.foldl (addParam tolower) params =
      (parts.filterMap (paramOf tolower)).foldl (fun ps e => assign ps e.1 e.2) params := by
  induction parts generalizing params with
  | nil => rfl
  | cons p parts ih =>
    rw [List.foldl_cons, ih, addParam]
    cases hp : keyValue p with
    | none => rw [List.filterMap_cons_none (by rw [paramOf, hp]; rfl)]
    | some kv => rw [List.filterMap_cons_some (by rw [paramOf, hp]; rfl), List.foldl_cons]

lemma foldl_assign {es : List (Bytes × Bytes)} (h : ∀ e ∈ es, e.1 ≠ [])
    (params : List (Bytes × Bytes)) :
    es.foldl (fun ps e => assign ps e.1 e.2) params = es.foldl (Assoc.put Prod.fst) params := by
  induction es generalizing params with
  | nil => rfl
  | cons e es ih =>
    rw [List.forall_mem_cons] at h
    rw [List.foldl_cons, List.foldl_cons, ih h.2, assign, if_neg h.1]

lemma mem_foldl_assign {es params : List (Bytes × Bytes)} {e : Bytes × Bytes}
    (h : e ∈ es.foldl (fun ps e => assign ps e.1 e.2) params) : e ∈ es ∨ e ∈ params := by
  induction es generalizing params with
  | nil => exact .inr h
  | cons x es ih =>
    rcases ih h with hes | hassign
    · exact .inl (List.mem_cons_of_mem _ hes)
    · have hput : e = x ∨ e ∈ params := by
        replace hassign : e ∈ assign params x.1 x.2 := hassign
        rw [assign] at hassign
        split_ifs at hassign
        · exact (List.mem_append.mp hassign).symm.imp_left List.mem_singleton.mp
        · exact Assoc.mem_put hassign
      exact hput.imp_left fun (he : e = x) => he ▸ List.mem_cons_self

/-- What should be read from a parameter. -/
def entry (p : Parameter) : Bytes × Bytes := (p.name.text.map lower, p.value.value)

lemma paramOf_content (htolower : ∀ t : Bytes, (∀ c ∈ t, c < 128) → tolower t = t.map lower)
    (s : Segment) (after : Blanks) :
    paramOf tolower (s.after.text ++ s.content ++ after.text) =
      s.parameter.map entry := by
  have hl := isBlank_of_mem s.after
  have hr := isBlank_of_mem after
  have hblank : ∀ b : Blanks, 61 ∉ b.text := fun b hb => (ne_of_isOws (b.valid _ hb)).2 rfl
  cases hp : s.parameter with
  | none =>
    have hcontent : s.content = [] := by rw [Segment.content, hp]
    rw [paramOf, hcontent, List.append_nil, keyValue_none]
    · rfl
    · rw [List.mem_append, not_or]
      exact ⟨hblank _, hblank _⟩
  | some p =>
    have hcontent : s.content = p.name.text ++ 61 :: p.value.text := by
      simp only [Segment.content, hp, Parameter.text]
    have hname : 61 ∉ s.after.text ++ p.name.text := by
      rw [List.mem_append, not_or]
      exact ⟨hblank _, fun h => (token_char h).2.2.2.2 rfl⟩
    have hsplit : s.after.text ++ s.content ++ after.text =
        (s.after.text ++ p.name.text) ++ 61 :: (p.value.text ++ after.text) := by
      rw [hcontent]
      simp only [List.append_assoc, List.cons_append]
    have htrim : trimws (s.after.text ++ p.name.text) = p.name.text := by
      have h := trimws_token hl (r := []) (by simp) p.name
      rwa [List.append_nil] at h
    obtain ⟨hne, hhead, hlast⟩ := value_ends (v := p.value)
    have hvalue : trimws (p.value.text ++ after.text) = p.value.text :=
      trimws_pad (l := []) (by simp) hr hne hhead hlast
    rw [paramOf, hsplit, keyValue_append hname, Option.map_some, htrim, hvalue,
      htolower _ fun c hc => (token_char hc).1, unquote_value]
    rfl

/-- Where no quoted text holds a semicolon, the parameters are read as they are written. -/
lemma filterMap_pieces (htolower : ∀ t : Bytes, (∀ c ∈ t, c < 128) → tolower t = t.map lower)
    (s : Segment) (ss : List Segment) :
    (pieces (s.after.text ++ s.content) ss).filterMap (paramOf tolower) =
      ((s :: ss).filterMap Segment.parameter).map entry := by
  induction ss generalizing s with
  | nil =>
    have h := paramOf_content htolower s ⟨[], by simp⟩
    rw [List.append_nil] at h
    rw [pieces, List.filterMap_cons, h]
    cases hp : s.parameter <;> simp [hp]
  | cons s' ss ih =>
    rw [pieces, List.filterMap_cons, paramOf_content htolower s s'.before, ih]
    cases hp : s.parameter <;> simp [hp]

/-- What is read from a text, by its pieces. An empty piece at the end has no part in it. -/
lemma parseContentType_pieces {s : Bytes} (hs : s ≠ []) {part : Bytes} {parts : List Bytes}
    (hsplit : Cut.splitOn 59 s = part :: parts) (rest : List (Option Bytes)) :
    parseContentType tolower (some s :: rest) =
      ⟨some (tolower (trimws part)),
        (parts.filterMap (paramOf tolower)).foldl (fun ps e => assign ps e.1 e.2) []⟩ := by
  obtain ⟨part', parts', last, hpieces, hall, hlast⟩ := strsplit_spec hs 59
  obtain ⟨rfl, rfl⟩ := List.cons.inj (hsplit.symm.trans hall)
  have hnone : last.filterMap (paramOf tolower) = [] := by
    rcases hlast with rfl | rfl <;> rfl
  rw [List.filterMap_append, hnone, List.append_nil, ← foldl_addParam]
  cases s with
  | nil => exact absurd rfl hs
  | cons c s => rw [parseContentType, hpieces]

lemma trimws_fullType (m : MediaType) (after : Blanks) :
    trimws (m.fullType ++ after.text) = m.fullType := by
  have hr := isBlank_of_mem after
  have hne : m.fullType ≠ [] := by simp [MediaType.fullType]
  refine trimws_pad (l := []) (by simp) hr hne ?_ ?_
  · intro c hc
    rw [MediaType.fullType, List.head?_append_of_ne_nil _ (token_ne_nil m.type)] at hc
    exact (token_char (List.mem_of_head? hc)).2.1
  · intro c hc
    rw [MediaType.fullType, List.getLast?_append_of_ne_nil _ (List.cons_ne_nil _ _),
      List.getLast?_cons_of_ne_nil (token_ne_nil m.subtype)] at hc
    exact (token_char (List.mem_of_getLast? hc)).2.1

lemma fullType_char {m : MediaType} {c : UInt8} (h : c ∈ m.fullType) : c < 128 ∧ c ≠ 59 := by
  rcases List.mem_append.mp h with htype | hrest
  · exact ⟨(token_char htype).1, (token_char htype).2.2.2.1⟩
  · rcases List.mem_cons.mp hrest with rfl | hsub
    · decide
    · exact ⟨(token_char hsub).1, (token_char hsub).2.2.2.1⟩

lemma semicolon_of_text {v : ParameterValue} (h : 59 ∈ v.text) : 59 ∈ v.value := by
  cases v with
  | token t => exact h
  | quoted q =>
    have hflat : 59 ∈ q.pieces.flatMap (Quoted.Piece.text 92) := by
      simpa [ParameterValue.text] using h
    obtain ⟨p, hp, hmem⟩ := List.mem_flatMap.mp hflat
    refine List.mem_map.mpr ⟨p, hp, ?_⟩
    cases p with
    | plain c => exact (List.mem_singleton.mp hmem).symm
    | pair c =>
      rcases List.mem_cons.mp hmem with hesc | hc
      · cases hesc
      · exact (List.mem_singleton.mp hc).symm

lemma notMem_content {m : MediaType} (h : ∀ p ∈ m.parameters, 59 ∉ p.value.value) :
    ∀ s ∈ m.segments, 59 ∉ s.content := by
  intro s hs hmem
  cases hp : s.parameter with
  | none => simp [Segment.content, hp] at hmem
  | some p =>
    have hparam : p ∈ m.parameters := List.mem_filterMap.mpr ⟨s, hs, hp⟩
    simp only [Segment.content, hp, Parameter.text, List.mem_append, List.mem_cons] at hmem
    rcases hmem with hname | heq | hvalue
    · exact (token_char hname).2.2.2.1 rfl
    · exact absurd heq (by decide)
    · exact h p hparam (semicolon_of_text hvalue)

lemma pieces_text {m : MediaType} (h : ∀ p ∈ m.parameters, 59 ∉ p.value.value) :
    Cut.splitOn 59 m.text = pieces m.fullType m.segments :=
  splitOn_segments (notMem_content h) fun hmem => (fullType_char hmem).2 rfl

/-- No value that is read holds a semicolon. -/
lemma semicolon_notMem {s : Bytes} {rest : List (Option Bytes)} {e : Bytes × Bytes}
    (he : e ∈ (parseContentType tolower (some s :: rest)).params) : 59 ∉ e.2 := by
  by_cases hs : s = []
  · subst hs
    cases he
  obtain ⟨part, parts, hsplit⟩ := List.exists_cons_of_ne_nil (Cut.splitOn_ne_nil 59 s)
  rw [parseContentType_pieces hs hsplit] at he
  rcases mem_foldl_assign he with hread | hnil
  · obtain ⟨p, hp, hparam⟩ := List.mem_filterMap.mp hread
    have hpiece : 59 ∉ p :=
      Cut.notMem_of_mem_splitOn (hsplit ▸ List.mem_cons_of_mem part hp)
    cases hkv : keyValue p with
    | none => rw [paramOf, hkv] at hparam; cases hparam
    | some kv =>
      rw [paramOf, hkv] at hparam
      cases hparam
      exact fun hmem => hpiece (mem_of_keyValue hkv (mem_of_mem_trimws (mem_of_mem_unquote hmem)))
  · cases hnil

lemma text_ne_nil (m : MediaType) : m.text ≠ [] := by
  simp [MediaType.text, MediaType.fullType]

section Lower

variable (htolower : ∀ t : Bytes, (∀ c ∈ t, c < 128) → tolower t = t.map lower)

include htolower

/-- Where no value holds a semicolon, what is returned is what is written. -/
lemma parseContentType_text {m : MediaType}
    (hsemi : ∀ p ∈ m.parameters, 59 ∉ p.value.value) (rest : List (Option Bytes)) :
    parseContentType tolower (some m.text :: rest) =
      ⟨some (m.fullType.map lower),
        (m.parameters.map entry).foldl (fun ps e => assign ps e.1 e.2) []⟩ := by
  have hlower : tolower m.fullType = m.fullType.map lower :=
    htolower _ fun c hc => (fullType_char hc).1
  have hsplit := pieces_text hsemi
  cases hseg : m.segments with
  | nil =>
    rw [hseg, pieces] at hsplit
    have htrim := trimws_fullType m ⟨[], by simp⟩
    rw [List.append_nil] at htrim
    rw [parseContentType_pieces (text_ne_nil m) hsplit, htrim, hlower, MediaType.parameters, hseg]
    rfl
  | cons s ss =>
    rw [hseg, pieces] at hsplit
    rw [parseContentType_pieces (text_ne_nil m) hsplit, trimws_fullType, hlower,
      filterMap_pieces htolower, MediaType.parameters, hseg]

lemma reads_of_text {m : MediaType} (hsemi : ∀ p ∈ m.parameters, 59 ∉ p.value.value)
    (hsame : m.Consistent) (rest : List (Option Bytes)) :
    (parseContentType tolower (some m.text :: rest)).Reads m := by
  have hnames : ∀ e ∈ m.parameters.map entry, e.1 ≠ [] := by
    intro e he
    obtain ⟨p, -, rfl⟩ := List.mem_map.mp he
    simp [entry, token_ne_nil]
  rw [parseContentType_text htolower hsemi]
  refine ⟨rfl, fun p hp => ?_⟩
  rw [foldl_assign hnames]
  refine Assoc.lookup_foldl_put (e := entry p) (List.mem_map_of_mem hp) (fun x hx hkey => ?_) []
  obtain ⟨q, hq, rfl⟩ := List.mem_map.mp hx
  exact Prod.ext hkey (hsame q hq p hp hkey)

/-- The charset that a response declares is the one that is used. -/
theorem bodyCharset_eq {m : MediaType} (hsemi : ∀ p ∈ m.parameters, 59 ∉ p.value.value)
    (hsame : m.Consistent) {headers : List HeaderField} {rest : List Bytes}
    (hheader : respHeader headers (ascii "content-type") = m.text :: rest)
    {p : Parameter} (hp : p ∈ m.parameters) (hname : CaseEq p.name.text (ascii "charset"))
    (hvalue : p.value.value ≠ []) : bodyCharset tolower headers = some p.value.value := by
  have hreads := reads_of_text htolower hsemi hsame (rest.map some)
  have hcharset : p.name.text.map lower = ascii "charset" :=
    Eq.trans (b := (ascii "charset").map lower) hname (by decide +kernel)
  have hlookup := hreads.param p hp
  rw [hcharset] at hlookup
  rw [bodyCharset, contentTypeOf, hheader, List.map_cons, hlookup]
  exact if_neg hvalue

/-- `parse_content_type` returns the type and every parameter with its value exactly if no value
holds a semicolon and no two parameters of one name differ. -/
theorem parse_reads_iff (m : MediaType) (rest : List (Option Bytes)) :
    (parseContentType tolower (some m.text :: rest)).Reads m ↔
      (∀ p ∈ m.parameters, 59 ∉ p.value.value) ∧ m.Consistent := by
  constructor
  · intro hreads
    refine ⟨fun p hp => ?_, fun p hp q hq hname => ?_⟩
    · exact semicolon_notMem (List.mem_of_find?_eq_some (hreads.param p hp))
    · have hq := hreads.param q hq
      rw [← show p.name.text.map lower = _ from hname, hreads.param p hp] at hq
      exact congrArg Prod.snd (Option.some.inj hq)
  · rintro ⟨hsemi, hsame⟩
    exact reads_of_text htolower hsemi hsame rest

end Lower

/-- `Text/HTML ; Charset="utf\-8";`. -/
def quotedCharset : MediaType where
  type := ⟨ascii "Text", by decide +kernel⟩
  subtype := ⟨ascii "HTML", by decide +kernel⟩
  segments := [
    ⟨⟨[32], by decide +kernel⟩, ⟨[32], by decide +kernel⟩,
      some ⟨⟨ascii "Charset", by decide +kernel⟩,
        .quoted ⟨[.plain 117, .plain 116, .plain 102, .pair 45, .plain 56], by decide +kernel⟩⟩⟩,
    ⟨⟨[], by decide +kernel⟩, ⟨[], by decide +kernel⟩, none⟩]

theorem parse_reads_quoted :
    quotedCharset.text = ascii "Text/HTML ; Charset=\"utf\\-8\";" ∧
      (parseContentType (List.map lower) [some quotedCharset.text]).Reads quotedCharset :=
  ⟨by decide +kernel,
    (parse_reads_iff (fun _ _ => rfl) quotedCharset []).mpr (by decide +kernel)⟩

/-- `text/plain;charset=utf-8;title="a;charset=b"`. -/
def hiddenCharset : MediaType where
  type := ⟨ascii "text", by decide +kernel⟩
  subtype := ⟨ascii "plain", by decide +kernel⟩
  segments := [
    ⟨⟨[], by decide +kernel⟩, ⟨[], by decide +kernel⟩,
      some ⟨⟨ascii "charset", by decide +kernel⟩, .token ⟨ascii "utf-8", by decide +kernel⟩⟩⟩,
    ⟨⟨[], by decide +kernel⟩, ⟨[], by decide +kernel⟩,
      some ⟨⟨ascii "title", by decide +kernel⟩,
        .quoted ⟨(ascii "a;charset=b").map .plain, by decide +kernel⟩⟩⟩]

/-- The quoted title is cut at its semicolon, and its second half is taken for the charset. -/
theorem parse_cuts_quoted :
    hiddenCharset.text = ascii "text/plain;charset=utf-8;title=\"a;charset=b\"" ∧
      (parseContentType (List.map lower) [some hiddenCharset.text]).params =
        [(ascii "charset", ascii "b\""), (ascii "title", ascii "a")] ∧
      ¬(parseContentType (List.map lower) [some hiddenCharset.text]).Reads hiddenCharset := by
  refine ⟨by decide +kernel, by decide +kernel, fun hreads => ?_⟩
  have hparam := List.forall_iff_forall_mem.mpr hreads.param
  revert hparam
  decide +kernel

end ContentType

end Zuhttp
