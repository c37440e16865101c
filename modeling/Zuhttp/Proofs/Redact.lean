import Zuhttp.Proofs.Writer
import Zuhttp.Redact

/-!
# Redaction hides what it replaces

Queries and URLs by their parts: a text that is cut where the source cuts it is redacted part
by part, so two texts that differ in secret parts only give the same output.
-/

namespace Zuhttp

namespace RedactPolicy

/-! ### Secret names -/

/-- A name of the policy's list, up to letter case. -/
def Lists (p : RedactPolicy) (name : Bytes) : Prop :=
  ∃ entry ∈ params ++ p.extraParams, CaseEq name entry

/-- Escapes replaced by the bytes they stand for; a malformed one stands for itself. -/
def percentDecode : Bytes → Bytes
  | c :: a :: b :: s =>
    match unescape c a b with
    | some x => x :: percentDecode s
    | none => c :: percentDecode (a :: b :: s)
  | c :: s => c :: percentDecode s
  | [] => []

/-- The names whose values are replaced: the decoded form counts if it has at most 128
bytes. -/
def Secret (p : RedactPolicy) (name : Bytes) : Prop :=
  name ≠ [] ∧ (p.Lists name ∨
    (percentDecode name).length ≤ 128 ∧ p.Lists (percentDecode name))

lemma inList_iff (list : List Bytes) (name : Bytes) :
    inList list name = true ↔ ∃ entry ∈ list, CaseEq name entry := by
  unfold inList
  simp only [List.any_eq_true, decide_eq_true_eq, asciiNcasecmp_eq_zero]

lemma paramListed_iff (p : RedactPolicy) (name : Bytes) :
    p.paramListed name = true ↔ p.Lists name := by
  unfold paramListed Lists
  split_ifs with hparams
  · obtain ⟨entry, hentry, heq⟩ := (inList_iff _ _).mp hparams
    exact iff_of_true rfl ⟨entry, List.mem_append_left _ hentry, heq⟩
  · rw [inList_iff]
    constructor
    · rintro ⟨entry, hentry, heq⟩
      exact ⟨entry, List.mem_append_right _ hentry, heq⟩
    · rintro ⟨entry, hentry, heq⟩
      rcases List.mem_append.mp hentry with hentry | hentry
      · exact absurd ((inList_iff _ _).mpr ⟨entry, hentry, heq⟩) hparams
      · exact ⟨entry, hentry, heq⟩

lemma percentDecode_of_notMem {s : Bytes} (h : 37 ∉ s) : percentDecode s = s := by
  induction s using percentDecode.induct with
  | case1 c a b s x hx ih =>
    have hc : c ≠ 37 := fun he => h (by simp [he])
    rw [unescape, if_neg hc] at hx
    cases hx
  | case2 c a b s hx ih =>
    rw [percentDecode, hx]
    dsimp only
    rw [ih (fun hmem => h (List.mem_cons_of_mem _ hmem))]
  | case3 c s hshort ih =>
    rw [percentDecode, ih (fun hmem => h (List.mem_cons_of_mem _ hmem))]
    exact hshort
  | case4 => rfl

lemma fits_cons (dec rest : Bytes) (x : UInt8) :
    (if (dec ++ [x]).length + rest.length ≤ 128 then some (dec ++ [x] ++ rest) else none) =
      if dec.length + (x :: rest).length ≤ 128 then some (dec ++ x :: rest) else none := by
  have hlen : (dec ++ [x]).length + rest.length = dec.length + (x :: rest).length := by
    rw [List.length_append, List.length_singleton, List.length_cons]
    omega
  rw [hlen, List.append_assoc, List.singleton_append]

/-- The decoding into the buffer is the decoding, where the buffer holds it. -/
lemma decodeName_eq (s dec : Bytes) (hdec : dec.length ≤ 128) :
    decodeName s dec =
      if dec.length + (percentDecode s).length ≤ 128 then some (dec ++ percentDecode s)
      else none := by
  have hroom : ∀ (dec : Bytes) (x : UInt8), dec.length ≤ 128 → ¬dec.length = 128 →
      (dec ++ [x]).length ≤ 128 := by
    intro dec x hle hne
    rw [List.length_append, List.length_singleton]
    omega
  induction s, dec using decodeName.induct with
  | case1 c a b s dec hfull =>
    have hpos : 0 < (percentDecode (c :: a :: b :: s)).length := by
      unfold percentDecode
      split <;> simp
    rw [decodeName, if_pos hfull, if_neg (by omega)]
  | case2 c a b s dec hfull x hx ih =>
    rw [decodeName, if_neg hfull, hx, percentDecode, hx]
    dsimp only
    rw [ih (hroom dec x hdec hfull), fits_cons]
  | case3 c a b s dec hfull hx ih =>
    rw [decodeName, if_neg hfull, hx, percentDecode, hx]
    dsimp only
    rw [ih (hroom dec c hdec hfull), fits_cons]
  | case4 c s dec hshort hfull =>
    rw [decodeName, if_pos hfull, percentDecode, if_neg]
    · simp only [List.length_cons]
      omega
    · exact hshort
    · exact hshort
  | case5 c s dec hshort hfull ih =>
    rw [decodeName, if_neg hfull, ih (hroom dec c hdec hfull), percentDecode, fits_cons]
    · exact hshort
    · exact hshort
  | case6 dec =>
    rw [decodeName, percentDecode, List.length_nil, Nat.add_zero, if_pos hdec, List.append_nil]

theorem isSecretParam_iff (p : RedactPolicy) (name : Bytes) :
    p.isSecretParam name = true ↔ p.Secret name := by
  unfold isSecretParam Secret
  by_cases hempty : name = []
  · rw [if_pos hempty]
    exact iff_of_false (by simp) (fun h => h.1 hempty)
  rw [if_neg hempty]
  by_cases hraw : p.paramListed name = true
  · rw [if_pos hraw]
    exact iff_of_true rfl ⟨hempty, Or.inl ((p.paramListed_iff name).mp hraw)⟩
  have hnot : ¬p.Lists name := fun h => hraw ((p.paramListed_iff name).mpr h)
  rw [if_neg hraw]
  by_cases hpercent : 37 ∈ name
  · rw [if_neg (not_not.mpr hpercent), decodeName_eq name [] (by simp), List.length_nil,
      Nat.zero_add, List.nil_append]
    split_ifs with hfits
    · dsimp only
      rw [paramListed_iff]
      constructor
      · exact fun h => ⟨hempty, Or.inr ⟨hfits, h⟩⟩
      · rintro ⟨-, h | h⟩
        · exact absurd h hnot
        · exact h.2
    · refine iff_of_false (by simp) ?_
      rintro ⟨-, h | h⟩
      · exact hnot h
      · exact hfits h.1
  · rw [if_pos hpercent]
    refine iff_of_false (by simp) ?_
    rintro ⟨-, h | h⟩
    · exact hnot h
    · rw [percentDecode_of_notMem hpercent] at h
      exact hnot h.2

end RedactPolicy

/-! ### Texts by their parts -/

lemma takeWhile_append_stop {α : Type*} {f : α → Bool} {s t : List α}
    (hs : ∀ x ∈ s, f x = true) (ht : ∀ x ∈ t.head?, f x = false) :
    (s ++ t).takeWhile f = s ∧ (s ++ t).dropWhile f = t := by
  rw [List.takeWhile_append_of_pos hs, List.dropWhile_append_of_pos hs]
  cases t with
  | nil => simp
  | cons x t =>
    have hx : ¬f x = true := by simp [ht x rfl]
    rw [List.takeWhile_cons_of_neg hx, List.dropWhile_cons_of_neg hx, List.append_nil]
    exact ⟨rfl, rfl⟩

/-- `name`, or `name=value`. -/
structure Param where
  name : Bytes
  value : Option Bytes
  nameFree : ∀ c ∈ name, c ≠ 38 ∧ c ≠ 59 ∧ c ≠ 61
  valueFree : ∀ v ∈ value, ∀ c ∈ v, c ≠ 38 ∧ c ≠ 59

namespace Param

def text (a : Param) : Bytes :=
  match a.value with
  | none => a.name
  | some v => a.name ++ 61 :: v

/-- The parameters differ in the value of a secret at most. -/
def Alike (secret : Bytes → Prop) (a a' : Param) : Prop :=
  a.name = a'.name ∧
    (a.value = a'.value ∨ secret a.name ∧ a.value.isSome = true ∧ a'.value.isSome = true)

open Classical in
/-- The parameter with the value of a secret replaced. -/
noncomputable def hidden (p : RedactPolicy) (a : Param) : Bytes :=
  if p.Secret a.name ∧ a.value.isSome = true then a.name ++ 61 :: RedactPolicy.redacted
  else a.text

open Classical in
/-- The pieces in which it is appended. -/
noncomputable def pieces (p : RedactPolicy) (a : Param) : List Bytes :=
  if p.Secret a.name ∧ a.value.isSome = true then [a.name ++ [61], RedactPolicy.redacted]
  else [a.text]

lemma pieces_flatten (p : RedactPolicy) (a : Param) : (a.pieces p).flatten = a.hidden p := by
  unfold pieces hidden
  split_ifs
  · simp
  · simp

lemma Alike.pieces {p : RedactPolicy} {a a' : Param} (h : Alike p.Secret a a') :
    a.pieces p = a'.pieces p := by
  obtain ⟨hname, hvalue | ⟨hsecret, hsome, hsome'⟩⟩ := h
  · unfold Param.pieces text
    rw [hname, hvalue]
  · unfold Param.pieces
    rw [if_pos ⟨hsecret, hsome⟩, if_pos ⟨hname ▸ hsecret, hsome'⟩, hname]

lemma text_free (a : Param) : ∀ c ∈ a.text, RedactPolicy.isSeparator c = false := by
  intro c hc
  have hsep : c ≠ 38 ∧ c ≠ 59 := by
    unfold text at hc
    cases hv : a.value with
    | none =>
      rw [hv] at hc
      exact ⟨(a.nameFree c hc).1, (a.nameFree c hc).2.1⟩
    | some v =>
      rw [hv] at hc
      rcases List.mem_append.mp hc with hc | hc
      · exact ⟨(a.nameFree c hc).1, (a.nameFree c hc).2.1⟩
      · rcases List.mem_cons.mp hc with rfl | hc
        · exact ⟨by decide, by decide⟩
        · exact a.valueFree v hv c hc
  unfold RedactPolicy.isSeparator
  simp [hsep]

/-- A pair is redacted as the parameter it is. -/
lemma redactPair_text (p : RedactPolicy) (a : Param) :
    p.redactPair a.text = appendAll (a.pieces p) := by
  have hname : ∀ c ∈ a.name, decide (c ≠ 61) = true := by
    intro c hc
    simp [(a.nameFree c hc).2.2]
  unfold RedactPolicy.redactPair pieces
  cases hv : a.value with
  | none =>
    have htext : a.text = a.name := by
      unfold text
      rw [hv]
    have hno : ¬(61 ∈ a.name ∧ p.isSecretParam (a.name.takeWhile (· ≠ 61)) = true) :=
      fun h => (a.nameFree 61 h.1).2.2 rfl
    have hplain : ¬(p.Secret a.name ∧ (none : Option Bytes).isSome = true) := by simp
    rw [htext, if_neg hno, if_neg hplain, appendAll_singleton]
    by_cases hempty : a.name = []
    · rw [if_neg (not_not.mpr hempty), hempty]
      rfl
    · rw [if_pos hempty]
  | some v =>
    have htext : a.text = a.name ++ 61 :: v := by
      unfold text
      rw [hv]
    have htake : a.text.takeWhile (· ≠ 61) = a.name := by
      rw [htext]
      exact (takeWhile_append_stop hname (by simp)).1
    have hmem : 61 ∈ a.text := by
      rw [htext]
      simp
    have hne : a.text ≠ [] := List.ne_nil_of_mem hmem
    rw [htake]
    by_cases hsecret : p.Secret a.name
    · rw [if_pos ⟨hmem, (p.isSecretParam_iff _).mpr hsecret⟩, if_pos ⟨hsecret, rfl⟩, appendAll,
        appendAll_singleton]
    · have hno : ¬(61 ∈ a.text ∧ p.isSecretParam a.name = true) :=
        fun h => hsecret ((p.isSecretParam_iff _).mp h.2)
      have hplain : ¬(p.Secret a.name ∧ (some v).isSome = true) := fun h => hsecret h.1
      rw [if_neg hno, if_neg hplain, if_pos hne, appendAll_singleton]

end Param

/-- Parameters with `&` or, where the flag says so, `;` between them. -/
inductive Query
  | last (a : Param)
  | more (a : Param) (semicolon : Bool) (q : Query)

namespace Query

def separator (semicolon : Bool) : UInt8 := if semicolon then 59 else 38

def text : Query → Bytes
  | last a => a.text
  | more a semicolon q => a.text ++ separator semicolon :: q.text

/-- The queries differ in the values of secrets at most. -/
inductive Alike (secret : Bytes → Prop) : Query → Query → Prop
  | last {a a'} (h : a.Alike secret a') : Alike secret (last a) (last a')
  | more {a a' semicolon q q'} (h : a.Alike secret a') (hq : Alike secret q q') :
      Alike secret (more a semicolon q) (more a' semicolon q')

noncomputable def hidden (p : RedactPolicy) : Query → Bytes
  | last a => a.hidden p
  | more a semicolon q => a.hidden p ++ separator semicolon :: q.hidden p

noncomputable def pieces (p : RedactPolicy) : Query → List Bytes
  | last a => a.pieces p
  | more a semicolon q => a.pieces p ++ [separator semicolon] :: q.pieces p

lemma pieces_flatten (p : RedactPolicy) (q : Query) : (q.pieces p).flatten = q.hidden p := by
  induction q with
  | last a => exact a.pieces_flatten p
  | more a semicolon q ih =>
    rw [pieces, hidden, List.flatten_append, List.flatten_cons, a.pieces_flatten, ih,
      List.singleton_append]

lemma Alike.pieces {p : RedactPolicy} {q q' : Query} (h : Alike p.Secret q q') :
    q.pieces p = q'.pieces p := by
  induction h with
  | last h => exact h.pieces
  | more h _ ih => rw [Query.pieces, Query.pieces, h.pieces, ih]

lemma redactQueryN_text (p : RedactPolicy) (q : Query) (n : Nat) (hn : q.text.length ≤ n) :
    p.redactQueryN n q.text = appendAll (q.pieces p) := by
  have hfree : ∀ (a : Param), ∀ c ∈ a.text, (!RedactPolicy.isSeparator c) = true := by
    intro a c hc
    rw [a.text_free c hc]
    rfl
  induction q generalizing n with
  | last a =>
    rw [text] at hn ⊢
    rw [pieces, ← a.redactPair_text]
    by_cases hempty : a.text = []
    · rw [hempty]
      cases n with
      | zero => rfl
      | succ n => rfl
    · obtain ⟨m, rfl⟩ : ∃ m, n = m + 1 := by
        have hpos := List.length_pos_iff.mpr hempty
        exact ⟨n - 1, by omega⟩
      have hsplit := takeWhile_append_stop (t := []) (hfree a) (by simp)
      rw [List.append_nil] at hsplit
      rw [RedactPolicy.redactQueryN, if_neg hempty, hsplit.1, hsplit.2]
      exact bind_pure _
  | more a semicolon q ih =>
    rw [text] at hn ⊢
    rw [List.length_append, List.length_cons] at hn
    obtain ⟨m, rfl⟩ : ∃ m, n = m + 1 := ⟨n - 1, by omega⟩
    have hstop : ∀ c ∈ (separator semicolon :: q.text).head?,
        (!RedactPolicy.isSeparator c) = false := by
      intro c hc
      cases Option.mem_some.mp hc
      cases semicolon <;> rfl
    have hsplit := takeWhile_append_stop (hfree a) hstop
    rw [RedactPolicy.redactQueryN, if_neg (by simp), hsplit.1, hsplit.2, a.redactPair_text,
      pieces, appendAll_append, appendAll]
    dsimp only
    rw [ih m (by omega)]
    rfl

lemma redactQuery_text (p : RedactPolicy) (q : Query) :
    p.redactQuery q.text = appendAll (q.pieces p) :=
  q.redactQueryN_text p _ (Nat.le_refl _)

end Query

/-- `scheme://userinfo@rest?query#fragment`, where the userinfo, the query and the fragment
may be absent. The userinfo is all that stands before the last `@` of the authority. -/
structure UrlText where
  scheme : Bytes
  userinfo : Option Bytes
  rest : Bytes
  query : Option (Query × Option Bytes)
  schemeAlpha : ∀ c ∈ scheme.head?, Ascii.isAlpha c = true
  schemeValid : scheme ≠ [] ∧ ∀ c ∈ scheme, RedactPolicy.isSchemeByte c = true
  userinfoFree : ∀ v ∈ userinfo, ∀ c ∈ v, RedactPolicy.inAuthority c = true
  restFree : 63 ∉ rest
  hostFree : 64 ∉ rest.takeWhile RedactPolicy.inAuthority
  queryFree : ∀ q ∈ query, 35 ∉ q.1.text

namespace UrlText

open RedactPolicy

/-- The fragment with its mark. -/
def fragmentText (f : Option Bytes) : Bytes :=
  match f with
  | none => []
  | some f => 35 :: f

/-- The query and the fragment with their marks. -/
def tail (u : UrlText) : Bytes :=
  match u.query with
  | none => []
  | some (q, f) => 63 :: (q.text ++ fragmentText f)

def authority (u : UrlText) : Bytes :=
  match u.userinfo with
  | none => u.rest.takeWhile inAuthority
  | some v => v ++ 64 :: u.rest.takeWhile inAuthority

def text (u : UrlText) : Bytes :=
  (u.scheme ++ ascii "://") ++ (u.authority ++ (u.rest.dropWhile inAuthority ++ u.tail))

/-- The URLs differ in the userinfo, which both have or neither, and in the values of
secrets at most. -/
structure Alike (secret : Bytes → Prop) (u v : UrlText) : Prop where
  scheme : u.scheme = v.scheme
  userinfo : u.userinfo.isSome = v.userinfo.isSome
  rest : u.rest = v.rest
  query : Option.Rel (fun q q' => q.1.Alike secret q'.1 ∧ q.2 = q'.2) u.query v.query

/-- The URL without its userinfo and with the values of secrets replaced. -/
noncomputable def hidden (p : RedactPolicy) (u : UrlText) : Bytes :=
  u.scheme ++ ascii "://" ++ u.rest ++
    match u.query with
    | none => []
    | some (q, f) => 63 :: (q.hidden p ++ fragmentText f)

def fragmentPieces (f : Option Bytes) : List Bytes := f.toList.map (fun f => 35 :: f)

/-- The pieces of what follows the authority. -/
noncomputable def restPieces (p : RedactPolicy) (path : Bytes) :
    Option (Query × Option Bytes) → List Bytes
  | none => [path]
  | some qf => (path ++ [63]) :: (qf.1.pieces p ++ fragmentPieces qf.2)

noncomputable def pieces (p : RedactPolicy) (u : UrlText) : List Bytes :=
  [u.scheme ++ ascii "://", u.rest.takeWhile inAuthority] ++
    restPieces p (u.rest.dropWhile inAuthority) u.query

lemma findScheme_text (i : Nat) {s : Bytes} (t : Bytes)
    (hs : ∀ c ∈ s, isSchemeByte c = true) :
    findScheme i (s ++ 58 :: 47 :: 47 :: t) = some (i + s.length + 3) := by
  induction s generalizing i with
  | nil => rfl
  | cons c s ih =>
    rw [List.forall_mem_cons] at hs
    have hnext := ih (i + 1) hs.2
    obtain ⟨d, e, l, hl⟩ : ∃ d e l, s ++ 58 :: 47 :: 47 :: t = d :: e :: l := by
      cases s with
      | nil => exact ⟨_, _, _, rfl⟩
      | cons d s =>
        cases s with
        | nil => exact ⟨_, _, _, rfl⟩
        | cons e s => exact ⟨_, _, _, rfl⟩
    have hcolon : c ≠ 58 := by
      rintro rfl
      exact absurd hs.1 (by decide)
    rw [hl] at hnext
    rw [List.cons_append, hl, findScheme, if_neg (fun h => hcolon h.1), if_pos hs.1, hnext,
      List.length_cons]
    congr 1
    omega

lemma schemeEnd_text (u : UrlText) : schemeEnd u.text = some (u.scheme ++ ascii "://").length := by
  obtain ⟨hne, hvalid⟩ := u.schemeValid
  obtain ⟨c, s, hcs⟩ := List.exists_cons_of_ne_nil hne
  have halpha : Ascii.isAlpha c = true := u.schemeAlpha c (by rw [hcs]; rfl)
  have htext : u.text = c :: (s ++ 58 :: 47 :: 47 ::
      (u.authority ++ (u.rest.dropWhile inAuthority ++ u.tail))) := by
    rw [text, hcs, List.append_assoc, List.cons_append]
    rfl
  rw [hcs] at hvalid
  rw [htext, schemeEnd, if_pos halpha,
    findScheme_text 1 _ (fun x hx => hvalid x (List.mem_cons_of_mem _ hx)), hcs]
  simp only [List.length_append, List.length_cons, Option.some.injEq]
  have hmarks : (ascii "://").length = 3 := rfl
  omega

lemma tail_head (u : UrlText) : ∀ c ∈ u.tail.head?, c = 63 := by
  intro c hc
  unfold tail at hc
  cases hq : u.query with
  | none =>
    rw [hq] at hc
    cases hc
  | some q =>
    rw [hq] at hc
    exact (Option.mem_some.mp hc).symm

/-- What the source finds between the scheme and the path. -/
lemma authority_text (u : UrlText) :
    (u.authority ++ (u.rest.dropWhile inAuthority ++ u.tail)).takeWhile inAuthority =
        u.authority ∧
      (u.authority ++ (u.rest.dropWhile inAuthority ++ u.tail)).dropWhile inAuthority =
        u.rest.dropWhile inAuthority ++ u.tail := by
  refine takeWhile_append_stop ?_ ?_
  · have hhost : ∀ c ∈ u.rest.takeWhile inAuthority, inAuthority c = true :=
      fun c hc => List.mem_takeWhile_imp hc
    intro c hc
    unfold authority at hc
    cases hv : u.userinfo with
    | none =>
      rw [hv] at hc
      exact hhost c hc
    | some v =>
      rw [hv] at hc
      rcases List.mem_append.mp hc with hc | hc
      · exact u.userinfoFree v hv c hc
      · rcases List.mem_cons.mp hc with rfl | hc
        · rfl
        · exact hhost c hc
  · intro c hc
    cases hpath : u.rest.dropWhile inAuthority with
    | nil =>
      rw [hpath, List.nil_append] at hc
      rw [u.tail_head c hc]
      rfl
    | cons d path =>
      have hstop := List.head?_dropWhile_not inAuthority u.rest
      rw [hpath] at hc hstop
      cases Option.mem_some.mp hc
      simpa using hstop

/-- Of the authority everything up to the last `@` is left out. -/
lemma host_written (u : UrlText) (k : Writer Unit) :
    (if 64 ∈ u.authority then do
        Buffer.append (u.authority.rtakeWhile (· ≠ 64))
        k
      else do
        Buffer.append u.authority
        k) = (do Buffer.append (u.rest.takeWhile inAuthority); k) := by
  unfold authority
  cases hv : u.userinfo with
  | none =>
    dsimp only
    rw [if_neg u.hostFree]
  | some v =>
    dsimp only
    have hfree : ∀ c ∈ (u.rest.takeWhile inAuthority).reverse, decide (c ≠ 64) = true := by
      intro c hc
      have hne : c ≠ 64 := by
        rintro rfl
        exact u.hostFree (List.mem_reverse.mp hc)
      simp [hne]
    have htake := (takeWhile_append_stop (t := 64 :: v.reverse) hfree (by simp)).1
    rw [if_pos (by simp)]
    unfold List.rtakeWhile
    rw [List.reverse_append, List.reverse_cons, List.append_assoc, List.singleton_append, htake,
      List.reverse_reverse]

/-- A query and the fragment with their marks. -/
def queryTail : Option (Query × Option Bytes) → Bytes
  | none => []
  | some (q, f) => 63 :: (q.text ++ fragmentText f)

lemma tail_eq (u : UrlText) : u.tail = queryTail u.query := by
  unfold tail queryTail
  cases u.query <;> rfl

lemma redactRest_pieces (p : RedactPolicy) {path : Bytes} (hpath : 63 ∉ path)
    (query : Option (Query × Option Bytes)) (hqueries : ∀ q ∈ query, 35 ∉ q.1.text) :
    p.redactRest (path ++ queryTail query) = appendAll (restPieces p path query) := by
  have hfree : ∀ c ∈ path, decide (c ≠ 63) = true := by
    intro c hc
    have hne : c ≠ 63 := by
      rintro rfl
      exact hpath hc
    simp [hne]
  have hmark : ∀ c ∈ (queryTail query).head?, decide (c ≠ 63) = false := by
    intro c hc
    cases query with
    | none => cases hc
    | some q =>
      rw [(Option.mem_some.mp hc).symm]
      rfl
  obtain ⟨htake, hdrop⟩ := takeWhile_append_stop hfree hmark
  unfold redactRest
  rw [htake, hdrop]
  unfold queryTail
  cases query with
  | none =>
    dsimp only
    rw [restPieces, appendAll_singleton, List.append_nil]
  | some qf =>
    obtain ⟨q, f⟩ := qf
    have hquery : ∀ c ∈ q.text, decide (c ≠ 35) = true := by
      intro c hc
      have hne : c ≠ 35 := by
        rintro rfl
        exact hqueries _ rfl hc
      simp [hne]
    have hfragment : ∀ c ∈ (fragmentText f).head?, decide (c ≠ 35) = false := by
      intro c hc
      unfold fragmentText at hc
      cases f with
      | none => cases hc
      | some f =>
        cases Option.mem_some.mp hc
        rfl
    obtain ⟨hq₁, hq₂⟩ := takeWhile_append_stop hquery hfragment
    dsimp only
    rw [hq₁, hq₂, q.redactQuery_text, restPieces, appendAll, appendAll_append]
    cases f with
    | none => rfl
    | some f =>
      have hone : fragmentPieces (some f) = [35 :: f] := rfl
      rw [hone, appendAll_singleton]
      rfl

lemma redactRest_text (p : RedactPolicy) (u : UrlText) :
    p.redactRest (u.rest.dropWhile inAuthority ++ u.tail) =
      appendAll (restPieces p (u.rest.dropWhile inAuthority) u.query) := by
  rw [tail_eq]
  exact redactRest_pieces p (fun hc => u.restFree (List.dropWhile_subset _ hc)) u.query u.queryFree

theorem redactUrl_text (p : RedactPolicy) (u : UrlText) :
    p.redactUrl u.text = appendAll (u.pieces p) := by
  obtain ⟨hauth, hpath⟩ := u.authority_text
  unfold redactUrl
  rw [schemeEnd_text]
  dsimp only
  rw [text, List.take_left, List.drop_left, hauth, hpath, host_written, redactRest_text, pieces,
    List.cons_append, List.cons_append, List.nil_append, appendAll, appendAll]

lemma pieces_flatten (p : RedactPolicy) (u : UrlText) : (u.pieces p).flatten = u.hidden p := by
  have hrest : u.rest.takeWhile inAuthority ++ u.rest.dropWhile inAuthority = u.rest :=
    List.takeWhile_append_dropWhile
  unfold pieces hidden
  cases u.query with
  | none => simp [restPieces, hrest]
  | some qf =>
    obtain ⟨q, f⟩ := qf
    have hfragment : (fragmentPieces f).flatten = fragmentText f := by
      cases f with
      | none => rfl
      | some f => simp [fragmentPieces, fragmentText]
    simp only [restPieces, List.flatten_append, List.flatten_cons, q.pieces_flatten, hfragment,
      List.append_assoc, List.cons_append, List.nil_append]
    rw [← List.append_assoc (u.rest.takeWhile inAuthority), hrest]

lemma Alike.pieces {p : RedactPolicy} {u v : UrlText} (h : u.Alike p.Secret v) :
    u.pieces p = v.pieces p := by
  unfold UrlText.pieces
  rw [h.scheme, h.rest]
  congr 1
  have hquery := h.query
  generalize u.query = qu at hquery
  generalize v.query = qv at hquery
  cases hquery with
  | none => rfl
  | some hq => rw [restPieces, restPieces, hq.1.pieces, hq.2]

/-- URLs and form bodies that differ in secrets only give the same run of the redaction, and
what it appends is the text with the userinfo left out and those values replaced. -/
theorem redact_hides {p : RedactPolicy} {u v : UrlText} (hurl : u.Alike p.Secret v)
    {q r : Query} (hform : q.Alike p.Secret r) :
    (∀ b, Prog.exec (p.redactUrl u.text) b = Prog.exec (p.redactUrl v.text) b) ∧
      Appends (p.redactUrl u.text) (u.hidden p) ∧
      (∀ b, b.max = 0 → b.data.length + (u.hidden p).length < 2 ^ 64 →
        (Prog.exec (p.redactUrl u.text) b).1 = .ok ()) ∧
      (∀ b, Prog.exec (p.redactFormBody q.text) b = Prog.exec (p.redactFormBody r.text) b) ∧
      Appends (p.redactFormBody q.text) (q.hidden p) ∧
      ∀ b, b.max = 0 → b.data.length + (q.hidden p).length < 2 ^ 64 →
        (Prog.exec (p.redactFormBody q.text) b).1 = .ok () := by
  unfold redactFormBody
  rw [redactUrl_text, redactUrl_text, Query.redactQuery_text, Query.redactQuery_text,
    hurl.pieces, hform.pieces]
  refine ⟨fun _ => rfl, ?_, ?_, fun _ => rfl, ?_, ?_⟩
  · rw [← u.pieces_flatten, hurl.pieces]
    exact appendAll_appends _
  · intro b hmax hsize
    rw [← u.pieces_flatten, hurl.pieces] at hsize
    rw [appendAll_fits _ hmax hsize]
  · rw [← q.pieces_flatten, hform.pieces]
    exact appendAll_appends _
  · intro b hmax hsize
    rw [← q.pieces_flatten, hform.pieces] at hsize
    rw [appendAll_fits _ hmax hsize]

lemma noUserinfo_free :
    ∀ v ∈ (none : Option Bytes), ∀ c ∈ v, RedactPolicy.inAuthority c = true := by
  rintro v ⟨⟩

/-- `http://h/?name=value`. -/
def oneParam (name value : Bytes) (hname : ∀ c ∈ name, c ≠ 38 ∧ c ≠ 59 ∧ c ≠ 61)
    (hvalue : ∀ c ∈ value, c ≠ 38 ∧ c ≠ 59) (hfragment : 35 ∉ name ++ 61 :: value) : UrlText where
  scheme := ascii "http"
  userinfo := none
  rest := ascii "h/"
  query := some (.last ⟨name, some value, hname, by
    rintro v hv
    cases Option.mem_some.mp hv
    exact hvalue⟩, none)
  schemeAlpha := by decide +kernel
  schemeValid := by decide +kernel
  userinfoFree := noUserinfo_free
  restFree := by decide +kernel
  hostFree := by decide +kernel
  queryFree := by
    intro q hq
    cases Option.mem_some.mp hq
    exact hfragment

lemma abc_free : ∀ c ∈ ascii "abc", c ≠ 38 ∧ c ≠ 59 := by decide +kernel

lemma question_free : ∀ c ∈ ascii "?", c ≠ 38 ∧ c ≠ 59 := by decide +kernel

/-- The name of a listed parameter of 129 bytes, its first one escaped. -/
def longName : Bytes := ascii "%61" ++ List.replicate 128 97

/-- A listed name that does not fit the buffer of the decoding keeps its value. -/
theorem redact_not_hides : ¬∀ (p : RedactPolicy) (u v : UrlText),
    u.Alike (fun name => p.Lists name ∨ p.Lists (percentDecode name)) v →
      ∀ b, Prog.exec (p.redactUrl u.text) b = Prog.exec (p.redactUrl v.text) b := by
  intro hall
  have hdecoded : percentDecode longName = List.replicate 129 97 := by decide +kernel
  have hsame := hall ⟨[], [List.replicate 129 97]⟩
    (oneParam longName (ascii "x") (by decide +kernel) (by decide +kernel) (by decide +kernel))
    (oneParam longName (ascii "y") (by decide +kernel) (by decide +kernel) (by decide +kernel))
    ⟨rfl, rfl, rfl, .some ⟨.last ⟨rfl, Or.inr ⟨Or.inr ⟨List.replicate 129 97, by simp, by
      rw [hdecoded]
      exact CaseEq.refl _⟩, rfl, rfl⟩⟩, rfl⟩⟩
    (Buffer.init 0)
  have hdata := congrArg (fun r => r.2.data) hsame
  revert hdata
  decide +kernel

/-- An encoded `token` in a URL with userinfo, and `pwd` in a form body. -/
theorem redact_hides_token :
    let p := RedactPolicy.init
    let u : UrlText := { oneParam (ascii "%74oken") (ascii "abc") (by decide +kernel)
      (by decide +kernel) (by decide +kernel) with
        userinfo := some (ascii "u:p"), userinfoFree := by decide +kernel }
    let v : UrlText := { oneParam (ascii "%74oken") (ascii "?") (by decide +kernel)
      (by decide +kernel) (by decide +kernel) with
        userinfo := some (ascii "@"), userinfoFree := by decide +kernel }
    let q : Query := .more ⟨ascii "pwd", some (ascii "#"), by decide +kernel, by decide +kernel⟩
      true (.last ⟨ascii "x", none, by decide +kernel, by decide +kernel⟩)
    let r : Query := .more ⟨ascii "pwd", some [], by decide +kernel, by decide +kernel⟩ true
      (.last ⟨ascii "x", none, by decide +kernel, by decide +kernel⟩)
    u.text = ascii "http://u:p@h/?%74oken=abc" ∧ v.text = ascii "http://@@h/?%74oken=?" ∧
      (∀ b, Prog.exec (p.redactUrl u.text) b = Prog.exec (p.redactUrl v.text) b) ∧
      ∀ b, Prog.exec (p.redactFormBody q.text) b = Prog.exec (p.redactFormBody r.text) b := by
  intro p u v q r
  have hsecret : ∀ name, p.isSecretParam name = true → p.Secret name :=
    fun name => (p.isSecretParam_iff name).mp
  have hurl : u.Alike p.Secret v := ⟨rfl, rfl, rfl, .some
    ⟨.last ⟨rfl, Or.inr ⟨hsecret _ (by decide +kernel), rfl, rfl⟩⟩, rfl⟩⟩
  have hform : q.Alike p.Secret r :=
    .more ⟨rfl, Or.inr ⟨hsecret _ (by decide +kernel), rfl, rfl⟩⟩ (.last ⟨rfl, Or.inl rfl⟩)
  have hall := redact_hides hurl hform
  exact ⟨by decide +kernel, by decide +kernel, hall.1, hall.2.2.2.1⟩

end UrlText

end Zuhttp
