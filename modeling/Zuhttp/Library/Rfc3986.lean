import Zuhttp.Library.Cut
import Zuhttp.Library.Decimal
import Zuhttp.Library.Percent
import Zuhttp.Library.UriText

/-!
# URIs with an authority

The rules of RFC 3986 for a URI that has an authority. The text is cut into its components, and
each of them is checked against its rule.
-/

namespace Rfc3986

open Ascii

/-! ### Characters -/

def isHexDigit (c : UInt8) : Bool := (hexValue c).isSome

/-- `unreserved` and `sub-delims`. -/
def isNameChar (c : UInt8) : Bool :=
  isAlpha c || isDigit c || [45, 46, 95, 126].contains c ||
    [33, 36, 38, 39, 40, 41, 42, 43, 44, 59, 61].contains c

/-- What a `userinfo` and an address of a future version have beside their escapes. -/
def isUserChar (c : UInt8) : Bool := isNameChar c || c = 58

def isPchar (c : UInt8) : Bool := isUserChar c || c = 64

/-- What a query and a fragment have beside their escapes. -/
def isQueryChar (c : UInt8) : Bool := isPchar c || c = 47 || c = 63

/-- Characters of a class and escapes. -/
def encoded (p : UInt8 → Bool) : List UInt8 → Bool
  | [] => true
  | 37 :: a :: b :: s => isHexDigit a && isHexDigit b && encoded p s
  | c :: s => p c && encoded p s

def isScheme : List UInt8 → Bool
  | [] => false
  | c :: s => isAlpha c && s.all (fun c => isAlpha c || isDigit c || [43, 45, 46].contains c)

/-! ### Addresses -/

/-- `dec-octet`. -/
def isOctet (s : List UInt8) : Bool :=
  s.all isDigit && (s.length = 1 || ((s.length = 2 || s.length = 3) && s.head? ≠ some 48)) &&
    Decimal.decimalValue s ≤ 255

def isIPv4 (s : List UInt8) : Bool :=
  (Cut.splitOn 46 s).length = 4 && (Cut.splitOn 46 s).all isOctet

def isH16 (s : List UInt8) : Bool := 1 ≤ s.length && s.length ≤ 4 && s.all isHexDigit

/-- How many groups of 16 bits these are, of which the last may be an IPv4 address. -/
def units : List (List UInt8) → Option Nat
  | [] => some 0
  | [p] => if isH16 p then some 1 else if isIPv4 p then some 2 else none
  | p :: q :: ps => if isH16 p then (units (q :: ps)).map (· + 1) else none

/-- The groups on one side of the `::`. -/
def side (s : List UInt8) : List (List UInt8) := if s = [] then [] else Cut.splitOn 58 s

def isIPv6 (s : List UInt8) : Bool :=
  match Cut.cutFirst 58 58 s with
  | none => units (Cut.splitOn 58 s) = some 8
  | some (l, r) =>
    (side l).all isH16 && (units (side r)).any (fun n => (side l).length + n ≤ 7)

def isIPvFuture : List UInt8 → Bool
  | [] => false
  | v :: s =>
    (v = 86 || v = 118) && s.takeWhile isHexDigit ≠ [] &&
      match s.dropWhile isHexDigit with
      | 46 :: t => t ≠ [] && t.all isUserChar
      | _ => false

/-! ### Components -/

inductive Host
  | ipv6 (text : List UInt8)
  | ipvFuture (text : List UInt8)
  | name (text : List UInt8)
  deriving DecidableEq

structure Authority where
  userInfo : Option (List UInt8)
  host : Host
  port : Option (List UInt8)
  deriving DecidableEq

structure Parts where
  scheme : List UInt8
  authority : Authority
  path : List (List UInt8)
  query : Option (List UInt8)
  fragment : Option (List UInt8)
  deriving DecidableEq

/-- What stands between the brackets. -/
def literal (s : List UInt8) : Option Host :=
  if isIPv6 s then some (.ipv6 s) else if isIPvFuture s then some (.ipvFuture s) else none

/-- What stands behind the host. -/
def portPart : List UInt8 → Option (Option (List UInt8))
  | [] => some none
  | c :: s => if c = 58 && s.all isDigit then some (some s) else none

def hostPort (userInfo : Option (List UInt8)) : List UInt8 → Option Authority
  | 91 :: s =>
    match literal (s.takeWhile (· ≠ 93)), portPart (s.dropWhile (· ≠ 93)).tail with
    | some host, some port => if 93 ∈ s then some ⟨userInfo, host, port⟩ else none
    | _, _ => none
  | s =>
    if encoded isNameChar (s.takeWhile (· ≠ 58)) then
      (portPart (s.dropWhile (· ≠ 58))).map (⟨userInfo, .name (s.takeWhile (· ≠ 58)), ·⟩)
    else none

def authority (s : List UInt8) : Option Authority :=
  match UriText.behind 64 s with
  | none => hostPort none s
  | some t =>
    if encoded isUserChar (s.takeWhile (· ≠ 64)) then hostPort (some (s.takeWhile (· ≠ 64))) t
    else none

/-- The segments of a path that is empty or begins with a slash. -/
def segments (path : List UInt8) : List (List UInt8) := Cut.piecesBehind 47 path

/-- The components of a URI that has an authority. -/
def parse (s : List UInt8) : Option Parts :=
  let c := UriText.components s
  match c.scheme, c.authority.bind authority with
  | some scheme, some a =>
    if isScheme scheme && (segments c.path).all (encoded isPchar) &&
        c.query.all (encoded isQueryChar) && c.fragment.all (encoded isQueryChar) then
      some ⟨scheme, a, segments c.path, c.query, c.fragment⟩
    else none
  | _, _ => none

/-! ### Texts -/

def Host.text : Host → List UInt8
  | .ipv6 t => 91 :: (t ++ [93])
  | .ipvFuture t => 91 :: (t ++ [93])
  | .name t => t

def Host.valid : Host → Bool
  | .ipv6 t => isIPv6 t
  | .ipvFuture t => isIPvFuture t
  | .name t => encoded isNameChar t

def portText (port : Option (List UInt8)) : List UInt8 := port.elim [] (58 :: ·)

def Authority.text (a : Authority) : List UInt8 :=
  a.userInfo.elim [] (· ++ [64]) ++ (a.host.text ++ portText a.port)

structure Authority.Valid (a : Authority) : Prop where
  userInfo : ∀ t ∈ a.userInfo, encoded isUserChar t = true
  host : a.host.valid = true
  port : ∀ t ∈ a.port, t.all isDigit = true

def pathText (path : List (List UInt8)) : List UInt8 := path.flatMap (47 :: ·)

def queryText (query : Option (List UInt8)) : List UInt8 := query.elim [] (63 :: ·)

def fragmentText (fragment : Option (List UInt8)) : List UInt8 := fragment.elim [] (35 :: ·)

def Parts.text (p : Parts) : List UInt8 :=
  p.scheme ++ 58 :: 47 :: 47 :: (p.authority.text ++
    (pathText p.path ++ (queryText p.query ++ fragmentText p.fragment)))

structure Parts.Valid (p : Parts) : Prop where
  scheme : isScheme p.scheme = true
  authority : p.authority.Valid
  path : ∀ s ∈ p.path, encoded isPchar s = true
  query : ∀ t ∈ p.query, encoded isQueryChar t = true
  fragment : ∀ t ∈ p.fragment, encoded isQueryChar t = true

/-! ### Characters of the components -/

lemma mem_encoded {p : UInt8 → Bool} {s : List UInt8} (h : encoded p s = true) :
    ∀ c ∈ s, p c = true ∨ c = 37 ∨ isHexDigit c = true := by
  induction s using encoded.induct with
  | case1 => intro c hc; cases hc
  | case2 a b s ih =>
    rw [encoded, Bool.and_eq_true, Bool.and_eq_true] at h
    simp only [List.forall_mem_cons]
    exact ⟨.inr (.inl trivial), .inr (.inr h.1.1), .inr (.inr h.1.2), ih h.2⟩
  | case3 c s hc ih =>
    rw [encoded, Bool.and_eq_true] at h
    · rw [List.forall_mem_cons]
      exact ⟨.inl h.1, ih h.2⟩
    · exact hc

lemma notMem_encoded {p : UInt8 → Bool} {d : UInt8} {s : List UInt8} (h : encoded p s = true)
    (hp : p d = false) (hd : d ≠ 37) (hhex : isHexDigit d = false) : d ∉ s := by
  intro hmem
  rcases mem_encoded h d hmem with h | h | h
  · rw [hp] at h
    cases h
  · exact hd h
  · rw [hhex] at h
    cases h

lemma isHexDigit_of_isDigit : ∀ v : Fin 256, isDigit (UInt8.ofFin v) = true →
    isHexDigit (UInt8.ofFin v) = true := by
  decide +kernel

/-- An IPv4 address has digits and dots. -/
lemma mem_isIPv4 {s : List UInt8} (h : isIPv4 s = true) :
    ∀ c ∈ s, isHexDigit c = true ∨ c = 46 := by
  intro c hc
  rw [isIPv4, Bool.and_eq_true, List.all_eq_true] at h
  rcases Cut.mem_splitOn hc 46 with rfl | ⟨p, hp, hcp⟩
  · exact .inr rfl
  · have hoctet := h.2 p hp
    rw [isOctet, Bool.and_eq_true, Bool.and_eq_true, List.all_eq_true] at hoctet
    exact .inl (isHexDigit_of_isDigit c.toFin (hoctet.1.1 c hcp))

lemma mem_isH16 {s : List UInt8} (h : isH16 s = true) : ∀ c ∈ s, isHexDigit c = true := by
  rw [isH16, Bool.and_eq_true, List.all_eq_true] at h
  exact h.2

lemma mem_units {ps : List (List UInt8)} {n : Nat} (h : units ps = some n) :
    ∀ p ∈ ps, ∀ c ∈ p, isHexDigit c = true ∨ c = 46 := by
  induction ps generalizing n with
  | nil => intro p hp; cases hp
  | cons p ps ih =>
    rw [List.forall_mem_cons]
    cases ps with
    | nil =>
      rw [units] at h
      refine ⟨fun c hc => ?_, by simp⟩
      split_ifs at h with h16 h4
      · exact .inl (mem_isH16 h16 c hc)
      · exact mem_isIPv4 h4 c hc
    | cons q ps =>
      rw [units] at h
      split_ifs at h with h16
      obtain ⟨m, hm, -⟩ := Option.map_eq_some_iff.mp h
      exact ⟨fun c hc => .inl (mem_isH16 h16 c hc), ih hm⟩

lemma mem_side {s : List UInt8} {c : UInt8} (h : c ∈ s) : c = 58 ∨ ∃ p ∈ side s, c ∈ p := by
  rw [side, if_neg (List.ne_nil_of_mem h)]
  exact Cut.mem_splitOn h 58

/-- An IPv6 address has hexadecimal digits, colons and dots. -/
lemma mem_isIPv6 {s : List UInt8} (h : isIPv6 s = true) :
    ∀ c ∈ s, isHexDigit c = true ∨ c = 46 ∨ c = 58 := by
  intro c hc
  unfold isIPv6 at h
  cases hcut : Cut.cutFirst 58 58 s with
  | none =>
    rw [hcut] at h
    rcases Cut.mem_splitOn hc 58 with hcolon | ⟨p, hp, hcp⟩
    · exact .inr (.inr hcolon)
    · exact (mem_units (of_decide_eq_true h) p hp c hcp).imp_right .inl
  | some lr =>
    obtain ⟨l, r⟩ := lr
    rw [hcut] at h
    dsimp only at h
    rw [Bool.and_eq_true, List.all_eq_true, Option.any_eq_true] at h
    obtain ⟨hl, n, hn, -⟩ := h
    rw [Cut.eq_of_cutFirst hcut, List.mem_append, List.mem_cons, List.mem_cons] at hc
    rcases hc with hmem | hcolon | hcolon | hmem
    · rcases mem_side hmem with hcolon | ⟨p, hp, hcp⟩
      · exact .inr (.inr hcolon)
      · exact .inl (mem_isH16 (hl p hp) c hcp)
    · exact .inr (.inr hcolon)
    · exact .inr (.inr hcolon)
    · rcases mem_side hmem with hcolon | ⟨p, hp, hcp⟩
      · exact .inr (.inr hcolon)
      · exact (mem_units hn p hp c hcp).imp_right .inl

/-! ### What is accepted is valid -/

lemma literal_valid {s : List UInt8} {h : Host} (hs : literal s = some h) : h.valid = true := by
  unfold literal at hs
  split_ifs at hs with h6 hfuture
  · cases hs
    exact h6
  · cases hs
    exact hfuture

lemma portPart_valid {s : List UInt8} {port : Option (List UInt8)} (h : portPart s = some port) :
    ∀ t ∈ port, t.all isDigit = true := by
  cases s with
  | nil =>
    cases h
    rintro t ⟨⟩
  | cons c s =>
    rw [portPart] at h
    split_ifs at h with hport
    cases h
    rintro t ⟨⟩
    exact (Bool.and_eq_true _ _ ▸ hport).2

lemma hostPort_valid {u : Option (List UInt8)} {s : List UInt8} {a : Authority}
    (hu : ∀ t ∈ u, encoded isUserChar t = true) (h : hostPort u s = some a) : a.Valid := by
  unfold hostPort at h
  split at h
  · split at h
    · rename_i host port hhost hport
      split_ifs at h
      cases h
      exact ⟨hu, literal_valid hhost, portPart_valid hport⟩
    · cases h
  · split_ifs at h with hname
    obtain ⟨port, hport, rfl⟩ := Option.map_eq_some_iff.mp h
    exact ⟨hu, hname, portPart_valid hport⟩

lemma authority_valid {s : List UInt8} {a : Authority} (h : authority s = some a) : a.Valid := by
  unfold authority at h
  split at h
  · exact hostPort_valid (by rintro t ⟨⟩) h
  · split_ifs at h with huser
    refine hostPort_valid ?_ h
    rintro t ⟨⟩
    exact huser

theorem parse_valid {s : List UInt8} {p : Parts} (h : parse s = some p) : p.Valid := by
  unfold parse at h
  dsimp only at h
  split at h
  · rename_i scheme a _ hauthority
    split_ifs at h with hvalid
    cases h
    rw [Bool.and_eq_true, Bool.and_eq_true, Bool.and_eq_true, List.all_eq_true, Option.all_eq_true,
      Option.all_eq_true] at hvalid
    obtain ⟨⟨⟨hscheme, hpath⟩, hquery⟩, hfragment⟩ := hvalid
    obtain ⟨text, -, htext⟩ := Option.bind_eq_some_iff.mp hauthority
    exact ⟨hscheme, authority_valid htext, hpath, hquery, hfragment⟩
  · cases h

/-! ### Valid components come back -/

lemma port_digits {port : Option (List UInt8)} (h : ∀ t ∈ port, t.all isDigit = true) :
    portPart (portText port) = some port := by
  cases port with
  | none => rfl
  | some t => exact if_pos (Bool.and_eq_true _ _ ▸ ⟨rfl, h t rfl⟩)

lemma notMem_portText {port : Option (List UInt8)} (h : ∀ t ∈ port, t.all isDigit = true)
    {d : UInt8} (hd : isDigit d = false) (hne : d ≠ 58) : d ∉ portText port := by
  cases port with
  | none => exact List.not_mem_nil
  | some t =>
    intro hmem
    rcases List.mem_cons.mp hmem with heq | ht
    · exact hne heq
    · rw [List.all_eq_true.mp (h t rfl) d ht] at hd
      cases hd

lemma future_not_ipv6 {s : List UInt8} (h : isIPvFuture s = true) : isIPv6 s = false := by
  cases s with
  | nil => cases h
  | cons v s =>
    rw [isIPvFuture, Bool.and_eq_true, Bool.and_eq_true] at h
    by_contra h6
    have hv := mem_isIPv6 (by simpa using h6) v List.mem_cons_self
    have hor : v = 86 ∨ v = 118 := by simpa using h.1.1
    revert hv
    rcases hor with rfl | rfl <;> decide

/-- What stands in front of a character, if that only comes at its end. -/
lemma span_at {c : UInt8} {s t : List UInt8} (hs : c ∉ s) (ht : ∀ x ∈ t.head?, x = c) :
    (s ++ t).takeWhile (· ≠ c) = s ∧ (s ++ t).dropWhile (· ≠ c) = t := by
  refine UriText.span_append (fun x hx => ?_) (fun x hx => by simp [ht x hx])
  rw [decide_eq_true_eq]
  rintro rfl
  exact hs hx

lemma isUserChar_of_isHexDigit : ∀ v : Fin 256, isHexDigit (UInt8.ofFin v) = true →
    isUserChar (UInt8.ofFin v) = true := by
  decide +kernel

lemma userChar_ipv6 {s : List UInt8} (h : isIPv6 s = true) : ∀ c ∈ s, isUserChar c = true := by
  intro c hc
  rcases mem_isIPv6 h c hc with hhex | rfl | rfl
  · exact isUserChar_of_isHexDigit c.toFin hhex
  · rfl
  · rfl

lemma userChar_ipvFuture {s : List UInt8} (h : isIPvFuture s = true) :
    ∀ c ∈ s, isUserChar c = true := by
  cases s with
  | nil => cases h
  | cons v s =>
    rw [isIPvFuture, Bool.and_eq_true, Bool.and_eq_true] at h
    obtain ⟨⟨hv, -⟩, hrest⟩ := h
    rw [List.forall_mem_cons]
    constructor
    · have hor : v = 86 ∨ v = 118 := by simpa using hv
      rcases hor with rfl | rfl <;> decide
    · rw [← List.takeWhile_append_dropWhile (p := isHexDigit) (l := s)]
      intro c hc
      rcases List.mem_append.mp hc with hhex | hc
      · exact isUserChar_of_isHexDigit c.toFin (List.mem_takeWhile_imp hhex)
      · split at hrest
        · rename_i t hdrop
          rw [hdrop] at hc
          rw [Bool.and_eq_true, List.all_eq_true] at hrest
          rcases List.mem_cons.mp hc with rfl | ht
          · rfl
          · exact hrest.2 c ht
        · cases hrest

lemma portText_head (port : Option (List UInt8)) : ∀ x ∈ (portText port).head?, x = 58 := by
  cases port with
  | none => rintro x ⟨⟩
  | some t => rintro x ⟨⟩; rfl

lemma hostPort_bracket {u port : Option (List UInt8)} {t : List UInt8} {h : Host}
    (ht : ∀ c ∈ t, isUserChar c = true) (hliteral : literal t = some h)
    (hport : ∀ t ∈ port, t.all isDigit = true) :
    hostPort u (91 :: (t ++ [93]) ++ portText port) = some ⟨u, h, port⟩ := by
  have hclose : 93 ∉ t := fun hmem => absurd (ht 93 hmem) (by decide)
  obtain ⟨htake, hdrop⟩ := span_at (t := 93 :: portText port) hclose (by rintro x ⟨⟩; rfl)
  rw [List.cons_append, List.append_assoc, List.singleton_append, hostPort, htake, hdrop, hliteral,
    List.tail_cons, port_digits hport]
  exact if_pos (by simp)

lemma hostPort_text {u port : Option (List UInt8)} {h : Host} (hvalid : h.valid = true)
    (hport : ∀ t ∈ port, t.all isDigit = true) :
    hostPort u (h.text ++ portText port) = some ⟨u, h, port⟩ := by
  cases h with
  | ipv6 t => exact hostPort_bracket (userChar_ipv6 hvalid) (if_pos hvalid) hport
  | ipvFuture t =>
    have hliteral : literal t = some (.ipvFuture t) := by
      rw [Host.valid] at hvalid
      rw [literal, if_neg (by simp [future_not_ipv6 hvalid]), if_pos hvalid]
    exact hostPort_bracket (userChar_ipvFuture hvalid) hliteral hport
  | name t =>
    have hcolon : 58 ∉ t := notMem_encoded hvalid (by decide) (by decide) (by decide)
    obtain ⟨htake, hdrop⟩ := span_at hcolon (portText_head port)
    unfold hostPort
    split
    · rename_i s hs
      have hopen : 91 ∈ t ++ portText port := by
        rw [Host.text] at hs
        rw [hs]
        exact List.mem_cons_self
      rcases List.mem_append.mp hopen with hmem | hmem
      · exact absurd hmem (notMem_encoded hvalid (by decide) (by decide) (by decide))
      · exact absurd hmem (notMem_portText hport (by decide) (by decide))
    · rw [Host.text, htake, hdrop, port_digits hport]
      exact if_pos hvalid

lemma isHexDigit_eq_false {d : UInt8} (hd : isUserChar d = false) : isHexDigit d = false := by
  by_contra hhex
  have huser : isUserChar d = true := isUserChar_of_isHexDigit d.toFin (by simpa using hhex)
  rw [huser] at hd
  cases hd

lemma notMem_host {h : Host} (hvalid : h.valid = true) {d : UInt8} (hd : isUserChar d = false)
    (hne : d ≠ 37 ∧ d ≠ 91 ∧ d ≠ 93) : d ∉ h.text := by
  have hhex : isHexDigit d = false := isHexDigit_eq_false hd
  have hname : isNameChar d = false := (Bool.or_eq_false_iff.mp hd).1
  have hplain : ∀ t : List UInt8, (∀ c ∈ t, isUserChar c = true) → d ∉ 91 :: (t ++ [93]) := by
    intro t ht hmem
    simp only [List.mem_cons, List.mem_append, List.not_mem_nil, or_false] at hmem
    rcases hmem with h | h | h
    · exact hne.2.1 h
    · rw [ht d h] at hd
      cases hd
    · exact hne.2.2 h
  cases h with
  | ipv6 t => exact hplain t (userChar_ipv6 hvalid)
  | ipvFuture t => exact hplain t (userChar_ipvFuture hvalid)
  | name t => exact notMem_encoded hvalid hname hne.1 hhex

lemma authority_text {a : Authority} (h : a.Valid) : authority a.text = some a := by
  obtain ⟨userInfo, host, port⟩ := a
  have hnot : 64 ∉ host.text ++ portText port := by
    rw [List.mem_append, not_or]
    exact ⟨notMem_host h.host (by decide) (by decide),
      notMem_portText h.port (by decide) (by decide)⟩
  cases userInfo with
  | none =>
    have htext : Authority.text ⟨none, host, port⟩ = host.text ++ portText port := rfl
    rw [htext, authority, UriText.behind_eq_none hnot]
    exact hostPort_text h.host h.port
  | some t =>
    have huser := h.userInfo t rfl
    have hat : 64 ∉ t := notMem_encoded huser (by decide) (by decide) (by decide)
    obtain ⟨htake, -⟩ := span_at (t := 64 :: (host.text ++ portText port)) hat (by rintro x ⟨⟩; rfl)
    have htext : Authority.text ⟨some t, host, port⟩ = t ++ 64 :: (host.text ++ portText port) := by
      rw [Authority.text, Option.elim, List.append_assoc, List.singleton_append]
    rw [htext, authority, UriText.behind_cons hat, htake]
    exact (if_pos huser).trans (hostPort_text h.host h.port)

lemma isDigit_eq_false {d : UInt8} (hd : isUserChar d = false) : isDigit d = false := by
  simp only [isUserChar, isNameChar, Bool.or_eq_false_iff] at hd
  exact hd.1.1.1.2

lemma notMem_authority {a : Authority} (h : a.Valid) {d : UInt8} (hd : isUserChar d = false)
    (hne : d ≠ 37 ∧ d ≠ 91 ∧ d ≠ 93) (hat : d ≠ 64) : d ∉ a.text := by
  have hhex : isHexDigit d = false := isHexDigit_eq_false hd
  have hcolon : d ≠ 58 := by
    rintro rfl
    exact absurd hd (by decide)
  rw [Authority.text, List.mem_append, List.mem_append, not_or, not_or]
  refine ⟨?_, notMem_host h.host hd hne, notMem_portText h.port (isDigit_eq_false hd) hcolon⟩
  cases huser : a.userInfo with
  | none => exact List.not_mem_nil
  | some t =>
    rw [Option.elim, List.mem_append, List.mem_singleton, not_or]
    exact ⟨notMem_encoded (h.userInfo t huser) hd hne.1 hhex, hat⟩

lemma notMem_path {path : List (List UInt8)} (h : ∀ s ∈ path, encoded isPchar s = true) {d : UInt8}
    (hd : isPchar d = false) (hne : d ≠ 37 ∧ d ≠ 47) : d ∉ pathText path := by
  have hhex : isHexDigit d = false := isHexDigit_eq_false (Bool.or_eq_false_iff.mp hd).1
  intro hmem
  obtain ⟨s, hs, hmem⟩ := List.mem_flatMap.mp hmem
  rcases List.mem_cons.mp hmem with heq | hmem
  · exact hne.2 heq
  · exact notMem_encoded (h s hs) hd hne.1 hhex hmem

lemma isScheme_char : ∀ v : Fin 256, (isAlpha (UInt8.ofFin v) || isDigit (UInt8.ofFin v) ||
    [43, 45, 46].contains (UInt8.ofFin v)) = true →
      UInt8.ofFin v ≠ 58 ∧ UInt8.ofFin v ≠ 47 ∧ UInt8.ofFin v ≠ 63 ∧ UInt8.ofFin v ≠ 35 := by
  decide +kernel

lemma mem_isScheme {s : List UInt8} (h : isScheme s = true) :
    ∀ c ∈ s, c ≠ 58 ∧ c ≠ 47 ∧ c ≠ 63 ∧ c ≠ 35 := by
  cases s with
  | nil => cases h
  | cons c s =>
    rw [isScheme, Bool.and_eq_true, List.all_eq_true] at h
    rw [List.forall_mem_cons]
    exact ⟨isScheme_char c.toFin (by simp [h.1]), fun d hd => isScheme_char d.toFin (h.2 d hd)⟩

/-- The scheme, the authority and the path. -/
def hier (p : Parts) : List UInt8 :=
  p.scheme ++ 58 :: 47 :: 47 :: (p.authority.text ++ pathText p.path)

lemma text_eq (p : Parts) :
    p.text = hier p ++ (queryText p.query ++ fragmentText p.fragment) := by
  simp [Parts.text, hier]

/-- The query and the fragment are behind the rest. -/
lemma notMem_hier {p : Parts} (h : p.Valid) : 63 ∉ hier p ∧ 35 ∉ hier p := by
  have hscheme := mem_isScheme h.scheme
  have hnot : ∀ d : UInt8, d ∉ p.scheme → d ≠ 58 ∧ d ≠ 47 → d ∉ p.authority.text →
      d ∉ pathText p.path → d ∉ hier p := by
    intro d hd hne hauthority hpath
    simp only [hier, List.mem_append, List.mem_cons, not_or]
    exact ⟨hd, hne.1, hne.2, hne.2, hauthority, hpath⟩
  constructor
  · exact hnot 63 (fun hmem => (hscheme 63 hmem).2.2.1 rfl) (by decide)
      (notMem_authority h.authority (by decide) (by decide) (by decide))
      (notMem_path h.path (by decide) (by decide))
  · exact hnot 35 (fun hmem => (hscheme 35 hmem).2.2.2 rfl) (by decide)
      (notMem_authority h.authority (by decide) (by decide) (by decide))
      (notMem_path h.path (by decide) (by decide))

lemma front_text {p : Parts} (h : p.Valid) : UriText.front p.text = hier p := by
  obtain ⟨hquery, hfragment⟩ := notMem_hier h
  rw [text_eq, UriText.front]
  refine (UriText.span_append (fun c hc => ?_) (fun c hc => ?_)).1
  · rw [decide_eq_true_eq]
    exact ⟨fun he => hquery (he ▸ hc), fun he => hfragment (he ▸ hc)⟩
  · cases hq : p.query with
    | some q =>
      rw [hq] at hc
      cases hc
      rfl
    | none =>
      cases hf : p.fragment with
      | some f =>
        rw [hq, hf] at hc
        cases hc
        rfl
      | none =>
        rw [hq, hf] at hc
        cases hc

lemma query_text {p : Parts} (h : p.Valid) :
    UriText.behind 63 (p.text.takeWhile (· ≠ 35)) = p.query ∧
      UriText.behind 35 p.text = p.fragment := by
  obtain ⟨hquery, hfragment⟩ := notMem_hier h
  have hhash : 35 ∉ hier p ++ queryText p.query := by
    rw [List.mem_append, not_or]
    refine ⟨hfragment, ?_⟩
    cases hq : p.query with
    | none => exact List.not_mem_nil
    | some q =>
      rw [queryText, Option.elim, List.mem_cons, not_or]
      exact ⟨by decide, notMem_encoded (h.query q hq) (by decide) (by decide) (by decide)⟩
  have htext : p.text = (hier p ++ queryText p.query) ++ fragmentText p.fragment := by
    rw [text_eq, List.append_assoc]
  have hhead : ∀ c ∈ (fragmentText p.fragment).head?, c = 35 := by
    cases p.fragment with
    | none => rintro c ⟨⟩
    | some f => rintro c ⟨⟩; rfl
  rw [htext, (span_at hhash hhead).1]
  constructor
  · cases p.query with
    | none => exact UriText.behind_eq_none (by simpa [queryText] using hquery)
    | some q => exact UriText.behind_cons hquery q
  · cases p.fragment with
    | none => exact UriText.behind_eq_none (by simpa [fragmentText] using hhash)
    | some f => exact UriText.behind_cons hhash f

/-- The cut into components, by the characters that each of them is without. -/
lemma components_text {p : Parts} (h : p.Valid) :
    UriText.components p.text =
      ⟨some p.scheme, some p.authority.text, pathText p.path, p.query, p.fragment⟩ := by
  have hscheme := mem_isScheme h.scheme
  have hne : p.scheme ≠ [] := by
    rintro hnil
    have hvalid := h.scheme
    rw [hnil] at hvalid
    cases hvalid
  obtain ⟨htake, hdrop⟩ := UriText.span_append (p := fun c : UInt8 => decide (c ≠ 58 ∧ c ≠ 47))
    (s := p.scheme) (t := 58 :: 47 :: 47 :: (p.authority.text ++ pathText p.path))
    (fun c hc => decide_eq_true ⟨(hscheme c hc).1, (hscheme c hc).2.1⟩) (by rintro c ⟨⟩; rfl)
  have hcut : UriText.cutScheme (hier p) =
      (some p.scheme, 47 :: 47 :: (p.authority.text ++ pathText p.path)) := by
    rw [UriText.cutScheme, hier, hdrop, htake]
    exact if_neg hne
  have hslash : 47 ∉ p.authority.text :=
    notMem_authority h.authority (by decide) (by decide) (by decide)
  have hhead : ∀ c ∈ (pathText p.path).head?, c = 47 := by
    cases p.path with
    | nil => rintro c ⟨⟩
    | cons s path => rintro c ⟨⟩; rfl
  obtain ⟨htake', hdrop'⟩ := span_at hslash hhead
  obtain ⟨hquery, hfragment⟩ := query_text h
  rw [UriText.components, front_text h, hcut, hquery, hfragment]
  simp only [UriText.cutAuthority, htake', hdrop']

lemma segments_text {path : List (List UInt8)} (h : ∀ s ∈ path, 47 ∉ s) :
    segments (pathText path) = path := by
  cases path with
  | nil => rfl
  | cons s path =>
    rw [List.forall_mem_cons] at h
    change Cut.splitOn 47 (s ++ pathText path) = s :: path
    induction path generalizing s with
    | nil => exact (congrArg _ (List.append_nil s)).trans (Cut.splitOn_of_notMem h.1)
    | cons t path ih =>
      rw [List.forall_mem_cons] at h
      change Cut.splitOn 47 (s ++ 47 :: (t ++ pathText path)) = s :: t :: path
      rw [Cut.splitOn_append h.1, ih t h.2]

/-- Valid components are those of their text. -/
theorem parse_text {p : Parts} (h : p.Valid) : parse p.text = some p := by
  have hpath : segments (pathText p.path) = p.path :=
    segments_text fun s hs => notMem_encoded (h.path s hs) (by decide) (by decide) (by decide)
  unfold parse
  dsimp only
  rw [components_text h]
  dsimp only
  rw [Option.bind_some, authority_text h.authority, hpath]
  refine if_pos ?_
  rw [Bool.and_eq_true, Bool.and_eq_true, Bool.and_eq_true, List.all_eq_true, Option.all_eq_true,
    Option.all_eq_true]
  exact ⟨⟨⟨h.scheme, h.path⟩, h.query⟩, h.fragment⟩

/-- There is no NUL in a URI. -/
lemma nul_notMem_text {p : Parts} (h : p.Valid) : 0 ∉ p.text := by
  have hscheme : 0 ∉ p.scheme := by
    have hvalid := h.scheme
    intro hmem
    cases hs : p.scheme with
    | nil =>
      rw [hs] at hmem
      cases hmem
    | cons c s =>
      rw [hs, isScheme, Bool.and_eq_true, List.all_eq_true] at hvalid
      rw [hs] at hmem
      rcases List.mem_cons.mp hmem with heq | hmem
      · rw [← heq] at hvalid
        exact absurd hvalid.1 (by decide)
      · exact absurd (hvalid.2 0 hmem) (by decide)
  have hquery : 0 ∉ queryText p.query := by
    cases hq : p.query with
    | none => exact List.not_mem_nil
    | some q =>
      rw [queryText, Option.elim, List.mem_cons, not_or]
      exact ⟨by decide, notMem_encoded (h.query q hq) (by decide) (by decide) (by decide)⟩
  have hfragment : 0 ∉ fragmentText p.fragment := by
    cases hf : p.fragment with
    | none => exact List.not_mem_nil
    | some f =>
      rw [fragmentText, Option.elim, List.mem_cons, not_or]
      exact ⟨by decide, notMem_encoded (h.fragment f hf) (by decide) (by decide) (by decide)⟩
  simp only [Parts.text, List.mem_append, List.mem_cons, not_or]
  exact ⟨hscheme, by decide, by decide, by decide,
    notMem_authority h.authority (by decide) (by decide) (by decide),
    notMem_path h.path (by decide) (by decide), hquery, hfragment⟩

/-! ### Changes that keep the rules -/

lemma encoded_cons {p : UInt8 → Bool} {c : UInt8} (hc : c ≠ 37) (s : List UInt8) :
    encoded p (c :: s) = (p c && encoded p s) := by
  rw [encoded]
  rintro a b t rfl
  exact absurd rfl hc

/-- What is not part of an escape may be taken off the end. -/
lemma encoded_of_concat {p : UInt8 → Bool} (hp : p 37 = false) {d : UInt8}
    (hd : isHexDigit d = false) {s : List UInt8} (h : encoded p (s ++ [d]) = true) :
    encoded p s = true := by
  induction s using encoded.induct with
  | case1 => rfl
  | case2 a b s ih =>
    rw [List.cons_append, List.cons_append, List.cons_append, encoded, Bool.and_eq_true] at h
    rw [encoded, Bool.and_eq_true]
    exact ⟨h.1, ih h.2⟩
  | case3 c s hc ih =>
    by_cases hpct : c = 37
    · -- an escape that is cut short
      subst hpct
      rcases s with - | ⟨a, - | ⟨b, s⟩⟩
      · rw [List.cons_append, List.nil_append, encoded, hp] at h
        · cases h
        · rintro a b t _ ⟨⟩
      · simp [encoded, hd] at h
      · exact absurd rfl (hc a b s rfl)
    · rw [List.cons_append, encoded_cons hpct, Bool.and_eq_true] at h
      rw [encoded_cons hpct, Bool.and_eq_true]
      exact ⟨h.1, ih h.2⟩

/-- A change of letters to the other case. -/
structure CaseMap (f : UInt8 → UInt8) : Prop where
  hex : ∀ c, isHexDigit (f c) = isHexDigit c
  digit : ∀ c, isDigit (f c) = isDigit c
  fixed : ∀ c, isDigit c = true → f c = c
  name : ∀ c, isNameChar (f c) = isNameChar c
  percent : ∀ c, f c = 37 ↔ c = 37
  dot : ∀ c, f c = 46 ↔ c = 46
  colon : ∀ c, f c = 58 ↔ c = 58

section CaseMap

variable {f : UInt8 → UInt8} (hf : CaseMap f)

include hf

lemma CaseMap.encoded {s : List UInt8} (h : encoded isNameChar s = true) :
    Rfc3986.encoded isNameChar (s.map f) = true := by
  induction s using encoded.induct with
  | case1 => rfl
  | case2 a b s ih =>
    rw [Rfc3986.encoded, Bool.and_eq_true, Bool.and_eq_true] at h
    rw [List.map_cons, List.map_cons, List.map_cons, (hf.percent 37).mpr rfl, Rfc3986.encoded,
      hf.hex, hf.hex, Bool.and_eq_true, Bool.and_eq_true]
    exact ⟨h.1, ih h.2⟩
  | case3 c s hc ih =>
    rw [Rfc3986.encoded, Bool.and_eq_true] at h
    · have hpct : f c ≠ 37 := by
        rw [Ne, hf.percent]
        rintro rfl
        exact absurd h.1 (by decide)
      rw [List.map_cons, encoded_cons hpct, hf.name, Bool.and_eq_true]
      exact ⟨h.1, ih h.2⟩
    · exact hc

lemma CaseMap.octet (s : List UInt8) : isOctet (s.map f) = isOctet s := by
  by_cases hs : s.all isDigit = true
  · have hmap : s.map f = s := by
      conv_rhs => rw [← List.map_id s]
      exact List.map_congr_left fun c hc => hf.fixed c (List.all_eq_true.mp hs c hc)
    rw [hmap]
  · have hmap : (s.map f).all isDigit = s.all isDigit := by
      rw [List.all_map]
      exact List.all_congr rfl fun c => hf.digit c
    simp only [isOctet, hmap, hs, Bool.false_and]

lemma CaseMap.ipv4 (s : List UInt8) : isIPv4 (s.map f) = isIPv4 s := by
  rw [isIPv4, isIPv4, Cut.splitOn_map hf.dot, List.length_map, List.all_map]
  congr 1
  exact List.all_congr rfl fun p => hf.octet p

lemma CaseMap.h16 (s : List UInt8) : isH16 (s.map f) = isH16 s := by
  rw [isH16, isH16, List.length_map, List.all_map]
  congr 1
  exact List.all_congr rfl fun c => hf.hex c

lemma CaseMap.units (ps : List (List UInt8)) :
    Rfc3986.units (ps.map (List.map f)) = Rfc3986.units ps := by
  induction ps with
  | nil => rfl
  | cons p ps ih =>
    cases ps with
    | nil => rw [List.map_cons, List.map_nil, Rfc3986.units, Rfc3986.units, hf.h16, hf.ipv4]
    | cons q ps =>
      rw [List.map_cons] at ih
      rw [List.map_cons, List.map_cons, Rfc3986.units, Rfc3986.units, hf.h16, ih]

lemma CaseMap.side (s : List UInt8) : side (s.map f) = (Rfc3986.side s).map (List.map f) := by
  cases s with
  | nil => rfl
  | cons c s =>
    rw [Rfc3986.side, Rfc3986.side, if_neg (List.cons_ne_nil _ _),
      ← Cut.splitOn_map hf.colon]
    exact if_neg (List.cons_ne_nil _ _)

lemma CaseMap.ipv6 (s : List UInt8) : isIPv6 (s.map f) = isIPv6 s := by
  unfold isIPv6
  rw [Cut.cutFirst_map hf.colon hf.colon, Cut.splitOn_map hf.colon, hf.units]
  cases Cut.cutFirst 58 58 s with
  | none => rfl
  | some lr =>
    dsimp only [Option.map]
    rw [hf.side, hf.side, hf.units, List.length_map, List.all_map]
    congr 1
    exact List.all_congr rfl fun p => hf.h16 p

end CaseMap

/-- An IPv6 address has a colon. -/
lemma colon_mem_ipv6 {s : List UInt8} (h : isIPv6 s = true) : 58 ∈ s := by
  by_contra hcolon
  unfold isIPv6 at h
  cases hcut : Cut.cutFirst 58 58 s with
  | none =>
    rw [hcut, Cut.splitOn_of_notMem hcolon] at h
    dsimp only at h
    rw [units] at h
    split_ifs at h <;> exact absurd h (by decide)
  | some lr =>
    rw [Cut.eq_of_cutFirst hcut] at hcolon
    simp at hcolon

example : parse ([104, 116, 116, 112, 58, 47, 47, 91, 58, 58, 49, 93, 58, 56, 48, 47, 97, 47, 63]) =
    some ⟨[104, 116, 116, 112], ⟨none, .ipv6 [58, 58, 49], some [56, 48]⟩, [[97], []], some [],
      none⟩ := by
  decide +kernel

end Rfc3986
