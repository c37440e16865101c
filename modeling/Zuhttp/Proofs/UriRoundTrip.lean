import Zuhttp.Library.Rfc3986
import Zuhttp.Proofs.Trail

/-!
# URLs and the texts made of them

Every text that is made of a parsed URL is parsed as that URL again, without its userinfo.
-/

namespace Zuhttp

open Rfc3986 (Parts)

namespace UriParts

/-- What uriparser reports of a host. Brackets are no part of its text. -/
def ofHost : Rfc3986.Host → Bytes
  | .ipv6 t => t
  | .ipvFuture t => t
  | .name t => t

/-- What uriparser reports of the components of a URI. A port that is missing has no text. -/
def of (p : Parts) : UriParts where
  scheme := some p.scheme
  userInfo := p.authority.userInfo
  hostText := some (ofHost p.authority.host)
  ip6 := match p.authority.host with | .ipv6 _ => true | _ => false
  ipFuture := match p.authority.host with | .ipvFuture _ => true | _ => false
  portText := p.authority.port.getD []
  path := p.path
  query := p.query

def hasAuthority (p : UriParts) : Bool := p.scheme.isSome && p.hostText.isSome

end UriParts

/-- RFC 3986: what uriparser reports with a scheme and a host are the components of the URIs that
have an authority. -/
structure Uriparser.Conforms (up : Uriparser) : Prop where
  parse : ∀ s, (up.parse s).filter UriParts.hasAuthority = (Rfc3986.parse s).map UriParts.of

/-- The functions that make a text of a URL. -/
inductive Uri.Rendered (u : Uri) : Bytes → Prop
  | urlOf {h h' : Host} {t : Bytes} (hrun : Prog.exec u.urlOf h = (.ok (some t), h')) :
    Rendered u t
  | absoluteForm {b : Buffer} (hrun : Prog.exec u.absoluteForm (Buffer.init 0) = (.ok (), b)) :
    Rendered u b.data
  | baseText {b : Buffer} {t : Bytes}
    (hrun : Prog.exec u.baseText (Buffer.init UriParts.textMax) = (.ok t, b)) : Rendered u t
  | originForm {host : Bytes} (hhost : u.hostHeader = some host) :
    Rendered u (u.scheme ++ ascii "://" ++ host ++ u.pathQuery)

/-- The text is a URL for the same target. -/
def Uri.Denotes (up : Uriparser) (u : Uri) (t : Bytes) : Prop :=
  ∃ u', Uri.parse up t = .ok u' ∧ u'.scheme = u.scheme ∧ u'.host = u.host ∧ u'.port = u.port ∧
    u'.pathQuery = u.pathQuery ∧ u'.userinfo = none

lemma caseMap_facts : ∀ v : Fin 256,
    Rfc3986.isHexDigit (lower (UInt8.ofFin v)) = Rfc3986.isHexDigit (UInt8.ofFin v) ∧
    Ascii.isDigit (lower (UInt8.ofFin v)) = Ascii.isDigit (UInt8.ofFin v) ∧
    (Ascii.isDigit (UInt8.ofFin v) = true → lower (UInt8.ofFin v) = UInt8.ofFin v) ∧
    Rfc3986.isNameChar (lower (UInt8.ofFin v)) = Rfc3986.isNameChar (UInt8.ofFin v) ∧
    (lower (UInt8.ofFin v) = 37 ↔ UInt8.ofFin v = 37) ∧
    (lower (UInt8.ofFin v) = 46 ↔ UInt8.ofFin v = 46) ∧
    (lower (UInt8.ofFin v) = 58 ↔ UInt8.ofFin v = 58) := by
  decide +kernel

lemma caseMap_lower : Rfc3986.CaseMap lower where
  hex c := (caseMap_facts c.toFin).1
  digit c := (caseMap_facts c.toFin).2.1
  fixed c := (caseMap_facts c.toFin).2.2.1
  name c := (caseMap_facts c.toFin).2.2.2.1
  percent c := (caseMap_facts c.toFin).2.2.2.2.1
  dot c := (caseMap_facts c.toFin).2.2.2.2.2.1
  colon c := (caseMap_facts c.toFin).2.2.2.2.2.2

namespace UriParts

/-! ### The parts of a URL that is taken -/

lemma portDigits_eq {v : Nat} {s : Bytes} (hdigits : ∀ c ∈ s, 48 ≤ c ∧ c ≤ 57)
    (h : v * 10 ^ s.length + Decimal.decimalValue s ≤ 65535) :
    portDigits v s = some (v * 10 ^ s.length + Decimal.decimalValue s) := by
  induction s generalizing v with
  | nil => simp [portDigits, Decimal.decimalValue_nil]
  | cons c s ih =>
    rw [List.forall_mem_cons] at hdigits
    have hvalue : v * 10 ^ (c :: s).length + Decimal.decimalValue (c :: s) =
        (v * 10 + (c.toNat - 48)) * 10 ^ s.length + Decimal.decimalValue s := by
      rw [Decimal.decimalValue_cons, List.length_cons, pow_succ]
      ring
    rw [hvalue] at h ⊢
    have hsmall : v * 10 + (c.toNat - 48) ≤ 65535 := by
      have hpow : 1 ≤ 10 ^ s.length := Nat.one_le_pow _ _ (by omega)
      have hle := Nat.le_mul_of_pos_right (v * 10 + (c.toNat - 48)) hpow
      omega
    have hdigit : ¬(c < 48 ∨ c > 57) :=
      not_or.mpr ⟨UInt8.not_lt.mpr hdigits.1.1, UInt8.not_lt.mpr hdigits.1.2⟩
    rw [portDigits, if_neg hdigit, if_neg (Nat.not_lt.mpr hsmall), ih hdigits.2 h]

lemma portFromRange_decimal {n : Nat} (h : n < 2 ^ 16) :
    portFromRange (Decimal.decimalText n) = some (n, true) := by
  have hne : Decimal.decimalText n ≠ [] := Decimal.decimalText_ne_nil n
  have hvalue : 0 * 10 ^ (Decimal.decimalText n).length +
      Decimal.decimalValue (Decimal.decimalText n) = n := by
    rw [zero_mul, zero_add, Decimal.decimalValue_decimalText]
  have hdigits := portDigits_eq (v := 0) (Decimal.decimalText_digits n) (by omega)
  rw [portFromRange, if_neg hne, hdigits, hvalue, Option.map_some]

lemma hasEmptyLabel_append {s : Bytes} (t : Bytes) (h : hasEmptyLabel (s ++ t) = false) :
    hasEmptyLabel s = false := by
  induction s using hasEmptyLabel.induct with
  | case1 c d s ih =>
    rw [List.cons_append, List.cons_append, hasEmptyLabel, Bool.or_eq_false_iff] at h
    rw [hasEmptyLabel, Bool.or_eq_false_iff]
    exact ⟨h.1, ih h.2⟩
  | case2 s hs =>
    rcases s with - | ⟨c, - | ⟨d, s⟩⟩
    · rfl
    · rfl
    · exact absurd rfl (hs c d s)

lemma hasEmptyLabel_dots (s : Bytes) : hasEmptyLabel (s ++ [46, 46]) = true := by
  induction s with
  | nil => decide
  | cons c s ih =>
    cases s with
    | nil => simp [hasEmptyLabel]
    | cons d s =>
      rw [List.cons_append, List.cons_append, hasEmptyLabel, Bool.or_eq_true]
      exact .inr ih

/-- A host without a root dot is one, of itself. -/
lemma hostOk_self {host : Bytes} (hne : host ≠ []) (hlabel : hasEmptyLabel host = false)
    (hhead : host.head? ≠ some 46) (hlast : host.getLast? ≠ some 46) :
    hostOk host false = some host := by
  rw [hostOk, if_neg hne, if_neg (by decide), if_neg (by simp [hlabel]), if_neg hhead]
  dsimp only
  rw [if_neg hlast, if_neg hne]

/-- What `host_ok` takes, and what it makes of it. -/
lemma hostOk_spec {host out : Bytes} {v6 : Bool} (h : hostOk host v6 = some out) :
    (v6 = true ∧ host ≠ [] ∧ out = host) ∨
      (v6 = false ∧ out ≠ [] ∧ hasEmptyLabel host = false ∧ host.head? ≠ some 46 ∧
        ((host.getLast? ≠ some 46 ∧ out = host) ∨ host = out ++ [46])) := by
  unfold hostOk at h
  by_cases hempty : host = []
  · rw [if_pos hempty] at h
    cases h
  rw [if_neg hempty] at h
  cases v6 with
  | true =>
    rw [if_pos rfl] at h
    exact .inl ⟨rfl, hempty, (Option.some.inj h).symm⟩
  | false =>
    rw [if_neg Bool.false_ne_true] at h
    by_cases hlabel : hasEmptyLabel host = true
    · rw [if_pos hlabel] at h
      cases h
    rw [if_neg hlabel] at h
    by_cases hhead : host.head? = some 46
    · rw [if_pos hhead] at h
      cases h
    rw [if_neg hhead] at h
    have hlabel : hasEmptyLabel host = false := by simpa using hlabel
    dsimp only at h
    by_cases hroot : host.getLast? = some 46
    · rw [if_pos hroot] at h
      split_ifs at h with hone
      obtain rfl := Option.some.inj h
      exact .inr ⟨rfl, hone, hlabel, hhead, .inr (List.dropLast_append_getLast? 46 hroot).symm⟩
    · rw [if_neg hroot, if_neg hempty] at h
      obtain rfl := Option.some.inj h
      exact .inr ⟨rfl, hempty, hlabel, hhead, .inl ⟨hroot, rfl⟩⟩

/-- A host that was made is made of itself. -/
lemma hostOk_again {host out : Bytes} {v6 : Bool} (h : hostOk host v6 = some out) :
    hostOk out v6 = some out := by
  rcases hostOk_spec h with ⟨rfl, hne, rfl⟩ | ⟨rfl, hne, hlabel, hhead, ⟨hlast, rfl⟩ | rfl⟩
  · rw [hostOk, if_neg hne, if_pos rfl]
  · exact hostOk_self hne hlabel hhead hlast
  · refine hostOk_self hne (hasEmptyLabel_append [46] hlabel) ?_ ?_
    · intro hdot
      refine hhead ?_
      rw [List.head?_append, hdot]
      rfl
    · intro hdot
      have htwo := hasEmptyLabel_dots out.dropLast
      rw [← List.singleton_append, ← List.append_assoc, List.dropLast_append_getLast? 46 hdot,
        hlabel] at htwo
      cases htwo

/-- What the authority of a URL is made of. -/
structure Makes (p : UriParts) (scheme host : Bytes) (port : Nat) (portExplicit : Bool) : Prop where
  known : scheme = ascii "http" ∨ scheme = ascii "https"
  schemeText : ∃ text, p.scheme = some text ∧ text.map lower = scheme
  hostText : ∃ text, p.hostText = some text ∧
    hostOk (text.map lower) (p.ip6 || (text.map lower).contains 58) = some host
  future : p.ipFuture = false
  portText : ∃ r, portFromRange p.portText = some r ∧ portOf scheme r = port ∧ r.2 = portExplicit
  portValid : port ≠ 0

lemma authority_makes {p : UriParts} {a : Authority} (h : p.authority = some a) :
    p.Makes a.scheme a.host a.port a.portExplicit := by
  unfold authority at h
  cases hscheme : p.scheme with
  | none => simp [hscheme] at h
  | some scheme =>
    cases htext : p.hostText with
    | none => simp [hscheme, htext] at h
    | some text =>
      rw [hscheme, htext] at h
      dsimp only at h
      split_ifs at h with hknown hfuture
      split at h
      · cases h
      · rename_i host hok
        split at h
        · cases h
        · rename_i r hport
          split_ifs at h with hzero
          cases h
          exact ⟨hknown, ⟨scheme, hscheme, rfl⟩, ⟨text, htext, hok⟩, by simpa using hfuture,
            ⟨r, hport, rfl, rfl⟩, hzero⟩

lemma authority_of_makes {p : UriParts} {scheme host : Bytes} {port : Nat} {portExplicit : Bool}
    (h : p.Makes scheme host port portExplicit) :
    ∃ a, p.authority = some a ∧ a.scheme = scheme ∧ a.host = host ∧ a.port = port := by
  obtain ⟨text, hscheme, rfl⟩ := h.schemeText
  obtain ⟨hostText, htext, hhost⟩ := h.hostText
  obtain ⟨r, hport, rfl, -⟩ := h.portText
  unfold authority
  rw [hscheme, htext]
  dsimp only
  rw [dif_pos h.known, if_neg (by simp [h.future])]
  split
  · rename_i hnone
    rw [hnone] at hhost
    cases hhost
  · rename_i host' hsome
    rw [hsome] at hhost
    cases hhost
    split
    · rename_i hnone
      rw [hnone] at hport
      cases hport
    · rename_i r' hsome'
      rw [hsome'] at hport
      cases hport
      rw [dif_neg h.portValid]
      exact ⟨_, rfl, rfl, rfl, rfl⟩

/-- What a URL is made of. -/
lemma toUri_makes {p : UriParts} {u : Uri} (h : p.toUri = .ok u) :
    p.Makes u.scheme u.host u.port u.portExplicit ∧ u.pathQuery = p.pathQuery := by
  refine ⟨?_, (toUri_parts h).1⟩
  unfold toUri at h
  cases hauthority : p.authority with
  | none =>
    rw [hauthority] at h
    cases h
  | some a =>
    rw [hauthority] at h
    dsimp only at h
    split at h
    · cases h
    · cases h
      exact authority_makes hauthority

lemma toUri_of_makes {p : UriParts} {scheme host : Bytes} {port : Nat} {portExplicit : Bool}
    (h : p.Makes scheme host port portExplicit) (hshort : p.pathQuery.length < textMax) :
    ∃ u, p.toUri = .ok u ∧ u.scheme = scheme ∧ u.host = host ∧ u.port = port ∧
      u.pathQuery = p.pathQuery ∧ u.userinfo = p.userInfo := by
  obtain ⟨a, ha, hscheme, hhost, hport⟩ := authority_of_makes h
  have hexec := exec_buildPathQuery p
  rw [if_pos hshort] at hexec
  unfold toUri
  rw [ha]
  dsimp only
  cases hrun : Prog.exec p.buildPathQuery (Buffer.init textMax) with
  | mk r b =>
    rw [hrun] at hexec
    cases hexec
    exact ⟨_, rfl, hscheme, hhost, hport, rfl, rfl⟩

/-! ### The parts of a text -/

lemma pathQuery_of (q : Parts) : (of q).pathQuery =
    Rfc3986.pathText (if q.path = [] then [[]] else q.path) ++ Rfc3986.queryText q.query := by
  have hpath : (of q).path = q.path := rfl
  have hquery : (of q).query = q.query := rfl
  rw [pathQuery, pieces, hpath, hquery, List.flatten_append]
  congr 1
  · split_ifs with hempty
    · rfl
    · clear hempty
      induction q.path with
      | nil => rfl
      | cons s path ih =>
        rw [List.flatMap_cons, List.flatten_append, ih]
        simp [Rfc3986.pathText]
  · cases q.query with
    | none => rfl
    | some q => simp [Rfc3986.queryText]

/-- The host of a URL that is taken, as it stands in an authority. -/
lemma host_of {q : Parts} (hq : q.Valid) {u : Uri} (h : (of q).toUri = .ok u) :
    (if u.isV6 then Rfc3986.Host.ipv6 u.host else .name u.host).valid = true ∧
      hostOk u.host u.isV6 = some u.host := by
  obtain ⟨hmakes, -⟩ := toUri_makes h
  obtain ⟨text, htext, hhost⟩ := hmakes.hostText
  have hvalid := hq.authority.host
  have htext : ofHost q.authority.host = text := Option.some.inj htext
  cases hkind : q.authority.host with
  | ipv6 t =>
    rw [hkind] at hvalid htext
    obtain rfl : t = text := htext
    have hv6 : (of q).ip6 = true := by simp [of, hkind]
    have haddress : Rfc3986.isIPv6 (t.map lower) = true := by
      rw [caseMap_lower.ipv6]
      exact hvalid
    rw [hv6, Bool.true_or] at hhost
    obtain ⟨-, -, hself⟩ := (hostOk_spec hhost).resolve_right (by simp)
    have hcolon : u.isV6 = true := by
      rw [Uri.isV6, hself, List.contains_iff_mem]
      exact Rfc3986.colon_mem_ipv6 haddress
    rw [if_pos hcolon, hcolon, hself]
    exact ⟨haddress, hself ▸ hostOk_again hhost⟩
  | ipvFuture t =>
    have hfuture : (of q).ipFuture = true := by simp [of, hkind]
    rw [hmakes.future] at hfuture
    cases hfuture
  | name t =>
    rw [hkind] at hvalid htext
    obtain rfl : t = text := htext
    have hv6 : (of q).ip6 = false := by simp [of, hkind]
    have hname : Rfc3986.encoded Rfc3986.isNameChar (t.map lower) = true :=
      caseMap_lower.encoded hvalid
    have hcolon : 58 ∉ t.map lower :=
      Rfc3986.notMem_encoded hname (by decide) (by decide) (by decide)
    have hcontains : (t.map lower).contains 58 = false := by
      simpa using hcolon
    rw [hv6, hcontains, Bool.or_self] at hhost
    have hhostName : Rfc3986.encoded Rfc3986.isNameChar u.host = true := by
      obtain ⟨-, -, -, -, ⟨-, heq⟩ | heq⟩ := (hostOk_spec hhost).resolve_left (by simp)
      · rw [heq]
        exact hname
      · rw [heq] at hname
        exact Rfc3986.encoded_of_concat (by decide) (by decide) hname
    have hplain : u.isV6 = false := by
      have hnot := Rfc3986.notMem_encoded (d := 58) hhostName (by decide) (by decide) (by decide)
      simpa [Uri.isV6] using hnot
    rw [if_neg (by simp [hplain]), hplain]
    exact ⟨hhostName, hostOk_again hhost⟩

/-- The components of a text for a URL with this port part. -/
def again (q : Parts) (u : Uri) (port : Option Bytes) : Parts where
  scheme := u.scheme
  authority := ⟨none, if u.isV6 then .ipv6 u.host else .name u.host, port⟩
  path := if q.path = [] then [[]] else q.path
  query := q.query
  fragment := none

lemma again_text {q : Parts} {u : Uri} (h : (of q).toUri = .ok u) (port : Option Bytes) :
    (again q u port).text =
      u.scheme ++ ascii "://" ++ (u.bracketed ++ Rfc3986.portText port) ++ u.pathQuery := by
  have hhost : (if u.isV6 then Rfc3986.Host.ipv6 u.host else .name u.host).text = u.bracketed := by
    unfold Uri.bracketed
    split_ifs <;> simp [Rfc3986.Host.text]
  have hslashes : ascii "://" = [58, 47, 47] := by decide +kernel
  rw [(toUri_makes h).2, pathQuery_of, hslashes, ← hhost]
  simp [again, Parts.text, Rfc3986.Authority.text, Rfc3986.fragmentText]

/-- A port part that stands for the port of the URL. -/
def PortFor (u : Uri) (port : Option Bytes) : Prop :=
  (port = none ∧ u.port = Uri.defaultPort u.scheme) ∨ port = some (Decimal.decimalText u.port)

lemma again_valid {q : Parts} (hq : q.Valid) {u : Uri} (h : (of q).toUri = .ok u)
    {port : Option Bytes} (hport : PortFor u port) : (again q u port).Valid where
  scheme := by
    change Rfc3986.isScheme u.scheme = true
    rcases u.schemeKnown with hscheme | hscheme <;> rw [hscheme] <;> decide +kernel
  authority := by
    refine ⟨by rintro t ⟨⟩, (host_of hq h).1, ?_⟩
    rintro t ht
    rcases hport with ⟨rfl, -⟩ | rfl
    · cases ht
    · cases ht
      rw [List.all_eq_true]
      exact fun c hc => decide_eq_true (Decimal.decimalText_digits u.port c hc)
  path := by
    intro s hs
    change s ∈ (if q.path = [] then [[]] else q.path) at hs
    split_ifs at hs
    · rw [List.mem_singleton.mp hs]
      rfl
    · exact hq.path s hs
  query := hq.query
  fragment := by rintro t ⟨⟩

lemma again_makes {q : Parts} (hq : q.Valid) {u : Uri} (h : (of q).toUri = .ok u)
    {port : Option Bytes} (hport : PortFor u port) :
    ∃ r, (of (again q u port)).Makes u.scheme u.host u.port r := by
  obtain ⟨hmakes, -⟩ := toUri_makes h
  have hself := (host_of hq h).2
  have hlower : u.scheme.map lower = u.scheme := by
    rcases u.schemeKnown with hscheme | hscheme <;> rw [hscheme] <;> decide +kernel
  have hrange : ∃ r, portFromRange (port.getD []) = some r ∧ portOf u.scheme r = u.port := by
    rcases hport with ⟨rfl, hdefault⟩ | rfl
    · exact ⟨(0, false), rfl, hdefault.symm⟩
    · exact ⟨_, portFromRange_decimal u.portValid.2, rfl⟩
  obtain ⟨r, hr, hof⟩ := hrange
  refine ⟨r.2, hmakes.known, ⟨u.scheme, rfl, hlower⟩, ?_, ?_, ⟨r, hr, hof, rfl⟩, hmakes.portValid⟩
  · by_cases hv6 : u.isV6 = true
    · refine ⟨u.host, by simp [of, again, hv6, ofHost], ?_⟩
      rw [u.hostLower, show u.host.contains 58 = true from hv6, Bool.or_true]
      rwa [hv6] at hself
    · refine ⟨u.host, by simp [of, again, hv6, ofHost], ?_⟩
      have hplain : u.host.contains 58 = false := by simpa [Uri.isV6] using hv6
      have hip : (of (again q u port)).ip6 = false := by simp [of, again, hv6]
      rw [u.hostLower, hplain, hip, Bool.or_self]
      rwa [show u.isV6 = false from hplain] at hself
  · change (match (if u.isV6 then Rfc3986.Host.ipv6 u.host else .name u.host) with
      | .ipvFuture _ => true | _ => false) = false
    split_ifs <;> rfl

end UriParts

namespace Uri

variable {up : Uriparser}

/-- A URL that is taken is made of the components of a URI. -/
lemma parse_components (hup : up.Conforms) {s : Bytes} {u : Uri} (h : parse up s = .ok u) :
    ∃ q : Parts, q.Valid ∧ (UriParts.of q).toUri = .ok u := by
  unfold parse at h
  split_ifs at h
  cases hparse : up.parse s with
  | none =>
    rw [hparse] at h
    cases h
  | some p =>
    rw [hparse] at h
    obtain ⟨hmakes, -⟩ := UriParts.toUri_makes h
    obtain ⟨scheme, hscheme, -⟩ := hmakes.schemeText
    obtain ⟨host, hhost, -⟩ := hmakes.hostText
    have hauthority : p.hasAuthority = true := by simp [UriParts.hasAuthority, hscheme, hhost]
    have hconforms := hup.parse s
    rw [hparse, Option.filter_some, if_pos hauthority] at hconforms
    obtain ⟨q, hq, hof⟩ := Option.map_eq_some_iff.mp hconforms.symm
    exact ⟨q, Rfc3986.parse_valid hq, hof ▸ h⟩

lemma parse_text (hup : up.Conforms) {q : Parts} (hq : q.Valid) :
    parse up q.text = (UriParts.of q).toUri := by
  have hconforms := hup.parse q.text
  rw [Rfc3986.parse_text hq, Option.map_some, Option.filter_eq_some_iff] at hconforms
  rw [parse, if_neg (Rfc3986.nul_notMem_text hq), hconforms.1]

/-- A text with the host, a part that stands for the port, the path and the query. -/
lemma denotes_text (hup : up.Conforms) {s : Bytes} {u : Uri} (h : parse up s = .ok u)
    {port : Option Bytes} (hport : UriParts.PortFor u port) :
    u.Denotes up
      (u.scheme ++ ascii "://" ++ (u.bracketed ++ Rfc3986.portText port) ++ u.pathQuery) := by
  obtain ⟨q, hq, htoUri⟩ := parse_components hup h
  obtain ⟨r, hmakes⟩ := UriParts.again_makes hq htoUri hport
  have hvalid := UriParts.again_valid hq htoUri hport
  have hpath : (UriParts.of (UriParts.again q u port)).pathQuery = u.pathQuery := by
    rw [(UriParts.toUri_makes htoUri).2, UriParts.pathQuery_of, UriParts.pathQuery_of]
    change Rfc3986.pathText (if (if q.path = [] then [[]] else q.path) = [] then [[]]
      else if q.path = [] then [[]] else q.path) ++ _ = _
    rw [if_neg (by split_ifs <;> simp [*])]
    rfl
  obtain ⟨u', hu', hscheme, hhost, hport', hpath', huser⟩ :=
    UriParts.toUri_of_makes hmakes (hpath ▸ parse_short h)
  rw [← UriParts.again_text htoUri, Denotes, parse_text hup hvalid]
  exact ⟨u', hu', hscheme, hhost, hport', hpath'.trans hpath, huser⟩

lemma urlText_eq (u : Uri) : u.urlText = u.scheme ++ ascii "://" ++ (u.bracketed ++
    Rfc3986.portText (if u.portExplicit then some (Decimal.decimalText u.port) else none)) ++
      u.pathQuery := by
  rw [urlText]
  split_ifs <;> simp [Rfc3986.portText]

lemma portFor_urlText (hup : up.Conforms) {s : Bytes} {u : Uri} (h : parse up s = .ok u) :
    UriParts.PortFor u (if u.portExplicit then some (Decimal.decimalText u.port) else none) := by
  obtain ⟨q, -, htoUri⟩ := parse_components hup h
  obtain ⟨r, -, hof, hexplicit⟩ := (UriParts.toUri_makes htoUri).1.portText
  split_ifs with hport
  · exact .inr rfl
  · refine .inl ⟨rfl, ?_⟩
    rw [← hof, UriParts.portOf, if_neg (hexplicit ▸ hport)]

end Uri

/-- RFC 3986 as a library, without references. -/
def Uriparser.reference : Uriparser where
  parse s := (Rfc3986.parse s).map UriParts.of
  addBase _ _ := none

lemma Uriparser.reference_conforms : Uriparser.reference.Conforms where
  parse s := by
    change ((Rfc3986.parse s).map UriParts.of).filter UriParts.hasAuthority = _
    cases Rfc3986.parse s <;> rfl

/-- `http://u@[::A]:08080//a?#f` -/
def addressWithUser : Uri where
  scheme := ascii "http"
  host := ascii "::a"
  pathQuery := ascii "//a?"
  userinfo := some (ascii "u")
  port := 8080
  portExplicit := true
  schemeKnown := Uri.http_known
  hostLower := by decide
  portValid := port8080_valid

end Zuhttp
