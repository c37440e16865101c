import Zuhttp.Host

/-!
# Parsing URIs

`zuh_uri_parse` and `zuh_uri_resolve` of `zuh_uri.c`. uriparser is a parameter: what it makes
of a text, and of a reference against a base.
-/

namespace Zuhttp

/-- `UriUriA`, its fragment aside. A range that is not there is `none`. -/
structure UriParts where
  scheme : Option Bytes
  userInfo : Option Bytes := none
  hostText : Option Bytes
  ip6 : Bool := false
  ipFuture : Bool := false
  portText : Bytes := []
  path : List Bytes := []
  query : Option Bytes := none

/-- `uriParseSingleUriExMmA` and `uriAddBaseUriExMmA`, when no allocation fails; the second
takes the reference first. -/
structure Uriparser where
  parse : Bytes → Option UriParts
  addBase : UriParts → UriParts → Option UriParts

namespace UriParts

/-- The digit loop of `port_from_range`. -/
def portDigits : Nat → Bytes → Option Nat
  | v, [] => some v
  | v, c :: s =>
    if c < 48 ∨ c > 57 then none
    else if v * 10 + (c.toNat - 48) > 65535 then none
    else portDigits (v * 10 + (c.toNat - 48)) s

/-- `port_from_range`: the port, unless none is given, and whether it is. -/
def portFromRange (text : Bytes) : Option (Nat × Bool) :=
  if text = [] then some (0, false) else (portDigits 0 text).map (·, true)

/-- Two dots in a row. -/
def hasEmptyLabel : Bytes → Bool
  | c :: d :: s => (c = 46 && d = 46) || hasEmptyLabel (d :: s)
  | _ => false

/-- `host_ok`: the host, without a root dot. -/
def hostOk (host : Bytes) (v6 : Bool) : Option Bytes :=
  if host = [] then none
  else if v6 then some host
  else if hasEmptyLabel host then none
  else if host.head? = some 46 then none
  else
    let host := if host.getLast? = some 46 then host.dropLast else host
    if host = [] then none else some host

def appendSegments : List Bytes → Writer Unit
  | [] => pure ()
  | s :: path => do
    Buffer.appendByte 47
    Buffer.append s
    appendSegments path

def appendPath (path : List Bytes) : Writer Unit :=
  if path = [] then Buffer.appendByte 47 else appendSegments path

def appendQuery : Option Bytes → Writer Unit
  | none => pure ()
  | some query => do
    Buffer.appendByte 63
    Buffer.append query

/-- The size of the buffers for a path with its query and for the text of a base. -/
def textMax : Nat := 64 * 1024

/-- `build_path_query`. -/
def buildPathQuery (p : UriParts) : Writer Bytes := do
  appendPath p.path
  appendQuery p.query
  Buffer.cstr

lemma lower_lower (c : UInt8) : lower (lower c) = lower c := by
  unfold lower
  split_ifs with hupper hagain
  · simp only [UInt8.le_iff_toNat_le, UInt8.toNat_add, UInt8.toNat_ofNat] at hupper hagain
    omega
  · rfl
  · rfl

lemma map_lower_lower (s : Bytes) : (s.map lower).map lower = s.map lower := by
  simp [lower_lower]

lemma hostOk_lower {host out : Bytes} {v6 : Bool} (hlower : host.map lower = host)
    (h : hostOk host v6 = some out) : out.map lower = out := by
  unfold hostOk at h
  dsimp only at h
  split_ifs at h
  · rw [← Option.some.inj h, hlower]
  · rw [← Option.some.inj h, List.map_dropLast, hlower]
  · rw [← Option.some.inj h, hlower]

lemma portDigits_le {v n : Nat} {s : Bytes} (hv : v ≤ 65535) (h : portDigits v s = some n) :
    n ≤ 65535 := by
  induction s generalizing v with
  | nil =>
    cases h
    exact hv
  | cons c s ih =>
    unfold portDigits at h
    split_ifs at h with hdigit hbig
    exact ih (by omega) h

lemma portFromRange_le {text : Bytes} {r : Nat × Bool} (h : portFromRange text = some r) :
    r.1 ≤ 65535 := by
  unfold portFromRange at h
  split_ifs at h
  · cases h
    decide
  · obtain ⟨n, hn, rfl⟩ := Option.map_eq_some_iff.mp h
    exact portDigits_le (by decide) hn

/-- The port of a scheme that is known, where none is given. -/
def portOf (scheme : Bytes) (r : Nat × Bool) : Nat := if r.2 then r.1 else Uri.defaultPort scheme

lemma portOf_lt {scheme text : Bytes} {r : Nat × Bool} (h : portFromRange text = some r) :
    portOf scheme r < 2 ^ 16 := by
  have hle := portFromRange_le h
  unfold portOf Uri.defaultPort
  split_ifs <;> omega

/-- The scheme, the host and the port of a URL for a request. -/
structure Authority where
  scheme : Bytes
  host : Bytes
  port : Nat
  portExplicit : Bool
  schemeKnown : scheme = ascii "http" ∨ scheme = ascii "https"
  hostLower : host.map lower = host
  portValid : 0 < port ∧ port < 2 ^ 16

/-- The checks of `from_uriparser`. -/
def authority (p : UriParts) : Option Authority :=
  match p.scheme, p.hostText with
  | some scheme, some hostText =>
    if hscheme : scheme.map lower = ascii "http" ∨ scheme.map lower = ascii "https" then
      if p.ipFuture then none
      else
        match hhost : hostOk (hostText.map lower) (p.ip6 || (hostText.map lower).contains 58) with
        | none => none
        | some host =>
          match hport : portFromRange p.portText with
          | none => none
          | some r =>
            if hzero : portOf (scheme.map lower) r = 0 then none
            else
              some {
                scheme := scheme.map lower
                host := host
                port := portOf (scheme.map lower) r
                portExplicit := r.2
                schemeKnown := hscheme
                hostLower := hostOk_lower (map_lower_lower hostText) hhost
                portValid := ⟨Nat.pos_of_ne_zero hzero, portOf_lt hport⟩ }
    else none
  | _, _ => none

/-- `from_uriparser`. -/
def toUri (p : UriParts) : Except Code Uri :=
  match p.authority with
  | none => .error .url
  | some a =>
    match Prog.exec p.buildPathQuery (Buffer.init textMax) with
    | (.error _, _) => .error .nomem
    | (.ok pathQuery, _) =>
      .ok {
        scheme := a.scheme
        host := a.host
        pathQuery := pathQuery
        userinfo := p.userInfo
        port := a.port
        portExplicit := a.portExplicit
        schemeKnown := a.schemeKnown
        hostLower := a.hostLower
        portValid := a.portValid }

end UriParts

namespace Uri

/-- `zuh_uri_parse`, when no allocation fails. -/
def parse (up : Uriparser) (s : Bytes) : Except Code Uri :=
  if 0 ∈ s then .error .url
  else
    match up.parse s with
    | none => .error .url
    | some p => p.toUri

def appendHost (u : Uri) : Writer Unit :=
  if u.isV6 then do
    Buffer.appendByte 91
    Buffer.append u.host
    Buffer.appendByte 93
  else Buffer.append u.host

/-- The text of a base in `zuh_uri_resolve`, without its userinfo. -/
def baseText (u : Uri) : Writer Bytes := do
  Buffer.append u.scheme
  Buffer.append (ascii "://")
  u.appendHost
  Prog.onlyIf u.portExplicit (Buffer.append (58 :: Decimal.decimalText u.port))
  Buffer.append u.pathQuery
  Buffer.cstr

/-- `zuh_proxy_absolute_form`. -/
def absoluteForm (u : Uri) : Writer Unit := do
  Buffer.append u.scheme
  Buffer.append (ascii "://")
  u.appendHost
  Prog.onlyIf u.portExplicit (Buffer.append (58 :: Decimal.decimalText u.port))
  Buffer.append u.pathQuery

/-- `zuh_uri_resolve`, when no allocation fails. -/
def resolve (up : Uriparser) (base : Uri) (ref : Bytes) : Except Code Uri :=
  if 0 ∈ ref then .error .url
  else
    match Prog.exec base.baseText (Buffer.init UriParts.textMax) with
    | (.error _, _) => .error .nomem
    | (.ok text, _) =>
      match up.parse text, up.parse ref with
      | some ubase, some uref =>
        match up.addBase uref ubase with
        | none => .error .url
        | some uabs => uabs.toUri
      | _, _ => .error .url

end Uri

def UriLib.of (up : Uriparser) : UriLib := ⟨Uri.parse up, Uri.resolve up⟩

end Zuhttp
