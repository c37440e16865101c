import Zuhttp.Buffer
import Zuhttp.Library.Ascii

/-!
# Secret redaction

`zuh_redact.c`. A NULL policy and a NULL list are empty lists.
-/

namespace Zuhttp

structure RedactPolicy where
  extraHeaders : List Bytes
  extraParams : List Bytes

namespace RedactPolicy

/-- `zuh_redact_policy_init`. -/
def init : RedactPolicy := ⟨[], []⟩

/-- `k_headers`. -/
def headers : List Bytes :=
  ["authorization", "proxy-authorization", "cookie", "set-cookie", "x-api-key",
    "x-auth-token"].map ascii

/-- `k_params`. -/
def params : List Bytes :=
  ["access_token", "api_key", "apikey", "signature", "sig", "client_secret", "password",
    "passwd", "pwd", "secret", "token", "refresh_token", "id_token", "private_key",
    "auth_token", "session_token"].map ascii

def inList (list : List Bytes) (name : Bytes) : Bool :=
  list.any (fun entry => asciiNcasecmp name entry = 0)

/-- `zuh_redact_is_secret_header`. -/
def isSecretHeader (p : RedactPolicy) (name : Bytes) : Bool :=
  if name = [] then false
  else if inList headers name then true
  else inList p.extraHeaders name

def hexval (c : UInt8) : Option Nat := Ascii.hexValue c

def paramListed (p : RedactPolicy) (name : Bytes) : Bool :=
  if inList params name then true else inList p.extraParams name

/-- The byte that `c a b` escapes, when `c` is a percent sign. -/
def unescape (c a b : UInt8) : Option UInt8 :=
  if c = 37 then
    match hexval a, hexval b with
    | some hi, some lo => some (UInt8.ofNat (hi * 16 + lo))
    | _, _ => none
  else none

/-- The decoding of a name into `dec`, which holds 128 bytes. -/
def decodeName : Bytes → Bytes → Option Bytes
  | c :: a :: b :: s, dec =>
    if dec.length = 128 then none
    else
      match unescape c a b with
      | some x => decodeName s (dec ++ [x])
      | none => decodeName (a :: b :: s) (dec ++ [c])
  | c :: s, dec => if dec.length = 128 then none else decodeName s (dec ++ [c])
  | [], dec => some dec

/-- `zuh_redact_is_secret_param`. -/
def isSecretParam (p : RedactPolicy) (name : Bytes) : Bool :=
  if name = [] then false
  else if p.paramListed name then true
  else if 37 ∉ name then false
  else
    match decodeName name [] with
    | none => false
    | some dec => p.paramListed dec

/-- `ZUH_REDACTED`. -/
def redacted : Bytes := ascii "<redacted>"

def isSeparator (c : UInt8) : Bool := c = 38 ∨ c = 59

/-- One pair of a query, between two separators. -/
def redactPair (p : RedactPolicy) (pair : Bytes) : Writer Unit :=
  let name := pair.takeWhile (· ≠ 61)
  if 61 ∈ pair ∧ p.isSecretParam name then do
    Buffer.append (name ++ [61])
    Buffer.append redacted
  else if pair ≠ [] then Buffer.append pair
  else pure ()

def redactQueryN (p : RedactPolicy) : Nat → Bytes → Writer Unit
  | 0, _ => pure ()
  | n + 1, q =>
    if q = [] then pure ()
    else do
      p.redactPair (q.takeWhile (fun c => !isSeparator c))
      match q.dropWhile (fun c => !isSeparator c) with
      | [] => pure ()
      | separator :: q => do
        Buffer.appendByte separator
        redactQueryN p n q

/-- `redact_query`; every turn of its loop uses up a byte. -/
def redactQuery (p : RedactPolicy) (q : Bytes) : Writer Unit := p.redactQueryN q.length q

def isSchemeByte (c : UInt8) : Bool :=
  Ascii.isAlpha c ∨ Ascii.isDigit c ∨ c = 43 ∨ c = 45 ∨ c = 46

/-- The search for `"://"` from the byte `i` on; it needs two more bytes behind this one. -/
def findScheme : Nat → Bytes → Option Nat
  | i, c :: d :: e :: s =>
    if c = 58 ∧ d = 47 ∧ e = 47 then some (i + 3)
    else if isSchemeByte c then findScheme (i + 1) (d :: e :: s)
    else none
  | _, _ => none

/-- `scheme_end`. -/
def schemeEnd : Bytes → Option Nat
  | [] => none
  | c :: s => if Ascii.isAlpha c then findScheme 1 s else none

def inAuthority (c : UInt8) : Bool := !(c = 47 ∨ c = 63 ∨ c = 35)

/-- The path, the query with its secrets replaced, and the fragment. -/
def redactRest (p : RedactPolicy) (rest : Bytes) : Writer Unit :=
  let path := rest.takeWhile (· ≠ 63)
  match rest.dropWhile (· ≠ 63) with
  | [] => Buffer.append rest
  | mark :: qs => do
    Buffer.append (path ++ [mark])
    p.redactQuery (qs.takeWhile (· ≠ 35))
    match qs.dropWhile (· ≠ 35) with
    | [] => pure ()
    | fragment => Buffer.append fragment

/-- `zuh_redact_url`. -/
def redactUrl (p : RedactPolicy) (url : Bytes) : Writer Unit :=
  match schemeEnd url with
  | some n => do
    Buffer.append (url.take n)
    let authority := (url.drop n).takeWhile inAuthority
    -- the last '@' ends the userinfo
    if 64 ∈ authority then Buffer.append (authority.rtakeWhile (· ≠ 64))
    else Buffer.append authority
    p.redactRest ((url.drop n).dropWhile inAuthority)
  | none => p.redactRest url

/-- `zuh_redact_form_body`. -/
def redactFormBody (p : RedactPolicy) (body : Bytes) : Writer Unit := p.redactQuery body

end RedactPolicy

end Zuhttp
