import Zuhttp.Bytes
import Zuhttp.Error

/-!
# The header list

The functions of `zuh_headers.c`. A field can only be built from a name that is an RFC 7230
token and a value without control bytes other than HTAB, as `zuh_headers_add` is the only way
into the list.
-/

namespace Zuhttp

def isTchar (c : UInt8) : Bool :=
  (97 ≤ c ∧ c ≤ 122) ∨ (65 ≤ c ∧ c ≤ 90) ∨ (48 ≤ c ∧ c ≤ 57) ∨
    (ascii "!#$%&'*+-.^_`|~").contains c

def headerNameValid (name : Bytes) : Bool := !name.isEmpty && name.all isTchar

def isFieldByte (c : UInt8) : Bool :=
  !(c = 13 ∨ c = 10 ∨ c = 0) && !(c < 32 ∧ c ≠ 9) && !(c = 127)

def headerValueValid (value : Bytes) : Bool := value.all isFieldByte

structure Header where
  name : Bytes
  value : Bytes
  nameValid : headerNameValid name = true
  valueValid : headerValueValid value = true
  deriving DecidableEq

/-- `zuh_headers`. A limit of 0 is no limit. -/
structure Headers where
  items : List Header
  bytes : Nat
  maxCount : Nat
  maxName : Nat
  maxValue : Nat
  maxBytes : Nat
  deriving DecidableEq

namespace Headers

def initLimited (maxCount maxName maxValue maxBytes : Nat) : Headers :=
  ⟨[], 0, maxCount, maxName, maxValue, maxBytes⟩

/-- `zuh_headers_init`, with the `ZUH_DEFAULT_MAX_HEADER_*` limits. -/
def init : Headers := initLimited 100 256 8192 65536

def free (h : Headers) : Headers := { h with items := [], bytes := 0 }

/-- `zuh_size_add` on a 64-bit `size_t`. -/
def sizeAdd (a b : Nat) : Option Nat := if a + b < 2 ^ 64 then some (a + b) else none

/-- The byte total `zuh_headers_add` would store: name, `": "`, value and CRLF. -/
def newBytes (h : Headers) (name value : Bytes) : Option Nat := do
  let add ← sizeAdd name.length value.length
  let add ← sizeAdd add 4
  sizeAdd h.bytes add

/-- `zuh_headers_add`, when no allocation fails. -/
def add (h : Headers) (name value : Bytes) : Except Code Headers :=
  if hn : headerNameValid name = true then
    if hv : headerValueValid value = true then
      if h.maxCount ≠ 0 ∧ h.items.length ≥ h.maxCount then .error .bodyLimit
      else if h.maxName ≠ 0 ∧ name.length > h.maxName then .error .bodyLimit
      else if h.maxValue ≠ 0 ∧ value.length > h.maxValue then .error .bodyLimit
      else match h.newBytes name value with
        | none => .error .overflow
        | some total =>
          if h.maxBytes ≠ 0 ∧ total > h.maxBytes then .error .bodyLimit
          else .ok { h with items := h.items ++ [⟨name, value, hn, hv⟩], bytes := total }
    else .error .parse
  else .error .parse

def named (h : Headers) (name : Bytes) : List Header :=
  h.items.filter (fun f => asciiNcasecmp f.name name = 0)

def count (h : Headers) (name : Bytes) : Nat := (h.named name).length

def getAt (h : Headers) (name : Bytes) (i : Nat) : Option Bytes :=
  ((h.named name)[i]?).map Header.value

def get (h : Headers) (name : Bytes) : Option Bytes := h.getAt name 0

def has (h : Headers) (name : Bytes) : Bool := (h.get name).isSome

def remove (h : Headers) (name : Bytes) : Headers :=
  { h with
    items := h.items.filter (fun f => asciiNcasecmp f.name name ≠ 0)
    bytes := (h.named name).foldl (fun b f => b - (f.name.length + f.value.length + 4)) h.bytes }

end Headers

end Zuhttp
