import Zuhttp.Headers
import Zuhttp.Library.Sweep

/-!
# The header list and its storage

`zuh_headers_add`, `zuh_headers_remove` and `zuh_headers_set` with the array that holds the
fields, whose growth and whose two string copies can each fail. A NULL argument does what the
empty string does.
-/

namespace Zuhttp

/-- `zuh_headers` with the slots its array has. -/
structure HeaderList extends Headers where
  cap : Nat
  deriving DecidableEq

/-- What `malloc` and `realloc` answer to the requests one call makes. -/
structure Grants where
  items : Bool
  name : Bool
  value : Bool
  deriving DecidableEq, Repr

/-- Whether `zuh_alloc` or `zuh_realloc` gives `n` bytes, in front of which it keeps
`ZUH_HDR`. -/
def zuhAlloc (n : Nat) (granted : Bool) : Bool := (Headers.sizeAdd n 16).isSome && granted

/-- `zuh_size_mul`. -/
def sizeMul (a b : Nat) : Option Nat := if a * b < 2 ^ 64 then some (a * b) else none

/-- `dup_n`. -/
def dupN (s : Bytes) (granted : Bool) : Option Bytes :=
  match Headers.sizeAdd s.length 1 with
  | none => none
  | some total => if zuhAlloc total granted then some s else none

/-- What a field takes on the wire: its name, `": "`, its value and CRLF. -/
def Header.size (f : Header) : Nat := f.name.length + f.value.length + 4

namespace HeaderList

def initLimited (maxCount maxName maxValue maxBytes : Nat) : HeaderList :=
  ⟨Headers.initLimited maxCount maxName maxValue maxBytes, 0⟩

/-- `sizeof *items`. -/
def itemSize : Nat := 32

/-- `reserve_one`. -/
def reserveOne (h : HeaderList) (granted : Bool) : Option HeaderList :=
  if h.items.length < h.cap then some h
  else
    let cap := if h.cap ≠ 0 then h.cap * 2 % 2 ^ 64 else 8
    match sizeMul cap itemSize with
    | none => none
    | some bytes => if zuhAlloc bytes granted then some { h with cap := cap } else none

/-- `zuh_headers_add`. -/
def add (h : HeaderList) (name value : Bytes) (g : Grants) : Code × HeaderList :=
  if hn : headerNameValid name = true then
    if hv : headerValueValid value = true then
      if h.maxCount ≠ 0 ∧ h.items.length ≥ h.maxCount then (.bodyLimit, h)
      else if h.maxName ≠ 0 ∧ name.length > h.maxName then (.bodyLimit, h)
      else if h.maxValue ≠ 0 ∧ value.length > h.maxValue then (.bodyLimit, h)
      else match h.newBytes name value with
        | none => (.overflow, h)
        | some newBytes =>
          if h.maxBytes ≠ 0 ∧ newBytes > h.maxBytes then (.bodyLimit, h)
          else match h.reserveOne g.items with
            | none => (.nomem, h)
            | some h' =>
              match dupN name g.name, dupN value g.value with
              | some _, some _ =>
                (.ok, { h' with items := h'.items ++ [⟨name, value, hn, hv⟩], bytes := newBytes })
              | _, _ => (.nomem, h')
    else (.parse, h)
  else (.parse, h)

/-- The byte total and the number of fields removed so far, when one more goes. -/
def forget (t : Nat × Nat) (f : Header) : Nat × Nat :=
  let sub := f.size % 2 ^ 64
  (if t.1 ≥ sub then t.1 - sub else 0, t.2 + 1)

/-- `zuh_headers_remove`. -/
def remove (h : HeaderList) (name : Bytes) : Nat × HeaderList :=
  let (items, bytes, removed) :=
    Sweep.loop (fun f : Header => asciiNcasecmp f.name name = 0) forget h.items 0 (h.bytes, 0)
  (removed, { h with items := items, bytes := bytes })

/-- `zuh_headers_set`. -/
def set (h : HeaderList) (name value : Bytes) (g : Grants) : Code × HeaderList :=
  if headerNameValid name then
    if headerValueValid value then (h.remove name).2.add name value g
    else (.parse, h)
  else (.parse, h)

end HeaderList

/-- A call on a header list, with what the allocator answers to it. -/
inductive HeaderOp
  | add (name value : Bytes) (g : Grants)
  | set (name value : Bytes) (g : Grants)
  | remove (name : Bytes)
  deriving DecidableEq

namespace HeaderOp

def call : HeaderOp → HeaderList → Code × HeaderList
  | add name value g, h => h.add name value g
  | set name value g, h => h.set name value g
  | remove name, h => (.ok, (h.remove name).2)

/-- The list after the calls. -/
def run (h : HeaderList) (ops : List HeaderOp) : HeaderList :=
  ops.foldl (fun h op => (op.call h).2) h

/-- Those of the calls that succeed, one after the other from this list on. -/
def succeeded (h : HeaderList) : List HeaderOp → List HeaderOp
  | [] => []
  | op :: ops =>
    let (code, h') := op.call h
    if code = .ok then op :: succeeded h' ops else succeeded h' ops

end HeaderOp

end Zuhttp
