import Zuhttp.H2
import Zuhttp.Library.Prog

/-!
# The name/value vector of an HTTP/2 request

`zuh_h2_begin` up to the submission, with the memory it uses: two arrays that are filled by
indices of their own, and the copies of the names. Memory that is not there is not used: a
write past an array and a read of a copy that was freed end the run.
-/

namespace Zuhttp

namespace H2

/-- What a name points to: a string of the program, or a copy the call allocated. -/
inductive NvName
  | fixed (s : Bytes)
  | copy (id : Nat)

/-- What a value points to: the caller's request, or the path in place of an empty one. -/
inductive NvValue
  | method | scheme | authority | path | slash
  | field (i : Nat)

/-- `nghttp2_nv`. -/
structure Nv where
  name : NvName
  value : NvValue

/-- The answers of the allocator, the copies (`none` once freed), the arrays and what nghttp2
was given. -/
structure NvMemory where
  allocs : List Bool := []
  copies : List (Option Bytes) := []
  nv : Option (List (Option Nv)) := none
  nvN : Nat := 0
  names : Option (List (Option Nat)) := none
  submitted : List (List (Bytes × Bytes)) := []

/-- How the call ends early. -/
inductive NvEnd
  | refused | nomem | invalid
  deriving DecidableEq

abbrev NvProg := Prog NvMemory NvEnd

/-- `zuh_alloc`; answers that are used up are successes. -/
def nvAlloc : NvProg Bool := do
  let m ← get
  match m.allocs with
  | [] => pure true
  | ok :: allocs => do
    set { m with allocs := allocs }
    pure ok

/-- A store into an array that is allocated. -/
def storeAt {α : Type} (cells : Option (List (Option α))) (i : Nat) (a : α) :
    NvProg (Option (List (Option α))) :=
  match cells with
  | none => throw .invalid
  | some cells => if i < cells.length then pure (some (cells.set i (some a))) else throw .invalid

/-- `nv_set(&nv[nv_n++], ..)`. -/
def nvPush (name : NvName) (value : NvValue) : NvProg Unit := do
  let m ← get
  let nv ← storeAt m.nv m.nvN ⟨name, value⟩
  set { m with nv := nv, nvN := m.nvN + 1 }

/-- `nv` and `names` for so many fields. -/
def nvArrays (n : Nat) : NvProg Unit := do
  let nv ← nvAlloc
  let names ← nvAlloc
  modify (fun m => { m with
    nv := if nv then some (List.replicate (n + 4) none) else none
    names := if names then some (List.replicate (n + 1) none) else none })
  if nv && names then pure () else throw .nomem

def nvPseudo (rq : H2Request) : NvProg Unit := do
  nvPush (.fixed (ascii ":method")) .method
  nvPush (.fixed (ascii ":scheme")) .scheme
  nvPush (.fixed (ascii ":authority")) .authority
  nvPush (.fixed (ascii ":path")) (if rq.path ≠ [] then .path else .slash)

/-- The copy of a name in lower case, with its NUL, kept at the field's index. -/
def nvName (i : Nat) (name : Bytes) : NvProg Nat := do
  if ← nvAlloc then do
    let m ← get
    let names ← storeAt m.names i m.copies.length
    set { m with names := names, copies := m.copies ++ [some ((name ++ [0]).map lower)] }
    pure m.copies.length
  else throw .nomem

/-- The loop over the fields, from the index `i` on. -/
def nvFields : Nat → List Header → NvProg Unit
  | _, [] => pure ()
  | i, f :: fs =>
    if isConnSpecific f.name then nvFields (i + 1) fs
    else do
      let id ← nvName i f.name
      nvPush (.copy id) (.field i)
      nvFields (i + 1) fs

/-- The bytes of a C string in memory. -/
def nvText (copies : List (Option Bytes)) : NvName → Option Bytes
  | .fixed s => some s
  | .copy id =>
    match copies[id]? with
    | some (some s) => some (s.takeWhile (· ≠ 0))
    | _ => none

def nvBytes (rq : H2Request) : NvValue → Option Bytes
  | .method => some rq.method
  | .scheme => some rq.scheme
  | .authority => some rq.authority
  | .path => some rq.path
  | .slash => some (ascii "/")
  | .field i => (rq.headers.items[i]?).map Header.value

/-- What nghttp2 reads of an entry. -/
def nvRead (rq : H2Request) (copies : List (Option Bytes)) (cell : Option Nv) :
    Option (Bytes × Bytes) := do
  let nv ← cell
  let name ← nvText copies nv.name
  let value ← nvBytes rq nv.value
  pure (name, value)

/-- `nghttp2_submit_request2`, which copies the first `nv_n` entries. -/
def nvSubmit (rq : H2Request) : NvProg Unit := do
  let m ← get
  match m.nv with
  | none => throw .invalid
  | some cells =>
    if m.nvN ≤ cells.length then
      match (cells.take m.nvN).mapM (nvRead rq m.copies) with
      | none => throw .invalid
      | some vector => set { m with submitted := m.submitted ++ [vector] }
    else throw .invalid

/-- `zuh_free` of every name; an entry that was not set is NULL. -/
def nvFreeNames : List (Option Nat) → NvProg Unit
  | [] => pure ()
  | none :: names => nvFreeNames names
  | some id :: names => do
    let m ← get
    match m.copies[id]? with
    | some (some _) => do
      set { m with copies := m.copies.set id none }
      nvFreeNames names
    | _ => throw .invalid

/-- The clean-up behind `out:`. -/
def nvFree (n : Nat) : NvProg Unit := do
  let m ← get
  match m.names with
  | none => pure ()
  | some names => if n ≤ names.length then nvFreeNames (names.take n) else throw .invalid
  modify (fun m => { m with nv := none, names := none })

/-- `zuh_h2_begin` up to the submission, and its clean-up. -/
def submitVector (rq : H2Request) : NvProg Unit :=
  if badTe rq then throw .refused
  else do
    let res ← Prog.attempt (do
      nvArrays rq.headers.items.length
      nvPseudo rq
      nvFields 0 rq.headers.items
      nvSubmit rq)
    nvFree rq.headers.items.length
    match res with
    | .ok _ => pure ()
    | .error (e : NvEnd) => throw e

end H2

end Zuhttp
