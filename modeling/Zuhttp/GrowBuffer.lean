import Zuhttp.Buffer
import Zuhttp.Library.Memory

/-!
# The memory of a buffer

`zuh_buffer.c` with the block of memory that holds the bytes: how it grows, and what each
operation does to it.
-/

namespace Zuhttp

/-- `zuh_buffer`. The block `data` has `cap` bytes, of which `len` are in use. -/
structure GrowBuffer where
  data : Bytes
  len : Nat
  cap : Nat
  max : Nat
  hitLimit : Bool

/-- What the allocator answers to a request: nothing, or a block with these bytes where nothing
was copied. -/
abbrev Alloc := Option (Nat → UInt8)

/-- `ZUH_HDR`. -/
def allocHeader : Nat := 16

/-- `zuh_realloc`. -/
def realloc (block : Bytes) (n : Nat) (answer : Alloc) : Option Bytes :=
  match Headers.sizeAdd n allocHeader, answer with
  | some _, some fill =>
    some (block.take n ++ (List.range (n - block.length)).map (fun i => fill (block.length + i)))
  | _, _ => none

namespace GrowBuffer

/-- The loop of `grow_to` from the capacity `cap` on; `none` where it goes on after so many
turns. -/
def growLoop (need max : Nat) : Nat → Nat → Option Nat
  | 0, _ => none
  | turns + 1, cap =>
    if cap < need then
      match Headers.sizeAdd cap (cap / 2) with
      | none => some need
      | some total => if max ≠ 0 ∧ total > max then some max else growLoop need max turns total
    else some cap

/-- Two turns double a capacity of 64 or more, and it is below `2 ^ 64`. -/
def growTurns : Nat := 2 * 58 + 1

/-- `grow_to`; it would not return where its loop does not end. -/
def growTo (b : GrowBuffer) (need : Nat) (answer : Alloc) : Option (GrowBuffer × Bool) :=
  if need ≤ b.cap then some (b, true)
  else if b.max ≠ 0 ∧ need > b.max then some ({ b with hitLimit := true }, false)
  else
    match growLoop need b.max growTurns (if b.cap = 0 then 64 else b.cap) with
    | none => none
    | some cap =>
      let cap := if cap < need then need else cap
      let cap := if b.max ≠ 0 ∧ cap > b.max then b.max else cap
      match realloc b.data cap answer with
      | none => some (b, false)
      | some data => some ({ b with data := data, cap := cap }, true)

/-- `zuh_buf_init`. -/
def init (initialCap max : Nat) (answer : Alloc) : Option (GrowBuffer × Bool) :=
  let b : GrowBuffer := ⟨[], 0, 0, max, false⟩
  let initialCap := if max ≠ 0 ∧ initialCap > max then max else initialCap
  if initialCap = 0 then some (b, true) else b.growTo initialCap answer

/-- Room for `extra` more bytes, and what is then done to the buffer. -/
def withRoom (b : GrowBuffer) (extra : Nat) (answer : Alloc) (f : Nat → GrowBuffer → GrowBuffer) :
    Option (GrowBuffer × Bool) :=
  match Headers.sizeAdd b.len extra with
  | none => some (b, false)
  | some need =>
    (b.growTo need answer).map (fun r => if r.2 then (f need r.1, true) else (r.1, false))

/-- `zuh_buf_reserve`. -/
def reserve (b : GrowBuffer) (extra : Nat) (answer : Alloc) : Option (GrowBuffer × Bool) :=
  b.withRoom extra answer (fun _ b => b)

/-- `zuh_buf_append`. -/
def append (b : GrowBuffer) (src : Bytes) (answer : Alloc) : Option (GrowBuffer × Bool) :=
  if src = [] then some (b, true)
  else b.withRoom src.length answer (fun need b =>
    { b with data := Memory.store b.data b.len src, len := need })

/-- `zuh_buf_append_byte`. -/
def appendByte (b : GrowBuffer) (c : UInt8) (answer : Alloc) : Option (GrowBuffer × Bool) :=
  b.append [c] answer

/-- `zuh_buf_append_u64`; the digits are written backward into 20 bytes. -/
def appendU64 (b : GrowBuffer) (v : UInt64) (answer : Alloc) : Option (GrowBuffer × Bool) :=
  if v = 0 then b.appendByte 48 answer else b.append (Decimal.digitsOnto 20 v.toNat []) answer

/-- `zuh_buf_consume`. -/
def consume (b : GrowBuffer) (n : Nat) : GrowBuffer :=
  if n ≥ b.len then { b with len := 0 }
  else { b with data := Memory.store b.data 0 ((b.data.drop n).take (b.len - n)), len := b.len - n }

/-- `zuh_buf_reset`. -/
def reset (b : GrowBuffer) : GrowBuffer := { b with len := 0 }

/-- `zuh_buf_cstr`. -/
def cstr (b : GrowBuffer) (answer : Alloc) : Option (GrowBuffer × Bool) :=
  b.withRoom 1 answer (fun _ b => { b with data := Memory.store b.data b.len [0] })

/-- The bytes of a buffer. -/
def content (b : GrowBuffer) : Bytes := b.data.take b.len

end GrowBuffer

/-! ### Calls -/

/-- The operations on a buffer; a string is given without its NUL. -/
inductive BufferOp
  | append (src : Bytes)
  | appendStr (s : Bytes)
  | appendByte (c : UInt8)
  | appendU64 (v : UInt64)
  | reserve (extra : Nat)
  | consume (n : Nat)
  | reset
  | cstr

namespace BufferOp

def run (b : GrowBuffer) (answer : Alloc) : BufferOp → Option (GrowBuffer × Bool)
  | append src => b.append src answer
  | appendStr s => b.append s answer
  | appendByte c => b.appendByte c answer
  | appendU64 v => b.appendU64 v answer
  | reserve extra => b.reserve extra answer
  | consume n => some (b.consume n, true)
  | reset => some (b.reset, true)
  | cstr => b.cstr answer

/-- One call after the other, each with the allocator's answer; whether each succeeded. -/
def runAll : List (BufferOp × Alloc) → GrowBuffer → Option (GrowBuffer × List Bool)
  | [], b => some (b, [])
  | (op, answer) :: calls, b => do
    let (b, ok) ← op.run b answer
    let (b, oks) ← runAll calls b
    some (b, ok :: oks)

end BufferOp

end Zuhttp
