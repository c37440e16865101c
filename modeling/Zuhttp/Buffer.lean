import Zuhttp.Headers
import Zuhttp.Library.Decimal
import Zuhttp.Library.Prog

/-!
# Byte buffers

`zuh_buffer` of `zuh_buffer.c`, without its capacity: the capacity never exceeds a `max` that
is not 0, so an append is refused exactly where the length would. A refused append leaves the
bytes and notes `hitLimit`.
-/

namespace Zuhttp

structure Buffer where
  data : Bytes
  max : Nat
  hitLimit : Bool
  deriving DecidableEq

/-- A writer appends to a buffer or fails with a bare code. -/
abbrev Writer := Prog Buffer Code

namespace Buffer

/-- `zuh_buf_init` with an initial capacity of 0. -/
def init (max : Nat) : Buffer := ⟨[], max, false⟩

def reset (b : Buffer) : Buffer := { b with data := [] }

def consume (b : Buffer) (n : Nat) : Buffer := { b with data := b.data.drop n }

/-- `zuh_buf_append`, when no allocation fails. -/
def tryAppend (b : Buffer) (src : Bytes) : Buffer × Bool :=
  if src = [] then (b, true)
  else
    match Headers.sizeAdd b.data.length src.length with
    | none => (b, false)
    | some need =>
      if b.max ≠ 0 ∧ need > b.max then ({ b with hitLimit := true }, false)
      else ({ b with data := b.data ++ src }, true)

/-- `if (!zuh_buf_append(..)) return ZUH_ERR_NOMEM`. -/
def append (src : Bytes) : Writer Unit := do
  let b ← get
  let (b, fits) := b.tryAppend src
  set b
  if fits then pure () else throw .nomem

/-- `zuh_buf_cstr`: the terminating NUL needs room too. -/
def cstr : Writer Bytes := do
  let b ← get
  match Headers.sizeAdd b.data.length 1 with
  | none => throw .nomem
  | some need =>
    if b.max ≠ 0 ∧ need > b.max then do
      set { b with hitLimit := true }
      throw .nomem
    else pure b.data

def appendByte (c : UInt8) : Writer Unit := append [c]

def appendU64 (v : UInt64) : Writer Unit := append (Decimal.decimalText v.toNat)

end Buffer

/-- `zuh_headers_write`. -/
def Headers.writeItems : List Header → Writer Unit
  | [] => pure ()
  | f :: items => do
    Buffer.append f.name
    Buffer.append (ascii ": ")
    Buffer.append f.value
    Buffer.append (ascii "\r\n")
    writeItems items

def Headers.write (h : Headers) : Writer Unit := writeItems h.items

end Zuhttp
