import Zuhttp.Transport

/-!
# Writing all of a buffer

`zuh_stream_write` and `zuh_stream_write_all` of `zuh_stream.c`, against a stream and a clock
that answer as they like.
-/

namespace Zuhttp

/-- `ZUH_SSIZE_MAX`. -/
def ssizeMax : Nat := 2 ^ 63 - 1

/-- `zuh_deadline`; `none` is the infinite one. -/
abbrev Deadline := Option Int

/-- `zuh_deadline_expired`, where the clock reads `now`. -/
def Deadline.expired (d : Deadline) (now : Int) : Bool :=
  match d with
  | none => false
  | some due => due - now ≤ 0

/-- What one turn of the loop gets: a reading of the clock, and the answer of the stream. A
stream moves as many of the bytes it is offered as it likes, or returns -1, and may set the
error object in any case. -/
structure WriteTurn where
  now : Int
  moved : Option Nat
  err : Option Error

/-- What can be seen of a run: the readings of the clock, the bytes offered to the stream and how
many of them it took. -/
inductive WriteEvent
  | looked (now : Int)
  | offered (bytes : Bytes) (taken : Nat)
  deriving DecidableEq

/-- `zuh_stream_write`: its result, the error object after it and what was offered. -/
def streamWrite (writable : Bool) (t : WriteTurn) (buf : Bytes) (err : Option Error) :
    Option Nat × Option Error × List WriteEvent :=
  if writable then
    let offered := buf.take ssizeMax
    let moved := t.moved.map (fun n => min n offered.length)
    (moved, t.err <|> err, [.offered offered (moved.getD 0)])
  else (none, some ⟨.io, .write, "stream is not writable"⟩, [])

/-- The result of a run is `none` while it goes on. -/
structure WriteRun where
  result : Option Bool
  err : Option Error
  log : List WriteEvent

namespace WriteRun

def after (events : List WriteEvent) (run : WriteRun) : WriteRun :=
  { run with log := events ++ run.log }

/-- The bytes the stream took. -/
def accepted (run : WriteRun) : Bytes :=
  run.log.flatMap (fun e => match e with
    | .looked _ => []
    | .offered bytes taken => bytes.take taken)

end WriteRun

/-- The infinite deadline does not ask for the time. -/
def lookedAt (d : Deadline) (now : Int) : List WriteEvent :=
  if d.isSome then [.looked now] else []

/-- The loop of `zuh_stream_write_all` from the byte `off` on. -/
def writeAllFrom (d : Deadline) (writable : Bool) (buf : Bytes) :
    List WriteTurn → Nat → Option Error → WriteRun
  | [], off, err => if off < buf.length then ⟨none, err, []⟩ else ⟨some true, err, []⟩
  | t :: turns, off, err =>
    if off < buf.length then
      if d.expired t.now then
        ⟨some false, some ⟨.timeout, .write, "write deadline exceeded"⟩, lookedAt d t.now⟩
      else
        match streamWrite writable t (buf.drop off) err with
        | (some (w + 1), err, offers) =>
          (writeAllFrom d writable buf turns (off + (w + 1)) err).after (lookedAt d t.now ++ offers)
        | (some 0, _, offers) =>
          ⟨some false, some ⟨.closed, .write, "connection closed while writing"⟩,
            lookedAt d t.now ++ offers⟩
        | (none, err, offers) =>
          if err.map Error.code = some .wouldblock then
            (writeAllFrom d writable buf turns off none).after (lookedAt d t.now ++ offers)
          else ⟨some false, err, lookedAt d t.now ++ offers⟩
    else ⟨some true, err, []⟩

/-- `zuh_stream_write_all`. -/
def streamWriteAll (d : Deadline) (writable : Bool) (buf : Bytes) (turns : List WriteTurn)
    (err : Option Error) : WriteRun :=
  writeAllFrom d writable buf turns 0 err

end Zuhttp
