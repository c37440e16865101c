import Zuhttp.Receive

/-!
# A body the caller pulls

`zuh_open_body` of `zuh_engine.c`: the steps of the reader or of the HTTP/2 driver, made
when the caller asks for bytes. The pipe's sink is a memory sink, and the bytes staged for
the caller are what it was handed since it was last emptied.
-/

namespace Zuhttp

variable {Z : Zlib}

namespace BodySource

/-- The bytes in the memory sink's buffer. -/
def staged (src : BodySource Z) : Bytes := src.pipe.sink.bytes

/-- `staged.len = 0`. -/
def clear (src : BodySource Z) : BodySource Z :=
  src.withPipe { src.pipe with sink := { src.pipe.sink with handed := [] } }

/-- A bound on the steps that are left. -/
def fuel : BodySource Z → Nat
  | .h1 st => st.left + 1
  | .h2 st => st.conn.env.reads.length + 2

end BodySource

/-- `zuh_open_body`. `stream` is whether the connection is still held, `released` the
verdicts it was given back with. -/
structure OpenBody (Z : Zlib) where
  src : BodySource Z
  reuseIfEnded : Reuse
  stagedOff : Nat := 0
  ended : Bool := false
  aborted : Bool := false
  failed : Bool := false
  stream : Bool := true
  released : List Reuse := []

/-- The verdict on a body that ends, as far as it is known when the body is opened. -/
def BodyInput.reuseIfEnded (h : Headers) (minor : Int) : BodyInput → Reuse
  | .h1 fr _ _ => reuseDecide .ok fr h minor
  | .h2 _ => .ok

/-- The verdict on a body that has ended, before the surplus is looked at. -/
def BodySource.endedReuse (reuseIfEnded : Reuse) : BodySource Z → Reuse
  | .h1 _ => reuseIfEnded
  | .h2 st => if st.conn.reusable then .ok else .bodyIncomplete

namespace OpenBody

/-- `open_body_new`, when no allocation fails. -/
def new (input : BodyInput) (h : Headers) (minor : Int) (cap : Nat) (noDecode : Bool) :
    Except Fail (OpenBody Z × Headers) :=
  match BodyPipe.init Sink.memory h noDecode cap with
  | .error f => .error f
  | .ok (p, h) =>
    .ok ({ src := input.source p cap, reuseIfEnded := input.reuseIfEnded h minor }, h)

/-- `open_body_release`: the connection is given back, or closed, once. -/
def release (b : OpenBody Z) (r : Reuse) : OpenBody Z :=
  if b.stream then { b with stream := false, released := b.released ++ [r] } else b

/-- The verdict on a body read to its end. -/
def reuse (b : OpenBody Z) : Reuse :=
  let r := b.src.endedReuse b.reuseIfEnded
  if r = .ok ∧ b.src.pipe.surplus > 0 then .framing else r

/-- One pass of the loop of `zuh_open_body_read_within`. -/
def pullStep (b : OpenBody Z) : OpenBody Z × Option Fail :=
  let b := { b with src := b.src.clear, stagedOff := 0 }
  match b.src.step with
  | (src, some f) =>
    (({ b with src := src, failed := true }).release
      (if f.rc = Code.cancelled ∨ f.rc = Code.timeout then .cancelled else .bodyIncomplete), some f)
  | (src, none) =>
    let b := { b with src := src, ended := src.done }
    if b.ended then (b.release b.reuse, none) else (b, none)

/-- Whether the loop has something to hand out, or nothing more to read. -/
def ready (b : OpenBody Z) : Bool := b.src.staged.length ≠ b.stagedOff || b.ended

/-- `zuh_open_body_read`. -/
def read (b : OpenBody Z) (n : Nat) : OpenBody Z × Except Fail Bytes :=
  if b.failed then
    (b, .error (Fail.set .io .read "the response body failed earlier"))
  else if b.aborted then
    (b, .error (Fail.set .cancelled .read "the response body was aborted"))
  else
    match Loop.iterate pullStep ready b.src.fuel b with
    | (b, some f) => (b, .error f)
    | (b, none) =>
      let avail := b.src.staged.length - b.stagedOff
      let n := if n > avail then avail else n
      ({ b with stagedOff := b.stagedOff + n },
        .ok ((b.src.staged.drop b.stagedOff).take n))

/-- `zuh_open_body_abort`. -/
def abort (b : OpenBody Z) : OpenBody Z :=
  if b.ended ∨ b.aborted ∨ b.failed then b
  else
    let b := { b with aborted := true }
    match b.src with
    | .h1 _ => b.release .cancelled
    | .h2 st =>
      if b.stream then
        let conn := st.conn.cancel
        ({ b with src := .h2 { st with conn := conn } }).release
          (if conn.reusable then .ok else .cancelled)
      else b.release .cancelled

/-- `zuh_open_body_done`. -/
def done (b : OpenBody Z) : Bool :=
  b.aborted || b.failed || (b.ended && b.stagedOff = b.src.staged.length)

/-- `zuh_open_body_ended_clean`. -/
def endedClean (b : OpenBody Z) : Bool :=
  !b.aborted && !b.failed && b.ended && b.stagedOff = b.src.staged.length

/-- `zuh_open_body_trailers`. -/
def trailers (b : OpenBody Z) : Headers := b.src.pipe.trailers

/-- `zuh_open_body_free`, as far as the connection goes. -/
def free (b : OpenBody Z) : OpenBody Z := b.abort.release .cancelled

/-- Reads of the given sizes, until the body is done or a read fails. -/
def pull : OpenBody Z → List Nat → OpenBody Z × Bytes × Option Fail
  | b, [] => (b, [], none)
  | b, n :: ns =>
    if b.done then (b, [], none)
    else
      match b.read n with
      | (b, .error f) => (b, [], some f)
      | (b, .ok out) =>
        let (b, more, f) := pull b ns
        (b, out ++ more, f)

/-- What a caller does with a body. -/
inductive Call
  | read (n : Nat)
  | abort

def call (b : OpenBody Z) : Call → OpenBody Z
  | .read n => (b.read n).1
  | .abort => b.abort

def calls (b : OpenBody Z) (cs : List Call) : OpenBody Z := cs.foldl call b

end OpenBody

end Zuhttp
