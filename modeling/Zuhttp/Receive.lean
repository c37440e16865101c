import Zuhttp.H2
import Zuhttp.Reuse

/-!
# The body of a response

The part of `perform_hops` that reads a body into a sink and decides what becomes of its
connection.
-/

namespace Zuhttp

variable {Z : Zlib}

/-- What a body is read from, with the pipe it goes through. -/
inductive BodySource (Z : Zlib)
  | h1 (st : BodyReader.State Z)
  | h2 (st : H2.BodyState Z)

namespace BodySource

def pipe : BodySource Z → BodyPipe Z
  | .h1 st => st.pipe
  | .h2 st => st.pipe

def withPipe (p : BodyPipe Z) : BodySource Z → BodySource Z
  | .h1 st => .h1 { st with pipe := p }
  | .h2 st => .h2 { st with pipe := p }

/-- `zuh_body_reader_step` or `zuh_h2_body_step`. -/
def step : BodySource Z → BodySource Z × Option Fail
  | .h1 st => let (st, f) := BodyReader.step st; (.h1 st, f)
  | .h2 st => let (st, f) := H2.bodyStep st; (.h2 st, f)

def done : BodySource Z → Bool
  | .h1 st => st.reader.done
  | .h2 st => st.done

/-- `zuh_body_read` or `zuh_h2_body`. -/
def readAll : BodySource Z → BodySource Z × Option Fail
  | .h1 st => let (st, f) := BodyReader.loop (st.left + 1) st; (.h1 st, f)
  | .h2 st => let (st, f) := H2.body st.conn st.pipe; (.h2 st, f)

end BodySource

/-- Where the body of a response comes from: the stream and what was read of it past the
head, or the HTTP/2 driver. -/
inductive BodyInput
  | h1 (fr : Framing) (t : Transport) (seed : Bytes)
  | h2 (conn : H2)

def BodyInput.source (p : BodyPipe Z) (cap : Nat) : BodyInput → BodySource Z
  | .h1 fr t seed => .h1 ⟨BodyReader.init fr seed cap, t, p⟩
  | .h2 conn => .h2 ⟨conn, p, false⟩

def resultCode : Option Fail → Code
  | none => .ok
  | some f => f.rc

/-- `h2_reuse`. -/
def h2Reuse (rc : Code) (h : H2) : Reuse :=
  if rc = .timeout ∨ rc = .cancelled ∨ rc = .interrupted then .cancelled
  else if rc ≠ .ok ∨ ¬h.reusable then .bodyIncomplete
  else .ok

/-- What became of a body: its source, the headers as the pipe left them, the result the
caller gets and the verdict on the connection. -/
structure Received (Z : Zlib) where
  src : BodySource Z
  headers : Headers
  res : Option Fail
  reuse : Reuse

/-- The verdict before the sink and the surplus are looked at. -/
def BodySource.reuse (h : Headers) (minor : Int) (rc : Code) : BodySource Z → Reuse
  | .h1 st => reuseDecide rc st.reader.fr h minor
  | .h2 st => h2Reuse rc st.conn

/-- What `perform_hops` makes of a body that was read. -/
def settle (mayFollow : Bool) (h : Headers) (minor : Int) (src : BodySource Z)
    (res : Option Fail) : Received Z :=
  let surplus := src.pipe.surplus
  let reuse := src.reuse h minor (resultCode res)
  -- a redirect's body that cannot be drained costs the connection only
  let res :=
    if mayFollow ∧ (resultCode res = .bodyLimit ∨ resultCode res = .parse) then none else res
  let (src, res, reuse) : BodySource Z × Option Fail × Reuse :=
    if resultCode res = .cancelled ∧ src.pipe.sink.stopped then
      match src with
      | .h1 st => (.h1 st, none, .cancelled)
      | .h2 st => (.h2 { st with conn := st.conn.cancel }, none, h2Reuse .ok st.conn.cancel)
    else (src, res, reuse)
  ⟨src, h, res, if res = none ∧ surplus > 0 ∧ reuse = .ok then .framing else reuse⟩

/-- The body read into the sink, and what becomes of the connection. -/
def receiveBody (mayFollow : Bool) (input : BodyInput) (sink : Sink) (h : Headers) (minor : Int)
    (cap : Nat) (noDecode : Bool) : Received Z :=
  match BodyPipe.init sink h noDecode cap with
  | .error f =>
    settle mayFollow h minor (input.source (BodyPipe.fresh sink cap) cap) (some f)
  | .ok (p, h) =>
    let (src, res) := (input.source p cap).readAll
    settle mayFollow h minor src res

end Zuhttp
