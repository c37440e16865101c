import Zuhttp.Chunked
import Zuhttp.Inflate
import Zuhttp.Transport
import Zuhttp.Library.Loop

/-!
# The response body path

`zuh_body.c`: the pipe from wire bytes to the sink and the reader that cuts the body out of
the stream, one read at a time. The byte counters are unbounded here: they count bytes that
have arrived.
-/

namespace Zuhttp

variable {Z : Zlib}

/-- `zuh_body_pipe`. -/
structure BodyPipe (Z : Zlib) where
  sink : Sink
  inflate : Option (Inflate Z)
  rawSeen : Nat
  surplus : Nat
  maxBody : Nat
  trailers : Headers

namespace BodyPipe

/-- `ZUH_MAX_DECOMPRESSION_RATIO`. -/
def maxDecompressionRatio : Nat := 1000

/-- A pipe that has seen nothing and decodes nothing. -/
def fresh (sink : Sink) (maxBody : Nat) : BodyPipe Z :=
  { sink := sink, inflate := none, rawSeen := 0, surplus := 0, maxBody := maxBody,
    trailers := Headers.init }

/-- The pipe, and the headers without those that no longer describe a decoded body. -/
def init (sink : Sink) (h : Headers) (noDecode : Bool) (maxBody : Nat) :
    Except Fail (BodyPipe Z × Headers) :=
  let p : BodyPipe Z := fresh sink maxBody
  let coding := h.get (ascii "Content-Encoding")
  let kind := if noDecode then .identity else encodingParse coding
  match kind with
  | .identity => .ok (p, h)
  | .unsupported =>
    .error (Fail.set .bodyDecode .decode ("unsupported Content-Encoding: " ++
      String.ofList ((coding.getD []).map (fun c => Char.ofNat c.toNat))))
  | kind =>
    match Inflate.init kind maxBody maxDecompressionRatio with
    | none => .error (Fail.bare .nomem)
    | some z =>
      .ok ({ p with inflate := some z },
        (h.remove (ascii "Content-Encoding")).remove (ascii "Content-Length"))

def capExceeded : Fail :=
  Fail.set .bodyLimit .read "response body exceeds the configured limit"

/-- `cap_check`: the limit holds before the sink sees a byte. -/
def capCheck (p : BodyPipe Z) (n : Nat) : Option Fail :=
  if p.maxBody = 0 then none
  else if p.sink.written + n ≤ p.maxBody then none
  else some capExceeded

def deliver (p : BodyPipe Z) (data : Bytes) : BodyPipe Z × Option Fail :=
  let (sink, f) := p.sink.write data
  ({ p with sink := sink }, f)

/-- `zuh_body_pipe_feed`. -/
def feed (p : BodyPipe Z) (data : Bytes) : BodyPipe Z × Option Fail :=
  if data = [] then (p, none)
  else
    match p.inflate with
    | none =>
      match p.capCheck data.length with
      | some f => (p, some f)
      | none => p.deliver data
    | some z =>
      match z.run (some data) with
      | (z, _, .fail f) => ({ p with inflate := some z }, some f)
      | (z, out, _) => { p with inflate := some z }.deliver out

/-- `zuh_body_pipe_finish`. A decoder that still waits fails with a bare code. -/
def finish (p : BodyPipe Z) : BodyPipe Z × Option Fail :=
  match p.inflate with
  | none => (p, none)
  | some z =>
    match z.run none with
    | (z, _, .fail f) => ({ p with inflate := some z }, some f)
    | (z, _, .wouldblock) => ({ p with inflate := some z }, some (Fail.bare .wouldblock))
    | (z, out, .ok) => { p with inflate := some z }.deliver out

end BodyPipe

/-- `zuh_body_reader`. -/
structure BodyReader where
  fr : Framing
  dec : Chunked
  seed : Bytes
  done : Bool

namespace BodyReader

def init (fr : Framing) (seed : Bytes) (maxBody : Nat) : BodyReader :=
  { fr := fr, dec := Chunked.init 0 maxBody, seed := seed, done := false }

/-- What arrived with the headers first, then the stream. -/
def nextBytes (r : BodyReader) (t : Transport) : Except Fail Bytes × BodyReader × Transport :=
  if r.seed ≠ [] then
    (.ok (r.seed.take readChunk), { r with seed := r.seed.drop readChunk }, t)
  else
    let (res, t) := t.read
    (res, r, t)

/-- A reader, its stream and its pipe between two steps. -/
structure State (Z : Zlib) where
  reader : BodyReader
  stream : Transport
  pipe : BodyPipe Z

/-- What the peer sends that no step has taken. -/
def State.unread (st : State Z) : Bytes := st.reader.seed ++ st.stream.unread

/-- The message ends: what the reader still holds belongs to no response. -/
def State.finishFrame (st : State Z) (surplus : Nat) : State Z :=
  { st with
    reader := { st.reader with seed := [], done := true }
    pipe := { st.pipe with surplus := st.pipe.surplus + surplus + st.reader.seed.length } }

/-- The `ZUH_FRAME_CHUNKED` branch of `step_framed`. -/
def stepChunked (st : State Z) (bytes : Bytes) : State Z × Option Fail :=
  let st := { st with pipe.rawSeen := st.pipe.rawSeen + bytes.length }
  let (dec, out, rc) := st.reader.dec.decode bytes
  let st := { st with reader.dec := dec }
  let (pipe, f) := st.pipe.feed out
  let st := { st with pipe := pipe }
  match f with
  | some f => (st, some f)
  | none =>
    match rc with
    | .wouldblock => (st, none)
    | .fail f => (st, some f)
    | .ok => ({ st with pipe.trailers := dec.trailers }.finishFrame dec.surplus, none)

/-- The `ZUH_FRAME_LENGTH` and `ZUH_FRAME_UNTIL_CLOSE` branch of `step_framed`. -/
def stepPlain (st : State Z) (bytes : Bytes) : State Z × Option Fail :=
  let fr := st.reader.fr
  let take :=
    if fr.kind = .length ∧ st.pipe.rawSeen + bytes.length > fr.length then
      fr.length - st.pipe.rawSeen
    else bytes.length
  let st := { st with pipe.surplus := st.pipe.surplus + (bytes.length - take) }
  let (pipe, f) := st.pipe.feed (bytes.take take)
  let st := { st with pipe := pipe }
  match f with
  | some f => (st, some f)
  | none =>
    let st := { st with pipe.rawSeen := st.pipe.rawSeen + take }
    if fr.kind = .length ∧ st.pipe.rawSeen ≥ fr.length then (st.finishFrame 0, none)
    else (st, none)

def closedEarly (fr : Framing) (rawSeen : Nat) : Fail :=
  Fail.set .parse .read (if fr.kind = .chunked then "connection closed inside a chunked body"
    else "connection closed with " ++ toString rawSeen ++ " of " ++ toString fr.length ++
      " body bytes read")

def stepFramed (st : State Z) : State Z × Option Fail :=
  let fr := st.reader.fr
  if fr.kind = .none then (st.finishFrame 0, none)
  else if fr.kind = .length ∧ st.pipe.rawSeen ≥ fr.length then (st.finishFrame 0, none)
  else
    match st.reader.nextBytes st.stream with
    | (.error f, reader, stream) => ({ st with reader := reader, stream := stream }, some f)
    | (.ok bytes, reader, stream) =>
      let st := { st with reader := reader, stream := stream }
      if bytes = [] then
        if fr.kind = .untilClose then ({ st with reader.done := true }, none)
        else (st, some (closedEarly fr st.pipe.rawSeen))
      else if fr.kind = .chunked then stepChunked st bytes
      else stepPlain st bytes

/-- `zuh_body_reader_step`. -/
def step (st : State Z) : State Z × Option Fail :=
  if st.reader.done then (st, none)
  else
    match stepFramed st with
    | (st, some f) => (st, some f)
    | (st, none) =>
      if st.reader.done then
        let (pipe, f) := st.pipe.finish
        ({ st with pipe := pipe }, f)
      else (st, none)

/-- The reads a reader can still make, counted by what it has to read. -/
def State.left (st : State Z) : Nat := st.reader.seed.length + st.stream.reads.length

/-- The loop of `zuh_body_read`, cut off after `n` steps. -/
def loop : Nat → State Z → State Z × Option Fail := Loop.iterate step (fun st => st.reader.done)

end BodyReader

open BodyReader in
/-- `zuh_body_read`. -/
def bodyRead (t : Transport) (fr : Framing) (p : BodyPipe Z) (seed : Bytes) (maxBody : Nat) :
    BodyReader.State Z × Option Fail :=
  let st : BodyReader.State Z := ⟨BodyReader.init fr seed maxBody, t, p⟩
  loop (st.left + 1) st

end Zuhttp
