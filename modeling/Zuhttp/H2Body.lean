import Zuhttp.H2
import Zuhttp.Library.Loop

/-!
# The body of an HTTP/2 request

`body_source`, `zuh_h2_own_body` and the loop of `flush`, which asks for the body as it sends.
nghttp2 is a script of the buffers it offers; as it documents, it offers none once the body
has ended, a call has failed or the stream is closed.
-/

namespace Zuhttp

/-- `zuh_body_source`: what each call of `next` answers. The empty piece is the end. -/
abbrev PieceSource := Nat → Except Fail Bytes

/-- The body of `zuh_h2_request`. -/
structure GivenBody where
  body : Option Bytes
  source : Option PieceSource

/-- What a call of `body_source` returned, and how often `next` had been called by then. -/
structure BodyAnswer where
  bytes : Bytes
  eof : Bool
  drawn : Nat

/-- The body's part of `h2_impl`. The last three fields are not in the source: whether the
request was submitted with a body, the calls of `next` and the answers to nghttp2 so far. -/
structure H2Body where
  body : Bytes
  bodyOff : Nat := 0
  bodyOwned : Bool := false
  bodySent : Nat := 0
  src : Option PieceSource
  srcData : Bytes := []
  srcOff : Nat := 0
  srcEnd : Bool := false
  srcFailed : Bool := false
  srcErr : Option Error := none
  provided : Bool
  drawn : Nat := 0
  answers : List BodyAnswer := []

namespace H2Body

/-- The body's part of `zuh_h2_begin`. -/
def start (g : GivenBody) : H2Body :=
  { body := g.body.getD [], src := g.source
    provided := g.body.getD [] ≠ [] || g.source.isSome }

/-! ### Handing the body out -/

def drawDone (b : H2Body) : Bool := b.srcOff ≠ b.srcData.length || b.srcEnd

/-- One pass of the loop that calls `next`. -/
def drawStep (next : PieceSource) (b : H2Body) : H2Body × Option Unit :=
  let d := { b with drawn := b.drawn + 1 }
  match next b.drawn with
  | .error f => ({ d with srcFailed := true, srcErr := f.err }, some ())
  | .ok piece =>
    if piece.length = 0 then ({ d with srcEnd := true }, none)
    else ({ d with srcData := piece, srcOff := 0 }, none)

/-- What is left of the piece, as far as it fits the buffer. -/
def handPiece (b : H2Body) (n : Nat) : H2Body × (Bytes × Bool) :=
  let left := b.srcData.length - b.srcOff
  let n := if n > left then left else n
  let bytes := (b.srcData.drop b.srcOff).take n
  let b := { b with srcOff := b.srcOff + n, bodySent := b.bodySent + n }
  (b, bytes, b.srcEnd && b.srcOff = b.srcData.length)

/-- `body_source` with a source: the loop makes one pass at most. -/
def fromSource (b : H2Body) (next : PieceSource) (n : Nat) : H2Body × Option (Bytes × Bool) :=
  match Loop.iterate (drawStep next) drawDone 1 b with
  | (b, some ()) => (b, none)
  | (b, none) =>
    let (b, answer) := b.handPiece n
    (b, some answer)

def fromMemory (b : H2Body) (n : Nat) : H2Body × Option (Bytes × Bool) :=
  let left := b.body.length - b.bodyOff
  let n := if n > left then left else n
  let bytes := (b.body.drop b.bodyOff).take n
  let b := { b with bodyOff := b.bodyOff + n, bodySent := b.bodySent + n }
  (b, some (bytes, b.bodyOff = b.body.length))

/-- `body_source`: the bytes and the EOF flag, or `NGHTTP2_ERR_CALLBACK_FAILURE`. -/
def bodySource (b : H2Body) (n : Nat) : H2Body × Option (Bytes × Bool) :=
  match b.src with
  | some next => b.fromSource next n
  | none => b.fromMemory n

/-- nghttp2 asks for the body. -/
def asked (b : H2Body) : Bool := b.provided && !b.srcFailed && !b.answers.any BodyAnswer.eof

/-- The calls of one `nghttp2_session_mem_send2`, up to one that fails. -/
def offers (closed : Bool) : H2Body → List Nat → H2Body × Bool
  | b, [] => (b, false)
  | b, n :: ns =>
    if closed || !b.asked then (b, false)
    else
      match b.bodySource n with
      | (b, none) => (b, true)
      | (b, some (bytes, eof)) =>
        offers closed { b with answers := b.answers ++ [⟨bytes, eof, b.drawn⟩] } ns

/-- `zuh_h2_own_body`, given the answer of the allocator. -/
def own (b : H2Body) (closed alloc : Bool) : H2Body × Option Fail :=
  let left := b.body.length - b.bodyOff
  if closed || b.src.isSome || b.bodyOwned || left = 0 then (b, none)
  else if alloc then
    ({ b with body := (b.body.drop b.bodyOff).take left, bodyOff := 0, bodyOwned := true }, none)
  else (b, some (Fail.set .nomem .write "out of memory"))

end H2Body

/-! ### Sending -/

/-- How a call of `nghttp2_session_mem_send2` ends: it fails, has nothing to send, or has
bytes for the transport, which may fail to write them. -/
inductive SendEnd
  | fail (f : Fail)
  | nothing
  | written (failure : Option Fail)

/-- What such a call meets: the buffers it offers, the streams it closes, whether another
request is allowed after it, and its end. -/
structure SendAnswer where
  offers : List Nat := []
  closes : List (Nat × Nat) := []
  allowed : Bool := true
  ending : SendEnd

/-- A connection and the body of its open stream. -/
structure Sender where
  conn : H2
  body : H2Body

/-- What `flush` reports once the source has failed. -/
def sourceReport (err : Option Error) : Fail :=
  match err with
  | none => Fail.set .io .write "the request body function failed"
  | some e =>
    if h : e.code = .ok then Fail.set .io .write "the request body function failed"
    else ⟨e.code, some e, h⟩

namespace Sender

/-- `zuh_h2_begin` with the stream nghttp2 opened. -/
def start (h : H2) (hdrs : Headers) (sid : Nat) (g : GivenBody) : Sender :=
  ⟨{ h.freshStream hdrs with sid := sid }, H2Body.start g⟩

/-- Callbacks; the source is let go of where the stream closes. -/
def hear (s : Sender) (es : List H2Event) : Sender :=
  let conn := (s.conn.hear es).1
  ⟨conn, if conn.closed then { s.body with src := none } else s.body⟩

/-- `fail`, and `flush` where the source has failed. -/
def fail (s : Sender) (f : Fail) : Sender × Option Fail :=
  ({ s with conn.failed := true },
    some (if s.body.srcFailed then sourceReport s.body.srcErr else f))

/-- `flush`, over what the calls of nghttp2 meet. -/
def flush : Sender → List SendAnswer → Sender × Option Fail
  | s, [] => (s, none)
  | s, a :: sends =>
    match s.body.offers s.conn.closed a.offers with
    | (b, true) => fail { s with body := b } (Fail.bare .io)
    | (b, false) =>
      let s := hear { s with body := b } (a.closes.map (fun c => .streamClose c.1 c.2))
      let s := { s with conn.allowed := a.allowed }
      match a.ending with
      | .fail f => s.fail f
      | .nothing => (s, none)
      | .written (some f) => ({ s with conn.failed := true }, some f)
      | .written none => flush s sends

/-- What happens while the stream is open: bytes are sent, nghttp2 reports what it read, and
the body is copied. -/
inductive Event
  | flush (sends : List SendAnswer)
  | hear (events : List H2Event)
  | own (alloc : Bool)

def step (s : Sender) : Event → Sender
  | .flush sends => (s.flush sends).1
  | .hear events => s.hear events
  | .own alloc => { s with body := (s.body.own s.conn.closed alloc).1 }

def play (s : Sender) (es : List Event) : Sender := es.foldl step s

end Sender

end Zuhttp
