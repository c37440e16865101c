import Zuhttp.Body

/-!
# The HTTP/2 driver

`zuh_h2.c`: one connection, one open stream. nghttp2 and the transport under it are the
environment, a script of what every flush and every read meets; what nghttp2 documents of
its callbacks is `documented`. What the flushes send of the request body is left to the
script.
-/

namespace Zuhttp

/-- The frames `on_frame_recv` tells apart. -/
inductive Frame
  | goaway
  | pingAck
  | rstStream (sid code : Nat)
  | headers (sid : Nat) (endStream : Bool)
  | data (sid : Nat) (endStream : Bool)
  | other
  deriving DecidableEq

/-- nghttp2's calls while it reads. -/
inductive H2Event
  | beginHeaders (sid : Nat)
  | header (sid : Nat) (name value : Bytes)
  | frameRecv (f : Frame)
  | dataChunk (sid : Nat) (bytes : Bytes)
  | streamClose (sid code : Nat)
  deriving DecidableEq

/-- What a flush meets: the streams nghttp2 closes as it sends, a failure to send, and
whether nghttp2 allows another request afterwards. -/
structure FlushAnswer where
  closes : List (Nat × Nat) := []
  failure : Option Fail := none
  allowed : Bool := true

/-- What a read meets. `finished` is a session that wants no more input. -/
inductive ReadAnswer
  | finished
  | fail (f : Fail)
  | wouldblock
  | frames (events : List H2Event) (failure : Option Fail) (allowed : Bool)

/-- A script that is used up flushes everything and reads the end of the stream. -/
structure H2Env where
  flushes : List FlushAnswer := []
  reads : List ReadAnswer := []
  submits : List (Except Fail Nat) := []

/-- `h2_impl`. The last six fields are not in the source: they record what nghttp2 was told
and what it reported. -/
structure H2 where
  maxHeaderBytes : Nat
  sid : Nat := 0
  status : Int := 0
  hdrs : Option Headers := none
  trailers : Headers := Headers.init
  inTrailers : Bool := false
  blockBytes : Nat := 0
  headersDone : Bool := false
  endedOnHeaders : Bool := false
  closed : Bool := false
  closeCode : Nat := 0
  peerReset : Bool := false
  goaway : Bool := false
  failed : Bool := false
  cancelled : Bool := false
  cbFail : Option Fail := none
  data : Bytes := []
  env : H2Env
  allowed : Bool := true
  submitted : List (List (Bytes × Bytes)) := []
  heard : List H2Event := []
  lawful : Bool := true
  resetSent : Bool := false
  delivered : Nat := 0
  consumed : Nat := 0

/-- `zuh_h2_request`, its body aside. -/
structure H2Request where
  method : Bytes
  scheme : Bytes
  authority : Bytes
  path : Bytes
  headers : Headers

namespace H2

/-- `H2_DATA_MAX`, `H2_FIELD_OVERHEAD` and `NGHTTP2_NO_ERROR`. -/
def dataMax : Nat := 1024 * 1024
def fieldOverhead : Nat := 32
def noError : Nat := 0

/-- `nghttp2_http2_strerror`. -/
def http2Strerror : Nat → String
  | 0 => "NO_ERROR"
  | 1 => "PROTOCOL_ERROR"
  | 2 => "INTERNAL_ERROR"
  | 3 => "FLOW_CONTROL_ERROR"
  | 4 => "SETTINGS_TIMEOUT"
  | 5 => "STREAM_CLOSED"
  | 6 => "FRAME_SIZE_ERROR"
  | 7 => "REFUSED_STREAM"
  | 8 => "CANCEL"
  | 9 => "COMPRESSION_ERROR"
  | 10 => "CONNECT_ERROR"
  | 11 => "ENHANCE_YOUR_CALM"
  | 12 => "INADEQUATE_SECURITY"
  | 13 => "HTTP_1_1_REQUIRED"
  | _ => "unknown"

/-! ### What nghttp2 documents -/

/-- The event is a frame with END_STREAM on the stream. -/
def endsStream (sid : Nat) : H2Event → Bool
  | .frameRecv (.headers s true) => s = sid
  | .frameRecv (.data s true) => s = sid
  | _ => false

def resetCode (sid : Nat) : H2Event → Option Nat
  | .frameRecv (.rstStream s code) => if s = sid then some code else none
  | _ => none

def payload (sid : Nat) : H2Event → Bytes
  | .dataChunk s bytes => if s = sid then bytes else []
  | _ => []

/-- nghttp2 reports data of the open stream only, closes a stream with NO_ERROR only when
the peer has ended it or reset it with that code, and takes no end of a stream that the peer
reset. -/
def documented (h : H2) (e : H2Event) : Bool :=
  match e with
  | .dataChunk sid _ => sid = h.sid && !h.closed && !h.resetSent
  | .streamClose sid code =>
    if sid = h.sid then
      code ≠ noError || h.heard.any (endsStream sid) ||
        h.heard.any (fun e => resetCode sid e = some noError)
    else true
  | .frameRecv _ =>
    !(endsStream h.sid e && h.heard.any (fun e => (resetCode h.sid e).isSome))
  | _ => true

/-! ### The callbacks -/

/-- `cb_fail`: the first failure is kept. -/
def cbFailWith (h : H2) (f : Fail) : H2 × Bool :=
  match h.cbFail with
  | none => ({ h with cbFail := some f }, true)
  | some _ => (h, true)

def outsideRequest : Fail :=
  Fail.set .parse .read "HTTP/2 response headers arrived outside a request"

def onBeginHeaders (h : H2) (sid : Nat) : H2 × Bool :=
  if sid ≠ h.sid then (h, false)
  else
    let h := { h with blockBytes := 0 }
    if h.headersDone then ({ h with inTrailers := true }, false)
    else
      match h.hdrs with
      | none => h.cbFailWith outsideRequest
      | some _ => ({ h with hdrs := some Headers.init, status := 0 }, false)

def statusOf (value : Bytes) : Option Int :=
  match value with
  | [a, b, c] =>
    some (((a.toNat : Int) - 48) * 100 + ((b.toNat : Int) - 48) * 10 + ((c.toNat : Int) - 48))
  | _ => none

def invalidHeader : Fail :=
  Fail.set .parse .read "HTTP/2 response header is invalid or over a limit"

def onHeader (h : H2) (sid : Nat) (name value : Bytes) : H2 × Bool :=
  if sid ≠ h.sid then (h, false)
  else
    let h := { h with blockBytes := h.blockBytes + name.length + value.length + fieldOverhead }
    if h.blockBytes > h.maxHeaderBytes then
      h.cbFailWith (Fail.set .parse .read
        (if h.inTrailers then "HTTP/2 trailer block exceeds the header size limit"
          else "HTTP/2 response header block exceeds the header size limit"))
    else if name.head? = some 58 then
      match statusOf value with
      | some status =>
        if h.inTrailers = false ∧ name = ascii ":status" then ({ h with status := status }, false)
        else (h, false)
      | none => (h, false)
    else if h.inTrailers then
      match h.trailers.add name value with
      | .ok trailers => ({ h with trailers := trailers }, false)
      | .error _ => h.cbFailWith invalidHeader
    else
      match h.hdrs with
      | none => h.cbFailWith outsideRequest
      | some hdrs =>
        match hdrs.add name value with
        | .ok hdrs => ({ h with hdrs := some hdrs }, false)
        | .error _ => h.cbFailWith invalidHeader

def onFrameRecv (h : H2) : Frame → H2 × Bool
  | .goaway => ({ h with goaway := true }, false)
  | .pingAck => (h, false)
  | .rstStream sid _ =>
    if sid ≠ h.sid ∨ h.sid = 0 then (h, false) else ({ h with peerReset := true }, false)
  | .headers sid endStream =>
    if sid ≠ h.sid ∨ h.sid = 0 then (h, false)
    else if h.inTrailers then (h, false)
    else if 100 ≤ h.status ∧ h.status < 200 then
      match h.hdrs with
      | none => h.cbFailWith outsideRequest
      | some _ => ({ h with hdrs := some Headers.init, status := 0 }, false)
    else
      ({ h with
        headersDone := true
        endedOnHeaders := h.endedOnHeaders || endStream }, false)
  | .data _ _ => (h, false)
  | .other => (h, false)

def onData (h : H2) (sid : Nat) (bytes : Bytes) : H2 × Bool :=
  let h := { h with delivered := h.delivered + bytes.length }
  if sid ≠ h.sid then (h, false)
  else if h.data.length + bytes.length > dataMax then h.cbFailWith (Fail.bare .nomem)
  else ({ h with data := h.data ++ bytes }, false)

def onClose (h : H2) (sid code : Nat) : H2 :=
  if sid ≠ h.sid then h else { h with closed := true, closeCode := code }

/-- One callback, and whether it failed. -/
def callback (h : H2) (e : H2Event) : H2 × Bool :=
  let h := { h with heard := h.heard ++ [e], lawful := h.lawful && h.documented e }
  match e with
  | .beginHeaders sid => h.onBeginHeaders sid
  | .header sid name value => h.onHeader sid name value
  | .frameRecv f => h.onFrameRecv f
  | .dataChunk sid bytes => h.onData sid bytes
  | .streamClose sid code => (h.onClose sid code, false)

/-- The callbacks of one call into nghttp2, up to the first that fails. -/
def hear : H2 → List H2Event → H2 × Bool
  | h, [] => (h, false)
  | h, e :: es =>
    match h.callback e with
    | (h, true) => (h, true)
    | (h, false) => hear h es

/-! ### Moving bytes -/

/-- `fail`: the session is unusable from here on. -/
def fail (h : H2) (f : Fail) : H2 × Option Fail := ({ h with failed := true }, some f)

def flush (h : H2) : H2 × Option Fail :=
  match h.env.flushes with
  | [] => (h, none)
  | a :: flushes =>
    let h := { h with env.flushes := flushes }
    let h := (h.hear (a.closes.map (fun c => .streamClose c.1 c.2))).1
    let h := { h with allowed := a.allowed }
    match a.failure with
    | none => (h, none)
    | some f => h.fail f

def closedByServer : Fail :=
  Fail.set .io .read "the server closed the HTTP/2 connection before the response ended"

/-- The middle of `pump`: one read, and what nghttp2 makes of it. -/
def recv (h : H2) : H2 × Option Fail :=
  match h.env.reads with
  | [] => h.fail closedByServer
  | a :: reads =>
    let h := { h with env.reads := reads }
    match a with
    | .finished =>
      if h.goaway then
        h.fail (Fail.set .io .read
          "the server closed the HTTP/2 connection (GOAWAY) before the response ended")
      else
        h.fail (Fail.set .parse .read
          "the server broke the HTTP/2 protocol, so the session was ended")
    | .fail f => h.fail f
    | .wouldblock => (h, none)
    | .frames events failure allowed =>
      let (h, bad) := h.hear events
      let h := { h with allowed := allowed }
      match (if bad then some (Fail.bare .nomem) else failure) with
      | some f => h.fail (h.cbFail.getD f)
      | none => h.flush

def pump (h : H2) : H2 × Option Fail :=
  match h.flush with
  | (h, some f) => (h, some f)
  | (h, none) => h.recv

def pumpStream (h : H2) : H2 × Option Fail :=
  match h.flush with
  | (h, some f) => (h, some f)
  | (h, none) => if h.closed then (h, none) else h.pump

/-- `stream_outcome`. -/
def streamOutcome (h : H2) : H2 × Option Fail :=
  if h.closeCode = noError then (h, none)
  else if h.peerReset then
    h.fail (Fail.set .io .read
      ("the server reset the HTTP/2 stream (" ++ http2Strerror h.closeCode ++ ")"))
  else if h.goaway then
    h.fail (Fail.set .io .read
      ("the server closed the HTTP/2 connection (GOAWAY, " ++ http2Strerror h.closeCode ++ ")"))
  else
    h.fail (Fail.set .parse .read
      ("malformed HTTP/2 response (" ++ http2Strerror h.closeCode ++ ")"))

/-! ### The request -/

def isConnSpecific (name : Bytes) : Bool :=
  [ascii "Connection", ascii "Keep-Alive", ascii "Proxy-Connection", ascii "Transfer-Encoding",
    ascii "Upgrade", ascii "Host"].any (fun n => asciiNcasecmp name n = 0)

/-- The header block of a request. -/
def block (rq : H2Request) : List (Bytes × Bytes) :=
  [(ascii ":method", rq.method), (ascii ":scheme", rq.scheme),
    (ascii ":authority", rq.authority),
    (ascii ":path", if rq.path = [] then ascii "/" else rq.path)] ++
  (rq.headers.items.filter (fun f => !isConnSpecific f.name)).map
    (fun f => (f.name.map lower, f.value))

def badTe (rq : H2Request) : Bool :=
  rq.headers.items.any (fun f =>
    asciiNcasecmp f.name (ascii "TE") = 0 && asciiNcasecmp f.value (ascii "trailers") ≠ 0)

/-- The per-stream state of `zuh_h2_begin`. -/
def freshStream (h : H2) (hdrs : Headers) : H2 :=
  { h with
    hdrs := some hdrs, status := 0, inTrailers := false, headersDone := false
    endedOnHeaders := false, closed := false, closeCode := 0, peerReset := false
    cancelled := false, cbFail := none, trailers := Headers.init, data := []
    heard := [], resetSent := false }

/-- One pass of the loop that waits for the response headers. -/
def beginStep (h : H2) : H2 × Option Fail :=
  if h.closed then
    match h.streamOutcome with
    | (h, some f) => (h, some f)
    | (h, none) =>
      h.fail (Fail.set .parse .read "the HTTP/2 stream ended without a response")
  else h.pumpStream

structure H2Response where
  status : Int
  headers : Headers
  bodiless : Bool

/-- `zuh_h2_begin`. -/
def begin (h : H2) (rq : H2Request) (hdrs : Headers) : H2 × Except Fail H2Response :=
  if h.failed ∨ ¬h.allowed then
    (h, .error (Fail.set .io .write "this HTTP/2 connection cannot carry another request"))
  else if badTe rq then
    (h, .error (Fail.set .parse .none
      "a TE header other than 'trailers' cannot be sent over HTTP/2"))
  else
    let h := h.freshStream hdrs
    let h := { h with submitted := h.submitted ++ [block rq] }
    match h.env.submits with
    | [] => ({ h with failed := true, hdrs := none }, .error (Fail.bare .nomem))
    | answer :: submits =>
      let h := { h with env.submits := submits }
      match answer with
      | .error f => ({ h with failed := true, hdrs := none }, .error f)
      | .ok sid =>
        let h := { h with sid := sid }
        let (h, f) := Loop.iterate beginStep H2.headersDone (2 * h.env.reads.length + 2) h
        match f, h.hdrs with
        | some f, _ => ({ h with hdrs := none }, .error f)
        | none, hdrs =>
          ({ h with hdrs := none },
            .ok ⟨h.status, hdrs.getD Headers.init, h.endedOnHeaders⟩)

/-! ### The body -/

variable {Z : Zlib}

/-- `deliver`: the window is granted back before the pipe sees the bytes. -/
def deliver (h : H2) (p : BodyPipe Z) : H2 × BodyPipe Z × Option Fail :=
  if h.data = [] then (h, p, none)
  else
    let n := h.data.length
    let p := { p with rawSeen := p.rawSeen + n }
    let (p, f) := p.feed h.data
    ({ h with consumed := h.consumed + n, data := [] }, p, f)

/-- A stream, the pipe its body goes to, and whether the body has ended. -/
structure BodyState (Z : Zlib) where
  conn : H2
  pipe : BodyPipe Z
  done : Bool := false

/-- `zuh_h2_body_step` after its read. -/
def endStep (h : H2) (p : BodyPipe Z) : BodyState Z × Option Fail :=
  match h.deliver p with
  | (h, p, some f) => (⟨h, p, false⟩, some f)
  | (h, p, none) =>
    if ¬h.closed ∨ h.data ≠ [] then (⟨h, p, false⟩, none)
    else
      match h.streamOutcome with
      | (h, some f) => (⟨h, p, false⟩, some f)
      | (h, none) =>
        match p.finish with
        | (p, some f) => (⟨h, p, false⟩, some f)
        | (p, none) =>
          let p := { p with trailers := h.trailers }
          (⟨({ h with trailers := Headers.init }.flush).1, p, true⟩, none)

/-- `zuh_h2_body_step`. -/
def bodyStep (st : BodyState Z) : BodyState Z × Option Fail :=
  if st.conn.data = [] ∧ ¬st.conn.closed then
    match st.conn.pumpStream with
    | (h, some f) => (⟨h, st.pipe, false⟩, some f)
    | (h, none) => endStep h st.pipe
  else endStep st.conn st.pipe

/-- `zuh_h2_body`. -/
def body (h : H2) (p : BodyPipe Z) : BodyState Z × Option Fail :=
  Loop.iterate bodyStep BodyState.done (h.env.reads.length + 2) ⟨h, p, false⟩

/-- `zuh_h2_cancel`. -/
def cancel (h : H2) : H2 :=
  if h.closed ∨ h.sid = 0 ∨ h.failed then h
  else
    let h := { h with consumed := h.consumed + h.data.length, data := [], resetSent := true }
    match h.flush with
    | (h, some _) => { h with failed := true }
    | (h, none) => { h with cancelled := true }

/-- `zuh_h2_reusable`. -/
def reusable (h : H2) : Bool :=
  !h.failed && !h.goaway && (h.cancelled || (h.closed && h.closeCode = noError)) && h.allowed

/-- `zuh_h2_wrap`, when no allocation fails. -/
def wrap (env : H2Env) (maxHeaderBytes : Nat) : H2 :=
  { maxHeaderBytes := if maxHeaderBytes ≠ 0 then maxHeaderBytes else 65536, env := env }

end H2

end Zuhttp
