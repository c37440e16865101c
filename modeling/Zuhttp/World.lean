import Zuhttp.EngineKey
import Zuhttp.OpenBody
import Zuhttp.Proxy
import Zuhttp.Redirect
import Zuhttp.Request

/-!
# The engine's inputs and its world

What `zuh_engine_perform` is called with, what every hop meets outside the engine, and the
state a run changes: the streams it opened and where they went, the request body's source,
the caller's sink, the requests it sent and the result.
-/

namespace Zuhttp

/-! ### Inputs -/

/-- `zuh_get_opts`. The sink is in the world; timeouts are failures of the streams. -/
structure PerformOpts extends GetOpts where
  maxRedirects : Int := 10
  maxBody : Nat := 16 * 1024 * 1024
  noDecode : Bool := false
  streamBody : Bool := false
  userAgent : Option Bytes := none
  proxy : Option Bytes := none
  proxySet : Bool := false
  redact : Option RedactPolicy := none
  pool : Bool := false
  dial : Bool := false

/-- `zuh_req_spec`, without the source of a streamed body. -/
structure ReqSpec where
  method : Option Bytes := none
  headers : List (Bytes × Bytes) := []
  body : Bytes := []

structure Call where
  url : Bytes
  req : ReqSpec := {}
  opts : PerformOpts := {}

/-! ### The outside -/

/-- `zuh_tls_info`. -/
structure TlsInfo where
  protocol : Bytes
  cipher : Bytes
  trustBackend : Bytes
  alpn : Bytes

/-- One address of a host: no socket for it, refused at once or after a wait, a wait that is
final, or a connection. -/
inductive Attempt
  | skipped
  | refused (atOnce : Bool) (errno : Int)
  | stopped (f : Fail)
  | accepted (peer : Bytes)

/-- What name resolution answers. -/
inductive Resolution
  | noStack
  | unresolved
  | addresses (as : List Attempt)

inductive Conn
  | h1 (t : Transport)
  | h2 (h : H2)

/-- What a TLS connection is once it is open. -/
structure Handshake where
  stream : Transport
  info : TlsInfo
  peerIp : Option Bytes := none

/-- A connection out of the pool. -/
structure Acquired where
  conn : Conn
  info : Option TlsInfo := none
  peerIp : Option Bytes := none

/-- What one hop meets. A new connection's `tcp` is what its peer sends; `handshake` is the
TLS connection over it, `dialled` the one a backend opens itself. Over HTTP/2 `pulls` pieces
are taken of a streamed body. -/
structure HopScript where
  acquired : Option Acquired := none
  resolution : Resolution := .unresolved
  seam : Option Fail := none
  tcp : Transport := { reads := [] }
  handshake : Except Fail Handshake
  dialled : Except Fail Handshake
  h2Wrap : Option Fail := none
  h2Env : H2Env := {}
  h2BodySent : Nat := 0
  pulls : Nat := 0
  /-- Whether the memory sink has no room for a piece. -/
  memoryFull : List Bytes → Bytes → Bool := fun _ _ => false

/-- The build, the process and the peers. -/
structure Env where
  uri : UriLib
  getenv : Bytes → Option Bytes := fun _ => none
  tlsAvailable : Bool := true
  tlsDials : Bool := false
  hop : Nat → HopScript

/-! ### Streams -/

/-- How a stream came to the run. -/
inductive Opening
  | pool (key : PoolKey)
  | tcp (host : Bytes) (port : Nat)
  | backend (host : Bytes) (port : Nat) (proxy : Option Proxy)
  deriving DecidableEq

/-- A stream: the objects it is made of, the outermost first, and what they are. -/
structure Stream where
  layers : List Nat
  via : Opening
  conn : Conn
  info : Option TlsInfo := none

/-- A stream passed to `zuh_pool_release`. -/
structure Pooled where
  key : PoolKey
  stream : Stream
  reuse : Reuse

/-- `zuh_body_source`: whether it has each callback, the answers of `next` that are left, the
hop of every call of `next` and the calls of `release`. Answers that are used up are the end. -/
structure Source where
  next : Bool := false
  release : Bool := false
  answers : List (Except Fail Bytes) := []
  pulled : List Nat := []
  released : Nat := 0

/-- A request the engine wrote or gave to the HTTP/2 driver. `streamed` is whether its body
comes from the source, which had `answers` left; `wrote` has the bytes of an HTTP/1.1 request
once all of it was written. -/
structure Sent where
  hop : Nat
  uri : Uri
  proxy : Proxy
  via : Opening
  h2 : Bool
  rq : Request
  body : Bytes
  streamed : Bool
  answers : List (Except Fail Bytes) := []
  wrote : Option Bytes := none

/-- A response head, where its body comes from, and whether it has none. -/
structure Answer where
  status : Int
  minorVersion : Int
  headers : Headers
  input : BodyInput
  bodiless : Bool

variable {Z : Zlib}

/-- An unread body in the result, with what it took over. -/
structure Held (Z : Zlib) where
  body : OpenBody Z
  stream : Stream
  key : Option PoolKey
  release : Bool

/-- `zuh_result`, without its timings. -/
structure Result (Z : Zlib) where
  status : Int := 0
  httpVersion : Int := 0
  httpMajor : Int := 0
  headers : Headers := Headers.init
  trailers : Headers := Headers.init
  body : Bytes := []
  finalUrl : Option Bytes := none
  redirects : Nat := 0
  tlsVersion : Option Bytes := none
  tlsCipher : Option Bytes := none
  trustBackend : Option Bytes := none
  remoteIp : Option Bytes := none
  proxyUsed : Bool := false
  reusedConnection : Bool := false
  openBody : Option (Held Z) := none

/-- `opened` counts the stream objects; `closed` has those that were closed and freed.
`answered` has the heads of the responses so far. -/
structure World (Z : Zlib) where
  host : Host := {}
  opened : Nat := 0
  closed : List Nat := []
  pooled : List Pooled := []
  tunnels : List (Opening × Bytes) := []
  source : Source := {}
  sink : Option Sink := none
  sent : List Sent := []
  answered : List Answer := []
  result : Result Z := {}

abbrev Engine (Z : Zlib) := Prog (World Z) Code

variable {α : Type}

namespace World

def setHost (h : Host) (w : World Z) : World Z := { w with host := h }

/-- A step that only uses the host. -/
def onHost (m : HostProg α) : Engine Z α := Prog.zoom World.host setHost m

/-- `drop_stream`. -/
def drop (s : Stream) (w : World Z) : World Z := { w with closed := w.closed ++ s.layers }

/-- A stream object around what `layers` are. -/
def newStream (layers : List Nat) (via : Opening) (conn : Conn) (info : Option TlsInfo) :
    Engine Z Stream := do
  let w ← get
  set { w with opened := w.opened + 1 }
  pure ⟨w.opened :: layers, via, conn, info⟩

def setResult (f : Result Z → Result Z) : Engine Z Unit :=
  modify (fun w => { w with result := f w.result })

/-- `zuh_pool_release`. -/
def pool (key : PoolKey) (s : Stream) (r : Reuse) (w : World Z) : World Z :=
  { w with pooled := w.pooled ++ [⟨key, s, r⟩] }

/-- `src->release`. -/
def callRelease (w : World Z) : World Z :=
  { w with source.released := w.source.released + 1 }

/-- The connection of an unread body is given back or closed. -/
def closeOpen (o : Held Z) (w : World Z) : World Z :=
  match o.body.free.released.getLast?, o.key with
  | some r, some key => w.pool key o.stream r
  | _, _ => w.drop o.stream

/-- `zuh_open_body_free`: the connection, then the source. -/
def freeOpen (o : Held Z) (w : World Z) : World Z :=
  if o.release then (w.closeOpen o).callRelease else w.closeOpen o

/-- `zuh_result_free`. -/
def freeResult (w : World Z) : World Z :=
  let w' : World Z := { w with result := {} }
  match w.result.openBody with
  | some o => w'.freeOpen o
  | none => w'

end World

/-- `zuh_engine_pool_key`, when allocations may fail. -/
def buildKey (opts : PerformOpts) (u : Uri) (px : Proxy) : HostProg (Option PoolKey) := do
  if ← Host.alloc then pure (enginePoolKey ⟨u, opts.toGetOpts, some px⟩) else pure none

/-- The key under which a connection may go back to the pool. -/
def releaseKey (opts : PerformOpts) (u : Uri) (px : Proxy) : HostProg (Option PoolKey) :=
  if opts.pool then buildKey opts u px else pure none

/-- `done_with_stream`. -/
def doneWithStream (opts : PerformOpts) (u : Uri) (px : Proxy) (s : Stream) (r : Reuse) :
    Engine Z Unit := do
  match ← World.onHost (releaseKey opts u px) with
  | some key => modify (World.pool key s r)
  | none => modify (World.drop s)

end Zuhttp
