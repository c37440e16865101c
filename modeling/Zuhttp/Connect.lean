import Zuhttp.World

/-!
# Opening a connection

`zuh_net_connect` of `zuh_net.c`, and of `zuh_engine.c` the tunnel through a proxy, the
stream of a hop and the choice of its protocol.
-/

namespace Zuhttp

/-- `ZUH_MAX_HEADER_BYTES`. -/
def maxHeaderBytes : Nat := 64 * 1024

/-! ### TCP -/

def refusal (atOnce : Bool) (host : Bytes) (port : Nat) (errno : Int) : String :=
  if atOnce then
    "cannot connect to " ++ text host ++ ":" ++ toString port ++ " (" ++ toString errno ++ ")"
  else
    "connection to " ++ text host ++ ":" ++ toString port ++ " refused (" ++ toString errno ++ ")"

/-- The address loop of `zuh_net_connect`; `last` is its result so far. -/
def connectLoop (host : Bytes) (port : Nat) (last : Code) : List Attempt → HostProg Bytes
  | [] => throw last
  | .skipped :: as => connectLoop host port last as
  | .refused atOnce errno :: as => do
    Host.traceAdd .connectStart (some host) 0
    Host.setError .connect .connect (refusal atOnce host port errno)
    connectLoop host port .connect as
  | .stopped f :: _ => do
    Host.traceAdd .connectStart (some host) 0
    Host.note f
    modify (fun h => { h with err := h.err.map (fun e => { e with phase := .connect }) })
    throw f.rc
  | .accepted peer :: _ => do
    Host.traceAdd .connectStart (some host) 0
    Host.traceAdd .connectDone (some peer) 0
    pure peer

/-- `zuh_net_connect`: the address that took the connection. -/
def netConnect (r : Resolution) (host : Bytes) (port : Nat) : HostProg Bytes :=
  match r with
  | .noStack => Host.refuse .io .connect "network stack unavailable"
  | .unresolved => do
    Host.traceAdd .dnsStart (some host) 0
    Host.refuse .dns .dns ("cannot resolve '" ++ text host ++ "'")
  | .addresses as => do
    Host.traceAdd .dnsStart (some host) 0
    Host.traceAdd .dnsDone (some host) 0
    Host.allocate
    connectLoop host port .connect as

/-! ### The tunnel -/

def writeAll (t : Transport) (buf : Bytes) : HostProg Transport :=
  match t.writeAll buf with
  | (t, none) => pure t
  | (_, some f) => Host.raiseWrite f

/-- What the proxy's answer takes of the bytes read so far, or `none` to read on. -/
def tunnelAnswer (raw : Bytes) : HostProg (Option Nat) := do
  match ← Proxy.connectResponse raw with
  | some consumed => pure (some consumed)
  | none =>
    if raw.length ≥ maxHeaderBytes then
      Host.refuse .proxy .connect "proxy CONNECT response header block is too large"
    else pure none

/-- The proxy sends no more. -/
def tunnelEnd {α : Type} : StreamEnd → HostProg α
  | .eof => Host.refuse .proxy .connect "proxy closed the connection during CONNECT"
  | .fail f => Host.raise f

/-- The loop of `proxy_tunnel` over the reads that are left: what was read, how much of it
the answer takes, and the reads after it. -/
def tunnelLoop (ending : StreamEnd) : List Segment → Bytes → HostProg (Bytes × Nat × List Segment)
  | [], raw => do
    match ← tunnelAnswer raw with
    | some consumed => pure (raw, consumed, [])
    | none => tunnelEnd ending
  | seg :: reads, raw => do
    match ← tunnelAnswer raw with
    | some consumed => pure (raw, consumed, seg :: reads)
    | none =>
      Host.allocate
      if raw.length + seg.bytes.length > maxHeaderBytes then throw .nomem
      else tunnelLoop ending reads (raw ++ seg.bytes)

/-- `proxy_tunnel` behind its request. -/
def proxyTunnel (t : Transport) (req : Bytes) : HostProg Transport := do
  let t ← writeAll t req
  Host.allocate
  let (raw, consumed, reads) ← tunnelLoop t.ending t.reads []
  if raw.length > consumed then
    Host.refuse .proxy .connect
      ("proxy sent " ++ toString (raw.length - consumed) ++ " unexpected bytes after CONNECT")
  else pure { t with reads := reads }

/-! ### The stream of a hop -/

variable {Z : Zlib}

open World

/-- `dup_str` of a field that may stay NULL. -/
def dupStr (s : Bytes) : HostProg (Option Bytes) := do
  if ← Host.alloc then pure (some s) else pure none

/-- `record_tls_info`. -/
def recordTlsInfo (info : Option TlsInfo) : Engine Z Unit :=
  match info with
  | none => pure ()
  | some info => do
    let version ← onHost (dupStr info.protocol)
    let cipher ← onHost (dupStr info.cipher)
    let backend ← onHost (dupStr info.trustBackend)
    setResult (fun r => { r with
      tlsVersion := version, tlsCipher := cipher, trustBackend := backend })

/-- The address of the peer, where the stream knows one. -/
def recordPeer (ip : Option Bytes) : Engine Z Unit :=
  match ip with
  | none => pure ()
  | some ip => do
    let copy ← onHost (dupStr ip)
    setResult (fun r => { r with remoteIp := copy })

/-- The connection the pool has for the hop. -/
def acquireStream (opts : PerformOpts) (script : HopScript) (u : Uri) (px : Proxy) :
    Engine Z (Option Stream) :=
  if opts.pool = false then pure none
  else do
    match ← onHost (buildKey opts u px) with
    | none => throw .nomem
    | some key =>
      match script.acquired with
      | none => pure none
      | some a => do
        let s ← newStream [] (.pool key) a.conn a.info
        Prog.onlyIf u.isHttps (recordTlsInfo a.info)
        setResult (fun r => { r with reusedConnection := true, proxyUsed := px.inUse })
        recordPeer a.peerIp
        onHost (Host.traceAdd .connectionReused (some u.host) 0)
        pure (some s)

/-- `open_dialled`. -/
def openDialled (script : HopScript) (u : Uri) (px : Proxy) : Engine Z Stream :=
  match script.dialled with
  | .error f => onHost (Host.raise f)
  | .ok hs => do
    let s ← newStream [] (.backend u.host u.port (if px.inUse then some px else none))
      (.h1 hs.stream) (some hs.info)
    recordPeer hs.peerIp
    setResult (fun r => { r with reusedConnection := false, proxyUsed := px.inUse })
    recordTlsInfo (some hs.info)
    pure s

/-- The tunnel to the target through a proxy. -/
def openTunnel (u : Uri) (px : Proxy) (tcp : Stream) (t : Transport) : Engine Z Unit :=
  Prog.onFailure (drop tcp) (do
    let req ← onHost (do Host.allocate; px.connectRequest u)
    modify (fun w => { w with tunnels := w.tunnels ++ [(tcp.via, req)] })
    onHost (do let _ ← proxyTunnel t req))

/-- The TLS connection over a new TCP stream, through a tunnel where a proxy is in use. -/
def openTls (env : Env) (script : HopScript) (u : Uri) (px : Proxy) (tcp : Stream)
    (t : Transport) : Engine Z Stream := do
  Prog.onlyIf px.inUse (openTunnel u px tcp t)
  if ¬env.tlsAvailable then Prog.onFailure (drop tcp) (onHost (Host.refuse .tls .tls
    "this build has no TLS backend, so https:// is unavailable"))
  else do
    onHost (Host.traceAdd .tlsStart (some u.host) 0)
    match script.handshake with
    | .error f => Prog.onFailure (drop tcp) (onHost (Host.raise f))
    | .ok hs => do
      let s ← newStream tcp.layers tcp.via (.h1 hs.stream) (some hs.info)
      recordTlsInfo (some hs.info)
      let w ← get
      onHost (Host.traceAdd .tlsDone (some (w.result.tlsVersion.getD (ascii "tls"))) 0)
      pure s

/-- A new TCP connection: the address it is to, where that is known. -/
def connectTcp (opts : PerformOpts) (script : HopScript) (host : Bytes) (port : Nat) :
    HostProg (Option Bytes) :=
  if opts.dial then
    match script.seam with
    | none => pure none
    | some f => Host.raise f
  else do
    let peer ← netConnect script.resolution host port
    pure (if peer = [] then none else some peer)

/-- The engine's own TCP connection, with TLS over it when the scheme says so. -/
def openTcp (env : Env) (opts : PerformOpts) (script : HopScript) (u : Uri) (px : Proxy) :
    Engine Z Stream := do
  let host := if px.inUse then px.host.getD [] else u.host
  let port := if px.inUse then px.port else u.port
  let peer ← onHost (connectTcp opts script host port)
  let tcp ← newStream [] (.tcp host port) (.h1 script.tcp) none
  recordPeer peer
  setResult (fun r => { r with reusedConnection := false, proxyUsed := px.inUse })
  if ¬u.isHttps then pure tcp else openTls env script u px tcp script.tcp

/-- `open_stream`. -/
def openStream (env : Env) (opts : PerformOpts) (script : HopScript) (u : Uri) (px : Proxy) :
    Engine Z Stream := do
  match ← acquireStream opts script u px with
  | some s => pure s
  | none =>
    if u.isHttps ∧ opts.dial = false ∧ env.tlsAvailable ∧ env.tlsDials then
      openDialled script u px
    else openTcp env opts script u px

/-- Why a connection that is not HTTP/2 is refused where HTTP/2 is required. -/
def notH2 (u : Uri) : Fail :=
  Fail.set .connect .connect
    (if u.isHttps then
      "HTTP/2 is required, but " ++ text (u.host.take 200) ++ " did not negotiate it"
    else "HTTP/2 is required, but cleartext HTTP/2 to " ++ text (u.host.take 200) ++
      " cannot go through an HTTP proxy")

/-- `choose_protocol`: on success the stream may be the HTTP/2 one around it. -/
def chooseProtocol (opts : PerformOpts) (script : HopScript) (u : Uri) (px : Proxy)
    (s : Stream) : Engine Z Stream :=
  match s.conn with
  | .h2 _ => pure s
  | .h1 _ =>
    let want :=
      if u.isHttps then s.info.any (fun info => info.alpn = ascii "h2")
      else opts.http2 = .required && !px.inUse
    if want = false then
      if opts.http2 ≠ .required then pure s
      else Prog.onFailure (drop s) (onHost (Host.raise (notH2 u)))
    else
      match script.h2Wrap with
      | some f => Prog.onFailure (drop s) (onHost (Host.raise f))
      | none => newStream s.layers s.via (.h2 (H2.wrap script.h2Env maxHeaderBytes)) s.info

end Zuhttp
