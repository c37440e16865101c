import Zuhttp.Connect

/-!
# One request and the head of its response

The parts of `perform_hops` that build a hop's request, send it and read the response head.
-/

namespace Zuhttp

/-- What a chain of redirects has come to: the variables of `perform_hops` that one hop
leaves to the next. A body that was dropped is empty. -/
structure Chain where
  cur : Uri
  method : Bytes
  isHead : Bool
  body : Bytes
  srcLive : Bool
  stripCreds : Bool := false
  hops : Nat := 0
  trail : List Bytes := []

/-- `method_expects_content`. -/
def methodExpectsContent (method : Bytes) : Bool :=
  method = ascii "POST" ∨ method = ascii "PUT" ∨ method = ascii "PATCH"

/-! ### Building -/

/-- `zuh_headers_add_str`. -/
def addHeader (h : Headers) (name value : Bytes) : HostProg Headers :=
  match h.add name value with
  | .ok h => do
    Host.allocate
    pure h
  | .error rc => throw rc

/-- Whether a hop leaves a header of the caller out. -/
def skipsHeader (redact : Option RedactPolicy) (stripCreds : Bool) (name : Bytes) : Bool :=
  (stripCreds && isCredentialHeader redact name) ||
    asciiNcasecmp name (ascii "Content-Length") = 0

/-- The loop over the caller's headers; `i` counts them from 0. -/
def addCallerHeaders (redact : Option RedactPolicy) (stripCreds : Bool) :
    Nat → List (Bytes × Bytes) → Headers → HostProg Headers
  | _, [], h => pure h
  | i, (name, value) :: hs, h =>
    if skipsHeader redact stripCreds name then addCallerHeaders redact stripCreds (i + 1) hs h
    else do
      match ← Prog.attempt (addHeader h name value) with
      | .ok h => addCallerHeaders redact stripCreds (i + 1) hs h
      | .error rc =>
        Host.refuse rc .none ("request header " ++ toString (i + 1) ++ " could not be added")

/-- The credentials of a proxy, for a request in absolute form. -/
def addProxyAuth (px : Proxy) (h : Headers) : HostProg Headers :=
  if px.username = none then pure h
  else do
    match ← Host.render 4096 px.authValue with
    | none => throw .nomem
    | some v => addHeader h (ascii "Proxy-Authorization") v

/-- The request's target and the first fields of its list. A plain request through a proxy
names its target in full and carries the proxy's credentials. -/
def requestTarget (px : Proxy) (u : Uri) (rq : Request) : HostProg Request :=
  if px.inUse ∧ ¬u.isHttps then do
    Host.allocate
    let h ← addProxyAuth px rq.headers
    pure { rq with target := u.urlText, form := .absolute, headers := h }
  else pure rq

/-- How the body is framed over HTTP/1.1. -/
def requestBody (c : Chain) (rq : Request) : Request :=
  if c.srcLive then { rq with body := .chunked }
  else if c.body ≠ [] ∨ methodExpectsContent c.method then
    { rq with body := .length, contentLength := UInt64.ofNat c.body.length }
  else { rq with body := .none }

/-- A caller who wants the bytes of the wire asks for no coding. -/
def addIdentity (noDecode : Bool) (h : Headers) : HostProg Headers :=
  if noDecode then addHeader h (ascii "Accept-Encoding") (ascii "identity") else pure h

/-- The request of a hop, without the default headers. -/
def buildRequest (call : Call) (c : Chain) (px : Proxy) : HostProg Request := do
  match c.cur.hostHeader with
  | none => Host.refuse .url .none "host name too long"
  | some host =>
    let rq := { Request.init c.method c.cur.pathQuery (some host) with
      closeConnection := !call.opts.pool }
    let rq ← requestTarget px c.cur rq
    let rq := requestBody c rq
    let h ← addIdentity call.opts.noDecode rq.headers
    let h ← addCallerHeaders call.opts.redact c.stripCreds 0 call.req.headers h
    pure { rq with headers := h }

/-- `zuh_request_add_defaults`. -/
def addDefaults (opts : PerformOpts) (rq : Request) : HostProg Request :=
  match rq.addDefaults opts.userAgent with
  | .ok rq => do
    Host.allocate
    pure rq
  | .error rc => throw rc

/-- The error object is filled in where a step failed without one. -/
def orBuildError {α : Type} (m : HostProg α) : HostProg α := do
  match ← Prog.attempt m with
  | .ok a => pure a
  | .error rc => do
    let h ← get
    if h.err.isNone then Host.refuse rc .none "could not build the request" else throw rc

/-- The header list of an HTTP/2 request. -/
def finishH2 (opts : PerformOpts) (c : Chain) (rq : Request) : HostProg Request :=
  orBuildError (do
    let rq ← addDefaults opts rq
    if c.body ≠ [] then do
      let h ← addHeader rq.headers (ascii "Content-Length") (Decimal.decimalText c.body.length)
      pure { rq with headers := h }
    else pure rq)

/-- The size of the buffer a head is written in. -/
def wireMax : Nat := 64 * 1024

/-- `zuh_request_write` into that buffer. -/
def writeHead (rq : Request) : HostProg Bytes :=
  match Prog.exec rq.write (Buffer.init wireMax) with
  | (.ok _, b) => do
    Host.allocate
    pure b.data
  | (.error rc, b) =>
    if rc = .nomem ∧ b.hitLimit then
      Host.refuse .overflow .none "request headers exceed the 64 KiB limit"
    else throw rc

/-- The head of an HTTP/1.1 request and the request it was written from. -/
def finishH1 (opts : PerformOpts) (rq : Request) : HostProg (Request × Bytes) := do
  Host.allocate
  orBuildError (do
    let rq ← addDefaults opts rq
    let wire ← writeHead rq
    pure (rq, wire))

/-! ### Sending -/

variable {Z : Zlib}

open World

/-- The size line of a chunk. -/
def chunkSize (n : Nat) : Bytes := ascii (String.ofList (Nat.toDigits 16 n)) ++ ascii "\r\n"

def sendChunk (t : Transport) (d : Bytes) : HostProg Transport := do
  let t ← writeAll t (chunkSize d.length)
  let t ← writeAll t d
  writeAll t (ascii "\r\n")

/-- `src->next`, called during a hop; the answers behind its own are left. -/
def pullSource (hop : Nat) (answers : List (Except Fail Bytes)) : Engine Z Unit :=
  modify (fun w => { w with source :=
    { w.source with answers := answers, pulled := w.source.pulled ++ [hop] } })

/-- The loop that sends a streamed body piece by piece, over the answers of its source. -/
def sendPieces (hop : Nat) : List (Except Fail Bytes) → Transport → Engine Z (Transport × Nat)
  | [], t => do
    pullSource hop []
    let t ← onHost (sendChunk t [])
    pure (t, 0)
  | .error f :: answers, _ => do
    pullSource hop answers
    onHost (Host.raise f)
  | .ok d :: answers, t => do
    pullSource hop answers
    let t ← onHost (sendChunk t d)
    if d = [] then pure (t, 0)
    else do
      let (t, n) ← sendPieces hop answers t
      pure (t, d.length + n)

/-- The head and a body in memory: in one write where they fit the buffer together. -/
def sendMemory (t : Transport) (wire body : Bytes) : HostProg Transport :=
  if body = [] then writeAll t wire
  else if body.length ≤ wireMax - wire.length then do
    if ← Host.alloc then writeAll t (wire ++ body)
    else Host.refuse .nomem .none "out of memory"
  else do
    let t ← writeAll t wire
    writeAll t body

/-- The source's pieces, when the hop streams its body. -/
def sendSource (c : Chain) (t : Transport) : Engine Z (Transport × Nat) := do
  let w ← get
  if c.srcLive then sendPieces c.hops w.source.answers t else pure (t, 0)

/-- The entry of the last request in the log, once all of it was written. -/
def noteWritten (r : Sent) (bytes : Bytes) : Engine Z Unit :=
  modify (fun w => { w with sent := w.sent.dropLast ++ [{ r with wrote := some bytes }] })

/-- An HTTP/1.1 request on the wire. -/
def sendH1 (call : Call) (c : Chain) (px : Proxy) (s : Stream) (t : Transport) (rq : Request) :
    Engine Z Transport := do
  let (rq, wire) ← onHost (finishH1 call.opts rq)
  let w ← get
  let r : Sent := { hop := c.hops, uri := c.cur, proxy := px, via := s.via, h2 := false, rq := rq
                    body := c.body, streamed := c.srcLive, answers := w.source.answers }
  modify (fun w => { w with sent := w.sent ++ [r] })
  let t₁ ← onHost (sendMemory t wire c.body)
  let (t₂, n) ← sendSource c t₁
  noteWritten r (t₂.sent.drop t.sent.length)
  onHost (Host.traceAdd .requestSent (some c.method) (wire.length + c.body.length + n))
  pure t₂

/-! ### Receiving -/

/-- The stream ended before a response head did. -/
def headEnd {α : Type} : StreamEnd → HostProg α
  | .eof => Host.refuse .parse .read "connection closed before the response headers ended"
  | .fail f => Host.raise f

/-- One pass of the loop of `read_headers` up to its read. -/
def headAnswer (raw : Bytes) (lastLen : Nat) : HostProg (Option (Response × Nat)) := do
  match ← Response.parse raw lastLen with
  | some r => pure (some r)
  | none =>
    if raw.length ≥ maxHeaderBytes then
      Host.refuse .bodyLimit .read
        ("response header block exceeds " ++ toString maxHeaderBytes ++ " bytes")
    else pure none

/-- `read_headers` over the reads that are left: the response, what was read and not used,
and the reads after it. The buffer holds one read more than a head may have. -/
def readHeaders (ending : StreamEnd) :
    List Segment → Bytes → Nat → HostProg (Response × Bytes × List Segment)
  | [], raw, lastLen => do
    match ← headAnswer raw lastLen with
    | some (r, consumed) => pure (r, raw.drop consumed, [])
    | none => headEnd ending
  | seg :: reads, raw, lastLen => do
    match ← headAnswer raw lastLen with
    | some (r, consumed) => pure (r, raw.drop consumed, seg :: reads)
    | none =>
      Host.allocate
      if raw.length + seg.bytes.length > maxHeaderBytes + readChunk then throw .nomem
      else readHeaders ending reads (raw ++ seg.bytes) raw.length

/-- The heads up to the one of the response; every head takes up bytes, so that the bytes
there are bound their number. -/
def skipInterim (ending : StreamEnd) :
    Nat → List Segment → Bytes → HostProg (Response × Bytes × List Segment)
  | 0, _, _ => throw .parse
  | n + 1, reads, raw => do
    let (r, raw, reads) ← readHeaders ending reads raw 0
    if r.isInformational then skipInterim ending n reads raw else pure (r, raw, reads)

def traceHead (status : Int) (h : Headers) : HostProg Unit :=
  Host.traceAdd .headersReceived (some (ascii (toString status))) h.items.length

/-- The response head over HTTP/1.1 and the framing of its body. -/
def receiveH1 (c : Chain) (t : Transport) : HostProg Answer := do
  let (r, seed, reads) ← skipInterim t.ending (t.unread.length + 1) t.reads []
  traceHead r.status r.headers
  let fr ← Host.ofExcept (framingDecide r.headers r.status c.isHead)
  pure ⟨r.status, r.minorVersion, r.headers, .h1 fr { t with reads := reads } seed,
    fr.kind = .none⟩

def h2Request (c : Chain) (rq : Request) : H2Request :=
  { method := c.method
    scheme := if c.cur.isHttps then ascii "https" else ascii "http"
    authority := rq.host.getD []
    path := c.cur.pathQuery
    headers := rq.headers }

/-- Whether `zuh_h2_begin` gives nghttp2 the request. -/
def submits (h : H2) (hr : H2Request) : Bool := !h.failed && h.allowed && !H2.badTe hr

/-- The response head over HTTP/2. -/
def receiveH2 (script : HopScript) (c : Chain) (h : H2) : Except Fail H2.H2Response →
    HostProg Answer
  | .error f => Host.raise f
  | .ok r => do
    Host.traceAdd .requestSent (some c.method) script.h2BodySent
    traceHead r.status r.headers
    pure ⟨r.status, 0, r.headers, .h2 h,
      r.bodiless || c.isHead || r.status = 204 || r.status = 304⟩

/-- What a hop got: its stream, and the head of the response or the code of a failure after
which the stream is given back and not dropped. -/
structure Exchanged where
  stream : Stream
  answer : Except Code Answer

/-- The hop's request over HTTP/1.1, and its answer. -/
def exchangeH1 (call : Call) (c : Chain) (px : Proxy) (s : Stream) (t : Transport)
    (rq : Request) : Engine Z Exchanged := do
  let t ← Prog.onFailure (drop s) (sendH1 call c px s t rq)
  Prog.onFailure (drop s) (onHost Host.allocate)
  let answer ← Prog.attempt (onHost (receiveH1 c t))
  pure ⟨{ s with conn := .h1 t }, answer⟩

/-- The hop's request over HTTP/2, and its answer. -/
def exchangeOverH2 (call : Call) (script : HopScript) (c : Chain) (px : Proxy) (s : Stream)
    (h : H2) (rq : Request) : Engine Z Exchanged := do
  let rq ← Prog.onFailure (drop s) (onHost (finishH2 call.opts c rq))
  Prog.onFailure (drop s) (onHost Host.allocate)
  let hr := h2Request c rq
  let (h', res) := h.begin hr Headers.init
  Prog.onlyIf (submits h hr) (modify (fun w => { w with
    sent := w.sent ++ [{ hop := c.hops, uri := c.cur, proxy := px, via := s.via, h2 := true
                         rq := rq, body := c.body, streamed := c.srcLive }]
    source := if c.srcLive then
        { w.source with pulled := w.source.pulled ++ List.replicate script.pulls c.hops }
      else w.source }))
  let answer ← Prog.attempt (onHost (receiveH2 script c h' res))
  pure ⟨{ s with conn := .h2 h' }, answer⟩

/-- Everything of a hop up to the head of its response. -/
def exchange (env : Env) (call : Call) (c : Chain) (px : Proxy) : Engine Z Exchanged := do
  let script := env.hop c.hops
  let s ← openStream env call.opts script c.cur px
  let s ← chooseProtocol call.opts script c.cur px s
  let rq ← Prog.onFailure (drop s) (onHost (buildRequest call c px))
  match s.conn with
  | .h1 t => exchangeH1 call c px s t rq
  | .h2 h => exchangeOverH2 call script c px s h rq

end Zuhttp
