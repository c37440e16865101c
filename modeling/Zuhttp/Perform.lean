import Zuhttp.Exchange

/-!
# Performing a request

`perform_hops` and `zuh_engine_perform` of `zuh_engine.c`: the checks on the caller's
request, the body of every hop, the decision on a redirect and the loop over the hops.
-/

namespace Zuhttp

/-! ### The caller's request -/

/-- `ZUH_MAX_HOST_LEN`. -/
def maxHostLen : Nat := 253

/-- `check_host`. -/
def checkHost (u : Uri) : HostProg Unit :=
  if u.host.length ≤ maxHostLen then pure ()
  else Host.refuse .url .none ("host name too long (" ++ toString u.host.length ++
    " characters; the limit is " ++ toString maxHostLen ++ ")")

/-- The digit loop over a caller's Content-Length: the value, whether it had digits, and the
rest of the text. -/
def scanDigits : Nat → Bool → Bytes → Option (Nat × Bool × Bytes)
  | n, digits, c :: s =>
    if Ascii.isDigit c then
      if n > (u64Max - 9) / 10 then none else scanDigits (n * 10 + (c.toNat - 48)) true s
    else some (n, digits, c :: s)
  | n, digits, [] => some (n, digits, [])

/-- Whether a Content-Length of the caller names the length of the body. -/
def lengthMatches (v : Bytes) (bodyLen : Nat) : Bool :=
  match scanDigits 0 false (v.dropWhile isOws) with
  | some (n, digits, rest) => digits && rest.all isOws && n = bodyLen
  | none => false

/-- `check_caller_framing`. -/
def checkCallerFraming (bodyLen : Nat) (streamed : Bool) : List (Bytes × Bytes) → HostProg Unit
  | [] => pure ()
  | (name, v) :: hs =>
    if asciiNcasecmp name (ascii "Transfer-Encoding") = 0 then
      Host.refuse .parse .none ("a Transfer-Encoding header cannot be set: zuhttp " ++
        "frames the body itself, with Content-Length")
    else if asciiNcasecmp name (ascii "Content-Length") = 0 then
      if streamed then
        Host.refuse .parse .none ("a Content-Length header cannot be set on a " ++
          "streamed body, which carries no length: zuhttp " ++
          "sends it chunked, or as HTTP/2 DATA")
      else if lengthMatches v bodyLen then checkCallerFraming bodyLen streamed hs
      else
        Host.refuse .parse .none ("a Content-Length header of '" ++ text (v.take 40) ++
          "' does not match the " ++ toString bodyLen ++ "-byte body")
    else checkCallerFraming bodyLen streamed hs

def valueRule : String :=
  "has an invalid value: a value must not contain CR, LF, NUL or other control " ++
    "characters (§17.1)"

/-- `check_caller_headers`; `i` counts the headers from 0. -/
def checkCallerHeaders : Nat → List (Bytes × Bytes) → HostProg Unit
  | _, [] => pure ()
  | i, (name, v) :: hs =>
    if ¬headerNameValid name then
      Host.refuse .parse .none ("request header " ++ toString (i + 1) ++
        " has an invalid name: " ++ "a name must be an RFC 7230 token (§17.1)")
    else if ¬headerValueValid v then
      Host.refuse .parse .none
        ((if name.length ≤ 64 then "request header " ++ "`" ++ text name ++ "` "
          else "request header " ++ toString (i + 1) ++ " ") ++ valueRule)
    else checkCallerHeaders (i + 1) hs

/-- The URL of the call. The text of one that is refused is shown with its secrets replaced. -/
def parseUrl (lib : UriLib) (call : Call) : HostProg Uri := do
  if ¬(← Host.alloc) then Host.refuse .nomem .none "out of memory"
  else
    match lib.parse call.url with
    | .ok u => pure u
    | .error rc =>
      if rc = .nomem then Host.refuse .nomem .none "out of memory"
      else do
        match ← Host.render 0 ((call.opts.redact.getD RedactPolicy.init).redactUrl call.url) with
        | some shown => Host.refuse .url .none ("not a usable URL: " ++ text shown)
        | none => Host.refuse .url .none "not a usable URL"

/-- What is checked before a connection is opened, and the chain of the first hop. -/
def startChain (lib : UriLib) (call : Call) (srcLive : Bool) : HostProg Chain := do
  let cur ← parseUrl lib call
  checkHost cur
  checkCallerFraming call.req.body.length srcLive call.req.headers
  checkCallerHeaders 0 call.req.headers
  let method := call.req.method.getD (ascii "GET")
  let trail ← trailAdd [] method cur
  pure { cur := cur, method := method, isHead := method = ascii "HEAD", body := call.req.body
         srcLive := srcLive, trail := trail }

/-! ### The body of a hop -/

variable {Z : Zlib}

open World

/-- `ZUH_DEFAULT_MAX_BODY` and `ZUH_MAX_REDIRECT_BODY`. -/
def defaultMaxBody : Nat := 16 * 1024 * 1024
def maxRedirectBody : Nat := 64 * 1024

/-- `may_follow`. -/
def mayFollow (opts : PerformOpts) (a : Answer) : Bool :=
  statusIsRedirect a.status && 0 < opts.maxRedirects && a.headers.has (ascii "Location")

def bodyCap (opts : PerformOpts) (follow : Bool) : Nat :=
  if follow then maxRedirectBody
  else if opts.maxBody ≠ 0 then opts.maxBody
  else defaultMaxBody

def memoryFull : Fail := Fail.set .nomem .read "out of memory buffering the response body"

/-- `mem_sink`, over an empty result body. -/
def memSink (full : List Bytes → Bytes → Bool) : Sink :=
  { respond := fun handed data => if full handed data then .refuse memoryFull false else .accept }

/-- How reading a body ended, before the engine looks at it. -/
def bodyFailure (input : BodyInput) (sink : Sink) (h : Headers) (cap : Nat) (noDecode : Bool) :
    Option Fail :=
  match BodyPipe.init (Z := Z) sink h noDecode cap with
  | .error f => some f
  | .ok (p, _) => (input.source p cap).readAll.2

/-- The body of a hop where the set-up of its pipe finds no memory. -/
def noPipe (follow : Bool) (a : Answer) (sink : Sink) (cap : Nat) : Received Z :=
  settle follow a.headers a.minorVersion (a.input.source (BodyPipe.fresh sink cap) cap)
    (some (Fail.bare .nomem))

/-- What a hop's body leaves in the error object: a failure that is tolerated is cleared. -/
def noteBody (follow : Bool) (failure : Option Fail) : HostProg Unit :=
  match failure with
  | none => pure ()
  | some f => do
    Host.note f
    if follow ∧ (f.rc = .bodyLimit ∨ f.rc = .parse) then Host.clearError else pure ()

/-- The stream with what its connection is after the body. -/
def Stream.after (s : Stream) : BodySource Z → Stream
  | .h1 st => { s with conn := .h1 st.stream }
  | .h2 st => { s with conn := .h2 st.conn }

/-- What a body that is not a redirect's leaves in the result and in the log. -/
def reportBody (follow : Bool) (p : BodyPipe Z) : Engine Z Unit :=
  if follow then pure ()
  else do
    setResult (fun r => { r with trailers := p.trailers })
    onHost (Host.traceAdd .bodyChunk (some (ascii "body")) p.sink.written)

/-- What becomes of a body that was read and of its connection. -/
def takeBody (call : Call) (c : Chain) (px : Proxy) (s : Stream) (follow : Bool)
    (failure : Option Fail) (got : Received Z) : Engine Z Headers := do
  onHost (noteBody follow failure)
  modify (fun w =>
    if follow ∨ w.sink.isNone then
      { w with result := { w.result with body := got.src.pipe.sink.bytes } }
    else { w with sink := some got.src.pipe.sink })
  reportBody follow got.src.pipe
  doneWithStream call.opts c.cur px (s.after got.src) got.reuse
  match got.res with
  | none => pure got.headers
  | some f => throw f.rc

/-- The sink a hop's body is read into. -/
def hopSink (full : List Bytes → Bytes → Bool) (follow : Bool) (sink : Option Sink) : Sink :=
  if follow then memSink full else { sink.getD (memSink full) with written := 0 }

/-- The body that is read into a sink. -/
def readBody (env : Env) (call : Call) (c : Chain) (px : Proxy) (s : Stream) (a : Answer)
    (follow : Bool) : Engine Z Headers := do
  let w ← get
  let sink := hopSink (env.hop c.hops).memoryFull follow w.sink
  let cap := bodyCap call.opts follow
  let noDecode := call.opts.noDecode || follow || a.bodiless
  if ← onHost Host.alloc then
    takeBody call c px s follow (bodyFailure (Z := Z) a.input sink a.headers cap noDecode)
      (receiveBody follow a.input sink a.headers a.minorVersion cap noDecode)
  else takeBody call c px s follow (some (Fail.bare .nomem)) (noPipe follow a sink cap)

/-- The verdict on a connection whose body could not be opened. -/
def BodyInput.failedReuse (h : Headers) (minor : Int) (rc : Code) : BodyInput → Reuse
  | .h1 fr _ _ => reuseDecide rc fr h minor
  | .h2 conn => h2Reuse rc conn

/-- `zuh_h2_own_body`: the copy of a body that is still to be sent. -/
def ownBody (c : Chain) : BodyInput → HostProg Bool
  | .h2 _ => if c.body ≠ [] ∧ c.srcLive = false then Host.alloc else pure true
  | .h1 _ _ _ => pure true

/-- The memory `open_body_new` needs. -/
def openBodyMemory (c : Chain) (input : BodyInput) : HostProg (Option Fail) := do
  if (← ownBody c input) = false then pure (some (Fail.set .nomem .write "out of memory"))
  else do
    if ← Host.alloc then pure none else pure (some (Fail.set .nomem .read "out of memory"))

/-- `open_body_new`. -/
def openBodyNew (memory : Option Fail) (a : Answer) (cap : Nat) (noDecode : Bool) :
    Except Fail (OpenBody Z × Headers) :=
  match memory with
  | some f => .error f
  | none => OpenBody.new a.input a.headers a.minorVersion cap noDecode

/-- Whether an unread body takes the source over: over HTTP/2 it may still be sending its
pieces. -/
def inherits (c : Chain) (a : Answer) : Bool :=
  match a.input with
  | .h1 _ _ _ => false
  | .h2 _ => c.srcLive

/-- The body that is left to the caller to read, with its connection. -/
def holdBody (call : Call) (c : Chain) (px : Proxy) (s : Stream) (a : Answer) :
    Engine Z Headers := do
  let noDecode := call.opts.noDecode || a.bodiless
  let memory ← onHost (openBodyMemory c a.input)
  match openBodyNew (Z := Z) memory a (bodyCap call.opts false) noDecode with
  | .error f => do
    onHost (Host.note f)
    onHost (Host.traceAdd .bodyChunk (some (ascii "body")) 0)
    doneWithStream call.opts c.cur px s (a.input.failedReuse a.headers a.minorVersion f.rc)
    throw f.rc
  | .ok (b, h) => do
    let key ← onHost (releaseKey call.opts c.cur px)
    modify (fun w => { w with
      result := { w.result with openBody := some ⟨b, s, key, inherits c a && w.source.release⟩ }
      source := if inherits c a then { w.source with next := false, release := false }
        else w.source })
    pure h

/-- Everything of a hop behind the head of its response: the response's headers. -/
def receive (env : Env) (call : Call) (c : Chain) (px : Proxy) (s : Stream) (a : Answer) :
    Engine Z Headers := do
  let w ← get
  let follow := mayFollow call.opts a
  if call.opts.streamBody ∧ follow = false ∧ w.sink.isNone then holdBody call c px s a
  else readBody env call c px s a follow

/-- The verdict on a connection on which no response head came. -/
def Conn.failedReuse (rc : Code) : Conn → Reuse
  | .h1 _ => reuseDecide rc ⟨.untilClose, 0, false⟩ Headers.init 0
  | .h2 h => h2Reuse rc h

/-! ### The redirect -/

/-- Where the request goes next, unless that is refused. -/
def nextHop (lib : UriLib) (opts : PerformOpts) (status : Int) (loc : Bytes) (c : Chain) :
    HostProg (Option Chain) := do
  if ¬(← Host.alloc) then Host.refuse .nomem .none "out of memory"
  else
    match lib.resolve c.cur loc with
    | .error rc =>
      if rc = .nomem then Host.refuse .nomem .none "out of memory"
      else Host.refuse .url .none "redirect Location is not a usable URL"
    | .ok next =>
      let policy := { RedirectPolicy.init with maxRedirects := opts.maxRedirects.toNat }
      let dec ← Host.ofExcept (redirectDecide policy status c.method c.cur next c.hops)
      if dec.action = .none then pure none
      else
        let c' := { c with
          method := if dec.rewriteToGet then ascii "GET" else c.method
          isHead := if dec.rewriteToGet then false else c.isHead
          body := if dec.dropBody then [] else c.body }
        if c.srcLive ∧ dec.dropBody = false then
          Host.refuse .bodyNotReplayable .none ("a " ++ toString status ++
            " redirect would resend a streamed request body, which cannot be replayed")
        else
          pure (some { c' with
            srcLive := false
            stripCreds := c.stripCreds || dec.stripCredentials
            cur := next
            hops := c.hops + 1 })

/-- The check for a loop. -/
def enterHop (c : Chain) : HostProg Chain := do
  match ← Prog.attempt (do checkHost c.cur; trailAdd c.trail c.method c.cur) with
  | .ok trail => pure { c with trail := trail }
  | .error rc =>
    if rc = .redirect then
      Host.refuse rc .none ("redirect loop: hop " ++ toString c.hops ++
        " returns to a URL this request already visited")
    else Host.refuse rc .none "out of memory"

/-- What a hop leads to. -/
inductive HopEnd
  | follow (c : Chain)
  | finish (c : Chain)

/-- The end of a hop that is not followed: bytes held for a redirect are the caller's. -/
def flushHeld (c : Chain) : Engine Z HopEnd := do
  let w ← get
  match w.sink with
  | none => pure (.finish c)
  | some sink =>
    if w.result.body = [] then pure (.finish c)
    else
      let (sink, f) := sink.write w.result.body
      set { w with sink := some sink, result := { w.result with body := [] } }
      match f with
      | none => pure (.finish c)
      | some f => onHost (Host.raise f)

/-- The response is in: it is followed or it is the result. -/
def followOrFinish (env : Env) (call : Call) (c : Chain) : Engine Z HopEnd := do
  let w ← get
  if ¬(statusIsRedirect w.result.status ∧ call.opts.maxRedirects > 0) then flushHeld c
  else
    match w.result.headers.get (ascii "Location") with
    | none => pure (.finish c)
    | some loc => do
      match ← onHost (nextHop env.uri call.opts w.result.status loc c) with
      | none => flushHeld c
      | some c' => do
        setResult (fun r => { r with redirects := c'.hops })
        let c' ← onHost (enterHop c')
        setResult (fun r => { r with body := [], headers := Headers.init })
        onHost (do
          let h ← get
          if h.trace.isSome then do
            let target ← c'.cur.urlOf
            Host.traceAddUrl .redirectFollowed call.opts.redact target c'.hops
          else pure ())
        pure (.follow c')

/-! ### The loop -/

/-- One pass of the loop of `perform_hops`. -/
def hop (env : Env) (call : Call) (c : Chain) : Engine Z HopEnd := do
  let px ← onHost (Proxy.resolve env.uri env.getenv call.opts.proxy call.opts.proxySet c.cur)
  let ex ← exchange env call c px
  match ex.answer with
  | .error rc => do
    doneWithStream call.opts c.cur px ex.stream (ex.stream.conn.failedReuse rc)
    throw rc
  | .ok a => do
    modify (fun w => { w with answered := w.answered ++ [a] })
    let h ← receive env call c px ex.stream a
    setResult (fun r => { r with
      status := a.status
      httpVersion := a.minorVersion
      httpMajor := match a.input with
        | .h1 _ _ _ => 1
        | .h2 _ => 2
      headers := h })
    followOrFinish env call c

/-- The hops, up to a number that the limit on redirects keeps them from reaching. -/
def hops (env : Env) (call : Call) : Nat → Chain → Engine Z Chain
  | 0, _ => throw .tooManyRedirects
  | n + 1, c => do
    match ← hop env call c with
    | .follow c => hops env call n c
    | .finish c => pure c

/-- What is left when the response is the result. -/
def finishResult (call : Call) (c : Chain) : Engine Z Unit := do
  let w ← get
  onHost (Host.traceAdd .requestDone none w.result.status.toNat)
  match ← onHost (c.cur.redactedUrlOf call.opts.redact) with
  | none => throw .nomem
  | some url => setResult (fun r => { r with finalUrl := some url })

/-- `perform_hops`. -/
def performHops (env : Env) (call : Call) : Engine Z Unit :=
  Prog.onFailure freeResult (do
    setResult (fun _ => {})
    onHost (Host.traceAddUrl .requestStart call.opts.redact (some call.url) 0)
    let w ← get
    let c ← onHost (startChain env.uri call w.source.next)
    let c ← hops env call (call.opts.maxRedirects.toNat + 1) c
    finishResult call c)

/-- `src.release`, unless an open body took the source over. -/
def releaseSource (w : World Z) : World Z :=
  if w.source.release then w.callRelease else w

/-- The error object of a failure that left it clear. -/
def fillError (rc : Code) : HostProg Unit := do
  let h ← get
  if h.err.isNone then
    Host.setError rc .none (if rc = .nomem then "out of memory" else "request failed")
  else pure ()

/-- What a call starts in: a source that was not used, and nothing opened or sent. -/
def World.start (host : Host) (next release : Bool) (answers : List (Except Fail Bytes))
    (sink : Option Sink) : World Z :=
  { host := host, source := { next := next, release := release, answers := answers }, sink := sink }

/-- `zuh_engine_perform`. -/
def perform (env : Env) (call : Call) : Engine Z Unit := do
  onHost Host.clearError
  let res ← Prog.attempt (performHops env call)
  modify releaseSource
  match res with
  | .ok _ => pure ()
  | .error rc => do
    onHost (fillError rc)
    throw rc

/-- The caller reads or aborts the unread body of the result. -/
def World.callBody (cs : List OpenBody.Call) (w : World Z) : World Z :=
  { w with result := { w.result with
    openBody := w.result.openBody.map (fun o => { o with body := o.body.calls cs }) } }

/-! ### Simple environments -/

/-- What the peer sends in one read. -/
def Segment.text (s : String)
    (h : ascii s ≠ [] ∧ (ascii s).length ≤ readChunk := by decide +kernel) : Segment :=
  ⟨ascii s, h.1, h.2⟩

lemma okReply_fits : ascii "HTTP/1.1 200 OK\r\nContent-Length: 0\r\n\r\n" ≠ [] ∧
    (ascii "HTTP/1.1 200 OK\r\nContent-Length: 0\r\n\r\n").length ≤ readChunk := by
  decide +kernel

/-- The http URL of a host on its default port. -/
def Uri.http (host path : String)
    (h : (ascii host).map lower = ascii host := by decide +kernel) : Uri where
  scheme := ascii "http"
  host := ascii host
  pathQuery := ascii path
  userinfo := none
  port := 80
  portExplicit := false
  schemeKnown := Uri.http_known
  hostLower := h
  portValid := Uri.port80_valid

lemma lower_a : (ascii "a").map lower = ascii "a" := by decide +kernel

/-- A library that knows some URLs. -/
def UriLib.known (urls : List (Bytes × Uri)) : UriLib where
  parse s := (urls.lookup s).elim (.error .url) .ok
  resolve _ loc := (urls.lookup loc).elim (.error .url) .ok

/-- A new TCP connection on which the peer sends `reads`. -/
def HopScript.plain (reads : List Segment) : HopScript where
  resolution := .addresses [.accepted (ascii "10.0.0.1")]
  tcp := { reads := reads }
  handshake := .error (Fail.bare .io)
  dialled := .error (Fail.bare .io)

end Zuhttp
