import Zuhttp.Redact
import Zuhttp.Trace
import Zuhttp.Uri

/-!
# What the engine runs on

The allocator, the clock, the caller's error object and the event log. Several allocations
of the source with one outcome are one answer of the allocator here.
-/

namespace Zuhttp

/-- Answers that are used up are successes and zeros. `err` is `none` where the error object
is clear, `trace` where nothing is logged. -/
structure Host where
  allocs : List Bool := []
  clock : List Int := []
  err : Option Error := none
  trace : Option Trace := none

/-- A program of the engine; it fails with the code the source returns. -/
abbrev HostProg := Prog Host Code

namespace Host

/-- Whether the allocations of a step succeed. -/
def alloc : HostProg Bool := do
  let h ← get
  match h.allocs with
  | [] => pure true
  | ok :: allocs => do
    set { h with allocs := allocs }
    pure ok

/-- `zuh_now_ms`. -/
def now : HostProg Int := do
  let h ← get
  match h.clock with
  | [] => pure 0
  | t :: clock => do
    set { h with clock := clock }
    pure t

/-- `zuh_error_set`. -/
def setError (rc : Code) (phase : Phase) (message : String) : HostProg Unit :=
  modify (fun h => { h with err := some ⟨rc, phase, message⟩ })

/-- `zuh_error_clear`. -/
def clearError : HostProg Unit := modify (fun h => { h with err := none })

variable {α : Type}

/-- `zuh_error_set` and a return of the same code. -/
def refuse (rc : Code) (phase : Phase) (message : String) : HostProg α := do
  setError rc phase message
  throw rc

/-- What a failed call left in the error object. -/
def note (f : Fail) : HostProg Unit :=
  match f.err with
  | some e => setError e.code e.phase e.message
  | none => pure ()

/-- A failed call whose code is returned. -/
def raise (f : Fail) : HostProg α := do
  note f
  throw f.rc

def ofExcept : Except Fail α → HostProg α
  | .ok a => pure a
  | .error f => raise f

/-- `rc = err->code ? err->code : ZUH_ERR_IO` after a failed write. -/
def raiseWrite (f : Fail) : HostProg α := do
  note f
  let h ← get
  match h.err with
  | some e => throw e.code
  | none => throw .io

/-- `if (!..) return ZUH_ERR_NOMEM`. -/
def allocate : HostProg Unit := do
  if ← alloc then pure () else throw .nomem

/-- A string built in a buffer of its own: `none` where an append or an allocation fails. -/
def render (max : Nat) (m : Writer Unit) : HostProg (Option Bytes) := do
  if ← alloc then
    match Prog.exec (do m; Buffer.cstr) (Buffer.init max) with
    | (.ok s, _) => pure (some s)
    | (.error _, _) => pure none
  else pure none

/-- `zuh_trace_add`. -/
def traceAdd (ev : Event) (detail : Option Bytes) (n : Nat) : HostProg Unit := do
  let h ← get
  match h.trace with
  | none => pure ()
  | some t =>
    if t.entries.length ≥ Trace.maxEntries then
      set { h with trace := some (t.add ev detail n 0) }
    else do
      let time ← now
      modify (fun h => { h with trace := h.trace.map (fun t => t.add ev detail n time) })

/-- `zuh_trace_add_url`: a URL that cannot be redacted is not shown. -/
def traceAddUrl (ev : Event) (p : Option RedactPolicy) (url : Option Bytes) (n : Nat) :
    HostProg Unit := do
  let h ← get
  match h.trace, url with
  | none, _ => pure ()
  | some _, none => traceAdd ev none n
  | some _, some url => do
    let shown ← render (64 * 1024) ((p.getD RedactPolicy.init).redactUrl url)
    traceAdd ev (some (shown.getD RedactPolicy.redacted)) n

end Host

/-- Bytes shown in a message. -/
def text (s : Bytes) : String := String.ofList (s.map (fun c => Char.ofNat c.toNat))

namespace Uri

def isV6 (u : Uri) : Bool := u.host.contains 58

/-- The host as it stands in an authority. -/
def bracketed (u : Uri) : Bytes := if u.isV6 then [91] ++ u.host ++ [93] else u.host

/-- `url_of`, when no allocation fails, and the text of `zuh_proxy_absolute_form`. -/
def urlText (u : Uri) : Bytes :=
  u.scheme ++ ascii "://" ++ u.bracketed ++
    (if u.portExplicit then 58 :: Decimal.decimalText u.port else []) ++ u.pathQuery

/-- `url_of`. -/
def urlOf (u : Uri) : HostProg (Option Bytes) := do
  if ← Host.alloc then pure (some u.urlText) else pure none

/-- `redacted_url_of`. -/
def redactedUrlOf (u : Uri) (p : Option RedactPolicy) : HostProg (Option Bytes) := do
  match ← u.urlOf with
  | none => pure none
  | some raw => Host.render 0 ((p.getD RedactPolicy.init).redactUrl raw)

/-- `host_header`: the buffer holds 300 bytes. -/
def hostHeader (u : Uri) : Option Bytes :=
  let out := u.bracketed ++
    (if u.port ≠ defaultPort u.scheme then 58 :: Decimal.decimalText u.port else [])
  if out.length < 300 then some out else none

end Uri

/-- `zuh_uri_parse` and `zuh_uri_resolve`, when no allocation fails. -/
structure UriLib where
  parse : Bytes → Except Code Uri
  resolve : Uri → Bytes → Except Code Uri

end Zuhttp
