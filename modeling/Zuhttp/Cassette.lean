import Zuhttp.Library.Assoc
import Zuhttp.Redact

/-!
# Cassettes

`record.R`, with what it uses of `redact.R`, `perform.R` and `response.R`. The transport behind
a cassette, the clock and the function of a streamed body answer from outside; the file is the
list of interactions in it. An R condition is its message.
-/

namespace Zuhttp

/-- `ZUH_R_TEXT_MAX`. -/
def textMax : Nat := 2 ^ 20

/-- `redact_one`. -/
def redactOne (fn : RedactPolicy → Bytes → Writer Unit) (p : RedactPolicy) (text : Bytes) : Bytes :=
  if text.length > textMax then RedactPolicy.redacted
  else
    match Prog.exec (fn p text) (Buffer.init (textMax * 2)) with
    | (.ok (), b) => b.data
    | (.error _, _) => RedactPolicy.redacted

/-- An element of a header vector. -/
structure HeaderField where
  name : Bytes
  value : Bytes
  named : name ≠ []
  deriving DecidableEq

/-- A request on its way to a transport. The pieces are what the function of a streamed body
returns before its NULL, `none` where that is no raw vector. -/
structure ZuRequest where
  method : Option Bytes := none
  url : Option Bytes := none
  headers : List HeaderField := []
  body : Bytes := []
  bodyStream : Option (List (Option Bytes)) := none
  bodyKind : Option Bytes := none
  deriving DecidableEq

/-- What the reads of a streamed response return before the empty one, and its trailers or the
message of the read that fails. -/
structure ResponseStream where
  pieces : List Bytes
  ending : Except Bytes (List HeaderField)

structure ZuResponse where
  status : Int
  headers : List HeaderField
  body : Bytes
  url : Option Bytes
  tlsVersion : Option Bytes
  redirects : Option Int
  trailers : List HeaderField
  stream : Option ResponseStream := none
  replayed : Bool := false

/-- `collect_body_stream`. -/
def collectBodyStream (req : ZuRequest) : Except Bytes ZuRequest :=
  match req.bodyStream with
  | none => .ok req
  | some answers =>
    match answers.mapM id with
    | some pieces => .ok { req with body := pieces.flatten, bodyStream := none }
    | none =>
      .error (ascii "the request body function must return a raw vector, or NULL at the end")

namespace RedactPolicy

/-- `zu_redact_headers_for_display`. -/
def redactHeadersForDisplay (p : RedactPolicy) (headers : List HeaderField) : List HeaderField :=
  headers.map (fun h => if p.isSecretHeader h.name then { h with value := redacted } else h)

/-- `redact_form_bytes`. -/
def redactFormBytes (p : RedactPolicy) (body : Bytes) : Bytes :=
  redactOne redactFormBody p (body.filter (· ≠ 0))

end RedactPolicy

/-- `is_form_body`. -/
def isFormBody (req : ZuRequest) : Bool :=
  req.bodyKind = some (ascii "form") ∨
    req.headers.any (fun h => h.name.map lower = ascii "content-type" ∧
      ascii "application/x-www-form-urlencoded" <:+: h.value.map lower)

/-- `redact_request_fields`. The headers that `is_form_body` reads are the redacted ones. -/
def RedactPolicy.redactRequestFields (p : RedactPolicy) (req : ZuRequest) : ZuRequest :=
  let req := { req with url := req.url.map (redactOne redactUrl p) }
  let req := { req with headers := p.redactHeadersForDisplay req.headers }
  if req.body ≠ [] ∧ isFormBody req then { req with body := p.redactFormBytes req.body } else req

def upper (c : UInt8) : UInt8 := if 97 ≤ c ∧ c ≤ 122 then c - 32 else c

/-- What a cassette holds of a request. -/
structure RecordedRequest where
  method : Bytes
  url : Bytes
  headers : List HeaderField
  body : Bytes
  deriving DecidableEq

/-- `cassette_request`. -/
def cassetteRequest (p : RedactPolicy) (req : ZuRequest) : RecordedRequest :=
  let r := p.redactRequestFields req
  { method := (r.method.getD (ascii "GET")).map upper
    url := r.url.getD []
    headers := r.headers
    body := r.body }

def hexDigit (n : Nat) : UInt8 := UInt8.ofNat (if n < 10 then 48 + n else 87 + n)

/-- A raw vector pasted together. -/
def hexBytes (body : Bytes) : Bytes :=
  body.flatMap (fun c => [hexDigit (c.toNat / 16), hexDigit (c.toNat % 16)])

/-- `interaction_key`. -/
def interactionKey (rr : RecordedRequest) : Bytes :=
  rr.method ++ 31 :: (rr.url ++ 31 :: hexBytes rr.body)

/-- What a cassette holds of a response. -/
structure RecordedResponse where
  status : Int
  headers : List HeaderField
  body : Bytes
  url : Bytes
  tlsVersion : Option Bytes
  redirects : Int
  trailers : List HeaderField
  deriving DecidableEq

/-- `cassette_response`. -/
def cassetteResponse (p : RedactPolicy) (resp : ZuResponse) : RecordedResponse where
  status := resp.status
  headers := p.redactHeadersForDisplay resp.headers
  body := resp.body
  url := redactOne RedactPolicy.redactUrl p (resp.url.getD [])
  tlsVersion := resp.tlsVersion
  redirects := resp.redirects.getD 0
  trailers := p.redactHeadersForDisplay resp.trailers

/-- `replay_response`. -/
def replayResponse (rec : RecordedResponse) : ZuResponse where
  status := rec.status
  headers := rec.headers
  body := rec.body
  url := some rec.url
  tlsVersion := rec.tlsVersion
  redirects := some rec.redirects
  trailers := rec.trailers
  replayed := true

/-- `drain_stream`, for a response that is streamed. -/
def drainStream (resp : ZuResponse) : Except Bytes ZuResponse :=
  match resp.stream with
  | none => .ok resp
  | some s =>
    match s.ending with
    | .error message => .error message
    | .ok trailers =>
      .ok { resp with trailers := trailers, body := s.pieces.flatten, stream := none }

structure Interaction where
  key : Bytes
  request : RecordedRequest
  response : RecordedResponse
  recordedAt : Bytes
  deriving DecidableEq

/-- The tape in the file, and the requests that the transport behind it was called with. -/
structure Cassette where
  tape : List Interaction := []
  asked : List ZuRequest := []

inductive CassetteMode
  | auto
  | replay
  | record
  deriving DecidableEq

/-- A request through a cassette transport; `answer` is what the transport behind it returns if
it is called, `now` the time then. -/
structure CassetteCall where
  policy : RedactPolicy
  mode : CassetteMode
  file : Bytes
  req : ZuRequest
  answer : Except Bytes ZuResponse
  now : Bytes

/-- The message of a miss in `"replay"` mode. -/
def missMessage (file : Bytes) (rr : RecordedRequest) : Bytes :=
  ascii "no recorded interaction for " ++ (rr.method ++ (ascii " " ++ (rr.url ++
    (ascii "\n  cassette: " ++ (file ++ ascii "\n  record it first with mode = \"auto\"")))))

/-- The entry of a response under the key of its request. -/
def entryOf (call : CassetteCall) (req : ZuRequest) (resp : ZuResponse) : Interaction :=
  let rr := cassetteRequest call.policy req
  { key := interactionKey rr
    request := rr
    response := cassetteResponse call.policy resp
    recordedAt := call.now }

/-- The second half of `zu_transport_perform.zu_cassette_transport`: the request is performed,
a streamed response read to its end, and the entry put on the tape. -/
def recordInteraction (call : CassetteCall) (req : ZuRequest) (w : Cassette) :
    Except Bytes ZuResponse × Cassette :=
  let w := { w with asked := w.asked ++ [req] }
  match call.answer.bind drainStream with
  | .error message => (.error message, w)
  | .ok resp =>
    (.ok resp, { w with tape := Assoc.put Interaction.key w.tape (entryOf call req resp) })

/-- `zu_transport_perform.zu_cassette_transport`. -/
def cassettePerform (call : CassetteCall) (w : Cassette) : Except Bytes ZuResponse × Cassette :=
  match collectBodyStream call.req with
  | .error message => (.error message, w)
  | .ok req =>
    let rr := cassetteRequest call.policy req
    match call.mode, Assoc.lookup Interaction.key w.tape (interactionKey rr) with
    | .auto, some i => (.ok (replayResponse i.response), w)
    | .replay, some i => (.ok (replayResponse i.response), w)
    | .replay, none => (.error (missMessage call.file rr), w)
    | .auto, none => recordInteraction call req w
    | .record, _ => recordInteraction call req w

/-- The calls one after the other. -/
def cassetteRun : List CassetteCall → Cassette → List (Except Bytes ZuResponse) × Cassette
  | [], w => ([], w)
  | call :: calls, w =>
    let (r, w) := cassettePerform call w
    let (rs, w) := cassetteRun calls w
    (r :: rs, w)

end Zuhttp
