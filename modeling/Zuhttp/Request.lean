import Zuhttp.Buffer

/-!
# Building a request

`zuh_request.c`. A NULL method or target is refused like an empty one.
-/

namespace Zuhttp

inductive TargetForm
  | origin | absolute | authority
  deriving DecidableEq, Repr

inductive BodyFraming
  | none | length | chunked
  deriving DecidableEq, Repr

structure Request where
  method : Bytes
  target : Bytes
  host : Option Bytes
  form : TargetForm
  headers : Headers
  body : BodyFraming
  contentLength : UInt64
  closeConnection : Bool
  deriving DecidableEq

def methodValid (method : Bytes) : Bool := headerNameValid method

def isTargetByte (c : UInt8) : Bool := !(c ≤ 32 ∨ c = 127)

def targetValid (target : Bytes) : Bool := !target.isEmpty && target.all isTargetByte

namespace Request

/-- `zuh_request_init`: no limit on what is sent. -/
def init (method target : Bytes) (host : Option Bytes) : Request :=
  { method := method, target := target, host := host, form := .origin
    headers := Headers.initLimited 0 0 0 0, body := .none, contentLength := 0
    closeConnection := false }

/-- The `zuh_headers_has` and `zuh_headers_add_str` of one default. -/
def addDefault (h : Headers) (name value : Bytes) : Except Code Headers :=
  if h.has name then .ok h else h.add name value

/-- `zuh_request_add_defaults`. -/
def addDefaults (r : Request) (userAgent : Option Bytes) : Except Code Request := do
  let h ← match r.host with
    | some host => addDefault r.headers (ascii "Host") host
    | none => .ok r.headers
  let h ← addDefault h (ascii "User-Agent") (userAgent.getD (ascii "zuhttp"))
  let h ← addDefault h (ascii "Accept") (ascii "*/*")
  let h ← addDefault h (ascii "Accept-Encoding") (ascii "gzip")
  let h ← addDefault h (ascii "Connection")
    (if r.closeConnection then ascii "close" else ascii "keep-alive")
  .ok { r with headers := h }

/-- The framing field of the body kind, unless the list has one of that name. -/
def writeFraming (r : Request) : Writer Unit :=
  match r.body with
  | .length =>
    if r.headers.has (ascii "Content-Length") then pure ()
    else do
      Buffer.append (ascii "Content-Length: ")
      Buffer.appendU64 r.contentLength
      Buffer.append (ascii "\r\n")
  | .chunked =>
    if r.headers.has (ascii "Transfer-Encoding") then pure ()
    else Buffer.append (ascii "Transfer-Encoding: chunked\r\n")
  | .none => pure ()

/-- `zuh_request_write`. -/
def write (r : Request) : Writer Unit :=
  if ¬methodValid r.method then throw .parse
  else if ¬targetValid r.target then throw .parse
  else if r.form ≠ .authority ∧ ¬r.headers.has (ascii "Host") then throw .parse
  else if r.headers.has (ascii "Content-Length") ∧ r.headers.has (ascii "Transfer-Encoding") then
    throw .parse
  else do
    Buffer.append r.method
    Buffer.appendByte 32
    Buffer.append r.target
    Buffer.append (ascii " HTTP/1.1\r\n")
    r.headers.write
    r.writeFraming
    Buffer.append (ascii "\r\n")

end Request

end Zuhttp
