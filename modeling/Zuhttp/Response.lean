import Zuhttp.Framing
import Zuhttp.Host
import Zuhttp.Phr

/-!
# Response heads

The head parsing of `zuh_response.c`.
-/

namespace Zuhttp

structure Response where
  status : Int
  minorVersion : Int
  reason : Bytes
  headers : Headers

namespace Response

/-- `ZUH_REASON_MAX`. -/
def reasonMax : Nat := 128

/-- `zuh_response_init`. -/
def init : Response := ⟨0, 0, [], Headers.init⟩

/-- `zuh_response_is_informational`. -/
def isInformational (r : Response) : Bool := 100 ≤ r.status ∧ r.status ≤ 199

def headerRefusal (rc : Code) (h : rc ≠ .ok) : Fail :=
  Fail.set rc .read
    (if rc = .bodyLimit then "response header limit exceeded" else "invalid response header") h

/-- The loop that stores the parsed fields. -/
def addAll (h : Headers) : List Phr.PhrHeader → Except Fail Headers
  | [] => .ok h
  | f :: fs =>
    match f.name with
    | none => .error (Fail.set .parse .read "obsolete line folding in response headers")
    | some name =>
      match h.add name f.value with
      | .ok h => addAll h fs
      | .error rc =>
        .error (if hrc : rc = .ok then Fail.bare .parse else headerRefusal rc hrc)

/-- The checks on the status line. -/
def statusRefusal (p : Phr.PhrResponse) : Option Fail :=
  if p.minorVersion ≠ 0 ∧ p.minorVersion ≠ 1 then
    some (Fail.set .parse .read
      ("unsupported HTTP/1." ++ toString p.minorVersion ++ " response"))
  else if p.status < 100 ∨ p.status > 599 then
    some (Fail.set .parse .read ("invalid status code " ++ toString p.status))
  else none

/-- `zuh_response_parse`: the response and the length of its head, or `none` while the head
is incomplete. -/
def parse (buf : Bytes) (lastLen : Nat) : HostProg (Option (Response × Nat)) :=
  match Phr.parseResponse 100 lastLen buf with
  | .incomplete => pure none
  | .bad => Host.refuse .parse .read "malformed response head"
  | .ok p rest =>
    match statusRefusal p with
    | some f => Host.raise f
    | none => do
      if ← Host.alloc then
        let h ← Host.ofExcept (addAll Headers.init p.headers)
        pure (some (⟨p.status, p.minorVersion, p.msg.take (reasonMax - 1), h⟩,
          buf.length - rest.length))
      else Host.raise (headerRefusal .nomem (by decide))

end Response

end Zuhttp
