import Zuhttp.Headers

/-!
# Response body framing

The framing decision of `zuh_framing.c`: every ambiguity is rejected, also on responses
that cannot carry a body.
-/

namespace Zuhttp

inductive FrameKind
  | none | length | chunked | untilClose
  deriving DecidableEq, Repr

structure Framing where
  kind : FrameKind
  length : Nat
  poolable : Bool
  deriving DecidableEq, Repr

def u64Max : Nat := 2 ^ 64 - 1

/-- The digit loop of `zuh_parse_u64_strict`, from the value read so far. -/
def parseU64From (v : Nat) : Bytes → Option Nat
  | [] => some v
  | c :: rest =>
    if c < 48 ∨ c > 57 then none
    else if v > (u64Max - (c.toNat - 48)) / 10 then none
    else parseU64From (v * 10 + (c.toNat - 48)) rest

def parseU64Strict (s : Bytes) : Option Nat := if s.isEmpty then none else parseU64From 0 s

def statusBodyless (status : Int) : Bool :=
  (100 ≤ status ∧ status ≤ 199) ∨ status = 204 ∨ status = 304

def framingDecide (h : Headers) (status : Int) (methodIsHead : Bool) : Except Fail Framing :=
  let fail (message : String) : Except Fail Framing := .error (Fail.set .parse .read message)
  let nCl := h.count (ascii "Content-Length")
  let nTe := h.count (ascii "Transfer-Encoding")
  if status < 100 ∨ status > 599 then fail ("invalid response status " ++ toString status)
  else if nCl > 0 ∧ nTe > 0 then
    fail "response has both Content-Length and Transfer-Encoding"
  else if nCl > 1 then fail ("response has " ++ toString nCl ++ " Content-Length headers")
  else if nTe > 1 then fail ("response has " ++ toString nTe ++ " Transfer-Encoding headers")
  else if nTe = 1 ∧ asciiNcasecmp (trimOws ((h.get (ascii "Transfer-Encoding")).getD []))
      (ascii "chunked") ≠ 0 then
    fail "unsupported Transfer-Encoding"
  else
    let length :=
      if nCl = 1 then parseU64Strict (trimOws ((h.get (ascii "Content-Length")).getD []))
      else some 0
    match length with
    | none => fail "malformed Content-Length"
    | some v =>
      -- only now may a bodyless response end the decision
      if methodIsHead ∨ statusBodyless status then .ok ⟨.none, 0, true⟩
      else if nTe = 1 then .ok ⟨.chunked, v, true⟩
      else if nCl = 1 then .ok ⟨.length, v, true⟩
      else .ok ⟨.untilClose, v, false⟩

end Zuhttp
