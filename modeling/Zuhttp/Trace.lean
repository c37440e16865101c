import Zuhttp.Bytes

/-!
# The event log

`zuh_trace.c`, without the redaction of URLs, which allocates.
-/

namespace Zuhttp

inductive Event
  | requestStart | dnsStart | dnsDone | connectStart | connectDone | tlsStart | tlsDone
  | requestSent | headersReceived | bodyChunk | redirectFollowed | connectionReused | requestDone
  deriving DecidableEq, Repr

structure TraceEntry where
  ev : Event
  atMs : Int
  n : Nat
  detail : Bytes
  deriving DecidableEq

/-- `zuh_trace`. -/
structure Trace where
  t0 : Int
  entries : List TraceEntry := []
  dropped : Int32 := 0
  deriving DecidableEq

namespace Trace

/-- `ZUH_TRACE_MAX`. -/
def maxEntries : Nat := 256

/-- `ZUH_TRACE_DETAIL`. -/
def detailSize : Nat := 256

/-- `ZUH_TRACE_TRUNC`. -/
def mark : Bytes := ascii "..."

def isContinuation (c : UInt8) : Bool := c &&& 0xC0 = 0x80

/-- The walk back from `keep` to the start of a character. -/
def backOff (src : Bytes) : Nat → Nat
  | 0 => 0
  | keep + 1 =>
    match src[keep + 1]? with
    | some c => if isContinuation c then backOff src keep else keep + 1
    | none => keep + 1

/-- `copy_detail`. -/
def copyDetail (cap : Nat) : Option Bytes → Bytes
  | none => []
  | some src =>
    if src.length < cap then src
    else if cap ≤ mark.length + 1 then []
    else src.take (backOff src (cap - 1 - mark.length)) ++ mark

/-- `zuh_trace_add`, at a time of the clock. -/
def add (t : Trace) (ev : Event) (detail : Option Bytes) (n : Nat) (now : Int) : Trace :=
  if t.entries.length ≥ maxEntries then { t with dropped := t.dropped + 1 }
  else { t with entries := t.entries ++ [⟨ev, now - t.t0, n, copyDetail detailSize detail⟩] }

end Trace

end Zuhttp
