import Zuhttp.Bytes
import Zuhttp.Error

/-!
# Transports and sinks

A stream is what the peer will send, cut into reads, how the stream ends after it, and how
much it takes before a write fails. A sink answers each piece it is handed.
-/

namespace Zuhttp

/-- `ZUH_READ_CHUNK`, the most one read returns. -/
def readChunk : Nat := 16384

/-- What one successful read returns. -/
structure Segment where
  bytes : Bytes
  nonempty : bytes ≠ []
  fits : bytes.length ≤ readChunk

lemma Segment.bytes_eq_iff (s t : Segment) : s.bytes = t.bytes ↔ s = t := by
  constructor
  · intro h
    cases s
    cases t
    cases h
    rfl
  · rintro rfl
    rfl

instance : DecidableEq Segment := fun s t => decidable_of_iff _ (s.bytes_eq_iff t)

inductive StreamEnd
  | eof
  | fail (f : Fail)
  deriving DecidableEq

structure Transport where
  reads : List Segment
  ending : StreamEnd := .eof
  sent : Bytes := []
  /-- After how many bytes in all a write fails, and how. -/
  writeLimit : Option (Nat × Fail) := none
  deriving DecidableEq

namespace Transport

/-- `zuh_stream_read`. No bytes is the end of the stream. -/
def read (t : Transport) : Except Fail Bytes × Transport :=
  match t.reads with
  | seg :: reads => (.ok seg.bytes, { t with reads := reads })
  | [] =>
    match t.ending with
    | .eof => (.ok [], t)
    | .fail f => (.error f, t)

/-- What the peer sends that has not been read. -/
def unread (t : Transport) : Bytes := (t.reads.map Segment.bytes).flatten

/-- `zuh_stream_write_all`. -/
def writeAll (t : Transport) (buf : Bytes) : Transport × Option Fail :=
  match t.writeLimit with
  | none => ({ t with sent := t.sent ++ buf }, none)
  | some (limit, f) =>
    if t.sent.length + buf.length ≤ limit then ({ t with sent := t.sent ++ buf }, none)
    else ({ t with sent := t.sent ++ buf.take (limit - t.sent.length) }, some f)

end Transport

inductive SinkAnswer
  | accept
  | refuse (f : Fail) (stopped : Bool)

/-- `zuh_sink`. `handed` is every piece its write function was called with. -/
structure Sink where
  respond : List Bytes → Bytes → SinkAnswer
  handed : List Bytes := []
  written : Nat := 0
  stopped : Bool := false

namespace Sink

/-- `zuh_sink_write`. -/
def write (s : Sink) (data : Bytes) : Sink × Option Fail :=
  if data = [] then (s, none)
  else
    match s.respond s.handed data with
    | .accept =>
      ({ s with handed := s.handed ++ [data], written := s.written + data.length }, none)
    | .refuse f stopped =>
      ({ s with handed := s.handed ++ [data], stopped := s.stopped || stopped }, some f)

/-- `zuh_sink_memory`, when no allocation fails. -/
def memory : Sink := { respond := fun _ _ => .accept }

/-- All the bytes handed over. -/
def bytes (s : Sink) : Bytes := s.handed.flatten

lemma write_bytes (s : Sink) (data : Bytes) :
    (s.write data).1.bytes = s.bytes ++ data := by
  unfold write
  split_ifs with h
  · simp [h]
  · split <;> simp [bytes]

end Sink

end Zuhttp
