import Zuhttp.Redact
import Zuhttp.Trace

/-!
# The ways into the event log

`zuh_trace_add_at` and `zuh_trace_add_url`. Times are differences of `zuh_millis` that fit a
`long`.
-/

namespace Zuhttp

namespace Trace

/-- `zuh_trace_init`, at a time of the clock. -/
def start (now : Int) : Trace := ⟨now, [], 0⟩

/-- The time of the last of these events, or 0. -/
def lastMs (entries : List TraceEntry) : Int :=
  match entries.getLast? with
  | some e => e.atMs
  | none => 0

/-- `zuh_trace_add_at`, for a moment already past. -/
def addAt (t : Trace) (ev : Event) (detail : Option Bytes) (n : Nat) (moment now : Int) : Trace :=
  let t := t.add ev detail n now
  match t.entries.getLast? with
  | none => t
  | some last =>
    if last.ev ≠ ev then t
    else
      let ms := moment - t.t0
      let floorMs := lastMs t.entries.dropLast
      let ms := if ms < floorMs then floorMs else ms
      if ms < last.atMs then
        { t with entries := t.entries.dropLast ++ [{ last with atMs := ms }] }
      else t

/-- `zuh_trace_add_url`; `granted` is whether no allocation of the call fails. -/
def addUrl (t : Trace) (ev : Event) (p : Option RedactPolicy) (url : Option Bytes) (n : Nat)
    (granted : Bool) (now : Int) : Trace :=
  match url with
  | none => t.add ev none n now
  | some url =>
    if granted then
      match Prog.exec (do (p.getD RedactPolicy.init).redactUrl url; Buffer.cstr)
        (Buffer.init (64 * 1024)) with
      | (.ok s, _) => t.add ev (some s) n now
      | (.error _, _) => t.add ev (some RedactPolicy.redacted) n now
    else t.add ev (some RedactPolicy.redacted) n now

end Trace

inductive TraceCall
  | add (ev : Event) (detail : Option Bytes) (n : Nat) (now : Int)
  | addAt (ev : Event) (detail : Option Bytes) (n : Nat) (moment now : Int)
  | addUrl (ev : Event) (p : Option RedactPolicy) (url : Option Bytes) (n : Nat) (granted : Bool)
      (now : Int)

namespace TraceCall

/-- What the clock says when the call looks at it. -/
def now : TraceCall → Int
  | add _ _ _ now => now
  | addAt _ _ _ _ now => now
  | addUrl _ _ _ _ _ now => now

def call : TraceCall → Trace → Trace
  | add ev detail n now, t => t.add ev detail n now
  | addAt ev detail n moment now, t => t.addAt ev detail n moment now
  | addUrl ev p url n granted now, t => t.addUrl ev p url n granted now

/-- The log after the calls. -/
def run (t : Trace) (calls : List TraceCall) : Trace := calls.foldl (fun t c => c.call t) t

end TraceCall

end Zuhttp
