import Mathlib.Algebra.Order.Field.Rat
import Zuhttp.Cassette

/-!
# Retries

`attempt_with_retries` and what it calls of `perform.R` and `retry.R`. Times are exact numbers
of seconds; `Inf`, which `zu_retry` and `zu_client` also take for a time, is not among them.
The transport, the clocks, the random draws and R's `ISOdatetime` answer from outside; hooks
and the sleep change nothing the loop reads but the clock.
-/

namespace Zuhttp

/-- `zuh_code_retryable`. -/
def Code.retryable : Code → Bool
  | .dns => true
  | .connect => true
  | .io => true
  | .timeout => true
  | _ => false

/-- `zu_retry_policy`, as `zu_retry` checks it. -/
structure RetryPolicy where
  attempts : Nat := 3
  exponential : Bool := true
  base : ℚ := 1
  maxDelay : ℚ := 60
  jitter : Bool := true
  retryAfter : Bool := true
  maxRetryAfter : ℚ := 60
  attemptTimeout : Option ℚ := none
  on : List Int := []
  positive : 1 ≤ attempts := by decide

inductive RetryBody
  | absent
  | raw
  | other
  deriving DecidableEq

/-- A resolved request, as far as the retry loop reads it. -/
structure RetryRequest where
  method : Bytes
  headers : List HeaderField := []
  replaySafe : Bool := false
  bodyRewindable : Option Bool := none
  body : RetryBody := .absent
  callback : Bool := false
  timeout : ℚ
  retry : Option RetryPolicy := none

/-- How a call of the transport ends: with a response, a `zu_error` condition and its code, or
a condition that the loop does not catch. -/
inductive Attempted
  | response (status : Int) (headers : List HeaderField) (streamed : Bool)
  | zuError (code : Option Code)
  | escaped
  deriving DecidableEq

/-- What answers from outside during one attempt: the clock before it, what the transport hands
to a callback, how it ends, the clock at the budget check, the wall clock and a draw between
0 and 1. -/
structure Try where
  started : ℚ
  handed : List Bytes := []
  outcome : Attempted
  checked : ℚ
  wall : ℚ := 0
  draw : ℚ := 0

/-- R's `ISOdatetime` in GMT, in seconds since the epoch: year, month, day, hour, minute and
second. -/
abbrev IsoDatetime := Nat → Nat → Nat → Nat → Nat → Nat → Option ℚ

/-- `zu_req_replay_safe`. -/
def reqReplaySafe (r : RetryRequest) : Bool :=
  if r.replaySafe then true
  else if r.headers.any (fun h => h.name.map lower = ascii "idempotency-key") then true
  else (["GET", "HEAD", "PUT", "DELETE", "OPTIONS", "TRACE"].map ascii).contains
    (r.method.map upper)

/-- `zu_body_rewindable`. -/
def bodyRewindable (r : RetryRequest) : Bool :=
  match r.bodyRewindable with
  | some marked => marked
  | none => r.body = .absent ∨ r.body = .raw

def isBlank (c : UInt8) : Bool := c = 9 ∨ c = 10 ∨ c = 13 ∨ c = 32

/-- `tolower(month.abb)`. -/
def monthNames : List Bytes :=
  ["jan", "feb", "mar", "apr", "may", "jun", "jul", "aug", "sep", "oct", "nov", "dec"].map ascii

/-- The fields of an IMF-fixdate, by the places of its 29 bytes. -/
def parseDate (iso : IsoDatetime) (v : Bytes) : Option ℚ :=
  let at_ (i n : Nat) : Bytes := (v.drop i).take n
  let fields := [(5, 2), (12, 4), (17, 2), (20, 2), (23, 2)]
  if v.length = 29 ∧ (at_ 0 3).all Ascii.isAlpha ∧ at_ 3 2 = ascii ", " ∧ at_ 7 1 = ascii " " ∧
      (at_ 8 3).all Ascii.isAlpha ∧ at_ 11 1 = ascii " " ∧ at_ 16 1 = ascii " " ∧
      at_ 19 1 = ascii ":" ∧ at_ 22 1 = ascii ":" ∧ at_ 25 4 = ascii " GMT" ∧
      fields.all (fun f => (at_ f.1 f.2).all Ascii.isDigit) then
    let number (i n : Nat) : Nat := Decimal.decimalValue (at_ i n)
    match monthNames.findIdx? (fun m => m = (at_ 8 3).map lower) with
    | none => none
    | some month =>
      iso (number 12 4) (month + 1) (number 5 2) (number 17 2) (number 20 2) (number 23 2)
  else none

/-- `parse_retry_after` of the values of the header. -/
def parseRetryAfter (iso : IsoDatetime) (wall : ℚ) : List Bytes → Option ℚ
  | [] => none
  | v :: _ =>
    let v := (v.dropWhile isBlank).rdropWhile isBlank
    if v = [] then none
    else if v.all Ascii.isDigit then some (Decimal.decimalValue v : ℚ)
    else (parseDate iso v).map (fun t => max 0 (t - wall))

/-- `zu_resp_header`. -/
def respHeader (headers : List HeaderField) (name : Bytes) : List Bytes :=
  (headers.filter (fun h => h.name.map lower = name.map lower)).map HeaderField.value

/-- `retry_verdict`: whether to retry, and after how many seconds if the server said so. -/
def retryVerdict (iso : IsoDatetime) (p : RetryPolicy) (wall : ℚ) :
    Attempted → Bool × Option ℚ
  | .zuError code => (code.any Code.retryable, none)
  | .escaped => (false, none)
  | .response status headers _ =>
    if status ∉ [408, 429, 500, 502, 503, 504] ++ p.on then (false, none)
    else if p.retryAfter then
      (true, parseRetryAfter iso wall (respHeader headers (ascii "retry-after")))
    else (true, none)

/-- `backoff_delay`. -/
def backoffDelay (p : RetryPolicy) (attempt : Nat) (after : Option ℚ) (draw : ℚ) : ℚ :=
  match after with
  | some after => min after p.maxRetryAfter
  | none =>
    let d := if p.exponential then p.base * 2 ^ (attempt - 1) else p.base
    let d := min d p.maxDelay
    if p.jitter then draw * d else d

/-- The budget of `attempt_request`. -/
def attemptBudget (r : RetryRequest) (p : RetryPolicy) (deadline started : ℚ) : ℚ :=
  let share := min r.timeout (deadline - started)
  max (1 / 1000) (match p.attemptTimeout with
    | none => share
    | some t => min share t)

/-- `watch_delivery`: whether the callback was handed any bytes. -/
def delivered (r : RetryRequest) (t : Try) : Bool := r.callback ∧ t.handed.any (· ≠ [])

def Attempted.streamed : Attempted → Bool
  | .response _ _ streamed => streamed
  | _ => false

/-- The attempts of a run by their budgets, the numbers of those whose response was aborted,
and the outcome that is returned or raised. -/
structure RetryRun where
  budgets : List ℚ
  aborted : List Nat
  outcome : Attempted
  deriving DecidableEq

/-- The loop of `attempt_with_retries` from an attempt on. -/
def attemptLoop (iso : IsoDatetime) (r : RetryRequest) (p : RetryPolicy) (mayReplay : Bool)
    (deadline : ℚ) : Nat → List Try → Option RetryRun
  | _, [] => none
  | attempt, t :: tries =>
    let budget := attemptBudget r p deadline t.started
    let last : RetryRun := ⟨[budget], [], t.outcome⟩
    if t.outcome = .escaped then some last
    else if mayReplay = false ∨ attempt ≥ p.attempts then some last
    else if delivered r t then some last
    else
      let v := retryVerdict iso p t.wall t.outcome
      if v.1 = false then some last
      else
        let aborted := if t.outcome.streamed then [attempt] else []
        let delay := backoffDelay p attempt v.2 t.draw
        let left := deadline - t.checked
        if left ≤ 0 ∨ delay ≥ left then some { last with aborted := aborted }
        else
          (attemptLoop iso r p mayReplay deadline (attempt + 1) tries).map (fun run =>
            { run with budgets := budget :: run.budgets, aborted := aborted ++ run.aborted })

inductive RetryResult
  /-- `zu_body_not_replayable`, before any attempt. -/
  | notReplayable
  | ran (run : RetryRun)
  deriving DecidableEq

/-- The policy of a request; the default makes one attempt. -/
def RetryRequest.policy (r : RetryRequest) : RetryPolicy := r.retry.getD { attempts := 1 }

/-- `attempt_with_retries`. It has no result while the outside still owes an attempt. -/
def attemptWithRetries (iso : IsoDatetime) (r : RetryRequest) (deadline : ℚ) (tries : List Try) :
    Option RetryResult :=
  let p := r.policy
  let mayReplay : Bool := p.attempts > 1 ∧ reqReplaySafe r
  if mayReplay ∧ bodyRewindable r = false then some .notReplayable
  else (attemptLoop iso r p mayReplay deadline 1 tries).map .ran

end Zuhttp
