import Zuhttp.Framing

/-!
# Reuse reasons

`reuseDecide` is `zuh_reuse_decide` of `zuh_pool.c`: whether a finished HTTP/1.1 exchange
leaves a connection on which the next response can be located.
-/

namespace Zuhttp

inductive Reuse
  | ok | bodyIncomplete | cancelled | framing | closeFramed | connectionClose
  | redirectBody | tlsError
  deriving DecidableEq, Repr

def lowerEq (a b : Bytes) : Bool := a.map lower == b.map lower

/-- The token loop of `header_has_token` over the value that is left; the fuel bounds the
number of list members and the length of the value is always enough. -/
def headerHasTokenFrom (tok : Bytes) : Nat → Bytes → Bool
  | 0, _ => false
  | fuel + 1, v =>
    let v := v.dropWhile (fun c => c = 32 ∨ c = 9 ∨ c = 44)
    if v.isEmpty then false
    else if lowerEq ((v.takeWhile (fun c => c ≠ 44)).rdropWhile isOws) tok then true
    else headerHasTokenFrom tok fuel (v.dropWhile (fun c => c ≠ 44))

def headerHasToken (v tok : Bytes) : Bool := headerHasTokenFrom tok (v.length + 1) v

/-- Any `Connection` field with the token, not just the first. -/
def connectionHas (h : Headers) (tok : Bytes) : Bool :=
  (h.named (ascii "Connection")).any (fun f => headerHasToken f.value tok)

def reuseDecide (rc : Code) (fr : Framing) (respHeaders : Headers) (minorVersion : Int) :
    Reuse :=
  match rc with
  | .ok =>
    if fr.poolable = false ∨ fr.kind = .untilClose then .closeFramed
    else if connectionHas respHeaders (ascii "close") then .connectionClose
    else if minorVersion = 0 ∧ ¬connectionHas respHeaders (ascii "keep-alive") then
      .connectionClose
    else .ok
  | .timeout | .cancelled | .interrupted => .cancelled
  | .parse => .framing
  | .tls | .tlsCert | .tlsHostname | .tlsHandshake | .tlsPin | .tlsUnsupported => .tlsError
  | _ => .bodyIncomplete

/-- The verdict is OK only after a success whose framing does not end at the close. -/
lemma reuseDecide_eq_ok {rc : Code} {fr : Framing} {h : Headers} {minorVersion : Int}
    (hok : reuseDecide rc fr h minorVersion = .ok) :
    rc = .ok ∧ fr.poolable = true ∧ fr.kind ≠ .untilClose := by
  unfold reuseDecide at hok
  split at hok
  · split_ifs at hok with hclose
    rw [not_or] at hclose
    exact ⟨rfl, by simpa using hclose.1, hclose.2⟩
  all_goals cases hok

end Zuhttp
