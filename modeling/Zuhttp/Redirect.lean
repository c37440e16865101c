import Zuhttp.Host

/-!
# Redirects

`zuh_redirect.c`: the decision on one redirect and the trail of what was requested.
-/

namespace Zuhttp

def statusIsRedirect (status : Int) : Bool :=
  status = 301 ∨ status = 302 ∨ status = 303 ∨ status = 307 ∨ status = 308

structure RedirectPolicy where
  maxRedirects : Nat
  allowDowngrade : Bool

/-- `zuh_redirect_policy_init`. -/
def RedirectPolicy.init : RedirectPolicy := ⟨10, false⟩

inductive RedirectAction
  | none | follow
  deriving DecidableEq, Repr

structure RedirectDecision where
  action : RedirectAction := .none
  rewriteToGet : Bool := false
  dropBody : Bool := false
  needsRewindable : Bool := false
  stripCredentials : Bool := false
  deriving DecidableEq

/-- `zuh_redirect_is_credential_header`. -/
def isCredentialHeader (p : Option RedactPolicy) (name : Bytes) : Bool :=
  (p.getD RedactPolicy.init).isSecretHeader name

/-- `ZUH_DEFAULT_MAX_HEADER_NAME`. -/
def maxHeaderName : Nat := 256

/-- The variables of the loop of `zuh_redirect_strip_credentials`. -/
structure Stripping where
  h : Headers
  i : Nat := 0
  removed : Nat := 0

/-- One turn at a field of the list. The name to remove is a copy in a fixed array. -/
def stripTurn (p : Option RedactPolicy) (s : Stripping) (f : Header) : Stripping :=
  if isCredentialHeader p f.name then
    let name := f.name.take maxHeaderName
    ⟨s.h.remove name, 0, s.removed + s.h.count name⟩
  else { s with i := s.i + 1 }

/-- `zuh_redirect_strip_credentials` within so many turns: the list left and the number
returned. -/
def stripCredentials (p : Option RedactPolicy) : Nat → Stripping → Option (Headers × Nat)
  | 0, _ => none
  | n + 1, s =>
    match s.h.items[s.i]? with
    | none => some (s.h, s.removed)
    | some f => stripCredentials p n (stripTurn p s f)

/-- The table of methods and bodies. -/
def redirectTable (status : Int) (method : Bytes) : RedirectDecision :=
  let isHead := asciiNcasecmp method (ascii "HEAD") = 0
  if status = 301 ∨ status = 302 then
    if asciiNcasecmp method (ascii "POST") = 0 then { rewriteToGet := true, dropBody := true }
    else {}
  else if status = 303 then { rewriteToGet := !isHead, dropBody := true }
  else if status = 307 ∨ status = 308 then { needsRewindable := true }
  else {}

/-- `zuh_redirect_decide`. -/
def redirectDecide (p : RedirectPolicy) (status : Int) (method : Bytes) (cur next : Uri)
    (hopsSoFar : Nat) : Except Fail RedirectDecision :=
  if ¬statusIsRedirect status then .ok {}
  else if p.maxRedirects ≠ 0 ∧ hopsSoFar ≥ p.maxRedirects then
    .error (Fail.set .tooManyRedirects .read ("stopped after " ++ toString p.maxRedirects ++
      " redirects, and the server sent another; raise `redirects` if the chain is expected"))
  else if p.allowDowngrade = false ∧ cur.isHttps ∧ ¬next.isHttps then
    .error (Fail.set .redirect .read "refusing HTTPS to HTTP redirect")
  else
    .ok { redirectTable status method with
      action := .follow, stripCredentials := !cur.sameOrigin next }

namespace Uri

/-- `zuh_uri_origin_string` into a buffer of `cap` bytes. -/
def originString (u : Uri) (cap : Nat) : Option Bytes :=
  let out := u.scheme ++ ascii "://" ++ u.host ++
    (if u.port ≠ 0 ∧ u.port ≠ defaultPort u.scheme then 58 :: Decimal.decimalText u.port else [])
  if out.length < cap then some out else none

end Uri

/-- `trail_key`, when no allocation fails. -/
def trailKey (method : Bytes) (u : Uri) : Option Bytes :=
  (u.originString 320).map (fun origin => method ++ [32] ++ origin ++ u.pathQuery)

/-- `zuh_redirect_trail_add`: the trail, or the bare code of the refusal. -/
def trailAdd (trail : List Bytes) (method : Bytes) (u : Uri) : HostProg (List Bytes) := do
  Host.allocate
  match trailKey method u with
  | none => throw .nomem
  | some key =>
    if key ∈ trail then throw .redirect
    else do
      Host.allocate
      pure (trail ++ [key])

/-- Calls of `zuh_redirect_trail_add` on one trail, and the code of each that is refused. -/
def trailRun : List Bytes → List (Bytes × Uri) → HostProg (List (Option Code))
  | _, [] => pure []
  | trail, (method, u) :: calls => do
    match ← Prog.attempt (trailAdd trail method u) with
    | .ok trail => do
      let rcs ← trailRun trail calls
      pure (none :: rcs)
    | .error rc => do
      let rcs ← trailRun trail calls
      pure (some rc :: rcs)

end Zuhttp
