import Mathlib.Data.List.Basic

/-!
# Structured errors

A C function returns a code and, separately, may fill the caller's error object. `Fail`
keeps the two apart: `err` is what `zuh_error_set` wrote on the way out, or `none` where
the code is returned bare.
-/

namespace Zuhttp

inductive Code
  | ok | nomem | overflow | dns | connect | timeout
  | tls | tlsCert | tlsHostname | tlsHandshake | tlsPin | tlsUnsupported
  | parse | url | proxy | proxyAuth | redirect | tooManyRedirects
  | bodyLimit | bodyDecode | bodyNotReplayable
  | httpStatus | httpClient | httpServer
  | cancelled | interrupted | fork | io | closed | wouldblock
  deriving DecidableEq, Repr

inductive Phase
  | none | dns | connect | tls | write | ttfb | read | decode
  deriving DecidableEq, Repr

/-- `zuh_error`, without the backend's native code. -/
structure Error where
  code : Code
  phase : Phase
  message : String
  deriving DecidableEq, Repr

namespace Code

lemma nomem_ne : nomem ≠ ok := by decide
lemma connect_ne : connect ≠ ok := by decide
lemma timeout_ne : timeout ≠ ok := by decide
lemma tls_ne : tls ≠ ok := by decide
lemma parse_ne : parse ≠ ok := by decide
lemma redirect_ne : redirect ≠ ok := by decide
lemma tooManyRedirects_ne : tooManyRedirects ≠ ok := by decide
lemma bodyLimit_ne : bodyLimit ≠ ok := by decide
lemma bodyDecode_ne : bodyDecode ≠ ok := by decide
lemma cancelled_ne : cancelled ≠ ok := by decide
lemma io_ne : io ≠ ok := by decide
lemma wouldblock_ne : wouldblock ≠ ok := by decide

end Code

/-- A failed call: the returned code, which is not `ZUH_OK`, and the error object it set. -/
structure Fail where
  rc : Code
  err : Option Error
  rc_ne : rc ≠ .ok
  deriving DecidableEq

namespace Fail

/-- `zuh_error_set` followed by a return of the same code. -/
def set (rc : Code) (phase : Phase) (message : String)
    (h : rc ≠ .ok := by first
      | exact Code.nomem_ne | exact Code.connect_ne | exact Code.timeout_ne | exact Code.tls_ne
      | exact Code.parse_ne | exact Code.redirect_ne | exact Code.tooManyRedirects_ne
      | exact Code.bodyLimit_ne | exact Code.bodyDecode_ne | exact Code.cancelled_ne
      | exact Code.io_ne | exact Code.wouldblock_ne) : Fail :=
  ⟨rc, some ⟨rc, phase, message⟩, h⟩

def bare (rc : Code)
    (h : rc ≠ .ok := by first
      | exact Code.nomem_ne | exact Code.connect_ne | exact Code.timeout_ne | exact Code.tls_ne
      | exact Code.parse_ne | exact Code.redirect_ne | exact Code.tooManyRedirects_ne
      | exact Code.bodyLimit_ne | exact Code.bodyDecode_ne | exact Code.cancelled_ne
      | exact Code.io_ne | exact Code.wouldblock_ne) : Fail :=
  ⟨rc, none, h⟩

@[simp] lemma set_rc (rc : Code) (phase : Phase) (message : String) (h : rc ≠ .ok) :
    (set rc phase message h).rc = rc := rfl

@[simp] lemma bare_rc (rc : Code) (h : rc ≠ .ok) : (bare rc h).rc = rc := rfl

end Fail

end Zuhttp
