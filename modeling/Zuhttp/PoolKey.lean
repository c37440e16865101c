import Zuhttp.Bytes

/-!
# The pool key

`zuh_pool_key` and `zuh_pool_key_eq` of `zuh_pool.c`. A NULL string and an empty one are
different.
-/

namespace Zuhttp

structure PoolKey where
  scheme : Option Bytes
  host : Option Bytes
  port : Nat
  proxy : Option Bytes
  verifyPeer : Int
  verifyHostname : Int
  revocation : Int
  minVersion : Int
  alpn : Option Bytes
  http2 : Int
  caFile : Option Bytes
  caExtraFile : Option Bytes
  caDataId : Option Bytes
  pins : Option Bytes
  clientCert : Option Bytes
  deriving DecidableEq

namespace PoolKey

def init : PoolKey :=
  { scheme := none, host := none, port := 0, proxy := none, verifyPeer := 1,
    verifyHostname := 1, revocation := 0, minVersion := 0, alpn := none, http2 := 0,
    caFile := none, caExtraFile := none, caDataId := none, pins := none, clientCert := none }

def strEqCi : Option Bytes → Option Bytes → Bool
  | none, none => true
  | some a, some b => asciiNcasecmp a b = 0
  | _, _ => false

/-- `zuh_pool_key_eq`: every field, the scheme and the host up to letter case. -/
def eq (a b : PoolKey) : Bool :=
  a.port = b.port ∧ a.verifyPeer = b.verifyPeer ∧ a.verifyHostname = b.verifyHostname ∧
    a.revocation = b.revocation ∧ a.minVersion = b.minVersion ∧ a.http2 = b.http2 ∧
    strEqCi a.scheme b.scheme ∧ strEqCi a.host b.host ∧ a.proxy = b.proxy ∧
    a.alpn = b.alpn ∧ a.caFile = b.caFile ∧ a.caExtraFile = b.caExtraFile ∧
    a.caDataId = b.caDataId ∧ a.pins = b.pins ∧ a.clientCert = b.clientCert

/-- The per-host part of a key, by which the pool counts and evicts. -/
def sameHost (a b : PoolKey) : Bool :=
  a.port = b.port ∧ strEqCi a.scheme b.scheme ∧ strEqCi a.host b.host

/-- A key with its scheme and host in lower case. -/
def canonical (a : PoolKey) : PoolKey :=
  { a with scheme := a.scheme.map (·.map lower), host := a.host.map (·.map lower) }

lemma strEqCi_iff (a b : Option Bytes) :
    strEqCi a b = true ↔ a.map (·.map lower) = b.map (·.map lower) := by
  cases a with
  | none => cases b <;> simp [strEqCi]
  | some a =>
    cases b with
    | none => simp [strEqCi]
    | some b => simp [strEqCi, asciiNcasecmp_eq_zero, CaseEq]

/-- Two keys are equal for the pool exactly when they agree up to the case of scheme and
host. -/
theorem eq_iff (a b : PoolKey) : eq a b = true ↔ canonical a = canonical b := by
  simp only [eq, strEqCi_iff, decide_eq_true_eq, canonical, PoolKey.mk.injEq]
  tauto

lemma eq_refl (a : PoolKey) : eq a a = true := (eq_iff a a).mpr rfl

end PoolKey

end Zuhttp
