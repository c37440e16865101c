import Zuhttp.Bytes

/-!
# URIs

`zuh_uri` as `zuh_uri_parse` leaves it: the scheme is one of two, scheme and host are in
lower case and the port is resolved.
-/

namespace Zuhttp

structure Uri where
  scheme : Bytes
  host : Bytes
  pathQuery : Bytes
  userinfo : Option Bytes
  port : Nat
  portExplicit : Bool
  schemeKnown : scheme = ascii "http" ∨ scheme = ascii "https"
  hostLower : host.map lower = host
  portValid : 0 < port ∧ port < 2 ^ 16
  deriving DecidableEq

namespace Uri

lemma http_known : ascii "http" = ascii "http" ∨ ascii "http" = ascii "https" := Or.inl rfl

lemma port80_valid : 0 < 80 ∧ 80 < 2 ^ 16 := by decide

def isHttps (u : Uri) : Bool := u.scheme = ascii "https"

def defaultPort (scheme : Bytes) : Nat :=
  if asciiNcasecmp scheme (ascii "https") = 0 then 443
  else if asciiNcasecmp scheme (ascii "http") = 0 then 80
  else 0

/-- A port of 0 stands for the default one. -/
def effectivePort (u : Uri) : Nat := if u.port ≠ 0 then u.port else defaultPort u.scheme

def sameOrigin (a b : Uri) : Bool :=
  if asciiNcasecmp a.scheme b.scheme ≠ 0 then false
  else if asciiNcasecmp a.host b.host ≠ 0 then false
  else a.effectivePort = b.effectivePort

lemma sameOrigin_iff (a b : Uri) : a.sameOrigin b = true ↔
    CaseEq a.scheme b.scheme ∧ CaseEq a.host b.host ∧ a.effectivePort = b.effectivePort := by
  unfold sameOrigin
  rw [← asciiNcasecmp_eq_zero, ← asciiNcasecmp_eq_zero]
  split_ifs with hscheme hhost
  · simp [hscheme]
  · simp [hhost]
  · simp only [ne_eq, not_not] at hscheme hhost
    simp [hscheme, hhost]

lemma sameOrigin_refl (a : Uri) : a.sameOrigin a = true :=
  (sameOrigin_iff a a).mpr ⟨CaseEq.refl _, CaseEq.refl _, rfl⟩

lemma sameOrigin_trans {a b c : Uri} (h : a.sameOrigin b = true) (h' : b.sameOrigin c = true) :
    a.sameOrigin c = true := by
  obtain ⟨hs, hh, hp⟩ := (sameOrigin_iff a b).mp h
  obtain ⟨hs', hh', hp'⟩ := (sameOrigin_iff b c).mp h'
  exact (sameOrigin_iff a c).mpr ⟨hs.trans hs', hh.trans hh', hp.trans hp'⟩

end Uri

end Zuhttp
