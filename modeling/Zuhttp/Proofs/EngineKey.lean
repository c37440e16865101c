import Zuhttp.EngineKey
import Zuhttp.Library.Cut

/-!
# What the pool key separates

`keyOf` is the key in closed form. Two keys are equal exactly when the two hops agree on
what is recorded (`SameRecorded`); what the connection depends on besides is
`SameUnrecorded`.
-/

namespace Zuhttp

open Decimal

namespace HopTarget

def activeProxy (t : HopTarget) : Option Proxy := t.proxy.filter Proxy.inUse

/-- The pins, each cut at its bytes 0x1f. -/
def pinPieces (t : HopTarget) : List Bytes := (tlsCfgFor t.opts).pins.flatMap (Cut.splitOn 31)

/-- The pins as the key records them, when they fit. -/
def keyPins (t : HopTarget) : Option Bytes :=
  match t.opts.tls with
  | none => none
  | some tls => if tls.pins = [] then none else some (joinPins tls.pins)

def keyOf (t : HopTarget) : PoolKey :=
  { scheme := some t.uri.scheme
    host := some t.uri.host
    port := t.uri.port
    proxy := t.activeProxy.map proxyText
    verifyPeer := t.opts.verify
    verifyHostname := t.opts.verify
    revocation := (t.opts.tls.map TlsConfig.revocation).getD 0
    minVersion := (t.opts.tls.map TlsConfig.minVersion).getD 0
    alpn := if t.uri.isHttps then some t.opts.http2.alpnFor else none
    http2 := t.opts.http2.code
    caFile := t.opts.caFile
    caExtraFile := t.opts.tls.bind TlsConfig.caExtraFile
    caDataId := none
    pins := t.keyPins
    clientCert := none }

/-- The promise of the caller: a CA file inside `tls` is the one beside it. -/
def CaFileAgrees (t : HopTarget) : Prop :=
  ∀ tls ∈ t.opts.tls, tls.caFile ≠ none → tls.caFile = t.opts.caFile

end HopTarget

open HopTarget

lemma pinsText_eq {pins : List Bytes} {text : Bytes} (h : pinsText pins = some text) :
    text = joinPins pins := by
  unfold pinsText at h
  split_ifs at h
  cases h
  rfl

lemma Uri.scheme_eq (u : Uri) :
    (if u.isHttps then ascii "https" else ascii "http") = u.scheme := by
  rcases u.schemeKnown with h | h
  · have hne : ascii "http" ≠ ascii "https" := by decide
    simp [Uri.isHttps, h, hne]
  · simp [Uri.isHttps, h]

lemma keyTls_eq {t : HopTarget} {k k' : PoolKey} (h : keyTls t.opts k = some k')
    (hrev : k.revocation = 0) (hmin : k.minVersion = 0) (hextra : k.caExtraFile = none)
    (hpins : k.pins = none) :
    k' = { k with
      revocation := t.keyOf.revocation, minVersion := t.keyOf.minVersion,
      caExtraFile := t.keyOf.caExtraFile, pins := t.keyPins } := by
  obtain ⟨⟩ := k
  simp only at hrev hmin hextra hpins
  subst hrev hmin hextra hpins
  unfold keyTls at h
  split at h
  · next htls =>
    cases h
    simp [keyOf, keyPins, htls]
  · next tls htls =>
    by_cases hempty : tls.pins = []
    · rw [if_pos (by simp [hempty])] at h
      cases h
      simp [keyOf, keyPins, htls, hempty]
    · rw [if_neg (by simp [hempty])] at h
      obtain ⟨text, htext, rfl⟩ := Option.map_eq_some_iff.mp h
      simp [keyOf, keyPins, htls, hempty, pinsText_eq htext]

lemma keyProxy_eq (t : HopTarget) (k : PoolKey) (hproxy : k.proxy = none) :
    keyProxy t.proxy k = { k with proxy := t.activeProxy.map proxyText } := by
  obtain ⟨⟩ := k
  simp only at hproxy
  subst hproxy
  unfold keyProxy
  split
  · next p hp =>
    by_cases huse : p.inUse = true
    · simp [huse, activeProxy, hp, Option.filter]
    · simp [huse, activeProxy, hp, Option.filter]
  · next hp => simp [activeProxy, hp]

lemma enginePoolKey_eq {t : HopTarget} {k : PoolKey} (h : enginePoolKey t = some k) :
    k = t.keyOf := by
  unfold enginePoolKey at h
  simp only [Uri.scheme_eq] at h
  obtain ⟨k₁, htls, hrest⟩ := Option.map_eq_some_iff.mp h
  have hk₁ := keyTls_eq htls rfl rfl rfl rfl
  rw [← hrest, hk₁]
  by_cases hs : t.uri.isHttps = true
  · rw [if_pos hs, keyProxy_eq t _ rfl]
    simp [keyOf, PoolKey.init, hs]
  · rw [if_neg hs, keyProxy_eq t _ rfl]
    simp [keyOf, PoolKey.init, hs]

/-- The proxy with the defaults the key writes for an absent field. -/
def Proxy.filled (p : Proxy) : Proxy :=
  { p with
    scheme := some (p.scheme.getD (ascii "http")), username := some (p.username.getD [])
    password := some (p.password.getD []), host := some (p.host.getD []) }

lemma joinPins_inj {p q : List Bytes} (hp : ∀ pin ∈ p, (31 : UInt8) ∉ pin)
    (hq : ∀ pin ∈ q, (31 : UInt8) ∉ pin) (h : joinPins p = joinPins q) : p = q := by
  induction p generalizing q with
  | nil =>
    cases q with
    | nil => rfl
    | cons b q => simp [joinPins] at h
  | cons a p ih =>
    cases q with
    | nil => simp [joinPins] at h
    | cons b q =>
      rw [List.forall_mem_cons] at hp hq
      have hsplit : a ++ 31 :: joinPins p = b ++ 31 :: joinPins q := by
        simpa [joinPins] using h
      obtain ⟨rfl, hrest⟩ := append_sep_inj hp.1 hq.1 hsplit
      rw [ih hp.2 hq.2 hrest]

lemma tlsCfgFor_pins (o : GetOpts) :
    (tlsCfgFor o).pins = (o.tls.map TlsConfig.pins).getD [] := by
  unfold tlsCfgFor
  cases o.caFile <;> cases o.tls <;> rfl

lemma joinPins_pieces (pins : List Bytes) :
    joinPins pins = joinPins (pins.flatMap (Cut.splitOn 31)) := by
  induction pins with
  | nil => rfl
  | cons pin pins ih =>
    unfold joinPins at ih ⊢
    rw [List.flatMap_cons, List.flatMap_cons, List.flatMap_append, Cut.flatMap_splitOn, ih]

lemma keyPins_eq (t : HopTarget) :
    t.keyPins = if t.pinPieces = [] then none else some (joinPins t.pinPieces) := by
  have hnil : t.pinPieces = [] ↔ (tlsCfgFor t.opts).pins = [] := by
    unfold pinPieces
    rw [List.flatMap_eq_nil_iff, List.eq_nil_iff_forall_not_mem]
    exact forall_congr' fun pin => imp_congr_right fun _ => iff_false_intro (Cut.splitOn_ne_nil _ _)
  have htext : joinPins t.pinPieces = joinPins (tlsCfgFor t.opts).pins :=
    (joinPins_pieces _).symm
  simp only [hnil, htext, tlsCfgFor_pins]
  unfold keyPins
  cases t.opts.tls <;> rfl

/-- What the key writes of the pins is the same exactly when their pieces are. -/
lemma keyPins_eq_iff (a b : HopTarget) : a.keyPins = b.keyPins ↔ a.pinPieces = b.pinPieces := by
  have hfree : ∀ t : HopTarget, ∀ piece ∈ t.pinPieces, (31 : UInt8) ∉ piece := by
    intro t piece hpiece
    obtain ⟨pin, -, hcut⟩ := List.mem_flatMap.mp hpiece
    exact Cut.notMem_of_mem_splitOn hcut
  constructor
  · intro h
    rw [keyPins_eq, keyPins_eq] at h
    split_ifs at h with hnila hnilb
    · rw [hnila, hnilb]
    · exact joinPins_inj (hfree a) (hfree b) (Option.some.inj h)
  · intro h
    rw [keyPins_eq, keyPins_eq, h]

/-- What the key records of a hop. -/
structure SameRecorded (a b : HopTarget) : Prop where
  scheme : a.uri.scheme = b.uri.scheme
  host : a.uri.host = b.uri.host
  port : a.uri.port = b.uri.port
  http2 : a.opts.http2 = b.opts.http2
  verify : a.opts.verify = b.opts.verify
  caFile : a.opts.caFile = b.opts.caFile
  caExtraFile : a.opts.tls.bind TlsConfig.caExtraFile = b.opts.tls.bind TlsConfig.caExtraFile
  revocation : (a.opts.tls.map TlsConfig.revocation).getD 0 =
    (b.opts.tls.map TlsConfig.revocation).getD 0
  minVersion : (a.opts.tls.map TlsConfig.minVersion).getD 0 =
    (b.opts.tls.map TlsConfig.minVersion).getD 0
  pins : a.pinPieces = b.pinPieces
  proxy : a.activeProxy.map Proxy.filled = b.activeProxy.map Proxy.filled

/-- What the connection depends on and the key does not fix. -/
structure SameUnrecorded (a b : HopTarget) : Prop where
  source : (tlsCfgFor a.opts).source = (tlsCfgFor b.opts).source
  caData : (tlsCfgFor a.opts).caData = (tlsCfgFor b.opts).caData
  minVersion : (tlsCfgFor a.opts).minVersion = (tlsCfgFor b.opts).minVersion
  pins : (tlsCfgFor a.opts).pins = (tlsCfgFor b.opts).pins
  proxy : a.activeProxy = b.activeProxy

/-- The settings under which two hops may share a connection. -/
structure Agree (a b : HopTarget) : Prop where
  scheme : a.uri.scheme = b.uri.scheme
  host : a.uri.host = b.uri.host
  port : a.uri.port = b.uri.port
  http2 : a.opts.http2 = b.opts.http2
  verifyPeer : (tlsCfgFor a.opts).verifyPeer = (tlsCfgFor b.opts).verifyPeer
  verifyHostname : (tlsCfgFor a.opts).verifyHostname = (tlsCfgFor b.opts).verifyHostname
  source : (tlsCfgFor a.opts).source = (tlsCfgFor b.opts).source
  caFile : (tlsCfgFor a.opts).caFile = (tlsCfgFor b.opts).caFile
  caData : (tlsCfgFor a.opts).caData = (tlsCfgFor b.opts).caData
  caExtraFile : (tlsCfgFor a.opts).caExtraFile = (tlsCfgFor b.opts).caExtraFile
  revocation : (tlsCfgFor a.opts).revocation = (tlsCfgFor b.opts).revocation
  minVersion : (tlsCfgFor a.opts).minVersion = (tlsCfgFor b.opts).minVersion
  pins : (tlsCfgFor a.opts).pins = (tlsCfgFor b.opts).pins
  proxy : a.activeProxy = b.activeProxy

lemma proxyText_inj {p q : Proxy} (hp : p.inUse = true) (hq : q.inUse = true) :
    proxyText p = proxyText q ↔ p.filled = q.filled := by
  constructor
  · intro h
    have hfields := lengthPrefixedAll_inj (by rfl) h
    simp only [proxyFields, List.cons.injEq, and_true] at hfields
    obtain ⟨hscheme, huser, hpass, hhost, hport⟩ := hfields
    simp only [Proxy.filled, Proxy.mk.injEq, Option.some.injEq]
    exact ⟨hp.trans hq.symm, hscheme, hhost, decimalText_injective hport, huser, hpass⟩
  · intro h
    simp only [Proxy.filled, Proxy.mk.injEq, Option.some.injEq] at h
    obtain ⟨-, hscheme, hhost, hport, huser, hpass⟩ := h
    simp [proxyText, proxyFields, hscheme, hhost, hport, huser, hpass]

lemma activeProxy_inUse {t : HopTarget} {p : Proxy} (h : t.activeProxy = some p) :
    p.inUse = true := (Option.filter_eq_some_iff.mp h).2

lemma activeProxy_text_inj (a b : HopTarget) :
    a.activeProxy.map proxyText = b.activeProxy.map proxyText ↔
      a.activeProxy.map Proxy.filled = b.activeProxy.map Proxy.filled := by
  cases ha : a.activeProxy with
  | none => cases hb : b.activeProxy <;> simp
  | some p =>
    cases hb : b.activeProxy with
    | none => simp
    | some q =>
      simp [proxyText_inj (activeProxy_inUse ha) (activeProxy_inUse hb)]

lemma Http2Mode.code_injective : Function.Injective Http2Mode.code := by
  intro m n h
  cases m <;> cases n <;> first | rfl | cases h

lemma keyOf_canonical (t : HopTarget) : t.keyOf.canonical = t.keyOf := by
  have hscheme : t.uri.scheme.map lower = t.uri.scheme := by
    rcases t.uri.schemeKnown with h | h <;> rw [h] <;> rfl
  simp [PoolKey.canonical, keyOf, hscheme, t.uri.hostLower]

/-- Two keys are equal exactly when the hops agree on what is recorded. -/
theorem keyOf_eq_iff (a b : HopTarget) : a.keyOf.eq b.keyOf = true ↔ SameRecorded a b := by
  rw [PoolKey.eq_iff, keyOf_canonical, keyOf_canonical]
  constructor
  · intro h
    simp only [keyOf, PoolKey.mk.injEq, Option.some.injEq] at h
    obtain ⟨hscheme, hhost, hport, hproxy, hverify, -, hrev, hmin, -, hmode, hfile, hextra, -,
      hpins, -⟩ := h
    exact ⟨hscheme, hhost, hport, Http2Mode.code_injective hmode, hverify, hfile, hextra, hrev,
      hmin, (keyPins_eq_iff a b).mp hpins, (activeProxy_text_inj a b).mp hproxy⟩
  · intro h
    have hhttps : a.uri.isHttps = b.uri.isHttps := by
      unfold Uri.isHttps
      rw [h.scheme]
    have hpins := (keyPins_eq_iff a b).mpr h.pins
    simp only [keyOf, PoolKey.mk.injEq, h.scheme, h.host, h.port, h.http2,
      h.verify, h.caFile, h.caExtraFile, h.revocation, h.minVersion, hpins, hhttps, true_and,
      and_true]
    exact (activeProxy_text_inj a b).mpr h.proxy

lemma tlsCfgFor_verify (o : GetOpts) :
    (tlsCfgFor o).verifyPeer = o.verify ∧ (tlsCfgFor o).verifyHostname = o.verify := by
  unfold tlsCfgFor
  cases o.caFile <;> exact ⟨rfl, rfl⟩

lemma tlsCfgFor_recorded (o : GetOpts) :
    (tlsCfgFor o).caExtraFile = o.tls.bind TlsConfig.caExtraFile ∧
      (tlsCfgFor o).revocation = (o.tls.map TlsConfig.revocation).getD 0 := by
  unfold tlsCfgFor
  cases o.caFile <;> cases o.tls <;> exact ⟨rfl, rfl⟩

lemma tlsCfgFor_caFile {t : HopTarget} (h : t.CaFileAgrees) :
    (tlsCfgFor t.opts).caFile = t.opts.caFile := by
  unfold tlsCfgFor
  cases hfile : t.opts.caFile with
  | some file => rfl
  | none =>
    cases htls : t.opts.tls with
    | none => rfl
    | some tls =>
      by_contra hne
      have := h tls htls hne
      rw [hfile] at this
      exact hne this

/-- What two hops must agree on is what the key records together with what it does not. -/
lemma agree_of_recorded {a b : HopTarget} (ha : a.CaFileAgrees) (hb : b.CaFileAgrees)
    (hrec : SameRecorded a b) (hunrec : SameUnrecorded a b) : Agree a b where
  scheme := hrec.scheme
  host := hrec.host
  port := hrec.port
  http2 := hrec.http2
  verifyPeer := by
    rw [(tlsCfgFor_verify _).1, (tlsCfgFor_verify _).1, hrec.verify]
  verifyHostname := by
    rw [(tlsCfgFor_verify _).2, (tlsCfgFor_verify _).2, hrec.verify]
  source := hunrec.source
  caFile := by
    rw [tlsCfgFor_caFile ha, tlsCfgFor_caFile hb, hrec.caFile]
  caData := hunrec.caData
  caExtraFile := by
    rw [(tlsCfgFor_recorded _).1, (tlsCfgFor_recorded _).1, hrec.caExtraFile]
  revocation := by
    rw [(tlsCfgFor_recorded _).2, (tlsCfgFor_recorded _).2, hrec.revocation]
  minVersion := hunrec.minVersion
  pins := hunrec.pins
  proxy := hunrec.proxy

/-- The keys of two hops keep apart what must be kept apart, and are reproducible. -/
def Separated (a b : HopTarget) : Prop :=
  (∀ ka kb, enginePoolKey a = some ka → enginePoolKey b = some kb → ka.eq kb = true →
      Agree a b) ∧
    ∀ ka ka', enginePoolKey a = some ka → enginePoolKey a = some ka' → ka.eq ka' = true

lemma separated_of_unrecorded {a b : HopTarget} (ha : a.CaFileAgrees) (hb : b.CaFileAgrees)
    (hcond : SameRecorded a b → SameUnrecorded a b) : Separated a b := by
  constructor
  · intro ka kb hka hkb heq
    rw [enginePoolKey_eq hka, enginePoolKey_eq hkb, keyOf_eq_iff] at heq
    exact agree_of_recorded ha hb heq (hcond heq)
  · intro k k' hk hk'
    rw [hk, Option.some.injEq] at hk'
    rw [hk']
    exact PoolKey.eq_refl k'

/-- Two hops for which keys are built are separated exactly when those of their settings
that the key does not fix agree as soon as the recorded ones do. -/
theorem enginePoolKey_separated_iff (a b : HopTarget) (ha : a.CaFileAgrees)
    (hb : b.CaFileAgrees) (hka : (enginePoolKey a).isSome) (hkb : (enginePoolKey b).isSome) :
    Separated a b ↔ (SameRecorded a b → SameUnrecorded a b) := by
  obtain ⟨ka, hka⟩ := Option.isSome_iff_exists.mp hka
  obtain ⟨kb, hkb⟩ := Option.isSome_iff_exists.mp hkb
  constructor
  · rintro ⟨hsep, -⟩ hrec
    have heq : ka.eq kb = true := by
      rw [enginePoolKey_eq hka, enginePoolKey_eq hkb]
      exact (keyOf_eq_iff a b).mpr hrec
    have hagree := hsep ka kb hka hkb heq
    exact ⟨hagree.source, hagree.caData, hagree.minVersion, hagree.pins, hagree.proxy⟩
  · exact separated_of_unrecorded ha hb

def exampleUri : Uri :=
  { scheme := ascii "https", host := ascii "example.com", pathQuery := ascii "/",
    userinfo := none, port := 443, portExplicit := false, schemeKnown := by decide,
    hostLower := by decide, portValid := by decide }

/-- A hop to one origin under a trust configuration, without a proxy. -/
def hopUnder (tls : TlsConfig) : HopTarget :=
  { uri := exampleUri, opts := { tls := some tls }, proxy := none }

/-- Inline CA bytes that differ leave the keys equal. -/
theorem enginePoolKey_not_separated :
    ¬Separated (hopUnder { TlsConfig.init with source := .data, caData := some (ascii "A") })
      (hopUnder { TlsConfig.init with source := .data, caData := some (ascii "B") }) := by
  rintro ⟨hsep, -⟩
  have hagree := hsep _ _ rfl rfl (by decide)
  exact absurd hagree.caData (by decide)

theorem enginePoolKey_separated_iff_pins :
    Separated (hopUnder { TlsConfig.init with pins := [ascii "sha256//A"] })
      (hopUnder { TlsConfig.init with pins := [ascii "sha256//B"] }) := by
  rw [enginePoolKey_separated_iff _ _ (by simp [CaFileAgrees, hopUnder, TlsConfig.init])
    (by simp [CaFileAgrees, hopUnder, TlsConfig.init]) (by decide) (by decide)]
  intro hrec
  exact absurd hrec.pins (by decide)

/-- The trust configurations that the R layer builds: the CA comes from a file or from the
system, the minimum version is set, no pin holds the byte that joins pins, and a proxy has
a user name or none, never an empty one. -/
structure Plain (t : HopTarget) : Prop where
  source : ∀ tls ∈ t.opts.tls, tls.source = if t.opts.caFile = none then .system else .file
  caData : ∀ tls ∈ t.opts.tls, tls.caData = none
  minVersion : ∀ tls ∈ t.opts.tls, tls.minVersion ≠ 0
  pins : ∀ tls ∈ t.opts.tls, ∀ pin ∈ tls.pins, (31 : UInt8) ∉ pin
  proxy : ∀ p ∈ t.activeProxy, p.scheme ≠ none ∧ p.host ≠ none ∧
    (p.username = none ∧ p.password = none ∨ p.username ≠ none ∧ p.username ≠ some [] ∧
      p.password ≠ none)

lemma pins_inj {a b : HopTarget} (ha : Plain a) (hb : Plain b) (h : a.pinPieces = b.pinPieces) :
    (tlsCfgFor a.opts).pins = (tlsCfgFor b.opts).pins := by
  have hwhole : ∀ t : HopTarget, Plain t → t.pinPieces = (tlsCfgFor t.opts).pins := by
    intro t ht
    have hfree : ∀ pin ∈ (tlsCfgFor t.opts).pins, Cut.splitOn (31 : UInt8) pin = [pin] := by
      rw [tlsCfgFor_pins]
      intro pin hpin
      cases htls : t.opts.tls with
      | none =>
        rw [htls] at hpin
        cases hpin
      | some tls =>
        rw [htls] at hpin
        exact Cut.splitOn_of_notMem (ht.pins tls htls pin hpin)
    unfold pinPieces
    rw [List.flatMap_congr hfree, List.flatMap_singleton']
  rw [← hwhole a ha, ← hwhole b hb, h]

lemma filled_inj {p q : Proxy} {a b : HopTarget} (ha : Plain a) (hb : Plain b)
    (hp : a.activeProxy = some p) (hq : b.activeProxy = some q) (h : p.filled = q.filled) :
    p = q := by
  obtain ⟨hps, hph, hpu⟩ := ha.proxy p hp
  obtain ⟨hqs, hqh, hqu⟩ := hb.proxy q hq
  obtain ⟨pUse, pScheme, pHost, pPort, pUser, pPass⟩ := p
  obtain ⟨qUse, qScheme, qHost, qPort, qUser, qPass⟩ := q
  simp only [Proxy.filled, Proxy.mk.injEq, Option.some.injEq] at h hps hph hpu hqs hqh hqu ⊢
  obtain ⟨huse, hscheme, hhost, hport, huser, hpass⟩ := h
  have hget : ∀ {x y : Option Bytes} {d : Bytes}, x ≠ none → y ≠ none →
      x.getD d = y.getD d → x = y := by
    intro x y d hx hy hxy
    cases x <;> cases y <;> simp_all
  refine ⟨huse, hget hps hqs hscheme, hget hph hqh hhost, hport, ?_⟩
  rcases hpu with ⟨rfl, rfl⟩ | ⟨hpu, hpne, hpp⟩ <;> rcases hqu with ⟨rfl, rfl⟩ | ⟨hqu, hqne, hqp⟩
  · exact ⟨rfl, rfl⟩
  · cases qUser <;> simp_all
  · cases pUser <;> simp_all
  · exact ⟨hget hpu hqu huser, hget hpp hqp hpass⟩

lemma plain_unrecorded {a b : HopTarget} (ha : Plain a) (hb : Plain b)
    (hrec : SameRecorded a b) : SameUnrecorded a b := by
  have hcfg : ∀ t : HopTarget, Plain t →
      (tlsCfgFor t.opts).source = (if t.opts.caFile = none then .system else .file) ∧
        (tlsCfgFor t.opts).caData = none ∧
        (tlsCfgFor t.opts).minVersion =
          if (t.opts.tls.map TlsConfig.minVersion).getD 0 = 0 then 12
          else (t.opts.tls.map TlsConfig.minVersion).getD 0 := by
    intro t ht
    unfold tlsCfgFor
    cases htls : t.opts.tls with
    | none => cases hfile : t.opts.caFile <;> simp [TlsConfig.init]
    | some tls =>
      have hsource := ht.source tls htls
      have hdata := ht.caData tls htls
      have hmin := ht.minVersion tls htls
      cases hfile : t.opts.caFile with
      | none => simp [hsource, hdata, hmin, hfile]
      | some file => simp [hdata, hmin]
  obtain ⟨hsa, hda, hma⟩ := hcfg a ha
  obtain ⟨hsb, hdb, hmb⟩ := hcfg b hb
  refine ⟨?_, ?_, ?_, pins_inj ha hb hrec.pins, ?_⟩
  · rw [hsa, hsb, hrec.caFile]
  · rw [hda, hdb]
  · rw [hma, hmb, hrec.minVersion]
  · have hproxy := hrec.proxy
    cases hpa : a.activeProxy with
    | none =>
      cases hpb : b.activeProxy with
      | none => rfl
      | some q => simp [hpa, hpb] at hproxy
    | some p =>
      cases hpb : b.activeProxy with
      | none => simp [hpa, hpb] at hproxy
      | some q =>
        rw [hpa, hpb] at hproxy
        rw [filled_inj ha hb hpa hpb (by simpa using hproxy)]

/-- Hops with the trust configurations of the R layer are separated. -/
theorem plain_separated (a b : HopTarget) (ha : Plain a) (hb : Plain b)
    (hfilea : a.CaFileAgrees) (hfileb : b.CaFileAgrees) : Separated a b :=
  separated_of_unrecorded hfilea hfileb (plain_unrecorded ha hb)

end Zuhttp
