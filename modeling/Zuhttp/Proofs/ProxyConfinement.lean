import Zuhttp.Proofs.ProxyAuth

/-!
# Which connections a proxy's credentials go over

A connection is traced through the pool back to the hop that opened it.
-/

namespace Zuhttp

open Prog World

variable {Z : Zlib} {env : Env} {call : Call} {w : World Z}

/-- How a connection was opened, and the proxy of the hop that did. -/
structure Origin where
  via : Opening
  proxy : Proxy

/-- What a call leaves, its unread body read on or the result freed. -/
inductive Left (Z : Zlib) (env : Env) (call : Call) : World Z → Prop
  | ran (host : Host) (next release : Bool) (answers : List (Except Fail Bytes))
      (sink : Option Sink) :
      Left Z env call (exec (perform env call) (World.start host next release answers sink)).2
  | read {w : World Z} (cs : List OpenBody.Call) (h : Left Z env call w) :
      Left Z env call (w.callBody cs)
  | freed {w : World Z} (h : Left Z env call w) : Left Z env call w.freeResult

/-- Under the key the pool may hold a connection that was opened as `o` and is HTTP/2 or not.
A pooled connection of one object is what the pool handed out before; HTTP/2 put around it
makes it two. -/
inductive Shelved (Z : Zlib) : PoolKey → Origin → Bool → Prop
  | opened {env : Env} {call : Call} {w : World Z} {p : Pooled} {u : Uri} {px : Proxy}
      (hleft : Left Z env call w) (hp : p ∈ w.pooled) (hnew : ∀ key, p.stream.via ≠ .pool key)
      (hresolves : Resolves env call u px)
      (hkey : enginePoolKey ⟨u, call.opts.toGetOpts, some px⟩ = some p.key) :
      Shelved Z p.key ⟨p.stream.via, px⟩ p.stream.conn.isH2
  | again {env : Env} {call : Call} {w : World Z} {p : Pooled} {key k : PoolKey} {o : Origin}
      {h2 : Bool} (hleft : Left Z env call w) (hp : p ∈ w.pooled)
      (hvia : p.stream.via = .pool key) (hshelved : Shelved Z k o h2) (hsame : k.eq key = true)
      (hkind : p.stream.layers.length = 1 → p.stream.conn.isH2 = h2) :
      Shelved Z p.key o p.stream.conn.isH2

/-- The connection of a request may be one that was opened as `o`. -/
def Traced (Z : Zlib) (env : Env) (r : Sent) (o : Origin) : Prop :=
  match r.via with
  | .pool key => ∃ a k, (env.hop r.hop).acquired = some a ∧ Shelved Z k o a.conn.isH2 ∧
      k.eq key = true
  | via => o = ⟨via, r.proxy⟩

lemma Left.deals (h : Left Z env call w) : Dealings env call w := by
  induction h with
  | ran host next release answers sink =>
    have hstart : Dealings env call (World.start (Z := Z) host next release answers sink) :=
      ⟨fun _ hr => (by cases hr), fun _ hp => (by cases hp), fun _ ht => (by cases ht),
        fun _ ho => (by cases ho)⟩
    have hends := perform_deals env call _ hstart
    cases hrun : exec (perform env call) (World.start host next release answers sink) with
    | mk res w =>
      rw [hrun] at hends
      cases res <;> exact hends
  | read cs _ ih => exact ih.callBody cs
  | freed _ ih => exact ih.freeResult

/-! ### The credentials of a resolved proxy -/

/-- A user name comes with a password. -/
def Paired (px : Proxy) : Prop := px.username.isSome = px.password.isSome

lemma parse_paired (lib : UriLib) (url : Bytes) : Gives Paired (Proxy.parse lib url) := by
  unfold Proxy.parse
  refine Gives.ite (fun _ => Gives.pure rfl) (fun _ => Gives.andThen (fun _ => ?_))
  refine Gives.andThen (fun _ => Gives.ite (fun _ => Gives.fails (Host.refuse_fails _ _ _))
    (fun _ => ?_))
  cases lib.parse _ with
  | error rc =>
    exact Gives.ite (fun _ => Gives.fails (Host.refuse_fails _ _ _))
      (fun _ => Gives.fails (Host.refuse_fails _ _ _))
  | ok u =>
    refine Gives.ite (fun _ => Gives.fails (Host.refuse_fails _ _ _))
      (fun _ => Gives.andThen (fun _ => ?_))
    dsimp only
    split
    · exact Gives.pure rfl
    · refine Gives.andThen (fun _ => ?_)
      split
      · exact Gives.pure rfl
      · exact Gives.fails (Host.refuse_fails _ _ _)

lemma resolve_paired (lib : UriLib) (getenv : Bytes → Option Bytes) (override : Option Bytes)
    (overrideSet : Bool) (target : Uri) :
    Gives Paired (Proxy.resolve lib getenv override overrideSet target) := by
  have hsetting : ∀ url, Gives Paired (Proxy.parseSetting lib url) := fun url =>
    (parse_paired lib url).bind (fun p hp => Gives.ite
      (fun _ => Gives.andThen (fun _ => Gives.pure hp)) (fun _ => Gives.pure hp))
  unfold Proxy.resolve
  refine Gives.ite (fun _ => ?_) (fun _ => ?_)
  · cases override with
    | none => exact Gives.pure rfl
    | some url => exact Gives.ite (fun _ => Gives.pure rfl) (fun _ => hsetting url)
  · split
    · exact Gives.pure rfl
    · split
      · exact hsetting _
      · exact Gives.ite (fun _ => Gives.pure rfl) (fun _ => hsetting _)

lemma Resolves.paired {u : Uri} {px : Proxy} (h : Resolves env call u px) : Paired px := by
  obtain ⟨s, t, hrun⟩ := h
  exact Triple.ok (resolve_paired _ _ _ _ _) trivial hrun

/-! ### Tracing a connection -/

/-- The connection goes to the proxy. A missing user name counts as an empty one. -/
structure Serves (o : Origin) (px : Proxy) : Prop where
  via : o.via = .tcp (px.host.getD []) px.port
  filled : o.proxy.filled = px.filled
  paired : Paired o.proxy

lemma Serves.filled_eq {o : Origin} {p q : Proxy} (h : Serves o p) (hpq : p.filled = q.filled) :
    Serves o q := by
  obtain ⟨hinUse, hscheme, hhost, hport, huser, hpass⟩ := Proxy.mk.inj hpq
  refine ⟨?_, h.filled.trans hpq, h.paired⟩
  rw [h.via, Option.some.inj hhost, show p.port = q.port from hport]

lemma recorded_of_eq {a b : HopTarget} {ka kb : PoolKey} (hka : enginePoolKey a = some ka)
    (hkb : enginePoolKey b = some kb) (heq : ka.eq kb = true) : SameRecorded a b := by
  rwa [enginePoolKey_eq hka, enginePoolKey_eq hkb, keyOf_eq_iff] at heq

/-- A plain hop through a proxy and one with the same record. -/
lemma SameRecorded.plain {t : HopTarget} {u : Uri} {opts : GetOpts} {px q : Proxy}
    (h : SameRecorded ⟨u, opts, some px⟩ t) (hplain : t.uri.isHttps = false)
    (hq : t.activeProxy = some q) :
    u.isHttps = false ∧ px.inUse = true ∧ px.filled = q.filled := by
  have hproxy := h.proxy
  rw [hq] at hproxy
  obtain ⟨p, hp, hfilled⟩ := Option.map_eq_some_iff.mp hproxy
  obtain ⟨hsame, hinUse⟩ := Option.filter_eq_some_iff.mp hp
  obtain rfl : px = p := Option.some.inj hsame
  refine ⟨?_, hinUse, hfilled⟩
  have hscheme : u.scheme = t.uri.scheme := h.scheme
  unfold Uri.isHttps at hplain ⊢
  rwa [hscheme]

/-- What the pool holds for a plain hop through a proxy is a connection over HTTP/1.1 that
was opened to that proxy, and with those credentials. -/
theorem Shelved.serves {k : PoolKey} {o : Origin} {h2 : Bool} (h : Shelved Z k o h2)
    {t : HopTarget} {kt : PoolKey} {q : Proxy} (hkt : enginePoolKey t = some kt)
    (heq : k.eq kt = true) (hplain : t.uri.isHttps = false) (hq : t.activeProxy = some q) :
    h2 = false ∧ Serves o q := by
  induction h generalizing t kt q with
  | @opened env call w p u px hleft hp hnew hresolves hkey =>
    obtain ⟨n, u', px', hresolves', hreaches, hkey'⟩ := hleft.deals.pooled p hp
    obtain ⟨hhttp', huse', hfilled'⟩ := (recorded_of_eq hkey' hkt heq).plain hplain hq
    obtain ⟨-, -, hfilled⟩ := (recorded_of_eq hkey hkt heq).plain hplain hq
    constructor
    · rw [Bool.eq_false_iff]
      intro hh2
      rcases hreaches.kind hh2 with hhttps | hunused | ⟨⟨key, hvia⟩, -⟩
      · exact Bool.false_ne_true (hhttp'.symm.trans hhttps)
      · exact Bool.false_ne_true (hunused.symm.trans huse')
      · exact hnew key hvia
    · refine Serves.filled_eq (p := px')
        ⟨?_, hfilled.trans hfilled'.symm, hresolves.paired⟩ hfilled'
      have hopened := hreaches.opened
      cases hvia : p.stream.via with
      | pool key => exact absurd hvia (hnew key)
      | tcp host port =>
        rw [hvia] at hopened
        obtain ⟨rfl, rfl⟩ := hopened huse'
        rfl
      | backend host port proxy =>
        rw [hvia] at hopened
        exact absurd (hhttp'.symm.trans hopened) Bool.false_ne_true
  | @again env call w p key k o h2 hleft hp hvia hshelved hsame hkind ih =>
    obtain ⟨n, u', px', hresolves', hreaches, hkey'⟩ := hleft.deals.pooled p hp
    obtain ⟨hhttp', huse', hfilled'⟩ := (recorded_of_eq hkey' hkt heq).plain hplain hq
    have hopened := hreaches.opened
    rw [hvia] at hopened
    have hactive : HopTarget.activeProxy ⟨u', call.opts.toGetOpts, some px'⟩ = some px' :=
      Option.filter_eq_some_iff.mpr ⟨rfl, huse'⟩
    obtain ⟨hh1, hserves⟩ := ih hopened hsame hhttp' hactive
    refine ⟨?_, hserves.filled_eq hfilled'⟩
    rw [Bool.eq_false_iff]
    intro hh2
    rcases hreaches.kind hh2 with hhttps | hunused | ⟨-, hlayers, -⟩
    · exact Bool.false_ne_true (hhttp'.symm.trans hhttps)
    · exact Bool.false_ne_true (hunused.symm.trans huse')
    · exact Bool.false_ne_true (hh1.symm.trans ((hkind hlayers).symm.trans hh2))

/-! ### The credentials of a run -/

/-- A user name and a password that are there and empty. -/
def BlankCredentials (px : Proxy) : Prop := px.username.getD [] = [] ∧ px.password.getD [] = []

structure SameCredentials (p q : Proxy) : Prop where
  username : p.username = q.username
  password : p.password = q.password

/-- The connection of a request that carries the credentials of its proxy. -/
structure GoesTo (r : Sent) (o : Origin) : Prop where
  overH1 : r.h2 = false
  via : o.via = .tcp (r.proxy.host.getD []) r.proxy.port
  credentials : ¬BlankCredentials r.proxy → SameCredentials o.proxy r.proxy

lemma Serves.credentials {o : Origin} {px : Proxy} (h : Serves o px) (hpaired : Paired px)
    (huser : px.username ≠ none) (hblank : ¬BlankCredentials px) :
    SameCredentials o.proxy px := by
  obtain ⟨-, -, -, -, hname, hpass⟩ := Proxy.mk.inj h.filled
  have hname := Option.some.inj hname
  have hpass := Option.some.inj hpass
  have hpaired' := h.paired
  unfold Paired at hpaired hpaired'
  cases hu : px.username with
  | none => exact absurd hu huser
  | some user =>
    rw [hu] at hpaired hname
    cases hp : px.password with
    | none =>
      rw [hp] at hpaired
      cases hpaired
    | some pass =>
      rw [hp] at hpass
      cases hu' : o.proxy.username with
      | none =>
        -- an origin without credentials would make the proxy's blank
        rw [hu'] at hpaired' hname
        have hnone := Option.isSome_eq_false_iff.mp hpaired'.symm
        rw [Option.isNone_iff_eq_none.mp hnone] at hpass
        refine absurd ⟨?_, ?_⟩ hblank
        · rw [hu, ← hname]
          rfl
        · rw [hp, ← hpass]
          rfl
      | some user' =>
        rw [hu'] at hpaired' hname
        obtain ⟨pass', hp'⟩ := Option.isSome_iff_exists.mp hpaired'.symm
        rw [hp'] at hpass
        exact ⟨hu'.trans (congrArg some hname) |>.trans hu.symm,
          hp'.trans (congrArg some hpass) |>.trans hp.symm⟩

/-- A request that carries the credentials goes over a connection to the proxy. -/
lemma SentTo.goes {r : Sent} {o : Origin} (h : SentTo env call r)
    (hforwards : Forwards r.proxy r.uri r.rq) (htraced : Traced Z env r o) : GoesTo r o := by
  have hunh2 : ¬(∃ key, r.via = .pool key) ∨ ¬HandedH2 env r.hop → r.h2 = false := by
    intro hno
    rw [Bool.eq_false_iff]
    intro hh2
    rcases h.kind hh2 with hhttps | hunused | ⟨hpool, hhanded⟩
    · exact Bool.false_ne_true (hforwards.plain.symm.trans hhttps)
    · exact Bool.false_ne_true (hunused.symm.trans hforwards.inUse)
    · exact hno.elim (fun hno => hno hpool) (fun hno => hno hhanded)
  have hopened := h.opened
  cases hvia : r.via with
  | pool key =>
    unfold Traced at htraced
    rw [hvia] at htraced hopened
    obtain ⟨a, k, hacquired, hshelved, heq⟩ := htraced
    obtain ⟨hh1, hserves⟩ := hshelved.serves hopened heq hforwards.plain
      (Option.filter_eq_some_iff.mpr ⟨rfl, hforwards.inUse⟩)
    refine ⟨hunh2 (Or.inr ?_), hserves.via,
      hserves.credentials h.resolves.paired hforwards.user⟩
    rintro ⟨a', hacquired', hh2⟩
    obtain rfl : a = a' := Option.some.inj (hacquired.symm.trans hacquired')
    exact Bool.false_ne_true (hh1.symm.trans hh2)
  | tcp host port =>
    unfold Traced at htraced
    rw [hvia] at htraced hopened
    obtain rfl : o = ⟨.tcp host port, r.proxy⟩ := htraced
    obtain ⟨rfl, rfl⟩ := hopened hforwards.inUse
    refine ⟨hunh2 (Or.inl ?_), rfl, fun _ => ⟨rfl, rfl⟩⟩
    rintro ⟨key, hpool⟩
    rw [hvia] at hpool
    cases hpool
  | backend host port proxy =>
    rw [hvia] at hopened
    exact absurd (hforwards.plain.symm.trans hopened) Bool.false_ne_true

/-- A run asks for tunnels over connections to the proxy only, and a request has the proxy's
credentials only in absolute form, over HTTP/1.1 and over a connection that was opened to
that proxy; with those credentials, unless they are blank. -/
theorem perform_proxyAuth (env : Env) (call : Call) (host : Host) (next release : Bool)
    (answers : List (Except Fail Bytes)) (sink : Option Sink) :
    let w := (exec (perform (Z := Z) env call) (World.start host next release answers sink)).2
    (∀ t ∈ w.tunnels, TunnelTo env call t) ∧
    ∀ r ∈ w.sent, Resolves env call r.uri r.proxy ∧
      ∃ own kept, OwnAuth r.proxy r.uri r.rq own ∧ kept.Sublist call.req.headers ∧
        fieldsNamed proxyAuthName r.rq.headers.fields =
          own ++ fieldsNamed proxyAuthName kept ∧
        (own ≠ [] → ∀ o, Traced Z env r o → GoesTo r o) := by
  intro w
  have hdeals : Dealings env call w := (Left.ran host next release answers sink).deals
  refine ⟨hdeals.tunnels, fun r hr => ?_⟩
  have hsent := hdeals.sent r hr
  obtain ⟨own, kept, hown, hkept, hfields⟩ := hsent.auth
  refine ⟨hsent.resolves, own, kept, hown, hkept, hfields, fun hne o htraced => ?_⟩
  exact hsent.goes (hown.resolve_left hne).1 htraced

/-- The only connection that a run left in the pool. -/
lemma Shelved.only {key : PoolKey} {via : Opening} {h2 : Bool} {u : Uri} {px : Proxy}
    (hleft : Left Z env call w)
    (hpooled : w.pooled.map (fun p => (p.key, p.stream.via, p.stream.conn.isH2)) = [(key, via, h2)])
    (hnew : ∀ k, via ≠ .pool k) (hresolves : Resolves env call u px)
    (hkey : enginePoolKey ⟨u, call.opts.toGetOpts, some px⟩ = some key) :
    Shelved Z key ⟨via, px⟩ h2 := by
  obtain ⟨p, rest, hw, hp, -⟩ := List.map_eq_cons_iff.mp hpooled
  obtain ⟨rfl, rfl, rfl⟩ : p.key = key ∧ p.stream.via = via ∧ p.stream.conn.isH2 = h2 := by
    simpa only [Prod.mk.injEq] using hp
  exact Shelved.opened hleft (by rw [hw]; exact List.mem_cons_self) hnew hresolves hkey

/-! ### Blank credentials -/

/-- A proxy with the default port, with and without an empty user name. -/
def bareProxy : Uri := .http "px" "/"
def blankProxy : Uri := { bareProxy with userinfo := some [] }

def proxiedCall (url : String) : Call where
  url := ascii "http://a/"
  opts := { proxy := some (ascii url), proxySet := true, pool := true }

/-- The proxy answers over a new connection or one of the pool. -/
def proxiedEnv (acquired : Option Acquired) : Env where
  uri := .known [(ascii "http://a/", .http "a" "/" lower_a), (ascii "http://px", bareProxy),
    (ascii "http://@px", blankProxy)]
  hop _ := {
    HopScript.plain [.text "HTTP/1.1 200 OK\r\nContent-Length: 0\r\n\r\n" okReply_fits] with
    acquired := acquired }

def pooledConn : Acquired where
  conn := .h1 { reads := [.text "HTTP/1.1 200 OK\r\nContent-Length: 0\r\n\r\n" okReply_fits] }

/-- The proxy of the calls, without credentials. -/
def bareHop : Proxy :=
  { Proxy.init with
    inUse := true, scheme := some (ascii "http"), host := some (ascii "px"), port := 80 }

/-- The key of a hop with blank credentials is the one of a hop with none. -/
def sharedKey : PoolKey :=
  (enginePoolKey ⟨.http "a" "/" lower_a, {}, some bareHop⟩).getD PoolKey.init

lemma bareRun_pooled : (exec (perform (Z := Zlib.knowing [] []) (proxiedEnv none)
    (proxiedCall "http://px")) (World.start {} false false [] none)).2.pooled.map
      (fun p => (p.key, p.stream.via, p.stream.conn.isH2)) =
        [(sharedKey, .tcp (ascii "px") 80, false)] := by decide +kernel

lemma blankRun_sent : (exec (perform (Z := Zlib.knowing [] []) (proxiedEnv (some pooledConn))
    (proxiedCall "http://@px")) (World.start {} false false [] none)).2.sent.map
      (fun r => (r.via, r.proxy.username, fieldsNamed proxyAuthName r.rq.headers.fields)) =
        [(.pool sharedKey, some [], [(proxyAuthName, ascii "Basic Og==")])] := by decide +kernel

lemma bareHop_resolves :
    Resolves (proxiedEnv none) (proxiedCall "http://px") (.http "a" "/" lower_a) bareHop := by
  have hrun : (exec (Proxy.resolve (proxiedEnv none).uri (proxiedEnv none).getenv
      (proxiedCall "http://px").opts.proxy (proxiedCall "http://px").opts.proxySet
      (.http "a" "/" lower_a)) {}).1 = .ok bareHop := by decide +kernel
  unfold Resolves
  generalize Proxy.resolve (proxiedEnv none).uri (proxiedEnv none).getenv
    (proxiedCall "http://px").opts.proxy (proxiedCall "http://px").opts.proxySet
    (.http "a" "/" lower_a) = m at hrun
  exact ⟨{}, (exec m {}).2, Prod.ext hrun rfl⟩

lemma bareHop_key : enginePoolKey ⟨.http "a" "/" lower_a, (proxiedCall "http://px").opts.toGetOpts,
    some bareHop⟩ = some sharedKey := by decide +kernel

/-- A connection opened without credentials is in the pool for blank ones. -/
lemma bareRun_shelved :
    Shelved (Zlib.knowing [] []) sharedKey ⟨.tcp (ascii "px") 80, bareHop⟩ false :=
  Shelved.only (Left.ran {} false false [] none) bareRun_pooled (fun _ => nofun) bareHop_resolves
    bareHop_key

/-- The credentials of a proxy go over a connection that was opened without any. -/
theorem perform_sharesProxy : ¬∀ (env : Env) (call : Call) (host : Host) (next release : Bool)
    (answers : List (Except Fail Bytes)) (sink : Option Sink),
    let w := (exec (perform (Z := Zlib.knowing [] []) env call)
      (World.start host next release answers sink)).2
    ∀ r ∈ w.sent, call.req.headers = [] →
      fieldsNamed proxyAuthName r.rq.headers.fields ≠ [] →
      ∀ o, Traced (Zlib.knowing [] []) env r o → SameCredentials o.proxy r.proxy := by
  intro hall
  have hrun := hall (proxiedEnv (some pooledConn)) (proxiedCall "http://@px") {} false false [] none
  have hsent := blankRun_sent
  have hshelved := bareRun_shelved
  dsimp only at hrun
  generalize (exec (perform (Z := Zlib.knowing [] []) (proxiedEnv (some pooledConn))
    (proxiedCall "http://@px")) (World.start {} false false [] none)).2.sent = sent at hrun hsent
  generalize sharedKey = key at hsent hshelved
  obtain ⟨r, rest, rfl, hr, -⟩ := List.map_eq_cons_iff.mp hsent
  simp only [Prod.mk.injEq] at hr
  obtain ⟨hvia, huser, hfields⟩ := hr
  have htraced : Traced (Zlib.knowing [] []) (proxiedEnv (some pooledConn)) r
      ⟨.tcp (ascii "px") 80, bareHop⟩ := by
    unfold Traced
    rw [hvia]
    exact ⟨pooledConn, key, rfl, hshelved, PoolKey.eq_refl _⟩
  have hne : fieldsNamed proxyAuthName r.rq.headers.fields ≠ [] := by
    rw [hfields]
    exact List.cons_ne_nil _ _
  have hsame := (hrun r List.mem_cons_self rfl hne _ htraced).username
  rw [huser] at hsame
  cases hsame

end Zuhttp
