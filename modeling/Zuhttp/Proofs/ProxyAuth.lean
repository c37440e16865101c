import Zuhttp.Proofs.EngineKey
import Zuhttp.Proofs.Exchange

/-!
# The credentials of a proxy

Which requests carry them, and over which connections: what every request, tunnel and pooled
connection of a run has to do with the proxy of its hop.
-/

namespace Zuhttp

open Prog World

/-! ### The fields of a request -/

def proxyAuthName : Bytes := ascii "Proxy-Authorization"

/-- The value that is built from the credentials of a proxy. -/
def IsAuthValue (px : Proxy) (v : Bytes) : Prop :=
  ∃ b, exec (do px.authValue; Buffer.cstr) (Buffer.init 4096) = (.ok v, b)

/-- A plain request in absolute form to a proxy that wants credentials. -/
structure Forwards (px : Proxy) (u : Uri) (rq : Request) : Prop where
  inUse : px.inUse = true
  plain : u.isHttps = false
  absolute : rq.form = .absolute
  user : px.username ≠ none

/-- The field a request has of the engine: none, or the credentials of the proxy it goes to. -/
def OwnAuth (px : Proxy) (u : Uri) (rq : Request) (own : List (Bytes × Bytes)) : Prop :=
  own = [] ∨ Forwards px u rq ∧ ∃ v, IsAuthValue px v ∧ own = [(proxyAuthName, v)]

/-- The fields of that name: the engine's, then some of the caller's. -/
def AuthFields (hs : List (Bytes × Bytes)) (px : Proxy) (u : Uri) (rq : Request) : Prop :=
  ∃ own kept, OwnAuth px u rq own ∧ kept.Sublist hs ∧
    fieldsNamed proxyAuthName rq.headers.fields = own ++ fieldsNamed proxyAuthName kept

variable {call : Call} {px : Proxy} {u : Uri}

lemma addProxyAuth_named (h : Headers) (hempty : h.fields = []) :
    Gives (fun h' : Headers => h'.fields = [] ∨
      px.username ≠ none ∧ ∃ v, IsAuthValue px v ∧ h'.fields = [(proxyAuthName, v)])
      (addProxyAuth px h) := by
  unfold addProxyAuth
  refine Gives.ite (fun _ => Gives.pure (Or.inl hempty)) (fun huser => ?_)
  refine (render_gives _ _).bind (fun value hvalue => ?_)
  cases value with
  | none => exact Gives.throw _
  | some v =>
    refine (addHeader_gives h _ v).imp (fun h' hh' => Or.inr ⟨huser, v, hvalue v rfl, ?_⟩)
    rw [hh', hempty]
    rfl

lemma requestTarget_named (rq : Request) (hempty : rq.headers.fields = []) :
    Gives (fun rq' : Request => OwnAuth px u rq' rq'.headers.fields) (requestTarget px u rq) := by
  unfold requestTarget
  refine Gives.ite (fun huse => Gives.andThen (fun _ => ?_)) (fun _ => Gives.pure (Or.inl hempty))
  refine (addProxyAuth_named rq.headers hempty).bind (fun h hh => Gives.pure ?_)
  refine hh.imp id (fun hown => ⟨⟨huse.1, eq_false_of_ne_true huse.2, rfl, hown.1⟩, hown.2⟩)

lemma fieldsNamed_append_other {fs gs : List (Bytes × Bytes)}
    (h : ∀ f ∈ gs, ¬CaseEq f.1 proxyAuthName) :
    fieldsNamed proxyAuthName (fs ++ gs) = fieldsNamed proxyAuthName fs := by
  rw [fieldsNamed_append, fieldsNamed_eq_nil h, List.append_nil]

lemma addIdentity_named (noDecode : Bool) (h : Headers) :
    Gives (fun h' : Headers =>
      fieldsNamed proxyAuthName h'.fields = fieldsNamed proxyAuthName h.fields)
      (addIdentity noDecode h) := by
  unfold addIdentity
  refine Gives.ite (fun _ => (addHeader_gives h _ _).imp (fun h' hh' => ?_))
    (fun _ => Gives.pure rfl)
  rw [hh', fieldsNamed_append_other]
  intro f hf
  rw [List.mem_singleton.mp hf]
  decide

lemma fieldsNamed_own {rq : Request} {own : List (Bytes × Bytes)} (h : OwnAuth px u rq own) :
    fieldsNamed proxyAuthName own = own := by
  rcases h with rfl | ⟨-, v, -, rfl⟩
  · rfl
  · exact List.filter_cons_of_pos (by rw [decide_eq_true_eq]; exact CaseEq.refl _)

/-- Of the fields of that name a request gets at most one from the engine. -/
theorem buildRequest_auth (call : Call) (c : Chain) (px : Proxy) :
    Gives (AuthFields call.req.headers px c.cur) (buildRequest call c px) := by
  unfold buildRequest
  cases c.cur.hostHeader with
  | none => exact Gives.fails (Host.refuse_fails _ _ _)
  | some host =>
    refine (requestTarget_named _ rfl).bind (fun rq hrq => ?_)
    refine (addIdentity_named _ _).bind (fun h hh => ?_)
    refine (addCallerHeaders_gives _ _ _ _ _).bind (fun h' hh' => Gives.pure ?_)
    have hsame : (requestBody c rq).headers = rq.headers ∧ (requestBody c rq).form = rq.form := by
      unfold requestBody
      split_ifs <;> exact ⟨rfl, rfl⟩
    refine ⟨rq.headers.fields, keptHeaders call.opts.redact c.stripCreds call.req.headers,
      ?_, List.filter_sublist, ?_⟩
    · refine hrq.imp id (fun hown => ⟨?_, hown.2⟩)
      exact ⟨hown.1.inUse, hown.1.plain, hsame.2.trans hown.1.absolute, hown.1.user⟩
    · change fieldsNamed proxyAuthName h'.fields = _
      rw [hh', fieldsNamed_append, hh, hsame.1, fieldsNamed_own hrq]

/-- More fields of other names change nothing. -/
lemma AuthFields.more {rq : Request} {h : Headers} {fs : List (Bytes × Bytes)}
    (hauth : AuthFields call.req.headers px u rq) (hfields : h.fields = rq.headers.fields ++ fs)
    (hother : ∀ f ∈ fs, ¬CaseEq f.1 proxyAuthName) :
    AuthFields call.req.headers px u { rq with headers := h } := by
  obtain ⟨own, kept, hown, hkept, hnamed⟩ := hauth
  refine ⟨own, kept, hown.imp id (fun ho => ⟨⟨ho.1.inUse, ho.1.plain, ho.1.absolute, ho.1.user⟩,
    ho.2⟩), hkept, ?_⟩
  change fieldsNamed proxyAuthName h.fields = _
  rw [hfields, fieldsNamed_append_other hother, hnamed]

lemma isDefault_other {opts : PerformOpts} {rq : Request} {f : Bytes × Bytes}
    (h : IsDefault opts rq f) : ¬CaseEq f.1 proxyAuthName := by
  rcases h with ⟨host, -, rfl⟩ | h
  · exact (by decide : ¬CaseEq (ascii "Host") proxyAuthName)
  · have hnames : f.1 ∈ [ascii "User-Agent", ascii "Accept", ascii "Accept-Encoding",
        ascii "Connection"] := List.mem_map_of_mem (f := Prod.fst) h
    exact (by decide : ∀ n ∈ [ascii "User-Agent", ascii "Accept", ascii "Accept-Encoding",
      ascii "Connection"], ¬CaseEq n proxyAuthName) f.1 hnames

lemma addDefaults_auth {rq : Request} (hauth : AuthFields call.req.headers px u rq) :
    Gives (AuthFields call.req.headers px u) (addDefaults call.opts rq) := by
  refine (addDefaults_gives call.opts rq).imp (fun rq' hrq' => ?_)
  obtain ⟨hsame, ⟨ds, hds, hfields⟩, -⟩ := hrq'
  rw [hsame]
  exact hauth.more hfields (fun f hf => isDefault_other (hds f hf))

lemma finishH1_auth {rq : Request} (hauth : AuthFields call.req.headers px u rq) :
    Gives (fun r : Request × Bytes => AuthFields call.req.headers px u r.1)
      (finishH1 call.opts rq) := by
  refine Gives.andThen (fun _ => orBuildError_gives ?_)
  refine (addDefaults_auth hauth).bind (fun rq' hrq' => ?_)
  exact Gives.andThen (fun _ => Gives.pure hrq')

lemma finishH2_auth {c : Chain} {rq : Request} (hauth : AuthFields call.req.headers px u rq) :
    Gives (AuthFields call.req.headers px u) (finishH2 call.opts c rq) := by
  refine orBuildError_gives ((addDefaults_auth hauth).bind (fun rq' hrq' => ?_))
  refine Gives.ite (fun _ => ?_) (fun _ => Gives.pure hrq')
  refine (addHeader_gives _ _ _).bind (fun h hh => Gives.pure (hrq'.more hh ?_))
  intro f hf
  rw [List.mem_singleton.mp hf]
  exact (by decide : ¬CaseEq (ascii "Content-Length") proxyAuthName)

/-! ### The connections of a run -/

def Conn.isH2 : Conn → Bool
  | .h1 _ => false
  | .h2 _ => true

def BodyInput.isH2 : BodyInput → Bool
  | .h1 _ _ _ => false
  | .h2 _ => true

/-- The hop's connection as the pool handed it out is HTTP/2. -/
def HandedH2 (env : Env) (n : Nat) : Prop :=
  ∃ a, (env.hop n).acquired = some a ∧ a.conn.isH2 = true

/-- A connection opened for a target through a proxy: it goes to the proxy, unless TLS is
opened by the backend or the pool had one under the hop's key. -/
def OpenedTo (call : Call) (u : Uri) (px : Proxy) : Opening → Prop
  | .pool key => enginePoolKey ⟨u, call.opts.toGetOpts, some px⟩ = some key
  | .tcp host port => px.inUse = true → host = px.host.getD [] ∧ port = px.port
  | .backend _ _ _ => u.isHttps = true

/-- A stream of a hop. A plain connection to a proxy is HTTP/2 only if the pool handed it
out as such. -/
structure Reaches (env : Env) (call : Call) (n : Nat) (u : Uri) (px : Proxy) (s : Stream) :
    Prop where
  opened : OpenedTo call u px s.via
  kind : s.conn.isH2 = true → u.isHttps = true ∨ px.inUse = false ∨
    (∃ key, s.via = .pool key) ∧ s.layers.length = 1 ∧ HandedH2 env n

/-- The proxy is what `zuh_proxy_resolve` may answer for the target. -/
def Resolves (env : Env) (call : Call) (u : Uri) (px : Proxy) : Prop :=
  ∃ h h', exec (Proxy.resolve env.uri env.getenv call.opts.proxy call.opts.proxySet u) h =
    (.ok px, h')

/-- A request that was sent. -/
structure SentTo (env : Env) (call : Call) (r : Sent) : Prop where
  resolves : Resolves env call r.uri r.proxy
  auth : AuthFields call.req.headers r.proxy r.uri r.rq
  opened : OpenedTo call r.uri r.proxy r.via
  kind : r.h2 = true → r.uri.isHttps = true ∨ r.proxy.inUse = false ∨
    (∃ key, r.via = .pool key) ∧ HandedH2 env r.hop

/-- A stream that goes to the pool under a key. -/
def PooledAs (env : Env) (call : Call) (key : PoolKey) (s : Stream) : Prop :=
  ∃ n u px, Resolves env call u px ∧ Reaches env call n u px s ∧
    enginePoolKey ⟨u, call.opts.toGetOpts, some px⟩ = some key

/-- A tunnel that was asked for. -/
def TunnelTo (env : Env) (call : Call) (t : Opening × Bytes) : Prop :=
  ∃ u px, Resolves env call u px ∧ px.inUse = true ∧ u.isHttps = true ∧
    t.1 = .tcp (px.host.getD []) px.port ∧
    ∃ b, exec (px.writeConnect u) (Buffer.init 0) = (.ok (), b) ∧ t.2 = b.data

variable {Z : Zlib}

/-- What a run has to do with the proxies of its hops. -/
structure Dealings (env : Env) (call : Call) (w : World Z) : Prop where
  sent : ∀ r ∈ w.sent, SentTo env call r
  pooled : ∀ p ∈ w.pooled, PooledAs env call p.key p.stream
  tunnels : ∀ t ∈ w.tunnels, TunnelTo env call t
  held : ∀ o ∈ w.result.openBody, ∀ key ∈ o.key, PooledAs env call key o.stream

variable {env : Env} {n : Nat} {s : Stream} {α : Type}

lemma Dealings.onHost (m : HostProg α) : Keeps (Dealings (Z := Z) env call) (World.onHost m) :=
  Keeps.zoom (fun _ _ hw => ⟨hw.sent, hw.pooled, hw.tunnels, hw.held⟩)

lemma Dealings.gives {A : α → Prop} {m : HostProg α} (h : Gives A m) :
    Triple (Dealings (Z := Z) env call) (World.onHost m) (fun a w => A a ∧ Dealings env call w)
      (fun _ => Dealings env call) :=
  (Triple.zoomed (B := fun _ => True) h (fun _ _ hw =>
    ⟨hw.sent, hw.pooled, hw.tunnels, hw.held⟩)).conseq (fun _ hw => hw) (fun _ _ hw => hw)
      (fun _ _ hw => hw.2)

lemma Dealings.failing {m : HostProg α} {Q : α → World Z → Prop}
    (h : Triple (fun _ => True) m (fun _ _ => False) (fun _ _ => True)) :
    Triple (Dealings env call) (World.onHost m) Q (fun _ => Dealings env call) :=
  (Dealings.gives (A := fun _ => False) h).conseq (fun _ hw => hw) (fun _ _ hw => hw.1.elim)
    (fun _ _ hw => hw)

lemma Dealings.setResult {f : Result Z → Result Z} (h : ∀ r, (f r).openBody = r.openBody) :
    Keeps (Dealings env call) (World.setResult f) :=
  Keeps.modify (fun w hw =>
    ⟨hw.sent, hw.pooled, hw.tunnels, fun o ho => hw.held o (h w.result ▸ ho)⟩)

lemma Dealings.drop (s : Stream) {w : World Z} (h : Dealings env call w) :
    Dealings env call (w.drop s) :=
  ⟨h.sent, h.pooled, h.tunnels, h.held⟩

lemma Dealings.dropping {m : Engine Z α} {Q : α → World Z → Prop}
    (h : Triple (Dealings env call) m Q (fun _ => Dealings env call)) :
    Triple (Dealings env call) (Prog.onFailure (World.drop s) m) Q (fun _ => Dealings env call) :=
  Triple.onFailure h (fun _ _ hw => hw.drop s)

lemma Dealings.newStream (layers : List Nat) (via : Opening) (conn : Conn)
    (info : Option TlsInfo) :
    Triple (Dealings (Z := Z) env call) (World.newStream layers via conn info)
      (fun s w => (s.via = via ∧ s.conn = conn ∧ s.layers.length = layers.length + 1) ∧
        Dealings env call w) (fun _ => Dealings env call) :=
  fun _ hw => ⟨⟨rfl, rfl, rfl⟩, hw.sent, hw.pooled, hw.tunnels, hw.held⟩

lemma recordTlsInfo_deals (info : Option TlsInfo) :
    Keeps (Dealings (Z := Z) env call) (recordTlsInfo info) := by
  cases info with
  | none => exact Keeps.pure _
  | some info =>
    exact (Dealings.onHost _).bind (fun _ => (Dealings.onHost _).bind (fun _ =>
      (Dealings.onHost _).bind (fun _ => Dealings.setResult (fun _ => rfl))))

lemma recordPeer_deals (ip : Option Bytes) :
    Keeps (Dealings (Z := Z) env call) (recordPeer ip) := by
  cases ip with
  | none => exact Keeps.pure _
  | some ip => exact (Dealings.onHost _).bind (fun _ => Dealings.setResult (fun _ => rfl))

lemma buildKey_gives (opts : PerformOpts) (u : Uri) (px : Proxy) :
    Gives (fun k => ∀ key, k = some key → enginePoolKey ⟨u, opts.toGetOpts, some px⟩ = some key)
      (buildKey opts u px) := by
  unfold buildKey
  generalize enginePoolKey ⟨u, opts.toGetOpts, some px⟩ = found
  refine Gives.andThen (fun _ => Gives.ite (fun _ => ?_) (fun _ => ?_))
  · exact Gives.pure (fun _ hkey => hkey)
  · exact Gives.pure (fun _ hkey => by cases hkey)

lemma acquireStream_deals (u : Uri) (px : Proxy) :
    Triple (Dealings (Z := Z) env call) (acquireStream call.opts (env.hop n) u px)
      (fun found w => (∀ s, found = some s → Reaches env call n u px s) ∧ Dealings env call w)
      (fun _ => Dealings env call) := by
  unfold acquireStream
  refine Triple.ite (fun _ => Triple.pure (fun _ hw => ⟨fun _ hs => (by cases hs), hw⟩))
    (fun _ => ?_)
  refine Triple.bind (Dealings.gives (buildKey_gives call.opts u px))
    (fun key => Triple.assuming (fun hkey => ?_))
  cases key with
  | none => exact Triple.throw (fun _ hw => hw)
  | some key =>
    cases hacquired : (env.hop n).acquired with
    | none => exact Triple.pure (fun _ hw => ⟨fun _ hs => (by cases hs), hw⟩)
    | some a =>
      refine Triple.bind (Dealings.newStream _ _ _ _) (fun s => Triple.assuming (fun hs => ?_))
      obtain ⟨hvia, hconn, hlayers⟩ := hs
      refine Triple.bind (Keeps.onlyIf (recordTlsInfo_deals _)) (fun _ => ?_)
      refine Triple.bind (Dealings.setResult (fun _ => rfl)) (fun _ => ?_)
      refine Triple.bind (recordPeer_deals _) (fun _ => ?_)
      refine Triple.bind (Dealings.onHost _) (fun _ => ?_)
      refine Triple.pure (fun w hw => ⟨fun s' hs' => ?_, hw⟩)
      obtain rfl := Option.some.inj hs'
      refine ⟨?_, fun hh2 => Or.inr (Or.inr ⟨⟨key, hvia⟩, hlayers, a, hacquired, hconn ▸ hh2⟩)⟩
      rw [hvia]
      exact hkey key rfl

/-- A new connection over HTTP/1.1. -/
lemma Reaches.fresh {via : Opening} {t : Transport} (hopened : OpenedTo call u px via)
    (hs : s.via = via ∧ s.conn = .h1 t) : Reaches env call n u px s where
  opened := by
    rw [hs.1]
    exact hopened
  kind := by
    rw [hs.2]
    exact nofun

lemma openDialled_deals (script : HopScript) (px : Proxy) (hhttps : u.isHttps = true) :
    Triple (Dealings (Z := Z) env call) (openDialled script u px)
      (fun s w => Reaches env call n u px s ∧ Dealings env call w)
      (fun _ => Dealings env call) := by
  unfold openDialled
  cases script.dialled with
  | error f =>
    exact Dealings.failing (Host.raise_fails f)
  | ok hs =>
    refine Triple.bind (Dealings.newStream _ _ _ _) (fun s => Triple.assuming (fun hs' => ?_))
    refine Triple.bind (recordPeer_deals _) (fun _ => ?_)
    refine Triple.bind (Dealings.setResult (fun _ => rfl)) (fun _ => ?_)
    refine Triple.bind (recordTlsInfo_deals _) (fun _ => Triple.pure (fun w hw => ⟨?_, hw⟩))
    refine Reaches.fresh ?_ ⟨hs'.1, hs'.2.1⟩
    exact hhttps

lemma connectRequest_gives (px : Proxy) (u : Uri) :
    Gives (fun req => ∃ b, exec (px.writeConnect u) (Buffer.init 0) = (.ok (), b) ∧ req = b.data)
      (px.connectRequest u) := by
  unfold Proxy.connectRequest
  refine Gives.ite (fun _ => Gives.fails (Host.refuse_fails _ _ _))
    (fun _ => Gives.andThen (fun _ => ?_))
  cases hrun : exec (px.writeConnect u) (Buffer.init 0) with
  | mk r b =>
    cases r with
    | ok _ => exact Gives.pure ⟨b, rfl, rfl⟩
    | error rc => exact Gives.throw _

lemma openTunnel_deals (hresolves : Resolves env call u px) (huse : px.inUse = true)
    (hhttps : u.isHttps = true) {tcp : Stream} (htcp : OpenedTo call u px tcp.via)
    (hvia : ∃ host port, tcp.via = .tcp host port) (t : Transport) :
    Keeps (Dealings (Z := Z) env call) (openTunnel u px tcp t) := by
  refine Dealings.dropping (Triple.bind (Dealings.gives (Gives.andThen
    (fun _ => connectRequest_gives px u))) (fun req => Triple.assuming (fun hreq => ?_)))
  refine Triple.bind (M := fun _ => Dealings env call) (Triple.modify (fun w hw => ?_))
    (fun _ => Dealings.onHost _)
  refine ⟨hw.sent, hw.pooled, fun t ht => ?_, hw.held⟩
  rcases List.mem_append.mp ht with ht | ht
  · exact hw.tunnels t ht
  · rw [List.mem_singleton.mp ht]
    obtain ⟨host, port, hvia⟩ := hvia
    rw [hvia] at htcp ⊢
    obtain ⟨rfl, rfl⟩ := htcp huse
    exact ⟨u, px, hresolves, huse, hhttps, rfl, hreq⟩

lemma openTls_deals (script : HopScript) (hresolves : Resolves env call u px)
    (hhttps : u.isHttps = true) {tcp : Stream} (htcp : OpenedTo call u px tcp.via)
    (hvia : ∃ host port, tcp.via = .tcp host port) (t : Transport) :
    Triple (Dealings (Z := Z) env call) (openTls env script u px tcp t)
      (fun s w => Reaches env call n u px s ∧ Dealings env call w)
      (fun _ => Dealings env call) := by
  unfold openTls
  refine Triple.bind (M := fun _ => Dealings env call)
    (Triple.ite (fun huse => openTunnel_deals hresolves huse hhttps htcp hvia t)
      (fun _ => Keeps.pure _)) (fun _ => ?_)
  refine Triple.ite (fun _ => Dealings.dropping (Dealings.failing (Host.refuse_fails _ _ _)))
    (fun _ => ?_)
  refine Triple.bind (Dealings.onHost _) (fun _ => ?_)
  cases script.handshake with
  | error f => exact Dealings.dropping (Dealings.failing (Host.raise_fails f))
  | ok hs =>
    refine Triple.bind (Dealings.newStream _ _ _ _) (fun s => Triple.assuming (fun hs' => ?_))
    refine Triple.bind (recordTlsInfo_deals _) (fun _ => Triple.bind Keeps.get (fun _ => ?_))
    refine Triple.bind (Dealings.onHost _) (fun _ => Triple.pure (fun w hw => ⟨?_, hw⟩))
    exact Reaches.fresh htcp ⟨hs'.1, hs'.2.1⟩

lemma openTcp_deals (script : HopScript) (hresolves : Resolves env call u px) :
    Triple (Dealings (Z := Z) env call) (openTcp env call.opts script u px)
      (fun s w => Reaches env call n u px s ∧ Dealings env call w)
      (fun _ => Dealings env call) := by
  unfold openTcp
  refine Triple.bind (Dealings.onHost _) (fun peer => ?_)
  refine Triple.bind (Dealings.newStream _ _ _ _) (fun tcp => Triple.assuming (fun htcp => ?_))
  refine Triple.bind (recordPeer_deals _) (fun _ => ?_)
  refine Triple.bind (Dealings.setResult (fun _ => rfl)) (fun _ => ?_)
  obtain ⟨hvia, hconn, -⟩ := htcp
  have hopened : OpenedTo call u px (.tcp (if px.inUse then px.host.getD [] else u.host)
      (if px.inUse then px.port else u.port)) := fun huse => ⟨if_pos huse, if_pos huse⟩
  refine Triple.ite (fun _ => Triple.pure (fun w hw => ⟨Reaches.fresh hopened ⟨hvia, hconn⟩, hw⟩))
    (fun hhttps => ?_)
  exact openTls_deals script hresolves (by simpa using hhttps) (hvia ▸ hopened) ⟨_, _, hvia⟩ _

/-- The stream of a hop. -/
theorem openStream_deals (hresolves : Resolves env call u px) :
    Triple (Dealings (Z := Z) env call) (openStream env call.opts (env.hop n) u px)
      (fun s w => Reaches env call n u px s ∧ Dealings env call w)
      (fun _ => Dealings env call) := by
  unfold openStream
  refine Triple.bind (acquireStream_deals u px) (fun found => Triple.assuming (fun hfound => ?_))
  cases found with
  | some s => exact Triple.pure (fun w hw => ⟨hfound s rfl, hw⟩)
  | none =>
    exact Triple.ite (fun hdials => openDialled_deals _ _ hdials.1)
      (fun _ => openTcp_deals _ hresolves)

theorem chooseProtocol_deals (script : HopScript) (hs : Reaches env call n u px s) :
    Triple (Dealings (Z := Z) env call) (chooseProtocol call.opts script u px s)
      (fun s w => Reaches env call n u px s ∧ Dealings env call w)
      (fun _ => Dealings env call) := by
  unfold chooseProtocol
  cases s.conn with
  | h2 h => exact Triple.pure (fun w hw => ⟨hs, hw⟩)
  | h1 t =>
    dsimp only
    refine Triple.ite (fun _ => Triple.ite (fun _ => Triple.pure (fun w hw => ⟨hs, hw⟩))
      (fun _ => Dealings.dropping (Dealings.failing (Host.raise_fails _)))) (fun hwant => ?_)
    cases script.h2Wrap with
    | some f => exact Dealings.dropping (Dealings.failing (Host.raise_fails f))
    | none =>
      refine (Dealings.newStream _ _ _ _).conseq (fun _ hw => hw) (fun s' w hw => ⟨?_, hw.2⟩)
        (fun _ _ hw => hw)
      obtain ⟨⟨hvia, -, -⟩, -⟩ := hw
      refine ⟨by rw [hvia]; exact hs.opened, fun _ => ?_⟩
      by_cases hhttps : u.isHttps = true
      · exact Or.inl hhttps
      · rw [if_neg hhttps] at hwant
        have hrequired := eq_true_of_ne_false hwant
        rw [Bool.and_eq_true] at hrequired
        exact Or.inr (Or.inl ((Bool.not_eq_true' _).mp hrequired.2))

/-! ### Giving back -/

lemma releaseKey_gives (opts : PerformOpts) (u : Uri) (px : Proxy) :
    Gives (fun k => ∀ key, k = some key → enginePoolKey ⟨u, opts.toGetOpts, some px⟩ = some key)
      (releaseKey opts u px) :=
  Gives.ite (fun _ => buildKey_gives opts u px) (fun _ => Gives.pure (fun _ hkey => by cases hkey))

/-- A stream that is given back is in the pool under the hop's key. -/
theorem doneWithStream_deals (hresolves : Resolves env call u px)
    (hs : Reaches env call n u px s) (reuse : Reuse) :
    Keeps (Dealings (Z := Z) env call) (doneWithStream call.opts u px s reuse) := by
  refine Triple.bind (Dealings.gives (releaseKey_gives _ _ _))
    (fun key => Triple.assuming (fun hkey => ?_))
  cases key with
  | none => exact Triple.modify (fun w hw => hw.drop s)
  | some key =>
    refine Triple.modify (fun w hw => ⟨hw.sent, fun p hp => ?_, hw.tunnels, hw.held⟩)
    rcases List.mem_append.mp hp with hp | hp
    · exact hw.pooled p hp
    · rw [List.mem_singleton.mp hp]
      exact ⟨n, u, px, hresolves, hs, hkey key rfl⟩

/-! ### Sending -/

variable {c : Chain} {r : Sent}

lemma Dealings.log {w : World Z} (h : Dealings env call w) (hr : SentTo env call r) {src : Source} :
    Dealings env call { w with sent := w.sent ++ [r], source := src } where
  sent := by
    intro r' hr'
    rcases List.mem_append.mp hr' with hr' | hr'
    · exact h.sent r' hr'
    · rw [List.mem_singleton.mp hr']
      exact hr
  pooled := h.pooled
  tunnels := h.tunnels
  held := h.held

lemma pullSource_deals (hop : Nat) (answers : List (Except Fail Bytes)) :
    Keeps (Dealings (Z := Z) env call) (pullSource hop answers) :=
  Keeps.modify (fun _ hw => ⟨hw.sent, hw.pooled, hw.tunnels, hw.held⟩)

lemma sendPieces_deals (hop : Nat) (answers : List (Except Fail Bytes)) (t : Transport) :
    Keeps (Dealings (Z := Z) env call) (sendPieces hop answers t) := by
  induction answers generalizing t with
  | nil =>
    exact (pullSource_deals _ _).bind (fun _ => (Dealings.onHost _).bind (fun _ => Keeps.pure _))
  | cons a answers ih =>
    cases a with
    | error f => exact (pullSource_deals _ _).bind (fun _ => Dealings.onHost _)
    | ok d =>
      refine (pullSource_deals _ _).bind (fun _ => (Dealings.onHost _).bind (fun t' => ?_))
      exact Keeps.ite (Keeps.pure _) ((ih t').bind (fun _ => Keeps.pure _))

lemma noteWritten_deals (hr : SentTo env call r) (bytes : Bytes) :
    Keeps (Dealings (Z := Z) env call) (noteWritten r bytes) := by
  refine Keeps.modify (fun w hw => ?_)
  have hrest : Dealings env call { w with sent := w.sent.dropLast } :=
    ⟨fun r' hr' => hw.sent r' ((List.dropLast_sublist _).subset hr'), hw.pooled, hw.tunnels,
      hw.held⟩
  have hdone : SentTo env call { r with wrote := some bytes } :=
    ⟨hr.resolves, hr.auth, hr.opened, hr.kind⟩
  exact hrest.log hdone

/-- A request over HTTP/1.1 in the log. -/
lemma sendH1_deals {rq : Request} (hresolves : Resolves env call c.cur px)
    (hs : Reaches env call n c.cur px s) (hauth : AuthFields call.req.headers px c.cur rq)
    (t : Transport) : Keeps (Dealings (Z := Z) env call) (sendH1 call c px s t rq) := by
  refine Triple.bind (Dealings.gives (finishH1_auth hauth))
    (fun head => Triple.assuming (fun hhead => Triple.bind Keeps.get (fun w => ?_)))
  have hr : SentTo env call
      { hop := c.hops, uri := c.cur, proxy := px, via := s.via, h2 := false, rq := head.1,
        body := c.body, streamed := c.srcLive, answers := w.source.answers } :=
    ⟨hresolves, hhead, hs.opened, nofun⟩
  refine Triple.bind (M := fun _ => Dealings env call)
    (Triple.modify (fun w hw => hw.log hr)) (fun _ => ?_)
  refine (Dealings.onHost _).bind (fun t₁ => Triple.bind (M := fun _ => Dealings env call) ?_
    (fun p => (noteWritten_deals hr _).bind (fun _ =>
      (Dealings.onHost _).bind (fun _ => Keeps.pure _))))
  exact Keeps.get.bind (fun w => Keeps.ite (sendPieces_deals _ _ _) (Keeps.pure _))

/-- A hop that was answered: its stream, and a body that comes over it. -/
def Answered (env : Env) (call : Call) (c : Chain) (px : Proxy) (ex : Exchanged) : Prop :=
  Reaches env call c.hops c.cur px ex.stream ∧
    ∀ a, ex.answer = .ok a → a.input.isH2 = ex.stream.conn.isH2

lemma receiveH1_input (c : Chain) (t : Transport) :
    Gives (fun a : Answer => a.input.isH2 = false) (receiveH1 c t) :=
  Gives.andThen (fun _ => Gives.andThen (fun _ => Gives.andThen (fun _ => Gives.pure rfl)))

lemma receiveH2_input (script : HopScript) (c : Chain) (h : H2) (res : Except Fail H2.H2Response) :
    Gives (fun a : Answer => a.input.isH2 = true) (receiveH2 script c h res) := by
  cases res with
  | error f => exact Gives.fails (Host.raise_fails f)
  | ok r => exact Gives.andThen (fun _ => Gives.andThen (fun _ => Gives.pure rfl))

lemma exchangeH1_deals {rq : Request} (hresolves : Resolves env call c.cur px)
    (hs : Reaches env call c.hops c.cur px s) (hauth : AuthFields call.req.headers px c.cur rq)
    (t : Transport) :
    Triple (Dealings (Z := Z) env call) (exchangeH1 call c px s t rq)
      (fun ex w => Answered env call c px ex ∧ Dealings env call w)
      (fun _ => Dealings env call) := by
  refine Triple.bind (M := fun _ => Dealings env call)
    (Dealings.dropping (sendH1_deals hresolves hs hauth t)) (fun t' => ?_)
  refine Triple.bind (M := fun _ => Dealings env call)
    (Dealings.dropping (Dealings.onHost _)) (fun _ => ?_)
  refine Triple.bind (Triple.attempt (Dealings.gives (receiveH1_input c t'))) (fun answer => ?_)
  refine Triple.pure (fun w hw => ?_)
  have hreaches : Reaches env call c.hops c.cur px { s with conn := .h1 t' } := ⟨hs.opened, nofun⟩
  cases answer with
  | ok a =>
    refine ⟨⟨hreaches, fun a' ha' => ?_⟩, hw.2⟩
    obtain rfl := Except.ok.inj ha'
    exact hw.1
  | error rc => exact ⟨⟨hreaches, fun _ ha => by cases ha⟩, hw⟩

lemma exchangeOverH2_deals {rq : Request} {script : HopScript} {h : H2}
    (hresolves : Resolves env call c.cur px) (hs : Reaches env call c.hops c.cur px s)
    (hconn : s.conn = .h2 h) (hauth : AuthFields call.req.headers px c.cur rq) :
    Triple (Dealings (Z := Z) env call) (exchangeOverH2 call script c px s h rq)
      (fun ex w => Answered env call c px ex ∧ Dealings env call w)
      (fun _ => Dealings env call) := by
  have hkind := hs.kind (by rw [hconn]; rfl)
  refine Triple.bind
    (M := fun rq w => AuthFields call.req.headers px c.cur rq ∧ Dealings env call w)
    (Dealings.dropping (Dealings.gives (finishH2_auth hauth)))
    (fun rq' => Triple.assuming (fun hauth' => ?_))
  refine Triple.bind (M := fun _ => Dealings env call)
    (Dealings.dropping (Dealings.onHost _)) (fun _ => ?_)
  cases hrun : h.begin (h2Request c rq') Headers.init with
  | mk h' res =>
    dsimp only
    rw [hrun]
    refine Triple.bind (M := fun _ => Dealings env call) (Keeps.onlyIf (Keeps.modify
      (fun w hw => hw.log ⟨hresolves, hauth', hs.opened, fun _ => ?_⟩))) (fun _ => ?_)
    · exact hkind.imp id (fun hplain => hplain.imp id (fun hpool => ⟨hpool.1, hpool.2.2⟩))
    refine Triple.bind (Triple.attempt (Dealings.gives (receiveH2_input script c h' res)))
      (fun answer => Triple.pure (fun w hw => ?_))
    have hreaches : Reaches env call c.hops c.cur px { s with conn := .h2 h' } :=
      ⟨hs.opened, fun _ => hkind⟩
    cases answer with
    | ok a =>
      refine ⟨⟨hreaches, fun a' ha' => ?_⟩, hw.2⟩
      obtain rfl := Except.ok.inj ha'
      exact hw.1
    | error rc => exact ⟨⟨hreaches, fun _ ha => by cases ha⟩, hw⟩

/-- A hop up to the head of its response. -/
theorem exchange_deals (hresolves : Resolves env call c.cur px) :
    Triple (Dealings (Z := Z) env call) (exchange env call c px)
      (fun ex w => Answered env call c px ex ∧ Dealings env call w)
      (fun _ => Dealings env call) := by
  refine Triple.bind (openStream_deals hresolves) (fun s₀ => Triple.assuming (fun hs₀ => ?_))
  refine Triple.bind (chooseProtocol_deals _ hs₀) (fun s => Triple.assuming (fun hs => ?_))
  refine Triple.bind
    (M := fun rq w => AuthFields call.req.headers px c.cur rq ∧ Dealings env call w)
    (Dealings.dropping (Dealings.gives (buildRequest_auth call c px)))
    (fun rq => Triple.assuming (fun hauth => ?_))
  cases hconn : s.conn with
  | h1 t => exact exchangeH1_deals hresolves hs hauth t
  | h2 h => exact exchangeOverH2_deals hresolves hs hconn hauth

/-! ### Receiving -/

def BodySource.isH2 : BodySource Z → Bool
  | .h1 _ => false
  | .h2 _ => true

lemma settle_isH2 (follow : Bool) (h : Headers) (minor : Int) (src : BodySource Z)
    (res : Option Fail) : (settle follow h minor src res).src.isH2 = src.isH2 := by
  unfold settle
  dsimp only
  cases src <;> split_ifs <;> rfl

lemma source_isH2 (input : BodyInput) (p : BodyPipe Z) (cap : Nat) :
    (input.source p cap).isH2 = input.isH2 := by
  cases input <;> rfl

lemma readAll_isH2 (src : BodySource Z) : src.readAll.1.isH2 = src.isH2 := by
  cases src <;> rfl

lemma receiveBody_isH2 (follow : Bool) (input : BodyInput) (sink : Sink) (h : Headers)
    (minor : Int) (cap : Nat) (noDecode : Bool) :
    (receiveBody (Z := Z) follow input sink h minor cap noDecode).src.isH2 = input.isH2 := by
  unfold receiveBody
  cases BodyPipe.init (Z := Z) sink h noDecode cap with
  | error f => exact (settle_isH2 _ _ _ _ _).trans (source_isH2 _ _ _)
  | ok p => exact (settle_isH2 _ _ _ _ _).trans ((readAll_isH2 _).trans (source_isH2 _ _ _))

/-- The stream after a body that came over it. -/
lemma Reaches.after (hs : Reaches env call n u px s) {src : BodySource Z}
    (hsame : src.isH2 = s.conn.isH2) : Reaches env call n u px (s.after src) := by
  cases src with
  | h1 st => exact ⟨hs.opened, nofun⟩
  | h2 st => exact ⟨hs.opened, fun _ => hs.kind hsame.symm⟩

variable {a : Answer}

lemma reportBody_deals (follow : Bool) (p : BodyPipe Z) :
    Keeps (Dealings (Z := Z) env call) (reportBody follow p) := by
  refine Keeps.ite (Keeps.pure _) ?_
  exact Keeps.bind (Dealings.setResult (fun _ => rfl)) (fun _ => Dealings.onHost _)

lemma takeBody_deals (hresolves : Resolves env call c.cur px)
    (hs : Reaches env call n c.cur px s) (follow : Bool) (failure : Option Fail)
    {got : Received Z} (hsame : got.src.isH2 = s.conn.isH2) :
    Keeps (Dealings env call) (takeBody call c px s follow failure got) := by
  refine (Dealings.onHost _).bind (fun _ => Triple.bind (M := fun _ => Dealings env call)
    (Triple.modify (fun w hw => ?_)) (fun _ => (reportBody_deals _ _).bind (fun _ => ?_)))
  · split_ifs <;> exact ⟨hw.sent, hw.pooled, hw.tunnels, hw.held⟩
  refine (doneWithStream_deals hresolves (hs.after hsame) _).bind (fun _ => ?_)
  cases got.res with
  | none => exact Keeps.pure _
  | some f => exact Keeps.throw _

lemma readBody_deals (hresolves : Resolves env call c.cur px)
    (hs : Reaches env call n c.cur px s) (hinput : a.input.isH2 = s.conn.isH2) (follow : Bool) :
    Keeps (Dealings (Z := Z) env call) (readBody env call c px s a follow) := by
  refine Keeps.get.bind (fun w => (Dealings.onHost _).bind (fun room => Keeps.ite ?_ ?_))
  · exact takeBody_deals hresolves hs _ _ ((receiveBody_isH2 _ _ _ _ _ _ _).trans hinput)
  · refine takeBody_deals hresolves hs _ _ ?_
    exact ((settle_isH2 _ _ _ _ _).trans (source_isH2 _ _ _)).trans hinput

lemma holdBody_deals (hresolves : Resolves env call c.cur px)
    (hs : Reaches env call n c.cur px s) :
    Keeps (Dealings (Z := Z) env call) (holdBody call c px s a) := by
  refine (Dealings.onHost _).bind (fun memory => ?_)
  cases openBodyNew (Z := Z) memory a (bodyCap call.opts false)
      (call.opts.noDecode || a.bodiless) with
  | error f =>
    exact (Dealings.onHost _).bind (fun _ => (Dealings.onHost _).bind (fun _ =>
      (doneWithStream_deals hresolves hs _).bind (fun _ => Keeps.throw _)))
  | ok b =>
    refine Triple.bind (Dealings.gives (releaseKey_gives _ _ _))
      (fun key => Triple.assuming (fun hkey => ?_))
    refine Triple.bind (M := fun _ => Dealings env call)
      (Triple.modify (fun w hw => ⟨hw.sent, hw.pooled, hw.tunnels, ?_⟩)) (fun _ => Keeps.pure _)
    intro o ho k hk
    obtain rfl := Option.some.inj ho
    exact ⟨n, c.cur, px, hresolves, hs, hkey k hk⟩

theorem receive_deals (hresolves : Resolves env call c.cur px)
    (hs : Reaches env call n c.cur px s) (hinput : a.input.isH2 = s.conn.isH2) :
    Keeps (Dealings (Z := Z) env call) (receive env call c px s a) :=
  Keeps.get.bind (fun _ => Keeps.ite (holdBody_deals hresolves hs)
    (readBody_deals hresolves hs hinput _))

/-! ### The loop -/

lemma flushHeld_deals (c : Chain) : Keeps (Dealings (Z := Z) env call) (flushHeld c) := by
  refine Triple.reading (fun w hw => ?_)
  cases w.sink with
  | none => exact Keeps.pure _
  | some sink =>
    dsimp only
    generalize sink.write w.result.body = written
    obtain ⟨sink', f⟩ := written
    refine Keeps.ite (Keeps.pure _) ?_
    refine Keeps.bind (Keeps.set ⟨hw.sent, hw.pooled, hw.tunnels, hw.held⟩) (fun _ => ?_)
    cases f with
    | none => exact Keeps.pure _
    | some f => exact Dealings.onHost _

lemma followOrFinish_deals (c : Chain) :
    Keeps (Dealings (Z := Z) env call) (followOrFinish env call c) := by
  refine Keeps.get.bind (fun w => Keeps.ite (flushHeld_deals c) ?_)
  cases w.result.headers.get (ascii "Location") with
  | none => exact Keeps.pure _
  | some loc =>
    refine (Dealings.onHost _).bind (fun next => ?_)
    cases next with
    | none => exact flushHeld_deals c
    | some c' =>
      refine Keeps.bind (Dealings.setResult (fun _ => rfl)) (fun _ => ?_)
      refine (Dealings.onHost _).bind (fun _ => ?_)
      refine Keeps.bind (Dealings.setResult (fun _ => rfl)) (fun _ => ?_)
      exact (Dealings.onHost _).bind (fun _ => Keeps.pure _)

lemma resolve_resolves (env : Env) (call : Call) (u : Uri) :
    Gives (Resolves env call u)
      (Proxy.resolve env.uri env.getenv call.opts.proxy call.opts.proxySet u) := by
  intro h _
  cases hrun : exec (Proxy.resolve env.uri env.getenv call.opts.proxy call.opts.proxySet u) h with
  | mk r h' =>
    cases r with
    | ok px => exact ⟨h, h', hrun⟩
    | error rc => trivial

/-- One pass of the loop. -/
theorem hop_deals (env : Env) (call : Call) (c : Chain) :
    Keeps (Dealings (Z := Z) env call) (hop env call c) := by
  refine Triple.bind (Dealings.gives (resolve_resolves env call c.cur))
    (fun px => Triple.assuming (fun hresolves => ?_))
  refine Triple.bind (exchange_deals hresolves) (fun ex => Triple.assuming (fun hex => ?_))
  obtain ⟨hs, hinput⟩ := hex
  cases hanswer : ex.answer with
  | error rc => exact (doneWithStream_deals hresolves hs _).bind (fun _ => Keeps.throw _)
  | ok a =>
    refine Keeps.bind (Keeps.modify (fun w hw => ⟨hw.sent, hw.pooled, hw.tunnels, hw.held⟩))
      (fun _ => (receive_deals hresolves hs (hinput a hanswer)).bind (fun h => ?_))
    exact Keeps.bind (Dealings.setResult (fun _ => rfl)) (fun _ => followOrFinish_deals c)

theorem hops_deals (n : Nat) (c : Chain) :
    Keeps (Dealings (Z := Z) env call) (hops env call n c) := by
  induction n generalizing c with
  | zero => exact Keeps.throw _
  | succ n ih =>
    refine (hop_deals env call c).bind (fun e => ?_)
    cases e with
    | follow c' => exact ih c'
    | finish c' => exact Keeps.pure _

/-! ### Whole runs -/

lemma Dealings.closeOpen {w : World Z} {o : Held Z} (h : Dealings env call w)
    (ho : ∀ key ∈ o.key, PooledAs env call key o.stream) : Dealings env call (w.closeOpen o) := by
  unfold World.closeOpen
  split
  · rename_i reuse key _ hkey
    refine ⟨h.sent, fun p hp => ?_, h.tunnels, h.held⟩
    rcases List.mem_append.mp hp with hp | hp
    · exact h.pooled p hp
    · rw [List.mem_singleton.mp hp]
      exact ho key hkey
  · exact h.drop _

/-- Freeing the result gives the connection of an unread body back. -/
lemma Dealings.freeResult {w : World Z} (h : Dealings env call w) :
    Dealings env call w.freeResult := by
  have hcleared : Dealings env call ({ w with result := {} } : World Z) :=
    ⟨h.sent, h.pooled, h.tunnels, fun _ ho => (by cases ho)⟩
  unfold World.freeResult
  cases ho : w.result.openBody with
  | none => exact hcleared
  | some o =>
    have hclosed := hcleared.closeOpen (o := o) (h.held o ho)
    dsimp only
    unfold World.freeOpen
    split_ifs
    · exact ⟨hclosed.sent, hclosed.pooled, hclosed.tunnels, hclosed.held⟩
    · exact hclosed

lemma Dealings.callBody {w : World Z} (h : Dealings env call w) (cs : List OpenBody.Call) :
    Dealings env call (w.callBody cs) where
  sent := h.sent
  pooled := h.pooled
  tunnels := h.tunnels
  held := by
    intro o ho key hkey
    obtain ⟨o', ho', rfl⟩ := Option.map_eq_some_iff.mp ho
    exact h.held o' ho' key hkey

lemma performHops_deals (env : Env) (call : Call) :
    Keeps (Dealings (Z := Z) env call) (performHops env call) := by
  refine Triple.onFailure (D := fun _ => Dealings env call) ?_ (fun _ w hw => hw.freeResult)
  refine Keeps.bind (Keeps.modify (fun w hw => ?_)) (fun _ => ?_)
  · exact ⟨hw.sent, hw.pooled, hw.tunnels, fun _ ho => (by cases ho)⟩
  refine (Dealings.onHost _).bind (fun _ => Keeps.get.bind (fun w => ?_))
  refine (Dealings.onHost _).bind (fun c => (hops_deals _ c).bind (fun c' => ?_))
  refine Keeps.get.bind (fun w => (Dealings.onHost _).bind (fun _ =>
    (Dealings.onHost _).bind (fun url => ?_)))
  cases url with
  | none => exact Keeps.throw _
  | some url => exact Dealings.setResult (fun _ => rfl)

theorem perform_deals (env : Env) (call : Call) :
    Keeps (Dealings (Z := Z) env call) (perform env call) := by
  refine (Dealings.onHost _).bind (fun _ => Keeps.bind (m := Prog.attempt _) ?_ (fun res => ?_))
  · refine (Triple.attempt (performHops_deals env call)).conseq (fun _ hw => hw) (fun r w hw => ?_)
      (fun _ _ hw => hw)
    cases r <;> exact hw
  refine Keeps.bind (Keeps.modify (fun w hw => ?_)) (fun _ => ?_)
  · unfold releaseSource
    split_ifs
    · exact ⟨hw.sent, hw.pooled, hw.tunnels, hw.held⟩
    · exact hw
  · cases res with
    | ok _ => exact Keeps.pure _
    | error rc => exact (Dealings.onHost _).bind (fun _ => Keeps.throw _)

end Zuhttp
