import Zuhttp.Proofs.Host
import Zuhttp.Proofs.Request

/-!
# The request of a hop

What `buildRequest` and the defaults make of the caller's headers and of the chain.
-/

namespace Zuhttp

open Prog

/-- The caller's headers that a hop sends. -/
def keptHeaders (redact : Option RedactPolicy) (stripCreds : Bool) (hs : List (Bytes × Bytes)) :
    List (Bytes × Bytes) :=
  hs.filter (fun h => !skipsHeader redact stripCreds h.1)

/-- A field the engine puts in front of the caller's: the credentials of the proxy, or that
no coding is wanted. -/
def IsOwn (px : Proxy) (f : Bytes × Bytes) : Prop :=
  (f.1 = ascii "Proxy-Authorization" ∧ ∃ b, exec (do px.authValue; Buffer.cstr)
    (Buffer.init 4096) = (.ok f.2, b)) ∨
  f = (ascii "Accept-Encoding", ascii "identity")

/-- A default field of a request. -/
def IsDefault (opts : PerformOpts) (rq : Request) (f : Bytes × Bytes) : Prop :=
  (∃ host, rq.host = some host ∧ f = (ascii "Host", host)) ∨
  f ∈ [(ascii "User-Agent", opts.userAgent.getD (ascii "zuhttp")), (ascii "Accept", ascii "*/*"),
    (ascii "Accept-Encoding", ascii "gzip"),
    (ascii "Connection", if rq.closeConnection then ascii "close" else ascii "keep-alive")]

/-- The request of a hop, without the default headers. -/
structure BuiltFrom (call : Call) (c : Chain) (px : Proxy) (rq : Request) : Prop where
  method : rq.method = c.method
  host : rq.host = c.cur.hostHeader
  hosted : rq.host.isSome = true
  body : rq.body = (requestBody c rq).body
  length : rq.contentLength = (requestBody c rq).contentLength
  fields : ∃ own, (∀ f ∈ own, IsOwn px f) ∧
    rq.headers.fields = own ++ keptHeaders call.opts.redact c.stripCreds call.req.headers

lemma addHeader_gives (h : Headers) (name value : Bytes) :
    Gives (fun h' : Headers => h'.fields = h.fields ++ [(name, value)])
      (addHeader h name value) := by
  unfold addHeader
  cases hadd : h.add name value with
  | ok h' => exact Gives.andThen (fun _ => Gives.pure (Headers.add_fields hadd).1)
  | error rc => exact Gives.throw rc

lemma addCallerHeaders_gives (redact : Option RedactPolicy) (stripCreds : Bool)
    (hs : List (Bytes × Bytes)) (i : Nat) (h : Headers) :
    Gives (fun h' : Headers => h'.fields = h.fields ++ keptHeaders redact stripCreds hs)
      (addCallerHeaders redact stripCreds i hs h) := by
  induction hs generalizing i h with
  | nil => exact Gives.pure (by simp [keptHeaders])
  | cons f hs ih =>
    unfold addCallerHeaders
    refine Gives.ite (fun hskip => (ih (i + 1) h).imp (fun h' hh' => ?_)) (fun hkeep => ?_)
    · rw [hh', keptHeaders, keptHeaders, List.filter_cons_of_neg (by simpa using hskip)]
    · refine (addHeader_gives h f.1 f.2).attempt.bind (fun r hr => ?_)
      cases r with
      | ok h₁ =>
        refine (ih (i + 1) h₁).imp (fun h' hh' => ?_)
        rw [hh', hr h₁ rfl, keptHeaders, keptHeaders,
          List.filter_cons_of_pos (by simpa using hkeep), List.append_assoc]
        rfl
      | error rc => exact Gives.fails (Host.refuse_fails _ _ _)

lemma render_gives (max : Nat) (m : Writer Unit) :
    Gives (fun s : Option Bytes => ∀ v, s = some v →
      ∃ b, exec (do m; Buffer.cstr) (Buffer.init max) = (.ok v, b)) (Host.render max m) := by
  refine Gives.andThen (fun ok => Gives.ite (fun _ => ?_) (fun _ => Gives.pure (by simp)))
  cases hrun : exec (do m; Buffer.cstr) (Buffer.init max) with
  | mk r b =>
    cases r with
    | ok s =>
      refine Gives.pure (fun v hv => ⟨b, ?_⟩)
      rw [Option.some.inj hv]
    | error rc => exact Gives.pure (by simp)

lemma addProxyAuth_gives (px : Proxy) (h : Headers) :
    Gives (fun h' : Headers => ∃ own, (∀ f ∈ own, IsOwn px f) ∧ h'.fields = h.fields ++ own)
      (addProxyAuth px h) := by
  unfold addProxyAuth
  refine Gives.ite (fun _ => Gives.pure ⟨[], by simp, by simp⟩) (fun _ => ?_)
  refine (render_gives _ _).bind (fun value hvalue => ?_)
  cases value with
  | none => exact Gives.throw _
  | some v =>
    refine (addHeader_gives h _ v).imp (fun h' hh' => ⟨_, ?_, hh'⟩)
    intro f hf
    rw [List.mem_singleton.mp hf]
    exact Or.inl ⟨rfl, hvalue v rfl⟩

lemma requestTarget_gives (px : Proxy) (u : Uri) (rq : Request) :
    Gives (fun rq' : Request => rq'.method = rq.method ∧ rq'.host = rq.host ∧
        ∃ own, (∀ f ∈ own, IsOwn px f) ∧ rq'.headers.fields = rq.headers.fields ++ own)
      (requestTarget px u rq) := by
  unfold requestTarget
  refine Gives.ite (fun _ => Gives.andThen (fun _ => ?_))
    (fun _ => Gives.pure ⟨rfl, rfl, [], by simp, by simp⟩)
  exact (addProxyAuth_gives px rq.headers).bind (fun h hh => Gives.pure ⟨rfl, rfl, hh⟩)

lemma addIdentity_gives (px : Proxy) (noDecode : Bool) (h : Headers) :
    Gives (fun h' : Headers => ∃ own, (∀ f ∈ own, IsOwn px f) ∧ h'.fields = h.fields ++ own)
      (addIdentity noDecode h) := by
  unfold addIdentity
  refine Gives.ite (fun _ => ?_) (fun _ => Gives.pure ⟨[], by simp, by simp⟩)
  refine (addHeader_gives h _ _).imp (fun h' hh' => ⟨_, ?_, hh'⟩)
  intro f hf
  exact Or.inr (List.mem_singleton.mp hf)

theorem buildRequest_gives (call : Call) (c : Chain) (px : Proxy) :
    Gives (BuiltFrom call c px) (buildRequest call c px) := by
  unfold buildRequest
  cases hhost : c.cur.hostHeader with
  | none => exact Gives.fails (Host.refuse_fails _ _ _)
  | some host =>
    refine (requestTarget_gives px c.cur _).bind (fun rq hrq => ?_)
    obtain ⟨hmethod, hrqhost, own, hown, hfields⟩ := hrq
    refine (addIdentity_gives px _ _).bind (fun h hh => ?_)
    obtain ⟨own', hown', hfields'⟩ := hh
    refine (addCallerHeaders_gives _ _ _ _ _).bind (fun h' hh' => Gives.pure ?_)
    have hsome : (requestBody c rq).host = some host := by
      rw [← show rq.host = some host from hrqhost]
      unfold requestBody
      split_ifs <;> rfl
    refine ⟨?_, hsome.trans hhost.symm, congrArg Option.isSome hsome, ?_, ?_, own ++ own', ?_, ?_⟩
    · rw [← show rq.method = c.method from hmethod]
      unfold requestBody
      split_ifs <;> rfl
    · unfold requestBody
      split_ifs <;> rfl
    · unfold requestBody
      split_ifs <;> rfl
    · intro f hf
      rcases List.mem_append.mp hf with hf | hf
      · exact hown f hf
      · exact hown' f hf
    · have hsame : (requestBody c rq).headers = rq.headers := by
        unfold requestBody
        split_ifs <;> rfl
      have hempty : (Request.init c.method c.cur.pathQuery (some host)).headers.fields = [] := rfl
      rw [hh', hfields', hsame, hfields, hempty, List.nil_append]

/-! ### The defaults -/

variable {opts : PerformOpts} {r : Request}

/-- The list with default fields of a request behind it. -/
def Extends (opts : PerformOpts) (r : Request) (h h' : Headers) : Prop :=
  ∃ ds, (∀ f ∈ ds, IsDefault opts r f) ∧ h'.fields = h.fields ++ ds

lemma Extends.refl (h : Headers) : Extends opts r h h := ⟨[], by simp, by simp⟩

lemma Extends.trans {h h' h'' : Headers} (hh : Extends opts r h h') (hh' : Extends opts r h' h'') :
    Extends opts r h h'' := by
  obtain ⟨ds, hds, hfields⟩ := hh
  obtain ⟨ds', hds', hfields'⟩ := hh'
  refine ⟨ds ++ ds', ?_, by rw [hfields', hfields, List.append_assoc]⟩
  intro f hf
  exact (List.mem_append.mp hf).elim (hds f) (hds' f)

lemma addDefault_extends {h h' : Headers} {name value : Bytes}
    (hname : IsDefault opts r (name, value)) (hadd : Request.addDefault h name value = .ok h') :
    Extends opts r h h' := by
  unfold Request.addDefault at hadd
  split_ifs at hadd
  · obtain rfl := Except.ok.inj hadd
    exact Extends.refl h
  · refine ⟨[(name, value)], ?_, (Headers.add_fields hadd).1⟩
    intro f hf
    rwa [List.mem_singleton.mp hf]

lemma ok_of_bind {ε α β : Type} {x : Except ε α} {f : α → Except ε β} {b : β}
    (h : x >>= f = .ok b) : ∃ a, x = .ok a ∧ f a = .ok b := by
  cases x with
  | error e => cases h
  | ok a => exact ⟨a, rfl, h⟩

/-- The defaults that follow the host. -/
lemma addDefaults_steps {rq rq' : Request} {agent : Option Bytes}
    (hadd : rq.addDefaults agent = .ok rq') : ∃ h₀ h₁ h₂ h₃ h₄,
      ((rq.host = none ∧ h₀ = rq.headers) ∨ ∃ host, rq.host = some host ∧
        Request.addDefault rq.headers (ascii "Host") host = .ok h₀) ∧
      Request.addDefault h₀ (ascii "User-Agent") (agent.getD (ascii "zuhttp")) = .ok h₁ ∧
      Request.addDefault h₁ (ascii "Accept") (ascii "*/*") = .ok h₂ ∧
      Request.addDefault h₂ (ascii "Accept-Encoding") (ascii "gzip") = .ok h₃ ∧
      Request.addDefault h₃ (ascii "Connection")
        (if rq.closeConnection then ascii "close" else ascii "keep-alive") = .ok h₄ ∧
      rq' = { rq with headers := h₄ } := by
  have hfirst : ∃ h₀, ((rq.host = none ∧ h₀ = rq.headers) ∨ ∃ host, rq.host = some host ∧
      Request.addDefault rq.headers (ascii "Host") host = .ok h₀) ∧ (do
        let h ← Request.addDefault h₀ (ascii "User-Agent") (agent.getD (ascii "zuhttp"))
        let h ← Request.addDefault h (ascii "Accept") (ascii "*/*")
        let h ← Request.addDefault h (ascii "Accept-Encoding") (ascii "gzip")
        let h ← Request.addDefault h (ascii "Connection")
          (if rq.closeConnection then ascii "close" else ascii "keep-alive")
        .ok { rq with headers := h }) = .ok rq' := by
    unfold Request.addDefaults at hadd
    dsimp only at hadd
    split at hadd
    · rename_i host hhost
      obtain ⟨h₀, hfirst, hadd⟩ := ok_of_bind hadd
      exact ⟨h₀, Or.inr ⟨host, hhost, hfirst⟩, hadd⟩
    · rename_i hhost
      exact ⟨_, Or.inl ⟨hhost, rfl⟩, hadd⟩
  obtain ⟨h₀, hfirst, hadd⟩ := hfirst
  obtain ⟨h₁, hagent, hadd⟩ := ok_of_bind hadd
  obtain ⟨h₂, haccept, hadd⟩ := ok_of_bind hadd
  obtain ⟨h₃, hencoding, hadd⟩ := ok_of_bind hadd
  obtain ⟨h₄, hconnection, hadd⟩ := ok_of_bind hadd
  exact ⟨h₀, h₁, h₂, h₃, h₄, hfirst, hagent, haccept, hencoding, hconnection,
    (Except.ok.inj hadd).symm⟩

lemma addDefaults_extends {rq rq' : Request} (hadd : rq.addDefaults opts.userAgent = .ok rq') :
    rq' = { rq with headers := rq'.headers } ∧ Extends opts rq rq.headers rq'.headers := by
  obtain ⟨h₀, h₁, h₂, h₃, h₄, hfirst, hagent, haccept, hencoding, hconnection, rfl⟩ :=
    addDefaults_steps hadd
  have hh₀ : Extends opts rq rq.headers h₀ := by
    rcases hfirst with ⟨-, rfl⟩ | ⟨host, hhost, hfirst⟩
    · exact Extends.refl _
    · exact addDefault_extends (Or.inl ⟨host, hhost, rfl⟩) hfirst
  refine ⟨rfl, hh₀.trans ?_⟩
  exact ((addDefault_extends (by simp [IsDefault]) hagent).trans
    (addDefault_extends (by simp [IsDefault]) haccept)).trans
      ((addDefault_extends (by simp [IsDefault]) hencoding).trans
        (addDefault_extends (by simp [IsDefault]) hconnection))

/-! ### The host -/

/-- The fields of one name. -/
def fieldsNamed (name : Bytes) (fs : List (Bytes × Bytes)) : List (Bytes × Bytes) :=
  fs.filter (fun f => decide (CaseEq f.1 name))

lemma fieldsNamed_append (name : Bytes) (fs gs : List (Bytes × Bytes)) :
    fieldsNamed name (fs ++ gs) = fieldsNamed name fs ++ fieldsNamed name gs :=
  List.filter_append ..

lemma fieldsNamed_eq_nil {name : Bytes} {fs : List (Bytes × Bytes)}
    (h : ∀ f ∈ fs, ¬CaseEq f.1 name) : fieldsNamed name fs = [] :=
  List.filter_eq_nil_iff.mpr (fun f hf => by simpa using h f hf)

lemma Headers.has_iff (h : Headers) (name : Bytes) :
    h.has name = true ↔ fieldsNamed name h.fields ≠ [] := by
  have hlen : (h.named name).length = (fieldsNamed name h.fields).length := by
    unfold named fieldsNamed fields
    rw [List.filter_map, List.length_map]
    congr 2
    funext f
    simp only [asciiNcasecmp_eq_zero, Function.comp_apply]
  unfold has get getAt
  rw [Option.isSome_map, isSome_getElem?, hlen, List.length_pos_iff]

/-- The Host fields of a request whose list had `fs` before the defaults. -/
def hostsSent (host : Option Bytes) (fs : List (Bytes × Bytes)) : List (Bytes × Bytes) :=
  if fieldsNamed (ascii "Host") fs = [] then host.toList.map (fun h => (ascii "Host", h))
  else fieldsNamed (ascii "Host") fs

lemma addDefault_named {h h' : Headers} {name value other : Bytes} (hne : ¬CaseEq name other)
    (hadd : Request.addDefault h name value = .ok h') :
    fieldsNamed other h'.fields = fieldsNamed other h.fields := by
  unfold Request.addDefault at hadd
  split_ifs at hadd
  · rw [Except.ok.inj hadd]
  · have hnew : fieldsNamed other [(name, value)] = [] :=
      fieldsNamed_eq_nil (fun f hf => by rwa [List.mem_singleton.mp hf])
    rw [(Headers.add_fields hadd).1, fieldsNamed_append, hnew, List.append_nil]

lemma addDefaults_hosts {rq rq' : Request} {agent : Option Bytes}
    (hadd : rq.addDefaults agent = .ok rq') :
    fieldsNamed (ascii "Host") rq'.headers.fields = hostsSent rq.host rq.headers.fields := by
  obtain ⟨h₀, h₁, h₂, h₃, h₄, hfirst, hagent, haccept, hencoding, hconnection, rfl⟩ :=
    addDefaults_steps hadd
  change fieldsNamed _ h₄.fields = _
  rw [addDefault_named (by decide) hconnection, addDefault_named (by decide) hencoding,
    addDefault_named (by decide) haccept, addDefault_named (by decide) hagent]
  unfold hostsSent
  rcases hfirst with ⟨hnone, rfl⟩ | ⟨host, hsome, hfirst⟩
  · rw [hnone]
    split_ifs with hempty
    · exact hempty
    · rfl
  · unfold Request.addDefault at hfirst
    split_ifs at hfirst with hhas
    · rw [if_neg ((Headers.has_iff _ _).mp hhas), Except.ok.inj hfirst]
    · have hempty := not_not.mp (mt (Headers.has_iff rq.headers (ascii "Host")).mpr hhas)
      rw [if_pos hempty, (Headers.add_fields hfirst).1, fieldsNamed_append, hempty, hsome]
      rfl

/-! ### The finished request -/

lemma addDefaults_gives (opts : PerformOpts) (rq : Request) :
    Gives (fun rq' : Request => rq' = { rq with headers := rq'.headers } ∧
      Extends opts rq rq.headers rq'.headers ∧
      fieldsNamed (ascii "Host") rq'.headers.fields = hostsSent rq.host rq.headers.fields)
      (addDefaults opts rq) := by
  unfold addDefaults
  cases hadd : rq.addDefaults opts.userAgent with
  | ok rq' =>
    obtain ⟨hsame, hext⟩ := addDefaults_extends hadd
    exact Gives.andThen (fun _ => Gives.pure ⟨hsame, hext, addDefaults_hosts hadd⟩)
  | error rc => exact Gives.throw rc

lemma orBuildError_gives {α : Type} {A : α → Prop} {m : HostProg α} (h : Gives A m) :
    Gives A (orBuildError m) := by
  refine h.attempt.bind (fun r hr => ?_)
  cases r with
  | ok a => exact Gives.pure (hr a rfl)
  | error rc =>
    exact Gives.andThen (fun _ => Gives.ite (fun _ => Gives.fails (Host.refuse_fails _ _ _))
      (fun _ => Gives.throw rc))

/-- The field a body in memory has over HTTP/2. -/
def h2Length (c : Chain) (h2 : Bool) : List (Bytes × Bytes) :=
  if h2 ∧ c.body ≠ [] then [(ascii "Content-Length", Decimal.decimalText c.body.length)] else []

/-- The request of a hop as it is sent. -/
structure SentFrom (call : Call) (c : Chain) (px : Proxy) (h2 : Bool) (rq : Request) : Prop where
  method : rq.method = c.method
  host : rq.host = c.cur.hostHeader
  hosted : rq.host.isSome = true
  body : rq.body = (requestBody c rq).body
  length : rq.contentLength = (requestBody c rq).contentLength
  fields : ∃ own ds, (∀ f ∈ own, IsOwn px f) ∧ (∀ f ∈ ds, IsDefault call.opts rq f) ∧
    rq.headers.fields = own ++ keptHeaders call.opts.redact c.stripCreds call.req.headers ++
      ds ++ h2Length c h2
  hosts : fieldsNamed (ascii "Host") rq.headers.fields = hostsSent c.cur.hostHeader
    (keptHeaders call.opts.redact c.stripCreds call.req.headers)

lemma requestBody_headers (c : Chain) (rq : Request) (h : Headers) :
    requestBody c { rq with headers := h } = { requestBody c rq with headers := h } := by
  unfold requestBody
  split_ifs <;> rfl

/-- Default fields, and the length over HTTP/2, complete a built request. -/
lemma BuiltFrom.complete {call : Call} {c : Chain} {px : Proxy} {rq : Request} {h h' : Headers}
    {h2 : Bool} (hb : BuiltFrom call c px rq) (hext : Extends call.opts rq rq.headers h)
    (hhosts : fieldsNamed (ascii "Host") h.fields = hostsSent rq.host rq.headers.fields)
    (hlen : h'.fields = h.fields ++ h2Length c h2) :
    SentFrom call c px h2 { rq with headers := h' } where
  method := hb.method
  host := hb.host
  hosted := hb.hosted
  body := by
    rw [requestBody_headers]
    exact hb.body
  length := by
    rw [requestBody_headers]
    exact hb.length
  fields := by
    obtain ⟨own, hown, hfields⟩ := hb.fields
    obtain ⟨ds, hds, hmore⟩ := hext
    exact ⟨own, ds, hown, hds, by rw [hlen, hmore, hfields]⟩
  hosts := by
    obtain ⟨own, hown, hfields⟩ := hb.fields
    have hnone : fieldsNamed (ascii "Host") own = [] := fieldsNamed_eq_nil (fun f hf => by
      rcases hown f hf with ⟨hname, -⟩ | rfl
      · rw [hname]
        decide
      · decide)
    have hlength : fieldsNamed (ascii "Host") (h2Length c h2) = [] := by
      refine fieldsNamed_eq_nil (fun f hf => ?_)
      unfold h2Length at hf
      split_ifs at hf
      · rw [List.mem_singleton.mp hf]
        exact (by decide : ¬CaseEq (ascii "Content-Length") (ascii "Host"))
      · cases hf
    change fieldsNamed _ h'.fields = _
    rw [hlen, fieldsNamed_append, hlength, List.append_nil, hhosts, hb.host]
    unfold hostsSent
    rw [hfields, fieldsNamed_append, hnone, List.nil_append]

lemma writeHead_gives (rq : Request) :
    Gives (fun wire => ∃ b, exec rq.write (Buffer.init wireMax) = (.ok (), b) ∧ b.data = wire)
      (writeHead rq) := by
  unfold writeHead
  cases hrun : exec rq.write (Buffer.init wireMax) with
  | mk r b =>
    cases r with
    | ok u => exact Gives.andThen (fun _ => Gives.pure ⟨b, rfl, rfl⟩)
    | error rc =>
      exact Gives.ite (fun _ => Gives.fails (Host.refuse_fails _ _ _)) (fun _ => Gives.throw _)

theorem finishH1_gives {call : Call} {c : Chain} {px : Proxy} {rq : Request}
    (hb : BuiltFrom call c px rq) :
    Gives (fun r : Request × Bytes => SentFrom call c px false r.1 ∧
      ∃ b, exec r.1.write (Buffer.init wireMax) = (.ok (), b) ∧ b.data = r.2)
      (finishH1 call.opts rq) := by
  refine Gives.andThen (fun _ => orBuildError_gives ?_)
  refine (addDefaults_gives call.opts rq).bind (fun rq' hrq' => ?_)
  refine (writeHead_gives rq').bind (fun wire hwire => Gives.pure ⟨?_, hwire⟩)
  change SentFrom call c px false rq'
  rw [hrq'.1]
  exact hb.complete hrq'.2.1 hrq'.2.2 (by simp [h2Length])

theorem finishH2_gives {call : Call} {c : Chain} {px : Proxy} {rq : Request}
    (hb : BuiltFrom call c px rq) : Gives (SentFrom call c px true) (finishH2 call.opts c rq) := by
  refine orBuildError_gives ((addDefaults_gives call.opts rq).bind (fun rq' hrq' => ?_))
  obtain ⟨hsame, hext, hhosts⟩ := hrq'
  refine Gives.ite (fun hbody => ?_) (fun hbody => Gives.pure ?_)
  · refine (addHeader_gives _ _ _).bind (fun h hh => Gives.pure ?_)
    rw [hsame]
    exact hb.complete hext hhosts (by rw [hh, h2Length, if_pos ⟨rfl, hbody⟩])
  · rw [hsame]
    exact hb.complete hext hhosts
      (by rw [h2Length, if_neg (fun hh => hbody hh.2), List.append_nil])

end Zuhttp
