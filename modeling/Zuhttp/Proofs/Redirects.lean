import Zuhttp.Proofs.Log
import Zuhttp.Proofs.Trail

/-!
# The policy on redirects

What holds along every chain of redirects that a call follows.
-/

namespace Zuhttp

open Prog World

variable {Z : Zlib} {call : Call} {src : Source} {cs : List Chain} {sent : List Sent}
  {answered : List Answer}

/-! ### The table -/

/-- A redirect after which no body is sent; names of methods are compared up to case. -/
def DropsBody (status : Int) (method : Bytes) : Prop :=
  status = 303 ∨ (status = 301 ∨ status = 302) ∧ CaseEq method (ascii "POST")

/-- A redirect after which the method is GET. -/
def TurnsToGet (status : Int) (method : Bytes) : Prop :=
  (status = 303 ∧ ¬CaseEq method (ascii "HEAD")) ∨
    (status = 301 ∨ status = 302) ∧ CaseEq method (ascii "POST")

instance (status : Int) (method : Bytes) : Decidable (DropsBody status method) :=
  inferInstanceAs (Decidable (_ ∨ _))

instance (status : Int) (method : Bytes) : Decidable (TurnsToGet status method) :=
  inferInstanceAs (Decidable (_ ∨ _))

lemma redirectTable_spec (status : Int) (method : Bytes) :
    ((redirectTable status method).dropBody = true ↔ DropsBody status method) ∧
    ((redirectTable status method).rewriteToGet = true ↔ TurnsToGet status method) := by
  unfold redirectTable DropsBody TurnsToGet
  simp only [asciiNcasecmp_eq_zero]
  split_ifs with hmoved hpost hsee hkeep
  · have hne : status ≠ 303 := by omega
    simp [hmoved, hpost, hne]
  · have hne : status ≠ 303 := by omega
    simp [hpost, hne]
  · simp [hsee]
  · have hne : status ≠ 303 := hsee
    simp [hmoved, hne]
  · have hne : status ≠ 303 := hsee
    simp [hmoved, hne]

lemma Turns.table {opts : PerformOpts} {c c' : Chain} {status : Int} (h : Turns opts c status c') :
    c'.method = (if TurnsToGet status c.method then ascii "GET" else c.method) ∧
    c'.body = if DropsBody status c.method then [] else c.body := by
  obtain ⟨hdrop, hget⟩ := redirectTable_spec status c.method
  refine ⟨?_, ?_⟩
  · rw [h.method]
    simp only [hget]
  · rw [h.body]
    simp only [hdrop]

/-! ### Along the chain -/

/-- What every redirect keeps holds from a hop to every later one. -/
lemma Logged.keeps {P : Chain → Prop} (h : Logged call src cs sent answered)
    (hstep : ∀ c a c', Follows call.opts c a c' → P c → P c') {i : Nat} {c : Chain}
    (hc : cs[i]? = some c) (hP : P c) (n : Nat) (c' : Chain) (hc' : cs[i + n]? = some c') :
    P c' := by
  induction n generalizing c' with
  | zero =>
    rw [Nat.add_zero, hc] at hc'
    exact Option.some.inj hc' ▸ hP
  | succ n ih =>
    have hlt : i + n < cs.length := by
      have hlt := (List.getElem?_eq_some_iff.mp hc').1
      omega
    have hmid : cs[i + n]? = some cs[i + n] := List.getElem?_eq_getElem hlt
    obtain ⟨a, -, hnext⟩ := h.follows _ _ _ hmid hc'
    exact hstep _ _ _ hnext (ih _ hmid)

/-- A hop with a later one was followed. -/
lemma Logged.followed (h : Logged call src cs sent answered) {i j : Nat} {c c' : Chain}
    (hij : i < j) (hc : cs[i]? = some c) (hc' : cs[j]? = some c') :
    ∃ a x, answered[i]? = some a ∧ cs[i + 1]? = some x ∧ Follows call.opts c a.status x := by
  have hlt : i + 1 < cs.length := by
    have hlt := (List.getElem?_eq_some_iff.mp hc').1
    omega
  have hx : cs[i + 1]? = some cs[i + 1] := List.getElem?_eq_getElem hlt
  obtain ⟨a, ha, hnext⟩ := h.follows _ _ _ hc hx
  exact ⟨a, _, ha, hx, hnext⟩

/-- A hop that was preceded was followed to. -/
lemma Logged.entered (h : Logged call src cs sent answered) {i j : Nat} {c' : Chain}
    (hij : i < j) (hc' : cs[j]? = some c') :
    ∃ n a x, j = i + n + 1 ∧ cs[i + n]? = some x ∧ answered[i + n]? = some a ∧
      Follows call.opts x a.status c' := by
  obtain ⟨n, rfl⟩ := Nat.exists_eq_add_of_lt hij
  have hlt : i + n < cs.length := by
    have hlt := (List.getElem?_eq_some_iff.mp hc').1
    omega
  have hx : cs[i + n]? = some cs[i + n] := List.getElem?_eq_getElem hlt
  obtain ⟨a, ha, hnext⟩ := h.follows _ _ _ hx hc'
  exact ⟨n, a, _, rfl, hx, ha, hnext⟩

/-- The key of a hop is in the trail from then on. -/
lemma Logged.visited (h : Logged call src cs sent answered) {i : Nat} {c : Chain}
    (hc : cs[i]? = some c) : ∃ key ∈ c.trail, trailKey c.method c.cur = some key := by
  cases i with
  | zero =>
    obtain ⟨key, hkey, htrail⟩ := (h.starts c hc).trail
    exact ⟨key, by rw [htrail]; exact List.mem_singleton_self _, hkey⟩
  | succ i =>
    obtain ⟨n, a, x, -, -, -, hnext⟩ := h.entered (i := i) (by omega) hc
    obtain ⟨key, hkey, -, htrail⟩ := hnext.fresh
    exact ⟨key, by rw [htrail]; exact List.mem_append_right _ (List.mem_singleton_self _), hkey⟩

lemma Logged.key_ne (h : Logged call src cs sent answered) {i j : Nat} {c c' : Chain}
    (hij : i < j) (hc : cs[i]? = some c) (hc' : cs[j]? = some c') :
    trailKey c.method c.cur ≠ trailKey c'.method c'.cur := by
  obtain ⟨key, hmem, hkey⟩ := h.visited hc
  obtain ⟨n, a, x, -, hx, -, hnext⟩ := h.entered hij hc'
  have hkept : key ∈ x.trail := by
    refine h.keeps (P := fun c => key ∈ c.trail) (fun y b z hyz hy => ?_) hc hmem n x hx
    obtain ⟨key', -, -, htrail⟩ := hyz.fresh
    rw [htrail]
    exact List.mem_append_left _ hy
  obtain ⟨key', hkey', hnew, -⟩ := hnext.fresh
  rw [hkey, hkey']
  rintro heq
  cases heq
  exact hnew hkept

/-! ### Hops without a body -/

/-- A hop that sends no body and whose method needs none. -/
structure Bodiless (c : Chain) : Prop where
  body : c.body = []
  source : c.srcLive = false
  method : methodExpectsContent c.method = false

lemma expects_of_head {method : Bytes} (h : CaseEq method (ascii "HEAD")) :
    methodExpectsContent method = false := by
  have hne : ∀ name, ¬CaseEq name (ascii "HEAD") → method ≠ name := by
    rintro name hname rfl
    exact hname h
  unfold methodExpectsContent
  simp [hne _ (by decide : ¬CaseEq (ascii "POST") (ascii "HEAD")),
    hne _ (by decide : ¬CaseEq (ascii "PUT") (ascii "HEAD")),
    hne _ (by decide : ¬CaseEq (ascii "PATCH") (ascii "HEAD"))]

lemma Follows.drops {opts : PerformOpts} {c c' : Chain} {status : Int}
    (h : Follows opts c status c') (hdrop : DropsBody status c.method) : Bodiless c' := by
  obtain ⟨hmethod, hbody⟩ := h.turns.table
  refine ⟨hbody.trans (if_pos hdrop), h.turns.srcLive, ?_⟩
  rw [show c'.method = _ from hmethod]
  split_ifs with hget
  · decide
  · rcases hdrop with h303 | hpost
    · refine expects_of_head ?_
      by_contra hhead
      exact hget (Or.inl ⟨h303, hhead⟩)
    · exact absurd (Or.inr hpost) hget

lemma Follows.bodiless {opts : PerformOpts} {c c' : Chain} {status : Int}
    (h : Follows opts c status c') (hb : Bodiless c) : Bodiless c' := by
  obtain ⟨hmethod, hbody⟩ := h.turns.table
  refine ⟨?_, h.turns.srcLive, ?_⟩
  · rw [show c'.body = _ from hbody, hb.body, ite_self]
  · rw [show c'.method = _ from hmethod]
    split_ifs
    · decide
    · exact hb.method

/-- A field that says how a body is framed. -/
def IsFraming (f : Bytes × Bytes) : Prop :=
  CaseEq f.1 (ascii "Content-Length") ∨ CaseEq f.1 (ascii "Transfer-Encoding")

instance (f : Bytes × Bytes) : Decidable (IsFraming f) := inferInstanceAs (Decidable (_ ∨ _))

lemma isFraming_name {f : Bytes × Bytes} {name : Bytes} (hname : f.1 = name)
    (h : ¬IsFraming (name, [])) : ¬IsFraming f := by
  unfold IsFraming
  rw [hname]
  exact h

lemma default_unframed {opts : PerformOpts} {rq : Request} {f : Bytes × Bytes}
    (h : IsDefault opts rq f) : ¬IsFraming f := by
  have hnames : ∀ name ∈ [ascii "Host", ascii "User-Agent", ascii "Accept",
      ascii "Accept-Encoding", ascii "Connection"], ¬IsFraming (name, []) := by decide
  refine isFraming_name rfl (hnames f.1 ?_)
  rcases h with ⟨host, -, rfl⟩ | hmem
  · exact List.mem_cons_self
  · simp only [List.mem_cons, List.not_mem_nil, or_false] at hmem
    rcases hmem with rfl | rfl | rfl | rfl <;> simp

/-- Without the length that HTTP/2 has in the list, the list says nothing of a body. -/
lemma Records.unframed {c : Chain} {r : Sent} (h : Records call src.answers c r)
    (hlen : h2Length c r.h2 = [])
    (hunframed : ∀ h ∈ call.req.headers, asciiNcasecmp h.1 (ascii "Transfer-Encoding") ≠ 0) :
    ∀ f ∈ r.rq.headers.fields, ¬IsFraming f := by
  obtain ⟨own, ds, hown, hds, hfields⟩ := h.rq.fields
  rw [hfields, hlen, List.append_nil]
  intro f hf
  rcases List.mem_append.mp hf with hf | hf
  · rcases List.mem_append.mp hf with hf | hf
    · rcases hown f hf with ⟨hname, -⟩ | rfl
      · exact isFraming_name hname (by decide)
      · decide
    · obtain ⟨hmem, hkept⟩ := List.mem_filter.mp hf
      have hte := hunframed f hmem
      have hcl : asciiNcasecmp f.1 (ascii "Content-Length") ≠ 0 := by
        intro hcl
        simp [skipsHeader, hcl] at hkept
      rw [Ne, asciiNcasecmp_eq_zero] at hcl hte
      exact fun hframing => hframing.elim hcl hte
  · exact default_unframed (hds f hf)

/-- The request of a hop without a body says nothing of one. -/
lemma Records.bodiless {c : Chain} {r : Sent} (h : Records call src.answers c r) (hb : Bodiless c)
    (hunframed : ∀ h ∈ call.req.headers, asciiNcasecmp h.1 (ascii "Transfer-Encoding") ≠ 0) :
    r.body = [] ∧ r.streamed = false ∧ r.rq.body = .none ∧
      ∀ f ∈ r.rq.headers.fields, ¬IsFraming f := by
  refine ⟨h.body.trans hb.body, h.streamed.trans hb.source, ?_, ?_⟩
  · rw [h.rq.body]
    unfold requestBody
    rw [if_neg (by simp [hb.source]), if_neg (by simp [hb.body, hb.method])]
  · exact h.unframed (if_neg (fun hne => hne.2 hb.body)) hunframed

/-! ### A call -/

/-- What a request asks for. -/
def Sent.target (r : Sent) : Bytes × Bytes × Bytes × Nat × Bytes :=
  (r.rq.method, r.uri.scheme, r.uri.host, r.uri.port, r.uri.pathQuery)

namespace Logged

variable {i j : Nat} {r r' : Sent} {a : Answer}

lemma secure (h : Logged call src cs sent answered) (hij : i < j) (hr : sent[i]? = some r)
    (hr' : sent[j]? = some r') (hhttps : r.uri.isHttps = true) : r'.uri.isHttps = true := by
  obtain ⟨c, hc, hrec⟩ := h.records i r hr
  obtain ⟨c', hc', hrec'⟩ := h.records j r' hr'
  rw [hrec.uri] at hhttps
  rw [hrec'.uri]
  refine h.keeps (P := fun c => c.cur.isHttps = true) (fun x b y hxy hx => hxy.turns.secure hx) hc
    hhttps (j - i) c' ?_
  rwa [Nat.add_sub_cancel' hij.le]

lemma length_le (h : Logged call src cs sent answered) (hpos : 0 < call.opts.maxRedirects) :
    sent.length ≤ call.opts.maxRedirects.toNat + 1 := by
  by_contra hlt
  have hlast : sent[call.opts.maxRedirects.toNat + 1]? = some _ :=
    List.getElem?_eq_getElem (by omega)
  obtain ⟨c, hc, -⟩ := h.records _ _ hlast
  have hbound := h.bound hpos
  have hin := (List.getElem?_eq_some_iff.mp hc).1
  omega

lemma target_ne (h : Logged call src cs sent answered) (hij : i < j) (hr : sent[i]? = some r)
    (hr' : sent[j]? = some r') : r.target ≠ r'.target := by
  obtain ⟨c, hc, hrec⟩ := h.records i r hr
  obtain ⟨c', hc', hrec'⟩ := h.records j r' hr'
  intro heq
  refine h.key_ne hij hc hc' ?_
  simp only [Sent.target, Prod.mk.injEq] at heq
  obtain ⟨hmethod, hscheme, hhost, hport, hpath⟩ := heq
  rw [hrec.rq.method, hrec'.rq.method] at hmethod
  rw [hrec.uri, hrec'.uri] at hscheme hhost hport hpath
  rw [hmethod]
  exact trailKey_eq hscheme hhost hport hpath

/-- The request behind an answer was followed to on it. -/
lemma link (h : Logged call src cs sent answered) (hr : sent[i]? = some r)
    (hr' : sent[i + 1]? = some r') : ∃ c c' a, Records call src.answers c r ∧
      Records call src.answers c' r' ∧ answered[i]? = some a ∧ Follows call.opts c a.status c' := by
  obtain ⟨c, hc, hrec⟩ := h.records i r hr
  obtain ⟨c', hc', hrec'⟩ := h.records (i + 1) r' hr'
  obtain ⟨a, ha, hnext⟩ := h.follows i c c' hc hc'
  exact ⟨c, c', a, hrec, hrec', ha, hnext⟩

lemma table (h : Logged call src cs sent answered) (hr : sent[i]? = some r)
    (hr' : sent[i + 1]? = some r') : ∃ a, answered[i]? = some a ∧
      statusIsRedirect a.status = true ∧
      r'.rq.method = (if TurnsToGet a.status r.rq.method then ascii "GET" else r.rq.method) ∧
      r'.body = if DropsBody a.status r.rq.method then [] else r.body := by
  obtain ⟨c, c', a, hrec, hrec', ha, hnext⟩ := h.link hr hr'
  obtain ⟨hmethod, hbody⟩ := hnext.turns.table
  refine ⟨a, ha, hnext.turns.redirect, ?_, ?_⟩
  · rw [hrec'.rq.method, hrec.rq.method]
    exact hmethod
  · rw [hrec'.body, hrec.body, hrec.rq.method]
    exact hbody

lemma dropped (h : Logged call src cs sent answered) (hij : i < j) (hr : sent[i]? = some r)
    (ha : answered[i]? = some a) (hdrop : DropsBody a.status r.rq.method)
    (hr' : sent[j]? = some r') : r'.body = [] ∧ r'.streamed = false ∧ r'.rq.body = .none ∧
      ∀ f ∈ r'.rq.headers.fields, ¬IsFraming f := by
  obtain ⟨c, hc, hrec⟩ := h.records i r hr
  obtain ⟨c', hc', hrec'⟩ := h.records j r' hr'
  obtain ⟨a', x, ha', hx, hnext⟩ := h.followed hij hc hc'
  obtain rfl : a = a' := Option.some.inj (ha.symm.trans ha')
  rw [hrec.rq.method] at hdrop
  have hbodiless : Bodiless c' := by
    refine h.keeps (P := Bodiless) (fun x b y hxy hx => hxy.bodiless hx) hx (hnext.drops hdrop)
      (j - (i + 1)) c' ?_
    rwa [Nat.add_sub_cancel' hij]
  have hlt : 0 < cs.length := Nat.zero_lt_of_lt (List.getElem?_eq_some_iff.mp hc).1
  exact hrec'.bodiless hbodiless (h.starts _ (List.getElem?_eq_getElem hlt)).unframed

/-- The body of a streamed request was dropped where the redirect was followed. -/
lemma undropped (h : Logged call src cs sent answered) (hr : sent[i]? = some r)
    (hstreamed : r.streamed = true) (ha : answered[i]? = some a)
    (hkeep : ¬DropsBody a.status r.rq.method) : sent.length ≤ i + 1 := by
  by_contra hlt
  have hr' : sent[i + 1]? = some _ := List.getElem?_eq_getElem (by omega)
  obtain ⟨c, c', a', hrec, hrec', ha', hnext⟩ := h.link hr hr'
  obtain rfl : a = a' := Option.some.inj (ha.symm.trans ha')
  rw [hrec.streamed] at hstreamed
  rw [hrec.rq.method] at hkeep
  exact hkeep ((redirectTable_spec _ _).1.mp (hnext.turns.dropped hstreamed))

end Logged

/-- Along the chain of redirects of a call: a hop after one to https goes to https; at most
`maxRedirects` redirects are followed and a call that succeeds does not end in one more; no
target is requested twice; method and body of a hop follow from those of the hop before by
the table, and after a hop whose body was dropped no request has a body or a field that frames
one; the source is called during the first hop only, and a redirect that keeps the body of a
streamed request is an error. -/
theorem perform_redirects (env : Env) (call : Call) (host : Host) (next release : Bool)
    (answers : List (Except Fail Bytes)) (sink : Option Sink)
    (hpos : 0 < call.opts.maxRedirects) :
    let run := exec (perform (Z := Z) env call) (World.start host next release answers sink)
    let sent := run.2.sent
    let answered := run.2.answered
    (∀ (i j : Nat) (r r' : Sent), i < j → sent[i]? = some r → sent[j]? = some r' →
      r.uri.isHttps = true → r'.uri.isHttps = true) ∧
    sent.length ≤ call.opts.maxRedirects.toNat + 1 ∧
    (run.1 = .ok () → ∃ a, answered.getLast? = some a ∧ answered.length = sent.length ∧
      run.2.result.status = a.status ∧
      ¬(statusIsRedirect a.status = true ∧ a.headers.has (ascii "Location") = true)) ∧
    (∀ (i j : Nat) (r r' : Sent), i < j → sent[i]? = some r → sent[j]? = some r' →
      r.target ≠ r'.target) ∧
    (∀ (i : Nat) (r r' : Sent), sent[i]? = some r → sent[i + 1]? = some r' →
      ∃ a, answered[i]? = some a ∧ statusIsRedirect a.status = true ∧
        r'.rq.method = (if TurnsToGet a.status r.rq.method then ascii "GET" else r.rq.method) ∧
        r'.body = if DropsBody a.status r.rq.method then [] else r.body) ∧
    (∀ (i j : Nat) (r r' : Sent) (a : Answer), i < j → sent[i]? = some r →
      answered[i]? = some a → DropsBody a.status r.rq.method → sent[j]? = some r' →
      r'.body = [] ∧ r'.streamed = false ∧ r'.rq.body = .none ∧
        ∀ f ∈ r'.rq.headers.fields, ¬IsFraming f) ∧
    (∀ n ∈ run.2.source.pulled, n = 0) ∧
    (∀ (i : Nat) (r : Sent) (a : Answer), sent[i]? = some r → r.streamed = true →
      answered[i]? = some a → statusIsRedirect a.status = true →
      a.headers.has (ascii "Location") = true → ¬DropsBody a.status r.rq.method →
      ∃ rc, run.1 = .error rc) := by
  intro run sent answered
  obtain ⟨⟨⟨cs, hlog⟩, hpulled⟩, hends⟩ :=
    perform_tells (Z := Z) env call host next release answers sink
  refine ⟨fun i j r r' hij hr hr' => hlog.secure hij hr hr', hlog.length_le hpos, fun hok => ?_,
    fun i j r r' hij hr hr' => hlog.target_ne hij hr hr', fun i r r' hr hr' => hlog.table hr hr',
    fun i j r r' a hij hr ha hdrop hr' => hlog.dropped hij hr ha hdrop hr', hpulled,
    fun i r a hr hstreamed ha hredirect hloc hkeep => ?_⟩
  · obtain ⟨hlen, a, hlast, hstatus, -, hstays⟩ := hends hok
    refine ⟨a, hlast, hlen, hstatus, fun hredirect => ?_⟩
    rw [Bool.eq_false_iff] at hstays
    exact hstays ((mayFollow_iff _ _).mpr ⟨⟨hredirect.1, hpos⟩, hredirect.2⟩)
  · have hfollow : mayFollow call.opts a = true := (mayFollow_iff _ _).mpr ⟨⟨hredirect, hpos⟩, hloc⟩
    have hle := hlog.undropped hr hstreamed ha hkeep
    cases hres : run.1 with
    | error rc => exact ⟨rc, rfl⟩
    | ok u =>
      exfalso
      obtain ⟨hlen, a', hlast, -, -, hstays⟩ := hends hres
      have hi : i < run.2.answered.length := (List.getElem?_eq_some_iff.mp ha).1
      have hlast' : run.2.answered.length - 1 = i := by
        change run.2.sent.length ≤ i + 1 at hle
        change run.2.answered.length = run.2.sent.length at hlen
        omega
      rw [List.getLast?_eq_getElem?, hlast'] at hlast
      rw [show run.2.answered[i]? = some a from ha] at hlast
      obtain rfl := Option.some.inj hlast
      rw [hfollow] at hstays
      cases hstays

/-- A server that answers the first request with a redirect to another path. -/
def movedEnv : Env where
  uri := .known [(ascii "http://a/", .http "a" "/" lower_a), (ascii "/b", .http "a" "/b" lower_a)]
  hop n := .plain [if n = 0 then
      .text "HTTP/1.1 301 Moved\r\nLocation: /b\r\nContent-Length: 0\r\n\r\n"
    else .text "HTTP/1.1 200 OK\r\nContent-Length: 0\r\n\r\n" okReply_fits]

/-- A request whose method is POST in lower case. -/
def lowerPost : Call where
  url := ascii "http://a/"
  req := { method := some (ascii "post"), body := ascii "x" }

/-- The run of that request. -/
def movedRun : Except Code Unit × World (Zlib.knowing [] []) :=
  exec (perform movedEnv lowerPost) (World.start {} false false [] none)

lemma movedRun_log : movedRun.2.sent.map (fun r => r.rq.method) = [ascii "post", ascii "GET"] ∧
    movedRun.2.answered.map Answer.status = [301, 200] := by decide +kernel

theorem perform_redirects_moved : movedRun.2.sent.length = 2 ∧
    movedRun.2.sent.length ≤ lowerPost.opts.maxRedirects.toNat + 1 ∧
    ∀ r r', movedRun.2.sent[0]? = some r → movedRun.2.sent[1]? = some r' →
      r.target ≠ r'.target := by
  have hlen : movedRun.2.sent.length = 2 := by
    have hsent := congrArg List.length movedRun_log.1
    rwa [List.length_map] at hsent
  refine ⟨hlen, ?_⟩
  unfold movedRun
  obtain ⟨-, hle, -, htarget, -⟩ := perform_redirects (Z := Zlib.knowing [] []) movedEnv lowerPost
    {} false false [] none (by decide)
  exact ⟨hle, fun r r' hr hr' => htarget 0 1 r r' (by decide) hr hr'⟩

/-- A method other than POST does not stay what it is: names are compared up to case. -/
theorem perform_rewrites_post : ¬∀ (env : Env) (call : Call) (host : Host) (next release : Bool)
    (answers : List (Except Fail Bytes)) (sink : Option Sink), 0 < call.opts.maxRedirects →
    let run := exec (perform (Z := Zlib.knowing [] []) env call)
      (World.start host next release answers sink)
    ∀ (i : Nat) (r r' : Sent) (a : Answer), run.2.sent[i]? = some r →
      run.2.sent[i + 1]? = some r' → run.2.answered[i]? = some a →
      a.status = 301 ∨ a.status = 302 → r.rq.method ≠ ascii "POST" →
      r'.rq.method = r.rq.method := by
  intro h
  have hrun := h movedEnv lowerPost {} false false [] none (by decide)
  obtain ⟨hsent, hanswered⟩ := movedRun_log
  unfold movedRun at hsent hanswered
  dsimp only at hrun
  generalize (exec (perform movedEnv lowerPost) (World.start {} false false [] none)).2.sent = sent
    at hrun hsent
  generalize (exec (perform movedEnv lowerPost) (World.start {} false false [] none)).2.answered =
    answered at hrun hanswered
  obtain ⟨r, sent, rfl, hr, hsent⟩ := List.map_eq_cons_iff.mp hsent
  obtain ⟨r', sent, rfl, hr', -⟩ := List.map_eq_cons_iff.mp hsent
  obtain ⟨a, answered, rfl, ha, -⟩ := List.map_eq_cons_iff.mp hanswered
  have hsame := hrun 0 r r' a rfl rfl rfl (Or.inl ha) (by rw [hr]; decide)
  rw [hr, hr'] at hsame
  exact absurd hsame (by decide)

end Zuhttp
