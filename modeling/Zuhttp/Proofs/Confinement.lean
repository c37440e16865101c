import Zuhttp.Proofs.Redirects

/-!
# Which headers a hop sends

The caller's secret headers stay with the origin of the first hop; its other headers go to
every hop.
-/

namespace Zuhttp

open Prog World

variable {Z : Zlib} {call : Call} {src : Source} {cs : List Chain} {sent : List Sent}
  {answered : List Answer}

/-! ### The header list of a request -/

/-- The fields of a request's list that its protocol carries. -/
def carried (h2 : Bool) (fs : List (Bytes × Bytes)) : List (Bytes × Bytes) :=
  if h2 then (fs.filter (fun f => !H2.isConnSpecific f.1)).map (fun f => (f.1.map lower, f.2))
  else fs

/-- The header list on the wire, the pseudo-headers of HTTP/2 apart. -/
def Sent.wire (r : Sent) : List (Bytes × Bytes) := carried r.h2 r.rq.headers.fields

/-- Over HTTP/2 the list is what nghttp2 is given behind the four pseudo-headers. -/
lemma block_wire (rq : H2Request) :
    ∃ pseudo, pseudo.length = 4 ∧ H2.block rq = pseudo ++ carried true rq.headers.fields := by
  unfold H2.block carried Headers.fields
  rw [if_pos rfl, List.filter_map, List.map_map]
  exact ⟨_, rfl, rfl⟩

/-- The request's list on the wire is that of the block the HTTP/2 driver submits. -/
lemma Sent.submitted {r : Sent} (h2 : r.h2 = true) (c : Chain) :
    ∃ pseudo, pseudo.length = 4 ∧ H2.block (h2Request c r.rq) = pseudo ++ r.wire := by
  unfold Sent.wire
  rw [h2]
  exact block_wire (h2Request c r.rq)

/-- The caller's headers that are to be sent: secret ones only within one origin. -/
def callerFields (redact : Option RedactPolicy) (crossed : Bool) (hs : List (Bytes × Bytes)) :
    List (Bytes × Bytes) :=
  hs.filter (fun h => !decide (CaseEq h.1 (ascii "Content-Length")) &&
    !(crossed && (redact.getD RedactPolicy.init).isSecretHeader h.1))

lemma keptHeaders_eq (redact : Option RedactPolicy) (crossed : Bool) (hs : List (Bytes × Bytes)) :
    keptHeaders redact crossed hs = callerFields redact crossed hs := by
  unfold keptHeaders callerFields skipsHeader isCredentialHeader
  refine List.filter_congr (fun h _ => ?_)
  simp only [asciiNcasecmp_eq_zero]
  rw [Bool.not_or, Bool.and_comm]

/-- A field the engine adds behind the caller's: a default or the length of the body. -/
def IsAdded (opts : PerformOpts) (r : Sent) (f : Bytes × Bytes) : Prop :=
  IsDefault opts r.rq f ∨ f = (ascii "Content-Length", Decimal.decimalText r.body.length)

/-! ### Origins along the chain -/

lemma Uri.sameOrigin_symm {a b : Uri} (h : a.sameOrigin b = true) : b.sameOrigin a = true := by
  obtain ⟨hs, hh, hp⟩ := (Uri.sameOrigin_iff a b).mp h
  exact (Uri.sameOrigin_iff b a).mpr ⟨hs.symm, hh.symm, hp.symm⟩

/-- The targets up to a hop have one origin. -/
def OneOrigin (us : List Uri) (k : Nat) : Prop :=
  ∀ j ≤ k, ∀ u v, us[0]? = some u → us[j]? = some v → u.sameOrigin v = true

lemma cur_of_chain {j : Nat} {c : Chain} (h : cs[j]? = some c) :
    (cs.map Chain.cur)[j]? = some c.cur := by
  rw [List.getElem?_map, h]
  rfl

/-- The credentials are left out exactly once a hop crossed origins. -/
lemma Logged.strips (h : Logged call src cs sent answered) (k : Nat) (c : Chain)
    (hc : cs[k]? = some c) : c.stripCreds = false ↔ OneOrigin (cs.map Chain.cur) k := by
  induction k generalizing c with
  | zero =>
    rw [(h.starts c hc).stripCreds]
    refine iff_of_true rfl (fun j hj u v hu hv => ?_)
    obtain rfl := Nat.le_zero.mp hj
    obtain rfl := Option.some.inj (hu.symm.trans hv)
    exact Uri.sameOrigin_refl u
  | succ k ih =>
    obtain ⟨hlt, -⟩ := List.getElem?_eq_some_iff.mp hc
    have hx : cs[k]? = some cs[k] := List.getElem?_eq_getElem (by omega)
    have hfirst : cs[0]? = some cs[0] := List.getElem?_eq_getElem (by omega)
    obtain ⟨a, -, hnext⟩ := h.follows k _ c hx hc
    have hstrip : c.stripCreds = (cs[k].stripCreds || !cs[k].cur.sameOrigin c.cur) :=
      hnext.turns.stripCreds
    rw [hstrip, Bool.or_eq_false_iff, Bool.not_eq_false', ih _ hx]
    constructor
    · rintro ⟨hbefore, hsame⟩ j hj u v hu hv
      rcases Nat.le_succ_iff.mp hj with hj | rfl
      · exact hbefore j hj u v hu hv
      · have hprev := hbefore k le_rfl u cs[k].cur hu (cur_of_chain hx)
        obtain rfl := Option.some.inj ((cur_of_chain hc).symm.trans hv)
        exact Uri.sameOrigin_trans hprev hsame
    · intro hall
      refine ⟨fun j hj => hall j (Nat.le_succ_of_le hj), ?_⟩
      have hprev := hall k (Nat.le_succ k) _ _ (cur_of_chain hfirst) (cur_of_chain hx)
      have hthis := hall (k + 1) le_rfl _ _ (cur_of_chain hfirst) (cur_of_chain hc)
      exact Uri.sameOrigin_trans (Uri.sameOrigin_symm hprev) hthis

/-- The targets of the requests are those of the chains. -/
lemma Logged.uris (h : Logged call src cs sent answered) {j k : Nat} {r : Sent}
    (hr : sent[k]? = some r) (hj : j ≤ k) :
    (sent.map Sent.uri)[j]? = (cs.map Chain.cur)[j]? := by
  have hlt : j < sent.length := by
    have hlt := (List.getElem?_eq_some_iff.mp hr).1
    omega
  have hx : sent[j]? = some sent[j] := List.getElem?_eq_getElem hlt
  obtain ⟨c, hc, hrec⟩ := h.records j _ hx
  rw [cur_of_chain hc, List.getElem?_map, hx, Option.map_some, hrec.uri]

lemma Logged.oneOrigin (h : Logged call src cs sent answered) {k : Nat} {r : Sent}
    (hr : sent[k]? = some r) :
    OneOrigin (cs.map Chain.cur) k ↔ OneOrigin (sent.map Sent.uri) k := by
  unfold OneOrigin
  refine forall₂_congr (fun j hj => ?_)
  rw [h.uris hr (Nat.zero_le k), h.uris hr hj]

/-! ### A call -/

/-- The header list of every request is what the engine adds around the caller's headers, and
of these the list has, in order, all but `Content-Length` and, once a hop crossed origins,
all but the secret ones; HTTP/2 does not carry the fields that belong to a connection. -/
theorem perform_confines (env : Env) (call : Call) (host : Host) (next release : Bool)
    (answers : List (Except Fail Bytes)) (sink : Option Sink) :
    let run := exec (perform (Z := Z) env call) (World.start host next release answers sink)
    ∀ (k : Nat) (r : Sent), run.2.sent[k]? = some r → ∃ own added crossed,
      (∀ f ∈ own, IsOwn r.proxy f) ∧ (∀ f ∈ added, IsAdded call.opts r f) ∧
      (crossed = false ↔ OneOrigin (run.2.sent.map Sent.uri) k) ∧
      r.wire = carried r.h2
        (own ++ callerFields call.opts.redact crossed call.req.headers ++ added) ∧
      (r.h2 = true → ∀ c, ∃ pseudo, pseudo.length = 4 ∧
        H2.block (h2Request c r.rq) = pseudo ++ r.wire) := by
  intro run k r hr
  obtain ⟨⟨⟨cs, hlog⟩, -⟩, -⟩ := perform_tells (Z := Z) env call host next release answers sink
  obtain ⟨c, hc, hrec⟩ := hlog.records k r hr
  obtain ⟨own, ds, hown, hds, hfields⟩ := hrec.rq.fields
  refine ⟨own, ds ++ h2Length c r.h2, c.stripCreds, hown, ?_, ?_, ?_, Sent.submitted⟩
  · intro f hf
    rcases List.mem_append.mp hf with hf | hf
    · exact Or.inl (hds f hf)
    · unfold h2Length at hf
      split_ifs at hf
      · rw [List.mem_singleton] at hf
        rw [hf, ← hrec.body]
        exact Or.inr rfl
      · cases hf
  · rw [hlog.strips k c hc]
    exact hlog.oneOrigin hr
  · unfold Sent.wire
    rw [hfields, keptHeaders_eq, List.append_assoc]

/-- A server that speaks HTTP/2 and answers at once. -/
def h2Env : Env where
  uri := .known [(ascii "http://a/", .http "a" "/" lower_a)]
  hop _ := { HopScript.plain [] with
    h2Env := {
      submits := [.ok 1]
      reads := [.frames [.beginHeaders 1, .header 1 (ascii ":status") (ascii "204"),
        .frameRecv (.headers 1 true), .streamClose 1 0] none true] } }

/-- A request over HTTP/2 with a field that belongs to a connection. -/
def keepAliveCall : Call where
  url := ascii "http://a/"
  req := { headers := [(ascii "Keep-Alive", ascii "timeout=5")] }
  opts := { http2 := .required }

/-- A header that is not secret does not go to every hop: HTTP/2 does not carry it. -/
theorem perform_drops_keepAlive : ¬∀ (env : Env) (call : Call) (host : Host)
    (next release : Bool) (answers : List (Except Fail Bytes)) (sink : Option Sink),
    let run := exec (perform (Z := Zlib.knowing [] []) env call)
      (World.start host next release answers sink)
    ∀ (k : Nat) (r : Sent), run.2.sent[k]? = some r → ∀ h ∈ call.req.headers,
      (call.opts.redact.getD RedactPolicy.init).isSecretHeader h.1 = false →
      ¬CaseEq h.1 (ascii "Content-Length") → ∃ f ∈ r.wire, CaseEq f.1 h.1 ∧ f.2 = h.2 := by
  intro hall
  have hrun := hall h2Env keepAliveCall {} false false [] none
  have hwire : (exec (perform (Z := Zlib.knowing [] []) h2Env keepAliveCall)
      (World.start {} false false [] none)).2.sent.map Sent.wire =
        [[(ascii "user-agent", ascii "zuhttp"), (ascii "accept", ascii "*/*"),
          (ascii "accept-encoding", ascii "gzip")]] := by decide +kernel
  dsimp only at hrun
  generalize (exec (perform (Z := Zlib.knowing [] []) h2Env keepAliveCall)
    (World.start {} false false [] none)).2.sent = sent at hrun hwire
  obtain ⟨r, sent, rfl, hr, -⟩ := List.map_eq_cons_iff.mp hwire
  obtain ⟨f, hf, -, hvalue⟩ := hrun 0 r rfl _ List.mem_cons_self (by decide) (by decide)
  rw [hr] at hf
  revert f
  decide

end Zuhttp
