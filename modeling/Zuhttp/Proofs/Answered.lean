import Zuhttp.Proofs.Log
import Zuhttp.Proofs.ProxyAuth

/-!
# A request and its answer

What a hop leaves alone before its response, and what it has sent once the head of the response
is there.
-/

namespace Zuhttp

open Prog World

variable {Z : Zlib} {α : Type}

/-! ### What a hop leaves alone before its response -/

namespace World

/-- What opening a connection and sending a request over it leave alone. -/
structure Standing (Z : Zlib) where
  sink : Option Sink
  answered : List Answer
  pooled : List Pooled
  body : Bytes
  openBody : Option (Held Z)

def rest (w : World Z) : Standing Z :=
  ⟨w.sink, w.answered, w.pooled, w.result.body, w.result.openBody⟩

/-- What `P` says is about the rest of the world and the requests that were sent. -/
def Blind (P : World Z → Prop) : Prop :=
  ∀ w w' : World Z, w'.rest = w.rest → w'.sent = w.sent → P w → P w'

variable {P : World Z → Prop}

lemma Blind.onHost (hP : Blind P) (m : HostProg α) : Keeps P (World.onHost m) :=
  Keeps.zoom (fun _ w hw => hP w _ rfl rfl hw)

lemma Blind.setResult (hP : Blind P) {f : Result Z → Result Z}
    (h : ∀ r, (f r).body = r.body ∧ (f r).openBody = r.openBody) :
    Keeps P (World.setResult f) := by
  refine Keeps.modify (fun w hw => hP w _ ?_ rfl hw)
  unfold World.rest
  rw [(h w.result).1, (h w.result).2]

lemma Blind.newStream (hP : Blind P) (layers : List Nat) (via : Opening) (conn : Conn)
    (info : Option TlsInfo) : Keeps P (World.newStream layers via conn info) :=
  Triple.reading (fun w hw => Keeps.bind (Keeps.set (hP w _ rfl rfl hw)) (fun _ => Keeps.pure _))

lemma Blind.drop (hP : Blind P) (s : Stream) (w : World Z) (hw : P w) : P (w.drop s) :=
  hP w _ rfl rfl hw

lemma Blind.dropping (hP : Blind P) {s : Stream} {m : Engine Z α} (hm : Keeps P m) :
    Keeps P (Prog.onFailure (World.drop s) m) :=
  hm.onFailure (hP.drop s)

end World

variable {P : World Z → Prop}

lemma recordTlsInfo_keeps (hP : Blind P) (info : Option TlsInfo) :
    Keeps P (recordTlsInfo (Z := Z) info) := by
  cases info with
  | none => exact Keeps.pure _
  | some info =>
    exact (hP.onHost _).bind (fun _ => (hP.onHost _).bind (fun _ => (hP.onHost _).bind (fun _ =>
      hP.setResult (fun _ => ⟨rfl, rfl⟩))))

lemma recordPeer_keeps (hP : Blind P) (ip : Option Bytes) : Keeps P (recordPeer (Z := Z) ip) := by
  cases ip with
  | none => exact Keeps.pure _
  | some ip => exact (hP.onHost _).bind (fun _ => hP.setResult (fun _ => ⟨rfl, rfl⟩))

lemma acquireStream_keeps (hP : Blind P) (opts : PerformOpts) (script : HopScript) (u : Uri)
    (px : Proxy) : Keeps P (acquireStream (Z := Z) opts script u px) := by
  refine Keeps.ite (Keeps.pure _) ((hP.onHost _).bind (fun key => ?_))
  cases key with
  | none => exact Keeps.throw _
  | some key =>
    cases script.acquired with
    | none => exact Keeps.pure _
    | some a =>
      refine (hP.newStream _ _ _ _).bind (fun s => ?_)
      refine (Keeps.onlyIf (recordTlsInfo_keeps hP _)).bind (fun _ => ?_)
      refine Keeps.bind (hP.setResult (fun _ => ⟨rfl, rfl⟩)) (fun _ => ?_)
      exact (recordPeer_keeps hP _).bind (fun _ => (hP.onHost _).bind (fun _ => Keeps.pure _))

lemma openDialled_keeps (hP : Blind P) (script : HopScript) (u : Uri) (px : Proxy) :
    Keeps P (openDialled (Z := Z) script u px) := by
  unfold openDialled
  cases script.dialled with
  | error f => exact hP.onHost _
  | ok hs =>
    refine (hP.newStream _ _ _ _).bind (fun s => (recordPeer_keeps hP _).bind (fun _ => ?_))
    exact Keeps.bind (hP.setResult (fun _ => ⟨rfl, rfl⟩)) (fun _ =>
      (recordTlsInfo_keeps hP _).bind (fun _ => Keeps.pure _))

lemma openTunnel_keeps (hP : Blind P) (u : Uri) (px : Proxy) (tcp : Stream) (t : Transport) :
    Keeps P (openTunnel (Z := Z) u px tcp t) := by
  refine hP.dropping ((hP.onHost _).bind (fun req => ?_))
  exact Keeps.bind (Keeps.modify (fun w hw => hP w _ rfl rfl hw)) (fun _ => hP.onHost _)

lemma openTls_keeps (hP : Blind P) (env : Env) (script : HopScript) (u : Uri) (px : Proxy)
    (tcp : Stream) (t : Transport) : Keeps P (openTls (Z := Z) env script u px tcp t) := by
  unfold openTls
  refine (Keeps.onlyIf (openTunnel_keeps hP _ _ _ _)).bind (fun _ => ?_)
  refine Keeps.ite (hP.dropping (hP.onHost _)) ((hP.onHost _).bind (fun _ => ?_))
  cases script.handshake with
  | error f => exact hP.dropping (hP.onHost _)
  | ok hs =>
    refine (hP.newStream _ _ _ _).bind (fun s => (recordTlsInfo_keeps hP _).bind (fun _ => ?_))
    exact Keeps.get.bind (fun w => (hP.onHost _).bind (fun _ => Keeps.pure _))

lemma openTcp_keeps (hP : Blind P) (env : Env) (opts : PerformOpts) (script : HopScript) (u : Uri)
    (px : Proxy) : Keeps P (openTcp (Z := Z) env opts script u px) := by
  refine (hP.onHost _).bind (fun peer => (hP.newStream _ _ _ _).bind (fun tcp => ?_))
  refine (recordPeer_keeps hP _).bind (fun _ => ?_)
  refine Keeps.bind (hP.setResult (fun _ => ⟨rfl, rfl⟩)) (fun _ => ?_)
  exact Keeps.ite (Keeps.pure _) (openTls_keeps hP _ _ _ _ _ _)

lemma openStream_keeps (hP : Blind P) (env : Env) (opts : PerformOpts) (script : HopScript)
    (u : Uri) (px : Proxy) : Keeps P (openStream (Z := Z) env opts script u px) := by
  refine (acquireStream_keeps hP _ _ _ _).bind (fun found => ?_)
  cases found with
  | some s => exact Keeps.pure _
  | none => exact Keeps.ite (openDialled_keeps hP _ _ _) (openTcp_keeps hP _ _ _ _ _)

lemma chooseProtocol_keeps (hP : Blind P) (opts : PerformOpts) (script : HopScript) (u : Uri)
    (px : Proxy) (s : Stream) : Keeps P (chooseProtocol (Z := Z) opts script u px s) := by
  unfold chooseProtocol
  cases s.conn with
  | h2 h => exact Keeps.pure _
  | h1 t =>
    refine Keeps.ite (Keeps.ite (Keeps.pure _) (hP.dropping (hP.onHost _))) ?_
    cases script.h2Wrap with
    | some f => exact hP.dropping (hP.onHost _)
    | none => exact hP.newStream _ _ _ _

lemma sendPieces_keeps (hP : Blind P) (hop : Nat) (answers : List (Except Fail Bytes))
    (t : Transport) : Keeps P (sendPieces (Z := Z) hop answers t) := by
  have hpull : ∀ answers, Keeps P (pullSource (Z := Z) hop answers) :=
    fun answers => Keeps.modify (fun w hw => hP w _ rfl rfl hw)
  induction answers generalizing t with
  | nil => exact (hpull _).bind (fun _ => (hP.onHost _).bind (fun _ => Keeps.pure _))
  | cons a answers ih =>
    cases a with
    | error f => exact (hpull _).bind (fun _ => hP.onHost _)
    | ok d =>
      refine (hpull _).bind (fun _ => (hP.onHost _).bind (fun t' => ?_))
      exact Keeps.ite (Keeps.pure _) ((ih t').bind (fun _ => Keeps.pure _))

lemma sendSource_keeps (hP : Blind P) (c : Chain) (t : Transport) :
    Keeps P (sendSource (Z := Z) c t) :=
  Keeps.get.bind (fun _ => Keeps.ite (sendPieces_keeps hP _ _ _) (Keeps.pure _))

/-! ### The request and its answer -/

/-- The response answers that request: it was written in whole, or the HTTP/2 driver began it. -/
def Asked (r : Sent) (a : Answer) : Prop :=
  match a.input with
  | .h1 _ _ _ => r.h2 = false ∧ r.wrote.isSome = true
  | .h2 h => r.h2 = true ∧ ∃ h₀ rq resp, H2.begin h₀ rq Headers.init = (h, .ok resp)

variable {v : Standing Z} {L : List Sent} {A B : Sent → Prop}

/-- No request was sent since `L`. -/
def Unasked (v : Standing Z) (L : List Sent) (w : World Z) : Prop := w.rest = v ∧ w.sent = L

/-- One request was sent since `L`. -/
def Asks (v : Standing Z) (L : List Sent) (A : Sent → Prop) (w : World Z) : Prop :=
  w.rest = v ∧ ∃ r, w.sent = L ++ [r] ∧ A r

/-- At most one request was sent since `L`. -/
def AsksOnce (v : Standing Z) (L : List Sent) (w : World Z) : Prop :=
  w.rest = v ∧ ∃ more, w.sent = L ++ more ∧ more.length ≤ 1

lemma unasked_blind : Blind (Unasked v L) :=
  fun _ _ hrest hsent hw => ⟨hrest.trans hw.1, hsent.trans hw.2⟩

lemma asks_blind : Blind (Asks v L A) :=
  fun _ _ hrest hsent hw => ⟨hrest.trans hw.1, by rw [hsent]; exact hw.2⟩

lemma asksOnce_blind : Blind (AsksOnce v L) :=
  fun _ _ hrest hsent hw => ⟨hrest.trans hw.1, by rw [hsent]; exact hw.2⟩

lemma Unasked.once {w : World Z} (h : Unasked v L w) : AsksOnce v L w :=
  ⟨h.1, [], by rw [h.2, List.append_nil], Nat.zero_le _⟩

lemma Asks.once {w : World Z} (h : Asks v L A w) : AsksOnce v L w := by
  obtain ⟨hrest, r, hsent, -⟩ := h
  exact ⟨hrest, [r], hsent, le_rfl⟩

lemma Asks.imp {w : World Z} (h : Asks v L A w) (hi : ∀ r, A r → B r) : Asks v L B w := by
  obtain ⟨hrest, r, hsent, hr⟩ := h
  exact ⟨hrest, r, hsent, hi r hr⟩

/-- A request over HTTP/1.1 is in the log, with its bytes once all of them were written. -/
lemma sendH1_asks (call : Call) (c : Chain) (px : Proxy) (s : Stream) (t : Transport)
    (rq : Request) :
    Triple (Unasked (Z := Z) v L) (sendH1 call c px s t rq)
      (fun _ => Asks v L (fun r => r.h2 = false ∧ r.wrote.isSome = true))
      (fun _ => AsksOnce v L) := by
  refine Triple.bind ((unasked_blind.onHost _).conseq (fun _ hw => hw) (fun _ _ hw => hw)
    (fun _ _ hw => hw.once)) (fun head => ?_)
  refine Triple.reading (fun w₀ _ => ?_)
  have hlogged : Blind (Asks (Z := Z) v L (fun r => r.h2 = false)) := asks_blind
  refine Triple.bind (M := fun _ => Asks v L (fun r => r.h2 = false))
    (Triple.modify (fun w hw => ?_)) (fun _ => ?_)
  · exact ⟨hw.1, _, congrArg (· ++ [_]) hw.2, rfl⟩
  refine Triple.bind ((hlogged.onHost _).conseq (fun _ hw => hw) (fun _ _ hw => hw)
    (fun _ _ hw => hw.once)) (fun t₁ => ?_)
  refine Triple.bind ((sendSource_keeps hlogged _ _).conseq (fun _ hw => hw) (fun _ _ hw => hw)
    (fun _ _ hw => hw.once)) (fun p => ?_)
  refine Triple.bind (M := fun _ => Asks v L (fun r => r.h2 = false ∧ r.wrote.isSome = true))
    (Triple.modify (fun w hw => ?_)) (fun _ => ?_)
  · obtain ⟨hrest, r, hsent, -⟩ := hw
    exact ⟨hrest, _, congrArg (· ++ [_]) (by rw [hsent, List.dropLast_concat]), rfl, rfl⟩
  · refine Triple.bind ((asks_blind.onHost _).conseq (fun _ hw => hw) (fun _ _ hw => hw)
      (fun _ _ hw => hw.once)) (fun _ => Triple.pure (fun _ hw => hw))

/-- What a hop has sent once it got an answer, or failed to get one. -/
def Replied (v : Standing Z) (L : List Sent) (ex : Exchanged) (w : World Z) : Prop :=
  match ex.answer with
  | .ok a => ex.stream.conn.isH2 = a.input.isH2 ∧ Asks v L (fun r => Asked r a) w
  | .error _ => AsksOnce v L w

/-- A step of the host whose value satisfies `A`, next to what it does not see. -/
lemma World.Blind.gives {P : World Z → Prop} (hP : Blind P) {A : α → Prop} {m : HostProg α}
    (h : Gives A m) :
    Triple P (World.onHost m) (fun a w => A a ∧ P w) (fun _ => P) := by
  have hset : ∀ h w, P w → P (World.setHost h w) := fun _ w hw => hP w _ rfl rfl hw
  exact (Triple.zoomed (B := fun _ => True) h hset).conseq (fun _ hw => hw) (fun _ _ hw => hw)
    (fun _ _ hw => hw.2)

lemma exchangeH1_replied (call : Call) (c : Chain) (px : Proxy) (s : Stream) (t : Transport)
    (rq : Request) :
    Triple (Unasked (Z := Z) v L) (exchangeH1 call c px s t rq) (Replied v L)
      (fun _ => AsksOnce v L) := by
  refine Triple.bind (Triple.onFailure (sendH1_asks call c px s t rq)
    (fun _ w hw => asksOnce_blind.drop s w hw)) (fun t' => ?_)
  refine Triple.bind ((asks_blind.dropping (asks_blind.onHost _)).conseq (fun _ hw => hw)
    (fun _ _ hw => hw) (fun _ _ hw => hw.once)) (fun _ => ?_)
  refine Triple.bind (Triple.attempt (asks_blind.gives (receiveH1_input c t')))
    (fun answer => Triple.pure (fun w hw => ?_))
  cases answer with
  | error rc => exact hw.once
  | ok a =>
    obtain ⟨hinput, hasks⟩ := hw
    refine ⟨hinput.symm, hasks.imp (fun r hr => ?_)⟩
    unfold Asked
    cases hin : a.input with
    | h1 fr t seed => exact hr
    | h2 h =>
      rw [hin] at hinput
      cases hinput

lemma receiveH2_begun (script : HopScript) (c : Chain) (h : H2) (res : Except Fail H2.H2Response) :
    Gives (fun a : Answer => a.input = .h2 h ∧ ∃ resp, res = .ok resp)
      (receiveH2 script c h res) := by
  cases res with
  | error f => exact Gives.fails (Host.raise_fails f)
  | ok r => exact Gives.andThen (fun _ => Gives.andThen (fun _ => Gives.pure ⟨rfl, r, rfl⟩))

lemma exchangeOverH2_replied (call : Call) (script : HopScript) (c : Chain) (px : Proxy)
    (s : Stream) (h : H2) (rq : Request) :
    Triple (Unasked (Z := Z) v L) (exchangeOverH2 call script c px s h rq) (Replied v L)
      (fun _ => AsksOnce v L) := by
  refine Triple.bind ((unasked_blind.dropping (unasked_blind.onHost _)).conseq (fun _ hw => hw)
    (fun _ _ hw => hw) (fun _ _ hw => hw.once)) (fun rq' => ?_)
  refine Triple.bind ((unasked_blind.dropping (unasked_blind.onHost _)).conseq (fun _ hw => hw)
    (fun _ _ hw => hw) (fun _ _ hw => hw.once)) (fun _ => ?_)
  have hrefused := begin_refused h (h2Request c rq') Headers.init
  cases hrun : h.begin (h2Request c rq') Headers.init with
  | mk h' res =>
    rw [hrun] at hrefused
    dsimp only
    rw [hrun]
    by_cases hsub : submits h (h2Request c rq') = true
    · refine Triple.bind (M := fun _ => Asks v L (fun r => r.h2 = true))
        (Triple.ite (fun _ => Triple.modify (fun w hw => ?_)) (fun hno => absurd hsub hno))
        (fun _ => ?_)
      · exact ⟨hw.1, _, congrArg (· ++ [_]) hw.2, rfl⟩
      refine Triple.bind (Triple.attempt (asks_blind.gives (receiveH2_begun script c h' res)))
        (fun answer => Triple.pure (fun w hw => ?_))
      cases answer with
      | error rc => exact hw.once
      | ok a =>
        obtain ⟨⟨hinput, resp, rfl⟩, hasks⟩ := hw
        refine ⟨by rw [hinput]; rfl, hasks.imp (fun r hr => ?_)⟩
        unfold Asked
        rw [hinput]
        exact ⟨hr, h, _, resp, hrun⟩
    · obtain ⟨f, hf⟩ := hrefused (by simpa using hsub)
      obtain rfl : res = .error f := hf
      refine Triple.bind (M := fun _ => Unasked v L)
        (Triple.ite (fun hyes => absurd hyes hsub) (fun _ => Triple.pure (fun _ hw => hw)))
        (fun _ => ?_)
      refine Triple.bind (Triple.attempt
          (unasked_blind.gives (receiveH2_begun script c h' (.error f))))
        (fun answer => Triple.pure (fun w hw => ?_))
      cases answer with
      | error rc => exact hw.once
      | ok a =>
        obtain ⟨⟨-, resp, hresp⟩, -⟩ := hw
        cases hresp

/-- A hop up to the head of its response. -/
theorem exchange_replied (env : Env) (call : Call) (c : Chain) (px : Proxy) :
    Triple (Unasked (Z := Z) v L) (exchange env call c px) (Replied v L)
      (fun _ => AsksOnce v L) := by
  refine Triple.bind ((openStream_keeps unasked_blind _ _ _ _ _).conseq (fun _ hw => hw)
    (fun _ _ hw => hw) (fun _ _ hw => hw.once)) (fun s₀ => ?_)
  refine Triple.bind ((chooseProtocol_keeps unasked_blind _ _ _ _ _).conseq (fun _ hw => hw)
    (fun _ _ hw => hw) (fun _ _ hw => hw.once)) (fun s => ?_)
  refine Triple.bind ((unasked_blind.dropping (unasked_blind.onHost _)).conseq (fun _ hw => hw)
    (fun _ _ hw => hw) (fun _ _ hw => hw.once)) (fun rq => ?_)
  cases s.conn with
  | h1 t => exact exchangeH1_replied call c px s t rq
  | h2 h => exact exchangeOverH2_replied call (env.hop c.hops) c px s h rq

end Zuhttp
