import Zuhttp.Proofs.Host

/-!
# Where the streams of a run are

Every stream object of a run is closed, passed to the pool or in hand, once. The functions
that open, choose and give back a stream touch nothing else that a run is about.
-/

namespace Zuhttp

open Prog

variable {Z : Zlib} {α : Type}

namespace World

/-- What a run is about, its streams and its host apart. -/
structure Core (Z : Zlib) where
  source : Source
  sink : Option Sink
  sent : List Sent
  answered : List Answer
  body : Bytes
  openBody : Option (Held Z)

def core (w : World Z) : Core Z :=
  ⟨w.source, w.sink, w.sent, w.answered, w.result.body, w.result.openBody⟩

/-- The stream objects passed to the pool. -/
def pooledLayers (w : World Z) : List Nat := w.pooled.flatMap (fun p => p.stream.layers)

/-- Besides those in hand, every stream object was closed or passed to the pool, once. -/
def Owned (own : List Nat) (w : World Z) : Prop :=
  (w.closed ++ w.pooledLayers ++ own).Perm (List.range w.opened)

/-- The stream objects in hand, and what the rest of the run has come to. -/
structure At (own : List Nat) (k : Core Z) (w : World Z) : Prop where
  owned : w.Owned own
  core : w.core = k

variable {own layers : List Nat} {k : Core Z}

lemma At.onHost (m : HostProg α) : Keeps (At (Z := Z) own k) (World.onHost m) :=
  Keeps.zoom (fun _ _ hs => ⟨hs.owned, hs.core⟩)

lemma At.surely {m : HostProg α} (h : Sure (fun _ => True) m) :
    Sure (At (Z := Z) own k) (World.onHost m) :=
  Sure.zoom h (fun _ _ hs => ⟨hs.owned, hs.core⟩)

/-- What a step of the host gives. -/
lemma At.gives {A : α → Prop} {m : HostProg α} (h : Gives A m) :
    Triple (At (Z := Z) own k) (World.onHost m) (fun a w => A a ∧ w.At own k)
      (fun _ => At own k) :=
  (Triple.zoomed (B := fun _ => True) h (fun _ _ hs => ⟨hs.owned, hs.core⟩)).conseq
    (fun _ hs => hs) (fun _ _ hs => hs) (fun _ _ hs => hs.2)

/-- A step of the host that always fails. -/
lemma At.failing {m : HostProg α} {Q : α → World Z → Prop}
    (h : Triple (fun _ => True) m (fun _ _ => False) (fun _ _ => True)) :
    Triple (At own k) (World.onHost m) Q (fun _ => At own k) :=
  (Triple.zoomed (A := fun _ => False) (B := fun _ => True) h
    (fun _ _ hs => ⟨hs.owned, hs.core⟩)).conseq (fun _ hs => hs) (fun _ _ hs => hs.1.elim)
      (fun _ _ hs => hs.2)

lemma At.setResult {f : Result Z → Result Z}
    (h : ∀ r, (f r).body = r.body ∧ (f r).openBody = r.openBody) :
    Sure (At own k) (World.setResult f) := by
  refine Sure.modify (fun w hw => ⟨hw.owned, ?_⟩)
  rw [← hw.core]
  unfold World.core
  rw [(h w.result).1, (h w.result).2]

lemma At.newStream (via : Opening) (conn : Conn) (info : Option TlsInfo) :
    Triple (At (Z := Z) layers k) (World.newStream layers via conn info)
      (fun s => At s.layers k) (fun _ => At [] k) := by
  intro w hw
  refine ⟨?_, hw.core⟩
  have hown : (w.closed ++ w.pooledLayers ++ layers).Perm (List.range w.opened) := hw.owned
  change (w.closed ++ w.pooledLayers ++ w.opened :: layers).Perm (List.range (w.opened + 1))
  rw [List.range_succ]
  exact (List.perm_middle.trans (hown.cons _)).trans (List.perm_append_singleton _ _).symm

/-- A stream that is closed leaves the hands of the run. -/
lemma Owned.drop {s : Stream} {w : World Z} (h : w.Owned s.layers) : (w.drop s).Owned [] := by
  have hown : (w.closed ++ w.pooledLayers ++ s.layers).Perm (List.range w.opened) := h
  change (w.closed ++ s.layers ++ w.pooledLayers ++ []).Perm (List.range w.opened)
  rw [List.append_nil]
  refine List.Perm.trans ?_ hown
  rw [List.append_assoc, List.append_assoc]
  exact List.perm_append_comm.append_left _

/-- So does one that is passed to the pool. -/
lemma Owned.pool {s : Stream} {w : World Z} (key : PoolKey) (r : Reuse) (h : w.Owned s.layers) :
    (w.pool key s r).Owned [] := by
  have hown : (w.closed ++ w.pooledLayers ++ s.layers).Perm (List.range w.opened) := h
  unfold World.pool Owned pooledLayers
  rw [List.flatMap_append, List.append_nil, ← List.append_assoc]
  simpa [pooledLayers] using hown

lemma At.drop {s : Stream} {w : World Z} (h : At s.layers k w) : At [] k (w.drop s) :=
  ⟨h.owned.drop, h.core⟩

/-- A step that keeps the stream in hand, and drops it when it fails. -/
lemma At.dropping {s : Stream} {m : Engine Z α} {Q : α → World Z → Prop}
    (h : Triple (At s.layers k) m Q (fun _ => At s.layers k)) :
    Triple (At s.layers k) (Prog.onFailure (World.drop s) m) Q (fun _ => At [] k) :=
  Triple.onFailure h (fun _ _ hw => At.drop hw)

end World

open World

variable {own : List Nat} {k : Core Z}

/-! ### Opening -/

lemma recordTlsInfo_at (info : Option TlsInfo) : Sure (At own k) (recordTlsInfo info) := by
  cases info with
  | none => exact Sure.pure _
  | some info =>
    exact (At.surely (dupStr_sure _)).bind (fun _ => (At.surely (dupStr_sure _)).bind (fun _ =>
      (At.surely (dupStr_sure _)).bind (fun _ => At.setResult (fun _ => ⟨rfl, rfl⟩))))

lemma recordPeer_at (ip : Option Bytes) : Sure (At own k) (recordPeer ip) := by
  cases ip with
  | none => exact Sure.pure _
  | some ip =>
    exact (At.surely (dupStr_sure _)).bind (fun _ => At.setResult (fun _ => ⟨rfl, rfl⟩))

/-- The pool's connection is in hand when there is one. -/
lemma acquireStream_at (opts : PerformOpts) (script : HopScript) (u : Uri) (px : Proxy) :
    Triple (At (Z := Z) [] k) (acquireStream opts script u px)
      (fun found => At (found.elim [] Stream.layers) k) (fun _ => At [] k) := by
  unfold acquireStream
  refine Triple.ite (fun _ => Triple.pure (fun _ hw => hw)) (fun _ => ?_)
  refine Triple.bind (At.onHost _) (fun key => ?_)
  cases key with
  | none => exact Triple.throw (fun _ hw => hw)
  | some key =>
    cases script.acquired with
    | none => exact Triple.pure (fun _ hw => hw)
    | some a =>
      refine Triple.bind (At.newStream _ _ _) (fun s => ?_)
      refine Triple.bind (Sure.onlyIf (recordTlsInfo_at _)).triple (fun _ => ?_)
      refine Triple.bind (Sure.triple (At.setResult (fun _ => ⟨rfl, rfl⟩))) (fun _ => ?_)
      refine Triple.bind (recordPeer_at _).triple (fun _ => ?_)
      exact Triple.bind (At.surely (Host.traceAdd_sure _ _ _)).triple
        (fun _ => Triple.pure (fun _ hw => hw))

lemma openDialled_at (script : HopScript) (u : Uri) (px : Proxy) :
    Triple (At (Z := Z) [] k) (openDialled script u px) (fun s => At s.layers k)
      (fun _ => At [] k) := by
  unfold openDialled
  cases script.dialled with
  | error f => exact At.failing (Host.raise_fails f)
  | ok hs =>
    refine Triple.bind (At.newStream _ _ _) (fun s => ?_)
    refine Triple.bind (recordPeer_at _).triple (fun _ => ?_)
    refine Triple.bind (Sure.triple (At.setResult (fun _ => ⟨rfl, rfl⟩))) (fun _ => ?_)
    exact Triple.bind (recordTlsInfo_at _).triple (fun _ => Triple.pure (fun _ hw => hw))

lemma openTunnel_at (u : Uri) (px : Proxy) (tcp : Stream) (t : Transport) :
    Triple (At (Z := Z) tcp.layers k) (openTunnel u px tcp t) (fun _ => At tcp.layers k)
      (fun _ => At [] k) := by
  refine At.dropping (Triple.bind (At.onHost _) (fun req => ?_))
  refine Triple.bind (Keeps.modify (fun w hw => ⟨hw.owned, hw.core⟩)) (fun _ => ?_)
  exact At.onHost _

lemma openTls_at (env : Env) (script : HopScript) (u : Uri) (px : Proxy) (tcp : Stream)
    (t : Transport) :
    Triple (At (Z := Z) tcp.layers k) (openTls env script u px tcp t) (fun s => At s.layers k)
      (fun _ => At [] k) := by
  unfold openTls
  refine Triple.bind (M := fun _ => At tcp.layers k)
    (Triple.ite (fun _ => openTunnel_at u px tcp t) (fun _ => (Sure.pure _).triple)) (fun _ => ?_)
  refine Triple.ite (fun _ => At.dropping (At.failing (Host.refuse_fails _ _ _))) (fun _ => ?_)
  refine Triple.bind (At.surely (Host.traceAdd_sure _ _ _)).triple (fun _ => ?_)
  cases script.handshake with
  | error f => exact At.dropping (At.failing (Host.raise_fails f))
  | ok hs =>
    refine Triple.bind (At.newStream _ _ _) (fun s => ?_)
    refine Triple.bind (recordTlsInfo_at _).triple (fun _ => ?_)
    refine Triple.bind Sure.get.triple (fun w => ?_)
    exact Triple.bind (At.surely (Host.traceAdd_sure _ _ _)).triple
      (fun _ => Triple.pure (fun _ hw => hw))

lemma openTcp_at (env : Env) (opts : PerformOpts) (script : HopScript) (u : Uri) (px : Proxy) :
    Triple (At (Z := Z) [] k) (openTcp env opts script u px) (fun s => At s.layers k)
      (fun _ => At [] k) := by
  unfold openTcp
  refine Triple.bind (At.onHost _) (fun peer => ?_)
  refine Triple.bind (At.newStream _ _ _) (fun tcp => ?_)
  refine Triple.bind (recordPeer_at _).triple (fun _ => ?_)
  refine Triple.bind (Sure.triple (At.setResult (fun _ => ⟨rfl, rfl⟩))) (fun _ => ?_)
  exact Triple.ite (fun _ => Triple.pure (fun _ hw => hw)) (fun _ => openTls_at _ _ _ _ _ _)

/-- The stream of a hop is in hand, or nothing is. -/
theorem openStream_at (env : Env) (opts : PerformOpts) (script : HopScript) (u : Uri)
    (px : Proxy) :
    Triple (At (Z := Z) [] k) (openStream env opts script u px) (fun s => At s.layers k)
      (fun _ => At [] k) := by
  refine Triple.bind (acquireStream_at opts script u px) (fun found => ?_)
  cases found with
  | some s => exact Triple.pure (fun _ hw => hw)
  | none => exact Triple.ite (fun _ => openDialled_at _ _ _) (fun _ => openTcp_at _ _ _ _ _)

/-- The stream that the protocol needs is in hand, or nothing is. -/
theorem chooseProtocol_at (opts : PerformOpts) (script : HopScript) (u : Uri) (px : Proxy)
    (s : Stream) :
    Triple (At (Z := Z) s.layers k) (chooseProtocol opts script u px s)
      (fun s' => At s'.layers k) (fun _ => At [] k) := by
  unfold chooseProtocol
  cases s.conn with
  | h2 h => exact Triple.pure (fun _ hw => hw)
  | h1 t =>
    refine Triple.ite (fun _ => Triple.ite (fun _ => Triple.pure (fun _ hw => hw))
      (fun _ => At.dropping (At.failing (Host.raise_fails _)))) (fun _ => ?_)
    cases script.h2Wrap with
    | some f => exact At.dropping (At.failing (Host.raise_fails f))
    | none => exact At.newStream _ _ _

/-! ### Giving back -/

/-- A stream that is given back is pooled or closed. -/
theorem doneWithStream_at (opts : PerformOpts) (u : Uri) (px : Proxy) (s : Stream) (r : Reuse) :
    Triple (At (Z := Z) s.layers k) (doneWithStream opts u px s r) (fun _ => At [] k)
      (fun _ _ => False) := by
  refine Triple.bind (At.surely (releaseKey_sure opts u px)) (fun key => ?_)
  cases key with
  | none => exact Triple.modify (fun w hw => At.drop hw)
  | some key => exact Triple.modify (fun w hw => ⟨hw.owned.pool key r, hw.core⟩)

end Zuhttp
