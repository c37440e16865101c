import Mathlib.Data.List.Perm.Basic
import Mathlib.Data.List.Nodup
import Zuhttp.Net
import Zuhttp.Proofs.Host

/-!
# Sockets of a process

The wait ends with its first turn that decides it and never sleeps past a tick or the deadline.
The calls of the system come to what the engine's own account of a connection says, and over
every run of a process each descriptor is open exactly while a stream holds it.
-/

namespace Zuhttp

open Prog

/-! ### Waiting -/

/-- How a turn ends a wait, if it does. -/
def WaitTurn.verdict (o : NetOpts) (d : Deadline) (t : WaitTurn) : Option (Except Fail Unit) :=
  if o.tick ∧ t.cancel then some (.error cancelled)
  else if d.expired t.now then some (.error deadlineExceeded)
  else
    match t.answer with
    | .ready => some (.ok ())
    | .failed errno => some (.error (pollFailed errno))
    | _ => none

lemma waitReady_result (o : NetOpts) (d : Deadline) (turns : List WaitTurn) :
    (waitReady o d turns).result = turns.findSome? (WaitTurn.verdict o d) := by
  induction turns with
  | nil => rfl
  | cons t turns ih =>
    rw [waitReady, List.findSome?_cons, WaitTurn.verdict]
    by_cases hcancel : o.tick ∧ t.cancel
    · rw [if_pos hcancel, if_pos hcancel]
    · by_cases hexpired : d.expired t.now
      · rw [if_neg hcancel, if_neg hcancel, if_pos hexpired, if_pos hexpired]
      · rw [if_neg hcancel, if_neg hcancel, if_neg hexpired, if_neg hexpired]
        cases t.answer with
        | ready => rfl
        | failed errno => rfl
        | elapsed => exact ih
        | interrupted => exact ih

/-- How long `poll` may sleep in a turn. -/
def sleep (o : NetOpts) (d : Deadline) (t : WaitTurn) : Int :=
  d.pollMs (if o.tickMs > 0 then o.tickMs else 100) t.pollNow

/-- A wait polls once in each of its first turns, for the time the turn gives. -/
lemma waitReady_polls (o : NetOpts) (d : Deadline) (turns : List WaitTurn) :
    (waitReady o d turns).polls <+: turns.map (sleep o d) := by
  induction turns with
  | nil => exact List.prefix_rfl
  | cons t turns ih =>
    have hone : [sleep o d t] <+: sleep o d t :: turns.map (sleep o d) :=
      List.cons_prefix_cons.mpr ⟨rfl, List.nil_prefix⟩
    have hmore : sleep o d t :: (waitReady o d turns).polls <+:
        sleep o d t :: turns.map (sleep o d) := List.cons_prefix_cons.mpr ⟨rfl, ih⟩
    rw [waitReady, List.map_cons]
    by_cases hcancel : o.tick ∧ t.cancel
    · rw [if_pos hcancel]
      exact List.nil_prefix
    · by_cases hexpired : d.expired t.now
      · rw [if_neg hcancel, if_pos hexpired]
        exact List.nil_prefix
      · rw [if_neg hcancel, if_neg hexpired]
        cases t.answer with
        | ready => exact hone
        | failed errno => exact hone
        | elapsed => exact hmore
        | interrupted => exact hmore

/-- A `poll` never sleeps longer than a tick, nor past the deadline. -/
lemma sleep_bounds (o : NetOpts) (d : Deadline) (t : WaitTurn) :
    0 ≤ sleep o d t ∧ sleep o d t ≤ (if o.tickMs > 0 then o.tickMs else 100) ∧
      ∀ due, d = some due → t.pollNow + sleep o d t ≤ max due t.pollNow := by
  unfold sleep
  generalize htick : (if o.tickMs > 0 then o.tickMs else 100) = tick
  have hpos : 0 < tick := by
    rw [← htick]
    split_ifs <;> omega
  have hms : d.pollMs tick t.pollNow =
      if d.remaining t.pollNow ≤ 0 then 0
      else if d.remaining t.pollNow > tick then tick else d.remaining t.pollNow := by
    unfold Deadline.pollMs
    dsimp only
    rw [if_neg (by omega : ¬tick ≤ 0)]
  rw [hms]
  refine ⟨?_, ?_, ?_⟩
  · split_ifs <;> omega
  · split_ifs <;> omega
  · rintro due rfl
    unfold Deadline.remaining
    dsimp only
    split_ifs <;> omega

/-- A wait ends with the first turn that decides it, at the latest with the first whose reading
of the clock is past the deadline, and no `poll` of it sleeps longer than a tick or past the
deadline. -/
theorem waitReady_bounded (o : NetOpts) (d : Deadline) (turns : List WaitTurn) :
    (waitReady o d turns).result = turns.findSome? (WaitTurn.verdict o d) ∧
      ((∃ t ∈ turns, d.expired t.now) → (waitReady o d turns).result ≠ none) ∧
      ∃ polled, polled <+: turns ∧ (waitReady o d turns).polls = polled.map (sleep o d) ∧
        ∀ t ∈ polled, 0 ≤ sleep o d t ∧
          sleep o d t ≤ (if o.tickMs > 0 then o.tickMs else 100) ∧
          ∀ due, d = some due → t.pollNow + sleep o d t ≤ max due t.pollNow := by
  refine ⟨waitReady_result o d turns, ?_, ?_⟩
  · rintro ⟨t, ht, hexpired⟩ hnone
    rw [waitReady_result, List.findSome?_eq_none_iff] at hnone
    have hverdict := hnone t ht
    unfold WaitTurn.verdict at hverdict
    rw [if_pos hexpired] at hverdict
    split_ifs at hverdict
  · obtain ⟨polled, hpolled, hpolls⟩ := List.prefix_map_iff.mp (waitReady_polls o d turns)
    exact ⟨polled, hpolled, hpolls, fun t _ => sleep_bounds o d t⟩

/-! ### The engine's account of a connection -/

namespace Net

variable {α : Type} {n n' : Net} {L : List Nat}

/-- An address as the engine sees it; `none` where the wait for it does not end. -/
def Candidate.attempt (o : NetOpts) (d : Deadline) (c : Candidate) : Option Attempt :=
  if c.socket = false ∨ c.nonblocking = false then some .skipped
  else
    match c.connect with
    | .done => some (.accepted c.peer)
    | .failed errno => some (.refused true errno)
    | .pending =>
      match (waitReady o d c.turns).result with
      | none => none
      | some (.error f) => some (.stopped f)
      | some (.ok ()) =>
        some (if c.soError = some 0 then .accepted c.peer else .refused false (c.soError.getD 0))

/-- Name resolution as the engine sees it. -/
def Lookup.resolution (o : NetOpts) (d : Deadline) : Lookup → Option Resolution
  | .noStack => some .noStack
  | .unresolved => some .unresolved
  | .addresses cs => (cs.mapM (Candidate.attempt o d)).map .addresses

/-- Seen on the host, a program over the descriptors does what one of the engine does. -/
abbrev Does {α β : Type} (val : α → β) (m : NetProg α) (p : HostProg β) : Prop :=
  Refines Net.host NetStop.rc val m p

abbrev Silent {α : Type} (m : NetProg α) : Prop := Unseen Net.host m

lemma onHost_does (p : HostProg α) : Does id (onHost p) p := Refines.lift (fun _ _ => rfl)

lemma openSocket_silent : Silent openSocket := fun n =>
  ⟨n.sockets, { n with sockets := n.sockets + 1, live := n.live ++ [n.sockets] }, rfl, rfl⟩

lemma use_silent (fd : Option Nat) : Silent (use fd) := fun _ => ⟨(), _, rfl, rfl⟩

lemma closeSocket_silent (fd : Nat) : Silent (closeSocket fd) := fun _ => ⟨(), _, rfl, rfl⟩

/-- A step whose value is not used and that nobody sees. -/
lemma Does.onHost_bind {β γ : Type} {val : β → γ} {p : HostProg Unit} {k : Unit → NetProg β}
    {q : Unit → HostProg γ} (hk : Does val (k ()) (q ())) :
    Does val (onHost p >>= k) (p >>= q) :=
  (onHost_does p).bind (fun _ => hk)

/-- A wait that ended, where only its result is used. -/
lemma Does.wait_bind {β γ : Type} {val : β → γ} {o : NetOpts} {d : Deadline} {fd : Option Nat}
    {turns : List WaitTurn} {r : Except Fail Unit} {k : Except Fail Unit → NetProg β}
    {q : HostProg γ} (hr : (waitReady o d turns).result = some r) (hk : Does val (k r) q) :
    Does val (wait o d fd turns >>= k) q := by
  have hsilent : Silent (Prog.onlyIf ((waitReady o d turns).polls ≠ []) (use fd)) := by
    unfold Prog.onlyIf
    split_ifs
    · exact use_silent fd
    · exact fun n => ⟨(), n, rfl, rfl⟩
  unfold wait
  dsimp only
  rw [hr, bind_assoc]
  exact Refines.after hsilent (fun _ => hk)

lemma attempt_ne_skipped {o : NetOpts} {d : Deadline} {c : Candidate} {a : Attempt}
    (hsocket : ¬c.socket = false) (hblocking : ¬c.nonblocking = false)
    (ha : c.attempt o d = some a) : a ≠ .skipped := by
  rintro rfl
  unfold Candidate.attempt at ha
  rw [if_neg (not_or.mpr ⟨hsocket, hblocking⟩)] at ha
  cases hc : c.connect with
  | done => rw [hc] at ha; cases ha
  | failed errno => rw [hc] at ha; cases ha
  | pending =>
    rw [hc] at ha
    dsimp only at ha
    cases hr : (waitReady o d c.turns).result with
    | none => rw [hr] at ha; cases ha
    | some r =>
      rw [hr] at ha
      cases r with
      | error f => cases ha
      | ok u =>
        dsimp only at ha
        split_ifs at ha <;> cases ha

/-- What the engine sees of one address that is tried. -/
def attemptOnce (host : Bytes) (port : Nat) : Attempt → HostProg (Option Bytes)
  | .skipped => pure none
  | .refused atOnce errno => do
    Host.traceAdd .connectStart (some host) 0
    Host.setError .connect .connect (refusal atOnce host port errno)
    pure none
  | .stopped f => do
    Host.traceAdd .connectStart (some host) 0
    stopped f .connect
  | .accepted peer => do
    Host.traceAdd .connectStart (some host) 0
    Host.traceAdd .connectDone (some peer) 0
    pure (some peer)

lemma connectLoop_cons (host : Bytes) (port : Nat) (last : Code) (a : Attempt)
    (as : List Attempt) (ha : a ≠ .skipped) :
    connectLoop host port last (a :: as) = attemptOnce host port a >>= fun
      | some peer => pure peer
      | none => connectLoop host port .connect as := by
  cases a with
  | skipped => exact absurd rfl ha
  | refused atOnce errno => simp [connectLoop, attemptOnce]
  | stopped f =>
    simp only [connectLoop, attemptOnce, stopped, bind_assoc]
    rfl
  | accepted peer => simp [connectLoop, attemptOnce]

/-- Two programs of the host that fail alike. -/
lemma Does.onHost_fails {β γ : Type} {val : β → γ} {p : HostProg β} {q : HostProg γ}
    (h : ∀ s, ∃ rc t, exec p s = (.error rc, t) ∧ exec q s = (.error rc, t)) :
    Does val (onHost p) q := by
  intro n
  obtain ⟨rc, t, hp, hq⟩ := h n.host
  unfold onHost Prog.lift
  rw [exec_ofExec, hp, hq]
  exact ⟨rfl, rfl⟩

lemma stopped_does {β γ : Type} {val : β → γ} (f : Fail) (phase : Phase) :
    Does val (onHost (stopped f phase)) (stopped f phase) := by
  refine Does.onHost_fails (fun s => ?_)
  obtain ⟨u, t, hnote, -⟩ := (Host.note_sure f).exec (s := s) trivial
  refine ⟨f.rc, { t with err := t.err.map (fun e => { e with phase := phase }) }, ?_, ?_⟩
  · unfold stopped
    rw [exec_bind_ok hnote]
    rfl
  · unfold stopped
    rw [exec_bind_ok hnote]
    rfl

lemma accepted_does (fd : Nat) (peer : Bytes) : Does (Option.map Prod.snd)
    (do
      let s ← accepted fd peer
      pure (some s))
    (do
      Host.traceAdd .connectDone (some peer) 0
      pure (some peer)) := by
  unfold accepted
  rw [bind_assoc]
  exact Does.onHost_bind (Refines.pure (Option.map Prod.snd) (some (fd, peer)))

lemma refused_does (fd : Nat) (rc : Code) (phase : Phase) (message : String) :
    Does (Option.map Prod.snd)
      (do
        onHost (Host.setError rc phase message)
        closeSocket fd
        pure (none : Option (Nat × Bytes)))
      (do
        Host.setError rc phase message
        pure none) :=
  Does.onHost_bind (Refines.after (closeSocket_silent fd) (fun _ => Refines.pure _ _))

/-- One address, by the calls of the system and as the engine sees it. -/
lemma tryConnect_does {o : NetOpts} {d : Deadline} {c : Candidate} {a : Attempt} (host : Bytes)
    (port fd : Nat) (ha : c.attempt o d = some a) (hne : a ≠ .skipped) :
    Does (Option.map Prod.snd) (tryConnect o d host port c fd) (attemptOnce host port a) := by
  unfold Candidate.attempt at ha
  by_cases hskip : c.socket = false ∨ c.nonblocking = false
  · rw [if_pos hskip] at ha
    cases ha
    exact absurd rfl hne
  · rw [if_neg hskip] at ha
    unfold tryConnect
    cases hc : c.connect with
    | done =>
      rw [hc] at ha
      cases ha
      exact Does.onHost_bind (Refines.after (use_silent _) (fun _ => accepted_does fd c.peer))
    | failed errno =>
      rw [hc] at ha
      cases ha
      exact Does.onHost_bind (Refines.after (use_silent _)
        (fun _ => refused_does fd .connect .connect (refusal true host port errno)))
    | pending =>
      rw [hc] at ha
      dsimp only at ha
      cases hr : (waitReady o d c.turns).result with
      | none =>
        rw [hr] at ha
        cases ha
      | some r =>
        rw [hr] at ha
        cases r with
        | error f =>
          cases ha
          exact Does.onHost_bind (Refines.after (use_silent _) (fun _ =>
            Does.wait_bind hr (Refines.after (closeSocket_silent fd)
              (fun _ => stopped_does f .connect))))
        | ok u =>
          dsimp only at ha
          by_cases hso : c.soError = some 0
          · rw [if_pos hso] at ha
            cases ha
            refine Does.onHost_bind (Refines.after (use_silent _) (fun _ =>
              Does.wait_bind hr (Refines.after (use_silent _) (fun _ => ?_))))
            rw [if_pos hso]
            exact accepted_does fd c.peer
          · rw [if_neg hso] at ha
            cases ha
            refine Does.onHost_bind (Refines.after (use_silent _) (fun _ =>
              Does.wait_bind hr (Refines.after (use_silent _) (fun _ => ?_))))
            rw [if_neg hso]
            exact refused_does fd .connect .connect _

/-- The address loop. -/
lemma connectAll_does {o : NetOpts} {d : Deadline} (host : Bytes) (port : Nat)
    (cs : List Candidate) :
    ∀ (last : Code) (as : List Attempt), cs.mapM (Candidate.attempt o d) = some as →
      Does Prod.snd (connectAll o d host port last cs) (connectLoop host port last as) := by
  induction cs with
  | nil =>
    intro last as has
    cases has
    exact Refines.throw last
  | cons c cs ih =>
    intro last as has
    rw [List.mapM_cons] at has
    obtain ⟨a, ha, as', has', rfl⟩ : ∃ a, c.attempt o d = some a ∧ ∃ as',
        cs.mapM (Candidate.attempt o d) = some as' ∧ a :: as' = as := by
      simpa [Option.bind_eq_some_iff] using has
    unfold connectAll
    by_cases hsocket : c.socket = false
    · have hskip : a = .skipped := by
        unfold Candidate.attempt at ha
        rw [if_pos (Or.inl hsocket)] at ha
        exact (Option.some.inj ha).symm
      rw [if_pos hsocket, hskip]
      exact ih last as' has'
    · rw [if_neg hsocket]
      refine Refines.after openSocket_silent (fun fd => ?_)
      by_cases hblocking : c.nonblocking = false
      · have hskip : a = .skipped := by
          unfold Candidate.attempt at ha
          rw [if_pos (Or.inr hblocking)] at ha
          exact (Option.some.inj ha).symm
        rw [if_pos hblocking, hskip]
        exact Refines.after (closeSocket_silent fd) (fun _ => ih last as' has')
      · have hne := attempt_ne_skipped hsocket hblocking ha
        rw [if_neg hblocking, connectLoop_cons host port last a as' hne]
        refine Refines.bind (tryConnect_does host port fd ha hne) (fun s => ?_)
        cases s with
        | none => exact ih .connect as' has'
        | some s => exact Refines.pure _ s

lemma connect_does (o : NetOpts) (d : Deadline) (host : Bytes) (port : Nat) (l : Lookup)
    {r : Resolution} (hr : l.resolution o d = some r) :
    Does Socket.peer (connect o d host port l) (netConnect r host port) := by
  cases l with
  | noStack =>
    cases hr
    exact Does.onHost_fails (fun s => ⟨_, _, rfl, rfl⟩)
  | unresolved =>
    cases hr
    refine Does.onHost_fails (fun s => ?_)
    obtain ⟨u, t, hstart, -⟩ :=
      (Host.traceAdd_sure .dnsStart (some host) 0).exec (s := s) trivial
    refine ⟨_, _, by rw [exec_bind_ok hstart]; rfl, ?_⟩
    unfold netConnect
    rw [exec_bind_ok hstart]
    rfl
  | addresses cs =>
    obtain ⟨as, has, rfl⟩ := Option.map_eq_some_iff.mp hr
    have hsteps : netConnect (.addresses as) host port = (do
        Host.traceAdd .dnsStart (some host) 0
        Host.traceAdd .dnsDone (some host) 0
        Host.allocate) >>= fun _ => connectLoop host port .connect as := by
      simp only [netConnect, bind_assoc]
    rw [hsteps, ← bind_pure (connectLoop host port .connect as)]
    exact Does.onHost_bind (Refines.bind (connectAll_does host port cs .connect as has)
      (fun s => Refines.pure Socket.peer ⟨some s.1, o, s.2⟩))

/-- Opening a connection by the calls of the system does what the engine's account of it says:
the same result, events and error object, whatever the system answers. -/
theorem connect_refines (o : NetOpts) (d : Deadline) (host : Bytes) (port : Nat) (l : Lookup)
    (r : Resolution) (hr : l.resolution o d = some r) (n : Net) :
    (exec (connect o d host port l) n).1.map Socket.peer =
        (exec (netConnect r host port) n.host).1.mapError .rc ∧
      (exec (connect o d host port l) n).2.host = (exec (netConnect r host port) n.host).2 :=
  connect_does o d host port l hr n

/-- A host of which one address refuses after a wait and the next one takes the connection. -/
def secondTakes : Lookup :=
  .addresses [⟨true, true, .pending, [⟨false, 0, 0, .elapsed⟩, ⟨false, 100, 100, .ready⟩],
      some 111, ascii "10.0.0.1"⟩,
    ⟨true, true, .done, [], none, ascii "10.0.0.2"⟩]

theorem connect_refines_second :
    (exec (connect ⟨false, 100⟩ (some 3000) (ascii "host") 80 secondTakes) {}).1.map Socket.peer =
      .ok (ascii "10.0.0.2") ∧
    (exec (connect ⟨false, 100⟩ (some 3000) (ascii "host") 80 secondTakes) {}).2.host.err.map
      Error.code = some .connect := by
  obtain ⟨hvalue, hhost⟩ := connect_refines ⟨false, 100⟩ (some 3000) (ascii "host") 80 secondTakes
    (.addresses [.refused false 111, .accepted (ascii "10.0.0.2")]) rfl {}
  exact ⟨hvalue.trans rfl, by rw [hhost]; rfl⟩

/-! ### Descriptors -/

/-- Every descriptor that was given out is open or closed, once. -/
def Sound (n : Net) : Prop := (n.closed ++ n.live).Perm (List.range n.sockets)

/-- The open descriptors are `L`, and no system call was made on another. -/
structure Holds (L : List Nat) (n : Net) : Prop where
  sound : n.Sound
  live : n.live = L
  stray : n.stray = 0

lemma Sound.fresh (h : n.Sound) : n.sockets ∉ n.live := fun hmem =>
  absurd (List.mem_range.mp (h.subset (List.mem_append_right _ hmem))) (by omega)

lemma Holds.host (h : n.Holds L) (hst : Host) : Holds L { n with host := hst } :=
  ⟨h.sound, h.live, h.stray⟩

lemma openSocket_holds : Triple (Holds L) openSocket
    (fun fd m => fd ∉ L ∧ m.Holds (L ++ [fd])) (fun _ _ => False) := by
  intro n h
  change n.sockets ∉ L ∧ Holds (L ++ [n.sockets])
    { n with sockets := n.sockets + 1, live := n.live ++ [n.sockets] }
  refine ⟨h.live ▸ h.sound.fresh, ?_, ?_, h.stray⟩
  · change (n.closed ++ (n.live ++ [n.sockets])).Perm (List.range (n.sockets + 1))
    rw [← List.append_assoc, List.range_succ]
    exact h.sound.append_right _
  · change n.live ++ [n.sockets] = L ++ [n.sockets]
    rw [h.live]

lemma use_holds {fd : Nat} (hfd : fd ∈ L) : Sure (Holds L) (use (some fd)) := by
  intro n h
  refine ⟨h.sound, h.live, ?_⟩
  change n.stray + (if n.live.contains fd then 0 else 1) = 0
  rw [h.live, if_pos (List.contains_iff_mem.mpr hfd), h.stray]

lemma useNone_holds : Sure (Holds L) (use none) :=
  fun _ h => ⟨h.sound, h.live, h.stray⟩

lemma closeSocket_holds {fd : Nat} (hfd : fd ∈ L) :
    Triple (Holds L) (closeSocket fd) (fun _ => Holds (L.erase fd)) (fun _ _ => False) := by
  refine Triple.bind (use_holds hfd).triple (fun _ => Triple.modify (fun n h => ⟨?_, ?_, h.stray⟩))
  · change ((n.closed ++ [fd]) ++ n.live.erase fd).Perm (List.range n.sockets)
    have hlive : (fd :: n.live.erase fd).Perm n.live :=
      (List.perm_cons_erase (h.live ▸ hfd)).symm
    rw [List.append_assoc]
    exact (hlive.append_left n.closed).trans h.sound
  · change n.live.erase fd = L.erase fd
    rw [h.live]

/-- A step of the host leaves the descriptors alone. -/
lemma onHost_holds {A : Prop} {p : HostProg α}
    (hp : Triple (fun _ => True) p (fun _ _ => A) (fun _ _ => True)) :
    Triple (Holds L) (onHost p) (fun _ m => A ∧ m.Holds L) (fun _ => Holds L) := by
  intro n h
  have hends := hp n.host trivial
  unfold onHost Prog.lift
  rw [exec_ofExec]
  cases hrun : exec p n.host with
  | mk r t =>
    rw [hrun] at hends
    cases r with
    | ok a => exact ⟨hends, h.host t⟩
    | error rc => exact h.host t

/-- A step of the host that fails. -/
lemma onHost_ends {Q : α → Net → Prop} {p : HostProg α}
    (hp : Triple (fun _ => True) p (fun _ _ => False) (fun _ _ => True)) :
    Triple (Holds L) (onHost p) Q (fun _ => Holds L) :=
  (onHost_holds hp).conseq (fun _ h => h) (fun _ _ h => h.1.elim) (fun _ _ h => h)

lemma stopped_fails (f : Fail) (phase : Phase) :
    Triple (fun _ => True) (stopped f phase : HostProg α) (fun _ _ => False) (fun _ _ => True) :=
  Triple.bind (Host.note_sure f).triple (fun _ =>
    Triple.bind (Triple.modify (Q := fun _ _ => True) (fun _ _ => trivial))
      (fun _ => Triple.throw (fun _ _ => trivial)))

lemma onHost_sure {p : HostProg α} (hp : Sure (fun _ => True) p) : Sure (Holds L) (onHost p) := by
  intro n h
  obtain ⟨a, t, hrun, -⟩ := hp.exec (s := n.host) trivial
  unfold onHost Prog.lift
  rw [exec_ofExec, hrun]
  exact h.host t

lemma setError_sure (rc : Code) (phase : Phase) (message : String) :
    Sure (fun _ => True) (Host.setError rc phase message) := Sure.modify (fun _ _ => trivial)

/-- A wait that ends leaves the descriptors alone. -/
lemma wait_holds (o : NetOpts) (d : Deadline) {fd : Option Nat} (hfd : ∀ x ∈ fd, x ∈ L)
    (turns : List WaitTurn) :
    Triple (Holds L) (wait o d fd turns) (fun _ => Holds L) (fun e _ => e = .waiting) := by
  have huse : Sure (Holds L) (use fd) := by
    cases fd with
    | none => exact useNone_holds
    | some x => exact use_holds (hfd x rfl)
  refine Triple.bind (Sure.onlyIf huse).triple (fun _ => ?_)
  cases (waitReady o d turns).result with
  | none => exact Triple.throw (fun _ _ => rfl)
  | some r => exact Triple.pure (fun _ h => h)

lemma erase_added {fd : Nat} (hfd : fd ∉ L) : (L ++ [fd]).erase fd = L := by
  rw [List.erase_append_right _ hfd, List.erase_cons_head, List.append_nil]

/-- The descriptor the address loop works on is closed again. -/
lemma drop_holds {fd : Nat} (hfd : fd ∉ L) :
    Triple (Holds (L ++ [fd])) (closeSocket fd) (fun _ => Holds L) (fun _ _ => False) := by
  have hmem : fd ∈ L ++ [fd] := by simp
  have hclose := closeSocket_holds hmem
  rwa [erase_added hfd] at hclose

/-- What trying addresses leaves open: the descriptor it gives, or what was open before; a call
that still waits is not counted. -/
def Left (L : List Nat) (fd : Option Nat) (n : Net) : Prop := n.Holds (L ++ fd.toList)

def Gone (L : List Nat) (e : NetStop) (n : Net) : Prop := e ≠ .waiting → n.Holds L

lemma accepted_holds {fd : Nat} (peer : Bytes) :
    Triple (Holds (L ++ [fd])) (accepted fd peer)
      (fun s m => s.1 = fd ∧ m.Holds (L ++ [fd])) (fun _ _ => False) :=
  Triple.bind (onHost_sure (Host.traceAdd_sure _ _ _)) (fun _ => Triple.pure (fun _ h => ⟨rfl, h⟩))

lemma tryConnect_holds (o : NetOpts) (d : Deadline) (host : Bytes) (port : Nat) (c : Candidate)
    {fd : Nat} (hfd : fd ∉ L) :
    Triple (Holds (L ++ [fd])) (tryConnect o d host port c fd)
      (fun s => Left L (s.map Prod.fst)) (Gone L) := by
  have hmem : fd ∈ L ++ [fd] := by simp
  have hgive : ∀ peer, Triple (Holds (L ++ [fd])) (do
      let s ← accepted fd peer
      pure (some s)) (fun s => Left L (s.map Prod.fst)) (Gone L) := by
    refine fun peer => Triple.bind (accepted_holds peer).surely (fun s => Triple.pure ?_)
    rintro m ⟨rfl, h⟩
    exact h
  have hnext : ∀ message, Triple (Holds (L ++ [fd])) (do
      onHost (Host.setError .connect .connect message)
      closeSocket fd
      pure (none : Option (Nat × Bytes))) (fun s => Left L (s.map Prod.fst)) (Gone L) := by
    refine fun message => Triple.bind (onHost_sure (setError_sure _ _ _)).triple (fun _ =>
      Triple.bind (drop_holds hfd).surely (fun _ => Triple.pure (fun m h => ?_)))
    change m.Holds (L ++ [])
    rwa [List.append_nil]
  refine Triple.bind (onHost_sure (Host.traceAdd_sure _ _ _)).triple (fun _ =>
    Triple.bind (use_holds hmem).triple (fun _ => ?_))
  cases c.connect with
  | done => exact hgive c.peer
  | failed errno => exact hnext _
  | pending =>
    refine Triple.bind ((wait_holds o d (by simp) c.turns).conseq (fun _ h => h)
      (fun _ _ h => h) (fun e m he hne => absurd he hne)) (fun r => ?_)
    cases r with
    | ok u =>
      exact Triple.bind (use_holds hmem).triple (fun _ => Triple.ite (fun _ => hgive c.peer)
        (fun _ => hnext _))
    | error f =>
      refine Triple.bind (drop_holds hfd).surely (fun _ => ?_)
      exact (onHost_ends (stopped_fails f .connect)).conseq (fun _ h => h) (fun _ _ h => h)
        (fun e m h _ => h)

lemma connectAll_holds (o : NetOpts) (d : Deadline) (host : Bytes) (port : Nat)
    (cs : List Candidate) :
    ∀ last, Triple (Holds L) (connectAll o d host port last cs)
      (fun s m => m.Holds (L ++ [s.1])) (Gone L) := by
  induction cs with
  | nil => exact fun last => Triple.throw (fun m h _ => h)
  | cons c cs ih =>
    intro last
    refine Triple.ite (fun _ => ih last) (fun _ => Triple.bind openSocket_holds.surely
      (fun fd => Triple.assuming (fun hfd => Triple.ite (fun _ => ?_) (fun _ => ?_))))
    · exact Triple.bind (drop_holds hfd).surely (fun _ => ih last)
    · refine Triple.bind (tryConnect_holds o d host port c hfd) (fun s => ?_)
      cases s with
      | some s => exact Triple.pure (fun _ h => h)
      | none =>
        refine (ih .connect).conseq (fun m h => ?_) (fun _ _ h => h) (fun _ _ h => h)
        unfold Left at h
        rwa [Option.map_none, Option.toList_none, List.append_nil] at h

/-- A call that opens a connection opens one descriptor, or none if it fails. -/
lemma connect_holds (o : NetOpts) (d : Deadline) (host : Bytes) (port : Nat) (l : Lookup) :
    Triple (Holds L) (connect o d host port l)
      (fun s m => m.Holds (L ++ s.fd.toList)) (Gone L) := by
  have hgone : ∀ (e : NetStop) (m : Net), m.Holds L → Gone L e m := fun _ _ h _ => h
  cases l with
  | noStack =>
    exact (onHost_ends (Host.refuse_fails _ _ _)).conseq (fun _ h => h) (fun _ _ h => h) hgone
  | unresolved =>
    refine (onHost_ends (Triple.bind (Host.traceAdd_sure _ _ _).triple
      (fun _ => Host.refuse_fails _ _ _))).conseq (fun _ h => h) (fun _ _ h => h) hgone
  | addresses cs =>
    refine Triple.bind (M := fun _ => Holds L) ?_ (fun _ =>
      Triple.bind (connectAll_holds o d host port cs .connect)
        (fun s => Triple.pure (fun _ h => h)))
    exact (onHost_holds (A := True) ((Gives.any _))).conseq (fun _ h => h) (fun _ _ h => h.2) hgone

/-! ### Operations -/

/-- What a stream does leaves the descriptors alone. -/
abbrev Leaves (L : List Nat) (m : NetProg α) : Prop :=
  Triple (Holds L) m (fun _ => Holds L) (Gone L)

lemma io_holds (phase : Phase) (what : String) (d : Deadline) {s : Socket}
    (hs : ∀ x ∈ s.fd, x ∈ L) (answers : List (IoAnswer α)) :
    Leaves L (io phase what d s answers) := by
  have huse : Sure (Holds L) (use s.fd) := by
    cases hfd : s.fd with
    | none => exact useNone_holds
    | some x => exact use_holds (hs x hfd)
  have hfails : ∀ {p : HostProg α}, Triple (fun _ => True) p (fun _ _ => False)
      (fun _ _ => True) → Leaves L (onHost p) := fun hp =>
    (onHost_ends hp).conseq (fun _ h => h) (fun _ _ h => h) (fun _ _ h _ => h)
  induction answers with
  | nil => exact Triple.throw (fun m h hne => absurd rfl hne)
  | cons a as ih =>
    refine Triple.bind huse.triple (fun _ => ?_)
    cases a with
    | done a => exact Triple.pure (fun _ h => h)
    | interrupted => exact ih
    | failed errno => exact hfails (Host.refuse_fails _ _ _)
    | wouldBlock turns =>
      refine Triple.bind ((wait_holds s.opts d hs turns).conseq (fun _ h => h)
        (fun _ _ h => h) (fun e m he hne => absurd he hne)) (fun r => ?_)
      cases r with
      | ok u => exact ih
      | error f => exact hfails (stopped_fails f phase)

lemma probe_holds {fd : Nat} (hfd : fd ∈ L) (answers : List PollAnswer) :
    Leaves L (probe fd answers) := by
  induction answers with
  | nil => exact Triple.throw (fun m h hne => absurd rfl hne)
  | cons a as ih =>
    refine Triple.bind (use_holds hfd).triple (fun _ => ?_)
    cases a with
    | ready => exact Triple.pure (fun _ h => h)
    | elapsed => exact Triple.pure (fun _ h => h)
    | failed errno => exact Triple.pure (fun _ h => h)
    | interrupted => exact ih

lemma readable_holds {s : Socket} (hs : ∀ x ∈ s.fd, x ∈ L) (answers : List PollAnswer) :
    Leaves L (readable s answers) := by
  unfold readable
  cases hfd : s.fd with
  | none => exact Triple.pure (fun _ h => h)
  | some fd => exact probe_holds (hs fd hfd) answers

/-- The open descriptors when the stream has given its own back. -/
def without (L : List Nat) (s : Socket) : List Nat := s.fd.elim L L.erase

lemma close_holds {s : Socket} (hs : ∀ x ∈ s.fd, x ∈ L) :
    Triple (Holds L) (close s) (fun s' m => s'.fd = none ∧ m.Holds (without L s))
      (fun _ _ => False) := by
  unfold close without
  cases hfd : s.fd with
  | none => exact Triple.pure (fun _ h => ⟨hfd, h⟩)
  | some fd =>
    exact Triple.bind (closeSocket_holds (hs fd hfd)) (fun _ => Triple.pure (fun _ h => ⟨rfl, h⟩))

/-- After an operation the stream has its descriptor still, or has closed it. -/
lemma run_holds {s : Socket} (hs : ∀ x ∈ s.fd, x ∈ L) (op : SocketOp) :
    Triple (Holds L) (op.run s) (fun s' m => (s'.fd = s.fd ∧ m.Holds L) ∨
      (s'.fd = none ∧ m.Holds (without L s))) (Gone L) := by
  have hret : ∀ {β : Type} {m : NetProg β}, Leaves L m → Triple (Holds L) (do
      returned (← (Prog.attempt m : NetProg (Except NetStop β)))
      pure s) (fun s' m => (s'.fd = s.fd ∧ m.Holds L) ∨ (s'.fd = none ∧ m.Holds (without L s)))
      (Gone L) := by
    intro β m hm
    refine Triple.bind hm.attempt (fun r => Triple.bind (M := fun _ => Holds L) ?_
      (fun _ => Triple.pure (fun _ h => .inl ⟨rfl, h⟩)))
    unfold returned
    cases r with
    | ok a => exact Triple.pure (fun _ h => h)
    | error e =>
      cases e with
      | waiting => exact Triple.throw (fun _ _ hne => absurd rfl hne)
      | rc code => exact Triple.pure (fun _ h => h nofun)
  cases op with
  | read d answers => exact hret (io_holds .read "read" d hs answers)
  | write d answers => exact hret (io_holds .write "write" d hs answers)
  | readable answers => exact hret (readable_holds hs answers)
  | close =>
    exact (close_holds hs).surely.conseq (fun _ h => h) (fun _ _ h => .inr h) (fun _ _ h => h)

/-! ### Runs of a process -/

namespace Process

variable {p p' : Process}

/-- The open descriptors are those the streams hold. -/
structure Sound (p : Process) : Prop where
  net : p.net.Holds p.net.live
  held : p.net.live.Perm (p.held.filterMap Socket.fd)

lemma Sound.of_holds {n : Net} {held : List Socket} (h : n.Holds L)
    (hheld : L.Perm (held.filterMap Socket.fd)) : Sound ⟨n, held⟩ :=
  ⟨⟨h.sound, rfl, h.stray⟩, h.live ▸ hheld⟩

/-- The stream a call is about, among the others. -/
lemma split_at {held : List Socket} {i : Nat} {s : Socket} (hs : held[i]? = some s) :
    ∃ before after, held = before ++ s :: after ∧
      (∀ s', held.set i s' = before ++ s' :: after) ∧ held.eraseIdx i = before ++ after := by
  obtain ⟨hi, rfl⟩ := List.getElem?_eq_some_iff.mp hs
  refine ⟨held.take i, held.drop (i + 1), ?_, fun s' => ?_, ?_⟩
  · rw [List.getElem_cons_drop, List.take_append_drop]
  · exact List.set_eq_take_append_cons_drop.trans (if_pos hi)
  · exact List.eraseIdx_eq_take_drop_succ ..

/-- Without the descriptor of a stream, those of the others are left. -/
lemma without_perm {s : Socket} {before after : List Socket}
    (h : L.Perm ((before ++ s :: after).filterMap Socket.fd)) :
    (without L s).Perm ((before ++ after).filterMap Socket.fd) := by
  unfold without
  rw [List.filterMap_append, List.filterMap_cons] at h
  rw [List.filterMap_append]
  cases hfd : s.fd with
  | none =>
    rw [hfd] at h
    exact h
  | some fd =>
    rw [hfd] at h
    have hmid := h.trans List.perm_middle
    have herase := hmid.erase fd
    rwa [List.erase_cons_head] at herase

lemma held_mem {s : Socket} {before after : List Socket}
    (h : L.Perm ((before ++ s :: after).filterMap Socket.fd)) : ∀ x ∈ s.fd, x ∈ L :=
  fun x hx => h.symm.subset (List.mem_filterMap.mpr ⟨s, by simp, hx⟩)

/-- What a call that returned leaves. -/
lemma after_cases {m : NetProg α} {held : α → List Socket}
    (h : p.after (exec m p.net) held = some p') :
    (∃ a n, exec m p.net = (.ok a, n) ∧ p' = ⟨n, held a⟩) ∨
      ∃ rc n, exec m p.net = (.error (.rc rc), n) ∧ p' = ⟨n, p.held⟩ := by
  cases hrun : exec m p.net with
  | mk r n =>
    rw [hrun] at h
    cases r with
    | ok a =>
      cases h
      exact .inl ⟨a, n, rfl, rfl⟩
    | error e =>
      cases e with
      | waiting => cases h
      | rc code =>
        cases h
        exact .inr ⟨code, n, rfl, rfl⟩

lemma step_sound {call : SocketCall} (hp : p.Sound) (h : p.step call = some p') : p'.Sound := by
  cases call with
  | connect o d host port l =>
    have hconnect := connect_holds (L := p.net.live) o d host port l
    obtain ⟨s, n, hrun, rfl⟩ | ⟨rc, n, hrun, rfl⟩ := after_cases h
    · refine Sound.of_holds (hconnect.ok hp.net hrun) ?_
      rw [List.filterMap_append]
      refine (hp.held.append_right _).trans (List.Perm.of_eq ?_)
      rw [List.filterMap_cons]
      cases s.fd <;> rfl
    · exact Sound.of_holds (hconnect.error hp.net hrun nofun) hp.held
  | op i op =>
    cases hs : p.held[i]? with
    | none =>
      rw [step, hs] at h
      cases h
      exact hp
    | some s =>
      rw [step, hs] at h
      obtain ⟨before, after, hheld, hset, -⟩ := split_at hs
      have hperm := hheld ▸ hp.held
      have hop := run_holds (held_mem hperm) op
      obtain ⟨s', n, hrun, rfl⟩ | ⟨rc, n, hrun, rfl⟩ := after_cases h
      · rw [hset]
        obtain ⟨hfd, hn⟩ | ⟨hfd, hn⟩ := hop.ok hp.net hrun
        · refine Sound.of_holds hn ?_
          rwa [List.filterMap_append, List.filterMap_cons, hfd, ← List.filterMap_cons,
            ← List.filterMap_append]
        · refine Sound.of_holds hn ((without_perm hperm).trans (List.Perm.of_eq ?_))
          rw [List.filterMap_append, List.filterMap_append, List.filterMap_cons, hfd]
      · exact Sound.of_holds (hop.error hp.net hrun nofun) hp.held
  | destroy i =>
    cases hs : p.held[i]? with
    | none =>
      rw [step, hs] at h
      cases h
      exact hp
    | some s =>
      rw [step, hs] at h
      obtain ⟨before, after, hheld, -, herase⟩ := split_at hs
      have hperm := hheld ▸ hp.held
      have hdestroy : Triple (Holds p.net.live) (destroy s)
          (fun _ => Holds (without p.net.live s)) (fun _ _ => False) :=
        Triple.bind (close_holds (held_mem hperm)) (fun _ => Triple.pure (fun _ hn => hn.2))
      obtain ⟨u, n, hrun, rfl⟩ | ⟨rc, n, hrun, rfl⟩ := after_cases h
      · rw [herase]
        exact Sound.of_holds (hdestroy.ok hp.net hrun) (without_perm hperm)
      · exact (hdestroy.error hp.net hrun).elim

lemma run_sound {calls : List SocketCall} (hp : p.Sound) (h : p.run calls = some p') :
    p'.Sound := by
  induction calls generalizing p with
  | nil =>
    cases h
    exact hp
  | cons call calls ih =>
    unfold run at h
    rw [List.foldlM_cons] at h
    obtain ⟨q, hq, hrest⟩ := Option.bind_eq_some_iff.mp h
    exact ih (step_sound hp hq) hrest

lemma start_sound : Sound {} := ⟨⟨List.Perm.refl _, rfl, rfl⟩, List.Perm.refl _⟩

end Process

/-- In every run of a process that opens, uses, closes and destroys connections, whatever the
system answers, each descriptor it was given is open or was closed once, the open ones are those
the streams hold, and no call of the system is made on a descriptor that is not open. -/
theorem descriptors_conserved (calls : List SocketCall) (p : Process)
    (h : Process.run {} calls = some p) :
    p.net.stray = 0 ∧ (p.net.closed ++ p.net.live).Perm (List.range p.net.sockets) ∧
      p.net.live.Perm (p.held.filterMap Socket.fd) :=
  have hp := Process.run_sound Process.start_sound h
  ⟨hp.net.stray, hp.net.sound, hp.held⟩

/-- A connection over the second address, read from and closed, and one that is refused. -/
def usedAndRefused : List SocketCall :=
  [.connect ⟨false, 100⟩ (some 3000) (ascii "host") 80 secondTakes,
    .op 0 (.read none [.interrupted, .done (ascii "x")]),
    .connect ⟨true, 100⟩ none (ascii "host") 80
      (.addresses [⟨true, true, .pending, [⟨true, 0, 0, .ready⟩], none, []⟩]),
    .op 0 .close]

theorem descriptors_conserved_used :
    ∃ p, Process.run {} usedAndRefused = some p ∧ p.net.stray = 0 ∧ p.net.closed = [0, 2, 1] ∧
      p.net.live.Perm (p.held.filterMap Socket.fd) := by
  have hclosed : (Process.run {} usedAndRefused).map (fun p => p.net.closed) = some [0, 2, 1] := by
    decide +kernel
  obtain ⟨p, hp, hlist⟩ := Option.map_eq_some_iff.mp hclosed
  obtain ⟨hstray, -, hheld⟩ := descriptors_conserved usedAndRefused p hp
  exact ⟨p, hp, hstray, hlist, hheld⟩

end Net

end Zuhttp
