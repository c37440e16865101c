import Mathlib.Data.List.Perm.Basic
import Zuhttp.Pool

/-!
# Pool safety over whole runs

The invariant `Sound` carries the streams in flight: those that a release has taken over
and not yet stored or destroyed. Every step lemma holds for any such list, which is what
lets a release nested in a probe go through.
-/

namespace Zuhttp

/-- The first match, what stands before and after it, and the list without it. -/
lemma find?_split {α : Type*} {p : α → Bool} {l : List α} {a : α} (h : l.find? p = some a) :
    ∃ pre post, l = pre ++ a :: post ∧ p a = true ∧ (∀ x ∈ pre, p x = false) ∧
      l.eraseP p = pre ++ post := by
  obtain ⟨ha, pre, post, rfl, hpre⟩ := List.find?_eq_some_iff_append.mp h
  refine ⟨pre, post, rfl, ha, by simpa using hpre, ?_⟩
  rw [List.eraseP_append_right _ (by simpa using hpre), List.eraseP_cons_of_pos ha]

namespace PoolWorld

variable {σ : Type}

def idleStreams (w : PoolWorld σ) : List σ := w.pool.entries.map PoolEntry.stream

def releasedStreams (w : PoolWorld σ) : List σ := w.released.map (fun r => r.2.1)

/-- The pool invariant, with the streams a running call has taken over. -/
structure Sound (pid : Nat) (inFlight : List σ) (w : PoolWorld σ) : Prop where
  owner : w.pool.ownerPid = pid
  idle : w.pool.idle = w.pool.entries.length
  closed : w.closed = w.freed
  balance : w.releasedStreams.Perm (inFlight ++ (w.handed ++ (w.freed ++ w.idleStreams)))
  newest : w.pool.entries.Sublist w.stored
  accepted : ∀ e ∈ w.stored, (e.key, e.stream, Reuse.ok) ∈ w.released

/-- What a release leaves alone, and what it only adds to. -/
structure Extends (w w' : PoolWorld σ) : Prop where
  cfg : w'.pool.cfg = w.pool.cfg
  alive : w'.alive = w.alive
  handed : w'.handed = w.handed
  released : w.released <:+ w'.released
  stored : w.stored <:+ w'.stored

lemma Extends.refl (w : PoolWorld σ) : Extends w w :=
  ⟨rfl, rfl, rfl, List.suffix_refl _, List.suffix_refl _⟩

lemma Extends.trans {w w' w'' : PoolWorld σ} (h : Extends w w') (h' : Extends w' w'') :
    Extends w w'' :=
  ⟨h'.cfg.trans h.cfg, h'.alive.trans h.alive, h'.handed.trans h.handed,
    h.released.trans h'.released, h.stored.trans h'.stored⟩

lemma sound_new (cfg : PoolConfig) (pid : Nat) : Sound pid [] (new cfg pid : PoolWorld σ) :=
  { owner := rfl
    idle := rfl
    closed := rfl
    balance := by simp [new, releasedStreams, idleStreams]
    newest := by simp [new]
    accepted := by simp [new] }

variable {pid : Nat} {inFlight : List σ} {w : PoolWorld σ}

lemma sound_stat (f : PoolStats → PoolStats) (h : Sound pid inFlight w) :
    Sound pid inFlight (w.stat f) :=
  ⟨h.owner, h.idle, h.closed, h.balance, h.newest, h.accepted⟩

lemma extends_stat (f : PoolStats → PoolStats) : Extends w (w.stat f) :=
  ⟨rfl, rfl, rfl, List.suffix_refl _, List.suffix_refl _⟩

lemma checkFork_eq (h : Sound pid inFlight w) : w.checkFork pid = w := by
  unfold checkFork
  rw [if_pos h.owner]

lemma sound_receive (key : PoolKey) (s : σ) (r : Reuse) (h : Sound pid inFlight w) :
    Sound pid (s :: inFlight) { w with released := (key, s, r) :: w.released } where
  owner := h.owner
  idle := h.idle
  closed := h.closed
  balance := by
    simpa [releasedStreams, idleStreams] using h.balance.cons s
  newest := h.newest
  accepted := fun e he => List.mem_cons_of_mem _ (h.accepted e he)

lemma sound_destroy (s : σ) (h : Sound pid (s :: inFlight) w) :
    Sound pid inFlight (w.destroy true s) where
  owner := h.owner
  idle := h.idle
  closed := by
    simp only [destroy, if_true]
    rw [h.closed]
  balance := by
    refine h.balance.trans ?_
    have hmove := @List.perm_middle _ s (inFlight ++ w.handed) (w.freed ++ w.idleStreams)
    rw [List.append_assoc, List.append_assoc] at hmove
    exact hmove.symm
  newest := h.newest
  accepted := h.accepted

lemma extends_destroy (s : σ) : Extends w (w.destroy true s) :=
  ⟨rfl, rfl, rfl, List.suffix_refl _, List.suffix_refl _⟩

/-- An entry that leaves the list is in flight until it is destroyed or handed out. -/
lemma sound_unlink {pre post : List (PoolEntry σ)} {e : PoolEntry σ}
    (h : Sound pid inFlight w) (hentries : w.pool.entries = pre ++ e :: post) :
    Sound pid (e.stream :: inFlight) { w with pool := { w.pool with
      entries := pre ++ post, idle := w.pool.idle - 1 } } where
  owner := h.owner
  idle := by
    have hidle := h.idle
    rw [hentries, List.length_append, List.length_cons] at hidle
    simp only [List.length_append]
    omega
  closed := h.closed
  balance := by
    have hidle : w.idleStreams.Perm
        (e.stream :: (pre.map PoolEntry.stream ++ post.map PoolEntry.stream)) := by
      rw [idleStreams, hentries, List.map_append, List.map_cons]
      exact List.perm_middle
    refine h.balance.trans (((hidle.append_left _).append_left _).append_left _ |>.trans ?_)
    have hmove := @List.perm_middle _ e.stream (inFlight ++ (w.handed ++ w.freed))
      (pre.map PoolEntry.stream ++ post.map PoolEntry.stream)
    simp only [List.append_assoc] at hmove
    simpa only [idleStreams, List.map_append, List.cons_append] using hmove
  newest := by
    have hsub : (pre ++ post).Sublist w.pool.entries := by
      rw [hentries]
      exact (List.Sublist.refl pre).append (List.sublist_cons_self e post)
    exact hsub.trans h.newest
  accepted := h.accepted

lemma evictOldest_cases (hostOf : Option PoolKey) (w : PoolWorld σ) :
    w.evictOldest hostOf = w ∧
        (∀ e ∈ w.pool.entries, hostOf.all (fun k => e.key.sameHost k) = false) ∨
      ∃ pre e post, w.pool.entries = pre ++ e :: post ∧
        (hostOf.all (fun k => e.key.sameHost k) = true ∧
          ∀ x ∈ post, hostOf.all (fun k => x.key.sameHost k) = false) ∧
        w.evictOldest hostOf =
          (({ w with pool := { w.pool with
              entries := pre ++ post, idle := w.pool.idle - 1 } } : PoolWorld σ).destroy true
            e.stream).stat (fun t => { t with discardedCapacity := t.discardedCapacity + 1 }) := by
  unfold evictOldest
  simp only
  generalize hp : (fun e : PoolEntry σ => hostOf.all (fun k => e.key.sameHost k)) = p
  cases hfind : w.pool.entries.reverse.find? p with
  | none =>
    left
    refine ⟨rfl, fun e he => ?_⟩
    have := List.find?_eq_none.mp hfind e (List.mem_reverse.mpr he)
    rw [← hp] at this
    simpa using this
  | some e =>
    right
    obtain ⟨as, bs, hsplit, he, has, herase⟩ := find?_split hfind
    refine ⟨bs.reverse, e, as.reverse, ?_, ?_, ?_⟩
    · rw [← List.reverse_reverse w.pool.entries, hsplit]
      simp
    · subst hp
      exact ⟨he, fun x hx => has x (List.mem_reverse.mp hx)⟩
    · rw [herase, List.reverse_append]
      rfl

lemma sound_evictOldest (hostOf : Option PoolKey) (h : Sound pid inFlight w) :
    Sound pid inFlight (w.evictOldest hostOf) := by
  obtain ⟨heq, -⟩ | ⟨pre, e, post, hentries, -, heq⟩ := evictOldest_cases hostOf w
  · rw [heq]
    exact h
  · rw [heq]
    exact sound_stat _ (sound_destroy _ (sound_unlink h hentries))

lemma extends_evictOldest (hostOf : Option PoolKey) (w : PoolWorld σ) :
    Extends w (w.evictOldest hostOf) := by
  obtain ⟨heq, -⟩ | ⟨pre, e, post, hentries, -, heq⟩ := evictOldest_cases hostOf w
  · rw [heq]
    exact Extends.refl w
  · rw [heq]
    exact ⟨rfl, rfl, rfl, List.suffix_refl _, List.suffix_refl _⟩

lemma sound_evictToLimit (n : Nat) (h : Sound pid inFlight w) :
    Sound pid inFlight (w.evictToLimit n) := by
  induction n generalizing w with
  | zero => exact h
  | succ n ih =>
    unfold evictToLimit
    split_ifs
    · exact ih (sound_evictOldest none h)
    · exact h

lemma extends_evictToLimit (n : Nat) (w : PoolWorld σ) : Extends w (w.evictToLimit n) := by
  induction n generalizing w with
  | zero => exact Extends.refl w
  | succ n ih =>
    unfold evictToLimit
    split_ifs
    · exact (extends_evictOldest none w).trans (ih _)
    · exact Extends.refl w

/-- An eviction without a host always finds a victim, so it lowers the idle count. -/
lemma idle_evictOldest (h : Sound pid inFlight w) (hidle : 0 < w.pool.idle) :
    (w.evictOldest none).pool.idle = w.pool.idle - 1 := by
  obtain ⟨-, hall⟩ | ⟨pre, e, post, hentries, -, heq⟩ := evictOldest_cases none w
  · rw [h.idle, List.length_pos_iff_exists_mem] at hidle
    obtain ⟨e, he⟩ := hidle
    simpa using hall e he
  · rw [heq]
    rfl

/-- The eviction loop ends below the limit: its cut-off is never what stops it. -/
theorem evictToLimit_lt (n : Nat) (h : Sound pid inFlight w) (hmax : 0 < w.pool.cfg.maxIdle)
    (hn : w.pool.idle ≤ n) : (w.evictToLimit n).pool.idle < w.pool.cfg.maxIdle := by
  induction n generalizing w with
  | zero =>
    have hzero : w.pool.idle = 0 := by omega
    unfold evictToLimit
    omega
  | succ n ih =>
    unfold evictToLimit
    split_ifs with hfull
    · have hidle := idle_evictOldest h (by omega)
      have hcfg := (extends_evictOldest none w).cfg
      rw [← hcfg]
      refine ih (sound_evictOldest none h) ?_ ?_
      · rw [hcfg]
        exact hmax
      · omega
    · omega

/-- The entry made room for and put in front. -/
lemma sound_push (e : PoolEntry σ) (h : Sound pid (e.stream :: inFlight) w)
    (hok : (e.key, e.stream, Reuse.ok) ∈ w.released) :
    Sound pid inFlight { w with pool := { w.pool with
      entries := e :: w.pool.entries, idle := w.pool.idle + 1 }, stored := e :: w.stored } where
  owner := h.owner
  idle := by
    have hidle := h.idle
    simp only [List.length_cons]
    omega
  closed := h.closed
  balance := by
    refine h.balance.trans ?_
    have hmove := @List.perm_middle _ e.stream (inFlight ++ (w.handed ++ w.freed)) w.idleStreams
    simp only [List.append_assoc] at hmove
    exact hmove.symm
  newest := h.newest.cons_cons e
  accepted := by
    rw [List.forall_mem_cons]
    exact ⟨hok, h.accepted⟩

lemma store_eq (e : PoolEntry σ) (w : PoolWorld σ) :
    ∃ w₁, (w₁ = w ∨ w₁ = w.evictOldest (some e.key)) ∧
      w.store e = ({ w₁.evictToLimit w₁.pool.idle with
        pool := { (w₁.evictToLimit w₁.pool.idle).pool with
          entries := e :: (w₁.evictToLimit w₁.pool.idle).pool.entries
          idle := (w₁.evictToLimit w₁.pool.idle).pool.idle + 1 }
        stored := e :: (w₁.evictToLimit w₁.pool.idle).stored } : PoolWorld σ).stat
          (fun t => { t with idle := (w₁.evictToLimit w₁.pool.idle).pool.idle + 1 }) := by
  by_cases hhost : w.pool.cfg.maxPerHost > 0 ∧ w.countForHost e.key ≥ w.pool.cfg.maxPerHost
  · refine ⟨w.evictOldest (some e.key), Or.inr rfl, ?_⟩
    unfold store
    simp only [if_pos hhost]
  · refine ⟨w, Or.inl rfl, ?_⟩
    unfold store
    simp only [if_neg hhost]

lemma sound_hand {s : σ} (h : Sound pid (s :: inFlight) w) (f : PoolStats → PoolStats) :
    Sound pid inFlight ({ w with handed := s :: w.handed }.stat f) where
  owner := h.owner
  idle := h.idle
  closed := h.closed
  balance := h.balance.trans List.perm_middle.symm
  newest := h.newest
  accepted := h.accepted

lemma sound_store (e : PoolEntry σ) (h : Sound pid (e.stream :: inFlight) w)
    (hok : (e.key, e.stream, Reuse.ok) ∈ w.released) : Sound pid inFlight (w.store e) := by
  obtain ⟨w₁, hw₁, heq⟩ := store_eq e w
  have hroom : Sound pid (e.stream :: inFlight) w₁ ∧ Extends w w₁ := by
    rcases hw₁ with rfl | rfl
    · exact ⟨h, Extends.refl _⟩
    · exact ⟨sound_evictOldest _ h, extends_evictOldest _ w⟩
  have hext := hroom.2.trans (extends_evictToLimit w₁.pool.idle w₁)
  rw [heq]
  exact sound_stat _ (sound_push e (sound_evictToLimit _ hroom.1) (hext.released.mem hok))

lemma extends_store (e : PoolEntry σ) (w : PoolWorld σ) : Extends w (w.store e) := by
  obtain ⟨w₁, hw₁, heq⟩ := store_eq e w
  have hroom : Extends w w₁ := by
    rcases hw₁ with rfl | rfl
    · exact Extends.refl _
    · exact extends_evictOldest _ w
  have hext := hroom.trans (extends_evictToLimit w₁.pool.idle w₁)
  rw [heq]
  exact ⟨hext.cfg, hext.alive, hext.handed, hext.released,
    hext.stored.trans (List.suffix_cons _ _)⟩

lemma destroyAll_pool (graceful : Bool) (es : List (PoolEntry σ)) (w : PoolWorld σ) :
    (w.destroyAll graceful es).pool = w.pool := by
  induction es generalizing w with
  | nil => rfl
  | cons e es ih => exact ih (w.destroy graceful e.stream)

lemma checkFork_cfg (pid : Nat) (w : PoolWorld σ) : (w.checkFork pid).pool.cfg = w.pool.cfg := by
  unfold checkFork
  split_ifs
  · rfl
  · simp only [stat, destroyAll_pool]

mutual

/-- A release keeps the configuration, in whatever state it is made. -/
theorem release_cfg (pid : Nat) :
    ∀ (c : ReleaseCall σ) (w : PoolWorld σ), (w.release pid c).pool.cfg = w.pool.cfg
  | .mk key s reuse readable duringProbe allocOk now, w => by
    have hfork := checkFork_cfg pid { w with released := (key, s, reuse) :: w.released }
    have hprobe := (releases_cfg pid duringProbe _).trans hfork
    unfold release
    dsimp only
    split_ifs
    · exact hfork
    · exact hprobe
    · exact hprobe
    · exact hprobe
    · exact (extends_store _ _).cfg.trans hprobe

theorem releases_cfg (pid : Nat) :
    ∀ (cs : List (ReleaseCall σ)) (w : PoolWorld σ), (w.releases pid cs).pool.cfg = w.pool.cfg
  | [], w => by
    rw [releases]
  | c :: cs, w => by
    rw [releases]
    exact (releases_cfg pid cs _).trans (release_cfg pid c w)

end

mutual

/-- A release, with the releases nested in its probe, keeps the invariant. -/
theorem sound_release :
    ∀ (c : ReleaseCall σ) (inFlight : List σ) (w : PoolWorld σ), Sound pid inFlight w →
      Sound pid inFlight (w.release pid c) ∧ Extends w (w.release pid c)
  | .mk key s reuse readable duringProbe allocOk now, inFlight, w, h => by
    have hrecv := sound_receive key s reuse h
    have hext : Extends w { w with released := (key, s, reuse) :: w.released } :=
      ⟨rfl, rfl, rfl, List.suffix_cons _ _, List.suffix_refl _⟩
    unfold release
    simp only [checkFork_eq hrecv]
    by_cases hreuse : reuse = .ok
    · obtain ⟨hprobe, hextp⟩ := sound_releases duringProbe _ _ hrecv
      have hall := hext.trans hextp
      subst hreuse
      rw [if_neg (by simp)]
      split_ifs
      · exact ⟨sound_destroy s (sound_stat _ hprobe),
          (hall.trans (extends_stat _)).trans (extends_destroy s)⟩
      · exact ⟨sound_destroy s (sound_stat _ hprobe),
          (hall.trans (extends_stat _)).trans (extends_destroy s)⟩
      · exact ⟨sound_destroy s hprobe, hall.trans (extends_destroy s)⟩
      · exact ⟨sound_store ⟨key, s, now⟩ hprobe (hextp.released.mem List.mem_cons_self),
          hall.trans (extends_store _ _)⟩
    · rw [if_pos hreuse]
      exact ⟨sound_destroy s (sound_stat _ hrecv),
        (hext.trans (extends_stat _)).trans (extends_destroy s)⟩

theorem sound_releases :
    ∀ (cs : List (ReleaseCall σ)) (inFlight : List σ) (w : PoolWorld σ), Sound pid inFlight w →
      Sound pid inFlight (w.releases pid cs) ∧ Extends w (w.releases pid cs)
  | [], _, w, h => by
    unfold releases
    exact ⟨h, Extends.refl w⟩
  | c :: cs, inFlight, w, h => by
    unfold releases
    obtain ⟨hfirst, hext⟩ := sound_release c inFlight w h
    obtain ⟨hrest, hext'⟩ := sound_releases cs inFlight _ hfirst
    exact ⟨hrest, hext.trans hext'⟩

end

lemma sound_destroyAll (es : List (PoolEntry σ))
    (h : Sound pid (es.map PoolEntry.stream ++ inFlight) w) :
    Sound pid inFlight (w.destroyAll true es) := by
  induction es generalizing w with
  | nil => exact h
  | cons e es ih =>
    unfold destroyAll
    exact ih (sound_destroy e.stream h)

lemma unlinkFirst_eq_some {key : PoolKey} {e : PoolEntry σ} {w' : PoolWorld σ}
    (h : w.unlinkFirst key = some (e, w')) :
    ∃ pre post, w.pool.entries = pre ++ e :: post ∧ e.key.eq key = true ∧
      (∀ x ∈ pre, x.key.eq key = false) ∧
      w' = { w with pool := { w.pool with
        entries := pre ++ post, idle := w.pool.idle - 1 } } := by
  unfold unlinkFirst at h
  split at h
  · cases h
  · next e' hfind =>
    obtain ⟨pre, post, hsplit, he, hpre, herase⟩ := find?_split hfind
    simp only [Option.some.injEq, Prod.mk.injEq] at h
    obtain ⟨rfl, rfl⟩ := h
    exact ⟨pre, post, hsplit, he, hpre, by rw [herase]⟩

lemma unlinkFirst_eq_none {key : PoolKey} (h : w.unlinkFirst key = none) :
    ∀ x ∈ w.pool.entries, x.key.eq key = false := by
  unfold unlinkFirst at h
  split at h
  · next hfind => simpa using List.find?_eq_none.mp hfind
  · cases h

lemma sound_clear (h : Sound pid inFlight w) : Sound pid inFlight w.clear := by
  have hempty : Sound pid (w.pool.entries.map PoolEntry.stream ++ inFlight)
      { w with pool := { w.pool with entries := [], idle := 0, stats.idle := 0 } } :=
    { owner := h.owner
      idle := rfl
      closed := h.closed
      balance := by
        have hmove : (inFlight ++ (w.handed ++ (w.freed ++ w.idleStreams))).Perm
            (w.idleStreams ++ (inFlight ++ (w.handed ++ w.freed))) := by
          have := @List.perm_append_comm _ (inFlight ++ (w.handed ++ w.freed)) w.idleStreams
          simpa only [List.append_assoc] using this
        refine h.balance.trans (hmove.trans ?_)
        simp [idleStreams]
      newest := List.nil_sublist _
      accepted := h.accepted }
  have hdrop : ∀ (es : List (PoolEntry σ)) (u : PoolWorld σ) (q : Pool σ),
      { u.destroyAll true es with pool := q } = ({ u with pool := q }).destroyAll true es := by
    intro es
    induction es with
    | nil => exact fun u q => rfl
    | cons e es ih => exact fun u q => ih (u.destroy true e.stream) q
  have hclear : w.clear = ({ w with pool := { w.pool with
      entries := [], idle := 0, stats.idle := 0 } } : PoolWorld σ).destroyAll true
        w.pool.entries := by
    rw [← hdrop]
    unfold clear
    simp only [destroyAll_pool]
  rw [hclear]
  exact sound_destroyAll w.pool.entries hempty

lemma sound_free (h : Sound pid inFlight w) : Sound pid inFlight (w.free pid) := by
  unfold free
  rw [if_neg (by simp [h.owner])]
  have hclear := sound_clear h
  exact ⟨hclear.owner, hclear.idle, hclear.closed, hclear.balance, hclear.newest,
    hclear.accepted⟩

/-! ### What an acquire does -/

/-- Why a connection is not handed out: it has reached the idle timeout, it probes as readable,
or its peer is silent and does not answer a PING. -/
inductive Unusable (cfg : PoolConfig) (now : Int) (e : PoolEntry σ) (c : Check σ) : Prop
  | expired (hlimit : 0 < cfg.idleTimeoutMs) (hidle : cfg.idleTimeoutMs ≤ now - e.idleSince)
  | readable (hreadable : c.readable = 1)
  | dead (hkeepalive : 0 < cfg.keepaliveTimeMs) (hh2 : c.isH2 = true)
      (hsilent : cfg.keepaliveTimeMs ≤ c.idleMs) (hping : c.pingOk = false)

/-- The releases that run while a connection is examined: none where it is not probed, and those
of a PING only where one is sent. -/
def nested (cfg : PoolConfig) (now : Int) (e : PoolEntry σ) (c : Check σ) :
    List (ReleaseCall σ) :=
  if 0 < cfg.idleTimeoutMs ∧ cfg.idleTimeoutMs ≤ now - e.idleSince then []
  else if c.readable = 1 then c.duringProbe
  else if 0 < cfg.keepaliveTimeMs ∧ c.isH2 = true ∧ cfg.keepaliveTimeMs ≤ c.idleMs then
    c.duringProbe ++ c.duringPing
  else c.duringProbe

/-- The counter of an unusable connection. -/
def blame (cfg : PoolConfig) (now : Int) (e : PoolEntry σ) (t : PoolStats) : PoolStats :=
  if 0 < cfg.idleTimeoutMs ∧ cfg.idleTimeoutMs ≤ now - e.idleSince then
    { t with discardedExpired := t.discardedExpired + 1 }
  else { t with discardedStale := t.discardedStale + 1 }

/-- The pool without an entry, after the releases that run while the entry is examined. -/
def examined (pid : Nat) (now : Int) (c : Check σ) (e : PoolEntry σ) (rest : List (PoolEntry σ))
    (w : PoolWorld σ) : PoolWorld σ :=
  releases pid (nested w.pool.cfg now e c)
    { w with pool := { w.pool with entries := rest, idle := w.pool.idle - 1 } }

/-- The examined entry is closed and freed. -/
def discard (pid : Nat) (now : Int) (c : Check σ) (e : PoolEntry σ) (rest : List (PoolEntry σ))
    (w : PoolWorld σ) : PoolWorld σ :=
  ((w.examined pid now c e rest).stat (blame w.pool.cfg now e)).destroy true e.stream

/-- The examined entry is handed out. -/
def handOut (pid : Nat) (now : Int) (c : Check σ) (e : PoolEntry σ) (rest : List (PoolEntry σ))
    (w : PoolWorld σ) : PoolWorld σ :=
  let w := w.examined pid now c e rest
  { w with handed := e.stream :: w.handed }.stat
    (fun t => { t with hits := t.hits + 1, idle := w.pool.idle })

/-- `e` is the entry under the key that was released last. -/
structure First (key : PoolKey) (w : PoolWorld σ) (e : PoolEntry σ)
    (pre post : List (PoolEntry σ)) : Prop where
  entries : w.pool.entries = pre ++ e :: post
  matches_key : e.key.eq key = true
  latest : ∀ x ∈ pre, x.key.eq key = false

/-- One entry after the other, each the one under the key that was released last, was unusable
and is discarded. -/
inductive Discards (pid : Nat) (key : PoolKey) (now : Int) :
    PoolWorld σ → List (Check σ) → PoolWorld σ → Prop
  | nil (w : PoolWorld σ) : Discards pid key now w [] w
  | cons {w v : PoolWorld σ} {c : Check σ} {cs : List (Check σ)} (e : PoolEntry σ)
      (pre post : List (PoolEntry σ)) (hfirst : First key w e pre post)
      (hunusable : Unusable w.pool.cfg now e c)
      (hrest : Discards pid key now (w.discard pid now c e (pre ++ post)) cs v) :
      Discards pid key now w (c :: cs) v

lemma releases_append (pid : Nat) (cs ds : List (ReleaseCall σ)) (w : PoolWorld σ) :
    releases pid (cs ++ ds) w = releases pid ds (releases pid cs w) := by
  induction cs generalizing w with
  | nil => rw [List.nil_append, releases]
  | cons c cs ih => rw [List.cons_append, releases, releases, ih]

/-- The examination finds exactly the unusable entries. -/
lemma entryUnusable_spec (pid : Nat) (now : Int) (c : Check σ) (e : PoolEntry σ)
    (w : PoolWorld σ) :
    (Unusable w.pool.cfg now e c ∧ w.entryUnusable pid e now c =
      (true, (releases pid (nested w.pool.cfg now e c) w).stat (blame w.pool.cfg now e))) ∨
    ¬Unusable w.pool.cfg now e c ∧ w.entryUnusable pid e now c =
      (false, releases pid (nested w.pool.cfg now e c) w) := by
  have hexpired : w.expired e now = true ↔
      0 < w.pool.cfg.idleTimeoutMs ∧ w.pool.cfg.idleTimeoutMs ≤ now - e.idleSince := by
    unfold expired
    rw [decide_eq_true_eq]
  unfold entryUnusable nested
  dsimp only
  by_cases hold : w.expired e now = true
  · have hboth := hexpired.mp hold
    have hblame : blame w.pool.cfg now e =
        fun t => { t with discardedExpired := t.discardedExpired + 1 } :=
      funext fun _ => if_pos hboth
    rw [if_pos hold, if_pos hboth, releases, hblame]
    exact .inl ⟨.expired hboth.1 hboth.2, rfl⟩
  have hfresh : ¬(0 < w.pool.cfg.idleTimeoutMs ∧
      w.pool.cfg.idleTimeoutMs ≤ now - e.idleSince) := fun hboth => hold (hexpired.mpr hboth)
  have hblame : blame w.pool.cfg now e =
      fun t => { t with discardedStale := t.discardedStale + 1 } :=
    funext fun _ => if_neg hfresh
  rw [if_neg hold, if_neg hfresh, hblame]
  by_cases hreadable : c.readable = 1
  · rw [if_pos hreadable, if_pos hreadable]
    exact .inl ⟨.readable hreadable, rfl⟩
  rw [if_neg hreadable, if_neg hreadable, releases_cfg]
  by_cases hdue : 0 < w.pool.cfg.keepaliveTimeMs ∧ c.isH2 = true ∧
      w.pool.cfg.keepaliveTimeMs ≤ c.idleMs
  · rw [if_pos hdue, if_pos hdue, releases_append]
    cases hping : c.pingOk with
    | false => exact .inl ⟨.dead hdue.1 hdue.2.1 hdue.2.2 hping, rfl⟩
    | true =>
      refine .inr ⟨?_, rfl⟩
      rintro (⟨hlimit, hidle⟩ | hread | ⟨-, -, -, hdead⟩)
      · exact hfresh ⟨hlimit, hidle⟩
      · exact hreadable hread
      · rw [hping] at hdead
        cases hdead
  · rw [if_neg hdue, if_neg hdue]
    refine .inr ⟨?_, rfl⟩
    rintro (⟨hlimit, hidle⟩ | hread | ⟨hkeepalive, hh2, hsilent, -⟩)
    · exact hfresh ⟨hlimit, hidle⟩
    · exact hreadable hread
    · exact hdue ⟨hkeepalive, hh2, hsilent⟩

/-- One pass of the loop over the first entry under the key. -/
lemma acquireTurn_cases (pid : Nat) (w : PoolWorld σ) (key : PoolKey) (now : Int) (c : Check σ) :
    ((∀ x ∈ w.pool.entries, x.key.eq key = false) ∧ w.acquireTurn pid key now c = .miss) ∨
    ∃ e pre post, First key w e pre post ∧
      (Unusable w.pool.cfg now e c ∧
          w.acquireTurn pid key now c = .again (w.discard pid now c e (pre ++ post)) ∨
        ¬Unusable w.pool.cfg now e c ∧
          w.acquireTurn pid key now c = .hit e.stream (w.handOut pid now c e (pre ++ post))) := by
  unfold acquireTurn
  cases hunlink : w.unlinkFirst key with
  | none => exact .inl ⟨unlinkFirst_eq_none hunlink, rfl⟩
  | some r =>
    obtain ⟨e, u⟩ := r
    obtain ⟨pre, post, hentries, hkey, hpre, rfl⟩ := unlinkFirst_eq_some hunlink
    refine .inr ⟨e, pre, post, ⟨hentries, hkey, hpre⟩, ?_⟩
    obtain ⟨hunusable, heq⟩ | ⟨husable, heq⟩ := entryUnusable_spec pid now c e
      { w with pool := { w.pool with entries := pre ++ post, idle := w.pool.idle - 1 } }
    · dsimp only
      rw [heq]
      exact .inl ⟨hunusable, rfl⟩
    · dsimp only
      rw [heq]
      exact .inr ⟨husable, rfl⟩

/-- How the loop ends, at a state from which it makes no further discard. -/
def LoopEnds (pid : Nat) (key : PoolKey) (now : Int) (checks : List (Check σ))
    (w w' : PoolWorld σ) : Option σ → Prop
  | some s => ∃ c tail e pre post, checks = c :: tail ∧ First key w e pre post ∧
      ¬Unusable w.pool.cfg now e c ∧ e.stream = s ∧ w' = w.handOut pid now c e (pre ++ post)
  | none => (∀ x ∈ w.pool.entries, x.key.eq key = false) ∧
      w' = w.stat (fun t => { t with misses := t.misses + 1, idle := w.pool.idle })

/-- An acquire that finishes has discarded entries until one was usable or none was left. -/
lemma acquireLoop_run {key : PoolKey} {now : Int} {checks : List (Check σ)}
    {r : Option σ} {w' : PoolWorld σ}
    (h : acquireLoop pid key now checks w = some (r, w')) :
    ∃ done rest w₁, checks = done ++ rest ∧ Discards pid key now w done w₁ ∧
      LoopEnds pid key now rest w₁ w' r := by
  induction checks generalizing w with
  | nil =>
    unfold acquireLoop at h
    split at h
    · next hnone =>
      cases h
      exact ⟨[], [], w, rfl, .nil w, unlinkFirst_eq_none hnone, rfl⟩
    · cases h
  | cons c checks ih =>
    unfold acquireLoop at h
    split at h
    · next hnone =>
      cases h
      exact ⟨[], c :: checks, w, rfl, .nil w, unlinkFirst_eq_none hnone, rfl⟩
    · dsimp only at h
      obtain ⟨-, hturn⟩ | ⟨e, pre, post, hfirst, ⟨hunusable, hturn⟩ | ⟨husable, hturn⟩⟩ :=
        acquireTurn_cases pid w key now c
      · rw [hturn] at h
        cases h
      · rw [hturn] at h
        obtain ⟨done, rest, w₁, rfl, hdiscards, hends⟩ := ih h
        exact ⟨c :: done, rest, w₁, rfl, .cons e pre post hfirst hunusable hdiscards, hends⟩
      · rw [hturn] at h
        cases h
        exact ⟨[], c :: checks, w, rfl, .nil w, c, checks, e, pre, post, rfl, hfirst, husable,
          rfl, rfl⟩

lemma sound_examined {key : PoolKey} {now : Int} {c : Check σ} {e : PoolEntry σ}
    {pre post : List (PoolEntry σ)} (h : Sound pid inFlight w) (hfirst : First key w e pre post) :
    Sound pid (e.stream :: inFlight) (w.examined pid now c e (pre ++ post)) ∧
      Extends w (w.examined pid now c e (pre ++ post)) := by
  obtain ⟨hsound, hext⟩ := sound_releases (nested w.pool.cfg now e c) _ _
    (sound_unlink h hfirst.entries)
  exact ⟨hsound, hext.cfg, hext.alive, hext.handed, hext.released, hext.stored⟩

lemma sound_discards {key : PoolKey} {now : Int} {done : List (Check σ)} {w' : PoolWorld σ}
    (h : Sound pid inFlight w) (hrun : Discards pid key now w done w') :
    Sound pid inFlight w' ∧ Extends w w' := by
  induction hrun with
  | nil w => exact ⟨h, Extends.refl w⟩
  | cons e pre post hfirst _ _ ih =>
    obtain ⟨hexamined, hext⟩ := sound_examined h hfirst
    obtain ⟨hrest, hext'⟩ := ih (sound_destroy _ (sound_stat _ hexamined))
    exact ⟨hrest, ((hext.trans (extends_stat _)).trans (extends_destroy _)).trans hext'⟩

/-- The stream `s` is that of the entry under `key` released last, and it is usable. -/
structure Chosen (key : PoolKey) (now : Int) (c : Check σ) (w : PoolWorld σ) (s : σ)
    (e : PoolEntry σ) (pre post newer older : List (PoolEntry σ)) : Prop
    extends First key w e pre post where
  stream : e.stream = s
  released : (e.key, s, Reuse.ok) ∈ w.released
  usable : ¬Unusable w.pool.cfg now e c
  stored : w.stored = newer ++ e :: older
  newer : pre.Sublist newer
  older : post.Sublist older

lemma sublist_split {α : Type*} {pre post l : List α} {a : α}
    (h : (pre ++ a :: post).Sublist l) :
    ∃ newer older, l = newer ++ a :: older ∧ pre.Sublist newer ∧ post.Sublist older := by
  obtain ⟨r₁, r₂, rfl, hpre, hrest⟩ := List.append_sublist_iff.mp h
  obtain ⟨s₁, s₂, rfl, ha, hpost⟩ := List.cons_sublist_iff.mp hrest
  obtain ⟨t₁, t₂, rfl⟩ := List.append_of_mem ha
  refine ⟨r₁ ++ t₁, t₂ ++ s₂, by simp, ?_, ?_⟩
  · exact hpre.trans (List.sublist_append_left r₁ t₁)
  · exact hpost.trans (List.sublist_append_right t₂ s₂)

/-- What an acquire that returned a stream did: the entries under the key that were released
after it were unusable, one after the other, and it was usable itself. -/
def HandsOut (pid : Nat) (key : PoolKey) (now : Int) (checks : List (Check σ))
    (w : PoolWorld σ) (s : σ) (w' : PoolWorld σ) : Prop :=
  w'.handed = s :: w.handed ∧
    ∃ done c rest w₁, checks = done ++ c :: rest ∧ Discards pid key now w done w₁ ∧
      ∃ e pre post newer older, Chosen key now c w₁ s e pre post newer older ∧
        w' = w₁.handOut pid now c e (pre ++ post)

/-- What an acquire that returned no stream did: all the entries under the key were unusable. -/
def Misses (pid : Nat) (key : PoolKey) (now : Int) (checks : List (Check σ))
    (w w' : PoolWorld σ) : Prop :=
  w'.handed = w.handed ∧
    ∃ done rest w₁, checks = done ++ rest ∧ Discards pid key now w done w₁ ∧
      (∀ x ∈ w₁.pool.entries, x.key.eq key = false) ∧
      w' = w₁.stat (fun t => { t with misses := t.misses + 1, idle := w₁.pool.idle })

/-- What an acquire did. -/
def Acquires (pid : Nat) (key : PoolKey) (now : Int) (checks : List (Check σ))
    (w w' : PoolWorld σ) : Option σ → Prop
  | some s => HandsOut pid key now checks w s w'
  | none => Misses pid key now checks w w'

lemma acquireBy_sound {key : PoolKey} {now : Int} {checks : List (Check σ)} {r : Option σ}
    {w' : PoolWorld σ} (h : Sound pid inFlight w)
    (hacq : w.acquireBy pid key now checks = some (r, w')) :
    Sound pid inFlight w' ∧ Acquires pid key now checks w w' r := by
  unfold acquireBy at hacq
  rw [checkFork_eq h] at hacq
  obtain ⟨done, rest, w₁, hchecks, hdiscards, hends⟩ := acquireLoop_run hacq
  obtain ⟨hw₁, hext⟩ := sound_discards h hdiscards
  cases r with
  | none =>
    obtain ⟨hnone, rfl⟩ := hends
    exact ⟨sound_stat _ hw₁, hext.handed, done, rest, w₁, hchecks, hdiscards, hnone, rfl⟩
  | some s =>
    obtain ⟨c, tail, e, pre, post, rfl, hfirst, husable, hstream, rfl⟩ := hends
    obtain ⟨hexamined, hext'⟩ : _ ∧ Extends w₁ (w₁.examined pid now c e (pre ++ post)) :=
      sound_examined hw₁ hfirst
    obtain ⟨newer, older, hstored, hnew, hold⟩ := sublist_split (hfirst.entries ▸ hw₁.newest)
    have haccepted := hw₁.accepted e (hstored ▸ List.mem_append_right _ List.mem_cons_self)
    have hout : Sound pid inFlight (w₁.handOut pid now c e (pre ++ post)) := by
      unfold handOut
      exact sound_hand hexamined _
    refine ⟨hout, ?_, done, c, tail, w₁, hchecks, hdiscards, e, pre, post,
      newer, older, ?_, rfl⟩
    · rw [← hstream, ← hext.handed, ← hext'.handed]
      rfl
    · exact
        { toFirst := hfirst
          stream := hstream
          released := hstream ▸ haccepted
          usable := husable
          stored := hstored
          newer := hnew
          older := hold }

/-- Every stream passed to a release is accounted for exactly once. -/
structure Conserved [DecidableEq σ] (w : PoolWorld σ) : Prop where
  once : ∀ s, w.releasedStreams.count s =
    w.handed.count s + w.freed.count s + w.idleStreams.count s
  closed : w.closed = w.freed
  counted : w.pool.idle = w.pool.entries.length
  /-- A stream its caller holds again, or never released, is neither idle nor freed. -/
  exclusive : ∀ s, w.releasedStreams.count s = w.handed.count s →
    s ∉ w.idleStreams ∧ s ∉ w.freed
  /-- A stream released once more than it was handed out is idle or freed, and only once. -/
  single : ∀ s, w.releasedStreams.count s = w.handed.count s + 1 →
    w.idleStreams.count s + w.freed.count s = 1

lemma Sound.conserved [DecidableEq σ] (h : Sound pid [] w) : Conserved w := by
  have hcount : ∀ s, w.releasedStreams.count s =
      w.handed.count s + w.freed.count s + w.idleStreams.count s := by
    intro s
    rw [h.balance.count_eq]
    simp only [List.nil_append, List.count_append]
    omega
  refine ⟨hcount, h.closed, h.idle, fun s hs => ?_, fun s hs => ?_⟩
  · have := hcount s
    constructor
    · rw [← List.count_eq_zero]
      omega
    · rw [← List.count_eq_zero]
      omega
  · have := hcount s
    omega

end PoolWorld

open PoolWorld

lemma poolStep_sound {σ : Type} {pid : Nat} {w w' : PoolWorld σ} {op : PoolOp σ}
    (h : Sound pid [] w) (hstep : poolStep pid w op = some w') : Sound pid [] w' := by
  unfold poolStep at hstep
  split_ifs at hstep
  cases op with
  | acquireBy key now checks =>
    obtain ⟨⟨r, u⟩, hacq, hu⟩ := Option.map_eq_some_iff.mp hstep
    exact hu ▸ (acquireBy_sound h hacq).1
  | release call =>
    cases hstep
    exact (sound_release call [] w h).1
  | clear =>
    cases hstep
    exact sound_clear h
  | free =>
    cases hstep
    exact sound_free h

/-- In every run of calls on a pool in one process each released stream is handed out,
closed and freed, or idle, exactly once, and an acquire hands out the usable stream under
its key that was released last. -/
theorem poolRun_safe {σ : Type} [DecidableEq σ] (cfg : PoolConfig) (pid : Nat)
    (ops : List (PoolOp σ)) (w : PoolWorld σ)
    (hrun : Run.exec (poolStep pid) (PoolWorld.new cfg pid) ops = some w) :
    Conserved w ∧ ∀ key now checks r w', w.alive = true →
      w.acquireBy pid key now checks = some (r, w') →
        Conserved w' ∧ Acquires pid key now checks w w' r := by
  have hsound : Sound pid [] w :=
    Run.exec_invariant (fun u op u' hu hstep => poolStep_sound hu hstep)
      (sound_new cfg pid) hrun
  refine ⟨hsound.conserved, ?_⟩
  intro key now checks r w' _ hacq
  obtain ⟨hw', hout⟩ := acquireBy_sound hsound hacq
  exact ⟨hw'.conserved, hout⟩

def reentrantKey (host : String) (minVersion : Int) : PoolKey :=
  { PoolKey.init with host := some (ascii host), port := 443, minVersion := minVersion }

def quietRelease (key : PoolKey) (s : Nat) : ReleaseCall Nat := .mk key s .ok 0 [] true 0

/-- The re-entrant case of the pool's own tests: the probe of the connection to `a.test`
releases a third connection, which evicts the one to `x.test`. -/
def reentrantCalls : List (PoolOp Nat) :=
  [.release (quietRelease (reentrantKey "a.test" 12) 1),
    .release (quietRelease (reentrantKey "x.test" 12) 2),
    .acquireBy (reentrantKey "a.test" 12) 5
      [⟨1, [quietRelease (reentrantKey "x.test" 13) 3], false, 0, true, []⟩]]

theorem poolRun_safe_reentrant :
    ∃ w w', Run.exec (poolStep 1) (PoolWorld.new ⟨16, 1, 30000, 0⟩ 1) reentrantCalls = some w ∧
      Conserved w ∧ w.handed = [] ∧ w.freed = [1, 2] ∧
      w.acquireBy 1 (reentrantKey "x.test" 13) 5 [⟨0, [], false, 0, true, []⟩] =
        some (some 3, w') ∧
      Acquires 1 (reentrantKey "x.test" 13) 5 [⟨0, [], false, 0, true, []⟩] w w' (some 3) := by
  have hends : (Run.exec (poolStep 1) (PoolWorld.new ⟨16, 1, 30000, 0⟩ 1) reentrantCalls).map
      (fun w => (w.alive, w.handed, w.freed,
        (w.acquireBy 1 (reentrantKey "x.test" 13) 5 [⟨0, [], false, 0, true, []⟩]).map
          Prod.fst)) = some (true, [], [1, 2], some (some 3)) := by decide
  obtain ⟨w, hrun, hw⟩ := Option.map_eq_some_iff.mp hends
  simp only [Prod.mk.injEq] at hw
  obtain ⟨halive, hhanded, hfreed, hacq⟩ := hw
  obtain ⟨⟨r, w'⟩, hacq, rfl⟩ := Option.map_eq_some_iff.mp hacq
  have hsafe := poolRun_safe _ 1 _ w hrun
  exact ⟨w, w', hrun, hsafe.1, hhanded, hfreed, hacq, (hsafe.2 _ _ _ _ _ halive hacq).2⟩

end Zuhttp
