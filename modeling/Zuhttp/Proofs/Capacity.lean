import Zuhttp.Library.Shelf
import Zuhttp.Proofs.Pool

/-!
# Capacity and accounting of the pool

The list of the pool is a shelf with two limits, its counters say what became of every stream,
and a run may go on in a forked child.
-/

namespace Zuhttp

open Shelf

variable {σ : Type}

mutual

/-- No allocation fails during the call. -/
def ReleaseCall.allocs : ReleaseCall σ → Bool
  | .mk _ _ _ _ duringProbe allocOk _ => allocOk && allocsAll duringProbe

def allocsAll : List (ReleaseCall σ) → Bool
  | [] => true
  | c :: cs => c.allocs && allocsAll cs

end

def Check.allocs (c : Check σ) : Bool := allocsAll c.duringProbe && allocsAll c.duringPing

def PoolOp.allocs : PoolOp σ → Bool
  | .acquireBy _ _ checks => checks.all Check.allocs
  | .release call => call.allocs
  | .clear => true
  | .free => true

/-- Two entries to the same scheme, host and port. -/
def PoolEntry.sameHost (x y : PoolEntry σ) : Bool := x.key.sameHost y.key

lemma PoolKey.sameHost_iff (a b : PoolKey) : a.sameHost b = true ↔
    a.port = b.port ∧ a.canonical.scheme = b.canonical.scheme ∧
      a.canonical.host = b.canonical.host := by
  simp only [PoolKey.sameHost, PoolKey.strEqCi_iff, decide_eq_true_eq, PoolKey.canonical]

lemma PoolEntry.sameHost_symm (x y : PoolEntry σ) (h : x.sameHost y = true) :
    y.sameHost x = true := by
  obtain ⟨hport, hscheme, hhost⟩ := (PoolKey.sameHost_iff _ _).mp h
  exact (PoolKey.sameHost_iff _ _).mpr ⟨hport.symm, hscheme.symm, hhost.symm⟩

lemma PoolEntry.sameHost_trans (x y z : PoolEntry σ) (h : x.sameHost y = true)
    (h' : y.sameHost z = true) : x.sameHost z = true := by
  obtain ⟨hport, hscheme, hhost⟩ := (PoolKey.sameHost_iff _ _).mp h
  obtain ⟨hport', hscheme', hhost'⟩ := (PoolKey.sameHost_iff _ _).mp h'
  exact (PoolKey.sameHost_iff _ _).mpr
    ⟨hport.trans hport', hscheme.trans hscheme', hhost.trans hhost'⟩

def PoolConfig.limits (cfg : PoolConfig) : Limits := ⟨cfg.maxIdle, cfg.maxPerHost⟩

/-- The streams that a counter has. -/
def PoolStats.settled (t : PoolStats) : Nat :=
  t.hits + (t.discardedStale + t.discardedExpired + t.discardedCapacity + t.discardedUnusable +
    t.discardedFork)

namespace PoolWorld

/-- The list, newest first, and how often there was no room. -/
abbrev Stock (σ : Type) := List (PoolEntry σ) × Nat

def shelf (w : PoolWorld σ) : Stock σ := (w.pool.entries, w.pool.stats.discardedCapacity)

/-- The list is within its limits and in the order of storing, and every stream is counted;
`flight` streams are held by a running call and `gone` have no counter. -/
structure Stocked (flight gone : Nat) (w : PoolWorld σ) : Prop where
  idle : w.pool.idle = w.pool.entries.length
  newest : w.pool.entries.Sublist w.stored
  within : Within PoolEntry.sameHost w.pool.cfg.limits w.pool.entries
  counted : w.released.length =
    flight + gone + w.pool.stats.settled + w.pool.entries.length

variable {pid n g : Nat} {w : PoolWorld σ}

lemma stocked_new (cfg : PoolConfig) (pid : Nat) : Stocked 0 0 (new cfg pid : PoolWorld σ) :=
  ⟨rfl, List.Sublist.refl _, Within.nil, rfl⟩

lemma stocked_receive (key : PoolKey) (s : σ) (r : Reuse) (h : Stocked n g w) :
    Stocked (n + 1) g { w with released := (key, s, r) :: w.released } where
  idle := h.idle
  newest := h.newest
  within := h.within
  counted := by
    have hcounted := h.counted
    simp only [List.length_cons]
    omega

lemma stocked_destroy (graceful : Bool) (s : σ) (h : Stocked n g w) :
    Stocked n g (w.destroy graceful s) :=
  ⟨h.idle, h.newest, h.within, h.counted⟩

/-- Streams in flight that a counter gets. -/
lemma stocked_settle {k : Nat} (f : PoolStats → PoolStats)
    (hf : (f w.pool.stats).settled = w.pool.stats.settled + k) (h : Stocked (n + k) g w) :
    Stocked n g (w.stat f) where
  idle := h.idle
  newest := h.newest
  within := h.within
  counted := by
    have hcounted := h.counted
    simp only [stat] at hcounted ⊢
    rw [hf]
    omega

lemma stocked_drop (h : Stocked (n + 1) g w) : Stocked n (g + 1) w :=
  ⟨h.idle, h.newest, h.within, by rw [h.counted]; omega⟩

lemma stocked_unlink {pre post : List (PoolEntry σ)} {e : PoolEntry σ}
    (h : Stocked n g w) (hentries : w.pool.entries = pre ++ e :: post) :
    Stocked (n + 1) g { w with pool := { w.pool with
      entries := pre ++ post, idle := w.pool.idle - 1 } } := by
  have hsub : (pre ++ post).Sublist w.pool.entries := by
    rw [hentries]
    exact (List.Sublist.refl pre).append (List.sublist_cons_self e post)
  have hidle := h.idle
  have hcounted := h.counted
  rw [hentries, List.length_append, List.length_cons] at hidle hcounted
  refine ⟨?_, hsub.trans h.newest, h.within.sublist hsub, ?_⟩
  · simp only [List.length_append]
    omega
  · simp only [List.length_append]
    omega

lemma destroyAll_released (graceful : Bool) (es : List (PoolEntry σ)) (w : PoolWorld σ) :
    (w.destroyAll graceful es).released = w.released ∧
      (w.destroyAll graceful es).stored = w.stored := by
  induction es generalizing w with
  | nil => exact ⟨rfl, rfl⟩
  | cons e es ih => exact ih (w.destroy graceful e.stream)

lemma stocked_checkFork (pid : Nat) (h : Stocked n g w) : Stocked n g (w.checkFork pid) := by
  unfold checkFork
  by_cases howner : w.pool.ownerPid = pid
  · rw [if_pos howner]
    exact h
  · rw [if_neg howner]
    obtain ⟨hreleased, hstored⟩ := destroyAll_released false w.pool.entries w
    have hcounted := h.counted
    refine ⟨rfl, List.nil_sublist _, Within.nil, ?_⟩
    simp only [stat, destroyAll_pool, hreleased, List.length_nil, PoolStats.settled] at hcounted ⊢
    omega

lemma stocked_clear (h : Stocked n g w) : Stocked n (g + w.pool.entries.length) w.clear := by
  obtain ⟨hreleased, hstored⟩ := destroyAll_released true w.pool.entries w
  have hcounted := h.counted
  unfold clear
  refine ⟨rfl, List.nil_sublist _, Within.nil, ?_⟩
  simp only [destroyAll_pool, hreleased, List.length_nil, PoolStats.settled] at hcounted ⊢
  omega

lemma clear_cfg (w : PoolWorld σ) : w.clear.pool.cfg = w.pool.cfg := by
  unfold clear
  simp only [destroyAll_pool]

/-- An entry that is put in front. -/
def push (e : PoolEntry σ) (w : PoolWorld σ) : PoolWorld σ :=
  ({ w with pool := { w.pool with
      entries := e :: w.pool.entries, idle := w.pool.idle + 1 }, stored := e :: w.stored }).stat
    (fun t => { t with idle := w.pool.idle + 1 })

/-- The list without an entry that had to make room. -/
def without (old : PoolEntry σ) (rest : List (PoolEntry σ)) (w : PoolWorld σ) : PoolWorld σ :=
  (({ w with pool := { w.pool with
      entries := rest, idle := w.pool.idle - 1 } } : PoolWorld σ).destroy true old.stream).stat
    (fun t => { t with discardedCapacity := t.discardedCapacity + 1 })

lemma evictToLimit_room (k : Nat) (hroom : w.pool.idle < w.pool.cfg.maxIdle) :
    w.evictToLimit k = w := by
  cases k with
  | zero => rfl
  | succ k =>
    unfold evictToLimit
    rw [if_neg (Nat.not_le.mpr hroom)]

lemma evictToLimit_full {k : Nat} (hk : 0 < k) (hfull : w.pool.cfg.maxIdle ≤ w.pool.idle)
    (hroom : (w.evictOldest none).pool.idle < (w.evictOldest none).pool.cfg.maxIdle) :
    w.evictToLimit k = w.evictOldest none := by
  obtain ⟨k, rfl⟩ := Nat.exists_eq_succ_of_ne_zero hk.ne'
  rw [evictToLimit, if_pos hfull, evictToLimit_room k hroom]

lemma countForHost_eq (w : PoolWorld σ) (e : PoolEntry σ) :
    w.countForHost e.key = w.pool.entries.countP (PoolEntry.sameHost · e) :=
  List.countP_eq_length_filter.symm

/-- Where the entry goes: into a free place, into that of the oldest of its host when these
are too many, or into that of the oldest of all. -/
lemma store_cases (e : PoolEntry σ) (h : Stocked n g w) (hmax : 0 < w.pool.cfg.maxIdle) :
    (HasPlace PoolEntry.sameHost w.pool.cfg.limits e w.pool.entries ∧
      w.pool.entries.length < w.pool.cfg.maxIdle ∧ w.store e = w.push e) ∨
    (∃ pre old post, w.pool.entries = pre ++ old :: post ∧
      (0 < w.pool.cfg.maxPerHost ∧
        w.pool.cfg.maxPerHost ≤ (pre ++ old :: post).countP (PoolEntry.sameHost · e)) ∧
      old.sameHost e = true ∧ (∀ x ∈ post, x.sameHost e = false) ∧
      w.store e = (w.without old (pre ++ post)).push e) ∨
    ∃ pre old, w.pool.entries = pre ++ [old] ∧
      HasPlace PoolEntry.sameHost w.pool.cfg.limits e (pre ++ [old]) ∧
      w.pool.cfg.maxIdle ≤ (pre ++ [old]).length ∧ w.store e = (w.without old pre).push e := by
  have hidle := h.idle
  have htotal : w.pool.entries.length ≤ w.pool.cfg.maxIdle := h.within.total
  unfold store
  rw [countForHost_eq]
  by_cases hhost : w.pool.cfg.maxPerHost > 0 ∧
      w.pool.entries.countP (PoolEntry.sameHost · e) ≥ w.pool.cfg.maxPerHost
  · right; left
    rw [if_pos hhost]
    obtain ⟨-, hnone⟩ | ⟨pre, old, post, hentries, ⟨hold, holder⟩, heq⟩ :=
      evictOldest_cases (some e.key) w
    · have hzero : w.pool.entries.countP (PoolEntry.sameHost · e) = 0 :=
        List.countP_eq_zero.mpr fun x hx => ne_true_of_eq_false (hnone x hx)
      omega
    · refine ⟨pre, old, post, hentries, hentries ▸ hhost, hold, holder, ?_⟩
      rw [heq]
      dsimp only
      rw [evictToLimit_room]
      · rfl
      · rw [hentries, List.length_append, List.length_cons] at hidle htotal
        simp only [stat, destroy]
        omega
  · rw [if_neg hhost]
    dsimp only
    have hplace : HasPlace PoolEntry.sameHost w.pool.cfg.limits e w.pool.entries :=
      fun hpos => Nat.lt_of_not_le fun hle => hhost ⟨hpos, hle⟩
    by_cases hroom : w.pool.idle < w.pool.cfg.maxIdle
    · left
      rw [evictToLimit_room _ hroom]
      exact ⟨hplace, hidle ▸ hroom, rfl⟩
    · right; right
      obtain ⟨-, hnone⟩ | ⟨pre, old, post, hentries, ⟨-, holder⟩, heq⟩ := evictOldest_cases none w
      · have hempty : w.pool.entries = [] :=
          List.eq_nil_iff_forall_not_mem.mpr fun x hx => absurd (hnone x hx) (by simp)
        rw [hempty] at hidle
        simp only [List.length_nil] at hidle
        omega
      · obtain rfl : post = [] :=
          List.eq_nil_iff_forall_not_mem.mpr fun x hx => absurd (holder x hx) (by simp)
        rw [List.append_nil] at heq
        refine ⟨pre, old, hentries, hentries ▸ hplace, ?_, ?_⟩
        · rw [← hentries]
          omega
        · rw [hentries, List.length_append, List.length_singleton] at htotal hidle
          rw [evictToLimit_full (by omega) (by omega) (by
            rw [heq]
            simp only [stat, destroy]
            omega), heq]
          rfl

lemma stocked_push (e : PoolEntry σ) (h : Stocked (n + 1) g w)
    (hwithin : Within PoolEntry.sameHost w.pool.cfg.limits (e :: w.pool.entries)) :
    Stocked n g (w.push e) := by
  have hidle := h.idle
  have hcounted := h.counted
  refine ⟨?_, h.newest.cons_cons e, hwithin, ?_⟩
  · simp only [push, stat, List.length_cons]
    omega
  · simp only [push, stat, List.length_cons, PoolStats.settled] at hcounted ⊢
    omega

lemma stocked_without {pre post : List (PoolEntry σ)} {old : PoolEntry σ}
    (h : Stocked n g w) (hentries : w.pool.entries = pre ++ old :: post) :
    Stocked n g (w.without old (pre ++ post)) := by
  refine stocked_settle (k := 1) _ ?_ (stocked_destroy true old.stream (stocked_unlink h hentries))
  unfold PoolStats.settled
  simp only [destroy]
  omega

/-- The entry is put on the shelf. -/
lemma store_puts (e : PoolEntry σ) (h : Stocked n g w) (hmax : 0 < w.pool.cfg.maxIdle) :
    Put PoolEntry.sameHost w.pool.cfg.limits e w.shelf (w.store e).shelf := by
  obtain ⟨hplace, hroom, heq⟩ | ⟨pre, old, post, hentries, hfull, hold, holder, heq⟩ |
    ⟨pre, old, hentries, hplace, hfull, heq⟩ := store_cases e h hmax
  · rw [heq]
    exact Put.free _ _ hplace hroom
  · rw [heq]
    unfold shelf
    rw [hentries]
    exact Put.replaceInGroup pre old post _ hfull hold holder
  · rw [heq]
    unfold shelf
    rw [hentries]
    exact Put.replaceLast pre old _ hplace hfull

lemma stocked_store (e : PoolEntry σ) (h : Stocked (n + 1) g w) (hmax : 0 < w.pool.cfg.maxIdle) :
    Stocked n g (w.store e) := by
  have hwithin : Within PoolEntry.sameHost w.pool.cfg.limits (w.store e).pool.entries :=
    (store_puts e h hmax).within PoolEntry.sameHost_symm PoolEntry.sameHost_trans h.within
  obtain ⟨hplace, hroom, heq⟩ | ⟨pre, old, post, hentries, hfull, hold, holder, heq⟩ |
    ⟨pre, old, hentries, hplace, hfull, heq⟩ := store_cases e h hmax
  · rw [heq] at hwithin ⊢
    exact stocked_push e h hwithin
  · rw [heq] at hwithin ⊢
    exact stocked_push e (stocked_without h hentries) hwithin
  · have hstocked := stocked_without h hentries
    rw [List.append_nil] at hstocked
    rw [heq] at hwithin ⊢
    exact stocked_push e hstocked hwithin

/-- A part of a run that settles all it took over, but for streams whose allocation failed. -/
def Settles (n g : Nat) (allocs : Bool) (w : PoolWorld σ) : Prop :=
  ∃ lost, Stocked n (g + lost) w ∧ (allocs = true → lost = 0)

lemma Settles.of {allocs : Bool} (h : Stocked n g w) : Settles n g allocs w :=
  ⟨0, h, fun _ => rfl⟩

lemma Settles.trans {a b : Bool} {w' : PoolWorld σ} {n' : Nat} (h : Settles n g a w)
    (hnext : ∀ lost, Stocked n (g + lost) w → Settles n' (g + lost) b w') :
    Settles n' g (a && b) w' := by
  obtain ⟨lost, hstocked, hlost⟩ := h
  obtain ⟨lost', hstocked', hlost'⟩ := hnext lost hstocked
  refine ⟨lost + lost', by rwa [← Nat.add_assoc], fun hallocs => ?_⟩
  obtain ⟨ha, hb⟩ := Bool.and_eq_true_iff.mp hallocs
  rw [hlost ha, hlost' hb]

lemma Settles.weaken {a b : Bool} (h : Settles n g a w) (hab : b = true → a = true) :
    Settles n g b w := by
  obtain ⟨lost, hstocked, hlost⟩ := h
  exact ⟨lost, hstocked, fun hb => hlost (hab hb)⟩

lemma Settles.imp {a : Bool} {w' : PoolWorld σ} {n' : Nat} (h : Settles n g a w)
    (hnext : ∀ lost, Stocked n (g + lost) w → Stocked n' (g + lost) w') : Settles n' g a w' := by
  obtain ⟨lost, hstocked, hlost⟩ := h
  exact ⟨lost, hnext lost hstocked, hlost⟩

mutual

/-- A release, with the releases nested in its probe. -/
theorem release_settles (pid : Nat) :
    ∀ (c : ReleaseCall σ) (n g : Nat) (w : PoolWorld σ), Stocked n g w →
      Settles n g c.allocs (w.release pid c)
  | .mk key s reuse readable duringProbe allocOk now, n, g, w, h => by
    have hfork := stocked_checkFork pid (stocked_receive key s reuse h)
    unfold release
    dsimp only
    generalize checkFork pid { w with released := (key, s, reuse) :: w.released } = u at *
    by_cases hreuse : reuse = .ok
    · rw [if_neg (not_not.mpr hreuse)]
      obtain ⟨lost, hprobe, hlost⟩ := releases_settles pid duringProbe _ _ u hfork
      generalize releases pid duringProbe u = v at *
      have hlost' : (allocOk && allocsAll duringProbe) = true → lost = 0 :=
        fun hallocs => hlost (Bool.and_eq_true_iff.mp hallocs).2
      split_ifs with hreadable hmax hfails
      · refine ⟨lost, stocked_destroy true s (stocked_settle _ ?_ hprobe), hlost'⟩
        unfold PoolStats.settled
        dsimp only
        omega
      · refine ⟨lost, stocked_destroy true s (stocked_settle _ ?_ hprobe), hlost'⟩
        unfold PoolStats.settled
        dsimp only
        omega
      · refine ⟨lost + 1, stocked_destroy true s (stocked_drop hprobe), fun hallocs => ?_⟩
        rw [ReleaseCall.allocs, hfails] at hallocs
        cases hallocs
      · exact ⟨lost, stocked_store ⟨key, s, now⟩ hprobe (Nat.pos_of_ne_zero hmax), hlost'⟩
    · rw [if_pos hreuse]
      refine Settles.of (stocked_destroy true s (stocked_settle _ ?_ hfork))
      unfold PoolStats.settled
      dsimp only
      omega

theorem releases_settles (pid : Nat) :
    ∀ (cs : List (ReleaseCall σ)) (n g : Nat) (w : PoolWorld σ), Stocked n g w →
      Settles n g (allocsAll cs) (w.releases pid cs)
  | [], n, g, w, h => by
    unfold releases
    exact Settles.of h
  | c :: cs, n, g, w, h => by
    unfold releases allocsAll
    exact (release_settles pid c n g w h).trans fun lost hfirst =>
      releases_settles pid cs n (g + lost) _ hfirst

end

lemma allocsAll_append (cs ds : List (ReleaseCall σ)) :
    allocsAll (cs ++ ds) = (allocsAll cs && allocsAll ds) := by
  induction cs with
  | nil => rfl
  | cons c cs ih => rw [List.cons_append, allocsAll, allocsAll, ih, Bool.and_assoc]

lemma nested_allocs {cfg : PoolConfig} {now : Int} {e : PoolEntry σ} {c : Check σ}
    (h : c.allocs = true) : allocsAll (nested cfg now e c) = true := by
  obtain ⟨hprobe, hping⟩ := Bool.and_eq_true_iff.mp h
  unfold nested
  split_ifs
  · rfl
  · exact hprobe
  · rw [allocsAll_append, hprobe, hping]
    rfl
  · exact hprobe

/-- An examined entry is in flight. -/
lemma examined_settles {key : PoolKey} (pid : Nat) (now : Int) (c : Check σ) {e : PoolEntry σ}
    {pre post : List (PoolEntry σ)} (h : Stocked n g w) (hfirst : First key w e pre post) :
    Settles (n + 1) g c.allocs (w.examined pid now c e (pre ++ post)) :=
  (releases_settles _ _ _ _ _ (stocked_unlink h hfirst.entries)).weaken nested_allocs

lemma discard_settles {key : PoolKey} (pid : Nat) (now : Int) (c : Check σ) {e : PoolEntry σ}
    {pre post : List (PoolEntry σ)} (h : Stocked n g w) (hfirst : First key w e pre post) :
    Settles n g c.allocs (w.discard pid now c e (pre ++ post)) := by
  refine (examined_settles pid now c h hfirst).imp fun lost hexamined => ?_
  refine stocked_destroy true _ (stocked_settle _ ?_ hexamined)
  unfold blame PoolStats.settled
  split_ifs <;> dsimp only <;> omega

lemma handOut_settles {key : PoolKey} (pid : Nat) (now : Int) (c : Check σ) {e : PoolEntry σ}
    {pre post : List (PoolEntry σ)} (h : Stocked n g w) (hfirst : First key w e pre post) :
    Settles n g c.allocs (w.handOut pid now c e (pre ++ post)) := by
  refine (examined_settles pid now c h hfirst).imp fun lost hexamined => ?_
  unfold handOut
  dsimp only
  generalize w.examined pid now c e (pre ++ post) = u at hexamined ⊢
  have hhand : Stocked (n + 1) (g + lost) { u with handed := e.stream :: u.handed } :=
    ⟨hexamined.idle, hexamined.newest, hexamined.within, hexamined.counted⟩
  refine stocked_settle _ ?_ hhand
  unfold PoolStats.settled
  dsimp only
  omega

lemma discards_settles {key : PoolKey} {now : Int} {done : List (Check σ)} {w' : PoolWorld σ}
    (h : Stocked n g w) (hrun : Discards pid key now w done w') :
    Settles n g (done.all Check.allocs) w' := by
  induction hrun generalizing g with
  | nil w => exact Settles.of h
  | @cons w v c cs e pre post hfirst _ _ ih =>
    rw [List.all_cons]
    exact (discard_settles pid now c h hfirst).trans fun _ hrest => ih hrest

lemma acquireLoop_settles {key : PoolKey} {now : Int} {checks : List (Check σ)} {r : Option σ}
    {w' : PoolWorld σ} (h : Stocked n g w)
    (hloop : acquireLoop pid key now checks w = some (r, w')) :
    Settles n g (checks.all Check.allocs) w' := by
  obtain ⟨done, rest, w₁, rfl, hdiscards, hends⟩ := acquireLoop_run hloop
  rw [List.all_append]
  refine (discards_settles h hdiscards).trans fun lost hstocked => ?_
  cases r with
  | none =>
    obtain ⟨-, rfl⟩ := hends
    exact Settles.of (stocked_settle (k := 0) _ rfl hstocked)
  | some s =>
    obtain ⟨c, tail, e, pre, post, rfl, hfirst, -, -, rfl⟩ := hends
    rw [List.all_cons]
    exact (handOut_settles pid now c hstocked hfirst).weaken fun hall =>
      (Bool.and_eq_true_iff.mp hall).1

lemma discards_cfg {key : PoolKey} {now : Int} {done : List (Check σ)} {w' : PoolWorld σ}
    (hrun : Discards pid key now w done w') : w'.pool.cfg = w.pool.cfg := by
  induction hrun with
  | nil w => rfl
  | cons e pre post _ _ _ ih => exact ih.trans (releases_cfg _ _ _)

lemma acquireLoop_cfg {key : PoolKey} {now : Int} {checks : List (Check σ)} {r : Option σ}
    {w' : PoolWorld σ} (hloop : acquireLoop pid key now checks w = some (r, w')) :
    w'.pool.cfg = w.pool.cfg := by
  obtain ⟨done, rest, w₁, -, hdiscards, hends⟩ := acquireLoop_run hloop
  have hcfg := discards_cfg hdiscards
  cases r with
  | none =>
    obtain ⟨-, rfl⟩ := hends
    exact hcfg
  | some s =>
    obtain ⟨c, tail, e, pre, post, -, -, -, -, rfl⟩ := hends
    exact (releases_cfg _ _ _).trans hcfg

end PoolWorld

open PoolWorld

/-- The streams a call closes because the list is cleared. -/
def clearedBy (pid : Nat) (w : PoolWorld σ) : PoolOp σ → Nat
  | .clear => w.pool.entries.length
  | .free => if w.pool.ownerPid = pid then w.pool.entries.length else 0
  | _ => 0

/-- A call by the process with that id. -/
def poolCall (w : PoolWorld σ) (call : Nat × PoolOp σ) : Option (PoolWorld σ) :=
  poolStep call.1 w call.2

def clearedIn : PoolWorld σ → List (Nat × PoolOp σ) → Nat
  | _, [] => 0
  | w, call :: calls =>
    clearedBy call.1 w call.2 +
      match poolCall w call with
      | none => 0
      | some w' => clearedIn w' calls

lemma poolStep_settles {pid g : Nat} {w w' : PoolWorld σ} {op : PoolOp σ} (h : Stocked 0 g w)
    (hstep : poolStep pid w op = some w') :
    Settles 0 (g + clearedBy pid w op) op.allocs w' := by
  unfold poolStep at hstep
  split_ifs at hstep
  cases op with
  | acquireBy key now checks =>
    obtain ⟨⟨r, u⟩, hacq, rfl⟩ := Option.map_eq_some_iff.mp hstep
    exact acquireLoop_settles (stocked_checkFork pid h) hacq
  | release call =>
    cases hstep
    exact release_settles pid call 0 g w h
  | clear =>
    cases hstep
    exact Settles.of (stocked_clear h)
  | free =>
    cases hstep
    unfold free clearedBy
    by_cases howner : w.pool.ownerPid = pid
    · have hclear := stocked_clear h
      rw [if_neg (not_not.mpr howner), if_pos howner]
      exact Settles.of ⟨hclear.idle, hclear.newest, hclear.within, hclear.counted⟩
    · have hfork := stocked_checkFork pid h
      rw [if_pos howner, if_neg howner]
      exact Settles.of ⟨hfork.idle, hfork.newest, hfork.within, hfork.counted⟩

/-- After every call nothing is in flight, and what has no counter was cleared. -/
lemma poolCalls_stocked {g : Nat} {w w' : PoolWorld σ} {calls : List (Nat × PoolOp σ)}
    (h : Stocked 0 g w) (hrun : Run.exec poolCall w calls = some w') :
    Settles 0 (g + clearedIn w calls) (calls.all fun call => call.2.allocs) w' := by
  induction calls generalizing w g with
  | nil =>
    cases hrun
    exact Settles.of h
  | cons call calls ih =>
    obtain ⟨u, hcall, hrest⟩ := Run.exec_cons_eq_some.mp hrun
    rw [List.all_cons, clearedIn, hcall]
    obtain ⟨lost, hstocked, hlost⟩ := poolStep_settles h hcall
    obtain ⟨lost', hstocked', hlost'⟩ := ih hstocked hrest
    refine ⟨lost + lost', ?_, fun hallocs => ?_⟩
    · rwa [show g + (clearedBy call.1 w call.2 + clearedIn u calls) + (lost + lost') =
        g + clearedBy call.1 w call.2 + lost + clearedIn u calls + lost' by omega]
    · obtain ⟨hfirst, hall⟩ := Bool.and_eq_true_iff.mp hallocs
      rw [hlost hfirst, hlost' hall]

/-! ### What a call does to the list -/

mutual

/-- What a release does to the list: the releases that run in its probe come first, then its own
connection is put in front, unless it is one that is not kept. -/
def ReleaseCall.Places (lim : Limits) : ReleaseCall σ → Stock σ → Stock σ → Prop
  | .mk key s reuse readable duringProbe allocOk now, before, after =>
    if reuse ≠ .ok then after = before
    else ∃ mid, PlacesAll lim duringProbe before mid ∧
      if readable = 1 ∨ lim.total ≠ 0 ∧ allocOk = false then after = mid
      else Put PoolEntry.sameHost lim ⟨key, s, now⟩ mid after

def PlacesAll (lim : Limits) : List (ReleaseCall σ) → Stock σ → Stock σ → Prop
  | [], before, after => after = before
  | c :: cs, before, after => ∃ mid, c.Places lim before mid ∧ PlacesAll lim cs mid after

end

/-- What an acquire does to the list: the first entry under the key leaves it, the releases that
run while the entry is examined come next, and it goes on if the entry is unusable. -/
inductive Fetches (cfg : PoolConfig) (key : PoolKey) (now : Int) :
    List (Check σ) → Stock σ → Option σ → Stock σ → Prop
  | miss (cs : List (Check σ)) (l : List (PoolEntry σ)) (n : Nat)
      (hnone : ∀ x ∈ l, x.key.eq key = false) : Fetches cfg key now cs (l, n) none (l, n)
  | hit (c : Check σ) (cs : List (Check σ)) (pre : List (PoolEntry σ)) (e : PoolEntry σ)
      (post : List (PoolEntry σ)) (n : Nat) (after : Stock σ) (hkey : e.key.eq key = true)
      (hlatest : ∀ x ∈ pre, x.key.eq key = false) (husable : ¬Unusable cfg now e c)
      (hnested : PlacesAll cfg.limits (nested cfg now e c) (pre ++ post, n) after) :
      Fetches cfg key now (c :: cs) (pre ++ e :: post, n) (some e.stream) after
  | pass (c : Check σ) (cs : List (Check σ)) (pre : List (PoolEntry σ)) (e : PoolEntry σ)
      (post : List (PoolEntry σ)) (n : Nat) (mid : Stock σ) (r : Option σ) (after : Stock σ)
      (hkey : e.key.eq key = true) (hlatest : ∀ x ∈ pre, x.key.eq key = false)
      (hunusable : Unusable cfg now e c)
      (hnested : PlacesAll cfg.limits (nested cfg now e c) (pre ++ post, n) mid)
      (hrest : Fetches cfg key now cs mid r after) :
      Fetches cfg key now (c :: cs) (pre ++ e :: post, n) r after

/-- What a call finds: a process that does not own the list drops it first. -/
def found (pid : Nat) (w : PoolWorld σ) : Stock σ :=
  if w.pool.ownerPid = pid then w.shelf else ([], w.pool.stats.discardedCapacity)

/-- What a call does to the list. -/
def PoolOp.Changes (pid : Nat) (w w' : PoolWorld σ) : PoolOp σ → Prop
  | .acquireBy key now checks => ∃ r, w.acquireBy pid key now checks = some (r, w') ∧
      Fetches w.pool.cfg key now checks (found pid w) r w'.shelf
  | .release call => call.Places w.pool.cfg.limits (found pid w) w'.shelf
  | .clear => w'.shelf = ([], w.pool.stats.discardedCapacity)
  | .free => w'.shelf = ([], w.pool.stats.discardedCapacity)

namespace PoolWorld

lemma checkFork_found (pid : Nat) (w : PoolWorld σ) : (w.checkFork pid).shelf = found pid w := by
  unfold checkFork found
  by_cases h : w.pool.ownerPid = pid
  · rw [if_pos h, if_pos h]
  · rw [if_neg h, if_neg h]
    simp only [shelf, stat, destroyAll_pool]

lemma checkFork_owner (pid : Nat) (w : PoolWorld σ) : (w.checkFork pid).pool.ownerPid = pid := by
  unfold checkFork
  by_cases h : w.pool.ownerPid = pid
  · rw [if_pos h, h]
  · rw [if_neg h]

lemma evictOldest_owner (hostOf : Option PoolKey) (w : PoolWorld σ) :
    (w.evictOldest hostOf).pool.ownerPid = w.pool.ownerPid := by
  obtain ⟨heq, -⟩ | ⟨pre, e, post, -, -, heq⟩ := evictOldest_cases hostOf w
  · rw [heq]
  · rw [heq]
    rfl

lemma evictToLimit_owner (k : Nat) (w : PoolWorld σ) :
    (w.evictToLimit k).pool.ownerPid = w.pool.ownerPid := by
  induction k generalizing w with
  | zero => rfl
  | succ k ih =>
    unfold evictToLimit
    split_ifs
    · rw [ih, evictOldest_owner]
    · rfl

lemma store_owner (e : PoolEntry σ) (w : PoolWorld σ) :
    (w.store e).pool.ownerPid = w.pool.ownerPid := by
  obtain ⟨w₁, hw₁, heq⟩ := store_eq e w
  have hroom : w₁.pool.ownerPid = w.pool.ownerPid := by
    rcases hw₁ with rfl | rfl
    · rfl
    · exact evictOldest_owner _ w
  rw [heq, ← hroom, ← evictToLimit_owner w₁.pool.idle w₁]
  rfl

mutual

/-- The process that made a release owns the list. -/
theorem release_owner (pid : Nat) :
    ∀ (c : ReleaseCall σ) (w : PoolWorld σ), (w.release pid c).pool.ownerPid = pid
  | .mk key s reuse readable duringProbe allocOk now, w => by
    have hfork := checkFork_owner pid { w with released := (key, s, reuse) :: w.released }
    have hprobe := releases_owner pid duringProbe _ hfork
    unfold release
    dsimp only
    split_ifs
    · exact hfork
    · exact hprobe
    · exact hprobe
    · exact hprobe
    · exact (store_owner _ _).trans hprobe

theorem releases_owner (pid : Nat) :
    ∀ (cs : List (ReleaseCall σ)) (w : PoolWorld σ), w.pool.ownerPid = pid →
      (w.releases pid cs).pool.ownerPid = pid
  | [], w, h => by
    rw [releases]
    exact h
  | c :: cs, w, _ => by
    rw [releases]
    exact releases_owner pid cs _ (release_owner pid c w)

end

variable {pid n g : Nat} {w : PoolWorld σ}

mutual

/-- A release by the process that owns the list. -/
theorem release_places :
    ∀ (c : ReleaseCall σ) (n g : Nat) (w : PoolWorld σ), Stocked n g w → w.pool.ownerPid = pid →
      c.Places w.pool.cfg.limits w.shelf (w.release pid c).shelf
  | .mk key s reuse readable duringProbe allocOk now, n, g, w, h, howner => by
    have hreceive := stocked_receive key s reuse h
    have hfork : checkFork pid { w with released := (key, s, reuse) :: w.released } =
        { w with released := (key, s, reuse) :: w.released } := if_pos howner
    unfold ReleaseCall.Places release
    dsimp only
    rw [hfork]
    by_cases hreuse : reuse ≠ .ok
    · rw [if_pos hreuse, if_pos hreuse]
      rfl
    · rw [if_neg hreuse, if_neg hreuse]
      have hplaces := releases_places duringProbe _ _ _ hreceive howner
      obtain ⟨lost, hprobe, -⟩ := releases_settles pid duringProbe _ _ _ hreceive
      have hcfg := releases_cfg pid duringProbe
        { w with released := (key, s, reuse) :: w.released }
      refine ⟨_, hplaces, ?_⟩
      generalize releases pid duringProbe _ = u at hprobe hcfg ⊢
      dsimp only at hcfg
      have hlimit : w.pool.cfg.limits.total = u.pool.cfg.maxIdle := by
        rw [hcfg]
        rfl
      by_cases hreadable : readable = 1
      · rw [if_pos (Or.inl hreadable), if_pos hreadable]
        rfl
      rw [if_neg hreadable, hlimit]
      by_cases hmax : u.pool.cfg.maxIdle = 0
      · rw [if_pos hmax, if_neg (by rintro (h | h); exacts [hreadable h, h.1 hmax])]
        exact Put.refuse _ _ (hlimit.trans hmax)
      rw [if_neg hmax]
      by_cases halloc : allocOk = false
      · rw [if_pos halloc, if_pos (Or.inr ⟨hmax, halloc⟩)]
        rfl
      · rw [if_neg halloc, if_neg (by rintro (h | h); exacts [hreadable h, halloc h.2]), ← hcfg]
        exact store_puts _ hprobe (Nat.pos_of_ne_zero hmax)

theorem releases_places :
    ∀ (cs : List (ReleaseCall σ)) (n g : Nat) (w : PoolWorld σ), Stocked n g w →
      w.pool.ownerPid = pid →
        PlacesAll w.pool.cfg.limits cs w.shelf (w.releases pid cs).shelf
  | [], n, g, w, _, _ => by
    unfold PlacesAll releases
    rfl
  | c :: cs, n, g, w, h, howner => by
    obtain ⟨lost, hstocked, -⟩ := release_settles pid c n g w h
    have hrest := releases_places cs _ _ _ hstocked (release_owner pid c w)
    rw [release_cfg] at hrest
    unfold PlacesAll releases
    exact ⟨_, release_places c n g w h howner, hrest⟩

end

lemma examined_places {key : PoolKey} {now : Int} {c : Check σ} {e : PoolEntry σ}
    {pre post : List (PoolEntry σ)} (h : Stocked n g w) (howner : w.pool.ownerPid = pid)
    (hfirst : First key w e pre post) :
    PlacesAll w.pool.cfg.limits (nested w.pool.cfg now e c)
      (pre ++ post, w.pool.stats.discardedCapacity)
      (w.examined pid now c e (pre ++ post)).shelf :=
  releases_places _ _ _ _ (stocked_unlink h hfirst.entries) howner

lemma discard_shelf (pid : Nat) (now : Int) (c : Check σ) (e : PoolEntry σ)
    (rest : List (PoolEntry σ)) (w : PoolWorld σ) :
    (w.discard pid now c e rest).shelf = (w.examined pid now c e rest).shelf := by
  unfold discard shelf blame stat destroy
  dsimp only
  split_ifs <;> rfl

lemma Discards.fetches {key : PoolKey} {now : Int} {done rest : List (Check σ)}
    {w' : PoolWorld σ} {r : Option σ} {after : Stock σ} (hrun : Discards pid key now w done w')
    (h : Stocked n g w) (howner : w.pool.ownerPid = pid)
    (hrest : ∀ lost, Stocked n (g + lost) w' → w'.pool.ownerPid = pid →
      w'.pool.cfg = w.pool.cfg → Fetches w.pool.cfg key now rest w'.shelf r after) :
    Fetches w.pool.cfg key now (done ++ rest) w.shelf r after := by
  induction hrun generalizing g with
  | nil w => exact hrest 0 h howner rfl
  | @cons w v c cs e pre post hfirst hunusable _ ih =>
    have hplaces : PlacesAll _ _ _ (w.examined pid now c e (pre ++ post)).shelf :=
      examined_places h howner hfirst
    rw [← discard_shelf] at hplaces
    obtain ⟨lost, hstocked, -⟩ := discard_settles pid now c h hfirst
    have hcfg : (w.discard pid now c e (pre ++ post)).pool.cfg = w.pool.cfg := releases_cfg _ _ _
    have hown : (w.discard pid now c e (pre ++ post)).pool.ownerPid = pid :=
      releases_owner _ _ _ howner
    have hnext := ih hstocked hown fun lost' hv hvo hvc => by
      rw [hcfg]
      exact hrest (lost + lost') (by rwa [← Nat.add_assoc]) hvo (hvc.trans hcfg)
    rw [hcfg] at hnext
    unfold shelf at hplaces hnext ⊢
    rw [hfirst.entries]
    exact .pass c _ pre e post _ _ _ _ hfirst.matches_key hfirst.latest hunusable hplaces hnext

lemma acquireLoop_fetches {key : PoolKey} {now : Int} {checks : List (Check σ)} {r : Option σ}
    {w' : PoolWorld σ} (h : Stocked n g w) (howner : w.pool.ownerPid = pid)
    (hloop : acquireLoop pid key now checks w = some (r, w')) :
    Fetches w.pool.cfg key now checks w.shelf r w'.shelf := by
  obtain ⟨done, rest, w₁, rfl, hdiscards, hends⟩ := acquireLoop_run hloop
  refine hdiscards.fetches h howner fun lost hstocked hown hcfg => ?_
  rw [← hcfg]
  cases r with
  | none =>
    obtain ⟨hnone, rfl⟩ := hends
    exact .miss _ _ _ hnone
  | some s =>
    obtain ⟨c, tail, e, pre, post, rfl, hfirst, husable, rfl, rfl⟩ := hends
    have hplaces : PlacesAll _ _ _ (w₁.examined pid now c e (pre ++ post)).shelf :=
      examined_places hstocked hown hfirst
    have hshelf : (w₁.handOut pid now c e (pre ++ post)).shelf =
        (w₁.examined pid now c e (pre ++ post)).shelf := rfl
    rw [hshelf]
    unfold shelf at hplaces ⊢
    rw [hfirst.entries]
    exact .hit c _ pre e post _ _ hfirst.matches_key hfirst.latest husable hplaces

lemma clear_shelf (w : PoolWorld σ) : w.clear.shelf = ([], w.pool.stats.discardedCapacity) := by
  unfold clear shelf
  simp only [destroyAll_pool]

end PoolWorld

lemma destroyAll_dead (graceful : Bool) (es : List (PoolEntry σ)) (w : PoolWorld σ) :
    (w.destroyAll graceful es).closed =
        (if graceful then (es.map PoolEntry.stream).reverse else []) ++ w.closed ∧
      (w.destroyAll graceful es).freed = (es.map PoolEntry.stream).reverse ++ w.freed := by
  induction es generalizing w with
  | nil => cases graceful <;> exact ⟨rfl, rfl⟩
  | cons e es ih =>
    unfold destroyAll
    obtain ⟨hclosed, hfreed⟩ := ih (w.destroy graceful e.stream)
    rw [hclosed, hfreed]
    cases graceful <;> simp [destroy]

lemma checkFork_drops {pid : Nat} {w : PoolWorld σ} (h : w.pool.ownerPid ≠ pid) :
    (w.checkFork pid).pool.entries = [] ∧ (w.checkFork pid).closed = w.closed ∧
      (w.checkFork pid).freed = w.idleStreams.reverse ++ w.freed ∧
      (w.checkFork pid).pool.ownerPid = pid := by
  obtain ⟨hclosed, hfreed⟩ := destroyAll_dead false w.pool.entries w
  unfold checkFork
  rw [if_neg h]
  exact ⟨rfl, hclosed, hfreed, rfl⟩

lemma checkFork_checkFork (pid : Nat) (w : PoolWorld σ) :
    (w.checkFork pid).checkFork pid = w.checkFork pid := by
  by_cases h : w.pool.ownerPid = pid
  · have hsame : w.checkFork pid = w := if_pos h
    rw [hsame, hsame]
  · exact if_pos (checkFork_drops h).2.2.2

lemma destroyAll_receive (graceful : Bool) (r : PoolKey × σ × Reuse) (es : List (PoolEntry σ))
    (w : PoolWorld σ) :
    ({ w with released := r :: w.released } : PoolWorld σ).destroyAll graceful es =
      { w.destroyAll graceful es with released := r :: (w.destroyAll graceful es).released } := by
  induction es generalizing w with
  | nil => rfl
  | cons e es ih => exact ih (w.destroy graceful e.stream)

/-- The guard comes to the same before and after the release is noted. -/
lemma checkFork_receive (pid : Nat) (r : PoolKey × σ × Reuse) (w : PoolWorld σ) :
    ({ w with released := r :: w.released } : PoolWorld σ).checkFork pid =
      { w.checkFork pid with released := r :: (w.checkFork pid).released } := by
  unfold checkFork
  by_cases h : w.pool.ownerPid = pid
  · rw [if_pos h, if_pos h]
  · rw [if_neg h, if_neg h, destroyAll_receive]
    rfl

lemma release_checkFork (pid : Nat) (c : ReleaseCall σ) (w : PoolWorld σ) :
    w.release pid c = (w.checkFork pid).release pid c := by
  cases c with
  | mk key s reuse readable duringProbe allocOk now =>
    unfold release
    dsimp only
    rw [checkFork_receive, checkFork_receive, checkFork_checkFork]

lemma poolStep_changes {pid g : Nat} {w w' : PoolWorld σ} {op : PoolOp σ} (h : Stocked 0 g w)
    (hstep : poolStep pid w op = some w') : op.Changes pid w w' := by
  have hfork := stocked_checkFork pid h
  have hfound := checkFork_found pid w
  have hcfg := checkFork_cfg pid w
  have howner := checkFork_owner pid w
  unfold poolStep at hstep
  split_ifs at hstep
  cases op with
  | acquireBy key now checks =>
    obtain ⟨⟨r, u⟩, hacq, rfl⟩ := Option.map_eq_some_iff.mp hstep
    have hfetches := acquireLoop_fetches hfork howner hacq
    rw [hfound, hcfg] at hfetches
    exact ⟨r, hacq, hfetches⟩
  | release call =>
    cases hstep
    have hplaces := release_places call _ _ _ hfork howner
    rw [hfound, hcfg, ← release_checkFork] at hplaces
    exact hplaces
  | clear =>
    cases hstep
    exact clear_shelf w
  | free =>
    cases hstep
    unfold PoolOp.Changes free
    by_cases hown : w.pool.ownerPid = pid
    · rw [if_neg (not_not.mpr hown)]
      exact clear_shelf w
    · rw [if_pos hown]
      unfold found at hfound
      rw [if_neg hown] at hfound
      exact hfound

/-! ### The fork -/

/-- In a new process the call starts from an emptied list, no connection of which was closed. -/
def DropsInherited (pid : Nat) (w : PoolWorld σ) (op : PoolOp σ) : Prop :=
  w.pool.ownerPid ≠ pid → ∃ u : PoolWorld σ, u.pool.entries = [] ∧ u.closed = w.closed ∧
    u.freed = w.idleStreams.reverse ++ w.freed ∧ poolStep pid w op = poolStep pid u op

/-- A call of `zuh_pool_clear` while connections of another process are in the list. -/
def ClearsInherited (pid : Nat) (w : PoolWorld σ) : PoolOp σ → Prop
  | .clear => w.pool.ownerPid ≠ pid ∧ w.pool.entries ≠ []
  | _ => False

lemma checkFork_alive (pid : Nat) (w : PoolWorld σ) : (w.checkFork pid).alive = w.alive := by
  have hall : ∀ (es : List (PoolEntry σ)) (u : PoolWorld σ),
      (u.destroyAll false es).alive = u.alive := by
    intro es
    induction es with
    | nil => exact fun u => rfl
    | cons e es ih => exact fun u => ih (u.destroy false e.stream)
  unfold checkFork
  by_cases h : w.pool.ownerPid = pid
  · rw [if_pos h]
  · rw [if_neg h]
    exact hall _ _

lemma free_checkFork {pid : Nat} {w : PoolWorld σ} (h : w.pool.ownerPid ≠ pid) :
    w.free pid = (w.checkFork pid).free pid := by
  obtain ⟨hentries, -, -, howner⟩ := checkFork_drops h
  unfold free
  rw [if_pos h, if_neg (not_not.mpr howner)]
  unfold clear
  rw [hentries]
  unfold checkFork
  rw [if_neg h]
  rfl

lemma dropsInherited_iff {pid : Nat} {w : PoolWorld σ} (op : PoolOp σ) (halive : w.alive = true) :
    DropsInherited pid w op ↔ ¬ClearsInherited pid w op := by
  have hguard : w.pool.ownerPid ≠ pid → poolStep pid w op = poolStep pid (w.checkFork pid) op →
      ∃ u : PoolWorld σ, u.pool.entries = [] ∧ u.closed = w.closed ∧
        u.freed = w.idleStreams.reverse ++ w.freed ∧ poolStep pid w op = poolStep pid u op := by
    intro howner hstep
    obtain ⟨hentries, hclosed, hfreed, -⟩ := checkFork_drops howner
    exact ⟨_, hentries, hclosed, hfreed, hstep⟩
  unfold DropsInherited
  cases op with
  | acquireBy key now checks =>
    refine iff_of_true (fun howner => hguard howner ?_) id
    unfold poolStep
    rw [checkFork_alive]
    dsimp only
    unfold acquireBy
    rw [checkFork_checkFork]
  | release call =>
    refine iff_of_true (fun howner => hguard howner ?_) id
    unfold poolStep
    rw [checkFork_alive]
    dsimp only
    rw [← release_checkFork]
  | free =>
    refine iff_of_true (fun howner => hguard howner ?_) id
    unfold poolStep
    rw [checkFork_alive]
    dsimp only
    rw [← free_checkFork howner]
  | clear =>
    constructor
    · rintro hdrops ⟨howner, hentries⟩
      obtain ⟨u, hempty, hclosed, -, hstep⟩ := hdrops howner
      unfold poolStep at hstep
      rw [halive, if_neg (by decide)] at hstep
      split_ifs at hstep
      have hsame := congrArg PoolWorld.closed (Option.some.inj hstep)
      dsimp only [clear] at hsame
      rw [(destroyAll_dead true _ w).1, (destroyAll_dead true _ u).1, hempty, hclosed] at hsame
      have hnone := List.append_cancel_right hsame
      simp only [if_true, List.reverse_inj, List.map_nil, List.map_eq_nil_iff] at hnone
      exact hentries hnone
    · intro hclears howner
      have hempty : w.pool.entries = [] := by_contra fun hne => hclears ⟨howner, hne⟩
      refine ⟨w, hempty, rfl, ?_, rfl⟩
      unfold idleStreams
      rw [hempty]
      rfl

lemma poolStep_cfg {pid : Nat} {w w' : PoolWorld σ} {op : PoolOp σ}
    (hstep : poolStep pid w op = some w') : w'.pool.cfg = w.pool.cfg := by
  have hfork := checkFork_cfg pid w
  unfold poolStep at hstep
  split_ifs at hstep
  cases op with
  | acquireBy key now checks =>
    obtain ⟨⟨r, u⟩, hacq, rfl⟩ := Option.map_eq_some_iff.mp hstep
    exact (acquireLoop_cfg hacq).trans hfork
  | release call =>
    cases hstep
    exact release_cfg pid call w
  | clear =>
    cases hstep
    exact clear_cfg w
  | free =>
    cases hstep
    unfold free
    dsimp only
    split_ifs
    · exact hfork
    · exact clear_cfg w

lemma poolCalls_cfg {w w' : PoolWorld σ} {calls : List (Nat × PoolOp σ)}
    (hrun : Run.exec poolCall w calls = some w') : w'.pool.cfg = w.pool.cfg :=
  Run.exec_invariant (I := fun u => u.pool.cfg = w.pool.cfg)
    (fun _ _ _ hu hstep => (poolStep_cfg hstep).trans hu) rfl hrun

/-! ### Whole runs -/

lemma countForHost_le {w : PoolWorld σ}
    (h : Within PoolEntry.sameHost w.pool.cfg.limits w.pool.entries)
    (hpos : 0 < w.pool.cfg.maxPerHost) (key : PoolKey) :
    w.countForHost key ≤ w.pool.cfg.maxPerHost := by
  cases hentries : w.pool.entries with
  | nil =>
    unfold PoolWorld.countForHost
    rw [hentries]
    exact Nat.zero_le _
  | cons e es =>
    have hgroup := h.group hpos { e with key := key }
    rwa [← countForHost_eq] at hgroup

/-- A pool with its limits kept, its list in the order of storing and its counters complete. -/
structure Accounted (cfg : PoolConfig) (calls : List (Nat × PoolOp σ)) (w₀ w : PoolWorld σ) :
    Prop where
  idle : w.pool.idle = w.pool.entries.length
  total : w.pool.idle ≤ cfg.maxIdle
  perHost : 0 < cfg.maxPerHost → ∀ key, w.countForHost key ≤ cfg.maxPerHost
  newest : w.pool.entries.Sublist w.stored
  counted : (∀ call ∈ calls, call.2.allocs = true) →
    w.released.length = w.pool.stats.hits +
      (w.pool.stats.discardedStale + w.pool.stats.discardedExpired +
        w.pool.stats.discardedCapacity + w.pool.stats.discardedUnusable +
        w.pool.stats.discardedFork) + clearedIn w₀ calls + w.pool.idle

/-- In every run of calls by a process and its forked children the pool keeps its limits and
its accounts, every release puts its connection on the list as on a shelf with limits, and a
call in a new process drops the inherited connections without closing them, if and only if it is
not one that clears the list while they are in it. -/
theorem poolRun_capacity (cfg : PoolConfig) (owner : Nat) (calls : List (Nat × PoolOp σ))
    (w : PoolWorld σ) (hrun : Run.exec poolCall (PoolWorld.new cfg owner) calls = some w) :
    Accounted cfg calls (PoolWorld.new cfg owner) w ∧ w.pool.cfg = cfg ∧
    ∀ pid op w', poolStep pid w op = some w' →
      op.Changes pid w w' ∧ (DropsInherited pid w op ↔ ¬ClearsInherited pid w op) := by
  obtain ⟨lost, hstocked, hlost⟩ := poolCalls_stocked (stocked_new cfg owner) hrun
  have hcfg : w.pool.cfg = cfg := poolCalls_cfg hrun
  refine ⟨?_, hcfg, ?_⟩
  · refine ⟨hstocked.idle, ?_, ?_, hstocked.newest, fun hallocs => ?_⟩
    · rw [hstocked.idle, ← hcfg]
      exact hstocked.within.total
    · rw [← hcfg]
      exact countForHost_le hstocked.within
    · have hcounted := hstocked.counted
      rw [hlost (List.all_eq_true.mpr hallocs)] at hcounted
      unfold PoolStats.settled at hcounted
      rw [hcounted, hstocked.idle]
      omega
  · intro pid op w' hstep
    refine ⟨poolStep_changes hstocked hstep, dropsInherited_iff op ?_⟩
    unfold poolStep at hstep
    split_ifs at hstep with halive
    exact eq_true_of_ne_false halive

/-- A connection that is released while it is quiet. -/
def idleRelease (host : String) (s : Nat) : PoolOp Nat :=
  .release (.mk { PoolKey.init with host := some (ascii host), port := 443 } s .ok 0 [] true 0)

/-- A connection of process 1, which is idle when process 2 is forked. -/
def idleCall : Nat × PoolOp Nat := (1, idleRelease "a.test" 7)

/-- The child that clears the pool closes the connection of its parent. -/
theorem poolRun_clears_inherited :
    ∃ w, Run.exec poolCall (PoolWorld.new ⟨16, 4, 30000, 0⟩ 1) [idleCall] = some w ∧
      w.idleStreams = [7] ∧ w.pool.ownerPid = 1 ∧ w.closed = [] ∧
      (poolStep 2 w .clear).map (fun w' => w'.closed) = some [7] ∧
      ¬DropsInherited 2 w .clear := by
  have hends : (Run.exec poolCall (PoolWorld.new ⟨16, 4, 30000, 0⟩ 1) [idleCall]).map
      (fun w => (w.alive, w.idleStreams, w.pool.ownerPid, w.closed,
        (poolStep 2 w .clear).map (fun w' => w'.closed))) =
      some (true, [7], 1, [], some [7]) := by decide
  obtain ⟨w, hrun, hw⟩ := Option.map_eq_some_iff.mp hends
  simp only [Prod.mk.injEq] at hw
  obtain ⟨halive, hidle, howner, hclosed, hclear⟩ := hw
  refine ⟨w, hrun, hidle, howner, hclosed, hclear, fun hdrops => ?_⟩
  refine (dropsInherited_iff .clear halive).mp hdrops ⟨by rw [howner]; decide, fun hempty => ?_⟩
  unfold idleStreams at hidle
  rw [hempty] at hidle
  cases hidle

/-- A fork in which the child releases two connections of its own into a pool of one place. -/
theorem poolRun_capacity_forked :
    ∃ w w', Run.exec poolCall (PoolWorld.new ⟨1, 4, 30000, 0⟩ 1)
        [idleCall, (2, idleRelease "a.test" 8)] = some w ∧
      Accounted ⟨1, 4, 30000, 0⟩ [idleCall, (2, idleRelease "a.test" 8)]
        (PoolWorld.new ⟨1, 4, 30000, 0⟩ 1) w ∧
      w.closed = [] ∧ w.pool.stats.discardedFork = 1 ∧
      poolStep 2 w (idleRelease "b.test" 9) = some w' ∧
      (idleRelease "b.test" 9).Changes 2 w w' ∧ w'.closed = [8] ∧ w'.idleStreams = [9] := by
  have hends : (Run.exec poolCall (PoolWorld.new ⟨1, 4, 30000, 0⟩ 1)
      [idleCall, (2, idleRelease "a.test" 8)]).map (fun w => (w.closed, w.pool.stats.discardedFork,
        (poolStep 2 w (idleRelease "b.test" 9)).map fun w' => (w'.closed, w'.idleStreams))) =
      some ([], 1, some ([8], [9])) := by decide
  obtain ⟨w, hrun, hw⟩ := Option.map_eq_some_iff.mp hends
  simp only [Prod.mk.injEq] at hw
  obtain ⟨hclosed, hfork, hstep⟩ := hw
  obtain ⟨w', hstep, hw'⟩ := Option.map_eq_some_iff.mp hstep
  simp only [Prod.mk.injEq] at hw'
  obtain ⟨haccounted, -, hcalls⟩ := poolRun_capacity _ 1 _ w hrun
  exact ⟨w, w', hrun, haccounted, hclosed, hfork, hstep, (hcalls 2 _ w' hstep).1, hw'⟩

end Zuhttp
