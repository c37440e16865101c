import Zuhttp.Library.Run
import Zuhttp.PoolKey
import Zuhttp.Reuse

/-!
# The connection pool

`zuh_pool.c` over an arbitrary type of streams. The readiness probe, the keepalive PING,
the clock and the allocator answer from outside; a probe or a PING may run R, whose
finalizers may release other streams into the same pool, and such releases are nested in
the answer.
-/

namespace Zuhttp

/-- The entry list is ordered most recently released first. -/
structure PoolEntry (σ : Type) where
  key : PoolKey
  stream : σ
  idleSince : Int

structure PoolConfig where
  maxIdle : Nat
  maxPerHost : Nat
  idleTimeoutMs : Int
  keepaliveTimeMs : Int

structure PoolStats where
  idle : Nat := 0
  hits : Nat := 0
  misses : Nat := 0
  discardedStale : Nat := 0
  discardedExpired : Nat := 0
  discardedCapacity : Nat := 0
  discardedUnusable : Nat := 0
  discardedFork : Nat := 0
  forksDetected : Nat := 0

structure Pool (σ : Type) where
  entries : List (PoolEntry σ)
  idle : Nat
  cfg : PoolConfig
  ownerPid : Nat
  stats : PoolStats

/-- A pool and what has happened to streams so far: the releases asked of the pool, the
entries it stored (newest first), the streams it handed out, closed and freed. -/
structure PoolWorld (σ : Type) where
  pool : Pool σ
  alive : Bool
  released : List (PoolKey × σ × Reuse)
  stored : List (PoolEntry σ)
  handed : List σ
  closed : List σ
  freed : List σ

/-- One call of `zuh_pool_release`, with the answers of the outside during it. -/
inductive ReleaseCall (σ : Type)
  | mk (key : PoolKey) (stream : σ) (reuse : Reuse) (readable : Int)
      (duringProbe : List (ReleaseCall σ)) (allocOk : Bool) (now : Int)

/-- The answers of the outside while `zuh_pool_acquire_by` examines one entry. -/
structure Check (σ : Type) where
  readable : Int
  duringProbe : List (ReleaseCall σ)
  isH2 : Bool
  idleMs : Int
  pingOk : Bool
  duringPing : List (ReleaseCall σ)

variable {σ : Type}

namespace PoolWorld

def new (cfg : PoolConfig) (pid : Nat) : PoolWorld σ :=
  { pool := ⟨[], 0, cfg, pid, {}⟩, alive := true, released := [], stored := [], handed := [],
    closed := [], freed := [] }

def stat (w : PoolWorld σ) (f : PoolStats → PoolStats) : PoolWorld σ :=
  { w with pool := { w.pool with stats := f w.pool.stats } }

/-- `zuh_stream_close`, unless the stream is inherited, and `zuh_stream_free`. -/
def destroy (graceful : Bool) (s : σ) (w : PoolWorld σ) : PoolWorld σ :=
  { w with closed := if graceful then s :: w.closed else w.closed, freed := s :: w.freed }

def destroyAll (graceful : Bool) : List (PoolEntry σ) → PoolWorld σ → PoolWorld σ
  | [], w => w
  | e :: es, w => destroyAll graceful es (w.destroy graceful e.stream)

def clear (w : PoolWorld σ) : PoolWorld σ :=
  let w := w.destroyAll true w.pool.entries
  { w with pool := { w.pool with entries := [], idle := 0, stats.idle := 0 } }

def checkFork (pid : Nat) (w : PoolWorld σ) : PoolWorld σ :=
  if w.pool.ownerPid = pid then w
  else
    let dropped := w.pool.entries.length
    let w := w.destroyAll false w.pool.entries
    let w := { w with pool := { w.pool with entries := [], idle := 0, stats.idle := 0 } }
    let w := w.stat (fun t => { t with
      discardedFork := t.discardedFork + dropped, forksDetected := t.forksDetected + 1 })
    { w with pool := { w.pool with ownerPid := pid } }

def free (pid : Nat) (w : PoolWorld σ) : PoolWorld σ :=
  let w := if w.pool.ownerPid ≠ pid then w.checkFork pid else w.clear
  { w with alive := false }

def countForHost (w : PoolWorld σ) (key : PoolKey) : Nat :=
  (w.pool.entries.filter (fun e => e.key.sameHost key)).length

/-- The last entry that matches is the oldest, as the list is newest first. -/
def evictOldest (hostOf : Option PoolKey) (w : PoolWorld σ) : PoolWorld σ :=
  let matching (e : PoolEntry σ) : Bool := hostOf.all (fun k => e.key.sameHost k)
  match w.pool.entries.reverse.find? matching with
  | none => w
  | some e =>
    let rest := (w.pool.entries.reverse.eraseP matching).reverse
    let w := { w with pool := { w.pool with entries := rest } }
    let w := w.destroy true e.stream
    let w := { w with pool := { w.pool with idle := w.pool.idle - 1 } }
    w.stat (fun t => { t with discardedCapacity := t.discardedCapacity + 1 })

/-- `while (p->idle >= p->cfg.max_idle) evict_oldest(p, NULL)`, cut off after `n` passes. -/
def evictToLimit : Nat → PoolWorld σ → PoolWorld σ
  | 0, w => w
  | n + 1, w =>
    if w.pool.idle ≥ w.pool.cfg.maxIdle then evictToLimit n (w.evictOldest none) else w

/-- The tail of `zuh_pool_release`: make room, then store the entry in front. -/
def store (e : PoolEntry σ) (w : PoolWorld σ) : PoolWorld σ :=
  let w := if w.pool.cfg.maxPerHost > 0 ∧ w.countForHost e.key ≥ w.pool.cfg.maxPerHost then
      w.evictOldest (some e.key) else w
  let w := w.evictToLimit w.pool.idle
  let w := { w with pool := { w.pool with
    entries := e :: w.pool.entries, idle := w.pool.idle + 1 }, stored := e :: w.stored }
  w.stat (fun t => { t with idle := w.pool.idle })

mutual

/-- `zuh_pool_release`. -/
def release (pid : Nat) : ReleaseCall σ → PoolWorld σ → PoolWorld σ
  | .mk key s reuse readable duringProbe allocOk now, w =>
    let w := { w with released := (key, s, reuse) :: w.released }
    let w := w.checkFork pid
    if reuse ≠ .ok then
      (w.stat (fun t => { t with discardedUnusable := t.discardedUnusable + 1 })).destroy true s
    else
      let w := releases pid duringProbe w
      if readable = 1 then
        (w.stat (fun t => { t with discardedStale := t.discardedStale + 1 })).destroy true s
      else if w.pool.cfg.maxIdle = 0 then
        (w.stat (fun t =>
          { t with discardedCapacity := t.discardedCapacity + 1 })).destroy true s
      else if allocOk = false then w.destroy true s
      else w.store ⟨key, s, now⟩

def releases (pid : Nat) : List (ReleaseCall σ) → PoolWorld σ → PoolWorld σ
  | [], w => w
  | c :: cs, w => releases pid cs (release pid c w)

end

/-- The entry has reached the idle timeout. -/
def expired (w : PoolWorld σ) (e : PoolEntry σ) (now : Int) : Bool :=
  w.pool.cfg.idleTimeoutMs > 0 ∧ now - e.idleSince ≥ w.pool.cfg.idleTimeoutMs

def entryUnusable (pid : Nat) (e : PoolEntry σ) (now : Int) (c : Check σ)
    (w : PoolWorld σ) : Bool × PoolWorld σ :=
  if w.expired e now then
    (true, w.stat (fun t => { t with discardedExpired := t.discardedExpired + 1 }))
  else
    let w := releases pid c.duringProbe w
    if c.readable = 1 then
      (true, w.stat (fun t => { t with discardedStale := t.discardedStale + 1 }))
    else if w.pool.cfg.keepaliveTimeMs > 0 ∧ c.isH2 ∧ c.idleMs ≥ w.pool.cfg.keepaliveTimeMs then
      let w := releases pid c.duringPing w
      if c.pingOk = false then
        (true, w.stat (fun t => { t with discardedStale := t.discardedStale + 1 }))
      else (false, w)
    else (false, w)

/-- The walk to the first entry under the key, which leaves the list. -/
def unlinkFirst (key : PoolKey) (w : PoolWorld σ) : Option (PoolEntry σ × PoolWorld σ) :=
  match w.pool.entries.find? (fun e => e.key.eq key) with
  | none => none
  | some e =>
    some (e, { w with pool := { w.pool with
      entries := w.pool.entries.eraseP (fun e => e.key.eq key), idle := w.pool.idle - 1 } })

/-- One pass of the loop of `zuh_pool_acquire_by` over the next entry under the key. -/
inductive Turn (σ : Type)
  | miss
  | hit (s : σ) (w : PoolWorld σ)
  | again (w : PoolWorld σ)

def acquireTurn (pid : Nat) (key : PoolKey) (now : Int) (c : Check σ) (w : PoolWorld σ) :
    Turn σ :=
  match w.unlinkFirst key with
  | none => .miss
  | some (e, w) =>
    match w.entryUnusable pid e now c with
    | (true, w) => .again (w.destroy true e.stream)
    | (false, w) =>
      .hit e.stream ({ w with handed := e.stream :: w.handed }.stat
        (fun t => { t with hits := t.hits + 1, idle := w.pool.idle }))

/-- The loop of `zuh_pool_acquire_by`. It has no result while the outside still owes an
answer for an entry. -/
def acquireLoop (pid : Nat) (key : PoolKey) (now : Int) :
    List (Check σ) → PoolWorld σ → Option (Option σ × PoolWorld σ)
  | checks, w =>
    match w.unlinkFirst key with
    | none => some (none, w.stat (fun t => { t with misses := t.misses + 1, idle := w.pool.idle }))
    | some _ =>
      match checks with
      | [] => none
      | c :: checks =>
        match w.acquireTurn pid key now c with
        | .miss => none
        | .hit s w => some (some s, w)
        | .again w => acquireLoop pid key now checks w

def acquireBy (pid : Nat) (key : PoolKey) (now : Int) (checks : List (Check σ))
    (w : PoolWorld σ) : Option (Option σ × PoolWorld σ) :=
  acquireLoop pid key now checks (w.checkFork pid)

end PoolWorld

/-- A call on the pool. -/
inductive PoolOp (σ : Type)
  | acquireBy (key : PoolKey) (now : Int) (checks : List (Check σ))
  | release (call : ReleaseCall σ)
  | clear
  | free

/-- The calls of one process. No call is made on a freed pool. -/
def poolStep (pid : Nat) (w : PoolWorld σ) (op : PoolOp σ) : Option (PoolWorld σ) :=
  if w.alive = false then none
  else
    match op with
    | .acquireBy key now checks => (w.acquireBy pid key now checks).map Prod.snd
    | .release call => some (w.release pid call)
    | .clear => some w.clear
    | .free => some (w.free pid)

end Zuhttp
