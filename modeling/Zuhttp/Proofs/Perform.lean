import Mathlib.Data.List.Forall2
import Zuhttp.Proofs.Hops

/-!
# Whole runs

The loop over the hops and `perform` around it: where a run can end, and what the hops in
front of that end left.
-/

namespace Zuhttp

open Prog World

variable {Z : Zlib}

/-! ### The hops in front of one -/

lemma Chained.hops_eq {opts : PerformOpts} {c₀ c : Chain} {past : List (Chain × Answer)}
    (h : Chained opts c₀ past c) : c.hops = c₀.hops + past.length := by
  induction h with
  | start => rfl
  | follow h hnext ih =>
    rw [hnext.turns.hops, ih, List.length_append]
    rfl

lemma Chained.source {opts : PerformOpts} {c₀ c : Chain} {past : List (Chain × Answer)}
    (h : Chained opts c₀ past c) (hlive : c.srcLive = true) : past = [] := by
  cases h with
  | start => rfl
  | follow h hnext =>
    have hdead := hnext.turns.srcLive
    rw [show _ = true from hlive] at hdead
    cases hdead

lemma Chained.length_le {opts : PerformOpts} {c₀ c : Chain} {past : List (Chain × Answer)}
    (h : Chained opts c₀ past c) (hstart : c₀.hops = 0) (hpos : 0 < opts.maxRedirects) :
    past.length ≤ opts.maxRedirects.toNat := by
  cases h with
  | start => exact Nat.zero_le _
  | follow h hnext =>
    have hhops := h.hops_eq
    have hallowed := hnext.turns.allowed hpos
    rw [List.length_append, List.length_singleton]
    omega

/-- What the hops so far did to the source. -/
structure Drawn (src₀ src : Source) : Prop where
  next : src.next = src₀.next
  release : src.release = src₀.release
  released : src.released = src₀.released
  pulled : ∀ n ∈ src.pulled, n = 0

/-- What the hops in front of a pass left. -/
structure Due (call : Call) (c₀ : Chain) (k₀ : Core Z) (past : List (Chain × Answer)) (c : Chain)
    (k : Core Z) : Prop where
  chained : Chained call.opts c₀ past c
  allowed : past ≠ [] → 0 < call.opts.maxRedirects
  sent : List.Forall₂ (fun h r => Records call k₀.source.answers h.1 r) past k.sent
  answered : k.answered = past.map Prod.snd
  source : Drawn k₀.source k.source
  unpulled : past = [] → k.source = k₀.source
  sink : k.sink = k₀.sink
  clear : Clear k

variable {env : Env} {call : Call} {c₀ c : Chain} {k₀ k : Core Z} {past : List (Chain × Answer)}

lemma Drawn.pulls {src src' : Source} (h : Drawn k₀.source src) (hp : Pulls c src src')
    (hfirst : c.srcLive = true → c.hops = 0) : Drawn k₀.source src' where
  next := hp.next.trans h.next
  release := hp.release.trans h.release
  released := hp.released.trans h.released
  pulled := by
    obtain ⟨n, hn, hdead⟩ := hp.pulled
    rw [hn]
    intro m hm
    rcases List.mem_append.mp hm with hm | hm
    · exact h.pulled m hm
    · cases hlive : c.srcLive with
      | false =>
        rw [hdead hlive] at hm
        cases hm
      | true => rw [List.eq_of_mem_replicate hm, hfirst hlive]

lemma Due.first (h : Due call c₀ k₀ past c k) (hstart : c₀.hops = 0) (hlive : c.srcLive = true) :
    c.hops = 0 := by
  rw [h.chained.hops_eq, h.chained.source hlive, hstart]
  rfl

/-- Only the first hop streams a body. -/
lemma Due.records {r : Sent} (h : Due call c₀ k₀ past c k)
    (hr : Records call k.source.answers c r) : Records call k₀.source.answers c r where
  hop := hr.hop
  uri := hr.uri
  body := hr.body
  streamed := hr.streamed
  rq := hr.rq
  source := fun hh1 hlive => by
    rw [← h.unpulled (h.chained.source (hr.streamed ▸ hlive))]
    exact hr.source hh1 hlive
  written := hr.written

/-- A hop that was followed is in front of the next. -/
lemma Due.follow {c' : Chain} {r : Sent} {src : Source} {a : Answer}
    (h : Due call c₀ k₀ past c k) (hstart : c₀.hops = 0) (hr : Records call k.source.answers c r)
    (hsrc : Pulls c k.source src) (hnext : Follows call.opts c a.status c')
    (hpos : 0 < call.opts.maxRedirects) :
    Due call c₀ k₀ (past ++ [(c, a)]) c' (k.answer r src a) where
  chained := .follow h.chained hnext
  allowed := fun _ => hpos
  sent := List.rel_append h.sent (.cons (h.records hr) .nil)
  answered := by
    rw [List.map_append, ← h.answered]
    rfl
  source := h.source.pulls hsrc (h.first hstart)
  unpulled := fun hnil => by simp at hnil
  sink := h.sink
  clear := ⟨h.clear.body, h.clear.openBody⟩

lemma Due.length_le (h : Due call c₀ k₀ past c k) (hstart : c₀.hops = 0) :
    past.length ≤ call.opts.maxRedirects.toNat := by
  by_cases hnil : past = []
  · rw [hnil]
    exact Nat.zero_le _
  · exact h.chained.length_le hstart (h.allowed hnil)

/-! ### The loop -/

/-- The last hop's response is the result. -/
def Finished (env : Env) (call : Call) (c₀ : Chain) (k₀ : Core Z) (c : Chain) (w : World Z) :
    Prop :=
  ∃ past k r src a s k', Due call c₀ k₀ past c k ∧ Records call k.source.answers c r ∧
    Pulls c k.source src ∧ mayFollow call.opts a = false ∧
    Lands env call c s a (k.answer r src a) k' w

/-- The last hop failed. -/
def Failed (call : Call) (c₀ : Chain) (k₀ : Core Z) (w : World Z) : Prop :=
  ∃ past c k k', Due call c₀ k₀ past c k ∧ Breaks call c k k' ∧ w.At [] k'

/-- The loop ends before its bound does. -/
theorem hops_at (hstart : c₀.hops = 0) (n : Nat) (past : List (Chain × Answer)) (c : Chain)
    (k : Core Z) (hdue : Due call c₀ k₀ past c k)
    (hn : past.length + n = call.opts.maxRedirects.toNat + 1) :
    Triple (At [] k) (hops env call n c) (fun c' => Finished env call c₀ k₀ c')
      (fun _ => Failed call c₀ k₀) := by
  induction n generalizing past c k with
  | zero =>
    exfalso
    have hle := hdue.length_le hstart
    omega
  | succ n ih =>
    refine Triple.bind ((hop_at env call c hdue.clear).conseq (fun _ hw => hw)
      (fun _ _ hw => hw) (fun _ w hw => ?_)) (fun e => ?_)
    · obtain ⟨k', hbreaks, hat⟩ := hw
      exact ⟨past, c, k, k', hdue, hbreaks, hat⟩
    · intro w hw
      obtain ⟨r, src, a, hr, hsrc, hend⟩ := hw
      cases e with
      | follow c' =>
        obtain ⟨hnext, hpos, hat⟩ := hend
        refine ih (past ++ [(c, a)]) c' _ (hdue.follow hstart hr hsrc hnext hpos) ?_ w hat
        rw [List.length_append, List.length_singleton]
        omega
      | finish c' =>
        obtain ⟨rfl, hkeep, s, k', hlands⟩ := hend
        exact ⟨past, k, r, src, a, s, k', hdue, hr, hsrc, hkeep, hlands⟩

lemma hops_due (hstart : c₀.hops = 0) {n m : Nat} (hdue : Due call c₀ k₀ past c k)
    (hn : call.opts.maxRedirects.toNat + 1 ≤ past.length + n) (hm : n ≤ m) {w : World Z}
    (hw : w.At [] k) : exec (hops env call m c) w = exec (hops env call n c) w := by
  induction n generalizing m past c k w with
  | zero =>
    exfalso
    have hle := hdue.length_le hstart
    omega
  | succ n ih =>
    obtain ⟨m, rfl⟩ : ∃ m', m = m' + 1 := ⟨m - 1, by omega⟩
    rw [hops, hops, exec_bind, exec_bind]
    cases hrun : exec (hop env call c) w with
    | mk res w' =>
      cases res with
      | error e => rfl
      | ok e =>
        obtain ⟨r, src, a, hr, hsrc, hend⟩ := (hop_at env call c hdue.clear).ok hw hrun
        cases e with
        | finish c' => rfl
        | follow c' =>
          obtain ⟨hnext, hpos, hat⟩ := hend
          refine ih (hdue.follow hstart hr hsrc hnext hpos) ?_ (by omega) hat
          rw [List.length_append, List.length_singleton]
          omega

/-- What a call starts with is in front of its first pass. -/
lemma due_start (hclear : Clear k₀) (hsent : k₀.sent = []) (hanswered : k₀.answered = [])
    (hpulled : k₀.source.pulled = []) : Due call c₀ k₀ [] c₀ k₀ where
  chained := .start
  allowed := fun h => absurd rfl h
  sent := by
    rw [hsent]
    exact .nil
  answered := hanswered
  source := ⟨rfl, rfl, rfl, by simp [hpulled]⟩
  unpulled := fun _ => rfl
  sink := rfl
  clear := hclear

/-- The loop does not come to its bound: with any larger one a call runs alike. -/
theorem hops_bound (hstarts : Starts call k₀.source.next c₀) (hclear : Clear k₀)
    (hsent : k₀.sent = []) (hanswered : k₀.answered = []) (hpulled : k₀.source.pulled = [])
    {n : Nat} (hn : call.opts.maxRedirects.toNat + 1 ≤ n) {w : World Z} (hw : w.At [] k₀) :
    exec (hops env call n c₀) w =
      exec (hops env call (call.opts.maxRedirects.toNat + 1) c₀) w :=
  hops_due hstarts.hops (due_start hclear hsent hanswered hpulled) (by simp) hn hw

/-! ### The result -/

lemma Finished.onHost {α : Type} (m : HostProg α) :
    Keeps (Finished env call c₀ k₀ c) (World.onHost m) := by
  refine Keeps.zoom (fun h w hw => ?_)
  obtain ⟨past, k, r, src, a, s, k', hdue, hr, hsrc, hkeep, hlands⟩ := hw
  exact ⟨past, k, r, src, a, s, k', hdue, hr, hsrc, hkeep,
    ⟨hlands.holds.owned, hlands.holds.core⟩, hlands.takes, hlands.status⟩

/-- The target of the last hop is in the result. -/
lemma finishResult_at : Keeps (Finished env call c₀ k₀ c) (finishResult (Z := Z) call c) := by
  refine Triple.reading (fun w _ => ?_)
  refine Keeps.bind (Finished.onHost _) (fun _ => Keeps.bind (Finished.onHost _) (fun url => ?_))
  cases url with
  | none => exact Keeps.throw _
  | some url =>
    refine Keeps.modify (fun w hw => ?_)
    obtain ⟨past, k, r, src, a, s, k', hdue, hr, hsrc, hkeep, hlands⟩ := hw
    exact ⟨past, k, r, src, a, s, k', hdue, hr, hsrc, hkeep,
      ⟨hlands.holds.owned, hlands.holds.core⟩, hlands.takes, hlands.status⟩

/-- Where a call can fail, before its result is freed. -/
def Reached (env : Env) (call : Call) (k₀ : Core Z) (w : World Z) : Prop :=
  w.At [] k₀ ∨ ∃ c₀, Starts call k₀.source.next c₀ ∧
    (Failed call c₀ k₀ w ∨ ∃ c, Finished env call c₀ k₀ c w)

theorem performHops_at (hclear : Clear k₀) (hsent : k₀.sent = []) (hanswered : k₀.answered = [])
    (hpulled : k₀.source.pulled = []) :
    Triple (At [] k₀) (performHops env call)
      (fun _ w => ∃ c₀, Starts call k₀.source.next c₀ ∧ ∃ c, Finished env call c₀ k₀ c w)
      (fun _ w => ∃ w', Reached env call k₀ w' ∧ w = w'.freeResult) := by
  refine Triple.onFailure (D := fun _ => Reached env call k₀) ?_ (fun _ w hw => ⟨w, hw, rfl⟩)
  refine Triple.bind (M := fun _ => At [] k₀) (Triple.modify (fun w hw => ⟨hw.owned, ?_⟩))
    (fun _ => ?_)
  · have hcore := hw.core
    rw [← hcore] at hclear ⊢
    exact congrArg₂ (fun b o => ({ w.core with body := b, openBody := o } : Core Z))
      hclear.body.symm hclear.openBody.symm
  refine Triple.bind (At.surely (Host.traceAddUrl_sure _ _ _ _)).triple (fun _ => ?_)
  refine Triple.reading (fun w hw => ?_)
  have hsource : w.source = k₀.source := congrArg Core.source hw.core
  rw [hsource]
  refine Triple.bind ((At.gives (startChain_gives env.uri call k₀.source.next)).conseq
    (fun _ hw => hw) (fun _ _ hw => hw) (fun _ _ hw => Or.inl hw))
    (fun c₀ => Triple.assuming (fun hstarts => ?_))
  have hdue : Due call c₀ k₀ [] c₀ k₀ := due_start hclear hsent hanswered hpulled
  refine Triple.bind ((hops_at hstarts.hops _ [] c₀ k₀ hdue (by simp)).conseq (fun _ hw => hw)
    (fun _ _ hw => hw) (fun _ _ hw => Or.inr ⟨c₀, hstarts, Or.inl hw⟩)) (fun c => ?_)
  exact finishResult_at.conseq (fun _ hw => hw) (fun _ _ hw => ⟨c₀, hstarts, c, hw⟩)
    (fun _ _ hw => Or.inr ⟨c₀, hstarts, Or.inr ⟨c, hw⟩⟩)

lemma closeOpen_same (o : Held Z) (w : World Z) : (w.closeOpen o).source = w.source ∧
    (w.closeOpen o).result = w.result ∧ (w.closeOpen o).opened = w.opened ∧
    (w.closeOpen o).sent = w.sent ∧ (w.closeOpen o).answered = w.answered := by
  unfold closeOpen
  split <;> exact ⟨rfl, rfl, rfl, rfl, rfl⟩

/-- What freeing the result leaves alone. -/
structure Frees (w w' : World Z) : Prop where
  release : w'.source.release = w.source.release
  pulled : w'.source.pulled = w.source.pulled
  opened : w'.opened = w.opened
  sent : w'.sent = w.sent
  answered : w'.answered = w.answered

lemma freeResult_same (w : World Z) : Frees w w.freeResult := by
  unfold freeResult
  dsimp only
  cases w.result.openBody with
  | none => exact ⟨rfl, rfl, rfl, rfl, rfl⟩
  | some o =>
    obtain ⟨hsource, -, hopened, hsent, hanswered⟩ := closeOpen_same o { w with result := {} }
    have hrelease := congrArg Source.release hsource
    have hpulled := congrArg Source.pulled hsource
    dsimp only
    unfold freeOpen
    split_ifs <;> exact ⟨hrelease, hpulled, hopened, hsent, hanswered⟩

/-- The core a call starts with. -/
lemma start_clear (host : Host) (next release : Bool) (answers : List (Except Fail Bytes))
    (sink : Option Sink) : Clear (World.start (Z := Z) host next release answers sink).core :=
  ⟨rfl, rfl⟩

lemma start_at (host : Host) (next release : Bool) (answers : List (Except Fail Bytes))
    (sink : Option Sink) : (World.start (Z := Z) host next release answers sink).At []
      (World.start (Z := Z) host next release answers sink).core :=
  ⟨List.Perm.refl _, rfl⟩

/-- A call ends with a response in the result or with an error and nothing in it. -/
theorem perform_at (env : Env) (call : Call) (hclear : Clear k₀) (hsent : k₀.sent = [])
    (hanswered : k₀.answered = []) (hpulled : k₀.source.pulled = []) :
    Triple (At [] k₀) (perform env call)
      (fun _ w => ∃ w' c₀ c, Starts call k₀.source.next c₀ ∧ Finished env call c₀ k₀ c w' ∧
        w = releaseSource w')
      (fun _ w => ∃ w' h, Reached env call k₀ w' ∧
        w = (releaseSource w'.freeResult).setHost h) := by
  refine Triple.bind (M := fun _ => At [] k₀) (Triple.conseq (At.surely (Sure.modify
    (fun _ _ => trivial))) (fun _ hw => hw) (fun _ _ hw => hw) (fun _ _ hw => hw.elim))
    (fun _ => ?_)
  refine Triple.bind (Triple.attempt (performHops_at hclear hsent hanswered hpulled))
    (fun res => ?_)
  refine Triple.bind (M := fun _ w => ∃ w', w = releaseSource w' ∧
      ((∃ u, res = .ok u) → ∃ c₀ c, Starts call k₀.source.next c₀ ∧ Finished env call c₀ k₀ c w') ∧
      ((∃ rc, res = .error rc) → ∃ w'', Reached env call k₀ w'' ∧ w' = w''.freeResult))
    (Triple.modify (fun w hw => ⟨w, rfl, ?_, ?_⟩)) (fun _ => ?_)
  · rintro ⟨u, rfl⟩
    obtain ⟨c₀, hstarts, c, hfin⟩ := hw
    exact ⟨c₀, c, hstarts, hfin⟩
  · rintro ⟨rc, rfl⟩
    exact hw
  · cases res with
    | ok u =>
      refine Triple.pure (fun w hw => ?_)
      obtain ⟨w', rfl, hok, -⟩ := hw
      obtain ⟨c₀, c, hstarts, hfin⟩ := hok ⟨u, rfl⟩
      exact ⟨w', c₀, c, hstarts, hfin, rfl⟩
    | error rc =>
      refine Triple.bind (M := fun _ w => ∃ w' h, Reached env call k₀ w' ∧
        w = (releaseSource w'.freeResult).setHost h) ?_ (fun _ => Triple.throw (fun _ hw => hw))
      intro w hw
      obtain ⟨w', rfl, -, herror⟩ := hw
      obtain ⟨w'', hreached, rfl⟩ := herror ⟨rc, rfl⟩
      cases hrun : exec (fillError rc) (releaseSource w''.freeResult).host with
      | mk r h =>
        rw [World.onHost, exec_zoom, hrun]
        cases r with
        | ok u => exact ⟨w'', h, hreached, rfl⟩
        | error e => exact ⟨w'', h, hreached, rfl⟩

end Zuhttp
