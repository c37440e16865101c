import Zuhttp.Proofs.OpenBody
import Zuhttp.Proofs.Perform

/-!
# Connections and the body source

Every stream object of a call is closed, passed to the pool or held by the unread body, once,
and the source is released once.
-/

namespace Zuhttp

open Prog World

variable {Z : Zlib} {env : Env} {call : Call} {c₀ c : Chain} {k₀ k k' : Core Z} {s : Stream}
  {a : Answer} {w : World Z}

namespace World

/-- The stream objects the unread body of the result holds. -/
def heldLayers (w : World Z) : List Nat := w.core.held

/-- Whether the unread body of the result is to release the source. -/
def inherited (w : World Z) : Bool := w.result.openBody.any Held.release

/-- Every stream object is closed, pooled or held, once; the source was released, is due to
be by the end of the call or is the unread body's to release, `total` times in all. -/
structure Balanced (due total : Nat) (w : World Z) : Prop where
  streams : w.Owned w.heldLayers
  source : w.source.released + due + w.inherited.toNat = total
  once : ∀ o, w.result.openBody = some o → o.body.ReleasedOnce

/-- How often the source was released and is to be. -/
def Core.owed (k : Core Z) : Nat :=
  k.source.released + k.source.release.toNat + (k.openBody.any Held.release).toNat

end World

lemma takes_owed {h : Headers} (ht : Takes env call c s a k h k') (hclear : Clear k) :
    k'.owed = k.owed := by
  cases ht with
  | drained hfollow hres => rfl
  | buffered hfollow hsink hres => rfl
  | written hfollow hsink hres => rfl
  | held key hfollow hsink hnew =>
    unfold Core.owed
    rw [hclear.openBody]
    cases hin : inherits c a with
    | false => rfl
    | true =>
      cases hrel : k.source.release <;> rfl

lemma takes_once {h : Headers} (ht : Takes env call c s a k h k') (hclear : Clear k) :
    ∀ o, k'.openBody = some o → o.body.ReleasedOnce := by
  cases ht with
  | drained hfollow hres => exact fun o ho => nomatch hclear.openBody.symm.trans ho
  | buffered hfollow hsink hres => exact fun o ho => nomatch hclear.openBody.symm.trans ho
  | written hfollow hsink hres => exact fun o ho => nomatch hclear.openBody.symm.trans ho
  | held key hfollow hsink hnew =>
    intro o ho
    cases ho
    unfold OpenBody.new at hnew
    split at hnew
    · cases hnew
    · cases hnew
      rfl

/-! ### Freeing -/

namespace World

lemma held_of_some {o : Held Z} (ho : w.result.openBody = some o) :
    w.heldLayers = o.stream.layers := by
  change w.result.openBody.elim [] _ = _
  rw [ho]
  rfl

lemma held_of_none (ho : w.result.openBody = none) : w.heldLayers = [] := by
  change w.result.openBody.elim [] _ = _
  rw [ho]
  rfl

lemma closeOpen_owned {o : Held Z} (h : w.Owned o.stream.layers) : (w.closeOpen o).Owned [] := by
  unfold closeOpen
  split
  · exact h.pool _ _
  · exact h.drop

/-- An unread body gives its connection and the source back. -/
lemma freeOpen_balanced {due total : Nat} {o : Held Z} (ho : w.result.openBody = none)
    (hown : w.Owned o.stream.layers)
    (hsource : w.source.released + due + o.release.toNat = total) :
    (w.freeOpen o).Balanced due total ∧ (w.freeOpen o).result.openBody = none := by
  obtain ⟨hsame, hresult, -⟩ := closeOpen_same o w
  have hnone : (w.closeOpen o).result.openBody = none := by rw [hresult, ho]
  have hinherited : (w.closeOpen o).inherited = false := by
    unfold inherited
    rw [hnone]
    rfl
  unfold freeOpen
  cases hrel : o.release with
  | true =>
    rw [if_pos rfl]
    refine ⟨⟨?_, ?_, fun o' ho' => nomatch hnone.symm.trans ho'⟩, hnone⟩
    · rw [held_of_none (w := (w.closeOpen o).callRelease) hnone]
      exact closeOpen_owned hown
    · change (w.closeOpen o).source.released + 1 + due + (w.closeOpen o).inherited.toNat = total
      rw [hinherited, hsame, ← hsource, hrel]
      simp only [Bool.toNat_false, Bool.toNat_true]
      omega
  | false =>
    rw [if_neg (by simp)]
    refine ⟨⟨?_, ?_, fun o' ho' => nomatch hnone.symm.trans ho'⟩, hnone⟩
    · rw [held_of_none hnone]
      exact closeOpen_owned hown
    · rw [hinherited, hsame, ← hsource, hrel]

lemma freeResult_balanced {due total : Nat} (h : w.Balanced due total) :
    w.freeResult.Balanced due total ∧ w.freeResult.result.openBody = none := by
  have hstreams := h.streams
  have hsource := h.source
  unfold inherited at hsource
  unfold freeResult
  dsimp only
  cases ho : w.result.openBody with
  | none =>
    rw [held_of_none ho] at hstreams
    rw [ho] at hsource
    exact ⟨⟨hstreams, hsource, fun o (hsome : none = some o) => nomatch hsome⟩, rfl⟩
  | some o =>
    rw [held_of_some ho] at hstreams
    rw [ho] at hsource
    have hown : ({ w with result := {} } : World Z).Owned o.stream.layers := hstreams
    have hdue : w.source.released + due + o.release.toNat = total := hsource
    exact freeOpen_balanced (w := { w with result := {} }) rfl hown hdue

lemma releaseSource_balanced {total : Nat} (h : w.Balanced w.source.release.toNat total) :
    (releaseSource w).Balanced 0 total := by
  have hsource := h.source
  unfold releaseSource
  cases hrel : w.source.release with
  | true =>
    rw [hrel] at hsource
    refine ⟨h.streams, ?_, h.once⟩
    change w.source.released + 1 + 0 + w.inherited.toNat = total
    simpa using hsource
  | false =>
    rw [hrel] at hsource
    exact ⟨h.streams, hsource, h.once⟩

/-- The caller may read and abort the unread body. -/
lemma callBody_balanced {due total : Nat} (cs : List OpenBody.Call) (h : w.Balanced due total) :
    (w.callBody cs).Balanced due total := by
  have hstreams := h.streams
  have hsource := h.source
  unfold inherited at hsource
  cases ho : w.result.openBody with
  | none =>
    have hsame : w.callBody cs = w := by
      unfold callBody
      rw [ho, Option.map_none, ← ho]
    rw [hsame]
    exact h
  | some o =>
    rw [held_of_some ho] at hstreams
    rw [ho] at hsource
    have hcalled : (w.callBody cs).result.openBody = some { o with body := o.body.calls cs } :=
      congrArg (Option.map _) ho
    refine ⟨?_, ?_, fun o' ho' => ?_⟩
    · rw [held_of_some hcalled]
      exact hstreams
    · unfold inherited
      rw [hcalled]
      exact hsource
    · rw [hcalled] at ho'
      cases ho'
      exact OpenBody.calls_once cs (h.once o ho)

end World

/-! ### A call -/

/-- A world is balanced when its core owes what the call started with. -/
lemma balanced_of_core {w : World Z} (hat : w.At k.held k) (howed : k.owed = k₀.owed)
    (honce : ∀ o, k.openBody = some o → o.body.ReleasedOnce) :
    w.Balanced w.source.release.toNat k₀.owed := by
  have hcore := hat.core
  have hstreams := hat.owned
  subst hcore
  exact ⟨hstreams, howed, honce⟩

lemma Drawn.owed {src : Source} (h : Drawn k₀.source src) (hclear : Clear k₀)
    (hsrc : k.source = src) (hopen : k.openBody = none) : k.owed = k₀.owed := by
  unfold Core.owed
  rw [hsrc, hopen, hclear.openBody, h.release, h.released]

lemma Finished.balanced (hclear : Clear k₀) (hstart : c₀.hops = 0)
    (h : Finished env call c₀ k₀ c w) : w.Balanced w.source.release.toNat k₀.owed := by
  obtain ⟨past, k, r, src, a, s, k', hdue, hr, hsrc, hkeep, hlands⟩ := h
  have hanswer : Clear (k.answer r src a) := ⟨hdue.clear.body, hdue.clear.openBody⟩
  refine balanced_of_core hlands.holds ?_ (takes_once hlands.takes hanswer)
  rw [takes_owed hlands.takes hanswer]
  exact (hdue.source.pulls hsrc (hdue.first hstart)).owed hclear rfl hdue.clear.openBody

lemma Failed.balanced (hclear : Clear k₀) (hstart : c₀.hops = 0) (h : Failed call c₀ k₀ w) :
    w.Balanced w.source.release.toNat k₀.owed := by
  obtain ⟨past, c, k, k', hdue, hbreaks, hat⟩ := h
  refine balanced_of_core (heldless hat hbreaks.openBody) ?_
    (fun o ho => nomatch hbreaks.openBody.symm.trans ho)
  exact (hdue.source.pulls hbreaks.source (hdue.first hstart)).owed hclear rfl hbreaks.openBody

lemma Reached.balanced (hclear : Clear k₀) (h : Reached env call k₀ w) :
    w.Balanced w.source.release.toNat k₀.owed := by
  rcases h with hat | ⟨c₀, hstarts, hfailed | ⟨c, hfinished⟩⟩
  · exact balanced_of_core (heldless hat hclear.openBody) rfl
      (fun o ho => nomatch hclear.openBody.symm.trans ho)
  · exact hfailed.balanced hclear hstarts.hops
  · exact hfinished.balanced hclear hstarts.hops

/-- A call ends balanced, and a call that fails holds nothing. -/
lemma perform_balanced (env : Env) (call : Call) (host : Host) (next release : Bool)
    (answers : List (Except Fail Bytes)) (sink : Option Sink) :
    Triple (fun w => w = World.start host next release answers sink) (perform (Z := Z) env call)
      (fun _ w => w.Balanced 0 release.toNat)
      (fun _ w => w.Balanced 0 release.toNat ∧ w.result.openBody = none) := by
  have hclear := start_clear (Z := Z) host next release answers sink
  have howed : (World.start (Z := Z) host next release answers sink).core.owed = release.toNat :=
    Nat.zero_add _
  rw [← howed]
  refine (perform_at env call hclear rfl rfl rfl).conseq ?_ ?_ ?_
  · rintro w rfl
    exact start_at host next release answers sink
  · rintro - w ⟨w', c₀, c, hstarts, hfinished, rfl⟩
    exact releaseSource_balanced (hfinished.balanced hclear hstarts.hops)
  · rintro - w ⟨w', h, hreached, rfl⟩
    have hfreed := freeResult_balanced (hreached.balanced hclear)
    rw [← (freeResult_same w').release] at hfreed
    have hreleased := releaseSource_balanced hfreed.1
    refine ⟨⟨hreleased.streams, hreleased.source, hreleased.once⟩, ?_⟩
    have hsame : (releaseSource w'.freeResult).result = w'.freeResult.result := by
      unfold releaseSource
      split_ifs <;> rfl
    exact (congrArg Result.openBody hsame).trans hfreed.2

/-- Whatever fails and whenever: at the end of a call every stream object it made or took out
of the pool was closed, was passed to the pool or is held by the unread body, once, and a
call that fails holds none; the source was released once or is the unread body's to release.
Once the unread body is freed, whatever the caller did with it, nothing is held, its
connection was given back once and the source was released once. -/
theorem perform_owns (env : Env) (call : Call) (host : Host) (next release : Bool)
    (answers : List (Except Fail Bytes)) (sink : Option Sink) :
    let run := exec (perform (Z := Z) env call) (World.start host next release answers sink)
    (run.2.closed ++ run.2.pooledLayers ++ run.2.heldLayers).Perm (List.range run.2.opened) ∧
    (∀ rc, run.1 = .error rc → run.2.result.openBody = none) ∧
    run.2.source.released + run.2.inherited.toNat = release.toNat ∧
    ∀ cs : List OpenBody.Call, let freed := (run.2.callBody cs).freeResult
      (freed.closed ++ freed.pooledLayers).Perm (List.range freed.opened) ∧
      freed.opened = run.2.opened ∧
      freed.source.released = release.toNat ∧
      ∀ o, run.2.result.openBody = some o → ∃ v, (o.body.calls cs).free.released = [v] := by
  have hends := perform_balanced (Z := Z) env call host next release answers sink _ rfl
  intro run
  have hrun : run.2.Balanced 0 release.toNat ∧
      ∀ rc, run.1 = .error rc → run.2.result.openBody = none := by
    change Ends _ _ run at hends
    obtain ⟨r, w⟩ := run
    cases r with
    | ok u => exact ⟨hends, nofun⟩
    | error rc => exact ⟨hends.1, fun _ _ => hends.2⟩
  obtain ⟨hbalanced, hempty⟩ := hrun
  refine ⟨hbalanced.streams, hempty, hbalanced.source, fun cs => ?_⟩
  obtain ⟨hfreed, hnone⟩ := freeResult_balanced (callBody_balanced cs hbalanced)
  refine ⟨?_, ?_, ?_,
    fun o ho => OpenBody.free_released (OpenBody.calls_once cs (hbalanced.once o ho))⟩
  · have hstreams := hfreed.streams
    unfold Owned at hstreams
    rwa [held_of_none hnone, List.append_nil] at hstreams
  · exact (freeResult_same _).opened
  · have hsource := hfreed.source
    unfold inherited at hsource
    rw [hnone] at hsource
    exact hsource

end Zuhttp
