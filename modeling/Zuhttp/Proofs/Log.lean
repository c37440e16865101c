import Zuhttp.Proofs.Perform

/-!
# The requests of a run

The requests a call sent, hop by hop, with the answers the redirects were decided on.
-/

namespace Zuhttp

open Prog World

variable {Z : Zlib} {env : Env} {call : Call} {c₀ c : Chain} {k₀ k : Core Z} {w : World Z}

/-- The chains `cs` of the hops of a call, the requests that were sent and the answers. -/
structure Logged (call : Call) (src : Source) (cs : List Chain) (sent : List Sent)
    (answered : List Answer) : Prop where
  starts : ∀ c, cs[0]? = some c → Starts call src.next c
  records : ∀ (i : Nat) (r : Sent), sent[i]? = some r →
    ∃ c, cs[i]? = some c ∧ Records call src.answers c r
  follows : ∀ (i : Nat) (c c' : Chain), cs[i]? = some c → cs[i + 1]? = some c' →
    ∃ a, answered[i]? = some a ∧ Follows call.opts c a.status c'
  bound : 0 < call.opts.maxRedirects → cs.length ≤ call.opts.maxRedirects.toNat + 1
  answers : answered.length ≤ sent.length

/-- The chains of the hops in front of one and its own. -/
def chains (past : List (Chain × Answer)) (c : Chain) : List Chain := past.map Prod.fst ++ [c]

lemma chains_last (past : List (Chain × Answer)) (c : Chain) :
    (chains past c)[past.length]? = some c := by
  unfold chains
  rw [List.getElem?_append_right (by simp)]
  simp

lemma chains_of_lt {past : List (Chain × Answer)} {i : Nat} (h : i < past.length) (c : Chain) :
    (chains past c)[i]? = (past.map Prod.fst)[i]? :=
  List.getElem?_append_left (by simpa using h)

lemma chains_length (past : List (Chain × Answer)) (c : Chain) :
    (chains past c).length = past.length + 1 := by
  simp [chains]

lemma Chained.starts {opts : PerformOpts} {past : List (Chain × Answer)}
    (h : Chained opts c₀ past c) : (chains past c)[0]? = some c₀ := by
  induction h with
  | start => rfl
  | @follow past c c' a h hnext ih =>
    unfold chains at ih ⊢
    rw [List.map_append, List.getElem?_append_left (by simp)]
    exact ih

lemma Chained.links {opts : PerformOpts} {past : List (Chain × Answer)}
    (h : Chained opts c₀ past c) (more : List Answer) {i : Nat} {x y : Chain}
    (hx : (chains past c)[i]? = some x) (hy : (chains past c)[i + 1]? = some y) :
    ∃ a, (past.map Prod.snd ++ more)[i]? = some a ∧ Follows opts x a.status y := by
  induction h generalizing more with
  | start => simp [chains] at hy
  | @follow past c c' a h hnext ih =>
    have hstep : chains (past ++ [(c, a)]) c' = chains past c ++ [c'] := by simp [chains]
    rw [hstep] at hx hy
    rw [List.map_append, List.append_assoc]
    have hlen := chains_length past c
    have hi : i + 1 < past.length + 2 := by
      have hlt := (List.getElem?_eq_some_iff.mp hy).1
      rw [List.length_append, hlen] at hlt
      simpa using hlt
    by_cases hlast : i = past.length
    · subst hlast
      rw [List.getElem?_append_left (by omega), chains_last] at hx
      rw [List.getElem?_append_right (by omega)] at hy
      obtain rfl := Option.some.inj hx
      have hy' : c' = y := by simpa [hlen] using hy
      subst hy'
      refine ⟨a, ?_, hnext⟩
      rw [List.getElem?_append_right (by simp)]
      simp
    · rw [List.getElem?_append_left (by omega)] at hx
      rw [List.getElem?_append_left (by omega)] at hy
      exact ih _ hx hy

/-- The requests of the hops in front of one. -/
lemma forall₂_records {src : Source} {past : List (Chain × Answer)} {sent : List Sent}
    (h : List.Forall₂ (fun h r => Records call src.answers h.1 r) past sent) {i : Nat} {r : Sent}
    (hr : sent[i]? = some r) :
    ∃ x, (past.map Prod.fst)[i]? = some x ∧ Records call src.answers x r := by
  induction h generalizing i with
  | nil => cases hr
  | @cons p r' past sent hp h ih =>
    cases i with
    | zero =>
      obtain rfl := Option.some.inj hr
      exact ⟨p.1, rfl, hp⟩
    | succ i => exact ih hr

/-- The log of a run up to a hop that may have been sent. -/
lemma Due.logged {past : List (Chain × Answer)} {sent : List Sent} {answered more : List Answer}
    (hstarts : Starts call k₀.source.next c₀) (h : Due call c₀ k₀ past c k)
    (hsent : sent = k.sent ∨ ∃ r, Records call k₀.source.answers c r ∧ sent = k.sent ++ [r])
    (hanswered : answered = k.answered ++ more) (hmore : answered.length ≤ sent.length) :
    Logged call k₀.source (chains past c) sent answered where
  starts := by
    intro x hx
    rw [h.chained.starts] at hx
    exact Option.some.inj hx ▸ hstarts
  records := by
    have hlen : past.length = k.sent.length := h.sent.length_eq
    have hpast : ∀ (i : Nat) (r : Sent), k.sent[i]? = some r →
        ∃ x, (chains past c)[i]? = some x ∧ Records call k₀.source.answers x r := by
      intro i r hr
      obtain ⟨x, hx, hrec⟩ := forall₂_records h.sent hr
      refine ⟨x, ?_, hrec⟩
      rw [chains_of_lt (by rw [hlen]; exact (List.getElem?_eq_some_iff.mp hr).1)]
      exact hx
    rcases hsent with rfl | ⟨r₁, hr₁, rfl⟩
    · exact hpast
    · intro i r hr
      by_cases hi : i < k.sent.length
      · rw [List.getElem?_append_left hi] at hr
        exact hpast i r hr
      · rw [List.getElem?_append_right (by omega)] at hr
        have hzero : i - k.sent.length = 0 := by
          have hlt := (List.getElem?_eq_some_iff.mp hr).1
          simpa using hlt
        rw [hzero] at hr
        obtain rfl := Option.some.inj hr
        refine ⟨c, ?_, hr₁⟩
        rw [show i = past.length by omega]
        exact chains_last past c
  follows := by
    intro i x y hx hy
    rw [hanswered, h.answered]
    exact h.chained.links more hx hy
  bound := by
    intro hpos
    rw [chains_length]
    have hle := h.chained.length_le hstarts.hops hpos
    omega
  answers := hmore

/-! ### The end of a call -/

/-- The log of a call, which pulled its source during the first hop only. -/
def Tells (call : Call) (src : Source) (w : World Z) : Prop :=
  (∃ cs, Logged call src cs w.sent w.answered) ∧ ∀ n ∈ w.source.pulled, n = 0

lemma tells_of_core {call : Call} {src : Source} {w w' : World Z} (h : Tells call src w)
    (hsent : w'.sent = w.sent) (hanswered : w'.answered = w.answered)
    (hsource : w'.source.pulled = w.source.pulled) : Tells call src w' := by
  unfold Tells
  rw [hsent, hanswered, hsource]
  exact h

/-- What a body changes leaves the log. -/
lemma takes_log {s : Stream} {a : Answer} {h : Headers} {k' : Core Z}
    (ht : Takes env call c s a k h k') : k'.sent = k.sent ∧ k'.answered = k.answered ∧
      k'.source.pulled = k.source.pulled := by
  cases ht with
  | drained hfollow hres => exact ⟨rfl, rfl, rfl⟩
  | buffered hfollow hsink hres => exact ⟨rfl, rfl, rfl⟩
  | written hfollow hsink hres => exact ⟨rfl, rfl, rfl⟩
  | held key hfollow hsink hnew =>
    refine ⟨rfl, rfl, ?_⟩
    dsimp only
    split_ifs <;> rfl

lemma log_of_core {own : List Nat} (hat : w.At own k) : w.sent = k.sent ∧
    w.answered = k.answered ∧ w.source = k.source :=
  ⟨congrArg Core.sent hat.core, congrArg Core.answered hat.core, congrArg Core.source hat.core⟩

/-- The last answer of a call that succeeds: it is the result and is not followed. -/
def Concludes (call : Call) (w : World Z) : Prop :=
  w.answered.length = w.sent.length ∧ ∃ a, w.answered.getLast? = some a ∧
    w.result.status = a.status ∧
    w.result.headers.get (ascii "Location") = a.headers.get (ascii "Location") ∧
    mayFollow call.opts a = false

lemma Finished.tells (hstarts : Starts call k₀.source.next c₀)
    (h : Finished env call c₀ k₀ c w) : Tells call k₀.source w ∧ Concludes call w := by
  obtain ⟨past, k, r, src, a, s, k', hdue, hr, hsrc, hkeep, hlands⟩ := h
  obtain ⟨hsent, hanswered, hsource⟩ := log_of_core hlands.holds
  obtain ⟨hsent', hanswered', hpulled⟩ := takes_log hlands.takes
  have hlen : k.answered.length = k.sent.length := by
    rw [hdue.answered, List.length_map]
    exact hdue.sent.length_eq
  have hsent'' : w.sent = k.sent ++ [r] := hsent.trans hsent'
  have hanswered'' : w.answered = k.answered ++ [a] := hanswered.trans hanswered'
  have hlens : w.answered.length = w.sent.length := by
    rw [hsent'', hanswered'', List.length_append, List.length_append, hlen]
    rfl
  refine ⟨⟨⟨chains past c, ?_⟩, ?_⟩, hlens, a, ?_, hlands.status, takes_location hlands.takes,
    hkeep⟩
  · exact hdue.logged hstarts (Or.inr ⟨r, hdue.records hr, hsent''⟩) hanswered'' hlens.le
  · rw [hsource, hpulled]
    exact (hdue.source.pulls hsrc (hdue.first hstarts.hops)).pulled
  · rw [hanswered'', List.getLast?_concat]

lemma Failed.tells (hstarts : Starts call k₀.source.next c₀) (h : Failed call c₀ k₀ w) :
    Tells call k₀.source w := by
  obtain ⟨past, c, k, k', hdue, hbreaks, hat⟩ := h
  obtain ⟨hsent, hanswered, hsource⟩ := log_of_core hat
  have hlen : k.answered.length = k.sent.length := by
    rw [hdue.answered, List.length_map]
    exact hdue.sent.length_eq
  refine ⟨⟨chains past c, ?_⟩, ?_⟩
  · rcases hbreaks.log with ⟨hsent', hanswered'⟩ | ⟨r, more, hr, hsent', hanswered', hmore⟩
    · refine hdue.logged hstarts (Or.inl (hsent.trans hsent'))
        ((hanswered.trans hanswered').trans (List.append_nil _).symm) ?_
      rw [hsent, hanswered, hsent', hanswered', hlen]
    · refine hdue.logged hstarts (Or.inr ⟨r, hdue.records hr, hsent.trans hsent'⟩)
        (hanswered.trans hanswered') ?_
      rw [hsent, hanswered, hsent', hanswered', List.length_append, List.length_append, hlen]
      exact Nat.add_le_add_left hmore _
  · rw [hsource]
    exact (hdue.source.pulls hbreaks.source (hdue.first hstarts.hops)).pulled

lemma Reached.tells (hsent : k₀.sent = []) (hanswered : k₀.answered = [])
    (hpulled : k₀.source.pulled = []) (h : Reached env call k₀ w) :
    Tells call k₀.source w := by
  rcases h with hat | ⟨c₀, hstarts, hfailed | ⟨c, hfinished⟩⟩
  · obtain ⟨hs, ha, hsrc⟩ := log_of_core hat
    refine ⟨⟨[], ?_⟩, ?_⟩
    · rw [hs, ha, hsent, hanswered]
      exact ⟨by simp, by simp, by simp, by simp, le_rfl⟩
    · rw [hsrc, hpulled]
      simp
  · exact hfailed.tells hstarts
  · exact (hfinished.tells hstarts).1

lemma releaseSource_log (w : World Z) : (releaseSource w).sent = w.sent ∧
    (releaseSource w).answered = w.answered ∧
    (releaseSource w).source.pulled = w.source.pulled ∧
    (releaseSource w).result = w.result := by
  unfold releaseSource
  split_ifs <;> exact ⟨rfl, rfl, rfl, rfl⟩

/-- What a call sent, and how it ends. -/
theorem perform_tells (env : Env) (call : Call) (host : Host) (next release : Bool)
    (answers : List (Except Fail Bytes)) (sink : Option Sink) :
    let run := exec (perform (Z := Z) env call) (World.start host next release answers sink)
    Tells call (World.start (Z := Z) host next release answers sink).source run.2 ∧
      (run.1 = .ok () → Concludes call run.2) := by
  have hends := perform_at env call (start_clear (Z := Z) host next release answers sink) rfl rfl
    rfl _ (start_at host next release answers sink)
  intro run
  change Ends _ _ run at hends
  obtain ⟨res, w⟩ := run
  cases res with
  | ok u =>
    obtain ⟨w', c₀, c, hstarts, hfinished, rfl⟩ := hends
    obtain ⟨htells, hlen, a, hlast, hstatus, hloc, hkeep⟩ := hfinished.tells hstarts
    obtain ⟨hs, ha, hp, hres⟩ := releaseSource_log w'
    refine ⟨tells_of_core htells hs ha hp, fun _ => ⟨?_, a, ?_, ?_, ?_, hkeep⟩⟩
    · rw [hs, ha]
      exact hlen
    · rw [ha]
      exact hlast
    · rw [hres]
      exact hstatus
    · rw [hres]
      exact hloc
  | error rc =>
    obtain ⟨w', h, hreached, rfl⟩ := hends
    obtain ⟨hs, ha, hp, -⟩ := releaseSource_log w'.freeResult
    have hsame := freeResult_same w'
    refine ⟨?_, nofun⟩
    exact tells_of_core (hreached.tells rfl rfl rfl) (hs.trans hsame.sent)
      (ha.trans hsame.answered) (hp.trans hsame.pulled)

end Zuhttp
