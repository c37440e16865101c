import Zuhttp.Retry

/-!
# What the retry loop keeps to

When another attempt is made, what each attempt is given, and which response is returned.
-/

namespace Zuhttp

variable {iso : IsoDatetime} {r : RetryRequest} {p : RetryPolicy} {mayReplay : Bool}
  {deadline : ℚ} {attempt : Nat} {t : Try}

/-- All but the budget speaks for another attempt. -/
structure Wants (iso : IsoDatetime) (r : RetryRequest) (p : RetryPolicy) (mayReplay : Bool)
    (attempt : Nat) (t : Try) : Prop where
  caught : t.outcome ≠ .escaped
  mayReplay : mayReplay = true
  attempts : attempt < p.attempts
  undelivered : delivered r t = false
  verdict : (retryVerdict iso p t.wall t.outcome).1 = true

/-- The delay before another attempt. -/
def delayOf (iso : IsoDatetime) (p : RetryPolicy) (attempt : Nat) (t : Try) : ℚ :=
  backoffDelay p attempt (retryVerdict iso p t.wall t.outcome).2 t.draw

/-- The delay is shorter than what is left. -/
def InBudget (iso : IsoDatetime) (p : RetryPolicy) (deadline : ℚ) (attempt : Nat) (t : Try) :
    Prop :=
  0 < deadline - t.checked ∧ delayOf iso p attempt t < deadline - t.checked

/-- Another attempt follows. -/
def Retries (iso : IsoDatetime) (r : RetryRequest) (p : RetryPolicy) (mayReplay : Bool)
    (deadline : ℚ) (attempt : Nat) (t : Try) : Prop :=
  Wants iso r p mayReplay attempt t ∧ InBudget iso p deadline attempt t

/-- What the loop does with its first attempt. -/
lemma attemptLoop_cons (iso : IsoDatetime) (r : RetryRequest) (p : RetryPolicy)
    (mayReplay : Bool) (deadline : ℚ) (attempt : Nat) (t : Try) (tries : List Try) :
    (¬Wants iso r p mayReplay attempt t ∧
      attemptLoop iso r p mayReplay deadline attempt (t :: tries) =
        some ⟨[attemptBudget r p deadline t.started], [], t.outcome⟩) ∨
    (Wants iso r p mayReplay attempt t ∧ ¬InBudget iso p deadline attempt t ∧
      attemptLoop iso r p mayReplay deadline attempt (t :: tries) =
        some ⟨[attemptBudget r p deadline t.started],
          if t.outcome.streamed then [attempt] else [], t.outcome⟩) ∨
    Retries iso r p mayReplay deadline attempt t ∧
      attemptLoop iso r p mayReplay deadline attempt (t :: tries) =
        (attemptLoop iso r p mayReplay deadline (attempt + 1) tries).map fun run =>
          { run with
            budgets := attemptBudget r p deadline t.started :: run.budgets
            aborted := (if t.outcome.streamed then [attempt] else []) ++ run.aborted } := by
  rw [attemptLoop]
  dsimp only
  by_cases hescaped : t.outcome = .escaped
  · rw [if_pos hescaped]
    exact Or.inl ⟨fun h => h.caught hescaped, rfl⟩
  rw [if_neg hescaped]
  by_cases hstop : mayReplay = false ∨ attempt ≥ p.attempts
  · rw [if_pos hstop]
    refine Or.inl ⟨fun h => ?_, rfl⟩
    obtain hreplay | hattempts := hstop
    · rw [h.mayReplay] at hreplay
      cases hreplay
    · exact absurd h.attempts (Nat.not_lt.mpr hattempts)
  rw [if_neg hstop]
  obtain ⟨hreplay, hattempts⟩ := not_or.mp hstop
  by_cases hdelivered : delivered r t = true
  · rw [if_pos hdelivered]
    refine Or.inl ⟨fun h => ?_, rfl⟩
    rw [h.undelivered] at hdelivered
    cases hdelivered
  rw [if_neg hdelivered]
  by_cases hverdict : (retryVerdict iso p t.wall t.outcome).1 = false
  · rw [if_pos hverdict]
    refine Or.inl ⟨fun h => ?_, rfl⟩
    rw [h.verdict] at hverdict
    cases hverdict
  rw [if_neg hverdict]
  right
  have hwants : Wants iso r p mayReplay attempt t :=
    ⟨hescaped, eq_true_of_ne_false hreplay, Nat.lt_of_not_le hattempts,
      eq_false_of_ne_true hdelivered, eq_true_of_ne_false hverdict⟩
  by_cases hshort : deadline - t.checked ≤ 0 ∨
      backoffDelay p attempt (retryVerdict iso p t.wall t.outcome).2 t.draw ≥ deadline - t.checked
  · rw [if_pos hshort]
    refine Or.inl ⟨hwants, fun hin => ?_, rfl⟩
    obtain hleft | hdelay := hshort
    · exact absurd hin.1 (not_lt.mpr hleft)
    · exact absurd hin.2 (not_lt.mpr hdelay)
  · rw [if_neg hshort]
    obtain ⟨hleft, hdelay⟩ := not_or.mp hshort
    exact Or.inr ⟨⟨hwants, lt_of_not_ge hleft, lt_of_not_ge hdelay⟩, rfl⟩

/-- A run of the loop from an attempt on. -/
structure Ran (iso : IsoDatetime) (r : RetryRequest) (p : RetryPolicy) (mayReplay : Bool)
    (deadline : ℚ) (attempt : Nat) (tries : List Try) (run : RetryRun) : Prop where
  nonempty : 0 < run.budgets.length
  most : attempt + run.budgets.length ≤ max p.attempts attempt + 1
  budgets : run.budgets = (tries.take run.budgets.length).map
    fun t => attemptBudget r p deadline t.started
  again : ∀ i t, i + 1 < run.budgets.length → tries[i]? = some t →
    Retries iso r p mayReplay deadline (attempt + i) t
  last : ∃ t, tries[run.budgets.length - 1]? = some t ∧ run.outcome = t.outcome ∧
    ¬Retries iso r p mayReplay deadline (attempt + (run.budgets.length - 1)) t
  aborted : ∀ j, j ∈ run.aborted ↔ ∃ i t, i < run.budgets.length ∧ tries[i]? = some t ∧
    j = attempt + i ∧ Wants iso r p mayReplay j t ∧ t.outcome.streamed = true

/-- The last attempt of a run. -/
lemma Ran.single {tries : List Try} {aborted : List Nat}
    (hnot : ¬Retries iso r p mayReplay deadline attempt t)
    (haborted : ∀ j, j ∈ aborted ↔
      j = attempt ∧ Wants iso r p mayReplay j t ∧ t.outcome.streamed = true) :
    Ran iso r p mayReplay deadline attempt (t :: tries)
      ⟨[attemptBudget r p deadline t.started], aborted, t.outcome⟩ where
  nonempty := Nat.one_pos
  most := Nat.add_le_add_right (Nat.le_max_right _ _) 1
  budgets := rfl
  again := fun i u hi => absurd hi (Nat.not_lt.mpr (Nat.le_add_left 1 i))
  last := ⟨t, rfl, rfl, hnot⟩
  aborted := by
    intro j
    rw [haborted]
    constructor
    · rintro ⟨rfl, hwants, hstreamed⟩
      exact ⟨0, t, Nat.one_pos, rfl, rfl, hwants, hstreamed⟩
    · rintro ⟨i, u, hi, hu, rfl, hwants, hstreamed⟩
      obtain rfl : i = 0 := Nat.lt_one_iff.mp hi
      obtain rfl : t = u := Option.some.inj hu
      exact ⟨rfl, hwants, hstreamed⟩

/-- An attempt in front of a run. -/
lemma Ran.cons {tries : List Try} {run : RetryRun}
    (hretries : Retries iso r p mayReplay deadline attempt t)
    (h : Ran iso r p mayReplay deadline (attempt + 1) tries run) :
    Ran iso r p mayReplay deadline attempt (t :: tries)
      { run with
        budgets := attemptBudget r p deadline t.started :: run.budgets
        aborted := (if t.outcome.streamed then [attempt] else []) ++ run.aborted } where
  nonempty := Nat.succ_pos _
  most := by
    have hmost := h.most
    have hattempts := hretries.1.attempts
    rw [List.length_cons]
    omega
  budgets := by
    rw [List.length_cons, List.take_succ_cons, List.map_cons, ← h.budgets]
  again := by
    intro i u hi hu
    cases i with
    | zero =>
      obtain rfl : t = u := Option.some.inj hu
      exact hretries
    | succ i =>
      have hagain := h.again i u (Nat.lt_of_succ_lt_succ hi) hu
      rwa [Nat.add_right_comm] at hagain
  last := by
    obtain ⟨u, hu, houtcome, hnot⟩ := h.last
    have hsome := h.nonempty
    refine ⟨u, ?_, houtcome, ?_⟩
    · rw [List.length_cons, Nat.add_sub_cancel, List.getElem?_cons, if_neg hsome.ne']
      exact hu
    · rw [List.length_cons, Nat.add_sub_cancel]
      rwa [Nat.add_assoc, Nat.add_sub_cancel' hsome] at hnot
  aborted := by
    intro j
    rw [List.mem_append, h.aborted]
    constructor
    · rintro (hfirst | ⟨i, u, hi, hu, rfl, hwants, hstreamed⟩)
      · by_cases hstreamed : t.outcome.streamed = true
        · rw [if_pos hstreamed, List.mem_singleton] at hfirst
          exact ⟨0, t, Nat.succ_pos _, rfl, hfirst, hfirst ▸ hretries.1, hstreamed⟩
        · rw [if_neg hstreamed] at hfirst
          cases hfirst
      · exact ⟨i + 1, u, Nat.succ_lt_succ hi, hu, by omega, hwants, hstreamed⟩
    · rintro ⟨i, u, hi, hu, rfl, hwants, hstreamed⟩
      cases i with
      | zero =>
        obtain rfl : t = u := Option.some.inj hu
        left
        rw [if_pos hstreamed]
        exact List.mem_singleton_self _
      | succ i =>
        exact Or.inr ⟨i, u, Nat.lt_of_succ_lt_succ hi, hu, by omega, hwants, hstreamed⟩

lemma attemptLoop_ran {tries : List Try} {run : RetryRun}
    (h : attemptLoop iso r p mayReplay deadline attempt tries = some run) :
    Ran iso r p mayReplay deadline attempt tries run := by
  induction tries generalizing attempt run with
  | nil => cases h
  | cons t tries ih =>
    obtain ⟨hnot, hloop⟩ | ⟨hwants, hshort, hloop⟩ | ⟨hretries, hloop⟩ :=
      attemptLoop_cons iso r p mayReplay deadline attempt t tries
    · obtain rfl := Option.some.inj (hloop.symm.trans h)
      refine Ran.single (fun hretries => hnot hretries.1) fun j => ?_
      exact iff_of_false List.not_mem_nil fun hj => hnot (hj.1 ▸ hj.2.1)
    · obtain rfl := Option.some.inj (hloop.symm.trans h)
      refine Ran.single (fun hretries => hshort hretries.2) fun j => ?_
      by_cases hstreamed : t.outcome.streamed = true
      · rw [if_pos hstreamed, List.mem_singleton]
        exact ⟨fun hj => ⟨hj, hj ▸ hwants, hstreamed⟩, And.left⟩
      · rw [if_neg hstreamed]
        exact iff_of_false List.not_mem_nil fun hj => hstreamed hj.2.2
    · rw [hloop] at h
      obtain ⟨rest, hrest, rfl⟩ := Option.map_eq_some_iff.mp h
      exact Ran.cons hretries (ih hrest)

/-- The loop ends when there is an answer for every attempt. -/
lemma attemptLoop_total {tries : List Try} (hsome : tries ≠ [])
    (henough : p.attempts < attempt + tries.length) :
    ∃ run, attemptLoop iso r p mayReplay deadline attempt tries = some run := by
  induction tries generalizing attempt with
  | nil => exact absurd rfl hsome
  | cons t tries ih =>
    obtain ⟨-, hloop⟩ | ⟨-, -, hloop⟩ | ⟨hretries, hloop⟩ :=
      attemptLoop_cons iso r p mayReplay deadline attempt t tries
    · exact ⟨_, hloop⟩
    · exact ⟨_, hloop⟩
    · rw [List.length_cons] at henough
      have hattempts := hretries.1.attempts
      obtain ⟨run, hrun⟩ : ∃ run,
          attemptLoop iso r p mayReplay deadline (attempt + 1) tries = some run :=
        ih (List.ne_nil_of_length_pos (by omega)) (by omega)
      exact ⟨_, by rw [hloop, hrun]; rfl⟩

/-! ### The contract -/

/-- What is asked before another attempt than the first. -/
structure Again (iso : IsoDatetime) (r : RetryRequest) (deadline : ℚ) (attempt : Nat) (t : Try) :
    Prop where
  replaySafe : reqReplaySafe r = true
  rewindable : bodyRewindable r = true
  undelivered : delivered r t = false
  verdict : (retryVerdict iso r.policy t.wall t.outcome).1 = true
  delay : delayOf iso r.policy attempt t < deadline - t.checked

/-- A run of the attempts, without what becomes of streamed responses. -/
structure RetryContract (iso : IsoDatetime) (r : RetryRequest) (deadline : ℚ) (tries : List Try)
    (run : RetryRun) : Prop where
  most : run.budgets.length ≤ r.policy.attempts
  again : ∀ i t, i + 1 < run.budgets.length → tries[i]? = some t → Again iso r deadline (i + 1) t
  share : ∀ (i : Nat) (t : Try) (b : ℚ), tries[i]? = some t → run.budgets[i]? = some b →
    b ≤ max (1 / 1000) r.timeout ∧ b ≤ max (1 / 1000) (deadline - t.started) ∧
      ∀ a ∈ r.policy.attemptTimeout, b ≤ max (1 / 1000) a
  outcome : ∃ t, tries[run.budgets.length - 1]? = some t ∧ run.outcome = t.outcome

/-- The request may be sent again. -/
def RetryRequest.replayable (r : RetryRequest) : Bool :=
  r.policy.attempts > 1 ∧ reqReplaySafe r

/-- A streamed response is to be retried, but the delay is not shorter than what is left. -/
def GivesUp (iso : IsoDatetime) (r : RetryRequest) (deadline : ℚ) (attempt : Nat) (t : Try) :
    Prop :=
  Wants iso r r.policy r.replayable attempt t ∧ t.outcome.streamed = true ∧
    ¬InBudget iso r.policy deadline attempt t

lemma attemptBudget_le (r : RetryRequest) (p : RetryPolicy) (deadline started : ℚ) :
    attemptBudget r p deadline started ≤ max (1 / 1000) r.timeout ∧
      attemptBudget r p deadline started ≤ max (1 / 1000) (deadline - started) ∧
      ∀ a ∈ p.attemptTimeout, attemptBudget r p deadline started ≤ max (1 / 1000) a := by
  unfold attemptBudget
  dsimp only
  cases p.attemptTimeout with
  | none =>
    exact ⟨max_le_max le_rfl (min_le_left _ _), max_le_max le_rfl (min_le_right _ _), nofun⟩
  | some a =>
    refine ⟨max_le_max le_rfl ((min_le_left _ _).trans (min_le_left _ _)),
      max_le_max le_rfl ((min_le_left _ _).trans (min_le_right _ _)), fun b hb => ?_⟩
    obtain rfl : a = b := Option.some.inj hb
    exact max_le_max le_rfl (min_le_right _ _)

/-- A streamed response is only aborted in front of another attempt where none of the attempts
that are reached gives up. -/
lemma Ran.followed {tries : List Try} {run : RetryRun}
    (h : Ran iso r r.policy r.replayable deadline 1 tries run) :
    (∀ j ∈ run.aborted, j < run.budgets.length) ↔
      ∀ i t, tries[i]? = some t →
        (∀ j < i, ∀ u, tries[j]? = some u →
          Retries iso r r.policy r.replayable deadline (j + 1) u) →
        ¬GivesUp iso r deadline (i + 1) t := by
  obtain ⟨last, hlast, -, hnot⟩ := h.last
  have hsome := h.nonempty
  constructor
  · rintro hfollowed i t ht hbefore ⟨hwants, hstreamed, hshort⟩
    -- the attempt that gives up is the last one
    have hle : i ≤ run.budgets.length - 1 := by
      refine Nat.le_of_not_lt fun hlt => hnot ?_
      have hretries := hbefore _ hlt last hlast
      rwa [Nat.add_comm] at hretries
    have hge : ¬i + 1 < run.budgets.length := by
      intro hlt
      have hretries := h.again i t hlt ht
      rw [Nat.add_comm] at hretries
      exact hshort hretries.2
    have hmem : i + 1 ∈ run.aborted :=
      (h.aborted _).mpr ⟨i, t, by omega, ht, Nat.add_comm _ _, hwants, hstreamed⟩
    exact hge (hfollowed _ hmem)
  · intro hnone j hj
    obtain ⟨i, t, hi, ht, rfl, hwants, hstreamed⟩ := (h.aborted j).mp hj
    refine Nat.lt_of_not_le fun hle => ?_
    have hlasti : i = run.budgets.length - 1 := by omega
    subst hlasti
    obtain rfl : last = t := Option.some.inj (hlast.symm.trans ht)
    rw [Nat.add_comm] at hwants
    refine hnone _ _ ht (fun k hk u hu => ?_) ⟨hwants, hstreamed, fun hin => hnot ?_⟩
    · have hretries := h.again k u (by omega) hu
      rwa [Nat.add_comm] at hretries
    · rw [Nat.add_comm]
      exact ⟨hwants, hin⟩

lemma Ran.contract {tries : List Try} {run : RetryRun}
    (h : Ran iso r r.policy r.replayable deadline 1 tries run)
    (hreject : ¬(r.replayable = true ∧ bodyRewindable r = false)) :
    RetryContract iso r deadline tries run where
  most := by
    have hpositive := r.policy.positive
    have hmost := h.most
    rw [max_eq_left hpositive] at hmost
    omega
  again := by
    intro i t hi ht
    obtain ⟨hwants, hin⟩ := h.again i t hi ht
    have hsafe : r.policy.attempts > 1 ∧ reqReplaySafe r = true :=
      of_decide_eq_true hwants.mayReplay
    have hrewindable : bodyRewindable r = true :=
      eq_true_of_ne_false fun hno => hreject ⟨hwants.mayReplay, hno⟩
    rw [Nat.add_comm i 1]
    exact ⟨hsafe.2, hrewindable, hwants.undelivered, hwants.verdict, hin.2⟩
  share := by
    intro i t b ht hb
    rw [h.budgets, List.getElem?_map] at hb
    obtain ⟨u, hu, rfl⟩ := Option.map_eq_some_iff.mp hb
    obtain rfl : t = u := by
      rw [List.getElem?_take] at hu
      split at hu
      · exact Option.some.inj (ht.symm.trans hu)
      · cases hu
    exact attemptBudget_le r r.policy deadline t.started
  outcome := by
    obtain ⟨t, ht, houtcome, -⟩ := h.last
    exact ⟨t, ht, houtcome⟩

/-- With an answer for every attempt the loop ends, and every run keeps the contract. The
response of an attempt is only aborted when another follows, if and only if no attempt that is
reached has a streamed response to be retried and too little time for its delay. -/
theorem attemptWithRetries_contract (iso : IsoDatetime) (r : RetryRequest) (deadline : ℚ)
    (tries : List Try) :
    (r.policy.attempts ≤ tries.length →
      ∃ res, attemptWithRetries iso r deadline tries = some res) ∧
    ∀ run, attemptWithRetries iso r deadline tries = some (.ran run) →
      RetryContract iso r deadline tries run ∧
      ((∀ j ∈ run.aborted, j < run.budgets.length) ↔
        ∀ i t, tries[i]? = some t →
          (∀ j < i, ∀ u, tries[j]? = some u →
            Retries iso r r.policy r.replayable deadline (j + 1) u) →
          ¬GivesUp iso r deadline (i + 1) t) := by
  have hpositive := r.policy.positive
  unfold attemptWithRetries
  dsimp only
  by_cases hreject : r.replayable = true ∧ bodyRewindable r = false
  · have hif : (decide (r.policy.attempts > 1 ∧ reqReplaySafe r = true)) = true ∧
      bodyRewindable r = false := hreject
    rw [if_pos hif]
    exact ⟨fun _ => ⟨_, rfl⟩, nofun⟩
  · have hif : ¬((decide (r.policy.attempts > 1 ∧ reqReplaySafe r = true)) = true ∧
      bodyRewindable r = false) := hreject
    rw [if_neg hif]
    constructor
    · intro henough
      have hsome : tries ≠ [] := List.ne_nil_of_length_pos (hpositive.trans henough)
      obtain ⟨run, hrun⟩ : ∃ run,
          attemptLoop iso r r.policy r.replayable deadline 1 tries = some run :=
        attemptLoop_total hsome (by omega)
      exact ⟨.ran run, Option.map_eq_some_iff.mpr ⟨run, hrun, rfl⟩⟩
    · intro run hrun
      obtain ⟨run', hloop, hsame⟩ := Option.map_eq_some_iff.mp hrun
      obtain rfl : run' = run := by injection hsame
      have h : Ran iso r r.policy r.replayable deadline 1 tries run' := attemptLoop_ran hloop
      exact ⟨h.contract hreject, h.followed⟩

/-- No server gives a date. -/
def undated : IsoDatetime := fun _ _ _ _ _ _ => none

/-- A GET of half a second in all, with a second attempt a second later. -/
def hastyGet : RetryRequest where
  method := ascii "GET"
  timeout := 1 / 2
  retry := some { attempts := 2, jitter := false }

/-- A streamed 503. -/
def unavailable : Try where
  started := 0
  outcome := .response 503 [] true
  checked := 1 / 4

/-- The streamed 503 is aborted and returned. -/
theorem attemptWithRetries_aborts :
    ∃ run, attemptWithRetries undated hastyGet (1 / 2) [unavailable] =
        some (.ran run) ∧
      run.outcome = .response 503 [] true ∧ ¬∀ j ∈ run.aborted, j < run.budgets.length := by
  refine ⟨⟨[1 / 2], [1], .response 503 [] true⟩, ?_, rfl, by decide⟩
  decide +kernel

/-- The second attempt of a GET with five seconds is answered, and its response is open. -/
theorem attemptWithRetries_contract_second :
    ∃ run, attemptWithRetries undated { hastyGet with timeout := 5 } 5
        [unavailable, { unavailable with started := 2, outcome := .response 200 [] true }] =
        some (.ran run) ∧
      RetryContract undated { hastyGet with timeout := 5 } 5
        [unavailable, { unavailable with started := 2, outcome := .response 200 [] true }] run ∧
      run.aborted = [1] := by
  have hrun : attemptWithRetries undated { hastyGet with timeout := 5 } 5
      [unavailable, { unavailable with started := 2, outcome := .response 200 [] true }] =
      some (.ran ⟨[5, 3], [1], .response 200 [] true⟩) := by decide +kernel
  exact ⟨_, hrun, ((attemptWithRetries_contract _ _ _ _).2 _ hrun).1, rfl⟩

end Zuhttp
