import Mathlib.Data.List.Basic

/-!
# Loops that stop when they are done or fail

`step` may fail; the loop steps until the state is done. Its states are those `Reached` by
steps that did not fail.
-/

namespace Loop

variable {S E : Type*} (step : S → S × Option E) (done : S → Bool)

/-- The loop, cut off after so many steps. -/
def iterate : Nat → S → S × Option E
  | 0, s => (s, none)
  | n + 1, s =>
    if done s then (s, none)
    else
      match step s with
      | (s, some e) => (s, some e)
      | (s, none) => iterate n s

/-- The same loop over a step that keeps a log. -/
def logged {A : Type*} (step : S → (S × Option E) × List A) (done : S → Bool) :
    Nat → S → (S × Option E) × List A
  | 0, s => ((s, none), [])
  | n + 1, s =>
    if done s then ((s, none), [])
    else
      match step s with
      | ((s, some e), log) => ((s, some e), log)
      | ((s, none), log) => ((logged step done n s).1, log ++ (logged step done n s).2)

inductive Reached (s₀ : S) : S → Prop
  | start : Reached s₀ s₀
  | next {s s'} (h : Reached s₀ s) (hgoing : done s = false) (hstep : step s = (s', none)) :
      Reached s₀ s'

variable {step done}

lemma iterate_of_done {s : S} (n : Nat) (h : done s = true) :
    iterate step done n s = (s, none) := by
  cases n with
  | zero => rfl
  | succ n => rw [iterate, if_pos h]

lemma iterate_of_fail {s s' : S} {e : E} (n : Nat) (hgoing : done s = false)
    (hstep : step s = (s', some e)) : iterate step done (n + 1) s = (s', some e) := by
  rw [iterate, if_neg (by simp [hgoing]), hstep]

lemma iterate_of_step {s s' : S} (n : Nat) (hgoing : done s = false)
    (hstep : step s = (s', none)) :
    iterate step done (n + 1) s = iterate step done n s' := by
  rw [iterate, if_neg (by simp [hgoing]), hstep]

theorem Reached.trans {s t u : S} (hst : Reached step done s t) (htu : Reached step done t u) :
    Reached step done s u := by
  induction htu with
  | start => exact hst
  | next h hgoing hstep ih => exact ih.next hgoing hstep

lemma Reached.head {s t : S} (h : Reached step done s t) :
    t = s ∨ ∃ s', done s = false ∧ step s = (s', none) ∧ Reached step done s' t := by
  induction h with
  | start => exact Or.inl rfl
  | next _ hgoing hstep ih =>
    rcases ih with rfl | ⟨s', hgoing', hstep', hreach⟩
    · exact Or.inr ⟨_, hgoing, hstep, .start⟩
    · exact Or.inr ⟨s', hgoing', hstep', hreach.next hgoing hstep⟩

/-- Of two states reached, one is reached from the other. -/
lemma Reached.linear {s₀ s t : S} (hs : Reached step done s₀ s) (ht : Reached step done s₀ t) :
    Reached step done s t ∨ Reached step done t s := by
  induction hs with
  | start => exact Or.inl ht
  | next _ hgoing hstep ih =>
    rcases ih with hst | hts
    · rcases hst.head with rfl | ⟨s', -, hstep', hreach⟩
      · exact Or.inr (Reached.start.next hgoing hstep)
      · rw [hstep] at hstep'
        cases hstep'
        exact Or.inl hreach
    · exact Or.inr (hts.next hgoing hstep)

/-- Where a loop stops: it is done there, or the next step fails. -/
def Stops (step : S → S × Option E) (done : S → Bool) (s : S) : Prop :=
  done s = true ∨ (step s).2 ≠ none

lemma Reached.of_stops {s t : S} (h : Reached step done s t) (hstops : Stops step done s) :
    t = s := by
  rcases h.head with heq | ⟨s', hgoing, hstep, -⟩
  · exact heq
  · rcases hstops with hdone | hfails
    · rw [hdone] at hgoing
      cases hgoing
    · rw [hstep] at hfails
      exact absurd rfl hfails

/-- A run stops in one state at most. -/
lemma Reached.stops_unique {s₀ s t : S} (hs : Reached step done s₀ s)
    (ht : Reached step done s₀ t) (hstops : Stops step done s) (htstops : Stops step done t) :
    s = t := by
  rcases hs.linear ht with hst | hts
  · exact (hst.of_stops hstops).symm
  · exact hts.of_stops htstops

/-- A property that every step preserves holds in every state reached. -/
theorem Reached.invariant {I : S → Prop} {s₀ s : S} (h : Reached step done s₀ s)
    (hstart : I s₀)
    (hstep : ∀ s s', I s → done s = false → step s = (s', none) → I s') : I s := by
  induction h with
  | start => exact hstart
  | next _ hgoing hst ih => exact hstep _ _ ih hgoing hst

/-- A loop that did not fail ends in a state it reached. -/
theorem iterate_reached {n : Nat} {s₀ s : S} (h : iterate step done n s₀ = (s, none)) :
    Reached step done s₀ s := by
  induction n generalizing s₀ with
  | zero =>
    cases h
    exact .start
  | succ n ih =>
    cases hdone : done s₀ with
    | true =>
      rw [iterate_of_done _ hdone] at h
      cases h
      exact .start
    | false =>
      cases hstep : step s₀ with
      | mk s₁ res =>
        cases res with
        | some e =>
          rw [iterate_of_fail n hdone hstep] at h
          cases h
        | none =>
          rw [iterate_of_step n hdone hstep] at h
          exact (Reached.start.next hdone hstep).trans (ih h)

/-- A loop that failed did so in its last step. -/
theorem iterate_failed {n : Nat} {s₀ s : S} {e : E}
    (h : iterate step done n s₀ = (s, some e)) :
    ∃ t, Reached step done s₀ t ∧ done t = false ∧ step t = (s, some e) := by
  induction n generalizing s₀ with
  | zero => cases h
  | succ n ih =>
    cases hdone : done s₀ with
    | true =>
      rw [iterate_of_done _ hdone] at h
      cases h
    | false =>
      cases hstep : step s₀ with
      | mk s₁ res =>
        cases res with
        | some e' =>
          rw [iterate_of_fail n hdone hstep] at h
          cases h
          exact ⟨s₀, .start, hdone, hstep⟩
        | none =>
          rw [iterate_of_step n hdone hstep] at h
          obtain ⟨t, hreach, hgoing, hlast⟩ := ih h
          exact ⟨t, (Reached.start.next hdone hstep).trans hreach, hgoing, hlast⟩

/-- A loop whose steps use something up is done when it was given as many steps. -/
theorem iterate_done {I : S → Prop} {m : S → Nat}
    (hstep : ∀ s s', I s → done s = false → step s = (s', none) →
      done s' = true ∨ I s' ∧ m s' < m s)
    {n : Nat} {s₀ s : S} (hstart : I s₀) (hn : m s₀ < n)
    (h : iterate step done n s₀ = (s, none)) : done s = true := by
  induction n generalizing s₀ with
  | zero => omega
  | succ n ih =>
    cases hdone : done s₀ with
    | true =>
      rw [iterate_of_done _ hdone] at h
      cases h
      exact hdone
    | false =>
      cases hst : step s₀ with
      | mk s₁ res =>
        cases res with
        | some e =>
          rw [iterate_of_fail n hdone hst] at h
          cases h
        | none =>
          rw [iterate_of_step n hdone hst] at h
          rcases hstep s₀ s₁ hstart hdone hst with hend | ⟨hinv, hless⟩
          · rw [iterate_of_done _ hend] at h
            cases h
            exact hend
          · exact ih hinv (by omega) h

/-- What every step keeps, failed or not, the loop keeps. -/
theorem iterate_keeps {P : S → Prop} (hstep : ∀ s, P s → P (step s).1) {s : S} (hs : P s)
    (n : Nat) : P (iterate step done n s).1 := by
  induction n generalizing s with
  | zero => exact hs
  | succ n ih =>
    cases hdone : done s with
    | true =>
      rw [iterate_of_done _ hdone]
      exact hs
    | false =>
      have hnext := hstep s hs
      cases hst : step s with
      | mk s' res =>
        rw [hst] at hnext
        cases res with
        | some e =>
          rw [iterate_of_fail n hdone hst]
          exact hnext
        | none =>
          rw [iterate_of_step n hdone hst]
          exact ih hnext

/-- What a loop that runs to its end leads to, read off the state it stops in. -/
theorem iterate_eq_of_done {n : Nat} {s₀ q : S}
    (hends : (iterate step done n s₀).2 = none → done (iterate step done n s₀).1 = true)
    (hq : Reached step done s₀ q) (hdone : done q = true) :
    iterate step done n s₀ = (q, none) := by
  cases hrun : iterate step done n s₀ with
  | mk s res =>
    cases res with
    | none =>
      rw [hrun] at hends
      rw [(iterate_reached hrun).stops_unique hq (Or.inl (hends rfl)) (Or.inl hdone)]
    | some e =>
      obtain ⟨t, ht, hgoing, hstep⟩ := iterate_failed hrun
      have heq := ht.stops_unique hq (Or.inr (by simp [hstep])) (Or.inl hdone)
      rw [heq, hdone] at hgoing
      cases hgoing

theorem iterate_eq_of_fail {n : Nat} {s₀ q s : S} {e : E}
    (hends : (iterate step done n s₀).2 = none → done (iterate step done n s₀).1 = true)
    (hq : Reached step done s₀ q) (hgoing : done q = false) (hstep : step q = (s, some e)) :
    iterate step done n s₀ = (s, some e) := by
  have hstops : Stops step done q := Or.inr (by simp [hstep])
  cases hrun : iterate step done n s₀ with
  | mk s' res =>
    cases res with
    | none =>
      rw [hrun] at hends
      have heq := (iterate_reached hrun).stops_unique hq (Or.inl (hends rfl)) hstops
      have hdone := hends rfl
      rw [heq, hgoing] at hdone
      cases hdone
    | some e' =>
      obtain ⟨t, ht, -, hlast⟩ := iterate_failed hrun
      rw [ht.stops_unique hq (Or.inr (by simp [hlast])) hstops, hstep] at hlast
      rw [hlast]

/-- A loop over states that are made of the states of another. -/
theorem iterate_map {T : Type*} {stepT : T → T × Option E} {doneT : T → Bool} (f : S → T)
    (hstep : ∀ s, stepT (f s) = (f (step s).1, (step s).2)) (hdone : ∀ s, doneT (f s) = done s)
    (n : Nat) (s : S) :
    iterate stepT doneT n (f s) = (f (iterate step done n s).1, (iterate step done n s).2) := by
  induction n generalizing s with
  | zero => rfl
  | succ n ih =>
    cases hd : done s with
    | true =>
      rw [iterate_of_done _ hd, iterate_of_done _ ((hdone s).trans hd)]
    | false =>
      cases hst : step s with
      | mk s' res =>
        have hstT : stepT (f s) = (f s', res) := by rw [hstep, hst]
        cases res with
        | some e => rw [iterate_of_fail n hd hst, iterate_of_fail n ((hdone s).trans hd) hstT]
        | none => rw [iterate_of_step n hd hst, iterate_of_step n ((hdone s).trans hd) hstT, ih]

section Logged

variable {A : Type*} {step : S → (S × Option E) × List A} {done : S → Bool}

theorem logged_fst (n : Nat) (s : S) :
    (logged step done n s).1 = iterate (fun s => (step s).1) done n s := by
  induction n generalizing s with
  | zero => rfl
  | succ n ih =>
    unfold logged iterate
    split_ifs
    · rfl
    · rcases step s with ⟨⟨s', res⟩, log⟩
      cases res with
      | some e => rfl
      | none => exact ih s'

/-- What each step puts into the log, under a condition on logs that their parts meet. -/
theorem logged_forall {I : S → Prop} {R : List A → Prop} {P : A → Prop}
    (hleft : ∀ l m, R (l ++ m) → R l) (hright : ∀ l m, R (l ++ m) → R m)
    (hnext : ∀ s, I s → done s = false → I (step s).1.1)
    (hstep : ∀ s, I s → done s = false → R (step s).2 → ∀ a ∈ (step s).2, P a) (n : Nat) {s : S}
    (hs : I s) (hlog : R (logged step done n s).2) : ∀ a ∈ (logged step done n s).2, P a := by
  induction n generalizing s with
  | zero => exact fun a ha => absurd ha List.not_mem_nil
  | succ n ih =>
    unfold logged at hlog ⊢
    cases hdone : done s with
    | true => simp
    | false =>
      have hkeeps := hnext s hs hdone
      have hhere := hstep s hs hdone
      rw [hdone] at hlog
      generalize step s = run at hlog hkeeps hhere
      obtain ⟨⟨s', res⟩, log⟩ := run
      cases res with
      | some e => exact hhere hlog
      | none =>
        simp only [Bool.false_eq_true, if_false, List.mem_append] at hlog ⊢
        rintro a (ha | ha)
        · exact hhere (hleft _ _ hlog) a ha
        · exact ih hkeeps (hright _ _ hlog) a ha

end Logged

end Loop
