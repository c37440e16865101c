import Mathlib.Data.List.Basic

/-!
# Runs of a partial step function

A machine is a step function that may refuse an action. Its runs are the sequences of
actions that are never refused.
-/

namespace Run

variable {S A : Type*}

/-- The state after the actions, unless one of them is refused. -/
def exec (step : S → A → Option S) : S → List A → Option S
  | s, [] => some s
  | s, a :: as =>
    match step s a with
    | none => none
    | some s' => exec step s' as

@[simp] lemma exec_nil (step : S → A → Option S) (s : S) : exec step s [] = some s := rfl

lemma exec_cons_eq_some {step : S → A → Option S} {s s' : S} {a : A} {as : List A} :
    exec step s (a :: as) = some s' ↔ ∃ t, step s a = some t ∧ exec step t as = some s' := by
  cases hstep : step s a with
  | none => simp [exec, hstep]
  | some t => simp [exec, hstep]

lemma exec_append {step : S → A → Option S} {s s' : S} {as bs : List A} :
    exec step s (as ++ bs) = some s' ↔
      ∃ t, exec step s as = some t ∧ exec step t bs = some s' := by
  induction as generalizing s with
  | nil => simp
  | cons a as ih =>
    rw [List.cons_append, exec_cons_eq_some]
    constructor
    · rintro ⟨t, hstep, hrest⟩
      obtain ⟨u, has, hbs⟩ := ih.mp hrest
      exact ⟨u, exec_cons_eq_some.mpr ⟨t, hstep, has⟩, hbs⟩
    · rintro ⟨u, has, hbs⟩
      obtain ⟨t, hstep, hrest⟩ := exec_cons_eq_some.mp has
      exact ⟨t, hstep, ih.mpr ⟨u, hrest, hbs⟩⟩

lemma exec_cons_of_eq_some {step : S → A → Option S} {s t : S} {a : A} {as : List A}
    (h : step s a = some t) : exec step s (a :: as) = exec step t as := by
  rw [exec, h]

lemma exec_append_of_eq_some {step : S → A → Option S} {s t : S} {as bs : List A}
    (h : exec step s as = some t) : exec step s (as ++ bs) = exec step t bs := by
  ext u
  rw [exec_append]
  constructor
  · rintro ⟨t', ht', hu⟩
    rw [h, Option.some.injEq] at ht'
    exact ht' ▸ hu
  · exact fun hu => ⟨t, h, hu⟩

/-- A property that every step preserves holds after every run. -/
theorem exec_invariant {step : S → A → Option S} {I : S → Prop}
    (hstep : ∀ s a s', I s → step s a = some s' → I s') {s s' : S} {as : List A}
    (hs : I s) (hrun : exec step s as = some s') : I s' := by
  induction as generalizing s with
  | nil =>
    rw [exec_nil, Option.some.injEq] at hrun
    exact hrun ▸ hs
  | cons a as ih =>
    obtain ⟨t, hst, hrest⟩ := exec_cons_eq_some.mp hrun
    exact ih (hstep s a t hs hst) hrest

end Run
