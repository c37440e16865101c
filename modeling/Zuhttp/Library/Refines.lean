import Zuhttp.Library.Prog

/-!
# Refinement of programs

A program over a large state that does, seen through a view of the state, what a program over
a smaller one does.
-/

namespace Prog

variable {S T E F α β γ δ : Type}

/-- Seen through `view`, `m` ends as `p` does: in a value `val` relates to that of `p`, or in
the failure of `p`. -/
def Refines (view : S → T) (fail : F → E) (val : α → β) (m : Prog S E α) (p : Prog T F β) : Prop :=
  ∀ s, (exec m s).1.map val = (exec p (view s)).1.mapError fail ∧
    view (exec m s).2 = (exec p (view s)).2

variable {view : S → T} {fail : F → E} {val : α → β} {m : Prog S E α} {p : Prog T F β}

lemma Refines.pure (val : α → β) (a : α) : Refines view fail val (Pure.pure a : Prog S E α)
    (Pure.pure (val a) : Prog T F β) :=
  fun _ => ⟨rfl, rfl⟩

lemma Refines.throw (e : F) : Refines view fail val (throw (fail e) : Prog S E α)
    (MonadExcept.throw e : Prog T F β) :=
  fun _ => ⟨rfl, rfl⟩

theorem Refines.bind {val' : γ → δ} {k : α → Prog S E γ} {q : β → Prog T F δ}
    (hm : Refines view fail val m p) (hk : ∀ a, Refines view fail val' (k a) (q (val a))) :
    Refines view fail val' (m >>= k) (p >>= q) := by
  intro s
  obtain ⟨hvalue, hview⟩ := hm s
  rw [exec_bind, exec_bind]
  cases hrun : exec m s with
  | mk r t =>
    cases hspec : exec p (view s) with
    | mk r' t' =>
      rw [hrun, hspec] at hvalue hview
      dsimp only at hvalue hview
      cases r with
      | ok a =>
        cases r' with
        | ok b =>
          cases hvalue
          rw [← hview]
          exact hk a t
        | error e => cases hvalue
      | error e =>
        cases r' with
        | ok b => cases hvalue
        | error e' =>
          cases hvalue
          exact ⟨rfl, hview⟩

/-- A step that ends in a value and does not change what is seen. -/
def Unseen (view : S → T) (m : Prog S E α) : Prop :=
  ∀ s, ∃ a t, exec m s = (.ok a, t) ∧ view t = view s

theorem Refines.after {k : γ → Prog S E α} {m : Prog S E γ} (hm : Unseen view m)
    (hk : ∀ c, Refines view fail val (k c) p) : Refines view fail val (m >>= k) p := by
  intro s
  obtain ⟨c, t, hrun, hview⟩ := hm s
  rw [exec_bind_ok hrun, ← hview]
  exact hk c t

lemma Sure.exec {P : S → Prop} (h : Sure P m) {s : S} (hs : P s) :
    ∃ a t, Prog.exec m s = (.ok a, t) ∧ P t := by
  have hends := h s hs
  cases hrun : Prog.exec m s with
  | mk r t =>
    rw [hrun] at hends
    cases r with
    | ok a => exact ⟨a, t, rfl, hends⟩
    | error e => exact hends.elim

/-- A step of the smaller program. -/
def lift (view : S → T) (update : T → S → S) (fail : F → E) (p : Prog T F α) : Prog S E α :=
  ofExec (fun s => ((exec p (view s)).1.mapError fail, update (exec p (view s)).2 s))

lemma Refines.lift {update : T → S → S} {p : Prog T F α} (h : ∀ t s, view (update t s) = t) :
    Refines view fail id (Prog.lift view update fail p) p := by
  intro s
  unfold Prog.lift
  rw [exec_ofExec, h]
  cases exec p (view s) with
  | mk r t => cases r <;> exact ⟨rfl, rfl⟩

end Prog
