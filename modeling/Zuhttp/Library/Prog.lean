import Mathlib.Data.Set.Basic

/-!
# Programs with a state and failures

A program reads and writes a state and ends in a value or in a failure; a failure keeps the
state it happened in. `Triple` is Hoare's triple with one postcondition for each way to end.
-/

/-- A program that may fail. -/
abbrev Prog (S E : Type) := ExceptT E (StateM S)

namespace Prog

variable {S E F α β : Type}

/-- How a program ends and in which state. -/
def exec (m : Prog S E α) (s : S) : Except E α × S := m.run.run s

lemma exec_pure (a : α) (s : S) : exec (pure a : Prog S E α) s = (.ok a, s) := rfl

lemma exec_get (s : S) : exec (get : Prog S E S) s = (.ok s, s) := rfl

lemma exec_modify (f : S → S) (s : S) : exec (modify f : Prog S E Unit) s = (.ok (), f s) := rfl

lemma exec_bind (m : Prog S E α) (k : α → Prog S E β) (s : S) :
    exec (m >>= k) s =
      match exec m s with
      | (.ok a, t) => exec (k a) t
      | (.error e, t) => (.error e, t) := by
  unfold exec
  simp only [ExceptT.run_bind, StateT.run_bind]
  cases (m.run.run s : Except E α × S) with
  | mk r t =>
    cases r with
    | ok a => rfl
    | error e => rfl

lemma exec_bind_ok {m : Prog S E α} {k : α → Prog S E β} {s t : S} {a : α}
    (h : exec m s = (.ok a, t)) : exec (m >>= k) s = exec (k a) t := by
  rw [exec_bind, h]

lemma exec_bind_error {m : Prog S E α} {k : α → Prog S E β} {s t : S} {e : E}
    (h : exec m s = (.error e, t)) : exec (m >>= k) s = (.error e, t) := by
  rw [exec_bind, h]

/-- A sequence ends in a value only if both parts do. -/
lemma exec_bind_eq_ok {m : Prog S E α} {k : α → Prog S E β} {s u : S} {b : β}
    (h : exec (m >>= k) s = (.ok b, u)) :
    ∃ a t, exec m s = (.ok a, t) ∧ exec (k a) t = (.ok b, u) := by
  rw [exec_bind] at h
  cases hm : exec m s with
  | mk r t =>
    rw [hm] at h
    cases r with
    | ok a => exact ⟨a, t, rfl, h⟩
    | error e => cases h

/-- What holds of the ways to end. -/
def Ends (Q : α → S → Prop) (R : E → S → Prop) : Except E α × S → Prop
  | (.ok a, s) => Q a s
  | (.error e, s) => R e s

/-- Started where `P` holds, the program ends in a value where `Q` holds or in a failure
where `R` does. -/
def Triple (P : S → Prop) (m : Prog S E α) (Q : α → S → Prop) (R : E → S → Prop) : Prop :=
  ∀ s, P s → Ends Q R (exec m s)

variable {P P' : S → Prop} {Q Q' : α → S → Prop} {R R' : E → S → Prop}

lemma Triple.ok {m : Prog S E α} (h : Triple P m Q R) {s t : S} {a : α} (hs : P s)
    (hm : exec m s = (.ok a, t)) : Q a t := by
  have hends := h s hs
  rw [hm] at hends
  exact hends

lemma Triple.error {m : Prog S E α} (h : Triple P m Q R) {s t : S} {e : E} (hs : P s)
    (hm : exec m s = (.error e, t)) : R e t := by
  have hends := h s hs
  rw [hm] at hends
  exact hends

theorem Triple.conseq {m : Prog S E α} (h : Triple P m Q R) (hpre : ∀ s, P' s → P s)
    (hok : ∀ a s, Q a s → Q' a s) (herr : ∀ e s, R e s → R' e s) : Triple P' m Q' R' := by
  intro s hs
  have hends := h s (hpre s hs)
  cases hm : exec m s with
  | mk r t =>
    rw [hm] at hends
    cases r with
    | ok a => exact hok a t hends
    | error e => exact herr e t hends

theorem Triple.pure {a : α} (h : ∀ s, P s → Q a s) : Triple P (Pure.pure a : Prog S E α) Q R :=
  fun s hs => h s hs

theorem Triple.throw {e : E} (h : ∀ s, P s → R e s) : Triple P (throw e : Prog S E α) Q R :=
  fun s hs => h s hs

/-- What is known of the state holds of the value read. -/
theorem Triple.reading {m : S → Prog S E α} (h : ∀ s, P s → Triple P (m s) Q R) :
    Triple P (MonadState.get >>= m) Q R :=
  fun s hs => h s hs s hs

theorem Triple.modify {f : S → S} {Q : Unit → S → Prop} (h : ∀ s, P s → Q () (f s)) :
    Triple P (modify f : Prog S E Unit) Q R :=
  fun s hs => h s hs

theorem Triple.bind {M : α → S → Prop} {Q : β → S → Prop} {m : Prog S E α}
    {k : α → Prog S E β} (hm : Triple P m M R) (hk : ∀ a, Triple (M a) (k a) Q R) :
    Triple P (m >>= k) Q R := by
  intro s hs
  have hends := hm s hs
  rw [exec_bind]
  cases hrun : exec m s with
  | mk r t =>
    rw [hrun] at hends
    cases r with
    | ok a => exact hk a t hends
    | error e => exact hends

theorem Triple.ite {c : Prop} [Decidable c] {m k : Prog S E α}
    (hm : c → Triple P m Q R) (hk : ¬c → Triple P k Q R) :
    Triple P (if c then m else k) Q R := by
  split_ifs with hc
  · exact hm hc
  · exact hk hc

/-- What is known apart from the state may be used in front of a program. -/
theorem Triple.assuming {m : Prog S E α} {p : Prop} (h : p → Triple P m Q R) :
    Triple (fun s => p ∧ P s) m Q R :=
  fun s hs => h hs.1 s hs.2

/-- A program that does not fail. -/
theorem Triple.surely {m : Prog S E α} (h : Triple P m Q (fun _ _ => False)) : Triple P m Q R :=
  h.conseq (fun _ hs => hs) (fun _ _ hs => hs) (fun _ _ hs => hs.elim)

theorem Triple.each {ι : Type} {P : ι → S → Prop} {m : Prog S E α}
    (h : ∀ i, Triple (P i) m Q R) : Triple (fun s => ∃ i, P i s) m Q R :=
  fun s ⟨i, hs⟩ => h i s hs

def onlyIf (c : Prop) [Decidable c] (m : Prog S E Unit) : Prog S E Unit :=
  if c then m else Pure.pure ()

/-! ### What a program keeps -/

/-- However the program ends, it keeps `P`. -/
def Keeps (P : S → Prop) (m : Prog S E α) : Prop := Triple P m (fun _ => P) (fun _ => P)

lemma Keeps.pure (a : α) : Keeps P (Pure.pure a : Prog S E α) := fun _ hs => hs

lemma Keeps.throw (e : E) : Keeps P (throw e : Prog S E α) := fun _ hs => hs

lemma Keeps.bind {m : Prog S E α} {k : α → Prog S E β} (hm : Keeps P m) (hk : ∀ a, Keeps P (k a)) :
    Keeps P (m >>= k) := Triple.bind hm hk

lemma Keeps.get : Keeps P (get : Prog S E S) := fun _ hs => hs

lemma Keeps.modify {f : S → S} (h : ∀ s, P s → P (f s)) :
    Keeps P (modify f : Prog S E Unit) := fun s hs => h s hs

lemma Keeps.set {t : S} (h : P t) : Keeps P (set t : Prog S E PUnit) := fun _ _ => h

lemma Keeps.ite {c : Prop} [Decidable c] {m k : Prog S E α} (hm : Keeps P m) (hk : Keeps P k) :
    Keeps P (if c then m else k) := Triple.ite (fun _ => hm) (fun _ => hk)

lemma Keeps.onlyIf {c : Prop} [Decidable c] {m : Prog S E Unit} (hm : Keeps P m) :
    Keeps P (Prog.onlyIf c m) := Keeps.ite hm (Keeps.pure _)

/-- The program keeps `P` and does not fail. -/
def Sure (P : S → Prop) (m : Prog S E α) : Prop := Triple P m (fun _ => P) (fun _ _ => False)

lemma Sure.triple {m : Prog S E α} (h : Sure P m) : Triple P m (fun _ => P) R := Triple.surely h

lemma Sure.pure (a : α) : Sure P (Pure.pure a : Prog S E α) := fun _ hs => hs

lemma Sure.bind {m : Prog S E α} {k : α → Prog S E β} (hm : Sure P m) (hk : ∀ a, Sure P (k a)) :
    Sure P (m >>= k) := Triple.bind hm hk

lemma Sure.get : Sure P (get : Prog S E S) := fun _ hs => hs

lemma Sure.modify {f : S → S} (h : ∀ s, P s → P (f s)) : Sure P (modify f : Prog S E Unit) :=
  fun s hs => h s hs

lemma Sure.set {t : S} (h : P t) : Sure P (set t : Prog S E PUnit) := fun _ _ => h

lemma Sure.ite {c : Prop} [Decidable c] {m k : Prog S E α} (hm : Sure P m) (hk : Sure P k) :
    Sure P (if c then m else k) := Triple.ite (fun _ => hm) (fun _ => hk)

lemma Sure.onlyIf {c : Prop} [Decidable c] {m : Prog S E Unit} (hm : Sure P m) :
    Sure P (Prog.onlyIf c m) := Sure.ite hm (Sure.pure _)

/-- A value the program ends in satisfies `A`. -/
def Gives (A : α → Prop) (m : Prog S E α) : Prop :=
  Triple (fun _ => True) m (fun a _ => A a) (fun _ _ => True)

variable {A B : α → Prop}

lemma Gives.any (m : Prog S E α) : Gives (fun _ => True) m := by
  intro s _
  cases exec m s with
  | mk r t => cases r <;> trivial

lemma Gives.pure {a : α} (h : A a) : Gives A (Pure.pure a : Prog S E α) := fun _ _ => h

lemma Gives.throw (e : E) : Gives A (throw e : Prog S E α) := fun _ _ => trivial

lemma Gives.fails {m : Prog S E α}
    (h : Triple (fun _ => True) m (fun _ _ => False) (fun _ _ => True)) : Gives A m :=
  h.conseq (fun _ hs => hs) (fun _ _ hs => hs.elim) (fun _ _ hs => hs)

lemma Gives.bind {C : β → Prop} {m : Prog S E α} {k : α → Prog S E β} (hm : Gives A m)
    (hk : ∀ a, A a → Gives C (k a)) : Gives C (m >>= k) :=
  Triple.bind hm (fun a s ha => hk a ha s trivial)

/-- What comes first gives nothing that is used. -/
lemma Gives.andThen {C : β → Prop} {m : Prog S E α} {k : α → Prog S E β}
    (hk : ∀ a, Gives C (k a)) : Gives C (m >>= k) := (Gives.any m).bind (fun a _ => hk a)

lemma Gives.ite {c : Prop} [Decidable c] {m k : Prog S E α} (hm : c → Gives A m)
    (hk : ¬c → Gives A k) : Gives A (if c then m else k) := Triple.ite hm hk

lemma Gives.imp {m : Prog S E α} (h : Gives A m) (hi : ∀ a, A a → B a) : Gives B m :=
  h.conseq (fun _ hs => hs) (fun a _ ha => hi a ha) (fun _ _ hs => hs)

/-! ### Parts of the state -/

/-- The program that acts as `f` does. -/
def ofExec (f : S → Except E α × S) : Prog S E α := ExceptT.mk (fun s => pure (f s))

lemma exec_ofExec (f : S → Except E α × S) (s : S) : exec (ofExec f) s = f s := rfl

variable {T : Type}

/-- A program on a part of the state. -/
def zoom (view : S → T) (update : T → S → S) (m : Prog T E α) : Prog S E α :=
  ofExec (fun s => ((exec m (view s)).1, update (exec m (view s)).2 s))

lemma exec_zoom (view : S → T) (update : T → S → S) (m : Prog T E α) (s : S) :
    exec (zoom view update m) s = ((exec m (view s)).1, update (exec m (view s)).2 s) := rfl

/-- The failure of a program as a value. -/
def attempt (m : Prog S E α) : Prog S F (Except E α) :=
  ofExec (fun s => (.ok (exec m s).1, (exec m s).2))

lemma exec_attempt (m : Prog S E α) (s : S) :
    exec (attempt m : Prog S F (Except E α)) s = (.ok (exec m s).1, (exec m s).2) := rfl

/-- A program that cleans up when it fails. -/
def onFailure (f : S → S) (m : Prog S E α) : Prog S E α :=
  ofExec (fun s =>
    match exec m s with
    | (.ok a, t) => (.ok a, t)
    | (.error e, t) => (.error e, f t))

/-- What is shown of the results of a program on a part of the state, next to what does not
depend on that part. -/
theorem Triple.zoomed {view : S → T} {update : T → S → S} {m : Prog T E α} {A : α → Prop}
    {B : E → Prop} (hm : Triple (fun _ => True) m (fun a _ => A a) (fun e _ => B e))
    (h : ∀ t s, P s → P (update t s)) :
    Triple P (Prog.zoom view update m) (fun a s => A a ∧ P s) (fun e s => B e ∧ P s) := by
  intro s hs
  have hends := hm (view s) trivial
  rw [exec_zoom]
  cases hrun : exec m (view s) with
  | mk r t =>
    rw [hrun] at hends
    cases r with
    | ok a => exact ⟨hends, h t s hs⟩
    | error e => exact ⟨hends, h t s hs⟩

lemma Keeps.zoom {view : S → T} {update : T → S → S} {m : Prog T E α}
    (h : ∀ t s, P s → P (update t s)) : Keeps P (Prog.zoom view update m) := by
  have hm : Triple (fun _ => True) m (fun _ _ => True) (fun _ _ => True) := by
    intro s _
    cases exec m s with
    | mk r t => cases r <;> trivial
  exact (Triple.zoomed hm h).conseq (fun _ hs => hs) (fun _ _ hs => hs.2) (fun _ _ hs => hs.2)

lemma Sure.zoom {view : S → T} {update : T → S → S} {m : Prog T E α}
    (hm : Sure (fun _ => True) m) (h : ∀ t s, P s → P (update t s)) :
    Sure P (Prog.zoom view update m) :=
  (Triple.zoomed (A := fun _ => True) (B := fun _ => False) hm h).conseq (fun _ hs => hs)
    (fun _ _ hs => hs.2) (fun _ _ hs => hs.1)

theorem Triple.attempt {P : S → Prop} {Q : α → S → Prop} {R : E → S → Prop}
    {R' : F → S → Prop} {m : Prog S E α} (h : Triple P m Q R) :
    Triple P (Prog.attempt m : Prog S F (Except E α))
      (fun r s => match r with
        | .ok a => Q a s
        | .error e => R e s) R' := by
  intro s hs
  have hends := h s hs
  rw [exec_attempt]
  cases hm : exec m s with
  | mk r t =>
    rw [hm] at hends
    cases r with
    | ok a => exact hends
    | error e => exact hends

lemma Gives.attempt {A : α → Prop} {m : Prog S E α} (h : Gives A m) :
    Gives (fun r => ∀ a, r = .ok a → A a) (Prog.attempt m : Prog S F (Except E α)) := by
  refine (Triple.attempt h).conseq (fun _ hs => hs) (fun r s hr a ha => ?_) (fun _ _ hs => hs)
  rw [ha] at hr
  exact hr

theorem Triple.onFailure {P : S → Prop} {Q : α → S → Prop} {R D : E → S → Prop} {f : S → S}
    {m : Prog S E α} (h : Triple P m Q D) (hf : ∀ e s, D e s → R e (f s)) :
    Triple P (Prog.onFailure f m) Q R := by
  intro s hs
  have hends := h s hs
  unfold Prog.onFailure
  rw [exec_ofExec]
  cases hm : exec m s with
  | mk r t =>
    rw [hm] at hends
    cases r with
    | ok a => exact hends
    | error e => exact hf e t hends

lemma Keeps.onFailure {f : S → S} {m : Prog S E α} (hm : Keeps P m) (hf : ∀ s, P s → P (f s)) :
    Keeps P (Prog.onFailure f m) :=
  Triple.onFailure hm (fun _ s hs => hf s hs)

/-- The state a program starts in may be named. -/
theorem Triple.fixed {m : Prog S E α} (h : ∀ s, P s → Triple (fun t => t = s) m Q R) :
    Triple P m Q R :=
  fun s hs => h s hs s rfl

end Prog
