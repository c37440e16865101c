import Mathlib.Data.List.Basic

/-!
# Incremental parsers

A parser over a growing buffer answers that it has a value, that the input is bad, or that
it needs more. It is stable when more input never revises the first two answers.
-/

namespace Incremental

variable {B α β : Type*}

/-- The answer of a parser: a value and the unread rest, a refusal, or a wait for input. -/
inductive Parse (B α : Type*)
  | ok (a : α) (rest : List B)
  | bad
  | incomplete

namespace Parse

def bind (r : Parse B α) (f : α → List B → Parse B β) : Parse B β :=
  match r with
  | ok a rest => f a rest
  | bad => bad
  | incomplete => incomplete

def map (f : α → β) (r : Parse B α) : Parse B β := r.bind (fun a rest => ok (f a) rest)

@[simp] lemma bind_ok (a : α) (rest : List B) (f : α → List B → Parse B β) :
    (ok a rest).bind f = f a rest := rfl

@[simp] lemma bind_bad (f : α → List B → Parse B β) : (bad : Parse B α).bind f = bad := rfl

@[simp] lemma bind_incomplete (f : α → List B → Parse B β) :
    (incomplete : Parse B α).bind f = incomplete := rfl

lemma bind_eq_ok {r : Parse B α} {f : α → List B → Parse B β} {b : β} {rest : List B} :
    r.bind f = ok b rest ↔ ∃ a mid, r = ok a mid ∧ f a mid = ok b rest := by
  cases r <;> simp [bind]

lemma map_eq_ok {r : Parse B α} {f : α → β} {b : β} {rest : List B} :
    r.map f = ok b rest ↔ ∃ a, r = ok a rest ∧ f a = b := by
  cases r <;> simp [map, bind, and_comm]

end Parse

open Parse

/-- More input changes neither a value nor a refusal, and leaves itself unread. -/
structure Stable (p : List B → Parse B α) : Prop where
  ok_append : ∀ {s a r} (t : List B), p s = ok a r → p (s ++ t) = ok a (r ++ t)
  bad_append : ∀ {s} (t : List B), p s = bad → p (s ++ t) = bad

lemma Stable.pure (a : α) : Stable (fun s : List B => ok a s) where
  ok_append := by
    intro s b r t h
    simp only [ok.injEq] at h
    rw [h.1, h.2]
  bad_append := by
    intro s t h
    cases h

lemma Stable.refuse : Stable (fun _ : List B => (bad : Parse B α)) where
  ok_append := by
    intro s b r t h
    cases h
  bad_append := by
    intro s t _
    rfl

/-- Stable parsers compose. -/
theorem Stable.bind {p : List B → Parse B α} {q : α → List B → Parse B β} (hp : Stable p)
    (hq : ∀ a, Stable (q a)) : Stable (fun s => (p s).bind q) where
  ok_append := by
    intro s b r t h
    obtain ⟨a, mid, hs, hmid⟩ := bind_eq_ok.mp h
    rw [hp.ok_append t hs, bind_ok]
    exact (hq a).ok_append t hmid
  bad_append := by
    intro s t h
    cases hs : p s with
    | ok a mid =>
      rw [hs, bind_ok] at h
      rw [hp.ok_append t hs, bind_ok]
      exact (hq a).bad_append t h
    | bad => rw [hp.bad_append t hs, bind_bad]
    | incomplete =>
      rw [hs, bind_incomplete] at h
      cases h

theorem Stable.map {p : List B → Parse B α} (f : α → β) (hp : Stable p) :
    Stable (fun s => (p s).map f) :=
  hp.bind (fun a => Stable.pure (f a))

/-- A parser that decides on the first symbol is stable when its branches are. -/
theorem Stable.head {p : List B → Parse B α} {q : B → List B → Parse B α}
    (hnil : p [] = incomplete) (hcons : ∀ c s, p (c :: s) = q c s) (hq : ∀ c, Stable (q c)) :
    Stable p where
  ok_append := by
    intro s a r t h
    cases s with
    | nil =>
      rw [hnil] at h
      cases h
    | cons c s =>
      rw [hcons] at h
      rw [List.cons_append, hcons]
      exact (hq c).ok_append t h
  bad_append := by
    intro s t h
    cases s with
    | nil =>
      rw [hnil] at h
      cases h
    | cons c s =>
      rw [hcons] at h
      rw [List.cons_append, hcons]
      exact (hq c).bad_append t h

/-- A parser that walks over symbols until one of them decides is stable. -/
theorem Stable.loop {p : List B → Parse B α} (f : B → α → α) (hnil : p [] = incomplete)
    (hcons : ∀ c, (∀ s, p (c :: s) = (p s).map (f c)) ∨
      ∃ q : List B → Parse B α, Stable q ∧ ∀ s, p (c :: s) = q s) : Stable p where
  ok_append := by
    intro s
    induction s with
    | nil =>
      intro a r t h
      rw [hnil] at h
      cases h
    | cons c s ih =>
      intro a r t h
      rw [List.cons_append]
      rcases hcons c with hwalk | ⟨q, hq, hstop⟩
      · rw [hwalk] at h ⊢
        obtain ⟨b, hb, rfl⟩ := map_eq_ok.mp h
        exact map_eq_ok.mpr ⟨b, ih t hb, rfl⟩
      · rw [hstop] at h ⊢
        exact hq.ok_append t h
  bad_append := by
    intro s
    induction s with
    | nil =>
      intro t h
      rw [hnil] at h
      cases h
    | cons c s ih =>
      intro t h
      rw [List.cons_append]
      rcases hcons c with hwalk | ⟨q, hq, hstop⟩
      · rw [hwalk] at h ⊢
        cases hs : p s with
        | ok a r =>
          rw [hs] at h
          cases h
        | bad =>
          rw [ih t hs]
          rfl
        | incomplete =>
          rw [hs] at h
          cases h
      · rw [hstop] at h ⊢
        exact hq.bad_append t h

end Incremental
