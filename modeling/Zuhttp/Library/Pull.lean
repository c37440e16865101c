import Zuhttp.Library.Loop

/-!
# A buffer that is emptied between steps

The steps of a source add to a buffer. A loop that empties the buffer between steps makes
the same steps as one that lets it grow, and what it takes out is what the other collects.
-/

namespace Pull

open Loop

variable {S E B : Type*}

/-- A source of symbols: its steps, and the buffer they add to. -/
structure Source (S E B : Type*) where
  step : S → S × Option E
  done : S → Bool
  buffer : S → List B
  clear : S → S

/-- The steps add to the buffer and do not look at it. -/
structure Source.Blind (src : Source S E B) (good : S → Prop) : Prop where
  good_step : ∀ {s}, good s → good (src.step s).1
  good_clear : ∀ {s}, good s → good (src.clear s)
  clear_clear : ∀ s, src.clear (src.clear s) = src.clear s
  done_clear : ∀ s, src.done (src.clear s) = src.done s
  buffer_clear : ∀ s, src.buffer (src.clear s) = []
  step_clear : ∀ {s}, good s → src.clear (src.step (src.clear s)).1 = src.clear (src.step s).1
  answer_clear : ∀ {s}, good s → (src.step (src.clear s)).2 = (src.step s).2
  buffer_step : ∀ {s}, good s →
    src.buffer (src.step s).1 = src.buffer s ++ src.buffer (src.step (src.clear s)).1

/-- `p` is `b`, less the symbols `given` that were taken out of its buffer. -/
structure Follows (src : Source S E B) (good : S → Prop) (given : List B) (b p : S) : Prop where
  good_left : good b
  good_right : good p
  same : src.clear p = src.clear b
  buffer : src.buffer b = given ++ src.buffer p

variable {src : Source S E B} {good : S → Prop}

lemma Follows.refl {s : S} (h : good s) : Follows src good [] s s := ⟨h, h, rfl, rfl⟩

lemma Follows.clear (hblind : src.Blind good) {given : List B} {b p : S}
    (h : Follows src good given b p) :
    Follows src good (given ++ src.buffer p) b (src.clear p) where
  good_left := h.good_left
  good_right := hblind.good_clear h.good_right
  same := (hblind.clear_clear p).trans h.same
  buffer := by rw [hblind.buffer_clear, List.append_nil, h.buffer]

lemma Follows.done (hblind : src.Blind good) {given : List B} {b p : S}
    (h : Follows src good given b p) : src.done p = src.done b := by
  rw [← hblind.done_clear p, h.same, hblind.done_clear]

/-- A step of one is a step of the other. -/
theorem Follows.step (hblind : src.Blind good) {given : List B} {b p : S}
    (h : Follows src good given b p) :
    Follows src good given (src.step b).1 (src.step p).1 ∧
      (src.step p).2 = (src.step b).2 where
  left :=
    { good_left := hblind.good_step h.good_left
      good_right := hblind.good_step h.good_right
      same := by
        rw [← hblind.step_clear h.good_right, h.same, hblind.step_clear h.good_left]
      buffer := by
        rw [hblind.buffer_step h.good_left, hblind.buffer_step h.good_right, h.same, h.buffer,
          List.append_assoc] }
  right := by
    rw [← hblind.answer_clear h.good_right, h.same, hblind.answer_clear h.good_left]

lemma Source.Blind.good_reached (hblind : src.Blind good) {s t : S} (hs : good s)
    (h : Reached src.step src.done s t) : good t := by
  refine h.invariant hs ?_
  intro u u' hu _ hstep
  have hgood := hblind.good_step hu
  rwa [hstep] at hgood

lemma Source.Blind.buffer_prefix_step (hblind : src.Blind good) {s : S} (hs : good s) :
    src.buffer s <+: src.buffer (src.step s).1 := by
  rw [hblind.buffer_step hs]
  exact List.prefix_append _ _

/-- The buffer only grows. -/
lemma Source.Blind.buffer_prefix (hblind : src.Blind good) {s t : S} (hs : good s)
    (h : Reached src.step src.done s t) : src.buffer s <+: src.buffer t := by
  induction h with
  | start => exact List.prefix_refl _
  | next h _ hstep ih =>
    have hgrows := hblind.buffer_prefix_step (hblind.good_reached hs h)
    rw [hstep] at hgrows
    exact ih.trans hgrows

end Pull
