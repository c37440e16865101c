import Zuhttp.Library.Pull
import Zuhttp.OpenBody
import Zuhttp.Proofs.H2

/-!
# Steps into a memory sink

With a memory sink, a step does the same whatever the sink already holds.
-/

namespace Zuhttp

variable {Z : Zlib}

/-! ### What the sink holds already -/

namespace BodyPipe

/-- The pipe whose sink also holds earlier pieces. -/
def prepend (pieces : List Bytes) (p : BodyPipe Z) : BodyPipe Z :=
  { p with sink := { p.sink with handed := pieces ++ p.sink.handed } }

/-- The sink accepts everything and never asks to stop. -/
def Memory (p : BodyPipe Z) : Prop :=
  p.sink.respond = Sink.memory.respond ∧ p.sink.stopped = false

lemma deliver_prepend (pieces : List Bytes) (p : BodyPipe Z) (data : Bytes) (h : p.Memory) :
    (p.prepend pieces).deliver data = ((p.deliver data).1.prepend pieces, (p.deliver data).2) ∧
      (p.deliver data).1.Memory := by
  obtain ⟨⟨respond, handed, written, stopped⟩, _, _, _, _, _⟩ := p
  obtain ⟨hrespond, hstopped⟩ := h
  dsimp only at hrespond hstopped
  subst hrespond
  unfold deliver Sink.write prepend
  dsimp only
  split_ifs
  · exact ⟨rfl, rfl, hstopped⟩
  · exact ⟨by simp [Sink.memory], rfl, hstopped⟩

lemma feed_prepend (pieces : List Bytes) (p : BodyPipe Z) (data : Bytes) (h : p.Memory) :
    (p.prepend pieces).feed data = ((p.feed data).1.prepend pieces, (p.feed data).2) ∧
      (p.feed data).1.Memory := by
  unfold feed
  split_ifs
  · exact ⟨rfl, h⟩
  · have hinflate : (p.prepend pieces).inflate = p.inflate := rfl
    rw [hinflate]
    cases p.inflate with
    | none =>
      have hcap : (p.prepend pieces).capCheck data.length = p.capCheck data.length := rfl
      dsimp only
      rw [hcap]
      cases p.capCheck data.length with
      | some f => exact ⟨rfl, h⟩
      | none => exact deliver_prepend pieces p data h
    | some z =>
      dsimp only
      cases z.run (some data) with
      | mk z r =>
        obtain ⟨out, res⟩ := r
        cases res with
        | fail f => exact ⟨rfl, h⟩
        | ok => exact deliver_prepend pieces { p with inflate := some z } out h
        | wouldblock => exact deliver_prepend pieces { p with inflate := some z } out h

lemma finish_prepend (pieces : List Bytes) (p : BodyPipe Z) (h : p.Memory) :
    (p.prepend pieces).finish = (p.finish.1.prepend pieces, p.finish.2) ∧
      p.finish.1.Memory := by
  unfold finish
  have hinflate : (p.prepend pieces).inflate = p.inflate := rfl
  rw [hinflate]
  cases p.inflate with
  | none => exact ⟨rfl, h⟩
  | some z =>
    dsimp only
    cases z.run none with
    | mk z r =>
      obtain ⟨out, res⟩ := r
      cases res with
      | fail f => exact ⟨rfl, h⟩
      | ok => exact deliver_prepend pieces { p with inflate := some z } out h
      | wouldblock => exact ⟨rfl, h⟩

end BodyPipe

namespace BodyReader

def State.prepend (pieces : List Bytes) (st : State Z) : State Z :=
  { st with pipe := st.pipe.prepend pieces }

lemma stepChunked_prepend (pieces : List Bytes) (st : State Z) (bytes : Bytes)
    (h : st.pipe.Memory) :
    stepChunked (st.prepend pieces) bytes =
        ((stepChunked st bytes).1.prepend pieces, (stepChunked st bytes).2) ∧
      (stepChunked st bytes).1.pipe.Memory := by
  unfold stepChunked State.prepend
  dsimp only
  cases st.reader.dec.decode bytes with
  | mk dec r =>
    obtain ⟨out, rc⟩ := r
    obtain ⟨hfeed, hmem⟩ := BodyPipe.feed_prepend pieces { st.pipe with
      rawSeen := st.pipe.rawSeen + bytes.length } out h
    have hfeed' : BodyPipe.feed { st.pipe.prepend pieces with
      rawSeen := (st.pipe.prepend pieces).rawSeen + bytes.length } out = _ := hfeed
    dsimp only
    rw [hfeed']
    generalize BodyPipe.feed { st.pipe with
      rawSeen := st.pipe.rawSeen + bytes.length } out = fed at hmem
    obtain ⟨q, res⟩ := fed
    cases res with
    | some f => exact ⟨rfl, hmem⟩
    | none =>
      cases rc with
      | wouldblock => exact ⟨rfl, hmem⟩
      | fail f => exact ⟨rfl, hmem⟩
      | ok => exact ⟨rfl, hmem⟩

lemma stepPlain_prepend (pieces : List Bytes) (st : State Z) (bytes : Bytes)
    (h : st.pipe.Memory) :
    stepPlain (st.prepend pieces) bytes =
        ((stepPlain st bytes).1.prepend pieces, (stepPlain st bytes).2) ∧
      (stepPlain st bytes).1.pipe.Memory := by
  unfold stepPlain State.prepend
  dsimp only
  have hcut : (if st.reader.fr.kind = .length ∧
      (st.pipe.prepend pieces).rawSeen + bytes.length > st.reader.fr.length then
        st.reader.fr.length - (st.pipe.prepend pieces).rawSeen else bytes.length) =
      if st.reader.fr.kind = .length ∧ st.pipe.rawSeen + bytes.length > st.reader.fr.length then
        st.reader.fr.length - st.pipe.rawSeen else bytes.length := rfl
  rw [hcut]
  generalize (if st.reader.fr.kind = .length ∧
    st.pipe.rawSeen + bytes.length > st.reader.fr.length then
      st.reader.fr.length - st.pipe.rawSeen else bytes.length) = take
  obtain ⟨hfeed, hmem⟩ := BodyPipe.feed_prepend pieces { st.pipe with
    surplus := st.pipe.surplus + (bytes.length - take) } (bytes.take take) h
  have hfeed' : BodyPipe.feed { st.pipe.prepend pieces with
    surplus := (st.pipe.prepend pieces).surplus + (bytes.length - take) } (bytes.take take) =
      _ := hfeed
  rw [hfeed']
  generalize BodyPipe.feed { st.pipe with
    surplus := st.pipe.surplus + (bytes.length - take) } (bytes.take take) = fed at hmem
  obtain ⟨q, res⟩ := fed
  cases res with
  | some f => exact ⟨rfl, hmem⟩
  | none =>
    have hraw' : (q.prepend pieces).rawSeen = q.rawSeen := rfl
    dsimp only
    rw [hraw']
    split_ifs
    · exact ⟨rfl, hmem⟩
    · exact ⟨rfl, hmem⟩

lemma stepFramed_prepend (pieces : List Bytes) (st : State Z) (h : st.pipe.Memory) :
    stepFramed (st.prepend pieces) =
        ((stepFramed st).1.prepend pieces, (stepFramed st).2) ∧
      (stepFramed st).1.pipe.Memory := by
  unfold stepFramed
  by_cases hnone : st.reader.fr.kind = .none
  · have hnone' : (st.prepend pieces).reader.fr.kind = .none := hnone
    rw [if_pos hnone', if_pos hnone]
    exact ⟨rfl, h⟩
  · have hnone' : ¬(st.prepend pieces).reader.fr.kind = .none := hnone
    rw [if_neg hnone', if_neg hnone]
    by_cases hfull : st.reader.fr.kind = .length ∧ st.pipe.rawSeen ≥ st.reader.fr.length
    · have hfull' : (st.prepend pieces).reader.fr.kind = .length ∧
        (st.prepend pieces).pipe.rawSeen ≥ (st.prepend pieces).reader.fr.length := hfull
      rw [if_pos hfull', if_pos hfull]
      exact ⟨rfl, h⟩
    · have hfull' : ¬((st.prepend pieces).reader.fr.kind = .length ∧
        (st.prepend pieces).pipe.rawSeen ≥ (st.prepend pieces).reader.fr.length) := hfull
      rw [if_neg hfull', if_neg hfull]
      have hnext : (st.prepend pieces).reader.nextBytes (st.prepend pieces).stream =
        st.reader.nextBytes st.stream := rfl
      rw [hnext]
      cases st.reader.nextBytes st.stream with
      | mk res r =>
        obtain ⟨reader, stream⟩ := r
        cases res with
        | error f => exact ⟨rfl, h⟩
        | ok bytes =>
          dsimp only
          by_cases hempty : bytes = []
          · rw [if_pos hempty, if_pos hempty]
            by_cases huntil : st.reader.fr.kind = .untilClose
            · have huntil' : (st.prepend pieces).reader.fr.kind = .untilClose := huntil
              rw [if_pos huntil', if_pos huntil]
              exact ⟨rfl, h⟩
            · have huntil' : ¬(st.prepend pieces).reader.fr.kind = .untilClose := huntil
              rw [if_neg huntil', if_neg huntil]
              exact ⟨rfl, h⟩
          · rw [if_neg hempty, if_neg hempty]
            by_cases hchunked : st.reader.fr.kind = .chunked
            · have hchunked' : (st.prepend pieces).reader.fr.kind = .chunked := hchunked
              rw [if_pos hchunked', if_pos hchunked]
              exact stepChunked_prepend pieces { st with reader := reader, stream := stream }
                bytes h
            · have hchunked' : ¬(st.prepend pieces).reader.fr.kind = .chunked := hchunked
              rw [if_neg hchunked', if_neg hchunked]
              exact stepPlain_prepend pieces { st with reader := reader, stream := stream }
                bytes h

lemma step_prepend (pieces : List Bytes) (st : State Z) (h : st.pipe.Memory) :
    step (st.prepend pieces) = ((step st).1.prepend pieces, (step st).2) ∧
      (step st).1.pipe.Memory := by
  obtain ⟨hframed, hmem⟩ := stepFramed_prepend pieces st h
  unfold step
  rw [hframed]
  by_cases hdone : st.reader.done = true
  · have hdone' : (st.prepend pieces).reader.done = true := hdone
    rw [if_pos hdone', if_pos hdone]
    exact ⟨rfl, h⟩
  · have hdone' : ¬(st.prepend pieces).reader.done = true := hdone
    rw [if_neg hdone', if_neg hdone]
    generalize stepFramed st = framed at hmem
    obtain ⟨st₁, res⟩ := framed
    cases res with
    | some f => exact ⟨rfl, hmem⟩
    | none =>
      dsimp only
      by_cases hend : st₁.reader.done = true
      · have hend' : (st₁.prepend pieces).reader.done = true := hend
        rw [if_pos hend', if_pos hend]
        obtain ⟨hfinish, hmem'⟩ := BodyPipe.finish_prepend pieces st₁.pipe hmem
        have hfinish' : (st₁.prepend pieces).pipe.finish = _ := hfinish
        rw [hfinish']
        exact ⟨rfl, hmem'⟩
      · have hend' : ¬(st₁.prepend pieces).reader.done = true := hend
        rw [if_neg hend', if_neg hend]
        exact ⟨rfl, hmem⟩

end BodyReader

namespace H2

def BodyState.prepend (pieces : List Bytes) (st : BodyState Z) : BodyState Z :=
  { st with pipe := st.pipe.prepend pieces }

lemma endStep_prepend (pieces : List Bytes) (h : H2) (p : BodyPipe Z) (hp : p.Memory) :
    endStep h (p.prepend pieces) =
        ((endStep h p).1.prepend pieces, (endStep h p).2) ∧
      (endStep h p).1.pipe.Memory := by
  unfold endStep
  rw [deliver_eq, deliver_eq]
  obtain ⟨hfeed, hmem⟩ := BodyPipe.feed_prepend pieces { p with
    rawSeen := p.rawSeen + h.data.length } h.data hp
  have hfeed' : BodyPipe.feed { p.prepend pieces with
    rawSeen := (p.prepend pieces).rawSeen + h.data.length } h.data = _ := hfeed
  rw [hfeed']
  generalize BodyPipe.feed { p with rawSeen := p.rawSeen + h.data.length } h.data = fed at hmem
  obtain ⟨q, res⟩ := fed
  cases res with
  | some f => exact ⟨rfl, hmem⟩
  | none =>
    dsimp only
    by_cases hgoing : ¬h.drained.closed = true ∨ h.drained.data ≠ []
    · rw [if_pos hgoing, if_pos hgoing]
      exact ⟨rfl, hmem⟩
    · rw [if_neg hgoing, if_neg hgoing]
      cases h.drained.streamOutcome with
      | mk h₁ res =>
        cases res with
        | some f => exact ⟨rfl, hmem⟩
        | none =>
          obtain ⟨hfinish, hmem'⟩ := BodyPipe.finish_prepend pieces q hmem
          dsimp only
          rw [hfinish]
          generalize q.finish = finished at hmem'
          obtain ⟨q', res⟩ := finished
          cases res with
          | some f => exact ⟨rfl, hmem'⟩
          | none => exact ⟨rfl, hmem'⟩

lemma bodyStep_prepend (pieces : List Bytes) (st : BodyState Z) (hp : st.pipe.Memory) :
    bodyStep (st.prepend pieces) = ((bodyStep st).1.prepend pieces, (bodyStep st).2) ∧
      (bodyStep st).1.pipe.Memory := by
  unfold bodyStep
  by_cases hread : st.conn.data = [] ∧ ¬st.conn.closed = true
  · have hread' : (st.prepend pieces).conn.data = [] ∧
      ¬(st.prepend pieces).conn.closed = true := hread
    rw [if_pos hread', if_pos hread]
    have hpump : (st.prepend pieces).conn.pumpStream = st.conn.pumpStream := rfl
    rw [hpump]
    cases st.conn.pumpStream with
    | mk h res =>
      cases res with
      | some f => exact ⟨rfl, hp⟩
      | none => exact endStep_prepend pieces h st.pipe hp
  · have hread' : ¬((st.prepend pieces).conn.data = [] ∧
      ¬(st.prepend pieces).conn.closed = true) := hread
    rw [if_neg hread', if_neg hread]
    exact endStep_prepend pieces st.conn st.pipe hp

end H2

namespace BodySource

open Pull

def prepend (pieces : List Bytes) (src : BodySource Z) : BodySource Z :=
  src.withPipe (src.pipe.prepend pieces)

def Memory (src : BodySource Z) : Prop := src.pipe.Memory

/-- The steps of a body and the pieces they stage. -/
def pulling : Source (BodySource Z) Fail Bytes where
  step := step
  done := done
  buffer src := src.pipe.sink.handed
  clear := clear

lemma step_prepend (pieces : List Bytes) (src : BodySource Z) (h : src.Memory) :
    (src.prepend pieces).step = (src.step.1.prepend pieces, src.step.2) ∧ src.step.1.Memory := by
  cases src with
  | h1 st =>
    obtain ⟨hstep, hmem⟩ := BodyReader.step_prepend pieces st h
    refine ⟨?_, hmem⟩
    have hstep' : BodyReader.step { st with pipe := st.pipe.prepend pieces } = _ := hstep
    simp only [prepend, withPipe, step, pipe, hstep']
    rfl
  | h2 st =>
    obtain ⟨hstep, hmem⟩ := H2.bodyStep_prepend pieces st h
    refine ⟨?_, hmem⟩
    have hstep' : H2.bodyStep { st with pipe := st.pipe.prepend pieces } = _ := hstep
    simp only [prepend, withPipe, step, pipe, hstep']
    rfl

lemma prepend_clear (src : BodySource Z) :
    src.clear.prepend src.pipe.sink.handed = src := by
  cases src with
  | h1 st => simp [clear, prepend, withPipe, pipe, BodyPipe.prepend]
  | h2 st => simp [clear, prepend, withPipe, pipe, BodyPipe.prepend]

lemma clear_prepend (pieces : List Bytes) (src : BodySource Z) :
    (src.prepend pieces).clear = src.clear := by
  cases src <;> rfl

lemma handed_prepend (pieces : List Bytes) (src : BodySource Z) :
    (src.prepend pieces).pipe.sink.handed = pieces ++ src.pipe.sink.handed := by
  cases src <;> rfl

lemma step_of_clear {src : BodySource Z} (h : src.Memory) :
    src.step = (src.clear.step.1.prepend src.pipe.sink.handed, src.clear.step.2) := by
  have hmem : src.clear.Memory := by
    cases src <;> exact h
  have hstep := (step_prepend src.pipe.sink.handed src.clear hmem).1
  rwa [prepend_clear] at hstep

theorem pulling_blind : (pulling : Source (BodySource Z) Fail Bytes).Blind Memory where
  good_step h := (step_prepend [] _ h).2
  good_clear {src} h := by cases src <;> exact h
  clear_clear src := by cases src <;> rfl
  done_clear src := by cases src <;> rfl
  buffer_clear src := by cases src <;> rfl
  step_clear {src} h := by
    dsimp only [pulling]
    rw [step_of_clear h, clear_prepend]
  answer_clear {src} h := by
    dsimp only [pulling]
    rw [step_of_clear h]
  buffer_step {src} h := by
    dsimp only [pulling]
    rw [step_of_clear h, handed_prepend]

end BodySource

end Zuhttp
