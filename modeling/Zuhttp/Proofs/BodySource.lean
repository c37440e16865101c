import Zuhttp.Proofs.Staged

/-!
# The steps of a body

A step that goes on uses something up, so the loop to the end reaches it, and what it
collects begins with what any of its states has collected.
-/

namespace Zuhttp

open Loop Pull

variable {Z : Zlib}

/-! ### The steps that are left -/

namespace BodyReader

lemma stepChunked_left (st : State Z) (bytes : Bytes) (h : (stepChunked st bytes).2 = none) :
    (stepChunked st bytes).1.reader.done = true ∨ (stepChunked st bytes).1.left = st.left := by
  unfold stepChunked at h ⊢
  dsimp only at h ⊢
  cases hdec : st.reader.dec.decode bytes with
  | mk dec r =>
    obtain ⟨out, rc⟩ := r
    rw [hdec] at h
    dsimp only at h ⊢
    cases hfeed : BodyPipe.feed { st.pipe with
      rawSeen := st.pipe.rawSeen + bytes.length } out with
    | mk pipe res =>
      rw [hfeed] at h
      cases res with
      | some f => cases h
      | none =>
        cases rc with
        | wouldblock => exact Or.inr rfl
        | fail f => cases h
        | ok => exact Or.inl rfl

lemma stepPlain_left (st : State Z) (bytes : Bytes) (h : (stepPlain st bytes).2 = none) :
    (stepPlain st bytes).1.reader.done = true ∨ (stepPlain st bytes).1.left = st.left := by
  unfold stepPlain at h ⊢
  dsimp only at h ⊢
  generalize (if st.reader.fr.kind = .length ∧
    st.pipe.rawSeen + bytes.length > st.reader.fr.length then
      st.reader.fr.length - st.pipe.rawSeen else bytes.length) = take at h ⊢
  cases hfeed : BodyPipe.feed { st.pipe with
    surplus := st.pipe.surplus + (bytes.length - take) } (bytes.take take) with
  | mk pipe res =>
    rw [hfeed] at h
    cases res with
    | some f => cases h
    | none =>
      dsimp only
      split_ifs
      · exact Or.inl rfl
      · exact Or.inr rfl

lemma stepFramed_left (st : State Z) (h : (stepFramed st).2 = none) :
    (stepFramed st).1.reader.done = true ∨ (stepFramed st).1.left < st.left := by
  unfold stepFramed at h ⊢
  dsimp only at h ⊢
  by_cases hnone : st.reader.fr.kind = .none
  · rw [if_pos hnone]
    exact Or.inl rfl
  · rw [if_neg hnone] at h ⊢
    by_cases hfull : st.reader.fr.kind = .length ∧ st.pipe.rawSeen ≥ st.reader.fr.length
    · rw [if_pos hfull]
      exact Or.inl rfl
    · rw [if_neg hfull] at h ⊢
      rcases nextBytes_cases st.reader st.stream with
        ⟨bytes, seed, reads, hbytes, hnext, -, hleft⟩ | ⟨-, -, -, hnext⟩ | ⟨f, -, -, -, hnext⟩
      · rw [hnext] at h ⊢
        simp only [hbytes, if_false] at h ⊢
        by_cases hchunked : st.reader.fr.kind = .chunked
        · rw [if_pos hchunked] at h ⊢
          refine (stepChunked_left _ bytes h).imp_right ?_
          intro heq
          rw [heq]
          exact hleft
        · rw [if_neg hchunked] at h ⊢
          refine (stepPlain_left _ bytes h).imp_right ?_
          intro heq
          rw [heq]
          exact hleft
      · rw [hnext] at h ⊢
        simp only [if_true] at h ⊢
        split_ifs at h ⊢
        exact Or.inl rfl
      · rw [hnext] at h
        cases h

/-- A step that goes on has read something. -/
lemma step_left {st st' : State Z} (hgoing : st.reader.done = false)
    (h : step st = (st', none)) : st'.reader.done = true ∨ st'.left < st.left := by
  have hleft := stepFramed_left st
  unfold step at h
  rw [if_neg (by simp [hgoing])] at h
  generalize stepFramed st = framed at h hleft
  obtain ⟨st₁, res⟩ := framed
  cases res with
  | some f => cases h
  | none =>
    dsimp only at h
    split_ifs at h with hdone
    · obtain ⟨rfl, -⟩ := Prod.mk.inj h
      exact Or.inl hdone
    · cases h
      exact hleft rfl

lemma stepChunked_keeps (st : State Z) (bytes : Bytes) :
    (stepChunked st bytes).1.reader.fr = st.reader.fr ∧
      (stepChunked st bytes).1.stream = st.stream := by
  unfold stepChunked
  dsimp only
  split
  · exact ⟨rfl, rfl⟩
  · split <;> exact ⟨rfl, rfl⟩

lemma stepPlain_keeps (st : State Z) (bytes : Bytes) :
    (stepPlain st bytes).1.reader.fr = st.reader.fr ∧
      (stepPlain st bytes).1.stream = st.stream := by
  unfold stepPlain
  dsimp only
  split
  · exact ⟨rfl, rfl⟩
  · split_ifs <;> exact ⟨rfl, rfl⟩

lemma stepFramed_keeps (st : State Z) :
    (stepFramed st).1.reader.fr = st.reader.fr ∧
      ∃ reads, (stepFramed st).1.stream = { st.stream with reads := reads } := by
  unfold stepFramed
  dsimp only
  rcases nextBytes_cases st.reader st.stream with
    ⟨bytes, seed, reads, hbytes, hnext, -, -⟩ | ⟨-, -, -, hnext⟩ | ⟨f, -, -, -, hnext⟩
  · rw [hnext]
    simp only [hbytes, if_false]
    split_ifs
    · exact ⟨rfl, _, rfl⟩
    · exact ⟨rfl, _, rfl⟩
    · obtain ⟨hframe, hstream⟩ := stepChunked_keeps { st with
        reader := { st.reader with seed := seed }
        stream := { st.stream with reads := reads } } bytes
      exact ⟨hframe, reads, hstream⟩
    · obtain ⟨hframe, hstream⟩ := stepPlain_keeps { st with
        reader := { st.reader with seed := seed }
        stream := { st.stream with reads := reads } } bytes
      exact ⟨hframe, reads, hstream⟩
  · rw [hnext]
    simp only [if_true]
    split_ifs <;> exact ⟨rfl, _, rfl⟩
  · rw [hnext]
    dsimp only
    split_ifs <;> exact ⟨rfl, _, rfl⟩

/-- The reader keeps the framing it was given, and of the stream it only reads. -/
lemma step_keeps (st : State Z) :
    (step st).1.reader.fr = st.reader.fr ∧
      ∃ reads, (step st).1.stream = { st.stream with reads := reads } := by
  have hframed := stepFramed_keeps st
  unfold step
  split_ifs
  · exact ⟨rfl, _, rfl⟩
  · generalize stepFramed st = framed at hframed ⊢
    obtain ⟨st₁, res⟩ := framed
    cases res with
    | some f => exact hframed
    | none =>
      dsimp only
      split_ifs
      · exact hframed
      · exact hframed

lemma steps_stream {st st' : State Z} (h : Steps st st') :
    ∃ reads, st'.stream = { st.stream with reads := reads } := by
  refine Loop.Reached.invariant (I := fun s => ∃ reads, s.stream = { st.stream with
    reads := reads }) h ⟨_, rfl⟩ ?_
  rintro s s' ⟨reads, hs⟩ - hstep
  obtain ⟨reads', hs'⟩ := (step_keeps s).2
  rw [hstep, hs] at hs'
  exact ⟨reads', hs'⟩

end BodyReader

namespace H2

lemma hear_env {h h' : H2} {es : List H2Event} (hhear : h.hear es = (h', false)) :
    h'.env = h.env := by
  induction es generalizing h with
  | nil =>
    cases hhear
    rfl
  | cons e es ih =>
    unfold hear at hhear
    cases hcb : h.callback e with
    | mk h₁ bad =>
      rw [hcb] at hhear
      cases bad with
      | true => cases hhear
      | false => exact (ih hhear).trans (callback_effect hcb).env

lemma flush_reads (h : H2) : h.flush.1.env.reads = h.env.reads := by
  unfold flush
  split
  · rfl
  · next a flushes _ =>
    obtain ⟨h₁, hhear⟩ := hear_closes { h with env.flushes := flushes } a.closes
    have hreads : h₁.env.reads = h.env.reads := by rw [hear_env hhear]
    simp only [hhear]
    split
    · exact hreads
    · exact hreads

lemma recv_reads {h h' : H2} (hrecv : h.recv = (h', none)) :
    h'.env.reads.length < h.env.reads.length := by
  unfold recv at hrecv
  split at hrecv
  · cases hrecv
  · next a reads hreads =>
    rw [hreads]
    cases a with
    | finished =>
      dsimp only at hrecv
      split_ifs at hrecv
      · cases hrecv
      · cases hrecv
    | fail f => cases hrecv
    | wouldblock =>
      cases hrecv
      exact Nat.lt_succ_self _
    | frames events failure allowed =>
      dsimp only at hrecv
      cases hhear : hear { h with env.reads := reads } events with
      | mk h₁ bad =>
        simp only [hhear] at hrecv
        cases bad with
        | true => cases hrecv
        | false =>
          cases failure with
          | some f => cases hrecv
          | none =>
            have hflush := flush_reads { h₁ with allowed := allowed }
            have hsame : h'.env.reads = reads := by
              have hconn := congrArg Prod.fst hrecv
              dsimp only at hconn
              rw [← hconn]
              refine hflush.trans ?_
              rw [hear_env hhear]
            rw [hsame]
            exact Nat.lt_succ_self _

lemma pumpStream_reads {h h' : H2} (hpump : h.pumpStream = (h', none)) :
    h'.closed = true ∨ h'.env.reads.length < h.env.reads.length := by
  unfold pumpStream pump at hpump
  have hreads := flush_reads h
  cases hflush : h.flush with
  | mk h₁ res =>
    rw [hflush] at hpump hreads
    cases res with
    | some f => cases hpump
    | none =>
      dsimp only at hpump hreads
      split_ifs at hpump with hclosed
      · cases hpump
        exact Or.inl hclosed
      · have hreads₁ := flush_reads h₁
        cases hflush₁ : h₁.flush with
        | mk h₂ res =>
          rw [hflush₁] at hpump hreads₁
          cases res with
          | some f => cases hpump
          | none =>
            dsimp only at hpump hreads₁
            have hless := recv_reads hpump
            rw [hreads₁, hreads] at hless
            exact Or.inr hless

/-- The steps a body can still make before its connection is read to the end. -/
def BodyState.left (st : BodyState Z) : Nat :=
  st.conn.env.reads.length + if st.conn.data = [] then 0 else 1

/-- A step that goes on has read something or handed over what was buffered. -/
lemma bodyStep_left {st st' : BodyState Z} (h : bodyStep st = (st', none)) :
    st'.done = true ∨ st'.left < st.left := by
  have hend : ∀ (conn : H2), endStep conn st.pipe = (st', none) →
      st'.done = true ∨ conn.closed = false ∧ st'.left = conn.env.reads.length := by
    intro conn hstep
    have hcases := endStep_cases conn st.pipe
    rw [hstep] at hcases
    cases hcases with
    | goesOn hfeed hopen => exact Or.inr ⟨hopen, rfl⟩
    | ended hfeed hclosed hcode hfinish => exact Or.inl rfl
  unfold bodyStep at h
  split_ifs at h with hread
  · split at h
    · cases h
    · next conn hpump =>
      refine (hend conn h).imp_right ?_
      rintro ⟨hopen, hleft⟩
      rcases pumpStream_reads hpump with hclosed | hless
      · rw [hclosed] at hopen
        cases hopen
      · unfold BodyState.left at hleft ⊢
        omega
  · refine (hend st.conn h).imp_right ?_
    rintro ⟨hopen, hleft⟩
    have hdata : st.conn.data ≠ [] := fun hnil => hread ⟨hnil, by simp [hopen]⟩
    rw [hleft, BodyState.left, if_neg hdata]
    exact Nat.lt_succ_self _

end H2

namespace BodySource

/-- The framing of an HTTP/1.1 body. -/
def frame : BodySource Z → Option Framing
  | .h1 st => some st.reader.fr
  | .h2 _ => none

def left : BodySource Z → Nat
  | .h1 st => st.left
  | .h2 st => st.left

lemma left_lt_fuel (src : BodySource Z) : src.left < src.fuel := by
  cases src with
  | h1 st => exact Nat.lt_succ_self _
  | h2 st =>
    dsimp only [left, fuel, H2.BodyState.left]
    split_ifs <;> omega

lemma step_left {src src' : BodySource Z} (hgoing : src.done = false)
    (h : src.step = (src', none)) : src'.done = true ∨ src'.left < src.left := by
  cases src with
  | h1 st =>
    obtain ⟨rfl, hres⟩ := Prod.mk.inj h
    exact BodyReader.step_left hgoing (Prod.ext rfl hres)
  | h2 st =>
    obtain ⟨rfl, hres⟩ := Prod.mk.inj h
    exact H2.bodyStep_left (Prod.ext rfl hres)

/-- The steps of a body, as a loop reaches them. -/
def Steps : BodySource Z → BodySource Z → Prop := Loop.Reached step done

lemma step_frame (src : BodySource Z) : src.step.1.frame = src.frame := by
  cases src with
  | h1 st => exact congrArg some (BodyReader.step_keeps st).1
  | h2 st => rfl

lemma steps_frame {src q : BodySource Z} (h : src.Steps q) : q.frame = src.frame := by
  refine Loop.Reached.invariant (I := fun q => q.frame = src.frame) h rfl ?_
  intro s s' hs _ hstep
  have hframe := s.step_frame
  rw [hstep] at hframe
  exact hframe.trans hs

lemma readAll_eq {src : BodySource Z} (hgoing : src.done = false) :
    src.readAll = Loop.iterate step done src.fuel src := by
  cases src with
  | h1 st =>
    have hmap : Loop.iterate step done (st.left + 1) (h1 st) =
        (h1 (BodyReader.loop (st.left + 1) st).1, (BodyReader.loop (st.left + 1) st).2) :=
      Loop.iterate_map h1 (fun _ => rfl) (fun _ => rfl) _ st
    exact hmap.symm
  | h2 st =>
    obtain ⟨conn, p, ended⟩ := st
    dsimp only [done] at hgoing
    subst hgoing
    have hmap : Loop.iterate step done (conn.env.reads.length + 2) (h2 ⟨conn, p, false⟩) =
        (h2 (H2.body conn p).1, (H2.body conn p).2) :=
      Loop.iterate_map h2 (fun _ => rfl) (fun _ => rfl) _ ⟨conn, p, false⟩
    exact hmap.symm

lemma readAll_frame (src : BodySource Z) (hgoing : src.done = false) :
    src.readAll.1.frame = src.frame := by
  rw [readAll_eq hgoing]
  exact Loop.iterate_keeps (P := fun q : BodySource Z => q.frame = src.frame)
    (fun s hs => s.step_frame.trans hs) rfl src.fuel

/-- The loop to the end is not cut off. -/
lemma readAll_ends (src : BodySource Z) :
    (Loop.iterate step done src.fuel src).2 = none →
      (Loop.iterate step done src.fuel src).1.done = true := by
  intro hres
  refine Loop.iterate_done (I := fun _ => True) (m := left) ?_ trivial src.left_lt_fuel
    (Prod.ext rfl hres)
  intro s s' _ hgoing hstep
  exact (step_left hgoing hstep).imp_right (fun hless => ⟨trivial, hless⟩)

lemma readAll_of_done {src q : BodySource Z} (hgoing : src.done = false) (h : src.Steps q)
    (hdone : q.done = true) : src.readAll = (q, none) := by
  rw [readAll_eq hgoing]
  exact Loop.iterate_eq_of_done (readAll_ends src) h hdone

lemma readAll_of_fail {src q s : BodySource Z} {f : Fail} (hstart : src.done = false)
    (h : src.Steps q) (hgoing : q.done = false) (hstep : q.step = (s, some f)) :
    src.readAll = (s, some f) := by
  rw [readAll_eq hstart]
  exact Loop.iterate_eq_of_fail (readAll_ends src) h hgoing hstep

lemma readAll_memory {src : BodySource Z} (hgoing : src.done = false) (hmem : src.Memory) :
    src.readAll.1.Memory := by
  rw [readAll_eq hgoing]
  cases hrun : Loop.iterate step done src.fuel src with
  | mk s res =>
    cases res with
    | none => exact pulling_blind.good_reached hmem (Loop.iterate_reached hrun)
    | some f =>
      obtain ⟨t, ht, -, hlast⟩ := Loop.iterate_failed hrun
      have hgood := pulling_blind.good_step (pulling_blind.good_reached hmem ht)
      have hlast' : pulling.step t = (s, some f) := hlast
      rwa [hlast'] at hgood

/-- What the loop collects begins with what was collected on the way. -/
lemma staged_begins {src q : BodySource Z} (hgoing : src.done = false) (hmem : src.Memory)
    (h : src.Steps q) : q.staged <+: src.readAll.1.staged := by
  have hpieces : q.pipe.sink.handed <+: src.readAll.1.pipe.sink.handed := by
    rw [readAll_eq hgoing]
    have hends := readAll_ends src
    cases hrun : Loop.iterate step done src.fuel src with
    | mk s res =>
      rw [hrun] at hends
      cases res with
      | none =>
        rcases h.linear (Loop.iterate_reached hrun) with hqs | hsq
        · exact pulling_blind.buffer_prefix (pulling_blind.good_reached hmem h) hqs
        · have heq := hsq.of_stops (Or.inl (hends rfl))
          subst heq
          exact List.prefix_rfl
      | some f =>
        obtain ⟨t, ht, -, hlast⟩ := Loop.iterate_failed hrun
        have hgrows := pulling_blind.buffer_prefix_step (pulling_blind.good_reached hmem ht)
        have hlast' : pulling.step t = (s, some f) := hlast
        rw [hlast'] at hgrows
        refine List.IsPrefix.trans ?_ hgrows
        rcases h.linear ht with hqt | htq
        · exact pulling_blind.buffer_prefix (pulling_blind.good_reached hmem h) hqt
        · rw [htq.of_stops (Or.inr (by simp [hlast]))]
          exact List.prefix_refl _
  obtain ⟨more, hmore⟩ := hpieces
  unfold staged Sink.bytes
  rw [← hmore, List.flatten_append]
  exact List.prefix_append _ _

end BodySource

end Zuhttp
