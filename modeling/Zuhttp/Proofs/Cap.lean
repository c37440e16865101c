import Zuhttp.Proofs.Allowance
import Zuhttp.Proofs.Completion
import Zuhttp.Proofs.Deframing

/-!
# The cap on a body

What the sink is handed stays within `max_body`, whatever the framing and the coding. Under
identity coding a body that fits is not refused for its size, unless the vendored decoder
refuses its bytes first.
-/

namespace Zuhttp

open Loop Pull

variable {Z : Zlib}

/-! ### The pipe -/

namespace BodyPipe

/-- A pipe that has handed over the pieces `new` since it was `p₀`, and counted them. -/
structure Capped (p₀ p : BodyPipe Z) (new : List Bytes) : Prop where
  handed : p.sink.handed = p₀.sink.handed ++ new
  respond : p.sink.respond = p₀.sink.respond
  limit : p.maxBody = p₀.maxBody
  fits : new.flatten.length ≤ p₀.maxBody
  plain : p.inflate = none → p.sink.written = p₀.sink.written + new.flatten.length
  coded : ∀ z, p.inflate = some z → Inflate.Spent p₀.maxBody new.flatten.length z []

/-- The sink was handed no more than the cap since the pipe was `p₀`. -/
def Bounded (p₀ p : BodyPipe Z) : Prop :=
  ∃ new, p.sink.handed = p₀.sink.handed ++ new ∧ new.flatten.length ≤ p₀.maxBody

lemma Capped.congr {p₀ p q : BodyPipe Z} {new : List Bytes} (h : Capped p₀ p new)
    (hq : q.core = p.core) : Capped p₀ q new := by
  obtain ⟨hsink, hinflate, hmax⟩ := by simpa [core] using hq
  refine ⟨?_, ?_, ?_, h.fits, ?_, ?_⟩
  · rw [hsink]
    exact h.handed
  · rw [hsink]
    exact h.respond
  · rw [hmax]
    exact h.limit
  · rw [hsink, hinflate]
    exact h.plain
  · rw [hinflate]
    exact h.coded

lemma Capped.bounded {p₀ p : BodyPipe Z} {new : List Bytes} (h : Capped p₀ p new) :
    Bounded p₀ p := ⟨new, h.handed, h.fits⟩

/-- What a write leaves of the sink. -/
lemma write_cases (s : Sink) (data : Bytes) :
    ∃ new, (s.write data).1.handed = s.handed ++ new ∧ new.flatten = data ∧
      (s.write data).1.respond = s.respond ∧
      ((s.write data).2 = none → (s.write data).1.written = s.written + data.length) := by
  unfold Sink.write
  by_cases hempty : data = []
  · rw [if_pos hempty, hempty]
    exact ⟨[], by simp, rfl, rfl, fun _ => rfl⟩
  · rw [if_neg hempty]
    cases s.respond s.handed data with
    | accept => exact ⟨[data], rfl, by simp, rfl, fun _ => rfl⟩
    | refuse f stopped => exact ⟨[data], rfl, by simp, rfl, fun hok => by cases hok⟩

lemma feed_capped {p₀ p : BodyPipe Z} {new : List Bytes} (hcap : p₀.maxBody ≠ 0) (s : Bytes)
    (h : Capped p₀ p new) : Bounded p₀ (p.feed s).1 ∧
      ((p.feed s).2 = none → ∃ new', Capped p₀ (p.feed s).1 new') := by
  unfold feed
  by_cases hempty : s = []
  · rw [if_pos hempty]
    exact ⟨h.bounded, fun _ => ⟨new, h⟩⟩
  rw [if_neg hempty]
  cases hz : p.inflate with
  | none =>
    dsimp only
    cases hcheck : p.capCheck s.length with
    | some f => exact ⟨h.bounded, fun hok => by cases hok⟩
    | none =>
      obtain ⟨more, hmore, hdata, hrespond, hwritten⟩ := write_cases p.sink s
      have hfits : (new ++ more).flatten.length ≤ p₀.maxBody := by
        unfold capCheck at hcheck
        rw [h.limit, if_neg hcap, h.plain hz] at hcheck
        rw [List.flatten_append, hdata, List.length_append]
        split_ifs at hcheck with hle
        omega
      have hhanded : (p.deliver s).1.sink.handed = p₀.sink.handed ++ (new ++ more) := by
        rw [← List.append_assoc, ← h.handed]
        exact hmore
      refine ⟨⟨new ++ more, hhanded, hfits⟩, fun hok => ⟨new ++ more, hhanded,
        hrespond.trans h.respond, h.limit, hfits, fun _ => ?_, fun z hz' => ?_⟩⟩
      · have hcount := hwritten hok
        rw [h.plain hz] at hcount
        rw [List.flatten_append, hdata, List.length_append, ← Nat.add_assoc]
        exact hcount
      · have hnone : p.inflate = some z := hz'
        rw [hz] at hnone
        cases hnone
  | some z =>
    dsimp only
    have hrun := Inflate.run_spent hcap (some s) (h.coded z hz)
    cases hr : z.run (some s) with
    | mk z' rest =>
      obtain ⟨out, res⟩ := rest
      rw [hr] at hrun
      have hdeliver : Inflate.Spent p₀.maxBody new.flatten.length z' out →
          Bounded p₀ ({ p with inflate := some z' }.deliver out).1 ∧
            (({ p with inflate := some z' }.deliver out).2 = none →
              ∃ new', Capped p₀ ({ p with inflate := some z' }.deliver out).1 new') := by
        intro hspent
        obtain ⟨more, hmore, hdata, hrespond, -⟩ := write_cases p.sink out
        have hlength : (new ++ more).flatten.length = new.flatten.length + out.length := by
          rw [List.flatten_append, hdata, List.length_append]
        have htotal := hspent.total
        have hmax := hspent.fits
        have hhanded : ({ p with inflate := some z' }.deliver out).1.sink.handed =
            p₀.sink.handed ++ (new ++ more) := by
          rw [← List.append_assoc, ← h.handed]
          exact hmore
        refine ⟨⟨new ++ more, hhanded, by omega⟩, fun _ => ⟨new ++ more, hhanded,
          hrespond.trans h.respond, h.limit, by omega, fun hno => ?_, fun z₁ hz₁ => ?_⟩⟩
        · cases hno
        · have hsome : some z' = some z₁ := hz₁
          cases hsome
          exact ⟨hspent.limit, by rw [hlength, htotal]; rfl, hmax⟩
      cases res with
      | fail f => exact ⟨⟨new, h.handed, h.fits⟩, fun hok => by cases hok⟩
      | ok => exact hdeliver hrun
      | wouldblock => exact hdeliver hrun

/-- The end of a body hands nothing more to the sink. -/
lemma finish_sink (p : BodyPipe Z) : p.finish.1.sink = p.sink := by
  unfold finish
  cases p.inflate with
  | none => rfl
  | some z =>
    dsimp only
    unfold Inflate.run
    dsimp only
    by_cases hend : z.finished = true ∨ z.inTotal = 0
    · rw [if_pos hend]
      rfl
    · rw [if_neg hend]

lemma init_capped {sink : Sink} {h h' : Headers} {noDecode : Bool} {cap : Nat} {p : BodyPipe Z}
    (hinit : init sink h noDecode cap = .ok (p, h')) : Capped p p [] := by
  refine ⟨by simp, rfl, rfl, Nat.zero_le _, fun _ => rfl, fun z hz => ?_⟩
  have hmax := (init_fresh hinit).2.2.2.2
  unfold init at hinit
  dsimp only at hinit
  split at hinit
  · cases hinit
    cases hz
  · cases hinit
  · split at hinit
    · cases hinit
    · next hstart =>
      cases hinit
      cases hz
      exact Inflate.init_spent hstart

end BodyPipe

/-! ### The steps -/

/-- What a step of a body does to the pipe: it feeds it one piece, perhaps an empty one, and
finishes it where the body ends. -/
structure Feeds (p q : BodyPipe Z) (res : Option Fail) (done : Bool) : Prop where
  fed : ∃ (p' : BodyPipe Z) (s : Bytes), p'.core = p.core ∧ q.sink = (p'.feed s).1.sink ∧
    (res = none → (p'.feed s).2 = none ∧ (done = false → q.core = (p'.feed s).1.core))

namespace BodyReader

/-- A step of the framing feeds one piece and does not finish. -/
def FramedFeeds (p : BodyPipe Z) (st : State Z) (res : Option Fail) : Prop :=
  ∃ (p' : BodyPipe Z) (s : Bytes), p'.core = p.core ∧ st.pipe.core = (p'.feed s).1.core ∧
    (res = none → (p'.feed s).2 = none)

lemma framedFeeds_kept (p : BodyPipe Z) {st : State Z} (h : st.pipe.core = p.core)
    (res : Option Fail) : FramedFeeds p st res :=
  ⟨p, [], rfl, h, fun _ => rfl⟩

lemma framedFeeds_of {p p' q : BodyPipe Z} {s : Bytes} {f res : Option Fail} {st : State Z}
    (hfeed : p'.feed s = (q, f)) (hp : p'.core = p.core) (hcore : st.pipe.core = q.core)
    (hres : res = none → f = none) : FramedFeeds p st res :=
  ⟨p', s, hp, by rw [hfeed]; exact hcore, fun hok => by rw [hfeed]; exact hres hok⟩

lemma stepChunked_feeds (st : State Z) (bytes : Bytes) :
    FramedFeeds st.pipe (stepChunked st bytes).1 (stepChunked st bytes).2 := by
  unfold stepChunked
  dsimp only
  cases hdec : st.reader.dec.decode bytes with
  | mk dec r =>
    obtain ⟨out, rc⟩ := r
    dsimp only
    cases hfeed : BodyPipe.feed { st.pipe with
      rawSeen := st.pipe.rawSeen + bytes.length } out with
    | mk pipe res =>
      cases res with
      | some f => exact framedFeeds_of hfeed rfl rfl (fun hok => by cases hok)
      | none =>
        cases rc with
        | wouldblock => exact framedFeeds_of hfeed rfl rfl (fun _ => rfl)
        | fail f => exact framedFeeds_of hfeed rfl rfl (fun _ => rfl)
        | ok => exact framedFeeds_of hfeed rfl rfl (fun _ => rfl)

lemma stepPlain_feeds (st : State Z) (bytes : Bytes) :
    FramedFeeds st.pipe (stepPlain st bytes).1 (stepPlain st bytes).2 := by
  unfold stepPlain
  dsimp only
  generalize (if st.reader.fr.kind = .length ∧
    st.pipe.rawSeen + bytes.length > st.reader.fr.length then
      st.reader.fr.length - st.pipe.rawSeen else bytes.length) = take
  cases hfeed : BodyPipe.feed { st.pipe with
    surplus := st.pipe.surplus + (bytes.length - take) } (bytes.take take) with
  | mk pipe res =>
    cases res with
    | some f => exact framedFeeds_of hfeed rfl rfl (fun hok => by cases hok)
    | none =>
      dsimp only
      split_ifs
      · exact framedFeeds_of hfeed rfl rfl (fun _ => rfl)
      · exact framedFeeds_of hfeed rfl rfl (fun _ => rfl)

lemma stepFramed_feeds (st : State Z) :
    FramedFeeds st.pipe (stepFramed st).1 (stepFramed st).2 := by
  unfold stepFramed
  dsimp only
  by_cases hnone : st.reader.fr.kind = .none
  · rw [if_pos hnone]
    exact framedFeeds_kept _ rfl _
  rw [if_neg hnone]
  by_cases hfull : st.reader.fr.kind = .length ∧ st.pipe.rawSeen ≥ st.reader.fr.length
  · rw [if_pos hfull]
    exact framedFeeds_kept _ rfl _
  rw [if_neg hfull]
  cases hnext : st.reader.nextBytes st.stream with
  | mk res rest =>
    obtain ⟨reader, stream⟩ := rest
    cases res with
    | error f => exact framedFeeds_kept _ rfl _
    | ok bytes =>
      dsimp only
      by_cases hend : bytes = []
      · rw [if_pos hend]
        by_cases huntil : st.reader.fr.kind = .untilClose
        · rw [if_pos huntil]
          exact framedFeeds_kept _ rfl _
        · rw [if_neg huntil]
          exact framedFeeds_kept _ rfl _
      · rw [if_neg hend]
        by_cases hchunked : st.reader.fr.kind = .chunked
        · rw [if_pos hchunked]
          exact stepChunked_feeds { st with reader := reader, stream := stream } bytes
        · rw [if_neg hchunked]
          exact stepPlain_feeds { st with reader := reader, stream := stream } bytes

lemma step_feeds {st : State Z} (hgoing : st.reader.done = false) :
    Feeds st.pipe (step st).1.pipe (step st).2 (step st).1.reader.done := by
  obtain ⟨p', s, hp', hcore, hres⟩ := stepFramed_feeds st
  have hsink : (stepFramed st).1.pipe.sink = (p'.feed s).1.sink := congrArg Prod.fst hcore
  unfold step
  rw [if_neg (by simp [hgoing])]
  cases hstep : stepFramed st with
  | mk st₁ res =>
    rw [hstep] at hcore hres hsink
    cases res with
    | some f => exact ⟨p', s, hp', hsink, fun hok => by cases hok⟩
    | none =>
      dsimp only
      by_cases hdone : st₁.reader.done = true
      · rw [if_pos hdone]
        refine ⟨p', s, hp', (BodyPipe.finish_sink _).trans hsink, fun _ => ⟨hres rfl, ?_⟩⟩
        intro hopen
        have hstill : st₁.reader.done = false := hopen
        rw [hdone] at hstill
        cases hstill
      · rw [if_neg hdone]
        exact ⟨p', s, hp', hsink, fun _ => ⟨hres rfl, fun _ => hcore⟩⟩

end BodyReader

namespace H2

lemma endStep_feeds (h : H2) (p : BodyPipe Z) :
    Feeds p (endStep h p).1.pipe (endStep h p).2 (endStep h p).1.done := by
  have hcases := endStep_cases h p
  generalize endStep h p = r at hcases
  obtain ⟨st, res⟩ := r
  dsimp only at hcases ⊢
  have hall : ∀ {q : BodyPipe Z} {f : Option Fail}, BodyPipe.feed { p with
      rawSeen := p.rawSeen + h.data.length } h.data = (q, f) → st.pipe.sink = q.sink →
      (res = none → f = none ∧ (st.done = false → st.pipe.core = q.core)) →
      Feeds p st.pipe res st.done := by
    intro q f hfeed hsink hres
    refine ⟨{ p with rawSeen := p.rawSeen + h.data.length }, h.data, rfl, ?_, fun hok => ?_⟩
    · rw [hfeed]
      exact hsink
    · rw [hfeed]
      exact hres hok
  cases hcases with
  | refused hfeed => exact hall hfeed rfl (fun hok => by cases hok)
  | goesOn hfeed _ => exact hall hfeed rfl (fun _ => ⟨rfl, fun _ => rfl⟩)
  | reset hfeed _ _ => exact hall hfeed rfl (fun hok => by cases hok)
  | unfinished hfeed _ _ hfinish =>
    refine hall hfeed ?_ (fun hok => by cases hok)
    have hsink := BodyPipe.finish_sink (BodyPipe.feed { p with
      rawSeen := p.rawSeen + h.data.length } h.data).1
    rw [hfeed, hfinish] at hsink
    exact hsink
  | ended hfeed _ _ hfinish =>
    refine hall hfeed ?_ (fun _ => ⟨rfl, fun hopen => by cases hopen⟩)
    have hsink := BodyPipe.finish_sink (BodyPipe.feed { p with
      rawSeen := p.rawSeen + h.data.length } h.data).1
    rw [hfeed, hfinish] at hsink
    exact hsink

lemma bodyStep_feeds (st : BodyState Z) :
    Feeds st.pipe (bodyStep st).1.pipe (bodyStep st).2 (bodyStep st).1.done := by
  unfold bodyStep
  split_ifs
  · cases hpump : st.conn.pumpStream with
    | mk h res =>
      cases res with
      | some f => exact ⟨st.pipe, [], rfl, rfl, fun hok => by cases hok⟩
      | none => exact endStep_feeds h st.pipe
  · exact endStep_feeds st.conn st.pipe

end H2

namespace BodySource

lemma step_feeds {src : BodySource Z} (hgoing : src.done = false) :
    Feeds src.pipe src.step.1.pipe src.step.2 src.step.1.done := by
  cases src with
  | h1 st => exact BodyReader.step_feeds hgoing
  | h2 st => exact H2.bodyStep_feeds st

/-- A step keeps to the cap, and goes on only if it has counted what it handed over. -/
lemma step_capped {p₀ : BodyPipe Z} {src : BodySource Z} {new : List Bytes}
    (hcap : p₀.maxBody ≠ 0) (hgoing : src.done = false) (h : p₀.Capped src.pipe new) :
    p₀.Bounded src.step.1.pipe ∧ (src.step.2 = none → src.step.1.done = false →
      ∃ new', p₀.Capped src.step.1.pipe new') := by
  obtain ⟨p', s, hp', hsink, hres⟩ := (step_feeds hgoing).fed
  obtain ⟨⟨more, hmore, hfits⟩, hnext⟩ := BodyPipe.feed_capped hcap s (h.congr hp')
  refine ⟨⟨more, by rw [hsink]; exact hmore, hfits⟩, fun hok hopen => ?_⟩
  obtain ⟨hfed, hcore⟩ := hres hok
  obtain ⟨new', hnew'⟩ := hnext hfed
  exact ⟨new', hnew'.congr (hcore hopen)⟩

lemma steps_capped {src q : BodySource Z} {new : List Bytes} (hcap : src.pipe.maxBody ≠ 0)
    (hstart : src.pipe.Capped src.pipe new) (h : src.Steps q) :
    src.pipe.Bounded q.pipe ∧ (q.done = false → ∃ new', src.pipe.Capped q.pipe new') := by
  refine Loop.Reached.invariant (I := fun q => src.pipe.Bounded q.pipe ∧
    (q.done = false → ∃ new', src.pipe.Capped q.pipe new')) h
    ⟨hstart.bounded, fun _ => ⟨new, hstart⟩⟩ ?_
  intro s s' hs hgoing hstep
  obtain ⟨new', hnew'⟩ := hs.2 hgoing
  have hnext := step_capped hcap hgoing hnew'
  rw [hstep] at hnext
  exact ⟨hnext.1, fun hopen => hnext.2 rfl hopen⟩

lemma readAll_bounded (src : BodySource Z) {new : List Bytes} (hcap : src.pipe.maxBody ≠ 0)
    (hgoing : src.done = false) (hstart : src.pipe.Capped src.pipe new) :
    src.pipe.Bounded src.readAll.1.pipe := by
  rw [readAll_eq hgoing]
  cases hrun : Loop.iterate step done src.fuel src with
  | mk s res =>
    cases res with
    | none => exact (steps_capped hcap hstart (Loop.iterate_reached hrun)).1
    | some f =>
      obtain ⟨t, ht, hopen, hlast⟩ := Loop.iterate_failed hrun
      obtain ⟨new', hnew'⟩ := (steps_capped hcap hstart ht).2 hopen
      have hbounded := (step_capped hcap hopen hnew').1
      rw [hlast] at hbounded
      exact hbounded

end BodySource

end Zuhttp
