import Zuhttp.Proofs.Inflate
import Zuhttp.Proofs.OpenBody

/-!
# Truncated bodies

A body that is read to its end without an error was whole on the wire, and so was the
compressed stream in it.
-/

namespace Zuhttp

variable {Z : Zlib} {Complete : Wrapper → Bytes → Prop}

namespace BodyPipe

/-- The decoder of the pipe, if it has one, has taken the bytes. -/
def DecoderTook (Complete : Wrapper → Bytes → Prop) (p : BodyPipe Z) (enc : Bytes) : Prop :=
  ∀ z, p.inflate = some z → z.Taken Complete enc

lemma init_took {sink : Sink} {h h' : Headers} {noDecode : Bool} {maxBody : Nat}
    {p : BodyPipe Z} (hinit : init sink h noDecode maxBody = .ok (p, h')) :
    p.DecoderTook Complete [] := by
  intro z hz
  unfold init at hinit
  dsimp only at hinit
  split at hinit
  · cases hinit
    cases hz
  · cases hinit
  · split at hinit
    · cases hinit
    · next hstart =>
      cases hinit
      cases hz
      exact Inflate.init_taken hstart

lemma deliver_inflate (p : BodyPipe Z) (data : Bytes) :
    (p.deliver data).1.inflate = p.inflate := rfl

lemma feed_took (hlaw : Z.Lawful Complete) {p q : BodyPipe Z} {enc s : Bytes}
    (h : p.DecoderTook Complete enc) (hfeed : p.feed s = (q, none)) :
    q.DecoderTook Complete (enc ++ s) ∧ (q.inflate = none ↔ p.inflate = none) := by
  unfold feed at hfeed
  by_cases hempty : s = []
  · rw [if_pos hempty] at hfeed
    cases hfeed
    rw [hempty, List.append_nil]
    exact ⟨h, Iff.rfl⟩
  · rw [if_neg hempty] at hfeed
    cases hz : p.inflate with
    | none =>
      rw [hz] at hfeed
      dsimp only at hfeed
      split at hfeed
      · cases hfeed
      · have hkeep := p.deliver_inflate s
        rw [hfeed, hz] at hkeep
        have hnone : q.inflate = none := hkeep
        refine ⟨fun z hz' => ?_, by simp [hnone]⟩
        rw [hnone] at hz'
        cases hz'
    | some z =>
      rw [hz] at hfeed
      dsimp only at hfeed
      have hresult := Inflate.run_result hlaw s (h z hz)
      cases hrun : z.run (some s) with
      | mk z' r =>
        obtain ⟨out, res⟩ := r
        rw [hrun] at hfeed hresult
        have hkeeps : ({ p with inflate := some z' }.deliver out) = (q, none) →
            z'.Taken Complete (enc ++ s) →
            q.DecoderTook Complete (enc ++ s) ∧ (q.inflate = none ↔ some z = none) := by
          intro hdeliver htaken
          have hkeep := deliver_inflate { p with inflate := some z' } out
          rw [hdeliver] at hkeep
          have hsome : q.inflate = some z' := hkeep
          refine ⟨fun z₁ hz₁ => ?_, by simp [hsome]⟩
          rw [hsome] at hz₁
          cases hz₁
          exact htaken
        cases res with
        | fail f => cases hfeed
        | ok => exact hkeeps hfeed hresult
        | wouldblock => exact hkeeps hfeed hresult

lemma core_inflate {p q : BodyPipe Z} (h : q.core = p.core) : q.inflate = p.inflate := by
  obtain ⟨-, hinflate, -⟩ := by simpa [core] using h
  exact hinflate

/-- A decoder that was fed the body without an error has taken it. -/
lemma fed_took (hlaw : Z.Lawful Complete) {p₀ p : BodyPipe Z} {data : Bytes}
    (hstart : p₀.DecoderTook Complete []) (h : p₀.Fed data p) :
    p.DecoderTook Complete data ∧ (p.inflate = none ↔ p₀.inflate = none) := by
  induction h with
  | start hcore =>
    unfold DecoderTook
    rw [core_inflate hcore]
    exact ⟨hstart, Iff.rfl⟩
  | piece h s hfeed hr ih =>
    obtain ⟨htook, hnone⟩ := feed_took hlaw ih.1 hfeed
    unfold DecoderTook at htook ⊢
    rw [core_inflate hr]
    exact ⟨htook, hnone.trans ih.2⟩

/-- A pipe that finishes without an error has a decoder at the end of a compressed stream,
or one that has not begun. -/
lemma finish_whole {p q : BodyPipe Z} {data : Bytes} (h : p.DecoderTook Complete data)
    (hfinish : p.finish = (q, none)) (hdecodes : p.inflate ≠ none) (hdata : data ≠ []) :
    ∃ w members, members ≠ [] ∧ data = members.flatten ∧ ∀ m ∈ members, Complete w m := by
  obtain ⟨z, hz⟩ := Option.ne_none_iff_exists'.mp hdecodes
  unfold finish at hfinish
  rw [hz] at hfinish
  dsimp only at hfinish
  cases hrun : z.run none with
  | mk z' r =>
    obtain ⟨out, res⟩ := r
    rw [hrun] at hfinish
    cases res with
    | fail f => cases hfinish
    | wouldblock => cases hfinish
    | ok =>
      have hend := Inflate.run_none_ok (h z hz) (by rw [hrun])
      exact hend.resolve_left hdata

end BodyPipe

/-- The stream holds the whole body that the framing declares, to the end of its transport
where the framing has no end of its own; and if the body is decoded, it is one compressed
stream after another, all whole. -/
def Whole (Complete : Wrapper → Bytes → Prop) (fr : Framing) (t : Transport) (seed : Bytes)
    (decodes : Prop) : Prop :=
  ∃ data trailers after, Framed fr (seed ++ t.unread) data trailers after ∧
    (fr.kind = .untilClose → t.ending = .eof) ∧
    (decodes → data ≠ [] → ∃ w members, members ≠ [] ∧ data = members.flatten ∧
      ∀ m ∈ members, Complete w m)

open BodyReader

lemma bodyRead_ok_whole (hlaw : Z.Lawful Complete) {sink : Sink} {h h' : Headers}
    {noDecode : Bool} {maxBody cap : Nat} {p : BodyPipe Z} {t : Transport} {fr : Framing}
    {seed : Bytes} {st : State Z}
    (hpipe : BodyPipe.init sink h noDecode maxBody = .ok (p, h'))
    (hread : bodyRead t fr p seed cap = (st, none)) :
    Whole Complete fr t seed (p.inflate ≠ none) := by
  obtain ⟨-, hraw, -, htrailers, -⟩ := BodyPipe.init_fresh hpipe
  obtain ⟨hsteps, q, hend, hfinish⟩ := bodyRead_outcome hraw htrailers hread
  obtain ⟨data, extra, hframed, -, hfed⟩ := hend.framed
  obtain ⟨reads, hstream⟩ := steps_stream hsteps
  refine ⟨data, _, _, hframed, fun huntil => ?_, fun hdecodes hdata => ?_⟩
  · obtain ⟨-, heof⟩ := hend.closed huntil
    have hending : st.stream.ending = t.ending := by rw [hstream]
    rw [← hending]
    exact heof
  · obtain ⟨htook, hnone⟩ := BodyPipe.fed_took hlaw (BodyPipe.init_took hpipe) hfed
    exact BodyPipe.finish_whole htook hfinish (fun hq => hdecodes (hnone.mp hq)) hdata

/-- A body that is read to its end without an error, in one go or pulled, was whole. -/
theorem bodyRead_whole (hlaw : Z.Lawful Complete) (fr : Framing) (t : Transport) (seed : Bytes)
    (h : Headers) (minor : Int) (cap : Nat) (noDecode : Bool) :
    (∀ sink maxBody (p : BodyPipe Z) h' st,
      BodyPipe.init sink h noDecode maxBody = .ok (p, h') →
      bodyRead t fr p seed cap = (st, none) →
      Whole Complete fr t seed (p.inflate ≠ none)) ∧
    (∀ (b : OpenBody Z) h' cs,
      OpenBody.new (.h1 fr t seed) h minor cap noDecode = .ok (b, h') →
      (b.calls cs).endedClean = true →
      Whole Complete fr t seed (b.src.pipe.inflate ≠ none)) := by
  refine ⟨fun sink maxBody p h' st hpipe hread => bodyRead_ok_whole hlaw hpipe hread, ?_⟩
  intro b h' cs hnew hended
  obtain ⟨q, hall, -, -⟩ := OpenBody.ended_readAll (OpenBody.new_eq_ok hnew).1 hended
  unfold OpenBody.new at hnew
  cases hpipe : BodyPipe.init (Z := Z) Sink.memory h noDecode cap with
  | error f =>
    rw [hpipe] at hnew
    cases hnew
  | ok r =>
    obtain ⟨p, h₁⟩ := r
    rw [hpipe] at hnew
    cases hnew
    obtain ⟨-, hres⟩ := Prod.mk.inj hall
    exact bodyRead_ok_whole hlaw hpipe (Prod.ext rfl hres)

/-- The gzip stream of "hi". -/
def gzipHi : Bytes :=
  [31, 139, 8, 0, 0, 0, 0, 0, 2, 3, 203, 200, 4, 0, 172, 42, 147, 216, 2, 0, 0, 0]

theorem bodyRead_whole_gzip :
    let t : Transport := { reads := [⟨gzipHi, by decide, by decide⟩] }
    let h : Headers := { Headers.init with
      items := [⟨ascii "Content-Encoding", ascii "gzip", by decide, by decide⟩], bytes := 24 }
    ∃ (p : BodyPipe (Zlib.knowing gzipHi (ascii "hi"))) (h' : Headers),
      BodyPipe.init Sink.memory h false 0 = .ok (p, h') ∧ p.inflate ≠ none ∧
      (bodyRead t ⟨.length, 22, true⟩ p [] 0).2 = none ∧
      (bodyRead t ⟨.length, 22, true⟩ p [] 0).1.pipe.sink.bytes = ascii "hi" ∧
      Whole (fun _ m => m = gzipHi) ⟨.length, 22, true⟩ t [] (p.inflate ≠ none) := by
  intro t h
  refine ⟨_, _, rfl, (fun hnone => by cases hnone), by decide +kernel, by decide +kernel, ?_⟩
  exact (bodyRead_whole (Zlib.knowing_lawful (ascii "hi") (by decide)) ⟨.length, 22, true⟩ t []
    h 1 0 false).1 Sink.memory 0 _ _ _ rfl (Prod.ext rfl (by decide +kernel))

end Zuhttp
