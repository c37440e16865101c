import Zuhttp.Proofs.Limit

/-!
# A body that fits its cap

Under identity coding a read refuses a body for its size only where more than the cap has
arrived, or where the vendored decoder refuses a buffer that is longer than what is left of
the cap.
-/

namespace Zuhttp

open Phr Dechunk Loop

variable {Z : Zlib}

/-! ### HTTP/1.1 -/

namespace BodyReader

/-- The vendored decoder refuses the bytes the reader reads next, and they are too many for
what is left of the cap. -/
def RefusedOverCap (st : State Z) : Prop :=
  st.reader.done = false ∧ st.reader.fr.kind = .chunked ∧
    match (st.reader.nextBytes st.stream).1 with
    | .ok bytes => bytes ≠ [] ∧ st.reader.dec.Refuses bytes ∧ st.pipe.capCheck bytes.length ≠ none
    | .error _ => False

instance (st : State Z) : Decidable (RefusedOverCap st) :=
  haveI : Decidable (match (st.reader.nextBytes st.stream).1 with
      | .ok bytes =>
        bytes ≠ [] ∧ st.reader.dec.Refuses bytes ∧ st.pipe.capCheck bytes.length ≠ none
      | .error _ => False) :=
    match (st.reader.nextBytes st.stream).1 with
    | .ok _ => inferInstanceAs (Decidable (_ ∧ _ ∧ _))
    | .error _ => inferInstanceAs (Decidable False)
  inferInstanceAs (Decidable (_ ∧ _ ∧ _))

/-- The chunk decoder counts what the sink was handed. -/
structure Counts (st : State Z) : Prop where
  maxChunk : st.reader.dec.maxChunk = 0
  maxTotal : st.reader.dec.maxTotal = st.pipe.maxBody
  total : st.reader.dec.total ≤ st.pipe.sink.written

end BodyReader

namespace Chunked

/-- The limits and the count of a chunk decoder. -/
def counter (c : Chunked) : Nat × Nat × Nat := (c.maxChunk, c.maxTotal, c.total)

/-- The code is not that of the cap. -/
def RcSpares (rc : ChunkedResult) : Prop := ∀ f, rc = .fail f → f.rc ≠ .bodyLimit

lemma addTrailers_spares {h h' : Headers} {fs : List PhrHeader} {f : Fail}
    (hadd : addTrailers h fs = (h', some f)) : f.rc ≠ .bodyLimit := by
  induction fs generalizing h with
  | nil => cases hadd
  | cons p fs ih =>
    unfold addTrailers at hadd
    split at hadd
    · cases hadd
      decide
    · split at hadd
      · exact ih hadd
      · cases hadd
        decide

lemma trailerParse_counter (c : Chunked) :
    c.trailerParse.1.counter = c.counter ∧ RcSpares c.trailerParse.2 := by
  unfold trailerParse
  by_cases hempty : c.tbuf.length = 0
  · rw [if_pos hempty]
    exact ⟨rfl, fun f hf => by cases hf⟩
  rw [if_neg hempty]
  cases hparse : parseHeaders true maxHeaderCount c.tbuf with
  | incomplete =>
    dsimp only
    split_ifs
    · exact ⟨rfl, fun f hf => by cases hf; decide⟩
    · exact ⟨rfl, fun f hf => by cases hf⟩
  | bad => exact ⟨rfl, fun f hf => by cases hf; decide⟩
  | ok fields rest =>
    dsimp only
    cases hadd : addTrailers c.trailers fields with
    | mk h refused =>
      cases refused with
      | none => exact ⟨rfl, fun f hf => by cases hf⟩
      | some f => exact ⟨rfl, fun g hg => by cases hg; exact addTrailers_spares hadd⟩

lemma appendTrailer_counter (c : Chunked) (s : Bytes) :
    (c.appendTrailer s).1.counter = c.counter ∧ RcSpares (c.appendTrailer s).2 := by
  unfold appendTrailer
  split_ifs
  · exact ⟨rfl, fun f hf => by cases hf; decide⟩
  · exact trailerParse_counter { c with tbuf := c.tbuf ++ s }

/-- A decoder that refuses nothing counts what it decodes, and its own limit is the cap. -/
lemma decode_counter {c : Chunked} {bytes : Bytes} (hchunk : c.maxChunk = 0)
    (hclean : ¬c.Refuses bytes) :
    (c.decode bytes).1.maxChunk = 0 ∧ (c.decode bytes).1.maxTotal = c.maxTotal ∧
      ((∀ f, (c.decode bytes).2.2 ≠ .fail f) →
        (c.decode bytes).1.total = c.total + (c.decode bytes).2.1.length) ∧
      (∀ f, (c.decode bytes).2.2 = .fail f → f.rc = .bodyLimit →
        c.maxTotal < c.total + (c.decode bytes).2.1.length) := by
  unfold decode
  by_cases hin : c.inTrailer = true
  · rw [if_pos hin]
    obtain ⟨hcounter, hspares⟩ := c.appendTrailer_counter bytes
    obtain ⟨hc, hm, ht⟩ := by simpa [counter] using hcounter
    dsimp only
    exact ⟨hc.trans hchunk, hm, fun _ => ht, fun f hf hrc => absurd hrc (hspares f hf)⟩
  rw [if_neg hin]
  generalize hdec : decodeChunked c.decoder bytes = dr
  obtain ⟨d, r⟩ := dr
  dsimp only
  cases hend : r.ending with
  | malformed =>
    refine absurd ⟨by simpa using hin, ?_⟩ hclean
    rw [hdec]
    exact hend
  | incomplete =>
    dsimp only
    by_cases hover : c.maxTotal ≠ 0 ∧ r.out.length > c.maxTotal - c.total
    · rw [if_pos hover]
      exact ⟨hchunk, rfl, fun hok => absurd rfl (hok _), fun _ _ _ => by dsimp only; omega⟩
    rw [if_neg hover, if_neg (by simp [hchunk]), if_neg (by simp)]
    exact ⟨hchunk, rfl, fun _ => rfl, fun f hf => by cases hf⟩
  | complete =>
    dsimp only
    by_cases hover : c.maxTotal ≠ 0 ∧ r.out.length > c.maxTotal - c.total
    · rw [if_pos hover]
      exact ⟨hchunk, rfl, fun hok => absurd rfl (hok _), fun _ _ _ => by dsimp only; omega⟩
    rw [if_neg hover, if_neg (by simp [hchunk]), if_pos rfl]
    obtain ⟨hcounter, hspares⟩ := appendTrailer_counter { c with
      decoder := d, total := c.total + r.out.length, inTrailer := true } r.rest
    obtain ⟨hc, hm, ht⟩ := by simpa [counter] using hcounter
    dsimp only
    exact ⟨hc.trans hchunk, hm, fun _ => ht, fun f hf hrc => absurd hrc (hspares f hf)⟩

end Chunked

namespace BodyReader

lemma decode_refuses_rc {c : Chunked} {bytes : Bytes} {f : Fail} (h : c.Refuses bytes)
    (hf : (c.decode bytes).2.2 = .fail f) : f.rc = .parse := by
  obtain ⟨hin, hend⟩ := h
  unfold Chunked.decode at hf
  rw [if_neg (by simp [hin])] at hf
  generalize decodeChunked c.decoder bytes = dr at hend hf
  obtain ⟨d, r⟩ := dr
  dsimp only at hend hf
  rw [hend] at hf
  cases hf
  rfl

section Limit

variable {fr : Framing} {stream bytes : Bytes} {p₀ : BodyPipe Z} {st : State Z}

/-- A step over chunked bytes fails for their size only past the cap, and counts what it
lets pass. -/
lemma stepChunked_limit (hid : p₀.inflate = none) (hzero : p₀.sink.written = 0)
    (hsink : Sink.SparesLimit p₀.sink.respond) (h : Reading fr stream p₀ st bytes)
    (hkind : fr.kind = .chunked) (hcounts : Counts st)
    (hclean : ¬(st.reader.dec.Refuses bytes ∧ st.pipe.capCheck bytes.length ≠ none)) :
    (∀ f, (stepChunked st bytes).2 = some f → f.rc = .bodyLimit →
      p₀.maxBody < (referenceBody fr stream).length) ∧
    ((stepChunked st bytes).2 = none → Counts (stepChunked st bytes).1) := by
  obtain ⟨hframe, -, -, -, wire, data, hstream, hfed, hprogress⟩ := h
  unfold Progress at hprogress
  rw [hframe, hkind] at hprogress
  obtain ⟨rfl, hreads⟩ := hprogress
  obtain ⟨hnone, -⟩ := BodyPipe.fed_identity hid hfed
  obtain ⟨hwritten, hrespond, hmax⟩ := BodyPipe.fed_written hid hfed
  rw [hzero, Nat.zero_add] at hwritten
  obtain ⟨hchunk, htotal, hcount⟩ := hcounts
  have hfeed_limit : ∀ {out : Bytes} {q : BodyPipe Z} {f : Fail}, BodyPipe.feed { st.pipe with
      rawSeen := st.pipe.rawSeen + bytes.length } out = (q, some f) → f.rc = .bodyLimit →
      st.pipe.capCheck out.length ≠ none ∧ st.pipe.maxBody < st.pipe.sink.written + out.length :=
    fun hfeed hf => BodyPipe.feed_limit (p := { st.pipe with
      rawSeen := st.pipe.rawSeen + bytes.length }) hnone
        (by rw [← hrespond] at hsink; exact hsink) hfeed hf
  unfold stepChunked
  dsimp only
  by_cases hrefuses : st.reader.dec.Refuses bytes
  · obtain ⟨hout, g, hfail⟩ := decode_refuses hrefuses
    have hparse := decode_refuses_rc hrefuses hfail
    obtain ⟨-, hsame, hrest, -⟩ := Chunked.decodeChunked_spec st.reader.dec.decoder bytes
    have hlen := rewritten_length hsame hrest
    rw [← hout] at hlen
    generalize st.reader.dec.decode bytes = decoded at hlen hfail ⊢
    obtain ⟨dec, out, rc⟩ := decoded
    dsimp only at hlen hfail ⊢
    rw [hfail]
    cases hfeed : BodyPipe.feed { st.pipe with
      rawSeen := st.pipe.rawSeen + bytes.length } out with
    | mk q res =>
      cases res with
      | some f =>
        refine ⟨fun f' hf' hrc => ?_, fun hok => by cases hok⟩
        cases hf'
        have hover := (hfeed_limit hfeed hrc).1
        rw [hlen] at hover
        exact absurd ⟨hrefuses, hover⟩ hclean
      | none =>
        refine ⟨fun f' hf' hrc => ?_, fun hok => by cases hok⟩
        cases hf'
        rw [hparse] at hrc
        cases hrc
  · obtain ⟨hchunk', htotal', hcounted, hlimit⟩ := Chunked.decode_counter hchunk hrefuses
    obtain ⟨-, hadds⟩ := Chunked.decode_spec bytes hreads
    have hadds := hadds.resolve_left (fun hbad => hrefuses hbad.1)
    have hbody : (scan {} wire).out.length + (st.reader.dec.decode bytes).2.1.length ≤
        (referenceBody fr stream).length := by
      rw [← List.length_append, ← hadds]
      unfold referenceBody
      rw [hkind, hstream, ← List.append_assoc]
      exact (scan_out_initial _ _).length_le
    generalize st.reader.dec.decode bytes = decoded at hbody hchunk' htotal' hcounted hlimit ⊢
    obtain ⟨dec, out, rc⟩ := decoded
    dsimp only at hbody hchunk' htotal' hcounted hlimit ⊢
    have hkeeps := (BodyPipe.feed_keeps { st.pipe with
      rawSeen := st.pipe.rawSeen + bytes.length } out).2.2.2
    cases hfeed : BodyPipe.feed { st.pipe with
      rawSeen := st.pipe.rawSeen + bytes.length } out with
    | mk q res =>
      rw [hfeed] at hkeeps
      cases res with
      | some f =>
        refine ⟨fun f' hf' hrc => ?_, fun hok => by cases hok⟩
        cases hf'
        have hover := (hfeed_limit hfeed hrc).2
        omega
      | none =>
        have hnow : p₀.Fed ((scan {} wire).out ++ out) q :=
          (hfed.congr (q := { st.pipe with rawSeen := st.pipe.rawSeen + bytes.length }) rfl).piece
            out hfeed rfl
        obtain ⟨hwritten', -, hmax'⟩ := BodyPipe.fed_written hid hnow
        rw [hzero, Nat.zero_add, List.length_append] at hwritten'
        cases rc with
        | fail g =>
          refine ⟨fun f' hf' hrc => ?_, fun hok => by cases hok⟩
          cases hf'
          have hover := hlimit g rfl hrc
          omega
        | wouldblock =>
          have hcounted := hcounted (fun f hf => by cases hf)
          refine ⟨fun f hf => (by cases hf), fun _ => ⟨hchunk', ?_, ?_⟩⟩
          · exact (htotal'.trans htotal).trans hkeeps.symm
          · dsimp only
            omega
        | ok =>
          have hcounted := hcounted (fun f hf => by cases hf)
          refine ⟨fun f hf => (by cases hf), fun _ => ⟨hchunk', ?_, ?_⟩⟩
          · exact (htotal'.trans htotal).trans hkeeps.symm
          · dsimp only [State.finishFrame]
            omega

/-- A step over plain bytes fails for their size only past the cap. -/
lemma stepPlain_limit (hid : p₀.inflate = none) (hzero : p₀.sink.written = 0)
    (hsink : Sink.SparesLimit p₀.sink.respond) (h : Reading fr stream p₀ st bytes)
    (hkind : fr.kind = .length ∨ fr.kind = .untilClose) {f : Fail}
    (hf : (stepPlain st bytes).2 = some f) (hrc : f.rc = .bodyLimit) :
    p₀.maxBody < (referenceBody fr stream).length := by
  obtain ⟨hframe, -, -, -, wire, data, hstream, hfed, hprogress⟩ := h
  unfold Progress at hprogress
  rw [hframe] at hprogress
  unfold stepPlain at hf
  rw [hframe] at hf
  dsimp only at hf
  obtain ⟨take, htake⟩ : ∃ take, take = if fr.kind = .length ∧
      st.pipe.rawSeen + bytes.length > fr.length then
        fr.length - st.pipe.rawSeen else bytes.length := ⟨_, rfl⟩
  rw [← htake] at hf
  have hbody : data ++ bytes.take take <+: referenceBody fr stream := by
    unfold referenceBody
    rcases hkind with hkind | hkind
    · rw [hkind] at hprogress ⊢
      obtain ⟨rfl, hraw, hle⟩ := hprogress
      rw [hkind, hraw] at htake
      refine List.prefix_take_iff.mpr ⟨?_, ?_⟩
      · rw [hstream, ← List.append_assoc]
        exact ((List.prefix_append_right_inj _).mpr (List.take_prefix _ _)).trans
          (List.prefix_append _ _)
      · rw [List.length_append, List.length_take]
        simp only [true_and] at htake
        split_ifs at htake <;> omega
    · rw [hkind] at hprogress ⊢
      subst hprogress
      rw [hstream, ← List.append_assoc]
      exact ((List.prefix_append_right_inj _).mpr (List.take_prefix _ _)).trans
        (List.prefix_append _ _)
  obtain ⟨hnone, -⟩ := BodyPipe.fed_identity hid hfed
  obtain ⟨hwritten, hrespond, hmax⟩ := BodyPipe.fed_written hid hfed
  cases hfeed : BodyPipe.feed { st.pipe with
    surplus := st.pipe.surplus + (bytes.length - take) } (bytes.take take) with
  | mk q res =>
    rw [hfeed] at hf
    cases res with
    | none =>
      dsimp only at hf
      split_ifs at hf
    | some g =>
      cases hf
      have hover := (BodyPipe.feed_limit (p := { st.pipe with
        surplus := st.pipe.surplus + (bytes.length - take) }) hnone
          (by rw [← hrespond] at hsink; exact hsink) hfeed hrc).2
      have hshort := hbody.length_le
      rw [List.length_append] at hshort
      dsimp only at hover
      omega

lemma stepFramed_limit (hid : p₀.inflate = none) (hzero : p₀.sink.written = 0)
    (hsink : Sink.SparesLimit p₀.sink.respond) (hends : st.stream.SparesLimit)
    (h : Reading fr stream p₀ st []) (hcounts : fr.kind = .chunked → Counts st)
    (hclean : ¬RefusedOverCap st) :
    (∀ f, (stepFramed st).2 = some f → f.rc = .bodyLimit →
      p₀.maxBody < (referenceBody fr stream).length) ∧
    ((stepFramed st).2 = none → fr.kind = .chunked → Counts (stepFramed st).1) := by
  have hframe := h.frame
  unfold stepFramed
  dsimp only
  rw [hframe]
  by_cases hnone : fr.kind = .none
  · rw [if_pos hnone]
    exact ⟨fun f hf => (by cases hf), fun _ hkind => (by rw [hnone] at hkind; cases hkind)⟩
  rw [if_neg hnone]
  by_cases hfull : fr.kind = .length ∧ st.pipe.rawSeen ≥ fr.length
  · rw [if_pos hfull]
    exact ⟨fun f hf => (by cases hf), fun _ hkind => (by rw [hfull.1] at hkind; cases hkind)⟩
  rw [if_neg hfull]
  rcases nextBytes_cases st.reader st.stream with
    ⟨bytes, seed, reads, hbytes, hnext, hsplit, -⟩ | ⟨-, -, -, hnext⟩ | ⟨f, -, -, hend, hnext⟩
  · rw [hnext]
    simp only [hbytes, if_false]
    have hreading := h.next hsplit
    by_cases hchunked : fr.kind = .chunked
    · rw [if_pos hchunked]
      have hcounts := hcounts hchunked
      obtain ⟨hlimit, hnow⟩ := stepChunked_limit hid hzero hsink hreading hchunked
        ⟨hcounts.maxChunk, hcounts.maxTotal, hcounts.total⟩ (fun hover => hclean
          ⟨h.going, hframe ▸ hchunked, by rw [hnext]; exact ⟨hbytes, hover⟩⟩)
      exact ⟨hlimit, fun hok _ => hnow hok⟩
    · rw [if_neg hchunked]
      have hkind : fr.kind = .length ∨ fr.kind = .untilClose := by
        cases hk : fr.kind with
        | none => exact absurd hk hnone
        | length => exact Or.inl rfl
        | chunked => exact absurd hk hchunked
        | untilClose => exact Or.inr rfl
      exact ⟨fun f hf hrc => stepPlain_limit hid hzero hsink hreading hkind hf hrc,
        fun _ hk => absurd hk hchunked⟩
  · rw [hnext]
    simp only [if_true]
    by_cases huntil : fr.kind = .untilClose
    · rw [if_pos huntil]
      exact ⟨fun f hf => (by cases hf), fun _ hk => (by rw [huntil] at hk; cases hk)⟩
    · rw [if_neg huntil]
      exact ⟨fun f hf hrc => (by cases hf; cases hrc), fun hok => (by cases hok)⟩
  · rw [hnext]
    exact ⟨fun g hg hrc => (by cases hg; exact absurd hrc (hends f hend)),
      fun hok => (by cases hok)⟩

/-- A step fails for the size of the body only past the cap, or where the decoder refuses
too many bytes. -/
lemma step_limit (hid : p₀.inflate = none) (hzero : p₀.sink.written = 0)
    (hsink : Sink.SparesLimit p₀.sink.respond) (hends : st.stream.SparesLimit)
    (h : Reading fr stream p₀ st []) (hcounts : fr.kind = .chunked → Counts st)
    (hclean : ¬RefusedOverCap st) :
    (∀ f, (step st).2 = some f → f.rc = .bodyLimit →
      p₀.maxBody < (referenceBody fr stream).length) ∧
    ((step st).2 = none → (step st).1.reader.done = false → fr.kind = .chunked →
      Counts (step st).1) := by
  have hlimit := stepFramed_limit hid hzero hsink hends h hcounts hclean
  have hframed := stepFramed_result h
  unfold step
  rw [if_neg (by simp [h.going])]
  generalize stepFramed st = r at hlimit hframed ⊢
  obtain ⟨st₁, res⟩ := r
  cases res with
  | some f => exact ⟨hlimit.1, fun hok => (by cases hok)⟩
  | none =>
    dsimp only at hlimit hframed ⊢
    by_cases hdone : st₁.reader.done = true
    · rw [if_pos hdone]
      rcases hframed with ⟨hreading, -⟩ | hend
      · rw [hreading.going] at hdone
        cases hdone
      · obtain ⟨data, extra, -, -, hfed⟩ := hend.framed
        rw [BodyPipe.finish_identity (BodyPipe.fed_identity hid hfed).1]
        refine ⟨fun f hf => (by cases hf), fun _ hopen => ?_⟩
        rw [hdone] at hopen
        cases hopen
    · rw [if_neg hdone]
      exact ⟨fun f hf => (by cases hf), fun _ _ hkind => hlimit.2 rfl hkind⟩

/-- The chunk decoder counts what the sink was handed at every step. -/
lemma steps_counts {q : State Z} (hid : p₀.inflate = none) (hzero : p₀.sink.written = 0)
    (hsink : Sink.SparesLimit p₀.sink.respond) (hends : st.stream.SparesLimit)
    (h : Reading fr stream p₀ st []) (hcounts : fr.kind = .chunked → Counts st)
    (hclean : ∀ s, Steps st s → ¬RefusedOverCap s) (hsteps : Steps st q) :
    q.reader.done = false → fr.kind = .chunked → Counts q := by
  induction hsteps with
  | start => exact fun _ => hcounts
  | @next s s' hs hgoing hstep ih =>
    intro hopen hkind
    rcases steps_result h hs with hreading | ⟨p, hend, -⟩
    · obtain ⟨reads, hstream⟩ := steps_stream hs
      have hends' : s.stream.SparesLimit := by
        rw [hstream]
        exact hends
      have hnow := (step_limit hid hzero hsink hends' hreading (ih hgoing) (hclean s hs)).2
      rw [hstep] at hnow
      exact hnow rfl hopen hkind
    · have hdone := hend.done
      rw [hgoing] at hdone
      cases hdone

end Limit

/-- The step that meets such bytes fails for their size. -/
lemma step_overCap {st : State Z} (hid : st.pipe.inflate = none) (h : RefusedOverCap st) :
    (step st).2 = some BodyPipe.capExceeded := by
  obtain ⟨hgoing, hkind, hread⟩ := h
  rcases nextBytes_cases st.reader st.stream with ⟨bytes, seed, reads, -, hnext, -, -⟩ |
    ⟨-, -, -, hnext⟩ | ⟨f, -, -, -, hnext⟩
  · rw [hnext] at hread
    obtain ⟨hbytes, hrefuses, hcheck⟩ := hread
    obtain ⟨hout, -⟩ := decode_refuses hrefuses
    obtain ⟨-, hsame, hrest, -⟩ := Chunked.decodeChunked_spec st.reader.dec.decoder bytes
    have hlen := rewritten_length hsame hrest
    rw [← hout] at hlen
    have hnonempty : (st.reader.dec.decode bytes).2.1 ≠ [] := by
      rw [← List.length_pos_iff, hlen]
      exact List.length_pos_iff.mpr hbytes
    have hfeed := BodyPipe.feed_over (p := { st.pipe with
      rawSeen := st.pipe.rawSeen + bytes.length }) hid hnonempty (by rw [hlen]; exact hcheck)
    unfold step stepFramed
    simp only [hgoing, Bool.false_eq_true, if_false, hkind, reduceCtorEq, false_and, hnext,
      hbytes, if_true]
    unfold stepChunked
    dsimp only
    rw [hfeed]
  · rw [hnext] at hread
    exact absurd rfl hread.1
  · rw [hnext] at hread
    exact hread.elim

/-- Under identity coding a body that fits its cap is refused for its size exactly when the
vendored decoder refuses too many bytes on the way. -/
lemma bodyRead_limit_iff {sink : Sink} {h h' : Headers} {noDecode : Bool} {cap : Nat}
    {p : BodyPipe Z} {t : Transport} {fr : Framing} {seed : Bytes}
    (hpipe : BodyPipe.init sink h noDecode cap = .ok (p, h')) (hid : p.inflate = none)
    (hzero : sink.written = 0) (hsink : Sink.SparesLimit sink.respond)
    (hends : t.SparesLimit) (hfits : (referenceBody fr (seed ++ t.unread)).length ≤ cap) :
    resultCode (bodyRead t fr p seed cap).2 ≠ .bodyLimit ↔
      ∀ s, Steps ⟨BodyReader.init fr seed cap, t, p⟩ s → ¬RefusedOverCap s := by
  obtain ⟨rfl, hraw, -, htrailers, hmax⟩ := BodyPipe.init_fresh hpipe
  have hstart : Reading fr (seed ++ t.unread) p ⟨BodyReader.init fr seed cap, t, p⟩ [] :=
    init_reading cap hraw htrailers
  cases hread : bodyRead t fr p seed cap with
  | mk st res =>
    have hout := bodyRead_outcome hraw htrailers hread
    constructor
    · intro hcode s hs hover
      have hreading : Reading fr (seed ++ t.unread) p s [] := by
        rcases steps_result hstart hs with hreading | ⟨q, hend, -⟩
        · exact hreading
        · have hdone := hend.done
          rw [hover.1] at hdone
          cases hdone
      obtain ⟨wire, data, -, hfed, -⟩ := hreading.progress
      have hstep : step s = ((step s).1, some BodyPipe.capExceeded) :=
        Prod.ext rfl (step_overCap (BodyPipe.fed_identity hid hfed).1 hover)
      have hrun : bodyRead t fr p seed cap = ((step s).1, some BodyPipe.capExceeded) := by
        refine Loop.iterate_eq_of_fail (fun hok => ?_) hs hover.1 hstep
        have hall : bodyRead t fr p seed cap = ((bodyRead t fr p seed cap).1, none) :=
          Prod.ext rfl hok
        obtain ⟨-, q, hend, -⟩ := bodyRead_outcome hraw htrailers hall
        exact hend.done
      rw [hread] at hrun
      cases hrun
      exact hcode rfl
    · intro hclean hcode
      cases res with
      | none => cases hcode
      | some f =>
        obtain ⟨last, hsteps, hreading, hlast⟩ := hout
        have hcounts : fr.kind = .chunked →
            Counts (⟨BodyReader.init fr seed cap, t, p⟩ : State Z) :=
          fun _ => ⟨rfl, hmax.symm, Nat.zero_le _⟩
        obtain ⟨reads, hstream⟩ := steps_stream hsteps
        have hlimit := (step_limit hid hzero hsink (by rw [hstream]; exact hends) hreading
          (steps_counts hid hzero hsink hends hstart hcounts hclean hsteps hreading.going)
          (hclean last hsteps)).1
        rw [hlast] at hlimit
        have hpast := hlimit f rfl hcode
        omega

end BodyReader

open BodyReader

/-- The sink is never handed more than the cap, nor is the caller who pulls. Under identity
coding a body that fits is not refused for its size: over HTTP/1.1 unless the vendored decoder
refuses more bytes than are left of the cap, and over HTTP/2 never. -/
theorem body_capped {sink : Sink} {h h' : Headers} {noDecode : Bool} {cap : Nat}
    {p : BodyPipe Z} (hcap : 0 < cap)
    (hpipe : BodyPipe.init sink h noDecode cap = .ok (p, h')) :
    (∀ input : BodyInput, ∃ new,
      (input.source p cap).readAll.1.pipe.sink.handed = sink.handed ++ new ∧
      ∀ moment, moment <+: new → moment.flatten.length ≤ cap) ∧
    (∀ (input : BodyInput) hd minor nd (b b' : OpenBody Z) hd' ns out res,
      OpenBody.new input hd minor cap nd = .ok (b, hd') → (∀ n ∈ ns, 0 < n) →
      b.pull ns = (b', out, res) → out.length ≤ cap) ∧
    (p.inflate = none → sink.written = 0 → Sink.SparesLimit sink.respond →
      (∀ (t : Transport) fr seed, t.SparesLimit →
        (((referenceBody fr (seed ++ t.unread)).length ≤ cap →
            resultCode (bodyRead t fr p seed cap).2 ≠ .bodyLimit) ↔
          ((referenceBody fr (seed ++ t.unread)).length ≤ cap →
            ∀ s, Steps ⟨BodyReader.init fr seed cap, t, p⟩ s → ¬RefusedOverCap s))) ∧
      (∀ (h₀ conn : H2) rq hdrs resp st res, h₀.env.SparesLimit →
        h₀.begin rq hdrs = (conn, .ok resp) → conn.body p = (st, res) →
        st.conn.lawful = true → st.conn.payloads.length ≤ cap →
          resultCode res ≠ .bodyLimit)) := by
  have hbound : ∀ {sink : Sink} {h h' : Headers} {noDecode : Bool} {p : BodyPipe Z},
      BodyPipe.init sink h noDecode cap = .ok (p, h') → ∀ input : BodyInput, ∃ new,
        (input.source p cap).readAll.1.pipe.sink.handed = sink.handed ++ new ∧
          new.flatten.length ≤ cap := by
    intro sink h h' noDecode p hpipe input
    obtain ⟨rfl, -, -, -, hmax⟩ := BodyPipe.init_fresh hpipe
    have hsrc : (input.source p cap).pipe = p := by cases input <;> rfl
    have hgoing : (input.source p cap).done = false := by cases input <;> rfl
    obtain ⟨new, hnew, hfits⟩ := BodySource.readAll_bounded (input.source p cap)
      (by rw [hsrc, hmax]; omega) hgoing (by rw [hsrc]; exact BodyPipe.init_capped hpipe)
    rw [hsrc] at hnew hfits
    exact ⟨new, hnew, hmax ▸ hfits⟩
  refine ⟨fun input => ?_, ?_, fun hid hzero hsink => ⟨fun t fr seed hends => ?_, ?_⟩⟩
  · obtain ⟨new, hnew, hfits⟩ := hbound hpipe input
    refine ⟨new, hnew, fun moment hmoment => ?_⟩
    exact (List.IsPrefix.flatten hmoment).length_le.trans hfits
  · intro input hd minor nd b b' hd' ns out res hnew hpos hpull
    obtain ⟨hopened, -⟩ := OpenBody.new_eq_ok hnew
    have hreads := OpenBody.pull_readsAs hopened hpos hpull
    rw [OpenBody.settle_memory hd' minor _
      (BodySource.readAll_memory hopened.going hopened.memory)] at hreads
    unfold OpenBody.new at hnew
    cases hinit : (BodyPipe.init Sink.memory hd nd cap : Except Fail (BodyPipe Z × Headers)) with
    | error f =>
      rw [hinit] at hnew
      cases hnew
    | ok r =>
      obtain ⟨q, hq⟩ := r
      rw [hinit] at hnew
      cases hnew
      obtain ⟨new, hhanded, hfits⟩ := hbound hinit input
      have hstaged : (input.source q cap).readAll.1.staged = new.flatten := by
        unfold BodySource.staged Sink.bytes
        rw [hhanded]
        rfl
      have hshort := hreads.1.length_le
      dsimp only at hshort
      rw [hstaged] at hshort
      exact hshort.trans hfits
  · exact imp_congr_right (bodyRead_limit_iff hpipe hid hzero hsink hends)
  · intro h₀ conn rq hdrs resp st res henv hbegin hbody hlaw hfits hcode
    obtain ⟨rfl, -, -, -, hmax⟩ := BodyPipe.init_fresh hpipe
    cases res with
    | none => cases hcode
    | some f =>
      have hpast := H2.body_limit hid hzero hsink (H2.begin_reported hbegin)
        (H2.begin_spares henv hbegin) hbody hcode hlaw
      omega

/-! ### A body of one byte behind a long chunk extension -/

/-- A read's worth of a chunk extension. -/
def filler : Segment where
  bytes := List.replicate readChunk 97
  nonempty := by
    rw [← List.length_pos_iff, List.length_replicate]
    decide
  fits := by rw [List.length_replicate]

def opening : Segment where
  bytes := 49 :: 59 :: List.replicate (readChunk - 2) 97
  nonempty := List.cons_ne_nil _ _
  fits := by
    rw [List.length_cons, List.length_cons, List.length_replicate]
    decide

def closing : Segment := ⟨ascii "\r\nx\r\n0\r\n\r\n", by decide, by decide⟩

def paddedResponse : Transport :=
  { reads := [opening, filler, filler, filler, filler, filler, filler, closing] }

lemma scan_filler (left n : Nat) (s : Bytes) :
    scan ⟨left, 0, .inChunkExt⟩ (List.replicate n 97 ++ s) = scan ⟨left, 0, .inChunkExt⟩ s := by
  induction n with
  | zero => rfl
  | succ n ih =>
    have hbyte : decodeByte ⟨left, 0, .inChunkExt⟩ 97 = .take ⟨left, 0, .inChunkExt⟩ [] := by
      simp [decodeByte, extByte]
    rw [List.replicate_succ, List.cons_append, scan_take hbyte, prepend_nil, ih]

lemma scan_opening (n : Nat) (s : Bytes) :
    scan {} (49 :: 59 :: (List.replicate n 97 ++ s)) = scan ⟨1, 0, .inChunkExt⟩ s := by
  have hsize : decodeByte {} 49 = .take ⟨1, 1, .inChunkSize⟩ [] := rfl
  have hext : decodeByte ⟨1, 1, .inChunkSize⟩ 59 = .take ⟨1, 0, .inChunkExt⟩ [] := rfl
  rw [scan_take hsize, prepend_nil, scan_take hext, prepend_nil, scan_filler]

/-- The decoder inside the extension, of which it has read `k` bytes. -/
def filling (k : Nat) : ChunkedDecoder := ⟨⟨1, 0, .inChunkExt⟩, k, k⟩

/-- What the vendored decoder makes of bytes that stop inside the extension, and when its
guard trips. -/
lemma decodeChunked_filling {d : ChunkedDecoder} {k : Nat} {bytes : Bytes}
    (hscan : scan d.toChunkPos bytes = ⟨⟨1, 0, .inChunkExt⟩, [], [], .incomplete⟩)
    (hread : d.totalRead = k) (hoverhead : d.totalOverhead = k) (hlen : 4 ≤ bytes.length) :
    decodeChunked d bytes = (filling (k + bytes.length), ⟨⟨1, 0, .inChunkExt⟩, [], [],
      if k + bytes.length ≥ 100 * 1024 then .malformed else .incomplete⟩) := by
  have htrips : overheadTrips (filling (k + bytes.length)) =
      decide (k + bytes.length ≥ 100 * 1024) := by
    unfold overheadTrips filling
    dsimp only
    rw [Nat.sub_self]
    have hquarter : 0 < (k + bytes.length) / 4 := by omega
    simp only [hquarter, and_true]
  unfold decodeChunked
  dsimp only
  rw [hscan, hread, hoverhead, if_pos rfl]
  unfold filling at htrips ⊢
  simp only [List.length_nil, Nat.sub_zero, htrips, decide_eq_true_eq]

lemma decode_filling {c : Chunked} {k : Nat} {bytes : Bytes}
    (hscan : scan c.decoder.toChunkPos bytes = ⟨⟨1, 0, .inChunkExt⟩, [], [], .incomplete⟩)
    (hread : c.decoder.totalRead = k) (hoverhead : c.decoder.totalOverhead = k)
    (hlen : 4 ≤ bytes.length) (hin : c.inTrailer = false) (hchunk : c.maxChunk = 0) :
    (k + bytes.length ≥ 100 * 1024 → c.Refuses bytes) ∧
    (k + bytes.length < 100 * 1024 →
      c.decode bytes = ({ c with decoder := filling (k + bytes.length) }, [], .wouldblock)) := by
  have hdec := decodeChunked_filling hscan hread hoverhead hlen
  constructor
  · intro htrips
    rw [if_pos htrips] at hdec
    exact ⟨hin, by rw [hdec]⟩
  · intro hbelow
    rw [if_neg (by omega)] at hdec
    unfold Chunked.decode
    rw [if_neg (by simp [hin]), hdec]
    dsimp only
    rw [if_neg (by simp), if_neg (by simp [hchunk]), if_neg (by simp)]
    rfl

/-- The reader of the response inside the extension. -/
def fillingState (k : Nat) (reads : List Segment) : State (Zlib.knowing [] []) where
  reader := { BodyReader.init ⟨.chunked, 0, true⟩ [] 5 with
    dec := { Chunked.init 0 5 with decoder := filling k } }
  stream := { reads := reads }
  pipe := { BodyPipe.fresh .memory 5 with rawSeen := k }

def startState : State (Zlib.knowing [] []) where
  reader := BodyReader.init ⟨.chunked, 0, true⟩ [] 5
  stream := paddedResponse
  pipe := .fresh .memory 5

lemma step_extension (st : State (Zlib.knowing [] [])) {seg : Segment} {reads : List Segment}
    (hdone : st.reader.done = false) (hkind : st.reader.fr.kind = .chunked)
    (hseed : st.reader.seed = []) (hreads : st.stream.reads = seg :: reads)
    (hdec : st.reader.dec.decode seg.bytes =
      ({ st.reader.dec with decoder := filling (st.pipe.rawSeen + seg.bytes.length) }, [],
        .wouldblock)) :
    step st = ({ st with
      reader.dec := { st.reader.dec with
        decoder := filling (st.pipe.rawSeen + seg.bytes.length) }
      stream.reads := reads
      pipe.rawSeen := st.pipe.rawSeen + seg.bytes.length }, none) := by
  have hnext : st.reader.nextBytes st.stream =
      (.ok seg.bytes, st.reader, { st.stream with reads := reads }) := by
    unfold nextBytes Transport.read
    rw [if_neg (by simp [hseed]), hreads]
  unfold step stepFramed
  simp only [hdone, Bool.false_eq_true, if_false, hkind, reduceCtorEq, false_and, hnext,
    seg.nonempty, if_true]
  unfold stepChunked
  dsimp only
  rw [hdec]
  dsimp only
  unfold BodyPipe.feed
  rw [if_pos rfl]
  simp only [hdone, Bool.false_eq_true, if_false]

lemma step_filling {k : Nat} (reads : List Segment) (hk : k + readChunk < 100 * 1024) :
    step (fillingState k (filler :: reads)) = (fillingState (k + readChunk) reads, none) := by
  have hlen : filler.bytes.length = readChunk := List.length_replicate
  have hpos : (fillingState k (filler :: reads)).reader.dec.decoder.toChunkPos =
      ⟨1, 0, .inChunkExt⟩ := rfl
  have hscan : scan (fillingState k (filler :: reads)).reader.dec.decoder.toChunkPos
      filler.bytes = ⟨⟨1, 0, .inChunkExt⟩, [], [], .incomplete⟩ := by
    have hall := scan_filler 1 readChunk []
    rw [List.append_nil] at hall
    rw [hpos]
    exact hall
  have hlong : 4 ≤ filler.bytes.length := by
    rw [hlen, readChunk]
    omega
  have hdec := (decode_filling hscan rfl rfl hlong rfl rfl).2 (by rw [hlen]; exact hk)
  rw [hlen] at hdec
  have hstep := step_extension (fillingState k (filler :: reads)) rfl rfl rfl rfl
    (by rw [hlen]; exact hdec)
  rw [hlen] at hstep
  exact hstep

lemma step_opening :
    step startState = (fillingState readChunk paddedResponse.reads.tail, none) := by
  have hlen : opening.bytes.length = readChunk := by
    unfold opening
    rw [List.length_cons, List.length_cons, List.length_replicate]
    rfl
  have hpos : startState.reader.dec.decoder.toChunkPos = {} := rfl
  have hscan : scan startState.reader.dec.decoder.toChunkPos opening.bytes =
      ⟨⟨1, 0, .inChunkExt⟩, [], [], .incomplete⟩ := by
    have hall := scan_opening (readChunk - 2) []
    rw [List.append_nil] at hall
    rw [hpos]
    exact hall
  have hlong : 4 ≤ opening.bytes.length := by
    rw [hlen, readChunk]
    omega
  have hdec := (decode_filling (k := 0) hscan rfl rfl hlong rfl rfl).2
    (by rw [hlen, readChunk]; omega)
  rw [hlen, Nat.zero_add] at hdec
  have hstep := step_extension startState rfl rfl rfl rfl
    (by rw [hlen]; exact hdec)
  rw [hlen] at hstep
  exact hstep

lemma overCap_filling {k : Nat} (reads : List Segment) (hk : k + readChunk ≥ 100 * 1024) :
    RefusedOverCap (fillingState k (filler :: reads)) := by
  have hlen : filler.bytes.length = readChunk := List.length_replicate
  have hpos : (fillingState k (filler :: reads)).reader.dec.decoder.toChunkPos =
      ⟨1, 0, .inChunkExt⟩ := rfl
  have hscan : scan (fillingState k (filler :: reads)).reader.dec.decoder.toChunkPos
      filler.bytes = ⟨⟨1, 0, .inChunkExt⟩, [], [], .incomplete⟩ := by
    have hall := scan_filler 1 readChunk []
    rw [List.append_nil] at hall
    rw [hpos]
    exact hall
  have hlong : 4 ≤ filler.bytes.length := by
    rw [hlen, readChunk]
    omega
  have hrefuses := (decode_filling hscan rfl rfl hlong rfl rfl).1 (by rw [hlen]; exact hk)
  have hnext : (fillingState k (filler :: reads)).reader.nextBytes
      (fillingState k (filler :: reads)).stream =
        (.ok filler.bytes, (fillingState k (filler :: reads)).reader, { reads := reads }) := rfl
  refine ⟨rfl, rfl, ?_⟩
  rw [hnext]
  refine ⟨filler.nonempty, hrefuses, ?_⟩
  have hcheck : (fillingState k (filler :: reads)).pipe.capCheck filler.bytes.length =
      some BodyPipe.capExceeded := by
    unfold BodyPipe.capCheck
    rw [hlen, readChunk]
    rfl
  rw [hcheck]
  exact Option.some_ne_none _

/-- The response is refused inside its extension. -/
lemma padded_refused : ∃ s, Steps startState s ∧ RefusedOverCap s := by
  have hnext : ∀ {k : Nat} {reads : List Segment}, k + readChunk < 100 * 1024 →
      Steps startState (fillingState k (filler :: reads)) →
        Steps startState (fillingState (k + readChunk) reads) :=
    fun hk hsteps => hsteps.next rfl (step_filling _ hk)
  have h₁ : Steps startState (fillingState readChunk paddedResponse.reads.tail) :=
    Loop.Reached.start.next rfl step_opening
  have h₂ := hnext (by rw [readChunk]; omega) h₁
  have h₃ := hnext (by rw [readChunk]; omega) h₂
  have h₄ := hnext (by rw [readChunk]; omega) h₃
  have h₅ := hnext (by rw [readChunk]; omega) h₄
  have h₆ := hnext (by rw [readChunk]; omega) h₅
  exact ⟨_, h₆, overCap_filling _ (by rw [readChunk]; omega)⟩

/-- It is a whole body of one byte. -/
lemma padded_framed :
    Framed ⟨.chunked, 0, true⟩ ([] ++ paddedResponse.unread) (ascii "x") Headers.init [] := by
  have hopening : opening.bytes = 49 :: 59 :: List.replicate (readChunk - 2) 97 := rfl
  have hfiller : filler.bytes = List.replicate readChunk 97 := rfl
  have hscan : scan {} paddedResponse.unread = scan ⟨1, 0, .inChunkExt⟩ closing.bytes := by
    unfold Transport.unread paddedResponse
    simp only [List.map_cons, List.map_nil, List.flatten_cons, List.flatten_nil, List.append_nil,
      hopening, hfiller, List.cons_append, scan_opening, scan_filler]
  have hclosing : scan ⟨1, 0, .inChunkExt⟩ closing.bytes =
      ⟨⟨0, 0, .inChunkHeaderExpectLf⟩, ascii "x", ascii "\r\n", .complete⟩ := rfl
  have hdechunk := dechunk_of_complete (s := paddedResponse.unread) [] (by rw [hscan, hclosing])
  rw [hscan, hclosing, List.append_nil] at hdechunk
  have htrailers : trailersOf (ascii "\r\n") = some (Headers.init, []) := rfl
  rw [List.nil_append]
  exact ⟨ascii "\r\n", hdechunk, htrailers⟩

/-- A well-formed body of one byte is refused for its size under a cap of five. -/
theorem body_not_capped : ¬∀ (cap : Nat) (p : BodyPipe (Zlib.knowing [] [])) (h h' : Headers)
    (t : Transport) (fr : Framing) (seed body after : Bytes) (trailers : Headers), 0 < cap →
    BodyPipe.init Sink.memory h true cap = .ok (p, h') →
    Framed fr (seed ++ t.unread) body trailers after → body.length ≤ cap →
    resultCode (bodyRead t fr p seed cap).2 ≠ .bodyLimit := by
  intro hfits
  have hinit : BodyPipe.init Sink.memory Headers.init true 5 =
      .ok (BodyPipe.fresh (Z := Zlib.knowing [] []) .memory 5, Headers.init) := rfl
  have hcode := hfits 5 _ _ _ paddedResponse ⟨.chunked, 0, true⟩ [] _ _ _ (by decide) hinit
    padded_framed (by decide)
  have hbody : (referenceBody ⟨.chunked, 0, true⟩ ([] ++ paddedResponse.unread)).length ≤ 5 := by
    rw [framed_referenceBody padded_framed]
    decide
  obtain ⟨s, hsteps, hover⟩ := padded_refused
  refine (bodyRead_limit_iff hinit rfl rfl ?_ ?_ hbody).mp hcode s hsteps hover
  · intro handed data f stopped hrefuse
    cases hrefuse
  · intro f hend
    cases hend

theorem body_capped_hello :
    let t : Transport := { reads := [⟨ascii "5\r\nhello\r\n0\r\n\r\n", by decide, by decide⟩] }
    let p : BodyPipe (Zlib.knowing [] []) := .fresh .memory 5
    let input : BodyInput := .h1 ⟨.chunked, 0, true⟩ t []
    (∃ new, (input.source p 5).readAll.1.pipe.sink.handed = Sink.memory.handed ++ new ∧
      ∀ moment, moment <+: new → moment.flatten.length ≤ 5) ∧
    resultCode (bodyRead t ⟨.chunked, 0, true⟩ p [] 5).2 ≠ .bodyLimit := by
  intro t p input
  have hinit : BodyPipe.init .memory Headers.init true 5 = .ok (p, Headers.init) := rfl
  obtain ⟨hbounded, -, hlimit⟩ := body_capped (by decide : 0 < 5) hinit
  have hsink : Sink.SparesLimit Sink.memory.respond := by
    intro handed data f stopped hrefuse
    cases hrefuse
  have hends : t.SparesLimit := by
    intro f hend
    cases hend
  have hfits : (referenceBody ⟨.chunked, 0, true⟩ ([] ++ t.unread)).length ≤ 5 := by
    decide +kernel
  refine ⟨hbounded input,
    ((hlimit rfl rfl hsink).1 t ⟨.chunked, 0, true⟩ [] hends).mpr (fun _ s hs hover => ?_) hfits⟩
  rcases hs.head with rfl | ⟨s', -, hstep, hreach⟩
  · revert hover
    decide +kernel
  · have hs' : s' = (step ⟨BodyReader.init ⟨.chunked, 0, true⟩ [] 5, t, p⟩).1 := by rw [hstep]
    rw [hreach.of_stops (Or.inl (by rw [hs']; decide +kernel)), hs'] at hover
    revert hover
    decide +kernel

end Zuhttp
