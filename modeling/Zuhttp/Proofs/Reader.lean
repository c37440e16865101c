import Zuhttp.Body
import Zuhttp.Proofs.Chunked
import Zuhttp.Proofs.Phr

/-!
# The body reader against the framed stream

What one step of the reader does to the stream and to the pipe (`step_spec`), and from it
what a whole read leaves behind.
-/

namespace Zuhttp

open Phr Dechunk Incremental

variable {Z : Zlib}

/-! ### The trailer section -/

lemma trailersOf_append {block after : Bytes} {trailers : Headers} (more : Bytes)
    (h : trailersOf block = some (trailers, after)) :
    trailersOf (block ++ more) = some (trailers, after ++ more) := by
  unfold trailersOf at h ⊢
  split at h
  · next fields rest hparse =>
    rw [(parseHeaders_stable true Chunked.maxHeaderCount).ok_append more hparse]
    simp only
    split at h
    · next hadd =>
      simp only [Option.some.injEq, Prod.mk.injEq] at h ⊢
      exact ⟨h.1, by rw [h.2]⟩
    · cases h
  · cases h

namespace Chunked

/-- The decoder has read `wire`, all of it, and the message goes on. -/
structure Reads (c : Chunked) (wire : Bytes) : Prop where
  trailers : c.trailers = Headers.init
  body : c.inTrailer = false → (scan {} wire).ending = .incomplete ∧
    c.decoder.toChunkPos = (scan {} wire).pos ∧ c.tbuf = []
  tail : c.inTrailer = true → (scan {} wire).ending = .complete ∧ c.tbuf = (scan {} wire).rest

/-- The vendored decoder refuses the bytes, for their syntax or for its overhead guard. -/
def Refuses (c : Chunked) (bytes : Bytes) : Prop :=
  c.inTrailer = false ∧ (decodeChunked c.decoder bytes).2.ending = .malformed

instance (c : Chunked) (bytes : Bytes) : Decidable (c.Refuses bytes) :=
  inferInstanceAs (Decidable (_ ∧ _))

lemma init_reads (maxChunk maxTotal : Nat) : (init maxChunk maxTotal).Reads [] where
  trailers := rfl
  body := fun _ => ⟨rfl, rfl, rfl⟩
  tail := by
    intro h
    cases h

/-- What the section so far leads to. -/
def SectionResult (c : Chunked) (block : Bytes) (rc : ChunkedResult) : Prop :=
  match rc with
  | .wouldblock => c.trailers = Headers.init ∧ c.inTrailer = true ∧ c.tbuf = block
  | .ok => ∃ after, trailersOf block = some (c.trailers, after) ∧ after.length = c.surplus
  | .fail _ => True

lemma trailerParse_result {c : Chunked} (hin : c.inTrailer = true)
    (htr : c.trailers = Headers.init) :
    SectionResult c.trailerParse.1 c.tbuf c.trailerParse.2 := by
  unfold trailerParse
  by_cases hempty : c.tbuf.length = 0
  · rw [if_pos hempty]
    exact ⟨htr, hin, rfl⟩
  · rw [if_neg hempty]
    cases hparse : parseHeaders true maxHeaderCount c.tbuf with
    | bad => exact trivial
    | incomplete =>
      simp only
      split_ifs
      · exact trivial
      · exact ⟨htr, hin, rfl⟩
    | ok fields rest =>
      rw [htr]
      simp only
      cases hadd : addTrailers Headers.init fields with
      | mk trailers refused =>
        cases refused with
        | some f => exact trivial
        | none =>
          refine ⟨rest, ?_, rfl⟩
          unfold trailersOf
          rw [hparse]
          simp only [hadd]

lemma appendTrailer_result {c : Chunked} (s : Bytes) (hin : c.inTrailer = true)
    (htr : c.trailers = Headers.init) :
    SectionResult (c.appendTrailer s).1 (c.tbuf ++ s) (c.appendTrailer s).2 := by
  unfold appendTrailer
  split_ifs
  · exact trivial
  · exact trailerParse_result (c := { c with tbuf := c.tbuf ++ s }) hin htr

/-- What decoding more bytes leads to. -/
def DecodeResult (c : Chunked) (wire : Bytes) (rc : ChunkedResult) : Prop :=
  match rc with
  | .wouldblock => c.Reads wire
  | .ok => (scan {} wire).ending = .complete ∧
      ∃ after, trailersOf (scan {} wire).rest = some (c.trailers, after) ∧
        after.length = c.surplus
  | .fail _ => True

lemma sectionResult_decode {c : Chunked} {wire : Bytes} {rc : ChunkedResult}
    (hend : (scan {} wire).ending = .complete) (h : SectionResult c (scan {} wire).rest rc) :
    DecodeResult c wire rc := by
  cases rc with
  | ok => exact ⟨hend, h⟩
  | wouldblock =>
    obtain ⟨htr, hin, hbuf⟩ := h
    exact ⟨htr, fun hout => by simp [hin] at hout, fun _ => ⟨hend, hbuf⟩⟩
  | fail f => exact trivial

lemma decodeChunked_spec (d : ChunkedDecoder) (buf : Bytes) :
    (decodeChunked d buf).1.toChunkPos = (scan d.toChunkPos buf).pos ∧
      (decodeChunked d buf).2.out = (scan d.toChunkPos buf).out ∧
      (decodeChunked d buf).2.rest = (scan d.toChunkPos buf).rest ∧
      ((decodeChunked d buf).2.ending ≠ .malformed →
        (decodeChunked d buf).2.ending = (scan d.toChunkPos buf).ending) := by
  unfold decodeChunked
  by_cases hend : (scan d.toChunkPos buf).ending = .incomplete
  · rw [if_pos hend]
    refine ⟨rfl, rfl, rfl, ?_⟩
    simp only
    split_ifs
    · simp
    · simp [hend]
  · rw [if_neg hend]
    exact ⟨rfl, rfl, rfl, fun _ => rfl⟩

/-- Unless the vendored decoder refuses the bytes, what is decoded is what they add to the
body. -/
theorem decode_spec {c : Chunked} {wire : Bytes} (bytes : Bytes) (h : c.Reads wire) :
    DecodeResult (c.decode bytes).1 (wire ++ bytes) (c.decode bytes).2.2 ∧
      (c.Refuses bytes ∧ (∃ f, (c.decode bytes).2.2 = .fail f) ∨
        (scan {} (wire ++ bytes)).out = (scan {} wire).out ++ (c.decode bytes).2.1) := by
  have hscan := scan_append {} wire bytes
  unfold decode
  split_ifs with hin
  · obtain ⟨hend, hbuf⟩ := h.tail hin
    rw [hend] at hscan
    simp only at hscan ⊢
    refine ⟨sectionResult_decode (by rw [hscan, hend]) ?_, Or.inr (by rw [hscan]; simp)⟩
    rw [hscan, ← hbuf]
    exact appendTrailer_result bytes hin h.trailers
  · have hout : c.inTrailer = false := by simpa using hin
    obtain ⟨hend, hpos, hbuf⟩ := h.body hout
    rw [hend, ← hpos] at hscan
    simp only at hscan
    obtain ⟨hdpos, hdout, hdrest, hdend⟩ := decodeChunked_spec c.decoder bytes
    generalize hdec : decodeChunked c.decoder bytes = dr at hdpos hdout hdrest hdend
    obtain ⟨d, r⟩ := dr
    simp only at hdpos hdout hdrest hdend ⊢
    have hadds : (scan {} (wire ++ bytes)).out = (scan {} wire).out ++ r.out := by
      rw [hscan, prepend_out, hdout]
    cases hr : r.ending with
    | malformed =>
      refine ⟨trivial, Or.inl ⟨⟨hout, ?_⟩, _, rfl⟩⟩
      rw [hdec]
      exact hr
    | incomplete =>
      have hend' : (scan c.decoder.toChunkPos bytes).ending = .incomplete := by
        rw [← hdend (by rw [hr]; decide), hr]
      simp only [reduceCtorEq, if_false]
      split_ifs
      · exact ⟨trivial, Or.inr hadds⟩
      · exact ⟨trivial, Or.inr hadds⟩
      · refine ⟨⟨h.trailers, fun _ => ⟨?_, ?_, hbuf⟩, fun hin' => ?_⟩, Or.inr hadds⟩
        · rw [hscan, prepend_ending, hend']
        · rw [hscan, prepend_pos, ← hdpos]
        · exact absurd hin' hin
    | complete =>
      have hend' : (scan c.decoder.toChunkPos bytes).ending = .complete := by
        rw [← hdend (by rw [hr]; decide), hr]
      simp only [if_true]
      split_ifs
      · exact ⟨trivial, Or.inr hadds⟩
      · exact ⟨trivial, Or.inr hadds⟩
      · have hsection := appendTrailer_result (c := { c with
          decoder := d, total := c.total + r.out.length, inTrailer := true }) r.rest rfl h.trailers
        have hblock : c.tbuf ++ r.rest = r.rest := by rw [hbuf, List.nil_append]
        change SectionResult _ (c.tbuf ++ r.rest) _ at hsection
        rw [hblock] at hsection
        refine ⟨sectionResult_decode (by rw [hscan, prepend_ending, hend']) ?_, Or.inr hadds⟩
        rw [hscan, prepend_rest, ← hdrest]
        exact hsection

end Chunked

/-! ### The pipe -/

namespace BodyPipe

/-- What feeding works on; the rest counts what the reader saw. -/
def core (p : BodyPipe Z) : Sink × Option (Inflate Z) × Nat := (p.sink, p.inflate, p.maxBody)

/-- The pipe `p₀` after it took pieces that together are `data`. -/
inductive Fed (p₀ : BodyPipe Z) : Bytes → BodyPipe Z → Prop
  | start {p} (h : p.core = p₀.core) : Fed p₀ [] p
  | piece {data p q r} (h : Fed p₀ data p) (s : Bytes) (hfeed : p.feed s = (q, none))
      (hr : r.core = q.core) : Fed p₀ (data ++ s) r

lemma Fed.congr {p₀ p q : BodyPipe Z} {data : Bytes} (h : p₀.Fed data p)
    (hq : q.core = p.core) : p₀.Fed data q := by
  cases h with
  | start hp => exact .start (hq.trans hp)
  | piece h s hfeed hr => exact .piece h s hfeed (hq.trans hr)

lemma init_fresh {sink : Sink} {h h' : Headers} {noDecode : Bool} {maxBody : Nat}
    {p : BodyPipe Z} (hinit : init sink h noDecode maxBody = .ok (p, h')) :
    p.sink = sink ∧ p.rawSeen = 0 ∧ p.surplus = 0 ∧ p.trailers = Headers.init ∧
      p.maxBody = maxBody := by
  unfold init at hinit
  dsimp only at hinit
  split at hinit
  · cases hinit
    exact ⟨rfl, rfl, rfl, rfl, rfl⟩
  · cases hinit
  · split at hinit
    · cases hinit
    · cases hinit
      exact ⟨rfl, rfl, rfl, rfl, rfl⟩

lemma feed_keeps (p : BodyPipe Z) (s : Bytes) :
    (p.feed s).1.rawSeen = p.rawSeen ∧ (p.feed s).1.surplus = p.surplus ∧
      (p.feed s).1.trailers = p.trailers ∧ (p.feed s).1.maxBody = p.maxBody := by
  unfold feed deliver
  split_ifs
  · exact ⟨rfl, rfl, rfl, rfl⟩
  · split
    · split <;> exact ⟨rfl, rfl, rfl, rfl⟩
    · split <;> exact ⟨rfl, rfl, rfl, rfl⟩

end BodyPipe

namespace BodyReader

/-- A read takes bytes from the front of what is unread, meets the end of the stream or
fails. -/
lemma nextBytes_cases (r : BodyReader) (t : Transport) :
    (∃ bytes seed reads, bytes ≠ [] ∧
      r.nextBytes t = (.ok bytes, { r with seed := seed }, { t with reads := reads }) ∧
      r.seed ++ t.unread = bytes ++ (seed ++ { t with reads := reads }.unread) ∧
      seed.length + reads.length < r.seed.length + t.reads.length) ∨
    (r.seed = [] ∧ t.reads = [] ∧ t.ending = .eof ∧ r.nextBytes t = (.ok [], r, t)) ∨
    (∃ f, r.seed = [] ∧ t.reads = [] ∧ t.ending = .fail f ∧
      r.nextBytes t = (.error f, r, t)) := by
  unfold nextBytes Transport.read
  by_cases hseed : r.seed = []
  · rw [if_neg (by simp [hseed])]
    cases hreads : t.reads with
    | cons seg reads =>
      refine Or.inl ⟨seg.bytes, r.seed, reads, seg.nonempty, rfl, ?_, by simp⟩
      simp [hseed, Transport.unread, hreads]
    | nil =>
      cases hend : t.ending with
      | eof => exact Or.inr (Or.inl ⟨hseed, rfl, rfl, rfl⟩)
      | fail f => exact Or.inr (Or.inr ⟨f, hseed, rfl, rfl, rfl⟩)
  · rw [if_pos hseed]
    have hpos : 0 < r.seed.length := List.length_pos_iff.mpr hseed
    refine Or.inl ⟨r.seed.take readChunk, r.seed.drop readChunk, t.reads, ?_, rfl, ?_, ?_⟩
    · simp [hseed, readChunk]
    · rw [← List.append_assoc, List.take_append_drop]
    · simp only [List.length_drop, readChunk]
      omega

/-- How far the reader is in a stream of which it has read `wire`. -/
def Progress (st : State Z) (wire data : Bytes) : Prop :=
  match st.reader.fr.kind with
  | .none => wire = [] ∧ data = []
  | .length => data = wire ∧ st.pipe.rawSeen = wire.length ∧ wire.length ≤ st.reader.fr.length
  | .chunked => data = (scan {} wire).out ∧ st.reader.dec.Reads wire
  | .untilClose => data = wire

/-- A reader inside the body of the stream, which it began with the pipe `p₀`, and what it
has just read. -/
structure Reading (fr : Framing) (stream : Bytes) (p₀ : BodyPipe Z) (st : State Z)
    (held : Bytes) : Prop where
  frame : st.reader.fr = fr
  going : st.reader.done = false
  surplus : st.pipe.surplus = p₀.surplus
  trailers : st.pipe.trailers = Headers.init
  progress : ∃ wire data, stream = wire ++ (held ++ st.unread) ∧ p₀.Fed data st.pipe ∧
    Progress st wire data

/-- A reader at the end of the body: what was read past it is counted as surplus. -/
structure AtEnd (fr : Framing) (stream : Bytes) (p₀ : BodyPipe Z) (st : State Z) : Prop where
  done : st.reader.done = true
  seed : st.reader.seed = []
  framed : ∃ data extra, Framed fr stream data st.pipe.trailers (extra ++ st.stream.unread) ∧
    st.pipe.surplus = p₀.surplus + extra.length ∧ p₀.Fed data st.pipe
  closed : fr.kind = .untilClose → st.stream.reads = [] ∧ st.stream.ending = .eof

/-- The pipe was fed no more than a beginning of the body, the last piece perhaps in vain. -/
def FedWithin (fr : Framing) (stream : Bytes) (p₀ p : BodyPipe Z) : Prop :=
  ∃ data piece q, p₀.Fed data q ∧ data ++ piece <+: referenceBody fr stream ∧
    p.core = (q.feed piece).1.core

/-- The vendored decoder refuses what the reader reads next. -/
def Refused (st : State Z) : Prop :=
  st.reader.fr.kind = .chunked ∧
    ∃ bytes, bytes ≠ [] ∧ (st.reader.nextBytes st.stream).1 = .ok bytes ∧
      st.reader.dec.Refuses bytes

/-- What a step of the framing leads to. -/
def FrameResult (fr : Framing) (stream : Bytes) (p₀ : BodyPipe Z) (left : Nat) (refused : Prop)
    (st : State Z) : Option Fail → Prop
  | none => (Reading fr stream p₀ st [] ∧ st.left = left) ∨ AtEnd fr stream p₀ st
  | some _ => refused ∨ FedWithin fr stream p₀ st.pipe

lemma fedWithin_of_fed {fr : Framing} {stream data : Bytes} {p₀ p : BodyPipe Z}
    (h : p₀.Fed data p) (hdata : data <+: referenceBody fr stream) :
    FedWithin fr stream p₀ p :=
  ⟨data, [], p, h, by rwa [List.append_nil], rfl⟩

lemma stepChunked_result {fr : Framing} {stream bytes : Bytes} {p₀ : BodyPipe Z} {st : State Z}
    (h : Reading fr stream p₀ st bytes) (hkind : fr.kind = .chunked) :
    FrameResult fr stream p₀ st.left (st.reader.dec.Refuses bytes) (stepChunked st bytes).1
      (stepChunked st bytes).2 := by
  obtain ⟨hframe, hgoing, hsurplus, htrailers, wire, data, hstream, hfed, hprogress⟩ := h
  unfold Progress at hprogress
  rw [hframe, hkind] at hprogress
  obtain ⟨rfl, hreads⟩ := hprogress
  have hstream' : stream = (wire ++ bytes) ++ st.unread := by
    rw [hstream, List.append_assoc]
  have hbody : (scan {} (wire ++ bytes)).out <+: referenceBody fr stream := by
    unfold referenceBody
    rw [hkind, hstream']
    exact scan_out_initial _ _
  obtain ⟨hdec, hadds⟩ := Chunked.decode_spec bytes hreads
  unfold stepChunked
  dsimp only
  generalize st.reader.dec.decode bytes = decoded at hdec hadds ⊢
  obtain ⟨dec, out, rc⟩ := decoded
  have hfed' : p₀.Fed (scan {} wire).out { st.pipe with
    rawSeen := st.pipe.rawSeen + bytes.length } := hfed.congr rfl
  have hkeeps := BodyPipe.feed_keeps { st.pipe with
    rawSeen := st.pipe.rawSeen + bytes.length } out
  generalize hfeed : BodyPipe.feed { st.pipe with
    rawSeen := st.pipe.rawSeen + bytes.length } out = fed at hkeeps
  obtain ⟨pipe, f⟩ := fed
  obtain ⟨-, hpsurplus, hptrailers, -⟩ := hkeeps
  simp only at hpsurplus hptrailers ⊢
  cases f with
  | some f =>
    rcases hadds with ⟨hrefuses, -⟩ | hadds
    · exact Or.inl hrefuses
    · refine Or.inr ⟨_, out, _, hfed', by rwa [← hadds], ?_⟩
      rw [hfeed]
  | none =>
    have hnow := hfed'.piece out hfeed rfl
    cases rc with
    | fail f =>
      rcases hadds with ⟨hrefuses, -⟩ | hadds
      · exact Or.inl hrefuses
      · rw [← hadds] at hnow
        exact Or.inr (fedWithin_of_fed hnow hbody)
    | wouldblock =>
      rcases hadds with ⟨-, f, hf⟩ | hadds
      · cases hf
      · rw [← hadds] at hnow
        refine Or.inl ⟨⟨hframe, hgoing, hpsurplus.trans hsurplus, hptrailers.trans htrailers,
          wire ++ bytes, _, hstream', hnow, ?_⟩, rfl⟩
        unfold Progress
        simp only [hframe, hkind]
        exact ⟨trivial, hdec⟩
    | ok =>
      rcases hadds with ⟨-, f, hf⟩ | hadds
      · cases hf
      · rw [← hadds] at hnow
        obtain ⟨hend, after, htr, hlen⟩ := hdec
        refine Or.inr ⟨rfl, rfl, ?_, fun huntil => ?_⟩
        · refine ⟨(scan {} (wire ++ bytes)).out, after ++ st.reader.seed, ?_, ?_, hnow.congr rfl⟩
          · unfold Framed
            rw [hkind]
            refine ⟨(scan {} (wire ++ bytes)).rest ++ st.unread, ?_, ?_⟩
            · rw [hstream']
              exact dechunk_of_complete _ hend
            · have happ := trailersOf_append st.unread htr
              rw [State.unread, ← List.append_assoc after] at happ
              exact happ
          · simp only [State.finishFrame, hpsurplus, hsurplus, List.length_append, hlen]
            omega
        · rw [hkind] at huntil
          cases huntil

lemma stepLength_result {fr : Framing} {stream bytes : Bytes} {p₀ : BodyPipe Z} {st : State Z}
    (h : Reading fr stream p₀ st bytes) (hkind : fr.kind = .length) :
    FrameResult fr stream p₀ st.left False (stepPlain st bytes).1 (stepPlain st bytes).2 := by
  obtain ⟨hframe, hgoing, hsurplus, htrailers, wire, data, hstream, hfed, hprogress⟩ := h
  unfold Progress at hprogress
  rw [hframe, hkind] at hprogress
  obtain ⟨rfl, hraw, hle⟩ := hprogress
  obtain ⟨take, htake⟩ : ∃ take, take = min bytes.length (fr.length - data.length) := ⟨_, rfl⟩
  have hcut : (if st.reader.fr.kind = .length ∧
      st.pipe.rawSeen + bytes.length > st.reader.fr.length then
        st.reader.fr.length - st.pipe.rawSeen else bytes.length) = take := by
    rw [hframe, hraw]
    simp only [hkind, true_and]
    split_ifs <;> omega
  have hbody : data ++ bytes.take take <+: referenceBody fr stream := by
    unfold referenceBody
    rw [hkind, hstream, ← List.append_assoc]
    have hshort : (data ++ bytes.take take).length ≤ fr.length := by
      simp only [List.length_append, List.length_take]
      omega
    refine List.prefix_take_iff.mpr ⟨?_, hshort⟩
    exact (List.prefix_append_right_inj _ |>.mpr (List.take_prefix _ _)).trans
      (List.prefix_append _ _)
  unfold stepPlain
  dsimp only
  rw [hcut]
  have hfed' : p₀.Fed data { st.pipe with
    surplus := st.pipe.surplus + (bytes.length - take) } := hfed.congr rfl
  have hkeeps := BodyPipe.feed_keeps { st.pipe with
    surplus := st.pipe.surplus + (bytes.length - take) } (bytes.take take)
  generalize hfeed : BodyPipe.feed { st.pipe with
    surplus := st.pipe.surplus + (bytes.length - take) } (bytes.take take) = fed at hkeeps
  obtain ⟨pipe, f⟩ := fed
  obtain ⟨hpraw, hpsurplus, hptrailers, -⟩ := hkeeps
  simp only at hpraw hpsurplus hptrailers ⊢
  cases f with
  | some f =>
    refine Or.inr ⟨data, bytes.take take, _, hfed', hbody, ?_⟩
    rw [hfeed]
  | none =>
    have hnow := hfed'.piece (bytes.take take) hfeed rfl
    simp only [hframe, hkind, hpraw, hraw, true_and]
    by_cases hall : data.length + take ≥ fr.length
    · rw [if_pos hall]
      refine Or.inr ⟨rfl, rfl, ⟨_, bytes.drop take ++ st.reader.seed, ?_, ?_,
        hnow.congr rfl⟩, fun huntil => ?_⟩
      · unfold Framed
        rw [hkind]
        refine ⟨?_, ?_, hptrailers.trans htrailers⟩
        · simp only [State.finishFrame, hstream, State.unread, List.append_assoc]
          rw [← List.append_assoc (bytes.take take), List.take_append_drop]
        · simp only [List.length_append, List.length_take]
          omega
      · simp only [State.finishFrame, hpsurplus, hsurplus, List.length_append, List.length_drop]
        omega
      · rw [hkind] at huntil
        cases huntil
    · rw [if_neg hall]
      have hwhole : bytes.take take = bytes := List.take_of_length_le (by omega)
      refine Or.inl ⟨⟨hframe, hgoing, ?_, hptrailers.trans htrailers, data ++ bytes,
        data ++ bytes, ?_, ?_, ?_⟩, rfl⟩
      · rw [hpsurplus, hsurplus]
        omega
      · simp [hstream, State.unread]
      · rw [← hwhole]
        exact hnow.congr rfl
      · unfold Progress
        simp only [hframe, hkind, List.length_append]
        exact ⟨trivial, by omega, by omega⟩

lemma stepUntilClose_result {fr : Framing} {stream bytes : Bytes} {p₀ : BodyPipe Z}
    {st : State Z} (h : Reading fr stream p₀ st bytes) (hkind : fr.kind = .untilClose) :
    FrameResult fr stream p₀ st.left False (stepPlain st bytes).1 (stepPlain st bytes).2 := by
  obtain ⟨hframe, hgoing, hsurplus, htrailers, wire, data, hstream, hfed, hprogress⟩ := h
  unfold Progress at hprogress
  rw [hframe, hkind] at hprogress
  subst hprogress
  have hbody : data ++ bytes <+: referenceBody fr stream := by
    unfold referenceBody
    rw [hkind, hstream, ← List.append_assoc]
    exact List.prefix_append _ _
  unfold stepPlain
  simp only [hframe, hkind, reduceCtorEq, false_and, if_false, Nat.sub_self, Nat.add_zero,
    List.take_length]
  have hkeeps := BodyPipe.feed_keeps st.pipe bytes
  generalize hfeed : st.pipe.feed bytes = fed at hkeeps
  obtain ⟨pipe, f⟩ := fed
  obtain ⟨-, hpsurplus, hptrailers, -⟩ := hkeeps
  simp only at hpsurplus hptrailers ⊢
  cases f with
  | some f =>
    refine Or.inr ⟨data, bytes, _, hfed, hbody, ?_⟩
    rw [hfeed]
  | none =>
    refine Or.inl ⟨⟨hframe, hgoing, hpsurplus.trans hsurplus, hptrailers.trans htrailers,
      data ++ bytes, data ++ bytes, ?_, hfed.piece bytes hfeed rfl, ?_⟩, rfl⟩
    · simp [hstream, State.unread]
    · unfold Progress
      simp only [hframe, hkind]

/-- What a step leads to: a failed one stays inside the body, unless the vendored decoder
refuses its input. -/
def StepResult (fr : Framing) (stream : Bytes) (p₀ : BodyPipe Z) (st st' : State Z) :
    Option Fail → Prop
  | none => (Reading fr stream p₀ st' [] ∧ st'.left < st.left) ∨ AtEnd fr stream p₀ st'
  | some _ => Refused st ∨ FedWithin fr stream p₀ st'.pipe

lemma reading_fedWithin {fr : Framing} {stream held : Bytes} {p₀ : BodyPipe Z} {st : State Z}
    (h : Reading fr stream p₀ st held) : FedWithin fr stream p₀ st.pipe := by
  obtain ⟨hframe, -, -, -, wire, data, hstream, hfed, hprogress⟩ := h
  refine fedWithin_of_fed hfed ?_
  unfold Progress at hprogress
  unfold referenceBody
  rw [hframe] at hprogress
  cases hkind : fr.kind with
  | none =>
    rw [hkind] at hprogress
    simp [hprogress.2]
  | length =>
    rw [hkind] at hprogress
    obtain ⟨rfl, -, hle⟩ := hprogress
    exact List.prefix_take_iff.mpr ⟨⟨_, hstream.symm⟩, hle⟩
  | chunked =>
    rw [hkind] at hprogress
    rw [hprogress.1, hstream]
    exact scan_out_initial _ _
  | untilClose =>
    rw [hkind] at hprogress
    subst hprogress
    exact ⟨_, hstream.symm⟩

lemma frameResult_stepResult {fr : Framing} {stream : Bytes} {p₀ : BodyPipe Z} {left : Nat}
    {refused : Prop} {st st' : State Z} {res : Option Fail}
    (h : FrameResult fr stream p₀ left refused st' res) (hleft : left < st.left)
    (hrefused : refused → Refused st) : StepResult fr stream p₀ st st' res := by
  cases res with
  | none =>
    rcases h with ⟨hreading, heq⟩ | hend
    · exact Or.inl ⟨hreading, by omega⟩
    · exact Or.inr hend
  | some f => exact h.imp_left hrefused

lemma finishFrame_atEnd {fr : Framing} {stream data trailers : _} {p₀ : BodyPipe Z}
    {st : State Z} (hsurplus : st.pipe.surplus = p₀.surplus) (hfed : p₀.Fed data st.pipe)
    (htrailers : st.pipe.trailers = trailers) (huntil : fr.kind ≠ .untilClose)
    (hframed : Framed fr stream data trailers st.unread) :
    AtEnd fr stream p₀ (st.finishFrame 0) := by
  refine ⟨rfl, rfl, ⟨data, st.reader.seed, ?_, ?_, hfed.congr rfl⟩, fun h => absurd h huntil⟩
  · rw [State.finishFrame, htrailers]
    exact hframed
  · simp only [State.finishFrame, hsurplus]
    omega

/-- The reader with the bytes it reads next. -/
lemma Reading.next {fr : Framing} {stream bytes seed : Bytes} {reads : List Segment}
    {p₀ : BodyPipe Z} {st : State Z} (h : Reading fr stream p₀ st [])
    (hsplit : st.reader.seed ++ st.stream.unread =
      bytes ++ (seed ++ { st.stream with reads := reads }.unread)) :
    Reading fr stream p₀ { st with
      reader := { st.reader with seed := seed }
      stream := { st.stream with reads := reads } } bytes := by
  obtain ⟨hframe, hgoing, hsurplus, htrailers, wire, data, hstream, hfed, hprogress⟩ := h
  refine ⟨hframe, hgoing, hsurplus, htrailers, wire, data, ?_, hfed, hprogress⟩
  rw [hstream, List.nil_append, State.unread, hsplit, State.unread]

lemma stepFramed_result {fr : Framing} {stream : Bytes} {p₀ : BodyPipe Z} {st : State Z}
    (h : Reading fr stream p₀ st []) :
    StepResult fr stream p₀ st (stepFramed st).1 (stepFramed st).2 := by
  obtain ⟨wire, data, hstream, hfed, hprogress⟩ := h.progress
  have hframe := h.frame
  unfold Progress at hprogress
  rw [hframe] at hprogress
  unfold stepFramed
  dsimp only
  rw [hframe]
  by_cases hnone : fr.kind = .none
  · rw [if_pos hnone]
    rw [hnone] at hprogress
    obtain ⟨rfl, rfl⟩ := hprogress
    refine Or.inr (finishFrame_atEnd h.surplus hfed h.trailers (by simp [hnone]) ?_)
    unfold Framed
    rw [hnone]
    exact ⟨rfl, hstream.symm, rfl⟩
  · rw [if_neg hnone]
    by_cases hfull : fr.kind = .length ∧ st.pipe.rawSeen ≥ fr.length
    · rw [if_pos hfull]
      rw [hfull.1] at hprogress
      obtain ⟨rfl, hraw, hle⟩ := hprogress
      refine Or.inr (finishFrame_atEnd h.surplus hfed h.trailers (by simp [hfull.1]) ?_)
      unfold Framed
      rw [hfull.1]
      exact ⟨hstream, by omega, rfl⟩
    · rw [if_neg hfull]
      rcases nextBytes_cases st.reader st.stream with
        ⟨bytes, seed, reads, hbytes, hnext, hsplit, hleft⟩ | ⟨hseed, hreads, hend, hnext⟩ |
        ⟨f, hseed, hreads, hend, hnext⟩
      · rw [hnext]
        simp only [hbytes, if_false]
        obtain ⟨st₁, hst₁⟩ : ∃ st₁ : State Z, st₁ = { st with
          reader := { st.reader with seed := seed }
          stream := { st.stream with reads := reads } } := ⟨_, rfl⟩
        have hreading : Reading fr stream p₀ st₁ bytes := hst₁ ▸ h.next hsplit
        have hless : st₁.left < st.left := by
          subst hst₁
          exact hleft
        rw [← hst₁]
        by_cases hchunked : fr.kind = .chunked
        · rw [if_pos hchunked]
          refine frameResult_stepResult (stepChunked_result hreading hchunked) hless ?_
          intro hrefuses
          refine ⟨by rw [hframe, hchunked], bytes, hbytes, by rw [hnext], ?_⟩
          rw [hst₁] at hrefuses
          exact hrefuses
        · rw [if_neg hchunked]
          cases hkind : fr.kind with
          | none => exact absurd hkind hnone
          | length =>
            exact frameResult_stepResult (stepLength_result hreading hkind) hless False.elim
          | chunked => exact absurd hkind hchunked
          | untilClose =>
            exact frameResult_stepResult (stepUntilClose_result hreading hkind) hless False.elim
      · rw [hnext]
        simp only [if_true]
        by_cases huntil : fr.kind = .untilClose
        · rw [if_pos huntil]
          rw [huntil] at hprogress
          subst hprogress
          have hunread : st.unread = [] := by
            simp [State.unread, Transport.unread, hseed, hreads]
          refine Or.inr ⟨rfl, hseed, ⟨data, [], ?_, h.surplus, hfed.congr rfl⟩,
            fun _ => ⟨hreads, hend⟩⟩
          unfold Framed
          rw [huntil]
          refine ⟨?_, ?_, h.trailers⟩
          · rw [hstream, hunread, List.append_nil, List.append_nil]
          · simp [Transport.unread, hreads]
        · rw [if_neg huntil]
          exact Or.inr (reading_fedWithin h)
      · rw [hnext]
        exact Or.inr (reading_fedWithin h)

/-- A reader whose pipe has finished, too. -/
def Ended (fr : Framing) (stream : Bytes) (p₀ : BodyPipe Z) (st : State Z) : Prop :=
  ∃ p, AtEnd fr stream p₀ { st with pipe := p } ∧ p.finish = (st.pipe, none)

/-- The body was whole, but its decoder was not done. -/
def FinishFailed (fr : Framing) (stream : Bytes) (p₀ : BodyPipe Z) (st : State Z) : Prop :=
  ∃ p f, AtEnd fr stream p₀ { st with pipe := p } ∧ p.finish = (st.pipe, some f)

/-- What a whole step leads to. -/
def Outcome (fr : Framing) (stream : Bytes) (p₀ : BodyPipe Z) (st st' : State Z) :
    Option Fail → Prop
  | none => (Reading fr stream p₀ st' [] ∧ st'.left < st.left) ∨ Ended fr stream p₀ st'
  | some _ => Refused st ∨ FedWithin fr stream p₀ st'.pipe ∨ FinishFailed fr stream p₀ st'

theorem step_outcome {fr : Framing} {stream : Bytes} {p₀ : BodyPipe Z} {st : State Z}
    (h : Reading fr stream p₀ st []) :
    Outcome fr stream p₀ st (step st).1 (step st).2 := by
  have hframed := stepFramed_result h
  unfold step
  rw [if_neg (by simp [h.going])]
  generalize stepFramed st = r at hframed ⊢
  obtain ⟨st₁, f⟩ := r
  cases f with
  | some f =>
    rcases hframed with hrefused | hwithin
    · exact Or.inl hrefused
    · exact Or.inr (Or.inl hwithin)
  | none =>
    dsimp only at hframed ⊢
    rcases hframed with ⟨hreading, hless⟩ | hend
    · rw [if_neg (by simp [hreading.going])]
      exact Or.inl ⟨hreading, hless⟩
    · rw [if_pos hend.done]
      cases hfinish : st₁.pipe.finish with
      | mk q res =>
        cases res with
        | none => exact Or.inr ⟨st₁.pipe, hend, hfinish⟩
        | some f => exact Or.inr (Or.inr ⟨st₁.pipe, f, hend, hfinish⟩)

/-- The states of a read. -/
def Steps : State Z → State Z → Prop := Loop.Reached step (fun st => st.reader.done)

/-- Every state of a read is inside the body or at its end. -/
theorem steps_result {fr : Framing} {stream : Bytes} {p₀ : BodyPipe Z} {st st' : State Z}
    (h : Reading fr stream p₀ st []) (hsteps : Steps st st') :
    Reading fr stream p₀ st' [] ∨ Ended fr stream p₀ st' := by
  refine hsteps.invariant (I := fun s => Reading fr stream p₀ s [] ∨ Ended fr stream p₀ s)
    (Or.inl h) ?_
  intro s s' hs hgoing hstep
  rcases hs with hreading | ⟨p, hend, -⟩
  · have hout := step_outcome hreading
    rw [hstep] at hout
    rcases hout with ⟨hreading', -⟩ | hended
    · exact Or.inl hreading'
    · exact Or.inr hended
  · have hdone := hend.done
    rw [hgoing] at hdone
    cases hdone

/-- The reader and the pipe a body is read with, before the first step. -/
lemma init_reading {fr : Framing} {t : Transport} {p : BodyPipe Z} {seed : Bytes}
    (maxBody : Nat) (hraw : p.rawSeen = 0) (htrailers : p.trailers = Headers.init) :
    Reading fr (seed ++ t.unread) p ⟨BodyReader.init fr seed maxBody, t, p⟩ [] := by
  refine ⟨rfl, rfl, rfl, htrailers, [], [], rfl, .start rfl, ?_⟩
  unfold Progress
  dsimp only [BodyReader.init]
  cases fr.kind with
  | none => exact ⟨rfl, rfl⟩
  | length => exact ⟨rfl, hraw, Nat.zero_le _⟩
  | chunked => exact ⟨rfl, Chunked.init_reads 0 maxBody⟩
  | untilClose => rfl

/-- What a whole read leads to: it fails in its last step, or it ends at the end of the
body. -/
theorem bodyRead_outcome {fr : Framing} {t : Transport} {p : BodyPipe Z} {seed : Bytes}
    {cap : Nat} {st : State Z} {res : Option Fail} (hraw : p.rawSeen = 0)
    (htrailers : p.trailers = Headers.init) (hread : bodyRead t fr p seed cap = (st, res)) :
    match (motive := Option Fail → Prop) res with
    | none => Steps ⟨BodyReader.init fr seed cap, t, p⟩ st ∧ Ended fr (seed ++ t.unread) p st
    | some f => ∃ last, Steps ⟨BodyReader.init fr seed cap, t, p⟩ last ∧
        Reading fr (seed ++ t.unread) p last [] ∧ step last = (st, some f) := by
  have hstart : Reading fr (seed ++ t.unread) p ⟨BodyReader.init fr seed cap, t, p⟩ [] :=
    init_reading cap hraw htrailers
  unfold bodyRead loop at hread
  cases res with
  | none =>
    have hsteps := Loop.iterate_reached hread
    have hdone := Loop.iterate_done (I := fun s => Reading fr (seed ++ t.unread) p s [])
      (m := State.left) ?_ hstart (by omega) hread
    · refine ⟨hsteps, ?_⟩
      rcases steps_result hstart hsteps with hreading | hended
      · rw [hreading.going] at hdone
        cases hdone
      · exact hended
    · intro s s' hreading hgoing hstep
      have hout := step_outcome hreading
      rw [hstep] at hout
      rcases hout with hreading' | ⟨q, hend, -⟩
      · exact Or.inr hreading'
      · exact Or.inl hend.done
  | some f =>
    obtain ⟨last, hsteps, hgoing, hlast⟩ := Loop.iterate_failed hread
    refine ⟨last, hsteps, ?_, hlast⟩
    rcases steps_result hstart hsteps with hreading | ⟨q, hend, -⟩
    · exact hreading
    · have hdone := hend.done
      rw [hgoing] at hdone
      cases hdone

end BodyReader

end Zuhttp
