import Zuhttp.Proofs.Decoding
import Zuhttp.Proofs.Deframing
import Zuhttp.Proofs.Truncation

/-!
# Delivery

The read of a body gives its sink what the body on the wire stands for, however the wire is cut
into reads. It fails on a whole body for a limit or a refusal only.
-/

namespace Zuhttp

open Phr Dechunk Incremental

variable {Z : Zlib} {C : Zlib.Codes}

/-- The coding of a body. -/
def codingOf (h : Headers) (noDecode : Bool) : Encoding :=
  if noDecode then .identity else encodingParse (h.get (ascii "Content-Encoding"))

/-- What the bytes of a body stand for. -/
def Content (C : Zlib.Codes) (coding : Encoding) (data content : Bytes) : Prop :=
  match coding with
  | .identity => content = data
  | coding => Inflate.Stands C coding data content

lemma Content.unique {coding : Encoding} {data content content' : Bytes}
    (h : Content C coding data content) (h' : Content C coding data content') :
    content = content' := by
  cases coding with
  | identity => exact h.trans h'.symm
  | gzip => exact Inflate.Stands.unique (show Inflate.Stands C .gzip data content from h) h'
  | deflate => exact Inflate.Stands.unique (show Inflate.Stands C .deflate data content from h) h'
  | unsupported => exact h.elim

/-! ### The pipe -/

namespace BodyPipe

variable {coding : Encoding} {sink : Sink} {maxBody : Nat} {p q : BodyPipe Z}
  {data out s : Bytes}

/-- The decoder of a pipe that has taken `data` and given `out` for it. -/
def Decoder (C : Zlib.Codes) (coding : Encoding) (maxBody : Nat) (p : BodyPipe Z)
    (data out : Bytes) : Prop :=
  (coding = .identity ∧ p.inflate = none ∧ out = data) ∨
    (coding = .gzip ∨ coding = .deflate) ∧ ∃ z, p.inflate = some z ∧
      Inflate.Decoded C (maxBody, maxDecompressionRatio) coding z data out

/-- A pipe that has taken `data` and given its sink `out`. -/
structure Gave (C : Zlib.Codes) (coding : Encoding) (sink : Sink) (maxBody : Nat)
    (p : BodyPipe Z) (data out : Bytes) : Prop where
  bytes : p.sink.bytes = sink.bytes ++ out
  written : p.sink.written = sink.written + out.length
  respond : p.sink.respond = sink.respond
  handed : sink.handed <+: p.sink.handed
  cap : p.maxBody = maxBody
  decoder : p.Decoder C coding maxBody data out

/-- Why a pipe fails on a body: its sink refuses the last piece it was handed, the body is larger
than allowed, or the body stands for nothing. -/
inductive Spoilt (C : Zlib.Codes) (coding : Encoding) (sink : Sink) (maxBody : Nat)
    (p : BodyPipe Z) (body : Bytes) (f : Fail) : Prop
  | sink (handed : List Bytes) (piece : Bytes) (stopped : Bool) (hbegins : sink.handed <+: handed)
      (hhanded : p.sink.handed = handed ++ [piece])
      (hanswer : sink.respond handed piece = .refuse f stopped)
  | cap (hrc : f.rc = .bodyLimit) (hcoding : coding = .identity) (hcap : maxBody ≠ 0)
      (hover : maxBody < sink.written + body.length)
  | limit (z : Inflate Z) (hz : p.inflate = some z)
      (hlimits : (z.maxOut, z.maxRatio) = (maxBody, maxDecompressionRatio))
      (hrc : f.rc = .bodyLimit) (hlimit : z.AtLimit)
  | malformed (hrc : f.rc = .bodyDecode) (herr : f.err ≠ none)
      (hnone : ∀ content, ¬Content C coding body content)

lemma Gave.congr (h : p.Gave C coding sink maxBody data out) (hq : q.core = p.core) :
    q.Gave C coding sink maxBody data out := by
  obtain ⟨hsink, hinflate, hcap⟩ := by simpa [core] using hq
  refine ⟨hsink ▸ h.bytes, hsink ▸ h.written, hsink ▸ h.respond, hsink ▸ h.handed,
    hcap.trans h.cap, ?_⟩
  unfold Decoder
  rw [hinflate]
  exact h.decoder

lemma init_gave (hZ : Z.Decodes C) {h h' : Headers} {noDecode : Bool}
    (hinit : init sink h noDecode maxBody = .ok (p, h')) :
    p.Gave C (codingOf h noDecode) sink maxBody [] [] := by
  have hsame : ∀ p : BodyPipe Z, p.sink = sink → p.maxBody = maxBody →
      p.Decoder C (codingOf h noDecode) maxBody [] [] →
      p.Gave C (codingOf h noDecode) sink maxBody [] [] := by
    intro p hsink hcap hdecoder
    refine ⟨?_, ?_, ?_, ?_, hcap, hdecoder⟩
    · rw [hsink, List.append_nil]
    · rw [hsink]
      rfl
    · rw [hsink]
    · rw [hsink]
  have hkind : (if noDecode then Encoding.identity
      else encodingParse (h.get (ascii "Content-Encoding"))) = codingOf h noDecode := rfl
  unfold init at hinit
  dsimp only at hinit
  rw [hkind] at hinit
  split at hinit
  · next hcoding =>
    cases hinit
    exact hsame _ rfl rfl (.inl ⟨hcoding, rfl, rfl⟩)
  · cases hinit
  · split at hinit
    · cases hinit
    · next hstart =>
      cases hinit
      obtain ⟨hcoding, hdecoded⟩ := Inflate.init_decoded hZ hstart
      exact hsame _ rfl rfl (.inr ⟨hcoding, _, rfl, hdecoded⟩)

lemma deliver_gave {q : BodyPipe Z} {given : Bytes} {z : Option (Inflate Z)}
    (h : p.Gave C coding sink maxBody data out)
    (hdecoder : ({ p with inflate := z }).Decoder C coding maxBody (data ++ s) (out ++ given))
    (hq : ({ p with inflate := z }).deliver given = (q, none)) :
    q.Gave C coding sink maxBody (data ++ s) (out ++ given) := by
  have hbytes := p.sink.write_bytes given
  unfold deliver Sink.write at hq
  unfold Sink.write at hbytes
  by_cases hempty : given = []
  · rw [if_pos hempty] at hq hbytes
    cases hq
    refine ⟨?_, ?_, h.respond, h.handed, h.cap, hdecoder⟩
    · rw [hempty, List.append_nil]
      exact h.bytes
    · rw [hempty, List.append_nil]
      exact h.written
  · rw [if_neg hempty] at hq hbytes
    dsimp only at hq
    cases hanswer : p.sink.respond p.sink.handed given with
    | refuse f stopped =>
      rw [hanswer] at hq
      cases hq
    | accept =>
      rw [hanswer] at hq hbytes
      cases hq
      refine ⟨?_, ?_, h.respond, h.handed.trans (List.prefix_append _ _), h.cap, hdecoder⟩
      · rw [← List.append_assoc, ← h.bytes]
        exact hbytes
      · rw [List.length_append, ← Nat.add_assoc, ← h.written]

lemma deliver_spoilt {q : BodyPipe Z} (given : Bytes) {body : Bytes} {f : Fail}
    {z : Option (Inflate Z)} (h : p.Gave C coding sink maxBody data out)
    (hq : ({ p with inflate := z }).deliver given = (q, some f)) :
    q.Spoilt C coding sink maxBody body f := by
  unfold deliver Sink.write at hq
  dsimp only at hq
  by_cases hempty : given = []
  · rw [if_pos hempty] at hq
    cases hq
  · rw [if_neg hempty] at hq
    cases hanswer : p.sink.respond p.sink.handed given with
    | accept =>
      rw [hanswer] at hq
      cases hq
    | refuse g stopped =>
      rw [hanswer] at hq
      cases hq
      exact .sink p.sink.handed given stopped h.handed rfl (by rw [← h.respond, hanswer])

/-- One piece of a body through the pipe. -/
lemma feed_gave (hZ : Z.Decodes C) (h : p.Gave C coding sink maxBody data out)
    (hfeed : p.feed s = (q, none)) :
    ∃ given, q.Gave C coding sink maxBody (data ++ s) (out ++ given) := by
  unfold feed at hfeed
  by_cases hempty : s = []
  · rw [if_pos hempty] at hfeed
    cases hfeed
    rw [hempty]
    exact ⟨[], by rwa [List.append_nil, List.append_nil]⟩
  · rw [if_neg hempty] at hfeed
    rcases h.decoder with ⟨hcoding, hnone, rfl⟩ | ⟨hcoding, z, hz, hdecoded⟩
    · rw [hnone] at hfeed
      dsimp only at hfeed
      split at hfeed
      · cases hfeed
      · refine ⟨s, deliver_gave (z := none) h (.inl ⟨hcoding, rfl, rfl⟩) ?_⟩
        rw [← hnone]
        exact hfeed
    · rw [hz] at hfeed
      dsimp only at hfeed
      have hran := Inflate.run_ran hZ s hdecoded
      generalize z.run (some s) = ran at hfeed hran
      obtain ⟨z₁, given, r⟩ := ran
      cases r with
      | fail f => cases hfeed
      | ok => exact ⟨given, deliver_gave h (.inr ⟨hcoding, z₁, rfl, hran⟩) hfeed⟩
      | wouldblock => exact ⟨given, deliver_gave h (.inr ⟨hcoding, z₁, rfl, hran⟩) hfeed⟩

lemma feed_spoilt (hZ : Z.Decodes C) (h : p.Gave C coding sink maxBody data out) {f : Fail}
    {body : Bytes} (hbody : data ++ s <+: body) (hfeed : p.feed s = (q, some f)) :
    q.Spoilt C coding sink maxBody body f := by
  unfold feed at hfeed
  by_cases hempty : s = []
  · rw [if_pos hempty] at hfeed
    cases hfeed
  · rw [if_neg hempty] at hfeed
    rcases h.decoder with ⟨hcoding, hnone, rfl⟩ | ⟨hcoding, z, hz, hdecoded⟩
    · rw [hnone] at hfeed
      dsimp only at hfeed
      cases hcap : p.capCheck s.length with
      | some g =>
        rw [hcap] at hfeed
        cases hfeed
        unfold capCheck at hcap
        split_ifs at hcap with hzero hwithin
        cases hcap
        rw [h.cap] at hzero hwithin
        refine .cap rfl hcoding hzero ?_
        have hlen := hbody.length_le
        rw [List.length_append] at hlen
        rw [h.written] at hwithin
        omega
      | none =>
        rw [hcap] at hfeed
        refine deliver_spoilt s (z := none) h ?_
        rw [← hnone]
        exact hfeed
    · rw [hz] at hfeed
      dsimp only at hfeed
      have hran := Inflate.run_ran hZ s hdecoded
      generalize z.run (some s) = ran at hfeed hran
      obtain ⟨z₁, given, r⟩ := ran
      cases r with
      | ok => exact deliver_spoilt given h hfeed
      | wouldblock => exact deliver_spoilt given h hfeed
      | fail g =>
        cases hfeed
        rcases hran.tells with ⟨hrc, herr, hbad⟩ | ⟨hrc, hlimit⟩
        · refine .malformed hrc herr (fun content hcontent => ?_)
          obtain ⟨rest, rfl⟩ := hbody
          rcases hcoding with rfl | rfl
          · exact hbad rest content hcontent
          · exact hbad rest content hcontent
        · exact .limit z₁ rfl hran.limits hrc hlimit

lemma fed_gave (hZ : Z.Decodes C) {p₀ : BodyPipe Z} (h₀ : p₀.Gave C coding sink maxBody [] [])
    (h : p₀.Fed data p) : ∃ out, p.Gave C coding sink maxBody data out := by
  induction h with
  | start hcore => exact ⟨[], h₀.congr hcore⟩
  | piece h s hfeed hr ih =>
    obtain ⟨out, hout⟩ := ih
    obtain ⟨given, hgiven⟩ := feed_gave hZ hout hfeed
    exact ⟨_, hgiven.congr hr⟩

lemma content_of_stands {body content : Bytes} (hcoding : coding = .gzip ∨ coding = .deflate) :
    Content C coding body content ↔ Inflate.Stands C coding body content := by
  rcases hcoding with rfl | rfl
  · exact Iff.rfl
  · exact Iff.rfl

/-- At the end of the body the decoder is asked, and nothing is given. -/
lemma finish_asks (hZ : Z.Decodes C) (h : p.Gave C coding sink maxBody data out) :
    (p.finish = (p, none) ∧ Content C coding data out) ∨
      ∃ f, p.finish = (p, some f) ∧ p.Spoilt C coding sink maxBody data f := by
  unfold finish
  rcases h.decoder with ⟨rfl, hnone, rfl⟩ | ⟨hcoding, z, hz, hdecoded⟩
  · rw [hnone]
    exact .inl ⟨rfl, rfl⟩
  · have hsame : { p with inflate := some z } = p := by rw [← hz]
    have hsettled := Inflate.finish_settled hZ hcoding hdecoded
    rw [hz]
    unfold Inflate.run at hsettled ⊢
    dsimp only at hsettled ⊢
    by_cases hend : z.finished = true ∨ z.inTotal = 0
    · rw [if_pos hend] at hsettled ⊢
      dsimp only at hsettled ⊢
      rw [List.append_nil] at hsettled
      rw [hsame]
      exact .inl ⟨rfl, (content_of_stands hcoding).mpr hsettled.2⟩
    · rw [if_neg hend] at hsettled ⊢
      dsimp only at hsettled ⊢
      rw [hsame]
      refine .inr ⟨_, rfl, ?_⟩
      obtain ⟨-, -, -, ⟨hrc, herr, hnone⟩ | ⟨hrc, -⟩⟩ := hsettled
      · exact .malformed hrc herr
          (fun content hcontent => hnone content ((content_of_stands hcoding).mp hcontent))
      · cases hrc

end BodyPipe

/-! ### The guards of the chunk decoder -/

/-- The data come with 100 KiB of chunk framing, or 64 KiB behind the last chunk. -/
def Burdened (stream data : Bytes) : Prop :=
  ∃ rest, dechunk stream = (data, some rest) ∧
    (data.length + rest.length + 100 * 1024 ≤ stream.length ∨ 64 * 1024 ≤ rest.length)

namespace Chunked

variable {c c' : Chunked} {wire bytes more data rest after : Bytes} {trailers : Headers}
  {cap : Nat}

/-- What the decoder of a body has counted after it read `wire`, and that its trailer section is
not complete. -/
structure Counts (c : Chunked) (cap : Nat) (wire : Bytes) : Prop where
  maxChunk : c.maxChunk = 0
  maxTotal : c.maxTotal = cap
  total : c.inTrailer = false → c.total = (scan {} wire).out.length
  overhead : c.inTrailer = false →
    c.decoder.totalOverhead + (scan {} wire).out.length = wire.length
  waits : c.inTrailer = true → parseHeaders true maxHeaderCount c.tbuf = .incomplete

lemma init_counts (cap : Nat) : (init 0 cap).Counts cap [] where
  maxChunk := rfl
  maxTotal := rfl
  total := fun _ => rfl
  overhead := fun _ => rfl
  waits := by
    intro h
    cases h

/-- A decoder in the trailer section that has been given more of it. -/
def TrailerResult (c : Chunked) (cap : Nat) (rest : Bytes) : ChunkedResult → Prop
  | .ok => True
  | .wouldblock => c.maxChunk = 0 ∧ c.maxTotal = cap ∧ c.inTrailer = true ∧
      parseHeaders true maxHeaderCount c.tbuf = .incomplete
  | .fail _ => 64 * 1024 ≤ rest.length

lemma trailerParse_counted (hin : c.inTrailer = true) (hzero : c.maxChunk = 0)
    (htotal : c.maxTotal = cap) (htr : c.trailers = Headers.init)
    (hrest : trailersOf (c.tbuf ++ more) = some (trailers, after)) :
    TrailerResult c.trailerParse.1 cap (c.tbuf ++ more) c.trailerParse.2 := by
  have hstable := parseHeaders_stable true maxHeaderCount
  unfold trailerParse
  by_cases hempty : c.tbuf.length = 0
  · rw [if_pos hempty]
    refine ⟨hzero, htotal, hin, ?_⟩
    rw [List.length_eq_zero_iff.mp hempty]
    rfl
  · rw [if_neg hempty]
    unfold trailersOf at hrest
    cases hparse : parseHeaders true maxHeaderCount c.tbuf with
    | bad =>
      rw [hstable.bad_append more hparse] at hrest
      cases hrest
    | incomplete =>
      dsimp only
      by_cases hlong : c.tbuf.length ≥ maxHeaderBytes
      · rw [if_pos hlong]
        unfold maxHeaderBytes at hlong
        change 64 * 1024 ≤ (c.tbuf ++ more).length
        rw [List.length_append]
        omega
      · rw [if_neg hlong]
        exact ⟨hzero, htotal, hin, hparse⟩
    | ok fields left =>
      rw [hstable.ok_append more hparse] at hrest
      dsimp only at hrest ⊢
      rw [htr]
      cases hadd : addTrailers Headers.init fields with
      | mk got refused =>
        cases refused with
        | none => exact trivial
        | some f =>
          rw [hadd] at hrest
          cases hrest

lemma appendTrailer_counted (s : Bytes) (hin : c.inTrailer = true) (hzero : c.maxChunk = 0)
    (htotal : c.maxTotal = cap) (htr : c.trailers = Headers.init)
    (hrest : trailersOf (c.tbuf ++ (s ++ more)) = some (trailers, after)) :
    TrailerResult (c.appendTrailer s).1 cap (c.tbuf ++ (s ++ more)) (c.appendTrailer s).2 := by
  unfold appendTrailer
  by_cases hlong : c.tbuf.length + s.length > maxHeaderBytes
  · rw [if_pos hlong]
    unfold maxHeaderBytes at hlong
    change 64 * 1024 ≤ (c.tbuf ++ (s ++ more)).length
    rw [List.length_append, List.length_append]
    omega
  · rw [if_neg hlong]
    rw [← List.append_assoc] at hrest ⊢
    exact trailerParse_counted (c := { c with tbuf := c.tbuf ++ s }) hin hzero htotal htr hrest

/-- What decoding more of a whole body leads to. -/
def Counted (c : Chunked) (cap : Nat) (wire bytes more data out : Bytes) :
    ChunkedResult → Prop
  | .ok => True
  | .wouldblock => c.Counts cap (wire ++ bytes)
  | .fail f => Burdened (wire ++ (bytes ++ more)) data ∨
      ((scan {} (wire ++ bytes)).out = (scan {} wire).out ++ out ∧ f.rc = .bodyLimit ∧
        cap ≠ 0 ∧ cap < data.length)

lemma trailerResult_counted {out : Bytes} (rest : Bytes) {rc : ChunkedResult}
    (hdechunk : dechunk (wire ++ (bytes ++ more)) = (data, some rest))
    (h : TrailerResult c cap rest rc) : Counted c cap wire bytes more data out rc := by
  cases rc with
  | ok => exact trivial
  | fail f => exact .inl ⟨rest, hdechunk, .inr h⟩
  | wouldblock =>
    obtain ⟨hzero, htotal, hin, hwaits⟩ := h
    exact ⟨hzero, htotal, fun hout => by simp [hin] at hout, fun hout => by simp [hin] at hout,
      fun _ => hwaits⟩

/-- How far the scan of a part comes, when the stream has a last chunk. -/
lemma scan_of_dechunk (wire more : Bytes) (h : dechunk (wire ++ more) = (data, some rest)) :
    (scan {} wire).out <+: data ∧
      match (scan {} wire).ending with
      | .malformed => False
      | .complete => rest = (scan {} wire).rest ++ more
      | .incomplete => more ≠ [] ∧
          data.length + rest.length ≤ (scan {} wire).out.length + more.length := by
  obtain ⟨hout, hend⟩ := scan_dechunk (wire ++ more)
  rw [h] at hout hend
  dsimp only at hout hend
  obtain ⟨hend, hrest⟩ := hend
  rw [scan_append] at hout hend hrest
  cases hwire : (scan {} wire).ending with
  | malformed =>
    rw [hwire] at hend
    dsimp only at hend
    rw [hwire] at hend
    cases hend
  | complete =>
    rw [hwire] at hout hrest
    exact ⟨hout ▸ List.prefix_refl _, hrest.symm⟩
  | incomplete =>
    rw [hwire] at hout hend hrest
    dsimp only at hout hend hrest
    rw [prepend_out] at hout
    rw [prepend_ending] at hend
    rw [prepend_rest] at hrest
    have hlen := (scan_length (scan {} wire).pos more).1
    refine ⟨hout ▸ List.prefix_append _ _, ?_, ?_⟩
    · rintro rfl
      cases hend
    · rw [← hout, ← hrest, List.length_append]
      omega

/-- What the vendored decoder counts, and what its guard says. -/
lemma decodeChunked_overhead (d : ChunkedDecoder) (buf : Bytes) :
    ((decodeChunked d buf).2.ending = .incomplete → (decodeChunked d buf).1.totalOverhead =
      d.totalOverhead + (buf.length - (scan d.toChunkPos buf).out.length)) ∧
    ((decodeChunked d buf).2.ending = .malformed → (scan d.toChunkPos buf).ending = .malformed ∨
      (scan d.toChunkPos buf).ending = .incomplete ∧ 100 * 1024 ≤
        d.totalOverhead + (buf.length - (scan d.toChunkPos buf).out.length)) := by
  unfold decodeChunked
  by_cases hend : (scan d.toChunkPos buf).ending = .incomplete
  · rw [if_pos hend]
    refine ⟨fun _ => rfl, fun hbad => .inr ⟨hend, ?_⟩⟩
    dsimp only at hbad
    split_ifs at hbad with htrips
    unfold overheadTrips at htrips
    simp only [decide_eq_true_eq] at htrips
    exact htrips.1
  · rw [if_neg hend]
    exact ⟨fun hbad => absurd hbad hend, fun hbad => .inl hbad⟩

/-- More of a whole body, decoded. -/
lemma decode_counted (h : c.Reads wire) (hc : c.Counts cap wire)
    (hdechunk : dechunk (wire ++ (bytes ++ more)) = (data, some rest))
    (hrest : trailersOf rest = some (trailers, after)) :
    Counted (c.decode bytes).1 cap wire bytes more data (c.decode bytes).2.1
      (c.decode bytes).2.2 := by
  have hbefore := (scan_of_dechunk _ _ hdechunk).2
  have hscan := scan_append {} wire bytes
  have hafter : dechunk ((wire ++ bytes) ++ more) = (data, some rest) := by
    rw [List.append_assoc, hdechunk]
  obtain ⟨hpre, hthere⟩ := scan_of_dechunk _ _ hafter
  unfold decode
  by_cases hin : c.inTrailer = true
  · rw [if_pos hin]
    obtain ⟨hend, hbuf⟩ := h.tail hin
    rw [hend] at hbefore
    dsimp only at hbefore ⊢
    refine trailerResult_counted rest hdechunk ?_
    rw [hbefore, ← hbuf] at hrest ⊢
    exact appendTrailer_counted bytes hin hc.maxChunk hc.maxTotal h.trailers hrest
  · rw [if_neg hin]
    have hout : c.inTrailer = false := by simpa using hin
    obtain ⟨hend, hpos, hbuf⟩ := h.body hout
    rw [hend, ← hpos] at hscan
    dsimp only at hscan
    have htotal := hc.total hout
    have hoverhead := hc.overhead hout
    obtain ⟨hdpos, hdout, hdrest, hdend⟩ := decodeChunked_spec c.decoder bytes
    obtain ⟨hcount, hguard⟩ := decodeChunked_overhead c.decoder bytes
    generalize decodeChunked c.decoder bytes = dr at hdpos hdout hdrest hdend hcount hguard ⊢
    obtain ⟨d, r⟩ := dr
    dsimp only at hdpos hdout hdrest hdend hcount hguard ⊢
    have hadds : (scan {} (wire ++ bytes)).out = (scan {} wire).out ++ r.out := by
      rw [hscan, prepend_out, hdout]
    have hending : (scan {} (wire ++ bytes)).ending =
        (scan c.decoder.toChunkPos bytes).ending := by
      rw [hscan, prepend_ending]
    have hlens : (scan {} (wire ++ bytes)).out.length ≤ data.length := hpre.length_le
    rw [hadds, List.length_append, ← htotal] at hlens
    have hshort := (scan_length c.decoder.toChunkPos bytes).1
    rw [← hdout] at hshort hcount hguard
    have hover : c.maxTotal ≠ 0 ∧ r.out.length > c.maxTotal - c.total →
        cap ≠ 0 ∧ cap < data.length := by
      rw [hc.maxTotal]
      rintro ⟨hzero, hmore⟩
      exact ⟨hzero, by omega⟩
    have hchunk : ∀ left, ¬(c.maxChunk ≠ 0 ∧ left > c.maxChunk) := by
      rw [hc.maxChunk]
      rintro left ⟨hzero, -⟩
      exact hzero rfl
    rw [hending] at hthere
    cases hr : r.ending with
    | malformed =>
      rcases hguard hr with hbad | ⟨hstop, hmany⟩
      · rw [hbad] at hthere
        exact hthere.elim
      · rw [hstop, hadds, List.length_append] at hthere
        obtain ⟨-, hroom⟩ := hthere
        refine .inl ⟨rest, hdechunk, .inl ?_⟩
        simp only [List.length_append]
        omega
    | incomplete =>
      dsimp only
      by_cases hcap : c.maxTotal ≠ 0 ∧ r.out.length > c.maxTotal - c.total
      · rw [if_pos hcap]
        exact .inr ⟨hadds, rfl, hover hcap⟩
      · rw [if_neg hcap, if_neg (hchunk _), if_neg (by decide)]
        refine ⟨hc.maxChunk, hc.maxTotal, fun _ => ?_, fun _ => ?_, fun hin' => absurd hin' hin⟩
        · rw [hadds, List.length_append, ← htotal]
        · have hnow := hcount hr
          rw [hadds, List.length_append, List.length_append]
          dsimp only
          omega
    | complete =>
      dsimp only
      by_cases hcap : c.maxTotal ≠ 0 ∧ r.out.length > c.maxTotal - c.total
      · rw [if_pos hcap]
        exact .inr ⟨hadds, rfl, hover hcap⟩
      · rw [if_neg hcap, if_neg (hchunk _), if_pos rfl]
        have hstop : (scan c.decoder.toChunkPos bytes).ending = .complete := by
          rw [← hdend (by rw [hr]; decide), hr]
        rw [hstop] at hthere
        refine trailerResult_counted rest hdechunk ?_
        have hleft : rest = c.tbuf ++ (r.rest ++ more) := by
          rw [hthere, hscan, prepend_rest, hbuf, List.nil_append, hdrest]
        rw [hleft] at hrest ⊢
        exact appendTrailer_counted (c := { c with
          decoder := d, total := c.total + r.out.length, inTrailer := true }) r.rest rfl
          hc.maxChunk hc.maxTotal h.trailers hrest

end Chunked

/-! ### The reader on a whole body -/

namespace BodyReader

variable {fr : Framing} {stream data after bytes : Bytes} {trailers : Headers}
  {p₀ : BodyPipe Z} {st st' : State Z} {coding : Encoding} {sink : Sink} {maxBody cap : Nat}
  {f : Fail}

/-- The decoder of a chunked body has counted what was read of the stream. -/
def Tallied (cap : Nat) (stream : Bytes) (st : State Z) (held : Bytes) : Prop :=
  st.reader.fr.kind = .chunked → ∀ wire, stream = wire ++ (held ++ st.unread) →
    st.reader.dec.Counts cap wire

/-- Why a read fails on a body that is whole on the wire. -/
inductive Excused (C : Zlib.Codes) (coding : Encoding) (sink : Sink) (maxBody cap : Nat)
    (fr : Framing) (stream data : Bytes) (p : BodyPipe Z) (f : Fail) : Prop
  | pipe (h : p.Spoilt C coding sink maxBody data f)
  | cap (hkind : fr.kind = .chunked) (hrc : f.rc = .bodyLimit) (hcap : cap ≠ 0)
      (hover : cap < data.length)
  | burden (hkind : fr.kind = .chunked) (h : Burdened stream data)

/-- What a step tells on a body that is whole on the wire. -/
def Told (C : Zlib.Codes) (coding : Encoding) (sink : Sink) (maxBody cap : Nat) (fr : Framing)
    (stream data : Bytes) (st' : State Z) : Option Fail → Prop
  | none => st'.reader.done = false → Tallied cap stream st' []
  | some f => Excused C coding sink maxBody cap fr stream data st'.pipe f

lemma fed_spoilt (hZ : Z.Decodes C) (h₀ : p₀.Gave C coding sink maxBody [] [])
    {fed s : Bytes} {p q : BodyPipe Z} (h : p₀.Fed fed p) (hbody : fed ++ s <+: data)
    (hfeed : p.feed s = (q, some f)) : q.Spoilt C coding sink maxBody data f := by
  obtain ⟨out, hout⟩ := BodyPipe.fed_gave hZ h₀ h
  exact BodyPipe.feed_spoilt hZ hout hbody hfeed

lemma stepChunked_told (hZ : Z.Decodes C) (h₀ : p₀.Gave C coding sink maxBody [] [])
    (h : Reading fr stream p₀ st bytes) (hkind : fr.kind = .chunked)
    (htally : Tallied cap stream st bytes) (hframed : Framed fr stream data trailers after) :
    Told C coding sink maxBody cap fr stream data (stepChunked st bytes).1
      (stepChunked st bytes).2 := by
  obtain ⟨hframe, hgoing, hsurplus, htrailers, wire, fed, hstream, hfed, hprogress⟩ := h
  unfold Progress at hprogress
  rw [hframe, hkind] at hprogress
  obtain ⟨rfl, hreads⟩ := hprogress
  unfold Framed at hframed
  rw [hkind] at hframed
  obtain ⟨rest, hdechunk, hrest⟩ := hframed
  have hcounts := htally (by rw [hframe, hkind]) wire hstream
  rw [hstream] at hdechunk
  have hdecoded := Chunked.decode_counted hreads hcounts hdechunk hrest
  have hadds := (Chunked.decode_spec bytes hreads).2
  have hpre : (scan {} (wire ++ bytes)).out <+: data :=
    (Chunked.scan_of_dechunk _ st.unread (by rw [List.append_assoc, hdechunk])).1
  unfold stepChunked
  dsimp only
  generalize st.reader.dec.decode bytes = decoded at hdecoded hadds ⊢
  obtain ⟨dec, out, rc⟩ := decoded
  dsimp only at hdecoded hadds ⊢
  have hfed' : p₀.Fed (scan {} wire).out { st.pipe with
    rawSeen := st.pipe.rawSeen + bytes.length } := hfed.congr rfl
  generalize hfeed : BodyPipe.feed { st.pipe with
    rawSeen := st.pipe.rawSeen + bytes.length } out = got
  obtain ⟨pipe, res⟩ := got
  have hfails : ∀ f, res = some f →
      (scan {} (wire ++ bytes)).out = (scan {} wire).out ++ out →
      Excused C coding sink maxBody cap fr stream data pipe f := by
    rintro f rfl hout
    exact .pipe (fed_spoilt hZ h₀ hfed' (hout ▸ hpre) hfeed)
  cases rc with
  | ok =>
    rcases hadds with ⟨-, g, hg⟩ | hout
    · cases hg
    · cases res with
      | none =>
        intro hdone
        cases hdone
      | some f => exact hfails f rfl hout
  | wouldblock =>
    rcases hadds with ⟨-, g, hg⟩ | hout
    · cases hg
    · cases res with
      | none =>
        intro _ _ wire' hwire'
        change stream = wire' ++ ([] ++ st.unread) at hwire'
        rw [hstream, List.nil_append, ← List.append_assoc] at hwire'
        rw [← List.append_cancel_right hwire']
        exact hdecoded
      | some f => exact hfails f rfl hout
  | fail g =>
    rcases hdecoded with hburden | ⟨hout, hrc, hcap, hover⟩
    · rw [← hstream] at hburden
      cases res with
      | none => exact .burden hkind hburden
      | some f => exact .burden hkind hburden
    · cases res with
      | none => exact .cap hkind hrc hcap hover
      | some f => exact hfails f rfl hout

lemma stepPlain_told (hZ : Z.Decodes C) (h₀ : p₀.Gave C coding sink maxBody [] [])
    (h : Reading fr stream p₀ st bytes) (hkind : fr.kind = .length ∨ fr.kind = .untilClose)
    (hframed : Framed fr stream data trailers after) :
    Told C coding sink maxBody cap fr stream data (stepPlain st bytes).1
      (stepPlain st bytes).2 := by
  obtain ⟨hframe, hgoing, hsurplus, htrailers, wire, fed, hstream, hfed, hprogress⟩ := h
  have hdata := framed_referenceBody hframed
  unfold Progress at hprogress
  rw [hframe] at hprogress
  obtain ⟨take, htake⟩ : ∃ take, take = (if st.reader.fr.kind = .length ∧
      st.pipe.rawSeen + bytes.length > st.reader.fr.length then
        st.reader.fr.length - st.pipe.rawSeen else bytes.length) := ⟨_, rfl⟩
  have hbody : fed ++ bytes.take take <+: data := by
    have hcut : fed ++ bytes.take take <+: stream → fed = wire →
        (fr.kind = .length → (fed ++ bytes.take take).length ≤ fr.length) →
        fed ++ bytes.take take <+: data := by
      intro hpre _ hshort
      rw [← hdata]
      unfold referenceBody
      rcases hkind with hlength | huntil
      · rw [hlength]
        exact List.prefix_take_iff.mpr ⟨hpre, hshort hlength⟩
      · rw [huntil]
        exact hpre
    have hpre : fed = wire → fed ++ bytes.take take <+: stream := by
      rintro rfl
      rw [hstream, ← List.append_assoc]
      exact (List.prefix_append_right_inj _ |>.mpr (List.take_prefix _ _)).trans
        (List.prefix_append _ _)
    rcases hkind with hlength | huntil
    · rw [hlength] at hprogress
      obtain ⟨hwire, hraw, hle⟩ := hprogress
      refine hcut (hpre hwire) hwire (fun _ => ?_)
      rw [hframe, hraw] at htake
      simp only [hlength, true_and] at htake
      rw [List.length_append, List.length_take, hwire]
      split_ifs at htake <;> omega
    · rw [huntil] at hprogress
      refine hcut (hpre hprogress) hprogress (fun hlength => ?_)
      rw [huntil] at hlength
      cases hlength
  have hfed' : p₀.Fed fed { st.pipe with
    surplus := st.pipe.surplus + (bytes.length - take) } := hfed.congr rfl
  unfold stepPlain
  dsimp only
  rw [← htake]
  generalize hfeed : BodyPipe.feed { st.pipe with
    surplus := st.pipe.surplus + (bytes.length - take) } (bytes.take take) = got
  obtain ⟨pipe, res⟩ := got
  cases res with
  | some f => exact .pipe (fed_spoilt hZ h₀ hfed' hbody hfeed)
  | none =>
    dsimp only
    have hplain : st.reader.fr.kind ≠ .chunked := by
      rw [hframe]
      rcases hkind with hlength | huntil
      · rw [hlength]
        decide
      · rw [huntil]
        decide
    split_ifs
    · exact fun _ hchunked => absurd hchunked hplain
    · exact fun _ hchunked => absurd hchunked hplain

/-- A stream that ends inside the body does not hold all of it. -/
lemma reading_not_over (h : Reading fr stream p₀ st []) (htally : Tallied cap stream st [])
    (hframed : Framed fr stream data trailers after) (hunread : st.unread = [])
    (hshort : ¬(fr.kind = .length ∧ st.pipe.rawSeen ≥ fr.length)) (hnone : fr.kind ≠ .none) :
    fr.kind = .untilClose := by
  obtain ⟨hframe, -, -, -, wire, fed, hstream, -, hprogress⟩ := h
  have hcounts := fun hkind => htally hkind wire hstream
  unfold Progress at hprogress
  unfold Framed at hframed
  rw [hframe] at hprogress hcounts
  rw [hunread, List.nil_append, List.append_nil] at hstream
  cases hkind : fr.kind with
  | untilClose => rfl
  | none => exact absurd hkind hnone
  | length =>
    rw [hkind] at hprogress hframed
    obtain ⟨-, hraw, -⟩ := hprogress
    obtain ⟨hall, hlen, -⟩ := hframed
    refine absurd ⟨hkind, ?_⟩ hshort
    rw [hraw, ← hstream, hall, List.length_append]
    omega
  | chunked =>
    exfalso
    rw [hkind] at hprogress hframed
    obtain ⟨-, hreads⟩ := hprogress
    obtain ⟨rest, hdechunk, hrest⟩ := hframed
    have hscan := (Chunked.scan_of_dechunk wire []
      (by rw [List.append_nil, ← hstream, hdechunk])).2
    by_cases hin : st.reader.dec.inTrailer = true
    · obtain ⟨hend, hbuf⟩ := hreads.tail hin
      rw [hend] at hscan
      dsimp only at hscan
      rw [List.append_nil, ← hbuf] at hscan
      unfold trailersOf at hrest
      rw [hscan, (hcounts hkind).waits hin] at hrest
      cases hrest
    · obtain ⟨hend, -⟩ := hreads.body (by simpa using hin)
      rw [hend] at hscan
      exact hscan.1 rfl

lemma stepFramed_told (hZ : Z.Decodes C) (h₀ : p₀.Gave C coding sink maxBody [] [])
    (h : Reading fr stream p₀ st []) (htally : Tallied cap stream st [])
    (hframed : Framed fr stream data trailers after)
    (hclosed : fr.kind = .untilClose → st.stream.ending = .eof) :
    Told C coding sink maxBody cap fr stream data (stepFramed st).1 (stepFramed st).2 := by
  have hover := fun hunread => reading_not_over h htally hframed hunread
  have hframe := h.frame
  unfold stepFramed
  dsimp only
  rw [hframe]
  by_cases hnone : fr.kind = .none
  · rw [if_pos hnone]
    intro hdone
    cases hdone
  · rw [if_neg hnone]
    by_cases hfull : fr.kind = .length ∧ st.pipe.rawSeen ≥ fr.length
    · rw [if_pos hfull]
      intro hdone
      cases hdone
    · rw [if_neg hfull]
      rcases nextBytes_cases st.reader st.stream with
        ⟨bytes, seed, reads, hbytes, hnext, hsplit, -⟩ | ⟨hseed, hreads, hend, hnext⟩ |
        ⟨g, hseed, hreads, hend, hnext⟩
      · rw [hnext]
        dsimp only
        rw [if_neg hbytes]
        have hreading := h.next hsplit
        have htally' : Tallied cap stream { st with
            reader := { st.reader with seed := seed }
            stream := { st.stream with reads := reads } } bytes := by
          intro hkind wire hwire
          refine htally hkind wire ?_
          rw [hwire, List.nil_append, State.unread, State.unread, hsplit]
        by_cases hchunked : fr.kind = .chunked
        · rw [if_pos hchunked]
          exact stepChunked_told hZ h₀ hreading hchunked htally' hframed
        · rw [if_neg hchunked]
          refine stepPlain_told hZ h₀ hreading ?_ hframed
          cases hkind : fr.kind with
          | none => exact absurd hkind hnone
          | chunked => exact absurd hkind hchunked
          | length => exact .inl rfl
          | untilClose => exact .inr rfl
      · rw [hnext]
        dsimp only
        rw [if_pos rfl, if_pos (hover (by simp [State.unread, Transport.unread, hseed, hreads])
          hfull hnone)]
        intro hdone
        cases hdone
      · have huntil := hover (by simp [State.unread, Transport.unread, hseed, hreads]) hfull hnone
        have heof := hclosed huntil
        rw [hend] at heof
        cases heof

lemma step_told (hZ : Z.Decodes C) (h₀ : p₀.Gave C coding sink maxBody [] [])
    (h : Reading fr stream p₀ st []) (htally : Tallied cap stream st [])
    (hframed : Framed fr stream data trailers after)
    (hclosed : fr.kind = .untilClose → st.stream.ending = .eof) :
    Told C coding sink maxBody cap fr stream data (step st).1 (step st).2 := by
  have htold := stepFramed_told hZ h₀ h htally hframed hclosed
  have hresult := stepFramed_result h
  unfold step
  rw [if_neg (by simp [h.going])]
  generalize stepFramed st = r at htold hresult ⊢
  obtain ⟨st₁, res⟩ := r
  cases res with
  | some f => exact htold
  | none =>
    dsimp only
    by_cases hdone : st₁.reader.done = true
    · rw [if_pos hdone]
      rcases hresult with ⟨hreading, -⟩ | hend
      · exact absurd (hreading.going.symm.trans hdone) (by decide)
      · obtain ⟨data', extra, hframed', -, hfed⟩ := hend.framed
        have hsame : data' = data :=
          (framed_referenceBody hframed').symm.trans (framed_referenceBody hframed)
        obtain ⟨out, hout⟩ := BodyPipe.fed_gave hZ h₀ hfed
        rcases BodyPipe.finish_asks hZ hout with ⟨hfinish, -⟩ | ⟨f, hfinish, hspoilt⟩
        · rw [hfinish]
          intro hgoing
          exact absurd hdone (by simpa using hgoing)
        · rw [hfinish]
          exact .pipe (hsame ▸ hspoilt)
    · rw [if_neg hdone]
      exact htold

/-- The read of a whole body fails for a limit or a refusal only. -/
lemma bodyRead_excused (hZ : Z.Decodes C) {t : Transport} {seed : Bytes}
    (h₀ : p₀.Gave C coding sink maxBody [] []) (hraw : p₀.rawSeen = 0)
    (htrailers : p₀.trailers = Headers.init) (hread : bodyRead t fr p₀ seed cap = (st, some f))
    (hframed : Framed fr (seed ++ t.unread) data trailers after)
    (hclosed : fr.kind = .untilClose → t.ending = .eof) :
    Excused C coding sink maxBody cap fr (seed ++ t.unread) data st.pipe f := by
  obtain ⟨last, hsteps, hreading, hlast⟩ := bodyRead_outcome hraw htrailers hread
  have hstart : Reading fr (seed ++ t.unread) p₀ ⟨BodyReader.init fr seed cap, t, p₀⟩ [] :=
    init_reading cap hraw htrailers
  have hending : ∀ s, Steps ⟨BodyReader.init fr seed cap, t, p₀⟩ s →
      fr.kind = .untilClose → s.stream.ending = .eof := by
    intro s hs huntil
    obtain ⟨reads, hstream⟩ := steps_stream hs
    rw [hstream]
    exact hclosed huntil
  have htally : last.reader.done = false → Tallied cap (seed ++ t.unread) last [] := by
    refine (hsteps.invariant (I := fun s => Steps ⟨BodyReader.init fr seed cap, t, p₀⟩ s ∧
      (s.reader.done = false → Tallied cap (seed ++ t.unread) s [])) ⟨.start, fun _ _ => ?_⟩ ?_).2
    · intro wire hwire
      have hnil : wire = [] := by
        have hlen := congrArg List.length hwire
        simp only [State.unread, BodyReader.init, List.length_append, List.length_nil] at hlen
        exact List.length_eq_zero_iff.mp (by omega)
      rw [hnil]
      exact Chunked.init_counts cap
    · rintro s s' ⟨hs, htally⟩ hgoing hstep
      refine ⟨hs.next hgoing hstep, ?_⟩
      rcases steps_result hstart hs with hreads | ⟨q, hend, -⟩
      · have htold := step_told hZ h₀ hreads (htally hgoing) hframed (hending s hs)
        rw [hstep] at htold
        exact htold
      · have hdone := hend.done
        rw [hgoing] at hdone
        cases hdone
  have htold := step_told hZ h₀ hreading (htally hreading.going) hframed (hending last hsteps)
  rw [hlast] at htold
  exact htold

end BodyReader

open BodyReader

/-- A read that succeeds has given its sink what the body on the wire stands for. -/
lemma bodyRead_gave (hZ : Z.Decodes C) {sink : Sink} {h h' : Headers} {noDecode : Bool}
    {maxBody cap : Nat} {p : BodyPipe Z} {t : Transport} {fr : Framing} {seed : Bytes}
    {st : BodyReader.State Z} (hpipe : BodyPipe.init sink h noDecode maxBody = .ok (p, h'))
    (hread : bodyRead t fr p seed cap = (st, none)) : ∃ data extra content,
      Framed fr (seed ++ t.unread) data st.pipe.trailers (extra ++ st.stream.unread) ∧
      (fr.kind = .untilClose → t.ending = .eof) ∧ st.pipe.surplus = extra.length ∧
      Content C (codingOf h noDecode) data content ∧
      st.pipe.sink.bytes = sink.bytes ++ content := by
  obtain ⟨-, hraw, hsurplus, htrailers, -⟩ := BodyPipe.init_fresh hpipe
  have h₀ := BodyPipe.init_gave hZ hpipe
  obtain ⟨hsteps, q, hend, hfinish⟩ := bodyRead_outcome hraw htrailers hread
  obtain ⟨data, extra, hframed, hcount, hfed⟩ := hend.framed
  obtain ⟨reads, hstream⟩ := steps_stream hsteps
  obtain ⟨out, hout⟩ := BodyPipe.fed_gave hZ h₀ hfed
  rcases BodyPipe.finish_asks hZ hout with ⟨hsame, hcontent⟩ | ⟨f, hfails, -⟩
  · have hpipe' : st.pipe = q := by
      rw [hsame] at hfinish
      exact (Prod.mk.inj hfinish).1.symm
    rw [hpipe']
    refine ⟨data, extra, out, hframed, fun huntil => ?_, ?_, hcontent, hout.bytes⟩
    · obtain ⟨-, heof⟩ := hend.closed huntil
      rw [hstream] at heof
      exact heof
    · rw [hcount, hsurplus, Nat.zero_add]
  · rw [hfails] at hfinish
    cases hfinish

end Zuhttp
