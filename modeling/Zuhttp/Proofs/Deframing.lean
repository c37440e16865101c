import Mathlib.Data.List.Infix
import Zuhttp.Proofs.Reader

/-!
# De-framing

What a read hands to the sink under identity coding is a beginning of the body the framing
declares, however the stream is cut, as long as no step meets bytes that the vendored
decoder refuses and the cap lets pass.
-/

namespace Zuhttp

open Phr Dechunk

variable {Z : Zlib}

namespace BodyPipe

lemma feed_identity {p : BodyPipe Z} (s : Bytes) (h : p.inflate = none) :
    (p.feed s).1.inflate = none ∧ ∃ new, (p.feed s).1.sink.handed = p.sink.handed ++ new ∧
      new.flatten <+: s ∧ ((p.feed s).2 = none → new.flatten = s) := by
  unfold feed
  by_cases hempty : s = []
  · rw [if_pos hempty]
    exact ⟨h, [], by simp, by simp, fun _ => by simp [hempty]⟩
  · rw [if_neg hempty, h]
    dsimp only
    cases hcap : p.capCheck s.length with
    | some f => exact ⟨h, [], by simp, by simp, fun hok => by cases hok⟩
    | none =>
      unfold deliver Sink.write
      rw [if_neg hempty]
      cases p.sink.respond p.sink.handed s with
      | accept => exact ⟨h, [s], rfl, by simp, fun _ => by simp⟩
      | refuse f stopped => exact ⟨h, [s], rfl, by simp, fun _ => by simp⟩

/-- Under identity coding the sink holds what was fed. -/
lemma fed_identity {p₀ p : BodyPipe Z} {data : Bytes} (hid : p₀.inflate = none)
    (h : p₀.Fed data p) : p.inflate = none ∧
      ∃ new, p.sink.handed = p₀.sink.handed ++ new ∧ new.flatten = data := by
  induction h with
  | start hcore =>
    obtain ⟨hsink, hinflate, -⟩ := by simpa [core] using hcore
    exact ⟨hinflate.trans hid, [], by simp [hsink], rfl⟩
  | piece h s hfeed hr ih =>
    obtain ⟨hnone, new, hnew, hdata⟩ := ih
    obtain ⟨hnone', more, hmore, -, hall⟩ := feed_identity s hnone
    rw [hfeed] at hnone' hmore hall
    obtain ⟨hsink, hinflate, -⟩ := by simpa [core] using hr
    refine ⟨hinflate.trans hnone', new ++ more, ?_, ?_⟩
    · rw [hsink, hmore, hnew, List.append_assoc]
    · rw [List.flatten_append, hdata, hall rfl]

lemma finish_identity {p : BodyPipe Z} (h : p.inflate = none) : p.finish = (p, none) := by
  unfold finish
  rw [h]

end BodyPipe

namespace BodyReader

/-- The vendored decoder refuses the bytes the reader reads next, and the cap would let
them pass. -/
def HandsRefused (st : State Z) : Prop :=
  st.reader.done = false ∧ st.reader.fr.kind = .chunked ∧
    match (st.reader.nextBytes st.stream).1 with
    | .ok bytes => st.reader.dec.Refuses bytes ∧ st.pipe.capCheck bytes.length = none
    | .error _ => False

instance (st : State Z) : Decidable (HandsRefused st) := by
  unfold HandsRefused
  cases (st.reader.nextBytes st.stream).1 with
  | ok bytes => exact inferInstance
  | error f => exact inferInstance

/-- The bytes the reader reads next are chunked syntax as far as they go. -/
def WellFormedNext (st : State Z) : Prop :=
  ∀ bytes, (st.reader.nextBytes st.stream).1 = .ok bytes →
    (scan st.reader.dec.decoder.toChunkPos bytes).ending ≠ .malformed

lemma rewritten_length {d : ChunkPos} {buf : Bytes} {r : Decoded}
    (hout : r.out = (scan d buf).out) (hrest : r.rest = (scan d buf).rest) :
    (rewritten buf r).length = buf.length := by
  have hlen := (scan_length d buf).1
  unfold rewritten
  simp only [hout, hrest, List.length_append, List.length_drop]
  omega

lemma decode_refuses {c : Chunked} {bytes : Bytes} (h : c.Refuses bytes) :
    (c.decode bytes).2.1 = rewritten bytes (decodeChunked c.decoder bytes).2 ∧
      ∃ f, (c.decode bytes).2.2 = .fail f := by
  obtain ⟨hin, hend⟩ := h
  unfold Chunked.decode
  rw [if_neg (by simp [hin])]
  generalize decodeChunked c.decoder bytes = dr at hend ⊢
  obtain ⟨d, r⟩ := dr
  dsimp only at hend ⊢
  rw [hend]
  exact ⟨rfl, _, rfl⟩

/-- The step that meets refused bytes feeds the whole rewritten buffer to the pipe. -/
lemma step_refused {st : State Z} {bytes : Bytes} (hgoing : st.reader.done = false)
    (hkind : st.reader.fr.kind = .chunked)
    (hnext : (st.reader.nextBytes st.stream).1 = .ok bytes) (hbytes : bytes ≠ [])
    (hrefuses : st.reader.dec.Refuses bytes) :
    (∃ f, (step st).2 = some f) ∧ (step st).1.pipe = (BodyPipe.feed { st.pipe with
      rawSeen := st.pipe.rawSeen + bytes.length }
        (rewritten bytes (decodeChunked st.reader.dec.decoder bytes).2)).1 := by
  rcases nextBytes_cases st.reader st.stream with ⟨read, seed, reads, -, hread, -, -⟩ |
    ⟨-, -, -, hread⟩ | ⟨f, -, -, -, hread⟩
  · rw [hread] at hnext
    cases hnext
    obtain ⟨hout, f, hfail⟩ := decode_refuses hrefuses
    unfold step stepFramed
    simp only [hgoing, Bool.false_eq_true, if_false, hkind, reduceCtorEq, false_and, hread,
      hbytes, if_true]
    unfold stepChunked
    dsimp only
    rw [hout, hfail]
    cases hfeed : BodyPipe.feed { st.pipe with rawSeen := st.pipe.rawSeen + bytes.length }
      (rewritten bytes (decodeChunked st.reader.dec.decoder bytes).2) with
    | mk pipe res =>
      cases res with
      | none => exact ⟨⟨f, rfl⟩, rfl⟩
      | some g => exact ⟨⟨g, rfl⟩, rfl⟩
  · rw [hread] at hnext
    cases hnext
    exact absurd rfl hbytes
  · rw [hread] at hnext
    cases hnext

lemma feed_capped {p : BodyPipe Z} {s : Bytes} {f : Fail} (hid : p.inflate = none)
    (hcap : p.capCheck s.length = some f) : (p.feed s).1 = p := by
  unfold BodyPipe.feed
  rw [hid, hcap]
  split_ifs <;> rfl

lemma feed_passes {p : BodyPipe Z} {s : Bytes} (hid : p.inflate = none) (hs : s ≠ [])
    (hcap : p.capCheck s.length = none) :
    (p.feed s).1.sink.handed = p.sink.handed ++ [s] := by
  unfold BodyPipe.feed
  rw [if_neg hs, hid]
  dsimp only
  rw [hcap]
  unfold BodyPipe.deliver Sink.write
  rw [if_neg hs]
  cases p.sink.respond p.sink.handed s <;> rfl

/-- A step that fails stays inside the body, unless it hands over what was refused. -/
lemma step_within {fr : Framing} {stream : Bytes} {p₀ : BodyPipe Z} {st st' : State Z}
    {f : Fail} (hid : p₀.inflate = none) (h : Reading fr stream p₀ st [])
    (hclean : ¬HandsRefused st) (hstep : step st = (st', some f)) :
    FedWithin fr stream p₀ st'.pipe := by
  have hout := step_outcome h
  rw [hstep] at hout
  rcases hout with ⟨hkind, bytes, hbytes, hnext, hrefuses⟩ | hwithin | ⟨p, g, hend, hfinish⟩
  · obtain ⟨-, hpipe⟩ := step_refused h.going hkind hnext hbytes hrefuses
    obtain ⟨-, hout, hrest, -⟩ := Chunked.decodeChunked_spec st.reader.dec.decoder bytes
    cases hcap : st.pipe.capCheck bytes.length with
    | none =>
      refine absurd ⟨h.going, hkind, ?_⟩ hclean
      rw [hnext]
      exact ⟨hrefuses, hcap⟩
    | some g =>
      obtain ⟨wire, data, -, hfed, -⟩ := h.progress
      have hsame := feed_capped (p := { st.pipe with
        rawSeen := st.pipe.rawSeen + bytes.length })
        (s := rewritten bytes (decodeChunked st.reader.dec.decoder bytes).2)
        (BodyPipe.fed_identity hid hfed).1 (by rw [rewritten_length hout hrest]; exact hcap)
      rw [hstep, hsame] at hpipe
      obtain ⟨body, piece, q, hq, hpre, hcore⟩ := reading_fedWithin h
      exact ⟨body, piece, q, hq, hpre, by rw [hpipe]; exact hcore⟩
  · exact hwithin
  · obtain ⟨data, extra, -, -, hfed⟩ := hend.framed
    rw [BodyPipe.finish_identity (BodyPipe.fed_identity hid hfed).1] at hfinish
    cases hfinish

lemma framed_referenceBody {fr : Framing} {stream body after : Bytes} {trailers : Headers}
    (h : Framed fr stream body trailers after) : referenceBody fr stream = body := by
  unfold Framed at h
  unfold referenceBody
  cases hkind : fr.kind with
  | none =>
    rw [hkind] at h
    exact h.1.symm
  | length =>
    rw [hkind] at h
    rw [h.1, ← h.2.1, List.take_left]
  | chunked =>
    rw [hkind] at h
    obtain ⟨rest, hbody, -⟩ := h
    rw [hbody]
  | untilClose =>
    rw [hkind] at h
    exact h.1.symm

/-- What the sink was handed is, piece after piece, a beginning of the body, and after a
success all of it. -/
def Deframes (fr : Framing) (stream : Bytes) (sink : Sink) (st : State Z)
    (res : Option Fail) : Prop :=
  ∃ new, st.pipe.sink.handed = sink.handed ++ new ∧
    (∀ moment, moment <+: new → moment.flatten <+: referenceBody fr stream) ∧
    (res = none → new.flatten = referenceBody fr stream ∧
      ∃ after, Framed fr stream new.flatten st.pipe.trailers after)

lemma ended_deframes {fr : Framing} {stream : Bytes} {p₀ : BodyPipe Z} {st : State Z}
    (hid : p₀.inflate = none) (h : Ended fr stream p₀ st) :
    Deframes fr stream p₀.sink st none := by
  obtain ⟨q, hend, hfinish⟩ := h
  obtain ⟨data, extra, hframed, -, hfed⟩ := hend.framed
  obtain ⟨hnone, new, hnew, rfl⟩ := BodyPipe.fed_identity hid hfed
  rw [BodyPipe.finish_identity hnone] at hfinish
  cases hfinish
  have hbody := framed_referenceBody hframed
  refine ⟨new, hnew, ?_, fun _ => ⟨hbody.symm, _, hframed⟩⟩
  intro moment hmoment
  rw [hbody]
  exact List.IsPrefix.flatten hmoment

lemma fedWithin_deframes {fr : Framing} {stream : Bytes} {p₀ : BodyPipe Z} {st : State Z}
    {f : Fail} (hid : p₀.inflate = none) (h : FedWithin fr stream p₀ st.pipe) :
    Deframes fr stream p₀.sink st (some f) := by
  obtain ⟨data, piece, q, hfed, hpre, hcore⟩ := h
  obtain ⟨hnone, new, hnew, rfl⟩ := BodyPipe.fed_identity hid hfed
  obtain ⟨-, more, hmore, hpiece, -⟩ := BodyPipe.feed_identity piece hnone
  refine ⟨new ++ more, ?_, ?_, fun hok => by cases hok⟩
  · have hsinks : st.pipe.sink = (q.feed piece).1.sink := congrArg Prod.fst hcore
    rw [hsinks, hmore, hnew, List.append_assoc]
  · intro moment hmoment
    refine (List.IsPrefix.flatten hmoment).trans (List.IsPrefix.trans ?_ hpre)
    rw [List.flatten_append]
    exact (List.prefix_append_right_inj _).mpr hpiece

/-- Where the scan of the stream stops, the reference body ends. -/
lemma referenceBody_of_malformed {fr : Framing} {wire bytes more : Bytes} {d : ChunkPos}
    (hkind : fr.kind = .chunked) (hend : (scan {} wire).ending = .incomplete)
    (hpos : d = (scan {} wire).pos) (hbad : (scan d bytes).ending = .malformed) :
    referenceBody fr (wire ++ (bytes ++ more)) = (scan {} wire).out ++ (scan d bytes).out := by
  unfold referenceBody
  rw [hkind]
  dsimp only
  rw [← (scan_dechunk _).1, scan_append, hend, ← hpos]
  dsimp only
  rw [scan_append, hbad]
  rfl

lemma handsRefused_bytes {st : State Z} (hhands : HandsRefused st) (hbad : ¬WellFormedNext st) :
    ∃ bytes, bytes ≠ [] ∧ (st.reader.nextBytes st.stream).1 = .ok bytes ∧
      st.reader.dec.Refuses bytes ∧ st.pipe.capCheck bytes.length = none ∧
      (scan st.reader.dec.decoder.toChunkPos bytes).ending = .malformed := by
  obtain ⟨-, -, hnext⟩ := hhands
  unfold WellFormedNext at hbad
  push Not at hbad
  obtain ⟨bytes, hread, hmalformed⟩ := hbad
  rw [hread] at hnext
  refine ⟨bytes, ?_, hread, hnext.1, hnext.2, hmalformed⟩
  rintro rfl
  cases hmalformed

/-- The buffer that holds refused bytes is longer than what is left of the body. -/
lemma handsRefused_not_deframes {fr : Framing} {stream : Bytes} {p₀ : BodyPipe Z}
    {st : State Z} (hid : p₀.inflate = none) (h : Reading fr stream p₀ st [])
    (hhands : HandsRefused st) (hbad : ¬WellFormedNext st) (res : Option Fail) :
    ¬Deframes fr stream p₀.sink (step st).1 res := by
  rintro ⟨new, hnew, hpre, -⟩
  obtain ⟨bytes, hbytes, hread, hrefuses, hcap, hmalformed⟩ := handsRefused_bytes hhands hbad
  obtain ⟨hgoing, hkind, -⟩ := hhands
  obtain ⟨wire, data, hstream, hfed, hprogress⟩ := h.progress
  unfold Progress at hprogress
  rw [hkind] at hprogress
  obtain ⟨rfl, hreads⟩ := hprogress
  obtain ⟨hend, hpos, -⟩ := hreads.body hrefuses.1
  obtain ⟨more, hmore⟩ : ∃ more, st.unread = bytes ++ more := by
    rcases nextBytes_cases st.reader st.stream with ⟨read, seed, reads, -, hok, hsplit, -⟩ |
      ⟨-, -, -, hok⟩ | ⟨f, -, -, -, hok⟩
    · rw [hok] at hread
      cases hread
      exact ⟨_, hsplit⟩
    · rw [hok] at hread
      cases hread
      exact absurd rfl hbytes
    · rw [hok] at hread
      cases hread
  obtain ⟨-, hpipe⟩ := step_refused hgoing hkind hread hbytes hrefuses
  obtain ⟨-, hout, hrest, -⟩ := Chunked.decodeChunked_spec st.reader.dec.decoder bytes
  have hlen := rewritten_length hout hrest
  obtain ⟨hnone, old, hold, hdata⟩ := BodyPipe.fed_identity hid hfed
  have hpass := feed_passes (p := { st.pipe with rawSeen := st.pipe.rawSeen + bytes.length })
    (s := rewritten bytes (decodeChunked st.reader.dec.decoder bytes).2) hnone
    (by rw [← List.length_pos_iff, hlen]; exact List.length_pos_iff.mpr hbytes)
    (by rw [hlen]; exact hcap)
  rw [hpipe, hpass, hold, List.append_assoc, List.append_cancel_left_eq] at hnew
  have hshort := (hpre new (List.prefix_refl _)).length_le
  rw [hstream, List.nil_append, hmore,
    referenceBody_of_malformed (h.frame ▸ hkind) hend hpos hmalformed, ← hnew,
    List.flatten_append, hdata] at hshort
  simp only [List.flatten_cons, List.flatten_nil, List.append_nil, List.length_append,
    hlen] at hshort
  obtain ⟨hle, hrest⟩ := scan_length st.reader.dec.decoder.toChunkPos bytes
  have hpos := List.length_pos_iff.mpr (hrest hmalformed)
  omega

end BodyReader

open BodyReader

/-- A read whose steps never hand over what the decoder refused de-frames the body, and one
that de-frames the body hands over nothing refused but by the overhead guard. -/
theorem bodyRead_deframes {sink : Sink} {h h' : Headers} {noDecode : Bool}
    {maxBody cap : Nat} {p : BodyPipe Z} {t : Transport} {fr : Framing} {seed : Bytes}
    {st : BodyReader.State Z} {res : Option Fail}
    (hpipe : BodyPipe.init sink h noDecode maxBody = .ok (p, h')) (hid : p.inflate = none)
    (hread : bodyRead t fr p seed cap = (st, res)) :
    ((∀ s, Steps ⟨BodyReader.init fr seed cap, t, p⟩ s → ¬HandsRefused s) →
      Deframes fr (seed ++ t.unread) sink st res) ∧
    (Deframes fr (seed ++ t.unread) sink st res →
      ∀ s, Steps ⟨BodyReader.init fr seed cap, t, p⟩ s → HandsRefused s →
        WellFormedNext s) := by
  obtain ⟨rfl, hraw, -, htrailers, -⟩ := BodyPipe.init_fresh hpipe
  have hout := bodyRead_outcome hraw htrailers hread
  constructor
  · intro hclean
    cases res with
    | none => exact ended_deframes hid hout.2
    | some f =>
      obtain ⟨last, hsteps, hreading, hlast⟩ := hout
      exact fedWithin_deframes hid (step_within hid hreading (hclean last hsteps) hlast)
  · intro hdeframes s hs hhands
    by_contra hbad
    have hstart : Reading fr (seed ++ t.unread) p ⟨BodyReader.init fr seed cap, t, p⟩ [] :=
      init_reading cap hraw htrailers
    have hreading : Reading fr (seed ++ t.unread) p s [] := by
      rcases steps_result hstart hs with hreading | ⟨q, hend, -⟩
      · exact hreading
      · have hdone := hend.done
        rw [hhands.1] at hdone
        cases hdone
    obtain ⟨bytes, hbytes, hread, hrefuses, -⟩ := handsRefused_bytes hhands hbad
    obtain ⟨⟨f, hfails⟩, -⟩ := step_refused hhands.1 hhands.2.1 hread hbytes hrefuses
    have hstops : Loop.Stops step (fun st : State Z => st.reader.done) s :=
      Or.inr (by rw [hfails]; simp)
    have hlast : st = (step s).1 := by
      cases res with
      | none =>
        obtain ⟨hsteps, q, hend, -⟩ := hout
        have heq := hs.stops_unique hsteps hstops (Or.inl hend.done)
        have hdone := hend.done
        rw [← heq, hhands.1] at hdone
        cases hdone
      | some g =>
        obtain ⟨last, hsteps, -, hstep⟩ := hout
        have heq := hs.stops_unique hsteps hstops (Or.inr (by rw [hstep]; simp))
        rw [heq, hstep]
    rw [hlast] at hdeframes
    exact handsRefused_not_deframes hid hreading hhands hbad res hdeframes

/-- Two chunks of which the second has a bad size: the sink gets the size line, too. -/
theorem bodyRead_not_deframes :
    let t : Transport := { reads := [⟨ascii "5\r\nhello\r\nZ", by decide, by decide⟩] }
    let p : BodyPipe (Zlib.knowing [] []) := .fresh .memory 0
    ¬Deframes ⟨.chunked, 0, true⟩ ([] ++ t.unread) .memory
      (bodyRead t ⟨.chunked, 0, true⟩ p [] 0).1 (bodyRead t ⟨.chunked, 0, true⟩ p [] 0).2 := by
  rintro t p ⟨new, hnew, hpre, -⟩
  have hall := hpre new (List.prefix_refl _)
  rw [Sink.memory, List.nil_append] at hnew
  rw [← hnew] at hall
  revert hall
  decide +kernel

theorem bodyRead_deframes_hello :
    let t : Transport :=
      { reads := [⟨ascii "5\r\nhello\r\n0\r\nExpires: 0\r\n\r\n", by decide, by decide⟩] }
    let p : BodyPipe (Zlib.knowing [] []) := .fresh .memory 0
    Deframes ⟨.chunked, 0, true⟩ ([] ++ t.unread) .memory
      (bodyRead t ⟨.chunked, 0, true⟩ p [] 0).1 (bodyRead t ⟨.chunked, 0, true⟩ p [] 0).2 := by
  intro t p
  have hinit : BodyPipe.init .memory Headers.init true 0 = .ok (p, Headers.init) := rfl
  refine (bodyRead_deframes hinit rfl (Prod.eta _).symm).1 ?_
  intro s hs
  rcases hs.head with rfl | ⟨s', -, hstep, hreach⟩
  · decide +kernel
  · have hs' : s' = (step ⟨BodyReader.init ⟨.chunked, 0, true⟩ [] 0, t, p⟩).1 := by rw [hstep]
    rw [hreach.of_stops (Or.inl (by rw [hs']; decide +kernel)), hs']
    decide +kernel

end Zuhttp
