import Zuhttp.Proofs.OpenBody
import Zuhttp.Proofs.Window

/-!
# The end of an HTTP/2 body

The driver takes a stream that closed with NO_ERROR for a body that ended. nghttp2 closes a
stream so when the peer ended it, and when the peer reset it with that code.
-/

namespace Zuhttp

open Loop Pull

variable {Z : Zlib}

namespace H2

/-- A frame with END_STREAM was received. -/
def EndHeard (h : H2) : Prop := h.heard.any (endsStream h.sid) = true

/-- The payloads received, in order. -/
def payloads (h : H2) : Bytes := h.heard.flatMap (payload h.sid)

/-- The peer reset the stream with the code before it ended it. -/
def ResetBeforeEnd (h : H2) (code : Nat) : Prop :=
  ∃ before e after, h.heard = before ++ e :: after ∧ resetCode h.sid e = some code ∧
    before.any (endsStream h.sid) = false

/-- The peer ended the stream, or reset it with NO_ERROR. -/
def Over (h : H2) : Prop :=
  EndHeard h ∨ h.heard.any (fun e => resetCode h.sid e = some noError) = true

/-- What nghttp2 reported, while it keeps to its documentation: the payloads were fed or are
buffered, a stream that closed with NO_ERROR is over, and no end follows a reset. -/
structure Reported (fed : Bytes) (h : H2) : Prop where
  payload : h.payloads = fed ++ h.data
  closed : h.closed = true → h.closeCode = noError → h.Over
  order : h.heard.Pairwise
    (fun e e' => (resetCode h.sid e).isSome = true → endsStream h.sid e' = false)

lemma over_kept : Kept Over where
  callback := by
    intro h h' e hover hcb
    have heff := callback_effect hcb
    unfold Over EndHeard at hover ⊢
    rw [heff.sid, heff.heard, List.any_append, List.any_append, Bool.or_eq_true,
      Bool.or_eq_true]
    exact hover.imp Or.inl Or.inl
  env := by
    intro h env allowed failed hover
    exact hover

lemma reported_kept (fed : Bytes) : Kept (fun h => h.lawful = true → Reported fed h) where
  callback := by
    intro h h' e hh hcb hlaw
    have heff := callback_effect hcb
    rw [heff.lawful, Bool.and_eq_true] at hlaw
    obtain ⟨hpayload, hclosed, horder⟩ := hh hlaw.1
    have hdoc := hlaw.2
    refine ⟨?_, ?_, ?_⟩
    · unfold payloads at hpayload ⊢
      rw [heff.sid, heff.heard, heff.data, List.flatMap_append, hpayload, List.append_assoc]
      simp
    · intro hnow hcode
      have hclosing := heff.closed
      rw [hnow, hcode] at hclosing
      have hbefore : h.closed = true ∧ h.closeCode = noError → h'.Over :=
        fun hh => over_kept.callback (hclosed hh.1 hh.2) hcb
      cases e with
      | streamClose sid code =>
        unfold closing at hclosing
        dsimp only at hclosing
        by_cases hsid : sid = h.sid
        · rw [if_pos hsid] at hclosing
          obtain ⟨-, hcode'⟩ := Prod.mk.inj hclosing
          simp only [documented, hsid, if_true, ← hcode', ne_eq, not_true_eq_false,
            decide_false, Bool.false_or, Bool.or_eq_true] at hdoc
          exact over_kept.callback hdoc hcb
        · rw [if_neg hsid] at hclosing
          obtain ⟨h₁, h₂⟩ := Prod.mk.inj hclosing
          exact hbefore ⟨h₁.symm, h₂.symm⟩
      | _ =>
        obtain ⟨h₁, h₂⟩ := Prod.mk.inj hclosing
        exact hbefore ⟨h₁.symm, h₂.symm⟩
    · rw [heff.sid, heff.heard, List.pairwise_append]
      refine ⟨horder, List.pairwise_singleton _ _, ?_⟩
      intro a ha e' he' hreset
      rw [List.mem_singleton.mp he']
      have hany : h.heard.any (fun e => (resetCode h.sid e).isSome) = true :=
        List.any_eq_true.mpr ⟨a, ha, hreset⟩
      cases e with
      | frameRecv f =>
        unfold documented at hdoc
        rw [hany, Bool.and_true, Bool.not_eq_true'] at hdoc
        exact hdoc
      | _ => rfl
  env := by
    intro h env allowed failed hh hlaw
    exact ⟨(hh hlaw).payload, (hh hlaw).closed, (hh hlaw).order⟩

/-- What is kept is kept as long as nghttp2 keeps to its documentation. -/
lemma lawful_kept {P : H2 → Prop} (hP : Kept P) : Kept (fun h => h.lawful = true → P h) where
  callback := by
    intro h h' e hh hcb hlaw
    have heff := callback_effect hcb
    rw [heff.lawful, Bool.and_eq_true] at hlaw
    exact hP.callback (hh hlaw.1) hcb
  env := by
    intro h env allowed failed hh hlaw
    exact hP.env env allowed failed (hh hlaw)

lemma reported_drained {fed : Bytes} {h : H2} (hh : Reported fed h) :
    Reported (fed ++ h.data) h.drained where
  payload := by
    have hpayload := hh.payload
    unfold payloads at hpayload ⊢
    simp only [drained, List.append_nil]
    exact hpayload
  closed := hh.closed
  order := hh.order

/-! ### The body -/

/-- A body that goes on: the pipe was fed what the driver handed over. -/
def Going (p : BodyPipe Z) (st : BodyState Z) : Prop :=
  ∃ fed, (st.conn.lawful = true → Reported fed st.conn) ∧ p.Fed fed st.pipe

/-- A body that ended: the pipe was fed all payloads and has finished. -/
structure Ended (p : BodyPipe Z) (st : BodyState Z) : Prop where
  fed : st.conn.lawful = true →
    ∃ q q', p.Fed st.conn.payloads q ∧ q.finish = (q', none) ∧ st.pipe.core = q'.core
  heardEnd : st.conn.lawful = true → st.conn.Over
  order : st.conn.lawful = true → st.conn.heard.Pairwise
    (fun e e' => (resetCode st.conn.sid e).isSome = true → endsStream st.conn.sid e' = false)

lemma endStep_going {p q : BodyPipe Z} {h : H2} {st : BodyState Z} {fed : Bytes}
    (hreported : h.lawful = true → Reported fed h) (hfed : p.Fed fed q)
    (hstep : endStep h q = (st, none)) :
    (st.done = false ∧ Going p st) ∨ (st.done = true ∧ Ended p st) := by
  have hcases := endStep_cases h q
  rw [hstep] at hcases
  have hfed' : p.Fed fed { q with rawSeen := q.rawSeen + h.data.length } := hfed.congr rfl
  cases hcases with
  | goesOn hfeed hopen =>
    refine Or.inl ⟨rfl, fed ++ h.data, fun hlaw => reported_drained (hreported hlaw), ?_⟩
    exact hfed'.piece h.data hfeed rfl
  | ended hfeed hclosed hcode hfinish =>
    obtain ⟨h₁, hh₁⟩ : ∃ h₁ : H2, h₁ = { h.drained with trailers := Headers.init } := ⟨_, rfl⟩
    have hreported₁ : h₁.lawful = true → Reported (fed ++ h.data) h₁ := by
      intro hlaw
      subst hh₁
      have hdrained := reported_drained (hreported hlaw)
      exact ⟨hdrained.payload, hdrained.closed, hdrained.order⟩
    have hover₁ : h₁.lawful = true → h₁.Over := by
      intro hlaw
      subst hh₁
      exact (hreported hlaw).closed hclosed hcode
    have hquiet₁ : Link.Quiet 0 h₁ := by
      subst hh₁
      exact ⟨Or.inl hclosed, fun _ => rfl⟩
    rw [← hh₁]
    have hreported₂ := flush_keeps (reported_kept (fed ++ h.data)) hreported₁
    have hover₂ := flush_keeps (lawful_kept over_kept) hover₁
    have hquiet₂ := flush_keeps (Link.quiet_kept 0) hquiet₁
    refine Or.inr ⟨rfl, fun hlaw => ?_, hover₂, fun hlaw => (hreported₂ hlaw).order⟩
    have hall : h₁.flush.1.payloads = fed ++ h.data := by
      have hnone := List.length_eq_zero_iff.mp (hquiet₂.2 hlaw)
      rw [(hreported₂ hlaw).payload, hnone, List.append_nil]
    refine ⟨_, _, ?_, hfinish, rfl⟩
    dsimp only
    rw [hall]
    exact hfed'.piece h.data hfeed rfl

lemma bodyStep_going {p : BodyPipe Z} {st st' : BodyState Z} (hgoing : Going p st)
    (hstep : bodyStep st = (st', none)) :
    (st'.done = false ∧ Going p st') ∨ (st'.done = true ∧ Ended p st') := by
  obtain ⟨fed, hreported, hfed⟩ := hgoing
  unfold bodyStep at hstep
  split_ifs at hstep with hread
  · split at hstep
    · cases hstep
    · next h hpump =>
      exact endStep_going (pumpStream_keeps (reported_kept fed) hreported hpump) hfed hstep
  · exact endStep_going hreported hfed hstep

/-- A body that was read to its end has ended. -/
lemma body_ended {h : H2} {p : BodyPipe Z} {st : BodyState Z}
    (hstart : h.lawful = true → Reported [] h) (hbody : body h p = (st, none)) :
    Ended p st := by
  have hends : (BodySource.h2 st).done = true := by
    have hall := BodySource.readAll_ends (.h2 ⟨h, p, false⟩)
    rw [← BodySource.readAll_eq rfl] at hall
    unfold BodySource.readAll at hall
    dsimp only at hall
    rw [hbody] at hall
    exact hall rfl
  have hreached := Loop.iterate_reached hbody
  have hinv := hreached.invariant
    (I := fun s => (s.done = false ∧ Going p s) ∨ (s.done = true ∧ Ended p s))
    (Or.inl ⟨rfl, [], hstart, .start rfl⟩) ?_
  · rcases hinv with ⟨hgoing, -⟩ | ⟨-, hended⟩
    · have hdone : st.done = true := hends
      rw [hgoing] at hdone
      cases hdone
    · exact hended
  · intro s s' hs hgoing hstep
    rcases hs with ⟨-, hs⟩ | ⟨hdone, -⟩
    · exact bodyStep_going hs hstep
    · rw [hgoing] at hdone
      cases hdone

/-- What a body reported as whole must be: ended by the peer, its payloads fed to the pipe in
order and once each, and not reset before its end. -/
structure CompleteBody (p : BodyPipe Z) (st : BodyState Z) : Prop where
  ended : st.conn.EndHeard
  fed : ∃ q q', p.Fed st.conn.payloads q ∧ q.finish = (q', none) ∧ st.pipe.core = q'.core
  notReset : ∀ code, ¬st.conn.ResetBeforeEnd code

/-- No END_STREAM follows a reset. -/
lemma not_endHeard_of_reset {h : H2} {code : Nat}
    (horder : h.heard.Pairwise
      (fun e e' => (resetCode h.sid e).isSome = true → endsStream h.sid e' = false))
    (hreset : h.ResetBeforeEnd code) : ¬h.EndHeard := by
  obtain ⟨before, e, after, hheard, hcode, hbefore⟩ := hreset
  intro hend
  rw [hheard, List.pairwise_append, List.pairwise_cons] at horder
  unfold EndHeard at hend
  rw [hheard, List.any_append, List.any_cons, hbefore, Bool.false_or, Bool.or_eq_true] at hend
  have hsome : (resetCode h.sid e).isSome = true := by
    rw [hcode]
    rfl
  rcases hend with hself | hafter
  · cases e with
    | frameRecv f =>
      cases f with
      | rstStream s c => cases hself
      | _ => cases hcode
    | _ => cases hcode
  · obtain ⟨e', he', hends⟩ := List.any_eq_true.mp hafter
    rw [horder.2.1.1 e' he' hsome] at hends
    cases hends

lemma ended_complete_iff {p : BodyPipe Z} {st : BodyState Z} (hended : Ended p st)
    (hlaw : st.conn.lawful = true) :
    CompleteBody p st ↔ ¬st.conn.ResetBeforeEnd noError := by
  constructor
  · intro hcomplete
    exact hcomplete.notReset noError
  · intro hclean
    have hend : st.conn.EndHeard := by
      by_contra hnone
      obtain ⟨e, he, hcode⟩ := List.any_eq_true.mp ((hended.heardEnd hlaw).resolve_left hnone)
      obtain ⟨before, after, hheard⟩ := List.append_of_mem he
      refine hclean ⟨before, e, after, hheard, by simpa using hcode, ?_⟩
      unfold EndHeard at hnone
      rw [hheard, List.any_append, Bool.or_eq_true, not_or] at hnone
      simpa using hnone.1
    exact ⟨hend, hended.fed hlaw, fun code hreset =>
      not_endHeard_of_reset (hended.order hlaw) hreset hend⟩

lemma begin_reported {h₀ h : H2} {rq : H2Request} {hdrs : Headers} {resp : H2Response}
    (hbegin : h₀.begin rq hdrs = (h, .ok resp)) : h.lawful = true → Reported [] h := by
  refine begin_keeps (reported_kept []) ?_ ?_ hbegin
  · intro sid _
    refine ⟨rfl, ?_, List.Pairwise.nil⟩
    intro hclosed
    cases hclosed
  · intro h hh hlaw
    exact ⟨(hh hlaw).payload, (hh hlaw).closed, (hh hlaw).order⟩

/-- A body that is read to its end without an error, in one go or pulled, is whole exactly
when the peer did not reset its stream with NO_ERROR before ending it. -/
theorem body_complete_iff {h₀ h : H2} {rq : H2Request} {hdrs : Headers} {resp : H2Response}
    (hbegin : h₀.begin rq hdrs = (h, .ok resp)) :
    (∀ (p : BodyPipe Z) st, body h p = (st, none) → st.conn.lawful = true →
      (CompleteBody p st ↔ ¬st.conn.ResetBeforeEnd noError)) ∧
    (∀ hd minor cap noDecode (b : OpenBody Z) h' cs,
      OpenBody.new (.h2 h) hd minor cap noDecode = .ok (b, h') →
      (b.calls cs).endedClean = true →
      ∃ st st', body h b.src.pipe = (st, none) ∧ (b.calls cs).src = .h2 st' ∧
        st'.conn = st.conn ∧ b.returned cs = st.pipe.sink.bytes ∧
        (BodySource.h2 st').clear = (BodySource.h2 st).clear ∧ (st.conn.lawful = true →
          (CompleteBody b.src.pipe st ↔ ¬st.conn.ResetBeforeEnd noError))) := by
  have hstart := begin_reported hbegin
  refine ⟨fun p st hbody hlaw => ended_complete_iff (body_ended hstart hbody) hlaw, ?_⟩
  intro hd minor cap noDecode b h' cs hnew hended
  obtain ⟨q, hall, hsame, hreturned⟩ := OpenBody.ended_readAll (OpenBody.new_eq_ok hnew).1 hended
  obtain ⟨p, hsrc⟩ : ∃ p, b.src = .h2 ⟨h, p, false⟩ := OpenBody.new_src_h2 hnew
  rw [hsrc] at hall ⊢
  cases hbody : body h p with
  | mk st res =>
    unfold BodySource.readAll at hall
    dsimp only at hall
    rw [hbody] at hall
    obtain ⟨rfl, rfl⟩ := Prod.mk.inj hall
    cases hpulled : (b.calls cs).src with
    | h1 st' =>
      rw [hpulled] at hsame
      cases hsame
    | h2 st' =>
      rw [hpulled] at hsame
      refine ⟨st, st', hbody, rfl, ?_, hreturned, hsame, fun hlaw => ?_⟩
      · injection hsame with hst
        have hconn := congrArg BodyState.conn hst
        exact hconn
      · exact ended_complete_iff (body_ended hstart hbody) hlaw

/-- A response whose body is reset with NO_ERROR after its first bytes. -/
def resetResponse : H2Env where
  reads := [.frames [.beginHeaders 1, .header 1 (ascii ":status") (ascii "200"),
    .frameRecv (.headers 1 false), .dataChunk 1 (ascii "hel"), .frameRecv (.rstStream 1 0),
    .streamClose 1 0] none true]
  submits := [.ok 1]

/-- A request on a new connection, and its body read into memory. -/
def fetch (env : H2Env) : H2 × Bool × BodyState (Zlib.knowing [] []) × Option Fail :=
  let (h, resp) := (wrap env 0).begin getRequest Headers.init
  (h, resp.toOption.isSome, body h (.fresh .memory 0))

lemma fetch_begin (env : H2Env) (hok : (fetch env).2.1 = true) : ∃ resp,
    (wrap env 0).begin getRequest Headers.init = ((fetch env).1, .ok resp) := by
  unfold fetch at hok ⊢
  cases hbegin : (wrap env 0).begin getRequest Headers.init with
  | mk h res =>
    rw [hbegin] at hok
    cases res with
    | error f => cases hok
    | ok resp => exact ⟨resp, rfl⟩

/-- A reset with NO_ERROR passes for the end of the body. -/
theorem body_not_complete : ¬∀ (h₀ h : H2) (rq : H2Request) (hdrs : Headers)
    (resp : H2Response) (p : BodyPipe (Zlib.knowing [] [])) (st : BodyState (Zlib.knowing [] [])),
    h₀.begin rq hdrs = (h, .ok resp) → body h p = (st, none) → st.conn.lawful = true →
      CompleteBody p st := by
  intro hcomplete
  obtain ⟨resp, hbegin⟩ := fetch_begin resetResponse (by decide +kernel)
  have hres : (body (fetch resetResponse).1 (.fresh .memory 0) :
      BodyState (Zlib.knowing [] []) × Option Fail).2 = none := by decide +kernel
  have hend := (hcomplete _ _ _ _ _ (.fresh .memory 0) _ hbegin (Prod.ext rfl hres)
    (by decide +kernel)).ended
  revert hend
  unfold EndHeard
  decide +kernel

theorem body_complete_iff_whole :
    ∃ st : BodyState (Zlib.knowing [] []),
      body (fetch wholeResponse).1 (.fresh .memory 0) = (st, none) ∧
      st.pipe.sink.bytes = ascii "hello" ∧
      (CompleteBody (.fresh .memory 0) st ↔ ¬st.conn.ResetBeforeEnd noError) := by
  obtain ⟨resp, hbegin⟩ := fetch_begin wholeResponse (by decide +kernel)
  have hres : (body (fetch wholeResponse).1 (.fresh .memory 0) :
      BodyState (Zlib.knowing [] []) × Option Fail).2 = none := by decide +kernel
  refine ⟨_, Prod.ext rfl hres, by decide +kernel, ?_⟩
  exact (body_complete_iff hbegin).1 (.fresh .memory 0) _ (Prod.ext rfl hres) (by decide +kernel)

end H2

end Zuhttp
