import Mathlib.Data.List.Forall2
import Zuhttp.Proofs.Answered
import Zuhttp.Proofs.Reuse

/-!
# Message boundaries

A connection that is given back for another request is behind the body of a response whose
request was written in whole.
-/

namespace Zuhttp

open Prog World

variable {Z : Zlib} {α : Type}

/-! ### Message boundaries -/

/-- A connection whose next byte is the one behind the body of the response. -/
def Boundary (a : Answer) (t' : Transport) : Prop :=
  ∃ fr t seed data trailers, a.input = .h1 fr t seed ∧ fr.kind ≠ .untilClose ∧
    Framed fr (seed ++ t.unread) data trailers t'.unread

lemma BodyPipe.finish_surplus (p : BodyPipe Z) : p.finish.1.surplus = p.surplus := by
  unfold finish
  cases p.inflate with
  | none => rfl
  | some z =>
    dsimp only
    cases z.run none with
    | mk z' r =>
      obtain ⟨out, rc⟩ := r
      cases rc <;> rfl

/-- A body that is read to its end without a surplus. -/
lemma bodyRead_boundary {sink : Sink} {h h' : Headers} {noDecode : Bool} {maxBody cap : Nat}
    {p : BodyPipe Z} {t : Transport} {fr : Framing} {seed : Bytes} {st : BodyReader.State Z}
    (hpipe : BodyPipe.init sink h noDecode maxBody = .ok (p, h'))
    (hread : bodyRead t fr p seed cap = (st, none)) (hsurplus : st.pipe.surplus = 0) :
    ∃ data trailers, Framed fr (seed ++ t.unread) data trailers st.stream.unread := by
  obtain ⟨-, hraw, hnone, htrailers, -⟩ := BodyPipe.init_fresh hpipe
  obtain ⟨-, q, hend, hfinish⟩ := BodyReader.bodyRead_outcome hraw htrailers hread
  obtain ⟨data, extra, hframed, hcount, -⟩ := hend.framed
  have hsame : st.pipe.surplus = q.surplus := by
    have hkept := q.finish_surplus
    rw [hfinish] at hkept
    exact hkept
  have hextra : extra = [] := by
    rw [← List.length_eq_zero_iff]
    have hcount' : q.surplus = p.surplus + extra.length := hcount
    omega
  rw [hextra] at hframed
  exact ⟨data, _, hframed⟩

lemma settle_ok {follow : Bool} {h : Headers} {minor : Int} {st : BodyReader.State Z}
    {res : Option Fail} (hok : (settle follow h minor (.h1 st) res).reuse = .ok) :
    res = none ∧ st.pipe.surplus = 0 ∧ st.reader.fr.kind ≠ .untilClose := by
  have hreuse : reuseDecide (resultCode res) st.reader.fr h minor = .ok := by
    unfold settle at hok
    dsimp only at hok
    split_ifs at hok <;> exact hok
  obtain ⟨hrc, -, hkind⟩ := reuseDecide_eq_ok hreuse
  cases res with
  | some f => exact absurd hrc f.rc_ne
  | none =>
    refine ⟨rfl, ?_, hkind⟩
    by_contra hsurplus
    have hover : none = (none : Option Fail) ∧ (BodySource.h1 st).pipe.surplus > 0 ∧
        (BodySource.h1 st).reuse h minor (resultCode none) = .ok :=
      ⟨rfl, Nat.pos_of_ne_zero hsurplus, hreuse⟩
    have hcalm : ¬(follow = true ∧ (resultCode none = .bodyLimit ∨ resultCode none = .parse)) := by
      rintro ⟨-, hrc | hrc⟩ <;> cases hrc
    have hgoing : ¬(resultCode none = .cancelled ∧
        (BodySource.h1 st).pipe.sink.stopped = true) := by
      rintro ⟨hrc, -⟩
      cases hrc
    unfold settle at hok
    dsimp only at hok
    rw [if_neg hcalm, if_neg hgoing, if_pos hover] at hok
    cases hok

lemma settle_src {follow : Bool} {h : Headers} {minor : Int} (st : BodyReader.State Z)
    (res : Option Fail) : (settle follow h minor (.h1 st) res).src = .h1 st := by
  unfold settle
  dsimp only
  split_ifs <;> rfl

/-- A connection that is kept behind a body is at a message boundary. -/
theorem receiveBody_boundary {follow : Bool} {a : Answer} {sink : Sink} {cap : Nat}
    {noDecode : Bool} {st : BodyReader.State Z}
    (hok : (receiveBody (Z := Z) follow a.input sink a.headers a.minorVersion cap noDecode).reuse =
      .ok)
    (hsrc : (receiveBody (Z := Z) follow a.input sink a.headers a.minorVersion cap noDecode).src =
      .h1 st) : Boundary a st.stream := by
  cases hinput : a.input with
  | h2 conn =>
    have hkind := receiveBody_isH2 (Z := Z) follow a.input sink a.headers a.minorVersion cap
      noDecode
    rw [hsrc, hinput] at hkind
    cases hkind
  | h1 fr t seed =>
    rw [hinput] at hok hsrc
    unfold receiveBody at hok hsrc
    cases hinit : BodyPipe.init (Z := Z) sink a.headers noDecode cap with
    | error f =>
      rw [hinit] at hok
      obtain ⟨hnone, -⟩ := settle_ok hok
      cases hnone
    | ok r =>
      obtain ⟨p, h'⟩ := r
      rw [hinit] at hok hsrc
      have hframe := ((BodyInput.h1 fr t seed).source p cap).readAll_frame rfl
      cases hread : bodyRead t fr p seed cap with
      | mk st' res =>
        have hall : ((BodyInput.h1 fr t seed).source p cap).readAll = (.h1 st', res) :=
          congrArg (fun r => (BodySource.h1 r.1, r.2)) hread
        rw [hall] at hframe
        dsimp only at hok hsrc
        rw [hall] at hok hsrc
        rw [settle_src] at hsrc
        cases hsrc
        obtain ⟨rfl, hsurplus, hkind⟩ := settle_ok hok
        have hfr : st.reader.fr = fr := Option.some.inj hframe
        obtain ⟨data, trailers, hframed⟩ := bodyRead_boundary hinit hread hsurplus
        exact ⟨fr, t, seed, data, trailers, hinput, hfr ▸ hkind, hframed⟩

/-! ### Bodies that are pulled -/

namespace OpenBody

lemma release_mem {b : OpenBody Z} {r : Reuse} (hr : r ≠ .ok)
    (h : Reuse.ok ∈ (b.release r).released) : Reuse.ok ∈ b.released := by
  unfold release at h
  split_ifs at h
  · rcases List.mem_append.mp h with h | h
    · exact h
    · exact absurd (List.mem_singleton.mp h).symm hr
  · exact h

lemma abort_mem {b : OpenBody Z} (hplain : b.src.frame.isSome = true)
    (h : Reuse.ok ∈ b.abort.released) : Reuse.ok ∈ b.released := by
  unfold abort at h
  split_ifs at h
  · exact h
  · cases hsrc : b.src with
    | h2 st =>
      rw [hsrc] at hplain
      cases hplain
    | h1 st =>
      rw [hsrc] at h
      dsimp only at h
      have hin := release_mem (by decide) h
      exact hin

lemma free_mem {b : OpenBody Z} (hplain : b.src.frame.isSome = true)
    (h : Reuse.ok ∈ b.free.released) : Reuse.ok ∈ b.released :=
  abort_mem hplain (release_mem (by decide) h)

lemma Pulled.plain {b₀ b : OpenBody Z} {out : Bytes} (h : Pulled b₀ b out)
    (hplain : b₀.src.frame.isSome = true) : b.src.frame.isSome = true := by
  obtain ⟨q, given, hsteps, hfollows, -⟩ := h.reached
  have hsame : b.src.clear = q.clear := hfollows.same
  have hclear : ∀ src : BodySource Z, src.clear.frame = src.frame := by
    intro src
    cases src <;> rfl
  rw [← hclear, hsame, hclear, BodySource.steps_frame hsteps]
  exact hplain

/-- A body whose connection was kept is neither failed nor aborted. -/
lemma calls_kept {b₀ b : OpenBody Z} {out : Bytes} (cs : List Call) (h : Pulled b₀ b out)
    (hplain : b₀.src.frame.isSome = true) (hok : Reuse.ok ∈ (b.calls cs).released) :
    ∃ out', Pulled b₀ (b.calls cs) out' := by
  induction cs generalizing b out with
  | nil => exact ⟨out, h⟩
  | cons c cs ih =>
    cases c with
    | read n =>
      cases hread : b.read n with
      | mk b' res =>
        have hcall : b.call (.read n) = b' := congrArg Prod.fst hread
        have hcalls : b.calls (.read n :: cs) = b'.calls cs := congrArg (·.calls cs) hcall
        have hpulled := read_pulled h hread
        rw [hcalls] at hok ⊢
        cases res with
        | error f =>
          rw [calls_over (Or.inl hpulled.failed)] at hok
          obtain ⟨r, hr, hreleased⟩ := hpulled.released
          rw [hreleased, List.mem_singleton] at hok
          exact absurd hok.symm hr
        | ok more => exact ih hpulled.1 hok
    | abort =>
      have hcalls : b.calls (.abort :: cs) = b.abort.calls cs := rfl
      rw [hcalls] at hok ⊢
      cases hended : b.ended with
      | false =>
        rw [calls_over (abort_over hended)] at hok
        have hin := abort_mem (h.plain hplain) hok
        rw [h.released, hended] at hin
        cases hin
      | true =>
        have hsame : b.abort = b := if_pos (Or.inl hended)
        rw [hsame] at hok ⊢
        exact ih h hok

end OpenBody

namespace OpenBody

lemma pullStep_frame (b : OpenBody Z) : b.pullStep.1.src.frame = b.src.frame := by
  have hframe : b.src.clear.step.1.frame = b.src.frame := by
    rw [BodySource.step_frame, OpenBody.clear_frame]
  unfold pullStep
  dsimp only
  cases hstep : b.src.clear.step with
  | mk src f =>
    rw [hstep] at hframe
    cases f with
    | some f =>
      dsimp only
      unfold release
      split_ifs <;> exact hframe
    | none =>
      dsimp only
      unfold release
      split_ifs <;> exact hframe

lemma read_frame (b : OpenBody Z) (n : Nat) : (b.read n).1.src.frame = b.src.frame := by
  have hfill : (Loop.iterate pullStep ready b.src.fuel b).1.src.frame = b.src.frame :=
    Loop.iterate_keeps (P := fun b' : OpenBody Z => b'.src.frame = b.src.frame)
      (fun s hs => (pullStep_frame s).trans hs) rfl b.src.fuel
  unfold read
  split_ifs
  · rfl
  · rfl
  · cases hrun : Loop.iterate pullStep ready b.src.fuel b with
    | mk b' res =>
      rw [hrun] at hfill
      cases res <;> exact hfill

lemma abort_frame (b : OpenBody Z) : b.abort.src.frame = b.src.frame := by
  unfold abort
  split_ifs
  · rfl
  · dsimp only
    split
    · unfold release
      split_ifs <;> rfl
    · next hsrc =>
      unfold release
      rw [hsrc]
      split_ifs <;> rfl

lemma calls_frame (b : OpenBody Z) (cs : List Call) : (b.calls cs).src.frame = b.src.frame := by
  induction cs generalizing b with
  | nil => rfl
  | cons c cs ih =>
    cases c with
    | read n => exact (ih _).trans (read_frame b n)
    | abort => exact (ih _).trans (abort_frame b)

end OpenBody

/-- A connection that is kept behind a body that the caller read is at a message boundary. -/
theorem openBody_boundary {a : Answer} {cap : Nat} {noDecode : Bool} {b : OpenBody Z}
    {h' : Headers} {cs : List OpenBody.Call} {st : BodyReader.State Z}
    (hnew : OpenBody.new a.input a.headers a.minorVersion cap noDecode = .ok (b, h'))
    (hok : Reuse.ok ∈ (b.calls cs).free.released) (hsrc : (b.calls cs).src = .h1 st) :
    Boundary a st.stream := by
  obtain ⟨hopened, hbuffered⟩ := OpenBody.new_eq_ok hnew
  have hplain : b.src.frame.isSome = true := by
    rw [← OpenBody.calls_frame b cs, hsrc]
    rfl
  have hin := OpenBody.free_mem (by rw [hsrc]; rfl) hok
  obtain ⟨out, hpulled⟩ := OpenBody.calls_kept cs hopened.start hplain hin
  rw [hpulled.released] at hin
  split_ifs at hin with hended
  · obtain ⟨q, given, hsteps, hfollows, -, hdone⟩ := hpulled.reached
    have hall := BodySource.readAll_of_done hopened.going hsteps (hdone.symm.trans hended)
    have hmemory := OpenBody.settle_memory h' a.minorVersion b.src.readAll.2
      (BodySource.readAll_memory hopened.going hopened.memory)
    rw [← hbuffered, hall] at hmemory
    have hreuse := OpenBody.reuse_eq hopened hsteps hfollows.same hpulled.verdict
    rw [← List.mem_singleton.mp hin] at hreuse
    have hmemory' : receiveBody false a.input Sink.memory a.headers a.minorVersion cap noDecode =
        ⟨q, h', none, .ok⟩ := by
      rw [hmemory]
      simp only [resultCode, true_and]
      rw [← hreuse]
    have hsame : (b.calls cs).src.clear = q.clear := hfollows.same
    rw [hsrc] at hsame
    cases q with
    | h2 st' => cases hsame
    | h1 st' =>
      have hstream : st.stream = st'.stream := by
        injection hsame with hst
        have hstream := congrArg BodyReader.State.stream hst
        exact hstream
      rw [hstream]
      exact receiveBody_boundary (congrArg Received.reuse hmemory')
        (congrArg Received.src hmemory')
  · cases hin

/-! ### The runs -/

/-- A connection that is given back for another request is behind the body of a response. -/
def AtBoundary (answered : List Answer) (p : Pooled) : Prop :=
  p.reuse = .ok → ∀ t, p.stream.conn = .h1 t → ∃ a ∈ answered, Boundary a t

/-- An unread body of a response, as it was opened. -/
def Opens (call : Call) (answered : List Answer) (o : Held Z) : Prop :=
  ∃ a ∈ answered, o.stream.conn.isH2 = a.input.isH2 ∧
    ∃ h, OpenBody.new a.input a.headers a.minorVersion (bodyCap call.opts false)
      (call.opts.noDecode || a.bodiless) = .ok (o.body, h)

/-- The responses of a run answer the requests `front`. -/
structure Matched (call : Call) (front : List Sent) (w : World Z) : Prop where
  asked : List.Forall₂ Asked front w.answered
  pooled : ∀ p ∈ w.pooled, AtBoundary w.answered p
  opens : ∀ o, w.result.openBody = some o → Opens call w.answered o

/-- Every request but for the last `n` has its response, and `as` are among these. -/
def Upto (call : Call) (n : Nat) (as : List Answer) (w : World Z) : Prop :=
  (∃ front more, w.sent = front ++ more ∧ more.length ≤ n ∧ Matched call front w) ∧
    as ⊆ w.answered

variable {call : Call} {env : Env} {c : Chain} {px : Proxy} {s : Stream} {a : Answer} {n : Nat}
  {front : List Sent} {as : List Answer} {w w' : World Z}

lemma AtBoundary.mono {bs : List Answer} {p : Pooled} (h : AtBoundary as p) (hsub : as ⊆ bs) :
    AtBoundary bs p := by
  intro hok t ht
  obtain ⟨a, ha, hboundary⟩ := h hok t ht
  exact ⟨a, hsub ha, hboundary⟩

lemma Matched.of_eq (h : Matched call front w) (hanswered : w'.answered = w.answered)
    (hpooled : w'.pooled = w.pooled) (hopen : w'.result.openBody = w.result.openBody) :
    Matched call front w' where
  asked := hanswered ▸ h.asked
  pooled := by
    rw [hanswered, hpooled]
    exact h.pooled
  opens := by
    rw [hanswered, hopen]
    exact h.opens

namespace Upto

lemma of_eq (h : Upto call n as w) (hsent : w'.sent = w.sent)
    (hanswered : w'.answered = w.answered) (hpooled : w'.pooled = w.pooled)
    (hopen : w'.result.openBody = w.result.openBody) : Upto call n as w' := by
  obtain ⟨⟨front, more, hfront, hlen, hw⟩, has⟩ := h
  exact ⟨⟨front, more, hsent.trans hfront, hlen, hw.of_eq hanswered hpooled hopen⟩,
    hanswered ▸ has⟩

lemma whole (h : Upto call 0 as w) : Matched call w.sent w := by
  obtain ⟨⟨front, more, hsent, hlen, hw⟩, -⟩ := h
  rw [hsent, List.length_eq_zero_iff.mp (Nat.le_zero.mp hlen), List.append_nil]
  exact hw

lemma onHost (m : HostProg α) : Keeps (Upto (Z := Z) call n as) (World.onHost m) :=
  Keeps.zoom (fun _ _ hw => hw.of_eq rfl rfl rfl rfl)

lemma setResult {f : Result Z → Result Z} (h : ∀ r, (f r).openBody = r.openBody) :
    Keeps (Upto call n as) (World.setResult f) :=
  Keeps.modify (fun w hw => hw.of_eq rfl rfl rfl (h w.result))

lemma pool (h : Upto call n as w) {key : PoolKey} {r : Reuse} (hs : AtBoundary as ⟨key, s, r⟩) :
    Upto call n as (w.pool key s r) := by
  obtain ⟨⟨front, more, hsent, hlen, hw⟩, has⟩ := h
  refine ⟨⟨front, more, hsent, hlen, hw.asked, fun p hp => ?_, hw.opens⟩, has⟩
  rcases List.mem_append.mp hp with hp | hp
  · exact hw.pooled p hp
  · rw [List.mem_singleton.mp hp]
    exact hs.mono has

lemma drop (h : Upto call n as w) (s : Stream) : Upto call n as (w.drop s) :=
  h.of_eq rfl rfl rfl rfl

/-- A hop that got no response. -/
lemma of_asksOnce {w₀ : World Z} (h₀ : Upto call 0 [] w₀) (h : AsksOnce w₀.rest w₀.sent w) :
    Upto call 1 [] w := by
  obtain ⟨hrest, more, hsent, hlen⟩ := h
  exact ⟨⟨w₀.sent, more, hsent, hlen, h₀.whole.of_eq (congrArg Standing.answered hrest)
    (congrArg Standing.pooled hrest) (congrArg Standing.openBody hrest)⟩, List.nil_subset _⟩

/-- A hop that got its response. -/
lemma of_asks {w₀ : World Z} (h₀ : Upto call 0 [] w₀)
    (h : Asks w₀.rest w₀.sent (fun r => Asked r a) w) :
    Upto call 0 [a] { w with answered := w.answered ++ [a] } := by
  obtain ⟨hrest, r, hsent, hr⟩ := h
  have hanswered : w.answered = w₀.answered := congrArg Standing.answered hrest
  have hpooled : w.pooled = w₀.pooled := congrArg Standing.pooled hrest
  have hopen : w.result.openBody = w₀.result.openBody := congrArg Standing.openBody hrest
  refine ⟨⟨w₀.sent ++ [r], [], hsent.trans (List.append_nil _).symm, Nat.zero_le _, ?_,
    fun p hp => ?_, fun o ho => ?_⟩, List.subset_append_right _ _⟩
  · dsimp only
    rw [hanswered]
    exact List.rel_append h₀.whole.asked (.cons hr .nil)
  · have hp₀ : AtBoundary w.answered p := hanswered ▸ h₀.whole.pooled p (hpooled ▸ hp)
    exact hp₀.mono (List.subset_append_left _ _)
  · obtain ⟨b, hb, hopened⟩ := h₀.whole.opens o (hopen ▸ ho)
    exact ⟨b, List.mem_append_left _ (hanswered ▸ hb), hopened⟩

lemma forget (h : Upto call 0 as w) : Upto call 0 [] w := ⟨h.1, List.nil_subset _⟩

lemma late (h : Upto call n as w) (hn : n ≤ 1) : Upto call 1 [] w := by
  obtain ⟨⟨front, more, hsent, hlen, hw⟩, -⟩ := h
  exact ⟨⟨front, more, hsent, hlen.trans hn, hw⟩, List.nil_subset _⟩

end Upto

/-- A connection is given back, at a boundary where it is kept. -/
lemma doneWithStream_upto (opts : PerformOpts) (u : Uri) (px : Proxy) {r : Reuse}
    (hs : ∀ key, AtBoundary as ⟨key, s, r⟩) :
    Keeps (Upto (Z := Z) call n as) (doneWithStream opts u px s r) := by
  refine (Upto.onHost _).bind (fun key => ?_)
  cases key with
  | none => exact Keeps.modify (fun w hw => hw.drop s)
  | some key => exact Keeps.modify (fun w hw => hw.pool (hs key))

/-! ### Receiving -/

lemma reportBody_upto (follow : Bool) (p : BodyPipe Z) :
    Keeps (Upto (Z := Z) call n as) (reportBody follow p) := by
  refine Keeps.ite (Keeps.pure _) ?_
  exact Keeps.bind (Upto.setResult (fun _ => rfl)) (fun _ => Upto.onHost _)

lemma takeBody_upto (follow : Bool) (failure : Option Fail) {got : Received Z}
    (hkept : got.reuse = .ok → ∀ st, got.src = .h1 st → Boundary a st.stream) :
    Keeps (Upto call n [a]) (takeBody call c px s follow failure got) := by
  refine (Upto.onHost _).bind (fun _ => Keeps.bind (Keeps.modify (fun w hw => ?_)) (fun _ =>
    (reportBody_upto _ _).bind (fun _ => (doneWithStream_upto _ _ _ (fun key hok t ht => ?_)).bind
      (fun _ => ?_))))
  · split_ifs <;> exact hw.of_eq rfl rfl rfl rfl
  · refine ⟨a, List.mem_singleton_self a, ?_⟩
    cases hsrc : got.src with
    | h1 st =>
      rw [hsrc] at ht
      obtain rfl := Conn.h1.inj ht
      exact hkept hok st hsrc
    | h2 st =>
      rw [hsrc] at ht
      cases ht
  · cases got.res with
    | none => exact Keeps.pure _
    | some f => exact Keeps.throw _

lemma noPipe_reuse {follow : Bool} {sink : Sink} {cap : Nat} {st : BodyReader.State Z}
    (hok : (noPipe (Z := Z) follow a sink cap).reuse = .ok)
    (hsrc : (noPipe (Z := Z) follow a sink cap).src = .h1 st) : False := by
  unfold noPipe at hok hsrc
  cases hinput : a.input with
  | h1 fr t seed =>
    rw [hinput] at hok
    cases (settle_ok hok).1
  | h2 conn =>
    have hkind := settle_isH2 follow a.headers a.minorVersion
      (a.input.source (BodyPipe.fresh (Z := Z) sink cap) cap) (some (Fail.bare .nomem))
    rw [hsrc, hinput] at hkind
    cases hkind

lemma readBody_upto (follow : Bool) :
    Keeps (Upto (Z := Z) call n [a]) (readBody env call c px s a follow) := by
  refine Keeps.get.bind (fun w => (Upto.onHost _).bind (fun room => Keeps.ite ?_ ?_))
  · exact takeBody_upto _ _ (fun hok st hsrc => receiveBody_boundary hok hsrc)
  · exact takeBody_upto _ _ (fun hok st hsrc => (noPipe_reuse hok hsrc).elim)

lemma failedReuse_boundary {key : PoolKey} {f : Fail} (hkind : s.conn.isH2 = a.input.isH2) :
    AtBoundary as ⟨key, s, a.input.failedReuse a.headers a.minorVersion f.rc⟩ := by
  intro hok t ht
  exfalso
  rw [show s.conn = .h1 t from ht] at hkind
  cases hinput : a.input with
  | h1 fr t' seed =>
    rw [hinput] at hok
    exact f.rc_ne (reuseDecide_eq_ok hok).1
  | h2 conn =>
    rw [hinput] at hkind
    cases hkind

lemma holdBody_upto (hkind : s.conn.isH2 = a.input.isH2) :
    Keeps (Upto (Z := Z) call n [a]) (holdBody call c px s a) := by
  refine (Upto.onHost _).bind (fun memory => ?_)
  cases hnew : openBodyNew (Z := Z) memory a (bodyCap call.opts false)
      (call.opts.noDecode || a.bodiless) with
  | error f =>
    exact (Upto.onHost _).bind (fun _ => (Upto.onHost _).bind (fun _ =>
      (doneWithStream_upto _ _ _ (fun _ => failedReuse_boundary hkind)).bind
        (fun _ => Keeps.throw _)))
  | ok r =>
    cases memory with
    | some f => cases hnew
    | none =>
      refine (Upto.onHost _).bind (fun key => Keeps.bind (Keeps.modify (fun w hw => ?_))
        (fun _ => Keeps.pure _))
      obtain ⟨⟨front, more, hsent, hlen, hw⟩, has⟩ := hw
      refine ⟨⟨front, more, hsent, hlen, hw.asked, hw.pooled, fun o ho => ?_⟩, has⟩
      obtain rfl := Option.some.inj ho
      exact ⟨a, has (List.mem_singleton_self a), hkind, r.2, hnew⟩

lemma receive_upto (hkind : s.conn.isH2 = a.input.isH2) :
    Keeps (Upto (Z := Z) call n [a]) (receive env call c px s a) :=
  Keeps.get.bind (fun _ => Keeps.ite (holdBody_upto hkind) (readBody_upto _))

/-! ### The loop -/

lemma flushHeld_upto (c : Chain) : Keeps (Upto (Z := Z) call n as) (flushHeld c) := by
  refine Triple.reading (fun w hw => ?_)
  cases w.sink with
  | none => exact Keeps.pure _
  | some sink =>
    dsimp only
    generalize sink.write w.result.body = written
    obtain ⟨sink', f⟩ := written
    refine Keeps.ite (Keeps.pure _) ?_
    refine Keeps.bind (Keeps.set (hw.of_eq rfl rfl rfl rfl)) (fun _ => ?_)
    cases f with
    | none => exact Keeps.pure _
    | some f => exact Upto.onHost _

lemma followOrFinish_upto (c : Chain) :
    Keeps (Upto (Z := Z) call n as) (followOrFinish env call c) := by
  refine Keeps.get.bind (fun w => Keeps.ite (flushHeld_upto c) ?_)
  cases w.result.headers.get (ascii "Location") with
  | none => exact Keeps.pure _
  | some loc =>
    refine (Upto.onHost _).bind (fun next => ?_)
    cases next with
    | none => exact flushHeld_upto c
    | some c' =>
      refine Keeps.bind (Upto.setResult (fun _ => rfl)) (fun _ => ?_)
      refine (Upto.onHost _).bind (fun _ => ?_)
      refine Keeps.bind (Upto.setResult (fun _ => rfl)) (fun _ => ?_)
      exact (Upto.onHost _).bind (fun _ => Keeps.pure _)

lemma headless_boundary {key : PoolKey} {rc : Code} :
    AtBoundary as ⟨key, s, s.conn.failedReuse rc⟩ := by
  intro hok t ht
  rw [show s.conn = .h1 t from ht] at hok
  exact absurd rfl (reuseDecide_eq_ok hok).2.2

/-- One pass of the loop. -/
theorem hop_upto (env : Env) (call : Call) (c : Chain) :
    Triple (Upto (Z := Z) call 0 []) (hop env call c) (fun _ => Upto call 0 [])
      (fun _ => Upto call 1 []) := by
  refine Triple.bind ((Upto.onHost _).conseq (fun _ hw => hw) (fun _ _ hw => hw)
    (fun _ _ hw => hw.late (Nat.zero_le 1))) (fun px => ?_)
  refine Triple.fixed (fun w₀ h₀ => ?_)
  refine Triple.bind ((exchange_replied (v := w₀.rest) (L := w₀.sent) env call c px).conseq
    (fun _ hw => hw ▸ ⟨rfl, rfl⟩) (fun _ _ hw => hw) (fun _ _ hw => Upto.of_asksOnce h₀ hw))
    (fun ex => ?_)
  unfold Replied
  cases ex.answer with
  | error rc =>
    refine Triple.conseq (P := Upto call 1 []) ?_ (fun _ hw => Upto.of_asksOnce h₀ hw)
      (fun _ _ hw => hw) (fun _ _ hw => hw)
    refine Triple.bind (M := fun _ => Upto call 1 [])
      (doneWithStream_upto _ _ _ (fun _ => headless_boundary))
      (fun _ => Triple.throw (fun _ hw => hw))
  | ok a =>
    refine Triple.assuming (fun hkind => ?_)
    refine Triple.bind (M := fun _ => Upto call 0 [a])
      (Triple.modify (fun w hw => Upto.of_asks h₀ hw)) (fun _ => ?_)
    refine Triple.conseq (P := Upto call 0 [a]) (Q := fun _ => Upto call 0 [a])
      (R := fun _ => Upto call 0 [a]) ?_ (fun _ hw => hw) (fun _ _ hw => hw.forget)
      (fun _ _ hw => hw.late (Nat.zero_le 1))
    exact (receive_upto hkind).bind (fun h =>
      Keeps.bind (Upto.setResult (fun _ => rfl)) (fun _ => followOrFinish_upto c))

theorem hops_upto (n : Nat) (c : Chain) :
    Triple (Upto (Z := Z) call 0 []) (hops env call n c) (fun _ => Upto call 0 [])
      (fun _ => Upto call 1 []) := by
  induction n generalizing c with
  | zero => exact Triple.throw (fun _ hw => hw.late (Nat.zero_le 1))
  | succ n ih =>
    refine Triple.bind (hop_upto env call c) (fun e => ?_)
    cases e with
    | follow c' => exact ih c'
    | finish c' => exact Triple.pure (fun _ hw => hw)

/-! ### Whole runs -/

lemma OpenBody.new_released {input : BodyInput} {h h' : Headers} {minor : Int} {cap : Nat}
    {noDecode : Bool} {b : OpenBody Z} (hnew : new input h minor cap noDecode = .ok (b, h')) :
    b.released = [] := by
  unfold new at hnew
  cases hinit : BodyPipe.init (Z := Z) Sink.memory h noDecode cap with
  | error f =>
    rw [hinit] at hnew
    cases hnew
  | ok r =>
    rw [hinit] at hnew
    cases hnew
    rfl

/-- The connection of a body that was not read is closed. -/
lemma Opens.closed {answered : List Answer} {o : Held Z} (h : Opens call answered o) {key : PoolKey}
    {r : Reuse} (hr : o.body.free.released.getLast? = some r) :
    AtBoundary as ⟨key, o.stream, r⟩ := by
  intro hok t ht
  exfalso
  obtain ⟨a, -, hkind, h', hnew⟩ := h
  obtain ⟨hopened, -⟩ := OpenBody.new_eq_ok hnew
  rw [show o.stream.conn = .h1 t from ht] at hkind
  cases hinput : a.input with
  | h2 conn =>
    rw [hinput] at hkind
    cases hkind
  | h1 fr t' seed =>
    have hplain : o.body.src.frame.isSome = true := by
      rw [hopened.frame, hinput]
      rfl
    have hin := OpenBody.free_mem hplain (List.mem_of_getLast? (hok ▸ hr))
    rw [OpenBody.new_released hnew] at hin
    cases hin

namespace Upto

lemma closeOpen {o : Held Z} (h : Upto call n [] w)
    (ho : ∀ key r, o.body.free.released.getLast? = some r → AtBoundary [] ⟨key, o.stream, r⟩) :
    Upto call n [] (w.closeOpen o) := by
  unfold World.closeOpen
  split
  · next r key hr hkey => exact h.pool (ho key r hr)
  · exact h.drop _

/-- Freeing the result closes the connection of an unread body. -/
lemma freeResult (h : Upto call n [] w) : Upto call n [] w.freeResult := by
  obtain ⟨⟨front, more, hsent, hlen, hw⟩, has⟩ := h
  have hcleared : Upto call n [] ({ w with result := {} } : World Z) :=
    ⟨⟨front, more, hsent, hlen, hw.asked, hw.pooled, fun _ ho => (by cases ho)⟩, has⟩
  unfold World.freeResult
  cases ho : w.result.openBody with
  | none => exact hcleared
  | some o =>
    have hclosed := hcleared.closeOpen (fun _ _ hr => (hw.opens o ho).closed hr)
    dsimp only
    unfold World.freeOpen
    split_ifs
    · exact hclosed.of_eq rfl rfl rfl rfl
    · exact hclosed

end Upto

lemma performHops_upto (env : Env) (call : Call) :
    Triple (Upto (Z := Z) call 0 []) (performHops env call) (fun _ => Upto call 0 [])
      (fun _ => Upto call 1 []) := by
  refine Triple.onFailure (D := fun _ => Upto call 1 []) ?_ (fun _ w hw => hw.freeResult)
  have hlate : ∀ (_ : Code) (w : World Z), Upto call 0 [] w → Upto call 1 [] w :=
    fun _ _ hw => hw.late (Nat.zero_le 1)
  refine Triple.bind (M := fun _ => Upto call 0 []) (Triple.modify (fun w hw => ?_)) (fun _ => ?_)
  · obtain ⟨⟨front, more, hsent, hlen, hw⟩, has⟩ := hw
    exact ⟨⟨front, more, hsent, hlen, hw.asked, hw.pooled, fun _ ho => (by cases ho)⟩, has⟩
  refine Triple.bind ((Upto.onHost _).conseq (fun _ hw => hw) (fun _ _ hw => hw) hlate)
    (fun _ => Triple.reading (fun w _ => ?_))
  refine Triple.bind ((Upto.onHost _).conseq (fun _ hw => hw) (fun _ _ hw => hw) hlate)
    (fun c => Triple.bind (hops_upto _ c) (fun c' => ?_))
  refine Triple.conseq (P := Upto call 0 []) (Q := fun _ => Upto call 0 [])
    (R := fun _ => Upto call 0 []) ?_ (fun _ hw => hw) (fun _ _ hw => hw) hlate
  refine Keeps.get.bind (fun w => (Upto.onHost _).bind (fun _ => (Upto.onHost _).bind
    (fun url => ?_)))
  cases url with
  | none => exact Keeps.throw _
  | some url => exact Upto.setResult (fun _ => rfl)

theorem perform_upto (env : Env) (call : Call) :
    Triple (Upto (Z := Z) call 0 []) (perform env call) (fun _ => Upto call 0 [])
      (fun _ => Upto call 1 []) := by
  refine Triple.bind (M := fun _ => Upto call 0 []) ((Upto.onHost _).conseq (fun _ hw => hw)
    (fun _ _ hw => hw) (fun _ _ hw => hw.late (Nat.zero_le 1))) (fun _ => ?_)
  refine Triple.bind (Triple.attempt (performHops_upto env call)) (fun res => ?_)
  have hreleased : ∀ {n : Nat} (w : World Z), Upto call n [] w →
      Upto call n [] (releaseSource w) := by
    intro n w hw
    unfold releaseSource
    split_ifs
    · exact hw.of_eq rfl rfl rfl rfl
    · exact hw
  cases res with
  | ok _ =>
    exact Triple.bind (M := fun _ => Upto call 0 []) (Triple.modify (fun w hw => hreleased w hw))
      (fun _ => Triple.pure (fun _ hw => hw))
  | error rc =>
    refine Triple.bind (M := fun _ => Upto call 1 []) (Triple.modify (fun w hw => hreleased w hw))
      (fun _ => ?_)
    exact Triple.bind (M := fun _ => Upto call 1 []) (Upto.onHost _)
      (fun _ => Triple.throw (fun _ hw => hw))

/-- The responses of a call and their requests. -/
lemma perform_matched (env : Env) (call : Call) (host : Host) (next release : Bool)
    (answers : List (Except Fail Bytes)) (sink : Option Sink) :
    let w := (exec (perform (Z := Z) env call) (World.start host next release answers sink)).2
    ∃ front more, w.sent = front ++ more ∧ more.length ≤ 1 ∧ Matched call front w := by
  have hstart : Upto call 0 [] (World.start (Z := Z) host next release answers sink) := by
    refine ⟨⟨[], [], rfl, Nat.zero_le _, .nil, fun p hp => ?_, fun o ho => ?_⟩, List.nil_subset _⟩
    · cases hp
    · cases ho
  have hends := perform_upto env call _ hstart
  intro w
  cases hrun : exec (perform (Z := Z) env call) (World.start host next release answers sink) with
  | mk res w' =>
    rw [hrun] at hends
    have hw : w = w' := congrArg Prod.snd hrun
    rw [hw]
    cases res with
    | ok _ =>
      have hend : Upto call 0 [] w' := hends
      exact (hend.late (Nat.zero_le 1)).1
    | error rc =>
      have hend : Upto call 1 [] w' := hends
      exact hend.1

/-- A request over HTTP/1.1 that was written with its body. -/
def Sent.Whole (r : Sent) : Prop :=
  r.h2 = false ∧ ∃ head, exec r.rq.write (Buffer.init wireMax) = (.ok (), head) ∧
    r.wrote = some (head.data ++ r.content)

lemma forall₂_zip {R : Sent → Answer → Prop} {rs : List Sent} {as : List Answer} (more : List Sent)
    (h : List.Forall₂ R rs as) {a : Answer} (ha : a ∈ as) :
    ∃ r, (r, a) ∈ (rs ++ more).zip as ∧ R r a := by
  induction h with
  | nil => cases ha
  | cons hr _ ih =>
    rcases List.mem_cons.mp ha with rfl | ha
    · exact ⟨_, List.mem_cons_self, hr⟩
    · obtain ⟨r, hmem, hr'⟩ := ih ha
      exact ⟨r, List.mem_cons_of_mem _ hmem, hr'⟩

/-- Behind the body of a response whose request was written with its own. -/
def BehindBody (w : World Z) (t : Transport) : Prop :=
  ∃ r a, (r, a) ∈ w.sent.zip w.answered ∧ r.Whole ∧ Boundary a t

/-- A connection that is kept for another request stands where the next response begins, whether
its body was read by the call or by the caller. -/
theorem perform_boundary (env : Env) (call : Call) (host : Host) (next release : Bool)
    (answers : List (Except Fail Bytes)) (sink : Option Sink) :
    let w := (exec (perform (Z := Z) env call) (World.start host next release answers sink)).2
    (∀ p ∈ w.pooled, p.reuse = .ok → ∀ t, p.stream.conn = .h1 t → BehindBody w t) ∧
      ∀ o, w.result.openBody = some o → ∀ cs st, (o.body.calls cs).src = .h1 st →
        Reuse.ok ∈ (o.body.calls cs).free.released → BehindBody w st.stream := by
  intro w
  obtain ⟨front, more, hsent, -, hw⟩ := perform_matched env call host next release answers sink
  obtain ⟨⟨⟨cs, hlog⟩, -⟩, -⟩ := perform_tells (Z := Z) env call host next release answers sink
  change w.sent = front ++ more at hsent
  have hbehind : ∀ a ∈ w.answered, ∀ t, Boundary a t → BehindBody w t := by
    intro a ha t hboundary
    obtain ⟨r, hmem, hasked⟩ := forall₂_zip more hw.asked ha
    rw [← hsent] at hmem
    refine ⟨r, a, hmem, ?_, hboundary⟩
    obtain ⟨fr, t', seed, -, -, hinput, -⟩ := hboundary
    unfold Asked at hasked
    rw [hinput] at hasked
    obtain ⟨hh1, hwrote⟩ := hasked
    obtain ⟨i, hi⟩ := List.getElem?_of_mem (List.of_mem_zip hmem).1
    obtain ⟨c, -, hrecords⟩ := hlog.records i r hi
    obtain ⟨head, hwrite, hbytes⟩ := hrecords.written hh1
    obtain ⟨bytes, hsome⟩ := Option.isSome_iff_exists.mp hwrote
    exact ⟨hh1, head, hwrite, hsome.trans (congrArg some (hbytes bytes hsome))⟩
  constructor
  · intro p hp hok t ht
    obtain ⟨a, ha, hboundary⟩ := hw.pooled p hp hok t ht
    exact hbehind a ha t hboundary
  · intro o ho cs st hsrc hok
    obtain ⟨a, ha, -, h', hnew⟩ := hw.opens o ho
    exact hbehind a ha _ (openBody_boundary hnew hok hsrc)

lemma twoByteReply_fits : ascii "HTTP/1.1 200 OK\r\nContent-Length: 2\r\n\r\nok" ≠ [] ∧
    (ascii "HTTP/1.1 200 OK\r\nContent-Length: 2\r\n\r\nok").length ≤ readChunk := by
  decide +kernel

/-- A server that redirects to another path with a body in chunks. -/
def chunkedMoveEnv : Env where
  uri := .known [(ascii "http://a/", .http "a" "/" lower_a), (ascii "/b", .http "a" "/b" lower_a)]
  hop n := .plain [if n = 0 then
      .text ("HTTP/1.1 302 Found\r\nLocation: /b\r\nTransfer-Encoding: chunked\r\n\r\n" ++
        "2\r\nhi\r\n0\r\n\r\n")
    else .text "HTTP/1.1 200 OK\r\nContent-Length: 2\r\n\r\nok" twoByteReply_fits]

def poolingCall : Call where
  url := ascii "http://a/"
  opts := { pool := true, streamBody := true }

def poolingRun : Except Code Unit × World (Zlib.knowing [] []) :=
  exec (perform chunkedMoveEnv poolingCall) (World.start {} false false [] none)

def BodySource.h1Stream : BodySource Z → Option Transport
  | .h1 st => some st.stream
  | .h2 _ => none

lemma poolingRun_pooled :
    poolingRun.2.pooled.map (fun p => (p.reuse, p.stream.conn.isH2)) = [(.ok, false)] ∧
      poolingRun.2.result.openBody.map (fun o =>
        ((o.body.calls [.read 5]).src.h1Stream.isSome, (o.body.calls [.read 5]).free.released)) =
          some (true, [.ok]) := by decide +kernel

/-- The connection of the redirect goes to the pool, that of the result after a read of its
body. -/
theorem perform_boundary_pooled :
    (∃ p t, poolingRun.2.pooled = [p] ∧ p.stream.conn = .h1 t ∧ BehindBody poolingRun.2 t) ∧
      ∃ o st, poolingRun.2.result.openBody = some o ∧ (o.body.calls [.read 5]).src = .h1 st ∧
        BehindBody poolingRun.2 st.stream := by
  obtain ⟨hpooled, hopen⟩ := poolingRun_pooled
  obtain ⟨hbehind, hread⟩ := perform_boundary (Z := Zlib.knowing [] []) chunkedMoveEnv poolingCall
    {} false false [] none
  unfold poolingRun at hpooled hopen ⊢
  generalize exec (perform (Z := Zlib.knowing [] []) chunkedMoveEnv poolingCall)
    (World.start {} false false [] none) = run at hpooled hopen hbehind hread ⊢
  constructor
  · obtain ⟨p, ps, hps, hp, hnone⟩ := List.map_eq_cons_iff.mp hpooled
    rw [List.map_eq_nil_iff] at hnone
    rw [hnone] at hps
    obtain ⟨hreuse, hh1⟩ := Prod.mk.inj hp
    cases hconn : p.stream.conn with
    | h2 h =>
      rw [hconn] at hh1
      cases hh1
    | h1 t =>
      have hmem : p ∈ run.2.pooled := by
        rw [hps]
        exact List.mem_singleton_self p
      exact ⟨p, t, hps, hconn, hbehind p hmem hreuse t hconn⟩
  · obtain ⟨o, ho, hsame⟩ := Option.map_eq_some_iff.mp hopen
    obtain ⟨hstream, hreleased⟩ := Prod.mk.inj hsame
    cases hsrc : (o.body.calls [.read 5]).src with
    | h2 st =>
      rw [hsrc] at hstream
      cases hstream
    | h1 st =>
      refine ⟨o, st, ho, hsrc, hread o ho _ st hsrc ?_⟩
      rw [hreleased]
      exact List.mem_singleton_self _

end Zuhttp
