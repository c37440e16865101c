import Zuhttp.Proofs.Chain
import Zuhttp.Proofs.Exchange

/-!
# The hops of a run

What the body of a hop changes, what one pass of the loop leads to, and what a run has come
to when it ends.
-/

namespace Zuhttp

open Prog World

variable {Z : Zlib}

/-! ### The headers of the response -/

namespace Headers

lemma named_remove (h : Headers) {name other : Bytes} (hne : ¬CaseEq other name) :
    (h.remove other).named name = h.named name := by
  unfold remove named
  rw [List.filter_filter]
  refine List.filter_congr (fun f _ => ?_)
  by_cases hname : asciiNcasecmp f.name name = 0
  · have hother : asciiNcasecmp f.name other ≠ 0 := by
      rw [Ne, asciiNcasecmp_eq_zero]
      exact fun heq => hne (heq.symm.trans ((asciiNcasecmp_eq_zero _ _).mp hname))
    simp [hname, hother]
  · simp [hname]

lemma get_remove (h : Headers) {name other : Bytes} (hne : ¬CaseEq other name) :
    (h.remove other).get name = h.get name := by
  unfold get getAt
  rw [named_remove h hne]

end Headers

/-- The pipe leaves the target of a redirect in the headers. -/
lemma init_location {sink : Sink} {h h' : Headers} {noDecode : Bool} {cap : Nat} {p : BodyPipe Z}
    (hinit : BodyPipe.init sink h noDecode cap = .ok (p, h')) :
    h'.get (ascii "Location") = h.get (ascii "Location") := by
  unfold BodyPipe.init at hinit
  dsimp only at hinit
  split at hinit
  · cases hinit
    rfl
  · cases hinit
  · split at hinit
    · cases hinit
    · cases hinit
      rw [Headers.get_remove _ (by decide), Headers.get_remove _ (by decide)]

lemma settle_headers (follow : Bool) (h : Headers) (minor : Int) (src : BodySource Z)
    (res : Option Fail) : (settle follow h minor src res).headers = h := by
  unfold settle
  rfl

lemma receiveBody_location (follow : Bool) (input : BodyInput) (sink : Sink) (h : Headers)
    (minor : Int) (cap : Nat) (noDecode : Bool) :
    (receiveBody (Z := Z) follow input sink h minor cap noDecode).headers.get (ascii "Location") =
      h.get (ascii "Location") := by
  unfold receiveBody
  cases hinit : BodyPipe.init (Z := Z) sink h noDecode cap with
  | error f => exact congrArg (fun h => h.get (ascii "Location")) (settle_headers _ _ _ _ _)
  | ok p =>
    exact (congrArg (fun h => h.get (ascii "Location")) (settle_headers _ _ _ _ _)).trans
      (init_location hinit)

/-! ### The body of a hop -/

/-- The streams of an unread body in the result. -/
def World.Core.held (k : Core Z) : List Nat := k.openBody.elim [] (fun o => o.stream.layers)

/-- What a hop's body comes to. -/
def hopBody (env : Env) (call : Call) (c : Chain) (a : Answer) (sink : Option Sink) : Received Z :=
  let follow := mayFollow call.opts a
  receiveBody follow a.input (hopSink (env.hop c.hops).memoryFull follow sink) a.headers
    a.minorVersion (bodyCap call.opts follow) (call.opts.noDecode || follow || a.bodiless)

/-- What the body of a hop changes when it is read or left to the caller. -/
inductive Takes (env : Env) (call : Call) (c : Chain) (s : Stream) (a : Answer) (k : Core Z) :
    Headers → Core Z → Prop
  | drained (hfollow : mayFollow call.opts a = true)
      (hres : (hopBody (Z := Z) env call c a k.sink).res = none) :
      Takes env call c s a k (hopBody (Z := Z) env call c a k.sink).headers
        { k with body := (hopBody (Z := Z) env call c a k.sink).src.pipe.sink.bytes }
  | buffered (hfollow : mayFollow call.opts a = false) (hsink : k.sink = none)
      (hres : (hopBody (Z := Z) env call c a k.sink).res = none) :
      Takes env call c s a k (hopBody (Z := Z) env call c a k.sink).headers
        { k with body := (hopBody (Z := Z) env call c a k.sink).src.pipe.sink.bytes }
  | written (hfollow : mayFollow call.opts a = false) (hsink : k.sink ≠ none)
      (hres : (hopBody (Z := Z) env call c a k.sink).res = none) :
      Takes env call c s a k (hopBody (Z := Z) env call c a k.sink).headers
        { k with sink := some (hopBody (Z := Z) env call c a k.sink).src.pipe.sink }
  | held {b : OpenBody Z} {h : Headers} (key : Option PoolKey)
      (hfollow : mayFollow call.opts a = false) (hsink : k.sink = none)
      (hnew : OpenBody.new a.input a.headers a.minorVersion (bodyCap call.opts false)
        (call.opts.noDecode || a.bodiless) = .ok (b, h)) :
      Takes env call c s a k h { k with
        openBody := some ⟨b, s, key, inherits c a && k.source.release⟩
        source := if inherits c a then { k.source with next := false, release := false }
          else k.source }

/-- A body that failed left the result without one that is unread. -/
structure Fails (k k' : Core Z) : Prop where
  source : k'.source = k.source
  sent : k'.sent = k.sent
  answered : k'.answered = k.answered
  openBody : k'.openBody = k.openBody

lemma Fails.refl (k : Core Z) : Fails k k := ⟨rfl, rfl, rfl, rfl⟩

lemma after_layers (s : Stream) (src : BodySource Z) : (s.after src).layers = s.layers := by
  cases src <;> rfl

variable {env : Env} {call : Call} {c : Chain} {px : Proxy} {s : Stream} {a : Answer} {k : Core Z}

lemma reportBody_at (own : List Nat) (follow : Bool) (p : BodyPipe Z) :
    Sure (At own k) (reportBody follow p) := by
  unfold reportBody
  refine Sure.ite (Sure.pure _) (Sure.bind ?_ (fun _ => At.surely (Host.traceAdd_sure _ _ _)))
  exact At.setResult (fun _ => ⟨rfl, rfl⟩)

lemma noteBody_sure (follow : Bool) (failure : Option Fail) :
    Sure (fun _ => True) (noteBody follow failure) := by
  cases failure with
  | none => exact Sure.pure _
  | some f =>
    exact (Host.note_sure f).bind (fun _ => Sure.ite (Sure.modify (fun _ _ => trivial))
      (Sure.pure _))

lemma noPipe_res (follow : Bool) (a : Answer) (sink : Sink) (cap : Nat) :
    (noPipe (Z := Z) follow a sink cap).res = some (Fail.bare .nomem) := by
  unfold noPipe settle
  simp [resultCode]

/-- What a body that was read leaves: its connection is given back. -/
lemma takeBody_at (follow : Bool) (failure : Option Fail) (got : Received Z) :
    Triple (At s.layers k) (takeBody call c px s follow failure got)
      (fun h w => got.res = none ∧ h = got.headers ∧ w.At [] (if follow ∨ k.sink.isNone then
        { k with body := got.src.pipe.sink.bytes } else { k with sink := some got.src.pipe.sink }))
      (fun _ w => ∃ k', Fails k k' ∧ w.At [] k') := by
  let k' : Core Z := if follow ∨ k.sink.isNone then { k with body := got.src.pipe.sink.bytes }
    else { k with sink := some got.src.pipe.sink }
  have hk' : Fails k k' := by
    change Fails k (if _ then _ else _)
    split_ifs <;> exact ⟨rfl, rfl, rfl, rfl⟩
  refine Triple.bind (At.surely (noteBody_sure _ _)).triple (fun _ => ?_)
  refine Triple.bind (M := fun _ => At s.layers k') (Triple.modify (fun w hw => ?_)) (fun _ => ?_)
  · have hsink : w.sink = k.sink := congrArg Core.sink hw.core
    change At s.layers (ite (follow = true ∨ k.sink.isNone = true) _ _)
      (ite (follow = true ∨ w.sink.isNone = true) _ _)
    by_cases hc : follow = true ∨ k.sink.isNone = true
    · rw [if_pos hc, if_pos (hsink ▸ hc)]
      exact ⟨hw.owned,
        congrArg (fun k : Core Z => { k with body := got.src.pipe.sink.bytes }) hw.core⟩
    · rw [if_neg hc, if_neg (hsink ▸ hc)]
      exact ⟨hw.owned,
        congrArg (fun k : Core Z => { k with sink := some got.src.pipe.sink }) hw.core⟩
  refine Triple.bind (reportBody_at _ _ _).triple (fun _ => ?_)
  rw [← after_layers s got.src]
  refine Triple.bind (doneWithStream_at _ _ _ _ _).surely (fun _ => ?_)
  cases got.res with
  | none => exact Triple.pure (fun w hw => ⟨rfl, rfl, hw⟩)
  | some f => exact Triple.throw (fun w hw => ⟨k', hk', hw⟩)

lemma held_eq_nil {k : Core Z} (hopen : k.openBody = none) : k.held = [] := by
  unfold World.Core.held
  rw [hopen]
  rfl

lemma heldless {k' : Core Z} {w : World Z} (hw : w.At [] k') (hopen : k'.openBody = none) :
    w.At k'.held k' := by
  rwa [held_eq_nil hopen]

/-- A body that is read: its connection is given back. -/
lemma readBody_at (hopen : k.openBody = none) :
    Triple (At s.layers k) (readBody env call c px s a (mayFollow call.opts a))
      (fun h w => ∃ k', Takes env call c s a k h k' ∧ w.At k'.held k')
      (fun _ w => ∃ k', Fails k k' ∧ w.At [] k') := by
  refine Triple.reading (fun w hw => ?_)
  have hsink : w.sink = k.sink := congrArg Core.sink hw.core
  rw [hsink]
  refine Triple.bind (At.surely Host.alloc_sure).triple (fun room =>
    Triple.ite (fun _ => ?_) (fun _ => ?_))
  · refine (takeBody_at _ _ _).conseq (fun _ hw => hw) ?_ (fun _ _ hw => hw)
    rintro h w ⟨hres, rfl, hat⟩
    change (hopBody (Z := Z) env call c a k.sink).res = none at hres
    by_cases hfollow : mayFollow call.opts a = true
    · rw [if_pos (Or.inl hfollow)] at hat
      exact ⟨_, Takes.drained hfollow hres, heldless hat hopen⟩
    · have hkeep := Bool.eq_false_iff.mpr hfollow
      by_cases hnone : k.sink = none
      · rw [if_pos (Or.inr (by rw [hnone]; rfl))] at hat
        exact ⟨_, Takes.buffered hkeep hnone hres, heldless hat hopen⟩
      · rw [if_neg (by simpa [hkeep] using hnone)] at hat
        exact ⟨_, Takes.written hkeep hnone hres, heldless hat hopen⟩
  · refine (takeBody_at _ _ _).conseq (fun _ hw => hw) ?_ (fun _ _ hw => hw)
    rintro h w ⟨hres, -⟩
    rw [noPipe_res] at hres
    cases hres

lemma openBodyMemory_sure (c : Chain) (input : BodyInput) :
    Sure (fun _ => True) (openBodyMemory c input) := by
  have hown : Sure (fun _ => True) (ownBody c input) := by
    cases input with
    | h1 fr t seed => exact Sure.pure _
    | h2 conn => exact Sure.ite Host.alloc_sure (Sure.pure _)
  exact hown.bind (fun _ => Sure.ite (Sure.pure _) (Host.alloc_sure.bind (fun _ =>
    Sure.ite (Sure.pure _) (Sure.pure _))))

/-- A body that is left to the caller, with its connection. -/
lemma holdBody_at (hfollow : mayFollow call.opts a = false)
    (hsink : k.sink = none) :
    Triple (At s.layers k) (holdBody call c px s a)
      (fun h w => ∃ k', Takes env call c s a k h k' ∧ w.At k'.held k')
      (fun _ w => ∃ k', Fails k k' ∧ w.At [] k') := by
  refine Triple.bind (At.surely (openBodyMemory_sure _ _)).triple (fun memory => ?_)
  cases hnew : openBodyNew (Z := Z) memory a (bodyCap call.opts false)
      (call.opts.noDecode || a.bodiless) with
  | error f =>
    refine Triple.bind (At.surely (Host.note_sure f)).triple (fun _ => ?_)
    refine Triple.bind (At.surely (Host.traceAdd_sure _ _ _)).triple (fun _ => ?_)
    refine Triple.bind (doneWithStream_at _ _ _ _ _).surely (fun _ => ?_)
    exact Triple.throw (fun w hw => ⟨k, Fails.refl k, hw⟩)
  | ok r =>
    cases memory with
    | some f => cases hnew
    | none =>
      refine Triple.bind (At.surely (releaseKey_sure _ _ _)).triple (fun key => ?_)
      refine Triple.bind (M := fun _ w => ∃ k', Takes env call c s a k r.2 k' ∧ w.At k'.held k')
        (Triple.modify (fun w hw => ⟨_, Takes.held key hfollow hsink hnew, hw.owned, ?_⟩))
        (fun _ => Triple.pure (fun _ hw => hw))
      rw [← hw.core]
      rfl

/-- What a hop does with the body of its response. -/
theorem receive_at (hopen : k.openBody = none) :
    Triple (At s.layers k) (receive env call c px s a)
      (fun h w => ∃ k', Takes env call c s a k h k' ∧ w.At k'.held k')
      (fun _ w => ∃ k', Fails k k' ∧ w.At [] k') := by
  refine Triple.reading (fun w hw => ?_)
  have hsink : w.sink = k.sink := congrArg Core.sink hw.core
  refine Triple.ite (fun hhold => ?_) (fun _ => readBody_at hopen)
  exact holdBody_at hhold.2.1 (hsink ▸ Option.isNone_iff_eq_none.mp hhold.2.2)

/-! ### The redirect -/

/-- The response of a hop is in the result, with what its body changed. -/
structure Lands (env : Env) (call : Call) (c : Chain) (s : Stream) (a : Answer) (k k' : Core Z)
    (w : World Z) : Prop where
  holds : w.At k'.held k'
  takes : Takes env call c s a k w.result.headers k'
  status : w.result.status = a.status

/-- A hop before its request: nothing is in the result. -/
structure Clear (k : Core Z) : Prop where
  body : k.body = []
  openBody : k.openBody = none

lemma mayFollow_iff (opts : PerformOpts) (a : Answer) : mayFollow opts a = true ↔
    (statusIsRedirect a.status = true ∧ 0 < opts.maxRedirects) ∧
      (a.headers.get (ascii "Location")).isSome = true := by
  unfold mayFollow Headers.has
  simp

lemma takes_location {h : Headers} {k' : Core Z} (ht : Takes env call c s a k h k') :
    h.get (ascii "Location") = a.headers.get (ascii "Location") := by
  cases ht with
  | drained hfollow hres => exact receiveBody_location _ _ _ _ _ _ _
  | buffered hfollow hsink hres => exact receiveBody_location _ _ _ _ _ _ _
  | written hfollow hsink hres => exact receiveBody_location _ _ _ _ _ _ _
  | held key hfollow hsink hnew =>
    unfold OpenBody.new at hnew
    split at hnew
    · cases hnew
    · rename_i p h' hinit
      cases hnew
      exact init_location hinit

/-- Nothing is held for a sink unless the hop is followed. -/
lemma takes_unheld {h : Headers} {k' : Core Z} (ht : Takes env call c s a k h k')
    (hclear : Clear k) (hkeep : mayFollow call.opts a = false) :
    k'.sink = none ∨ k'.body = [] := by
  cases ht with
  | drained hfollow hres => rw [hfollow] at hkeep; cases hkeep
  | buffered hfollow hsink hres => exact Or.inl hsink
  | written hfollow hsink hres => exact Or.inr hclear.body
  | held key hfollow hsink hnew => exact Or.inl hsink

/-- The body of a hop that is followed is in the result until the next. -/
lemma takes_drained {h : Headers} {k' : Core Z} (ht : Takes env call c s a k h k')
    (hfollow : mayFollow call.opts a = true) : ∃ body, k' = { k with body := body } := by
  cases ht with
  | drained _ hres => exact ⟨_, rfl⟩
  | buffered hkeep hsink hres => rw [hfollow] at hkeep; cases hkeep
  | written hkeep hsink hres => rw [hfollow] at hkeep; cases hkeep
  | held key hkeep hsink hnew => rw [hfollow] at hkeep; cases hkeep

/-- Nothing is flushed. -/
lemma flushHeld_at {P : World Z → Prop} (h : ∀ w, P w → w.sink = none ∨ w.result.body = []) :
    Triple P (flushHeld c) (fun e w => e = .finish c ∧ P w) (fun _ _ => False) := by
  refine Triple.reading (fun w hw => ?_)
  cases hsink : w.sink with
  | none => exact Triple.pure (fun _ hw => ⟨rfl, hw⟩)
  | some sink =>
    have hbody : w.result.body = [] := (h w hw).resolve_left (by rw [hsink]; exact nofun)
    exact Triple.ite (fun _ => Triple.pure (fun _ hw => ⟨rfl, hw⟩)) (fun hne => absurd hbody hne)

/-- The response is followed or stays. -/
theorem followOrFinish_at (hclear : Clear k) :
    Triple (fun w => ∃ k', Lands env call c s a k k' w) (followOrFinish (Z := Z) env call c)
      (fun e w => match e with
        | .follow c' => Follows call.opts c a.status c' ∧ 0 < call.opts.maxRedirects ∧ w.At [] k
        | .finish c' => c' = c ∧ mayFollow call.opts a = false ∧
            ∃ k', Lands env call c s a k k' w)
      (fun _ w => ∃ k', Fails k k' ∧ w.At [] k') := by
  refine Triple.reading (fun w hw => ?_)
  obtain ⟨k₁, hlands⟩ := hw
  have hstatus := hlands.status
  have hloc := takes_location hlands.takes
  have hstay : mayFollow call.opts a = false →
      ∀ w : World Z, (∃ k', Lands env call c s a k k' w) → w.sink = none ∨ w.result.body = [] := by
    rintro hkeep w ⟨k', hw⟩
    rw [show w.sink = k'.sink from congrArg Core.sink hw.holds.core,
      show w.result.body = k'.body from congrArg Core.body hw.holds.core]
    exact takes_unheld hw.takes hclear hkeep
  refine Triple.ite (fun hno => ?_) (fun hyes => ?_)
  · have hkeep : mayFollow call.opts a = false := by
      rw [Bool.eq_false_iff, Ne, mayFollow_iff, ← hstatus]
      exact fun hf => hno hf.1
    refine (flushHeld_at (hstay hkeep)).conseq (fun _ hw => hw) ?_ (fun _ _ hw => hw.elim)
    rintro e w ⟨rfl, hw⟩
    exact ⟨rfl, hkeep, hw⟩
  · rw [not_not, hstatus] at hyes
    cases hget : w.result.headers.get (ascii "Location") with
    | none =>
      have hkeep : mayFollow call.opts a = false := by
        rw [Bool.eq_false_iff, Ne, mayFollow_iff, ← hloc, hget]
        exact fun hf => nomatch hf.2
      exact Triple.pure (fun w hw => ⟨rfl, hkeep, hw⟩)
    | some loc =>
      have hfollow : mayFollow call.opts a = true :=
        (mayFollow_iff _ _).mpr ⟨hyes, by rw [← hloc, hget]; rfl⟩
      rw [hstatus]
      refine Triple.conseq (P := fun w => ∃ k₂ : Core Z, { k₂ with body := [] } = k ∧ w.At [] k₂)
        ?_ ?_ (fun _ _ hw => hw) (fun _ _ hw => hw)
      · refine Triple.each (fun k₂ => Triple.assuming (fun hk₂ => ?_))
        refine Triple.conseq (R := fun _ => At [] k₂) ?_ (fun _ hw => hw)
          (fun _ _ hw => hw) (fun _ w hw => ⟨k₂, hk₂ ▸ ⟨rfl, rfl, rfl, rfl⟩, hw⟩)
        refine Triple.bind (At.gives (nextHop_gives _ _ loc c hyes.1)) (fun next => ?_)
        refine Triple.assuming (fun hnext => ?_)
        obtain ⟨c₁, rfl, hturns⟩ := hnext
        refine Triple.bind (Sure.triple (At.setResult (fun _ => ⟨rfl, rfl⟩))) (fun _ => ?_)
        refine Triple.bind (At.gives (enterHop_gives c₁)) (fun c₂ => ?_)
        refine Triple.assuming (fun hc₂ => ?_)
        obtain ⟨key, hkey, hnew, rfl⟩ := hc₂
        refine Triple.bind (M := fun _ => At [] k) (Triple.modify (fun w hw => ⟨hw.owned, ?_⟩))
          (fun _ => ?_)
        · rw [← hk₂, ← hw.core]
          rfl
        · refine Triple.bind (M := fun _ => At [] k) ?_ (fun _ => Triple.pure (fun w hw => ?_))
          · refine (At.surely (Sure.get.bind (fun h => Sure.ite ?_ (Sure.pure _)))).triple
            exact (urlOf_sure _).bind (fun _ => Host.traceAddUrl_sure _ _ _ _)
          · have hsame : { c₁ with trail := c.trail } = c₁ := by rw [← hturns.trail]
            refine ⟨⟨?_, key, hkey, hturns.trail ▸ hnew, congrArg (· ++ [key]) hturns.trail⟩,
              hyes.2, hw⟩
            exact hsame.symm ▸ hturns
      · rintro w ⟨k', hw⟩
        obtain ⟨body, rfl⟩ := takes_drained hw.takes hfollow
        have hat := hw.holds
        rw [held_eq_nil (k := { k with body := body }) hclear.openBody] at hat
        exact ⟨_, congrArg (fun b => { k with body := b }) hclear.body.symm, hat⟩

/-! ### One pass -/

/-- What a hop that was answered added to a run. -/
def World.Core.answer (k : Core Z) (r : Sent) (src : Source) (a : Answer) : Core Z :=
  { k with sent := k.sent ++ [r], source := src, answered := k.answered ++ [a] }

/-- A hop that failed. -/
structure Breaks (call : Call) (c : Chain) (k k' : Core Z) : Prop where
  log : (k'.sent = k.sent ∧ k'.answered = k.answered) ∨
    ∃ r more, Records call k.source.answers c r ∧ k'.sent = k.sent ++ [r] ∧
      k'.answered = k.answered ++ more ∧ more.length ≤ 1
  source : Pulls c k.source k'.source
  openBody : k'.openBody = none

/-- What a pass of the loop leads to. -/
def Leads (env : Env) (call : Call) (c : Chain) (k : Core Z) (e : HopEnd) (w : World Z) : Prop :=
  ∃ r src a, Records call k.source.answers c r ∧ Pulls c k.source src ∧
    match e with
    | .follow c' => Follows call.opts c a.status c' ∧ 0 < call.opts.maxRedirects ∧
        w.At [] (k.answer r src a)
    | .finish c' => c' = c ∧ mayFollow call.opts a = false ∧
        ∃ s k', Lands env call c s a (k.answer r src a) k' w

lemma AtMost.breaks {own : List Nat} {w : World Z} (h : AtMost call c own k w)
    (hclear : Clear k) : ∃ k', Breaks call c k k' ∧ w.At own k' := by
  rcases h with hw | ⟨k', ⟨r, src, hr, hsrc, rfl⟩, hw⟩
  · exact ⟨k, ⟨Or.inl ⟨rfl, rfl⟩, Pulls.refl _ _, hclear.openBody⟩, hw⟩
  · refine ⟨{ k with sent := k.sent ++ [r], source := src }, ?_, hw⟩
    exact ⟨Or.inr ⟨r, [], hr, rfl, (List.append_nil _).symm, Nat.zero_le _⟩, hsrc,
      hclear.openBody⟩

/-- A hop whose body or redirect failed. -/
lemma Fails.breaks {r : Sent} {src : Source} {k' : Core Z} (h : Fails (k.answer r src a) k')
    (hr : Records call k.source.answers c r) (hsrc : Pulls c k.source src) (hclear : Clear k) :
    Breaks call c k k' where
  log := Or.inr ⟨r, [a], hr, h.sent, h.answered, le_rfl⟩
  source := h.source ▸ hsrc
  openBody := h.openBody.trans hclear.openBody

/-- A hop that was answered, behind the head of the response. -/
lemma answered_at {r : Sent} {src : Source} (hr : Records call k.source.answers c r)
    (hsrc : Pulls c k.source src) (hclear : Clear k) :
    Triple (At s.layers (k.answer r src a)) (do
        let h ← receive env call c px s a
        setResult (fun r => { r with
          status := a.status
          httpVersion := a.minorVersion
          httpMajor := match a.input with
            | .h1 _ _ _ => 1
            | .h2 _ => 2
          headers := h })
        followOrFinish env call c)
      (Leads env call c k) (fun _ w => ∃ k', Breaks call c k k' ∧ w.At [] k') := by
  refine Triple.conseq (R := fun _ w => ∃ k', Fails (k.answer r src a) k' ∧ w.At [] k') ?_
    (fun _ hw => hw) (fun _ _ hw => hw) (fun _ w hw => ?_)
  · refine Triple.bind (receive_at hclear.openBody) (fun h => ?_)
    refine Triple.bind (M := fun _ w => ∃ k', Lands env call c s a (k.answer r src a) k' w)
      (Triple.modify (fun w hw => ?_)) (fun _ => ?_)
    · obtain ⟨k', htakes, hat⟩ := hw
      exact ⟨k', ⟨hat.owned, hat.core⟩, htakes, rfl⟩
    · refine (followOrFinish_at (k := k.answer r src a) ⟨hclear.body, hclear.openBody⟩).conseq
        (fun _ hw => hw) ?_ (fun _ _ hw => hw)
      intro e w hw
      refine ⟨r, src, a, hr, hsrc, ?_⟩
      cases e with
      | follow c' => exact hw
      | finish c' => exact ⟨hw.1, hw.2.1, s, hw.2.2⟩
  · obtain ⟨k', hfails, hat⟩ := hw
    exact ⟨k', hfails.breaks hr hsrc hclear, hat⟩

/-- A pass of the loop sends at most one request and leaves nothing in hand. -/
theorem hop_at (env : Env) (call : Call) (c : Chain) (hclear : Clear k) :
    Triple (At (Z := Z) [] k) (hop env call c) (Leads env call c k)
      (fun _ w => ∃ k', Breaks call c k k' ∧ w.At [] k') := by
  refine Triple.bind (At.onHost _ |>.conseq (fun _ hw => hw) (fun _ _ hw => hw)
    (fun _ w hw => AtMost.breaks (Or.inl hw) hclear)) (fun px => ?_)
  refine Triple.bind ((exchange_at env call c px k).conseq (fun _ hw => hw) (fun _ _ hw => hw)
    (fun _ w hw => hw.breaks hclear)) (fun ex => ?_)
  cases hans : ex.answer with
  | error rc =>
    have hgot : ∀ w : World Z, Got call c k ex w →
        ∃ k', Breaks call c k k' ∧ w.At ex.stream.layers k' := by
      intro w hw
      unfold Got at hw
      rw [hans] at hw
      exact hw.breaks hclear
    refine Triple.conseq ?_ hgot (fun _ _ hw => hw) (fun _ _ hw => hw)
    refine Triple.each (fun k' => Triple.assuming (fun hbreaks => ?_))
    refine Triple.bind (doneWithStream_at _ _ _ _ _).surely (fun _ => ?_)
    exact Triple.throw (fun w hw => ⟨k', hbreaks, hw⟩)
  | ok a =>
    have hgot : ∀ w : World Z, Got call c k ex w → AtSent call c ex.stream.layers k w := by
      intro w hw
      unfold Got at hw
      rwa [hans] at hw
    refine Triple.conseq ?_ hgot (fun _ _ hw => hw) (fun _ _ hw => hw)
    refine Triple.each (fun k' => Triple.assuming (fun hsends => ?_))
    obtain ⟨r, src, hr, hsrc, rfl⟩ := hsends
    refine Triple.bind (M := fun _ => At ex.stream.layers (k.answer r src a))
      (Triple.modify (fun w hw => ⟨hw.owned, ?_⟩)) (fun _ => answered_at hr hsrc hclear)
    have hcore := hw.core
    exact (congrArg (fun k : Core Z => { k with answered := k.answered ++ [a] }) hcore)

end Zuhttp
