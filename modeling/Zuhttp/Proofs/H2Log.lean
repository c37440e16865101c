import Mathlib.Data.List.Chain
import Zuhttp.H2Log
import Zuhttp.Proofs.H2Body

/-!
# The HTTP/2 driver waits for a peer that has more to say

Between two flushes that nothing came between, the second closes no stream; so the stream that
is open when the first has ended is open when the transport is read.
-/

namespace Zuhttp

namespace H2

/-! ### The log is of the driver -/

lemma recvLogged_fst (h : H2) : h.recvLogged.1 = h.recv := by
  unfold recvLogged recv
  cases h.env.reads with
  | nil => rfl
  | cons a reads =>
    cases a with
    | finished => rfl
    | fail f => rfl
    | wouldblock => rfl
    | frames events failure allowed =>
      dsimp only
      generalize hear _ events = heard
      obtain ⟨t, bad⟩ := heard
      generalize (if bad = true then some (Fail.bare .nomem) else failure) = res
      cases res with
      | none => rfl
      | some f => rfl

lemma andThen_fail {next : H2 → Logged} {h : H2} {f : Fail} {acts : List H2Act} :
    Logged.andThen ((h, some f), acts) next = ((h, some f), acts) := rfl

lemma andThen_next {next : H2 → Logged} {h : H2} {acts : List H2Act} :
    Logged.andThen ((h, none), acts) next = ((next h).1, acts ++ (next h).2) := rfl

lemma pumpLogged_fst (h : H2) : h.pumpLogged.1 = h.pump := by
  unfold pumpLogged pump flushLogged
  cases h.flush with
  | mk t res =>
    cases res with
    | some f => rfl
    | none =>
      rw [andThen_next]
      exact recvLogged_fst t

lemma pumpStreamLogged_fst (h : H2) : h.pumpStreamLogged.1 = h.pumpStream := by
  unfold pumpStreamLogged pumpStream flushLogged
  cases h.flush with
  | mk t res =>
    cases res with
    | some f => rfl
    | none =>
      rw [andThen_next]
      dsimp only
      split_ifs
      · rfl
      · exact pumpLogged_fst t

lemma beginStepLogged_fst (h : H2) : h.beginStepLogged.1 = h.beginStep := by
  unfold beginStepLogged
  split_ifs with hclosed
  · rfl
  · unfold beginStep
    rw [if_neg hclosed, pumpStreamLogged_fst]

lemma beginLogged_fst (h : H2) (rq : H2Request) (hdrs : Headers) :
    (h.beginLogged rq hdrs).1 = h.begin rq hdrs := by
  unfold beginLogged
  split_ifs with hrefused
  · rfl
  · dsimp only
    split
    · next sid submits hsubmits =>
      have hopen : ¬(h.failed ∨ ¬h.allowed) := by tauto
      have hte : ¬badTe rq := by tauto
      unfold H2.begin
      rw [if_neg hopen, if_neg hte]
      dsimp only
      rw [hsubmits]
      dsimp only
      rw [Loop.logged_fst]
      rw [show (fun t => (beginStepLogged t).1) = beginStep from funext beginStepLogged_fst]
      generalize Loop.iterate beginStep _ _ _ = run
      obtain ⟨t, res⟩ := run
      cases res with
      | none => rfl
      | some f => rfl
    · rfl

variable {Z : Zlib}

lemma endStepLogged_fst (h : H2) (p : BodyPipe Z) : (endStepLogged h p).1 = endStep h p := by
  unfold endStepLogged endStep
  rcases h.deliver p with ⟨t, q, res⟩
  cases res with
  | some f => rfl
  | none =>
    dsimp only
    split
    · rfl
    · cases t.streamOutcome with
      | mk t res =>
        cases res with
        | some f => rfl
        | none =>
          dsimp only
          cases q.finish with
          | mk q res =>
            cases res with
            | some f => rfl
            | none => rfl

lemma bodyStepLogged_fst (st : BodyState Z) : (bodyStepLogged st).1 = bodyStep st := by
  unfold bodyStepLogged bodyStep
  split_ifs
  · rw [← pumpStreamLogged_fst]
    rcases st.conn.pumpStreamLogged with ⟨⟨h, res⟩, acts⟩
    cases res with
    | some f => rfl
    | none => exact endStepLogged_fst h st.pipe
  · exact endStepLogged_fst st.conn st.pipe

lemma bodyLogged_fst (h : H2) (p : BodyPipe Z) : (bodyLogged h p).1 = body h p := by
  unfold bodyLogged body
  rw [Loop.logged_fst, show (fun st => (bodyStepLogged (Z := Z) st).1) = bodyStep from
    funext bodyStepLogged_fst]

/-! ### Nothing to send again -/

/-- A flush behind a flush finds nothing to send, so it closes nothing. -/
def Idle : H2Act → H2Act → Prop
  | .flush _, .flush closes => closes = []
  | _, _ => True

instance : DecidableRel Idle
  | .flush _, .flush closes => inferInstanceAs (Decidable (closes = []))
  | .flush _, .input => isTrue trivial
  | .flush _, .submit => isTrue trivial
  | .flush _, .consume => isTrue trivial
  | .flush _, .read _ => isTrue trivial
  | .input, _ => isTrue trivial
  | .submit, _ => isTrue trivial
  | .consume, _ => isTrue trivial
  | .read _, _ => isTrue trivial

/-- What nghttp2 sends in one flush it does not have again for the next. -/
def NothingTwice (acts : List H2Act) : Prop := acts.IsChain Idle

instance (acts : List H2Act) : Decidable (NothingTwice acts) :=
  inferInstanceAs (Decidable (acts.IsChain Idle))

lemma NothingTwice.left {acts more : List H2Act} (h : NothingTwice (acts ++ more)) :
    NothingTwice acts := List.IsChain.left_of_append h

lemma NothingTwice.right {acts more : List H2Act} (h : NothingTwice (acts ++ more)) :
    NothingTwice more := List.IsChain.right_of_append h

/-- The transport is read in such states only. -/
def ReadsIn (P : H2 → Prop) (acts : List H2Act) : Prop := ∀ h, H2Act.read h ∈ acts → P h

/-! ### Where the transport is read -/

lemma heardCloses_keeps (h : H2) (closes : List (Nat × Nat)) :
    (h.heardCloses closes).headersDone = h.headersDone ∧ (h.heardCloses closes).data = h.data := by
  induction closes generalizing h with
  | nil => exact ⟨rfl, rfl⟩
  | cons c closes ih =>
    rw [heardCloses_cons]
    have hcb : (h.callback (.streamClose c.1 c.2)).1.headersDone = h.headersDone ∧
        (h.callback (.streamClose c.1 c.2)).1.data = h.data := by
      dsimp only [callback, onClose]
      split
      · exact ⟨rfl, rfl⟩
      · exact ⟨rfl, rfl⟩
    exact ⟨(ih _).1.trans hcb.1, (ih _).2.trans hcb.2⟩

/-- The streams that a flush closes. -/
def nextCloses (h : H2) : List (Nat × Nat) :=
  (h.env.flushes.head?.map FlushAnswer.closes).getD []

lemma flushLogged_snd (h : H2) : h.flushLogged.2 = [.flush h.nextCloses] := rfl

lemma flush_keeps_state (h : H2) :
    h.flush.1.headersDone = h.headersDone ∧ h.flush.1.data = h.data ∧
      (h.nextCloses = [] → h.flush.1.closed = h.closed) := by
  cases hnext : h.env.flushes with
  | nil =>
    unfold flush
    rw [hnext]
    exact ⟨rfl, rfl, fun _ => rfl⟩
  | cons a rest =>
    obtain ⟨hdone, hdata⟩ := h.heardCloses_keeps a.closes
    rw [flush_answer h a rest hnext]
    refine ⟨hdone, hdata, fun hcalm => ?_⟩
    have hnone : a.closes = [] := by
      unfold nextCloses at hcalm
      rw [hnext] at hcalm
      exact hcalm
    dsimp only
    rw [hnone]
    rfl

lemma recvLogged_reads (h : H2) : ReadsIn (fun t => t = h) h.recvLogged.2 := by
  intro t hread
  unfold recvLogged at hread
  split at hread
  · simpa using hread
  · cases hread
  · simpa using hread
  · simpa using hread
  · dsimp only at hread
    split at hread
    · simpa using hread
    · simpa [flushLogged_snd] using hread

/-- The stream was open when the pump had flushed, and no second flush closed it. -/
lemma pumpStreamLogged_reads {h : H2} (hlog : NothingTwice h.pumpStreamLogged.2) :
    ReadsIn (fun t => t.closed = false ∧ t.headersDone = h.headersDone ∧ t.data = h.data)
      h.pumpStreamLogged.2 := by
  intro t hread
  obtain ⟨hdone, hdata, -⟩ := h.flush_keeps_state
  unfold pumpStreamLogged flushLogged at hlog hread
  cases hflush : h.flush with
  | mk h₁ res =>
    rw [hflush] at hlog hread hdone hdata
    cases res with
    | some f => simp [andThen_fail] at hread
    | none =>
      rw [andThen_next] at hlog hread
      dsimp only at hlog hread hdone hdata
      split_ifs at hlog hread with hclosed
      · simp at hread
      · obtain ⟨hdone', hdata', hcalm⟩ := h₁.flush_keeps_state
        unfold pumpLogged flushLogged at hlog hread
        cases hflush' : h₁.flush with
        | mk h₂ res =>
          rw [hflush'] at hlog hread hdone' hdata' hcalm
          cases res with
          | some f => simp [andThen_fail] at hread
          | none =>
            rw [andThen_next] at hlog hread
            dsimp only at hlog hread hdone' hdata' hcalm
            have hidle : h₁.nextCloses = [] := by
              simp only [List.cons_append, List.nil_append] at hlog
              exact (List.isChain_cons_cons.mp hlog).1
            have hread' : H2Act.read t ∈ h₂.recvLogged.2 := by simpa using hread
            obtain rfl := h₂.recvLogged_reads t hread'
            exact ⟨(hcalm hidle).trans (Bool.eq_false_iff.mpr hclosed), hdone'.trans hdone,
              hdata'.trans hdata⟩

/-- A stream closed by the flush that starts the pump is noticed before any read. -/
lemma pumpStreamLogged_closed {h t : H2} (hflush : h.flush = (t, none))
    (hclosed : t.closed = true) :
    h.pumpStreamLogged = ((t, none), [.flush h.nextCloses]) := by
  unfold pumpStreamLogged flushLogged
  rw [hflush, andThen_next, if_pos hclosed]
  rfl

lemma beginStepLogged_reads {h : H2} (hgoing : h.headersDone = false)
    (hlog : NothingTwice h.beginStepLogged.2) :
    ReadsIn (fun t => t.closed = false ∧ t.headersDone = false) h.beginStepLogged.2 := by
  intro t hread
  unfold beginStepLogged at hlog hread
  split_ifs at hlog hread with hclosed
  · simp at hread
  · obtain ⟨hopen, hdone, -⟩ := pumpStreamLogged_reads hlog t hread
    exact ⟨hopen, hdone.trans hgoing⟩

lemma beginLogged_reads {h : H2} {rq : H2Request} {hdrs : Headers}
    (hlog : NothingTwice (h.beginLogged rq hdrs).2) :
    ReadsIn (fun t => t.closed = false ∧ t.headersDone = false) (h.beginLogged rq hdrs).2 := by
  intro t hread
  unfold beginLogged at hlog hread
  split_ifs at hlog hread with hrefused
  · simp at hread
  · dsimp only at hlog hread
    split at hlog
    · next sid submits hsubmits =>
      rw [hsubmits] at hread
      dsimp only at hlog hread
      rw [List.mem_cons] at hread
      rcases hread with hsubmit | hread
      · cases hsubmit
      · exact Loop.logged_forall (I := fun _ => True)
          (P := fun a => ∀ t, a = .read t → t.closed = false ∧ t.headersDone = false)
          (fun _ _ => NothingTwice.left) (fun _ _ => NothingTwice.right) (fun _ _ _ => trivial)
          (fun s _ hgoing hstep a ha t hat => beginStepLogged_reads hgoing hstep t (hat ▸ ha))
          _ trivial (List.IsChain.tail hlog) _ hread t rfl
    · next hother =>
      split at hread
      · next sid submits hsubmits => exact (hother sid submits hsubmits).elim
      · simp at hread

variable {Z : Zlib}

lemma endStepLogged_reads (h : H2) (p : BodyPipe Z) :
    ReadsIn (fun _ => False) (endStepLogged h p).2 := by
  intro t hread
  have hgranted : H2Act.read t ∉ (if h.data = [] then [] else [.consume] : List H2Act) := by
    split_ifs <;> simp
  unfold endStepLogged at hread
  dsimp only at hread
  split at hread
  · exact hgranted hread
  · split at hread
    · exact hgranted hread
    · split at hread
      · exact hgranted hread
      · split at hread
        · exact hgranted hread
        · rw [List.mem_append] at hread
          rcases hread with hread | hread
          · exact hgranted hread
          · simp [flushLogged_snd] at hread

lemma bodyStepLogged_reads {st : BodyState Z} (hlog : NothingTwice (bodyStepLogged st).2) :
    ReadsIn (fun t => t.closed = false ∧ t.data = []) (bodyStepLogged st).2 := by
  intro t hread
  unfold bodyStepLogged at hlog hread
  split_ifs at hlog hread with hwaits
  · have hpump := pumpStreamLogged_reads (h := st.conn)
    rcases hrun : st.conn.pumpStreamLogged with ⟨⟨h, res⟩, acts⟩
    rw [hrun] at hlog hread hpump
    have hacts : NothingTwice acts → H2Act.read t ∈ acts → t.closed = false ∧ t.data = [] := by
      intro hquiet hmem
      obtain ⟨hopen, -, hdata⟩ := hpump hquiet t hmem
      exact ⟨hopen, hdata.trans hwaits.1⟩
    cases res with
    | some f => exact hacts hlog hread
    | none =>
      dsimp only at hlog hread
      rw [List.mem_append] at hread
      rcases hread with hread | hread
      · exact hacts hlog.left hread
      · exact (endStepLogged_reads h st.pipe t hread).elim
  · exact (endStepLogged_reads st.conn st.pipe t hread).elim

lemma bodyLogged_reads {h : H2} {p : BodyPipe Z} (hlog : NothingTwice (bodyLogged h p).2) :
    ReadsIn (fun t => t.closed = false ∧ t.data = []) (bodyLogged h p).2 := by
  intro t hread
  exact Loop.logged_forall (I := fun _ => True)
    (P := fun a => ∀ t, a = .read t → t.closed = false ∧ t.data = [])
    (fun _ _ => NothingTwice.left) (fun _ _ => NothingTwice.right) (fun _ _ _ => trivial)
    (fun s _ _ hstep a ha t hat => bodyStepLogged_reads hstep t (hat ▸ ha))
    _ trivial hlog _ hread t rfl

/-- The transport is read while the stream is open and what is waited for is not there: the
headers in `zuh_h2_begin`, DATA in a step of the body. The log is the driver's own. -/
structure Waits (h : H2) : Prop where
  starting : ∀ rq hdrs, (h.beginLogged rq hdrs).1 = h.begin rq hdrs ∧
    (NothingTwice (h.beginLogged rq hdrs).2 →
      ReadsIn (fun t => t.closed = false ∧ t.headersDone = false) (h.beginLogged rq hdrs).2)
  stepping : ∀ (Z : Zlib) (p : BodyPipe Z) (done : Bool),
    (bodyStepLogged ⟨h, p, done⟩).1 = bodyStep ⟨h, p, done⟩ ∧
    (NothingTwice (bodyStepLogged ⟨h, p, done⟩).2 →
      ReadsIn (fun t => t.closed = false ∧ t.data = []) (bodyStepLogged ⟨h, p, done⟩).2)
  reading : ∀ (Z : Zlib) (p : BodyPipe Z), (bodyLogged h p).1 = body h p ∧
    (NothingTwice (bodyLogged h p).2 →
      ReadsIn (fun t => t.closed = false ∧ t.data = []) (bodyLogged h p).2)
  noticed : ∀ t, h.flush = (t, none) → t.closed = true →
    h.pumpStreamLogged = ((t, none), [.flush h.nextCloses])

theorem driver_waits (h : H2) : Waits h where
  starting rq hdrs := ⟨beginLogged_fst h rq hdrs, beginLogged_reads⟩
  stepping _ p done := ⟨bodyStepLogged_fst ⟨h, p, done⟩, bodyStepLogged_reads⟩
  reading _ p := ⟨bodyLogged_fst h p, bodyLogged_reads⟩
  noticed _ hflush hclosed := pumpStreamLogged_closed hflush hclosed

/-- The response ends while the request is still being sent. -/
def earlyAnswer : H2 :=
  wrap
    { flushes := [{}, {}, { closes := [(1, 0)] }]
      reads := [.frames [.beginHeaders 1, .header 1 (ascii ":status") (ascii "413"),
        .frameRecv (.headers 1 true)] none true]
      submits := [.ok 1] } 0

def upload : H2Request :=
  ⟨ascii "POST", ascii "https", ascii "example.com", ascii "/", Headers.init⟩

theorem driver_waits_early_answer : ReadsIn (fun t => t.closed = false ∧ t.headersDone = false)
    (earlyAnswer.beginLogged upload Headers.init).2 :=
  ((driver_waits earlyAnswer).starting upload Headers.init).2 (by decide +kernel)

end H2

end Zuhttp
