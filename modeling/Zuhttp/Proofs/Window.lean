import Zuhttp.Link
import Zuhttp.Proofs.H2

/-!
# The connection window

Every byte of DATA that reached the driver is consumed or still buffered; what a request
finds buffered is dropped, and that is nothing unless a body was aborted whose stream had
closed with DATA still buffered.
-/

namespace Zuhttp

open H2

variable {Z : Zlib}

namespace Link

/-- While nghttp2 keeps to its documentation, the ledger is exact. -/
def Balanced (leaked : Nat) (h : H2) : Prop :=
  h.lawful = true → h.delivered = h.consumed + h.data.length + leaked

/-- No DATA arrives on a stream that is closed or that we reset. -/
def Quiet (n : Nat) (h : H2) : Prop :=
  (h.closed = true ∨ h.resetSent = true) ∧ (h.lawful = true → h.data.length = n)

lemma balanced_kept (leaked : Nat) : Kept (Balanced leaked) where
  callback := by
    intro h h' e hh hcb hlaw
    have heff := callback_effect hcb
    rw [heff.lawful, Bool.and_eq_true] at hlaw
    have hbalance := hh hlaw.1
    rw [heff.delivered, heff.consumed, heff.data, List.length_append]
    have hlen : chunkLength e = (payload h.sid e).length := by
      cases e with
      | dataChunk sid bytes =>
        have hsid : sid = h.sid := by
          have hdoc := hlaw.2
          simp only [documented, Bool.and_eq_true, decide_eq_true_eq] at hdoc
          exact hdoc.1.1
        simp [chunkLength, payload, hsid]
      | _ => rfl
    omega
  env := by
    intro h env allowed failed hh
    exact hh

lemma closing_of_closed {h : H2} (e : H2Event) (hclosed : h.closed = true) :
    (h.closing e).1 = true := by
  cases e with
  | streamClose sid code =>
    unfold closing
    dsimp only
    split_ifs
    · rfl
    · exact hclosed
  | _ => exact hclosed

lemma quiet_kept (n : Nat) : Kept (Quiet n) where
  callback := by
    intro h h' e ⟨hquiet, hdata⟩ hcb
    have heff := callback_effect hcb
    constructor
    · rcases hquiet with hclosed | hreset
      · have hfirst := congrArg Prod.fst heff.closed
        exact Or.inl (hfirst.trans (closing_of_closed e hclosed))
      · exact Or.inr (heff.resetSent.trans hreset)
    · intro hlaw
      rw [heff.lawful, Bool.and_eq_true] at hlaw
      have hnone : payload h.sid e = [] := by
        cases e with
        | dataChunk sid bytes =>
          have hdoc := hlaw.2
          simp only [documented, Bool.and_eq_true, Bool.not_eq_true'] at hdoc
          rcases hquiet with hclosed | hreset
          · rw [hdoc.1.2] at hclosed
            cases hclosed
          · rw [hdoc.2] at hreset
            cases hreset
        | _ => rfl
      rw [heff.data, hnone, List.append_nil]
      exact hdata hlaw.1
  env := by
    intro h env allowed failed hh
    exact hh

lemma cancelled_kept (c : Bool) : Kept (fun h => h.cancelled = c) where
  callback := by
    intro h h' e hh hcb
    exact (callback_effect hcb).cancelled.trans hh
  env := by
    intro h env allowed failed hh
    exact hh

/-- A stream in use: what was leaked before it began. -/
def InUse (clean : Prop) (h : H2) : Prop :=
  h.cancelled = false ∧ ∃ leaked, Balanced leaked h ∧ (clean ↔ leaked = 0)

/-- A connection in the pool: what was leaked, and what the next request will drop. -/
def Pooled (clean : Prop) (h : H2) : Prop :=
  ∃ leaked n, Balanced leaked h ∧ Quiet n h ∧ (clean ↔ leaked + n = 0)

/-- What holds between two calls, when `clean` says whether every abort so far was. -/
def LinkInv (clean : Prop) (l : Link) : Prop :=
  match l.phase with
  | .fresh => clean ∧ Balanced 0 l.conn ∧ l.conn.data = []
  | .reading => InUse clean l.conn
  | .refused => l.conn.failed = true ∨ InUse clean l.conn
  | .pooled => Pooled clean l.conn
  | .lost => True

lemma inv_release {clean : Prop} {h : H2} (hpool : h.reusable = true → Pooled clean h) :
    LinkInv clean (release h) := by
  unfold LinkInv release
  cases hreuse : h.reusable with
  | true => exact hpool hreuse
  | false => exact trivial

lemma balanced_drained {leaked : Nat} {h : H2} (hh : Balanced leaked h) :
    Balanced leaked h.drained := by
  intro hlaw
  have hbalance := hh hlaw
  simp only [drained, List.length_nil]
  omega

lemma begin_inv {clean : Prop} {l : Link} (rq : H2Request) (hdrs : Headers)
    (hinv : LinkInv clean l) (hphase : l.phase = .fresh ∨ l.phase = .pooled) :
    LinkInv clean (begin l.conn rq hdrs) := by
  obtain ⟨total, hstart, hclean⟩ : ∃ total, Balanced total (l.conn.freshStream hdrs) ∧
      (clean ↔ total = 0) := by
    rcases hphase with hphase | hphase
    · unfold LinkInv at hinv
      rw [hphase] at hinv
      obtain ⟨hclean, hbalance, hdata⟩ := hinv
      refine ⟨0, fun hlaw => ?_, by simp [hclean]⟩
      have heq := hbalance hlaw
      rw [hdata] at heq
      exact heq
    · unfold LinkInv at hinv
      rw [hphase] at hinv
      obtain ⟨leaked, n, hbalance, hquiet, hclean⟩ := hinv
      refine ⟨leaked + n, fun hlaw => ?_, hclean⟩
      have heq := hbalance hlaw
      have hn := hquiet.2 hlaw
      simp only [freshStream, List.length_nil]
      omega
  unfold begin
  cases hbegin : l.conn.begin rq hdrs with
  | mk h res =>
    cases res with
    | error f => exact trivial
    | ok resp =>
      have hkeeps := begin_keeps ((cancelled_kept false).and (balanced_kept total))
        (fun sid => ⟨rfl, hstart⟩) (fun h hh => hh) hbegin
      exact ⟨hkeeps.1, total, hkeeps.2, hclean⟩

lemma bodyStep_inv {clean : Prop} {h : H2} (p : BodyPipe Z) (hinv : InUse clean h) :
    LinkInv clean (bodyStep h p) := by
  obtain ⟨hcancelled, leaked, hbalance, hclean⟩ := hinv
  have hkept := (cancelled_kept false).and (balanced_kept leaked)
  have hend : ∀ h : H2, h.cancelled = false ∧ Balanced leaked h →
      ∀ st res, EndStep h p st res → (res.isSome → LinkInv clean ⟨st.conn, .refused⟩) ∧
        (res = none →
          LinkInv clean (if st.done then release st.conn else ⟨st.conn, .reading⟩)) := by
    rintro h ⟨hcancelled, hbalance⟩ st res hres
    have hdrained := balanced_drained hbalance
    cases hres with
    | refused hfeed => exact ⟨fun _ => Or.inr ⟨hcancelled, leaked, hdrained, hclean⟩, nofun⟩
    | goesOn hfeed hopen =>
      exact ⟨fun hf => absurd hf (by simp), fun _ => ⟨hcancelled, leaked, hdrained, hclean⟩⟩
    | reset hfeed hclosed hout => exact ⟨fun _ => Or.inl (streamOutcome_failed hout), nofun⟩
    | unfinished hfeed hclosed hcode hfinish =>
      exact ⟨fun _ => Or.inr ⟨hcancelled, leaked, hdrained, hclean⟩, nofun⟩
    | ended hfeed hclosed hcode hfinish =>
      refine ⟨fun hf => absurd hf (by simp), fun _ =>
        inv_release (fun _ => ⟨leaked, 0, ?_, ?_, by simpa using hclean⟩)⟩
      · exact flush_keeps (balanced_kept leaked) hdrained
      · exact flush_keeps (quiet_kept 0) ⟨Or.inl hclosed, fun _ => rfl⟩
  have hcases : (∃ f, (H2.bodyStep ⟨h, p, false⟩).2 = some f ∧
        (H2.bodyStep ⟨h, p, false⟩).1.conn.failed = true) ∨
      ∃ h₁ : H2, (h₁.cancelled = false ∧ Balanced leaked h₁) ∧
        EndStep h₁ p (H2.bodyStep ⟨h, p, false⟩).1 (H2.bodyStep ⟨h, p, false⟩).2 := by
    unfold H2.bodyStep
    split_ifs with hread
    · dsimp only
      cases hpump : h.pumpStream with
      | mk h₁ res =>
        cases res with
        | some f => exact Or.inl ⟨f, rfl, pumpStream_failed hpump⟩
        | none =>
          exact Or.inr ⟨h₁, pumpStream_keeps hkept ⟨hcancelled, hbalance⟩ hpump,
            endStep_cases h₁ p⟩
    · exact Or.inr ⟨h, ⟨hcancelled, hbalance⟩, endStep_cases h p⟩
  unfold bodyStep
  cases hstep : H2.bodyStep ⟨h, p, false⟩ with
  | mk st res =>
    rw [hstep] at hcases
    rcases hcases with ⟨f, hres, hfailed⟩ | ⟨h₁, hkept₁, hres⟩
    · cases hres
      exact Or.inl hfailed
    · cases res with
      | some f => exact (hend h₁ hkept₁ st _ hres).1 rfl
      | none => exact (hend h₁ hkept₁ st _ hres).2 rfl

/-- The abort finds a stream that has closed with DATA still buffered. -/
def DropsData (h : H2) : Prop := h.closed = true ∧ h.data ≠ []

lemma cancel_inv {clean : Prop} {h : H2} (hinv : h.failed = true ∨ InUse clean h) :
    LinkInv (clean ∧ ¬DropsData h) (release h.cancel) := by
  unfold cancel
  rcases hinv with hfailed | ⟨hcancelled, leaked, hbalance, hclean⟩
  · rw [if_pos (Or.inr (Or.inr hfailed))]
    refine inv_release (fun hreuse => ?_)
    rw [not_reusable_of_failed hfailed] at hreuse
    cases hreuse
  · split_ifs with hnoop
    · refine inv_release (fun hreuse => ?_)
      have hclosed : h.closed = true := by
        simp only [reusable, hcancelled, Bool.false_or, Bool.and_eq_true] at hreuse
        exact hreuse.1.2.1
      refine ⟨leaked, h.data.length, hbalance, ⟨Or.inl hclosed, fun _ => rfl⟩, ?_⟩
      unfold DropsData
      rw [hclean]
      simp [hclosed]
    · rw [not_or, not_or] at hnoop
      obtain ⟨h₁, hh₁⟩ : ∃ h₁ : H2, h₁ = { h with
          consumed := h.consumed + h.data.length, data := [], resetSent := true } := ⟨_, rfl⟩
      have hstart : Balanced leaked h₁ ∧ Quiet 0 h₁ := by
        subst hh₁
        exact ⟨balanced_drained hbalance, Or.inr rfl, fun _ => rfl⟩
      have hdrops : ¬DropsData h := fun hdrops => hnoop.1 hdrops.1
      dsimp only
      rw [← hh₁]
      cases hflush : h₁.flush with
      | mk h' res =>
        obtain ⟨hb, hq⟩ :=
          flush_res_keeps ((balanced_kept leaked).and (quiet_kept 0)) hstart hflush
        cases res with
        | some f =>
          refine inv_release (fun hreuse => ?_)
          rw [not_reusable_of_failed rfl] at hreuse
          cases hreuse
        | none =>
          refine inv_release (fun _ => ⟨leaked, 0, hb, hq, ?_⟩)
          simp [hdrops, hclean]

lemma pump_inv {clean : Prop} {h h' : H2} (hinv : Pooled clean h)
    (hpump : h.pump = (h', none)) : Pooled clean h' := by
  obtain ⟨leaked, n, hbalance, hquiet, hclean⟩ := hinv
  have hkeeps := pump_keeps ((balanced_kept leaked).and (quiet_kept n)) ⟨hbalance, hquiet⟩ hpump
  exact ⟨leaked, n, hkeeps.1, hkeeps.2, hclean⟩

lemma ping_inv {clean : Prop} {h : H2} (hinv : Pooled clean h) : LinkInv clean (ping h) := by
  unfold ping
  split_ifs
  · exact trivial
  · cases hpump : h.pump with
    | mk h' res =>
      cases res with
      | some f => exact trivial
      | none =>
        dsimp only
        split_ifs
        · exact trivial
        · exact pump_inv hinv hpump

lemma probe_inv {clean : Prop} {h : H2} (hinv : Pooled clean h) : LinkInv clean (probe h) := by
  unfold probe
  split_ifs
  · exact trivial
  · cases hpump : h.pump with
    | mk h₁ res =>
      cases res with
      | some f => exact trivial
      | none =>
        obtain ⟨leaked, n, hbalance, hquiet, hclean⟩ := pump_inv hinv hpump
        dsimp only
        split_ifs
        · exact trivial
        · cases hflush : h₁.flush with
          | mk h' res =>
            have hkeeps := flush_res_keeps ((balanced_kept leaked).and (quiet_kept n))
              ⟨hbalance, hquiet⟩ hflush
            cases res with
            | some f => exact trivial
            | none =>
              dsimp only
              split_ifs
              · exact ⟨leaked, n, hkeeps.1, hkeeps.2, hclean⟩
              · exact trivial

def KeepsData (h : H2) : LinkAct Z → Prop
  | .cancel => ¬DropsData h
  | _ => True

/-- No abort of the run drops buffered DATA. -/
def DropsNothing : Link → List (LinkAct Z) → Prop
  | _, [] => True
  | l, a :: as => KeepsData l.conn a ∧ ∀ l', step l a = some l' → DropsNothing l' as

lemma step_inv {clean : Prop} {l l' : Link} {a : LinkAct Z} (hinv : LinkInv clean l)
    (hstep : step l a = some l') :
    LinkInv (clean ∧ KeepsData l.conn a) l' := by
  cases a with
  | begin rq hdrs =>
    unfold step at hstep
    dsimp only at hstep
    split_ifs at hstep with hphase
    cases hstep
    simpa [KeepsData] using begin_inv rq hdrs hinv hphase
  | step pipe =>
    unfold step at hstep
    dsimp only at hstep
    split_ifs at hstep with hphase
    cases hstep
    unfold LinkInv at hinv
    rw [hphase] at hinv
    simpa [KeepsData] using bodyStep_inv pipe hinv
  | cancel =>
    unfold step at hstep
    dsimp only at hstep
    split_ifs at hstep with hphase
    cases hstep
    refine cancel_inv ?_
    unfold LinkInv at hinv
    rcases hphase with hphase | hphase
    · rw [hphase] at hinv
      exact Or.inr hinv
    · rw [hphase] at hinv
      exact hinv
  | ping =>
    unfold step at hstep
    dsimp only at hstep
    split_ifs at hstep with hphase
    cases hstep
    unfold LinkInv at hinv
    rw [hphase] at hinv
    simpa [KeepsData] using ping_inv hinv
  | probe =>
    unfold step at hstep
    dsimp only at hstep
    split_ifs at hstep with hphase
    cases hstep
    unfold LinkInv at hinv
    rw [hphase] at hinv
    simpa [KeepsData] using probe_inv hinv

lemma run_inv {clean : Prop} {l l' : Link} {acts : List (LinkAct Z)} (hinv : LinkInv clean l)
    (hrun : run l acts = some l') : LinkInv (clean ∧ DropsNothing l acts) l' := by
  induction acts generalizing l clean with
  | nil =>
    cases hrun
    simpa [DropsNothing] using hinv
  | cons a as ih =>
    obtain ⟨l₁, hstep, hrest⟩ := Run.exec_cons_eq_some.mp hrun
    have hinv' := ih (step_inv hinv hstep) hrest
    have hiff : ((clean ∧ KeepsData l.conn a) ∧ DropsNothing l₁ as) ↔
        clean ∧ DropsNothing l (a :: as) := by
      simp only [DropsNothing, hstep, Option.some.injEq, forall_eq', and_assoc]
    rw [← propext hiff]
    exact hinv'

end Link

open Link in
/-- When a connection that served any requests, pulled or whole, comes back from the pool,
every byte of DATA was given back to the window exactly when no abort dropped any. -/
theorem linkRun_consumed_iff {env : H2Env} {maxHeaderBytes : Nat} {acts : List (LinkAct Z)}
    {l : Link} (hrun : Link.run ⟨H2.wrap env maxHeaderBytes, .fresh⟩ acts = some l)
    (hpooled : l.phase = .pooled) (hlaw : l.conn.lawful = true) :
    l.conn.delivered = l.conn.consumed ↔
      DropsNothing ⟨H2.wrap env maxHeaderBytes, .fresh⟩ acts := by
  have hstart : LinkInv True ⟨H2.wrap env maxHeaderBytes, .fresh⟩ :=
    ⟨trivial, fun _ => rfl, rfl⟩
  have hinv := run_inv hstart hrun
  unfold LinkInv at hinv
  rw [hpooled] at hinv
  obtain ⟨leaked, n, hbalance, hquiet, hclean⟩ := hinv
  have heq := hbalance hlaw
  have hn := hquiet.2 hlaw
  rw [true_and] at hclean
  rw [hclean]
  omega

/-- A response that came in one read. -/
def wholeResponse : H2Env where
  reads := [.frames [.beginHeaders 1, .header 1 (ascii ":status") (ascii "200"),
    .frameRecv (.headers 1 false), .dataChunk 1 (ascii "hello"), .frameRecv (.data 1 true),
    .streamClose 1 0] none true]
  submits := [.ok 1]

def getRequest : H2Request :=
  ⟨ascii "GET", ascii "https", ascii "a.example", ascii "/", Headers.init⟩

/-- A body that is aborted before its first read, all of it being there. -/
theorem linkRun_not_consumed :
    ¬∀ l, Link.run (Z := Zlib.knowing [] []) ⟨H2.wrap wholeResponse 0, .fresh⟩
      [.begin getRequest Headers.init, .cancel] = some l → l.phase = .pooled →
      l.conn.lawful = true → l.conn.delivered = l.conn.consumed := by
  intro h
  have hrun : (Link.run (Z := Zlib.knowing [] []) ⟨H2.wrap wholeResponse 0, .fresh⟩
      [.begin getRequest Headers.init, .cancel]).map (fun l =>
        (l.phase, l.conn.lawful, l.conn.delivered, l.conn.consumed)) =
      some (.pooled, true, 5, 0) := by decide +kernel
  obtain ⟨l, hl, hfields⟩ := Option.map_eq_some_iff.mp hrun
  simp only [Prod.mk.injEq] at hfields
  obtain ⟨hphase, hlaw, hdelivered, hconsumed⟩ := hfields
  have heq := h l hl hphase hlaw
  rw [hdelivered, hconsumed] at heq
  cases heq

theorem linkRun_consumed_iff_whole :
    ∃ l, Link.run (Z := Zlib.knowing [] []) ⟨H2.wrap wholeResponse 0, .fresh⟩
      [.begin getRequest Headers.init, .step (.fresh .memory 0)] = some l ∧
      l.conn.delivered = 5 ∧
      (l.conn.delivered = l.conn.consumed ↔ Link.DropsNothing (Z := Zlib.knowing [] [])
        ⟨H2.wrap wholeResponse 0, .fresh⟩
        [.begin getRequest Headers.init, .step (.fresh .memory 0)]) := by
  have hrun : (Link.run (Z := Zlib.knowing [] []) ⟨H2.wrap wholeResponse 0, .fresh⟩
      [.begin getRequest Headers.init, .step (.fresh .memory 0)]).map (fun l =>
        (l.phase, l.conn.lawful, l.conn.delivered)) = some (.pooled, true, 5) := by
    decide +kernel
  obtain ⟨l, hl, hfields⟩ := Option.map_eq_some_iff.mp hrun
  simp only [Prod.mk.injEq] at hfields
  exact ⟨l, hl, hfields.2.2, linkRun_consumed_iff hl hfields.1 hfields.2.1⟩

end Zuhttp
