import Zuhttp.Proofs.Ledger
import Zuhttp.Proofs.Sending

/-!
# What a hop sends

A hop sends at most its own request and pulls the source of its body only when it streams
it. The stream that answers is in hand.
-/

namespace Zuhttp

open Prog World

variable {Z : Zlib}

/-- The bytes of a request over HTTP/1.1: its head was written, and where all of it was,
what belongs behind the head. -/
def Writes (r : Sent) : Prop :=
  ∃ b, exec r.rq.write (Buffer.init wireMax) = (.ok (), b) ∧
    ∀ bytes, r.wrote = some bytes → bytes = b.data ++ r.content

/-- The request of a hop, when its source has `answers` left. -/
structure Records (call : Call) (answers : List (Except Fail Bytes)) (c : Chain) (r : Sent) :
    Prop where
  hop : r.hop = c.hops
  uri : r.uri = c.cur
  body : r.body = c.body
  streamed : r.streamed = c.srcLive
  rq : SentFrom call c r.proxy r.h2 r.rq
  source : r.h2 = false → r.streamed = true → r.answers = answers
  written : r.h2 = false → Writes r

/-- What a hop does to the source of a streamed body. -/
structure Pulls (c : Chain) (src src' : Source) : Prop where
  next : src'.next = src.next
  release : src'.release = src.release
  released : src'.released = src.released
  pulled : ∃ n, src'.pulled = src.pulled ++ List.replicate n c.hops ∧ (c.srcLive = false → n = 0)

lemma Pulls.refl (c : Chain) (src : Source) : Pulls c src src :=
  ⟨rfl, rfl, rfl, 0, by simp, fun _ => rfl⟩

lemma Pulls.trans {c : Chain} {src src' src'' : Source} (h : Pulls c src src')
    (h' : Pulls c src' src'') : Pulls c src src'' := by
  obtain ⟨n, hn, hlive⟩ := h.pulled
  obtain ⟨m, hm, hlive'⟩ := h'.pulled
  refine ⟨h'.next.trans h.next, h'.release.trans h.release, h'.released.trans h.released,
    n + m, ?_, fun hl => ?_⟩
  · rw [hm, hn, List.append_assoc, List.replicate_append_replicate]
  · rw [hlive hl, hlive' hl]

/-- The core of a run after a hop has sent its request. -/
def Sends (call : Call) (c : Chain) (k k' : Core Z) : Prop :=
  ∃ r src, Records call k.source.answers c r ∧ Pulls c k.source src ∧
    k' = { k with sent := k.sent ++ [r], source := src }

/-- The stream objects in hand, and a request sent since `k`. -/
def AtSent (call : Call) (c : Chain) (own : List Nat) (k : Core Z) (w : World Z) : Prop :=
  ∃ k', Sends call c k k' ∧ w.At own k'

/-- The stream objects in hand, and at most one request sent since `k`. -/
def AtMost (call : Call) (c : Chain) (own : List Nat) (k : Core Z) (w : World Z) : Prop :=
  w.At own k ∨ AtSent call c own k w

variable {call : Call} {c : Chain} {own : List Nat} {k : Core Z} {s : Stream}

lemma AtSent.onHost {α : Type} (m : HostProg α) :
    Keeps (AtSent (Z := Z) call c own k) (World.onHost m) :=
  Keeps.zoom (fun _ _ hs => hs.imp (fun _ hk => ⟨hk.1, hk.2.owned, hk.2.core⟩))

lemma AtSent.surely {α : Type} {m : HostProg α} (h : Sure (fun _ => True) m) :
    Sure (AtSent (Z := Z) call c own k) (World.onHost m) :=
  Sure.zoom h (fun _ _ hs => hs.imp (fun _ hk => ⟨hk.1, hk.2.owned, hk.2.core⟩))

/-- The stream objects in hand, and one entry of the log since `k`. -/
def Logs (c : Chain) (own : List Nat) (k : Core Z) (r : Sent) (w : World Z) : Prop :=
  ∃ src, Pulls c k.source src ∧ w.At own { k with sent := k.sent ++ [r], source := src }

variable {r : Sent}

lemma Logs.sent {w : World Z} (h : Logs c own k r w) (hr : Records call k.source.answers c r) :
    AtSent call c own k w := by
  obtain ⟨src, hsrc, hat⟩ := h
  exact ⟨_, ⟨r, src, hr, hsrc, rfl⟩, hat⟩

lemma Logs.gives {α : Type} {A : α → Prop} {m : HostProg α} (h : Gives A m) :
    Triple (Logs (Z := Z) c own k r) (World.onHost m) (fun a w => A a ∧ Logs c own k r w)
      (fun _ => Logs c own k r) :=
  (Triple.zoomed (B := fun _ => True) h (fun _ _ hs =>
    hs.imp (fun _ hk => ⟨hk.1, hk.2.owned, hk.2.core⟩))).conseq (fun _ hs => hs)
      (fun _ _ hs => hs) (fun _ _ hs => hs.2)

lemma Logs.one {w : World Z} (hw : w.At own k) (r : Sent) {src : Source}
    (hsrc : Pulls c k.source src) :
    Logs c own k r { w with sent := w.sent ++ [r], source := src } := by
  refine ⟨src, hsrc, hw.owned, ?_⟩
  rw [← hw.core]
  rfl

lemma Logs.pullSource (hlive : c.srcLive = true) (answers : List (Except Fail Bytes)) :
    Sure (Logs (Z := Z) c own k r) (Zuhttp.pullSource c.hops answers) := by
  refine Sure.modify (fun w hw => ?_)
  obtain ⟨src, hpulls, hat⟩ := hw
  have hsrc : w.source = src := congrArg Core.source hat.core
  refine ⟨{ w.source with answers := answers, pulled := w.source.pulled ++ [c.hops] },
    hpulls.trans ?_, hat.owned, ?_⟩
  · rw [hsrc]
    exact ⟨rfl, rfl, rfl, 1, rfl, fun hdead => absurd hlive (by rw [hdead]; decide)⟩
  · exact congrArg (fun k : Core Z => { k with source :=
      { w.source with answers := answers, pulled := w.source.pulled ++ [c.hops] } }) hat.core

/-- The pieces of a streamed body are written as chunks. -/
lemma sendPieces_at (hlive : c.srcLive = true) (answers : List (Except Fail Bytes))
    (t : Transport) :
    Triple (Logs (Z := Z) c own k r) (sendPieces c.hops answers t)
      (fun p w => Took t (chunksText (pieces answers)) p.1 ∧ Logs c own k r w)
      (fun _ => Logs c own k r) := by
  induction answers generalizing t with
  | nil =>
    unfold sendPieces
    refine Triple.bind (Logs.pullSource hlive _).triple (fun _ => Triple.bind
      (Logs.gives (sendChunk_gives t [])) (fun t' => Triple.pure (fun _ hw => hw)))
  | cons a answers ih =>
    cases a with
    | error f =>
      unfold sendPieces
      refine Triple.bind (Logs.pullSource hlive _).triple (fun _ => ?_)
      exact (Logs.gives (A := fun _ => False) (Host.raise_fails f)).conseq (fun _ hw => hw)
        (fun _ _ hw => hw.1.elim) (fun _ _ hw => hw)
    | ok d =>
      unfold sendPieces
      refine Triple.bind (Logs.pullSource hlive _).triple (fun _ => Triple.bind
        (Logs.gives (sendChunk_gives t d)) (fun t' => Triple.assuming (fun htook => ?_)))
      refine Triple.ite (fun hend => Triple.pure (fun w hw => ⟨?_, hw⟩)) (fun hmore => ?_)
      · rw [pieces, if_pos hend]
        rwa [hend] at htook
      · refine Triple.bind (ih t') (fun p => Triple.pure (fun w hw => ⟨?_, hw.2⟩))
        rw [pieces, if_neg hmore, chunksText, List.flatMap_cons, List.append_assoc]
        exact htook.trans hw.1

/-- The core with one more entry in the log. -/
def World.Core.log (k : Core Z) (r : Sent) : Core Z := { k with sent := k.sent ++ [r] }

lemma Logs.refl {w : World Z} (h : w.At own (k.log r)) : Logs c own k r w :=
  ⟨k.source, Pulls.refl _ _, h⟩

lemma sendSource_at (hans : r.answers = k.source.answers) (t : Transport) :
    Triple (At (Z := Z) own (k.log r)) (sendSource c t)
      (fun p w => Took t (if c.srcLive then chunksText (pieces r.answers) else []) p.1 ∧
        Logs c own k r w) (fun _ => Logs c own k r) := by
  refine Triple.reading (fun w hw => ?_)
  have hsource : w.source = k.source := congrArg Core.source hw.core
  refine Triple.ite (fun hlive => ?_) (fun hdead => Triple.pure (fun w hw => ⟨?_, Logs.refl hw⟩))
  · rw [if_pos hlive, hans, hsource]
    exact (sendPieces_at hlive _ t).conseq (fun _ hw => Logs.refl hw) (fun _ _ hw => hw)
      (fun _ _ hw => hw)
  · rw [if_neg hdead]
    exact (List.append_nil _).symm

/-- The entry of a request that was written gets its bytes. -/
lemma noteWritten_at (bytes : Bytes) :
    Triple (Logs (Z := Z) c own k r) (noteWritten r bytes)
      (fun _ => Logs c own k { r with wrote := some bytes }) (fun _ _ => False) := by
  refine Triple.modify (fun w hw => ?_)
  obtain ⟨src, hsrc, hat⟩ := hw
  have hsent : w.sent = k.sent ++ [r] := congrArg Core.sent hat.core
  refine ⟨src, hsrc, hat.owned, ?_⟩
  have hcore := congrArg (fun k' : Core Z =>
    { k' with sent := k.sent ++ [{ r with wrote := some bytes }] }) hat.core
  rw [hsent, List.dropLast_concat]
  exact hcore

/-- A request over HTTP/1.1 is sent once its head is written. -/
theorem sendH1_at (px : Proxy) (t : Transport) {rq : Request} (hb : BuiltFrom call c px rq) :
    Triple (At (Z := Z) own k) (sendH1 call c px s t rq) (fun _ => AtSent call c own k)
      (fun _ => AtMost call c own k) := by
  refine Triple.bind ((At.gives (finishH1_gives hb)).conseq (fun _ hw => hw) (fun _ _ hw => hw)
    (fun _ _ hw => Or.inl hw)) (fun head => Triple.assuming (fun hhead => ?_))
  obtain ⟨rq, wire⟩ := head
  obtain ⟨hrq, b, hwrite, hwire⟩ := hhead
  refine Triple.reading (fun w₀ hw₀ => ?_)
  have hsource : w₀.source = k.source := congrArg Core.source hw₀.core
  dsimp only
  rw [hsource]
  let r : Sent := { hop := c.hops, uri := c.cur, proxy := px, via := s.via, h2 := false, rq := rq
                    body := c.body, streamed := c.srcLive, answers := k.source.answers }
  have hrec : ∀ wrote, (∀ bytes, wrote = some bytes → bytes = b.data ++ r.content) →
      Records call k.source.answers c { r with wrote := wrote } := fun wrote hbytes =>
    ⟨rfl, rfl, rfl, rfl, hrq, fun _ _ => rfl, fun _ => ⟨b, hwrite, hbytes⟩⟩
  have hlogs : ∀ w : World Z, Logs c own k r w → AtMost call c own k w :=
    fun w hw => Or.inr (hw.sent (hrec none nofun))
  refine Triple.bind (M := fun _ => At own (k.log r)) (Triple.modify (fun w hw => ⟨hw.owned, ?_⟩))
    (fun _ => ?_)
  · exact congrArg (fun k : Core Z => k.log r) hw.core
  refine Triple.bind ((At.gives (sendMemory_gives t wire c.body)).conseq (fun _ hw => hw)
    (fun _ _ hw => hw) (fun _ w hw => hlogs w (Logs.refl hw)))
    (fun t₁ => Triple.assuming (fun ht₁ => ?_))
  refine Triple.bind ((sendSource_at (r := r) rfl t₁).conseq (fun _ hw => hw) (fun _ _ hw => hw)
    (fun _ w hw => hlogs w hw)) (fun p => Triple.assuming (fun hp => ?_))
  have hbytes : p.1.sent.drop t.sent.length = b.data ++ r.content := by
    have htook := ht₁.trans hp
    unfold Took at htook
    rw [htook, List.drop_left, hwire, List.append_assoc]
    rfl
  refine Triple.bind (noteWritten_at (p.1.sent.drop t.sent.length)).surely (fun _ => ?_)
  have hdone : ∀ w : World Z,
      Logs c own k { r with wrote := some (p.1.sent.drop t.sent.length) } w →
        AtSent call c own k w :=
    fun w hw => hw.sent (hrec _ (fun bytes h => Option.some.inj h ▸ hbytes))
  refine Triple.conseq (Triple.bind (AtSent.onHost _) (fun _ => Keeps.pure _)) hdone
    (fun _ _ hw => hw) (fun _ _ hw => Or.inr hw)

/-! ### The answer -/

lemma AtSent.drop {w : World Z} (h : AtSent call c s.layers k w) :
    AtSent call c [] k (w.drop s) :=
  h.imp (fun _ hk => ⟨hk.1, hk.2.drop⟩)

lemma AtMost.drop {w : World Z} (h : AtMost call c s.layers k w) :
    AtMost call c [] k (w.drop s) :=
  h.imp At.drop AtSent.drop

/-- What a hop has sent once it got an answer, or failed to get one. -/
def Got (call : Call) (c : Chain) (k : Core Z) (ex : Exchanged) (w : World Z) : Prop :=
  match ex.answer with
  | .ok _ => AtSent call c ex.stream.layers k w
  | .error _ => AtMost call c ex.stream.layers k w

lemma Got.of_sent {ex : Exchanged} {w : World Z} (h : AtSent call c ex.stream.layers k w) :
    Got call c k ex w := by
  unfold Got
  cases ex.answer with
  | ok a => exact h
  | error rc => exact Or.inr h

lemma exchangeH1_at (px : Proxy) (t : Transport) {rq : Request} (hb : BuiltFrom call c px rq) :
    Triple (At (Z := Z) s.layers k) (exchangeH1 call c px s t rq) (Got call c k)
      (fun _ => AtMost call c [] k) := by
  refine Triple.bind (Triple.onFailure (sendH1_at px t hb) (fun _ _ hw => hw.drop)) (fun t' => ?_)
  refine Triple.bind (Triple.onFailure (AtSent.onHost _) (fun _ _ hw => Or.inr hw.drop))
    (fun _ => ?_)
  refine Triple.bind (M := fun _ => AtSent call c s.layers k)
    ((Triple.attempt (AtSent.onHost _)).conseq (fun _ hw => hw) (fun r _ hw => ?_)
      (fun _ _ hw => hw)) (fun r => Triple.pure (fun w hw => Got.of_sent hw))
  cases r <;> exact hw

lemma begin_refused (h : H2) (hr : H2Request) (hdrs : Headers) (hno : submits h hr = false) :
    ∃ f, (h.begin hr hdrs).2 = .error f := by
  unfold submits at hno
  unfold H2.begin
  by_cases hready : h.failed = true ∨ ¬h.allowed = true
  · rw [if_pos hready]
    exact ⟨_, rfl⟩
  · have hte : H2.badTe hr = true := by
      rw [not_or, not_not] at hready
      simpa [hready.1, hready.2] using hno
    rw [if_neg hready, if_pos hte]
    exact ⟨_, rfl⟩

lemma exchangeOverH2_at (script : HopScript) (px : Proxy) (h : H2) {rq : Request}
    (hb : BuiltFrom call c px rq) :
    Triple (At (Z := Z) s.layers k) (exchangeOverH2 call script c px s h rq) (Got call c k)
      (fun _ => AtMost call c [] k) := by
  refine Triple.bind (M := fun rq w => SentFrom call c px true rq ∧ w.At s.layers k)
    (Triple.onFailure (At.gives (finishH2_gives hb)) (fun _ _ hw => Or.inl hw.drop))
    (fun rq' => Triple.assuming (fun hrq => ?_))
  refine Triple.bind (P := At s.layers k) (M := fun _ => At s.layers k)
    (Triple.onFailure (At.onHost _) (fun _ _ hw => Or.inl hw.drop)) (fun _ => ?_)
  have hbegin := begin_refused h (h2Request c rq') Headers.init
  cases hrun : h.begin (h2Request c rq') Headers.init with
  | mk h' res =>
    rw [hrun] at hbegin
    dsimp only
    rw [hrun]
    by_cases hsub : submits h (h2Request c rq') = true
    · refine Triple.bind (M := fun _ => AtSent call c s.layers k)
        (Triple.ite (fun _ => Triple.modify (fun w hw => ?_)) (fun hno => absurd hsub hno))
        (fun _ => Triple.bind (M := fun _ => AtSent call c s.layers k)
          ((Triple.attempt (AtSent.onHost _)).conseq (fun _ hw => hw) (fun r _ hw => ?_)
            (fun _ _ hw => hw)) (fun r => Triple.pure (fun w hw => Got.of_sent hw)))
      · have hsrc : w.source = k.source := congrArg Core.source hw.core
        refine (Logs.one hw _ ?_).sent ⟨rfl, rfl, rfl, rfl, hrq, nofun, nofun⟩
        rw [hsrc]
        split_ifs with hlive
        · exact ⟨rfl, rfl, rfl, script.pulls, rfl,
            fun hdead => absurd hlive (by rw [hdead]; decide)⟩
        · exact Pulls.refl c _
      · cases r <;> exact hw
    · obtain ⟨f, hf⟩ := hbegin (by simpa using hsub)
      obtain rfl : res = .error f := hf
      refine Triple.bind (M := fun _ => At s.layers k)
        (Triple.ite (fun hyes => absurd hyes hsub) (fun _ => Triple.pure (fun _ hw => hw)))
        (fun _ => Triple.bind (M := fun r w => (∃ rc, r = .error rc) ∧ w.At s.layers k)
          ?_ (fun r => Triple.pure (fun w hw => ?_)))
      · exact (Triple.attempt (At.failing (Q := fun _ _ => False) (Host.raise_fails f))).conseq
          (fun _ hw => hw) (fun r w hw => by
            cases r with
            | ok a => exact hw.elim
            | error rc => exact ⟨⟨rc, rfl⟩, hw⟩) (fun _ _ hw => hw)
      · obtain ⟨⟨rc, rfl⟩, hat⟩ := hw
        exact Or.inl hat

/-- A hop up to the head of its response: one request was sent when there is an answer, and
the stream is in hand. -/
theorem exchange_at (env : Env) (call : Call) (c : Chain) (px : Proxy) (k : Core Z) :
    Triple (At [] k) (exchange env call c px) (Got call c k) (fun _ => AtMost call c [] k) := by
  have hopen : Triple (At (Z := Z) [] k) (openStream env call.opts (env.hop c.hops) c.cur px)
      (fun s => At s.layers k) (fun _ => AtMost call c [] k) :=
    (openStream_at env call.opts (env.hop c.hops) c.cur px).conseq (fun _ hw => hw)
      (fun _ _ hw => hw) (fun _ _ hw => Or.inl hw)
  have hchoose : ∀ s, Triple (At (Z := Z) s.layers k)
      (chooseProtocol call.opts (env.hop c.hops) c.cur px s) (fun s' => At s'.layers k)
      (fun _ => AtMost call c [] k) :=
    fun s => (chooseProtocol_at call.opts (env.hop c.hops) c.cur px s).conseq (fun _ hw => hw)
      (fun _ _ hw => hw) (fun _ _ hw => Or.inl hw)
  refine Triple.bind hopen (fun s₀ => Triple.bind (hchoose s₀) (fun s => ?_))
  refine Triple.bind (M := fun rq w => BuiltFrom call c px rq ∧ w.At s.layers k)
    (Triple.onFailure (At.gives (buildRequest_gives call c px)) (fun _ _ hw => Or.inl hw.drop))
    (fun rq => Triple.assuming (fun hb => ?_))
  cases s.conn with
  | h1 t => exact exchangeH1_at px t hb
  | h2 h => exact exchangeOverH2_at (env.hop c.hops) px h hb

end Zuhttp
