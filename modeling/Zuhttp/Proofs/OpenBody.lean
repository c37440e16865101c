import Zuhttp.Proofs.BodySource

/-!
# The pulled body against the buffered one

The steps a caller pulls one by one are those of the loop to the end, and what the reads
return is what that loop collects.
-/

namespace Zuhttp

open Loop Pull

variable {Z : Zlib}

namespace OpenBody

open BodySource

/-- The body `b₀`, still open, after reads that returned `out`. -/
structure Pulled (b₀ b : OpenBody Z) (out : Bytes) : Prop where
  reached : ∃ q given, b₀.src.Steps q ∧ Follows pulling Memory given q b.src ∧
    out = given.flatten ++ b.src.staged.take b.stagedOff ∧ b.ended = q.done
  within : b.stagedOff ≤ b.src.staged.length
  going : b.aborted = false ∧ b.failed = false
  held : b.stream = !b.ended
  released : b.released = if b.ended then [b.reuse] else []
  verdict : b.reuseIfEnded = b₀.reuseIfEnded

/-- The body `b₀`, whose source failed after the reads returned `out`. -/
structure Broken (b₀ b : OpenBody Z) (out : Bytes) (f : Fail) : Prop where
  reached : ∃ q s, b₀.src.Steps q ∧ q.done = false ∧ q.step = (s, some f) ∧ out <+: s.staged
  failed : b.failed = true
  released : ∃ r, r ≠ .ok ∧ b.released = [r]

lemma ready_eq_false {b : OpenBody Z} :
    b.ready = false ↔ b.stagedOff = b.src.staged.length ∧ b.ended = false := by
  unfold ready
  rw [Bool.or_eq_false_iff, decide_eq_false_iff_not, not_not, eq_comm]

/-- One more step of the body is one more step of the loop to the end. -/
lemma pullStep_pulled {b₀ b b' : OpenBody Z} {out : Bytes} {res : Option Fail}
    (h : Pulled b₀ b out) (hready : b.ready = false) (hstep : b.pullStep = (b', res)) :
    match (motive := Option Fail → Prop) res with
    | none => Pulled b₀ b' out
    | some f => Broken b₀ b' out f := by
  obtain ⟨⟨q, given, hsteps, hfollows, hout, hended⟩, -, hgoing, hheld, hreleased, hverdict⟩ := h
  obtain ⟨hoff, hopen⟩ := ready_eq_false.mp hready
  rw [hopen] at hended hheld hreleased
  simp only [Bool.not_false, Bool.false_eq_true, if_false] at hheld hreleased
  have hfollows' := hfollows.clear pulling_blind
  obtain ⟨hnext, hanswer⟩ := hfollows'.step pulling_blind
  have hout' : out = (given ++ b.src.pipe.sink.handed).flatten := by
    rw [hout, hoff, List.take_length, List.flatten_append]
    rfl
  unfold pullStep at hstep
  dsimp only at hstep
  cases hp : b.src.clear.step with
  | mk src' f =>
    have hanswer' : (pulling.step q).2 = f := by
      rw [← hanswer]
      exact congrArg Prod.snd hp
    have hnext' : Follows pulling Memory (given ++ b.src.pipe.sink.handed) (pulling.step q).1
        src' := by
      have hsrc : (pulling.step (pulling.clear b.src)).1 = src' := congrArg Prod.fst hp
      rwa [hsrc] at hnext
    rw [hp] at hstep
    cases f with
    | some f =>
      simp only [release, hheld, if_true] at hstep
      obtain ⟨rfl, rfl⟩ := Prod.mk.inj hstep
      have hbuffer : out <+: (pulling.step q).1.staged := by
        obtain ⟨-, -, -, hbuffer⟩ := hnext'
        have hall : (pulling.step q).1.pipe.sink.handed =
          given ++ b.src.pipe.sink.handed ++ src'.pipe.sink.handed := hbuffer
        unfold staged Sink.bytes
        rw [hall, List.flatten_append, ← hout']
        exact List.prefix_append _ _
      refine ⟨⟨q, _, hsteps, hended.symm, Prod.ext rfl hanswer', hbuffer⟩, rfl, ?_⟩
      · dsimp only
        rw [hreleased]
        refine ⟨_, ?_, rfl⟩
        split_ifs <;> decide
    | none =>
      have hsteps' : b₀.src.Steps (pulling.step q).1 :=
        Loop.Reached.next hsteps hended.symm (Prod.ext rfl hanswer')
      have hdone : src'.done = (pulling.step q).1.done := hnext'.done pulling_blind
      have hreached : ∃ q given', b₀.src.Steps q ∧ Follows pulling Memory given' q src' ∧
          out = given'.flatten ++ src'.staged.take 0 ∧ src'.done = q.done :=
        ⟨_, _, hsteps', hnext', by rw [hout', List.take_zero, List.append_nil], hdone⟩
      dsimp only at hstep
      cases hend : src'.done with
      | false =>
        rw [if_neg (by simp [hend])] at hstep
        obtain ⟨rfl, rfl⟩ := Prod.mk.inj hstep
        refine ⟨hreached, Nat.zero_le _, hgoing, ?_, ?_, hverdict⟩
        · dsimp only
          rw [hend, hheld]
          rfl
        · dsimp only
          rw [hend, hreleased]
          rfl
      | true =>
        rw [if_pos hend] at hstep
        simp only [release, hheld, if_true] at hstep
        obtain ⟨rfl, rfl⟩ := Prod.mk.inj hstep
        refine ⟨hreached, Nat.zero_le _, hgoing, ?_, ?_, hverdict⟩
        · dsimp only
          rw [hend]
          rfl
        · dsimp only
          rw [hend, hreleased]
          rfl

lemma pullStep_left {b₀ b b' : OpenBody Z} {out : Bytes}
    (h : Pulled b₀ b out) (hready : b.ready = false) (hstep : b.pullStep = (b', none)) :
    b'.ready = true ∨ b'.src.left < b.src.left := by
  obtain ⟨q, given, -, hfollows, -, hended⟩ := h.reached
  obtain ⟨-, hopen⟩ := ready_eq_false.mp hready
  have hgoing : b.src.clear.done = false := by
    have hclear : b.src.clear.done = b.src.done := pulling_blind.done_clear b.src
    have hdone : b.src.done = q.done := hfollows.done pulling_blind
    rw [hclear, hdone, ← hended, hopen]
  have hleft : b.src.clear.left = b.src.left := by
    cases b.src <;> rfl
  unfold pullStep at hstep
  dsimp only at hstep
  cases hp : b.src.clear.step with
  | mk src' f =>
    rw [hp] at hstep
    cases f with
    | some f => cases hstep
    | none =>
      have hless := BodySource.step_left hgoing hp
      rw [hleft] at hless
      dsimp only at hstep
      cases hend : src'.done with
      | false =>
        rw [if_neg (by simp [hend])] at hstep
        obtain ⟨rfl, -⟩ := Prod.mk.inj hstep
        refine Or.inr (hless.resolve_left ?_)
        simp [hend]
      | true =>
        rw [if_pos hend] at hstep
        obtain ⟨rfl, -⟩ := Prod.mk.inj hstep
        refine Or.inl ?_
        unfold ready release
        split_ifs <;> simp [hend]

/-- The loop of a read steps the body until there is something to return or nothing more to
read. -/
lemma fill_pulled {b₀ b b' : OpenBody Z} {out : Bytes} {res : Option Fail}
    (h : Pulled b₀ b out)
    (hfill : Loop.iterate pullStep ready b.src.fuel b = (b', res)) :
    match (motive := Option Fail → Prop) res with
    | none => Pulled b₀ b' out ∧ b'.ready = true
    | some f => Broken b₀ b' out f := by
  have hstep : ∀ s s' : OpenBody Z, Pulled b₀ s out → s.ready = false →
      s.pullStep = (s', none) → Pulled b₀ s' out :=
    fun s s' hs hready hst => pullStep_pulled hs hready hst
  cases res with
  | none =>
    refine ⟨(Loop.iterate_reached hfill).invariant h hstep, ?_⟩
    refine Loop.iterate_done (I := fun s => Pulled b₀ s out) (m := fun s => s.src.left)
      ?_ h b.src.left_lt_fuel hfill
    intro s s' hs hready hst
    exact (pullStep_left hs hready hst).imp_right (fun hless => ⟨hstep s s' hs hready hst, hless⟩)
  | some f =>
    obtain ⟨t, ht, hready, hlast⟩ := Loop.iterate_failed hfill
    exact pullStep_pulled (ht.invariant h hstep) hready hlast

/-- A read returns the next bytes, or it fails as the loop to the end does. -/
theorem read_pulled {b₀ b b' : OpenBody Z} {out : Bytes} {n : Nat}
    {res : Except Fail Bytes} (h : Pulled b₀ b out) (hread : b.read n = (b', res)) :
    match (motive := Except Fail Bytes → Prop) res with
    | .ok more => Pulled b₀ b' (out ++ more) ∧ (0 < n → more = [] → b'.done = true)
    | .error f => Broken b₀ b' out f := by
  obtain ⟨haborted, hfailed⟩ := h.going
  unfold read at hread
  rw [if_neg (by simp [hfailed]), if_neg (by simp [haborted])] at hread
  cases hfill : Loop.iterate pullStep ready b.src.fuel b with
  | mk b₁ f =>
    have hpulled := fill_pulled h hfill
    rw [hfill] at hread
    cases f with
    | some f =>
      cases hread
      exact hpulled
    | none =>
      obtain ⟨⟨⟨q, given, hsteps, hfollows, hout, hended⟩, hwithin, hgoing, hheld, hreleased,
        hverdict⟩,
        hready⟩ := hpulled
      obtain ⟨take, htake⟩ : ∃ take, take = min n (b₁.src.staged.length - b₁.stagedOff) := ⟨_, rfl⟩
      have hcut : (if n > b₁.src.staged.length - b₁.stagedOff then
          b₁.src.staged.length - b₁.stagedOff else n) = take := by
        split_ifs <;> omega
      dsimp only at hread
      rw [hcut] at hread
      obtain ⟨rfl, rfl⟩ := Prod.mk.inj hread
      refine ⟨⟨⟨q, given, hsteps, hfollows, ?_, hended⟩, ?_, hgoing, hheld, hreleased,
        hverdict⟩, ?_⟩
      · rw [hout, List.append_assoc, ← List.take_add]
      · dsimp only
        omega
      · intro hpos hempty
        have hlen := congrArg List.length hempty
        simp only [List.length_take, List.length_drop, List.length_nil] at hlen
        have hoff : b₁.stagedOff = b₁.src.staged.length := by omega
        have hzero : take = 0 := by omega
        have hend : b₁.ended = true := by
          unfold ready at hready
          simpa [hoff] using hready
        unfold done
        simp [hend, hoff, hzero]

lemma pull_of_done {b : OpenBody Z} (ns : List Nat) (h : b.done = true) :
    b.pull ns = (b, [], none) := by
  cases ns with
  | nil => rfl
  | cons n ns => rw [pull, if_pos h]

/-- Reads of a body until it is done. -/
theorem pull_pulled {b₀ b b' : OpenBody Z} {out more : Bytes} {ns : List Nat}
    {res : Option Fail} (h : Pulled b₀ b out) (hpos : ∀ n ∈ ns, 0 < n)
    (hpull : b.pull ns = (b', more, res)) :
    match (motive := Option Fail → Prop) res with
    | none => Pulled b₀ b' (out ++ more) ∧ (b'.done = true ∨ ns.length ≤ more.length)
    | some f => Broken b₀ b' (out ++ more) f := by
  induction ns generalizing b out more with
  | nil =>
    cases hpull
    rw [List.append_nil]
    exact ⟨h, Or.inr (Nat.le_refl _)⟩
  | cons n ns ih =>
    unfold pull at hpull
    by_cases hdone : b.done = true
    · rw [if_pos hdone] at hpull
      cases hpull
      rw [List.append_nil]
      exact ⟨h, Or.inl hdone⟩
    · rw [if_neg hdone] at hpull
      cases hread : b.read n with
      | mk b₁ r =>
        have hnext := read_pulled h hread
        rw [hread] at hpull
        cases r with
        | error f =>
          cases hpull
          rw [List.append_nil]
          exact hnext
        | ok bytes =>
          obtain ⟨hpulled, hprogress⟩ := hnext
          cases hrest : b₁.pull ns with
          | mk b₂ r =>
            obtain ⟨more', res'⟩ := r
            simp only [hrest] at hpull
            cases hpull
            have hall := ih hpulled (fun m hm => hpos m (List.mem_cons_of_mem _ hm)) hrest
            rw [List.append_assoc] at hall
            cases res with
            | some f => exact hall
            | none =>
              refine ⟨hall.1, ?_⟩
              by_cases hempty : bytes = []
              · have hd := hprogress (hpos n (List.mem_cons_self ..)) hempty
                rw [pull_of_done ns hd] at hrest
                cases hrest
                exact Or.inl hd
              · refine hall.2.imp_right ?_
                intro hle
                have hone := List.length_pos_iff.mpr hempty
                simp only [List.length_cons, List.length_append]
                omega

end OpenBody

/-! ### The buffered body -/

def BodyInput.frame : BodyInput → Option Framing
  | .h1 fr _ _ => some fr
  | .h2 _ => none

namespace OpenBody

open BodySource

lemma clear_inj {src src' : BodySource Z} (h : src.clear = src'.clear) :
    src.pipe.trailers = src'.pipe.trailers ∧ src.pipe.surplus = src'.pipe.surplus := by
  have hpipe := congrArg BodySource.pipe h
  have htrailers := congrArg BodyPipe.trailers hpipe
  have hsurplus := congrArg BodyPipe.surplus hpipe
  cases src <;> cases src' <;> exact ⟨htrailers, hsurplus⟩

lemma settle_memory {src : BodySource Z} (h : Headers) (minor : Int) (res : Option Fail)
    (hmem : src.Memory) : settle false h minor src res = ⟨src, h, res,
      if res = none ∧ src.pipe.surplus > 0 ∧ src.reuse h minor (resultCode res) = .ok
      then .framing else src.reuse h minor (resultCode res)⟩ := by
  have hgoing : ¬(resultCode res = .cancelled ∧ src.pipe.sink.stopped = true) := by
    rintro ⟨-, hstopped⟩
    have hmem' : src.pipe.sink.stopped = false := hmem.2
    rw [hmem'] at hstopped
    cases hstopped
  have hkept : ¬(false = true ∧ (resultCode res = .bodyLimit ∨ resultCode res = .parse)) :=
    fun hfollow => Bool.false_ne_true hfollow.1
  unfold settle
  dsimp only
  rw [if_neg hkept, if_neg hgoing]

lemma reuse_ne_ok (src : BodySource Z) (h : Headers) (minor : Int) (f : Fail) :
    src.reuse h minor f.rc ≠ .ok := by
  cases src with
  | h1 st =>
    intro hok
    exact f.rc_ne (reuseDecide_eq_ok hok).1
  | h2 st =>
    dsimp only [BodySource.reuse]
    unfold h2Reuse
    by_cases hstop : f.rc = .timeout ∨ f.rc = .cancelled ∨ f.rc = .interrupted
    · rw [if_pos hstop]
      decide
    · rw [if_neg hstop, if_pos (Or.inl f.rc_ne)]
      decide

/-- What a body pulled by `count` reads owes to the buffered one. -/
def ReadsAs (r : Received Z) (count : Nat) (b : OpenBody Z) (out : Bytes) (res : Option Fail) :
    Prop :=
  out <+: r.src.staged ∧ (r.src.staged.length < count → b.done = true) ∧
    match r.res with
    | none => res = none ∧ (b.done = true → out = r.src.staged ∧ b.endedClean = true ∧
        b.trailers = r.src.pipe.trailers ∧ b.released = [r.reuse])
    | some f => r.reuse ≠ .ok ∧ (res = none ∨ res = some f) ∧
        (b.done = true → res = some f ∧ ∃ v, v ≠ .ok ∧ b.released = [v])

/-- A body that was opened for the input, with the headers the pipe left. -/
structure Opened (input : BodyInput) (h' : Headers) (minor : Int) (b : OpenBody Z) : Prop where
  going : b.src.done = false
  memory : b.src.Memory
  frame : b.src.frame = input.frame
  verdict : b.reuseIfEnded = input.reuseIfEnded h' minor
  start : Pulled b b []

lemma new_eq_ok {input : BodyInput} {h h' : Headers} {minor : Int} {cap : Nat}
    {noDecode : Bool} {b : OpenBody Z} (hnew : new input h minor cap noDecode = .ok (b, h')) :
    Opened input h' minor b ∧
      receiveBody false input Sink.memory h minor cap noDecode =
        settle false h' minor b.src.readAll.1 b.src.readAll.2 := by
  unfold new at hnew
  unfold receiveBody
  cases hinit : BodyPipe.init (Z := Z) Sink.memory h noDecode cap with
  | error f =>
    rw [hinit] at hnew
    cases hnew
  | ok r =>
    obtain ⟨p, h₁⟩ := r
    rw [hinit] at hnew
    obtain ⟨hsink, -⟩ := BodyPipe.init_fresh hinit
    have hmem : p.Memory := by
      unfold BodyPipe.Memory
      rw [hsink]
      exact ⟨rfl, rfl⟩
    have hhanded : p.sink.handed = [] := by
      rw [hsink]
      rfl
    cases input with
    | h1 fr t seed =>
      cases hnew
      refine ⟨⟨rfl, hmem, rfl, rfl, ?_⟩, rfl⟩
      exact ⟨⟨_, [], .start, .refl hmem, by simp, rfl⟩, Nat.zero_le _, ⟨rfl, rfl⟩, rfl, rfl, rfl⟩
    | h2 conn =>
      cases hnew
      refine ⟨⟨rfl, hmem, rfl, rfl, ?_⟩, rfl⟩
      exact ⟨⟨_, [], .start, .refl hmem, by simp, rfl⟩, Nat.zero_le _, ⟨rfl, rfl⟩, rfl, rfl, rfl⟩

lemma new_src_h2 {conn : H2} {h h' : Headers} {minor : Int} {cap : Nat} {noDecode : Bool}
    {b : OpenBody Z} (hnew : new (.h2 conn) h minor cap noDecode = .ok (b, h')) :
    ∃ p, b.src = .h2 ⟨conn, p, false⟩ := by
  unfold new at hnew
  cases hinit : BodyPipe.init (Z := Z) Sink.memory h noDecode cap with
  | error f =>
    rw [hinit] at hnew
    cases hnew
  | ok r =>
    rw [hinit] at hnew
    cases hnew
    exact ⟨_, rfl⟩

lemma new_eq_error {input : BodyInput} {h : Headers} {minor : Int} {cap : Nat}
    {noDecode : Bool} {f : Fail}
    (hnew : (new input h minor cap noDecode : Except Fail (OpenBody Z × Headers)) = .error f) :
    ∃ src : BodySource Z, src.Memory ∧
      receiveBody false input Sink.memory h minor cap noDecode =
        settle false h minor src (some f) := by
  unfold new at hnew
  unfold receiveBody
  cases hinit : BodyPipe.init (Z := Z) Sink.memory h noDecode cap with
  | error f' =>
    rw [hinit] at hnew
    cases hnew
    refine ⟨_, ?_, rfl⟩
    cases input <;> exact ⟨rfl, rfl⟩
  | ok r =>
    rw [hinit] at hnew
    cases hnew

/-- The verdict of a body pulled to its end is that of the buffered one. -/
lemma reuse_eq {input : BodyInput} {h' : Headers} {minor : Int} {b₀ b : OpenBody Z}
    {q : BodySource Z} (hopened : Opened input h' minor b₀) (hsteps : b₀.src.Steps q)
    (hsame : b.src.clear = q.clear) (hverdict : b.reuseIfEnded = b₀.reuseIfEnded) :
    b.reuse = if q.pipe.surplus > 0 ∧ q.reuse h' minor .ok = .ok then .framing
      else q.reuse h' minor .ok := by
  have hframe := (steps_frame hsteps).trans hopened.frame
  have hverdict' := hverdict.trans hopened.verdict
  have hbare : b.src.endedReuse b.reuseIfEnded = q.reuse h' minor .ok := by
    rw [hverdict']
    cases hq : q with
    | h1 st =>
      rw [hq] at hsame hframe
      cases hb : b.src with
      | h2 st' =>
        rw [hb] at hsame
        cases hsame
      | h1 st' =>
        cases input with
        | h2 conn => cases hframe
        | h1 fr t seed =>
          dsimp only [BodySource.reuse, endedReuse, BodyInput.reuseIfEnded]
          rw [Option.some.inj hframe]
    | h2 st =>
      rw [hq] at hsame
      cases hb : b.src with
      | h1 st' =>
        rw [hb] at hsame
        cases hsame
      | h2 st' =>
        rw [hb] at hsame
        have hconn : st'.conn = st.conn := by
          injection hsame with hst
          have hconn := congrArg H2.BodyState.conn hst
          exact hconn
        dsimp only [BodySource.reuse, endedReuse]
        unfold h2Reuse
        rw [hconn]
        cases st.conn.reusable <;> rfl
  unfold reuse
  dsimp only
  rw [hbare, (clear_inj hsame).2]
  simp only [and_comm]

lemma pulled_done {b₀ b : OpenBody Z} {out : Bytes} (h : Pulled b₀ b out)
    (hdone : b.done = true) : b.ended = true ∧ b.stagedOff = b.src.staged.length := by
  obtain ⟨haborted, hfailed⟩ := h.going
  unfold done at hdone
  rw [haborted, hfailed] at hdone
  simpa using hdone

/-- The reads of an opened body against the buffered one. -/
lemma pull_readsAs {input : BodyInput} {h' : Headers} {minor : Int} {b b' : OpenBody Z}
    {ns : List Nat} {out : Bytes} {res : Option Fail} (hopened : Opened input h' minor b)
    (hpos : ∀ n ∈ ns, 0 < n) (hpull : b.pull ns = (b', out, res)) :
    ReadsAs (settle false h' minor b.src.readAll.1 b.src.readAll.2) ns.length b' out res := by
  have hpulled := pull_pulled hopened.start hpos hpull
  rw [List.nil_append] at hpulled
  cases res with
  | some f =>
    obtain ⟨⟨q, s, hsteps, hgoing, hstep, hpre⟩, hfailed, v, hv, hreleased⟩ := hpulled
    have hall := readAll_of_fail hopened.going hsteps hgoing hstep
    rw [settle_memory h' minor _ (readAll_memory hopened.going hopened.memory), hall]
    have hne := reuse_ne_ok s h' minor f
    have hdone : b'.done = true := by
      unfold done
      simp [hfailed]
    refine ⟨hpre, fun _ => hdone, ?_, Or.inr rfl, fun _ => ⟨rfl, v, hv, hreleased⟩⟩
    dsimp only
    rw [if_neg (by simp)]
    exact hne
  | none =>
    obtain ⟨hpulled, hprogress⟩ := hpulled
    obtain ⟨q, given, hsteps, hfollows, hout, hended⟩ := hpulled.reached
    have hstaged : q.staged = given.flatten ++ b'.src.staged := by
      have hbuffer : q.pipe.sink.handed = given ++ b'.src.pipe.sink.handed := hfollows.buffer
      unfold staged Sink.bytes
      rw [hbuffer, List.flatten_append]
    have hpre : out <+: q.staged := by
      rw [hout, hstaged]
      exact List.prefix_append_right_inj _ |>.mpr (List.take_prefix _ _)
    have hall := hpre.trans (staged_begins hopened.going hopened.memory hsteps)
    have hdone : b'.done = true → b.src.readAll = (q, none) ∧ out = q.staged := by
      intro hdone
      obtain ⟨hend, hoff⟩ := pulled_done hpulled hdone
      refine ⟨readAll_of_done hopened.going hsteps (hended.symm.trans hend), ?_⟩
      rw [hout, hstaged, hoff, List.take_length]
    rw [settle_memory h' minor _ (readAll_memory hopened.going hopened.memory)]
    refine ⟨hall, ?_, ?_⟩
    · intro hlong
      refine hprogress.resolve_right ?_
      have hle := hall.length_le
      dsimp only at hlong
      omega
    · cases hres : b.src.readAll.2 with
      | none =>
        refine ⟨rfl, fun hd => ?_⟩
        obtain ⟨hread, hwhole⟩ := hdone hd
        obtain ⟨hend, hoff⟩ := pulled_done hpulled hd
        rw [hread]
        refine ⟨hwhole, ?_, (clear_inj hfollows.same).1, ?_⟩
        · unfold endedClean
          simp [hpulled.going.1, hpulled.going.2, hend, hoff]
        · rw [hpulled.released, if_pos hend,
            reuse_eq hopened hsteps hfollows.same hpulled.verdict]
          simp only [resultCode, true_and]
      | some f =>
        refine ⟨?_, Or.inl rfl, fun hd => ?_⟩
        · dsimp only
          rw [if_neg (by simp)]
          exact reuse_ne_ok _ h' minor f
        · rw [(hdone hd).1] at hres
          cases hres

/-! ### Any calls -/

/-- The connection is held, or it was given back once. -/
def ReleasedOnce (b : OpenBody Z) : Prop := b.released.length = if b.stream then 0 else 1

lemma release_once {b : OpenBody Z} (r : Reuse) (h : b.ReleasedOnce) :
    (b.release r).ReleasedOnce ∧ (b.release r).stream = false := by
  unfold ReleasedOnce at h ⊢
  unfold release
  cases hstream : b.stream with
  | true =>
    rw [if_pos rfl]
    rw [hstream, if_pos rfl] at h
    exact ⟨by simp [h], rfl⟩
  | false =>
    rw [if_neg (by simp)]
    exact ⟨h, hstream⟩

lemma pullStep_once {b : OpenBody Z} (h : b.ReleasedOnce) : b.pullStep.1.ReleasedOnce := by
  unfold pullStep
  dsimp only
  cases b.src.clear.step with
  | mk src f =>
    cases f with
    | some f =>
      refine (release_once _ ?_).1
      exact h
    | none =>
      dsimp only
      split_ifs
      · refine (release_once _ ?_).1
        exact h
      · exact h

lemma read_once {b : OpenBody Z} (n : Nat) (h : b.ReleasedOnce) : (b.read n).1.ReleasedOnce := by
  have hfill : ReleasedOnce (Loop.iterate pullStep ready b.src.fuel b).1 :=
    Loop.iterate_keeps (fun s hs => pullStep_once hs) h b.src.fuel
  unfold read
  split_ifs
  · exact h
  · exact h
  · split
    · next hrun =>
      rw [hrun] at hfill
      exact hfill
    · next hrun =>
      rw [hrun] at hfill
      exact hfill

lemma abort_once {b : OpenBody Z} (h : b.ReleasedOnce) : b.abort.ReleasedOnce := by
  unfold abort
  split_ifs
  · exact h
  · dsimp only
    cases b.src with
    | h1 st =>
      refine (release_once _ ?_).1
      exact h
    | h2 st =>
      dsimp only
      by_cases hstream : b.stream = true
      · rw [if_pos hstream]
        refine (release_once _ ?_).1
        exact h
      · rw [if_neg hstream]
        refine (release_once _ ?_).1
        exact h

lemma calls_once {b : OpenBody Z} (cs : List Call) (h : b.ReleasedOnce) :
    (b.calls cs).ReleasedOnce := by
  induction cs generalizing b with
  | nil => exact h
  | cons c cs ih =>
    cases c with
    | read n => exact ih (read_once n h)
    | abort => exact ih (abort_once h)

lemma free_released {b : OpenBody Z} (h : b.ReleasedOnce) : ∃ v, b.free.released = [v] := by
  obtain ⟨honce, hclosed⟩ := release_once .cancelled (abort_once h)
  unfold ReleasedOnce at honce
  rw [hclosed] at honce
  exact List.length_eq_one_iff.mp honce

/-- A body that failed or was aborted stays as it is, and every read of it fails. -/
lemma read_over {b : OpenBody Z} (h : b.failed = true ∨ b.aborted = true) (n : Nat) :
    ∃ f, b.read n = (b, .error f) := by
  unfold read
  by_cases hfailed : b.failed = true
  · rw [if_pos hfailed]
    exact ⟨_, rfl⟩
  · rw [if_neg hfailed, if_pos (h.resolve_left hfailed)]
    exact ⟨_, rfl⟩

lemma calls_over {b : OpenBody Z} (h : b.failed = true ∨ b.aborted = true) (cs : List Call) :
    b.calls cs = b := by
  induction cs with
  | nil => rfl
  | cons c cs ih =>
    have hcall : b.call c = b := by
      cases c with
      | read n =>
        obtain ⟨f, hread⟩ := read_over h n
        exact congrArg Prod.fst hread
      | abort =>
        unfold call abort
        rw [if_pos (Or.inr h.symm)]
    unfold calls at ih ⊢
    rw [List.foldl_cons, hcall, ih]

lemma abort_over {b : OpenBody Z} (h : b.ended = false) :
    b.abort.failed = true ∨ b.abort.aborted = true := by
  unfold abort
  by_cases hover : b.ended = true ∨ b.aborted = true ∨ b.failed = true
  · rw [if_pos hover]
    exact (hover.resolve_left (by simp [h])).symm
  · rw [if_neg hover]
    refine Or.inr ?_
    dsimp only
    cases b.src with
    | h1 st =>
      unfold release
      split_ifs <;> rfl
    | h2 st =>
      dsimp only
      unfold release
      split_ifs <;> rfl

/-- What the reads among some calls return. -/
def returned : OpenBody Z → List Call → Bytes
  | _, [] => []
  | b, .read n :: cs => (b.read n).2.toOption.getD [] ++ returned (b.call (.read n)) cs
  | b, .abort :: cs => returned (b.call .abort) cs

/-- However it is read, an open body stands where the loop to the end passes. -/
lemma calls_pulled {b₀ b : OpenBody Z} {out : Bytes} (cs : List Call) (h : Pulled b₀ b out) :
    (b.calls cs).failed = true ∨ (b.calls cs).aborted = true ∨
      Pulled b₀ (b.calls cs) (out ++ b.returned cs) := by
  induction cs generalizing b out with
  | nil =>
    refine Or.inr (Or.inr ?_)
    rw [returned, List.append_nil]
    exact h
  | cons c cs ih =>
    have hover : (b.call c).failed = true ∨ (b.call c).aborted = true →
        (b.calls (c :: cs)).failed = true ∨ (b.calls (c :: cs)).aborted = true := by
      intro hover
      have hcalls : b.calls (c :: cs) = b.call c := calls_over hover cs
      rwa [hcalls]
    cases c with
    | read n =>
      cases hread : b.read n with
      | mk b' res =>
        have hcall : b.call (.read n) = b' := congrArg Prod.fst hread
        have hpulled := read_pulled h hread
        cases res with
        | error f =>
          have hfailed : (b.call (.read n)).failed = true := by
            rw [hcall]
            exact hpulled.failed
          exact (hover (Or.inl hfailed)).imp_right Or.inl
        | ok more =>
          have hnext := ih hpulled.1
          rw [← hcall, List.append_assoc] at hnext
          rw [returned, hread]
          exact hnext
    | abort =>
      cases hended : b.ended with
      | false => exact (hover (abort_over hended)).imp_right Or.inl
      | true =>
        have hsame : b.call .abort = b := if_pos (Or.inl hended)
        have hnext := ih h
        rw [← hsame] at hnext
        exact hnext

/-- A body that reports its end was read as by the loop to the end, and its reads returned
what that loop hands its sink. -/
lemma ended_readAll {input : BodyInput} {h' : Headers} {minor : Int} {b : OpenBody Z}
    (hopened : Opened input h' minor b) {cs : List Call}
    (hended : (b.calls cs).endedClean = true) :
    ∃ q, b.src.readAll = (q, none) ∧ (b.calls cs).src.clear = q.clear ∧
      b.returned cs = q.staged := by
  unfold endedClean at hended
  simp only [Bool.and_eq_true, Bool.not_eq_true', decide_eq_true_eq] at hended
  obtain ⟨⟨⟨haborted, hfailed⟩, hend⟩, hoff⟩ := hended
  rcases calls_pulled cs hopened.start with hfailed' | haborted' | hpulled
  · rw [hfailed] at hfailed'
    cases hfailed'
  · rw [haborted] at haborted'
    cases haborted'
  · obtain ⟨q, given, hsteps, hfollows, hout, hdone⟩ := hpulled.reached
    have hbuffer : q.pipe.sink.handed = given ++ (b.calls cs).src.pipe.sink.handed :=
      hfollows.buffer
    refine ⟨q, readAll_of_done hopened.going hsteps (hdone.symm.trans hend), hfollows.same, ?_⟩
    rw [List.nil_append, hoff, List.take_length] at hout
    rw [hout]
    unfold staged Sink.bytes
    rw [hbuffer, List.flatten_append]

/-- A body that has ended and was read to its end stays as it is, and reads append
nothing. -/
lemma read_ended {b : OpenBody Z} (h : b.endedClean = true) (n : Nat) :
    b.read n = (b, .ok []) := by
  unfold endedClean at h
  simp only [Bool.and_eq_true, Bool.not_eq_true', decide_eq_true_eq] at h
  obtain ⟨⟨⟨haborted, hfailed⟩, hended⟩, hoff⟩ := h
  have hready : b.ready = true := by
    unfold ready
    simp [hended]
  unfold read
  rw [if_neg (by simp [hfailed]), if_neg (by simp [haborted]), Loop.iterate_of_done _ hready]
  have hnone : (if n > b.src.staged.length - b.stagedOff then
      b.src.staged.length - b.stagedOff else n) = 0 := by
    split_ifs <;> omega
  dsimp only
  rw [hnone, Nat.add_zero, List.take_zero]

lemma calls_ended {b : OpenBody Z} (h : b.endedClean = true) (cs : List Call) :
    b.calls cs = b := by
  induction cs with
  | nil => rfl
  | cons c cs ih =>
    have hcall : b.call c = b := by
      cases c with
      | read n => exact congrArg Prod.fst (read_ended h n)
      | abort =>
        unfold endedClean at h
        simp only [Bool.and_eq_true, Bool.not_eq_true', decide_eq_true_eq] at h
        unfold call abort
        rw [if_pos (Or.inl h.1.2)]
    unfold calls at ih ⊢
    rw [List.foldl_cons, hcall, ih]

/-- Staged bytes of a body that has ended are handed out. -/
lemma read_staged {b : OpenBody Z} (hended : b.ended = true) (hdone : b.done = false) (n : Nat) :
    ∃ out, (b.read n).2 = .ok out := by
  unfold done at hdone
  simp only [Bool.or_eq_false_iff] at hdone
  obtain ⟨⟨haborted, hfailed⟩, -⟩ := hdone
  have hready : b.ready = true := by
    unfold ready
    simp [hended]
  unfold read
  rw [if_neg (by simp [hfailed]), if_neg (by simp [haborted]), Loop.iterate_of_done _ hready]
  exact ⟨_, rfl⟩

/-- An abort stops a body that was not read to its end if and only if it finds no bytes staged
behind the end of the wire. -/
lemma abort_iff (b : OpenBody Z) :
    (b.endedClean = false → ∀ cs n, ∃ f, ((b.abort.calls cs).read n).2 = .error f) ↔
      (b.ended = true → b.done = true) := by
  have hstops : b.abort.failed = true ∨ b.abort.aborted = true →
      ∀ cs n, ∃ f, ((b.abort.calls cs).read n).2 = .error f := by
    intro hover cs n
    rw [calls_over hover]
    obtain ⟨f, hread⟩ := read_over hover n
    exact ⟨f, by rw [hread]⟩
  cases hended : b.ended with
  | false => exact iff_of_true (fun _ => hstops (abort_over hended)) (by rintro ⟨⟩)
  | true =>
    have hstays : b.abort = b := if_pos (Or.inl hended)
    cases hdone : b.done with
    | true =>
      refine iff_of_true (fun hclean => hstops ?_) fun _ => rfl
      rw [hstays]
      unfold done at hdone
      unfold endedClean at hclean
      rw [hended] at hdone hclean
      cases haborted : b.aborted with
      | true => exact Or.inr rfl
      | false =>
        cases hfailed : b.failed with
        | true => exact Or.inl rfl
        | false =>
          rw [haborted, hfailed] at hdone hclean
          exact absurd hclean (ne_false_of_eq_true hdone)
    | false =>
      refine iff_of_false (fun hall => ?_) (fun himp => absurd (himp rfl) (by decide))
      have hclean : b.endedClean = false := by
        unfold done at hdone
        unfold endedClean
        simp only [Bool.or_eq_false_iff] at hdone
        rw [hdone.1.1, hdone.1.2]
        exact hdone.2
      obtain ⟨f, hread⟩ := hall hclean [] 0
      obtain ⟨out, hout⟩ := read_staged hended hdone 0
      rw [hstays] at hread
      have hboth : (b.read 0).2 = .error f := hread
      rw [hout] at hboth
      cases hboth

/-- What the pulled body `b` owes to the buffered body `r`. -/
structure Agrees (r : Received Z) (b : OpenBody Z) : Prop where
  reads : ∀ (ns : List Nat) {b' out res}, (∀ n ∈ ns, 0 < n) → b.pull ns = (b', out, res) →
    ReadsAs r ns.length b' out res
  afterEnd : ∀ cs cs' n, (b.calls cs).endedClean = true →
    ((b.calls cs).calls cs').read n = (b.calls cs, .ok [])
  afterFailure : ∀ cs cs' n, (b.calls cs).failed = true →
    ∃ f, (((b.calls cs).calls cs').read n).2 = .error f
  /-- An abort stops a body that has not been read to its end, unless it finds the end of the
  wire with bytes still to be handed out. -/
  afterAbort : ∀ cs, ((b.calls cs).endedClean = false →
      ∀ cs' n, ∃ f, (((b.calls cs).abort.calls cs').read n).2 = .error f) ↔
    ((b.calls cs).ended = true → (b.calls cs).done = true)
  abortEnded : ∀ cs, (b.calls cs).ended = true → (b.calls cs).abort = b.calls cs
  released : ∀ cs, ∃ v, (b.calls cs).free.released = [v]

/-- The pulled body equals the buffered body. -/
theorem new_agrees (input : BodyInput) (h : Headers) (minor : Int) (cap : Nat)
    (noDecode : Bool) :
    match (new input h minor cap noDecode : Except Fail (OpenBody Z × Headers)) with
    | .error f =>
      (receiveBody (Z := Z) false input Sink.memory h minor cap noDecode).res = some f ∧
        (receiveBody (Z := Z) false input Sink.memory h minor cap noDecode).reuse ≠ .ok
    | .ok (b, h') =>
      (receiveBody (Z := Z) false input Sink.memory h minor cap noDecode).headers = h' ∧
        Agrees (receiveBody false input Sink.memory h minor cap noDecode) b := by
  cases hnew : (new input h minor cap noDecode : Except Fail (OpenBody Z × Headers)) with
  | error f =>
    obtain ⟨src, hmem, hreceived⟩ := new_eq_error hnew
    dsimp only
    rw [hreceived, settle_memory h minor _ hmem]
    refine ⟨rfl, ?_⟩
    dsimp only
    rw [if_neg (by simp)]
    exact reuse_ne_ok src h minor f
  | ok r =>
    obtain ⟨b, h'⟩ := r
    obtain ⟨hopened, hreceived⟩ := new_eq_ok hnew
    dsimp only
    rw [hreceived]
    refine ⟨?_, ?_, ?_, ?_, ?_, ?_, ?_⟩
    · rw [settle_memory h' minor _ (readAll_memory hopened.going hopened.memory)]
    · intro ns b' out res hpos hpull
      exact pull_readsAs hopened hpos hpull
    · intro cs cs' n hend
      rw [calls_ended hend, read_ended hend]
    · intro cs cs' n hfailed
      rw [calls_over (Or.inl hfailed)]
      obtain ⟨f, hread⟩ := read_over (Or.inl hfailed) n
      exact ⟨f, by rw [hread]⟩
    · exact fun cs => abort_iff (b.calls cs)
    · intro cs hended
      exact if_pos (Or.inl hended)
    · intro cs
      have hstart : b.ReleasedOnce := by
        unfold ReleasedOnce
        rw [hopened.start.held, hopened.start.released]
        cases b.ended <;> rfl
      exact free_released (calls_once cs hstart)

/-- An abort of a body that has ended and was not read to its end does nothing: reads go on
returning what is staged. -/
theorem abort_not_over : ¬∀ (input : BodyInput) (h : Headers) (minor : Int) (cap : Nat)
    (noDecode : Bool) (b : OpenBody (Zlib.knowing [] [])) (h' : Headers),
    new input h minor cap noDecode = .ok (b, h') →
      ∀ cs, (b.calls cs).endedClean = false →
        ∀ cs' n, ∃ f, (((b.calls cs).abort.calls cs').read n).2 = .error f := by
  intro hfails
  obtain ⟨f, hread⟩ := hfails (.h1 ⟨.length, 5, true⟩ { reads := [] } (ascii "hello"))
    Headers.init 1 0 true _ _ rfl [.read 2] rfl [] 3
  cases hread

end OpenBody

end Zuhttp
