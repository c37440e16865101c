import Zuhttp.Inflate

/-!
# The decoder at the end of a compressed stream

A decoder that has taken `enc` without an error has taken whole compressed streams and the
beginning of one more, and it is finished only when that one is whole, too.
-/

namespace Zuhttp

variable {Z : Zlib} {Complete : Wrapper → Bytes → Prop}

namespace Zlib

/-- A call of an inflater that knows its stream takes what belongs to the stream, and reports
its end when nothing of it is left. -/
lemma knowing_inflate {stream body : Bytes} (s : (knowing stream body).State) (input : Bytes)
    (window : Nat) {r : ZResult (knowing stream body).State}
    (hr : (knowing stream body).inflate s input window = r) :
    input.take r.consumed ++ r.state.1 = s.1 ∧ r.consumed ≤ input.length ∧
      (r.ret = .streamEnd → r.state.1 = []) ∧
      (r.ret = .ok → r.consumed = input.length ∨ r.produced.length = window) ∧
      r.ret ≠ .bufError := by
  dsimp only [knowing] at hr
  generalize hgot : input.take s.1.length = got at hr
  have htake : input.take got.length = got := by
    rw [← hgot]
    simp
  have hlen : got.length = min s.1.length input.length := by
    rw [← hgot, List.length_take]
  by_cases hpre : got.isPrefixOf s.1 = true
  · obtain ⟨rest, hrest⟩ := List.isPrefixOf_iff_prefix.mp hpre
    have hdrop : s.1.drop got.length = rest := by
      rw [← hrest, List.drop_left]
    have hall := congrArg List.length hrest
    rw [List.length_append] at hall
    rw [if_pos hpre, hdrop] at hr
    by_cases hleft : rest = []
    · rw [if_neg (by simp [hleft])] at hr
      rw [hleft, List.append_nil] at hrest
      rw [hrest] at htake
      split_ifs at hr with hroom
      · subst hr
        refine ⟨by simp [hrest, htake], by dsimp only; omega, fun _ => rfl, ?_, by simp⟩
        intro hret
        cases hret
      · subst hr
        refine ⟨by simp [hrest, htake], by dsimp only; omega, fun _ => rfl, fun _ => ?_, by simp⟩
        refine Or.inr ?_
        rw [List.length_take]
        omega
    · rw [if_pos hleft] at hr
      subst hr
      refine ⟨by simp [htake, hrest], by dsimp only; omega, ?_, fun _ => Or.inl ?_, by simp⟩
      · intro hret
        cases hret
      · have hpos := List.length_pos_iff.mpr hleft
        dsimp only
        omega
  · rw [if_neg hpre] at hr
    subst hr
    refine ⟨by simp, Nat.zero_le _, ?_, ?_, by simp⟩
    · intro hret
      cases hret
    · intro hret
      cases hret

/-- What an inflater that knows its stream has yet to take completes what it was fed. -/
lemma knowing_fed {stream body m : Bytes} {w : Wrapper} {s : (knowing stream body).State}
    (h : (knowing stream body).Fed w m s) : m ++ s.1 = stream := by
  induction h with
  | init h =>
    cases h
    rfl
  | reset h hr ih =>
    cases hr
    rfl
  | step h input window ih =>
    rw [List.append_assoc, (knowing_inflate _ input window rfl).1, ih]

lemma knowing_lawful {stream : Bytes} (body : Bytes) (h : 2 ≤ stream.length) :
    (knowing stream body).Lawful (fun _ m => m = stream) where
  streamEnd hfed input window hret := by
    obtain ⟨htaken, -, hend, -⟩ := knowing_inflate _ input window rfl
    rw [hend hret, List.append_nil] at htaken
    rw [htaken, knowing_fed hfed]
  drains s input window _ hret := by
    obtain ⟨-, -, -, hok, hbuf⟩ := knowing_inflate s input window rfl
    exact hok (hret.resolve_right hbuf)
  consumed_le s input window := (knowing_inflate s input window rfl).2.1
  two_le := by
    rintro - m rfl
    exact h

end Zlib

namespace Inflate

/-- Whole streams and the beginning of one more, which zlib has been fed. -/
def Members (Complete : Wrapper → Bytes → Prop) (w : Wrapper) (s : Z.State) (taken : Bytes)
    (finished : Bool) : Prop :=
  ∃ (members : List Bytes) (cur : Bytes), taken = members.flatten ++ cur ∧
    (∀ m ∈ members, Complete w m) ∧ Z.Fed w cur s ∧ (finished = true → Complete w cur)

/-- A decoder between two pieces of the body, of which it has taken all. -/
structure Taken (Complete : Wrapper → Bytes → Prop) (z : Inflate Z) (enc : Bytes) : Prop where
  total : z.inTotal = enc.length
  held : z.strm = none → z.enc = .deflate ∧ z.finished = false ∧ z.hdr = enc ∧ enc.length < 2
  started : ∀ s, z.strm = some s → ∃ w, Members Complete w s enc z.finished

/-- A decoder inside a piece, of which `input` is left. -/
structure Taking (Complete : Wrapper → Bytes → Prop) (z : Inflate Z) (enc input : Bytes) :
    Prop where
  total : z.inTotal = enc.length
  going : z.finished = false
  started : ∃ w s taken, z.strm = some s ∧ enc = taken ++ input ∧
    Members Complete w s taken false

lemma Members.take {w : Wrapper} {s : Z.State} {taken : Bytes} {finished : Bool}
    (h : Members Complete w s taken finished) (input : Bytes) (window : Nat) :
    Members Complete w (Z.inflate s input window).state
      (taken ++ input.take (Z.inflate s input window).consumed) false := by
  obtain ⟨members, cur, htaken, hmembers, hfed, -⟩ := h
  refine ⟨members, _, ?_, hmembers, hfed.step input window, fun hf => by cases hf⟩
  rw [htaken, List.append_assoc]

lemma Members.finish (hlaw : Z.Lawful Complete) {w : Wrapper} {s : Z.State} {taken : Bytes}
    {finished : Bool} (h : Members Complete w s taken finished) (input : Bytes) (window : Nat)
    (hret : (Z.inflate s input window).ret = .streamEnd) :
    Members Complete w (Z.inflate s input window).state
      (taken ++ input.take (Z.inflate s input window).consumed) true := by
  obtain ⟨members, cur, htaken, hmembers, hfed, -⟩ := h
  refine ⟨members, _, ?_, hmembers, hfed.step input window,
    fun _ => hlaw.streamEnd hfed input window hret⟩
  rw [htaken, List.append_assoc]

lemma Members.reset {w : Wrapper} {s s' : Z.State} {taken : Bytes}
    (h : Members Complete w s taken true) (hreset : Z.reset s = some s') :
    Members Complete w s' taken false := by
  obtain ⟨members, cur, htaken, hmembers, hfed, hwhole⟩ := h
  refine ⟨members ++ [cur], [], ?_, ?_, hfed.reset hreset, fun hf => by cases hf⟩
  · simp [htaken]
  · intro m hm
    rcases List.mem_append.mp hm with hm | hm
    · exact hmembers m hm
    · rw [List.mem_singleton.mp hm]
      exact hwhole rfl

lemma deliver_keeps (z : Inflate Z) (produced : Bytes) :
    (z.deliver produced).1 = { z with outTotal := (z.deliver produced).1.outTotal } := by
  unfold deliver
  dsimp only
  by_cases hempty : produced = []
  · rw [if_pos hempty]
  · rw [if_neg hempty]
    by_cases hover : produced.length > z.remainingAllowance
    · rw [if_pos hover]
    · rw [if_neg hover]

lemma nextMember_eq_ok {z z' : Inflate Z} (h : z.nextMember = .ok z') :
    ∃ s s', z.enc = .gzip ∧ z.strm = some s ∧ Z.reset s = some s' ∧
      z' = { z with strm := some s', finished := false } := by
  unfold nextMember at h
  dsimp only at h
  split at h
  · next s henc hstrm =>
    split at h
    · next s' hreset =>
      cases h
      exact ⟨s, s', henc, hstrm, hreset, rfl⟩
    · cases h
  · cases h

/-- What a pass leads to. -/
def PassResult (Complete : Wrapper → Bytes → Prop) (enc : Bytes) : Pass Z → Prop
  | .again z input _ => Taking Complete z enc input
  | .stop _ _ (.fail _) => True
  | .stop z _ _ => Taken Complete z enc

lemma split_take_drop {taken input : Bytes} (n : Nat) :
    taken ++ input = taken ++ input.take n ++ input.drop n := by
  rw [List.append_assoc, List.take_append_drop]

lemma outWindow_pos (z : Inflate Z) : 0 < z.outWindow := by
  unfold outWindow
  split_ifs <;> omega

lemma pass_result (hlaw : Z.Lawful Complete) {z : Inflate Z} {s : Z.State} {enc input : Bytes}
    (out : Bytes) (h : Taking Complete z enc input) (hs : z.strm = some s) :
    PassResult Complete enc (z.pass s input out) := by
  obtain ⟨htotal, hgoing, w, s', taken, hs', henc, hmembers⟩ := h
  obtain rfl : s = s' := by
    rw [hs] at hs'
    exact Option.some.inj hs'
  unfold pass
  dsimp only
  generalize hr : Z.inflate s input z.outWindow = r
  by_cases hdata : r.ret = .dataError
  · rw [if_pos hdata]
    exact trivial
  · rw [if_neg hdata]
    have hkeeps := deliver_keeps { z with strm := some r.state } r.produced
    generalize deliver { z with strm := some r.state } r.produced = delivered at hkeeps ⊢
    obtain ⟨z₁, delivered, f⟩ := delivered
    obtain ⟨total, rfl⟩ : ∃ total, z₁ = { z with strm := some r.state, outTotal := total } :=
      ⟨_, hkeeps⟩
    cases f with
    | some f => exact trivial
    | none =>
      dsimp only
      have htake := hmembers.take input z.outWindow
      rw [hr] at htake
      by_cases hend : r.ret = .streamEnd
      · rw [if_pos hend]
        have hfinish := hmembers.finish hlaw input z.outWindow (by rw [hr, hend])
        rw [hr] at hfinish
        by_cases hall : input.drop r.consumed = []
        · rw [if_pos hall]
          refine ⟨htotal, (fun h => by cases h), fun s' hs' => ⟨w, ?_⟩⟩
          cases hs'
          rw [henc, split_take_drop r.consumed, hall, List.append_nil]
          exact hfinish
        · rw [if_neg hall]
          generalize hnext : nextMember { z with
            strm := some r.state, outTotal := total, finished := true } = next
          cases next with
          | error f => exact trivial
          | ok z' =>
            obtain ⟨s₁, s₂, -, hs₁, hreset, rfl⟩ := nextMember_eq_ok hnext
            cases hs₁
            refine ⟨htotal, rfl, w, s₂, taken ++ input.take r.consumed, rfl, ?_,
              hfinish.reset hreset⟩
            rw [henc, split_take_drop r.consumed]
      · rw [if_neg hend]
        have hstop : input.drop r.consumed = [] → Taken Complete { z with
            strm := some r.state, outTotal := total } enc := by
          intro hall
          refine ⟨htotal, (fun h => by cases h), fun s' hs' => ⟨w, ?_⟩⟩
          cases hs'
          rw [hgoing, henc, split_take_drop r.consumed, hall, List.append_nil]
          exact htake
        by_cases hquiet : input.drop r.consumed = [] ∧ r.produced = []
        · rw [if_pos hquiet]
          exact hstop hquiet.1
        · rw [if_neg hquiet]
          by_cases hbuf : r.produced = [] ∧ r.ret = .bufError
          · rw [if_pos hbuf]
            refine hstop ?_
            have hdrains := hlaw.drains s input z.outWindow z.outWindow_pos
              (Or.inr (by rw [hr, hbuf.2]))
            rw [hr, hbuf.1] at hdrains
            rcases hdrains with hused | hfull
            · rw [hused, List.drop_length]
            · have hpos := z.outWindow_pos
              rw [← hfull] at hpos
              cases hpos
          · rw [if_neg hbuf]
            refine ⟨htotal, hgoing, w, r.state, taken ++ input.take r.consumed, rfl, ?_, htake⟩
            rw [henc, split_take_drop r.consumed]

/-- What a call leads to. -/
def CallResult (Complete : Wrapper → Bytes → Prop) (enc : Bytes) :
    Inflate Z × Bytes × InflateResult → Prop
  | (_, _, .fail _) => True
  | (z, _, _) => Taken Complete z enc

lemma passes_result (hlaw : Z.Lawful Complete) {n : Nat} {z : Inflate Z} {enc input : Bytes}
    (out : Bytes) (h : Taking Complete z enc input) :
    CallResult Complete enc (passes n z input out) := by
  induction n generalizing z input out with
  | zero => exact trivial
  | succ n ih =>
    obtain ⟨w, s, taken, hs, -, -⟩ := h.started
    have hpass := pass_result hlaw out h hs
    rw [passes, hs]
    dsimp only
    cases hp : z.pass s input out with
    | again z input out =>
      rw [hp] at hpass
      exact ih out hpass
    | stop z out r =>
      rw [hp] at hpass
      cases r <;> exact hpass

lemma mainLoop_result (hlaw : Z.Lawful Complete) {z : Inflate Z} {s : Z.State}
    {enc input : Bytes} (out : Bytes) (h : Taken Complete z enc) (hs : z.strm = some s)
    (hgoing : z.finished = false) :
    CallResult Complete (enc ++ input) (z.mainLoop input out) := by
  obtain ⟨w, hmembers⟩ := h.started s hs
  rw [hgoing] at hmembers
  refine passes_result hlaw out ⟨?_, hgoing, w, s, enc, hs, rfl, hmembers⟩
  rw [List.length_append, ← h.total]

/-- What a pass over the held-back bytes leads to. -/
def HeadResult (Complete : Wrapper → Bytes → Prop) (hdr rest : Bytes) : HeadPass Z → Prop
  | .again z head _ => Taking Complete z hdr head ∧ z.enc = .deflate
  | .headOver z _ => Taken Complete z hdr ∧ z.finished = false ∧ z.strm ≠ none
  | .stop _ _ (.fail _) => True
  | .stop z _ _ => rest = [] ∧ Taken Complete z hdr

/-- No compressed stream ends within the first of the two bytes. -/
lemma Members.whole (hlaw : Z.Lawful Complete) {w : Wrapper} {s : Z.State} {taken left : Bytes}
    (h : Members Complete w s taken true) (hlen : (taken ++ left).length ≤ 2) : left = [] := by
  obtain ⟨members, cur, htaken, -, -, hwhole⟩ := h
  have htwo := hlaw.two_le (hwhole rfl)
  rw [htaken] at hlen
  simp only [List.length_append] at hlen
  exact List.length_eq_zero_iff.mp (by omega)

lemma headPass_result (hlaw : Z.Lawful Complete) {z : Inflate Z} {s : Z.State}
    {hdr head : Bytes} (out rest : Bytes) (h : Taking Complete z hdr head)
    (hs : z.strm = some s) (hdeflate : z.enc = .deflate) (hlen : hdr.length = 2) :
    HeadResult Complete hdr rest (z.headPass s head out rest) := by
  obtain ⟨htotal, hgoing, w, s', taken, hs', henc, hmembers⟩ := h
  obtain rfl : s = s' := by
    rw [hs] at hs'
    exact Option.some.inj hs'
  unfold headPass
  dsimp only
  generalize hr : Z.inflate s head z.outWindow = r
  by_cases hdata : r.ret = .dataError
  · rw [if_pos hdata]
    exact trivial
  · rw [if_neg hdata]
    have hkeeps := deliver_keeps { z with strm := some r.state } r.produced
    generalize deliver { z with strm := some r.state } r.produced = delivered at hkeeps ⊢
    obtain ⟨z₁, delivered, f⟩ := delivered
    obtain ⟨total, rfl⟩ : ∃ total, z₁ = { z with strm := some r.state, outTotal := total } :=
      ⟨_, hkeeps⟩
    cases f with
    | some f => exact trivial
    | none =>
      dsimp only
      by_cases hend : r.ret = .streamEnd
      · rw [if_pos hend]
        by_cases hrest : rest = []
        · rw [if_pos hrest]
          have hfinish := hmembers.finish hlaw head z.outWindow (by rw [hr, hend])
          rw [hr] at hfinish
          have hall : head.drop r.consumed = [] := by
            refine hfinish.whole hlaw ?_
            rw [← split_take_drop, ← henc, hlen]
          refine ⟨hrest, htotal, (fun h => by cases h), fun s' hs' => ⟨w, ?_⟩⟩
          cases hs'
          rw [henc, split_take_drop r.consumed, hall, List.append_nil]
          exact hfinish
        · rw [if_neg hrest]
          generalize hnext : nextMember { z with
            strm := some r.state, outTotal := total, finished := true } = next
          cases next with
          | error f => exact trivial
          | ok z' =>
            obtain ⟨s₁, s₂, hgzip, -⟩ := nextMember_eq_ok hnext
            rw [hdeflate] at hgzip
            cases hgzip
      · rw [if_neg hend]
        have htake := hmembers.take head z.outWindow
        rw [hr] at htake
        by_cases hover : head.drop r.consumed = [] ∨ r.produced = []
        · rw [if_pos hover]
          have hall : head.drop r.consumed = [] := by
            rcases hover with hall | hquiet
            · exact hall
            · have hret : r.ret = .ok ∨ r.ret = .bufError := by
                cases hc : r.ret with
                | ok => exact Or.inl rfl
                | streamEnd => exact absurd hc hend
                | bufError => exact Or.inr rfl
                | dataError => exact absurd hc hdata
              have hdrains := hlaw.drains s head z.outWindow z.outWindow_pos (by rwa [hr])
              rw [hr, hquiet] at hdrains
              rcases hdrains with hused | hfull
              · rw [hused, List.drop_length]
              · have hpos := z.outWindow_pos
                rw [← hfull] at hpos
                cases hpos
          refine ⟨⟨htotal, (fun h => by cases h), fun s' hs' => ⟨w, ?_⟩⟩, hgoing, by simp⟩
          cases hs'
          rw [hgoing, henc, split_take_drop r.consumed, hall, List.append_nil]
          exact htake
        · rw [if_neg hover]
          refine ⟨⟨htotal, hgoing, w, r.state, taken ++ head.take r.consumed, rfl, ?_, htake⟩,
            hdeflate⟩
          rw [henc, split_take_drop r.consumed]

lemma headPasses_result (hlaw : Z.Lawful Complete) {n : Nat} {z : Inflate Z}
    {hdr head : Bytes} (out rest : Bytes) (h : Taking Complete z hdr head)
    (hdeflate : z.enc = .deflate) (hlen : hdr.length = 2) :
    CallResult Complete (hdr ++ rest) (headPasses rest n z head out) := by
  induction n generalizing z head out with
  | zero => exact trivial
  | succ n ih =>
    obtain ⟨w, s, taken, hs, -, -⟩ := h.started
    have hpass := headPass_result hlaw out rest h hs hdeflate hlen
    rw [headPasses, hs]
    dsimp only
    cases hp : z.headPass s head out rest with
    | again z head out =>
      rw [hp] at hpass
      exact ih out hpass.1 hpass.2
    | headOver z out =>
      rw [hp] at hpass
      obtain ⟨htaken, hgoing, hsome⟩ := hpass
      obtain ⟨s, hs⟩ := Option.ne_none_iff_exists'.mp hsome
      exact mainLoop_result hlaw out htaken hs hgoing
    | stop z out r =>
      rw [hp] at hpass
      cases r with
      | fail f => exact trivial
      | ok =>
        rw [hpass.1, List.append_nil]
        exact hpass.2
      | wouldblock =>
        rw [hpass.1, List.append_nil]
        exact hpass.2

lemma feed_result (hlaw : Z.Lawful Complete) {z : Inflate Z} {enc : Bytes} (p : Bytes)
    (h : Taken Complete z enc) (hgoing : z.finished = false) :
    CallResult Complete (enc ++ p) (z.feed p) := by
  unfold feed
  cases hs : z.strm with
  | some s => exact mainLoop_result hlaw [] h hs hgoing
  | none =>
    obtain ⟨hdeflate, -, hhdr, hshort⟩ := h.held hs
    subst hhdr
    dsimp only
    have htotal : z.inTotal + (p.take (2 - z.hdr.length)).length =
        (z.hdr ++ p.take (2 - z.hdr.length)).length := by
      rw [List.length_append, h.total]
    by_cases hfew : (z.hdr ++ p.take (2 - z.hdr.length)).length < 2
    · rw [if_pos hfew]
      have hall : p.take (2 - z.hdr.length) = p := by
        refine List.take_of_length_le ?_
        simp only [List.length_append, List.length_take] at hfew
        omega
      rw [hall] at hfew htotal ⊢
      exact ⟨htotal, fun _ => ⟨hdeflate, hgoing, rfl, hfew⟩, fun s' hs' => by cases hs'⟩
    · rw [if_neg hfew]
      cases hinit : Z.init (if looksZlibWrapped (z.hdr ++ p.take (2 - z.hdr.length))
          then .zlib else .raw) with
      | none => exact trivial
      | some s =>
        have hlen : (z.hdr ++ p.take (2 - z.hdr.length)).length = 2 := by
          simp only [List.length_append, List.length_take] at hfew ⊢
          omega
        have hresult := headPasses_result (n := Z.work s (z.hdr ++ p.take (2 - z.hdr.length)) + 1)
          hlaw [] (p.drop (2 - z.hdr.length)) (z := { z with
            strm := some s
            hdr := z.hdr ++ p.take (2 - z.hdr.length)
            inTotal := z.inTotal + (p.take (2 - z.hdr.length)).length })
          ⟨htotal, hgoing, _, s, [], rfl, rfl, [], [], rfl, by simp, .init hinit,
            fun hf => by cases hf⟩ hdeflate hlen
        rw [List.append_assoc, List.take_append_drop] at hresult
        exact hresult

/-- A call that takes a piece without an error leaves a decoder that has taken it all. -/
theorem run_result (hlaw : Z.Lawful Complete) {z : Inflate Z} {enc : Bytes} (p : Bytes)
    (h : Taken Complete z enc) : CallResult Complete (enc ++ p) (z.run (some p)) := by
  unfold run
  dsimp only
  by_cases hfinished : z.finished = true
  · rw [if_pos hfinished]
    by_cases hempty : p = []
    · rw [if_pos hempty, hempty, List.append_nil]
      exact h
    · rw [if_neg hempty]
      cases hnext : z.nextMember with
      | error f => exact trivial
      | ok z' =>
        obtain ⟨s, s', -, hs, hreset, rfl⟩ := nextMember_eq_ok hnext
        obtain ⟨w, hmembers⟩ := h.started s hs
        rw [hfinished] at hmembers
        refine feed_result hlaw p ⟨h.total, (fun h => by cases h), fun s₁ hs₁ => ⟨w, ?_⟩⟩ rfl
        cases hs₁
        exact hmembers.reset hreset
  · rw [if_neg hfinished]
    exact feed_result hlaw p h (by simpa using hfinished)

/-- A body may end where a compressed stream ends, or before it begins. -/
theorem run_none_ok {z : Inflate Z} {enc : Bytes} (h : Taken Complete z enc)
    (hok : (z.run none).2.2 = .ok) :
    enc = [] ∨ ∃ w members, members ≠ [] ∧ enc = members.flatten ∧
      ∀ m ∈ members, Complete w m := by
  unfold run at hok
  dsimp only at hok
  by_cases hend : z.finished = true ∨ z.inTotal = 0
  · rcases hend with hfinished | hzero
    · cases hs : z.strm with
      | none =>
        have hgoing := (h.held hs).2.1
        rw [hfinished] at hgoing
        cases hgoing
      | some s =>
        obtain ⟨w, members, cur, henc, hmembers, -, hwhole⟩ := h.started s hs
        refine Or.inr ⟨w, members ++ [cur], by simp, by simp [henc], ?_⟩
        intro m hm
        rcases List.mem_append.mp hm with hm | hm
        · exact hmembers m hm
        · rw [List.mem_singleton.mp hm]
          exact hwhole hfinished
    · exact Or.inl (List.length_eq_zero_iff.mp (h.total.symm.trans hzero))
  · rw [if_neg hend] at hok
    cases hok

lemma init_taken {enc : Encoding} {maxOut maxRatio : Nat} {z : Inflate Z}
    (h : init enc maxOut maxRatio = some z) : Taken Complete z [] := by
  unfold init at h
  dsimp only at h
  split at h
  · obtain ⟨s, hs, rfl⟩ := Option.map_eq_some_iff.mp h
    refine ⟨rfl, (fun h => by cases h), fun s' hs' => ⟨.gzip, ?_⟩⟩
    cases hs'
    exact ⟨[], [], rfl, by simp, .init hs, fun hf => by cases hf⟩
  · cases h
    exact ⟨rfl, fun _ => ⟨rfl, rfl, rfl, by simp⟩, fun s hs => by cases hs⟩
  · cases h

end Inflate

end Zuhttp
