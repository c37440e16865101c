import Mathlib.Data.List.Induction
import Zuhttp.H2Body
import Zuhttp.Proofs.H2

/-!
# A request body over HTTP/2 goes out once and in order

What was returned and what is still held are together what was given, and the end is told with
the last byte of a body in memory and with the empty piece of a source.
-/

namespace Zuhttp

/-! ### What is given -/

/-- The bytes of a piece; a failed call has none. -/
def pieceBytes : Except Fail Bytes → Bytes
  | .ok piece => piece
  | .error _ => []

/-- The first pieces of a source, put together. -/
def drawnBytes (next : PieceSource) : Nat → Bytes
  | 0 => []
  | k + 1 => drawnBytes next k ++ pieceBytes (next k)

/-- The source ends the body with the empty piece, after so many others. -/
def PieceSource.EndsAt (next : PieceSource) (k : Nat) : Prop :=
  next k = .ok [] ∧ ∀ i < k, ∃ piece ≠ [], next i = .ok piece

namespace GivenBody

/-- The body that is given. -/
def Is (g : GivenBody) (body : Bytes) : Prop :=
  match g.source with
  | none => body = g.body.getD []
  | some next => ∃ k, next.EndsAt k ∧ body = drawnBytes next k

/-- What can have been handed out after so many calls of `next`. -/
def supplied (g : GivenBody) (drawn : Nat) : Bytes :=
  match g.source with
  | none => g.body.getD []
  | some next => drawnBytes next drawn

/-- The body is at its end: all of it was returned, or the empty piece was drawn. -/
def Ended (g : GivenBody) (drawn : Nat) (returned : Bytes) : Prop :=
  match g.source with
  | none => returned = g.body.getD []
  | some next => ∃ k < drawn, next k = .ok []

end GivenBody

lemma drawnBytes_prefix (next : PieceSource) {k l : Nat} (h : k ≤ l) :
    drawnBytes next k <+: drawnBytes next l := by
  induction l, h using Nat.le_induction with
  | base => exact List.prefix_refl _
  | succ l _ ih => exact ih.trans (List.prefix_append _ _)

namespace H2Body

/-- The bytes of the answers. -/
def returned (answers : List BodyAnswer) : Bytes := answers.flatMap BodyAnswer.bytes

/-- The calls of `next` by the last of the answers. -/
def drawnBy (answers : List BodyAnswer) : Nat := (answers.getLast?.map BodyAnswer.drawn).getD 0

@[simp] lemma returned_append (as bs : List BodyAnswer) :
    returned (as ++ bs) = returned as ++ returned bs := List.flatMap_append

@[simp] lemma returned_singleton (a : BodyAnswer) : returned [a] = a.bytes := by
  simp [returned]

@[simp] lemma drawnBy_append_singleton (as : List BodyAnswer) (a : BodyAnswer) :
    drawnBy (as ++ [a]) = a.drawn := by
  simp [drawnBy]

/-! ### One call -/

/-- How far a source has come. -/
inductive Course (next : PieceSource) (b : H2Body) : Prop
  | going (hend : b.srcEnd = false) (hfailed : b.srcFailed = false)
      (hpieces : ∀ k < b.drawn, ∃ piece ≠ [], next k = .ok piece)
  | ended {k : Nat} (hend : b.srcEnd = true) (hfailed : b.srcFailed = false)
      (hdrawn : b.drawn = k + 1) (hends : next.EndsAt k)
  | failed {k : Nat} {f : Fail} (hfailed : b.srcFailed = true) (hdrawn : b.drawn = k + 1)
      (herror : next k = .error f) (herr : b.srcErr = f.err)
      (hpieces : ∀ i < k, ∃ piece ≠ [], next i = .ok piece)

variable {g : GivenBody} {next : PieceSource} {b : H2Body} {r : Bytes}

lemma Course.of_eq {d : H2Body} (h : Course next b) (hend : d.srcEnd = b.srcEnd)
    (hfailed : d.srcFailed = b.srcFailed) (hdrawn : d.drawn = b.drawn)
    (herr : d.srcErr = b.srcErr) : Course next d := by
  cases h with
  | going hend' hfailed' hpieces =>
    exact .going (hend.trans hend') (hfailed.trans hfailed') (hdrawn.symm ▸ hpieces)
  | ended hend' hfailed' hdrawn' hends =>
    exact .ended (hend.trans hend') (hfailed.trans hfailed') (hdrawn.trans hdrawn') hends
  | failed hfailed' hdrawn' herror herr' hpieces =>
    exact .failed (hfailed.trans hfailed') (hdrawn.trans hdrawn') herror (herr.trans herr') hpieces

lemma Course.not_ended (hcourse : Course next b) (hend : b.srcEnd = false)
    (hfailed : b.srcFailed = false) : ¬∃ k < b.drawn, next k = .ok [] := by
  rintro ⟨k, hk, hempty⟩
  cases hcourse with
  | going _ _ hpieces =>
    obtain ⟨piece, hne, hpiece⟩ := hpieces k hk
    rw [hempty, Except.ok.injEq] at hpiece
    exact hne hpiece.symm
  | ended hend' => rw [hend] at hend'; cases hend'
  | failed hfailed' => rw [hfailed] at hfailed'; cases hfailed'

lemma Course.is_ended (hcourse : Course next b) (hend : b.srcEnd = true)
    (hfailed : b.srcFailed = false) : ∃ k, b.drawn = k + 1 ∧ next.EndsAt k := by
  cases hcourse with
  | going hend' => rw [hend] at hend'; cases hend'
  | ended _ _ hdrawn hends => exact ⟨_, hdrawn, hends⟩
  | failed hfailed' => rw [hfailed] at hfailed'; cases hfailed'

/-- What is held of the last piece after `r` was returned. -/
structure HoldsPiece (next : PieceSource) (b : H2Body) (r : Bytes) : Prop where
  off : b.srcOff ≤ b.srcData.length
  bytes : r ++ b.srcData.drop b.srcOff = drawnBytes next b.drawn
  course : Course next b

/-- What is held of a body in memory. -/
structure HoldsRest (g : GivenBody) (b : H2Body) (r : Bytes) : Prop where
  none_src : b.src = none
  alright : b.srcFailed = false
  off : b.bodyOff ≤ b.body.length
  bytes : r ++ b.body.drop b.bodyOff = g.body.getD []

/-- The rest of the state is as it was. -/
structure Same (b d : H2Body) : Prop where
  src : d.src = b.src
  provided : d.provided = b.provided
  answers : d.answers = b.answers

variable {d : H2Body}

/-- What a call of `next` can do. -/
lemma drawStep_cases (next : PieceSource) (b : H2Body) :
    (∃ f, next b.drawn = .error f ∧ drawStep next b =
      ({ b with drawn := b.drawn + 1, srcFailed := true, srcErr := f.err }, some ())) ∨
    (next b.drawn = .ok [] ∧ drawStep next b =
      ({ b with drawn := b.drawn + 1, srcEnd := true }, none)) ∨
    ∃ piece ≠ [], next b.drawn = .ok piece ∧ drawStep next b =
      ({ b with drawn := b.drawn + 1, srcData := piece, srcOff := 0 }, none) := by
  unfold drawStep
  cases hnext : next b.drawn with
  | error f => exact Or.inl ⟨f, rfl, rfl⟩
  | ok piece =>
    cases piece with
    | nil => exact Or.inr (Or.inl ⟨rfl, rfl⟩)
    | cons c piece => exact Or.inr (Or.inr ⟨c :: piece, List.cons_ne_nil _ _, rfl, rfl⟩)

/-- After the loop that calls `next`. -/
structure Drew (next : PieceSource) (b d : H2Body) (r : Bytes) (res : Option Unit) : Prop where
  same : Same b d
  sent : d.bodySent = b.bodySent
  holds : HoldsPiece next d r
  alright : res = none → d.srcFailed = false
  ended : res = none → d.srcEnd = true → d.srcOff = d.srcData.length
  failed : res ≠ none → d.srcFailed = true

/-- What the next piece makes of what is held. -/
lemma drawStep_drew (h : HoldsPiece next b r) (hend : b.srcEnd = false)
    (hfailed : b.srcFailed = false) (hused : b.srcOff = b.srcData.length) :
    Drew next b (drawStep next b).1 r (drawStep next b).2 := by
  have hpieces : ∀ k < b.drawn, ∃ piece ≠ [], next k = .ok piece := by
    cases h.course with
    | going _ _ hpieces => exact hpieces
    | ended hend' => rw [hend] at hend'; cases hend'
    | failed hfailed' => rw [hfailed] at hfailed'; cases hfailed'
  have hbytes := h.bytes
  rw [hused, List.drop_length, List.append_nil] at hbytes
  rcases drawStep_cases next b with ⟨f, hnext, heq⟩ | ⟨hnext, heq⟩ | ⟨piece, hne, hnext, heq⟩
  · rw [heq]
    refine ⟨⟨rfl, rfl, rfl⟩, rfl, ⟨h.off, ?_, .failed rfl rfl hnext rfl hpieces⟩,
      fun hnone => (by cases hnone), fun hnone => (by cases hnone), fun _ => rfl⟩
    simp [hused, drawnBytes, hnext, pieceBytes, hbytes]
  · rw [heq]
    refine ⟨⟨rfl, rfl, rfl⟩, rfl, ⟨h.off, ?_, .ended rfl hfailed rfl ⟨hnext, hpieces⟩⟩,
      fun _ => hfailed, fun _ _ => hused, fun hsome => absurd rfl hsome⟩
    simp [hused, drawnBytes, hnext, pieceBytes, hbytes]
  · rw [heq]
    refine ⟨⟨rfl, rfl, rfl⟩, rfl, ⟨Nat.zero_le _, ?_, .going hend hfailed (fun k hk => ?_)⟩,
      fun _ => hfailed, fun _ hend' => ?_, fun hsome => absurd rfl hsome⟩
    · simp [drawnBytes, hnext, pieceBytes, hbytes]
    · rcases Nat.lt_succ_iff_lt_or_eq.mp hk with hlt | rfl
      · exact hpieces k hlt
      · exact ⟨piece, hne, hnext⟩
    · rw [hend] at hend'
      cases hend'

lemma draw_drew (h : HoldsPiece next b r) (hend : b.srcEnd = false)
    (hfailed : b.srcFailed = false) :
    let run := Loop.iterate (drawStep next) drawDone 1 b
    Drew next b run.1 r run.2 := by
  dsimp only
  cases hdone : drawDone b with
  | true =>
    rw [Loop.iterate_of_done _ hdone]
    refine ⟨⟨rfl, rfl, rfl⟩, rfl, h, fun _ => hfailed, fun _ hend' => ?_,
      fun hne => absurd rfl hne⟩
    rw [hend] at hend'
    cases hend'
  | false =>
    have hused : b.srcOff = b.srcData.length := by
      simp only [drawDone, Bool.or_eq_false_iff, decide_eq_false_iff_not, not_not] at hdone
      exact hdone.1
    have hdrew := drawStep_drew h hend hfailed hused
    cases hstep : drawStep next b with
    | mk d res =>
      rw [hstep] at hdrew
      cases res with
      | none => rwa [Loop.iterate_of_step _ hdone hstep]
      | some e => rwa [Loop.iterate_of_fail _ hdone hstep]

/-- So many bytes are handed out of a buffer at once. -/
def window (data : Bytes) (off n : Nat) : Nat :=
  if n > data.length - off then data.length - off else n

lemma window_rest (data : Bytes) (off n : Nat) :
    (data.drop off).take (window data off n) ++ data.drop (off + window data off n) =
      data.drop off := by
  rw [← List.drop_drop, List.take_append_drop]

lemma window_length (data : Bytes) (off n : Nat) :
    ((data.drop off).take (window data off n)).length = window data off n := by
  rw [List.length_take, List.length_drop]
  unfold window
  split_ifs <;> omega

lemma window_le {data : Bytes} {off : Nat} (n : Nat) (h : off ≤ data.length) :
    off + window data off n ≤ data.length := by
  unfold window
  split_ifs <;> omega

/-- What is held of the body after `r` was returned. -/
structure Holds (g : GivenBody) (b : H2Body) (r : Bytes) : Prop where
  sent : b.bodySent = r.length
  memory : g.source = none → HoldsRest g b r
  source : ∀ next, g.source = some next → HoldsPiece next b r

/-- A call that returned bytes. -/
structure Handed (g : GivenBody) (b d : H2Body) (r bytes : Bytes) (eof : Bool) : Prop where
  same : Same b d
  alright : d.srcFailed = false
  holds : Holds g d (r ++ bytes)
  told : eof = true ↔ g.Ended d.drawn (r ++ bytes)
  whole : eof = true → g.Is (r ++ bytes)

lemma fromMemory_handed (hg : g.source = none) (hsent : b.bodySent = r.length)
    (h : HoldsRest g b r) (n : Nat) :
    ∃ bytes eof, (b.fromMemory n).2 = some (bytes, eof) ∧
      Handed g b (b.fromMemory n).1 r bytes eof := by
  have hle := window_le n h.off
  have hbytes : r ++ (b.body.drop b.bodyOff).take (window b.body b.bodyOff n) ++
      b.body.drop (b.bodyOff + window b.body b.bodyOff n) = g.body.getD [] := by
    rw [List.append_assoc, window_rest, h.bytes]
  have heof : decide (b.bodyOff + window b.body b.bodyOff n = b.body.length) = true ↔
      r ++ (b.body.drop b.bodyOff).take (window b.body b.bodyOff n) = g.body.getD [] := by
    rw [decide_eq_true_eq, ← hbytes, List.self_eq_append_right, List.drop_eq_nil_iff]
    omega
  refine ⟨_, _, rfl, ⟨rfl, rfl, rfl⟩, h.alright, ⟨?_, fun _ => ?_, fun next hnext => ?_⟩, ?_, ?_⟩
  · rw [List.length_append]
    exact congrArg₂ (· + ·) hsent (window_length b.body b.bodyOff n).symm
  · exact ⟨h.none_src, h.alright, hle, hbytes⟩
  · rw [hg] at hnext
    cases hnext
  · unfold GivenBody.Ended
    rw [hg]
    exact heof
  · unfold GivenBody.Is
    rw [hg]
    exact heof.mp

lemma handPiece_handed (hg : g.source = some next) (hsent : b.bodySent = r.length)
    (h : HoldsPiece next b r) (hfailed : b.srcFailed = false)
    (hused : b.srcEnd = true → b.srcOff = b.srcData.length) (n : Nat) :
    Handed g b (b.handPiece n).1 r (b.handPiece n).2.1 (b.handPiece n).2.2 := by
  have hle := window_le n h.off
  have hbytes : r ++ (b.srcData.drop b.srcOff).take (window b.srcData b.srcOff n) ++
      b.srcData.drop (b.srcOff + window b.srcData b.srcOff n) = drawnBytes next b.drawn := by
    rw [List.append_assoc, window_rest, h.bytes]
  have hcourse : Course next (b.handPiece n).1 := h.course.of_eq rfl rfl rfl rfl
  have heof : (b.handPiece n).2.2 = b.srcEnd := by
    change (b.srcEnd && decide (b.srcOff + window b.srcData b.srcOff n = b.srcData.length)) = _
    cases hended : b.srcEnd with
    | false => rfl
    | true =>
      have hoff := hused hended
      rw [Bool.true_and, decide_eq_true_eq]
      omega
  rw [heof]
  refine ⟨⟨rfl, rfl, rfl⟩, hfailed, ⟨?_, fun hnone => ?_, fun next' hnext' => ?_⟩, ?_, ?_⟩
  · rw [List.length_append]
    exact congrArg₂ (· + ·) hsent (window_length b.srcData b.srcOff n).symm
  · rw [hg] at hnone
    cases hnone
  · rw [hg] at hnext'
    cases hnext'
    exact ⟨hle, hbytes, hcourse⟩
  · unfold GivenBody.Ended
    rw [hg]
    cases hended : b.srcEnd with
    | false =>
      refine ⟨fun htrue => (by cases htrue), fun hempty => ?_⟩
      exact absurd hempty (hcourse.not_ended hended hfailed)
    | true =>
      obtain ⟨k, hdrawn, hends⟩ := hcourse.is_ended hended hfailed
      exact ⟨fun _ => ⟨k, by rw [hdrawn]; exact Nat.lt_succ_self k, hends.1⟩, fun _ => rfl⟩
  · intro hended
    obtain ⟨k, hdrawn, hends⟩ := h.course.is_ended hended hfailed
    have hoff := hused hended
    have hnil : b.srcData.drop (b.srcOff + window b.srcData b.srcOff n) = [] := by
      rw [List.drop_eq_nil_iff]
      omega
    rw [hnil, List.append_nil, hdrawn, drawnBytes, hends.1, pieceBytes, List.append_nil] at hbytes
    unfold GivenBody.Is
    rw [hg]
    exact ⟨k, hends, hbytes⟩

/-- What a failed call leaves. -/
structure Broken (g : GivenBody) (b d : H2Body) (r : Bytes) : Prop where
  same : Same b d
  holds : Holds g d r
  failed : d.srcFailed = true

lemma fromSource_handed (hg : g.source = some next) (hsent : b.bodySent = r.length)
    (h : HoldsPiece next b r) (hend : b.srcEnd = false) (hfailed : b.srcFailed = false) (n : Nat) :
    (∃ bytes eof, (b.fromSource next n).2 = some (bytes, eof) ∧
      Handed g b (b.fromSource next n).1 r bytes eof) ∨
    (b.fromSource next n).2 = none ∧ Broken g b (b.fromSource next n).1 r := by
  have hdrew := draw_drew h hend hfailed
  unfold fromSource
  cases hrun : Loop.iterate (drawStep next) drawDone 1 b with
  | mk d res =>
    rw [hrun] at hdrew
    dsimp only at hdrew
    cases res with
    | some e =>
      refine Or.inr ⟨rfl, hdrew.same,
        ⟨hdrew.sent.trans hsent, fun hnone => ?_, fun next' hg' => ?_⟩,
        hdrew.failed (Option.some_ne_none e)⟩
      · rw [hg] at hnone
        cases hnone
      · rw [hg] at hg'
        cases hg'
        exact hdrew.holds
    | none =>
      have hhanded := handPiece_handed hg (hdrew.sent.trans hsent) hdrew.holds (hdrew.alright rfl)
        (hdrew.ended rfl) n
      have hsame : Same b (d.handPiece n).1 :=
        ⟨hhanded.same.src.trans hdrew.same.src, hhanded.same.provided.trans hdrew.same.provided,
          hhanded.same.answers.trans hdrew.same.answers⟩
      exact Or.inl ⟨_, _, rfl, hsame, hhanded.alright, hhanded.holds, hhanded.told, hhanded.whole⟩

/-! ### All calls -/

/-- An answer behind the answers `as` and before `bs` is right: the body was not at its end
before it, and EOF is told when it is at its end with it. -/
structure Right (g : GivenBody) (as : List BodyAnswer) (a : BodyAnswer) (bs : List BodyAnswer) :
    Prop where
  before : ¬g.Ended (drawnBy as) (returned as)
  told : a.eof = true ↔ g.Ended a.drawn (returned (as ++ [a]))
  last : a.eof = true → bs = []
  whole : a.eof = true → g.Is (returned (as ++ [a]))

def Answered (g : GivenBody) (answers : List BodyAnswer) : Prop :=
  ∀ as a bs, answers = as ++ a :: bs → Right g as a bs

lemma Answered.snoc {as : List BodyAnswer} {a : BodyAnswer} (h : Answered g as)
    (hopen : as.any BodyAnswer.eof = false) (hright : Right g as a []) :
    Answered g (as ++ [a]) := by
  intro xs x ys heq
  rcases List.eq_nil_or_concat ys with rfl | ⟨ys', y, rfl⟩
  · obtain ⟨rfl, hlast⟩ := List.append_inj' heq rfl
    cases hlast
    exact hright
  · rw [List.concat_eq_append, ← List.cons_append, ← List.append_assoc] at heq
    obtain ⟨rfl, -⟩ := List.append_inj' heq rfl
    have hx := h xs x ys' rfl
    refine ⟨hx.before, hx.told, fun heof => ?_, hx.whole⟩
    rw [List.any_append, List.any_cons, heof] at hopen
    simp at hopen

/-- The body goes out as it was given. -/
structure Outgoing (g : GivenBody) (b : H2Body) : Prop where
  holds : Holds g b (returned b.answers)
  answered : Answered g b.answers
  drawn : b.srcFailed = false → drawnBy b.answers = b.drawn
  going : b.asked = true → ¬g.Ended b.drawn (returned b.answers)

lemma start_outgoing (g : GivenBody) : Outgoing g (start g) where
  holds :=
    { sent := rfl
      memory := fun hg => ⟨hg, rfl, Nat.zero_le _, rfl⟩
      source := fun next _ =>
        ⟨Nat.le_refl _, rfl, .going rfl rfl (fun k hk => absurd hk (Nat.not_lt_zero k))⟩ }
  answered := by
    intro as a bs heq
    simp [start] at heq
  drawn := fun _ => rfl
  going := by
    intro hasked
    unfold GivenBody.Ended
    cases hg : g.source with
    | none =>
      intro hempty
      simp [asked, start, hg, ← show [] = g.body.getD [] from hempty] at hasked
    | some next =>
      rintro ⟨k, hk, -⟩
      exact absurd hk (Nat.not_lt_zero k)

lemma asked_iff (b : H2Body) : b.asked = true ↔
    b.provided = true ∧ b.srcFailed = false ∧ b.answers.any BodyAnswer.eof = false := by
  unfold asked
  simp [and_assoc]

/-- What is asked for is answered, or the source fails. -/
lemma Outgoing.bodySource (hout : Outgoing g b) (hsrc : b.src = g.source)
    (hasked : b.asked = true) (n : Nat) :
    (∃ bytes eof, (b.bodySource n).2 = some (bytes, eof) ∧
      Handed g b (b.bodySource n).1 (returned b.answers) bytes eof) ∨
    (b.bodySource n).2 = none ∧ Broken g b (b.bodySource n).1 (returned b.answers) := by
  have halright := ((asked_iff b).mp hasked).2.1
  unfold H2Body.bodySource
  rw [hsrc]
  cases hg : g.source with
  | none => exact Or.inl (fromMemory_handed hg hout.holds.sent (hout.holds.memory hg) n)
  | some next =>
    have hholds := hout.holds.source next hg
    have hend : b.srcEnd = false := by
      have hgoing := hout.going hasked
      unfold GivenBody.Ended at hgoing
      rw [hg] at hgoing
      cases hended : b.srcEnd with
      | false => rfl
      | true =>
        obtain ⟨k, hdrawn, hends⟩ := hholds.course.is_ended hended halright
        exact absurd ⟨k, by rw [hdrawn]; exact Nat.lt_succ_self k, hends.1⟩ hgoing
    exact fromSource_handed hg hout.holds.sent hholds hend halright n

/-- What is held does not hang on the answers. -/
lemma Holds.answered (h : Holds g b r) (answers : List BodyAnswer) :
    Holds g { b with answers := answers } r where
  sent := h.sent
  memory hg :=
    let hm := h.memory hg
    ⟨hm.none_src, hm.alright, hm.off, hm.bytes⟩
  source next hg :=
    let hs := h.source next hg
    ⟨hs.off, hs.bytes, hs.course.of_eq rfl rfl rfl rfl⟩

lemma Outgoing.handed (hout : Outgoing g b) (hasked : b.asked = true) {bytes : Bytes}
    {eof : Bool} (h : Handed g b d (returned b.answers) bytes eof) :
    Outgoing g { d with answers := d.answers ++ [⟨bytes, eof, d.drawn⟩] } := by
  obtain ⟨-, halright, hopen⟩ := (asked_iff b).mp hasked
  have hreturned : returned (b.answers ++ [⟨bytes, eof, d.drawn⟩]) =
      returned b.answers ++ bytes := by
    rw [returned_append, returned_singleton]
  rw [h.same.answers]
  refine ⟨?_, ?_, fun _ => drawnBy_append_singleton _ _, fun hnext => ?_⟩
  · rw [hreturned]
    exact h.holds.answered _
  · refine hout.answered.snoc hopen ⟨?_, ?_, fun _ => rfl, ?_⟩
    · rw [hout.drawn halright]
      exact hout.going hasked
    · rw [hreturned]
      exact h.told
    · rw [hreturned]
      exact h.whole
  · obtain ⟨-, -, hnone⟩ := (asked_iff _).mp hnext
    rw [hreturned, ← h.told]
    simp only [List.any_append, List.any_cons, List.any_nil, Bool.or_eq_false_iff] at hnone
    simp [hnone.2.1]

lemma Outgoing.broken (hout : Outgoing g b) (h : Broken g b d (returned b.answers)) :
    Outgoing g d := by
  refine ⟨?_, ?_, fun halright => ?_, fun hasked => ?_⟩
  · rw [h.same.answers]
    exact h.holds
  · rw [h.same.answers]
    exact hout.answered
  · rw [h.failed] at halright
    cases halright
  · have halright := ((asked_iff d).mp hasked).2.1
    rw [h.failed] at halright
    cases halright

/-- The calls of one `nghttp2_session_mem_send2`. -/
lemma Outgoing.offers {closed : Bool} (hout : Outgoing g b)
    (hsrc : closed = false → b.src = g.source) (ns : List Nat) :
    let run := b.offers closed ns
    Outgoing g run.1 ∧ run.1.src = b.src ∧
      (b.srcFailed = false → run.1.srcFailed = run.2) ∧ (run.2 = true → b.srcFailed = false) := by
  dsimp only
  induction ns generalizing b with
  | nil =>
    exact ⟨hout, rfl, fun h => h, fun h => (by cases h)⟩
  | cons n ns ih =>
    unfold H2Body.offers
    split
    · exact ⟨hout, rfl, fun h => h, fun h => (by cases h)⟩
    · next hgoes =>
      simp only [Bool.or_eq_true, Bool.not_eq_true', not_or, Bool.not_eq_true,
        Bool.not_eq_false] at hgoes
      obtain ⟨hclosed, hasked⟩ := hgoes
      have halright := ((asked_iff b).mp hasked).2.1
      rcases hout.bodySource (hsrc hclosed) hasked n with ⟨bytes, eof, hres, h⟩ | ⟨hres, h⟩
      · cases hrun : b.bodySource n with
        | mk d res =>
          rw [hrun] at hres h
          dsimp only at hres h
          subst hres
          have hnext := ih (hout.handed hasked h)
            (fun hcl => h.same.src.trans (hsrc hcl))
          dsimp only at hnext ⊢
          exact ⟨hnext.1, hnext.2.1.trans h.same.src, fun _ => hnext.2.2.1 h.alright,
            fun _ => halright⟩
      · cases hrun : b.bodySource n with
        | mk d res =>
          rw [hrun] at hres h
          dsimp only at hres h
          subst hres
          exact ⟨hout.broken h, h.same.src, fun _ => h.failed, fun _ => halright⟩

/-- `zuh_h2_own_body` copies what is left of a body in memory. -/
lemma Outgoing.own {closed : Bool} (hout : Outgoing g b) (hsrc : closed = false → b.src = g.source)
    (alloc : Bool) : Outgoing g (b.own closed alloc).1 ∧ (b.own closed alloc).1.src = b.src ∧
      (b.own closed alloc).1.srcFailed = b.srcFailed := by
  unfold H2Body.own
  dsimp only
  split_ifs with hidle halloc
  · exact ⟨hout, rfl, rfl⟩
  · simp only [Bool.or_eq_true, not_or, Bool.not_eq_true, Option.isSome_eq_false_iff,
      Option.isNone_iff_eq_none] at hidle
    have hg : g.source = none := (hsrc hidle.1.1.1).symm.trans hidle.1.1.2
    have hm := hout.holds.memory hg
    have hcopy : (b.body.drop b.bodyOff).take (b.body.length - b.bodyOff) =
        b.body.drop b.bodyOff :=
      List.take_of_length_le (by rw [List.length_drop])
    rw [hcopy]
    refine ⟨⟨⟨hout.holds.sent, fun _ => ?_, fun next hnext => ?_⟩, hout.answered, hout.drawn,
      hout.going⟩, rfl, rfl⟩
    · exact ⟨hm.none_src, hm.alright, Nat.zero_le _, hm.bytes⟩
    · rw [hg] at hnext
      cases hnext
  · exact ⟨hout, rfl, rfl⟩

/-- The source may be let go of. -/
lemma Outgoing.release (hout : Outgoing g b) : Outgoing g { b with src := none } where
  holds :=
    { sent := hout.holds.sent
      memory := fun hg =>
        let hm := hout.holds.memory hg
        ⟨rfl, hm.alright, hm.off, hm.bytes⟩
      source := fun next hg =>
        let hs := hout.holds.source next hg
        ⟨hs.off, hs.bytes, hs.course.of_eq rfl rfl rfl rfl⟩ }
  answered := hout.answered
  drawn := hout.drawn
  going := hout.going

end H2Body

/-! ### The connection -/

namespace Sender

variable {g : GivenBody} {s : Sender}

/-- The body goes out as given, the source is there until the stream closes, and its failure
is the connection's. -/
structure Keeps (g : GivenBody) (s : Sender) : Prop where
  out : s.body.Outgoing g
  src : s.conn.closed = false → s.body.src = g.source
  failed : s.body.srcFailed = true → s.conn.failed = true

lemma start_keeps (h : H2) (hdrs : Headers) (sid : Nat) (g : GivenBody) :
    Keeps g (start h hdrs sid g) :=
  ⟨H2Body.start_outgoing g, fun _ => rfl, fun hfailed => (by cases hfailed)⟩

lemma hear_srcFailed (s : Sender) (es : List H2Event) :
    (s.hear es).body.srcFailed = s.body.srcFailed := by
  unfold Sender.hear
  dsimp only
  split_ifs <;> rfl

lemma Keeps.hear (hs : Keeps g s) (es : List H2Event) : Keeps g (s.hear es) := by
  have huntouched := H2.hear_untouched s.conn es
  have hfailed : (s.hear es).body.srcFailed = true → (s.hear es).conn.failed = true := by
    rw [hear_srcFailed]
    exact fun hfailed => huntouched.failed.trans (hs.failed hfailed)
  unfold Sender.hear at hfailed ⊢
  dsimp only at hfailed ⊢
  split_ifs at hfailed ⊢ with hclosed
  · exact ⟨hs.out.release, fun hopen => absurd hclosed (Bool.eq_false_iff.mp hopen), hfailed⟩
  · refine ⟨hs.out, fun _ => hs.src ?_, hfailed⟩
    cases hbefore : s.conn.closed with
    | false => rfl
    | true => exact absurd (huntouched.closed hbefore) hclosed

lemma Keeps.fail (hs : Keeps g s) (f : Fail) : Keeps g (s.fail f).1 :=
  ⟨hs.out, hs.src, fun _ => rfl⟩

/-- A source that fails in a flush is what the flush reports. -/
lemma Keeps.flush (hs : Keeps g s) (sends : List SendAnswer) :
    Keeps g (s.flush sends).1 ∧
      (s.body.srcFailed = false → (s.flush sends).1.body.srcFailed = true →
        (s.flush sends).2 = some (sourceReport (s.flush sends).1.body.srcErr)) := by
  induction sends generalizing s with
  | nil =>
    refine ⟨hs, fun halright hfailed => ?_⟩
    rw [show (s.flush []).1 = s from rfl, halright] at hfailed
    cases hfailed
  | cons a sends ih =>
    obtain ⟨hout, hsrc, hbad, hgood⟩ := hs.out.offers hs.src a.offers
    unfold Sender.flush
    cases hrun : s.body.offers s.conn.closed a.offers with
    | mk b bad =>
      rw [hrun] at hout hsrc hbad
      dsimp only at hout hsrc hbad
      cases bad with
      | true =>
        dsimp only [Sender.fail]
        refine ⟨⟨hout, fun hopen => hsrc.trans (hs.src hopen), fun _ => rfl⟩, fun halright _ => ?_⟩
        rw [if_pos (hbad halright)]
      | false =>
        have hb : Keeps g { s with body := b } := by
          refine ⟨hout, fun hopen => hsrc.trans (hs.src hopen), fun hfailed => ?_⟩
          cases hbefore : s.body.srcFailed with
          | true => exact hs.failed hbefore
          | false => exact absurd (hbad hbefore) (by simp [show b.srcFailed = true from hfailed])
        have hheard := hb.hear (a.closes.map (fun c => .streamClose c.1 c.2))
        have hfailed := hear_srcFailed { s with body := b }
          (a.closes.map (fun c => .streamClose c.1 c.2))
        dsimp only at hfailed ⊢
        generalize Sender.hear _ _ = t at hheard hfailed
        have hnext : Keeps g { t with conn.allowed := a.allowed } :=
          ⟨hheard.out, hheard.src, hheard.failed⟩
        have hstill : s.body.srcFailed = false → ¬t.body.srcFailed = true := by
          intro halright
          rw [hfailed, hbad halright]
          exact Bool.false_ne_true
        cases a.ending with
        | fail f =>
          exact ⟨hnext.fail f, fun halright hbroken => absurd hbroken (hstill halright)⟩
        | nothing => exact ⟨hnext, fun halright hbroken => absurd hbroken (hstill halright)⟩
        | written failure =>
          cases failure with
          | none =>
            have hrest := ih hnext
            exact ⟨hrest.1, fun halright => hrest.2 (Bool.eq_false_iff.mpr (hstill halright))⟩
          | some f =>
            exact ⟨⟨hheard.out, hheard.src, fun _ => rfl⟩,
              fun halright hbroken => absurd hbroken (hstill halright)⟩

lemma Keeps.step (hs : Keeps g s) (e : Event) : Keeps g (s.step e) := by
  cases e with
  | flush sends => exact (hs.flush sends).1
  | hear events => exact hs.hear events
  | own alloc =>
    obtain ⟨hout, hsrc, hfailed⟩ := hs.out.own hs.src alloc
    exact ⟨hout, fun hopen => hsrc.trans (hs.src hopen), fun h => hs.failed (hfailed.symm.trans h)⟩

lemma Keeps.play (hs : Keeps g s) (es : List Event) : Keeps g (s.play es) := by
  induction es generalizing s with
  | nil => exact hs
  | cons e es ih => exact ih (hs.step e)

end Sender

/-! ### The flush of the driver -/

namespace H2

/-- The connection once the streams are closed. -/
def heardCloses (h : H2) (closes : List (Nat × Nat)) : H2 :=
  (h.hear (closes.map (fun c => .streamClose c.1 c.2))).1

lemma heardCloses_cons (h : H2) (c : Nat × Nat) (closes : List (Nat × Nat)) :
    h.heardCloses (c :: closes) = (h.callback (.streamClose c.1 c.2)).1.heardCloses closes := rfl

lemma heardCloses_append (h : H2) (closes more : List (Nat × Nat)) :
    h.heardCloses (closes ++ more) = (h.heardCloses closes).heardCloses more := by
  induction closes generalizing h with
  | nil => rfl
  | cons c closes ih =>
    rw [List.cons_append, heardCloses_cons, heardCloses_cons]
    exact ih _

lemma heardCloses_untouched (h : H2) (closes : List (Nat × Nat)) :
    Untouched h (h.heardCloses closes) := hear_untouched h _

/-- Closing a stream has nothing to do with the rest of the connection. -/
lemma heardCloses_set (h : H2) (closes : List (Nat × Nat)) (env : H2Env) (allowed failed : Bool) :
    heardCloses { h with env := env, allowed := allowed, failed := failed } closes =
      { h.heardCloses closes with env := env, allowed := allowed, failed := failed } := by
  induction closes generalizing h with
  | nil => rfl
  | cons c closes ih =>
    rw [heardCloses_cons, heardCloses_cons, ← ih]
    congr 1
    unfold callback
    dsimp only [onClose]
    split
    · rfl
    · rfl

lemma flush_answer (h : H2) (a : FlushAnswer) (rest : List FlushAnswer)
    (hnext : h.env.flushes = a :: rest) :
    h.flush = ({ h.heardCloses a.closes with
      env := { h.env with flushes := rest }, allowed := a.allowed
      failed := h.failed || a.failure.isSome }, a.failure) := by
  obtain ⟨h₁, hhear⟩ := hear_closes { h with env.flushes := rest } a.closes
  have hset : { h.heardCloses a.closes with
      env := { h.env with flushes := rest }, allowed := h.allowed, failed := h.failed } = h₁ := by
    rw [← heardCloses_set]
    exact congrArg Prod.fst hhear
  subst hset
  unfold flush
  rw [hnext]
  simp only [hhear]
  cases a.failure with
  | none => simp
  | some f => simp [fail]

end H2

/-- What a flush that sends the body does to the connection. -/
lemma Sender.flush_conn (s : Sender) (sends : List SendAnswer) :
    ∃ closes allowed, (s.flush sends).1.conn = { s.conn.heardCloses closes with
      allowed := allowed, failed := s.conn.failed || (s.flush sends).2.isSome } := by
  induction sends generalizing s with
  | nil => exact ⟨[], s.conn.allowed, by simp [Sender.flush, H2.heardCloses, H2.hear]⟩
  | cons a sends ih =>
    unfold Sender.flush
    cases s.body.offers s.conn.closed a.offers with
    | mk b bad =>
      cases bad with
      | true =>
        exact ⟨[], s.conn.allowed, by simp [Sender.fail, H2.heardCloses, H2.hear]⟩
      | false =>
        have hclosed := s.conn.heardCloses_untouched a.closes
        dsimp only
        cases a.ending with
        | fail f =>
          exact ⟨a.closes, a.allowed, by simp [Sender.fail, Sender.hear, H2.heardCloses]⟩
        | nothing =>
          refine ⟨a.closes, a.allowed, ?_⟩
          have hfailed := hclosed.failed
          unfold H2.heardCloses at hfailed ⊢
          simp [Sender.hear, ← hfailed]
        | written failure =>
          cases failure with
          | some f => exact ⟨a.closes, a.allowed, by simp [Sender.hear, H2.heardCloses]⟩
          | none =>
            let t : Sender := { Sender.hear { s with body := b }
              (a.closes.map (fun c => .streamClose c.1 c.2)) with conn.allowed := a.allowed }
            obtain ⟨closes, allowed, hrest⟩ := ih t
            refine ⟨a.closes ++ closes, allowed, ?_⟩
            have hconn : t.conn = { s.conn.heardCloses a.closes with
                env := s.conn.env, allowed := a.allowed, failed := s.conn.failed } := by
              rw [← hclosed.env, ← hclosed.failed]
              rfl
            have henv := (hclosed.trans ((s.conn.heardCloses a.closes).heardCloses_untouched
              closes)).env
            change (t.flush sends).1.conn = { s.conn.heardCloses (a.closes ++ closes) with
              allowed := allowed, failed := s.conn.failed || (t.flush sends).2.isSome }
            rw [hrest, hconn, H2.heardCloses_set, H2.heardCloses_append, ← henv]

/-- The flush of the driver, whose script leaves the body out, is the flush that sends it. -/
theorem Sender.flush_refines (s : Sender) (sends : List SendAnswer) (rest : List FlushAnswer) :
    ∃ a : FlushAnswer, H2.flush { s.conn with env.flushes := a :: rest } =
      ({ (s.flush sends).1.conn with env.flushes := rest }, (s.flush sends).2) := by
  obtain ⟨closes, allowed, hconn⟩ := s.flush_conn sends
  refine ⟨⟨closes, (s.flush sends).2, allowed⟩, ?_⟩
  have hset := H2.heardCloses_set s.conn closes
    { s.conn.env with flushes := ⟨closes, (s.flush sends).2, allowed⟩ :: rest } s.conn.allowed
    s.conn.failed
  have henv := (s.conn.heardCloses_untouched closes).env
  rw [H2.flush_answer _ _ rest rfl, hconn]
  dsimp only at hset ⊢
  rw [hset, henv]

/-! ### The body of a request -/

/-- No request can use the connection any more. -/
def Unusable (h : H2) : Prop :=
  h.reusable = false ∧ ∀ rq hdrs, h.begin rq hdrs =
    (h, .error (Fail.set .io .write "this HTTP/2 connection cannot carry another request"))

lemma unusable_of_failed {h : H2} (hfailed : h.failed = true) : Unusable h := by
  refine ⟨by simp [H2.reusable, hfailed], fun rq hdrs => ?_⟩
  unfold H2.begin
  rw [if_pos (Or.inl hfailed)]

lemma sourceReport_eq {f : Fail} {e : Error} (herr : f.err = some e) (hcode : e.code = f.rc) :
    sourceReport f.err = f := by
  obtain ⟨rc, err, hrc⟩ := f
  dsimp only at herr hcode
  subst herr hcode
  rw [sourceReport, dif_neg hrc]

/-- The source broke the body off with this failure. -/
def BrokenBy (g : GivenBody) (f : Fail) : Prop :=
  ∃ next k, g.source = some next ∧ next k = .error f

open H2Body in
/-- How a body is delivered, at one moment: what was returned is a prefix of it, EOF is told
with its end, and a failure of its source is reported and ends the use of the connection. -/
structure Delivered (g : GivenBody) (s : Sender) : Prop where
  begins : ∀ body, g.Is body → returned s.body.answers <+: body
  supplied : returned s.body.answers <+: g.supplied s.body.drawn
  answered : Answered g s.body.answers
  sent : s.body.bodySent = (returned s.body.answers).length
  met : s.body.srcFailed = false → ∀ next, g.source = some next → ∀ k < s.body.drawn,
    ∃ piece, next k = .ok piece
  unusable : s.body.srcFailed = true → Unusable s.conn
  reported : ∀ sends, s.body.srcFailed = false → (s.flush sends).1.body.srcFailed = true →
    ∃ f, BrokenBy g f ∧ (s.flush sends).2 = some (sourceReport f.err) ∧
      (∀ e, f.err = some e → e.code = f.rc → (s.flush sends).2 = some f)

namespace H2Body

variable {g : GivenBody} {next : PieceSource} {b : H2Body} {r : Bytes}

lemma Course.drawn_prefix (hcourse : Course next b) {k : Nat} (hends : next.EndsAt k) :
    drawnBytes next b.drawn <+: drawnBytes next k := by
  have hends' : drawnBytes next (k + 1) = drawnBytes next k := by
    rw [drawnBytes, hends.1, pieceBytes, List.append_nil]
  have hle : b.drawn ≤ k + 1 := by
    by_contra hlong
    cases hcourse with
    | going _ _ hpieces =>
      obtain ⟨piece, hne, hpiece⟩ := hpieces k (by omega)
      rw [hends.1, Except.ok.injEq] at hpiece
      exact hne hpiece.symm
    | ended _ _ hdrawn hended =>
      obtain ⟨piece, hne, hpiece⟩ := hended.2 k (by omega)
      rw [hends.1, Except.ok.injEq] at hpiece
      exact hne hpiece.symm
    | failed _ hdrawn _ _ hpieces =>
      obtain ⟨piece, hne, hpiece⟩ := hpieces k (by omega)
      rw [hends.1, Except.ok.injEq] at hpiece
      exact hne hpiece.symm
  rw [← hends']
  exact drawnBytes_prefix next hle

lemma Holds.supplied (h : Holds g b r) : r <+: g.supplied b.drawn := by
  unfold GivenBody.supplied
  cases hg : g.source with
  | none => exact ⟨_, (h.memory hg).bytes⟩
  | some next => exact ⟨_, (h.source next hg).bytes⟩

lemma Holds.begins (h : Holds g b r) {body : Bytes} (hbody : g.Is body) : r <+: body := by
  have hsupplied := h.supplied
  unfold GivenBody.supplied at hsupplied
  unfold GivenBody.Is at hbody
  cases hg : g.source with
  | none =>
    rw [hg] at hsupplied hbody
    exact hbody ▸ hsupplied
  | some next =>
    rw [hg] at hsupplied hbody
    obtain ⟨k, hends, rfl⟩ := hbody
    exact hsupplied.trans ((h.source next hg).course.drawn_prefix hends)

lemma Holds.met (h : Holds g b r) (halright : b.srcFailed = false) (hg : g.source = some next)
    {k : Nat} (hk : k < b.drawn) : ∃ piece, next k = .ok piece := by
  cases (h.source next hg).course with
  | going _ _ hpieces =>
    obtain ⟨piece, -, hpiece⟩ := hpieces k hk
    exact ⟨piece, hpiece⟩
  | @ended j _ _ hdrawn hends =>
    rcases Nat.lt_succ_iff_lt_or_eq.mp (hdrawn ▸ hk) with hlt | rfl
    · obtain ⟨piece, -, hpiece⟩ := hends.2 k hlt
      exact ⟨piece, hpiece⟩
    · exact ⟨[], hends.1⟩
  | failed hfailed => rw [halright] at hfailed; cases hfailed

/-- A failed source has a failure to blame. -/
lemma Holds.brokenBy (h : Holds g b r) (hfailed : b.srcFailed = true) :
    ∃ f, BrokenBy g f ∧ b.srcErr = f.err := by
  cases hg : g.source with
  | none =>
    have halright := (h.memory hg).alright
    rw [hfailed] at halright
    cases halright
  | some next =>
    cases (h.source next hg).course with
    | going _ halright => rw [hfailed] at halright; cases halright
    | ended _ halright => rw [hfailed] at halright; cases halright
    | @failed k f _ _ herror herr _ => exact ⟨f, ⟨next, k, hg, herror⟩, herr⟩

end H2Body

lemma Sender.Keeps.delivered {g : GivenBody} {s : Sender} (hs : Keeps g s) : Delivered g s where
  begins _ hbody := hs.out.holds.begins hbody
  supplied := hs.out.holds.supplied
  answered := hs.out.answered
  sent := hs.out.holds.sent
  met halright _ hg _ hk := hs.out.holds.met halright hg hk
  unusable hfailed := unusable_of_failed (hs.failed hfailed)
  reported sends halright hfailed := by
    obtain ⟨hkeeps, hreport⟩ := hs.flush sends
    obtain ⟨f, hbroken, herr⟩ := hkeeps.out.holds.brokenBy hfailed
    have hres := hreport halright hfailed
    rw [herr] at hres
    refine ⟨f, hbroken, hres, fun e he hcode => ?_⟩
    rw [hres, sourceReport_eq he hcode]

end Zuhttp
