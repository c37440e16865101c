import Zuhttp.Library.StreamCode
import Zuhttp.Proofs.Inflate

/-!
# Decoding in pieces

What comes of a compressed body that is handed over in pieces depends on its bytes only, unless
a limit is reached, and the bytes handed on are counted.
-/

namespace Zuhttp

/-! ### zlib -/

namespace Zlib

/-- The streams of each wrapping. -/
abbrev Codes := Wrapper → StreamCode UInt8 UInt8

/-- The states inside a compressed stream, with what was taken of it and given for it. -/
inductive Ran (Z : Zlib) : Wrapper → Bytes → Bytes → Z.State → Prop
  | init {w s} (h : Z.init w = some s) : Ran Z w [] [] s
  | reset {w m out s s'} (h : Ran Z w m out s) (input : Bytes) (window : Nat)
      (hend : (Z.inflate s input window).ret = .streamEnd)
      (hr : Z.reset (Z.inflate s input window).state = some s') : Ran Z w [] [] s'
  | step {w m out s} (h : Ran Z w m out s) (input : Bytes) (window : Nat)
      (hret : (Z.inflate s input window).ret = .ok ∨ (Z.inflate s input window).ret = .bufError) :
      Ran Z w (m ++ input.take (Z.inflate s input window).consumed)
        (out ++ (Z.inflate s input window).produced) (Z.inflate s input window).state

/-- What zlib documents of `inflate` on the streams of a code. It takes nothing behind the end of
a stream; it reports the end when the stream is complete and all it stands for is given; a call
without an error that leaves room for output has taken all input and given what it stands for;
an error means that no stream begins so. It comes to an end. -/
structure Decodes (Z : Zlib) (C : Codes) : Prop where
  starts : ∀ w, Z.init w ≠ none
  resets : ∀ s, Z.reset s ≠ none
  some_word : ∀ w, ∃ e, (C w).Word e
  two_le : ∀ {w e}, (C w).Word e → 2 ≤ e.length
  plain_nil : ∀ w, (C w).plain [] = []
  produced_le : ∀ (s : Z.State) (input : Bytes) (window : Nat),
    (Z.inflate s input window).produced.length ≤ window
  stops : ∀ {w m out s} (_ : Z.Ran w m out s) (input : Bytes) (window : Nat) (e : Bytes),
    (Z.inflate s input window).ret ≠ .dataError → (C w).Word e →
    e <+: m ++ input.take (Z.inflate s input window).consumed →
      e = m ++ input.take (Z.inflate s input window).consumed
  ends : ∀ {w m out s} (_ : Z.Ran w m out s) (input : Bytes) (window : Nat),
    (Z.inflate s input window).ret = .streamEnd →
      (C w).Word (m ++ input.take (Z.inflate s input window).consumed) ∧
      out ++ (Z.inflate s input window).produced =
        (C w).plain (m ++ input.take (Z.inflate s input window).consumed)
  drains : ∀ {w m out s} (_ : Z.Ran w m out s) (input : Bytes) (window : Nat),
    (Z.inflate s input window).ret = .ok ∨ (Z.inflate s input window).ret = .bufError →
    (Z.inflate s input window).produced.length < window →
      (Z.inflate s input window).consumed = input.length ∧ ¬(C w).Word (m ++ input) ∧
      out ++ (Z.inflate s input window).produced = (C w).plain (m ++ input)
  malformed : ∀ {w m out s} (_ : Z.Ran w m out s) (input : Bytes) (window : Nat) (e : Bytes),
    (Z.inflate s input window).ret = .dataError → (C w).Word e →
      ¬e <+: m ++ input ∧ ¬m ++ input <+: e
  work_step : ∀ {w m out s} (_ : Z.Ran w m out s) (input : Bytes) (window : Nat),
    (Z.inflate s input window).ret = .ok ∨ (Z.inflate s input window).ret = .bufError →
    (Z.inflate s input window).produced ≠ [] →
      Z.work (Z.inflate s input window).state
        (input.drop (Z.inflate s input window).consumed) < Z.work s input
  work_reset : ∀ {w m out s s'} (_ : Z.Ran w m out s) (input : Bytes) (window : Nat),
    (Z.inflate s input window).ret = .streamEnd →
    Z.reset (Z.inflate s input window).state = some s' →
      Z.work s' (input.drop (Z.inflate s input window).consumed) < Z.work s input

variable {Z : Zlib} {C : Codes} {w : Wrapper} {m out : Bytes}
  {s s' : Z.State}

/-- The states at the end of a stream. -/
def Over (Z : Zlib) (w : Wrapper) (s' : Z.State) : Prop :=
  ∃ m out s input window, Z.Ran w m out s ∧ (Z.inflate s input window).ret = .streamEnd ∧
    s' = (Z.inflate s input window).state

lemma Over.reset (h : Z.Over w s) (hr : Z.reset s = some s') : Z.Ran w [] [] s' := by
  obtain ⟨m, out, s₀, input, window, hran, hend, rfl⟩ := h
  exact hran.reset input window hend hr

/-- What a call of `inflate` leads to inside the stream `w`, of which `m` was taken and `out`
given for it. -/
inductive Called (C : Codes) (w : Wrapper) (m out : Bytes)
    (input : Bytes) (work : Nat) (r : ZResult Z.State) : Prop
  | malformed (hret : r.ret = .dataError)
      (hbad : ∀ e, (C w).Word e → ¬e <+: m ++ input ∧ ¬m ++ input <+: e)
  | ended (hret : r.ret = .streamEnd) (hover : Z.Over w r.state)
      (hword : (C w).Word (m ++ input.take r.consumed))
      (hplain : out ++ r.produced = (C w).plain (m ++ input.take r.consumed))
      (hwork : ∀ s', Z.reset r.state = some s' → Z.work s' (input.drop r.consumed) < work)
  | going (hret : r.ret = .ok ∨ r.ret = .bufError)
      (hran : Z.Ran w (m ++ input.take r.consumed) (out ++ r.produced) r.state)
      (hquiet : r.produced = [] → input.drop r.consumed = [] ∧
        out = (C w).plain (m ++ input.take r.consumed) ∧
        ∀ e, (C w).Word e → ¬e <+: m ++ input.take r.consumed)
      (hwork : r.produced ≠ [] → Z.work r.state (input.drop r.consumed) < work)

lemma Ran.called (h : Z.Ran w m out s) (hZ : Z.Decodes C) (input : Bytes) {window : Nat}
    (hwindow : 0 < window) :
    Called C w m out input (Z.work s input) (Z.inflate s input window) := by
  have hgoing : (Z.inflate s input window).ret = .ok ∨ (Z.inflate s input window).ret = .bufError →
      Called C w m out input (Z.work s input) (Z.inflate s input window) := by
    intro hret
    refine .going hret (h.step input window hret) (fun hquiet => ?_)
      (fun hne => hZ.work_step h input window hret hne)
    obtain ⟨hall, hword, hplain⟩ := hZ.drains h input window hret (by rw [hquiet]; exact hwindow)
    rw [hquiet, List.append_nil] at hplain
    refine ⟨by rw [hall, List.drop_length], by rw [hall, List.take_length, hplain],
      fun e he hpre => hword ?_⟩
    have hdata : (Z.inflate s input window).ret ≠ .dataError := by
      rcases hret with hret | hret <;> rw [hret] <;> exact fun h => by cases h
    have heq := hZ.stops h input window e hdata he hpre
    rw [hall, List.take_length] at heq
    exact heq ▸ he
  cases hret : (Z.inflate s input window).ret with
  | dataError => exact .malformed hret (fun e he => hZ.malformed h input window e hret he)
  | streamEnd =>
    obtain ⟨hword, hplain⟩ := hZ.ends h input window hret
    exact .ended hret ⟨m, out, s, input, window, h, hret, rfl⟩ hword hplain
      (fun s' hs' => hZ.work_reset h input window hret hs')
  | ok => exact hgoing (.inl hret)
  | bufError => exact hgoing (.inr hret)

end Zlib

open Zlib

namespace Inflate

variable {Z : Zlib} {C : Codes} {z z' : Inflate Z}
  {enc out input : Bytes}

/-- The wrapping of a deflate stream that begins so. -/
def wrapperOf (head : Bytes) : Wrapper := if looksZlibWrapped head then .zlib else .raw

/-- What a compressed body stands for: gzip's members one after the other, one deflate stream,
or nothing. -/
def Stands (C : Codes) (coding : Encoding) (enc out : Bytes) : Prop :=
  match coding with
  | .gzip => (C .gzip).Words enc out
  | .deflate => enc = [] ∧ out = [] ∨
      (C (wrapperOf (enc.take 2))).Word enc ∧ out = (C (wrapperOf (enc.take 2))).plain enc
  | _ => False

/-! ### Limits and counters -/

/-- No more was handed on than allowed. -/
def Within (z : Inflate Z) : Prop := z.maxOut ≠ 0 → z.outTotal ≤ z.maxOut

/-- A limit that is reached. -/
def AtLimit (z : Inflate Z) : Prop :=
  (z.maxOut ≠ 0 ∧ z.maxOut ≤ z.outTotal) ∨
    (z.maxRatio ≠ 0 ∧ 32 ≤ z.inTotal ∧ z.inTotal * z.maxRatio ≤ z.outTotal)

lemma checkLimits_some {f : Fail} (h : z.checkLimits = some f) : f.rc = .bodyLimit ∧ z.AtLimit := by
  unfold checkLimits at h
  split_ifs at h with hout hratio
  · cases h
    exact ⟨rfl, .inl ⟨hout.1, hout.2.le⟩⟩
  · cases h
    obtain ⟨hne, hseen, hover⟩ := hratio
    refine ⟨rfl, .inr ⟨hne, hseen, ?_⟩⟩
    have hle : z.maxRatio * z.inTotal ≤ z.outTotal :=
      (Nat.le_div_iff_mul_le (by omega)).mp hover.le
    rwa [Nat.mul_comm] at hle

lemma allowance_le (z : Inflate Z) (h : z.maxOut ≠ 0) :
    z.remainingAllowance ≤ z.maxOut - z.outTotal := by
  unfold remainingAllowance
  dsimp only
  rw [if_pos h]
  split_ifs <;> omega

/-- Which limit an exhausted allowance comes from. -/
lemma allowance_binds (z : Inflate Z) (h : z.remainingAllowance < u64Max) :
    (z.maxOut ≠ 0 ∧ z.maxOut ≤ z.outTotal + z.remainingAllowance) ∨
      (z.maxRatio ≠ 0 ∧ 32 ≤ z.inTotal ∧
        z.inTotal * z.maxRatio ≤ z.outTotal + z.remainingAllowance) := by
  unfold remainingAllowance at h ⊢
  dsimp only at h ⊢
  generalize u64Max = top at h ⊢
  generalize hroom : (if z.maxOut ≠ 0 then min top (z.maxOut - z.outTotal) else top) = room at h ⊢
  have hout : room < top → z.maxOut ≠ 0 ∧ z.maxOut ≤ z.outTotal + room := by
    intro hlt
    by_cases hne : z.maxOut ≠ 0
    · rw [if_pos hne] at hroom
      omega
    · rw [if_neg hne] at hroom
      omega
  by_cases hratio : z.maxRatio ≠ 0 ∧ z.inTotal ≥ 32 ∧ z.inTotal ≤ top / z.maxRatio
  · rw [if_pos hratio] at h ⊢
    rcases Nat.le_total room (z.inTotal * z.maxRatio - z.outTotal) with hle | hle
    · rw [min_eq_left hle] at h ⊢
      exact .inl (hout h)
    · rw [min_eq_right hle]
      exact .inr ⟨hratio.1, hratio.2.1, by omega⟩
  · rw [if_neg hratio] at h ⊢
    exact .inl (hout h)

lemma outWindow_le (z : Inflate Z) : z.outWindow ≤ 16384 := by
  unfold outWindow
  generalize z.remainingAllowance = room
  split_ifs <;> omega

/-- What `deliver` hands on, and what it refuses. -/
structure Delivers (z : Inflate Z) (produced : Bytes) (z' : Inflate Z) (given : Bytes)
    (f : Option Fail) : Prop where
  keeps : z' = { z with outTotal := z.outTotal + given.length }
  within : z.Within → z'.Within
  all : f = none → given = produced
  limit : ∀ f', f = some f' → f'.rc = .bodyLimit ∧ z'.AtLimit

lemma Delivers.same {produced given : Bytes} {f : Option Fail}
    (h : z.Delivers produced z' given f) :
    z'.strm = z.strm ∧ z'.hdr = z.hdr ∧ z'.finished = z.finished := by
  rw [h.keeps]
  exact ⟨rfl, rfl, rfl⟩

lemma deliver_delivers (z : Inflate Z) {produced : Bytes} (hlen : produced.length ≤ 16384) :
    z.Delivers produced (z.deliver produced).1 (z.deliver produced).2.1
      (z.deliver produced).2.2 := by
  unfold deliver
  dsimp only
  by_cases hempty : produced = []
  · rw [if_pos hempty]
    exact ⟨rfl, id, fun _ => hempty.symm, fun f hf => by cases hf⟩
  · rw [if_neg hempty]
    have hwithin : ∀ n ≤ z.remainingAllowance, z.Within →
        Within { z with outTotal := z.outTotal + n } := by
      intro n hn hz hne
      have hroom := z.allowance_le hne
      have hbound := hz hne
      change z.outTotal + n ≤ z.maxOut
      omega
    by_cases hover : produced.length > z.remainingAllowance
    · rw [if_pos hover]
      have htake : (produced.take z.remainingAllowance).length = z.remainingAllowance := by
        rw [List.length_take]
        omega
      have hlimit : AtLimit { z with outTotal := z.outTotal + z.remainingAllowance } :=
        z.allowance_binds (by unfold u64Max; omega)
      refine ⟨by rw [htake], hwithin _ le_rfl, (fun hf => by cases hf), ?_⟩
      rintro f' hf
      cases hf
      refine ⟨?_, hlimit⟩
      split
      · next f hf => exact (checkLimits_some hf).1
      · split_ifs <;> rfl
    · rw [if_neg hover]
      exact ⟨rfl, hwithin _ (by omega), fun _ => rfl, fun f' hf => checkLimits_some hf⟩

/-! ### What was taken and given -/

variable {lim : Nat × Nat} {coding : Encoding} {hdr before : Bytes} {w : Wrapper}
  {done dout m mout taken : Bytes}

/-- The bytes taken are whole streams and a part of one more, the bytes given what they stand
for. -/
structure Midway (C : Codes) (coding : Encoding) (hdr : Bytes)
    (w : Wrapper) (done dout m mout taken out : Bytes) : Prop where
  taken_eq : taken = done ++ m
  out_eq : out = dout ++ mout
  words : (C w).Words done dout
  chosen : coding = .gzip ∧ w = .gzip ∨
    coding = .deflate ∧ w = wrapperOf hdr ∧ done = [] ∧ dout = []

/-- A deflate body begins with the two bytes that were held back. -/
def Headed (coding : Encoding) (hdr enc : Bytes) : Prop :=
  coding = .deflate → hdr.length = 2 ∧ enc.take 2 = hdr

/-- The counters of a decoder. -/
structure Counted (lim : Nat × Nat) (z : Inflate Z) (coding : Encoding) (enc out : Bytes) :
    Prop where
  limits : (z.maxOut, z.maxRatio) = lim
  coding : z.enc = coding
  total : z.inTotal = enc.length
  given : z.outTotal = out.length
  within : z.Within

/-- A decoder inside a piece, of which `input` is left. -/
structure Inside (C : Codes) (lim : Nat × Nat) (coding : Encoding) (z : Inflate Z)
    (enc input out : Bytes) : Prop where
  counted : z.Counted lim coding enc out
  going : z.finished = false
  headed : Headed coding z.hdr enc
  started : ∃ s w done dout m mout taken, z.strm = some s ∧ enc = taken ++ input ∧
    Midway C coding z.hdr w done dout m mout taken out ∧ Z.Ran w m mout s ∧
      (m ++ input = [] → enc = [])

/-- Where a decoder is between two pieces: it waits for the bytes that choose the wrapping, it is
inside a stream of which it has given all it can, or at the end of a stream. -/
inductive Rests (C : Codes) (coding : Encoding) (z : Inflate Z)
    (enc out : Bytes) : Prop
  | held (hstrm : z.strm = none) (hcoding : coding = .deflate) (hgoing : z.finished = false)
      (hhdr : z.hdr = enc) (hshort : enc.length < 2) (hout : out = [])
  | within (s : Z.State) (w : Wrapper) (done dout m mout : Bytes) (hstrm : z.strm = some s)
      (hgoing : z.finished = false) (hheaded : Headed coding z.hdr enc)
      (hmid : Midway C coding z.hdr w done dout m mout enc out)
      (hran : Z.Ran w m mout s) (hplain : mout = (C w).plain m)
      (hno : ∀ e, (C w).Word e → ¬e <+: m) (hempty : m = [] → enc = [])
  | ended (s : Z.State) (w : Wrapper) (done dout m mout : Bytes) (hstrm : z.strm = some s)
      (hfinished : z.finished = true) (hheaded : Headed coding z.hdr enc)
      (hmid : Midway C coding z.hdr w done dout m mout enc out) (hover : Z.Over w s)
      (hword : (C w).Word m) (hplain : mout = (C w).plain m)

/-- A decoder that has taken `enc` and given `out`. -/
structure Decoded (C : Codes) (lim : Nat × Nat) (coding : Encoding) (z : Inflate Z)
    (enc out : Bytes) : Prop where
  counted : z.Counted lim coding enc out
  rests : z.Rests C coding enc out

/-- No body that begins with `enc` stands for anything. -/
def Hopeless (C : Codes) (coding : Encoding) (enc : Bytes) : Prop :=
  ∀ rest out, ¬Stands C coding (enc ++ rest) out

/-- A failure that tells what it is: the body is malformed, or a limit was reached. -/
def Tells (C : Codes) (coding : Encoding) (z : Inflate Z)
    (enc : Bytes) (f : Fail) : Prop :=
  (f.rc = .bodyDecode ∧ f.err ≠ none ∧ Hopeless C coding enc) ∨ (f.rc = .bodyLimit ∧ z.AtLimit)

/-- A decoder that failed. -/
structure Failed (C : Codes) (lim : Nat × Nat) (coding : Encoding) (z : Inflate Z)
    (enc out : Bytes) (f : Fail) : Prop where
  limits : (z.maxOut, z.maxRatio) = lim
  given : z.outTotal = out.length
  within : z.Within
  tells : Tells C coding z enc f

lemma Counted.failed {f : Fail} {enc' : Bytes} (h : z.Counted lim coding enc' out)
    (ht : Tells C coding z enc f) : Failed C lim coding z enc out f :=
  ⟨h.limits, h.given, h.within, ht⟩

lemma Headed.append (h : Headed coding hdr enc) (rest : Bytes) (hc : coding = .deflate) :
    (enc ++ rest).take 2 = hdr := by
  obtain ⟨hlen, htake⟩ := h hc
  have htwo : 2 ≤ enc.length := by
    rw [← htake, List.length_take] at hlen
    omega
  rw [List.take_append_of_le_length htwo, htake]

lemma Headed.extend (h : Headed coding hdr enc) (rest : Bytes) : Headed coding hdr (enc ++ rest) :=
  fun hc => ⟨(h hc).1, h.append rest hc⟩

lemma Hopeless.append (h : Hopeless C coding enc) (rest : Bytes) :
    Hopeless C coding (enc ++ rest) := by
  intro rest' out
  rw [List.append_assoc]
  exact h (rest ++ rest') out

/-- Bytes that no stream begins with, and that begin with no stream. -/
lemma Midway.hopeless (hZ : Z.Decodes C) (h : Midway C coding hdr w done dout m mout taken out)
    (hhead : Headed coding hdr (taken ++ input))
    (hbad : ∀ e, (C w).Word e → ¬e <+: m ++ input ∧ ¬m ++ input <+: e) :
    Hopeless C coding (taken ++ input) := by
  obtain ⟨e₀, he₀⟩ := hZ.some_word w
  have hne : m ++ input ≠ [] := fun hnil => (hbad e₀ he₀).2 (hnil ▸ List.nil_prefix)
  intro rest out' hstands
  have hall : taken ++ input ++ rest = done ++ (m ++ input ++ rest) := by
    rw [h.taken_eq]
    simp only [List.append_assoc]
  rcases h.chosen with ⟨rfl, rfl⟩ | ⟨rfl, hw, rfl, rfl⟩
  · change (C .gzip).Words _ _ at hstands
    rw [hall] at hstands
    obtain ⟨out'', hwords, -⟩ := h.words.split hstands
    obtain ⟨e, he, hpre⟩ := hwords.head (fun hnil => hne (List.append_eq_nil_iff.mp hnil).1)
    rcases List.prefix_or_prefix_of_prefix hpre (List.prefix_append (m ++ input) rest) with hp | hp
    · exact (hbad e he).1 hp
    · exact (hbad e he).2 hp
  · rw [List.nil_append] at hall
    rcases hstands with ⟨hnil, -⟩ | ⟨hword, -⟩
    · rw [hall] at hnil
      exact hne (List.append_eq_nil_iff.mp hnil).1
    · rw [hhead.append rest rfl, ← hw, hall] at hword
      exact (hbad _ hword).2 (List.prefix_append _ _)

/-- Bytes behind the end of a deflate stream. -/
lemma Midway.trailing (h : Midway C .deflate hdr w done dout m mout taken out)
    (hhead : Headed .deflate hdr (taken ++ input)) (hword : (C w).Word m) (hne : input ≠ []) :
    Hopeless C .deflate (taken ++ input) := by
  obtain ⟨hc, -⟩ | ⟨-, hw, rfl, rfl⟩ := h.chosen
  · cases hc
  · intro rest out' hstands
    have htaken : taken = m := by rw [h.taken_eq, List.nil_append]
    subst htaken
    have hne' : input ++ rest ≠ [] := fun hnil => hne (List.append_eq_nil_iff.mp hnil).1
    rcases hstands with ⟨hnil, -⟩ | ⟨hall, -⟩
    · exact hne (List.append_eq_nil_iff.mp (List.append_eq_nil_iff.mp hnil).1).2
    · rw [hhead.append rest rfl, ← hw, List.append_assoc] at hall
      have heq := (C w).prefix_free hword hall (List.prefix_append _ _)
      exact hne' (List.append_right_eq_self.mp heq.symm)

/-- The words end with the one that was completed. -/
lemma Midway.complete (h : Midway C coding hdr w done dout m mout taken out)
    (hword : (C w).Word m) (hplain : mout = (C w).plain m) : (C w).Words taken out := by
  rw [h.taken_eq, h.out_eq, hplain]
  exact h.words.snoc hword

/-! ### Passes -/

/-- The inflater took some input and gave some output. -/
lemma Midway.step (h : Midway C coding hdr w done dout m mout taken out) (took gave : Bytes) :
    Midway C coding hdr w done dout (m ++ took) (mout ++ gave) (taken ++ took) (out ++ gave) :=
  ⟨by rw [h.taken_eq, List.append_assoc], by rw [h.out_eq, List.append_assoc], h.words, h.chosen⟩

/-- Another stream begins. -/
lemma Midway.next (h : Midway C coding hdr w done dout m mout taken out)
    (hgzip : coding = .gzip) (hword : (C w).Word m) (hplain : mout = (C w).plain m) :
    Midway C coding hdr w taken out [] [] taken out := by
  refine ⟨(List.append_nil _).symm, (List.append_nil _).symm, h.complete hword hplain, ?_⟩
  obtain hc | ⟨hc, -⟩ := h.chosen
  · exact .inl hc
  · rw [hgzip] at hc
    cases hc

/-- What a pass of a call leads to, before which `before` was given: a decoder with less to do,
one at rest, or a failure. -/
def Passes (C : Codes) (lim : Nat × Nat) (coding : Encoding) (enc before : Bytes)
    (work : Nat) : Pass Z → Prop
  | .again z input out => Inside C lim coding z enc input (before ++ out) ∧
      ∀ s, z.strm = some s → Z.work s input < work
  | .stop z out (.fail f) => Failed C lim coding z enc (before ++ out) f
  | .stop z out _ => Decoded C lim coding z enc (before ++ out)

/-- The counters, when a part of the output of a pass was handed on. -/
lemma Counted.give {given : Bytes} {z₁ : Inflate Z} {s : Option Z.State} {produced : Bytes}
    {f : Option Fail} (h : z.Counted lim coding enc out)
    (hd : Delivers { z with strm := s } produced z₁ given f) :
    z₁.Counted lim coding enc (out ++ given) := by
  refine ⟨?_, ?_, ?_, ?_, hd.within h.within⟩
  · rw [hd.keeps]
    exact h.limits
  · rw [hd.keeps]
    exact h.coding
  · rw [hd.keeps]
    exact h.total
  · rw [hd.keeps, List.length_append, ← h.given]

lemma Counted.restate (h : z.Counted lim coding enc out) (s : Option Z.State) :
    Counted lim { z with strm := s } coding enc out :=
  ⟨h.limits, h.coding, h.total, h.given, h.within⟩

lemma Counted.rehead (h : z.Counted lim coding enc out) (hdr : Bytes) :
    Counted lim { z with hdr := hdr } coding enc out :=
  ⟨h.limits, h.coding, h.total, h.given, h.within⟩

lemma Counted.finish (h : z.Counted lim coding enc out) (fin : Bool) :
    Counted lim { z with finished := fin } coding enc out :=
  ⟨h.limits, h.coding, h.total, h.given, h.within⟩

lemma Counted.restart (h : z.Counted lim coding enc out) (s : Z.State) (fin : Bool) :
    Counted lim { z with strm := some s, finished := fin } coding enc out :=
  ⟨h.limits, h.coding, h.total, h.given, h.within⟩

lemma nextMember_gzip (hZ : Z.Decodes C) (z : Inflate Z) {s : Z.State} (henc : z.enc = .gzip)
    (hs : z.strm = some s) :
    ∃ s', Z.reset s = some s' ∧
      z.nextMember = .ok { z with strm := some s', finished := false } := by
  obtain ⟨s', hs'⟩ := Option.ne_none_iff_exists'.mp (hZ.resets s)
  refine ⟨s', hs', ?_⟩
  unfold nextMember
  rw [henc, hs]
  dsimp only
  rw [hs']

/-- Nothing may follow the end of a deflate stream. -/
def afterEnd : Fail :=
  Fail.set .bodyDecode .decode "data after the end of the compressed stream"

lemma nextMember_deflate (z : Inflate Z) (henc : z.enc = .deflate) :
    z.nextMember = .error afterEnd := by
  unfold nextMember
  rw [henc]
  rfl

lemma pass_passes (hZ : Z.Decodes C) {s : Z.State}
    (h : Inside C lim coding z enc input (before ++ out)) (hs : z.strm = some s) :
    Passes C lim coding enc before (Z.work s input) (z.pass s input out) := by
  obtain ⟨hcounted, hgoing, hheaded, s', w, done, dout, m, mout, taken, hs', henc, hmid, hran,
    hempty⟩ := h
  obtain rfl : s = s' := Option.some.inj (hs.symm.trans hs')
  have hcalled := hran.called hZ input z.outWindow_pos
  have hproduced := (hZ.produced_le s input z.outWindow).trans z.outWindow_le
  unfold pass
  dsimp only
  generalize Z.inflate s input z.outWindow = r at hcalled hproduced ⊢
  have hmid' := hmid.step (input.take r.consumed) r.produced
  have henc' : enc = taken ++ input.take r.consumed ++ input.drop r.consumed := by
    rw [List.append_assoc, List.take_append_drop, henc]
  have hdelivers := deliver_delivers { z with strm := some r.state } hproduced
  generalize deliver { z with strm := some r.state } r.produced = delivered at hdelivers ⊢
  obtain ⟨z₁, given, f⟩ := delivered
  have hcounted' := hcounted.give hdelivers
  obtain ⟨hstrm, hhdr, hfin⟩ := hdelivers.same
  have hheaded' : Headed coding z₁.hdr enc := hhdr ▸ hheaded
  rw [← hhdr, List.append_assoc before out] at hmid'
  rw [List.append_assoc before out] at hcounted'
  cases hcalled with
  | malformed hret hbad =>
    rw [if_pos hret]
    refine (hcounted.restate (some r.state)).failed (.inl ⟨rfl, ?_, ?_⟩)
    · exact fun h => by cases h
    · rw [henc] at hheaded ⊢
      exact hmid.hopeless hZ hheaded hbad
  | ended hret hover hword hplain hwork =>
    rw [if_neg (by rw [hret]; decide)]
    cases f with
    | some f => exact hcounted'.failed (.inr (hdelivers.limit f rfl))
    | none =>
      obtain rfl := hdelivers.all rfl
      dsimp only
      rw [if_pos hret]
      by_cases hall : input.drop r.consumed = []
      · rw [if_pos hall]
        rw [hall, List.append_nil] at henc'
        rw [henc'] at hheaded' hcounted' ⊢
        exact ⟨hcounted'.finish true,
          .ended r.state w done dout _ _ hstrm rfl hheaded' hmid' hover hword hplain⟩
      · rw [if_neg hall]
        have hcoding : z₁.enc = coding := hcounted'.coding
        rcases hmid.chosen with ⟨hgzip, -⟩ | ⟨hdeflate, -⟩
        · obtain ⟨s', hreset, hnext⟩ := nextMember_gzip hZ { z₁ with finished := true }
            (hcoding.trans hgzip) hstrm
          rw [hnext]
          refine ⟨⟨hcounted'.restart s' false, rfl, hheaded', s', w, _, _, [], [], _, rfl, henc',
            hmid'.next hgzip hword hplain, hover.reset hreset, fun hnil => absurd hnil hall⟩, ?_⟩
          intro s₁ hs₁
          cases hs₁
          exact hwork s' hreset
        · rw [nextMember_deflate { z₁ with finished := true } (hcoding.trans hdeflate)]
          refine (hcounted'.finish true).failed (.inl ⟨rfl, (fun h => by cases h), ?_⟩)
          rw [henc'] at hheaded' ⊢
          subst hdeflate
          exact hmid'.trailing hheaded' hword hall
  | going hret hran' hquiet hwork =>
    have hnot : r.ret ≠ .dataError ∧ r.ret ≠ .streamEnd := by
      rcases hret with hret | hret <;> rw [hret] <;> decide
    rw [if_neg hnot.1]
    cases f with
    | some f => exact hcounted'.failed (.inr (hdelivers.limit f rfl))
    | none =>
      obtain rfl := hdelivers.all rfl
      dsimp only
      rw [if_neg hnot.2]
      have hrest : r.produced = [] →
          Decoded C lim coding z₁ enc (before ++ (out ++ r.produced)) := by
        intro hnone
        obtain ⟨hall, hplain, hno⟩ := hquiet hnone
        rw [hall, List.append_nil] at henc'
        refine ⟨hcounted', .within r.state w done dout _ _ hstrm (hfin.trans hgoing) hheaded'
          (henc' ▸ hmid') hran' ?_ hno (fun hnil => hempty ?_)⟩
        · rw [hnone, List.append_nil, hplain]
        rw [← List.take_append_drop r.consumed input, hall, List.append_nil]
        exact hnil
      by_cases hquiet' : input.drop r.consumed = [] ∧ r.produced = []
      · rw [if_pos hquiet']
        exact hrest hquiet'.2
      · rw [if_neg hquiet']
        by_cases hbuf : r.produced = [] ∧ r.ret = .bufError
        · rw [if_pos hbuf]
          exact hrest hbuf.1
        · rw [if_neg hbuf]
          have hgave : r.produced ≠ [] := fun hnone => hquiet' ⟨(hquiet hnone).1, hnone⟩
          refine ⟨⟨hcounted', hfin.trans hgoing, hheaded', r.state, w, done, dout, _, _, _, hstrm,
            henc', hmid', hran', fun hnil => hempty ?_⟩, ?_⟩
          · rw [List.append_assoc, List.take_append_drop] at hnil
            exact hnil
          · intro s₁ hs₁
            obtain rfl := Option.some.inj (hstrm.symm.trans hs₁)
            exact hwork hgave

/-- What a call leads to, before which `before` was given: a decoder at rest, or a failure. -/
def Ran (C : Codes) (lim : Nat × Nat) (coding : Encoding) (enc before : Bytes) :
    Inflate Z × Bytes × InflateResult → Prop
  | (z, out, .fail f) => Failed C lim coding z enc (before ++ out) f
  | (z, out, _) => Decoded C lim coding z enc (before ++ out)

/-- The loop ends before its passes are used up. -/
lemma passes_ran (hZ : Z.Decodes C) {n : Nat} (h : Inside C lim coding z enc input (before ++ out))
    (hwork : ∀ s, z.strm = some s → Z.work s input < n) :
    Ran C lim coding enc before (passes n z input out) := by
  induction n generalizing z input out with
  | zero =>
    obtain ⟨s, w, done, dout, m, mout, taken, hs, -⟩ := h.started
    exact absurd (hwork s hs) (by omega)
  | succ n ih =>
    obtain ⟨s, w, done, dout, m, mout, taken, hs, -⟩ := h.started
    have hpass := pass_passes hZ h hs
    have hlt := hwork s hs
    rw [passes, hs]
    dsimp only
    cases hp : z.pass s input out with
    | again z₁ input₁ out₁ =>
      rw [hp] at hpass
      exact ih hpass.1 (fun s₁ hs₁ => by have := hpass.2 s₁ hs₁; omega)
    | stop z₁ out₁ r =>
      rw [hp] at hpass
      cases r <;> exact hpass

lemma Counted.feed (h : z.Counted lim coding enc out) (input : Bytes) :
    Counted lim { z with inTotal := z.inTotal + input.length } coding (enc ++ input) out :=
  ⟨h.limits, h.coding, by rw [List.length_append, ← h.total], h.given, h.within⟩

/-- The main loop, started inside a stream. -/
lemma mainLoop_ran (before : Bytes) (hZ : Z.Decodes C) {s : Z.State}
    (hcounted : z.Counted lim coding enc (before ++ out)) (hgoing : z.finished = false)
    (hheaded : Headed coding z.hdr (enc ++ input))
    (hs : z.strm = some s) (hmid : Midway C coding z.hdr w done dout m mout enc (before ++ out))
    (hran : Z.Ran w m mout s) (hempty : m ++ input = [] → enc = []) :
    Ran C lim coding (enc ++ input) before (z.mainLoop input out) := by
  refine passes_ran hZ ⟨hcounted.feed input, hgoing, hheaded, s, w, done, dout, m, mout, enc, hs,
    rfl, hmid, hran, fun hnil => ?_⟩ ?_
  · rw [hempty hnil, (List.append_eq_nil_iff.mp hnil).2]
    rfl
  · intro s₁ hs₁
    obtain rfl := Option.some.inj (hs.symm.trans hs₁)
    rw [hs]
    exact Nat.lt_succ_self _

/-! ### The first bytes of a deflate body -/

/-- What a pass over the held-back bytes leads to. -/
def HeadPasses (C : Codes) (lim : Nat × Nat) (hdr rest : Bytes) (work : Nat) :
    HeadPass Z → Prop
  | .again z head out => Inside C lim .deflate z hdr head out ∧ z.hdr = hdr ∧
      ∀ s, z.strm = some s → Z.work s head < work
  | .headOver z out => z.Counted lim .deflate hdr out ∧ z.finished = false ∧ z.hdr = hdr ∧
      ∃ s w m mout, z.strm = some s ∧ Midway C .deflate hdr w [] [] m mout hdr out ∧
        Z.Ran w m mout s
  | .stop z out (.fail f) => Failed C lim .deflate z (hdr ++ rest) out f
  | .stop z out _ => rest = [] ∧ Decoded C lim .deflate z hdr out

/-- A stream that ends within the first two bytes takes both. -/
lemma Midway.both (hZ : Z.Decodes C) (h : Midway C .deflate hdr w done dout m mout taken out)
    (hword : (C w).Word m) (hlen : (taken ++ input).length = 2) : input = [] := by
  obtain ⟨hc, -⟩ | ⟨-, -, rfl, -⟩ := h.chosen
  · cases hc
  · have htwo := hZ.two_le hword
    have htaken : taken = m := by rw [h.taken_eq, List.nil_append]
    rw [List.length_append, htaken] at hlen
    exact List.length_eq_zero_iff.mp (by omega)

lemma headPass_passes {head : Bytes} (rest : Bytes) (hZ : Z.Decodes C) {s : Z.State}
    (h : Inside C lim .deflate z hdr head out) (hhdr : z.hdr = hdr) (hs : z.strm = some s)
    (hlen : hdr.length = 2) :
    HeadPasses C lim hdr rest (Z.work s head) (z.headPass s head out rest) := by
  obtain ⟨hcounted, hgoing, hheaded, s', w, done, dout, m, mout, taken, hs', henc, hmid, hran,
    -⟩ := h
  obtain rfl : s = s' := Option.some.inj (hs.symm.trans hs')
  have hcalled := hran.called hZ head z.outWindow_pos
  have hproduced := (hZ.produced_le s head z.outWindow).trans z.outWindow_le
  unfold headPass
  dsimp only
  generalize Z.inflate s head z.outWindow = r at hcalled hproduced ⊢
  have hmid' := hmid.step (head.take r.consumed) r.produced
  have henc' : hdr = taken ++ head.take r.consumed ++ head.drop r.consumed := by
    rw [List.append_assoc, List.take_append_drop, henc]
  have hdelivers := deliver_delivers { z with strm := some r.state } hproduced
  generalize deliver { z with strm := some r.state } r.produced = delivered at hdelivers ⊢
  obtain ⟨z₁, given, f⟩ := delivered
  have hcounted' := hcounted.give hdelivers
  obtain ⟨hstrm, hhdr', hfin⟩ := hdelivers.same
  have hheaded' : Headed .deflate z₁.hdr hdr := hhdr' ▸ hheaded
  rw [← hhdr'] at hmid'
  cases hcalled with
  | malformed hret hbad =>
    rw [if_pos hret]
    refine (hcounted.restate (some r.state)).failed
      (.inl ⟨rfl, (fun h => by cases h), Hopeless.append ?_ rest⟩)
    rw [henc] at hheaded ⊢
    exact hmid.hopeless hZ hheaded hbad
  | ended hret hover hword hplain hwork =>
    rw [if_neg (by rw [hret]; decide)]
    cases f with
    | some f => exact hcounted'.failed (.inr (hdelivers.limit f rfl))
    | none =>
      obtain rfl := hdelivers.all rfl
      dsimp only
      rw [if_pos hret]
      have hall : head.drop r.consumed = [] := hmid'.both hZ hword (by rw [← henc', hlen])
      rw [hall, List.append_nil] at henc'
      by_cases hrest : rest = []
      · rw [if_pos hrest]
        exact ⟨hrest, hcounted'.finish true, .ended r.state w done dout _ _ hstrm rfl hheaded'
          (henc' ▸ hmid') hover hword hplain⟩
      · rw [if_neg hrest,
          nextMember_deflate { z₁ with finished := true } hcounted'.coding]
        refine (hcounted'.finish true).failed (.inl ⟨rfl, (fun h => by cases h), ?_⟩)
        exact (henc' ▸ hmid').trailing (hheaded'.extend rest) hword hrest
  | going hret hran' hquiet hwork =>
    have hnot : r.ret ≠ .dataError ∧ r.ret ≠ .streamEnd := by
      rcases hret with hret | hret <;> rw [hret] <;> decide
    rw [if_neg hnot.1]
    cases f with
    | some f => exact hcounted'.failed (.inr (hdelivers.limit f rfl))
    | none =>
      obtain rfl := hdelivers.all rfl
      dsimp only
      rw [if_neg hnot.2]
      by_cases hover : head.drop r.consumed = [] ∨ r.produced = []
      · rw [if_pos hover]
        have hall : head.drop r.consumed = [] := hover.elim id (fun hnone => (hquiet hnone).1)
        rw [hall, List.append_nil] at henc'
        obtain ⟨hc, -⟩ | ⟨-, -, rfl, rfl⟩ := hmid.chosen
        · cases hc
        · rw [hhdr'.trans hhdr, ← henc'] at hmid'
          exact ⟨hcounted', hfin.trans hgoing, hhdr'.trans hhdr, r.state, w, _, _, hstrm, hmid',
            hran'⟩
      · rw [if_neg hover]
        have hgave : r.produced ≠ [] := fun hnone => hover (.inr hnone)
        have hleft : head.drop r.consumed ≠ [] := fun hnone => hover (.inl hnone)
        refine ⟨⟨hcounted', hfin.trans hgoing, hheaded', r.state, w, done, dout, _, _, _, hstrm,
          henc', hmid', hran', fun hnil => absurd (List.append_eq_nil_iff.mp hnil).2 hleft⟩,
          hhdr'.trans hhdr, ?_⟩
        intro s₁ hs₁
        obtain rfl := Option.some.inj (hstrm.symm.trans hs₁)
        exact hwork hgave

lemma headPasses_ran (hZ : Z.Decodes C) {n : Nat} {head rest : Bytes}
    (h : Inside C lim .deflate z hdr head out) (hhdr : z.hdr = hdr) (hlen : hdr.length = 2)
    (hwork : ∀ s, z.strm = some s → Z.work s head < n) :
    Ran C lim .deflate (hdr ++ rest) [] (headPasses rest n z head out) := by
  induction n generalizing z head out with
  | zero =>
    obtain ⟨s, w, done, dout, m, mout, taken, hs, -⟩ := h.started
    exact absurd (hwork s hs) (by omega)
  | succ n ih =>
    obtain ⟨s, w, done, dout, m, mout, taken, hs, -⟩ := h.started
    have hpass := headPass_passes rest hZ h hhdr hs hlen
    have hlt := hwork s hs
    rw [headPasses, hs]
    dsimp only
    cases hp : z.headPass s head out rest with
    | again z₁ head₁ out₁ =>
      rw [hp] at hpass
      exact ih hpass.1 hpass.2.1 (fun s₁ hs₁ => by have := hpass.2.2 s₁ hs₁; omega)
    | headOver z₁ out₁ =>
      rw [hp] at hpass
      obtain ⟨hcounted, hgoing, hhdr₁, s₁, w₁, m₁, mout₁, hs₁, hmid, hran⟩ := hpass
      have hheaded := h.headed
      rw [hhdr] at hheaded
      have htaken : hdr = m₁ := by rw [hmid.taken_eq, List.nil_append]
      subst hhdr₁
      refine mainLoop_ran [] hZ hcounted hgoing (hheaded.extend rest) hs₁ hmid hran
        (fun hnil => ?_)
      rw [htaken]
      exact (List.append_eq_nil_iff.mp hnil).1
    | stop z₁ out₁ r =>
      rw [hp] at hpass
      cases r with
      | fail f => exact hpass
      | ok =>
        rw [hpass.1, List.append_nil]
        exact hpass.2
      | wouldblock =>
        rw [hpass.1, List.append_nil]
        exact hpass.2

/-! ### Calls -/

/-- A decoder that is not at the end of a stream takes a piece. -/
lemma feed_ran (hZ : Z.Decodes C) {s : Z.State} (p : Bytes) (hs : z.strm = some s)
    (hcounted : z.Counted lim coding enc out) (hgoing : z.finished = false)
    (hheaded : Headed coding z.hdr (enc ++ p))
    (hmid : Midway C coding z.hdr w done dout m mout enc out) (hran : Z.Ran w m mout s)
    (hempty : m ++ p = [] → enc = []) : Ran C lim coding (enc ++ p) out (z.feed p) := by
  unfold feed
  rw [hs]
  rw [← List.append_nil out] at hcounted hmid
  exact mainLoop_ran out hZ hcounted hgoing hheaded hs hmid hran hempty

/-- A deflate body whose wrapping is not chosen yet takes a piece. -/
lemma feed_held (hZ : Z.Decodes C) (p : Bytes) (hs : z.strm = none)
    (hcounted : z.Counted lim .deflate z.hdr []) (hgoing : z.finished = false)
    (hshort : z.hdr.length < 2) : Ran C lim .deflate (z.hdr ++ p) [] (z.feed p) := by
  unfold feed
  rw [hs]
  dsimp only
  have hcounted' := hcounted.feed (p.take (2 - z.hdr.length))
  have hsplit : z.hdr ++ p =
      z.hdr ++ p.take (2 - z.hdr.length) ++ p.drop (2 - z.hdr.length) := by
    rw [List.append_assoc, List.take_append_drop]
  by_cases hfew : (z.hdr ++ p.take (2 - z.hdr.length)).length < 2
  · rw [if_pos hfew]
    have hall : p.take (2 - z.hdr.length) = p := by
      refine List.take_of_length_le ?_
      simp only [List.length_append, List.length_take] at hfew
      omega
    rw [hall] at hfew hcounted' ⊢
    exact ⟨(hcounted'.rehead _).restate none, .held rfl rfl hgoing rfl hfew rfl⟩
  · rw [if_neg hfew]
    obtain ⟨s, hinit⟩ := Option.ne_none_iff_exists'.mp
      (hZ.starts (wrapperOf (z.hdr ++ p.take (2 - z.hdr.length))))
    have hlen : (z.hdr ++ p.take (2 - z.hdr.length)).length = 2 := by
      simp only [List.length_append, List.length_take] at hfew ⊢
      omega
    unfold wrapperOf at hinit
    rw [hinit, hsplit]
    dsimp only
    refine headPasses_ran hZ ⟨(hcounted'.rehead _).restate (some s), hgoing,
      fun _ => ⟨hlen, ?_⟩, s, _, [], [], [], [], [], rfl, rfl,
      ⟨rfl, rfl, .nil, .inr ⟨rfl, rfl, rfl, rfl⟩⟩, .init hinit, fun hnil => hnil⟩ rfl hlen ?_
    · exact List.take_of_length_le hlen.le
    · intro s₁ hs₁
      cases hs₁
      exact Nat.lt_succ_self _

/-- A call with a piece. -/
lemma run_ran (hZ : Z.Decodes C) (p : Bytes) (h : Decoded C lim coding z enc out) :
    Ran C lim coding (enc ++ p) out (z.run (some p)) := by
  obtain ⟨hcounted, hrests⟩ := h
  unfold run
  dsimp only
  cases hrests with
  | held hstrm hcoding hgoing hhdr hshort hout =>
    subst hcoding hhdr hout
    rw [if_neg (by rw [hgoing]; decide)]
    exact feed_held hZ p hstrm hcounted hgoing hshort
  | within s w done dout m mout hstrm hgoing hheaded hmid hran hplain hno hempty =>
    rw [if_neg (by rw [hgoing]; decide)]
    exact feed_ran hZ p hstrm hcounted hgoing (hheaded.extend p) hmid hran
      (fun hnil => hempty (List.append_eq_nil_iff.mp hnil).1)
  | ended s w done dout m mout hstrm hfinished hheaded hmid hover hword hplain =>
    rw [if_pos hfinished]
    by_cases hnone : p = []
    · rw [if_pos hnone, hnone, List.append_nil]
      change Decoded C lim coding z enc (out ++ [])
      rw [List.append_nil]
      exact ⟨hcounted, .ended s w done dout m mout hstrm hfinished hheaded hmid hover hword hplain⟩
    · rw [if_neg hnone]
      rcases hmid.chosen with ⟨hgzip, -⟩ | ⟨hdeflate, -⟩
      · obtain ⟨s', hreset, hnext⟩ := nextMember_gzip hZ z (hcounted.coding.trans hgzip) hstrm
        rw [hnext]
        exact feed_ran hZ p rfl (hcounted.restart s' false) rfl (hheaded.extend p)
          (hmid.next hgzip hword hplain) (hover.reset hreset)
          (fun hnil => absurd (List.append_eq_nil_iff.mp hnil).2 hnone)
      · rw [nextMember_deflate z (hcounted.coding.trans hdeflate)]
        subst hdeflate
        change Failed C lim .deflate z (enc ++ p) (out ++ []) afterEnd
        rw [List.append_nil]
        exact hcounted.failed (.inl ⟨rfl, (fun h => by cases h),
          hmid.trailing (hheaded.extend p) hword hnone⟩)

/-! ### A body in pieces -/

/-- A body handed over in pieces, as far as that goes without an error. -/
def pieces (z : Inflate Z) : List Bytes → Inflate Z × Bytes × InflateResult
  | [] => (z, [], .wouldblock)
  | p :: ps =>
    match z.run (some p) with
    | (z, out, .fail f) => (z, out, .fail f)
    | (z, out, _) => (((pieces z ps).1), out ++ (pieces z ps).2.1, (pieces z ps).2.2)

/-- A body handed over in pieces, and its end. -/
def decode (z : Inflate Z) (ps : List Bytes) : Inflate Z × Bytes × InflateResult :=
  match z.pieces ps with
  | (z, out, .fail f) => (z, out, .fail f)
  | (z, out, _) => ((z.run none).1, out ++ (z.run none).2.1, (z.run none).2.2)

lemma Failed.append {f : Fail} (h : Failed C lim coding z enc out f) (rest : Bytes) :
    Failed C lim coding z (enc ++ rest) out f := by
  refine ⟨h.limits, h.given, h.within, ?_⟩
  rcases h.tells with ⟨hrc, herr, hbad⟩ | hlimit
  · exact .inl ⟨hrc, herr, hbad.append rest⟩
  · exact .inr hlimit

lemma pieces_ran (hZ : Z.Decodes C) (ps : List Bytes) (h : Decoded C lim coding z enc before) :
    Ran C lim coding (enc ++ ps.flatten) before (z.pieces ps) := by
  induction ps generalizing z enc before with
  | nil =>
    change Decoded C lim coding z (enc ++ []) (before ++ [])
    rwa [List.append_nil, List.append_nil]
  | cons p ps ih =>
    have hrun := run_ran hZ p h
    rw [List.flatten_cons, ← List.append_assoc]
    unfold pieces
    generalize z.run (some p) = ran at hrun ⊢
    obtain ⟨z₁, out₁, r⟩ := ran
    have hmore : Decoded C lim coding z₁ (enc ++ p) (before ++ out₁) →
        Ran C lim coding (enc ++ p ++ ps.flatten) before
          ((z₁.pieces ps).1, out₁ ++ (z₁.pieces ps).2.1, (z₁.pieces ps).2.2) := by
      intro hdecoded
      have hrest := ih hdecoded
      generalize z₁.pieces ps = ran at hrest ⊢
      obtain ⟨z₂, out₂, r₂⟩ := ran
      cases r₂ with
      | ok =>
        change Decoded C lim coding z₂ _ (before ++ (out₁ ++ out₂))
        rw [← List.append_assoc]
        exact hrest
      | wouldblock =>
        change Decoded C lim coding z₂ _ (before ++ (out₁ ++ out₂))
        rw [← List.append_assoc]
        exact hrest
      | fail f =>
        change Failed C lim coding z₂ _ (before ++ (out₁ ++ out₂)) f
        rw [← List.append_assoc]
        exact hrest
    cases r with
    | ok => exact hmore hrun
    | wouldblock => exact hmore hrun
    | fail f => exact hrun.append _

/-- What a decoder at the end of the body says. -/
def Settled (C : Codes) (lim : Nat × Nat) (coding : Encoding) (enc : Bytes) :
    Inflate Z × Bytes × InflateResult → Prop
  | (z, out, .ok) => z.Counted lim coding enc out ∧ Stands C coding enc out
  | (_, _, .wouldblock) => False
  | (z, out, .fail f) => (z.maxOut, z.maxRatio) = lim ∧ z.outTotal = out.length ∧ z.Within ∧
      ((f.rc = .bodyDecode ∧ f.err ≠ none ∧ ∀ out', ¬Stands C coding enc out') ∨
        (f.rc = .bodyLimit ∧ z.AtLimit))

lemma Headed.wrapper (h : Headed .deflate hdr enc) : wrapperOf (enc.take 2) = wrapperOf hdr := by
  rw [(h rfl).2]

/-- A body may end where a stream ends and nowhere else. -/
lemma finish_settled (hZ : Z.Decodes C) (hcoding : coding = .gzip ∨ coding = .deflate)
    (h : Decoded C lim coding z enc out) :
    Settled C lim coding enc ((z.run none).1, out ++ (z.run none).2.1, (z.run none).2.2) := by
  obtain ⟨hcounted, hrests⟩ := h
  have hok : Stands C coding enc out → (z.finished = true ∨ z.inTotal = 0) →
      Settled C lim coding enc ((z.run none).1, out ++ (z.run none).2.1, (z.run none).2.2) := by
    intro hstands hend
    unfold run
    dsimp only
    rw [if_pos hend]
    change z.Counted lim coding enc (out ++ []) ∧ Stands C coding enc (out ++ [])
    rw [List.append_nil]
    exact ⟨hcounted, hstands⟩
  have hbad : (∀ out', ¬Stands C coding enc out') → ¬(z.finished = true ∨ z.inTotal = 0) →
      Settled C lim coding enc ((z.run none).1, out ++ (z.run none).2.1, (z.run none).2.2) := by
    intro hstands hend
    unfold run
    dsimp only
    rw [if_neg hend]
    refine ⟨hcounted.limits, ?_, hcounted.within, .inl ⟨rfl, (fun h => by cases h), hstands⟩⟩
    rw [List.append_nil]
    exact hcounted.given
  have htotal : z.inTotal = 0 → enc = [] := fun hzero =>
    List.length_eq_zero_iff.mp (hcounted.total.symm.trans hzero)
  have hnone : enc = [] → out = [] → Stands C coding enc out := by
    rintro rfl rfl
    rcases hcoding with rfl | rfl
    · exact .nil
    · exact .inl ⟨rfl, rfl⟩
  cases hrests with
  | held hstrm hc hgoing hhdr hshort hout =>
    by_cases hnil : enc = []
    · exact hok (hnone hnil hout) (.inr (by rw [hcounted.total, hnil]; rfl))
    · refine hbad (fun out' hstands => ?_) (not_or.mpr ⟨by simp [hgoing], fun h => hnil (htotal h)⟩)
      subst hc
      rcases hstands with ⟨hempty, -⟩ | ⟨hword, -⟩
      · exact hnil hempty
      · have htwo := hZ.two_le hword
        omega
  | within s w done dout m mout hstrm hgoing hheaded hmid hran hplain hno hempty =>
    by_cases hnil : enc = []
    · obtain ⟨rfl, rfl⟩ := List.append_eq_nil_iff.mp (hmid.taken_eq.symm.trans hnil)
      refine hok (hnone hnil ?_) (.inr (by rw [hcounted.total, hnil]; rfl))
      rw [hmid.out_eq, hmid.words.of_nil, hplain, hZ.plain_nil]
      rfl
    · refine hbad (fun out' hstands => ?_) (not_or.mpr ⟨by simp [hgoing], fun h => hnil (htotal h)⟩)
      have hne : m ≠ [] := fun hm => hnil (hempty hm)
      rcases hmid.chosen with ⟨rfl, rfl⟩ | ⟨rfl, hw, rfl, rfl⟩
      · change (C .gzip).Words _ _ at hstands
        rw [hmid.taken_eq] at hstands
        obtain ⟨rest, hrest, -⟩ := hmid.words.split hstands
        obtain ⟨e, he, hpre⟩ := hrest.head hne
        exact hno e he hpre
      · have henc : enc = m := hmid.taken_eq
        rcases hstands with ⟨hempty', -⟩ | ⟨hword, -⟩
        · exact hnil hempty'
        · rw [hheaded.wrapper, ← hw, henc] at hword
          exact hno m hword List.prefix_rfl
  | ended s w done dout m mout hstrm hfinished hheaded hmid hover hword hplain =>
    refine hok ?_ (.inl hfinished)
    rcases hmid.chosen with ⟨rfl, rfl⟩ | ⟨rfl, hw, rfl, rfl⟩
    · exact hmid.complete hword hplain
    · refine .inr ?_
      have henc : enc = m := hmid.taken_eq
      have hout : out = mout := hmid.out_eq
      rw [hheaded.wrapper, ← hw, henc, hout]
      exact ⟨hword, hplain⟩

lemma init_decoded (hZ : Z.Decodes C) {maxOut maxRatio : Nat}
    (h : init coding maxOut maxRatio = some z) :
    (coding = .gzip ∨ coding = .deflate) ∧ Decoded C (maxOut, maxRatio) coding z [] [] := by
  unfold init at h
  dsimp only at h
  split at h
  · obtain ⟨s, hs, rfl⟩ := Option.map_eq_some_iff.mp h
    refine ⟨.inl rfl, ⟨rfl, rfl, rfl, rfl, fun _ => Nat.zero_le _⟩,
      .within s .gzip [] [] [] [] rfl rfl (fun hc => by cases hc)
        ⟨rfl, rfl, .nil, .inl ⟨rfl, rfl⟩⟩ (.init hs) (hZ.plain_nil _).symm ?_ (fun h => h)⟩
    intro e he hpre
    exact (C .gzip).ne_nil he (List.prefix_nil.mp hpre)
  · cases h
    exact ⟨.inr rfl, ⟨rfl, rfl, rfl, rfl, fun _ => Nat.zero_le _⟩,
      .held rfl rfl rfl rfl (by decide) rfl⟩
  · cases h

lemma decode_settled (hZ : Z.Decodes C) {maxOut maxRatio : Nat} (ps : List Bytes)
    (h : init coding maxOut maxRatio = some z) :
    Settled C (maxOut, maxRatio) coding ps.flatten (z.decode ps) := by
  obtain ⟨hcoding, hdecoded⟩ := init_decoded hZ h
  have hran := pieces_ran hZ ps hdecoded
  unfold decode
  generalize z.pieces ps = ran at hran ⊢
  obtain ⟨z₁, out, r⟩ := ran
  cases r with
  | ok => exact finish_settled hZ hcoding hran
  | wouldblock => exact finish_settled hZ hcoding hran
  | fail f =>
    refine ⟨hran.limits, hran.given, hran.within, ?_⟩
    rcases hran.tells with ⟨hrc, herr, hbad⟩ | hlimit
    · refine .inl ⟨hrc, herr, fun out' hstands => hbad [] out' ?_⟩
      rwa [List.nil_append, List.append_nil]
    · exact .inr hlimit

lemma Stands.unique {out' : Bytes} (h : Stands C coding enc out) (h' : Stands C coding enc out') :
    out = out' := by
  cases coding with
  | identity => exact h.elim
  | unsupported => exact h.elim
  | gzip => exact StreamCode.Words.unique h h'
  | deflate =>
    rcases h with ⟨rfl, rfl⟩ | ⟨hword, rfl⟩
    · rcases h' with ⟨-, rfl⟩ | ⟨hword', -⟩
      · rfl
      · exact absurd rfl ((C _).ne_nil hword')
    · rcases h' with ⟨rfl, -⟩ | ⟨-, rfl⟩
      · exact absurd rfl ((C _).ne_nil hword)
      · rfl

end Inflate

/-! ### An inflater that knows its stream -/

namespace Zlib

variable {stream body m out : Bytes} {w : Wrapper}

/-- `knowing` with a count of what it has yet to do. -/
def counting (stream body : Bytes) : Zlib where
  State := Bytes × Bytes
  init _ := some (stream, body)
  reset _ := some (stream, body)
  inflate s input window :=
    let r := (knowing stream body).inflate s input window
    ⟨r.state, r.consumed, r.produced, r.ret⟩
  work s input := input.length * (body.length + 2) + (if s.1 = [] then s.2.length else 0)

/-- The code with one word. -/
def oneWord (stream body : Bytes) (h : stream ≠ []) : Codes := fun _ =>
  { Word := fun e => e = stream
    plain := fun m => if m = stream then body else []
    ne_nil := fun he => he ▸ h
    prefix_free := fun he he' _ => he.trans he'.symm }

/-- How a call of such an inflater ends. -/
inductive Knows (s : Bytes × Bytes) (input : Bytes) (window : Nat) :
    ZResult (Bytes × Bytes) → Prop
  | part (rest : Bytes) (hne : rest ≠ []) (hs : s.1 = input ++ rest) :
      Knows s input window ⟨(rest, s.2), input.length, [], .ok⟩
  | last (more : Bytes) (hinput : input = s.1 ++ more) (hroom : s.2.length ≤ window) :
      Knows s input window ⟨([], []), s.1.length, s.2, .streamEnd⟩
  | full (more : Bytes) (hinput : input = s.1 ++ more) (hroom : window < s.2.length) :
      Knows s input window ⟨([], s.2.drop window), s.1.length, s.2.take window, .ok⟩
  | bad (hinput : ¬input <+: s.1) (hs : ¬s.1 <+: input) :
      Knows s input window ⟨s, 0, [], .dataError⟩

lemma counting_knows (stream body : Bytes) (s : Bytes × Bytes) (input : Bytes) (window : Nat) :
    Knows s input window ((counting stream body).inflate s input window) := by
  change Knows s input window
    (let r := (knowing stream body).inflate s input window
     ⟨r.state, r.consumed, r.produced, r.ret⟩)
  dsimp only [knowing]
  by_cases hpre : (input.take s.1.length).isPrefixOf s.1 = true
  · rw [if_pos hpre]
    obtain ⟨rest, hrest⟩ := List.isPrefixOf_iff_prefix.mp hpre
    have hdrop : s.1.drop (input.take s.1.length).length = rest := by
      generalize input.take s.1.length = got at hrest
      rw [← hrest, List.drop_left]
    rw [hdrop]
    by_cases hleft : rest = []
    · rw [hleft, List.append_nil] at hrest
      have hinput : input = s.1 ++ input.drop s.1.length := by
        conv_lhs => rw [← List.take_append_drop s.1.length input, hrest]
      rw [if_neg (not_not.mpr hleft), hrest]
      by_cases hroom : s.2.length ≤ window
      · rw [if_pos hroom]
        exact .last _ hinput hroom
      · rw [if_neg hroom]
        exact .full _ hinput (by omega)
    · have hshort : input.take s.1.length = input := by
        have hlen := congrArg List.length hrest
        have hpos := List.length_pos_iff.mpr hleft
        rw [List.length_append, List.length_take] at hlen
        exact List.take_of_length_le (by omega)
      rw [hshort] at hrest ⊢
      rw [if_pos hleft]
      exact .part rest hleft hrest.symm
  · rw [if_neg hpre]
    refine .bad (fun h => hpre ?_) (fun h => hpre ?_)
    · rw [List.isPrefixOf_iff_prefix, List.take_of_length_le h.length_le]
      exact h
    · obtain ⟨more, hmore⟩ := h
      rw [List.isPrefixOf_iff_prefix, ← hmore, List.take_left]

/-- What such an inflater has yet to take and to give. -/
structure Left (stream body m out : Bytes) (s : Bytes × Bytes) : Prop where
  taken : m ++ s.1 = stream
  before : s.1 ≠ [] → out = [] ∧ s.2 = body
  behind : s.1 = [] → out ++ s.2 = body ∧ s.2 ≠ []

lemma Left.all {s : Bytes × Bytes} (h : Left stream body m out s) : out ++ s.2 = body := by
  by_cases hs : s.1 = []
  · exact (h.behind hs).1
  · obtain ⟨hout, hbody⟩ := h.before hs
    rw [hout, hbody]
    rfl

lemma counting_left (hstream : stream ≠ []) {s : (counting stream body).State}
    (h : (counting stream body).Ran w m out s) : Left stream body m out s := by
  induction h with
  | init h =>
    cases h
    exact ⟨rfl, fun _ => ⟨rfl, rfl⟩, fun h => absurd h hstream⟩
  | reset h input window hend hr ih =>
    cases hr
    exact ⟨rfl, fun _ => ⟨rfl, rfl⟩, fun h => absurd h hstream⟩
  | @step m out s h input window hret ih =>
    have hknows := counting_knows stream body s input window
    generalize (counting stream body).inflate s input window = r at hknows hret ⊢
    cases hknows with
    | part rest hne hs =>
      have hsome : s.1 ≠ [] := by
        rw [hs]
        exact fun hnil => hne (List.append_eq_nil_iff.mp hnil).2
      obtain ⟨hout, hbody⟩ := ih.before hsome
      refine ⟨?_, fun _ => ⟨by rw [hout]; rfl, hbody⟩, fun hnil => absurd hnil hne⟩
      have htaken := ih.taken
      rw [hs] at htaken
      rwa [List.take_length, List.append_assoc]
    | last more hinput hroom => rcases hret with hret | hret <;> cases hret
    | full more hinput hroom =>
      refine ⟨?_, fun h => absurd rfl h, fun _ => ?_⟩
      · rw [hinput, List.take_left, List.append_nil]
        exact ih.taken
      · have hall : out ++ s.2 = body := ih.all
        constructor
        · change out ++ s.2.take window ++ s.2.drop window = body
          rw [List.append_assoc, List.take_append_drop, hall]
        · intro hnil
          have hlen := congrArg List.length hnil
          rw [List.length_drop] at hlen
          simp only [List.length_nil] at hlen
          omega
    | bad hinput hs => rcases hret with hret | hret <;> cases hret

lemma work_lt (body : Bytes) {s : Bytes × Bytes} {input more : Bytes} {n : Nat}
    (hinput : input = s.1 ++ more) (hn : s.1 = [] → n < s.2.length) (hbody : n ≤ body.length) :
    (input.drop s.1.length).length * (body.length + 2) + n <
      input.length * (body.length + 2) + (if s.1 = [] then s.2.length else 0) := by
  have hdrop : input.drop s.1.length = more := by rw [hinput, List.drop_left]
  rw [hdrop, hinput, List.length_append, Nat.add_mul]
  split_ifs with hs
  · have hlt := hn hs
    omega
  · have hpos : 0 < s.1.length := List.length_pos_iff.mpr hs
    have hmul := Nat.le_mul_of_pos_left (body.length + 2) hpos
    omega

/-- Such an inflater does what zlib documents. -/
lemma counting_decodes (hlen : 2 ≤ stream.length) (hstream : stream ≠ []) :
    (counting stream body).Decodes (oneWord stream body hstream) where
  starts _ := fun h => by cases h
  resets _ := fun h => by cases h
  some_word _ := ⟨stream, rfl⟩
  two_le := by
    intro w e he
    rw [show e = stream from he]
    exact hlen
  plain_nil _ := if_neg hstream.symm
  produced_le s input window := by
    have hknows := counting_knows stream body s input window
    generalize (counting stream body).inflate s input window = r at hknows ⊢
    cases hknows with
    | part rest hne hs => exact Nat.zero_le _
    | last more hinput hroom => exact hroom
    | full more hinput hroom => exact (List.length_take_le _ _)
    | bad hinput hs => exact Nat.zero_le _
  stops := by
    intro w m out s h input window e hdata he hpre
    rw [show e = stream from he] at hpre ⊢
    have hknows := counting_knows stream body s input window
    have hleft := (counting_left hstream h).taken
    generalize (counting stream body).inflate s input window = r at hknows hdata hpre ⊢
    cases hknows with
    | part rest hne hs =>
      have hle := hpre.length_le
      have hpos := List.length_pos_iff.mpr hne
      rw [hs] at hleft
      have hall := congrArg List.length hleft
      simp only [List.take_length, List.length_append] at hle hall
      omega
    | last more hinput hroom => rw [hinput, List.take_left, hleft]
    | full more hinput hroom => rw [hinput, List.take_left, hleft]
    | bad hinput hs => exact absurd rfl hdata
  ends := by
    intro w m out s h input window hret
    have hknows := counting_knows stream body s input window
    have hleft := counting_left hstream h
    generalize (counting stream body).inflate s input window = r at hknows hret ⊢
    cases hknows with
    | part rest hne hs => cases hret
    | last more hinput hroom =>
      have htaken : m ++ input.take s.1.length = stream := by
        rw [hinput, List.take_left, hleft.taken]
      refine ⟨htaken, ?_⟩
      change out ++ s.2 = if m ++ input.take s.1.length = stream then body else []
      rw [if_pos htaken, hleft.all]
    | full more hinput hroom => cases hret
    | bad hinput hs => cases hret
  drains := by
    intro w m out s h input window hret hroom
    have hknows := counting_knows stream body s input window
    have hleft := counting_left hstream h
    generalize (counting stream body).inflate s input window = r at hknows hret hroom ⊢
    cases hknows with
    | part rest hne hs =>
      have hsome : s.1 ≠ [] := by
        rw [hs]
        exact fun hnil => hne (List.append_eq_nil_iff.mp hnil).2
      have hmore : ¬m ++ input = stream := by
        rw [← hleft.taken, hs]
        intro heq
        exact hne (List.append_right_eq_self.mp (List.append_cancel_left heq).symm)
      refine ⟨rfl, hmore, ?_⟩
      change out ++ [] = if m ++ input = stream then body else []
      rw [if_neg hmore, (hleft.before hsome).1]
      rfl
    | last more hinput hroom => rcases hret with hret | hret <;> cases hret
    | full more hinput hfull =>
      rw [List.length_take] at hroom
      omega
    | bad hinput hs => rcases hret with hret | hret <;> cases hret
  malformed := by
    intro w m out s h input window e hret he
    rw [show e = stream from he]
    have hknows := counting_knows stream body s input window
    have hleft := (counting_left hstream h).taken
    generalize (counting stream body).inflate s input window = r at hknows hret
    cases hknows with
    | part rest hne hs => cases hret
    | last more hinput hroom => cases hret
    | full more hinput hroom => cases hret
    | bad hinput hs =>
      rw [← hleft]
      exact ⟨fun hpre => hs ((List.prefix_append_right_inj m).mp hpre),
        fun hpre => hinput ((List.prefix_append_right_inj m).mp hpre)⟩
  work_step := by
    intro w m out s h input window hret hgave
    have hknows := counting_knows stream body s input window
    have hleft := counting_left hstream h
    generalize (counting stream body).inflate s input window = r at hknows hret hgave ⊢
    cases hknows with
    | part rest hne hs => exact absurd rfl hgave
    | last more hinput hroom => rcases hret with hret | hret <;> cases hret
    | full more hinput hroom =>
      have hwindow : window ≠ 0 := by
        rintro rfl
        exact hgave rfl
      have hall := congrArg List.length hleft.all
      rw [List.length_append] at hall
      refine work_lt body hinput (fun _ => ?_) ?_
      · change (s.2.drop window).length < s.2.length
        rw [List.length_drop]
        omega
      · change (s.2.drop window).length ≤ body.length
        rw [List.length_drop]
        omega
    | bad hinput hs => rcases hret with hret | hret <;> cases hret
  work_reset := by
    intro w m out s s' h input window hret hr
    have hknows := counting_knows stream body s input window
    have hleft := counting_left hstream h
    have hs' : s' = (stream, body) := (Option.some.inj hr).symm
    generalize (counting stream body).inflate s input window = r at hknows hret ⊢
    cases hknows with
    | part rest hne hs => cases hret
    | last more hinput hroom =>
      rw [hs']
      have hlt := work_lt body (n := 0) hinput
        (fun hs => List.length_pos_iff.mpr (hleft.behind hs).2) (Nat.zero_le _)
      change (input.drop s.1.length).length * (body.length + 2) +
        (if stream = [] then body.length else 0) < _
      rw [if_neg hstream]
      exact hlt
    | full more hinput hroom => cases hret
    | bad hinput hs => cases hret

end Zlib

namespace Inflate

end Inflate

end Zuhttp
