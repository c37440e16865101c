import Zuhttp.Proofs.Inflate
import Zuhttp.Proofs.Reader

/-!
# What a decoder may hand over

The output of a decoder with a limit is counted, and what a call that does not fail hands
over stays within the limit.
-/

namespace Zuhttp

variable {Z : Zlib}

namespace Inflate

/-- A decoder with the limit `cap` that has handed over `before` bytes and then `out`. -/
structure Spent (cap before : Nat) (z : Inflate Z) (out : Bytes) : Prop where
  limit : z.maxOut = cap
  total : z.outTotal = before + out.length
  fits : z.outTotal ≤ cap

/-- What a call leads to. -/
def CallSpent (cap before : Nat) : Inflate Z × Bytes × InflateResult → Prop
  | (_, _, .fail _) => True
  | (z, out, _) => Spent cap before z out

def PassSpent (cap before : Nat) : Pass Z → Prop
  | .again z _ out => Spent cap before z out
  | .stop _ _ (.fail _) => True
  | .stop z out _ => Spent cap before z out

def HeadSpent (cap before : Nat) : HeadPass Z → Prop
  | .again z _ out => Spent cap before z out
  | .headOver z out => Spent cap before z out
  | .stop _ _ (.fail _) => True
  | .stop z out _ => Spent cap before z out

variable {cap before : Nat}

lemma remainingAllowance_le {z : Inflate Z} (h : z.maxOut ≠ 0) :
    z.remainingAllowance ≤ z.maxOut - z.outTotal := by
  have hroom : min u64Max (z.maxOut - z.outTotal) ≤ z.maxOut - z.outTotal := Nat.min_le_right _ _
  unfold remainingAllowance
  dsimp only
  rw [if_pos h]
  split_ifs
  · exact (Nat.min_le_left _ _).trans hroom
  · exact hroom

lemma deliver_spent (hcap : cap ≠ 0) {z z' : Inflate Z} {produced delivered out : Bytes}
    (h : Spent cap before z out) (hdeliver : z.deliver produced = (z', delivered, none)) :
    Spent cap before z' (out ++ delivered) := by
  unfold deliver at hdeliver
  dsimp only at hdeliver
  by_cases hempty : produced = []
  · rw [if_pos hempty] at hdeliver
    cases hdeliver
    rwa [List.append_nil]
  · rw [if_neg hempty] at hdeliver
    by_cases hover : produced.length > z.remainingAllowance
    · rw [if_pos hover] at hdeliver
      cases hdeliver
    · rw [if_neg hover] at hdeliver
      have hallow : z.remainingAllowance ≤ z.maxOut - z.outTotal :=
        remainingAllowance_le (h.limit ▸ hcap)
      obtain ⟨rfl, hrest⟩ := Prod.mk.inj hdeliver
      obtain ⟨rfl, -⟩ := Prod.mk.inj hrest
      have hfits := h.fits
      have htotal := h.total
      rw [h.limit] at hallow
      refine ⟨h.limit, ?_, ?_⟩
      · rw [List.length_append]
        dsimp only
        omega
      · dsimp only
        omega

lemma nextMember_spent {z z' : Inflate Z} {out : Bytes} (h : Spent cap before z out)
    (hnext : z.nextMember = .ok z') : Spent cap before z' out := by
  obtain ⟨s, s', -, -, -, rfl⟩ := nextMember_eq_ok hnext
  exact ⟨h.limit, h.total, h.fits⟩

lemma pass_spent (hcap : cap ≠ 0) {z : Inflate Z} (s : Z.State) (input : Bytes) {out : Bytes}
    (h : Spent cap before z out) : PassSpent cap before (z.pass s input out) := by
  unfold pass
  dsimp only
  generalize Z.inflate s input z.outWindow = r
  by_cases hdata : r.ret = .dataError
  · rw [if_pos hdata]
    exact trivial
  rw [if_neg hdata]
  have hstart : Spent cap before { z with strm := some r.state } out :=
    ⟨h.limit, h.total, h.fits⟩
  cases hdeliver : deliver { z with strm := some r.state } r.produced with
  | mk z₁ rest =>
    obtain ⟨delivered, f⟩ := rest
    cases f with
    | some f => exact trivial
    | none =>
      have hspent := deliver_spent hcap hstart hdeliver
      dsimp only
      by_cases hend : r.ret = .streamEnd
      · rw [if_pos hend]
        have hfinished : Spent cap before { z₁ with finished := true } (out ++ delivered) :=
          ⟨hspent.limit, hspent.total, hspent.fits⟩
        by_cases hall : input.drop r.consumed = []
        · rw [if_pos hall]
          exact hfinished
        · rw [if_neg hall]
          cases hnext : nextMember { z₁ with finished := true } with
          | error f => exact trivial
          | ok z₂ => exact nextMember_spent hfinished hnext
      · rw [if_neg hend]
        by_cases hquiet : input.drop r.consumed = [] ∧ r.produced = []
        · rw [if_pos hquiet]
          exact hspent
        · rw [if_neg hquiet]
          by_cases hbuf : r.produced = [] ∧ r.ret = .bufError
          · rw [if_pos hbuf]
            exact hspent
          · rw [if_neg hbuf]
            exact hspent

lemma passes_spent (hcap : cap ≠ 0) {n : Nat} {z : Inflate Z} {input out : Bytes}
    (h : Spent cap before z out) : CallSpent cap before (passes n z input out) := by
  induction n generalizing z input out with
  | zero => exact trivial
  | succ n ih =>
    unfold passes
    cases hs : z.strm with
    | none => exact trivial
    | some s =>
      have hpass := pass_spent hcap s input h
      dsimp only
      cases hp : z.pass s input out with
      | again z' input' out' =>
        rw [hp] at hpass
        exact ih hpass
      | stop z' out' r =>
        rw [hp] at hpass
        cases r <;> exact hpass

lemma mainLoop_spent (hcap : cap ≠ 0) {z : Inflate Z} {input out : Bytes}
    (h : Spent cap before z out) : CallSpent cap before (z.mainLoop input out) :=
  passes_spent hcap ⟨h.limit, h.total, h.fits⟩

lemma headPass_spent (hcap : cap ≠ 0) {z : Inflate Z} (s : Z.State) (head rest : Bytes)
    {out : Bytes} (h : Spent cap before z out) :
    HeadSpent cap before (z.headPass s head out rest) := by
  unfold headPass
  dsimp only
  generalize Z.inflate s head z.outWindow = r
  by_cases hdata : r.ret = .dataError
  · rw [if_pos hdata]
    exact trivial
  rw [if_neg hdata]
  have hstart : Spent cap before { z with strm := some r.state } out :=
    ⟨h.limit, h.total, h.fits⟩
  cases hdeliver : deliver { z with strm := some r.state } r.produced with
  | mk z₁ more =>
    obtain ⟨delivered, f⟩ := more
    cases f with
    | some f => exact trivial
    | none =>
      have hspent := deliver_spent hcap hstart hdeliver
      dsimp only
      by_cases hend : r.ret = .streamEnd
      · rw [if_pos hend]
        have hfinished : Spent cap before { z₁ with finished := true } (out ++ delivered) :=
          ⟨hspent.limit, hspent.total, hspent.fits⟩
        by_cases hrest : rest = []
        · rw [if_pos hrest]
          exact hfinished
        · rw [if_neg hrest]
          cases hnext : nextMember { z₁ with finished := true } with
          | error f => exact trivial
          | ok z₂ => exact nextMember_spent hfinished hnext
      · rw [if_neg hend]
        by_cases hover : head.drop r.consumed = [] ∨ r.produced = []
        · rw [if_pos hover]
          exact hspent
        · rw [if_neg hover]
          exact hspent

lemma headPasses_spent (hcap : cap ≠ 0) {n : Nat} {z : Inflate Z} {rest head out : Bytes}
    (h : Spent cap before z out) : CallSpent cap before (headPasses rest n z head out) := by
  induction n generalizing z head out with
  | zero => exact trivial
  | succ n ih =>
    unfold headPasses
    cases hs : z.strm with
    | none => exact trivial
    | some s =>
      have hpass := headPass_spent hcap s head rest h
      dsimp only
      cases hp : z.headPass s head out rest with
      | again z' head' out' =>
        rw [hp] at hpass
        exact ih hpass
      | headOver z' out' =>
        rw [hp] at hpass
        exact mainLoop_spent hcap hpass
      | stop z' out' r =>
        rw [hp] at hpass
        cases r <;> exact hpass

lemma feed_spent (hcap : cap ≠ 0) {z : Inflate Z} (p : Bytes) (h : Spent cap before z []) :
    CallSpent cap before (z.feed p) := by
  unfold feed
  cases hs : z.strm with
  | some s => exact mainLoop_spent hcap h
  | none =>
    dsimp only
    by_cases hfew : (z.hdr ++ p.take (2 - z.hdr.length)).length < 2
    · rw [if_pos hfew]
      exact ⟨h.limit, h.total, h.fits⟩
    · rw [if_neg hfew]
      cases Z.init (if looksZlibWrapped (z.hdr ++ p.take (2 - z.hdr.length)) then .zlib
          else .raw) with
      | none => exact trivial
      | some s => exact headPasses_spent hcap ⟨h.limit, h.total, h.fits⟩

/-- A call that does not fail counts what it hands over and keeps to the limit. -/
theorem run_spent (hcap : cap ≠ 0) {z : Inflate Z} (input : Option Bytes)
    (h : Spent cap before z []) : CallSpent cap before (z.run input) := by
  unfold run
  cases input with
  | none =>
    dsimp only
    split_ifs
    · exact h
    · exact trivial
  | some p =>
    dsimp only
    split_ifs
    · exact h
    · cases hnext : z.nextMember with
      | error f => exact trivial
      | ok z' => exact feed_spent hcap p (nextMember_spent h hnext)
    · exact feed_spent hcap p h

lemma init_spent {enc : Encoding} {maxRatio : Nat} {z : Inflate Z}
    (h : init enc cap maxRatio = some z) : Spent cap 0 z [] := by
  unfold init at h
  dsimp only at h
  split at h
  · obtain ⟨s, hs, rfl⟩ := Option.map_eq_some_iff.mp h
    exact ⟨rfl, rfl, Nat.zero_le _⟩
  · cases h
    exact ⟨rfl, rfl, Nat.zero_le _⟩
  · cases h

end Inflate

end Zuhttp
