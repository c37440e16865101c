import Zuhttp.Proofs.Redact
import Zuhttp.Redirect

/-!
# Stripping credentials

The scan restarts after every removal; what it removes is the field found as long as the copy
of its name is the whole name.
-/

namespace Zuhttp

lemma isSecretHeader_congr (p : RedactPolicy) {a b : Bytes} (h : CaseEq a b) :
    p.isSecretHeader a = p.isSecretHeader b := by
  have hnil : a = [] ↔ b = [] := by
    have hlen : a.length = b.length := by simpa using congrArg List.length h
    rw [← List.length_eq_zero_iff, ← List.length_eq_zero_iff, hlen]
  have hlist : ∀ list, RedactPolicy.inList list a = RedactPolicy.inList list b := by
    intro list
    rw [Bool.eq_iff_iff, RedactPolicy.inList_iff, RedactPolicy.inList_iff]
    constructor
    · rintro ⟨e, he, hae⟩
      exact ⟨e, he, h.symm.trans hae⟩
    · rintro ⟨e, he, hbe⟩
      exact ⟨e, he, h.trans hbe⟩
  unfold RedactPolicy.isSecretHeader
  simp only [hnil, hlist]

variable (p : Option RedactPolicy)

/-- The fields `zuh_redact_is_secret_header` calls secret. -/
def secretFields (h : Headers) : List Header :=
  h.items.filter (fun f => isCredentialHeader p f.name)

def openFields (h : Headers) : List Header :=
  h.items.filter (fun f => !isCredentialHeader p f.name)

/-- The call returns, and what it leaves and returns is right. -/
def StripsExactly (h : Headers) : Prop :=
  ∃ n h', stripCredentials p n { h := h } = some (h', (secretFields p h).length) ∧
    h'.items = openFields p h

/-- The secret fields whose names the array can hold. -/
def Copyable (h : Headers) : Prop :=
  ∀ f ∈ secretFields p h, f.name.length ≤ maxHeaderName

/-- What the scan has passed is not secret. -/
def Stripping.Scanned (s : Stripping) : Prop :=
  ∀ f ∈ s.h.items.take s.i, isCredentialHeader p f.name = false

variable {p}

lemma Stripping.Scanned.restart {h : Headers} {removed : Nat} :
    Stripping.Scanned p ⟨h, 0, removed⟩ := by
  intro f hf
  simp at hf

lemma Stripping.Scanned.next {s : Stripping} {f : Header} (hs : s.Scanned p)
    (hat : s.h.items[s.i]? = some f) (hopen : isCredentialHeader p f.name = false) :
    Stripping.Scanned p { s with i := s.i + 1 } := by
  intro g hg
  rw [List.take_add_one, hat] at hg
  rcases List.mem_append.mp hg with hg | hg
  · exact hs g hg
  · simp only [Option.toList_some, List.mem_singleton] at hg
    rw [hg]
    exact hopen

lemma stripTurn_open {s : Stripping} {f : Header} (h : isCredentialHeader p f.name = false) :
    stripTurn p s f = { s with i := s.i + 1 } := by
  rw [stripTurn, if_neg (by simp [h])]

lemma stripTurn_secret {s : Stripping} {f : Header} (h : isCredentialHeader p f.name = true) :
    stripTurn p s f = ⟨s.h.remove (f.name.take maxHeaderName), 0,
      s.removed + s.h.count (f.name.take maxHeaderName)⟩ := by
  rw [stripTurn, if_pos h]

/-! ### Names that fit -/

section Removal

variable {h : Headers} {f : Header}

lemma named_secret (hsecret : isCredentialHeader p f.name = true) {g : Header}
    (hg : asciiNcasecmp g.name f.name = 0) : isCredentialHeader p g.name = true := by
  rw [asciiNcasecmp_eq_zero] at hg
  unfold isCredentialHeader at hsecret ⊢
  rw [isSecretHeader_congr _ hg, hsecret]

lemma remove_shorter (hf : f ∈ h.items) :
    (h.remove f.name).items.length < h.items.length := by
  apply List.length_filter_lt_length_iff_exists.mpr
  exact ⟨f, hf, by simp [asciiNcasecmp_eq_zero, CaseEq.refl]⟩

lemma openFields_remove (hsecret : isCredentialHeader p f.name = true) :
    openFields p (h.remove f.name) = openFields p h := by
  simp only [openFields, Headers.remove, List.filter_filter]
  apply List.filter_congr
  intro g _
  by_cases hg : asciiNcasecmp g.name f.name = 0
  · simp [hg, named_secret hsecret hg]
  · simp [hg]

/-- The fields removed are secret ones, and the other secret ones are still there. -/
lemma count_secret (hsecret : isCredentialHeader p f.name = true) :
    h.count f.name + (secretFields p (h.remove f.name)).length =
      (secretFields p h).length := by
  have hnamed : h.named f.name =
      (secretFields p h).filter (fun g => asciiNcasecmp g.name f.name = 0) := by
    simp only [Headers.named, secretFields, List.filter_filter]
    apply List.filter_congr
    intro g _
    by_cases hg : asciiNcasecmp g.name f.name = 0
    · simp [hg, named_secret hsecret hg]
    · simp [hg]
  have hrest : secretFields p (h.remove f.name) =
      (secretFields p h).filter (fun g => !decide (asciiNcasecmp g.name f.name = 0)) := by
    simp only [Headers.remove, secretFields, List.filter_filter]
    apply List.filter_congr
    intro g _
    simp [Bool.and_comm]
  rw [Headers.count, hnamed, hrest]
  exact (List.length_eq_length_filter_add _).symm

lemma Copyable.remove (hfits : Copyable p h) (name : Bytes) : Copyable p (h.remove name) := by
  intro g hg
  simp only [secretFields, Headers.remove, List.mem_filter] at hg
  exact hfits g (by simp [secretFields, hg.1.1, hg.2])

end Removal

/-- Every turn takes a field out of the list or moves on in it. -/
lemma stripCredentials_fits (s : Stripping) (hfits : Copyable p s.h) (hs : s.Scanned p) :
    ∃ n h', stripCredentials p n s = some (h', s.removed + (secretFields p s.h).length) ∧
      h'.items = openFields p s.h := by
  cases hat : s.h.items[s.i]? with
  | none =>
    have hall : ∀ f ∈ s.h.items, isCredentialHeader p f.name = false := by
      unfold Stripping.Scanned at hs
      rwa [List.take_of_length_le (List.getElem?_eq_none_iff.mp hat)] at hs
    have hnone : secretFields p s.h = [] :=
      List.filter_eq_nil_iff.mpr (fun f hf => by simp [hall f hf])
    have hopen : openFields p s.h = s.h.items :=
      List.filter_eq_self.mpr (fun f hf => by simp [hall f hf])
    exact ⟨1, s.h, by simp [stripCredentials, hat, hnone], hopen.symm⟩
  | some f =>
    have hlt : s.i < s.h.items.length := (List.getElem?_eq_some_iff.mp hat).1
    have hmem : f ∈ s.h.items := List.mem_of_getElem? hat
    cases hsecret : isCredentialHeader p f.name with
    | false =>
      obtain ⟨n, h', hrun, hopen⟩ :=
        stripCredentials_fits { s with i := s.i + 1 } hfits (hs.next hat hsecret)
      refine ⟨n + 1, h', ?_, hopen⟩
      simp only [stripCredentials, hat, stripTurn_open hsecret]
      exact hrun
    | true =>
      have hname : f.name.take maxHeaderName = f.name :=
        List.take_of_length_le (hfits f (by simp [secretFields, hmem, hsecret]))
      have hshort := remove_shorter hmem
      obtain ⟨n, h', hrun, hopen⟩ :=
        stripCredentials_fits ⟨s.h.remove f.name, 0, s.removed + s.h.count f.name⟩
          (hfits.remove f.name) .restart
      refine ⟨n + 1, h', ?_, hopen.trans (openFields_remove hsecret)⟩
      simp only [stripCredentials, hat, stripTurn_secret hsecret, hname]
      rw [hrun, ← count_secret (h := s.h) hsecret, Nat.add_assoc]
termination_by (s.h.items.length, s.h.items.length - s.i)

/-! ### Names that do not fit -/

/-- A field whose name is longer than the copy is never removed, and always found again. -/
lemma stripCredentials_endless {f : Header} (hsecret : isCredentialHeader p f.name = true)
    (hlong : maxHeaderName < f.name.length) (n : Nat) (s : Stripping) (hmem : f ∈ s.h.items)
    (hs : s.Scanned p) : stripCredentials p n s = none := by
  induction n generalizing s with
  | zero => rfl
  | succ n ih =>
    cases hat : s.h.items[s.i]? with
    | none =>
      unfold Stripping.Scanned at hs
      rw [List.take_of_length_le (List.getElem?_eq_none_iff.mp hat)] at hs
      exact absurd (hs f hmem) (by simp [hsecret])
    | some g =>
      simp only [stripCredentials, hat]
      cases hg : isCredentialHeader p g.name with
      | false =>
        rw [stripTurn_open hg]
        exact ih _ hmem (hs.next hat hg)
      | true =>
        rw [stripTurn_secret hg]
        refine ih _ ?_ .restart
        have hne : ¬CaseEq f.name (g.name.take maxHeaderName) := by
          intro he
          have hlen : f.name.length = (g.name.take maxHeaderName).length := by
            simpa using congrArg List.length he
          rw [List.length_take] at hlen
          omega
        simp [Headers.remove, hmem, asciiNcasecmp_eq_zero, hne]

theorem stripsExactly_iff (p : Option RedactPolicy) (h : Headers) :
    StripsExactly p h ↔ Copyable p h := by
  constructor
  · rintro ⟨n, h', hrun, -⟩ f hf
    by_contra hlong
    simp only [secretFields, List.mem_filter] at hf
    rw [stripCredentials_endless hf.2 (not_le.mp hlong) n _ hf.1 .restart] at hrun
    cases hrun
  · intro hfits
    obtain ⟨n, h', hrun, hopen⟩ := stripCredentials_fits { h := h } hfits .restart
    exact ⟨n, h', by simpa using hrun, hopen⟩

/-- The lists `zuh_headers_add` builds. -/
inductive Headers.Built : Headers → Prop
  | init (maxCount maxName maxValue maxBytes : Nat) :
      Built (initLimited maxCount maxName maxValue maxBytes)
  | add {h h' : Headers} (hbuilt : Built h) (name value : Bytes)
      (hadd : h.add name value = .ok h') : Built h'

/-- A configured name of 257 bytes, in a list without limits. -/
theorem not_stripsExactly :
    ¬∀ (p : Option RedactPolicy) (h : Headers), h.Built → StripsExactly p h := by
  intro hexact
  obtain ⟨name, hname⟩ : ∃ name : Bytes, name = List.replicate 257 120 := ⟨_, rfl⟩
  have hvalid : headerNameValid name = true := by rw [hname]; decide +kernel
  have hlen : name.length = 257 := by rw [hname, List.length_replicate]
  have hadd : (Headers.initLimited 0 0 0 0).add name [] =
      .ok ⟨[⟨name, [], hvalid, rfl⟩], 261, 0, 0, 0, 0⟩ := by
    simp [Headers.add, hvalid, headerValueValid, Headers.initLimited, Headers.newBytes,
      Headers.sizeAdd, hlen]
  obtain ⟨n, h', hrun, -⟩ := hexact (some ⟨[name], []⟩) _ (.add (.init 0 0 0 0) name [] hadd)
  have hsecret : isCredentialHeader (some ⟨[name], []⟩) name = true := by
    rw [hname]
    decide +kernel
  have hlong : maxHeaderName < name.length := by simp [maxHeaderName, hlen]
  rw [stripCredentials_endless (f := ⟨name, [], hvalid, rfl⟩) hsecret hlong n _ (by simp)
    .restart] at hrun
  cases hrun

end Zuhttp
