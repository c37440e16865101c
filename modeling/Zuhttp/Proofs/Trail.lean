import Zuhttp.Proofs.UriParse
import Zuhttp.Redirect

/-!
# The trail of a redirect chain

The keys of the trail are texts. What they do not tell apart is a host with a port behind it
and a longer host: an IPv6 address is written without its brackets.
-/

namespace Zuhttp

/-! ### URIs from the parser -/

/-- RFC 3986: a host has no slash in it, and resolving takes the host of one side. -/
structure Uriparser.Grammar (up : Uriparser) : Prop where
  host : ∀ s p text, up.parse s = some p → p.hostText = some text → 47 ∉ text
  addBase : ∀ ref base p, up.addBase ref base = some p →
    p.hostText = ref.hostText ∨ p.hostText = base.hostText

/-- What `zuh_uri_parse` and `zuh_uri_resolve` make. -/
def Uri.Made (up : Uriparser) (u : Uri) : Prop :=
  (∃ s, Uri.parse up s = .ok u) ∨ ∃ base ref, Uri.resolve up base ref = .ok u

/-- A host and a path that meet at the first slash. -/
structure Uri.Cut (u : Uri) : Prop where
  host : 47 ∉ u.host
  path : ∃ rest, u.pathQuery = 47 :: rest

namespace UriParts

lemma lower_slash (c : UInt8) : lower c = 47 ↔ c = 47 := by
  unfold lower
  split_ifs with hupper
  · constructor
    · intro h
      rw [← UInt8.toNat_inj] at h
      simp only [UInt8.le_iff_toNat_le, UInt8.toNat_ofNat] at hupper
      simp only [UInt8.toNat_add, UInt8.toNat_ofNat] at h
      omega
    · rintro rfl
      exact absurd hupper (by decide)
  · rfl

lemma slash_notMem_lower {s : Bytes} (h : 47 ∉ s) : 47 ∉ s.map lower := by
  rw [List.mem_map]
  rintro ⟨c, hc, hlower⟩
  rw [(lower_slash c).mp hlower] at hc
  exact h hc

lemma hostOk_sub {host out : Bytes} {v6 : Bool} (h : hostOk host v6 = some out) :
    out ⊆ host := by
  unfold hostOk at h
  dsimp only at h
  split_ifs at h
  · rw [← Option.some.inj h]
    exact List.Subset.refl _
  · rw [← Option.some.inj h]
    exact List.dropLast_subset _
  · rw [← Option.some.inj h]
    exact List.Subset.refl _

lemma authority_host {p : UriParts} {a : Authority} {text : Bytes} (h : p.authority = some a)
    (hhost : p.hostText = some text) : a.host ⊆ text.map lower := by
  unfold authority at h
  rw [hhost] at h
  cases hscheme : p.scheme with
  | none => simp [hscheme] at h
  | some scheme =>
    rw [hscheme] at h
    dsimp only at h
    split_ifs at h
    split at h
    · cases h
    · rename_i host hok
      split at h
      · cases h
      · split_ifs at h
        cases h
        exact hostOk_sub hok

lemma pathQuery_slash (p : UriParts) : ∃ rest, p.pathQuery = 47 :: rest := by
  unfold pathQuery pieces
  cases hpath : p.path with
  | nil => exact ⟨_, by simp; rfl⟩
  | cons s path => exact ⟨_, by simp; rfl⟩

lemma authority_hostText {p : UriParts} {a : Authority} (h : p.authority = some a) :
    ∃ text, p.hostText = some text := by
  unfold authority at h
  cases hhost : p.hostText with
  | some text => exact ⟨text, rfl⟩
  | none =>
    rw [hhost] at h
    cases hscheme : p.scheme with
    | none =>
      rw [hscheme] at h
      cases h
    | some scheme =>
      rw [hscheme] at h
      cases h

lemma toUri_parts {p : UriParts} {u : Uri} (h : p.toUri = .ok u) :
    u.pathQuery = p.pathQuery ∧
      ∃ text, p.hostText = some text ∧ u.host ⊆ text.map lower := by
  unfold toUri at h
  cases hauthority : p.authority with
  | none =>
    rw [hauthority] at h
    cases h
  | some a =>
    obtain ⟨text, hhost⟩ := authority_hostText hauthority
    rw [hauthority] at h
    have hexec := exec_buildPathQuery p
    cases hrun : Prog.exec p.buildPathQuery (Buffer.init textMax) with
    | mk r b =>
      rw [hrun] at hexec h
      cases r with
      | error rc => cases h
      | ok pathQuery =>
        cases h
        change Except.ok pathQuery = _ at hexec
        split_ifs at hexec with hlt
        cases hexec
        exact ⟨rfl, text, hhost, authority_host hauthority hhost⟩

lemma toUri_cut {p : UriParts} {u : Uri} (h : p.toUri = .ok u)
    (hhost : ∀ text, p.hostText = some text → 47 ∉ text) : u.Cut := by
  obtain ⟨hpath, text, htext, hsub⟩ := toUri_parts h
  exact ⟨fun hin => slash_notMem_lower (hhost text htext) (hsub hin), hpath ▸ p.pathQuery_slash⟩

end UriParts

namespace Uri

variable {up : Uriparser}

lemma Made.cut (hup : up.Grammar) {u : Uri} (h : Made up u) : u.Cut := by
  rcases h with ⟨s, hparse⟩ | ⟨base, ref, hresolve⟩
  · unfold parse at hparse
    split_ifs at hparse
    split at hparse
    · cases hparse
    · rename_i p hp
      exact UriParts.toUri_cut hparse (hup.host s p · hp)
  · unfold resolve at hresolve
    split_ifs at hresolve
    split at hresolve
    · cases hresolve
    · rename_i text _ _
      split at hresolve
      · rename_i ubase uref hbase href
        split at hresolve
        · cases hresolve
        · rename_i uabs habs
          refine UriParts.toUri_cut hresolve (fun host hhost => ?_)
          rcases hup.addBase uref ubase uabs habs with heq | heq
          · exact hup.host ref uref host href (heq ▸ hhost)
          · exact hup.host text ubase host hbase (heq ▸ hhost)
      · cases hresolve

/-! ### Keys -/

/-- The port of an origin's text. -/
def portSuffix (u : Uri) : Bytes :=
  if u.port ≠ 0 ∧ u.port ≠ defaultPort u.scheme then 58 :: Decimal.decimalText u.port else []

/-- An origin whose text and NUL the array of `trail_key` holds. -/
def OriginFits (u : Uri) : Prop :=
  u.scheme.length + 3 + u.host.length + u.portSuffix.length < 320

instance (u : Uri) : Decidable u.OriginFits := inferInstanceAs (Decidable (_ < _))

lemma originString_eq (u : Uri) : u.originString 320 =
    if u.OriginFits then some (u.scheme ++ ascii "://" ++ u.host ++ u.portSuffix) else none := by
  have hlen : (u.scheme ++ ascii "://" ++ u.host ++ u.portSuffix).length =
      u.scheme.length + 3 + u.host.length + u.portSuffix.length := by
    simp only [List.length_append]
    rfl
  have hfits : (u.scheme ++ ascii "://" ++ u.host ++ u.portSuffix).length < 320 ↔
      u.OriginFits := by rw [hlen, OriginFits]
  exact if_congr hfits rfl rfl

lemma slash_notMem_portSuffix (u : Uri) : 47 ∉ u.portSuffix := by
  unfold portSuffix
  split_ifs
  · intro hin
    rcases List.mem_cons.mp hin with h | h
    · exact absurd h (by decide)
    · exact absurd (Decimal.decimalText_digits u.port 47 h).1 (by decide)
  · simp

/-- The same text for two hosts: one has its port's text for an end, and the default port. -/
def Confused (u v : Uri) : Prop :=
  u.scheme = v.scheme ∧ u.pathQuery = v.pathQuery ∧ u.port = defaultPort u.scheme ∧
    v.port ≠ defaultPort v.scheme ∧ u.host = v.host ++ 58 :: Decimal.decimalText v.port

instance (u v : Uri) : Decidable (u.Confused v) := inferInstanceAs (Decidable (_ ∧ _))

/-- The same resource. -/
def Same (u v : Uri) : Prop :=
  u.scheme = v.scheme ∧ u.host = v.host ∧ u.port = v.port ∧ u.pathQuery = v.pathQuery

lemma path_cut {u v : Uri} (hu : u.Cut) (hv : v.Cut)
    (h : u.host ++ u.portSuffix ++ u.pathQuery = v.host ++ v.portSuffix ++ v.pathQuery) :
    u.host ++ u.portSuffix = v.host ++ v.portSuffix ∧ u.pathQuery = v.pathQuery := by
  obtain ⟨x, hx⟩ := hu.path
  obtain ⟨y, hy⟩ := hv.path
  have hfree : ∀ {w : Uri}, w.Cut → 47 ∉ w.host ++ w.portSuffix := by
    intro w hw hin
    rcases List.mem_append.mp hin with hin | hin
    · exact hw.host hin
    · exact w.slash_notMem_portSuffix hin
  rw [hx, hy] at h
  obtain ⟨hhead, hrest⟩ := Decimal.append_sep_inj (hfree hu) (hfree hv) h
  exact ⟨hhead, by rw [hx, hy, hrest]⟩

lemma portSuffix_default {u : Uri} (h : u.port = defaultPort u.scheme) : u.portSuffix = [] := by
  rw [portSuffix, if_neg (by simp [h])]

lemma portSuffix_own {u : Uri} (h : u.port ≠ defaultPort u.scheme) :
    u.portSuffix = 58 :: Decimal.decimalText u.port := by
  rw [portSuffix, if_pos ⟨u.portValid.1.ne', h⟩]

/-- The last colon is that of the port. -/
lemma host_cut {a b x y : Bytes} (hx : 58 ∉ x) (hy : 58 ∉ y) (h : a ++ 58 :: x = b ++ 58 :: y) :
    a = b ∧ x = y := by
  have hrev := congrArg List.reverse h
  simp only [List.reverse_append, List.reverse_cons, List.append_assoc, List.singleton_append]
    at hrev
  obtain ⟨hxy, hab⟩ := Decimal.append_sep_inj (by simpa using hx) (by simpa using hy) hrev
  exact ⟨List.reverse_injective hab, List.reverse_injective hxy⟩

lemma not_confused_default {u v : Uri} (h : v.port = defaultPort v.scheme) :
    ¬u.Confused v := fun hc => hc.2.2.2.1 h

lemma not_confused_own {u v : Uri} (h : u.port ≠ defaultPort u.scheme) :
    ¬u.Confused v := fun hc => h hc.2.2.1

lemma authority_eq_iff {u v : Uri} (hscheme : u.scheme = v.scheme)
    (hpath : u.pathQuery = v.pathQuery) :
    u.host ++ u.portSuffix = v.host ++ v.portSuffix ↔
      u.Same v ∨ u.Confused v ∨ v.Confused u := by
  by_cases hu : u.port = defaultPort u.scheme <;> by_cases hv : v.port = defaultPort v.scheme
  · have hport : u.port = v.port := by rw [hu, hv, hscheme]
    rw [portSuffix_default hu, portSuffix_default hv, List.append_nil, List.append_nil]
    simp [not_confused_default hu, not_confused_default hv, Same, hscheme, hpath, hport]
  · have hsame : ¬u.Same v := fun h => hv (by rw [← h.2.2.1, hu, hscheme])
    rw [portSuffix_default hu, portSuffix_own hv, List.append_nil]
    simp only [hsame, not_confused_default hu, false_or, or_false]
    exact ⟨fun h => ⟨hscheme, hpath, hu, hv, h⟩, fun h => h.2.2.2.2⟩
  · have hsame : ¬u.Same v := fun h => hu (by rw [h.2.2.1, hv, hscheme])
    rw [portSuffix_own hu, portSuffix_default hv, List.append_nil]
    simp only [hsame, not_confused_default hv, false_or]
    exact ⟨fun h => ⟨hscheme.symm, hpath.symm, hv, hu, h.symm⟩, fun h => h.2.2.2.2.symm⟩
  · rw [portSuffix_own hu, portSuffix_own hv]
    simp only [not_confused_own hu, not_confused_own hv, or_false]
    constructor
    · intro h
      obtain ⟨hhost, hport⟩ := host_cut (Decimal.colon_notMem_decimalText _)
        (Decimal.colon_notMem_decimalText _) h
      exact ⟨hscheme, hhost, Decimal.decimalText_injective hport, hpath⟩
    · rintro ⟨-, hhost, hport, -⟩
      rw [hhost, hport]

end Uri

/-! ### Two keys -/

lemma scheme_cut {u v : Uri} {x y : Bytes}
    (h : u.scheme ++ ascii "://" ++ x = v.scheme ++ ascii "://" ++ y) :
    u.scheme = v.scheme ∧ x = y := by
  have hfree : ∀ w : Uri, 58 ∉ w.scheme := by
    intro w
    rcases w.schemeKnown with hw | hw <;> rw [hw] <;> decide
  rw [List.append_assoc, List.append_assoc] at h
  obtain ⟨hscheme, hrest⟩ := Decimal.append_sep_inj (hfree u) (hfree v) h
  exact ⟨hscheme, List.append_cancel_left (show [47, 47] ++ x = [47, 47] ++ y from hrest)⟩

lemma trailKey_eq {method : Bytes} {u v : Uri} (hscheme : u.scheme = v.scheme)
    (hhost : u.host = v.host) (hport : u.port = v.port) (hpath : u.pathQuery = v.pathQuery) :
    trailKey method u = trailKey method v := by
  unfold trailKey Uri.originString
  rw [hscheme, hhost, hport, hpath]

lemma trailKey_some {method key : Bytes} {u : Uri} (h : trailKey method u = some key) :
    u.OriginFits ∧
      key =
        method ++ 32 :: (u.scheme ++ ascii "://" ++ (u.host ++ u.portSuffix ++ u.pathQuery)) := by
  unfold trailKey at h
  rw [Uri.originString_eq] at h
  split_ifs at h with hfits
  · cases h
    exact ⟨hfits, by simp⟩
  · cases h

lemma trailKey_none_iff {method : Bytes} {u : Uri} :
    trailKey method u = none ↔ ¬u.OriginFits := by
  unfold trailKey
  rw [Uri.originString_eq]
  split_ifs with hfits <;> simp [hfits]

lemma space_notMem_token {method : Bytes} (h : headerNameValid method = true) : 32 ∉ method := by
  intro hin
  unfold headerNameValid at h
  rw [Bool.and_eq_true, List.all_eq_true] at h
  exact absurd (h.2 32 hin) (by decide)

/-- The targets whose keys are one text. -/
theorem trailKey_eq_iff {m n : Bytes} {u v : Uri} (hm : headerNameValid m = true)
    (hn : headerNameValid n = true) (hu : u.Cut) (hv : v.Cut) (hfits : u.OriginFits)
    (hfits' : v.OriginFits) : trailKey m u = trailKey n v ↔
      m = n ∧ (u.Same v ∨ u.Confused v ∨ v.Confused u) := by
  cases hku : trailKey m u with
  | none => exact absurd hfits (trailKey_none_iff.mp hku)
  | some k =>
    cases hkv : trailKey n v with
    | none => exact absurd hfits' (trailKey_none_iff.mp hkv)
    | some k' =>
      rw [Option.some_inj, (trailKey_some hku).2, (trailKey_some hkv).2]
      constructor
      · intro h
        obtain ⟨hmethod, hurl⟩ := Decimal.append_sep_inj (space_notMem_token hm)
          (space_notMem_token hn) h
        obtain ⟨hscheme, hrest⟩ := scheme_cut hurl
        obtain ⟨hhost, hpath⟩ := Uri.path_cut hu hv hrest
        exact ⟨hmethod, (Uri.authority_eq_iff hscheme hpath).mp hhost⟩
      · rintro ⟨hmethod, hsame⟩
        have hscheme : u.scheme = v.scheme := by
          rcases hsame with h | h | h
          · exact h.1
          · exact h.1
          · exact h.1.symm
        have hpath : u.pathQuery = v.pathQuery := by
          rcases hsame with h | h | h
          · exact h.2.2.2
          · exact h.2.1
          · exact h.2.1.symm
        rw [hmethod, hscheme, hpath, (Uri.authority_eq_iff hscheme hpath).mpr hsame]

/-! ### A sequence of calls -/

/-- The codes of the calls when no allocation fails. -/
def trailCodes : List Bytes → List (Bytes × Uri) → List (Option Code)
  | _, [] => []
  | trail, (method, u) :: calls =>
    match trailKey method u with
    | none => some .nomem :: trailCodes trail calls
    | some key =>
      if key ∈ trail then some .redirect :: trailCodes trail calls
      else none :: trailCodes (trail ++ [key]) calls

/-- No allocation fails. -/
def Host.Ample (h : Host) : Prop := ∀ ok ∈ h.allocs, ok = true

lemma Host.exec_allocate {h : Host} (hample : h.Ample) :
    ∃ h' : Host, Prog.exec Host.allocate h = (.ok (), h') ∧ h'.Ample := by
  cases hallocs : h.allocs with
  | nil => exact ⟨h, by simp [allocate, alloc, Prog.exec_bind, Prog.exec_get, hallocs,
      Prog.exec_pure], hample⟩
  | cons ok allocs =>
    have hok : ok = true := hample ok (by rw [hallocs]; exact List.mem_cons_self)
    refine ⟨{ h with allocs := allocs }, ?_, fun b hb => hample b ?_⟩
    · simp only [allocate, alloc, bind_assoc, Prog.exec_bind, Prog.exec_get, hallocs]
      rw [hok]
      rfl
    · rw [hallocs]
      exact List.mem_cons_of_mem _ hb

lemma trailAdd_exec {h : Host} (hample : h.Ample) (trail : List Bytes) (method : Bytes)
    (u : Uri) : ∃ h' : Host, h'.Ample ∧ Prog.exec (trailAdd trail method u) h =
      (match trailKey method u with
        | none => .error .nomem
        | some key => if key ∈ trail then .error .redirect else .ok (trail ++ [key]), h') := by
  obtain ⟨h', hfirst, hample'⟩ := Host.exec_allocate hample
  unfold trailAdd
  rw [Prog.exec_bind_ok hfirst]
  cases trailKey method u with
  | none => exact ⟨h', hample', rfl⟩
  | some key =>
    by_cases hin : key ∈ trail
    · simp only [if_pos hin]
      exact ⟨h', hample', rfl⟩
    · obtain ⟨h'', hsecond, hample''⟩ := Host.exec_allocate hample'
      simp only [if_neg hin]
      rw [Prog.exec_bind_ok hsecond]
      exact ⟨h'', hample'', rfl⟩

lemma trailRun_codes (calls : List (Bytes × Uri)) (trail : List Bytes) {h : Host}
    (hample : h.Ample) :
    ∃ h', Prog.exec (trailRun trail calls) h = (.ok (trailCodes trail calls), h') := by
  induction calls generalizing trail h with
  | nil => exact ⟨h, rfl⟩
  | cons c calls ih =>
    obtain ⟨method, u⟩ := c
    obtain ⟨h', hample', hadd⟩ := trailAdd_exec hample trail method u
    simp only [trailRun, trailCodes, Prog.exec_bind, Prog.exec_attempt, hadd]
    cases trailKey method u with
    | none =>
      obtain ⟨h'', hrest⟩ := ih trail hample'
      exact ⟨h'', by simp only [Prog.exec_bind, hrest]; rfl⟩
    | some key =>
      by_cases hin : key ∈ trail
      · obtain ⟨h'', hrest⟩ := ih trail hample'
        exact ⟨h'', by simp only [if_pos hin, Prog.exec_bind, hrest]; rfl⟩
      · obtain ⟨h'', hrest⟩ := ih (trail ++ [key]) hample'
        exact ⟨h'', by simp only [if_neg hin, Prog.exec_bind, hrest]; rfl⟩

/-- The trail behind a call. -/
def trailNext (trail : List Bytes) (c : Bytes × Uri) : List Bytes :=
  match trailKey c.1 c.2 with
  | none => trail
  | some key => if key ∈ trail then trail else trail ++ [key]

lemma mem_trailNext (trail : List Bytes) (c : Bytes × Uri) (key : Bytes) :
    key ∈ trailNext trail c ↔ key ∈ trail ∨ trailKey c.1 c.2 = some key := by
  unfold trailNext
  cases trailKey c.1 c.2 with
  | none => simp
  | some key' =>
    by_cases hin : key' ∈ trail
    · simp only [if_pos hin, Option.some_inj]
      exact ⟨Or.inl, fun h => h.elim id (fun heq => heq ▸ hin)⟩
    · simp [if_neg hin, eq_comm]

lemma trailCodes_tail (trail : List Bytes) (c : Bytes × Uri) (calls : List (Bytes × Uri)) :
    (trailCodes trail (c :: calls)).tail = trailCodes (trailNext trail c) calls := by
  unfold trailNext
  rw [trailCodes]
  cases trailKey c.1 c.2 with
  | none => rfl
  | some key => by_cases hin : key ∈ trail <;> simp [hin]

/-- The key stands on the trail when the call of this number is made. -/
def Known (trail : List Bytes) (calls : List (Bytes × Uri)) (k : Nat) (key : Bytes) : Prop :=
  key ∈ trail ∨ ∃ j < k, ∃ c, calls[j]? = some c ∧ trailKey c.1 c.2 = some key

lemma known_succ (trail : List Bytes) (c : Bytes × Uri) (calls : List (Bytes × Uri)) (k : Nat)
    (key : Bytes) :
    Known trail (c :: calls) (k + 1) key ↔ Known (trailNext trail c) calls k key := by
  unfold Known
  rw [mem_trailNext]
  constructor
  · rintro (hin | ⟨j, hj, d, hd, hkey⟩)
    · exact Or.inl (Or.inl hin)
    · cases j with
      | zero =>
        cases hd
        exact Or.inl (Or.inr hkey)
      | succ j => exact Or.inr ⟨j, by omega, d, hd, hkey⟩
  · rintro ((hin | hkey) | ⟨j, hj, d, hd, hkey⟩)
    · exact Or.inl hin
    · exact Or.inr ⟨0, by omega, c, rfl, hkey⟩
    · exact Or.inr ⟨j + 1, by omega, d, hd, hkey⟩

lemma trailCodes_at (calls : List (Bytes × Uri)) (trail : List Bytes) (k : Nat)
    (c : Bytes × Uri) (hc : calls[k]? = some c) :
    (trailKey c.1 c.2 = none → (trailCodes trail calls)[k]? = some (some .nomem)) ∧
    ∀ key, trailKey c.1 c.2 = some key →
      (Known trail calls k key → (trailCodes trail calls)[k]? = some (some .redirect)) ∧
      (¬Known trail calls k key → (trailCodes trail calls)[k]? = some none) := by
  induction calls generalizing trail k with
  | nil => simp at hc
  | cons d calls ih =>
    cases k with
    | zero =>
      cases hc
      rw [trailCodes]
      refine ⟨fun hlong => by simp [hlong], fun key hkey => ?_⟩
      have hknown : Known trail (c :: calls) 0 key ↔ key ∈ trail := by simp [Known]
      rw [hknown, hkey]
      exact ⟨fun hin => by simp [hin], fun hin => by simp [hin]⟩
    | succ k =>
      have htail : (trailCodes trail (d :: calls))[k + 1]? =
          (trailCodes (trailNext trail d) calls)[k]? := by
        rw [← trailCodes_tail, List.getElem?_tail]
      simp only [htail, known_succ]
      exact ih (trailNext trail d) k hc

section Run

variable {calls : List (Bytes × Uri)} {k : Nat} {c : Bytes × Uri} {key : Bytes}

lemma code_long (hc : calls[k]? = some c) (hlong : ¬c.2.OriginFits) :
    (trailCodes [] calls)[k]? = some (some .nomem) :=
  (trailCodes_at calls [] k c hc).1 (trailKey_none_iff.mpr hlong)

lemma code_known (hc : calls[k]? = some c) (hkey : trailKey c.1 c.2 = some key)
    (hknown : Known [] calls k key) : (trailCodes [] calls)[k]? = some (some .redirect) :=
  ((trailCodes_at calls [] k c hc).2 key hkey).1 hknown

lemma code_new (hc : calls[k]? = some c) (hkey : trailKey c.1 c.2 = some key)
    (hnew : ¬Known [] calls k key) : (trailCodes [] calls)[k]? = some none :=
  ((trailCodes_at calls [] k c hc).2 key hkey).2 hnew

lemma Known.later {f : Nat} (hlt : f < k) (hc : calls[f]? = some c)
    (hkey : trailKey c.1 c.2 = some key) : Known [] calls k key :=
  Or.inr ⟨f, hlt, c, hc, hkey⟩

/-- A key that is known was recorded by an earlier call. -/
lemma Known.recorded (h : Known [] calls k key) :
    ∃ f < k, ∃ c, calls[f]? = some c ∧ trailKey c.1 c.2 = some key ∧ ¬Known [] calls f key := by
  classical
  rcases h with h | hex
  · cases h
  · obtain ⟨hlt, c, hc, hkey⟩ := Nat.find_spec hex
    refine ⟨Nat.find hex, hlt, c, hc, hkey, ?_⟩
    rintro (h | ⟨j, hj, d, hd, hkey'⟩)
    · cases h
    · exact Nat.find_min hex hj ⟨hj.trans hlt, d, hd, hkey'⟩

/-- Only one call records a key. -/
lemma recorded_unique {f l : Nat} {e a : Bytes × Uri} (he : calls[f]? = some e)
    (hke : trailKey e.1 e.2 = some key) (hnew : ¬Known [] calls f key) (ha : calls[l]? = some a)
    (hka : trailKey a.1 a.2 = some key) (hok : (trailCodes [] calls)[l]? = some none) :
    a = e := by
  have hnew' : ¬Known [] calls l key := by
    intro hknown
    rw [code_known ha hka hknown] at hok
    cases hok
  have hlf : l = f := by
    rcases Nat.lt_trichotomy l f with hlt | heq | hlt
    · exact absurd (Known.later hlt ha hka) hnew
    · exact heq
    · exact absurd (Known.later hlt he hke) hnew'
  rw [hlf, he] at ha
  cases ha
  rfl

/-- Two calls for the same target. -/
def SameCall (c d : Bytes × Uri) : Prop := c.1 = d.1 ∧ c.2.Same d.2

def ConfusedCall (c d : Bytes × Uri) : Prop := c.1 = d.1 ∧ c.2.Confused d.2

instance (c d : Bytes × Uri) : Decidable (ConfusedCall c d) :=
  inferInstanceAs (Decidable (_ ∧ _))

/-- An earlier call that succeeded had the target of this one. -/
def Repeats (calls : List (Bytes × Uri)) (rcs : List (Option Code)) (k : Nat) : Prop :=
  ∃ j < k, rcs[j]? = some none ∧ ∃ c d, calls[j]? = some c ∧ calls[k]? = some d ∧ SameCall c d

/-- The calls refused are those for a target that was recorded before; the others are
recorded. -/
def TrailExact (calls : List (Bytes × Uri)) (h : Host) : Prop :=
  ∃ rcs h', Prog.exec (trailRun [] calls) h = (.ok rcs, h') ∧ ∀ k < calls.length,
    (rcs[k]? = some (some .redirect) ↔ Repeats calls rcs k) ∧
    (¬Repeats calls rcs k → rcs[k]? = some none)

/-- A call with a method token and a URI from the parser. -/
def CallOk (up : Uriparser) (c : Bytes × Uri) : Prop :=
  headerNameValid c.1 = true ∧ c.2.Made up

lemma SameCall.keys {c d : Bytes × Uri} (h : SameCall c d) :
    trailKey c.1 c.2 = trailKey d.1 d.2 := by
  obtain ⟨hmethod, hscheme, hhost, hport, hpath⟩ := h
  rw [hmethod]
  exact trailKey_eq hscheme hhost hport hpath

lemma ConfusedCall.not_same {c d : Bytes × Uri} (h : ConfusedCall c d) : ¬SameCall c d := by
  intro hsame
  apply h.2.2.2.2.1
  rw [← hsame.2.2.2.1, h.2.2.2.1, hsame.2.1]

lemma ConfusedCall.keys {c d : Bytes × Uri} (h : ConfusedCall c d) (hfits : c.2.OriginFits)
    (hfits' : d.2.OriginFits) : trailKey c.1 c.2 = trailKey d.1 d.2 := by
  obtain ⟨hmethod, hconfused⟩ := h
  have hhost := (Uri.authority_eq_iff hconfused.1 hconfused.2.1).mpr (Or.inr (Or.inl hconfused))
  unfold trailKey
  rw [Uri.originString_eq, Uri.originString_eq, if_pos hfits, if_pos hfits', Option.map_some,
    Option.map_some, List.append_assoc _ c.2.host, List.append_assoc _ d.2.host, hmethod, hhost,
    hconfused.1, hconfused.2.1]

lemma SameCall.refl (c : Bytes × Uri) : SameCall c c := ⟨rfl, rfl, rfl, rfl, rfl⟩

lemma SameCall.symm {c d : Bytes × Uri} (h : SameCall c d) : SameCall d c := by
  obtain ⟨hm, hs, hh, hp, hq⟩ := h
  exact ⟨hm.symm, hs.symm, hh.symm, hp.symm, hq.symm⟩

lemma SameCall.trans {c d e : Bytes × Uri} (h : SameCall c d) (h' : SameCall d e) :
    SameCall c e := by
  obtain ⟨hm, hs, hh, hp, hq⟩ := h
  obtain ⟨hm', hs', hh', hp', hq'⟩ := h'
  exact ⟨hm.trans hm', hs.trans hs', hh.trans hh', hp.trans hp', hq.trans hq'⟩

lemma Repeats.known {rcs : List (Option Code)} (h : Repeats calls rcs k)
    (hc : calls[k]? = some c) (hkey : trailKey c.1 c.2 = some key) : Known [] calls k key := by
  obtain ⟨j, hj, -, d, c', hd, hc', hsame⟩ := h
  rw [hc] at hc'
  cases hc'
  exact Known.later hj hd (hsame.keys.trans hkey)

variable {h : Host}

lemma TrailExact.codes (hample : h.Ample) (hexact : TrailExact calls h) (hk : k < calls.length) :
    ((trailCodes [] calls)[k]? = some (some .redirect) ↔
      Repeats calls (trailCodes [] calls) k) ∧
    (¬Repeats calls (trailCodes [] calls) k → (trailCodes [] calls)[k]? = some none) := by
  obtain ⟨rcs, h', hrun, hspec⟩ := hexact
  obtain ⟨h'', hcodes⟩ := trailRun_codes calls [] hample
  rw [hcodes] at hrun
  cases hrun
  exact hspec k hk

lemma TrailExact.fits (hample : h.Ample) (hexact : TrailExact calls h) (hc : c ∈ calls) :
    c.2.OriginFits := by
  by_contra hlong
  obtain ⟨k, hk, rfl⟩ := List.mem_iff_getElem.mp hc
  obtain ⟨hredirect, hok⟩ := hexact.codes hample hk
  rw [code_long (List.getElem?_eq_getElem hk) hlong] at hredirect hok
  by_cases hrep : Repeats calls (trailCodes [] calls) k
  · cases hredirect.mpr hrep
  · cases hok hrep

/-- The call that records a key has the target of every call with this key. -/
lemma TrailExact.same_first (hample : h.Ample) (hexact : TrailExact calls h) {f : Nat}
    {e : Bytes × Uri} (he : calls[f]? = some e) (hke : trailKey e.1 e.2 = some key)
    (hnew : ¬Known [] calls f key) (hc : calls[k]? = some c)
    (hkey : trailKey c.1 c.2 = some key) : SameCall e c := by
  rcases Nat.lt_trichotomy f k with hlt | rfl | hlt
  · have hrefused := code_known hc hkey (Known.later hlt he hke)
    obtain ⟨l, -, hok, a, c', ha, hc', hsame⟩ :=
      (hexact.codes hample (List.getElem?_eq_some_iff.mp hc).1).1.mp hrefused
    rw [hc] at hc'
    cases hc'
    rw [← recorded_unique he hke hnew ha (hsame.keys.trans hkey) hok]
    exact hsame
  · rw [he] at hc
    cases hc
    exact .refl _
  · exact absurd (Known.later hlt hc hkey) hnew

lemma TrailExact.key_inj (hample : h.Ample) (hexact : TrailExact calls h) {i j : Nat}
    {d : Bytes × Uri} (hc : calls[i]? = some c) (hd : calls[j]? = some d)
    (hkc : trailKey c.1 c.2 = some key) (hkd : trailKey d.1 d.2 = some key) : SameCall c d := by
  have hfirst : ∃ f e, calls[f]? = some e ∧ trailKey e.1 e.2 = some key ∧
      ¬Known [] calls f key := by
    by_cases hknown : Known [] calls i key
    · obtain ⟨f, -, e, he, hke, hnew⟩ := hknown.recorded
      exact ⟨f, e, he, hke, hnew⟩
    · exact ⟨i, c, hc, hkc, hknown⟩
  obtain ⟨f, e, he, hke, hnew⟩ := hfirst
  exact (hexact.same_first hample he hke hnew hc hkc).symm.trans
    (hexact.same_first hample he hke hnew hd hkd)

/-- Where equal keys are equal targets, and every call has a key. -/
lemma trailExact_of_inj (hample : h.Ample) (hfits : ∀ c ∈ calls, c.2.OriginFits)
    (hinj : ∀ c ∈ calls, ∀ d ∈ calls, trailKey c.1 c.2 = trailKey d.1 d.2 → SameCall c d) :
    TrailExact calls h := by
  obtain ⟨h', hrun⟩ := trailRun_codes calls [] hample
  refine ⟨_, h', hrun, fun k hk => ?_⟩
  have hc : calls[k]? = some calls[k] := List.getElem?_eq_getElem hk
  have hmem : calls[k] ∈ calls := List.getElem_mem hk
  cases hkey : trailKey calls[k].1 calls[k].2 with
  | none => exact absurd (hfits _ hmem) (trailKey_none_iff.mp hkey)
  | some key =>
    by_cases hknown : Known [] calls k key
    · obtain ⟨f, hlt, e, he, hke, hnew⟩ := hknown.recorded
      have hsame := hinj e (List.mem_of_getElem? he) _ hmem (hke.trans hkey.symm)
      have hrep : Repeats calls (trailCodes [] calls) k :=
        ⟨f, hlt, code_new he hke hnew, e, _, he, hc, hsame⟩
      rw [code_known hc hkey hknown]
      exact ⟨by simp [hrep], fun hno => absurd hrep hno⟩
    · have hno : ¬Repeats calls (trailCodes [] calls) k := fun hrep => hknown (hrep.known hc hkey)
      rw [code_new hc hkey hknown]
      exact ⟨by simp [hno], fun _ => rfl⟩

end Run

theorem trailExact_iff {up : Uriparser} (hup : up.Grammar) {calls : List (Bytes × Uri)}
    (hcalls : ∀ c ∈ calls, CallOk up c) {h : Host} (hample : h.Ample) :
    TrailExact calls h ↔ (∀ c ∈ calls, c.2.OriginFits) ∧
      ∀ c ∈ calls, ∀ d ∈ calls, ¬ConfusedCall c d := by
  constructor
  · intro hexact
    have hfits : ∀ c ∈ calls, c.2.OriginFits := fun c hc => hexact.fits hample hc
    refine ⟨hfits, fun c hc d hd hconfused => ?_⟩
    obtain ⟨i, hi⟩ := List.mem_iff_getElem?.mp hc
    obtain ⟨j, hj⟩ := List.mem_iff_getElem?.mp hd
    have hkey := hconfused.keys (hfits c hc) (hfits d hd)
    cases hkd : trailKey d.1 d.2 with
    | none => exact trailKey_none_iff.mp hkd (hfits d hd)
    | some key =>
      exact hconfused.not_same (hexact.key_inj hample hi hj (hkey.trans hkd) hkd)
  · rintro ⟨hfits, hclear⟩
    refine trailExact_of_inj hample hfits (fun c hc d hd hkey => ?_)
    obtain ⟨hmethod, hsame⟩ := (trailKey_eq_iff (hcalls c hc).1 (hcalls d hd).1
      ((hcalls c hc).2.cut hup) ((hcalls d hd).2.cut hup) (hfits c hc) (hfits d hd)).mp hkey
    rcases hsame with hsame | hconfused | hconfused
    · exact ⟨hmethod, hsame⟩
    · exact absurd ⟨hmethod, hconfused⟩ (hclear c hc d hd)
    · exact absurd ⟨hmethod.symm, hconfused⟩ (hclear d hd c hc)

/-- Two URLs whose keys are one text, as the parser reads them. -/
def confusedUrls : Uriparser where
  parse s :=
    if s = ascii "http://[::1]:8080/" then
      some { scheme := some (ascii "http"), hostText := some (ascii "::1"), ip6 := true,
             portText := ascii "8080", path := [[]] }
    else if s = ascii "http://[::1:8080]/" then
      some { scheme := some (ascii "http"), hostText := some (ascii "::1:8080"), ip6 := true,
             path := [[]] }
    else none
  addBase _ _ := none

lemma confusedUrls_grammar : confusedUrls.Grammar := by
  refine ⟨fun s p text hp htext => ?_, fun _ _ _ h => (by cases h)⟩
  unfold confusedUrls at hp
  dsimp only at hp
  split_ifs at hp
  · cases hp
    cases htext
    decide
  · cases hp
    cases htext
    decide

lemma port8080_valid : 0 < 8080 ∧ 8080 < 2 ^ 16 := by decide

/-- `http://[::1]:8080/` -/
def addressAndPort : Uri where
  scheme := ascii "http"
  host := ascii "::1"
  pathQuery := [47]
  userinfo := none
  port := 8080
  portExplicit := true
  schemeKnown := Uri.http_known
  hostLower := by decide
  portValid := port8080_valid

/-- `http://[::1:8080]/` -/
def longerAddress : Uri where
  scheme := ascii "http"
  host := ascii "::1:8080"
  pathQuery := [47]
  userinfo := none
  port := 80
  portExplicit := false
  schemeKnown := Uri.http_known
  hostLower := by decide
  portValid := Uri.port80_valid

lemma addressAndPort_made : addressAndPort.Made confusedUrls :=
  Or.inl ⟨ascii "http://[::1]:8080/", by decide +kernel⟩

lemma longerAddress_made : longerAddress.Made confusedUrls :=
  Or.inl ⟨ascii "http://[::1:8080]/", by decide +kernel⟩

/-- The two hosts are not told apart. -/
theorem trail_not_exact :
    ¬∀ up : Uriparser, up.Grammar → ∀ calls : List (Bytes × Uri), (∀ c ∈ calls, CallOk up c) →
      ∀ h : Host, h.Ample → TrailExact calls h := by
  intro hexact
  have hcalls : ∀ c ∈ [(ascii "GET", longerAddress), (ascii "GET", addressAndPort)],
      CallOk confusedUrls c := by
    simp only [List.forall_mem_cons, List.not_mem_nil, false_implies, implies_true, and_true]
    exact ⟨⟨by decide, longerAddress_made⟩, ⟨by decide, addressAndPort_made⟩⟩
  have hall := hexact confusedUrls confusedUrls_grammar _ hcalls {} (by simp [Host.Ample])
  have hkeys := hall.key_inj (by simp [Host.Ample]) (i := 0) (j := 1)
    (c := (ascii "GET", longerAddress))
    (d := (ascii "GET", addressAndPort)) rfl rfl
    (show trailKey (ascii "GET") longerAddress = some (ascii "GET http://::1:8080/") by
      decide +kernel)
    (by decide +kernel)
  exact absurd hkeys.2.2.1 (by decide)

/-- Two calls for one target. -/
theorem trailExact_iff_twice :
    TrailExact [(ascii "GET", addressAndPort), (ascii "GET", addressAndPort)] {} :=
  (trailExact_iff confusedUrls_grammar (by
    simp only [List.forall_mem_cons, List.not_mem_nil, false_implies, implies_true, and_true]
    exact ⟨⟨by decide, addressAndPort_made⟩, ⟨by decide, addressAndPort_made⟩⟩)
    (by simp [Host.Ample])).mpr (by
      simp only [List.forall_mem_cons, List.not_mem_nil, false_implies, implies_true, and_true]
      decide +kernel)

end Zuhttp
