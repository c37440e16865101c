import Zuhttp.Library.Decimal
import Zuhttp.Proofs.Pieces
import Zuhttp.Proxy

/-!
# The hosts a proxy is not used for

The list by its entries: the scanner finds the trimmed pieces between its commas. An address
is looked for among the entries, but the host may be one too.
-/

namespace Zuhttp

namespace Proxy

/-! ### The scanner -/

lemma isEntryGap_iff (c : UInt8) : isEntryGap c = true ↔ c = 44 ∨ isOws c = true := by
  simp [isEntryGap]

lemma noProxyEntryMatches_nil (host : Bytes) (port : Nat) :
    noProxyEntryMatches host port [] = false := rfl

lemma noProxyLoop_eq (host : Bytes) (port n : Nat) (s : Bytes) (hn : s.length ≤ n) :
    noProxyLoop host port n s = anyPiece (noProxyEntryMatches host port) s := by
  induction n generalizing s with
  | zero =>
    rw [List.length_eq_zero_iff.mp (Nat.le_zero.mp hn)]
    rfl
  | succ n ih =>
    by_cases hs : s = []
    · rw [hs]
      rfl
    · have hshort := scan_shorter isEntryGap_iff hs
      rw [anyPiece_turn isEntryGap_iff (noProxyEntryMatches_nil host port), ← ih _ (by omega),
        noProxyLoop, if_neg hs]
      dsimp only
      cases noProxyEntryMatches host port
        (((s.dropWhile isEntryGap).takeWhile (· ≠ 44)).rdropWhile isOws) <;> rfl

theorem noProxyMatches_eq (s host : Bytes) (port : Nat) : noProxyMatches s host port =
    (!decide (host = []) && anyPiece (noProxyEntryMatches host port) s) := by
  unfold noProxyMatches
  rw [noProxyLoop_eq host port s.length s le_rfl]
  by_cases hhost : host = [] <;> simp [hhost]

/-- A list of two parts is that of both. -/
lemma noProxyMatches_join (a b host : Bytes) (port : Nat) :
    noProxyMatches (a ++ 44 :: b) host port =
      (noProxyMatches a host port || noProxyMatches b host port) := by
  simp only [noProxyMatches_eq, anyPiece, Cut.splitOn_join, List.any_append]
  cases decide (host = []) <;> simp

/-! ### One entry -/

lemma isDigit_of_decimal {c : UInt8} (h : 48 ≤ c ∧ c ≤ 57) : Ascii.isDigit c = true := by
  unfold Ascii.isDigit
  simpa using h

lemma foldl_decimal (s : Bytes) (v : Nat) :
    s.foldl (fun v c => v * 10 + (c.toNat - 48)) v =
      v * 10 ^ s.length + Decimal.decimalValue s := by
  induction s generalizing v with
  | nil => simp [Decimal.decimalValue_nil]
  | cons c s ih =>
    rw [List.foldl_cons, ih, Decimal.decimalValue_cons, List.length_cons, pow_succ]
    ring

lemma strtol_decimal {s : Bytes} (h : Decimal.IsDecimal s) :
    strtol s = (Decimal.decimalValue s : Int) := by
  obtain ⟨hne, hdigits⟩ := h
  have hwhole : s.takeWhile Ascii.isDigit = s :=
    List.takeWhile_eq_self_iff.mpr (fun c hc => isDigit_of_decimal (hdigits c hc))
  cases s with
  | nil => exact absurd rfl hne
  | cons c s =>
    have hc := hdigits c List.mem_cons_self
    rw [UInt8.le_iff_toNat_le, UInt8.le_iff_toNat_le] at hc
    change 48 ≤ c.toNat ∧ c.toNat ≤ 57 at hc
    have hspace : ¬(decide (c = 32 ∨ (9 ≤ c ∧ c ≤ 13)) = true) := by
      simp only [decide_eq_true_eq, ← UInt8.toNat_inj, UInt8.le_iff_toNat_le]
      simp only [UInt8.toNat_ofNat]
      omega
    have hminus : c ≠ 45 := by
      rintro rfl
      exact absurd hc.1 (by decide)
    have hplus : c ≠ 43 := by
      rintro rfl
      exact absurd hc.1 (by decide)
    have hskip : (c :: s).dropWhile (fun c => decide (c = 32 ∨ 9 ≤ c ∧ c ≤ 13)) = c :: s :=
      List.dropWhile_cons_of_neg hspace
    unfold strtol
    rw [hskip]
    dsimp only
    rw [if_neg hminus, if_neg hplus, hwhole, foldl_decimal]
    simp

/-- The host ends in the name, right behind a dot. -/
def BehindDot (host name : Bytes) : Prop :=
  ∃ front back, host = front ++ 46 :: back ∧ CaseEq back name

/-- What the source's comparison of a name with the end of the host decides. -/
def Covers (host name : Bytes) : Prop :=
  CaseEq name host ∨ isIpLiteral name = false ∧ BehindDot host name

lemma caseEq_length {a b : Bytes} (h : CaseEq a b) : a.length = b.length := by
  simpa using congrArg List.length h

lemma behindDot_iff {host name : Bytes} (hlt : name.length < host.length) :
    BehindDot host name ↔ CaseEq (host.drop (host.length - name.length)) name ∧
      host[host.length - name.length - 1]? = some 46 := by
  constructor
  · rintro ⟨front, back, rfl, hback⟩
    have hlen := caseEq_length hback
    have hat : (front ++ 46 :: back).length - name.length = front.length + 1 := by
      simp only [List.length_append, List.length_cons]
      omega
    rw [hat]
    refine ⟨?_, by simp⟩
    have hend : (front ++ 46 :: back).drop (front.length + 1) = back := by
      rw [← List.drop_drop, List.drop_left, List.drop_one, List.tail_cons]
    rw [hend]
    exact hback
  · rintro ⟨hend, hdot⟩
    refine ⟨host.take (host.length - name.length - 1), _, ?_, hend⟩
    have hsplit := List.take_append_drop (host.length - name.length - 1) host
    have hsucc : host.length - name.length - 1 + 1 = host.length - name.length := by omega
    rw [List.drop_eq_getElem?_toList_append, hdot, hsucc] at hsplit
    exact hsplit.symm

lemma not_behindDot {host name : Bytes} (hle : host.length ≤ name.length) :
    ¬BehindDot host name := by
  rintro ⟨front, back, rfl, hback⟩
  have hlen := caseEq_length hback
  simp only [List.length_append, List.length_cons] at hle
  omega

/-- A name of an entry without the one dot that is ignored. -/
def withoutDot (name : Bytes) : Bytes := if name.head? = some 46 then name.drop 1 else name

lemma noProxyEntryMatches_iff {entry name : Bytes} {want : Option Int} (hne : entry ≠ [])
    (hstar : entry ≠ [42]) (hentry : noProxyEntry entry = some (name, want))
    (hname : withoutDot name ≠ []) (host : Bytes) (port : Nat) :
    noProxyEntryMatches host port entry = true ↔
      (∀ w ∈ want, w = port) ∧ Covers host (withoutDot name) := by
  have hport : want.any (· ≠ (port : Int)) = true ↔ ¬∀ w ∈ want, w = port := by
    cases want <;> simp
  rw [noProxyEntryMatches, if_neg hne, if_neg hstar, hentry]
  dsimp only
  change (if want.any (· ≠ (port : Int)) = true then false
    else if withoutDot name = [] ∨ (withoutDot name).length > host.length then false
    else if asciiNcasecmp (host.drop (host.length - (withoutDot name).length))
      (withoutDot name) ≠ 0 then false
    else if (withoutDot name).length = host.length then true
    else if isIpLiteral (withoutDot name) = true then false
    else decide (host[host.length - (withoutDot name).length - 1]? = some 46)) = true ↔ _
  generalize withoutDot name = own at hname ⊢
  by_cases hwant : ∀ w ∈ want, w = port
  swap
  · rw [if_pos (hport.mpr hwant)]
    exact iff_of_false (by simp) (fun h => hwant h.1)
  rw [if_neg (fun h => hport.mp h hwant), and_iff_right hwant]
  simp only [hname, false_or]
  rcases Nat.lt_trichotomy own.length host.length with hlt | heq | hlt
  · have hcase : ¬CaseEq own host := fun h => hlt.ne (caseEq_length h)
    rw [if_neg (by omega), Covers, behindDot_iff hlt, ← asciiNcasecmp_eq_zero _ own]
    simp only [hcase, false_or, hlt.ne, if_false]
    by_cases hcmp : asciiNcasecmp (host.drop (host.length - own.length)) own = 0 <;>
      cases isIpLiteral own <;> simp [hcmp]
  · rw [if_neg (by omega), Covers, heq, Nat.sub_self, List.drop_zero]
    simp only [not_behindDot heq.ge, and_false, or_false, if_true]
    rw [show CaseEq own host ↔ CaseEq host own from ⟨CaseEq.symm, CaseEq.symm⟩,
      ← asciiNcasecmp_eq_zero]
    by_cases hcmp : asciiNcasecmp host own = 0 <;> simp [hcmp]
  · have hcase : ¬CaseEq own host := fun h => hlt.ne' (caseEq_length h)
    rw [if_pos hlt, Covers]
    simp [hcase, not_behindDot hlt.le]

/-- What an entry is made of: a name or an address, a dot in front that is ignored, brackets
around an IPv6 address and a port behind. -/
structure NoProxyEntry where
  dot : Bool
  bracketed : Bool
  name : Bytes
  port : Option Bytes
  nonempty : name ≠ []
  bare : 91 ∉ name ∧ 93 ∉ name
  noDot : name.head? ≠ some 46
  noStar : name ≠ [42]
  portDecimal : ∀ s ∈ port, Decimal.IsDecimal s
  colons : if bracketed then 2 ≤ name.count 58
    else if port = none then name.count 58 ≠ 1 else name.count 58 = 0

namespace NoProxyEntry

variable (e : NoProxyEntry) (host : Bytes) (port : Nat)

def front : Bytes := if e.dot then [46] else []

def body : Bytes := if e.bracketed then 91 :: (e.name ++ [93]) else e.name

def text : Bytes := e.front ++ e.body ++ e.port.elim [] (58 :: ·)

def PortFits : Prop := ∀ s ∈ e.port, Decimal.decimalValue s = port

/-- The entry is for the host and the port. An address is for itself only, and only itself is
for an address. -/
def Selects : Prop :=
  e.PortFits port ∧ (CaseEq e.name host ∨
    isIpLiteral e.name = false ∧ isIpLiteral host = false ∧ BehindDot host e.name)

/-- The end of an address is taken for a domain. -/
def Overreaches : Prop :=
  e.PortFits port ∧ isIpLiteral e.name = false ∧ isIpLiteral host = true ∧ BehindDot host e.name

/-- A dot in front of a bracket. -/
def Dotted : Prop := e.dot = true ∧ e.bracketed = true

variable {e host port}

lemma body_ne_nil : e.body ≠ [] := by
  unfold body
  split_ifs
  · simp
  · exact e.nonempty

lemma text_ne_nil : e.text ≠ [] := by
  unfold text
  simp [body_ne_nil]

lemma text_ne_star : e.text ≠ [42] := by
  unfold text front
  cases e.dot with
  | true => simp
  | false =>
    unfold body
    cases e.bracketed with
    | true => simp
    | false =>
      intro h
      rw [if_neg (by simp), if_neg (by simp), List.nil_append] at h
      rcases List.append_eq_cons_iff.mp h with h | ⟨rest, hname, hport⟩
      · exact e.nonempty h.1
      · rcases rest with _ | ⟨c, rest⟩
        · exact e.noStar hname
        · simp at hport

lemma port_digits {s : Bytes} (h : s ∈ e.port) : 58 ∉ s := by
  intro hin
  exact absurd ((e.portDecimal s h).2 58 hin).2 (by decide)

lemma port_strtol : e.port.map strtol = e.port.map (fun s => (Decimal.decimalValue s : Int)) := by
  cases hport : e.port with
  | none => rfl
  | some s => rw [Option.map_some, Option.map_some, strtol_decimal (e.portDecimal s hport)]

lemma withoutDot_front : withoutDot (e.front ++ e.name) = e.name := by
  unfold front withoutDot
  cases e.dot with
  | true => simp
  | false => simp [e.noDot]

/-- A name, with its port behind the only colon. -/
lemma reads_open (hopen : e.bracketed = false) :
    noProxyEntry e.text = some (e.front ++ e.name, e.port.map strtol) := by
  have htext : e.text = e.front ++ e.name ++ e.port.elim [] (58 :: ·) := by
    rw [text, body, hopen]
    rfl
  have hhead : e.text.head? ≠ some 91 := by
    rw [htext]
    unfold front
    cases e.dot with
    | true => simp
    | false =>
      cases hname : e.name with
      | nil => exact absurd hname e.nonempty
      | cons c name =>
        have hc : c ≠ 91 := fun h => e.bare.1 (by rw [hname, h]; exact List.mem_cons_self)
        simp [hc]
  have hfront : e.front.count 58 = 0 := by
    unfold front
    split_ifs <;> rfl
  have hcolons := e.colons
  rw [hopen, if_neg (by simp)] at hcolons
  rw [noProxyEntry, if_neg hhead, htext]
  cases hport : e.port with
  | none =>
    rw [hport, if_pos rfl] at hcolons
    rw [if_neg (by simpa [hfront] using hcolons)]
    simp
  | some s =>
    rw [hport, if_neg (by simp)] at hcolons
    have hdigits : s.count 58 = 0 := List.count_eq_zero.mpr (e.port_digits hport)
    have hpre : 58 ∉ e.front ++ e.name := by
      rw [← List.count_eq_zero, List.count_append, hfront, hcolons]
    have hkeep : ∀ c ∈ e.front ++ e.name, decide (c ≠ 58) = true := by
      intro c hc
      simp only [decide_eq_true_eq]
      rintro rfl
      exact hpre hc
    rw [if_pos (by simp [hfront, hcolons, hdigits]), Option.elim_some,
      List.takeWhile_append_of_pos hkeep, List.dropWhile_append_of_pos hkeep]
    simp

/-- An address in brackets, with its port behind them. -/
lemma reads_bracketed (hdot : e.dot = false) (hbracketed : e.bracketed = true) :
    noProxyEntry e.text = some (e.name, e.port.map strtol) := by
  have htext : e.text = 91 :: (e.name ++ 93 :: e.port.elim [] (58 :: ·)) := by
    rw [text, body, front, hdot, hbracketed]
    simp
  have hkeep : ∀ c ∈ e.name, decide (c ≠ 93) = true := by
    intro c hc
    simp only [decide_eq_true_eq]
    rintro rfl
    exact e.bare.2 hc
  have hname : (e.name ++ 93 :: e.port.elim [] (58 :: ·)).takeWhile (· ≠ 93) = e.name := by
    rw [List.takeWhile_append_of_pos hkeep]
    simp
  have hrest : (91 :: (e.name ++ 93 :: e.port.elim [] (58 :: ·))).dropWhile (· ≠ 93) =
      93 :: e.port.elim [] (58 :: ·) := by
    rw [List.dropWhile_cons_of_pos (by decide), List.dropWhile_append_of_pos hkeep]
    simp
  rw [noProxyEntry, htext, List.head?_cons, if_pos rfl, if_pos (by simp), hrest]
  dsimp only
  rw [List.drop_one, List.tail_cons, hname, List.drop_one, List.tail_cons]
  cases e.port with
  | none => rfl
  | some s => simp

lemma reads_dotted (h : e.Dotted) : noProxyEntry e.text = some (e.text, none) ∧
    ∃ rest, withoutDot e.text = 91 :: rest := by
  obtain ⟨hdot, hbracketed⟩ := h
  have htext : e.text = 46 :: 91 :: (e.name ++ 93 :: e.port.elim [] (58 :: ·)) := by
    rw [text, body, front, hdot, hbracketed]
    simp
  have hcolons := e.colons
  rw [hbracketed, if_pos rfl] at hcolons
  have hcount : e.text.count 58 ≠ 1 := by
    rw [htext]
    simp only [List.count_cons, List.count_append]
    omega
  refine ⟨?_, _, by rw [htext]; rfl⟩
  rw [noProxyEntry, if_neg (by simp [htext]), if_neg hcount]

lemma portFits_iff : (∀ w ∈ e.port.map strtol, w = (port : Int)) ↔ e.PortFits port := by
  rw [port_strtol, PortFits]
  cases e.port with
  | none => simp
  | some s => simp

lemma covers_iff : e.PortFits port ∧ Covers host e.name ↔
    e.Selects host port ∨ e.Overreaches host port := by
  unfold Selects Overreaches Covers
  cases isIpLiteral host
  · simp
  · simp
    tauto

lemma lower_bracket {c : UInt8} : lower c = 91 ↔ c = 91 := by
  unfold lower
  split_ifs with hupper
  · constructor
    · intro h
      rw [← UInt8.toNat_inj] at h
      simp only [UInt8.le_iff_toNat_le, UInt8.toNat_ofNat] at hupper
      simp only [UInt8.toNat_add, UInt8.toNat_ofNat] at h
      omega
    · rintro rfl
      exact absurd hupper (by decide)
  · rfl

lemma bracket_mem {a b : Bytes} (h : CaseEq a b) (ha : 91 ∈ a) : 91 ∈ b := by
  have hin : 91 ∈ b.map lower := by
    rw [← h]
    exact List.mem_map.mpr ⟨91, ha, by decide⟩
  obtain ⟨c, hc, hlower⟩ := List.mem_map.mp hin
  rw [← lower_bracket.mp hlower]
  exact hc

lemma not_covers_bracket (hhost : 91 ∉ host) (rest : Bytes) : ¬Covers host (91 :: rest) := by
  rintro (h | ⟨-, front, back, rfl, hback⟩)
  · exact hhost (bracket_mem h List.mem_cons_self)
  · exact hhost (List.mem_append_right _
      (List.mem_cons_of_mem _ (bracket_mem hback.symm List.mem_cons_self)))

/-- What the source makes of a well formed entry. -/
theorem matches_iff (hhost : 91 ∉ host) : noProxyEntryMatches host port e.text = true ↔
    ¬e.Dotted ∧ (e.Selects host port ∨ e.Overreaches host port) := by
  by_cases hdotted : e.Dotted
  · obtain ⟨hentry, rest, hrest⟩ := e.reads_dotted hdotted
    rw [noProxyEntryMatches_iff text_ne_nil text_ne_star hentry (by simp [hrest]), hrest]
    simp [hdotted, not_covers_bracket hhost]
  · have hreads : ∃ name, noProxyEntry e.text = some (name, e.port.map strtol) ∧
        withoutDot name = e.name := by
      by_cases hopen : e.bracketed = false
      · exact ⟨_, e.reads_open hopen, e.withoutDot_front⟩
      · have hbracketed : e.bracketed = true := by simpa using hopen
        have hdot : e.dot = false := by
          by_contra hdot
          exact hdotted ⟨by simpa using hdot, hbracketed⟩
        exact ⟨_, e.reads_bracketed hdot hbracketed, by simp [withoutDot, e.noDot]⟩
    obtain ⟨name, hentry, hname⟩ := hreads
    rw [noProxyEntryMatches_iff text_ne_nil text_ne_star hentry (hname ▸ e.nonempty), hname,
      portFits_iff, covers_iff, and_iff_right hdotted]

end NoProxyEntry

/-! ### The list -/

variable (s host : Bytes) (port : Nat)

/-- The entry is one of the list's. -/
def NoProxyEntry.In (e : NoProxyEntry) (s : Bytes) : Prop :=
  ∃ piece ∈ Cut.splitOn 44 s, trimOws piece = e.text

/-- The list has an asterisk among its entries. -/
def HasStar : Prop := ∃ piece ∈ Cut.splitOn 44 s, trimOws piece = [42]

/-- Every entry is an asterisk or made of a name or an address. -/
def WellFormed : Prop := ∀ piece ∈ Cut.splitOn 44 s,
  trimOws piece = [] ∨ trimOws piece = [42] ∨ ∃ e : NoProxyEntry, trimOws piece = e.text

/-- The host and the port are to be reached without the proxy. -/
def Bypassed : Prop := HasStar s ∨ ∃ e : NoProxyEntry, e.In s ∧ e.Selects host port

variable {s host port}

lemma noProxyMatches_iff (hs : WellFormed s) (hhost : 91 ∉ host) :
    noProxyMatches s host port = true ↔ host ≠ [] ∧ (HasStar s ∨ ∃ e : NoProxyEntry, e.In s ∧
      ¬e.Dotted ∧ (e.Selects host port ∨ e.Overreaches host port)) := by
  rw [noProxyMatches_eq, Bool.and_eq_true, anyPiece_iff]
  refine and_congr (by simp) ⟨?_, ?_⟩
  · rintro ⟨piece, hpiece, hmatch⟩
    rcases hs piece hpiece with hnil | hstar | ⟨e, he⟩
    · rw [hnil] at hmatch
      cases hmatch
    · exact Or.inl ⟨piece, hpiece, hstar⟩
    · rw [he, NoProxyEntry.matches_iff hhost] at hmatch
      exact Or.inr ⟨e, ⟨piece, hpiece, he⟩, hmatch⟩
  · rintro (⟨piece, hpiece, hstar⟩ | ⟨e, ⟨piece, hpiece, he⟩, hmatch⟩)
    · exact ⟨piece, hpiece, by rw [hstar]; rfl⟩
    · exact ⟨piece, hpiece, by rw [he, NoProxyEntry.matches_iff hhost]; exact hmatch⟩

/-- Where the source and what is meant agree. -/
structure NoProxyAgrees (s host : Bytes) (port : Nat) : Prop where
  reach : ∀ e : NoProxyEntry, e.In s → e.Overreaches host port → Bypassed s host port
  found : Bypassed s host port → host ≠ [] ∧ (HasStar s ∨ ∃ e : NoProxyEntry, e.In s ∧
    ¬e.Dotted ∧ (e.Selects host port ∨ e.Overreaches host port))

lemma NoProxyEntry.Overreaches.effective {e : NoProxyEntry} (h : e.Overreaches host port) :
    host ≠ [] ∧ ¬e.Dotted := by
  obtain ⟨-, hname, -, front, back, rfl, -⟩ := h
  refine ⟨by simp, fun hdotted => ?_⟩
  have hcolons := e.colons
  rw [hdotted.2, if_pos rfl] at hcolons
  have hcolon : 58 ∈ e.name := List.count_pos_iff.mp (by omega)
  simp [isIpLiteral, hcolon] at hname

theorem noProxyMatches_exact_iff (hs : WellFormed s) (hhost : 91 ∉ host) :
    (∀ a b : Bytes, noProxyMatches (a ++ 44 :: b) host port =
      (noProxyMatches a host port || noProxyMatches b host port)) ∧
    ((noProxyMatches s host port = true ↔ Bypassed s host port) ↔
      NoProxyAgrees s host port) := by
  refine ⟨fun a b => noProxyMatches_join a b host port, ?_⟩
  rw [noProxyMatches_iff hs hhost]
  constructor
  · intro hexact
    refine ⟨fun e he hover => ?_, hexact.mpr⟩
    obtain ⟨hne, hdotted⟩ := hover.effective
    exact hexact.mp ⟨hne, Or.inr ⟨e, he, hdotted, Or.inr hover⟩⟩
  · intro hagrees
    refine ⟨?_, hagrees.found⟩
    rintro ⟨-, hstar | ⟨e, he, -, hselects | hover⟩⟩
    · exact Or.inl hstar
    · exact Or.inr ⟨e, he, hselects⟩
    · exact hagrees.reach e he hover

lemma wellFormed_single {s : Bytes} (e : NoProxyEntry) (hcomma : 44 ∉ s)
    (htext : trimOws s = e.text) : WellFormed s := by
  intro piece hpiece
  rw [Cut.splitOn_of_notMem hcomma, List.mem_singleton] at hpiece
  exact Or.inr (Or.inr ⟨e, by rw [hpiece, htext]⟩)

/-- `0.0.1` and an address that ends in it. -/
theorem noProxy_overreaches :
    ¬∀ (s host : Bytes) (port : Nat), WellFormed s → 91 ∉ host →
      (noProxyMatches s host port = true ↔ Bypassed s host port) := by
  intro hexact
  let e : NoProxyEntry := ⟨false, false, ascii "0.0.1", none, by decide, by decide, by decide,
    by decide, by simp, by decide⟩
  have hmatch : noProxyMatches (ascii "0.0.1") (ascii "127.0.0.1") 443 = true := by decide +kernel
  have hiff := hexact (ascii "0.0.1") (ascii "127.0.0.1") 443
    (wellFormed_single e (by decide) (by decide +kernel)) (by decide)
  have hpieces : ∀ piece ∈ Cut.splitOn 44 (ascii "0.0.1"), trimOws piece = ascii "0.0.1" := by
    decide +kernel
  rcases hiff.mp hmatch with ⟨piece, hpiece, hstar⟩ | ⟨e, ⟨piece, hpiece, he⟩, -, hname⟩
  · rw [hpieces piece hpiece] at hstar
    exact absurd hstar (by decide)
  · rcases hname with hname | ⟨-, hhost, -⟩
    · have hlen : e.name.length ≤ e.text.length := by
        unfold NoProxyEntry.text NoProxyEntry.body
        split_ifs <;> simp <;> omega
      rw [← he, hpieces piece hpiece, caseEq_length hname] at hlen
      exact absurd hlen (by decide)
    · exact absurd hhost (by decide +kernel)

/-- A domain with a dot in front, and a host in it. -/
theorem noProxyMatches_exact_iff_domain :
    (noProxyMatches (ascii ".example.com") (ascii "api.example.com") 443 = true ↔
      Bypassed (ascii ".example.com") (ascii "api.example.com") 443) ↔
    NoProxyAgrees (ascii ".example.com") (ascii "api.example.com") 443 :=
  (noProxyMatches_exact_iff (wellFormed_single ⟨true, false, ascii "example.com", none, by decide,
    by decide, by decide, by decide, by simp, by decide⟩ (by decide) (by decide +kernel))
    (by decide)).2

end Proxy

end Zuhttp
