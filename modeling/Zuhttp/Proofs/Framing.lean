import Zuhttp.Framing
import Zuhttp.Library.Decimal

/-!
# The framing decision against its specification

The specification is stated on the fields of the response alone, without the order in
which the source makes its checks.
-/

namespace Zuhttp

open Decimal

/-- The values of the fields called `name` up to letter case, in order. -/
def fieldValues (h : Headers) (name : Bytes) : List Bytes :=
  (h.items.filter (fun f => CaseEq f.name name)).map Header.value

/-- What a `Content-Length` value may be once trimmed. -/
def ValidLength (s : Bytes) : Prop := IsDecimal s ∧ decimalValue s ≤ 2 ^ 64 - 1

/-- The responses whose framing headers must be refused. -/
def RejectsFraming (h : Headers) : Prop :=
  (fieldValues h (ascii "Content-Length") ≠ [] ∧
      fieldValues h (ascii "Transfer-Encoding") ≠ []) ∨
    1 < (fieldValues h (ascii "Content-Length")).length ∨
    1 < (fieldValues h (ascii "Transfer-Encoding")).length ∨
    (∃ v, fieldValues h (ascii "Transfer-Encoding") = [v] ∧
      ¬CaseEq (trimOws v) (ascii "chunked")) ∨
    ∃ v, fieldValues h (ascii "Content-Length") = [v] ∧ ¬ValidLength (trimOws v)

/-- The framing of a response whose framing headers are accepted. -/
def FramingOf (h : Headers) (status : Int) (methodIsHead : Bool) (kind : FrameKind)
    (length : Nat) : Prop :=
  if methodIsHead = true ∨ (100 ≤ status ∧ status ≤ 199) ∨ status = 204 ∨ status = 304 then
    kind = .none
  else if fieldValues h (ascii "Transfer-Encoding") ≠ [] then kind = .chunked
  else
    match fieldValues h (ascii "Content-Length") with
    | v :: _ => kind = .length ∧ length = decimalValue (trimOws v)
    | [] => kind = .untilClose

/-- Trimming removes the blanks at both ends and nothing else. -/
theorem trimOws_spec (s : Bytes) :
    ∃ pre post, s = pre ++ trimOws s ++ post ∧ (∀ c ∈ pre, isOws c = true) ∧
      (∀ c ∈ post, isOws c = true) ∧
      (∀ c ∈ (trimOws s).head?, isOws c = false) ∧
      ∀ c ∈ (trimOws s).getLast?, isOws c = false := by
  have hfront : s.takeWhile isOws ++ s.dropWhile isOws = s := List.takeWhile_append_dropWhile
  have hback : (s.dropWhile isOws).rdropWhile isOws ++ (s.dropWhile isOws).rtakeWhile isOws =
      s.dropWhile isOws := List.rdropWhile_append_rtakeWhile
  refine ⟨s.takeWhile isOws, (s.dropWhile isOws).rtakeWhile isOws, ?_, ?_, ?_, ?_, ?_⟩
  · rw [trimOws, List.append_assoc, hback, hfront]
  · exact fun c hc => List.mem_takeWhile_imp hc
  · exact fun c hc => List.mem_rtakeWhile_imp hc
  · intro c hc
    have hpre : trimOws s <+: s.dropWhile isOws := List.rdropWhile_prefix isOws _
    have hhead : (s.dropWhile isOws).head? = some c := by
      obtain ⟨t, ht⟩ := hpre
      rw [← ht, List.head?_append, Option.mem_def.mp hc, Option.some_or]
    have := List.head?_dropWhile_not isOws s
    rw [hhead] at this
    simpa using this
  · intro c hc
    have hne : trimOws s ≠ [] := by
      rintro hnil
      simp [hnil] at hc
    have hlast := List.rdropWhile_last_not isOws (s.dropWhile isOws) hne
    have : (trimOws s).getLast hne = c := by
      simpa [List.getLast?_eq_getLast_of_ne_nil hne] using hc
    rw [← this]
    simpa [trimOws] using hlast

lemma count_eq (h : Headers) (name : Bytes) : h.count name = (fieldValues h name).length := by
  simp [Headers.count, Headers.named, fieldValues, asciiNcasecmp_eq_zero]

lemma get_eq (h : Headers) (name : Bytes) : h.get name = (fieldValues h name).head? := by
  simp [Headers.get, Headers.getAt, Headers.named, fieldValues, asciiNcasecmp_eq_zero,
    List.head?_eq_getElem?]

lemma isDigit_iff (c : UInt8) : (48 ≤ c ∧ c ≤ 57) ↔ ¬(c < 48 ∨ c > 57) := by
  simp only [not_or, UInt8.not_lt]

lemma parseU64_overflow_iff (v d : Nat) (hd : d ≤ 9) :
    v > (u64Max - d) / 10 ↔ ¬(v * 10 + d ≤ u64Max) := by
  unfold u64Max
  omega

lemma digit_le (c : UInt8) (h : ¬(c < 48 ∨ c > 57)) : c.toNat - 48 ≤ 9 := by
  have hc : ¬c > 57 := fun h' => h (Or.inr h')
  have hle : c.toNat ≤ 57 := by
    simpa [UInt8.not_lt, UInt8.le_iff_toNat_le] using hc
  omega

lemma parseU64From_eq_some (s : Bytes) (v w : Nat) (hv : v ≤ u64Max) :
    parseU64From v s = some w ↔
      (∀ c ∈ s, 48 ≤ c ∧ c ≤ 57) ∧ w = v * 10 ^ s.length + decimalValue s ∧ w ≤ u64Max := by
  induction s generalizing v with
  | nil =>
    simp only [parseU64From, Option.some.injEq, List.not_mem_nil, false_implies, implies_true,
      List.length_nil, pow_zero, mul_one, decimalValue_nil, add_zero, true_and]
    constructor
    · rintro rfl
      exact ⟨rfl, hv⟩
    · rintro ⟨rfl, _⟩
      rfl
  | cons c s ih =>
    by_cases hc : c < 48 ∨ c > 57
    · simp only [parseU64From, hc, if_true, reduceCtorEq, false_iff]
      rintro ⟨hall, -, -⟩
      exact (isDigit_iff c).mp (hall c List.mem_cons_self) hc
    · have hdigit := digit_le c hc
      have hvalue : v * 10 ^ (c :: s).length + decimalValue (c :: s) =
          (v * 10 + (c.toNat - 48)) * 10 ^ s.length + decimalValue s := by
        rw [decimalValue_cons, List.length_cons, pow_succ]
        ring
      by_cases hov : v > (u64Max - (c.toNat - 48)) / 10
      · have hbig := (parseU64_overflow_iff v _ hdigit).mp hov
        have hpow : 1 ≤ 10 ^ s.length := Nat.one_le_pow _ _ (by omega)
        have hgrow : v * 10 + (c.toNat - 48) ≤
            v * 10 ^ (c :: s).length + decimalValue (c :: s) := by
          rw [hvalue]
          nlinarith
        simp only [parseU64From, hc, if_false, hov, if_true, reduceCtorEq, false_iff]
        rintro ⟨-, rfl, hle⟩
        omega
      · have hfits : v * 10 + (c.toNat - 48) ≤ u64Max := by
          by_contra hbig
          exact hov ((parseU64_overflow_iff v _ hdigit).mpr hbig)
        simp only [parseU64From, hc, hov, if_false, ih _ hfits, hvalue, List.forall_mem_cons,
          (isDigit_iff c).mpr hc, true_and, and_self]

/-- The strict parser accepts exactly the decimal strings below `2 ^ 64`, at their value. -/
theorem parseU64Strict_eq_some (s : Bytes) (w : Nat) :
    parseU64Strict s = some w ↔ ValidLength s ∧ w = decimalValue s := by
  cases s with
  | nil => simp [parseU64Strict, ValidLength, IsDecimal]
  | cons c s =>
    simp only [parseU64Strict, List.isEmpty_cons, Bool.false_eq_true, if_false, ValidLength,
      IsDecimal]
    rw [parseU64From_eq_some _ 0 w (by simp [u64Max])]
    simp only [zero_mul, zero_add, u64Max, ne_eq, reduceCtorEq, not_false_eq_true, true_and]
    constructor
    · rintro ⟨hall, rfl, hle⟩
      exact ⟨⟨hall, hle⟩, rfl⟩
    · rintro ⟨⟨hall, hle⟩, rfl⟩
      exact ⟨hall, rfl, hle⟩

lemma parseU64Strict_eq_none (s : Bytes) : parseU64Strict s = none ↔ ¬ValidLength s := by
  constructor
  · intro hnone hvalid
    have := (parseU64Strict_eq_some s _).mpr ⟨hvalid, rfl⟩
    simp [hnone] at this
  · intro hinvalid
    cases hs : parseU64Strict s with
    | none => rfl
    | some w => exact absurd ((parseU64Strict_eq_some s w).mp hs).1 hinvalid

lemma statusBodyless_iff (status : Int) :
    statusBodyless status = true ↔
      (100 ≤ status ∧ status ≤ 199) ∨ status = 204 ∨ status = 304 := by
  simp [statusBodyless]

lemma framingDecide_rejects (h : Headers) (status : Int) (methodIsHead : Bool)
    (hstatus : ¬(status < 100 ∨ status > 599)) (hrej : RejectsFraming h) :
    ∃ e, framingDecide h status methodIsHead = .error e := by
  simp only [framingDecide, hstatus, if_false, count_eq, get_eq]
  rcases hrej with ⟨hcl, hte⟩ | hcl | hte | ⟨v, hte, hv⟩ | ⟨v, hcl, hv⟩
  · simp [List.length_pos_iff, hcl, hte]
  · have hpos : 0 < (fieldValues h (ascii "Content-Length")).length := by omega
    by_cases hte : 0 < (fieldValues h (ascii "Transfer-Encoding")).length
    · simp only [hpos, hte, and_self, if_true]
      exact ⟨_, rfl⟩
    · simp only [hte, and_false, if_false, gt_iff_lt, hcl, if_true]
      exact ⟨_, rfl⟩
  · by_cases hcl : 0 < (fieldValues h (ascii "Content-Length")).length
    · have hpos : 0 < (fieldValues h (ascii "Transfer-Encoding")).length := by omega
      simp only [hcl, hpos, and_self, if_true]
      exact ⟨_, rfl⟩
    · have hone : ¬1 < (fieldValues h (ascii "Content-Length")).length := by omega
      simp only [gt_iff_lt, hcl, hone, false_and, if_false, hte, if_true]
      exact ⟨_, rfl⟩
  · have hne : asciiNcasecmp (trimOws v) (ascii "chunked") ≠ 0 := by
      simpa only [ne_eq, asciiNcasecmp_eq_zero] using hv
    simp only [hte, List.length_singleton, List.head?_cons, Option.getD_some, ne_eq, hne,
      not_false_eq_true, and_self, if_true]
    split_ifs <;> exact ⟨_, rfl⟩
  · have hnone := (parseU64Strict_eq_none _).mpr hv
    simp only [hcl, List.length_singleton, List.head?_cons, Option.getD_some, hnone, if_true]
    split_ifs <;> exact ⟨_, rfl⟩

lemma framingDecide_accepts (h : Headers) (status : Int) (methodIsHead : Bool)
    (hstatus : ¬(status < 100 ∨ status > 599)) (hacc : ¬RejectsFraming h) :
    ∃ f, framingDecide h status methodIsHead = .ok f ∧
      FramingOf h status methodIsHead f.kind f.length ∧
      (f.poolable = true ↔ f.kind ≠ .untilClose) := by
  simp only [RejectsFraming, not_or, not_exists, not_and, not_not] at hacc
  obtain ⟨hboth, hcl, hte, hchunked, hlength⟩ := hacc
  simp only [framingDecide, hstatus, if_false, count_eq, get_eq, FramingOf, statusBodyless_iff]
  generalize fieldValues h (ascii "Content-Length") = cl at *
  generalize fieldValues h (ascii "Transfer-Encoding") = te at *
  match cl, te with
  | [], [] =>
    by_cases hbody : methodIsHead = true ∨ (100 ≤ status ∧ status ≤ 199) ∨ status = 204 ∨
        status = 304
    · simp [hbody]
    · simp [hbody]
  | [], [v] =>
    have hv : asciiNcasecmp (trimOws v) (ascii "chunked") = 0 :=
      (asciiNcasecmp_eq_zero _ _).mpr (hchunked v rfl)
    by_cases hbody : methodIsHead = true ∨ (100 ≤ status ∧ status ≤ 199) ∨ status = 204 ∨
        status = 304
    · simp [hbody, hv]
    · simp [hbody, hv]
  | [v], [] =>
    have hv := (parseU64Strict_eq_some _ _).mpr ⟨hlength v rfl, rfl⟩
    by_cases hbody : methodIsHead = true ∨ (100 ≤ status ∧ status ≤ 199) ∨ status = 204 ∨
        status = 304
    · simp [hbody, hv]
    · simp [hbody, hv]
  | _ :: _, _ :: _ => simp at hboth
  | _ :: _ :: _, [] => simp at hcl
  | [], _ :: _ :: _ => simp at hte

/-- The decision is the specified one on every header list, status and method. -/
theorem framingDecide_conforms (h : Headers) (status : Int) (methodIsHead : Bool)
    (hlow : 100 ≤ status) (hhigh : status ≤ 599) :
    (RejectsFraming h ↔ ∃ e, framingDecide h status methodIsHead = .error e) ∧
      ∀ f, framingDecide h status methodIsHead = .ok f →
        FramingOf h status methodIsHead f.kind f.length ∧
          (f.poolable = true ↔ f.kind ≠ .untilClose) := by
  have hstatus : ¬(status < 100 ∨ status > 599) := by omega
  by_cases hrej : RejectsFraming h
  · obtain ⟨e, he⟩ := framingDecide_rejects h status methodIsHead hstatus hrej
    simp [hrej, he]
  · obtain ⟨f, hf, hspec⟩ := framingDecide_accepts h status methodIsHead hstatus hrej
    refine ⟨⟨fun h' => absurd h' hrej, fun ⟨e, he⟩ => ?_⟩, ?_⟩
    · rw [hf] at he
      cases he
    · intro f' hf'
      rw [hf] at hf'
      cases hf'
      exact hspec

/-- A response with the one field `transfer-encoding: Chunked`, padded by blanks. -/
def paddedChunked : Headers :=
  { Headers.init with
    items := [⟨ascii "transfer-encoding", ascii " Chunked\t", by decide, by decide⟩] }

theorem framingDecide_conforms_padded :
    ¬RejectsFraming paddedChunked ∧ FramingOf paddedChunked 200 false .chunked 0 := by
  have hok : framingDecide paddedChunked 200 false = .ok ⟨.chunked, 0, true⟩ := by decide
  obtain ⟨hrej, hacc⟩ := framingDecide_conforms paddedChunked 200 false (by decide) (by decide)
  refine ⟨?_, (hacc _ hok).1⟩
  rw [hrej, hok]
  rintro ⟨e, he⟩
  cases he

end Zuhttp
