import Zuhttp.Dechunk

/-!
# The chunk decoder against the reference

The decoder may be fed a stream in any pieces: what it copies is what one scan of the whole
stream copies (`scan_append`), and that is the data the reference reads (`scan_dechunk`).
-/

namespace Zuhttp

open Phr Dechunk

@[simp] lemma prepend_nil (r : Decoded) : r.prepend [] = r := rfl

@[simp] lemma prepend_out (copied : Bytes) (r : Decoded) :
    (r.prepend copied).out = copied ++ r.out := rfl

@[simp] lemma prepend_ending (copied : Bytes) (r : Decoded) :
    (r.prepend copied).ending = r.ending := rfl

@[simp] lemma prepend_rest (copied : Bytes) (r : Decoded) :
    (r.prepend copied).rest = r.rest := rfl

@[simp] lemma prepend_pos (copied : Bytes) (r : Decoded) :
    (r.prepend copied).pos = r.pos := rfl

lemma prepend_prepend (a b : Bytes) (r : Decoded) :
    (r.prepend b).prepend a = r.prepend (a ++ b) := by
  simp [Decoded.prepend]

/-- Scanning two pieces is scanning the first and going on where it stopped. -/
theorem scan_append (d : ChunkPos) (s t : Bytes) :
    scan d (s ++ t) =
      match (scan d s).ending with
      | .incomplete => (scan (scan d s).pos t).prepend (scan d s).out
      | _ => { scan d s with rest := (scan d s).rest ++ t } := by
  induction s generalizing d with
  | nil => simp [scan]
  | cons c s ih =>
    rw [List.cons_append, scan, scan]
    cases hbyte : decodeByte d c with
    | take d' copied =>
      simp only [ih d', prepend_ending, prepend_pos, prepend_out, prepend_rest]
      cases (scan d' s).ending <;> simp [Decoded.prepend]
    | refuse => rfl
    | last d' => rfl

lemma decodeByte_copied {d d' : ChunkPos} {c : UInt8} {copied : Bytes}
    (h : decodeByte d c = .take d' copied) : copied.length ≤ 1 := by
  have hext : ∀ e : ChunkPos, extByte e c = .take d' copied → copied = [] := by
    intro e he
    unfold extByte at he
    split_ifs at he <;> cases he <;> rfl
  unfold decodeByte at h
  split at h
  · split at h
    · split_ifs at h
      cases h
      simp
    · split_ifs at h
      rw [hext _ h]
      simp
  · rw [hext _ h]
    simp
  · split_ifs at h
    cases h
    simp
  · cases h
    simp
  · split_ifs at h
    cases h
    simp
  · split_ifs at h
    cases h
    simp

/-- What is copied and what is left unread are no more than what was given, and a refused
byte is left unread. -/
lemma scan_length (d : ChunkPos) (s : Bytes) :
    (scan d s).out.length + (scan d s).rest.length ≤ s.length ∧
      ((scan d s).ending = .malformed → (scan d s).rest ≠ []) := by
  induction s generalizing d with
  | nil => simp [scan]
  | cons c s ih =>
    rw [scan]
    cases hbyte : decodeByte d c with
    | take d' copied =>
      have hcopied := decodeByte_copied hbyte
      obtain ⟨hlen, hbad⟩ := ih d'
      simp only [prepend_out, prepend_rest, prepend_ending, List.length_append,
        List.length_cons]
      exact ⟨by omega, hbad⟩
    | refuse => simp
    | last d' => simp

/-! ### The parts of a chunk -/

/-- The scan stops in front of what the reference does not accept, and copies nothing. -/
def Stops (r : Decoded) : Prop := r.out = [] ∧ r.ending ≠ .complete

lemma stops_nil (d : ChunkPos) : Stops (scan d []) := by
  simp [Stops, scan]

lemma stops_of_refuse {d : ChunkPos} {c : UInt8} {s : Bytes} (h : decodeByte d c = .refuse) :
    Stops (scan d (c :: s)) := by
  simp [Stops, scan, h]

lemma scan_take {d d' : ChunkPos} {c : UInt8} {copied s : Bytes}
    (h : decodeByte d c = .take d' copied) :
    scan d (c :: s) = (scan d' s).prepend copied := by
  rw [scan, h]

/-- After a chunk-size line: the data of the chunk, or the end of the last one. -/
def afterSize (size : Nat) (rest : Bytes) (r : Decoded) : Prop :=
  if size = 0 then r.out = [] ∧ r.ending = .complete ∧ r.rest = rest
  else r = scan ⟨size, 0, .inChunkData⟩ rest

lemma scan_headerLf (left : Nat) (s : Bytes) :
    match s with
    | 10 :: rest => afterSize left rest (scan ⟨left, 0, .inChunkHeaderExpectLf⟩ s)
    | _ => Stops (scan ⟨left, 0, .inChunkHeaderExpectLf⟩ s) := by
  split
  · next rest =>
    unfold afterSize
    by_cases hleft : left = 0
    · simp [scan, decodeByte, hleft]
    · have hbyte : decodeByte ⟨left, 0, .inChunkHeaderExpectLf⟩ 10 =
          .take ⟨left, 0, .inChunkData⟩ [] := by
        simp [decodeByte, hleft]
      rw [if_neg hleft, scan_take hbyte, prepend_nil]
  · next hne =>
    cases s with
    | nil => exact stops_nil _
    | cons c s =>
      have hc : c ≠ 10 := by
        rintro rfl
        exact hne s rfl
      exact stops_of_refuse (by simp [decodeByte, hc])

/-- What the reference makes of the line behind the size. -/
def lineEnd (left : Nat) (ext rest : Bytes) (r : Decoded) : Prop :=
  if (10 : UInt8) ∈ ext then Stops r
  else
    match rest with
    | 13 :: 10 :: rest => afterSize left rest r
    | _ => Stops r

lemma scan_ext (left : Nat) (s : Bytes) :
    lineEnd left (s.takeWhile (· ≠ 13)) (s.dropWhile (· ≠ 13))
      (scan ⟨left, 0, .inChunkExt⟩ s) := by
  induction s with
  | nil => exact stops_nil _
  | cons c s ih =>
    by_cases hcr : c = 13
    · subst hcr
      have hbyte : decodeByte ⟨left, 0, .inChunkExt⟩ 13 =
          .take ⟨left, 0, .inChunkHeaderExpectLf⟩ [] := by
        simp [decodeByte, extByte]
      rw [scan_take hbyte, prepend_nil]
      have hlf := scan_headerLf left s
      unfold lineEnd
      rw [if_neg (by simp)]
      cases s with
      | nil => exact hlf
      | cons c s =>
        by_cases hc : c = 10
        · subst hc
          simpa using hlf
        · simp only [ne_eq, not_true_eq_false, decide_false, Bool.false_eq_true,
            not_false_eq_true, List.dropWhile_cons_of_neg]
          split at hlf
          · next heq => simp_all
          · split
            · next heq => simp_all
            · exact hlf
    · by_cases hlf : c = 10
      · subst hlf
        unfold lineEnd
        rw [if_pos (by simp)]
        exact stops_of_refuse (by simp [decodeByte, extByte])
      · have hbyte : decodeByte ⟨left, 0, .inChunkExt⟩ c = .take ⟨left, 0, .inChunkExt⟩ [] := by
          simp [decodeByte, extByte, hcr, hlf]
        rw [scan_take hbyte, prepend_nil]
        have hne : (10 : UInt8) ≠ c := fun h => hlf h.symm
        simpa [lineEnd, hcr, hne] using ih

/-- What the reference makes of the digits of a size, `h` of them already read. -/
def sizeEnd (v h : Nat) (digits behind : Bytes) (r : Decoded) : Prop :=
  if h + digits.length = 0 ∨ 16 < h + digits.length ∨ ¬ValidExt (behind.takeWhile (· ≠ 13)) then
    Stops r
  else
    match behind.dropWhile (· ≠ 13) with
    | 13 :: 10 :: rest =>
      afterSize (digits.foldl (fun v c => v * 16 + (decodeHex c).getD 0) v) rest r
    | _ => Stops r

lemma sizeEnd_cons {v h x : Nat} {c : UInt8} {digits behind : Bytes} {r : Decoded}
    (hx : decodeHex c = some x) (hr : sizeEnd (v * 16 + x) (h + 1) digits behind r) :
    sizeEnd v h (c :: digits) behind r := by
  have hlen : h + (c :: digits).length = h + 1 + digits.length := by
    simp only [List.length_cons]
    omega
  unfold sizeEnd at hr ⊢
  rw [hlen, List.foldl_cons, hx]
  exact hr

/-- After the digits, the extension: its first byte is the one that ended the size. -/
lemma scan_size_ext (v h : Nat) (c : UInt8) (s : Bytes) (hh : 0 < h) (hh' : h ≤ 16)
    (hc : decodeHex c = none) :
    sizeEnd v h [] (c :: s) (scan ⟨v, h, .inChunkSize⟩ (c :: s)) := by
  have hpos : ¬(h + ([] : Bytes).length = 0) := by
    simp only [List.length_nil]
    omega
  have hmax : ¬16 < h + ([] : Bytes).length := by
    simp only [List.length_nil]
    omega
  by_cases hset : c = 32 ∨ c = 9 ∨ c = 59 ∨ c = 10 ∨ c = 13
  · by_cases hlf : c = 10
    · subst hlf
      unfold sizeEnd
      rw [if_pos (by simp [ValidExt])]
      exact stops_of_refuse (by simp [decodeByte, hc, extByte, hh.ne'])
    · have hscan : scan ⟨v, h, .inChunkSize⟩ (c :: s) = scan ⟨v, 0, .inChunkExt⟩ (c :: s) := by
        have hbyte : decodeByte ⟨v, h, .inChunkSize⟩ c = decodeByte ⟨v, 0, .inChunkExt⟩ c := by
          unfold decodeByte extByte
          simp only [hc]
          rw [if_neg hh.ne', if_pos hset]
        rw [scan, hbyte]
        cases hstep : decodeByte ⟨v, 0, .inChunkExt⟩ c with
        | take d' copied => rw [scan, hstep]
        | refuse =>
          unfold decodeByte extByte at hstep
          split_ifs at hstep
        | last d' =>
          unfold decodeByte extByte at hstep
          split_ifs at hstep
      have hhead : ∀ d ∈ ((c :: s).takeWhile (· ≠ 13)).head?, d = 32 ∨ d = 9 ∨ d = 59 := by
        intro d hd
        by_cases hcr : c = 13
        · simp [hcr] at hd
        · simp only [ne_eq, hcr, not_false_eq_true, decide_true, List.takeWhile_cons_of_pos,
            List.head?_cons, Option.mem_def, Option.some.injEq] at hd
          subst hd
          tauto
      have hext := scan_ext v (c :: s)
      rw [← hscan] at hext
      unfold lineEnd at hext
      unfold sizeEnd ValidExt
      by_cases hin : (10 : UInt8) ∈ (c :: s).takeWhile (· ≠ 13)
      · rw [if_pos hin] at hext
        rw [if_pos (Or.inr (Or.inr (fun hvalid => hvalid.2 hin)))]
        exact hext
      · rw [if_neg hin] at hext
        rw [if_neg (by
          rintro (h0 | h16 | hvalid)
          · exact hpos h0
          · exact hmax h16
          · exact hvalid ⟨hhead, hin⟩)]
        exact hext
  · have hcr : c ≠ 13 := fun h => hset (by tauto)
    unfold sizeEnd
    rw [if_pos (Or.inr (Or.inr (fun hvalid => hset (by
      have hhead := hvalid.1 c (by simp [hcr])
      tauto))))]
    exact stops_of_refuse (by simp only [decodeByte, hc, hh.ne', hset, if_false])

lemma scan_size (v h : Nat) (s : Bytes) (hh : h ≤ 16) :
    sizeEnd v h (s.takeWhile isHexDigit) (s.dropWhile isHexDigit)
      (scan ⟨v, h, .inChunkSize⟩ s) := by
  induction s generalizing v h with
  | nil =>
    unfold sizeEnd
    split_ifs
    · exact stops_nil _
    · exact stops_nil _
  | cons c s ih =>
    cases hc : decodeHex c with
    | some x =>
      have hdigit : isHexDigit c = true := by simp [isHexDigit, hc]
      rw [List.takeWhile_cons_of_pos hdigit, List.dropWhile_cons_of_pos hdigit]
      by_cases hfull : h = 16
      · unfold sizeEnd
        rw [if_pos (Or.inr (Or.inl (by simp only [List.length_cons]; omega)))]
        exact stops_of_refuse (by simp [decodeByte, hc, hfull])
      · have hbyte : decodeByte ⟨v, h, .inChunkSize⟩ c =
            .take ⟨v * 16 + x, h + 1, .inChunkSize⟩ [] := by
          simp [decodeByte, hc, hfull]
        rw [scan_take hbyte, prepend_nil]
        exact sizeEnd_cons hc (ih _ _ (by omega))
    | none =>
      have hdigit : ¬isHexDigit c = true := by simp [isHexDigit, hc]
      rw [List.takeWhile_cons_of_neg hdigit, List.dropWhile_cons_of_neg hdigit]
      by_cases hpos : h = 0
      · subst hpos
        unfold sizeEnd
        rw [if_pos (Or.inl (by simp))]
        exact stops_of_refuse (by simp [decodeByte, hc])
      · exact scan_size_ext v h c s (by omega) hh hc

/-- A chunk-size line is scanned as the reference reads it. -/
lemma scan_sizeLine (s : Bytes) :
    match sizeLine s with
    | some (size, rest) => afterSize size rest (scan {} s)
    | none => Stops (scan {} s) := by
  have hsize := scan_size 0 0 s (by omega)
  unfold sizeEnd at hsize
  unfold sizeLine
  simp only [Nat.zero_add, List.length_eq_zero_iff] at hsize ⊢
  split_ifs at hsize ⊢
  · exact hsize
  · revert hsize
    generalize (s.dropWhile isHexDigit).dropWhile (· ≠ 13) = behind
    intro hsize
    by_cases hcrlf : ∃ rest, behind = 13 :: 10 :: rest
    · obtain ⟨rest, rfl⟩ := hcrlf
      exact hsize
    · have hnone : ∀ rest, ¬behind = 13 :: 10 :: rest := fun rest h => hcrlf ⟨rest, h⟩
      split at hsize
      · exact absurd rfl (hnone _)
      · split
        · next heq => grind
        · exact hsize

lemma scan_data (left : Nat) (s : Bytes) (hleft : 0 < left) :
    scan ⟨left, 0, .inChunkData⟩ s =
      if s.length < left then ⟨⟨left - s.length, 0, .inChunkData⟩, s, [], .incomplete⟩
      else (scan ⟨0, 0, .inChunkDataExpectCr⟩ (s.drop left)).prepend (s.take left) := by
  induction s generalizing left with
  | nil => simp [scan, hleft]
  | cons c s ih =>
    obtain ⟨left, rfl⟩ : ∃ n, left = n + 1 := ⟨left - 1, by omega⟩
    by_cases hlast : left = 0
    · subst hlast
      have hbyte : decodeByte ⟨0 + 1, 0, .inChunkData⟩ c =
          .take ⟨0, 0, .inChunkDataExpectCr⟩ [c] := by
        simp [decodeByte]
      rw [scan_take hbyte, if_neg (by simp)]
      rfl
    · have hbyte : decodeByte ⟨left + 1, 0, .inChunkData⟩ c =
          .take ⟨left, 0, .inChunkData⟩ [c] := by
        simp [decodeByte, hlast]
      rw [scan_take hbyte, ih left (by omega)]
      simp only [List.length_cons, Nat.add_lt_add_iff_right, List.drop_succ_cons,
        List.take_succ_cons]
      split_ifs
      · simp [Decoded.prepend]
      · rw [prepend_prepend]
        rfl

lemma scan_crlf (s : Bytes) :
    match s with
    | 13 :: 10 :: rest => scan ⟨0, 0, .inChunkDataExpectCr⟩ s = scan {} rest
    | _ => Stops (scan ⟨0, 0, .inChunkDataExpectCr⟩ s) := by
  split
  · next rest =>
    have hcr : decodeByte ⟨0, 0, .inChunkDataExpectCr⟩ 13 =
        .take ⟨0, 0, .inChunkDataExpectLf⟩ [] := by simp [decodeByte]
    have hlf : decodeByte ⟨0, 0, .inChunkDataExpectLf⟩ 10 = .take {} [] := by simp [decodeByte]
    rw [scan_take hcr, scan_take hlf, prepend_nil, prepend_nil]
  · next hne =>
    cases s with
    | nil => exact stops_nil _
    | cons c s =>
      by_cases hcr : c = 13
      · subst hcr
        have hbyte : decodeByte ⟨0, 0, .inChunkDataExpectCr⟩ 13 =
            .take ⟨0, 0, .inChunkDataExpectLf⟩ [] := by simp [decodeByte]
        rw [scan_take hbyte, prepend_nil]
        cases s with
        | nil => exact stops_nil _
        | cons c s =>
          have hlf : c ≠ 10 := by
            rintro rfl
            exact hne s rfl
          exact stops_of_refuse (by simp [decodeByte, hlf])
      · exact stops_of_refuse (by simp [decodeByte, hcr])

/-- The scan and the reference agree: on the data, on whether the last chunk was reached,
and on what follows it. -/
def Matches (r : Decoded) (ref : Bytes × Option Bytes) : Prop :=
  r.out = ref.1 ∧ match ref.2 with
    | some rest => r.ending = .complete ∧ r.rest = rest
    | none => r.ending ≠ .complete

lemma matches_prepend {r : Decoded} {ref : Bytes × Option Bytes} (data : Bytes)
    (h : Matches r ref) : Matches (r.prepend data) (data ++ ref.1, ref.2) := by
  unfold Matches at h ⊢
  rw [prepend_out, h.1, prepend_ending, prepend_rest]
  exact ⟨rfl, h.2⟩

lemma sizeLine_length {s rest : Bytes} {size : Nat} (h : sizeLine s = some (size, rest)) :
    rest.length < s.length := by
  unfold sizeLine at h
  simp only at h
  split_ifs at h
  split at h
  · next heq =>
    simp only [Option.some.injEq, Prod.mk.injEq] at h
    have hdrop := (List.dropWhile_sublist (l := s.dropWhile isHexDigit)
      (fun c => decide (c ≠ 13))).length_le
    have hhex := (List.dropWhile_sublist (l := s) isHexDigit).length_le
    rw [heq] at hdrop
    simp only [List.length_cons] at hdrop
    rw [← h.2]
    omega
  · cases h

lemma scan_dechunkN (n : Nat) (s : Bytes) (hn : s.length < n) :
    Matches (scan {} s) (dechunkN n s) := by
  induction n generalizing s with
  | zero => omega
  | succ n ih =>
    have hline := scan_sizeLine s
    unfold dechunkN
    cases hsize : sizeLine s with
    | none =>
      rw [hsize] at hline
      exact ⟨hline.1, hline.2⟩
    | some p =>
      obtain ⟨size, rest⟩ := p
      have hshort := sizeLine_length hsize
      rw [hsize] at hline
      simp only at hline ⊢
      unfold afterSize at hline
      by_cases hzero : size = 0
      · rw [if_pos hzero] at hline ⊢
        exact ⟨hline.1, hline.2.1, hline.2.2⟩
      · rw [if_neg hzero] at hline ⊢
        rw [hline, scan_data size rest (by omega)]
        have hcrlf := scan_crlf (rest.drop size)
        by_cases hlen : rest.length < size
        · rw [if_pos hlen, List.drop_eq_nil_of_le hlen.le, List.take_of_length_le hlen.le]
          simp [Matches]
        · rw [if_neg hlen]
          split
          · next rest' heq =>
            rw [heq] at hcrlf ⊢
            simp only at hcrlf
            rw [hcrlf]
            have hshort' : rest'.length < n := by
              have := congrArg List.length heq
              simp only [List.length_drop, List.length_cons] at this
              omega
            exact matches_prepend _ (ih rest' hshort')
          · next hne =>
            split at hcrlf
            · next heq => exact absurd heq (hne _)
            · unfold Matches
              simp only [prepend_out, prepend_ending]
              exact ⟨by rw [hcrlf.1, List.append_nil], hcrlf.2⟩

/-- The decoder reads a stream as the reference does. -/
theorem scan_dechunk (s : Bytes) : Matches (scan {} s) (dechunk s) :=
  scan_dechunkN _ s (by omega)

lemma scan_out_initial (s more : Bytes) : (scan {} s).out <+: (dechunk (s ++ more)).1 := by
  rw [← (scan_dechunk (s ++ more)).1, scan_append]
  cases (scan {} s).ending with
  | incomplete => exact List.prefix_append _ _
  | malformed => exact List.prefix_refl _
  | complete => exact List.prefix_refl _

lemma dechunk_of_complete {s : Bytes} (more : Bytes) (h : (scan {} s).ending = .complete) :
    dechunk (s ++ more) = ((scan {} s).out, some ((scan {} s).rest ++ more)) := by
  obtain ⟨hout, hend⟩ := scan_dechunk (s ++ more)
  rw [scan_append, h] at hout hend
  cases href : (dechunk (s ++ more)).2 with
  | none =>
    rw [href] at hend
    exact absurd h hend
  | some rest =>
    rw [href] at hend
    exact Prod.ext hout.symm (by rw [href, ← hend.2])

end Zuhttp
