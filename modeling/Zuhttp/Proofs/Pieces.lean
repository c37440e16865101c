import Zuhttp.Bytes
import Zuhttp.Library.Cut

/-!
# Comma-separated lists

The scanners of the source skip commas and blanks, take what stands in front of the next
comma and drop the blanks at its end. They see the trimmed pieces between the commas.
-/

namespace Zuhttp

lemma trimOws_of_head {s : Bytes} (h : ∀ c ∈ s.head?, isOws c = false) :
    trimOws s = s.rdropWhile isOws := by
  unfold trimOws
  cases s with
  | nil => rfl
  | cons c s => rw [List.dropWhile_cons_of_neg (by simp [h c rfl])]

lemma trimOws_blank {c : UInt8} (h : isOws c = true) (s : Bytes) :
    trimOws (c :: s) = trimOws s := by
  unfold trimOws
  rw [List.dropWhile_cons_of_pos h]

variable {f : Bytes → Bool} {gap : UInt8 → Bool}

/-- Some trimmed piece is one that `f` takes. -/
def anyPiece (f : Bytes → Bool) (s : Bytes) : Bool :=
  (Cut.splitOn 44 s).any (fun piece => f (trimOws piece))

lemma anyPiece_iff (s : Bytes) : anyPiece f s = true ↔
    ∃ piece ∈ Cut.splitOn 44 s, f (trimOws piece) = true := by
  simp [anyPiece]

lemma anyPiece_comma (hnil : f [] = false) (s : Bytes) :
    anyPiece f (44 :: s) = anyPiece f s := by
  simp [anyPiece, Cut.splitOn, trimOws, hnil]

lemma anyPiece_blank {c : UInt8} (hc : isOws c = true) (s : Bytes) :
    anyPiece f (c :: s) = anyPiece f s := by
  have hne : c ≠ 44 := by
    rintro rfl
    exact absurd hc (by decide)
  unfold anyPiece
  rw [Cut.splitOn, if_neg hne]
  cases hpieces : Cut.splitOn 44 s with
  | nil => exact absurd hpieces (Cut.splitOn_ne_nil 44 s)
  | cons piece pieces => simp [Cut.onto, trimOws_blank hc]

lemma anyPiece_gap (hgap : ∀ c, gap c = true ↔ c = 44 ∨ isOws c = true)
    (hnil : f [] = false) (s : Bytes) :
    anyPiece f (s.dropWhile gap) = anyPiece f s := by
  induction s with
  | nil => rfl
  | cons c s ih =>
    by_cases hc : gap c = true
    · rw [List.dropWhile_cons_of_pos hc, ih]
      rcases (hgap c).mp hc with rfl | hc
      · exact (anyPiece_comma hnil s).symm
      · exact (anyPiece_blank hc s).symm
    · rw [List.dropWhile_cons_of_neg hc]

/-- One turn of the scanner. -/
lemma anyPiece_turn (hgap : ∀ c, gap c = true ↔ c = 44 ∨ isOws c = true)
    (hnil : f [] = false) (s : Bytes) :
    anyPiece f s = (f (((s.dropWhile gap).takeWhile (· ≠ 44)).rdropWhile isOws) ||
      anyPiece f ((s.dropWhile gap).dropWhile (· ≠ 44))) := by
  rw [← anyPiece_gap hgap hnil s]
  have hhead : ∀ c ∈ ((s.dropWhile gap).takeWhile (· ≠ 44)).head?, isOws c = false := by
    intro c hc
    have hstop : ∀ d ∈ (s.dropWhile gap).head?, gap d = false := by
      intro d hd
      have hnot := List.head?_dropWhile_not gap s
      rw [hd] at hnot
      exact hnot
    cases hrest : s.dropWhile gap with
    | nil => simp [hrest] at hc
    | cons d rest =>
      have hd := hstop d (by simp [hrest])
      rw [Bool.eq_false_iff, ne_eq, hgap, not_or] at hd
      rw [hrest, List.takeWhile_cons_of_pos (by simpa using hd.1)] at hc
      cases hc
      simpa using hd.2
  generalize s.dropWhile gap = p at hhead ⊢
  have hrest : anyPiece f (p.dropWhile (· ≠ 44)) =
      (Cut.piecesBehind 44 (p.dropWhile (· ≠ 44))).any (fun piece => f (trimOws piece)) := by
    cases htail : p.dropWhile (· ≠ 44) with
    | nil => simp [anyPiece, Cut.splitOn, Cut.piecesBehind, trimOws, hnil]
    | cons c t =>
      have hc : c = 44 := by
        have hnot := List.head?_dropWhile_not (· ≠ (44 : UInt8)) p
        rw [htail] at hnot
        simpa using hnot
      rw [hc, anyPiece_comma hnil]
      rfl
  rw [hrest, anyPiece, Cut.splitOn_eq, List.any_cons, trimOws_of_head hhead]

/-- A turn of a scanner uses up a byte. -/
lemma scan_shorter (hgap : ∀ c, gap c = true ↔ c = 44 ∨ isOws c = true) {s : Bytes}
    (h : s ≠ []) : ((s.dropWhile gap).dropWhile (· ≠ 44)).length < s.length := by
  cases s with
  | nil => exact absurd rfl h
  | cons c s =>
    by_cases hc : gap c = true
    · rw [List.dropWhile_cons_of_pos hc, List.length_cons]
      have hfirst := (List.dropWhile_suffix (p := gap) (l := s)).length_le
      have hsecond := (List.dropWhile_suffix (p := (· ≠ (44 : UInt8)))
        (l := s.dropWhile gap)).length_le
      omega
    · have hne : c ≠ 44 := fun h => hc ((hgap c).mpr (Or.inl h))
      rw [List.dropWhile_cons_of_neg hc, List.dropWhile_cons_of_pos (by simpa using hne),
        List.length_cons]
      have hrest := (List.dropWhile_suffix (p := (· ≠ (44 : UInt8))) (l := s)).length_le
      omega

end Zuhttp
