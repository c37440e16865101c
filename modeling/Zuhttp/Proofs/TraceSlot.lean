import Zuhttp.Library.Utf8
import Zuhttp.TraceSlot

/-!
# What a slot holds

A detail is stored as the event log has it, closed by a NUL. The cut of a long one is in front
of a byte that begins a character.
-/

namespace Zuhttp

namespace Trace

lemma isContinuation_iff : ∀ v : Fin 256,
    isContinuation (UInt8.ofFin v) = true ↔ Utf8.IsTail (UInt8.ofFin v) := by
  decide +kernel

/-! ### The walk back -/

lemma backOff_le (src : Bytes) (keep : Nat) : backOff src keep ≤ keep := by
  induction keep with
  | zero => exact Nat.le_refl 0
  | succ keep ih =>
    rw [backOff]
    split
    · split_ifs
      · exact Nat.le_succ_of_le ih
      · exact Nat.le_refl _
    · exact Nat.le_refl _

/-- The walk ends at the start of the text or in front of a character. -/
lemma backOff_stops (src : Bytes) (keep : Nat) :
    backOff src keep = 0 ∨ ∀ c ∈ src[backOff src keep]?, ¬Utf8.IsTail c := by
  induction keep with
  | zero => exact .inl rfl
  | succ keep ih =>
    rw [backOff]
    split
    · rename_i c hc
      split_ifs with htail
      · exact ih
      · refine .inr (fun d hd => ?_)
        rw [hc] at hd
        cases hd
        exact fun h => htail ((isContinuation_iff c.toFin).mpr h)
    · rename_i hnone
      refine .inr (fun d hd => ?_)
      rw [hnone] at hd
      cases hd

lemma text_kept {src : Bytes} (h : Utf8.Text src) (keep : Nat) :
    Utf8.Text (src.take (backOff src keep)) := by
  rcases backOff_stops src keep with hzero | hstop
  · rw [hzero]
    exact .nil
  · refine Utf8.Text.cut (t := src.drop (backOff src keep)) ?_ ?_
    · rwa [List.take_append_drop]
    · rwa [List.head?_drop]

/-! ### The slot -/

variable {cap : Nat} {src : Bytes}

lemma copyDetail_short (h : src.length < cap) : copyDetail cap (some src) = src := if_pos h

lemma copyDetail_long (hcap : mark.length + 1 < cap) (h : cap ≤ src.length) :
    copyDetail cap (some src) = src.take (backOff src (cap - 1 - mark.length)) ++ mark := by
  rw [copyDetail, if_neg (Nat.not_lt.mpr h), if_neg (Nat.not_le.mpr hcap)]

lemma copyDetail_length (hcap : mark.length + 1 < cap) :
    (copyDetail cap (some src)).length < cap := by
  rcases Nat.lt_or_ge src.length cap with hshort | hlong
  · rwa [copyDetail_short hshort]
  · have hkeep := backOff_le src (cap - 1 - mark.length)
    rw [copyDetail_long hcap hlong, List.length_append, List.length_take]
    omega

/-- The text of the log is what is written, with its NUL. -/
lemma copyDetailTo_eq (hcap : mark.length + 1 < cap) (dst : Bytes) :
    copyDetailTo dst cap (some src) = Memory.store dst 0 (copyDetail cap (some src) ++ [0]) := by
  rw [copyDetailTo, if_neg (by omega)]
  dsimp only
  rcases Nat.lt_or_ge src.length cap with hshort | hlong
  · rw [if_pos hshort, copyDetail_short hshort]
  · have hkeep := backOff_le src (cap - 1 - mark.length)
    have hlen : (src.take (backOff src (cap - 1 - mark.length))).length =
        backOff src (cap - 1 - mark.length) := by
      rw [List.length_take]
      omega
    have hstore := Memory.store_store (Nat.zero_le dst.length)
      (src.take (backOff src (cap - 1 - mark.length))) (mark ++ [0])
    rw [hlen, Nat.zero_add] at hstore
    rw [if_neg (Nat.not_lt.mpr hlong), if_neg (Nat.not_le.mpr hcap), copyDetail_long hcap hlong]
    rw [hstore, List.append_assoc]

/-- A slot holds a text closed by a NUL: the detail, or a beginning of it with the mark, cut
between characters. -/
theorem copyDetailTo_slot (hcap : mark.length + 1 < cap) (hsrc : 0 ∉ src) {dst : Bytes}
    (hdst : cap ≤ dst.length) :
    ∃ text, copyDetailTo dst cap (some src) = text ++ 0 :: dst.drop (text.length + 1) ∧
      (copyDetailTo dst cap (some src)).length = dst.length ∧ text.length < cap ∧ 0 ∉ text ∧
      (src.length < cap → text = src) ∧
      (cap ≤ src.length → ∃ kept, kept <+: src ∧ kept ≠ src ∧ text = kept ++ mark) ∧
      (Utf8.Text src → Utf8.Text text) := by
  have hmark : 0 ∉ mark := by decide +kernel
  have hascii : Utf8.Text mark := Utf8.Text.ascii (by decide +kernel)
  have hlen : (copyDetail cap (some src)).length < cap := copyDetail_length hcap
  refine ⟨copyDetail cap (some src), ?_, ?_, hlen, ?_, copyDetail_short, ?_, ?_⟩
  · rw [copyDetailTo_eq hcap, Memory.store_zero, List.length_append, List.length_singleton,
      List.append_assoc, List.singleton_append]
  · rw [copyDetailTo_eq hcap, Memory.length_store]
    rw [List.length_append, List.length_singleton]
    omega
  · rcases Nat.lt_or_ge src.length cap with hshort | hlong
    · rwa [copyDetail_short hshort]
    · rw [copyDetail_long hcap hlong, List.mem_append, not_or]
      exact ⟨fun h => hsrc (List.mem_of_mem_take h), hmark⟩
  · intro hlong
    have hkeep := backOff_le src (cap - 1 - mark.length)
    refine ⟨_, List.take_prefix _ _, fun heq => ?_, copyDetail_long hcap hlong⟩
    have hlen := congrArg List.length heq
    rw [List.length_take] at hlen
    omega
  · intro htext
    rcases Nat.lt_or_ge src.length cap with hshort | hlong
    · rwa [copyDetail_short hshort]
    · rw [copyDetail_long hcap hlong]
      exact (text_kept htext _).append hascii

/-- A slot of seven bytes, of which the third would hold the first half of a character. -/
theorem copyDetailTo_slot_split :
    ∃ text, copyDetailTo (List.replicate 9 7) 7 (some [97, 98, 0xC3, 0xA9, 99, 100, 101]) =
        text ++ 0 :: (List.replicate 9 7).drop (text.length + 1) ∧ Utf8.Text text := by
  have hsrc : Utf8.Text ([97, 98, 0xC3, 0xA9, 99, 100, 101] : Bytes) :=
    ⟨['a', 'b', 'é', 'c', 'd', 'e'], by decide +kernel⟩
  have hcap : mark.length + 1 < 7 := by decide +kernel
  have hfree : (0 : UInt8) ∉ ([97, 98, 0xC3, 0xA9, 99, 100, 101] : Bytes) := by decide +kernel
  have hdst : 7 ≤ (List.replicate 9 (7 : UInt8)).length := by decide +kernel
  obtain ⟨text, hstored, -, -, -, -, -, htext⟩ := copyDetailTo_slot hcap hfree hdst
  exact ⟨text, hstored, htext hsrc⟩

end Trace

end Zuhttp
