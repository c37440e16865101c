import Zuhttp.Dechunk
import Zuhttp.Exchange
import Zuhttp.Proofs.Building

/-!
# What stands behind a request's head

A body in memory follows the head as it is; the pieces of a source are chunks, and the
reference reads them back.
-/

namespace Zuhttp

open Prog Dechunk

/-- The pieces a source gives before its end. -/
def pieces : List (Except Fail Bytes) → List Bytes
  | .ok d :: answers => if d = [] then [] else d :: pieces answers
  | _ => []

def chunkText (d : Bytes) : Bytes := chunkSize d.length ++ (d ++ ascii "\r\n")

/-- The chunks of the pieces and the last one. -/
def chunksText (ps : List Bytes) : Bytes := ps.flatMap chunkText ++ chunkText []

/-- What is to be written behind the head. -/
def Sent.content (r : Sent) : Bytes :=
  r.body ++ if r.streamed then chunksText (pieces r.answers) else []

/-! ### Reading chunks back -/

def hexText (n : Nat) : Bytes := (Nat.toDigits 16 n).map (fun c => UInt8.ofNat c.toNat)

lemma chunkSize_eq (n : Nat) : chunkSize n = hexText n ++ [13, 10] := by
  unfold chunkSize hexText ascii
  rw [String.toList_ofList]
  rfl

lemma decodeHex_digitChar : ∀ d < 16,
    Phr.decodeHex (UInt8.ofNat (Nat.digitChar d).toNat) = some d := by decide

lemma hexText_of_lt {n : Nat} (h : n < 16) : hexText n = [UInt8.ofNat (Nat.digitChar n).toNat] := by
  unfold hexText
  rw [Nat.toDigits_of_lt_base h]
  rfl

lemma hexText_of_le {n : Nat} (h : 16 ≤ n) :
    hexText n = hexText (n / 16) ++ [UInt8.ofNat (Nat.digitChar (n % 16)).toNat] := by
  unfold hexText
  rw [Nat.toDigits_of_base_le (by decide) h, List.map_append]
  rfl

lemma hexValue_append (s : Bytes) (c : UInt8) :
    hexValue (s ++ [c]) = hexValue s * 16 + (Phr.decodeHex c).getD 0 := by
  unfold hexValue
  rw [List.foldl_append]
  rfl

/-- A size in hexadecimal digits reads back. -/
lemma hexText_spec (n : Nat) : hexValue (hexText n) = n ∧ (hexText n).all isHexDigit = true := by
  induction n using Nat.strongRecOn with
  | ind n ih =>
    by_cases h : n < 16
    · rw [hexText_of_lt h]
      have hdigit := decodeHex_digitChar n h
      refine ⟨?_, ?_⟩
      · rw [← List.nil_append [UInt8.ofNat _], hexValue_append, hdigit]
        exact Nat.zero_add n
      · simp [isHexDigit, hdigit]
    · have hdigit := decodeHex_digitChar (n % 16) (Nat.mod_lt n (by decide))
      obtain ⟨hvalue, hall⟩ := ih (n / 16) (by omega)
      rw [hexText_of_le (by omega)]
      refine ⟨?_, ?_⟩
      · rw [hexValue_append, hvalue, hdigit]
        exact Nat.div_add_mod' n 16
      · simp [isHexDigit, hdigit, hall]

lemma sizeLine_chunkSize {n : Nat} (h : n < 2 ^ 64) (rest : Bytes) :
    sizeLine (chunkSize n ++ rest) = some (n, rest) := by
  obtain ⟨hvalue, hall⟩ := hexText_spec n
  have hhex : ∀ c ∈ hexText n, isHexDigit c = true := fun c hc => List.all_eq_true.mp hall c hc
  have htext : chunkSize n ++ rest = hexText n ++ 13 :: 10 :: rest := by
    rw [chunkSize_eq, List.append_assoc]
    rfl
  have hstop : isHexDigit 13 = false := by decide
  have htake : (hexText n ++ 13 :: 10 :: rest).takeWhile isHexDigit = hexText n := by
    rw [List.takeWhile_append_of_pos hhex, List.takeWhile_cons_of_neg (by simp [hstop]),
      List.append_nil]
  have hdrop : (hexText n ++ 13 :: 10 :: rest).dropWhile isHexDigit = 13 :: 10 :: rest := by
    rw [List.dropWhile_append_of_pos hhex, List.dropWhile_cons_of_neg (by simp [hstop])]
  have hlen : (hexText n).length ≤ 16 := by
    unfold hexText
    rw [List.length_map, Nat.length_toDigits_le_iff (by decide) (by decide)]
    exact h
  have hne : hexText n ≠ [] := by
    unfold hexText
    simp [Nat.toDigits_ne_nil]
  unfold sizeLine
  rw [htext, htake, hdrop]
  have hend : (13 :: 10 :: rest).takeWhile (fun c : UInt8 => decide (c ≠ 13)) = [] :=
    List.takeWhile_cons_of_neg (by decide)
  dsimp only
  rw [hend, if_neg (by simp [hne, ValidExt, Nat.not_lt.mpr hlen]),
    List.dropWhile_cons_of_neg (by decide), hvalue]
  rfl

lemma chunkText_length (d : Bytes) : 2 ≤ (chunkText d).length := by
  unfold chunkText
  rw [List.length_append, List.length_append]
  change 2 ≤ _ + (_ + 2)
  omega

lemma dechunkN_chunksText (ps : List Bytes) (h : ∀ p ∈ ps, p ≠ [] ∧ p.length < 2 ^ 64) (n : Nat)
    (hn : ps.length < n) : dechunkN n (chunksText ps) = (ps.flatten, some (ascii "\r\n")) := by
  induction ps generalizing n with
  | nil =>
    obtain ⟨m, rfl⟩ := Nat.exists_eq_add_of_lt (Nat.zero_lt_of_lt hn)
    have hline : sizeLine (chunksText []) = some (0, ascii "\r\n") :=
      sizeLine_chunkSize (n := 0) (by decide) (ascii "\r\n")
    rw [Nat.zero_add, dechunkN, hline]
    rfl
  | cons p ps ih =>
    obtain ⟨m, rfl⟩ := Nat.exists_eq_add_of_lt (Nat.zero_lt_of_lt hn)
    rw [List.forall_mem_cons] at h
    obtain ⟨⟨hne, hlen⟩, hps⟩ := h
    have hsize : p.length ≠ 0 := fun hzero => hne (List.length_eq_zero_iff.mp hzero)
    have htext : chunksText (p :: ps) = chunkSize p.length ++ (p ++ 13 :: 10 :: chunksText ps) := by
      unfold chunksText
      rw [List.flatMap_cons, chunkText, List.append_assoc, List.append_assoc, List.append_assoc]
      rfl
    have hrest := ih hps m (by rw [List.length_cons] at hn; omega)
    rw [htext, Nat.zero_add, dechunkN, sizeLine_chunkSize hlen]
    dsimp only
    rw [if_neg hsize, List.take_left, List.drop_left]
    change (p ++ (dechunkN m (chunksText ps)).1, (dechunkN m (chunksText ps)).2) = _
    rw [hrest, List.flatten_cons]

/-- The chunks of the pieces are a chunked encoding of all of them that ends with its last
chunk, without trailers. -/
theorem dechunk_chunksText {ps : List Bytes} (h : ∀ p ∈ ps, p ≠ [] ∧ p.length < 2 ^ 64) :
    dechunk (chunksText ps) = (ps.flatten, some (ascii "\r\n")) := by
  refine dechunkN_chunksText ps h _ ?_
  have hlen : ps.length ≤ (ps.flatMap chunkText).length := by
    induction ps with
    | nil => exact Nat.zero_le _
    | cons p ps ih =>
      rw [List.forall_mem_cons] at h
      have hp := chunkText_length p
      have hps := ih h.2
      rw [List.flatMap_cons, List.length_append, List.length_cons]
      omega
  unfold chunksText
  rw [List.length_append]
  omega

lemma mem_pieces {answers : List (Except Fail Bytes)} {p : Bytes} (h : p ∈ pieces answers) :
    p ≠ [] ∧ .ok p ∈ answers := by
  induction answers with
  | nil => cases h
  | cons a answers ih =>
    cases a with
    | error f => cases h
    | ok d =>
      unfold pieces at h
      split_ifs at h with hd
      · cases h
      · rcases List.mem_cons.mp h with rfl | h
        · exact ⟨hd, List.mem_cons_self⟩
        · exact ⟨(ih h).1, List.mem_cons_of_mem _ (ih h).2⟩

/-! ### Writing -/

lemma raiseWrite_fails {α : Type} (f : Fail) :
    Triple (fun _ => True) (Host.raiseWrite f : HostProg α) (fun _ _ => False)
      (fun _ _ => True) := by
  refine Triple.bind (Host.note_sure f).triple (fun _ => Triple.reading (fun h _ => ?_))
  cases h.err with
  | none => exact Triple.throw (fun _ _ => trivial)
  | some e => exact Triple.throw (fun _ _ => trivial)

/-- The connection has taken these bytes. -/
def Took (t : Transport) (s : Bytes) (t' : Transport) : Prop := t'.sent = t.sent ++ s

lemma Took.trans {t t' t'' : Transport} {s s' : Bytes} (h : Took t s t') (h' : Took t' s' t'') :
    Took t (s ++ s') t'' := by
  unfold Took at *
  rw [h', h, List.append_assoc]

lemma Transport.writeAll_took {t t' : Transport} {buf : Bytes} (h : t.writeAll buf = (t', none)) :
    Took t buf t' := by
  unfold Transport.writeAll at h
  split at h
  · cases h
    rfl
  · split_ifs at h
    · cases h
      rfl
    · cases h

lemma writeAll_gives (t : Transport) (buf : Bytes) : Gives (Took t buf) (writeAll t buf) := by
  unfold writeAll
  cases hrun : t.writeAll buf with
  | mk t' f =>
    cases f with
    | none => exact Gives.pure (Transport.writeAll_took hrun)
    | some f => exact Gives.fails (raiseWrite_fails f)

lemma sendChunk_gives (t : Transport) (d : Bytes) : Gives (Took t (chunkText d)) (sendChunk t d) :=
  (writeAll_gives t _).bind (fun t₁ h₁ => (writeAll_gives t₁ d).bind (fun t₂ h₂ =>
    (writeAll_gives t₂ _).imp (fun _ h₃ => h₁.trans (h₂.trans h₃))))

/-- A body in memory follows the head, in the same write or in one of its own. -/
lemma sendMemory_gives (t : Transport) (wire body : Bytes) :
    Gives (Took t (wire ++ body)) (sendMemory t wire body) := by
  unfold sendMemory
  refine Gives.ite (fun hempty => ?_) (fun _ => Gives.ite (fun _ => Gives.andThen (fun room => ?_))
    (fun _ => ?_))
  · rw [hempty, List.append_nil]
    exact writeAll_gives t wire
  · exact Gives.ite (fun _ => writeAll_gives t _) (fun _ => Gives.fails (Host.refuse_fails _ _ _))
  · exact (writeAll_gives t wire).bind (fun t₁ h₁ => (writeAll_gives t₁ body).imp
      (fun _ h₂ => h₁.trans h₂))

end Zuhttp
