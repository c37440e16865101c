import Zuhttp.TraceLog

/-!
# The event log only grows

One step for each call, and the runs of calls under a clock that does not go back.
-/

namespace Zuhttp

namespace Trace

lemma add_full {t : Trace} (h : t.entries.length ≥ maxEntries) (ev : Event)
    (detail : Option Bytes) (n : Nat) (now : Int) :
    t.add ev detail n now = { t with dropped := t.dropped + 1 } := if_pos h

lemma add_room {t : Trace} (h : t.entries.length < maxEntries) (ev : Event)
    (detail : Option Bytes) (n : Nat) (now : Int) :
    t.add ev detail n now =
      { t with entries := t.entries ++ [⟨ev, now - t.t0, n, copyDetail detailSize detail⟩] } :=
  if_neg (Nat.not_le.mpr h)

/-- What is logged as a URL is an ordinary event with some detail. -/
lemma addUrl_eq (t : Trace) (ev : Event) (p : Option RedactPolicy) (url : Option Bytes) (n : Nat)
    (granted : Bool) (now : Int) :
    ∃ detail, t.addUrl ev p url n granted now = t.add ev detail n now := by
  unfold addUrl
  cases url with
  | none => exact ⟨_, rfl⟩
  | some url =>
    dsimp only
    split_ifs
    · split
      · exact ⟨_, rfl⟩
      · exact ⟨_, rfl⟩
    · exact ⟨_, rfl⟩

/-- An event put at a moment is patched to that moment, but not before the event in front. -/
lemma addAt_room {t : Trace} (h : t.entries.length < maxEntries) (ev : Event)
    (detail : Option Bytes) (n : Nat) (moment now : Int) :
    ∃ e, t.addAt ev detail n moment now = { t with entries := t.entries ++ [e] } ∧
      e.atMs = min (now - t.t0) (max (moment - t.t0) (lastMs t.entries)) := by
  unfold addAt
  rw [add_room h]
  dsimp only
  rw [List.getLast?_concat]
  dsimp only
  rw [if_neg (by simp), List.dropLast_concat]
  split_ifs with hfloor hlt hlt
  · exact ⟨_, rfl, by dsimp only at hlt ⊢; omega⟩
  · exact ⟨_, rfl, by dsimp only at hlt ⊢; omega⟩
  · exact ⟨_, rfl, by dsimp only at hlt ⊢; omega⟩
  · exact ⟨_, rfl, by dsimp only at hlt ⊢; omega⟩

/-- Whether a late call on a full log finds nothing to patch in the last event: its type is
another one, or its time is not after the moment, or the event in front has the same time. -/
def LeavesLast (t : Trace) (ev : Event) (moment : Int) : Prop :=
  ∀ last ∈ t.entries.getLast?, last.ev = ev →
    last.atMs ≤ moment - t.t0 ∨ last.atMs ≤ lastMs t.entries.dropLast

lemma addAt_full {t : Trace} (h : t.entries.length ≥ maxEntries) {ev : Event} {moment : Int}
    (hleaves : t.LeavesLast ev moment) (detail : Option Bytes) (n : Nat) (now : Int) :
    t.addAt ev detail n moment now = { t with dropped := t.dropped + 1 } := by
  unfold addAt
  rw [add_full h]
  dsimp only
  cases hlast : t.entries.getLast? with
  | none => rfl
  | some last =>
    dsimp only
    by_cases hev : last.ev ≠ ev
    · rw [if_pos hev]
    · rw [if_neg hev]
      have hkeeps := hleaves last hlast (not_not.mp hev)
      refine if_neg ?_
      change ¬(if moment - t.t0 < lastMs t.entries.dropLast then lastMs t.entries.dropLast
        else moment - t.t0) < last.atMs
      split_ifs <;> omega

lemma toInt_succ {d : Int32} (h : d ≠ Int32.maxValue) : (d + 1).toInt = d.toInt + 1 := by
  have hle := d.toInt_le
  have hge := d.le_toInt
  have hne : d.toInt ≠ Int32.maxValue.toInt := fun he => h (Int32.toInt_inj.mp he)
  rw [Int32.toInt_maxValue] at hle hne
  have hone : (1 : Int32).toInt = 1 := by decide
  rw [Int32.toInt_add, hone]
  exact Int.bmod_eq_of_le (by omega) (by omega)

/-- What holds of the log at a time of the clock. -/
structure Logged (t : Trace) (now : Int) : Prop where
  few : t.entries.length ≤ maxEntries
  sorted : t.entries.Pairwise (fun e f => e.atMs ≤ f.atMs)
  past : ∀ e ∈ t.entries, 0 ≤ e.atMs ∧ e.atMs ≤ now - t.t0

end Trace

namespace TraceCall

open Trace

/-- The call does not patch the last event of a log that is full. -/
def Leaves (t : Trace) : TraceCall → Prop
  | addAt ev _ _ moment _ => t.LeavesLast ev moment
  | _ => True

/-- On a full log, the counter takes one more and the call patches no event. -/
def OnlyCounts (t : Trace) (c : TraceCall) : Prop :=
  t.entries.length ≥ maxEntries → t.dropped ≠ Int32.maxValue ∧ c.Leaves t

/-- A call on a full log counts one more event dropped. -/
lemma call_full {t : Trace} (h : t.entries.length ≥ maxEntries) {c : TraceCall}
    (hcounts : c.OnlyCounts t) : c.call t = { t with dropped := t.dropped + 1 } := by
  have hleaves := (hcounts h).2
  cases c with
  | add ev detail n now => exact add_full h ev detail n now
  | addAt ev detail n moment now => exact addAt_full h hleaves detail n now
  | addUrl ev p url n granted now =>
    obtain ⟨detail, heq⟩ := addUrl_eq t ev p url n granted now
    exact heq.trans (add_full h ev detail n now)

/-- A call on a log with room appends one event, not before the last one and not after now. -/
lemma call_room {t : Trace} {before : Int} {c : TraceCall} (hlogged : t.Logged before)
    (hclock : before ≤ c.now) (hstart : t.t0 ≤ c.now) (h : t.entries.length < maxEntries) :
    ∃ e, c.call t = { t with entries := t.entries ++ [e] } ∧
      (0 ≤ e.atMs ∧ e.atMs ≤ c.now - t.t0) ∧ ∀ f ∈ t.entries, f.atMs ≤ e.atMs := by
  have hnow : ∀ e : TraceEntry, e.atMs = c.now - t.t0 →
      (0 ≤ e.atMs ∧ e.atMs ≤ c.now - t.t0) ∧ ∀ f ∈ t.entries, f.atMs ≤ e.atMs := by
    intro e he
    refine ⟨by omega, fun f hf => ?_⟩
    have := hlogged.past f hf
    omega
  cases c with
  | add ev detail n now => exact ⟨_, add_room h ev detail n now, hnow _ rfl⟩
  | addUrl ev p url n granted now =>
    obtain ⟨detail, heq⟩ := addUrl_eq t ev p url n granted now
    exact ⟨_, heq.trans (add_room h ev detail n now), hnow _ rfl⟩
  | addAt ev detail n moment now =>
    obtain ⟨e, heq, htime⟩ := addAt_room h ev detail n moment now
    refine ⟨e, heq, ?_⟩
    change before ≤ now at hclock
    change t.t0 ≤ now at hstart
    change (0 ≤ e.atMs ∧ e.atMs ≤ now - t.t0) ∧ _
    cases hlast : t.entries.getLast? with
    | none =>
      rw [lastMs, hlast] at htime
      dsimp only at htime
      rw [List.getLast?_eq_none_iff] at hlast
      rw [hlast]
      exact ⟨by omega, fun f hf => absurd hf List.not_mem_nil⟩
    | some last =>
      rw [lastMs, hlast] at htime
      dsimp only at htime
      obtain ⟨init, hentries⟩ := List.getLast?_eq_some_iff.mp hlast
      have hpast := hlogged.past last (List.mem_of_getLast? hlast)
      refine ⟨by omega, fun f hf => ?_⟩
      have hle : f.atMs ≤ last.atMs := by
        have hsorted := hlogged.sorted
        rw [hentries, List.pairwise_append] at hsorted
        rw [hentries] at hf
        rcases List.mem_append.mp hf with hf | hf
        · exact hsorted.2.2 f hf last (List.mem_singleton_self last)
        · rw [List.mem_singleton.mp hf]
      omega

/-- The clock of the calls does not go back. -/
def Clock (t0 : Int) (calls : List TraceCall) : Prop :=
  (t0 :: calls.map TraceCall.now).Pairwise (· ≤ ·)

/-- On a full log each of the calls only counts. -/
def AllCount (t : Trace) : List TraceCall → Prop
  | [] => True
  | c :: calls => c.OnlyCounts t ∧ AllCount (c.call t) calls

lemma call_logged {t : Trace} {before : Int} {c : TraceCall} (hlogged : t.Logged before)
    (hclock : before ≤ c.now) (hstart : t.t0 ≤ c.now) (hcounts : c.OnlyCounts t) :
    (c.call t).Logged c.now := by
  rcases Nat.lt_or_ge t.entries.length maxEntries with hroom | hfull
  · obtain ⟨e, heq, htime, hafter⟩ := call_room hlogged hclock hstart hroom
    rw [heq]
    refine ⟨?_, ?_, fun f hf => ?_⟩
    · rw [List.length_append, List.length_singleton]
      exact hroom
    · rw [List.pairwise_append]
      refine ⟨hlogged.sorted, List.pairwise_singleton _ _, fun f hf f' hf' => ?_⟩
      rw [List.mem_singleton.mp hf']
      exact hafter f hf
    · rcases List.mem_append.mp hf with hf | hf
      · have := hlogged.past f hf
        exact ⟨this.1, by dsimp only; omega⟩
      · rw [List.mem_singleton.mp hf]
        exact htime
  · rw [call_full hfull hcounts]
    exact ⟨hlogged.few, hlogged.sorted, fun f hf => by
      have := hlogged.past f hf
      exact ⟨this.1, by dsimp only; omega⟩⟩

/-- What one call adds: an event at the end, or one to the dropped ones. -/
lemma call_grows {t : Trace} {before : Int} {c : TraceCall} (hlogged : t.Logged before)
    (hclock : before ≤ c.now) (hstart : t.t0 ≤ c.now) (hcounts : c.OnlyCounts t) :
    t.entries <+: (c.call t).entries ∧
      (c.call t).entries.length + (c.call t).dropped.toInt =
        t.entries.length + t.dropped.toInt + 1 ∧
      (c.call t).t0 = t.t0 := by
  rcases Nat.lt_or_ge t.entries.length maxEntries with hroom | hfull
  · obtain ⟨e, heq, -, -⟩ := call_room hlogged hclock hstart hroom
    rw [heq]
    refine ⟨List.prefix_append _ _, ?_, rfl⟩
    dsimp only
    rw [List.length_append, List.length_singleton]
    omega
  · rw [call_full hfull hcounts]
    refine ⟨List.prefix_refl _, ?_, rfl⟩
    dsimp only
    rw [toInt_succ (hcounts hfull).1]
    exact (Int.add_assoc _ _ _).symm

lemma run_grows {t : Trace} {before : Int} {calls more : List TraceCall}
    (hlogged : t.Logged before) (hstart : t.t0 ≤ before) (hclock : Clock before (calls ++ more))
    (hcounts : AllCount t calls) :
    t.entries <+: (run t calls).entries ∧
      (run t calls).entries.length + (run t calls).dropped.toInt =
        t.entries.length + t.dropped.toInt + calls.length ∧
      ∃ now, (run t calls).Logged now ∧ (run t calls).t0 ≤ now ∧ Clock now more := by
  induction calls generalizing t before with
  | nil => exact ⟨List.prefix_refl _, (Int.add_zero _).symm, before, hlogged, hstart, hclock⟩
  | cons c calls ih =>
    unfold Clock at hclock
    rw [List.cons_append, List.map_cons, List.pairwise_cons] at hclock
    obtain ⟨hfirst, hrest⟩ := hclock
    have hle : before ≤ c.now := hfirst c.now (List.mem_cons_self ..)
    have hnow : t.t0 ≤ c.now := hstart.trans hle
    obtain ⟨hfirstPart, hcount, hsame⟩ := call_grows hlogged hle hnow hcounts.1
    obtain ⟨hlater, hcountLater, hend⟩ :=
      ih (call_logged hlogged hle hnow hcounts.1) (hsame ▸ hnow) hrest hcounts.2
    refine ⟨hfirstPart.trans hlater, ?_, hend⟩
    change (run (c.call t) calls).entries.length + (run (c.call t) calls).dropped.toInt = _
    rw [hcountLater, hcount, List.length_cons]
    omega

lemma allCount_append {t : Trace} {calls more : List TraceCall} :
    AllCount t (calls ++ more) ↔ AllCount t calls ∧ AllCount (run t calls) more := by
  induction calls generalizing t with
  | nil => exact (true_and _).symm ▸ Iff.rfl
  | cons c calls ih =>
    change (c.OnlyCounts t ∧ AllCount (c.call t) (calls ++ more)) ↔
      (c.OnlyCounts t ∧ AllCount (c.call t) calls) ∧ AllCount (run (c.call t) calls) more
    rw [ih, and_assoc]

/-- A log that is not patched when it is full, and whose counter does not run over, is
append-only: the events of any point of a run stay as they are, stored and dropped add up, the
times do not go back, and a call on a full log only counts. -/
theorem log_append_only (t0 : Int) (calls more : List TraceCall)
    (hclock : Clock t0 (calls ++ more)) (hcounts : AllCount (start t0) (calls ++ more)) :
    let t := run (start t0) calls
    t.entries <+: (run t more).entries ∧
      t.entries.length + t.dropped.toInt = calls.length ∧
      t.entries.length ≤ maxEntries ∧
      t.entries.Pairwise (fun e f => e.atMs ≤ f.atMs) ∧
      (t.entries.length = maxEntries →
        ∀ c ∈ more.head?, c.call t = { t with dropped := t.dropped + 1 }) := by
  intro t
  obtain ⟨hcalls, hmore⟩ := allCount_append.mp hcounts
  have hempty : (start t0).Logged t0 :=
    ⟨Nat.zero_le _, List.Pairwise.nil, fun _ he => absurd he List.not_mem_nil⟩
  obtain ⟨-, hcount, now, hlogged, hstart, hlater⟩ := run_grows hempty le_rfl hclock hcalls
  rw [← List.append_nil more] at hlater
  obtain ⟨hgrows, -, -⟩ := run_grows hlogged hstart hlater hmore
  refine ⟨hgrows, ?_, hlogged.few, hlogged.sorted, fun hfull c hc => ?_⟩
  · rw [hcount]
    exact Int.zero_add _
  · obtain ⟨rest, rfl⟩ : ∃ rest, more = c :: rest := List.head?_eq_some_iff.mp hc
    exact call_full hfull.ge hmore.1

/-- Phases reported late, in a log with room. -/
theorem log_append_only_late :
    let calls := [add .requestStart none 0 5, addAt .dnsStart none 0 7 20,
      addAt .connectDone none 0 3 20]
    let t := run (start 5) calls
    t.entries.length + t.dropped.toInt = 3 ∧ t.entries.map TraceEntry.atMs = [0, 2, 2] := by
  have h := log_append_only 5 [add .requestStart none 0 5, addAt .dnsStart none 0 7 20,
    addAt .connectDone none 0 3 20] [] (by unfold Clock; decide +kernel)
    ⟨fun h => absurd h (by decide +kernel), fun h => absurd h (by decide +kernel),
      fun h => absurd h (by decide +kernel), trivial⟩
  exact ⟨h.2.1, by decide +kernel⟩

/-- The events of a run that fills the log: the last of them at 10 ms, the others at 0 ms. -/
def fullLog : List TraceCall :=
  List.replicate 255 (add .bodyChunk none 1 0) ++ [add .bodyChunk none 1 10]

/-- A late event that the full log drops moves the last one to 5 ms. -/
theorem log_patched :
    let t := run (start 0) fullLog
    t.entries.length = maxEntries ∧
      (t.entries.getLast?.map TraceEntry.atMs) = some 10 ∧
      ((t.addAt .bodyChunk none 1 5 10).entries.getLast?.map TraceEntry.atMs) = some 5 := by
  decide +kernel

end TraceCall

end Zuhttp
