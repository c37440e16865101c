import Zuhttp.FileSink

/-!
# Downloads are atomic

Until the sink is finished only its temporary file differs from what was there before; the
rename puts all bytes in place at once.
-/

namespace Zuhttp

open Prog Disk

/-- What may be seen on the way: the destination is as before or complete, and of the other
files at most the temporary one differs. -/
structure Safe (fs : Files) (path all tmp : Bytes) (m : Files) : Prop where
  dest : m path = fs path ∨ m path = some all
  other : ∀ p, p ≠ path → p ≠ tmp → m p = fs p

/-- Besides the files of before there is `content` under the temporary name. -/
structure Beside (fs : Files) (path all tmp : Bytes) (content : Option Bytes) (d : Disk) :
    Prop where
  files : d.files = Function.update fs tmp content
  safe : ∀ m ∈ d.moments, Safe fs path all tmp m

/-- The destination is replaced. -/
structure Placed (fs : Files) (path all tmp : Bytes) (d : Disk) : Prop where
  files : d.files = Function.update fs path (some all)
  safe : ∀ m ∈ d.moments, Safe fs path all tmp m

variable {fs : Files} {path all tmp x pending : Bytes} {content : Option Bytes}

/-! ### Calls -/

lemma beside_safe (htmp : tmp ≠ path) (content : Option Bytes) :
    Safe fs path all tmp (Function.update fs tmp content) where
  dest := Or.inl (Function.update_of_ne htmp.symm _ _)
  other := fun _ _ hp => Function.update_of_ne hp _ _

lemma placed_safe : Safe fs path all tmp (Function.update fs path (some all)) where
  dest := Or.inr (Function.update_self _ _ _)
  other := fun _ hp _ => Function.update_of_ne hp _ _

lemma forall_moments {ms : List Files} {m : Files} (h : ∀ m ∈ ms, Safe fs path all tmp m)
    (hm : Safe fs path all tmp m) : ∀ m' ∈ ms ++ [m], Safe fs path all tmp m' := by
  intro m' hm'
  rcases List.mem_append.mp hm' with hm' | hm'
  · exact h m' hm'
  · obtain rfl := List.mem_singleton.mp hm'
    exact hm

lemma outcome_sure {P : Disk → Prop} (h : ∀ d os, P d → P { d with outcomes := os }) :
    Sure P outcome := by
  refine Triple.reading (fun d hd => ?_)
  cases d.outcomes with
  | nil => exact Sure.pure _
  | cons o outcomes => exact (Sure.set (h d outcomes hd)).bind (fun _ => Sure.pure _)

lemma Beside.outcome : Sure (Beside fs path all tmp content) outcome :=
  outcome_sure (fun _ _ h => ⟨h.files, h.safe⟩)

lemma Beside.change (htmp : tmp ≠ path) {f : Files → Files} {content' : Option Bytes}
    (hf : f (Function.update fs tmp content) = Function.update fs tmp content') :
    Triple (Beside fs path all tmp content) (change f)
      (fun _ => Beside fs path all tmp content') (fun _ _ => False) := by
  refine Triple.modify (fun d hd => ?_)
  have hfiles : f d.files = Function.update fs tmp content' := by rw [hd.files, hf]
  exact ⟨hfiles, forall_moments hd.safe (hfiles ▸ beside_safe htmp content')⟩

lemma append_update (s : Bytes) : Files.append (Function.update fs tmp content) tmp s =
    Function.update fs tmp (some (content.getD [] ++ s)) := by
  unfold Files.append
  rw [Function.update_self, Function.update_idem]

/-- A write reports success only if nothing is lost. -/
lemma fwrite_at (htmp : tmp ≠ path) (s : Bytes) :
    Triple (Beside fs path all tmp (some x)) (fwrite tmp pending s)
      (fun r d => ∃ y, Beside fs path all tmp (some y) d ∧
        (r.1 = true → y ++ r.2 = x ++ (pending ++ s))) (fun _ _ => False) := by
  refine Triple.bind Beside.outcome (fun o => ?_)
  refine Triple.bind (Beside.change htmp (append_update _)) (fun _ => Triple.pure (fun d hd => ?_))
  refine ⟨_, hd, fun hok => ?_⟩
  dsimp only at hok ⊢
  rw [if_pos hok, List.append_assoc, List.take_append_drop]
  rfl

lemma fflush_at (htmp : tmp ≠ path) :
    Triple (Beside fs path all tmp content) (fflush tmp pending)
      (fun r d => ∃ y, Beside fs path all tmp (some y) d ∧
        (r.1 = true → y = content.getD [] ++ pending ∧ r.2 = [])) (fun _ _ => False) := by
  refine Triple.bind Beside.outcome (fun o => ?_)
  refine Triple.bind (Beside.change htmp (append_update _)) (fun _ => Triple.pure (fun d hd => ?_))
  refine ⟨_, hd, fun hok => ?_⟩
  dsimp only at hok ⊢
  rw [if_pos hok, if_pos hok]
  exact ⟨rfl, rfl⟩

lemma fclose_at (htmp : tmp ≠ path) :
    Triple (Beside fs path all tmp content) (fclose tmp pending)
      (fun ok d => ∃ y, Beside fs path all tmp (some y) d ∧
        (ok = true → y = content.getD [] ++ pending))
      (fun _ _ => False) := by
  refine Triple.bind (fflush_at htmp) (fun r => Triple.pure (fun d hd => ?_))
  obtain ⟨y, hbeside, hok⟩ := hd
  exact ⟨y, hbeside, fun h => (hok h).1⟩

lemma remove_at (htmp : tmp ≠ path) :
    Triple (Beside fs path all tmp content) (remove tmp)
      (fun _ => Beside fs path all tmp none) (fun _ _ => False) :=
  Beside.change htmp (Function.update_idem _ _ _)

lemma move_update (hfree : fs tmp = none) (htmp : tmp ≠ path) :
    Files.move (Function.update fs tmp (some x)) tmp path = Function.update fs path (some x) := by
  unfold Files.move
  funext p
  by_cases hp : p = tmp
  · subst hp
    rw [Function.update_self, Function.update_of_ne htmp, hfree]
  · rw [Function.update_of_ne hp, Function.update_self]
    by_cases hpath : p = path
    · subst hpath
      rw [Function.update_self, Function.update_self]
    · rw [Function.update_of_ne hpath, Function.update_of_ne hpath, Function.update_of_ne hp]

/-- A rename that fails changes nothing. -/
lemma rename_at (hfree : fs tmp = none) (htmp : tmp ≠ path) :
    Triple (Beside fs path all tmp (some all)) (rename tmp path)
      (fun ok d => if ok then Placed fs path all tmp d else Beside fs path all tmp (some all) d)
      (fun _ _ => False) := by
  refine Triple.bind Beside.outcome (fun o => Triple.ite (fun _ => ?_)
    (fun _ => Triple.pure (fun _ hd => hd)))
  refine Triple.bind (M := fun _ => Placed fs path all tmp) (Triple.modify (fun d hd => ?_))
    (fun _ => Triple.pure (fun _ hd => hd))
  have hfiles : Files.move d.files tmp path = Function.update fs path (some all) := by
    rw [hd.files, move_update hfree htmp]
  refine ⟨hfiles, forall_moments hd.safe ?_⟩
  change Safe fs path all tmp (Files.move d.files tmp path)
  rw [hfiles]
  exact placed_safe

/-! ### The sink -/

/-- A sink whose stream is open. -/
def opened (path tmp pending : Bytes) : FileCtx := { fp := some pending, tmp := tmp, final := path }

lemma fileWrite_at (htmp : tmp ≠ path) (s : Bytes) :
    Triple (Beside fs path all tmp (some x)) (fileWrite (opened path tmp pending) s)
      (fun r d => ∃ y p, r.1 = opened path tmp p ∧ Beside fs path all tmp (some y) d ∧
        (r.2 = none → y ++ p = x ++ (pending ++ s))) (fun _ _ => False) := by
  refine Triple.bind (fwrite_at htmp s) (fun r => Triple.pure (fun d hd => ?_))
  obtain ⟨y, hbeside, hok⟩ := hd
  refine ⟨y, r.2, rfl, hbeside, fun hnone => hok ?_⟩
  by_contra hbad
  dsimp only at hnone
  rw [if_neg hbad] at hnone
  cases hnone

/-- What was written is on disk or kept back, when every write succeeded. -/
lemma writeFile_at (htmp : tmp ≠ path) (ds : List Bytes) :
    Triple (Beside fs path all tmp (some x)) (writeFile ds (opened path tmp pending))
      (fun r d => ∃ y p, r.1 = opened path tmp p ∧ Beside fs path all tmp (some y) d ∧
        (r.2 = true → y ++ p = x ++ (pending ++ ds.flatten))) (fun _ _ => False) := by
  induction ds generalizing x pending with
  | nil =>
    refine Triple.pure (fun d hd => ⟨x, pending, rfl, hd, fun _ => ?_⟩)
    rw [List.flatten_nil, List.append_nil]
  | cons s ds ih =>
    refine Triple.ite (fun hempty => ?_) (fun _ => ?_)
    · rw [hempty, List.flatten_cons, List.nil_append]
      exact ih
    · refine Triple.bind (fileWrite_at htmp s) (fun r => ?_)
      refine Triple.each (fun y => Triple.each (fun p => ?_))
      intro d hd
      obtain ⟨hr, hbeside, hok⟩ := hd
      obtain ⟨c, f⟩ := r
      dsimp only at hr hok
      subst hr
      refine Triple.bind ih (fun r => Triple.pure (fun d hd => ?_)) d hbeside
      obtain ⟨y', p', hr, hbeside', hok'⟩ := hd
      refine ⟨y', p', hr, hbeside', fun hall => ?_⟩
      rw [Bool.and_eq_true, Option.isNone_iff_eq_none] at hall
      rw [hok' hall.2, ← List.append_assoc, hok hall.1, List.flatten_cons]
      simp only [List.append_assoc]

/-- The sink at its end: it was committed, or its temporary file may still be there. -/
def Ended (fs : Files) (path all tmp : Bytes) (done : Bool) (c : FileCtx) (d : Disk) : Prop :=
  c.tmp = tmp ∧ c.committed = done ∧
    if done then c.fp = none ∧ Placed fs path all tmp d
    else ∃ content, Beside fs path all tmp content d

/-- The sink with nothing left to clean up. -/
def Over (fs : Files) (path all tmp : Bytes) (done : Bool) (d : Disk) : Prop :=
  if done then Placed fs path all tmp d else Beside fs path all tmp none d

variable {done : Bool} {c : FileCtx}

lemma closeStream_at (htmp : tmp ≠ path) :
    Triple (Ended fs path all tmp done c) (closeStream c)
      (fun c' d => c'.fp = none ∧ Ended fs path all tmp done c' d) (fun _ _ => False) := by
  unfold closeStream
  cases hfp : c.fp with
  | none => exact Triple.pure (fun d hd => ⟨hfp, hd⟩)
  | some pending =>
    cases done with
    | true =>
      intro d hd
      rw [hd.2.2.1] at hfp
      cases hfp
    | false =>
      refine Triple.conseq (P := fun d => (c.tmp = tmp ∧ c.committed = false) ∧
        ∃ content, Beside fs path all tmp content d) ?_ (fun d hd => ⟨⟨hd.1, hd.2.1⟩, hd.2.2⟩)
        (fun _ _ hd => hd) (fun _ _ hd => hd)
      refine Triple.assuming (fun hc => Triple.each (fun content => ?_))
      have hclose := @fclose_at fs path all tmp pending content htmp
      rw [← hc.1] at hclose ⊢
      refine Triple.bind hclose (fun ok => Triple.pure (fun d hd => ?_))
      obtain ⟨y, hbeside, -⟩ := hd
      exact ⟨rfl, rfl, hc.2, some y, hbeside⟩

/-- Cleaning up removes the temporary file, unless it was committed. -/
lemma fileCleanup_at (htmp : tmp ≠ path) :
    Triple (Ended fs path all tmp done c) (fileCleanup c)
      (fun c' d => Ended fs path all tmp done c' d ∧ Over fs path all tmp done d)
      (fun _ _ => False) := by
  refine Triple.bind (closeStream_at htmp) (fun c' => ?_)
  refine Triple.conseq (P := fun d => (c'.fp = none ∧ c'.tmp = tmp ∧ c'.committed = done) ∧
    Ended fs path all tmp done c' d) ?_ (fun d hd => ⟨⟨hd.1, hd.2.1, hd.2.2.1⟩, hd.2⟩)
    (fun _ _ hd => hd) (fun _ _ hd => hd)
  refine Triple.assuming (fun hc => ?_)
  obtain ⟨hfp, htmp', hdone⟩ := hc
  rw [hdone, htmp']
  cases done with
  | true => exact Triple.pure (fun d hd => ⟨hd, hd.2.2.2⟩)
  | false =>
    refine Triple.conseq (P := fun d => ∃ content, Beside fs path all tmp content d) ?_
      (fun d hd => hd.2.2) (fun _ _ hd => hd) (fun _ _ hd => hd)
    refine Triple.each (fun content => Triple.bind (remove_at htmp) (fun _ => Triple.pure
      (fun d hd => ⟨⟨htmp', hdone, none, hd⟩, hd⟩)))

/-- The end of a body whose bytes are all on disk or kept back. -/
lemma fileFinish_at (hfree : fs tmp = none) (htmp : tmp ≠ path) (hall : x ++ pending = all) :
    Triple (Beside fs path all tmp (some x)) (fileFinish (opened path tmp pending))
      (fun r => Ended fs path all tmp r.2.isNone r.1) (fun _ _ => False) := by
  refine Triple.bind (fflush_at htmp) (fun r => Triple.each (fun y => ?_))
  obtain ⟨flushed, p⟩ := r
  refine Triple.conseq (P := fun d => (flushed = true → y = all ∧ p = []) ∧
    Beside fs path all tmp (some y) d) ?_ (fun d hd => ⟨fun hok => ?_, hd.1⟩)
    (fun _ _ hd => hd) (fun _ _ hd => hd)
  · refine Triple.assuming (fun hy => ?_)
    refine Triple.bind (fclose_at htmp) (fun closed => Triple.each (fun z => ?_))
    refine Triple.conseq (P := fun d => (closed = true → z = y ++ p) ∧
      Beside fs path all tmp (some z) d) ?_ (fun d hd => ⟨hd.2, hd.1⟩)
      (fun _ _ hd => hd) (fun _ _ hd => hd)
    refine Triple.assuming (fun hz => Triple.ite (fun hok => ?_) (fun _ => Triple.pure
      (fun d hd => ⟨rfl, rfl, some z, hd⟩)))
    rw [Bool.and_eq_true] at hok
    obtain ⟨rfl, rfl⟩ := hy hok.1
    obtain rfl : z = y := (hz hok.2).trans (List.append_nil _)
    refine Triple.bind (rename_at hfree htmp) (fun ok => ?_)
    cases ok with
    | true => exact Triple.pure (fun d hd => ⟨rfl, rfl, rfl, hd⟩)
    | false => exact Triple.pure (fun d hd => ⟨rfl, rfl, some z, hd⟩)
  · obtain ⟨hy, hp⟩ := hd.2 hok
    exact ⟨hy.trans hall, hp⟩

lemma endFile_at (hfree : fs tmp = none) (htmp : tmp ≠ path) {whole : Bool}
    (hall : whole = true → x ++ pending = all) :
    Triple (Beside fs path all tmp (some x)) (endFile (opened path tmp pending) whole)
      (fun r => Ended fs path all tmp r.2 r.1) (fun _ _ => False) := by
  refine Triple.ite (fun hwhole => ?_) (fun _ => ?_)
  · exact Triple.bind (fileFinish_at hfree htmp (hall hwhole))
      (fun r => Triple.pure (fun _ hd => hd))
  · refine Triple.bind ((@fileCleanup_at _ _ _ _ false _ htmp).conseq
      (fun d hd => ⟨rfl, rfl, some x, hd⟩) (fun _ _ hd => hd) (fun _ _ hd => hd)) (fun c' => ?_)
    exact Triple.pure (fun d hd => hd.1)

lemma abortTimes_at (htmp : tmp ≠ path) (n : Nat) :
    Triple (Ended fs path all tmp done c) (abortTimes n c)
      (fun c' => Ended fs path all tmp done c') (fun _ _ => False) := by
  induction n generalizing c with
  | zero => exact Triple.pure (fun _ hd => hd)
  | succ n ih =>
    exact Triple.bind ((fileCleanup_at htmp).conseq (fun _ hd => hd) (fun _ _ hd => hd.1)
      (fun _ _ hd => hd)) (fun c' => ih)

/-! ### Creating the sink -/

lemma tmpName_ne (path : Bytes) (pid : Int) (attempt : Nat) : tmpName path pid attempt ≠ path := by
  intro h
  have hlen := congrArg List.length h
  unfold tmpName at hlen
  rw [List.length_append] at hlen
  have hdot : (ascii (".zudl" ++ toString pid ++
      if attempt = 0 then "" else "." ++ toString attempt)).length ≠ 0 := by
    unfold ascii
    simp
  omega

/-- Nothing was done. -/
structure Untouched (fs : Files) (d : Disk) : Prop where
  files : d.files = fs
  moments : d.moments = []

lemma Untouched.outcome : Sure (Untouched fs) outcome :=
  outcome_sure (fun _ _ h => ⟨h.files, h.moments⟩)

/-- What an attempt at a name leaves. -/
def Tried (fs : Files) (path all tmp : Bytes) : Opened → Disk → Prop
  | .created, d => fs tmp = none ∧ Beside fs path all tmp (some []) d
  | .taken, d => Untouched fs d
  | .failed, d => Untouched fs d

/-- A temporary file is created under a name that was free. -/
lemma createTmp_at (pid : Int) (left attempt : Nat) :
    Triple (Untouched fs) (createTmp path pid left attempt)
      (fun r d => match r with
        | some tmp => tmp ≠ path ∧ fs tmp = none ∧ Beside fs path all tmp (some []) d
        | none => Untouched fs d) (fun _ _ => False) := by
  induction left generalizing attempt with
  | zero => exact Triple.pure (fun _ hd => hd)
  | succ left ih =>
    refine Triple.bind (M := Tried fs path all (tmpName path pid attempt))
      (Triple.reading (fun d hd => ?_)) (fun r => ?_)
    · refine Triple.ite (fun _ => Triple.pure (fun _ hd => hd)) (fun hfree => ?_)
      refine Triple.bind Untouched.outcome (fun o => Triple.ite (fun _ => ?_)
        (fun _ => Triple.pure (fun _ hd => hd)))
      have hnone : fs (tmpName path pid attempt) = none := by
        rw [← hd.files]
        simpa using hfree
      refine Triple.bind (M := fun _ => Beside fs path all (tmpName path pid attempt) (some []))
        (Triple.modify (fun d hd => ?_)) (fun _ => Triple.pure (fun _ hd => ⟨hnone, hd⟩))
      have hsafe := @beside_safe fs path all _ (tmpName_ne path pid attempt) (some [])
      refine ⟨by rw [hd.files], ?_⟩
      rw [hd.moments, hd.files]
      exact forall_moments (by simp) hsafe
    · cases r with
      | created => exact Triple.pure (fun _ hd => ⟨tmpName_ne path pid attempt, hd⟩)
      | taken => exact ih (attempt + 1)
      | failed => exact Triple.pure (fun _ hd => hd)

/-- A sink that could not be created leaves the files as they were. -/
def Refused (fs : Files) (path all : Bytes) (d : Disk) : Prop :=
  Untouched fs d ∨ ∃ tmp, tmp ≠ path ∧ fs tmp = none ∧ Over fs path all tmp false d

lemma sinkFile_at (path all : Bytes) (pid : Int) :
    Triple (Untouched fs) (sinkFile path pid)
      (fun c d => ∃ tmp, (c = opened path tmp [] ∧ tmp ≠ path ∧ fs tmp = none) ∧
        Beside fs path all tmp (some []) d) (fun _ => Refused fs path all) := by
  refine Triple.ite (fun _ => Triple.throw (fun _ hd => Or.inl hd)) (fun _ => ?_)
  refine Triple.bind Untouched.outcome.triple (fun memory => Triple.ite (fun _ => ?_)
    (fun _ => Triple.throw (fun _ hd => Or.inl hd)))
  refine Triple.bind (@createTmp_at _ _ all pid 100 0).surely (fun r => ?_)
  cases r with
  | none => exact Triple.throw (fun _ hd => Or.inl hd)
  | some tmp =>
    dsimp only
    refine Triple.conseq (P := fun d => (tmp ≠ path ∧ fs tmp = none) ∧
      Beside fs path all tmp (some []) d) ?_ (fun d hd => ⟨⟨hd.1, hd.2.1⟩, hd.2.2⟩)
      (fun _ _ hd => hd) (fun _ _ hd => hd)
    refine Triple.assuming (fun htmp => ?_)
    refine Triple.bind Beside.outcome.triple (fun stream => Triple.ite (fun _ => ?_) (fun _ => ?_))
    · exact Triple.pure (fun d hd => ⟨tmp, ⟨rfl, htmp.1, htmp.2⟩, hd⟩)
    · refine Triple.bind (remove_at htmp.1).surely (fun _ => Triple.throw (fun d hd => ?_))
      exact Or.inr ⟨tmp, htmp.1, htmp.2, hd⟩

/-! ### A download -/

lemma Over.files {d : Disk} (hfree : fs tmp = none) (h : Over fs path all tmp done d) :
    d.files = if done then Function.update fs path (some all) else fs := by
  cases done with
  | true => exact (show Placed fs path all tmp d from h).files
  | false =>
    have hbeside : Beside fs path all tmp none d := h
    exact hbeside.files.trans (Function.update_eq_self_iff.mpr hfree.symm)

lemma Over.safe {d : Disk} (h : Over fs path all tmp done d) :
    ∀ m ∈ d.moments, Safe fs path all tmp m := by
  cases done with
  | true => exact (show Placed fs path all tmp d from h).safe
  | false => exact (show Beside fs path all tmp none d from h).safe

/-- A download that is over: committed where `done`. -/
def Settled (fs : Files) (path all : Bytes) (done : Bool) (d : Disk) : Prop :=
  ∃ tmp, tmp ≠ path ∧ fs tmp = none ∧ Over fs path all tmp done d

lemma download_at (path : Bytes) (pid : Int) (ds : List Bytes) (wanted : Bool) (aborts : Nat) :
    Triple (Untouched fs) (download path pid ds wanted aborts)
      (Settled fs path ds.flatten) (fun _ => Refused fs path ds.flatten) := by
  refine Triple.bind (sinkFile_at path ds.flatten pid) (fun c => Triple.each (fun tmp =>
    Triple.assuming (fun hc => ?_)))
  obtain ⟨rfl, htmp, hfree⟩ := hc
  refine Triple.surely ?_
  refine Triple.bind (writeFile_at htmp ds)
    (fun r => Triple.each (fun x => Triple.each (fun p => ?_)))
  obtain ⟨c, ok⟩ := r
  refine Triple.conseq (P := fun d => (c = opened path tmp p ∧
    (ok = true → x ++ p = ds.flatten)) ∧ Beside fs path ds.flatten tmp (some x) d) ?_
    (fun d hd => ⟨⟨hd.1, hd.2.2⟩, hd.2.1⟩) (fun _ _ hd => hd) (fun _ _ hd => hd)
  refine Triple.assuming (fun hc => ?_)
  obtain ⟨rfl, hall⟩ := hc
  refine Triple.bind (@endFile_at _ _ _ _ _ _ hfree htmp (ok && wanted)
    (fun hwhole => hall (Bool.and_eq_true _ _ ▸ hwhole).1)) (fun r => ?_)
  refine Triple.bind (abortTimes_at htmp aborts) (fun c' => ?_)
  refine Triple.bind (fileCleanup_at htmp) (fun _ => Triple.pure (fun d hd => ?_))
  exact ⟨tmp, htmp, hfree, hd.2⟩

/-- What a download may show on the way and leave. -/
structure Atomic (fs : Files) (path all : Bytes) (done : Bool) (d : Disk) : Prop where
  dest : ∀ m ∈ d.moments, m path = fs path ∨ m path = some all
  other : ∃ tmp, tmp ≠ path ∧ d.files tmp = fs tmp ∧ ∀ m ∈ d.moments, ∀ p, p ≠ path →
    m p ≠ fs p → p = tmp ∧ fs p = none
  files : d.files = if done then Function.update fs path (some all) else fs

lemma Settled.atomic {d : Disk} (h : Settled fs path all done d) : Atomic fs path all done d := by
  obtain ⟨tmp, htmp, hfree, hover⟩ := h
  have hfiles := hover.files hfree
  refine ⟨fun m hm => (hover.safe m hm).dest, ⟨tmp, htmp, ?_, fun m hm p hp hne => ?_⟩, hfiles⟩
  · rw [hfiles]
    split_ifs
    · exact Function.update_of_ne htmp _ _
    · rfl
  · have hptmp : p = tmp := by
      by_contra hptmp
      exact hne ((hover.safe m hm).other p hp hptmp)
    exact ⟨hptmp, hptmp ▸ hfree⟩

lemma Refused.atomic {d : Disk} (h : Refused fs path all d) : Atomic fs path all false d := by
  rcases h with h | h
  · refine ⟨?_, ⟨tmpName path 0 0, tmpName_ne path 0 0, by rw [h.files], ?_⟩, h.files⟩
    · rw [h.moments]
      simp
    · rw [h.moments]
      simp
  · exact Settled.atomic h

/-- Whatever fails on the way, the destination of a download holds what it held before or all
the bytes, at every moment, and in the end all of them exactly where the sink was committed.
Of the other files only a temporary one changes, whose name was free before and is free in
the end. -/
theorem download_atomic (path : Bytes) (pid : Int) (ds : List Bytes) (wanted : Bool) (aborts : Nat)
    (fs : Files) (outcomes : List Outcome) :
    let run := exec (download path pid ds wanted aborts) { files := fs, outcomes := outcomes }
    (∀ m ∈ run.2.moments, m path = fs path ∨ m path = some ds.flatten) ∧
    (∃ tmp, tmp ≠ path ∧ run.2.files tmp = fs tmp ∧ ∀ m ∈ run.2.moments, ∀ p, p ≠ path →
      m p ≠ fs p → p = tmp ∧ fs p = none) ∧
    (run.1 = .ok true → run.2.files = Function.update fs path (some ds.flatten)) ∧
    (run.1 ≠ .ok true → run.2.files = fs) := by
  have hends := @download_at fs path pid ds wanted aborts
    { files := fs, outcomes := outcomes } ⟨rfl, rfl⟩
  intro run
  change Ends _ _ run at hends
  obtain ⟨res, d⟩ := run
  cases res with
  | ok done =>
    have hatomic : Atomic fs path ds.flatten done d := Settled.atomic hends
    refine ⟨hatomic.dest, hatomic.other, fun hdone => ?_, fun hdone => ?_⟩
    · rw [hatomic.files, if_pos (Except.ok.inj hdone)]
    · rw [hatomic.files, if_neg (fun hd => hdone (congrArg Except.ok hd))]
  | error f =>
    have hatomic : Atomic fs path ds.flatten false d := Refused.atomic hends
    exact ⟨hatomic.dest, hatomic.other, nofun, fun _ => hatomic.files⟩

/-- Two writes that stay in the buffer, and a rename that fails. -/
example : (exec (download (ascii "out") 7 [ascii "ab", ascii "c"] true 1)
    { files := fun _ => none, outcomes := [{}, {}, {}, {}, {}, {}, {}, { ok := false }] }).1 =
      .ok false := by decide +kernel

end Zuhttp
