import Zuhttp.Perform

/-!
# Steps of the host

Which of them cannot fail and which always do.
-/

namespace Zuhttp

open Prog

variable {α : Type}

namespace Host

lemma refuse_fails (rc : Code) (phase : Phase) (message : String) :
    Triple (fun _ => True) (refuse rc phase message : HostProg α) (fun _ _ => False)
      (fun _ _ => True) :=
  fun _ _ => trivial

lemma note_sure (f : Fail) : Sure (fun _ => True) (note f) := by
  unfold note
  cases f.err with
  | none => exact Sure.pure _
  | some e => exact Sure.modify (fun _ _ => trivial)

lemma raise_fails (f : Fail) :
    Triple (fun _ => True) (raise f : HostProg α) (fun _ _ => False) (fun _ _ => True) :=
  Triple.bind (note_sure f).triple (fun _ => Triple.throw (fun _ _ => trivial))

lemma alloc_sure : Sure (fun _ => True) alloc := by
  refine Sure.get.bind (fun h => ?_)
  cases h.allocs with
  | nil => exact Sure.pure _
  | cons ok allocs => exact (Sure.set trivial).bind (fun _ => Sure.pure _)

lemma now_sure : Sure (fun _ => True) now := by
  refine Sure.get.bind (fun h => ?_)
  cases h.clock with
  | nil => exact Sure.pure _
  | cons t clock => exact (Sure.set trivial).bind (fun _ => Sure.pure _)

lemma render_sure (max : Nat) (m : Writer Unit) : Sure (fun _ => True) (render max m) := by
  refine alloc_sure.bind (fun ok => Sure.ite ?_ (Sure.pure _))
  cases exec (do m; Buffer.cstr) (Buffer.init max) with
  | mk r b =>
    cases r with
    | ok s => exact Sure.pure _
    | error rc => exact Sure.pure _

lemma traceAdd_sure (ev : Event) (detail : Option Bytes) (n : Nat) :
    Sure (fun _ => True) (traceAdd ev detail n) := by
  refine Sure.get.bind (fun h => ?_)
  cases h.trace with
  | none => exact Sure.pure _
  | some t =>
    exact Sure.ite (Sure.set trivial)
      (now_sure.bind (fun _ => Sure.modify (fun _ _ => trivial)))

lemma traceAddUrl_sure (ev : Event) (p : Option RedactPolicy) (url : Option Bytes) (n : Nat) :
    Sure (fun _ => True) (traceAddUrl ev p url n) := by
  refine Sure.get.bind (fun h => ?_)
  cases h.trace with
  | none => cases url <;> exact Sure.pure _
  | some t =>
    cases url with
    | none => exact traceAdd_sure _ _ _
    | some url => exact (render_sure _ _).bind (fun _ => traceAdd_sure _ _ _)

end Host

lemma dupStr_sure (s : Bytes) : Sure (fun _ => True) (dupStr s) :=
  Host.alloc_sure.bind (fun _ => Sure.ite (Sure.pure _) (Sure.pure _))

lemma urlOf_sure (u : Uri) : Sure (fun _ => True) u.urlOf :=
  Host.alloc_sure.bind (fun _ => Sure.ite (Sure.pure _) (Sure.pure _))

lemma releaseKey_sure (opts : PerformOpts) (u : Uri) (px : Proxy) :
    Sure (fun _ => True) (releaseKey opts u px) :=
  Sure.ite (Host.alloc_sure.bind (fun _ => Sure.ite (Sure.pure _) (Sure.pure _))) (Sure.pure _)

end Zuhttp
