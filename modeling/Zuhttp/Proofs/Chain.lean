import Zuhttp.Proofs.Building

/-!
# Chains of redirects

What a redirect that is followed makes of the chain, and what holds along all of them.
-/

namespace Zuhttp

open Prog

/-- What a redirect makes of a chain, the check for a loop apart. -/
structure Turns (opts : PerformOpts) (c : Chain) (status : Int) (c' : Chain) : Prop where
  redirect : statusIsRedirect status = true
  allowed : 0 < opts.maxRedirects → c.hops < opts.maxRedirects.toNat
  secure : c.cur.isHttps = true → c'.cur.isHttps = true
  method : c'.method =
    if (redirectTable status c.method).rewriteToGet then ascii "GET" else c.method
  body : c'.body = if (redirectTable status c.method).dropBody then [] else c.body
  dropped : c.srcLive = true → (redirectTable status c.method).dropBody = true
  srcLive : c'.srcLive = false
  stripCreds : c'.stripCreds = (c.stripCreds || !c.cur.sameOrigin c'.cur)
  hops : c'.hops = c.hops + 1
  trail : c'.trail = c.trail

/-- A redirect that is followed. -/
structure Follows (opts : PerformOpts) (c : Chain) (status : Int) (c' : Chain) : Prop where
  turns : Turns opts c status { c' with trail := c.trail }
  fresh : ∃ key, trailKey c'.method c'.cur = some key ∧ key ∉ c.trail ∧ c'.trail = c.trail ++ [key]

/-- The chain of the first hop of a call. -/
structure Starts (call : Call) (srcLive : Bool) (c : Chain) : Prop where
  method : c.method = call.req.method.getD (ascii "GET")
  body : c.body = call.req.body
  source : c.srcLive = srcLive
  stripCreds : c.stripCreds = false
  hops : c.hops = 0
  trail : ∃ key, trailKey c.method c.cur = some key ∧ c.trail = [key]
  unframed : ∀ h ∈ call.req.headers, asciiNcasecmp h.1 (ascii "Transfer-Encoding") ≠ 0

/-! ### The programs -/

lemma redirectDecide_ok {p : RedirectPolicy} {status : Int} {method : Bytes} {cur next : Uri}
    {hops : Nat} {dec : RedirectDecision} (hred : statusIsRedirect status = true)
    (h : redirectDecide p status method cur next hops = .ok dec) :
    (p.maxRedirects ≠ 0 → hops < p.maxRedirects) ∧
    (p.allowDowngrade = false → cur.isHttps = true → next.isHttps = true) ∧
    dec = { redirectTable status method with
      action := .follow, stripCredentials := !cur.sameOrigin next } := by
  unfold redirectDecide at h
  rw [if_neg (by simp [hred])] at h
  split_ifs at h with hmax hdown
  refine ⟨fun hne => ?_, fun hallow hcur => ?_, (Except.ok.inj h).symm⟩
  · exact Nat.lt_of_not_le (fun hle => hmax ⟨hne, hle⟩)
  · by_contra hnext
    exact hdown ⟨hallow, hcur, hnext⟩

lemma ofExcept_gives {α : Type} {A : α → Prop} {x : Except Fail α} (h : ∀ a, x = .ok a → A a) :
    Gives A (Host.ofExcept x) := by
  cases x with
  | ok a => exact Gives.pure (h a rfl)
  | error f => exact Gives.fails (Host.raise_fails f)

theorem nextHop_gives (lib : UriLib) (opts : PerformOpts) {status : Int} (loc : Bytes) (c : Chain)
    (hred : statusIsRedirect status = true) :
    Gives (fun r => ∃ c', r = some c' ∧ Turns opts c status c')
      (nextHop lib opts status loc c) := by
  refine Gives.andThen (fun room => Gives.ite (fun _ => Gives.fails (Host.refuse_fails _ _ _))
    (fun _ => ?_))
  cases lib.resolve c.cur loc with
  | error rc =>
    exact Gives.ite (fun _ => Gives.fails (Host.refuse_fails _ _ _))
      (fun _ => Gives.fails (Host.refuse_fails _ _ _))
  | ok next =>
    refine (ofExcept_gives (fun dec hdec => redirectDecide_ok hred hdec)).bind (fun dec hdec => ?_)
    obtain ⟨hmax, hdown, rfl⟩ := hdec
    refine Gives.ite (fun hnone => nomatch hnone) (fun _ => ?_)
    refine Gives.ite (fun _ => Gives.fails (Host.refuse_fails _ _ _)) (fun hsrc => ?_)
    refine Gives.pure ⟨_, rfl, ?_⟩
    exact {
      redirect := hred
      allowed := fun hpos => hmax (by
        change opts.maxRedirects.toNat ≠ 0
        omega)
      secure := hdown rfl
      method := rfl
      body := rfl
      dropped := fun hlive => by
        by_contra hkeep
        exact hsrc ⟨hlive, Bool.eq_false_iff.mpr hkeep⟩
      srcLive := rfl
      stripCreds := rfl
      hops := rfl
      trail := rfl }

lemma trailAdd_gives (trail : List Bytes) (method : Bytes) (u : Uri) :
    Gives (fun trail' => ∃ key, trailKey method u = some key ∧ key ∉ trail ∧
      trail' = trail ++ [key]) (trailAdd trail method u) := by
  refine Gives.andThen (fun _ => ?_)
  cases hkey : trailKey method u with
  | none => exact Gives.throw _
  | some key =>
    exact Gives.ite (fun _ => Gives.throw _) (fun hnew => Gives.andThen (fun _ =>
      Gives.pure ⟨key, rfl, hnew, rfl⟩))

theorem enterHop_gives (c : Chain) :
    Gives (fun c' => ∃ key, trailKey c.method c.cur = some key ∧ key ∉ c.trail ∧
      c' = { c with trail := c.trail ++ [key] }) (enterHop c) := by
  refine (Gives.attempt (Gives.andThen (fun _ => trailAdd_gives c.trail c.method c.cur))).bind
    (fun r hr => ?_)
  cases r with
  | ok trail =>
    obtain ⟨key, hkey, hnew, rfl⟩ := hr trail rfl
    exact Gives.pure ⟨key, hkey, hnew, rfl⟩
  | error rc =>
    exact Gives.ite (fun _ => Gives.fails (Host.refuse_fails _ _ _))
      (fun _ => Gives.fails (Host.refuse_fails _ _ _))

lemma checkCallerFraming_gives (n : Nat) (streamed : Bool) (hs : List (Bytes × Bytes)) :
    Gives (fun _ => ∀ h ∈ hs, asciiNcasecmp h.1 (ascii "Transfer-Encoding") ≠ 0)
      (checkCallerFraming n streamed hs) := by
  induction hs with
  | nil => exact Gives.pure (by simp)
  | cons h hs ih =>
    have hrest : asciiNcasecmp h.1 (ascii "Transfer-Encoding") ≠ 0 →
        Gives (fun _ => ∀ g ∈ h :: hs, asciiNcasecmp g.1 (ascii "Transfer-Encoding") ≠ 0)
          (checkCallerFraming n streamed hs) :=
      fun hte => ih.imp (fun _ hall => List.forall_mem_cons.mpr ⟨hte, hall⟩)
    unfold checkCallerFraming
    refine Gives.ite (fun _ => Gives.fails (Host.refuse_fails _ _ _)) (fun hte => ?_)
    refine Gives.ite (fun _ => ?_) (fun _ => hrest hte)
    exact Gives.ite (fun _ => Gives.fails (Host.refuse_fails _ _ _)) (fun _ =>
      Gives.ite (fun _ => hrest hte) (fun _ => Gives.fails (Host.refuse_fails _ _ _)))

theorem startChain_gives (lib : UriLib) (call : Call) (srcLive : Bool) :
    Gives (Starts call srcLive) (startChain lib call srcLive) := by
  refine Gives.andThen (fun cur => Gives.andThen (fun _ => ?_))
  refine (checkCallerFraming_gives _ _ _).bind (fun _ hframing => Gives.andThen (fun _ => ?_))
  refine (trailAdd_gives [] _ cur).bind (fun trail htrail => Gives.pure ?_)
  obtain ⟨key, hkey, -, rfl⟩ := htrail
  exact ⟨rfl, rfl, rfl, rfl, rfl, ⟨key, hkey, rfl⟩, hframing⟩

/-! ### Along a chain -/

/-- The hops in front of one: on the answer to each the next was followed. -/
inductive Chained (opts : PerformOpts) (c₀ : Chain) : List (Chain × Answer) → Chain → Prop
  | start : Chained opts c₀ [] c₀
  | follow {past : List (Chain × Answer)} {c c' : Chain} {a : Answer} (h : Chained opts c₀ past c)
      (hnext : Follows opts c a.status c') : Chained opts c₀ (past ++ [(c, a)]) c'

end Zuhttp
