import Zuhttp.Exchange
import Zuhttp.Proofs.PhrHead

/-!
# Response heads in pieces

However the transport cuts the stream, the heads are those that are parsed from all of it, and
the bytes behind the last one are divided between the seed and the reads that are left.
-/

namespace Zuhttp

open Prog Incremental.Parse

/-! ### Memory -/

namespace Host

/-- The host whose allocations all succeed. -/
def unlimited (host : Host) : Host := { host with allocs := [] }

/-- A failed allocation ends the program with its code, and memory changes nothing else. -/
def AllocOnly {α : Type} (m : HostProg α) : Prop := ∀ host,
  ((exec m host).1 = .error .nomem ∧ false ∈ host.allocs) ∨
    exec m host.unlimited = ((exec m host).1, (exec m host).2.unlimited) ∧
      (exec m host).2.allocs <:+ host.allocs

variable {α β : Type}

lemma AllocOnly.pure (a : α) : AllocOnly (Pure.pure a) :=
  fun _ => .inr ⟨rfl, List.suffix_refl _⟩

lemma AllocOnly.throw (rc : Code) : AllocOnly (throw rc : HostProg α) :=
  fun _ => .inr ⟨rfl, List.suffix_refl _⟩

lemma AllocOnly.bind {m : HostProg α} {k : α → HostProg β} (hm : AllocOnly m)
    (hk : ∀ a, AllocOnly (k a)) : AllocOnly (m >>= k) := by
  intro host
  rcases hm host with ⟨hnomem, hfalse⟩ | ⟨hsame, hsuffix⟩
  · left
    cases hrun : exec m host with
    | mk r t =>
      rw [hrun] at hnomem
      dsimp only at hnomem
      rw [hnomem] at hrun
      rw [exec_bind_error hrun]
      exact ⟨rfl, hfalse⟩
  · cases hrun : exec m host with
    | mk r t =>
      rw [hrun] at hsame hsuffix
      dsimp only at hsame hsuffix
      cases r with
      | error rc =>
        right
        rw [exec_bind_error hrun, exec_bind_error hsame]
        exact ⟨rfl, hsuffix⟩
      | ok a =>
        rw [exec_bind_ok hrun, exec_bind_ok hsame]
        rcases hk a t with ⟨hnomem, hfalse⟩ | ⟨hnext, hless⟩
        · exact .inl ⟨hnomem, hsuffix.subset hfalse⟩
        · exact .inr ⟨hnext, hless.trans hsuffix⟩

lemma AllocOnly.ite {c : Prop} [Decidable c] {m k : HostProg α} (hm : AllocOnly m)
    (hk : AllocOnly k) : AllocOnly (if c then m else k) := by
  split_ifs
  · exact hm
  · exact hk

lemma AllocOnly.setError (rc : Code) (phase : Phase) (message : String) :
    AllocOnly (setError rc phase message) :=
  fun _ => .inr ⟨rfl, List.suffix_refl _⟩

lemma AllocOnly.refuse (rc : Code) (phase : Phase) (message : String) :
    AllocOnly (Host.refuse rc phase message : HostProg α) :=
  (AllocOnly.setError rc phase message).bind (fun _ => AllocOnly.throw rc)

lemma AllocOnly.raise (f : Fail) : AllocOnly (Host.raise f : HostProg α) := by
  refine AllocOnly.bind ?_ (fun _ => AllocOnly.throw f.rc)
  unfold note
  cases f.err with
  | none => exact AllocOnly.pure _
  | some e => exact AllocOnly.setError _ _ _

lemma exec_raise (f : Fail) (host : Host) : ∃ host' : Host,
    ∀ α : Type, exec (Host.raise f : HostProg α) host = (.error f.rc, host') := by
  obtain ⟨rc, err, hrc⟩ := f
  cases err with
  | none => exact ⟨host, fun _ => rfl⟩
  | some e => exact ⟨{ host with err := some e }, fun _ => rfl⟩

/-- Nothing follows a failure. -/
lemma exec_bind_raise (f : Fail) (k : α → HostProg β) (host : Host) :
    exec (Host.raise f >>= k) host = exec (Host.raise f) host := by
  obtain ⟨host', hraise⟩ := exec_raise f host
  rw [exec_bind_error (hraise α), hraise β]

lemma AllocOnly.ofExcept (a : Except Fail α) : AllocOnly (Host.ofExcept a) := by
  cases a with
  | ok a => exact AllocOnly.pure a
  | error f => exact AllocOnly.raise f

lemma exec_alloc (host : Host) : exec Host.alloc host =
    (.ok (host.allocs.headD true), { host with allocs := host.allocs.tail }) := by
  obtain ⟨allocs, clock, err, trace⟩ := host
  cases allocs <;> rfl

lemma exec_alloc_nil {host : Host} (hallocs : host.allocs = []) :
    exec Host.alloc host = (.ok true, host) := by
  obtain ⟨allocs, clock, err, trace⟩ := host
  cases hallocs
  rfl

lemma exec_allocate_nil {host : Host} (hallocs : host.allocs = []) :
    exec Host.allocate host = (.ok (), host) := by
  unfold allocate
  rw [exec_bind_ok (exec_alloc_nil hallocs)]
  rfl

/-- An allocation whose failure is one of the program. -/
lemma AllocOnly.alloc {m k : HostProg α} (hm : AllocOnly m)
    (hk : ∀ host, (exec k host).1 = .error .nomem) :
    AllocOnly (do if ← Host.alloc then m else k) := by
  intro host
  have hrun : exec (do if ← Host.alloc then m else k) host =
      exec (if host.allocs.headD true = true then m else k)
        { host with allocs := host.allocs.tail } := exec_bind_ok (exec_alloc host)
  have hunlimited : exec (do if ← Host.alloc then m else k) host.unlimited =
      exec m host.unlimited := rfl
  rw [hrun, hunlimited]
  cases hok : host.allocs.headD true with
  | true =>
    rw [if_pos rfl]
    rcases hm { host with allocs := host.allocs.tail } with ⟨hnomem, hfalse⟩ | ⟨hsame, hless⟩
    · exact .inl ⟨hnomem, List.mem_of_mem_tail hfalse⟩
    · exact .inr ⟨hsame, hless.trans (List.tail_suffix _)⟩
  | false =>
    rw [if_neg (by decide)]
    refine .inl ⟨hk _, ?_⟩
    cases hallocs : host.allocs with
    | nil =>
      rw [hallocs] at hok
      cases hok
    | cons ok allocs =>
      rw [hallocs] at hok
      rw [show ok = false from hok]
      exact List.mem_cons_self ..

lemma AllocOnly.allocate : AllocOnly Host.allocate :=
  AllocOnly.alloc (AllocOnly.pure ()) (fun _ => rfl)

end Host

open Host

lemma parse_allocOnly (raw : Bytes) (lastLen : Nat) : AllocOnly (Response.parse raw lastLen) := by
  unfold Response.parse
  cases Phr.parseResponse 100 lastLen raw with
  | incomplete => exact AllocOnly.pure _
  | bad => exact AllocOnly.refuse _ _ _
  | ok p rest =>
    dsimp only
    cases Response.statusRefusal p with
    | some f => exact AllocOnly.raise f
    | none =>
      exact AllocOnly.alloc ((AllocOnly.ofExcept _).bind (fun _ => AllocOnly.pure _))
        (fun _ => rfl)

lemma headAnswer_allocOnly (raw : Bytes) (lastLen : Nat) : AllocOnly (headAnswer raw lastLen) := by
  refine (parse_allocOnly raw lastLen).bind (fun answer => ?_)
  cases answer with
  | some r => exact AllocOnly.pure _
  | none => exact AllocOnly.ite (AllocOnly.refuse _ _ _) (AllocOnly.pure _)

lemma readHeaders_allocOnly (ending : StreamEnd) (reads : List Segment) (raw : Bytes)
    (lastLen : Nat) : AllocOnly (readHeaders ending reads raw lastLen) := by
  induction reads generalizing raw lastLen with
  | nil =>
    refine (headAnswer_allocOnly raw lastLen).bind (fun answer => ?_)
    cases answer with
    | some r => exact AllocOnly.pure _
    | none =>
      cases ending with
      | eof => exact AllocOnly.refuse _ _ _
      | fail f => exact AllocOnly.raise f
  | cons seg reads ih =>
    refine (headAnswer_allocOnly raw lastLen).bind (fun answer => ?_)
    cases answer with
    | some r => exact AllocOnly.pure _
    | none => exact AllocOnly.allocate.bind (fun _ => AllocOnly.ite (AllocOnly.throw _) (ih _ _))

lemma skipInterim_allocOnly (ending : StreamEnd) (n : Nat) (reads : List Segment) (raw : Bytes) :
    AllocOnly (skipInterim ending n reads raw) := by
  induction n generalizing reads raw with
  | zero => exact AllocOnly.throw _
  | succ n ih =>
    refine (readHeaders_allocOnly ending reads raw 0).bind (fun r => ?_)
    exact AllocOnly.ite (ih _ _) (AllocOnly.pure _)

/-! ### One head -/

/-- A complete head that a buffer of the engine has room for. -/
structure CompleteHead (h : Bytes) : Prop extends Phr.HeadText 100 h where
  short : h.length ≤ maxHeaderBytes

/-- What the parse of a head comes to when no allocation fails. -/
def HeadAnswer (h : Bytes) (a : Except Fail Response) : Prop := ∀ host : Host, host.allocs = [] →
  exec (Response.parse h 0) host = exec (ofExcept (a.map (fun r => some (r, h.length)))) host

variable {h t : Bytes} {a : Except Fail Response}

lemma CompleteHead.answer (hh : CompleteHead h) : ∃ a, HeadAnswer h a := by
  unfold HeadAnswer Response.parse
  rw [show Phr.parseResponse 100 0 h = Phr.parseHead 100 h from if_pos rfl]
  cases hparse : Phr.parseHead 100 h with
  | incomplete => exact absurd hparse hh.decided
  | bad => exact ⟨.error (Fail.set .parse .read "malformed response head"), fun _ _ => rfl⟩
  | ok p rest =>
    obtain rfl := hh.ok_rest hparse
    dsimp only
    cases Response.statusRefusal p with
    | some f => exact ⟨.error f, fun _ _ => rfl⟩
    | none =>
      cases hadd : Response.addAll Headers.init p.headers with
      | ok hs =>
        refine ⟨.ok ⟨p.status, p.minorVersion, p.msg.take (Response.reasonMax - 1), hs⟩,
          fun host hallocs => ?_⟩
        rw [exec_bind_ok (exec_alloc_nil hallocs), if_pos rfl]
        rfl
      | error f =>
        refine ⟨.error f, fun host hallocs => ?_⟩
        rw [exec_bind_ok (exec_alloc_nil hallocs), if_pos rfl]
        exact exec_bind_raise f _ host

/-- The parser takes the head and nothing behind it, wherever it was taken up again. -/
lemma CompleteHead.parse_append (hh : CompleteHead h) {lastLen : Nat}
    (hlast : lastLen < h.length) (t : Bytes) :
    Response.parse (h ++ t) lastLen = Response.parse h 0 := by
  unfold Response.parse
  rw [hh.parse_whole hlast, show Phr.parseResponse 100 0 h = Phr.parseHead 100 h from if_pos rfl]
  cases hparse : Phr.parseHead 100 h with
  | incomplete => exact absurd hparse hh.decided
  | bad => rw [(Phr.parseHead_stable 100).bad_append t hparse]
  | ok p rest =>
    obtain rfl := hh.ok_rest hparse
    rw [(Phr.parseHead_stable 100).ok_append t hparse]
    dsimp only
    rw [List.nil_append, List.length_append, Nat.add_sub_cancel, List.length_nil, Nat.sub_zero]

/-- In front of the end there is no answer, or the refusal of the whole head. -/
lemma CompleteHead.parse_prefix_eq (hh : CompleteHead h) {raw : Bytes} (hraw : raw <+: h)
    (hne : raw ≠ h) (lastLen : Nat) : Response.parse raw lastLen = pure none ∨
      Response.parse raw lastLen = Response.parse h 0 ∧ Phr.parseHead 100 h = .bad := by
  unfold Response.parse
  rw [show Phr.parseResponse 100 0 h = Phr.parseHead 100 h from if_pos rfl]
  rcases hh.parse_prefix hraw hne lastLen with hwait | ⟨hbad, hhead⟩
  · rw [hwait]
    exact .inl rfl
  · rw [hbad, hhead]
    exact .inr ⟨rfl, rfl⟩

/-- The bytes of some reads. -/
def readBytes (reads : List Segment) : Bytes := (reads.map Segment.bytes).flatten

lemma readBytes_append (a b : List Segment) : readBytes (a ++ b) = readBytes a ++ readBytes b := by
  unfold readBytes
  rw [List.map_append, List.flatten_append]

/-- The parse of a whole head is the answer of a pass. -/
lemma headAnswer_exec (ha : HeadAnswer h a) {host : Host}
    (hallocs : host.allocs = []) {raw : Bytes} {lastLen : Nat}
    (hparse : Response.parse raw lastLen = Response.parse h 0) :
    exec (headAnswer raw lastLen) host =
      exec (ofExcept (a.map (fun r => some (r, h.length)))) host := by
  unfold headAnswer
  rw [hparse, exec_bind, ha host hallocs]
  cases a with
  | ok r => rfl
  | error f =>
    obtain ⟨host', hraise⟩ := exec_raise f host
    have hfail : exec (ofExcept ((Except.error f : Except Fail Response).map
        (fun r => some (r, h.length)))) host = (.error f.rc, host') := hraise _
    rw [hfail]

/-- A pass in front of the end of a head reads on. -/
lemma headAnswer_waits (hh : CompleteHead h) {raw : Bytes} {lastLen : Nat}
    (hraw : raw.length < h.length) (hparse : Response.parse raw lastLen = pure none) :
    headAnswer raw lastLen = pure none := by
  have hroom : ¬raw.length ≥ maxHeaderBytes := fun hfull => by
    have hshort := hh.short
    omega
  unfold headAnswer
  rw [hparse, pure_bind]
  exact if_neg hroom

/-- An answer ends the loop. -/
lemma readHeaders_answered (ending : StreamEnd) (ha : HeadAnswer h a) {host : Host}
    (hallocs : host.allocs = []) (reads : List Segment) {raw : Bytes} {lastLen : Nat}
    (hparse : Response.parse raw lastLen = Response.parse h 0) :
    exec (readHeaders ending reads raw lastLen) host =
      exec (ofExcept (a.map (fun r => (r, raw.drop h.length, reads)))) host := by
  have hanswer := headAnswer_exec ha hallocs hparse
  cases a with
  | ok r =>
    cases reads with
    | nil =>
      rw [readHeaders, exec_bind_ok hanswer]
      rfl
    | cons seg reads =>
      rw [readHeaders, exec_bind_ok hanswer]
      rfl
  | error f =>
    obtain ⟨host', hraise⟩ := exec_raise f host
    have hfail : exec (headAnswer raw lastLen) host = (.error f.rc, host') :=
      hanswer.trans (hraise _)
    refine Eq.trans ?_ (hraise _).symm
    cases reads with
    | nil => rw [readHeaders, exec_bind_error hfail]
    | cons seg reads => rw [readHeaders, exec_bind_error hfail]

/-- What `read_headers` comes to: the answer of a head, with the bytes behind it in the buffer
and in the reads that are left. -/
def ReadsHead (h : Bytes) (a : Except Fail Response) (raw : Bytes) (reads : List Segment)
    (r : Except Code (Response × Bytes × List Segment) × Host) (host : Host) : Prop :=
  ∃ seed done reads', reads = done ++ reads' ∧ raw ++ readBytes done = h ++ seed ∧
    r = exec (ofExcept (a.map (fun r => (r, seed, reads')))) host

/-- A head in the buffer is answered without a read, and so is one that is malformed before its
end. -/
lemma readHeaders_now (ending : StreamEnd) (hh : CompleteHead h) (ha : HeadAnswer h a)
    {host : Host} (hallocs : host.allocs = []) {reads : List Segment} {raw : Bytes} {lastLen : Nat}
    (hraw : raw ++ readBytes reads = h ++ t) (hlast : lastLen < h.length)
    (hnow : h <+: raw ∨
      Response.parse raw lastLen = Response.parse h 0 ∧ Phr.parseHead 100 h = .bad) :
    ReadsHead h a raw reads (exec (readHeaders ending reads raw lastLen) host) host := by
  rcases hnow with ⟨seed, rfl⟩ | ⟨hparse, hbad⟩
  · refine ⟨seed, [], reads, rfl, List.append_nil _, ?_⟩
    rw [readHeaders_answered ending ha hallocs _ (hh.parse_append hlast seed), List.drop_left]
  · refine ⟨t, reads, [], (List.append_nil _).symm, hraw, ?_⟩
    have hanswer := readHeaders_answered ending ha hallocs reads hparse
    have hrefused : Response.parse h 0 = Host.refuse .parse .read "malformed response head" := by
      unfold Response.parse
      rw [show Phr.parseResponse 100 0 h = Phr.parseHead 100 h from if_pos rfl, hbad]
    have hcode := ha host hallocs
    rw [hrefused] at hcode
    cases a with
    | ok r =>
      have hfst := congrArg Prod.fst hcode
      cases hfst
    | error f => exact hanswer

/-- `read_headers` from any point of a head on. -/
lemma readHeaders_head (ending : StreamEnd) (hh : CompleteHead h) (ha : HeadAnswer h a)
    {host : Host} (hallocs : host.allocs = []) {reads : List Segment} {raw : Bytes} {lastLen : Nat}
    (hraw : raw ++ readBytes reads = h ++ t) (hlast : lastLen < h.length) :
    ReadsHead h a raw reads (exec (readHeaders ending reads raw lastLen) host) host := by
  induction reads generalizing raw lastLen with
  | nil =>
    refine readHeaders_now ending hh ha hallocs hraw hlast (.inl ⟨t, ?_⟩)
    rw [← hraw]
    exact List.append_nil _
  | cons seg reads ih =>
    rcases List.append_eq_append_iff.mp hraw with ⟨x, hx, hrest⟩ | ⟨x, hx, -⟩
    · by_cases hne : raw = h
      · exact readHeaders_now ending hh ha hallocs hraw hlast (.inl (hne ▸ List.prefix_refl raw))
      rcases hh.parse_prefix_eq ⟨x, hx.symm⟩ hne lastLen with hwait | hbad
      · have hshorter : raw.length < h.length := by
          rw [hx, List.length_append]
          have hpos : x ≠ [] := fun hnil => hne (by rw [hx, hnil, List.append_nil])
          have := List.length_pos_of_ne_nil hpos
          omega
        have hfits : ¬raw.length + seg.bytes.length > maxHeaderBytes + readChunk := by
          have hshort := hh.short
          have hseg := seg.fits
          omega
        have hmore : (raw ++ seg.bytes) ++ readBytes reads = h ++ t := by
          rw [List.append_assoc]
          exact hraw
        obtain ⟨seed, done, reads', rfl, hdone, hrun⟩ := ih hmore hshorter
        refine ⟨seed, seg :: done, reads', rfl, ?_, ?_⟩
        · rw [← hdone, List.append_assoc]
          rfl
        · rw [← hrun, readHeaders, headAnswer_waits hh hshorter hwait, pure_bind]
          dsimp only
          rw [exec_bind_ok (exec_allocate_nil hallocs), if_neg hfits]
      · exact readHeaders_now ending hh ha hallocs hraw hlast (.inr hbad)
    · exact readHeaders_now ending hh ha hallocs hraw hlast (.inl ⟨x, hx.symm⟩)

/-! ### All heads -/

/-- A head is that of an interim response. -/
def Informational (h : Bytes) : Prop := ∃ r n,
  (exec (Response.parse h 0) {}).1 = .ok (some (r, n)) ∧ r.isInformational = true

lemma informational_iff (h : Bytes) : Informational h ↔
    (exec (Response.parse h 0) {}).1.toOption.join.any (fun r => r.1.isInformational) = true := by
  unfold Informational
  cases (exec (Response.parse h 0) {}).1 with
  | error rc => exact iff_of_false (by rintro ⟨r, n, ⟨⟩, -⟩) Bool.false_ne_true
  | ok answer =>
    cases answer with
    | none => exact iff_of_false (by rintro ⟨r, n, ⟨⟩, -⟩) Bool.false_ne_true
    | some r =>
      constructor
      · rintro ⟨r', n, heq, hr⟩
        cases heq
        exact hr
      · exact fun hr => ⟨r.1, r.2, rfl, hr⟩

lemma Informational.answer (hinfo : Informational h) (ha : HeadAnswer h a) :
    ∃ r, a = .ok r ∧ r.isInformational = true := by
  obtain ⟨r, n, hparse, hr⟩ := hinfo
  rw [ha {} rfl] at hparse
  cases a with
  | ok r' =>
    cases hparse
    exact ⟨r, rfl, hr⟩
  | error f =>
    obtain ⟨host', hraise⟩ := exec_raise f {}
    have hfail : (exec (ofExcept ((Except.error f : Except Fail Response).map
        (fun r => some (r, h.length)))) {}).1 = .error f.rc := congrArg Prod.fst (hraise _)
    rw [hfail] at hparse
    cases hparse

lemma not_informational (hinfo : ¬Informational h) (ha : HeadAnswer h a) {r : Response}
    (hr : a = .ok r) : r.isInformational = false := by
  refine Bool.eq_false_iff.mpr (fun htrue => hinfo ⟨r, h.length, ?_, htrue⟩)
  rw [ha {} rfl, hr]
  rfl

/-- The heads of a stream, each parsed from all that is left of it. -/
def parseHeads : Nat → Bytes → HostProg (Response × Bytes)
  | 0, _ => throw .parse
  | n + 1, s => do
    match ← Response.parse s 0 with
    | none => throw .wouldblock
    | some (r, consumed) =>
      if r.isInformational then parseHeads n (s.drop consumed) else pure (r, s.drop consumed)

section
variable {interim : List Bytes} {final rest : Bytes}

lemma parseHeads_heads (hinterim : ∀ h ∈ interim, CompleteHead h ∧ Informational h)
    (hfinal : CompleteHead final) (hinfo : ¬Informational final) (ha : HeadAnswer final a)
    {n : Nat} (hn : interim.length < n) {host : Host} (hallocs : host.allocs = []) :
    exec (parseHeads n (interim.flatten ++ (final ++ rest))) host =
      exec (ofExcept (a.map (fun r => (r, rest)))) host := by
  induction interim generalizing n with
  | nil =>
    obtain ⟨n, rfl⟩ := Nat.exists_eq_succ_of_ne_zero (Nat.ne_zero_of_lt hn)
    have hpos : 0 < final.length := hfinal.ends.pos
    rw [List.flatten_nil, List.nil_append, parseHeads, hfinal.parse_append hpos]
    cases a with
    | ok r =>
      rw [exec_bind_ok (ha host hallocs)]
      dsimp only
      rw [not_informational hinfo ha rfl, List.drop_left]
      rfl
    | error f =>
      obtain ⟨host', hraise⟩ := exec_raise f host
      rw [exec_bind_error ((ha host hallocs).trans (hraise _))]
      exact (hraise _).symm
  | cons h interim ih =>
    obtain ⟨n, rfl⟩ := Nat.exists_eq_succ_of_ne_zero (Nat.ne_zero_of_lt hn)
    obtain ⟨hh, hinform⟩ := hinterim h (List.mem_cons_self ..)
    obtain ⟨b, hb⟩ := hh.answer
    obtain ⟨r, rfl, hr⟩ := hinform.answer hb
    have hpos : 0 < h.length := hh.ends.pos
    rw [List.flatten_cons, List.append_assoc, parseHeads, hh.parse_append hpos,
      exec_bind_ok (hb host hallocs)]
    dsimp only
    rw [hr, if_pos rfl, List.drop_left]
    exact ih (fun h' hmem => hinterim h' (List.mem_cons_of_mem _ hmem)) (Nat.lt_of_succ_lt_succ hn)

lemma skipInterim_heads (ending : StreamEnd)
    (hinterim : ∀ h ∈ interim, CompleteHead h ∧ Informational h) (hfinal : CompleteHead final)
    (hinfo : ¬Informational final) (ha : HeadAnswer final a) {n : Nat} (hn : interim.length < n)
    {host : Host} (hallocs : host.allocs = []) {reads : List Segment} {raw : Bytes}
    (hraw : raw ++ readBytes reads = interim.flatten ++ (final ++ rest)) :
    ReadsHead (interim.flatten ++ final) a raw reads
      (exec (skipInterim ending n reads raw) host) host := by
  induction interim generalizing n reads raw with
  | nil =>
    obtain ⟨n, rfl⟩ := Nat.exists_eq_succ_of_ne_zero (Nat.ne_zero_of_lt hn)
    have hpos : 0 < final.length := hfinal.ends.pos
    obtain ⟨seed, done, reads', rfl, hdone, hrun⟩ :=
      readHeaders_head ending hfinal ha hallocs hraw hpos
    refine ⟨seed, done, reads', rfl, hdone, ?_⟩
    rw [skipInterim]
    cases a with
    | ok r =>
      rw [exec_bind_ok hrun]
      dsimp only
      rw [not_informational hinfo ha rfl]
      rfl
    | error f =>
      obtain ⟨host', hraise⟩ := exec_raise f host
      rw [exec_bind_error (hrun.trans (hraise _))]
      exact (hraise _).symm
  | cons h interim ih =>
    obtain ⟨n, rfl⟩ := Nat.exists_eq_succ_of_ne_zero (Nat.ne_zero_of_lt hn)
    obtain ⟨hh, hinform⟩ := hinterim h (List.mem_cons_self ..)
    obtain ⟨b, hb⟩ := hh.answer
    obtain ⟨r, rfl, hr⟩ := hinform.answer hb
    have hpos : 0 < h.length := hh.ends.pos
    rw [List.flatten_cons, List.append_assoc] at hraw
    obtain ⟨seed, done, reads', rfl, hdone, hrun⟩ :=
      readHeaders_head ending hh hb hallocs hraw hpos
    have hmore : seed ++ readBytes reads' = interim.flatten ++ (final ++ rest) := by
      rw [readBytes_append, ← List.append_assoc, hdone, List.append_assoc] at hraw
      exact List.append_cancel_left hraw
    obtain ⟨seed', done', reads'', rfl, hdone', hrun'⟩ :=
      ih (fun h' hmem => hinterim h' (List.mem_cons_of_mem _ hmem)) (Nat.lt_of_succ_lt_succ hn)
        hmore
    refine ⟨seed', done ++ done', reads'', (List.append_assoc ..).symm, ?_, ?_⟩
    · rw [readBytes_append, ← List.append_assoc, hdone, List.append_assoc, hdone',
        List.flatten_cons]
      simp only [List.append_assoc]
    · rw [skipInterim, exec_bind_ok hrun]
      dsimp only
      rw [hr, if_pos rfl]
      exact hrun'

lemma heads_length (hinterim : ∀ h ∈ interim, CompleteHead h ∧ Informational h) :
    interim.length ≤ interim.flatten.length := by
  induction interim with
  | nil => exact Nat.zero_le _
  | cons h interim ih =>
    have hpos := (hinterim h (List.mem_cons_self ..)).1.ends.pos
    have hrest := ih (fun h' hmem => hinterim h' (List.mem_cons_of_mem _ hmem))
    rw [List.length_cons, List.flatten_cons, List.length_append]
    omega

/-- The outcome of reading the heads beside that of parsing them from all of the stream: the same
response, with the bytes behind its head divided between the seed and the reads that are left, or
the same failure. -/
inductive SameHeads (heads rest : Bytes) (reads : List Segment) :
    Except Code (Response × Bytes) → Except Code (Response × Bytes × List Segment) → Prop
  | response (r : Response) (seed : Bytes) (done reads' : List Segment) :
      reads = done ++ reads' → readBytes done = heads ++ seed → rest = seed ++ readBytes reads' →
      SameHeads heads rest reads (.ok (r, rest)) (.ok (r, seed, reads'))
  | failure (rc : Code) : SameHeads heads rest reads (.error rc) (.error rc)

/-- The heads of a stream are read as they are parsed from all of it, however it is cut. -/
theorem skipInterim_exact (t : Transport) (host : Host)
    (hinterim : ∀ h ∈ interim, CompleteHead h ∧ Informational h) (hfinal : CompleteHead final)
    (hinfo : ¬Informational final) (hstream : t.unread = interim.flatten ++ (final ++ rest)) :
    ((exec (skipInterim t.ending (t.unread.length + 1) t.reads []) host).1 = .error .nomem ∧
        false ∈ host.allocs) ∨
      (exec (skipInterim t.ending (t.unread.length + 1) t.reads []) host).2.unlimited =
          (exec (parseHeads (t.unread.length + 1) t.unread) host.unlimited).2 ∧
        SameHeads (interim.flatten ++ final) rest t.reads
          (exec (parseHeads (t.unread.length + 1) t.unread) host.unlimited).1
          (exec (skipInterim t.ending (t.unread.length + 1) t.reads []) host).1 := by
  rcases skipInterim_allocOnly t.ending (t.unread.length + 1) t.reads [] host with
    hnomem | ⟨hsame, -⟩
  · exact .inl hnomem
  right
  obtain ⟨a, ha⟩ := hfinal.answer
  have hn : interim.length < t.unread.length + 1 := by
    have hlen := heads_length hinterim
    rw [hstream, List.length_append]
    omega
  have hunlimited : host.unlimited.allocs = [] := rfl
  have hraw : [] ++ readBytes t.reads = interim.flatten ++ (final ++ rest) := hstream
  obtain ⟨seed, done, reads', hreads, hdone, hrun⟩ :=
    skipInterim_heads t.ending hinterim hfinal hinfo ha hn hunlimited hraw
  have hwhole : exec (parseHeads (t.unread.length + 1) t.unread) host.unlimited =
      exec (ofExcept (a.map (fun r => (r, rest)))) host.unlimited := by
    rw [hstream] at hn ⊢
    exact parseHeads_heads hinterim hfinal hinfo ha hn hunlimited
  rw [hsame] at hrun
  rw [hwhole]
  have hrest : rest = seed ++ readBytes reads' := by
    have hall : (interim.flatten ++ final) ++ rest =
        (interim.flatten ++ final) ++ (seed ++ readBytes reads') := by
      rw [List.append_assoc, ← hraw, hreads, readBytes_append, ← List.append_assoc, hdone,
        List.append_assoc]
    exact List.append_cancel_left hall
  cases a with
  | ok r =>
    have hend := Prod.mk.inj hrun
    refine ⟨hend.2, ?_⟩
    rw [hend.1]
    exact .response r seed done reads' hreads hdone hrest
  | error f =>
    obtain ⟨host', hraise⟩ := exec_raise f host.unlimited
    have hend := Prod.mk.inj (hrun.trans (hraise _))
    have hfail : exec (ofExcept ((Except.error f : Except Fail Response).map
        (fun r => (r, rest)))) host.unlimited = (.error f.rc, host') := hraise _
    rw [hfail, hend.1, hend.2]
    exact ⟨rfl, .failure f.rc⟩

end

def continueHead : Bytes := ascii "HTTP/1.1 100 Continue\r\n\r\n"

def okHead : Bytes := ascii "HTTP/1.1 200 OK\r\nA: b\r\n\r\n"

/-- An interim head, a head and two bytes, cut within the empty lines of both heads. -/
def cutTransport : Transport where
  reads := [
    ⟨ascii "HTTP/1.1 100 Continue\r\n\r", by decide +kernel, by decide +kernel⟩,
    ⟨ascii "\nHTTP/1.1 200 OK\r\nA: b\r\n", by decide +kernel, by decide +kernel⟩,
    ⟨ascii "\r\nxy", by decide +kernel, by decide +kernel⟩]

/-- The interim head and the other one are read from the pieces. -/
theorem skipInterim_exact_cut :
    SameHeads ([continueHead].flatten ++ okHead) (ascii "xy") cutTransport.reads
      (exec (parseHeads (cutTransport.unread.length + 1) cutTransport.unread) {}).1
      (exec (skipInterim cutTransport.ending (cutTransport.unread.length + 1) cutTransport.reads [])
        {}).1 := by
  have hcontinue : Phr.parseHead 100 continueHead = .ok ⟨1, 100, ascii "Continue", []⟩ [] := by
    decide +kernel
  have hok : Phr.parseHead 100 okHead =
      .ok ⟨1, 200, ascii "OK", [⟨some (ascii "A"), ascii "b"⟩]⟩ [] := by
    decide +kernel
  have hinterim : ∀ h ∈ [continueHead], CompleteHead h ∧ Informational h := by
    intro h hh
    obtain rfl := List.mem_singleton.mp hh
    exact ⟨⟨Phr.headText_of_ok hcontinue, by decide +kernel⟩,
      (informational_iff _).mpr (by decide +kernel)⟩
  have hfinal : CompleteHead okHead := ⟨Phr.headText_of_ok hok, by decide +kernel⟩
  have hinfo : ¬Informational okHead := by
    rw [informational_iff]
    decide +kernel
  have hstream : cutTransport.unread = [continueHead].flatten ++ (okHead ++ ascii "xy") := by
    decide +kernel
  have hexact := skipInterim_exact cutTransport {} hinterim hfinal hinfo hstream
  exact (hexact.resolve_left (fun h => List.not_mem_nil h.2)).2

end Zuhttp
