import Zuhttp.Schannel

/-!
# What is read through Schannel

The records of the peer, what `DecryptMessage` is documented to make of them, and when
`sch_read` hands over all plaintext without waiting.
-/

namespace Zuhttp

/-! ### Records -/

/-- The longest record of TLS 1.2, its header included. -/
def maxRecord : Nat := 5 + 2 ^ 14 + 2048

/-- A record: its ciphertext and its plaintext, which a `close_notify` has none of. -/
structure TlsRecord where
  cipher : Bytes
  plain : Option Bytes
  nonempty : cipher ≠ []
  fits : cipher.length ≤ maxRecord
  shrinks : ∀ p ∈ plain, p.length ≤ cipher.length

def ciphers (rs : List TlsRecord) : Bytes := rs.flatMap TlsRecord.cipher

/-- What the complete records in front of a stream say: their plaintext, whether they end in
a `close_notify`, the records behind them and the bytes of those. -/
structure Parsed where
  plain : Bytes
  closed : Bool
  records : List TlsRecord
  left : Bytes

def parse : List TlsRecord → Bytes → Parsed
  | [], s => ⟨[], false, [], s⟩
  | r :: rs, s =>
    if r.cipher <+: s then
      match r.plain with
      | none => ⟨[], true, rs, []⟩
      | some p =>
        { parse rs (s.drop r.cipher.length) with
          plain := p ++ (parse rs (s.drop r.cipher.length)).plain }
    else ⟨[], false, r :: rs, s⟩

variable {S : Type} {sspi : Sspi S} {rs : List TlsRecord} {t : Schannel S} {n : Nat}

/-- What `DecryptMessage` is documented to answer when the peer sends these records. -/
def Speaks (sspi : Sspi S) : List TlsRecord → S → Prop
  | [], _ => True
  | r :: rs, ctx =>
    (∀ rest, match r.plain with
      | some p => ∃ ctx', sspi.decrypt ctx (r.cipher ++ rest) = (.ok p rest.length, ctx') ∧
          Speaks sspi rs ctx'
      | none => ∃ ctx', sspi.decrypt ctx (r.cipher ++ rest) = (.expired, ctx')) ∧
    ∀ enc, enc ≠ [] → enc <+: r.cipher → enc ≠ r.cipher →
      sspi.decrypt ctx enc = (.incomplete, ctx)

/-! ### Parsing -/

lemma parse_nil (rs : List TlsRecord) : parse rs [] = ⟨[], false, rs, []⟩ := by
  cases rs with
  | nil => rfl
  | cons r rs => exact if_neg (fun h => r.nonempty (List.prefix_nil.mp h))

lemma parse_none {r : TlsRecord} (hplain : r.plain = none) (rest : Bytes) :
    parse (r :: rs) (r.cipher ++ rest) = ⟨[], true, rs, []⟩ := by
  rw [parse, if_pos (List.prefix_append _ _), hplain]

lemma parse_some {r : TlsRecord} {p : Bytes} (hplain : r.plain = some p) (rest : Bytes) :
    parse (r :: rs) (r.cipher ++ rest) =
      { parse rs rest with plain := p ++ (parse rs rest).plain } := by
  rw [parse, if_pos (List.prefix_append _ _), hplain]
  dsimp only
  rw [List.drop_left]

lemma parse_part {r : TlsRecord} {s : Bytes} (hpart : ¬r.cipher <+: s) :
    parse (r :: rs) s = ⟨[], false, r :: rs, s⟩ := by
  rw [parse, if_neg hpart]

/-- More bytes are read behind what is complete. -/
lemma parse_append (rs : List TlsRecord) (s more : Bytes) :
    parse rs (s ++ more) =
      if (parse rs s).closed then parse rs s
      else
        { parse (parse rs s).records ((parse rs s).left ++ more) with
          plain := (parse rs s).plain ++
            (parse (parse rs s).records ((parse rs s).left ++ more)).plain } := by
  induction rs generalizing s with
  | nil => rfl
  | cons r rs ih =>
    by_cases hcomplete : r.cipher <+: s
    · obtain ⟨rest, rfl⟩ := hcomplete
      rw [List.append_assoc]
      cases hplain : r.plain with
      | none => rw [parse_none hplain, parse_none hplain]; rfl
      | some p =>
        rw [parse_some hplain, parse_some hplain]
        dsimp only
        rw [ih rest]
        by_cases hclosed : (parse rs rest).closed = true
        · rw [if_pos hclosed, if_pos hclosed]
        · rw [if_neg hclosed, if_neg hclosed]
          dsimp only
          rw [List.append_assoc]
    · rw [parse_part hcomplete]
      rfl

lemma parse_append_closed {s : Bytes} (hclosed : (parse rs s).closed = true) (more : Bytes) :
    parse rs (s ++ more) = parse rs s := by
  rw [parse_append, if_pos hclosed]

lemma parse_append_open {s : Bytes} (hopen : (parse rs s).closed = false) (more : Bytes) :
    parse rs (s ++ more) =
      { parse (parse rs s).records ((parse rs s).left ++ more) with
        plain := (parse rs s).plain ++
          (parse (parse rs s).records ((parse rs s).left ++ more)).plain } := by
  rw [parse_append, if_neg (by rw [hopen]; exact Bool.false_ne_true)]

/-- What is behind the complete records. -/
structure Rest (rs : List TlsRecord) (s : Bytes) : Prop where
  closed : (parse rs s).closed = true → (parse rs s).left = []
  again : (parse rs s).closed = false → parse (parse rs s).records (parse rs s).left =
    ⟨[], false, (parse rs s).records, (parse rs s).left⟩
  length : (parse rs s).plain.length + (parse rs s).left.length ≤ s.length

lemma parse_rest (rs : List TlsRecord) (s : Bytes) : Rest rs s := by
  induction rs generalizing s with
  | nil => exact ⟨nofun, fun _ => rfl, by simp [parse]⟩
  | cons r rs ih =>
    by_cases hcomplete : r.cipher <+: s
    · obtain ⟨rest, rfl⟩ := hcomplete
      cases hplain : r.plain with
      | none =>
        refine ⟨?_, ?_, ?_⟩ <;> rw [parse_none hplain]
        · exact fun _ => rfl
        · exact nofun
        · exact Nat.zero_le _
      | some p =>
        have hshrinks := r.shrinks p (hplain ▸ rfl)
        have hlength := (ih rest).length
        refine ⟨?_, ?_, ?_⟩ <;> rw [parse_some hplain]
        · exact (ih rest).closed
        · exact (ih rest).again
        · simp only [List.length_append]
          omega
    · refine ⟨?_, ?_, ?_⟩ <;> rw [parse_part hcomplete]
      · exact nofun
      · exact fun _ => parse_part hcomplete
      · exact (Nat.zero_add _).le

/-- The bytes of the records that are not complete. -/
lemma parse_ahead {s more : Bytes} (hahead : s ++ more <+: ciphers rs)
    (hopen : (parse rs s).closed = false) :
    (parse rs s).left ++ more <+: ciphers (parse rs s).records := by
  induction rs generalizing s with
  | nil => exact hahead
  | cons r rs ih =>
    by_cases hcomplete : r.cipher <+: s
    · obtain ⟨rest, rfl⟩ := hcomplete
      cases hplain : r.plain with
      | none =>
        rw [parse_none hplain] at hopen
        cases hopen
      | some p =>
        rw [parse_some hplain] at hopen ⊢
        refine ih ?_ hopen
        rw [List.append_assoc, ciphers, List.flatMap_cons] at hahead
        exact (List.prefix_append_right_inj _).mp hahead
    · rw [parse_part hcomplete]
      exact hahead

/-- What is left of the stream is a part of one record. -/
lemma parse_left {s : Bytes} (hahead : s <+: ciphers rs) :
    (parse rs s).left.length ≤ maxRecord := by
  induction rs generalizing s with
  | nil =>
    rw [List.prefix_nil.mp hahead]
    exact Nat.zero_le _
  | cons r rs ih =>
    by_cases hcomplete : r.cipher <+: s
    · obtain ⟨rest, rfl⟩ := hcomplete
      cases hplain : r.plain with
      | none =>
        rw [parse_none hplain]
        exact Nat.zero_le _
      | some p =>
        rw [parse_some hplain]
        rw [ciphers, List.flatMap_cons] at hahead
        exact ih ((List.prefix_append_right_inj _).mp hahead)
    · rw [parse_part hcomplete]
      have hpart : s <+: r.cipher := by
        rw [ciphers, List.flatMap_cons] at hahead
        exact (List.prefix_or_prefix_of_prefix hahead (List.prefix_append _ _)).resolve_right
          hcomplete
      exact hpart.length_le.trans r.fits

/-! ### Decrypting -/

/-- The buffers are those of the source, and what they hold is far from their limit. -/
structure Roomy (t : Schannel S) : Prop where
  enc : t.enc.max = schBufferMax
  dec : t.dec.max = schBufferMax
  room : t.dec.data.length + t.enc.data.length ≤ maxRecord + readChunk

lemma tryAppend_room {b : Buffer} (hmax : b.max = schBufferMax) {s : Bytes}
    (hroom : b.data.length + s.length ≤ 2 * (maxRecord + readChunk)) :
    b.tryAppend s = ({ b with data := b.data ++ s }, true) := by
  unfold Buffer.tryAppend
  by_cases hempty : s = []
  · rw [if_pos hempty, hempty, List.append_nil]
  · have hsmall : 2 * (maxRecord + readChunk) < schBufferMax := by decide
    have hsum : Headers.sizeAdd b.data.length s.length = some (b.data.length + s.length) := by
      unfold Headers.sizeAdd
      refine if_pos ?_
      have hmax' : schBufferMax < 2 ^ 64 := by decide
      omega
    rw [if_neg hempty, hsum]
    dsimp only
    rw [if_neg (by rw [hmax]; omega)]

/-- The state behind `decrypt_available`. -/
def Schannel.decrypted (t : Schannel S) (ctx : S) (q : Parsed) : Schannel S :=
  { t with ctx := ctx, enc := { t.enc with data := q.left },
           dec := { t.dec with data := t.dec.data ++ q.plain } }

/-- Which answer `decrypt_available` gives. -/
def answerOf (enc : Bytes) (q : Parsed) : Avail :=
  if q.closed then .closed
  else if enc = [] ∨ q.left ≠ [] then .wouldblock
  else .ok

lemma decrypted_same (t : Schannel S) (closed : Bool) (rs : List TlsRecord) :
    t.decrypted t.ctx ⟨[], closed, rs, t.enc.data⟩ = t := by
  unfold Schannel.decrypted
  dsimp only
  rw [List.append_nil]

lemma keepTrailing_append (t : Schannel S) {cipher rest : Bytes} (h : t.enc.data = cipher ++ rest) :
    t.keepTrailing rest.length = { t with enc := { t.enc with data := rest } } := by
  unfold Schannel.keepTrailing
  rw [h, List.length_append, Nat.add_sub_cancel, List.drop_left]

/-- All complete records are decrypted. Bytes behind them hide that there is plaintext. -/
lemma decryptLoop_spec (k : Nat) (hspeaks : Speaks sspi rs t.ctx)
    (hahead : t.enc.data <+: ciphers rs) (hk : t.enc.data.length < k) (hroomy : Roomy t) :
    ∃ ctx, decryptLoop sspi k t = (answerOf t.enc.data (parse rs t.enc.data),
        t.decrypted ctx (parse rs t.enc.data)) ∧
      ((parse rs t.enc.data).closed = false → Speaks sspi (parse rs t.enc.data).records ctx) := by
  induction k generalizing t rs with
  | zero => omega
  | succ k ih =>
    unfold decryptLoop
    by_cases hempty : t.enc.data = []
    · have hparse : parse rs t.enc.data = ⟨[], false, rs, t.enc.data⟩ := by
        rw [hempty, parse_nil]
      rw [if_pos hempty, hparse]
      refine ⟨t.ctx, ?_, fun _ => hspeaks⟩
      rw [decrypted_same, answerOf, if_neg Bool.false_ne_true, if_pos (Or.inl hempty)]
    · rw [if_neg hempty]
      cases rs with
      | nil => exact absurd (List.prefix_nil.mp hahead) hempty
      | cons r rs =>
        by_cases hcomplete : r.cipher <+: t.enc.data
        · obtain ⟨rest, hrest⟩ := hcomplete
          have hdecrypt := hspeaks.1 rest
          have hlen : t.enc.data.length = r.cipher.length + rest.length := by
            rw [← hrest, List.length_append]
          have hroom := hroomy.room
          have hk' : r.cipher.length + rest.length < k + 1 := hlen ▸ hk
          rw [← hrest] at hahead ⊢
          cases hplain : r.plain with
          | none =>
            rw [hplain] at hdecrypt
            obtain ⟨ctx, hctx⟩ := hdecrypt
            rw [hctx, parse_none hplain]
            refine ⟨ctx, ?_, nofun⟩
            unfold Schannel.decrypted
            dsimp only
            rw [List.append_nil]
            rfl
          | some p =>
            rw [hplain] at hdecrypt
            obtain ⟨ctx, hctx, hnext⟩ := hdecrypt
            have hshrinks := r.shrinks p (hplain ▸ rfl)
            rw [hctx, parse_some hplain]
            dsimp only
            rw [tryAppend_room hroomy.dec (by omega)]
            dsimp only
            by_cases hnone : rest = []
            · subst hnone
              rw [if_neg (by simp), parse_nil, List.append_nil p]
              refine ⟨ctx, ?_, fun _ => hnext⟩
              rw [answerOf, if_neg Bool.false_ne_true, if_neg (by simp [r.nonempty])]
              rfl
            · have hpos : 0 < rest.length := List.length_pos_iff.mpr hnone
              have hcipher : 0 < r.cipher.length := List.length_pos_iff.mpr r.nonempty
              rw [List.length_append, if_pos ⟨hpos, by omega⟩,
                keepTrailing_append _ (by exact hrest.symm)]
              have hahead' : rest <+: ciphers rs := by
                rw [ciphers, List.flatMap_cons] at hahead
                exact (List.prefix_append_right_inj _).mp hahead
              have hrec := @ih rs { t with
                ctx := ctx, dec := { t.dec with data := t.dec.data ++ p },
                enc := { t.enc with data := rest } } hnext hahead' (by dsimp only; omega)
                ⟨hroomy.enc, hroomy.dec, by
                  dsimp only
                  rw [List.length_append]
                  omega⟩
              obtain ⟨ctx', hloop, hspeaks'⟩ := hrec
              dsimp only at hloop hspeaks'
              refine ⟨ctx', ?_, hspeaks'⟩
              rw [hloop]
              refine Prod.ext ?_ ?_
              · simp [answerOf, hnone, r.nonempty]
              · simp [Schannel.decrypted, List.append_assoc]
        · rw [parse_part hcomplete]
          have hpart : t.enc.data <+: r.cipher := by
            rw [ciphers, List.flatMap_cons] at hahead
            exact (List.prefix_or_prefix_of_prefix hahead (List.prefix_append _ _)).resolve_right
              hcomplete
          have hne : t.enc.data ≠ r.cipher := fun heq => hcomplete (heq ▸ List.prefix_refl _)
          rw [hspeaks.2 _ hempty hpart hne]
          refine ⟨t.ctx, ?_, fun _ => hspeaks⟩
          rw [decrypted_same, answerOf, if_neg Bool.false_ne_true, if_pos (Or.inr hempty)]

/-! ### Reads that end with a record -/

/-- The bytes of some reads. -/
def bytesOf (reads : List Segment) : Bytes := (reads.map Segment.bytes).flatten

/-- Every read that completes plaintext ends with a record; `s` was read before. -/
def EndsRecords (rs : List TlsRecord) (s : Bytes) (reads : List Segment) : Prop :=
  ∀ before seg after, reads = before ++ seg :: after →
    (parse rs (s ++ bytesOf before ++ seg.bytes)).plain = (parse rs (s ++ bytesOf before)).plain ∨
      (parse rs (s ++ bytesOf before ++ seg.bytes)).left = []

lemma EndsRecords.nil (rs : List TlsRecord) (s : Bytes) : EndsRecords rs s [] := by
  intro before seg after hreads
  simp at hreads

lemma endsRecords_cons {s : Bytes} {seg : Segment} {reads : List Segment} :
    EndsRecords rs s (seg :: reads) ↔
      ((parse rs (s ++ seg.bytes)).plain = (parse rs s).plain ∨
        (parse rs (s ++ seg.bytes)).left = []) ∧ EndsRecords rs (s ++ seg.bytes) reads := by
  constructor
  · intro hends
    refine ⟨by simpa [bytesOf] using hends [] seg reads rfl, ?_⟩
    intro before seg' after hreads
    have h := hends (seg :: before) seg' after (by rw [hreads]; rfl)
    rwa [show s ++ bytesOf (seg :: before) = s ++ seg.bytes ++ bytesOf before by
      simp [bytesOf]] at h
  · rintro ⟨hfirst, hrest⟩ before seg' after hreads
    cases before with
    | nil =>
      obtain ⟨rfl, rfl⟩ := List.cons.inj hreads
      simpa [bytesOf] using hfirst
    | cons seg'' before =>
      obtain ⟨rfl, rfl⟩ := List.cons.inj hreads
      have h := hrest before seg' after rfl
      rwa [show s ++ bytesOf (seg :: before) = s ++ seg.bytes ++ bytesOf before by simp [bytesOf]]

/-- Nothing is completed behind a `close_notify`. -/
lemma EndsRecords.closed {s : Bytes} (hclosed : (parse rs s).closed = true)
    (reads : List Segment) : EndsRecords rs s reads := by
  intro before seg after hreads
  left
  rw [List.append_assoc, parse_append_closed hclosed, parse_append_closed hclosed]

/-- What was complete before the reads does not matter. -/
lemma endsRecords_parse {s : Bytes} (hopen : (parse rs s).closed = false) (reads : List Segment) :
    EndsRecords rs s reads ↔ EndsRecords (parse rs s).records (parse rs s).left reads := by
  unfold EndsRecords
  refine forall_congr' fun before => forall_congr' fun seg => forall_congr' fun after =>
    imp_congr_right fun _ => ?_
  rw [List.append_assoc, List.append_assoc, parse_append_open hopen, parse_append_open hopen]
  dsimp only
  rw [List.append_right_inj]

/-! ### One pass -/

/-- A connection that is still read from: what was read and was not is the peer's records. -/
structure Running (sspi : Sspi S) (rs : List TlsRecord) (t : Schannel S) : Prop where
  speaks : Speaks sspi rs t.ctx
  ahead : t.enc.data ++ t.inner.unread <+: ciphers rs
  ending : t.inner.ending = .eof
  enc : t.enc.max = schBufferMax
  dec : t.dec.max = schBufferMax
  room : t.enc.data.length ≤ maxRecord + readChunk

/-- A connection that is read from, or was closed by the peer. -/
def Session (sspi : Sspi S) (rs : List TlsRecord) (t : Schannel S) : Prop :=
  t.peerClosed = true ∨ t.peerClosed = false ∧ Running sspi rs t

/-- The plaintext that has still to be handed over. -/
def owing (rs : List TlsRecord) (t : Schannel S) : Bytes :=
  t.dec.data ++ if t.peerClosed then [] else (parse rs (t.enc.data ++ t.inner.unread)).plain

lemma owing_closed (h : t.peerClosed = true) : owing rs t = t.dec.data := by
  rw [owing, if_pos h, List.append_nil]

lemma owing_open (h : t.peerClosed = false) :
    owing rs t = t.dec.data ++ (parse rs (t.enc.data ++ t.inner.unread)).plain := by
  rw [owing, if_neg (by rw [h]; exact Bool.false_ne_true)]

/-- No plaintext is completed in front of a part of a record, neither by what was read nor by
what will be. -/
def Quiet (rs : List TlsRecord) (t : Schannel S) : Prop :=
  t.peerClosed = true ∨
    ((parse rs t.enc.data).plain = [] ∨ (parse rs t.enc.data).left = []) ∧
      EndsRecords rs t.enc.data t.inner.reads

/-- The passes that are left without handing anything over. -/
def Schannel.passes (t : Schannel S) : Nat :=
  2 * t.inner.reads.length + min 1 t.enc.data.length + (!t.peerClosed).toNat

/-- How a part of a run takes the connection from `t` to `t'` and hands over `bs`. -/
structure Passed (sspi : Sspi S) (rs rs' : List TlsRecord) (t t' : Schannel S) (bs : Bytes) :
    Prop where
  session : Session sspi rs' t'
  owes : owing rs t = bs ++ owing rs' t'
  waits : ∃ ws, t'.waited = t.waited ++ ws ∧
    (Quiet rs t ↔ (∀ w ∈ ws, w = []) ∧ Quiet rs' t')

/-- The end of a read of up to `n` bytes. -/
structure Handed (sspi : Sspi S) (n : Nat) (rs rs' : List TlsRecord) (t t' : Schannel S)
    (bs : Bytes) : Prop extends Passed sspi rs rs' t t' bs where
  dry : bs = [] → 0 < n → Quiet rs' t' ∧ (Quiet rs t → owing rs' t' = [])

lemma Passed.trans {rs' rs'' : List TlsRecord} {t' t'' : Schannel S} {bs bs' : Bytes}
    (h : Passed sspi rs rs' t t' bs) (h' : Passed sspi rs' rs'' t' t'' bs') :
    Passed sspi rs rs'' t t'' (bs ++ bs') := by
  obtain ⟨ws, hws, hquiet⟩ := h.waits
  obtain ⟨ws', hws', hquiet'⟩ := h'.waits
  refine ⟨h'.session, by rw [h.owes, h'.owes, List.append_assoc], ws ++ ws', ?_, ?_⟩
  · rw [hws', hws, List.append_assoc]
  · rw [hquiet, hquiet', List.forall_mem_append, and_assoc]

lemma Passed.quiet {rs' : List TlsRecord} {t' : Schannel S} {bs : Bytes}
    (h : Passed sspi rs rs' t t' bs) (hquiet : Quiet rs t) : Quiet rs' t' := by
  obtain ⟨_, _, hiff⟩ := h.waits
  exact (hiff.mp hquiet).2

lemma Handed.after {rs' rs'' : List TlsRecord} {t' t'' : Schannel S} {bs : Bytes}
    (h : Passed sspi rs rs' t t' []) (h' : Handed sspi n rs' rs'' t' t'' bs) :
    Handed sspi n rs rs'' t t'' bs :=
  { h.trans h'.toPassed with
    dry := fun hbs hn => ⟨(h'.dry hbs hn).1, fun hquiet => (h'.dry hbs hn).2 (h.quiet hquiet)⟩ }

/-- Plaintext that is there is handed over. -/
lemma Session.hands (hsession : Session sspi rs t) (hdec : t.dec.data ≠ []) :
    Handed sspi n rs rs t { t with dec := t.dec.consume n } (t.dec.data.take n) := by
  refine { session := ?_, owes := ?_, waits := ⟨[], ?_, ?_⟩, dry := ?_ }
  · refine hsession.imp id fun h => ⟨h.1, ?_⟩
    exact ⟨h.2.speaks, h.2.ahead, h.2.ending, h.2.enc, h.2.dec, h.2.room⟩
  · unfold owing
    dsimp only [Buffer.consume]
    rw [← List.append_assoc, List.take_append_drop]
  · exact (List.append_nil _).symm
  · exact ⟨fun h => ⟨nofun, h⟩, And.right⟩
  · intro htake hn
    have hboth := List.take_eq_nil_iff.mp htake
    exact absurd hboth (by rw [not_or]; exact ⟨hn.ne', hdec⟩)

/-- Behind a `close_notify` nothing follows. -/
lemma Session.ends (hclosed : t.peerClosed = true) (hdec : t.dec.data = []) :
    Handed sspi n rs rs t t [] := by
  have howing : owing rs t = [] := by
    rw [owing_closed hclosed, hdec]
  exact {
    session := Or.inl hclosed
    owes := rfl
    waits := ⟨[], (List.append_nil _).symm, fun h => ⟨nofun, h⟩, And.right⟩
    dry := fun _ _ => ⟨Or.inl hclosed, fun _ => howing⟩ }

section Decrypts

variable {ctx : S}

lemma Running.roomy (hrun : Running sspi rs t) (hdec : t.dec.data = []) : Roomy t :=
  ⟨hrun.enc, hrun.dec, by rw [hdec]; exact (Nat.zero_add _).trans_le hrun.room⟩

lemma Running.decrypted (hrun : Running sspi rs t)
    (hopen : (parse rs t.enc.data).closed = false)
    (hspeaks : Speaks sspi (parse rs t.enc.data).records ctx) :
    Running sspi (parse rs t.enc.data).records (t.decrypted ctx (parse rs t.enc.data)) where
  speaks := hspeaks
  ahead := parse_ahead hrun.ahead hopen
  ending := hrun.ending
  enc := hrun.enc
  dec := hrun.dec
  room := by
    have hlength := (parse_rest rs t.enc.data).length
    have hroom := hrun.room
    dsimp only [Schannel.decrypted]
    omega

lemma owing_decrypted (ctx : S) (hclosed : t.peerClosed = false) (hdec : t.dec.data = [])
    (hopen : (parse rs t.enc.data).closed = false) :
    owing (parse rs t.enc.data).records (t.decrypted ctx (parse rs t.enc.data)) = owing rs t := by
  rw [owing_open hclosed, parse_append_open hopen, hdec]
  rw [owing_open (by exact hclosed)]
  dsimp only [Schannel.decrypted]
  rw [hdec, List.append_assoc]

lemma quiet_decrypted (ctx : S) (hclosed : t.peerClosed = false)
    (hopen : (parse rs t.enc.data).closed = false) :
    Quiet rs t ↔ ((parse rs t.enc.data).plain = [] ∨ (parse rs t.enc.data).left = []) ∧
      Quiet (parse rs t.enc.data).records (t.decrypted ctx (parse rs t.enc.data)) := by
  have hagain := (parse_rest rs t.enc.data).again hopen
  unfold Quiet
  dsimp only [Schannel.decrypted]
  rw [hclosed, hagain, endsRecords_parse hopen]
  simp

/-- A `close_notify` behind the complete records. -/
lemma Session.closes (hclosed : t.peerClosed = false)
    (hclose : (parse rs t.enc.data).closed = true) :
    Passed sspi rs rs t
      { t.decrypted ctx (parse rs t.enc.data) with peerClosed := true } [] where
  session := Or.inl rfl
  owes := by
    rw [owing_open hclosed, parse_append_closed hclose, owing_closed rfl]
    rfl
  waits := by
    refine ⟨[], (List.append_nil _).symm, fun _ => ⟨nofun, Or.inl rfl⟩, fun _ => Or.inr ?_⟩
    exact ⟨Or.inr ((parse_rest rs _).closed hclose), EndsRecords.closed hclose _⟩

/-- Records without anything behind them. -/
lemma Running.decrypts (hrun : Running sspi rs t) (hclosed : t.peerClosed = false)
    (hdec : t.dec.data = []) (hopen : (parse rs t.enc.data).closed = false)
    (hspeaks : Speaks sspi (parse rs t.enc.data).records ctx)
    (hleft : (parse rs t.enc.data).left = []) :
    Passed sspi rs (parse rs t.enc.data).records t
      (t.decrypted ctx (parse rs t.enc.data)) [] where
  session := Or.inr ⟨hclosed, hrun.decrypted hopen hspeaks⟩
  owes := (owing_decrypted ctx hclosed hdec hopen).symm
  waits := by
    refine ⟨[], (List.append_nil _).symm, ?_⟩
    rw [quiet_decrypted ctx hclosed hopen]
    exact ⟨fun h => ⟨nofun, h.2⟩, fun h => ⟨Or.inr hleft, h.2⟩⟩

lemma plain_blocked (hblocked : t.enc.data = [] ∨ (parse rs t.enc.data).left ≠ []) :
    (parse rs t.enc.data).plain = [] ∨ (parse rs t.enc.data).left = [] ↔
      (parse rs t.enc.data).plain = [] := by
  refine or_iff_left_of_imp fun hleft => ?_
  have hempty := hblocked.resolve_right (not_not.mpr hleft)
  rw [hempty, parse_nil]

/-- The inner stream is waited for when a part of a record is there or nothing is. -/
lemma Running.waits (hrun : Running sspi rs t) (hclosed : t.peerClosed = false)
    (hdec : t.dec.data = []) (hopen : (parse rs t.enc.data).closed = false)
    (hspeaks : Speaks sspi (parse rs t.enc.data).records ctx)
    (hblocked : t.enc.data = [] ∨ (parse rs t.enc.data).left ≠ []) :
    Passed sspi rs (parse rs t.enc.data).records t
      { t.decrypted ctx (parse rs t.enc.data) with
        waited := t.waited ++ [t.dec.data ++ (parse rs t.enc.data).plain] } [] where
  session := by
    have h := hrun.decrypted hopen hspeaks
    exact Or.inr ⟨hclosed, h.speaks, h.ahead, h.ending, h.enc, h.dec, h.room⟩
  owes := (owing_decrypted ctx hclosed hdec hopen).symm
  waits := by
    refine ⟨[t.dec.data ++ (parse rs t.enc.data).plain], rfl, ?_⟩
    rw [quiet_decrypted ctx hclosed hopen, plain_blocked hblocked,
      List.forall_mem_singleton, hdec, List.nil_append]
    exact Iff.rfl

end Decrypts

/-- A read of the inner stream behind a part of a record. -/
lemma Running.reads {seg : Segment} {reads : List Segment} (hrun : Running sspi rs t)
    (hclosed : t.peerClosed = false)
    (hpart : parse rs t.enc.data = ⟨[], false, rs, t.enc.data⟩)
    (hreads : t.inner.reads = seg :: reads) :
    Passed sspi rs rs t
      { t with inner := { t.inner with reads := reads },
               enc := { t.enc with data := t.enc.data ++ seg.bytes } } [] where
  session := by
    refine Or.inr ⟨hclosed, hrun.speaks, ?_, hrun.ending, hrun.enc, hrun.dec, ?_⟩
    · have hahead := hrun.ahead
      unfold Transport.unread at hahead
      rw [hreads] at hahead
      dsimp only [Transport.unread]
      rwa [List.append_assoc]
    · have hleft := parse_left ((List.prefix_append _ _).trans hrun.ahead)
      rw [hpart] at hleft
      have hfits := seg.fits
      dsimp only at hleft ⊢
      rw [List.length_append]
      omega
  owes := by
    rw [owing_open hclosed, owing_open (by exact hclosed)]
    dsimp only [Transport.unread]
    rw [hreads, List.append_assoc]
    rfl
  waits := by
    refine ⟨[], (List.append_nil _).symm, ?_⟩
    unfold Quiet
    dsimp only
    rw [hclosed, hreads, endsRecords_cons, hpart]
    simp

lemma readInner_eof (hreads : t.inner.reads = []) (hending : t.inner.ending = .eof) :
    readInner t = (some (.ok []), { t with waited := t.waited ++ [t.dec.data] }) := by
  unfold readInner
  dsimp only
  unfold Transport.read
  rw [hreads, hending]
  dsimp only
  rw [if_pos rfl]

lemma readInner_reads {seg : Segment} {reads : List Segment} (hreads : t.inner.reads = seg :: reads)
    (hmax : t.enc.max = schBufferMax) (hroom : t.enc.data.length ≤ maxRecord) :
    readInner t = (none,
      { t with waited := t.waited ++ [t.dec.data], inner := { t.inner with reads := reads },
               enc := { t.enc with data := t.enc.data ++ seg.bytes } }) := by
  have hfits := seg.fits
  unfold readInner
  dsimp only
  unfold Transport.read
  rw [hreads]
  dsimp only
  rw [if_neg seg.nonempty, tryAppend_room hmax (by omega)]

/-- What a pass of the loop does. -/
lemma schPass_spec (hsession : Session sspi rs t) :
    (∃ rs' t', schPass sspi n t = (none, t') ∧ Passed sspi rs rs' t t' [] ∧
      t'.passes < t.passes) ∨
    ∃ rs' t' bs, schPass sspi n t = (some (.ok bs), t') ∧ Handed sspi n rs rs' t t' bs := by
  unfold schPass
  by_cases hdec : t.dec.data = []
  · rw [if_neg (not_not.mpr hdec)]
    obtain hclosed | ⟨hclosed, hrun⟩ := hsession
    · rw [if_pos hclosed]
      exact Or.inr ⟨rs, t, [], rfl, Session.ends hclosed hdec⟩
    · rw [if_neg (by rw [hclosed]; exact Bool.false_ne_true)]
      obtain ⟨ctx, hdecrypt, hspeaks⟩ := decryptLoop_spec (t.enc.data.length + 1) hrun.speaks
        ((List.prefix_append _ _).trans hrun.ahead) (Nat.lt_succ_self _) (hrun.roomy hdec)
      unfold decryptAvailable
      rw [hdecrypt]
      unfold answerOf
      cases hclose : (parse rs t.enc.data).closed with
      | true =>
        rw [if_pos rfl]
        refine Or.inl ⟨rs, _, rfl, Session.closes hclosed hclose, ?_⟩
        have hleft := (parse_rest rs t.enc.data).closed hclose
        unfold Schannel.passes
        dsimp only [Schannel.decrypted]
        rw [hclosed, hleft, List.length_nil, Bool.not_true, Bool.not_false, Bool.toNat_false,
          Bool.toNat_true]
        omega
      | false =>
        rw [if_neg Bool.false_ne_true]
        by_cases hblocked : t.enc.data = [] ∨ (parse rs t.enc.data).left ≠ []
        · rw [if_pos hblocked]
          have hwaits := hrun.waits hclosed hdec hclose (hspeaks hclose) hblocked
          have hnext := hrun.decrypted hclose (hspeaks hclose)
          have hagain := (parse_rest rs t.enc.data).again hclose
          dsimp only
          cases hreads : t.inner.reads with
          | nil =>
            rw [readInner_eof (by exact hreads) (by exact hrun.ending)]
            refine Or.inr ⟨_, _, _, rfl, { hwaits with dry := fun _ _ => ⟨?_, fun hquiet => ?_⟩ }⟩
            · refine Or.inr ⟨Or.inl (congrArg Parsed.plain hagain), ?_⟩
              dsimp only [Schannel.decrypted]
              rw [hreads]
              exact EndsRecords.nil _ _
            · have hplain := (plain_blocked hblocked).mp
                ((quiet_decrypted ctx hclosed hclose).mp hquiet).1
              have howes := hwaits.owes
              rw [owing_open hclosed, Transport.unread, hreads, List.map_nil, List.flatten_nil,
                List.append_nil, hplain, hdec] at howes
              exact howes.symm
          | cons seg reads =>
            have hleft := parse_left ((List.prefix_append _ _).trans hrun.ahead)
            rw [readInner_reads (by exact hreads) (by exact hrun.enc) hleft]
            have hnext' : Running sspi (parse rs t.enc.data).records
                { t.decrypted ctx (parse rs t.enc.data) with
                  waited := t.waited ++ [t.dec.data ++ (parse rs t.enc.data).plain] } :=
              ⟨hnext.speaks, hnext.ahead, hnext.ending, hnext.enc, hnext.dec, hnext.room⟩
            refine Or.inl ⟨_, _, rfl, hwaits.trans (hnext'.reads hclosed hagain hreads), ?_⟩
            have henc := hrun.enc
            unfold Schannel.passes
            dsimp only [Schannel.decrypted]
            rw [hreads, hclosed, List.length_cons]
            simp only [Bool.not_false, Bool.toNat_true]
            omega
        · obtain ⟨henc, hleft⟩ := not_or.mp hblocked
          have hleft := not_not.mp hleft
          rw [if_neg hblocked]
          refine Or.inl ⟨_, _, rfl, hrun.decrypts hclosed hdec hclose (hspeaks hclose) hleft, ?_⟩
          have hpos := List.length_pos_iff.mpr henc
          unfold Schannel.passes
          dsimp only [Schannel.decrypted]
          rw [hleft, List.length_nil]
          omega
  · rw [if_pos hdec]
    exact Or.inr ⟨rs, _, _, rfl, hsession.hands hdec⟩

/-! ### Reads -/

/-- A read ends, and hands over the next bytes. -/
lemma schLoop_spec (k : Nat) (hsession : Session sspi rs t) (hk : t.passes < k) :
    ∃ rs' t' bs, schLoop sspi n k t = (.ok bs, t') ∧ Handed sspi n rs rs' t t' bs := by
  induction k generalizing t rs with
  | zero => omega
  | succ k ih =>
    unfold schLoop
    obtain ⟨rs', t', hpass, hpassed, hless⟩ | ⟨rs', t', bs, hpass, hhanded⟩ :=
      schPass_spec (n := n) hsession
    · rw [hpass]
      obtain ⟨rs'', t'', bs, hloop, hhanded⟩ := ih hpassed.session (by omega)
      exact ⟨rs'', t'', bs, hloop, hhanded.after hpassed⟩
    · rw [hpass]
      exact ⟨rs', t', bs, rfl, hhanded⟩

lemma schRead_spec (n : Nat) (hsession : Session sspi rs t) :
    ∃ rs' t' bs, schRead sspi n t = (.ok bs, t') ∧ Handed sspi n rs rs' t t' bs := by
  refine schLoop_spec _ hsession ?_
  have hbool := Bool.toNat_le (!t.peerClosed)
  unfold Schannel.passes
  omega

/-- The results of reads of these sizes are the plaintext in order, all of it before a read of
some bytes gets none. -/
def Lossless (plain : Bytes) (sizes : List Nat) (results : List (Except Fail Bytes)) : Prop :=
  ∃ bss : List Bytes, results = bss.map .ok ∧ bss.length = sizes.length ∧
    bss.flatten <+: plain ∧
    ∀ i n, sizes[i]? = some n → 0 < n → bss[i]? = some [] → (bss.take i).flatten = plain

lemma schReads_spec (sizes : List Nat) (hsession : Session sspi rs t) :
    ∃ rs' t', ∃ bss : List Bytes, schReads sspi sizes t = (bss.map .ok, t') ∧
      bss.length = sizes.length ∧ Passed sspi rs rs' t t' bss.flatten ∧
      (Quiet rs t → ∀ i n, sizes[i]? = some n → 0 < n → bss[i]? = some [] →
        (bss.take i).flatten = owing rs t) := by
  induction sizes generalizing t rs with
  | nil =>
    exact ⟨rs, t, [], rfl, rfl, ⟨hsession, rfl, [], (List.append_nil _).symm,
      fun h => ⟨nofun, h⟩, And.right⟩, nofun⟩
  | cons n sizes ih =>
    obtain ⟨rs', t', bs, hread, hhanded⟩ := schRead_spec n hsession
    obtain ⟨rs'', t'', bss, hreads, hlength, hpassed, hends⟩ := ih hhanded.session
    refine ⟨rs'', t'', bs :: bss, ?_, congrArg Nat.succ hlength,
      hhanded.toPassed.trans hpassed, ?_⟩
    · rw [schReads, hread]
      dsimp only
      rw [hreads]
      rfl
    · intro hquiet i m hsize hpos hempty
      cases i with
      | zero =>
        obtain rfl : n = m := Option.some.inj hsize
        obtain rfl : bs = [] := Option.some.inj hempty
        rw [hhanded.owes, (hhanded.dry rfl hpos).2 hquiet]
        rfl
      | succ i =>
        rw [List.take_succ_cons, List.flatten_cons,
          hends (hhanded.quiet hquiet) i m hsize hpos hempty, hhanded.owes]

/-- Where plaintext is completed in front of a part of a record, some read waits with it. -/
lemma quiet_of_reads (hsession : Session sspi rs t)
    (hwaits : ∀ sizes, ∀ w ∈ (schReads sspi sizes t).2.waited, w = []) : Quiet rs t := by
  -- what is still owed gets shorter with every read that hands over something
  induction hm : (owing rs t).length using Nat.strong_induction_on generalizing t rs with
  | _ m ih =>
    obtain ⟨rs', t', bs, hread, hhanded⟩ := schRead_spec 1 hsession
    obtain ⟨ws, hws, hiff⟩ := hhanded.waits
    have hwait := hwaits [1]
    simp only [schReads, hread] at hwait
    refine hiff.mpr ⟨fun w hw => hwait w (hws ▸ List.mem_append_right _ hw), ?_⟩
    by_cases hnone : bs = []
    · exact (hhanded.dry hnone Nat.one_pos).1
    · refine ih (owing rs' t').length ?_ hhanded.session (fun sizes w hw => ?_) rfl
      · have howes := congrArg List.length hhanded.owes
        have hpos := List.length_pos_iff.mpr hnone
        rw [List.length_append] at howes
        omega
      · refine hwaits (1 :: sizes) w ?_
        rw [schReads, hread]
        exact hw

/-- A connection behind its handshake hands over all plaintext without waiting while some is
there, for every sequence of reads, if and only if no read of the inner stream that completes
plaintext goes on into the next record. -/
theorem schReads_lossless (sspi : Sspi S) (rs : List TlsRecord) (ctx : S) (inner : Transport)
    (hspeaks : Speaks sspi rs ctx) (hunread : inner.unread <+: ciphers rs)
    (hending : inner.ending = .eof) :
    (∀ sizes,
      Lossless (parse rs inner.unread).plain sizes
        (schReads sspi sizes (Schannel.start ctx inner)).1 ∧
      ∀ w ∈ (schReads sspi sizes (Schannel.start ctx inner)).2.waited, w = []) ↔
    EndsRecords rs [] inner.reads := by
  have hsession : Session sspi rs (Schannel.start ctx inner) :=
    Or.inr ⟨rfl, hspeaks, hunread, hending, rfl, rfl, Nat.zero_le _⟩
  have howing : owing rs (Schannel.start ctx inner) = (parse rs inner.unread).plain := rfl
  have hquiet : Quiet rs (Schannel.start ctx inner) ↔ EndsRecords rs [] inner.reads := by
    unfold Quiet Schannel.start
    dsimp only [Buffer.init]
    rw [parse_nil]
    simp
  rw [← hquiet]
  constructor
  · intro hreads
    exact quiet_of_reads hsession fun sizes => (hreads sizes).2
  · intro h sizes
    obtain ⟨rs', t', bss, hreads, hlength, hpassed, hends⟩ := schReads_spec sizes hsession
    obtain ⟨ws, hws, hiff⟩ := hpassed.waits
    rw [hreads]
    refine ⟨⟨bss, rfl, hlength, ?_, howing ▸ hends h⟩, fun w hw => (hiff.mp h).1 w ?_⟩
    · rw [← howing, hpassed.owes]
      exact List.prefix_append _ _
    · rw [hws] at hw
      exact (List.mem_append.mp hw).resolve_left (by simp [Schannel.start])

/-! ### A connection with these records -/

/-- What `DecryptMessage` does when the peer sends these records. -/
def recordSspi : Sspi (List TlsRecord) where
  decrypt
    | [], _ => (.failed "no record", [])
    | r :: rs, enc =>
      if r.cipher <+: enc then
        match r.plain with
        | some p => (.ok p (enc.length - r.cipher.length), rs)
        | none => (.expired, rs)
      else (.incomplete, r :: rs)

lemma recordSspi_speaks (rs : List TlsRecord) : Speaks recordSspi rs rs := by
  induction rs with
  | nil => trivial
  | cons r rs ih =>
    refine ⟨fun rest => ?_, fun enc _ hpart hne => if_neg fun hwhole => ?_⟩
    · dsimp only [recordSspi]
      rw [if_pos (List.prefix_append _ _)]
      cases r.plain with
      | none => exact ⟨rs, rfl⟩
      | some p =>
        refine ⟨rs, ?_, ih⟩
        rw [List.length_append, Nat.add_sub_cancel_left]
    · exact hne (hpart.eq_of_length_le hwhole.length_le)

/-- A record of one byte of application data. -/
def byteRecord (b : UInt8) : TlsRecord where
  cipher := [23, 3, 3, 0, 1, b]
  plain := some [b]
  nonempty := List.cons_ne_nil _ _
  fits := (by decide : 6 ≤ maxRecord)
  shrinks := by simp

/-- Two records; all of the first comes with one byte of the second, and then the end. -/
def splitRecord : Transport where
  reads := [⟨[23, 3, 3, 0, 1, 65, 23], List.cons_ne_nil _ _, by decide⟩]

/-- The read of the stream reports its end while the first record's plaintext is there. -/
theorem schReads_stalls :
    let run := schReads recordSspi [10]
      (Schannel.start [byteRecord 65, byteRecord 66] splitRecord)
    Speaks recordSspi [byteRecord 65, byteRecord 66] [byteRecord 65, byteRecord 66] ∧
    splitRecord.unread <+: ciphers [byteRecord 65, byteRecord 66] ∧
    splitRecord.ending = .eof ∧
    ¬Lossless (parse [byteRecord 65, byteRecord 66] splitRecord.unread).plain [10] run.1 ∧
    ¬∀ w ∈ run.2.waited, w = [] := by
  intro run
  have hwaited : run.2.waited = [[], [65]] := by decide +kernel
  have hresult : run.1 = [.ok []] := by rfl
  have hplain : (parse [byteRecord 65, byteRecord 66] splitRecord.unread).plain = [65] := by
    decide +kernel
  refine ⟨recordSspi_speaks _, by decide +kernel, rfl, ?_, ?_⟩
  · rw [hplain, hresult]
    rintro ⟨bss, hbss, _, _, hends⟩
    obtain ⟨bs, _, rfl, hbs, hnil⟩ := List.map_eq_cons_iff.mp hbss.symm
    obtain rfl := List.map_eq_nil_iff.mp hnil
    obtain rfl : bs = [] := Except.ok.inj hbs
    exact absurd (hends 0 10 rfl (by decide) rfl) (by decide)
  · rw [hwaited]
    decide

/-- Both records in a read of their own. -/
theorem schReads_lossless_whole :
    Lossless [65, 66] [10, 10, 10]
      (schReads recordSspi [10, 10, 10] (Schannel.start [byteRecord 65, byteRecord 66]
        { reads := [⟨[23, 3, 3, 0, 1, 65], List.cons_ne_nil _ _, by decide⟩,
            ⟨[23, 3, 3, 0, 1, 66], List.cons_ne_nil _ _, by decide⟩] })).1 := by
  have hends : EndsRecords [byteRecord 65, byteRecord 66] []
      [⟨[23, 3, 3, 0, 1, 65], List.cons_ne_nil _ _, by decide⟩,
        ⟨[23, 3, 3, 0, 1, 66], List.cons_ne_nil _ _, by decide⟩] := by
    rw [endsRecords_cons, endsRecords_cons]
    exact ⟨Or.inr (by decide +kernel), Or.inr (by decide +kernel), EndsRecords.nil _ _⟩
  have h := ((schReads_lossless recordSspi [byteRecord 65, byteRecord 66]
    [byteRecord 65, byteRecord 66] { reads := _ } (recordSspi_speaks _) (by decide +kernel)
    rfl).mpr hends [10, 10, 10]).1
  exact h

end Zuhttp
