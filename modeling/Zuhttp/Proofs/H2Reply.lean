import Zuhttp.Library.Decimal
import Zuhttp.Library.Run
import Zuhttp.Proofs.Completion
import Zuhttp.Proofs.H2Body
import Zuhttp.Proofs.Request

/-!
# The head and the trailers of an HTTP/2 response

A reply is a number of interim heads, the final one and trailers. A reader of header blocks
says what is known of the reply after any part of it, and the driver's callbacks mirror it.
-/

namespace Zuhttp

namespace H2

/-! ### A reply -/

abbrev Field := Bytes × Bytes

def Field.Regular (f : Field) : Prop := f.1.head? ≠ some 58

instance (f : Field) : Decidable f.Regular := inferInstanceAs (Decidable (_ ≠ _))

def statusName : Bytes := ascii ":status"

/-- Three digits. -/
def IsStatus (value : Bytes) : Prop := value.length = 3 ∧ ∀ c ∈ value, 48 ≤ c ∧ c ≤ 57

instance (value : Bytes) : Decidable (IsStatus value) :=
  inferInstanceAs (Decidable (_ ∧ ∀ c ∈ value, _))

def Informational (status : Bytes) : Prop :=
  100 ≤ Decimal.decimalValue status ∧ Decimal.decimalValue status < 200

instance (status : Bytes) : Decidable (Informational status) :=
  inferInstanceAs (Decidable (_ ∧ _))

/-- The head of a response, `:status` before its fields. -/
structure ReplyHead where
  status : Bytes
  fields : List Field
  endStream : Bool
  isStatus : IsStatus status
  regular : ∀ f ∈ fields, f.Regular

/-- What a server answers on a stream. -/
structure Reply where
  interims : List ReplyHead
  final : ReplyHead
  trailers : Option (List Field)
  informational : ∀ b ∈ interims, Informational b.status
  isFinal : ¬Informational final.status
  regular : ∀ fs, trailers = some fs → ∀ f ∈ fs, f.Regular

def fieldEvents (sid : Nat) (fs : List Field) : List H2Event :=
  fs.map (fun f => .header sid f.1 f.2)

def blockEvents (sid : Nat) (fs : List Field) (endStream : Bool) : List H2Event :=
  .beginHeaders sid :: (fieldEvents sid fs ++ [.frameRecv (.headers sid endStream)])

def ReplyHead.block (b : ReplyHead) : List Field := (statusName, b.status) :: b.fields

def ReplyHead.events (sid : Nat) (b : ReplyHead) : List H2Event :=
  blockEvents sid b.block b.endStream

/-- The callbacks that nghttp2 makes for the header blocks of a reply. -/
def Reply.events (sid : Nat) (r : Reply) : List H2Event :=
  r.interims.flatMap (ReplyHead.events sid) ++ r.final.events sid ++
    (match r.trailers with
    | none => []
    | some fs => blockEvents sid fs true)

/-- The event is of a header block of the stream. -/
def ofBlock (sid : Nat) : H2Event → Bool
  | .beginHeaders s => s = sid
  | .header s _ _ => s = sid
  | .frameRecv (.headers s _) => s = sid
  | _ => false

def headerEvents (sid : Nat) (es : List H2Event) : List H2Event := es.filter (ofBlock sid)

/-- HPACK's size of a list of fields. -/
def blockSize (fs : List Field) : Nat :=
  (fs.map (fun f => f.1.length + f.2.length + fieldOverhead)).sum

/-- The header list of fields that it takes one after the other. -/
def fill (fs : List Field) : Option Headers :=
  fs.foldlM (fun h f => (h.add f.1 f.2).toOption) Headers.init

/-! ### Reading header blocks -/

/-- What is known of a reply from a part of it. -/
inductive Phase
  | waiting
  | opened
  | inside (status : Bytes) (fields : List Field)
  | answered (status : Bytes) (fields : List Field) (endStream : Bool)
      (trailers : Option (List Field))

def Phase.read : Phase → H2Event → Option Phase
  | .waiting, .beginHeaders _ => some .opened
  | .opened, .header _ name value =>
    if name = statusName ∧ IsStatus value then some (.inside value []) else none
  | .inside status fs, .header _ name value =>
    if Field.Regular (name, value) then some (.inside status (fs ++ [(name, value)])) else none
  | .inside status fs, .frameRecv (.headers _ endStream) =>
    if Informational status then some .waiting else some (.answered status fs endStream none)
  | .answered status fs endStream none, .beginHeaders _ =>
    some (.answered status fs endStream (some []))
  | .answered status fs endStream (some ts), .header _ name value =>
    if Field.Regular (name, value) then
      some (.answered status fs endStream (some (ts ++ [(name, value)])))
    else none
  | .answered status fs endStream (some ts), .frameRecv (.headers _ _) =>
    some (.answered status fs endStream (some ts))
  | _, _ => none

abbrev readAll : Phase → List H2Event → Option Phase := Run.exec Phase.read

lemma readAll_fields {sid : Nat} {status : Bytes} {fs gs : List Field}
    (hregular : ∀ f ∈ gs, f.Regular) :
    readAll (.inside status fs) (fieldEvents sid gs) = some (.inside status (fs ++ gs)) := by
  induction gs generalizing fs with
  | nil => simp [fieldEvents]
  | cons f gs ih =>
    obtain ⟨hf, hgs⟩ := List.forall_mem_cons.mp hregular
    refine Run.exec_cons_eq_some.mpr ⟨.inside status (fs ++ [f]), ?_, ?_⟩
    · exact if_pos hf
    · rw [List.append_cons fs f gs]
      exact ih hgs

lemma readAll_trailers {sid : Nat} {status : Bytes} {fs ts gs : List Field} {ended : Bool}
    (hregular : ∀ f ∈ gs, f.Regular) :
    readAll (.answered status fs ended (some ts)) (fieldEvents sid gs) =
      some (.answered status fs ended (some (ts ++ gs))) := by
  induction gs generalizing ts with
  | nil => simp [fieldEvents]
  | cons f gs ih =>
    obtain ⟨hf, hgs⟩ := List.forall_mem_cons.mp hregular
    refine Run.exec_cons_eq_some.mpr ⟨.answered status fs ended (some (ts ++ [f])), ?_, ?_⟩
    · exact if_pos hf
    · rw [List.append_cons ts f gs]
      exact ih hgs

lemma readAll_head (sid : Nat) (b : ReplyHead) :
    readAll .waiting (b.events sid) = if Informational b.status then some .waiting
      else some (.answered b.status b.fields b.endStream none) := by
  have hstart : Phase.read .opened (.header sid statusName b.status) =
      some (.inside b.status []) := if_pos ⟨rfl, b.isStatus⟩
  have hfields : readAll (.inside b.status []) (fieldEvents sid b.fields) =
      some (.inside b.status b.fields) := readAll_fields b.regular
  have hend : readAll (.inside b.status b.fields) [.frameRecv (.headers sid b.endStream)] =
      if Informational b.status then some .waiting
      else some (.answered b.status b.fields b.endStream none) := by
    dsimp only [readAll, Run.exec, Phase.read]
    split_ifs <;> rfl
  have hrest : readAll .opened (fieldEvents sid b.block ++
      [.frameRecv (.headers sid b.endStream)]) =
      readAll (.inside b.status b.fields) [.frameRecv (.headers sid b.endStream)] :=
    (Run.exec_cons_of_eq_some hstart).trans (Run.exec_append_of_eq_some hfields)
  rw [← hend, ← hrest]
  rfl

lemma readAll_interims (sid : Nat) (bs : List ReplyHead) (h : ∀ b ∈ bs, Informational b.status) :
    readAll .waiting (bs.flatMap (ReplyHead.events sid)) = some .waiting := by
  induction bs with
  | nil => rfl
  | cons b bs ih =>
    obtain ⟨hb, hbs⟩ := List.forall_mem_cons.mp h
    rw [List.flatMap_cons]
    have hhead := readAll_head sid b
    rw [if_pos hb] at hhead
    exact Run.exec_append.mpr ⟨.waiting, hhead, ih hbs⟩

/-- All of a reply is read. -/
theorem readAll_reply (sid : Nat) (r : Reply) : readAll .waiting (r.events sid) =
    some (.answered r.final.status r.final.fields r.final.endStream r.trailers) := by
  have hinterims := readAll_interims sid r.interims r.informational
  have hfinal := readAll_head sid r.final
  rw [if_neg r.isFinal] at hfinal
  unfold Reply.events
  rw [List.append_assoc]
  refine (Run.exec_append_of_eq_some hinterims).trans
    ((Run.exec_append_of_eq_some hfinal).trans ?_)
  cases htrailers : r.trailers with
  | none => rfl
  | some fs =>
    have hfields : readAll (.answered r.final.status r.final.fields r.final.endStream (some []))
        (fieldEvents sid fs) = some (.answered r.final.status r.final.fields r.final.endStream
          (some fs)) := readAll_trailers (r.regular fs htrailers)
    exact (Run.exec_cons_of_eq_some rfl).trans ((Run.exec_append_of_eq_some hfields).trans rfl)

lemma read_answered {e : H2Event} {status : Bytes} {fs : List Field} {ended : Bool}
    {ts : Option (List Field)} {ph : Phase}
    (h : Phase.read (.answered status fs ended ts) e = some ph) :
    ∃ ts', ph = .answered status fs ended ts' := by
  cases ts with
  | none =>
    cases e with
    | beginHeaders s =>
      cases h
      exact ⟨_, rfl⟩
    | _ => cases h
  | some ts =>
    cases e with
    | header s name value =>
      dsimp only [Phase.read] at h
      split_ifs at h
      cases h
      exact ⟨_, rfl⟩
    | frameRecv f =>
      cases f with
      | headers s ended' =>
        cases h
        exact ⟨_, rfl⟩
      | _ => cases h
    | _ => cases h

/-- What was answered stays. -/
lemma answered_stays {es : List H2Event} {status : Bytes} {fs : List Field} {ended : Bool}
    {ts : Option (List Field)} {ph : Phase}
    (h : readAll (.answered status fs ended ts) es = some ph) :
    ∃ ts', ph = .answered status fs ended ts' := by
  refine Run.exec_invariant (I := fun ph => ∃ ts', ph = Phase.answered status fs ended ts') ?_
    ⟨ts, rfl⟩ h
  rintro s e s' ⟨us, rfl⟩ hstep
  exact read_answered hstep

/-! ### The driver mirrors the reader -/

/-- The final head has not come. -/
structure Unanswered (h : H2) : Prop where
  headersDone : h.headersDone = false
  inTrailers : h.inTrailers = false
  endedOnHeaders : h.endedOnHeaders = false
  trailers : h.trailers = Headers.init

/-- The driver's state is what was read. -/
inductive Mirrors (h : H2) : Phase → Prop
  | waiting (hopen : Unanswered h) : Mirrors h .waiting
  | opened (hopen : Unanswered h) (hblock : h.blockBytes = 0)
      (hhdrs : h.hdrs = some Headers.init) : Mirrors h .opened
  | inside {status : Bytes} {fs : List Field} {hdrs : Headers} (hopen : Unanswered h)
      (hstatus : h.status = Decimal.decimalValue status)
      (hblock : h.blockBytes = blockSize ((statusName, status) :: fs))
      (hfits : h.blockBytes ≤ h.maxHeaderBytes) (hhdrs : h.hdrs = some hdrs)
      (hfill : fill fs = some hdrs) : Mirrors h (.inside status fs)
  | answered {status : Bytes} {fs : List Field} {ended : Bool} {ts : Option (List Field)}
      (hdone : h.headersDone = true) (htrailing : h.inTrailers = ts.isSome)
      (hended : h.endedOnHeaders = ended) (hstatus : h.status = Decimal.decimalValue status)
      (hhdrs : ∀ hdrs, h.hdrs = some hdrs → fill fs = some hdrs)
      (htrailers : fill (ts.getD []) = some h.trailers)
      (hblock : ∀ us, ts = some us → h.blockBytes = blockSize us ∧
        h.blockBytes ≤ h.maxHeaderBytes) : Mirrors h (.answered status fs ended ts)

/-- What the header blocks are read into is the same. -/
structure SameHead (h h' : H2) : Prop where
  headersDone : h'.headersDone = h.headersDone
  inTrailers : h'.inTrailers = h.inTrailers
  endedOnHeaders : h'.endedOnHeaders = h.endedOnHeaders
  trailers : h'.trailers = h.trailers
  status : h'.status = h.status
  hdrs : h'.hdrs = h.hdrs
  blockBytes : h'.blockBytes = h.blockBytes
  maxHeaderBytes : h'.maxHeaderBytes = h.maxHeaderBytes

variable {h h' : H2} {ph ph' : Phase}

lemma Unanswered.of_same (hopen : Unanswered h) (hsame : SameHead h h') : Unanswered h' :=
  ⟨hsame.headersDone.trans hopen.headersDone, hsame.inTrailers.trans hopen.inTrailers,
    hsame.endedOnHeaders.trans hopen.endedOnHeaders, hsame.trailers.trans hopen.trailers⟩

lemma Mirrors.of_same (hm : Mirrors h ph) (hsame : SameHead h h') : Mirrors h' ph := by
  cases hm with
  | waiting hopen => exact .waiting (hopen.of_same hsame)
  | opened hopen hblock hhdrs =>
    exact .opened (hopen.of_same hsame) (hsame.blockBytes.trans hblock) (hsame.hdrs.trans hhdrs)
  | inside hopen hstatus hblock hfits hhdrs hfill =>
    refine .inside (hopen.of_same hsame) (hsame.status.trans hstatus)
      (hsame.blockBytes.trans hblock) ?_ (hsame.hdrs.trans hhdrs) hfill
    rw [hsame.blockBytes, hsame.maxHeaderBytes]
    exact hfits
  | answered hdone htrailing hended hstatus hhdrs htrailers hblock =>
    refine .answered (hsame.headersDone.trans hdone) (hsame.inTrailers.trans htrailing)
      (hsame.endedOnHeaders.trans hended) (hsame.status.trans hstatus) ?_ ?_ ?_
    · rw [hsame.hdrs]
      exact hhdrs
    · rw [hsame.trailers]
      exact htrailers
    · rw [hsame.blockBytes, hsame.maxHeaderBytes]
      exact hblock

lemma statusOf_eq {value : Bytes} (hvalue : IsStatus value) :
    statusOf value = some (Decimal.decimalValue value : Int) := by
  obtain ⟨hlen, hdigits⟩ := hvalue
  obtain ⟨a, b, c, rfl⟩ := List.length_eq_three.mp hlen
  simp only [List.mem_cons, List.not_mem_nil, or_false, forall_eq_or_imp, forall_eq,
    UInt8.le_iff_toNat_le] at hdigits
  obtain ⟨ha, hb, hc⟩ := hdigits
  simp only [statusOf, Decimal.decimalValue_cons, Decimal.decimalValue_nil, List.length_cons,
    List.length_nil, Option.some.injEq]
  simp at ha hb hc
  omega

lemma fill_append {fs : List Field} {hdrs : Headers} (hfill : fill fs = some hdrs) (f : Field) :
    fill (fs ++ [f]) = (hdrs.add f.1 f.2).toOption := by
  unfold fill at hfill ⊢
  rw [List.foldlM_append, hfill]
  simp

lemma blockSize_append (fs : List Field) (f : Field) :
    blockSize (fs ++ [f]) = blockSize fs + f.1.length + f.2.length + fieldOverhead := by
  simp [blockSize]
  omega

/-! ### Each callback -/

lemma onBeginHeaders_mirrors (hm : Mirrors h ph)
    (hread : ph.read (.beginHeaders h.sid) = some ph')
    (hcb : h.onBeginHeaders h.sid = (h', false)) : Mirrors h' ph' := by
  unfold onBeginHeaders at hcb
  rw [if_neg (not_not_intro rfl)] at hcb
  dsimp only at hcb
  cases hm with
  | waiting hopen =>
    cases hread
    rw [if_neg (by simp [hopen.headersDone])] at hcb
    split at hcb
    · exact absurd hcb not_cbFailWith
    · cases hcb
      exact .opened ⟨hopen.headersDone, hopen.inTrailers, hopen.endedOnHeaders, hopen.trailers⟩
        rfl rfl
  | opened => cases hread
  | inside => cases hread
  | @answered _ _ _ ts hdone htrailing hended hstatus hhdrs htrailers hblock =>
    cases ts with
    | some ts => cases hread
    | none =>
      cases hread
      rw [if_pos hdone] at hcb
      cases hcb
      refine .answered hdone rfl hended hstatus hhdrs htrailers (fun us hus => ?_)
      cases hus
      exact ⟨rfl, Nat.zero_le _⟩

/-- A field that is taken: the block's size, and the status or the list it is added to. -/
lemma onHeader_taken {name value : Bytes} (hcb : h.onHeader h.sid name value = (h', false)) :
    let n := h.blockBytes + name.length + value.length + fieldOverhead
    n ≤ h.maxHeaderBytes ∧
      (name = statusName → ∀ v, statusOf value = some v → h.inTrailers = false →
        h' = { h with blockBytes := n, status := v }) ∧
      (Field.Regular (name, value) → h.inTrailers = true →
        ∃ t, h.trailers.add name value = .ok t ∧ h' = { h with blockBytes := n, trailers := t }) ∧
      (Field.Regular (name, value) → h.inTrailers = false → ∀ hdrs, h.hdrs = some hdrs →
        ∃ t, hdrs.add name value = .ok t ∧ h' = { h with blockBytes := n, hdrs := some t }) := by
  unfold onHeader at hcb
  rw [if_neg (not_not_intro rfl)] at hcb
  dsimp only at hcb ⊢
  by_cases hsize : h.blockBytes + name.length + value.length + fieldOverhead > h.maxHeaderBytes
  · rw [if_pos hsize] at hcb
    exact absurd hcb not_cbFailWith
  · rw [if_neg hsize] at hcb
    refine ⟨Nat.le_of_not_gt hsize, ?_, ?_, ?_⟩
    · rintro rfl v hv htr
      rw [if_pos (by decide), hv] at hcb
      dsimp only at hcb
      rw [if_pos ⟨htr, rfl⟩] at hcb
      cases hcb
      rfl
    · intro hregular htr
      rw [if_neg hregular, if_pos htr] at hcb
      split at hcb
      · next t hadd =>
        cases hcb
        exact ⟨t, hadd, rfl⟩
      · exact absurd hcb not_cbFailWith
    · intro hregular htr hdrs hhdrs
      rw [if_neg hregular, if_neg (by simp [htr]), hhdrs] at hcb
      dsimp only at hcb
      split at hcb
      · next t hadd =>
        cases hcb
        exact ⟨t, hadd, rfl⟩
      · exact absurd hcb not_cbFailWith

lemma onHeader_mirrors {name value : Bytes} (hm : Mirrors h ph)
    (hread : ph.read (.header h.sid name value) = some ph')
    (hcb : h.onHeader h.sid name value = (h', false)) : Mirrors h' ph' := by
  obtain ⟨hfits, hpseudo, htrailer, hfield⟩ := onHeader_taken hcb
  cases hm with
  | waiting => cases hread
  | opened hopen hblock hhdrs =>
    dsimp only [Phase.read] at hread
    split_ifs at hread with hstatus
    cases hread
    obtain ⟨rfl, hvalue⟩ := hstatus
    obtain rfl := hpseudo rfl _ (statusOf_eq hvalue) hopen.inTrailers
    refine .inside ⟨hopen.headersDone, hopen.inTrailers, hopen.endedOnHeaders, hopen.trailers⟩
      rfl ?_ hfits hhdrs rfl
    simp [hblock, blockSize]
  | @inside status fs hdrs hopen hstatus hblock _ hhdrs hfill =>
    dsimp only [Phase.read] at hread
    split_ifs at hread with hregular
    cases hread
    obtain ⟨t, hadd, rfl⟩ := hfield hregular hopen.inTrailers hdrs hhdrs
    refine .inside ⟨hopen.headersDone, hopen.inTrailers, hopen.endedOnHeaders, hopen.trailers⟩
      hstatus ?_ hfits rfl ?_
    · rw [← List.cons_append, blockSize_append, ← hblock]
    · rw [fill_append hfill, hadd]
      rfl
  | @answered _ _ _ ts hdone htrailing hended hstatus hhdrs htrailers hblock =>
    cases ts with
    | none => cases hread
    | some ts =>
      dsimp only [Phase.read] at hread
      split_ifs at hread with hregular
      cases hread
      obtain ⟨t, hadd, rfl⟩ := htrailer hregular htrailing
      refine .answered hdone htrailing hended hstatus hhdrs ?_ (fun us hus => ?_)
      · have hts : fill ts = some h.trailers := htrailers
        rw [Option.getD_some, fill_append hts, hadd]
        rfl
      · cases hus
        rw [blockSize_append, ← (hblock ts rfl).1]
        exact ⟨rfl, hfits⟩

lemma onFrameRecv_mirrors {ended : Bool} (hm : Mirrors h ph) (hsid : h.sid ≠ 0)
    (hread : ph.read (.frameRecv (.headers h.sid ended)) = some ph')
    (hcb : h.onFrameRecv (.headers h.sid ended) = (h', false)) : Mirrors h' ph' := by
  unfold onFrameRecv at hcb
  dsimp only at hcb
  rw [if_neg (by simp [hsid])] at hcb
  cases hm with
  | waiting => cases hread
  | opened => cases hread
  | @inside status fs hdrs hopen hstatus hblock hfits hhdrs hfill =>
    rw [if_neg (by simp [hopen.inTrailers])] at hcb
    have hrange : (100 ≤ h.status ∧ h.status < 200) ↔ Informational status := by
      rw [hstatus]
      unfold Informational
      omega
    dsimp only [Phase.read] at hread
    by_cases hinterim : Informational status
    · rw [if_pos hinterim] at hread
      rw [if_pos (hrange.mpr hinterim), hhdrs] at hcb
      cases hread
      cases hcb
      exact .waiting ⟨hopen.headersDone, hopen.inTrailers, hopen.endedOnHeaders, hopen.trailers⟩
    · rw [if_neg hinterim] at hread
      rw [if_neg (fun h => hinterim (hrange.mp h))] at hcb
      cases hread
      cases hcb
      refine .answered rfl hopen.inTrailers ?_ hstatus (fun t ht => ?_) ?_
        (fun us hus => by cases hus)
      · simp [hopen.endedOnHeaders]
      · cases hhdrs.symm.trans ht
        exact hfill
      · exact congrArg some hopen.trailers.symm
  | @answered _ _ _ ts hdone htrailing hended hstatus hhdrs htrailers hblock =>
    cases ts with
    | none => cases hread
    | some ts =>
      cases hread
      have htr : h.inTrailers = true := htrailing
      rw [if_pos htr] at hcb
      cases hcb
      exact .answered hdone htrailing hended hstatus hhdrs htrailers hblock

lemma callback_same {e : H2Event} (hother : ofBlock h.sid e = false)
    (hcb : h.callback e = (h', false)) : SameHead h h' := by
  unfold callback at hcb
  cases e with
  | beginHeaders s =>
    have hs : s ≠ h.sid := by simpa [ofBlock] using hother
    dsimp only [onBeginHeaders] at hcb
    rw [if_pos hs] at hcb
    cases hcb
    exact ⟨rfl, rfl, rfl, rfl, rfl, rfl, rfl, rfl⟩
  | header s name value =>
    have hs : s ≠ h.sid := by simpa [ofBlock] using hother
    dsimp only [onHeader] at hcb
    rw [if_pos hs] at hcb
    cases hcb
    exact ⟨rfl, rfl, rfl, rfl, rfl, rfl, rfl, rfl⟩
  | frameRecv f =>
    cases f with
    | headers s ended =>
      have hs : s ≠ h.sid := by simpa [ofBlock] using hother
      dsimp only [onFrameRecv] at hcb
      rw [if_pos (Or.inl hs)] at hcb
      cases hcb
      exact ⟨rfl, rfl, rfl, rfl, rfl, rfl, rfl, rfl⟩
    | rstStream s code =>
      dsimp only [onFrameRecv] at hcb
      split_ifs at hcb <;>
      · cases hcb
        exact ⟨rfl, rfl, rfl, rfl, rfl, rfl, rfl, rfl⟩
    | _ =>
      cases hcb
      exact ⟨rfl, rfl, rfl, rfl, rfl, rfl, rfl, rfl⟩
  | dataChunk s bytes =>
    dsimp only [onData] at hcb
    split_ifs at hcb
    · cases hcb
      exact ⟨rfl, rfl, rfl, rfl, rfl, rfl, rfl, rfl⟩
    · exact absurd hcb not_cbFailWith
    · cases hcb
      exact ⟨rfl, rfl, rfl, rfl, rfl, rfl, rfl, rfl⟩
  | streamClose s code =>
    dsimp only [onClose] at hcb
    split_ifs at hcb <;>
    · cases hcb
      exact ⟨rfl, rfl, rfl, rfl, rfl, rfl, rfl, rfl⟩

/-- Where the reader goes on, the driver goes with it. -/
lemma Mirrors.callback {e : H2Event} (hm : Mirrors h ph) (hsid : h.sid ≠ 0)
    (hof : ofBlock h.sid e = true) (hread : ph.read e = some ph')
    (hcb : h.callback e = (h', false)) : Mirrors h' ph' := by
  unfold H2.callback at hcb
  dsimp only at hcb
  have hheard : Mirrors { h with
      heard := h.heard ++ [e], lawful := h.lawful && h.documented e } ph :=
    hm.of_same ⟨rfl, rfl, rfl, rfl, rfl, rfl, rfl, rfl⟩
  cases e with
  | beginHeaders s =>
    obtain rfl : s = h.sid := by simpa [ofBlock] using hof
    exact onBeginHeaders_mirrors hheard hread hcb
  | header s name value =>
    obtain rfl : s = h.sid := by simpa [ofBlock] using hof
    exact onHeader_mirrors hheard hread hcb
  | frameRecv f =>
    cases f with
    | headers s ended =>
      obtain rfl : s = h.sid := by simpa [ofBlock] using hof
      exact onFrameRecv_mirrors hheard hsid hread hcb
    | _ => cases hof
  | dataChunk s bytes => cases hof
  | streamClose s code => cases hof

/-! ### What follows from what was heard -/

/-- The block that is read keeps to the limit, and the header list takes its fields. -/
def Phase.Fits (limit : Nat) : Phase → Prop
  | .inside status fs => blockSize ((statusName, status) :: fs) ≤ limit ∧ (fill fs).isSome
  | .answered _ _ _ (some ts) => blockSize ts ≤ limit ∧ (fill ts).isSome
  | _ => True

lemma Mirrors.fits (hm : Mirrors h ph) : ph.Fits h.maxHeaderBytes := by
  cases hm with
  | waiting => trivial
  | opened => trivial
  | inside hopen hstatus hblock hfits hhdrs hfill =>
    exact ⟨hblock ▸ hfits, by rw [hfill]; rfl⟩
  | @answered _ _ _ ts hdone htrailing hended hstatus hhdrs htrailers hblock =>
    cases ts with
    | none => trivial
    | some ts =>
      obtain ⟨hsize, hfits⟩ := hblock ts rfl
      refine ⟨hsize ▸ hfits, ?_⟩
      rw [show fill ts = some h.trailers from htrailers]
      rfl

/-- The header blocks heard so far. -/
def blocks (h : H2) : List H2Event := headerEvents h.sid h.heard

/-- As far as the blocks heard are those of a reply, the driver mirrors them, and no part of
them broke a limit or was refused. -/
structure Follows (h : H2) (ph : Phase) : Prop where
  mirrors : Mirrors h ph
  fits : ∀ part, part <+: h.blocks → ∀ ph', readAll .waiting part = some ph' →
    ph'.Fits h.maxHeaderBytes

def FollowsAll (h : H2) : Prop :=
  h.sid ≠ 0 → ∀ ph, readAll .waiting h.blocks = some ph → Follows h ph

lemma headerEvents_append (sid : Nat) (es : List H2Event) (e : H2Event) :
    headerEvents sid (es ++ [e]) = headerEvents sid es ++ if ofBlock sid e then [e] else [] := by
  unfold headerEvents
  rw [List.filter_append]
  cases hof : ofBlock sid e with
  | false => simp [hof]
  | true => simp [hof]

lemma follows_kept : Kept FollowsAll where
  callback := by
    intro h h' e hh hcb hsid ph' hread
    have heff := callback_effect hcb
    have hlimit := (callback_untouched h e).maxHeaderBytes
    rw [hcb] at hlimit
    dsimp only at hlimit
    have hblocks : h'.blocks = h.blocks ++ if ofBlock h.sid e then [e] else [] := by
      unfold blocks
      rw [heff.sid, heff.heard, headerEvents_append]
    rw [heff.sid] at hsid
    cases hof : ofBlock h.sid e with
    | false =>
      rw [hof, if_neg Bool.false_ne_true, List.append_nil] at hblocks
      rw [hblocks] at hread
      obtain ⟨hmirrors, hfits⟩ := hh hsid ph' hread
      refine ⟨hmirrors.of_same (callback_same hof hcb), ?_⟩
      rw [hblocks, hlimit]
      exact hfits
    | true =>
      rw [hof, if_pos rfl] at hblocks
      rw [hblocks] at hread
      obtain ⟨ph, hbefore, hstep⟩ := Run.exec_append.mp hread
      obtain ⟨ph₁, hnext, hnil⟩ := Run.exec_cons_eq_some.mp hstep
      rw [Run.exec_nil, Option.some.injEq] at hnil
      subst hnil
      obtain ⟨hmirrors, hfits⟩ := hh hsid ph hbefore
      have hmirrors' := hmirrors.callback hsid hof hnext hcb
      refine ⟨hmirrors', fun part hpart ph₂ hph₂ => ?_⟩
      rw [hblocks] at hpart
      rcases List.prefix_concat_iff.mp hpart with rfl | hbefore'
      · cases hread.symm.trans hph₂
        exact hmirrors'.fits
      · rw [hlimit]
        exact hfits part hbefore' ph₂ hph₂
  env := by
    intro h env allowed failed hh hsid ph hread
    obtain ⟨hmirrors, hfits⟩ := hh hsid ph hread
    exact ⟨hmirrors.of_same ⟨rfl, rfl, rfl, rfl, rfl, rfl, rfl, rfl⟩, hfits⟩

/-- A request that waits for its head: the list to fill is there, and only a block of its own
stream ends the wait. -/
structure Asking (h : H2) : Prop where
  lent : h.hdrs.isSome = true
  stream : h.headersDone = true → h.sid ≠ 0

lemma asking_kept : Kept Asking where
  callback := by
    intro h h' e hh hcb
    obtain ⟨hdrs, hhdrs⟩ := Option.isSome_iff_exists.mp hh.lent
    cases e with
    | beginHeaders s =>
      dsimp only [H2.callback, onBeginHeaders] at hcb
      rw [hhdrs] at hcb
      split_ifs at hcb <;>
      · cases hcb
        exact ⟨rfl, hh.stream⟩
    | header s name value =>
      dsimp only [H2.callback] at hcb
      obtain ⟨n, t, d, st, heq⟩ := onHeader_effect hcb
      refine ⟨?_, by rw [heq]; exact hh.stream⟩
      dsimp only [onHeader] at hcb
      rw [hhdrs] at hcb
      dsimp only at hcb
      repeat' split at hcb
      all_goals first
        | (cases hcb; rfl)
        | exact absurd hcb not_cbFailWith
    | frameRecv f =>
      cases f with
      | headers s ended =>
        dsimp only [H2.callback, onFrameRecv] at hcb
        rw [hhdrs] at hcb
        dsimp only at hcb
        split_ifs at hcb with hother
        · cases hcb
          exact ⟨rfl, hh.stream⟩
        · cases hcb
          exact ⟨rfl, hh.stream⟩
        · cases hcb
          exact ⟨rfl, hh.stream⟩
        · cases hcb
          exact ⟨rfl, fun _ hzero => hother (Or.inr hzero)⟩
      | rstStream s code =>
        dsimp only [H2.callback, onFrameRecv] at hcb
        split_ifs at hcb <;>
        · cases hcb
          exact ⟨hh.lent, hh.stream⟩
      | _ =>
        cases hcb
        exact ⟨hh.lent, hh.stream⟩
    | dataChunk s bytes =>
      dsimp only [H2.callback, onData] at hcb
      split_ifs at hcb
      · cases hcb
        exact ⟨hh.lent, hh.stream⟩
      · exact absurd hcb not_cbFailWith
      · cases hcb
        exact ⟨hh.lent, hh.stream⟩
    | streamClose s code =>
      dsimp only [H2.callback, onClose] at hcb
      split_ifs at hcb <;>
      · cases hcb
        exact ⟨hh.lent, hh.stream⟩
  env := fun _ _ _ hh => ⟨hh.lent, hh.stream⟩

/-- Every pass of the wait reads, or is followed by one that fails. -/
lemma beginStep_left {h h' : H2} (hstep : h.beginStep = (h', none)) :
    (if h'.closed then 0 else h'.env.reads.length + 1) <
      if h.closed then 0 else h.env.reads.length + 1 := by
  unfold beginStep at hstep
  split_ifs at hstep with hclosed
  · split at hstep
    · cases hstep
    · cases hstep
  · rw [if_neg hclosed]
    rcases pumpStream_reads hstep with hclosed' | hless
    · rw [if_pos hclosed']
      exact Nat.succ_pos _
    · split_ifs
      · exact Nat.succ_pos _
      · omega

/-- A request that was answered has waited until the head was there. -/
lemma begin_ok {h h' : H2} {rq : H2Request} {hdrs : Headers} {resp : H2Response}
    (hbegin : h.begin rq hdrs = (h', .ok resp)) :
    ∃ t, FollowsAll t ∧ Asking t ∧ t.headersDone = true ∧ h' = { t with hdrs := none } ∧
      resp = ⟨t.status, t.hdrs.getD Headers.init, t.endedOnHeaders⟩ := by
  unfold H2.begin at hbegin
  split_ifs at hbegin
  · cases hbegin
  · cases hbegin
  · dsimp only at hbegin
    split at hbegin
    · cases hbegin
    · next answer submits _ =>
      cases answer with
      | error f => cases hbegin
      | ok sid =>
        dsimp only at hbegin
        generalize hloop : Loop.iterate beginStep headersDone _ _ = r at hbegin
        obtain ⟨t, res⟩ := r
        cases res with
        | some f => cases hbegin
        | none =>
          cases hbegin
          have hdone := Loop.iterate_done (I := fun _ => True)
            (m := fun h => if h.closed then 0 else h.env.reads.length + 1)
            (fun _ _ _ _ hstep => Or.inr ⟨trivial, beginStep_left hstep⟩) trivial
            (by dsimp only [freshStream]; simp; omega) hloop
          have hkept := (Loop.iterate_reached hloop).invariant
            (I := fun h => FollowsAll h ∧ Asking h) ?_
            (fun s s' hs _ hstep => beginStep_keeps (follows_kept.and asking_kept) hs hstep)
          · exact ⟨t, hkept.1, hkept.2, hdone, rfl, rfl⟩
          · refine ⟨fun _ ph hread => ?_, rfl, fun hdone => by cases hdone⟩
            cases hread
            refine ⟨.waiting ⟨rfl, rfl, rfl, rfl⟩, fun part hpart ph' hph' => ?_⟩
            obtain rfl := List.prefix_nil.mp hpart
            cases hph'
            trivial

/-! ### The body -/

lemma flush_blocks (h : H2) :
    h.flush.1.blocks = h.blocks ∧ h.flush.1.maxHeaderBytes = h.maxHeaderBytes ∧
      h.flush.1.sid = h.sid := by
  have hcloses : ∀ (h : H2) (closes : List (Nat × Nat)),
      (h.heardCloses closes).blocks = h.blocks := by
    intro h closes
    induction closes generalizing h with
    | nil => rfl
    | cons c closes ih =>
      rw [heardCloses_cons, ih]
      have hstep : h.callback (.streamClose c.1 c.2) =
          ((h.callback (.streamClose c.1 c.2)).1, false) := rfl
      have heff := callback_effect hstep
      unfold blocks
      rw [heff.sid, heff.heard, headerEvents_append]
      exact List.append_nil _
  cases hnext : h.env.flushes with
  | nil =>
    unfold flush
    rw [hnext]
    exact ⟨rfl, rfl, rfl⟩
  | cons a rest =>
    have hsame := h.heardCloses_untouched a.closes
    rw [flush_answer h a rest hnext]
    exact ⟨hcloses h a.closes, hsame.maxHeaderBytes, hsame.sid⟩

variable {Z : Zlib}

/-- At the end of a body its trailers are those that were read. -/
structure ReadOff (st : BodyState Z) (ph : Phase) : Prop where
  trailers : ∀ status fs ended ts, ph = .answered status fs ended ts →
    fill (ts.getD []) = some st.pipe.trailers
  fits : ∀ part, part <+: st.conn.blocks → ∀ ph', readAll .waiting part = some ph' →
    ph'.Fits st.conn.maxHeaderBytes

def ReadOffAll (st : BodyState Z) : Prop :=
  st.conn.sid ≠ 0 → ∀ ph, readAll .waiting st.conn.blocks = some ph → ReadOff st ph

/-- The stream and, while its body is read, the driver mirrors the blocks; then the trailers
are handed over. -/
structure Reading (st : BodyState Z) : Prop where
  stream : st.conn.sid ≠ 0
  either : (st.done = false ∧ FollowsAll st.conn) ∨ (st.done = true ∧ ReadOffAll st)

lemma Mirrors.trailers {status : Bytes} {fs : List Field} {ended : Bool}
    {ts : Option (List Field)} (hm : Mirrors h (.answered status fs ended ts)) :
    fill (ts.getD []) = some h.trailers := by
  cases hm with
  | answered hdone htrailing hended hstatus hhdrs htrailers hblock => exact htrailers

lemma stream_kept : Kept (fun h => h.sid ≠ 0) where
  callback := by
    intro h h' e hh hcb
    rw [(callback_effect hcb).sid]
    exact hh
  env := fun _ _ _ hh => hh

lemma endStep_reading {p : BodyPipe Z} {st : BodyState Z} (hsid : h.sid ≠ 0)
    (hh : FollowsAll h) (hstep : endStep h p = (st, none)) : Reading st := by
  have hcases := endStep_cases h p
  rw [hstep] at hcases
  cases hcases with
  | goesOn hfeed hopen =>
    refine ⟨hsid, Or.inl ⟨rfl, fun _ ph hread => ?_⟩⟩
    obtain ⟨hmirrors, hfits⟩ := hh hsid ph hread
    exact ⟨hmirrors.of_same ⟨rfl, rfl, rfl, rfl, rfl, rfl, rfl, rfl⟩, hfits⟩
  | ended hfeed hclosed hcode hfinish =>
    obtain ⟨hblocks, hlimit, hsid'⟩ := flush_blocks { h.drained with trailers := Headers.init }
    refine ⟨fun hzero => hsid (hsid'.symm.trans hzero), Or.inr ⟨rfl, fun _ ph hread => ?_⟩⟩
    dsimp only at hread
    rw [hblocks] at hread
    obtain ⟨hmirrors, hfits⟩ := hh hsid ph hread
    refine ⟨fun status fs ended ts hph => ?_, ?_⟩
    · subst hph
      exact hmirrors.trailers
    · dsimp only
      rw [hblocks, hlimit]
      exact hfits

lemma bodyStep_reading {st st' : BodyState Z} (hsid : st.conn.sid ≠ 0) (hh : FollowsAll st.conn)
    (hstep : bodyStep st = (st', none)) : Reading st' := by
  unfold bodyStep at hstep
  split_ifs at hstep with hwaits
  · split at hstep
    · cases hstep
    · next t hpump =>
      have hkept := pumpStream_keeps (stream_kept.and follows_kept) ⟨hsid, hh⟩ hpump
      exact endStep_reading hkept.1 hkept.2 hstep
  · exact endStep_reading hsid hh hstep

lemma body_reading {p : BodyPipe Z} {st : BodyState Z} (hsid : h.sid ≠ 0) (hh : FollowsAll h)
    (hreached : Loop.Reached bodyStep BodyState.done ⟨h, p, false⟩ st) : Reading st := by
  refine hreached.invariant ⟨hsid, Or.inl ⟨rfl, hh⟩⟩ (fun s s' hs hgoing hstep => ?_)
  rcases hs.either with ⟨-, hfollows⟩ | ⟨hdone, -⟩
  · exact bodyStep_reading hs.stream hfollows hstep
  · rw [hgoing] at hdone
    cases hdone

lemma Reading.fits {st : BodyState Z} (hr : Reading st)
    (hread : readAll .waiting st.conn.blocks = some ph) :
    ∀ part, part <+: st.conn.blocks → ∀ ph', readAll .waiting part = some ph' →
      ph'.Fits st.conn.maxHeaderBytes := by
  rcases hr.either with ⟨-, hfollows⟩ | ⟨-, hoff⟩
  · exact (hfollows hr.stream ph hread).fits
  · exact (hoff hr.stream ph hread).fits

/-! ### What breaks a limit -/

/-- A block, as far as it was heard, is larger than the limit, or has a field that the header
list refuses. -/
def Breaks (limit sid : Nat) (heard : List H2Event) : Prop :=
  ∃ before fs, before ++ .beginHeaders sid :: fieldEvents sid fs <+: heard ∧
    (limit < blockSize fs ∨ fill (fs.filter Field.Regular) = none)

lemma filter_regular {fs : List Field} (h : ∀ f ∈ fs, f.Regular) :
    fs.filter Field.Regular = fs :=
  List.filter_eq_self.mpr (fun f hf => decide_eq_true (h f hf))

lemma readAll_fields_inv {sid : Nat} {status : Bytes} {fs gs : List Field}
    (h : readAll (.inside status fs) (fieldEvents sid gs) = some ph) :
    ph = .inside status (fs ++ gs) ∧ ∀ f ∈ gs, f.Regular := by
  induction gs generalizing fs with
  | nil =>
    cases h
    simp
  | cons f gs ih =>
    obtain ⟨ph₁, hstep, hrest⟩ := Run.exec_cons_eq_some.mp h
    dsimp only [Phase.read] at hstep
    split_ifs at hstep with hf
    cases hstep
    obtain ⟨hph, hgs⟩ := ih hrest
    exact ⟨by rw [hph, List.append_assoc]; rfl, List.forall_mem_cons.mpr ⟨hf, hgs⟩⟩

lemma readAll_trailers_inv {sid : Nat} {status : Bytes} {fs ts gs : List Field} {ended : Bool}
    (h : readAll (.answered status fs ended (some ts)) (fieldEvents sid gs) = some ph) :
    ph = .answered status fs ended (some (ts ++ gs)) ∧ ∀ f ∈ gs, f.Regular := by
  induction gs generalizing ts with
  | nil =>
    cases h
    simp
  | cons f gs ih =>
    obtain ⟨ph₁, hstep, hrest⟩ := Run.exec_cons_eq_some.mp h
    dsimp only [Phase.read] at hstep
    split_ifs at hstep with hf
    cases hstep
    obtain ⟨hph, hgs⟩ := ih hrest
    exact ⟨by rw [hph, List.append_assoc]; rfl, List.forall_mem_cons.mpr ⟨hf, hgs⟩⟩

/-- A part of what can be read can be read. -/
lemma readAll_part {es part : List H2Event} (hpart : part <+: es)
    (hread : readAll .waiting es = some ph) : ∃ ph', readAll .waiting part = some ph' := by
  obtain ⟨rest, rfl⟩ := hpart
  obtain ⟨ph', hph', -⟩ := Run.exec_append.mp hread
  exact ⟨ph', hph'⟩

/-- The reader sees what is too large or refused. -/
lemma not_breaks {limit sid : Nat} {heard : List H2Event}
    (hread : readAll .waiting heard = some ph)
    (hfits : ∀ part, part <+: heard → ∀ ph', readAll .waiting part = some ph' → ph'.Fits limit) :
    ¬Breaks limit sid heard := by
  rintro ⟨before, fs, hpart, hbreak⟩
  obtain ⟨ph₃, hph₃⟩ := readAll_part hpart hread
  have hgood := hfits _ hpart _ hph₃
  obtain ⟨ph₁, -, hblock⟩ := Run.exec_append.mp hph₃
  obtain ⟨ph₂, hbegin, hfields⟩ := Run.exec_cons_eq_some.mp hblock
  cases ph₁ with
  | waiting =>
    cases hbegin
    cases fs with
    | nil =>
      rcases hbreak with hlarge | hrefused
      · exact absurd hlarge (Nat.not_lt_zero _)
      · cases hrefused
    | cons f gs =>
      obtain ⟨ph₄, hstatus, hrest⟩ := Run.exec_cons_eq_some.mp hfields
      obtain ⟨name, value⟩ := f
      dsimp only [Phase.read] at hstatus
      split_ifs at hstatus with hname
      cases hstatus
      obtain ⟨rfl, hregular⟩ := readAll_fields_inv hrest
      obtain ⟨rfl, -⟩ := hname
      obtain ⟨hsize, hfill⟩ := hgood
      rw [List.nil_append] at hsize hfill
      rcases hbreak with hlarge | hrefused
      · exact absurd hsize (Nat.not_le_of_lt hlarge)
      · rw [List.filter_cons_of_neg (by simp [Field.Regular, statusName, ascii]),
          filter_regular hregular] at hrefused
        rw [hrefused] at hfill
        cases hfill
  | opened => cases hbegin
  | inside => cases hbegin
  | answered status gs ended ts =>
    cases ts with
    | some ts => cases hbegin
    | none =>
      cases hbegin
      obtain ⟨rfl, hregular⟩ := readAll_trailers_inv hfields
      obtain ⟨hsize, hfill⟩ := hgood
      rw [List.nil_append] at hsize hfill
      rcases hbreak with hlarge | hrefused
      · exact absurd hsize (Nat.not_le_of_lt hlarge)
      · rw [filter_regular hregular] at hrefused
        rw [hrefused] at hfill
        cases hfill

/-- A header list has the fields it was filled with. -/
lemma fill_fields {fs : List Field} {hdrs : Headers} (h : fill fs = some hdrs) :
    hdrs.fields = fs := by
  induction fs using List.reverseRecOn generalizing hdrs with
  | nil =>
    cases h
    rfl
  | append_singleton fs f ih =>
    cases hfs : fill fs with
    | none =>
      unfold fill at h hfs
      rw [List.foldlM_append, hfs] at h
      cases h
    | some h₁ =>
      rw [fill_append hfs] at h
      cases hadd : h₁.add f.1 f.2 with
      | error code =>
        rw [hadd] at h
        cases h
      | ok h₂ =>
        rw [hadd] at h
        cases h
        rw [(Headers.add_fields hadd).1, ih hfs]

/-! ### A request and its reply -/

/-- The response handed out is the final head. -/
structure IsFinal (r : Reply) (resp : H2Response) : Prop where
  status : resp.status = Decimal.decimalValue r.final.status
  headers : resp.headers.fields = r.final.fields
  bodiless : resp.bodiless = r.final.endStream
  regular : ∀ f ∈ resp.headers.fields, f.1.head? ≠ some 58

/-- What the body's calls make of the rest of a reply. -/
structure Finishes (r : Reply) (h : H2) : Prop where
  trailers : ∀ (Z : Zlib) (p : BodyPipe Z) (st : BodyState Z),
    Loop.Reached bodyStep BodyState.done ⟨h, p, false⟩ st → st.done = true →
      st.conn.blocks = r.events st.conn.sid → st.pipe.trailers.fields = r.trailers.getD [] ∧
        ∀ f ∈ st.pipe.trailers.fields, f.1.head? ≠ some 58
  broken : ∀ (Z : Zlib) (p : BodyPipe Z) (st st' : BodyState Z) (res : Option Fail),
    Loop.Reached bodyStep BodyState.done ⟨h, p, false⟩ st → st.done = false →
      bodyStep st = (st', res) → st'.conn.blocks <+: r.events st'.conn.sid →
        Breaks st'.conn.maxHeaderBytes st'.conn.sid st'.conn.blocks → res ≠ none

/-- A request whose blocks, as far as they were heard, are those of the reply. -/
structure ReplyExact (r : Reply) (h : H2) (res : Except Fail H2Response) : Prop where
  final : ∀ resp, res = .ok resp → IsFinal r resp
  broken : Breaks h.maxHeaderBytes h.sid h.blocks → ∃ f, res = .error f
  rest : ∀ resp, res = .ok resp → Finishes r h

lemma readAll_of_prefix {sid : Nat} {r : Reply} {es : List H2Event}
    (hpart : es <+: r.events sid) : ∃ ph, readAll .waiting es = some ph :=
  readAll_part hpart (readAll_reply sid r)

/-- The first block that was not informational is the reply's final head. -/
lemma answered_final {sid : Nat} {r : Reply} {es : List H2Event} {status : Bytes}
    {fs : List Field} {ended : Bool} {ts : Option (List Field)} (hpart : es <+: r.events sid)
    (hread : readAll .waiting es = some (.answered status fs ended ts)) :
    status = r.final.status ∧ fs = r.final.fields ∧ ended = r.final.endStream := by
  obtain ⟨rest, hall⟩ := hpart
  have hreply := readAll_reply sid r
  rw [← hall] at hreply
  obtain ⟨ph, hph, hrest⟩ := Run.exec_append.mp hreply
  cases hread.symm.trans hph
  obtain ⟨ts', heq⟩ := answered_stays hrest
  cases heq
  exact ⟨rfl, rfl, rfl⟩

/-- After the head, the body's calls meet the rest of the reply. -/
lemma finishes {r : Reply} (hsid : h.sid ≠ 0) (hh : FollowsAll h) : Finishes r h where
  trailers := by
    intro Z p st hreached hdone hblocks
    have hreading := body_reading hsid hh hreached
    have hread := readAll_reply st.conn.sid r
    rw [← hblocks] at hread
    rcases hreading.either with ⟨hgoing, -⟩ | ⟨-, hoff⟩
    · rw [hdone] at hgoing
      cases hgoing
    · have hfill := (hoff hreading.stream _ hread).trailers _ _ _ _ rfl
      have hfields := fill_fields hfill
      refine ⟨hfields, fun f hf => ?_⟩
      rw [hfields] at hf
      cases htrailers : r.trailers with
      | none =>
        rw [htrailers] at hf
        cases hf
      | some ts =>
        rw [htrailers] at hf
        exact r.regular ts htrailers f hf
  broken := by
    intro Z p st st' res hreached hgoing hstep hpart hbreaks hnone
    subst hnone
    have hreading := body_reading hsid hh hreached
    obtain ⟨ph, hread⟩ := readAll_of_prefix hpart
    rcases hreading.either with ⟨-, hfollows⟩ | ⟨hdone, -⟩
    · have hnext := bodyStep_reading hreading.stream hfollows hstep
      exact not_breaks hread (hnext.fits hread) hbreaks
    · rw [hgoing] at hdone
      cases hdone

/-- What `zuh_h2_begin` and the calls for the body hand out is the reply, and a block that is
too large or has a field that is refused makes them fail. -/
theorem reply_exact (h : H2) (rq : H2Request) (hdrs : Headers) (r : Reply) :
    let run := h.begin rq hdrs
    run.1.blocks <+: r.events run.1.sid → ReplyExact r run.1 run.2 := by
  intro run hpart
  cases hbegin : run with
  | mk h' res =>
    rw [hbegin] at hpart
    dsimp only at hpart ⊢
    cases res with
    | error f =>
      refine ⟨fun resp hresp => (by cases hresp), fun _ => ⟨f, rfl⟩,
        fun resp hresp => (by cases hresp)⟩
    | ok resp =>
      obtain ⟨t, hfollows, hasking, hdone, rfl, rfl⟩ := begin_ok hbegin
      have hblocks : H2.blocks { t with hdrs := none } = t.blocks := rfl
      rw [hblocks] at hpart
      obtain ⟨ph, hread⟩ := readAll_of_prefix hpart
      have hsid := hasking.stream hdone
      obtain ⟨hmirrors, hfits⟩ := hfollows hsid ph hread
      obtain ⟨got, hgot⟩ := Option.isSome_iff_exists.mp hasking.lent
      cases hmirrors with
      | waiting hopen => rw [hopen.headersDone] at hdone; cases hdone
      | opened hopen => rw [hopen.headersDone] at hdone; cases hdone
      | inside hopen => rw [hopen.headersDone] at hdone; cases hdone
      | @answered status fs ended ts _ htrailing hended hstatus hhdrs htrailers hblock =>
        obtain ⟨rfl, rfl, rfl⟩ := answered_final hpart hread
        have hfields : got.fields = r.final.fields := fill_fields (hhdrs got hgot)
        have hfollows' : FollowsAll { t with hdrs := none } := by
          intro _ ph' hread'
          cases hread.symm.trans hread'
          exact ⟨.answered hdone htrailing hended hstatus (fun _ hnone => by cases hnone)
            htrailers hblock, hfits⟩
        refine ⟨fun resp hresp => ?_, fun hbreaks => ?_, fun _ _ => finishes hsid hfollows'⟩
        · cases hresp
          rw [hgot, Option.getD_some]
          refine ⟨hstatus, hfields, hended, fun f hf => ?_⟩
          rw [hfields] at hf
          exact r.final.regular f hf
        · exact absurd hbreaks (not_breaks hread hfits)

/-- Early hints, a response with a body, and a trailer. -/
def hinted : Reply where
  interims := [⟨ascii "103", [(ascii "link", ascii "</a>")], false, by decide +kernel,
    by decide +kernel⟩]
  final := ⟨ascii "200", [(ascii "server", ascii "s")], false, by decide +kernel,
    by decide +kernel⟩
  trailers := some [(ascii "digest", ascii "d")]
  informational := by decide +kernel
  isFinal := by decide +kernel
  regular := by
    intro fs hfs
    cases hfs
    decide +kernel

def hintedResponse : H2Env where
  reads := [.frames ((hinted.events 1).take 8 ++ [.dataChunk 1 (ascii "hello")] ++
    (hinted.events 1).drop 8 ++ [.streamClose 1 0]) none true]
  submits := [.ok 1]

theorem reply_exact_hinted : ∃ resp, ∃ st : BodyState (Zlib.knowing [] []),
    (wrap hintedResponse 0).begin getRequest Headers.init = ((fetch hintedResponse).1, .ok resp) ∧
      body (fetch hintedResponse).1 (.fresh .memory 0) = (st, none) ∧
      resp.headers.fields = [(ascii "server", ascii "s")] ∧
      st.pipe.trailers.fields = [(ascii "digest", ascii "d")] := by
  obtain ⟨resp, hbegin⟩ := fetch_begin hintedResponse (by decide +kernel)
  have hres : (body (fetch hintedResponse).1 (.fresh .memory 0) :
      BodyState (Zlib.knowing [] []) × Option Fail).2 = none := by decide +kernel
  have hexact := reply_exact (wrap hintedResponse 0) getRequest Headers.init hinted
    (by decide +kernel)
  rw [hbegin] at hexact
  have hbody : body (fetch hintedResponse).1 (.fresh .memory 0) = (_, none) := Prod.ext rfl hres
  refine ⟨resp, _, hbegin, hbody, (hexact.final resp rfl).headers, ?_⟩
  exact ((hexact.rest resp rfl).trailers _ _ _ (Loop.iterate_reached hbody) (by decide +kernel)
    (by decide +kernel)).1

end H2

end Zuhttp
