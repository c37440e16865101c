import Zuhttp.Perform
import Zuhttp.Proofs.OpenBody
import Zuhttp.Proofs.Pieces

/-!
# Connections that are kept

What the verdict OK on an HTTP/1.1 exchange says of the options that both sides sent.
-/

namespace Zuhttp

/-! ### Connection options -/

/-- The members of all `Connection` fields. -/
def connectionOptions (h : Headers) : List Bytes :=
  (h.named (ascii "Connection")).flatMap (fun f => (Cut.splitOn 44 f.value).map trimOws)

def HasOption (h : Headers) (option : Bytes) : Prop :=
  ∃ o ∈ connectionOptions h, CaseEq o option

instance (h : Headers) (option : Bytes) : Decidable (HasOption h option) :=
  inferInstanceAs (Decidable (∃ o ∈ _, _))

lemma lowerEq_iff (a b : Bytes) : lowerEq a b = true ↔ CaseEq a b := by
  simp [lowerEq, CaseEq]

lemma tokenGap_iff (c : UInt8) :
    decide (c = 32 ∨ c = 9 ∨ c = 44) = true ↔ c = 44 ∨ isOws c = true := by
  simp only [decide_eq_true_eq, isOws]
  tauto

lemma headerHasTokenFrom_eq {tok : Bytes} (htok : tok ≠ []) (n : Nat) (v : Bytes)
    (hn : v.length < n) :
    headerHasTokenFrom tok n v = anyPiece (fun piece => lowerEq piece tok) v := by
  have hnil : lowerEq [] tok = false := by
    rw [Bool.eq_false_iff, ne_eq, lowerEq_iff]
    intro h
    exact htok (List.map_eq_nil_iff.mp h.symm)
  induction n generalizing v with
  | zero => omega
  | succ n ih =>
    rw [anyPiece_turn tokenGap_iff hnil, headerHasTokenFrom]
    by_cases hv : v = []
    · subst hv
      simp [hnil, anyPiece, Cut.splitOn, trimOws]
    · have hshort := scan_shorter tokenGap_iff hv
      rw [← ih _ (by omega)]
      cases hrest : v.dropWhile (fun c => decide (c = 32 ∨ c = 9 ∨ c = 44)) with
      | nil =>
        cases n with
        | zero => simp [hnil, headerHasTokenFrom]
        | succ n => simp [hnil, headerHasTokenFrom]
      | cons c rest =>
        rw [if_neg (by simp)]
        cases lowerEq (((c :: rest).takeWhile (· ≠ 44)).rdropWhile isOws) tok <;> rfl

/-- The token is one of the trimmed pieces between the commas. -/
lemma headerHasToken_iff {tok : Bytes} (htok : tok ≠ []) (v : Bytes) :
    headerHasToken v tok = true ↔ ∃ e ∈ Cut.splitOn 44 v, CaseEq (trimOws e) tok := by
  unfold headerHasToken
  rw [headerHasTokenFrom_eq htok _ _ (Nat.lt_succ_self _), anyPiece_iff]
  simp only [lowerEq_iff]

theorem connectionHas_iff {tok : Bytes} (htok : tok ≠ []) (h : Headers) :
    connectionHas h tok = true ↔ HasOption h tok := by
  unfold connectionHas HasOption connectionOptions
  simp only [List.any_eq_true, List.mem_flatMap, List.mem_map, headerHasToken_iff htok]
  constructor
  · rintro ⟨f, hf, piece, hpiece, heq⟩
    exact ⟨_, ⟨f, hf, piece, hpiece, rfl⟩, heq⟩
  · rintro ⟨o, ⟨f, hf, piece, hpiece, rfl⟩, heq⟩
    exact ⟨f, hf, piece, hpiece, heq⟩

/-- The fields of a name, by their index among them. -/
lemma any_named (h : Headers) (name : Bytes) (f : Bytes → Bool) :
    (List.range (h.count name)).any (fun i => (h.getAt name i).any f) =
      (h.named name).any (fun field => f field.value) := by
  rw [Bool.eq_iff_iff, List.any_eq_true, List.any_eq_true]
  constructor
  · rintro ⟨i, -, hi⟩
    obtain ⟨v, hv, hf⟩ := (Option.any_eq_true _ _).mp hi
    obtain ⟨field, hfield, rfl⟩ := Option.map_eq_some_iff.mp hv
    exact ⟨field, List.mem_of_getElem? hfield, hf⟩
  · rintro ⟨field, hfield, hf⟩
    obtain ⟨i, hi⟩ := List.mem_iff_getElem?.mp hfield
    obtain ⟨hlt, -⟩ := List.getElem?_eq_some_iff.mp hi
    exact ⟨i, List.mem_range.mpr hlt, (Option.any_eq_true _ _).mpr
      ⟨field.value, by rw [Headers.getAt, hi, Option.map_some], hf⟩⟩

/-- The scan of a field finds the members of its list, and that of the fields, by count and
index, goes over all of the name. -/
theorem connection_scan {tok : Bytes} (htok : tok ≠ []) (v : Bytes) (h : Headers) :
    (headerHasToken v tok = true ↔ ∃ e ∈ Cut.splitOn 44 v, CaseEq (trimOws e) tok) ∧
      (connectionHas h tok = true ↔ ∃ f ∈ h.items, CaseEq f.name (ascii "Connection") ∧
        headerHasToken f.value tok = true) ∧
      connectionHas h tok = (List.range (h.count (ascii "Connection"))).any
        (fun i => (h.getAt (ascii "Connection") i).any
          (fun value => headerHasToken value tok)) := by
  refine ⟨headerHasToken_iff htok v, ?_,
    (any_named h _ (fun value => headerHasToken value tok)).symm⟩
  unfold connectionHas Headers.named
  simp only [List.any_eq_true, List.mem_filter, decide_eq_true_eq, asciiNcasecmp_eq_zero, and_assoc]

/-- A field in other letters, with empty members and tabs. -/
def closingField : Header where
  name := ascii "cOnNection"
  value := ascii ", \t,Keep-Alive\t ,,closed, CLOSE\t"
  nameValid := by decide +kernel
  valueValid := by decide +kernel

theorem connection_scan_close :
    headerHasToken closingField.value (ascii "close") = true ∧
      connectionHas { Headers.init with items := [closingField] } (ascii "close") = true := by
  have htok : ascii "close" ≠ [] := by decide +kernel
  have hscan := connection_scan htok closingField.value
    { Headers.init with items := [closingField] }
  have htoken : headerHasToken closingField.value (ascii "close") = true :=
    hscan.1.mpr ⟨ascii " CLOSE\t", by decide +kernel, by decide +kernel⟩
  exact ⟨htoken, hscan.2.1.mpr ⟨closingField, List.mem_singleton_self _, by decide +kernel, htoken⟩⟩

/-! ### The verdict -/

/-- Neither side closes the connection, and the response is HTTP/1.1 or asks to keep it. -/
structure Persists (rq h : Headers) (minor : Int) : Prop where
  response : ¬HasOption h (ascii "close")
  request : ¬HasOption rq (ascii "close")
  version : minor = 0 → HasOption h (ascii "keep-alive")

/-- The body was read to an end that its framing gives, and the server keeps the
connection. -/
structure ServerKeeps (rc : Code) (fr : Framing) (h : Headers) (minor : Int) : Prop where
  success : rc = .ok
  poolable : fr.poolable = true
  framed : fr.kind ≠ .untilClose
  stays : ¬HasOption h (ascii "close")
  version : minor = 0 → HasOption h (ascii "keep-alive")

theorem reuseDecide_ok_iff (rc : Code) (fr : Framing) (h : Headers) (minor : Int) :
    reuseDecide rc fr h minor = .ok ↔ ServerKeeps rc fr h minor := by
  have hclose : connectionHas h (ascii "close") = true ↔ HasOption h (ascii "close") :=
    connectionHas_iff (by decide) h
  have hkeep : connectionHas h (ascii "keep-alive") = true ↔ HasOption h (ascii "keep-alive") :=
    connectionHas_iff (by decide) h
  constructor
  · intro hok
    obtain ⟨rfl, hpool, hkind⟩ := reuseDecide_eq_ok hok
    unfold reuseDecide at hok
    dsimp only at hok
    split_ifs at hok with hframe hcloses hold
    refine ⟨rfl, hpool, hkind, fun hopt => hcloses (hclose.mpr hopt), fun hminor => ?_⟩
    by_contra hopt
    exact hold ⟨hminor, fun hhas => hopt (hkeep.mp hhas)⟩
  · rintro ⟨rfl, hpool, hkind, hstays, hversion⟩
    unfold reuseDecide
    dsimp only
    rw [if_neg (by simp [hpool, hkind]), if_neg (fun hhas => hstays (hclose.mp hhas)), if_neg]
    rintro ⟨hminor, hno⟩
    exact hno (hkeep.mpr (hversion hminor))

/-! ### The engine's use of it -/

variable {Z : Zlib}

lemma named_remove {h : Headers} {a b : Bytes} (hne : ¬CaseEq a b) :
    (h.remove a).named b = h.named b := by
  unfold Headers.named Headers.remove
  rw [List.filter_filter]
  apply List.filter_congr
  intro f _
  by_cases hb : asciiNcasecmp f.name b = 0
  · have ha : asciiNcasecmp f.name a ≠ 0 := by
      rw [ne_eq, asciiNcasecmp_eq_zero]
      rw [asciiNcasecmp_eq_zero] at hb
      exact fun ha => hne (ha.symm.trans hb)
    simp [ha, hb]
  · simp [hb]

/-- Setting up the decoder leaves the `Connection` fields alone. -/
lemma init_named {sink : Sink} {h h' : Headers} {noDecode : Bool} {cap : Nat} {p : BodyPipe Z}
    (hinit : BodyPipe.init sink h noDecode cap = .ok (p, h')) :
    h'.named (ascii "Connection") = h.named (ascii "Connection") := by
  have hremoved : ((h.remove (ascii "Content-Encoding")).remove (ascii "Content-Length")).named
      (ascii "Connection") = h.named (ascii "Connection") := by
    rw [named_remove (by decide), named_remove (by decide)]
  unfold BodyPipe.init at hinit
  dsimp only at hinit
  split at hinit
  · cases hinit
    rfl
  · cases hinit
  · split at hinit
    · cases hinit
    · cases hinit
      exact hremoved

lemma reuseDecide_named {rc : Code} {fr : Framing} {h h' : Headers} {minor : Int}
    (hnamed : h'.named (ascii "Connection") = h.named (ascii "Connection")) :
    reuseDecide rc fr h' minor = reuseDecide rc fr h minor := by
  unfold reuseDecide connectionHas
  rw [hnamed]

lemma settle_reuse_ok {follow : Bool} {h : Headers} {minor : Int} {src : BodySource Z}
    {fr : Framing} {res : Option Fail} (hframe : src.frame = some fr)
    (hok : (settle follow h minor src res).reuse = .ok) : reuseDecide .ok fr h minor = .ok := by
  cases src with
  | h2 st => cases hframe
  | h1 st =>
    cases hframe
    have hreuse : (BodySource.h1 st).reuse h minor (resultCode res) = .ok := by
      unfold settle at hok
      dsimp only at hok
      split_ifs at hok <;> exact hok
    have hrc := (reuseDecide_eq_ok hreuse).1
    unfold BodySource.reuse at hreuse
    rwa [hrc] at hreuse

/-- A body read into a sink. -/
theorem receiveBody_reuse {follow : Bool} {fr : Framing} {t : Transport} {seed : Bytes}
    {sink : Sink} {h : Headers} {minor : Int} {cap : Nat} {noDecode : Bool}
    (hok : (receiveBody (Z := Z) follow (.h1 fr t seed) sink h minor cap noDecode).reuse = .ok) :
    reuseDecide .ok fr h minor = .ok := by
  unfold receiveBody at hok
  cases hinit : BodyPipe.init (Z := Z) sink h noDecode cap with
  | error f =>
    rw [hinit] at hok
    exact settle_reuse_ok rfl hok
  | ok r =>
    obtain ⟨p, h'⟩ := r
    rw [hinit] at hok
    have hframe := ((BodyInput.h1 fr t seed).source p cap).readAll_frame rfl
    rw [← reuseDecide_named (init_named hinit)]
    exact settle_reuse_ok hframe hok

namespace OpenBody

/-- The verdicts on an unread body over HTTP/1.1. -/
structure Judged (v : Reuse) (b : OpenBody Z) : Prop where
  plain : b.src.frame.isSome = true
  ended : b.reuseIfEnded = v
  released : Reuse.ok ∈ b.released → v = .ok

lemma Judged.release {v r : Reuse} {b : OpenBody Z} (h : b.Judged v) (hr : r = .ok → v = .ok) :
    (b.release r).Judged v := by
  unfold OpenBody.release
  split_ifs
  · refine ⟨h.plain, h.ended, fun hin => ?_⟩
    rcases List.mem_append.mp hin with hin | hin
    · exact h.released hin
    · exact hr (List.mem_singleton.mp hin).symm
  · exact h

lemma Judged.reuse {v : Reuse} {b : OpenBody Z} (h : b.Judged v) (hok : b.reuse = .ok) :
    v = .ok := by
  obtain ⟨hplain, hended, -⟩ := h
  unfold OpenBody.reuse at hok
  cases hsrc : b.src with
  | h2 st =>
    rw [hsrc] at hplain
    cases hplain
  | h1 st =>
    rw [hsrc] at hok
    dsimp only [BodySource.endedReuse] at hok
    split_ifs at hok
    rw [← hended, hok]

lemma clear_frame (src : BodySource Z) : src.clear.frame = src.frame := by
  cases src <;> rfl

lemma Judged.pullStep {v : Reuse} {b : OpenBody Z} (h : b.Judged v) : b.pullStep.1.Judged v := by
  have hframe : b.src.clear.step.1.frame.isSome = true := by
    rw [BodySource.step_frame, clear_frame]
    exact h.plain
  unfold OpenBody.pullStep
  dsimp only
  cases hstep : b.src.clear.step with
  | mk src f =>
    rw [hstep] at hframe
    cases f with
    | some f =>
      refine Judged.release ⟨hframe, h.ended, h.released⟩ (fun hr => ?_)
      split_ifs at hr
    | none =>
      dsimp only
      split_ifs
      · have hnext : Judged v { b with src := src, stagedOff := 0, ended := src.done } :=
          ⟨hframe, h.ended, h.released⟩
        exact hnext.release hnext.reuse
      · exact ⟨hframe, h.ended, h.released⟩

lemma Judged.read {v : Reuse} {b : OpenBody Z} (n : Nat) (h : b.Judged v) :
    (b.read n).1.Judged v := by
  have hfill : Judged v (Loop.iterate OpenBody.pullStep ready b.src.fuel b).1 :=
    Loop.iterate_keeps (fun s hs => hs.pullStep) h b.src.fuel
  unfold OpenBody.read
  split_ifs
  · exact h
  · exact h
  · split
    · next hrun =>
      rw [hrun] at hfill
      exact hfill
    · next hrun =>
      rw [hrun] at hfill
      exact ⟨hfill.plain, hfill.ended, hfill.released⟩

lemma Judged.abort {v : Reuse} {b : OpenBody Z} (h : b.Judged v) : b.abort.Judged v := by
  unfold OpenBody.abort
  split_ifs
  · exact h
  · cases hsrc : b.src with
    | h2 st =>
      have hplain := h.plain
      rw [hsrc] at hplain
      cases hplain
    | h1 st =>
      refine Judged.release ⟨?_, h.ended, h.released⟩ (fun hr => by cases hr)
      rw [← hsrc]
      exact h.plain

lemma Judged.calls {v : Reuse} {b : OpenBody Z} (cs : List Call) (h : b.Judged v) :
    (b.calls cs).Judged v := by
  induction cs generalizing b with
  | nil => exact h
  | cons c cs ih =>
    cases c with
    | read n => exact ih (h.read n)
    | abort => exact ih h.abort

/-- A body that is left to the caller. -/
theorem openBody_reuse {fr : Framing} {t : Transport} {seed : Bytes} {h h' : Headers}
    {minor : Int} {cap : Nat} {noDecode : Bool} {b : OpenBody Z}
    (hnew : new (.h1 fr t seed) h minor cap noDecode = .ok (b, h')) (cs : List Call)
    (hok : Reuse.ok ∈ (b.calls cs).free.released) : reuseDecide .ok fr h minor = .ok := by
  have hstart : b.Judged (reuseDecide .ok fr h minor) := by
    unfold new at hnew
    cases hinit : BodyPipe.init (Z := Z) Sink.memory h noDecode cap with
    | error f =>
      rw [hinit] at hnew
      cases hnew
    | ok r =>
      obtain ⟨p, h₁⟩ := r
      have hverdict : reuseDecide .ok fr h₁ minor = reuseDecide .ok fr h minor :=
        reuseDecide_named (init_named hinit)
      rw [hinit] at hnew
      cases hnew
      exact ⟨rfl, hverdict, fun hin => by cases hin⟩
  exact ((hstart.calls cs).abort.release (fun hr => by cases hr)).released hok

end OpenBody

/-- What the engine makes of the verdict: on a body that it reads or leaves to the caller. -/
structure EngineUses (fr : Framing) (h : Headers) (minor : Int) : Prop where
  received : ∀ (Z : Zlib) follow t seed sink cap noDecode,
    (receiveBody (Z := Z) follow (.h1 fr t seed) sink h minor cap noDecode).reuse = .ok →
      reuseDecide .ok fr h minor = .ok
  held : ∀ (Z : Zlib) t seed cap noDecode (b : OpenBody Z) h' cs,
    OpenBody.new (.h1 fr t seed) h minor cap noDecode = .ok (b, h') →
      Reuse.ok ∈ (b.calls cs).free.released → reuseDecide .ok fr h minor = .ok

theorem reuse_persists_iff (rq h : Headers) (minor : Int) (fr : Framing) :
    EngineUses fr h minor ∧ ∀ rc,
      (reuseDecide rc fr h minor = .ok → Persists rq h minor) ↔
        (HasOption rq (ascii "close") → ¬ServerKeeps rc fr h minor) := by
  refine ⟨⟨?_, ?_⟩, fun rc => ?_⟩
  · exact fun Z follow t seed sink cap noDecode hok => receiveBody_reuse hok
  · exact fun Z t seed cap noDecode b h' cs hnew hok => OpenBody.openBody_reuse hnew cs hok
  · rw [reuseDecide_ok_iff]
    constructor
    · exact fun hpersists hclose hkeeps => (hpersists hkeeps).request hclose
    · exact fun hclose hkeeps => ⟨hkeeps.stays, fun hreq => hclose hreq hkeeps, hkeeps.version⟩

/-- A caller who asks for the connection to be closed, with a pool. -/
def closingCall : Call where
  url := ascii "http://a/"
  req := { headers := [(ascii "Connection", ascii "close")] }
  opts := { pool := true }

def closingEnv : Env where
  uri := .known [(ascii "http://a/", .http "a" "/")]
  hop _ := .plain [.text "HTTP/1.1 200 OK\r\nContent-Length: 0\r\n\r\n"]

/-- The request says that the connection closes, and the pool gets it to use again. -/
theorem closing_request_reused :
    let w := (Prog.exec (perform (Z := Zlib.knowing [] []) closingEnv closingCall)
      (World.start {} false false [] none)).2
    w.sent.map (fun r => (r.h2, decide (HasOption r.rq.headers (ascii "close")))) =
        [(false, true)] ∧
      w.pooled.map Pooled.reuse = [.ok] ∧
      ¬∀ (rc : Code) (fr : Framing) (rq h : Headers) (minor : Int),
        reuseDecide rc fr h minor = .ok → Persists rq h minor := by
  refine ⟨by decide +kernel, by decide +kernel, fun hpersists => ?_⟩
  obtain ⟨rq, hrq⟩ : ∃ rq, Headers.init.add (ascii "Connection") (ascii "close") = .ok rq :=
    ⟨_, rfl⟩
  refine (hpersists .ok ⟨.length, 0, true⟩ rq Headers.init 1 (by decide)).request ?_
  cases hrq
  decide +kernel

end Zuhttp
