import Zuhttp.Cassette
import Zuhttp.Proofs.Redact

/-!
# Cassettes as finite maps without secrets

What a request through a cassette does to the map of its tape, and that nothing of a secret
gets to the tape or decides what is replayed.
-/

namespace Zuhttp

open RedactPolicy

/-! ### The map of a tape -/

namespace Cassette

def lookup (w : Cassette) : Bytes → Option Interaction := Assoc.lookup Interaction.key w.tape

/-- A request whose body is in memory, on the map of the tape. -/
inductive MapStep (call : CassetteCall) (req : ZuRequest) (w : Cassette) :
    Except Bytes ZuResponse × Cassette → Prop
  | replayed (i : Interaction) (hmode : call.mode ≠ .record)
      (hknown : w.lookup (interactionKey (cassetteRequest call.policy req)) = some i) :
      MapStep call req w (.ok (replayResponse i.response), w)
  | missed (hmode : call.mode = .replay)
      (hnew : w.lookup (interactionKey (cassetteRequest call.policy req)) = none) :
      MapStep call req w (.error (missMessage call.file (cassetteRequest call.policy req)), w)
  | failed (message : Bytes)
      (hmode : call.mode = .record ∨ call.mode = .auto ∧
        w.lookup (interactionKey (cassetteRequest call.policy req)) = none)
      (hanswer : call.answer.bind drainStream = .error message) :
      MapStep call req w (.error message, { w with asked := w.asked ++ [req] })
  | stored (resp : ZuResponse) (tape : List Interaction)
      (hmode : call.mode = .record ∨ call.mode = .auto ∧
        w.lookup (interactionKey (cassetteRequest call.policy req)) = none)
      (hanswer : call.answer.bind drainStream = .ok resp)
      (hmap : Assoc.lookup Interaction.key tape =
        Function.update w.lookup (entryOf call req resp).key (some (entryOf call req resp)))
      (hothers : tape.filter (fun i => i.key ≠ (entryOf call req resp).key) =
        w.tape.filter (fun i => i.key ≠ (entryOf call req resp).key)) :
      MapStep call req w (.ok resp, { tape := tape, asked := w.asked ++ [req] })

/-- A request through the cassette; the body of a streamed one is read first. -/
def Steps (call : CassetteCall) (w : Cassette) (out : Except Bytes ZuResponse × Cassette) : Prop :=
  match collectBodyStream call.req with
  | .error message => out = (.error message, w)
  | .ok req => MapStep call req w out

variable {call : CassetteCall} {w : Cassette}

lemma recordInteraction_steps {req : ZuRequest}
    (hmode : call.mode = .record ∨ call.mode = .auto ∧
      w.lookup (interactionKey (cassetteRequest call.policy req)) = none) :
    MapStep call req w (recordInteraction call req w) := by
  unfold recordInteraction
  cases hanswer : call.answer.bind drainStream with
  | error message => exact .failed message hmode hanswer
  | ok resp =>
    exact .stored resp _ hmode hanswer (Assoc.lookup_put _ _) (Assoc.filter_put _ _)

theorem cassettePerform_steps (call : CassetteCall) (w : Cassette) :
    Steps call w (cassettePerform call w) := by
  unfold Steps cassettePerform
  cases collectBodyStream call.req with
  | error message => rfl
  | ok req =>
    dsimp only
    cases hlookup : Assoc.lookup Interaction.key w.tape
        (interactionKey (cassetteRequest call.policy req)) with
    | none =>
      cases hmode : call.mode with
      | auto => exact recordInteraction_steps (Or.inr ⟨hmode, hlookup⟩)
      | replay => exact .missed hmode hlookup
      | record => exact recordInteraction_steps (Or.inl hmode)
    | some i =>
      cases hmode : call.mode with
      | auto => exact .replayed i (by rw [hmode]; decide) hlookup
      | replay => exact .replayed i (by rw [hmode]; decide) hlookup
      | record => exact recordInteraction_steps (Or.inl hmode)

lemma cassettePerform_nodup (call : CassetteCall) {w : Cassette}
    (h : (w.tape.map Interaction.key).Nodup) :
    ((cassettePerform call w).2.tape.map Interaction.key).Nodup := by
  have hrecord : ∀ req, ((recordInteraction call req w).2.tape.map Interaction.key).Nodup := by
    intro req
    unfold recordInteraction
    cases call.answer.bind drainStream with
    | error message => exact h
    | ok resp => exact Assoc.nodup_put h _
  unfold cassettePerform
  cases collectBodyStream call.req with
  | error message => exact h
  | ok req =>
    dsimp only
    split
    · exact h
    · exact h
    · exact h
    · exact hrecord req
    · exact hrecord req

lemma cassetteRun_nodup (calls : List CassetteCall) {w : Cassette}
    (h : (w.tape.map Interaction.key).Nodup) :
    ((cassetteRun calls w).2.tape.map Interaction.key).Nodup := by
  induction calls generalizing w with
  | nil => exact h
  | cons call calls ih => exact ih (cassettePerform_nodup call h)

end Cassette

open Cassette

/-- After every sequence of requests the tape is a finite map, and the next request is a step
of the map. -/
theorem cassette_refines (calls : List CassetteCall) (call : CassetteCall) :
    ((cassetteRun calls {}).2.tape.map Interaction.key).Nodup ∧
      Steps call (cassetteRun calls {}).2 (cassettePerform call (cassetteRun calls {}).2) :=
  ⟨cassetteRun_nodup calls List.nodup_nil, cassettePerform_steps call _⟩

/-- A request that is answered with a cookie. -/
def cookieCall (mode : CassetteMode) : CassetteCall where
  policy := RedactPolicy.init
  mode := mode
  file := ascii "demo.rds"
  req := { method := some (ascii "GET"), url := some (ascii "https://x.test/a") }
  answer := .ok
    { status := 200
      headers := [⟨ascii "Set-Cookie", ascii "a=1", by decide⟩]
      body := ascii "hello", url := none, tlsVersion := none, redirects := none, trailers := [] }
  now := []

/-- The cookie is not replayed as it was received. -/
theorem cassette_redacts :
    ∃ first again, (cassetteRun [cookieCall .auto, cookieCall .replay] {}).1 =
        [.ok first, .ok again] ∧
      first.headers.map HeaderField.value = [ascii "a=1"] ∧
      again.headers.map HeaderField.value = [ascii "<redacted>"] := by
  exact ⟨_, _, rfl, by decide +kernel, by decide +kernel⟩

/-! ### Requests that differ in secrets -/

/-- The query and the fragment of a URL, or neither. -/
abbrev UrlQuery := Option (Query × Option Bytes)

def AlikeQuery (p : RedactPolicy) : UrlQuery → UrlQuery → Prop :=
  Option.Rel (fun q r => q.1.Alike p.Secret r.1 ∧ q.2 = r.2)

/-- The URLs are the same but for the userinfo and the values of secrets. -/
inductive AlikeUrl (p : RedactPolicy) : Bytes → Bytes → Prop
  | same (url : Bytes) : AlikeUrl p url url
  | full (u v : UrlText) (hscheme : u.scheme = v.scheme) (hrest : u.rest = v.rest)
      (hquery : AlikeQuery p u.query v.query) : AlikeUrl p u.text v.text
  | bare (path : Bytes) (q r : UrlQuery) (hscheme : schemeEnd path = none) (hpath : 63 ∉ path)
      (hfree : (∀ x ∈ q, 35 ∉ x.1.text) ∧ ∀ x ∈ r, 35 ∉ x.1.text) (hquery : AlikeQuery p q r) :
      AlikeUrl p (path ++ UrlText.queryTail q) (path ++ UrlText.queryTail r)

/-- The header fields are the same but for the value of a secret one. -/
def AlikeHeader (p : RedactPolicy) (h k : HeaderField) : Prop :=
  h.name = k.name ∧ (h.value = k.value ∨ p.isSecretHeader h.name = true)

/-- Form bodies without NUL that are the same but for the values of secrets. -/
def AlikeForm (p : RedactPolicy) (s t : Bytes) : Prop :=
  0 ∉ s ∧ 0 ∉ t ∧ ∃ q r : Query, s = q.text ∧ t = r.text ∧ q.Alike p.Secret r

/-- The requests are the same but for secrets. -/
structure AlikeRequest (p : RedactPolicy) (a b : ZuRequest) : Prop where
  method : a.method = b.method
  url : Option.Rel (AlikeUrl p) a.url b.url
  headers : List.Forall₂ (AlikeHeader p) a.headers b.headers
  kind : a.bodyKind = b.bodyKind
  body : a.body = b.body ∨ isFormBody a = true ∧ isFormBody b = true ∧ AlikeForm p a.body b.body

/-- The texts are both within the bound of the redaction or both beyond it. -/
def SameBound (s t : Bytes) : Prop := s.length ≤ textMax ↔ t.length ≤ textMax

/-- The redaction of a text within the bound does not fit in its buffer. -/
def Outgrown (fn : RedactPolicy → Bytes → Writer Unit) (p : RedactPolicy) (s : Bytes) : Prop :=
  (Prog.exec (fn p s) (Buffer.init (textMax * 2))).1 ≠ .ok ()

/-- The bound does not tell the texts apart. -/
def SameText (fn : RedactPolicy → Bytes → Writer Unit) (p : RedactPolicy) (s t : Bytes) : Prop :=
  SameBound s t ∨ Outgrown fn p s

/-- A request without the header fields that the policy hides. -/
def shown (p : RedactPolicy) (req : ZuRequest) : ZuRequest :=
  { req with headers := req.headers.filter (fun h => !p.isSecretHeader h.name) }

/-- Bodies that differ are seen to be forms, and no text is too long in one request only. -/
structure Covered (p : RedactPolicy) (a b : ZuRequest) : Prop where
  url : Option.Rel (SameText redactUrl p) a.url b.url
  body : a.body = b.body ∨
    isFormBody (shown p a) = true ∧ SameText redactFormBody p a.body b.body

lemma findScheme_mark (i : Nat) (t : Bytes) : findScheme i (63 :: t) = none := by
  match t with
  | [] => rfl
  | [_] => rfl
  | d :: e :: t =>
    rw [findScheme, if_neg (by simp), if_neg (by decide)]

lemma findScheme_one (i : Nat) (c : UInt8) (t : Bytes) : findScheme i (c :: 63 :: t) = none := by
  cases t with
  | nil => rfl
  | cons e t =>
    rw [findScheme, if_neg (by simp)]
    by_cases hc : isSchemeByte c = true
    · rw [if_pos hc, findScheme_mark]
    · rw [if_neg hc]

/-- The search goes no further than a question mark. -/
lemma findScheme_query (i : Nat) (s t : Bytes) (h : findScheme i s = none) :
    findScheme i (s ++ 63 :: t) = none := by
  match s with
  | [] => exact findScheme_mark i t
  | [c] => exact findScheme_one i c t
  | [c, d] =>
    rw [List.cons_append, List.cons_append, List.nil_append, findScheme, if_neg (by simp)]
    by_cases hc : isSchemeByte c = true
    · rw [if_pos hc, findScheme_one]
    · rw [if_neg hc]
  | c :: d :: e :: s =>
    rw [findScheme] at h
    rw [List.cons_append, List.cons_append, List.cons_append, findScheme]
    by_cases hmarks : c = 58 ∧ d = 47 ∧ e = 47
    · rw [if_pos hmarks] at h
      cases h
    · rw [if_neg hmarks] at h ⊢
      by_cases hc : isSchemeByte c = true
      · rw [if_pos hc] at h ⊢
        exact findScheme_query (i + 1) (d :: e :: s) t h
      · rw [if_neg hc]

lemma schemeEnd_query {path : Bytes} (h : schemeEnd path = none) (q : UrlQuery) :
    schemeEnd (path ++ UrlText.queryTail q) = none := by
  cases q with
  | none => rwa [UrlText.queryTail, List.append_nil]
  | some x =>
    unfold UrlText.queryTail
    cases path with
    | nil =>
      rw [List.nil_append, schemeEnd]
      exact if_neg Bool.false_ne_true
    | cons c path =>
      unfold schemeEnd at h ⊢
      dsimp only [List.cons_append] at h ⊢
      by_cases hc : Ascii.isAlpha c = true
      · rw [if_pos hc] at h ⊢
        exact findScheme_query 1 path _ h
      · rw [if_neg hc]

lemma AlikeQuery.pieces {p : RedactPolicy} {q r : UrlQuery} (h : AlikeQuery p q r) (path : Bytes) :
    UrlText.restPieces p path q = UrlText.restPieces p path r := by
  cases h with
  | none => rfl
  | some hq => rw [UrlText.restPieces, UrlText.restPieces, hq.1.pieces, hq.2]

/-- The redaction of the URLs is the same program. -/
lemma AlikeUrl.redacts {p : RedactPolicy} {s t : Bytes} (h : AlikeUrl p s t) :
    p.redactUrl s = p.redactUrl t := by
  cases h with
  | same => rfl
  | full u v hscheme hrest hquery =>
    rw [UrlText.redactUrl_text, UrlText.redactUrl_text]
    unfold UrlText.pieces
    rw [hscheme, hrest, hquery.pieces]
  | bare path q r hscheme hpath hfree hquery =>
    unfold redactUrl
    rw [schemeEnd_query hscheme, schemeEnd_query hscheme]
    dsimp only
    rw [UrlText.redactRest_pieces p hpath q hfree.1, UrlText.redactRest_pieces p hpath r hfree.2,
      hquery.pieces]

lemma AlikeForm.redacts {p : RedactPolicy} {s t : Bytes} (h : AlikeForm p s t) :
    p.redactFormBody s = p.redactFormBody t := by
  obtain ⟨-, -, q, r, rfl, rfl, hquery⟩ := h
  unfold redactFormBody
  rw [Query.redactQuery_text, Query.redactQuery_text, hquery.pieces]

/-- A text whose redaction is not the marker: there is a `:`, `=` or `?` in it. -/
def Marked (fn : RedactPolicy → Bytes → Writer Unit) (p : RedactPolicy) (s : Bytes) : Prop :=
  ∃ pieces, fn p s = appendAll pieces ∧ ∃ c ∈ pieces.flatten, c = 58 ∨ c = 61 ∨ c = 63

lemma AlikeUrl.marked {p : RedactPolicy} {s t : Bytes} (h : AlikeUrl p s t) (hne : s ≠ t) :
    Marked redactUrl p s := by
  cases h with
  | same => exact absurd rfl hne
  | full u v =>
    refine ⟨_, UrlText.redactUrl_text p u, 58, ?_, Or.inl rfl⟩
    rw [UrlText.pieces_flatten]
    unfold UrlText.hidden
    exact List.mem_append_left _ (List.mem_append_left _ (List.mem_append_right _ (by decide)))
  | bare path q r hscheme hpath hfree hquery =>
    cases hquery with
    | none => exact absurd rfl hne
    | @some x y hxy =>
      refine ⟨UrlText.restPieces p path (some x), ?_, 63, ?_, Or.inr (Or.inr rfl)⟩
      · unfold redactUrl
        rw [schemeEnd_query hscheme]
        exact UrlText.redactRest_pieces p hpath (some x) hfree.1
      · rw [UrlText.restPieces, List.flatten_cons]
        exact List.mem_append_left _ (List.mem_append_right _ List.mem_cons_self)

/-- Queries that differ have a secret parameter with a value. -/
lemma Query.Alike.equals {p : RedactPolicy} {q r : Query} (h : q.Alike p.Secret r)
    (hne : q.text ≠ r.text) : 61 ∈ (q.pieces p).flatten := by
  have hparam : ∀ {a a' : Param}, a.Alike p.Secret a' → a.text ≠ a'.text →
      61 ∈ (a.pieces p).flatten := by
    intro a a' ha htext
    obtain ⟨hname, hvalue | ⟨hsecret, hsome, -⟩⟩ := ha
    · refine absurd ?_ htext
      unfold Param.text
      rw [hname, hvalue]
    · unfold Param.pieces
      rw [if_pos ⟨hsecret, hsome⟩, List.flatten_cons]
      exact List.mem_append_left _ (List.mem_append_right _ List.mem_cons_self)
  induction h with
  | last ha => exact hparam ha hne
  | @more a a' semicolon q q' ha hq ih =>
    rw [Query.pieces, List.flatten_append, List.flatten_cons]
    by_cases htext : a.text = a'.text
    · refine List.mem_append_right _ (List.mem_append_right _ (ih fun hsame => hne ?_))
      rw [Query.text, Query.text, htext, hsame]
    · exact List.mem_append_left _ (hparam ha htext)

lemma AlikeForm.marked {p : RedactPolicy} {s t : Bytes} (h : AlikeForm p s t) (hne : s ≠ t) :
    Marked redactFormBody p s := by
  obtain ⟨-, -, q, r, rfl, rfl, hquery⟩ := h
  exact ⟨_, Query.redactQuery_text p q, 61, hquery.equals hne, Or.inr (Or.inl rfl)⟩

lemma redactOne_same {fn : RedactPolicy → Bytes → Writer Unit} {p : RedactPolicy} {s t : Bytes}
    (h : fn p s = fn p t) (hbound : SameBound s t) : redactOne fn p s = redactOne fn p t := by
  unfold redactOne
  rw [h]
  by_cases hs : s.length ≤ textMax
  · rw [if_neg (Nat.not_lt.mpr hs), if_neg (Nat.not_lt.mpr (hbound.mp hs))]
  · rw [if_pos (Nat.lt_of_not_le hs), if_pos (Nat.lt_of_not_le (fun ht => hs (hbound.mpr ht)))]

lemma redactOne_outgrown {fn : RedactPolicy → Bytes → Writer Unit} {p : RedactPolicy} {s : Bytes}
    (h : Outgrown fn p s) : redactOne fn p s = redacted := by
  unfold redactOne
  unfold Outgrown at h
  by_cases hs : s.length > textMax
  · rw [if_pos hs]
  · rw [if_neg hs]
    cases hrun : Prog.exec (fn p s) (Buffer.init (textMax * 2)) with
    | mk r b =>
      rw [hrun] at h
      cases r with
      | ok a => exact absurd rfl h
      | error rc => rfl

/-- What a marked text is shown as is not the marker. -/
lemma redactOne_marked {fn : RedactPolicy → Bytes → Writer Unit} {p : RedactPolicy} {s : Bytes}
    (h : Marked fn p s) (hfits : ¬Outgrown fn p s) (hs : s.length ≤ textMax) :
    redactOne fn p s ≠ redacted := by
  obtain ⟨pieces, hfn, c, hc, hmark⟩ := h
  unfold redactOne
  rw [if_neg (Nat.not_lt.mpr hs)]
  unfold Outgrown at hfits
  cases hrun : Prog.exec (fn p s) (Buffer.init (textMax * 2)) with
  | mk r b =>
    rw [hrun] at hfits
    cases r with
    | error rc => exact absurd (by rintro ⟨⟩) hfits
    | ok a =>
      dsimp only
      rw [hfn] at hrun
      have hdata : b.data = [] ++ pieces.flatten := appendAll_appends pieces _ b hrun
      rw [List.nil_append] at hdata
      intro heq
      rw [← hdata, heq] at hc
      rcases hmark with rfl | rfl | rfl <;> revert hc <;> decide

/-- Texts whose redaction is the same program are shown as the same, unless the bound tells
them apart. -/
lemma redactOne_iff {fn : RedactPolicy → Bytes → Writer Unit} {p : RedactPolicy} {s t : Bytes}
    (h : fn p s = fn p t) (hmarked : s ≠ t → Marked fn p s) :
    redactOne fn p s = redactOne fn p t ↔ SameText fn p s t := by
  have houtgrown : Outgrown fn p s ↔ Outgrown fn p t := by
    unfold Outgrown
    rw [h]
  constructor
  · intro heq
    by_contra hdiffer
    obtain ⟨hbound, hfits⟩ := not_or.mp hdiffer
    have hne : s ≠ t := fun hst => hbound (hst ▸ Iff.rfl)
    have hmark := hmarked hne
    by_cases hs : s.length ≤ textMax
    · have ht : t.length > textMax := Nat.lt_of_not_le fun ht => hbound (iff_of_true hs ht)
      have hlong : redactOne fn p t = redacted := if_pos ht
      exact redactOne_marked hmark hfits hs (heq.trans hlong)
    · have ht : t.length ≤ textMax := by
        by_contra ht
        exact hbound (iff_of_false hs ht)
      have hlong : redactOne fn p s = redacted := if_pos (Nat.lt_of_not_le hs)
      have hmark' : Marked fn p t := by
        unfold Marked at hmark ⊢
        rwa [← h]
      exact redactOne_marked hmark' (fun ht => hfits (houtgrown.mpr ht)) ht (heq.symm.trans hlong)
  · rintro (hbound | hout)
    · exact redactOne_same h hbound
    · rw [redactOne_outgrown hout, redactOne_outgrown (houtgrown.mp hout)]

lemma redactHeaders_alike {p : RedactPolicy} {hs ks : List HeaderField}
    (h : List.Forall₂ (AlikeHeader p) hs ks) :
    p.redactHeadersForDisplay hs = p.redactHeadersForDisplay ks := by
  induction h with
  | nil => rfl
  | @cons x y _ _ hhead _ ih =>
    obtain ⟨hname, hvalue⟩ := hhead
    unfold redactHeadersForDisplay at ih ⊢
    rw [List.map_cons, List.map_cons, ih]
    congr 1
    obtain ⟨name, value, hx⟩ := x
    obtain ⟨name', value', hy⟩ := y
    dsimp only at hname hvalue ⊢
    subst hname
    by_cases hsecret : p.isSecretHeader name = true
    · rw [if_pos hsecret, if_pos hsecret]
    · rw [if_neg hsecret, if_neg hsecret]
      have hsame := hvalue.resolve_right hsecret
      subst hsame
      rfl

lemma filter_free {s : Bytes} (h : 0 ∉ s) : s.filter (· ≠ 0) = s :=
  List.filter_eq_self.mpr fun c hc => decide_eq_true (fun hzero : c = 0 => h (hzero ▸ hc))

/-- What the policy hides decides nothing about a form. -/
lemma shown_alike {p : RedactPolicy} {hs ks : List HeaderField}
    (h : List.Forall₂ (AlikeHeader p) hs ks) :
    hs.filter (fun h => !p.isSecretHeader h.name) =
      ks.filter (fun h => !p.isSecretHeader h.name) := by
  induction h with
  | nil => rfl
  | @cons x y _ _ hhead _ ih =>
    obtain ⟨hname, hvalue⟩ := hhead
    obtain ⟨name, value, hx⟩ := x
    obtain ⟨name', value', hy⟩ := y
    dsimp only at hname hvalue
    subst hname
    rw [List.filter_cons, List.filter_cons, ih]
    dsimp only
    by_cases hsecret : p.isSecretHeader name = true
    · rw [hsecret]
      rfl
    · have hsame := hvalue.resolve_right hsecret
      subst hsame
      rfl

/-- A field that is shown as the marker does not make a form. -/
lemma isFormBody_redacted (p : RedactPolicy) (req : ZuRequest) (url : Option Bytes) :
    isFormBody { req with url := url, headers := p.redactHeadersForDisplay req.headers } =
      isFormBody (shown p req) := by
  unfold isFormBody shown redactHeadersForDisplay
  congr 2
  rw [List.any_map, List.any_filter]
  congr 2
  funext h
  rw [Bool.eq_iff_iff]
  simp only [Function.comp, decide_eq_true_eq, Bool.and_eq_true, Bool.not_eq_true']
  by_cases hsecret : p.isSecretHeader h.name = true
  · have hmark : ¬ascii "application/x-www-form-urlencoded" <:+: redacted.map lower := by
      decide +kernel
    simp only [if_pos hsecret]
    exact iff_of_false (fun hform => hmark hform.2) (fun hform => by simp [hsecret] at hform)
  · simp only [if_neg hsecret]
    exact ⟨fun hform => ⟨eq_false_of_ne_true hsecret, hform⟩, And.right⟩

lemma cassetteRequest_eq (p : RedactPolicy) (req : ZuRequest) :
    cassetteRequest p req =
      { method := (req.method.getD (ascii "GET")).map upper
        url := (req.url.map (redactOne redactUrl p)).getD []
        headers := p.redactHeadersForDisplay req.headers
        body := if isFormBody (shown p req) = true then p.redactFormBytes req.body
          else req.body } := by
  unfold cassetteRequest redactRequestFields
  dsimp only
  rw [isFormBody_redacted]
  by_cases hempty : req.body = []
  · rw [if_neg fun h => h.1 hempty, hempty]
    have hnone : p.redactFormBytes [] = [] := rfl
    rw [hnone, ite_self]
  · by_cases hform : isFormBody (shown p req) = true
    · rw [if_pos ⟨hempty, hform⟩, if_pos hform]
    · rw [if_neg fun h => hform h.2, if_neg hform]

/-- What a cassette holds of the requests is the same if and only if they are covered. -/
theorem cassetteRequest_iff {p : RedactPolicy} {a b : ZuRequest} (h : AlikeRequest p a b) :
    (cassetteRequest p a).url = (cassetteRequest p b).url ∧
      (cassetteRequest p a).body = (cassetteRequest p b).body ↔ Covered p a b := by
  have hurl : (a.url.map (redactOne redactUrl p)).getD [] =
      (b.url.map (redactOne redactUrl p)).getD [] ↔
        Option.Rel (SameText redactUrl p) a.url b.url := by
    have halike := h.url
    generalize a.url = s at halike
    generalize b.url = t at halike
    cases halike with
    | none => exact iff_of_true rfl .none
    | some halike =>
      have hone := redactOne_iff halike.redacts halike.marked
      exact ⟨fun heq => .some (hone.mp heq), fun hrel => by
        cases hrel with
        | some hsame => exact hone.mpr hsame⟩
  have hshown : isFormBody (shown p a) = isFormBody (shown p b) := by
    unfold isFormBody shown
    dsimp only
    rw [shown_alike h.headers, h.kind]
  have hbody : ((if isFormBody (shown p a) = true then p.redactFormBytes a.body else a.body) =
      if isFormBody (shown p b) = true then p.redactFormBytes b.body else b.body) ↔
        a.body = b.body ∨
          isFormBody (shown p a) = true ∧ SameText redactFormBody p a.body b.body := by
    rw [← hshown]
    by_cases hform : isFormBody (shown p a) = true
    · rw [if_pos hform, if_pos hform]
      obtain hsame | ⟨-, -, halike⟩ := h.body
      · exact iff_of_true (congrArg _ hsame) (Or.inl hsame)
      · unfold redactFormBytes
        rw [filter_free halike.1, filter_free halike.2.1]
        rw [redactOne_iff halike.redacts halike.marked]
        refine ⟨fun hsame => Or.inr ⟨hform, hsame⟩, ?_⟩
        rintro (hsame | ⟨-, hsame⟩)
        · rw [hsame]
          exact Or.inl Iff.rfl
        · exact hsame
    · rw [if_neg hform, if_neg hform]
      exact ⟨Or.inl, fun hcovered => hcovered.resolve_right fun hseen => hform hseen.1⟩
  rw [cassetteRequest_eq, cassetteRequest_eq]
  dsimp only
  rw [hurl, hbody]
  exact ⟨fun hboth => ⟨hboth.1, hboth.2⟩, fun hcovered => ⟨hcovered.url, hcovered.body⟩⟩

theorem cassetteRequest_alike {p : RedactPolicy} {a b : ZuRequest} (h : AlikeRequest p a b)
    (hcovered : Covered p a b) : cassetteRequest p a = cassetteRequest p b := by
  obtain ⟨hurl, hbody⟩ := (cassetteRequest_iff h).mpr hcovered
  rw [cassetteRequest_eq, cassetteRequest_eq] at hurl hbody ⊢
  dsimp only at hurl hbody
  rw [hurl, hbody, h.method, redactHeaders_alike h.headers]

/-! ### Keys -/

lemma hexDigit_ne : ∀ n < 16, hexDigit n ≠ 31 := by decide

lemma hexDigit_inj : ∀ m < 16, ∀ n < 16, hexDigit m = hexDigit n → m = n := by decide

lemma hexBytes_free (s : Bytes) : 31 ∉ hexBytes s := by
  unfold hexBytes
  rw [List.mem_flatMap]
  rintro ⟨c, -, hc⟩
  have hlt := c.toNat_lt
  rcases List.mem_pair.mp hc with hc | hc
  · exact hexDigit_ne _ (by omega) hc.symm
  · exact hexDigit_ne _ (by omega) hc.symm

lemma hexBytes_inj {s t : Bytes} (h : hexBytes s = hexBytes t) : s = t := by
  induction s generalizing t with
  | nil =>
    cases t with
    | nil => rfl
    | cons d t => cases h
  | cons c s ih =>
    cases t with
    | nil => cases h
    | cons d t =>
      unfold hexBytes at h ih
      rw [List.flatMap_cons, List.flatMap_cons] at h
      obtain ⟨hhead, htail⟩ := List.append_inj h rfl
      obtain ⟨hhigh, hrest⟩ := List.cons.inj hhead
      obtain ⟨hlow, -⟩ := List.cons.inj hrest
      have hc := c.toNat_lt
      have hd := d.toNat_lt
      have hhigh' := hexDigit_inj _ (by omega) _ (by omega) hhigh
      have hlow' := hexDigit_inj _ (by omega) _ (by omega) hlow
      have hcd : c = d := UInt8.toNat_inj.mp (by omega)
      rw [hcd, ih htail]

/-- A key has the URL and the body of its request in it. -/
lemma interactionKey_inj {rr rr' : RecordedRequest} (hmethod : rr.method = rr'.method)
    (h : interactionKey rr = interactionKey rr') : rr.url = rr'.url ∧ rr.body = rr'.body := by
  unfold interactionKey at h
  rw [hmethod] at h
  have hrest := List.tail_eq_of_cons_eq (List.append_cancel_left h)
  -- no digit is the separator, so the last one in a key is that in front of the body
  have hrev := congrArg List.reverse hrest
  rw [List.reverse_append, List.reverse_append, List.reverse_cons, List.reverse_cons,
    List.append_assoc, List.append_assoc] at hrev
  have hstop : ∀ s : Bytes, ∀ u : Bytes,
      ((hexBytes s).reverse ++ ([31] ++ u)).takeWhile (fun c => decide (c ≠ 31)) =
          (hexBytes s).reverse ∧
        ((hexBytes s).reverse ++ ([31] ++ u)).dropWhile (fun c => decide (c ≠ 31)) =
          [31] ++ u := by
    intro s u
    refine takeWhile_append_stop (fun c hc => decide_eq_true ?_) ?_
    · rintro rfl
      exact hexBytes_free s (List.mem_reverse.mp hc)
    · rintro c hc
      cases Option.mem_some.mp hc
      rfl
  have hbody := congrArg (List.takeWhile fun c => decide (c ≠ 31)) hrev
  have hurl := congrArg (List.dropWhile fun c => decide (c ≠ 31)) hrev
  rw [(hstop _ _).1, (hstop _ _).1] at hbody
  rw [(hstop _ _).2, (hstop _ _).2] at hurl
  exact ⟨List.reverse_injective (List.tail_eq_of_cons_eq hurl),
    hexBytes_inj (List.reverse_injective hbody)⟩

/-! ### Two runs -/

/-- Calls under one policy, of requests that differ in secrets; a streamed body is read first. -/
structure AlikeAsked (c c' : CassetteCall) : Prop where
  policy : c'.policy = c.policy
  req : match collectBodyStream c.req, collectBodyStream c'.req with
    | .ok a, .ok b => AlikeRequest c.policy a b
    | .error message, .error message' => message = message'
    | _, _ => False

/-- Such calls through the same cassette, with the same response of the transport behind it. -/
structure AlikeCall (c c' : CassetteCall) : Prop extends AlikeAsked c c' where
  mode : c'.mode = c.mode
  file : c'.file = c.file
  answer : c'.answer = c.answer

/-- The requests of the calls are covered. -/
def Covers (c c' : CassetteCall) : Prop :=
  ∀ a b, collectBodyStream c.req = .ok a → collectBodyStream c'.req = .ok b →
    Covered c.policy a b

lemma AlikeAsked.cases {c c' : CassetteCall} (h : AlikeAsked c c') :
    (∃ message, collectBodyStream c.req = .error message ∧
      collectBodyStream c'.req = .error message) ∨
    ∃ a b, collectBodyStream c.req = .ok a ∧ collectBodyStream c'.req = .ok b ∧
      AlikeRequest c.policy a b := by
  have hreq := h.req
  cases ha : collectBodyStream c.req with
  | error message =>
    cases hb : collectBodyStream c'.req with
    | error message' =>
      rw [ha, hb] at hreq
      have hsame : message = message' := hreq
      exact Or.inl ⟨message, rfl, congrArg Except.error hsame.symm⟩
    | ok b =>
      rw [ha, hb] at hreq
      exact hreq.elim
  | ok a =>
    cases hb : collectBodyStream c'.req with
    | error message' =>
      rw [ha, hb] at hreq
      exact hreq.elim
    | ok b =>
      rw [ha, hb] at hreq
      exact Or.inr ⟨a, b, rfl, rfl, hreq⟩

/-- Covered requests are held alike. -/
lemma AlikeAsked.covered {c c' : CassetteCall} (h : AlikeAsked c c') (hcovers : Covers c c') :
    (∃ message, collectBodyStream c.req = .error message ∧
      collectBodyStream c'.req = .error message) ∨
    ∃ a b, collectBodyStream c.req = .ok a ∧ collectBodyStream c'.req = .ok b ∧
      cassetteRequest c.policy a = cassetteRequest c'.policy b := by
  obtain hfailed | ⟨a, b, ha, hb, halike⟩ := h.cases
  · exact Or.inl hfailed
  · refine Or.inr ⟨a, b, ha, hb, ?_⟩
    rw [h.policy]
    exact cassetteRequest_alike halike (hcovers a b ha hb)

/-- The key under which a call is looked up and recorded. -/
def askedKey (c : CassetteCall) : Except Bytes Bytes :=
  (collectBodyStream c.req).map fun req => interactionKey (cassetteRequest c.policy req)

/-- The calls have the same key if and only if their requests are covered. -/
lemma AlikeAsked.key_iff {c c' : CassetteCall} (h : AlikeAsked c c') :
    askedKey c = askedKey c' ↔ Covers c c' := by
  constructor
  · intro hkeys a b ha hb
    obtain ⟨message, ha', -⟩ | ⟨a', b', ha', hb', halike⟩ := h.cases
    · rw [ha'] at ha
      cases ha
    · cases ha.symm.trans ha'
      cases hb.symm.trans hb'
      unfold askedKey at hkeys
      rw [ha, hb, h.policy] at hkeys
      have hmethod : (cassetteRequest c.policy a).method = (cassetteRequest c.policy b).method := by
        rw [cassetteRequest_eq, cassetteRequest_eq, halike.method]
      exact (cassetteRequest_iff halike).mp (interactionKey_inj hmethod (Except.ok.inj hkeys))
  · intro hcovers
    unfold askedKey
    obtain ⟨message, ha, hb⟩ | ⟨a, b, ha, hb, hrr⟩ := h.covered hcovers
    · rw [ha, hb]
      rfl
    · rw [ha, hb]
      exact congrArg (fun rr => Except.ok (interactionKey rr)) hrr

/-- An entry without the time it was recorded at. -/
def Interaction.undated (i : Interaction) : Interaction := { i with recordedAt := [] }

/-- The tapes are the same but for the times of recording. -/
def SameTape (w w' : Cassette) : Prop :=
  w.tape.map Interaction.undated = w'.tape.map Interaction.undated

lemma SameTape.lookup {w w' : Cassette} (h : SameTape w w') (key : Bytes) :
    (Assoc.lookup Interaction.key w.tape key).map Interaction.undated =
      (Assoc.lookup Interaction.key w'.tape key).map Interaction.undated := by
  have hkey : ∀ i : Interaction, i.undated.key = i.key := fun _ => rfl
  rw [← Assoc.lookup_map hkey, ← Assoc.lookup_map hkey, h]

lemma SameTape.put {w w' : Cassette} (h : SameTape w w') {e e' : Interaction}
    (he : e.undated = e'.undated) (asked asked' : List ZuRequest) :
    SameTape ⟨Assoc.put Interaction.key w.tape e, asked⟩
      ⟨Assoc.put Interaction.key w'.tape e', asked'⟩ := by
  have hkey : ∀ i : Interaction, i.undated.key = i.key := fun _ => rfl
  unfold SameTape
  dsimp only
  rw [← Assoc.put_map hkey, ← Assoc.put_map hkey, h, he]

lemma recordInteraction_alike {c c' : CassetteCall} {a b : ZuRequest} {w w' : Cassette}
    (h : AlikeCall c c') (hrr : cassetteRequest c.policy a = cassetteRequest c'.policy b)
    (hw : SameTape w w') :
    (recordInteraction c a w).1 = (recordInteraction c' b w').1 ∧
      SameTape (recordInteraction c a w).2 (recordInteraction c' b w').2 := by
  unfold recordInteraction
  rw [h.answer]
  cases c.answer.bind drainStream with
  | error message => exact ⟨rfl, hw⟩
  | ok resp =>
    refine ⟨rfl, hw.put ?_ _ _⟩
    unfold entryOf Interaction.undated
    dsimp only
    rw [hrr, h.policy]

/-- Nothing that a call returns or leaves on the tape depends on a secret. -/
lemma cassettePerform_alike {c c' : CassetteCall} {w w' : Cassette} (h : AlikeCall c c')
    (hcovers : Covers c c') (hw : SameTape w w') :
    (cassettePerform c w).1 = (cassettePerform c' w').1 ∧
      SameTape (cassettePerform c w).2 (cassettePerform c' w').2 := by
  unfold cassettePerform
  obtain ⟨message, ha, hb⟩ | ⟨a, b, ha, hb, hrr⟩ := h.covered hcovers
  · rw [ha, hb]
    exact ⟨rfl, hw⟩
  · have hrecord := recordInteraction_alike h hrr hw
    have hlookup := hw.lookup (interactionKey (cassetteRequest c'.policy b))
    rw [ha, hb]
    dsimp only
    rw [hrr, h.mode, h.file]
    cases hfound : Assoc.lookup Interaction.key w.tape
        (interactionKey (cassetteRequest c'.policy b)) with
    | none =>
      rw [hfound] at hlookup
      rw [Option.map_eq_none_iff.mp hlookup.symm]
      cases c.mode with
      | auto => exact hrecord
      | replay => exact ⟨rfl, hw⟩
      | record => exact hrecord
    | some i =>
      rw [hfound] at hlookup
      obtain ⟨i', hfound', hundated⟩ := Option.map_eq_some_iff.mp hlookup.symm
      rw [hfound']
      have hsame : i.undated.response = i'.undated.response :=
        congrArg Interaction.response hundated.symm
      have hreplay : (Except.ok (replayResponse i.response) : Except Bytes ZuResponse) =
          .ok (replayResponse i'.response) := by
        rw [show i.response = i'.response from hsame]
      cases c.mode with
      | auto => exact ⟨hreplay, hw⟩
      | replay => exact ⟨hreplay, hw⟩
      | record => exact hrecord

lemma cassetteRun_alike {calls calls' : List CassetteCall}
    (h : List.Forall₂ (fun c c' => AlikeCall c c' ∧ Covers c c') calls calls')
    {w w' : Cassette} (hw : SameTape w w') :
    (cassetteRun calls w).1 = (cassetteRun calls' w').1 ∧
      SameTape (cassetteRun calls w).2 (cassetteRun calls' w').2 := by
  induction h generalizing w w' with
  | nil => exact ⟨rfl, hw⟩
  | cons hcall _ ih =>
    obtain ⟨hresult, htape⟩ := cassettePerform_alike hcall.1 hcall.2 hw
    obtain ⟨hresults, htapes⟩ := ih htape
    exact ⟨congrArg₂ List.cons hresult hresults, htapes⟩

/-- What one call recorded is replayed for the other. -/
lemma cassettePerform_replays {c c' : CassetteCall} {w w₁ : Cassette} {resp : ZuResponse}
    (h : AlikeAsked c c') (hcovers : Covers c c') (hstored : cassettePerform c w = (.ok resp, w₁))
    (hasked : w₁.asked ≠ w.asked) (hmode : c'.mode ≠ .record) :
    cassettePerform c' w₁ = (.ok (replayResponse (cassetteResponse c.policy resp)), w₁) := by
  obtain ⟨message, ha, -⟩ | ⟨a, b, ha, hb, hrr⟩ := h.covered hcovers
  · unfold cassettePerform at hstored
    rw [ha] at hstored
    cases hstored
  · have hsteps := Cassette.cassettePerform_steps c w
    unfold Cassette.Steps at hsteps
    rw [ha, hstored] at hsteps
    dsimp only at hsteps
    cases hsteps with
    | replayed => exact absurd rfl hasked
    | stored _ tape hmode' hanswer hmap hothers =>
      have hfound : Assoc.lookup Interaction.key tape
          (interactionKey (cassetteRequest c'.policy b)) = some (entryOf c a resp) := by
        rw [hmap, ← hrr]
        exact Function.update_self _ _ _
      unfold cassettePerform
      rw [hb]
      dsimp only
      rw [hfound]
      cases hcase : c'.mode with
      | auto => rfl
      | replay => rfl
      | record => exact absurd hcase hmode

/-- Nothing of what the calls leave depends on a secret: they have the same key, what one of
them recorded is replayed for the other, and through the same cassette they give the same result
and the same tape. -/
structure Hides (c c' : CassetteCall) : Prop where
  key : askedKey c = askedKey c'
  replayed : ∀ u u₁ resp, cassettePerform c u = (.ok resp, u₁) → u₁.asked ≠ u.asked →
    c'.mode ≠ .record →
      cassettePerform c' u₁ = (.ok (replayResponse (cassetteResponse c.policy resp)), u₁)
  tape : AlikeCall c c' → ∀ w w', SameTape w w' →
    (cassettePerform c w).1 = (cassettePerform c' w').1 ∧
      SameTape (cassettePerform c w).2 (cassettePerform c' w').2

/-- Nothing depends on a secret in two calls if and only if their requests are covered, and two
runs of such calls give the same results and the same tape. -/
theorem cassette_hides (calls calls' : List CassetteCall)
    (halike : List.Forall₂ AlikeAsked calls calls') :
    List.Forall₂ (fun c c' => Hides c c' ↔ Covers c c') calls calls' ∧
      (List.Forall₂ (fun c c' => AlikeCall c c' ∧ Covers c c') calls calls' →
        ∀ w w', SameTape w w' →
          (cassetteRun calls w).1 = (cassetteRun calls' w').1 ∧
            SameTape (cassetteRun calls w).2 (cassetteRun calls' w').2) := by
  constructor
  · refine halike.imp fun c c' hasked => ?_
    refine ⟨fun hhides => hasked.key_iff.mp hhides.key, fun hcovers => ?_⟩
    exact
      { key := hasked.key_iff.mpr hcovers
        replayed := fun _ _ _ hstored hmatched hmode =>
          cassettePerform_replays hasked hcovers hstored hmatched hmode
        tape := fun hcall _ _ hsame => cassettePerform_alike hcall hcovers hsame }
  · intro hcalls w w' hw
    exact cassetteRun_alike hcalls hw

/-- `http://h/?token=` and a value, with some userinfo. -/
def tokenUrl (userinfo : Option Bytes) (value : Bytes)
    (huser : ∀ v ∈ userinfo, ∀ c ∈ v, inAuthority c = true)
    (hvalue : ∀ c ∈ value, c ≠ 38 ∧ c ≠ 59) (hfragment : 35 ∉ ascii "token" ++ 61 :: value) :
    UrlText :=
  { UrlText.oneParam (ascii "token") value (by decide +kernel) hvalue hfragment with
    userinfo := userinfo
    userinfoFree := huser }

def tokenCall (url : UrlText) (now : Bytes) : CassetteCall :=
  { cookieCall .auto with req := { url := some url.text }, now := now }

theorem cassette_hides_token :
    let u := tokenUrl (some (ascii "me:pw")) (ascii "abc") (by decide +kernel) UrlText.abc_free
      (by decide +kernel)
    let v := tokenUrl none (ascii "?") UrlText.noUserinfo_free UrlText.question_free
      (by decide +kernel)
    u.text = ascii "http://me:pw@h/?token=abc" ∧ v.text = ascii "http://h/?token=?" ∧
      askedKey (tokenCall u (ascii "1")) = askedKey (tokenCall v (ascii "2")) ∧
      SameTape (cassetteRun [tokenCall u (ascii "1")] {}).2
        (cassetteRun [tokenCall v (ascii "2")] {}).2 := by
  intro u v
  have hsecret : RedactPolicy.init.Secret (ascii "token") :=
    (RedactPolicy.init.isSecretParam_iff _).mp (by decide +kernel)
  have hbound : SameBound u.text v.text :=
    iff_of_true (by decide +kernel) (by decide +kernel)
  have halike : AlikeCall (tokenCall u (ascii "1")) (tokenCall v (ascii "2")) :=
    { policy := rfl, mode := rfl, file := rfl, answer := rfl
      req := ⟨rfl, .some (.full u v rfl rfl
        (.some ⟨.last ⟨rfl, Or.inr ⟨hsecret, rfl, rfl⟩⟩, rfl⟩)), .nil, rfl, Or.inl rfl⟩ }
  have hcovers : Covers (tokenCall u (ascii "1")) (tokenCall v (ascii "2")) := by
    intro a b ha hb
    cases ha
    cases hb
    exact ⟨.some (Or.inl hbound), Or.inl rfl⟩
  obtain ⟨hhides, hrun⟩ := cassette_hides _ _ (.cons halike.toAlikeAsked .nil)
  have hkey := ((List.forall₂_cons.mp hhides).1.mpr hcovers).key
  exact ⟨by decide +kernel, by decide +kernel, hkey,
    (hrun (.cons ⟨halike, hcovers⟩ .nil) {} {} rfl).2⟩

/-- A form, by its content type. -/
def postedForm : ZuRequest where
  method := some (ascii "POST")
  url := some (ascii "https://x.test/a")
  headers := [⟨ascii "Content-Type", ascii "application/x-www-form-urlencoded", by decide⟩]

/-- It is posted under a policy that hides content types. -/
def hiddenFormCall (body : Bytes) : CassetteCall :=
  { cookieCall .auto with
    policy := ⟨[ascii "content-type"], []⟩
    req := { postedForm with body := body } }

lemma token_free : ∀ c ∈ ascii "token", c ≠ 38 ∧ c ≠ 59 ∧ c ≠ 61 := by decide +kernel

lemma byte_free (c : UInt8) (hc : c ≠ 38 ∧ c ≠ 59) :
    ∀ v ∈ some [c], ∀ x ∈ v, x ≠ 38 ∧ x ≠ 59 := by
  intro v hv x hx
  cases Option.mem_some.mp hv
  exact List.mem_singleton.mp hx ▸ hc

/-- `token=` and one byte. -/
def tokenQuery (c : UInt8) (hc : c ≠ 38 ∧ c ≠ 59) : Query :=
  .last ⟨ascii "token", some [c], token_free, byte_free c hc⟩

lemma hiddenForm_alike {s t : Bytes} (h : AlikeForm (hiddenFormCall s).policy s t) :
    AlikeCall (hiddenFormCall s) (hiddenFormCall t) := by
  have hform : isFormBody postedForm = true := by decide +kernel
  have hreq : AlikeRequest (hiddenFormCall s).policy (hiddenFormCall s).req
      (hiddenFormCall t).req :=
    { method := rfl
      url := .some (.same _)
      headers := .cons ⟨rfl, Or.inl rfl⟩ .nil
      kind := rfl
      body := Or.inr ⟨hform, hform, h⟩ }
  exact ⟨⟨rfl, hreq⟩, rfl, rfl, rfl⟩

/-- The tokens of two such forms are on the tape, and the forms have different keys. -/
theorem cassette_shows :
    AlikeCall (hiddenFormCall (ascii "token=1")) (hiddenFormCall (ascii "token=2")) ∧
      askedKey (hiddenFormCall (ascii "token=1")) ≠ askedKey (hiddenFormCall (ascii "token=2")) ∧
      (cassetteRun [hiddenFormCall (ascii "token=1")] {}).2.tape.map (fun i => i.request.body) =
        [ascii "token=1"] := by
  refine ⟨hiddenForm_alike ?_, by decide +kernel, by decide +kernel⟩
  have hsecret : (⟨[ascii "content-type"], []⟩ : RedactPolicy).Secret (ascii "token") :=
    (RedactPolicy.isSecretParam_iff _ _).mp (by decide +kernel)
  exact ⟨by decide +kernel, by decide +kernel, tokenQuery 49 (by decide),
    tokenQuery 50 (by decide), by decide +kernel, by decide +kernel,
    .last ⟨rfl, Or.inr ⟨hsecret, rfl, rfl⟩⟩⟩

end Zuhttp
