import Zuhttp.Proofs.Cassette

/-!
# Redacting twice

Every text is a query, and is a URL with a scheme or a path with a query behind it. Its
redaction is such a text again, with the same secrets, so that it is redacted by the same
program.
-/

namespace Zuhttp

open RedactPolicy

/-! ### Queries -/

namespace Param

/-- The parameter with the value of a secret replaced. -/
def hide (p : RedactPolicy) (a : Param) : Param where
  name := a.name
  value := if p.isSecretParam a.name then a.value.map (fun _ => redacted) else a.value
  nameFree := a.nameFree
  valueFree := by
    have hmark : ∀ c ∈ redacted, c ≠ 38 ∧ c ≠ 59 := by decide +kernel
    intro v hv
    split_ifs at hv
    · obtain ⟨_, -, rfl⟩ := Option.map_eq_some_iff.mp hv
      exact hmark
    · exact a.valueFree v hv

lemma hide_secret {p : RedactPolicy} {a : Param} (h : p.isSecretParam a.name = true) :
    (a.hide p).value = a.value.map (fun _ => redacted) := if_pos h

lemma hide_plain {p : RedactPolicy} {a : Param} (h : ¬p.isSecretParam a.name = true) :
    (a.hide p).value = a.value := if_neg h

lemma hide_text (p : RedactPolicy) (a : Param) : (a.hide p).text = a.hidden p := by
  have hname : (a.hide p).name = a.name := rfl
  unfold hidden
  by_cases hsecret : p.Secret a.name
  · have hbool := (p.isSecretParam_iff a.name).mpr hsecret
    cases hvalue : a.value with
    | none =>
      rw [if_neg (by simp), text, text, hide_secret hbool, hvalue]
      rfl
    | some v =>
      rw [if_pos ⟨hsecret, rfl⟩, text, hide_secret hbool, hvalue]
      rfl
  · have hbool := mt (p.isSecretParam_iff a.name).mp hsecret
    rw [if_neg (fun h => hsecret h.1), text, text, hide_plain hbool, hname]

lemma alike_hide (p : RedactPolicy) (a : Param) : a.Alike p.Secret (a.hide p) := by
  refine ⟨rfl, ?_⟩
  by_cases hsecret : p.isSecretParam a.name = true
  · rw [hide_secret hsecret]
    cases hvalue : a.value with
    | none => exact .inl rfl
    | some v => exact .inr ⟨(p.isSecretParam_iff a.name).mp hsecret, rfl, rfl⟩
  · exact .inl (hide_plain hsecret).symm

lemma mem_hide {p : RedactPolicy} {a : Param} {c : UInt8} (h : c ∈ (a.hide p).text) :
    c ∈ a.text ∨ c ∈ redacted := by
  rw [hide_text, hidden] at h
  split_ifs at h with hsecret
  · obtain ⟨v, hv⟩ := Option.isSome_iff_exists.mp hsecret.2
    rw [text, hv]
    rw [List.mem_append, List.mem_cons] at h ⊢
    rcases h with hname | hmark | hvalue
    · exact .inl (.inl hname)
    · exact .inl (.inr (.inl hmark))
    · exact .inr hvalue
  · exact .inl h

/-- One more byte in front of a parameter. -/
lemma exists_cons (a : Param) {c : UInt8} (hc : c ≠ 38 ∧ c ≠ 59) :
    ∃ b : Param, b.text = c :: a.text := by
  by_cases heq : c = 61
  · subst heq
    refine ⟨⟨[], some a.text, by simp, ?_⟩, rfl⟩
    rintro v hv d hd
    cases hv
    have hfree := a.text_free d hd
    rw [isSeparator, decide_eq_false_iff_not, not_or] at hfree
    exact hfree
  · refine ⟨⟨c :: a.name, a.value, ?_, a.valueFree⟩, ?_⟩
    · rw [List.forall_mem_cons]
      exact ⟨⟨hc.1, hc.2, heq⟩, a.nameFree⟩
    · unfold text
      dsimp only
      cases a.value <;> rfl

end Param

namespace Query

def hide (p : RedactPolicy) : Query → Query
  | last a => last (a.hide p)
  | more a semicolon q => more (a.hide p) semicolon (q.hide p)

lemma hide_text (p : RedactPolicy) (q : Query) : (q.hide p).text = q.hidden p := by
  induction q with
  | last a => exact a.hide_text p
  | more a semicolon q ih => rw [hide, text, hidden, a.hide_text, ih]

lemma alike_hide (p : RedactPolicy) (q : Query) : q.Alike p.Secret (q.hide p) := by
  induction q with
  | last a => exact .last (a.alike_hide p)
  | more a semicolon q ih => exact .more (a.alike_hide p) ih

lemma mem_hide {p : RedactPolicy} {q : Query} {c : UInt8} (h : c ∈ (q.hide p).text) :
    c ∈ q.text ∨ c ∈ redacted := by
  induction q with
  | last a => exact Param.mem_hide h
  | more a semicolon q ih =>
    rw [hide, text, List.mem_append, List.mem_cons] at h
    rw [text, List.mem_append, List.mem_cons]
    rcases h with hparam | hmark | hrest
    · exact (Param.mem_hide hparam).imp_left .inl
    · exact .inl (.inr (.inl hmark))
    · exact (ih hrest).imp_left (fun hmem => .inr (.inr hmem))

/-- Every text is a query. -/
lemma exists_text (s : Bytes) : ∃ q : Query, q.text = s := by
  induction s with
  | nil => exact ⟨.last ⟨[], none, by simp, by simp⟩, rfl⟩
  | cons c s ih =>
    obtain ⟨q, rfl⟩ := ih
    by_cases hc : c ≠ 38 ∧ c ≠ 59
    · cases q with
      | last a =>
        obtain ⟨b, hb⟩ := a.exists_cons hc
        exact ⟨.last b, hb⟩
      | more a semicolon q =>
        obtain ⟨b, hb⟩ := a.exists_cons hc
        exact ⟨.more b semicolon q, by rw [text, hb, List.cons_append, text]⟩
    · have hsep : separator (c = 59) = c := by
        unfold separator
        by_cases hsemi : c = 59
        · simp [hsemi]
        · have hand : c = 38 := by simpa [hsemi] using hc
          simp [hand]
      exact ⟨.more ⟨[], none, by simp, by simp⟩ (c = 59) q, by rw [text, hsep]; rfl⟩

end Query

/-! ### URLs -/

namespace UrlText

/-- A query and the fragment, the values of secrets replaced. -/
def hideQuery (p : RedactPolicy) (query : UrlQuery) : UrlQuery :=
  query.map (fun x => (x.1.hide p, x.2))

lemma alike_hideQuery (p : RedactPolicy) (query : UrlQuery) :
    AlikeQuery p query (hideQuery p query) := by
  cases query with
  | none => exact .none
  | some x => exact .some ⟨x.1.alike_hide p, rfl⟩

lemma free_hideQuery {p : RedactPolicy} {query : UrlQuery} (h : ∀ x ∈ query, 35 ∉ x.1.text) :
    ∀ x ∈ hideQuery p query, 35 ∉ x.1.text := by
  have hmark : 35 ∉ redacted := by decide +kernel
  intro x hx hmem
  obtain ⟨y, hy, rfl⟩ := Option.map_eq_some_iff.mp hx
  exact (Query.mem_hide hmem).elim (h y hy) hmark

/-- The URL without its userinfo and with the values of secrets replaced. -/
def hide (p : RedactPolicy) (u : UrlText) : UrlText :=
  { u with
    userinfo := none
    query := hideQuery p u.query
    userinfoFree := noUserinfo_free
    queryFree := free_hideQuery u.queryFree }

lemma hide_text (p : RedactPolicy) (u : UrlText) : (u.hide p).text = u.hidden p := by
  have hrest : u.rest.takeWhile inAuthority ++ u.rest.dropWhile inAuthority = u.rest :=
    List.takeWhile_append_dropWhile
  have htail : (u.hide p).tail = queryTail (hideQuery p u.query) := tail_eq _
  have hquery : u.hidden p = u.scheme ++ ascii "://" ++ u.rest ++
      queryTail (hideQuery p u.query) := by
    rw [hidden]
    congr 1
    cases u.query with
    | none => rfl
    | some x =>
      change _ = 63 :: ((x.1.hide p).text ++ fragmentText x.2)
      rw [x.1.hide_text]
  have hauthority : (u.hide p).authority = u.rest.takeWhile inAuthority := rfl
  have hscheme : (u.hide p).scheme = u.scheme := rfl
  have hpath : (u.hide p).rest = u.rest := rfl
  rw [text, htail, hauthority, hscheme, hpath, hquery, ← List.append_assoc (List.takeWhile _ _),
    hrest, ← List.append_assoc]

end UrlText

/-- A path, and a query with a fragment behind it. -/
lemma exists_queryTail (s : Bytes) : ∃ (path : Bytes) (query : UrlQuery), 63 ∉ path ∧
    (∀ x ∈ query, 35 ∉ x.1.text) ∧ s = path ++ UrlText.queryTail query := by
  have hpath : 63 ∉ s.takeWhile (· ≠ 63) := fun h => by simpa using List.mem_takeWhile_imp h
  have hsplit := List.takeWhile_append_dropWhile (p := (· ≠ 63)) (l := s)
  cases hrest : s.dropWhile (· ≠ 63) with
  | nil =>
    rw [hrest] at hsplit
    exact ⟨_, none, hpath, by rintro x ⟨⟩, hsplit.symm⟩
  | cons c t =>
    have hc : c = 63 := by
      have hstop := List.head?_dropWhile_not (· ≠ 63) s
      rw [hrest] at hstop
      simpa using hstop
    have hquery : 35 ∉ t.takeWhile (· ≠ 35) := fun h => by simpa using List.mem_takeWhile_imp h
    obtain ⟨q, hq⟩ := Query.exists_text (t.takeWhile (· ≠ 35))
    obtain ⟨f, hf⟩ : ∃ f, t.dropWhile (· ≠ 35) = UrlText.fragmentText f := by
      cases hfragment : t.dropWhile (· ≠ 35) with
      | nil => exact ⟨none, rfl⟩
      | cons d f =>
        have hd : d = 35 := by
          have hstop := List.head?_dropWhile_not (· ≠ 35) t
          rw [hfragment] at hstop
          simpa using hstop
        exact ⟨some f, by rw [hd]; rfl⟩
    refine ⟨_, some (q, f), hpath, ?_, ?_⟩
    · rintro x ⟨⟩
      rwa [hq]
    · rw [UrlText.queryTail, hq, ← hf, List.takeWhile_append_dropWhile]
      rw [hrest, hc] at hsplit
      exact hsplit.symm

lemma findScheme_eq_some {i n : Nat} {s : Bytes} (h : findScheme i s = some n) :
    ∃ t r, s = t ++ 58 :: 47 :: 47 :: r ∧ ∀ c ∈ t, isSchemeByte c = true := by
  match s with
  | [] => cases h
  | [_] => cases h
  | [_, _] => cases h
  | c :: d :: e :: s =>
    rw [findScheme] at h
    split_ifs at h with hmarks hc
    · obtain ⟨rfl, rfl, rfl⟩ := hmarks
      exact ⟨[], s, rfl, by simp⟩
    · obtain ⟨t, r, hs, ht⟩ := findScheme_eq_some h
      refine ⟨c :: t, r, by rw [hs]; rfl, ?_⟩
      rw [List.forall_mem_cons]
      exact ⟨hc, ht⟩

/-- The scheme of a text stays when more follows. -/
lemma schemeEnd_of_append {s t : Bytes} (h : schemeEnd (s ++ t) = none) : schemeEnd s = none := by
  cases s with
  | nil => rfl
  | cons c s =>
    rw [List.cons_append, schemeEnd] at h
    rw [schemeEnd]
    by_cases hc : Ascii.isAlpha c = true
    · rw [if_pos hc] at h ⊢
      by_contra hsome
      obtain ⟨n, hn⟩ := Option.ne_none_iff_exists'.mp hsome
      obtain ⟨x, r, hs, hx⟩ := findScheme_eq_some hn
      rw [hs, List.append_assoc, List.cons_append, List.cons_append, List.cons_append,
        UrlText.findScheme_text 1 _ hx] at h
      cases h
    · rw [if_neg hc]

/-- The text that `findScheme` has found a scheme in. -/
lemma schemeEnd_eq_some {s : Bytes} {n : Nat} (h : schemeEnd s = some n) :
    ∃ scheme r, s = scheme ++ (ascii "://" ++ r) ∧ scheme ≠ [] ∧
      (∀ c ∈ scheme.head?, Ascii.isAlpha c = true) ∧ ∀ c ∈ scheme, isSchemeByte c = true := by
  cases s with
  | nil => cases h
  | cons c s =>
    rw [schemeEnd] at h
    split_ifs at h with hc
    obtain ⟨t, r, rfl, ht⟩ := findScheme_eq_some h
    refine ⟨c :: t, r, rfl, List.cons_ne_nil _ _, ?_, ?_⟩
    · rintro d ⟨⟩
      exact hc
    · rw [List.forall_mem_cons]
      exact ⟨by simp [isSchemeByte, hc], ht⟩

/-- An authority, of which the userinfo is all up to the last `@`. -/
lemma exists_userinfo (s : Bytes) : ∃ (userinfo : Option Bytes) (host : Bytes), 64 ∉ host ∧
    s = userinfo.elim [] (· ++ [64]) ++ host := by
  induction s with
  | nil => exact ⟨none, [], List.not_mem_nil, rfl⟩
  | cons c s ih =>
    obtain ⟨userinfo, host, hhost, rfl⟩ := ih
    cases userinfo with
    | some v => exact ⟨some (c :: v), host, hhost, rfl⟩
    | none =>
      by_cases hc : c = 64
      · exact ⟨some [], host, hhost, by rw [hc]; rfl⟩
      · refine ⟨none, c :: host, ?_, rfl⟩
        rw [List.mem_cons, not_or]
        exact ⟨Ne.symm hc, hhost⟩

/-- A text with a scheme in front is a URL. -/
lemma UrlText.exists_text {s : Bytes} {n : Nat} (h : schemeEnd s = some n) :
    ∃ u : UrlText, u.text = s := by
  obtain ⟨scheme, r, rfl, hne, halpha, hvalid⟩ := schemeEnd_eq_some h
  obtain ⟨userinfo, host, hhost, hauthority⟩ := exists_userinfo (r.takeWhile inAuthority)
  obtain ⟨path, query, hpath, hquery, hrest⟩ := exists_queryTail (r.dropWhile inAuthority)
  have hall : ∀ c ∈ userinfo.elim [] (· ++ [64]) ++ host, inAuthority c = true :=
    fun c hc => List.mem_takeWhile_imp (hauthority ▸ hc)
  have hin : ∀ c ∈ host, inAuthority c = true :=
    fun c hc => hall c (List.mem_append_right _ hc)
  have hstop : ∀ c ∈ path.head?, inAuthority c = false := by
    intro c hc
    have hhead := List.head?_dropWhile_not inAuthority r
    cases path with
    | nil => cases hc
    | cons d path =>
      cases hc
      rw [hrest] at hhead
      simpa using hhead
  obtain ⟨htake, hdrop⟩ := takeWhile_append_stop hin hstop
  let u : UrlText := {
    scheme := scheme
    userinfo := userinfo
    rest := host ++ path
    query := query
    schemeAlpha := halpha
    schemeValid := ⟨hne, hvalid⟩
    userinfoFree := by
      rintro v rfl c hc
      exact hall c (by simp [hc])
    restFree := by
      rw [List.mem_append, not_or]
      exact ⟨fun hmem => absurd (hin 63 hmem) (by decide), hpath⟩
    hostFree := by rwa [htake]
    queryFree := hquery }
  have hauth : u.authority = userinfo.elim [] (· ++ [64]) ++ host := by
    unfold UrlText.authority
    dsimp only [u]
    rw [htake]
    cases userinfo with
    | none => rfl
    | some v => simp
  refine ⟨u, ?_⟩
  rw [UrlText.text, hauth, u.tail_eq, ← hauthority, List.append_assoc]
  change scheme ++ (ascii "://" ++ (r.takeWhile inAuthority ++
    ((host ++ path).dropWhile inAuthority ++ UrlText.queryTail query))) = _
  rw [hdrop, ← hrest, List.takeWhile_append_dropWhile]

/-! ### Redacting twice -/

/-- What a redaction writes is redacted by the same program. -/
lemma redactForm_again (p : RedactPolicy) (s : Bytes) :
    ∃ out, Appends (p.redactFormBody s) out ∧ p.redactFormBody out = p.redactFormBody s := by
  obtain ⟨q, rfl⟩ := Query.exists_text s
  refine ⟨(q.hide p).text, ?_, ?_⟩
  · unfold redactFormBody
    rw [q.redactQuery_text, q.hide_text, ← q.pieces_flatten]
    exact appendAll_appends _
  · unfold redactFormBody
    rw [Query.redactQuery_text, Query.redactQuery_text, (q.alike_hide p).pieces]

lemma redactUrl_again (p : RedactPolicy) (s : Bytes) :
    ∃ out, Appends (p.redactUrl s) out ∧ p.redactUrl out = p.redactUrl s := by
  cases hscheme : schemeEnd s with
  | some n =>
    obtain ⟨u, rfl⟩ := UrlText.exists_text hscheme
    refine ⟨(u.hide p).text, ?_, ?_⟩
    · rw [u.redactUrl_text, u.hide_text, ← u.pieces_flatten]
      exact appendAll_appends _
    · exact (AlikeUrl.full u (u.hide p) rfl rfl (UrlText.alike_hideQuery p u.query)).redacts.symm
  | none =>
    obtain ⟨path, query, hpath, hquery, rfl⟩ := exists_queryTail s
    have hbare := schemeEnd_of_append hscheme
    have hfree := UrlText.free_hideQuery (p := p) hquery
    have halike := UrlText.alike_hideQuery p query
    have hsame := (AlikeUrl.bare path query _ hbare hpath ⟨hquery, hfree⟩ halike).redacts
    refine ⟨path ++ UrlText.queryTail (UrlText.hideQuery p query), ?_, hsame.symm⟩
    have hprogram : p.redactUrl (path ++ UrlText.queryTail query) =
        appendAll (UrlText.restPieces p path query) := by
      unfold redactUrl
      rw [hscheme]
      exact UrlText.redactRest_pieces p hpath query hquery
    have hflat : (UrlText.restPieces p path query).flatten =
        path ++ UrlText.queryTail (UrlText.hideQuery p query) := by
      cases query with
      | none => simp [UrlText.restPieces, UrlText.hideQuery, UrlText.queryTail]
      | some x =>
        have hfragment : (UrlText.fragmentPieces x.2).flatten = UrlText.fragmentText x.2 := by
          cases x.2 <;> simp [UrlText.fragmentPieces, UrlText.fragmentText]
        simp [UrlText.restPieces, UrlText.hideQuery, UrlText.queryTail, hfragment,
          Query.hide_text, Query.pieces_flatten]
    rw [hprogram, ← hflat]
    exact appendAll_appends _

/-- Redacting what a redaction wrote writes the same again, into whatever buffer. -/
theorem redact_idempotent (p : RedactPolicy) (s : Bytes) {max : Nat} {b : Buffer} :
    (Prog.exec (p.redactUrl s) (Buffer.init max) = (.ok (), b) →
      Prog.exec (p.redactUrl b.data) (Buffer.init max) = (.ok (), b) ∧
        Appends (p.redactUrl b.data) b.data) ∧
    (Prog.exec (p.redactFormBody s) (Buffer.init max) = (.ok (), b) →
      Prog.exec (p.redactFormBody b.data) (Buffer.init max) = (.ok (), b) ∧
        Appends (p.redactFormBody b.data) b.data) := by
  obtain ⟨url, hurl, hurlAgain⟩ := redactUrl_again p s
  obtain ⟨form, hform, hformAgain⟩ := redactForm_again p s
  constructor
  · intro hrun
    have hdata : b.data = url := hurl _ b hrun
    rw [hdata, hurlAgain]
    exact ⟨hrun, hurl⟩
  · intro hrun
    have hdata : b.data = form := hform _ b hrun
    rw [hdata, hformAgain]
    exact ⟨hrun, hform⟩

theorem redact_idempotent_userinfo :
    Prog.exec (RedactPolicy.init.redactUrl (ascii "http://a@u:p@h/?%74oken=@;sig"))
        (Buffer.init 64) = (.ok (), ⟨ascii "http://h/?%74oken=<redacted>;sig", 64, false⟩) ∧
      Prog.exec (RedactPolicy.init.redactUrl (ascii "http://h/?%74oken=<redacted>;sig"))
        (Buffer.init 64) = (.ok (), ⟨ascii "http://h/?%74oken=<redacted>;sig", 64, false⟩) := by
  have hrun : Prog.exec (RedactPolicy.init.redactUrl (ascii "http://a@u:p@h/?%74oken=@;sig"))
      (Buffer.init 64) = (.ok (), ⟨ascii "http://h/?%74oken=<redacted>;sig", 64, false⟩) := by
    decide +kernel
  exact ⟨hrun, ((redact_idempotent _ _).1 hrun).1⟩

end Zuhttp
