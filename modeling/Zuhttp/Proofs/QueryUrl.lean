import Zuhttp.Library.UriText
import Zuhttp.Proofs.Query

/-!
# A query joined to a URL

The components of the URL that `url_with_query` returns.
-/

namespace Zuhttp

namespace QueryList

/-- The texts between the `&` of a query component, which may be missing. -/
def pieces : Option Bytes → List Bytes
  | none => []
  | some s => Cut.splitOn 38 s

/-- The other components are those of the URL, and the query has the URL's own texts and then
these. -/
def Joined (url joined : Bytes) (added : List Bytes) : Prop :=
  (UriText.components joined).scheme = (UriText.components url).scheme ∧
    (UriText.components joined).authority = (UriText.components url).authority ∧
    (UriText.components joined).path = (UriText.components url).path ∧
    (UriText.components joined).fragment = (UriText.components url).fragment ∧
    pieces (UriText.components joined).query = pieces (UriText.components url).query ++ added

lemma joined_of_front {url joined : Bytes} {added : List Bytes}
    (hfront : UriText.front joined = UriText.front url)
    (hfragment : UriText.behind 35 joined = UriText.behind 35 url)
    (hquery : pieces (UriText.components joined).query =
      pieces (UriText.components url).query ++ added) : Joined url joined added := by
  refine ⟨?_, ?_, ?_, hfragment, hquery⟩
  · simp only [UriText.components, hfront]
  · simp only [UriText.components, hfront]
  · simp only [UriText.components, hfront]

lemma hash_notMem_parts {display : Bytes → Nat} {q : QueryList} {s : Bytes}
    (hs : s ∈ parts display q) : 35 ∉ s := by
  rw [parts_eq] at hs
  obtain ⟨p, -, rfl⟩ := List.mem_map.mp hs
  have hnot := notMem_pctEncode (c := 35) (by decide) (by decide) (by decide) (by decide)
  rw [List.mem_append, List.mem_cons, not_or, not_or]
  exact ⟨hnot p.1, by decide, hnot p.2⟩

lemma mem_intercalate {c : UInt8} {l : List Bytes} (h : c ∈ List.intercalate [38] l) :
    c = 38 ∨ ∃ s ∈ l, c ∈ s := by
  induction l with
  | nil => cases h
  | cons s l ih =>
    cases l with
    | nil =>
      rw [List.intercalate_singleton] at h
      exact .inr ⟨s, List.mem_cons_self .., h⟩
    | cons t l =>
      rw [List.intercalate_cons_cons, List.append_assoc, List.mem_append, List.mem_append,
        List.mem_singleton] at h
      rcases h with h | h | h
      · exact .inr ⟨s, List.mem_cons_self .., h⟩
      · exact .inl h
      · rcases ih h with h | ⟨u, hu, hmem⟩
        · exact .inl h
        · exact .inr ⟨u, List.mem_cons_of_mem s hu, hmem⟩

/-- The text of a query has no `#`, and its pieces are the ones it was joined from. -/
lemma buildQuery_some {display : Bytes → Nat} {q : QueryList} {qs : Bytes}
    (h : buildQuery display q = some qs) :
    35 ∉ qs ∧ Cut.splitOn 38 qs = parts display q ∧ parts display q ≠ [] := by
  unfold buildQuery at h
  split_ifs at h with hnone
  rw [Option.some.injEq] at h
  subst h
  have hclean : ∀ p ∈ parts display q, 38 ∉ p := by
    intro p hp
    rw [parts_eq] at hp
    obtain ⟨pair, -, rfl⟩ := List.mem_map.mp hp
    exact ampersand_notMem pair.1 pair.2
  refine ⟨fun hmem => ?_, Cut.splitOn_intercalate hnone hclean, hnone⟩
  rcases mem_intercalate hmem with h | ⟨s, hs, hin⟩
  · exact absurd h (by decide)
  · exact hash_notMem_parts hs hin

lemma takeWhile_hash {s : Bytes} (h : 35 ∉ s) : s.takeWhile (· ≠ 35) = s := by
  rw [List.takeWhile_eq_self_iff]
  intro c hc
  rw [decide_eq_true_eq]
  rintro rfl
  exact h hc

lemma query_eq {s : Bytes} (h : 35 ∉ s) : (UriText.components s).query = UriText.behind 63 s := by
  rw [UriText.components, takeWhile_hash h]

/-- Without a fragment, the parameters go behind the URL's own query. -/
lemma joined_of_noFragment {url qs : Bytes} (hurl : 35 ∉ url) (hqs : 35 ∉ qs) :
    Joined url (url ++ (if 63 ∈ url then [38] else [63]) ++ qs) (Cut.splitOn 38 qs) := by
  have hclean : ∀ c : UInt8, c ≠ 35 → 35 ∉ url ++ c :: qs := by
    intro c hc
    rw [List.mem_append, List.mem_cons, not_or, not_or]
    exact ⟨hurl, Ne.symm hc, hqs⟩
  by_cases hmark : 63 ∈ url
  · rw [if_pos hmark, List.append_assoc, List.singleton_append]
    have hnone := hclean 38 (by decide)
    refine joined_of_front (UriText.takeWhile_append_stop ⟨63, hmark, by decide⟩ _) ?_ ?_
    · rw [UriText.behind_eq_none hnone, UriText.behind_eq_none hurl]
    · rw [query_eq hnone, query_eq hurl, UriText.behind_append hmark]
      cases hown : UriText.behind 63 url with
      | none =>
        unfold UriText.behind at hown
        cases hdrop : url.dropWhile (· ≠ 63) with
        | nil =>
          rw [List.dropWhile_eq_nil_iff] at hdrop
          exact absurd rfl (of_decide_eq_true (hdrop 63 hmark))
        | cons c rest =>
          rw [hdrop] at hown
          cases hown
      | some own => exact Cut.splitOn_join 38 own qs
  · rw [if_neg hmark, List.append_assoc, List.singleton_append]
    have hnone := hclean 63 (by decide)
    have hpass : ∀ c ∈ url, decide (c ≠ 63 ∧ c ≠ 35) = true := by
      intro c hc
      rw [decide_eq_true_eq]
      constructor
      · rintro rfl
        exact hmark hc
      · rintro rfl
        exact hurl hc
    refine joined_of_front ?_ ?_ ?_
    · rw [UriText.front, UriText.front, List.takeWhile_append_of_pos hpass,
        List.takeWhile_cons_of_neg (by decide), List.append_nil,
        List.takeWhile_eq_self_iff.mpr hpass]
    · rw [UriText.behind_eq_none hnone, UriText.behind_eq_none hurl]
    · rw [query_eq hnone, query_eq hurl, UriText.behind_cons hmark, UriText.behind_eq_none hmark]
      rfl

/-- The query that is joined to a URL is its own, with the parameters behind it, exactly if
there are none or the URL has no fragment. -/
theorem joined_iff (display : Bytes → Nat) (url : Bytes) (q : QueryList) :
    Joined url (urlWithQuery display url q) (parts display q) ↔
      buildQuery display q = none ∨ 35 ∉ url := by
  unfold urlWithQuery
  cases hbuild : buildQuery display q with
  | none =>
    have hparts : parts display q = [] := by
      unfold buildQuery at hbuild
      split_ifs at hbuild with hnone
      exact hnone
    rw [hparts]
    refine ⟨fun _ => .inl rfl, fun _ => ⟨rfl, rfl, rfl, rfl, ?_⟩⟩
    rw [List.append_nil]
  | some qs =>
    obtain ⟨hqs, hsplit, hne⟩ := buildQuery_some hbuild
    rw [← hsplit]
    refine ⟨fun hjoined => .inr fun hhash => ?_, fun h => ?_⟩
    · -- what is appended is behind the fragment's mark
      have hquery : (UriText.components
          (url ++ (if 63 ∈ url then [38] else [63]) ++ qs)).query =
            (UriText.components url).query := by
        simp only [UriText.components]
        rw [List.append_assoc, UriText.takeWhile_append_stop ⟨35, hhash, by decide⟩]
      have hpieces := hjoined.2.2.2.2
      rw [hquery, List.self_eq_append_right, hsplit] at hpieces
      exact hne hpieces
    · exact joined_of_noFragment (h.resolve_left (Option.some_ne_none qs)) hqs

/-- A parameter joined to a URL with a fragment is not in its query. -/
theorem joined_fragment :
    let url := ascii "http://h/p#top"
    let q : QueryList := [(ascii "a", .character [some (ascii "1")])]
    urlWithQuery List.length url q = ascii "http://h/p#top?a=1" ∧
      (UriText.components (urlWithQuery List.length url q)).query = none ∧
      (UriText.components (urlWithQuery List.length url q)).fragment = some (ascii "top?a=1") := by
  decide +kernel

end QueryList

end Zuhttp
