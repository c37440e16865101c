import Zuhttp.Proofs.Writer
import Zuhttp.UriParse

/-!
# The texts of a URL

What parsing a URL and resolving a reference append to their buffers, in closed form. A text
that does not fit into 64 KiB is answered with lack of memory.
-/

namespace Zuhttp

namespace UriParts

/-- The pieces `build_path_query` appends. -/
def pieces (p : UriParts) : List Bytes :=
  (if p.path = [] then [[47]] else p.path.flatMap (fun s => [[47], s])) ++
    p.query.elim [] (fun query => [[63], query])

/-- The path and the query as a request names them. -/
def pathQuery (p : UriParts) : Bytes := p.pieces.flatten

lemma appendSegments_eq (path : List Bytes) :
    appendSegments path = appendAll (path.flatMap (fun s => [[47], s])) := by
  induction path with
  | nil => rfl
  | cons s path ih =>
    rw [appendSegments, ih, List.flatMap_cons, appendAll_append, appendAll_pair, bind_assoc]
    rfl

lemma appendPath_eq (path : List Bytes) : appendPath path =
    appendAll (if path = [] then [[47]] else path.flatMap (fun s => [[47], s])) := by
  unfold appendPath
  split_ifs
  · exact (appendAll_singleton [47]).symm
  · exact appendSegments_eq path

lemma appendQuery_eq (query : Option Bytes) :
    appendQuery query = appendAll (query.elim [] (fun query => [[63], query])) := by
  cases query with
  | none => rfl
  | some query => exact (appendAll_pair [63] query).symm

lemma buildPathQuery_eq (p : UriParts) :
    p.buildPathQuery = (do appendAll p.pieces; Buffer.cstr) := by
  unfold buildPathQuery pieces
  rw [appendPath_eq, appendQuery_eq, appendAll_append, bind_assoc]

lemma exec_buildPathQuery (p : UriParts) :
    (Prog.exec p.buildPathQuery (Buffer.init textMax)).1 =
      if p.pathQuery.length < textMax then .ok p.pathQuery else .error .nomem := by
  rw [buildPathQuery_eq]
  exact cstr_capped p.pieces (by decide) (by decide)

/-- A URL that is taken has a short path and query. -/
lemma toUri_short {p : UriParts} {u : Uri} (h : p.toUri = .ok u) :
    u.pathQuery.length < textMax := by
  unfold toUri at h
  cases hauthority : p.authority with
  | none =>
    rw [hauthority] at h
    cases h
  | some a =>
    rw [hauthority] at h
    have hexec := exec_buildPathQuery p
    cases hrun : Prog.exec p.buildPathQuery (Buffer.init textMax) with
    | mk r b =>
      rw [hrun] at hexec h
      cases r with
      | error rc => cases h
      | ok pathQuery =>
        cases h
        change Except.ok pathQuery = _ at hexec
        split_ifs at hexec with hlt
        cases hexec
        exact hlt

end UriParts

namespace Uri

variable {up : Uriparser}

lemma parse_short {s : Bytes} {u : Uri} (h : parse up s = .ok u) :
    u.pathQuery.length < UriParts.textMax := by
  unfold parse at h
  split_ifs at h
  split at h
  · cases h
  · exact UriParts.toUri_short h

/-! ### References -/

def basePieces (u : Uri) : List Bytes :=
  [u.scheme, ascii "://"] ++ (if u.isV6 then [[91], u.host, [93]] else [u.host]) ++
    (if u.portExplicit then [58 :: Decimal.decimalText u.port] else []) ++ [u.pathQuery]

lemma basePieces_flatten (u : Uri) : u.basePieces.flatten = u.urlText := by
  unfold basePieces urlText bracketed
  split_ifs <;> simp

lemma appendHost_eq (u : Uri) :
    u.appendHost = appendAll (if u.isV6 then [[91], u.host, [93]] else [u.host]) := by
  unfold appendHost
  split_ifs
  · rw [appendAll, appendAll_pair]
    rfl
  · exact (appendAll_singleton u.host).symm

lemma absoluteForm_eq (u : Uri) : u.absoluteForm = appendAll u.basePieces := by
  have hport : Prog.onlyIf (u.portExplicit = true)
      (Buffer.append (58 :: Decimal.decimalText u.port)) =
      appendAll (if u.portExplicit then [58 :: Decimal.decimalText u.port] else []) := by
    unfold Prog.onlyIf
    split_ifs
    · exact (appendAll_singleton _).symm
    · rfl
  unfold absoluteForm basePieces
  rw [hport, appendHost_eq, appendAll_append, appendAll_append, appendAll_append, appendAll_pair,
    appendAll_singleton]
  simp only [bind_assoc]

lemma baseText_eq (u : Uri) : u.baseText = (do appendAll u.basePieces; Buffer.cstr) := by
  rw [← absoluteForm_eq]
  unfold baseText absoluteForm
  simp only [bind_assoc]

lemma exec_baseText (u : Uri) : (Prog.exec u.baseText (Buffer.init UriParts.textMax)).1 =
    if u.urlText.length < UriParts.textMax then .ok u.urlText else .error .nomem := by
  rw [baseText_eq, ← basePieces_flatten]
  exact cstr_capped u.basePieces (by decide) (by decide)

end Uri

end Zuhttp
