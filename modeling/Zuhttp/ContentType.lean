import Zuhttp.Library.Cut
import Zuhttp.Library.Assoc
import Zuhttp.Library.Quoted
import Zuhttp.Retry

/-!
# The Content-Type header

`parse_content_type` of `response.R`, over the bytes of R's strings. `tolower()` is a parameter,
and `none` is NA.
-/

namespace Zuhttp

/-- What `parse_content_type` returns. The parameters are read as `[[` reads a list. -/
structure ContentType where
  type : Option Bytes
  params : List (Bytes × Bytes)
  deriving DecidableEq

namespace ContentType

/-- `strsplit()` at a fixed byte. An empty piece at the end is not one. -/
def strsplit (sep : UInt8) (s : Bytes) : List Bytes :=
  let pieces := Cut.splitOn sep s
  if pieces.getLast? = some [] then pieces.dropLast else pieces

def trimws (s : Bytes) : Bytes := (s.dropWhile isBlank).rdropWhile isBlank

/-- What stands in front of the first `=` and behind it. -/
def keyValue (p : Bytes) : Option (Bytes × Bytes) :=
  match p.dropWhile (· ≠ 61) with
  | [] => none
  | _ :: value => some (p.takeWhile (· ≠ 61), value)

/-- `sub("^\"", "", s)`. -/
def dropQuote : Bytes → Bytes
  | 34 :: s => s
  | s => s

/-- `sub("\"$", "", s)`. -/
def rdropQuote (s : Bytes) : Bytes := if s.getLast? = some 34 then s.dropLast else s

def unquote (value : Bytes) : Bytes :=
  if value.head? = some 34 then Quoted.unescape 92 (rdropQuote (dropQuote value)) else value

/-- `params[[k]] <- val`. An empty name is never found. -/
def assign (params : List (Bytes × Bytes)) (k val : Bytes) : List (Bytes × Bytes) :=
  if k = [] then params ++ [(k, val)] else Assoc.put Prod.fst params (k, val)

variable (tolower : Bytes → Bytes)

def addParam (params : List (Bytes × Bytes)) (p : Bytes) : List (Bytes × Bytes) :=
  match keyValue p with
  | none => params
  | some (k, value) => assign params (tolower (trimws k)) (unquote (trimws value))

/-- `parse_content_type`. The text is not empty where it is split, so that it has a piece. -/
def parseContentType : List (Option Bytes) → ContentType
  | some (c :: v) :: _ =>
    match strsplit 59 (c :: v) with
    | [] => ⟨none, []⟩
    | part :: parts => ⟨some (tolower (trimws part)), parts.foldl (addParam tolower) []⟩
  | _ => ⟨none, []⟩

/-- `content_type_of`. -/
def contentTypeOf (headers : List HeaderField) : ContentType :=
  parseContentType tolower ((respHeader headers (ascii "content-type")).map some)

/-- `body_charset`. -/
def bodyCharset (headers : List HeaderField) : Option Bytes :=
  match Assoc.lookup Prod.fst (contentTypeOf tolower headers).params (ascii "charset") with
  | some (_, cs) => if cs = [] then none else some cs
  | none => none

end ContentType

end Zuhttp
