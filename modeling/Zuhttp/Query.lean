import Zuhttp.Bytes
import Zuhttp.Library.Assoc
import Zuhttp.Library.Percent

/-!
# Query parameters

The query lists of `client.R`, `request.R` and `url.R`. Names and texts are the UTF-8 bytes of
R's strings, and a list is read and written by name as `[[` does, at the first entry of the
name. How wide `format()` takes a string to be is a parameter.
-/

namespace Zuhttp

/-- A value of a query list. A vector that is neither logical nor character is given by the
texts that `query_atom` makes of its elements. -/
inductive QueryValue
  | null
  | logical (v : List (Option Bool))
  | character (v : List (Option Bytes))
  | other (v : List (Option Bytes))
  deriving DecidableEq

abbrev QueryList := List (Bytes × QueryValue)

namespace QueryValue

/-- A single NA. -/
def erases : QueryValue → Bool
  | logical [none] => true
  | character [none] => true
  | other [none] => true
  | _ => false

end QueryValue

namespace QueryList

/-- `q[[nm]]`. -/
def byName (q : QueryList) (nm : Bytes) : QueryValue :=
  match Assoc.lookup Prod.fst q nm with
  | some e => e.2
  | none => .null

/-- `q[[nm]] <- v`. -/
def assign (q : QueryList) (nm : Bytes) (v : QueryValue) : QueryList :=
  if v = .null then q.eraseP (fun e => e.1 = nm) else Assoc.put Prod.fst q (nm, v)

/-- `as_query_list`, unless a name is missing. -/
def asQueryList (q : QueryList) : Option QueryList :=
  if q.any (fun e => e.1 = []) then none
  else
    some ((q.map Prod.fst).foldl
      (fun q nm => if byName q nm = .null then assign q nm (.logical [none]) else q) q)

/-- The bytes `pct_encode` keeps. -/
def isUnreserved (b : UInt8) : Bool :=
  (0x41 ≤ b ∧ b ≤ 0x5A) ∨ (0x61 ≤ b ∧ b ≤ 0x7A) ∨ (0x30 ≤ b ∧ b ≤ 0x39) ∨
    [0x2D, 0x2E, 0x5F, 0x7E].contains b

def pctEncode (s : Bytes) : Bytes := Percent.encode isUnreserved s

/-- `format()` of a character vector: blanks up to the width of its widest string. -/
def formatText (display : Bytes → Nat) (v : List Bytes) : List Bytes :=
  let w := (v.map display).foldl max 0
  v.map (fun s => s ++ List.replicate (w - display s) 32)

/-- `query_atom` of the elements that are not NA. -/
def queryAtom (display : Bytes → Nat) : QueryValue → List Bytes
  | .null => []
  | .logical v => (v.filterMap id).map (fun b => if b then ascii "true" else ascii "false")
  | .character v => formatText display (v.filterMap id)
  | .other v => v.filterMap id

/-- The `name=value` texts of `build_query`, by the names of the list. -/
def parts (display : Bytes → Nat) (q : QueryList) : List Bytes :=
  (q.map Prod.fst).flatMap (fun nm =>
    (queryAtom display (byName q nm)).map (fun v => pctEncode nm ++ 61 :: pctEncode v))

/-- `build_query`. -/
def buildQuery (display : Bytes → Nat) (q : QueryList) : Option Bytes :=
  if parts display q = [] then none else some (List.intercalate [38] (parts display q))

/-- `url_with_query`. -/
def urlWithQuery (display : Bytes → Nat) (url : Bytes) (q : QueryList) : Bytes :=
  match buildQuery display q with
  | none => url
  | some qs => url ++ (if 63 ∈ url then [38] else [63]) ++ qs

/-- `merge_query`. -/
def mergeQuery (client req : QueryList) : QueryList :=
  (req.map Prod.fst).foldl
    (fun out nm =>
      let v := byName req nm
      if v.erases then assign out nm .null else assign out nm v) client

/-- `zu_query` on a request with these parameters. -/
def zuQuery (staged args : QueryList) : Option QueryList :=
  (asQueryList args).map (fun q =>
    (q.map Prod.fst).foldl (fun out nm => assign out nm (byName q nm)) staged)

/-- `zu_body_form`: the body. -/
def zuBodyForm (display : Bytes → Nat) (x : QueryList) : Option Bytes :=
  (asQueryList x).map (fun q => (buildQuery display q).getD [])

end QueryList

end Zuhttp
