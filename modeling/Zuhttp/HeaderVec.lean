import Zuhttp.Bytes
import Zuhttp.Library.Assoc

/-!
# Header vectors

The named character vectors in which `client.R` and `request.R` carry headers, and their merge.
`none` is NA. `tolower()` is a parameter.
-/

namespace Zuhttp

abbrev HeaderVec := List (Bytes × Option Bytes)

namespace HeaderVec

/-- `h[[nm]]`, the first element of the name. -/
def byName (h : HeaderVec) (nm : Bytes) : Option Bytes :=
  match Assoc.lookup Prod.fst h nm with
  | some e => e.2
  | none => none

/-- `as_header_vec`, of a vector whose names are there. -/
def asHeaderVec (h : HeaderVec) : Option HeaderVec :=
  if h.any (fun e => e.1 = []) then none else some h

variable (tolower : Bytes → Bytes)

/-- `drop_header`. -/
def dropHeader (h : HeaderVec) (name : Bytes) : HeaderVec :=
  h.filter (fun e => tolower e.1 ≠ tolower name)

/-- `zu_headers` on a request with these headers. -/
def zuHeaders (staged h : HeaderVec) : Option HeaderVec :=
  (asHeaderVec h).map (fun h =>
    (h.map Prod.fst).foldl
      (fun out nm => Assoc.put Prod.fst (dropHeader tolower out nm) (nm, byName h nm)) staged)

/-- `merge_headers`. -/
def mergeHeaders (client req : HeaderVec) : HeaderVec :=
  let out := (req.map Prod.fst).foldl
    (fun out nm =>
      let out := dropHeader tolower out nm
      if (byName req nm).isSome then Assoc.put Prod.fst out (nm, byName req nm) else out) client
  out.filter (fun e => e.2.isSome)

end HeaderVec

end Zuhttp
