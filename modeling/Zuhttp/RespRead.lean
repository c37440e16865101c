import Zuhttp.OpenBody
import Zuhttp.Library.Double

/-!
# Reading a response in pieces

`zu_resp_read` and `zu_resp_abort` of `response.R`, of a body that the response holds and of one
that its transport streams. Positions in the held body are doubles, and so is what `:` and `[`
make of them. How long a read may wait is not in the model.
-/

namespace Zuhttp

/-- A number of R. NaN counts as NA. -/
inductive RNumber
  | na
  | finite (x : ℚ)
  | infinite
  | negInfinite
  deriving DecidableEq

/-- An argument, as far as the checks look at it. -/
inductive RArg
  | null
  | numeric (v : List RNumber)
  | other
  deriving DecidableEq

/-- A size that the check of `zu_resp_read` accepts. -/
inductive ReadSize
  | bytes (x : ℚ) (h : 1 ≤ x)
  | infinite

namespace ReadSize

def number : ReadSize → RNumber
  | bytes x _ => .finite x
  | infinite => .infinite

/-- The check of `n`. -/
def check : RArg → Option ReadSize
  | .numeric [.finite x] => if h : x < 1 then none else some (bytes x (not_lt.mp h))
  | .numeric [.infinite] => some infinite
  | _ => none

/-- What `C_zu_stream_read` asks for. -/
def want : ReadSize → Nat
  | bytes x _ => ⌊min (max x 1) (64 * 1024 * 1024)⌋₊
  | infinite => 64 * 1024 * 1024

end ReadSize

/-- The check of `timeout`. -/
def RArg.timeoutOk : RArg → Bool
  | .null => true
  | .numeric [.finite x] => 0 < x
  | .numeric [.infinite] => true
  | _ => false

/-- A raw vector, of at most `R_XLEN_T_MAX` bytes. -/
def RawVector := {v : Bytes // v.length ≤ 2 ^ 52}

namespace RawVector

def empty : RawVector := ⟨[], by decide⟩

/-- `from:to`, where `to` is not less. -/
def colon (first last : ℚ) : List ℚ :=
  let r := Double.round (last - first)
  let n := ⌊Double.round (Double.round (r + 1) + 1 / 2 ^ 23)⌋₊
  (List.range n).map (fun i : Nat => Double.round (first + i))

/-- `v[ix]` for positive indices, which are truncated. Past the end there are zeros. -/
def elements (v : Bytes) (ix : List ℚ) : Bytes :=
  ix.filterMap (fun x => if ⌊x⌋₊ = 0 then none else some (v.getD (⌊x⌋₊ - 1) 0))

end RawVector

/-- The environment `read_state`. -/
structure ReadState where
  pos : ℚ := 0
  ended : Bool := false
  aborted : Bool := false

structure PieceResponse (Z : Zlib) where
  stream : Option (OpenBody Z)
  body : Option RawVector
  readState : Option ReadState

inductive ReadError
  | stop (message : String)
  | cancelled (message : String)
  | native (f : Fail)
  deriving DecidableEq

variable {Z : Zlib}

namespace PieceResponse

/-- `resp$body %||% raw()`. -/
def bytes (resp : PieceResponse Z) : Bytes := (resp.body.getD RawVector.empty).1

/-- `min(length(body), st$pos + n)`. -/
def upTo (length : Nat) (pos : ℚ) : ReadSize → ℚ
  | .bytes x _ => min length (Double.round (pos + x))
  | .infinite => length

/-- The piece of the held body, and the state after it. -/
def serve (body : Bytes) (st : ReadState) (n : ReadSize) : Bytes × ReadState :=
  let first := Double.round (st.pos + 1)
  let last := upTo body.length st.pos n
  if first > last then ([], { st with ended := true })
  else (RawVector.elements body (RawVector.colon first last), { st with pos := last })

/-- `zu_resp_read`. -/
def zuRespRead (resp : PieceResponse Z) (n timeout : RArg) :
    Except ReadError Bytes × PieceResponse Z :=
  match ReadSize.check n with
  | none => (.error (.stop "`n` must be a number of bytes, at least 1"), resp)
  | some size =>
    if !timeout.timeoutOk then
      (.error (.stop "`timeout` must be a positive number of seconds, or NULL"), resp)
    else
      match resp.stream with
      | some b =>
        let (b, piece) := b.read size.want
        (piece.mapError .native, { resp with stream := some b })
      | none =>
        match resp.readState with
        | none =>
          (.error (.stop ("this response was not requested with `stream = TRUE`; " ++
            "use zu_resp_raw() for its body")), resp)
        | some st =>
          if st.aborted then (.error (.cancelled "the response body was aborted"), resp)
          else
            let (piece, st) := serve resp.bytes st size
            (.ok piece, { resp with readState := some st })

/-- `zu_resp_abort`. -/
def zuRespAbort (resp : PieceResponse Z) : PieceResponse Z :=
  match resp.stream, resp.readState with
  | some b, _ => { resp with stream := some b.abort }
  | none, some st =>
    if st.pos < resp.bytes.length then
      { resp with readState := some { st with aborted := true } }
    else resp
  | none, none => resp

/-- Reads of these sizes, one after the other. -/
def reads (resp : PieceResponse Z) : List ReadSize → List (Except ReadError Bytes)
  | [] => []
  | n :: ns =>
    let (piece, resp) := resp.zuRespRead (.numeric [n.number]) .null
    piece :: resp.reads ns

/-- A body that was asked for in pieces and that the transport did not stream. -/
def held (body : Option RawVector) : PieceResponse Z := ⟨none, body, some {}⟩

/-- A streamed body. -/
def streamed (b : OpenBody Z) : PieceResponse Z := ⟨some b, none, none⟩

end PieceResponse

end Zuhttp
