import Zuhttp.Phr

/-!
# Chunked bodies

`phr_decode_chunked` of `picohttpparser.c`, with `consume_trailer` off, and on top of it
`zuh_chunked_decode` of `zuh_response.c`. The vendored decoder rewrites the buffer it is
given: the decoded bytes move to the front, the unread ones behind them, and what lies
further back keeps its old content.
-/

namespace Zuhttp

open Incremental Incremental.Parse

namespace Phr

def decodeHex (ch : UInt8) : Option Nat := Ascii.hexValue ch

inductive ChunkState
  | inChunkSize | inChunkExt | inChunkHeaderExpectLf | inChunkData
  | inChunkDataExpectCr | inChunkDataExpectLf
  deriving DecidableEq, Repr

/-- Where in a chunk the decoder stands. -/
structure ChunkPos where
  bytesLeftInChunk : Nat := 0
  hexCount : Nat := 0
  state : ChunkState := .inChunkSize
  deriving DecidableEq

/-- `phr_chunked_decoder`. -/
structure ChunkedDecoder extends ChunkPos where
  totalRead : Nat := 0
  totalOverhead : Nat := 0
  deriving DecidableEq

/-- What one byte does: it is taken (and copied or not), it is refused, or it ends the line
of the last chunk. -/
inductive ByteStep
  | take (d : ChunkPos) (copied : List UInt8)
  | refuse
  | last (d : ChunkPos)

def extByte (d : ChunkPos) (c : UInt8) : ByteStep :=
  if c = 13 then .take { d with state := .inChunkHeaderExpectLf } []
  else if c = 10 then .refuse
  else .take { d with state := .inChunkExt } []

def decodeByte (d : ChunkPos) (c : UInt8) : ByteStep :=
  match d.state with
  | .inChunkSize =>
    match decodeHex c with
    | some v =>
      if d.hexCount = 16 then .refuse
      else .take { d with
        bytesLeftInChunk := d.bytesLeftInChunk * 16 + v, hexCount := d.hexCount + 1 } []
    | none =>
      if d.hexCount = 0 then .refuse
      else if c = 32 ∨ c = 9 ∨ c = 59 ∨ c = 10 ∨ c = 13 then extByte { d with hexCount := 0 } c
      else .refuse
  | .inChunkExt => extByte d c
  | .inChunkHeaderExpectLf =>
    if c ≠ 10 then .refuse
    else if d.bytesLeftInChunk = 0 then .last d
    else .take { d with state := .inChunkData } []
  | .inChunkData =>
    -- the source copies the available bytes of the chunk at once
    let left := d.bytesLeftInChunk - 1
    .take { d with
      bytesLeftInChunk := left
      state := if left = 0 then .inChunkDataExpectCr else .inChunkData } [c]
  | .inChunkDataExpectCr =>
    if c ≠ 13 then .refuse else .take { d with state := .inChunkDataExpectLf } []
  | .inChunkDataExpectLf =>
    if c ≠ 10 then .refuse else .take { d with state := .inChunkSize } []

inductive Ending
  | incomplete | malformed | complete
  deriving DecidableEq, Repr

/-- Where the decoding of a buffer stopped: the decoded bytes and the unread ones. -/
structure Decoded where
  pos : ChunkPos
  out : Bytes
  rest : Bytes
  ending : Ending

def Decoded.prepend (copied : Bytes) (r : Decoded) : Decoded := { r with out := copied ++ r.out }

def scan : ChunkPos → Bytes → Decoded
  | d, [] => ⟨d, [], [], .incomplete⟩
  | d, c :: s =>
    match decodeByte d c with
    | .take d' copied => (scan d' s).prepend copied
    | .refuse => ⟨d, [], c :: s, .malformed⟩
    | .last d' => ⟨d', [], s, .complete⟩

/-- The buffer after the decoding of its content. -/
def rewritten (buf : Bytes) (r : Decoded) : Bytes :=
  r.out ++ r.rest ++ buf.drop (r.out.length + r.rest.length)

/-- The guard on streams that are mostly chunk framing. -/
def overheadTrips (d : ChunkedDecoder) : Bool :=
  d.totalOverhead ≥ 100 * 1024 ∧ d.totalRead - d.totalOverhead < d.totalRead / 4

def decodeChunked (d : ChunkedDecoder) (buf : Bytes) : ChunkedDecoder × Decoded :=
  let r := scan d.toChunkPos buf
  let d := { d with toChunkPos := r.pos, totalRead := d.totalRead + buf.length }
  if r.ending = .incomplete then
    let d := { d with totalOverhead := d.totalOverhead + (buf.length - r.out.length) }
    (d, { r with ending := if overheadTrips d then .malformed else .incomplete })
  else (d, r)

end Phr

open Phr

/-- `zuh_chunked`. The trailer section is collected in a buffer of its own. -/
structure Chunked where
  decoder : ChunkedDecoder
  inTrailer : Bool
  tbuf : Bytes
  trailers : Headers
  surplus : Nat
  maxChunk : Nat
  maxTotal : Nat
  total : Nat

inductive ChunkedResult
  | ok
  | wouldblock
  | fail (f : Fail)

namespace Chunked

/-- `ZUH_DEFAULT_MAX_HEADER_BYTES` and `ZUH_DEFAULT_MAX_HEADER_COUNT`. -/
def maxHeaderBytes : Nat := 65536
def maxHeaderCount : Nat := 100

def init (maxChunk maxTotal : Nat) : Chunked :=
  { decoder := {}, inTrailer := false, tbuf := [], trailers := Headers.init, surplus := 0,
    maxChunk := maxChunk, maxTotal := maxTotal, total := 0 }

def trailerTooLong : Fail :=
  Fail.set .parse .read "chunked trailer section exceeds the header size limit"

/-- The trailer fields added one after another, up to the first that is refused. -/
def addTrailers (h : Headers) : List PhrHeader → Headers × Option Fail
  | [] => (h, none)
  | f :: fs =>
    match f.name with
    | none => (h, some (Fail.set .parse .read "obsolete line folding in a trailer"))
    | some name =>
      match h.add name f.value with
      | .ok h => addTrailers h fs
      | .error _ =>
        (h, some (Fail.set .parse .read "chunked trailer field is invalid or over a limit"))

def trailerParse (c : Chunked) : Chunked × ChunkedResult :=
  if c.tbuf.length = 0 then (c, .wouldblock)
  else
    match parseHeaders true maxHeaderCount c.tbuf with
    | .incomplete =>
      if c.tbuf.length ≥ maxHeaderBytes then (c, .fail trailerTooLong) else (c, .wouldblock)
    | .bad => (c, .fail (Fail.set .parse .read "malformed chunked trailer section"))
    | .ok fields rest =>
      match addTrailers c.trailers fields with
      | (h, some f) => ({ c with trailers := h }, .fail f)
      | (h, none) => ({ c with trailers := h, surplus := rest.length }, .ok)

/-- Bytes appended to the trailer buffer, which is limited, and the section parsed. -/
def appendTrailer (c : Chunked) (s : Bytes) : Chunked × ChunkedResult :=
  if c.tbuf.length + s.length > maxHeaderBytes then (c, .fail trailerTooLong)
  else trailerParse { c with tbuf := c.tbuf ++ s }

/-- `zuh_chunked_decode`: the new state, the first `*len` bytes of the buffer, and the
code. -/
def decode (c : Chunked) (buf : Bytes) : Chunked × Bytes × ChunkedResult :=
  if c.inTrailer then
    let (c, rc) := c.appendTrailer buf
    (c, [], rc)
  else
    let (d, r) := decodeChunked c.decoder buf
    let c := { c with decoder := d }
    match r.ending with
    | .malformed =>
      -- the length is left at that of the buffer
      (c, rewritten buf r, .fail (Fail.set .parse .read "malformed chunked encoding"))
    | ending =>
      if c.maxTotal ≠ 0 ∧ r.out.length > c.maxTotal - c.total then
        (c, r.out,
          .fail (Fail.set .bodyLimit .read "response body exceeds the configured limit"))
      else
        let c := { c with total := c.total + r.out.length }
        if c.maxChunk ≠ 0 ∧ c.decoder.bytesLeftInChunk > c.maxChunk then
          (c, r.out,
            .fail (Fail.set .bodyLimit .read "chunk size exceeds the configured limit"))
        else if ending = .complete then
          let (c, rc) := { c with inTrailer := true }.appendTrailer r.rest
          (c, r.out, rc)
        else (c, r.out, .wouldblock)

end Chunked

end Zuhttp
