import Zuhttp.Chunked
import Zuhttp.Framing

/-!
# What a framed stream says

The reference: the body is read from the stream as a whole, without buffers. A chunk size
has at most 16 digits and an extension is opaque, as in the source's grammar.
-/

namespace Zuhttp

open Phr

namespace Dechunk

def isHexDigit (c : UInt8) : Bool := (decodeHex c).isSome

def hexValue (digits : Bytes) : Nat :=
  digits.foldl (fun v c => v * 16 + (decodeHex c).getD 0) 0

/-- Nothing, or a blank or a semicolon and then anything but a line feed. -/
def ValidExt (ext : Bytes) : Prop :=
  (∀ c ∈ ext.head?, c = 32 ∨ c = 9 ∨ c = 59) ∧ (10 : UInt8) ∉ ext

instance (ext : Bytes) : Decidable (ValidExt ext) := inferInstanceAs (Decidable (_ ∧ _))

/-- A chunk-size line: the size and what follows the line. -/
def sizeLine (s : Bytes) : Option (Nat × Bytes) :=
  let digits := s.takeWhile isHexDigit
  let behind := s.dropWhile isHexDigit
  if digits = [] ∨ 16 < digits.length ∨ ¬ValidExt (behind.takeWhile (· ≠ 13)) then none
  else
    match behind.dropWhile (· ≠ 13) with
    | 13 :: 10 :: rest => some (hexValue digits, rest)
    | _ => none

/-- The data of the longest well-formed beginning, and what follows the last chunk. -/
def dechunkN : Nat → Bytes → Bytes × Option Bytes
  | 0, _ => ([], none)
  | n + 1, s =>
    match sizeLine s with
    | none => ([], none)
    | some (size, rest) =>
      if size = 0 then ([], some rest)
      else
        let data := rest.take size
        match rest.drop size with
        | 13 :: 10 :: rest => (data ++ (dechunkN n rest).1, (dechunkN n rest).2)
        | _ => (data, none)

def dechunk (s : Bytes) : Bytes × Option Bytes := dechunkN (s.length + 1) s

/-- The trailer fields of the section, and what follows it. -/
def trailersOf (block : Bytes) : Option (Headers × Bytes) :=
  match parseHeaders true Chunked.maxHeaderCount block with
  | .ok fields rest =>
    match Chunked.addTrailers Headers.init fields with
    | (h, none) => some (h, rest)
    | (_, some _) => none
  | _ => none

end Dechunk

open Dechunk

/-- The body as far as the stream has it. -/
def referenceBody (fr : Framing) (stream : Bytes) : Bytes :=
  match fr.kind with
  | .none => []
  | .length => stream.take fr.length
  | .chunked => (dechunk stream).1
  | .untilClose => stream

/-- The stream is a whole body as the framing declares it, its trailers, and `after`. -/
def Framed (fr : Framing) (stream body : Bytes) (trailers : Headers) (after : Bytes) : Prop :=
  match fr.kind with
  | .none => body = [] ∧ after = stream ∧ trailers = Headers.init
  | .length => stream = body ++ after ∧ body.length = fr.length ∧ trailers = Headers.init
  | .chunked => ∃ rest, dechunk stream = (body, some rest) ∧
      trailersOf rest = some (trailers, after)
  | .untilClose => body = stream ∧ after = [] ∧ trailers = Headers.init

end Zuhttp
