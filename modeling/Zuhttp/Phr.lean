import Zuhttp.Headers
import Zuhttp.Library.Ascii
import Zuhttp.Library.Incremental

/-!
# The vendored parser

`picohttpparser.c`: header blocks, response heads and the chunk decoder. Where the source
scans with vector instructions first, the byte loop behind them decides.
-/

namespace Zuhttp

open Incremental Incremental.Parse

namespace Phr

abbrev Result := Parse UInt8

/-- `EXPECT_CHAR`. -/
def expectChar (ch : UInt8) : Bytes → Result Unit
  | [] => incomplete
  | c :: s => if c = ch then ok () s else bad

/-- A byte at which `get_token_to_eol` stops. -/
def isCtl (c : UInt8) : Bool := (c < 32 ∧ c ≠ 9) ∨ c = 127

def getTokenToEol : Bytes → Result Bytes
  | [] => incomplete
  | c :: s =>
    if isCtl c then
      if c = 13 then (expectChar 10 s).map (fun _ => [])
      else if c = 10 then ok [] s
      else bad
    else (getTokenToEol s).map (c :: ·)

def parseToken (nextChar : UInt8) : Bytes → Result Bytes
  | [] => incomplete
  | c :: s =>
    if c = nextChar then ok [] (c :: s)
    else if isTchar c = false then bad
    else (parseToken nextChar s).map (c :: ·)

/-- The blanks between the colon and the value. -/
def skipBlanks : Bytes → Result Unit
  | [] => incomplete
  | c :: s => if isOws c then skipBlanks s else ok () (c :: s)

/-- `phr_header`. A continuation line has no name. -/
structure PhrHeader where
  name : Option Bytes
  value : Bytes
  deriving DecidableEq

/-- The name, the colon and the blanks after it, unless the line continues the last one. -/
def parseName (first : Bool) : Bytes → Result (Option Bytes)
  | [] => incomplete
  | c :: s =>
    if first = false ∧ isOws c then ok none (c :: s)
    else (parseToken 58 (c :: s)).bind (fun name rest =>
      if name = [] then bad
      else (expectChar 58 rest).bind (fun _ rest => (skipBlanks rest).map (fun _ => some name)))

def parseLine (first : Bool) (s : Bytes) : Result PhrHeader :=
  (parseName first s).bind (fun name rest =>
    (getTokenToEol rest).map (fun value => ⟨name, value.rdropWhile isOws⟩))

/-- `parse_headers`, with the number of fields there is still room for. -/
def parseHeaders (first : Bool) : Nat → Bytes → Result (List PhrHeader)
  | _, [] => incomplete
  | room, c :: s =>
    if c = 13 then (expectChar 10 s).map (fun _ => [])
    else if c = 10 then ok [] s
    else
      match room with
      | 0 => bad
      | room + 1 =>
        (parseLine first (c :: s)).bind (fun h rest =>
          (parseHeaders false room rest).map (h :: ·))

/-- The loop of `is_complete`, after `count` line ends in a row. -/
def isComplete : Nat → Bytes → Result Unit
  | _, [] => incomplete
  | count, c :: s =>
    if c = 13 then
      match s with
      | [] => incomplete
      | d :: s =>
        if d ≠ 10 then bad
        else if count + 1 = 2 then ok () s
        else isComplete (count + 1) s
    else if c = 10 then
      if count + 1 = 2 then ok () s else isComplete (count + 1) s
    else isComplete 0 s

/-- `PARSE_INT`, before the multiplication. -/
def parseInt : Bytes → Result Nat
  | [] => incomplete
  | c :: s => if Ascii.isDigit c then ok (c.toNat - 48) s else bad

def parseHttpVersion (s : Bytes) : Result Nat :=
  if s.length < 9 then incomplete
  else if s.take 7 ≠ ascii "HTTP/1." then bad
  else parseInt (s.drop 7)

/-- `PARSE_INT_3`, which wants one byte more than the three digits. -/
def parseInt3 (s : Bytes) : Result Nat :=
  if s.length < 4 then incomplete
  else
    (parseInt s).bind (fun a s => (parseInt s).bind (fun b s => (parseInt s).map (fun c =>
      a * 100 + b * 10 + c)))

/-- The blanks in front of the status code, at least one. -/
def skipSpaces : Bytes → Result Unit
  | [] => incomplete
  | c :: s => if c = 32 then skipSpaces s else ok () (c :: s)

/-- What `parse_response` makes of a head. -/
structure PhrResponse where
  minorVersion : Nat
  status : Nat
  msg : Bytes
  headers : List PhrHeader

/-- The text behind the status code, without the blanks in front of it. -/
def parseMessage (s : Bytes) : Result Bytes :=
  (getTokenToEol s).bind (fun msg rest =>
    match msg with
    | [] => ok [] rest
    | c :: _ => if c = 32 then ok (msg.dropWhile (· = 32)) rest else bad)

/-- `parse_response`. -/
def parseHead (maxHeaders : Nat) (s : Bytes) : Result PhrResponse :=
  (parseHttpVersion s).bind (fun minor s =>
    (expectChar 32 s).bind (fun _ s => (skipSpaces s).bind (fun _ s =>
      (parseInt3 s).bind (fun status s => (parseMessage s).bind (fun msg s =>
        (parseHeaders true maxHeaders s).map (fun headers => ⟨minor, status, msg, headers⟩))))))

/-- `phr_parse_response`. -/
def parseResponse (maxHeaders lastLen : Nat) (buf : Bytes) : Result PhrResponse :=
  if lastLen = 0 then parseHead maxHeaders buf
  else (isComplete 0 (buf.drop (lastLen - 3))).bind (fun _ _ => parseHead maxHeaders buf)

end Phr

end Zuhttp
