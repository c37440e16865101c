import Zuhttp.Framing

/-!
# Streaming decompression

`zuh_inflate.c`. zlib is a parameter: an inflater state, and one call of `inflate` as a
function of the state, the input and the room for output. The counters are unbounded here.
-/

namespace Zuhttp

inductive Wrapper
  | gzip | zlib | raw
  deriving DecidableEq, Repr

inductive ZRet
  | ok | streamEnd | bufError | dataError
  deriving DecidableEq, Repr

structure ZResult (State : Type) where
  state : State
  consumed : Nat
  produced : Bytes
  ret : ZRet

/-- zlib's inflater. `work` bounds the calls it takes until the input is used up and the
output it owes is out. -/
structure Zlib where
  State : Type
  init : Wrapper → Option State
  reset : State → Option State
  inflate : State → Bytes → Nat → ZResult State
  work : State → Bytes → Nat

namespace Zlib

variable (Z : Zlib)

/-- The states after the bytes of one compressed stream have been taken. -/
inductive Fed : Wrapper → Bytes → Z.State → Prop
  | init {w s} (h : Z.init w = some s) : Fed w [] s
  | reset {w m s s'} (h : Fed w m s) (hr : Z.reset s = some s') : Fed w [] s'
  | step {w m s} (h : Fed w m s) (input : Bytes) (window : Nat) :
      Fed w (m ++ input.take (Z.inflate s input window).consumed)
        (Z.inflate s input window).state

/-- What zlib documents of `inflate`: it reports the end of the stream at the end of a
complete stream only, which is never shorter than two bytes, and a call that reports no
error stops when the input is used up or the output is full. -/
structure Lawful (Complete : Wrapper → Bytes → Prop) : Prop where
  streamEnd : ∀ {w m s} (_ : Z.Fed w m s) (input : Bytes) (window : Nat),
    (Z.inflate s input window).ret = .streamEnd →
      Complete w (m ++ input.take (Z.inflate s input window).consumed)
  drains : ∀ (s : Z.State) (input : Bytes) (window : Nat), 0 < window →
    (Z.inflate s input window).ret = .ok ∨ (Z.inflate s input window).ret = .bufError →
      (Z.inflate s input window).consumed = input.length ∨
        (Z.inflate s input window).produced.length = window
  consumed_le : ∀ (s : Z.State) (input : Bytes) (window : Nat),
    (Z.inflate s input window).consumed ≤ input.length
  two_le : ∀ {w m}, Complete w m → 2 ≤ m.length

/-- An inflater that knows one compressed stream and the body it stands for. Its state is
what it has yet to take and to give. -/
def knowing (stream body : Bytes) : Zlib where
  State := Bytes × Bytes
  init _ := some (stream, body)
  reset _ := some (stream, body)
  inflate s input window :=
    let got := input.take s.1.length
    if got.isPrefixOf s.1 then
      let left := s.1.drop got.length
      if left ≠ [] then ⟨(left, s.2), got.length, [], .ok⟩
      else if s.2.length ≤ window then ⟨([], []), got.length, s.2, .streamEnd⟩
      else ⟨([], s.2.drop window), got.length, s.2.take window, .ok⟩
    else ⟨s, 0, [], .dataError⟩
  work _ input := (input.length + 1) * (body.length + 2)

end Zlib

inductive Encoding
  | identity | gzip | deflate | unsupported
  deriving DecidableEq, Repr

/-- `zuh_encoding_parse`. -/
def encodingParse (ce : Option Bytes) : Encoding :=
  match ce with
  | none => .identity
  | some ce =>
    let s := trimOws ce
    if s = [] then .identity
    else if asciiNcasecmp s (ascii "identity") = 0 then .identity
    else if asciiNcasecmp s (ascii "gzip") = 0 then .gzip
    else if asciiNcasecmp s (ascii "x-gzip") = 0 then .gzip
    else if asciiNcasecmp s (ascii "deflate") = 0 then .deflate
    else .unsupported

variable {Z : Zlib}

/-- `zuh_inflate` of a compressed body. Deflate has no zlib state until its first two bytes
are in. -/
structure Inflate (Z : Zlib) where
  enc : Encoding
  strm : Option Z.State
  hdr : Bytes
  finished : Bool
  inTotal : Nat
  outTotal : Nat
  maxOut : Nat
  maxRatio : Nat

inductive InflateResult
  | ok
  | wouldblock
  | fail (f : Fail)

namespace Inflate

def init (enc : Encoding) (maxOut maxRatio : Nat) : Option (Inflate Z) :=
  let z : Inflate Z :=
    { enc := enc, strm := none, hdr := [], finished := false, inTotal := 0, outTotal := 0,
      maxOut := maxOut, maxRatio := maxRatio }
  match enc with
  | .gzip => (Z.init .gzip).map (fun s => { z with strm := some s })
  | .deflate => some z
  | _ => none

def looksZlibWrapped (hdr : Bytes) : Bool :=
  match hdr with
  | [a, b] => a.toNat % 16 = 8 ∧ (a.toNat * 256 + b.toNat) % 31 = 0
  | _ => false

/-- What follows the end of a stream: the next gzip member, or an error. -/
def nextMember (z : Inflate Z) : Except Fail (Inflate Z) :=
  let fail : Except Fail (Inflate Z) :=
    .error (Fail.set .bodyDecode .decode "data after the end of the compressed stream")
  match z.enc, z.strm with
  | .gzip, some s =>
    match Z.reset s with
    | some s => .ok { z with strm := some s, finished := false }
    | none => fail
  | _, _ => fail

def remainingAllowance (z : Inflate Z) : Nat :=
  let room := u64Max
  let room := if z.maxOut ≠ 0 then min room (z.maxOut - z.outTotal) else room
  if z.maxRatio ≠ 0 ∧ z.inTotal ≥ 32 ∧ z.inTotal ≤ u64Max / z.maxRatio then
    min room (z.inTotal * z.maxRatio - z.outTotal)
  else room

def outWindow (z : Inflate Z) : Nat :=
  if z.remainingAllowance ≥ 16384 then 16384 else z.remainingAllowance + 1

def overLimit : Fail :=
  Fail.set .bodyLimit .decode "decompressed body exceeds the configured limit"

def checkLimits (z : Inflate Z) : Option Fail :=
  if z.maxOut ≠ 0 ∧ z.outTotal > z.maxOut then some overLimit
  else if z.maxRatio ≠ 0 ∧ z.inTotal ≥ 32 ∧ z.outTotal / z.inTotal > z.maxRatio then
    some (Fail.set .bodyLimit .decode
      ("decompression ratio " ++ toString (z.outTotal / z.inTotal) ++ ":1 exceeds the limit of "
        ++ toString z.maxRatio ++ ":1"))
  else none

/-- `deliver` of `zuh_inflate.c`, which is called for some output only: what of it reaches
the caller. -/
def deliver (z : Inflate Z) (produced : Bytes) : Inflate Z × Bytes × Option Fail :=
  let allow := z.remainingAllowance
  if produced = [] then (z, [], none)
  else if produced.length > allow then
    let z := { z with outTotal := z.outTotal + allow }
    let f :=
      match z.checkLimits with
      | some f => f
      | none =>
        if z.maxOut ≠ 0 ∧ z.outTotal ≥ z.maxOut then overLimit
        else Fail.set .bodyLimit .decode
          ("decompression ratio exceeds the limit of " ++ toString z.maxRatio ++ ":1")
    (z, produced.take allow, some f)
  else
    let z := { z with outTotal := z.outTotal + produced.length }
    (z, produced, z.checkLimits)

def malformed : Fail := Fail.set .bodyDecode .decode "malformed compressed data"

/-- What one pass of a decoding loop leads to. -/
inductive Pass (Z : Zlib)
  | again (z : Inflate Z) (input : Bytes) (out : Bytes)
  | stop (z : Inflate Z) (out : Bytes) (r : InflateResult)

/-- One pass of the main loop of `zuh_inflate_run`. -/
def pass (z : Inflate Z) (s : Z.State) (input out : Bytes) : Pass Z :=
  let r := Z.inflate s input z.outWindow
  let z := { z with strm := some r.state }
  if r.ret = .dataError then .stop z out (.fail malformed)
  else
    match z.deliver r.produced with
    | (z, delivered, some f) => .stop z (out ++ delivered) (.fail f)
    | (z, delivered, none) =>
      let out := out ++ delivered
      let input := input.drop r.consumed
      if r.ret = .streamEnd then
        let z := { z with finished := true }
        if input = [] then .stop z out .ok
        else
          match z.nextMember with
          | .error f => .stop z out (.fail f)
          | .ok z => .again z input out
      else if input = [] ∧ r.produced = [] then .stop z out .wouldblock
      else if r.produced = [] ∧ r.ret = .bufError then .stop z out .wouldblock
      else .again z input out

/-- The main loop. `Zlib.work` passes are enough; the cut-off is never reached. -/
def passes : Nat → Inflate Z → Bytes → Bytes → Inflate Z × Bytes × InflateResult
  | 0, z, _, out => (z, out, .fail (Fail.bare .bodyDecode))
  | n + 1, z, input, out =>
    match z.strm with
    | none => (z, out, .fail (Fail.bare .bodyDecode))
    | some s =>
      match z.pass s input out with
      | .stop z out r => (z, out, r)
      | .again z input out => passes n z input out

def mainLoop (z : Inflate Z) (input out : Bytes) : Inflate Z × Bytes × InflateResult :=
  let fuel := z.strm.elim 0 (fun s => Z.work s input) + 1
  passes fuel { z with inTotal := z.inTotal + input.length } input out

/-- What one pass over the held-back bytes of a deflate body leads to. -/
inductive HeadPass (Z : Zlib)
  | again (z : Inflate Z) (head : Bytes) (out : Bytes)
  | headOver (z : Inflate Z) (out : Bytes)
  | stop (z : Inflate Z) (out : Bytes) (r : InflateResult)

/-- One pass of the loop over the held-back bytes, `rest` being the input behind them. -/
def headPass (z : Inflate Z) (s : Z.State) (head out rest : Bytes) : HeadPass Z :=
  let r := Z.inflate s head z.outWindow
  let z := { z with strm := some r.state }
  if r.ret = .dataError then .stop z out (.fail malformed)
  else
    match z.deliver r.produced with
    | (z, delivered, some f) => .stop z (out ++ delivered) (.fail f)
    | (z, delivered, none) =>
      let out := out ++ delivered
      let head := head.drop r.consumed
      if r.ret = .streamEnd then
        let z := { z with finished := true }
        if rest = [] then .stop z out .ok
        else
          match z.nextMember with
          | .error f => .stop z out (.fail f)
          | .ok z => .stop z out .ok
      else if head = [] ∨ r.produced = [] then .headOver z out
      else .again z head out

def headPasses (rest : Bytes) :
    Nat → Inflate Z → Bytes → Bytes → Inflate Z × Bytes × InflateResult
  | 0, z, _, out => (z, out, .fail (Fail.bare .bodyDecode))
  | n + 1, z, head, out =>
    match z.strm with
    | none => (z, out, .fail (Fail.bare .bodyDecode))
    | some s =>
      match z.headPass s head out rest with
      | .stop z out r => (z, out, r)
      | .headOver z out => z.mainLoop rest out
      | .again z head out => headPasses rest n z head out

/-- Input for a decoder that is not at the end of a stream. A deflate body waits for its
first two bytes, which decide its wrapping. -/
def feed (z : Inflate Z) (p : Bytes) : Inflate Z × Bytes × InflateResult :=
  match z.strm with
  | some _ => z.mainLoop p []
  | none =>
    let held := p.take (2 - z.hdr.length)
    let rest := p.drop (2 - z.hdr.length)
    let z := { z with hdr := z.hdr ++ held, inTotal := z.inTotal + held.length }
    if z.hdr.length < 2 then (z, [], .wouldblock)
    else
      match Z.init (if looksZlibWrapped z.hdr then .zlib else .raw) with
      | none => (z, [], .fail (Fail.set .bodyDecode .decode "cannot start deflate stream"))
      | some s => headPasses rest (Z.work s z.hdr + 1) { z with strm := some s } z.hdr []

def truncated : Fail :=
  Fail.set .bodyDecode .decode "compressed body ended before the end of its stream"

/-- `zuh_inflate_run`; no input at all asks whether the body may end here. -/
def run (z : Inflate Z) (input : Option Bytes) : Inflate Z × Bytes × InflateResult :=
  match input with
  | none => if z.finished ∨ z.inTotal = 0 then (z, [], .ok) else (z, [], .fail truncated)
  | some p =>
    if z.finished then
      if p = [] then (z, [], .ok)
      else
        match z.nextMember with
        | .error f => (z, [], .fail f)
        | .ok z => z.feed p
    else z.feed p

end Inflate

end Zuhttp
