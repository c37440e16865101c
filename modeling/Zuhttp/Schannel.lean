import Zuhttp.Buffer
import Zuhttp.Transport

/-!
# Reading through Schannel

`decrypt_available` and `sch_read` of `zuh_tls_schannel.c`. `DecryptMessage` is a parameter:
a security context and what it makes of a buffer.
-/

namespace Zuhttp

/-- What `DecryptMessage` answers: the plaintext of the record in front and how many bytes are
behind it, that the record is not complete, that it was a `close_notify`, or an error. -/
inductive Decrypted
  | ok (plain : Bytes) (extra : Nat)
  | incomplete
  | expired
  | failed (detail : String)

structure Sspi (S : Type) where
  decrypt : S → Bytes → Decrypted × S

/-- The limit of both buffers. -/
def schBufferMax : Nat := 4 * 1024 * 1024

/-- `sch_impl`, as far as reading goes. `waited` is the plaintext that was pending at each
read of the inner stream. -/
structure Schannel (S : Type) where
  ctx : S
  enc : Buffer
  dec : Buffer
  peerClosed : Bool := false
  inner : Transport
  waited : List Bytes := []

variable {S : Type}

namespace Schannel

/-- A connection behind its handshake, when nothing arrived with the end of that. -/
def start (ctx : S) (inner : Transport) : Schannel S :=
  { ctx := ctx, enc := Buffer.init schBufferMax, dec := Buffer.init schBufferMax, inner := inner }

/-- `keep_trailing`. -/
def keepTrailing (t : Schannel S) (extra : Nat) : Schannel S :=
  { t with enc := { t.enc with data := t.enc.data.drop (t.enc.data.length - extra) } }

end Schannel

/-- The answers of `decrypt_available`. -/
inductive Avail
  | ok
  | wouldblock
  | closed
  | failed (f : Fail)

/-- The loop of `decrypt_available`; every record takes up bytes, so that the bytes there are
bound its passes. -/
def decryptLoop (sspi : Sspi S) : Nat → Schannel S → Avail × Schannel S
  | 0, t => (.wouldblock, t)
  | k + 1, t =>
    if t.enc.data = [] then (.wouldblock, t)
    else
      match sspi.decrypt t.ctx t.enc.data with
      | (.incomplete, ctx) => (.wouldblock, { t with ctx := ctx })
      | (.expired, ctx) => (.closed, { t with ctx := ctx, enc := t.enc.reset })
      | (.failed detail, ctx) =>
        (.failed (Fail.set .tls .read ("TLS decrypt failed: " ++ detail)), { t with ctx := ctx })
      | (.ok plain extra, ctx) =>
        match t.dec.tryAppend plain with
        | (dec, false) => (.failed (Fail.bare .nomem), { t with ctx := ctx, dec := dec })
        | (dec, true) =>
          if 0 < extra ∧ extra ≤ t.enc.data.length then
            decryptLoop sspi k ({ t with ctx := ctx, dec := dec }.keepTrailing extra)
          else (.ok, { t with ctx := ctx, dec := dec, enc := t.enc.reset })

/-- `decrypt_available`. -/
def decryptAvailable (sspi : Sspi S) (t : Schannel S) : Avail × Schannel S :=
  decryptLoop sspi (t.enc.data.length + 1) t

/-- The read of the inner stream in `sch_read`: how the call ends, or that it goes on. -/
def readInner (t : Schannel S) : Option (Except Fail Bytes) × Schannel S :=
  let t := { t with waited := t.waited ++ [t.dec.data] }
  match t.inner.read with
  | (.error f, inner) => (some (.error f), { t with inner := inner })
  | (.ok chunk, inner) =>
    if chunk = [] then (some (.ok []), { t with inner := inner })
    else
      match t.enc.tryAppend chunk with
      | (enc, true) => (none, { t with inner := inner, enc := enc })
      | (enc, false) =>
        (some (.error (Fail.set .nomem .read "out of memory")),
          { t with inner := inner, enc := enc })

/-- One pass of the loop of `sch_read` of up to `n` bytes. -/
def schPass (sspi : Sspi S) (n : Nat) (t : Schannel S) : Option (Except Fail Bytes) × Schannel S :=
  if t.dec.data ≠ [] then (some (.ok (t.dec.data.take n)), { t with dec := t.dec.consume n })
  else if t.peerClosed then (some (.ok []), t)
  else
    match decryptAvailable sspi t with
    | (.ok, t) => (none, t)
    | (.closed, t) => (none, { t with peerClosed := true })
    | (.failed f, t) => (some (.error f), t)
    | (.wouldblock, t) => readInner t

def schLoop (sspi : Sspi S) (n : Nat) : Nat → Schannel S → Except Fail Bytes × Schannel S
  | 0, t => (.error (Fail.bare .io), t)
  | k + 1, t =>
    match schPass sspi n t with
    | (some r, t) => (r, t)
    | (none, t) => schLoop sspi n k t

/-- `sch_read`; the reads that are left bound its passes. -/
def schRead (sspi : Sspi S) (n : Nat) (t : Schannel S) : Except Fail Bytes × Schannel S :=
  schLoop sspi n (2 * t.inner.reads.length + 3) t

/-- Reads of these sizes, one after the other. -/
def schReads (sspi : Sspi S) : List Nat → Schannel S → List (Except Fail Bytes) × Schannel S
  | [], t => ([], t)
  | n :: ns, t =>
    let (r, t) := schRead sspi n t
    let (rs, t) := schReads sspi ns t
    (r :: rs, t)

end Zuhttp
