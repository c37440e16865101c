import Mathlib.Logic.Function.Basic
import Zuhttp.Host

/-!
# The file sink

The file sink of `zuh_sink.c` over the calls of the C library that it uses, and what
`C_zu_perform` does with it. A stdio stream may keep bytes back until it is flushed; every
call may fail after a part of its work.
-/

namespace Zuhttp

/-- What the files hold; `none` is a name that is free. -/
abbrev Files := Bytes → Option Bytes

namespace Files

def append (fs : Files) (path s : Bytes) : Files :=
  Function.update fs path (some ((fs path).getD [] ++ s))

def move (fs : Files) (old new : Bytes) : Files :=
  Function.update (Function.update fs new (fs old)) old none

end Files

/-- How a call ends: how many bytes reach the disk where it may keep some back or fails, and
what a stream has left after a failure. -/
structure Outcome where
  ok : Bool := true
  landed : Nat := 0
  left : Bytes := []

/-- Outcomes that are used up are successes. `moments` has the files after every call. -/
structure Disk where
  files : Files
  outcomes : List Outcome := []
  moments : List Files := []

abbrev DiskProg := Prog Disk Fail

namespace Disk

/-! ### The underlying calls -/

def outcome : DiskProg Outcome := do
  let d ← get
  match d.outcomes with
  | [] => pure {}
  | o :: outcomes => do
    set { d with outcomes := outcomes }
    pure o

def change (f : Files → Files) : DiskProg Unit :=
  modify (fun d => { d with files := f d.files, moments := d.moments ++ [f d.files] })

inductive Opened
  | created | taken | failed

/-- `open` with `O_CREAT` and `O_EXCL`. -/
def openExcl (path : Bytes) : DiskProg Opened := do
  let d ← get
  if (d.files path).isSome then pure .taken
  else do
    let o ← outcome
    if o.ok then do
      change (fun fs => Function.update fs path (some []))
      pure .created
    else pure .failed

/-- `fwrite` to a stream that holds `pending` back. -/
def fwrite (path pending d : Bytes) : DiskProg (Bool × Bytes) := do
  let o ← outcome
  change (fun fs => fs.append path ((pending ++ d).take o.landed))
  pure (o.ok, if o.ok then (pending ++ d).drop o.landed else o.left)

/-- `fflush`. -/
def fflush (path pending : Bytes) : DiskProg (Bool × Bytes) := do
  let o ← outcome
  change (fun fs => fs.append path (if o.ok then pending else pending.take o.landed))
  pure (o.ok, if o.ok then [] else o.left)

/-- `fclose`. -/
def fclose (path pending : Bytes) : DiskProg Bool := do
  let (ok, _) ← fflush path pending
  pure ok

/-- `rename`, which is atomic. -/
def rename (old new : Bytes) : DiskProg Bool := do
  let o ← outcome
  if o.ok then do
    change (fun fs => fs.move old new)
    pure true
  else pure false

def remove (path : Bytes) : DiskProg Unit := change (fun fs => Function.update fs path none)

end Disk

open Disk

/-! ### The sink -/

/-- `file_ctx`. An open stream has the bytes that it keeps back. -/
structure FileCtx where
  fp : Option Bytes
  tmp : Bytes
  final : Bytes
  committed : Bool := false

/-- A stream that is open is closed, whatever `fclose` answers. -/
def closeStream (c : FileCtx) : DiskProg FileCtx :=
  match c.fp with
  | some pending => do
    let _ ← fclose c.tmp pending
    pure { c with fp := none }
  | none => pure c

/-- `file_cleanup`, which is `file_abort` too. -/
def fileCleanup (c : FileCtx) : DiskProg FileCtx := do
  let c ← closeStream c
  if c.committed then pure c
  else do
    remove c.tmp
    pure c

/-- `file_write`. -/
def fileWrite (c : FileCtx) (d : Bytes) : DiskProg (FileCtx × Option Fail) :=
  match c.fp with
  | none => pure (c, some (Fail.set .io .read "download file is not open"))
  | some pending => do
    let (ok, pending) ← fwrite c.tmp pending d
    pure ({ c with fp := some pending },
      if ok then none else some (Fail.set .io .read ("short write to " ++ text c.tmp)))

/-- `file_finish`. -/
def fileFinish (c : FileCtx) : DiskProg (FileCtx × Option Fail) :=
  match c.fp with
  | none => pure (c, none)
  | some pending => do
    let (flushed, pending) ← fflush c.tmp pending
    let closed ← fclose c.tmp pending
    if flushed && closed then do
      if ← rename c.tmp c.final then pure ({ c with fp := none, committed := true }, none)
      else pure ({ c with fp := none }, some (Fail.set .io .read
        ("could not move the download into place at " ++ text c.final)))
    else pure ({ c with fp := none }, some (Fail.set .io .read
      ("could not flush " ++ text c.tmp)))

/-- The name of a temporary file; the first attempt has no number. -/
def tmpName (path : Bytes) (pid : Int) (attempt : Nat) : Bytes :=
  path ++ ascii (".zudl" ++ toString pid ++ if attempt = 0 then "" else "." ++ toString attempt)

/-- The loop over the names of a temporary file. -/
def createTmp (path : Bytes) (pid : Int) : Nat → Nat → DiskProg (Option Bytes)
  | 0, _ => pure none
  | left + 1, attempt => do
    match ← openExcl (tmpName path pid attempt) with
    | .created => pure (some (tmpName path pid attempt))
    | .taken => createTmp path pid left (attempt + 1)
    | .failed => pure none

def cannotCreate (path : Bytes) : Fail :=
  Fail.set .io .none ("cannot create a temporary file beside " ++ text path)

/-- `zuh_sink_file`. Its allocations have one outcome. -/
def sinkFile (path : Bytes) (pid : Int) : DiskProg FileCtx :=
  if path = [] then throw (Fail.set .io .none "empty download path")
  else do
    let memory ← outcome
    if memory.ok then do
      match ← createTmp path pid 100 0 with
      | none => throw (cannotCreate path)
      | some tmp => do
        let stream ← outcome
        if stream.ok then pure { fp := some [], tmp := tmp, final := path }
        else do
          remove tmp
          throw (cannotCreate path)
    else throw (Fail.set .nomem .none "out of memory")

/-! ### The caller -/

/-- The pieces of a body one after the other, and whether every write succeeded.
`zuh_sink_write` leaves an empty piece out. -/
def writeFile : List Bytes → FileCtx → DiskProg (FileCtx × Bool)
  | [], c => pure (c, true)
  | d :: ds, c =>
    if d = [] then writeFile ds c
    else do
      let (c, f) ← fileWrite c d
      let (c, ok) ← writeFile ds c
      pure (c, f.isNone && ok)

/-- The end of a body that arrived whole, or of one that did not. -/
def endFile (c : FileCtx) (whole : Bool) : DiskProg (FileCtx × Bool) :=
  if whole then do
    let (c, f) ← fileFinish c
    pure (c, f.isNone)
  else do
    let c ← fileCleanup c
    pure (c, false)

def abortTimes : Nat → FileCtx → DiskProg FileCtx
  | 0, c => pure c
  | n + 1, c => do
    let c ← fileCleanup c
    abortTimes n c

/-- A download in `C_zu_perform`: the sink is finished only where every write succeeded and
the request did (`wanted`), else aborted; it may be aborted again (`aborts`) and is freed.
Whether it was committed. -/
def download (path : Bytes) (pid : Int) (ds : List Bytes) (wanted : Bool) (aborts : Nat) :
    DiskProg Bool := do
  let c ← sinkFile path pid
  let (c, ok) ← writeFile ds c
  let (c, done) ← endFile c (ok && wanted)
  let c ← abortTimes aborts c
  let _ ← fileCleanup c
  pure done

end Zuhttp
