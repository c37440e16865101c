import Zuhttp.Connect
import Zuhttp.Library.Refines
import Zuhttp.Stream

/-!
# Sockets

`zuh_net.c` over the answers of the system: the waits, with the deadlines of `zuh_time.c`, the
address loop with the descriptors it opens and closes, and the stream over a socket.
-/

namespace Zuhttp

/-! ### Waiting -/

/-- `ZUH_FOREVER`. -/
def forever : Int := 0x7FFFFFFF

/-- `zuh_deadline_remaining`, where the clock reads `now`. -/
def Deadline.remaining (d : Deadline) (now : Int) : Int :=
  match d with
  | none => forever
  | some due => due - now

/-- `zuh_deadline_poll_ms`. -/
def Deadline.pollMs (d : Deadline) (tickMs now : Int) : Int :=
  let tickMs := if tickMs ≤ 0 then 100 else tickMs
  let rem := d.remaining now
  if rem ≤ 0 then 0 else if rem > tickMs then tickMs else rem

/-- `zuh_net_opts`: whether there is a callback between the waits, and how far apart it is
called. -/
structure NetOpts where
  tick : Bool
  tickMs : Int

inductive PollAnswer
  | ready
  | elapsed
  | interrupted
  | failed (errno : Int)
  deriving DecidableEq

/-- What one turn of a wait gets: the callback's answer, the readings of the clock for the
deadline and for the length of the wait, and the answer of `poll`. -/
structure WaitTurn where
  cancel : Bool
  now : Int
  pollNow : Int
  answer : PollAnswer

/-- The result of a wait is `none` while it goes on; `polls` are the times it waited at most. -/
structure WaitRun where
  result : Option (Except Fail Unit)
  polls : List Int

def cancelled : Fail := Fail.set .cancelled .none "operation cancelled"

def deadlineExceeded : Fail := Fail.set .timeout .none "deadline exceeded"

def pollFailed (errno : Int) : Fail :=
  Fail.set .io .none ("poll failed (" ++ toString errno ++ ")")

/-- `wait_ready`. -/
def waitReady (o : NetOpts) (d : Deadline) : List WaitTurn → WaitRun
  | [] => ⟨none, []⟩
  | t :: turns =>
    if o.tick ∧ t.cancel then ⟨some (.error cancelled), []⟩
    else if d.expired t.now then ⟨some (.error deadlineExceeded), []⟩
    else
      let ms := d.pollMs (if o.tickMs > 0 then o.tickMs else 100) t.pollNow
      match t.answer with
      | .ready => ⟨some (.ok ()), [ms]⟩
      | .failed errno => ⟨some (.error (pollFailed errno)), [ms]⟩
      | _ =>
        let run := waitReady o d turns
        ⟨run.result, ms :: run.polls⟩

/-! ### Descriptors -/

/-- The host, and the descriptors of the process: how many were given out, which are open, which
were closed, and how many system calls were made on one that was not open. -/
structure Net where
  host : Host := {}
  sockets : Nat := 0
  live : List Nat := []
  closed : List Nat := []
  stray : Nat := 0

/-- Why a call has not returned a value: it is still waiting, or it returned a code. -/
inductive NetStop
  | waiting
  | rc (code : Code)
  deriving DecidableEq

abbrev NetProg := Prog Net NetStop

namespace Net

variable {α : Type}

/-- A step of the host. -/
def onHost (m : HostProg α) : NetProg α :=
  Prog.lift Net.host (fun h n => { n with host := h }) NetStop.rc m

/-- `socket`; the system gives out a descriptor that is not open. -/
def openSocket : NetProg Nat := do
  let n ← get
  set { n with sockets := n.sockets + 1, live := n.live ++ [n.sockets] }
  pure n.sockets

/-- A system call on a descriptor; `none` is -1. -/
def use (fd : Option Nat) : NetProg Unit :=
  modify (fun n => { n with
    stray := n.stray + if (fd.all (fun fd => n.live.contains fd)) then 0 else 1 })

/-- `zuh_closesocket`. -/
def closeSocket (fd : Nat) : NetProg Unit := do
  use (some fd)
  modify (fun n => { n with live := n.live.erase fd, closed := n.closed ++ [fd] })

/-- `if (err) err->phase = ..` behind a failed wait. -/
def stopped (f : Fail) (phase : Phase) : HostProg α := do
  Host.note f
  modify (fun h => { h with err := h.err.map (fun e => { e with phase := phase }) })
  throw f.rc

/-! ### Connecting -/

inductive ConnectAnswer
  | done
  | pending
  | failed (errno : Int)

/-- What the system answers for one address. `soError` is what `getsockopt` finds, `none` where
it fails. -/
structure Candidate where
  socket : Bool
  nonblocking : Bool
  connect : ConnectAnswer
  turns : List WaitTurn
  soError : Option Int
  peer : Bytes

/-- A wait on a descriptor. -/
def wait (o : NetOpts) (d : Deadline) (fd : Option Nat) (turns : List WaitTurn) :
    NetProg (Except Fail Unit) := do
  let run := waitReady o d turns
  Prog.onlyIf (run.polls ≠ []) (use fd)
  match run.result with
  | none => throw .waiting
  | some r => pure r

/-- An address that took the connection. -/
def accepted (fd : Nat) (peer : Bytes) : NetProg (Nat × Bytes) := do
  onHost (Host.traceAdd .connectDone (some peer) 0)
  pure (fd, peer)

/-- `connect` and what follows for one descriptor; `none` where the next address is tried. -/
def tryConnect (o : NetOpts) (d : Deadline) (host : Bytes) (port : Nat) (c : Candidate)
    (fd : Nat) : NetProg (Option (Nat × Bytes)) := do
  onHost (Host.traceAdd .connectStart (some host) 0)
  use (some fd)
  match c.connect with
  | .done => do
    let s ← accepted fd c.peer
    pure (some s)
  | .failed errno => do
    onHost (Host.setError .connect .connect (refusal true host port errno))
    closeSocket fd
    pure none
  | .pending => do
    match ← wait o d (some fd) c.turns with
    | .ok () => do
      use (some fd)
      if c.soError = some 0 then do
        let s ← accepted fd c.peer
        pure (some s)
      else do
        onHost (Host.setError .connect .connect (refusal false host port (c.soError.getD 0)))
        closeSocket fd
        pure none
    | .error f => do
      closeSocket fd
      onHost (stopped f .connect)

/-- The address loop of `zuh_net_connect`: the descriptor and the peer's address. -/
def connectAll (o : NetOpts) (d : Deadline) (host : Bytes) (port : Nat) (last : Code) :
    List Candidate → NetProg (Nat × Bytes)
  | [] => throw (.rc last)
  | c :: cs =>
    if c.socket = false then connectAll o d host port last cs
    else do
      let fd ← openSocket
      if c.nonblocking = false then do
        closeSocket fd
        connectAll o d host port last cs
      else do
        match ← tryConnect o d host port c fd with
        | some s => pure s
        | none => connectAll o d host port .connect cs

/-- What name resolution gives. -/
inductive Lookup
  | noStack
  | unresolved
  | addresses (cs : List Candidate)

/-- The stream over a socket; the descriptor is `none` once it is closed. -/
structure Socket where
  fd : Option Nat
  opts : NetOpts
  peer : Bytes

/-- `zuh_net_connect`. -/
def connect (o : NetOpts) (d : Deadline) (host : Bytes) (port : Nat) (l : Lookup) :
    NetProg Socket :=
  match l with
  | .noStack => onHost (Host.refuse .io .connect "network stack unavailable")
  | .unresolved => onHost (do
      Host.traceAdd .dnsStart (some host) 0
      Host.refuse .dns .dns ("cannot resolve '" ++ text host ++ "'"))
  | .addresses cs => do
    onHost (do
      Host.traceAdd .dnsStart (some host) 0
      Host.traceAdd .dnsDone (some host) 0
      Host.allocate)
    let (fd, peer) ← connectAll o d host port .connect cs
    pure ⟨some fd, o, peer⟩

/-! ### The stream over a socket -/

/-- The answer of `recv` or `send`. -/
inductive IoAnswer (α : Type)
  | done (a : α)
  | interrupted
  | wouldBlock (turns : List WaitTurn)
  | failed (errno : Int)

/-- The loop of `net_read` and `net_write`. -/
def io (phase : Phase) (what : String) (d : Deadline) (s : Socket) :
    List (IoAnswer α) → NetProg α
  | [] => throw .waiting
  | a :: as => do
    use s.fd
    match a with
    | .done a => pure a
    | .interrupted => io phase what d s as
    | .failed errno =>
      onHost (Host.refuse .io phase (what ++ " failed (" ++ toString errno ++ ")"))
    | .wouldBlock turns => do
      match ← wait s.opts d s.fd turns with
      | .ok () => io phase what d s as
      | .error f => onHost (stopped f phase)

/-- `net_read`. No bytes is the end of the stream. -/
def read (d : Deadline) (s : Socket) (answers : List (IoAnswer Bytes)) : NetProg Bytes :=
  io .read "read" d s answers

/-- `net_write`: how many of the bytes were taken. -/
def write (d : Deadline) (s : Socket) (answers : List (IoAnswer Nat)) : NetProg Nat :=
  io .write "write" d s answers

/-- The loop of `net_readable`. -/
def probe (fd : Nat) : List PollAnswer → NetProg Int
  | [] => throw .waiting
  | a :: as => do
    use (some fd)
    match a with
    | .ready => pure 1
    | .elapsed => pure 0
    | .failed _ => pure (-1)
    | .interrupted => probe fd as

/-- `net_readable`: a closed stream counts as readable. -/
def readable (s : Socket) (answers : List PollAnswer) : NetProg Int :=
  match s.fd with
  | none => pure 1
  | some fd => probe fd answers

/-- `net_close`. -/
def close (s : Socket) : NetProg Socket :=
  match s.fd with
  | none => pure s
  | some fd => do
    closeSocket fd
    pure { s with fd := none }

/-- `net_destroy`. -/
def destroy (s : Socket) : NetProg Unit := do
  let _ ← close s

/-- What the owner of a stream does with it. -/
inductive SocketOp
  | read (d : Deadline) (answers : List (IoAnswer Bytes))
  | write (d : Deadline) (answers : List (IoAnswer Nat))
  | readable (answers : List PollAnswer)
  | close

/-- What the owner gets is a value or a code; a call that still waits has not returned. -/
def returned (r : Except NetStop α) : NetProg Unit :=
  match r with
  | .error .waiting => throw .waiting
  | _ => pure ()

/-- One operation, whatever it returns. -/
def SocketOp.run (s : Socket) : SocketOp → NetProg Socket
  | .read d answers => do
    returned (← (Prog.attempt (Net.read d s answers) : NetProg (Except NetStop Bytes)))
    pure s
  | .write d answers => do
    returned (← (Prog.attempt (Net.write d s answers) : NetProg (Except NetStop Nat)))
    pure s
  | .readable answers => do
    returned (← (Prog.attempt (Net.readable s answers) : NetProg (Except NetStop Int)))
    pure s
  | .close => Net.close s

/-! ### A process with sockets -/

/-- The descriptors, and the streams that were opened and not destroyed. -/
structure Process where
  net : Net := {}
  held : List Socket := []

inductive SocketCall
  | connect (o : NetOpts) (d : Deadline) (host : Bytes) (port : Nat) (l : Lookup)
  | op (i : Nat) (op : SocketOp)
  | destroy (i : Nat)

namespace Process

/-- What a call that returned leaves; `none` where it still waits. -/
def after (p : Process) (ran : Except NetStop α × Net) (held : α → List Socket) : Option Process :=
  match ran with
  | (.ok a, n) => some ⟨n, held a⟩
  | (.error (.rc _), n) => some ⟨n, p.held⟩
  | (.error .waiting, _) => none

/-- A call; one on a stream that is not there does nothing. -/
def step (p : Process) : SocketCall → Option Process
  | .connect o d host port l =>
    p.after (Prog.exec (Net.connect o d host port l) p.net) (fun s => p.held ++ [s])
  | .op i op =>
    match p.held[i]? with
    | none => some p
    | some s => p.after (Prog.exec (op.run s) p.net) (fun s => p.held.set i s)
  | .destroy i =>
    match p.held[i]? with
    | none => some p
    | some s => p.after (Prog.exec (Net.destroy s) p.net) (fun _ => p.held.eraseIdx i)

/-- Calls one after the other. -/
def run (p : Process) (calls : List SocketCall) : Option Process := calls.foldlM step p

end Process

end Net

end Zuhttp
