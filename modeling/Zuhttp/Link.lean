import Zuhttp.H2
import Zuhttp.Library.Run

/-!
# One HTTP/2 connection over its life

The calls the engine and the pool make on a connection: requests, steps of their bodies,
aborts, and the pool's probes in between. `lost` is a connection that was closed instead of
pooled.
-/

namespace Zuhttp

inductive LinkPhase
  | fresh | reading | refused | pooled | lost
  deriving DecidableEq, Repr

structure Link where
  conn : H2
  phase : LinkPhase

inductive LinkAct (Z : Zlib)
  | begin (rq : H2Request) (hdrs : Headers)
  | step (pipe : BodyPipe Z)
  | cancel
  | ping
  | probe

variable {Z : Zlib}

namespace Link

/-- The connection goes back to the pool when `zuh_h2_reusable` allows it. -/
def release (h : H2) : Link := ⟨h, if h.reusable then .pooled else .lost⟩

/-- A request: the connection is dropped when no response comes. -/
def begin (h : H2) (rq : H2Request) (hdrs : Headers) : Link :=
  match h.begin rq hdrs with
  | (h, .ok _) => ⟨h, .reading⟩
  | (h, .error _) => ⟨h, .lost⟩

/-- A step of the body into a pipe. A body that failed can still be aborted, as it is when
its sink asked to stop. -/
def bodyStep (h : H2) (p : BodyPipe Z) : Link :=
  match H2.bodyStep ⟨h, p, false⟩ with
  | (st, some _) => ⟨st.conn, .refused⟩
  | (st, none) => if st.done then release st.conn else ⟨st.conn, .reading⟩

/-- One pass of `zuh_h2_ping`. -/
def ping (h : H2) : Link :=
  if h.failed ∨ h.goaway then ⟨h, .lost⟩
  else
    match h.pump with
    | (h, some _) => ⟨h, .lost⟩
    | (h, none) => ⟨h, if h.goaway then .lost else .pooled⟩

/-- One pass of `h2_readable` with bytes waiting. -/
def probe (h : H2) : Link :=
  if h.failed ∨ h.goaway then ⟨h, .lost⟩
  else
    match h.pump with
    | (h, some _) => ⟨h, .lost⟩
    | (h, none) =>
      if h.goaway then ⟨h, .lost⟩
      else
        match h.flush with
        | (h, some _) => ⟨h, .lost⟩
        | (h, none) =>
          if h.allowed then ⟨h, .pooled⟩ else ⟨{ h with failed := true }, .lost⟩

def step (l : Link) (a : LinkAct Z) : Option Link :=
  match a with
  | .begin rq hdrs =>
    if l.phase = .fresh ∨ l.phase = .pooled then some (begin l.conn rq hdrs) else none
  | .step pipe => if l.phase = .reading then some (bodyStep l.conn pipe) else none
  | .cancel =>
    if l.phase = .reading ∨ l.phase = .refused then some (release l.conn.cancel) else none
  | .ping => if l.phase = .pooled then some (ping l.conn) else none
  | .probe => if l.phase = .pooled then some (probe l.conn) else none

/-- The connection after the calls, unless one of them was not to be made. -/
def run (l : Link) (acts : List (LinkAct Z)) : Option Link := Run.exec step l acts

end Link

end Zuhttp
