import Zuhttp.H2

/-!
# What the HTTP/2 driver does to the transport

The driver with a log of its flushes, its reads and what it tells nghttp2. The state a read
is made in is part of the log.
-/

namespace Zuhttp

/-- A flush with the streams it closed, input or a request or window given to nghttp2, and a
read of the transport in a state of the driver. -/
inductive H2Act
  | flush (closes : List (Nat × Nat))
  | input
  | submit
  | consume
  | read (h : H2)

namespace H2

/-- A call of the driver and its log. -/
abbrev Logged := (H2 × Option Fail) × List H2Act

/-- One call and, unless it fails, another. -/
def Logged.andThen (r : Logged) (next : H2 → Logged) : Logged :=
  match r with
  | ((h, some f), acts) => ((h, some f), acts)
  | ((h, none), acts) => ((next h).1, acts ++ (next h).2)

def flushLogged (h : H2) : Logged :=
  (h.flush, [.flush ((h.env.flushes.head?.map FlushAnswer.closes).getD [])])

/-- The middle of `pump`; a session that wants no more input is not read for. -/
def recvLogged (h : H2) : Logged :=
  match h.env.reads with
  | [] => (h.fail closedByServer, [.read h])
  | .finished :: _ => (h.recv, [])
  | .fail f :: reads => ({ h with env.reads := reads }.fail f, [.read h])
  | .wouldblock :: reads => (({ h with env.reads := reads }, none), [.read h])
  | .frames events failure allowed :: reads =>
    let (t, bad) := { h with env.reads := reads }.hear events
    let t := { t with allowed := allowed }
    match (if bad then some (Fail.bare .nomem) else failure) with
    | some f => (t.fail (t.cbFail.getD f), [.read h, .input])
    | none => (t.flushLogged.1, [.read h, .input] ++ t.flushLogged.2)

def pumpLogged (h : H2) : Logged := h.flushLogged.andThen recvLogged

def pumpStreamLogged (h : H2) : Logged :=
  h.flushLogged.andThen (fun h => if h.closed then ((h, none), []) else h.pumpLogged)

def beginStepLogged (h : H2) : Logged :=
  if h.closed then (h.beginStep, []) else h.pumpStreamLogged

/-- `zuh_h2_begin`. -/
def beginLogged (h : H2) (rq : H2Request) (hdrs : Headers) :
    (H2 × Except Fail H2Response) × List H2Act :=
  if h.failed ∨ ¬h.allowed ∨ badTe rq then (h.begin rq hdrs, [])
  else
    let t := h.freshStream hdrs
    let t := { t with submitted := t.submitted ++ [block rq] }
    match t.env.submits with
    | .ok sid :: submits =>
      let t := { t with env.submits := submits, sid := sid }
      let r := Loop.logged beginStepLogged H2.headersDone (2 * t.env.reads.length + 2) t
      let answer : Except Fail H2Response :=
        match r.1.2 with
        | some f => .error f
        | none => .ok ⟨r.1.1.status, r.1.1.hdrs.getD Headers.init, r.1.1.endedOnHeaders⟩
      (({ r.1.1 with hdrs := none }, answer), .submit :: r.2)
    | _ => (h.begin rq hdrs, [.submit])

variable {Z : Zlib}

/-- `zuh_h2_body_step` after its read. -/
def endStepLogged (h : H2) (p : BodyPipe Z) : (BodyState Z × Option Fail) × List H2Act :=
  let granted : List H2Act := if h.data = [] then [] else [.consume]
  match h.deliver p with
  | (t, q, some f) => ((⟨t, q, false⟩, some f), granted)
  | (t, q, none) =>
    if ¬t.closed ∨ t.data ≠ [] then ((⟨t, q, false⟩, none), granted)
    else
      match t.streamOutcome with
      | (t, some f) => ((⟨t, q, false⟩, some f), granted)
      | (t, none) =>
        match q.finish with
        | (q, some f) => ((⟨t, q, false⟩, some f), granted)
        | (q, none) =>
          let last := { t with trailers := Headers.init }.flushLogged
          ((⟨last.1.1, { q with trailers := t.trailers }, true⟩, none), granted ++ last.2)

def bodyStepLogged (st : BodyState Z) : (BodyState Z × Option Fail) × List H2Act :=
  if st.conn.data = [] ∧ ¬st.conn.closed then
    match st.conn.pumpStreamLogged with
    | ((h, some f), acts) => ((⟨h, st.pipe, false⟩, some f), acts)
    | ((h, none), acts) =>
      let r := endStepLogged h st.pipe
      (r.1, acts ++ r.2)
  else endStepLogged st.conn st.pipe

def bodyLogged (h : H2) (p : BodyPipe Z) : (BodyState Z × Option Fail) × List H2Act :=
  Loop.logged bodyStepLogged BodyState.done (h.env.reads.length + 2) ⟨h, p, false⟩

end H2

end Zuhttp
