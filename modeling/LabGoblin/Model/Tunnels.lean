import LabGoblin.Model.Sessions

/-!
# Console tunnels

`GuacamoleConsole.connect` of `services/guacamole_console.py` and the methods `_proxmox_ws` and
`ssh_ws` of `services/console_ws_service.py`, as far as they deal with the row of their session:
the limit that `connect` checks, and what becomes of the row when a tunnel ends. The outcome of an
`await` is given from outside. A commit expires the object that the unit of work has of the row;
until then a query answers with the object.
-/

set_option autoImplicit false

namespace LabGoblin.Tunnels

open Interactive (Table)
open Sessions (SessionState VMSession NewSession sessionTransitions)

/-- The states that `connect` counts. -/
def liveStates : List SessionState := [.launching, .active]

/-! ## One tunnel and its row -/

/-- The row in the database, and the object that the tunnel's unit of work has of it. -/
structure Tunnel where
  row : VMSession
  known : Option VMSession := none

/-- A write that follows a transition of the row as it was loaded, as all writes of heartbeats,
sweeps and `mark_*` do. -/
structure Change extends Sessions.Write where
  follows : changed.state = loaded.state ∨ changed.state ∈ sessionTransitions loaded.state

/-- The exceptions that are told apart. `cancelled` is the only one that is no `Exception`. -/
inductive Exc where
  | webSocketDisconnect
  | connectionClosedOk
  | runtimeError
  | osError
  | timeoutError
  | other
  | cancelled
  deriving DecidableEq, Repr

/-- The part of a method that works on the row. -/
abbrev M := EStateM Exc Tunnel

/-- An `await` with its outcome. -/
def await (outcome : Except Exc Unit) : M Unit := MonadExcept.ofExcept outcome

/-- `except (…): pass` -/
def suppress (caught : List Exc) (m : M Unit) : M Unit :=
  tryCatch m fun e => if e ∈ caught then pure () else throw e

/-- `try: … finally: …` -/
def ensuring (m finalizer : M Unit) : M Unit := do
  tryCatch m fun e => do
    finalizer
    throw e
  finalizer

namespace Tunnel

/-- What a query for the row answers. -/
def object (t : Tunnel) : VMSession := t.known.getD t.row

/-- `_set_state` and the commit: the tunnel after it, and whether the transition was permitted. -/
def mark (t : Tunnel) (next : SessionState) (reason : Option String) (now : ℕ) : Bool × Tunnel :=
  match t.object.setState next now reason with
  | none => (false, { t with known := some t.object })
  | some changed => (true, { row := Sessions.Write.apply ⟨t.object, changed⟩ t.row })

/-- `heartbeat` without a state. -/
def heartbeat (t : Tunnel) (now : ℕ) : Tunnel :=
  if t.object.state = .expired ∨ t.object.state = .failed then { t with known := some t.object }
  else
    let changed := { t.object with lastHeartbeatAt := some now, updatedAt := now }
    { row := Sessions.Write.apply ⟨t.object, changed⟩ t.row }

end Tunnel

/-- `mark_active`, `mark_failed` and `mark_disconnected`. -/
def mark (next : SessionState) (reason : Option String) (now : ℕ) : M Bool := do
  let t ← get
  set (t.mark next reason now).2
  return (t.mark next reason now).1

def markActive (now : ℕ) : M Bool := mark .active none now

def markFailed (reason : String) (now : ℕ) : M Bool := mark .failed (some reason) now

def markDisconnected (now : ℕ) : M Bool := mark .disconnected none now

/-! ## While the tunnel runs -/

/-- What happens to the row while a tunnel runs: others write it, the tunnel loads it
(`session.id` of an expired object), expires its objects, marks it as active, or sends its own
heartbeat. -/
inductive Event where
  | outside (change : Change)
  | load
  | expireAll
  | markActive (now : ℕ)
  | heartbeat (now : ℕ)

def Tunnel.after (t : Tunnel) : Event → Tunnel
  | .outside change => { t with row := change.apply t.row }
  | .load => { t with known := some t.object }
  | .expireAll => { t with known := none }
  | .markActive now => (t.mark .active none now).2
  | .heartbeat now => t.heartbeat now

/-- The body of a method from one of its events on to its end. -/
def body (events : List Event) (outcome : Except Exc Unit) : M Unit := do
  modify fun t => events.foldl Tunnel.after t
  await outcome

/-! ## The methods -/

/-- The outcomes of the awaits of a teardown, and its reading of the clock. -/
structure Teardown where
  sendText : Except Exc Unit
  waitClosed : Except Exc Unit
  close : Except Exc Unit
  now : ℕ

/-- What the `finally` of two of the methods does with the row. -/
def disconnectOrFail (now : ℕ) : M Unit := do
  if !(← markDisconnected now) then
    let _ ← markFailed "Connection ended before the remote session became active" now

def closeSocket (down : Teardown) : M Unit :=
  suppress [.runtimeError, .webSocketDisconnect] (await down.close)

/-- `writer.wait_closed()`, when `open_connection` has returned. -/
def waitForWriter (writer : Bool) (down : Teardown) : M Unit :=
  if writer then suppress [.osError, .timeoutError] (await down.waitClosed) else pure ()

/-- The `finally` of `connect`. -/
def connectFinally (writer : Bool) (down : Teardown) : M Unit := do
  waitForWriter writer down
  disconnectOrFail down.now
  closeSocket down

/-- The `except` clauses of `connect`. -/
def connectExcept (down : Teardown) : Exc → M Unit
  | .webSocketDisconnect => pure ()
  | .cancelled => throw .cancelled
  | _ => do
    let _ ← markFailed
      "Browser connection failed; verify guest service, profile and server identity" down.now
    suppress [.runtimeError, .webSocketDisconnect] (await down.sendText)

/-- `connect` from the commit of its session on. -/
def connect (events : List Event) (outcome : Except Exc Unit) (writer : Bool) (down : Teardown) :
    M Unit :=
  ensuring (tryCatch (body events outcome) (connectExcept down)) (connectFinally writer down)

/-- The `finally` of `_proxmox_ws`. -/
def proxmoxFinally (down : Teardown) : M Unit := do
  disconnectOrFail down.now
  closeSocket down

/-- The `except` clauses of `_proxmox_ws`. -/
def proxmoxExcept (down : Teardown) : Exc → M Unit
  | .webSocketDisconnect => pure ()
  | .connectionClosedOk => pure ()
  | .cancelled => throw .cancelled
  | _ => do
    let _ ← markFailed "Remote console connection failed" down.now

/-- `_proxmox_ws` from the commit of its session on. -/
def proxmoxWs (events : List Event) (outcome : Except Exc Unit) (down : Teardown) : M Unit :=
  ensuring (tryCatch (body events outcome) (proxmoxExcept down)) (proxmoxFinally down)

/-- The `finally` of `ssh_ws`. -/
def sshFinally (down : Teardown) : M Unit := do
  let _ ← markDisconnected down.now

/-- The `except` clauses of `ssh_ws`. -/
def sshExcept (down : Teardown) : Exc → M Unit
  | .webSocketDisconnect => do
    let _ ← markDisconnected down.now
  | .cancelled => throw .cancelled
  | _ => do
    let _ ← markFailed "SSH connection failed" down.now
    await down.sendText
    await down.close

/-- Others write the row. -/
def others (changes : List Change) (t : Tunnel) : Tunnel :=
  changes.foldl (fun t change => t.after (.outside change)) t

/-- `ssh_ws` from the commit of its session on. It marks the session as active and sends a
heartbeat before its `try`; others may write the row before either. -/
def sshWs (before between : List Change) (now : ℕ) (events : List Event)
    (outcome : Except Exc Unit) (down : Teardown) : M Unit := do
  modify (others before)
  let _ ← markActive now
  modify fun t => (others between t).heartbeat now
  ensuring (tryCatch (body events outcome) (sshExcept down)) (sshFinally down)

/-! ## The limit of `connect` -/

def maxTunnels : ℕ := 5

/-- The table of sessions and the calls of `connect` of one user, each named by a number: those
that have counted and not created their session yet, and the tunnels, with their sessions. The
calls know how many sessions they counted; which ones these were is history. -/
structure Connects where
  sessions : Table VMSession VMSession.id
  counted : List (ℕ × List ℕ) := []
  tunnels : List (ℕ × ℕ) := []

namespace Connects

/-- The ids of the sessions that `connect` counts. -/
def liveIds (c : Connects) (userId : ℕ) : List ℕ :=
  (c.sessions.filter fun row => row.userId = userId && row.state ∈ liveStates).map VMSession.id

end Connects

/-- What can happen next: a call of `connect` counts, raises before it creates its session, or
creates and commits it; a tunnel is torn down, which may write its row; the unit of work of a
heartbeat, a sweep or a `mark_*` commits; or a session of another kind or user is created. -/
inductive Action where
  | count (call : ℕ)
  | abandon (call : ℕ)
  | create (call : ℕ) (new : NewSession) (now : ℕ)
  | tearDown (call : ℕ) (writes : List Sessions.Write)
  | commit (writes : List Sessions.Write)
  | other (new : NewSession) (now : ℕ)

namespace Connects

/-- `create_launching_session` -/
def add (c : Connects) (new : NewSession) (now : ℕ) : Connects :=
  { c with sessions := c.sessions.add (new.row now) fun _ => rfl }

/-- Another call has the number. -/
def Taken (c : Connects) (call : ℕ) : Prop :=
  call ∈ c.counted.map Prod.fst ∨ call ∈ c.tunnels.map Prod.fst

instance (c : Connects) (call : ℕ) : Decidable (c.Taken call) :=
  inferInstanceAs (Decidable (_ ∨ _))

def step (userId : ℕ) (c : Connects) : Action → Option Connects
  | .count call =>
    if c.Taken call then none
    -- Status 429 ends the call.
    else if (c.liveIds userId).length ≥ maxTunnels then some c
    else some { c with counted := (call, c.liveIds userId) :: c.counted }
  | .abandon call => some { c with counted := c.counted.filter (·.1 ≠ call) }
  | .create call new now =>
    if (c.counted.lookup call).isSome then
      some
        { c.add { new with userId } now with
          counted := c.counted.filter (·.1 ≠ call)
          tunnels := (call, c.sessions.next) :: c.tunnels }
    else none
  | .tearDown call writes =>
    some
      { c with
        sessions := Sessions.applyWrites c.sessions writes
        tunnels := c.tunnels.filter (·.1 ≠ call) }
  | .commit writes => some { c with sessions := Sessions.applyWrites c.sessions writes }
  | .other new now => some (c.add new now)

/-- The state after a sequence of actions that are possible one after the other. -/
def run (userId : ℕ) (c : Connects) (actions : List Action) : Option Connects :=
  actions.foldlM (step userId) c

end Connects

end LabGoblin.Tunnels
