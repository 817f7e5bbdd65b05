import LabGoblin.Computation.Table
import LabGoblin.Computation.World
import LabGoblin.Model.Access
import LabGoblin.Model.Replay

/-!
# Remote sessions

`services/session_service.py`, the transition table of `architecture/state_machines.py` and
the endpoints of `api/routers/sessions.py`. Each method is a program whose statements are
the `SELECT`s and the commits of its unit of work, the check of a token with the replay
store, and the events it publishes. A request loads a row once: until it commits, its later
queries for the row answer with the object it has.
-/

set_option autoImplicit false

namespace LabGoblin.Sessions

open Interactive
open Reconnect (Verifier ReplayStore Presented second)

/-! ## States and rows -/

inductive SessionState where
  | launching
  | active
  | disconnected
  | reconnecting
  | expired
  | failed
  deriving DecidableEq, Repr

/-- The value of a state, which the column `state` holds. -/
def SessionState.value : SessionState → String
  | .launching => "launching"
  | .active => "active"
  | .disconnected => "disconnected"
  | .reconnecting => "reconnecting"
  | .expired => "expired"
  | .failed => "failed"

def SessionState.all : List SessionState :=
  [.launching, .active, .disconnected, .reconnecting, .expired, .failed]

/-- `SessionState(text)`, which raises `ValueError` on any other text. -/
def SessionState.ofText (text : String) : Except Exc SessionState :=
  match SessionState.all.find? fun state => state.value = text with
  | some state => .ok state
  | none => .error (.other s!"'{text}' is not a valid SessionState")

/-- `SESSION_TRANSITIONS` -/
def sessionTransitions : SessionState → List SessionState
  | .launching => [.active, .failed]
  | .active => [.disconnected, .expired]
  | .disconnected => [.reconnecting, .expired]
  | .reconnecting => [.active, .failed]
  | .expired => []
  | .failed => []

/-- `validate_transition` with that table -/
def validateTransition (current next : SessionState) : Bool :=
  next ∈ sessionTransitions current

structure VMSession where
  id : ℕ
  organizationId : ℕ
  userId : ℕ
  vmId : ℕ
  protocol : String
  state : SessionState
  launchedAt : Option ℕ := none
  disconnectedAt : Option ℕ := none
  expiredAt : Option ℕ := none
  failedAt : Option ℕ := none
  lastHeartbeatAt : Option ℕ := none
  failureReason : Option String := none
  createdAt : ℕ
  updatedAt : ℕ
  deriving DecidableEq, Repr

/-- `_set_state`: the changed row, or `none` where it returns `False`. -/
def VMSession.setState (row : VMSession) (next : SessionState) (now : ℕ)
    (reason : Option String := none) : Option VMSession :=
  if validateTransition row.state next then
    let row := { row with state := next }
    let row :=
      match next with
      | .active => { row with launchedAt := some now }
      | .disconnected => { row with disconnectedAt := some now }
      | .expired => { row with expiredAt := some now }
      | .failed => { row with failedAt := some now, failureReason := reason }
      | _ => row
    some { row with updatedAt := now }
  else none

/-- An `UPDATE` of a unit of work: the row as it was loaded and as it is now. -/
structure Write where
  loaded : VMSession
  changed : VMSession
  deriving DecidableEq

/-- The value of a column after the `UPDATE`, which sets the columns that were changed. -/
def column {α : Type} [DecidableEq α] (loaded changed current : α) : α :=
  if changed = loaded then current else changed

/-- What the `UPDATE` makes of the row that is in the database. -/
def Write.apply (w : Write) (current : VMSession) : VMSession :=
  { current with
    state := column w.loaded.state w.changed.state current.state
    launchedAt := column w.loaded.launchedAt w.changed.launchedAt current.launchedAt
    disconnectedAt :=
      column w.loaded.disconnectedAt w.changed.disconnectedAt current.disconnectedAt
    expiredAt := column w.loaded.expiredAt w.changed.expiredAt current.expiredAt
    failedAt := column w.loaded.failedAt w.changed.failedAt current.failedAt
    lastHeartbeatAt :=
      column w.loaded.lastHeartbeatAt w.changed.lastHeartbeatAt current.lastHeartbeatAt
    failureReason := column w.loaded.failureReason w.changed.failureReason current.failureReason
    updatedAt := column w.loaded.updatedAt w.changed.updatedAt current.updatedAt }

/-- No write to a session changes its id. -/
@[simp] theorem Write.apply_id (w : Write) (current : VMSession) :
    (w.apply current).id = current.id := rfl

/-! ## Events -/

/-- `DomainEvent` -/
structure DomainEvent where
  name : String
  payload : Dict

/-- The payload with the organization and the id of a session. -/
def VMSession.eventPayload (row : VMSession) : Dict :=
  [("organization_id", .int row.organizationId), ("session_id", .int row.id)]

def sessionStarted (row : VMSession) : DomainEvent :=
  ⟨"SESSION_STARTED", row.eventPayload ++ [("vm_id", .int row.vmId)]⟩

def sessionExpired (row : VMSession) : DomainEvent :=
  ⟨"SESSION_EXPIRED", row.eventPayload ++ [("vm_id", .int row.vmId)]⟩

def reconnectAttempt (row : VMSession) : DomainEvent := ⟨"RECONNECT_ATTEMPT", row.eventPayload⟩

def reconnectFailure (row : VMSession) : DomainEvent := ⟨"RECONNECT_FAILURE", row.eventPayload⟩

def reconnectSuccess (row : VMSession) : DomainEvent := ⟨"RECONNECT_SUCCESS", row.eventPayload⟩

def staleCleanup (count : ℕ) : DomainEvent := ⟨"STALE_CLEANUP", [("expired_count", .int count)]⟩

def sessionCreated (row : VMSession) : DomainEvent :=
  ⟨"SESSION_CREATED",
    [("organization_id", .int row.organizationId), ("session_id", .int row.id),
      ("vm_id", .int row.vmId), ("actor_id", .int row.userId),
      ("protocol", .text row.protocol)]⟩

/-! ## The shared state -/

/-- The table of sessions, the clock, the entries of the replay store, the events that were
published, the latest last, and the number of calls that were started. -/
structure State (σ : Type) where
  sessions : Table VMSession VMSession.id
  now : ℕ
  used : σ
  events : List DomainEvent
  calls : ℕ := 0

/-- What a new session says of its user and its machine. -/
structure NewSession where
  organizationId : ℕ
  userId : ℕ
  vmId : ℕ
  protocol : String
  deriving DecidableEq, Repr

/-- The row that `create_launching_session` adds. -/
def NewSession.row (new : NewSession) (now id : ℕ) : VMSession where
  id := id
  organizationId := new.organizationId
  userId := new.userId
  vmId := new.vmId
  protocol := new.protocol
  state := .launching
  createdAt := now
  updatedAt := now

inductive Stmt where
  /-- a query, or a look at the clock -/
  | read
  /-- the `UPDATE`s of a unit of work and its `COMMIT` -/
  | commit (writes : List Write)
  /-- the `INSERT` of a session and its `COMMIT` -/
  | create (new : NewSession)
  /-- `verify_reconnect` -/
  | verify (token : String) (sessionId userId : ℕ) (protocol : String)
  /-- `bus.publish` -/
  | publish (event : DomainEvent)

/-- Run the `UPDATE`s of a unit of work on the table. -/
def applyWrites (sessions : Table VMSession VMSession.id) :
    List Write → Table VMSession VMSession.id
  | [] => sessions
  | w :: ws => applyWrites (sessions.update w.loaded.id w.apply w.apply_id) ws

section Deployment

/-- The verifier and the replay store that a deployment is configured with. -/
structure Deployment (σ : Type) where
  verifier : Verifier
  store : ReplayStore σ

variable {σ : Type} (d : Deployment σ)

/-- The call that `verify_reconnect` is at an instant. -/
def presented (now : ℕ) (token : String) (sessionId userId : ℕ) (protocol : String) :
    Presented :=
  ⟨now, token, sessionId, userId, protocol⟩

/-- What `verify_reconnect` answers. -/
def Deployment.verified (t : State σ) (token : String) (sessionId userId : ℕ)
    (protocol : String) : Bool :=
  (d.verifier.verifyReconnect d.store (presented t.now token sessionId userId protocol) t.used).1

/-- The entries of the replay store after `verify_reconnect`. -/
def Deployment.usedAfter (t : State σ) (token : String) (sessionId userId : ℕ)
    (protocol : String) : σ :=
  (d.verifier.verifyReconnect d.store (presented t.now token sessionId userId protocol) t.used).2

/-- The interactions of the methods: a statement shows the state before it. -/
abbrev signature (σ : Type) : Signature where
  View := State σ
  Stmt := Stmt
  Call := Empty
  Reply := fun _ => Unit
  Exc := Exc

/-- The effect of a statement. -/
def Deployment.exec (q : Stmt) (t : State σ) : State σ :=
  match q with
  | .read => t
  | .commit writes => { t with sessions := applyWrites t.sessions writes }
  | .create new => { t with sessions := t.sessions.add (new.row t.now) fun _ => rfl }
  | .verify token sessionId userId protocol =>
    { t with used := d.usedAfter t token sessionId userId protocol }
  | .publish event => { t with events := t.events ++ [event] }

def Deployment.machine : Machine (signature σ) (State σ) where
  view := id
  enabled := fun _ _ _ => True
  exec := fun _ q t => d.exec q t
  answer := fun _ _ _ _ _ => False

/-! ## `SessionService` -/

abbrev M (σ : Type) := Program (signature σ)

/-- Run one statement. -/
def issue (q : Stmt) : M σ (State σ) := Program.run (G := signature σ) q

/-- `query(VMSession).filter(VMSession.id == session_id).first()`: the object that the unit of
work has of the row, or else the row. -/
def find (known : Option VMSession) (sessionId : ℕ) : M σ (Option VMSession) := do
  let t ← issue .read
  return (t.sessions.get? sessionId).map known.getD

/-- The common body of the `mark_*` methods: what they publish on the way to the new state, the
state, the reason they give, and what they publish after the commit. -/
def mark (next : SessionState) (reason : Option String) (before after : VMSession → M σ Unit)
    (known : Option VMSession) (sessionId : ℕ) : M σ Bool := do
  match ← find known sessionId with
  | none => return false
  | some row =>
    before row
    let t ← issue .read
    match row.setState next t.now reason with
    | none => return false
    | some changed =>
      let _ ← issue (.commit [⟨row, changed⟩])
      after row
      return true

def publish (event : DomainEvent) : M σ Unit := do
  let _ ← issue (.publish event)

def nothing (_ : VMSession) : M σ Unit := return ()

def markActive : Option VMSession → ℕ → M σ Bool :=
  mark .active none nothing fun row => publish (sessionStarted row)

def markFailed (reason : Option String) : Option VMSession → ℕ → M σ Bool :=
  mark .failed reason nothing nothing

def markDisconnected : Option VMSession → ℕ → M σ Bool :=
  mark .disconnected none nothing nothing

def markReconnecting : Option VMSession → ℕ → M σ Bool :=
  mark .reconnecting none (fun row => publish (reconnectAttempt row)) nothing

def markExpired : Option VMSession → ℕ → M σ Bool :=
  mark .expired none nothing fun row => publish (sessionExpired row)

/-- `heartbeat` -/
def heartbeat (known : Option VMSession) (sessionId : ℕ) (next : Option SessionState) :
    M σ (Option VMSession) := do
  match ← find known sessionId with
  | none => return none
  | some row =>
    if row.state = .expired ∨ row.state = .failed then return none
    let moved ←
      match next with
      | none => pure row
      | some next =>
        let t ← issue .read
        pure ((row.setState next t.now).getD row)
    let t ← issue .read
    let changed := { moved with lastHeartbeatAt := some t.now, updatedAt := t.now }
    let _ ← issue (.commit [⟨row, changed⟩])
    return some changed

/-- `reconnect` -/
def reconnect (known : Option VMSession) (sessionId : ℕ) (token : String) (userId : ℕ) :
    M σ (Option VMSession) := do
  match ← find known sessionId with
  | none => return none
  | some row =>
    let t ← issue (.verify token sessionId userId row.protocol)
    if d.verified t token sessionId userId row.protocol then
      if ← markReconnecting (some row) sessionId then
        let _ ← markActive none sessionId
        publish (reconnectSuccess row)
        find none sessionId
      else
        publish (reconnectFailure row)
        return none
    else return none

/-- The common body of the sweeps: the rows they select, the state they move them to, and what
they publish when they have moved any. -/
def sweep (selects : ℕ → VMSession → Bool) (next : SessionState) (reason : Option String)
    (after : ℕ → M σ Unit) : M σ ℕ := do
  let t ← issue .read
  let rows := t.sessions.filter (selects t.now)
  let writes := rows.filterMap fun row => (row.setState next t.now reason).map (Write.mk row)
  let count := writes.length
  if count ≠ 0 then
    let _ ← issue (.commit writes)
    after count
  return count

/-- Whether an instant is before `now - timedelta(seconds=seconds)`. -/
def olderThan (seconds : ℤ) (now instant : ℕ) : Bool :=
  (instant : ℤ) < now - seconds * second

/-- The filter of `expire_stale_sessions` -/
def stale (seconds : ℤ) (now : ℕ) (row : VMSession) : Bool :=
  row.state ∈ [SessionState.active, .disconnected, .reconnecting] &&
    row.lastHeartbeatAt.any (olderThan seconds now)

def expireStaleSessions (seconds : ℤ) : M σ ℕ :=
  sweep (stale seconds) .expired none fun count => publish (staleCleanup count)

/-- The filter of `expire_reconnecting_sessions` -/
def reconnectingTooLong (seconds : ℤ) (now : ℕ) (row : VMSession) : Bool :=
  row.state = .reconnecting && olderThan seconds now row.updatedAt

def expireReconnectingSessions (seconds : ℤ) : M σ ℕ :=
  sweep (reconnectingTooLong seconds) .expired none fun _ => pure ()

/-- The filter of `fail_stuck_launching` -/
def stuckLaunching (seconds : ℤ) (now : ℕ) (row : VMSession) : Bool :=
  row.state = .launching && olderThan seconds now row.createdAt

def failStuckLaunching (seconds : ℤ) : M σ ℕ :=
  sweep (stuckLaunching seconds) .failed (some "launch timeout") fun _ => pure ()

/-- `create_launching_session` and the commit of the tunnel that calls it. -/
def createLaunchingSession (new : NewSession) : M σ Unit := do
  let t ← issue (.create new)
  publish (sessionCreated (new.row t.now t.sessions.next))

/-! ## The endpoints -/

/-- What the endpoints know of the caller: the user, the name of the platform role, and the
organization. -/
structure Caller where
  userId : ℕ
  role : Option PlatformRole
  organizationId : Option ℕ
  organizationRole : Option OrganizationRole
  deriving DecidableEq, Repr

/-- The rows that `get_session_for_user` lets the caller see. -/
def Caller.sees (caller : Caller) (row : VMSession) : Bool :=
  caller.organizationId.all (· = row.organizationId) &&
    if caller.organizationRole = some .student ∨
        (caller.organizationRole = none ∧ caller.role = some .student) then
      row.userId = caller.userId
    else
      caller.organizationRole ∈ [some .instructor, some .admin, some .owner] ||
        caller.role ∈ [some .teacher, some .admin]

/-- `get_session_for_user` -/
def getSessionForUser (sessionId : ℕ) (caller : Caller) : M σ (Option VMSession) := do
  let t ← issue .read
  return (t.sessions.get? sessionId).filter caller.sees

/-- `POST /sessions/{id}/heartbeat` -/
def sessionHeartbeat (id : ℕ) (state : Option String) (caller : Caller) : M σ Unit := do
  match ← getSessionForUser id caller with
  | none => .throw (.http 404 "Session not found")
  | some row =>
    let next ←
      match state with
      | none => pure none
      | some text =>
        if text = "" then pure none
        else some <$> Program.ofExcept (G := signature σ) (SessionState.ofText text)
    match ← heartbeat (some row) id next with
    | none => .throw (.http 409 "Session is not heartbeat-eligible")
    | some _ => return ()

/-- `POST /sessions/{id}/reconnect` -/
def sessionReconnect (id : ℕ) (token : String) (caller : Caller) : M σ Unit := do
  match ← getSessionForUser id caller with
  | none => .throw (.http 404 "Session not found")
  | some row =>
    match ← reconnect d (some row) id token caller.userId with
    | none => .throw (.http 409 "Reconnect failed")
    | some _ => return ()

/-! ## The calls -/

/-- A call of a method of the service, with the object that the caller's unit of work has of the
row; of an endpoint; or of a sweep. A tunnel calls the methods with one unit of work from its start
to its end, so what it has of the row may be out of date. -/
inductive Request where
  | createLaunchingSession (new : NewSession)
  | markActive (known : Option VMSession) (id : ℕ)
  | markFailed (known : Option VMSession) (id : ℕ) (reason : Option String)
  | markDisconnected (known : Option VMSession) (id : ℕ)
  | markReconnecting (known : Option VMSession) (id : ℕ)
  | markExpired (known : Option VMSession) (id : ℕ)
  | heartbeat (known : Option VMSession) (id : ℕ) (next : Option SessionState)
  | reconnect (known : Option VMSession) (id : ℕ) (token : String) (userId : ℕ)
  | sessionHeartbeat (id : ℕ) (state : Option String) (caller : Caller)
  | sessionReconnect (id : ℕ) (token : String) (caller : Caller)
  | expireStaleSessions (seconds : ℤ)
  | expireReconnectingSessions (seconds : ℤ)
  | failStuckLaunching (seconds : ℤ)

/-- Run a method for its effects. -/
def discard {α : Type} (prog : M σ α) : M σ Unit := do
  let _ ← prog
  return ()

/-- The program that a call runs. -/
def program : Request → M σ Unit
  | .createLaunchingSession new => createLaunchingSession new
  | .markActive known id => discard (markActive known id)
  | .markFailed known id reason => discard (markFailed reason known id)
  | .markDisconnected known id => discard (markDisconnected known id)
  | .markReconnecting known id => discard (markReconnecting known id)
  | .markExpired known id => discard (markExpired known id)
  | .heartbeat known id next => discard (heartbeat known id next)
  | .reconnect known id token userId => discard (reconnect d known id token userId)
  | .sessionHeartbeat id state caller => sessionHeartbeat id state caller
  | .sessionReconnect id token caller => sessionReconnect d id token caller
  | .expireStaleSessions seconds => discard (expireStaleSessions seconds)
  | .expireReconnectingSessions seconds => discard (expireReconnectingSessions seconds)
  | .failStuckLaunching seconds => discard (failStuckLaunching seconds)

/-- The clock goes on. -/
def Tick (t t' : State σ) : Prop := ∃ now, t.now ≤ now ∧ t' = { t with now := now }

/-- Any number of calls at once, each of which reads, checks, writes and commits on its own, and
may be cut off anywhere. -/
def system : System (signature σ) (State σ) Request where
  machine := d.machine
  program := program d
  admits := fun _ _ => True
  next := State.calls
  enter := fun _ t => { t with calls := t.calls + 1 }
  leave := fun _ t => t
  env := Tick

end Deployment

end LabGoblin.Sessions
