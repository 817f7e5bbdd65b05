import LabGoblin.Model.Updater

/-!
# The operations of the updater agent

The agent answers one request at a time. An accepted operation is recorded in `update-state.json`
and runs in a thread of its own, which records how it ends. The process can crash between any two
writes of the file; when it starts again it records a failure for what was cut off.

A write of the file succeeds here. An operation may raise wherever it is.
-/

set_option autoImplicit false

namespace LabGoblin.Updater

/-- The second in which an operation is accepted and the process that accepts it. -/
structure Acceptance where
  seconds : ℕ
  pid : ℕ
  deriving DecidableEq

/-- `f"{int(time.time())}-{os.getpid()}"` -/
def Acceptance.operationId (a : Acceptance) : String := a.seconds.repr ++ "-" ++ a.pid.repr

/-- A thread in `_run_async_action`, by how far it has come. -/
inductive Worker where
  /-- It waits for the lock. -/
  | starting (id : String)
  | running (id : String)
  /-- The action has written the state file itself. -/
  | written (id : String)
  /-- The end is recorded, and the lock is still held. -/
  | leaving
  deriving DecidableEq

/-- Whether the thread holds `update.lock`. -/
def Worker.locks : Worker → Bool
  | .starting _ => false
  | _ => true

/-- The process and the file. `accepted` lists the operations it has accepted, the latest first. -/
structure Agent where
  file : UpdateState
  alive : Bool
  worker : Option Worker
  accepted : List Acceptance

/-- An operation is queued or running, according to the file. -/
def UpdateState.busy (s : UpdateState) : Bool :=
  s.operation.any fun op => op.status = .queued || op.status = .running

def Agent.locked (a : Agent) : Bool := a.worker.any Worker.locks

/-! ## The writes of the file -/

/-- `do_POST` records an accepted operation. -/
def UpdateState.queue (s : UpdateState) (id action : String) (startedAt : ℤ) : UpdateState :=
  let op : Operation :=
    { id := id, action := some action, status := .queued, startedAt := some startedAt }
  { s with operation := some op }

/-- `{**operation, "id": id, "status": "running"}` -/
def startedOperation (operation : Option Operation) (id : String) : Operation :=
  match operation with
  | some op => { op with id := id, status := .running }
  | none => { id := id, status := .running }

/-- `_run_async_action` starts. -/
def UpdateState.start (s : UpdateState) (id : String) : UpdateState :=
  { s with operation := some (startedOperation s.operation id) }

def endedOperation (id : String) (outcome : Except String Result) (finishedAt : ℤ) : Operation :=
  match outcome with
  | .ok result =>
    { id := id, status := .succeeded, result := some result, finishedAt := some finishedAt }
  | .error error =>
    { id := id, status := .failed, error := some error, finishedAt := some finishedAt }

/-- `_run_async_action` ends with what the action returned or raised. -/
def UpdateState.finish (s : UpdateState) (id : String) (outcome : Except String Result)
    (finishedAt : ℤ) : UpdateState :=
  { s with operation := some (endedOperation id outcome finishedAt) }

/-- What `main` makes of an operation that is queued or running when the agent starts. -/
def Operation.cutOff (op : Operation) (finishedAt : ℤ) : Operation :=
  { op with
    status := .failed
    error := some ("Updater restarted before the operation completed; " ++
      "inspect deployment state and retry")
    finishedAt := some finishedAt }

/-- `main` -/
def UpdateState.recover (s : UpdateState) (finishedAt : ℤ) : UpdateState :=
  if s.busy then { s with operation := s.operation.map (Operation.cutOff · finishedAt) } else s

/-! ## Steps -/

inductive AgentStep : Agent → Agent → Prop
  /-- `POST /v1/apply` or `/v1/rollback` is accepted: nothing is queued or running, and the probe
  gets the lock. -/
  | accept (a : Agent) (acceptance : Acceptance) (action : String) (startedAt : ℤ)
      (halive : a.alive = true) (hbusy : a.file.busy = false) (hlock : a.locked = false) :
      AgentStep a { a with
        file := a.file.queue acceptance.operationId action startedAt
        worker := some (.starting acceptance.operationId)
        accepted := acceptance :: a.accepted }
  /-- `POST /v1/check` under the lock. -/
  | check (a : Agent) (checked : LastCheck) (halive : a.alive = true)
      (hbusy : a.file.busy = false) (hlock : a.locked = false) :
      AgentStep a { a with file := { a.file with lastCheck := some checked } }
  /-- The thread gets the lock. -/
  | start (a : Agent) (id : String) (hworker : a.worker = some (.starting id)) :
      AgentStep a { a with file := a.file.start id, worker := some (.running id) }
  /-- `apply_update` writes the file. -/
  | writeUpdate (a : Agent) (id previous target backup : String) (now : ℤ)
      (hworker : a.worker = some (.running id)) :
      AgentStep a { a with
        file := updatedState previous target backup now, worker := some (.written id) }
  /-- `rollback_update` writes the file. -/
  | writeRollback (a : Agent) (id current target reverseBackup : String) (now : ℤ)
      (hworker : a.worker = some (.running id)) :
      AgentStep a { a with
        file := rolledBackState current target reverseBackup now, worker := some (.written id) }
  /-- The action has returned or raised, with or without a write of its own. -/
  | finish (a : Agent) (id : String) (outcome : Except String Result) (finishedAt : ℤ)
      (hworker : a.worker = some (.running id) ∨ a.worker = some (.written id)) :
      AgentStep a { a with
        file := a.file.finish id outcome finishedAt, worker := some .leaving }
  | leave (a : Agent) (hworker : a.worker = some .leaving) :
      AgentStep a { a with worker := none }
  | crash (a : Agent) (halive : a.alive = true) :
      AgentStep a { a with alive := false, worker := none }
  | restart (a : Agent) (finishedAt : ℤ) (halive : a.alive = false) :
      AgentStep a { a with alive := true, file := a.file.recover finishedAt }

/-- The agent runs, and nothing is going on. -/
structure Agent.Initial (a : Agent) : Prop where
  alive : a.alive = true
  worker : a.worker = none
  busy : a.file.busy = false
  accepted : a.accepted = []

end LabGoblin.Updater
