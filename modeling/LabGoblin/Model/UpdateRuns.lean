import LabGoblin.Computation.Table
import LabGoblin.Model.Updater

/-!
# Update runs

`DeploymentUpdateService.run` records a run, asks the agent and records its answer; an operation
that the agent accepts leaves the run queued. `status` asks the agent how its last operation went
and finishes the latest run if that is the one. Calls of both overlap, and the scheduled check is a
call of `run`.

The agent keeps the record of an operation until it accepts another.
-/

set_option autoImplicit false

namespace LabGoblin.Updater

open Interactive

inductive RunStatus where
  | running
  | queued
  | success
  | failed
  deriving DecidableEq

structure DeploymentUpdateRun where
  id : ℕ
  requestedBy : Option ℕ
  action : String
  status : RunStatus
  fromVersion : Option String := none
  toVersion : Option String := none
  backupPath : Option String := none
  details : Option String := none
  agentOperationId : Option String := none
  finishedAt : Option ℤ := none
  deriving DecidableEq

/-- The answer of the agent to `POST`. -/
structure AgentResult where
  accepted : Bool := false
  ok : Bool := false
  fromVersion : Option String := none
  toVersion : Option String := none
  backupPath : Option String := none
  operationId : Option String := none
  message : Option String := none
  deriving DecidableEq

/-- The answer, or the text of `UpdateAgentUnavailable`. -/
abbrev Answer := Except String AgentResult

/-- A call of `run` that has recorded its run, and what the agent has answered. -/
structure Call where
  runId : ℕ
  answer : Option Answer

structure Service where
  runs : Table DeploymentUpdateRun (·.id)
  calls : List Call
  /-- Calls of `status`, with the operation that the agent has reported to them. -/
  polls : List (Option Operation)
  /-- The record of the agent. -/
  operation : Option Operation
  /-- The queued runs whose operation a call of `status` found ended, and how. -/
  reported : List (ℕ × RunStatus)

/-- `text[:2048]` -/
def clip (text : String) : String := String.ofList (text.toList.take 2048)

/-! ## `run` -/

/-- What `run` refuses before it records anything. -/
def refusedTarget (action : String) (targetRef : Option String) : Option String :=
  match targetRef.filter (· ≠ "") with
  | some ref =>
    if action = "apply" then
      if shaRe ref then none
      else some "Apply requires the exact 40-character commit SHA returned by update check"
    else if !refRe ref || hasDotDot ref then some "Invalid target Git reference"
    else none
  | none =>
    if action = "apply" then some "Run update check and provide its exact target commit SHA"
    else none

def Service.record (s : Service) (requestedBy : Option ℕ) (action : String) : Service :=
  { s with
    runs := s.runs.add (fun id => { id, requestedBy, action, status := .running }) fun _ => rfl
    calls := ⟨s.runs.next, none⟩ :: s.calls }

/-- What `run` sets when the agent has answered. -/
def DeploymentUpdateRun.answered (run : DeploymentUpdateRun) (answer : Answer) (now : ℤ) :
    DeploymentUpdateRun :=
  match answer with
  | .ok result =>
    let status : RunStatus :=
      if result.accepted then .queued else if result.ok then .success else .failed
    { run with
      status
      fromVersion := result.fromVersion
      toVersion := result.toVersion
      backupPath := result.backupPath
      agentOperationId := result.operationId
      details := some (clip (result.message.getD ""))
      finishedAt := if status = .queued then none else some now }
  | .error text =>
    { run with status := .failed, details := some (clip text), finishedAt := some now }

/-- An answer of the agent does not change the id of its run. -/
theorem DeploymentUpdateRun.answered_id (run : DeploymentUpdateRun) (answer : Answer) (now : ℤ) :
    (run.answered answer now).id = run.id := by
  cases answer <;> rfl

/-! ## `status` -/

/-- How an operation has ended. -/
def Operation.outcome (op : Operation) : Option RunStatus :=
  match op.status with
  | .succeeded => some .success
  | .failed => some .failed
  | _ => none

/-- What `status` sets in the run of an operation that has ended. -/
def DeploymentUpdateRun.ended (run : DeploymentUpdateRun) (op : Operation) (outcome : RunStatus)
    (now : ℤ) : DeploymentUpdateRun :=
  { run with
    status := outcome
    finishedAt := some now
    fromVersion := (op.result.map (·.fromVersion)).or run.fromVersion
    toVersion := (op.result.map (·.toVersion)).or run.toVersion
    backupPath := (op.result.bind (·.backupPath)).or run.backupPath
    details := some (clip
      ((((op.result.map (·.message)).or op.error).or run.details).getD "")) }

/-- The end of an operation does not change the id of its run. -/
theorem DeploymentUpdateRun.ended_id (run : DeploymentUpdateRun) (op : Operation)
    (outcome : RunStatus) (now : ℤ) : (run.ended op outcome now).id = run.id := rfl

/-- Whether a run is queued for an operation. -/
def DeploymentUpdateRun.awaits (run : DeploymentUpdateRun) (op : Operation) : Bool :=
  run.status = .queued && run.agentOperationId = some op.id && op.id ≠ ""

/-- `order_by(id.desc()).first()` -/
def Service.latest (s : Service) : Option DeploymentUpdateRun :=
  s.runs.rows.find? fun run => s.runs.rows.all fun other => other.id ≤ run.id

/-- The operation that a report says has ended, and how. -/
def endedReport (reported : Option Operation) : Option (Operation × RunStatus) :=
  reported.bind fun op => op.outcome.map (op, ·)

/-- The runs after `status` has compared the latest one with the agent's report. -/
def Service.settle (s : Service) (reported : Option Operation) (now : ℤ) :
    Table DeploymentUpdateRun (·.id) :=
  match endedReport reported, s.latest with
  | some (op, outcome), some latest =>
    if latest.awaits op then
      s.runs.update latest.id (·.ended op outcome now) fun run => run.ended_id op outcome now
    else s.runs
  | _, _ => s.runs

/-- The queued runs whose operation a report says has ended. -/
def Service.finished (s : Service) (reported : Option Operation) : List (ℕ × RunStatus) :=
  match endedReport reported with
  | some (op, outcome) => (s.runs.rows.filter (·.awaits op)).map fun run => (run.id, outcome)
  | none => []

/-! ## Steps -/

/-- The answer of the agent when it accepts an operation. -/
def acceptedAnswer (operationId : String) : AgentResult where
  accepted := true
  ok := true
  operationId := some operationId
  message := some "Update operation accepted; poll updater status"

/-- A step, where the calls of `status` look at the runs under a condition. -/
inductive ServiceStep (ok : Service → Option Operation → Prop) : Service → Service → Prop
  | run (s : Service) (requestedBy : Option ℕ) (action : String) (targetRef : Option String)
      (haction : action ∈ ["check", "apply", "rollback"])
      (htarget : refusedTarget action targetRef = none) :
      ServiceStep ok s (s.record requestedBy action)
  /-- The agent accepts the operation of a call. -/
  | accept (s : Service) (before after : List Call) (runId : ℕ) (operationId action : String)
      (startedAt : ℤ) (hcalls : s.calls = before ++ ⟨runId, none⟩ :: after)
      (hfree : ∀ op ∈ s.operation, op.outcome ≠ none) :
      ServiceStep ok s { s with
        calls := before ++ ⟨runId, some (.ok (acceptedAnswer operationId))⟩ :: after
        operation := some
          ⟨operationId, some action, .queued, some startedAt, none, none, none⟩ }
  /-- The agent answers a call without accepting an operation. -/
  | answer (s : Service) (before after : List Call) (runId : ℕ) (result : AgentResult)
      (haccepted : result.accepted = false)
      (hcalls : s.calls = before ++ ⟨runId, none⟩ :: after) :
      ServiceStep ok s { s with calls := before ++ ⟨runId, some (.ok result)⟩ :: after }
  /-- The request fails, or its answer is lost. -/
  | unavailable (s : Service) (before after : List Call) (runId : ℕ) (answer : Option Answer)
      (text : String) (hcalls : s.calls = before ++ ⟨runId, answer⟩ :: after) :
      ServiceStep ok s { s with calls := before ++ ⟨runId, some (.error text)⟩ :: after }
  /-- A call of `run` commits. -/
  | commit (s : Service) (before after : List Call) (runId : ℕ) (answer : Answer) (now : ℤ)
      (hcalls : s.calls = before ++ ⟨runId, some answer⟩ :: after) :
      ServiceStep ok s { s with
        runs := s.runs.update runId (·.answered answer now) fun run =>
          run.answered_id answer now
        calls := before ++ after }
  /-- The operation of the agent goes on, or ends. -/
  | progress (s : Service) (op op' : Operation) (hop : s.operation = some op)
      (hopen : op.outcome = none) (hid : op'.id = op.id) :
      ServiceStep ok s { s with operation := some op' }
  /-- A call of `status` gets the agent's report, or finds it unavailable. -/
  | poll (s : Service) (reported : Option Operation)
      (hreported : reported = s.operation ∨ reported = none) :
      ServiceStep ok s { s with polls := reported :: s.polls }
  /-- A call of `status` looks at the latest run and commits. -/
  | settle (s : Service) (before after : List (Option Operation)) (reported : Option Operation)
      (now : ℤ) (hpolls : s.polls = before ++ reported :: after) (hok : ok s reported) :
      ServiceStep ok s { s with
        runs := s.settle reported now
        polls := before ++ after
        reported := s.finished reported ++ s.reported }

/-- No run is in progress. Old runs may be there. -/
structure Service.Initial (s : Service) : Prop where
  calls : s.calls = []
  polls : s.polls = []
  reported : s.reported = []

end LabGoblin.Updater
