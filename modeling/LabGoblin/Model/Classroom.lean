import LabGoblin.Model.Text
import LabGoblin.Model.VirtualMachines

/-!
# Lab runs and assignments

The writing endpoints of `api/routers/classroom.py`, and the cleanup worker, which expires
assignments.
-/

set_option autoImplicit false

namespace LabGoblin

open Interactive

/-! ## Lookups -/

/-- `_class_or_404` -/
def classOr404 (db : Db) (classId : ℕ) (organization : OrganizationContext) (user : User) :
    Except Exc Class :=
  if !organizationRoleAtLeast organization .instructor then
    .error (.http 403 "Organization role instructor or higher is required")
  else
    match db.classes.first fun c =>
        c.organizationId = organization.id && c.id = classId &&
          (organizationRoleAtLeast organization .admin || c.instructorId = some user.id) with
    | none => .error (.http 404 "Class not found")
    | some row => .ok row

/-- `_lab_for_user` -/
def labForUser (db : Db) (labId : ℕ) (organization : OrganizationContext) (user : User) :
    Except Exc Lab :=
  match labInOrganization db labId organization.id with
  | none => .error (.http 404 "Lab not found")
  | some lab =>
    match classOr404 db lab.classId organization user with
    | .error e => .error e
    | .ok _ => .ok lab

/-- `_run_for_user`, without or with `FOR UPDATE` on the run. -/
def runForUser (runId : ℕ) (organization : OrganizationContext) (user : User) (lock : Bool) :
    Action (LabRun × Lab) := do
  let s ← Program.run (G := Api)
    (if lock then .lock (.labRun runId organization.id) else .select .rows)
  let run ← orRaise (runInOrganization s.db runId organization.id) (.http 404 "Lab run not found")
  let s ← select
  let lab ← check (labForUser s.db run.labId organization user)
  return (run, lab)

/-- `_default_template` -/
def defaultTemplate (db : Db) (lab : Lab) : Except Exc VMTemplate :=
  match db.desktopPools.first fun p =>
      p.id = lab.defaultPoolId && p.organizationId = lab.organizationId && p.enabled &&
        !p.maintenanceMode with
  | some { templateVmid := some (vmid + 1), .. } =>
    match db.vmTemplates.first fun t =>
        t.organizationId = lab.organizationId && t.sourceVmid = vmid + 1 && t.enabled with
    | some template => .ok template
    | none => .error (.http 409 "The lab pool template is not imported and enabled")
  | _ => .error (.http 409 "The lab pool does not have an enabled template")

/-- What `_assignment_out` adds to a row. -/
structure AssignmentOut where
  runName : Option String
  labName : Option String
  templateName : Option String
  username : Option String
  accessOpen : Bool
  canProvision : Bool
  instructions : Option String
  startsAt : Option Time
  endsAt : Option Time
  runState : Option RunState
  deriving DecidableEq, Repr

/-- `_assignment_out` -/
def assignmentOut (db : Db) (now : Time) (row : LabAssignment) : AssignmentOut :=
  let run := db.labRuns.get? row.labRunId
  let lab := run.bind fun run => db.labs.get? run.labId
  let template := db.vmTemplates.get? row.templateId
  let enrollment := lab.bind fun lab => activeEnrollment db lab.classId row.userId
  let accessOpen := enrollment.isSome && run.any fun run => assignmentEffectivelyOpen row run now
  { runName := run.map LabRun.name
    labName := lab.map Lab.name
    templateName := template.map VMTemplate.name
    username := (db.users.get? row.userId).map User.username
    accessOpen := accessOpen
    canProvision := accessOpen && template.any VMTemplate.enabled && row.studentVmId.isNone &&
      row.status = .assigned
    instructions := lab.bind Lab.description
    startsAt := run.bind LabRun.startsAt
    endsAt := run.bind LabRun.endsAt
    runState := run.map LabRun.state }

/-! ## Runs -/

/-- `text.strip()` -/
def strip (text : String) : String := String.ofList (Text.strip text.toList)

/-- `create_lab_run` -/
def createLabRun (caller : Caller) (payload : LabRunCreate) : Action ℕ := do
  let (user, organization) ← currentInstructor caller
  let s ← select
  let lab ← check (labForUser s.db payload.labId organization user)
  let name := strip payload.name
  raiseIf (name = "") (.http 422 "Run name is required")
  let startsAt := payload.startsAt.or lab.startsAt
  let endsAt := payload.endsAt.or lab.endsAt
  raiseIf (∃ a ∈ startsAt, ∃ b ∈ endsAt, b ≤ a) (.http 422 "starts_at must be before ends_at")
  raiseIf (payload.maxVmsPerStudent < 1 ∨ 10 < payload.maxVmsPerStudent)
    (.http 422 "max_vms_per_student must be between 1 and 10")
  let id ← draw .labRuns
  commit [.run (.insert {
    id := id
    organizationId := organization.id
    labId := lab.id
    name := name
    state := .draft
    startsAt := startsAt
    endsAt := endsAt
    maxVmsPerStudent := payload.maxVmsPerStudent
    createdBy := user.id
    activatedAt := none
    endedAt := none })]
  return id

/-- `RUN_TRANSITIONS` -/
def runTransition : RunState → RunAction → Option RunState
  | .draft, .schedule => some .scheduled
  | .draft, .activate => some .active
  | .draft, .cancel => some .cancelled
  | .scheduled, .activate => some .active
  | .scheduled, .cancel => some .cancelled
  | .active, .end => some .ended
  | .active, .cancel => some .cancelled
  | _, _ => none

def RunAction.text : RunAction → String
  | .schedule => "schedule"
  | .activate => "activate"
  | .end => "end"
  | .cancel => "cancel"
  | .other text => if text = "" then "change" else text

def RunState.text : RunState → String
  | .draft => "draft"
  | .scheduled => "scheduled"
  | .active => "active"
  | .ended => "ended"
  | .cancelled => "cancelled"

/-- The states no transition leaves. -/
def RunState.closed (s : RunState) : Bool :=
  s = .ended || s = .cancelled

/-- The confirmation that `change_lab_run_state` asks for, and its text. -/
def RunAction.confirmation (action : RunAction) (run : ℕ) : Option (Confirmation × String) :=
  match action with
  | .end => some (.endRun run, s!"END {run}")
  | .cancel => some (.cancelRun run, s!"CANCEL {run}")
  | _ => none

/-- The checks of `change_lab_run_state` on the transition. -/
def checkTransition (run : LabRun) (action : RunAction) (confirmation : Option Confirmation)
    (now : Time) : Except Exc RunState :=
  match runTransition run.state action with
  | none => .error (.http 409 s!"Cannot {action.text} a {run.state.text} lab run")
  | some nextState =>
    match action.confirmation run.id with
    | some (expected, text) =>
      if confirmation = some expected then .ok nextState
      else .error (.http 422 s!"confirmation must equal {text}")
    | none =>
      if nextState = .scheduled ∧ run.startsAt = none then
        .error (.http 409 "A scheduled lab run requires a start time")
      else if nextState = .active ∧ run.startsAt.any (fun t => now < t) then
        .error (.http 409 "Lab run cannot activate before its scheduled start")
      else if nextState = .active ∧ run.endsAt.any (fun t => t ≤ now) then
        .error (.http 409 "Lab run has already expired")
      else .ok nextState

/-- The status that closing a run gives its live assignments. -/
def closedStatus (nextState : RunState) : AssignmentStatus :=
  if nextState = .ended then .expired else .revoked

/-- The deletion that closing a run queues for a linked VM. -/
def closeRequest (user : User) (organization : OrganizationContext) (runId vmId : ℕ) :
    EnqueueRequest where
  organizationId := some organization.id
  requestedBy := some user.id
  operationType := .delete
  target := .studentVm vmId
  payload := { expirationCleanup := some true, labRunId := some runId }
  idempotencyKey := some (.labRunClose runId vmId)

/-- One turn of the loop of `change_lab_run_state` over the live assignments. -/
def closeAssignment (user : User) (organization : OrganizationContext) (runId : ℕ)
    (nextState : RunState) (flushed : List Write) (assignment : LabAssignment) :
    Action (List Write) := do
  let flushed := flushed ++ [.assignment (.status assignment.id (closedStatus nextState))]
  match assignment.studentVmId with
  | none => return flushed
  | some vmId => do
    let (_, queued) ← enqueueOperation (closeRequest user organization runId vmId) flushed
    return flushed ++ queued

/-- The loop of `change_lab_run_state` over the live assignments of the run. -/
def closeAssignments (user : User) (organization : OrganizationContext) (runId : ℕ)
    (nextState : RunState) : List Write → List LabAssignment → Action (List Write)
  | flushed, [] => return flushed
  | flushed, assignment :: assignments => do
    let flushed ← closeAssignment user organization runId nextState flushed assignment
    closeAssignments user organization runId nextState flushed assignments

/-- The assignments that closing a run visits. -/
def liveAssignments (db : Db) (runId : ℕ) : List LabAssignment :=
  db.labAssignments.filter fun a => a.labRunId = runId && a.status.live

/-- What `change_lab_run_state` does to the assignments. -/
def closeRun (user : User) (organization : OrganizationContext) (runId : ℕ)
    (nextState : RunState) : Action (List Write) := do
  if nextState.closed then do
    let s ← select
    closeAssignments user organization runId nextState [] (liveAssignments s.db runId)
  else return []

/-- `change_lab_run_state` -/
def changeLabRunState (caller : Caller) (runId : ℕ) (action : RunAction)
    (confirmation : Option Confirmation) : Action RunState := do
  let (user, organization) ← currentInstructor caller
  let (run, _) ← runForUser runId organization user true
  let now ← utcnow
  let nextState ← check (checkTransition run action confirmation now)
  let writes ← closeRun user organization run.id nextState
  commit (writes ++ [.run (.transition run.id nextState
    (if nextState = .active then some now else none)
    (if nextState.closed then some now else none))])
  return nextState

/-- The answer of `close_lab_run_preview`. -/
structure ClosePreview where
  runId : ℕ
  currentState : RunState
  assignmentsAffected : ℕ
  vmDeletionsToQueue : ℕ
  studentVmIds : List ℕ
  confirmation : String
  deriving DecidableEq, Repr

/-- `close_lab_run_preview`, whose action must be one of two words. -/
def closeLabRunPreview (caller : Caller) (runId : ℕ) (action : RunAction) :
    Action ClosePreview := do
  let (user, organization) ← currentInstructor caller
  let (run, _) ← runForUser runId organization user false
  let (_, confirmation) ← orRaise (action.confirmation run.id)
    (.http 422 "action must be end or cancel")
  let s ← select
  let assignments := s.db.labAssignments.filter fun a => a.labRunId = run.id
  let vmIds := assignments.filterMap LabAssignment.studentVmId
  return {
    runId := run.id
    currentState := run.state
    assignmentsAffected := assignments.length
    vmDeletionsToQueue := vmIds.length
    studentVmIds := vmIds
    confirmation := confirmation }

/-! ## Assignments -/

/-- The template that `_create_assignment` resolves. -/
def assignmentTemplate (db : Db) (run : LabRun) (lab : Lab) (templateId : Option ℕ) :
    Except Exc VMTemplate :=
  match templateId with
  | none => defaultTemplate db lab
  | some id =>
    match db.vmTemplates.first fun t =>
        t.id = id && t.organizationId = run.organizationId && t.enabled with
    | some template => .ok template
    | none => .error (.http 422 "Template is not enabled in this organization")

/-- The checks of `_create_assignment`: the template and the slot. -/
def checkAssignment (db : Db) (run : LabRun) (lab : Lab) (payload : LabAssignmentCreate) :
    Except Exc (VMTemplate × ℕ) :=
  match activeEnrollment db lab.classId payload.userId with
  | none => .error (.http 422 "Student must have an active enrollment in this class")
  | some enrollment =>
    if enrollment.role.getD .student ≠ .student then
      .error (.http 422 "Only student enrollments receive VM assignments")
    else if (getActiveMembership db payload.userId run.organizationId).isNone then
      .error (.http 422 "Student must be an active member of this organization")
    else
      match assignmentTemplate db run lab payload.templateId with
      | .error e => .error e
      | .ok template =>
        let existingCount := (db.labAssignments.filter fun a =>
          a.labRunId = run.id && a.userId = payload.userId && a.status ≠ .revoked).length
        let slot := (payload.slotIndex.filter fun n => n ≠ 0).getD (existingCount + 1)
        if slot < 1 ∨ run.maxVmsPerStudent < slot then
          .error (.http 409 "Student assignment quota reached for this lab run")
        else .ok (template, slot)

/-- The assignment of a student in a slot of a run. -/
def assignmentInSlot (db : Db) (runId userId slot : ℕ) : Option LabAssignment :=
  db.labAssignments.first fun a => a.labRunId = runId && a.userId = userId && a.slotIndex = slot

/-- `_create_assignment`: the assignment, whether it was created or revived, and the write.
`flushed` are the writes the transaction has flushed before. -/
def createAssignment (run : LabRun) (lab : Lab) (payload : LabAssignmentCreate)
    (flushed : List Write) : Action (ℕ × Bool × List Write) := do
  let s ← select
  let (template, slot) ← check (checkAssignment (s.withFlushed flushed) run lab payload)
  let s ← select
  match assignmentInSlot (s.withFlushed flushed) run.id payload.userId slot with
  | some existing =>
    if existing.status = .revoked ∧ existing.studentVmId = none then
      return (existing.id, true, [.assignment (.reassign existing.id template.id run.endsAt)])
    else return (existing.id, false, [])
  | none => do
    let id ← draw .labAssignments
    return (id, true, [.assignment (.insert {
      id := id
      organizationId := run.organizationId
      labRunId := run.id
      userId := payload.userId
      templateId := template.id
      slotIndex := slot
      status := .assigned
      studentVmId := none
      expiresAt := run.endsAt })])

/-- The run that an assignment endpoint works on: locked and not closed. -/
def openRunForUser (runId : ℕ) (organization : OrganizationContext) (user : User) :
    Action (LabRun × Lab) := do
  let (run, lab) ← runForUser runId organization user true
  raiseIf (run.state.closed = true) (.http 409 "Cannot assign an ended or cancelled lab run")
  return (run, lab)

/-- `create_run_assignment` -/
def createRunAssignment (caller : Caller) (runId : ℕ) (payload : LabAssignmentCreate) :
    Action ℕ := do
  let (user, organization) ← currentInstructor caller
  let (run, lab) ← openRunForUser runId organization user
  let (id, _, writes) ← createAssignment run lab payload []
  commit writes
  return id

/-- The nested loops of `bulk_create_run_assignments`, over pairs of student and slot. -/
def createAssignments (run : LabRun) (lab : Lab) :
    ℕ × List Write → List LabAssignmentCreate → Action (ℕ × List Write)
  | done, [] => return done
  | (created, flushed), payload :: payloads => do
    let (_, wasCreated, writes) ← createAssignment run lab payload flushed
    createAssignments run lab (created + wasCreated.toNat, flushed ++ writes) payloads

/-- The requests that the nested loops make. -/
def slotRequests (userIds : List ℕ) (templateId : Option ℕ) (slots : ℕ) :
    List LabAssignmentCreate :=
  userIds.flatMap fun userId => (List.range slots).map fun i => ⟨userId, templateId, some (i + 1)⟩

/-- `bulk_create_run_assignments` -/
def bulkCreateRunAssignments (caller : Caller) (runId slotsPerStudent : ℕ) : Action ℕ := do
  let (user, organization) ← currentInstructor caller
  let (run, lab) ← openRunForUser runId organization user
  raiseIf (slotsPerStudent < 1 ∨ run.maxVmsPerStudent < slotsPerStudent)
    (.http 422 "slots_per_student exceeds the lab run quota")
  let s ← select
  let students := (s.db.enrollments.filter fun e =>
    e.classId = lab.classId && e.isActive && e.role.getD .student = .student).map Enrollment.userId
  let (created, writes) ← createAssignments run lab (0, [])
    (slotRequests students none slotsPerStudent)
  commit writes
  return created

/-- `revoke_run_assignment` -/
def revokeRunAssignment (caller : Caller) (runId assignmentId : ℕ) : Action Unit := do
  let (user, organization) ← currentInstructor caller
  let _ ← runForUser runId organization user true
  let s ← select
  let row ← orRaise
    (s.db.labAssignments.first fun a =>
      a.id = assignmentId && a.labRunId = runId && a.organizationId = organization.id)
    (.http 404 "Lab assignment not found")
  commit (if row.status = .revoked then [] else [.assignment (.status row.id .revoked)])

/-! ## Bulk actions -/

def BulkAction.operationType : BulkAction → Option OperationType
  | .power action => some (.power action)
  | .delete => some .delete
  | .other _ => none

/-- The loop of `bulk_vm_action` over the linked assignments. -/
def queueBulk (user : User) (organization : OrganizationContext) (runId : ℕ)
    (action : OperationType) : List Write → List ℕ → Action (List Write)
  | flushed, [] => return flushed
  | flushed, vmId :: vmIds => do
    match ← loadVm vmId with
    | none => queueBulk user organization runId action flushed vmIds
    | some vm => do
      let (_, queued) ← enqueueOperation
        { organizationId := some organization.id
          requestedBy := some user.id
          operationType := action
          target := .studentVm vm.id
          payload := {
            labRunId := some runId
            expirationCleanup := some (action = .delete) } } flushed
      queueBulk user organization runId action (flushed ++ queued) vmIds

/-- `bulk_vm_action` -/
def bulkVmAction (caller : Caller) (runId : ℕ) (action : BulkAction) : Action Unit := do
  let (user, organization) ← currentInstructor caller
  let _ ← runForUser runId organization user false
  let operationType ← orRaise action.operationType
    (.http 422 "Action must be start, stop, reboot, or delete")
  let s ← Program.run (G := Api) (.select (.linkedVms runId))
  let vmIds := (s.db.labAssignments.filter fun a =>
    a.labRunId = runId && a.organizationId = organization.id).filterMap LabAssignment.studentVmId
  let writes ← queueBulk user organization runId operationType [] vmIds
  commit writes

/-! ## The cleanup worker -/

/-- The filter of `cleanup_worker.run_once`. -/
def expiredLinked (now : Time) (a : LabAssignment) : Bool :=
  a.expiresAt.any (fun t => t ≤ now) && a.studentVmId.isSome && a.status ≠ .revoked

/-- The deletion that the cleanup queues. -/
def expireRequest (assignment : LabAssignment) (vmId : ℕ) : EnqueueRequest where
  organizationId := some assignment.organizationId
  requestedBy := none
  operationType := .delete
  target := .studentVm vmId
  payload := { expirationCleanup := some true, assignmentId := some assignment.id }
  idempotencyKey := some (.assignmentExpire assignment.id vmId)

/-- `assignment.status = "expired"` -/
def expireWrites (assignment : LabAssignment) : List Write :=
  if assignment.status = .expired then [] else [.assignment (.status assignment.id .expired)]

/-- The loop of `cleanup_worker.run_once`: the flushed writes, and how many of the operations
are queued. -/
def expireAssignments : List Write × ℕ → List LabAssignment → Action (List Write × ℕ)
  | done, [] => return done
  | (flushed, queued), assignment :: assignments => do
    match assignment.studentVmId with
    | none => expireAssignments (flushed, queued) assignments
    | some vmId => do
      let flushed := flushed ++ expireWrites assignment
      let (operation, writes) ← enqueueOperation (expireRequest assignment vmId) flushed
      expireAssignments
        (flushed ++ writes, queued + (decide (operation.state = .queued)).toNat) assignments

/-- The body of `cleanup_worker.run_once` under the worker lock: how many deletions are
queued. -/
def expireOverdue : Action ℕ := do
  let s ← select
  let (writes, queued) ← expireAssignments ([], 0)
    (s.db.labAssignments.filter (expiredLinked s.clock))
  commit writes
  return queued

/-- `workers/cleanup_worker.py`: `run_once`. The result is `none` when another run holds the
worker lock. -/
def cleanupWorker : Action (Option ℕ) := do
  if ← await (.acquireWorkerLock .cleanup) then do
    let queued ← guarded expireOverdue fun e => do
      await (.releaseWorkerLock .cleanup)
      fail e
    await (.releaseWorkerLock .cleanup)
    return some queued
  else return none

end LabGoblin
