import LabGoblin.Model.Interaction
import LabGoblin.Model.Numerals

/-!
# Durable operations

`services/operation_service.py` and `workers/operation_worker.py`: how VM identifiers are
allocated, and how operations are queued, claimed, executed, retried and cancelled.

A transaction's pending writes are collected in lists and flushed with its commit. Reading
an attribute of a row after a commit reads the row again.
-/

set_option autoImplicit false

namespace LabGoblin

open Interactive

/-- The settings of `core/config.py` that the modelled code reads. -/
structure Settings where
  operationLeaseSeconds : ℕ := 180
  operationMaxAttempts : ℕ := 3
  operationTaskTimeoutSeconds : ℕ := 900
  operationCloneTimeoutSeconds : ℕ := 3600
  operationDeleteTimeoutSeconds : ℕ := 900
  passwordMinLength : ℕ := 12
  deriving DecidableEq, Repr

/-! ## Allocation -/

/-- The allocator row of a cluster, and the insert if there was none. -/
def findAllocator (cluster : ℕ) (found : Option VmidAllocator) :
    Action (VmidAllocator × List Write) :=
  match found with
  | some allocator => return (allocator, [])
  | none => do
    let id ← draw .vmidAllocators
    let row : VmidAllocator := { id := id, scope := cluster, nextValue := 200000 }
    return (row, [.allocator (.insert row)])

/-- The value of `allocate_vmid`: past the allocator and past every VM of the cluster. -/
def nextVmid (db : Db) (cluster : ℕ) (allocator : VmidAllocator) : ℕ :=
  let vmids := (db.studentVms.filter fun vm => vm.proxmoxClusterId = some cluster).map
    StudentVM.vmid
  let largest := vmids.foldl max 0
  max (max allocator.nextValue ((if largest = 0 then 199999 else largest) + 1)) 200000

/-- `allocate_vmid` with the scope `proxmox-cluster:<cluster>`: the identifier, and the
writes that reserve it. -/
def allocateVmid (cluster : ℕ) : Action (ℕ × List Write) := do
  let s ← Program.run (G := Api) (.lock (.vmidAllocator cluster))
  let (allocator, created) ← findAllocator cluster
    (s.db.vmidAllocators.first fun a => a.scope = cluster)
  let s ← select
  let value := nextVmid s.db cluster allocator
  return (value, created ++ [.allocator (.allocate allocator.id (value + 1))])

/-- The characters `[a-z0-9-]` that a VM name keeps. -/
def vmNameChar (c : Char) : Bool :=
  c.isLower || c.isDigit || c = '-'

/-- `re.sub(r"[^a-z0-9-]+", "-", ...)` -/
def replaceRuns : Bool → List Char → List Char
  | _, [] => []
  | inRun, c :: cs =>
    if vmNameChar c then c :: replaceRuns false cs
    else if inRun then replaceRuns true cs
    else '-' :: replaceRuns true cs

/-- `str.strip("-")` -/
def stripDashes (cs : List Char) : List Char :=
  ((cs.dropWhile (· = '-')).reverse.dropWhile (· = '-')).reverse

/-- `safe_vm_name` -/
def safeVmName (username labName : String) (vmid : ℕ) : String :=
  let text := s!"{username}-{labName}".toList.map Char.toLower
  let stem := (stripDashes (replaceRuns false text)).take 45
  let base := if stem.isEmpty then "lab" else String.ofList stem
  s!"{base}-{vmid}"

/-! ## Queueing and claiming -/

/-- What `enqueue_operation` is asked to queue. -/
structure EnqueueRequest where
  organizationId : Option ℕ
  requestedBy : Option ℕ
  operationType : OperationType
  target : Target
  payload : Payload
  idempotencyKey : Option IdempotencyKey := none

/-- `idempotency_key or str(uuid.uuid4())` -/
def operationKey : Option IdempotencyKey → Action IdempotencyKey
  | some key => return key
  | none => do
    let s ← Program.run (G := Api) .uuid
    return .uuid s.nonce

/-- The row that `enqueue_operation` inserts. -/
def EnqueueRequest.row (r : EnqueueRequest) (id : ℕ) (key : IdempotencyKey) (now : Time) :
    DurableOperation where
  id := id
  organizationId := r.organizationId
  requestedBy := r.requestedBy
  operationType := r.operationType
  target := r.target
  idempotencyKey := key
  state := .queued
  payload := r.payload
  result := none
  proxmoxUpid := none
  attempts := 0
  leaseOwner := none
  leaseExpiresAt := none
  runAfter := some now
  error := none
  createdAt := now
  startedAt := none
  finishedAt := none

/-- The operation that already has an idempotency key. -/
def operationWithKey (db : Db) (key : IdempotencyKey) : Option DurableOperation :=
  db.durableOperations.first fun o => o.idempotencyKey = key

/-- `enqueue_operation`: the operation, and the insert if there was none under the key.
`flushed` are the writes the transaction has flushed before. -/
def enqueueOperation (r : EnqueueRequest) (flushed : List Write) :
    Action (DurableOperation × List Write) := do
  let key ← operationKey r.idempotencyKey
  let s ← select
  match operationWithKey (s.withFlushed flushed) key with
  | some existing => return (existing, [])
  | none => do
    let id ← draw .durableOperations
    let row := r.row id key s.clock
    return (row, [.operation (.insert row)])

/-- Read a row of `durable_operations` again. -/
def reloadOperation (id : ℕ) : Action DurableOperation := do
  let s ← select
  orRaise (s.db.durableOperations.get? id) (.other "ObjectDeletedError")

/-- Read a row of `student_vms`, if there is one. -/
def loadVm (id : ℕ) : Action (Option StudentVM) := do
  let s ← Program.run (G := Api) (.select (.vm id))
  return s.db.studentVms.get? id

/-- Read a row of `student_vms` again. -/
def reloadVm (id : ℕ) : Action StudentVM := do
  orRaise (← loadVm id) (.other "ObjectDeletedError")

/-- `claim_operation` -/
def claimOperation (settings : Settings) (workerId : String) :
    Action (Option DurableOperation) := do
  let now ← utcnow
  let s ← Program.run (G := Api) (.lock (.claimNext now))
  match nextOperation s now with
  | none => return none
  | some row => do
    commit [.operation (.claim row.id workerId (now + settings.operationLeaseSeconds)
      (row.startedAt.getD now) (row.attempts + 1))]
    return some (← reloadOperation row.id)

/-! ## Execution -/

/-- `_validate_operation_authorization` -/
def authorize (row : DurableOperation) (vm : StudentVM) (payload : Payload) : Action Unit := do
  let s ← Program.run (G := Api) (.authorize row vm payload)
  check (validateOperationAuthorization s.db s.clock row vm payload)

/-- `_validate_absent_vm_operation` -/
def authorizeAbsent (row : DurableOperation) (payload : Payload) : Action Unit := do
  let s ← select
  check (validateAbsentVmOperation s.db row payload)

/-- The operation and the VM record that an execution works on. -/
structure Job where
  settings : Settings
  row : DurableOperation
  vm : StudentVM

/-- `renew_lease` -/
def renewLease (settings : Settings) (operation : ℕ) : Action Unit := do
  let now ← utcnow
  commit [.operation (.renewLease operation (now + settings.operationLeaseSeconds))]

/-- `persist_task`: checkpoint a submitted task together with what else is pending, and read
back the identifier of the task. -/
def persistTask (job : Job) (data : Option String) (payload : Option Payload)
    (pending : List Write) : Action (Option Upid) := do
  let now ← utcnow
  commit (pending ++ [.operation (.checkpoint job.row.id (Upid.ofResponse data) payload
    (now + job.settings.operationLeaseSeconds))])
  return (← reloadOperation job.row.id).proxmoxUpid

/-- `isinstance(exc, httpx.HTTPError)` -/
def isHttpError : Exc → Bool
  | .httpStatus _ _ => true
  | .transport _ => true
  | _ => false

/-- The fetch of `ProxmoxClient.wait_for_task` under `async_retry_with_backoff`, with the
number of attempts left. -/
def fetchTask (job : Job) (upid : Upid) : ℕ → Action TaskPoll
  | 0 => fail (.timeout s!"Failed polling task {upid.text}: retry attempts exhausted")
  | attempts + 1 =>
    guarded (await (.pollTask job.vm.proxmoxClusterId job.vm.proxmoxNode upid)) fun e =>
      if isHttpError e then
        if attempts = 0 then fail (.timeout s!"Failed polling task {upid.text}: {e.message}")
        else fetchTask job upid attempts
      else fail e

/-- The text of an exit status in the message of a failed task. -/
def ExitStatus.text : ExitStatus → String
  | .ok => "OK"
  | .warnings count => s!"WARNINGS: {(count : ℕ)}"
  | .other text => if text = "" then "unknown" else text

/-- Whether a stopped task counts as a success. -/
def ExitStatus.accepted (allowWarnings : Bool) : ExitStatus → Bool
  | .ok => true
  | .warnings _ => allowWarnings
  | .other _ => false

/-- The loop of `ProxmoxClient.wait_for_task`. Every round sleeps two seconds, so the
deadline has passed after the given number of rounds. -/
def pollTask (job : Job) (upid : Upid) (allowWarnings : Bool) : ℕ → Action ExitStatus
  | 0 => fail (.timeout s!"Timed out waiting for Proxmox task {upid.text}")
  | rounds + 1 => do
    let task ← fetchTask job upid 3
    if task.stopped then
      if task.exitstatus.accepted allowWarnings then return task.exitstatus
      else fail (.runtime s!"Proxmox task failed: {task.exitstatus.text}")
    else do
      renewLease job.settings job.row.id
      if task.late then fail (.timeout s!"Timed out waiting for Proxmox task {upid.text}")
      else pollTask job upid allowWarnings rounds

/-- `allow_warnings` of the inner `wait_for_task`. -/
def allowsWarnings (operationType : OperationType) (phase : Option Phase) : Bool :=
  match operationType with
  | .power _ => true
  | .create => phase = some .startSubmitted
  | _ => false

/-- The inner `wait_for_task`: the warnings it adds to `task_warnings`. -/
def waitForTask (job : Job) (phase : Option Phase) (upid : Upid) (timeoutSeconds : ℕ) :
    Action (List (Upid × ExitStatus)) := do
  let exitstatus ← pollTask job upid (allowsWarnings job.row.operationType phase)
    (timeoutSeconds / 2 + 2)
  match exitstatus with
  | .warnings count => return [(upid, .warnings count)]
  | _ => return []

def Job.getVmStatus (job : Job) : Action (Option VmStatus) :=
  await (.getVmStatus job.vm.proxmoxClusterId job.vm.proxmoxNode job.vm.vmid)

/-- The `vmid` of an entry as a number. `str` of a float, a list or an object is never made of
digits only. -/
def vmIdentifier : Json → Except Exc ℕ
  | .int n =>
    if Text.isdigit (Text.str n) then .ok n.toNat
    else .error (.runtime "Invalid Proxmox VM inventory identifier")
  | .text s =>
    if Text.isdigit s.toList then
      match Text.int s.toList with
      | .ok n => .ok n
      | .error .tooManyDigits => .error (.other
          ("Exceeds the limit (4300 digits) for integer string conversion: value has " ++
            toString s.length ++
            " digits; use sys.set_int_max_str_digits() to increase the limit"))
      | .error _ => .error (.other s!"invalid literal for int() with base 10: '{s}'")
    else .error (.runtime "Invalid Proxmox VM inventory identifier")
  | _ => .error (.runtime "Invalid Proxmox VM inventory identifier")

/-- What the loop in `vm_exists` adds to `identifiers` for an entry. -/
def inventoryEntry : Json → Except Exc ℕ
  | .object row =>
    match Dict.get row "type" with
    | .list _ => .error (.other "unhashable type: 'list'")
    | .object _ => .error (.other "unhashable type: 'dict'")
    | .text kind =>
      if kind = "qemu" ∨ kind = "lxc" then vmIdentifier (Dict.get row "vmid")
      else .error (.runtime "Invalid Proxmox VM inventory entry")
    | _ => .error (.runtime "Invalid Proxmox VM inventory entry")
  | _ => .error (.runtime "Invalid Proxmox VM inventory entry")

/-- The `identifiers` that `vm_exists` reads from a response. -/
def vmIdentifiers : Json → Except Exc (List ℕ)
  | .object response =>
    match Dict.get response "data" with
    | .list rows => rows.mapM inventoryEntry
    | _ => .error (.runtime "Invalid Proxmox VM inventory response")
  | _ => .error (.other "AttributeError: object has no attribute 'get'")

/-- The response is an inventory without the VM. -/
def inventoryLacks (response : Json) (vmid : ℕ) : Bool :=
  match vmIdentifiers response with
  | .ok identifiers => vmid ∉ identifiers
  | .error _ => false

/-- `vm_exists` -/
def Job.vmExists (job : Job) : Action Bool := do
  let response ← await (.vmResources job.vm.proxmoxClusterId)
  let identifiers ← check (vmIdentifiers response)
  return job.vm.vmid ∈ identifiers

/-- `start_vm`, `stop_vm` and `reboot_vm`, each called right after the validator. -/
def Job.submitAction (job : Job) (payload : Payload) (action : PowerAction) : Action Body := do
  authorize job.row job.vm payload
  await (.vmAction job.vm.proxmoxClusterId action job.vm.proxmoxNode job.vm.vmid)

/-- `clone_vm`, called right after the validator. -/
def Job.submitClone (job : Job) (payload : Payload) (template : VMTemplate) : Action Body := do
  authorize job.row job.vm payload
  await (.cloneVm job.vm.proxmoxClusterId job.vm.proxmoxNode template.sourceVmid job.vm.vmid
    job.vm.vmName)

/-- `delete_vm`, called right after the validator. -/
def Job.submitDelete (job : Job) (payload : Payload) : Action Body := do
  authorize job.row job.vm payload
  await (.deleteVm job.vm.proxmoxClusterId job.vm.proxmoxNode job.vm.vmid)

/-- `response.get("data") if isinstance(response, dict) else None` -/
def Body.dataOrNone : Body → Option String
  | .object data => data
  | .other => none

/-- `response.get("data")` -/
def Body.getData : Body → Action (Option String)
  | .object data => return data
  | .other => fail (.other "AttributeError: object has no attribute 'get'")

/-- `vm.status = status`: SQLAlchemy writes a column whose value changed. -/
def statusWrites (loaded : StudentVM) (status : VmStatus) : List Write :=
  if loaded.status = status then [] else [.vm (.status loaded.id status)]

/-- What an execution hands to the final commit. -/
structure Outcome where
  writes : List Write
  result : OperationResult

/-- The part of `vm.create` that ends with a cloned VM: it resumes a recorded start, resumes
a recorded clone, or submits the clone. The result is the observed status. -/
def cloneVm (job : Job) (payload : Payload) (template : VMTemplate) :
    Action (VmStatus × Payload × List (Upid × ExitStatus)) := do
  match job.row.proxmoxUpid with
  | some upid =>
    if payload.phase = some .startSubmitted then do
      let warnings ← waitForTask job payload.phase upid job.settings.operationTaskTimeoutSeconds
      let live ← job.getVmStatus
      raiseIf (live ≠ some .running)
        (.runtime "Proxmox did not observe the VM running after start")
      return (live.getD .stopped, payload, warnings)
    else do
      let warnings ← waitForTask job payload.phase upid job.settings.operationCloneTimeoutSeconds
      let live ← job.getVmStatus
      return (live.getD .stopped, payload, warnings)
  | none => do
    let listed ← job.vmExists
    raiseIf (listed = true) (.runtime
      s!"VMID {job.vm.vmid} already exists in Proxmox and is not owned by this operation")
    let response ← job.submitClone payload template
    let data ← response.getData
    let payload := { payload with phase := some .cloneSubmitted }
    let recorded ← persistTask job data (some payload) []
    let upid ← orRaise recorded (.runtime "Proxmox clone did not return a task identifier")
    let warnings ← waitForTask job payload.phase upid job.settings.operationCloneTimeoutSeconds
    let live ← job.getVmStatus
    return (live.getD .stopped, payload, warnings)

/-- The auto-start of `vm.create`. The result is the status of the started VM, what is
pending, and the warnings. -/
def autoStart (job : Job) (payload : Payload) (pending : List Write) :
    Action (VmStatus × List Write × List (Upid × ExitStatus)) := do
  let response ← job.submitAction payload .start
  let payload := { payload with phase := some .startSubmitted }
  let recorded ← persistTask job response.dataOrNone (some payload) pending
  let upid ← orRaise recorded (.runtime "Proxmox start did not return a task identifier")
  let warnings ← waitForTask job payload.phase upid job.settings.operationTaskTimeoutSeconds
  let live ← job.getVmStatus
  let vm ← reloadVm job.vm.id
  let status := live.getD vm.status
  raiseIf (status ≠ .running) (.runtime "Proxmox did not observe the VM running after start")
  return (status, statusWrites vm status, warnings)

/-- The assignment that is linked to a VM. -/
def assignmentOfVm (db : Db) (vmId : ℕ) : Option LabAssignment :=
  db.labAssignments.first fun a => a.studentVmId = some vmId

/-- `if assignment: assignment.status = "ready"` -/
def readyWrites : Option LabAssignment → List Write
  | some a => if a.status = .ready then [] else [.assignment (.status a.id .ready)]
  | none => []

/-- What `vm.create` does with the cloned VM: start it where the payload asks for it. The
result is the status of the VM, what is pending, and the warnings of the start. -/
def startCloned (job : Job) (payload : Payload) (loaded : StudentVM) (cloned : VmStatus) :
    Action (VmStatus × List Write × List (Upid × ExitStatus)) := do
  if payload.autoStart = some true ∧ cloned ≠ .running then
    autoStart job payload (statusWrites loaded cloned)
  else return (cloned, statusWrites loaded cloned, [])

/-- The branch `vm.create` of `execute_operation`. -/
def executeCreate (job : Job) (payload : Payload) : Action Outcome := do
  let s ← select
  let template ← orRaise (s.db.vmTemplates.get? job.vm.templateId)
    (.runtime "VM template no longer exists")
  await (.client job.vm.proxmoxClusterId)
  let (cloned, payload, warnings) ← cloneVm job payload template
  let loaded ← reloadVm job.vm.id
  let (status, writes, started) ← startCloned job payload loaded cloned
  let s ← select
  return {
    writes := writes ++ readyWrites (assignmentOfVm s.db job.vm.id)
    result := {
      vmId := some job.vm.id
      vmid := some job.vm.vmid
      status := some status
      node := some job.vm.proxmoxNode
      warnings := warnings ++ started } }

/-- `"stopped" if action == "stop" else "running"` -/
def PowerAction.expectedStatus : PowerAction → VmStatus
  | .stop => .stopped
  | _ => .running

def PowerAction.text : PowerAction → String
  | .start => "start"
  | .stop => "stop"
  | .reboot => "reboot"

def VmStatus.text : VmStatus → String
  | .provisioning => "provisioning"
  | .running => "running"
  | .stopped => "stopped"
  | .error => "error"
  | .missing => "missing"
  | .deleted => "deleted"
  | .other text => text

/-- The task of a power action: the recorded one, or that of a new submission. -/
def powerTask (job : Job) (payload : Payload) (action : PowerAction) : Action Upid := do
  match job.row.proxmoxUpid with
  | some upid => return upid
  | none => do
    let response ← job.submitAction payload action
    let recorded ← persistTask job response.dataOrNone none []
    orRaise recorded (.runtime s!"Proxmox {action.text} did not return a task identifier")

/-- The branch of `execute_operation` for `vm.start`, `vm.stop` and `vm.reboot`. -/
def executePower (job : Job) (payload : Payload) (action : PowerAction) : Action Outcome := do
  await (.client job.vm.proxmoxClusterId)
  let upid ← powerTask job payload action
  let warnings ← waitForTask job payload.phase upid job.settings.operationTaskTimeoutSeconds
  let live ← job.getVmStatus
  let vm ← reloadVm job.vm.id
  let status := live.getD vm.status
  raiseIf (status ≠ action.expectedStatus) (.runtime
    s!"Proxmox did not observe the VM {action.expectedStatus.text} after {action.text}")
  return {
    writes := statusWrites vm status
    result := {
      vmId := some job.vm.id
      vmid := some job.vm.vmid
      status := some status
      warnings := warnings } }

/-- Observe that a VM is stopped before its deletion, and clear the checkpoint of the stop. -/
def observeStopped (job : Job) (payload : Payload) : Action Payload := do
  let stopped ← job.getVmStatus
  raiseIf (stopped ≠ some .stopped)
    (.runtime "Proxmox did not observe the VM stopped before delete")
  let payload := { payload with phase := some .stopped }
  let _ ← persistTask job none (some payload) []
  return payload

/-- `vm.delete`: wait for the task that an earlier attempt recorded. -/
def resumeDelete (job : Job) (payload : Payload) : Action Payload := do
  match payload.phase, job.row.proxmoxUpid with
  | some .stopSubmitted, some upid => do
    let _ ← waitForTask job payload.phase upid job.settings.operationTaskTimeoutSeconds
    observeStopped job payload
  | some .deleteSubmitted, some upid => do
    let _ ← waitForTask job payload.phase upid job.settings.operationDeleteTimeoutSeconds
    return payload
  | _, _ => return payload

/-- `vm.delete`: stop a running VM whose deletion was not submitted yet. -/
def stopBeforeDelete (job : Job) (payload : Payload) : Action Payload := do
  let live ← job.getVmStatus
  if live = some .running ∧ payload.phase ≠ some .deleteSubmitted then do
    let stop ← job.submitAction payload .stop
    let payload := { payload with phase := some .stopSubmitted }
    let recorded ← persistTask job stop.dataOrNone (some payload) []
    let upid ← orRaise recorded
      (.runtime "Proxmox stop did not return a task identifier before delete")
    let _ ← waitForTask job payload.phase upid job.settings.operationTaskTimeoutSeconds
    observeStopped job payload
  else return payload

/-- `vm.delete`: submit the deletion, unless an earlier attempt did. -/
def submitDeletion (job : Job) (payload : Payload) : Action Unit := do
  if payload.phase ≠ some .deleteSubmitted then do
    let response ← job.submitDelete payload
    let data ← response.getData
    let payload := { payload with phase := some .deleteSubmitted }
    let recorded ← persistTask job data (some payload) []
    let upid ← orRaise recorded (.runtime "Proxmox delete did not return a task identifier")
    let _ ← waitForTask job payload.phase upid job.settings.operationDeleteTimeoutSeconds
    return ()
  else return ()

/-- `vm.delete`: the inner `try`, which ends well only when the status is not found. -/
def verifyAbsent (job : Job) : Action Unit :=
  guarded
    (do
      let _ ← job.getVmStatus
      fail (.runtime "Proxmox still reports the VM after deletion"))
    fun e => if isNotFound e then return () else fail e

/-- The body of the outer `try` of `vm.delete`. -/
def deleteListedVm (job : Job) (payload : Payload) : Action Unit := do
  let payload ← resumeDelete job payload
  let payload ← stopBeforeDelete job payload
  submitDeletion job payload
  verifyAbsent job

/-- The errors after which the outer `try` of `vm.delete` looks at the inventory again. -/
def isAbsentOrFault : Exc → Bool
  | .httpStatus code _ => code = 404 || code = 500
  | _ => false

/-- The hypervisor part of `vm.delete`. -/
def deleteVm (job : Job) (payload : Payload) : Action Unit := do
  await (.client job.vm.proxmoxClusterId)
  let listed ← job.vmExists
  if listed then
    guarded (deleteListedVm job payload) fun e =>
      if isAbsentOrFault e then do
        let listed ← job.vmExists
        raiseIf (listed = true) e
      else fail e
  else return ()

/-- `assignment.student_vm_id = None; assignment.status = ...` of `vm.delete`. -/
def unlinkWrites (payload : Payload) : Option LabAssignment → List Write
  | some a =>
    let status := if payload.expirationCleanup = some true then .expired else .assigned
    [.assignment (.unlink a.id (if a.status = status then none else some status))]
  | none => []

/-- The branch `vm.delete` of `execute_operation` for an existing VM record. -/
def executeDelete (job : Job) (payload : Payload) : Action Outcome := do
  deleteVm job payload
  let s ← select
  let now ← utcnow
  return {
    writes := unlinkWrites payload (assignmentOfVm s.db job.vm.id) ++
      [.vm (.tombstone job.vm.id now)]
    result := {
      deleted := some true
      vmId := some job.vm.id
      vmid := some job.vm.vmid } }

/-- The branches of `execute_operation` on the operation type. -/
def executeBranch (settings : Settings) (row : DurableOperation) (vm : Option StudentVM) :
    Action Outcome :=
  match row.operationType, vm with
  | .create, some vm => executeCreate ⟨settings, row, vm⟩ row.payload
  | .create, none => fail (.runtime "VM record no longer exists")
  | .power action, some vm => executePower ⟨settings, row, vm⟩ row.payload action
  | .power _, none => fail (.runtime "VM record no longer exists")
  | .delete, some vm => executeDelete ⟨settings, row, vm⟩ row.payload
  | .delete, none =>
      return { writes := [], result := { deleted := some true, alreadyAbsent := some true } }
  | .other text, _ => fail (.runtime s!"Unsupported operation type: {text}")

/-- The first lines of `execute_operation`: the target, with the requester's authority
checked. -/
def loadTarget (row : DurableOperation) : Action (Option StudentVM) :=
  match row.target with
  | .studentVm id => do
    match ← loadVm id with
    | some vm => do
      authorize row vm row.payload
      return some vm
    | none => do
      authorizeAbsent row row.payload
      return none
  | .other _ _ => return none

/-- `execute_operation` -/
def executeOperation (settings : Settings) (row : DurableOperation) : Action Unit := do
  let vm ← loadTarget row
  let outcome ← executeBranch settings row vm
  let now ← utcnow
  commit (outcome.writes ++ [.operation (.complete row.id outcome.result now)])

/-! ## Failure and cancellation -/

/-- `str(exc)[:2048]` -/
def Exc.recorded (e : Exc) : String :=
  String.ofList (e.message.toList.take 2048)

/-- The VM row that a final failure marks: that of a `vm.create`. -/
def failedVmWrites (row : DurableOperation) (vm : Option StudentVM) : List Write :=
  match row.operationType, vm with
  | .create, some vm => statusWrites vm .error
  | _, _ => []

/-- The target of an operation, as `fail_or_retry` reads it. -/
def targetVm (row : DurableOperation) : Action (Option StudentVM) :=
  match row.target with
  | .studentVm id => loadVm id
  | .other _ _ => return none

/-- `fail_or_retry` -/
def failOrRetry (settings : Settings) (row : DurableOperation) (e : Exc) : Action Unit := do
  let now ← utcnow
  if row.attempts < settings.operationMaxAttempts then
    commit [.operation (.retry row.id e.recorded (now + min 60 (2 ^ row.attempts)))]
  else do
    let vm ← targetVm row
    commit (failedVmWrites row vm ++ [.operation (.fail row.id e.recorded now)])

/-- `cancel_unauthorized_operation` -/
def cancelUnauthorizedOperation (row : DurableOperation) (e : Exc) : Action Unit := do
  let now ← utcnow
  commit [.operation (.cancel row.id e.recorded now)]

/-! ## The worker -/

/-- What a turn of the operation worker reports. -/
inductive WorkerTurn where
  | idle
  | succeeded
  | cancelled
  | failed
  deriving DecidableEq, Repr

/-- The `except` clauses of the worker's turn. -/
def handleFailure (settings : Settings) (operation : ℕ) (e : Exc) : Action WorkerTurn := do
  rollback
  let s ← select
  match e, s.db.durableOperations.get? operation with
  | .authorization message, some row => do
    cancelUnauthorizedOperation row (.authorization message)
    return .cancelled
  | .authorization _, none => return .cancelled
  | e, some row => do
    failOrRetry settings row e
    return .failed
  | _, none => return .failed

/-- `workers/operation_worker.py`: `run_once` -/
def operationWorker (settings : Settings) (workerId : String) : Action WorkerTurn := do
  match ← claimOperation settings workerId with
  | none => return .idle
  | some row =>
    guarded
      (do
        executeOperation settings row
        return .succeeded)
      (handleFailure settings row.id)

end LabGoblin
