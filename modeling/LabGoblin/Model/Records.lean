import Mathlib.Data.PNat.Basic

/-!
# Rows of the classroom and virtual machine tables

The columns of `app/models/models.py` that the modelled functions read or write. Columns
whose values the source compares with a fixed set of words are enumerations; text that a
value is spelled in (a target id, an idempotency key, a JSON payload) is the value itself.
Instants are natural numbers, in seconds.
-/

set_option autoImplicit false

namespace LabGoblin

/-- Instants and durations, in seconds. -/
abbrev Time := ℕ

/-! ## Users and organizations -/

/-- `services/rbac.py`: the canonical platform roles. -/
inductive PlatformRole where
  | student
  | teacher
  | admin
  deriving DecidableEq, Repr

/-- The name column of `roles`: a known role, or any other text. -/
inductive RoleName where
  | known (role : PlatformRole)
  | other (text : String)
  deriving DecidableEq, Repr

structure Role where
  id : ℕ
  name : RoleName
  deriving DecidableEq, Repr

structure User where
  id : ℕ
  username : String
  email : String
  roleId : ℕ
  isActive : Bool
  forcePasswordChange : Bool
  deriving DecidableEq, Repr

structure Organization where
  id : ℕ
  slug : String
  enabled : Bool
  deriving DecidableEq, Repr

/-- `ORGANIZATION_ROLES`, in increasing rank. -/
inductive OrganizationRole where
  | student
  | instructor
  | admin
  | owner
  deriving DecidableEq, Repr

structure OrganizationMembership where
  id : ℕ
  organizationId : ℕ
  userId : ℕ
  role : OrganizationRole
  isActive : Bool
  deriving DecidableEq, Repr

/-! ## Classes, labs and runs -/

structure Class where
  id : ℕ
  organizationId : ℕ
  name : String
  term : Option String
  instructorId : Option ℕ
  deriving DecidableEq, Repr

/-- The role column of an enrollment, compared with `"student"` only. -/
inductive EnrollmentRole where
  | student
  | other (text : String)
  deriving DecidableEq, Repr

structure Enrollment where
  id : ℕ
  classId : ℕ
  userId : ℕ
  role : Option EnrollmentRole
  isActive : Bool
  deriving DecidableEq, Repr

/-- The five switches of a lab that `lab_setup.py` lists as `FLAGS`. -/
structure LabFlags where
  consoleEnabled : Bool
  rdpEnabled : Bool
  terminalEnabled : Bool
  studentCanPowerOff : Bool
  studentCanReset : Bool
  deriving DecidableEq, Repr

structure Lab where
  id : ℕ
  organizationId : ℕ
  classId : ℕ
  name : String
  description : Option String
  startsAt : Option Time
  endsAt : Option Time
  defaultPoolId : ℕ
  flags : LabFlags
  deriving DecidableEq, Repr

/-- `ck_lab_runs_state`. -/
inductive RunState where
  | draft
  | scheduled
  | active
  | ended
  | cancelled
  deriving DecidableEq, Repr

structure LabRun where
  id : ℕ
  organizationId : ℕ
  labId : ℕ
  name : String
  state : RunState
  startsAt : Option Time
  endsAt : Option Time
  maxVmsPerStudent : ℕ
  createdBy : ℕ
  activatedAt : Option Time
  endedAt : Option Time
  deriving DecidableEq, Repr

/-- `ck_lab_assignments_status`. -/
inductive AssignmentStatus where
  | assigned
  | ready
  | expired
  | revoked
  deriving DecidableEq, Repr

structure LabAssignment where
  id : ℕ
  organizationId : ℕ
  labRunId : ℕ
  userId : ℕ
  templateId : ℕ
  slotIndex : ℕ
  status : AssignmentStatus
  studentVmId : Option ℕ
  expiresAt : Option Time
  deriving DecidableEq, Repr

/-- The states `LabSetupWrite.state` admits. -/
inductive SetupState where
  | draft
  | scheduled
  | active
  deriving DecidableEq, Repr

def SetupState.toRunState : SetupState → RunState
  | .draft => .draft
  | .scheduled => .scheduled
  | .active => .active

/-- A `SetupStudent` without its password, as `model_dump_json` masks it. -/
structure SetupStudentBody where
  username : String
  email : String
  displayName : String
  deriving DecidableEq, Repr

/-- The `data` and the assignment bindings that `_snapshot` hashes. The hash stands for the
value it is taken of. -/
structure Etag where
  runId : ℕ
  labId : ℕ
  name : String
  description : String
  classId : ℕ
  className : String
  term : String
  poolId : ℕ
  poolName : String
  studentIds : List ℕ
  startsAt : Option Time
  endsAt : Option Time
  slots : ℕ
  state : RunState
  assignmentCount : ℕ
  flags : LabFlags
  bindings : List (ℕ × Option ℕ × AssignmentStatus × Option Time)
  deriving DecidableEq, Repr

/-- The submitted body of `LabSetupWrite` without `request_id` and with masked passwords:
what its fingerprint is taken of. The hash stands for the value it is taken of. -/
structure LabSetupBody where
  expectedEtag : Option Etag
  name : String
  description : String
  classId : Option ℕ
  className : String
  term : String
  poolId : Option ℕ
  templateId : Option ℕ
  studentIds : List ℕ
  newStudents : List SetupStudentBody
  startsAt : Option Time
  endsAt : Option Time
  slots : ℕ
  flags : LabFlags
  state : SetupState
  reviewed : Bool
  deriving DecidableEq, Repr

structure LabSetupReceipt where
  requestId : ℕ
  organizationId : ℕ
  actorId : ℕ
  runId : ℕ
  fingerprint : LabSetupBody
  deriving DecidableEq, Repr

/-! ## Templates, pools and clusters -/

structure VMTemplate where
  id : ℕ
  organizationId : ℕ
  proxmoxClusterId : Option ℕ
  name : String
  proxmoxNode : String
  sourceVmid : ℕ
  enabled : Bool
  deriving DecidableEq, Repr

structure DesktopPool where
  id : ℕ
  organizationId : ℕ
  name : String
  templateVmid : Option ℕ
  templateNode : Option String
  maintenanceMode : Bool
  enabled : Bool
  deriving DecidableEq, Repr

structure ProxmoxCluster where
  id : ℕ
  isActive : Bool
  deriving DecidableEq, Repr

/-- The placement policies `choose_cluster_node` tells apart. -/
inductive PlacementPolicy where
  | manual
  | preferDefaultThenBalance
  | balanced
  | other (text : String)
  deriving DecidableEq, Repr

structure ProxmoxClusterDefault where
  id : ℕ
  clusterId : ℕ
  defaultNode : Option String
  defaultStorage : Option String
  defaultBridge : Option String
  placementPolicy : Option PlacementPolicy
  deriving DecidableEq, Repr

/-- The status column of `proxmox_nodes`, compared with `online` and `up` only. -/
inductive NodeStatus where
  | online
  | up
  | other (text : String)
  deriving DecidableEq, Repr

structure ProxmoxNode where
  id : ℕ
  clusterId : ℕ
  nodeName : String
  status : Option NodeStatus
  cpuTotal : Option ℕ
  cpuUsed : Option ℕ
  memoryTotal : Option ℕ
  memoryUsed : Option ℕ
  deriving DecidableEq, Repr

/-! ## Virtual machines -/

/-- The status column of `student_vms`: a word the source writes or compares with, or any
other word Proxmox reports. -/
inductive VmStatus where
  | provisioning
  | running
  | stopped
  | error
  | missing
  | deleted
  | other (text : String)
  deriving DecidableEq, Repr

structure StudentVM where
  id : ℕ
  organizationId : ℕ
  proxmoxClusterId : Option ℕ
  ownerId : ℕ
  templateId : ℕ
  vmName : String
  vmid : ℕ
  proxmoxNode : String
  status : VmStatus
  deletedAt : Option Time
  deriving DecidableEq, Repr

structure VmidAllocator where
  id : ℕ
  /-- The cluster of a scope `proxmox-cluster:<id>`. -/
  scope : ℕ
  nextValue : ℕ
  deriving DecidableEq, Repr

/-! ## Durable operations -/

/-- The power actions of `vm.start`, `vm.stop` and `vm.reboot`. -/
inductive PowerAction where
  | start
  | stop
  | reboot
  deriving DecidableEq, Repr

inductive OperationType where
  | create
  | power (action : PowerAction)
  | delete
  | other (text : String)
  deriving DecidableEq, Repr

/-- `ck_durable_operations_state`. -/
inductive OperationState where
  | queued
  | running
  | succeeded
  | failed
  | cancelled
  deriving DecidableEq, Repr

/-- The states `execute_operation`, `fail_or_retry` and `cancel_unauthorized_operation`
finish an operation in. -/
def OperationState.terminal : OperationState → Bool
  | .queued => false
  | .running => false
  | .succeeded => true
  | .failed => true
  | .cancelled => true

/-- The phases that `execute_operation` records under `_phase` in the payload. -/
inductive Phase where
  | cloneSubmitted
  | startSubmitted
  | stopSubmitted
  | stopped
  | deleteSubmitted
  deriving DecidableEq, Repr

/-- The entries of `payload_json` that are written or read anywhere. -/
structure Payload where
  autoStart : Option Bool := none
  placementReason : Option String := none
  expirationCleanup : Option Bool := none
  assignmentId : Option ℕ := none
  labRunId : Option ℕ := none
  phase : Option Phase := none
  deriving DecidableEq, Repr

/-- The identifier of a Proxmox task. It is never blank: `persist_task` stores a blank one
as no identifier at all. -/
structure Upid where
  text : String
  nonblank : text ≠ ""
  deriving DecidableEq, Repr

/-- `str(upid or "") or None`. -/
def Upid.ofResponse (data : Option String) : Option Upid :=
  match data with
  | none => none
  | some text => if h : text ≠ "" then some ⟨text, h⟩ else none

/-- How Proxmox reports that a task ended, as `wait_for_task` reads it: `OK`, the pattern
`WARNINGS: [1-9][0-9]*`, or anything else, the empty text included. -/
inductive ExitStatus where
  | ok
  | warnings (count : ℕ+)
  | other (text : String)
  deriving DecidableEq, Repr

/-- The entries of `result_json`. -/
structure OperationResult where
  vmId : Option ℕ := none
  vmid : Option ℕ := none
  status : Option VmStatus := none
  node : Option String := none
  deleted : Option Bool := none
  alreadyAbsent : Option Bool := none
  warnings : List (Upid × ExitStatus) := []
  deriving DecidableEq, Repr

/-- The idempotency keys the source spells as text. Keys of different kinds never collide,
because their texts start differently. -/
inductive IdempotencyKey where
  /-- `assignment-expire:<assignment>:vm:<vm>` -/
  | assignmentExpire (assignment vm : ℕ)
  /-- `lab-run-close:<run>:vm:<vm>` -/
  | labRunClose (run vm : ℕ)
  /-- `vm.create:<vm>` -/
  | vmCreate (vm : ℕ)
  /-- `str(uuid.uuid4())` -/
  | uuid (nonce : ℕ)
  deriving DecidableEq, Repr

/-- The target columns of an operation: `target_type = "student_vm"` with the id of the
record, or any other target. -/
inductive Target where
  | studentVm (id : ℕ)
  | other (type : String) (id : Option String)
  deriving DecidableEq, Repr

structure DurableOperation where
  id : ℕ
  organizationId : Option ℕ
  requestedBy : Option ℕ
  operationType : OperationType
  target : Target
  idempotencyKey : IdempotencyKey
  state : OperationState
  payload : Payload
  result : Option OperationResult
  proxmoxUpid : Option Upid
  attempts : ℕ
  leaseOwner : Option String
  leaseExpiresAt : Option Time
  runAfter : Option Time
  error : Option String
  createdAt : Time
  startedAt : Option Time
  finishedAt : Option Time
  deriving DecidableEq, Repr

end LabGoblin
