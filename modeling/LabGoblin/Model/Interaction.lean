import LabGoblin.Computation.World
import LabGoblin.Model.Access
import LabGoblin.Model.Json

/-!
# Statements, calls and the machine that runs them

Every endpoint and worker is a program over one signature. Its statements are the
transactions' reads, row locks and commits under READ COMMITTED; its calls are the awaited
requests to Proxmox and the other things outside the database.

A transaction reads committed rows only, keeps the row locks of its `SELECT ... FOR UPDATE`
statements until it ends, and makes its writes visible at once when it commits. A commit
blocks while another transaction holds a lock on a row it writes, and is rolled back as a
whole when it violates a constraint.

The state that processes share, `Sys`, adds the hypervisor and a log of everything that
happened. Programs see neither.
-/

set_option autoImplicit false

namespace LabGoblin

open Interactive

/-! ## Calls -/

/-- The body of a response: a JSON object with its `data` entry, or no object at all. -/
inductive Body where
  | object (data : Option String)
  | other
  deriving DecidableEq, Repr

/-- What one poll in `wait_for_task` finds: the task and whether the deadline has passed. -/
structure TaskPoll where
  stopped : Bool
  exitstatus : ExitStatus
  late : Bool
  deriving DecidableEq, Repr

/-- A row of `discover_templates`. -/
structure DiscoveredTemplate where
  node : Option String
  vmid : Option ℕ
  deriving DecidableEq, Repr

/-- A row of `discover_storage`; `active` unless reported as `0`, `false` or `none`. -/
structure DiscoveredStorage where
  node : String
  storage : Option String
  active : Bool
  deriving DecidableEq, Repr

/-- A row of `discover_networks`. -/
structure DiscoveredNetwork where
  node : String
  bridge : Option String
  deriving DecidableEq, Repr

/-- A row of `proxmox_inventory_vms`, with the columns that `reconcile_vms` reads. -/
structure InventoryVm where
  node : Option String
  vmid : ℤ
  status : Option String
  deriving DecidableEq, Repr

inductive WorkerName where
  | cleanup
  | reconciliation
  deriving DecidableEq, Repr

inductive Call where
  /-- the constructor of `ProxmoxClient` -/
  | client (cluster : Option ℕ)
  /-- the request for `cluster/resources` of `vm_exists` -/
  | vmResources (cluster : Option ℕ)
  | getVmStatus (cluster : Option ℕ) (node : String) (vmid : ℕ)
  | cloneVm (cluster : Option ℕ) (node : String) (sourceVmid newid : ℕ) (name : String)
  /-- `start_vm`, `stop_vm` and `reboot_vm` -/
  | vmAction (cluster : Option ℕ) (action : PowerAction) (node : String) (vmid : ℕ)
  | deleteVm (cluster : Option ℕ) (node : String) (vmid : ℕ)
  /-- one round of the loop in `wait_for_task`: the fetch with its retries -/
  | pollTask (cluster : Option ℕ) (node : String) (upid : Upid)
  | observeVm (cluster : Option ℕ) (node : String) (vmid : ℕ)
  | discoverTemplates (cluster : ℕ)
  | discoverStorage (cluster : ℕ)
  | discoverNetworks (cluster : ℕ)
  /-- the requests of `proxmox_inventory_vms`, of which the last gives the rows -/
  | inventoryVms (cluster : ℕ)
  | acquireWorkerLock (name : WorkerName)
  | releaseWorkerLock (name : WorkerName)
  deriving DecidableEq, Repr

abbrev Call.Reply : Call → Type
  | .client _ => Unit
  | .vmResources _ => Json
  | .getVmStatus _ _ _ => Option VmStatus
  | .cloneVm _ _ _ _ _ => Body
  | .vmAction _ _ _ _ => Body
  | .deleteVm _ _ _ => Body
  | .pollTask _ _ _ => TaskPoll
  | .observeVm _ _ _ => Unit
  | .discoverTemplates _ => List DiscoveredTemplate
  | .discoverStorage _ => List DiscoveredStorage
  | .discoverNetworks _ => List DiscoveredNetwork
  | .inventoryVms _ => List InventoryVm
  | .acquireWorkerLock _ => Bool
  | .releaseWorkerLock _ => Unit

/-- The calls that change a virtual machine. -/
def Call.mutating : Call → Bool
  | .cloneVm _ _ _ _ _ => true
  | .vmAction _ _ _ _ => true
  | .deleteVm _ _ _ => true
  | _ => false

/-! ## Statements -/

/-- The `SELECT` statements, told apart by the VM rows they put into the session. -/
inductive Query where
  | rows
  | vm (id : ℕ)
  | scopedVm (id userId : ℕ) (organization : OrganizationContext)
  | scopedVms (userId : ℕ) (organization : OrganizationContext)
  | liveVm (id organizationId : ℕ)
  | liveVms
  | clusterVms (organizationId clusterId : ℕ)
  /-- the VM links of the assignments of a run, read by `bulk_vm_action` -/
  | linkedVms (runId : ℕ)
  deriving DecidableEq, Repr

/-- The VM records that a query reads. -/
def Query.vms (db : Db) : Query → List ℕ
  | .rows => []
  | .vm id => [id]
  | .scopedVm id userId organization =>
      (db.studentVms.filter fun vm => vm.id = id && vmInScope db userId organization vm).map
        StudentVM.id
  | .scopedVms userId organization =>
      (db.studentVms.filter (vmInScope db userId organization)).map StudentVM.id
  | .liveVm id organizationId =>
      (db.studentVms.filter fun vm =>
        vm.id = id && vm.organizationId = organizationId && vm.deletedAt.isNone).map StudentVM.id
  | .liveVms => (db.studentVms.filter fun vm => vm.deletedAt.isNone).map StudentVM.id
  | .clusterVms organizationId clusterId =>
      (db.studentVms.filter fun vm => vm.organizationId = organizationId &&
        vm.proxmoxClusterId = some clusterId && vm.deletedAt.isNone).map StudentVM.id
  | .linkedVms runId =>
      (db.labAssignments.filter fun a => a.labRunId = runId).filterMap LabAssignment.studentVmId

/-- The `SELECT ... FOR UPDATE` statements. -/
inductive LockQuery where
  | labRun (id organizationId : ℕ)
  | labAssignment (id organizationId userId : ℕ)
  | assignmentsOfRun (runId : ℕ)
  | vmidAllocator (scope : ℕ)
  /-- `claim_operation`, with `SKIP LOCKED` -/
  | claimNext (now : Time)
  deriving DecidableEq, Repr

/-- The filter of `claim_operation`. -/
def claimable (now : Time) (o : DurableOperation) : Bool :=
  (o.state = .queued || (o.state = .running && o.leaseExpiresAt.any (fun t => t < now))) &&
    o.runAfter.all (fun t => t ≤ now)

/-- The first row in the order of `created_at` and `id`. -/
def earliest : List DurableOperation → Option DurableOperation
  | [] => none
  | o :: os =>
    match earliest os with
    | none => some o
    | some best =>
      if o.createdAt < best.createdAt || (o.createdAt = best.createdAt && o.id ≤ best.id) then
        some o
      else some best

/-- The row that `claim_operation` selects, if any. -/
def nextOperation (s : Store) (now : Time) : Option DurableOperation :=
  earliest
    (s.db.durableOperations.filter fun o =>
      claimable now o && s.locks.all fun l => l.1 ≠ .durableOperation o.id)

/-- The rows that a locking query locks. -/
def LockQuery.locks (s : Store) : LockQuery → List Lock
  | .labRun id organizationId =>
      ((runInOrganization s.db id organizationId).map fun r => .labRun r.id).toList
  | .labAssignment id organizationId userId =>
      ((s.db.labAssignments.first fun a =>
        a.id = id && a.organizationId = organizationId && a.userId = userId).map fun a =>
          .labAssignment a.id).toList
  | .assignmentsOfRun runId =>
      (s.db.labAssignments.filter fun a => a.labRunId = runId).map fun a => .labAssignment a.id
  | .vmidAllocator scope =>
      ((s.db.vmidAllocators.first fun a => a.scope = scope).map fun a =>
        .vmidAllocator a.id).toList
  | .claimNext now => ((nextOperation s now).map fun o => .durableOperation o.id).toList

inductive Stmt where
  | select (q : Query)
  | lock (q : LockQuery)
  | draw (q : Sequence)
  /-- `uuid.uuid4()` -/
  | uuid
  /-- the `SELECT`s of `_validate_operation_authorization` -/
  | authorize (row : DurableOperation) (vm : StudentVM) (payload : Payload)
  | commit (ws : List Write)
  | rollback

/-- The interactions of the endpoints and workers. -/
abbrev Api : Signature where
  View := Store
  Stmt := Stmt
  Call := Call
  Reply := Call.Reply
  Exc := Exc

/-- Endpoints, workers and their parts. -/
abbrev Action (α : Type) := Program Api α

/-! ## Requests -/

/-- A text that must repeat the identifier it confirms. -/
inductive Confirmation where
  | delete (vmid : ℕ)
  | endRun (id : ℕ)
  | cancelRun (id : ℕ)
  | other (text : String)
  deriving DecidableEq, Repr

structure CreateVMRequest where
  templateId : ℕ
  labName : String
  autoStart : Bool := true
  assignmentId : Option ℕ := none
  deriving DecidableEq, Repr

structure LabRunCreate where
  labId : ℕ
  name : String
  startsAt : Option Time
  endsAt : Option Time
  maxVmsPerStudent : ℕ := 1
  deriving DecidableEq, Repr

/-- The action words of `RUN_TRANSITIONS`, stripped and in lower case, or any other. -/
inductive RunAction where
  | schedule
  | activate
  | «end»
  | cancel
  | other (text : String)
  deriving DecidableEq, Repr

structure LabAssignmentCreate where
  userId : ℕ
  templateId : Option ℕ := none
  slotIndex : Option ℕ := none
  deriving DecidableEq, Repr

/-- The actions of `bulk_vm_action`. -/
inductive BulkAction where
  | power (action : PowerAction)
  | delete
  | other (text : String)
  deriving DecidableEq, Repr

/-- A password, as far as `validate_password` and `_new_students` look at it. -/
structure Password where
  length : ℕ
  utf8Length : ℕ
  hasLower : Bool
  hasUpper : Bool
  hasDigit : Bool
  hasSymbol : Bool
  deriving DecidableEq, Repr

/-- A `LabSetupWrite`: its body and what the fingerprint leaves out. -/
structure LabSetupWrite where
  requestId : ℕ
  body : LabSetupBody
  /-- the passwords of `new_students`, in their order -/
  passwords : List Password
  deriving DecidableEq, Repr

/-- Who calls an endpoint and with which organization header. -/
structure Caller where
  userId : ℕ
  organizationId : Option ℕ
  deriving DecidableEq, Repr

/-- The requests that start a process: an API call, or one turn of a worker. -/
inductive Request where
  | listVms (caller : Caller)
  | createVm (caller : Caller) (payload : CreateVMRequest)
  | vmPower (caller : Caller) (vm : ℕ) (action : PowerAction)
  | refreshVmStatus (caller : Caller) (vm : ℕ)
  | deleteVmRecord (caller : Caller) (vm : ℕ) (confirmation : Confirmation)
  | deleteAppRecordAdmin (caller : Caller) (vm : ℕ)
  | reconcileVms (caller : Caller)
  | createLabRun (caller : Caller) (payload : LabRunCreate)
  | changeLabRunState (caller : Caller) (run : ℕ) (action : RunAction)
      (confirmation : Option Confirmation)
  | createRunAssignment (caller : Caller) (run : ℕ) (payload : LabAssignmentCreate)
  | bulkCreateRunAssignments (caller : Caller) (run slotsPerStudent : ℕ)
  | bulkVmAction (caller : Caller) (run : ℕ) (action : BulkAction)
  | revokeRunAssignment (caller : Caller) (run assignment : ℕ)
  | createSetup (caller : Caller) (payload : LabSetupWrite)
  | editSetup (caller : Caller) (run : ℕ) (payload : LabSetupWrite)
  | operationWorker (workerId : String)
  | cleanupWorker
  | reconciliationWorker
  deriving DecidableEq, Repr

/-! ## The shared state -/

/-- What happened, as the log records it. -/
inductive Entry where
  | enter (p : Pid) (r : Request)
  | stmt (p : Pid) (q : Stmt) (before : Store)
  | call (p : Pid) (c : Call) (before : Store)
  | reply (p : Pid) (c : Call) (r : Except Exc c.Reply)
  | leave (p : Pid)

/-- The database, the hypervisor, and the log, newest entry first. -/
structure Sys (H : Type) where
  store : Store
  hyper : H
  log : List Entry

/-- How Proxmox and the other things outside the database may answer a call. -/
structure Outside (H : Type) where
  answer : (c : Call) → H → Except Exc c.Reply → H → Prop

/-- Nobody but `p` holds a lock on the row. -/
def Store.FreeFor (s : Store) (p : Pid) (l : Lock) : Prop :=
  ∀ e ∈ s.locks, e.1 = l → e.2 = p

instance (s : Store) (p : Pid) (l : Lock) : Decidable (s.FreeFor p l) := by
  unfold Store.FreeFor
  infer_instance

/-- End the transaction of `p`: its row locks are dropped. -/
def Store.release (s : Store) (p : Pid) : Store :=
  { s with locks := s.locks.filter fun e => e.2 ≠ p }

/-- The rows that a statement must be able to lock. -/
def Stmt.needs (s : Store) : Stmt → List Lock
  | .lock q => q.locks s
  | .commit ws => ws.filterMap Write.lock
  | _ => []

/-- The effect of a statement of `p`. -/
def Store.exec (p : Pid) (q : Stmt) (s : Store) : Store :=
  match q with
  | .select _ => s
  | .lock lq => { s with locks := (lq.locks s).map (fun l => (l, p)) ++ s.locks }
  | .draw sq => { s with db := s.db.draw sq, valid := s.valid.draw sq }
  | .uuid => { s with nonce := s.nonce + 1 }
  | .authorize _ _ _ => s
  | .commit ws =>
    match s.afterCommit ws with
    | none => s.release p
    | some db => { s with db := db.1, valid := db.2 }.release p
  | .rollback => s.release p

/-- The machine of the deployed system, for a given outside. -/
def machine {H : Type} (outside : Outside H) : Machine Api (Sys H) where
  view := Sys.store
  enabled := fun p q t => ∀ l ∈ q.needs t.store, t.store.FreeFor p l
  exec := fun p q t =>
    { t with store := t.store.exec p q, log := .stmt p q t.store :: t.log }
  answer := fun p c t r t' => ∃ h, outside.answer c t.hyper r h ∧
    t' = { t with hyper := h, log := .reply p c r :: .call p c t.store :: t.log }

/-- What the rest of the application may do: let time pass, and change users, memberships,
organizations, classes, enrollments, labs, templates, pools and clusters in any way that
keeps the constraints. Runs, assignments, receipts, VM records, allocators and operations
are written by the modelled code only. -/
structure Store.Environment (s s' : Store) : Prop where
  clock : s.clock ≤ s'.clock
  nonce : s'.nonce = s.nonce
  locks : s'.locks = s.locks
  labRuns : s'.db.labRuns = s.db.labRuns
  labAssignments : s'.db.labAssignments = s.db.labAssignments
  labSetupReceipts : s'.db.labSetupReceipts = s.db.labSetupReceipts
  studentVms : s'.db.studentVms = s.db.studentVms
  vmidAllocators : s'.db.vmidAllocators = s.db.vmidAllocators
  durableOperations : s'.db.durableOperations = s.db.durableOperations

/-! ## Building blocks of programs -/

/-- A `SELECT` that reads no VM record. -/
def select : Action Store := Program.run (G := Api) (.select .rows)

/-- `datetime.utcnow()` -/
def utcnow : Action Time := do
  let s ← select
  return s.clock

/-- Raise the exception of a check. -/
def check {α : Type} (x : Except Exc α) : Action α := Program.ofExcept (G := Api) x

/-- Raise. -/
def fail {α : Type} (e : Exc) : Action α := Program.throw (G := Api) e

/-- `db.commit()` -/
def commit (ws : List Write) : Action Unit := do
  let s ← Program.run (G := Api) (.commit ws)
  match s.afterCommit ws with
  | none => fail .integrity
  | some _ => return ()

/-- `db.rollback()`, and what closing a session does. -/
def rollback : Action Unit := do
  let _ ← Program.run (G := Api) .rollback
  return ()

/-- Draw a primary key. -/
def draw (q : Sequence) : Action ℕ := do
  let s ← Program.run (G := Api) (.draw q)
  return s.db.nextval q

/-- Await a call. -/
def await (c : Call) : Action c.Reply := Program.await (G := Api) c

/-- `if condition: raise e` -/
def raiseIf (condition : Prop) [Decidable condition] (e : Exc) : Action Unit :=
  if condition then fail e else return ()

/-- `try: body except Exception as exc: handler` -/
def guarded {α : Type} (body : Action α) (handler : Exc → Action α) : Action α :=
  Program.tryCatch (G := Api) body handler

/-- What a query of a transaction sees: the committed rows and its own flushed writes. -/
def Store.withFlushed (s : Store) (ws : List Write) : Db :=
  (Db.applyAll ws s.db).getD s.db

/-- `if x is None: raise e` -/
def orRaise {α : Type} (x : Option α) (e : Exc) : Action α :=
  match x with
  | some a => return a
  | none => fail e

end LabGoblin
