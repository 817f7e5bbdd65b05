import LabGoblin.Computation.Program
import LabGoblin.Computation.Table
import LabGoblin.Model.Records

/-!
# The database

The tables, the constraints PostgreSQL enforces on them, and the writes of the modelled
code. A write is one `INSERT`, or one `UPDATE` of one row: SQLAlchemy updates exactly the
columns a branch assigned, so each write is named after the assignments it flushes.

A `Store` is a database that satisfies its constraints, together with the clock and the
row locks that open transactions hold.
-/

set_option autoImplicit false

namespace LabGoblin

open Interactive

structure Db where
  roles : Table Role Role.id
  users : Table User User.id
  organizations : Table Organization Organization.id
  organizationMemberships : Table OrganizationMembership OrganizationMembership.id
  classes : Table Class Class.id
  enrollments : Table Enrollment Enrollment.id
  labs : Table Lab Lab.id
  labRuns : Table LabRun LabRun.id
  labAssignments : Table LabAssignment LabAssignment.id
  labSetupReceipts : List LabSetupReceipt
  vmTemplates : Table VMTemplate VMTemplate.id
  desktopPools : Table DesktopPool DesktopPool.id
  proxmoxClusters : Table ProxmoxCluster ProxmoxCluster.id
  proxmoxClusterDefaults : Table ProxmoxClusterDefault ProxmoxClusterDefault.id
  proxmoxNodes : Table ProxmoxNode ProxmoxNode.id
  studentVms : Table StudentVM StudentVM.id
  vmidAllocators : Table VmidAllocator VmidAllocator.id
  durableOperations : Table DurableOperation DurableOperation.id

/-- The unique constraints, foreign keys and check constraints of the schema. -/
structure Db.Constraints (db : Db) : Prop where
  users_username : db.users.Unique fun u => some u.username
  users_email : db.users.Unique fun u => some u.email
  memberships_user : db.organizationMemberships.Unique fun m => some (m.organizationId, m.userId)
  classes_name : db.classes.Unique fun c => some (c.organizationId, c.name)
  enrollments_user : db.enrollments.Unique fun e => some (e.classId, e.userId)
  pools_name : db.desktopPools.Unique fun p => some (p.organizationId, p.name)
  clusters_active : db.proxmoxClusters.Unique fun c => if c.isActive then some () else none
  defaults_cluster : db.proxmoxClusterDefaults.Unique fun d => some d.clusterId
  assignments_slot : db.labAssignments.Unique fun a => some (a.labRunId, a.userId, a.slotIndex)
  assignments_vm : db.labAssignments.Unique LabAssignment.studentVmId
  receipts_request : (db.labSetupReceipts.map LabSetupReceipt.requestId).Nodup
  vms_vmid : db.studentVms.Unique fun v => v.proxmoxClusterId.map (·, v.vmid)
  allocators_scope : db.vmidAllocators.Unique fun a => some a.scope
  operations_key : db.durableOperations.Unique fun o => some o.idempotencyKey
  runs_quota : ∀ r ∈ db.labRuns.rows, 1 ≤ r.maxVmsPerStudent ∧ r.maxVmsPerStudent ≤ 10
  assignments_slot_positive : ∀ a ∈ db.labAssignments.rows, 1 ≤ a.slotIndex
  labs_class : db.labs.References (fun l => some l.classId) db.classes
  labs_pool : db.labs.References (fun l => some l.defaultPoolId) db.desktopPools
  runs_lab : db.labRuns.References (fun r => some r.labId) db.labs
  assignments_run : db.labAssignments.References (fun a => some a.labRunId) db.labRuns
  assignments_linked : db.labAssignments.References LabAssignment.studentVmId db.studentVms
  vms_template : db.studentVms.References (fun v => some v.templateId) db.vmTemplates

instance (db : Db) : Decidable db.Constraints :=
  decidable_of_iff
    ((db.users.Unique fun u => some u.username) ∧
      (db.users.Unique fun u => some u.email) ∧
      (db.organizationMemberships.Unique fun m => some (m.organizationId, m.userId)) ∧
      (db.classes.Unique fun c => some (c.organizationId, c.name)) ∧
      (db.enrollments.Unique fun e => some (e.classId, e.userId)) ∧
      (db.desktopPools.Unique fun p => some (p.organizationId, p.name)) ∧
      (db.proxmoxClusters.Unique fun c => if c.isActive then some () else none) ∧
      (db.proxmoxClusterDefaults.Unique fun d => some d.clusterId) ∧
      (db.labAssignments.Unique fun a => some (a.labRunId, a.userId, a.slotIndex)) ∧
      db.labAssignments.Unique LabAssignment.studentVmId ∧
      (db.labSetupReceipts.map LabSetupReceipt.requestId).Nodup ∧
      (db.studentVms.Unique fun v => v.proxmoxClusterId.map (·, v.vmid)) ∧
      (db.vmidAllocators.Unique fun a => some a.scope) ∧
      (db.durableOperations.Unique fun o => some o.idempotencyKey) ∧
      (∀ r ∈ db.labRuns.rows, 1 ≤ r.maxVmsPerStudent ∧ r.maxVmsPerStudent ≤ 10) ∧
      (∀ a ∈ db.labAssignments.rows, 1 ≤ a.slotIndex) ∧
      db.labs.References (fun l => some l.classId) db.classes ∧
      db.labs.References (fun l => some l.defaultPoolId) db.desktopPools ∧
      db.labRuns.References (fun r => some r.labId) db.labs ∧
      db.labAssignments.References (fun a => some a.labRunId) db.labRuns ∧
      db.labAssignments.References LabAssignment.studentVmId db.studentVms ∧
      db.studentVms.References (fun v => some v.templateId) db.vmTemplates)
    ⟨fun ⟨h1, h2, h3, h4, h5, h6, h7, h8, h9, h10, h11, h12, h13, h14, h15, h16, h17, h18, h19,
        h20, h21, h22⟩ =>
      ⟨h1, h2, h3, h4, h5, h6, h7, h8, h9, h10, h11, h12, h13, h14, h15, h16, h17, h18, h19,
        h20, h21, h22⟩,
     fun ⟨h1, h2, h3, h4, h5, h6, h7, h8, h9, h10, h11, h12, h13, h14, h15, h16, h17, h18, h19,
        h20, h21, h22⟩ =>
      ⟨h1, h2, h3, h4, h5, h6, h7, h8, h9, h10, h11, h12, h13, h14, h15, h16, h17, h18, h19,
        h20, h21, h22⟩⟩

/-! ## Writes -/

inductive VmWrite where
  | insert (row : StudentVM)
  /-- `vm.status = status` -/
  | status (vm : ℕ) (status : VmStatus)
  /-- `vm.deleted_at = deletedAt; vm.status = "deleted"` -/
  | tombstone (vm : ℕ) (deletedAt : Time)

inductive AssignmentWrite where
  | insert (row : LabAssignment)
  /-- `_create_assignment` on a revoked row without a VM. -/
  | reassign (assignment templateId : ℕ) (expiresAt : Option Time)
  /-- `assignment.status = status` -/
  | status (assignment : ℕ) (status : AssignmentStatus)
  /-- `assignment.student_vm_id = vm` -/
  | link (assignment vm : ℕ)
  /-- `assignment.student_vm_id = None`, and the status where it was assigned another. -/
  | unlink (assignment : ℕ) (status : Option AssignmentStatus)
  /-- `row.expires_at = ends`, and the template of a row without a VM. -/
  | reschedule (assignment : ℕ) (expiresAt : Option Time) (templateId : Option ℕ)

inductive RunWrite where
  | insert (row : LabRun)
  /-- `change_lab_run_state`; the instants are written where they are given. -/
  | transition (run : ℕ) (state : RunState) (activatedAt endedAt : Option Time)
  /-- `edit_setup`; `activatedAt` is written where it is given. -/
  | edit (run : ℕ) (name : String) (startsAt endsAt : Option Time) (maxVmsPerStudent : ℕ)
      (state : RunState) (activatedAt : Option Time)

inductive OperationWrite where
  | insert (row : DurableOperation)
  | claim (operation : ℕ) (owner : String) (leaseExpiresAt startedAt : Time) (attempts : ℕ)
  | renewLease (operation : ℕ) (leaseExpiresAt : Time)
  /-- `persist_task`: the task of a submitted call, the payload where a phase is given. -/
  | checkpoint (operation : ℕ) (upid : Option Upid) (payload : Option Payload)
      (leaseExpiresAt : Time)
  | complete (operation : ℕ) (result : OperationResult) (finishedAt : Time)
  | retry (operation : ℕ) (error : String) (runAfter : Time)
  | fail (operation : ℕ) (error : String) (finishedAt : Time)
  | cancel (operation : ℕ) (error : String) (finishedAt : Time)

inductive AllocatorWrite where
  | insert (row : VmidAllocator)
  | allocate (allocator nextValue : ℕ)

inductive CatalogueWrite where
  | insertUser (row : User)
  | insertMembership (row : OrganizationMembership)
  | insertClass (row : Class)
  | insertPool (row : DesktopPool)
  | insertLab (row : Lab)
  | editLab (lab : ℕ) (name description : String) (defaultPoolId : ℕ) (flags : LabFlags)
  | insertEnrollment (row : Enrollment)
  | insertReceipt (row : LabSetupReceipt)

inductive Write where
  | vm (w : VmWrite)
  | assignment (w : AssignmentWrite)
  | run (w : RunWrite)
  | operation (w : OperationWrite)
  | allocator (w : AllocatorWrite)
  | catalogue (w : CatalogueWrite)

/-- The row that a write inserts or updates. -/
def VmWrite.target : VmWrite → ℕ
  | .insert row => row.id
  | .status vm _ => vm
  | .tombstone vm _ => vm

/-- What an update does to its row. -/
def VmWrite.onRow : VmWrite → StudentVM → StudentVM
  | .insert _, row => row
  | .status _ s, row => { row with status := s }
  | .tombstone _ t, row => { row with deletedAt := some t, status := .deleted }

/-- No write to a VM changes its id. -/
@[simp] theorem VmWrite.onRow_id (w : VmWrite) (row : StudentVM) : (w.onRow row).id = row.id := by
  cases w <;> rfl

def VmWrite.apply (w : VmWrite) (t : Table StudentVM StudentVM.id) :
    Option (Table StudentVM StudentVM.id) :=
  match w with
  | .insert row => t.insert? row
  | w => some (t.update w.target w.onRow w.onRow_id)

def AssignmentWrite.target : AssignmentWrite → ℕ
  | .insert row => row.id
  | .reassign a _ _ => a
  | .status a _ => a
  | .link a _ => a
  | .unlink a _ => a
  | .reschedule a _ _ => a

def AssignmentWrite.onRow : AssignmentWrite → LabAssignment → LabAssignment
  | .insert _, row => row
  | .reassign _ templateId expiresAt, row =>
      { row with templateId := templateId, status := .assigned, expiresAt := expiresAt }
  | .status _ s, row => { row with status := s }
  | .link _ vm, row => { row with studentVmId := some vm }
  | .unlink _ s, row => { row with studentVmId := none, status := s.getD row.status }
  | .reschedule _ expiresAt templateId, row =>
      { row with expiresAt := expiresAt, templateId := templateId.getD row.templateId }

/-- No write to an assignment changes its id. -/
@[simp] theorem AssignmentWrite.onRow_id (w : AssignmentWrite) (row : LabAssignment) :
    (w.onRow row).id = row.id := by
  cases w <;> rfl

def AssignmentWrite.apply (w : AssignmentWrite) (t : Table LabAssignment LabAssignment.id) :
    Option (Table LabAssignment LabAssignment.id) :=
  match w with
  | .insert row => t.insert? row
  | w => some (t.update w.target w.onRow w.onRow_id)

def RunWrite.target : RunWrite → ℕ
  | .insert row => row.id
  | .transition r _ _ _ => r
  | .edit r _ _ _ _ _ _ => r

def RunWrite.onRow : RunWrite → LabRun → LabRun
  | .insert _, row => row
  | .transition _ state activatedAt endedAt, row =>
      { row with
        state := state
        activatedAt := activatedAt.or row.activatedAt
        endedAt := endedAt.or row.endedAt }
  | .edit _ name startsAt endsAt maxVms state activatedAt, row =>
      { row with
        name := name
        startsAt := startsAt
        endsAt := endsAt
        maxVmsPerStudent := maxVms
        state := state
        activatedAt := activatedAt.or row.activatedAt }

/-- No write to a lab run changes its id. -/
@[simp] theorem RunWrite.onRow_id (w : RunWrite) (row : LabRun) : (w.onRow row).id = row.id := by
  cases w <;> rfl

def RunWrite.apply (w : RunWrite) (t : Table LabRun LabRun.id) : Option (Table LabRun LabRun.id) :=
  match w with
  | .insert row => t.insert? row
  | w => some (t.update w.target w.onRow w.onRow_id)

def OperationWrite.target : OperationWrite → ℕ
  | .insert row => row.id
  | .claim o _ _ _ _ => o
  | .renewLease o _ => o
  | .checkpoint o _ _ _ => o
  | .complete o _ _ => o
  | .retry o _ _ => o
  | .fail o _ _ => o
  | .cancel o _ _ => o

def OperationWrite.onRow : OperationWrite → DurableOperation → DurableOperation
  | .insert _, row => row
  | .claim _ owner leaseExpiresAt startedAt attempts, row =>
      { row with
        state := .running
        leaseOwner := some owner
        leaseExpiresAt := some leaseExpiresAt
        startedAt := some startedAt
        attempts := attempts }
  | .renewLease _ leaseExpiresAt, row => { row with leaseExpiresAt := some leaseExpiresAt }
  | .checkpoint _ upid payload leaseExpiresAt, row =>
      { row with
        proxmoxUpid := upid
        payload := payload.getD row.payload
        leaseExpiresAt := some leaseExpiresAt }
  | .complete _ result finishedAt, row =>
      { row with
        state := .succeeded
        result := some result
        error := none
        finishedAt := some finishedAt
        leaseOwner := none
        leaseExpiresAt := none }
  | .retry _ error runAfter, row =>
      { row with
        state := .queued
        error := some error
        runAfter := some runAfter
        leaseOwner := none
        leaseExpiresAt := none }
  | .fail _ error finishedAt, row =>
      { row with
        state := .failed
        error := some error
        finishedAt := some finishedAt
        leaseOwner := none
        leaseExpiresAt := none }
  | .cancel _ error finishedAt, row =>
      { row with
        state := .cancelled
        error := some error
        finishedAt := some finishedAt
        leaseOwner := none
        leaseExpiresAt := none }

/-- No write to an operation changes its id. -/
@[simp] theorem OperationWrite.onRow_id (w : OperationWrite) (row : DurableOperation) :
    (w.onRow row).id = row.id := by
  cases w <;> rfl

def OperationWrite.apply (w : OperationWrite) (t : Table DurableOperation DurableOperation.id) :
    Option (Table DurableOperation DurableOperation.id) :=
  match w with
  | .insert row => t.insert? row
  | w => some (t.update w.target w.onRow w.onRow_id)

def AllocatorWrite.apply (w : AllocatorWrite) (t : Table VmidAllocator VmidAllocator.id) :
    Option (Table VmidAllocator VmidAllocator.id) :=
  match w with
  | .insert row => t.insert? row
  | .allocate a next => some (t.update a (fun row => { row with nextValue := next }) fun _ => rfl)

def CatalogueWrite.apply (w : CatalogueWrite) (db : Db) : Option Db :=
  match w with
  | .insertUser row => (db.users.insert? row).map fun t => { db with users := t }
  | .insertMembership row =>
      (db.organizationMemberships.insert? row).map fun t =>
        { db with organizationMemberships := t }
  | .insertClass row => (db.classes.insert? row).map fun t => { db with classes := t }
  | .insertPool row => (db.desktopPools.insert? row).map fun t => { db with desktopPools := t }
  | .insertLab row => (db.labs.insert? row).map fun t => { db with labs := t }
  | .editLab lab name description poolId flags =>
      some
        { db with
          labs :=
            db.labs.update lab
              (fun row =>
                { row with
                  name := name
                  description := some description
                  defaultPoolId := poolId
                  flags := flags })
              fun _ => rfl }
  | .insertEnrollment row =>
      (db.enrollments.insert? row).map fun t => { db with enrollments := t }
  | .insertReceipt row =>
      if row.requestId ∈ db.labSetupReceipts.map LabSetupReceipt.requestId then none
      else some { db with labSetupReceipts := db.labSetupReceipts ++ [row] }

/-- The effect of a write; `none` is the violation of a primary key. -/
def Write.apply (w : Write) (db : Db) : Option Db :=
  match w with
  | .vm w => (w.apply db.studentVms).map fun t => { db with studentVms := t }
  | .assignment w => (w.apply db.labAssignments).map fun t => { db with labAssignments := t }
  | .run w => (w.apply db.labRuns).map fun t => { db with labRuns := t }
  | .operation w => (w.apply db.durableOperations).map fun t => { db with durableOperations := t }
  | .allocator w => (w.apply db.vmidAllocators).map fun t => { db with vmidAllocators := t }
  | .catalogue w => w.apply db

/-- The effect of the writes of a transaction, in the order in which they are flushed. -/
def Db.applyAll : List Write → Db → Option Db
  | [], db => some db
  | w :: ws, db => (w.apply db).bind (Db.applyAll ws)

/-! ## Row locks -/

/-- The rows that `SELECT ... FOR UPDATE` locks somewhere in the modelled code. -/
inductive Lock where
  | labRun (id : ℕ)
  | labAssignment (id : ℕ)
  | vmidAllocator (id : ℕ)
  | durableOperation (id : ℕ)
  deriving DecidableEq, Repr

/-- The lockable row that a write updates. It blocks while another transaction holds it. -/
def Write.lock : Write → Option Lock
  | .assignment w => some (.labAssignment w.target)
  | .run w => some (.labRun w.target)
  | .operation w => some (.durableOperation w.target)
  | .allocator (.allocate a _) => some (.vmidAllocator a)
  | _ => none

/-- A database that satisfies its constraints, the clock, the locks that are held, and how
many random identifiers were drawn. -/
structure Store where
  db : Db
  valid : db.Constraints
  clock : Time
  locks : List (Lock × Pid)
  nonce : ℕ

/-- The database after a transaction; `none` is an `IntegrityError`. -/
def Store.afterCommit (s : Store) (ws : List Write) : Option { db : Db // db.Constraints } :=
  match Db.applyAll ws s.db with
  | none => none
  | some db => if h : db.Constraints then some ⟨db, h⟩ else none

/-- The sequences that inserts draw their primary keys from. -/
inductive Sequence where
  | users
  | organizationMemberships
  | classes
  | enrollments
  | labs
  | labRuns
  | labAssignments
  | desktopPools
  | studentVms
  | vmidAllocators
  | durableOperations
  deriving DecidableEq, Repr

/-- The value the sequence yields next. -/
def Db.nextval (db : Db) : Sequence → ℕ
  | .users => db.users.next
  | .organizationMemberships => db.organizationMemberships.next
  | .classes => db.classes.next
  | .enrollments => db.enrollments.next
  | .labs => db.labs.next
  | .labRuns => db.labRuns.next
  | .labAssignments => db.labAssignments.next
  | .desktopPools => db.desktopPools.next
  | .studentVms => db.studentVms.next
  | .vmidAllocators => db.vmidAllocators.next
  | .durableOperations => db.durableOperations.next

/-- Draw a value from a sequence. Sequences are not transactional. -/
def Db.draw (db : Db) : Sequence → Db
  | .users => { db with users := db.users.reserve }
  | .organizationMemberships =>
      { db with organizationMemberships := db.organizationMemberships.reserve }
  | .classes => { db with classes := db.classes.reserve }
  | .enrollments => { db with enrollments := db.enrollments.reserve }
  | .labs => { db with labs := db.labs.reserve }
  | .labRuns => { db with labRuns := db.labRuns.reserve }
  | .labAssignments => { db with labAssignments := db.labAssignments.reserve }
  | .desktopPools => { db with desktopPools := db.desktopPools.reserve }
  | .studentVms => { db with studentVms := db.studentVms.reserve }
  | .vmidAllocators => { db with vmidAllocators := db.vmidAllocators.reserve }
  | .durableOperations => { db with durableOperations := db.durableOperations.reserve }

/-- Drawing a value changes no row, so it violates no constraint. -/
theorem Db.Constraints.draw {db : Db} (h : db.Constraints) (q : Sequence) :
    (db.draw q).Constraints := by
  obtain ⟨h1, h2, h3, h4, h5, h6, h7, h8, h9, h10, h11, h12, h13, h14, h15, h16, h17, h18, h19,
    h20, h21, h22⟩ := h
  cases q <;> exact ⟨h1, h2, h3, h4, h5, h6, h7, h8, h9, h10, h11, h12, h13, h14, h15, h16, h17,
    h18, h19, h20, h21, h22⟩

end LabGoblin
