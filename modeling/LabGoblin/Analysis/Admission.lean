import LabGoblin.Analysis.Allocation
import LabGoblin.Analysis.Authority
import LabGoblin.Analysis.FreshAuthority
import LabGoblin.Analysis.FootprintVirtualMachines
import LabGoblin.Analysis.Revocation

/-!
# What is accepted is carried out

The endpoints admit a request by the role in the organization and the scope of the role, and the
worker checks the operation that they queued against the rows it finds. Both ask the same of a
student, an administrator and an owner. Of an instructor the worker asks that a class of theirs
uses the VM, also where the VM has just been created for the instructor.
-/

set_option autoImplicit false

namespace LabGoblin

open Interactive

variable {H : Type} {outside : Outside H} {p : Pid} {t t' : Sys H}

/-! ## The requests -/

/-- The requests whose acceptance queues an operation on one VM. -/
inductive VmRequest where
  | create (payload : CreateVMRequest)
  | power (vm : ℕ) (action : PowerAction)
  | delete (vm : ℕ) (confirmation : Confirmation)

def VmRequest.run (caller : Caller) : VmRequest → Action VMOperationResponse
  | .create payload => createVm caller payload
  | .power vm action => vmPower caller vm action
  | .delete vm confirmation => deleteVmRecord caller vm confirmation

/-- The request is accepted, and what it has queued is the operation. -/
structure Accepted (outside : Outside H) (p : Pid) (caller : Caller) (r : VmRequest)
    (t t' : Sys H) (row : DurableOperation) : Prop where
  accepted : ∃ response, Returns (machine outside) p (r.run caller) t response t' ∧
    response.operationId = row.id
  queued : t'.store.db.durableOperations.get? row.id = some row
  enqueued : t.store.db.durableOperations.get? row.id = none

/-- The assignment that admits the request of a student. -/
def VmRequest.assignment (db : Db) : VmRequest → Option LabAssignment
  | .create payload => payload.assignmentId.bind db.labAssignments.get?
  | .power vm _ => db.labAssignments.first fun a => a.studentVmId = some vm
  | .delete vm _ => db.labAssignments.first fun a => a.studentVmId = some vm

/-- The assignment that admits the request of a student is open. -/
def VmRequest.OpenAt (r : VmRequest) (db : Db) (now : Time) : Prop :=
  ∃ a run, r.assignment db = some a ∧ db.labRuns.get? a.labRunId = some run ∧
    assignmentEffectivelyOpen a run now = true

/-- The caller is a platform administrator, an administrator or owner of the organization, an
instructor who does not create a VM, or a student whose assignment is open. -/
def VmRequest.CarriedOut (r : VmRequest) (db : Db) (now : Time) (user : User)
    (role : OrganizationRole) : Prop :=
  getRoleName db user = some .admin ∨
    match role with
    | .student => r.OpenAt db now
    | .instructor => ∀ payload, r ≠ .create payload
    | .admin => True
    | .owner => True

/-! ## Until the commit -/

/-- Nothing but sequences, locks and random identifiers has moved. -/
structure Store.Quiet (s s' : Store) : Prop where
  clock : s'.clock = s.clock
  rules : s.db.SameRules s'.db
  rows : s.db.SameRows s'.db

/-- Nothing happening is quiet. -/
theorem Store.Quiet.refl (s : Store) : s.Quiet s := ⟨rfl, .refl s.db, .refl s.db⟩

/-- Two quiet parts are quiet together. -/
theorem Store.Quiet.trans {a b c : Store} (h : a.Quiet b) (h' : b.Quiet c) : a.Quiet c :=
  ⟨h'.clock.trans h.clock, h.rules.trans h'.rules, h.rows.trans h'.rows⟩

/-- A statement that commits no write is quiet. -/
theorem Store.Quiet.exec {q : Stmt} (hq : Commits (fun _ => False) q) (s : Store) :
    s.Quiet (s.exec p q) := by
  cases q with
  | commit ws =>
    cases ws with
    | cons w ws => exact (hq w List.mem_cons_self).elim
    | nil =>
      have hdb : s.afterCommit [] = some ⟨s.db, s.valid⟩ := by
        unfold Store.afterCommit
        simp [Db.applyAll, s.valid]
      rw [Store.exec_commit_some hdb]
      exact ⟨rfl, .refl s.db, .refl s.db⟩
  | draw sq => exact ⟨rfl, .draw s.db sq, .draw s.db sq⟩
  | _ => exact ⟨rfl, .refl s.db, .refl s.db⟩

/-- What commits no write leaves the rows and the clock alone. -/
theorem quiet_of_returns {α : Type} {R : α → Prop} {prog : Action α} {a : α}
    (hprog : Keeps (fun _ => False) (fun _ => True) R prog)
    (h : Returns (machine outside) p prog t a t') : t.store.Quiet t'.store := by
  have hpreserves : ∀ inv : Sys H → Prop,
      (∀ q u, Commits (fun _ => False) q → (machine outside).enabled p q u → inv u →
        inv ((machine outside).exec p q u)) →
      (∀ c u reply u', True → (machine outside).answer p c u reply u' → inv u → inv u') →
      inv t → inv t' := fun _ => Ends.preserves h hprog
  refine hpreserves (fun u => t.store.Quiet u.store) ?_ ?_ (.refl t.store)
  · intro q u hq _ hu
    exact hu.trans (.exec hq u.store)
  · rintro c u reply u' - ⟨hyper, -, rfl⟩ hu
    exact hu

/-- The operation that `enqueue_operation` returns was there, or it is inserted. -/
theorem returns_enqueueOperation_cases {r : EnqueueRequest} {result : DurableOperation × List Write}
    (h : Returns (machine outside) p (enqueueOperation r []) t result t') :
    (result.1 ∈ t.store.db.durableOperations.rows ∧ result.2 = []) ∨
      ∃ id key, result.1 = r.row id key t.store.clock ∧
        result.2 = [.operation (.insert result.1)] := by
  have hkeyed : ∀ (r : EnqueueRequest) (key : IdempotencyKey) (u : Sys H),
      r.idempotencyKey = some key →
      Returns (machine outside) p (enqueueOperation r []) u result t' →
      (result.1 ∈ u.store.db.durableOperations.rows ∧ result.2 = []) ∨
        ∃ id key, result.1 = r.row id key u.store.clock ∧
          result.2 = [.operation (.insert result.1)] := by
    intro r key u hkey h
    rcases returns_enqueueOperation hkey h with ⟨hfound, hnone, -⟩ | ⟨-, hrow, hinsert, -⟩
    · exact Or.inl ⟨(Table.first_some hfound).1, hnone⟩
    · exact Or.inr ⟨_, _, hrow, hinsert⟩
  cases hkey : r.idempotencyKey with
  | some key => exact hkeyed r key t hkey h
  | none =>
    unfold enqueueOperation at h
    rw [hkey] at h
    simp only [operationKey, bind_assoc, pure_bind, returns_stmt_bind] at h
    obtain ⟨-, h⟩ := h
    exact hkeyed { r with idempotencyKey := some (.uuid t.store.nonce) } (.uuid t.store.nonce)
      (t.after p .uuid) rfl h

/-! ## The commit -/

/-- Writes that are not of a table leave it alone. -/
theorem TableWrites.table_of_none {α : Type} {key : α → ℕ} (T : TableWrites α key)
    {ws : List Write} {db db' : Db} (hws : ∀ w ∈ ws, T.part w = none)
    (h : Db.applyAll ws db = some db') : T.table db' = T.table db := by
  have hchanges : T.changes ws = [] := by
    refine List.flatMap_eq_nil_iff.mpr fun w hw => ?_
    rw [hws w hw]
    rfl
  have hafter := T.applyAll_changes h
  rw [hchanges] at hafter
  exact (Option.some.inj hafter).symm

/-- What a commit inserts into the operations is there, where it updates none. -/
theorem Store.operation_inserted {s : Store} {ws : List Write} {row : DurableOperation}
    {db : { db : Db // db.Constraints }} (h : s.afterCommit ws = some db)
    (hrow : .operation (.insert row) ∈ ws)
    (hws : ∀ w, .operation w ∈ ws → ∃ inserted, w = .insert inserted) :
    db.1.durableOperations.get? row.id = some row := by
  obtain ⟨found, hfound, rfl⟩ := Write.ofOperations.row_of_insert (P := fun r => r = row)
    (Store.applyAll_of_afterCommit h) hrow rfl (by
      rintro w hw - r rfl
      obtain ⟨inserted, rfl⟩ := hws w hw
      rfl)
  exact hfound

/-- The row of an assignment that a commit links and writes no otherwise. -/
theorem Store.assignment_linked {s : Store} {ws : List Write}
    {db : { db : Db // db.Constraints }} {a : LabAssignment} {v : ℕ}
    (h : s.afterCommit ws = some db) (ha : s.db.labAssignments.get? a.id = some a)
    (hlink : .assignment (.link a.id v) ∈ ws)
    (hothers : ∀ w, .assignment w ∈ ws → w = .link a.id v) :
    db.1.labAssignments.get? a.id = some { a with studentVmId := some v } := by
  obtain ⟨found, hfound⟩ := Store.assignment_stays h ha
  have hthere : (s.db.labAssignments.get? a.id).isSome := by
    rw [ha]
    rfl
  have hlinked : found.studentVmId = some v := by
    refine Store.assignment_of_mem (P := fun r => r.studentVmId = some v) h hthere hlink
      (by rintro r ⟨⟩) rfl (fun r => rfl) ?_ found hfound
    intro w hw _ r _
    rw [hothers w hw]
    rfl
  have hsame : found = { a with studentVmId := found.studentVmId } := by
    refine Store.assignment_afterCommit (P := fun r => r = { a with studentVmId := r.studentVmId })
      h ?_ ?_ ?_ found hfound
    · intro r hr
      cases ha.symm.trans hr
      rfl
    · intro r _ hr _
      cases hothers _ hr
    · intro w hw _ r _ hr
      rw [hothers w hw, hr]
      rfl
  rw [hfound, hsame, hlinked]

/-- What `_queue_vm_action` has queued, and that it changes nothing else. -/
theorem returns_queueVmAction {vm : StudentVM} {user : User} {organization : OrganizationContext}
    {action : OperationType} {response : VMOperationResponse} {row : DurableOperation}
    (h : Returns (machine outside) p (queueVmAction vm user organization action) t response t')
    (hrow : t'.store.db.durableOperations.get? response.operationId = some row)
    (hnew : t.store.db.durableOperations.get? response.operationId = none) :
    t.store.db.SameRules t'.store.db ∧
      t'.store.db.labAssignments.rows = t.store.db.labAssignments.rows ∧
      t'.store.db.studentVms.rows = t.store.db.studentVms.rows ∧
      row.organizationId = some organization.id ∧ row.requestedBy = some user.id ∧
      row.target = .studentVm vm.id ∧ row.operationType = action := by
  unfold queueVmAction at h
  rw [returns_bind_iff] at h
  obtain ⟨⟨operation, queued⟩, u, henqueue, h⟩ := h
  rw [returns_commit_bind, returns_pure] at h
  obtain ⟨-, hcommit, rfl, rfl⟩ := h
  have hquiet : t.store.Quiet u.store :=
    quiet_of_returns (keeps_enqueueOperation _ _ (fun _ => True) (fun _ => trivial)
      fun _ _ => trivial) henqueue
  rcases returns_enqueueOperation_cases henqueue with ⟨hmem, -⟩ | ⟨id, key, hoperation, hqueued⟩
  · rw [Table.get?_of_mem hmem] at hnew
    cases hnew
  dsimp only at hoperation hqueued
  obtain ⟨db, hdb⟩ := Option.isSome_iff_exists.mp hcommit
  have hstore : (u.after p (.commit queued)).store.db = db.1 := by
    show (u.store.exec p (.commit queued)).db = db.1
    rw [Store.exec_commit_some hdb]
    rfl
  rw [hstore] at hrow ⊢
  rw [hqueued] at hdb
  have happly := Store.applyAll_of_afterCommit hdb
  have hinserted : db.1.durableOperations.get? operation.id = some operation := by
    refine Store.operation_inserted hdb (List.mem_singleton_self _) fun w hw => ?_
    have hw := List.mem_singleton.mp hw
    cases hw
    exact ⟨operation, rfl⟩
  obtain rfl : operation = row := Option.some.inj (hinserted.symm.trans hrow)
  refine ⟨hquiet.rules.trans (.applyAll (fun w hw => ?_) happly), ?_, ?_, ?_⟩
  · rw [List.mem_singleton.mp hw]
    rfl
  · have htable := Write.ofAssignments.table_of_none (fun w hw => by
      rw [List.mem_singleton.mp hw]
      rfl) happly
    exact (congrArg Table.rows htable).trans hquiet.rows.labAssignments
  · have htable := Write.ofVms.table_of_none (fun w hw => by
      rw [List.mem_singleton.mp hw]
      rfl) happly
    exact (congrArg Table.rows htable).trans hquiet.rows.studentVms
  · rw [hoperation]
    exact ⟨rfl, rfl, rfl, rfl⟩

/-- What the commit of `create_vm` leaves: the VM record, its operation, and the link of the
assignment. -/
structure Created (db db' : Db) (user : User) (organization : OrganizationContext)
    (assignment : Option LabAssignment) (row : DurableOperation) (vm : StudentVM) : Prop where
  rules : db.SameRules db'
  fresh : db.studentVms.get? vm.id = none
  record : db'.studentVms.get? vm.id = some vm
  organizationId : vm.organizationId = organization.id
  ownerId : vm.ownerId = user.id
  row_organizationId : row.organizationId = some organization.id
  row_requestedBy : row.requestedBy = some user.id
  row_target : row.target = .studentVm vm.id
  row_operationType : row.operationType = .create
  unlinked : assignment = none → db'.labAssignments.rows = db.labAssignments.rows
  linked : ∀ a, assignment = some a → db.labAssignments.get? a.id = some a →
    db'.labAssignments.get? a.id = some { a with studentVmId := some vm.id }

/-- The commit of `create_vm`, in whose transaction the rows of `db` were read. -/
theorem created_of_commit {s : Store} {db : Db} {after : { db : Db // db.Constraints }}
    {user : User} {organization : OrganizationContext} {assignment : Option LabAssignment}
    {row : DurableOperation} {vm : StudentVM} {allocated : List Write}
    (hrules : db.SameRules s.db) (hrows : db.SameRows s.db)
    (hallocated : ∀ w ∈ allocated, ∃ a, w = .allocator a)
    (h : s.afterCommit (allocated ++ [.vm (.insert vm)] ++ linkWrites assignment vm.id ++
      [.operation (.insert row)]) = some after)
    (hvm : vm.organizationId = organization.id ∧ vm.ownerId = user.id)
    (hrow : row.organizationId = some organization.id ∧ row.requestedBy = some user.id ∧
      row.target = .studentVm vm.id ∧ row.operationType = .create) :
    Created db after.1 user organization assignment row vm := by
  have happly := Store.applyAll_of_afterCommit h
  have hwrites : ∀ w ∈ allocated ++ [.vm (.insert vm)] ++ linkWrites assignment vm.id ++
      [.operation (.insert row)], (∃ a, w = .allocator a) ∨ w = .vm (.insert vm) ∨
        (∃ a, assignment = some a ∧ w = .assignment (.link a.id vm.id)) ∨
        w = .operation (.insert row) := by
    intro w hw
    simp only [List.mem_append, List.mem_singleton] at hw
    rcases hw with ((hw | hw) | hw) | hw
    · exact Or.inl (hallocated w hw)
    · exact Or.inr (Or.inl hw)
    · cases assignment with
      | none => cases hw
      | some a => exact Or.inr (Or.inr (Or.inl ⟨a, rfl, List.mem_singleton.mp hw⟩))
    · exact Or.inr (Or.inr (Or.inr hw))
  have hinsert : .vm (.insert vm) ∈ allocated ++ [.vm (.insert vm)] ++
      linkWrites assignment vm.id ++ [.operation (.insert row)] := by simp
  have hfresh := Store.vm_fresh h hinsert
  refine ⟨hrules.trans (.applyAll (fun w hw => ?_) happly), ?_, ?_, hvm.1, hvm.2, hrow.1, hrow.2.1,
    hrow.2.2.1, hrow.2.2.2, ?_, ?_⟩
  · rcases hwrites w hw with ⟨a, rfl⟩ | rfl | ⟨a, -, rfl⟩ | rfl <;> rfl
  · rw [← hrows.vm]
    exact hfresh
  · obtain ⟨found, hfound, rfl⟩ := Store.vm_inserted (P := fun r => r = vm) h hinsert
      (fun r hr _ => by
        rcases hwrites _ hr with ⟨a, ha⟩ | hr | ⟨a, -, ha⟩ | hr
        · cases ha
        · cases hr
          rfl
        · cases ha
        · cases hr)
      (by
        rintro w hw - r rfl
        rcases hwrites _ hw with ⟨a, ha⟩ | hw | ⟨a, -, ha⟩ | hw
        · cases ha
        · cases hw
          rfl
        · cases ha
        · cases hw)
    exact hfound
  · rintro rfl
    have htable := Write.ofAssignments.table_of_none (fun w hw => by
      rcases hwrites w hw with ⟨a, rfl⟩ | rfl | ⟨a, ha, -⟩ | rfl
      · rfl
      · rfl
      · cases ha
      · rfl) happly
    exact (congrArg Table.rows htable).trans hrows.labAssignments
  · rintro a rfl ha
    rw [← hrows.assignment] at ha
    have hlink : .assignment (.link a.id vm.id) ∈ allocated ++ [.vm (.insert vm)] ++
        linkWrites (some a) vm.id ++ [.operation (.insert row)] := by simp [linkWrites]
    have hothers : ∀ w, .assignment w ∈ allocated ++ [.vm (.insert vm)] ++
        linkWrites (some a) vm.id ++ [.operation (.insert row)] → w = .link a.id vm.id := by
      intro w hw
      rcases hwrites _ hw with ⟨b, hb⟩ | hw | ⟨b, hb, hw⟩ | hw
      · cases hb
      · cases hw
      · cases hb
        cases hw
        rfl
      · cases hw
    exact Store.assignment_linked h ha hlink hothers

/-! ## What `create_vm` has accepted -/

/-- The assignment that a student may provision, and what it was found by. -/
structure Provisioned (db : Db) (now : Time) (assignmentId : Option ℕ)
    (userId organizationId : ℕ) (a : LabAssignment) (run : LabRun) (lab : Lab) : Prop where
  requested : assignmentId = some a.id
  assignment : db.labAssignments.get? a.id = some a
  ofOrganization : a.organizationId = organizationId
  ofUser : a.userId = userId
  ofRun : runInOrganization db a.labRunId organizationId = some run
  opened : assignmentEffectivelyOpen a run now = true
  ofLab : labInOrganization db run.labId organizationId = some lab
  enrolled : (activeEnrollment db lab.classId userId).isSome = true

/-- An assignment that a creation finds is open, and the student's own. -/
theorem provisioned_of_returns {assignmentId : Option ℕ} {userId organizationId templateId : ℕ}
    {a : LabAssignment}
    (h : Returns (machine outside) p
      (assignmentForProvisioning assignmentId userId organizationId templateId) t a t') :
    ∃ run lab, Provisioned t.store.db t.store.clock assignmentId userId organizationId a run
      lab := by
  have hprovisionable : ∀ x y : LabAssignment, provisionable x templateId = .ok y → y = x := by
    intro x y h
    unfold provisionable at h
    split at h
    · cases h
    · split at h
      · cases h
      · cases h
        rfl
  unfold assignmentForProvisioning at h
  simp only [returns_orRaise_bind, returns_stmt_bind, returns_select_bind, returns_check,
    Option.filter_eq_some_iff] at h
  obtain ⟨id, rfl, -, row, hrow, run, ⟨hrun, hopen⟩, lab, ⟨hlab, henrolled⟩, hok, -⟩ := h
  obtain rfl := hprovisionable _ _ hok
  obtain ⟨hmem, hfound⟩ := Table.first_some hrow
  simp only [Bool.and_eq_true, decide_eq_true_eq] at hfound
  obtain ⟨⟨rfl, rfl⟩, rfl⟩ := hfound
  exact ⟨run, lab, rfl, Table.get?_of_mem hmem, rfl, rfl, hrun, hopen, hlab, henrolled⟩

/-- The second half of `create_vm`, where its first half was quiet. -/
theorem created_of_provisionVm {db : Db} {user : User} {organization : OrganizationContext}
    {payload : CreateVMRequest} {template : VMTemplate} {assignment : Option LabAssignment}
    {cluster : ProxmoxCluster} {node reason : String} {response : VMOperationResponse}
    {row : DurableOperation} (hrules : db.SameRules t.store.db) (hrows : db.SameRows t.store.db)
    (h : Returns (machine outside) p
      (provisionVm user organization payload template assignment cluster node reason) t response
      t')
    (hrow : t'.store.db.durableOperations.get? response.operationId = some row)
    (hnew : db.durableOperations.get? response.operationId = none) :
    ∃ vm, Created db t'.store.db user organization assignment row vm := by
  unfold provisionVm at h
  rw [returns_bind_iff] at h
  obtain ⟨⟨value, allocated⟩, t₁, hcall, h⟩ := h
  simp only [returns_draw_bind] at h
  rw [returns_bind_iff] at h
  obtain ⟨⟨operation, queued⟩, t₂, henqueue, h⟩ := h
  rw [returns_commit_bind, returns_pure] at h
  obtain ⟨-, hcommit, rfl, rfl⟩ := h
  have hallocator : Keeps (fun _ => False) (fun _ => True)
      (fun r : ℕ × List Write => ∀ w ∈ r.2, ∃ a, w = .allocator a) (allocateVmid cluster.id) :=
    keeps_allocateVmid cluster.id
  have hfirst : t.store.Quiet t₁.store := quiet_of_returns hallocator hcall
  have hdrawn : t.store.Quiet (t₁.after p (.draw .studentVms)).store :=
    hfirst.trans (.exec (p := p) (q := .draw .studentVms) trivial t₁.store)
  have hquiet : t.store.Quiet t₂.store :=
    hdrawn.trans (quiet_of_returns (keeps_enqueueOperation _ _ (fun _ => True) (fun _ => trivial)
      fun _ _ => trivial) henqueue)
  rcases returns_enqueueOperation_cases henqueue with ⟨hmem, -⟩ | ⟨id, key, hoperation, hqueued⟩
  · have hfound := Table.get?_of_mem hmem
    rw [(hrows.trans hdrawn.rows).operation] at hfound
    rw [hfound] at hnew
    cases hnew
  dsimp only at hoperation hqueued
  obtain ⟨after, hafter⟩ := Option.isSome_iff_exists.mp hcommit
  rw [Sys.after_store, Store.exec_commit_some hafter] at hrow ⊢
  rw [hqueued] at hafter
  have hallocated := Ends.ensures hcall hallocator
  have hinserted : after.1.durableOperations.get? operation.id = some operation := by
    refine Store.operation_inserted hafter (by simp) fun w hw => ?_
    simp only [List.mem_append, List.mem_singleton] at hw
    rcases hw with ((hw | hw) | hw) | hw
    · obtain ⟨a, ha⟩ := hallocated _ hw
      cases ha
    · cases hw
    · unfold linkWrites at hw
      split at hw
      · cases List.mem_singleton.mp hw
      · cases hw
    · cases hw
      exact ⟨operation, rfl⟩
  obtain rfl : operation = row := Option.some.inj (hinserted.symm.trans hrow)
  refine ⟨_, created_of_commit (hrules.trans hquiet.rules) (hrows.trans hquiet.rows) hallocated
    hafter ⟨rfl, rfl⟩ ?_⟩
  rw [hoperation]
  exact ⟨rfl, rfl, rfl, rfl⟩

/-- What `create_vm` has accepted: students provision an assignment, the other roles do not. -/
theorem created_of_createVm {caller : Caller} {payload : CreateVMRequest}
    {response : VMOperationResponse} {row : DurableOperation}
    (h : Returns (machine outside) p (createVm caller payload) t response t')
    (hrow : t'.store.db.durableOperations.get? response.operationId = some row)
    (hnew : t.store.db.durableOperations.get? response.operationId = none) :
    ∃ user organization assignment vm, currentUser t.store.db caller = .ok user ∧
      resolveOrganizationContext t.store.db user caller.organizationId = .ok organization ∧
      Created t.store.db t'.store.db user organization assignment row vm ∧
      (if organization.role = .student then ∃ a run lab, assignment = some a ∧
        Provisioned t.store.db t.store.clock payload.assignmentId user.id organization.id a run lab
      else assignment = none) := by
  unfold createVm at h
  simp only [returns_currentCaller_bind, returns_select_bind, returns_check_bind] at h
  obtain ⟨user, organization, huser, horganization, template, -, h⟩ := h
  rw [returns_bind_iff] at h
  obtain ⟨assignment, t₁, hrequested, h⟩ := h
  simp only [returns_select_bind, returns_check_bind] at h
  obtain ⟨cluster, -, h⟩ := h
  rw [returns_bind_iff] at h
  obtain ⟨⟨node, reason⟩, t₂, hplaced, h⟩ := h
  have hchecked := quiet_of_returns (keeps_requestedAssignment user organization payload template)
    hrequested
  have hplacing := quiet_of_returns (keeps_placeVm (fun _ _ => trivial) cluster template) hplaced
  have hquiet : t.store.Quiet t₂.store := hchecked.trans hplacing
  obtain ⟨vm, hcreated⟩ := created_of_provisionVm hquiet.rules hquiet.rows h hrow hnew
  refine ⟨user, organization, assignment, vm, huser, horganization, hcreated, ?_⟩
  unfold requestedAssignment at hrequested
  by_cases hrole : organization.role = .student
  · rw [if_pos hrole] at hrequested ⊢
    rw [returns_bind_iff] at hrequested
    obtain ⟨a, u, hassignment, hrequested⟩ := hrequested
    obtain ⟨rfl, -⟩ := returns_pure.mp hrequested
    obtain ⟨run, lab, hprovisioned⟩ := provisioned_of_returns hassignment
    exact ⟨a, run, lab, rfl, hprovisioned⟩
  · rw [if_neg hrole] at hrequested ⊢
    exact (returns_pure.mp hrequested).1.symm

/-! ## What the role admits -/

/-- Where the rows of an assignment are found and the lab does not forbid the operation, a student
is admitted as long as the assignment is open. -/
theorem enforce_isOk_iff {db : Db} {now : Time} {userId organizationId vmId : ℕ}
    {operation : VmAccess} {a : LabAssignment} {run : LabRun} {lab : Lab}
    (ha : (db.labAssignments.first fun a =>
      a.organizationId = organizationId && a.userId = userId && a.studentVmId = some vmId) =
        some a)
    (hrun : runInOrganization db a.labRunId organizationId = some run)
    (hlab : labInOrganization db run.labId organizationId = some lab)
    (henrolled : (activeEnrollment db lab.classId userId).isSome = true)
    (hforbids : labForbids lab operation = none) :
    (∃ access, enforceStudentVmOperation db now userId organizationId vmId operation =
      .ok access) ↔ assignmentEffectivelyOpen a run now = true := by
  have hactive : activeAssignmentForVm db now userId organizationId vmId =
      if assignmentEffectivelyOpen a run now = true then some (a, run, lab) else none := by
    unfold activeAssignmentForVm
    rw [ha]
    dsimp only [Option.bind_eq_bind, Option.bind_some]
    rw [hrun]
    dsimp only [Option.bind_some]
    by_cases hopen : assignmentEffectivelyOpen a run now = true
    · rw [if_pos hopen]
      simp [hopen, hlab, henrolled]
    · rw [if_neg hopen]
      simp [hopen]
  unfold enforceStudentVmOperation
  rw [hactive]
  by_cases hopen : assignmentEffectivelyOpen a run now = true
  · rw [if_pos hopen]
    dsimp only
    rw [hforbids]
    exact iff_of_true ⟨_, rfl⟩ hopen
  · rw [if_neg hopen]
    refine iff_of_false ?_ hopen
    rintro ⟨access, haccess⟩
    cases haccess

/-- A student is admitted through an open assignment of the VM. -/
theorem exists_of_enforce {db : Db} {now : Time} {userId organizationId vmId : ℕ}
    {operation : VmAccess} {access : LabAssignment × LabRun × Lab}
    (h : enforceStudentVmOperation db now userId organizationId vmId operation = .ok access) :
    ∃ a run lab, (db.labAssignments.first fun a => a.organizationId = organizationId &&
        a.userId = userId && a.studentVmId = some vmId) = some a ∧
      runInOrganization db a.labRunId organizationId = some run ∧
      labInOrganization db run.labId organizationId = some lab ∧
      (activeEnrollment db lab.classId userId).isSome = true ∧ labForbids lab operation = none := by
  obtain ⟨hactive, hforbids⟩ := enforceStudentVmOperation_ok h
  unfold activeAssignmentForVm at hactive
  obtain ⟨a, ha, hactive⟩ := Option.bind_eq_some_iff.mp hactive
  obtain ⟨run, hrun, hactive⟩ := Option.bind_eq_some_iff.mp hactive
  obtain ⟨_, -, hactive⟩ := Option.bind_eq_some_iff.mp hactive
  obtain ⟨lab, hlab, hactive⟩ := Option.bind_eq_some_iff.mp hactive
  obtain ⟨_, henrolled, hactive⟩ := Option.bind_eq_some_iff.mp hactive
  obtain rfl := Option.some.inj hactive
  refine ⟨a, run, lab, ha, hrun, hlab, ?_, hforbids⟩
  by_contra hnot
  rw [guard, if_neg hnot] at henrolled
  cases henrolled

/-- What an endpoint for one VM has accepted, and what it has queued. -/
structure QueuedOn (db db' : Db) (now : Time) (user : User) (organization : OrganizationContext)
    (vmId : ℕ) (operation : OperationType) (row : DurableOperation) (vm : StudentVM) : Prop where
  found : getVmForUser db now user vmId organization operation.access = .ok vm
  rules : db.SameRules db'
  labAssignments : db'.labAssignments.rows = db.labAssignments.rows
  studentVms : db'.studentVms.rows = db.studentVms.rows
  row_organizationId : row.organizationId = some organization.id
  row_requestedBy : row.requestedBy = some user.id
  row_target : row.target = .studentVm vm.id
  row_operationType : row.operationType = operation

/-- A power action that queues an operation was admitted to the VM. -/
theorem queuedOn_of_vmPower {caller : Caller} {vmId : ℕ} {action : PowerAction}
    {response : VMOperationResponse} {row : DurableOperation}
    (h : Returns (machine outside) p (vmPower caller vmId action) t response t')
    (hrow : t'.store.db.durableOperations.get? response.operationId = some row)
    (hnew : t.store.db.durableOperations.get? response.operationId = none) :
    ∃ user organization vm, currentUser t.store.db caller = .ok user ∧
      resolveOrganizationContext t.store.db user caller.organizationId = .ok organization ∧
      QueuedOn t.store.db t'.store.db t.store.clock user organization vmId (.power action) row
        vm := by
  unfold vmPower findVmForUser at h
  simp only [bind_assoc, returns_currentCaller_bind, returns_query_bind, returns_check_bind] at h
  obtain ⟨user, organization, huser, horganization, vm, hfound, h⟩ := h
  obtain ⟨hrules, hassignments, hvms, hqueued⟩ := returns_queueVmAction h hrow hnew
  exact ⟨user, organization, vm, huser, horganization, hfound, hrules, hassignments, hvms,
    hqueued.1, hqueued.2.1, hqueued.2.2.1, hqueued.2.2.2⟩

/-- A deletion that queues an operation was admitted to the VM. -/
theorem queuedOn_of_deleteVmRecord {caller : Caller} {vmId : ℕ} {confirmation : Confirmation}
    {response : VMOperationResponse} {row : DurableOperation}
    (h : Returns (machine outside) p (deleteVmRecord caller vmId confirmation) t response t')
    (hrow : t'.store.db.durableOperations.get? response.operationId = some row)
    (hnew : t.store.db.durableOperations.get? response.operationId = none) :
    ∃ user organization vm, currentUser t.store.db caller = .ok user ∧
      resolveOrganizationContext t.store.db user caller.organizationId = .ok organization ∧
      QueuedOn t.store.db t'.store.db t.store.clock user organization vmId .delete row vm := by
  unfold deleteVmRecord findVmForUser at h
  simp only [bind_assoc, returns_currentCaller_bind, returns_query_bind, returns_check_bind,
    returns_raiseIf_bind] at h
  obtain ⟨user, organization, huser, horganization, vm, hfound, -, h⟩ := h
  obtain ⟨hrules, hassignments, hvms, hqueued⟩ := returns_queueVmAction h hrow hnew
  exact ⟨user, organization, vm, huser, horganization, hfound, hrules, hassignments, hvms,
    hqueued.1, hqueued.2.1, hqueued.2.2.1, hqueued.2.2.2⟩

/-! ## What is carried out -/

/-- The assignment of a VM is the only one. -/
theorem first_of_linked {db : Db} (hvalid : db.Constraints) {a : LabAssignment} {v : ℕ}
    (ha : a ∈ db.labAssignments.rows) {q : LabAssignment → Bool} (hq : q a = true)
    (himplies : ∀ x, q x = true → x.studentVmId = some v) :
    db.labAssignments.first q = some a := by
  unfold Table.first
  refine (Table.find?_eq_some_iff_of_unique ?_ a).mpr ⟨ha, hq⟩
  intro x hx y hy hpx hpy
  refine hvalid.assignments_vm x hx y hy ?_ ?_
  · rw [himplies x hpx]
    exact Option.some_ne_none v
  · rw [himplies x hpx, himplies y hpy]

/-- What an endpoint for one VM has queued is carried out while the assignment of a student is
open. -/
theorem QueuedOn.neverRejected_iff {db db' : Db} (hvalid : db.Constraints) {clock now : Time}
    {caller : Caller} {user : User} {organization : OrganizationContext} {vmId : ℕ}
    {operation : OperationType} {row : DurableOperation} {vm : StudentVM} {r : VmRequest}
    (huser : currentUser db caller = .ok user)
    (horganization : resolveOrganizationContext db user caller.organizationId = .ok organization)
    (h : QueuedOn db db' clock user organization vmId operation row vm)
    (hr : r.assignment db = db.labAssignments.first fun a => a.studentVmId = some vmId)
    (hcreate : ∀ payload, r ≠ .create payload) :
    NeverRejected db' now row ↔ r.CarriedOut db now user organization.role := by
  obtain ⟨hmem, hscope⟩ := getVmForUser_ok h.found
  simp only [Bool.and_eq_true, decide_eq_true_eq] at hscope
  obtain ⟨rfl, hscope⟩ := hscope
  unfold vmInScope at hscope
  simp only [Bool.and_eq_true, decide_eq_true_eq] at hscope
  obtain ⟨⟨horg, -⟩, hrole⟩ := hscope
  have hacts : ActsAs db' user vm.organizationId organization.role := by
    rw [horg]
    exact (actsAs_of_resolve hvalid huser horganization).along h.rules
  have hvm : db'.studentVms.get? vm.id = some vm := by
    refine Table.get?_of_mem ?_
    rw [h.studentVms]
    exact hmem
  have hrow := h.row_organizationId
  rw [← horg] at hrow
  rw [LabGoblin.neverRejected_iff hacts hrow h.row_requestedBy h.row_target hvm,
    h.rules.getRoleName, h.row_operationType]
  unfold VmRequest.CarriedOut
  refine or_congr_right ?_
  cases hstudent : organization.role with
  | admin => exact iff_of_true trivial trivial
  | owner => exact iff_of_true trivial trivial
  | instructor =>
    rw [hstudent] at hrole
    have hglass : organization.breakGlass = false := by
      by_contra hglass
      rw [Bool.not_eq_false] at hglass
      have howner := resolveOrganizationContext_breakGlass horganization hglass
      rw [hstudent] at howner
      cases howner
    rw [hglass, Bool.false_or] at hrole
    refine iff_of_true ?_ hcreate
    unfold RoleAdmits
    rw [h.rules.teachesVm h.labAssignments, horg]
    exact hrole
  | student =>
    rw [hstudent] at hrole
    have howner : vm.ownerId = user.id := of_decide_eq_true hrole
    have haccess : ∃ access, enforceStudentVmOperation db clock user.id organization.id vm.id
        operation.access = .ok access := by
      have hfound := h.found
      unfold getVmForUser at hfound
      split at hfound
      · cases hfound
      · rename_i found _
        rw [if_pos hstudent] at hfound
        split at hfound
        · cases hfound
        · rename_i access haccess
          obtain rfl : found = vm := Except.ok.inj hfound
          exact ⟨access, haccess⟩
    obtain ⟨access, haccess⟩ := haccess
    obtain ⟨a, run, lab, ha, hrun, hlab, henrolled, hforbids⟩ := exists_of_enforce haccess
    obtain ⟨hamem, hacond⟩ := Table.first_some ha
    simp only [Bool.and_eq_true, decide_eq_true_eq] at hacond
    have hassignment : r.assignment db = some a := by
      rw [hr]
      exact first_of_linked hvalid hamem (decide_eq_true hacond.2)
        fun x hx => of_decide_eq_true hx
    have hopen : r.OpenAt db now ↔ assignmentEffectivelyOpen a run now = true := by
      have hrunRow := (runInOrganization_eq_some.mp hrun).1
      constructor
      · rintro ⟨a', run', ha', hrun', hopen⟩
        rw [hassignment] at ha'
        cases ha'
        rw [hrunRow] at hrun'
        cases hrun'
        exact hopen
      · exact fun hopen => ⟨a, run, hassignment, hrunRow, hopen⟩
    unfold RoleAdmits
    rw [h.rules.enforceStudentVmOperation h.labAssignments, horg, and_iff_right howner, hopen]
    exact enforce_isOk_iff ha hrun hlab henrolled hforbids

/-- A VM that an instructor has created is in no class. -/
theorem Created.not_teachesVm {db db' : Db} (hvalid : db.Constraints) {user : User}
    {organization : OrganizationContext} {row : DurableOperation} {vm : StudentVM}
    (h : Created db db' user organization none row vm) (userId organizationId : ℕ) :
    ¬teachesVm db' userId organizationId vm.id = true := by
  rw [h.rules.teachesVm (h.unlinked rfl)]
  unfold teachesVm
  intro hteaches
  obtain ⟨a, ha, hcond⟩ := List.any_eq_true.mp hteaches
  simp only [Bool.and_eq_true, decide_eq_true_eq] at hcond
  have hlinked := hvalid.assignments_linked a ha vm.id hcond.1.2
  rw [h.fresh] at hlinked
  cases hlinked

/-- The creation of a VM is carried out for a student while the assignment is open, and not for an
instructor. -/
theorem Created.neverRejected_iff {db db' : Db} (hvalid : db.Constraints)
    (hvalid' : db'.Constraints) {clock now : Time} {caller : Caller} {user : User}
    {organization : OrganizationContext} {payload : CreateVMRequest}
    {assignment : Option LabAssignment} {row : DurableOperation} {vm : StudentVM}
    (huser : currentUser db caller = .ok user)
    (horganization : resolveOrganizationContext db user caller.organizationId = .ok organization)
    (h : Created db db' user organization assignment row vm)
    (hassigned : if organization.role = .student then ∃ a run lab, assignment = some a ∧
      Provisioned db clock payload.assignmentId user.id organization.id a run lab
    else assignment = none) :
    NeverRejected db' now row ↔
      (VmRequest.create payload).CarriedOut db now user organization.role := by
  have hacts : ActsAs db' user vm.organizationId organization.role := by
    rw [h.organizationId]
    exact (actsAs_of_resolve hvalid huser horganization).along h.rules
  have hrow := h.row_organizationId
  rw [← h.organizationId] at hrow
  rw [LabGoblin.neverRejected_iff hacts hrow h.row_requestedBy h.row_target h.record,
    h.rules.getRoleName, h.row_operationType]
  unfold VmRequest.CarriedOut
  refine or_congr_right ?_
  cases hstudent : organization.role with
  | admin => exact iff_of_true trivial trivial
  | owner => exact iff_of_true trivial trivial
  | instructor =>
    rw [hstudent, if_neg (by decide)] at hassigned
    subst hassigned
    exact iff_of_false (h.not_teachesVm hvalid _ _) fun hnone => hnone payload rfl
  | student =>
    rw [if_pos hstudent] at hassigned
    obtain ⟨a, run, lab, rfl, hprovisioned⟩ := hassigned
    have hlinked := h.linked a rfl hprovisioned.assignment
    have hmem := Table.mem_of_get? hlinked
    have hfirst : (db'.labAssignments.first fun x => x.organizationId = organization.id &&
        x.userId = user.id && x.studentVmId = some vm.id) =
          some { a with studentVmId := some vm.id } := by
      refine first_of_linked (v := vm.id) hvalid' hmem ?_ ?_
      · simp [hprovisioned.ofOrganization, hprovisioned.ofUser]
      · intro x hx
        simp only [Bool.and_eq_true, decide_eq_true_eq] at hx
        exact hx.2
    have hrunRow := (runInOrganization_eq_some.mp hprovisioned.ofRun).1
    have hassignment : (VmRequest.create payload).assignment db = some a := by
      show payload.assignmentId.bind db.labAssignments.get? = some a
      rw [hprovisioned.requested]
      exact hprovisioned.assignment
    have hopen : (VmRequest.create payload).OpenAt db now ↔
        assignmentEffectivelyOpen a run now = true := by
      constructor
      · rintro ⟨a', run', ha', hrun', hopen⟩
        rw [hassignment] at ha'
        cases ha'
        rw [hrunRow] at hrun'
        cases hrun'
        exact hopen
      · exact fun hopen => ⟨a, run, hassignment, hrunRow, hopen⟩
    have hrun := hprovisioned.ofRun
    have hlab := hprovisioned.ofLab
    have henrolled := hprovisioned.enrolled
    rw [← h.rules.runInOrganization] at hrun
    rw [← h.rules.labInOrganization] at hlab
    rw [← h.rules.activeEnrollment] at henrolled
    unfold RoleAdmits
    rw [h.organizationId, and_iff_right h.ownerId, hopen]
    exact enforce_isOk_iff (a := { a with studentVmId := some vm.id }) hfirst hrun hlab henrolled
      rfl

/-- An accepted request is carried out whenever no row that decides has changed if and only if the
caller is no instructor who creates a VM and, for a student, the assignment is still open. -/
theorem accepted_carriedOut_iff {caller : Caller} {r : VmRequest} {row : DurableOperation}
    {user : User} {organization : OrganizationContext} {now : Time}
    (h : Accepted outside p caller r t t' row) (huser : currentUser t.store.db caller = .ok user)
    (horganization : resolveOrganizationContext t.store.db user caller.organizationId =
      .ok organization) :
    NeverRejected t'.store.db now row ↔
      r.CarriedOut t.store.db now user organization.role := by
  obtain ⟨response, hreturns, hid⟩ := h.accepted
  have hqueued := h.queued
  have hnew := h.enqueued
  rw [← hid] at hqueued hnew
  have hcaller : ∀ {user' organization'}, currentUser t.store.db caller = .ok user' →
      resolveOrganizationContext t.store.db user' caller.organizationId = .ok organization' →
        user' = user ∧ organization' = organization := by
    intro user' organization' huser' horganization'
    rw [huser] at huser'
    cases huser'
    rw [horganization] at horganization'
    cases horganization'
    exact ⟨rfl, rfl⟩
  cases r with
  | create payload =>
    obtain ⟨user', organization', assignment, vm, huser', horganization', hcreated, hassigned⟩ :=
      created_of_createVm hreturns hqueued hnew
    obtain ⟨rfl, rfl⟩ := hcaller huser' horganization'
    exact hcreated.neverRejected_iff t.store.valid t'.store.valid huser horganization hassigned
  | power vmId action =>
    obtain ⟨user', organization', vm, huser', horganization', hon⟩ :=
      queuedOn_of_vmPower hreturns hqueued hnew
    obtain ⟨rfl, rfl⟩ := hcaller huser' horganization'
    exact hon.neverRejected_iff t.store.valid huser horganization rfl (by simp)
  | delete vmId confirmation =>
    obtain ⟨user', organization', vm, huser', horganization', hon⟩ :=
      queuedOn_of_deleteVmRecord hreturns hqueued hnew
    obtain ⟨rfl, rfl⟩ := hcaller huser' horganization'
    exact hon.neverRejected_iff t.store.valid huser horganization rfl (by simp)

namespace Fixture

/-- Proxmox has the template on its node. -/
def templateListed : (c : Call) → Except Exc c.Reply
  | .discoverTemplates _ => .ok [⟨some "n", some 9000⟩]
  | _ => .error (.transport "")

/-- The state with the reply in its log. -/
def logReply (c : Call) (t : Sys Unit) : Sys Unit :=
  { t with log := .reply 0 c (templateListed c) :: .call 0 c t.store :: t.log }

/-- The worker rejects the creation that has been queued. -/
def rejected (response : VMOperationResponse) (t : Sys Unit) : Bool :=
  match t.store.db.durableOperations.get? response.operationId,
      t.store.db.studentVms.get? response.vmId with
  | some row, some vm =>
    row.id = response.operationId && row.target = .studentVm vm.id && vm.id = response.vmId &&
      match validateOperationAuthorization t.store.db t.store.clock row vm row.payload with
      | .error (.authorization _) => true
      | _ => false
  | _, _ => false

set_option maxRecDepth 100000 in
/-- The VM that an instructor creates is queued, and the operation is rejected. -/
theorem creation_rejected :
    ∃ t' row, Accepted anything 0 ⟨3, none⟩ (.create ⟨1, "l", true, none⟩)
      (start openStore).alone t' row ∧ ¬NeverRejected t'.store.db t'.store.clock row := by
  have h : (createVm ⟨3, none⟩ ⟨1, "l", true, none⟩).passesAnswered (machine anything) 0
      templateListed logReply (start openStore).alone rejected = true := by
    decide +kernel
  have hanswer : ∀ c t, (machine anything).answer 0 c t (templateListed c) (logReply c t) :=
    fun _ _ => ⟨(), trivial, rfl⟩
  obtain ⟨response, t', hreturns, hrejected⟩ := exists_returns_of_passesAnswered hanswer h
  unfold rejected at hrejected
  split at hrejected
  · rename_i row vm hrow hvm
    simp only [Bool.and_eq_true, decide_eq_true_eq] at hrejected
    obtain ⟨⟨⟨hid, htarget⟩, hvmId⟩, hrejected⟩ := hrejected
    refine ⟨t', row, ⟨⟨response, hreturns, hid.symm⟩, ?_, ?_⟩, ?_⟩
    · rw [hid]
      exact hrow
    · rfl
    · intro hnever
      rw [← hvmId] at hvm
      split at hrejected
      · rename_i message hvalidate
        exact hnever t'.store.db row vm row.payload message (.refl _ _) (.refl row) htarget hvm
          hvalidate
      · cases hrejected
  · cases hrejected

set_option maxRecDepth 100000 in
/-- The start that a student has been granted is carried out while the assignment is open. -/
theorem accepted_carriedOut_iff_start :
    ∃ t' row user, Accepted anything 0 ⟨2, none⟩ (.power 1 .start) (start readyStore).alone t'
      row ∧ ∀ now, NeverRejected t'.store.db now row ↔
        (VmRequest.power 1 .start).CarriedOut (start readyStore).store.db now user .student := by
  have h : (vmPower ⟨2, none⟩ 1 .start).passes (machine anything) 0 (start readyStore).alone
      (fun response t => (t.store.db.durableOperations.get? response.operationId).isSome) =
        true := by
    decide +kernel
  obtain ⟨response, t', hreturns, hqueued⟩ := exists_returns_of_passes h
  obtain ⟨row, hrow⟩ := Option.isSome_iff_exists.mp hqueued
  have hid : response.operationId = row.id := (Table.get?_key hrow).symm
  have haccepted : Accepted anything 0 ⟨2, none⟩ (.power 1 .start) (start readyStore).alone t'
      row := ⟨⟨response, hreturns, hid⟩, hid ▸ hrow, rfl⟩
  have huser : currentUser (start readyStore).alone.store.db ⟨2, none⟩ =
      .ok ⟨2, "s", "s@", 2, true, false⟩ := rfl
  have horganization : resolveOrganizationContext (start readyStore).alone.store.db
      ⟨2, "s", "s@", 2, true, false⟩ none = .ok ⟨1, "o", .student, false⟩ := rfl
  exact ⟨t', row, ⟨2, "s", "s@", 2, true, false⟩, haccepted, fun _ =>
    accepted_carriedOut_iff haccepted huser horganization⟩

end Fixture

end LabGoblin
