import LabGoblin.Analysis.FootprintProgram
import LabGoblin.Analysis.History
import LabGoblin.Analysis.Rules

/-!
# How the processes of the deployed system conduct themselves

The discipline that every run of the system keeps, whatever the interleaving, the crashes and
the answers of Proxmox. Every request keeps to the table. The operation worker updates an
operation only while it has it in hand, and what it writes and calls fits that operation. The
columns of an operation and of a VM record that identify their job never change, and rows
that are locked stay as they are.

The later modules start from `reach_conduct`: every run is a run whose steps all meet the
discipline, so they need not look into a program again.
-/

set_option autoImplicit false

namespace LabGoblin

open Interactive

/-! ## Rows that keep their identity -/

/-- Two states of the row of one operation: its job is the same. -/
structure DurableOperation.SameJob (o o' : DurableOperation) : Prop where
  id : o'.id = o.id
  organizationId : o'.organizationId = o.organizationId
  requestedBy : o'.requestedBy = o.requestedBy
  operationType : o'.operationType = o.operationType
  target : o'.target = o.target
  idempotencyKey : o'.idempotencyKey = o.idempotencyKey
  payload : o'.payload.Agrees o.payload

/-- Two states of the row of one VM record: it stands for the same VM. -/
structure StudentVM.SameRecord (v v' : StudentVM) : Prop where
  id : v'.id = v.id
  organizationId : v'.organizationId = v.organizationId
  proxmoxClusterId : v'.proxmoxClusterId = v.proxmoxClusterId
  ownerId : v'.ownerId = v.ownerId
  templateId : v'.templateId = v.templateId
  vmName : v'.vmName = v.vmName
  vmid : v'.vmid = v.vmid
  proxmoxNode : v'.proxmoxNode = v.proxmoxNode

/-- An operation has its own job. -/
theorem DurableOperation.SameJob.refl (o : DurableOperation) : o.SameJob o :=
  ⟨rfl, rfl, rfl, rfl, rfl, rfl, rfl⟩

/-- Having the same job is transitive. -/
theorem DurableOperation.SameJob.trans {a b c : DurableOperation} (h : a.SameJob b)
    (h' : b.SameJob c) : a.SameJob c :=
  ⟨h'.id.trans h.id, h'.organizationId.trans h.organizationId,
    h'.requestedBy.trans h.requestedBy, h'.operationType.trans h.operationType,
    h'.target.trans h.target, h'.idempotencyKey.trans h.idempotencyKey,
    h'.payload.trans h.payload⟩

/-- A record is the same as itself. -/
theorem StudentVM.SameRecord.refl (v : StudentVM) : v.SameRecord v :=
  ⟨rfl, rfl, rfl, rfl, rfl, rfl, rfl, rfl⟩

/-- Being the same record is transitive. -/
theorem StudentVM.SameRecord.trans {a b c : StudentVM} (h : a.SameRecord b)
    (h' : b.SameRecord c) : a.SameRecord c :=
  ⟨h'.id.trans h.id, h'.organizationId.trans h.organizationId,
    h'.proxmoxClusterId.trans h.proxmoxClusterId, h'.ownerId.trans h.ownerId,
    h'.templateId.trans h.templateId, h'.vmName.trans h.vmName, h'.vmid.trans h.vmid,
    h'.proxmoxNode.trans h.proxmoxNode⟩

/-- No write gives a VM record another VM. -/
theorem VmWrite.onRow_sameRecord (w : VmWrite) (v : StudentVM) : v.SameRecord (w.onRow v) := by
  cases w <;> exact ⟨rfl, rfl, rfl, rfl, rfl, rfl, rfl, rfl⟩

/-- A write keeps the job of an operation, if a checkpoint keeps its payload but the phase. -/
theorem OperationWrite.onRow_sameJob {w : OperationWrite} {o o' : DurableOperation}
    (h : o.SameJob o')
    (hw : ∀ i upid payload lease, w = .checkpoint i upid (some payload) lease →
      payload.Agrees o.payload) : o.SameJob (w.onRow o') := by
  obtain ⟨h1, h2, h3, h4, h5, h6, h7⟩ := h
  cases w with
  | checkpoint i upid payload lease =>
    cases payload with
    | none => exact ⟨h1, h2, h3, h4, h5, h6, h7⟩
    | some payload => exact ⟨h1, h2, h3, h4, h5, h6, hw i upid payload lease rfl⟩
  | _ => exact ⟨h1, h2, h3, h4, h5, h6, h7⟩

/-! ## What a process has in hand -/

section Hand

variable {H : Type}

/-- The process has claimed the operation, and not finished it. -/
def Executes (p : Pid) (row : DurableOperation) (t : Sys H) : Prop :=
  inHand p t.log = some row.id ∧
    ∃ cur, t.store.db.durableOperations.get? row.id = some cur ∧ row.SameJob cur

/-- The VM record that was loaded stands for the VM that its row stands for. -/
def OnRecord (vm : StudentVM) (t : Sys H) : Prop :=
  ∃ cur, t.store.db.studentVms.get? vm.id = some cur ∧ vm.SameRecord cur

/-- A write of the operation worker, as part of a commit, with what it has in hand. A claim is
the only write of its commit. -/
def Write.ByWorker (p : Pid) (t : Sys H) (ws : List Write) : Write → Prop
  | .operation (.insert _) => False
  | .operation (.claim o owner lease started attempts) =>
      (∃ cur, t.store.db.durableOperations.get? o = some cur ∧ cur.state.terminal = false) ∧
        ws = [.operation (.claim o owner lease started attempts)]
  | .operation (.checkpoint o _ payload _) =>
      ∃ row, Executes p row t ∧ row.id = o ∧ ∀ q, payload = some q → q.Agrees row.payload
  | .operation w => inHand p t.log = some w.target
  | .vm (.status v _) =>
      ∃ row, Executes p row t ∧ row.target = .studentVm v ∧ row.operationType ≠ .delete
  | .vm (.tombstone v _) =>
      ∃ row, Executes p row t ∧ row.target = .studentVm v ∧ row.operationType = .delete
  | .assignment (.status _ s) =>
      ∃ row, Executes p row t ∧ row.operationType = .create ∧ s = .ready
  | .assignment (.unlink _ s) =>
      ∃ row, Executes p row t ∧ row.operationType = .delete ∧
        (s = none ∨ s = some (if row.payload.expirationCleanup = some true then .expired
          else .assigned))
  | _ => False

/-- The requests that write about VM records they have found. -/
def Request.searches : Request → Bool
  | .listVms _ => true
  | .vmPower _ _ _ => true
  | .refreshVmStatus _ _ => true
  | .deleteVmRecord _ _ _ => true
  | .bulkVmAction _ _ _ => true
  | .reconcileVms _ => true
  | .reconciliationWorker => true
  | _ => false

/-- The process read the assignment of the VM before it last asked for the time, and unlinks
it with the status that follows from what it read. -/
def ReadBefore (p : Pid) (t : Sys H) (vm a : ℕ) (status : Option AssignmentStatus) : Prop :=
  ∃ s₂ s₁ rest row, entriesOf p t.log =
      .stmt p (.select .rows) s₂ :: .stmt p (.select .rows) s₁ :: rest ∧
    assignmentOfVm s₁.db vm = some row ∧ row.id = a ∧
    status = if row.status = .ready then some .assigned else none

/-- What a write of an endpoint rests on: the records that the process has found, the
assignment that it read, or the VM record that the same commit inserts. -/
def Write.Grounded (r : Request) (p : Pid) (t : Sys H) (ws : List Write) : Write → Prop
  | .vm (.status v _) => v ∈ foundVms p t.log
  | .operation (.insert row) =>
      (r.searches = true → ∀ v, row.target = .studentVm v → v ∈ foundVms p t.log) ∧
        (row.operationType = .create →
          ∃ vm, .vm (.insert vm) ∈ ws ∧ row.target = .studentVm vm.id)
  | .assignment (.link _ v) => ∃ vm, .vm (.insert vm) ∈ ws ∧ vm.id = v
  | .assignment (.unlink a s) => ∃ caller vm, r = .deleteAppRecordAdmin caller vm ∧
      ReadBefore p t vm a s
  | _ => True

/-- A write that the process may make in its request, as part of a commit. -/
def Request.conducts (r : Request) (p : Pid) (t : Sys H) (ws : List Write) (w : Write) : Prop :=
  if r.isWorker = true then w.ByWorker p t ws else r.mayWrite w ∧ w.Grounded r p t ws

/-- The mutating calls that an operation of the type makes. -/
def Call.Suits (type : OperationType) : Call → Prop
  | .cloneVm _ _ _ _ _ => type = .create
  | .vmAction _ action _ _ =>
      type = .power action ∨ (type = .create ∧ action = .start) ∨ (type = .delete ∧ action = .stop)
  | .deleteVm _ _ _ => type = .delete
  | _ => True

/-- A mutating call is made for the operation in hand, on the VM it targets, right after
the process's own successful validation. -/
def Call.Conducted (p : Pid) (t : Sys H) (c : Call) : Prop :=
  ∃ row vm payload s rest, Executes p row t ∧ OnRecord vm t ∧ row.target = .studentVm vm.id ∧
    c.Addresses vm ∧ c.Suits row.operationType ∧
    entriesOf p t.log = Entry.stmt p (.authorize row vm payload) s :: rest ∧
    validateOperationAuthorization s.db s.clock row vm payload = .ok ()

/-- What a process relies on: the others make no entries in its name, no operation or VM
record changes its identity, and what it has locked stays locked and unchanged. -/
structure Rely (p : Pid) (t t' : Sys H) : Prop where
  log : t.log <:+ t'.log
  entries : entriesOf p t'.log = entriesOf p t.log
  operations : ∀ i o, t.store.db.durableOperations.get? i = some o →
    ∃ o', t'.store.db.durableOperations.get? i = some o' ∧ o.SameJob o'
  vms : ∀ i v, t.store.db.studentVms.get? i = some v →
    ∃ v', t'.store.db.studentVms.get? i = some v' ∧ v.SameRecord v'
  locks : ∀ l, (l, p) ∈ t.store.locks → (l, p) ∈ t'.store.locks
  locked : ∀ i, (.durableOperation i, p) ∈ t.store.locks →
    t'.store.db.durableOperations.get? i = t.store.db.durableOperations.get? i

/-- A process may rely on nothing having happened. -/
theorem Rely.refl (p : Pid) (t : Sys H) : Rely p t t where
  log := List.suffix_refl _
  entries := rfl
  operations := fun _ o h => ⟨o, h, .refl o⟩
  vms := fun _ v h => ⟨v, h, .refl v⟩
  locks := fun _ h => h
  locked := fun _ _ => rfl

/-- What a process relies on from step to step it may rely on over both. -/
theorem Rely.trans {p : Pid} {a b c : Sys H} (h : Rely p a b) (h' : Rely p b c) : Rely p a c where
  log := h.log.trans h'.log
  entries := h'.entries.trans h.entries
  operations := by
    intro i o ho
    obtain ⟨o', ho', hsame⟩ := h.operations i o ho
    obtain ⟨o'', ho'', hsame'⟩ := h'.operations i o' ho'
    exact ⟨o'', ho'', hsame.trans hsame'⟩
  vms := by
    intro i v hv
    obtain ⟨v', hv', hsame⟩ := h.vms i v hv
    obtain ⟨v'', hv'', hsame'⟩ := h'.vms i v' hv'
    exact ⟨v'', hv'', hsame.trans hsame'⟩
  locks := fun l hl => h'.locks l (h.locks l hl)
  locked := by
    intro i hi
    rw [h'.locked i (h.locks _ hi), h.locked i hi]

/-- Other processes leave what a process has in hand. -/
theorem Rely.inHand {p : Pid} {t t' : Sys H} (h : Rely p t t') :
    inHand p t'.log = inHand p t.log := by
  unfold LabGoblin.inHand
  rw [h.entries]

/-- What a process has in hand stays in hand, whatever the others do. -/
theorem Rely.executes {p : Pid} {row : DurableOperation} {t t' : Sys H} (h : Rely p t t')
    (he : Executes p row t) : Executes p row t' := by
  obtain ⟨hhand, cur, hcur, hsame⟩ := he
  obtain ⟨cur', hcur', hsame'⟩ := h.operations _ _ hcur
  exact ⟨h.inHand.trans hhand, cur', hcur', hsame.trans hsame'⟩

/-- A record that the VM was loaded from stays there. -/
theorem Rely.onRecord {p : Pid} {vm : StudentVM} {t t' : Sys H} (h : Rely p t t')
    (hr : OnRecord vm t) : OnRecord vm t' := by
  obtain ⟨cur, hcur, hsame⟩ := hr
  obtain ⟨cur', hcur', hsame'⟩ := h.vms _ _ hcur
  exact ⟨cur', hcur', hsame.trans hsame'⟩

end Hand

/-! ## The discipline -/

section Discipline

variable {H : Type}

/-- Every entry is in the name of a process that was started, and each process serves one
request. -/
structure WellLogged (log : List Entry) : Prop where
  fresh : ∀ e ∈ log, e.pid < started log
  request : ∀ p r r', Entry.enter p r ∈ log → Entry.enter p r' ∈ log → r = r'

/-- The process was started for a request, and has not ended. -/
def Present (p : Pid) (t : Sys H) : Prop :=
  (∃ r, Entry.enter p r ∈ t.log) ∧ ¬ Ended p t.log

/-- The writes of a statement are conducted. -/
def Stmt.Conducted (p : Pid) (q : Stmt) (t : Sys H) : Prop :=
  ∃ r, Entry.enter p r ∈ t.log ∧ ∀ ws, q = .commit ws → ∀ w ∈ ws, r.conducts p t ws w

/-- The discipline of the deployed system. -/
def conduct (settings : Settings) (outside : Outside H) : Discipline Api (Sys H) Request where
  sys := system settings outside
  inv := fun t => WellLogged t.log
  present := Present
  rely := Rely
  allowsStmt := fun p q t => Stmt.Conducted p q t
  allowsCall := fun p c t => c.mutating = true → c.Conducted p t

end Discipline

end LabGoblin
