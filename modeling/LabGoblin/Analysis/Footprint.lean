import LabGoblin.Analysis.Execution

/-!
# What every request may do

A table with the writes and calls that each request may make. The modules that follow prove,
endpoint by endpoint, that the programs keep to it, whatever they read and whatever their
calls are answered.
-/

set_option autoImplicit false

namespace LabGoblin

open Interactive

/-! ## The table -/

/-- A write of `create_vm`. -/
def Write.ofCreateVm : Write → Prop
  | .allocator _ => True
  | .vm (.insert row) =>
      row.status = .provisioning ∧ row.deletedAt = none ∧ row.proxmoxClusterId ≠ none
  | .assignment (.link _ _) => True
  | .operation (.insert row) => Queued row ∧ row.operationType = .create
  | _ => False

/-- A write that queues an operation of a type, on one of the given VMs. -/
def Write.queues (type : OperationType) (onVm : ℕ → Prop) : Write → Prop
  | .operation (.insert row) =>
      Queued row ∧ row.operationType = type ∧ ∃ v, row.target = .studentVm v ∧ onVm v
  | _ => False

/-- A write of a status refresh. -/
def Write.ofRefresh : Write → Prop
  | .vm (.status _ _) => True
  | _ => False

/-- A write of a status refresh of one of the given VMs. -/
def Write.refreshes (vms : List ℕ) : Write → Prop
  | .vm (.status v _) => v ∈ vms
  | _ => False

/-- A write of `delete_app_record_admin`. -/
def Write.archives (vm : ℕ) : Write → Prop
  | .vm (.tombstone v _) => v = vm
  | .assignment (.unlink _ s) => s = none ∨ s = some .assigned
  | _ => False

/-- A write of `change_lab_run_state`. -/
def Write.closes : Write → Prop
  | .run (.transition _ _ _ _) => True
  | .assignment (.status _ s) => s = .expired ∨ s = .revoked
  | .operation (.insert row) => Queued row ∧ row.operationType = .delete
  | _ => False

/-- A write of `_create_assignment`. -/
def Write.assigns : Write → Prop
  | .assignment (.insert row) => row.status = .assigned ∧ row.studentVmId = none
  | .assignment (.reassign _ _ _) => True
  | _ => False

/-- A write of `create_setup` and `edit_setup`. -/
def Write.ofSetup : Write → Prop
  | .catalogue _ => True
  | .run (.insert _) => True
  | .run (.edit _ _ _ _ _ _ _) => True
  | .assignment (.status _ s) => s = .revoked
  | .assignment (.reschedule _ _ _) => True
  | w => w.assigns

/-- A write of the cleanup worker. -/
def Write.expires : Write → Prop
  | .assignment (.status _ s) => s = .expired
  | .operation (.insert row) => Queued row ∧ row.operationType = .delete
  | _ => False

/-- The writes that a request may make. What the operation worker writes depends on the
operation it has in hand. -/
def Request.mayWrite : Request → Write → Prop
  | .listVms _ => Write.ofRefresh
  | .createVm _ _ => Write.ofCreateVm
  | .vmPower _ vm action => Write.queues (.power action) (· = vm)
  | .refreshVmStatus _ _ => Write.ofRefresh
  | .deleteVmRecord _ vm _ => Write.queues .delete (· = vm)
  | .deleteAppRecordAdmin _ vm => Write.archives vm
  | .reconcileVms _ => Write.ofRefresh
  | .createLabRun _ _ => fun w => ∃ row, w = .run (.insert row)
  | .changeLabRunState _ _ _ _ => Write.closes
  | .createRunAssignment _ _ _ => Write.assigns
  | .bulkCreateRunAssignments _ _ _ => Write.assigns
  | .bulkVmAction _ _ action => fun w =>
      ∃ type, action.operationType = some type ∧ w.queues type fun _ => True
  | .revokeRunAssignment _ _ a => fun w => w = .assignment (.status a .revoked)
  | .createSetup _ _ => Write.ofSetup
  | .editSetup _ _ _ => Write.ofSetup
  | .operationWorker _ => fun _ => False
  | .cleanupWorker => Write.expires
  | .reconciliationWorker => Write.ofRefresh

/-- The request is a turn of the operation worker. -/
def Request.isWorker : Request → Bool
  | .operationWorker _ => true
  | _ => false

/-- A write that refreshes some records is one of a refresh. -/
theorem Write.refreshes.ofRefresh {vms : List ℕ} {w : Write} (h : w.refreshes vms) :
    w.ofRefresh := by
  cases w with
  | vm w =>
    cases w with
    | status v s => trivial
    | _ => exact h.elim
  | _ => exact h.elim

/-- What refreshes some records refreshes more. -/
theorem Write.refreshes.mono {vms vms' : List ℕ} {w : Write} (h : w.refreshes vms)
    (hsub : ∀ v ∈ vms, v ∈ vms') : w.refreshes vms' := by
  cases w with
  | vm w =>
    cases w with
    | status v s => exact hsub v h
    | _ => exact h.elim
  | _ => exact h.elim

/-- Only the operation worker makes calls that change a VM. -/
def Request.mayCall (r : Request) (c : Call) : Prop :=
  c.mutating = true → r.isWorker = true

/-! ## Callers and lookups -/

section Lookups

variable {W : Write → Prop} {K : Call → Prop}

/-- The check of the caller commits nothing. -/
theorem keeps_currentCaller (caller : Caller) :
    Keeps W K (fun _ => True) (currentCaller caller) := by
  unfold currentCaller
  simp

/-- The check for an instructor commits nothing. -/
theorem keeps_currentInstructor (caller : Caller) :
    Keeps W K (fun _ => True) (currentInstructor caller) := by
  unfold currentInstructor
  rw [keeps_bind]
  refine Keeps.mono (keeps_currentCaller caller) ?_
  intro a _
  simp

/-- The VM an endpoint finds is one that its query reads. -/
theorem getVmForUser_ok {db : Db} {now : Time} {user : User} {vmId : ℕ}
    {organization : OrganizationContext} {operation : VmAccess} {vm : StudentVM}
    (h : getVmForUser db now user vmId organization operation = .ok vm) :
    vm ∈ db.studentVms.rows ∧ (vm.id = vmId && vmInScope db user.id organization vm) = true := by
  unfold getVmForUser at h
  split at h
  · cases h
  · rename_i found hfound
    have hfirst := Table.first_some hfound
    split at h
    · split at h
      · cases h
      · cases h
        exact hfirst
    · cases h
      exact hfirst

/-- The run an endpoint finds is the one it was asked for. -/
theorem keeps_runForUser (runId : ℕ) (organization : OrganizationContext) (user : User)
    (lock : Bool) :
    Keeps W K (fun r => r.1.id = runId) (runForUser runId organization user lock) := by
  unfold runForUser
  rw [keeps_bind, keeps_run]
  refine ⟨by cases lock <;> trivial, fun s => ?_⟩
  simp only [keeps_bind, keeps_orRaise, keeps_select, keeps_check, keeps_pure]
  intro run hrun s' lab _
  have := (Table.first_some hrun).2
  simp only [Bool.and_eq_true, decide_eq_true_eq] at this
  exact this.1

end Lookups

end LabGoblin
