import LabGoblin.Analysis.Keeps

/-!
# The execution of an operation

What `execute_operation` keeps to, once for all operation types and resume points. Its parts
that submit nothing are described by `Keeps`. The rest is parametric: any assertion that a
contract tolerates, and that every guarded submission maintains, is maintained by the whole
execution, and the outcome it hands to the final commit writes only what its operation type
may write.
-/

set_option autoImplicit false

namespace LabGoblin

open Interactive

/-- Two payloads that differ at most in the recorded phase. -/
def Payload.Agrees (p q : Payload) : Prop :=
  { p with phase := none } = { q with phase := none }

/-- A payload agrees with itself. -/
theorem Payload.Agrees.refl (p : Payload) : p.Agrees p := rfl

/-- The call is one on the VM that the record stands for. -/
def Call.Addresses (vm : StudentVM) : Call → Prop
  | .cloneVm cluster node _ newid name =>
      cluster = vm.proxmoxClusterId ∧ node = vm.proxmoxNode ∧ newid = vm.vmid ∧ name = vm.vmName
  | .vmAction cluster _ node vmid =>
      cluster = vm.proxmoxClusterId ∧ node = vm.proxmoxNode ∧ vmid = vm.vmid
  | .deleteVm cluster node vmid =>
      cluster = vm.proxmoxClusterId ∧ node = vm.proxmoxNode ∧ vmid = vm.vmid
  | _ => False

/-- A write of the commits that an execution of an operation on the VM record `v` makes before
its final one. -/
def Write.Progress (row : DurableOperation) (v : ℕ) : Write → Prop
  | .operation (.renewLease o _) => o = row.id
  | .operation (.checkpoint o _ payload _) =>
      o = row.id ∧ ∀ q, payload = some q → q.Agrees row.payload
  | .vm (.status v' _) => v' = v ∧ row.operationType = .create
  | _ => False

/-- A write of the outcome of an operation, next to its completion. -/
def Write.Outcome (row : DurableOperation) (v : ℕ) : Write → Prop
  | .vm (.status v' _) => v' = v ∧ row.operationType ≠ .delete
  | .vm (.tombstone v' _) => v' = v ∧ row.operationType = .delete
  | .assignment (.status _ s) => s = .ready ∧ row.operationType = .create
  | .assignment (.unlink _ s) => row.operationType = .delete ∧
      (s = none ∨ s = some (if row.payload.expirationCleanup = some true then .expired
        else .assigned))
  | _ => False

/-! ## The parts that submit nothing -/

section Static

variable {W : Write → Prop} {K : Call → Prop} {job : Job}

/-- Reading the operation again submits nothing. -/
theorem keeps_reloadOperation (id : ℕ) : Keeps W K (fun _ => True) (reloadOperation id) := by
  unfold reloadOperation
  simp

/-- The validator only reads. -/
theorem keeps_authorize (row : DurableOperation) (vm : StudentVM) (payload : Payload) :
    Keeps W K (fun _ => True) (authorize row vm payload) := by
  unfold authorize
  rw [keeps_bind, keeps_run]
  refine ⟨trivial, fun s => ?_⟩
  rw [keeps_check]
  intro _ _
  trivial

/-- Loading the VM record submits nothing, and finds only the record of that id. -/
theorem keeps_loadVm (id : ℕ) :
    Keeps W K (fun vm => ∀ row, vm = some row → row.id = id) (loadVm id) :=
  ⟨trivial, fun _ _ h => Table.get?_key h⟩

/-- Reading the VM record again submits nothing. -/
theorem keeps_reloadVm (id : ℕ) : Keeps W K (fun vm => vm.id = id) (reloadVm id) := by
  unfold reloadVm
  rw [keeps_bind]
  refine Keeps.mono (keeps_loadVm id) ?_
  intro vm h
  rw [keeps_orRaise]
  exact h

/-- Reading the body of a reply submits nothing. -/
theorem keeps_getData (body : Body) : Keeps W K (fun _ => True) body.getData := by
  cases body <;> exact trivial

/-- The writes of a status assignment concern the record that was loaded. -/
theorem mem_statusWrites {vm : StudentVM} {status : VmStatus} {w : Write}
    (h : w ∈ statusWrites vm status) : w = .vm (.status vm.id status) := by
  unfold statusWrites at h
  split at h
  · cases h
  · exact List.mem_singleton.mp h

/-- The renewal of the lease writes the lease and submits nothing. -/
theorem keeps_renewLease (settings : Settings) {operation : ℕ}
    (hW : ∀ lease, W (.operation (.renewLease operation lease))) :
    Keeps W K (fun _ => True) (renewLease settings operation) := by
  unfold renewLease
  simp only [keeps_bind, keeps_utcnow, keeps_commit]
  refine fun s => ⟨?_, fun _ => trivial⟩
  intro w hw
  rw [List.mem_singleton.mp hw]
  exact hW _

/-- A look into the inventory is one request. -/
theorem keeps_vmExists {job : Job} (h : K (.vmResources job.vm.proxmoxClusterId)) :
    Keeps W K (fun _ => True) job.vmExists := by
  unfold Job.vmExists
  rw [keeps_bind, keeps_await]
  refine ⟨h, fun response => ?_⟩
  rw [keeps_bind, keeps_check]
  exact fun _ _ => trivial

section Calls

variable (hK : ∀ c : Call, c.mutating = false → K c)
include hK

/-- Making a client for the cluster changes nothing at the cluster. -/
theorem keeps_client (cluster : Option ℕ) : Keeps W K (fun _ => True) (await (.client cluster)) :=
  (keeps_await _ _).mpr ⟨hK _ rfl, fun _ => trivial⟩

/-- Asking for the status of a VM changes nothing. -/
theorem keeps_getVmStatus (job : Job) : Keeps W K (fun _ => True) job.getVmStatus :=
  (keeps_await _ _).mpr ⟨hK _ rfl, fun _ => trivial⟩

/-- Asking for a task, however often, changes nothing. -/
theorem keeps_fetchTask (job : Job) (upid : Upid) (attempts : ℕ) :
    Keeps W K (fun _ => True) (fetchTask job upid attempts) := by
  induction attempts with
  | zero => exact trivial
  | succ n ih =>
    unfold fetchTask
    refine Keeps.guarded ?_ ?_
    · exact (keeps_await _ _).mpr ⟨hK _ rfl, fun _ => trivial⟩
    · intro e
      split
      · split
        · exact trivial
        · exact ih
      · exact trivial

/-- The check that a VM is gone changes nothing. -/
theorem keeps_verifyAbsent (job : Job) : Keeps W K (fun _ => True) (verifyAbsent job) := by
  unfold verifyAbsent
  refine Keeps.guarded ?_ ?_
  · rw [keeps_bind]
    refine Keeps.mono (keeps_getVmStatus hK job) ?_
    intro _ _
    exact trivial
  · intro e
    split <;> exact trivial

end Calls

section Commits

variable (hW : ∀ w : Write, w.Progress job.row job.vm.id → W w)
include hW

/-- Recording a task writes progress and submits nothing. -/
theorem keeps_persistTask (data : Option String) (payload : Option Payload)
    (pending : List Write) (hpayload : ∀ q, payload = some q → q.Agrees job.row.payload)
    (hpending : ∀ w ∈ pending, w.Progress job.row job.vm.id) :
    Keeps W K (fun _ => True) (persistTask job data payload pending) := by
  unfold persistTask
  simp only [keeps_bind, keeps_utcnow, keeps_commit]
  intro s
  refine ⟨?_, fun _ => ?_⟩
  · intro w hw
    rcases List.mem_append.mp hw with hw | hw
    · exact hW w (hpending w hw)
    · rw [List.mem_singleton.mp hw]
      exact hW _ ⟨rfl, hpayload⟩
  · exact Keeps.mono (keeps_reloadOperation _) fun _ _ => trivial

variable (hK : ∀ c : Call, c.mutating = false → K c)
include hK

/-- The poll loop, by induction on the rounds that are left. -/
theorem keeps_pollTask (upid : Upid) (allowWarnings : Bool) (rounds : ℕ) :
    Keeps W K (fun _ => True) (pollTask job upid allowWarnings rounds) := by
  induction rounds with
  | zero => exact trivial
  | succ n ih =>
    unfold pollTask
    rw [keeps_bind]
    refine Keeps.mono (keeps_fetchTask hK job upid 3) ?_
    intro task _
    split
    · split <;> exact trivial
    · rw [keeps_bind]
      refine Keeps.mono (keeps_renewLease job.settings fun lease => hW _ rfl) ?_
      intro _ _
      split
      · exact trivial
      · exact ih

/-- Waiting for a task writes progress and submits nothing. -/
theorem keeps_waitForTask (phase : Option Phase) (upid : Upid) (timeout : ℕ) :
    Keeps W K (fun _ => True) (waitForTask job phase upid timeout) := by
  unfold waitForTask
  rw [keeps_bind]
  refine Keeps.mono (keeps_pollTask hW hK upid _ _) ?_
  intro exitstatus _
  cases exitstatus <;> exact trivial

/-- A stop is observed, its checkpoint cleared, and only the phase of the payload changed. -/
theorem keeps_observeStopped (payload : Payload) (hp : payload.Agrees job.row.payload) :
    Keeps W K (fun p => p.Agrees job.row.payload) (observeStopped job payload) := by
  unfold observeStopped
  rw [keeps_bind]
  refine Keeps.mono (keeps_getVmStatus hK job) ?_
  intro stopped _
  simp only [keeps_bind, keeps_raiseIf]
  intro _
  refine Keeps.mono (keeps_persistTask hW _ _ _ ?_ (by simp)) ?_
  · intro q hq
    cases hq
    exact hp
  · intro _ _
    exact hp

/-- Resuming a deletion at its recorded task submits nothing, and changes at most the phase in the
payload. -/
theorem keeps_resumeDelete (payload : Payload) (hp : payload.Agrees job.row.payload) :
    Keeps W K (fun p => p.Agrees job.row.payload) (resumeDelete job payload) := by
  unfold resumeDelete
  split
  · rw [keeps_bind]
    refine Keeps.mono (keeps_waitForTask hW hK _ _ _) ?_
    intro _ _
    exact keeps_observeStopped hW hK payload hp
  · rw [keeps_bind]
    refine Keeps.mono (keeps_waitForTask hW hK _ _ _) ?_
    intro _ _
    exact hp
  · exact hp

end Commits

end Static

/-! ## The whole execution -/

section Execution

variable {τ : Type} {C : Contract Api τ} {J : τ → Prop} {W : Write → Prop}
  {K : Call → Prop} {job : Job}

/-- Every guarded submission of the execution maintains the assertion. -/
structure Submissions (C : Contract Api τ) (J : τ → Prop) (job : Job) : Prop where
  clone : ∀ payload template, payload.Agrees job.row.payload → job.row.operationType = .create →
    Maintains C J (fun _ => True) (job.submitClone payload template)
  start : ∀ payload, payload.Agrees job.row.payload → job.row.operationType = .create →
    Maintains C J (fun _ => True) (job.submitAction payload .start)
  power : ∀ payload action, payload.Agrees job.row.payload →
    job.row.operationType = .power action →
    Maintains C J (fun _ => True) (job.submitAction payload action)
  stop : ∀ payload, payload.Agrees job.row.payload → job.row.operationType = .delete →
    Maintains C J (fun _ => True) (job.submitAction payload .stop)
  delete : ∀ payload, payload.Agrees job.row.payload → job.row.operationType = .delete →
    Maintains C J (fun _ => True) (job.submitDelete payload)

/-- What a contract must tolerate of an execution besides its submissions. -/
structure Hosts (C : Contract Api τ) (J : τ → Prop) (W : Write → Prop)
    (K : Call → Prop) (job : Job) : Prop where
  tolerates : C.Tolerates J (Commits W) K
  progress : ∀ w : Write, w.Progress job.row job.vm.id → W w
  calls : ∀ c : Call, c.mutating = false → K c
  submissions : Submissions C J job

variable (h : Hosts C J W K job)
include h

/-- An action that only keeps to tolerated statements and calls. -/
theorem Hosts.maintains {α : Type} {R : α → Prop} {p : Action α} (hp : Keeps W K R p) :
    Maintains C J R p :=
  Maintains.of_ensures h.tolerates hp

/-- Unpacking a value, or raising, maintains the assertion. -/
theorem Hosts.maintains_of_true {α : Type} {R : α → Prop} (hR : ∀ a, R a) (x : Option α) (e : Exc) :
    Maintains C J R (orRaise x e) :=
  h.maintains ((keeps_orRaise x e R).mpr fun a _ => hR a)

/-- Recording a task maintains the assertion. -/
theorem Hosts.maintains_persistTask (data : Option String) (payload : Payload)
    (pending : List Write) (hpayload : payload.Agrees job.row.payload)
    (hpending : ∀ w ∈ pending, w.Progress job.row job.vm.id) :
    Maintains C J (fun _ => True) (persistTask job data (some payload) pending) := by
  refine h.maintains (keeps_persistTask h.progress data _ pending ?_ hpending)
  intro q hq
  cases hq
  exact hpayload

/-- Waiting for a task maintains the assertion. -/
theorem Hosts.maintains_waitForTask (phase : Option Phase) (upid : Upid) (timeout : ℕ) :
    Maintains C J (fun _ => True) (waitForTask job phase upid timeout) :=
  h.maintains (keeps_waitForTask h.progress h.calls phase upid timeout)

/-- Asking for the status of the VM maintains the assertion. -/
theorem Hosts.maintains_getVmStatus : Maintains C J (fun _ => True) job.getVmStatus :=
  h.maintains (keeps_getVmStatus h.calls job)

/-- Asking whether the VM exists maintains the assertion. -/
theorem Hosts.maintains_vmExists : Maintains C J (fun _ => True) job.vmExists :=
  h.maintains (keeps_vmExists (h.calls _ rfl))

/-- A check that raises maintains the assertion. -/
theorem Hosts.maintains_raiseIf (c : Prop) [Decidable c] (e : Exc) :
    Maintains C J (fun _ => True) (raiseIf c e) :=
  h.maintains ((keeps_raiseIf c e _).mpr fun _ => trivial)

/-- Resuming or submitting the clone changes at most the phase of the payload. -/
theorem Hosts.maintains_cloneVm (htype : job.row.operationType = .create) (payload : Payload)
    (hp : payload.Agrees job.row.payload) (template : VMTemplate) :
    Maintains C J (fun r => r.2.1.Agrees job.row.payload) (cloneVm job payload template) := by
  unfold cloneVm
  split
  · split
    · refine (h.maintains_waitForTask _ _ _).bind fun warnings _ => ?_
      refine h.maintains_getVmStatus.bind fun live _ => ?_
      refine (h.maintains_raiseIf _ _).bind fun _ _ => ?_
      exact maintains_pure hp
    · refine (h.maintains_waitForTask _ _ _).bind fun warnings _ => ?_
      refine h.maintains_getVmStatus.bind fun live _ => ?_
      exact maintains_pure hp
  · refine h.maintains_vmExists.bind fun listed _ => ?_
    refine (h.maintains_raiseIf _ _).bind fun _ _ => ?_
    refine (h.submissions.clone payload template hp htype).bind fun response _ => ?_
    refine (h.maintains (keeps_getData response)).bind fun data _ => ?_
    refine (h.maintains_persistTask _ { payload with phase := some .cloneSubmitted } [] hp
      (by simp)).bind fun recorded _ => ?_
    refine (h.maintains_of_true (fun _ => trivial) recorded _).bind fun upid _ => ?_
    refine (h.maintains_waitForTask _ _ _).bind fun warnings _ => ?_
    refine h.maintains_getVmStatus.bind fun live _ => ?_
    exact maintains_pure hp

/-- Starting a new VM maintains the assertion, and its outcome writes the status only. -/
theorem Hosts.maintains_autoStart (htype : job.row.operationType = .create) (payload : Payload)
    (hp : payload.Agrees job.row.payload) (pending : List Write)
    (hpending : ∀ w ∈ pending, w.Progress job.row job.vm.id) :
    Maintains C J (fun r => ∀ w ∈ r.2.1, ∃ s, w = .vm (.status job.vm.id s))
      (autoStart job payload pending) := by
  unfold autoStart
  refine (h.submissions.start payload hp htype).bind fun response _ => ?_
  refine (h.maintains_persistTask _ { payload with phase := some .startSubmitted } _ hp
    hpending).bind fun recorded _ => ?_
  refine (h.maintains_of_true (fun _ => trivial) recorded _).bind fun upid _ => ?_
  refine (h.maintains_waitForTask _ _ _).bind fun warnings _ => ?_
  refine h.maintains_getVmStatus.bind fun live _ => ?_
  refine (h.maintains (keeps_reloadVm _)).bind fun vm hvm => ?_
  refine (h.maintains_raiseIf _ _).bind fun _ _ => ?_
  refine maintains_pure fun w hw => ⟨live.getD vm.status, ?_⟩
  rw [mem_statusWrites hw, hvm]

/-- Starting a VM after its clone maintains the assertion, and its outcome writes the status only.
-/
theorem Hosts.maintains_startCloned (htype : job.row.operationType = .create)
    (payload : Payload) (hp : payload.Agrees job.row.payload) (loaded : StudentVM)
    (hl : loaded.id = job.vm.id) (cloned : VmStatus) :
    Maintains C J (fun r => ∀ w ∈ r.2.1, ∃ s, w = .vm (.status job.vm.id s))
      (startCloned job payload loaded cloned) := by
  unfold startCloned
  split
  · refine h.maintains_autoStart htype payload hp _ ?_
    intro w hw
    rw [mem_statusWrites hw]
    exact ⟨hl, htype⟩
  · refine maintains_pure fun w hw => ⟨cloned, ?_⟩
    rw [mem_statusWrites hw, hl]

/-- The outcome of `vm.create` writes the VM's status and makes its assignment ready. -/
theorem Hosts.maintains_executeCreate (htype : job.row.operationType = .create) :
    Maintains C J (fun o => ∀ w ∈ o.writes, w.Outcome job.row job.vm.id)
      (executeCreate job job.row.payload) := by
  unfold executeCreate
  refine (h.maintains ((keeps_select _).mpr fun _ => trivial)).bind (R := fun _ => True)
    fun s _ => ?_
  refine (h.maintains_of_true (fun _ => trivial) _ _).bind (R := fun _ => True)
    fun template _ => ?_
  refine (h.maintains (keeps_client h.calls _)).bind fun _ _ => ?_
  refine (h.maintains_cloneVm htype _ (Payload.Agrees.refl _) template).bind ?_
  rintro ⟨cloned, payload, warnings⟩ hp
  refine (h.maintains (keeps_reloadVm _)).bind fun loaded hl => ?_
  refine (h.maintains_startCloned htype payload hp loaded hl cloned).bind ?_
  rintro ⟨status, writes, started⟩ hw
  refine (h.maintains ((keeps_select _).mpr fun _ => trivial)).bind (R := fun _ => True)
    fun s' _ => ?_
  refine maintains_pure fun w hmem => ?_
  rcases List.mem_append.mp hmem with hmem | hmem
  · obtain ⟨s, rfl⟩ := hw w hmem
    exact ⟨rfl, by simp [htype]⟩
  · unfold readyWrites at hmem
    split at hmem
    · split at hmem
      · cases hmem
      · rw [List.mem_singleton.mp hmem]
        exact ⟨rfl, htype⟩
    · cases hmem

/-- The task of a power operation maintains the assertion. -/
theorem Hosts.maintains_powerTask {action : PowerAction}
    (htype : job.row.operationType = .power action) :
    Maintains C J (fun _ => True) (powerTask job job.row.payload action) := by
  unfold powerTask
  split
  · exact maintains_pure trivial
  · refine (h.submissions.power _ action (Payload.Agrees.refl _) htype).bind fun response _ => ?_
    refine (h.maintains (keeps_persistTask h.progress _ none [] (by simp) (by simp))).bind
      fun recorded _ => ?_
    exact h.maintains_of_true (fun _ => trivial) recorded _

/-- The outcome of a power action writes the VM's status. -/
theorem Hosts.maintains_executePower {action : PowerAction}
    (htype : job.row.operationType = .power action) :
    Maintains C J (fun o => ∀ w ∈ o.writes, w.Outcome job.row job.vm.id)
      (executePower job job.row.payload action) := by
  unfold executePower
  refine (h.maintains (keeps_client h.calls _)).bind fun _ _ => ?_
  refine (h.maintains_powerTask htype).bind fun upid _ => ?_
  refine (h.maintains_waitForTask _ _ _).bind fun warnings _ => ?_
  refine h.maintains_getVmStatus.bind fun live _ => ?_
  refine (h.maintains (keeps_reloadVm _)).bind fun vm hvm => ?_
  refine (h.maintains_raiseIf _ _).bind fun _ _ => ?_
  refine maintains_pure fun w hw => ?_
  rw [mem_statusWrites hw]
  exact ⟨hvm, by simp [htype]⟩

/-- Stopping a VM before its deletion maintains the assertion, and changes at most the phase in the
payload. -/
theorem Hosts.maintains_stopBeforeDelete (htype : job.row.operationType = .delete)
    (payload : Payload) (hp : payload.Agrees job.row.payload) :
    Maintains C J (fun p => p.Agrees job.row.payload) (stopBeforeDelete job payload) := by
  unfold stopBeforeDelete
  refine h.maintains_getVmStatus.bind fun live _ => ?_
  split
  · refine (h.submissions.stop payload hp htype).bind fun stop _ => ?_
    refine (h.maintains_persistTask _ { payload with phase := some .stopSubmitted } [] hp
      (by simp)).bind fun recorded _ => ?_
    refine (h.maintains_of_true (fun _ => trivial) recorded _).bind fun upid _ => ?_
    refine (h.maintains_waitForTask _ _ _).bind fun warnings _ => ?_
    exact h.maintains (keeps_observeStopped h.progress h.calls _ hp)
  · exact maintains_pure hp

/-- Submitting the deletion maintains the assertion. -/
theorem Hosts.maintains_submitDeletion (htype : job.row.operationType = .delete)
    (payload : Payload) (hp : payload.Agrees job.row.payload) :
    Maintains C J (fun _ => True) (submitDeletion job payload) := by
  unfold submitDeletion
  split
  · refine (h.submissions.delete payload hp htype).bind fun response _ => ?_
    refine (h.maintains (keeps_getData response)).bind fun data _ => ?_
    refine (h.maintains_persistTask _ { payload with phase := some .deleteSubmitted } [] hp
      (by simp)).bind fun recorded _ => ?_
    refine (h.maintains_of_true (fun _ => trivial) recorded _).bind fun upid _ => ?_
    refine (h.maintains_waitForTask _ _ _).bind fun warnings _ => ?_
    exact maintains_pure trivial
  · exact maintains_pure trivial

/-- Deleting a VM that Proxmox lists maintains the assertion. -/
theorem Hosts.maintains_deleteListedVm (htype : job.row.operationType = .delete) :
    Maintains C J (fun _ => True) (deleteListedVm job job.row.payload) := by
  unfold deleteListedVm
  refine (h.maintains (keeps_resumeDelete h.progress h.calls _ (Payload.Agrees.refl _))).bind
    fun p hp => ?_
  refine (h.maintains_stopBeforeDelete htype p hp).bind fun p hp => ?_
  refine (h.maintains_submitDeletion htype p hp).bind fun _ _ => ?_
  exact h.maintains (keeps_verifyAbsent h.calls job)

/-- Deleting a VM, whether Proxmox lists it or not, maintains the assertion. -/
theorem Hosts.maintains_deleteVm (htype : job.row.operationType = .delete) :
    Maintains C J (fun _ => True) (deleteVm job job.row.payload) := by
  unfold deleteVm
  refine (h.maintains (keeps_client h.calls _)).bind fun _ _ => ?_
  refine h.maintains_vmExists.bind fun listed _ => ?_
  split
  · refine Maintains.tryCatch (h.maintains_deleteListedVm htype) fun e => ?_
    split
    · refine h.maintains_vmExists.bind fun listed _ => ?_
      exact h.maintains_raiseIf _ _
    · exact maintains_throw e
  · exact maintains_pure trivial

/-- The outcome of `vm.delete` unlinks the assignment and tombstones the record. -/
theorem Hosts.maintains_executeDelete (htype : job.row.operationType = .delete) :
    Maintains C J (fun o => ∀ w ∈ o.writes, w.Outcome job.row job.vm.id)
      (executeDelete job job.row.payload) := by
  unfold executeDelete
  refine (h.maintains_deleteVm htype).bind fun _ _ => ?_
  refine (h.maintains ((keeps_select _).mpr fun _ => trivial)).bind (R := fun _ => True)
    fun s _ => ?_
  refine (h.maintains ((keeps_utcnow _).mpr fun _ => trivial)).bind (R := fun _ => True)
    fun now _ => ?_
  refine maintains_pure fun w hmem => ?_
  rcases List.mem_append.mp hmem with hmem | hmem
  · unfold unlinkWrites at hmem
    split at hmem
    · rw [List.mem_singleton.mp hmem]
      exact ⟨htype, ite_eq_or_eq _ _ _⟩
    · cases hmem
  · rw [List.mem_singleton.mp hmem]
    exact ⟨rfl, htype⟩

/-- Every branch of `execute_operation` on an existing VM record. -/
theorem Hosts.maintains_executeBranch :
    Maintains C J (fun o => ∀ w ∈ o.writes, w.Outcome job.row job.vm.id)
      (executeBranch job.settings job.row (some job.vm)) := by
  unfold executeBranch
  cases htype : job.row.operationType with
  | create => exact h.maintains_executeCreate htype
  | power action => exact h.maintains_executePower htype
  | delete => exact h.maintains_executeDelete htype
  | other text => exact maintains_throw _

end Execution

/-- Without a VM record an execution interacts with nothing, and has nothing to write. -/
theorem keeps_executeBranch_none {W : Write → Prop} {K : Call → Prop} (settings : Settings)
    (row : DurableOperation) :
    Keeps W K (fun o => o.writes = []) (executeBranch settings row none) := by
  unfold executeBranch
  cases row.operationType <;> first | exact trivial | exact rfl

/-! ## From the claimed row to the final commit -/

section Whole

variable {τ : Type} {C : Contract Api τ} {J : τ → Prop} {W : Write → Prop}
  {K : Call → Prop}

/-- The VM record that an execution loads is the target of its operation. -/
theorem keeps_loadTarget (row : DurableOperation) :
    Keeps W K (fun vm => ∀ v, vm = some v → row.target = .studentVm v.id) (loadTarget row) := by
  unfold loadTarget
  cases htarget : row.target with
  | studentVm id =>
    simp only [keeps_bind]
    refine Keeps.mono (keeps_loadVm id) ?_
    intro vm hvm
    cases vm with
    | none =>
      simp only [authorizeAbsent, keeps_bind, keeps_select, keeps_check]
      intro s _ _
      simp
    | some vm =>
      have hid := hvm vm rfl
      rw [keeps_bind]
      refine Keeps.mono (keeps_authorize row vm row.payload) ?_
      intro _ _ v hv
      cases hv
      rw [hid]
  | other type id =>
    intro v hv
    cases hv

/-- What holds once the target is loaded: an assertion that may speak of the VM record, or
the one from before. -/
def Loaded (J₀ : τ → Prop) (J : Option StudentVM → τ → Prop) (row : DurableOperation) :
    Post Api τ (Option StudentVM) :=
  fun r t => match r with
    | .ok vm => J vm t ∧ ∀ v, vm = some v → row.target = .studentVm v.id
    | .error _ => J₀ t

section Parts

variable {settings : Settings} {row : DurableOperation}
  (hcalls : ∀ c : Call, c.mutating = false → K c)
  (hprogress : ∀ v, row.target = .studentVm v → ∀ w : Write, w.Progress row v → W w)
include hcalls hprogress

/-- The branch on the operation type, with or without a VM record. -/
theorem maintains_executeBranch (hT : C.Tolerates J (Commits W) K) {vm : Option StudentVM}
    (hsub : ∀ v, vm = some v → Submissions C J ⟨settings, row, v⟩)
    (hvm : ∀ v, vm = some v → row.target = .studentVm v.id) :
    Maintains C J (fun o => ∀ w ∈ o.writes, ∃ v, row.target = .studentVm v ∧ w.Outcome row v)
      (executeBranch settings row vm) := by
  cases vm with
  | none =>
    refine Maintains.mono (Maintains.of_ensures hT (keeps_executeBranch_none settings row)) ?_
    intro o ho w hw
    rw [ho] at hw
    cases hw
  | some vm =>
    have htarget := hvm vm rfl
    have h : Hosts C J W K ⟨settings, row, vm⟩ :=
      ⟨hT, hprogress vm.id htarget, hcalls, hsub vm rfl⟩
    refine Maintains.mono h.maintains_executeBranch ?_
    intro o ho w hw
    exact ⟨vm.id, htarget, ho w hw⟩

/-- The execution of an operation keeps what holds of the loaded target up to its final
commit. -/
theorem wp_executeOperation {J₀ : τ → Prop} {J : Option StudentVM → τ → Prop}
    {Q : Post Api τ Unit}
    (hload : ∀ t, J₀ t → wp C (loadTarget row) (Loaded J₀ J row) t)
    (hT : ∀ vm, C.Tolerates (J vm) (Commits W) K)
    (hsub : ∀ vm : StudentVM, row.target = .studentVm vm.id →
      Submissions C (J (some vm)) ⟨settings, row, vm⟩)
    (hfinal : ∀ vm ws result now t,
      (∀ w ∈ ws, ∃ v, row.target = .studentVm v ∧ w.Outcome row v) → J vm t →
      wp C (commit (ws ++ [.operation (.complete row.id result now)])) Q t)
    (herr₀ : ∀ e t, J₀ t → Q (.error e) t) (herr : ∀ vm e t, J vm t → Q (.error e) t)
    {t : τ} (ht : J₀ t) : wp C (executeOperation settings row) Q t := by
  unfold executeOperation
  refine wp_seq (hload t ht) ?_ herr₀
  rintro vm t ⟨ht, hvm⟩
  have hbranch := maintains_executeBranch hcalls hprogress (hT vm)
    (fun v hv => hv ▸ hsub v (hvm v hv)) hvm
  refine Maintains.seq hbranch ?_ (herr vm) ht
  intro outcome t hout ht
  have hnow : Maintains C (J vm) (fun _ => True) utcnow :=
    Maintains.of_ensures (hT vm) ((keeps_utcnow _).mpr fun _ => trivial)
  refine Maintains.seq hnow ?_ (herr vm) ht
  intro now t _ ht
  exact hfinal vm outcome.writes outcome.result now t hout ht

/-- The execution of an operation maintains what its submissions, the statements and calls
in between and its final commit maintain. -/
theorem maintains_executeOperation (hT : C.Tolerates J (Commits W) K)
    (hsub : ∀ vm : StudentVM, row.target = .studentVm vm.id →
      Submissions C J ⟨settings, row, vm⟩)
    (hfinal : ∀ ws result now,
      (∀ w ∈ ws, ∃ v, row.target = .studentVm v ∧ w.Outcome row v) →
      Maintains C J (fun _ => True) (commit (ws ++ [.operation (.complete row.id result now)]))) :
    Maintains C J (fun _ => True) (executeOperation settings row) := by
  have hraise : ∀ e t, J t → J t ∧ ∀ a : Unit, (Except.error e : Except Exc Unit) = .ok a →
      True := fun _ _ ht => ⟨ht, fun _ _ => trivial⟩
  intro t ht
  refine wp_executeOperation (J := fun _ => J) hcalls hprogress ?_ (fun _ => hT) hsub ?_ hraise
    (fun _ => hraise) ht
  · intro t ht
    refine wp_mono (Maintains.of_ensures hT (keeps_loadTarget row) t ht) ?_
    intro r t h
    cases r with
    | ok vm => exact ⟨h.1, h.2 vm rfl⟩
    | error e => exact h.1
  · intro _ ws result now t hout ht
    exact hfinal ws result now hout t ht

end Parts

/-- Where nothing needs to be said of the calls, an execution maintains what its writes do. -/
theorem maintains_execution {J : τ → Prop} {settings : Settings} {row : DurableOperation}
    (hT : C.Tolerates J (Commits W) (fun _ => True))
    (hprogress : ∀ v, row.target = .studentVm v → ∀ w : Write, w.Progress row v → W w)
    (houtcome : ∀ v, row.target = .studentVm v → ∀ w : Write, w.Outcome row v → W w)
    (hcomplete : ∀ result now, W (.operation (.complete row.id result now))) :
    Maintains C J (fun _ => True) (executeOperation settings row) := by
  have hsubmit (v : StudentVM) (payload : Payload) (c : Call) : Maintains C J (fun _ => True)
      (do
        authorize row v payload
        await c) := by
    refine Maintains.of_ensures hT ?_
    have hkeeps : Keeps W (fun _ => True) (fun _ => True)
        (do
          authorize row v payload
          await c) := by
      rw [keeps_bind]
      exact Keeps.mono (keeps_authorize row v payload)
        fun _ _ => (keeps_await _ _).mpr ⟨trivial, fun _ => trivial⟩
    exact hkeeps
  refine maintains_executeOperation (fun _ _ => trivial) hprogress hT ?_ ?_
  · intro v _
    exact ⟨fun _ _ _ _ => hsubmit _ _ _, fun _ _ _ => hsubmit _ _ _,
      fun _ _ _ _ => hsubmit _ _ _, fun _ _ _ => hsubmit _ _ _, fun _ _ _ => hsubmit _ _ _⟩
  · intro ws result now hws
    refine Maintains.of_ensures hT ((keeps_commit _ _).mpr ⟨?_, fun _ => trivial⟩)
    intro w hw
    rcases List.mem_append.mp hw with hw | hw
    · obtain ⟨v, htarget, hw⟩ := hws w hw
      exact houtcome v htarget w hw
    · rw [List.mem_singleton.mp hw]
      exact hcomplete result now

end Whole

end LabGoblin
