import LabGoblin.Analysis.Footprint

/-!
# The footprint of the virtual machine endpoints
-/

set_option autoImplicit false

namespace LabGoblin

open Interactive

section VirtualMachines

variable {K : Call → Prop}

/-- `_queue_vm_action` inserts an operation of the action's type on the VM. -/
theorem keeps_queueVmAction (vm : StudentVM) (user : User) (organization : OrganizationContext)
    (action : OperationType) :
    Keeps (Write.queues action (· = vm.id)) K (fun _ => True)
      (queueVmAction vm user organization action) := by
  unfold queueVmAction
  rw [keeps_bind]
  refine keeps_enqueueOperation _ _ _ ?_ ?_
  · intro o
    simp
  · intro row hrow
    have hq : Queued row := hrow.queued rfl (by simp)
    obtain ⟨id, key, now, rfl, -⟩ := hrow
    simp only [keeps_bind, keeps_commit, keeps_pure]
    refine ⟨?_, fun _ => trivial⟩
    intro w hw
    rw [List.mem_singleton.mp hw]
    exact ⟨hq, rfl, vm.id, rfl, rfl⟩

variable (hK : ∀ c : Call, c.mutating = false → K c)
include hK

variable {W : Write → Prop}

/-- The awaited observations of a VM's status. -/
theorem keeps_observeVm (vm : StudentVM) (onFault : VmStatus → Exc → Action VmStatus)
    (hf : ∀ s e, Keeps W K (fun _ => True) (onFault s e)) :
    Keeps W K (fun _ => True) (observeVm vm onFault) := by
  unfold observeVm
  refine Keeps.guarded ?_ (hf vm.status)
  rw [keeps_bind]
  refine (keeps_await _ _).mpr ⟨hK _ rfl, fun _ => ?_⟩
  rw [keeps_bind]
  refine (keeps_await _ _).mpr ⟨hK _ rfl, fun data => ?_⟩
  refine Keeps.guarded ?_ (hf _)
  rw [keeps_bind]
  exact (keeps_await _ _).mpr ⟨hK _ rfl, fun _ => trivial⟩

/-- The refreshes write statuses of the records they are given. -/
theorem keeps_refreshVms (vms : List StudentVM) :
    Keeps W K (fun ws => ∀ w ∈ ws, w.refreshes (vms.map StudentVM.id)) (refreshVms vms) := by
  induction vms with
  | nil =>
    intro w hw
    cases hw
  | cons vm vms ih =>
    unfold refreshVms
    rw [keeps_bind]
    refine Keeps.mono (keeps_observeVm hK vm refreshFault fun _ _ => trivial) ?_
    intro status _
    rw [keeps_bind]
    refine Keeps.mono ih ?_
    intro ws hws w hw
    rcases List.mem_append.mp hw with hw | hw
    · rw [mem_statusWrites hw]
      exact List.mem_cons_self
    · exact (hws w hw).mono fun v hv => List.mem_cons_of_mem _ hv

omit hK in
/-- Visibility drops rows and adds none. -/
theorem keeps_visibleToStudent (user : User) (organization : OrganizationContext)
    (vms : List StudentVM) :
    Keeps W K (fun rows => ∀ vm ∈ rows, vm ∈ vms) (visibleToStudent user organization vms) := by
  induction vms with
  | nil =>
    intro vm hvm
    cases hvm
  | cons vm vms ih =>
    unfold visibleToStudent
    rw [keeps_bind, keeps_select]
    intro s
    rw [keeps_bind]
    refine Keeps.mono ih ?_
    intro rest hrest row hrow
    split at hrow
    · rcases List.mem_cons.mp hrow with rfl | hrow
      · exact List.mem_cons_self
      · exact List.mem_cons_of_mem _ (hrest row hrow)
    · exact List.mem_cons_of_mem _ (hrest row hrow)

omit hK in
/-- The visible VMs are among the rows that were read. -/
theorem keeps_visibleVms (user : User) (organization : OrganizationContext)
    (rows : List StudentVM) :
    Keeps W K (fun visible => ∀ vm ∈ visible, vm ∈ rows)
      (visibleVms user organization rows) := by
  unfold visibleVms
  split
  · exact keeps_visibleToStudent _ _ _
  · exact fun _ h => h

/-- The refresh of VMs writes about these VMs only. -/
theorem keeps_refreshLiveVms (vms : List StudentVM) :
    Keeps W K (fun ws => ∀ w ∈ ws, w.refreshes (vms.map StudentVM.id)) (refreshLiveVms vms) := by
  induction vms with
  | nil =>
    intro w hw
    cases hw
  | cons vm vms ih =>
    have hone : Keeps W K (fun _ => True) (reconcileVm vm) := by
      unfold reconcileVm
      split
      · exact trivial
      · refine Keeps.guarded ?_ fun _ => trivial
        rw [keeps_bind]
        refine (keeps_await _ _).mpr ⟨hK _ rfl, fun _ => ?_⟩
        rw [keeps_bind]
        exact (keeps_await _ _).mpr ⟨hK _ rfl, fun _ => trivial⟩
    unfold refreshLiveVms
    rw [keeps_bind]
    refine Keeps.mono hone ?_
    intro status _
    rw [keeps_bind]
    refine Keeps.mono ih ?_
    intro ws hws w hw
    rcases List.mem_append.mp hw with hw | hw
    · rw [mem_statusWrites hw]
      exact List.mem_cons_self
    · exact (hws w hw).mono fun v hv => List.mem_cons_of_mem _ hv

omit hK in
/-- The check for an administrator commits nothing. -/
theorem keeps_currentAdmin (caller : Caller) :
    Keeps W K (fun _ => True) (currentAdmin caller) := by
  unfold currentAdmin
  rw [keeps_bind, keeps_select]
  intro s
  rw [keeps_bind, keeps_check]
  intro user _
  rw [keeps_bind, keeps_raiseIf]
  intro _
  rw [keeps_check]
  exact fun _ _ => trivial

omit hK in
/-- Finding the active cluster commits nothing. -/
theorem keeps_activeProxmoxCluster : Keeps W K (fun _ => True) activeProxmoxCluster := by
  unfold activeProxmoxCluster
  rw [keeps_bind, keeps_select]
  intro s
  exact (keeps_orRaise _ _ _).mpr fun _ _ => trivial

omit hK in
/-- The reconciliation of an administrator refreshes the records that it has selected. -/
theorem keeps_reconciled {W : Write → Prop} {vms : List StudentVM} (inventory : List InventoryVm)
    (hW : ∀ w : Write, w.refreshes (vms.map StudentVM.id) → W w) :
    Keeps W K (fun _ => True) (do
      commit (vms.flatMap fun vm => statusWrites vm (reconciledStatus inventory vm))
      return vms.map (reconciledVm inventory)) := by
  rw [keeps_bind, keeps_commit]
  refine ⟨?_, fun _ => trivial⟩
  intro w hw
  obtain ⟨vm, hvm, hw⟩ := List.mem_flatMap.mp hw
  refine hW w ?_
  rw [mem_statusWrites hw]
  exact List.mem_map_of_mem hvm

/-- A turn of a worker holds the worker lock and gives it back. -/
theorem keeps_underLock {α : Type} {R : α → Prop} (name : WorkerName) {body : Action α}
    (hb : Keeps W K R body) :
    Keeps W K R
      (guarded body fun e => do
        await (.releaseWorkerLock name)
        fail e) := by
  refine Keeps.guarded hb ?_
  intro e
  rw [keeps_bind]
  exact (keeps_await _ _).mpr ⟨hK _ rfl, fun _ => trivial⟩

/-- The check that a VM is not found commits nothing. -/
theorem keeps_verifyNotFound (vm : StudentVM) :
    Keeps W K (fun _ => True) (verifyNotFound vm) := by
  have hquery : Keeps W K (fun _ => True)
      (guarded
        (do
          await (.client vm.proxmoxClusterId)
          let _ ← await (.getVmStatus vm.proxmoxClusterId vm.proxmoxNode vm.vmid)
          return true)
        fun e =>
          if isNotFound e then return false
          else fail (.http 502
            ("Unable to verify Proxmox VM state; refusing app-record delete until Proxmox " ++
              "check succeeds"))) := by
    refine Keeps.guarded ?_ ?_
    · rw [keeps_bind]
      refine (keeps_await _ _).mpr ⟨hK _ rfl, fun _ => ?_⟩
      rw [keeps_bind]
      exact (keeps_await _ _).mpr ⟨hK _ rfl, fun _ => trivial⟩
    · intro e
      split <;> exact trivial
  unfold verifyNotFound
  rw [keeps_bind]
  refine Keeps.mono hquery ?_
  intro found _
  rw [keeps_raiseIf]
  exact fun _ => trivial

/-! ### Creation -/

omit hK in
/-- Finding the assignment of a new VM commits nothing. -/
theorem keeps_assignmentForProvisioning (assignmentId : Option ℕ)
    (userId organizationId templateId : ℕ) :
    Keeps W K (fun _ => True)
      (assignmentForProvisioning assignmentId userId organizationId templateId) := by
  unfold assignmentForProvisioning
  simp only [keeps_bind, keeps_orRaise, keeps_run, keeps_select, keeps_check]
  exact fun _ _ => ⟨trivial, fun _ _ _ _ _ _ _ _ _ _ _ => trivial⟩

omit hK in
/-- Finding the requested assignment commits nothing. -/
theorem keeps_requestedAssignment (user : User) (organization : OrganizationContext)
    (payload : CreateVMRequest) (template : VMTemplate) :
    Keeps W K (fun _ => True) (requestedAssignment user organization payload template) := by
  unfold requestedAssignment
  split
  · rw [keeps_bind]
    exact Keeps.mono (keeps_assignmentForProvisioning _ _ _ _) fun _ _ => trivial
  · exact trivial

/-- The filters of `placeVm` on the allowed nodes look, and decide. -/
theorem keeps_withStorage (cluster : ProxmoxCluster) (storage : Option String)
    (allowed : List String) : Keeps W K (fun _ => True) (withStorage cluster storage allowed) := by
  unfold withStorage
  split
  · exact trivial
  · rw [keeps_bind]
    refine (keeps_await _ _).mpr ⟨hK _ rfl, fun rows => ?_⟩
    rw [keeps_bind, keeps_raiseIf]
    exact fun _ => trivial

/-- Choosing nodes by their bridges commits nothing. -/
theorem keeps_withBridge (cluster : ProxmoxCluster) (bridge : Option String)
    (allowed : List String) : Keeps W K (fun _ => True) (withBridge cluster bridge allowed) := by
  unfold withBridge
  split
  · exact trivial
  · rw [keeps_bind]
    refine (keeps_await _ _).mpr ⟨hK _ rfl, fun rows => ?_⟩
    rw [keeps_bind, keeps_raiseIf]
    exact fun _ => trivial

/-- Placing a VM commits nothing. -/
theorem keeps_placeVm (cluster : ProxmoxCluster) (template : VMTemplate) :
    Keeps W K (fun _ => True) (placeVm cluster template) := by
  unfold placeVm
  rw [keeps_bind, keeps_select]
  intro s
  rw [keeps_bind]
  refine (keeps_await _ _).mpr ⟨hK _ rfl, fun templates => ?_⟩
  rw [keeps_bind, keeps_raiseIf]
  intro _
  rw [keeps_bind]
  refine Keeps.mono (keeps_withStorage hK _ _ _) ?_
  intro allowed _
  rw [keeps_bind]
  refine Keeps.mono (keeps_withBridge hK _ _ _) ?_
  intro allowed _
  split <;> exact trivial

omit hK in
/-- Allocating an identifier writes the allocator only. -/
theorem keeps_allocateVmid (cluster : ℕ) :
    Keeps W K (fun r => ∀ w ∈ r.2, ∃ a, w = .allocator a) (allocateVmid cluster) := by
  have hfind : ∀ found, Keeps W K (fun r => ∀ w ∈ r.2, ∃ a, w = .allocator a)
      (findAllocator cluster found) := by
    intro found
    cases found with
    | some allocator =>
      intro w hw
      cases hw
    | none =>
      simp only [findAllocator, keeps_bind, keeps_draw, keeps_pure]
      intro s w hw
      exact ⟨_, List.mem_singleton.mp hw⟩
  unfold allocateVmid
  rw [keeps_bind, keeps_run]
  refine ⟨trivial, fun s => ?_⟩
  rw [keeps_bind]
  refine Keeps.mono (hfind _) ?_
  rintro ⟨allocator, created⟩ hcreated
  rw [keeps_bind, keeps_select]
  intro s' w hw
  rcases List.mem_append.mp hw with hw | hw
  · exact hcreated w hw
  · exact ⟨_, List.mem_singleton.mp hw⟩

omit hK in
/-- What `create_vm` queues is the creation of the VM it inserts. -/
theorem keeps_enqueueCreation {R : List Write → Prop} (r : EnqueueRequest) (vm : StudentVM)
    (htype : r.operationType = .create) (htarget : r.target = .studentVm vm.id)
    (hphase : r.payload.phase = none) (hkey : r.idempotencyKey = some (.vmCreate vm.id))
    (hR : ∀ ws, (∀ w ∈ ws, ∃ row, w = .operation (.insert row) ∧ Queued row ∧
      row.operationType = .create ∧ row.target = .studentVm vm.id) → R ws) :
    Keeps W K (fun o => R o.2) (enqueueOperation r []) := by
  refine keeps_enqueueOperation _ _ _ (fun _ => hR [] (by simp)) ?_
  intro row hrow
  have hq : Queued row := hrow.queued hphase (by
    intro id key now hk
    rw [hkey] at hk
    cases hk
    exact ⟨htype, htarget⟩)
  obtain ⟨id, key, now, rfl, -⟩ := hrow
  refine hR _ fun w hw => ?_
  exact ⟨_, List.mem_singleton.mp hw, hq, htype, htarget⟩

end VirtualMachines

end LabGoblin
