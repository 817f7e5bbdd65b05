import LabGoblin.Analysis.Guarantee

/-!
# What the writes of the endpoints rest on

The requests that write about VM records write about records that they have found by a search
of their own. `create_vm` links and queues what it inserts in the same commit, and
`delete_app_record_admin` unlinks the assignment as it read it.
-/

set_option autoImplicit false

namespace LabGoblin

open Interactive

section Grounds

variable {H : Type} {settings : Settings} {outside : Outside H} {p : Pid} {r : Request}

/-- The process serves the request and has found the records. -/
structure Serving (p : Pid) (r : Request) (vms : List ℕ) (t : Sys H) : Prop where
  serves : Entry.enter p r ∈ t.log
  found : ∀ v ∈ vms, v ∈ foundVms p t.log

/-- What has been found stays found. -/
theorem foundVms_cons {v : ℕ} {log : List Entry} (h : v ∈ foundVms p log) (e : Entry) :
    v ∈ foundVms p (e :: log) := by
  by_cases he : e.pid = p
  · unfold foundVms
    rw [entriesOf_cons_self log he, List.flatMap_cons]
    exact List.mem_append_right _ h
  · unfold foundVms
    rw [entriesOf_cons_of_ne log he]
    exact h

/-- Other processes do not change what a process has found. -/
theorem Rely.foundVms {t t' : Sys H} (h : Rely p t t') : foundVms p t'.log = foundVms p t.log := by
  unfold LabGoblin.foundVms
  rw [h.entries]

variable {vms : List ℕ}

/-- A process goes on serving its request while others go on. -/
theorem Serving.rely {t t' : Sys H} (h : Serving p r vms t) (hr : Rely p t t') :
    Serving p r vms t' where
  serves := hr.log.subset h.serves
  found := by
    rw [hr.foundVms]
    exact h.found

/-- A process goes on serving its request after an entry of its own. -/
theorem Serving.cons {t t' : Sys H} (h : Serving p r vms t) {e : Entry}
    (hlog : t'.log = e :: t.log) : Serving p r vms t' where
  serves := hlog ▸ List.mem_cons_of_mem _ h.serves
  found := fun v hv => hlog ▸ foundVms_cons (h.found v hv) e

/-- A process goes on serving its request after the answer to a call. -/
theorem Serving.answer {t t' : Sys H} {c : Call} {reply : Except Exc c.Reply}
    (h : Serving p r vms t) (ha : (machine outside).answer p c t reply t') :
    Serving p r vms t' := by
  obtain ⟨hyper, -, rfl⟩ := ha
  have hcall : Serving p r vms { t with log := .call p c t.store :: t.log } := h.cons rfl
  exact hcall.cons rfl

/-- A search finds what its query reads. -/
theorem Serving.search {t : Sys H} {q : Query} (h : Serving p r [] t)
    (hq : (Entry.stmt p (.select q) t.store).found = q.vms t.store.db) :
    Serving p r (q.vms t.store.db) ((machine outside).exec p (.select q) t) where
  serves := List.mem_cons_of_mem _ h.serves
  found := by
    intro v hv
    show v ∈ foundVms p (.stmt p (.select q) t.store :: t.log)
    have hpid : (Entry.stmt p (.select q) t.store).pid = p := rfl
    unfold foundVms
    rw [entriesOf_cons_self _ hpid, List.flatMap_cons, hq]
    exact List.mem_append_left _ hv

/-- A write that rests on the records that were found. -/
def Write.RestsOn (vms : List ℕ) : Write → Prop
  | .vm (.status v _) => v ∈ vms
  | .operation (.insert row) =>
      row.operationType ≠ .create ∧ ∀ v, row.target = .studentVm v → v ∈ vms
  | .assignment (.link _ _) => False
  | .assignment (.unlink _ _) => False
  | _ => True

/-- A write that rests on records that were found is grounded. -/
theorem Write.RestsOn.grounded {w : Write} (h : w.RestsOn vms) {t : Sys H}
    (ht : Serving p r vms t) (ws : List Write) : w.Grounded r p t ws := by
  cases w with
  | vm w =>
    cases w with
    | status v s => exact ht.found v h
    | _ => trivial
  | operation w =>
    cases w with
    | insert row => exact ⟨fun _ v hv => ht.found v (h.2 v hv), fun hc => absurd hc h.1⟩
    | _ => trivial
  | assignment w =>
    cases w with
    | link a v => exact h.elim
    | unlink a s => exact h.elim
    | _ => trivial
  | _ => trivial

/-- A commit of the request is conducted when its writes are in the table and grounded. -/
theorem Serving.conducted {t : Sys H} (h : Serving p r vms t) (hr : r.isWorker = false) {q : Stmt}
    (hq : ∀ ws, q = .commit ws → ∀ w ∈ ws, r.mayWrite w ∧ w.Grounded r p t ws) :
    Stmt.Conducted p q t := by
  refine ⟨r, h.serves, ?_⟩
  intro ws hws w hw
  unfold Request.conducts
  rw [hr, if_neg (by simp)]
  exact hq ws hws w hw

/-- While it serves a request, a process stays within the discipline with the writes that are
grounded whenever they are made. -/
theorem serving_tolerates (hr : r.isWorker = false) {W : Write → Prop}
    (hW : ∀ w : Write, W w → r.mayWrite w ∧
      ∀ (t : Sys H) ws, Serving p r vms t → w.Grounded r p t ws) :
    ((conduct settings outside).contract p).Tolerates (Serving p r vms) (Commits W) r.mayCall where
  stable := fun t t' h hrely _ => h.rely hrely
  stmt := by
    intro q t hq _ h _
    refine ⟨h.conducted hr ?_, h.cons rfl⟩
    intro ws hws w hw
    subst hws
    exact ⟨(hW w (hq w hw)).1, (hW w (hq w hw)).2 t ws h⟩
  call := by
    intro c t hc _ h
    refine ⟨fun hm => ?_, fun reply t' ha => h.answer ha⟩
    have := hc hm
    rw [hr] at this
    cases this

/-- What a program keeps to in the table while every write rests on what was found, it
maintains. -/
theorem maintains_resting (hr : r.isWorker = false) {α : Type} {R : α → Prop} {prog : Action α}
    (h : Keeps (fun w => r.mayWrite w ∧ w.RestsOn vms) r.mayCall R prog) :
    Maintains ((conduct settings outside).contract p) (Serving p r vms) R prog :=
  Maintains.of_ensures
    (serving_tolerates hr fun _ hw => ⟨hw.1, fun _ ws ht => hw.2.grounded ht ws⟩) h

/-! ## Searches -/

/-- A search, and a rest whose writes rest on what it finds. -/
theorem wp_search (hr : r.isWorker = false) {α : Type} {q : Query}
    (hq : ∀ s, (Entry.stmt p (.select q) s).found = q.vms s.db) {f : Store → Action α}
    (hf : ∀ s : Store, Keeps (fun w => r.mayWrite w ∧ w.RestsOn (q.vms s.db)) r.mayCall
      (fun _ => True) (f s)) {t : Sys H} (ht : Serving p r [] t) :
    wp ((conduct settings outside).contract p) (Program.run (G := Api) (.select q) >>= f)
      (fun _ _ => True) t := by
  rw [wp_run_bind]
  intro t₁ hr₁ _ _
  have h₁ := ht.rely hr₁
  refine ⟨h₁.conducted hr (fun _ hws => by cases hws), ?_⟩
  exact (maintains_resting hr (hf t₁.store)).safe (h₁.search (hq t₁.store))

/-- The VM that an endpoint goes on with is the one its search has found. -/
theorem wp_findVmForUser (hr : r.isWorker = false) {α : Type} {user : User} {vmId : ℕ}
    {organization : OrganizationContext} {operation : VmAccess} {f : StudentVM → Action α}
    (hf : ∀ vm, vm.id = vmId → ∀ vms, vm.id ∈ vms →
      Keeps (fun w => r.mayWrite w ∧ w.RestsOn vms) r.mayCall (fun _ => True) (f vm)) {t : Sys H}
    (ht : Serving p r [] t) :
    wp ((conduct settings outside).contract p)
      (findVmForUser user vmId organization operation >>= f) (fun _ _ => True) t := by
  refine wp_search hr (q := .scopedVm vmId user.id organization)
    (f := fun s => check (getVmForUser s.db s.clock user vmId organization operation) >>= f)
    (fun _ => rfl) ?_ ht
  intro s
  rw [keeps_bind, keeps_check]
  intro vm hvm
  obtain ⟨hmem, hscope⟩ := getVmForUser_ok hvm
  have hid : vm.id = vmId := by
    simp only [Bool.and_eq_true, decide_eq_true_eq] at hscope
    exact hscope.1
  refine hf vm hid _ ?_
  exact List.mem_map.mpr ⟨vm, List.mem_filter.mpr ⟨hmem, hscope⟩, rfl⟩

/-- What `_queue_vm_action` inserts rests on the VM it was given. -/
theorem Write.queues.restsOn {type : OperationType} {v : ℕ} {w : Write}
    (h : w.queues type (· = v)) (htype : type ≠ .create) (hv : v ∈ vms) : w.RestsOn vms := by
  cases w with
  | operation w =>
    cases w with
    | insert row =>
      obtain ⟨-, hrow, v', htarget, rfl⟩ := h
      refine ⟨hrow ▸ htype, ?_⟩
      intro v hv'
      rw [htarget] at hv'
      cases hv'
      exact hv
    | _ => exact h.elim
  | _ => exact h.elim

/-- A write that refreshes records rests on them. -/
theorem Write.refreshes.restsOn {w : Write} (h : w.refreshes vms) : w.RestsOn vms := by
  cases w with
  | vm w =>
    cases w with
    | status v s => exact h
    | _ => exact h.elim
  | _ => exact h.elim

/-! ## The endpoints that search -/

variable {caller : Caller} {t : Sys H}

/-- A first part of an endpoint that only looks, and the rest of it. -/
theorem wp_looking (hr : r.isWorker = false) {α β : Type} {R : α → Prop} {prog : Action α}
    {f : α → Action β}
    (hprog : Keeps (fun w => r.mayWrite w ∧ w.RestsOn vms) r.mayCall R prog)
    (hf : ∀ a t, R a → Serving p r vms t →
      wp ((conduct settings outside).contract p) (f a) (fun _ _ => True) t)
    (ht : Serving p r vms t) :
    wp ((conduct settings outside).contract p) (prog >>= f) (fun _ _ => True) t :=
  Maintains.seq (maintains_resting hr hprog) hf (fun _ _ _ => trivial) ht

/-- Every request may make calls that change nothing. -/
theorem mayCall_quiet {c : Call} (hc : c.mutating = false) : r.mayCall c := by
  intro hm
  rw [hc] at hm
  cases hm

/-- The list of VMs writes only about the records that it lists. -/
theorem wp_listVms (ht : Serving p (.listVms caller) [] t) :
    wp ((conduct settings outside).contract p) (listVms caller) (fun _ _ => True) t := by
  unfold listVms
  refine wp_looking rfl (keeps_currentCaller caller) ?_ ht
  rintro ⟨user, organization⟩ t₁ _ h₁
  refine wp_search rfl (q := .scopedVms user.id organization) (fun _ => rfl) ?_ h₁
  intro s
  rw [keeps_bind]
  refine Keeps.mono (keeps_visibleVms user organization _) ?_
  intro rows hrows
  rw [keeps_bind]
  refine Keeps.mono (keeps_refreshVms (fun c => mayCall_quiet) rows) ?_
  intro writes hwrites
  rw [keeps_bind, keeps_commit]
  refine ⟨?_, fun _ => trivial⟩
  intro w hw
  refine ⟨(hwrites w hw).ofRefresh, (hwrites w hw).mono (fun v hv => ?_) |>.restsOn⟩
  obtain ⟨vm, hvm, rfl⟩ := List.mem_map.mp hv
  exact List.mem_map.mpr ⟨vm, hrows vm hvm, rfl⟩

/-- The refresh of a VM writes only about the record that it has found. -/
theorem wp_refreshVmStatus {vmId : ℕ} (ht : Serving p (.refreshVmStatus caller vmId) [] t) :
    wp ((conduct settings outside).contract p) (refreshVmStatus caller vmId)
      (fun _ _ => True) t := by
  unfold refreshVmStatus
  refine wp_looking rfl (keeps_currentCaller caller) ?_ ht
  rintro ⟨user, organization⟩ t₁ _ h₁
  refine wp_findVmForUser rfl ?_ h₁
  intro vm _ vms hvm
  rw [keeps_bind]
  refine Keeps.mono (keeps_observeVm (fun c => mayCall_quiet) vm statusFault ?_) ?_
  · intro s e
    unfold statusFault
    split <;> exact trivial
  · intro status _
    rw [keeps_commit]
    refine ⟨?_, fun _ => trivial⟩
    intro w hw
    rw [mem_statusWrites hw]
    exact ⟨trivial, hvm⟩

/-- The reconciliation of an administrator rests on the records that it has selected. -/
theorem wp_reconcileVms (ht : Serving p (.reconcileVms caller) [] t) :
    wp ((conduct settings outside).contract p) (reconcileVms caller) (fun _ _ => True) t := by
  unfold reconcileVms
  refine wp_looking rfl (keeps_currentAdmin caller) ?_ ht
  intro organization t₁ _ h₁
  refine wp_looking rfl keeps_activeProxmoxCluster ?_ h₁
  intro active t₂ _ h₂
  refine wp_looking rfl keeps_activeProxmoxCluster ?_ h₂
  intro listed t₃ _ h₃
  refine wp_looking rfl
    ((keeps_await (.inventoryVms listed.id) fun _ => True).mpr
      ⟨mayCall_quiet rfl, fun _ => trivial⟩) ?_ h₃
  intro inventory t₄ _ h₄
  refine wp_search rfl (q := .clusterVms organization.id active.id) (fun _ => rfl) ?_ h₄
  intro s
  exact keeps_reconciled inventory fun w hw => ⟨hw.ofRefresh, hw.restsOn⟩

/-- The reconciliation worker writes only about the records that it has found. -/
theorem wp_reconciliationWorker (ht : Serving p .reconciliationWorker [] t) :
    wp ((conduct settings outside).contract p) reconciliationWorker (fun _ _ => True) t := by
  have hquiet : ∀ c : Call, c.mutating = false → Request.reconciliationWorker.mayCall c :=
    fun c => mayCall_quiet
  have hrelease : ∀ {α : Type} {vms : List ℕ} (f : Unit → Action α),
      (∀ u, Keeps (fun w => Request.reconciliationWorker.mayWrite w ∧ w.RestsOn vms)
        Request.reconciliationWorker.mayCall (fun _ => True) (f u)) →
      Keeps (fun w => Request.reconciliationWorker.mayWrite w ∧ w.RestsOn vms)
        Request.reconciliationWorker.mayCall (fun _ => True)
        (await (.releaseWorkerLock .reconciliation) >>= f) := by
    intro α vms f hf
    rw [keeps_bind]
    exact (keeps_await _ _).mpr ⟨hquiet _ rfl, hf⟩
  have hreconcile : ∀ t : Sys H, Serving p .reconciliationWorker [] t →
      wp ((conduct settings outside).contract p) reconcile
        (fun _ t => Serving p .reconciliationWorker [] t) t := by
    intro t ht
    unfold reconcile
    rw [wp_run_bind]
    intro t₁ hr₁ _ _
    have h₁ := ht.rely hr₁
    refine ⟨h₁.conducted rfl (fun _ hws => by cases hws), ?_⟩
    have h₂ : Serving p .reconciliationWorker (Query.liveVms.vms t₁.store.db)
        ((machine outside).exec p (.select .liveVms) t₁) := h₁.search rfl
    have hrest : Keeps (fun w => Request.reconciliationWorker.mayWrite w ∧
        w.RestsOn (Query.liveVms.vms t₁.store.db)) Request.reconciliationWorker.mayCall
        (fun _ => True)
        (do
          let writes ← refreshLiveVms (t₁.store.db.studentVms.filter fun vm => vm.deletedAt.isNone)
          commit writes) := by
      rw [keeps_bind]
      refine Keeps.mono (keeps_refreshLiveVms hquiet _) ?_
      intro writes hwrites
      rw [keeps_commit]
      exact ⟨fun w hw => ⟨(hwrites w hw).ofRefresh, (hwrites w hw).restsOn⟩, fun _ => trivial⟩
    refine wp_mono (maintains_resting rfl hrest _ h₂) ?_
    intro _ t' h
    exact ⟨h.1.serves, by simp⟩
  unfold reconciliationWorker
  refine wp_looking rfl (R := fun _ => True) ?_ ?_ ht
  · exact (keeps_await _ _).mpr ⟨hquiet _ rfl, fun _ => trivial⟩
  · intro held t₁ _ h₁
    cases held with
    | false => exact trivial
    | true =>
      have hguarded : wp ((conduct settings outside).contract p)
          (guarded reconcile fun e => do
            await (.releaseWorkerLock .reconciliation)
            fail e)
          (fun _ t => Serving p .reconciliationWorker [] t) t₁ := by
        refine wp_handle (hreconcile t₁ h₁) (fun _ _ h => h) ?_
        intro e t' h
        have h : Serving p .reconciliationWorker [] t' := h
        refine wp_mono (maintains_resting rfl (hrelease _ fun _ => ?_) t' h) ?_
        · exact trivial
        · intro _ t'' h'
          exact h'.1
      refine wp_seq hguarded ?_ (fun _ _ _ => trivial)
      intro _ t' h
      have h : Serving p .reconciliationWorker [] t' := h
      exact (maintains_resting (R := fun _ => True) rfl
        ((keeps_await _ _).mpr ⟨hquiet _ rfl, fun _ => trivial⟩)).safe h

/-- What `_queue_vm_action` queues rests on the VM that was found. -/
theorem keeps_queueVmAction_resting {vm : StudentVM} {user : User}
    {organization : OrganizationContext} {action : OperationType} (haction : action ≠ .create)
    (hr : ∀ w : Write, w.queues action (· = vm.id) → r.mayWrite w) (hvm : vm.id ∈ vms) :
    Keeps (fun w => r.mayWrite w ∧ w.RestsOn vms) r.mayCall (fun _ => True)
      (queueVmAction vm user organization action) := by
  refine Program.Ensures.mono (keeps_queueVmAction vm user organization action) ?_
    (fun _ h => h) (fun _ h => h)
  intro q hq
  cases q with
  | commit ws =>
    intro w hw
    exact ⟨hr w (hq w hw), (hq w hw).restsOn haction hvm⟩
  | _ => trivial

/-- A power action is queued only for a record that was found. -/
theorem wp_vmPower {vmId : ℕ} {action : PowerAction}
    (ht : Serving p (.vmPower caller vmId action) [] t) :
    wp ((conduct settings outside).contract p) (vmPower caller vmId action)
      (fun _ _ => True) t := by
  unfold vmPower
  refine wp_looking rfl (keeps_currentCaller caller) ?_ ht
  rintro ⟨user, organization⟩ t₁ _ h₁
  refine wp_findVmForUser rfl ?_ h₁
  intro vm hid vms hvm
  refine keeps_queueVmAction_resting (by simp) ?_ hvm
  intro w hw
  rw [hid] at hw
  exact hw

/-- A deletion is queued only for a record that was found. -/
theorem wp_deleteVmRecord {vmId : ℕ} {confirmation : Confirmation}
    (ht : Serving p (.deleteVmRecord caller vmId confirmation) [] t) :
    wp ((conduct settings outside).contract p) (deleteVmRecord caller vmId confirmation)
      (fun _ _ => True) t := by
  unfold deleteVmRecord
  refine wp_looking rfl (keeps_currentCaller caller) ?_ ht
  rintro ⟨user, organization⟩ t₁ _ h₁
  refine wp_findVmForUser rfl ?_ h₁
  intro vm hid vms hvm
  rw [keeps_bind, keeps_raiseIf]
  intro _
  refine keeps_queueVmAction_resting (by simp) ?_ hvm
  intro w hw
  rw [hid] at hw
  exact hw

/-- What may be queued for some records may be queued for more. -/
theorem Write.queues.mono {type : OperationType} {P Q : ℕ → Prop} {w : Write}
    (h : w.queues type P) (hPQ : ∀ v, P v → Q v) : w.queues type Q := by
  cases w with
  | operation w =>
    cases w with
    | insert row =>
      obtain ⟨hq, htype, v, htarget, hv⟩ := h
      exact ⟨hq, htype, v, htarget, hPQ v hv⟩
    | _ => exact h.elim
  | _ => exact h.elim

/-- An action on all VMs of a run is queued only for records that were found. -/
theorem wp_bulkVmAction {run : ℕ} {action : BulkAction}
    (ht : Serving p (.bulkVmAction caller run action) [] t) :
    wp ((conduct settings outside).contract p) (bulkVmAction caller run action)
      (fun _ _ => True) t := by
  unfold bulkVmAction
  refine wp_looking rfl (keeps_currentInstructor caller) ?_ ht
  rintro ⟨user, organization⟩ t₁ _ h₁
  refine wp_looking rfl (keeps_runForUser _ _ _ _) ?_ h₁
  intro _ t₂ _ h₂
  refine wp_looking rfl ((keeps_orRaise _ _ fun type => action.operationType = some type).mpr
    fun type h => h) ?_ h₂
  intro type t₃ htype h₃
  have hcreate : type ≠ .create := by
    rintro rfl
    cases action <;> simp [BulkAction.operationType] at htype
  refine wp_search rfl (q := .linkedVms run) (fun _ => rfl) ?_ h₃
  intro s
  have hlinked : ∀ v ∈ (s.db.labAssignments.filter fun a =>
      a.labRunId = run && a.organizationId = organization.id).filterMap
        LabAssignment.studentVmId, v ∈ (Query.linkedVms run).vms s.db := by
    intro v hv
    obtain ⟨a, ha, hav⟩ := List.mem_filterMap.mp hv
    obtain ⟨hmem, hcond⟩ := List.mem_filter.mp ha
    simp only [Bool.and_eq_true, decide_eq_true_eq] at hcond
    refine List.mem_filterMap.mpr ⟨a, List.mem_filter.mpr ⟨hmem, ?_⟩, hav⟩
    simpa using hcond.1
  rw [keeps_bind]
  refine Keeps.mono (keeps_queueBulk user organization run type
    (· ∈ (Query.linkedVms run).vms s.db) _ hlinked [] (by simp)) ?_
  intro writes hwrites
  rw [keeps_commit]
  refine ⟨?_, fun _ => trivial⟩
  intro w hw
  refine ⟨⟨type, htype, (hwrites w hw).mono fun _ _ => trivial⟩, ?_⟩
  have hq := hwrites w hw
  cases w with
  | operation w =>
    cases w with
    | insert row =>
      obtain ⟨-, hrow, v, htarget, hv⟩ := hq
      refine ⟨hrow ▸ hcreate, fun v' hv' => ?_⟩
      rw [htarget] at hv'
      cases hv'
      exact hv
    | _ => exact hq.elim
  | _ => exact hq.elim

/-! ## Creation and archiving -/

/-- The commit of `create_vm` links and queues the VM that it inserts. -/
theorem wp_provisionVm {payload : CreateVMRequest} {user : User}
    {organization : OrganizationContext} {template : VMTemplate}
    {assignment : Option LabAssignment} {cluster : ProxmoxCluster} {node reason : String}
    (ht : Serving p (.createVm caller payload) [] t) :
    wp ((conduct settings outside).contract p)
      (provisionVm user organization payload template assignment cluster node reason)
      (fun _ _ => True) t := by
  unfold provisionVm
  refine wp_looking rfl (keeps_allocateVmid cluster.id) ?_ ht
  rintro ⟨vmid, allocated⟩ t₁ hallocated h₁
  refine wp_looking rfl (R := fun _ => True) ((keeps_draw _ _).mpr fun _ => trivial) ?_ h₁
  intro id t₂ _ h₂
  have henqueue := keeps_enqueueCreation
    (W := fun w => (Request.createVm caller payload).mayWrite w ∧ w.RestsOn [])
    (K := (Request.createVm caller payload).mayCall)
    (R := fun ws => ∀ w ∈ ws, ∃ row, w = .operation (.insert row) ∧ Queued row ∧
      row.operationType = .create ∧ row.target = .studentVm id)
    { organizationId := some organization.id
      requestedBy := some user.id
      operationType := .create
      target := .studentVm id
      payload := { autoStart := some payload.autoStart, placementReason := some reason }
      idempotencyKey := some (.vmCreate id) }
    { id := id
      organizationId := organization.id
      proxmoxClusterId := some cluster.id
      ownerId := user.id
      templateId := template.id
      vmName := safeVmName user.username payload.labName vmid
      vmid := vmid
      proxmoxNode := node
      status := .provisioning
      deletedAt := none } rfl rfl rfl rfl (fun _ h => h)
  refine wp_looking rfl henqueue ?_ h₂
  rintro ⟨operation, queued⟩ t₃ hqueued h₃
  refine wp_seq (R := fun _ _ => True) ?_ (fun _ _ _ => trivial) (fun _ _ _ => trivial)
  rw [wp_commit]
  intro t₄ hr₄ _ _
  refine ⟨(h₃.rely hr₄).conducted rfl ?_, fun _ => trivial, fun _ _ => trivial⟩
  intro ws hws w hw
  injection hws with hws
  rw [← hws] at hw ⊢
  have hinserted : Write.vm (.insert {
      id := id
      organizationId := organization.id
      proxmoxClusterId := some cluster.id
      ownerId := user.id
      templateId := template.id
      vmName := safeVmName user.username payload.labName vmid
      vmid := vmid
      proxmoxNode := node
      status := .provisioning
      deletedAt := none }) ∈ allocated ++ [Write.vm (.insert {
      id := id
      organizationId := organization.id
      proxmoxClusterId := some cluster.id
      ownerId := user.id
      templateId := template.id
      vmName := safeVmName user.username payload.labName vmid
      vmid := vmid
      proxmoxNode := node
      status := .provisioning
      deletedAt := none })] ++ linkWrites assignment id ++ queued := by simp
  simp only [List.mem_append, List.mem_singleton] at hw
  rcases hw with ((hw | rfl) | hw) | hw
  · obtain ⟨a, rfl⟩ := hallocated w hw
    exact ⟨trivial, trivial⟩
  · exact ⟨⟨rfl, rfl, by simp⟩, trivial⟩
  · unfold linkWrites at hw
    split at hw
    · rw [List.mem_singleton.mp hw]
      exact ⟨trivial, _, hinserted, rfl⟩
    · cases hw
  · obtain ⟨row, rfl, hq, htype, htarget⟩ := hqueued w hw
    refine ⟨⟨hq, htype⟩, ?_, fun _ => ⟨_, hinserted, htarget⟩⟩
    intro h
    cases h

/-- The creation of a VM links and queues only what it inserts. -/
theorem wp_createVm {payload : CreateVMRequest}
    (ht : Serving p (.createVm caller payload) [] t) :
    wp ((conduct settings outside).contract p) (createVm caller payload)
      (fun _ _ => True) t := by
  have hselect : ∀ {W : Write → Prop} {K : Call → Prop}, Keeps W K (fun _ => True) select :=
    (keeps_select _).mpr fun _ => trivial
  have hcheck : ∀ {W : Write → Prop} {K : Call → Prop} {α : Type} (x : Except Exc α),
      Keeps W K (fun _ => True) (check x) := fun x => (keeps_check x _).mpr fun _ _ => trivial
  unfold createVm
  refine wp_looking rfl (keeps_currentCaller caller) ?_ ht
  rintro ⟨user, organization⟩ t₁ _ h₁
  refine wp_looking rfl hselect ?_ h₁
  intro s t₂ _ h₂
  refine wp_looking rfl (hcheck _) ?_ h₂
  intro template t₃ _ h₃
  refine wp_looking rfl (keeps_requestedAssignment _ _ _ _) ?_ h₃
  intro assignment t₄ _ h₄
  refine wp_looking rfl hselect ?_ h₄
  intro s' t₅ _ h₅
  refine wp_looking rfl (hcheck _) ?_ h₅
  intro cluster t₆ _ h₆
  refine wp_looking rfl (keeps_placeVm (fun c => mayCall_quiet) cluster template) ?_ h₆
  rintro ⟨node, reason⟩ t₇ _ h₇
  exact wp_provisionVm h₇

/-- The commit of `delete_app_record_admin` follows from what the process read last but one. -/
theorem wp_archive {vm : StudentVM} (ht : Serving p (.deleteAppRecordAdmin caller vm.id) [] t) :
    wp ((conduct settings outside).contract p)
      (do
        let s ← select
        let now ← utcnow
        commit (archiveWrites (assignmentOfVm s.db vm.id) ++ [.vm (.tombstone vm.id now)]))
      (fun _ _ => True) t := by
  rw [wp_bind, wp_select]
  intro t₁ hr₁ _ _
  have h₁ := ht.rely hr₁
  refine ⟨h₁.conducted rfl (fun _ hws => by cases hws), ?_⟩
  have h₂ : Serving p (.deleteAppRecordAdmin caller vm.id) []
      ((machine outside).exec p (.select .rows) t₁) := h₁.cons rfl
  have hview₁ : ((conduct settings outside).contract p).machine.view t₁ = t₁.store := rfl
  rw [hview₁, Post.andThen_ok, wp_bind, wp_utcnow]
  intro t₃ hr₃ _ _
  have h₃ := h₂.rely hr₃
  refine ⟨h₃.conducted rfl (fun _ hws => by cases hws), ?_⟩
  have h₄ : Serving p (.deleteAppRecordAdmin caller vm.id) []
      ((machine outside).exec p (.select .rows) t₃) := h₃.cons rfl
  rw [Post.andThen_ok, wp_commit]
  intro t₅ hr₅ _ _
  refine ⟨(h₄.rely hr₅).conducted rfl ?_, fun _ => trivial, fun _ _ => trivial⟩
  intro ws hws w hw
  injection hws with hws
  rw [← hws] at hw
  have hentries : entriesOf p t₅.log = .stmt p (.select .rows) t₃.store ::
      .stmt p (.select .rows) t₁.store :: entriesOf p t₁.log := by
    have hown₁ : entriesOf p ((machine outside).exec p (.select .rows) t₁).log = _ :=
      entriesOf_exec p (.select .rows) t₁
    have hown₃ : entriesOf p ((machine outside).exec p (.select .rows) t₃).log = _ :=
      entriesOf_exec p (.select .rows) t₃
    have hrely₃ : entriesOf p t₃.log = _ := hr₃.entries.trans hown₁
    rw [hrely₃] at hown₃
    exact hr₅.entries.trans hown₃
  rcases List.mem_append.mp hw with hw | hw
  · cases hassignment : assignmentOfVm t₁.store.db vm.id with
    | none =>
      rw [hassignment] at hw
      cases hw
    | some a =>
      rw [hassignment] at hw
      rw [List.mem_singleton.mp hw]
      refine ⟨?_, caller, vm.id, rfl, t₃.store, t₁.store, _, a, hentries, hassignment, rfl, rfl⟩
      show _ = none ∨ _ = some AssignmentStatus.assigned
      split
      · exact Or.inr rfl
      · exact Or.inl rfl
  · rw [List.mem_singleton.mp hw]
    exact ⟨rfl, trivial⟩

/-- The deletion of an application record is one of a record that was found. -/
theorem wp_deleteAppRecordAdmin {vmId : ℕ}
    (ht : Serving p (.deleteAppRecordAdmin caller vmId) [] t) :
    wp ((conduct settings outside).contract p) (deleteAppRecordAdmin caller vmId)
      (fun _ _ => True) t := by
  unfold deleteAppRecordAdmin
  refine wp_looking rfl (keeps_currentCaller caller) ?_ ht
  rintro ⟨user, organization⟩ t₁ _ h₁
  refine wp_looking rfl (R := fun _ => True) ((keeps_check _ _).mpr fun _ _ => trivial) ?_ h₁
  intro _ t₂ _ h₂
  refine wp_looking rfl (R := fun _ => True) ((keeps_run _ _).mpr ⟨trivial, fun _ => trivial⟩) ?_ h₂
  intro s t₃ _ h₃
  refine wp_looking rfl (R := fun vm => vm.id = vmId) ?_ ?_ h₃
  · rw [keeps_orRaise]
    intro vm hvm
    have := (Table.first_some hvm).2
    simp only [Bool.and_eq_true, decide_eq_true_eq] at this
    exact this.1.1
  · rintro vm t₄ rfl h₄
    refine wp_looking rfl (keeps_verifyNotFound (fun c => mayCall_quiet) vm) ?_ h₄
    intro _ t₅ _ h₅
    exact wp_archive h₅

/-! ## Every request but the worker's -/

/-- A write that a plain request may make is grounded. -/
theorem Request.mayWrite_grounded {r : Request} (hr : r.isPlain = true) {w : Write}
    (h : r.mayWrite w) (t : Sys H) (ws : List Write) : w.Grounded r p t ws := by
  cases w with
  | vm w =>
    cases r with
    | createLabRun _ _ =>
      obtain ⟨_, hw⟩ := h
      cases hw
    | revokeRunAssignment _ _ _ => cases h
    | _ => first | exact h.elim | cases hr
  | operation w =>
    cases w with
    | insert row =>
      have hdelete : row.operationType = .delete ∧ r.searches = false := by
        cases r with
        | changeLabRunState _ _ _ _ => exact ⟨h.2, rfl⟩
        | cleanupWorker => exact ⟨h.2, rfl⟩
        | createLabRun _ _ =>
          obtain ⟨_, hw⟩ := h
          cases hw
        | revokeRunAssignment _ _ _ => cases h
        | _ => first | exact h.elim | cases hr
      refine ⟨fun hs => ?_, fun hc => ?_⟩
      · rw [hdelete.2] at hs
        cases hs
      · rw [hdelete.1] at hc
        cases hc
    | _ => trivial
  | assignment w =>
    cases w with
    | link a v =>
      cases r with
      | createLabRun _ _ =>
        obtain ⟨_, hw⟩ := h
        cases hw
      | revokeRunAssignment _ _ _ => cases h
      | _ => first | exact h.elim | cases hr
    | unlink a s =>
      cases r with
      | createLabRun _ _ =>
        obtain ⟨_, hw⟩ := h
        cases hw
      | revokeRunAssignment _ _ _ => cases h
      | _ => first | exact h.elim | cases hr
    | _ => trivial
  | _ => trivial

/-- What an endpoint returns is dropped. -/
theorem wp_discard {C : Contract Api (Sys H)} {α : Type} {prog : Action α} {t : Sys H}
    (h : wp C prog (fun _ _ => True) t) : wp C (discard prog) (fun _ _ => True) t :=
  wp_seq h (fun _ _ _ => trivial) fun _ _ _ => trivial

/-- The program of every request but a turn of the operation worker keeps the discipline. -/
theorem wp_request (hr : r.isWorker = false) (ht : Entry.enter p r ∈ t.log) :
    wp ((conduct settings outside).contract p) (program settings r) (fun _ _ => True) t := by
  have h : Serving p r [] t := ⟨ht, by simp⟩
  cases hplain : r.isPlain with
  | true =>
    refine Maintains.safe (J := Serving p r []) (R := fun _ => True) ?_ h
    refine Maintains.of_ensures ?_ (keeps_program settings r hplain)
    exact serving_tolerates hr fun w hw => ⟨hw, fun t ws _ =>
      Request.mayWrite_grounded hplain hw t ws⟩
  | false =>
    cases r with
    | listVms caller => exact wp_discard (wp_listVms h)
    | createVm caller payload => exact wp_discard (wp_createVm h)
    | vmPower caller vm action => exact wp_discard (wp_vmPower h)
    | refreshVmStatus caller vm => exact wp_refreshVmStatus h
    | deleteVmRecord caller vm confirmation => exact wp_discard (wp_deleteVmRecord h)
    | deleteAppRecordAdmin caller vm => exact wp_deleteAppRecordAdmin h
    | reconcileVms caller => exact wp_discard (wp_reconcileVms h)
    | bulkVmAction caller run action => exact wp_bulkVmAction h
    | reconciliationWorker => exact wp_reconciliationWorker h
    | operationWorker workerId => cases hr
    | _ => cases hplain

end Grounds

end LabGoblin
