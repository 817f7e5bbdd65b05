import LabGoblin.Analysis.Locking
import LabGoblin.Analysis.Slots

/-!
# Assigning slots and linking VMs under locks

`create_run_assignment` and `bulk_create_run_assignments` write under the lock on the run, within
the quota that its row says. `create_vm` links under the lock on the assignment, which its row
says to be assigned and without a VM.
-/

set_option autoImplicit false

namespace LabGoblin

open Interactive

/-! ## Slots of a run -/

/-- The write assigns a slot of the run that is `within` what is asked for. -/
inductive Fills (run : ℕ) (within : ℕ → ℕ → Prop) (expiresAt : Option Time) (db : Db) :
    Write → Prop
  | insert (row : LabAssignment) (hrun : row.labRunId = run)
      (hwithin : within row.userId row.slotIndex) (hstatus : row.status = .assigned)
      (hlink : row.studentVmId = none) (hexpires : row.expiresAt = expiresAt) :
      Fills run within expiresAt db (.assignment (.insert row))
  | reassign (b : LabAssignment) (templateId : ℕ) (hb : b ∈ db.labAssignments.rows)
      (hrun : b.labRunId = run) (hwithin : within b.userId b.slotIndex) :
      Fills run within expiresAt db (.assignment (.reassign b.id templateId expiresAt))

section Fills

variable {run : ℕ} {within : ℕ → ℕ → Prop} {expiresAt : Option Time} {db : Db}

/-- Writes that assign slots drop and link no assignment, so they spare every slot. -/
theorem Fills.spares {ws : List Write} (h : ∀ w ∈ ws, Fills run within expiresAt db w)
    (run' user slot : ℕ) (db' : Db) : Spares run' user slot db' ws := by
  intro w hw
  cases h _ hw with
  | insert row _ _ hstatus hlink _ => exact Or.inl ⟨row, rfl, hstatus, hlink⟩
  | reassign b templateId _ _ _ => exact Or.inr (Or.inl ⟨_, _, _, rfl⟩)

/-- What may be assigned may be so while everything that is locked is kept. -/
theorem Fills.kept {p : Pid} {s s' : Store} {w : Write} (h : Fills run within expiresAt s.db w)
    (hkept : s.Kept p s') : Fills run within expiresAt s'.db w := by
  cases h with
  | insert row hrun hwithin hstatus hlink hexpires =>
    exact .insert row hrun hwithin hstatus hlink hexpires
  | reassign b templateId hb hrun hwithin =>
    obtain ⟨b', hb', hsame⟩ := hkept.places _ _ (Table.get?_of_mem hb)
    rw [← hsame.id]
    refine .reassign b' templateId (Table.mem_of_get? hb') (hsame.labRunId.trans hrun) ?_
    rw [hsame.userId, hsame.slotIndex]
    exact hwithin

end Fills

/-- The slots of a run that its quota allows. -/
def withinQuota (run : LabRun) (_user slot : ℕ) : Prop :=
  1 ≤ slot ∧ slot ≤ run.maxVmsPerStudent

section Assigning

variable {p : Pid} {run : LabRun} {lab : Lab} {s : Store}

/-- What `_create_assignment` writes after writes that assign slots assigns a slot. -/
theorem SlotWrites.fills {user slot : ℕ} {flushed ws : List Write} {db : Db}
    (h : SlotWrites run user slot flushed db ws) (hpositive : 1 ≤ slot)
    (hquota : slot ≤ run.maxVmsPerStudent) :
    ∀ w ∈ ws, Fills run.id (withinQuota run) run.endsAt db w := by
  intro w hw
  cases h with
  | none _ => cases hw
  | reassign b templateId hb hslot _ =>
    rw [List.mem_singleton.mp hw]
    refine .reassign b templateId hb hslot.labRunId ?_
    rw [hslot.slotIndex]
    exact ⟨hpositive, hquota⟩
  | insert row hslot hstatus hlink hexpires =>
    rw [List.mem_singleton.mp hw]
    refine .insert row hslot.labRunId ?_ hstatus hlink hexpires
    rw [hslot.slotIndex]
    exact ⟨hpositive, hquota⟩

/-- Assigning one slot reads, and adds writes that assign within the quota. -/
theorem reads_assign {payload : LabAssignmentCreate} {flushed : List Write}
    (hflushed : ∀ w ∈ flushed, Fills run.id (withinQuota run) run.endsAt s.db w) :
    Reads (Store.Kept p) (fun r s' => ∀ w ∈ flushed ++ r.2.2,
        Fills run.id (withinQuota run) run.endsAt s'.db w)
      (createAssignment run lab payload flushed) s := by
  refine Reads.mono (Reads.last (Store.Kept.refl p) (fun _ _ _ => .trans)
    (reads_createAssignment (Store.Kept.refl p) (fun _ _ _ => .trans) ?_)) ?_
  · intro s' slot _ _ _ _
    exact Fills.spares hflushed _ _ _ _
  · rintro ⟨id, created, ws⟩ s' ⟨hkept, s₂, slot, -, hkept₂, hpositive, hquota, -, hwrites⟩ w hw
    rcases List.mem_append.mp hw with hw | hw
    · exact (hflushed w hw).kept hkept
    · exact (hwrites.fills hpositive hquota w hw).kept hkept₂

/-- The loops of `bulk_create_run_assignments`, by induction on the requests. -/
theorem reads_assignAll {payloads : List LabAssignmentCreate} {done : ℕ × List Write}
    (hdone : ∀ w ∈ done.2, Fills run.id (withinQuota run) run.endsAt s.db w) :
    Reads (Store.Kept p) (fun r s' => ∀ w ∈ r.2,
        Fills run.id (withinQuota run) run.endsAt s'.db w)
      (createAssignments run lab done payloads) s := by
  induction payloads generalizing done s with
  | nil => exact hdone
  | cons payload payloads ih =>
    obtain ⟨n, flushed⟩ := done
    unfold createAssignments
    rw [reads_bind]
    refine Reads.mono (reads_assign hdone) ?_
    rintro ⟨id, created, ws⟩ s' h
    exact ih h

end Assigning

/-- What a commit of `create_run_assignment` or `bulk_create_run_assignments` rests on. -/
structure AssignsLocked {H : Type} (p : Pid) (runId : ℕ) (ws : List Write) (t : Sys H)
    (run : LabRun) : Prop where
  locked : LockedRun p run t.store
  id : run.id = runId
  «open» : run.state.closed = false
  fills : ∀ w ∈ ws, Fills runId (withinQuota run) run.endsAt t.store.db w

/-- The process holds the lock on the assignment, and has read its row under it. -/
structure LockedAssignment (p : Pid) (a : LabAssignment) (s : Store) : Prop where
  lock : (.labAssignment a.id, p) ∈ s.locks
  row : s.db.labAssignments.get? a.id = some a

/-- An assignment that is locked stays as it was read. -/
theorem LockedAssignment.kept {p : Pid} {a : LabAssignment} {s s' : Store}
    (h : LockedAssignment p a s) (hkept : s.Kept p s') : LockedAssignment p a s' :=
  ⟨hkept.locks _ h.lock, (hkept.assignments _ h.lock).trans h.row⟩

/-- What a commit of `create_vm` rests on: the assignments that it links are assigned, have no
VM, and are the ones that the VM was made for. -/
def LinksLocked {H : Type} (p : Pid) (ws : List Write) (t : Sys H) : Prop :=
  ∀ a v, .assignment (.link a v) ∈ ws → ∃ row vm, row.id = a ∧ LockedAssignment p row t.store ∧
    row.status = .assigned ∧ row.studentVmId = none ∧ .vm (.insert vm) ∈ ws ∧ vm.id = v ∧
    vm.ownerId = row.userId ∧ vm.organizationId = row.organizationId ∧
    vm.templateId = row.templateId

section Programs

variable {H : Type} {settings : Settings} {outside : Outside H} {ok : Condition H}
  {ground : Pid → List Write → Sys H → Prop} {p : Pid} {t : Sys H}

/-- `create_run_assignment` commits within the quota of the run it has locked. -/
theorem wp_createRunAssignment {caller : Caller} {runId : ℕ} {payload : LabAssignmentCreate}
    (hground : ∀ ws t run, Entry.enter p (.createRunAssignment caller runId payload) ∈ t.log →
      AssignsLocked p runId ws t run → ground p ws t)
    (ht : Entry.enter p (.createRunAssignment caller runId payload) ∈ t.log) :
    wp ((locking settings outside ok ground).contract p)
      (createRunAssignment caller runId payload) (fun _ _ => True) t := by
  unfold createRunAssignment openRunForUser
  refine wp_reading (.refl p t) (reads_currentInstructor caller) ?_ fun _ _ _ => trivial
  rintro ⟨user, organization⟩ _ t₁ h₁ _ _
  simp only [bind_assoc, pure_bind]
  refine wp_lockRun h₁ ?_ fun _ _ _ => trivial
  intro run lab t₂ _ _ h₂ hlocked hid _ _ _ _ _
  refine wp_raiseIf_bind (fun hopen => ?_) trivial
  refine wp_reading (.refl p t₂) (reads_assign fun _ hw => absurd hw List.not_mem_nil) ?_
    fun _ _ _ => trivial
  rintro ⟨id, created, writes⟩ s₃ t₃ h₃ hkept₃ hwrites
  rw [List.nil_append] at hwrites
  rw [wp_bind]
  refine wp_grounded (.refl p t₃) ?_ fun r _ _ => by cases r <;> trivial
  intro t₄ h₄
  refine hground _ t₄ run ((h₂.trans h₃).trans h₄ |>.log.subset ht)
    ⟨(hlocked.kept h₃.kept).kept h₄.kept, hid, ?_, ?_⟩
  · simpa using hopen
  · intro w hw
    rw [← hid]
    exact ((hwrites w hw).kept hkept₃).kept h₄.kept

/-- The creation of the assignments of a run commits under the lock on the run. -/
theorem wp_bulkCreateRunAssignments {caller : Caller} {runId slots : ℕ}
    (hground : ∀ ws t run, Entry.enter p (.bulkCreateRunAssignments caller runId slots) ∈ t.log →
      AssignsLocked p runId ws t run → ground p ws t)
    (ht : Entry.enter p (.bulkCreateRunAssignments caller runId slots) ∈ t.log) :
    wp ((locking settings outside ok ground).contract p)
      (bulkCreateRunAssignments caller runId slots) (fun _ _ => True) t := by
  unfold bulkCreateRunAssignments openRunForUser
  refine wp_reading (.refl p t) (reads_currentInstructor caller) ?_ fun _ _ _ => trivial
  rintro ⟨user, organization⟩ _ t₁ h₁ _ _
  simp only [bind_assoc, pure_bind]
  refine wp_lockRun h₁ ?_ fun _ _ _ => trivial
  intro run lab t₂ _ _ h₂ hlocked hid _ _ _ _ _
  refine wp_raiseIf_bind (fun hopen => ?_) trivial
  refine wp_raiseIf_bind (fun _ => ?_) trivial
  refine wp_readStmt (.refl p t₂) trivial ?_
  intro t₃ _ _ _ h₃
  refine wp_reading h₃ (reads_assignAll (p := p) (by simp)) ?_ fun _ _ _ => trivial
  rintro ⟨created, writes⟩ s₄ t₄ h₄ hkept₄ hwrites
  rw [wp_bind]
  refine wp_grounded (.refl p t₄) ?_ fun r _ _ => by cases r <;> trivial
  intro t₅ h₅
  refine hground _ t₅ run ((h₂.trans h₄).trans h₅ |>.log.subset ht)
    ⟨(hlocked.kept h₄.kept).kept h₅.kept, hid, ?_, ?_⟩
  · simpa using hopen
  · intro w hw
    rw [← hid]
    exact ((hwrites w hw).kept hkept₄).kept h₅.kept

/-! ## Provisioning -/

/-- What `assignment_for_provisioning` returns is locked, assigned and without a VM. -/
theorem wp_assignmentForProvisioning {β : Type} {assignmentId : Option ℕ}
    {userId organizationId templateId : ℕ} {f : LabAssignment → Action β}
    {Q : Post Api (Sys H) β} {t₁ : Sys H} (ht : Within p t₁ t)
    (hf : ∀ a t', Within p t₁ t' → LockedAssignment p a t'.store → a.organizationId =
      organizationId → a.userId = userId → a.templateId = templateId → a.status = .assigned →
      a.studentVmId = none →
      wp ((locking settings outside ok ground).contract p) (f a) Q t')
    (herr : ∀ e t', Within p t₁ t' → Q (.error e) t') :
    wp ((locking settings outside ok ground).contract p)
      (assignmentForProvisioning assignmentId userId organizationId templateId >>= f) Q t := by
  unfold assignmentForProvisioning
  simp only [bind_assoc]
  refine wp_orRaise_bind (fun id _ => ?_) (herr _ _ ht)
  refine wp_readStmt ht trivial ?_
  intro t₂ _ _ _ h₂
  refine wp_orRaise_bind (fun a ha => ?_) (herr _ _ h₂)
  obtain ⟨hmem, hcond⟩ := Table.first_some ha
  simp only [Bool.and_eq_true, decide_eq_true_eq] at hcond
  have hlocked : LockedAssignment p a ((machine outside).exec p
      (.lock (.labAssignment id organizationId userId)) t₂).store := by
    refine ⟨List.mem_append_left _ ?_, Table.get?_of_mem hmem⟩
    simp [LockQuery.locks, ha]
  refine wp_readStmt (.refl p _) trivial ?_
  intro t₃ _ _ _ h₃
  refine wp_orRaise_bind (fun run hrun => ?_) (herr _ _ (h₂.trans h₃))
  rw [Option.filter_eq_some_iff] at hrun
  refine wp_readStmt h₃ trivial ?_
  intro t₄ _ _ _ h₄
  refine wp_orRaise_bind (fun lab _ => ?_) (herr _ _ (h₂.trans h₄))
  refine wp_check_bind (fun a' ha' => ?_) fun e => herr e _ (h₂.trans h₄)
  unfold provisionable at ha'
  split at ha'
  · cases ha'
  · rename_i htemplate
    split at ha'
    · cases ha'
    · rename_i hfree
      cases ha'
      have hlive : a.status.live = true := by
        have hopen := hrun.2
        simp only [assignmentEffectivelyOpen, Bool.and_eq_true] at hopen
        exact hopen.1.1
      refine hf a _ (h₂.trans h₄) (hlocked.kept h₄.kept) hcond.1.2 hcond.2 ?_ ?_ ?_
      · simpa using htemplate
      · cases hstatus : a.status <;> simp_all [AssignmentStatus.live]
      · cases hvm : a.studentVmId with
        | none => rfl
        | some v => simp [hvm] at hfree

/-- Choosing nodes by their storage reads. -/
theorem reads_withStorage {le : Store → Store → Prop} {s : Store} (cluster : ProxmoxCluster)
    (storage : Option String) (allowed : List String) :
    Reads le (fun _ _ => True) (withStorage cluster storage allowed) s := by
  unfold withStorage
  split
  · exact trivial
  · rw [reads_bind]
    refine (reads_await _ _).mpr fun rows => ?_
    rw [reads_bind, reads_raiseIf]
    exact fun _ => trivial

/-- Choosing nodes by their bridges reads. -/
theorem reads_withBridge {le : Store → Store → Prop} {s : Store} (cluster : ProxmoxCluster)
    (bridge : Option String) (allowed : List String) :
    Reads le (fun _ _ => True) (withBridge cluster bridge allowed) s := by
  unfold withBridge
  split
  · exact trivial
  · rw [reads_bind]
    refine (reads_await _ _).mpr fun rows => ?_
    rw [reads_bind, reads_raiseIf]
    exact fun _ => trivial

/-- Placing a VM reads. -/
theorem reads_placeVm {le : Store → Store → Prop} {s : Store} (cluster : ProxmoxCluster)
    (template : VMTemplate) : Reads le (fun _ _ => True) (placeVm cluster template) s := by
  unfold placeVm
  rw [reads_bind, reads_select]
  intro s' _
  rw [reads_bind]
  refine (reads_await _ _).mpr fun templates => ?_
  rw [reads_bind, reads_raiseIf]
  intro _
  rw [reads_bind]
  refine Reads.mono (reads_withStorage cluster _ _) ?_
  intro allowed s₂ _
  rw [reads_bind]
  refine Reads.mono (reads_withBridge cluster _ _) ?_
  intro allowed s₃ _
  split <;> simp

/-- Allocating an identifier writes the allocator only. -/
theorem reads_allocateVmid {le : Store → Store → Prop} {s : Store} (cluster : ℕ) :
    Reads le (fun r _ => ∀ w ∈ r.2, ∃ a, w = .allocator a) (allocateVmid cluster) s := by
  unfold allocateVmid
  simp only [reads_bind, reads_run]
  refine ⟨trivial, fun s₁ _ => ?_⟩
  cases s₁.db.vmidAllocators.first fun a => a.scope = cluster with
  | some allocator =>
    simp [findAllocator]
  | none =>
    simp [findAllocator]

/-- The commit of `create_vm` links the assignment under its lock. -/
theorem wp_provisionVm_locked {user : User} {organization : OrganizationContext}
    {payload : CreateVMRequest} {template : VMTemplate} {assignment : Option LabAssignment}
    {cluster : ProxmoxCluster} {node reason : String} {r : Request}
    (hground : ∀ ws t, Entry.enter p r ∈ t.log → LinksLocked p ws t → ground p ws t)
    (ht : Entry.enter p r ∈ t.log)
    (hassignment : ∀ a, assignment = some a → LockedAssignment p a t.store ∧
      a.organizationId = organization.id ∧ a.userId = user.id ∧ a.templateId = template.id ∧
      a.status = .assigned ∧ a.studentVmId = none) :
    wp ((locking settings outside ok ground).contract p)
      (provisionVm user organization payload template assignment cluster node reason)
      (fun _ _ => True) t := by
  unfold provisionVm
  refine wp_reading (.refl p t) (reads_allocateVmid cluster.id) ?_ fun _ _ _ => trivial
  rintro ⟨vmid, allocated⟩ _ t₁ h₁ _ hallocated
  refine wp_reading (R := fun _ _ => True) h₁ (by simp) ?_ fun _ _ _ => trivial
  intro id _ t₂ h₂ _ _
  refine wp_reading (R := fun r _ => ∀ w ∈ r.2, ∃ row, w = .operation (.insert row)) h₂ ?_ ?_
    fun _ _ _ => trivial
  · refine reads_enqueueOperation _ _ _ ?_ ?_ ?_
    · intro o s' key _ _ _ w hw
      cases hw
    · intro _ o s' w hw
      cases hw
    · intro row s' _ w hw
      exact ⟨row, List.mem_singleton.mp hw⟩
  rintro ⟨operation, queued⟩ _ t₃ h₃ _ hqueued
  rw [wp_bind]
  refine wp_grounded h₃ ?_ fun r _ _ => by cases r <;> trivial
  intro t₄ h₄
  refine hground _ t₄ (h₄.log.subset ht) ?_
  intro a v hlink
  simp only [List.mem_append, List.mem_singleton] at hlink
  rcases hlink with ((hw | hw) | hw) | hw
  · obtain ⟨_, heq⟩ := hallocated _ hw
    cases heq
  · cases hw
  · cases hsome : assignment with
    | none =>
      rw [hsome] at hw
      cases hw
    | some row =>
      rw [hsome] at hw
      cases List.mem_singleton.mp hw
      obtain ⟨hlocked, horganization, huser, htemplate, hstatus, hfree⟩ := hassignment row hsome
      exact ⟨row, _, rfl, hlocked.kept h₄.kept, hstatus, hfree, List.mem_append_left _
        (List.mem_append_left _ (List.mem_append_right _ (List.mem_singleton_self _))), rfl,
        huser.symm, horganization.symm, htemplate.symm⟩
  · obtain ⟨_, heq⟩ := hqueued _ hw
    cases heq

/-- Provisioning a placed VM links its assignment under the lock on it. -/
theorem wp_placedVm_locked {caller : Caller} {payload : CreateVMRequest} {user : User}
    {organization : OrganizationContext} {template : VMTemplate}
    {assignment : Option LabAssignment}
    (hground : ∀ ws t, Entry.enter p (.createVm caller payload) ∈ t.log → LinksLocked p ws t →
      ground p ws t)
    (ht : Entry.enter p (.createVm caller payload) ∈ t.log)
    (hassignment : ∀ a, assignment = some a →
      LockedAssignment p a t.store ∧ a.organizationId = organization.id ∧ a.userId = user.id ∧
        a.templateId = template.id ∧ a.status = .assigned ∧ a.studentVmId = none) :
    wp ((locking settings outside ok ground).contract p) (do
      let s ← select
      let cluster ← check (activeCluster s.db template)
      let (node, reason) ← placeVm cluster template
      provisionVm user organization payload template assignment cluster node reason)
      (fun _ _ => True) t := by
  refine wp_readStmt (.refl p t) trivial ?_
  intro t₁ _ _ _ h₁
  refine wp_check_bind (fun cluster _ => ?_) fun _ => trivial
  refine wp_reading h₁ (reads_placeVm cluster template) ?_ fun _ _ _ => trivial
  rintro ⟨node, reason⟩ _ t₂ h₂ _ _
  refine wp_provisionVm_locked hground (h₂.log.subset ht) ?_
  intro a ha
  obtain ⟨hlocked, hfields⟩ := hassignment a ha
  exact ⟨hlocked.kept h₂.kept, hfields⟩

/-- The creation of a VM links its assignment under the lock on it. -/
theorem wp_createVm_locked {caller : Caller} {payload : CreateVMRequest}
    (hground : ∀ ws t, Entry.enter p (.createVm caller payload) ∈ t.log → LinksLocked p ws t →
      ground p ws t)
    (ht : Entry.enter p (.createVm caller payload) ∈ t.log) :
    wp ((locking settings outside ok ground).contract p) (createVm caller payload)
      (fun _ _ => True) t := by
  unfold createVm requestedAssignment
  refine wp_reading (.refl p t) (reads_currentCaller caller) ?_ fun _ _ _ => trivial
  rintro ⟨user, organization⟩ _ t₁ h₁ _ _
  refine wp_readStmt h₁ trivial ?_
  intro t₂ _ _ _ h₂
  refine wp_check_bind (fun template htemplate => ?_) fun _ => trivial
  by_cases hrole : organization.role = .student
  · rw [if_pos hrole, bind_assoc]
    refine wp_assignmentForProvisioning h₂ ?_ fun _ _ _ => trivial
    intro a t₃ h₃ hlocked horganization huser htemplate hstatus hfree
    refine wp_placedVm_locked hground (h₃.log.subset ht) ?_
    rintro a' ha'
    cases ha'
    exact ⟨hlocked, horganization, huser, htemplate, hstatus, hfree⟩
  · rw [if_neg hrole]
    refine wp_placedVm_locked hground (h₂.log.subset ht) ?_
    intro a ha
    cases ha

end Programs

end LabGoblin
