import LabGoblin.Analysis.SavingSound
import LabGoblin.Analysis.TenancyRules

/-!
# Every request keeps tenancy

What the endpoints and the workers look up belongs to the organization of their caller, or to that
of the assignment that they look at, and they write nothing that refers to anything else.
-/

set_option autoImplicit false

namespace LabGoblin

open Interactive

/-! ## Lookups -/

section Lookups

variable {db : Db} {organization : OrganizationContext} {user : User}

/-- A class that is found belongs to the organization of the caller. -/
theorem classOr404_org {classId : ℕ} {c : Class}
    (h : classOr404 db classId organization user = .ok c) :
    db.classes.get? classId = some c ∧ c.id = classId ∧ c.organizationId = organization.id := by
  unfold classOr404 at h
  split at h
  · cases h
  · split at h
    · cases h
    · next row hfound =>
      cases h
      obtain ⟨hmem, hcond⟩ := Table.first_some hfound
      simp only [Bool.and_eq_true, decide_eq_true_eq] at hcond
      obtain ⟨⟨horg, hid⟩, -⟩ := hcond
      rw [← hid]
      exact ⟨Table.get?_of_mem hmem, rfl, horg⟩

/-- A lab that is found belongs to the organization of the caller. -/
theorem labForUser_org {labId : ℕ} {lab : Lab}
    (h : labForUser db labId organization user = .ok lab) :
    db.labs.get? lab.id = some lab ∧ lab.organizationId = organization.id := by
  refine ⟨(labForUser_ok h).1, ?_⟩
  unfold labForUser at h
  cases hfound : labInOrganization db labId organization.id with
  | none =>
    rw [hfound] at h
    cases h
  | some found =>
    obtain ⟨-, hcond⟩ := Table.first_some hfound
    simp only [Bool.and_eq_true, decide_eq_true_eq] at hcond
    rw [hfound] at h
    simp only at h
    split at h
    · cases h
    · cases h
      exact hcond.2

/-- The default template of a lab belongs to the organization of the lab. -/
theorem defaultTemplate_org {lab : Lab} {template : VMTemplate}
    (h : defaultTemplate db lab = .ok template) :
    db.vmTemplates.get? template.id = some template ∧
      template.organizationId = lab.organizationId := by
  unfold defaultTemplate at h
  split at h
  · split at h
    · next found hfound =>
      cases h
      obtain ⟨hmem, hcond⟩ := Table.first_some hfound
      simp only [Bool.and_eq_true, decide_eq_true_eq] at hcond
      exact ⟨Table.get?_of_mem hmem, hcond.1.1⟩
    · cases h
  · cases h

/-- The template of an assignment belongs to the organization of the run. -/
theorem checkAssignment_org {run : LabRun} {lab : Lab} {payload : LabAssignmentCreate}
    {template : VMTemplate} {slot : ℕ} (hlab : lab.organizationId = run.organizationId)
    (h : checkAssignment db run lab payload = .ok (template, slot)) :
    db.vmTemplates.get? template.id = some template ∧
      template.organizationId = run.organizationId := by
  have htemplate : assignmentTemplate db run lab payload.templateId = .ok template := by
    unfold checkAssignment at h
    split at h
    · cases h
    · split at h
      · cases h
      · split at h
        · cases h
        · split at h
          · cases h
          · next found hfound =>
            dsimp only at h
            split at h
            · cases h
            · cases h
              exact hfound
  unfold assignmentTemplate at htemplate
  split at htemplate
  · rw [← hlab]
    exact defaultTemplate_org htemplate
  · split at htemplate
    · next found hfound =>
      cases htemplate
      obtain ⟨hmem, hcond⟩ := Table.first_some hfound
      simp only [Bool.and_eq_true, decide_eq_true_eq] at hcond
      exact ⟨Table.get?_of_mem hmem, hcond.1.2⟩
    · cases htemplate

/-- A VM that is found belongs to the organization of the caller. -/
theorem getVmForUser_org {now : Time} {vmId : ℕ} {operation : VmAccess} {vm : StudentVM}
    (h : getVmForUser db now user vmId organization operation = .ok vm) :
    db.studentVms.get? vm.id = some vm ∧ vm.organizationId = organization.id := by
  unfold getVmForUser at h
  split at h
  · cases h
  · next found hfound =>
    obtain ⟨hmem, hcond⟩ := Table.first_some hfound
    unfold vmInScope at hcond
    simp only [Bool.and_eq_true, decide_eq_true_eq] at hcond
    have hfacts := And.intro (Table.get?_of_mem hmem) hcond.2.1.1
    split at h
    · split at h
      · cases h
      · cases h
        exact hfacts
    · cases h
      exact hfacts

end Lookups

/-! ## Writes that queue operations -/

/-- The write queues operations only on VM records of organizations, as `P` allows. -/
def Write.Targets (P : ℕ → ℕ → Prop) : Write → Prop
  | .operation (.insert o) => ∃ organizationId v,
      o.organizationId = some organizationId ∧ o.target = .studentVm v ∧ P organizationId v
  | .assignment (.status _ _) => True
  | .run (.transition _ _ _ _) => True
  | _ => False

section Targets

variable {P : ℕ → ℕ → Prop}

/-- A write that queues operations on VM records of organizations belongs to the transaction. -/
theorem Write.Targets.belongs {H : Type} {w : Write} {p : Pid} {t : Sys H} {ws : List Write}
    (h : w.Targets P) (hP : ∀ organizationId v, P organizationId v →
      ∃ user, VmIn t v organizationId user) : w.Belongs p t ws := by
  cases w with
  | operation w =>
    cases w with
    | insert o =>
      obtain ⟨organizationId, v, horg, htarget, hv⟩ := h
      intro v' hv'
      rw [htarget] at hv'
      cases hv'
      obtain ⟨user, hvm⟩ := hP organizationId v hv
      exact ⟨organizationId, user, horg, Or.inl hvm⟩
    | _ => exact h.elim
  | assignment w =>
    cases w with
    | status a s => trivial
    | _ => exact h.elim
  | run w =>
    cases w with
    | transition r state activatedAt endedAt => trivial
    | _ => exact h.elim
  | _ => exact h.elim

variable {le : Store → Store → Prop} {s : Store} {flushed : List Write}

/-- What is queued is on the VM record that was asked for. -/
theorem reads_queueTarget (r : EnqueueRequest) {organizationId v : ℕ}
    (horg : r.organizationId = some organizationId) (htarget : r.target = .studentVm v)
    (hP : P organizationId v) :
    Reads le (fun x _ => ∀ w ∈ x.2, w.Targets P) (enqueueOperation r flushed) s := by
  refine reads_enqueueOperation r flushed _ ?_ ?_ ?_
  · intro o s' key _ _ _ w hw
    cases hw
  · intro _ o s' w hw
    cases hw
  · rintro row s' ⟨id, key, now, rfl, -⟩ w hw
    rw [List.mem_singleton.mp hw]
    exact ⟨organizationId, v, horg, htarget, hP⟩

/-- Two lists of such writes. -/
theorem targets_append {ws ws' : List Write} (h : ∀ w ∈ ws, w.Targets P)
    (h' : ∀ w ∈ ws', w.Targets P) : ∀ w ∈ ws ++ ws', w.Targets P := by
  intro w hw
  rcases List.mem_append.mp hw with hw | hw
  · exact h w hw
  · exact h' w hw

variable {user : User} {organization : OrganizationContext} {runId : ℕ}

/-- The loop of `change_lab_run_state`, by induction on the assignments. -/
theorem reads_closeTargets {nextState : RunState} {assignments : List LabAssignment}
    (hP : ∀ a ∈ assignments, ∀ v, a.studentVmId = some v → P organization.id v)
    (hflushed : ∀ w ∈ flushed, w.Targets P) :
    Reads le (fun ws _ => ∀ w ∈ ws, w.Targets P)
      (closeAssignments user organization runId nextState flushed assignments) s := by
  induction assignments generalizing flushed s with
  | nil => exact hflushed
  | cons a assignments ih =>
    have hrest : ∀ b ∈ assignments, ∀ v, b.studentVmId = some v → P organization.id v :=
      fun b hb => hP b (List.mem_cons_of_mem _ hb)
    have hstatus : ∀ w ∈ flushed ++ [Write.assignment (.status a.id (closedStatus nextState))],
        w.Targets P := by
      refine targets_append hflushed ?_
      intro w hw
      rw [List.mem_singleton.mp hw]
      trivial
    unfold closeAssignments closeAssignment
    cases ha : a.studentVmId with
    | none => exact ih hrest hstatus
    | some v =>
      simp only [reads_bind]
      refine Reads.mono (reads_queueTarget (P := P) _ rfl rfl (hP a List.mem_cons_self v ha)) ?_
      rintro ⟨o, queued⟩ s' hqueued
      exact ih hrest (targets_append hstatus hqueued)

/-- The loop of `bulk_vm_action`, by induction on the VMs. -/
theorem reads_bulkTargets {action : OperationType} {vmIds : List ℕ}
    (hP : ∀ v ∈ vmIds, P organization.id v) (hflushed : ∀ w ∈ flushed, w.Targets P) :
    Reads le (fun ws _ => ∀ w ∈ ws, w.Targets P)
      (queueBulk user organization runId action flushed vmIds) s := by
  induction vmIds generalizing flushed s with
  | nil => exact hflushed
  | cons vmId vmIds ih =>
    have hrest : ∀ v ∈ vmIds, P organization.id v :=
      fun v hv => hP v (List.mem_cons_of_mem _ hv)
    unfold queueBulk loadVm
    simp only [reads_bind, reads_run, reads_pure]
    refine ⟨trivial, ?_⟩
    intro s₁ _
    cases hvm : s₁.db.studentVms.get? vmId with
    | none => exact ih hrest hflushed
    | some vm =>
      have hid : vm.id = vmId := Table.get?_key hvm
      simp only [reads_bind]
      refine Reads.mono (reads_queueTarget (P := P) _ rfl rfl ?_) ?_
      · rw [hid]
        exact hP vmId List.mem_cons_self
      · rintro ⟨o, queued⟩ s' hqueued
        exact ih hrest (targets_append hflushed hqueued)

/-- The loop of `cleanup_worker.run_once`, by induction on the assignments. -/
theorem reads_expireTargets {assignments : List LabAssignment} {queued : ℕ}
    (hP : ∀ a ∈ assignments, ∀ v, a.studentVmId = some v → P a.organizationId v)
    (hflushed : ∀ w ∈ flushed, w.Targets P) :
    Reads le (fun r _ => ∀ w ∈ r.1, w.Targets P)
      (expireAssignments (flushed, queued) assignments) s := by
  induction assignments generalizing flushed queued s with
  | nil => exact hflushed
  | cons a assignments ih =>
    have hrest : ∀ b ∈ assignments, ∀ v, b.studentVmId = some v → P b.organizationId v :=
      fun b hb => hP b (List.mem_cons_of_mem _ hb)
    unfold expireAssignments
    cases ha : a.studentVmId with
    | none => exact ih hrest hflushed
    | some v =>
      have hstatus : ∀ w ∈ flushed ++ expireWrites a, w.Targets P := by
        refine targets_append hflushed ?_
        intro w hw
        unfold expireWrites at hw
        split at hw
        · cases hw
        · rw [List.mem_singleton.mp hw]
          trivial
      simp only [reads_bind]
      refine Reads.mono (reads_queueTarget (P := P) _ rfl rfl (hP a List.mem_cons_self v ha)) ?_
      rintro ⟨o, writes⟩ s' hwrites
      exact ih hrest (targets_append hstatus hwrites)

end Targets

section Programs

variable {H : Type} {settings : Settings} {outside : Outside H} {p : Pid} {t : Sys H}
  {user : User} {organization : OrganizationContext} {α β : Type}

/-- What a commit queues is on VM records of the organizations that it names. -/
theorem wp_commitTargets {P : ℕ → ℕ → Prop} {ws : List Write} (hws : ∀ w ∈ ws, w.Targets P)
    (hP : ∀ organizationId v, P organizationId v → ∃ user, VmIn t v organizationId user) :
    wp ((tenancy settings outside).contract p) (commit ws) (fun _ _ => True) t :=
  wp_commits fun w hw => (hws w hw).belongs hP

/-! ## Single VMs -/

/-- Queueing an action on a VM of the organization keeps tenancy. -/
theorem wp_queueVmAction_tenancy {vm : StudentVM} {action : OperationType}
    (hvm : ∃ owner, VmIn t vm.id organization.id owner) :
    wp ((tenancy settings outside).contract p) (queueVmAction vm user organization action)
      (fun _ _ => True) t := by
  unfold queueVmAction
  refine wp_gathers (R := fun x => ∀ w ∈ x.2, w.Targets fun o v => o = organization.id ∧ v = vm.id)
    (reads_queueTarget _ rfl rfl ⟨rfl, rfl⟩) ?_
  rintro ⟨operation, queued⟩ t₁ h₁ hqueued
  refine wp_seq (wp_commitTargets hqueued ?_) (fun _ _ _ => trivial) fun _ _ _ => trivial
  rintro o v ⟨rfl, rfl⟩
  obtain ⟨owner, hvm⟩ := hvm
  exact ⟨owner, h₁.onwards.vmIn hvm⟩

/-- Finding a VM for a user gives one of the organization, for the rest to go on with. -/
theorem wp_findVmForUser_tenancy {vmId : ℕ} {operation : VmAccess} {f : StudentVM → Action β}
    (hf : ∀ vm t', (∃ owner, VmIn t' vm.id organization.id owner) →
      wp ((tenancy settings outside).contract p) (f vm) (fun _ _ => True) t') :
    wp ((tenancy settings outside).contract p)
      (findVmForUser user vmId organization operation >>= f) (fun _ _ => True) t := by
  unfold findVmForUser
  rw [bind_assoc]
  refine wp_sees trivial ?_
  intro t₁ _ _ h₂
  refine wp_check_bind (fun vm hvm => ?_) fun _ => trivial
  obtain ⟨hrow, horg⟩ := getVmForUser_org hvm
  exact hf vm _ ⟨vm.ownerId, h₂.onwards.vmIn ⟨vm, hrow, horg, rfl⟩⟩

/-- A power action keeps tenancy. -/
theorem wp_vmPower_tenancy {caller : Caller} {vmId : ℕ} {action : PowerAction} :
    wp ((tenancy settings outside).contract p) (vmPower caller vmId action)
      (fun _ _ => True) t := by
  unfold vmPower
  refine wp_gathers (R := fun _ => True) (reads_currentCaller caller) ?_
  rintro ⟨user, organization⟩ t₁ _ -
  exact wp_findVmForUser_tenancy fun vm t₂ hvm => wp_queueVmAction_tenancy hvm

/-- The deletion of a VM record keeps tenancy. -/
theorem wp_deleteVmRecord_tenancy {caller : Caller} {vmId : ℕ} {confirmation : Confirmation} :
    wp ((tenancy settings outside).contract p) (deleteVmRecord caller vmId confirmation)
      (fun _ _ => True) t := by
  unfold deleteVmRecord
  refine wp_gathers (R := fun _ => True) (reads_currentCaller caller) ?_
  rintro ⟨user, organization⟩ t₁ _ -
  refine wp_findVmForUser_tenancy fun vm t₂ hvm => ?_
  exact wp_raiseIf_bind (fun _ => wp_queueVmAction_tenancy hvm) trivial

/-! ## Runs and their VMs -/

/-- The run of an endpoint and its lab belong to the organization of the caller. -/
theorem wp_runForUser_tenancy {runId : ℕ} {lock : Bool} {f : LabRun × Lab → Action β}
    (hf : ∀ run lab t', Along p t t' → run.organizationId = organization.id →
      lab.organizationId = organization.id → HeldRun t' run.id organization.id →
      HeldLab t' lab.id organization.id →
      wp ((tenancy settings outside).contract p) (f (run, lab)) (fun _ _ => True) t') :
    wp ((tenancy settings outside).contract p) (runForUser runId organization user lock >>= f)
      (fun _ _ => True) t := by
  unfold runForUser
  rw [bind_assoc]
  refine wp_sees ?_ ?_
  · split <;> trivial
  intro t₁ h₁ ht₁ h₁'
  rw [bind_assoc]
  refine wp_orRaise_bind (fun run hrun => ?_) trivial
  obtain ⟨hmem, hcond⟩ := Table.first_some hrun
  simp only [Bool.and_eq_true, decide_eq_true_eq] at hcond
  have hheld : HeldRun t₁ run.id organization.id := by
    rw [← hcond.2]
    exact ht₁.heldRun (Table.get?_of_mem hmem)
  show wp _ ((select >>= _) >>= f) _ _
  rw [bind_assoc]
  refine wp_sees trivial ?_
  intro t₂ h₂ ht₂ h₂'
  rw [bind_assoc]
  refine wp_check_bind (fun lab hlab => ?_) fun _ => trivial
  obtain ⟨hrow, horg⟩ := labForUser_org hlab
  have hheldLab : HeldLab t₂ lab.id organization.id := by
    rw [← horg]
    exact ht₂.heldLab hrow
  have hfrom : Along p t₁ ((machine outside).exec p (.select .rows) t₂) :=
    h₁'.trans (h₂.trans h₂')
  exact hf run lab _ (h₁.trans hfrom) hcond.2 horg (hfrom.onwards.heldRun hheld)
    (h₂'.onwards.heldLab hheldLab)

/-- An assignment of a run that is held belongs to the organization of the run. -/
theorem Tenanted.assignment_org (ht : Tenanted t) {run organizationId : ℕ}
    (hrun : HeldRun t run organizationId) {a : LabAssignment}
    (ha : a ∈ t.store.db.labAssignments.rows) (hof : a.labRunId = run) :
    a.organizationId = organizationId := by
  obtain ⟨r, hr⟩ := Option.isSome_iff_exists.mp (t.store.valid.assignments_run a ha _ rfl)
  have hheld := (ht.assignment a.id a (Table.get?_of_mem ha)).1
  rw [← hheld.eq hr]
  rw [hof] at hr
  exact hrun.eq hr

/-- A change of a run's state keeps tenancy: it queues deletions of the VMs of its assignments. -/
theorem wp_changeLabRunState_tenancy {caller : Caller} {runId : ℕ} {action : RunAction}
    {confirmation : Option Confirmation} :
    wp ((tenancy settings outside).contract p)
      (changeLabRunState caller runId action confirmation) (fun _ _ => True) t := by
  unfold changeLabRunState
  refine wp_gathers (R := fun _ => True) (reads_currentInstructor caller) ?_
  rintro ⟨user, organization⟩ t₁ _ -
  refine wp_runForUser_tenancy ?_
  intro run lab t₂ _ _ _ hrun _
  refine wp_gathers (R := fun _ => True) (by simp) ?_
  intro now t₃ h₃ _
  refine wp_check_bind (fun nextState _ => ?_) fun _ => trivial
  have hlast : ∀ (P : ℕ → ℕ → Prop) activatedAt endedAt, ∀ w ∈
      [Write.run (.transition run.id nextState activatedAt endedAt)], w.Targets P := by
    intro P activatedAt endedAt w hw
    rw [List.mem_singleton.mp hw]
    trivial
  unfold closeRun
  split
  · rw [bind_assoc]
    refine wp_sees trivial ?_
    intro t₄ h₄ ht₄ h₄'
    have hrun₄ := h₄.onwards.heldRun (h₃.onwards.heldRun hrun)
    refine wp_gathers (R := fun ws => ∀ w ∈ ws, w.Targets fun o v => ∃ owner, VmIn t₄ v o owner)
      (reads_closeTargets ?_ (by simp)) ?_
    · intro a ha v hv
      obtain ⟨hmem, hcond⟩ := List.mem_filter.mp ha
      simp only [Bool.and_eq_true, decide_eq_true_eq] at hcond
      rw [← ht₄.assignment_org hrun₄ hmem hcond.1]
      exact ⟨a.userId, (ht₄.assignment a.id a (Table.get?_of_mem hmem)).2.2 v hv⟩
    · intro writes t₅ h₅ hwrites
      refine wp_seq (wp_commitTargets (P := fun o v => ∃ owner, VmIn t₄ v o owner)
        (targets_append hwrites (hlast _ _ _)) ?_) (fun _ _ _ => trivial) fun _ _ _ => trivial
      rintro o v ⟨owner, hvm⟩
      exact ⟨owner, (h₄'.trans h₅).onwards.vmIn hvm⟩
  · rw [pure_bind]
    exact wp_seq (wp_commitTargets (P := fun _ _ => False) (hlast _ _ _) fun _ _ h => h.elim)
      (fun _ _ _ => trivial) fun _ _ _ => trivial

/-- An action on all VMs of a run keeps tenancy. -/
theorem wp_bulkVmAction_tenancy {caller : Caller} {runId : ℕ} {action : BulkAction} :
    wp ((tenancy settings outside).contract p) (bulkVmAction caller runId action)
      (fun _ _ => True) t := by
  unfold bulkVmAction
  refine wp_gathers (R := fun _ => True) (reads_currentInstructor caller) ?_
  rintro ⟨user, organization⟩ t₁ _ -
  refine wp_gathers (R := fun _ => True) reads_runForUser ?_
  intro _ t₂ _ _
  refine wp_orRaise_bind (fun operationType _ => ?_) trivial
  refine wp_sees trivial ?_
  intro t₃ h₃ ht₃ h₃'
  refine wp_gathers (R := fun ws => ∀ w ∈ ws, w.Targets fun o v => ∃ owner, VmIn t₃ v o owner)
    (reads_bulkTargets ?_ (by simp)) ?_
  · intro v hv
    obtain ⟨a, ha, hlink⟩ := List.mem_filterMap.mp hv
    obtain ⟨hmem, hcond⟩ := List.mem_filter.mp ha
    simp only [Bool.and_eq_true, decide_eq_true_eq] at hcond
    rw [← hcond.2]
    exact ⟨a.userId, (ht₃.assignment a.id a (Table.get?_of_mem hmem)).2.2 v hlink⟩
  · intro writes t₄ h₄ hwrites
    refine wp_commitTargets hwrites ?_
    rintro o v ⟨owner, hvm⟩
    exact ⟨owner, (h₃'.trans h₄).onwards.vmIn hvm⟩

/-- The expiry of overdue assignments keeps tenancy. -/
theorem wp_expireOverdue_tenancy :
    wp ((tenancy settings outside).contract p) expireOverdue (fun _ _ => True) t := by
  unfold expireOverdue
  refine wp_sees trivial ?_
  intro t₁ _ ht₁ h₁
  refine wp_gathers (R := fun r => ∀ w ∈ r.1, w.Targets fun o v => ∃ owner, VmIn t₁ v o owner)
    (reads_expireTargets ?_ (by simp)) ?_
  · intro a ha v hv
    have hmem := (List.mem_filter.mp ha).1
    exact ⟨a.userId, (ht₁.assignment a.id a (Table.get?_of_mem hmem)).2.2 v hv⟩
  · rintro ⟨writes, queued⟩ t₂ h₂ hwrites
    refine wp_seq (wp_commitTargets hwrites ?_) (fun _ _ _ => trivial) fun _ _ _ => trivial
    rintro o v ⟨owner, hvm⟩
    exact ⟨owner, (h₁.trans h₂).onwards.vmIn hvm⟩

/-- The worker lock is taken and given back around the commit. -/
theorem wp_cleanupWorker_tenancy :
    wp ((tenancy settings outside).contract p) cleanupWorker (fun _ _ => True) t := by
  unfold cleanupWorker
  refine wp_gathers (R := fun _ => True) ((reads_await _ _).mpr fun _ => trivial) ?_
  intro acquired t₁ _ _
  split
  · refine wp_seq (R := fun _ _ => True) ?_ ?_ (fun _ _ _ => trivial)
    · unfold guarded
      refine wp_handle wp_expireOverdue_tenancy (fun _ _ _ => trivial) ?_
      intro e t₂ _
      exact wp_gathers (R := fun _ => True) ((reads_await _ _).mpr fun _ => trivial)
        fun _ _ _ _ => trivial
    · intro queued t₂ _
      exact wp_gathers (R := fun _ => True) ((reads_await _ _).mpr fun _ => trivial)
        fun _ _ _ _ => trivial
  · trivial

/-! ## Runs and assignments -/

/-- The creation of a run keeps tenancy: the run and its lab have the organization of the caller. -/
theorem wp_createLabRun_tenancy {caller : Caller} {payload : LabRunCreate} :
    wp ((tenancy settings outside).contract p) (createLabRun caller payload)
      (fun _ _ => True) t := by
  unfold createLabRun
  refine wp_gathers (R := fun _ => True) (reads_currentInstructor caller) ?_
  rintro ⟨user, organization⟩ t₁ _ -
  refine wp_sees trivial ?_
  intro t₂ _ ht₂ h₂
  refine wp_check_bind (fun lab hlab => ?_) fun _ => trivial
  obtain ⟨hrow, horg⟩ := labForUser_org hlab
  have hheld : HeldLab t₂ lab.id organization.id := by
    rw [← horg]
    exact ht₂.heldLab hrow
  refine wp_raiseIf_bind (fun _ => ?_) trivial
  refine wp_raiseIf_bind (fun _ => ?_) trivial
  refine wp_raiseIf_bind (fun _ => ?_) trivial
  refine wp_draws ?_
  intro id t₃ h₃ hpending
  refine wp_commits_bind ?_ fun _ => trivial
  intro w hw
  rw [List.mem_singleton.mp hw]
  exact ⟨hpending, Or.inl ((h₂.trans h₃).onwards.heldLab hheld)⟩

/-- The writes of a transaction belong together, and those of assignments of the run to its
organization. -/
structure Assigning (p : Pid) (run : LabRun) (ws : List Write) (t : Sys H) : Prop where
  known : Kind.runs.Known t ws run.id run.organizationId
  belongs : ∀ w ∈ ws, w.Belongs p t ws
  own : ∀ a, .assignment (.insert a) ∈ ws → a.labRunId = run.id →
    a.organizationId = run.organizationId

variable {run : LabRun} {lab : Lab} {ws new : List Write}

/-- What a transaction has written still belongs together while others go on. -/
theorem Assigning.along {t' : Sys H} (h : Assigning p run ws t) (ht : Along p t t') :
    Assigning p run ws t' where
  known := ht.onwards.knownRun (fun _ hw => hw) h.known
  belongs := fun w hw => (h.belongs w hw).along ht fun _ hw => hw
  own := h.own

/-- More writes that belong may be added, when new assignments have the organization of the run. -/
theorem Assigning.add (h : Assigning p run ws t)
    (hnew : ∀ w ∈ new, w.Belongs p t (ws ++ new))
    (hown : ∀ a, .assignment (.insert a) ∈ new → a.organizationId = run.organizationId) :
    Assigning p run (ws ++ new) t where
  known := (Extends.refl t).knownRun (fun _ hw => List.mem_append_left _ hw) h.known
  belongs := by
    intro w hw
    rcases List.mem_append.mp hw with hw | hw
    · exact (h.belongs w hw).along (.refl p t) fun _ hw => List.mem_append_left _ hw
    · exact hnew w hw
  own := by
    intro a ha hof
    rcases List.mem_append.mp ha with ha | ha
    · exact h.own a ha hof
    · exact hown a ha

/-- The assignments of the run are those of its organization. -/
theorem Assigning.row_org (ht : Tenanted t) (h : Assigning p run ws t) {a : LabAssignment}
    (ha : a ∈ t.store.db.labAssignments.rows) (hof : a.labRunId = run.id) :
    a.organizationId = run.organizationId := by
  rcases h.known with hheld | ⟨r, hr, hid, -⟩
  · exact ht.assignment_org hheld ha hof
  · have hspent := (ht.assignment a.id a (Table.get?_of_mem ha)).1.1
    have hpending : Pending .labRuns p r.id t := (h.belongs _ hr).1
    have hid : r.id = run.id := hid
    rw [hof, ← hid] at hspent
    exact absurd hpending (hspent.2 p)

/-- Flushing writes changes no template. -/
theorem Store.withFlushed_templates (s : Store) (ws : List Write) :
    (s.withFlushed ws).vmTemplates = s.db.vmTemplates := by
  unfold Store.withFlushed
  cases h : Db.applyAll ws s.db with
  | none => rfl
  | some db => exact Db.templates_applyAll h

/-- What the transaction sees of the assignments of the run is known. -/
theorem Assigning.known_row (ht : Tenanted t) (h : Assigning p run ws t) {a : LabAssignment}
    (ha : a ∈ (t.store.withFlushed ws).labAssignments.rows) (hof : a.labRunId = run.id) :
    KnownAssignment t ws a.id run.organizationId := by
  have hold : ∀ r, t.store.db.labAssignments.get? a.id = some r → r.labRunId = run.id →
      KnownAssignment t ws a.id run.organizationId :=
    fun r hr hr' => Or.inl ⟨r, hr, h.row_org ht (Table.mem_of_get? hr) hr'⟩
  unfold Store.withFlushed at ha
  cases happ : Db.applyAll ws t.store.db with
  | none =>
    rw [happ] at ha
    exact hold a (Table.get?_of_mem ha) hof
  | some db =>
    rw [happ] at ha
    refine Write.ofAssignments.row_after (i := a.id) (P := fun r => r.labRunId = run.id →
      KnownAssignment t ws a.id run.organizationId) happ ?_ ?_ ?_ a (Table.get?_of_mem ha) hof
    · exact hold
    · exact fun r _ hr hid hof => Or.inr ⟨r, hr, hid, h.own r hr hof⟩
    · intro w _ _ r _ hr hof
      refine hr ?_
      cases w <;> exact hof

/-- `_create_assignment` adds writes that belong to the others. -/
theorem wp_createAssignment_tenancy {payload : LabAssignmentCreate}
    {f : ℕ × Bool × List Write → Action β} (hlab : lab.organizationId = run.organizationId)
    (h : Assigning p run ws t)
    (hf : ∀ r t', Along p t t' → Assigning p run (ws ++ r.2.2) t' →
      wp ((tenancy settings outside).contract p) (f r) (fun _ _ => True) t') :
    wp ((tenancy settings outside).contract p) (createAssignment run lab payload ws >>= f)
      (fun _ _ => True) t := by
  unfold createAssignment
  rw [bind_assoc]
  refine wp_sees trivial ?_
  intro t₁ h₁ ht₁ h₁'
  rw [bind_assoc]
  refine wp_check_bind (fun decision hchecked => ?_) fun _ => trivial
  obtain ⟨template, slot⟩ := decision
  obtain ⟨hrow, horg⟩ := checkAssignment_org hlab hchecked
  rw [Store.withFlushed_templates] at hrow
  have htemplate : TemplateIn t₁ template.id run.organizationId := ⟨template, hrow, horg⟩
  show wp _ ((select >>= _) >>= f) _ _
  rw [bind_assoc]
  refine wp_sees trivial ?_
  intro t₂ h₂ ht₂ h₂'
  have hall : Along p t t₂ := h₁.trans (h₁'.trans h₂)
  have hassigning := h.along hall
  have htemplate₂ := (h₁'.trans h₂).onwards.templateIn htemplate
  cases hfound : assignmentInSlot (t₂.store.withFlushed ws) run.id payload.userId slot with
  | some existing =>
    obtain ⟨hmem, hcond⟩ := Table.first_some hfound
    simp only [Bool.and_eq_true, decide_eq_true_eq] at hcond
    have hknown := hassigning.known_row ht₂ hmem hcond.1.1
    dsimp only
    split
    · rw [pure_bind]
      refine hf _ _ (hall.trans h₂') (Assigning.along ?_ h₂')
      refine hassigning.add ?_ ?_
      · intro w hw
        rw [List.mem_singleton.mp hw]
        exact ⟨run.organizationId,
          (Extends.refl t₂).knownAssignment (fun _ hw => List.mem_append_left _ hw) hknown,
          htemplate₂⟩
      · intro a ha
        cases List.mem_singleton.mp ha
    · rw [pure_bind]
      refine hf _ _ (hall.trans h₂') (Assigning.along ?_ h₂')
      exact hassigning.add (by simp) (by simp)
  | none =>
    dsimp only
    rw [bind_assoc]
    refine wp_draws ?_
    intro id t₃ h₃ _
    rw [pure_bind]
    refine hf _ _ (hall.trans (h₂'.trans h₃)) ?_
    have hassigning₃ := hassigning.along (h₂'.trans h₃)
    refine hassigning₃.add ?_ ?_
    · intro w hw
      rw [List.mem_singleton.mp hw]
      refine ⟨?_, (h₂'.trans h₃).onwards.templateIn htemplate₂, rfl⟩
      exact (Extends.refl t₃).knownRun (fun _ hw => List.mem_append_left _ hw) hassigning₃.known
    · intro a ha
      cases List.mem_singleton.mp ha
      rfl

/-- The loops over students and slots, by induction on the requests. -/
theorem wp_createAssignments_tenancy {payloads : List LabAssignmentCreate} {n : ℕ}
    {f : ℕ × List Write → Action β} (hlab : lab.organizationId = run.organizationId)
    (h : Assigning p run ws t)
    (hf : ∀ r t', Along p t t' → Assigning p run r.2 t' → (∀ w ∈ ws, w ∈ r.2) →
      wp ((tenancy settings outside).contract p) (f r) (fun _ _ => True) t') :
    wp ((tenancy settings outside).contract p) (createAssignments run lab (n, ws) payloads >>= f)
      (fun _ _ => True) t := by
  induction payloads generalizing n ws t with
  | nil => exact hf (n, ws) t (.refl p t) h fun _ hw => hw
  | cons payload payloads ih =>
    unfold createAssignments
    rw [bind_assoc]
    refine wp_createAssignment_tenancy hlab h ?_
    rintro ⟨id, created, writes⟩ t₁ h₁ hassigning
    refine ih hassigning ?_
    intro r t₂ h₂ hassigning₂ hsub
    exact hf r t₂ (h₁.trans h₂) hassigning₂ fun w hw => hsub w (List.mem_append_left _ hw)

/-- A run that is held has nothing assigned yet. -/
theorem Assigning.start (hrun : HeldRun t run.id run.organizationId) :
    Assigning p run [] t where
  known := Or.inl hrun
  belongs := by simp
  own := by simp

/-- Opening a run gives it with its lab, both of one organization. -/
theorem wp_openRunForUser_tenancy {runId : ℕ} {f : LabRun × Lab → Action β}
    (hf : ∀ run lab t', lab.organizationId = run.organizationId → Assigning p run [] t' →
      wp ((tenancy settings outside).contract p) (f (run, lab)) (fun _ _ => True) t') :
    wp ((tenancy settings outside).contract p) (openRunForUser runId organization user >>= f)
      (fun _ _ => True) t := by
  unfold openRunForUser
  rw [bind_assoc]
  refine wp_runForUser_tenancy ?_
  intro run lab t₁ _ hrunOrg hlabOrg hrun _
  dsimp only
  rw [bind_assoc]
  refine wp_raiseIf_bind (fun _ => ?_) trivial
  rw [pure_bind]
  rw [← hrunOrg] at hlabOrg hrun
  exact hf run lab t₁ hlabOrg (.start hrun)

/-- The creation of an assignment keeps tenancy. -/
theorem wp_createRunAssignment_tenancy {caller : Caller} {runId : ℕ}
    {payload : LabAssignmentCreate} :
    wp ((tenancy settings outside).contract p) (createRunAssignment caller runId payload)
      (fun _ _ => True) t := by
  unfold createRunAssignment
  refine wp_gathers (R := fun _ => True) (reads_currentInstructor caller) ?_
  rintro ⟨user, organization⟩ t₁ _ -
  refine wp_openRunForUser_tenancy ?_
  intro run lab t₂ hlab h₂
  refine wp_createAssignment_tenancy hlab h₂ ?_
  rintro ⟨id, created, writes⟩ t₃ _ h₃
  exact wp_commits_bind h₃.belongs fun _ => trivial

/-- The creation of the assignments of a whole run keeps tenancy. -/
theorem wp_bulkCreateRunAssignments_tenancy {caller : Caller} {runId slots : ℕ} :
    wp ((tenancy settings outside).contract p) (bulkCreateRunAssignments caller runId slots)
      (fun _ _ => True) t := by
  unfold bulkCreateRunAssignments
  refine wp_gathers (R := fun _ => True) (reads_currentInstructor caller) ?_
  rintro ⟨user, organization⟩ t₁ _ -
  refine wp_openRunForUser_tenancy ?_
  intro run lab t₂ hlab h₂
  refine wp_raiseIf_bind (fun _ => ?_) trivial
  refine wp_sees trivial ?_
  intro t₃ h₃ _ h₃'
  refine wp_createAssignments_tenancy hlab ((h₂.along h₃).along h₃') ?_
  rintro ⟨created, writes⟩ t₄ _ h₄ _
  exact wp_commits_bind h₄.belongs fun _ => trivial

/-! ## `create_vm` -/

/-- The assignment that is provisioned is the caller's own. -/
theorem wp_requestedAssignment_tenancy {payload : CreateVMRequest} {template : VMTemplate}
    {f : Option LabAssignment → Action β}
    (hf : ∀ found t', Along p t t' →
      (∀ a, found = some a → AssignmentIn t' a.id organization.id user.id) →
      wp ((tenancy settings outside).contract p) (f found) (fun _ _ => True) t') :
    wp ((tenancy settings outside).contract p)
      (requestedAssignment user organization payload template >>= f) (fun _ _ => True) t := by
  unfold requestedAssignment
  split
  · unfold assignmentForProvisioning
    simp only [bind_assoc]
    refine wp_orRaise_bind (fun id _ => ?_) trivial
    refine wp_sees trivial ?_
    intro t₁ h₁ _ h₁'
    refine wp_orRaise_bind (fun a ha => ?_) trivial
    obtain ⟨hmem, hcond⟩ := Table.first_some ha
    simp only [Bool.and_eq_true, decide_eq_true_eq] at hcond
    have hassignment : AssignmentIn t₁ a.id organization.id user.id :=
      ⟨a, Table.get?_of_mem hmem, hcond.1.2, hcond.2⟩
    refine wp_sees trivial ?_
    intro t₂ h₂ _ h₂'
    refine wp_orRaise_bind (fun run _ => ?_) trivial
    refine wp_sees trivial ?_
    intro t₃ h₃ _ h₃'
    refine wp_orRaise_bind (fun lab _ => ?_) trivial
    refine wp_check_bind (fun found hfound => ?_) fun _ => trivial
    have hsame : found = a := by
      unfold provisionable at hfound
      split at hfound
      · cases hfound
      · split at hfound
        · cases hfound
        · cases hfound
          rfl
    have hfrom := h₁'.trans (h₂.trans (h₂'.trans (h₃.trans h₃')))
    rw [pure_bind]
    refine hf (some found) _ (h₁.trans hfrom) ?_
    rintro a' ⟨⟩
    rw [hsame]
    exact hfrom.onwards.assignmentIn hassignment
  · rw [pure_bind]
    refine hf none t (.refl p t) ?_
    rintro a ⟨⟩

/-- Provisioning a VM keeps tenancy, from a template and an assignment of the organization. -/
theorem wp_provisionVm_tenancy {payload : CreateVMRequest} {template : VMTemplate}
    {assignment : Option LabAssignment} {cluster : ProxmoxCluster} {node reason : String}
    (htemplate : TemplateIn t template.id organization.id)
    (hassignment : ∀ a, assignment = some a → AssignmentIn t a.id organization.id user.id) :
    wp ((tenancy settings outside).contract p)
      (provisionVm user organization payload template assignment cluster node reason)
      (fun _ _ => True) t := by
  unfold provisionVm
  refine wp_gathers (R := fun r => ∀ w ∈ r.2, ∃ a, w = .allocator a)
    (reads_allocateVmid cluster.id) ?_
  rintro ⟨vmid, allocated⟩ t₁ h₁ hallocated
  refine wp_draws ?_
  intro id t₂ h₂ _
  refine wp_gathers (R := fun r => ∀ w ∈ r.2, w.Targets fun o v => o = organization.id ∧ v = id)
    (reads_queueTarget _ rfl rfl ⟨rfl, rfl⟩) ?_
  rintro ⟨operation, queued⟩ t₃ h₃ hqueued
  have hall : Along p t t₃ := h₁.trans (h₂.trans h₃)
  have hinserted : ∀ {vm : StudentVM} {linked queued : List Write}, Write.vm (.insert vm) ∈
      allocated ++ [.vm (.insert vm)] ++ linked ++ queued := by
    intro vm linked queued
    simp
  refine wp_commits_bind ?_ fun _ => trivial
  intro w hw
  simp only [List.mem_append, List.mem_singleton] at hw
  rcases hw with ((hw | rfl) | hw) | hw
  · obtain ⟨a, rfl⟩ := hallocated w hw
    trivial
  · exact hall.onwards.templateIn htemplate
  · unfold linkWrites at hw
    cases assignment with
    | none => cases hw
    | some a =>
      rw [List.mem_singleton.mp hw]
      exact ⟨organization.id, user.id, hall.onwards.assignmentIn (hassignment a rfl), _,
        hinserted, rfl, rfl, rfl⟩
  · have htarget := hqueued w hw
    cases w with
    | operation w =>
      cases w with
      | insert o =>
        obtain ⟨_, _, horg, hvm, rfl, rfl⟩ := htarget
        intro v hv
        rw [hvm] at hv
        cases hv
        exact ⟨organization.id, user.id, horg, Or.inr ⟨_, hinserted, rfl, rfl, rfl⟩⟩
      | _ => exact htarget.elim
    | assignment w =>
      cases w with
      | status a s => trivial
      | _ => exact htarget.elim
    | run w =>
      cases w with
      | transition r state activatedAt endedAt => trivial
      | _ => exact htarget.elim
    | _ => exact htarget.elim

/-- An enabled template that is found belongs to the organization. -/
theorem enabledTemplate_org {db : Db} {organizationId templateId : ℕ} {template : VMTemplate}
    (h : enabledTemplate db organizationId templateId = .ok template) :
    db.vmTemplates.get? template.id = some template ∧
      template.organizationId = organizationId := by
  unfold enabledTemplate at h
  split at h
  · cases h
  · next found hfound =>
    obtain ⟨hmem, hcond⟩ := Table.first_some hfound
    simp only [Bool.and_eq_true, decide_eq_true_eq] at hcond
    split at h
    · cases h
      exact ⟨Table.get?_of_mem hmem, hcond.2⟩
    · cases h

/-- The creation of a VM keeps tenancy: it has checked the template and the assignment. -/
theorem wp_createVm_tenancy {caller : Caller} {payload : CreateVMRequest} :
    wp ((tenancy settings outside).contract p) (createVm caller payload) (fun _ _ => True) t := by
  unfold createVm
  refine wp_gathers (R := fun _ => True) (reads_currentCaller caller) ?_
  rintro ⟨user, organization⟩ t₁ _ -
  refine wp_sees trivial ?_
  intro t₂ _ _ h₂
  refine wp_check_bind (fun template htemplate => ?_) fun _ => trivial
  obtain ⟨hrow, horg⟩ := enabledTemplate_org htemplate
  have htemplate₂ := h₂.onwards.templateIn ⟨template, hrow, horg⟩
  refine wp_requestedAssignment_tenancy ?_
  intro assignment t₃ h₃ hassignment
  refine wp_sees trivial ?_
  intro t₄ h₄ _ h₄'
  refine wp_check_bind (fun cluster _ => ?_) fun _ => trivial
  refine wp_gathers (R := fun _ => True) (reads_placeVm cluster template) ?_
  rintro ⟨node, reason⟩ t₅ h₅ -
  have hfrom : Along p t₃ t₅ := h₄.trans (h₄'.trans h₅)
  exact wp_provisionVm_tenancy ((h₃.trans hfrom).onwards.templateIn htemplate₂)
    fun a ha => hfrom.onwards.assignmentIn (hassignment a ha)

end Programs

end LabGoblin
