import LabGoblin.Analysis.Alone
import LabGoblin.Analysis.Fixture

/-!
# What a student may provision

The flag that a student is shown with an assignment, and the checks of `create_vm` that decide
whether the assignment can be provisioned.
-/

set_option autoImplicit false

namespace LabGoblin

open Interactive

variable {H : Type} {outside : Outside H} {p : Pid}

/-- Runs, labs and templates belong to the organization of what refers to them. -/
structure Db.OrganizationsAgree (db : Db) : Prop where
  run : ∀ a ∈ db.labAssignments.rows, ∀ r, db.labRuns.get? a.labRunId = some r →
    r.organizationId = a.organizationId
  lab : ∀ r ∈ db.labRuns.rows, ∀ l, db.labs.get? r.labId = some l →
    l.organizationId = r.organizationId
  template : ∀ a ∈ db.labAssignments.rows, ∀ t, db.vmTemplates.get? a.templateId = some t →
    t.organizationId = a.organizationId

/-- The state in which no other transaction is open. -/
def Sys.alone (t : Sys H) : Sys H :=
  { t with store := { t.store with locks := [] } }

/-- The part of `create_vm` that decides about the template and the assignment. -/
def createVmChecks (user : User) (organization : OrganizationContext)
    (payload : CreateVMRequest) : Action (VMTemplate × Option LabAssignment) := do
  let s ← select
  let template ← check (enabledTemplate s.db organization.id payload.templateId)
  let assignment ← requestedAssignment user organization payload template
  return (template, assignment)

/-- `create_vm` starts with its checks. -/
theorem createVm_eq (caller : Caller) (payload : CreateVMRequest) :
    createVm caller payload = (do
      let (user, organization) ← currentCaller caller
      let (template, assignment) ← createVmChecks user organization payload
      let s ← select
      let cluster ← check (activeCluster s.db template)
      let (node, reason) ← placeVm cluster template
      provisionVm user organization payload template assignment cluster node reason) := by
  unfold createVm createVmChecks
  simp only [bind_assoc, pure_bind]

/-! ## Lookups within an organization -/

/-- A run is found in an organization when it is there and belongs to it. -/
theorem runInOrganization_eq_some {db : Db} {runId organizationId : ℕ} {run : LabRun} :
    runInOrganization db runId organizationId = some run ↔
      db.labRuns.get? runId = some run ∧ run.organizationId = organizationId := by
  unfold runInOrganization
  rw [Table.first_key_and, Option.filter_eq_some_iff, decide_eq_true_eq]

/-- A lab is found in an organization when it is there and belongs to it. -/
theorem labInOrganization_eq_some {db : Db} {labId organizationId : ℕ} {lab : Lab} :
    labInOrganization db labId organizationId = some lab ↔
      db.labs.get? labId = some lab ∧ lab.organizationId = organizationId := by
  unfold labInOrganization
  rw [Table.first_key_and, Option.filter_eq_some_iff, decide_eq_true_eq]

/-- The template checks pass exactly for an enabled template of the organization. -/
theorem enabledTemplate_ok {db : Db} {organizationId templateId : ℕ} {template : VMTemplate} :
    enabledTemplate db organizationId templateId = .ok template ↔
      db.vmTemplates.get? templateId = some template ∧
        template.organizationId = organizationId ∧ template.enabled = true := by
  unfold enabledTemplate
  rw [Table.first_key_and]
  cases h : (db.vmTemplates.get? templateId).filter fun t => t.organizationId = organizationId with
  | none =>
    constructor
    · intro h'
      cases h'
    · rintro ⟨hget, horg, -⟩
      rw [hget] at h
      simp [Option.filter, horg] at h
  | some found =>
    obtain ⟨hget, horg⟩ := Option.filter_eq_some_iff.mp h
    simp only [decide_eq_true_eq] at horg
    show (if found.enabled then Except.ok found else Except.error _) = Except.ok template ↔ _
    rw [hget]
    by_cases henabled : found.enabled = true
    · rw [if_pos henabled]
      constructor
      · rintro h'
        cases h'
        exact ⟨rfl, horg, henabled⟩
      · rintro ⟨h', -⟩
        cases h'
        rfl
    · rw [if_neg henabled]
      constructor
      · intro h'
        cases h'
      · rintro ⟨h', -, hno⟩
        cases h'
        exact absurd hno henabled

/-! ## The enforcing check -/

/-- What `assignment_for_provisioning` accepts when no other transaction is open. -/
theorem returns_assignmentForProvisioning {t : Sys H} {id userId organizationId templateId : ℕ}
    {a : LabAssignment} (ht : t.store.locks = []) :
    (∃ t', Returns (machine outside) p
        (assignmentForProvisioning (some id) userId organizationId templateId) t a t') ↔
      (t.store.db.labAssignments.first fun a =>
          a.id = id && a.organizationId = organizationId && a.userId = userId) = some a ∧
        ∃ run, runInOrganization t.store.db a.labRunId organizationId = some run ∧
          assignmentEffectivelyOpen a run t.store.clock = true ∧
          ∃ lab, labInOrganization t.store.db run.labId organizationId = some lab ∧
            (activeEnrollment t.store.db lab.classId userId).isSome = true ∧
            provisionable a templateId = .ok a := by
  have hprovisionable : ∀ x y : LabAssignment, provisionable x templateId = .ok y → y = x := by
    intro x y h
    unfold provisionable at h
    split at h
    · cases h
    · split at h
      · cases h
      · cases h
        rfl
  unfold assignmentForProvisioning
  simp only [returns_orRaise_bind, returns_stmt_bind, returns_select_bind, returns_check,
    Option.some.injEq, exists_eq_left', Option.filter_eq_some_iff]
  constructor
  · rintro ⟨t', -, row, hrow, run, ⟨hrun, hopen⟩, lab, ⟨hlab, henrolled⟩, hok, -⟩
    obtain rfl := hprovisionable _ _ hok
    exact ⟨hrow, run, hrun, hopen, lab, hlab, henrolled, hok⟩
  · rintro ⟨hrow, run, hrun, hopen, lab, hlab, henrolled, hok⟩
    exact ⟨_, Sys.enabled_of_unlocked ht _, a, hrow, run, ⟨hrun, hopen⟩, lab, ⟨hlab, henrolled⟩,
      hok, rfl⟩

/-- What the checks of `create_vm` accept from a student when no other transaction is open. -/
theorem returns_createVmChecks {t : Sys H} {user : User} {organization : OrganizationContext}
    {payload : CreateVMRequest} {id : ℕ} (hrole : organization.role = .student)
    (hid : payload.assignmentId = some id) :
    (∃ result t', Returns (machine outside) p (createVmChecks user organization payload) t
        result t') ↔
      ∃ template a t', enabledTemplate t.store.db organization.id payload.templateId =
          .ok template ∧
        Returns (machine outside) p
          (assignmentForProvisioning (some id) user.id organization.id template.id)
          (t.after p (.select .rows)) a t' := by
  unfold createVmChecks requestedAssignment
  simp only [returns_select_bind, returns_check_bind, hrole, if_true, hid]
  constructor
  · rintro ⟨result, t', template, htemplate, h⟩
    rw [bind_assoc, returns_bind_iff] at h
    obtain ⟨a, u, ha, -⟩ := h
    exact ⟨template, a, u, htemplate, ha⟩
  · rintro ⟨template, a, u, htemplate, ha⟩
    refine ⟨(template, some a), u, template, htemplate, ?_⟩
    rw [bind_assoc, returns_bind_iff]
    refine ⟨a, u, ha, ?_⟩
    rw [pure_bind, returns_pure]
    exact ⟨rfl, rfl⟩

/-- An assignment passes the last checks with its own template while it is not linked and not
ready. -/
theorem provisionable_own {a : LabAssignment} :
    provisionable a a.templateId = .ok a ↔ a.studentVmId = none ∧ a.status ≠ .ready := by
  unfold provisionable
  rw [if_neg (not_not.mpr rfl)]
  cases hlinked : a.studentVmId with
  | none => by_cases hready : a.status = .ready <;> simp [hready]
  | some vm => simp

/-- The flag that is shown, written out. -/
theorem canProvision_iff {db : Db} {now : Time} {a : LabAssignment} :
    (assignmentOut db now a).canProvision = true ↔
      (∃ run, db.labRuns.get? a.labRunId = some run ∧
        assignmentEffectivelyOpen a run now = true ∧
        ∃ lab, db.labs.get? run.labId = some lab ∧
          (activeEnrollment db lab.classId a.userId).isSome = true) ∧
      (∃ template, db.vmTemplates.get? a.templateId = some template ∧ template.enabled = true) ∧
      a.studentVmId = none ∧ a.status = .assigned := by
  unfold assignmentOut
  cases hrun : db.labRuns.get? a.labRunId with
  | none => simp
  | some run =>
    cases hlab : db.labs.get? run.labId with
    | none => simp [hlab]
    | some lab =>
      cases htemplate : db.vmTemplates.get? a.templateId with
      | none => simp
      | some template =>
        simp only [Option.bind_some, hlab, Option.any_some, Bool.and_eq_true, decide_eq_true_eq,
          Option.isNone_iff_eq_none, Option.some.injEq, exists_eq_left']
        tauto

/-- In a state whose rows belong to the organizations of their parents, a student is shown that
an assignment can be provisioned exactly where `create_vm` with that assignment and its template
passes its checks at the same instant. -/
theorem shown_iff_provisionable (outside : Outside H) (p : Pid) (t : Sys H)
    (hagree : t.store.db.OrganizationsAgree) (a : LabAssignment)
    (ha : a ∈ t.store.db.labAssignments.rows) (user : User) (organization : OrganizationContext)
    (payload : CreateVMRequest) (huser : user.id = a.userId)
    (horg : organization.id = a.organizationId) (hrole : organization.role = .student)
    (hassignment : payload.assignmentId = some a.id)
    (htemplate : payload.templateId = a.templateId) :
    (assignmentOut t.store.db t.store.clock a).canProvision = true ↔
      ∃ result t', Returns (machine outside) p (createVmChecks user organization payload) t.alone
        result t' := by
  have hunlocked : (t.alone.after p (.select .rows)).store.locks = [] := rfl
  rw [returns_createVmChecks hrole hassignment, canProvision_iff]
  have hfirst : (t.store.db.labAssignments.first fun b =>
      b.id = a.id && b.organizationId = a.organizationId && b.userId = a.userId) = some a := by
    refine (Table.find?_eq_some_iff_of_unique ?_ a).mpr ⟨ha, by simp⟩
    intro x hx y hy hpx hpy
    simp only [Bool.and_eq_true, decide_eq_true_eq] at hpx hpy
    exact t.store.db.labAssignments.eq_of_key_eq hx hy (hpx.1.1.trans hpy.1.1.symm)
  constructor
  · rintro ⟨⟨run, hrun, hopen, lab, hlab, henrolled⟩, ⟨template, htemplate', henabled⟩, hvm,
      hstatus⟩
    have hruno := hagree.run a ha run hrun
    have hlabo := hagree.lab run (Table.mem_of_get? hrun) lab hlab
    have htemplateo := hagree.template a ha template htemplate'
    have hid : template.id = a.templateId := Table.get?_key htemplate'
    have hready : a.status ≠ .ready := by
      rw [hstatus]
      decide
    obtain ⟨t', h⟩ : ∃ t', Returns (machine outside) p (assignmentForProvisioning (some a.id)
        a.userId a.organizationId a.templateId)
        (t.alone.after p (Stmt.select Query.rows)) a t' :=
      (returns_assignmentForProvisioning hunlocked).mpr
        ⟨hfirst, run, runInOrganization_eq_some.mpr ⟨hrun, hruno⟩, hopen, lab,
          labInOrganization_eq_some.mpr ⟨hlab, hlabo.trans hruno⟩, henrolled,
          provisionable_own.mpr ⟨hvm, hready⟩⟩
    refine ⟨template, a, t', ?_, ?_⟩
    · rw [enabledTemplate_ok, htemplate, horg]
      exact ⟨htemplate', htemplateo, henabled⟩
    · rw [huser, horg, hid]
      exact h
  · rintro ⟨template, row, t', henabled, h⟩
    rw [enabledTemplate_ok, htemplate, horg] at henabled
    obtain ⟨htemplate', -, henabled⟩ := henabled
    have hid : template.id = a.templateId := Table.get?_key htemplate'
    rw [huser, horg, hid] at h
    obtain ⟨hrow, run, hrun, hopen, lab, hlab, henrolled, hok⟩ :=
      (returns_assignmentForProvisioning hunlocked).mp ⟨t', h⟩
    have hrow : t.store.db.labAssignments.first _ = some row := hrow
    rw [hfirst] at hrow
    cases hrow
    obtain ⟨hvm, hready⟩ := provisionable_own.mp hok
    refine ⟨⟨run, (runInOrganization_eq_some.mp hrun).1, hopen, lab,
      (labInOrganization_eq_some.mp hlab).1, henrolled⟩, ⟨template, htemplate', henabled⟩, hvm, ?_⟩
    have hlive : a.status.live = true := by
      have hopen : assignmentEffectivelyOpen a run t.store.clock = true := hopen
      unfold assignmentEffectivelyOpen at hopen
      simp only [Bool.and_eq_true] at hopen
      exact hopen.1.1
    cases hstatus : a.status with
    | assigned => rfl
    | ready => exact absurd hstatus hready
    | expired =>
      rw [hstatus] at hlive
      cases hlive
    | revoked =>
      rw [hstatus] at hlive
      cases hlive

namespace Fixture

/-- The assignment before its VM is created. -/
def openAssignment : LabAssignment :=
  ⟨1, 1, 1, 2, 1, 1, .assigned, none, none⟩

/-- The deployment with the assignment not yet provisioned, at instant 100. -/
def openStore : Store where
  db := { baseDb with labAssignments := ⟨[openAssignment], 2, by decide, by decide⟩ }
  valid := by decide
  clock := 100
  locks := []
  nonce := 0

/-- In the store of the fixture the assignment is shown as provisionable exactly if a VM can be
created for it. -/
theorem shown_iff_provisionable_openStore :
    (assignmentOut openStore.db 100 openAssignment).canProvision = true ↔
      ∃ result t', Returns (machine anything) 0
        (createVmChecks ⟨2, "s", "s@", 2, true, false⟩ ⟨1, "o", .student, false⟩
          ⟨1, "x", true, some 1⟩) (start openStore).alone result t' :=
  shown_iff_provisionable anything 0 (start openStore)
    ⟨by decide, by decide, by decide⟩ openAssignment (by decide) _ _ _ rfl rfl rfl rfl rfl

end Fixture

end LabGoblin
