import LabGoblin.Analysis.Alone
import LabGoblin.Analysis.Fixture
import LabGoblin.Model.Templates

/-!
# What the catalog shows to a student

`list_templates` opens the template of an assignment by the assignment and its run alone.
`_assignment_out` asks for an active enrollment in the class as well, so the two part when a
student has left a class whose assignments are still open.
-/

set_option autoImplicit false

namespace LabGoblin

open Interactive

/-- The assignments of the student in the organization: theirs, in a run of the organization. -/
def studentAssignments (db : Db) (userId organizationId : ℕ) : List LabAssignment :=
  db.labAssignments.filter fun a =>
    a.organizationId = organizationId && a.userId = userId &&
      (runInOrganization db a.labRunId organizationId).isSome

/-- The assignment is open by its run, its status and its expiry. -/
def OpenByRun (db : Db) (now : Time) (a : LabAssignment) : Prop :=
  ∃ run, db.labRuns.get? a.labRunId = some run ∧ assignmentEffectivelyOpen a run now = true

/-- The student has an active enrollment in the class that the assignment is for. -/
def EnrolledFor (db : Db) (a : LabAssignment) : Prop :=
  ∃ run lab, db.labRuns.get? a.labRunId = some run ∧ db.labs.get? run.labId = some lab ∧
    (activeEnrollment db lab.classId a.userId).isSome = true

/-- The catalog shows to the student exactly the enabled templates of the assignments that the
student has access to. -/
def CatalogExact {H : Type} (outside : Outside H) (p : Pid) (t : Sys H)
    (userId organizationId : ℕ) : Prop :=
  ∀ templates t', Returns (machine outside) p (listTemplates userId organizationId .student) t
      templates t' →
    (∀ template ∈ templates, ∃ a ∈ studentAssignments t.store.db userId organizationId,
      a.templateId = template.id ∧
        (assignmentOut t.store.db t.store.clock a).accessOpen = true) ∧
    ∀ a ∈ studentAssignments t.store.db userId organizationId,
      (assignmentOut t.store.db t.store.clock a).accessOpen = true →
        ∀ template, t.store.db.vmTemplates.get? a.templateId = some template →
          template.organizationId = organizationId → template.enabled = true →
            template ∈ templates

section Catalog

variable {H : Type} {outside : Outside H} {p : Pid} {t t' : Sys H} {userId organizationId : ℕ}
  {db : Db} {now : Time} {a : LabAssignment}

/-! ## The two decisions -/

/-- Access is open when the run opens it and the student is enrolled. -/
theorem accessOpen_iff :
    (assignmentOut db now a).accessOpen = true ↔ OpenByRun db now a ∧ EnrolledFor db a := by
  unfold assignmentOut OpenByRun EnrolledFor
  cases hrun : db.labRuns.get? a.labRunId with
  | none => simp
  | some run =>
    cases hlab : db.labs.get? run.labId with
    | none => simp [hlab]
    | some lab => simp [hlab, and_comm]

/-- The assignments of a student are those in runs of the organization. -/
theorem mem_studentAssignments :
    a ∈ studentAssignments db userId organizationId ↔ a ∈ db.labAssignments.rows ∧
      a.organizationId = organizationId ∧ a.userId = userId ∧
      ∃ run, runInOrganization db a.labRunId organizationId = some run := by
  simp only [studentAssignments, Table.filter, List.mem_filter, Bool.and_eq_true,
    decide_eq_true_eq, Option.isSome_iff_exists, and_assoc]

/-- The run that the loop finds is the run of the assignment. -/
theorem openByRun_of_found {run : LabRun}
    (h : runInOrganization db a.labRunId organizationId = some run) :
    OpenByRun db now a ↔ assignmentEffectivelyOpen a run now = true := by
  unfold runInOrganization at h
  rw [Table.first_key_and, Option.filter_eq_some_iff] at h
  unfold OpenByRun
  rw [h.1]
  simp

/-! ## The loop -/

/-- The templates that the loop adds are those of the open assignments. -/
theorem returns_openTemplateIds {assignments : List LabAssignment} {before ids : List ℕ}
    (h : Returns (machine outside) p (openTemplateIds organizationId before assignments) t ids t') :
    t'.store = t.store ∧ ∀ i, i ∈ ids ↔ i ∈ before ∨ ∃ a ∈ assignments,
      (∃ run, runInOrganization t.store.db a.labRunId organizationId = some run) ∧
        OpenByRun t.store.db t.store.clock a ∧ a.templateId = i := by
  induction assignments generalizing before t with
  | nil =>
    obtain ⟨rfl, rfl⟩ := returns_pure.mp h
    exact ⟨rfl, by simp⟩
  | cons a rest ih =>
    unfold openTemplateIds at h
    rw [returns_select_bind] at h
    cases hfound : runInOrganization t.store.db a.labRunId organizationId with
    | none =>
      rw [hfound] at h
      obtain ⟨hstore, hids⟩ := ih h
      refine ⟨hstore, fun i => (hids i).trans ?_⟩
      simp [hfound]
    | some run =>
      rw [hfound] at h
      have hopen : OpenByRun t.store.db t.store.clock a ↔
          assignmentEffectivelyOpen a run (t.after p (.select .rows)).store.clock = true :=
        openByRun_of_found hfound
      simp only [returns_utcnow_bind] at h
      by_cases heff : assignmentEffectivelyOpen a run (t.after p (.select .rows)).store.clock = true
      · rw [if_pos heff] at h
        obtain ⟨hstore, hids⟩ := ih h
        refine ⟨hstore, fun i => (hids i).trans ?_⟩
        simp only [Sys.after_store, Store.exec_select, List.mem_cons, exists_eq_or_imp, hfound,
          Option.some.injEq, exists_eq', true_and, hopen.mpr heff, or_assoc]
        rw [eq_comm, or_left_comm]
      · rw [if_neg heff] at h
        obtain ⟨hstore, hids⟩ := ih h
        refine ⟨hstore, fun i => (hids i).trans ?_⟩
        simp only [Sys.after_store, Store.exec_select, List.mem_cons, exists_eq_or_imp, hfound,
          mt hopen.mp heff, false_and, and_false, false_or]

/-- The template is of the organization, enabled, and the template of an open assignment. -/
def Shown (db : Db) (now : Time) (userId organizationId : ℕ) (template : VMTemplate) : Prop :=
  template ∈ db.vmTemplates.rows ∧ template.organizationId = organizationId ∧
    template.enabled = true ∧ ∃ a ∈ studentAssignments db userId organizationId,
      OpenByRun db now a ∧ a.templateId = template.id

/-- What `list_templates` returns to a student. -/
theorem mem_listTemplates {templates : List VMTemplate}
    (h : Returns (machine outside) p (listTemplates userId organizationId .student) t templates
      t') (template : VMTemplate) :
    template ∈ templates ↔ Shown t.store.db t.store.clock userId organizationId template := by
  unfold listTemplates at h
  rw [returns_select_bind] at h
  obtain ⟨ids, t₁, hloop, hrest⟩ := returns_bind_iff.mp h
  obtain ⟨hstore, hids⟩ := returns_openTemplateIds hloop
  have hmem : template.id ∈ ids ↔ ∃ a ∈ studentAssignments t.store.db userId organizationId,
      OpenByRun t.store.db t.store.clock a ∧ a.templateId = template.id := by
    rw [hids]
    simp only [List.not_mem_nil, false_or, Table.filter, List.mem_filter, Bool.and_eq_true,
      decide_eq_true_eq, mem_studentAssignments, Sys.after_store, Store.exec_select]
    constructor
    · rintro ⟨a, ⟨ha, ⟨horg, huser⟩, -⟩, hrun, hopen, htemplate⟩
      exact ⟨a, ⟨ha, horg, huser, hrun⟩, hopen, htemplate⟩
    · rintro ⟨a, ⟨ha, horg, huser, hrun⟩, hopen, htemplate⟩
      refine ⟨a, ⟨ha, ⟨horg, huser⟩, ?_⟩, hrun, hopen, htemplate⟩
      obtain ⟨run, -, heff⟩ := hopen
      simp only [assignmentEffectivelyOpen, Bool.and_eq_true] at heff
      exact heff.1.1
  unfold Shown
  rw [← hmem]
  by_cases hnone : ids = []
  · rw [if_pos hnone] at hrest
    obtain ⟨rfl, -⟩ := returns_pure.mp hrest
    simp [hnone]
  · rw [if_neg hnone, returns_select_bind, returns_pure] at hrest
    obtain ⟨rfl, -⟩ := hrest
    rw [hstore]
    simp only [Table.filter, List.mem_filter, Bool.and_eq_true, decide_eq_true_eq,
      Sys.after_store, Store.exec_select]
    tauto

/-! ## It always answers -/

/-- Collecting the open templates always returns. -/
theorem exists_returns_openTemplateIds (outside : Outside H) (p : Pid)
    (assignments : List LabAssignment) (before : List ℕ) (t : Sys H) :
    ∃ ids t', Returns (machine outside) p (openTemplateIds organizationId before assignments) t
      ids t' := by
  induction assignments generalizing before t with
  | nil => exact ⟨before, t, returns_pure.mpr ⟨rfl, rfl⟩⟩
  | cons a rest ih =>
    unfold openTemplateIds
    simp only [returns_select_bind]
    cases runInOrganization t.store.db a.labRunId organizationId with
    | none => exact ih _ _
    | some run =>
      simp only [returns_utcnow_bind]
      exact ih _ _

/-- The catalog always returns. -/
theorem exists_returns_listTemplates (outside : Outside H) (p : Pid) (t : Sys H) :
    ∃ templates t', Returns (machine outside) p (listTemplates userId organizationId .student) t
      templates t' := by
  obtain ⟨ids, t₁, hloop⟩ : ∃ ids t₁, Returns (machine outside) p
      (openTemplateIds organizationId [] (t.store.db.labAssignments.filter fun a =>
        a.organizationId = organizationId && a.userId = userId && a.status.live))
      (t.after p (.select .rows)) ids t₁ := exists_returns_openTemplateIds _ _ _ _ _
  unfold listTemplates
  simp only [returns_select_bind]
  by_cases hnone : ids = []
  · refine ⟨[], t₁, returns_bind_iff.mpr ⟨ids, t₁, hloop, ?_⟩⟩
    rw [if_pos hnone, returns_pure]
    exact ⟨rfl, rfl⟩
  · refine ⟨t₁.store.db.vmTemplates.filter fun t =>
      t.id ∈ ids && t.organizationId = organizationId && t.enabled, t₁.after p (.select .rows),
      returns_bind_iff.mpr ⟨ids, t₁, hloop, ?_⟩⟩
    rw [if_neg hnone, returns_select_bind, returns_pure]
    exact ⟨rfl, rfl⟩

end Catalog

/-- Every enabled template of an open assignment of the student is the template of one in whose
class the student has an active enrollment. -/
def EnrolledWhereOpen (db : Db) (now : Time) (userId organizationId : ℕ) : Prop :=
  ∀ template ∈ db.vmTemplates.rows, template.organizationId = organizationId →
    template.enabled = true → ∀ a ∈ studentAssignments db userId organizationId,
      OpenByRun db now a → a.templateId = template.id →
        ∃ a' ∈ studentAssignments db userId organizationId,
          a'.templateId = template.id ∧ OpenByRun db now a' ∧ EnrolledFor db a'

/-- The catalog is exact where the student is enrolled for what is open. -/
theorem catalogExact_iff {H : Type} (outside : Outside H) (p : Pid) (t : Sys H)
    (userId organizationId : ℕ) :
    CatalogExact outside p t userId organizationId ↔
      EnrolledWhereOpen t.store.db t.store.clock userId organizationId := by
  constructor
  · intro hexact template hmem horg henabled a ha hopen htemplate
    obtain ⟨templates, t', hreturns⟩ := exists_returns_listTemplates outside p t
    have hshown := (mem_listTemplates hreturns template).mpr
      ⟨hmem, horg, henabled, a, ha, hopen, htemplate⟩
    obtain ⟨a', ha', htemplate', haccess⟩ := (hexact templates t' hreturns).1 template hshown
    obtain ⟨hopen', henrolled⟩ := accessOpen_iff.mp haccess
    exact ⟨a', ha', htemplate', hopen', henrolled⟩
  · intro henrolled templates t' hreturns
    refine ⟨?_, ?_⟩
    · intro template hshown
      obtain ⟨hmem, horg, henabled, a, ha, hopen, htemplate⟩ :=
        (mem_listTemplates hreturns template).mp hshown
      obtain ⟨a', ha', htemplate', hopen', hclass⟩ :=
        henrolled template hmem horg henabled a ha hopen htemplate
      exact ⟨a', ha', htemplate', accessOpen_iff.mpr ⟨hopen', hclass⟩⟩
    · intro a ha haccess template htemplate horg henabled
      obtain ⟨hmem, hid⟩ := (Table.get?_eq_some_iff _ _ _).mp htemplate
      exact (mem_listTemplates hreturns template).mpr
        ⟨hmem, horg, henabled, a, ha, (accessOpen_iff.mp haccess).1, hid.symm⟩

namespace Fixture

/-- The assignment of the fixture has an id below the next one. -/
theorem readyAssignment_id_lt : readyAssignment.id < 2 := by decide

/-- The student was removed from the class. The assignment is as it was. -/
def removedStore : Store where
  db := { linkedDb readyAssignment readyAssignment_id_lt with enrollments := Table.empty }
  valid := by decide
  clock := 100
  locks := []
  nonce := 0

set_option maxRecDepth 100000 in
/-- The catalog still shows the template to the student who was removed. -/
theorem not_catalogExact : ¬ CatalogExact anything 0 (start removedStore) 2 1 := by
  intro hexact
  have hpasses : (listTemplates 2 1 .student).passes (machine anything) 0 (start removedStore)
      (fun templates _ => templates ≠ []) = true := by decide +kernel
  obtain ⟨templates, t', hreturns, hsome⟩ := exists_returns_of_passes hpasses
  obtain ⟨template, hmem⟩ := List.exists_mem_of_ne_nil templates (by simpa using hsome)
  obtain ⟨a, ha, -, haccess⟩ := (hexact templates t' hreturns).1 template hmem
  have hnone : ∀ a ∈ studentAssignments removedStore.db 2 1,
      (assignmentOut removedStore.db removedStore.clock a).accessOpen = false := by decide
  have hno : (assignmentOut removedStore.db removedStore.clock a).accessOpen = false := hnone a ha
  exact absurd (haccess.symm.trans hno) (by decide)

end Fixture

end LabGoblin
