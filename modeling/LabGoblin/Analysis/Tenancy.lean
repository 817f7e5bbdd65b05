import LabGoblin.Analysis.ConductSound
import LabGoblin.Analysis.EditIsolation
import LabGoblin.Computation.Lineage

/-!
# Tenancy

Every row belongs to one organization, and refers only to rows of the same one. Rows of classes,
labs and pools can be deleted while a request that has read them goes on, so what a request may
believe of an id is that it is spent: the sequence has passed it, and no open transaction is going
to insert a row under it. No row of another organization appears under such an id.
-/

set_option autoImplicit false

namespace LabGoblin

open Interactive

/-- The rows that refer to each other belong to one organization. A lab's pool may be gone. -/
structure Db.Tenancy (db : Db) : Prop where
  labClass : ∀ l ∈ db.labs.rows, ∃ c, db.classes.get? l.classId = some c ∧
    c.organizationId = l.organizationId
  labPool : ∀ l ∈ db.labs.rows, l.defaultPoolId < db.desktopPools.next ∧
    ∀ q, db.desktopPools.get? l.defaultPoolId = some q → q.organizationId = l.organizationId
  runLab : ∀ r ∈ db.labRuns.rows, ∃ l, db.labs.get? r.labId = some l ∧
    l.organizationId = r.organizationId
  assignmentRun : ∀ a ∈ db.labAssignments.rows, ∃ r, db.labRuns.get? a.labRunId = some r ∧
    r.organizationId = a.organizationId
  assignmentTemplate : ∀ a ∈ db.labAssignments.rows, ∃ t,
    db.vmTemplates.get? a.templateId = some t ∧ t.organizationId = a.organizationId
  assignmentVm : ∀ a ∈ db.labAssignments.rows, ∀ v, a.studentVmId = some v →
    ∃ vm, db.studentVms.get? v = some vm ∧ vm.organizationId = a.organizationId ∧
      vm.ownerId = a.userId
  vmTemplate : ∀ vm ∈ db.studentVms.rows, ∃ t, db.vmTemplates.get? vm.templateId = some t ∧
    t.organizationId = vm.organizationId
  operationVm : ∀ o ∈ db.durableOperations.rows, ∀ v, o.target = .studentVm v →
    ∃ vm, db.studentVms.get? v = some vm ∧ o.organizationId = some vm.organizationId

section Keys

variable {H : Type}

/-! ## Ids that are spent -/

/-- The open transaction of the process has drawn the id. -/
def Pending (q : Sequence) (p : Pid) (i : ℕ) (t : Sys H) : Prop :=
  ∃ s, (Stmt.draw q, s) ∈ openTransaction p t.log ∧ s.db.nextval q = i

/-- The sequence has passed the id, and no open transaction is going to insert a row under it. -/
def Spent (q : Sequence) (t : Sys H) (i : ℕ) : Prop :=
  i < t.store.db.nextval q ∧ ∀ p, ¬ Pending q p i t

def HeldClass (t : Sys H) (i organizationId : ℕ) : Prop :=
  t.store.db.classes.Held (Spent .classes t) Class.organizationId i organizationId

def HeldPool (t : Sys H) (i organizationId : ℕ) : Prop :=
  t.store.db.desktopPools.Held (Spent .desktopPools t) DesktopPool.organizationId i organizationId

def HeldLab (t : Sys H) (i organizationId : ℕ) : Prop :=
  t.store.db.labs.Held (Spent .labs t) Lab.organizationId i organizationId

def HeldRun (t : Sys H) (i organizationId : ℕ) : Prop :=
  t.store.db.labRuns.Held (Spent .labRuns t) LabRun.organizationId i organizationId

/-- The template is there, and belongs to the organization. -/
def TemplateIn (t : Sys H) (i organizationId : ℕ) : Prop :=
  ∃ row, t.store.db.vmTemplates.get? i = some row ∧ row.organizationId = organizationId

/-- The VM record is there, and belongs to the organization and to the user. -/
def VmIn (t : Sys H) (i organizationId ownerId : ℕ) : Prop :=
  ∃ row, t.store.db.studentVms.get? i = some row ∧ row.organizationId = organizationId ∧
    row.ownerId = ownerId

/-- The assignment is there, and belongs to the organization and to the user. -/
def AssignmentIn (t : Sys H) (i organizationId userId : ℕ) : Prop :=
  ∃ row, t.store.db.labAssignments.get? i = some row ∧ row.organizationId = organizationId ∧
    row.userId = userId

/-! ## What every step is -/

/-- The columns of an assignment that no write changes. -/
def LabAssignment.place (a : LabAssignment) : ℕ × ℕ × ℕ := (a.organizationId, a.labRunId, a.userId)

/-- The columns of a VM record that say whose it is. -/
def StudentVM.place (v : StudentVM) : ℕ × ℕ := (v.organizationId, v.ownerId)

/-- Ids stay spent, and no row changes its organization. -/
structure Extends (t t' : Sys H) : Prop where
  spent : ∀ q i, Spent q t i → Spent q t' i
  classes : t.store.db.classes.Descends (Spent .classes t) Class.organizationId t'.store.db.classes
  pools : t.store.db.desktopPools.Descends (Spent .desktopPools t) DesktopPool.organizationId
    t'.store.db.desktopPools
  labs : t.store.db.labs.Descends (Spent .labs t) Lab.organizationId t'.store.db.labs
  runs : t.store.db.labRuns.Descends (Spent .labRuns t) LabRun.organizationId t'.store.db.labRuns
  templates : t.store.db.vmTemplates.Endures VMTemplate.organizationId t'.store.db.vmTemplates
  assignments : t.store.db.labAssignments.Endures LabAssignment.place t'.store.db.labAssignments
  vms : t.store.db.studentVms.Endures StudentVM.place t'.store.db.studentVms

/-- Nothing happening extends what is held. -/
theorem Extends.refl (t : Sys H) : Extends t t where
  spent := fun _ _ h => h
  classes := .refl _ _
  pools := .refl _ _
  labs := .refl _ _
  runs := .refl _ _
  templates := .refl _
  assignments := .refl _
  vms := .refl _

/-- What is held after two steps is held. -/
theorem Extends.trans {a b c : Sys H} (h : Extends a b) (h' : Extends b c) : Extends a c where
  spent := fun q i hi => h'.spent q i (h.spent q i hi)
  classes := h.classes.trans (h.spent .classes) h'.classes
  pools := h.pools.trans (h.spent .desktopPools) h'.pools
  labs := h.labs.trans (h.spent .labs) h'.labs
  runs := h.runs.trans (h.spent .labRuns) h'.runs
  templates := h.templates.trans h'.templates
  assignments := h.assignments.trans h'.assignments
  vms := h.vms.trans h'.vms

section Stable

variable {t t' : Sys H} (h : Extends t t') {i organizationId user : ℕ}
include h

/-- A class that is held stays held. -/
theorem Extends.heldClass (hi : HeldClass t i organizationId) : HeldClass t' i organizationId :=
  hi.descends (h.spent _) h.classes

/-- A pool that is held stays held. -/
theorem Extends.heldPool (hi : HeldPool t i organizationId) : HeldPool t' i organizationId :=
  hi.descends (h.spent _) h.pools

/-- A lab that is held stays held. -/
theorem Extends.heldLab (hi : HeldLab t i organizationId) : HeldLab t' i organizationId :=
  hi.descends (h.spent _) h.labs

/-- A run that is held stays held. -/
theorem Extends.heldRun (hi : HeldRun t i organizationId) : HeldRun t' i organizationId :=
  hi.descends (h.spent _) h.runs

/-- A template stays in its organization. -/
theorem Extends.templateIn (hi : TemplateIn t i organizationId) :
    TemplateIn t' i organizationId := by
  obtain ⟨row, hrow, horg⟩ := hi
  obtain ⟨row', hrow', hcolumn⟩ := h.templates i row hrow
  exact ⟨row', hrow', hcolumn.trans horg⟩

/-- A VM record stays in its organization and with its owner. -/
theorem Extends.vmIn (hi : VmIn t i organizationId user) : VmIn t' i organizationId user := by
  obtain ⟨row, hrow, horg, howner⟩ := hi
  obtain ⟨row', hrow', hcolumn⟩ := h.vms i row hrow
  obtain ⟨horg', howner'⟩ := Prod.mk.inj hcolumn
  exact ⟨row', hrow', horg'.trans horg, howner'.trans howner⟩

/-- An assignment stays in its organization and with its student. -/
theorem Extends.assignmentIn (hi : AssignmentIn t i organizationId user) :
    AssignmentIn t' i organizationId user := by
  obtain ⟨row, hrow, horg, huser⟩ := hi
  obtain ⟨row', hrow', hcolumn⟩ := h.assignments i row hrow
  obtain ⟨horg', hrest⟩ := Prod.mk.inj hcolumn
  obtain ⟨-, huser'⟩ := Prod.mk.inj hrest
  exact ⟨row', hrow', horg'.trans horg, huser'.trans huser⟩

end Stable

/-! ## The invariant -/

/-- Ids are drawn once, rows stand under spent ids, and every row belongs to the organization of
the rows that it refers to. -/
structure Tenanted (t : Sys H) : Prop where
  drawn : ∀ q p i, Pending q p i t → i < t.store.db.nextval q
  apart : ∀ q p p' i, Pending q p i t → Pending q p' i t → p = p'
  spentClass : ∀ i c, t.store.db.classes.get? i = some c → Spent .classes t i
  spentPool : ∀ i q, t.store.db.desktopPools.get? i = some q → Spent .desktopPools t i
  spentLab : ∀ i l, t.store.db.labs.get? i = some l → Spent .labs t i
  spentRun : ∀ i r, t.store.db.labRuns.get? i = some r → Spent .labRuns t i
  lab : ∀ i l, t.store.db.labs.get? i = some l →
    HeldClass t l.classId l.organizationId ∧ HeldPool t l.defaultPoolId l.organizationId
  run : ∀ i r, t.store.db.labRuns.get? i = some r → HeldLab t r.labId r.organizationId
  assignment : ∀ i a, t.store.db.labAssignments.get? i = some a →
    HeldRun t a.labRunId a.organizationId ∧ TemplateIn t a.templateId a.organizationId ∧
      ∀ v, a.studentVmId = some v → VmIn t v a.organizationId a.userId
  vm : ∀ i v, t.store.db.studentVms.get? i = some v → TemplateIn t v.templateId v.organizationId
  operation : ∀ i o, t.store.db.durableOperations.get? i = some o → ∀ v,
    o.target = .studentVm v → ∃ organizationId user, o.organizationId = some organizationId ∧
      VmIn t v organizationId user

/-- A row that is there holds its id. -/
theorem Tenanted.heldClass {t : Sys H} (h : Tenanted t) {i : ℕ} {c : Class}
    (hc : t.store.db.classes.get? i = some c) : HeldClass t i c.organizationId :=
  .of_get? (h.spentClass i c hc) hc

/-- A pool that is there is held by its organization. -/
theorem Tenanted.heldPool {t : Sys H} (h : Tenanted t) {i : ℕ} {q : DesktopPool}
    (hq : t.store.db.desktopPools.get? i = some q) : HeldPool t i q.organizationId :=
  .of_get? (h.spentPool i q hq) hq

/-- A lab that is there is held by its organization. -/
theorem Tenanted.heldLab {t : Sys H} (h : Tenanted t) {i : ℕ} {l : Lab}
    (hl : t.store.db.labs.get? i = some l) : HeldLab t i l.organizationId :=
  .of_get? (h.spentLab i l hl) hl

/-- A run that is there is held by its organization. -/
theorem Tenanted.heldRun {t : Sys H} (h : Tenanted t) {i : ℕ} {r : LabRun}
    (hr : t.store.db.labRuns.get? i = some r) : HeldRun t i r.organizationId :=
  .of_get? (h.spentRun i r hr) hr

/-- Where nothing has happened yet, nothing has been drawn. -/
theorem not_pending_initial {t : Sys H} (ht : t.Initial) (q : Sequence) (p : Pid) (i : ℕ) :
    ¬ Pending q p i t := by
  rintro ⟨s, hmem, -⟩
  rw [ht.log] at hmem
  cases hmem

/-- A database whose rows belong together is a start. -/
theorem Db.Tenancy.tenanted {t : Sys H} (h : t.store.db.Tenancy) (ht : t.Initial) : Tenanted t := by
  have hpending := not_pending_initial ht
  have hspent : ∀ q i, i < t.store.db.nextval q → Spent q t i :=
    fun q i hi => ⟨hi, fun p => hpending q p i⟩
  refine {
    drawn := fun q p i hi => absurd hi (hpending q p i)
    apart := fun q p p' i hi => absurd hi (hpending q p i)
    spentClass := fun i c hc => hspent .classes i (Table.lt_next_of_get? hc)
    spentPool := fun i q hq => hspent .desktopPools i (Table.lt_next_of_get? hq)
    spentLab := fun i l hl => hspent .labs i (Table.lt_next_of_get? hl)
    spentRun := fun i r hr => hspent .labRuns i (Table.lt_next_of_get? hr)
    lab := ?_
    run := ?_
    assignment := ?_
    vm := ?_
    operation := ?_ }
  · intro i l hl
    have hmem := Table.mem_of_get? hl
    obtain ⟨c, hc, horg⟩ := h.labClass l hmem
    obtain ⟨hnext, hpool⟩ := h.labPool l hmem
    refine ⟨?_, hspent .desktopPools _ hnext, hpool⟩
    rw [← horg]
    exact .of_get? (hspent .classes _ (Table.lt_next_of_get? hc)) hc
  · intro i r hr
    obtain ⟨l, hl, horg⟩ := h.runLab r (Table.mem_of_get? hr)
    rw [← horg]
    exact .of_get? (hspent .labs _ (Table.lt_next_of_get? hl)) hl
  · intro i a ha
    have hmem := Table.mem_of_get? ha
    obtain ⟨r, hr, horg⟩ := h.assignmentRun a hmem
    refine ⟨?_, h.assignmentTemplate a hmem, h.assignmentVm a hmem⟩
    rw [← horg]
    exact .of_get? (hspent .labRuns _ (Table.lt_next_of_get? hr)) hr
  · exact fun i v hv => h.vmTemplate v (Table.mem_of_get? hv)
  · intro i o ho v hv
    obtain ⟨vm, hvm, horg⟩ := h.operationVm o (Table.mem_of_get? ho) v hv
    exact ⟨_, _, horg, vm, hvm, rfl, rfl⟩

/-- The invariant says of the database what it is for. The rows that foreign keys name are
there. -/
theorem Tenanted.tenancy {t : Sys H} (h : Tenanted t) : t.store.db.Tenancy := by
  have hvalid := t.store.valid
  refine {
    labClass := ?_
    labPool := ?_
    runLab := ?_
    assignmentRun := ?_
    assignmentTemplate := fun a ha => (h.assignment _ a (Table.get?_of_mem ha)).2.1
    assignmentVm := fun a ha => (h.assignment _ a (Table.get?_of_mem ha)).2.2
    vmTemplate := fun v hv => h.vm _ v (Table.get?_of_mem hv)
    operationVm := ?_ }
  · intro l hl
    obtain ⟨c, hc⟩ := Option.isSome_iff_exists.mp (hvalid.labs_class l hl _ rfl)
    exact ⟨c, hc, (h.lab _ l (Table.get?_of_mem hl)).1.eq hc⟩
  · intro l hl
    have hpool := (h.lab _ l (Table.get?_of_mem hl)).2
    exact ⟨hpool.1.1, hpool.2⟩
  · intro r hr
    obtain ⟨l, hl⟩ := Option.isSome_iff_exists.mp (hvalid.runs_lab r hr _ rfl)
    exact ⟨l, hl, (h.run _ r (Table.get?_of_mem hr)).eq hl⟩
  · intro a ha
    obtain ⟨r, hr⟩ := Option.isSome_iff_exists.mp (hvalid.assignments_run a ha _ rfl)
    exact ⟨r, hr, (h.assignment _ a (Table.get?_of_mem ha)).1.eq hr⟩
  · intro o ho v hv
    obtain ⟨organizationId, user, horg, vm, hvm, hsame, -⟩ :=
      h.operation _ o (Table.get?_of_mem ho) v hv
    exact ⟨vm, hvm, by rw [horg, hsame]⟩

end Keys

end LabGoblin
