import LabGoblin.Analysis.Alone
import LabGoblin.Analysis.Fixture
import LabGoblin.Analysis.Slots

/-!
# The slot that is chosen for a student

Without a slot in the request `_create_assignment` takes the one after the number of the
student's open assignments. The open ones need not fill the first slots, so this slot may be
taken, or beyond the quota, while another one is free.
-/

set_option autoImplicit false

namespace LabGoblin

open Interactive

/-- The assignments of a student in a run that are not revoked. -/
def openAssignments (db : Db) (runId userId : ℕ) : List LabAssignment :=
  db.labAssignments.filter fun a =>
    a.labRunId = runId && a.userId = userId && a.status ≠ .revoked

/-- The slot has no assignment of the student, or a revoked one without a VM. -/
def SlotFree (db : Db) (runId userId slot : ℕ) : Prop :=
  ∀ a ∈ db.labAssignments.rows, a.InSlot runId userId slot → a.vacant

def HasFreeSlot (db : Db) (run : LabRun) (userId : ℕ) : Prop :=
  ∃ slot, 1 ≤ slot ∧ slot ≤ run.maxVmsPerStudent ∧ SlotFree db run.id userId slot

/-- The student may be assigned in the run, with the template of the request. -/
structure Assignable (db : Db) (run : LabRun) (lab : Lab) (userId : ℕ) (templateId : Option ℕ) :
    Prop where
  enrollment : ∃ e, activeEnrollment db lab.classId userId = some e ∧
    e.role.getD .student = .student
  membership : (getActiveMembership db userId run.organizationId).isSome = true
  template : ∃ t, assignmentTemplate db run lab templateId = .ok t

section Automatic

variable {H : Type} {outside : Outside H} {p : Pid} {t t' : Sys H} {run : LabRun} {lab : Lab}
  {userId : ℕ} {templateId : Option ℕ}

/-- A request without a slot creates an assignment, and the student has one more open one. -/
def AssignsOneMore (outside : Outside H) (p : Pid) (t : Sys H) (run : LabRun) (lab : Lab)
    (userId : ℕ) (templateId : Option ℕ) : Prop :=
  ∃ id writes t', Returns (machine outside) p
      (createAssignment run lab ⟨userId, templateId, none⟩ []) t (id, true, writes) t' ∧
    (openAssignments (t'.store.withFlushed writes) run.id userId).length =
      (openAssignments t.store.db run.id userId).length + 1

/-- Where the student may be assigned and some slot within the quota is free, a request without
a slot gets one. -/
def UsesFreeSlot (outside : Outside H) (p : Pid) (t : Sys H) (run : LabRun) (lab : Lab)
    (userId : ℕ) (templateId : Option ℕ) : Prop :=
  Assignable t.store.db run lab userId templateId → HasFreeSlot t.store.db run userId →
    AssignsOneMore outside p t run lab userId templateId

/-! ## The checks -/

/-- The slot that `_create_assignment` takes of itself. -/
def nextSlot (db : Db) (runId userId : ℕ) : ℕ := (openAssignments db runId userId).length + 1

/-- The check of a request without a slot takes the next slot, if the quota has it. -/
theorem checkAssignment_automatic {db : Db} (h : Assignable db run lab userId templateId) :
    ∃ template, checkAssignment db run lab ⟨userId, templateId, none⟩ =
      if run.maxVmsPerStudent < nextSlot db run.id userId then
        .error (.http 409 "Student assignment quota reached for this lab run")
      else .ok (template, nextSlot db run.id userId) := by
  obtain ⟨e, henrollment, hrole⟩ := h.enrollment
  obtain ⟨template, htemplate⟩ := h.template
  have hmember : ¬ (getActiveMembership db userId run.organizationId).isNone = true := by
    simpa using Option.isSome_iff_ne_none.mp h.membership
  refine ⟨template, ?_⟩
  unfold checkAssignment
  dsimp only
  rw [henrollment]
  dsimp only
  rw [if_neg (not_not_intro hrole), if_neg hmember, htemplate]
  have hslot : nextSlot db run.id userId ≠ 0 := Nat.succ_ne_zero _
  by_cases hquota : run.maxVmsPerStudent < nextSlot db run.id userId
  · rw [if_pos hquota]
    exact if_pos (Or.inr hquota)
  · rw [if_neg hquota]
    refine if_neg ?_
    rintro (hlt | hlt)
    · exact hslot (Nat.lt_one_iff.mp hlt)
    · exact hquota hlt

/-! ## The row of a slot -/

/-- By the unique constraint a slot has one row. -/
theorem eq_of_inSlot {db : Db} (hvalid : db.Constraints) {slot : ℕ} {a b : LabAssignment}
    (ha : a ∈ db.labAssignments.rows) (hb : b ∈ db.labAssignments.rows)
    (haslot : a.InSlot run.id userId slot) (hbslot : b.InSlot run.id userId slot) : a = b := by
  refine hvalid.assignments_slot a ha b hb (Option.some_ne_none _) ?_
  dsimp only
  rw [haslot.labRunId, haslot.userId, haslot.slotIndex, hbslot.labRunId, hbslot.userId,
    hbslot.slotIndex]

/-- A slot with a row is free exactly when the row is vacant. -/
theorem slotFree_of_some {db : Db} (hvalid : db.Constraints) {slot : ℕ} {existing : LabAssignment}
    (h : assignmentInSlot db run.id userId slot = some existing) :
    SlotFree db run.id userId slot ↔ existing.vacant := by
  obtain ⟨hmem, hslot⟩ := assignmentInSlot_some h
  constructor
  · exact fun hfree => hfree existing hmem hslot
  · intro hvacant a ha haslot
    rw [eq_of_inSlot hvalid ha hmem haslot hslot]
    exact hvacant

/-- A slot without a row is free. -/
theorem slotFree_of_none {db : Db} {slot : ℕ}
    (h : assignmentInSlot db run.id userId slot = none) : SlotFree db run.id userId slot := by
  intro a ha hslot
  have hfalse := Table.first_none h a ha
  simp [hslot.labRunId, hslot.userId, hslot.slotIndex] at hfalse

/-! ## What is returned -/

/-- The row that is inserted for a slot without one. -/
def newAssignment (run : LabRun) (userId templateId slot id : ℕ) : LabAssignment where
  id := id
  organizationId := run.organizationId
  labRunId := run.id
  userId := userId
  templateId := templateId
  slotIndex := slot
  status := .assigned
  studentVmId := none
  expiresAt := run.endsAt

/-- What `_create_assignment` returns for a slot, and the state it leaves. -/
inductive SlotResult (p : Pid) (t : Sys H) (run : LabRun) (userId templateId slot : ℕ) :
    ℕ × Bool × List Write → Sys H → Prop
  | revived (a : LabAssignment) (ha : assignmentInSlot t.store.db run.id userId slot = some a)
      (hvacant : a.vacant) : SlotResult p t run userId templateId slot
        (a.id, true, [.assignment (.reassign a.id templateId run.endsAt)]) t
  | held (a : LabAssignment) (ha : assignmentInSlot t.store.db run.id userId slot = some a)
      (hheld : ¬ a.vacant) : SlotResult p t run userId templateId slot (a.id, false, []) t
  | inserted (hnone : assignmentInSlot t.store.db run.id userId slot = none) :
      SlotResult p t run userId templateId slot (t.store.db.labAssignments.next, true,
        [.assignment (.insert
          (newAssignment run userId templateId slot t.store.db.labAssignments.next))])
        (t.after p (.draw .labAssignments))

/-- What `_create_assignment` does for a slot, when its transaction sees the rows `db`. -/
def slotOutcome (p : Pid) (t : Sys H) (db : Db) (run : LabRun) (userId templateId slot : ℕ) :
    (ℕ × Bool × List Write) × Sys H :=
  match assignmentInSlot db run.id userId slot with
  | some a =>
    if a.status = .revoked ∧ a.studentVmId = none then
      ((a.id, true, [.assignment (.reassign a.id templateId run.endsAt)]), t)
    else ((a.id, false, []), t)
  | none => ((t.store.db.labAssignments.next, true, [.assignment (.insert
      (newAssignment run userId templateId slot t.store.db.labAssignments.next))]),
      t.after p (.draw .labAssignments))

/-- `_create_assignment` returns when its checks pass, with the outcome for the checked slot. -/
theorem returns_createAssignment_flushed {payload : LabAssignmentCreate} {flushed : List Write}
    {r : ℕ × Bool × List Write} :
    Returns (machine outside) p (createAssignment run lab payload flushed) t r t' ↔
      ∃ template slot,
        checkAssignment (t.store.withFlushed flushed) run lab payload = .ok (template, slot) ∧
          (r, t') = slotOutcome p ((t.after p (.select .rows)).after p (.select .rows))
            (t.store.withFlushed flushed) run payload.userId template.id slot := by
  unfold createAssignment slotOutcome
  rw [returns_select_bind, returns_check_bind, Prod.exists]
  refine exists_congr fun template => exists_congr fun slot => and_congr_right fun _ => ?_
  refine returns_select_bind.trans ?_
  simp only [Sys.after_store, Store.exec_select]
  cases assignmentInSlot (t.store.withFlushed flushed) run.id payload.userId slot with
  | some a =>
    by_cases hvacant : a.status = .revoked ∧ a.studentVmId = none
    · simp only [if_pos hvacant, returns_pure, Prod.mk.injEq]
      exact and_congr_left fun _ => eq_comm
    · simp only [if_neg hvacant, returns_pure, Prod.mk.injEq]
      exact and_congr_left fun _ => eq_comm
  | none =>
    simp only [returns_draw_bind, returns_pure, Prod.mk.injEq]
    exact and_congr_left fun _ => eq_comm

/-- Assigning a slot returns what its check and the state of the slot give. -/
theorem returns_createAssignment_iff {payload : LabAssignmentCreate} {r : ℕ × Bool × List Write} :
    Returns (machine outside) p (createAssignment run lab payload []) t r t' ↔
      ∃ template slot, checkAssignment t.store.db run lab payload = .ok (template, slot) ∧
        SlotResult p ((t.after p (.select .rows)).after p (.select .rows)) run payload.userId
          template.id slot r t' := by
  refine returns_createAssignment_flushed.trans ?_
  refine exists_congr fun template => exists_congr fun slot => and_congr_right fun _ => ?_
  have hview : t.store.withFlushed [] =
      ((t.after p (.select .rows)).after p (.select .rows)).store.db := rfl
  rw [hview]
  generalize (t.after p (.select .rows)).after p (.select .rows) = t₂
  unfold slotOutcome
  constructor
  · intro h
    split at h
    · rename_i a ha
      split at h
      · rename_i hvacant
        cases h
        exact .revived a ha hvacant
      · rename_i hheld
        cases h
        exact .held a ha hheld
    · rename_i hnone
      cases h
      exact .inserted hnone
  · intro h
    cases h with
    | revived a ha hvacant =>
      rw [ha]
      exact (if_pos (show a.status = .revoked ∧ a.studentVmId = none from hvacant)).symm
    | held a ha hheld =>
      rw [ha]
      exact (if_neg (show ¬ (a.status = .revoked ∧ a.studentVmId = none) from hheld)).symm
    | inserted hnone => rw [hnone]

/-! ## One more open assignment -/

/-- A revoked row that is assigned again is one more open assignment. -/
theorem openAssignments_reassign {s : Store} {a : LabAssignment} {expiresAt : Option Time}
    (ha : a ∈ s.db.labAssignments.rows) (hrun : a.labRunId = run.id)
    (huser : a.userId = userId) (hrevoked : a.status = .revoked) (templateId : ℕ) :
    (openAssignments (s.withFlushed [.assignment (.reassign a.id templateId expiresAt)])
        run.id userId).length = (openAssignments s.db run.id userId).length + 1 := by
  have hrow := Table.get?_of_mem ha
  have hbefore : (decide (a.labRunId = run.id) && decide (a.userId = userId) &&
      decide (a.status ≠ .revoked)) = false := by simp [hrevoked]
  exact Table.length_filter_update (AssignmentWrite.onRow_id (.reassign a.id templateId expiresAt))
    hrow hbefore (by simp [AssignmentWrite.onRow, hrun, huser])

/-- An inserted row is one more open assignment. -/
theorem openAssignments_insert {s : Store} {row : LabAssignment}
    (hadmits : s.db.labAssignments.Admits row) (hrun : row.labRunId = run.id)
    (huser : row.userId = userId) (hopen : row.status ≠ .revoked) :
    (openAssignments (s.withFlushed [.assignment (.insert row)]) run.id userId).length =
      (openAssignments s.db run.id userId).length + 1 := by
  have happlied : s.withFlushed [.assignment (.insert row)] =
      { s.db with labAssignments := s.db.labAssignments.append row hadmits } := by
    simp [Store.withFlushed, Db.applyAll, Write.apply, AssignmentWrite.apply,
      Table.insert?_of_admits hadmits]
  rw [happlied]
  unfold openAssignments Table.filter Table.append
  simp [List.filter_append, hrun, huser, hopen]

/-! ## The choice -/

/-- An automatic request assigns one more slot exactly when the slot after the number of open
assignments is within the quota and free. -/
theorem assignsOneMore_iff (hassignable : Assignable t.store.db run lab userId templateId) :
    AssignsOneMore outside p t run lab userId templateId ↔
      nextSlot t.store.db run.id userId ≤ run.maxVmsPerStudent ∧
        SlotFree t.store.db run.id userId (nextSlot t.store.db run.id userId) := by
  obtain ⟨template, hcheck⟩ := checkAssignment_automatic hassignable
  have hvalid := t.store.valid
  constructor
  · rintro ⟨id, writes, t', hreturns, -⟩
    obtain ⟨template', slot, hchecked, hresult⟩ := returns_createAssignment_iff.mp hreturns
    rw [hcheck] at hchecked
    split at hchecked
    · cases hchecked
    · rename_i hquota
      cases hchecked
      refine ⟨Nat.le_of_not_lt hquota, ?_⟩
      cases hresult with
      | revived a ha hvacant => exact (slotFree_of_some hvalid ha).mpr hvacant
      | inserted hnone => exact slotFree_of_none hnone
  · rintro ⟨hquota, hslot⟩
    rw [if_neg (Nat.not_lt.mpr hquota)] at hcheck
    cases hfound : assignmentInSlot t.store.db run.id userId
        (nextSlot t.store.db run.id userId) with
    | some a =>
      have hvacant := (slotFree_of_some hvalid hfound).mp hslot
      obtain ⟨hmem, hin⟩ := assignmentInSlot_some hfound
      refine ⟨_, _, _, returns_createAssignment_iff.mpr ⟨template, _, hcheck,
        .revived a hfound hvacant⟩, ?_⟩
      exact openAssignments_reassign hmem hin.labRunId hin.userId hvacant.1 template.id
    | none =>
      refine ⟨_, _, _, returns_createAssignment_iff.mpr ⟨template, _, hcheck,
        .inserted hfound⟩, ?_⟩
      have hadmits : (t.store.db.draw .labAssignments).labAssignments.Admits
          (newAssignment run userId template.id (nextSlot t.store.db run.id userId)
            t.store.db.labAssignments.next) := Table.admits_reserve rfl
      exact openAssignments_insert (s := (t.after p (.draw .labAssignments)).store) hadmits rfl rfl
        (by simp [newAssignment])

/-- Of every request without a slot: it gets a free slot where there is one exactly when the next
slot is within the quota and free. -/
theorem usesFreeSlot_iff (outside : Outside H) (p : Pid) (t : Sys H) (run : LabRun) (lab : Lab)
    (userId : ℕ) (templateId : Option ℕ) :
    UsesFreeSlot outside p t run lab userId templateId ↔
      (Assignable t.store.db run lab userId templateId → HasFreeSlot t.store.db run userId →
        nextSlot t.store.db run.id userId ≤ run.maxVmsPerStudent ∧
          SlotFree t.store.db run.id userId (nextSlot t.store.db run.id userId)) :=
  forall_congr' fun hassignable => forall_congr' fun _ => assignsOneMore_iff hassignable

end Automatic

namespace Fixture

/-- A run with two slots for each student. -/
def twoSlots : LabRun := ⟨1, 1, 1, "r", .active, none, none, 2, 3, none, none⟩

def lab : Lab := ⟨1, 1, 1, "l", none, none, none, 1, ⟨true, true, true, true, true⟩⟩

/-- The first assignment of the student is revoked, the second one open. -/
def holeStore : Store where
  db := { baseDb with
    labRuns := ⟨[twoSlots], 2, by decide, by decide⟩
    labAssignments := ⟨[⟨1, 1, 1, 2, 1, 1, .revoked, none, none⟩,
      ⟨2, 1, 1, 2, 1, 2, .assigned, none, none⟩], 3, by decide, by decide⟩ }
  valid := by decide
  clock := 100
  locks := []
  nonce := 0

/-- The open assignment in the second slot is returned, although the first slot is free. -/
theorem not_usesFreeSlot : ¬ UsesFreeSlot anything 0 (start holeStore) twoSlots lab 2 none := by
  intro h
  have hassignable : Assignable holeStore.db twoSlots lab 2 none := by
    refine ⟨⟨⟨1, 1, 2, some .student, true⟩, by decide, by decide⟩, by decide, ?_⟩
    exact ⟨⟨1, 1, some 1, "t", "n", 9000, true⟩, by decide⟩
  have hfree : HasFreeSlot holeStore.db twoSlots 2 := by
    refine ⟨1, Nat.le_refl 1, by decide, ?_⟩
    intro a ha hslot
    rcases List.mem_cons.mp ha with rfl | ha
    · exact ⟨rfl, rfl⟩
    · rw [List.mem_singleton.mp ha] at hslot
      exact absurd hslot.slotIndex (by decide)
  obtain ⟨-, hnext⟩ := (assignsOneMore_iff hassignable).mp (h hassignable hfree)
  have hopen := hnext ⟨2, 1, 1, 2, 1, 2, .assigned, none, none⟩
    (List.mem_cons_of_mem _ List.mem_cons_self) ⟨rfl, rfl, rfl⟩
  exact absurd hopen.1 (by decide)

end Fixture

end LabGoblin
