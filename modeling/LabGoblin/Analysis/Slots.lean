import LabGoblin.Analysis.Effects
import LabGoblin.Analysis.Transaction

/-!
# Assigning slots

What `_create_assignment` writes for a student's slot of a run, as its own transaction sees the
assignments: the committed rows and the writes it has flushed before.
-/

set_option autoImplicit false

namespace LabGoblin

open Interactive

/-- The assignment is for a slot of a student in a run. -/
structure LabAssignment.InSlot (a : LabAssignment) (run user slot : ℕ) : Prop where
  labRunId : a.labRunId = run
  userId : a.userId = user
  slotIndex : a.slotIndex = slot

/-- The row of a slot that `_create_assignment` assigns again. -/
def LabAssignment.vacant (a : LabAssignment) : Prop :=
  a.status = .revoked ∧ a.studentVmId = none

/-- No write drops or links the row of the slot. -/
def Spares (run user slot : ℕ) (db : Db) (ws : List Write) : Prop :=
  ∀ w, .assignment w ∈ ws →
    (∃ row, w = .insert row ∧ row.status = .assigned ∧ row.studentVmId = none) ∨
      (∃ a templateId expiresAt, w = .reassign a templateId expiresAt) ∨
      (∃ a expiresAt templateId, w = .reschedule a expiresAt templateId) ∨
      ∃ b, db.labAssignments.get? w.target = some b ∧ ¬ b.InSlot run user slot

/-- The slot has a row that is not vacant, or one that the writes assign or insert. -/
inductive Occupied (run user slot : ℕ) (ws : List Write) (db : Db) : Prop
  | held (b : LabAssignment) (hb : b ∈ db.labAssignments.rows) (hslot : b.InSlot run user slot)
      (hheld : ¬ b.vacant)
  | reassigned (b : LabAssignment) (templateId : ℕ) (expiresAt : Option Time)
      (hb : b ∈ db.labAssignments.rows) (hslot : b.InSlot run user slot)
      (hw : .assignment (.reassign b.id templateId expiresAt) ∈ ws)
  | inserted (row : LabAssignment) (hslot : row.InSlot run user slot)
      (hw : .assignment (.insert row) ∈ ws)

/-- What `_create_assignment` writes for a slot after the writes `flushed`. -/
inductive SlotWrites (run : LabRun) (user slot : ℕ) (flushed : List Write) (db : Db) :
    List Write → Prop
  | none (h : Occupied run.id user slot flushed db) : SlotWrites run user slot flushed db []
  | reassign (b : LabAssignment) (templateId : ℕ) (hb : b ∈ db.labAssignments.rows)
      (hslot : b.InSlot run.id user slot) (hvacant : b.vacant) :
      SlotWrites run user slot flushed db [.assignment (.reassign b.id templateId run.endsAt)]
  | insert (row : LabAssignment) (hslot : row.InSlot run.id user slot)
      (hstatus : row.status = .assigned) (hlink : row.studentVmId = Option.none)
      (hexpires : row.expiresAt = run.endsAt) :
      SlotWrites run user slot flushed db [.assignment (.insert row)]

/-- No write moves an assignment to another slot. -/
theorem AssignmentWrite.onRow_inSlot {run user slot : ℕ} (w : AssignmentWrite)
    (a : LabAssignment) : (w.onRow a).InSlot run user slot ↔ a.InSlot run user slot := by
  constructor
  · rintro ⟨h1, h2, h3⟩
    cases w <;> exact ⟨h1, h2, h3⟩
  · rintro ⟨h1, h2, h3⟩
    cases w <;> exact ⟨h1, h2, h3⟩

/-- What a transaction sees of one assignment after its own writes. -/
theorem Store.withFlushed_assignment {s : Store} {ws : List Write} {i : ℕ}
    {P : LabAssignment → Prop} (hold : ∀ r, s.db.labAssignments.get? i = some r → P r)
    (hins : ∀ r, s.db.labAssignments.get? i = none → .assignment (.insert r) ∈ ws → r.id = i →
      P r)
    (hupd : ∀ w, .assignment w ∈ ws → w.target = i → ∀ r, r.id = i → P r → P (w.onRow r)) :
    ∀ r, (s.withFlushed ws).labAssignments.get? i = some r → P r := by
  unfold Store.withFlushed
  cases h : Db.applyAll ws s.db with
  | none => exact hold
  | some db => exact Write.ofAssignments.row_after h hold hins hupd

section Slots

variable {run user slot : ℕ} {s : Store} {ws : List Write}

/-- The row that a transaction sees in a slot is the committed one with its status and link, or
one that the writes have assigned. -/
theorem slot_before (hspares : Spares run user slot s.db ws) {a : LabAssignment}
    (ha : a ∈ (s.withFlushed ws).labAssignments.rows) (hslot : a.InSlot run user slot) :
    (∃ b, s.db.labAssignments.get? a.id = some b ∧ b.InSlot run user slot ∧
        ((b.status = a.status ∧ b.studentVmId = a.studentVmId) ∨
          (a.status = .assigned ∧ ∃ templateId expiresAt,
            .assignment (.reassign b.id templateId expiresAt) ∈ ws))) ∨
      (a.status = .assigned ∧ ∃ row, .assignment (.insert row) ∈ ws ∧
        row.InSlot run user slot) := by
  have hrow := Store.withFlushed_assignment (s := s) (i := a.id) (P := fun r =>
    r.InSlot run user slot →
      (∃ b, s.db.labAssignments.get? a.id = some b ∧ b.InSlot run user slot ∧
        ((b.status = r.status ∧ b.studentVmId = r.studentVmId) ∨
          (r.status = .assigned ∧ ∃ templateId expiresAt,
            .assignment (.reassign b.id templateId expiresAt) ∈ ws))) ∨
      (s.db.labAssignments.get? a.id = none ∧ r.status = .assigned ∧
        ∃ row, .assignment (.insert row) ∈ ws ∧ row.InSlot run user slot)) ?_ ?_ ?_ a
    (Table.get?_of_mem ha) hslot
  · rcases hrow with h | ⟨-, hstatus, hinserted⟩
    · exact Or.inl h
    · exact Or.inr ⟨hstatus, hinserted⟩
  · intro r hr hslot
    exact Or.inl ⟨r, hr, hslot, Or.inl ⟨rfl, rfl⟩⟩
  · intro r hnone hmem hid hslot
    rcases hspares _ hmem with ⟨row, hrow, hstatus, -⟩ | ⟨_, _, _, hrow⟩ | ⟨_, _, _, hrow⟩ |
      ⟨b, hb, -⟩
    · cases hrow
      exact Or.inr ⟨hnone, hstatus, r, hmem, hslot⟩
    · cases hrow
    · cases hrow
    · have hb : s.db.labAssignments.get? r.id = some b := hb
      rw [hid, hnone] at hb
      cases hb
  · intro w hw htarget r hid hP hslot
    rw [w.onRow_inSlot] at hslot
    rcases hspares w hw with ⟨row, rfl, -, -⟩ | ⟨c, templateId, expiresAt, rfl⟩ |
      ⟨c, expiresAt, templateId, rfl⟩ | ⟨b, hb, hno⟩
    · exact hP hslot
    · have hc : c = a.id := htarget
      subst hc
      rcases hP hslot with ⟨b, hb, hbslot, -⟩ | ⟨hnone, -, hinserted⟩
      · refine Or.inl ⟨b, hb, hbslot, Or.inr ⟨rfl, templateId, expiresAt, ?_⟩⟩
        rw [Table.get?_key hb]
        exact hw
      · exact Or.inr ⟨hnone, rfl, hinserted⟩
    · exact hP hslot
    · rw [htarget] at hb
      rcases hP hslot with ⟨b', hb', hslot', -⟩ | ⟨hnone, -, -⟩
      · rw [hb] at hb'
        cases hb'
        exact absurd hslot' hno
      · rw [hb] at hnone
        cases hnone

/-- The assignment that is found in a slot is a row of it. -/
theorem assignmentInSlot_some {db : Db} {a : LabAssignment}
    (h : assignmentInSlot db run user slot = some a) :
    a ∈ db.labAssignments.rows ∧ a.InSlot run user slot := by
  obtain ⟨hmem, hcond⟩ := Table.first_some h
  simp only [Bool.and_eq_true, decide_eq_true_eq] at hcond
  exact ⟨hmem, hcond.1.1, hcond.1.2, hcond.2⟩

end Slots

/-- The slot that passes the checks of `_create_assignment` is within the quota. -/
theorem checkAssignment_ok {db : Db} {run : LabRun} {lab : Lab} {payload : LabAssignmentCreate}
    {template : VMTemplate} {slot : ℕ}
    (h : checkAssignment db run lab payload = .ok (template, slot)) :
    1 ≤ slot ∧ slot ≤ run.maxVmsPerStudent ∧
      ∀ n, payload.slotIndex = some n → n ≠ 0 → slot = n := by
  unfold checkAssignment at h
  split at h
  · cases h
  · split at h
    · cases h
    · split at h
      · cases h
      · split at h
        · cases h
        · dsimp only at h
          split at h
          · cases h
          · rename_i hquota
            cases h
            refine ⟨by omega, by omega, ?_⟩
            intro n hn hne
            rw [hn, Option.filter_some, if_pos (by simpa using hne)]
            rfl

section Reading

variable {le : Store → Store → Prop} {s : Store} {run : LabRun} {lab : Lab}

/-- `_create_assignment` finds the slot of the student occupied, or returns the write that
assigns it. -/
theorem reads_createAssignment (hrefl : ∀ s, le s s) (htrans : ∀ a b c, le a b → le b c → le a c)
    {payload : LabAssignmentCreate} {flushed : List Write}
    (hspares : ∀ s' slot, le s s' → 1 ≤ slot → slot ≤ run.maxVmsPerStudent →
      (∀ n, payload.slotIndex = some n → n ≠ 0 → slot = n) →
      Spares run.id payload.userId slot s'.db flushed) :
    Reads le (fun r s' => ∃ s₂ slot, le s s₂ ∧ le s₂ s' ∧ 1 ≤ slot ∧
        slot ≤ run.maxVmsPerStudent ∧ (∀ n, payload.slotIndex = some n → n ≠ 0 → slot = n) ∧
        SlotWrites run payload.userId slot flushed s₂.db r.2.2)
      (createAssignment run lab payload flushed) s := by
  unfold createAssignment
  simp only [reads_bind, reads_select, reads_check]
  rintro s₁ h₁ ⟨template, slot⟩ hchecked s₂ h₂
  obtain ⟨hpositive, hquota, hslot⟩ := checkAssignment_ok hchecked
  have hle : le s s₂ := htrans _ _ _ h₁ h₂
  have hspared := hspares s₂ slot hle hpositive hquota hslot
  cases hfound : assignmentInSlot (s₂.withFlushed flushed) run.id payload.userId slot with
  | some existing =>
    obtain ⟨hmem, hin⟩ := assignmentInSlot_some hfound
    have hbefore := slot_before hspared hmem hin
    by_cases hvacant : existing.status = .revoked ∧ existing.studentVmId = none
    · simp only [hvacant, and_self, if_true, reads_pure]
      refine ⟨s₂, slot, hle, hrefl _, hpositive, hquota, hslot, ?_⟩
      rcases hbefore with ⟨b, hb, hbslot, ⟨hstatus, hlink⟩ | ⟨hstatus, -⟩⟩ | ⟨hstatus, -⟩
      · have hid : b.id = existing.id := Table.get?_key hb
        rw [← hid]
        exact .reassign b template.id (Table.mem_of_get? hb) hbslot
          ⟨hstatus.trans hvacant.1, hlink.trans hvacant.2⟩
      · rw [hvacant.1] at hstatus
        cases hstatus
      · rw [hvacant.1] at hstatus
        cases hstatus
    · simp only [hvacant, if_false, reads_pure]
      refine ⟨s₂, slot, hle, hrefl _, hpositive, hquota, hslot, .none ?_⟩
      rcases hbefore with ⟨b, hb, hbslot, ⟨hstatus, hlink⟩ | ⟨-, templateId, expiresAt, hw⟩⟩ |
        ⟨-, row, hw, hrow⟩
      · refine .held b (Table.mem_of_get? hb) hbslot ?_
        rintro ⟨hrevoked, hnone⟩
        exact hvacant ⟨hstatus.symm.trans hrevoked, hlink.symm.trans hnone⟩
      · exact .reassigned b templateId expiresAt (Table.mem_of_get? hb) hbslot hw
      · exact .inserted row hrow hw
  | none =>
    simp only [reads_bind, reads_draw, reads_pure]
    intro s₃ h₃
    exact ⟨s₂, slot, hle, h₃, hpositive, hquota, hslot, .insert _ ⟨rfl, rfl, rfl⟩ rfl rfl rfl⟩

end Reading

end LabGoblin
