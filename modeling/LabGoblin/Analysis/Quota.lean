import LabGoblin.Analysis.LockConduct
import LabGoblin.Analysis.Fixture

/-!
# The quota of a run

Whoever assigns a slot does it under the lock on the run and within the quota of its row, and the
setup editor lowers the quota only together with dropping the slots above it. What does not look
at the run are the completions of operations, the cleanup worker and the deletion of a record:
they write a status over an assignment that they read earlier, and that may have been dropped
since.
-/

set_option autoImplicit false

namespace LabGoblin

open Interactive

/-- The assignment takes its slot: it is not revoked, or still linked to a VM. -/
def LabAssignment.TakesSlot (a : LabAssignment) : Prop :=
  a.status ≠ .revoked ∨ a.studentVmId ≠ none

/-- The slots that are taken are within the quota of their run. -/
def Db.InQuota (db : Db) : Prop :=
  ∀ a ∈ db.labAssignments.rows, a.TakesSlot → ∀ run, db.labRuns.get? a.labRunId = some run →
    a.slotIndex ≤ run.maxVmsPerStudent

/-- The status that a write gives. -/
def AssignmentWrite.newStatus : AssignmentWrite → Option AssignmentStatus
  | .status _ s => some s
  | .unlink _ s => s
  | _ => none

/-- The requests that write statuses of assignments without a lock on the run. -/
def Request.writesUnlocked : Request → Bool
  | .operationWorker _ => true
  | .cleanupWorker => true
  | .deleteAppRecordAdmin _ _ => true
  | _ => false

/-- A commit without a lock on the run gives no new status to an assignment that the setup editor
has dropped: one that is revoked, unlinked and above the quota. -/
def SparesDropped {H : Type} (p : Pid) (q : Stmt) (t : Sys H) : Prop :=
  ∀ ws r, q = .commit ws → Entry.enter p r ∈ t.log → r.writesUnlocked = true →
    ∀ v s, .assignment v ∈ ws → v.newStatus = some s → s ≠ .revoked →
      ∀ a run, t.store.db.labAssignments.get? v.target = some a →
        t.store.db.labRuns.get? a.labRunId = some run → a.status = .revoked →
        a.studentVmId = none → a.slotIndex ≤ run.maxVmsPerStudent

section Commits

variable {s : Store} {ws : List Write} {db : { db : Db // db.Constraints }}

/-- The write leaves a dropped assignment dropped. -/
def AssignmentWrite.LeavesDropped (w : AssignmentWrite) : Prop :=
  ∀ a : LabAssignment, ¬ a.TakesSlot → ¬ (w.onRow a).TakesSlot

/-- An assignment takes no slot when it is revoked and has no VM. -/
theorem LabAssignment.not_takesSlot {a : LabAssignment} :
    ¬ a.TakesSlot ↔ a.status = .revoked ∧ a.studentVmId = none := by
  unfold LabAssignment.TakesSlot
  simp

/-- A write that sets at most the status of revoked leaves dropped assignments dropped. -/
theorem AssignmentWrite.leavesDropped_of_status {w : AssignmentWrite}
    (hw : (∃ a s, w = .status a s) ∨ ∃ a s, w = .unlink a s)
    (hs : ∀ s, w.newStatus = some s → s = .revoked) : w.LeavesDropped := by
  intro a ha
  rw [LabAssignment.not_takesSlot] at ha ⊢
  rcases hw with ⟨i, s, rfl⟩ | ⟨i, s, rfl⟩
  · exact ⟨hs s rfl, ha.2⟩
  · cases s with
    | none => exact ⟨ha.1, rfl⟩
    | some s => exact ⟨hs s rfl, rfl⟩

/-- A row of a run is there after a commit that edits no run with the quota it had. -/
theorem quota_afterCommit (hcommit : s.afterCommit ws = some db)
    (hruns : ∀ v, .run v ∈ ws →
      (∃ row, v = .insert row) ∨
        ∃ i state activatedAt endedAt, v = .transition i state activatedAt endedAt)
    {i : ℕ} {run run' : LabRun} (hrun : s.db.labRuns.get? i = some run)
    (hrun' : db.1.labRuns.get? i = some run') : run'.maxVmsPerStudent = run.maxVmsPerStudent := by
  refine Store.run_afterCommit (P := fun r => r.maxVmsPerStudent = run.maxVmsPerStudent) hcommit
    ?_ ?_ ?_ run' hrun'
  · intro r hr
    rw [hrun] at hr
    cases hr
    rfl
  · intro r hnone
    rw [hrun] at hnone
    cases hnone
  · intro v hv _ r _ hr
    rcases hruns v hv with ⟨row, rfl⟩ | ⟨i, state, activatedAt, endedAt, rfl⟩
    · exact hr
    · exact hr

/-- A commit that edits no run, inserts within the quota and leaves what is above it. -/
theorem Db.InQuota.commit (h : s.db.InQuota) (hcommit : s.afterCommit ws = some db)
    (hruns : ∀ v, .run v ∈ ws →
      (∃ row, v = .insert row) ∨
        ∃ i state activatedAt endedAt, v = .transition i state activatedAt endedAt)
    (hinsert : ∀ row, .assignment (.insert row) ∈ ws → ∃ run,
      s.db.labRuns.get? row.labRunId = some run ∧ row.slotIndex ≤ run.maxVmsPerStudent)
    (habove : ∀ v, .assignment v ∈ ws → ∀ a run, s.db.labAssignments.get? v.target = some a →
      s.db.labRuns.get? a.labRunId = some run → run.maxVmsPerStudent < a.slotIndex →
      ¬ a.TakesSlot → v.LeavesDropped) :
    db.1.InQuota := by
  intro a' ha' htakes run' hrun'
  rcases assignment_before hcommit ha' with ⟨a, ha, hsame⟩ | ⟨a, ha, hsame⟩
  · obtain ⟨run, hrun⟩ := Option.isSome_iff_exists.mp
      (s.valid.assignments_run a (Table.mem_of_get? ha) _ rfl)
    rw [hsame.labRunId] at hrun'
    rw [quota_afterCommit hcommit hruns hrun hrun', hsame.slotIndex]
    by_contra hslot
    have hdropped : ¬ a.TakesSlot := fun hno =>
      hslot (h a (Table.mem_of_get? ha) hno run hrun)
    refine Store.assignment_afterCommit (i := a'.id) (P := fun r => ¬ r.TakesSlot) hcommit
      ?_ ?_ ?_ a' (Table.get?_of_mem ha') htakes
    · intro r hr
      rw [ha] at hr
      cases hr
      exact hdropped
    · intro r hnone
      rw [ha] at hnone
      cases hnone
    · intro v hv htarget r _ hr
      refine habove v hv a run ?_ hrun (Nat.lt_of_not_le hslot) hdropped r hr
      rw [htarget]
      exact ha
  · obtain ⟨run, hrun, hslot⟩ := hinsert a ha
    rw [hsame.labRunId] at hrun'
    rw [quota_afterCommit hcommit hruns hrun hrun', hsame.slotIndex]
    exact hslot

/-- The quota of a run that a setup saves is the number of slots that was requested. -/
theorem SetupCommit.quota {body : LabSetupBody} {i : ℕ} {lab : Lab} {students : List ℕ}
    (h : SetupCommit body i lab students s.db ws) (hcommit : s.afterCommit ws = some db)
    {run : LabRun} (hrun : db.1.labRuns.get? i = some run) :
    run.maxVmsPerStudent = body.slots := by
  have hupd : ∀ w, .run w ∈ ws → ∀ r : LabRun, r.maxVmsPerStudent = body.slots →
      (w.onRow r).maxVmsPerStudent = body.slots := by
    intro w hw r hr
    rcases h.runs w hw with ⟨row, rfl, -, -⟩ | ⟨name, activatedAt, rfl⟩
    · exact hr
    · rfl
  cases hbefore : s.db.labRuns.get? i with
  | some row =>
    obtain ⟨name, activatedAt, hedit⟩ := h.edit
    refine Store.run_of_mem (i := i) (P := fun r => r.maxVmsPerStudent = body.slots) hcommit ?_
      hedit
      (by simp) rfl (fun _ => rfl) (fun w hw _ => hupd w hw) run hrun
    rw [hbefore]
    rfl
  | none =>
    refine Store.run_afterCommit (P := fun r => r.maxVmsPerStudent = body.slots) hcommit
      ?_ ?_ (fun w hw _ r _ => hupd w hw r) run hrun
    · intro r hr
      rw [hbefore] at hr
      cases hr
    · intro r _ hinsert _
      rcases h.runs _ hinsert with ⟨row, heq, -, hslots⟩ | ⟨name, activatedAt, heq⟩
      · cases heq
        exact hslots
      · cases heq

/-- A write of a setup on a row of the roster that was there is one on that row. -/
theorem RosterWrite.of_target {body : LabSetupBody} {i : ℕ} {students : List ℕ}
    {v : AssignmentWrite} (h : RosterWrite i students body s.db v)
    (hcommit : s.afterCommit ws = some db) (hv : .assignment v ∈ ws) {a : LabAssignment}
    (ha : s.db.labAssignments.get? v.target = some a) :
    a.labRunId = i ∧
      ((a.userId ∈ students ∧ a.slotIndex ≤ body.slots) ∨ v = .status a.id .revoked) := by
  cases h with
  | insert row _ _ _ _ _ _ _ =>
    have hfresh := Store.assignment_fresh hcommit hv
    have ha : s.db.labAssignments.get? row.id = some a := ha
    rw [hfresh] at ha
    cases ha
  | reassign b templateId hb hrun huser hslot _ =>
    have ha : s.db.labAssignments.get? b.id = some a := ha
    rw [Table.get?_of_mem hb] at ha
    cases ha
    exact ⟨hrun, Or.inl ⟨huser, hslot⟩⟩
  | drop b hb hrun _ _ _ =>
    have ha : s.db.labAssignments.get? b.id = some a := ha
    rw [Table.get?_of_mem hb] at ha
    cases ha
    exact ⟨hrun, Or.inr rfl⟩
  | keep b templateId hb hrun huser hslot _ _ =>
    have ha : s.db.labAssignments.get? b.id = some a := ha
    rw [Table.get?_of_mem hb] at ha
    cases ha
    exact ⟨hrun, Or.inl ⟨huser, hslot⟩⟩

/-- After a setup the assignments that it drops take no slot. -/
theorem SetupCommit.drops {body : LabSetupBody} {i : ℕ} {lab : Lab} {students : List ℕ}
    (h : SetupCommit body i lab students s.db ws) (hcommit : s.afterCommit ws = some db)
    {a a' : LabAssignment} (ha : s.db.labAssignments.get? a'.id = some a) (hrun : a.labRunId = i)
    (hout : ¬ (a.userId ∈ students ∧ a.slotIndex ≤ body.slots))
    (ha' : db.1.labAssignments.get? a'.id = some a') : ¬ a'.TakesSlot := by
  have hid : a.id = a'.id := Table.get?_key ha
  obtain ⟨hlink, hdrop⟩ := h.dropped a (Table.mem_of_get? ha) hrun hout
  have hwrite : ∀ w, .assignment w ∈ ws → w.target = a'.id → w = .status a.id .revoked := by
    intro w hw htarget
    rw [← htarget] at ha
    rcases ((h.assignments w hw).of_target hcommit hw ha).2 with hin | heq
    · exact absurd hin hout
    · exact heq
  rw [LabAssignment.not_takesSlot]
  constructor
  · by_cases hstatus : a.status = .revoked
    · refine Store.assignment_afterCommit (P := fun r => r.status = .revoked) hcommit ?_ ?_ ?_
        a' ha'
      · intro r hr
        rw [ha] at hr
        cases hr
        exact hstatus
      · intro r hnone
        rw [ha] at hnone
        cases hnone
      · intro w hw htarget r _ _
        rw [hwrite w hw htarget]
        rfl
    · refine Store.assignment_of_mem (P := fun r => r.status = .revoked) hcommit ?_
        (hdrop hstatus) (by simp) hid (fun _ => rfl) ?_ a' ha'
      · rw [ha]
        rfl
      · intro w hw htarget r _
        rw [hwrite w hw htarget]
        rfl
  · refine Store.assignment_afterCommit (P := fun r => r.studentVmId = none) hcommit ?_ ?_ ?_
      a' ha'
    · intro r hr
      rw [ha] at hr
      cases hr
      exact hlink
    · intro r hnone
      rw [ha] at hnone
      cases hnone
    · intro w hw htarget r _ hr
      rw [hwrite w hw htarget]
      exact hr

/-- A setup leaves the slots that are taken within the quota that it sets. -/
theorem SetupCommit.inQuota {body : LabSetupBody} {i : ℕ} {lab : Lab} {students : List ℕ}
    (h : SetupCommit body i lab students s.db ws) (hin : s.db.InQuota)
    (hcommit : s.afterCommit ws = some db) : db.1.InQuota := by
  intro a' ha' htakes run' hrun'
  rcases assignment_before hcommit ha' with ⟨a, ha, hsame⟩ | ⟨a, ha, hsame⟩
  · by_cases hrun : a.labRunId = i
    · rw [hsame.labRunId, hrun] at hrun'
      rw [h.quota hcommit hrun', hsame.slotIndex]
      by_contra hslot
      refine h.drops hcommit ha hrun ?_ (Table.get?_of_mem ha') htakes
      exact fun hboth => hslot hboth.2
    · have huntouched : db.1.labAssignments.get? a'.id = s.db.labAssignments.get? a'.id := by
        refine Store.assignment_untouched hcommit ?_
        intro w hw htarget
        rw [← htarget] at ha
        exact hrun ((h.assignments w hw).of_target hcommit hw ha).1
      rw [Table.get?_of_mem ha', ha] at huntouched
      cases huntouched
      have hsameRun : db.1.labRuns.get? a'.labRunId = s.db.labRuns.get? a'.labRunId := by
        refine Store.run_untouched hcommit ?_
        intro w hw htarget
        refine hrun (htarget.symm.trans ?_)
        rcases h.runs w hw with ⟨row, rfl, hid, -⟩ | ⟨name, activatedAt, rfl⟩
        · exact hid
        · rfl
      rw [hsameRun] at hrun'
      exact hin a' (Table.mem_of_get? ha) htakes run' hrun'
  · cases h.assignments _ ha with
    | insert row hrun _ _ hslot _ _ _ =>
      rw [hsame.labRunId, hrun] at hrun'
      rw [h.quota hcommit hrun', hsame.slotIndex]
      exact hslot

end Commits

/-! ## The requests -/

section Requests

variable {H : Type} {settings : Settings} {outside : Outside H} {ok : Condition H} {p : Pid}
  {ws : List Write} {t : Sys H} {db : { db : Db // db.Constraints }}

/-- A status that spares what was dropped leaves it dropped. -/
theorem AssignmentWrite.leavesDropped_of_spared {s : Store} {v : AssignmentWrite}
    {a : LabAssignment} {run : LabRun}
    (hspares : ∀ s', v.newStatus = some s' → s' ≠ .revoked → ∀ a run,
      s.db.labAssignments.get? v.target = some a → s.db.labRuns.get? a.labRunId = some run →
      a.status = .revoked → a.studentVmId = none → a.slotIndex ≤ run.maxVmsPerStudent)
    (hv : (∃ a s, v = .status a s) ∨ ∃ a s, v = .unlink a s)
    (ha : s.db.labAssignments.get? v.target = some a)
    (hrun : s.db.labRuns.get? a.labRunId = some run) (hslot : run.maxVmsPerStudent < a.slotIndex)
    (hdropped : ¬ a.TakesSlot) : v.LeavesDropped := by
  refine AssignmentWrite.leavesDropped_of_status hv ?_
  intro s' hs'
  by_contra hne
  rw [LabAssignment.not_takesSlot] at hdropped
  have hle := hspares s' hs' hne a run ha hrun hdropped.1 hdropped.2
  omega

/-- A commit that fills slots of a locked run leaves the slots that are taken within quotas. -/
theorem AssignsLocked.inQuota {runId : ℕ} {run : LabRun} (h : AssignsLocked p runId ws t run)
    (hin : t.store.db.InQuota) (hcommit : t.store.afterCommit ws = some db) : db.1.InQuota := by
  have hrow := h.locked.row
  rw [h.id] at hrow
  refine hin.commit hcommit ?_ ?_ ?_
  · intro v hv
    cases h.fills _ hv
  · intro row hinsert
    cases h.fills _ hinsert with
    | insert row hrun hwithin _ _ _ =>
      rw [hrun]
      exact ⟨run, hrow, hwithin.2⟩
  · intro v hv a run' ha hrun' hslot _
    cases h.fills _ hv with
    | insert row _ _ _ _ _ =>
      have hfresh := Store.assignment_fresh hcommit hv
      have ha : t.store.db.labAssignments.get? row.id = some a := ha
      rw [hfresh] at ha
      cases ha
    | reassign b templateId hb hrun hwithin =>
      have ha : t.store.db.labAssignments.get? b.id = some a := ha
      rw [Table.get?_of_mem hb] at ha
      cases ha
      rw [hrun, hrow] at hrun'
      cases hrun'
      have hle := hwithin.2
      omega

/-- A transition drops no more than the assignments it found in use. -/
theorem Transits.inQuota {runId : ℕ} {action : RunAction} {run : LabRun} {nextState : RunState}
    {flushed : List Write} (h : Transits p runId action ws t run nextState flushed)
    (hin : Throughout Db.InQuota t) (hcommit : t.store.afterCommit ws = some db) :
    db.1.InQuota := by
  obtain ⟨activatedAt, endedAt, hws⟩ := h.writes
  have hmem : ∀ v, .assignment v ∈ ws → ∃ s b, (∃ q, Entry.stmt p q s ∈ t.log) ∧
      s.Kept p t.store ∧ LockedRun p run s ∧ b ∈ liveAssignments s.db runId ∧
      v = .status b.id (closedStatus nextState) := by
    intro v hv
    rw [hws] at hv
    rcases List.mem_append.mp hv with hv | hv
    · cases hclosed : nextState.closed with
      | false =>
        rw [h.stays hclosed] at hv
        cases hv
      | true =>
        obtain ⟨s, hread, hlocked, hkept, hcloses⟩ := h.closes hclosed
        rcases hcloses.only _ hv with ⟨b, hb, heq⟩ | ⟨o, u, heq, -⟩
        · cases heq
          exact ⟨s, b, closeRead_mem hread, hkept, hlocked, hb, rfl⟩
        · cases heq
    · cases List.mem_singleton.mp hv
  refine hin.now.commit hcommit ?_ ?_ ?_
  · intro v hv
    rw [hws] at hv
    rcases List.mem_append.mp hv with hv | hv
    · cases hclosed : nextState.closed with
      | false =>
        rw [h.stays hclosed] at hv
        cases hv
      | true =>
        obtain ⟨s, -, -, -, hcloses⟩ := h.closes hclosed
        rcases hcloses.only _ hv with ⟨b, -, heq⟩ | ⟨o, u, heq, -⟩
        · cases heq
        · cases heq
    · cases List.mem_singleton.mp hv
      exact Or.inr ⟨_, _, _, _, rfl⟩
  · intro row hinsert
    obtain ⟨s, b, -, -, -, -, heq⟩ := hmem _ hinsert
    cases heq
  · intro v hv a run' ha hrun' hslot _
    exfalso
    obtain ⟨s, b, ⟨q, hlog⟩, hkept, hlocked, hb, rfl⟩ := hmem v hv
    obtain ⟨hb, hcond⟩ := List.mem_filter.mp hb
    simp only [Bool.and_eq_true, decide_eq_true_eq] at hcond
    obtain ⟨b', hb', hsame⟩ := hkept.places _ _ (Table.get?_of_mem hb)
    have ha : t.store.db.labAssignments.get? b.id = some a := ha
    rw [hb'] at ha
    cases ha
    have hidRun : run.id = b.labRunId := h.id.trans hcond.1.symm
    have hrowNow := h.locked.row
    rw [hidRun, ← hsame.labRunId, hrun'] at hrowNow
    cases hrowNow
    have hrowThen := hlocked.row
    rw [hidRun] at hrowThen
    have htakes : b.TakesSlot := by
      left
      intro hrevoked
      rw [hrevoked] at hcond
      cases hcond.2
    have hle := hin.before p q s hlog b hb htakes _ hrowThen
    rw [hsame.slotIndex] at hslot
    omega

/-- `create_vm` links assignments that are assigned. -/
theorem LinksLocked.leavesDropped (h : LinksLocked p ws t) {i v : ℕ} {a : LabAssignment}
    (hv : .assignment (.link i v) ∈ ws) (ha : t.store.db.labAssignments.get? i = some a)
    (hdropped : ¬ a.TakesSlot) : (AssignmentWrite.link i v).LeavesDropped := by
  obtain ⟨row, vm, hid, hlocked, hstatus, -⟩ := h i v hv
  have hrow := hlocked.row
  rw [hid, ha] at hrow
  cases hrow
  rw [LabAssignment.not_takesSlot, hstatus] at hdropped
  cases hdropped.1

/-- A commit that spares what was dropped leaves the slots that are taken within the quotas. -/
theorem LockedStmt.inQuota (h : LockedStmt { stmt := SparesDropped } p (.commit ws) t)
    (hin : Throughout Db.InQuota t) (hcommit : t.store.afterCommit ws = some db) :
    db.1.InQuota := by
  obtain ⟨r, hr, hground⟩ := h.rests ws rfl
  obtain ⟨r', hr', hmay⟩ := h.conducted.split
  obtain rfl := h.logged.request p r' r hr' hr
  have hspares := h.ok ws r' rfl hr
  rcases hmay with ⟨hworker, hmay⟩ | ⟨hworker, hmay⟩
  · have hunlocked : r'.writesUnlocked = true := by
      cases r' <;> first | rfl | cases hworker
    refine hin.now.commit hcommit ?_ ?_ ?_
    · intro v hv
      exact (hmay _ hv).elim
    · intro row hinsert
      exact (hmay _ hinsert).elim
    · intro v hv a run ha hrun hslot hdropped
      refine AssignmentWrite.leavesDropped_of_spared
        (fun s' => hspares hunlocked v s' hv) ?_ ha hrun hslot hdropped
      have hkind := hmay _ hv
      cases v with
      | status i s => exact Or.inl ⟨i, s, rfl⟩
      | unlink i s => exact Or.inr ⟨i, s, rfl⟩
      | _ => exact hkind.elim
  · have hforms : ∀ w ∈ ws, r'.mayWrite w := fun w hw => (hmay w hw).1
    cases r' with
    | operationWorker worker => cases hworker
    | createRunAssignment caller runId payload =>
      obtain ⟨run, hassigns⟩ := hground
      exact hassigns.inQuota hin.now hcommit
    | bulkCreateRunAssignments caller runId slots =>
      obtain ⟨run, hassigns⟩ := hground
      exact hassigns.inQuota hin.now hcommit
    | changeLabRunState caller runId action confirmation =>
      obtain ⟨run, nextState, flushed, htransits⟩ := hground
      exact htransits.inQuota hin hcommit
    | createSetup caller payload =>
      obtain ⟨run, lab, students, hsetup, -⟩ := hground
      exact (hsetup.saves db hcommit).inQuota hin.now hcommit
    | editSetup caller runId payload =>
      obtain ⟨lab, students, row, s, hsetup, -⟩ := hground
      exact (hsetup.saves db hcommit).inQuota hin.now hcommit
    | createVm caller payload =>
      refine hin.now.commit hcommit ?_ ?_ ?_
      · exact fun v hv => (hforms _ hv).elim
      · exact fun row hinsert => (hforms _ hinsert).elim
      · intro v hv a run ha _ _ hdropped
        have hform := hforms _ hv
        cases v with
        | link i v => exact LinksLocked.leavesDropped hground hv ha hdropped
        | _ => exact hform.elim
    | cleanupWorker =>
      refine hin.now.commit hcommit ?_ ?_ ?_
      · exact fun v hv => (hforms _ hv).elim
      · exact fun row hinsert => (hforms _ hinsert).elim
      · intro v hv a run ha hrun hslot hdropped
        have hform := hforms _ hv
        cases v with
        | status i s =>
          exact AssignmentWrite.leavesDropped_of_spared (fun s' => hspares rfl _ s' hv)
            (Or.inl ⟨i, s, rfl⟩) ha hrun hslot hdropped
        | _ => exact hform.elim
    | deleteAppRecordAdmin caller vm =>
      refine hin.now.commit hcommit ?_ ?_ ?_
      · exact fun v hv => (hforms _ hv).elim
      · exact fun row hinsert => (hforms _ hinsert).elim
      · intro v hv a run ha hrun hslot hdropped
        have hform := hforms _ hv
        cases v with
        | unlink i s =>
          exact AssignmentWrite.leavesDropped_of_spared (fun s' => hspares rfl _ s' hv)
            (Or.inr ⟨i, s, rfl⟩) ha hrun hslot hdropped
        | _ => exact hform.elim
    | revokeRunAssignment caller runId i =>
      refine hin.now.commit hcommit ?_ ?_ ?_
      · intro v hv
        cases hforms _ hv
      · intro row hinsert
        cases hforms _ hinsert
      · intro v hv a run _ _ _ _
        cases hforms _ hv
        refine AssignmentWrite.leavesDropped_of_status (Or.inl ⟨_, _, rfl⟩) ?_
        intro s hs
        cases hs
        rfl
    | createLabRun caller payload =>
      have hinserts : ∀ w ∈ ws, ∃ row, w = .run (.insert row) := hforms
      refine hin.now.commit hcommit ?_ ?_ ?_
      · intro v hv
        obtain ⟨row, heq⟩ := hinserts _ hv
        cases heq
        exact Or.inl ⟨row, rfl⟩
      · intro row hinsert
        obtain ⟨_, heq⟩ := hinserts _ hinsert
        cases heq
      · intro v hv
        obtain ⟨_, heq⟩ := hinserts _ hv
        cases heq
    | bulkVmAction caller runId action =>
      refine hin.now.commit hcommit ?_ ?_ ?_
      · intro v hv
        obtain ⟨type, -, hqueues⟩ := hforms _ hv
        exact hqueues.elim
      · intro row hinsert
        obtain ⟨type, -, hqueues⟩ := hforms _ hinsert
        exact hqueues.elim
      · intro v hv
        obtain ⟨type, -, hqueues⟩ := hforms _ hv
        exact hqueues.elim
    | _ =>
      refine hin.now.commit hcommit ?_ ?_ ?_
      · exact fun v hv => (hforms _ hv).elim
      · exact fun row hinsert => (hforms _ hinsert).elim
      · exact fun v hv => (hforms _ hv).elim

end Requests

/-! ## Runs -/

section Runs

variable {H : Type} {settings : Settings} {outside : Outside H}

/-- The assignments of a student in a run that are not revoked. -/
def heldAssignments (db : Db) (run user : ℕ) : List LabAssignment :=
  db.labAssignments.filter fun a => a.labRunId = run && a.userId = user && a.status ≠ .revoked

/-- The assignments of a student in a run that are linked to a VM. -/
def linkedAssignments (db : Db) (run user : ℕ) : List LabAssignment :=
  db.labAssignments.filter fun a => a.labRunId = run && a.userId = user && a.studentVmId.isSome

/-- The quota of a run, for one student. -/
structure WithinQuota (db : Db) (run : LabRun) (user : ℕ) : Prop where
  slots : ∀ a ∈ heldAssignments db run.id user,
    1 ≤ a.slotIndex ∧ a.slotIndex ≤ run.maxVmsPerStudent
  distinct : ((heldAssignments db run.id user).map LabAssignment.slotIndex).Nodup
  held : (heldAssignments db run.id user).length ≤ run.maxVmsPerStudent
  linked : (linkedAssignments db run.id user).length ≤ run.maxVmsPerStudent

/-- Assignments of one student in one run have different slots. -/
theorem slots_nodup {db : Db} (h : db.Constraints) {run user : ℕ} {P : LabAssignment → Bool}
    (hP : ∀ a, P a = true → a.labRunId = run ∧ a.userId = user) :
    ((db.labAssignments.filter P).map LabAssignment.slotIndex).Nodup := by
  have hids : (db.labAssignments.filter P).Nodup := (db.labAssignments.nodup.of_map _).filter P
  refine hids.map_on ?_
  intro a ha b hb hslot
  obtain ⟨ha, hPa⟩ := List.mem_filter.mp ha
  obtain ⟨hb, hPb⟩ := List.mem_filter.mp hb
  refine h.assignments_slot a ha b hb (by simp) ?_
  show some (a.labRunId, a.userId, a.slotIndex) = some (b.labRunId, b.userId, b.slotIndex)
  rw [(hP a hPa).1, (hP b hPb).1, (hP a hPa).2, (hP b hPb).2, hslot]

/-- Distinct slots from one up to a bound are no more than the bound. -/
theorem length_le_of_slots {slots : List ℕ} {n : ℕ} (hnodup : slots.Nodup)
    (hbound : ∀ i ∈ slots, 1 ≤ i ∧ i ≤ n) : slots.length ≤ n := by
  have hsub : slots ⊆ List.range' 1 n := by
    intro i hi
    obtain ⟨hpos, hle⟩ := hbound i hi
    rw [List.mem_range'_1]
    omega
  have hlength := (List.subperm_of_subset hnodup hsub).length_le
  rwa [List.length_range'] at hlength

/-- Slots that are taken within the quota keep every student within it. -/
theorem Db.InQuota.within {db : Db} (h : db.InQuota) (hvalid : db.Constraints) {run : LabRun}
    (hrun : run ∈ db.labRuns.rows) (user : ℕ) : WithinQuota db run user := by
  have hrow := Table.get?_of_mem hrun
  have hslot : ∀ a ∈ db.labAssignments.rows, a.labRunId = run.id → a.TakesSlot →
      1 ≤ a.slotIndex ∧ a.slotIndex ≤ run.maxVmsPerStudent := by
    intro a ha hid htakes
    refine ⟨hvalid.assignments_slot_positive a ha, h a ha htakes run ?_⟩
    rw [hid]
    exact hrow
  have hheld : ∀ a ∈ heldAssignments db run.id user,
      1 ≤ a.slotIndex ∧ a.slotIndex ≤ run.maxVmsPerStudent := by
    intro a ha
    obtain ⟨ha, hcond⟩ := List.mem_filter.mp ha
    simp only [Bool.and_eq_true, decide_eq_true_eq] at hcond
    exact hslot a ha hcond.1.1 (Or.inl hcond.2)
  have hlinked : ∀ a ∈ linkedAssignments db run.id user,
      1 ≤ a.slotIndex ∧ a.slotIndex ≤ run.maxVmsPerStudent := by
    intro a ha
    obtain ⟨ha, hcond⟩ := List.mem_filter.mp ha
    simp only [Bool.and_eq_true, decide_eq_true_eq] at hcond
    exact hslot a ha hcond.1.1 (Or.inr (Option.isSome_iff_ne_none.mp hcond.2))
  have hdistinct : ((heldAssignments db run.id user).map LabAssignment.slotIndex).Nodup :=
    slots_nodup hvalid fun a ha => by
      simp only [Bool.and_eq_true, decide_eq_true_eq] at ha
      exact ha.1
  have hdistinctLinked :
      ((linkedAssignments db run.id user).map LabAssignment.slotIndex).Nodup :=
    slots_nodup hvalid fun a ha => by
      simp only [Bool.and_eq_true, decide_eq_true_eq] at ha
      exact ha.1
  refine ⟨hheld, hdistinct, ?_, ?_⟩
  · have hlength := length_le_of_slots hdistinct (n := run.maxVmsPerStudent) (by simpa using hheld)
    rwa [List.length_map] at hlength
  · have hlength := length_le_of_slots hdistinctLinked (n := run.maxVmsPerStudent)
      (by simpa using hlinked)
    rwa [List.length_map] at hlength

/-- In every state of every run every student is within the quota of every lab run. -/
def QuotaRuns (sys : System Api (Sys H) Request) (t : Sys H) : Prop :=
  ∀ w, World.Reach sys (World.idle t) w → ∀ run ∈ w.shared.store.db.labRuns.rows, ∀ user,
    WithinQuota w.shared.store.db run user

/-- The quota is an invariant of the runs in which no commit without a lock on the run gives a
status to an assignment that was dropped from it. -/
theorem quota_invariant (settings : Settings) (outside : Outside H) (t : Sys H) (ht : t.Initial)
    (hin : t.store.db.InQuota) :
    QuotaRuns (systemUnder settings outside { stmt := SparesDropped }) t := by
  intro w hr run hrun user
  have hpreserved : (lockedSystem settings outside { stmt := SparesDropped }).Preserves
      (Throughout Db.InQuota) := by
    refine throughout_preserved ?_ fun p ws t db hin h hcommit => h.inQuota hin hcommit
    intro db db' h hsame a ha htakes run hrun
    rw [hsame.labAssignments] at ha
    refine h a ha htakes run ?_
    unfold Table.get? at hrun ⊢
    rwa [hsame.labRuns] at hrun
  have hstart : Throughout Db.InQuota (World.idle (G := Api) t).shared :=
    throughout_initial ht hin
  have h := hpreserved.of_reach hstart (reach_locked ht hr)
  exact h.now.within w.shared.store.valid hrun user

end Runs

namespace Fixture

/-- The quota is two, and the student's overdue assignment for the second slot is linked. -/
def overdueStore : Store where
  db :=
    { linkedDb { readyAssignment with slotIndex := 2, expiresAt := some 50 } (by decide) with
      labRuns := ⟨[⟨1, 1, 1, "r", .active, none, none, 2, 3, none, none⟩], 2,
        by decide, by decide⟩ }
  valid := by decide
  clock := 100
  locks := []
  nonce := 0

/-- From the store of the fixture the quota holds, where dropped assignments are spared. -/
theorem quota_invariant_overdueStore :
    QuotaRuns (systemUnder {} anything { stmt := SparesDropped }) (start overdueStore) := by
  refine quota_invariant {} anything (start overdueStore) ⟨rfl, rfl⟩ ?_
  intro a ha _ run hrun
  cases List.mem_singleton.mp ha
  cases hrun
  decide

/-- The edit that lowers the quota to one, made after the second slot was unlinked. -/
def oneSlot : LabSetupWrite where
  requestId := 1
  body := {
    expectedEtag := some ⟨1, 1, "r", "", 1, "c", "", 1, "p", [2], none, none, 2, .active, 1,
      ⟨true, true, true, true, true⟩, [(1, none, .assigned, some 50)]⟩
    name := "r"
    description := ""
    classId := some 1
    className := ""
    term := ""
    poolId := some 1
    templateId := none
    studentIds := [2]
    newStudents := []
    startsAt := none
    endsAt := none
    slots := 1
    flags := ⟨true, true, true, true, true⟩
    state := .active
    reviewed := true }
  passwords := []

/-- The worker lock is granted. -/
def unlocked : (c : Call) → Except Exc c.Reply
  | .acquireWorkerLock _ => .ok true
  | _ => .error (.transport "")

/-- Proxmox does not know the VM any more. -/
def gone : (c : Call) → Except Exc c.Reply
  | .client _ => .ok ()
  | .vmResources _ => .ok (.object [("data", .list [])])
  | .getVmStatus _ _ _ => .error (.httpStatus 404 "")
  | _ => .error (.transport "")

/-- The cleanup worker reads the linked assignment, its record is deleted, an edit drops the slot,
and then the cleanup worker commits. -/
def cleanupAfterEdit : List (Move Api Request) :=
  [.spawn .cleanupWorker, .run 0 4 unlocked,
    .spawn (.deleteAppRecordAdmin ⟨1, some 1⟩ 1), .run 1 7 gone, .exit 1,
    .spawn (.editSetup ⟨3, some 1⟩ 1 oneSlot), .run 2 18 absent, .exit 2,
    .run 0 1 unlocked]

/-- The slots that the student holds, and the quotas of the runs. -/
def slotsAndQuotas (w : World Api (Sys Unit)) : List ℕ × List ℕ :=
  ((heldAssignments w.shared.store.db 1 2).map LabAssignment.slotIndex,
    w.shared.store.db.labRuns.rows.map LabRun.maxVmsPerStudent)

set_option maxRecDepth 100000 in
/-- The student then holds two slots of a run with a quota of one. -/
theorem quota_exceeded : ¬ QuotaRuns (system {} anything) (start overdueStore) := by
  intro h
  have hplay : (player.play (World.idle (start overdueStore)) cleanupAfterEdit).any (fun w =>
      decide (slotsAndQuotas w = ([2, 1], [1])) &&
        w.shared.store.db.labRuns.rows.all fun run => run.id = 1) = true := by
    decide +kernel
  obtain ⟨w, hr, hw⟩ := player.exists_of_play hplay
  rw [Bool.and_eq_true, decide_eq_true_eq] at hw
  obtain ⟨hslots, hquotas⟩ := Prod.mk.inj hw.1
  obtain ⟨run, rest, hruns, hquota, -⟩ := List.map_eq_cons_iff.mp hquotas
  have hmem : run ∈ w.shared.store.db.labRuns.rows := by
    rw [hruns]
    exact List.mem_cons_self
  have hid : run.id = 1 := of_decide_eq_true (List.all_eq_true.mp hw.2 run hmem)
  have hheld := (h w hr run hmem 2).held
  rw [hid, ← List.length_map (f := LabAssignment.slotIndex), hslots, hquota] at hheld
  exact absurd hheld (by decide)

end Fixture

end LabGoblin
