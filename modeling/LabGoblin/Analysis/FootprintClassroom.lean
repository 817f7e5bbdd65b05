import LabGoblin.Analysis.FootprintVirtualMachines

/-!
# The footprint of the classroom endpoints and of the cleanup worker
-/

set_option autoImplicit false

namespace LabGoblin

open Interactive

section Classroom

variable {W : Write → Prop} {K : Call → Prop}

/-- The creation of a run inserts a run and nothing else. -/
theorem keeps_createLabRun (caller : Caller) (payload : LabRunCreate) :
    Keeps (fun w => ∃ row, w = .run (.insert row)) K (fun _ => True)
      (createLabRun caller payload) := by
  unfold createLabRun
  rw [keeps_bind]
  refine Keeps.mono (keeps_currentInstructor caller) ?_
  rintro ⟨user, organization⟩ _
  simp only [keeps_bind, keeps_select, keeps_check, keeps_raiseIf, keeps_draw, keeps_commit,
    keeps_pure]
  intro s lab _ _ _ _ s'
  refine ⟨?_, fun _ => trivial⟩
  intro w hw
  exact ⟨_, List.mem_singleton.mp hw⟩

/-- A queued deletion is a write of the closing request. -/
theorem keeps_closeAssignment (user : User) (organization : OrganizationContext) (runId : ℕ)
    (nextState : RunState) (flushed : List Write) (hflushed : ∀ w ∈ flushed, w.closes)
    (assignment : LabAssignment) :
    Keeps W K (fun ws => ∀ w ∈ ws, w.closes)
      (closeAssignment user organization runId nextState flushed assignment) := by
  have hstatus : ∀ w ∈ flushed ++
      [Write.assignment (.status assignment.id (closedStatus nextState))], w.closes := by
    intro w hw
    rcases List.mem_append.mp hw with hw | hw
    · exact hflushed w hw
    · rw [List.mem_singleton.mp hw]
      exact ite_eq_or_eq _ _ _
  unfold closeAssignment
  cases assignment.studentVmId with
  | none => exact hstatus
  | some vmId =>
    simp only [keeps_bind]
    refine keeps_enqueueOperation _ _ _ ?_ ?_
    · intro o
      simpa using hstatus
    · intro row hrow
      have hq : Queued row := hrow.queued rfl (by
        intro id key now hkey
        cases hkey
        exact ⟨rfl, rfl⟩)
      obtain ⟨id, key, now, rfl, -⟩ := hrow
      intro w hw
      rcases List.mem_append.mp hw with hw | hw
      · exact hstatus w hw
      · rw [List.mem_singleton.mp hw]
        exact ⟨hq, rfl⟩

/-- The loop over the live assignments, by induction on them. -/
theorem keeps_closeAssignments (user : User) (organization : OrganizationContext) (runId : ℕ)
    (nextState : RunState) (assignments : List LabAssignment) :
    ∀ flushed : List Write, (∀ w ∈ flushed, w.closes) →
    Keeps W K (fun ws => ∀ w ∈ ws, w.closes)
      (closeAssignments user organization runId nextState flushed assignments) := by
  induction assignments with
  | nil => exact fun flushed h => h
  | cons assignment assignments ih =>
    intro flushed h
    unfold closeAssignments
    rw [keeps_bind]
    exact Keeps.mono (keeps_closeAssignment user organization runId nextState flushed h assignment)
      ih

/-- A change of a run's state makes the writes that close a run or move it on. -/
theorem keeps_changeLabRunState (caller : Caller) (run : ℕ) (action : RunAction)
    (confirmation : Option Confirmation) :
    Keeps Write.closes K (fun _ => True) (changeLabRunState caller run action confirmation) := by
  unfold changeLabRunState
  rw [keeps_bind]
  refine Keeps.mono (keeps_currentInstructor caller) ?_
  rintro ⟨user, organization⟩ _
  rw [keeps_bind]
  refine Keeps.mono (keeps_runForUser _ _ _ _) ?_
  rintro ⟨row, lab⟩ _
  rw [keeps_bind, keeps_utcnow]
  intro s
  rw [keeps_bind, keeps_check]
  intro nextState _
  have hclose : Keeps Write.closes K (fun ws => ∀ w ∈ ws, w.closes)
      (closeRun user organization row.id nextState) := by
    unfold closeRun
    split
    · rw [keeps_bind, keeps_select]
      intro s'
      exact keeps_closeAssignments _ _ _ _ _ [] (by simp)
    · intro w hw
      cases hw
  rw [keeps_bind]
  refine Keeps.mono hclose ?_
  intro writes hwrites
  rw [keeps_bind, keeps_commit]
  refine ⟨?_, fun _ => trivial⟩
  intro w hw
  rcases List.mem_append.mp hw with hw | hw
  · exact hwrites w hw
  · rw [List.mem_singleton.mp hw]
    trivial

/-! ### Assignments -/

/-- `_create_assignment` writes only what assigns a slot. -/
theorem keeps_createAssignment (run : LabRun) (lab : Lab) (payload : LabAssignmentCreate)
    (flushed : List Write) :
    Keeps W K (fun r => ∀ w ∈ r.2.2, w.assigns) (createAssignment run lab payload flushed) := by
  unfold createAssignment
  rw [keeps_bind, keeps_select]
  intro s
  rw [keeps_bind, keeps_check]
  rintro ⟨template, slot⟩ _
  rw [keeps_bind, keeps_select]
  intro s'
  cases assignmentInSlot (s'.withFlushed flushed) run.id payload.userId slot with
  | some existing =>
    simp only
    split
    · intro w hw
      rw [List.mem_singleton.mp hw]
      trivial
    · intro w hw
      cases hw
  | none =>
    simp only [keeps_bind, keeps_draw, keeps_pure]
    intro s'' w hw
    rw [List.mem_singleton.mp hw]
    exact ⟨rfl, rfl⟩

/-- The loop over the requested slots, by induction on them. -/
theorem keeps_createAssignments (run : LabRun) (lab : Lab) {P : Write → Prop}
    (hP : ∀ w : Write, w.assigns → P w) (payloads : List LabAssignmentCreate) :
    ∀ done : ℕ × List Write, (∀ w ∈ done.2, P w) →
    Keeps W K (fun r => ∀ w ∈ r.2, P w) (createAssignments run lab done payloads) := by
  induction payloads with
  | nil => exact fun done h => h
  | cons payload payloads ih =>
    rintro ⟨created, flushed⟩ h
    unfold createAssignments
    rw [keeps_bind]
    refine Keeps.mono (keeps_createAssignment run lab payload flushed) ?_
    rintro ⟨id, wasCreated, writes⟩ hw
    refine ih _ ?_
    intro w hmem
    rcases List.mem_append.mp hmem with hmem | hmem
    · exact h w hmem
    · exact hP w (hw w hmem)

/-- Opening a run commits nothing. -/
theorem keeps_openRunForUser (runId : ℕ) (organization : OrganizationContext) (user : User) :
    Keeps W K (fun _ => True) (openRunForUser runId organization user) := by
  unfold openRunForUser
  rw [keeps_bind]
  refine Keeps.mono (keeps_runForUser _ _ _ _) ?_
  rintro ⟨run, lab⟩ _
  simp

/-- The creation of an assignment makes the writes that assign a slot. -/
theorem keeps_createRunAssignment (caller : Caller) (run : ℕ) (payload : LabAssignmentCreate) :
    Keeps Write.assigns K (fun _ => True) (createRunAssignment caller run payload) := by
  unfold createRunAssignment
  rw [keeps_bind]
  refine Keeps.mono (keeps_currentInstructor caller) ?_
  rintro ⟨user, organization⟩ _
  rw [keeps_bind]
  refine Keeps.mono (keeps_openRunForUser _ _ _) ?_
  rintro ⟨row, lab⟩ _
  rw [keeps_bind]
  refine Keeps.mono (keeps_createAssignment row lab payload []) ?_
  rintro ⟨id, created, writes⟩ hw
  rw [keeps_bind, keeps_commit]
  exact ⟨hw, fun _ => trivial⟩

/-- The creation of the assignments of a run makes the writes that assign slots. -/
theorem keeps_bulkCreateRunAssignments (caller : Caller) (run slots : ℕ) :
    Keeps Write.assigns K (fun _ => True) (bulkCreateRunAssignments caller run slots) := by
  unfold bulkCreateRunAssignments
  rw [keeps_bind]
  refine Keeps.mono (keeps_currentInstructor caller) ?_
  rintro ⟨user, organization⟩ _
  rw [keeps_bind]
  refine Keeps.mono (keeps_openRunForUser _ _ _) ?_
  rintro ⟨row, lab⟩ _
  rw [keeps_bind, keeps_raiseIf]
  intro _
  rw [keeps_bind, keeps_select]
  intro s
  rw [keeps_bind]
  refine Keeps.mono (keeps_createAssignments row lab (fun _ h => h) _ (0, []) (by simp)) ?_
  rintro ⟨created, writes⟩ hw
  rw [keeps_bind, keeps_commit]
  exact ⟨hw, fun _ => trivial⟩

/-- A revocation writes the status of its assignment only. -/
theorem keeps_revokeRunAssignment (caller : Caller) (run assignment : ℕ) :
    Keeps (fun w => w = .assignment (.status assignment .revoked)) K (fun _ => True)
      (revokeRunAssignment caller run assignment) := by
  unfold revokeRunAssignment
  rw [keeps_bind]
  refine Keeps.mono (keeps_currentInstructor caller) ?_
  rintro ⟨user, organization⟩ _
  rw [keeps_bind]
  refine Keeps.mono (keeps_runForUser _ _ _ _) ?_
  intro _ _
  rw [keeps_bind, keeps_select]
  intro s
  rw [keeps_bind, keeps_orRaise]
  intro row hrow
  have hid : row.id = assignment := by
    have := (Table.first_some hrow).2
    simp only [Bool.and_eq_true, decide_eq_true_eq] at this
    exact this.1.1
  rw [keeps_commit]
  refine ⟨?_, fun _ => trivial⟩
  intro w hw
  split at hw
  · cases hw
  · rw [List.mem_singleton.mp hw, hid]

/-! ### Bulk actions -/

/-- The loop over the linked VMs, by induction on them. -/
theorem keeps_queueBulk (user : User) (organization : OrganizationContext) (runId : ℕ)
    (action : OperationType) (onVm : ℕ → Prop) (vmIds : List ℕ) (hon : ∀ v ∈ vmIds, onVm v) :
    ∀ flushed : List Write, (∀ w ∈ flushed, w.queues action onVm) →
    Keeps W K (fun ws => ∀ w ∈ ws, w.queues action onVm)
      (queueBulk user organization runId action flushed vmIds) := by
  induction vmIds with
  | nil => exact fun flushed h => h
  | cons vmId vmIds ih =>
    have ih := ih fun v hv => hon v (List.mem_cons_of_mem _ hv)
    intro flushed h
    unfold queueBulk
    rw [keeps_bind]
    refine Keeps.mono (keeps_loadVm vmId) ?_
    intro vm hvm
    cases vm with
    | none => exact ih flushed h
    | some vm =>
      simp only [keeps_bind]
      refine keeps_enqueueOperation _ _ _ ?_ ?_
      · intro o
        simpa using ih flushed h
      · intro row hrow
        have hq : Queued row := hrow.queued rfl (by simp)
        obtain ⟨id, key, now, rfl, -⟩ := hrow
        refine ih _ ?_
        intro w hw
        rcases List.mem_append.mp hw with hw | hw
        · exact h w hw
        · rw [List.mem_singleton.mp hw]
          refine ⟨hq, rfl, vm.id, rfl, ?_⟩
          rw [hvm vm rfl]
          exact hon vmId List.mem_cons_self

/-! ### The cleanup worker -/

/-- The loop over the expired assignments, by induction on them. -/
theorem keeps_expireAssignments (assignments : List LabAssignment) :
    ∀ done : List Write × ℕ, (∀ w ∈ done.1, w.expires) →
    Keeps W K (fun r => ∀ w ∈ r.1, w.expires) (expireAssignments done assignments) := by
  induction assignments with
  | nil => exact fun done h => h
  | cons assignment assignments ih =>
    rintro ⟨flushed, queued⟩ h
    unfold expireAssignments
    cases assignment.studentVmId with
    | none => exact ih _ h
    | some vmId =>
      have hflushed : ∀ w ∈ flushed ++ expireWrites assignment, w.expires := by
        intro w hw
        rcases List.mem_append.mp hw with hw | hw
        · exact h w hw
        · unfold expireWrites at hw
          split at hw
          · cases hw
          · rw [List.mem_singleton.mp hw]
            rfl
      simp only [keeps_bind]
      refine keeps_enqueueOperation _ _ _ ?_ ?_
      · intro o
        refine ih _ ?_
        simpa using hflushed
      · intro row hrow
        have hq : Queued row := hrow.queued rfl (by
          intro id key now hkey
          cases hkey
          exact ⟨rfl, rfl⟩)
        obtain ⟨id, key, now, rfl, -⟩ := hrow
        refine ih _ ?_
        intro w hw
        rcases List.mem_append.mp hw with hw | hw
        · exact hflushed w hw
        · rw [List.mem_singleton.mp hw]
          exact ⟨hq, rfl⟩

/-- The expiry of overdue assignments makes the writes that expire. -/
theorem keeps_expireOverdue : Keeps Write.expires K (fun _ => True) expireOverdue := by
  unfold expireOverdue
  rw [keeps_bind, keeps_select]
  intro s
  rw [keeps_bind]
  refine Keeps.mono (keeps_expireAssignments _ ([], 0) (by simp)) ?_
  rintro ⟨writes, queued⟩ hw
  rw [keeps_bind, keeps_commit]
  exact ⟨hw, fun _ => trivial⟩

/-- The cleanup worker makes the writes that expire, and calls nothing that changes a VM. -/
theorem keeps_cleanupWorker (hK : ∀ c : Call, c.mutating = false → K c) :
    Keeps Write.expires K (fun _ => True) cleanupWorker := by
  unfold cleanupWorker
  rw [keeps_bind]
  refine (keeps_await _ _).mpr ⟨hK _ rfl, fun held => ?_⟩
  split
  · rw [keeps_bind]
    refine Keeps.mono (keeps_underLock hK .cleanup keeps_expireOverdue) ?_
    intro queued _
    rw [keeps_bind]
    exact (keeps_await _ _).mpr ⟨hK _ rfl, fun _ => trivial⟩
  · exact trivial

end Classroom

end LabGoblin
