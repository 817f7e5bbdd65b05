import LabGoblin.Analysis.FootprintClassroom

/-!
# The footprint of a lab setup
-/

set_option autoImplicit false

namespace LabGoblin

open Interactive

section LabSetups

variable {K : Call → Prop}

/-- Writes that assign a slot are writes of a setup. -/
theorem Write.assigns.ofSetup {w : Write} (h : w.assigns) : w.ofSetup := by
  cases w with
  | assignment w =>
    cases w with
    | insert row => exact h
    | reassign a t e => exact h
    | _ => exact absurd h (by simp [Write.assigns])
  | _ => exact absurd h (by simp [Write.assigns])

/-- Creating the accounts of students makes writes of a setup only, by induction on the students. -/
theorem keeps_createAccounts (settings : Settings) (organization : OrganizationContext)
    (roleId : ℕ) (items : List (SetupStudentBody × Password)) :
    ∀ done : List ℕ × List Write, (∀ w ∈ done.2, w.ofSetup) →
    Keeps Write.ofSetup K (fun r => ∀ w ∈ r.2, w.ofSetup)
      (createAccounts settings organization roleId done items) := by
  induction items with
  | nil => exact fun done h => h
  | cons item items ih =>
    rintro ⟨ids, flushed⟩ h
    obtain ⟨item, password⟩ := item
    unfold createAccounts
    simp only [keeps_bind, keeps_select, keeps_check, keeps_draw]
    rintro s ⟨username, email⟩ _ s' s''
    refine ih _ ?_
    intro w hw
    simp only [List.mem_append, List.mem_cons, List.not_mem_nil, or_false] at hw
    rcases hw with hw | rfl | rfl
    · exact h w hw
    · trivial
    · trivial

/-- Making the accounts of new students makes writes of a setup only. -/
theorem keeps_newStudents (settings : Settings) (payload : LabSetupWrite) (user : User)
    (organization : OrganizationContext) (flushed : List Write)
    (h : ∀ w ∈ flushed, w.ofSetup) :
    Keeps Write.ofSetup K (fun r => ∀ w ∈ r.2, w.ofSetup)
      (newStudents settings payload user organization flushed) := by
  unfold newStudents
  simp only [keeps_bind, keeps_select, keeps_raiseIf]
  intro s _ _
  split
  · exact trivial
  · exact h
  · exact keeps_createAccounts _ _ _ _ _ h

/-- The class, the pool and the run of a setup are found, or inserted. -/
theorem keeps_setupClass (body : LabSetupBody) (user : User)
    (organization : OrganizationContext) :
    Keeps Write.ofSetup K (fun r => ∀ w ∈ r.2, w.ofSetup) (setupClass body user organization) := by
  unfold setupClass
  split
  · simp [keeps_bind, keeps_select, keeps_check]
  · simp only [keeps_bind, keeps_draw, keeps_pure]
    intro s w hw
    rw [List.mem_singleton.mp hw]
    trivial

/-- Setting up the pool makes writes of a setup only. -/
theorem keeps_setupPool (body : LabSetupBody) (organization : OrganizationContext) :
    Keeps Write.ofSetup K (fun r => ∀ w ∈ r.2, w.ofSetup) (setupPool body organization) := by
  unfold setupPool
  split
  · simp [keeps_bind, keeps_select]
  · simp only [keeps_bind, keeps_select, keeps_orRaise, keeps_raiseIf, keeps_draw, keeps_pure]
    intro s template _ _ s' w hw
    rw [List.mem_singleton.mp hw]
    trivial

/-- Setting up the class, the lab and the run makes writes of a setup only. -/
theorem keeps_setupRun (body : LabSetupBody) (user : User) (organization : OrganizationContext)
    (classId poolId : ℕ) (edited : Option (LabRun × Lab)) :
    Keeps Write.ofSetup K (fun r => ∀ w ∈ r.2.2, w.ofSetup)
      (setupRun body user organization classId poolId edited) := by
  unfold setupRun
  split
  · intro w hw
    cases hw
  · simp only [keeps_bind, keeps_draw, keeps_pure]
    intro s s' w hw
    simp only [List.mem_cons, List.not_mem_nil, or_false] at hw
    rcases hw with rfl | rfl <;> trivial

/-- Locking the run that is edited commits nothing. -/
theorem keeps_lockEdited (body : LabSetupBody) (user : User) (organization : OrganizationContext)
    (runId : Option ℕ) :
    Keeps Write.ofSetup K (fun _ => True) (lockEdited body user organization runId) := by
  unfold lockEdited
  split
  · exact trivial
  · rw [keeps_bind]
    refine Keeps.mono (keeps_runForUser _ _ _ _) ?_
    rintro ⟨run, lab⟩ _
    simp only [keeps_bind, keeps_raiseIf, keeps_run, keeps_check, keeps_pure]
    exact fun _ => ⟨trivial, fun _ _ _ => trivial⟩

/-- Enrolling a student makes writes of a setup only. -/
theorem keeps_enrollStudent (classId studentId : ℕ) (flushed : List Write) :
    Keeps Write.ofSetup K (fun ws => ∀ w ∈ ws, w.ofSetup)
      (enrollStudent classId studentId flushed) := by
  unfold enrollStudent
  rw [keeps_bind, keeps_select]
  intro s
  split
  · split
    · exact trivial
    · intro w hw
      cases hw
  · simp only [keeps_bind, keeps_draw, keeps_pure]
    intro s' w hw
    rw [List.mem_singleton.mp hw]
    trivial

/-- The loop over the roster, by induction on it. -/
theorem keeps_saveRoster (run : LabRun) (lab : Lab) (templateId slots : ℕ) (students : List ℕ) :
    ∀ flushed : List Write, (∀ w ∈ flushed, w.ofSetup) →
    Keeps Write.ofSetup K (fun ws => ∀ w ∈ ws, w.ofSetup)
      (saveRoster run lab templateId slots flushed students) := by
  induction students with
  | nil => exact fun flushed h => h
  | cons studentId students ih =>
    intro flushed h
    unfold saveRoster
    rw [keeps_bind]
    refine Keeps.mono (keeps_enrollStudent _ _ _) ?_
    intro enrolled henrolled
    rw [keeps_bind]
    refine Keeps.mono (keeps_createAssignments run lab (fun _ h => h.ofSetup) _ _ ?_) ?_
    · intro w hw
      rcases List.mem_append.mp hw with hw | hw
      · exact h w hw
      · exact henrolled w hw
    · rintro ⟨n, flushed'⟩ h'
      exact ih flushed' h'

/-- What a setup does to an assignment that exists revokes or reschedules it. -/
theorem rosterWrites_ofSetup {body : LabSetupBody} {templateId : ℕ} {students : List ℕ}
    {a : LabAssignment} {w : Write} (h : w ∈ rosterWrites body templateId students a) :
    w.ofSetup := by
  unfold rosterWrites at h
  split at h
  · split at h
    · cases h
    · rw [List.mem_singleton.mp h]
      rfl
  · split at h
    · rw [List.mem_singleton.mp h]
      trivial
    · cases h

/-- Saving a setup commits writes of a setup only. -/
theorem keeps_saveSetup (payload : LabSetupWrite) (user : User)
    (organization : OrganizationContext) (run : LabRun) (lab : Lab) (poolId : ℕ)
    (students : List ℕ) (flushed : List Write) (h : ∀ w ∈ flushed, w.ofSetup) :
    Keeps Write.ofSetup K (fun _ => True)
      (saveSetup payload user organization run lab poolId students flushed) := by
  unfold saveSetup
  simp only [keeps_bind, keeps_run, keeps_raiseIf, keeps_select, keeps_check, keeps_utcnow]
  refine ⟨trivial, fun s _ s' template _ s'' => ?_⟩
  refine Keeps.mono (keeps_saveRoster _ _ _ _ _ _ ?_) ?_
  · intro w hw
    simp only [List.mem_append, List.mem_cons, List.not_mem_nil, or_false, List.mem_flatMap]
      at hw
    rcases hw with (hw | rfl | rfl) | ⟨a, _, hw⟩
    · exact h w hw
    · trivial
    · trivial
    · exact rosterWrites_ofSetup hw
  · intro flushed' h' s₃ etag _
    rw [keeps_commit]
    refine ⟨?_, fun _ => trivial⟩
    intro w hw
    rcases List.mem_append.mp hw with hw | hw
    · exact h' w hw
    · rw [List.mem_singleton.mp hw]
      trivial

/-- Replaying a receipt commits nothing. -/
theorem keeps_replayReceipt (payload : LabSetupWrite) (user : User)
    (organization : OrganizationContext) (runId : Option ℕ) (receipt : LabSetupReceipt) :
    Keeps Write.ofSetup K (fun _ => True)
      (replayReceipt payload user organization runId receipt) := by
  unfold replayReceipt
  simp only [keeps_bind, keeps_raiseIf]
  intro _ _
  refine Keeps.mono (keeps_runForUser _ _ _ _) ?_
  rintro ⟨run, lab⟩ _
  simp

/-- Applying a setup commits writes of a setup only. -/
theorem keeps_applySetup (settings : Settings) (payload : LabSetupWrite) (user : User)
    (organization : OrganizationContext) (runId : Option ℕ) :
    Keeps Write.ofSetup K (fun _ => True)
      (applySetup settings payload user organization runId) := by
  unfold applySetup
  simp only [keeps_bind, keeps_check, keeps_select]
  intro _ _ s
  split
  · exact keeps_replayReceipt _ _ _ _ _
  · simp only [keeps_bind, keeps_utcnow, keeps_check]
    intro s' _ _
    refine Keeps.mono (keeps_lockEdited _ _ _ _) ?_
    intro edited _
    refine Keeps.mono (keeps_setupClass _ _ _) ?_
    rintro ⟨classId, newClass⟩ hclass
    refine Keeps.mono (keeps_setupPool _ _) ?_
    rintro ⟨poolId, newPool⟩ hpool
    refine Keeps.mono (keeps_newStudents _ _ _ _ _ ?_) ?_
    · intro w hw
      rcases List.mem_append.mp hw with hw | hw
      · exact hclass w hw
      · exact hpool w hw
    · rintro ⟨students, flushed⟩ hflushed
      rw [keeps_raiseIf]
      intro _
      refine Keeps.mono (keeps_setupRun _ _ _ _ _ _) ?_
      rintro ⟨run, lab, newRun⟩ hrun
      refine keeps_saveSetup _ _ _ _ _ _ _ _ ?_
      intro w hw
      rcases List.mem_append.mp hw with hw | hw
      · exact hflushed w hw
      · exact hrun w hw

/-- Both endpoints of setups commit writes of a setup only. -/
theorem keeps_writeSetup (settings : Settings) (caller : Caller) (runId : Option ℕ)
    (payload : LabSetupWrite) :
    Keeps Write.ofSetup K (fun _ => True) (writeSetup settings caller runId payload) := by
  unfold writeSetup
  rw [keeps_bind, keeps_check]
  intro _ _
  rw [keeps_bind]
  refine Keeps.mono (keeps_currentInstructor caller) ?_
  rintro ⟨user, organization⟩ _
  unfold saveOrReplay
  refine Keeps.guarded (keeps_applySetup _ _ _ _ _) ?_
  intro e
  rw [keeps_bind, keeps_rollback]
  intro _
  split
  · rw [keeps_bind, keeps_select]
    intro s
    split
    · exact keeps_applySetup _ _ _ _ _
    · exact trivial
  · exact trivial

end LabSetups

end LabGoblin
