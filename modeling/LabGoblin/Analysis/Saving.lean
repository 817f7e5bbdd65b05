import LabGoblin.Analysis.Assigning

/-!
# Saving a lab setup under locks

What the commit of `create_setup` and `edit_setup` rests on. An edit holds the locks on the run
and on all its assignments, so the roster it rewrites is the one it reads; a new run has no
assignments before its commit takes effect.
-/

set_option autoImplicit false

namespace LabGoblin

open Interactive

/-! ## The commit of a setup -/

/-- A write of the setup on an assignment of the run. -/
inductive RosterWrite (run : ℕ) (students : List ℕ) (body : LabSetupBody) (db : Db) :
    AssignmentWrite → Prop
  | insert (row : LabAssignment) (hrun : row.labRunId = run) (huser : row.userId ∈ students)
      (hpositive : 1 ≤ row.slotIndex) (hslot : row.slotIndex ≤ body.slots)
      (hstatus : row.status = .assigned) (hlink : row.studentVmId = none)
      (hexpires : row.expiresAt = body.endsAt) : RosterWrite run students body db (.insert row)
  | reassign (b : LabAssignment) (templateId : ℕ) (hb : b ∈ db.labAssignments.rows)
      (hrun : b.labRunId = run) (huser : b.userId ∈ students) (hslot : b.slotIndex ≤ body.slots)
      (hvacant : b.vacant) :
      RosterWrite run students body db (.reassign b.id templateId body.endsAt)
  | drop (b : LabAssignment) (hb : b ∈ db.labAssignments.rows) (hrun : b.labRunId = run)
      (hout : ¬ (b.userId ∈ students ∧ b.slotIndex ≤ body.slots)) (hlink : b.studentVmId = none)
      (hstatus : b.status ≠ .revoked) : RosterWrite run students body db (.status b.id .revoked)
  | keep (b : LabAssignment) (templateId : Option ℕ) (hb : b ∈ db.labAssignments.rows)
      (hrun : b.labRunId = run) (huser : b.userId ∈ students) (hslot : b.slotIndex ≤ body.slots)
      (hstatus : b.status ≠ .revoked) (htemplate : b.studentVmId ≠ none → templateId = none) :
      RosterWrite run students body db (.reschedule b.id body.endsAt templateId)

/-- The account that a write creates. -/
def Write.newUser : Write → Option ℕ
  | .catalogue (.insertUser row) => some row.id
  | _ => none

/-- What a setup commits, over the database that it finds. -/
structure SetupCommit (body : LabSetupBody) (run : ℕ) (lab : Lab) (students : List ℕ) (db : Db)
    (ws : List Write) : Prop where
  edit : ∃ name activatedAt, .run (.edit run name body.startsAt body.endsAt body.slots
    body.state.toRunState activatedAt) ∈ ws
  runs : ∀ w, .run w ∈ ws →
    (∃ row, w = .insert row ∧ row.id = run ∧ row.maxVmsPerStudent = body.slots) ∨
    ∃ name activatedAt, w = .edit run name body.startsAt body.endsAt body.slots
      body.state.toRunState activatedAt
  assignments : ∀ w, .assignment w ∈ ws → RosterWrite run students body db w
  dropped : ∀ a ∈ db.labAssignments.rows, a.labRunId = run →
    ¬ (a.userId ∈ students ∧ a.slotIndex ≤ body.slots) →
    a.studentVmId = none ∧ (a.status ≠ .revoked → .assignment (.status a.id .revoked) ∈ ws)
  kept : ∀ a ∈ db.labAssignments.rows, a.labRunId = run → a.userId ∈ students →
    a.slotIndex ≤ body.slots → a.status ≠ .revoked →
    ∃ templateId, .assignment (.reschedule a.id body.endsAt templateId) ∈ ws
  filled : ∀ u ∈ students, ∀ n, 1 ≤ n → n ≤ body.slots → Occupied run u n ws db
  roster : students = body.studentIds ++ ws.filterMap Write.newUser
  edits : ∀ l name description pool flags,
    .catalogue (.editLab l name description pool flags) ∈ ws → l = lab.id
  pool : (∃ a ∈ db.labAssignments.rows, a.labRunId = run ∧ a.studentVmId ≠ none) →
    ∀ l name description pool flags,
      .catalogue (.editLab l name description pool flags) ∈ ws → pool = lab.defaultPoolId

/-! ## The same roster -/

/-- Two databases with the same assignments of a run. -/
def SameRoster (run : ℕ) (db db' : Db) : Prop :=
  ∀ a : LabAssignment, a.labRunId = run →
    (a ∈ db.labAssignments.rows ↔ a ∈ db'.labAssignments.rows)

/-- The process holds the locks on a run and on all its assignments. -/
structure LockedRoster (p : Pid) (run : ℕ) (s : Store) : Prop where
  lock : (.labRun run, p) ∈ s.locks
  assignments : ∀ a ∈ s.db.labAssignments.rows, a.labRunId = run →
    (.labAssignment a.id, p) ∈ s.locks

section SameRoster

variable {p : Pid} {run : ℕ} {s s' s'' : Store}

/-- A roster that is locked is the same later. -/
theorem LockedRoster.same (h : LockedRoster p run s) (hkept : s.Kept p s') :
    SameRoster run s.db s'.db := by
  intro a ha
  constructor
  · intro hmem
    have hrow := hkept.assignments _ (h.assignments a hmem ha)
    rw [Table.get?_of_mem hmem] at hrow
    exact Table.mem_of_get? hrow
  · intro hmem
    obtain ⟨b, hb⟩ := Option.isSome_iff_exists.mp (hkept.roster run h.lock a hmem ha)
    obtain ⟨c, hc, hsame⟩ := hkept.places _ _ hb
    rw [Table.get?_of_mem hmem] at hc
    cases hc
    have hlock := h.assignments b (Table.mem_of_get? hb) (hsame.labRunId.symm.trans ha)
    have hrow := hkept.assignments _ hlock
    have hid : b.id = a.id := Table.get?_key hb
    rw [hid, Table.get?_of_mem hmem, hb] at hrow
    cases hrow
    exact Table.mem_of_get? hb

/-- A roster that is locked stays locked. -/
theorem LockedRoster.kept (h : LockedRoster p run s) (hkept : s.Kept p s') :
    LockedRoster p run s' where
  lock := hkept.locks _ h.lock
  assignments := by
    intro a ha hrun
    exact hkept.locks _ (h.assignments a ((h.same hkept a hrun).mpr ha) hrun)

/-- A run that is not there has no assignments. -/
theorem no_assignments (s : Store) (h : s.db.labRuns.get? run = none) :
    ∀ a ∈ s.db.labAssignments.rows, a.labRunId ≠ run := by
  rintro a ha rfl
  have hsome := s.valid.assignments_run a ha _ rfl
  rw [h] at hsome
  cases hsome

/-- Between two points of a transaction that has locked the roster, or whose run is not there yet,
the roster stays the same. -/
theorem same_of_settled (h : s.Kept p s') (h' : s'.Kept p s'')
    (hsettled : LockedRoster p run s ∨ s''.db.labRuns.get? run = none) :
    SameRoster run s'.db s''.db := by
  rcases hsettled with hlocked | hnone
  · exact (hlocked.kept h).same h'
  · intro a ha
    have hnone' := h'.present _ hnone
    exact ⟨fun hmem => absurd ha (no_assignments s' hnone' a hmem),
      fun hmem => absurd ha (no_assignments s'' hnone a hmem)⟩

end SameRoster

/-! ## What the loops have flushed -/

/-- No flushed write drops or links an assignment of the requested roster. -/
def LeavesRoster (students : List ℕ) (slots : ℕ) (db : Db) (ws : List Write) : Prop :=
  ∀ w, .assignment w ∈ ws →
    (∃ row, w = .insert row ∧ row.status = .assigned ∧ row.studentVmId = none) ∨
      (∃ a templateId expiresAt, w = .reassign a templateId expiresAt) ∨
      (∃ a expiresAt templateId, w = .reschedule a expiresAt templateId) ∨
      ∃ b, db.labAssignments.get? w.target = some b ∧
        ¬ (b.userId ∈ students ∧ b.slotIndex ≤ slots)

/-- The requested assignments have been looked at, and what that flushed. -/
structure RosterSaved (run : ℕ) (students : List ℕ) (body : LabSetupBody)
    (done : List LabAssignmentCreate) (ws : List Write) (db : Db) : Prop where
  assignments : ∀ w, .assignment w ∈ ws → RosterWrite run students body db w
  filled : ∀ r ∈ done, ∀ n, r.slotIndex = some n → Occupied run r.userId n ws db

/-- The state of the loop of `_apply` over the roster, whose transaction had come to `s₀`: what it
has added to the writes before it, and what that means for the database at its commit. -/
structure Saving (p : Pid) (s₀ : Store) (run : ℕ) (students : List ℕ) (body : LabSetupBody)
    (base : List Write) (done : List LabAssignmentCreate) (ws : List Write) (s : Store) :
    Prop where
  since : s₀.Kept p s
  added : ∃ new, ws = base ++ new ∧ ∀ w ∈ new, (∃ v, w = .assignment v) ∨
    ∃ row, w = .catalogue (.insertEnrollment row)
  leaves : LeavesRoster students body.slots s.db ws
  saved : ∀ t : Store, s.Kept p t →
    (LockedRoster p run s₀ ∨ t.db.labRuns.get? run = none) →
    RosterSaved run students body done ws t.db

section Saving

variable {p : Pid} {s₀ s s' : Store} {run : LabRun} {students : List ℕ} {body : LabSetupBody}
  {base ws : List Write} {done : List LabAssignmentCreate}

/-- Writes that leave the roster do so while everything that is locked is kept. -/
theorem LeavesRoster.kept {slots : ℕ} (h : LeavesRoster students slots s.db ws)
    (hkept : s.Kept p s') : LeavesRoster students slots s'.db ws := by
  intro w hw
  rcases h w hw with h | h | h | ⟨b, hb, hout⟩
  · exact Or.inl h
  · exact Or.inr (Or.inl h)
  · exact Or.inr (Or.inr (Or.inl h))
  · obtain ⟨b', hb', hsame⟩ := hkept.places _ _ hb
    refine Or.inr (Or.inr (Or.inr ⟨b', hb', ?_⟩))
    rw [hsame.userId, hsame.slotIndex]
    exact hout

/-- Writes that leave the roster spare its slots. -/
theorem LeavesRoster.spares {slots user slot : ℕ} (h : LeavesRoster students slots s.db ws)
    (huser : user ∈ students) (hslot : slot ≤ slots) (run : ℕ) :
    Spares run user slot s.db ws := by
  intro w hw
  rcases h w hw with h | h | h | ⟨b, hb, hout⟩
  · exact Or.inl h
  · exact Or.inr (Or.inl h)
  · exact Or.inr (Or.inr (Or.inl h))
  · refine Or.inr (Or.inr (Or.inr ⟨b, hb, ?_⟩))
    intro hin
    rw [hin.userId, hin.slotIndex] at hout
    exact hout ⟨huser, hslot⟩

/-- The loop over the roster stays where it is while everything that is locked is kept. -/
theorem Saving.kept {i : ℕ} (h : Saving p s₀ i students body base done ws s)
    (hkept : s.Kept p s') : Saving p s₀ i students body base done ws s' where
  since := h.since.trans hkept
  added := h.added
  leaves := h.leaves.kept hkept
  saved := fun t ht hsettled => h.saved t (hkept.trans ht) hsettled

/-- A slot that is occupied stays so with more writes and the same roster. -/
theorem Occupied.mono {i user slot : ℕ} {ws' : List Write} {db db' : Db}
    (h : Occupied i user slot ws db) (hws : ∀ w ∈ ws, w ∈ ws') (hdb : SameRoster i db db') :
    Occupied i user slot ws' db' := by
  cases h with
  | held b hb hslot hheld => exact .held b ((hdb b hslot.labRunId).mp hb) hslot hheld
  | reassigned b templateId expiresAt hb hslot hw =>
    exact .reassigned b templateId expiresAt ((hdb b hslot.labRunId).mp hb) hslot (hws _ hw)
  | inserted row hslot hw => exact .inserted row hslot (hws _ hw)

/-- Writes that touch no assignment. -/
theorem Saving.enroll {i : ℕ} (h : Saving p s₀ i students body base done ws s)
    {enrolled : List Write} (henrolled : ∀ w ∈ enrolled, ∃ row,
      w = .catalogue (.insertEnrollment row)) :
    Saving p s₀ i students body base done (ws ++ enrolled) s where
  since := h.since
  added := by
    obtain ⟨new, rfl, hnew⟩ := h.added
    refine ⟨new ++ enrolled, List.append_assoc _ _ _, ?_⟩
    intro w hw
    rcases List.mem_append.mp hw with hw | hw
    · exact hnew w hw
    · exact Or.inr (henrolled w hw)
  leaves := by
    intro w hw
    rcases List.mem_append.mp hw with hw | hw
    · exact h.leaves w hw
    · obtain ⟨_, heq⟩ := henrolled _ hw
      cases heq
  saved := by
    intro t ht hsettled
    have hsaved := h.saved t ht hsettled
    refine ⟨?_, ?_⟩
    · intro w hw
      rcases List.mem_append.mp hw with hw | hw
      · exact hsaved.assignments w hw
      · obtain ⟨_, heq⟩ := henrolled _ hw
        cases heq
    · intro r hr n hn
      exact (hsaved.filled r hr n hn).mono (fun w hw => List.mem_append_left _ hw)
        fun _ _ => Iff.rfl

/-- One more slot of the roster. -/
theorem Saving.assign (h : Saving p s₀ run.id students body base done ws s)
    (hexpires : run.endsAt = body.endsAt) {s₂ : Store} (hkept : s.Kept p s₂) {user slot : ℕ}
    (huser : user ∈ students) (hpositive : 1 ≤ slot) (hslot : slot ≤ body.slots)
    {new : List Write} (hnew : SlotWrites run user slot ws s₂.db new)
    {r : LabAssignmentCreate} (hr : r.userId = user) (hn : r.slotIndex = some slot) :
    Saving p s₀ run.id students body base (done ++ [r]) (ws ++ new) s₂ where
  since := h.since.trans hkept
  added := by
    obtain ⟨added, rfl, hadded⟩ := h.added
    refine ⟨added ++ new, List.append_assoc _ _ _, ?_⟩
    intro w hw
    rcases List.mem_append.mp hw with hw | hw
    · exact hadded w hw
    · cases hnew with
      | none _ => cases hw
      | reassign b templateId _ _ _ => exact Or.inl ⟨_, List.mem_singleton.mp hw⟩
      | insert row _ _ _ _ => exact Or.inl ⟨_, List.mem_singleton.mp hw⟩
  leaves := by
    intro w hw
    rcases List.mem_append.mp hw with hw | hw
    · exact h.leaves.kept hkept w hw
    · cases hnew with
      | none _ => cases hw
      | reassign b templateId _ _ _ =>
        cases List.mem_singleton.mp hw
        exact Or.inr (Or.inl ⟨_, _, _, rfl⟩)
      | insert row _ hstatus hlink _ =>
        cases List.mem_singleton.mp hw
        exact Or.inl ⟨row, rfl, hstatus, hlink⟩
  saved := by
    intro t ht hsettled
    have hsaved := h.saved t (hkept.trans ht) hsettled
    have hsame := same_of_settled (h.since.trans hkept) ht hsettled
    refine ⟨?_, ?_⟩
    · intro w hw
      rcases List.mem_append.mp hw with hw | hw
      · exact hsaved.assignments w hw
      · cases hnew with
        | none _ => cases hw
        | reassign b templateId hb hbslot hvacant =>
          cases List.mem_singleton.mp hw
          rw [hexpires]
          refine .reassign b templateId ((hsame b hbslot.labRunId).mp hb) hbslot.labRunId ?_ ?_
            hvacant
          · rw [hbslot.userId]
            exact huser
          · rw [hbslot.slotIndex]
            exact hslot
        | insert row hrow hstatus hlink hrowExpires =>
          cases List.mem_singleton.mp hw
          refine .insert row hrow.labRunId ?_ ?_ ?_ hstatus hlink (hrowExpires.trans hexpires)
          · rw [hrow.userId]
            exact huser
          · rw [hrow.slotIndex]
            exact hpositive
          · rw [hrow.slotIndex]
            exact hslot
    · intro r' hr' n hn'
      rcases List.mem_append.mp hr' with hr' | hr'
      · exact (hsaved.filled r' hr' n hn').mono (fun w hw => List.mem_append_left _ hw)
          fun _ _ => Iff.rfl
      · rw [List.mem_singleton.mp hr'] at hn' ⊢
        rw [hn] at hn'
        cases hn'
        rw [hr]
        cases hnew with
        | none hoccupied =>
          exact hoccupied.mono (fun w hw => List.mem_append_left _ hw) hsame
        | reassign b templateId hb hbslot _ =>
          exact .reassigned b templateId run.endsAt ((hsame b hbslot.labRunId).mp hb) hbslot
            (by simp)
        | insert row hrow _ _ _ => exact .inserted row hrow (by simp)

/-- The loop over the slots of one student, by induction on the requests. -/
theorem reads_saveSlots {lab : Lab} (hexpires : run.endsAt = body.endsAt)
    (hquota : run.maxVmsPerStudent = body.slots) {payloads : List LabAssignmentCreate}
    (hpayloads : ∀ r ∈ payloads, r.userId ∈ students ∧ ∃ n, r.slotIndex = some n ∧ 1 ≤ n)
    {n : ℕ} (h : Saving p s₀ run.id students body base done ws s) :
    Reads (Store.Kept p)
      (fun r s' => Saving p s₀ run.id students body base (done ++ payloads) r.2 s')
      (createAssignments run lab (n, ws) payloads) s := by
  induction payloads generalizing n done ws s with
  | nil =>
    rw [List.append_nil]
    exact h
  | cons r payloads ih =>
    obtain ⟨huser, slot, hslot, hpositive⟩ := hpayloads r List.mem_cons_self
    unfold createAssignments
    rw [reads_bind]
    refine Reads.mono (reads_createAssignment (Store.Kept.refl p) (fun _ _ _ => .trans) ?_) ?_
    · intro s' slot' hkept _ hslot' _
      rw [hquota] at hslot'
      exact (h.leaves.kept hkept).spares huser hslot' run.id
    · rintro ⟨id, created, new⟩ s' ⟨s₂, slot', hkept, hkept', _, hslot', hfound, hnew⟩
      have heq : slot' = slot := hfound slot hslot (by omega)
      subst heq
      rw [hquota] at hslot'
      have hnext := (h.assign hexpires hkept huser hpositive hslot' hnew rfl hslot).kept hkept'
      have hrest := ih (n := n + created.toNat)
        (fun r' hr' => hpayloads r' (List.mem_cons_of_mem _ hr')) hnext
      rwa [List.append_assoc] at hrest

/-- Enrolling a student reads, and adds an enrollment only. -/
theorem reads_enrollStudent {le : Store → Store → Prop} (classId studentId : ℕ)
    (flushed : List Write) :
    Reads le (fun ws _ => ∀ w ∈ ws, ∃ row, w = .catalogue (.insertEnrollment row))
      (enrollStudent classId studentId flushed) s := by
  unfold enrollStudent
  rw [reads_bind, reads_select]
  intro s' _
  split
  · split
    · exact trivial
    · intro w hw
      cases hw
  · rw [reads_bind, reads_draw]
    intro s'' _ w hw
    exact ⟨_, List.mem_singleton.mp hw⟩

/-- The requests that the loop over the roster makes. -/
def rosterRequests (students : List ℕ) (templateId slots : ℕ) : List LabAssignmentCreate :=
  students.flatMap fun u => slotRequests [u] (some templateId) slots

/-- The requests of a student are for slots of that student, counted from one. -/
theorem mem_slotRequests {u : ℕ} {templateId : Option ℕ} {slots : ℕ} {r : LabAssignmentCreate}
    (h : r ∈ slotRequests [u] templateId slots) :
    r.userId = u ∧ ∃ n, r.slotIndex = some n ∧ 1 ≤ n := by
  unfold slotRequests at h
  rw [List.flatMap_singleton, List.mem_map] at h
  obtain ⟨i, -, rfl⟩ := h
  exact ⟨rfl, i + 1, rfl, by omega⟩

/-- The loop of `_apply` over the roster, by induction on it. -/
theorem reads_saveRoster {lab : Lab} (hexpires : run.endsAt = body.endsAt)
    (hquota : run.maxVmsPerStudent = body.slots) {templateId : ℕ} {roster : List ℕ}
    (hroster : ∀ u ∈ roster, u ∈ students)
    (h : Saving p s₀ run.id students body base done ws s) :
    Reads (Store.Kept p) (fun ws' s' => Saving p s₀ run.id students body base
        (done ++ rosterRequests roster templateId body.slots) ws' s')
      (saveRoster run lab templateId body.slots ws roster) s := by
  induction roster generalizing done ws s with
  | nil =>
    show Saving p s₀ run.id students body base (done ++ []) ws s
    rw [List.append_nil]
    exact h
  | cons u roster ih =>
    unfold saveRoster
    rw [reads_bind]
    refine Reads.mono (Reads.last (Store.Kept.refl p) (fun _ _ _ => .trans)
      (reads_enrollStudent _ _ _)) ?_
    rintro enrolled s₁ ⟨hkept, henrolled⟩
    rw [reads_bind]
    refine Reads.mono (reads_saveSlots hexpires hquota ?_ ((h.kept hkept).enroll henrolled)) ?_
    · intro r hr
      obtain ⟨huser, hslot⟩ := mem_slotRequests hr
      rw [huser]
      exact ⟨hroster u List.mem_cons_self, hslot⟩
    · rintro ⟨created, ws'⟩ s₂ h₂
      have hrest := ih (fun v hv => hroster v (List.mem_cons_of_mem _ hv)) h₂
      rwa [List.append_assoc] at hrest

end Saving

end LabGoblin
