import LabGoblin.Analysis.Quota

/-!
# The roster that a setup saves

The commit of a setup gives every requested slot a row with the requested end. It leaves the
status of the rows that are there, though, except for vacant ones: a row that is expired stays so,
and so does one that is revoked and still linked.
-/

set_option autoImplicit false

namespace LabGoblin

open Interactive

/-- The endpoints that save a setup. -/
def Request.isSetup : Request → Bool
  | .createSetup _ _ => true
  | .editSetup _ _ _ => true
  | _ => false

/-- The students of the request and those whose accounts the writes create. -/
def savedRoster (body : LabSetupBody) (ws : List Write) : List ℕ :=
  body.studentIds ++ ws.filterMap Write.newUser

/-- Every slot of every student has one assignment of the run, which is in use until the end that
was requested, and nothing else of the run is in use. -/
structure RosterAsRequested (db : Db) (run : ℕ) (body : LabSetupBody) (students : List ℕ) :
    Prop where
  filled : ∀ u ∈ students, ∀ n, 1 ≤ n → n ≤ body.slots →
    ∃ a ∈ db.labAssignments.rows, a.InSlot run u n ∧ a.status.live = true ∧
      a.expiresAt = body.endsAt ∧ ∀ b ∈ db.labAssignments.rows, b.InSlot run u n → b = a
  only : ∀ a ∈ db.labAssignments.rows, a.labRunId = run → a.status ≠ .revoked →
    a.userId ∈ students ∧ 1 ≤ a.slotIndex ∧ a.slotIndex ≤ body.slots

/-- No row of the requested roster is expired, or revoked with a VM. -/
def NoneStale (db : Db) (run : ℕ) (body : LabSetupBody) (students : List ℕ) : Prop :=
  ∀ a ∈ db.labAssignments.rows, a.labRunId = run → a.userId ∈ students →
    a.slotIndex ≤ body.slots → a.status ≠ .expired ∧ (a.status = .revoked → a.studentVmId = none)

section Commit

variable {s : Store} {ws : List Write} {db : { db : Db // db.Constraints }} {body : LabSetupBody}
  {run : ℕ} {lab : Lab} {students : List ℕ}

/-- A row that is not vacant keeps its status. -/
theorem SetupCommit.keepsStatus (h : SetupCommit body run lab students s.db ws)
    (hcommit : s.afterCommit ws = some db) {a a' : LabAssignment}
    (ha : s.db.labAssignments.get? a'.id = some a) (huser : a.userId ∈ students)
    (hslot : a.slotIndex ≤ body.slots) (hvacant : ¬ a.vacant)
    (ha' : db.1.labAssignments.get? a'.id = some a') : a'.status = a.status := by
  refine Store.assignment_afterCommit (P := fun r => r.status = a.status) hcommit ?_ ?_ ?_ a' ha'
  · intro r hr
    rw [ha] at hr
    cases hr
    rfl
  · intro r hnone
    rw [ha] at hnone
    cases hnone
  · intro w hw htarget r _ hr
    rw [← htarget] at ha
    cases h.assignments w hw with
    | insert row _ _ _ _ _ _ _ => exact hr
    | reassign b templateId hb _ _ _ hbvacant =>
      have ha : s.db.labAssignments.get? b.id = some a := ha
      rw [Table.get?_of_mem hb] at ha
      cases ha
      exact absurd hbvacant hvacant
    | drop b hb _ hout _ _ =>
      have ha : s.db.labAssignments.get? b.id = some a := ha
      rw [Table.get?_of_mem hb] at ha
      cases ha
      exact absurd ⟨huser, hslot⟩ hout
    | keep b templateId _ _ _ _ _ _ => exact hr

/-- Whatever a setup writes on a row of its run, it leaves it with the requested end, once it has
it. -/
theorem SetupCommit.keepsEnd (h : SetupCommit body run lab students s.db ws) :
    ∀ w, .assignment w ∈ ws → ∀ r : LabAssignment, r.expiresAt = body.endsAt →
      (w.onRow r).expiresAt = body.endsAt := by
  intro w hw r hr
  cases h.assignments w hw with
  | insert row _ _ _ _ _ _ _ => exact hr
  | reassign b templateId _ _ _ _ _ => rfl
  | drop b _ _ _ _ _ => exact hr
  | keep b templateId _ _ _ _ _ _ => rfl

/-- A requested row that is not revoked ends when it was requested to. -/
theorem SetupCommit.reschedules (h : SetupCommit body run lab students s.db ws)
    (hcommit : s.afterCommit ws = some db) {a a' : LabAssignment}
    (ha : s.db.labAssignments.get? a'.id = some a) (hrun : a.labRunId = run)
    (huser : a.userId ∈ students) (hslot : a.slotIndex ≤ body.slots) (hstatus : a.status ≠ .revoked)
    (ha' : db.1.labAssignments.get? a'.id = some a') : a'.expiresAt = body.endsAt := by
  obtain ⟨templateId, hkeep⟩ := h.kept a (Table.mem_of_get? ha) hrun huser hslot hstatus
  have hid : a.id = a'.id := Table.get?_key ha
  refine Store.assignment_of_mem (i := a'.id) (P := fun r => r.expiresAt = body.endsAt) hcommit
    ?_ hkeep (by simp) hid (fun _ => rfl) (fun w hw _ => h.keepsEnd w hw) a' ha'
  rw [ha]
  rfl

/-- Assigned, until the instant. -/
def LabAssignment.AssignedUntil (endsAt : Option Time) (a : LabAssignment) : Prop :=
  a.status = .assigned ∧ a.expiresAt = endsAt

/-- A row that a setup assigns in the roster stays assigned, until the requested end. -/
theorem SetupCommit.keepsAssigned (h : SetupCommit body run lab students s.db ws) {u n : ℕ}
    (hu : u ∈ students) (hn : n ≤ body.slots) {w : AssignmentWrite} (hw : .assignment w ∈ ws)
    (hslot : ∀ b ∈ s.db.labAssignments.rows, w.target = b.id → b.InSlot run u n)
    {r : LabAssignment} (hr : r.AssignedUntil body.endsAt) :
    (w.onRow r).AssignedUntil body.endsAt := by
  refine ⟨?_, h.keepsEnd w hw r hr.2⟩
  cases h.assignments w hw with
  | insert row _ _ _ _ _ _ _ => exact hr.1
  | reassign b templateId _ _ _ _ _ => rfl
  | drop b hb _ hout _ _ =>
    have hbslot := hslot b hb rfl
    rw [hbslot.userId, hbslot.slotIndex] at hout
    exact absurd ⟨hu, hn⟩ hout
  | keep b templateId _ _ _ _ _ _ => exact hr.1

/-- A row stays in its slot. -/
theorem inSlot_afterCommit (hcommit : s.afterCommit ws = some db) {u n : ℕ}
    {a a' : LabAssignment} (ha : s.db.labAssignments.get? a'.id = some a)
    (hslot : a.InSlot run u n) (ha' : db.1.labAssignments.get? a'.id = some a') :
    a'.InSlot run u n := by
  refine Store.assignment_afterCommit (P := fun r => r.InSlot run u n) hcommit ?_ ?_ ?_ a' ha'
  · intro r hr
    rw [ha] at hr
    cases hr
    exact hslot
  · intro r hnone
    rw [ha] at hnone
    cases hnone
  · exact fun w _ _ r _ hr => (w.onRow_inSlot r).mpr hr

/-- Every requested slot has a row that is in use until the requested end, unless the one it had
is stale. -/
theorem SetupCommit.fills (h : SetupCommit body run lab students s.db ws)
    (hcommit : s.afterCommit ws = some db) {u n : ℕ} (hu : u ∈ students) (hn : n ≤ body.slots)
    (hoccupied : Occupied run u n ws s.db) (hfresh : NoneStale s.db run body students) :
    ∃ a ∈ db.1.labAssignments.rows, a.InSlot run u n ∧ a.status.live = true ∧
      a.expiresAt = body.endsAt := by
  cases hoccupied with
  | held b hb hslot hheld =>
    have hrow := Table.get?_of_mem hb
    obtain ⟨a, ha⟩ := Store.assignment_stays hcommit hrow
    have hid : a.id = b.id := Table.get?_key ha
    rw [← hid] at hrow ha
    have huser : b.userId ∈ students := by
      rw [hslot.userId]
      exact hu
    have hquota : b.slotIndex ≤ body.slots := by
      rw [hslot.slotIndex]
      exact hn
    obtain ⟨hexpired, hlinked⟩ := hfresh b hb hslot.labRunId huser hquota
    have hrevoked : b.status ≠ .revoked := fun hstatus => hheld ⟨hstatus, hlinked hstatus⟩
    refine ⟨a, Table.mem_of_get? ha, inSlot_afterCommit hcommit hrow hslot ha, ?_,
      h.reschedules hcommit hrow hslot.labRunId huser hquota hrevoked ha⟩
    rw [h.keepsStatus hcommit hrow huser hquota hheld ha]
    cases hstatus : b.status with
    | assigned => rfl
    | ready => rfl
    | expired => exact absurd hstatus hexpired
    | revoked => exact absurd hstatus hrevoked
  | reassigned b templateId expiresAt hb hslot hw =>
    have hrow := Table.get?_of_mem hb
    obtain ⟨a, ha⟩ := Store.assignment_stays hcommit hrow
    have hid : a.id = b.id := Table.get?_key ha
    have hends : expiresAt = body.endsAt := by
      have hform := h.assignments _ hw
      generalize hv : AssignmentWrite.reassign b.id templateId expiresAt = v at hform
      cases hform with
      | reassign c templateId' _ _ _ _ _ => exact (AssignmentWrite.reassign.inj hv).2.2
      | _ => cases hv
    have hassigned : a.AssignedUntil body.endsAt := by
      refine Store.assignment_of_mem (i := b.id)
        (P := fun r => r.AssignedUntil body.endsAt) hcommit ?_ hw (by simp) rfl
        (fun r => ⟨rfl, hends⟩) ?_ a ha
      · rw [hrow]
        rfl
      · intro w hw' htarget r hr
        refine h.keepsAssigned hu hn hw' ?_ hr
        intro c hc hcid
        have hcrow := Table.get?_of_mem hc
        rw [← hcid, htarget, hrow] at hcrow
        cases hcrow
        exact hslot
    rw [← hid] at hrow ha
    refine ⟨a, Table.mem_of_get? ha, inSlot_afterCommit hcommit hrow hslot ha, ?_, hassigned.2⟩
    rw [hassigned.1]
    rfl
  | inserted row hslot hw =>
    have hrow : row.InSlot run u n ∧ row.AssignedUntil body.endsAt := by
      cases h.assignments _ hw with
      | insert _ _ _ _ _ hstatus _ hexpires => exact ⟨hslot, hstatus, hexpires⟩
    have hupd : ∀ w, .assignment w ∈ ws → w.target = row.id → ∀ r : LabAssignment,
        (r.InSlot run u n ∧ r.AssignedUntil body.endsAt) →
        ((w.onRow r).InSlot run u n ∧ (w.onRow r).AssignedUntil body.endsAt) := by
      rintro w hw' htarget r ⟨hin, hr⟩
      refine ⟨(w.onRow_inSlot r).mpr hin, h.keepsAssigned hu hn hw' ?_ hr⟩
      intro b hb hbid
      have hfresh := Store.assignment_fresh hcommit hw
      rw [← htarget, hbid, Table.get?_of_mem hb] at hfresh
      cases hfresh
    obtain ⟨a, ha, hin, hstatus, hexpires⟩ := Store.assignment_inserted hcommit hw hrow hupd
    refine ⟨a, Table.mem_of_get? ha, hin, ?_, hexpires⟩
    rw [hstatus]
    rfl

/-- What is in use in the run after a setup is in the roster and its slots. -/
theorem SetupCommit.only (h : SetupCommit body run lab students s.db ws)
    (hcommit : s.afterCommit ws = some db) {a : LabAssignment}
    (ha : a ∈ db.1.labAssignments.rows) (hrun : a.labRunId = run) (hstatus : a.status ≠ .revoked) :
    a.userId ∈ students ∧ 1 ≤ a.slotIndex ∧ a.slotIndex ≤ body.slots := by
  have hpositive := db.2.assignments_slot_positive a ha
  suffices hin : a.userId ∈ students ∧ a.slotIndex ≤ body.slots from
    ⟨hin.1, hpositive, hin.2⟩
  rcases assignment_before hcommit ha with ⟨b, hb, hsame⟩ | ⟨b, hb, hsame⟩
  · rw [hsame.userId, hsame.slotIndex]
    by_contra hout
    exact h.drops hcommit hb (hsame.labRunId.symm.trans hrun) hout (Table.get?_of_mem ha)
      (Or.inl hstatus)
  · rw [hsame.userId, hsame.slotIndex]
    cases h.assignments _ hb with
    | insert _ _ huser _ hslot _ _ _ => exact ⟨huser, hslot⟩

/-- A setup saves the requested roster if and only if none of the rows it finds in it is stale. -/
theorem SetupCommit.rosterAsRequested_iff (h : SetupCommit body run lab students s.db ws)
    (hcommit : s.afterCommit ws = some db) :
    RosterAsRequested db.1 run body students ↔ NoneStale s.db run body students := by
  have hunique : ∀ a ∈ db.1.labAssignments.rows, ∀ u n, a.InSlot run u n →
      ∀ b ∈ db.1.labAssignments.rows, b.InSlot run u n → b = a := by
    intro a ha u n hin b hb hbin
    refine db.2.assignments_slot b hb a ha (by simp) ?_
    show some (b.labRunId, b.userId, b.slotIndex) = some (a.labRunId, a.userId, a.slotIndex)
    rw [hbin.labRunId, hbin.userId, hbin.slotIndex, hin.labRunId, hin.userId, hin.slotIndex]
  constructor
  · intro hsaved b hb hrun huser hslot
    by_contra hstale
    have hvacant : ¬ b.vacant := by
      rintro ⟨hstatus, hlink⟩
      refine hstale ⟨?_, fun _ => hlink⟩
      rw [hstatus]
      decide
    have hrow := Table.get?_of_mem hb
    obtain ⟨a, ha⟩ := Store.assignment_stays hcommit hrow
    have hid : a.id = b.id := Table.get?_key ha
    rw [← hid] at hrow ha
    have hin : a.InSlot run b.userId b.slotIndex :=
      inSlot_afterCommit hcommit hrow ⟨hrun, rfl, rfl⟩ ha
    obtain ⟨c, hc, hcin, hlive, -, -⟩ := hsaved.filled b.userId huser b.slotIndex
      (s.valid.assignments_slot_positive b hb) hslot
    rw [hunique a (Table.mem_of_get? ha) _ _ hin c hc hcin,
      h.keepsStatus hcommit hrow huser hslot hvacant ha] at hlive
    refine hstale ⟨?_, ?_⟩
    · intro hstatus
      rw [hstatus] at hlive
      cases hlive
    · intro hstatus
      rw [hstatus] at hlive
      cases hlive
  · intro hfresh
    refine ⟨?_, fun a ha hrun hstatus => h.only hcommit ha hrun hstatus⟩
    intro u hu n hpositive hn
    obtain ⟨a, ha, hin, hlive, hends⟩ :=
      h.fills hcommit hu hn (h.filled u hu n hpositive hn) hfresh
    exact ⟨a, ha, hin, hlive, hends, fun b hb hbin => hunique a ha u n hin b hb hbin⟩

end Commit

/-! ## Runs -/

section Runs

variable {H : Type} {settings : Settings} {outside : Outside H}

/-- The request saves a setup with the body, and the writes are those of the run that it saves. -/
def Request.Saves (r : Request) (ws : List Write) (run : ℕ) (body : LabSetupBody) : Prop :=
  match r with
  | .createSetup _ payload =>
      payload.body = body ∧ ∃ row, .run (.insert row) ∈ ws ∧ row.id = run
  | .editSetup _ i payload => payload.body = body ∧ i = run
  | _ => False

/-- In every run from the state, what a setup endpoint commits satisfies a postcondition on the
database that the commit finds, the run, the request, the resulting roster and the database that
the commit leaves. A submission that replays a receipt commits nothing. -/
def SavedSetups (sys : System Api (Sys H) Request) (t : Sys H)
    (Q : Db → ℕ → LabSetupBody → List ℕ → Db → Prop) : Prop :=
  ∀ w, World.Reach sys (World.idle t) w → ∀ newer p ws s older,
    w.shared.log = newer ++ .stmt p (.commit ws) s :: older →
    ∀ db : { db : Db // db.Constraints }, s.afterCommit ws = some db →
    ∀ r, Entry.enter p r ∈ older → r.isSetup = true →
      ∃ run body, r.Saves ws run body ∧ Q s.db run body (savedRoster body ws) db.1

/-- A setup endpoint leaves the requested roster if and only if no row that it finds in the roster
is expired, or revoked with a VM. -/
theorem savedSetups_iff (settings : Settings) (outside : Outside H) (t : Sys H)
    (ht : t.Initial) :
    SavedSetups (system settings outside) t fun db run body students db' =>
      RosterAsRequested db' run body students ↔ NoneStale db run body students := by
  intro w hr newer p ws s older hlog db hcommit r hr' hsetup
  have heach := each_commit (P := fun p ws s older =>
    ∀ db : { db : Db // db.Constraints }, s.afterCommit ws = some db →
    ∀ r, Entry.enter p r ∈ older → r.isSetup = true → ∃ run body, r.Saves ws run body ∧
      (RosterAsRequested db.1 run body (savedRoster body ws) ↔
        NoneStale s.db run body (savedRoster body ws))) ?_ ht (reach_unconditional hr)
  · exact heach newer _ older hlog p ws s rfl db hcommit r hr' hsetup
  · intro p ws t h db hcommit r hr hsetup
    obtain ⟨r', hr', hground⟩ := h.rests ws rfl
    obtain rfl := h.logged.request p r' r hr' hr
    cases r' with
    | createSetup caller payload =>
      obtain ⟨run, lab, students, hsaves, hinsert⟩ := hground
      have hsaved := hsaves.saves db hcommit
      refine ⟨run, payload.body, ⟨rfl, hinsert⟩, ?_⟩
      have hroster : students = savedRoster payload.body ws := hsaved.roster
      rw [← hroster]
      exact hsaved.rosterAsRequested_iff hcommit
    | editSetup caller run payload =>
      obtain ⟨lab, students, row, s, hsaves, -⟩ := hground
      have hsaved := hsaves.saves db hcommit
      refine ⟨run, payload.body, ⟨rfl, rfl⟩, ?_⟩
      have hroster : students = savedRoster payload.body ws := hsaved.roster
      rw [← hroster]
      exact hsaved.rosterAsRequested_iff hcommit
    | _ => cases hsetup

end Runs

namespace Fixture

/-- The student's assignment has expired, and its VM is gone. -/
def expiredStore : Store where
  db := linkedDb { readyAssignment with status := .expired, studentVmId := none } (by decide)
  valid := by decide
  clock := 100
  locks := []
  nonce := 0

/-- The edit that saves the setup as it is. -/
def sameSetup : LabSetupWrite :=
  { oneSlot with
    body := { oneSlot.body with
      expectedEtag := some ⟨1, 1, "r", "", 1, "c", "", 1, "p", [2], none, none, 1, .active, 1,
        ⟨true, true, true, true, true⟩, [(1, none, .expired, none)]⟩ } }

/-- An instructor saves the setup. -/
def saveSame : List (Move Api Request) :=
  [.spawn (.editSetup ⟨3, some 1⟩ 1 sameSetup), .run 0 17 absent]

/-- The newest entry is the commit of an edit for the student, after which all assignments are
expired. -/
def savedExpired (w : World Api (Sys Unit)) : Bool :=
  match w.shared.log with
  | .stmt p (.commit ws) s :: older =>
    (s.afterCommit ws).any (fun db =>
        db.1.labAssignments.rows.all fun a => a.status = .expired) &&
      older.any fun e =>
        match e with
        | .enter p' (.editSetup _ _ payload) =>
          p' = p && payload.body.studentIds.contains 2 && decide (1 ≤ payload.body.slots)
        | _ => false
  | _ => false

set_option maxRecDepth 100000 in
/-- The student's only slot stays expired, although the edit succeeds. -/
theorem savedSetup_expired : ¬ SavedSetups (system {} anything) (start expiredStore)
    (fun _ run body students db' => RosterAsRequested db' run body students) := by
  intro h
  have hplay : (player.play (World.idle (start expiredStore)) saveSame).any savedExpired =
      true := by
    decide +kernel
  obtain ⟨w, hr, hw⟩ := player.exists_of_play hplay
  unfold savedExpired at hw
  split at hw
  · rename_i p ws s older hlog
    rw [Bool.and_eq_true, List.any_eq_true] at hw
    obtain ⟨hexpired, e, he, hentry⟩ := hw
    cases hcommit : s.afterCommit ws with
    | none =>
      rw [hcommit] at hexpired
      cases hexpired
    | some db =>
      rw [hcommit] at hexpired
      split at hentry
      · rename_i p' caller i payload
        simp only [Bool.and_eq_true, decide_eq_true_eq, List.contains_iff_mem] at hentry
        obtain ⟨⟨rfl, hstudent⟩, hslots⟩ := hentry
        obtain ⟨run, body, ⟨rfl, -⟩, hsaved⟩ :=
          h w hr [] p' ws s older hlog db hcommit _ he rfl
        obtain ⟨a, ha, -, hlive, -⟩ := hsaved.filled 2 (List.mem_append_left _ hstudent) 1
          (by decide) hslots
        have hstatus : a.status = .expired :=
          of_decide_eq_true (List.all_eq_true.mp hexpired a ha)
        rw [hstatus] at hlive
        cases hlive
      · cases hentry
  · cases hw

end Fixture

/-- From the store of the fixture a saved setup has the requested roster exactly when no assignment
is stale. -/
theorem Fixture.savedSetups_iff_expiredStore :
    SavedSetups (system {} anything) (start expiredStore) fun db run body students db' =>
      RosterAsRequested db' run body students ↔ NoneStale db run body students :=
  savedSetups_iff {} anything (start expiredStore) ⟨rfl, rfl⟩

end LabGoblin
