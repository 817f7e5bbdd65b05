import LabGoblin.Analysis.UpdateCalls

/-!
# When a failed operation leaves the host as it was

The `try` of an operation covers every step from the build to the start of the new version, so a
failure there is undone. What can go wrong comes after: the cleanup of the worktree raises although
the operation succeeded, a rollback writes its state outside the `try`, and a state write may fail
after it has replaced the file.
-/

set_option autoImplicit false

namespace LabGoblin.Updater

open Raising

variable {D : Type} {settings : Settings} {env : Environment D} {h : Host D}

/-- Whenever the operation raises and no recovery has failed, the version, the database and what
a rollback goes by are as before. -/
def Restores {α : Type} (operation : M D α) (h : Host D) : Prop :=
  ∀ e t, operation h = .error e t → Undone h t

/-- If every step of the update before its state write succeeds: the cleanup does not fail after a
state write that succeeded, and one that failed after it replaced the file wrote what was there. -/
def UpdateCompletes (settings : Settings) (env : Environment D) (payload : Payload) (h : Host D) :
    Prop :=
  ∀ target, Installs settings env payload h target →
    (env.fails .forward .writeState = false → env.fails .forward .worktreeRemove = false) ∧
      (env.fails .forward .writeState = true → env.replaced = true →
        Recovers env (some (backupPath h.checkout env.stamp)) →
        h.state.metadata = (h.updateState env target).metadata)

/-- If every step in the `try` of the rollback succeeds: neither the cleanup nor the state write
fails, or the rollback made no difference. -/
def RollbackCompletes (env : Environment D) (h : Host D) : Prop :=
  ∀ backup target contents, Restarts env h backup target contents →
    (env.fails .forward .worktreeRemove = false ∧ env.fails .forward .writeState = false) ∨
      (target = h.checkout ∧ env.activity contents = h.database ∧
        (env.fails .forward .worktreeRemove = false → env.replaced = true →
          h.state.metadata = (h.rollbackState env target).metadata))

/-! ## Updates -/

/-- Under this condition an update that fails leaves the host as it was. -/
theorem restores_of_updateCompletes {payload : Payload}
    (hc : UpdateCompletes settings env payload h) :
    Restores (applyUpdate settings env payload) h := by
  intro e t hrun hop
  rcases (ends_applyUpdate h payload).of_error hrun with ⟨-, hundo⟩ | ⟨target, hi, hcases⟩
  · exact hundo hop
  obtain ⟨hcleanup, hwritten⟩ := hc target hi
  rcases hcases with ⟨hw, hr, -⟩ | ⟨hw, hrecovered, hfailed⟩
  · rw [hcleanup hw] at hr
    cases hr
  · by_cases hrecovers : Recovers env (some (backupPath h.checkout env.stamp))
    · obtain ⟨hcheckout, hdatabase, hstate, -⟩ := hrecovered hrecovers
      refine ⟨hcheckout, hdatabase, ?_⟩
      rw [hstate]
      by_cases hreplaced : env.replaced = true
      · rw [if_pos hreplaced]
        exact (hwritten hw hreplaced hrecovers).symm
      · rw [if_neg hreplaced]
    · rw [hfailed hrecovers] at hop
      cases hop

/-- An update that always leaves the host as it was when it fails meets the condition. -/
theorem updateCompletes_of_restores {payload : Payload} (hop : h.needsOperator = false)
    (hrestores : Restores (applyUpdate settings env payload) h) :
    UpdateCompletes settings env payload h := by
  intro target hi
  have hends : Ends (applyUpdate settings env payload) h _ _ := ends_applyUpdate h payload
  cases hrun : applyUpdate settings env payload h with
  | ok r t =>
    rcases hends.of_ok hrun with ⟨hnot, -⟩ | ⟨_, -, hw, hr, -⟩
    · exact absurd hi (hnot target)
    · refine ⟨fun _ => hr, fun hfail => ?_⟩
      rw [hw] at hfail
      cases hfail
  | error e t =>
    have hundo : Undone h t := hrestores e t hrun
    rcases hends.of_error hrun with ⟨hnot, -⟩ | ⟨target', hi', hcases⟩
    · exact absurd hi (hnot target)
    obtain rfl := hi.unique hi'
    rcases hcases with ⟨hw, hr, rfl⟩ | ⟨hw, hrecovered, -⟩
    -- the new version is checked out, although the call raises
    · exact absurd (hundo hop).checkout.symm hi.newer
    · refine ⟨fun hok => ?_, fun _ hreplaced hrecovers => ?_⟩
      · rw [hw] at hok
        cases hok
      · obtain ⟨-, -, hstate, hneeds⟩ := hrecovered hrecovers
        rw [if_pos hreplaced] at hstate
        have hmetadata := (hundo (hneeds.trans hop)).metadata
        rw [hstate] at hmetadata
        exact hmetadata.symm

/-! ## Rollbacks -/

/-- Under this condition a rollback that fails leaves the host as it was. -/
theorem restores_of_rollbackCompletes (hc : RollbackCompletes env h) :
    Restores (rollbackUpdate env) h := by
  intro e t hrun hop
  have hends := (ends_rollbackUpdate h).of_error hrun
  rcases hends with ⟨-, hundo⟩ | ⟨backup, target, contents, hr, hcases⟩
  · exact hundo hop
  rcases hc backup target contents hr with ⟨hremoved, hw⟩ | ⟨htarget, hdatabase, hwritten⟩
  · rcases hcases with ⟨hfail, -⟩ | ⟨-, hfail, -⟩
    · rw [hremoved] at hfail
      cases hfail
    · rw [hw] at hfail
      cases hfail
  · rcases hcases with ⟨-, rfl⟩ | ⟨hremoved, -, rfl⟩
    · exact ⟨htarget, hdatabase, rfl⟩
    · refine ⟨htarget, hdatabase, ?_⟩
      cases hreplaced : env.replaced with
      | false => rfl
      | true => exact (hwritten hremoved hreplaced).symm

/-- A rollback that always leaves the host as it was when it fails meets the condition. -/
theorem rollbackCompletes_of_restores (hop : h.needsOperator = false)
    (hrestores : Restores (rollbackUpdate env) h) : RollbackCompletes env h := by
  intro backup target contents hr
  have hends : Ends (rollbackUpdate env) h _ _ := ends_rollbackUpdate h
  cases hrun : rollbackUpdate env h with
  | ok r t =>
    obtain ⟨_, _, _, -, hremoved, hw, -⟩ := hends.of_ok hrun
    exact .inl ⟨hremoved, hw⟩
  | error e t =>
    have hundo : Undone h t := hrestores e t hrun
    rcases hends.of_error hrun with ⟨hnot, -⟩ | ⟨backup', target', contents', hr', hcases⟩
    · exact absurd hr (hnot backup target contents)
    obtain ⟨rfl, rfl⟩ := hr.unique hr'
    rcases hcases with ⟨hfail, rfl⟩ | ⟨-, -, rfl⟩
    · have hsame := hundo hop
      refine .inr ⟨hsame.checkout, hsame.database, fun hremoved => ?_⟩
      rw [hfail] at hremoved
      cases hremoved
    · have hsame := hundo hop
      refine .inr ⟨hsame.checkout, hsame.database, fun _ hreplaced => ?_⟩
      have hmetadata := hsame.metadata
      rw [hreplaced] at hmetadata
      exact hmetadata.symm

/-- A call that raises leaves the version, the database and what a rollback goes by as they were,
unless a recovery has failed, exactly when nothing fails after the steps that recovery covers. -/
theorem updater_atomicity (settings : Settings) (env : Environment D) (h : Host D)
    (hop : h.needsOperator = false) :
    (∀ payload, Restores (applyUpdate settings env payload) h ↔
      UpdateCompletes settings env payload h) ∧
      (Restores (rollbackUpdate env) h ↔ RollbackCompletes env h) := by
  refine ⟨fun payload => ⟨?_, ?_⟩, ?_, ?_⟩
  · exact updateCompletes_of_restores hop
  · exact restores_of_updateCompletes
  · exact rollbackCompletes_of_restores hop
  · exact restores_of_rollbackCompletes

namespace Fixture

def old : String := "aaaaaaaaaaaaaaaaaaaaaaaaaaaaaaaaaaaaaaaa"

def new : String := "bbbbbbbbbbbbbbbbbbbbbbbbbbbbbbbbbbbbbbbb"

/-- The version `new` was installed over `old`, whose database was dumped as 1. -/
def host : Host ℕ where
  checkout := new
  database := 2
  dumps path := if path = backupPath old "20260101T000000Z" then some 1 else none
  state := { previousVersion := some old
             currentVersion := some new
             backupPath := some (backupPath old "20260101T000000Z") }
  needsOperator := false

/-- The disk is full when the rollback writes its state. -/
def fullDisk : Environment ℕ where
  git := ⟨"", some, fun _ _ => true⟩
  fails phase c := phase = .forward && c = .writeState
  halfCheckedOut _ := old
  halfRestored _ := 0
  replaced := false
  activity n := n
  now := 0
  stamp := "20260102T000000Z"

/-- The database and version that a rollback whose state write fails leaves are the old ones. -/
theorem fullDisk_not_restored : ¬ Restores (rollbackUpdate fullDisk) host := by
  intro hrestores
  have hplay : (match rollbackUpdate fullDisk host with
      | .ok _ _ => false
      | .error _ t => !t.needsOperator && t.checkout = old) = true := by
    decide +kernel
  cases hrun : rollbackUpdate fullDisk host with
  | ok r t =>
    rw [hrun] at hplay
    cases hplay
  | error e t =>
    rw [hrun] at hplay
    simp only [Bool.and_eq_true, Bool.not_eq_true', decide_eq_true_eq] at hplay
    have hsame := hrestores e t hrun hplay.1
    have hnew : t.checkout = new := hsame.checkout
    rw [hplay.2] at hnew
    exact absurd hnew (by decide)

/-- On a full disk a rollback leaves the host as it was exactly if it meets the condition. -/
theorem updater_atomicity_host :
    host.needsOperator = false ∧
      (Restores (rollbackUpdate fullDisk) host ↔ RollbackCompletes fullDisk host) :=
  ⟨rfl, (updater_atomicity ⟨"", false, 3600⟩ fullDisk host rfl).2⟩

end Fixture

end LabGoblin.Updater
