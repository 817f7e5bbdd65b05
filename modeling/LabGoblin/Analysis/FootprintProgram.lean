import LabGoblin.Analysis.FootprintLabSetup

/-!
# The footprint of the requests that search for no VM

What the classroom endpoints and the cleanup worker write follows from their text alone. The
requests that write about a VM record they have found are the subject of the module on
grounds, and the operation worker that of the modules on conduct.
-/

set_option autoImplicit false

namespace LabGoblin

open Interactive

/-- The requests whose writes need no other ground than the table. -/
def Request.isPlain : Request → Bool
  | .createLabRun _ _ => true
  | .changeLabRunState _ _ _ _ => true
  | .createRunAssignment _ _ _ => true
  | .bulkCreateRunAssignments _ _ _ => true
  | .revokeRunAssignment _ _ _ => true
  | .createSetup _ _ => true
  | .editSetup _ _ _ => true
  | .cleanupWorker => true
  | _ => false

-- The checks of a body are not to be computed when a setup program meets its rule.
attribute [local irreducible] validateChoices in
/-- The program of a plain request keeps to the table. -/
theorem keeps_program (settings : Settings) (r : Request) (hr : r.isPlain = true) :
    Keeps r.mayWrite r.mayCall (fun _ => True) (program settings r) := by
  have hK : ∀ c : Call, c.mutating = false → r.mayCall c := by
    intro c hc hm
    rw [hc] at hm
    cases hm
  have hdiscard : ∀ {α : Type} {p : Action α}, Keeps r.mayWrite r.mayCall (fun _ => True) p →
      Keeps r.mayWrite r.mayCall (fun _ => True) (discard p) := by
    intro α p hp
    unfold discard
    rw [keeps_bind]
    exact hp
  cases r with
  | createLabRun caller payload => exact hdiscard (keeps_createLabRun caller payload)
  | changeLabRunState caller run action confirmation =>
    exact hdiscard (keeps_changeLabRunState caller run action confirmation)
  | createRunAssignment caller run payload =>
    exact hdiscard (keeps_createRunAssignment caller run payload)
  | bulkCreateRunAssignments caller run slots =>
    exact hdiscard (keeps_bulkCreateRunAssignments caller run slots)
  | revokeRunAssignment caller run assignment =>
    exact keeps_revokeRunAssignment caller run assignment
  | createSetup caller payload => exact hdiscard (keeps_writeSetup settings caller none payload)
  | editSetup caller run payload =>
    exact hdiscard (keeps_writeSetup settings caller (some run) payload)
  | cleanupWorker => exact hdiscard (keeps_cleanupWorker hK)
  | _ => cases hr

end LabGoblin
