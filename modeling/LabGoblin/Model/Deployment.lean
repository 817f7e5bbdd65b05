import LabGoblin.Model.LabSetup

/-!
# The deployed system

Every request of the API and every turn of a worker as a process of one system: any number
of them at once, each cut off anywhere by a crash, with the rest of the application acting
in between.
-/

set_option autoImplicit false

namespace LabGoblin

open Interactive

/-- Run an action for its effects. -/
def discard {α : Type} (action : Action α) : Action Unit := do
  let _ ← action
  return ()

/-- The program that a request runs. -/
def program (settings : Settings) : Request → Action Unit
  | .listVms caller => discard (listVms caller)
  | .createVm caller payload => discard (createVm caller payload)
  | .vmPower caller vm action => discard (vmPower caller vm action)
  | .refreshVmStatus caller vm => refreshVmStatus caller vm
  | .deleteVmRecord caller vm confirmation => discard (deleteVmRecord caller vm confirmation)
  | .deleteAppRecordAdmin caller vm => deleteAppRecordAdmin caller vm
  | .reconcileVms caller => discard (reconcileVms caller)
  | .createLabRun caller payload => discard (createLabRun caller payload)
  | .changeLabRunState caller run action confirmation =>
      discard (changeLabRunState caller run action confirmation)
  | .createRunAssignment caller run payload => discard (createRunAssignment caller run payload)
  | .bulkCreateRunAssignments caller run slots =>
      discard (bulkCreateRunAssignments caller run slots)
  | .bulkVmAction caller run action => bulkVmAction caller run action
  | .revokeRunAssignment caller run assignment => revokeRunAssignment caller run assignment
  | .createSetup caller payload => discard (writeSetup settings caller none payload)
  | .editSetup caller run payload => discard (writeSetup settings caller (some run) payload)
  | .operationWorker workerId => discard (operationWorker settings workerId)
  | .cleanupWorker => discard cleanupWorker
  | .reconciliationWorker => reconciliationWorker

/-- How many processes were started so far. -/
def started : List Entry → ℕ
  | [] => 0
  | .enter _ _ :: log => started log + 1
  | _ :: log => started log

/-- Start a process. -/
def Sys.enter {H : Type} (r : Request) (t : Sys H) : Sys H :=
  { t with log := .enter (started t.log) r :: t.log }

/-- End a process: its session is closed, which rolls back what is open. -/
def Sys.leave {H : Type} (p : Pid) (t : Sys H) : Sys H :=
  { t with store := t.store.release p, log := .leave p :: t.log }

/-- The deployed system, for given settings and a given outside. -/
def system {H : Type} (settings : Settings) (outside : Outside H) :
    System Api (Sys H) Request where
  machine := machine outside
  program := program settings
  admits := fun _ _ => True
  next := fun t => started t.log
  enter := Sys.enter
  leave := Sys.leave
  env := fun t t' => t.store.Environment t'.store ∧ t'.log = t.log

/-- A state in which nothing has happened yet and nobody holds a lock. -/
structure Sys.Initial {H : Type} (t : Sys H) : Prop where
  log : t.log = []
  locks : t.store.locks = []

end LabGoblin
