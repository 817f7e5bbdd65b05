import LabGoblin.Analysis.TenancySetup

/-!
# Runs keep tenancy

Every program of the deployed system keeps to the discipline of tenancy, so every run does, as long
as the rest of the application keeps tenancy too.
-/

set_option autoImplicit false

namespace LabGoblin

open Interactive

section Runs

variable {H : Type} {settings : Settings} {outside : Outside H} {p : Pid} {t : Sys H}

/-! ## Requests that only update rows -/

/-- The request inserts no row and gives none another row to refer to. -/
def Request.updates : Request → Bool
  | .listVms _ => true
  | .refreshVmStatus _ _ => true
  | .deleteAppRecordAdmin _ _ => true
  | .revokeRunAssignment _ _ _ => true
  | .operationWorker _ => true
  | .reconcileVms _ => true
  | .reconciliationWorker => true
  | _ => false

/-- What the operation worker writes refers to nothing new. -/
theorem Write.ByWorker.belongs {w : Write} {ws : List Write} (h : w.ByWorker p t ws) :
    w.Belongs p t ws := by
  cases w with
  | vm w => cases w <;> first | exact trivial | exact h.elim
  | assignment w => cases w <;> first | exact trivial | exact h.elim
  | operation w => cases w <;> first | exact trivial | exact h.elim
  | _ => exact h.elim

/-- A refresh of a record refers to no other row. -/
theorem Write.ofRefresh.belongs {w : Write} {ws : List Write} (h : w.ofRefresh) :
    w.Belongs p t ws := by
  cases w with
  | vm w => cases w <;> first | exact trivial | exact h.elim
  | _ => exact h.elim

/-- Archiving a record refers to no other row. -/
theorem Write.archives.belongs {vm : ℕ} {w : Write} {ws : List Write} (h : w.archives vm) :
    w.Belongs p t ws := by
  cases w with
  | vm w => cases w <;> first | exact trivial | exact h.elim
  | assignment w => cases w <;> first | exact trivial | exact h.elim
  | _ => exact h.elim

/-- What such a request writes belongs together. -/
theorem Request.updates_belongs {r : Request} (hr : r.updates = true) {w : Write}
    {ws : List Write} (h : r.conducts p t ws w) : w.Belongs p t ws := by
  cases r with
  | listVms caller => exact (Write.ofRefresh.belongs h.1)
  | refreshVmStatus caller vm => exact (Write.ofRefresh.belongs h.1)
  | reconcileVms caller => exact (Write.ofRefresh.belongs h.1)
  | reconciliationWorker => exact (Write.ofRefresh.belongs h.1)
  | deleteAppRecordAdmin caller vm => exact (Write.archives.belongs h.1)
  | revokeRunAssignment caller run a =>
    have hw : w = .assignment (.status a .revoked) := h.1
    rw [hw]
    trivial
  | operationWorker workerId => exact (Write.ByWorker.belongs h)
  | _ => cases hr

/-! ## All requests -/

-- The checks of a body are not to be computed when a setup program meets its rule.
attribute [local irreducible] validateChoices in
/-- Every program keeps tenancy. -/
theorem wp_program_tenancy (r : Request) (ht : Entry.enter p r ∈ t.log) :
    wp ((tenancy settings outside).contract p) (program settings r) (fun _ _ => True) t := by
  by_cases hr : r.updates = true
  · exact wp_belongs _ (fun ws t h w hw => Request.updates_belongs hr (h w hw)) ht
  · cases r with
    | createVm caller payload => exact wp_discard wp_createVm_tenancy
    | vmPower caller vm action => exact wp_discard wp_vmPower_tenancy
    | deleteVmRecord caller vm confirmation => exact wp_discard wp_deleteVmRecord_tenancy
    | createLabRun caller payload => exact wp_discard wp_createLabRun_tenancy
    | changeLabRunState caller run action confirmation =>
      exact wp_discard wp_changeLabRunState_tenancy
    | createRunAssignment caller run payload => exact wp_discard wp_createRunAssignment_tenancy
    | bulkCreateRunAssignments caller run slots =>
      exact wp_discard wp_bulkCreateRunAssignments_tenancy
    | bulkVmAction caller run action => exact wp_bulkVmAction_tenancy
    | createSetup caller payload => exact wp_discard wp_writeSetup_tenancy
    | editSetup caller run payload => exact wp_discard wp_writeSetup_tenancy
    | cleanupWorker => exact wp_discard wp_cleanupWorker_tenancy
    | _ => exact absurd rfl hr

/-- The discipline of tenancy is sound. -/
theorem tenancy_sound (settings : Settings) (outside : Outside H) :
    (tenancy settings outside).Sound :=
  (conductTenable_sound settings outside).uphold tenancy_upholds
    fun r _ _ _ _ => wp_program_tenancy r List.mem_cons_self

/-! ## What the system and the rest of the application keep to -/

/-- What holds of a world in which the conduct of the system and tenancy are kept. -/
structure InTenancy (settings : Settings) (outside : Outside H) (w : World Api (Sys H)) : Prop where
  conduct : (conductTenable settings outside).Holds w
  tenancy : (tenancy settings outside).Holds w

/-- In a world that keeps tenancy everything belongs together. -/
theorem InTenancy.tenanted {w : World Api (Sys H)} (h : InTenancy settings outside w) :
    Tenanted w.shared := h.tenancy.1.2

/-- An initial state with tenancy keeps it while nothing runs. -/
theorem InTenancy.idle (ht : t.Initial) (hdb : t.store.db.Tenancy) :
    InTenancy settings outside (World.idle t) := by
  have hlogged : WellLogged t.log := by
    rw [ht.log]
    exact wellLogged_nil
  exact ⟨Discipline.holds_idle hlogged, Discipline.holds_idle ⟨hlogged, hdb.tenanted ht⟩⟩

/-- One step keeps to it, and is one that everybody reckons with. -/
theorem InTenancy.step {w w' : World Api (Sys H)} (h : InTenancy settings outside w)
    (hs : World.Step (conductTenable settings outside).sys w w') :
    InTenancy settings outside w' ∧ Extends w.shared w'.shared := by
  have hconduct := conductTenable_sound settings outside
  refine ⟨⟨hconduct.holds_step h.conduct hs, ?_⟩, ?_⟩
  · exact (tenancy_sound settings outside).holds_step h.tenancy
      (hconduct.step_allowed h.conduct hs)
  · exact hconduct.rely_of_step tenancy_upholds h.conduct h.tenancy hs

end Runs

end LabGoblin
