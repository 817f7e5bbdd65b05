import LabGoblin.Model.Database
import LabGoblin.Model.Pools
import LabGoblin.Model.Sessions

/-!
# The reconciliation preview

`services/reconciliation_planning_service.py`: what the desktop pools ask for against the VM
records that there are.
-/

set_option autoImplicit false

namespace LabGoblin.Reconciliation

open Interactive

/-- The columns of `desktop_pools` that the preview reads. -/
structure DesktopPool extends Pools.DesktopPool where
  organizationId : ℕ
  maintenanceMode : Bool := false
  enabled : Bool := true
  deriving DecidableEq

/-- The tables that the preview reads. -/
structure Db where
  desktopPools : List DesktopPool
  studentVms : Table StudentVM StudentVM.id
  vmSessions : List Sessions.VMSession

/-- The filter on `organization_id`, which is added where an organization is given. -/
def inScope (organizationId : Option ℕ) (rowOrganizationId : ℕ) : Bool :=
  match organizationId with
  | none => true
  | some id => rowOrganizationId = id

/-- `pool_query.all()` -/
def poolQuery (db : Db) (organizationId : Option ℕ) : List DesktopPool :=
  db.desktopPools.filter fun pool => inScope organizationId pool.organizationId

/-- The rows of `vm_query`. -/
def vmQuery (db : Db) (organizationId : Option ℕ) : List StudentVM :=
  db.studentVms.filter fun vm => inScope organizationId vm.organizationId

/-- The rows of `session_query`. -/
def sessionQuery (db : Db) (organizationId : Option ℕ) : List Sessions.VMSession :=
  db.vmSessions.filter fun row => inScope organizationId row.organizationId

/-- The sum of the sizes of the pools that are enabled and not in maintenance. -/
def desired (pools : List DesktopPool) : ℤ :=
  ((pools.filter fun pool => pool.enabled && !pool.maintenanceMode).map fun pool =>
    max pool.desiredSize 0).sum

/-- The number of sessions that have expired. -/
def stale (sessions : List Sessions.VMSession) : ℕ :=
  (sessions.filter fun row => row.state = .expired).length

/-- `PoolService(self.db).validate_pool_config(p.__dict__)` -/
def errors (pool : DesktopPool) : List String :=
  Pools.validatePoolConfig pool.toDesktopPool

def warnings (pools : List DesktopPool) : ℕ :=
  (pools.map fun pool => (errors pool).length).sum

structure Preview where
  missingDesktops : ℤ
  excessDesktops : ℤ
  stoppedDesktops : ℕ
  unassignedDesktops : ℕ
  staleSessions : ℕ
  invalidPoolConfig : ℕ
  validationWarnings : ℕ
  proposedActions : List String
  deriving DecidableEq

/-- `ReconciliationPlanningService.preview` -/
def preview (db : Db) (organizationId : Option ℕ) : Preview :=
  let pools := poolQuery db organizationId
  let vms := vmQuery db organizationId
  let desired := desired pools
  let current : ℤ := vms.length
  { missingDesktops := max (desired - current) 0
    excessDesktops := max (current - desired) 0
    stoppedDesktops := (vms.filter fun vm => vm.status = .stopped).length
    unassignedDesktops := 0
    staleSessions := stale (sessionQuery db organizationId)
    invalidPoolConfig := (pools.filter fun pool => errors pool ≠ []).length
    validationWarnings := warnings pools
    proposedActions := ["would_validate", "would_cleanup", "would_wait_for_manual_review"] }

end LabGoblin.Reconciliation
