import LabGoblin.Computation.Placeholder
import LabGoblin.Model.Numerals

/-!
# Desktop pools

The checks of `services/pool_service.py` and the plan of `services/pool_planning_service.py`.
-/

set_option autoImplicit false

namespace LabGoblin.Pools

open Interactive.Placeholder LabGoblin.Text

/-- The columns of `desktop_pools` that the checks and the plan read. -/
structure DesktopPool where
  id : ℕ
  name : Text
  poolType : Text
  defaultProtocol : Text
  vlanTag : Option ℤ := none
  vmidStart : Option ℤ := none
  vmidEnd : Option ℤ := none
  namingPattern : Option Text := none
  desiredSize : ℤ := 0
  deriving DecidableEq

def allowedProtocols : List Text :=
  ["SSH_WS".toList, "NOVNC".toList, "SPICE".toList, "RDP".toList]

def allowedPoolTypes : List Text := ["persistent".toList, "non_persistent".toList]

def indexPlaceholder : Text := "{index}".toList
def vmidPlaceholder : Text := "{vmid}".toList

/-- A column that is set and not empty. -/
def truthy (text : Option Text) : Option Text := text.filter fun t => t ≠ []

/-- `if condition: errs.append(message)` -/
def complain (condition : Prop) [Decidable condition] (message : String) : List String :=
  if condition then [message] else []

/-- `PoolService.validate_pool_config` -/
def validatePoolConfig (pool : DesktopPool) : List String :=
  complain (∃ start ∈ pool.vmidStart, ∃ last ∈ pool.vmidEnd, start > last)
      "vmid range invalid" ++
    complain (∃ start ∈ pool.vmidStart, ∃ last ∈ pool.vmidEnd,
        pool.desiredSize > last - start + 1)
      "desired_size exceeds vmid range" ++
    complain (pool.defaultProtocol ∉ allowedProtocols) "protocol not allowed" ++
    complain (pool.poolType ∉ allowedPoolTypes) "pool_type not allowed" ++
    complain (∃ vlan ∈ pool.vlanTag, vlan < 1 ∨ vlan > 4094) "vlan tag must be 1-4094" ++
    complain (∃ pattern ∈ truthy pool.namingPattern,
        ¬ contains indexPlaceholder pattern ∧ ¬ contains vmidPlaceholder pattern)
      "naming_pattern should include \x7bindex\x7d or \x7bvmid\x7d"

structure PoolPlanAction where
  action : String
  detail : Text
  deriving DecidableEq

structure PoolPlanResponse where
  poolId : ℕ
  desiredSize : ℤ
  vmidPreview : List ℤ
  namingPreview : List Text
  warnings : List String
  estimatedActions : List PoolPlanAction
  deriving DecidableEq

/-- `value or default` for a number. -/
def orElse (value : Option ℤ) (default : ℤ) : ℤ :=
  match value with
  | none => default
  | some v => if v = 0 then default else v

/-- `range(start, stop)` -/
def range (start stop : ℤ) : List ℤ :=
  (List.range (stop - start).toNat).map fun (i : ℕ) => start + i

/-- `pool.vmid_start or 0` -/
def planStart (pool : DesktopPool) : ℤ := orElse pool.vmidStart 0

/-- `max(pool.desired_size or 0, 0)` -/
def planSize (pool : DesktopPool) : ℤ := max pool.desiredSize 0

/-- `pool.vmid_end or (start + max(desired - 1, 0))` -/
def planEnd (pool : DesktopPool) : ℤ :=
  orElse pool.vmidEnd (planStart pool + max (planSize pool - 1) 0)

/-- `[i for i in range(start, end + 1)][:desired]` -/
def planVmids (pool : DesktopPool) : List ℤ :=
  (range (planStart pool) (planEnd pool + 1)).take (planSize pool).toNat

/-- The pattern of the pool, or its name with the index. -/
def planPattern (pool : DesktopPool) : Text :=
  (truthy pool.namingPattern).getD (pool.name ++ "-".toList ++ indexPlaceholder)

/-- The pattern with a number for each placeholder. -/
def spell (pattern : Text) (index vmid : ℤ) : Text :=
  replace vmidPlaceholder (str vmid) (replace indexPlaceholder (str index) pattern)

/-- The names for the identifiers, numbered from one. -/
def planNames (pattern : Text) (vmids : List ℤ) : List Text :=
  vmids.zipIdx.map fun (vmid, i) => spell pattern (i + 1) vmid

/-- The text of the action that would create a VM. -/
def createDetail (vmid : ℤ) (name : Text) : Text :=
  "Would plan VMID ".toList ++ str vmid ++ " (".toList ++ name ++ ")".toList

def estimatedActions (vmids : List ℤ) (names : List Text) : List PoolPlanAction :=
  [⟨"would_validate_template", "Template fields would be validated".toList⟩,
    ⟨"would_check_storage", "Storage target would be checked for availability assumptions".toList⟩,
    ⟨"would_check_bridge", "Bridge/network settings would be validated".toList⟩] ++
  List.zipWith (fun vmid name => ⟨"would_create_vm", createDetail vmid name⟩) vmids names

/-- `PoolPlanningService.build_plan` -/
def buildPlan (pool : DesktopPool) : PoolPlanResponse :=
  let vmids := planVmids pool
  let names := planNames (planPattern pool) vmids
  { poolId := pool.id
    desiredSize := planSize pool
    vmidPreview := vmids
    namingPreview := names
    warnings := validatePoolConfig pool
    estimatedActions := estimatedActions vmids names }

end LabGoblin.Pools
