import LabGoblin.Computation.Double
import LabGoblin.Model.Operations

/-!
# The virtual machine endpoints

`api/routers/vms.py` with `services/placement.py`, and the reconciliation worker, which
refreshes VM statuses the way the list endpoint does.
-/

set_option autoImplicit false

namespace LabGoblin

open Interactive

/-! ## The caller -/

/-- `get_user_from_token` for an authentic token of the user, and `get_current_user`. -/
def currentUser (db : Db) (caller : Caller) : Except Exc User :=
  match db.users.get? caller.userId with
  | none => .error (.http 401 "Invalid token")
  | some user =>
    if !user.isActive then .error (.http 403 "User account is disabled")
    else if user.forcePasswordChange then .error (.http 403 "Password change required")
    else .ok user

/-- The dependencies `get_current_user` and `get_current_organization`. -/
def currentCaller (caller : Caller) : Action (User × OrganizationContext) := do
  let s ← select
  let user ← check (currentUser s.db caller)
  let organization ← check (resolveOrganizationContext s.db user caller.organizationId)
  return (user, organization)

/-- The dependencies of an endpoint with `require_organization_role("instructor")`. -/
def currentInstructor (caller : Caller) : Action (User × OrganizationContext) := do
  let (user, organization) ← currentCaller caller
  check (enforceOrganizationRole organization .instructor)
  return (user, organization)

/-- `_get_vm_for_user` -/
def findVmForUser (user : User) (vmId : ℕ) (organization : OrganizationContext)
    (operation : VmAccess) : Action StudentVM := do
  let s ← Program.run (G := Api) (.select (.scopedVm vmId user.id organization))
  check (getVmForUser s.db s.clock user vmId organization operation)

/-! ## Placement -/

/-- `_is_online` -/
def ProxmoxNode.isOnline (node : ProxmoxNode) : Bool :=
  node.status = some .online || node.status = some .up

/-- `_to_float` of a number or of nothing. A number too large for a double raises `OverflowError`,
which gives the default. -/
def toFloat (v : Option ℚ) (default : ℚ) : ℚ := (v.bind Double.ofRat?).getD default

/-- `mem_free` of `_score` -/
def memFree (memoryTotal memoryUsed : Option ℚ) : Double.Value :=
  max (Double.round (toFloat memoryTotal 0 - toFloat memoryUsed 0)) (Double.finite 0)

/-- `cpu_ratio` of `_score`; a node without CPUs counts as fully loaded. -/
def cpuRatio (cpuTotal cpuUsed : Option ℚ) : Double.Value :=
  if 0 < toFloat cpuTotal 1 then Double.round (toFloat cpuUsed 0 / toFloat cpuTotal 1)
  else Double.finite 1

/-- The sort key `_score`: free memory, the CPU load as a fraction, running VMs, name. -/
structure Score where
  memFree : Double.Value
  cpuRatio : Double.Value
  runningVms : ℕ
  name : String

/-- An integer column as a number. -/
def rational (column : Option ℕ) : Option ℚ := column.map Nat.cast

/-- `_score` -/
def score (node : ProxmoxNode) (runningVms : ℕ) : Score where
  memFree := memFree (rational node.memoryTotal) (rational node.memoryUsed)
  cpuRatio := cpuRatio (rational node.cpuTotal) (rational node.cpuUsed)
  runningVms := runningVms
  name := node.nodeName

/-- The order of the sort keys: more free memory first, then less load, then fewer running
VMs, then the name. -/
def Score.before (a b : Score) : Bool :=
  if a.memFree ≠ b.memFree then b.memFree < a.memFree
  else if a.cpuRatio ≠ b.cpuRatio then a.cpuRatio < b.cpuRatio
  else if a.runningVms ≠ b.runningVms then a.runningVms < b.runningVms
  else a.name < b.name

/-- `sorted(online_nodes, key=...)[0]` -/
def bestNode (runningVms : String → ℕ) : List ProxmoxNode → Option ProxmoxNode
  | [] => none
  | node :: nodes =>
    match bestNode runningVms nodes with
    | none => some node
    | some best =>
      if (score best (runningVms best.nodeName)).before (score node (runningVms node.nodeName)) then
        some best
      else some node

/-- `choose_cluster_node`: the node and the reason. -/
def chooseClusterNode (nodes : List ProxmoxNode) (runningVms : String → ℕ)
    (policy : PlacementPolicy) (defaultNode : Option String) (allowedNodes : List String) :
    Except String (String × String) :=
  let online := nodes.filter fun n => n.isOnline && allowedNodes.contains n.nodeName
  let isOnline := fun name => online.any fun n => n.nodeName = name
  match bestNode runningVms online with
  | none => .error "No online Proxmox nodes are available for placement."
  | some best =>
    match policy, defaultNode with
    | .manual, none => .error "Placement policy manual requires a configured default node."
    | .manual, some node =>
      if isOnline node then .ok (node, "manual default node")
      else
        .error (s!"Placement policy manual selected {node}, " ++
          "but that node is offline or unavailable.")
    | .preferDefaultThenBalance, some node =>
      if isOnline node then .ok (node, "preferred default node is online")
      else .ok (best.nodeName, "balanced selection based on memory/cpu/running-vm load")
    | _, _ => .ok (best.nodeName, "balanced selection based on memory/cpu/running-vm load")

/-- A text that is not blank. -/
def nonblank (text : Option String) : Option String :=
  text.filter fun t => t ≠ ""

/-- `allowed_nodes & storage_nodes`, where a default storage is configured. -/
def withStorage (cluster : ProxmoxCluster) (storage : Option String) (allowed : List String) :
    Action (List String) :=
  match storage with
  | none => return allowed
  | some storage => do
    let rows ← await (.discoverStorage cluster.id)
    let nodes := (rows.filter fun r => r.storage = some storage && r.active).map
      DiscoveredStorage.node
    let allowed := allowed.filter nodes.contains
    raiseIf (allowed = []) (.http 409
      "No online Proxmox node has the requested storage/template combination.")
    return allowed

/-- `allowed_nodes & bridge_nodes`, where a default bridge is configured. -/
def withBridge (cluster : ProxmoxCluster) (bridge : Option String) (allowed : List String) :
    Action (List String) :=
  match bridge with
  | none => return allowed
  | some bridge => do
    let rows ← await (.discoverNetworks cluster.id)
    let nodes := (rows.filter fun r => r.bridge = some bridge).map DiscoveredNetwork.node
    let allowed := allowed.filter nodes.contains
    raiseIf (allowed = []) (.http 409
      s!"No eligible node has required bridge {bridge} for template placement.")
    return allowed

/-- The placement part of `create_vm`: the node and the reason. -/
def placeVm (cluster : ProxmoxCluster) (template : VMTemplate) : Action (String × String) := do
  let s ← select
  let defaults := s.db.proxmoxClusterDefaults.first fun d => d.clusterId = cluster.id
  let defaultNode := nonblank (defaults.bind ProxmoxClusterDefault.defaultNode)
  let policy := (defaults.bind ProxmoxClusterDefault.placementPolicy).getD
    (if defaultNode.isSome then .preferDefaultThenBalance else .balanced)
  let nodes := s.db.proxmoxNodes.filter fun n => n.clusterId = cluster.id
  let runningVms := fun name =>
    (s.db.studentVms.filter fun vm => vm.proxmoxNode = name && vm.status = .running).length
  let templates ← await (.discoverTemplates cluster.id)
  let templateNodes := templates.filterMap fun t =>
    if t.vmid = some template.sourceVmid then nonblank t.node else none
  raiseIf (templateNodes = []) (.http 409
    s!"Template VMID {template.sourceVmid} was not found on any online node.")
  let allowed ← withStorage cluster
    (nonblank (defaults.bind ProxmoxClusterDefault.defaultStorage)) templateNodes
  let allowed ← withBridge cluster
    (nonblank (defaults.bind ProxmoxClusterDefault.defaultBridge)) allowed
  match chooseClusterNode nodes runningVms policy defaultNode allowed with
  | .error message => fail (.http 409 message)
  | .ok decision => return decision

/-! ## Creation -/

/-- The checks of `assignment_for_provisioning` after its last query. -/
def provisionable (assignment : LabAssignment) (templateId : ℕ) : Except Exc LabAssignment :=
  if assignment.templateId ≠ templateId then
    .error (.http 422 "Template does not match the classroom assignment")
  else if assignment.studentVmId.isSome ∨ assignment.status = .ready then
    .error (.http 409 "Classroom assignment already has a VM")
  else .ok assignment

/-- `assignment_for_provisioning` -/
def assignmentForProvisioning (assignmentId : Option ℕ) (userId organizationId templateId : ℕ) :
    Action LabAssignment := do
  let id ← orRaise assignmentId (.http 403 "An active classroom assignment is required")
  let s ← Program.run (G := Api) (.lock (.labAssignment id organizationId userId))
  let assignment ← orRaise
    (s.db.labAssignments.first fun a =>
      a.id = id && a.organizationId = organizationId && a.userId = userId)
    (.http 404 "Classroom assignment not found")
  let s ← select
  let run ← orRaise
    ((runInOrganization s.db assignment.labRunId organizationId).filter fun run =>
      assignmentEffectivelyOpen assignment run s.clock)
    (.http 403 "Classroom assignment is not currently active")
  let s ← select
  let _ ← orRaise
    ((labInOrganization s.db run.labId organizationId).filter fun lab =>
      (activeEnrollment s.db lab.classId userId).isSome)
    (.http 403 "An active class enrollment is required")
  check (provisionable assignment templateId)

/-- The assignment `create_vm` provisions: students need one, the other roles have none. -/
def requestedAssignment (user : User) (organization : OrganizationContext)
    (payload : CreateVMRequest) (template : VMTemplate) : Action (Option LabAssignment) := do
  if organization.role = .student then do
    let assignment ← assignmentForProvisioning payload.assignmentId user.id organization.id
      template.id
    return some assignment
  else return none

/-- The template checks of `create_vm`. -/
def enabledTemplate (db : Db) (organizationId templateId : ℕ) : Except Exc VMTemplate :=
  match db.vmTemplates.first fun t => t.id = templateId && t.organizationId = organizationId with
  | none => .error (.http 404 "Template not found")
  | some template =>
    if template.enabled then .ok template else .error (.http 409 "Template is disabled")

/-- The cluster checks of `create_vm`. -/
def activeCluster (db : Db) (template : VMTemplate) : Except Exc ProxmoxCluster :=
  match db.proxmoxClusters.first ProxmoxCluster.isActive with
  | none => .error (.http 409 "No active Proxmox cluster configured")
  | some cluster =>
    if template.proxmoxClusterId = none ∨ template.proxmoxClusterId = some cluster.id then
      .ok cluster
    else .error (.http 409 "Template belongs to a different Proxmox cluster")

/-- What the endpoints that queue an operation answer with. -/
structure VMOperationResponse where
  operationId : ℕ
  state : OperationState
  vmId : ℕ
  message : String

/-- `if assignment: assignment.student_vm_id = vm.id` -/
def linkWrites (assignment : Option LabAssignment) (vmId : ℕ) : List Write :=
  match assignment with
  | some a => [.assignment (.link a.id vmId)]
  | none => []

/-- The second half of `create_vm`: everything after the placement. -/
def provisionVm (user : User) (organization : OrganizationContext) (payload : CreateVMRequest)
    (template : VMTemplate) (assignment : Option LabAssignment) (cluster : ProxmoxCluster)
    (node reason : String) : Action VMOperationResponse := do
  let (vmid, allocated) ← allocateVmid cluster.id
  let id ← draw .studentVms
  let vm : StudentVM := {
    id := id
    organizationId := organization.id
    proxmoxClusterId := some cluster.id
    ownerId := user.id
    templateId := template.id
    vmName := safeVmName user.username payload.labName vmid
    vmid := vmid
    proxmoxNode := node
    status := .provisioning
    deletedAt := none }
  let (operation, queued) ← enqueueOperation
    { organizationId := some organization.id
      requestedBy := some user.id
      operationType := .create
      target := .studentVm id
      payload := { autoStart := some payload.autoStart, placementReason := some reason }
      idempotencyKey := some (.vmCreate id) } []
  commit (allocated ++ [.vm (.insert vm)] ++ linkWrites assignment id ++ queued)
  return {
    operationId := operation.id
    state := operation.state
    vmId := id
    message := s!"Provisioning queued. Placement: {reason} ({node})" }

/-- `create_vm`. The branch `A valid role is required` is unreachable: every role that is
not `student` is at least `instructor`. -/
def createVm (caller : Caller) (payload : CreateVMRequest) : Action VMOperationResponse := do
  let (user, organization) ← currentCaller caller
  let s ← select
  let template ← check (enabledTemplate s.db organization.id payload.templateId)
  let assignment ← requestedAssignment user organization payload template
  let s ← select
  let cluster ← check (activeCluster s.db template)
  let (node, reason) ← placeVm cluster template
  provisionVm user organization payload template assignment cluster node reason

/-! ## Actions -/

def OperationType.label : OperationType → String
  | .create => "Create"
  | .power .start => "Start"
  | .power .stop => "Stop"
  | .power .reboot => "Reboot"
  | .delete => "Delete"
  | .other text => text

/-- `_queue_vm_action` -/
def queueVmAction (vm : StudentVM) (user : User) (organization : OrganizationContext)
    (action : OperationType) : Action VMOperationResponse := do
  let (operation, queued) ← enqueueOperation
    { organizationId := some organization.id
      requestedBy := some user.id
      operationType := action
      target := .studentVm vm.id
      payload := {} } []
  commit queued
  return {
    operationId := operation.id
    state := operation.state
    vmId := vm.id
    message := s!"{action.label} queued" }

/-- `start_vm`, `stop_vm` and `reboot_vm` -/
def vmPower (caller : Caller) (vmId : ℕ) (action : PowerAction) : Action VMOperationResponse := do
  let (user, organization) ← currentCaller caller
  let vm ← findVmForUser user vmId organization (OperationType.power action).access
  queueVmAction vm user organization (.power action)

/-- `delete_vm_record` -/
def deleteVmRecord (caller : Caller) (vmId : ℕ) (confirmation : Confirmation) :
    Action VMOperationResponse := do
  let (user, organization) ← currentCaller caller
  let vm ← findVmForUser user vmId organization .delete
  raiseIf (confirmation ≠ .delete vm.vmid)
    (.http 422 s!"confirmation must equal DELETE {vm.vmid}")
  queueVmAction vm user organization .delete

/-! ## Status refreshes -/

/-- Query a VM's status and observe it. The result is the status to record. -/
def observeVm (vm : StudentVM) (onFault : VmStatus → Exc → Action VmStatus) : Action VmStatus :=
  guarded
    (do
      await (.client vm.proxmoxClusterId)
      let data ← await (.getVmStatus vm.proxmoxClusterId vm.proxmoxNode vm.vmid)
      let status := data.getD vm.status
      guarded
        (do
          await (.observeVm vm.proxmoxClusterId vm.proxmoxNode vm.vmid)
          return status)
        (onFault status))
    (onFault vm.status)

/-- The handler of `refresh` in `list_vms`: a VM that is not found is missing, and any other
fault leaves the status that was recorded. -/
def refreshFault (status : VmStatus) (e : Exc) : Action VmStatus :=
  return if isNotFound e then .missing else status

/-- The refreshes of `list_vms`, whose order is irrelevant to what they write. -/
def refreshVms : List StudentVM → Action (List Write)
  | [] => return []
  | vm :: vms => do
    let status ← observeVm vm refreshFault
    let writes ← refreshVms vms
    return statusWrites vm status ++ writes

/-- The VMs of a student that an active assignment makes visible. -/
def visibleToStudent (user : User) (organization : OrganizationContext) :
    List StudentVM → Action (List StudentVM)
  | [] => return []
  | vm :: vms => do
    let s ← select
    let rest ← visibleToStudent user organization vms
    return if (activeAssignmentForVm s.db s.clock user.id organization.id vm.id).isSome then
      vm :: rest else rest

/-- The rows `list_vms` goes on with. -/
def visibleVms (user : User) (organization : OrganizationContext) (rows : List StudentVM) :
    Action (List StudentVM) :=
  if organization.role = .student then visibleToStudent user organization rows else return rows

/-- `list_vms` -/
def listVms (caller : Caller) : Action (List StudentVM) := do
  let (user, organization) ← currentCaller caller
  let s ← Program.run (G := Api) (.select (.scopedVms user.id organization))
  let rows ← visibleVms user organization
    (s.db.studentVms.filter (vmInScope s.db user.id organization))
  let writes ← refreshVms rows
  commit writes
  return rows

/-- The handler of `refresh_vm_status`. -/
def statusFault (_ : VmStatus) (e : Exc) : Action VmStatus :=
  if isNotFound e then return .missing
  else fail (.http 502 "Unable to query Proxmox VM status")

/-- `refresh_vm_status` -/
def refreshVmStatus (caller : Caller) (vmId : ℕ) : Action Unit := do
  let (user, organization) ← currentCaller caller
  let vm ← findVmForUser user vmId organization .view
  let status ← observeVm vm statusFault
  commit (statusWrites vm status)

/-- One VM of `_reconcile`: a VM without a cluster is left alone. -/
def reconcileVm (vm : StudentVM) : Action VmStatus :=
  match vm.proxmoxClusterId with
  | none => return vm.status
  | some _ =>
    guarded
      (do
        await (.client vm.proxmoxClusterId)
        let live ← await (.getVmStatus vm.proxmoxClusterId vm.proxmoxNode vm.vmid)
        return live.getD vm.status)
      (refreshFault vm.status)

def refreshLiveVms : List StudentVM → Action (List Write)
  | [] => return []
  | vm :: vms => do
    let status ← reconcileVm vm
    let writes ← refreshLiveVms vms
    return statusWrites vm status ++ writes

/-- `_reconcile` -/
def reconcile : Action Unit := do
  let s ← Program.run (G := Api) (.select .liveVms)
  let writes ← refreshLiveVms (s.db.studentVms.filter fun vm => vm.deletedAt.isNone)
  commit writes

/-- `workers/reconciliation_worker.py`: `run_once` -/
def reconciliationWorker : Action Unit := do
  if ← await (.acquireWorkerLock .reconciliation) then do
    guarded reconcile fun e => do
      await (.releaseWorkerLock .reconciliation)
      fail e
    await (.releaseWorkerLock .reconciliation)
  else return ()

/-! ## The reconciliation of an administrator -/

def VmStatus.ofText : String → VmStatus
  | "provisioning" => .provisioning
  | "running" => .running
  | "stopped" => .stopped
  | "error" => .error
  | "missing" => .missing
  | "deleted" => .deleted
  | text => .other text

/-- `status.lower()`, for the ASCII words that Proxmox has for a status. -/
def VmStatus.lower : VmStatus → VmStatus
  | .other text => .ofText text.toLower
  | status => status

/-- `inv_map.get((vm.proxmox_node, int(vm.vmid)))`: of two rows with one key the later counts. -/
def findInventoryVm (inventory : List InventoryVm) (vm : StudentVM) : Option InventoryVm :=
  (inventory.filter fun row =>
    row.node = some vm.proxmoxNode ∧ row.vmid = (vm.vmid : ℤ)).getLast?

/-- The status that `reconcile_vms` gives to a record. One whose text is empty is kept. -/
def reconciledStatus (inventory : List InventoryVm) (vm : StudentVM) : VmStatus :=
  match findInventoryVm inventory vm with
  | none => if vm.status = .missing ∨ vm.status = .error then vm.status else .missing
  | some row =>
    match row.status with
    | none => vm.status.lower
    | some text => if text = "" then vm.status.lower else .ofText text.toLower

/-- The entry of the report on a record. -/
structure ReconciledVm where
  appVmId : ℕ
  inProxmox : Bool
  previousStatus : VmStatus
  newStatus : VmStatus
  deriving DecidableEq, Repr

def reconciledVm (inventory : List InventoryVm) (vm : StudentVM) : ReconciledVm where
  appVmId := vm.id
  inProxmox := (findInventoryVm inventory vm).isSome
  previousStatus := vm.status
  newStatus := reconciledStatus inventory vm

/-- The dependencies of an endpoint with `require_role("Admin")` and an organization. -/
def currentAdmin (caller : Caller) : Action OrganizationContext := do
  let s ← select
  let user ← check (currentUser s.db caller)
  raiseIf (getRoleName s.db user ≠ some .admin) (.http 403 "Forbidden")
  check (resolveOrganizationContext s.db user caller.organizationId)

/-- The query for the active cluster of the reports on Proxmox. -/
def activeProxmoxCluster : Action ProxmoxCluster := do
  let s ← select
  orRaise (s.db.proxmoxClusters.first ProxmoxCluster.isActive)
    (.http 404 "No active Proxmox cluster configured")

/-- `reconcile_vms` of `api/routers/admin_proxmox_setup.py`: `proxmox_inventory_vms` looks for the
active cluster once more. -/
def reconcileVms (caller : Caller) : Action (List ReconciledVm) := do
  let organization ← currentAdmin caller
  let active ← activeProxmoxCluster
  let listed ← activeProxmoxCluster
  let inventory ← await (.inventoryVms listed.id)
  let s ← Program.run (G := Api) (.select (.clusterVms organization.id active.id))
  let rows := s.db.studentVms.filter fun vm => vm.organizationId = organization.id &&
    vm.proxmoxClusterId = some active.id && vm.deletedAt.isNone
  commit (rows.flatMap fun vm => statusWrites vm (reconciledStatus inventory vm))
  return rows.map (reconciledVm inventory)

/-! ## Archiving a record -/

/-- The fresh verification of `delete_app_record_admin` that Proxmox does not know the VM. -/
def verifyNotFound (vm : StudentVM) : Action Unit := do
  let found ← guarded
    (do
      await (.client vm.proxmoxClusterId)
      let _ ← await (.getVmStatus vm.proxmoxClusterId vm.proxmoxNode vm.vmid)
      return true)
    fun e =>
      if isNotFound e then return false
      else fail (.http 502
        ("Unable to verify Proxmox VM state; refusing app-record delete until Proxmox check " ++
          "succeeds"))
  raiseIf (found = true) (.http 409
    "VM still exists in Proxmox; app-record cleanup requires a fresh not-found verification")

/-- `assignment.student_vm_id = None`, and `"assigned"` where the assignment was ready. -/
def archiveWrites : Option LabAssignment → List Write
  | some a => [.assignment (.unlink a.id (if a.status = .ready then some .assigned else none))]
  | none => []

/-- `delete_app_record_admin` -/
def deleteAppRecordAdmin (caller : Caller) (vmId : ℕ) : Action Unit := do
  let (_, organization) ← currentCaller caller
  check (enforceOrganizationRole organization .admin)
  let s ← Program.run (G := Api) (.select (.liveVm vmId organization.id))
  let vm ← orRaise
    (s.db.studentVms.first fun vm =>
      vm.id = vmId && vm.organizationId = organization.id && vm.deletedAt.isNone)
    (.http 404 "App VM record not found")
  verifyNotFound vm
  let s ← select
  let now ← utcnow
  commit (archiveWrites (assignmentOfVm s.db vm.id) ++ [.vm (.tombstone vm.id now)])

end LabGoblin
