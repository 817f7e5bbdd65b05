import LabGoblin.Model.Database

/-!
# Who may do what

The pure decisions of `services/rbac.py`, `services/organization_access.py`,
`services/classroom_access.py`, `services/console_access.py` and of the authorization part of
`services/operation_service.py`, each as a function of the database state its `SELECT`s
see and of the current instant.
-/

set_option autoImplicit false

namespace LabGoblin

open Interactive

/-- The exceptions the modelled code raises or lets pass. -/
inductive Exc where
  /-- `OperationAuthorizationError` -/
  | authorization (message : String)
  /-- `fastapi.HTTPException` -/
  | http (status : ℕ) (detail : String)
  /-- `httpx.HTTPStatusError`, whose response has a status code -/
  | httpStatus (code : ℕ) (message : String)
  /-- any other `httpx.HTTPError` -/
  | transport (message : String)
  | runtime (message : String)
  | timeout (message : String)
  | integrity
  | other (message : String)
  deriving DecidableEq, Repr

/-- `str(exc)` -/
def Exc.message : Exc → String
  | .authorization m => m
  | .http status detail => s!"{status}: {detail}"
  | .httpStatus _ m => m
  | .transport m => m
  | .runtime m => m
  | .timeout m => m
  | .integrity => "IntegrityError"
  | .other m => m

/-- `_is_not_found` -/
def isNotFound : Exc → Bool
  | .httpStatus code _ => code = 404
  | _ => false

/-! ## Roles -/

/-- `get_role_name`: the role of the relationship, where it is a known one. -/
def getRoleName (db : Db) (user : User) : Option PlatformRole :=
  match db.roles.get? user.roleId with
  | some { name := .known role, .. } => some role
  | _ => none

/-- `ROLE_RANK` -/
def OrganizationRole.rank : OrganizationRole → ℕ
  | .student => 0
  | .instructor => 1
  | .admin => 2
  | .owner => 3

structure OrganizationContext where
  id : ℕ
  slug : String
  role : OrganizationRole
  breakGlass : Bool := false
  deriving DecidableEq, Repr

/-- `organization_role_at_least` -/
def organizationRoleAtLeast (context : OrganizationContext) (minimum : OrganizationRole) : Bool :=
  minimum.rank ≤ context.role.rank

def OrganizationRole.text : OrganizationRole → String
  | .student => "student"
  | .instructor => "instructor"
  | .admin => "admin"
  | .owner => "owner"

/-- `enforce_organization_role` -/
def enforceOrganizationRole (context : OrganizationContext) (minimum : OrganizationRole) :
    Except Exc Unit :=
  if organizationRoleAtLeast context minimum then .ok ()
  else .error (.http 403 s!"Organization role {minimum.text} or higher is required")

/-- The `Organization` query both validators and the context resolution make. -/
def enabledOrganization (db : Db) (id : ℕ) : Option Organization :=
  db.organizations.first fun o => o.id = id && o.enabled

/-- `get_active_membership` -/
def getActiveMembership (db : Db) (userId organizationId : ℕ) : Option OrganizationMembership :=
  db.organizationMemberships.first fun m =>
    m.userId = userId && m.organizationId = organizationId && m.isActive

/-- `resolve_organization_context` -/
def resolveOrganizationContext (db : Db) (user : User) (requested : Option ℕ) :
    Except Exc OrganizationContext :=
  match requested with
  | some requestedId =>
    match enabledOrganization db requestedId with
    | none => .error (.http 404 "Organization not found")
    | some organization =>
      if getRoleName db user = some .admin then
        .ok ⟨organization.id, organization.slug, .owner, true⟩
      else
        match getActiveMembership db user.id organization.id with
        | none => .error (.http 403 "Organization access denied")
        | some membership => .ok ⟨organization.id, organization.slug, membership.role, false⟩
  | none =>
    let valid := db.organizationMemberships.rows.filterMap fun m =>
      if m.userId = user.id && m.isActive then
        (enabledOrganization db m.organizationId).map fun organization => (m, organization)
      else none
    match valid with
    | [(membership, organization)] =>
      .ok ⟨organization.id, organization.slug, membership.role, false⟩
    | _ :: _ :: _ =>
      .error (.http 400 "X-Organization-ID is required for users with multiple organizations")
    | [] =>
      if getRoleName db user = some .admin then
        .error (.http 400 "X-Organization-ID is required for platform administrators")
      else .error (.http 403 "No active organization membership")

/-! ## Classroom windows -/

/-- `run_effectively_open` -/
def runEffectivelyOpen (run : LabRun) (now : Time) : Bool :=
  (run.state = .scheduled || run.state = .active) &&
    run.startsAt.all (fun startsAt => startsAt ≤ now) &&
    run.endsAt.all (fun endsAt => now < endsAt)

/-- The statuses under which an assignment is in use. -/
def AssignmentStatus.live (s : AssignmentStatus) : Bool :=
  s = .assigned || s = .ready

/-- `assignment_effectively_open` -/
def assignmentEffectivelyOpen (assignment : LabAssignment) (run : LabRun) (now : Time) : Bool :=
  assignment.status.live && assignment.expiresAt.all (fun expiresAt => now < expiresAt) &&
    runEffectivelyOpen run now

/-- The run of an assignment, in the organization the query asks for. -/
def runInOrganization (db : Db) (runId organizationId : ℕ) : Option LabRun :=
  db.labRuns.first fun r => r.id = runId && r.organizationId = organizationId

def labInOrganization (db : Db) (labId organizationId : ℕ) : Option Lab :=
  db.labs.first fun l => l.id = labId && l.organizationId = organizationId

def activeEnrollment (db : Db) (classId userId : ℕ) : Option Enrollment :=
  db.enrollments.first fun e => e.classId = classId && e.userId = userId && e.isActive

/-- `active_assignment_for_vm` -/
def activeAssignmentForVm (db : Db) (now : Time) (userId organizationId vmId : ℕ) :
    Option (LabAssignment × LabRun × Lab) := do
  let assignment ← db.labAssignments.first fun a =>
    a.organizationId = organizationId && a.userId = userId && a.studentVmId = some vmId
  let run ← runInOrganization db assignment.labRunId organizationId
  guard (assignmentEffectivelyOpen assignment run now)
  let lab ← labInOrganization db run.labId organizationId
  guard (activeEnrollment db lab.classId userId).isSome
  return (assignment, run, lab)

/-- The operation names that callers pass to `enforce_student_vm_operation`. -/
inductive VmAccess where
  | view
  | create
  | start
  | stop
  | reboot
  | reset
  | delete
  | remove
  | terminal
  | console
  | spice
  | rdp
  | other (text : String)
  deriving DecidableEq, Repr

/-- The part of `enforce_student_vm_operation` after the active assignment was found. -/
def labForbids (lab : Lab) : VmAccess → Option String
  | .delete => some "Assigned classroom VMs are managed by the instructor"
  | .remove => some "Assigned classroom VMs are managed by the instructor"
  | .stop =>
    if lab.flags.studentCanPowerOff then none
    else some "Students may not power off this lab VM"
  | .reboot => if lab.flags.studentCanReset then none else some "Students may not reset this lab VM"
  | .reset => if lab.flags.studentCanReset then none else some "Students may not reset this lab VM"
  | .terminal =>
    if lab.flags.terminalEnabled then none else some "Terminal access is disabled for this lab"
  | .console =>
    if lab.flags.consoleEnabled then none else some "Console access is disabled for this lab"
  | .spice =>
    if lab.flags.consoleEnabled then none else some "Console access is disabled for this lab"
  | .rdp => if lab.flags.rdpEnabled then none else some "RDP access is disabled for this lab"
  | _ => none

/-- `enforce_student_vm_operation` -/
def enforceStudentVmOperation (db : Db) (now : Time) (userId organizationId vmId : ℕ)
    (operation : VmAccess) : Except Exc (LabAssignment × LabRun × Lab) :=
  match activeAssignmentForVm db now userId organizationId vmId with
  | none => .error (.http 403 "VM is not available through an active classroom assignment")
  | some access =>
    match labForbids access.2.2 operation with
    | some detail => .error (.http 403 detail)
    | none => .ok access

/-- The join of assignment, run, lab and class that ties a VM to its instructor; the
source builds it twice, in `_scope_instructor_vms` and in the worker's validator. -/
def teachesVm (db : Db) (userId organizationId vmId : ℕ) : Bool :=
  db.labAssignments.rows.any fun a =>
    a.organizationId = organizationId && a.studentVmId = some vmId &&
      db.labRuns.rows.any fun r =>
        r.id = a.labRunId && r.organizationId = organizationId &&
          db.labs.rows.any fun l =>
            l.id = r.labId && l.organizationId = organizationId &&
              db.classes.rows.any fun c =>
                c.id = l.classId && c.organizationId = organizationId &&
                  c.instructorId = some userId

/-- The filter that `_get_vm_for_user` and `list_vms` put on the VM query. -/
def vmInScope (db : Db) (userId : ℕ) (organization : OrganizationContext) (vm : StudentVM) : Bool :=
  vm.organizationId = organization.id && vm.deletedAt.isNone &&
    match organization.role with
    | .student => vm.ownerId = userId
    | .instructor => organization.breakGlass || teachesVm db userId organization.id vm.id
    | _ => true

/-- `_get_vm_for_user`. The branch `A valid role is required` is unreachable: every role
that is not `student` is at least `instructor`. -/
def getVmForUser (db : Db) (now : Time) (user : User) (vmId : ℕ)
    (organization : OrganizationContext) (operation : VmAccess) : Except Exc StudentVM :=
  match db.studentVms.first fun vm => vm.id = vmId && vmInScope db user.id organization vm with
  | none => .error (.http 404 "VM not found")
  | some vm =>
    if organization.role = .student then
      match enforceStudentVmOperation db now user.id organization.id vm.id operation with
      | .error e => .error e
      | .ok _ => .ok vm
    else .ok vm

/-- `row.operation_type.split(".", 1)[-1]` -/
def OperationType.access : OperationType → VmAccess
  | .create => .create
  | .power .start => .start
  | .power .stop => .stop
  | .power .reboot => .reboot
  | .delete => .delete
  | .other text => .other text

/-- The actor-less branch of `_validate_operation_authorization`. -/
def validateSystemCleanup (db : Db) (now : Time) (row : DurableOperation) (organizationId : ℕ)
    (vm : StudentVM) (payload : Payload) : Except Exc Unit :=
  if row.operationType ≠ .delete ∨ payload.expirationCleanup ≠ some true then
    .error (.authorization "Actor-less operations are restricted to assignment cleanup")
  else
    match db.labAssignments.first fun a =>
        a.organizationId = organizationId && a.studentVmId = some vm.id with
    | none => .error (.authorization "System cleanup no longer owns an assignment for this VM")
    | some assignment =>
      let expired := assignment.status = .expired || assignment.status = .revoked ||
        assignment.expiresAt.any (fun expiresAt => expiresAt ≤ now)
      if !expired &&
          (activeAssignmentForVm db now assignment.userId organizationId vm.id).isSome then
        .error (.authorization "System cleanup assignment is still active")
      else .ok ()

/-- The branch of `_validate_operation_authorization` for an active actor. -/
def validateActor (db : Db) (now : Time) (row : DurableOperation) (organizationId : ℕ)
    (vm : StudentVM) (actor : User) : Except Exc Unit :=
  if getRoleName db actor = some .admin then .ok ()
  else
    match getActiveMembership db actor.id organizationId with
    | none => .error (.authorization "Requesting user no longer has organization access")
    | some membership =>
      match membership.role with
      | .admin => .ok ()
      | .owner => .ok ()
      | .instructor =>
        if teachesVm db actor.id organizationId vm.id then .ok ()
        else
          .error (.authorization "Instructor no longer teaches the class assigned to this VM")
      | .student =>
        if vm.ownerId ≠ actor.id then
          .error (.authorization "Student no longer owns the target VM")
        else
          match enforceStudentVmOperation db now actor.id organizationId vm.id
              row.operationType.access with
          | .ok _ => .ok ()
          | .error (.http _ detail) => .error (.authorization detail)
          | .error e => .error e

/-- `_validate_operation_authorization` -/
def validateOperationAuthorization (db : Db) (now : Time) (row : DurableOperation)
    (vm : StudentVM) (payload : Payload) : Except Exc Unit :=
  match row.organizationId with
  | none => .error (.authorization "Operation and VM organization scopes no longer match")
  | some organizationId =>
    if organizationId ≠ vm.organizationId then
      .error (.authorization "Operation and VM organization scopes no longer match")
    else if (enabledOrganization db organizationId).isNone then
      .error (.authorization "Operation organization is not active")
    else
      match row.requestedBy with
      | none => validateSystemCleanup db now row organizationId vm payload
      | some requestedBy =>
        match db.users.first fun u => u.id = requestedBy && u.isActive with
        | none => .error (.authorization "Requesting user is no longer active")
        | some actor => validateActor db now row organizationId vm actor

/-- `_validate_absent_vm_operation` -/
def validateAbsentVmOperation (db : Db) (row : DurableOperation) (payload : Payload) :
    Except Exc Unit :=
  match row.organizationId with
  | none => .error (.authorization "Operation has no organization scope")
  | some organizationId =>
    match row.requestedBy with
    | none =>
      if row.operationType ≠ .delete ∨ payload.expirationCleanup ≠ some true then
        .error (.authorization "Actor-less operations are restricted to assignment cleanup")
      else .ok ()
    | some requestedBy =>
      match enabledOrganization db organizationId,
          db.users.first fun u => u.id = requestedBy && u.isActive with
      | some _, some actor =>
        if getRoleName db actor = some .admin then .ok ()
        else if (getActiveMembership db actor.id organizationId).isNone then
          .error (.authorization "Requesting user no longer has organization access")
        else .ok ()
      | _, _ =>
        .error
          (.authorization "Operation organization or requesting user is no longer active")

end LabGoblin
