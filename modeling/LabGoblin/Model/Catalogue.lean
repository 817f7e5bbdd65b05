import LabGoblin.Computation.Clients
import LabGoblin.Computation.Lineage
import LabGoblin.Model.LabSetup
import LabGoblin.Model.Pools

/-!
# The catalogue

The writing endpoints of `api/routers/classes_labs.py`, `api/routers/pools.py` and of the templates
in `api/routers/templates.py`. They read and commit next to the requests of the deployed system,
take no row locks, and write classes, enrollments, labs, pools and templates only.

A commit inserts its rows with the keys that it draws, and deletes rows with what the schema says
of the rows that refer to them: the enrollments and the labs of a class go with it, and a pool
with labs stays.
-/

set_option autoImplicit false

namespace LabGoblin.Catalogue

open Interactive LabGoblin.Text

/-! ## Payloads -/

structure ClassCreate where
  name : String
  term : Option String := none
  instructorId : Option ℕ := none
  deriving DecidableEq, Repr

/-- A `ClassPatch` without the entries that are `None`. -/
structure ClassPatch where
  name : Option String := none
  term : Option String := none
  instructorId : Option ℕ := none
  deriving DecidableEq, Repr

structure LabCreate where
  classId : ℕ
  name : String
  description : Option String := none
  startsAt : Option Time := none
  endsAt : Option Time := none
  defaultPoolId : ℕ
  flags : LabFlags
  deriving DecidableEq, Repr

/-- A `LabPatch` without the entries that are `None`. -/
structure LabPatch where
  name : Option String := none
  description : Option String := none
  startsAt : Option Time := none
  endsAt : Option Time := none
  defaultPoolId : Option ℕ := none
  consoleEnabled : Option Bool := none
  rdpEnabled : Option Bool := none
  terminalEnabled : Option Bool := none
  studentCanPowerOff : Option Bool := none
  studentCanReset : Option Bool := none
  deriving DecidableEq, Repr

/-- The columns of `desktop_pools` that `validate_pool_config` looks at. -/
structure PoolConfig where
  poolType : Text
  defaultProtocol : Text
  vlanTag : Option ℤ := none
  vmidStart : Option ℤ := none
  vmidEnd : Option ℤ := none
  namingPattern : Option Text := none
  desiredSize : ℤ := 0
  deriving DecidableEq

structure PoolCreate where
  name : String
  templateVmid : Option ℕ := none
  templateNode : Option String := none
  maintenanceMode : Bool := false
  enabled : Bool := true
  config : PoolConfig

/-- A `PoolPatch` without the entries that are `None`; `config` is what it makes of the columns
that are checked. -/
structure PoolPatch where
  name : Option String := none
  templateVmid : Option ℕ := none
  templateNode : Option String := none
  maintenanceMode : Option Bool := none
  enabled : Option Bool := none
  config : PoolConfig → PoolConfig := id

structure TemplateCreateRequest where
  name : String
  proxmoxNode : String
  sourceVmid : ℕ
  enabled : Bool := true
  deriving DecidableEq, Repr

/-- A `TemplateUpdateRequest` without the entries that are `None`. -/
structure TemplateUpdateRequest where
  name : Option String := none
  proxmoxNode : Option String := none
  sourceVmid : Option ℕ := none
  enabled : Option Bool := none
  deriving DecidableEq, Repr

/-! ## Changes -/

def ClassPatch.onRow (patch : ClassPatch) (row : Class) : Class :=
  { row with
    name := patch.name.getD row.name
    term := patch.term.or row.term
    instructorId := patch.instructorId.or row.instructorId }

def LabPatch.onRow (patch : LabPatch) (row : Lab) : Lab :=
  { row with
    name := patch.name.getD row.name
    description := patch.description.or row.description
    startsAt := patch.startsAt.or row.startsAt
    endsAt := patch.endsAt.or row.endsAt
    defaultPoolId := patch.defaultPoolId.getD row.defaultPoolId
    flags := {
      consoleEnabled := patch.consoleEnabled.getD row.flags.consoleEnabled
      rdpEnabled := patch.rdpEnabled.getD row.flags.rdpEnabled
      terminalEnabled := patch.terminalEnabled.getD row.flags.terminalEnabled
      studentCanPowerOff := patch.studentCanPowerOff.getD row.flags.studentCanPowerOff
      studentCanReset := patch.studentCanReset.getD row.flags.studentCanReset } }

def PoolPatch.onRow (patch : PoolPatch) (row : DesktopPool) : DesktopPool :=
  { row with
    name := patch.name.getD row.name
    templateVmid := patch.templateVmid.or row.templateVmid
    templateNode := patch.templateNode.or row.templateNode
    maintenanceMode := patch.maintenanceMode.getD row.maintenanceMode
    enabled := patch.enabled.getD row.enabled }

def TemplateUpdateRequest.onRow (patch : TemplateUpdateRequest) (row : VMTemplate) : VMTemplate :=
  { row with
    name := patch.name.getD row.name
    proxmoxNode := patch.proxmoxNode.getD row.proxmoxNode
    sourceVmid := patch.sourceVmid.getD row.sourceVmid
    enabled := patch.enabled.getD row.enabled }

/-- What a flush of the session sends to the database: one `INSERT`, one `UPDATE` of one row, or
one `DELETE`. -/
inductive CatalogueChange where
  | insertClass (organizationId : ℕ) (payload : ClassCreate)
  | updateClass (id : ℕ) (patch : ClassPatch)
  | deleteClass (id : ℕ)
  | insertEnrollment (classId userId : ℕ) (role : Option EnrollmentRole)
  | deleteEnrollment (id : ℕ)
  | insertLab (organizationId : ℕ) (payload : LabCreate)
  | updateLab (id : ℕ) (patch : LabPatch)
  | deleteLab (id : ℕ)
  | insertPool (organizationId : ℕ) (payload : PoolCreate)
  | updatePool (id : ℕ) (patch : PoolPatch)
  | deletePool (id : ℕ)
  | insertTemplate (organizationId : ℕ) (payload : TemplateCreateRequest)
  | updateTemplate (id : ℕ) (patch : TemplateUpdateRequest)

/-- The row that an insert of a class adds. -/
def classRow (organizationId : ℕ) (payload : ClassCreate) (id : ℕ) : Class where
  id := id
  organizationId := organizationId
  name := payload.name
  term := payload.term
  instructorId := payload.instructorId

def enrollmentRow (classId userId : ℕ) (role : Option EnrollmentRole) (id : ℕ) : Enrollment where
  id := id
  classId := classId
  userId := userId
  role := role
  isActive := true

def labRow (organizationId : ℕ) (payload : LabCreate) (id : ℕ) : Lab where
  id := id
  organizationId := organizationId
  classId := payload.classId
  name := payload.name
  description := payload.description
  startsAt := payload.startsAt
  endsAt := payload.endsAt
  defaultPoolId := payload.defaultPoolId
  flags := payload.flags

def poolRow (organizationId : ℕ) (payload : PoolCreate) (id : ℕ) : DesktopPool where
  id := id
  organizationId := organizationId
  name := payload.name
  templateVmid := payload.templateVmid
  templateNode := payload.templateNode
  maintenanceMode := payload.maintenanceMode
  enabled := payload.enabled

def templateRow (organizationId : ℕ) (payload : TemplateCreateRequest) (id : ℕ) : VMTemplate where
  id := id
  organizationId := organizationId
  proxmoxClusterId := none
  name := payload.name
  proxmoxNode := payload.proxmoxNode
  sourceVmid := payload.sourceVmid
  enabled := payload.enabled

/-- The effect of a change; `none` is a foreign key that is violated, or an `UPDATE` that found no
row. The constraints of `Db.Constraints` are checked when the transaction is committed. -/
def CatalogueChange.apply (c : CatalogueChange) (db : Db) : Option Db :=
  match c with
  | .insertClass organizationId payload =>
      some { db with classes := db.classes.add (classRow organizationId payload) fun _ => rfl }
  | .updateClass id patch =>
      if (db.classes.get? id).isSome then
        some { db with classes := db.classes.update id patch.onRow fun _ => rfl }
      else none
  | .deleteClass id =>
      some { db with
        classes := db.classes.remove fun c => c.id = id
        enrollments := db.enrollments.remove fun e => e.classId = id
        labs := db.labs.remove fun l => l.classId = id }
  | .insertEnrollment classId userId role =>
      if (db.classes.get? classId).isSome ∧ (db.users.get? userId).isSome then
        some { db with
          enrollments := db.enrollments.add (enrollmentRow classId userId role) fun _ => rfl }
      else none
  | .deleteEnrollment id => some { db with enrollments := db.enrollments.remove fun e => e.id = id }
  | .insertLab organizationId payload =>
      if (db.desktopPools.get? payload.defaultPoolId).isSome then
        some { db with labs := db.labs.add (labRow organizationId payload) fun _ => rfl }
      else none
  | .updateLab id patch =>
      if (db.labs.get? id).isSome ∧
          ∀ poolId ∈ patch.defaultPoolId, (db.desktopPools.get? poolId).isSome then
        some { db with labs := db.labs.update id patch.onRow fun _ => rfl }
      else none
  | .deleteLab id => some { db with labs := db.labs.remove fun l => l.id = id }
  | .insertPool organizationId payload =>
      some { db with
        desktopPools := db.desktopPools.add (poolRow organizationId payload) fun _ => rfl }
  | .updatePool id patch =>
      if (db.desktopPools.get? id).isSome then
        some { db with desktopPools := db.desktopPools.update id patch.onRow fun _ => rfl }
      else none
  | .deletePool id =>
      if ∃ lab ∈ db.labs.rows, lab.defaultPoolId = id then none
      else some { db with desktopPools := db.desktopPools.remove fun p => p.id = id }
  | .insertTemplate organizationId payload =>
      some { db with
        vmTemplates := db.vmTemplates.add (templateRow organizationId payload) fun _ => rfl }
  | .updateTemplate id patch =>
      if (db.vmTemplates.get? id).isSome then
        some { db with vmTemplates := db.vmTemplates.update id patch.onRow fun _ => rfl }
      else none

/-- A transaction makes one change, or none. -/
def applyChange (c : Option CatalogueChange) (db : Db) : Option Db :=
  match c with
  | none => some db
  | some c => c.apply db

/-- The database after the transaction; `none` is an error at the flush. -/
def afterChange (s : Store) (c : Option CatalogueChange) :
    Option { db : Db // db.Constraints } :=
  match applyChange c s.db with
  | none => none
  | some db => if h : db.Constraints then some ⟨db, h⟩ else none

/-! ## Statements and calls -/

inductive CatalogueStmt where
  | select
  | commit (c : Option CatalogueChange)

/-- The columns of a pool row that the tables leave out. -/
inductive CatalogueCall where
  | poolConfig (pool : ℕ)

abbrev CatalogueApi : Signature where
  View := Store
  Stmt := CatalogueStmt
  Call := CatalogueCall
  Reply := fun _ => PoolConfig
  Exc := Exc

abbrev Action (α : Type) := Program CatalogueApi α

/-- The effect of a statement. -/
def exec (q : CatalogueStmt) (s : Store) : Store :=
  match q with
  | .select => s
  | .commit c =>
    match afterChange s c with
    | none => s
    | some ⟨db, valid⟩ => { s with db := db, valid := valid }

/-- The endpoints act on the state of the deployed system. They are no processes of its log. -/
def machine {H : Type} : Machine CatalogueApi (Sys H) where
  view := Sys.store
  enabled := fun _ _ _ => True
  exec := fun _ q t => { t with store := exec q t.store }
  answer := fun _ _ t _ t' => t' = t

def select : Action Store := Program.run (G := CatalogueApi) .select

def check {α : Type} (x : Except Exc α) : Action α := Program.ofExcept (G := CatalogueApi) x

def fail {α : Type} (e : Exc) : Action α := Program.throw (G := CatalogueApi) e

def raiseIf (condition : Prop) [Decidable condition] (e : Exc) : Action Unit :=
  if condition then fail e else return ()

def orRaise {α : Type} (x : Option α) (e : Exc) : Action α :=
  match x with
  | some a => return a
  | none => fail e

/-- `db.commit()` -/
def commit (c : Option CatalogueChange) : Action Unit := do
  let s ← Program.run (G := CatalogueApi) (.commit c)
  match afterChange s c with
  | none => fail .integrity
  | some _ => return ()

/-- The dependencies of an endpoint with `require_organization_role("instructor")`. -/
def currentInstructor (caller : Caller) : Action (User × OrganizationContext) := do
  let s ← select
  let user ← check (currentUser s.db caller)
  let organization ← check (resolveOrganizationContext s.db user caller.organizationId)
  check (enforceOrganizationRole organization .instructor)
  return (user, organization)

/-! ## Classes and enrollments -/

/-- `_class_or_404` -/
def classOr404 (classId : ℕ) (organization : OrganizationContext) (user : User) :
    Action Class := do
  let s ← select
  check (LabGoblin.classOr404 s.db classId organization user)

/-- `_validate_instructor` -/
def validateInstructor (organizationId userId : ℕ) : Action Unit := do
  let s ← select
  raiseIf ((s.db.organizationMemberships.first fun m =>
      m.organizationId = organizationId && m.userId = userId && m.isActive &&
        m.role ≠ .student) = none)
    (.http 422 "instructor must be an active instructor in this organization")

/-- `create_class` -/
def createClass (caller : Caller) (payload : ClassCreate) : Action Unit := do
  let (user, organization) ← currentInstructor caller
  raiseIf (strip payload.name = "") (.http 422 "Class name is required")
  if organizationRoleAtLeast organization .admin then do
    match payload.instructorId with
    | some instructorId => validateInstructor organization.id instructorId
    | none => pure ()
    commit (some (.insertClass organization.id payload))
  else do
    raiseIf (payload.instructorId ≠ none ∧ payload.instructorId ≠ some user.id)
      (.http 403 "Instructors may only create classes assigned to themselves")
    commit (some (.insertClass organization.id { payload with instructorId := some user.id }))

/-- The columns that the session finds changed, if there are any. -/
def changed {α : Type} [DecidableEq α] (row row' : α) (c : CatalogueChange) :
    Option CatalogueChange :=
  if row' = row then none else some c

/-- The values that differ from those of the row. -/
def ClassPatch.changing (patch : ClassPatch) (row : Class) : ClassPatch where
  name := patch.name.filter fun v => v ≠ row.name
  term := patch.term.filter fun v => some v ≠ row.term
  instructorId := patch.instructorId.filter fun v => some v ≠ row.instructorId

/-- `patch_class` -/
def patchClass (caller : Caller) (id : ℕ) (payload : ClassPatch) : Action Unit := do
  let (user, organization) ← currentInstructor caller
  let row ← classOr404 id organization user
  match payload.instructorId with
  | none => pure ()
  | some instructorId => do
    raiseIf (organizationRoleAtLeast organization .admin = false)
      (.http 403 "Only organization administrators may reassign a class")
    validateInstructor organization.id instructorId
  commit (changed row (payload.onRow row) (.updateClass row.id (payload.changing row)))

/-- `delete_class` -/
def deleteClass (caller : Caller) (id : ℕ) : Action Unit := do
  let (user, organization) ← currentInstructor caller
  let row ← classOr404 id organization user
  let s ← select
  raiseIf ((s.db.enrollments.first fun e => e.classId = id).isSome = true)
    (.http 409 "Cannot delete class with labs or enrollments")
  let s ← select
  raiseIf ((s.db.labs.first fun l => l.classId = id).isSome = true)
    (.http 409 "Cannot delete class with labs or enrollments")
  commit (some (.deleteClass row.id))

/-- `add_enrollment` -/
def addEnrollment (caller : Caller) (id userId : ℕ) (role : Option EnrollmentRole) :
    Action Unit := do
  let (user, organization) ← currentInstructor caller
  let _ ← classOr404 id organization user
  let s ← select
  raiseIf ((s.db.organizationMemberships.first fun m =>
      m.organizationId = organization.id && m.userId = userId && m.isActive) = none)
    (.http 422 "user must be an active member of this organization")
  let s ← select
  match s.db.enrollments.first fun e => e.classId = id && e.userId = userId with
  | some _ => return ()
  | none => commit (some (.insertEnrollment id userId role))

/-- `remove_enrollment` -/
def removeEnrollment (caller : Caller) (id userId : ℕ) : Action Unit := do
  let (user, organization) ← currentInstructor caller
  let _ ← classOr404 id organization user
  let s ← select
  let row ← orRaise (s.db.enrollments.first fun e => e.classId = id && e.userId = userId)
    (.http 404 "Enrollment not found")
  commit (some (.deleteEnrollment row.id))

/-! ## Labs -/

/-- The window of a lab is refused. -/
def reversed (startsAt endsAt : Option Time) : Bool :=
  startsAt.any fun a => endsAt.any fun b => b ≤ a

/-- The query for the pool of a lab. -/
def poolOfOrganization (poolId : ℕ) (organization : OrganizationContext) : Action Unit := do
  let s ← select
  raiseIf ((s.db.desktopPools.first fun p =>
      p.id = poolId && p.organizationId = organization.id) = none)
    (.http 422 "default_pool_id not found")

/-- `create_lab`, up to the hints about its pool that it answers with. -/
def createLab (caller : Caller) (payload : LabCreate) : Action Unit := do
  let (user, organization) ← currentInstructor caller
  raiseIf (reversed payload.startsAt payload.endsAt = true)
    (.http 422 "starts_at must be before ends_at")
  let s ← select
  match LabGoblin.classOr404 s.db payload.classId organization user with
  | .error _ => fail (.http 422 "class_id not found or not managed by this instructor")
  | .ok _ => do
    poolOfOrganization payload.defaultPoolId organization
    commit (some (.insertLab organization.id payload))

/-- The queries for a lab and for its class. -/
def managedLab (id : ℕ) (organization : OrganizationContext) (user : User) : Action Lab := do
  let s ← select
  let row ← orRaise (labInOrganization s.db id organization.id) (.http 404 "Lab not found")
  let _ ← classOr404 row.classId organization user
  return row

/-- The values that differ from those of the row. -/
def LabPatch.changing (patch : LabPatch) (row : Lab) : LabPatch where
  name := patch.name.filter fun v => v ≠ row.name
  description := patch.description.filter fun v => some v ≠ row.description
  startsAt := patch.startsAt.filter fun v => some v ≠ row.startsAt
  endsAt := patch.endsAt.filter fun v => some v ≠ row.endsAt
  defaultPoolId := patch.defaultPoolId.filter fun v => v ≠ row.defaultPoolId
  consoleEnabled := patch.consoleEnabled.filter fun v => v ≠ row.flags.consoleEnabled
  rdpEnabled := patch.rdpEnabled.filter fun v => v ≠ row.flags.rdpEnabled
  terminalEnabled := patch.terminalEnabled.filter fun v => v ≠ row.flags.terminalEnabled
  studentCanPowerOff := patch.studentCanPowerOff.filter fun v => v ≠ row.flags.studentCanPowerOff
  studentCanReset := patch.studentCanReset.filter fun v => v ≠ row.flags.studentCanReset

/-- `patch_lab`, up to the hints about its pool that it answers with. -/
def patchLab (caller : Caller) (id : ℕ) (payload : LabPatch) : Action Unit := do
  let (user, organization) ← currentInstructor caller
  let row ← managedLab id organization user
  raiseIf (reversed (payload.startsAt.or row.startsAt) (payload.endsAt.or row.endsAt) = true)
    (.http 422 "starts_at must be before ends_at")
  match payload.defaultPoolId with
  | none => pure ()
  | some poolId => poolOfOrganization poolId organization
  commit (changed row (payload.onRow row) (.updateLab row.id (payload.changing row)))

/-- `delete_lab` -/
def deleteLab (caller : Caller) (id : ℕ) : Action Unit := do
  let (user, organization) ← currentInstructor caller
  let row ← managedLab id organization user
  let s ← select
  raiseIf ((s.db.labRuns.first fun r => r.labId = row.id).isSome = true)
    (.http 409 "Cannot delete a lab with run history")
  commit (some (.deleteLab row.id))

/-! ## Pools -/

/-- `PoolService.validate_pool_config` -/
def validatePoolConfig (config : PoolConfig) : List String :=
  Pools.validatePoolConfig {
    id := 0
    name := []
    poolType := config.poolType
    defaultProtocol := config.defaultProtocol
    vlanTag := config.vlanTag
    vmidStart := config.vmidStart
    vmidEnd := config.vmidEnd
    namingPattern := config.namingPattern
    desiredSize := config.desiredSize }

/-- The detail of a response that lists errors. -/
def errorsDetail (errors : List String) : String := String.intercalate "; " errors

/-- The checks of `create_pool` on its payload. The payload has no `size_min` and no
`size_max`. -/
def checkPool (payload : PoolCreate) : Except Exc Unit :=
  if payload.name = "" then .error (.http 422 "name is required")
  else if payload.config.desiredSize < 0 then
    .error (.http 422 "size_min/size_max must be non-negative and size_min <= size_max")
  else
    match validatePoolConfig payload.config with
    | [] => .ok ()
    | errors => .error (.http 422 (errorsDetail errors))

/-- A value that is neither `None` nor zero. -/
def nonzero (value : Option ℕ) : Option ℕ := value.filter fun v => v ≠ 0

/-- The template that a pool names. -/
def templateOfPool (db : Db) (organizationId vmid : ℕ) : Option VMTemplate :=
  db.vmTemplates.first fun t => t.sourceVmid = vmid && t.organizationId = organizationId

/-- `create_pool`, up to the hints that it answers with. The audit row that it adds after its
commit is never committed. -/
def createPool (caller : Caller) (payload : PoolCreate) : Action Unit := do
  let (_, organization) ← currentInstructor caller
  check (checkPool payload)
  match nonzero payload.templateVmid with
  | none => commit (some (.insertPool organization.id payload))
  | some vmid => do
    let s ← select
    let template ← orRaise (templateOfPool s.db organization.id vmid)
      (.http 422 "Import Proxmox templates before creating pools.")
    commit (some (.insertPool organization.id { payload with
      templateNode := some ((nonblank payload.templateNode).getD template.proxmoxNode) }))

/-- The query for a pool. -/
def managedPool (id : ℕ) (organization : OrganizationContext) : Action DesktopPool := do
  let s ← select
  orRaise (s.db.desktopPools.first fun p => p.id = id && p.organizationId = organization.id)
    (.http 404 "Pool not found")

/-- The values that differ from those of the row. -/
def PoolPatch.changing (patch : PoolPatch) (row : DesktopPool) : PoolPatch where
  name := patch.name.filter fun v => v ≠ row.name
  templateVmid := patch.templateVmid.filter fun v => some v ≠ row.templateVmid
  templateNode := patch.templateNode.filter fun v => some v ≠ row.templateNode
  maintenanceMode := patch.maintenanceMode.filter fun v => v ≠ row.maintenanceMode
  enabled := patch.enabled.filter fun v => v ≠ row.enabled
  config := patch.config

/-- `patch_pool`, up to the hints that it answers with. The audit row that it adds after its
commit is never committed. -/
def patchPool (caller : Caller) (id : ℕ) (payload : PoolPatch) : Action Unit := do
  let (_, organization) ← currentInstructor caller
  let row ← managedPool id organization
  let config ← Program.await (G := CatalogueApi) (.poolConfig row.id)
  let errors := validatePoolConfig (payload.config config)
  raiseIf (errors ≠ []) (.http 422 (errorsDetail errors))
  commit (changed row (payload.onRow row) (.updatePool row.id (payload.changing row)))

/-- `patch_pool_enabled` and `patch_pool_maintenance`, with the switch that the body has under its
name. -/
def patchPoolSwitch (caller : Caller) (id : ℕ) (payload : PoolPatch) : Action Unit := do
  let (_, organization) ← currentInstructor caller
  let row ← managedPool id organization
  commit (changed row (payload.onRow row) (.updatePool row.id (payload.changing row)))

/-- `patch_pool_enabled` -/
def patchPoolEnabled (caller : Caller) (id : ℕ) (enabled : Bool) : Action Unit :=
  patchPoolSwitch caller id { enabled := some enabled }

/-- `patch_pool_maintenance` -/
def patchPoolMaintenance (caller : Caller) (id : ℕ) (maintenanceMode : Bool) : Action Unit :=
  patchPoolSwitch caller id { maintenanceMode := some maintenanceMode }

/-- The count of `delete_pool`: the VMs of the pool's template. -/
def attachedVms (organizationId : ℕ) : Option VMTemplate → Action ℕ
  | none => return 0
  | some template => do
    let s ← select
    return (s.db.studentVms.filter fun vm =>
      vm.templateId = template.id && vm.organizationId = organizationId).length

/-- `delete_pool` -/
def deletePool (caller : Caller) (id : ℕ) (force : Bool) : Action Unit := do
  let (_, organization) ← currentInstructor caller
  let row ← managedPool id organization
  let s ← select
  let attached ← attachedVms organization.id
    ((nonzero row.templateVmid).bind (templateOfPool s.db organization.id))
  raiseIf (0 < attached ∧ force = false)
    (.http 409 "Pool may have VM dependencies; pass force=true to remove app pool record")
  commit (some (.deletePool row.id))

/-! ## Templates -/

/-- `create_template` -/
def createTemplate (caller : Caller) (payload : TemplateCreateRequest) : Action Unit := do
  let (_, organization) ← currentInstructor caller
  commit (some (.insertTemplate organization.id payload))

/-- The values that differ from those of the row. -/
def TemplateUpdateRequest.changing (patch : TemplateUpdateRequest) (row : VMTemplate) :
    TemplateUpdateRequest where
  name := patch.name.filter fun v => v ≠ row.name
  proxmoxNode := patch.proxmoxNode.filter fun v => v ≠ row.proxmoxNode
  sourceVmid := patch.sourceVmid.filter fun v => v ≠ row.sourceVmid
  enabled := patch.enabled.filter fun v => v ≠ row.enabled

/-- `patch_template` -/
def patchTemplate (caller : Caller) (id : ℕ) (payload : TemplateUpdateRequest) :
    Action Unit := do
  let (_, organization) ← currentInstructor caller
  let s ← select
  let row ← orRaise
    (s.db.vmTemplates.first fun t => t.id = id && t.organizationId = organization.id)
    (.http 404 "Template not found")
  commit (changed row (payload.onRow row) (.updateTemplate row.id (payload.changing row)))

/-! ## Requests -/

inductive CatalogueRequest where
  | createClass (payload : ClassCreate)
  | patchClass (id : ℕ) (payload : ClassPatch)
  | deleteClass (id : ℕ)
  | addEnrollment (id userId : ℕ) (role : Option EnrollmentRole)
  | removeEnrollment (id userId : ℕ)
  | createLab (payload : LabCreate)
  | patchLab (id : ℕ) (payload : LabPatch)
  | deleteLab (id : ℕ)
  | createPool (payload : PoolCreate)
  | patchPool (id : ℕ) (payload : PoolPatch)
  | patchPoolEnabled (id : ℕ) (enabled : Bool)
  | patchPoolMaintenance (id : ℕ) (maintenanceMode : Bool)
  | deletePool (id : ℕ) (force : Bool)
  | createTemplate (payload : TemplateCreateRequest)
  | patchTemplate (id : ℕ) (payload : TemplateUpdateRequest)

/-- The program that a request runs. -/
def program (caller : Caller) : CatalogueRequest → Action Unit
  | .createClass payload => createClass caller payload
  | .patchClass id payload => patchClass caller id payload
  | .deleteClass id => deleteClass caller id
  | .addEnrollment id userId role => addEnrollment caller id userId role
  | .removeEnrollment id userId => removeEnrollment caller id userId
  | .createLab payload => createLab caller payload
  | .patchLab id payload => patchLab caller id payload
  | .deleteLab id => deleteLab caller id
  | .createPool payload => createPool caller payload
  | .patchPool id payload => patchPool caller id payload
  | .patchPoolEnabled id enabled => patchPoolEnabled caller id enabled
  | .patchPoolMaintenance id maintenanceMode => patchPoolMaintenance caller id maintenanceMode
  | .deletePool id force => deletePool caller id force
  | .createTemplate payload => createTemplate caller payload
  | .patchTemplate id payload => patchTemplate caller id payload

/-- The endpoints of the catalogue as clients of the deployed system. -/
def clients {H : Type} : Clients CatalogueApi (Sys H) (Caller × CatalogueRequest) where
  machine := machine
  program := fun r => program r.1 r.2

end LabGoblin.Catalogue
