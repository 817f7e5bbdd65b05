import LabGoblin.Model.Classroom
import Mathlib.Data.List.Sort

/-!
# Reviewed lab setups

`api/routers/lab_setup.py`: a class, pool, lab, run, accounts and assignments written in one
transaction, guarded by a receipt against double submission and by an etag against lost
edits.
-/

set_option autoImplicit false

namespace LabGoblin

open Interactive

/-- `LabSetupWrite.validate_choices` -/
def validateChoices (body : LabSetupBody) : Except Exc Unit :=
  if strip body.name = "" then .error (.http 422 "Enter a lab name")
  else if body.classId.getD 0 = 0 ∧ strip body.className = "" then
    .error (.http 422 "Choose a class or enter a new class name")
  else if body.poolId.getD 0 = 0 ∧ body.templateId.getD 0 = 0 then
    .error (.http 422 "Choose an existing pool or a template")
  else if body.poolId.getD 0 ≠ 0 ∧ body.templateId.getD 0 ≠ 0 then
    .error (.http 422 "Choose either a pool or a template")
  else if !body.reviewed then .error (.http 422 "Review the setup before saving")
  else if body.slots < 1 ∨ 10 < body.slots then
    .error (.http 422 "slots must be between 1 and 10")
  else .ok ()

/-- `sorted({...})` -/
def sortedSet (ids : List ℕ) : List ℕ :=
  ids.dedup.insertionSort (· ≤ ·)

/-- `_snapshot`, with the hash standing for the value it is taken of. -/
def snapshot (db : Db) (run : LabRun) (lab : Lab) : Except Exc Etag :=
  match db.classes.get? lab.classId with
  | none => .error (.other "AttributeError: 'NoneType' object has no attribute 'name'")
  | some classroom =>
    let rows := db.labAssignments.filter fun a => a.labRunId = run.id
    let current := rows.filter fun a => a.status ≠ .revoked
    .ok {
      runId := run.id
      labId := lab.id
      name := run.name
      description := lab.description.getD ""
      classId := lab.classId
      className := classroom.name
      term := classroom.term.getD ""
      poolId := lab.defaultPoolId
      poolName := ((db.desktopPools.get? lab.defaultPoolId).map DesktopPool.name).getD
        "Unavailable"
      studentIds := sortedSet (current.map LabAssignment.userId)
      startsAt := run.startsAt
      endsAt := run.endsAt
      slots := run.maxVmsPerStudent
      state := run.state
      assignmentCount := current.length
      flags := lab.flags
      bindings := (rows.insertionSort fun a b => a.id ≤ b.id).map fun a =>
        (a.id, a.studentVmId, a.status, a.expiresAt) }

/-! ## Accounts -/

/-- `validate_password` and the length check of `_new_students`. -/
def checkPassword (settings : Settings) (password : Password) : Except Exc Unit :=
  if password.length < settings.passwordMinLength then
    .error (.http 422 s!"Password must be at least {settings.passwordMinLength} characters")
  else if !password.hasLower || !password.hasUpper then
    .error (.http 422 "Password must contain upper- and lower-case letters")
  else if !password.hasDigit then .error (.http 422 "Password must contain a number")
  else if !password.hasSymbol then .error (.http 422 "Password must contain a symbol")
  else if 72 < password.utf8Length then
    .error (.http 422 "Initial passwords must fit within 72 UTF-8 bytes.")
  else .ok ()

/-- The membership query of `_new_students` for an existing student. -/
def activeStudent (db : Db) (organizationId userId : ℕ) : Bool :=
  db.organizationMemberships.rows.any fun m =>
    m.organizationId = organizationId && m.userId = userId && m.isActive && m.role = .student &&
      db.users.rows.any fun u => u.id = m.userId && u.isActive

/-- `Role.name.ilike("student")` -/
def RoleName.isStudent : RoleName → Bool
  | .known role => role = .student
  | .other text => text.toLower = "student"

/-- The checks of `_new_students` on one requested account. -/
def checkAccount (settings : Settings) (db : Db) (item : SetupStudentBody) (password : Password) :
    Except Exc (String × String) :=
  let username := strip item.username
  let email := strip item.email
  if username = "" ∨ '@' ∉ email.toList then
    .error (.http 422 "Each new student needs a username and email.")
  else
    match checkPassword settings password with
    | .error e => .error e
    | .ok _ =>
      match db.users.first fun u => u.username = username || u.email = email with
      | some _ =>
        .error (.http 409
          "A requested account already exists. Select its organization membership instead.")
      | none => .ok (username, email)

/-- The loop of `_new_students` over the requested accounts. -/
def createAccounts (settings : Settings) (organization : OrganizationContext) (roleId : ℕ) :
    List ℕ × List Write → List (SetupStudentBody × Password) → Action (List ℕ × List Write)
  | done, [] => return done
  | (ids, flushed), (item, password) :: items => do
    let s ← select
    let (username, email) ← check (checkAccount settings (s.withFlushed flushed) item password)
    let userId ← draw .users
    let membershipId ← draw .organizationMemberships
    createAccounts settings organization roleId
      (ids ++ [userId], flushed ++ [
        .catalogue (.insertUser {
          id := userId
          username := username
          email := email
          roleId := roleId
          isActive := true
          forcePasswordChange := true }),
        .catalogue (.insertMembership {
          id := membershipId
          organizationId := organization.id
          userId := userId
          role := .student
          isActive := true })]) items

/-- `_new_students`: the roster and the writes that create its new accounts. -/
def newStudents (settings : Settings) (payload : LabSetupWrite) (user : User)
    (organization : OrganizationContext) (flushed : List Write) :
    Action (List ℕ × List Write) := do
  let s ← select
  raiseIf (payload.body.newStudents ≠ [] ∧ getRoleName s.db user ≠ some .admin) (.http 403
    ("Only a platform administrator can create login accounts. " ++
      "Select existing organization members."))
  raiseIf (∃ id ∈ payload.body.studentIds, activeStudent s.db organization.id id = false)
    (.http 422 "Choose active student members of this organization.")
  match s.db.roles.first (fun r => r.name.isStudent), payload.body.newStudents with
  | none, _ :: _ => fail (.http 409 "The student role is not configured.")
  | none, [] => return (payload.body.studentIds, flushed)
  | some role, items =>
    createAccounts settings organization role.id (payload.body.studentIds, flushed)
      (items.zip payload.passwords)

/-! ## Saving -/

/-- The checks of `_apply` on the requested window and state. -/
def checkWindow (body : LabSetupBody) (now : Time) : Except Exc Unit :=
  if body.startsAt.any (fun a => body.endsAt.any fun b => b ≤ a) then
    .error (.http 422 "The end must be after the start.")
  else if body.state ≠ .draft ∧ body.endsAt.any (fun t => t ≤ now) then
    .error (.http 422 "Choose a future end time before opening the lab.")
  else if body.state = .scheduled ∧ body.startsAt = none then
    .error (.http 422 "A scheduled lab needs a start time.")
  else if body.state = .active ∧ body.startsAt.any (fun t => now < t) then
    .error (.http 422 "Use Scheduled for a future start time.")
  else .ok ()

/-- The replay of a submission that was saved before. -/
def replayReceipt (payload : LabSetupWrite) (user : User) (organization : OrganizationContext)
    (runId : Option ℕ) (receipt : LabSetupReceipt) : Action Etag := do
  raiseIf (receipt.actorId ≠ user.id ∨ receipt.organizationId ≠ organization.id ∨
    (runId.isSome ∧ runId ≠ some receipt.runId)) (.http 404 "Setup submission not found")
  raiseIf (receipt.fingerprint ≠ payload.body) (.http 409
    ("This submission was already saved with different settings. " ++
      "Reload before editing."))
  let (run, lab) ← runForUser receipt.runId organization user false
  let s ← select
  check (snapshot s.db run lab)

/-- The checks of `_apply` on the run that is edited, once its assignments are locked. -/
def checkEdit (db : Db) (body : LabSetupBody) (run : LabRun) (lab : Lab) : Except Exc Unit :=
  match snapshot db run lab with
  | .error e => .error e
  | .ok etag =>
    if body.expectedEtag ≠ some etag then
      .error (.http 409 "This lab changed since you opened it. Reload before saving.")
    else if some lab.classId ≠ body.classId then
      .error (.http 422 "An existing lab must remain in its class.")
    else if (db.labRuns.first fun r => r.labId = lab.id && r.id ≠ run.id).isSome then
      .error (.http 409
        "This blueprint is shared by several runs. Edit it in detailed management.")
    else if run.state = .active ∧ body.state ≠ .active then
      .error (.http 409 "Use the reviewed End run action to close an active lab.")
    else .ok ()

/-- The run and lab that are edited, with their rows locked; none for a new setup. -/
def lockEdited (body : LabSetupBody) (user : User) (organization : OrganizationContext)
    (runId : Option ℕ) : Action (Option (LabRun × Lab)) :=
  match runId with
  | none => return none
  | some runId => do
    let (run, lab) ← runForUser runId organization user true
    raiseIf (run.state.closed = true) (.http 409
      "Ended labs are read-only. Create a new setup.")
    let s ← Program.run (G := Api) (.lock (.assignmentsOfRun run.id))
    check (checkEdit s.db body run lab)
    return some (run, lab)

/-- The class of the setup, and the insert of a new one. -/
def setupClass (body : LabSetupBody) (user : User) (organization : OrganizationContext) :
    Action (ℕ × List Write) :=
  match body.classId.filter fun id => id ≠ 0 with
  | some classId => do
    let s ← select
    let classroom ← check (classOr404 s.db classId organization user)
    return (classroom.id, [])
  | none => do
    let id ← draw .classes
    return (id, [.catalogue (.insertClass {
      id := id
      organizationId := organization.id
      name := strip body.className
      term := some body.term
      instructorId := some user.id })])

/-- The pool of the setup, and the insert of one for a chosen template. -/
def setupPool (body : LabSetupBody) (organization : OrganizationContext) :
    Action (ℕ × List Write) :=
  match body.poolId.filter fun id => id ≠ 0 with
  | some poolId => do
    let s ← select
    let pool ← orRaise
      (s.db.desktopPools.first fun p =>
        p.id = poolId && p.organizationId = organization.id && p.enabled && !p.maintenanceMode)
      (.http 422 "Choose an enabled pool in this organization.")
    return (pool.id, [])
  | none => do
    let s ← select
    let template ← orRaise
      (s.db.vmTemplates.first fun t =>
        some t.id = body.templateId && t.organizationId = organization.id && t.enabled)
      (.http 422 "Choose an imported, enabled template with a source node.")
    raiseIf (template.sourceVmid = 0 ∨ template.proxmoxNode = "") (.http 422
      "Choose an imported, enabled template with a source node.")
    let id ← draw .desktopPools
    return (id, [.catalogue (.insertPool {
      id := id
      organizationId := organization.id
      name := String.ofList ((strip body.name).toList.take 115) ++ " pool"
      templateVmid := some template.sourceVmid
      templateNode := some template.proxmoxNode
      maintenanceMode := false
      enabled := true })])

/-- The lab and run of the setup, and the inserts of new ones. -/
def setupRun (body : LabSetupBody) (user : User) (organization : OrganizationContext)
    (classId poolId : ℕ) (edited : Option (LabRun × Lab)) :
    Action (LabRun × Lab × List Write) :=
  match edited with
  | some (run, lab) => return (run, lab, [])
  | none => do
    let labId ← draw .labs
    let runId ← draw .labRuns
    let name := strip body.name
    let lab : Lab := {
      id := labId
      organizationId := organization.id
      classId := classId
      name := name
      description := none
      startsAt := none
      endsAt := none
      defaultPoolId := poolId
      flags := ⟨false, false, false, false, false⟩ }
    let run : LabRun := {
      id := runId
      organizationId := organization.id
      labId := labId
      name := name
      state := .draft
      startsAt := none
      endsAt := none
      maxVmsPerStudent := body.slots
      createdBy := user.id
      activatedAt := none
      endedAt := none }
    return (run, lab, [.catalogue (.insertLab lab), .run (.insert run)])

/-- Saving the setup would affect the VM of the assignment. -/
def affectsLinked (body : LabSetupBody) (lab : Lab) (poolId : ℕ) (students : List ℕ)
    (a : LabAssignment) : Bool :=
  a.studentVmId.isSome &&
    (!students.contains a.userId || body.slots < a.slotIndex || lab.defaultPoolId ≠ poolId)

/-- What `_apply` does to an assignment that exists: drop it from the roster, or move its
deadline and template. -/
def rosterWrites (body : LabSetupBody) (templateId : ℕ) (students : List ℕ) (a : LabAssignment) :
    List Write :=
  if !students.contains a.userId || body.slots < a.slotIndex then
    if a.status = .revoked then [] else [.assignment (.status a.id .revoked)]
  else if a.status ≠ .revoked then
    [.assignment (.reschedule a.id body.endsAt
      (if a.studentVmId.isNone then some templateId else none))]
  else []

/-- The enrollment of a student of the roster, and the insert of a new one. -/
def enrollStudent (classId studentId : ℕ) (flushed : List Write) : Action (List Write) := do
  let s ← select
  match (s.withFlushed flushed).enrollments.first fun e =>
      e.classId = classId && e.userId = studentId with
  | some enrollment =>
    if !enrollment.isActive || enrollment.role.getD .student ≠ .student then
      fail (.http 409
        ("A selected student has an inactive or non-student class enrollment. " ++
          "Review the roster first."))
    else return []
  | none => do
    let id ← draw .enrollments
    return [.catalogue (.insertEnrollment {
      id := id
      classId := classId
      userId := studentId
      role := some .student
      isActive := true })]

/-- The loop of `_apply` over the roster. -/
def saveRoster (run : LabRun) (lab : Lab) (templateId slots : ℕ) :
    List Write → List ℕ → Action (List Write)
  | flushed, [] => return flushed
  | flushed, studentId :: students => do
    let enrolled ← enrollStudent lab.classId studentId flushed
    let (_, flushed) ← createAssignments run lab (0, flushed ++ enrolled)
      (slotRequests [studentId] (some templateId) slots)
    saveRoster run lab templateId slots flushed students

/-- The second half of `_apply`, from the lock on the assignments to the commit. -/
def saveSetup (payload : LabSetupWrite) (user : User) (organization : OrganizationContext)
    (run : LabRun) (lab : Lab) (poolId : ℕ) (students : List ℕ) (flushed : List Write) :
    Action Etag := do
  let body := payload.body
  let s ← Program.run (G := Api) (.lock (.assignmentsOfRun run.id))
  let assignments := (s.withFlushed flushed).labAssignments.filter fun a => a.labRunId = run.id
  raiseIf (assignments.any (affectsLinked body lab poolId students) = true) (.http 409
    ("A linked VM would be affected. Manage its assignment and verified cleanup before " ++
      "changing the roster, quota, or pool."))
  let name := strip body.name
  let lab := { lab with
    name := name
    description := some body.description
    defaultPoolId := poolId
    flags := body.flags }
  let s ← select
  let template ← check (defaultTemplate (s.withFlushed flushed) lab)
  let now ← utcnow
  let activatedAt := if body.state = .active ∧ run.activatedAt = none then some now else none
  let run := { run with
    name := name
    startsAt := body.startsAt
    endsAt := body.endsAt
    maxVmsPerStudent := body.slots
    state := body.state.toRunState
    activatedAt := activatedAt.or run.activatedAt }
  let flushed := flushed ++
    [.catalogue (.editLab lab.id name body.description poolId body.flags),
      .run (.edit run.id name body.startsAt body.endsAt body.slots body.state.toRunState
        activatedAt)] ++
    assignments.flatMap (rosterWrites body template.id students)
  let flushed ← saveRoster run lab template.id body.slots flushed (sortedSet students)
  let flushed := flushed ++ [.catalogue (.insertReceipt {
    requestId := payload.requestId
    organizationId := organization.id
    actorId := user.id
    runId := run.id
    fingerprint := body })]
  let s ← select
  let result ← check (snapshot (s.withFlushed flushed) run lab)
  commit flushed
  return result

/-- `_apply` -/
def applySetup (settings : Settings) (payload : LabSetupWrite) (user : User)
    (organization : OrganizationContext) (runId : Option ℕ) : Action Etag := do
  check (enforceOrganizationRole organization .instructor)
  let s ← select
  match s.db.labSetupReceipts.find? fun r => r.requestId = payload.requestId with
  | some receipt => replayReceipt payload user organization runId receipt
  | none => do
    let body := payload.body
    let now ← utcnow
    check (checkWindow body now)
    let edited ← lockEdited body user organization runId
    let (classId, newClass) ← setupClass body user organization
    let (poolId, newPool) ← setupPool body organization
    let (students, flushed) ← newStudents settings payload user organization (newClass ++ newPool)
    raiseIf (body.state ≠ .draft ∧ students = []) (.http 422
      "Add at least one student before opening the lab.")
    let (run, lab, newRun) ← setupRun body user organization classId poolId edited
    saveSetup payload user organization run lab poolId students (flushed ++ newRun)

/-- `_save`: after an integrity error, a simultaneous retry may have saved the receipt. -/
def saveOrReplay (settings : Settings) (payload : LabSetupWrite) (user : User)
    (organization : OrganizationContext) (runId : Option ℕ) : Action Etag :=
  guarded (applySetup settings payload user organization runId) fun e => do
    rollback
    if e = .integrity then do
      let s ← select
      if (s.db.labSetupReceipts.find? fun r => r.requestId = payload.requestId).isSome then
        applySetup settings payload user organization runId
      else
        fail (.http 409
          ("A class, pool, or account conflicts with an existing record. " ++
            "Reload and choose the existing resource."))
    else fail e

/-- `create_setup` and `edit_setup` -/
def writeSetup (settings : Settings) (caller : Caller) (runId : Option ℕ)
    (payload : LabSetupWrite) : Action Etag := do
  check (validateChoices payload.body)
  let (user, organization) ← currentInstructor caller
  saveOrReplay settings payload user organization runId

end LabGoblin
