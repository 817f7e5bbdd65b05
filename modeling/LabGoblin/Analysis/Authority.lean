import LabGoblin.Analysis.Assigning
import LabGoblin.Analysis.Conduct
import LabGoblin.Analysis.Fixture
import LabGoblin.Analysis.Visibility

/-!
# The rows that decide about an operation

The worker checks a queued operation against the rows it finds. Which rows these are, and what
the check then asks of a requester who is active: nothing of a platform administrator, an
administrator or an owner of the organization, of an instructor that a class of theirs uses the
VM, of a student the classroom rules.
-/

set_option autoImplicit false

namespace LabGoblin

open Interactive

/-! ## Rows that decide -/

/-- The rows that give users their roles, classes and lab runs are the same. -/
structure Db.SameRules (db db' : Db) : Prop where
  roles : db'.roles.rows = db.roles.rows
  users : db'.users.rows = db.users.rows
  organizations : db'.organizations.rows = db.organizations.rows
  organizationMemberships : db'.organizationMemberships.rows = db.organizationMemberships.rows
  classes : db'.classes.rows = db.classes.rows
  enrollments : db'.enrollments.rows = db.enrollments.rows
  labs : db'.labs.rows = db.labs.rows
  labRuns : db'.labRuns.rows = db.labRuns.rows

/-- A database has the same rules as itself. -/
theorem Db.SameRules.refl (db : Db) : db.SameRules db := ⟨rfl, rfl, rfl, rfl, rfl, rfl, rfl, rfl⟩

/-- Having the same rules is transitive. -/
theorem Db.SameRules.trans {a b c : Db} (h : a.SameRules b) (h' : b.SameRules c) :
    a.SameRules c :=
  ⟨h'.roles.trans h.roles, h'.users.trans h.users, h'.organizations.trans h.organizations,
    h'.organizationMemberships.trans h.organizationMemberships, h'.classes.trans h.classes,
    h'.enrollments.trans h.enrollments, h'.labs.trans h.labs, h'.labRuns.trans h.labRuns⟩

/-- Drawing a key changes no rule. -/
theorem Db.SameRules.draw (db : Db) (q : Sequence) : db.SameRules (db.draw q) := by
  cases q <;> exact ⟨rfl, rfl, rfl, rfl, rfl, rfl, rfl, rfl⟩

/-- The write concerns VM records, assignments, allocators or operations. -/
def Write.sparesRules : Write → Bool
  | .run _ => false
  | .catalogue _ => false
  | _ => true

/-- A write that spares the rules changes none. -/
theorem Db.SameRules.apply {w : Write} {db db' : Db} (hw : w.sparesRules = true)
    (h : w.apply db = some db') : db.SameRules db' := by
  cases w with
  | run w => cases hw
  | catalogue w => cases hw
  | _ =>
    obtain ⟨table, -, rfl⟩ := Option.map_eq_some_iff.mp h
    exact ⟨rfl, rfl, rfl, rfl, rfl, rfl, rfl, rfl⟩

/-- Writes that spare the rules change none, by induction on them. -/
theorem Db.SameRules.applyAll {ws : List Write} {db db' : Db}
    (hws : ∀ w ∈ ws, w.sparesRules = true) (h : Db.applyAll ws db = some db') :
    db.SameRules db' := by
  induction ws generalizing db with
  | nil =>
    cases h
    exact .refl _
  | cons w ws ih =>
    obtain ⟨u, hu, hrest⟩ := Option.bind_eq_some_iff.mp h
    have hfirst : db.SameRules u := .apply (hws w List.mem_cons_self) hu
    have hothers : u.SameRules db' := ih (fun v hv => hws v (List.mem_cons_of_mem w hv)) hrest
    exact hfirst.trans hothers

/-- No row that decides about an operation on a VM has changed. -/
structure Db.SameAuthority (v : ℕ) (db db' : Db) : Prop where
  rules : db.SameRules db'
  labAssignments : db'.labAssignments.rows = db.labAssignments.rows
  record : ∀ vm', db'.studentVms.get? v = some vm' →
    ∃ vm, db.studentVms.get? v = some vm ∧ vm.SameRecord vm'

/-- In the same database the same rows decide. -/
theorem Db.SameAuthority.refl (v : ℕ) (db : Db) : db.SameAuthority v db :=
  ⟨.refl db, rfl, fun vm hvm => ⟨vm, hvm, .refl vm⟩⟩

section Rules

variable {db db' : Db} (h : db.SameRules db')
include h

/-- Under the same rules a user has the same role. -/
theorem Db.SameRules.getRoleName (user : User) :
    getRoleName db' user = getRoleName db user := by
  unfold LabGoblin.getRoleName Table.get?
  rw [h.roles]

/-- Under the same rules the same user is active. -/
theorem Db.SameRules.activeUser (userId : ℕ) :
    (db'.users.first fun u => u.id = userId && u.isActive) =
      db.users.first fun u => u.id = userId && u.isActive := by
  unfold Table.first
  rw [h.users]

/-- Under the same rules the same organization is enabled. -/
theorem Db.SameRules.enabledOrganization (organizationId : ℕ) :
    enabledOrganization db' organizationId = enabledOrganization db organizationId := by
  unfold LabGoblin.enabledOrganization Table.first
  rw [h.organizations]

/-- Under the same rules the same membership is active. -/
theorem Db.SameRules.getActiveMembership (userId organizationId : ℕ) :
    getActiveMembership db' userId organizationId =
      getActiveMembership db userId organizationId := by
  unfold LabGoblin.getActiveMembership Table.first
  rw [h.organizationMemberships]

/-- Under the same rules the same run is found. -/
theorem Db.SameRules.runInOrganization (runId organizationId : ℕ) :
    runInOrganization db' runId organizationId = runInOrganization db runId organizationId := by
  unfold LabGoblin.runInOrganization Table.first
  rw [h.labRuns]

/-- Under the same rules the same lab is found. -/
theorem Db.SameRules.labInOrganization (labId organizationId : ℕ) :
    labInOrganization db' labId organizationId = labInOrganization db labId organizationId := by
  unfold LabGoblin.labInOrganization Table.first
  rw [h.labs]

/-- Under the same rules the same enrollment is active. -/
theorem Db.SameRules.activeEnrollment (classId userId : ℕ) :
    activeEnrollment db' classId userId = activeEnrollment db classId userId := by
  unfold LabGoblin.activeEnrollment Table.first
  rw [h.enrollments]

section Assignments

variable (ha : db'.labAssignments.rows = db.labAssignments.rows)
include ha

/-- Under the same rules the same instructors teach a VM, with the assignments unchanged. -/
theorem Db.SameRules.teachesVm (userId organizationId vmId : ℕ) :
    teachesVm db' userId organizationId vmId = teachesVm db userId organizationId vmId := by
  unfold LabGoblin.teachesVm
  rw [ha, h.labRuns, h.labs, h.classes]

/-- Under the same rules a student is admitted to the same operations, with the assignments
unchanged. -/
theorem Db.SameRules.enforceStudentVmOperation (now : Time) (userId organizationId vmId : ℕ)
    (operation : VmAccess) :
    enforceStudentVmOperation db' now userId organizationId vmId operation =
      enforceStudentVmOperation db now userId organizationId vmId operation := by
  have hactive : activeAssignmentForVm db' now userId organizationId vmId =
      activeAssignmentForVm db now userId organizationId vmId := by
    unfold activeAssignmentForVm
    simp only [h.runInOrganization, h.labInOrganization, h.activeEnrollment]
    unfold Table.first
    rw [ha]
  unfold LabGoblin.enforceStudentVmOperation
  rw [hactive]

end Assignments

end Rules

/-! ## What the validator asks -/

/-- What the validator asks of a member with a role. -/
def RoleAdmits (db : Db) (now : Time) (userId : ℕ) (vm : StudentVM) (operation : VmAccess) :
    OrganizationRole → Prop
  | .student => vm.ownerId = userId ∧ ∃ access, enforceStudentVmOperation db now userId
      vm.organizationId vm.id operation = .ok access
  | .instructor => teachesVm db userId vm.organizationId vm.id = true
  | _ => True

/-- The user is active, and acts in an enabled organization as a member with the role or as a
platform administrator. -/
structure ActsAs (db : Db) (user : User) (organizationId : ℕ) (role : OrganizationRole) :
    Prop where
  active : (db.users.first fun u => u.id = user.id && u.isActive) = some user
  enabled : (enabledOrganization db organizationId).isSome = true
  member : getRoleName db user = some .admin ∨
    ∃ m, getActiveMembership db user.id organizationId = some m ∧ m.role = role

/-- A student is refused by an HTTP error only. -/
theorem enforceStudentVmOperation_error {db : Db} {now : Time} {userId organizationId vmId : ℕ}
    {operation : VmAccess} {e : Exc}
    (h : enforceStudentVmOperation db now userId organizationId vmId operation = .error e) :
    ∃ status detail, e = .http status detail := by
  unfold enforceStudentVmOperation at h
  cases hactive : activeAssignmentForVm db now userId organizationId vmId with
  | none =>
    rw [hactive] at h
    cases h
    exact ⟨_, _, rfl⟩
  | some access =>
    rw [hactive] at h
    cases hforbids : labForbids access.2.2 operation with
    | none =>
      simp only [hforbids] at h
      cases h
    | some detail =>
      simp only [hforbids] at h
      cases h
      exact ⟨_, _, rfl⟩

/-- The validator accepts an actor by the role of the membership, and a platform administrator. -/
theorem validateActor_admits {db : Db} {now : Time} {row : DurableOperation} {vm : StudentVM}
    {user : User} {role : OrganizationRole} (h : ActsAs db user vm.organizationId role) :
    (∀ message, validateActor db now row vm.organizationId vm user ≠
        .error (.authorization message)) ↔
      getRoleName db user = some .admin ∨
        RoleAdmits db now user.id vm row.operationType.access role := by
  unfold validateActor
  by_cases hadmin : getRoleName db user = some .admin
  · rw [if_pos hadmin]
    exact ⟨fun _ => Or.inl hadmin, fun _ _ => nofun⟩
  · rw [if_neg hadmin, or_iff_right hadmin]
    obtain ⟨m, hm, rfl⟩ := h.member.resolve_left hadmin
    rw [hm]
    cases hrole : m.role with
    | admin => simp [RoleAdmits, hrole]
    | owner => simp [RoleAdmits, hrole]
    | instructor =>
      by_cases hteaches : teachesVm db user.id vm.organizationId vm.id = true <;>
        simp [RoleAdmits, hrole, hteaches]
    | student =>
      by_cases howner : vm.ownerId = user.id
      · cases henforce : enforceStudentVmOperation db now user.id vm.organizationId vm.id
            row.operationType.access with
        | ok access => simp [RoleAdmits, hrole, howner, henforce]
        | error e =>
          obtain ⟨status, detail, rfl⟩ := enforceStudentVmOperation_error henforce
          simp [RoleAdmits, hrole, howner, henforce]
      · simp [RoleAdmits, hrole, howner]

/-- For an operation with a requester, the validator looks at the requester only. -/
theorem validate_of_actor {db : Db} {now : Time} {row : DurableOperation} {vm : StudentVM}
    {user : User} {role : OrganizationRole} (h : ActsAs db user vm.organizationId role)
    (horganization : row.organizationId = some vm.organizationId)
    (huser : row.requestedBy = some user.id) (payload : Payload) :
    validateOperationAuthorization db now row vm payload =
      validateActor db now row vm.organizationId vm user := by
  have henabled : ¬ (enabledOrganization db vm.organizationId).isNone = true := by
    rw [Option.isNone_iff_eq_none, ← ne_eq, ← Option.isSome_iff_ne_none]
    exact h.enabled
  unfold validateOperationAuthorization
  rw [horganization]
  dsimp only
  rw [if_neg (not_not_intro rfl), if_neg henabled, huser]
  dsimp only
  rw [h.active]

/-- Who acts as a member under some rules does so under the same rules. -/
theorem ActsAs.along {db db' : Db} {user : User} {organizationId : ℕ} {role : OrganizationRole}
    (h : ActsAs db user organizationId role) (hs : db.SameRules db') :
    ActsAs db' user organizationId role where
  active := (hs.activeUser user.id).trans h.active
  enabled := by
    rw [hs.enabledOrganization]
    exact h.enabled
  member := by
    rw [hs.getRoleName, hs.getActiveMembership]
    exact h.member

/-- While no row that decides has changed, no attempt of the operation on the VM is rejected. -/
def NeverRejected (db : Db) (now : Time) (row : DurableOperation) : Prop :=
  ∀ db' attempt vm payload message, db.SameAuthority vm.id db' → row.SameJob attempt →
    attempt.target = .studentVm vm.id → db'.studentVms.get? vm.id = some vm →
    validateOperationAuthorization db' now attempt vm payload ≠
      .error (.authorization message)

/-- So the operation is rejected where the role does not admit it. -/
theorem neverRejected_iff {db : Db} {now : Time} {row : DurableOperation} {vm : StudentVM}
    {user : User} {role : OrganizationRole} (h : ActsAs db user vm.organizationId role)
    (horganization : row.organizationId = some vm.organizationId)
    (huser : row.requestedBy = some user.id) (htarget : row.target = .studentVm vm.id)
    (hvm : db.studentVms.get? vm.id = some vm) :
    NeverRejected db now row ↔ getRoleName db user = some .admin ∨
      RoleAdmits db now user.id vm row.operationType.access role := by
  constructor
  · intro hnever
    refine (validateActor_admits h).mp fun message => ?_
    rw [← validate_of_actor h horganization huser row.payload]
    exact hnever db row vm row.payload message (.refl vm.id db) (.refl row) htarget hvm
  · intro hadmits db' attempt vm' payload message hs hattempt htarget' hvm'
    have hid : vm'.id = vm.id := by
      have heq := (htarget'.symm.trans hattempt.target).trans htarget
      injection heq
    rw [hid] at hs hvm'
    obtain ⟨found, hfound, hrecord⟩ := hs.record vm' hvm'
    cases hvm.symm.trans hfound
    have hacts : ActsAs db' user vm'.organizationId role := by
      rw [hrecord.organizationId]
      exact h.along hs.rules
    have horganization' : attempt.organizationId = some vm'.organizationId := by
      rw [hattempt.organizationId, horganization, hrecord.organizationId]
    have huser' : attempt.requestedBy = some user.id := hattempt.requestedBy.trans huser
    rw [validate_of_actor hacts horganization' huser']
    refine (validateActor_admits hacts).mpr ?_ message
    rw [hs.rules.getRoleName]
    refine hadmits.imp_right fun hrole => ?_
    rw [hattempt.operationType]
    cases role with
    | student =>
      unfold RoleAdmits
      rw [hrecord.ownerId, hrecord.organizationId, hrecord.id,
        hs.rules.enforceStudentVmOperation hs.labAssignments]
      exact hrole
    | instructor =>
      unfold RoleAdmits
      rw [hrecord.organizationId, hrecord.id, hs.rules.teachesVm hs.labAssignments]
      exact hrole
    | admin => trivial
    | owner => trivial

/-! ## The caller -/

/-- An endpoint serves active users. -/
theorem activeUser_of_currentUser {db : Db} {caller : Caller} {user : User}
    (h : currentUser db caller = .ok user) :
    (db.users.first fun u => u.id = user.id && u.isActive) = some user := by
  unfold currentUser at h
  cases hget : db.users.get? caller.userId with
  | none =>
    rw [hget] at h
    cases h
  | some found =>
    rw [hget] at h
    dsimp only at h
    by_cases hinactive : (!found.isActive) = true
    · rw [if_pos hinactive] at h
      cases h
    · rw [if_neg hinactive] at h
      by_cases hforced : found.forcePasswordChange = true
      · rw [if_pos hforced] at h
        cases h
      · rw [if_neg hforced] at h
        cases h
        have hid : user.id = caller.userId := Table.get?_key hget
        have hactive : user.isActive = true := by simpa using hinactive
        rw [Table.first_key_and, hid, hget]
        simp [hactive]

/-- The enabled organization that is found has the id it was asked for. -/
theorem enabledOrganization_id {db : Db} {id : ℕ} {organization : Organization}
    (h : enabledOrganization db id = some organization) : organization.id = id := by
  have hfound := (Table.first_some h).2
  simp only [Bool.and_eq_true, decide_eq_true_eq] at hfound
  exact hfound.1

/-- The active membership of a user in an organization is the only one. -/
theorem getActiveMembership_of_mem {db : Db} (hvalid : db.Constraints)
    {m : OrganizationMembership} (hm : m ∈ db.organizationMemberships.rows)
    (hactive : m.isActive = true) : getActiveMembership db m.userId m.organizationId = some m := by
  unfold getActiveMembership Table.first
  refine (Table.find?_eq_some_iff_of_unique ?_ m).mpr ⟨hm, by simp [hactive]⟩
  intro x hx y hy hpx hpy
  simp only [Bool.and_eq_true, decide_eq_true_eq] at hpx hpy
  refine hvalid.memberships_user x hx y hy (by simp) ?_
  dsimp only
  rw [hpx.1.1, hpx.1.2, hpy.1.1, hpy.1.2]

/-- The organization of a context is enabled, and its role is that of the membership, but for
platform administrators. -/
theorem member_of_resolve {db : Db} (hvalid : db.Constraints) {user : User}
    {requested : Option ℕ} {organization : OrganizationContext}
    (h : resolveOrganizationContext db user requested = .ok organization) :
    (enabledOrganization db organization.id).isSome = true ∧
      (getRoleName db user = some .admin ∨
        ∃ m, getActiveMembership db user.id organization.id = some m ∧
          m.role = organization.role) := by
  unfold resolveOrganizationContext at h
  cases requested with
  | some id =>
    dsimp only at h
    cases henabled : enabledOrganization db id with
    | none =>
      rw [henabled] at h
      cases h
    | some o =>
      rw [henabled] at h
      dsimp only at h
      have hid : o.id = id := enabledOrganization_id henabled
      have hsome : (enabledOrganization db o.id).isSome = true := by
        rw [hid, henabled]
        rfl
      by_cases hadmin : getRoleName db user = some .admin
      · rw [if_pos hadmin] at h
        cases h
        exact ⟨hsome, Or.inl hadmin⟩
      · rw [if_neg hadmin] at h
        cases hmember : getActiveMembership db user.id o.id with
        | none =>
          rw [hmember] at h
          cases h
        | some m =>
          rw [hmember] at h
          cases h
          exact ⟨hsome, Or.inr ⟨m, hmember, rfl⟩⟩
  | none =>
    dsimp only at h
    split at h
    · rename_i m o hsingle
      cases h
      have hmem : (m, o) ∈ [(m, o)] := List.mem_singleton_self _
      rw [← hsingle, List.mem_filterMap] at hmem
      obtain ⟨m', hm', hmem⟩ := hmem
      by_cases hmine : (m'.userId = user.id && m'.isActive) = true
      · rw [if_pos hmine] at hmem
        obtain ⟨o', henabled, heq⟩ := Option.map_eq_some_iff.mp hmem
        cases heq
        have hid : o.id = m.organizationId := enabledOrganization_id henabled
        simp only [Bool.and_eq_true, decide_eq_true_eq] at hmine
        have hfound := getActiveMembership_of_mem hvalid hm' hmine.2
        rw [hmine.1, ← hid] at hfound
        refine ⟨?_, Or.inr ⟨m, hfound, rfl⟩⟩
        rw [hid, henabled]
        rfl
      · rw [if_neg hmine] at hmem
        cases hmem
    · cases h
    · split at h <;> cases h

/-- Who an endpoint serves acts with the role of the context that was resolved. -/
theorem actsAs_of_resolve {db : Db} (hvalid : db.Constraints) {caller : Caller} {user : User}
    {organization : OrganizationContext} (huser : currentUser db caller = .ok user)
    (horganization : resolveOrganizationContext db user caller.organizationId =
      .ok organization) : ActsAs db user organization.id organization.role := by
  obtain ⟨henabled, hmember⟩ := member_of_resolve hvalid horganization
  exact ⟨activeUser_of_currentUser huser, henabled, hmember⟩

end LabGoblin
