import LabGoblin.Computation.World
import LabGoblin.Model.Access
import LabGoblin.Model.Json

/-!
# Organization memberships

`put_member` and `deactivate_member` of `api/routers/admin_organizations.py`. Each locks the row
of the organization with `SELECT … FOR UPDATE`, reads, and writes one membership in the
transaction that it commits. At READ COMMITTED a statement sees what is committed when it starts.
The end of a transaction, by a commit or by an exception, gives its locks back.
-/

set_option autoImplicit false

namespace LabGoblin.Memberships

open Interactive

/-- The committed tables, which transaction holds the lock of the row of an organization, and
the number of calls that were started. -/
structure State where
  organizations : Table Organization Organization.id
  users : Table User User.id
  memberships : Table OrganizationMembership OrganizationMembership.id
  holder : ℕ → Option Pid
  calls : ℕ

/-- What the transaction has to write when it commits. -/
inductive Write where
  /-- the `INSERT` of a membership, whose `is_active` has its default -/
  | insert (organizationId userId : ℕ) (role : OrganizationRole)
  /-- the `UPDATE` of the columns that were changed -/
  | update (id : ℕ) (role : Option OrganizationRole) (isActive : Option Bool)

inductive Stmt where
  | read
  /-- the `SELECT … FOR UPDATE` of an organization -/
  | lock (organizationId : ℕ)
  /-- the flush of a write and the `COMMIT` -/
  | commit (write : Write)

/-- The columns that an `UPDATE` sets. -/
def assign (role : Option OrganizationRole) (isActive : Option Bool)
    (m : OrganizationMembership) : OrganizationMembership :=
  { m with role := role.getD m.role, isActive := isActive.getD m.isActive }

namespace State

variable (t : State)

/-- `query(OrganizationMembership).filter(…).first()` -/
def membership (organizationId userId : ℕ) : Option OrganizationMembership :=
  t.memberships.first fun m => m.organizationId = organizationId && m.userId = userId

/-- The unique constraint on the organization and the user. -/
def Admits : Write → Prop
  | .insert organizationId userId _ => t.membership organizationId userId = none
  | .update _ _ _ => True

instance (write : Write) : Decidable (t.Admits write) :=
  match write with
  | .insert organizationId userId _ =>
    inferInstanceAs (Decidable (t.membership organizationId userId = none))
  | .update _ _ _ => .isTrue trivial

/-- The table after a write. -/
def written : Write → Table OrganizationMembership OrganizationMembership.id
  | .insert organizationId userId role =>
    t.memberships.add (fun id => ⟨id, organizationId, userId, role, true⟩) fun _ => rfl
  | .update id role isActive =>
    t.memberships.update id (assign role isActive) fun _ => rfl

/-- The end of a transaction gives its locks back. -/
def release (p : Pid) : State :=
  { t with holder := fun o => if t.holder o = some p then none else t.holder o }

end State

abbrev signature : Signature where
  View := State
  Stmt := Stmt
  Call := Empty
  Reply := fun _ => Unit
  Exc := Exc

/-- The effect of a statement. A write that breaks the constraint is not committed. -/
def exec (p : Pid) (q : Stmt) (t : State) : State :=
  match q with
  | .read => t
  | .lock organizationId =>
    if (t.organizations.get? organizationId).isSome then
      { t with holder := fun o => if o = organizationId then some p else t.holder o }
    else t
  | .commit write =>
    if t.Admits write then { t with memberships := t.written write }.release p else t.release p

/-- Another transaction's lock is waited for. -/
def Enabled (p : Pid) (q : Stmt) (t : State) : Prop :=
  match q with
  | .lock organizationId =>
    t.holder organizationId = none ∨ t.holder organizationId = some p
  | _ => True

instance (p : Pid) (q : Stmt) (t : State) : Decidable (Enabled p q t) := by
  unfold Enabled
  cases q <;> infer_instance

def machine : Machine signature State where
  view := id
  enabled := Enabled
  exec := exec
  answer := fun _ _ _ _ _ => False

/-! ## The endpoints -/

abbrev M := Program signature

def issue (q : Stmt) : M State := Program.run (G := signature) q

/-- Flush and commit, or raise `IntegrityError`. -/
def commit (write : Write) : M Unit := do
  let t ← issue (.commit write)
  if t.Admits write then return () else .throw .integrity

/-- `_organization_or_404` with `lock=True` -/
def organizationOr404 (organizationId : ℕ) : M Unit := do
  let t ← issue (.lock organizationId)
  match t.organizations.get? organizationId with
  | some _ => return ()
  | none => .throw (.http 404 "Organization not found")

def organizationRoles : List OrganizationRole := [.student, .instructor, .admin, .owner]

/-- `normalize_organization_role` on a JSON value, with `str.lower`. -/
def normalizeOrganizationRole (lower : Text → Text) (value : Json) :
    Except Exc (Option OrganizationRole) :=
  if value.truthy then
    match value with
    | .text s =>
      .ok (organizationRoles.find? fun role => role.text.toList = lower (Text.strip s.toList))
    | _ => .error (.other "AttributeError: no attribute 'strip'")
  else .ok none

/-- `_ensure_another_active_owner` -/
def ensureAnotherActiveOwner (organizationId excludedUserId : ℕ) : M Unit := do
  let t ← issue .read
  let remaining := (t.memberships.filter fun m => m.organizationId = organizationId &&
    m.userId ≠ excludedUserId && m.role = .owner && m.isActive).length
  if remaining = 0 then .throw (.http 409 "An organization must retain at least one active owner")

/-- The value that an assignment changes, if it does. -/
def changed {α : Type} [DecidableEq α] (loaded assigned : α) : Option α :=
  if assigned = loaded then none else some assigned

/-- `put_member` -/
def putMember (lower : Text → Text) (organizationId userId : ℕ) (payload : Dict) : M Unit := do
  organizationOr404 organizationId
  let t ← issue .read
  match t.users.get? userId with
  | none => .throw (.http 404 "User not found")
  | some _ =>
    match ← Program.ofExcept (G := signature)
      (normalizeOrganizationRole lower (payload.get "role")) with
    | none => .throw (.http 422 "role must be student, instructor, admin, or owner")
    | some role =>
      let t ← issue .read
      match t.membership organizationId userId with
      | none => commit (.insert organizationId userId role)
      | some m =>
        let willBeActive := (payload.get "is_active" (.bool true)).truthy
        if m.role = .owner ∧ (role ≠ .owner ∨ willBeActive = false) then
          ensureAnotherActiveOwner organizationId userId
        commit (.update m.id (changed m.role role) (changed m.isActive willBeActive))

/-- `deactivate_member` -/
def deactivateMember (organizationId userId : ℕ) : M Unit := do
  organizationOr404 organizationId
  let t ← issue .read
  match t.membership organizationId userId with
  | none => .throw (.http 404 "Organization membership not found")
  | some m =>
    if m.role = .owner ∧ m.isActive = true then ensureAnotherActiveOwner organizationId userId
    commit (.update m.id none (changed m.isActive false))

/-! ## The calls -/

inductive Request where
  | putMember (organizationId userId : ℕ) (payload : Dict)
  | deactivateMember (organizationId userId : ℕ)

def program (lower : Text → Text) : Request → M Unit
  | .putMember organizationId userId payload =>
    Memberships.putMember lower organizationId userId payload
  | .deactivateMember organizationId userId =>
    Memberships.deactivateMember organizationId userId

/-- The other endpoints change users and organizations. -/
def Others (t t' : State) : Prop :=
  ∃ organizations users, t' = { t with organizations := organizations, users := users }

/-- Any number of calls at once, each of which may be cut off anywhere. -/
def system (lower : Text → Text) : System signature State Request where
  machine := machine
  program := program lower
  admits := fun _ _ => True
  next := State.calls
  enter := fun _ t => { t with calls := t.calls + 1 }
  leave := fun p t => t.release p
  env := Others

end LabGoblin.Memberships
