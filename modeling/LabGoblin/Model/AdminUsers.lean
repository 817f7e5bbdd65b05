import LabGoblin.Model.Accounts
import LabGoblin.Model.Json

/-!
# User administration with JSON bodies

The four endpoints of the user administration that change whether an account is active or which
role it has, on the bodies they receive. The guards look at the JSON value of `is_active`, the
row gets what the column makes of it: SQLAlchemy's `Boolean` takes `None` and every value that
equals `True` or `False`, and `activate_user` takes the truth value of anything.

The requests come one after the other, each from a signed-in user.
-/

set_option autoImplicit false

namespace LabGoblin.Accounts.AdminUsers

/-- The database behind the columns of `users` that hold text: what a column has after a value
was written to it, and nothing when the statement fails. -/
structure Driver where
  text : String → Json → Option String

/-- What a `Boolean` column has after a value was written to it. -/
def booleanColumn (value : Json) : Except Exc (Option Bool) :=
  if value.same .null then .ok none
  else if value.same (.bool true) then .ok (some true)
  else if value.same (.bool false) then .ok (some false)
  else .error (.other "Value is not None, True, or False")

def textColumn (driver : Driver) (column : String) (value : Json) : Except Exc String :=
  found (driver.text column value) .integrity

/-- The value of a key of a body, if the key is there, as a column takes it. -/
def ifPresent {α : Type} (payload : Dict) (key : String) (column : Json → Except Exc α) :
    Except Exc (Option α) :=
  match payload.lookup key with
  | some value => (column value).map some
  | none => .ok none

/-- `int(value)` in an endpoint, whose exceptions nothing catches. -/
def intOf (value : Json) : Tx ℤ :=
  match value.toInt with
  | .ok n => pure n
  | .error _ => throw (.other "int() failed")

/-- `_role_or_422` -/
def roleOr422 (roleId : ℤ) : Tx Role := do
  orRaise ((← get).roles.find? fun role => (role.id : ℤ) = roleId) 422 "role_id not found"

/-- The columns that `patch_admin_user` assigns. -/
def columns (driver : Driver) (payload : Dict) (selectedRole : Option Role) :
    Except Exc UserPatch := do
  let username ← ifPresent payload "username" (textColumn driver "username")
  let email ← ifPresent payload "email" (textColumn driver "email")
  let _ ← ifPresent payload "display_name" (textColumn driver "display_name")
  let isActive ← ifPresent payload "is_active" booleanColumn
  let forcePasswordChange ← ifPresent payload "force_password_change" booleanColumn
  return {
    username := username
    email := email
    isActive := isActive
    forcePasswordChange := forcePasswordChange.map (·.getD false)
    roleId := selectedRole.map (·.id) }

/-- A patch does not change the user's id. -/
theorem UserPatch.apply_id (patch : UserPatch) (u : User) : (patch.apply u).id = u.id := rfl

/-- Deactivating a user does not change the id. -/
theorem User.deactivated_id (u : User) : { u with isActive := false }.id = u.id := rfl

/-- Giving a user a role does not change the id. -/
theorem User.withRole_id (role : Role) (u : User) : { u with roleId := role.id }.id = u.id := rfl

section Endpoints

variable (driver : Driver) (actor : User) (id : ℕ) (payload : Dict)

/-- `payload.get("is_active") is False` -/
def deactivating : Bool := (payload.get "is_active").isBool false

/-- `patch_admin_user`. The columns are written when the sessions are revoked or at the commit. -/
def patchAdminUser : Tx Unit := do
  let u ← findUser id
  raiseIf (u.id = actor.id ∧ deactivating payload = true) 400 "Cannot deactivate the current user"
  let selectedRole ← (payload.lookup "role_id").mapM fun value => do
    roleOr422 (← intOf value)
  protectLastPlatformAdmin u (deactivating payload) selectedRole
  match columns driver payload selectedRole with
  | .error e => throw e
  | .ok patch =>
    modify fun s => s.updateUser u.id patch.apply (UserPatch.apply_id patch)
    let renamed := (payload.lookup "username").any fun name => !(Json.text u.username).same name
    let deactivated := u.isActive && (payload.lookup "is_active").any (!·.truthy)
    if renamed || deactivated then revokeAllSessions u.id "account_updated"
    commit

/-- `activate_user` -/
def activateUser : Tx Unit := do
  let u ← findUser id
  raiseIf (u.id = actor.id ∧ deactivating payload = true) 400 "Cannot deactivate the current user"
  protectLastPlatformAdmin u (deactivating payload) none
  let active := (payload.get "is_active" (.bool true)).truthy
  modify fun s => s.updateUser u.id (fun u => { u with isActive := active }) fun _ => rfl
  if active = false then revokeAllSessions u.id "account_disabled"
  commit

/-- `change_user_role` -/
def changeUserRole : Tx Unit := do
  let u ← findUser id
  raiseIf ((payload.get "role_id").truthy = false) 422 "role_id is required"
  let selectedRole ← roleOr422 (← intOf (payload.get "role_id"))
  protectLastPlatformAdmin u false (some selectedRole)
  modify fun s => s.updateUser u.id (fun u => { u with roleId := selectedRole.id })
    (User.withRole_id selectedRole)
  commit

/-- `delete_admin_user`, which deactivates. -/
def deleteAdminUser : Tx Unit := do
  raiseIf (id = actor.id) 400 "Cannot delete the current user"
  let u ← findUser id
  protectLastPlatformAdmin u true none
  modify fun s => s.updateUser u.id (fun u => { u with isActive := false }) User.deactivated_id
  revokeAllSessions u.id "account_disabled"
  commit

end Endpoints

/-! ## Requests one after the other -/

inductive Call where
  | patchAdminUser (id : ℕ) (payload : Dict)
  | activateUser (id : ℕ) (payload : Dict)
  | changeUserRole (id : ℕ) (payload : Dict)
  | deleteAdminUser (id : ℕ)

def Call.run (driver : Driver) (actor : User) : Call → Tx Unit
  | .patchAdminUser id payload => AdminUsers.patchAdminUser driver actor id payload
  | .activateUser id payload => AdminUsers.activateUser actor id payload
  | .changeUserRole id payload => AdminUsers.changeUserRole id payload
  | .deleteAdminUser id => AdminUsers.deleteAdminUser actor id

/-- A call and the id of the user who makes it. -/
structure Request where
  caller : ℕ
  call : Call

/-- What `require_role("Admin")` asks of the signed-in user. -/
def requireActiveAdmin (caller : ℕ) : Tx User := do
  let actor ← orRaise ((← get).users.get? caller) 401 "Invalid token"
  raiseIf (actor.isActive = false) 403 "User account is disabled"
  raiseIf (isAdmin (← get) actor = false) 403 "Forbidden"
  return actor

def Request.run (driver : Driver) (r : Request) : Tx Unit := do
  let actor ← requireActiveAdmin r.caller
  r.call.run driver actor

/-- The state after a request. One that raises leaves no trace. -/
def serve (driver : Driver) (s : State) (r : Request) : State :=
  match (r.run driver).run s with
  | .ok ((), t) => t
  | .error _ => s

def serveAll (driver : Driver) (s : State) (requests : List Request) : State :=
  requests.foldl (serve driver) s

end LabGoblin.Accounts.AdminUsers
