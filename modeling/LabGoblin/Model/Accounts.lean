import LabGoblin.Computation.Table
import LabGoblin.Model.Access

/-!
# Accounts, sessions and access tokens

A login issues a session row and a signed access token that names the user, the session and the
user's token version. `get_user_from_token` accepts a token by looking all three up. The user
administration renames, disables, re-activates and resets users, and revokes their sessions.

Every endpoint is one transaction: it reads and changes the tables and commits, or raises and
leaves them as they were. `history` is not a table: it records the tokens that were issued and
the revocations, the latest first. Times are in microseconds; the times in a token are in seconds.
-/

set_option autoImplicit false

namespace LabGoblin.Accounts

open Interactive

structure Role where
  id : ℕ
  name : String
  deriving DecidableEq

structure User where
  id : ℕ
  username : String
  email : String
  passwordHash : String
  roleId : ℕ
  isActive : Bool
  forcePasswordChange : Bool
  tokenVersion : ℕ
  deriving DecidableEq

structure AuthSession where
  id : ℕ
  userId : ℕ
  tokenId : String
  expiresAt : ℕ
  revokedAt : Option ℕ
  revokeReason : Option String
  deriving DecidableEq

structure AuthLoginAttempt where
  keyHash : String
  failures : ℕ
  firstFailureAt : ℕ
  blockedUntil : Option ℕ
  deriving DecidableEq

/-- The claims of an access token. -/
structure Claims where
  sub : String
  jti : String
  ver : ℕ
  iat : ℕ
  exp : ℕ
  typ : String
  deriving DecidableEq

/-- A token that is presented: one that carries the service's signature, or anything else. -/
inductive Token where
  | signed (claims : Claims)
  | other (text : String)
  deriving DecidableEq

inductive Record where
  /-- `create_access_token` returned a token for a session of the user. -/
  | issued (claims : Claims) (userId : ℕ)
  /-- `revoke_all_sessions` was called for the user. -/
  | revokedAll (userId : ℕ)
  /-- `revoke_session` was called for the session with the token id. -/
  | revoked (tokenId : String)
  deriving DecidableEq

structure State where
  users : Table User (·.id)
  sessions : Table AuthSession (·.id)
  attempts : List AuthLoginAttempt
  roles : List Role
  clock : ℕ
  history : List Record

structure Settings where
  accessTokenExpireMinutes : ℕ := 60
  passwordMinLength : ℕ := 12
  loginMaxFailures : ℕ := 5
  loginFailureWindowSeconds : ℕ := 300
  loginLockoutSeconds : ℕ := 900
  bootstrapAdminToken : Option String := none

/-- The functions of libraries and of the database that the code calls. -/
structure Library where
  hash : String → String
  verify : String → String → Bool
  /-- The SHA-256 of the normalized address and name. -/
  attemptKey : String → Option String → String
  ilike : String → String → Bool
  strip : String → String
  lower : String → String
  islower : Char → Bool
  isupper : Char → Bool
  isdigit : Char → Bool
  isalnum : Char → Bool

/-- Code inside a transaction: when it raises, its changes are gone. -/
abbrev Tx := StateT State (Except Exc)

/-- The unique constraints of the tables. -/
structure State.Constraints (s : State) : Prop where
  username : s.users.Unique (some ·.username)
  email : s.users.Unique (some ·.email)
  tokenId : s.sessions.Unique (some ·.tokenId)

instance (s : State) : Decidable s.Constraints :=
  decidable_of_iff (s.users.Unique (some ·.username) ∧ s.users.Unique (some ·.email) ∧
      s.sessions.Unique (some ·.tokenId))
    ⟨fun h => ⟨h.1, h.2.1, h.2.2⟩, fun h => ⟨h.username, h.email, h.tokenId⟩⟩

/-- `db.commit()`, which fails when a constraint does. -/
def commit : Tx Unit := do
  unless (← get).Constraints do throw .integrity

def raiseIf (p : Prop) [Decidable p] (status : ℕ) (detail : String) : Tx Unit :=
  if p then throw (.http status detail) else pure ()

def orRaise {α : Type} (a : Option α) (status : ℕ) (detail : String) : Tx α :=
  match a with
  | some a => pure a
  | none => throw (.http status detail)

def microseconds (seconds : ℕ) : ℕ := seconds * 1000000

/-! ## Changes of the tables -/

namespace State

variable (s : State)

/-- Assign to attributes of the user with an id. -/
def updateUser (id : ℕ) (f : User → User) (hf : ∀ u, (f u).id = u.id) : State :=
  { s with users := s.users.update id f hf }

def addUser (username email passwordHash : String) (roleId : ℕ)
    (isActive forcePasswordChange : Bool) : State :=
  { s with
    users := s.users.add (fun id => ⟨id, username, email, passwordHash, roleId, isActive,
      forcePasswordChange, 1⟩) fun _ => rfl }

end State

/-- `version or 1` -/
def orOne (version : ℕ) : ℕ := if version = 0 then 1 else version

/-- `create_access_token` -/
def createAccessToken (settings : Settings) (subject tokenId : String) (tokenVersion now : ℕ) :
    Claims where
  sub := subject
  jti := tokenId
  ver := tokenVersion
  iat := now / 1000000
  exp := (now + microseconds (settings.accessTokenExpireMinutes * 60)) / 1000000
  typ := "access"

/-- What `issue_session` adds, with the token id that `new_token_id` returns. -/
def State.withSession (s : State) (settings : Settings) (user : User) (tokenId : String)
    (claims : Claims) : State :=
  { s with
    sessions := s.sessions.add (fun id => ⟨id, user.id, tokenId,
      s.clock + microseconds (settings.accessTokenExpireMinutes * 60), none, none⟩) fun _ => rfl
    history := .issued claims user.id :: s.history }

/-- `issue_session` -/
def issueSession (settings : Settings) (user : User) (tokenId : String) : Tx Claims := do
  let s ← get
  let claims := createAccessToken settings user.username tokenId (orOne user.tokenVersion) s.clock
  set (s.withSession settings user tokenId claims)
  return claims

/-- What a revocation does to a session row. -/
def AuthSession.revoke (now : ℕ) (reason : String) (row : AuthSession) : AuthSession :=
  if row.revokedAt = none then { row with revokedAt := some now, revokeReason := some reason }
  else row

/-- Revoking a session does not change its id. -/
theorem AuthSession.revoke_id (now : ℕ) (reason : String) (row : AuthSession) :
    (row.revoke now reason).id = row.id := by
  unfold AuthSession.revoke
  split <;> rfl

def State.withRevoked (s : State) (session : AuthSession) (reason : String) : State :=
  { s with
    sessions := s.sessions.update session.id (AuthSession.revoke s.clock reason)
      (AuthSession.revoke_id _ _)
    history := .revoked session.tokenId :: s.history }

/-- `revoke_session` -/
def revokeSession (session : AuthSession) (reason : String) : Tx Unit :=
  modify fun s => s.withRevoked session reason

/-- The session rows of a user are revoked. -/
def AuthSession.revokeOf (userId now : ℕ) (reason : String) (row : AuthSession) : AuthSession :=
  if row.userId = userId then row.revoke now reason else row

/-- Revoking the sessions of a user changes no session's id. -/
theorem AuthSession.revokeOf_id (userId now : ℕ) (reason : String) (row : AuthSession) :
    (row.revokeOf userId now reason).id = row.id := by
  unfold AuthSession.revokeOf
  split
  · exact AuthSession.revoke_id now reason row
  · rfl

def State.withAllRevoked (s : State) (userId : ℕ) (reason : String) : State :=
  { s with
    sessions := s.sessions.map (AuthSession.revokeOf userId s.clock reason)
      (AuthSession.revokeOf_id _ _ _)
    users := s.users.update userId
      (fun u => { u with tokenVersion := orOne u.tokenVersion + 1 }) fun _ => rfl
    history := .revokedAll userId :: s.history }

/-- `revoke_all_sessions` -/
def revokeAllSessions (userId : ℕ) (reason : String) : Tx Unit :=
  modify fun s => s.withAllRevoked userId reason

/-! ## Who a token stands for -/

/-- `jwt.decode`: the signature, and the times in the token. -/
def decode (now : ℕ) : Token → Option Claims
  | .signed claims =>
    if microseconds claims.iat ≤ now ∧ now < microseconds claims.exp then some claims else none
  | .other _ => none

def invalidToken : Exc := .http 401 "Invalid token"

def refuseIf (p : Prop) [Decidable p] (e : Exc) : Except Exc Unit :=
  if p then .error e else .ok ()

def found {α : Type} (a : Option α) (e : Exc) : Except Exc α :=
  match a with
  | some a => .ok a
  | none => .error e

/-- `get_user_from_token` -/
def getUserFromToken (s : State) (token : Token) : Except Exc User := do
  let payload ← found (decode s.clock token) invalidToken
  refuseIf (payload.sub = "" ∨ payload.jti = "" ∨ payload.typ ≠ "access") invalidToken
  let user ← found (s.users.first fun u => u.username = payload.sub) invalidToken
  refuseIf (user.isActive = false) (.http 403 "User account is disabled")
  refuseIf (payload.ver ≠ orOne user.tokenVersion) invalidToken
  let session ← found
    (s.sessions.first fun row => row.tokenId = payload.jti && row.userId = user.id) invalidToken
  refuseIf (session.revokedAt ≠ none) invalidToken
  refuseIf (session.expiresAt ≤ s.clock) invalidToken
  return user

/-- `get_authenticated_user` -/
def getAuthenticatedUser (token : Token) : Tx User := do
  match getUserFromToken (← get) token with
  | .ok user => return user
  | .error e => throw e

/-- `get_current_auth_session` -/
def getCurrentAuthSession (token : Token) : Tx AuthSession := do
  let user ← getAuthenticatedUser token
  let s ← get
  match decode s.clock token with
  | none => throw invalidToken
  | some payload =>
    orRaise (s.sessions.first fun row => row.tokenId = payload.jti && row.userId = user.id)
      401 "Invalid token"

def knownRoles : List String := ["Student", "Teacher", "Admin"]

/-- `get_role_name` -/
def getRoleName (s : State) (user : User) : String :=
  match s.roles.find? (fun role => role.id = user.roleId) with
  | some role => if role.name ∈ knownRoles then role.name else ""
  | none => ""

/-- `require_role("Admin")` -/
def requireAdmin (token : Token) : Tx User := do
  let user ← getAuthenticatedUser token
  raiseIf (user.forcePasswordChange = true) 403 "Password change required"
  raiseIf (getRoleName (← get) user ≠ "Admin") 403 "Forbidden"
  return user

/-! ## Logging in and out -/

section Endpoints

variable (lib : Library) (settings : Settings)

def dummyPasswordHash : String :=
  "$2b$12$4YhPUD3t8f70JY7V2zNnD.8bhgXqqPp6j8cgqWOmXDVvw8O3krzxS"

/-- `validate_password` -/
def validatePassword (password : String) : Tx Unit := do
  raiseIf (password.length < settings.passwordMinLength) 422
    s!"Password must be at least {settings.passwordMinLength} characters"
  raiseIf ((!password.toList.any lib.islower || !password.toList.any lib.isupper) = true) 422
    "Password must contain upper- and lower-case letters"
  raiseIf ((!password.toList.any lib.isdigit) = true) 422 "Password must contain a number"
  raiseIf ((!password.toList.any fun c => !lib.isalnum c) = true) 422
    "Password must contain a symbol"

/-- `_check_login_allowed` -/
def checkLoginAllowed (key : String) : Tx Unit := do
  let s ← get
  let blocked := s.attempts.any fun row =>
    row.keyHash = key && row.blockedUntil.any fun until_ => s.clock < until_
  raiseIf (blocked = true) 429 "Too many login attempts. Try again later."

/-- `_record_login_failure` on the row of the key, if there is one. -/
def recordLoginFailure (key : String) : Tx Unit :=
  modify fun s =>
    let row : AuthLoginAttempt := match s.attempts.find? (·.keyHash = key) with
      | none => ⟨key, 0, s.clock, none⟩
      | some row =>
        if s.clock - row.firstFailureAt > microseconds settings.loginFailureWindowSeconds then
          { row with failures := 0, firstFailureAt := s.clock, blockedUntil := none }
        else row
    let failures := row.failures + 1
    let blockedUntil :=
      if failures ≥ settings.loginMaxFailures then
        some (s.clock + microseconds settings.loginLockoutSeconds)
      else row.blockedUntil
    { s with attempts := { row with failures := failures, blockedUntil := blockedUntil } ::
      s.attempts.filter (·.keyHash ≠ key) }

/-- `_clear_login_failures` -/
def clearLoginFailures (key : String) : Tx Unit :=
  modify fun s => { s with attempts := s.attempts.filter (·.keyHash ≠ key) }

/-- `login_user`. A refused login is committed before the refusal is raised. -/
def loginUser (username password : String) (clientIp : Option String) (tokenId : String) :
    Tx (Except Exc Claims) := do
  let key := lib.attemptKey username clientIp
  checkLoginAllowed key
  let user := (← get).users.first fun u => u.username = username
  let credentialsValid := lib.verify password ((user.map (·.passwordHash)).getD dummyPasswordHash)
  match user, credentialsValid with
  | some user, true =>
    if user.isActive = false then
      commit
      return .error (.http 403 "User account is disabled")
    else
      clearLoginFailures key
      let token ← issueSession settings user tokenId
      commit
      return .ok token
  | _, _ =>
    recordLoginFailure settings key
    commit
    return .error (.http 401 "Invalid credentials")

/-- `change_password` -/
def changePassword (token : Token) (currentPassword newPassword tokenId : String) : Tx Claims := do
  let user ← getAuthenticatedUser token
  raiseIf (lib.verify currentPassword user.passwordHash = false) 400
    "Current password is incorrect"
  validatePassword lib settings newPassword
  raiseIf (lib.verify newPassword user.passwordHash = true) 422
    "New password must be different from the current password"
  modify fun s => s.updateUser user.id
    (fun u => { u with passwordHash := lib.hash newPassword, forcePasswordChange := false })
    fun _ => rfl
  revokeAllSessions user.id "password_changed"
  let user ← orRaise ((← get).users.get? user.id) 404 "User not found"
  let claims ← issueSession settings user tokenId
  commit
  return claims

/-- `logout` -/
def logout (token : Token) : Tx Unit := do
  let session ← getCurrentAuthSession token
  revokeSession session "logout"
  commit

/-- `remove_session` -/
def removeSession (token : Token) (sessionId : ℕ) : Tx Unit := do
  let _ ← getCurrentAuthSession token
  let user ← getAuthenticatedUser token
  let row ← orRaise ((← get).sessions.first fun row => row.id = sessionId && row.userId = user.id)
    404 "Session not found"
  revokeSession row "user_revoked"
  commit

/-! ## User administration -/

/-- The body of `PATCH /admin/users/{id}`. `is_active` may be absent, null or a truth value. -/
structure UserPatch where
  username : Option String := none
  email : Option String := none
  isActive : Option (Option Bool) := none
  forcePasswordChange : Option Bool := none
  roleId : Option ℕ := none

/-- `_role_or_422` -/
def roleOr422 (roleId : ℕ) : Tx Role := do
  orRaise ((← get).roles.find? (·.id = roleId)) 422 "role_id not found"

def findUser (id : ℕ) : Tx User := do
  orRaise ((← get).users.get? id) 404 "User not found"

def isAdmin (s : State) (user : User) : Bool :=
  s.roles.any fun role => role.id = user.roleId && role.name = "Admin"

/-- `_protect_last_platform_admin` -/
def protectLastPlatformAdmin (user : User) (deactivating : Bool) (newRole : Option Role) :
    Tx Unit := do
  let s ← get
  let removesAdmin := deactivating || newRole.any fun role => role.name ≠ "Admin"
  let activeAdmins := s.users.filter fun u => u.isActive && isAdmin s u
  raiseIf ((user.isActive && isAdmin s user && removesAdmin) = true ∧ activeAdmins.length ≤ 1) 409
    "Cannot remove the last active platform administrator"

/-- `create_admin_user` -/
def createAdminUser (token : Token) (username email password : String) (role : Option String)
    (roleId : Option ℕ) (isActive forcePasswordChange : Bool) : Tx Unit := do
  let _ ← requireAdmin token
  raiseIf (username = "") 422 "username is required"
  raiseIf (email = "") 422 "email is required"
  raiseIf (password = "") 422 "password is required"
  let s ← get
  let named := role.bind fun name => (s.roles.find? fun r => lib.ilike r.name name).map (·.id)
  let roleId ← orRaise (roleId.or named) 422 "role_id or role is required"
  let selectedRole ← roleOr422 roleId
  validatePassword lib settings password
  raiseIf ((s.users.first fun u => u.username = username).isSome = true) 409
    "username already exists"
  raiseIf ((s.users.first fun u => u.email = email).isSome = true) 409 "email already exists"
  modify fun s =>
    s.addUser username email (lib.hash password) selectedRole.id isActive forcePasswordChange
  commit

/-- What `patch_admin_user` sets. -/
def UserPatch.apply (patch : UserPatch) (u : User) : User :=
  { u with
    username := patch.username.getD u.username
    email := patch.email.getD u.email
    isActive := (patch.isActive.map (·.getD false)).getD u.isActive
    forcePasswordChange := patch.forcePasswordChange.getD u.forcePasswordChange
    roleId := patch.roleId.getD u.roleId }

/-- `patch_admin_user` -/
def patchAdminUser (token : Token) (id : ℕ) (patch : UserPatch) : Tx Unit := do
  let actor ← requireAdmin token
  let u ← findUser id
  raiseIf (u.id = actor.id ∧ patch.isActive = some (some false)) 400
    "Cannot deactivate the current user"
  let selectedRole ← patch.roleId.mapM roleOr422
  protectLastPlatformAdmin u (patch.isActive = some (some false)) selectedRole
  modify fun s => s.updateUser id patch.apply fun _ => rfl
  if u.username ≠ (patch.apply u).username ∨
      (u.isActive = true ∧ (patch.apply u).isActive = false) then
    revokeAllSessions id "account_updated"
  commit

/-- `reset_user_password` -/
def resetUserPassword (token : Token) (id : ℕ) (password : String) (forcePasswordChange : Bool) :
    Tx Unit := do
  let _ ← requireAdmin token
  let u ← findUser id
  raiseIf (password = "") 422 "password is required"
  validatePassword lib settings password
  modify fun s => s.updateUser u.id
    (fun u => { u with
      passwordHash := lib.hash password, forcePasswordChange := forcePasswordChange })
    fun _ => rfl
  revokeAllSessions u.id "admin_password_reset"
  commit

/-- `activate_user`. `isActive` may be absent, null or a truth value. -/
def activateUser (token : Token) (id : ℕ) (isActive : Option (Option Bool)) : Tx Unit := do
  let actor ← requireAdmin token
  let u ← findUser id
  raiseIf (u.id = actor.id ∧ isActive = some (some false)) 400 "Cannot deactivate the current user"
  protectLastPlatformAdmin u (isActive = some (some false)) none
  let active := (isActive.map (·.getD false)).getD true
  modify fun s => s.updateUser u.id (fun u => { u with isActive := active }) fun _ => rfl
  if active = false then revokeAllSessions u.id "account_disabled"
  commit

/-- `change_user_role` -/
def changeUserRole (token : Token) (id : ℕ) (roleId : Option ℕ) : Tx Unit := do
  let _ ← requireAdmin token
  let u ← findUser id
  let roleId ← orRaise (roleId.filter (· ≠ 0)) 422 "role_id is required"
  let selectedRole ← roleOr422 roleId
  protectLastPlatformAdmin u false (some selectedRole)
  modify fun s => s.updateUser u.id (fun u => { u with roleId := selectedRole.id }) fun _ => rfl
  commit

/-- `delete_admin_user`, which deactivates. -/
def deleteAdminUser (token : Token) (id : ℕ) : Tx Unit := do
  let actor ← requireAdmin token
  raiseIf (id = actor.id) 400 "Cannot delete the current user"
  let u ← findUser id
  protectLastPlatformAdmin u true none
  modify fun s => s.updateUser u.id (fun u => { u with isActive := false }) fun _ => rfl
  revokeAllSessions u.id "account_disabled"
  commit

/-- `revoke_user_sessions` -/
def revokeUserSessions (token : Token) (id : ℕ) : Tx Unit := do
  let _ ← requireAdmin token
  let u ← findUser id
  revokeAllSessions u.id "admin_revoked"
  commit

/-! ## Other ways to get an account -/

/-- `create_first_admin` -/
def createFirstAdmin (bootstrapToken username email password tokenId : String) : Tx Claims := do
  let configured := settings.bootstrapAdminToken.getD ""
  raiseIf (configured = "" ∨ bootstrapToken ≠ configured) 403 "Invalid bootstrap token"
  let s ← get
  let adminRole ← orRaise (s.roles.find? (·.name = "Admin")) 503
    "Required roles are not initialized; run database migrations"
  raiseIf ((s.users.first fun u => isAdmin s u && u.isActive).isSome = true) 409
    "Administrator enrollment is already complete"
  let username := lib.strip username
  let email := lib.lower (lib.strip email)
  raiseIf (username = "" ∨ email = "") 422 "Username and email are required"
  raiseIf ((s.users.first fun u => u.username = username || u.email = email).isSome = true) 409
    "Username or email already exists"
  validatePassword lib settings password
  modify fun s => s.addUser username email (lib.hash password) adminRole.id true false
  let user ← orRaise ((← get).users.get? s.users.next) 404 "User not found"
  let claims ← issueSession settings user tokenId
  commit
  return claims

/-- The student accounts that `_new_students` creates for a class. -/
def createStudents (roleId : ℕ) (accounts : List (String × String × String)) : Tx Unit := do
  accounts.forM fun (username, email, password) =>
    modify fun s => s.addUser username email (lib.hash password) roleId true true
  commit

end Endpoints

/-! ## Requests over time -/

/-- What `new_token_id` returns. -/
structure TokenId where
  text : String
  nonempty : text ≠ ""

inductive Request where
  | login (username password : String) (clientIp : Option String) (tokenId : TokenId)
  | changePassword (token : Token) (currentPassword newPassword : String) (tokenId : TokenId)
  | logout (token : Token)
  | removeSession (token : Token) (sessionId : ℕ)
  | createAdminUser (token : Token) (username email password : String) (role : Option String)
      (roleId : Option ℕ) (isActive forcePasswordChange : Bool)
  | patchAdminUser (token : Token) (id : ℕ) (patch : UserPatch)
  | resetUserPassword (token : Token) (id : ℕ) (password : String) (forcePasswordChange : Bool)
  | activateUser (token : Token) (id : ℕ) (isActive : Option (Option Bool))
  | changeUserRole (token : Token) (id : ℕ) (roleId : Option ℕ)
  | deleteAdminUser (token : Token) (id : ℕ)
  | revokeUserSessions (token : Token) (id : ℕ)
  | createFirstAdmin (bootstrapToken username email password : String) (tokenId : TokenId)
  | createStudents (roleId : ℕ) (accounts : List (String × String × String))

def Request.run (lib : Library) (settings : Settings) : Request → Tx Unit
  | .login username password clientIp tokenId => do
    let _ ← loginUser lib settings username password clientIp tokenId.text
  | .changePassword token currentPassword newPassword tokenId => do
    let _ ← Accounts.changePassword lib settings token currentPassword newPassword tokenId.text
  | .logout token => Accounts.logout token
  | .removeSession token sessionId => Accounts.removeSession token sessionId
  | .createAdminUser token username email password role roleId isActive forcePasswordChange =>
    Accounts.createAdminUser lib settings token username email password role roleId isActive
      forcePasswordChange
  | .patchAdminUser token id patch => Accounts.patchAdminUser token id patch
  | .resetUserPassword token id password forcePasswordChange =>
    Accounts.resetUserPassword lib settings token id password forcePasswordChange
  | .activateUser token id isActive => Accounts.activateUser token id isActive
  | .changeUserRole token id roleId => Accounts.changeUserRole token id roleId
  | .deleteAdminUser token id => Accounts.deleteAdminUser token id
  | .revokeUserSessions token id => Accounts.revokeUserSessions token id
  | .createFirstAdmin bootstrapToken username email password tokenId => do
    let _ ← Accounts.createFirstAdmin lib settings bootstrapToken username email password
      tokenId.text
  | .createStudents roleId accounts => Accounts.createStudents lib roleId accounts

/-- A request that succeeds, or time that passes. A request that raises leaves no trace. -/
inductive Step (lib : Library) (settings : Settings) : State → State → Prop
  | request (r : Request) {s s' : State} (h : (r.run lib settings).run s = .ok ((), s')) :
      Step lib settings s s'
  | tick (s : State) (elapsed : ℕ) : Step lib settings s { s with clock := s.clock + elapsed }

end LabGoblin.Accounts
