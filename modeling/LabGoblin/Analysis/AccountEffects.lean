import LabGoblin.Computation.Outcome
import LabGoblin.Model.Accounts

/-!
# What requests do to accounts and sessions

Whatever an endpoint does is a path of effects: it changes accounts, issues a token, revokes a
session or revokes all sessions of a user. Every endpoint ends in a commit, so the constraints
hold after it.
-/

set_option autoImplicit false

namespace LabGoblin.Accounts

open Interactive

/-! ## What an endpoint can do -/

inductive Effect : State → State → Prop
  /-- Accounts and login attempts change; token versions stay positive. -/
  | accounts (s : State) (users : Table User (·.id)) (attempts : List AuthLoginAttempt)
      (h : (∀ u ∈ s.users.rows, u.tokenVersion ≠ 0) → ∀ u ∈ users.rows, u.tokenVersion ≠ 0) :
      Effect s { s with users := users, attempts := attempts }
  | issued (s : State) (settings : Settings) (user : User) (tokenId : String) (h : tokenId ≠ "") :
      Effect s (s.withSession settings user tokenId
        (createAccessToken settings user.username tokenId (orOne user.tokenVersion) s.clock))
  | revoked (s : State) (session : AuthSession) (reason : String)
      (h : session ∈ s.sessions.rows) : Effect s (s.withRevoked session reason)
  | revokedAll (s : State) (userId : ℕ) (reason : String) :
      Effect s (s.withAllRevoked userId reason)

/-- One effect after the other. -/
abbrev Effects : State → State → Prop := Relation.ReflTransGen Effect

/-- Nothing is done by no effect. -/
theorem Effects.rfl (s : State) : Effects s s := Relation.ReflTransGen.refl

/-- Two paths of effects make one. -/
theorem Effects.trans (s t u : State) (h : Effects s t) (h' : Effects t u) : Effects s u :=
  Relation.ReflTransGen.trans h h'

section Primitives

variable {α β : Type}

/-- A transaction that reads changes nothing. -/
def Reads (m : Tx α) : Prop := Moves (fun s t => s = t) m

/-- Two transactions that read make one that reads. -/
theorem Reads.bind {m : Tx α} {f : α → Tx β} (h : Reads m) (hf : ∀ a, Reads (f a)) :
    Reads (m >>= f) := Moves.bind (fun _ _ _ => Eq.trans) h hf

/-- A transaction that reads has no effect. -/
theorem Reads.moves {m : Tx α} (h : Reads m) : Moves Effects m := by
  intro s
  refine (h s).mono fun a t hst => ?_
  rw [← hst]

/-- A check that raises reads. -/
theorem reads_raiseIf (p : Prop) [Decidable p] (status : ℕ) (detail : String) :
    Reads (raiseIf p status detail) :=
  Moves.ite (moves_throw _) (moves_pure (fun _ => Eq.refl _) _)

/-- Unpacking a value, or raising, reads. -/
theorem reads_orRaise (a : Option α) (status : ℕ) (detail : String) :
    Reads (orRaise a status detail) := by
  cases a with
  | none => exact moves_throw _
  | some a => exact moves_pure (fun _ => Eq.refl _) a

/-- Reading the state reads. -/
theorem reads_get : Reads (get : Tx State) := moves_get fun _ => Eq.refl _

/-- A return reads. -/
theorem reads_pure (a : α) : Reads (pure a : Tx α) := moves_pure (fun _ => Eq.refl _) a

/-- The commit of a transaction, which checks the constraints, reads. -/
theorem reads_commit : Reads commit := by
  refine Reads.bind reads_get fun s => ?_
  exact Moves.ite (reads_pure _) (moves_throw _)

/-- Finding the user of a token reads. -/
theorem reads_getAuthenticatedUser (token : Token) : Reads (getAuthenticatedUser token) := by
  refine Reads.bind reads_get fun s => ?_
  cases getUserFromToken s token with
  | ok user => exact reads_pure user
  | error e => exact moves_throw e

/-- Finding the session of a token reads. -/
theorem reads_getCurrentAuthSession (token : Token) : Reads (getCurrentAuthSession token) := by
  refine Reads.bind (reads_getAuthenticatedUser token) fun user => ?_
  refine Reads.bind reads_get fun s => ?_
  cases decode s.clock token with
  | none => exact moves_throw _
  | some payload => exact reads_orRaise _ _ _

/-- The check for an administrator reads. -/
theorem reads_requireAdmin (token : Token) : Reads (requireAdmin token) := by
  refine Reads.bind (reads_getAuthenticatedUser token) fun user => ?_
  refine Reads.bind (reads_raiseIf _ _ _) fun _ => ?_
  refine Reads.bind reads_get fun s => ?_
  exact Reads.bind (reads_raiseIf _ _ _) fun _ => reads_pure user

/-- Finding a user reads. -/
theorem reads_findUser (id : ℕ) : Reads (findUser id) :=
  Reads.bind reads_get fun _ => reads_orRaise _ _ _

/-- Finding a role reads. -/
theorem reads_roleOr422 (roleId : ℕ) : Reads (roleOr422 roleId) :=
  Reads.bind reads_get fun _ => reads_orRaise _ _ _

/-- The protection of the last administrator reads. -/
theorem reads_protectLastPlatformAdmin (user : User) (deactivating : Bool)
    (newRole : Option Role) : Reads (protectLastPlatformAdmin user deactivating newRole) :=
  Reads.bind reads_get fun _ => reads_raiseIf _ _ _

/-- The check of a password reads. -/
theorem reads_validatePassword (lib : Library) (settings : Settings) (password : String) :
    Reads (validatePassword lib settings password) := by
  refine Reads.bind (reads_raiseIf _ _ _) fun _ => ?_
  refine Reads.bind (reads_raiseIf _ _ _) fun _ => ?_
  exact Reads.bind (reads_raiseIf _ _ _) fun _ => reads_raiseIf _ _ _

/-- The check of the login limit reads. -/
theorem reads_checkLoginAllowed (key : String) : Reads (checkLoginAllowed key) :=
  Reads.bind reads_get fun _ => reads_raiseIf _ _ _

/-- A sequence moves along effects when its parts do. -/
theorem moves_then {m : Tx α} {f : α → Tx β} (h : Moves Effects m)
    (hf : ∀ a, Moves Effects (f a)) : Moves Effects (m >>= f) := Moves.bind Effects.trans h hf

/-- After reading, a transaction may do what it does from the state it has read. -/
theorem moves_after_reads {m : Tx α} {f : α → Tx β} (h : Reads m)
    (hf : ∀ a, Moves Effects (f a)) : Moves Effects (m >>= f) := moves_then h.moves hf

/-- Changing the login attempts is an effect on accounts. -/
theorem moves_attempts (g : State → List AuthLoginAttempt) :
    Moves Effects (modify fun s => { s with attempts := g s } : Tx Unit) :=
  moves_modify fun s => .single (.accounts s s.users (g s) fun h => h)

/-- Recording a failed login changes the login attempts only. -/
theorem moves_recordLoginFailure (settings : Settings) (key : String) :
    Moves Effects (recordLoginFailure settings key) := moves_attempts _

/-- Clearing the failures of a login changes the login attempts only. -/
theorem moves_clearLoginFailures (key : String) : Moves Effects (clearLoginFailures key) :=
  moves_attempts _

/-- An assignment to the attributes of a user that leaves the token version alone. -/
theorem moves_updateUser (id : ℕ) (f : User → User) (hf : ∀ u, (f u).id = u.id)
    (hversion : ∀ u, (f u).tokenVersion = u.tokenVersion) :
    Moves Effects (modify fun s => s.updateUser id f hf : Tx Unit) := by
  refine moves_modify fun s => .single (.accounts s _ s.attempts fun h u hu => ?_)
  obtain ⟨v, hv, rfl⟩ := Table.mem_update.mp hu
  have hpos := h v hv
  by_cases hid : v.id = id
  · rw [if_pos hid, hversion]
    exact hpos
  · rw [if_neg hid]
    exact hpos

/-- Adding a user is an effect on accounts, since a new user's token version is positive. -/
theorem moves_addUser (username email passwordHash : String) (roleId : ℕ)
    (isActive forcePasswordChange : Bool) :
    Moves Effects (modify fun s => s.addUser username email passwordHash roleId isActive
      forcePasswordChange : Tx Unit) := by
  refine moves_modify fun s => .single (.accounts s _ s.attempts fun h u hu => ?_)
  rw [Table.rows_add] at hu
  rcases List.mem_append.mp hu with hu | hu
  · exact h u hu
  · rw [List.mem_singleton.mp hu]
    simp

/-- Issuing a session issues a token with an id. -/
theorem moves_issueSession (settings : Settings) (user : User) (tokenId : String)
    (h : tokenId ≠ "") : Moves Effects (issueSession settings user tokenId) := by
  intro s
  unfold issueSession
  simp only [after_bind, after_get, after_set, after_pure]
  exact .single (.issued s settings user tokenId h)

/-- Revoking all sessions of a user is one effect. -/
theorem moves_revokeAllSessions (userId : ℕ) (reason : String) :
    Moves Effects (revokeAllSessions userId reason) :=
  moves_modify fun s => .single (.revokedAll s userId reason)

end Primitives

section Endpoints

variable (lib : Library) (settings : Settings)

/-- A login changes login attempts and issues a token. -/
theorem moves_loginUser (username password : String) (clientIp : Option String)
    (tokenId : String) (h : tokenId ≠ "") :
    Moves Effects (loginUser lib settings username password clientIp tokenId) := by
  have hcommit {α : Type} (a : α) : Moves Effects (do commit; return a : Tx α) :=
    moves_after_reads reads_commit fun _ => (reads_pure a).moves
  refine moves_after_reads (reads_checkLoginAllowed _) fun _ => ?_
  refine moves_after_reads reads_get fun s => ?_
  have hrefused : Moves Effects (do
      recordLoginFailure settings (lib.attemptKey username clientIp)
      commit
      return .error (.http 401 "Invalid credentials") : Tx (Except Exc Claims)) :=
    moves_then (moves_recordLoginFailure settings _) fun _ => hcommit _
  dsimp only
  split
  · refine Moves.ite (hcommit _) ?_
    refine moves_then (moves_clearLoginFailures _) fun _ => ?_
    exact moves_then (moves_issueSession settings _ tokenId h) fun token => hcommit _
  · exact hrefused

/-- A password change revokes all sessions of the user, changes the account and issues a token. -/
theorem moves_changePassword (token : Token) (currentPassword newPassword tokenId : String)
    (h : tokenId ≠ "") :
    Moves Effects (changePassword lib settings token currentPassword newPassword tokenId) := by
  refine moves_after_reads (reads_getAuthenticatedUser token) fun user => ?_
  refine moves_after_reads (reads_raiseIf _ _ _) fun _ => ?_
  refine moves_after_reads (reads_validatePassword lib settings newPassword) fun _ => ?_
  refine moves_after_reads (reads_raiseIf _ _ _) fun _ => ?_
  refine moves_then (moves_updateUser _ _ _ fun _ => rfl) fun _ => ?_
  refine moves_then (moves_revokeAllSessions _ _) fun _ => ?_
  refine moves_after_reads reads_get fun s => ?_
  refine moves_after_reads (reads_orRaise _ _ _) fun user => ?_
  refine moves_then (moves_issueSession settings user tokenId h) fun claims => ?_
  exact moves_after_reads reads_commit fun _ => (reads_pure claims).moves

/-- The creation of a user adds an account. -/
theorem moves_createAdminUser (token : Token) (username email password : String)
    (role : Option String) (roleId : Option ℕ) (isActive forcePasswordChange : Bool) :
    Moves Effects (createAdminUser lib settings token username email password role roleId isActive
      forcePasswordChange) := by
  refine moves_after_reads (reads_requireAdmin token) fun _ => ?_
  refine moves_after_reads (reads_raiseIf _ _ _) fun _ => ?_
  refine moves_after_reads (reads_raiseIf _ _ _) fun _ => ?_
  refine moves_after_reads (reads_raiseIf _ _ _) fun _ => ?_
  refine moves_after_reads reads_get fun s => ?_
  refine moves_after_reads (reads_orRaise _ _ _) fun roleId => ?_
  refine moves_after_reads (reads_roleOr422 roleId) fun selectedRole => ?_
  refine moves_after_reads (reads_validatePassword lib settings password) fun _ => ?_
  refine moves_after_reads (reads_raiseIf _ _ _) fun _ => ?_
  refine moves_after_reads (reads_raiseIf _ _ _) fun _ => ?_
  exact moves_then (moves_addUser _ _ _ _ _ _) fun _ => reads_commit.moves

/-- Finding a role, where one is asked for, reads. -/
theorem reads_mapM_roleOr422 (roleId : Option ℕ) : Reads (roleId.mapM roleOr422) := by
  cases roleId with
  | none => exact reads_pure none
  | some roleId => exact Reads.bind (reads_roleOr422 roleId) fun role => reads_pure (some role)

/-- A patch of a user changes the account, and may revoke all the user's sessions. -/
theorem moves_patchAdminUser (token : Token) (id : ℕ) (patch : UserPatch) :
    Moves Effects (patchAdminUser token id patch) := by
  refine moves_after_reads (reads_requireAdmin token) fun actor => ?_
  refine moves_after_reads (reads_findUser id) fun u => ?_
  refine moves_after_reads (reads_raiseIf _ _ _) fun _ => ?_
  refine moves_after_reads (reads_mapM_roleOr422 patch.roleId) fun selectedRole => ?_
  refine moves_after_reads (reads_protectLastPlatformAdmin u _ _) fun _ => ?_
  refine moves_then (moves_updateUser _ _ _ fun _ => rfl) fun _ => ?_
  refine Moves.ite ?_ reads_commit.moves
  exact moves_then (moves_revokeAllSessions _ _) fun _ => reads_commit.moves

/-- A password reset changes the account and revokes all the user's sessions. -/
theorem moves_resetUserPassword (token : Token) (id : ℕ) (password : String)
    (forcePasswordChange : Bool) :
    Moves Effects (resetUserPassword lib settings token id password forcePasswordChange) := by
  refine moves_after_reads (reads_requireAdmin token) fun actor => ?_
  refine moves_after_reads (reads_findUser id) fun u => ?_
  refine moves_after_reads (reads_raiseIf _ _ _) fun _ => ?_
  refine moves_after_reads (reads_validatePassword lib settings password) fun _ => ?_
  refine moves_then (moves_updateUser _ _ _ fun _ => rfl) fun _ => ?_
  exact moves_then (moves_revokeAllSessions _ _) fun _ => reads_commit.moves

/-- Switching a user on or off changes the account, and may revoke all the user's sessions. -/
theorem moves_activateUser (token : Token) (id : ℕ) (isActive : Option (Option Bool)) :
    Moves Effects (activateUser token id isActive) := by
  refine moves_after_reads (reads_requireAdmin token) fun actor => ?_
  refine moves_after_reads (reads_findUser id) fun u => ?_
  refine moves_after_reads (reads_raiseIf _ _ _) fun _ => ?_
  refine moves_after_reads (reads_protectLastPlatformAdmin u _ _) fun _ => ?_
  refine moves_then (moves_updateUser _ _ _ fun _ => rfl) fun _ => ?_
  refine Moves.ite ?_ reads_commit.moves
  exact moves_then (moves_revokeAllSessions _ _) fun _ => reads_commit.moves

/-- A change of role changes the account and revokes all the user's sessions. -/
theorem moves_changeUserRole (token : Token) (id : ℕ) (roleId : Option ℕ) :
    Moves Effects (changeUserRole token id roleId) := by
  refine moves_after_reads (reads_requireAdmin token) fun actor => ?_
  refine moves_after_reads (reads_findUser id) fun u => ?_
  refine moves_after_reads (reads_orRaise _ _ _) fun roleId => ?_
  refine moves_after_reads (reads_roleOr422 roleId) fun selectedRole => ?_
  refine moves_after_reads (reads_protectLastPlatformAdmin u _ _) fun _ => ?_
  exact moves_then (moves_updateUser _ _ _ fun _ => rfl) fun _ => reads_commit.moves

/-- A deletion switches the account off and revokes all the user's sessions. -/
theorem moves_deleteAdminUser (token : Token) (id : ℕ) :
    Moves Effects (deleteAdminUser token id) := by
  refine moves_after_reads (reads_requireAdmin token) fun actor => ?_
  refine moves_after_reads (reads_raiseIf _ _ _) fun _ => ?_
  refine moves_after_reads (reads_findUser id) fun u => ?_
  refine moves_after_reads (reads_protectLastPlatformAdmin u _ _) fun _ => ?_
  refine moves_then (moves_updateUser _ _ _ fun _ => rfl) fun _ => ?_
  exact moves_then (moves_revokeAllSessions _ _) fun _ => reads_commit.moves

/-- The revocation of a user's sessions by an administrator revokes all of them. -/
theorem moves_revokeUserSessions (token : Token) (id : ℕ) :
    Moves Effects (revokeUserSessions token id) := by
  refine moves_after_reads (reads_requireAdmin token) fun actor => ?_
  refine moves_after_reads (reads_findUser id) fun u => ?_
  exact moves_then (moves_revokeAllSessions _ _) fun _ => reads_commit.moves

/-- The enrollment of the first administrator adds an account and issues a token. -/
theorem moves_createFirstAdmin (bootstrapToken username email password tokenId : String)
    (h : tokenId ≠ "") :
    Moves Effects
      (createFirstAdmin lib settings bootstrapToken username email password tokenId) := by
  refine moves_after_reads (reads_raiseIf _ _ _) fun _ => ?_
  refine moves_after_reads reads_get fun s => ?_
  refine moves_after_reads (reads_orRaise _ _ _) fun adminRole => ?_
  refine moves_after_reads (reads_raiseIf _ _ _) fun _ => ?_
  refine moves_after_reads (reads_raiseIf _ _ _) fun _ => ?_
  refine moves_after_reads (reads_raiseIf _ _ _) fun _ => ?_
  refine moves_after_reads (reads_validatePassword lib settings password) fun _ => ?_
  refine moves_then (moves_addUser _ _ _ _ _ _) fun _ => ?_
  refine moves_after_reads reads_get fun s' => ?_
  refine moves_after_reads (reads_orRaise _ _ _) fun user => ?_
  refine moves_then (moves_issueSession settings user tokenId h) fun claims => ?_
  exact moves_after_reads reads_commit fun _ => (reads_pure claims).moves

/-- The enrollment of students adds accounts, one after the other. -/
theorem moves_createStudents (roleId : ℕ) (accounts : List (String × String × String)) :
    Moves Effects (createStudents lib roleId accounts) := by
  refine moves_then ?_ fun _ => reads_commit.moves
  exact Moves.forM Effects.rfl Effects.trans (fun _ => moves_addUser _ _ _ _ _ _) accounts

end Endpoints

/-! ## Revoking one session -/

/-- A session that `get_current_auth_session` returns is a row. -/
theorem getCurrentAuthSession_mem (token : Token) (s : State) :
    After (getCurrentAuthSession token) (fun row t => s = t ∧ row ∈ t.sessions.rows) s := by
  unfold getCurrentAuthSession
  rw [after_bind]
  refine (reads_getAuthenticatedUser token s).mono fun user t hst => ?_
  subst hst
  rw [after_bind, after_get]
  cases decode s.clock token with
  | none => exact after_throw _ _
  | some payload =>
    show After (orRaise (s.sessions.first _) 401 "Invalid token") _ s
    cases hrow : s.sessions.first _ with
    | none => exact after_throw _ _
    | some row =>
      unfold orRaise
      rw [after_pure]
      exact ⟨rfl, (Table.first_some hrow).1⟩

/-- A logout revokes the session of its token. -/
theorem moves_logout (token : Token) : Moves Effects (logout token) := by
  intro s
  unfold logout
  rw [after_bind]
  refine (getCurrentAuthSession_mem token s).mono ?_
  rintro row t ⟨rfl, hrow⟩
  unfold revokeSession
  rw [after_bind, after_modify]
  refine (reads_commit _).mono fun _ t ht => ?_
  rw [← ht]
  exact .single (.revoked s row "logout" hrow)

/-- The removal of one's own session revokes it. -/
theorem moves_removeSession (token : Token) (sessionId : ℕ) :
    Moves Effects (removeSession token sessionId) := by
  refine moves_after_reads (reads_getCurrentAuthSession token) fun _ => ?_
  refine moves_after_reads (reads_getAuthenticatedUser token) fun user => ?_
  intro s
  rw [after_bind, after_get, after_bind]
  cases hrow : s.sessions.first _ with
  | none => exact after_throw _ _
  | some row =>
    unfold orRaise revokeSession
    rw [after_pure, after_bind, after_modify]
    refine (reads_commit _).mono fun _ t ht => ?_
    rw [← ht]
    exact .single (.revoked s row "user_revoked" (Table.first_some hrow).1)

/-- A request moves along effects. -/
theorem moves_run (lib : Library) (settings : Settings) (r : Request) :
    Moves Effects (r.run lib settings) := by
  cases r with
  | login username password clientIp tokenId =>
    exact moves_then (moves_loginUser lib settings _ _ _ _ tokenId.nonempty) fun _ =>
      (reads_pure ()).moves
  | changePassword token currentPassword newPassword tokenId =>
    exact moves_then (moves_changePassword lib settings _ _ _ _ tokenId.nonempty) fun _ =>
      (reads_pure ()).moves
  | logout token => exact moves_logout token
  | removeSession token sessionId => exact moves_removeSession token sessionId
  | createAdminUser => exact moves_createAdminUser lib settings _ _ _ _ _ _ _ _
  | patchAdminUser token id patch => exact moves_patchAdminUser token id patch
  | resetUserPassword => exact moves_resetUserPassword lib settings _ _ _ _
  | activateUser token id isActive => exact moves_activateUser token id isActive
  | changeUserRole token id roleId => exact moves_changeUserRole token id roleId
  | deleteAdminUser token id => exact moves_deleteAdminUser token id
  | revokeUserSessions token id => exact moves_revokeUserSessions token id
  | createFirstAdmin bootstrapToken username email password tokenId =>
    exact moves_then (moves_createFirstAdmin lib settings _ _ _ _ _ tokenId.nonempty) fun _ =>
      (reads_pure ()).moves
  | createStudents roleId accounts => exact moves_createStudents lib roleId accounts

/-! ## The constraints hold at every commit -/

/-- A commit succeeds only where the constraints hold. -/
theorem endsIn_commit : EndsIn State.Constraints commit := by
  intro s
  unfold commit
  rw [after_bind, after_get]
  by_cases h : s.Constraints
  · rw [if_pos h, after_pure]
    exact h
  · rw [if_neg h]
    exact after_throw _ _

/-- A login ends in a commit. -/
theorem endsIn_loginUser (lib : Library) (settings : Settings) (username password : String)
    (clientIp : Option String) (tokenId : String) :
    EndsIn State.Constraints (loginUser lib settings username password clientIp tokenId) := by
  refine EndsIn.bind fun _ => EndsIn.bind fun s => ?_
  dsimp only
  split
  · refine EndsIn.ite (endsIn_commit.returning _) ?_
    exact EndsIn.bind fun _ => EndsIn.bind fun token => endsIn_commit.returning _
  · exact EndsIn.bind fun _ => endsIn_commit.returning _

/-- A patch of a user ends in a commit. -/
theorem endsIn_patchAdminUser (token : Token) (id : ℕ) (patch : UserPatch) :
    EndsIn State.Constraints (patchAdminUser token id patch) := by
  refine EndsIn.bind fun _ => EndsIn.bind fun u => EndsIn.bind fun _ => EndsIn.bind fun _ => ?_
  refine EndsIn.bind fun _ => EndsIn.bind fun _ => EndsIn.ite ?_ endsIn_commit
  exact EndsIn.bind fun _ => endsIn_commit

/-- Switching a user on or off ends in a commit. -/
theorem endsIn_activateUser (token : Token) (id : ℕ) (isActive : Option (Option Bool)) :
    EndsIn State.Constraints (activateUser token id isActive) := by
  refine EndsIn.bind fun _ => EndsIn.bind fun u => EndsIn.bind fun _ => EndsIn.bind fun _ => ?_
  refine EndsIn.bind fun _ => EndsIn.ite ?_ endsIn_commit
  exact EndsIn.bind fun _ => endsIn_commit

/-- Every request that succeeds leaves a state in which the constraints hold. -/
theorem endsIn_run (lib : Library) (settings : Settings) (r : Request) :
    EndsIn State.Constraints (r.run lib settings) := by
  cases r with
  | login => exact (endsIn_loginUser lib settings _ _ _ _).returning _
  | changePassword token currentPassword newPassword tokenId =>
    refine EndsIn.returning ?_ _
    refine EndsIn.bind fun _ => EndsIn.bind fun _ => EndsIn.bind fun _ => EndsIn.bind fun _ => ?_
    refine EndsIn.bind fun _ => EndsIn.bind fun _ => EndsIn.bind fun _ => EndsIn.bind fun _ => ?_
    exact EndsIn.bind fun _ => endsIn_commit.returning _
  | logout => exact EndsIn.bind fun _ => EndsIn.bind fun _ => endsIn_commit
  | removeSession =>
    refine EndsIn.bind fun _ => EndsIn.bind fun _ => EndsIn.bind fun _ => EndsIn.bind fun _ => ?_
    exact EndsIn.bind fun _ => endsIn_commit
  | createAdminUser =>
    refine EndsIn.bind fun _ => EndsIn.bind fun _ => EndsIn.bind fun _ => EndsIn.bind fun _ => ?_
    refine EndsIn.bind fun _ => EndsIn.bind fun _ => EndsIn.bind fun _ => EndsIn.bind fun _ => ?_
    exact EndsIn.bind fun _ => EndsIn.bind fun _ => EndsIn.bind fun _ => endsIn_commit
  | patchAdminUser token id patch => exact endsIn_patchAdminUser token id patch
  | resetUserPassword =>
    refine EndsIn.bind fun _ => EndsIn.bind fun _ => EndsIn.bind fun _ => EndsIn.bind fun _ => ?_
    exact EndsIn.bind fun _ => EndsIn.bind fun _ => endsIn_commit
  | activateUser token id isActive => exact endsIn_activateUser token id isActive
  | changeUserRole =>
    refine EndsIn.bind fun _ => EndsIn.bind fun _ => EndsIn.bind fun _ => EndsIn.bind fun _ => ?_
    exact EndsIn.bind fun _ => EndsIn.bind fun _ => endsIn_commit
  | deleteAdminUser =>
    refine EndsIn.bind fun _ => EndsIn.bind fun _ => EndsIn.bind fun _ => EndsIn.bind fun _ => ?_
    exact EndsIn.bind fun _ => EndsIn.bind fun _ => endsIn_commit
  | revokeUserSessions =>
    exact EndsIn.bind fun _ => EndsIn.bind fun _ => EndsIn.bind fun _ => endsIn_commit
  | createFirstAdmin =>
    refine EndsIn.returning ?_ _
    refine EndsIn.bind fun _ => EndsIn.bind fun _ => EndsIn.bind fun _ => EndsIn.bind fun _ => ?_
    refine EndsIn.bind fun _ => EndsIn.bind fun _ => EndsIn.bind fun _ => EndsIn.bind fun _ => ?_
    exact EndsIn.bind fun _ => EndsIn.bind fun _ => EndsIn.bind fun _ => endsIn_commit.returning _
  | createStudents => exact EndsIn.bind fun _ => endsIn_commit

end LabGoblin.Accounts
