import LabGoblin.Analysis.LastAdmin
import LabGoblin.Analysis.TokenRevocation
import LabGoblin.Computation.Lineage
import LabGoblin.Computation.Privilege

/-!
# Who changes an account

A request acts for the user whose token or whose name and password it comes with. It changes the
account and the sessions of that user; of others only when it acts for an active Admin; and it
makes new accounts. A user becomes an active Admin by a request of an active Admin about the
account, or by the first enrollment, which needs the configured token and that no active Admin is
there. So the authority of every Admin goes back to one at the start or to the first enrollment,
and an account that nobody acts for, while no Admin acts, stays as it is.
-/

set_option autoImplicit false

namespace LabGoblin.Accounts

open Interactive
open AdminUsers (ActiveAdmin Administered standing adminRole activeAdmin_iff after_raiseIf
  after_orRaise after_findUser after_commit standing_withAllRevoked)

/-! ## Whom a request acts for -/

/-- The token that a request comes with. -/
def Request.token? : Request → Option Token
  | .login .. | .createFirstAdmin .. | .createStudents .. => none
  | .changePassword token .. | .logout token | .removeSession token _
  | .createAdminUser token .. | .patchAdminUser token .. | .resetUserPassword token ..
  | .activateUser token .. | .changeUserRole token .. | .deleteAdminUser token _
  | .revokeUserSessions token _ => some token

/-- The token is accepted for the user. -/
def Authenticates (s : State) (token : Token) (k : ℕ) : Prop :=
  ∃ user, getUserFromToken s token = .ok user ∧ user.id = k

/-- The request comes with a token of the user, or with the user's name and password. -/
def ActsFor (lib : Library) (s : State) (r : Request) (k : ℕ) : Prop :=
  match r with
  | .login username password _ _ =>
    ∃ user, s.users.get? k = some user ∧ user.username = username ∧
      lib.verify password user.passwordHash = true
  | r => ∃ token, r.token? = some token ∧ Authenticates s token k

/-- The request acts for an active Admin. -/
def ActsForAdmin (lib : Library) (s : State) (r : Request) (j : ℕ) : Prop :=
  ActiveAdmin s j ∧ ActsFor lib s r j

/-- The accounts to which a request gives a role or the activity. -/
def Request.Appoints (s : State) (k : ℕ) : Request → Prop
  | .createAdminUser .. => k = s.users.next
  | .patchAdminUser _ id _ | .activateUser _ id _ | .changeUserRole _ id _ => k = id
  | _ => False

/-- The first enrollment, with the configured token, while there is no active Admin. -/
def Enrolls (settings : Settings) (s : State) (r : Request) (k : ℕ) : Prop :=
  ∃ bootstrapToken username email password tokenId,
    r = .createFirstAdmin bootstrapToken username email password tokenId ∧
      bootstrapToken ≠ "" ∧ settings.bootstrapAdminToken = some bootstrapToken ∧
      ¬ Administered s ∧ k = s.users.next

/-! ## What a request may change -/

/-- Between the two states only the accounts and sessions of the users in `P` change, where new
users are in `P`, and only users in `G` become active Admins. -/
structure Changes (P G : ℕ → Prop) (s t : State) : Prop where
  roles : t.roles = s.roles
  next : s.users.next ≤ t.users.next
  account : ∀ k, ¬ P k → t.users.get? k = s.users.get? k
  sessions : ∀ row : AuthSession, ¬ P row.userId →
    (row ∈ t.sessions.rows ↔ row ∈ s.sessions.rows)
  admins : ∀ k, ActiveAdmin t k → ActiveAdmin s k ∨ G k

section Primitives

variable {P G : ℕ → Prop} {s t : State}

/-- Nothing has changed. -/
theorem Changes.refl (s : State) : Changes P G s s :=
  ⟨rfl, le_refl _, fun _ _ => rfl, fun _ _ => Iff.rfl, fun _ => Or.inl⟩

/-- The role of an Admin depends on the table of roles only. -/
theorem adminRole_eq (h : t.roles = s.roles) (r : ℕ) : adminRole t r = adminRole s r := by
  unfold adminRole
  rw [h]

/-- An account with the same activity and role is an active Admin when it was one. -/
theorem activeAdmin_of_standing {k : ℕ} (hroles : t.roles = s.roles)
    (hstanding : standing t k = standing s k) (h : ActiveAdmin t k) : ActiveAdmin s k := by
  obtain ⟨r, hr, hadmin⟩ := activeAdmin_iff.mp h
  rw [hstanding] at hr
  rw [adminRole_eq hroles] at hadmin
  exact activeAdmin_iff.mpr ⟨r, hr, hadmin⟩

/-- The next change of a request. -/
theorem Changes.andThen {u : State} (h : Changes P G s t) (hroles : u.roles = t.roles)
    (hnext : t.users.next ≤ u.users.next)
    (haccount : ∀ k, ¬ P k → u.users.get? k = t.users.get? k)
    (hsessions : ∀ row : AuthSession, ¬ P row.userId →
      (row ∈ u.sessions.rows ↔ row ∈ t.sessions.rows))
    (hadmins : ∀ k, ¬ G k → ActiveAdmin u k → ActiveAdmin t k) : Changes P G s u where
  roles := hroles.trans h.roles
  next := le_trans h.next hnext
  account := fun k hk => (haccount k hk).trans (h.account k hk)
  sessions := fun row hrow => (hsessions row hrow).trans (h.sessions row hrow)
  admins := by
    intro k hk
    by_cases hG : G k
    · exact .inr hG
    · exact h.admins k (hadmins k hG hk)

/-- Login attempts may change freely. -/
theorem Changes.attempts (h : Changes P G s t) (attempts : List AuthLoginAttempt) :
    Changes P G s { t with attempts := attempts } :=
  h.andThen rfl (le_refl _) (fun _ _ => rfl) (fun _ _ => Iff.rfl) fun _ _ hk => hk

/-- A session for a user in `P` may be issued. -/
theorem Changes.withSession (h : Changes P G s t) (settings : Settings) {user : User}
    (tokenId : String) (claims : Claims) (hP : P user.id) :
    Changes P G s (t.withSession settings user tokenId claims) := by
  refine h.andThen rfl (le_refl _) (fun _ _ => rfl) (fun row hrow => ?_) fun _ _ hk => hk
  unfold State.withSession
  rw [Table.rows_add, List.mem_append, List.mem_singleton]
  constructor
  · rintro (hold | rfl)
    · exact hold
    · exact absurd hP hrow
  · exact .inl

/-- Rows of others stay the same rows when a user's sessions are revoked. -/
theorem mem_map_of_other {rows : List AuthSession} {f : AuthSession → AuthSession}
    {row : AuthSession} (huser : ∀ r, (f r).userId = r.userId)
    (hother : ∀ r ∈ rows, r.userId = row.userId → f r = r) : row ∈ rows.map f ↔ row ∈ rows := by
  rw [List.mem_map]
  constructor
  · rintro ⟨r, hr, rfl⟩
    rw [hother r hr (huser r).symm]
    exact hr
  · intro hrow
    exact ⟨row, hrow, hother row hrow rfl⟩

/-- A session of a user in `P` may be revoked. -/
theorem Changes.withRevoked (h : Changes P G s t) {session : AuthSession} (reason : String)
    (hsession : session ∈ t.sessions.rows) (hP : P session.userId) :
    Changes P G s (t.withRevoked session reason) := by
  refine h.andThen rfl (le_refl _) (fun _ _ => rfl) (fun row hrow => ?_) fun _ _ hk => hk
  refine mem_map_of_other (fun r => ?_) fun r hr huser => if_neg fun hid => ?_
  · split
    · exact (r.revoke_spec _ _).2.1
    · rfl
  · rw [t.sessions.eq_of_key_eq hr hsession hid] at huser
    rw [huser] at hP
    exact hrow hP

/-- All sessions of a user in `P` may be revoked. -/
theorem Changes.withAllRevoked (h : Changes P G s t) {userId : ℕ} (reason : String)
    (hP : P userId) : Changes P G s (t.withAllRevoked userId reason) := by
  refine h.andThen rfl (le_refl _) (fun k hk => ?_) (fun row hrow => ?_) fun k _ hk => ?_
  · have hne : k ≠ userId := by
      rintro rfl
      exact hk hP
    unfold State.withAllRevoked
    rw [Table.get?_update, if_neg hne]
  · refine mem_map_of_other (fun r => ?_) fun r _ huser => if_neg fun hid => ?_
    · unfold AuthSession.revokeOf
      split
      · exact (r.revoke_spec _ _).2.1
      · rfl
    · rw [← huser, hid] at hrow
      exact hrow hP
  · have hroles : (t.withAllRevoked userId reason).roles = t.roles := rfl
    exact activeAdmin_of_standing hroles (standing_withAllRevoked t userId reason k) hk

/-- An assignment to an account in `P`, which is in `G` unless activity and role stay. -/
theorem Changes.updateUser (h : Changes P G s t) {id : ℕ} {f : User → User}
    (hf : ∀ u, (f u).id = u.id) (hP : P id)
    (hG : G id ∨ ∀ u, (f u).isActive = true → u.isActive = true ∧ (f u).roleId = u.roleId) :
    Changes P G s (t.updateUser id f hf) := by
  have hne {k : ℕ} (hk : k ≠ id) : (t.updateUser id f hf).users.get? k = t.users.get? k :=
    Table.get?_update_of_ne _ _ hf hk
  refine h.andThen rfl (le_refl _) (fun k hk => hne ?_) (fun _ _ => Iff.rfl) fun k hk hadmin => ?_
  · rintro rfl
    exact hk hP
  · obtain ⟨u, hu, hactive, hrole⟩ := hadmin
    by_cases hid : k = id
    · subst hid
      unfold State.updateUser at hu
      rw [Table.get?_update_self] at hu
      obtain ⟨v, hv, rfl⟩ := Option.map_eq_some_iff.mp hu
      obtain ⟨hwas, hsame⟩ := (hG.resolve_left hk) v hactive
      unfold isAdmin at hrole
      rw [hsame] at hrole
      exact ⟨v, hv, hwas, hrole⟩
    · rw [hne hid] at hu
      exact ⟨u, hu, hactive, hrole⟩

/-- A new account, which is in `G` unless its role is not Admin. -/
theorem Changes.addUser (h : Changes P G s t) (username email passwordHash : String)
    {roleId : ℕ} (isActive forcePasswordChange : Bool) (hP : ∀ k, s.users.next ≤ k → P k)
    (hG : G t.users.next ∨ adminRole s roleId = false) :
    Changes P G s
      (t.addUser username email passwordHash roleId isActive forcePasswordChange) := by
  have hget (k : ℕ) : (t.addUser username email passwordHash roleId isActive
      forcePasswordChange).users.get? k = if k = t.users.next then
        some ⟨t.users.next, username, email, passwordHash, roleId, isActive,
          forcePasswordChange, 1⟩ else t.users.get? k := Table.get?_add ..
  refine h.andThen rfl (Nat.le_succ _) (fun k hk => ?_) (fun _ _ => Iff.rfl) fun k hk hadmin => ?_
  · rw [hget, if_neg]
    rintro rfl
    exact hk (hP _ h.next)
  · obtain ⟨u, hu, hactive, hrole⟩ := hadmin
    rw [hget] at hu
    by_cases hnew : k = t.users.next
    · rw [if_pos hnew] at hu
      cases hu
      have hnone := hG.resolve_left (hnew ▸ hk)
      rw [← adminRole_eq h.roles] at hnone
      have hadmin : adminRole t roleId = true := hrole
      rw [hnone] at hadmin
      cases hadmin
    · rw [if_neg hnew] at hu
      exact ⟨u, hu, hactive, hrole⟩

/-! ## What each request changes -/

/-- After the check of a token the user is the one of the token, and the state is the same. -/
theorem after_authenticated {token : Token} {Q : User → State → Prop}
    (h : ∀ user, getUserFromToken s token = .ok user → Q user s) :
    After (getAuthenticatedUser token) Q s := by
  unfold getAuthenticatedUser
  rw [after_bind, after_get]
  cases huser : getUserFromToken s token with
  | error e => exact after_throw _ _
  | ok user =>
    refine (after_pure _ _).mpr ?_
    exact h user huser

/-- `require_role("Admin")` lets active Admins pass. -/
theorem after_requireAdmin {token : Token} {Q : User → State → Prop}
    (h : ∀ admin, getUserFromToken s token = .ok admin → ActiveAdmin s admin.id → Q admin s) :
    After (requireAdmin token) Q s := by
  unfold requireAdmin
  rw [after_bind]
  refine after_authenticated fun admin hadmin => ?_
  rw [after_bind]
  refine after_raiseIf fun _ => ?_
  rw [after_bind, after_get, after_bind]
  refine after_raiseIf fun hname => ?_
  rw [after_pure]
  refine h admin hadmin ?_
  obtain ⟨_, -, -, hfirst, hactive, -⟩ := (getUserFromToken_eq_ok s token admin).mp hadmin
  refine ⟨admin, Table.get?_of_mem (Table.first_some hfirst).1, by simpa using hactive, ?_⟩
  unfold getRoleName at hname
  cases hrole : s.roles.find? (fun role => role.id = admin.roleId) with
  | none => simp [hrole] at hname
  | some role =>
    have hid := List.find?_some hrole
    refine List.any_eq_true.mpr ⟨role, List.mem_of_find?_eq_some hrole, ?_⟩
    by_cases hknown : role.name ∈ knownRoles
    · simp only [hrole, hknown, if_true, not_not] at hname
      simpa [hname] using hid
    · simp [hrole, hknown] at hname

variable {lib : Library} {settings : Settings}

/-- A new session for a user in `P`. -/
theorem changes_issueSession (h : Changes P G s t) {user : User} (tokenId : String)
    (hP : P user.id) :
    After (issueSession settings user tokenId) (fun _ u => Changes P G s u) t := by
  unfold issueSession
  rw [after_bind, after_get, after_bind, after_set, after_pure]
  exact h.withSession settings tokenId _ hP

/-- A login changes only users with the name and the password that were given. -/
theorem changes_loginUser {username password : String} {clientIp : Option String}
    {tokenId : String}
    (hP : ∀ user ∈ s.users.rows, user.username = username →
      lib.verify password user.passwordHash = true → P user.id) :
    After (loginUser lib settings username password clientIp tokenId)
      (fun _ t => Changes P G s t) s := by
  unfold loginUser
  rw [after_bind]
  refine (reads_checkLoginAllowed _ s).mono fun _ t hst => ?_
  subst hst
  have hrefl : Changes P G s s := .refl s
  rw [after_bind, after_get]
  cases huser : s.users.first fun u => u.username = username with
  | none =>
    unfold recordLoginFailure
    dsimp only
    rw [after_bind, after_modify, after_bind]
    refine after_commit ?_
    rw [after_pure]
    exact hrefl.attempts _
  | some user =>
    obtain ⟨hrow, hname⟩ := Table.first_some huser
    cases hvalid : lib.verify password user.passwordHash with
    | false =>
      unfold recordLoginFailure
      simp only [Option.map_some, Option.getD_some, hvalid]
      rw [after_bind, after_modify, after_bind]
      refine after_commit ?_
      rw [after_pure]
      exact hrefl.attempts _
    | true =>
      simp only [Option.map_some, Option.getD_some, hvalid]
      refine after_ite (fun _ => ?_) fun _ => ?_
      · rw [after_bind]
        refine after_commit ?_
        rw [after_pure]
        exact hrefl
      · unfold clearLoginFailures
        rw [after_bind, after_modify, after_bind]
        have hown := hP user hrow (by simpa using hname) hvalid
        refine (changes_issueSession (hrefl.attempts _) tokenId hown).mono fun _ t ht => ?_
        rw [after_bind]
        refine after_commit ?_
        rw [after_pure]
        exact ht

/-- A password change changes only the user of its token. -/
theorem changes_changePassword {token : Token} {currentPassword newPassword tokenId : String}
    (hP : ∀ user, getUserFromToken s token = .ok user → P user.id) :
    After (changePassword lib settings token currentPassword newPassword tokenId)
      (fun _ t => Changes P G s t) s := by
  unfold changePassword
  rw [after_bind]
  refine after_authenticated fun user huser => ?_
  have hown := hP user huser
  rw [after_bind]
  refine after_raiseIf fun _ => ?_
  rw [after_bind]
  refine (reads_validatePassword lib settings newPassword s).mono fun _ t hst => ?_
  subst hst
  rw [after_bind]
  refine after_raiseIf fun _ => ?_
  unfold revokeAllSessions
  rw [after_bind, after_modify, after_bind, after_modify, after_bind, after_get, after_bind]
  have hchanged : Changes P G s (s.updateUser user.id (fun u => { u with
      passwordHash := lib.hash newPassword, forcePasswordChange := false }) fun _ => rfl) :=
    (Changes.refl s).updateUser _ hown (.inr fun _ h => ⟨h, rfl⟩)
  have hrevoked := hchanged.withAllRevoked "password_changed" hown
  refine after_orRaise fun user' huser' => ?_
  rw [← Table.get?_key huser'] at hown
  rw [after_bind]
  refine (changes_issueSession hrevoked tokenId hown).mono fun _ t ht => ?_
  rw [after_bind]
  refine after_commit ?_
  rw [after_pure]
  exact ht

/-- The session of the token, of a user in `P`. -/
theorem after_session {token : Token} {Q : AuthSession → State → Prop}
    (hP : ∀ user, getUserFromToken s token = .ok user → P user.id)
    (h : ∀ row ∈ s.sessions.rows, P row.userId → Q row s) :
    After (getCurrentAuthSession token) Q s := by
  unfold getCurrentAuthSession
  rw [after_bind]
  refine after_authenticated fun user huser => ?_
  rw [after_bind, after_get]
  cases decode s.clock token with
  | none => exact after_throw _ _
  | some payload =>
    refine after_orRaise fun row hrow => ?_
    obtain ⟨hmem, hids⟩ := Table.first_some hrow
    simp only [Bool.and_eq_true, decide_eq_true_eq] at hids
    refine h row hmem ?_
    rw [hids.2]
    exact hP user huser

/-- A logout changes only the user of its token. -/
theorem changes_logout {token : Token}
    (hP : ∀ user, getUserFromToken s token = .ok user → P user.id) :
    After (logout token) (fun _ t => Changes P G s t) s := by
  unfold logout revokeSession
  rw [after_bind]
  refine after_session hP fun row hrow hown => ?_
  rw [after_bind, after_modify]
  exact after_commit ((Changes.refl s).withRevoked "logout" hrow hown)

/-- The removal of a session changes only the user of its token. -/
theorem changes_removeSession {token : Token} {sessionId : ℕ}
    (hP : ∀ user, getUserFromToken s token = .ok user → P user.id) :
    After (removeSession token sessionId) (fun _ t => Changes P G s t) s := by
  unfold removeSession revokeSession
  rw [after_bind]
  refine after_session hP fun _ _ _ => ?_
  rw [after_bind]
  refine after_authenticated fun user huser => ?_
  rw [after_bind, after_get, after_bind]
  refine after_orRaise fun row hrow => ?_
  obtain ⟨hmem, hids⟩ := Table.first_some hrow
  simp only [Bool.and_eq_true, decide_eq_true_eq] at hids
  have hown : P row.userId := by
    rw [hids.2]
    exact hP user huser
  rw [after_bind, after_modify]
  exact after_commit ((Changes.refl s).withRevoked "user_revoked" hmem hown)

/-! ## What each request of an Admin changes -/

/-- An Admin may change every account. -/
def Governs (P : ℕ → Prop) (s : State) (token : Token) : Prop :=
  ∀ admin, getUserFromToken s token = .ok admin → ActiveAdmin s admin.id → ∀ k, P k

/-- The creation of a user needs an Admin and makes a new account, which may be that of an active
Admin. -/
theorem changes_createAdminUser {token : Token} {username email password : String}
    {role : Option String} {roleId : Option ℕ} {isActive forcePasswordChange : Bool}
    (hP : Governs P s token) (hG : ∀ admin, getUserFromToken s token = .ok admin →
      ActiveAdmin s admin.id → G s.users.next) :
    After (createAdminUser lib settings token username email password role roleId isActive
      forcePasswordChange) (fun _ t => Changes P G s t) s := by
  unfold createAdminUser
  rw [after_bind]
  refine after_requireAdmin fun admin htoken hadmin => ?_
  have hall := hP admin htoken hadmin
  rw [after_bind]
  refine after_raiseIf fun _ => ?_
  rw [after_bind]
  refine after_raiseIf fun _ => ?_
  rw [after_bind]
  refine after_raiseIf fun _ => ?_
  rw [after_bind, after_get, after_bind]
  refine after_orRaise fun roleId _ => ?_
  rw [after_bind]
  refine (reads_roleOr422 roleId s).mono fun selectedRole t hst => ?_
  subst hst
  rw [after_bind]
  refine (reads_validatePassword lib settings password s).mono fun _ t hst => ?_
  subst hst
  rw [after_bind]
  refine after_raiseIf fun _ => ?_
  rw [after_bind]
  refine after_raiseIf fun _ => ?_
  rw [after_bind, after_modify]
  refine after_commit ?_
  exact (Changes.refl s).addUser _ _ _ _ _ (fun k _ => hall k) (.inl (hG admin htoken hadmin))

/-- The protection of the last administrator changes nothing. -/
theorem after_protectLast {user : User} {deactivating : Bool} {newRole : Option Role}
    {Q : Unit → State → Prop} (h : Q () s) :
    After (protectLastPlatformAdmin user deactivating newRole) Q s := by
  refine (reads_protectLastPlatformAdmin user deactivating newRole s).mono fun _ t hst => ?_
  rw [← hst]
  exact h

/-- A patch of a user needs an Admin and makes at most that user an active Admin. -/
theorem changes_patchAdminUser {token : Token} {id : ℕ} {patch : UserPatch}
    (hP : Governs P s token)
    (hG : ∀ admin, getUserFromToken s token = .ok admin → ActiveAdmin s admin.id → G id) :
    After (patchAdminUser token id patch) (fun _ t => Changes P G s t) s := by
  unfold patchAdminUser revokeAllSessions
  rw [after_bind]
  refine after_requireAdmin fun admin htoken hadmin => ?_
  have hall := hP admin htoken hadmin
  rw [after_bind]
  refine after_findUser fun u hu => ?_
  rw [after_bind]
  refine after_raiseIf fun _ => ?_
  rw [after_bind]
  refine (reads_mapM_roleOr422 patch.roleId s).mono fun selectedRole t hst => ?_
  subst hst
  rw [after_bind]
  refine after_protectLast ?_
  rw [after_bind, after_modify]
  have hpatched : Changes P G s (s.updateUser id patch.apply fun _ => rfl) :=
    (Changes.refl s).updateUser _ (hall id) (.inl (hG admin htoken hadmin))
  refine after_ite (fun _ => ?_) fun _ => after_commit hpatched
  rw [after_bind, after_modify]
  exact after_commit (hpatched.withAllRevoked _ (hall id))

/-- A password reset needs an Admin and makes nobody an active Admin. -/
theorem changes_resetUserPassword {token : Token} {id : ℕ} {password : String}
    {forcePasswordChange : Bool} (hP : Governs P s token) :
    After (resetUserPassword lib settings token id password forcePasswordChange)
      (fun _ t => Changes P G s t) s := by
  unfold resetUserPassword revokeAllSessions
  rw [after_bind]
  refine after_requireAdmin fun admin htoken hadmin => ?_
  have hall := hP admin htoken hadmin
  rw [after_bind]
  refine after_findUser fun u hu => ?_
  rw [after_bind]
  refine after_raiseIf fun _ => ?_
  rw [after_bind]
  refine (reads_validatePassword lib settings password s).mono fun _ t hst => ?_
  subst hst
  rw [after_bind, after_modify, after_bind, after_modify]
  have hreset : Changes P G s (s.updateUser u.id (fun u => { u with
      passwordHash := lib.hash password, forcePasswordChange := forcePasswordChange })
      fun _ => rfl) := (Changes.refl s).updateUser _ (hall u.id) (.inr fun _ h => ⟨h, rfl⟩)
  exact after_commit (hreset.withAllRevoked _ (hall u.id))

/-- Switching a user on or off needs an Admin and makes at most that user an active Admin. -/
theorem changes_activateUser {token : Token} {id : ℕ} {isActive : Option (Option Bool)}
    (hP : Governs P s token)
    (hG : ∀ admin, getUserFromToken s token = .ok admin → ActiveAdmin s admin.id → G id) :
    After (activateUser token id isActive) (fun _ t => Changes P G s t) s := by
  unfold activateUser revokeAllSessions
  rw [after_bind]
  refine after_requireAdmin fun admin htoken hadmin => ?_
  have hall := hP admin htoken hadmin
  rw [after_bind]
  refine after_findUser fun u hu => ?_
  rw [after_bind]
  refine after_raiseIf fun _ => ?_
  rw [after_bind]
  refine after_protectLast ?_
  rw [Table.get?_key hu, after_bind, after_modify]
  have hset : Changes P G s (s.updateUser id (fun u => { u with
      isActive := (isActive.map (·.getD false)).getD true }) fun _ => rfl) :=
    (Changes.refl s).updateUser _ (hall id) (.inl (hG admin htoken hadmin))
  refine after_ite (fun _ => ?_) fun _ => after_commit hset
  rw [after_bind, after_modify]
  exact after_commit (hset.withAllRevoked _ (hall id))

/-- A change of role needs an Admin and makes at most that user an active Admin. -/
theorem changes_changeUserRole {token : Token} {id : ℕ} {roleId : Option ℕ}
    (hP : Governs P s token)
    (hG : ∀ admin, getUserFromToken s token = .ok admin → ActiveAdmin s admin.id → G id) :
    After (changeUserRole token id roleId) (fun _ t => Changes P G s t) s := by
  unfold changeUserRole
  rw [after_bind]
  refine after_requireAdmin fun admin htoken hadmin => ?_
  have hall := hP admin htoken hadmin
  rw [after_bind]
  refine after_findUser fun u hu => ?_
  rw [after_bind]
  refine after_orRaise fun roleId _ => ?_
  rw [after_bind]
  refine (reads_roleOr422 roleId s).mono fun selectedRole t hst => ?_
  subst hst
  rw [after_bind]
  refine after_protectLast ?_
  rw [Table.get?_key hu, after_bind, after_modify]
  refine after_commit ?_
  exact (Changes.refl s).updateUser _ (hall id) (.inl (hG admin htoken hadmin))

/-- A deletion needs an Admin and makes nobody an active Admin. -/
theorem changes_deleteAdminUser {token : Token} {id : ℕ} (hP : Governs P s token) :
    After (deleteAdminUser token id) (fun _ t => Changes P G s t) s := by
  unfold deleteAdminUser revokeAllSessions
  rw [after_bind]
  refine after_requireAdmin fun admin htoken hadmin => ?_
  have hall := hP admin htoken hadmin
  rw [after_bind]
  refine after_raiseIf fun _ => ?_
  rw [after_bind]
  refine after_findUser fun u hu => ?_
  rw [after_bind]
  refine after_protectLast ?_
  rw [after_bind, after_modify, after_bind, after_modify]
  have hset : Changes P G s (s.updateUser u.id (fun u => { u with isActive := false })
      fun _ => rfl) :=
    (Changes.refl s).updateUser _ (hall u.id) (.inr fun _ h => nomatch h)
  exact after_commit (hset.withAllRevoked _ (hall u.id))

/-- The revocation of a user's sessions needs an Admin and makes nobody an active Admin. -/
theorem changes_revokeUserSessions {token : Token} {id : ℕ} (hP : Governs P s token) :
    After (revokeUserSessions token id) (fun _ t => Changes P G s t) s := by
  unfold revokeUserSessions revokeAllSessions
  rw [after_bind]
  refine after_requireAdmin fun admin htoken hadmin => ?_
  rw [after_bind]
  refine after_findUser fun u hu => ?_
  rw [after_bind, after_modify]
  exact after_commit ((Changes.refl s).withAllRevoked _ (hP admin htoken hadmin u.id))

/-! ## What the other ways to get an account change -/

/-- The first enrollment makes a new account, and an active Admin only with the configured token
while there is none. -/
theorem changes_createFirstAdmin {bootstrapToken username email password tokenId : String}
    (hP : ∀ k, s.users.next ≤ k → P k)
    (hG : bootstrapToken ≠ "" → settings.bootstrapAdminToken = some bootstrapToken →
      ¬ Administered s → G s.users.next) :
    After (createFirstAdmin lib settings bootstrapToken username email password tokenId)
      (fun _ t => Changes P G s t) s := by
  unfold createFirstAdmin
  rw [after_bind]
  refine after_raiseIf fun hconfigured => ?_
  obtain ⟨hne, htoken⟩ := not_or.mp hconfigured
  rw [not_not] at htoken
  rw [after_bind, after_get, after_bind]
  refine after_orRaise fun role _ => ?_
  rw [after_bind]
  refine after_raiseIf fun hnone => ?_
  rw [after_bind]
  refine after_raiseIf fun _ => ?_
  rw [after_bind]
  refine after_raiseIf fun _ => ?_
  rw [after_bind]
  refine (reads_validatePassword lib settings password s).mono fun _ t hst => ?_
  subst hst
  rw [after_bind, after_modify, after_bind, after_get, after_bind]
  have hfounded : G s.users.next := by
    refine hG (htoken ▸ hne) ?_ ?_
    · cases hset : settings.bootstrapAdminToken with
      | none =>
        rw [hset] at hne
        exact absurd rfl hne
      | some configured =>
        rw [hset] at htoken
        rw [htoken, Option.getD_some]
    · rintro ⟨k, u, hu, hactive, hadmin⟩
      cases hfirst : s.users.first fun u => isAdmin s u && u.isActive with
      | some v => simp [hfirst] at hnone
      | none =>
        have hnot := Table.first_none hfirst u (Table.mem_of_get? hu)
        simp [hactive, hadmin] at hnot
  have hadded : Changes P G s (s.addUser (lib.strip username) (lib.lower (lib.strip email))
      (lib.hash password) role.id true false) :=
    (Changes.refl s).addUser _ _ _ _ _ hP (.inl hfounded)
  refine after_orRaise fun user huser => ?_
  rw [after_bind]
  have hown : P user.id := hP user.id (le_of_eq (Table.get?_key huser).symm)
  refine (changes_issueSession hadded tokenId hown).mono fun _ t ht => ?_
  rw [after_bind]
  refine after_commit ?_
  rw [after_pure]
  exact ht

/-- The enrollment of students makes new accounts, which are those of active Admins only when their
role is the role of an Admin. -/
theorem changes_createStudents {roleId : ℕ} {accounts : List (String × String × String)}
    (hP : ∀ k, s.users.next ≤ k → P k) (hG : (∀ k, G k) ∨ adminRole s roleId = false) :
    After (createStudents lib roleId accounts) (fun _ t => Changes P G s t) s := by
  have hadd : ∀ account : String × String × String,
      Moves (fun t u => Changes P G s t → Changes P G s u)
        (modify fun s =>
          s.addUser account.1 account.2.1 (lib.hash account.2.2) roleId true true : Tx Unit) :=
    fun _ => moves_modify fun t ht => ht.addUser _ _ _ _ _ hP (hG.imp_left fun h => h _)
  unfold createStudents
  rw [after_bind]
  have hall := Moves.forM (fun _ h => h) (fun _ _ _ h h' ht => h' (h ht)) hadd accounts
  exact (hall s).mono fun _ t ht => after_commit (ht (.refl s))

end Primitives

/-! ## What a request changes -/

/-- The accounts that a request may change: those of the users it acts for, every account when
it acts for an active Admin, and new ones. -/
def MayChange (lib : Library) (s : State) (r : Request) (k : ℕ) : Prop :=
  ActsFor lib s r k ∨ (∃ j, ActsForAdmin lib s r j) ∨ s.users.next ≤ k

/-- The accounts that a request may make those of active Admins. -/
def MayPromote (lib : Library) (settings : Settings) (s : State) (r : Request) (k : ℕ) : Prop :=
  (∃ j, ActsForAdmin lib s r j ∧ r.Appoints s k) ∨ Enrolls settings s r k

/-- The role of the new students is not Admin. -/
def Request.StudentsOnly (s : State) : Request → Prop
  | .createStudents roleId _ => adminRole s roleId = false
  | _ => True

section Requests

variable {lib : Library} {settings : Settings} {P G : ℕ → Prop} {s : State}

/-- A request acts for the user of its token. -/
theorem actsFor_of_token {r : Request} {token : Token} {user : User}
    (hr : r.token? = some token) (huser : getUserFromToken s token = .ok user) :
    ActsFor lib s r user.id := by
  cases r with
  | login => cases hr
  | _ => exact ⟨token, hr, user, huser, rfl⟩

/-- The value that a request returns does not matter. -/
theorem after_unit {α : Type} {m : Tx α} {R : State → Prop} (h : After m (fun _ t => R t) s) :
    After (m >>= fun _ => pure ()) (fun _ t => R t) s := by
  rw [after_bind]
  refine h.mono fun _ t ht => ?_
  rw [after_pure]
  exact ht

/-- Every request changes only the accounts that it may change, and promotes only those that it may
promote. -/
theorem changes_run (r : Request) (hP : ∀ k, MayChange lib s r k → P k)
    (hG : ∀ k, MayPromote lib settings s r k → G k) (hrole : (∀ k, G k) ∨ r.StudentsOnly s) :
    After (r.run lib settings) (fun _ t => Changes P G s t) s := by
  have hnew : ∀ k, s.users.next ≤ k → P k := fun k hk => hP k (.inr (.inr hk))
  have hown : ∀ token, r.token? = some token → ∀ user,
      getUserFromToken s token = .ok user → P user.id := by
    intro token hr user huser
    exact hP user.id (.inl (actsFor_of_token hr huser))
  have hadmin : ∀ token, r.token? = some token → Governs P s token := by
    intro token hr admin htoken hactive k
    exact hP k (.inr (.inl ⟨admin.id, hactive, actsFor_of_token hr htoken⟩))
  have happoints : ∀ token k, r.token? = some token → r.Appoints s k → ∀ admin,
      getUserFromToken s token = .ok admin → ActiveAdmin s admin.id → G k := by
    intro token k hr hk admin htoken hactive
    exact hG k (.inl ⟨admin.id, ⟨hactive, actsFor_of_token hr htoken⟩, hk⟩)
  cases r with
  | login =>
    refine after_unit (changes_loginUser fun user hrow hname hvalid => ?_)
    exact hP user.id (.inl ⟨user, Table.get?_of_mem hrow, hname, hvalid⟩)
  | changePassword token => exact after_unit (changes_changePassword (hown token rfl))
  | logout token => exact changes_logout (hown token rfl)
  | removeSession token => exact changes_removeSession (hown token rfl)
  | createAdminUser token =>
    exact changes_createAdminUser (hadmin token rfl) (happoints token _ rfl rfl)
  | patchAdminUser token =>
    exact changes_patchAdminUser (hadmin token rfl) (happoints token _ rfl rfl)
  | resetUserPassword token => exact changes_resetUserPassword (hadmin token rfl)
  | activateUser token => exact changes_activateUser (hadmin token rfl) (happoints token _ rfl rfl)
  | changeUserRole token =>
    exact changes_changeUserRole (hadmin token rfl) (happoints token _ rfl rfl)
  | deleteAdminUser token => exact changes_deleteAdminUser (hadmin token rfl)
  | revokeUserSessions token => exact changes_revokeUserSessions (hadmin token rfl)
  | createFirstAdmin bootstrapToken username email password tokenId =>
    refine after_unit (changes_createFirstAdmin hnew fun hne htoken hnone => ?_)
    exact hG _ (.inr ⟨_, _, _, _, _, rfl, hne, htoken, hnone, rfl⟩)
  | createStudents => exact changes_createStudents hnew hrole

end Requests

/-! ## The authority of Admins -/

/-- `_new_students` looks the role of the new students up. -/
def Request.StudentRole (lib : Library) (s : State) : Request → Prop
  | .createStudents roleId _ =>
    ∃ role ∈ s.roles, lib.ilike role.name "student" = true ∧ role.id = roleId
  | _ => True

/-- A request that succeeds, or time that passes. -/
inductive Turn (lib : Library) (settings : Settings) : State → State → Prop
  | request (r : Request) {s t : State} (hrole : r.StudentRole lib s)
      (h : (r.run lib settings).run s = .ok ((), t)) : Turn lib settings s t
  | tick (s : State) (elapsed : ℕ) : Turn lib settings s { s with clock := s.clock + elapsed }

/-- To be an active Admin. -/
def adminship (lib : Library) (settings : Settings) : Privilege State ℕ where
  step := Turn lib settings
  holds := ActiveAdmin
  founds s t k := ∃ r : Request, (r.run lib settings).run s = .ok ((), t) ∧ Enrolls settings s r k
  confers s t j k :=
    ∃ r : Request, (r.run lib settings).run s = .ok ((), t) ∧ ActsFor lib s r j ∧ r.Appoints s k

/-- The ids of the roles are a primary key. -/
def RoleKeys (s : State) : Prop := ∀ a ∈ s.roles, ∀ b ∈ s.roles, a.id = b.id → a = b

section Authority

variable {lib : Library} {settings : Settings}

/-- The role that `_new_students` finds is not the role of an Admin, when the names of the two roles
differ in every case. -/
theorem Request.StudentRole.studentsOnly (hlib : lib.ilike "Admin" "student" = false) {s : State}
    (hkeys : RoleKeys s) {r : Request} (h : r.StudentRole lib s) : r.StudentsOnly s := by
  cases r with
  | createStudents roleId accounts =>
    obtain ⟨role, hrole, hname, hid⟩ := h
    refine Bool.eq_false_iff.mpr fun hadmin => ?_
    obtain ⟨b, hb, hadmin⟩ := List.any_eq_true.mp hadmin
    simp only [Bool.and_eq_true, decide_eq_true_eq] at hadmin
    have hsame := hkeys role hrole b hb (hid.trans hadmin.1.symm)
    rw [hsame, hadmin.2, hlib] at hname
    cases hname
  | _ => trivial

/-- Adminship is founded by the first enrollment and conferred by Admins only. -/
theorem guarded_adminship (hlib : lib.ilike "Admin" "student" = false) :
    (adminship lib settings).Guarded RoleKeys where
  keeps := by
    rintro s t hkeys (⟨r, hrole, hrun⟩ | ⟨elapsed⟩)
    · have hchanges := changes_run (P := fun _ => True) (G := fun _ => True) r
        (fun _ _ => trivial) (fun _ _ => trivial) (.inl fun _ => trivial) () t hrun
      unfold RoleKeys
      rw [hchanges.roles]
      exact hkeys
    · exact hkeys
  gives := by
    rintro s t k hkeys (⟨r, hrole, hrun⟩ | ⟨elapsed⟩) hk
    · have hchanges := changes_run (P := fun _ => True) r (fun _ _ => trivial)
        (fun _ h => h) (.inr (hrole.studentsOnly hlib hkeys)) () t hrun
      rcases hchanges.admins k hk with hold | ⟨j, ⟨hj, hacts⟩, happoints⟩ | hfirst
      · exact .inl hold
      · exact .inr (.inr ⟨j, hj, r, hrun, hacts, happoints⟩)
      · exact .inr (.inl ⟨r, hrun, hfirst⟩)
    · exact .inl hk

/-- Every active Admin was one at the start, or enrolled first with the configured token, or was
appointed by a request of an active Admin, of whom the same holds. Where no token is configured
and no active Admin is there, there is never one. -/
theorem adminship_conferred (lib : Library) (settings : Settings)
    (hlib : lib.ilike "Admin" "student" = false) (start t : State) (hkeys : RoleKeys start)
    (hrun : Relation.ReflTransGen (Turn lib settings) start t) :
    (∀ k, ActiveAdmin t k → (adminship lib settings).Entitled start t k) ∧
      (settings.bootstrapAdminToken.getD "" = "" → ¬ Administered start → ¬ Administered t) := by
  have hguarded : (adminship lib settings).Guarded RoleKeys := guarded_adminship hlib
  refine ⟨fun k hk => hguarded.entitled hkeys hrun hk, ?_⟩
  rintro hconfigured hnone ⟨k, hk⟩
  refine hguarded.not_holds hkeys hrun (fun j hj => hnone ⟨j, hj⟩) ?_ hk
  rintro s u j - ⟨r, -, bootstrapToken, _, _, _, _, -, hne, htoken, -, -⟩
  rw [htoken, Option.getD_some] at hconfigured
  exact hne hconfigured

/-- A list of requests that succeed is a path of turns. -/
theorem turns_of_runAll {requests : List Request} {s t : State}
    (hrole : ∀ r ∈ requests, ∀ s, r.StudentRole lib s)
    (h : runAll lib settings requests s = some t) :
    Relation.ReflTransGen (Turn lib settings) s t := by
  induction requests generalizing s with
  | nil =>
    cases h
    exact .refl
  | cons r requests ih =>
    unfold runAll at h
    split at h
    · rename_i hrun
      have hturn := @Turn.request lib settings r s _ (hrole r List.mem_cons_self s) hrun
      exact .head hturn (ih (fun r' hr' => hrole r' (List.mem_cons_of_mem r hr')) h)
    · cases h

end Authority

namespace Fixture

/-- Nobody has enrolled. -/
def unclaimed : State := ⟨.empty, .empty, [], [⟨1, "Admin"⟩, ⟨2, "Student"⟩], 0, []⟩

/-- The first Admin enrolls and makes another one. -/
theorem t1_ne_empty : "t1" ≠ "" := by decide

/-- The id of the second token is not empty. -/
theorem t2_ne_empty : "t2" ≠ "" := by decide

def enrolment : List Request :=
  [.createFirstAdmin "boot" "root" "root@lab" "Longenough-12" ⟨"t1", t1_ne_empty⟩,
    .createAdminUser (.signed rootToken) "eve" "eve@lab" "Longenough-12" (some "Admin") none true
      false]

set_option maxRecDepth 100000 in
/-- In the fixture the first enrollment makes the second user an active Admin, and the user is
entitled. -/
theorem adminship_conferred_enrolment :
    ∃ t, Relation.ReflTransGen (Turn library { bootstrapAdminToken := some "boot" }) unclaimed t ∧
      ActiveAdmin t 2 ∧
      (adminship library { bootstrapAdminToken := some "boot" }).Entitled unclaimed t 2 := by
  have hplay : (runAll library { bootstrapAdminToken := some "boot" } enrolment unclaimed).any
      (fun t => (t.users.get? 2).any fun u => u.isActive && isAdmin t u) = true := by
    decide +kernel
  obtain ⟨t, hrun, ht⟩ := (Option.any_eq_true _ _).mp hplay
  obtain ⟨u, hu, hadmin⟩ := (Option.any_eq_true _ _).mp ht
  rw [Bool.and_eq_true] at hadmin
  have hroles : ∀ r ∈ enrolment, ∀ s, r.StudentRole library s := by
    simp [enrolment, Request.StudentRole]
  have hturns := turns_of_runAll hroles hrun
  have heve : ActiveAdmin t 2 := ⟨u, hu, hadmin⟩
  have hkeys : RoleKeys unclaimed := by
    unfold RoleKeys
    decide
  have hconferred := adminship_conferred library { bootstrapAdminToken := some "boot" } rfl
    unclaimed t hkeys hturns
  exact ⟨t, hturns, heve, hconferred.1 2 heve⟩

end Fixture

/-! ## Accounts that nobody acts for -/

/-- A request that succeeds and acts neither for the user `k` nor for an active Admin, or time
that passes. -/
inductive Aside (lib : Library) (settings : Settings) (k : ℕ) : State → State → Prop
  | request (r : Request) {s t : State} (hown : ¬ ActsFor lib s r k)
      (hadmin : ∀ j, ¬ ActsForAdmin lib s r j) (h : (r.run lib settings).run s = .ok ((), t)) :
      Aside lib settings k s t
  | tick (s : State) (elapsed : ℕ) : Aside lib settings k s { s with clock := s.clock + elapsed }

/-- The account of the user `k` is the same, and so are the sessions. -/
structure Untouched (k : ℕ) (s t : State) : Prop where
  account : t.users.get? k = s.users.get? k
  sessions : ∀ row : AuthSession, row.userId = k →
    (row ∈ t.sessions.rows ↔ row ∈ s.sessions.rows)

/-- An account that is untouched twice is untouched. -/
theorem Untouched.trans {k : ℕ} {s t u : State} (h : Untouched k s t) (h' : Untouched k t u) :
    Untouched k s u where
  account := h'.account.trans h.account
  sessions := fun row hrow => (h'.sessions row hrow).trans (h.sessions row hrow)

/-- A turn that acts neither for the user nor for an active Admin leaves the user's account
untouched. -/
theorem untouched_aside {lib : Library} {settings : Settings} {k : ℕ} {s t : State} {user : User}
    (huser : s.users.get? k = some user) (h : Aside lib settings k s t) : Untouched k s t := by
  cases h with
  | tick elapsed => exact ⟨rfl, fun _ _ => Iff.rfl⟩
  | request r hown hadmin hrun =>
    have hchanges := changes_run (G := fun _ => True) r (fun _ h => h) (fun _ _ => trivial)
      (.inl fun _ => trivial) () t hrun
    have hnot : ¬ MayChange lib s r k := by
      rintro (hacts | ⟨j, hj⟩ | hnew)
      · exact hown hacts
      · exact hadmin j hj
      · have hlt := Table.lt_next_of_get? huser
        omega
    refine ⟨hchanges.account k hnot, fun row hrow => hchanges.sessions row ?_⟩
    rw [hrow]
    exact hnot

/-- A token stays accepted for a user whose account and sessions are the same. -/
theorem Untouched.authenticates {k : ℕ} {s t : State} (h : Untouched k s t)
    (hclock : t.clock = s.clock) (hc : t.Constraints) {token : Token}
    (htoken : Authenticates s token k) : Authenticates t token k := by
  obtain ⟨user, huser, rfl⟩ := htoken
  obtain ⟨payload, hd, hnamed, hfirst, hactive, hver, session, hsession, hrevoked, hexpires⟩ :=
    (getUserFromToken_eq_ok s token user).mp huser
  obtain ⟨hrow, hname⟩ := Table.first_some hfirst
  obtain ⟨hmem, hids⟩ := Table.first_some hsession
  simp only [Bool.and_eq_true, decide_eq_true_eq] at hname hids
  have hget : t.users.get? user.id = some user := by
    rw [h.account]
    exact Table.get?_of_mem hrow
  have hfirst' := first_username hc (Table.mem_of_get? hget)
  have hsession' := first_tokenId hc ((h.sessions session hids.2).mpr hmem)
  rw [hname] at hfirst'
  rw [hids.1, hids.2] at hsession'
  rw [← hclock] at hd hexpires
  exact ⟨user, (getUserFromToken_eq_ok t token user).mpr ⟨payload, hd, hnamed, hfirst', hactive,
    hver, session, hsession', hrevoked, hexpires⟩, rfl⟩

/-- The constraints hold after every turn. -/
theorem constraints_aside {lib : Library} {settings : Settings} {k : ℕ} {s t : State}
    (hc : s.Constraints) (h : Aside lib settings k s t) : t.Constraints := by
  cases h with
  | tick elapsed => exact ⟨hc.username, hc.email, hc.tokenId⟩
  | request r _ _ hrun => exact endsIn_run lib settings r s () t hrun

/-- While no request acts for a user or for an active Admin, whatever else is requested leaves
the user's account and sessions as they are: the tokens that are accepted for the user are the
ones that would be if nothing but time had passed. -/
theorem account_untouched (lib : Library) (settings : Settings) (k : ℕ) (s t : State)
    (user : User) (huser : s.users.get? k = some user) (hc : s.Constraints)
    (hrun : Relation.ReflTransGen (Aside lib settings k) s t) :
    Untouched k s t ∧
      ∀ token, Authenticates t token k ↔ Authenticates { s with clock := t.clock } token k := by
  have hrest : Untouched k s t ∧ t.Constraints := by
    induction hrun with
    | refl => exact ⟨⟨rfl, fun _ _ => Iff.rfl⟩, hc⟩
    | tail _ hstep ih =>
      exact ⟨ih.1.trans (untouched_aside (ih.1.account.trans huser) hstep),
        constraints_aside ih.2 hstep⟩
  obtain ⟨huntouched, hct⟩ := hrest
  refine ⟨huntouched, fun token => ⟨fun h => ?_, fun h => ?_⟩⟩
  · have hback : Untouched k t { s with clock := t.clock } :=
      ⟨huntouched.account.symm, fun row hrow => (huntouched.sessions row hrow).symm⟩
    exact hback.authenticates rfl ⟨hc.username, hc.email, hc.tokenId⟩ h
  · have hforth : Untouched k { s with clock := t.clock } t :=
      ⟨huntouched.account, huntouched.sessions⟩
    exact hforth.authenticates rfl hct h

namespace Fixture

/-- Somebody tries a password for `root`. -/
def guess : Request := .login "root" "guess" none ⟨"t1", t1_ne_empty⟩

def adaLogin : Request := .login "ada" "a" none ⟨"t2", t2_ne_empty⟩

def guessed : State := { start with attempts := [⟨"root", 1, 0, none⟩] }

def loggedIn : State :=
  { guessed with
    sessions := ⟨[⟨1, 2, "t2", 3600000000, none, none⟩], 2, by decide, by decide⟩
    history := [.issued adaToken 2] }

/-- A guess does not act for anybody, and the login for `ada` only. -/
theorem not_actsFor_guess (k : ℕ) : ¬ ActsFor library start guess k := by
  rintro ⟨user, huser, hname, hvalid⟩
  have hwrong : ∀ user ∈ start.users.rows, user.username = "root" →
      library.verify "guess" user.passwordHash = false := by decide
  rw [hwrong user (Table.mem_of_get? huser) hname] at hvalid
  cases hvalid

/-- A login as `ada` with her password acts for her. -/
theorem actsFor_adaLogin {k : ℕ} (h : ActsFor library guessed adaLogin k) : k = 2 := by
  obtain ⟨user, huser, hname, -⟩ := h
  have hada : ∀ user ∈ start.users.rows, user.username = "ada" → user.id = 2 := by decide
  have hid := hada user (Table.mem_of_get? huser) hname
  rw [← Table.get?_key huser]
  exact hid

/-- The second user of the fixture is no active Admin. -/
theorem not_activeAdmin_ada : ¬ ActiveAdmin guessed 2 := by
  rintro ⟨user, huser, -, hadmin⟩
  cases huser
  cases hadmin

/-- A guess and a login of another user leave the account of `root` alone. -/
theorem account_untouched_root :
    Relation.ReflTransGen (Aside library {} 1) start loggedIn ∧ Untouched 1 start loggedIn := by
  have hguess : (guess.run library {}).run start = .ok ((), guessed) := rfl
  have hlogin : (adaLogin.run library {}).run guessed = .ok ((), loggedIn) := rfl
  have hfirst : Aside library {} 1 start guessed :=
    .request guess (not_actsFor_guess 1) (fun j hj => not_actsFor_guess j hj.2) hguess
  have hsecond : Aside library {} 1 guessed loggedIn := by
    refine .request adaLogin (fun h => absurd (actsFor_adaLogin h) (by decide)) ?_ hlogin
    rintro j ⟨hadmin, hacts⟩
    rw [actsFor_adaLogin hacts] at hadmin
    exact not_activeAdmin_ada hadmin
  have hrun := Relation.ReflTransGen.tail (.single hfirst) hsecond
  exact ⟨hrun, (account_untouched library {} 1 start loggedIn _ rfl start_initial.constraints
    hrun).1⟩

end Fixture

end LabGoblin.Accounts
