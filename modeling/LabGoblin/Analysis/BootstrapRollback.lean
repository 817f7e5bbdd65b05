import LabGoblin.Model.ProxmoxBootstrap

/-!
# The compensation of a bootstrap

While a bootstrap runs, the server differs from the one it started with at most in the role and the
user that the bootstrap has created, which were not there before, and nothing is committed before
the last step. So the deletions of the handler restore what was there.
-/

set_option autoImplicit false

namespace LabGoblin.ProxmoxBootstrap

open Raising

/-- The roles and users of a server are those of another one as well. -/
structure Server.Keeps (s t : Server) : Prop where
  roles : ∀ id privileges, s.roles id = some privileges → t.roles id = some privileges
  users : ∀ id user, s.users id = some user → t.users id = some user

/-- What the bootstrap has created so far is recorded, and was not there when it began. -/
structure Owned (server : Server) (db : Database) (w : World) : Prop where
  db : w.db = db
  supported : w.server.supported = server.supported
  role : if w.createdRole = true then server.roles serviceRole = none
    else w.server.roles serviceRole = server.roles serviceRole
  otherRoles : ∀ id, id ≠ serviceRole → w.server.roles id = server.roles id
  user : if w.createdUser = true then server.users serviceUser = none
    else w.server.users serviceUser = server.users serviceUser
  otherUsers : ∀ id, id ≠ serviceUser → w.server.users id = server.users id
  history : ∀ s ∈ w.servers, server.Keeps s

variable {server : Server} {db : Database} {w : World}

/-- At the start nothing has been created. -/
theorem Owned.start (server : Server) (db : Database) : Owned server db (.start server db) where
  db := rfl
  supported := rfl
  role := rfl
  otherRoles := fun _ _ => rfl
  user := rfl
  otherUsers := fun _ _ => rfl
  history := fun _ h => by cases h

/-- Whatever was there when the bootstrap began is there still. -/
theorem Owned.keeps (h : Owned server db w) : server.Keeps w.server where
  roles := fun id privileges hid => by
    by_cases hrole : id = serviceRole
    · subst hrole
      have hown := h.role
      split at hown
      · rw [hid] at hown
        cases hown
      · rw [hown, hid]
    · rw [h.otherRoles id hrole, hid]
  users := fun id user hid => by
    by_cases huser : id = serviceUser
    · subst huser
      have hown := h.user
      split at hown
      · rw [hid] at hown
        cases hown
      · rw [hown, hid]
    · rw [h.otherUsers id huser, hid]

/-- A call that changes nothing else than the permissions. -/
theorem Owned.answer (h : Owned server db w) {s : Server} (hroles : s.roles = w.server.roles)
    (husers : s.users = w.server.users) (hsupported : s.supported = w.server.supported) :
    Owned server db (w.answer s) where
  db := h.db
  supported := hsupported.trans h.supported
  role := by
    show if w.createdRole = true then _ else s.roles serviceRole = _
    rw [hroles]
    exact h.role
  otherRoles := fun id hid => (congrFun hroles id).trans (h.otherRoles id hid)
  user := by
    show if w.createdUser = true then _ else s.users serviceUser = _
    rw [husers]
    exact h.user
  otherUsers := fun id hid => (congrFun husers id).trans (h.otherUsers id hid)
  history := fun t ht => by
    rcases List.mem_cons.mp ht with rfl | ht
    · exact ⟨fun id p hid => (congrFun hroles id).trans (h.keeps.roles id p hid),
        fun id u hid => (congrFun husers id).trans (h.keeps.users id u hid)⟩
    · exact h.history t ht

/-- A call that changes nothing keeps the record right. -/
theorem Owned.look (h : Owned server db w) : Owned server db (w.answer w.server) :=
  h.answer rfl rfl rfl

/-- The role was not there where the bootstrap has created it, or still could. -/
theorem Owned.noRole (h : Owned server db w)
    (hrole : w.createdRole = true ∨ w.server.roles serviceRole = none) :
    server.roles serviceRole = none := by
  have hown := h.role
  split at hown
  · exact hown
  · next hflag => exact hown.symm.trans (hrole.resolve_left hflag)

/-- The same of the user. -/
theorem Owned.noUser (h : Owned server db w)
    (huser : w.createdUser = true ∨ w.server.users serviceUser = none) :
    server.users serviceUser = none := by
  have hown := h.user
  split at hown
  · exact hown
  · next hflag => exact hown.symm.trans (huser.resolve_left hflag)

/-- Where there was nothing, a change drops nothing. -/
theorem keeps_update {β : Type} {f g : String → Option β} {key : String} (hnone : f key = none)
    (v : Option β) (h : ∀ id b, f id = some b → g id = some b) (id : String) (b : β)
    (hb : f id = some b) : Function.update g key v id = some b := by
  have hid : id ≠ key := by
    rintro rfl
    rw [hnone] at hb
    cases hb
  rw [Function.update_of_ne hid]
  exact h id b hb

/-- The role is one that the bootstrap has just created. -/
theorem Owned.createRole (h : Owned server db w) (hnone : w.server.roles serviceRole = none)
    (privileges : Finset String) :
    Owned server db { w.answer { w.server with
      roles := Function.update w.server.roles serviceRole (some privileges) } with
        createdRole := true } where
  db := h.db
  supported := h.supported
  role := by
    rw [if_pos rfl]
    exact h.noRole (Or.inr hnone)
  otherRoles := fun id hid => (Function.update_of_ne hid _ _).trans (h.otherRoles id hid)
  user := h.user
  otherUsers := h.otherUsers
  history := fun t ht => by
    rcases List.mem_cons.mp ht with rfl | ht
    · exact ⟨keeps_update (h.noRole (Or.inr hnone)) _ h.keeps.roles, h.keeps.users⟩
    · exact h.history t ht

/-- The creation of a user that was not there is recorded. -/
theorem Owned.createUser (h : Owned server db w) (hnone : w.server.users serviceUser = none)
    (user : User) :
    Owned server db { w.answer { w.server with
      users := Function.update w.server.users serviceUser (some user) } with
        createdUser := true } where
  db := h.db
  supported := h.supported
  role := h.role
  otherRoles := h.otherRoles
  user := by
    rw [if_pos rfl]
    exact h.noUser (Or.inr hnone)
  otherUsers := fun id hid => (Function.update_of_ne hid _ _).trans (h.otherUsers id hid)
  history := fun t ht => by
    rcases List.mem_cons.mp ht with rfl | ht
    · exact ⟨h.keeps.roles, keeps_update (h.noUser (Or.inr hnone)) _ h.keeps.users⟩
    · exact h.history t ht

/-- The token is one of the user that the bootstrap has created. -/
theorem Owned.createToken (h : Owned server db w) (hflag : w.createdUser = true) (user : User) :
    Owned server db (w.answer { w.server with
      users := Function.update w.server.users serviceUser (some user) }) where
  db := h.db
  supported := h.supported
  role := h.role
  otherRoles := h.otherRoles
  user := by
    show if w.createdUser = true then _ else _
    rw [if_pos hflag]
    exact h.noUser (Or.inl hflag)
  otherUsers := fun id hid => (Function.update_of_ne hid _ _).trans (h.otherUsers id hid)
  history := fun t ht => by
    rcases List.mem_cons.mp ht with rfl | ht
    · exact ⟨h.keeps.roles, keeps_update (h.noUser (Or.inl hflag)) _ h.keeps.users⟩
    · exact h.history t ht

/-! ## The calls -/

section Calls

variable {env : Env}

/-- A call to the server may fail or change it, and is counted either way. -/
theorem ends_call {α : Type} {request : Server → Option (α × Server)} {ok : α → World → Prop}
    {raised : Exc → World → Prop} (hfail : ∀ e, raised e (w.answer w.server))
    (hok : ∀ a s, request w.server = some (a, s) → ok a (w.answer s)) :
    Ends (call env request) w ok raised := by
  unfold Ends call
  cases env.fault w.servers.length with
  | some e => exact hfail e
  | none =>
    cases hrequest : request w.server with
    | none => exact hfail .http
    | some answer => exact hok answer.1 answer.2 (by rw [hrequest])

/-- A check raises exactly under its condition. -/
theorem ends_raiseIf {p : Prop} [Decidable p] {e : Exc} {ok : Unit → World → Prop}
    {raised : Exc → World → Prop} (hraised : p → raised e w) (hok : ¬ p → ok () w) :
    Ends (raiseIf p e) w ok raised :=
  ends_ite hraised hok

/-- A pure computation returns or raises and leaves the world. -/
theorem ends_liftExcept {α : Type} {x : Except Exc α} {ok : α → World → Prop}
    {raised : Exc → World → Prop} (hraised : ∀ e, raised e w) (hok : ∀ a, ok a w) :
    Ends (liftExcept x) w ok raised := by
  cases x with
  | ok a => exact hok a
  | error e => exact hraised e

/-- The role is there, with the required privileges. -/
def RoleReady (w : World) : Prop :=
  w.server.roles serviceRole = some (requiredPrivileges w.server.supported)

/-- Nothing has been stored yet, and the role is ready. -/
structure Underway (server : Server) (db : Database) (w : World) : Prop where
  owned : Owned server db w
  ready : RoleReady w
  session : w.session = db

/-- After the first stage the role is ready, and whether it was created is recorded. -/
theorem ends_ensureServiceRole (h : Owned server db w) (hsession : w.session = db)
    (hflag : w.createdRole = false) (huser : w.createdUser = false) :
    Ends (ensureServiceRole env) w
      (fun created w' => Underway server db { w' with createdRole := created } ∧
        w'.createdUser = false)
      fun _ w' => Owned server db w' := by
  unfold ensureServiceRole
  rw [ends_bind]
  refine ends_call (fun _ => h.look) ?_
  rintro _ _ ⟨⟩
  rw [ends_bind]
  refine ends_call (fun _ => h.look.look) ?_
  rintro _ _ ⟨⟩
  rw [ends_bind]
  refine ends_raiseIf (fun _ => h.look.look) fun _ => ?_
  refine ends_ite (fun _ => ?_) fun hnew => ?_
  · rw [ends_bind]
    refine ends_call (fun _ => h.look.look.look) fun actual s hs => ?_
    obtain ⟨privileges, hprivileges, heq⟩ := Option.map_eq_some_iff.mp hs
    cases heq
    rw [ends_bind]
    refine ends_raiseIf (fun _ => h.look.look.look) fun hsame => ?_
    rw [ends_pure]
    have hready : actual = requiredPrivileges w.server.supported := not_not.mp hsame
    subst hready
    refine ⟨⟨?_, hprivileges, hsession⟩, huser⟩
    have hkept : Owned server db (((w.answer w.server).answer w.server).answer w.server) :=
      h.look.look.look
    exact { hkept with
      role := by
        have hrole := hkept.role
        have hold : (((w.answer w.server).answer w.server).answer w.server).createdRole = false :=
          hflag
        rw [hold] at hrole
        exact hrole }
  · rw [ends_bind]
    refine ends_call (fun _ => h.look.look.look) fun _ s hs => ?_
    obtain ⟨created, hcreated, heq⟩ := Option.map_eq_some_iff.mp hs
    cases heq
    rw [ends_pure]
    have hnone : w.server.roles serviceRole = none := by simpa using hnew
    have hserver : { w.server with
        roles := Function.update w.server.roles serviceRole
          (some (requiredPrivileges w.server.supported)) } = s := by
      have hc : w.server.createRole serviceRole (requiredPrivileges w.server.supported) =
          some s := hcreated
      unfold Server.createRole at hc
      rw [hnone] at hc
      exact Option.some.inj hc
    subst hserver
    have hready : Function.update w.server.roles serviceRole
        (some (requiredPrivileges w.server.supported)) serviceRole =
          some (requiredPrivileges w.server.supported) := Function.update_self _ _ _
    exact ⟨⟨h.look.look.createRole hnone _, hready, hsession⟩, huser⟩

/-- A call that leaves roles, users and privileges alone leaves the bootstrap where it is. -/
theorem Underway.answer (h : Underway server db w) {s : Server}
    (hroles : s.roles = w.server.roles) (husers : s.users = w.server.users)
    (hsupported : s.supported = w.server.supported) : Underway server db (w.answer s) where
  owned := h.owned.answer hroles husers hsupported
  ready := by
    show s.roles serviceRole = some (requiredPrivileges s.supported)
    rw [hroles, hsupported]
    exact h.ready
  session := h.session

/-- After the second stage the user is there, as a creation of the bootstrap. -/
theorem ends_createServiceUser (h : Underway server db w) :
    Ends (createServiceUser env) w
      (fun _ w' => Underway server db { w' with createdUser := true })
      fun _ w' => Owned server db w' := by
  unfold createServiceUser
  rw [ends_bind]
  refine ends_call (fun _ => h.owned.look) ?_
  rintro _ _ ⟨⟩
  rw [ends_bind]
  refine ends_raiseIf (fun _ => h.owned.look) fun hnew => ?_
  refine ends_call (fun _ => h.owned.look.look) fun _ s hs => ?_
  obtain ⟨created, hcreated, heq⟩ := Option.map_eq_some_iff.mp hs
  cases heq
  have hnone : w.server.users serviceUser = none := by simpa using hnew
  have hserver : { w.server with
      users := Function.update w.server.users serviceUser
        (some { enable := true, comment := "Managed by LabGoblin" }) } = s := by
    have hc : w.server.createUser serviceUser "Managed by LabGoblin" = some s := hcreated
    unfold Server.createUser at hc
    rw [hnone] at hc
    exact Option.some.inj hc
  subst hserver
  exact ⟨h.owned.look.createUser hnone _, h.ready, h.session⟩

/-- Granting the permission creates neither role nor user. -/
theorem ends_grantServiceAcl (h : Underway server db w) :
    Ends (grantServiceAcl env) w
      (fun _ w' => Underway server db w' ∧ w'.createdUser = w.createdUser)
      fun _ w' => Owned server db w' := by
  refine ends_call (fun _ => h.owned.look) ?_
  rintro _ _ ⟨⟩
  exact ⟨h.answer rfl rfl rfl, rfl⟩

/-- Creating the token changes only the user that the bootstrap has created. -/
theorem ends_createServiceToken (h : Underway server db w) (hflag : w.createdUser = true) :
    Ends (createServiceToken env) w (fun _ w' => Underway server db w')
      fun _ w' => Owned server db w' := by
  unfold createServiceToken
  rw [ends_bind]
  refine ends_call (fun _ => h.owned.look) fun _ s hs => ?_
  obtain ⟨created, hcreated, heq⟩ := Option.map_eq_some_iff.mp hs
  cases heq
  have hafter : Underway server db (w.answer s) := by
    unfold Server.createToken at hcreated
    split at hcreated
    · cases hcreated
    · cases hcreated
      exact ⟨h.owned.createToken hflag _, h.ready, h.session⟩
  rw [ends_bind]
  refine ends_liftExcept (fun _ => hafter.owned) fun secret => ?_
  rw [ends_bind]
  exact ends_raiseIf (fun _ => hafter.owned) fun _ => hafter

/-- The validation of the token changes nothing at the server. -/
theorem ends_validateWithToken (h : Underway server db w) :
    Ends (validateWithToken env) w (fun _ w' => Underway server db w')
      fun _ w' => Owned server db w' := by
  unfold validateWithToken
  rw [ends_bind]
  refine ends_call (fun _ => h.owned.look) ?_
  rintro _ _ ⟨⟩
  have hafter : Underway server db (w.answer w.server) := h.answer rfl rfl rfl
  rw [ends_bind]
  refine ends_liftExcept (fun _ => hafter.owned) fun probe => ?_
  cases probe with
  | none => exact hafter.owned
  | some resources => exact hafter

end Calls

/-! ## The database -/

/-- The role is ready, and one cluster more is stored, which is active if none was. -/
structure Stored (server : Server) (db : Database) (w : World) : Prop where
  ready : RoleReady w
  supported : w.server.supported = server.supported
  history : ∀ s ∈ w.servers, server.Keeps s
  keeps : server.Keeps w.server
  cluster : ∃ cluster, w.db.clusters.rows = db.clusters.rows ++ [cluster] ∧
    (cluster.isActive = true ↔ ∀ c ∈ db.clusters.rows, c.isActive = false)

section Database

variable {env : Env}

/-- What a transaction has in its session is not yet in the database. -/
theorem Owned.setSession (h : Owned server db w) (session : Database) :
    Owned server db { w with session := session } :=
  ⟨h.db, h.supported, h.role, h.otherRoles, h.user, h.otherUsers, h.history⟩

/-- A cluster is added behind the others. -/
theorem addCluster_rows {cluster : ProxmoxCluster} {db' : Database}
    (h : db.addCluster cluster = some db') :
    db'.clusters.rows = db.clusters.rows ++ [cluster] := by
  unfold Database.addCluster at h
  split at h
  · cases h
  · obtain ⟨clusters, hclusters, rfl⟩ := Option.map_eq_some_iff.mp h
    unfold Interactive.Table.insert? at hclusters
    split at hclusters
    · cases hclusters
      rfl
    · cases hclusters

/-- The new cluster is active exactly when no other one is. -/
theorem newCluster_isActive (arguments : Arguments) (secret : String) (db : Database) :
    (newCluster env arguments secret db).isActive = true ↔
      ∀ c ∈ db.clusters.rows, c.isActive = false := by
  simp [newCluster]

/-- Storing commits the cluster, or fails and leaves the database as it was. -/
theorem ends_store (arguments : Arguments) (secret : String) (resources : List Resource)
    (h : Underway server db w) :
    Ends (store env arguments secret resources) w (fun _ w' => Stored server db w')
      fun _ w' => Owned server db w' := by
  unfold store
  rw [ends_bind]
  refine ends_liftExcept (fun _ => h.owned) fun encrypted => ?_
  rw [ends_bind, ends_get, ends_bind]
  unfold flush
  rw [ends_bind]
  refine ends_raiseIf (fun _ => h.owned) fun _ => ?_
  rw [ends_bind, ends_get]
  cases hadd : w.session.addCluster (newCluster env arguments encrypted w.session) with
  | none => exact h.owned
  | some db' =>
    dsimp only
    rw [ends_modify, ends_bind, ends_modify, ends_bind, ends_modify, ends_bind]
    unfold commit
    rw [ends_bind, ends_get, ends_bind]
    refine ends_raiseIf (fun _ => h.owned.setSession _) fun _ => ?_
    have hrows := addCluster_rows hadd
    rw [h.session] at hrows
    exact ⟨h.ready, h.owned.supported, h.owned.history, h.owned.keeps,
      newCluster env arguments encrypted db, hrows, newCluster_isActive arguments encrypted db⟩

end Database

/-! ## The compensation -/

section Compensation

variable {env : Env}

/-- All stages together store the cluster, or fail with everything that was created on record. -/
theorem ends_attempt (arguments : Arguments) (h : Owned server db w) (hsession : w.session = db)
    (hrole : w.createdRole = false) (huser : w.createdUser = false) :
    Ends (attempt env arguments) w (fun _ w' => Stored server db w')
      fun _ w' => Owned server db w' := by
  unfold attempt
  rw [ends_bind]
  refine (ends_ensureServiceRole h hsession hrole huser).mono ?_ fun _ _ howned => howned
  rintro created w₁ ⟨h₁, huser₁⟩
  rw [ends_bind, ends_modify, ends_bind]
  refine (ends_createServiceUser h₁).mono ?_ fun _ _ howned => howned
  rintro _ w₂ h₂
  rw [ends_bind, ends_modify, ends_bind]
  refine (ends_grantServiceAcl h₂).mono ?_ fun _ _ howned => howned
  rintro _ w₃ ⟨h₃, huser₃⟩
  rw [ends_bind]
  refine (ends_createServiceToken h₃ huser₃).mono ?_ fun _ _ howned => howned
  rintro secret w₄ h₄
  rw [ends_bind]
  refine (ends_validateWithToken h₄).mono ?_ fun _ _ howned => howned
  rintro resources w₅ h₅
  rw [ends_bind]
  exact (ends_store arguments secret resources h₅).mono (fun _ _ hstored => hstored)
    fun _ _ howned => howned

/-- The roles, the users and the database are those from before, and none of the roles and users
was missing or changed at any time. -/
structure Restored (server : Server) (db : Database) (w : World) : Prop where
  db : w.db = db
  roles : w.server.roles = server.roles
  users : w.server.users = server.users
  history : ∀ s ∈ w.servers, server.Keeps s

/-- The deletion of the user restores the users. -/
theorem Owned.deleteUser (h : Owned server db w) (hflag : w.createdUser = true) :
    Owned server db { w.answer (w.server.deleteUser serviceUser) with createdUser := false } where
  db := h.db
  supported := h.supported
  role := h.role
  otherRoles := h.otherRoles
  user := by
    rw [if_neg Bool.false_ne_true, h.noUser (Or.inl hflag)]
    exact Function.update_self serviceUser none w.server.users
  otherUsers := fun id hid => (Function.update_of_ne hid _ _).trans (h.otherUsers id hid)
  history := fun t ht => by
    rcases List.mem_cons.mp ht with rfl | ht
    · exact ⟨h.keeps.roles, keeps_update (h.noUser (Or.inl hflag)) _ h.keeps.users⟩
    · exact h.history t ht

/-- The deletion of a role that was created is recorded. -/
theorem Owned.deleteRole (h : Owned server db w) (hflag : w.createdRole = true) :
    Owned server db { w.answer (w.server.deleteRole serviceRole) with createdRole := false } where
  db := h.db
  supported := h.supported
  role := by
    rw [if_neg Bool.false_ne_true, h.noRole (Or.inl hflag)]
    exact Function.update_self serviceRole none w.server.roles
  otherRoles := fun id hid => (Function.update_of_ne hid _ _).trans (h.otherRoles id hid)
  user := h.user
  otherUsers := h.otherUsers
  history := fun t ht => by
    rcases List.mem_cons.mp ht with rfl | ht
    · exact ⟨keeps_update (h.noRole (Or.inl hflag)) _ h.keeps.roles, h.keeps.users⟩
    · exact h.history t ht

/-- Nothing is left of what was created. -/
theorem Owned.restored (h : Owned server db w) (hrole : w.createdRole = false)
    (huser : w.createdUser = false) : Restored server db w where
  db := h.db
  roles := by
    funext id
    by_cases hid : id = serviceRole
    · have hown := h.role
      rw [hrole, if_neg (by decide)] at hown
      rw [hid, hown]
    · exact h.otherRoles id hid
  users := by
    funext id
    by_cases hid : id = serviceUser
    · have hown := h.user
      rw [huser, if_neg (by decide)] at hown
      rw [hid, hown]
    · exact h.otherUsers id hid
  history := h.history

/-- The compensation deletes what was created and raises the error again. -/
theorem ends_compensate {α : Type} (e : Exc) (h : Owned server db w)
    (huserDeleted : env.userDeleted = true) (hroleDeleted : env.roleDeleted = true) :
    Ends (compensate env e : M α) w (fun _ _ => False) fun _ w' => Restored server db w' := by
  have hback : Owned server db { w with session := w.db } := h.setSession w.db
  unfold compensate deleteServiceUser deleteServiceRole
  rw [ends_bind, ends_modify, ends_bind, ends_get, huserDeleted, hroleDeleted]
  simp only [if_true]
  cases huser : w.createdUser with
  | true =>
    have h₁ := hback.deleteUser huser
    simp only [if_true, ends_bind, ends_modify, ends_get]
    cases hrole : w.createdRole with
    | true =>
      have hrole₁ : { World.answer { w with session := w.db } (w.server.deleteUser serviceUser) with
        createdUser := false }.createdRole = true := hrole
      have hdone := (h₁.deleteRole hrole₁).restored rfl rfl
      exact ⟨hdone.db, hdone.roles, hdone.users, hdone.history⟩
    | false =>
      have hdone := h₁.restored hrole rfl
      exact ⟨hdone.db, hdone.roles, hdone.users, hdone.history⟩
  | false =>
    rw [if_neg Bool.false_ne_true, ends_bind, ends_get]
    cases hrole : w.createdRole with
    | true =>
      have hdone := (hback.deleteRole hrole).restored rfl huser
      exact ⟨hdone.db, hdone.roles, hdone.users, hdone.history⟩
    | false =>
      rw [if_neg Bool.false_ne_true, ends_throw]
      have hdone := hback.restored hrole huser
      exact ⟨hdone.db, hdone.roles, hdone.users, hdone.history⟩

-- The URL and the texts are not to be computed when a check meets its rule.
attribute [local irreducible] apiUrlOf strip in
/-- The arguments are checked without a trace. -/
theorem looks_checkArguments (payload : Dict) : Looks (checkArguments env payload) := by
  have hraise : ∀ (p : Prop) [Decidable p] (e : Exc), Looks (raiseIf p e : M Unit) :=
    fun p _ e => (looks_throw e).ite (looks_pure ())
  have hlift : ∀ {α : Type} (x : Except Exc α), Looks (liftExcept x : M α) := by
    intro α x
    cases x with
    | ok a => exact looks_pure a
    | error e => exact looks_throw e
  unfold checkArguments
  refine (hlift _).bind fun verifySsl => (hlift _).bind fun apiUrl => ?_
  refine (hraise _ _).bind fun _ => (hraise _ _).bind fun _ => (hraise _ _).bind fun _ => ?_
  exact (hraise _ _).bind fun _ => (hraise _ _).bind fun _ => looks_pure _

/-- A bootstrap that fails leaves the roles, the users and the database as they were, if its
deletions are carried out. One that succeeds has the role with the required privileges, and stores
one cluster more, which is active only if none was. Neither ever takes away or changes a role or a
user that was there before. -/
theorem bootstrap_exact (env : Env) (payload : Dict) (server : Server) (db : Database)
    (huserDeleted : env.userDeleted = true) (hroleDeleted : env.roleDeleted = true) :
    Ends (bootstrapWithRoot env payload) (.start server db) (fun _ w => Stored server db w)
      fun _ w => Restored server db w := by
  have hstart := Owned.start server db
  have hnothing : Restored server db (.start server db) := hstart.restored rfl rfl
  unfold bootstrapWithRoot
  rw [ends_bind]
  refine (looks_checkArguments payload _).mono ?_ ?_
  · rintro arguments _ rfl
    rw [ends_bind, ends_get, ends_bind]
    refine ends_raiseIf (fun _ => hnothing) fun _ => ?_
    rw [ends_bind]
    refine ends_call (fun _ => ?_) ?_
    · have hlook := hstart.look.restored rfl rfl
      exact ⟨hlook.db, hlook.roles, hlook.users, hlook.history⟩
    · rintro _ _ ⟨⟩
      rw [ends_bind, ends_modify, ends_tryCatch]
      refine (ends_attempt arguments (w := (World.start server db).answer server) hstart.look rfl
        rfl rfl).mono (fun _ _ hstored => hstored) fun e w howned => ?_
      exact (ends_compensate e howned huserDeleted hroleDeleted).mono
        (fun _ _ hfalse => hfalse.elim) fun _ _ hrestored => hrestored
  · rintro e _ rfl
    exact hnothing

end Compensation

namespace Fixture

/-- The server refuses to grant the permission, after the role and the user are created. -/
def env : Env where
  repr := fun _ => ""
  isprintable := fun _ => true
  url := { lower := List.map Char.toLower, nfkc := id, cookieParser := fun _ => [] }
  settings := {}
  encrypt := .ok
  now := 0
  fault := fun n => if n = 6 then some .http else none
  secret := .ok "secret"
  resources := .ok (some [])

def payload : Dict :=
  [("name", .text "Primary Proxmox"),
    ("api_url", .text "https://pve.example.test:8006/api2/json"),
    ("root_password", .text "root-secret")]

/-- A server that has neither the role nor the user. -/
def pve : Server where
  roles := fun _ => none
  users := fun id => if id = "root@pam" then some { enable := true, comment := "" } else none
  supported := servicePrivileges

def emptyDatabase : Database := ⟨.empty, [], []⟩

/-- The number of calls of a bootstrap that fails. -/
def failedAfter : EStateM.Result Exc World Result → Option ℕ
  | .ok _ _ => none
  | .error _ w => some w.servers.length

set_option maxRecDepth 100000 in
/-- Two deletions follow the seven calls. -/
theorem bootstrap_exact_acl :
    failedAfter (bootstrapWithRoot env payload (.start pve emptyDatabase)) = some 9 ∧
      Ends (bootstrapWithRoot env payload) (.start pve emptyDatabase)
        (fun _ w => Stored pve emptyDatabase w) fun _ w => Restored pve emptyDatabase w :=
  ⟨by decide +kernel, bootstrap_exact env payload pve emptyDatabase rfl rfl⟩

end Fixture

end LabGoblin.ProxmoxBootstrap
