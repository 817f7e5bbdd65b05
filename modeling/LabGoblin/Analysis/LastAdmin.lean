import LabGoblin.Analysis.AccountEffects
import LabGoblin.Model.AdminUsers

/-!
# The last active Admin

Every call of the user administration comes from an active Admin. One that concerns another
account leaves the caller's account as it is, so an active Admin remains. Only a call on the
caller's own account can deactivate it, or take the last Admin away. The guards against both look
for the literal `false` in the body, and the other values that deactivate an account pass them.
-/

set_option autoImplicit false

namespace LabGoblin.Accounts.AdminUsers

open Interactive

/-- The account of the user with an id is active. -/
def Active (s : State) (k : ℕ) : Prop :=
  ∃ u, s.users.get? k = some u ∧ u.isActive = true

/-- The user with an id is an active Admin. -/
def ActiveAdmin (s : State) (k : ℕ) : Prop :=
  ∃ u, s.users.get? k = some u ∧ u.isActive = true ∧ isAdmin s u = true

/-- Some user is an active Admin. -/
def Administered (s : State) : Prop := ∃ k, ActiveAdmin s k

/-- In every state of a run some user is an active Admin, and no request deactivates the account
of its caller. -/
structure KeepsAdmin (driver : Driver) (s : State) (requests : List Request) : Prop where
  administered : ∀ before, before <+: requests → Administered (serveAll driver s before)
  caller : ∀ before r, before ++ [r] <+: requests → Active (serveAll driver s before) r.caller →
    Active (serveAll driver s (before ++ [r])) r.caller

def Call.target : Call → ℕ
  | .patchAdminUser id _ => id
  | .activateUser id _ => id
  | .changeUserRole id _ => id
  | .deleteAdminUser id => id

/-- A value other than `false` that a `Boolean` column takes for false or null. -/
def zeroOrNull : Json → Bool
  | .null => true
  | .int n => n = 0
  | .float x => x = .finite 0
  | _ => false

/-- The body deactivates the account with a value of `is_active` that is not `false`. -/
def Call.slips : Call → Bool
  | .patchAdminUser _ payload => (payload.lookup "is_active").any zeroOrNull
  | .activateUser _ payload =>
    (payload.lookup "is_active").any fun value => !value.truthy && !value.isBool false
  | _ => false

/-- The request deactivates the caller's own account with a value that is not `false`. -/
def Request.OwnSlip (r : Request) : Prop := r.call.target = r.caller ∧ r.call.slips = true

/-! ## Activity and role of an account -/

/-- Whether the account of a user is active, and its role. -/
def standing (s : State) (k : ℕ) : Option (Bool × ℕ) :=
  (s.users.get? k).map fun u => (u.isActive, u.roleId)

def adminRole (s : State) (roleId : ℕ) : Bool :=
  s.roles.any fun role => role.id = roleId && role.name = "Admin"

/-- Whether an account is active shows in its standing. -/
theorem active_iff {s : State} {k : ℕ} : Active s k ↔ ∃ r, standing s k = some (true, r) := by
  unfold Active standing
  constructor
  · rintro ⟨u, hu, ha⟩
    refine ⟨u.roleId, ?_⟩
    rw [hu, Option.map_some, ha]
  · rintro ⟨r, hr⟩
    obtain ⟨u, hu, heq⟩ := Option.map_eq_some_iff.mp hr
    exact ⟨u, hu, congrArg Prod.fst heq⟩

/-- Whether a user is an active Admin shows in the standing and the table of roles. -/
theorem activeAdmin_iff {s : State} {k : ℕ} :
    ActiveAdmin s k ↔ ∃ r, standing s k = some (true, r) ∧ adminRole s r = true := by
  unfold ActiveAdmin standing
  constructor
  · rintro ⟨u, hu, ha, hadmin⟩
    refine ⟨u.roleId, ?_, hadmin⟩
    rw [hu, Option.map_some, ha]
  · rintro ⟨r, hr, hadmin⟩
    obtain ⟨u, hu, heq⟩ := Option.map_eq_some_iff.mp hr
    obtain ⟨ha, hrole⟩ := Prod.mk.inj heq
    refine ⟨u, hu, ha, ?_⟩
    rw [← hrole] at hadmin
    exact hadmin

/-- Only the user `k` is assigned to: the activity and the role, where they are given. -/
structure Assigned (k : ℕ) (active : Option Bool) (role : Option Role) (s t : State) : Prop where
  roles : t.roles = s.roles
  others : ∀ j, j ≠ k → standing t j = standing s j
  target : ∀ a r, standing s k = some (a, r) →
    standing t k = some (active.getD a, (role.map (·.id)).getD r)

variable {k : ℕ} {active : Option Bool} {role : Option Role} {s t : State}

/-- An update of one user assigns to that user only. -/
theorem assigned_updateUser (f : User → User) (hf : ∀ u, (f u).id = u.id)
    (hactive : ∀ u, (f u).isActive = active.getD u.isActive)
    (hrole : ∀ u, (f u).roleId = (role.map (·.id)).getD u.roleId) :
    Assigned k active role s (s.updateUser k f hf) where
  roles := rfl
  others := by
    intro j hj
    unfold standing State.updateUser
    rw [Table.get?_update_of_ne _ _ _ hj]
  target := by
    intro a r h
    obtain ⟨u, hu, heq⟩ := Option.map_eq_some_iff.mp h
    obtain ⟨ha, hr⟩ := Prod.mk.inj heq
    unfold standing State.updateUser
    rw [Table.get?_update, if_pos rfl, hu, Option.map_some, Option.map_some, hactive, hrole, ha,
      hr]

/-- A revocation of sessions changes the token version only. -/
theorem standing_withAllRevoked (s : State) (userId : ℕ) (reason : String) (j : ℕ) :
    standing (s.withAllRevoked userId reason) j = standing s j := by
  unfold standing State.withAllRevoked
  rw [Table.get?_update]
  split
  · cases s.users.get? j <;> rfl
  · rfl

/-- Revoking sessions assigns nothing. -/
theorem Assigned.withAllRevoked (h : Assigned k active role s t) (userId : ℕ) (reason : String) :
    Assigned k active role s (t.withAllRevoked userId reason) where
  roles := h.roles
  others := by
    intro j hj
    rw [standing_withAllRevoked, h.others j hj]
  target := by
    intro a r hk
    rw [standing_withAllRevoked, h.target a r hk]

/-- The role of an Admin stays the role of an Admin. -/
theorem Assigned.adminRole_eq (h : Assigned k active role s t) (r : ℕ) :
    adminRole t r = adminRole s r := by
  unfold adminRole
  rw [h.roles]

/-- Another active Admin stays one. -/
theorem Assigned.activeAdmin_of_ne (h : Assigned k active role s t) {j : ℕ} (hj : j ≠ k)
    (hadmin : ActiveAdmin s j) : ActiveAdmin t j := by
  obtain ⟨r, hr, hrole⟩ := activeAdmin_iff.mp hadmin
  rw [activeAdmin_iff]
  refine ⟨r, ?_, ?_⟩
  · rw [h.others j hj, hr]
  · rw [h.adminRole_eq, hrole]

/-! ## The guard of the last Admin -/

/-- Two active Admins are counted when a second one exists. -/
theorem exists_other {u : User} (hu : u ∈ s.users.rows)
    (h : 1 < (s.users.filter fun u => u.isActive && isAdmin s u).length) :
    ∃ j, j ≠ u.id ∧ ActiveAdmin s j := by
  by_contra hnone
  have hsame : ∀ v ∈ s.users.filter fun u => u.isActive && isAdmin s u, v = u := by
    intro v hv
    obtain ⟨hrow, hadmin⟩ := List.mem_filter.mp hv
    rw [Bool.and_eq_true] at hadmin
    by_contra hne
    refine hnone ⟨v.id, ?_, v, Table.get?_of_mem hrow, hadmin.1, hadmin.2⟩
    intro hid
    exact hne (s.users.eq_of_key_eq hrow hu hid)
  have hnodup : (s.users.filter fun u => u.isActive && isAdmin s u).Nodup :=
    (List.Nodup.of_map _ s.users.nodup).filter _
  have hle : _ ≤ [u].length :=
    List.Nodup.length_le_of_subset hnodup fun v hv => List.mem_singleton.mpr (hsame v hv)
  rw [List.length_singleton] at hle
  omega

/-- When the role is taken from the last active Admin, another role must not follow. -/
def RoleGuarded (s : State) (k : ℕ) (role : Option Role) : Prop :=
  ∀ r, role = some r → r ∈ s.roles ∧
    (r.name ≠ "Admin" → ActiveAdmin s k → ∃ j, j ≠ k ∧ ActiveAdmin s j)

/-- After a check its condition is known to fail. -/
theorem after_raiseIf {p : Prop} [Decidable p] {status : ℕ} {detail : String}
    {Q : Unit → State → Prop} (h : ¬ p → Q () s) : After (raiseIf p status detail) Q s := by
  unfold raiseIf
  refine after_ite (fun _ => after_throw _ _) fun hp => ?_
  rw [after_pure]
  exact h hp

/-- After unpacking a value, the value is known. -/
theorem after_orRaise {α : Type} {a : Option α} {status : ℕ} {detail : String}
    {Q : α → State → Prop} (h : ∀ x, a = some x → Q x s) :
    After (orRaise a status detail) Q s := by
  cases a with
  | none => exact after_throw _ _
  | some x =>
    unfold orRaise
    rw [after_pure]
    exact h x rfl

/-- After finding a user, the row is known. -/
theorem after_findUser {id : ℕ} {Q : User → State → Prop}
    (h : ∀ u, s.users.get? id = some u → Q u s) : After (findUser id) Q s := by
  unfold findUser
  rw [after_bind, after_get]
  exact after_orRaise h

/-- After finding a role, it is one of the table. -/
theorem after_roleOr422 {roleId : ℤ} {Q : Role → State → Prop} (h : ∀ r ∈ s.roles, Q r s) :
    After (AdminUsers.roleOr422 roleId) Q s := by
  unfold AdminUsers.roleOr422
  rw [after_bind, after_get]
  exact after_orRaise fun r hr => h r (List.mem_of_find?_eq_some hr)

/-- Reading a number leaves the state, whatever the number is. -/
theorem after_intOf {value : Json} {Q : ℤ → State → Prop} (h : ∀ n, Q n s) :
    After (intOf value) Q s := by
  unfold intOf
  cases value.toInt with
  | error e => exact after_throw _ _
  | ok n =>
    rw [after_pure]
    exact h n

/-- The guard lets the last active Admin keep the role and the activity only. -/
theorem after_protect {u : User} {deactivating : Bool} {role : Option Role}
    {Q : Unit → State → Prop} (hu : s.users.get? k = some u)
    (hmem : ∀ r, role = some r → r ∈ s.roles)
    (h : RoleGuarded s k role → Q () s) :
    After (protectLastPlatformAdmin u deactivating role) Q s := by
  unfold protectLastPlatformAdmin
  rw [after_bind, after_get]
  refine after_raiseIf fun hpass => h ?_
  rintro r rfl
  refine ⟨hmem r rfl, ?_⟩
  rintro hname ⟨v, hv, hactive, hadmin⟩
  have huv : u = v := Option.some.inj (hu.symm.trans hv)
  subst huv
  have hremoves : (some r).any (fun role => role.name ≠ "Admin") = true := decide_eq_true hname
  rw [hactive, hadmin, hremoves, Bool.or_true, Bool.and_true, Bool.and_true] at hpass
  have hmany : 1 < (s.users.filter fun u => u.isActive && isAdmin s u).length :=
    Nat.lt_of_not_le fun hle => hpass ⟨rfl, hle⟩
  rw [← Table.get?_key hv]
  exact exists_other (Table.mem_of_get? hv) hmany

/-! ## What each call does -/

/-- A call assigns to its target only, keeps a role guarded, and deactivates its caller exactly
by a slip. -/
def Alters (call : Call) (caller : ℕ) (s t : State) : Prop :=
  ∃ active role, Assigned call.target active role s t ∧ RoleGuarded s call.target role ∧
    (call.target = caller → (active = some false ↔ call.slips = true))

/-- A commit leaves the state. -/
theorem after_commit {Q : Unit → State → Prop} (h : Q () s) : After commit Q s := by
  refine (reads_commit s).mono fun _ t ht => ?_
  rw [← ht]
  exact h

/-- Sessions may be revoked before the commit. -/
theorem after_revoke_commit {p : Prop} [Decidable p] {userId : ℕ} {reason : String}
    {Q : Unit → State → Prop} (h : Q () s) (h' : Q () (s.withAllRevoked userId reason)) :
    After (do
      if p then revokeAllSessions userId reason
      commit) Q s := by
  refine after_ite (fun _ => ?_) fun _ => after_commit h
  unfold revokeAllSessions
  rw [after_bind, after_modify]
  exact after_commit h'

variable (driver : Driver) (actor : User) (id : ℕ) (payload : Dict)

/-- A deletion alters its target only, and refuses the caller's own account. -/
theorem alters_deleteAdminUser (s : State) :
    After (AdminUsers.deleteAdminUser actor id)
      (fun _ t => Alters (.deleteAdminUser id) actor.id s t) s := by
  unfold AdminUsers.deleteAdminUser
  rw [after_bind]
  refine after_raiseIf fun hne => ?_
  rw [after_bind]
  refine after_findUser fun u hu => ?_
  rw [after_bind]
  refine after_protect hu (fun r hr => by cases hr) fun hrole => ?_
  rw [after_bind, after_modify, after_bind]
  unfold revokeAllSessions
  rw [after_modify, Table.get?_key hu]
  refine after_commit ⟨some false, none, ?_, hrole, fun heq => absurd heq hne⟩
  exact (assigned_updateUser _ _ (fun _ => rfl) fun _ => rfl).withAllRevoked id _

/-- A change of role alters its target only, and guards the last active Admin. -/
theorem alters_changeUserRole (caller : ℕ) (s : State) :
    After (AdminUsers.changeUserRole id payload)
      (fun _ t => Alters (.changeUserRole id payload) caller s t) s := by
  unfold AdminUsers.changeUserRole
  rw [after_bind]
  refine after_findUser fun u hu => ?_
  rw [after_bind]
  refine after_raiseIf fun _ => ?_
  rw [after_bind]
  refine after_intOf fun n => ?_
  rw [after_bind]
  refine after_roleOr422 fun selectedRole hmem => ?_
  rw [after_bind]
  refine after_protect hu (fun r hr => Option.some.inj hr ▸ hmem) fun hrole => ?_
  rw [after_bind, after_modify, Table.get?_key hu]
  refine after_commit ⟨none, some selectedRole, ?_, hrole, ?_⟩
  · exact assigned_updateUser _ _ (fun _ => rfl) fun _ => rfl
  · intro _
    simp [Call.slips]

/-- The guard has refused the literal `false` on the caller's own account. -/
theorem isBool_of_not_own {value : Json} (hlookup : payload.lookup "is_active" = some value)
    (h : ¬ (id = actor.id ∧ deactivating payload = true)) (hown : id = actor.id) :
    value.isBool false = false := by
  have hget : payload.get "is_active" = value := by
    unfold Dict.get
    rw [hlookup, Option.getD_some]
  have hnot : ¬ deactivating payload = true := fun hd => h ⟨hown, hd⟩
  unfold deactivating at hnot
  rwa [hget, Bool.not_eq_true] at hnot

/-- Switching a user on or off alters its target only, and deactivates the caller exactly by a slip.
-/
theorem alters_activateUser (s : State) :
    After (AdminUsers.activateUser actor id payload)
      (fun _ t => Alters (.activateUser id payload) actor.id s t) s := by
  unfold AdminUsers.activateUser
  rw [after_bind]
  refine after_findUser fun u hu => ?_
  rw [after_bind]
  refine after_raiseIf fun hself => ?_
  rw [after_bind]
  refine after_protect hu (fun r hr => by cases hr) fun hrole => ?_
  rw [Table.get?_key hu] at hself ⊢
  rw [after_bind, after_modify]
  have hassigned : Assigned id (some (payload.get "is_active" (.bool true)).truthy) none s _ :=
    assigned_updateUser
    (fun u => { u with isActive := (payload.get "is_active" (.bool true)).truthy })
    (fun _ => rfl) (fun _ => rfl) fun _ => rfl
  have hslips : id = actor.id →
      (some (payload.get "is_active" (.bool true)).truthy = some false ↔
        (Call.activateUser id payload).slips = true) := by
    intro hown
    simp only [Call.slips, Dict.get]
    cases hlookup : payload.lookup "is_active" with
    | none => simp [Json.truthy]
    | some value =>
      have hliteral := isBool_of_not_own actor id payload hlookup hself hown
      simp [hliteral]
  refine after_revoke_commit ?_ ?_
  · exact ⟨_, none, hassigned, hrole, hslips⟩
  · exact ⟨_, none, hassigned.withAllRevoked _ _, hrole, hslips⟩

/-- A column takes a value for false or null when it is `false`, null or zero. -/
theorem booleanColumn_falsy {value : Json} {b : Option Bool} (h : booleanColumn value = .ok b) :
    b.getD false = false ↔ value.isBool false = true ∨ zeroOrNull value = true := by
  unfold booleanColumn at h
  cases value with
  | null =>
    have hb : b = none := by simpa [Json.same] using h.symm
    simp [hb, zeroOrNull]
  | bool c =>
    have hb : b = some c := by cases c <;> simpa [Json.same] using h.symm
    simp [hb, Json.isBool, zeroOrNull]
  | int n =>
    simp only [Json.same, Bool.false_eq_true, if_false, if_true, decide_eq_true_eq] at h
    by_cases hone : n = 1
    · rw [if_pos hone] at h
      cases h
      simp [hone, Json.isBool, zeroOrNull]
    · rw [if_neg hone] at h
      by_cases hzero : n = 0
      · rw [if_pos hzero] at h
        cases h
        simp [hzero, zeroOrNull]
      · rw [if_neg hzero] at h
        cases h
  | float x =>
    simp [Json.same, Json.number, Json.sameFloat] at h
    by_cases hone : x = .finite 1
    · rw [if_pos (by simp [hone])] at h
      cases h
      simp [hone, Json.isBool, zeroOrNull]
    · rw [if_neg (by simp [hone])] at h
      by_cases hzero : x = .finite 0
      · rw [if_pos (by simp [hzero])] at h
        cases h
        simp [hzero, zeroOrNull]
      · rw [if_neg (by simp [hzero])] at h
        cases h
  | text t => simp [Json.same] at h
  | list items => simp [Json.same] at h
  | object fields => simp [Json.same] at h

/-- The columns of a patch have the activity of the payload and the selected role. -/
theorem columns_eq_ok {selectedRole : Option Role} {patch : UserPatch}
    (h : columns driver payload selectedRole = .ok patch) :
    ifPresent payload "is_active" booleanColumn = .ok patch.isActive ∧
      patch.roleId = selectedRole.map (·.id) := by
  unfold columns at h
  obtain ⟨username, -, h⟩ := bind_eq_ok h
  obtain ⟨email, -, h⟩ := bind_eq_ok h
  obtain ⟨displayName, -, h⟩ := bind_eq_ok h
  obtain ⟨isActive, hactive, h⟩ := bind_eq_ok h
  obtain ⟨forcePasswordChange, -, h⟩ := bind_eq_ok h
  cases h
  exact ⟨hactive, rfl⟩

/-- On the caller's own account the column becomes false by a slip only. -/
theorem assigned_false_iff {isActive : Option (Option Bool)}
    (h : ifPresent payload "is_active" booleanColumn = .ok isActive)
    (hself : ¬ (id = actor.id ∧ deactivating payload = true)) (hown : id = actor.id) :
    isActive.map (·.getD false) = some false ↔
      (Call.patchAdminUser id payload).slips = true := by
  unfold ifPresent at h
  simp only [Call.slips]
  cases hlookup : payload.lookup "is_active" with
  | none =>
    rw [hlookup] at h
    cases h
    simp
  | some value =>
    simp only [hlookup] at h
    have hliteral := isBool_of_not_own actor id payload hlookup hself hown
    cases hcolumn : booleanColumn value with
    | error e =>
      rw [hcolumn] at h
      cases h
    | ok b =>
      rw [hcolumn] at h
      cases h
      have hfalsy := booleanColumn_falsy hcolumn
      rw [hliteral] at hfalsy
      simpa using hfalsy

/-- The role that a patch selects is one of the table. -/
theorem after_selectedRole (s : State) :
    After ((payload.lookup "role_id").mapM fun value => do AdminUsers.roleOr422 (← intOf value))
      (fun role t => t = s ∧ ∀ r, role = some r → r ∈ s.roles) s := by
  cases payload.lookup "role_id" with
  | none =>
    refine (after_pure _ _).mpr ⟨rfl, fun r hr => ?_⟩
    cases hr
  | some value =>
    show After ((intOf value >>= AdminUsers.roleOr422) >>= fun role => pure (some role)) _ s
    rw [after_bind, after_bind]
    refine after_intOf fun n => after_roleOr422 fun r hr => ?_
    rw [after_pure]
    exact ⟨rfl, fun r' hr' => Option.some.inj hr' ▸ hr⟩

/-- A patch alters its target only, and deactivates the caller exactly by a slip. -/
theorem alters_patchAdminUser (s : State) :
    After (AdminUsers.patchAdminUser driver actor id payload)
      (fun _ t => Alters (.patchAdminUser id payload) actor.id s t) s := by
  unfold AdminUsers.patchAdminUser
  rw [after_bind]
  refine after_findUser fun u hu => ?_
  rw [after_bind]
  refine after_raiseIf fun hself => ?_
  rw [after_bind]
  refine (after_selectedRole payload s).mono ?_
  rintro selectedRole t ⟨hst, hmem⟩
  subst hst
  rw [after_bind]
  refine after_protect hu hmem fun hrole => ?_
  rw [Table.get?_key hu] at hself ⊢
  cases hcolumns : columns driver payload selectedRole with
  | error e => exact after_throw _ _
  | ok patch =>
    obtain ⟨hactive, hid⟩ := columns_eq_ok driver payload hcolumns
    have hslips := assigned_false_iff actor id payload hactive hself
    have hassigned : Assigned id (patch.isActive.map (·.getD false)) selectedRole t _ :=
      assigned_updateUser patch.apply (fun _ => rfl) (fun _ => rfl)
      fun u => by rw [← hid]; rfl
    dsimp only
    rw [after_bind, after_modify]
    refine after_revoke_commit ?_ ?_
    · exact ⟨_, _, hassigned, hrole, hslips⟩
    · exact ⟨_, _, hassigned.withAllRevoked _ _, hrole, hslips⟩

/-- Every call alters its target only, guards the last active Admin, and deactivates its caller
exactly by a slip. -/
theorem alters_call (call : Call) (s : State) :
    After (call.run driver actor) (fun _ t => Alters call actor.id s t) s := by
  cases call with
  | patchAdminUser id payload => exact alters_patchAdminUser driver actor id payload s
  | activateUser id payload => exact alters_activateUser actor id payload s
  | changeUserRole id payload => exact alters_changeUserRole id payload actor.id s
  | deleteAdminUser id => exact alters_deleteAdminUser actor id s

/-! ## Requests -/

/-- A request that returns comes from an active Admin and does what its call does. -/
theorem alters_request (r : Request) (s : State) :
    After (r.run driver) (fun _ t => ActiveAdmin s r.caller ∧ Alters r.call r.caller s t) s := by
  unfold Request.run requireActiveAdmin
  rw [after_bind, after_bind, after_get, after_bind]
  refine after_orRaise fun actor hactor => ?_
  rw [after_bind]
  refine after_raiseIf fun hactive => ?_
  rw [after_bind, after_get, after_bind]
  refine after_raiseIf fun hadmin => ?_
  rw [after_pure]
  rw [Bool.not_eq_false] at hactive hadmin
  rw [← Table.get?_key hactor]
  refine (alters_call driver actor r.call s).mono fun _ t ht => ⟨?_, ht⟩
  exact ⟨actor, Table.get?_of_mem (Table.mem_of_get? hactor), hactive, hadmin⟩

/-- A call of an active Admin deactivates the caller's account exactly by a slip on it. -/
theorem Alters.active_iff {call : Call} {caller : ℕ} (h : Alters call caller s t)
    (hcaller : ActiveAdmin s caller) :
    Active t caller ↔ ¬ (call.target = caller ∧ call.slips = true) := by
  obtain ⟨active, role, hassigned, -, hslips⟩ := h
  obtain ⟨r, hr, -⟩ := activeAdmin_iff.mp hcaller
  rw [AdminUsers.active_iff]
  by_cases hown : call.target = caller
  · subst hown
    have htarget := hassigned.target true r hr
    rw [htarget]
    constructor
    · rintro ⟨r', hr'⟩ ⟨-, hslip⟩
      rw [(hslips rfl).mpr hslip] at hr'
      cases hr'
    · intro hno
      have hnot : active ≠ some false := fun hfalse => hno ⟨rfl, (hslips rfl).mp hfalse⟩
      refine ⟨(role.map (·.id)).getD r, ?_⟩
      cases active with
      | none => rfl
      | some b =>
        cases b with
        | false => exact absurd rfl hnot
        | true => rfl
  · refine ⟨fun _ h' => hown h'.1, fun _ => ⟨r, ?_⟩⟩
    rw [hassigned.others caller (Ne.symm hown), hr]

/-- When the caller's account stays active, an active Admin remains. -/
theorem Alters.administered {call : Call} {caller : ℕ} (h : Alters call caller s t)
    (hcaller : ActiveAdmin s caller) (hactive : Active t caller) : Administered t := by
  obtain ⟨active, role, hassigned, hrole, -⟩ := h
  by_cases hown : call.target = caller
  · subst hown
    obtain ⟨r, hr, hadmin⟩ := activeAdmin_iff.mp hcaller
    obtain ⟨r', hr'⟩ := AdminUsers.active_iff.mp hactive
    have htarget := hassigned.target true r hr
    rw [hr'] at htarget
    obtain ⟨-, hr'role⟩ := Prod.mk.inj (Option.some.inj htarget)
    -- a role that is not Admin was given only when another active Admin exists
    cases role with
    | none =>
      refine ⟨call.target, activeAdmin_iff.mpr ⟨r', hr', ?_⟩⟩
      rw [hassigned.adminRole_eq, hr'role]
      exact hadmin
    | some selectedRole =>
      obtain ⟨hmem, hother⟩ := hrole selectedRole rfl
      by_cases hname : selectedRole.name = "Admin"
      · refine ⟨call.target, activeAdmin_iff.mpr ⟨r', hr', ?_⟩⟩
        rw [hassigned.adminRole_eq, hr'role]
        refine List.any_eq_true.mpr ⟨selectedRole, hmem, ?_⟩
        simp [hname]
      · obtain ⟨j, hj, hjadmin⟩ := hother hname hcaller
        exact ⟨j, hassigned.activeAdmin_of_ne hj hjadmin⟩
  · exact ⟨caller, hassigned.activeAdmin_of_ne (Ne.symm hown) hcaller⟩

/-- A request is refused and changes nothing, or its caller is an active Admin and it alters its
target. -/
theorem serve_cases (s : State) (r : Request) :
    serve driver s r = s ∨
      ActiveAdmin s r.caller ∧ Alters r.call r.caller s (serve driver s r) := by
  unfold serve
  cases hrun : (r.run driver).run s with
  | error e => exact .inl rfl
  | ok result => exact .inr (alters_request driver r s result.1 result.2 hrun)

/-- A request without a slip leaves an active Admin, and its caller active. -/
theorem serve_keeps {r : Request} (hslip : ¬ r.OwnSlip) (h : Administered s) :
    Administered (serve driver s r) ∧
      (Active s r.caller → Active (serve driver s r) r.caller) := by
  rcases serve_cases driver s r with heq | ⟨hcaller, halters⟩
  · rw [heq]
    exact ⟨h, id⟩
  · have hactive := (halters.active_iff hcaller).mpr hslip
    exact ⟨halters.administered hcaller hactive, fun _ => hactive⟩

/-- Requests without slips leave an active Admin, by induction on them. -/
theorem administered_serveAll (requests : List Request) (hslip : ∀ r ∈ requests, ¬ r.OwnSlip)
    (h : Administered s) : Administered (serveAll driver s requests) := by
  induction requests generalizing s with
  | nil => exact h
  | cons r rest ih =>
    have hfirst := (serve_keeps driver (hslip r List.mem_cons_self) h).1
    exact ih (fun r' hr' => hslip r' (List.mem_cons_of_mem _ hr')) hfirst

/-- The platform keeps an active Admin, and every caller an active account, in every run in which
no request deactivates the caller's own account with a value that is not `false`. -/
theorem keepsAdmin (driver : Driver) (s : State) (h : Administered s) (requests : List Request)
    (hslip : ∀ r ∈ requests, ¬ r.OwnSlip) : KeepsAdmin driver s requests where
  administered := by
    intro before hbefore
    have hslip' : ∀ r ∈ before, ¬ r.OwnSlip := fun r hr => hslip r (hbefore.subset hr)
    exact administered_serveAll driver before hslip' h
  caller := by
    intro before r hbefore hactive
    have hslip' : ∀ r' ∈ before ++ [r], ¬ r'.OwnSlip := fun r' hr => hslip r' (hbefore.subset hr)
    have hadmin := administered_serveAll driver before
      (fun r' hr => hslip' r' (List.mem_append_left _ hr)) h
    have hlast : serveAll driver s (before ++ [r]) = serve driver (serveAll driver s before) r :=
      List.foldl_append
    rw [hlast]
    exact (serve_keeps driver (hslip' r (by simp)) hadmin).2 hactive

namespace Fixture

/-- Text columns that take texts only. -/
def textDriver : Driver where
  text _ value :=
    match value with
    | .text s => some s
    | _ => none

def root : User := ⟨1, "root", "root@lab", "", 1, true, false, 1⟩

/-- One user, who is an active Admin. -/
def oneAdmin : State where
  users := ⟨[root], 2, by decide, by decide⟩
  sessions := .empty
  attempts := []
  roles := [⟨1, "Admin"⟩, ⟨2, "Student"⟩]
  clock := 0
  history := []

/-- The fixture has an active Admin. -/
theorem administered_oneAdmin : Administered oneAdmin := ⟨1, root, rfl, rfl, rfl⟩

/-- The only Admin activates the own account with null. -/
def nullActivate : Request := ⟨1, .activateUser 1 [("is_active", .null)]⟩

/-- The only Admin tries to deactivate, to delete and to demote the own account, and stays. -/
theorem keepsAdmin_oneAdmin :
    KeepsAdmin textDriver oneAdmin
      [⟨1, .activateUser 1 [("is_active", .bool false)]⟩, ⟨1, .deleteAdminUser 1⟩,
        ⟨1, .changeUserRole 1 [("role_id", .int 2)]⟩] := by
  refine keepsAdmin textDriver oneAdmin administered_oneAdmin _ fun r hr => ?_
  simp only [List.mem_cons, List.not_mem_nil, or_false] at hr
  rcases hr with rfl | rfl | rfl <;> exact fun h => absurd h.2 (by decide)

/-- The null passes both guards, and leaves no active account. -/
theorem not_keepsAdmin :
    Administered oneAdmin ∧ ¬ KeepsAdmin textDriver oneAdmin [nullActivate] := by
  refine ⟨administered_oneAdmin, fun hkeeps => ?_⟩
  obtain ⟨k, u, hu, hactive, -⟩ := hkeeps.administered [nullActivate] (List.prefix_refl _)
  have hnone : ∀ u ∈ (serveAll textDriver oneAdmin [nullActivate]).users.rows,
      u.isActive = false := by
    decide
  have hinactive := hnone u (Table.mem_of_get? hu)
  rw [hinactive] at hactive
  cases hactive

end Fixture

end LabGoblin.Accounts.AdminUsers
