import LabGoblin.Analysis.TenancyRevisions
import LabGoblin.Analysis.TenancyRuns

/-!
# Tenancy with the catalogue at work

The endpoints of the catalogue next to the deployed system. Most of their changes belong together
wherever they are made. A lab that is created or given another pool refers to what its request has
read before, perhaps long before: the class or the pool may be gone by then, but nothing of another
organization has taken its place.
-/

set_option autoImplicit false

namespace LabGoblin.Catalogue

open Interactive

/-! ## Endpoints that write no labs -/

section Aside

variable {α β : Type}

/-- The change inserts no lab and updates none. -/
def CatalogueChange.free : CatalogueChange → Bool
  | .insertLab _ _ => false
  | .updateLab _ _ => false
  | _ => true

def CatalogueStmt.Free (q : CatalogueStmt) : Prop := ∀ c, q = .commit (some c) → c.free = true

/-- A change that inserts and updates no lab belongs wherever it is made. -/
theorem CatalogueStmt.Free.belongs {H : Type} {q : CatalogueStmt} (h : q.Free) (t : Sys H) :
    q.Belongs t := by
  intro c hc
  have hfree := h c hc
  cases c with
  | insertLab organizationId payload => cases hfree
  | updateLab id patch => cases hfree
  | _ => trivial

/-- The program commits only changes that insert no lab and update none. -/
def Aside (prog : Action α) : Prop :=
  prog.Ensures (G := CatalogueApi) CatalogueStmt.Free (fun _ => True) (fun _ => True)

/-- Two programs that write no labs write none in sequence. -/
theorem Aside.bind {prog : Action α} {f : α → Action β} (h : Aside prog) (hf : ∀ a, Aside (f a)) :
    Aside (prog >>= f) :=
  (Program.ensures_bind prog f).mpr
    (Program.Ensures.mono h (fun _ h => h) (fun _ h => h) fun a _ => hf a)

/-- A return commits nothing. -/
theorem aside_pure (a : α) : Aside (pure a) := trivial

/-- A query commits nothing. -/
theorem aside_select : Aside select := by
  refine ⟨?_, fun _ => trivial⟩
  intro c hc
  cases hc

/-- A check commits nothing. -/
theorem aside_check (x : Except Exc α) : Aside (check x) := by
  cases x with
  | error e => exact trivial
  | ok a => exact trivial

/-- A failure commits nothing. -/
theorem aside_fail (e : Exc) : Aside (fail e : Action α) := trivial

/-- A check that raises commits nothing. -/
theorem aside_raiseIf (condition : Prop) [Decidable condition] (e : Exc) :
    Aside (raiseIf condition e) := by
  unfold raiseIf
  split
  · exact aside_fail e
  · exact aside_pure ()

/-- Unpacking a value, or raising, commits nothing. -/
theorem aside_orRaise (x : Option α) (e : Exc) : Aside (orRaise x e) := by
  cases x with
  | none => exact aside_fail e
  | some a => exact aside_pure a

/-- Asking for the configuration of a pool commits nothing. -/
theorem aside_poolConfig (pool : ℕ) :
    Aside (Program.await (G := CatalogueApi) (.poolConfig pool)) :=
  (Program.ensures_await _ _).mpr ⟨trivial, fun _ => trivial⟩

/-- A commit writes no lab when its change does not. -/
theorem aside_commit {c : Option CatalogueChange} (h : ∀ c' ∈ c, c'.free = true) :
    Aside (commit c) := by
  unfold commit
  refine (Program.ensures_bind _ _).mpr ⟨?_, ?_⟩
  · intro c' hc'
    cases hc'
    exact h c' rfl
  · intro s
    show Aside _
    split
    · exact aside_fail _
    · exact aside_pure ()

/-- A commit of the columns that were found changed. -/
theorem aside_commit_changed [DecidableEq α] {row row' : α} {c : CatalogueChange}
    (h : c.free = true) : Aside (commit (changed row row' c)) := by
  refine aside_commit ?_
  intro c' hc'
  unfold changed at hc'
  split at hc'
  · cases hc'
  · cases hc'
    exact h

/-- A commit of one change writes no lab when the change does not. -/
theorem aside_commit_some {c : CatalogueChange} (h : c.free = true) : Aside (commit (some c)) :=
  aside_commit fun c' hc' => by
    cases hc'
    exact h

-- The checks of a payload are not to be computed when a program meets its rule.
attribute [local irreducible] Aside

variable (caller : Caller) (organization : OrganizationContext) (user : User) (id userId : ℕ)

/-- The check for an instructor commits nothing. -/
theorem aside_currentInstructor : Aside (currentInstructor caller) :=
  aside_select.bind fun _ => (aside_check _).bind fun _ => (aside_check _).bind fun _ =>
    (aside_check _).bind fun _ => aside_pure _

/-- Finding a class commits nothing. -/
theorem aside_classOr404 : Aside (classOr404 id organization user) :=
  aside_select.bind fun _ => aside_check _

/-- The check of a new instructor commits nothing. -/
theorem aside_validateInstructor : Aside (validateInstructor id userId) :=
  aside_select.bind fun _ => aside_raiseIf _ _

/-- Finding a lab that the caller manages commits nothing. -/
theorem aside_managedLab : Aside (managedLab id organization user) :=
  aside_select.bind fun _ => (aside_orRaise _ _).bind fun _ =>
    (aside_classOr404 organization user _).bind fun _ => aside_pure _

/-- Finding a pool that the caller manages commits nothing. -/
theorem aside_managedPool : Aside (managedPool id organization) :=
  aside_select.bind fun _ => aside_orRaise _ _

/-- The creation of a class writes no lab. -/
theorem aside_createClass (payload : ClassCreate) : Aside (createClass caller payload) := by
  unfold createClass
  refine (aside_currentInstructor caller).bind ?_
  rintro ⟨user, organization⟩
  refine (aside_raiseIf _ _).bind fun _ => ?_
  split
  · split
    · exact (aside_validateInstructor _ _).bind fun _ => aside_commit_some rfl
    · exact (aside_pure ()).bind fun _ => aside_commit_some rfl
  · exact (aside_raiseIf _ _).bind fun _ => aside_commit_some rfl

/-- A patch of a class writes no lab. -/
theorem aside_patchClass (payload : ClassPatch) : Aside (patchClass caller id payload) := by
  unfold patchClass
  refine (aside_currentInstructor caller).bind ?_
  rintro ⟨user, organization⟩
  refine (aside_classOr404 organization user id).bind fun row => ?_
  split
  · exact (aside_pure ()).bind fun _ => aside_commit_changed rfl
  · exact (aside_raiseIf _ _).bind fun _ => (aside_validateInstructor _ _).bind fun _ =>
      aside_commit_changed rfl

/-- The deletion of a class takes its labs away and writes none. -/
theorem aside_deleteClass : Aside (deleteClass caller id) := by
  unfold deleteClass
  refine (aside_currentInstructor caller).bind ?_
  rintro ⟨user, organization⟩
  refine (aside_classOr404 organization user id).bind fun row => ?_
  refine aside_select.bind fun _ => (aside_raiseIf _ _).bind fun _ => ?_
  exact aside_select.bind fun _ => (aside_raiseIf _ _).bind fun _ => aside_commit_some rfl

/-- An enrollment writes no lab. -/
theorem aside_addEnrollment (role : Option EnrollmentRole) :
    Aside (addEnrollment caller id userId role) := by
  unfold addEnrollment
  refine (aside_currentInstructor caller).bind ?_
  rintro ⟨user, organization⟩
  refine (aside_classOr404 organization user id).bind fun _ => ?_
  refine aside_select.bind fun _ => (aside_raiseIf _ _).bind fun _ => ?_
  refine aside_select.bind fun _ => ?_
  split
  · exact aside_pure ()
  · exact aside_commit_some rfl

/-- The end of an enrollment writes no lab. -/
theorem aside_removeEnrollment : Aside (removeEnrollment caller id userId) := by
  unfold removeEnrollment
  refine (aside_currentInstructor caller).bind ?_
  rintro ⟨user, organization⟩
  refine (aside_classOr404 organization user id).bind fun _ => ?_
  exact aside_select.bind fun _ => (aside_orRaise _ _).bind fun _ => aside_commit_some rfl

/-- The deletion of a lab takes it away and writes none. -/
theorem aside_deleteLab : Aside (deleteLab caller id) := by
  unfold deleteLab
  refine (aside_currentInstructor caller).bind ?_
  rintro ⟨user, organization⟩
  refine (aside_managedLab organization user id).bind fun _ => ?_
  exact aside_select.bind fun _ => (aside_raiseIf _ _).bind fun _ => aside_commit_some rfl

/-- The creation of a pool writes no lab. -/
theorem aside_createPool (payload : PoolCreate) : Aside (createPool caller payload) := by
  unfold createPool
  refine (aside_currentInstructor caller).bind ?_
  rintro ⟨user, organization⟩
  refine (aside_check _).bind fun _ => ?_
  split
  · exact aside_commit_some rfl
  · exact aside_select.bind fun _ => (aside_orRaise _ _).bind fun _ => aside_commit_some rfl

/-- A patch of a pool writes no lab. -/
theorem aside_patchPool (payload : PoolPatch) : Aside (patchPool caller id payload) := by
  unfold patchPool
  refine (aside_currentInstructor caller).bind ?_
  rintro ⟨user, organization⟩
  refine (aside_managedPool organization id).bind fun row => ?_
  refine (aside_poolConfig row.id).bind fun config => ?_
  exact (aside_raiseIf _ _).bind fun _ => aside_commit_changed rfl

/-- Switching a pool on or off is a patch of it. -/
theorem aside_patchPoolSwitch (payload : PoolPatch) :
    Aside (patchPoolSwitch caller id payload) := by
  unfold patchPoolSwitch
  refine (aside_currentInstructor caller).bind ?_
  rintro ⟨user, organization⟩
  exact (aside_managedPool organization id).bind fun row => aside_commit_changed rfl

/-- The deletion of a pool writes no lab. -/
theorem aside_deletePool (force : Bool) : Aside (deletePool caller id force) := by
  have hattached : ∀ organizationId template, Aside (attachedVms organizationId template) := by
    intro organizationId template
    cases template with
    | none => exact aside_pure _
    | some template => exact aside_select.bind fun _ => aside_pure _
  unfold deletePool
  refine (aside_currentInstructor caller).bind ?_
  rintro ⟨user, organization⟩
  refine (aside_managedPool organization id).bind fun row => ?_
  refine aside_select.bind fun s => (hattached _ _).bind fun attached => ?_
  exact (aside_raiseIf _ _).bind fun _ => aside_commit_some rfl

/-- The creation of a template writes no lab. -/
theorem aside_createTemplate (payload : TemplateCreateRequest) :
    Aside (createTemplate caller payload) := by
  unfold createTemplate
  refine (aside_currentInstructor caller).bind ?_
  rintro ⟨user, organization⟩
  exact aside_commit_some rfl

/-- A patch of a template writes no lab. -/
theorem aside_patchTemplate (payload : TemplateUpdateRequest) :
    Aside (patchTemplate caller id payload) := by
  unfold patchTemplate
  refine (aside_currentInstructor caller).bind ?_
  rintro ⟨user, organization⟩
  exact aside_select.bind fun _ => (aside_orRaise _ _).bind fun _ => aside_commit_changed rfl

end Aside

/-! ## What an endpoint assumes and guarantees -/

section Guarded

variable {H : Type} {c : Pid} {t : Sys H} {α β : Type}

/-- An endpoint assumes tenancy and that what was held goes on being held, and commits only what
belongs together. -/
def guard : Guard CatalogueApi (Sys H) where
  inv := Tenanted
  rely := Extends
  allowsStmt := CatalogueStmt.Belongs
  allowsCall := fun _ _ => True

/-- A part of a request that writes no lab, and the rest of it. -/
theorem wp_aside_bind {prog : Action α} {f : α → Action β} (hprog : Aside prog)
    (hf : ∀ a t', Extends t t' → wp (guard.contract clients c) (f a) (fun _ _ => True) t') :
    wp (guard.contract clients c) (prog >>= f) (fun _ _ => True) t := by
  have htolerates : (guard.contract (clients (H := H)) c).Tolerates (Extends t)
      CatalogueStmt.Free (fun _ => True) := by
    refine ⟨fun t₁ t₂ h hr _ => h.trans hr, ?_, ?_⟩
    · intro q t₁ hq ht₁ h _
      have hbelongs : q.Belongs t₁ := hq.belongs t₁
      exact ⟨hbelongs, h.trans (revises_exec ht₁ hbelongs).extends⟩
    · rintro call t₁ - - h
      refine ⟨trivial, ?_⟩
      rintro reply t₂ rfl
      exact h
  exact (Maintains.of_ensures htolerates hprog).seq (fun a t' _ h => hf a t' h)
    (fun _ _ _ => trivial) (.refl t)

/-- A request that writes no lab keeps to what the endpoints guarantee. -/
theorem wp_aside {prog : Action Unit} (hprog : Aside prog) :
    wp (guard.contract clients c) prog (fun _ _ => True) t := by
  have hsafe : wp (guard.contract clients c) (prog >>= pure) (fun _ _ => True) t :=
    wp_aside_bind hprog fun _ _ _ => trivial
  rwa [bind_pure] at hsafe

/-- A query, and the rest of the request. -/
theorem wp_select_bind {f : Store → Action β}
    (hf : ∀ t', Extends t t' → Tenanted t' →
      wp (guard.contract clients c) (f t'.store) (fun _ _ => True) t') :
    wp (guard.contract clients c) (select >>= f) (fun _ _ => True) t := by
  unfold select
  rw [wp_run_bind]
  intro t' hr ht' _
  refine ⟨?_, hf t' hr ht'⟩
  intro c' hc'
  cases hc'

/-- A commit of a change that belongs together. -/
theorem wp_commit {change : Option CatalogueChange}
    (h : CatalogueStmt.Belongs (.commit change) t) :
    wp (guard.contract clients c) (commit change) (fun _ _ => True) t := by
  unfold commit
  rw [wp_run_bind]
  intro t' hr ht' _
  refine ⟨?_, ?_⟩
  · intro c' hc'
    exact (h c' hc').extends hr
  · split
    · trivial
    · trivial

/-! ## Labs -/

variable {caller : Caller}

/-- The pool was held for the organization when the query found it. -/
theorem wp_poolOfOrganization_bind {poolId : ℕ} {organization : OrganizationContext}
    {f : Unit → Action β}
    (hf : ∀ t', Extends t t' → HeldPool t' poolId organization.id →
      wp (guard.contract clients c) (f ()) (fun _ _ => True) t') :
    wp (guard.contract clients c) (poolOfOrganization poolId organization >>= f)
      (fun _ _ => True) t := by
  unfold poolOfOrganization
  rw [bind_assoc]
  refine wp_select_bind ?_
  intro t' ht hinv
  unfold raiseIf
  split
  · trivial
  · next hfound =>
    obtain ⟨row, hrow⟩ := Option.ne_none_iff_exists'.mp hfound
    obtain ⟨hmem, hcond⟩ := Table.first_some hrow
    simp only [Bool.and_eq_true, decide_eq_true_eq] at hcond
    obtain ⟨hid, horg⟩ := hcond
    refine hf t' ht ?_
    rw [← hid, ← horg]
    exact hinv.heldPool (Table.get?_of_mem hmem)

/-- The lab was held for the organization when the query found it. -/
theorem wp_managedLab_bind {id : ℕ} {organization : OrganizationContext} {user : User}
    {f : Lab → Action β}
    (hf : ∀ row t', Extends t t' → HeldLab t' row.id organization.id →
      wp (guard.contract clients c) (f row) (fun _ _ => True) t') :
    wp (guard.contract clients c) (managedLab id organization user >>= f) (fun _ _ => True) t := by
  unfold managedLab
  rw [bind_assoc]
  refine wp_select_bind ?_
  intro t' ht hinv
  rw [bind_assoc]
  cases hfound : labInOrganization t'.store.db id organization.id with
  | none => trivial
  | some row =>
    obtain ⟨hmem, hcond⟩ := Table.first_some hfound
    simp only [Bool.and_eq_true, decide_eq_true_eq] at hcond
    have hheld : HeldLab t' row.id organization.id := by
      rw [← hcond.2]
      exact hinv.heldLab (Table.get?_of_mem hmem)
    show wp _ ((classOr404 row.classId organization user >>= fun _ => pure row) >>= f) _ _
    rw [bind_assoc]
    refine wp_aside_bind (aside_classOr404 organization user _) ?_
    intro _ t'' ht'
    rw [pure_bind]
    exact hf row t'' (ht.trans ht') (ht'.heldLab hheld)

/-- The creation of a lab keeps to it: its class and its pool were held for the organization when
they were read. -/
theorem wp_createLab {payload : LabCreate} :
    wp (guard.contract clients c) (createLab caller payload) (fun _ _ => True) t := by
  unfold createLab
  refine wp_aside_bind (aside_currentInstructor caller) ?_
  rintro ⟨user, organization⟩ t₁ -
  refine wp_aside_bind (aside_raiseIf _ _) ?_
  rintro - t₂ -
  refine wp_select_bind ?_
  intro t₃ _ ht₃
  split
  · trivial
  · next row hclass =>
    obtain ⟨hrow, -, horg⟩ := classOr404_org hclass
    have hheld : HeldClass t₃ payload.classId organization.id := by
      rw [← horg]
      exact ht₃.heldClass hrow
    refine wp_poolOfOrganization_bind ?_
    intro t₄ ht₄ hpool
    refine wp_commit ?_
    rintro change ⟨⟩
    exact ⟨ht₄.heldClass hheld, hpool⟩

/-- A patch of a lab keeps to it: the pool was held for the organization of the lab when it was
read. -/
theorem wp_patchLab {id : ℕ} {payload : LabPatch} :
    wp (guard.contract clients c) (patchLab caller id payload) (fun _ _ => True) t := by
  unfold patchLab
  refine wp_aside_bind (aside_currentInstructor caller) ?_
  rintro ⟨user, organization⟩ t₁ -
  refine wp_managedLab_bind ?_
  intro row t₂ _ hlab
  refine wp_aside_bind (aside_raiseIf _ _) ?_
  intro _ t₃ ht₃
  have hlab := ht₃.heldLab hlab
  -- The pool is written only where the payload names one, which was looked up.
  have hcommit : ∀ t' : Sys H, HeldLab t' row.id organization.id →
      (∀ poolId, payload.defaultPoolId = some poolId → HeldPool t' poolId organization.id) →
      CatalogueStmt.Belongs (.commit (changed row (payload.onRow row)
        (.updateLab row.id (payload.changing row)))) t' := by
    intro t' hlab' hpool change hchange
    injection hchange with hchange
    unfold changed at hchange
    split at hchange
    · cases hchange
    · cases hchange
      intro poolId hchanging
      exact ⟨organization.id, hlab', hpool poolId (Option.filter_eq_some_iff.mp hchanging).1⟩
  split
  · next hnone =>
    refine wp_commit (hcommit t₃ hlab ?_)
    intro poolId hpool
    rw [hnone] at hpool
    cases hpool
  · next poolId hsome =>
    refine wp_poolOfOrganization_bind ?_
    intro t₄ ht₄ hpool
    refine wp_commit (hcommit t₄ (ht₄.heldLab hlab) ?_)
    intro poolId' hpool'
    rw [hsome] at hpool'
    cases hpool'
    exact hpool

/-- Every endpoint keeps to what it guarantees. -/
theorem wp_program (r : Caller × CatalogueRequest) :
    wp (guard.contract clients c) (program r.1 r.2) (fun _ _ => True) t := by
  obtain ⟨caller, r⟩ := r
  cases r with
  | createClass payload => exact wp_aside (aside_createClass caller payload)
  | patchClass id payload => exact wp_aside (aside_patchClass caller id payload)
  | deleteClass id => exact wp_aside (aside_deleteClass caller id)
  | addEnrollment id userId role => exact wp_aside (aside_addEnrollment caller id userId role)
  | removeEnrollment id userId => exact wp_aside (aside_removeEnrollment caller id userId)
  | createLab payload => exact wp_createLab
  | patchLab id payload => exact wp_patchLab
  | deleteLab id => exact wp_aside (aside_deleteLab caller id)
  | createPool payload => exact wp_aside (aside_createPool caller payload)
  | patchPool id payload => exact wp_aside (aside_patchPool caller id payload)
  | patchPoolEnabled id enabled => exact wp_aside (aside_patchPoolSwitch caller id _)
  | patchPoolMaintenance id maintenanceMode => exact wp_aside (aside_patchPoolSwitch caller id _)
  | deletePool id force => exact wp_aside (aside_deletePool caller id force)
  | createTemplate payload => exact wp_aside (aside_createTemplate caller payload)
  | patchTemplate id payload => exact wp_aside (aside_patchTemplate caller id payload)

end Guarded

/-! ## Runs of both -/

section Runs

variable {H : Type} {settings : Settings} {outside : Outside H}

/-- To the deployed system an endpoint of the catalogue is the rest of the application. -/
theorem environment_of_does {t t' : Sys H} (h : clients.Does t t') :
    (system settings outside).env t t' := by
  cases h with
  | stmt c q _ => exact ⟨environment_exec q t.store, rfl⟩
  | call c a r _ hanswer =>
    cases hanswer
    exact ⟨environment_exec .select t.store, rfl⟩

/-- What holds of every run of the deployed system holds with the catalogue at work. -/
theorem reach_system {j j' : Joint Api CatalogueApi (Sys H)}
    (h : Joint.Reach (system settings outside) clients j j') :
    World.Reach (system settings outside) j.world j'.world :=
  Joint.reach_world (fun _ _ hdoes => environment_of_does hdoes) h

/-- The system and the endpoints of the catalogue keep to what they expect of each other. -/
theorem guard_sound (settings : Settings) (outside : Outside H) :
    guard.Sound ((system settings outside).confine Bystander) clients
      (InTenancy settings outside) where
  refl := Extends.refl
  trans := fun _ _ _ => Extends.trans
  inv := fun _ hw => hw.tenanted
  system := by
    intro w w' hw hs
    have htenable : ∀ t t', (system settings outside).env t t' → Bystander t t' → Tenable t t' :=
      fun t t' henv h => h.tenable henv.1 henv.2
    exact hw.step (World.Step.confine_mono htenable hs)
  stmt := by
    intro c q w hw _ hq
    have henv : (system settings outside).env w.shared (machine.exec c q w.shared) :=
      environment_of_does (.stmt c q trivial)
    have hrevises : Revises w.shared (machine.exec c q w.shared) :=
      revises_exec hw.tenanted hq
    exact hw.step (.env w _ ⟨henv, fun ht => ⟨hrevises.tenanted ht, hrevises.extends⟩⟩)
  call := by
    rintro c a w r t' hw - ⟨⟩
    exact ⟨hw, .refl _⟩
  program := fun c r t _ => wp_program r

/-- Every run of the deployed system and of any number of requests of the catalogue, whatever the
order of their statements, keeps every row within the organization of the rows that it refers
to. -/
theorem tenancy_kept {start : Sys H} (hstart : start.Initial) (hdb : start.store.db.Tenancy)
    {j : Joint Api CatalogueApi (Sys H)}
    (h : Joint.Reach ((system settings outside).confine Bystander) clients (Joint.idle start) j) :
    j.world.shared.store.db.Tenancy := by
  have hidle : guard.Holds clients (InTenancy settings outside) (Joint.idle start) :=
    Guard.holds_idle (.idle hstart hdb)
  exact ((guard_sound settings outside).holds_of_reach hidle h).1.tenanted.tenancy

end Runs

/-! ## A lab that is created -/

namespace Fixture

open LabGoblin.Fixture

/-- In the store of the fixture everything belongs together. -/
theorem readyStore_tenancy : readyStore.db.Tenancy where
  labClass := by
    intro l hl
    cases List.mem_singleton.mp hl
    exact ⟨_, rfl, rfl⟩
  labPool := by
    intro l hl
    cases List.mem_singleton.mp hl
    refine ⟨by decide, ?_⟩
    rintro q ⟨⟩
    rfl
  runLab := by
    intro r hr
    cases List.mem_singleton.mp hr
    exact ⟨_, rfl, rfl⟩
  assignmentRun := by
    intro a ha
    cases List.mem_singleton.mp ha
    exact ⟨_, rfl, rfl⟩
  assignmentTemplate := by
    intro a ha
    cases List.mem_singleton.mp ha
    exact ⟨_, rfl, rfl⟩
  assignmentVm := by
    intro a ha v hv
    cases List.mem_singleton.mp ha
    cases hv
    exact ⟨_, rfl, rfl, rfl⟩
  vmTemplate := by
    intro v hv
    cases List.mem_singleton.mp hv
    exact ⟨_, rfl, rfl⟩
  operationVm := by
    intro o ho
    cases ho

/-- The next statement of an endpoint. -/
def turn (u : Action Unit × Sys Unit) : Action Unit × Sys Unit :=
  match u.1 with
  | .stmt q k => (k u.2.store, { u.2 with store := exec q u.2.store })
  | _ => u

def turns (u : Action Unit × Sys Unit) : ℕ → Action Unit × Sys Unit
  | 0 => u
  | n + 1 => turn (turns u n)

/-- An endpoint makes its statements, and nothing else happens. -/
theorem reach_turns {sys : System Api (Sys Unit) Request} (t : Sys Unit)
    (r : Caller × CatalogueRequest) (n : ℕ) :
    Joint.Reach sys clients (Joint.idle t) ((Joint.idle t).put 0
      (some (turns (program r.1 r.2, t) n).1) (turns (program r.1 r.2, t) n).2) := by
  induction n with
  | zero => exact .single (.connect _ 0 r rfl)
  | succ n ih =>
    show Joint.Reach sys clients _ ((Joint.idle t).put 0
      (some (turn (turns (program r.1 r.2, t) n)).1) (turn (turns (program r.1 r.2, t) n)).2)
    generalize turns (program r.1 r.2, t) n = u at ih ⊢
    obtain ⟨prog, t'⟩ := u
    cases prog with
    | stmt q k => exact Joint.Reach.client ih (.stmt q k t' trivial)
    | pure a => exact ih
    | throw e => exact ih
    | call a k => exact ih

/-- The instructor creates a second lab in the class. -/
def secondLab : Caller × CatalogueRequest :=
  (⟨3, some 1⟩, .createLab ⟨1, "m", none, none, none, 1, ⟨true, true, true, true, true⟩⟩)

/-- The instructor of the fixture creates a second lab, and everything still belongs together. -/
theorem tenancy_kept_createLab :
    ((turns (program secondLab.1 secondLab.2, start readyStore) 4).2.store.db.labs.get? 2).isSome =
        true ∧
      (turns (program secondLab.1 secondLab.2, start readyStore) 4).2.store.db.Tenancy :=
  ⟨by decide +kernel, @tenancy_kept Unit {} anything (start readyStore) ⟨rfl, rfl⟩
    readyStore_tenancy _ (reach_turns (start readyStore) secondLab 4)⟩

end Fixture

end LabGoblin.Catalogue
