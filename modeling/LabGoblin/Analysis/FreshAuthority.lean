import LabGoblin.Analysis.Execution
import LabGoblin.Analysis.Fixture
import LabGoblin.Analysis.Rules

/-!
# No change to a virtual machine without fresh authority

Every call of `execute_operation` that changes a VM is the next thing that happens after a
call of the validator that succeeded on the very state in which the call is made. The others
may change the database arbitrarily at every await; between two awaits they do not act,
because the statements in between follow one another without an `await`.

The argument is a contract whose only obligation is on mutating calls: the newest entry of
the log must be the validator's statement, on the current store.
-/

set_option autoImplicit false

namespace LabGoblin

open Interactive

/-- What the parties named by an operation still have when the validator accepts it. -/
structure Authority (db : Db) (now : Time) (row : DurableOperation) (vm : StudentVM) : Prop where
  organization : ∃ o, row.organizationId = some o ∧ vm.organizationId = o ∧
    (enabledOrganization db o).isSome
  actor : ∀ userId, row.requestedBy = some userId →
    ∃ user, (db.users.first fun u => u.id = userId && u.isActive) = some user ∧
      (getRoleName db user ≠ some .admin →
        ∃ m, getActiveMembership db user.id vm.organizationId = some m ∧
          (m.role = .instructor → teachesVm db user.id vm.organizationId vm.id = true) ∧
          (m.role = .student → vm.ownerId = user.id ∧
            ∃ access, activeAssignmentForVm db now user.id vm.organizationId vm.id = some access ∧
              labForbids access.2.2 row.operationType.access = none))

/-- An accepted student operation goes through an active assignment whose lab permits it. -/
theorem enforceStudentVmOperation_ok {db : Db} {now : Time} {userId organizationId vmId : ℕ}
    {operation : VmAccess} {access : LabAssignment × LabRun × Lab}
    (h : enforceStudentVmOperation db now userId organizationId vmId operation = .ok access) :
    activeAssignmentForVm db now userId organizationId vmId = some access ∧
      labForbids access.2.2 operation = none := by
  unfold enforceStudentVmOperation at h
  split at h
  · cases h
  · rename_i found hfound
    split at h
    · cases h
    · rename_i hlab
      cases h
      exact ⟨hfound, hlab⟩

/-- What the validator has checked about an actor who is not a platform administrator. -/
theorem validateActor_ok {db : Db} {now : Time} {row : DurableOperation} {organizationId : ℕ}
    {vm : StudentVM} {actor : User}
    (h : validateActor db now row organizationId vm actor = .ok ())
    (hadmin : getRoleName db actor ≠ some .admin) :
    ∃ m, getActiveMembership db actor.id organizationId = some m ∧
      (m.role = .instructor → teachesVm db actor.id organizationId vm.id = true) ∧
      (m.role = .student → vm.ownerId = actor.id ∧
        ∃ access, activeAssignmentForVm db now actor.id organizationId vm.id = some access ∧
          labForbids access.2.2 row.operationType.access = none) := by
  unfold validateActor at h
  rw [if_neg hadmin] at h
  split at h
  · cases h
  · rename_i m hm
    refine ⟨m, hm, ?_⟩
    cases hrole : m.role with
    | admin => simp
    | owner => simp
    | instructor =>
      simp only [hrole] at h
      refine ⟨fun _ => ?_, by simp⟩
      by_contra hteach
      rw [if_neg hteach] at h
      cases h
    | student =>
      simp only [hrole] at h
      refine ⟨by simp, fun _ => ?_⟩
      split at h
      · cases h
      · rename_i howner
        refine ⟨not_not.mp howner, ?_⟩
        split at h
        · rename_i access haccess
          exact ⟨access, enforceStudentVmOperation_ok haccess⟩
        · cases h
        · cases h

/-- The validator accepts only with a live organization, a live actor and live rights. -/
theorem validateOperationAuthorization_ok {db : Db} {now : Time} {row : DurableOperation}
    {vm : StudentVM} {payload : Payload}
    (h : validateOperationAuthorization db now row vm payload = .ok ()) :
    Authority db now row vm := by
  unfold validateOperationAuthorization at h
  split at h
  · cases h
  · rename_i o ho
    split at h
    · cases h
    · rename_i hscope
      have hscope : o = vm.organizationId := not_not.mp hscope
      subst hscope
      split at h
      · cases h
      · rename_i henabled
        refine ⟨⟨_, ho, rfl, Option.isSome_iff_ne_none.mpr (by simpa using henabled)⟩, ?_⟩
        intro userId huser
        simp only [huser] at h
        split at h
        · cases h
        · rename_i actor hactor
          exact ⟨actor, hactor, validateActor_ok h⟩

/-- Every mutating call in the log directly follows a validation that succeeded on the
store in which the call was made, of the operation's target, which the call addresses. -/
def FreshlyAuthorized (row : DurableOperation) (log : List Entry) : Prop :=
  ∀ p c s older, Entry.call p c s :: older <:+ log → c.mutating = true →
    ∃ vm payload rest, older = Entry.stmt p (.authorize row vm payload) s :: rest ∧
      row.target = .studentVm vm.id ∧ payload.Agrees row.payload ∧ c.Addresses vm ∧
      validateOperationAuthorization s.db s.clock row vm payload = .ok () ∧
      Authority s.db s.clock row vm

/-- Without entries nothing was submitted. -/
theorem freshlyAuthorized_nil (row : DurableOperation) : FreshlyAuthorized row [] := by
  intro p c s older h
  have := List.suffix_nil.mp h
  cases this

/-- An entry that is not a call adds no obligation. -/
theorem FreshlyAuthorized.cons {row : DurableOperation} {log : List Entry} {e : Entry}
    (h : FreshlyAuthorized row log) (he : ∀ p c s, e ≠ .call p c s) :
    FreshlyAuthorized row (e :: log) := by
  intro p c s older hs
  rcases List.suffix_cons_iff.mp hs with heq | hs
  · exact absurd (List.cons.inj heq).1.symm (he p c s)
  · exact h p c s older hs

/-! ## The contract of an execution -/

section Contract

variable {H : Type}

/-- The newest entry of the log is a successful validation on the current store. -/
def JustAuthorized (p : Pid) (row : DurableOperation) (c : Call) (t : Sys H) : Prop :=
  ∃ vm payload rest, t.log = Entry.stmt p (.authorize row vm payload) t.store :: rest ∧
    row.target = .studentVm vm.id ∧ payload.Agrees row.payload ∧ c.Addresses vm ∧
    validateOperationAuthorization t.store.db t.store.clock row vm payload = .ok ()

/-- Mutating calls are allowed right after a successful validation only. The others act at
awaits, as `interference` describes. -/
def freshContract (outside : Outside H) (interference : Sys H → Sys H → Prop) (p : Pid)
    (row : DurableOperation) : Contract Api (Sys H) where
  machine := (machine outside).yielding interference
  self := p
  inv := fun t => FreshlyAuthorized row t.log
  rely := Eq
  allowsStmt := fun _ _ => True
  allowsCall := fun c t => c.mutating = true → JustAuthorized p row c t

variable {outside : Outside H} {interference : Sys H → Sys H → Prop} {p : Pid}
  {row : DurableOperation}

/-- A program that submits nothing may go on anywhere. -/
theorem freshContract_tolerates :
    (freshContract outside interference p row).Tolerates (fun _ => True)
      (Commits fun _ => True) (fun c => c.mutating = false) where
  stable := fun _ _ _ _ _ => trivial
  stmt := fun _ _ _ _ _ _ => ⟨trivial, trivial⟩
  call := by
    intro c t hc _ _
    refine ⟨fun hm => ?_, fun _ _ _ => trivial⟩
    rw [hc] at hm
    cases hm

/-- A call that directly follows the validator is made with fresh authority. -/
theorem maintains_authorized {vm : StudentVM} (payload : Payload) (c : Call)
    (htarget : row.target = .studentVm vm.id) (hpayload : payload.Agrees row.payload)
    (hc : c.Addresses vm) :
    Maintains (freshContract outside interference p row) (fun _ => True) (fun _ => True)
      (do
        authorize row vm payload
        await c) := by
  intro t _
  rw [wp_bind, wp_authorize]
  intro t' _ _ _
  refine ⟨trivial, ?_⟩
  have hview : (freshContract outside interference p row).machine.view t' = t'.store := rfl
  rw [hview]
  cases hvalid : validateOperationAuthorization t'.store.db t'.store.clock row vm payload with
  | error e =>
    refine ⟨trivial, fun a ha => ?_⟩
    cases ha
  | ok u =>
    rw [Post.andThen_ok]
    unfold await
    rw [wp_await]
    intro t'' hrely _
    have hrely : (freshContract outside interference p row).machine.exec p
        (Stmt.authorize row vm payload) t' = t'' := hrely
    subst hrely
    refine ⟨fun _ => ⟨vm, payload, t'.log, rfl, htarget, hpayload, hc, hvalid⟩, ?_⟩
    intro r t'' _
    exact ⟨trivial, fun _ _ => trivial⟩

/-- Every submission of the execution is a call that directly follows the validator. -/
theorem freshContract_submissions (settings : Settings) (vm : StudentVM)
    (htarget : row.target = .studentVm vm.id) :
    Submissions (freshContract outside interference p row) (fun _ => True)
      ⟨settings, row, vm⟩ where
  clone := fun payload _ hp _ =>
    maintains_authorized payload _ htarget hp ⟨rfl, rfl, rfl, rfl⟩
  start := fun payload hp _ => maintains_authorized payload _ htarget hp ⟨rfl, rfl, rfl⟩
  power := fun payload _ hp _ => maintains_authorized payload _ htarget hp ⟨rfl, rfl, rfl⟩
  stop := fun payload hp _ => maintains_authorized payload _ htarget hp ⟨rfl, rfl, rfl⟩
  delete := fun payload hp _ => maintains_authorized payload _ htarget hp ⟨rfl, rfl, rfl⟩

/-- The whole execution keeps to the contract. -/
theorem freshContract_executeOperation (settings : Settings) :
    Maintains (freshContract outside interference p row) (fun _ => True) (fun _ => True)
      (executeOperation settings row) := by
  refine maintains_executeOperation (fun _ h => h) (fun _ _ _ _ => trivial)
    freshContract_tolerates (freshContract_submissions settings) ?_
  intro ws result now _
  refine Maintains.of_ensures freshContract_tolerates ?_
  exact (keeps_commit _ _).mpr ⟨fun _ _ => trivial, fun _ => trivial⟩

/-- Each interaction the contract allows keeps the log freshly authorized, when the others
do not forge entries of it. -/
theorem freshContract_maintained (hlog : ∀ t t', interference t t' → t'.log = t.log) :
    (freshContract outside interference p row).Maintained where
  refl := fun _ => rfl
  trans := fun _ _ _ => Eq.trans
  env := by
    intro t t' h heq
    subst heq
    exact h
  stmt := by
    intro q t h _ _
    refine FreshlyAuthorized.cons h ?_
    intro p' c s he
    cases he
  call := by
    intro c t r t' h hallowed hanswer
    obtain ⟨t₁, ⟨h₁, -, rfl⟩, hint⟩ := hanswer
    show FreshlyAuthorized row t'.log
    rw [hlog _ _ hint]
    refine FreshlyAuthorized.cons ?_ (by simp)
    intro p' c' s older hs hm
    rcases List.suffix_cons_iff.mp hs with heq | hs
    · injection heq with hcall holder
      injection hcall with hp hc hstore
      subst hp hc hstore holder
      obtain ⟨vm, payload, rest, hrest, htarget, hpayload, haddr, hvalid⟩ := hallowed hm
      exact ⟨vm, payload, rest, hrest, htarget, hpayload, haddr, hvalid,
        validateOperationAuthorization_ok hvalid⟩
    · exact h p' c' s older hs hm

end Contract

/-! ## The result -/

/-- However far an execution has come, whatever its calls were answered and whatever was
committed by others at its awaits, each of its mutating calls was made with fresh
authority. -/
theorem executeOperation_freshlyAuthorized {H : Type} (settings : Settings)
    (outside : Outside H) (interference : Sys H → Sys H → Prop)
    (hinterference : ∀ t t', interference t t' → t'.log = t.log) (p : Pid)
    (row : DurableOperation) (t t' : Sys H) (rest : Action Unit) (hstart : t.log = [])
    (hrun : Program.Runs ((machine outside).yielding interference) p Eq
      (executeOperation settings row, t) (rest, t')) :
    FreshlyAuthorized row t'.log := by
  have hexec : Maintains (freshContract outside interference p row) (fun _ => True)
      (fun _ => True) (executeOperation settings row) :=
    freshContract_executeOperation settings
  have hwp := hexec.safe (t := t) trivial
  have hinv : FreshlyAuthorized row t.log := by
    rw [hstart]
    exact freshlyAuthorized_nil row
  exact (wp_runs (freshContract_maintained hinterference) (fun _ _ _ _ _ => trivial) hinv hwp
    hrun).1

/-- What Proxmox answers when the client connects and the start is then cut off. -/
def cutOff : (c : Call) → Except Exc c.Reply
  | .client _ => .ok ()
  | _ => .error (.transport "connection lost")

set_option maxRecDepth 100000 in
/-- For instance, the start that an administrator queued is submitted with fresh authority. -/
theorem startOperation_freshlyAuthorized :
    ∃ s, Fixture.player.runProgram 0 cutOff 5
        (executeOperation {} (Fixture.operation (.power .start)),
          Fixture.start Fixture.readyStore) = some s ∧
      Fixture.mutations s.2.log = [.vmAction (some 1) .start "n" 200000] ∧
      FreshlyAuthorized (Fixture.operation (.power .start)) s.2.log := by
  have h : (Fixture.player.runProgram 0 cutOff 5
      (executeOperation {} (Fixture.operation (.power .start)),
        Fixture.start Fixture.readyStore)).map (fun s => Fixture.mutations s.2.log) =
      some [.vmAction (some 1) .start "n" 200000] := by
    decide +kernel
  obtain ⟨s, hs, hmutations⟩ := Option.map_eq_some_iff.mp h
  have hrun : Program.Runs (machine Fixture.anything) 0 Eq
      (executeOperation {} (Fixture.operation (.power .start)),
        Fixture.start Fixture.readyStore) s :=
    Fixture.player.runs_of_runProgram .refl hs
  refine ⟨s, hs, hmutations, ?_⟩
  exact executeOperation_freshlyAuthorized {} Fixture.anything Eq (fun _ _ h => h ▸ rfl) 0
    (Fixture.operation (.power .start)) _ s.2 s.1 rfl (hrun.yielding fun _ => rfl)

end LabGoblin
