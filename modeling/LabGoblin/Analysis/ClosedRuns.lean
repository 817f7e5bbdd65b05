import LabGoblin.Analysis.LockConduct
import LabGoblin.Analysis.FreshAuthority
import LabGoblin.Analysis.Revocation

/-!
# Closed runs

A run that has ended or was cancelled stays as it is. The transitions and the setup editor look at
its state under the lock on its row, so neither of them writes a closed run, and whatever becomes
of its assignments, every access path ends at the state of the run.
-/

set_option autoImplicit false

namespace LabGoblin

open Interactive

/-- The run is there in the state, which is one of the closed ones. -/
structure Db.ClosedIn (db : Db) (i : ℕ) (state : RunState) : Prop where
  row : ∃ run, db.labRuns.get? i = some run ∧ run.state = state
  closed : state.closed = true

/-! ## The access paths -/

section Access

variable {db : Db} {i : ℕ} {state : RunState} {now : Time}

/-- A closed run is not open. -/
theorem runEffectivelyOpen_closed {run : LabRun} (h : run.state.closed = true) :
    runEffectivelyOpen run now = false := by
  unfold runEffectivelyOpen
  cases hstate : run.state <;> rw [hstate] at h <;> simp_all [RunState.closed]

/-- No assignment of a closed run is effectively open, whatever its status and expiry are. -/
theorem Db.ClosedIn.not_open (h : db.ClosedIn i state) {a : LabAssignment} {organizationId : ℕ}
    {run : LabRun} (hrun : runInOrganization db a.labRunId organizationId = some run)
    (hopen : assignmentEffectivelyOpen a run now = true) : a.labRunId ≠ i := by
  rintro rfl
  obtain ⟨row, hrow, hstate⟩ := h.row
  obtain ⟨hmem, hid⟩ := Table.first_some hrun
  simp only [Bool.and_eq_true, decide_eq_true_eq] at hid
  rw [← hid.1, Table.get?_of_mem hmem] at hrow
  cases hrow
  have hclosed : runEffectivelyOpen run now = false := by
    refine runEffectivelyOpen_closed ?_
    rw [hstate]
    exact h.closed
  unfold assignmentEffectivelyOpen at hopen
  rw [hclosed, Bool.and_false] at hopen
  cases hopen

/-- No assignment of a closed run gives access to a VM. -/
theorem Db.ClosedIn.activeAssignment (h : db.ClosedIn i state) {userId organizationId vm : ℕ}
    {access : LabAssignment × LabRun × Lab}
    (haccess : activeAssignmentForVm db now userId organizationId vm = some access) :
    access.1.labRunId ≠ i := by
  obtain ⟨-, -, -, -, hrun, hopen⟩ := activeAssignmentForVm_some haccess
  exact h.not_open hrun hopen

/-- No operation of a student is admitted through a closed run. -/
theorem Db.ClosedIn.enforced (h : db.ClosedIn i state) {userId organizationId vm : ℕ}
    {operation : VmAccess} {access : LabAssignment × LabRun × Lab}
    (haccess : enforceStudentVmOperation db now userId organizationId vm operation = .ok access) :
    access.1.labRunId ≠ i :=
  h.activeAssignment (enforceStudentVmOperation_ok haccess).1

/-- A run stays closed when the rows are the same. -/
theorem Db.ClosedIn.sameRows {db' : Db} (h : db.ClosedIn i state) (hsame : db.SameRows db') :
    db'.ClosedIn i state := by
  obtain ⟨run, hrun, hstate⟩ := h.row
  refine ⟨⟨run, ?_, hstate⟩, h.closed⟩
  unfold Table.get? at hrun ⊢
  rwa [hsame.labRuns]

/-- The run stays closed between two states. -/
def LeavesClosed (i : ℕ) (state : RunState) (s s' : Store) : Prop :=
  s.db.ClosedIn i state → s'.db.ClosedIn i state

/-- `assignment_for_provisioning` accepts no assignment of a run that stays closed while it
runs. -/
theorem reads_assignmentForProvisioning_closed {s : Store} (hs : s.db.ClosedIn i state)
    (assignmentId : Option ℕ) (userId organizationId templateId : ℕ) :
    Reads (LeavesClosed i state) (fun a _ => a.labRunId ≠ i)
      (assignmentForProvisioning assignmentId userId organizationId templateId) s := by
  unfold assignmentForProvisioning
  simp only [reads_bind, reads_orRaise, reads_run, reads_select, reads_check]
  intro id _
  refine ⟨trivial, ?_⟩
  intro s₁ hs₁ assignment _ s₂ hs₂ run hrun s₃ _ lab _ a ha
  have hclosed : s₂.db.ClosedIn i state := hs₂ (hs₁ hs)
  obtain ⟨hrun, hopen⟩ := Option.filter_eq_some_iff.mp hrun
  have hassignment : a = assignment := by
    unfold provisionable at ha
    split at ha
    · cases ha
    · split at ha
      · cases ha
      · cases ha
        rfl
  rw [hassignment]
  exact hclosed.not_open hrun hopen

/-- The contract of a process that only reads while a run stays closed. -/
def closedContract {H : Type} (outside : Outside H) (i : ℕ) (state : RunState) (p : Pid) :
    Contract Api (Sys H) where
  machine := machine outside
  self := p
  inv := fun _ => True
  rely := fun t t' => LeavesClosed i state t.store t'.store
  allowsStmt := fun q _ => q.reads
  allowsCall := fun _ _ => True

/-- What the processes rely on about a closed run holds from step to step. -/
theorem closedContract_maintained {H : Type} (outside : Outside H) (i : ℕ) (state : RunState)
    (p : Pid) : (closedContract outside i state p).Maintained where
  refl := fun _ h => h
  trans := fun _ _ _ h h' hs => h' (h hs)
  env := fun _ _ _ _ => trivial
  stmt := fun _ _ _ _ _ => trivial
  call := fun _ _ _ _ _ _ _ => trivial

/-- A program that reads may go on while a run stays closed. -/
theorem closedContract_tolerates {H : Type} (outside : Outside H) (i : ℕ) (state : RunState)
    (p : Pid) (s : Store) :
    (closedContract outside i state p).Tolerates
      (fun t => True ∧ LeavesClosed i state s t.store) Stmt.reads (fun _ => True) where
  stable := fun t t' h hr _ => ⟨trivial, fun hs => hr (h.2 hs)⟩
  stmt := by
    intro q t hq _ h _
    refine ⟨hq, trivial, fun hs => ?_⟩
    rcases Store.exec_cases p q t.store with ⟨ws, db, rfl, -⟩ | ⟨-, -, hsame⟩
    · exact hq.elim
    · exact (h.2 hs).sameRows hsame
  call := by
    rintro c t _ _ h
    refine ⟨trivial, ?_⟩
    rintro r t' ⟨hyper, -, rfl⟩
    exact h

/-- However it is interleaved, `assignment_for_provisioning` returns no assignment of a run that
stays closed. -/
theorem provisioned_elsewhere {H : Type} (outside : Outside H) (p : Pid) {t t' : Sys H}
    (ht : t.store.db.ClosedIn i state) {assignmentId : Option ℕ}
    {userId organizationId templateId : ℕ} {a : LabAssignment}
    (hruns : Program.Runs (machine outside) p
      (fun t t' => LeavesClosed i state t.store t'.store)
      (assignmentForProvisioning assignmentId userId organizationId templateId, t)
      (pure a, t')) : a.labRunId ≠ i := by
  have hreads := reads_assignmentForProvisioning_closed ht assignmentId userId organizationId
    templateId
  have hwp : wp (closedContract outside i state p)
      (assignmentForProvisioning assignmentId userId organizationId templateId)
      (fun r _ => ∀ a, r = .ok a → a.labRunId ≠ i) t := by
    refine wp_mono (wp_of_ensuresAlong (C := closedContract outside i state p)
      (J := fun _ => True) (fun _ h => h) (closedContract_tolerates outside i state p) hreads
      ⟨trivial, fun h => h⟩) ?_
    rintro r t' ⟨-, h⟩ a ha
    obtain ⟨_, -, hrun⟩ := h a ha
    exact hrun
  have hend := (wp_runs (closedContract_maintained outside i state p)
    (fun _ _ _ _ h => h) trivial hwp hruns).2
  exact hend a rfl

/-- The requester, unless he is gone, is a student of the organization. -/
def RequestedByStudent (db : Db) (row : DurableOperation) (vm : StudentVM) : Prop :=
  ∃ userId, row.requestedBy = some userId ∧
    ∀ user, (db.users.first fun u => u.id = userId && u.isActive) = some user →
      getRoleName db user ≠ some .admin ∧
        ∀ m, getActiveMembership db user.id vm.organizationId = some m → m.role = .student

/-- The VM is linked by assignments of the run only. -/
def LinkedOnlyThrough (db : Db) (i : ℕ) (vm : StudentVM) : Prop :=
  ∀ a ∈ db.labAssignments.rows, a.studentVmId = some vm.id → a.labRunId = i

/-- The validator lets no operation through that a student requested on a VM of the run. -/
theorem Db.ClosedIn.unauthorized (h : db.ClosedIn i state) {row : DurableOperation}
    {vm : StudentVM} {payload : Payload}
    (hvalid : validateOperationAuthorization db now row vm payload = .ok ()) :
    ¬ (RequestedByStudent db row vm ∧ LinkedOnlyThrough db i vm) := by
  rintro ⟨⟨userId, huser, hstudent⟩, hlinked⟩
  obtain ⟨user, hactive, hmember⟩ := (validateOperationAuthorization_ok hvalid).actor userId huser
  obtain ⟨hadmin, hrole⟩ := hstudent user hactive
  obtain ⟨m, hm, -, haccess⟩ := hmember hadmin
  obtain ⟨-, access, hactive, -⟩ := haccess (hrole m hm)
  obtain ⟨hmem, -, -, hvm, -, -⟩ := activeAssignmentForVm_some hactive
  exact h.activeAssignment hactive (hlinked access.1 hmem hvm)

end Access

/-! ## Commits -/

section Commits

variable {H : Type} {settings : Settings} {outside : Outside H} {ok : Condition H} {p : Pid}
  {ws : List Write} {t : Sys H} {db : { db : Db // db.Constraints }} {i : ℕ} {state : RunState}

/-- No transition leaves a closed state. -/
theorem runTransition_closed {s next : RunState} {action : RunAction}
    (h : runTransition s action = some next) : s.closed = false := by
  cases s with
  | ended => cases action <;> cases h
  | cancelled => cases action <;> cases h
  | _ => rfl

/-- No commit writes a run that is closed when it takes effect. -/
theorem LockedStmt.leavesClosed (h : LockedStmt ok p (.commit ws) t)
    (hcommit : t.store.afterCommit ws = some db) (hclosed : t.store.db.ClosedIn i state) :
    ∀ w, .run w ∈ ws → w.target ≠ i := by
  rintro w hw rfl
  obtain ⟨row, hrow, hstate⟩ := hclosed.row
  have hopen : ∀ run : LabRun, LockedRun p run t.store → run.id = w.target →
      run.state.closed = false → False := by
    intro run hlocked hid hopen
    have hsame := hlocked.row
    rw [hid, hrow] at hsame
    cases hsame
    rw [hstate, hclosed.closed] at hopen
    cases hopen
  have hnew : ∀ r : LabRun, .run (.insert r) ∈ ws → r.id = w.target → False := by
    intro r hr hid
    have hfresh := Store.run_fresh hcommit hr
    rw [hid, hrow] at hfresh
    cases hfresh
  obtain ⟨r, hr, hground⟩ := h.rests ws rfl
  obtain ⟨r', hr', hconducts⟩ := h.conducted
  have hwrite := hconducts ws rfl _ hw
  rw [h.logged.request p r' r hr' hr] at hwrite
  unfold Request.conducts at hwrite
  cases r with
  | changeLabRunState caller runId action confirmation =>
    obtain ⟨run, nextState, flushed, htransits⟩ := hground
    obtain ⟨activatedAt, endedAt, hws⟩ := htransits.writes
    rw [hws] at hw
    have htarget : w.target = runId := by
      rcases List.mem_append.mp hw with hw | hw
      · cases hnext : nextState.closed with
        | false =>
          rw [htransits.stays hnext] at hw
          cases hw
        | true =>
          obtain ⟨s, -, -, -, hcloses⟩ := htransits.closes hnext
          rcases hcloses.only _ hw with ⟨a, -, heq⟩ | ⟨o, v, heq, -⟩
          · cases heq
          · cases heq
      · cases List.mem_singleton.mp hw
        rfl
    exact hopen run htransits.locked (htransits.id.trans htarget.symm)
      (runTransition_closed htransits.allowed)
  | createLabRun caller payload =>
    obtain ⟨run, heq⟩ := hwrite.1
    cases heq
    exact hnew run hw rfl
  | createSetup caller payload =>
    obtain ⟨run, lab, students, hsetup, row', hrow', hid⟩ := hground
    rcases (hsetup.saves db hcommit).runs w hw with ⟨r, rfl, -⟩ | ⟨name, activatedAt, rfl⟩
    · exact hnew r hw rfl
    · exact hnew row' hrow' hid
  | editSetup caller runId payload =>
    obtain ⟨lab, students, run, s, hsetup, hid, hedited⟩ := hground
    rcases (hsetup.saves db hcommit).runs w hw with ⟨r, rfl, -⟩ | ⟨name, activatedAt, rfl⟩
    · exact hnew r hw rfl
    · exact hopen run hedited.locked hid hedited.open
  | operationWorker worker => exact hwrite.elim
  | revokeRunAssignment caller run a => cases hwrite.1
  | bulkVmAction caller run action =>
    obtain ⟨type, -, hqueues⟩ := hwrite.1
    exact hqueues.elim
  | _ => exact hwrite.1.elim

/-- A statement leaves a closed run closed. -/
theorem LockedStmt.closedIn {q : Stmt} (h : LockedStmt ok p q t)
    (hclosed : t.store.db.ClosedIn i state) : (t.store.exec p q).db.ClosedIn i state := by
  rcases Store.exec_cases p q t.store with ⟨ws, db, rfl, hcommit, hdb, -⟩ | ⟨-, -, hsame⟩
  · obtain ⟨row, hrow, hstate⟩ := hclosed.row
    refine ⟨⟨row, ?_, hstate⟩, hclosed.closed⟩
    rw [hdb, Store.run_untouched hcommit (h.leavesClosed hcommit hclosed)]
    exact hrow
  · exact hclosed.sameRows hsame

end Commits

/-! ## Runs -/

section Runs

variable {H : Type} {settings : Settings} {outside : Outside H} {i : ℕ} {state : RunState}

/-- The process has validated the operation that it has in hand, and has done nothing since. -/
def Validated (p : Pid) (log : List Entry) : Prop :=
  ∃ row vm payload s rest, entriesOf p log = Entry.stmt p (.authorize row vm payload) s :: rest

/-- An entry of a run in which a lab run is closed: statements find it closed, and a call that
changes a VM rests on the validation of the operation in hand. -/
def ClosedEntry (i : ℕ) (state : RunState) : Entry → List Entry → Prop
  | .stmt _ _ s, _ => s.db.ClosedIn i state
  | .call p c _, older => c.mutating = true → ∃ row vm payload s rest,
      inHand p older = some row.id ∧ row.target = .studentVm vm.id ∧ c.Addresses vm ∧
        entriesOf p older = Entry.stmt p (.authorize row vm payload) s :: rest ∧
        validateOperationAuthorization s.db s.clock row vm payload = .ok ()
  | _, _ => True

/-- The run is closed, and was since the log was `log`. -/
structure ClosedSince (i : ℕ) (state : RunState) (log : List Entry) (t : Sys H) : Prop where
  closed : t.store.db.ClosedIn i state
  entries : EachAfter (fun e older => log <:+ older → ClosedEntry i state e older) t.log

/-- A run that is closed now is so since now. -/
theorem ClosedSince.start {t : Sys H} (h : t.store.db.ClosedIn i state) :
    ClosedSince i state t.log t where
  closed := h
  entries := by
    rintro newer e older heq hsuffix
    have hlength := hsuffix.length_le
    rw [heq, List.length_append, List.length_cons] at hlength
    omega

/-- A run stays closed after an entry that finds it closed. -/
theorem ClosedSince.cons {log : List Entry} {t t' : Sys H} (h : ClosedSince i state log t)
    {e : Entry} (hlog : t'.log = e :: t.log) (he : ClosedEntry i state e t.log)
    (hclosed : t'.store.db.ClosedIn i state) : ClosedSince i state log t' where
  closed := hclosed
  entries := by
    rw [hlog]
    exact h.entries.cons fun _ => he

/-- Every step keeps a closed run closed. -/
theorem closedSince_preserved (ok : Condition H) (i : ℕ) (state : RunState) (log : List Entry) :
    (lockedSystem settings outside ok).Preserves (ClosedSince i state log) where
  stmt := by
    intro p q t h henabled
    have hstmt := lockedStmt_of_enabled henabled
    exact h.cons rfl h.closed (hstmt.closedIn h.closed)
  call := by
    intro p c t r t' h hanswer
    obtain ⟨-, hconducted, hyper, -, rfl⟩ := lockedCall_of_answer hanswer
    have hcall : ClosedSince i state log { t with log := .call p c t.store :: t.log } := by
      refine h.cons rfl ?_ h.closed
      intro hmutating
      obtain ⟨row, vm, payload, s, rest, hexec, -, htarget, haddress, -, hentries, hvalid⟩ :=
        hconducted hmutating
      exact ⟨row, vm, payload, s, rest, hexec.1, htarget, haddress, hentries, hvalid⟩
    exact hcall.cons rfl trivial h.closed
  enter := fun r t h _ => h.cons (e := .enter (started t.log) r) rfl trivial h.closed
  leave := fun p t h => h.cons (e := .leave p) rfl trivial h.closed
  env := by
    intro t t' h henv
    obtain ⟨henv, hlog, -⟩ := lockedEnv henv
    refine ⟨h.closed.sameRows henv.sameRows, ?_⟩
    rw [hlog]
    exact h.entries

/-- What holds at the world `w'`, reached from the world `w` in which the run is closed. A worker
that had validated an operation before `w`, and was about to make the call, may still make it. -/
structure StaysClosed (outside : Outside H) (i : ℕ) (run : LabRun) (w w' : World Api (Sys H)) :
    Prop where
  state : ∃ run', w'.shared.store.db.labRuns.get? i = some run' ∧ run'.state = run.state
  active : ∀ now userId organizationId vm access,
    activeAssignmentForVm w'.shared.store.db now userId organizationId vm = some access →
      access.1.labRunId ≠ i
  enforced : ∀ now userId organizationId vm operation access,
    enforceStudentVmOperation w'.shared.store.db now userId organizationId vm operation =
      .ok access → access.1.labRunId ≠ i
  provisioned : ∀ p assignmentId userId organizationId templateId a t',
    Program.Runs (machine outside) p (fun t t' => LeavesClosed i run.state t.store t'.store)
      (assignmentForProvisioning assignmentId userId organizationId templateId, w'.shared)
      (pure a, t') → a.labRunId ≠ i
  executed : ∀ newer p c s older, w'.shared.log = newer ++ .call p c s :: older →
    w.shared.log <:+ older → c.mutating = true → ¬ Validated p w.shared.log →
    ∃ row vm payload s' rest, inHand p older = some row.id ∧ row.target = .studentVm vm.id ∧
      c.Addresses vm ∧ entriesOf p older = Entry.stmt p (.authorize row vm payload) s' :: rest ∧
      ¬ (RequestedByStudent s'.db row vm ∧ LinkedOnlyThrough s'.db i vm)

/-- What follows a world in which a run is closed leaves it closed. -/
theorem ClosedSince.staysClosed {w w' : World Api (Sys H)} {run : LabRun}
    (h : ClosedSince i run.state w.shared.log w'.shared) : StaysClosed outside i run w w' where
  state := h.closed.row
  active := fun _ _ _ _ _ haccess => h.closed.activeAssignment haccess
  enforced := fun _ _ _ _ _ _ haccess => h.closed.enforced haccess
  provisioned := fun p _ _ _ _ _ _ hruns => provisioned_elsewhere outside p h.closed hruns
  executed := by
    intro newer p c s older hlog hsuffix hmutating hnew
    obtain ⟨row, vm, payload, s', rest, hhand, htarget, haddress, hentries, hvalid⟩ :=
      h.entries newer _ older hlog hsuffix hmutating
    refine ⟨row, vm, payload, s', rest, hhand, htarget, haddress, hentries, ?_⟩
    obtain ⟨recent, rfl⟩ := hsuffix
    -- the validation is an entry since `w`, for the process had not validated before
    have hrecent : Entry.stmt p (.authorize row vm payload) s' ∈ recent := by
      rw [entriesOf_append] at hentries
      cases hp : entriesOf p recent with
      | nil =>
        rw [hp] at hentries
        exact absurd ⟨row, vm, payload, s', rest, hentries⟩ hnew
      | cons e es =>
        rw [hp] at hentries
        have he : e = Entry.stmt p (.authorize row vm payload) s' := (List.cons.inj hentries).1
        rw [← he]
        have hmem : e ∈ entriesOf p recent := by
          rw [hp]
          exact List.mem_cons_self
        exact (mem_entriesOf.mp hmem).1
    obtain ⟨after, before, rfl⟩ := List.append_of_mem hrecent
    have hclosed : s'.db.ClosedIn i run.state := by
      refine h.entries (newer ++ .call p c s :: after) (.stmt p (.authorize row vm payload) s')
        (before ++ w.shared.log) ?_ (List.suffix_append _ _)
      rw [hlog]
      simp
    exact hclosed.unauthorized hvalid

/-- In every run from the state, a lab run that is closed stays closed and opens nothing to its
students. -/
def ClosedRuns (settings : Settings) (outside : Outside H) (t : Sys H) : Prop :=
  ∀ w, World.Reach (system settings outside) (World.idle t) w →
    ∀ i run, w.shared.store.db.labRuns.get? i = some run → run.state.closed = true →
      ∀ w', World.Reach (system settings outside) w w' → StaysClosed outside i run w w'

/-- In every run from an initial state a closed lab run stays closed and opens nothing to its
students. -/
theorem closedRuns (settings : Settings) (outside : Outside H) (t : Sys H) (ht : t.Initial) :
    ClosedRuns settings outside t := by
  intro w hw i run hrun hclosed w' hw'
  have hlocked := reach_locked_from ht (reach_unconditional hw) (reach_unconditional hw')
  have hstart : ClosedSince i run.state w.shared.log w.shared :=
    .start ⟨⟨run, hrun, rfl⟩, hclosed⟩
  exact ((closedSince_preserved {} i run.state w.shared.log).of_reach hstart hlocked).staysClosed

end Runs

/-- From the store of the fixture closed runs stay closed. -/
theorem Fixture.closedRuns_readyStore :
    ClosedRuns {} Fixture.anything (Fixture.start Fixture.readyStore) :=
  closedRuns {} Fixture.anything (Fixture.start Fixture.readyStore) ⟨rfl, rfl⟩

end LabGoblin
