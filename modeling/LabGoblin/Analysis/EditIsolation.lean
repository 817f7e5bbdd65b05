import LabGoblin.Analysis.Quota

/-!
# Edits of a setup are isolated

From the moment it has locked the assignments of its run until it commits, an edit finds the run,
its lab and its assignments as they were when it compared them with the tag that it was sent. The
rows are under its locks; the lab is not, but only an edit of another run of the same lab could
change it, and an edit refuses a lab that several runs share.
-/

set_option autoImplicit false

namespace LabGoblin

open Interactive

/-! ## Writes of labs -/

/-- A write of the lab table. -/
inductive LabWrite where
  | insert (row : Lab)
  | edit (lab : ℕ) (name description : String) (defaultPoolId : ℕ) (flags : LabFlags)

def LabWrite.target : LabWrite → ℕ
  | .insert row => row.id
  | .edit lab _ _ _ _ => lab

def LabWrite.onRow : LabWrite → Lab → Lab
  | .insert _, row => row
  | .edit _ name description poolId flags, row =>
      { row with
        name := name
        description := some description
        defaultPoolId := poolId
        flags := flags }

def LabWrite.write : LabWrite → Write
  | .insert row => .catalogue (.insertLab row)
  | .edit lab name description poolId flags =>
      .catalogue (.editLab lab name description poolId flags)

def Write.onLab : Write → Option LabWrite
  | .catalogue (.insertLab row) => some (.insert row)
  | .catalogue (.editLab lab name description poolId flags) =>
      some (.edit lab name description poolId flags)
  | _ => none

/-- The writes that concern the labs are those of labs. -/
theorem Write.onLab_eq_some {w : Write} {v : LabWrite} :
    w.onLab = some v ↔ w = v.write := by
  constructor
  · intro h
    cases w with
    | catalogue w =>
      cases w with
      | insertLab row =>
        cases h
        rfl
      | editLab lab name description poolId flags =>
        cases h
        rfl
      | _ => cases h
    | _ => cases h
  · rintro rfl
    cases v <;> rfl

def LabWrite.change : LabWrite → Change Lab Lab.id
  | .insert row => .insert row
  | .edit lab name description poolId flags =>
      .update lab ((LabWrite.edit lab name description poolId flags).onRow) fun _ => rfl

/-- The writes of labs. -/
def Write.ofLabs : TableWrites Lab Lab.id where
  Part := LabWrite
  write := LabWrite.write
  part := Write.onLab
  table := Db.labs
  insert := .insert
  target := LabWrite.target
  onRow := LabWrite.onRow
  change := LabWrite.change
  part_eq_some := Write.onLab_eq_some
  change_insert := fun _ => rfl
  change_cases := by
    intro v
    cases v with
    | insert r => exact Or.inl ⟨r, rfl⟩
    | edit lab name description poolId flags => exact Or.inr ⟨fun _ => rfl, rfl⟩
  apply_change := by
    intro w db db' h
    cases w with
    | catalogue w =>
      cases w with
      | insertLab row =>
        obtain ⟨t, ht, rfl⟩ := Option.map_eq_some_iff.mp h
        simp [Write.onLab, Change.applyAll, LabWrite.change, Change.apply, ht]
      | editLab lab name description poolId flags =>
        cases h
        rfl
      | insertReceipt row =>
        have h : (if row.requestId ∈ db.labSetupReceipts.map LabSetupReceipt.requestId then none
          else some { db with labSetupReceipts := db.labSetupReceipts ++ [row] }) = some db' := h
        split at h
        · cases h
        · cases h
          rfl
      | _ =>
        obtain ⟨t, _, rfl⟩ := Option.map_eq_some_iff.mp h
        rfl
    | _ =>
      obtain ⟨t, _, rfl⟩ := Option.map_eq_some_iff.mp h
      rfl

/-- A statement that reads leaves the labs. -/
theorem Store.exec_labs {p : Pid} {q : Stmt} (hq : q.reads) (s : Store) (i : ℕ) :
    (s.exec p q).db.labs.get? i = s.db.labs.get? i := by
  cases q with
  | commit ws => exact hq.elim
  | rollback => exact hq.elim
  | draw sq => cases sq <;> rfl
  | _ => rfl

/-! ## Open transactions -/

/-- What is in an open transaction reads. -/
theorem reads_of_mem_openTransaction {p : Pid} {log : List Entry} {x : Stmt × Store}
    (h : x ∈ openTransaction p log) : x.1.reads := by
  unfold openTransaction at h
  generalize entriesOf p log = entries at h
  induction entries with
  | nil => cases h
  | cons e entries ih =>
    cases e with
    | stmt p' q s =>
      unfold sinceEnd at h
      cases hends : q.ends with
      | true =>
        rw [hends, if_pos rfl] at h
        cases h
      | false =>
        rw [hends, if_neg Bool.false_ne_true] at h
        rcases List.mem_cons.mp h with rfl | h
        · cases q with
          | commit ws => cases hends
          | rollback => cases hends
          | _ => trivial
        · exact ih h
    | leave p' => cases h
    | _ => exact ih h

/-- A statement of an open transaction is in the log, and the transaction has been open since. -/
theorem exists_of_mem_openTransaction {p : Pid} {log : List Entry} {x : Stmt × Store}
    (h : x ∈ openTransaction p log) :
    ∃ recent before, log = recent ++ .stmt p x.1 x.2 :: before ∧
      ∀ newer older, recent = newer ++ older →
        x ∈ openTransaction p (older ++ .stmt p x.1 x.2 :: before) := by
  induction log with
  | nil => cases h
  | cons e log ih =>
    rcases mem_openTransaction_cons h with hold | ⟨rfl, -⟩
    · obtain ⟨recent, before, rfl, hopen⟩ := ih hold
      refine ⟨e :: recent, before, rfl, ?_⟩
      intro newer older heq
      cases newer with
      | nil =>
        rw [List.nil_append] at heq
        rw [← heq]
        exact h
      | cons e' newer => exact hopen newer older (List.cons.inj heq).2
    · refine ⟨[], log, rfl, ?_⟩
      intro newer older heq
      obtain ⟨-, rfl⟩ := List.append_eq_nil_iff.mp heq.symm
      exact h

/-! ## The checks of an edit -/

/-- What a tag says of an assignment. -/
def LabAssignment.binding (a : LabAssignment) :
    ℕ × Option ℕ × AssignmentStatus × Option Time :=
  (a.id, a.studentVmId, a.status, a.expiresAt)

/-- The settings of two runs and their labs are the same, and so are the tuples of their
assignments. -/
structure SameSettings (db db' : Db) (run run' : LabRun) (lab lab' : Lab) : Prop where
  runId : run'.id = run.id
  name : run'.name = run.name
  startsAt : run'.startsAt = run.startsAt
  endsAt : run'.endsAt = run.endsAt
  slots : run'.maxVmsPerStudent = run.maxVmsPerStudent
  state : run'.state = run.state
  labId : lab'.id = lab.id
  classId : lab'.classId = lab.classId
  description : lab'.description.getD "" = lab.description.getD ""
  pool : lab'.defaultPoolId = lab.defaultPoolId
  flags : lab'.flags = lab.flags
  bindings : ∀ binding, (∃ a ∈ db'.labAssignments.rows, a.labRunId = run'.id ∧
      a.binding = binding) ↔
    ∃ a ∈ db.labAssignments.rows, a.labRunId = run.id ∧ a.binding = binding

/-- The assignments that a tag speaks of are those of the run. -/
theorem mem_snapshot_bindings {db : Db} {run : LabRun} {lab : Lab} {etag : Etag}
    (h : snapshot db run lab = .ok etag)
    (binding : ℕ × Option ℕ × AssignmentStatus × Option Time) :
    binding ∈ etag.bindings ↔
      ∃ a ∈ db.labAssignments.rows, a.labRunId = run.id ∧ a.binding = binding := by
  unfold snapshot at h
  split at h
  · cases h
  · cases h
    simp only [List.mem_map, List.mem_insertionSort]
    constructor
    · rintro ⟨a, ha, rfl⟩
      obtain ⟨hmem, hrun⟩ := List.mem_filter.mp ha
      exact ⟨a, hmem, of_decide_eq_true hrun, rfl⟩
    · rintro ⟨a, hmem, hrun, rfl⟩
      exact ⟨a, List.mem_filter.mpr ⟨hmem, decide_eq_true hrun⟩, rfl⟩

/-- Where two setups have the same tag, their settings and the tuples of their assignments are the
same. -/
theorem sameSettings_of_snapshot {db db' : Db} {run run' : LabRun} {lab lab' : Lab} {etag : Etag}
    (h : snapshot db run lab = .ok etag) (h' : snapshot db' run' lab' = .ok etag) :
    SameSettings db db' run run' lab lab' := by
  have hbindings := fun binding =>
    (mem_snapshot_bindings h' binding).symm.trans (mem_snapshot_bindings h binding)
  unfold snapshot at h h'
  split at h
  · cases h
  · split at h'
    · cases h'
    · rw [← h] at h'
      have heq := Except.ok.inj h'
      exact ⟨congrArg Etag.runId heq, congrArg Etag.name heq, congrArg Etag.startsAt heq,
        congrArg Etag.endsAt heq, congrArg Etag.slots heq, congrArg Etag.state heq,
        congrArg Etag.labId heq, congrArg Etag.classId heq, congrArg Etag.description heq,
        congrArg Etag.poolId heq, congrArg Etag.flags heq, hbindings⟩

/-- What the checks of an edit have established when they pass. -/
structure PassesEdit (db : Db) (body : LabSetupBody) (run : LabRun) (lab : Lab) : Prop where
  tagged : ∃ etag, body.expectedEtag = some etag ∧ snapshot db run lab = .ok etag
  alone : ∀ r ∈ db.labRuns.rows, r.labId = lab.id → r.id = run.id

/-- The checks of an edit establish what it needs when they pass. -/
theorem checkEdit_ok {db : Db} {body : LabSetupBody} {run : LabRun} {lab : Lab}
    (h : checkEdit db body run lab = .ok ()) : PassesEdit db body run lab := by
  unfold checkEdit at h
  cases hsnapshot : snapshot db run lab with
  | error e =>
    rw [hsnapshot] at h
    cases h
  | ok etag =>
    rw [hsnapshot] at h
    simp only at h
    split at h
    · cases h
    · rename_i htag
      split at h
      · cases h
      · split at h
        · cases h
        · rename_i hshared
          refine ⟨⟨etag, by simpa using htag, hsnapshot⟩, ?_⟩
          intro r hr hlab
          by_contra hne
          have hnone : db.labRuns.first (fun r => r.labId = lab.id && r.id ≠ run.id) = none := by
            simpa using hshared
          have hfalse := Table.first_none hnone r hr
          simp [hlab, hne] at hfalse

/-! ## The requests that an edit is isolated from -/

/-- The requests that run next to an edit. -/
def Request.interleaves : Request → Bool
  | .createVm _ _ => true
  | .changeLabRunState _ _ _ _ => true
  | .createRunAssignment _ _ _ => true
  | .bulkCreateRunAssignments _ _ _ => true
  | .revokeRunAssignment _ _ _ => true
  | .editSetup _ _ _ => true
  | .operationWorker _ => true
  | _ => false

/-- Every run of the later database was in the earlier one, for the same lab. -/
def Db.NoNewRuns (db db' : Db) : Prop :=
  ∀ i run, db'.labRuns.get? i = some run →
    ∃ before, db.labRuns.get? i = some before ∧ before.labId = run.labId

/-- With the same runs there is no new one. -/
theorem Db.NoNewRuns.of_rows {db db' : Db} (h : db'.labRuns.rows = db.labRuns.rows) :
    db.NoNewRuns db' := by
  intro i run hrun
  refine ⟨run, ?_, rfl⟩
  unfold Table.get? at hrun ⊢
  rwa [h] at hrun

/-- Without new runs in two steps there is none. -/
theorem Db.NoNewRuns.trans {a b c : Db} (h : a.NoNewRuns b) (h' : b.NoNewRuns c) :
    a.NoNewRuns c := by
  intro i run hrun
  obtain ⟨between, hbetween, hlab⟩ := h' i run hrun
  obtain ⟨before, hbefore, hlab'⟩ := h i between hbetween
  exact ⟨before, hbefore, hlab'.trans hlab⟩

section Isolation

variable {H : Type} {settings : Settings} {outside : Outside H} {ok : Condition H} {p : Pid}
  {ws : List Write} {t : Sys H} {db : { db : Db // db.Constraints }}

/-- The write is of no lab, and inserts no run. -/
def Write.sparesLabs (w : Write) : Prop :=
  (∀ v, w ≠ .catalogue v) ∧ ∀ row, w ≠ .run (.insert row)

/-- A request that runs next to an edit, and is none itself, writes no lab. -/
theorem Request.mayWrite_sparesLabs {r : Request} (hr : r.interleaves = true)
    (hedit : ∀ caller run payload, r ≠ .editSetup caller run payload) {w : Write}
    (h : r.mayWrite w) : w.sparesLabs := by
  constructor
  · rintro v rfl
    cases r with
    | createVm _ _ => exact h
    | changeLabRunState _ _ _ _ => exact h
    | createRunAssignment _ _ _ => exact h
    | bulkCreateRunAssignments _ _ _ => exact h
    | revokeRunAssignment _ _ _ => cases h
    | editSetup caller run payload => exact hedit caller run payload rfl
    | operationWorker _ => exact h
    | _ => cases hr
  · rintro row rfl
    cases r with
    | createVm _ _ => exact h
    | changeLabRunState _ _ _ _ => exact h
    | createRunAssignment _ _ _ => exact h
    | bulkCreateRunAssignments _ _ _ => exact h
    | revokeRunAssignment _ _ _ => cases h
    | editSetup caller run payload => exact hedit caller run payload rfl
    | operationWorker _ => exact h
    | _ => cases hr

/-- The workers write no lab. -/
theorem Write.ByWorker.sparesLabs {w : Write} (h : w.ByWorker p t ws) : w.sparesLabs := by
  constructor
  · rintro v rfl
    exact h
  · rintro row rfl
    exact h

/-- Only edits write labs or insert runs. -/
theorem LockedStmt.editOf (h : LockedStmt ok p (.commit ws) t)
    (hscope : ∀ p r, Entry.enter p r ∈ t.log → r.interleaves = true) :
    (∃ caller runId payload lab students run s,
        Entry.enter p (.editSetup caller runId payload) ∈ t.log ∧
        SetupGround p payload.body ws t runId lab students ∧ run.id = runId ∧
        Edited p payload.body t run lab s) ∨
      ∀ w ∈ ws, w.sparesLabs := by
  obtain ⟨r, hr, hground⟩ := h.rests ws rfl
  by_cases hedit : ∃ caller run payload, r = .editSetup caller run payload
  · obtain ⟨caller, runId, payload, rfl⟩ := hedit
    obtain ⟨lab, students, run, s, hsetup, hid, hedited⟩ := hground
    exact Or.inl ⟨caller, runId, payload, lab, students, run, s, hr, hsetup, hid, hedited⟩
  · right
    obtain ⟨r', hr', ⟨-, hworker⟩ | ⟨-, hrequest⟩⟩ := h.conducted.split
    · exact fun w hw => (hworker w hw).sparesLabs
    · rw [h.logged.request p r' r hr' hr] at hrequest
      refine fun w hw => Request.mayWrite_sparesLabs (hscope p r hr) ?_ (hrequest w hw).1
      rintro caller run payload rfl
      exact hedit ⟨caller, run, payload, rfl⟩

/-- No request that runs next to an edit inserts a run. -/
theorem LockedStmt.insertsNoRun (h : LockedStmt ok p (.commit ws) t)
    (hscope : ∀ p r, Entry.enter p r ∈ t.log → r.interleaves = true)
    (hcommit : t.store.afterCommit ws = some db) (row : LabRun) : .run (.insert row) ∉ ws := by
  intro hrow
  rcases h.editOf hscope with
    ⟨caller, runId, payload, lab, students, run, s, -, hsetup, hid, hedited⟩ | hother
  · rcases (hsetup.saves db hcommit).runs _ hrow with ⟨r, heq, hrid, -⟩ | ⟨name, at', heq⟩
    · cases heq
      have hfresh := Store.run_fresh hcommit hrow
      have hlocked := hedited.locked.row
      rw [hid, ← hrid, hfresh] at hlocked
      cases hlocked
    · cases heq
  · exact (hother _ hrow).2 row rfl

/-- A statement adds no run. -/
theorem LockedStmt.noNewRuns {q : Stmt} (h : LockedStmt ok p q t)
    (hscope : ∀ p r, Entry.enter p r ∈ t.log → r.interleaves = true) :
    t.store.db.NoNewRuns (t.store.exec p q).db := by
  rcases Store.exec_cases p q t.store with ⟨ws, db, rfl, hcommit, hdb, -⟩ | ⟨-, -, hsame⟩
  · intro i run hrun
    rw [hdb] at hrun
    refine Store.run_afterCommit (P := fun r =>
      ∃ before, t.store.db.labRuns.get? i = some before ∧ before.labId = r.labId)
      hcommit ?_ ?_ ?_ run hrun
    · exact fun r hr => ⟨r, hr, rfl⟩
    · exact fun r _ hmem _ => absurd hmem (h.insertsNoRun hscope hcommit r)
    · rintro w _ _ r _ ⟨before, hbefore, hlab⟩
      refine ⟨before, hbefore, hlab.trans ?_⟩
      cases w with
      | insert row =>
        exact rfl
      | _ => rfl
  · exact .of_rows hsame.labRuns

/-- Nobody else changes the lab of a run that an edit has locked. -/
theorem LockedStmt.keepsLab {q : Stmt} {p' : Pid} {run : LabRun} (h : LockedStmt ok p q t)
    (hscope : ∀ p r, Entry.enter p r ∈ t.log → r.interleaves = true)
    (hruns : ∀ p' q' s, Entry.stmt p' q' s ∈ t.log → s.db.NoNewRuns t.store.db) (hne : p' ≠ p)
    (hlocked : LockedRun p' run t.store) :
    (t.store.exec p q).db.labs.get? run.labId = t.store.db.labs.get? run.labId := by
  rcases Store.exec_cases p q t.store with ⟨ws, db, rfl, hcommit, hdb, -⟩ | ⟨hnone, -, -⟩
  · rw [hdb]
    have hexists : (t.store.db.labs.get? run.labId).isSome :=
      t.store.valid.runs_lab run (Table.mem_of_get? hlocked.row) _ rfl
    have hfresh : ∀ r, (LabWrite.insert r).write ∈ ws → r.id ≠ run.labId := by
      rintro r hr heq
      have hfresh := Write.ofLabs.fresh (Store.applyAll_of_afterCommit hcommit) hr
      have hnone : t.store.db.labs.get? run.labId = none := heq ▸ hfresh
      rw [hnone] at hexists
      cases hexists
    refine Write.ofLabs.untouched (Store.applyAll_of_afterCommit hcommit) hfresh ?_
    intro w hw
    cases w with
    | insert r => exact hfresh r hw
    | edit l name description pool flags =>
      rintro rfl
      rcases h.editOf hscope with
        ⟨caller, runId, payload, lab, students, other, s, -, hsetup, -, hedited⟩ | hother
      · have hlab : run.labId = lab.id :=
          (hsetup.saves db hcommit).edits _ _ _ _ _ hw
        -- both processes hold the lock on their run, so the runs differ
        have hdistinct : run.id ≠ other.id := by
          intro heq
          have hlock := hlocked.lock
          rw [heq] at hlock
          exact hne (h.exclusive _ _ _ hlock hedited.locked.lock)
        -- but the other edit has found no second run of the lab
        obtain ⟨recent, before, hlog, -⟩ := exists_of_mem_openTransaction hedited.stmt
        have hmem : Entry.stmt p (.lock (.assignmentsOfRun other.id)) s ∈ t.log := by
          rw [hlog]
          exact List.mem_append_right _ List.mem_cons_self
        obtain ⟨old, hold, hsame⟩ := hruns _ _ _ hmem _ _ hlocked.row
        have hid : old.id = run.id := Table.get?_key hold
        have halone := (checkEdit_ok hedited.checked).alone old (Table.mem_of_get? hold)
          (hsame.trans hlab)
        exact hdistinct (hid.symm.trans halone)
      · exact (hother _ hw).1 _ rfl
  · cases q with
    | commit ws =>
      rw [Store.exec_commit_none (hnone ws rfl)]
      rfl
    | draw sq => cases sq <;> rfl
    | _ => rfl

/-! ## Transactions -/

/-- What the open transactions have locked is still as they found it, and so are the labs of the
runs they have locked. -/
def TransactionsAt (log : List Entry) (s : Store) : Prop :=
  ∀ p, ∀ x ∈ openTransaction p log, (x.2.exec p x.1).Kept p s ∧
    ∀ run, LockedRun p run x.2 → s.db.labs.get? run.labId = x.2.db.labs.get? run.labId

/-- The transactions go on while the others act. -/
theorem TransactionsAt.go {log log' : List Entry} {s s' : Store} (h : TransactionsAt log s)
    (hlog : ∀ p, ∀ x ∈ openTransaction p log', x ∈ openTransaction p log)
    (hkept : ∀ p, openTransaction p log' ≠ [] → s.Kept p s')
    (hlabs : ∀ p run, openTransaction p log' ≠ [] → LockedRun p run s →
      s'.db.labs.get? run.labId = s.db.labs.get? run.labId) : TransactionsAt log' s' := by
  intro p x hx
  obtain ⟨hkept', hlabs'⟩ := h p x (hlog p x hx)
  have hopen : openTransaction p log' ≠ [] := List.ne_nil_of_mem hx
  refine ⟨hkept'.trans (hkept p hopen), ?_⟩
  intro run hrun
  have hreads := reads_of_mem_openTransaction hx
  have hnow : LockedRun p run s := (hrun.kept (.exec hreads _)).kept hkept'
  exact (hlabs p run hopen hnow).trans (hlabs' run hrun)

/-- What holds at a point of a run next to edits: only requests of the scope were started, no run
was inserted, and the open transactions go on. -/
structure EditsAt (log : List Entry) (s : Store) : Prop where
  scope : ∀ p r, Entry.enter p r ∈ log → r.interleaves = true
  runs : ∀ p q s', Entry.stmt p q s' ∈ log → s'.db.NoNewRuns s.db
  transactions : TransactionsAt log s

/-- It holds now, and held at every statement. -/
structure EditsIsolated (t : Sys H) : Prop where
  now : EditsAt t.log t.store
  before : EachAfter (fun e older => ∀ p q s, e = .stmt p q s → EditsAt older s) t.log

/-- At the start no edit has begun. -/
theorem EditsIsolated.initial {t : Sys H} (ht : t.Initial) : EditsIsolated t where
  now := by
    refine ⟨by simp [ht.log], by simp [ht.log], ?_⟩
    intro p x hx
    rw [ht.log] at hx
    cases hx
  before := by
    rw [ht.log]
    exact EachAfter.nil _

/-- A statement of one process goes on with the transactions of all of them. -/
theorem EditsAt.transactions_stmt {q : Stmt} (h : EditsAt t.log t.store)
    (hstmt : LockedStmt ok p q t) :
    TransactionsAt (.stmt p q t.store :: t.log) (t.store.exec p q) := by
  intro p' x hx
  by_cases hp : p' = p
  · subst hp
    by_cases hq : q.reads
    · have hlabs : ∀ i, (t.store.exec p' q).db.labs.get? i = t.store.db.labs.get? i :=
        fun i => Store.exec_labs hq _ i
      rw [openTransaction_read hq] at hx
      rcases List.mem_cons.mp hx with rfl | hx
      · exact ⟨.refl p' _, fun run _ => hlabs run.labId⟩
      · obtain ⟨hkept, hsame⟩ := h.transactions p' x hx
        exact ⟨hkept.trans (.exec hq _), fun run hrun => (hlabs _).trans (hsame run hrun)⟩
    · have hpid : (Entry.stmt p' q t.store).pid = p' := rfl
      unfold openTransaction at hx
      rw [entriesOf_cons_self _ hpid] at hx
      cases q with
      | commit ws => cases hx
      | rollback => cases hx
      | _ => exact absurd trivial hq
  · have hpid : (Entry.stmt p q t.store).pid ≠ p' := fun heq => hp heq.symm
    have hgo : ∀ x ∈ openTransaction p' (.stmt p q t.store :: t.log),
        x ∈ openTransaction p' t.log := by
      rw [openTransaction_cons_of_ne _ hpid]
      exact fun _ h => h
    obtain ⟨hkept, hsame⟩ := h.transactions p' x (hgo x hx)
    have hkept' : t.store.Kept p' (t.store.exec p q) := by
      refine kept_exec hstmt.exclusive hp hstmt.free (exec_operations hstmt.conducted) ?_
      rintro ws db rfl hcommit
      exact (hstmt.rests ws rfl).insertsUnderLock hstmt.logged hstmt.conducted hcommit
    refine ⟨hkept.trans hkept', ?_⟩
    intro run hrun
    have hreads := reads_of_mem_openTransaction hx
    have hnow : LockedRun p' run t.store := (hrun.kept (.exec hreads _)).kept hkept
    exact (hstmt.keepsLab h.scope h.runs hp hnow).trans (hsame run hrun)

/-- The condition of the runs in which edits are isolated: the requests that run next to them, and
nobody else to edit labs. -/
def amongEdits : Condition H where
  start := fun r _ => r.interleaves = true
  env := fun t t' => t'.store.db.labs = t.store.db.labs

/-- Only requests of the scope are started. -/
theorem interleaves_preserved : (lockedSystem settings outside (amongEdits (H := H))).Preserves
    (fun t => ∀ p r, Entry.enter p r ∈ t.log → r.interleaves = true) :=
  started_preserved fun _ _ h => h

/-- Every step keeps the edits isolated. -/
theorem editsIsolated_preserved :
    (lockedSystem settings outside amongEdits).Preserves (EditsIsolated (H := H)) where
  stmt := by
    intro p q t ⟨h, hbefore⟩ henabled
    have hstmt := lockedStmt_of_enabled henabled
    have hnext := hstmt.noNewRuns h.scope
    have hscope := interleaves_preserved.stmt p q t h.scope henabled
    refine ⟨⟨hscope, ?_, h.transactions_stmt hstmt⟩, ?_⟩
    · intro p' q' s hs
      rcases List.mem_cons.mp hs with heq | hs
      · cases heq
        exact hnext
      · exact (h.runs p' q' s hs).trans hnext
    · refine hbefore.cons ?_
      intro p' q' s heq
      cases heq
      exact h
  call := by
    intro p c t reply t' ⟨h, hbefore⟩ hanswer
    have hscope := interleaves_preserved.call p c t reply t' h.scope hanswer
    obtain ⟨-, -, hyper, -, rfl⟩ := lockedCall_of_answer hanswer
    refine ⟨⟨hscope, ?_, ?_⟩, (hbefore.cons (by simp)).cons (by simp)⟩
    · intro p' q s hs
      exact h.runs p' q s (by simpa using hs)
    · refine h.transactions.go ?_ (fun p _ => .refl p _) fun _ _ _ _ => rfl
      intro p' x hx
      by_cases hp : p = p'
      · subst hp
        rwa [openTransaction_call] at hx
      · have hreply : (Entry.reply p c reply).pid ≠ p' := hp
        have hcall : (Entry.call p c t.store).pid ≠ p' := hp
        rwa [openTransaction_cons_of_ne _ hreply, openTransaction_cons_of_ne _ hcall] at hx
  enter := by
    intro r t ⟨h, hbefore⟩ hadmits
    have hscope := interleaves_preserved.enter r t h.scope hadmits
    refine ⟨⟨hscope, ?_, ?_⟩, hbefore.cons (by simp)⟩
    · intro p q s hs
      rcases List.mem_cons.mp hs with heq | hs
      · cases heq
      · exact h.runs p q s hs
    · refine h.transactions.go ?_ (fun p _ => .refl p _) fun _ _ _ _ => rfl
      intro p x hx
      rcases mem_openTransaction_cons hx with hx | ⟨heq, -⟩
      · exact hx
      · cases heq
  leave := by
    intro p t ⟨h, hbefore⟩
    refine ⟨⟨?_, ?_, ?_⟩, hbefore.cons (by simp)⟩
    · intro p' r hr
      rcases List.mem_cons.mp hr with heq | hr
      · cases heq
      · exact h.scope p' r hr
    · intro p' q s hs
      rcases List.mem_cons.mp hs with heq | hs
      · cases heq
      · exact h.runs p' q s hs
    · refine h.transactions.go ?_ ?_ fun _ _ _ _ => rfl
      · intro p' x hx
        rcases mem_openTransaction_cons hx with hx | ⟨heq, -⟩
        · exact hx
        · cases heq
      · -- the process that leaves has no transaction any more
        intro p' hopen
        have hne : p' ≠ p := by
          rintro rfl
          have hpid : (Entry.leave p').pid = p' := rfl
          refine hopen ?_
          show openTransaction p' (.leave p' :: t.log) = []
          unfold openTransaction
          rw [entriesOf_cons_self _ hpid]
          rfl
        refine Store.Kept.of_rows ?_ (.refl _)
        intro l hl
        show (l, p') ∈ (t.store.release p).locks
        simp [Store.release, hl, hne]
  env := by
    intro t t' ⟨h, hbefore⟩ henv
    obtain ⟨hstore, hlog, hlabs⟩ := lockedEnv henv
    have hlabs : t'.store.db.labs = t.store.db.labs := hlabs
    rw [← hlog] at h hbefore
    refine ⟨⟨h.scope, ?_, ?_⟩, hbefore⟩
    · exact fun p q s hs => (h.runs p q s hs).trans (.of_rows hstore.sameRows.labRuns)
    · refine h.transactions.go (fun _ _ hx => hx) ?_ fun _ _ _ _ => by rw [hlabs]
      intro p _
      refine Store.Kept.of_rows ?_ hstore.sameRows
      intro l hl
      rw [hstore.locks]
      exact hl

/-! ## Committed edits -/

/-- The run, its lab and its assignments are as they were. -/
structure SameSetup (run : LabRun) (lab : Lab) (db db' : Db) : Prop where
  runRow : db'.labRuns.get? run.id = some run
  labRow : db'.labs.get? run.labId = some lab
  roster : SameRoster run.id db db'

/-- What holds of the commit of an edit of the run `i`, over the log before it. The entries of
`since` are those that follow the statement that locked the assignments: whatever the client's tag
was computed from has the settings and the tuples that were locked. -/
structure IsolatedEdit (p : Pid) (i : ℕ) (body : LabSetupBody) (ws : List Write) (s : Store)
    (since : List Entry) (s₀ : Store) (run : LabRun) (lab : Lab) : Prop where
  ofRun : run.id = i
  found : SameSetup run lab s₀.db s₀.db
  expected : ∃ etag, body.expectedEtag = some etag ∧ snapshot s₀.db run lab = .ok etag ∧
    ∀ db' run' lab', snapshot db' run' lab' = .ok etag →
      SameSettings s₀.db db' run run' lab lab'
  unchanged : ∀ s', s' = s ∨ (∃ p' q, Entry.stmt p' q s' ∈ since) →
    SameSetup run lab s₀.db s'.db
  keepsLinked : ∀ db, s.afterCommit ws = some db → ∀ a ∈ s.db.labAssignments.rows,
    a.studentVmId ≠ none → ∃ a', db.1.labAssignments.get? a.id = some a' ∧
      a'.studentVmId = a.studentVmId ∧ a'.status = a.status
  keepsPool : ∀ db, s.afterCommit ws = some db → ∀ a ∈ s.db.labAssignments.rows,
    a.studentVmId ≠ none → ∀ r, s.db.labRuns.get? a.labRunId = some r →
      ∀ l, s.db.labs.get? r.labId = some l → ∃ l', db.1.labs.get? r.labId = some l' ∧
        l'.defaultPoolId = l.defaultPoolId

/-- An edit keeps the assignments that have a VM. -/
theorem SetupCommit.keepsLinked {body : LabSetupBody} {i : ℕ} {lab : Lab} {students : List ℕ}
    {s : Store} (h : SetupCommit body i lab students s.db ws)
    (hcommit : s.afterCommit ws = some db) {a : LabAssignment}
    (ha : a ∈ s.db.labAssignments.rows) (hlinked : a.studentVmId ≠ none) :
    ∃ a', db.1.labAssignments.get? a.id = some a' ∧ a'.studentVmId = a.studentVmId ∧
      a'.status = a.status := by
  have hrow := Table.get?_of_mem ha
  obtain ⟨a', ha'⟩ := Store.assignment_stays hcommit hrow
  refine ⟨a', ha', ?_⟩
  refine Store.assignment_afterCommit (P := fun r => r.studentVmId = a.studentVmId ∧
    r.status = a.status) hcommit ?_ ?_ ?_ a' ha'
  · intro r hr
    rw [hrow] at hr
    cases hr
    exact ⟨rfl, rfl⟩
  · intro r hr
    rw [hrow] at hr
    cases hr
  · rintro w hw htarget r - ⟨hlink, hstatus⟩
    have hsame : ∀ b : LabAssignment, b ∈ s.db.labAssignments.rows → b.id = a.id → b = a := by
      intro b hb hid
      have hrow' := Table.get?_of_mem hb
      rw [hid, hrow] at hrow'
      exact (Option.some.inj hrow').symm
    cases h.assignments w hw with
    | insert row _ _ _ _ _ _ _ => exact ⟨hlink, hstatus⟩
    | reassign b templateId hb _ _ _ hvacant =>
      rw [hsame b hb htarget] at hvacant
      exact absurd hvacant.2 hlinked
    | drop b hb _ _ hunlinked _ =>
      rw [hsame b hb htarget] at hunlinked
      exact absurd hunlinked hlinked
    | keep b templateId hb _ _ _ _ _ => exact ⟨hlink, hstatus⟩

/-- An edit that keeps the pool of a lab with a VM. -/
theorem SetupCommit.keepsPool {body : LabSetupBody} {i : ℕ} {lab : Lab} {students : List ℕ}
    {s : Store} (h : SetupCommit body i lab students s.db ws)
    (hcommit : s.afterCommit ws = some db) {l : ℕ} {row : Lab}
    (hrow : s.db.labs.get? l = some row) (hlab : l = lab.id → row = lab)
    (hlinked : l = lab.id → ∃ a ∈ s.db.labAssignments.rows, a.labRunId = i ∧
      a.studentVmId ≠ none) :
    ∃ row', db.1.labs.get? l = some row' ∧ row'.defaultPoolId = row.defaultPoolId := by
  have hall := Store.applyAll_of_afterCommit hcommit
  obtain ⟨row', hrow'⟩ := Write.ofLabs.stays hall hrow
  refine ⟨row', hrow', ?_⟩
  refine Write.ofLabs.row_after (P := fun r => r.defaultPoolId = row.defaultPoolId) hall ?_ ?_ ?_
    row' hrow'
  · intro r hr
    have hr : s.db.labs.get? l = some r := hr
    rw [hrow] at hr
    cases hr
    rfl
  · intro r hr
    have hr : s.db.labs.get? l = none := hr
    rw [hrow] at hr
    cases hr
  · intro w hw htarget r _ hpool
    cases w with
    | insert r' => exact hpool
    | edit l' name description pool flags =>
      have hl : l' = l := htarget
      have hid : l = lab.id := hl.symm.trans (h.edits _ _ _ _ _ hw)
      rw [hlab hid]
      exact h.pool (hlinked hid) _ _ _ _ _ hw

/-- What the commit of an edit rests on is the same at every statement since it had its locks. -/
theorem Edited.sameSetup {body : LabSetupBody} {run : LabRun} {lab : Lab} {s₀ s : Store}
    {log : List Entry} (h : Edited p body t run lab s₀) (hlab : s₀.db.labs.get? lab.id = some lab)
    (hopen : (.lock (.assignmentsOfRun run.id), s₀) ∈ openTransaction p log)
    (hat : TransactionsAt log s) : SameSetup run lab s₀.db s.db := by
  obtain ⟨hkept, hlabs⟩ := hat p _ hopen
  have hstart : s₀.Kept p (s₀.exec p (.lock (.assignmentsOfRun run.id))) :=
    .exec (q := .lock (.assignmentsOfRun run.id)) trivial s₀
  have hrun : LockedRun p run s := (h.held.kept hstart).kept hkept
  have hroster : LockedRoster p run.id (s₀.exec p (.lock (.assignmentsOfRun run.id))) := by
    refine ⟨hstart.locks _ h.held.lock, ?_⟩
    intro a ha hrun
    refine List.mem_append_left _ (List.mem_map.mpr ⟨_, ?_, rfl⟩)
    exact List.mem_map.mpr ⟨a, List.mem_filter.mpr ⟨ha, decide_eq_true hrun⟩, rfl⟩
  refine ⟨hrun.row, ?_, hroster.same hkept⟩
  rw [hlabs run h.held, ← h.ofRun]
  exact hlab

/-- What the system knows of a commit of an edit makes it isolated. -/
theorem EditsIsolated.isolatedEdit {i : ℕ} {caller : Caller} {payload : LabSetupWrite}
    (h : EditsIsolated t) (hstmt : LockedStmt ok p (.commit ws) t)
    (hr : Entry.enter p (.editSetup caller i payload) ∈ t.log)
    (hcommit : t.store.afterCommit ws = some db) :
    ∃ since before run lab s₀,
      t.log = since ++ .stmt p (.lock (.assignmentsOfRun i)) s₀ :: before ∧
        IsolatedEdit p i payload.body ws t.store since s₀ run lab := by
  obtain ⟨r, hr', hground⟩ := hstmt.rests ws rfl
  rw [hstmt.logged.request p r _ hr' hr] at hground
  obtain ⟨lab, students, run, s₀, hsetup, rfl, hedited⟩ := hground
  have hsaves := hsetup.saves db hcommit
  have hchecked := checkEdit_ok hedited.checked
  obtain ⟨since, before, hlog, hopen⟩ := exists_of_mem_openTransaction hedited.stmt
  -- the lab was read before the locks were complete, but nobody has changed it since
  have hlab : s₀.db.labs.get? lab.id = some lab := by
    obtain ⟨s₁, hs₁, hheld₁, hrow⟩ := hedited.read
    obtain ⟨-, hlabs₁⟩ := h.now.transactions p _ hs₁
    obtain ⟨-, hlabs₀⟩ := h.now.transactions p _ hedited.stmt
    rw [hedited.ofRun] at hrow ⊢
    exact (hlabs₀ run hedited.held).symm.trans ((hlabs₁ run hheld₁).trans hrow)
  have hnow := hedited.sameSetup hlab hedited.stmt h.now.transactions
  obtain ⟨etag, hexpected, hsnapshot⟩ := hchecked.tagged
  refine ⟨since, before, run, lab, s₀, hlog, rfl, ?_, ⟨etag, hexpected, hsnapshot, ?_⟩, ?_, ?_,
    ?_⟩
  · refine ⟨hedited.held.row, ?_, fun _ _ => Iff.rfl⟩
    rw [← hedited.ofRun]
    exact hlab
  · exact fun _ _ _ => sameSettings_of_snapshot hsnapshot
  · rintro s' (rfl | ⟨p', q, hmem⟩)
    · exact hnow
    · obtain ⟨newer, older, rfl⟩ := List.append_of_mem hmem
      have hat : EditsAt (older ++ .stmt p (.lock (.assignmentsOfRun run.id)) s₀ :: before) s' := by
        refine h.before newer (.stmt p' q s') _ ?_ p' q s' rfl
        rw [hlog]
        simp
      refine hedited.sameSetup hlab (hopen (newer ++ [.stmt p' q s']) older ?_) hat.transactions
      simp
  · intro db' hcommit' a ha hlinked
    exact hsaves.keepsLinked hcommit' ha hlinked
  · intro db' hcommit' a ha hlinked row hrow l hl
    refine hsaves.keepsPool hcommit' hl ?_ ?_
    · intro hid
      have hl' := hnow.labRow
      rw [← hedited.ofRun, ← hid, hl] at hl'
      exact Option.some.inj hl'
    · -- the run of the assignment was there when the edit found no second run of the lab
      intro hid
      have hmem : Entry.stmt p (.lock (.assignmentsOfRun run.id)) s₀ ∈ t.log := by
        rw [hlog]
        exact List.mem_append_right _ List.mem_cons_self
      obtain ⟨old, hold, hsame⟩ := h.now.runs _ _ _ hmem _ _ hrow
      have halone := hchecked.alone old (Table.mem_of_get? hold) (hsame.trans hid)
      have holdId : old.id = a.labRunId := Table.get?_key hold
      exact ⟨a, ha, holdId.symm.trans halone, hlinked⟩

/-! ## Runs -/

/-- In every run in which only these requests are interleaved, every edit that commits is
isolated. -/
def EditsCommitIsolated (settings : Settings) (outside : Outside H) (t : Sys H) : Prop :=
  ∀ w, World.Reach (systemUnder settings outside amongEdits) (World.idle t) w →
    ∀ newer p ws s older, w.shared.log = newer ++ .stmt p (.commit ws) s :: older →
      (s.afterCommit ws).isSome →
        ∀ caller i payload, Entry.enter p (.editSetup caller i payload) ∈ older →
          ∃ since before run lab s₀,
            older = since ++ .stmt p (.lock (.assignmentsOfRun i)) s₀ :: before ∧
              IsolatedEdit p i payload.body ws s since s₀ run lab

/-- From an initial state every edit that commits next to requests of the scope is isolated. -/
theorem editsCommitIsolated (settings : Settings) (outside : Outside H) (t : Sys H)
    (ht : t.Initial) : EditsCommitIsolated settings outside t := by
  intro w hr newer p ws s older hlog hcommitted
  have heach := each_commit_of (P := fun p ws s older => (s.afterCommit ws).isSome →
    ∀ caller i payload, Entry.enter p (.editSetup caller i payload) ∈ older →
      ∃ since before run lab s₀,
        older = since ++ .stmt p (.lock (.assignmentsOfRun i)) s₀ :: before ∧
          IsolatedEdit p i payload.body ws s since s₀ run lab)
    editsIsolated_preserved ?_ ht (.initial ht) hr
  · exact heach newer _ older hlog p ws s rfl hcommitted
  · intro p ws t h hstmt hcommitted caller i payload hentered
    obtain ⟨db, hcommit⟩ := Option.isSome_iff_exists.mp hcommitted
    exact h.isolatedEdit hstmt hentered hcommit

end Isolation

/-- From the store of the fixture the edits that commit are isolated. -/
theorem Fixture.editsCommitIsolated_readyStore :
    EditsCommitIsolated {} Fixture.anything (Fixture.start Fixture.readyStore) :=
  editsCommitIsolated {} Fixture.anything (Fixture.start Fixture.readyStore) ⟨rfl, rfl⟩

end LabGoblin
