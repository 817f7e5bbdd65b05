import LabGoblin.Analysis.SavingSound
import LabGoblin.Analysis.Transitions

/-!
# What commits rest on under locks

Every commit of the endpoints that lock runs or assignments rests on rows that its process has
locked: in every run, whatever the interleaving. What is said of quotas and of closing a run
starts from `reach_locked`.
-/

set_option autoImplicit false

namespace LabGoblin

open Interactive

section LockConduct

variable {H : Type} {settings : Settings} {outside : Outside H} {ok : Condition H} {p : Pid}

/-- What a commit of the request rests on. -/
def Request.LockGround (r : Request) (p : Pid) (ws : List Write) (t : Sys H) : Prop :=
  match r with
  | .changeLabRunState _ runId action _ =>
      ∃ run nextState flushed, Transits p runId action ws t run nextState flushed
  | .createRunAssignment _ runId _ => ∃ run, AssignsLocked p runId ws t run
  | .bulkCreateRunAssignments _ runId _ => ∃ run, AssignsLocked p runId ws t run
  | .createVm _ _ => LinksLocked p ws t
  | .createSetup _ payload => ∃ run lab students,
      SetupGround p payload.body ws t run lab students ∧
        ∃ row, .run (.insert row) ∈ ws ∧ row.id = run
  | .editSetup _ runId payload => ∃ lab students row s,
      SetupGround p payload.body ws t runId lab students ∧ row.id = runId ∧
        Edited p payload.body t row lab s
  | _ => True

/-- The commit rests on what the request of its process requires. -/
def RestsOnLocks (p : Pid) (ws : List Write) (t : Sys H) : Prop :=
  ∃ r, Entry.enter p r ∈ t.log ∧ r.LockGround p ws t

/-- Assignments are inserted under the lock on their run, or with it. -/
theorem RestsOnLocks.insertsUnderLock {ws : List Write} {t : Sys H}
    {db : { db : Db // db.Constraints }} (hwell : WellLogged t.log)
    (hconducted : Stmt.Conducted p (.commit ws) t) (h : RestsOnLocks p ws t)
    (hcommit : t.store.afterCommit ws = some db) : InsertsUnderLock p ws t := by
  intro row hrow
  obtain ⟨r, hr, hground⟩ := h
  obtain ⟨r', hr', hconducts⟩ := hconducted
  have hwrite := hconducts ws rfl _ hrow
  rw [hwell.request p r' r hr' hr] at hwrite
  unfold Request.conducts at hwrite
  cases r with
  | createRunAssignment caller runId payload =>
    obtain ⟨run, hlocked, hid, -, hfills⟩ := hground
    cases hfills _ hrow with
    | insert row hrun _ _ _ _ =>
      rw [hrun, ← hid]
      exact Or.inl hlocked.lock
  | bulkCreateRunAssignments caller runId slots =>
    obtain ⟨run, hlocked, hid, -, hfills⟩ := hground
    cases hfills _ hrow with
    | insert row hrun _ _ _ _ =>
      rw [hrun, ← hid]
      exact Or.inl hlocked.lock
  | createSetup caller payload =>
    obtain ⟨run, lab, students, hsetup, hrun⟩ := hground
    cases (hsetup.saves db hcommit).assignments _ hrow with
    | insert row hrowRun _ _ _ _ _ _ =>
      rw [hrowRun]
      exact hsetup.under
  | editSetup caller runId payload =>
    obtain ⟨lab, students, run, s, hsetup, hid, hedited⟩ := hground
    cases (hsetup.saves db hcommit).assignments _ hrow with
    | insert row hrowRun _ _ _ _ _ _ =>
      rw [hrowRun]
      exact hsetup.under
  | operationWorker worker => exact hwrite.elim
  | createLabRun caller payload =>
    obtain ⟨run, hrun⟩ := hwrite.1
    cases hrun
  | revokeRunAssignment caller run a => cases hwrite.1
  | bulkVmAction caller run action =>
    obtain ⟨type, -, hqueues⟩ := hwrite.1
    exact hqueues.elim
  | _ => exact hwrite.1.elim

-- The checks of a body are not to be computed when a setup program meets its rule.
attribute [local irreducible] validateChoices in
/-- Every commit of every request rests on its locks. -/
theorem wp_restsOnLocks (r : Request) (p : Pid) (t : Sys H)
    (ht : entriesOf p t.log = [.enter p r]) :
    wp ((locking settings outside ok RestsOnLocks).contract p) (program settings r)
      (fun _ _ => True) t := by
  have henter := mem_of_entriesOf_enter ht
  cases r with
  | changeLabRunState caller runId action confirmation =>
    refine wp_discard ?_
    exact wp_changeLabRunState (fun _ _ _ _ _ hr h => ⟨_, hr, _, _, _, h⟩) ht
  | createRunAssignment caller runId payload =>
    refine wp_discard ?_
    exact wp_createRunAssignment (fun _ _ _ hr h => ⟨_, hr, _, h⟩) henter
  | bulkCreateRunAssignments caller runId slots =>
    refine wp_discard ?_
    exact wp_bulkCreateRunAssignments (fun _ _ _ hr h => ⟨_, hr, _, h⟩) henter
  | createVm caller payload =>
    refine wp_discard ?_
    exact wp_createVm_locked (fun _ _ hr h => ⟨_, hr, h⟩) henter
  | createSetup caller payload =>
    refine wp_discard (wp_writeSetup henter ?_)
    intro ws t' run lab students hr hsetup _ hnew
    exact ⟨_, hr, run, lab, students, hsetup, hnew rfl⟩
  | editSetup caller runId payload =>
    refine wp_discard (wp_writeSetup henter ?_)
    intro ws t' run lab students hr hsetup hedited _
    obtain ⟨row, s, rfl, hid, he⟩ := hedited runId rfl
    exact ⟨_, hr, lab, students, row, s, hsetup, hid, he⟩
  | _ => exact wp_conducted _ (fun _ _ hr _ => ⟨_, hr, trivial⟩) henter

/-- The discipline in which commits rest on locks is sound. -/
theorem restsOnLocks_sound (settings : Settings) (outside : Outside H) (ok : Condition H) :
    (locking settings outside ok RestsOnLocks).Sound :=
  locking_sound (fun _ _ _ _ hwell hconducted h hcommit =>
    h.insertsUnderLock hwell hconducted hcommit) wp_restsOnLocks

/-! ## Runs under locks -/

/-- The deployed system in the runs that meet a condition, with what the locks give. -/
def lockedSystem (settings : Settings) (outside : Outside H) (ok : Condition H) :
    System Api (Sys H) Request :=
  (locking settings outside ok RestsOnLocks).allowed

/-- What is known of every statement of a run. -/
structure LockedStmt (ok : Condition H) (p : Pid) (q : Stmt) (t : Sys H) : Prop where
  free : ∀ l ∈ q.needs t.store, t.store.FreeFor p l
  ok : ok.stmt p q t
  logged : WellLogged t.log
  present : Present p t
  conducted : q.Conducted p t
  exclusive : ExclusiveLocks t.store
  rests : ∀ ws, q = .commit ws → RestsOnLocks p ws t

/-- A statement that is enabled in the locked system keeps to its conduct. -/
theorem lockedStmt_of_enabled {q : Stmt} {t : Sys H}
    (h : (lockedSystem settings outside ok).machine.enabled p q t) : LockedStmt ok p q t := by
  obtain ⟨⟨⟨hfree, hok⟩, -, -, hconducted⟩, ⟨hwell, hexclusive⟩, hpresent, hrests⟩ := h
  exact ⟨hfree, hok, hwell, hpresent, hconducted, hexclusive, hrests⟩

/-- A call that is answered in the locked system keeps to its conduct. -/
theorem lockedCall_of_answer {c : Call} {t t' : Sys H} {reply : Except Exc c.Reply}
    (h : (lockedSystem settings outside ok).machine.answer p c t reply t') :
    ok.call p c t ∧ (c.mutating = true → c.Conducted p t) ∧
      ∃ hyper, outside.answer c t.hyper reply hyper ∧
        t' = { t with hyper := hyper, log := .reply p c reply :: .call p c t.store :: t.log } := by
  obtain ⟨-, ⟨-, -, hconducted⟩, hok, hanswer⟩ := h
  exact ⟨hok, hconducted, hanswer⟩

/-- What the environment does in the locked system it may do, under the condition. -/
theorem lockedEnv {t t' : Sys H} (h : (lockedSystem settings outside ok).env t t') :
    t.store.Environment t'.store ∧ t'.log = t.log ∧ ok.env t t' := by
  obtain ⟨-, -, ⟨henv, hlog⟩, hok⟩ := h
  exact ⟨henv, hlog, hok⟩

/-- A request that is admitted in the locked system may be started. -/
theorem lockedStart {r : Request} {t : Sys H}
    (h : (lockedSystem settings outside ok).admits r t) : ok.start r t := by
  obtain ⟨⟨⟨-, hok⟩, -⟩, -⟩ := h
  exact hok

/-- Every process that was started serves a request that the condition admits. -/
theorem started_preserved {P : Request → Prop} (hP : ∀ r (t : Sys H), ok.start r t → P r) :
    (lockedSystem settings outside ok).Preserves
      (fun t => ∀ p r, Entry.enter p r ∈ t.log → P r) where
  stmt := by
    intro p q t h _ p' r hr
    rcases List.mem_cons.mp hr with heq | hr
    · cases heq
    · exact h p' r hr
  call := by
    intro p c t reply t' h hanswer p' r hr
    obtain ⟨-, -, hyper, -, rfl⟩ := lockedCall_of_answer hanswer
    exact h p' r (by simpa using hr)
  enter := by
    intro r t h hadmits p' r' hr'
    rcases List.mem_cons.mp hr' with heq | hr'
    · cases heq
      exact hP r t (lockedStart hadmits)
    · exact h p' r' hr'
  leave := by
    intro p t h p' r hr
    rcases List.mem_cons.mp hr with heq | hr
    · cases heq
    · exact h p' r hr
  env := by
    intro t t' h henv
    rw [(lockedEnv henv).2.1]
    exact h

/-- The database has a property now and had it at every statement so far. -/
structure Throughout (D : Db → Prop) (t : Sys H) : Prop where
  now : D t.store.db
  before : ∀ p q s, Entry.stmt p q s ∈ t.log → D s.db

/-- What held at every statement holds after one more entry. -/
theorem Throughout.cons {D : Db → Prop} {t t' : Sys H} (h : Throughout D t) {e : Entry}
    (hlog : t'.log = e :: t.log) (hnow : D t'.store.db)
    (he : ∀ p q s, e = .stmt p q s → D s.db) : Throughout D t' where
  now := hnow
  before := by
    intro p q s hmem
    rw [hlog] at hmem
    rcases List.mem_cons.mp hmem with heq | hmem
    · exact he p q s heq.symm
    · exact h.before p q s hmem

/-- A property of the rows that every commit preserves holds throughout. -/
theorem throughout_preserved {D : Db → Prop} (hrows : ∀ db db', D db → db.SameRows db' → D db')
    (hcommit : ∀ p ws (t : Sys H) db, Throughout D t → LockedStmt ok p (.commit ws) t →
      t.store.afterCommit ws = some db → D db.1) :
    (lockedSystem settings outside ok).Preserves (Throughout D) where
  stmt := by
    intro p q t h henabled
    have hstmt := lockedStmt_of_enabled henabled
    refine h.cons rfl ?_ ?_
    · show D (t.store.exec p q).db
      rcases Store.exec_cases p q t.store with ⟨ws, db, rfl, hws, hdb, -⟩ | ⟨-, -, hsame⟩
      · rw [hdb]
        exact hcommit p ws t db h hstmt hws
      · exact hrows _ _ h.now hsame
    · intro p' q' s heq
      cases heq
      exact h.now
  call := by
    intro p c t r t' h hanswer
    obtain ⟨-, -, hyper, -, rfl⟩ := lockedCall_of_answer hanswer
    have hcall : Throughout D { t with log := .call p c t.store :: t.log } :=
      h.cons rfl h.now (by simp)
    exact hcall.cons rfl h.now (by simp)
  enter := fun r t h _ => h.cons (e := .enter (started t.log) r) rfl h.now (by simp)
  leave := fun p t h => h.cons (e := .leave p) rfl h.now (by simp)
  env := by
    intro t t' h henv
    obtain ⟨henv, hlog, -⟩ := lockedEnv henv
    refine ⟨hrows _ _ h.now henv.sameRows, ?_⟩
    rw [hlog]
    exact h.before

/-- At the beginning the property holds throughout as soon as it holds. -/
theorem throughout_initial {D : Db → Prop} {t : Sys H} (ht : t.Initial) (h : D t.store.db) :
    Throughout D t where
  now := h
  before := by
    intro p q s hmem
    rw [ht.log] at hmem
    cases hmem

variable {t : Sys H} {w w' : World Api (Sys H)}

/-- Every run from an initial state is one in which the locks are kept. -/
theorem reach_locked (ht : t.Initial)
    (hr : World.Reach (systemUnder settings outside ok) (World.idle t) w) :
    World.Reach (lockedSystem settings outside ok) (World.idle t) w :=
  reach_locking (restsOnLocks_sound settings outside ok) ht hr

/-- A run of the system is a run of the locked system, from every state that it reaches. -/
theorem reach_locked_from (ht : t.Initial)
    (hr : World.Reach (systemUnder settings outside ok) (World.idle t) w)
    (hr' : World.Reach (systemUnder settings outside ok) w w') :
    World.Reach (lockedSystem settings outside ok) w w' :=
  reach_locking_from (restsOnLocks_sound settings outside ok) ht hr hr'

/-- What holds of every commit when it is made, under an invariant, holds of all those that a run
has made. -/
theorem each_commit_of {I : Sys H → Prop} {P : Pid → List Write → Store → List Entry → Prop}
    (hI : (lockedSystem settings outside ok).Preserves I)
    (hP : ∀ p ws (t : Sys H), I t → LockedStmt ok p (.commit ws) t → P p ws t.store t.log)
    (ht : t.Initial) (hstart : I t)
    (hr : World.Reach (systemUnder settings outside ok) (World.idle t) w) :
    EachAfter (fun e older => ∀ p ws s, e = .stmt p (.commit ws) s → P p ws s older)
      w.shared.log := by
  have hpreserved : (lockedSystem settings outside ok).Preserves (fun t => I t ∧ EachAfter
      (fun e older => ∀ p ws s, e = .stmt p (.commit ws) s → P p ws s older) t.log) := by
    constructor
    · intro p q t ⟨hinv, h⟩ henabled
      refine ⟨hI.stmt p q t hinv henabled, EachAfter.cons h ?_⟩
      intro p' ws s heq
      cases heq
      exact hP p ws t hinv (lockedStmt_of_enabled henabled)
    · intro p c t r t' ⟨hinv, h⟩ hanswer
      refine ⟨hI.call p c t r t' hinv hanswer, ?_⟩
      obtain ⟨-, -, hyper, -, rfl⟩ := lockedCall_of_answer hanswer
      exact EachAfter.cons (EachAfter.cons h (by simp)) (by simp)
    · exact fun r t ⟨hinv, h⟩ hadmits => ⟨hI.enter r t hinv hadmits, EachAfter.cons h (by simp)⟩
    · exact fun p t ⟨hinv, h⟩ => ⟨hI.leave p t hinv, EachAfter.cons h (by simp)⟩
    · intro t t' ⟨hinv, h⟩ henv
      refine ⟨hI.env t t' hinv henv, ?_⟩
      rw [(lockedEnv henv).2.1]
      exact h
  refine (hpreserved.of_reach ⟨hstart, ?_⟩ (reach_locked ht hr)).2
  show EachAfter _ t.log
  rw [ht.log]
  exact EachAfter.nil _

/-- What holds of every commit when it is made holds of all those that a run has made. -/
theorem each_commit {P : Pid → List Write → Store → List Entry → Prop}
    (hP : ∀ p ws (t : Sys H), LockedStmt ok p (.commit ws) t → P p ws t.store t.log)
    (ht : t.Initial) (hr : World.Reach (systemUnder settings outside ok) (World.idle t) w) :
    EachAfter (fun e older => ∀ p ws s, e = .stmt p (.commit ws) s → P p ws s older)
      w.shared.log :=
  each_commit_of (I := fun _ => True) ⟨fun _ _ _ _ _ => trivial, fun _ _ _ _ _ _ _ => trivial,
    fun _ _ _ _ => trivial, fun _ _ _ => trivial, fun _ _ _ _ => trivial⟩
    (fun p ws t _ => hP p ws t) ht trivial hr

end LockConduct

end LabGoblin
