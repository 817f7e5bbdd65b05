import LabGoblin.Analysis.ConductSound
import LabGoblin.Analysis.Transaction

/-!
# What row locks keep

A discipline on top of the conduct of the system. While a process holds the lock on a row, the
row stays as it is; and because every assignment is inserted under the lock on its run, a locked
run gets no assignment either. Nobody ever changes the student, run or slot of an assignment.

What is said of interleaved transactions, on quotas, edits and assignments, instantiates `ground`,
what a commit of a process rests on when it happens; `locking_sound` reduces it to the programs.
-/

set_option autoImplicit false

namespace LabGoblin

open Interactive

/-! ## Locked rows -/

/-- Two states of the row of one assignment: it is for the same slot. -/
structure LabAssignment.SamePlace (a a' : LabAssignment) : Prop where
  id : a'.id = a.id
  organizationId : a'.organizationId = a.organizationId
  labRunId : a'.labRunId = a.labRunId
  userId : a'.userId = a.userId
  slotIndex : a'.slotIndex = a.slotIndex

/-- An assignment is in its own place. -/
theorem LabAssignment.SamePlace.refl (a : LabAssignment) : a.SamePlace a :=
  ⟨rfl, rfl, rfl, rfl, rfl⟩

/-- Being in the same place is transitive. -/
theorem LabAssignment.SamePlace.trans {a b c : LabAssignment} (h : a.SamePlace b)
    (h' : b.SamePlace c) : a.SamePlace c :=
  ⟨h'.id.trans h.id, h'.organizationId.trans h.organizationId, h'.labRunId.trans h.labRunId,
    h'.userId.trans h.userId, h'.slotIndex.trans h.slotIndex⟩

/-- No write moves an assignment to another slot. -/
theorem AssignmentWrite.onRow_samePlace (w : AssignmentWrite) (a : LabAssignment) :
    a.SamePlace (w.onRow a) := by
  cases w <;> exact ⟨rfl, rfl, rfl, rfl, rfl⟩

/-- What a process may count on after its transaction has gone on for a while. -/
structure Store.Kept (p : Pid) (s s' : Store) : Prop where
  locks : ∀ l, (l, p) ∈ s.locks → (l, p) ∈ s'.locks
  runs : ∀ i, (.labRun i, p) ∈ s.locks → s'.db.labRuns.get? i = s.db.labRuns.get? i
  assignments : ∀ i, (.labAssignment i, p) ∈ s.locks →
    s'.db.labAssignments.get? i = s.db.labAssignments.get? i
  places : ∀ i a, s.db.labAssignments.get? i = some a →
    ∃ a', s'.db.labAssignments.get? i = some a' ∧ a.SamePlace a'
  roster : ∀ i, (.labRun i, p) ∈ s.locks → ∀ a ∈ s'.db.labAssignments.rows,
    a.labRunId = i → (s.db.labAssignments.get? a.id).isSome
  operations : ∀ i o, s.db.durableOperations.get? i = some o →
    ∃ o', s'.db.durableOperations.get? i = some o' ∧ o.SameJob o'
  present : ∀ i, s'.db.labRuns.get? i = none → s.db.labRuns.get? i = none

section Kept

variable {p : Pid}

/-- With the same rows and no lock lost, everything that is locked is kept. -/
theorem Store.Kept.of_rows {s s' : Store} (hlocks : ∀ l, (l, p) ∈ s.locks → (l, p) ∈ s'.locks)
    (hrows : s.db.SameRows s'.db) : s.Kept p s' where
  locks := hlocks
  runs := by
    intro i _
    unfold Table.get?
    rw [hrows.labRuns]
  assignments := fun i _ => hrows.assignment i
  places := fun i a ha => ⟨a, (hrows.assignment i).trans ha, .refl a⟩
  roster := by
    intro i _ a ha _
    rw [hrows.labAssignments] at ha
    rw [Table.get?_of_mem ha]
    rfl
  operations := fun i o ho => ⟨o, (hrows.operation i).trans ho, .refl o⟩
  present := by
    intro i hi
    unfold Table.get? at hi ⊢
    rwa [hrows.labRuns] at hi

/-- Nothing happening keeps everything. -/
theorem Store.Kept.refl (p : Pid) (s : Store) : s.Kept p s :=
  .of_rows (fun _ h => h) (.refl _)

/-- What is kept twice is kept. -/
theorem Store.Kept.trans {a b c : Store} (h : a.Kept p b) (h' : b.Kept p c) : a.Kept p c where
  locks := fun l hl => h'.locks l (h.locks l hl)
  runs := fun i hi => (h'.runs i (h.locks _ hi)).trans (h.runs i hi)
  assignments := fun i hi => (h'.assignments i (h.locks _ hi)).trans (h.assignments i hi)
  places := by
    intro i x hx
    obtain ⟨y, hy, hxy⟩ := h.places i x hx
    obtain ⟨z, hz, hyz⟩ := h'.places i y hy
    exact ⟨z, hz, hxy.trans hyz⟩
  roster := by
    intro i hi x hx hrun
    obtain ⟨y, hy⟩ := Option.isSome_iff_exists.mp (h'.roster i (h.locks _ hi) x hx hrun)
    obtain ⟨z, hz, hyz⟩ := h'.places _ y hy
    rw [Table.get?_of_mem hx] at hz
    cases hz
    have hid : y.id = x.id := Table.get?_key hy
    rw [← hid]
    exact h.roster i hi y (Table.mem_of_get? hy) (hyz.labRunId.symm.trans hrun)
  operations := by
    intro i x hx
    obtain ⟨y, hy, hxy⟩ := h.operations i x hx
    obtain ⟨z, hz, hyz⟩ := h'.operations i y hy
    exact ⟨z, hz, hxy.trans hyz⟩
  present := fun i hi => h.present i (h'.present i hi)

/-- A process reads within its transaction. -/
theorem Store.Kept.exec {q : Stmt} (hq : q.reads) (s : Store) : s.Kept p (s.exec p q) := by
  refine Store.Kept.of_rows ?_ ?_
  · intro l hl
    cases q with
    | lock lq => exact List.mem_append_right _ hl
    | commit ws => exact hq.elim
    | rollback => exact hq.elim
    | _ => exact hl
  · cases q with
    | draw sq => exact Db.SameRows.draw _ _
    | commit ws => exact hq.elim
    | rollback => exact hq.elim
    | _ => exact Db.SameRows.refl _

/-- The process holds the lock on the run, and has read its row under it. -/
structure LockedRun (p : Pid) (run : LabRun) (s : Store) : Prop where
  lock : (.labRun run.id, p) ∈ s.locks
  row : s.db.labRuns.get? run.id = some run

/-- A run that is locked stays as it was found. -/
theorem LockedRun.kept {run : LabRun} {s s' : Store} (h : LockedRun p run s)
    (hkept : s.Kept p s') : LockedRun p run s' :=
  ⟨hkept.locks _ h.lock, (hkept.runs _ h.lock).trans h.row⟩

end Kept

/-- A statement that reads goes into its transaction. -/
theorem openTransaction_read {q : Stmt} (hq : q.reads) (p : Pid) (s : Store) (log : List Entry) :
    openTransaction p (.stmt p q s :: log) = (q, s) :: openTransaction p log := by
  have hpid : (Entry.stmt p q s).pid = p := rfl
  unfold openTransaction
  rw [entriesOf_cons_self log hpid]
  cases q with
  | commit ws => exact hq.elim
  | rollback => exact hq.elim
  | _ => rfl

/-- The transaction of `p` that has come to `t₁` goes on to `t`. -/
structure Within {H : Type} (p : Pid) (t₁ t : Sys H) : Prop where
  log : t₁.log <:+ t.log
  kept : t₁.store.Kept p t.store
  since : ∀ x ∈ openTransaction p t₁.log, x ∈ openTransaction p t.log

/-- A process is within its transaction while nothing happens. -/
theorem Within.refl {H : Type} (p : Pid) (t : Sys H) : Within p t t :=
  ⟨List.suffix_refl _, .refl p _, fun _ h => h⟩

/-- Two parts of a transaction make one. -/
theorem Within.trans {H : Type} {p : Pid} {a b c : Sys H} (h : Within p a b)
    (h' : Within p b c) : Within p a c :=
  ⟨h.log.trans h'.log, h.kept.trans h'.kept, fun x hx => h'.since x (h.since x hx)⟩

/-- The others act within a transaction. -/
theorem Within.rely {H : Type} {p : Pid} {t₁ t t' : Sys H} (h : Within p t₁ t)
    (hr : Rely p t t') (hkept : t.store.Kept p t'.store) : Within p t₁ t' where
  log := h.log.trans hr.log
  kept := h.kept.trans hkept
  since := by
    have hsame : openTransaction p t'.log = openTransaction p t.log := by
      unfold openTransaction
      rw [hr.entries]
    rw [hsame]
    exact h.since

/-- A statement that reads belongs to its transaction. -/
theorem Within.read {H : Type} (outside : Outside H) {p : Pid} {t₁ t : Sys H} {q : Stmt}
    (h : Within p t₁ t) (hq : q.reads) : Within p t₁ ((machine outside).exec p q t) where
  log := h.log.trans (List.suffix_cons _ _)
  kept := h.kept.trans (.exec hq _)
  since := by
    intro x hx
    show x ∈ openTransaction p (.stmt p q t.store :: t.log)
    rw [openTransaction_read hq]
    exact List.mem_cons_of_mem _ (h.since x hx)

/-! ## The discipline -/

/-- No lock is held twice. -/
def ExclusiveLocks (s : Store) : Prop :=
  ∀ l p p', (l, p) ∈ s.locks → (l, p') ∈ s.locks → p = p'

/-- The assignments that a commit inserts belong to runs that the process has locked, or that
the same commit inserts. -/
def InsertsUnderLock {H : Type} (p : Pid) (ws : List Write) (t : Sys H) : Prop :=
  ∀ row, .assignment (.insert row) ∈ ws →
    (.labRun row.labRunId, p) ∈ t.store.locks ∨
      ∃ run, .run (.insert run) ∈ ws ∧ run.id = row.labRunId

/-- A condition on the steps of a run: on the request, statement or call that a step starts
with and the state before it, and on what the environment does. -/
structure Condition (H : Type) where
  start : Request → Sys H → Prop := fun _ _ => True
  stmt : Pid → Stmt → Sys H → Prop := fun _ _ _ => True
  call : Pid → Call → Sys H → Prop := fun _ _ _ => True
  env : Sys H → Sys H → Prop := fun _ _ => True

/-- The deployed system in the runs that meet a condition. -/
def systemUnder {H : Type} (settings : Settings) (outside : Outside H) (ok : Condition H) :
    System Api (Sys H) Request :=
  ((system settings outside).restrict ok.start ok.stmt ok.call).confine ok.env

/-- The conduct of the deployed system in the runs that meet a condition. -/
def conductUnder {H : Type} (settings : Settings) (outside : Outside H) (ok : Condition H) :
    Discipline Api (Sys H) Request :=
  ((conduct settings outside).restrict ok.start ok.stmt ok.call).confine ok.env

/-- The conduct of the system is sound under every condition. -/
theorem conductUnder_sound {H : Type} (settings : Settings) (outside : Outside H)
    (ok : Condition H) : (conductUnder settings outside ok).Sound :=
  ((conduct_sound settings outside).restrict ok.start ok.stmt ok.call).confine ok.env

section Locking

variable {H : Type} {settings : Settings} {outside : Outside H} {ok : Condition H}
  {ground : Pid → List Write → Sys H → Prop} {p : Pid}

/-- The discipline of the runs that meet a condition, in which every commit is grounded. -/
def locking (settings : Settings) (outside : Outside H) (ok : Condition H)
    (ground : Pid → List Write → Sys H → Prop) : Discipline Api (Sys H) Request where
  sys := (conductUnder settings outside ok).allowed
  inv := fun t => WellLogged t.log ∧ ExclusiveLocks t.store
  present := Present
  rely := fun p t t' => Rely p t t' ∧ t.store.Kept p t'.store
  allowsStmt := fun p q t => ∀ ws, q = .commit ws → ground p ws t
  allowsCall := fun _ _ _ => True

/-- A statement drops the locks of the process that runs it, or keeps them and adds those it
needs. -/
theorem locks_exec (p : Pid) (q : Stmt) (s : Store) {e : Lock × Pid} (he : e ∈ (s.exec p q).locks) :
    e ∈ s.locks ∨ e.2 = p ∧ e.1 ∈ q.needs s := by
  have hrelease : ∀ s' : Store, s'.locks = s.locks → e ∈ (s'.release p).locks → e ∈ s.locks := by
    intro s' hs' he
    have := (List.mem_filter.mp he).1
    rwa [hs'] at this
  cases q with
  | lock lq =>
    rcases List.mem_append.mp he with he | he
    · obtain ⟨l, hl, rfl⟩ := List.mem_map.mp he
      exact Or.inr ⟨rfl, hl⟩
    · exact Or.inl he
  | commit ws =>
    cases h : s.afterCommit ws with
    | none =>
      rw [Store.exec_commit_none h] at he
      exact Or.inl (hrelease _ rfl he)
    | some db =>
      rw [Store.exec_commit_some h] at he
      exact Or.inl (hrelease _ rfl he)
  | rollback => exact Or.inl (hrelease _ rfl he)
  | _ => exact Or.inl he

/-- A statement that needs free locks only keeps the locks exclusive. -/
theorem ExclusiveLocks.exec {s : Store} (h : ExclusiveLocks s) {q : Stmt}
    (henabled : ∀ l ∈ q.needs s, s.FreeFor p l) : ExclusiveLocks (s.exec p q) := by
  intro l p₁ p₂ h₁ h₂
  rcases locks_exec p q s h₁ with h₁ | ⟨h₁, hl⟩
  · rcases locks_exec p q s h₂ with h₂ | ⟨h₂, hl⟩
    · exact h l p₁ p₂ h₁ h₂
    · exact (henabled l hl _ h₁ rfl).trans h₂.symm
  · rcases locks_exec p q s h₂ with h₂ | ⟨h₂, -⟩
    · exact h₁.trans (henabled l hl _ h₂ rfl).symm
    · exact h₁.trans h₂.symm

/-- Releasing locks keeps the others exclusive. -/
theorem ExclusiveLocks.release {s : Store} (h : ExclusiveLocks s) (p : Pid) :
    ExclusiveLocks (s.release p) := by
  intro l p₁ p₂ h₁ h₂
  exact h l p₁ p₂ (List.mem_filter.mp h₁).1 (List.mem_filter.mp h₂).1

/-- A row that is there after a commit was there before, or the commit inserted it. -/
theorem assignment_before {s : Store} {ws : List Write} {db : { db : Db // db.Constraints }}
    (h : s.afterCommit ws = some db) {a : LabAssignment} (ha : a ∈ db.1.labAssignments.rows) :
    (∃ b, s.db.labAssignments.get? a.id = some b ∧ b.SamePlace a) ∨
      ∃ b, .assignment (.insert b) ∈ ws ∧ b.SamePlace a := by
  refine Store.assignment_afterCommit (P := fun r =>
    (∃ b, s.db.labAssignments.get? a.id = some b ∧ b.SamePlace r) ∨
      ∃ b, .assignment (.insert b) ∈ ws ∧ b.SamePlace r) h ?_ ?_ ?_ a (Table.get?_of_mem ha)
  · exact fun r hr => Or.inl ⟨r, hr, .refl r⟩
  · exact fun r _ hmem _ => Or.inr ⟨r, hmem, .refl r⟩
  · rintro w _ _ r _ (⟨b, hb, hplace⟩ | ⟨b, hb, hplace⟩)
    · exact Or.inl ⟨b, hb, hplace.trans (w.onRow_samePlace r)⟩
    · exact Or.inr ⟨b, hb, hplace.trans (w.onRow_samePlace r)⟩

/-- A commit keeps what another process has locked. -/
theorem kept_exec {q : Stmt} {t : Sys H} {p' : Pid} (hexclusive : ExclusiveLocks t.store)
    (hne : p' ≠ p) (henabled : ∀ l ∈ q.needs t.store, t.store.FreeFor p l)
    (hoperations : ∀ i o, t.store.db.durableOperations.get? i = some o →
      ∃ o', (t.store.exec p q).db.durableOperations.get? i = some o' ∧ o.SameJob o')
    (hground : ∀ ws db, q = .commit ws → t.store.afterCommit ws = some db →
      InsertsUnderLock p ws t) :
    t.store.Kept p' (t.store.exec p q) := by
  have hlocks : ∀ l, (l, p') ∈ t.store.locks → (l, p') ∈ (t.store.exec p q).locks :=
    fun l hl => exec_locks hne hl
  have hfree : ∀ {l : Lock}, (l, p') ∈ t.store.locks → l ∉ q.needs t.store :=
    fun hl hneeds => hne (henabled _ hneeds _ hl rfl)
  rcases Store.exec_cases p q t.store with ⟨ws, db, rfl, hcommit, hdb, -⟩ | ⟨-, -, hsame⟩
  · have hneeds : ∀ {w : Write} {l : Lock}, w ∈ ws → w.lock = some l →
        l ∈ (Stmt.commit ws).needs t.store := by
      intro w l hw hl
      exact List.mem_filterMap.mpr ⟨w, hw, hl⟩
    refine ⟨hlocks, ?_, ?_, ?_, ?_, hoperations, ?_⟩
    · intro i hi
      rw [hdb]
      refine Store.run_untouched hcommit ?_
      rintro w hw rfl
      exact hfree hi (hneeds hw rfl)
    · intro i hi
      rw [hdb]
      refine Store.assignment_untouched hcommit ?_
      rintro w hw rfl
      exact hfree hi (hneeds hw rfl)
    · intro i a ha
      rw [hdb]
      obtain ⟨a', ha'⟩ := Store.assignment_stays hcommit ha
      refine ⟨a', ha', ?_⟩
      rcases assignment_before hcommit (Table.mem_of_get? ha') with
        ⟨b, hb, hplace⟩ | ⟨b, hb, hplace⟩
      · rw [Table.get?_key ha', ha] at hb
        cases hb
        exact hplace
      · have hfresh := Store.assignment_fresh hcommit hb
        rw [← hplace.id, Table.get?_key ha', ha] at hfresh
        cases hfresh
    · intro i hi a ha hrun
      rw [hdb] at ha
      rcases assignment_before hcommit ha with ⟨b, hb, -⟩ | ⟨b, hb, hplace⟩
      · rw [hb]
        rfl
      · exfalso
        rcases hground ws db rfl hcommit b hb with hlock | ⟨run, hrunins, hid⟩
        · rw [← hplace.labRunId, hrun] at hlock
          exact hne (hexclusive _ _ _ hi hlock)
        · refine hfree hi (hneeds hrunins ?_)
          show some (Lock.labRun run.id) = _
          rw [hid, ← hplace.labRunId, hrun]
    · intro i hi
      rw [hdb] at hi
      cases hrow : t.store.db.labRuns.get? i with
      | none => rfl
      | some run =>
        obtain ⟨run', hrun'⟩ := Store.run_stays hcommit hrow
        rw [hrun'] at hi
        cases hi
  · exact Store.Kept.of_rows hlocks hsame

/-- Where every commit inserts assignments under the lock on their run, the discipline is sound
as soon as the programs keep it. -/
theorem locking_sound (hbase : ∀ p ws t db, WellLogged t.log →
      Stmt.Conducted p (.commit ws) t → ground p ws t → t.store.afterCommit ws = some db →
      InsertsUnderLock p ws t)
    (hprogram : ∀ r p (t : Sys H), entriesOf p t.log = [.enter p r] →
      wp ((locking settings outside ok ground).contract p)
        (program settings r) (fun _ _ => True) t) :
    (locking settings outside ok ground).Sound where
  refl := fun p t => ⟨.refl p t, .refl p _⟩
  trans := fun _ _ _ _ h h' => ⟨h.1.trans h'.1, h.2.trans h'.2⟩
  stable := fun _ _ _ h hr => h.rely hr.1
  stmt := by
    rintro p q t ⟨hwell, hexclusive⟩ hpresent ⟨henabled, -, -, hconducted⟩ hallows
    obtain ⟨⟨hwell', hrely⟩, hpresent'⟩ :=
      (conductUnder_sound settings outside ok).stmt p q t hwell hpresent henabled hconducted
    refine ⟨⟨⟨hwell', hexclusive.exec henabled.1⟩, fun p' hne => ⟨hrely p' hne, ?_⟩⟩, hpresent'⟩
    exact kept_exec hexclusive hne henabled.1 (exec_operations hconducted)
      fun ws db hws hcommit => hbase p ws t db hwell (hws ▸ hconducted) (hallows ws hws) hcommit
  call := by
    rintro p c t r t' ⟨hwell, hexclusive⟩ hpresent _ ⟨⟨-, -, hcall⟩, hanswer⟩
    obtain ⟨⟨hwell', hrely⟩, hpresent'⟩ :=
      (conductUnder_sound settings outside ok).call p c t r t' hwell hpresent hcall hanswer
    obtain ⟨-, hyper, -, rfl⟩ := hanswer
    exact ⟨⟨⟨hwell', hexclusive⟩, fun p' hne => ⟨hrely p' hne, .refl p' _⟩⟩, hpresent'⟩
  enter := by
    rintro r t ⟨hwell, hexclusive⟩ ⟨hadmits, -⟩
    obtain ⟨⟨hwell', hrely⟩, hpresent'⟩ :=
      (conductUnder_sound settings outside ok).enter r t hwell hadmits
    exact ⟨⟨⟨hwell', hexclusive⟩, fun p' hne => ⟨hrely p' hne, .refl p' _⟩⟩, hpresent'⟩
  leave := by
    rintro p t ⟨hwell, hexclusive⟩ hpresent
    obtain ⟨hwell', hrely⟩ := (conductUnder_sound settings outside ok).leave p t hwell hpresent
    refine ⟨⟨hwell', hexclusive.release p⟩, fun p' hne => ⟨hrely p' hne, ?_⟩⟩
    refine Store.Kept.of_rows ?_ (.refl _)
    intro l hl
    show (l, p') ∈ (t.store.release p).locks
    simp [Store.release, hl, hne]
  env := by
    rintro t t' ⟨hwell, hexclusive⟩ ⟨-, henv⟩
    obtain ⟨hwell', hrely⟩ := (conductUnder_sound settings outside ok).env t t' hwell henv
    have hstore : t.store.Environment t'.store := henv.1.1
    refine ⟨⟨hwell', ?_⟩, fun p => ⟨hrely p, ?_⟩⟩
    · unfold ExclusiveLocks
      rw [hstore.locks]
      exact hexclusive
    · refine Store.Kept.of_rows ?_ hstore.sameRows
      intro l hl
      rw [hstore.locks]
      exact hl
  program := by
    intro r t hinv _
    refine hprogram r _ _ ?_
    have hpid : (Entry.enter (started t.log) r).pid = started t.log := rfl
    show entriesOf (started t.log) (.enter (started t.log) r :: t.log) = _
    rw [entriesOf_cons_self _ hpid, hinv.1.entriesOf_started]
    rfl

/-! ## Rules for programs -/

/-- Within its transaction a process keeps what it has locked. -/
theorem within_tolerates (t₁ : Sys H) (s : Store) :
    ((locking settings outside ok ground).contract p).Tolerates
      (fun t => Within p t₁ t ∧ s.Kept p t.store) Stmt.reads (fun _ => True) where
  stable := fun t t' h hr _ => ⟨h.1.rely hr.1 hr.2, h.2.trans hr.2⟩
  stmt := by
    intro q t hq _ h _
    refine ⟨?_, h.1.read outside hq, h.2.trans (.exec hq _)⟩
    rintro ws rfl
    exact hq.elim
  call := by
    rintro c t _ _ h
    refine ⟨trivial, ?_⟩
    rintro r t' ⟨-, -, hyper, -, rfl⟩
    have hlog : t.log <:+ Entry.reply p c r :: .call p c t.store :: t.log :=
      (List.suffix_cons _ _).trans (List.suffix_cons _ _)
    refine ⟨⟨h.1.log.trans hlog, h.1.kept, ?_⟩, h.2⟩
    intro x hx
    show x ∈ openTransaction p (.reply p c r :: .call p c t.store :: t.log)
    rw [openTransaction_call]
    exact h.1.since x hx

/-- A part of a transaction that only reads. -/
theorem wp_reads {α : Type} {R : α → Store → Prop} {prog : Action α} {t₁ t : Sys H}
    (ht : Within p t₁ t) (hprog : Reads (Store.Kept p) R prog t.store) :
    wp ((locking settings outside ok ground).contract p) prog
      (fun r t' => Within p t₁ t' ∧ ∀ a, r = .ok a → ∃ s, s.Kept p t'.store ∧ R a s) t := by
  have hreads : Program.EnsuresAlong (G := Api) (Store.Kept p) Stmt.reads R prog t.store := hprog
  exact wp_of_ensuresAlong
    (C := (locking settings outside ok ground).contract p)
    (J := Within p t₁) (Store.Kept.refl p) (within_tolerates t₁) hreads ⟨ht, .refl p _⟩

/-- A part of a transaction that only reads, and the rest of it. -/
theorem wp_reading {α β : Type} {R : α → Store → Prop} {prog : Action α} {f : α → Action β}
    {Q : Post Api (Sys H) β} {t₁ t : Sys H} (ht : Within p t₁ t)
    (hprog : Reads (Store.Kept p) R prog t.store)
    (hf : ∀ a s t', Within p t₁ t' → s.Kept p t'.store → R a s →
      wp ((locking settings outside ok ground).contract p) (f a) Q t')
    (herr : ∀ e t', Within p t₁ t' → Q (.error e) t') :
    wp ((locking settings outside ok ground).contract p) (prog >>= f) Q t := by
  refine wp_seq (wp_reads ht hprog) ?_ ?_
  · intro a t' h
    obtain ⟨s, hs, hR⟩ := h.2 a rfl
    exact hf a s t' h.1 hs hR
  · intro e t' h
    exact herr e t' h.1

/-- A statement that reads, and the rest of the transaction. -/
theorem wp_readStmt {β : Type} {q : Stmt} {f : Store → Action β} {Q : Post Api (Sys H) β}
    {t₁ t : Sys H} (ht : Within p t₁ t) (hq : q.reads)
    (hf : ∀ t', Within p t₁ t' → t.store.Kept p t'.store →
      entriesOf p t'.log = entriesOf p t.log → Within p t₁ ((machine outside).exec p q t') →
      wp ((locking settings outside ok ground).contract p) (f t'.store) Q
        ((machine outside).exec p q t')) :
    wp ((locking settings outside ok ground).contract p)
      (Program.run (G := Api) q >>= f) Q t := by
  rw [wp_run_bind]
  intro t' hr hinv henabled
  have hnow : Within p t₁ t' := ht.rely hr.1 hr.2
  refine ⟨?_, hf t' hnow hr.2 hr.1.entries (hnow.read outside hq)⟩
  rintro ws rfl
  exact hq.elim

/-- A commit that is grounded, and nothing to hold after it but what holds of the log. -/
theorem wp_grounded {ws : List Write} {Q : Post Api (Sys H) Unit} {t₁ t : Sys H}
    (ht : Within p t₁ t) (hground : ∀ t', Within p t₁ t' → ground p ws t')
    (hQ : ∀ r t', t₁.log <:+ t'.log → Q r t') :
    wp ((locking settings outside ok ground).contract p) (commit ws) Q t := by
  rw [wp_commit]
  intro t' hr _ henabled
  have h : Within p t₁ t' := ht.rely hr.1 hr.2
  have hlog : t₁.log <:+ Entry.stmt p (.commit ws) t'.store :: t'.log :=
    h.log.trans (List.suffix_cons _ _)
  refine ⟨?_, fun _ => hQ _ _ hlog, fun _ _ => hQ _ _ hlog⟩
  rintro ws' hws
  injection hws with hws
  rw [← hws]
  exact hground t' h

/-- A request whose conducted commits are all grounded keeps the discipline, whatever its
program. -/
theorem wp_conducted {α : Type} {r : Request} (prog : Action α)
    (hground : ∀ ws (t : Sys H), Entry.enter p r ∈ t.log → (∀ w ∈ ws, r.conducts p t ws w) →
      ground p ws t) {t : Sys H} (ht : Entry.enter p r ∈ t.log) :
    wp ((locking settings outside ok ground).contract p) prog
      (fun _ _ => True) t := by
  refine Maintains.safe (J := fun t => Entry.enter p r ∈ t.log)
    (Maintains.of_ensures (R := fun _ => True) ?_ (Program.ensures_anything prog)) ht
  refine ⟨fun t t' h hr _ => hr.1.log.subset h, ?_, ?_⟩
  · rintro q t - - h ⟨-, hlogged, -, r', hr', hconducts⟩
    refine ⟨?_, List.mem_cons_of_mem _ h⟩
    rintro ws rfl
    rw [hlogged.request p r' r hr' h] at hconducts
    exact hground ws t h (hconducts ws rfl)
  · rintro c t - - h
    refine ⟨trivial, ?_⟩
    rintro reply t' ⟨-, -, hyper, -, rfl⟩
    exact List.mem_cons_of_mem _ (List.mem_cons_of_mem _ h)

/-- Locking the run of an endpoint, and the rest of its transaction. -/
theorem wp_lockRun {β : Type} {runId : ℕ} {organization : OrganizationContext} {user : User}
    {f : LabRun × Lab → Action β} {Q : Post Api (Sys H) β} {t₁ t : Sys H} (ht : Within p t₁ t)
    (hf : ∀ run lab t' s s', Within p t₁ t' → LockedRun p run t'.store → run.id = runId →
      run.organizationId = organization.id →
      (.select .rows, s) ∈ openTransaction p t'.log → LockedRun p run s →
      labForUser s.db run.labId organization user = .ok lab →
      entriesOf p t'.log = .stmt p (.select .rows) s ::
        .stmt p (.lock (.labRun runId organization.id)) s' :: entriesOf p t.log →
      wp ((locking settings outside ok ground).contract p) (f (run, lab)) Q t')
    (herr : ∀ e t', Within p t₁ t' → Q (.error e) t') :
    wp ((locking settings outside ok ground).contract p)
      (runForUser runId organization user true >>= f) Q t := by
  unfold runForUser
  rw [if_pos rfl, bind_assoc]
  refine wp_readStmt ht trivial ?_
  intro t₂ _ _ hentries₂ h₂
  rw [bind_assoc, wp_bind, wp_orRaise]
  refine ⟨fun _ => herr _ _ h₂, ?_⟩
  intro run hrun
  obtain ⟨hmem, hid⟩ := Table.first_some hrun
  simp only [Bool.and_eq_true, decide_eq_true_eq] at hid
  have hlocked : LockedRun p run ((machine outside).exec p
      (.lock (.labRun runId organization.id)) t₂).store := by
    refine ⟨List.mem_append_left _ ?_, Table.get?_of_mem hmem⟩
    simp [LockQuery.locks, hrun]
  show wp _ ((select >>= _) >>= f) Q _
  rw [bind_assoc]
  refine wp_readStmt h₂ trivial ?_
  intro t₃ _ hkept₃ hentries₃ h₃
  rw [bind_assoc, wp_bind, wp_check]
  cases hlab : labForUser t₃.store.db run.labId organization user with
  | error e => exact herr e _ h₃
  | ok lab =>
    have hread : (.select .rows, t₃.store) ∈
        openTransaction p ((machine outside).exec p (.select .rows) t₃).log := by
      show _ ∈ openTransaction p (.stmt p (.select .rows) t₃.store :: t₃.log)
      rw [openTransaction_read (q := .select .rows) trivial]
      exact List.mem_cons_self
    refine hf run lab _ t₃.store t₂.store h₃ (hlocked.kept hkept₃) hid.1 hid.2 hread
      (hlocked.kept hkept₃) hlab ?_
    rw [entriesOf_exec, hentries₃, entriesOf_exec, hentries₂]

/-! ## Runs -/

section Runs

variable {t : Sys H} {w w' : World Api (Sys H)}

/-- The conduct holds in an initial state. -/
theorem conductUnder_holds (ht : t.Initial) :
    (conductUnder settings outside ok).Holds (World.idle t) := by
  refine Discipline.holds_idle ?_
  show WellLogged t.log
  rw [ht.log]
  exact wellLogged_nil

/-- The discipline of the locks holds in an initial state. -/
theorem locking_holds (ht : t.Initial) :
    (locking settings outside ok ground).Holds (World.idle t) := by
  refine Discipline.holds_idle ⟨?_, ?_⟩
  · show WellLogged t.log
    rw [ht.log]
    exact wellLogged_nil
  · intro l p p' hl
    have hl : (l, p) ∈ t.store.locks := hl
    rw [ht.locks] at hl
    cases hl

/-- Every run from an idle world without locks is one whose steps meet the condition and keep
the discipline. -/
theorem reach_locking (hsound : (locking settings outside ok ground).Sound) (ht : t.Initial)
    (hr : World.Reach (systemUnder settings outside ok) (World.idle t) w) :
    World.Reach (locking settings outside ok ground).allowed (World.idle t) w :=
  hsound.reach_allowed (locking_holds ht)
    ((conductUnder_sound settings outside ok).reach_allowed (conductUnder_holds ht) hr)

/-- The same for what follows a world that such a run has reached. -/
theorem reach_locking_from (hsound : (locking settings outside ok ground).Sound) (ht : t.Initial)
    (hr : World.Reach (systemUnder settings outside ok) (World.idle t) w)
    (hr' : World.Reach (systemUnder settings outside ok) w w') :
    World.Reach (locking settings outside ok ground).allowed w w' := by
  have hconduct := conductUnder_sound settings outside ok
  have hbefore := hconduct.reach_allowed (conductUnder_holds ht) hr
  have hafter := hconduct.reach_allowed (hconduct.holds_of_reach (conductUnder_holds ht) hr) hr'
  exact hsound.reach_allowed (hsound.holds_of_reach (locking_holds ht) hbefore) hafter

/-- Every run meets the condition that says nothing. -/
theorem reach_unconditional (hr : World.Reach (system settings outside) w w') :
    World.Reach (systemUnder settings outside {}) w w' := by
  refine Relation.ReflTransGen.mono ?_ _ _ hr
  intro a b hab
  cases hab with
  | spawn r h => exact .spawn a r ⟨h, trivial⟩
  | interact p prog prog' t' hp h =>
    refine .interact a p prog prog' t' hp ?_
    cases h with
    | stmt q k _ he => exact .stmt q k _ ⟨he, trivial⟩
    | call c k _ _ r hr => exact .call c k _ _ r ⟨trivial, hr⟩
  | exit p prog hp => exact .exit a p prog hp
  | env t' h => exact .env a t' ⟨h, trivial⟩

end Runs

end Locking

end LabGoblin
