import LabGoblin.Analysis.Fixture
import LabGoblin.Analysis.Transitions

/-!
# The deletions of overdue VMs

`cleanup_worker.run_once` queues the deletion of the VM of an overdue assignment under a key that
names the two, and `enqueue_operation` queues nothing while an operation stands under its key. The
row of an operation that has failed or was cancelled stands under its key for ever, so the worker
comes back to the assignment and queues nothing. This is the only way in which a VM that the worker
has selected is left alone.
-/

set_option autoImplicit false

namespace LabGoblin

open Interactive

/-! ## What the worker leaves behind -/

/-- The store that a statement found. -/
def Entry.view : Entry → Option Store
  | .stmt _ _ s => some s
  | _ => none

/-- The store that the first statement of a process found. -/
def firstView (p : Pid) (log : List Entry) : Option Store :=
  ((entriesOf p log).filterMap Entry.view).getLast?

/-- A deletion of the VM is queued, is running or has succeeded. -/
def Db.Deleting (db : Db) (v : ℕ) : Prop :=
  ∃ o ∈ db.durableOperations.rows, o.operationType = .delete ∧ o.target = .studentVm v ∧
    (o.state = .queued ∨ o.state = .running ∨ o.state = .succeeded)

/-- The operation under the key of the cleanup has failed or was cancelled. -/
def Db.Refused (db : Db) (assignment v : ℕ) : Prop :=
  ∃ o ∈ db.durableOperations.rows, o.idempotencyKey = .assignmentExpire assignment v ∧
    (o.state = .failed ∨ o.state = .cancelled)

/-- After a commit a deletion is under way of every VM whose assignment was overdue before it. -/
def LeavesNoOrphan (before : Store) (after : Db) : Prop :=
  ∀ a ∈ before.db.labAssignments.rows, expiredLinked before.clock a = true →
    ∀ v, a.studentVmId = some v → after.Deleting v

/-- Of every VM whose assignment is overdue before the commit a deletion is under way already, or
its assignment was selected and no operation under its key has failed or was cancelled. -/
def CanQueue (read before : Store) : Prop :=
  ∀ a ∈ before.db.labAssignments.rows, expiredLinked before.clock a = true →
    ∀ v, a.studentVmId = some v → before.db.Deleting v ∨
      ∃ b ∈ read.db.labAssignments.rows, expiredLinked read.clock b = true ∧
        b.studentVmId = some v ∧ ¬ before.db.Refused b.id v

/-- The key of every operation tells the truth about it. -/
def Db.HonestKeys (db : Db) : Prop :=
  ∀ o ∈ db.durableOperations.rows, KeyHonest o

/-- Every commit of a cleanup worker in the log leaves no orphan. -/
def NoOrphans (log : List Entry) : Prop :=
  ∀ newer p ws before older after, log = newer ++ .stmt p (.commit ws) before :: older →
    Entry.enter p .cleanupWorker ∈ older → before.afterCommit ws = some after →
    LeavesNoOrphan before after.1

/-- An entry of another process leaves the first view. -/
theorem firstView_cons_of_ne {p : Pid} {e : Entry} (log : List Entry) (h : e.pid ≠ p) :
    firstView p (e :: log) = firstView p log := by
  unfold firstView
  rw [entriesOf_cons_of_ne log h]

/-- Once a process has made a statement, its first one stays the first one. -/
theorem firstView_cons {p : Pid} {log : List Entry} {s : Store} (e : Entry)
    (h : firstView p log = some s) : firstView p (e :: log) = some s := by
  by_cases hp : e.pid = p
  · unfold firstView at h ⊢
    rw [entriesOf_cons_self log hp]
    cases hview : e.view with
    | some s' => rw [List.filterMap_cons_some hview, List.getLast?_cons, h, Option.getD_some]
    | none => rw [List.filterMap_cons_none hview, h]
  · rw [firstView_cons_of_ne log hp, h]

/-- The first statement of a process. -/
theorem firstView_stmt {p : Pid} {log : List Entry} (q : Stmt) (s : Store)
    (h : firstView p log = none) : firstView p (.stmt p q s :: log) = some s := by
  have hpid : (Entry.stmt p q s).pid = p := rfl
  have hview : (Entry.stmt p q s).view = some s := rfl
  unfold firstView at h ⊢
  rw [entriesOf_cons_self log hpid, List.filterMap_cons_some hview, List.getLast?_cons, h,
    Option.getD_none]

/-- A call and its reply show no store. -/
theorem firstView_call {p : Pid} (c : Call) (s : Store) (r : Except Exc c.Reply)
    (log : List Entry) :
    firstView p (.reply p c r :: .call p c s :: log) = firstView p log := by
  have hreply : (Entry.reply p c r).pid = p := rfl
  have hcall : (Entry.call p c s).pid = p := rfl
  unfold firstView
  rw [entriesOf_cons_self _ hreply, entriesOf_cons_self _ hcall]
  rfl

/-! ## The loop -/

/-- Operations stay, and keep their jobs. -/
def Store.SameJobs (s s' : Store) : Prop :=
  ∀ i o, s.db.durableOperations.get? i = some o →
    ∃ o', s'.db.durableOperations.get? i = some o' ∧ o.SameJob o'

/-- A store has the same jobs as itself. -/
theorem Store.SameJobs.refl (s : Store) : s.SameJobs s := fun _ o ho => ⟨o, ho, .refl o⟩

/-- Having the same jobs is transitive. -/
theorem Store.SameJobs.trans (a b c : Store) (h : a.SameJobs b) (h' : b.SameJobs c) :
    a.SameJobs c := by
  intro i o ho
  obtain ⟨o', ho', hsame⟩ := h i o ho
  obtain ⟨o'', ho'', hsame'⟩ := h' i o' ho'
  exact ⟨o'', ho'', hsame.trans hsame'⟩

/-- A row that the cleanup queues for an assignment and its VM. -/
structure DeletionOf (assignment v : ℕ) (row : DurableOperation) : Prop where
  operationType : row.operationType = .delete
  target : row.target = .studentVm v
  state : row.state = .queued
  key : row.idempotencyKey = .assignmentExpire assignment v

/-- What the cleanup requests for an assignment is a deletion of its VM. -/
theorem deletionOf_inserts {a : LabAssignment} {v : ℕ} {row : DurableOperation}
    (h : (expireRequest a v).Inserts row) : DeletionOf a.id v row := by
  obtain ⟨id, key, now, rfl, hkey | ⟨hnone, -⟩⟩ := h
  · cases hkey
    exact ⟨rfl, rfl, rfl, rfl⟩
  · cases hnone

/-- The loop has gone through these assignments and has flushed these writes. The operations that
it found instead of queueing are in `db`. -/
structure Expires (selected : List LabAssignment) (db : Db) (ws : List Write) : Prop where
  only : ∀ w, .operation w ∈ ws → ∃ row, w = .insert row ∧ ∃ a ∈ selected, ∃ v,
    a.studentVmId = some v ∧ DeletionOf a.id v row
  deletes : ∀ a ∈ selected, ∀ v, a.studentVmId = some v →
    (∃ row, .operation (.insert row) ∈ ws ∧ DeletionOf a.id v row) ∨
      ∃ o ∈ db.durableOperations.rows, o.idempotencyKey = .assignmentExpire a.id v

/-- What the loop has flushed stays right while operations keep their jobs. -/
theorem Expires.along {selected : List LabAssignment} {s s' : Store} {ws : List Write}
    (h : Expires selected s.db ws) (hjobs : s.SameJobs s') : Expires selected s'.db ws where
  only := h.only
  deletes := by
    intro a ha v hv
    rcases h.deletes a ha v hv with hrow | ⟨o, ho, hkey⟩
    · exact Or.inl hrow
    · obtain ⟨o', ho', hsame⟩ := hjobs _ _ (Table.get?_of_mem ho)
      exact Or.inr ⟨o', Table.mem_of_get? ho', hsame.idempotencyKey.trans hkey⟩

/-- One more turn of the loop. -/
theorem Expires.turn {selected : List LabAssignment} {db : Db} {ws queued : List Write}
    {a : LabAssignment} (h : Expires selected db ws)
    (honly : ∀ w, .operation w ∈ queued → ∃ row, w = .insert row ∧ ∃ v,
      a.studentVmId = some v ∧ DeletionOf a.id v row)
    (hdeletes : ∀ v, a.studentVmId = some v →
      (∃ row, .operation (.insert row) ∈ ws ++ queued ∧ DeletionOf a.id v row) ∨
        ∃ o ∈ db.durableOperations.rows, o.idempotencyKey = .assignmentExpire a.id v) :
    Expires (selected ++ [a]) db (ws ++ queued) where
  only := by
    intro w hw
    rcases List.mem_append.mp hw with hw | hw
    · obtain ⟨row, rfl, b, hb, v, hv, hrow⟩ := h.only w hw
      exact ⟨row, rfl, b, List.mem_append_left _ hb, v, hv, hrow⟩
    · obtain ⟨row, rfl, v, hv, hrow⟩ := honly w hw
      exact ⟨row, rfl, a, by simp, v, hv, hrow⟩
  deletes := by
    intro b hb v hv
    rcases List.mem_append.mp hb with hb | hb
    · rcases h.deletes b hb v hv with ⟨row, hrow, hdeletion⟩ | hop
      · exact Or.inl ⟨row, List.mem_append_left _ hrow, hdeletion⟩
      · exact Or.inr hop
    · rw [List.mem_singleton.mp hb] at hv ⊢
      exact hdeletes v hv

/-- Expiring an assignment writes no operation. -/
theorem operation_notMem_expireWrites {a : LabAssignment} {w : OperationWrite} :
    .operation w ∉ expireWrites a := by
  intro hw
  unfold expireWrites at hw
  split at hw
  · cases hw
  · cases List.mem_singleton.mp hw

/-- The loop of `cleanup_worker.run_once`, by induction on the assignments. -/
theorem reads_expireAssignments (assignments : List LabAssignment) {selected : List LabAssignment}
    {flushed : List Write} (queued : ℕ) {s : Store} (h : Expires selected s.db flushed) :
    Reads Store.SameJobs (fun r s' => Expires (selected ++ assignments) s'.db r.1)
      (expireAssignments (flushed, queued) assignments) s := by
  induction assignments generalizing selected flushed queued s with
  | nil =>
    rw [List.append_nil]
    exact h
  | cons a assignments ih =>
    have hrest : ∀ {ws : List Write} {n : ℕ} {s' : Store}, Expires (selected ++ [a]) s'.db ws →
        Reads Store.SameJobs (fun r s' => Expires (selected ++ a :: assignments) s'.db r.1)
          (expireAssignments (ws, n) assignments) s' := by
      intro ws n s' hws
      have hih := ih n hws
      rwa [List.append_assoc] at hih
    unfold expireAssignments
    cases ha : a.studentVmId with
    | none =>
      have hturn : Expires (selected ++ [a]) s.db (flushed ++ []) :=
        h.turn (by simp) (by simp [ha])
      rw [List.append_nil] at hturn
      exact hrest hturn
    | some v =>
      have hstatus : Expires selected s.db (flushed ++ expireWrites a) := by
        refine ⟨?_, ?_⟩
        · intro w hw
          rcases List.mem_append.mp hw with hw | hw
          · exact h.only w hw
          · exact absurd hw operation_notMem_expireWrites
        · intro b hb u hu
          rcases h.deletes b hb u hu with ⟨row, hrow, hdeletion⟩ | hop
          · exact Or.inl ⟨row, List.mem_append_left _ hrow, hdeletion⟩
          · exact Or.inr hop
      simp only [reads_bind]
      refine Reads.mono (Reads.last Store.SameJobs.refl Store.SameJobs.trans
        (reads_enqueueOperation _ _ (fun r s' => s.SameJobs s' →
          Expires (selected ++ [a]) s'.db (flushed ++ expireWrites a ++ r.2)) ?_ ?_ ?_)) ?_
      · intro o s' key _ hkey hfound hjobs
        cases hkey
        refine (hstatus.along hjobs).turn (by simp) ?_
        intro u hu
        rw [ha] at hu
        cases hu
        rcases operationWithKey_flushed hfound with hop | ⟨row, hrow, hkey⟩
        · exact Or.inr hop
        · obtain ⟨row', heq, b, hb, w, hw, hdeletion⟩ := hstatus.only _ hrow
          cases heq
          have hkey' := hdeletion.key
          rw [hkey] at hkey'
          injection hkey' with hid hvm
          rw [hid, hvm]
          exact Or.inl ⟨row, List.mem_append_left _ hrow, hdeletion⟩
      · intro hnone
        cases hnone
      · intro row s' hrow hjobs
        refine (hstatus.along hjobs).turn ?_ ?_
        · intro w hw
          cases List.mem_singleton.mp hw
          exact ⟨row, rfl, v, ha, deletionOf_inserts hrow⟩
        · intro u hu
          rw [ha] at hu
          cases hu
          exact Or.inl ⟨row, by simp, deletionOf_inserts hrow⟩
      · rintro ⟨o, writes⟩ s' ⟨hjobs, hexpires⟩
        exact hrest (hexpires hjobs)

/-! ## The program -/

section Program

variable {H : Type} {settings : Settings} {outside : Outside H} {p : Pid}

/-- A commit of the cleanup worker rests on the assignments that its first statement selected. -/
def ExpiryGround (p : Pid) (q : Stmt) (t : Sys H) : Prop :=
  ∀ ws, q = .commit ws → Entry.enter p .cleanupWorker ∈ t.log →
    ∃ read, firstView p t.log = some read ∧
      Expires (read.db.labAssignments.filter (expiredLinked read.clock)) t.store.db ws

/-- The discipline in which the cleanup rests on what it selected. -/
def expiring (settings : Settings) (outside : Outside H) : Discipline Api (Sys H) Request :=
  (conduct settings outside).layer (fun _ _ _ => True) ExpiryGround

/-- A statement that reads keeps the jobs. -/
theorem sameJobs_exec {q : Stmt} (hq : q.reads) (p : Pid) (s : Store) :
    s.SameJobs (s.exec p q) := by
  rcases Store.exec_cases p q s with ⟨ws, db, rfl, -⟩ | ⟨-, -, hsame⟩
  · exact hq.elim
  · intro i o ho
    exact ⟨o, (hsame.operation i).trans ho, .refl o⟩

/-- The worker has selected its assignments. -/
def Selected (p : Pid) (read : Store) (t : Sys H) : Prop :=
  firstView p t.log = some read

/-- What the worker has selected stays selected while others go on. -/
theorem Selected.rely {read : Store} {t t' : Sys H} (h : Selected p read t) (hr : Rely p t t') :
    Selected p read t' := by
  unfold Selected firstView at h ⊢
  rw [hr.entries]
  exact h

/-- Until it commits, the worker only reads. -/
theorem selected_tolerates (read s : Store) :
    ((expiring settings outside).contract p).Tolerates
      (fun t => Selected p read t ∧ s.SameJobs t.store) Stmt.reads (fun _ => True) where
  stable := fun t t' h hr _ => ⟨h.1.rely hr.1, h.2.trans _ _ _ hr.1.operations⟩
  stmt := by
    intro q t hq _ h _
    refine ⟨?_, firstView_cons _ h.1, h.2.trans _ _ _ (sameJobs_exec hq p t.store)⟩
    rintro ws rfl
    exact hq.elim
  call := by
    rintro c t _ _ h
    refine ⟨trivial, ?_⟩
    rintro r t' ⟨-, hyper, -, rfl⟩
    exact ⟨(firstView_call c t.store r t.log).trans h.1, h.2⟩

/-- What runs no commit keeps the discipline. -/
theorem wp_expiring_reads {α : Type} {prog : Action α}
    (hprog : Program.Ensures (G := Api) Stmt.reads (fun _ => True) (fun _ => True) prog)
    (t : Sys H) : wp ((expiring settings outside).contract p) prog (fun _ _ => True) t := by
  have hT : ((expiring settings outside).contract p).Tolerates (fun _ => True) Stmt.reads
      (fun _ => True) := by
    refine ⟨fun _ _ _ _ _ => trivial, ?_, fun _ _ _ _ _ => ⟨trivial, fun _ _ _ => trivial⟩⟩
    intro q t hq _ _ _
    refine ⟨?_, trivial⟩
    rintro ws rfl
    exact hq.elim
  exact (Maintains.of_ensures hT hprog).safe trivial

/-- The cleanup commits the deletions of what its first statement selected. -/
theorem wp_expireOverdue {t : Sys H} (ht : firstView p t.log = none) :
    wp ((expiring settings outside).contract p) expireOverdue (fun _ _ => True) t := by
  unfold expireOverdue
  rw [wp_bind, wp_select]
  intro t₁ hr₁ _ _
  have hnone : firstView p t₁.log = none := by
    unfold firstView at ht ⊢
    rw [hr₁.1.entries]
    exact ht
  refine ⟨by simp [ExpiryGround, expiring, Discipline.contract, Discipline.layer], ?_⟩
  have hread : Selected p t₁.store ((machine outside).exec p (.select .rows) t₁) :=
    firstView_stmt _ _ hnone
  have hloop := wp_of_ensuresAlong (C := (expiring settings outside).contract p)
    (J := Selected p t₁.store) Store.SameJobs.refl (selected_tolerates t₁.store)
    (reads_expireAssignments (t₁.store.db.labAssignments.filter (expiredLinked t₁.store.clock)) 0
      (⟨by simp, by simp⟩ : Expires [] t₁.store.db [])) ⟨hread, .refl t₁.store⟩
  rw [Post.andThen_ok]
  refine wp_seq hloop ?_ (fun _ _ _ => trivial)
  rintro ⟨ws, queued⟩ t₂ ⟨hselected, hexpires⟩
  obtain ⟨s, hjobs, hexpires⟩ := hexpires _ rfl
  rw [wp_bind, wp_commit]
  intro t₃ hr₃ _ _
  refine ⟨?_, fun _ => trivial, fun _ _ => trivial⟩
  intro ws' hws _
  injection hws with hws
  rw [← hws]
  refine ⟨t₁.store, hselected.rely hr₃.1, ?_⟩
  exact (hexpires.along hjobs).along hr₃.1.operations

/-- The cleanup worker rests on the assignments that its first statement selected. -/
theorem wp_cleanupWorker {t : Sys H} (ht : firstView p t.log = none) :
    wp ((expiring settings outside).contract p) cleanupWorker (fun _ _ => True) t := by
  have hrelease : ∀ t : Sys H, wp ((expiring settings outside).contract p)
      (await (.releaseWorkerLock .cleanup)) (fun _ _ => True) t := fun t =>
    wp_expiring_reads ((Program.ensures_await _ _).mpr ⟨trivial, fun _ => trivial⟩) t
  unfold cleanupWorker
  rw [wp_bind]
  unfold await
  rw [wp_await]
  intro t₁ hr₁ _
  refine ⟨trivial, ?_⟩
  rintro r t₂ ⟨-, hyper, -, rfl⟩
  cases r with
  | error e => trivial
  | ok held =>
    cases held with
    | false => trivial
    | true =>
      have hnone : firstView p (Entry.reply p (.acquireWorkerLock .cleanup) (.ok true) ::
          .call p (.acquireWorkerLock .cleanup) t₁.store :: t₁.log) = none := by
        rw [firstView_call]
        unfold firstView at ht ⊢
        rw [hr₁.1.entries]
        exact ht
      refine wp_seq (R := fun _ _ => True) (wp_handle (R := fun _ _ => True)
        (wp_expireOverdue hnone) (fun _ _ _ => trivial) ?_) ?_ (fun _ _ _ => trivial)
      · intro e t' _
        exact wp_seq (hrelease t') (fun _ _ _ => trivial) (fun _ _ _ => trivial)
      · intro queued t' _
        exact wp_seq (hrelease t') (fun _ _ _ => trivial) (fun _ _ _ => trivial)

/-- Every request keeps the discipline: only the cleanup worker owes it anything. -/
theorem wp_expiring (r : Request) (p : Pid) (t : Sys H) (ht : entriesOf p t.log = [.enter p r]) :
    wp ((expiring settings outside).contract p) (program settings r) (fun _ _ => True) t := by
  by_cases hr : r = .cleanupWorker
  · subst hr
    have hnone : firstView p t.log = none := by
      unfold firstView
      rw [ht]
      rfl
    exact wp_seq (wp_cleanupWorker hnone) (fun _ _ _ => trivial) (fun _ _ _ => trivial)
  · have henter := mem_of_entriesOf_enter ht
    refine Maintains.safe (J := fun t => Entry.enter p r ∈ t.log)
      (Maintains.of_ensures (R := fun _ => True) ?_ (Program.ensures_anything _)) henter
    refine ⟨fun t t' h hr _ => hr.1.log.subset h, ?_, ?_⟩
    · rintro q t - ⟨hwell, -⟩ h -
      refine ⟨?_, List.mem_cons_of_mem _ h⟩
      rintro ws - hcleanup
      exact absurd (hwell.request p _ _ h hcleanup) hr
    · rintro c t - - h
      refine ⟨trivial, ?_⟩
      rintro reply t' ⟨-, hyper, -, rfl⟩
      exact List.mem_cons_of_mem _ (List.mem_cons_of_mem _ h)

/-- The discipline of the cleanup is sound. -/
theorem expiring_sound (settings : Settings) (outside : Outside H) :
    (expiring settings outside).Sound := by
  refine (conduct_sound settings outside).layer ?_ ?_
  · exact ⟨fun _ _ => trivial, fun _ _ _ _ _ _ _ _ => trivial, fun _ _ _ _ _ _ => trivial,
      fun _ _ _ _ _ _ _ _ => trivial, fun _ _ _ _ _ => trivial, fun _ _ _ _ _ => trivial,
      fun _ _ _ _ => trivial⟩
  · intro r t hinv _
    have hinv : WellLogged t.log := hinv
    refine wp_expiring r _ _ ?_
    have hpid : (Entry.enter (started t.log) r).pid = started t.log := rfl
    show entriesOf (started t.log) (.enter (started t.log) r :: t.log) = _
    rw [entriesOf_cons_self _ hpid, hinv.entriesOf_started]
    rfl

end Program

/-! ## Commits -/

section Commits

variable {s read : Store} {ws : List Write} {db : { db : Db // db.Constraints }}

/-- A commit that only inserts operations keeps those that are there. -/
theorem Expires.kept {selected : List LabAssignment} (h : Expires selected s.db ws)
    (hcommit : s.afterCommit ws = some db) {o : DurableOperation}
    (ho : o ∈ s.db.durableOperations.rows) : o ∈ db.1.durableOperations.rows := by
  refine Table.mem_of_get? (Store.operation_kept hcommit (Table.get?_of_mem ho) ?_)
  intro w hw _
  obtain ⟨row, rfl, -⟩ := h.only w hw
  exact ⟨row, rfl⟩

/-- An operation that is new after the commit was inserted by it. -/
theorem Expires.inserted {selected : List LabAssignment} (h : Expires selected s.db ws)
    (hcommit : s.afterCommit ws = some db) {o : DurableOperation}
    (ho : o ∈ db.1.durableOperations.rows) (hnew : s.db.durableOperations.get? o.id = none) :
    .operation (.insert o) ∈ ws := by
  refine Store.operation_afterCommit (P := fun r => .operation (.insert r) ∈ ws) hcommit ?_ ?_ ?_
    o (Table.get?_of_mem ho)
  · intro r hr
    rw [hnew] at hr
    cases hr
  · exact fun r _ hr _ => hr
  · intro w hw _ r _ hr
    obtain ⟨row, rfl, -⟩ := h.only w hw
    exact hr

/-- A deletion that the commit queues is queued after it. -/
theorem Expires.queued {selected : List LabAssignment} (h : Expires selected s.db ws)
    (hcommit : s.afterCommit ws = some db) {row : DurableOperation}
    (hrow : .operation (.insert row) ∈ ws) : row ∈ db.1.durableOperations.rows := by
  obtain ⟨row', hrow', heq⟩ := Write.ofOperations.row_of_insert (P := fun r => r = row)
    (Store.applyAll_of_afterCommit hcommit) hrow rfl (by
      intro w hw _ r hr
      obtain ⟨row', rfl, -⟩ := h.only w hw
      exact hr)
  rw [← heq]
  exact Table.mem_of_get? hrow'

/-- After the commit no VM of an overdue assignment is left alone if and only if the worker could
queue the deletions that were missing. -/
theorem Expires.leavesNoOrphan_iff
    (h : Expires (read.db.labAssignments.filter (expiredLinked read.clock)) s.db ws)
    (hcommit : s.afterCommit ws = some db) (hkeys : s.db.HonestKeys) :
    LeavesNoOrphan s db.1 ↔ CanQueue read s := by
  constructor
  · intro hleaves a ha hoverdue v hv
    obtain ⟨o, ho, htype, htarget, hstate⟩ := hleaves a ha hoverdue v hv
    cases hbefore : s.db.durableOperations.get? o.id with
    | some o' =>
      have hmem := Table.mem_of_get? hbefore
      have hsame : o' = o := by
        have hkept := Table.get?_of_mem (h.kept hcommit hmem)
        rw [Table.get?_key hbefore, Table.get?_of_mem ho] at hkept
        exact (Option.some.inj hkept).symm
      rw [hsame] at hmem
      exact Or.inl ⟨o, hmem, htype, htarget, hstate⟩
    | none =>
      have hinsert := h.inserted hcommit ho hbefore
      obtain ⟨row, heq, b, hb, u, hu, hdeletion⟩ := h.only _ hinsert
      cases heq
      have huv : u = v := by
        have hsame := hdeletion.target.symm.trans htarget
        injection hsame
      rw [huv] at hu hdeletion
      obtain ⟨hb, hselected⟩ := List.mem_filter.mp hb
      refine Or.inr ⟨b, hb, hselected, hu, ?_⟩
      -- the key is unique, so nothing stood under it before the insert
      rintro ⟨o', ho', hkey', -⟩
      have hid : o'.id = o.id := by
        refine congrArg _ (db.2.operations_key o' (h.kept hcommit ho') o ho (by simp) ?_)
        exact congrArg some (hkey'.trans hdeletion.key.symm)
      rw [← hid, Table.get?_of_mem ho'] at hbefore
      cases hbefore
  · intro hcan a ha hoverdue v hv
    rcases hcan a ha hoverdue v hv with ⟨o, ho, hdeletes⟩ | ⟨b, hb, hselected, hbv, hfree⟩
    · exact ⟨o, h.kept hcommit ho, hdeletes⟩
    · rcases h.deletes b (List.mem_filter.mpr ⟨hb, hselected⟩) v hbv with
        ⟨row, hrow, hdeletion⟩ | ⟨o, ho, hkey⟩
      · exact ⟨row, h.queued hcommit hrow, hdeletion.operationType, hdeletion.target,
          Or.inl hdeletion.state⟩
      · have hhonest := hkeys o ho
        unfold KeyHonest at hhonest
        rw [hkey] at hhonest
        refine ⟨o, h.kept hcommit ho, hhonest.1, hhonest.2, ?_⟩
        cases hstate : o.state with
        | queued => exact Or.inl rfl
        | running => exact Or.inr (Or.inl rfl)
        | succeeded => exact Or.inr (Or.inr rfl)
        | failed => exact absurd ⟨o, ho, hkey, Or.inl hstate⟩ hfree
        | cancelled => exact absurd ⟨o, ho, hkey, Or.inr hstate⟩ hfree

/-- No write but an insert changes what a key says. -/
theorem OperationWrite.onRow_keyHonest (w : OperationWrite) {o : DurableOperation}
    (h : KeyHonest o) : KeyHonest (w.onRow o) := by
  cases w <;> exact h

/-- A commit that keeps to the discipline keeps the keys honest. -/
theorem Db.HonestKeys.commit {H : Type} {p : Pid} {t : Sys H} (h : t.store.db.HonestKeys)
    (hconducted : Stmt.Conducted p (.commit ws) t) (hcommit : t.store.afterCommit ws = some db) :
    db.1.HonestKeys := by
  intro o ho
  refine Store.operation_afterCommit (P := KeyHonest) hcommit ?_ ?_ ?_ o (Table.get?_of_mem ho)
  · exact fun r hr => h r (Table.mem_of_get? hr)
  · exact fun r _ hr _ => (hconducted.queued hr).honest
  · exact fun w _ _ r _ hr => w.onRow_keyHonest hr

/-- With the same operations the keys stay honest. -/
theorem Db.HonestKeys.sameRows {db db' : Db} (h : db.HonestKeys) (hsame : db.SameRows db') :
    db'.HonestKeys := by
  intro o ho
  rw [hsame.durableOperations] at ho
  exact h o ho

end Commits

/-! ## Runs -/

section Runs

variable {H : Type} {settings : Settings} {outside : Outside H}

/-- What a commit of a cleanup worker leaves behind depends on what it could queue. -/
def CleanupEntry (e : Entry) (older : List Entry) : Prop :=
  ∀ p ws before after, e = .stmt p (.commit ws) before → Entry.enter p .cleanupWorker ∈ older →
    before.afterCommit ws = some after →
    ∃ read, firstView p older = some read ∧ (LeavesNoOrphan before after.1 ↔ CanQueue read before)

/-- An entry that is no statement leaves nothing behind. -/
theorem cleanupEntry_of_ne {e : Entry} {older : List Entry} (h : ∀ p q s, e ≠ .stmt p q s) :
    CleanupEntry e older := fun p _ before _ he => absurd he (h p _ before)

/-- The keys are honest, and all commits so far depended on what they could queue. -/
structure Cleaning (t : Sys H) : Prop where
  keys : t.store.db.HonestKeys
  entries : EachAfter CleanupEntry t.log

/-- Every step keeps the keys honest and the commits decided. -/
theorem cleaning_preserved : (expiring settings outside).allowed.Preserves (Cleaning (H := H)) where
  stmt := by
    rintro p q t h ⟨⟨-, -, -, hconducted⟩, -, -, hground⟩
    refine ⟨?_, h.entries.cons ?_⟩
    · show (t.store.exec p q).db.HonestKeys
      rcases Store.exec_cases p q t.store with ⟨ws, db, rfl, hcommit, hdb, -⟩ | ⟨-, -, hsame⟩
      · rw [hdb]
        exact h.keys.commit hconducted hcommit
      · exact h.keys.sameRows hsame
    · intro p' ws before after he henter hcommit
      cases he
      obtain ⟨read, hread, hexpires⟩ := hground ws rfl henter
      exact ⟨read, hread, hexpires.leavesNoOrphan_iff hcommit h.keys⟩
  call := by
    rintro p c t r t' h ⟨-, -, hyper, -, rfl⟩
    exact ⟨h.keys, (h.entries.cons (cleanupEntry_of_ne (by simp))).cons
      (cleanupEntry_of_ne (by simp))⟩
  enter := fun r t h _ => ⟨h.keys, h.entries.cons (cleanupEntry_of_ne (by simp))⟩
  leave := fun p t h => ⟨h.keys, h.entries.cons (cleanupEntry_of_ne (by simp))⟩
  env := by
    rintro t t' h ⟨-, -, henv, hlog⟩
    refine ⟨h.keys.sameRows henv.sameRows, ?_⟩
    rw [hlog]
    exact h.entries

/-- In every run every commit of a cleanup worker leaves no orphan. -/
def CleanupRuns (sys : System Api (Sys H) Request) (t : Sys H) : Prop :=
  ∀ w, World.Reach sys (World.idle t) w → NoOrphans w.shared.log

/-- In every run, a commit of a cleanup worker leaves no orphan if and only if the worker could
queue the deletions that were missing. -/
def CleanupRunsDecided (sys : System Api (Sys H) Request) (t : Sys H) : Prop :=
  ∀ w, World.Reach sys (World.idle t) w → EachAfter CleanupEntry w.shared.log

/-- From an initial state with honest keys, every commit of a cleanup worker leaves no orphan
exactly when the worker could queue the deletions that were missing. -/
theorem cleanups_leaveNoOrphan_iff (settings : Settings) (outside : Outside H) (t : Sys H)
    (ht : t.Initial) (hkeys : t.store.db.HonestKeys) :
    CleanupRunsDecided (system settings outside) t := by
  intro w hr
  have hwell : WellLogged t.log := by
    rw [ht.log]
    exact wellLogged_nil
  have hconduct := (conduct_sound settings outside).reach_allowed (Discipline.holds_idle hwell) hr
  have hreach := (expiring_sound settings outside).reach_allowed (Discipline.holds_idle hwell)
    hconduct
  have hstart : Cleaning (World.idle (G := Api) t).shared := by
    refine ⟨hkeys, ?_⟩
    show EachAfter CleanupEntry t.log
    rw [ht.log]
    exact EachAfter.nil _
  exact (cleaning_preserved.of_reach hstart hreach).entries

end Runs

namespace Fixture

/-- The student's assignment ran out at instant 50 and is still linked to its VM. -/
def lapsedStore : Store where
  db := linkedDb { readyAssignment with expiresAt := some 50 } (by decide)
  valid := by decide
  clock := 100
  locks := []
  nonce := 0

/-- From the store of the fixture every commit is decided in this way. -/
theorem cleanups_leaveNoOrphan_iff_lapsedStore :
    CleanupRunsDecided (system {} anything) (start lapsedStore) := by
  refine cleanups_leaveNoOrphan_iff {} anything (start lapsedStore) ⟨rfl, rfl⟩ ?_
  intro o ho
  cases ho

/-- The worker lock is granted, and Proxmox is not to be reached. -/
def offline : (c : Call) → Except Exc c.Reply
  | .acquireWorkerLock _ => .ok true
  | .releaseWorkerLock _ => .ok ()
  | _ => .error (.transport "")

/-- The deletion that the cleanup queues fails three times, and the cleanup comes back. -/
def cleanupAfterFailure : List (Move Api Request) :=
  [.spawn .cleanupWorker, .run 0 6 offline, .exit 0,
    .spawn (.operationWorker "a"), .run 1 11 offline, .exit 1, .wait 10,
    .spawn (.operationWorker "b"), .run 2 11 offline, .exit 2, .wait 10,
    .spawn (.operationWorker "c"), .run 3 12 offline, .exit 3, .wait 10,
    .spawn .cleanupWorker, .run 4 4 offline]

/-- The newest entry is the commit of a cleanup worker after which all operations have failed,
although an overdue assignment has a VM. -/
def orphaned (log : List Entry) : Bool :=
  match log with
  | .stmt p (.commit ws) before :: older =>
      (older.any fun
        | .enter q .cleanupWorker => q = p
        | _ => false) &&
      ((before.afterCommit ws).any fun after =>
        after.1.durableOperations.rows.all fun o => o.state = .failed) &&
      before.db.labAssignments.rows.any fun a => expiredLinked before.clock a
  | _ => false

/-- What such a log tells. -/
theorem not_noOrphans_of_orphaned {log : List Entry} (h : orphaned log = true) :
    ¬ NoOrphans log := by
  intro hnone
  unfold orphaned at h
  split at h
  · rename_i p ws before older
    simp only [Bool.and_eq_true] at h
    obtain ⟨⟨henter, hafter⟩, hoverdue⟩ := h
    obtain ⟨after, hcommit, hfailed⟩ := (Option.any_eq_true _ _).mp hafter
    obtain ⟨a, ha, hoverdue⟩ := List.any_eq_true.mp hoverdue
    obtain ⟨e, he, hentry⟩ := List.any_eq_true.mp henter
    have hmem : Entry.enter p .cleanupWorker ∈ older := by
      split at hentry
      · rw [← of_decide_eq_true hentry]
        exact he
      · cases hentry
    have hlinked : a.studentVmId.isSome = true := by
      unfold expiredLinked at hoverdue
      simp only [Bool.and_eq_true] at hoverdue
      exact hoverdue.1.2
    obtain ⟨v, hv⟩ := Option.isSome_iff_exists.mp hlinked
    obtain ⟨o, ho, -, -, hstate⟩ :=
      hnone [] p ws before older after rfl hmem hcommit a ha hoverdue v hv
    have hother := of_decide_eq_true (List.all_eq_true.mp hfailed o ho)
    rw [hother] at hstate
    simp at hstate
  · cases h

set_option maxRecDepth 100000 in
/-- After the third failure the VM is left without a deletion whenever the cleanup comes back. -/
theorem cleanup_leaves_orphan : ¬ CleanupRuns (system {} anything) (start lapsedStore) := by
  intro h
  have hplay : (player.play (World.idle (start lapsedStore)) cleanupAfterFailure).any (fun w =>
      orphaned w.shared.log) = true := by
    decide +kernel
  obtain ⟨w, hr, hw⟩ := player.exists_of_play hplay
  exact not_noOrphans_of_orphaned hw (h w hr)

end Fixture

end LabGoblin
