import LabGoblin.Analysis.LeaseFencing
import LabGoblin.Analysis.Locking

/-!
# Checkpoints

`persist_task` records the task of the call that an attempt has just submitted: its identifier in
`proxmox_upid`, and which call it was in `payload_json._phase`. As long as an operation is taken
over only from a process that has ended, every attempt works on the checkpoint that the attempt
before it has left. It waits for the recorded task, and it replaces the checkpoint only when that
task is done with.
-/

set_option autoImplicit false

namespace LabGoblin

open Interactive

/-! ## What a checkpoint says -/

/-- What the row of an operation says of the call that was submitted last. -/
structure Checkpoint where
  operationType : OperationType
  upid : Option Upid
  phase : Option Phase

def DurableOperation.checkpoint (o : DurableOperation) : Checkpoint :=
  ⟨o.operationType, o.proxmoxUpid, o.payload.phase⟩

/-- The checkpoint after `persist_task`. -/
def Checkpoint.record (k : Checkpoint) (upid : Option Upid) (payload : Option Payload) :
    Checkpoint :=
  { k with upid := upid, phase := payload.elim k.phase Payload.phase }

/-- Recording the same twice is recording it once. -/
theorem Checkpoint.record_record (k : Checkpoint) (upid : Option Upid) (payload : Option Payload) :
    (k.record upid payload).record upid payload = k.record upid payload := by
  cases payload <;> rfl

/-- The write of a checkpoint records it in the row. -/
theorem OperationWrite.onRow_checkpoint (o : ℕ) (upid : Option Upid) (payload : Option Payload)
    (lease : Time) (row : DurableOperation) :
    ((OperationWrite.checkpoint o upid payload lease).onRow row).checkpoint =
      row.checkpoint.record upid payload := by
  cases payload <;> rfl

/-- A task that a checkpoint names is one of a call that the operation submits in that phase. -/
structure Checkpoint.WellFormed (k : Checkpoint) : Prop where
  create : k.operationType = .create → k.upid.isSome = true →
    k.phase = some .cloneSubmitted ∨ k.phase = some .startSubmitted
  delete : k.operationType = .delete → k.upid.isSome = true →
    k.phase = some .stopSubmitted ∨ k.phase = some .deleteSubmitted

/-- A checkpoint without a task is well formed. -/
theorem Checkpoint.wellFormed_of_none {k : Checkpoint} (h : k.upid = none) : k.WellFormed :=
  ⟨by simp [h], by simp [h]⟩

/-- The process has seen the task stopped. -/
def Awaited (u : Upid) (own : List Entry) : Prop :=
  ∃ p cluster node poll, Entry.reply p (.pollTask cluster node u) (.ok poll) ∈ own ∧
    poll.stopped = true

/-- What the process last did was to see that the VM is stopped, and to ask for the time. -/
def ObservedStopped (vm : StudentVM) (own : List Entry) : Prop :=
  ∃ p p' s rest, own = .stmt p (.select .rows) s ::
    .reply p' (.getVmStatus vm.proxmoxClusterId vm.proxmoxNode vm.vmid) (.ok (some .stopped)) ::
      rest

/-- What the process last did was to look for the VM in the inventory, where it was not, and to
validate the operation. -/
def LookedUp (cluster : Option ℕ) (vmid : ℕ) (own : List Entry) : Prop :=
  ∃ p p' row vm payload s response rest, own = .stmt p (.authorize row vm payload) s ::
    .reply p' (.vmResources cluster) (.ok response) :: rest ∧ inventoryLacks response vmid = true

/-- What may replace a checkpoint that names the task `u`: that of the start of a VM once its
clone is done, or none once its stop is done and the VM to be deleted was seen stopped. -/
def Checkpoint.Supersedes (k : Checkpoint) (u : Upid) (row : DurableOperation) (own : List Entry)
    (s : Store) : Prop :=
  (row.operationType = .create ∧ row.payload.phase = some .cloneSubmitted ∧ Awaited u own ∧
      k.phase = some .startSubmitted) ∨
    (row.operationType = .delete ∧ row.payload.phase = some .stopSubmitted ∧ Awaited u own ∧
      k.upid = none ∧ k.phase = some .stopped ∧ ∃ vm, s.db.studentVms.get? vm.id = some vm ∧
        row.target = .studentVm vm.id ∧ ObservedStopped vm own)

/-- What may be called at a checkpoint. Of a task only the recorded one is waited for, nothing is
submitted while a task is recorded, except the start of a VM once its clone is done, and nothing
is cloned that is in the inventory. -/
structure Call.Respects (c : Call) (row : DurableOperation) (own : List Entry) : Prop where
  waits : ∀ cluster node u, c = .pollTask cluster node u → row.proxmoxUpid = some u
  submits : c.mutating = true → ∀ u, row.proxmoxUpid = some u → row.operationType = .create ∧
    row.payload.phase = some .cloneSubmitted ∧ Awaited u own ∧
      ∃ cluster node vmid, c = .vmAction cluster .start node vmid
  clones : ∀ cluster node source newid name, c = .cloneVm cluster node source newid name →
    LookedUp cluster newid own

/-- A checkpoint in a commit is its only write of an operation, well formed, and replaces one that
names a task only where it may. -/
def Stmt.Checkpoints {H : Type} (o : ℕ) (p : Pid) (q : Stmt) (t : Sys H) : Prop :=
  ∀ ws, q = .commit ws → ∀ upid payload lease,
    .operation (.checkpoint o upid payload lease) ∈ ws →
    (∀ w, .operation w ∈ ws → w = .checkpoint o upid payload lease) ∧
      ∀ row, t.store.db.durableOperations.get? o = some row →
        (row.checkpoint.record upid payload).WellFormed ∧
          ∀ u, row.proxmoxUpid = some u → (row.checkpoint.record upid payload).Supersedes u row
            (entriesOf p t.log) t.store

section Checkpoints

variable {H : Type} {settings : Settings} {outside : Outside H} {ok : Condition H} {o : ℕ}
  {p : Pid} {t t' : Sys H}

/-! ## The discipline -/

/-- While a process has the operation in hand, nobody else changes its row. -/
def Undisturbed (o : ℕ) (p : Pid) (t t' : Sys H) : Prop :=
  Present p t → inHand p t.log = some o →
    t'.store.db.durableOperations.get? o = t.store.db.durableOperations.get? o

/-- The discipline of the runs that meet a condition, in which the attempts of one operation work
on its checkpoints. -/
def checkpointing (settings : Settings) (outside : Outside H) (ok : Condition H) (o : ℕ) :
    Discipline Api (Sys H) Request where
  sys := (conductUnder settings outside ok).allowed
  inv := fun t => WellLogged t.log ∧ Sole o t ∧
    ∀ row, t.store.db.durableOperations.get? o = some row → row.checkpoint.WellFormed
  present := Present
  rely := fun p t t' => Rely p t t' ∧ Undisturbed o p t t'
  allowsStmt := Stmt.Checkpoints o
  allowsCall := fun p c t => inHand p t.log = some o →
    ∀ row, t.store.db.durableOperations.get? o = some row → c.Respects row (entriesOf p t.log)

/-- A commit leaves the checkpoint as it is, or records another one. -/
theorem checkpoint_after {ws : List Write} {db : { db : Db // db.Constraints }}
    (hcheckpoints : Stmt.Checkpoints o p (.commit ws) t)
    (hcommit : t.store.afterCommit ws = some db) {row : DurableOperation}
    (hrow : t.store.db.durableOperations.get? o = some row) :
    ∃ row', db.1.durableOperations.get? o = some row' ∧ row'.target = row.target ∧
      (row'.checkpoint = row.checkpoint ∨ ∃ upid payload lease,
        .operation (.checkpoint o upid payload lease) ∈ ws ∧
          row'.checkpoint = row.checkpoint.record upid payload) := by
  obtain ⟨row', hrow'⟩ := Store.operation_stays hcommit hrow
  refine ⟨row', hrow', ?_⟩
  refine Store.operation_afterCommit (P := fun r => r.target = row.target ∧
    (r.checkpoint = row.checkpoint ∨ ∃ upid payload lease,
      .operation (.checkpoint o upid payload lease) ∈ ws ∧
        r.checkpoint = row.checkpoint.record upid payload)) hcommit ?_ ?_ ?_ row' hrow'
  · intro r hr
    rw [hrow] at hr
    cases hr
    exact ⟨rfl, Or.inl rfl⟩
  · intro r hnone
    rw [hrow] at hnone
    cases hnone
  · rintro w hw htarget r _ ⟨hsame, hr⟩
    cases w with
    | checkpoint o' upid payload lease =>
      have ho : o' = o := htarget
      subst ho
      refine ⟨hsame, Or.inr ⟨upid, payload, lease, hw, ?_⟩⟩
      rw [OperationWrite.onRow_checkpoint]
      rcases hr with hr | ⟨upid', payload', lease', hw', hr⟩
      · rw [hr]
      · have honly := (hcheckpoints ws rfl upid payload lease hw).1 _ hw'
        cases honly
        rw [hr, Checkpoint.record_record]
    | _ => exact ⟨hsame, hr⟩

/-- A commit without a checkpoint leaves it as it is. -/
theorem checkpoint_kept {ws : List Write} {db : { db : Db // db.Constraints }}
    (hno : ∀ upid payload lease, .operation (.checkpoint o upid payload lease) ∉ ws)
    (hcommit : t.store.afterCommit ws = some db) {row : DurableOperation}
    (hrow : t.store.db.durableOperations.get? o = some row) :
    ∃ row', db.1.durableOperations.get? o = some row' ∧ row'.target = row.target ∧
      row'.checkpoint = row.checkpoint := by
  have hcheckpoints (p : Pid) : Stmt.Checkpoints o p (.commit ws) t := by
    intro ws' hws upid payload lease hw
    injection hws with hws
    exact absurd (hws ▸ hw) (hno upid payload lease)
  obtain ⟨row', hrow', htarget, hsame | ⟨upid, payload, lease, hw, -⟩⟩ :=
    checkpoint_after (hcheckpoints 0) hcommit hrow
  · exact ⟨row', hrow', htarget, hsame⟩
  · exact absurd hw (hno upid payload lease)

/-- A checkpoint is written on a row that is there. -/
theorem Stmt.Conducted.recorded {ws : List Write} (h : Stmt.Conducted p (.commit ws) t)
    {upid : Option Upid} {payload : Option Payload} {lease : Time}
    (hw : .operation (.checkpoint o upid payload lease) ∈ ws) :
    ∃ cur, t.store.db.durableOperations.get? o = some cur := by
  obtain ⟨r, -, ⟨-, hworker⟩ | ⟨hr, hrequest⟩⟩ := h.split
  · obtain ⟨row, ⟨-, cur, hcur, -⟩, rfl, -⟩ := hworker _ hw
    exact ⟨cur, hcur⟩
  · obtain ⟨row, hrow, -⟩ := Request.mayWrite_operation hr (hrequest _ hw).1
    cases hrow

/-- A statement keeps the checkpoint well formed. -/
theorem wellFormed_exec {q : Stmt} (hconducted : Stmt.Conducted p q t)
    (hcheckpoints : Stmt.Checkpoints o p q t)
    (h : ∀ row, t.store.db.durableOperations.get? o = some row → row.checkpoint.WellFormed) :
    ∀ row, (t.store.exec p q).db.durableOperations.get? o = some row →
      row.checkpoint.WellFormed := by
  intro row' hrow'
  rcases Store.exec_cases p q t.store with ⟨ws, db, rfl, hcommit, hdb, -⟩ | ⟨-, -, hsame⟩
  · rw [hdb] at hrow'
    cases hrow : t.store.db.durableOperations.get? o with
    | some row =>
      obtain ⟨row'', hrow'', -, hafter⟩ := checkpoint_after hcheckpoints hcommit hrow
      rw [hrow'] at hrow''
      cases hrow''
      rcases hafter with hafter | ⟨upid, payload, lease, hw, hafter⟩
      · rw [hafter]
        exact h row hrow
      · rw [hafter]
        exact ((hcheckpoints ws rfl upid payload lease hw).2 row hrow).1
    | none =>
      -- the row is one that the commit inserts, and nothing else in the commit is about it
      refine Store.operation_afterCommit (P := fun r => r.checkpoint.WellFormed) hcommit ?_ ?_ ?_
        row' hrow'
      · exact h
      · intro r _ hw _
        exact Checkpoint.wellFormed_of_none (hconducted.queued hw).upid
      · intro w hw htarget r _ hr
        cases w with
        | checkpoint o' upid payload lease =>
          have ho : o' = o := htarget
          subst ho
          obtain ⟨cur, hcur⟩ := hconducted.recorded hw
          rw [hrow] at hcur
          cases hcur
        | _ => exact hr
  · rw [hsame.operation] at hrow'
    exact h row' hrow'

/-- Nothing happening disturbs no operation. -/
theorem Undisturbed.refl (o : ℕ) (p : Pid) (t : Sys H) : Undisturbed o p t t := fun _ _ => rfl

/-- An operation that is undisturbed twice is undisturbed. -/
theorem Undisturbed.trans {a b c : Sys H} (h : Undisturbed o p a b) (hr : Rely p a b)
    (h' : Undisturbed o p b c) : Undisturbed o p a c := by
  intro hp hhand
  have hhand' : inHand p b.log = some o := hr.inHand.trans hhand
  rw [h' (hp.rely hr) hhand', h hp hhand]

/-- Steps that leave the operations alone. -/
theorem Undisturbed.of_rows (h : t.store.db.SameRows t'.store.db) : Undisturbed o p t t' :=
  fun _ _ => h.operation o

/-- A statement of one process disturbs no operation that another one has in hand. -/
theorem undisturbed_exec (outside : Outside H) {q : Stmt} {p' : Pid} (hne : p' ≠ p)
    (hsole : Sole o t) (hp : Present p t) (hconducted : Stmt.Conducted p q t)
    (hover : TakesOverOf o q t) :
    Undisturbed o p' t ((machine outside).exec p q t) := by
  intro hp' hhand
  show (t.store.exec p q).db.durableOperations.get? o = _
  rcases Store.exec_cases p q t.store with ⟨ws, db, rfl, hcommit, hdb, -⟩ | ⟨-, -, hsame⟩
  · rw [hdb]
    exact (hsole.untouched hp hconducted hover hcommit hne hp' hhand).1
  · exact hsame.operation o

/-- Where the operation is taken over only from processes that have ended, the discipline is
sound as soon as the programs keep it. -/
theorem checkpointing_sound (hok : ∀ p q t, ok.stmt p q t → TakesOverOf o q t)
    (hprogram : ∀ r p (t : Sys H), entriesOf p t.log = [.enter p r] →
      wp ((checkpointing settings outside ok o).contract p) (program settings r)
        (fun _ _ => True) t) :
    (checkpointing settings outside ok o).Sound where
  refl := fun p t => ⟨.refl p t, .refl o p t⟩
  trans := fun _ _ _ _ h h' => ⟨h.1.trans h'.1, h.2.trans h.1 h'.2⟩
  stable := fun _ _ _ h hr => h.rely hr.1
  stmt := by
    rintro p q t ⟨hwell, hsole, hform⟩ hpresent ⟨henabled, -, -, hconducted⟩ hcheckpoints
    obtain ⟨⟨hwell', hrely⟩, hpresent'⟩ :=
      (conductUnder_sound settings outside ok).stmt p q t hwell hpresent henabled hconducted
    have hover : TakesOverOf o q t := hok p q t henabled.2
    have hsole' : Sole o ((machine outside).exec p q t) := hsole.exec hpresent hconducted hover
    refine ⟨⟨⟨hwell', hsole', wellFormed_exec hconducted hcheckpoints hform⟩, ?_⟩, hpresent'⟩
    exact fun p' hne =>
      ⟨hrely p' hne, undisturbed_exec outside hne hsole hpresent hconducted hover⟩
  call := by
    rintro p c t r t' ⟨hwell, hsole, hform⟩ hpresent _ ⟨⟨-, -, hcall⟩, hanswer⟩
    obtain ⟨⟨hwell', hrely⟩, hpresent'⟩ :=
      (conductUnder_sound settings outside ok).call p c t r t' hwell hpresent hcall hanswer
    have hsole' : Sole o t' := hsole.answer hanswer.2
    obtain ⟨-, hyper, -, rfl⟩ := hanswer
    exact ⟨⟨⟨hwell', hsole', hform⟩, fun p' hne => ⟨hrely p' hne, .of_rows (.refl _)⟩⟩,
      hpresent'⟩
  enter := by
    rintro r t ⟨hwell, hsole, hform⟩ ⟨hadmits, -⟩
    obtain ⟨⟨hwell', hrely⟩, hpresent'⟩ :=
      (conductUnder_sound settings outside ok).enter r t hwell hadmits
    exact ⟨⟨⟨hwell', hsole.enter hwell r, hform⟩,
      fun p' hne => ⟨hrely p' hne, .of_rows (.refl _)⟩⟩, hpresent'⟩
  leave := by
    rintro p t ⟨hwell, hsole, hform⟩ hpresent
    obtain ⟨hwell', hrely⟩ := (conductUnder_sound settings outside ok).leave p t hwell hpresent
    exact ⟨⟨hwell', hsole.leave p, hform⟩, fun p' hne => ⟨hrely p' hne, .of_rows (.refl _)⟩⟩
  env := by
    rintro t t' ⟨hwell, hsole, hform⟩ ⟨-, henv⟩
    obtain ⟨hwell', hrely⟩ := (conductUnder_sound settings outside ok).env t t' hwell henv
    have hstore : t.store.Environment t'.store := henv.1.1
    refine ⟨⟨hwell', hsole.env hstore henv.1.2, ?_⟩,
      fun p => ⟨hrely p, .of_rows hstore.sameRows⟩⟩
    intro row hrow
    rw [hstore.sameRows.operation] at hrow
    exact hform row hrow
  program := by
    intro r t hinv _
    refine hprogram r _ _ ?_
    have hpid : (Entry.enter (started t.log) r).pid = started t.log := rfl
    show entriesOf (started t.log) (.enter (started t.log) r :: t.log) = _
    rw [entriesOf_cons_self _ hpid, hinv.1.entriesOf_started]
    rfl

end Checkpoints

end LabGoblin
