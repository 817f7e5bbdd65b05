import LabGoblin.Computation.Change
import LabGoblin.Model.Interaction

/-!
# What a statement does to the rows

A statement changes rows only when it is a commit that succeeds, and then it changes each
table by the writes that concern it. The theorems of the form `..._afterCommit` say what a
commit does to one row.
-/

set_option autoImplicit false

namespace LabGoblin

open Interactive

/-! ## Writes as changes of a table -/

def VmWrite.change (w : VmWrite) : Change StudentVM StudentVM.id :=
  match w with
  | .insert row => .insert row
  | w => .update w.target w.onRow w.onRow_id

def AssignmentWrite.change (w : AssignmentWrite) : Change LabAssignment LabAssignment.id :=
  match w with
  | .insert row => .insert row
  | w => .update w.target w.onRow w.onRow_id

def RunWrite.change (w : RunWrite) : Change LabRun LabRun.id :=
  match w with
  | .insert row => .insert row
  | w => .update w.target w.onRow w.onRow_id

def OperationWrite.change (w : OperationWrite) :
    Change DurableOperation DurableOperation.id :=
  match w with
  | .insert row => .insert row
  | w => .update w.target w.onRow w.onRow_id

/-- A write of a VM record makes its change. -/
theorem VmWrite.apply_change (w : VmWrite) (t : Table StudentVM StudentVM.id) :
    w.change.apply t = w.apply t := by
  cases w <;> rfl

/-- A write of an assignment makes its change. -/
theorem AssignmentWrite.apply_change (w : AssignmentWrite)
    (t : Table LabAssignment LabAssignment.id) : w.change.apply t = w.apply t := by
  cases w <;> rfl

/-- A write of a run makes its change. -/
theorem RunWrite.apply_change (w : RunWrite) (t : Table LabRun LabRun.id) :
    w.change.apply t = w.apply t := by
  cases w <;> rfl

/-- A write of an operation makes its change. -/
theorem OperationWrite.apply_change (w : OperationWrite)
    (t : Table DurableOperation DurableOperation.id) : w.change.apply t = w.apply t := by
  cases w <;> rfl

def Write.onVm : Write → Option VmWrite
  | .vm w => some w
  | _ => none

def Write.onAssignment : Write → Option AssignmentWrite
  | .assignment w => some w
  | _ => none

def Write.onRun : Write → Option RunWrite
  | .run w => some w
  | _ => none

def Write.onOperation : Write → Option OperationWrite
  | .operation w => some w
  | _ => none

/-- The writes that concern the VM records are those of VM records. -/
theorem Write.onVm_eq_some {w : Write} {v : VmWrite} : w.onVm = some v ↔ w = .vm v := by
  cases w <;> simp [Write.onVm]

/-- The writes that concern the assignments are those of assignments. -/
theorem Write.onAssignment_eq_some {w : Write} {v : AssignmentWrite} :
    w.onAssignment = some v ↔ w = .assignment v := by
  cases w <;> simp [Write.onAssignment]

/-- The writes that concern the runs are those of runs. -/
theorem Write.onRun_eq_some {w : Write} {v : RunWrite} : w.onRun = some v ↔ w = .run v := by
  cases w <;> simp [Write.onRun]

/-- The writes that concern the operations are those of operations. -/
theorem Write.onOperation_eq_some {w : Write} {v : OperationWrite} :
    w.onOperation = some v ↔ w = .operation v := by
  cases w <;> simp [Write.onOperation]

/-- A catalogue write leaves the tables of runs, assignments, VMs and operations alone. -/
theorem CatalogueWrite.apply_rows {w : CatalogueWrite} {db db' : Db} (h : w.apply db = some db') :
    db'.labRuns = db.labRuns ∧ db'.labAssignments = db.labAssignments ∧
      db'.studentVms = db.studentVms ∧ db'.durableOperations = db.durableOperations := by
  unfold CatalogueWrite.apply at h
  cases w with
  | editLab lab name description pool flags =>
    cases h
    exact ⟨rfl, rfl, rfl, rfl⟩
  | insertReceipt row =>
    simp only at h
    split at h
    · cases h
    · cases h
      exact ⟨rfl, rfl, rfl, rfl⟩
  | _ =>
    obtain ⟨t, _, rfl⟩ := Option.map_eq_some_iff.mp h
    exact ⟨rfl, rfl, rfl, rfl⟩

/-- The writes of a transaction in two parts. -/
theorem Db.applyAll_append (ws ws' : List Write) (db : Db) :
    Db.applyAll (ws ++ ws') db = (Db.applyAll ws db).bind (Db.applyAll ws') := by
  induction ws generalizing db with
  | nil => rfl
  | cons w ws ih =>
    simp only [List.cons_append, Db.applyAll]
    cases w.apply db with
    | none => rfl
    | some db' => exact ih db'

/-! ## The writes of one table -/

/-- The writes that concern one table, and how they change it. -/
structure TableWrites (α : Type) (key : α → ℕ) where
  Part : Type
  write : Part → Write
  part : Write → Option Part
  table : Db → Table α key
  insert : α → Part
  target : Part → ℕ
  onRow : Part → α → α
  change : Part → Change α key
  part_eq_some : ∀ {w v}, part w = some v ↔ w = write v
  change_insert : ∀ r, change (insert r) = .insert r
  change_cases : ∀ v, (∃ r, v = insert r) ∨ ∃ hf, change v = .update (target v) (onRow v) hf
  apply_change : ∀ {w db db'}, Write.apply w db = some db' →
    Change.applyAll ((part w).toList.map change) (table db) = some (table db')

/-- The writes of VM records. -/
def Write.ofVms : TableWrites StudentVM StudentVM.id where
  Part := VmWrite
  write := .vm
  part := Write.onVm
  table := Db.studentVms
  insert := .insert
  target := VmWrite.target
  onRow := VmWrite.onRow
  change := VmWrite.change
  part_eq_some := Write.onVm_eq_some
  change_insert := fun _ => rfl
  change_cases := by
    intro v
    cases v with
    | insert r => exact Or.inl ⟨r, rfl⟩
    | _ => exact Or.inr ⟨VmWrite.onRow_id _, rfl⟩
  apply_change := by
    intro w db db' h
    cases w with
    | vm w =>
      obtain ⟨t, ht, rfl⟩ := Option.map_eq_some_iff.mp h
      simp [Write.onVm, Change.applyAll, VmWrite.apply_change, ht]
    | catalogue w => simp [Write.onVm, Change.applyAll, (CatalogueWrite.apply_rows h).2.2.1]
    | _ =>
      obtain ⟨t, _, rfl⟩ := Option.map_eq_some_iff.mp h
      rfl

/-- The writes of assignments. -/
def Write.ofAssignments : TableWrites LabAssignment LabAssignment.id where
  Part := AssignmentWrite
  write := .assignment
  part := Write.onAssignment
  table := Db.labAssignments
  insert := .insert
  target := AssignmentWrite.target
  onRow := AssignmentWrite.onRow
  change := AssignmentWrite.change
  part_eq_some := Write.onAssignment_eq_some
  change_insert := fun _ => rfl
  change_cases := by
    intro v
    cases v with
    | insert r => exact Or.inl ⟨r, rfl⟩
    | _ => exact Or.inr ⟨AssignmentWrite.onRow_id _, rfl⟩
  apply_change := by
    intro w db db' h
    cases w with
    | assignment w =>
      obtain ⟨t, ht, rfl⟩ := Option.map_eq_some_iff.mp h
      simp [Write.onAssignment, Change.applyAll, AssignmentWrite.apply_change, ht]
    | catalogue w => simp [Write.onAssignment, Change.applyAll, (CatalogueWrite.apply_rows h).2.1]
    | _ =>
      obtain ⟨t, _, rfl⟩ := Option.map_eq_some_iff.mp h
      rfl

/-- The writes of runs. -/
def Write.ofRuns : TableWrites LabRun LabRun.id where
  Part := RunWrite
  write := .run
  part := Write.onRun
  table := Db.labRuns
  insert := .insert
  target := RunWrite.target
  onRow := RunWrite.onRow
  change := RunWrite.change
  part_eq_some := Write.onRun_eq_some
  change_insert := fun _ => rfl
  change_cases := by
    intro v
    cases v with
    | insert r => exact Or.inl ⟨r, rfl⟩
    | _ => exact Or.inr ⟨RunWrite.onRow_id _, rfl⟩
  apply_change := by
    intro w db db' h
    cases w with
    | run w =>
      obtain ⟨t, ht, rfl⟩ := Option.map_eq_some_iff.mp h
      simp [Write.onRun, Change.applyAll, RunWrite.apply_change, ht]
    | catalogue w => simp [Write.onRun, Change.applyAll, (CatalogueWrite.apply_rows h).1]
    | _ =>
      obtain ⟨t, _, rfl⟩ := Option.map_eq_some_iff.mp h
      rfl

/-- The writes of operations. -/
def Write.ofOperations : TableWrites DurableOperation DurableOperation.id where
  Part := OperationWrite
  write := .operation
  part := Write.onOperation
  table := Db.durableOperations
  insert := .insert
  target := OperationWrite.target
  onRow := OperationWrite.onRow
  change := OperationWrite.change
  part_eq_some := Write.onOperation_eq_some
  change_insert := fun _ => rfl
  change_cases := by
    intro v
    cases v with
    | insert r => exact Or.inl ⟨r, rfl⟩
    | _ => exact Or.inr ⟨OperationWrite.onRow_id _, rfl⟩
  apply_change := by
    intro w db db' h
    cases w with
    | operation w =>
      obtain ⟨t, ht, rfl⟩ := Option.map_eq_some_iff.mp h
      simp [Write.onOperation, Change.applyAll, OperationWrite.apply_change, ht]
    | catalogue w =>
      simp [Write.onOperation, Change.applyAll, (CatalogueWrite.apply_rows h).2.2.2]
    | _ =>
      obtain ⟨t, _, rfl⟩ := Option.map_eq_some_iff.mp h
      rfl

namespace TableWrites

variable {α : Type} {key : α → ℕ} (T : TableWrites α key)

/-- The changes that writes make to the table. -/
def changes (ws : List Write) : List (Change α key) :=
  ws.flatMap fun w => (T.part w).toList.map T.change

/-- A change of the table is the change of one of the writes. -/
theorem mem_changes {ws : List Write} {c : Change α key} :
    c ∈ T.changes ws ↔ ∃ v, T.write v ∈ ws ∧ T.change v = c := by
  simp only [changes, List.mem_flatMap, List.mem_map, Option.mem_toList]
  constructor
  · rintro ⟨w, hw, v, hv, hc⟩
    rw [T.part_eq_some.mp hv] at hw
    exact ⟨v, hw, hc⟩
  · rintro ⟨v, hv, hc⟩
    exact ⟨_, hv, v, T.part_eq_some.mpr rfl, hc⟩

/-- An insertion into the table is the insertion of one of the writes. -/
theorem mem_of_insert {ws : List Write} {r : α} (h : .insert r ∈ T.changes ws) :
    T.write (T.insert r) ∈ ws := by
  obtain ⟨v, hv, hchange⟩ := T.mem_changes.mp h
  rcases T.change_cases v with ⟨r', rfl⟩ | ⟨hf, hupdate⟩
  · rw [T.change_insert] at hchange
    cases hchange
    exact hv
  · rw [hupdate] at hchange
    cases hchange

/-- A write that inserts is an insertion into its table. -/
theorem insert_mem {ws : List Write} {r : α} (h : T.write (T.insert r) ∈ ws) :
    .insert r ∈ T.changes ws :=
  T.mem_changes.mpr ⟨_, h, T.change_insert r⟩

/-- An update of the table is that of one of the writes. -/
theorem mem_of_update {ws : List Write} {i : ℕ} {f : α → α} {hf : ∀ r, key (f r) = key r}
    (h : .update i f hf ∈ T.changes ws) :
    ∃ v, T.write v ∈ ws ∧ T.target v = i ∧ f = T.onRow v := by
  obtain ⟨v, hv, hchange⟩ := T.mem_changes.mp h
  rcases T.change_cases v with ⟨r, rfl⟩ | ⟨hf', hupdate⟩
  · rw [T.change_insert] at hchange
    cases hchange
  · rw [hupdate] at hchange
    cases hchange
    exact ⟨v, hv, rfl, rfl⟩

/-- The table after the writes of a transaction. -/
theorem applyAll_changes {ws : List Write} {db db' : Db} (h : Db.applyAll ws db = some db') :
    Change.applyAll (T.changes ws) (T.table db) = some (T.table db') := by
  induction ws generalizing db with
  | nil =>
    cases h
    rfl
  | cons w ws ih =>
    obtain ⟨u, hu, hrest⟩ := Option.bind_eq_some_iff.mp h
    show Change.applyAll ((T.part w).toList.map T.change ++ T.changes ws) (T.table db) = _
    rw [Change.applyAll_append, T.apply_change hu]
    exact ih hrest

section Commit

variable {ws : List Write} {db db' : Db} (h : Db.applyAll ws db = some db')
include h

/-- What a transaction does to one row. -/
theorem row_after {i : ℕ} {P : α → Prop} (hold : ∀ r, (T.table db).get? i = some r → P r)
    (hins : ∀ r, (T.table db).get? i = none → T.write (T.insert r) ∈ ws → key r = i → P r)
    (hupd : ∀ v, T.write v ∈ ws → T.target v = i → ∀ r, key r = i → P r → P (T.onRow v r)) :
    ∀ r, (T.table db').get? i = some r → P r := by
  refine Change.row_of_applyAll (T.applyAll_changes h) hold ?_ ?_
  · intro r hnone hmem hid
    exact hins r hnone (T.mem_of_insert hmem) hid
  · intro f hf hmem r hid hr
    obtain ⟨v, hv, htarget, rfl⟩ := T.mem_of_update hmem
    exact hupd v hv htarget r hid hr

/-- A row that a transaction does not mention. -/
theorem untouched {i : ℕ} (hins : ∀ r, T.write (T.insert r) ∈ ws → key r ≠ i)
    (hno : ∀ v, T.write v ∈ ws → T.target v ≠ i) :
    (T.table db').get? i = (T.table db).get? i := by
  refine Change.get?_of_untouched (T.applyAll_changes h) ?_ ?_
  · exact fun r hmem => hins r (T.mem_of_insert hmem)
  · intro f hf hmem
    obtain ⟨v, hv, htarget, -⟩ := T.mem_of_update hmem
    exact hno v hv htarget

/-- What one write of a transaction establishes and the others preserve holds of a row that was
there. -/
theorem row_of_mem {i : ℕ} {P : α → Prop} (hrow : ((T.table db).get? i).isSome) {v : T.Part}
    (hv : T.write v ∈ ws) (hne : ∀ r, v ≠ T.insert r) (hi : T.target v = i)
    (hP : ∀ r, P (T.onRow v r))
    (hupd : ∀ w, T.write w ∈ ws → T.target w = i → ∀ r, P r → P (T.onRow w r)) :
    ∀ r, (T.table db').get? i = some r → P r := by
  refine Change.row_of_mem (T.applyAll_changes h) hrow ?_ ?_
  · rcases T.change_cases v with ⟨r, rfl⟩ | ⟨hf, hchange⟩
    · exact absurd rfl (hne r)
    · subst hi
      exact ⟨_, hf, T.mem_changes.mpr ⟨v, hv, hchange⟩, hP⟩
  · intro f hf hmem r hr
    obtain ⟨w, hw, htarget, rfl⟩ := T.mem_of_update hmem
    exact hupd w hw htarget r hr

/-- What one write of a transaction that inserts no row establishes and the others preserve
holds of the row it targets. -/
theorem row_of_update {i : ℕ} {P : α → Prop} (hins : ∀ r, T.write (T.insert r) ∉ ws)
    {v : T.Part} (hv : T.write v ∈ ws) (hi : T.target v = i) (hP : ∀ r, P (T.onRow v r))
    (hupd : ∀ w, T.write w ∈ ws → T.target w = i → ∀ r, P r → P (T.onRow w r)) :
    ∀ r, (T.table db').get? i = some r → P r := by
  by_cases hrow : ((T.table db).get? i).isSome
  · refine T.row_of_mem h hrow hv ?_ hi hP hupd
    intro r hr
    rw [hr] at hv
    exact hins r hv
  · refine T.row_after h ?_ ?_ ?_
    · intro r hr
      rw [hr] at hrow
      exact absurd rfl hrow
    · exact fun r _ hr _ => absurd hr (hins r)
    · exact fun w hw htarget r _ hr => hupd w hw htarget r hr

/-- An inserted row was not there before. -/
theorem fresh {r : α} (hr : T.write (T.insert r) ∈ ws) : (T.table db).get? (key r) = none :=
  Change.none_of_insert (T.applyAll_changes h) (T.insert_mem hr)

/-- An inserted row is there afterwards. -/
theorem isSome_of_insert {r : α} (hr : T.write (T.insert r) ∈ ws) :
    ((T.table db').get? (key r)).isSome :=
  Change.isSome_of_insert (T.applyAll_changes h) (T.insert_mem hr)

/-- What holds of an inserted row and is kept by every update holds of it afterwards. -/
theorem row_of_insert {r : α} {P : α → Prop} (hr : T.write (T.insert r) ∈ ws) (hP : P r)
    (hupd : ∀ w, T.write w ∈ ws → T.target w = key r → ∀ r', P r' → P (T.onRow w r')) :
    ∃ r', (T.table db').get? (key r) = some r' ∧ P r' := by
  obtain ⟨r', hr'⟩ := Option.isSome_iff_exists.mp (T.isSome_of_insert h hr)
  refine ⟨r', hr', T.row_after (P := P) h ?_ ?_ ?_ r' hr'⟩
  · intro s hs
    rw [T.fresh h hr] at hs
    cases hs
  · intro s _ hs hkey
    rw [Change.insert_unique (T.applyAll_changes h) (T.insert_mem hr) (T.insert_mem hs) hkey]
    exact hP
  · exact fun w hw htarget s _ hs => hupd w hw htarget s hs

/-- A row that is there stays there. -/
theorem stays {i : ℕ} {r : α} (hr : (T.table db).get? i = some r) :
    ∃ r', (T.table db').get? i = some r' :=
  Option.isSome_iff_exists.mp
    (Change.isSome_of_applyAll (T.applyAll_changes h) (by rw [hr]; rfl))

end Commit

end TableWrites

/-! ## What a commit does to one row -/

section Commit

variable {s : Store} {ws : List Write} {db : { db : Db // db.Constraints }}
  (h : s.afterCommit ws = some db)
include h

/-- A commit that succeeds has applied all its writes. -/
theorem Store.applyAll_of_afterCommit : Db.applyAll ws s.db = some db.1 := by
  unfold Store.afterCommit at h
  split at h
  · cases h
  · rename_i after hafter
    split at h
    · cases h
      exact hafter
    · cases h

/-- What a commit does to one VM record. -/
theorem Store.vm_afterCommit {i : ℕ} {P : StudentVM → Prop}
    (hold : ∀ r, s.db.studentVms.get? i = some r → P r)
    (hins : ∀ r, s.db.studentVms.get? i = none → .vm (.insert r) ∈ ws → r.id = i → P r)
    (hupd : ∀ w, .vm w ∈ ws → w.target = i → ∀ r, r.id = i → P r → P (w.onRow r)) :
    ∀ r, db.1.studentVms.get? i = some r → P r :=
  Write.ofVms.row_after (Store.applyAll_of_afterCommit h) hold hins hupd

/-- What a commit does to one assignment. -/
theorem Store.assignment_afterCommit {i : ℕ} {P : LabAssignment → Prop}
    (hold : ∀ r, s.db.labAssignments.get? i = some r → P r)
    (hins : ∀ r, s.db.labAssignments.get? i = none → .assignment (.insert r) ∈ ws → r.id = i →
      P r)
    (hupd : ∀ w, .assignment w ∈ ws → w.target = i → ∀ r, r.id = i → P r → P (w.onRow r)) :
    ∀ r, db.1.labAssignments.get? i = some r → P r :=
  Write.ofAssignments.row_after (Store.applyAll_of_afterCommit h) hold hins hupd

/-- What a commit does to one run. -/
theorem Store.run_afterCommit {i : ℕ} {P : LabRun → Prop}
    (hold : ∀ r, s.db.labRuns.get? i = some r → P r)
    (hins : ∀ r, s.db.labRuns.get? i = none → .run (.insert r) ∈ ws → r.id = i → P r)
    (hupd : ∀ w, .run w ∈ ws → w.target = i → ∀ r, r.id = i → P r → P (w.onRow r)) :
    ∀ r, db.1.labRuns.get? i = some r → P r :=
  Write.ofRuns.row_after (Store.applyAll_of_afterCommit h) hold hins hupd

/-- What a commit does to one operation. -/
theorem Store.operation_afterCommit {i : ℕ} {P : DurableOperation → Prop}
    (hold : ∀ r, s.db.durableOperations.get? i = some r → P r)
    (hins : ∀ r, s.db.durableOperations.get? i = none → .operation (.insert r) ∈ ws → r.id = i →
      P r)
    (hupd : ∀ w, .operation w ∈ ws → w.target = i → ∀ r, r.id = i → P r → P (w.onRow r)) :
    ∀ r, db.1.durableOperations.get? i = some r → P r :=
  Write.ofOperations.row_after (Store.applyAll_of_afterCommit h) hold hins hupd

/-! ### Rows that a commit does not mention -/

/-- A VM record that no write is about stays as it was. -/
theorem Store.vm_untouched {i : ℕ} (hno : ∀ w, .vm w ∈ ws → w.target ≠ i) :
    db.1.studentVms.get? i = s.db.studentVms.get? i :=
  Write.ofVms.untouched (Store.applyAll_of_afterCommit h) (fun _ hr => hno _ hr) hno

/-- An assignment that no write is about stays as it was. -/
theorem Store.assignment_untouched {i : ℕ} (hno : ∀ w, .assignment w ∈ ws → w.target ≠ i) :
    db.1.labAssignments.get? i = s.db.labAssignments.get? i :=
  Write.ofAssignments.untouched (Store.applyAll_of_afterCommit h) (fun _ hr => hno _ hr) hno

/-- A run that no write is about stays as it was. -/
theorem Store.run_untouched {i : ℕ} (hno : ∀ w, .run w ∈ ws → w.target ≠ i) :
    db.1.labRuns.get? i = s.db.labRuns.get? i :=
  Write.ofRuns.untouched (Store.applyAll_of_afterCommit h) (fun _ hr => hno _ hr) hno

/-- An operation that no write is about stays as it was. -/
theorem Store.operation_untouched {i : ℕ} (hno : ∀ w, .operation w ∈ ws → w.target ≠ i) :
    db.1.durableOperations.get? i = s.db.durableOperations.get? i :=
  Write.ofOperations.untouched (Store.applyAll_of_afterCommit h) (fun _ hr => hno _ hr) hno

/-- What one write of a commit establishes and the others preserve holds of a VM record that
was there. -/
theorem Store.vm_of_mem {i : ℕ} {P : StudentVM → Prop} (hrow : (s.db.studentVms.get? i).isSome)
    {v : VmWrite} (hv : .vm v ∈ ws) (hne : ∀ row, v ≠ .insert row) (hi : v.target = i)
    (hP : ∀ r, P (v.onRow r))
    (hupd : ∀ w, .vm w ∈ ws → w.target = i → ∀ r, P r → P (w.onRow r)) :
    ∀ r, db.1.studentVms.get? i = some r → P r :=
  Write.ofVms.row_of_mem (Store.applyAll_of_afterCommit h) hrow hv hne hi hP hupd

/-- What one write of a commit establishes and the others preserve holds of an assignment that
was there. -/
theorem Store.assignment_of_mem {i : ℕ} {P : LabAssignment → Prop}
    (hrow : (s.db.labAssignments.get? i).isSome) {v : AssignmentWrite} (hv : .assignment v ∈ ws)
    (hne : ∀ row, v ≠ .insert row) (hi : v.target = i) (hP : ∀ r, P (v.onRow r))
    (hupd : ∀ w, .assignment w ∈ ws → w.target = i → ∀ r, P r → P (w.onRow r)) :
    ∀ r, db.1.labAssignments.get? i = some r → P r :=
  Write.ofAssignments.row_of_mem (Store.applyAll_of_afterCommit h) hrow hv hne hi hP hupd

/-- What one write of a commit establishes and the others preserve holds of a run that was
there. -/
theorem Store.run_of_mem {i : ℕ} {P : LabRun → Prop} (hrow : (s.db.labRuns.get? i).isSome)
    {v : RunWrite} (hv : .run v ∈ ws) (hne : ∀ row, v ≠ .insert row) (hi : v.target = i)
    (hP : ∀ r, P (v.onRow r))
    (hupd : ∀ w, .run w ∈ ws → w.target = i → ∀ r, P r → P (w.onRow r)) :
    ∀ r, db.1.labRuns.get? i = some r → P r :=
  Write.ofRuns.row_of_mem (Store.applyAll_of_afterCommit h) hrow hv hne hi hP hupd

/-! ### Rows that are inserted -/

/-- The key of an inserted VM record was free. -/
theorem Store.vm_fresh {r : StudentVM} (hr : .vm (.insert r) ∈ ws) :
    s.db.studentVms.get? r.id = none :=
  Write.ofVms.fresh (Store.applyAll_of_afterCommit h) hr

/-- What holds of an inserted record and is kept by every update holds of it afterwards. -/
theorem Store.vm_inserted {r : StudentVM} {P : StudentVM → Prop} (hr : .vm (.insert r) ∈ ws)
    (hins : ∀ r', .vm (.insert r') ∈ ws → r'.id = r.id → P r')
    (hupd : ∀ w, .vm w ∈ ws → w.target = r.id → ∀ r', P r' → P (w.onRow r')) :
    ∃ r', db.1.studentVms.get? r.id = some r' ∧ P r' := by
  obtain ⟨r', hr'⟩ := Option.isSome_iff_exists.mp
    (Write.ofVms.isSome_of_insert (Store.applyAll_of_afterCommit h) hr)
  refine ⟨r', hr', Store.vm_afterCommit (P := P) h ?_ ?_ ?_ r' hr'⟩
  · intro r'' hr''
    rw [Store.vm_fresh h hr] at hr''
    cases hr''
  · exact fun r'' _ hmem hid => hins r'' hmem hid
  · exact fun w hw htarget r'' _ hP => hupd w hw htarget r'' hP

/-- The key of an inserted assignment was free. -/
theorem Store.assignment_fresh {r : LabAssignment} (hr : .assignment (.insert r) ∈ ws) :
    s.db.labAssignments.get? r.id = none :=
  Write.ofAssignments.fresh (Store.applyAll_of_afterCommit h) hr

/-- What holds of an inserted assignment and is kept by every update holds of it afterwards. -/
theorem Store.assignment_inserted {r : LabAssignment} {P : LabAssignment → Prop}
    (hr : .assignment (.insert r) ∈ ws) (hP : P r)
    (hupd : ∀ w, .assignment w ∈ ws → w.target = r.id → ∀ r', P r' → P (w.onRow r')) :
    ∃ r', db.1.labAssignments.get? r.id = some r' ∧ P r' :=
  Write.ofAssignments.row_of_insert (Store.applyAll_of_afterCommit h) hr hP hupd

/-- The key of an inserted run was free. -/
theorem Store.run_fresh {r : LabRun} (hr : .run (.insert r) ∈ ws) :
    s.db.labRuns.get? r.id = none :=
  Write.ofRuns.fresh (Store.applyAll_of_afterCommit h) hr

/-- The key of an inserted operation was free. -/
theorem Store.operation_fresh {r : DurableOperation} (hr : .operation (.insert r) ∈ ws) :
    s.db.durableOperations.get? r.id = none :=
  Write.ofOperations.fresh (Store.applyAll_of_afterCommit h) hr

/-- A row that no update of the commit targets stays as it is. -/
theorem Store.operation_kept {i : ℕ} {r : DurableOperation}
    (hr : s.db.durableOperations.get? i = some r)
    (hno : ∀ w, .operation w ∈ ws → w.target = i → ∃ row, w = .insert row) :
    db.1.durableOperations.get? i = some r := by
  rw [Store.operation_untouched h, hr]
  intro w hw htarget
  obtain ⟨row, rfl⟩ := hno w hw htarget
  have hid : row.id = i := htarget
  have := Store.operation_fresh h hw
  rw [hid, hr] at this
  cases this

/-! ### Rows that stay -/

/-- A commit deletes no VM record. -/
theorem Store.vm_stays {i : ℕ} {r : StudentVM} (hr : s.db.studentVms.get? i = some r) :
    ∃ r', db.1.studentVms.get? i = some r' :=
  Write.ofVms.stays (Store.applyAll_of_afterCommit h) hr

/-- A commit deletes no assignment. -/
theorem Store.assignment_stays {i : ℕ} {r : LabAssignment}
    (hr : s.db.labAssignments.get? i = some r) : ∃ r', db.1.labAssignments.get? i = some r' :=
  Write.ofAssignments.stays (Store.applyAll_of_afterCommit h) hr

/-- A commit deletes no run. -/
theorem Store.run_stays {i : ℕ} {r : LabRun} (hr : s.db.labRuns.get? i = some r) :
    ∃ r', db.1.labRuns.get? i = some r' :=
  Write.ofRuns.stays (Store.applyAll_of_afterCommit h) hr

/-- A commit deletes no operation. -/
theorem Store.operation_stays {i : ℕ} {r : DurableOperation}
    (hr : s.db.durableOperations.get? i = some r) :
    ∃ r', db.1.durableOperations.get? i = some r' :=
  Write.ofOperations.stays (Store.applyAll_of_afterCommit h) hr

end Commit

/-- The row of `durable_operations` that a write inserts. -/
def Write.queued : Write → Option DurableOperation
  | .operation (.insert row) => some row
  | _ => none

/-- The row that a write queues is the operation that it inserts. -/
theorem Write.queued_eq_some {w : Write} {row : DurableOperation} :
    w.queued = some row ↔ w = .operation (.insert row) := by
  unfold Write.queued
  split <;> simp_all

/-- Writes that update no operation append the operations they queue. -/
theorem Db.operations_of_queued {ws : List Write} {db db' : Db}
    (h : Db.applyAll ws db = some db')
    (hws : ∀ w, .operation w ∈ ws → ∃ row, w = .insert row) :
    db'.durableOperations.rows = db.durableOperations.rows ++ ws.filterMap Write.queued := by
  have hchanges := Write.ofOperations.applyAll_changes h
  have hpart : ∀ w ∈ ws, ((Write.ofOperations.part w).toList.map
      Write.ofOperations.change).filterMap Change.inserted = w.queued.toList := by
    intro w hw
    cases w with
    | operation w =>
      obtain ⟨row, rfl⟩ := hws w hw
      rfl
    | _ => rfl
  show (Write.ofOperations.table db').rows = _
  rw [Change.rows_of_inserts hchanges]
  · unfold TableWrites.changes
    rw [List.filterMap_flatMap, List.flatMap_congr hpart, List.filterMap_eq_flatMap_toList]
    rfl
  · intro c hc
    obtain ⟨o, ho, rfl⟩ := Write.ofOperations.mem_changes.mp hc
    obtain ⟨row, rfl⟩ := hws o ho
    exact ⟨row, rfl⟩

/-- A commit of one update, next to writes to other tables, changes its row by it. -/
theorem Store.operation_after_pending {s : Store} (pending : List Write) {w : OperationWrite}
    {db : { db : Db // db.Constraints }} (hpending : ∀ w, .operation w ∉ pending)
    (h : s.afterCommit (pending ++ [.operation w]) = some db) (hw : ∀ row, w ≠ .insert row) :
    db.1.durableOperations.get? w.target =
      (s.db.durableOperations.get? w.target).map w.onRow := by
  have hnone : ∀ v ∈ pending, v.onOperation = none := by
    intro v hv
    cases v with
    | operation w => exact absurd hv (hpending w)
    | _ => rfl
  have hchanges : Write.ofOperations.changes (pending ++ [.operation w]) = [w.change] := by
    have hempty : Write.ofOperations.changes pending = [] := by
      refine List.flatMap_eq_nil_iff.mpr ?_
      intro v hv
      show (v.onOperation.toList.map _) = []
      rw [hnone v hv]
      rfl
    unfold TableWrites.changes at hempty ⊢
    rw [List.flatMap_append, hempty]
    rfl
  have hafter := Write.ofOperations.applyAll_changes (Store.applyAll_of_afterCommit h)
  rw [hchanges] at hafter
  cases w with
  | insert row => exact absurd rfl (hw row)
  | _ =>
    have hdb := Option.some.inj hafter
    show (Write.ofOperations.table db.1).get? _ = _
    rw [← hdb]
    exact Table.get?_update_self _ _ _ _

/-- A commit of one update changes its row by it. -/
theorem Store.operation_after {s : Store} {w : OperationWrite}
    {db : { db : Db // db.Constraints }} (h : s.afterCommit [.operation w] = some db)
    (hw : ∀ row, w ≠ .insert row) :
    db.1.durableOperations.get? w.target =
      (s.db.durableOperations.get? w.target).map w.onRow :=
  Store.operation_after_pending [] (by simp) h hw

end LabGoblin
