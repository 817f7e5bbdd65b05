import LabGoblin.Analysis.Effects
import LabGoblin.Model.Deployment

/-!
# The history of a run

What the log of a run says: which request a process serves, what has been committed, which
operation a process has claimed and not finished, and who claimed an operation last. All of
it is read off the log newest entry first.
-/

set_option autoImplicit false

namespace LabGoblin

open Interactive

/-- The process that an entry is about. -/
def Entry.pid : Entry → Pid
  | .enter p _ => p
  | .stmt p _ _ => p
  | .call p _ _ => p
  | .reply p _ _ => p
  | .leave p => p

/-- The writes that an entry made visible: those of a commit that succeeded. -/
def Entry.written : Entry → List Write
  | .stmt _ (.commit ws) s => if (s.afterCommit ws).isSome then ws else []
  | _ => []

/-- What a commit made visible is what it was asked to write. -/
theorem mem_of_mem_written {p : Pid} {ws : List Write} {s : Store} {w : Write}
    (h : w ∈ (Entry.stmt p (.commit ws) s).written) : w ∈ ws := by
  have h : w ∈ if (s.afterCommit ws).isSome then ws else [] := h
  by_cases hs : (s.afterCommit ws).isSome
  · rwa [if_pos hs] at h
  · rw [if_neg hs] at h
    cases h

/-- The entries of one process. -/
def entriesOf (p : Pid) (log : List Entry) : List Entry :=
  log.filter fun e => e.pid = p

/-- An entry of the process is among its entries. -/
@[simp] theorem entriesOf_cons_self {p : Pid} {e : Entry} (log : List Entry) (h : e.pid = p) :
    entriesOf p (e :: log) = e :: entriesOf p log := by
  simp [entriesOf, h]

/-- An entry of another process is not. -/
theorem entriesOf_cons_of_ne {p : Pid} {e : Entry} (log : List Entry) (h : e.pid ≠ p) :
    entriesOf p (e :: log) = entriesOf p log := by
  simp [entriesOf, h]

/-- The entries in two logs are those in the first one and then in the second one. -/
theorem entriesOf_append (p : Pid) (log log' : List Entry) :
    entriesOf p (log ++ log') = entriesOf p log ++ entriesOf p log' :=
  List.filter_append _ _

/-- The entries of a process are the entries of the log that are about it. -/
theorem mem_entriesOf {p : Pid} {e : Entry} {log : List Entry} :
    e ∈ entriesOf p log ↔ e ∈ log ∧ e.pid = p := by
  simp [entriesOf]

/-- A process that has done nothing yet has entered. -/
theorem mem_of_entriesOf_enter {p : Pid} {r : Request} {log : List Entry}
    (h : entriesOf p log = [.enter p r]) : Entry.enter p r ∈ log := by
  have hmem : Entry.enter p r ∈ entriesOf p log := by
    rw [h]
    exact List.mem_singleton_self _
  exact (mem_entriesOf.mp hmem).1

/-- The statement ends a transaction. -/
def Stmt.ends : Stmt → Bool
  | .commit _ => true
  | .rollback => true
  | _ => false

/-- The statements since the last end of a transaction, in the entries of one process. -/
def sinceEnd : List Entry → List (Stmt × Store)
  | [] => []
  | .stmt _ q s :: log => if q.ends then [] else (q, s) :: sinceEnd log
  | .leave _ :: _ => []
  | _ :: log => sinceEnd log

/-- The statements of the open transaction of a process, each with the store it found. -/
def openTransaction (p : Pid) (log : List Entry) : List (Stmt × Store) :=
  sinceEnd (entriesOf p log)

/-- An entry of another process leaves the open transaction. -/
theorem openTransaction_cons_of_ne {p : Pid} {e : Entry} (log : List Entry) (h : e.pid ≠ p) :
    openTransaction p (e :: log) = openTransaction p log := by
  unfold openTransaction
  rw [entriesOf_cons_of_ne log h]

/-- A call and its reply are no statements of the open transaction. -/
theorem openTransaction_call (p : Pid) (c : Call) (s : Store) (r : Except Exc c.Reply)
    (log : List Entry) :
    openTransaction p (.reply p c r :: .call p c s :: log) = openTransaction p log := by
  have hreply : (Entry.reply p c r).pid = p := rfl
  have hcall : (Entry.call p c s).pid = p := rfl
  unfold openTransaction
  rw [entriesOf_cons_self _ hreply, entriesOf_cons_self _ hcall]
  rfl

/-- What is in a transaction after an entry was in it before, or is the entry. -/
theorem mem_openTransaction_cons {p : Pid} {e : Entry} {log : List Entry} {x : Stmt × Store}
    (h : x ∈ openTransaction p (e :: log)) :
    x ∈ openTransaction p log ∨ e = .stmt p x.1 x.2 ∧ x.1.ends = false := by
  by_cases hp : e.pid = p
  · unfold openTransaction at h
    rw [entriesOf_cons_self log hp] at h
    cases e with
    | stmt p' q s =>
      cases hp
      unfold sinceEnd at h
      cases hends : q.ends with
      | true =>
        rw [hends, if_pos rfl] at h
        cases h
      | false =>
        rw [hends, if_neg Bool.false_ne_true] at h
        rcases List.mem_cons.mp h with rfl | h
        · exact Or.inr ⟨rfl, hends⟩
        · exact Or.inl h
    | leave p' => cases h
    | _ => exact Or.inl h
  · rw [openTransaction_cons_of_ne log hp] at h
    exact Or.inl h

/-- What a write does to the operation that a worker has in hand. -/
def Write.hand (h : Option ℕ) : Write → Option ℕ
  | .operation (.claim o _ _ _ _) => some o
  | .operation (.complete _ _ _) => none
  | .operation (.retry _ _ _) => none
  | .operation (.fail _ _ _) => none
  | .operation (.cancel _ _ _) => none
  | _ => h

/-- The operation in hand after an entry of the process. -/
def Entry.hand (h : Option ℕ) (e : Entry) : Option ℕ :=
  e.written.foldl Write.hand h

/-- The operation that a process has claimed and neither finished nor given back. -/
def inHand (p : Pid) (log : List Entry) : Option ℕ :=
  (entriesOf p log).foldr (fun e h => e.hand h) none

/-- An entry of another process leaves the operation in hand. -/
theorem inHand_cons_of_ne {p : Pid} {e : Entry} (log : List Entry) (h : e.pid ≠ p) :
    inHand p (e :: log) = inHand p log := by
  unfold inHand
  rw [entriesOf_cons_of_ne log h]

/-- An entry of the process does to the operation in hand what it says. -/
theorem inHand_cons_self {p : Pid} {e : Entry} (log : List Entry) (h : e.pid = p) :
    inHand p (e :: log) = e.hand (inHand p log) := by
  unfold inHand
  rw [entriesOf_cons_self log h]
  rfl

/-- An entry that made nothing visible leaves in hand what was. -/
theorem inHand_cons_of_quiet (p : Pid) {e : Entry} (log : List Entry) (h : e.written = []) :
    inHand p (e :: log) = inHand p log := by
  by_cases hp : e.pid = p
  · rw [inHand_cons_self log hp]
    unfold Entry.hand
    rw [h]
    rfl
  · exact inHand_cons_of_ne log hp

/-- Writes that neither claim nor finish an operation leave in hand what was. -/
theorem inHand_foldl {ws : List Write} {h : Option ℕ}
    (hws : ∀ w ∈ ws, ∀ h, w.hand h = h) : ws.foldl Write.hand h = h := by
  induction ws generalizing h with
  | nil => rfl
  | cons w ws ih =>
    rw [List.foldl_cons, hws w List.mem_cons_self]
    exact ih fun w' hw' => hws w' (List.mem_cons_of_mem w hw')

/-- Without a claim, what is in hand afterwards was in hand all along. -/
theorem inHand_of_foldl {ws : List Write} {h : Option ℕ} {o : ℕ}
    (hws : ∀ w ∈ ws, ∀ o' owner lease started attempts,
      w ≠ .operation (.claim o' owner lease started attempts))
    (ho : ws.foldl Write.hand h = some o) :
    h = some o ∧ ∀ w ∈ ws, w.hand (some o) = some o := by
  induction ws generalizing h with
  | nil => exact ⟨ho, by simp⟩
  | cons w ws ih =>
    obtain ⟨hw, hrest⟩ := ih (fun w' hw' => hws w' (List.mem_cons_of_mem w hw')) ho
    have hkeeps : h = some o ∧ w.hand (some o) = some o := by
      cases w with
      | operation w =>
        cases w with
        | claim o' owner lease started attempts =>
          exact absurd rfl (hws _ List.mem_cons_self o' owner lease started attempts)
        | insert row => exact ⟨hw, rfl⟩
        | renewLease o' lease => exact ⟨hw, rfl⟩
        | checkpoint o' upid payload lease => exact ⟨hw, rfl⟩
        | _ => cases hw
      | _ => exact ⟨hw, rfl⟩
    refine ⟨hkeeps.1, ?_⟩
    intro w' hw'
    rcases List.mem_cons.mp hw' with rfl | hw'
    · exact hkeeps.2
    · exact hrest w' hw'

/-- The write claims the operation. -/
def Write.claims (o : ℕ) : Write → Bool
  | .operation (.claim o' _ _ _ _) => o' = o
  | _ => false

/-- The process that claimed an operation last. -/
def lastClaimant (o : ℕ) (log : List Entry) : Option Pid :=
  (log.find? fun e => e.written.any (Write.claims o)).map Entry.pid

/-- An entry that claims nothing leaves the last claimant. -/
theorem lastClaimant_cons_of_quiet {o : ℕ} {e : Entry} (log : List Entry)
    (h : ∀ w ∈ e.written, w.claims o = false) :
    lastClaimant o (e :: log) = lastClaimant o log := by
  unfold lastClaimant
  rw [List.find?_cons_of_neg]
  simpa using h

/-- The process of an entry that claims the operation is its last claimant. -/
theorem lastClaimant_cons_of_claims {o : ℕ} {e : Entry} (log : List Entry) {w : Write}
    (hw : w ∈ e.written) (h : w.claims o = true) :
    lastClaimant o (e :: log) = some e.pid := by
  unfold lastClaimant
  rw [List.find?_cons_of_pos]
  · rfl
  · exact List.any_eq_true.mpr ⟨w, hw, h⟩

/-- The VM records that an entry found by a search. A load by primary key finds nothing: what
it loads was found, or named by an operation, before. -/
def Entry.found : Entry → List ℕ
  | .stmt _ (.select (.vm _)) _ => []
  | .stmt _ (.select q) s => q.vms s.db
  | _ => []

/-- The VM records that a process has found. -/
def foundVms (p : Pid) (log : List Entry) : List ℕ :=
  (entriesOf p log).flatMap Entry.found

/-- An entry that found nothing leaves what was found. -/
theorem foundVms_cons_of_quiet (p : Pid) {e : Entry} (log : List Entry) (h : e.found = []) :
    foundVms p (e :: log) = foundVms p log := by
  unfold foundVms
  by_cases hp : e.pid = p
  · rw [entriesOf_cons_self log hp, List.flatMap_cons, h, List.nil_append]
  · rw [entriesOf_cons_of_ne log hp]

/-- The process has ended. -/
def Ended (p : Pid) (log : List Entry) : Prop :=
  Entry.leave p ∈ log

/-- Each entry of the log stands in a relation to the entries before it. -/
def EachAfter (P : Entry → List Entry → Prop) (log : List Entry) : Prop :=
  ∀ newer e older, log = newer ++ e :: older → P e older

/-- In the empty log nothing is asked. -/
theorem EachAfter.nil (P : Entry → List Entry → Prop) : EachAfter P [] := by
  intro newer e older heq
  simp at heq

/-- An entry that stands in the relation to a log may be put before it. -/
theorem EachAfter.cons {P : Entry → List Entry → Prop} {log : List Entry} (h : EachAfter P log)
    {e : Entry} (he : P e log) : EachAfter P (e :: log) := by
  intro newer e' older heq
  cases newer with
  | nil =>
    rw [List.nil_append] at heq
    injection heq with he' holder
    subst he' holder
    exact he
  | cons a newer =>
    rw [List.cons_append] at heq
    injection heq with _ hrest
    exact h newer e' older hrest

/-! ## What a statement does -/

/-- Two databases with the same runs, assignments, VM records and operations. -/
structure Db.SameRows (db db' : Db) : Prop where
  labRuns : db'.labRuns.rows = db.labRuns.rows
  labAssignments : db'.labAssignments.rows = db.labAssignments.rows
  studentVms : db'.studentVms.rows = db.studentVms.rows
  durableOperations : db'.durableOperations.rows = db.durableOperations.rows

/-- A database has the same rows as itself. -/
theorem Db.SameRows.refl (db : Db) : db.SameRows db := ⟨rfl, rfl, rfl, rfl⟩

/-- Having the same rows is transitive. -/
theorem Db.SameRows.trans {a b c : Db} (h : a.SameRows b) (h' : b.SameRows c) : a.SameRows c :=
  ⟨h'.labRuns.trans h.labRuns, h'.labAssignments.trans h.labAssignments,
    h'.studentVms.trans h.studentVms, h'.durableOperations.trans h.durableOperations⟩

/-- Drawing a key changes no row. -/
theorem Db.SameRows.draw (db : Db) (q : Sequence) : db.SameRows (db.draw q) := by
  cases q <;> exact ⟨rfl, rfl, rfl, rfl⟩

/-- The environment changes no run, assignment, VM record or operation. -/
theorem Store.Environment.sameRows {s s' : Store} (h : s.Environment s') :
    s.db.SameRows s'.db :=
  ⟨by rw [h.labRuns], by rw [h.labAssignments], by rw [h.studentVms],
    by rw [h.durableOperations]⟩

section SameRows

variable {db db' : Db} (h : db.SameRows db')
include h

/-- The same assignments are found. -/
theorem Db.SameRows.assignment (i : ℕ) : db'.labAssignments.get? i = db.labAssignments.get? i := by
  unfold Table.get?
  rw [h.labAssignments]

/-- The same VM records are found. -/
theorem Db.SameRows.vm (i : ℕ) : db'.studentVms.get? i = db.studentVms.get? i := by
  unfold Table.get?
  rw [h.studentVms]

/-- The same operations are found. -/
theorem Db.SameRows.operation (i : ℕ) :
    db'.durableOperations.get? i = db.durableOperations.get? i := by
  unfold Table.get?
  rw [h.durableOperations]

end SameRows

/-- A commit makes its writes when they can be made, and either way ends the transaction. -/
theorem Store.exec_commit (p : Pid) (ws : List Write) (s : Store) :
    s.exec p (.commit ws) = match s.afterCommit ws with
      | none => s.release p
      | some db => { s with db := db.1, valid := db.2 }.release p := rfl

/-- A commit that violates a constraint is rolled back. -/
theorem Store.exec_commit_none {p : Pid} {ws : List Write} {s : Store}
    (h : s.afterCommit ws = none) : s.exec p (.commit ws) = s.release p := by
  rw [exec_commit, h]

/-- A commit that succeeds leaves its writes and releases the locks. -/
theorem Store.exec_commit_some {p : Pid} {ws : List Write} {s : Store}
    {db : { db : Db // db.Constraints }} (h : s.afterCommit ws = some db) :
    s.exec p (.commit ws) = { s with db := db.1, valid := db.2 }.release p := by
  rw [exec_commit, h]

/-- A statement is a commit that succeeds, or it makes nothing visible and changes no row. -/
theorem Store.exec_cases (p : Pid) (q : Stmt) (s : Store) :
    (∃ ws db, q = .commit ws ∧ s.afterCommit ws = some db ∧ (s.exec p q).db = db.1 ∧
        (Entry.stmt p q s).written = ws) ∨
      ((∀ ws, q = .commit ws → s.afterCommit ws = none) ∧ (Entry.stmt p q s).written = [] ∧
        s.db.SameRows (s.exec p q).db) := by
  cases q with
  | commit ws =>
    cases h : s.afterCommit ws with
    | none =>
      right
      refine ⟨?_, by simp [Entry.written, h], ?_⟩
      · intro ws' hws
        cases hws
        exact h
      · rw [Store.exec_commit_none h]
        exact Db.SameRows.refl _
    | some db =>
      left
      refine ⟨ws, db, rfl, h, ?_, by simp [Entry.written, h]⟩
      rw [Store.exec_commit_some h]
      rfl
  | draw sq => exact Or.inr ⟨by simp, rfl, Db.SameRows.draw _ _⟩
  | _ => exact Or.inr ⟨by simp, rfl, Db.SameRows.refl _⟩

end LabGoblin
