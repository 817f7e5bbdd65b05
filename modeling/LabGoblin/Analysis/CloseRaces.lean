import LabGoblin.Analysis.Fixture
import LabGoblin.Analysis.LockConduct

/-!
# Closing a run while its students create VMs

`change_lab_run_state` locks the run and `create_vm` the assignment; each reads the row of the
other without a lock. A VM that is linked between the two reads of the one and its commit is not
seen, and nothing is queued to delete it. In the runs in which this does not happen, closing a
run catches every VM.
-/

set_option autoImplicit false

namespace LabGoblin

open Interactive

/-! ## Writes of the two requests -/

/-- The requests that race. -/
def Request.linksOrCloses : Request → Bool
  | .createVm _ _ => true
  | .changeLabRunState _ _ _ _ => true
  | _ => false

/-- An assignment is linked or closed. -/
def AssignmentWrite.LinksOrCloses : AssignmentWrite → Prop
  | .link _ _ => True
  | .status _ s => s.live = false
  | _ => False

/-- A write that links or closes makes no assignment live. -/
theorem AssignmentWrite.LinksOrCloses.onRow {w : AssignmentWrite} (h : w.LinksOrCloses)
    {a : LabAssignment} (ha : a.status.live = false) : (w.onRow a).status.live = false := by
  cases w with
  | link _ _ => exact ha
  | status _ s => exact h
  | _ => exact h.elim

/-- Every assignment of the later database was in the earlier one, and live if it is now. -/
def Db.Wanes (db db' : Db) : Prop :=
  ∀ i a', db'.labAssignments.get? i = some a' →
    ∃ a, db.labAssignments.get? i = some a ∧ (a'.status.live = true → a.status.live = true)

/-- With the same rows no assignment becomes live. -/
theorem Db.Wanes.of_sameRows {db db' : Db} (h : db.SameRows db') : db.Wanes db' := by
  intro i a ha
  rw [h.assignment i] at ha
  exact ⟨a, ha, id⟩

/-- Where no assignment becomes live in two steps, none does in both. -/
theorem Db.Wanes.trans {a b c : Db} (h : a.Wanes b) (h' : b.Wanes c) : a.Wanes c := by
  intro i x hx
  obtain ⟨y, hy, hyx⟩ := h' i x hx
  obtain ⟨z, hz, hzy⟩ := h i y hy
  exact ⟨z, hz, fun hlive => hzy (hyx hlive)⟩

/-- A deletion of the VM has been queued. -/
def Db.Deletes (db : Db) (v : ℕ) : Prop :=
  ∃ o ∈ db.durableOperations.rows, o.operationType = .delete ∧ o.target = .studentVm v

/-- A queued deletion stays while operations keep their jobs. -/
theorem Db.Deletes.of_sameJob {db db' : Db} {v : ℕ} (h : db.Deletes v)
    (hjobs : ∀ i o, db.durableOperations.get? i = some o →
      ∃ o', db'.durableOperations.get? i = some o' ∧ o.SameJob o') : db'.Deletes v := by
  obtain ⟨o, ho, htype, htarget⟩ := h
  obtain ⟨o', ho', hsame⟩ := hjobs _ _ (Table.get?_of_mem ho)
  exact ⟨o', Table.mem_of_get? ho', hsame.operationType.trans htype,
    hsame.target.trans htarget⟩

/-- The assignments of the run are closed, and a deletion of each of their VMs is queued. -/
structure Db.Swept (db : Db) (i : ℕ) : Prop where
  closed : ∀ a ∈ db.labAssignments.rows, a.labRunId = i → a.status.live = false
  queued : ∀ a ∈ db.labAssignments.rows, a.labRunId = i → ∀ v, a.studentVmId = some v →
    db.Deletes v

/-- A run stays swept when the rows are the same. -/
theorem Db.Swept.sameRows {db db' : Db} {i : ℕ} (h : db.Swept i) (hrows : db.SameRows db') :
    db'.Swept i := by
  refine ⟨?_, ?_⟩
  · rw [hrows.labAssignments]
    exact h.closed
  · rw [hrows.labAssignments]
    intro a ha hrun v hv
    unfold Db.Deletes
    rw [hrows.durableOperations]
    exact h.queued a ha hrun v hv

section Races

variable {H : Type} {settings : Settings} {outside : Outside H} {ok : Condition H} {p : Pid}
  {ws : List Write} {t : Sys H} {db : { db : Db // db.Constraints }} {i : ℕ}

/-! ## Commits -/

/-- A commit of one of the two requests rests on the lock that its request takes. -/
theorem LockedStmt.linksOrTransits (h : LockedStmt ok p (.commit ws) t)
    (hscope : ∀ p r, Entry.enter p r ∈ t.log → r.linksOrCloses = true) :
    (LinksLocked p ws t ∧ ∀ w ∈ ws, w.ofCreateVm) ∨
      ((∃ runId action run nextState flushed,
        Transits p runId action ws t run nextState flushed) ∧ ∀ w ∈ ws, w.closes) := by
  obtain ⟨r, hr, hground⟩ := h.rests ws rfl
  obtain ⟨r', hr', ⟨hworker, -⟩ | ⟨-, hrequest⟩⟩ := h.conducted.split
  · have hin := hscope p r' hr'
    cases r' with
    | operationWorker _ => cases hin
    | _ => cases hworker
  · rw [h.logged.request p r' r hr' hr] at hrequest
    have hin := hscope p r hr
    cases r with
    | createVm caller payload => exact Or.inl ⟨hground, fun w hw => (hrequest w hw).1⟩
    | changeLabRunState caller runId action confirmation =>
      obtain ⟨run, nextState, flushed, htransits⟩ := hground
      exact Or.inr ⟨⟨runId, action, run, nextState, flushed, htransits⟩,
        fun w hw => (hrequest w hw).1⟩
    | _ => cases hin

/-- What the two requests write of assignments. -/
theorem LockedStmt.linksOrCloses (h : LockedStmt ok p (.commit ws) t)
    (hscope : ∀ p r, Entry.enter p r ∈ t.log → r.linksOrCloses = true) :
    ∀ w, .assignment w ∈ ws → w.LinksOrCloses := by
  intro w hw
  rcases h.linksOrTransits hscope with ⟨-, hwrites⟩ | ⟨-, hwrites⟩
  · have hwrite := hwrites _ hw
    cases w with
    | link _ _ => trivial
    | _ => exact hwrite.elim
  · have hwrite := hwrites _ hw
    cases w with
    | status _ s =>
      rcases hwrite with rfl | rfl
      · rfl
      · rfl
    | _ => exact hwrite.elim

/-- An assignment after a commit is the same as before, but for its status and its link. -/
theorem LockedStmt.rowBefore (h : LockedStmt ok p (.commit ws) t)
    (hscope : ∀ p r, Entry.enter p r ∈ t.log → r.linksOrCloses = true)
    (hcommit : t.store.afterCommit ws = some db) {a : LabAssignment}
    (ha : a ∈ db.1.labAssignments.rows) :
    ∃ b, t.store.db.labAssignments.get? a.id = some b ∧ b.labRunId = a.labRunId := by
  rcases assignment_before hcommit ha with ⟨b, hb, hplace⟩ | ⟨b, hb, -⟩
  · exact ⟨b, hb, hplace.labRunId.symm⟩
  · exact (h.linksOrCloses hscope _ hb).elim

/-- A statement makes no assignment live. -/
theorem LockedStmt.wanes {q : Stmt} (h : LockedStmt ok p q t)
    (hscope : ∀ p r, Entry.enter p r ∈ t.log → r.linksOrCloses = true) :
    t.store.db.Wanes (t.store.exec p q).db := by
  rcases Store.exec_cases p q t.store with ⟨ws, db, rfl, hcommit, hdb, -⟩ | ⟨-, -, hsame⟩
  · intro i a' ha'
    rw [hdb] at ha'
    obtain ⟨a, ha, -⟩ := h.rowBefore hscope hcommit (Table.mem_of_get? ha')
    rw [Table.get?_key ha'] at ha
    refine ⟨a, ha, fun hlive => ?_⟩
    by_contra hclosed
    rw [Bool.not_eq_true] at hclosed
    have hafter : a'.status.live = false := by
      refine Store.assignment_afterCommit (P := fun r => r.status.live = false) hcommit ?_ ?_
        (fun w hw _ r _ hr => (h.linksOrCloses hscope w hw).onRow hr) a' ha'
      · intro r hr
        rw [ha] at hr
        cases hr
        exact hclosed
      · intro r hr
        rw [ha] at hr
        cases hr
    rw [hlive] at hafter
    cases hafter
  · exact .of_sameRows hsame

/-- What is swept stays swept: no assignment of the run can be linked any more. -/
theorem LockedStmt.swept {q : Stmt} (h : LockedStmt ok p q t)
    (hscope : ∀ p r, Entry.enter p r ∈ t.log → r.linksOrCloses = true)
    (hswept : t.store.db.Swept i) : (t.store.exec p q).db.Swept i := by
  have hjobs := exec_operations h.conducted
  rcases Store.exec_cases p q t.store with ⟨ws, db, rfl, hcommit, hdb, -⟩ | ⟨-, -, hsame⟩
  · have hkeeps : ∀ a ∈ db.1.labAssignments.rows, a.labRunId = i → a.status.live = false ∧
        ∀ v, a.studentVmId = some v → t.store.db.Deletes v := by
      intro a ha hrun
      obtain ⟨b, hb, hrunb⟩ := h.rowBefore hscope hcommit ha
      have hmem := Table.mem_of_get? hb
      have hbrun : b.labRunId = i := hrunb.trans hrun
      refine Store.assignment_afterCommit (P := fun r => r.status.live = false ∧
        ∀ v, r.studentVmId = some v → t.store.db.Deletes v) hcommit ?_ ?_ ?_ a
        (Table.get?_of_mem ha)
      · intro r hr
        rw [hb] at hr
        cases hr
        exact ⟨hswept.closed b hmem hbrun, hswept.queued b hmem hbrun⟩
      · intro r hr
        rw [hb] at hr
        cases hr
      · intro w hw htarget r _ ⟨hclosed, hqueued⟩
        have hform := h.linksOrCloses hscope w hw
        refine ⟨hform.onRow hclosed, ?_⟩
        cases w with
        | status _ s => exact hqueued
        | link a' v' =>
          -- the link rests on the locked row of the assignment, which is live
          exfalso
          have htarget : a' = a.id := htarget
          have hlink : LinksLocked p ws t := by
            rcases h.linksOrTransits hscope with ⟨hlink, -⟩ | ⟨-, hwrites⟩
            · exact hlink
            · exact (hwrites _ hw).elim
          obtain ⟨row, vm, hid, hlocked, hstatus, -⟩ := hlink a' v' hw
          have hrow := hlocked.row
          rw [hid, htarget, hb] at hrow
          cases hrow
          have hdead := hswept.closed b hmem hbrun
          rw [hstatus] at hdead
          cases hdead
        | _ => exact hform.elim
    rw [hdb] at hjobs ⊢
    refine ⟨fun a ha hrun => (hkeeps a ha hrun).1, fun a ha hrun v hv => ?_⟩
    exact ((hkeeps a ha hrun).2 v hv).of_sameJob hjobs
  · exact hswept.sameRows hsame

/-- The entry is a commit that closed the run. -/
def Entry.Closed (i : ℕ) : Entry → Prop
  | .stmt _ (.commit ws) s => (s.afterCommit ws).isSome ∧ ∃ state activatedAt endedAt,
      .run (.transition i state activatedAt endedAt) ∈ ws ∧ state.closed = true
  | _ => False

/-- No assignment has become live, and closed runs are swept. -/
structure Sweeping (t : Sys H) : Prop where
  scope : ∀ p r, Entry.enter p r ∈ t.log → r.linksOrCloses = true
  wanes : ∀ p q s, Entry.stmt p q s ∈ t.log → s.db.Wanes t.store.db
  swept : ∀ i e, e ∈ t.log → e.Closed i → t.store.db.Swept i

/-- An entry that is no statement changes nothing. -/
theorem Sweeping.cons {t t' : Sys H} (h : Sweeping t) {e : Entry} (hlog : t'.log = e :: t.log)
    (hstore : t'.store.db = t.store.db) (hstmt : ∀ p q s, e ≠ .stmt p q s)
    (hscope : ∀ p r, e = .enter p r → r.linksOrCloses = true) : Sweeping t' := by
  refine ⟨?_, ?_, ?_⟩
  · intro p r hr
    rw [hlog] at hr
    rcases List.mem_cons.mp hr with heq | hr
    · exact hscope p r heq.symm
    · exact h.scope p r hr
  · intro p q s hs
    rw [hlog] at hs
    rw [hstore]
    rcases List.mem_cons.mp hs with heq | hs
    · exact absurd heq.symm (hstmt p q s)
    · exact h.wanes p q s hs
  · intro i e' he' hclosed
    rw [hlog] at he'
    rw [hstore]
    rcases List.mem_cons.mp he' with rfl | he'
    · cases e' with
      | stmt p q s => exact absurd rfl (hstmt p q s)
      | _ => exact hclosed.elim
    · exact h.swept i e' he' hclosed

end Races

namespace Fixture

/-- The cluster lists the template on its node. -/
def listed : (c : Call) → Except Exc c.Reply
  | .discoverTemplates _ => .ok [⟨some "n", some 9000⟩]
  | _ => .error (.transport "")

end Fixture

end LabGoblin
