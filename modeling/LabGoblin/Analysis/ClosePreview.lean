import LabGoblin.Analysis.Alone
import LabGoblin.Analysis.Fixture
import LabGoblin.Analysis.History

/-!
# The preview of closing a run

What `change_lab_run_state` does to the assignments and the VMs of the run that it closes, and
when the preview of it tells the truth: the preview reports every assignment of the run and every
VM that is linked to one, the action visits the assignments that are assigned or ready.
-/

set_option autoImplicit false

namespace LabGoblin

open Interactive

variable {H : Type} {outside : Outside H} {p : Pid}

/-! ## The closing loop -/

/-- Nothing but statuses of assignments and queued operations, none of which has the key. -/
def LeavesKey (key : IdempotencyKey) (ws : List Write) : Prop :=
  ∀ w, .operation w ∈ ws → ∃ row, w = .insert row ∧ row.idempotencyKey ≠ key

/-- A search for a key is not affected by writes that do not queue it. -/
theorem operationWithKey_withFlushed {s : Store} {key : IdempotencyKey} {ws : List Write}
    (h : LeavesKey key ws) :
    operationWithKey (s.withFlushed ws) key = operationWithKey s.db key := by
  unfold Store.withFlushed
  cases hdb : Db.applyAll ws s.db with
  | none => rfl
  | some db =>
    have hrows := Db.operations_of_queued hdb fun w hw => by
      obtain ⟨row, rfl, -⟩ := h w hw
      exact ⟨row, rfl⟩
    show operationWithKey db key = _
    unfold operationWithKey Table.first
    rw [hrows, List.find?_append]
    have hnone : (ws.filterMap Write.queued).find? (fun o => o.idempotencyKey = key) = none := by
      refine List.find?_eq_none.mpr ?_
      intro o ho hkey
      obtain ⟨w, hw, hwo⟩ := List.mem_filterMap.mp ho
      rw [Write.queued_eq_some.mp hwo] at hw
      obtain ⟨row, hrow, hne⟩ := h _ hw
      cases hrow
      exact hne (by simpa using hkey)
    rw [hnone, Option.or_none]

/-- With the same rows the same operation has a key. -/
theorem Db.SameRows.operationWithKey {db db' : Db} (h : db.SameRows db') (key : IdempotencyKey) :
    LabGoblin.operationWithKey db' key = LabGoblin.operationWithKey db key := by
  unfold LabGoblin.operationWithKey Table.first
  rw [h.durableOperations]

/-- The VMs of the assignments for which closing the run queues a deletion: those without an
operation under the key of the closing. -/
def deletionsToQueue (db : Db) (runId : ℕ) (assignments : List LabAssignment) : List ℕ :=
  (assignments.filterMap LabAssignment.studentVmId).filter fun v =>
    (operationWithKey db (.labRunClose runId v)).isNone

/-- The writes of the closing loop over the assignments. -/
structure Closing (db : Db) (runId : ℕ) (status : AssignmentStatus)
    (assignments : List LabAssignment) (ws : List Write) : Prop where
  statuses : ws.filterMap Write.onAssignment = assignments.map fun a => .status a.id status
  inserts : ∀ w, .operation w ∈ ws → ∃ row v, w = .insert row ∧
    row.idempotencyKey = .labRunClose runId v ∧ v ∈ assignments.filterMap LabAssignment.studentVmId
  operations : (ws.filterMap Write.queued).map (fun o => (o.operationType, o.target)) =
    (deletionsToQueue db runId assignments).map fun v => (.delete, .studentVm v)

/-- Before the first assignment nothing is closed. -/
theorem Closing.nil (db : Db) (runId : ℕ) (status : AssignmentStatus) :
    Closing db runId status [] [] where
  statuses := rfl
  inserts := by simp
  operations := rfl

/-- One turn of the loop over an assignment that is not linked. -/
theorem Closing.unlinked {db : Db} {runId : ℕ} {status : AssignmentStatus} {a : LabAssignment}
    {assignments : List LabAssignment} {ws : List Write}
    (h : Closing db runId status assignments ws) (ha : a.studentVmId = none) :
    Closing db runId status (a :: assignments) (.assignment (.status a.id status) :: ws) where
  statuses := by
    rw [List.filterMap_cons, List.map_cons, ← h.statuses]
    rfl
  inserts := by
    intro w hw
    have hw : Write.operation w ∈ ws := by simpa using hw
    rw [List.filterMap_cons, ha]
    exact h.inserts w hw
  operations := by
    simp only [deletionsToQueue, List.filterMap_cons, ha, Write.queued]
    exact h.operations

/-- One turn of the loop over a linked assignment: the deletion is queued unless its key is
taken. -/
theorem Closing.linked {db : Db} {runId v : ℕ} {status : AssignmentStatus} {a : LabAssignment}
    {assignments : List LabAssignment} {ws queued : List Write} {row : DurableOperation}
    (h : Closing db runId status assignments ws) (ha : a.studentVmId = some v)
    (hrow : row.operationType = .delete ∧ row.target = .studentVm v ∧
      row.idempotencyKey = .labRunClose runId v)
    (hqueued : queued =
      if (operationWithKey db (.labRunClose runId v)).isNone then [.operation (.insert row)]
      else []) :
    Closing db runId status (a :: assignments)
      (.assignment (.status a.id status) :: (queued ++ ws)) where
  statuses := by
    have hno : queued.filterMap Write.onAssignment = [] := by
      rw [hqueued]
      split <;> rfl
    rw [List.filterMap_cons, List.filterMap_append, hno, List.map_cons, ← h.statuses]
    rfl
  inserts := by
    intro w hw
    rw [List.filterMap_cons, ha]
    rcases List.mem_cons.mp hw with hw | hw
    · cases hw
    · rcases List.mem_append.mp hw with hw | hw
      · rw [hqueued] at hw
        split at hw
        · rw [List.mem_singleton] at hw
          cases hw
          exact ⟨row, v, rfl, hrow.2.2, List.mem_cons_self⟩
        · cases hw
      · obtain ⟨row', v', rfl, hkey, hv'⟩ := h.inserts w hw
        exact ⟨row', v', rfl, hkey, List.mem_cons_of_mem _ hv'⟩
  operations := by
    have hops := h.operations
    simp only [deletionsToQueue, List.filterMap_cons, ha, Write.queued, List.filterMap_append,
      List.filter_cons, List.map_append] at hops ⊢
    rw [hops, hqueued]
    split <;> simp [Write.queued, hrow]

/-- The deletion that closing the run queues for one VM. -/
theorem returns_closeRequest {user : User} {organization : OrganizationContext} {runId v : ℕ}
    {flushed queued : List Write} {operation : DurableOperation} {t t' : Sys H}
    (hkey : operationWithKey (t.store.withFlushed flushed) (.labRunClose runId v) =
      operationWithKey t.store.db (.labRunClose runId v))
    (h : Returns (machine outside) p
      (enqueueOperation (closeRequest user organization runId v) flushed) t (operation, queued)
      t') :
    ∃ row : DurableOperation, (row.operationType = .delete ∧ row.target = .studentVm v ∧
        row.idempotencyKey = .labRunClose runId v) ∧
      queued = (if (operationWithKey t.store.db (.labRunClose runId v)).isNone then
        [.operation (.insert row)] else []) ∧
      t.store.db.SameRows t'.store.db ∧ t'.store.locks = t.store.locks := by
  rcases returns_enqueueOperation rfl h with ⟨hfound, hq, rfl⟩ | ⟨hnone, hop, hq, rfl⟩
  · rw [hkey] at hfound
    refine ⟨(closeRequest user organization runId v).row 0 (.labRunClose runId v) 0,
      ⟨rfl, rfl, rfl⟩, ?_, .refl _, rfl⟩
    rw [hfound]
    exact hq
  · rw [hkey] at hnone
    refine ⟨operation, ?_, ?_, Db.SameRows.draw t.store.db .durableOperations, rfl⟩
    · have hop : operation = _ := hop
      rw [hop]
      exact ⟨rfl, rfl, rfl⟩
    · rw [hnone]
      exact hq

/-- The loop of `change_lab_run_state`, by induction on the assignments it visits: no key that it
looks up was queued by an earlier turn. -/
theorem returns_closeAssignments {user : User} {organization : OrganizationContext} {runId : ℕ}
    {nextState : RunState} {assignments : List LabAssignment} {flushed ws : List Write}
    {t t' : Sys H}
    (hnodup : (assignments.filterMap LabAssignment.studentVmId).Nodup)
    (hflushed : ∀ v ∈ assignments.filterMap LabAssignment.studentVmId,
      LeavesKey (.labRunClose runId v) flushed)
    (h : Returns (machine outside) p
      (closeAssignments user organization runId nextState flushed assignments) t ws t') :
    t.store.db.SameRows t'.store.db ∧ t'.store.locks = t.store.locks ∧
      ∃ new, ws = flushed ++ new ∧
        Closing t.store.db runId (closedStatus nextState) assignments new := by
  induction assignments generalizing flushed t with
  | nil =>
    obtain ⟨rfl, rfl⟩ := returns_pure.mp h
    exact ⟨.refl _, rfl, [], by simp, .nil _ _ _⟩
  | cons a assignments ih =>
    unfold closeAssignments at h
    rw [returns_bind_iff] at h
    obtain ⟨flushed', u, hturn, hrest⟩ := h
    unfold closeAssignment at hturn
    cases ha : a.studentVmId with
    | none =>
      rw [ha] at hturn
      obtain ⟨rfl, rfl⟩ := returns_pure.mp hturn
      rw [List.filterMap_cons, ha] at hnodup hflushed
      obtain ⟨hsame, hlocks, new, rfl, hnew⟩ := ih hnodup (fun v hv w hw =>
        hflushed v hv w (by simpa using hw)) hrest
      exact ⟨hsame, hlocks, _, List.append_assoc _ _ _, hnew.unlinked ha⟩
    | some v =>
      rw [ha] at hturn
      simp only [returns_bind_iff] at hturn
      obtain ⟨⟨operation, queued⟩, u', henqueue, hpure⟩ := hturn
      obtain ⟨rfl, rfl⟩ := returns_pure.mp hpure
      rw [List.filterMap_cons, ha] at hnodup hflushed
      rw [List.nodup_cons] at hnodup
      have hkey : operationWithKey
          (t.store.withFlushed (flushed ++ [.assignment (.status a.id (closedStatus nextState))]))
          (.labRunClose runId v) = operationWithKey t.store.db (.labRunClose runId v) := by
        refine operationWithKey_withFlushed fun w hw => ?_
        exact hflushed v List.mem_cons_self w (by simpa using hw)
      obtain ⟨row, hrow, hqueued, hsame, hlocks⟩ := returns_closeRequest hkey henqueue
      have hleaves : ∀ v' ∈ assignments.filterMap LabAssignment.studentVmId,
          LeavesKey (.labRunClose runId v')
            (flushed ++ [.assignment (.status a.id (closedStatus nextState))] ++ queued) := by
        intro v' hv' w hw
        simp only [List.append_assoc, List.cons_append, List.nil_append, List.mem_append,
          List.mem_cons, reduceCtorEq, false_or] at hw
        rcases hw with hw | hw
        · exact hflushed v' (List.mem_cons_of_mem _ hv') w hw
        · rw [hqueued] at hw
          split at hw
          · rw [List.mem_singleton] at hw
            cases hw
            refine ⟨row, rfl, ?_⟩
            rw [hrow.2.2]
            intro heq
            cases heq
            exact hnodup.1 hv'
          · cases hw
      obtain ⟨hsame', hlocks', new, rfl, hnew⟩ := ih hnodup.2 hleaves hrest
      refine ⟨hsame.trans hsame', hlocks'.trans hlocks,
        .assignment (.status a.id (closedStatus nextState)) :: (queued ++ new), by simp,
        Closing.linked ⟨hnew.statuses, hnew.inserts, ?_⟩ ha hrow hqueued⟩
      rw [hnew.operations]
      unfold deletionsToQueue
      simp only [hsame.operationWithKey]

/-! ## The two requests -/

/-- The preview reports every assignment of the run, and every VM linked to one. -/
theorem returns_closeLabRunPreview {caller : Caller} {runId : ℕ} {action : RunAction}
    {preview : ClosePreview} {t t' : Sys H}
    (h : Returns (machine outside) p (closeLabRunPreview caller runId action) t preview t') :
    t'.store = t.store ∧ (action = .end ∨ action = .cancel) ∧
      preview.assignmentsAffected =
        (t.store.db.labAssignments.filter fun a => a.labRunId = runId).length ∧
      preview.studentVmIds = (t.store.db.labAssignments.filter fun a =>
        a.labRunId = runId).filterMap LabAssignment.studentVmId ∧
      preview.vmDeletionsToQueue = preview.studentVmIds.length := by
  unfold closeLabRunPreview at h
  simp only [returns_currentInstructor_bind, returns_runForUser_bind, returns_orRaise_bind,
    returns_select_bind, returns_pure] at h
  obtain ⟨user, organization, -, -, -, q, rfl, -, run, hrun, lab, -, confirmation, haction, rfl,
    rfl⟩ := h
  have hid : run.id = runId := by
    have hcond := (Table.first_some hrun).2
    simp only [Bool.and_eq_true, decide_eq_true_eq] at hcond
    exact hcond.1
  subst hid
  refine ⟨rfl, ?_, rfl, rfl, rfl⟩
  cases action with
  | «end» => exact Or.inl rfl
  | cancel => exact Or.inr rfl
  | _ => cases haction

/-- An accepted end or cancellation closes the run. -/
theorem checkTransition_closed {run : LabRun} {action : RunAction}
    {confirmation : Option Confirmation} {now : Time} {nextState : RunState}
    (haction : action = .end ∨ action = .cancel)
    (h : checkTransition run action confirmation now = .ok nextState) :
    nextState.closed = true := by
  have hnext : runTransition run.state action = some nextState := by
    unfold checkTransition at h
    cases hnext : runTransition run.state action with
    | none =>
      rw [hnext] at h
      cases h
    | some next =>
      rw [hnext] at h
      rcases haction with rfl | rfl
      · simp only [RunAction.confirmation] at h
        split at h
        · cases h
          rfl
        · cases h
      · simp only [RunAction.confirmation] at h
        split at h
        · cases h
          rfl
        · cases h
  unfold runTransition at hnext
  rcases haction with rfl | rfl <;> cases hstate : run.state <;> rw [hstate] at hnext <;>
    cases hnext <;> rfl

/-- Closing a run commits the writes of the loop together with the new state of the run. -/
theorem returns_changeLabRunState {caller : Caller} {runId : ℕ} {action : RunAction}
    {confirmation : Option Confirmation} {nextState : RunState} {t t' : Sys H}
    (haction : action = .end ∨ action = .cancel)
    (h : Returns (machine outside) p (changeLabRunState caller runId action confirmation) t
      nextState t') :
    ∃ (s : Store) (ws : List Write) (activatedAt endedAt : Option Time)
      (db : { db : Db // db.Constraints }), t.store.db.SameRows s.db ∧
      Closing t.store.db runId (closedStatus nextState) (liveAssignments t.store.db runId) ws ∧
      nextState.closed = true ∧
      s.afterCommit (ws ++ [.run (.transition runId nextState activatedAt endedAt)]) = some db ∧
      t'.store.db = db.1 := by
  unfold changeLabRunState at h
  simp only [returns_currentInstructor_bind, returns_runForUser_bind, returns_utcnow_bind,
    returns_check_bind] at h
  obtain ⟨user, organization, -, -, -, q, rfl, -, run, hrun, lab, -, next, hnext, h⟩ := h
  have hid : run.id = runId := by
    have hcond := (Table.first_some hrun).2
    simp only [Bool.and_eq_true, decide_eq_true_eq] at hcond
    exact hcond.1
  subst hid
  have hclosed := checkTransition_closed haction hnext
  rw [returns_bind_iff] at h
  obtain ⟨ws, u, hloop, h⟩ := h
  rw [returns_commit_bind, returns_pure] at h
  obtain ⟨-, hcommit, rfl, rfl⟩ := h
  unfold closeRun at hloop
  rw [if_pos hclosed, returns_select_bind] at hloop
  have hnodup : ((liveAssignments t.store.db run.id).filterMap
      LabAssignment.studentVmId).Nodup :=
    Table.Unique.nodup_filterMap t.store.valid.assignments_vm _
  obtain ⟨hsame, -, new, rfl, hclosing⟩ := returns_closeAssignments hnodup (by
    intro v _ w hw
    cases hw) hloop
  obtain ⟨db, hdb⟩ := Option.isSome_iff_exists.mp hcommit
  refine ⟨u.store, ws, _, _, db, hsame, hclosing, hclosed, hdb, ?_⟩
  rw [Sys.after_store, Store.exec_commit_some hdb]
  rfl

/-! ## What closing a run changes -/

/-- The assignments whose status differs in the second database. -/
def changedAssignments (db db' : Db) : List LabAssignment :=
  db.labAssignments.filter fun a =>
    (db'.labAssignments.get? a.id).map LabAssignment.status ≠ some a.status

/-- The deletions of the second database that the first one does not have. -/
def queuedDeletions (db db' : Db) : List DurableOperation :=
  db'.durableOperations.filter fun o =>
    o.operationType = .delete && (db.durableOperations.get? o.id).isNone

section Commit

variable {s : Store} {runId : ℕ} {nextState : RunState} {ws : List Write}
  {activatedAt endedAt : Option Time} {db : { db : Db // db.Constraints }}
  (hclosing : Closing s.db runId (closedStatus nextState) (liveAssignments s.db runId) ws)
  (hcommit : s.afterCommit (ws ++ [.run (.transition runId nextState activatedAt endedAt)]) =
    some db)
include hclosing hcommit

/-- Closing changes the status of the live assignments of the run, and of no others. -/
theorem changedAssignments_of_closing :
    changedAssignments s.db db.1 = liveAssignments s.db runId := by
  have hstatus : ∀ w, .assignment w ∈ ws ++ [.run (.transition runId nextState activatedAt endedAt)]
      ↔ ∃ a ∈ liveAssignments s.db runId, w = .status a.id (closedStatus nextState) := by
    intro w
    have hmem : w ∈ ws.filterMap Write.onAssignment ↔ Write.assignment w ∈ ws := by
      rw [List.mem_filterMap]
      simp only [Write.onAssignment_eq_some, exists_eq_right]
    rw [List.mem_append, ← hmem, hclosing.statuses, List.mem_map]
    simp [eq_comm]
  refine List.filter_congr fun a ha => ?_
  by_cases hvisited : a ∈ liveAssignments s.db runId
  · have hcond := (List.mem_filter.mp hvisited).2
    rw [hcond, decide_eq_true_eq]
    have hrow := Table.get?_of_mem ha
    obtain ⟨row, hrow'⟩ := Store.assignment_stays hcommit hrow
    have hclosed : row.status = closedStatus nextState := by
      refine Store.assignment_of_mem (P := fun r => r.status = closedStatus nextState) hcommit
        (Option.isSome_iff_exists.mpr ⟨a, hrow⟩) ((hstatus _).mpr ⟨a, hvisited, rfl⟩) (by simp)
        rfl (fun _ => rfl) ?_ row hrow'
      intro w hw _ r _
      obtain ⟨b, -, rfl⟩ := (hstatus w).mp hw
      rfl
    rw [hrow', Option.map_some, hclosed]
    simp only [Bool.and_eq_true] at hcond
    intro heq
    rw [← Option.some.inj heq] at hcond
    unfold closedStatus at hcond
    split at hcond <;> cases hcond.2
  · have hkept : db.1.labAssignments.get? a.id = s.db.labAssignments.get? a.id := by
      refine Store.assignment_untouched hcommit ?_
      intro w hw htarget
      obtain ⟨b, hb, rfl⟩ := (hstatus w).mp hw
      have hbrow := (List.mem_filter.mp hb).1
      rw [s.db.labAssignments.eq_of_key_eq hbrow ha htarget] at hb
      exact hvisited hb
    have hcond : (decide (a.labRunId = runId) && a.status.live) = false := by
      by_contra h
      exact hvisited (List.mem_filter.mpr ⟨ha, by simpa using h⟩)
    rw [hcond, hkept, Table.get?_of_mem ha]
    simp

/-- Closing queues one deletion for every linked VM of a live assignment whose key is free. -/
theorem queuedDeletions_of_closing :
    (queuedDeletions s.db db.1).map DurableOperation.target =
      (deletionsToQueue s.db runId (liveAssignments s.db runId)).map Target.studentVm := by
  have hqueued : ws.filterMap Write.queued =
      (ws ++ [Write.run (.transition runId nextState activatedAt endedAt)]).filterMap
        Write.queued := by
    simp [Write.queued]
  have hrows : db.1.durableOperations.rows =
      s.db.durableOperations.rows ++ ws.filterMap Write.queued := by
    rw [hqueued]
    refine Db.operations_of_queued (Store.applyAll_of_afterCommit hcommit) ?_
    intro w hw
    have hw : Write.operation w ∈ ws := by simpa using hw
    obtain ⟨row, -, rfl, -⟩ := hclosing.inserts w hw
    exact ⟨row, rfl⟩
  have htypes : ∀ o ∈ ws.filterMap Write.queued, o.operationType = .delete := by
    intro o ho
    have hmem : (o.operationType, o.target) ∈
        (ws.filterMap Write.queued).map (fun o => (o.operationType, o.target)) :=
      List.mem_map.mpr ⟨o, ho, rfl⟩
    rw [hclosing.operations] at hmem
    obtain ⟨v, -, hv⟩ := List.mem_map.mp hmem
    exact (congrArg Prod.fst hv).symm
  have hnew : queuedDeletions s.db db.1 = ws.filterMap Write.queued := by
    unfold queuedDeletions Table.filter
    rw [hrows, List.filter_append]
    have hold : s.db.durableOperations.rows.filter (fun o => o.operationType = .delete &&
        (s.db.durableOperations.get? o.id).isNone) = [] := by
      refine List.filter_eq_nil_iff.mpr ?_
      intro o ho
      rw [Table.get?_of_mem ho]
      simp
    rw [hold, List.nil_append]
    refine List.filter_eq_self.mpr ?_
    intro o ho
    obtain ⟨w, hw, hwo⟩ := List.mem_filterMap.mp ho
    rw [Write.queued_eq_some.mp hwo] at hw
    rw [Store.operation_fresh hcommit (List.mem_append_left _ hw), htypes o ho]
    rfl
  have hsecond := congrArg (List.map Prod.snd) hclosing.operations
  rw [List.map_map, List.map_map] at hsecond
  rw [hnew]
  exact hsecond

end Commit

section SameRows

variable {db db' : Db} (h : db.SameRows db')
include h

/-- With the same rows the same assignments are live. -/
theorem Db.SameRows.liveAssignments (runId : ℕ) :
    LabGoblin.liveAssignments db' runId = LabGoblin.liveAssignments db runId := by
  unfold LabGoblin.liveAssignments Table.filter
  rw [h.labAssignments]

/-- With the same rows the same assignments have changed later. -/
theorem Db.SameRows.changedAssignments (after : Db) :
    LabGoblin.changedAssignments db' after = LabGoblin.changedAssignments db after := by
  unfold LabGoblin.changedAssignments Table.filter
  rw [h.labAssignments]

/-- With the same rows the same deletions are queued later. -/
theorem Db.SameRows.queuedDeletions (after : Db) :
    LabGoblin.queuedDeletions db' after = LabGoblin.queuedDeletions db after := by
  unfold LabGoblin.queuedDeletions
  simp only [h.operation]

/-- With the same rows the same deletions are to be queued. -/
theorem Db.SameRows.deletionsToQueue (runId : ℕ) (assignments : List LabAssignment) :
    LabGoblin.deletionsToQueue db' runId assignments =
      LabGoblin.deletionsToQueue db runId assignments := by
  unfold LabGoblin.deletionsToQueue
  simp only [h.operationWithKey]

end SameRows

/-! ## Honesty -/

/-- The preview reports how many assignments change their status between the two databases, and
for which VMs a deletion is queued. -/
structure ClosePreview.Honest (preview : ClosePreview) (db db' : Db) : Prop where
  assignments : preview.assignmentsAffected = (changedAssignments db db').length
  vms : ∀ v, v ∈ preview.studentVmIds ↔ ∃ o ∈ queuedDeletions db db', o.target = .studentVm v
  deletions : preview.vmDeletionsToQueue = (queuedDeletions db db').length

/-- Every assignment of the run is assigned or ready, and no VM that is linked to one has an
operation under the key of the closing. -/
def Db.PlainlyOpen (db : Db) (runId : ℕ) : Prop :=
  ∀ a ∈ db.labAssignments.rows, a.labRunId = runId → a.status.live = true ∧
    ∀ v, a.studentVmId = some v → operationWithKey db (.labRunClose runId v) = none

/-- When nothing runs in between, the preview of closing a run tells the truth exactly if every
assignment of the run is live and none of its VMs has the key of the closing. -/
theorem closePreview_honest_iff (outside : Outside H) (p p' : Pid) (caller caller' : Caller)
    (runId : ℕ) (action : RunAction) (confirmation : Option Confirmation) (t t₁ t₂ : Sys H)
    (preview : ClosePreview) (nextState : RunState)
    (hpreview : Returns (machine outside) p (closeLabRunPreview caller runId action) t preview t₁)
    (hclose : Returns (machine outside) p'
      (changeLabRunState caller' runId action confirmation) t₁ nextState t₂) :
    preview.Honest t.store.db t₂.store.db ↔ t.store.db.PlainlyOpen runId := by
  obtain ⟨hstore, haction, hassignments, hvms, hdeletions⟩ := returns_closeLabRunPreview hpreview
  obtain ⟨s, ws, activatedAt, endedAt, db, hsame, hclosing, hclosed, hcommit, hdb⟩ :=
    returns_changeLabRunState haction hclose
  rw [hstore] at hsame hclosing
  have hclosing' : Closing s.db runId (closedStatus nextState) (liveAssignments s.db runId) ws := by
    rw [hsame.liveAssignments]
    exact ⟨hclosing.statuses, hclosing.inserts,
      by rw [hsame.deletionsToQueue]; exact hclosing.operations⟩
  have hchanged := changedAssignments_of_closing hclosing' hcommit
  have hqueued := queuedDeletions_of_closing hclosing' hcommit
  rw [hsame.changedAssignments, hsame.liveAssignments] at hchanged
  rw [hsame.queuedDeletions, hsame.liveAssignments, hsame.deletionsToQueue] at hqueued
  rw [hdb]
  -- the live assignments are those of the run that are live
  have hlive : liveAssignments t.store.db runId = (t.store.db.labAssignments.filter fun a =>
      a.labRunId = runId).filter fun a => a.status.live := by
    unfold liveAssignments Table.filter
    rw [List.filter_filter]
    exact List.filter_congr fun a _ => Bool.and_comm _ _
  constructor
  · intro h
    have hall : ∀ a ∈ t.store.db.labAssignments.filter (fun a => a.labRunId = runId),
        a.status.live = true := by
      have hlength := h.assignments
      rw [hassignments, hchanged, hlive] at hlength
      exact List.length_filter_eq_length_iff.mp hlength.symm
    intro a ha hrun
    have hmem : a ∈ t.store.db.labAssignments.filter (fun a => a.labRunId = runId) :=
      List.mem_filter.mpr ⟨ha, by simpa using hrun⟩
    refine ⟨hall a hmem, fun v hv => ?_⟩
    have hreported : v ∈ preview.studentVmIds := by
      rw [hvms]
      exact List.mem_filterMap.mpr ⟨a, hmem, hv⟩
    obtain ⟨o, ho, htarget⟩ := (h.vms v).mp hreported
    have htargets : Target.studentVm v ∈ (queuedDeletions t.store.db db.1).map
        DurableOperation.target := List.mem_map.mpr ⟨o, ho, htarget⟩
    rw [hqueued] at htargets
    obtain ⟨v', hv', heq⟩ := List.mem_map.mp htargets
    cases heq
    simpa using (List.mem_filter.mp hv').2
  · intro h
    have hsame : liveAssignments t.store.db runId =
        t.store.db.labAssignments.filter fun a => a.labRunId = runId := by
      rw [hlive]
      refine List.filter_eq_self.mpr fun a ha => ?_
      obtain ⟨ha, hrun⟩ := List.mem_filter.mp ha
      exact (h a ha (by simpa using hrun)).1
    have hvms' : deletionsToQueue t.store.db runId (liveAssignments t.store.db runId) =
        preview.studentVmIds := by
      rw [hvms, hsame]
      refine List.filter_eq_self.mpr fun v hv => ?_
      obtain ⟨a, ha, hav⟩ := List.mem_filterMap.mp hv
      obtain ⟨ha, hrun⟩ := List.mem_filter.mp ha
      rw [(h a ha (by simpa using hrun)).2 v hav]
      rfl
    rw [hvms'] at hqueued
    refine ⟨?_, fun v => ?_, ?_⟩
    · rw [hassignments, hchanged, hsame]
    · have hmem : Target.studentVm v ∈ (queuedDeletions t.store.db db.1).map
          DurableOperation.target ↔ v ∈ preview.studentVmIds := by
        rw [hqueued]
        simp
      rw [← hmem, List.mem_map]
    · rw [hdeletions, ← List.length_map (f := Target.studentVm), ← hqueued, List.length_map]

/-- Whenever the run is closed right after the preview, the preview has told the truth. -/
def PreviewsHonestly (outside : Outside H) (t : Sys H) : Prop :=
  ∀ p p' caller caller' runId action confirmation preview nextState t₁ t₂,
    Returns (machine outside) p (closeLabRunPreview caller runId action) t preview t₁ →
    Returns (machine outside) p' (changeLabRunState caller' runId action confirmation) t₁
      nextState t₂ →
    preview.Honest t.store.db t₂.store.db

namespace Fixture

/-- Preview the end of the run and end it, and check something of the preview and of the database
that is left. -/
def previewThenEnd (s : Store) (P : ClosePreview → Db → Bool) : Bool :=
  (closeLabRunPreview ⟨3, some 1⟩ 1 .end).passes (machine anything) 0 (start s) fun preview t₁ =>
    (changeLabRunState ⟨3, some 1⟩ 1 .end (some (.endRun 1))).passes (machine anything) 1 t₁
      fun _ t₂ => P preview t₂.store.db

/-- A computed run of the preview and the end of a run is a run of both. -/
theorem exists_of_previewThenEnd {s : Store} {P : ClosePreview → Db → Bool}
    (h : previewThenEnd s P = true) : ∃ preview t₁ nextState t₂,
      Returns (machine anything) 0 (closeLabRunPreview ⟨3, some 1⟩ 1 .end) (start s) preview t₁ ∧
      Returns (machine anything) 1 (changeLabRunState ⟨3, some 1⟩ 1 .end (some (.endRun 1))) t₁
        nextState t₂ ∧ P preview t₂.store.db = true := by
  obtain ⟨preview, t₁, hpreview, h⟩ := exists_returns_of_passes h
  obtain ⟨nextState, t₂, hclose, h⟩ := exists_returns_of_passes h
  exact ⟨preview, t₁, nextState, t₂, hpreview, hclose, h⟩

set_option maxRecDepth 100000 in
/-- In the store of the fixture the preview of ending the run is honest. -/
theorem closePreview_honest_iff_readyStore :
    ∃ (preview : ClosePreview) (t₁ : Sys Unit) (nextState : RunState) (t₂ : Sys Unit),
      Returns (machine anything) 0 (closeLabRunPreview ⟨3, some 1⟩ 1 .end) (start readyStore)
        preview t₁ ∧
      Returns (machine anything) 1 (changeLabRunState ⟨3, some 1⟩ 1 .end (some (.endRun 1))) t₁
        nextState t₂ ∧
      (preview.Honest readyStore.db t₂.store.db ↔ readyStore.db.PlainlyOpen 1) := by
  obtain ⟨preview, t₁, nextState, t₂, hpreview, hclose, -⟩ :=
    exists_of_previewThenEnd (s := readyStore) (P := fun _ _ => true) (by decide +kernel)
  exact ⟨preview, t₁, nextState, t₂, hpreview, hclose,
    closePreview_honest_iff anything 0 1 _ _ 1 .end _ (start readyStore) t₁ t₂ preview nextState
      hpreview hclose⟩

/-- The assignment after it was revoked, with its VM still linked. -/
def revokedAssignment : LabAssignment :=
  ⟨1, 1, 1, 2, 1, 1, .revoked, some 1, none⟩

/-- The deployment with the linked assignment revoked, at instant 100. -/
def revokedStore : Store where
  db := linkedDb revokedAssignment (by decide)
  valid := by decide
  clock := 100
  locks := []
  nonce := 0

set_option maxRecDepth 100000 in
/-- The preview reports an assignment and a VM that ending the run leaves alone. -/
theorem preview_lies : ¬ PreviewsHonestly anything (start revokedStore) := by
  intro h
  obtain ⟨preview, t₁, nextState, t₂, hpreview, hclose, hdiffer⟩ :=
    exists_of_previewThenEnd (s := revokedStore) (P := fun preview db =>
      preview.assignmentsAffected ≠ (changedAssignments revokedStore.db db).length)
      (by decide +kernel)
  have hhonest := h _ _ _ _ _ _ _ _ _ _ _ hpreview hclose
  rw [decide_eq_true_eq] at hdiffer
  exact hdiffer hhonest.assignments

end Fixture

end LabGoblin
