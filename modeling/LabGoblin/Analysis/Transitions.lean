import LabGoblin.Analysis.Locking

/-!
# Transitions under the lock on the run

`change_lab_run_state` decides under the lock on the run, so the run is still in the state that
the decision was made from when it commits. The assignments it reads without a lock.
-/

set_option autoImplicit false

namespace LabGoblin

open Interactive

/-- The store in which `change_lab_run_state` reads the assignments of the run: that of the
fifth statement of the process. -/
def closeRead (p : Pid) (log : List Entry) : Option Store :=
  match (entriesOf p log).reverse.drop 5 with
  | .stmt _ _ s :: _ => some s
  | _ => none

/-- What was read stays what was read. -/
theorem closeRead_mono {p : Pid} {log log' : List Entry} (h : log <:+ log') {s : Store}
    (hs : closeRead p log = some s) : closeRead p log' = some s := by
  obtain ⟨newer, rfl⟩ := h
  unfold closeRead at hs ⊢
  rw [entriesOf_append, List.reverse_append]
  cases hdrop : (entriesOf p log).reverse.drop 5 with
  | nil =>
    rw [hdrop] at hs
    cases hs
  | cons e rest =>
    have hlength : 5 ≤ (entriesOf p log).reverse.length := by
      by_contra hshort
      rw [List.drop_eq_nil_of_le (by omega)] at hdrop
      cases hdrop
    rw [List.drop_append_of_le_length hlength, hdrop]
    rw [hdrop] at hs
    cases e with
    | stmt p' q s' => exact hs
    | _ => cases hs

/-- What was read was read by a statement of the process. -/
theorem closeRead_mem {p : Pid} {log : List Entry} {s : Store} (h : closeRead p log = some s) :
    ∃ q, Entry.stmt p q s ∈ log := by
  unfold closeRead at h
  cases hdrop : (entriesOf p log).reverse.drop 5 with
  | nil =>
    rw [hdrop] at h
    cases h
  | cons e rest =>
    rw [hdrop] at h
    have hmem : e ∈ entriesOf p log := by
      rw [← List.mem_reverse]
      exact List.mem_of_mem_drop (hdrop ▸ List.mem_cons_self)
    obtain ⟨hlog, hpid⟩ := mem_entriesOf.mp hmem
    cases e with
    | stmt p' q s' =>
      cases h
      cases hpid
      exact ⟨q, hlog⟩
    | _ => cases h

/-- The loop over the assignments that were read in `read` has flushed these writes. The
operations that it found instead of queueing are in `db`. -/
structure Closes (runId : ℕ) (nextState : RunState) (live : List LabAssignment) (db : Db)
    (flushed : List Write) : Prop where
  only : ∀ w ∈ flushed, (∃ a ∈ live, w = .assignment (.status a.id (closedStatus nextState))) ∨
    ∃ row v, w = .operation (.insert row) ∧ row.operationType = .delete ∧
      row.target = .studentVm v ∧ row.idempotencyKey = .labRunClose runId v
  status : ∀ a ∈ live, .assignment (.status a.id (closedStatus nextState)) ∈ flushed
  deletes : ∀ a ∈ live, ∀ v, a.studentVmId = some v →
    (∃ row, .operation (.insert row) ∈ flushed ∧ row.operationType = .delete ∧
      row.target = .studentVm v) ∨
    ∃ o ∈ db.durableOperations.rows, o.idempotencyKey = .labRunClose runId v

/-- What a commit of `change_lab_run_state` rests on. -/
structure Transits {H : Type} (p : Pid) (runId : ℕ) (action : RunAction) (ws : List Write)
    (t : Sys H) (run : LabRun) (nextState : RunState) (flushed : List Write) : Prop where
  locked : LockedRun p run t.store
  id : run.id = runId
  allowed : runTransition run.state action = some nextState
  writes : ∃ activatedAt endedAt,
    ws = flushed ++ [.run (.transition runId nextState activatedAt endedAt)]
  stays : nextState.closed = false → flushed = []
  closes : nextState.closed = true → ∃ s, closeRead p t.log = some s ∧ LockedRun p run s ∧
    s.Kept p t.store ∧ Closes runId nextState (liveAssignments s.db runId) t.store.db flushed

/-- Before the loop nothing is closed. -/
theorem Closes.nil (runId : ℕ) (nextState : RunState) (db : Db) :
    Closes runId nextState [] db [] where
  only := by simp
  status := by simp
  deletes := by simp

/-- Operations keep their keys. -/
theorem Store.Kept.key {p : Pid} {s s' : Store} (h : s.Kept p s') {key : IdempotencyKey}
    (hkey : ∃ o ∈ s.db.durableOperations.rows, o.idempotencyKey = key) :
    ∃ o ∈ s'.db.durableOperations.rows, o.idempotencyKey = key := by
  obtain ⟨o, ho, rfl⟩ := hkey
  obtain ⟨o', ho', hsame⟩ := h.operations _ _ (Table.get?_of_mem ho)
  exact ⟨o', Table.mem_of_get? ho', hsame.idempotencyKey⟩

/-- What the loop has flushed stays right while everything that is locked is kept. -/
theorem Closes.kept {p : Pid} {s s' : Store} {runId : ℕ} {nextState : RunState}
    {live : List LabAssignment} {flushed : List Write}
    (h : Closes runId nextState live s.db flushed) (hkept : s.Kept p s') :
    Closes runId nextState live s'.db flushed where
  only := h.only
  status := h.status
  deletes := by
    intro a ha v hv
    rcases h.deletes a ha v hv with h | h
    · exact Or.inl h
    · exact Or.inr (hkept.key h)

/-- What a transaction sees of the operations under a key: a committed one, or one it queued. -/
theorem operationWithKey_flushed {s : Store} {ws : List Write} {key : IdempotencyKey}
    {o : DurableOperation} (h : operationWithKey (s.withFlushed ws) key = some o) :
    (∃ o' ∈ s.db.durableOperations.rows, o'.idempotencyKey = key) ∨
      ∃ row, .operation (.insert row) ∈ ws ∧ row.idempotencyKey = key := by
  obtain ⟨hmem, hkey⟩ := Table.first_some h
  have hkey : o.idempotencyKey = key := of_decide_eq_true hkey
  unfold Store.withFlushed at hmem
  cases hall : Db.applyAll ws s.db with
  | none =>
    rw [hall] at hmem
    exact Or.inl ⟨o, hmem, hkey⟩
  | some db =>
    rw [hall] at hmem
    refine Write.ofOperations.row_after (i := o.id) (P := fun r => r.idempotencyKey = key →
      (∃ o' ∈ s.db.durableOperations.rows, o'.idempotencyKey = key) ∨
        ∃ row, .operation (.insert row) ∈ ws ∧ row.idempotencyKey = key) hall ?_ ?_ ?_ o
      (Table.get?_of_mem hmem) hkey
    · exact fun r hr hk => Or.inl ⟨r, Table.mem_of_get? hr, hk⟩
    · exact fun r _ hins _ hk => Or.inr ⟨r, hins, hk⟩
    · intro w _ _ r _ hr hk
      refine hr ?_
      cases w <;> exact hk

section Closing

variable {p : Pid} {user : User} {organization : OrganizationContext} {runId : ℕ}
  {nextState : RunState}

/-- One more turn of the loop. -/
theorem Closes.turn {live : List LabAssignment} {db : Db} {flushed queued : List Write}
    {a : LabAssignment} (h : Closes runId nextState live db flushed)
    (honly : ∀ w ∈ queued, ∃ row v, w = .operation (.insert row) ∧ row.operationType = .delete ∧
      row.target = .studentVm v ∧ row.idempotencyKey = .labRunClose runId v)
    (hdeletes : ∀ v, a.studentVmId = some v →
      (∃ row, .operation (.insert row) ∈ flushed ++ queued ∧ row.operationType = .delete ∧
        row.target = .studentVm v) ∨
      ∃ o ∈ db.durableOperations.rows, o.idempotencyKey = .labRunClose runId v) :
    Closes runId nextState (live ++ [a]) db
      (flushed ++ [.assignment (.status a.id (closedStatus nextState))] ++ queued) where
  only := by
    intro w hw
    simp only [List.mem_append, List.mem_singleton] at hw
    rcases hw with (hw | rfl) | hw
    · rcases h.only w hw with ⟨b, hb, hbw⟩ | hop
      · exact Or.inl ⟨b, List.mem_append_left _ hb, hbw⟩
      · exact Or.inr hop
    · exact Or.inl ⟨a, by simp, rfl⟩
    · exact Or.inr (honly w hw)
  status := by
    intro b hb
    rcases List.mem_append.mp hb with hb | hb
    · simp [h.status b hb]
    · rw [List.mem_singleton.mp hb]
      simp
  deletes := by
    intro b hb v hv
    rcases List.mem_append.mp hb with hb | hb
    · rcases h.deletes b hb v hv with ⟨row, hrow, hdelete⟩ | hop
      · exact Or.inl ⟨row, by simp [hrow], hdelete⟩
      · exact Or.inr hop
    · rw [List.mem_singleton.mp hb] at hv
      rcases hdeletes v hv with ⟨row, hrow, hdelete⟩ | hop
      · refine Or.inl ⟨row, ?_, hdelete⟩
        rcases List.mem_append.mp hrow with hrow | hrow
        · simp [hrow]
        · simp [hrow]
      · exact Or.inr hop

/-- One turn of the loop of `change_lab_run_state`. -/
theorem reads_closeAssignment {live : List LabAssignment} {flushed : List Write} {s : Store}
    (h : Closes runId nextState live s.db flushed) (a : LabAssignment) :
    Reads (Store.Kept p) (fun ws s' => Closes runId nextState (live ++ [a]) s'.db ws)
      (closeAssignment user organization runId nextState flushed a) s := by
  unfold closeAssignment
  cases ha : a.studentVmId with
  | none =>
    simp only [reads_pure]
    have hturn : Closes runId nextState (live ++ [a]) s.db (flushed ++
        [.assignment (.status a.id (closedStatus nextState))] ++ []) :=
      h.turn (by simp) (by simp [ha])
    simpa using hturn
  | some v =>
    simp only [reads_bind]
    refine Reads.mono (Reads.last (Store.Kept.refl p) (fun _ _ _ => .trans)
      (reads_enqueueOperation _ _ (fun r s' => s.Kept p s' →
        Closes runId nextState (live ++ [a]) s'.db
          (flushed ++ [.assignment (.status a.id (closedStatus nextState))] ++ r.2)) ?_ ?_ ?_)) ?_
    · intro o s' key _ hkey hfound hkept
      cases hkey
      refine (h.kept hkept).turn (by simp) ?_
      intro v' hv'
      rw [ha] at hv'
      cases hv'
      rcases operationWithKey_flushed hfound with hop | ⟨row, hrow, hkey⟩
      · exact Or.inr hop
      · rcases List.mem_append.mp hrow with hrow | hrow
        · rcases h.only _ hrow with ⟨b, -, hb⟩ | ⟨row', u, heq, hdelete, htarget, hkey'⟩
          · cases hb
          · cases heq
            rw [hkey] at hkey'
            cases hkey'
            exact Or.inl ⟨row, by simp [hrow], hdelete, htarget⟩
        · simp at hrow
    · intro hnone
      cases hnone
    · intro row s' hrow hkept
      obtain ⟨id, key, now, rfl, hkey | ⟨hnone, -⟩⟩ := hrow
      · cases hkey
        refine (h.kept hkept).turn ?_ ?_
        · intro w hw
          exact ⟨_, v, List.mem_singleton.mp hw, rfl, rfl, rfl⟩
        · intro v' hv'
          rw [ha] at hv'
          cases hv'
          exact Or.inl ⟨_, List.mem_append_right _ List.mem_cons_self, rfl, rfl⟩
      · cases hnone
    · rintro ⟨o, queued⟩ s' ⟨hkept, hcloses⟩
      exact hcloses hkept

/-- The loop of `change_lab_run_state`, by induction on the assignments. -/
theorem reads_closeAssignments {assignments live : List LabAssignment} {flushed : List Write}
    {s : Store} (h : Closes runId nextState live s.db flushed) :
    Reads (Store.Kept p) (fun ws s' => Closes runId nextState (live ++ assignments) s'.db ws)
      (closeAssignments user organization runId nextState flushed assignments) s := by
  induction assignments generalizing live flushed s with
  | nil =>
    rw [List.append_nil]
    exact h
  | cons a assignments ih =>
    unfold closeAssignments
    rw [reads_bind]
    refine Reads.mono (reads_closeAssignment h a) ?_
    intro ws s' hws
    have hrest := ih hws
    rwa [List.append_assoc] at hrest

end Closing

/-- The transition that passes the checks is in the table. -/
theorem checkTransition_ok {run : LabRun} {action : RunAction}
    {confirmation : Option Confirmation} {now : Time} {nextState : RunState}
    (h : checkTransition run action confirmation now = .ok nextState) :
    runTransition run.state action = some nextState := by
  unfold checkTransition at h
  cases hnext : runTransition run.state action with
  | none =>
    rw [hnext] at h
    cases h
  | some next =>
    rw [hnext] at h
    have hok : (Except.ok next : Except Exc RunState) = .ok nextState := by
      simp only at h
      split at h
      · split at h
        · exact h
        · cases h
      · split at h
        · cases h
        · split at h
          · cases h
          · split at h
            · cases h
            · exact h
    cases hok
    rfl

section Program

variable {H : Type} {settings : Settings} {outside : Outside H} {ok : Condition H}
  {ground : Pid → List Write → Sys H → Prop} {p : Pid}

/-- `change_lab_run_state` commits what it decided under the lock. -/
theorem wp_changeLabRunState {caller : Caller} {runId : ℕ} {action : RunAction}
    {confirmation : Option Confirmation} {t : Sys H}
    (hground : ∀ ws t run nextState flushed, Entry.enter p
      (.changeLabRunState caller runId action confirmation) ∈ t.log →
      Transits p runId action ws t run nextState flushed → ground p ws t)
    (ht : entriesOf p t.log = [.enter p (.changeLabRunState caller runId action confirmation)]) :
    wp ((locking settings outside ok ground).contract p)
      (changeLabRunState caller runId action confirmation) (fun _ _ => True) t := by
  have henter := mem_of_entriesOf_enter ht
  unfold changeLabRunState currentInstructor currentCaller
  simp only [bind_assoc, pure_bind]
  refine wp_readStmt (.refl p t) trivial ?_
  intro t₁ _ _ he₁ h₁
  refine wp_check_bind (fun user _ => ?_) fun _ => trivial
  refine wp_check_bind (fun organization _ => ?_) fun _ => trivial
  refine wp_check_bind (fun _ _ => ?_) fun _ => trivial
  refine wp_lockRun h₁ ?_ fun _ _ _ => trivial
  intro run lab t₂ s₂ s₂' h₂ hlocked hid _ _ _ _ he₂
  unfold utcnow
  rw [bind_assoc]
  refine wp_readStmt h₂ trivial ?_
  intro t₃ _ hkept₃ he₃ h₃
  refine wp_check_bind (fun nextState hnext => ?_) fun _ => trivial
  have hlocked₃ : LockedRun p run ((machine outside).exec p (.select .rows) t₃).store :=
    hlocked.kept hkept₃
  have henter₃ := h₃.log.subset henter
  have hcommit : ∀ flushed t₄, Within p ((machine outside).exec p (.select .rows) t₃) t₄ →
      (nextState.closed = false → flushed = []) →
      (nextState.closed = true → ∃ s, closeRead p t₄.log = some s ∧ LockedRun p run s ∧
        s.Kept p t₄.store ∧
          Closes runId nextState (liveAssignments s.db runId) t₄.store.db flushed) →
      wp ((locking settings outside ok ground).contract p) (commit (flushed ++
        [.run (.transition runId nextState
          (if nextState = .active then some t₃.store.clock else none)
          (if nextState.closed then some t₃.store.clock else none))]))
        (fun _ _ => True) t₄ := by
    intro flushed t₄ h₄ hstays hcloses
    refine wp_grounded (.refl p t₄) ?_ fun _ _ _ => trivial
    intro t₅ h₅
    refine hground _ t₅ run nextState flushed ((h₄.trans h₅).log.subset henter₃) ?_
    refine ⟨(hlocked₃.kept h₄.kept).kept h₅.kept, hid, checkTransition_ok hnext, ⟨_, _, rfl⟩,
      hstays, ?_⟩
    intro hclosed
    obtain ⟨s, hread, hlockedRead, hkept, hwrites⟩ := hcloses hclosed
    refine ⟨s, ?_, hlockedRead, hkept.trans h₅.kept, hwrites.kept h₅.kept⟩
    exact closeRead_mono h₅.log hread
  rw [hid]
  unfold closeRun
  by_cases hclosed : nextState.closed = true
  · rw [if_pos hclosed, bind_assoc]
    refine wp_readStmt (.refl p _) trivial ?_
    intro t₄ _ hkept₄ he₄ h₄
    have hread : closeRead p ((machine outside).exec p (.select .rows) t₄).log =
        some t₄.store := by
      unfold closeRead
      rw [entriesOf_exec, he₄, entriesOf_exec, he₃, he₂, entriesOf_exec, he₁, ht]
      rfl
    refine wp_reading (.refl p _) (reads_closeAssignments (Closes.nil runId nextState _)) ?_
      fun _ _ _ => trivial
    intro flushed s₅ t₅ h₅ hkept₅ hcloses
    rw [wp_bind]
    refine wp_mono (hcommit flushed t₅ (h₄.trans h₅) ?_ ?_) ?_
    · intro hopen
      rw [hclosed] at hopen
      cases hopen
    · intro _
      refine ⟨t₄.store, closeRead_mono h₅.log hread, hlocked₃.kept hkept₄, h₅.kept, ?_⟩
      rw [List.nil_append] at hcloses
      exact hcloses.kept hkept₅
    · intro r t' _
      cases r <;> trivial
  · rw [if_neg hclosed]
    show wp _ (commit _ >>= _) _ _
    rw [wp_bind]
    refine wp_mono (hcommit [] _ (.refl p _) (fun _ => rfl) fun h => absurd h hclosed) ?_
    intro r t' _
    cases r <;> trivial

end Program

end LabGoblin
