import LabGoblin.Computation.Solo
import LabGoblin.Model.Sessions

/-!
# What the methods of the session service do to the rows

One lemma for each kind of statement: a state change follows the transition table, an `UPDATE`
of a row that is as it was loaded gives the changed row, and the `UPDATE`s of a unit of work
leave the other rows alone.
-/

set_option autoImplicit false

namespace LabGoblin.Sessions

open Interactive

/-- A session in one of these states never leaves it. -/
def SessionState.terminal (s : SessionState) : Bool := s = .expired || s = .failed

/-- A state is terminal when no transition leads from it. -/
theorem terminal_iff (s : SessionState) : s.terminal = true ↔ sessionTransitions s = [] := by
  cases s <;> decide

/-! ## State changes -/

/-- `_set_state` succeeds exactly along the table, and changes the state. -/
theorem setState_eq_some {row changed : VMSession} {next : SessionState} {now : ℕ}
    {reason : Option String} (h : row.setState next now reason = some changed) :
    validateTransition row.state next = true ∧ changed.state = next ∧ changed.id = row.id := by
  unfold VMSession.setState at h
  by_cases hedge : validateTransition row.state next = true
  · rw [if_pos hedge] at h
    cases next <;> cases h <;> exact ⟨hedge, rfl, rfl⟩
  · rw [if_neg hedge] at h
    cases h

/-- A row changes its state exactly along the table. -/
theorem setState_isSome (row : VMSession) (next : SessionState) (now : ℕ)
    (reason : Option String) :
    (row.setState next now reason).isSome = validateTransition row.state next := by
  unfold VMSession.setState
  by_cases hedge : validateTransition row.state next = true
  · rw [if_pos hedge, hedge]
    rfl
  · rw [if_neg hedge]
    exact (Bool.eq_false_iff.mpr hedge).symm

/-- A state that the table does not lead to is not set. -/
theorem setState_eq_none {row : VMSession} {next : SessionState} {now : ℕ}
    {reason : Option String} (h : validateTransition row.state next = false) :
    row.setState next now reason = none := by
  have hsome := setState_isSome row next now reason
  rw [h] at hsome
  exact Option.isSome_eq_false_iff.mp hsome |> Option.isNone_iff_eq_none.mp

/-! ## Updates -/

/-- A column that nobody else has changed is written as it was changed. -/
@[simp] theorem column_self {α : Type} [DecidableEq α] (loaded changed : α) :
    column loaded changed loaded = changed := by
  unfold column
  split
  · rename_i h
    exact h.symm
  · rfl

/-- A column that was not changed is left to the others. -/
@[simp] theorem column_unchanged {α : Type} [DecidableEq α] (loaded current : α) :
    column loaded loaded current = current := if_pos rfl

/-- An update writes the state only if it has changed it. -/
@[simp] theorem apply_state (w : Write) (current : VMSession) :
    (w.apply current).state = column w.loaded.state w.changed.state current.state := rfl

/-- An `UPDATE` of the row that was loaded writes the new state. -/
theorem apply_loaded_state (w : Write) : (w.apply w.loaded).state = w.changed.state := by
  simp

/-- The `UPDATE`s of other rows leave a row alone. -/
theorem get?_applyWrites_of_notMem {ws : List Write} {sessions : Table VMSession VMSession.id}
    {i : ℕ} (h : ∀ w ∈ ws, w.loaded.id ≠ i) :
    (applyWrites sessions ws).get? i = sessions.get? i := by
  induction ws generalizing sessions with
  | nil => rfl
  | cons w ws ih =>
    have hne : i ≠ w.loaded.id := fun heq => h w List.mem_cons_self heq.symm
    have hrest : ∀ w' ∈ ws, w'.loaded.id ≠ i := fun w' hw' =>
      h w' (List.mem_cons_of_mem w hw')
    rw [applyWrites, ih hrest, Table.get?_update_of_ne _ _ _ hne]

/-- A row is written by the one `UPDATE` that has its key. -/
theorem get?_applyWrites_of_mem {ws : List Write} (sessions : Table VMSession VMSession.id)
    {w : Write} (hnodup : (ws.map fun w => w.loaded.id).Nodup) (hw : w ∈ ws) :
    (applyWrites sessions ws).get? w.loaded.id = (sessions.get? w.loaded.id).map w.apply := by
  induction ws generalizing sessions with
  | nil => cases hw
  | cons v ws ih =>
    rw [List.map_cons, List.nodup_cons] at hnodup
    obtain ⟨hnotMem, hrest⟩ := hnodup
    rcases List.mem_cons.mp hw with rfl | hw
    · have hothers : ∀ w' ∈ ws, w'.loaded.id ≠ w.loaded.id := by
        intro w' hw' heq
        exact hnotMem (List.mem_map.mpr ⟨w', hw', heq⟩)
      rw [applyWrites, get?_applyWrites_of_notMem hothers, Table.get?_update_self]
    · have hne : w.loaded.id ≠ v.loaded.id := by
        intro heq
        exact hnotMem (List.mem_map.mpr ⟨w, hw, heq⟩)
      rw [applyWrites, ih _ hrest hw, Table.get?_update_of_ne _ _ _ hne]

/-! ## Events -/

/-- The events that the service publishes about a session. -/
inductive PublishedAbout (s : VMSession) : DomainEvent → Prop
  | created : PublishedAbout s (sessionCreated s)
  | started : PublishedAbout s (sessionStarted s)
  | expired : PublishedAbout s (sessionExpired s)
  | attempt : PublishedAbout s (reconnectAttempt s)
  | failure : PublishedAbout s (reconnectFailure s)
  | success : PublishedAbout s (reconnectSuccess s)
  | cleanup (count : ℕ) : PublishedAbout s (staleCleanup count)

/-! ## Programs of the service that run alone -/

variable {σ : Type} {d : Deployment σ} {p : Pid} {α β : Type}

/-- A leading statement runs at once, and the rest sees the state it was made in. -/
theorem returns_issue_bind_iff {q : Stmt} {f : State σ → M σ β} {t t' : State σ} {b : β} :
    Returns d.machine p (issue q >>= f) t b t' ↔ Returns d.machine p (f t) (d.exec q t) b t' := by
  refine Iff.trans (returns_run_bind_iff (M := d.machine)) ?_
  exact and_iff_right trivial

/-- Publishing an event returns and records it. -/
theorem returns_publish_iff {event : DomainEvent} {t t' : State σ} {a : Unit} :
    Returns d.machine p (publish event) t a t' ↔ t' = d.exec (.publish event) t := by
  unfold publish
  rw [returns_issue_bind_iff, returns_pure_iff]
  exact and_iff_right rfl

end LabGoblin.Sessions
