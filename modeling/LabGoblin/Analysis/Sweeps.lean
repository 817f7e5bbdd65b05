import LabGoblin.Analysis.SessionRows

/-!
# What the sweeps leave

A sweep moves the rows of its filter that have an edge to its target in the transition table and
leaves the others as they are. So it clears its filter exactly when every row of the filter has
that edge. A reconnecting session has no edge to `expired`, and two of the sweeps select it.
-/

set_option autoImplicit false

namespace LabGoblin.Sessions

open Interactive

variable {σ : Type} {d : Deployment σ} {p : Pid}

/-! ## One sweep -/

/-- The `UPDATE`s of a sweep. -/
def sweepWrites (selects : ℕ → VMSession → Bool) (next : SessionState) (reason : Option String)
    (t : State σ) : List Write :=
  (t.sessions.filter (selects t.now)).filterMap fun row =>
    (row.setState next t.now reason).map (Write.mk row)

variable {selects : ℕ → VMSession → Bool} {next : SessionState} {reason : Option String}
  {t : State σ}

/-- A sweep writes the sessions that it selects and that may go to its state. -/
theorem mem_sweepWrites {w : Write} : w ∈ sweepWrites selects next reason t ↔
    w.loaded ∈ t.sessions.rows ∧ selects t.now w.loaded = true ∧
      w.loaded.setState next t.now reason = some w.changed := by
  unfold sweepWrites
  rw [List.mem_filterMap]
  constructor
  · rintro ⟨row, hrow, hw⟩
    obtain ⟨changed, hchanged, rfl⟩ := Option.map_eq_some_iff.mp hw
    obtain ⟨hmem, hsel⟩ := List.mem_filter.mp hrow
    exact ⟨hmem, hsel, hchanged⟩
  · rintro ⟨hmem, hsel, hchanged⟩
    refine ⟨w.loaded, List.mem_filter.mpr ⟨hmem, hsel⟩, ?_⟩
    rw [hchanged]
    rfl

/-- A sweep updates no row twice. -/
theorem nodup_sweepWrites :
    ((sweepWrites selects next reason t).map fun w => w.loaded.id).Nodup := by
  have hmap : (sweepWrites selects next reason t).map (fun w => w.loaded.id) =
      ((t.sessions.filter (selects t.now)).filter fun row =>
        (row.setState next t.now reason).isSome).map VMSession.id := by
    unfold sweepWrites
    induction t.sessions.filter (selects t.now) with
    | nil => rfl
    | cons row rows ih =>
      cases h : row.setState next t.now reason with
      | none => simp [h, ih]
      | some changed => simp [h, ih]
  rw [hmap]
  have hrows : (t.sessions.filter (selects t.now)).Sublist t.sessions.rows :=
    List.filter_sublist
  exact List.Nodup.sublist ((List.filter_sublist.trans hrows).map VMSession.id) t.sessions.nodup

/-- Every selected row is written exactly when each of them has an edge to the target. -/
theorem length_sweepWrites_eq_iff :
    (sweepWrites selects next reason t).length = (t.sessions.filter (selects t.now)).length ↔
      ∀ row ∈ t.sessions.filter (selects t.now), validateTransition row.state next = true := by
  unfold sweepWrites
  induction t.sessions.filter (selects t.now) with
  | nil => simp
  | cons row rows ih =>
    have hle : (rows.filterMap fun row =>
        (row.setState next t.now reason).map (Write.mk row)).length ≤ rows.length :=
      List.length_filterMap_le _ _
    have hsome := setState_isSome row next t.now reason
    rw [List.forall_mem_cons, ← ih]
    cases h : row.setState next t.now reason with
    | none =>
      rw [h] at hsome
      have hedge : validateTransition row.state next = false := hsome.symm
      rw [List.filterMap_cons, h]
      simp only [Option.map_none, List.length_cons, hedge, Bool.false_eq_true, false_and,
        iff_false]
      omega
    | some changed =>
      rw [h] at hsome
      have hedge : validateTransition row.state next = true := hsome.symm
      rw [List.filterMap_cons, h]
      simp only [Option.map_some, List.length_cons, hedge, true_and]
      omega

variable (selects next reason) in
/-- A row after the `UPDATE`s of a sweep: a selected one with an edge to the target is in the
target, every other one is as it was. -/
theorem get?_sweep {row : VMSession} (hrow : row ∈ t.sessions.rows) :
    ∃ row', (applyWrites t.sessions (sweepWrites selects next reason t)).get? row.id = some row' ∧
      ((selects t.now row = true ∧ validateTransition row.state next = true ∧
          row'.state = next) ∨
        ((selects t.now row = false ∨ validateTransition row.state next = false) ∧
          row' = row)) := by
  have hget := Table.get?_of_mem hrow
  have hsome := setState_isSome row next t.now reason
  have hother : (∀ w ∈ sweepWrites selects next reason t, w.loaded ≠ row) →
      (applyWrites t.sessions (sweepWrites selects next reason t)).get? row.id = some row := by
    intro hne
    rw [get?_applyWrites_of_notMem, hget]
    intro w hw hid
    have hmem := (mem_sweepWrites.mp hw).1
    exact hne w hw (t.sessions.eq_of_key_eq hmem hrow hid)
  cases hsel : selects t.now row with
  | false =>
    refine ⟨row, hother ?_, .inr ⟨.inl rfl, rfl⟩⟩
    rintro w hw rfl
    rw [(mem_sweepWrites.mp hw).2.1] at hsel
    cases hsel
  | true =>
    cases hchanged : row.setState next t.now reason with
    | none =>
      rw [hchanged] at hsome
      refine ⟨row, hother ?_, .inr ⟨.inr hsome.symm, rfl⟩⟩
      rintro w hw rfl
      rw [(mem_sweepWrites.mp hw).2.2] at hchanged
      cases hchanged
    | some changed =>
      obtain ⟨hedge, hstate, -⟩ := setState_eq_some hchanged
      have hw : (⟨row, changed⟩ : Write) ∈ sweepWrites selects next reason t :=
        mem_sweepWrites.mpr ⟨hrow, hsel, hchanged⟩
      have hwritten := get?_applyWrites_of_mem t.sessions nodup_sweepWrites hw
      refine ⟨(⟨row, changed⟩ : Write).apply row, ?_, .inl ⟨rfl, hedge, ?_⟩⟩
      · rw [hwritten, hget]
        rfl
      · rw [apply_loaded_state ⟨row, changed⟩]
        exact hstate

variable (d p t selects next reason) in
/-- What a sweep returns, and the table it leaves. -/
theorem returns_sweep {after : ℕ → M σ Unit}
    (hafter : ∀ n u, ∃ a u', Returns d.machine p (after n) u a u' ∧ u'.sessions = u.sessions) :
    ∃ t', Returns d.machine p (sweep selects next reason after) t
        (sweepWrites selects next reason t).length t' ∧
      t'.sessions = applyWrites t.sessions (sweepWrites selects next reason t) := by
  by_cases hzero : (sweepWrites selects next reason t).length = 0
  · have hnil := List.eq_nil_of_length_eq_zero hzero
    refine ⟨t, ?_, ?_⟩
    · unfold sweep
      rw [returns_issue_bind_iff]
      have hcount : ((t.sessions.filter (selects t.now)).filterMap fun row =>
          (row.setState next t.now reason).map (Write.mk row)).length = 0 := hzero
      dsimp only
      rw [hcount, hzero]
      exact returns_pure_iff.mpr ⟨rfl, rfl⟩
    · rw [hnil]
      rfl
  · obtain ⟨a, t', hreturns, hsessions⟩ := hafter (sweepWrites selects next reason t).length
      { t with sessions := applyWrites t.sessions (sweepWrites selects next reason t) }
    refine ⟨t', ?_, hsessions⟩
    unfold sweep
    rw [returns_issue_bind_iff]
    have hcount : ¬ ((t.sessions.filter (selects t.now)).filterMap fun row =>
        (row.setState next t.now reason).map (Write.mk row)).length = 0 := hzero
    dsimp only
    rw [if_pos hcount, returns_issue_bind_iff, returns_bind_iff]
    exact ⟨a, t', hreturns, returns_pure_iff.mpr ⟨rfl, rfl⟩⟩

/-! ## The three sweeps -/

/-- `expire_stale_sessions` returns the number of the sessions it selects and leaves each of
them in a terminal state. -/
def ClearsStale (d : Deployment σ) (p : Pid) (seconds : ℤ) (t : State σ) : Prop :=
  ∃ count t', Returns d.machine p (expireStaleSessions seconds) t count t' ∧
    count = (t.sessions.filter (stale seconds t.now)).length ∧
    ∀ row ∈ t.sessions.rows, stale seconds t.now row = true →
      ∀ row', t'.sessions.get? row.id = some row' → row'.state.terminal = true

/-- The sweep returns the number of the sessions it selects, and after it there is none that
its filter would select. -/
def ClearsFilter (d : Deployment σ) (p : Pid) (sweep : M σ ℕ) (selects : ℕ → VMSession → Bool)
    (t : State σ) : Prop :=
  ∃ count t', Returns d.machine p sweep t count t' ∧
    count = (t.sessions.filter (selects t.now)).length ∧
    ∀ row ∈ t'.sessions.rows, selects t.now row = false

/-- The sweeps clear what they select. -/
structure SweepsClear (d : Deployment σ) (p : Pid) (idle reconnect launch : ℤ) (t : State σ) :
    Prop where
  stale : ClearsStale d p idle t
  reconnecting :
    ClearsFilter d p (expireReconnectingSessions reconnect) (reconnectingTooLong reconnect) t
  launching : ClearsFilter d p (failStuckLaunching launch) (stuckLaunching launch) t

/-- A program of the service that runs alone returns at most one value and leaves one state. -/
theorem returns_unique {α : Type} {prog : M σ α} {u u' : State σ} {a b : α}
    (h : Returns d.machine p prog t a u) (h' : Returns d.machine p prog t b u') :
    a = b ∧ u = u' := by
  have : IsEmpty (signature σ).Call := inferInstanceAs (IsEmpty Empty)
  obtain ⟨heq, hstate⟩ := Ends.unique h h'
  cases heq
  exact ⟨rfl, hstate⟩

/-- A row that the `UPDATE`s of a sweep leave comes from the row with its key. -/
theorem of_mem_sweep {row' : VMSession}
    (h : row' ∈ (applyWrites t.sessions (sweepWrites selects next reason t)).rows) :
    ∃ row ∈ t.sessions.rows, row.id = row'.id := by
  have hkeys : ∀ (ws : List Write) (sessions : Table VMSession VMSession.id),
      row' ∈ (applyWrites sessions ws).rows → ∃ row ∈ sessions.rows, row.id = row'.id := by
    intro ws
    induction ws with
    | nil => exact fun sessions hmem => ⟨row', hmem, rfl⟩
    | cons w ws ih =>
      intro sessions hmem
      obtain ⟨row, hrow, hid⟩ := ih _ hmem
      obtain ⟨row₀, hrow₀, heq⟩ := Table.mem_update.mp hrow
      refine ⟨row₀, hrow₀, ?_⟩
      rw [← hid, ← heq]
      split <;> rfl
  exact hkeys _ _ h

/-- Publishing an event returns and leaves the sessions. -/
theorem publish_harmless (event : ℕ → DomainEvent) (n : ℕ) (u : State σ) :
    ∃ a u', Returns d.machine p (publish (event n)) u a u' ∧ u'.sessions = u.sessions :=
  ⟨(), _, returns_publish_iff.mpr rfl, rfl⟩

/-- Doing nothing returns and leaves the sessions. -/
theorem pure_harmless (_ : ℕ) (u : State σ) :
    ∃ a u', Returns d.machine p (pure () : M σ Unit) u a u' ∧ u'.sessions = u.sessions :=
  ⟨(), u, returns_pure_iff.mpr ⟨rfl, rfl⟩, rfl⟩

/-- The first sweep clears its filter exactly when it selects no reconnecting session. -/
theorem clearsStale_iff (seconds : ℤ) :
    ClearsStale d p seconds t ↔
      ∀ row ∈ t.sessions.rows, row.state = .reconnecting → stale seconds t.now row = false := by
  obtain ⟨t', hreturns, hsessions⟩ := returns_sweep d p (stale seconds) .expired none t
    (publish_harmless staleCleanup)
  constructor
  · rintro ⟨count, u, hreturns', hcount, -⟩ row hrow hstate
    obtain ⟨hlength, -⟩ := returns_unique hreturns hreturns'
    have hedges := length_sweepWrites_eq_iff.mp (hlength.trans hcount)
    cases hsel : stale seconds t.now row with
    | false => rfl
    | true =>
      have hedge := hedges row (List.mem_filter.mpr ⟨hrow, hsel⟩)
      rw [hstate] at hedge
      cases hedge
  · intro hnone
    have hedges : ∀ row ∈ t.sessions.filter (stale seconds t.now),
        validateTransition row.state .expired = true := by
      intro row hmem
      obtain ⟨hrow, hsel⟩ := List.mem_filter.mp hmem
      have hnot := mt (hnone row hrow) (by rw [hsel]; exact Bool.noConfusion)
      have hstate := (Bool.and_eq_true_iff.mp hsel).1
      cases hs : row.state with
      | active => rfl
      | disconnected => rfl
      | reconnecting => exact absurd hs hnot
      | launching => rw [hs] at hstate; cases hstate
      | expired => rw [hs] at hstate; cases hstate
      | failed => rw [hs] at hstate; cases hstate
    refine ⟨_, t', hreturns, length_sweepWrites_eq_iff.mpr hedges, ?_⟩
    intro row hrow hsel row' hget
    obtain ⟨row'', hget', hcases⟩ :=
      get?_sweep (stale seconds) .expired none hrow
    rw [hsessions, hget'] at hget
    cases hget
    rcases hcases with ⟨-, -, hstate⟩ | ⟨hnot, -⟩
    · rw [hstate]
      rfl
    · have hedge := hedges row (List.mem_filter.mpr ⟨hrow, hsel⟩)
      rcases hnot with hnot | hnot
      · rw [hsel] at hnot
        cases hnot
      · rw [hedge] at hnot
        cases hnot

/-- The second sweep moves no session: it clears its filter exactly when it selects none. -/
theorem clearsReconnecting_iff (seconds : ℤ) :
    ClearsFilter d p (expireReconnectingSessions seconds) (reconnectingTooLong seconds) t ↔
      ∀ row ∈ t.sessions.rows, row.state = .reconnecting →
        reconnectingTooLong seconds t.now row = false := by
  obtain ⟨t', hreturns, hsessions⟩ :=
    returns_sweep d p (reconnectingTooLong seconds) .expired none t pure_harmless
  have hstate : ∀ row, reconnectingTooLong seconds t.now row = true →
      row.state = .reconnecting := fun row hsel =>
    of_decide_eq_true (Bool.and_eq_true_iff.mp hsel).1
  have hnone : sweepWrites (reconnectingTooLong seconds) .expired none t = [] := by
    refine List.eq_nil_iff_forall_not_mem.mpr fun w hw => ?_
    obtain ⟨-, hsel, hchanged⟩ := mem_sweepWrites.mp hw
    have hedge := (setState_eq_some hchanged).1
    rw [hstate _ hsel] at hedge
    cases hedge
  rw [hnone] at hreturns hsessions
  constructor
  · rintro ⟨count, u, hreturns', -, hleft⟩ row hrow -
    obtain ⟨-, rfl⟩ := returns_unique hreturns hreturns'
    refine hleft row ?_
    rw [hsessions]
    exact hrow
  · intro h
    have hempty : t.sessions.filter (reconnectingTooLong seconds t.now) = [] := by
      refine List.filter_eq_nil_iff.mpr fun row hrow hsel => ?_
      rw [h row hrow (hstate row hsel)] at hsel
      cases hsel
    have hcount : ([] : List Write).length =
        (t.sessions.filter (reconnectingTooLong seconds t.now)).length := by
      rw [hempty]
      rfl
    refine ⟨_, t', hreturns, hcount, fun row hrow => ?_⟩
    rw [hsessions] at hrow
    cases hsel : reconnectingTooLong seconds t.now row with
    | false => rfl
    | true =>
      rw [h row hrow (hstate row hsel)] at hsel
      cases hsel

/-- The third sweep clears its filter in every state. -/
theorem clearsLaunching (seconds : ℤ) :
    ClearsFilter d p (failStuckLaunching seconds) (stuckLaunching seconds) t := by
  obtain ⟨t', hreturns, hsessions⟩ :=
    returns_sweep d p (stuckLaunching seconds) .failed (some "launch timeout") t pure_harmless
  have hedges : ∀ row ∈ t.sessions.filter (stuckLaunching seconds t.now),
      validateTransition row.state .failed = true := by
    intro row hmem
    obtain ⟨-, hsel⟩ := List.mem_filter.mp hmem
    have hstate : row.state = .launching := of_decide_eq_true (Bool.and_eq_true_iff.mp hsel).1
    rw [hstate]
    rfl
  refine ⟨_, t', hreturns, length_sweepWrites_eq_iff.mpr hedges, fun row' hrow' => ?_⟩
  rw [hsessions] at hrow'
  obtain ⟨row, hrow, hid⟩ := of_mem_sweep hrow'
  obtain ⟨row'', hget, hcases⟩ :=
    get?_sweep (stuckLaunching seconds) .failed (some "launch timeout") hrow
  have heq : row' = row'' := by
    have hget' := Table.get?_of_mem hrow'
    rw [← hid, hget] at hget'
    exact (Option.some.inj hget').symm
  subst heq
  cases hsel : stuckLaunching seconds t.now row' with
  | false => rfl
  | true =>
    have hstate : row'.state = .launching := of_decide_eq_true (Bool.and_eq_true_iff.mp hsel).1
    rcases hcases with ⟨-, -, hfailed⟩ | ⟨hnot, rfl⟩
    · rw [hfailed] at hstate
      cases hstate
    · rcases hnot with hnot | hnot
      · rw [hsel] at hnot
        cases hnot
      · rw [hedges row' (List.mem_filter.mpr ⟨hrow, hsel⟩)] at hnot
        cases hnot

/-- The sweeps clear what they select exactly when no reconnecting session is among it. -/
theorem sweepsClear_iff (d : Deployment σ) (p : Pid) (idle reconnect launch : ℤ)
    (t : State σ) :
    SweepsClear d p idle reconnect launch t ↔
      ∀ row ∈ t.sessions.rows, row.state = .reconnecting →
        stale idle t.now row = false ∧ reconnectingTooLong reconnect t.now row = false := by
  constructor
  · intro h row hrow hstate
    exact ⟨(clearsStale_iff idle).mp h.stale row hrow hstate,
      (clearsReconnecting_iff reconnect).mp h.reconnecting row hrow hstate⟩
  · intro h
    exact ⟨(clearsStale_iff idle).mpr fun row hrow hstate => (h row hrow hstate).1,
      (clearsReconnecting_iff reconnect).mpr fun row hrow hstate => (h row hrow hstate).2,
      clearsLaunching launch⟩

/-! ### A session that stays reconnecting -/

namespace Leak

def row : VMSession where
  id := 1
  organizationId := 1
  userId := 1
  vmId := 1
  protocol := "ssh"
  state := .reconnecting
  lastHeartbeatAt := some 0
  createdAt := 0
  updatedAt := 0

/-- An hour after the session was last heard of. -/
def start : State Unit where
  sessions := ⟨[row], 2, by decide, by decide⟩
  now := 3600000000
  used := ()
  events := []

def deployment : Deployment Unit where
  verifier := ⟨⟨fun _ _ _ => .error "Not enough segments"⟩, "secret", fun _ => "?"⟩
  store := ⟨fun _ _ _ used => (false, used)⟩

/-- An overdue session that is reconnecting is not cleared by the sweeps. -/
theorem not_sweepsClear : ¬ SweepsClear deployment 0 900 120 120 start := by
  intro h
  have hclear := (clearsStale_iff 900).mp h.stale row List.mem_cons_self rfl
  exact absurd hclear (by decide)

end Leak

end LabGoblin.Sessions
