import LabGoblin.Analysis.Fixture
import LabGoblin.Analysis.Locking

/-!
# Attempts

`claim_operation` counts an attempt when it claims, but only `fail_or_retry` compares the number
with `operation_max_attempts`. An attempt that ends because its lease runs out is not compared,
so the operation is claimed again. And a worker that stalled past its lease compares what it has
read before the next worker claimed.
-/

set_option autoImplicit false

namespace LabGoblin

open Interactive

/-! ## What the log tells -/

/-- The processes that have claimed an operation, the last one first. -/
def claimants (o : ℕ) (log : List Entry) : List Pid :=
  (log.filter fun e => e.written.any (Write.claims o)).map Entry.pid

/-- The statements of a process since it claimed the operation. -/
def sinceClaim (o : ℕ) (p : Pid) (log : List Entry) : List Entry :=
  ((entriesOf p log).takeWhile fun e => !e.written.any (Write.claims o)).filter fun
    | .stmt _ _ _ => true
    | _ => false

/-- How often `execute_operation` was started for an operation: by the claimants that have read
back the row they claimed and have gone on. -/
def executions (o : ℕ) (log : List Entry) : ℕ :=
  ((claimants o log).filter fun p => 2 ≤ (sinceClaim o p log).length).length

/-- An operation is executed at most as often as it is claimed. -/
theorem executions_le (o : ℕ) (log : List Entry) :
    executions o log ≤ (claimants o log).length :=
  List.length_filter_le _ _

/-- An entry that claims nothing adds no claimant. -/
theorem claimants_cons_of_quiet {o : ℕ} {e : Entry} (log : List Entry)
    (h : ∀ w ∈ e.written, w.claims o = false) : claimants o (e :: log) = claimants o log := by
  have hfalse : e.written.any (Write.claims o) = false := by simpa using h
  simp [claimants, hfalse]

/-- An entry that claims the operation adds its process. -/
theorem claimants_cons_of_claims {o : ℕ} {e : Entry} (log : List Entry) {w : Write}
    (hw : w ∈ e.written) (h : w.claims o = true) :
    claimants o (e :: log) = e.pid :: claimants o log := by
  have htrue : e.written.any (Write.claims o) = true := List.any_eq_true.mpr ⟨w, hw, h⟩
  simp [claimants, htrue]

section Attempts

variable {H : Type} {settings : Settings} {outside : Outside H} {ok : Condition H} {p p' : Pid}
  {t t' : Sys H} {o : ℕ}

/-! ## Rows and claims -/

/-- A write that neither claims nor requeues an operation. -/
def Write.uncounted : Write → Prop
  | .operation (.claim _ _ _ _ _) => False
  | .operation (.retry _ _ _) => False
  | _ => True

/-- A write that is not counted claims no operation. -/
theorem Write.uncounted.not_claims {w : Write} (h : w.uncounted) : ¬ w.claims o = true := by
  cases w with
  | operation w =>
    cases w with
    | claim o owner lease started attempts => exact h.elim
    | _ => simp [Write.claims]
  | _ => simp [Write.claims]

/-- Only a claim changes the attempts of an operation. -/
theorem attempts_after {s : Store} {ws : List Write} {db : { db : Db // db.Constraints }}
    (h : s.afterCommit ws = some db) {row : DurableOperation}
    (hrow : s.db.durableOperations.get? o = some row) (hno : ∀ w ∈ ws, w.claims o = false) :
    ∃ row', db.1.durableOperations.get? o = some row' ∧ row'.attempts = row.attempts := by
  obtain ⟨row', hrow'⟩ := Store.operation_stays h hrow
  refine ⟨row', hrow', ?_⟩
  refine Store.operation_afterCommit (P := fun r => r.attempts = row.attempts) h ?_ ?_ ?_ row' hrow'
  · intro r hr
    rw [hrow] at hr
    cases hr
    rfl
  · intro r hnone
    rw [hrow] at hnone
    cases hnone
  · intro w hw htarget r _ hr
    cases w with
    | claim o' owner lease started attempts =>
      have hclaims := hno _ hw
      exact absurd htarget (of_decide_eq_false hclaims)
    | _ => exact hr

/-- What a process relies on that goes on to work on what it has claimed: when nobody has claimed
the operation since, its attempts are what they were. -/
structure StillClaimed (p : Pid) (t t' : Sys H) : Prop where
  clock : t.store.clock ≤ t'.store.clock
  attempts : ∀ o, lastClaimant o t'.log = some p → lastClaimant o t.log = some p ∧
    ∀ row, t.store.db.durableOperations.get? o = some row →
      ∃ row', t'.store.db.durableOperations.get? o = some row' ∧ row'.attempts = row.attempts

/-- Nothing happening changes no attempts. -/
theorem StillClaimed.refl (p : Pid) (t : Sys H) : StillClaimed p t t :=
  ⟨Nat.le_refl _, fun _ h => ⟨h, fun row hrow => ⟨row, hrow, rfl⟩⟩⟩

/-- What holds from step to step holds over both. -/
theorem StillClaimed.trans {a b c : Sys H} (h : StillClaimed p a b) (h' : StillClaimed p b c) :
    StillClaimed p a c := by
  refine ⟨Nat.le_trans h.clock h'.clock, ?_⟩
  intro o hlast
  obtain ⟨hlast, hrows'⟩ := h'.attempts o hlast
  obtain ⟨hlast, hrows⟩ := h.attempts o hlast
  refine ⟨hlast, ?_⟩
  intro row hrow
  obtain ⟨row', hrow', hsame⟩ := hrows row hrow
  obtain ⟨row'', hrow'', hsame'⟩ := hrows' row' hrow'
  exact ⟨row'', hrow'', hsame'.trans hsame⟩

/-- Steps that claim nothing. -/
theorem StillClaimed.quiet {e : Entry} (hclock : t.store.clock ≤ t'.store.clock)
    (hlog : t'.log = e :: t.log) (he : e.written = []) (hrows : t.store.db.SameRows t'.store.db) :
    StillClaimed p t t' := by
  refine ⟨hclock, ?_⟩
  intro o hlast
  rw [hlog, lastClaimant_cons_of_quiet _ (by simp [he])] at hlast
  exact ⟨hlast, fun row hrow => ⟨row, (hrows.operation o).trans hrow, rfl⟩⟩

/-- A statement takes no time. -/
theorem clock_exec (p : Pid) (q : Stmt) (s : Store) : (s.exec p q).clock = s.clock := by
  cases q with
  | commit ws =>
    cases h : s.afterCommit ws with
    | none =>
      rw [Store.exec_commit_none h]
      rfl
    | some db =>
      rw [Store.exec_commit_some h]
      rfl
  | _ => rfl

/-- A statement of another process, or one that claims nothing. -/
theorem stillClaimed_exec (outside : Outside H) {q : Stmt}
    (h : p' ≠ p ∨ Commits Write.uncounted q) (t : Sys H) :
    StillClaimed p' t ((machine outside).exec p q t) := by
  have hclock : t.store.clock ≤ ((machine outside).exec p q t).store.clock :=
    Nat.le_of_eq (clock_exec p q t.store).symm
  rcases Store.exec_cases p q t.store with ⟨ws, db, rfl, hcommit, hdb, hwritten⟩ |
    ⟨-, hwritten, hsame⟩
  · refine ⟨hclock, ?_⟩
    intro o hlast
    have hlast : lastClaimant o (.stmt p (.commit ws) t.store :: t.log) = some p' := hlast
    have hno : ∀ w ∈ ws, w.claims o = false := by
      intro w hw
      by_contra hclaims
      have hclaims := eq_true_of_ne_false hclaims
      rcases h with hne | hquiet
      · have hmem : w ∈ (Entry.stmt p (.commit ws) t.store).written := by rwa [hwritten]
        rw [lastClaimant_cons_of_claims _ hmem hclaims] at hlast
        exact hne (Option.some.inj hlast).symm
      · exact (hquiet w hw).not_claims hclaims
    rw [lastClaimant_cons_of_quiet _ (by rwa [hwritten])] at hlast
    refine ⟨hlast, ?_⟩
    intro row hrow
    obtain ⟨row', hrow', hsame⟩ := attempts_after hcommit hrow hno
    refine ⟨row', ?_, hsame⟩
    show (t.store.exec p (.commit ws)).db.durableOperations.get? o = some row'
    rw [hdb]
    exact hrow'
  · exact .quiet hclock rfl hwritten hsame

/-- The answer to a call changes no attempts. -/
theorem stillClaimed_answer {c : Call} {r : Except Exc c.Reply}
    (h : (machine outside).answer p c t r t') : StillClaimed p' t t' := by
  obtain ⟨hyper, -, rfl⟩ := h
  have hcall : StillClaimed p' t { t with log := .call p c t.store :: t.log } :=
    .quiet (Nat.le_refl _) rfl rfl (.refl _)
  exact hcall.trans (.quiet (Nat.le_refl _) rfl rfl (.refl _))

/-! ## The discipline -/

/-- A claim counts one attempt more of an operation that is waiting or whose lease has run out,
and a retry by the last claimant is of an operation with attempts left. -/
def Write.Counted (settings : Settings) (p : Pid) (t : Sys H) : Write → Prop
  | .operation (.claim o _ _ _ attempts) => ∃ row now,
      t.store.db.durableOperations.get? o = some row ∧ attempts = row.attempts + 1 ∧
        claimable now row = true ∧ now ≤ t.store.clock
  | .operation (.retry o _ _) => lastClaimant o t.log = some p →
      ∀ row, t.store.db.durableOperations.get? o = some row →
        row.attempts < settings.operationMaxAttempts
  | _ => True

/-- The attempts in a commit are counted. -/
def Counts (settings : Settings) (p : Pid) (q : Stmt) (t : Sys H) : Prop :=
  ∀ ws, q = .commit ws → ∀ w ∈ ws, w.Counted settings p t

/-- The discipline of the runs that meet a condition, in which every commit is counted. -/
def counting (settings : Settings) (outside : Outside H) (ok : Condition H) :
    Discipline Api (Sys H) Request :=
  (conductUnder settings outside ok).layer StillClaimed (Counts settings)

/-- Every process may rely on it that the attempts stay while nobody claims. -/
theorem conductUnder_relies : (conductUnder settings outside ok).Relies StillClaimed where
  refl := StillClaimed.refl
  trans := fun _ _ _ _ _ _ => StillClaimed.trans
  stmt := fun _ _ t _ hne _ => stillClaimed_exec outside (.inl hne) t
  call := fun _ _ _ _ _ _ _ h => stillClaimed_answer h.2.2
  enter := fun r t p' _ _ =>
    .quiet (e := .enter (started t.log) r) (Nat.le_refl _) rfl rfl (.refl _)
  leave := fun p t p' _ _ => .quiet (e := .leave p) (Nat.le_refl _) rfl rfl (.refl _)
  env := by
    rintro t t' p ⟨-, ⟨henv, hlog⟩, -⟩
    refine ⟨henv.clock, ?_⟩
    intro o hlast
    rw [hlog] at hlast
    exact ⟨hlast, fun row hrow => ⟨row, (henv.sameRows.operation o).trans hrow, rfl⟩⟩

/-! ## The programs -/

/-- A write that is not counted needs no count. -/
theorem Write.uncounted.counted {w : Write} (h : w.uncounted) : w.Counted settings p t := by
  cases w with
  | operation w =>
    cases w with
    | claim o owner lease started attempts => exact h.elim
    | retry o error runAfter => exact h.elim
    | _ => trivial
  | _ => trivial

/-- What is not counted may be committed at any time. -/
theorem counting_tolerates {J : Sys H → Prop}
    (hstable : ∀ t t', J t → (counting settings outside ok).rely p t t' → J t')
    (hstmt : ∀ q t, Commits Write.uncounted q → J t → J ((machine outside).exec p q t))
    (hcall : ∀ (c : Call) (r : Except Exc c.Reply) t t', J t →
      (machine outside).answer p c t r t' → J t') :
    ((counting settings outside ok).contract p).Tolerates J (Commits Write.uncounted)
      (fun _ => True) where
  stable := fun t t' h hr _ => hstable t t' h hr
  stmt := by
    intro q t hq _ h _
    refine ⟨?_, hstmt q t hq h⟩
    rintro ws rfl w hw
    exact (hq w hw).counted
  call := fun c t _ _ h => ⟨trivial, fun r t' ha => hcall c r t t' h ha.2.2⟩

/-- The process serves its request. -/
theorem turn_tolerates (r : Request) :
    ((counting settings outside ok).contract p).Tolerates (fun t => Entry.enter p r ∈ t.log)
      (Commits Write.uncounted) (fun _ => True) := by
  refine counting_tolerates ?_ ?_ ?_
  · exact fun t t' h hr => hr.1.log.subset h
  · exact fun q t _ h => List.mem_cons_of_mem _ h
  · rintro c reply t t' h ⟨hyper, -, rfl⟩
    exact List.mem_cons_of_mem _ (List.mem_cons_of_mem _ h)

/-- Other requests than the worker's neither claim nor requeue. -/
theorem wp_uncounted {r : Request} (hr : r.isWorker = false) (prog : Action Unit)
    (ht : Entry.enter p r ∈ t.log) :
    wp ((counting settings outside ok).contract p) prog (fun _ _ => True) t := by
  refine Maintains.safe (J := fun t => Entry.enter p r ∈ t.log)
    (Maintains.of_ensures (R := fun _ => True) ?_ (Program.ensures_anything prog)) ht
  refine ⟨fun t t' h hr _ => hr.1.log.subset h, ?_, ?_⟩
  · rintro q t - - h ⟨-, hlogged, -, r', hr', hconducts⟩
    refine ⟨?_, List.mem_cons_of_mem _ h⟩
    rintro ws rfl w hw
    have hwrite := hconducts ws rfl w hw
    rw [hlogged.request p r' r hr' h] at hwrite
    unfold Request.conducts at hwrite
    rw [hr, if_neg (by simp)] at hwrite
    cases w with
    | operation w =>
      obtain ⟨row, rfl, -⟩ := Request.mayWrite_operation hr hwrite.1
      trivial
    | _ => trivial
  · rintro c t - - h
    refine ⟨trivial, ?_⟩
    rintro reply t' ⟨-, -, hyper, -, rfl⟩
    exact List.mem_cons_of_mem _ (List.mem_cons_of_mem _ h)

section Worker

variable {workerId : String}

/-- What is claimed was locked, so the attempts that are counted are those of the row. -/
theorem wp_claim_counted (ht : Entry.enter p (.operationWorker workerId) ∈ t.log) :
    wp ((counting settings outside ok).contract p) (claimOperation settings workerId)
      (fun _ t' => Entry.enter p (.operationWorker workerId) ∈ t'.log) t := by
  unfold claimOperation
  rw [wp_bind, wp_utcnow]
  intro t₁ hr₁ _ _
  have h₁ : Entry.enter p (.operationWorker workerId) ∈ t₁.log := hr₁.1.log.subset ht
  refine ⟨(fun ws hws => by cases hws), ?_⟩
  rw [Post.andThen_ok, wp_run_bind]
  intro t₂ hr₂ _ _
  have h₂ : Entry.enter p (.operationWorker workerId) ∈ t₂.log :=
    hr₂.1.log.subset (List.mem_cons_of_mem _ h₁)
  have hclock₂ : t₁.store.clock ≤ t₂.store.clock := hr₂.2.clock
  refine ⟨(fun ws hws => by cases hws), ?_⟩
  have hview : ((counting settings outside ok).contract p).machine.view = Sys.store := rfl
  rw [hview]
  cases hnext : nextOperation t₂.store t₁.store.clock with
  | none => exact List.mem_cons_of_mem _ h₂
  | some row =>
    obtain ⟨hrow, hclaimable⟩ := nextOperation_claimable hnext
    have hlock : (Lock.durableOperation row.id, p) ∈
        ((machine outside).exec p (.lock (.claimNext t₁.store.clock)) t₂).store.locks := by
      refine List.mem_append_left _ ?_
      simp [LockQuery.locks, hnext]
    rw [wp_bind, wp_commit]
    intro t₃ hr₃ _ _
    have h₃ : Entry.enter p (.operationWorker workerId) ∈ t₃.log :=
      hr₃.1.log.subset (List.mem_cons_of_mem _ h₂)
    have hclock₃ : t₂.store.clock ≤ t₃.store.clock := hr₃.2.clock
    have hrow₃ : t₃.store.db.durableOperations.get? row.id = some row := by
      rw [hr₃.1.locked _ hlock]
      exact hrow
    refine ⟨?_, fun _ => List.mem_cons_of_mem _ h₃, fun db _ => ?_⟩
    · intro ws hws w hw
      injection hws with hws
      rw [← hws] at hw
      rw [List.mem_singleton.mp hw]
      exact ⟨row, _, hrow₃, rfl, hclaimable, Nat.le_trans hclock₂ hclock₃⟩
    · have hreload : Keeps Write.uncounted (fun _ => True) (fun _ => True)
          (do return some (← reloadOperation row.id) : Action (Option DurableOperation)) := by
        rw [keeps_bind]
        exact Keeps.mono (keeps_reloadOperation row.id) fun _ _ => trivial
      rw [Post.andThen_ok]
      refine wp_mono (Maintains.of_ensures (turn_tolerates (.operationWorker workerId)) hreload _
        (List.mem_cons_of_mem _ h₃)) ?_
      exact fun r t' h => h.1

/-- An execution neither claims nor requeues. -/
theorem maintains_uncounted (row : DurableOperation) :
    Maintains ((counting settings outside ok).contract p)
      (fun t => Entry.enter p (.operationWorker workerId) ∈ t.log) (fun _ => True)
      (executeOperation settings row) := by
  refine maintains_execution (turn_tolerates (.operationWorker workerId)) ?_ ?_ ?_
  · intro v _ w hw
    cases w with
    | operation w =>
      cases w with
      | renewLease o lease => trivial
      | checkpoint o upid payload lease => trivial
      | _ => exact hw.elim
    | _ => trivial
  · intro v _ w hw
    cases w with
    | operation w => exact hw.elim
    | _ => trivial
  · exact fun _ _ => trivial

/-! ### Failures -/

/-- The row that was read has the attempts of the operation as long as nobody claims it. -/
def Recent (p : Pid) (row : DurableOperation) (t : Sys H) : Prop :=
  lastClaimant row.id t.log = some p →
    ∃ cur, t.store.db.durableOperations.get? row.id = some cur ∧ cur.attempts = row.attempts

/-- A row that was read stays recent while others go on. -/
theorem Recent.stillClaimed {row : DurableOperation} (h : Recent p row t)
    (hr : StillClaimed p t t') : Recent p row t' := by
  intro hlast
  obtain ⟨hlast, hrows⟩ := hr.attempts row.id hlast
  obtain ⟨cur, hcur, hsame⟩ := h hlast
  obtain ⟨cur', hcur', hsame'⟩ := hrows cur hcur
  exact ⟨cur', hcur', hsame'.trans hsame⟩

/-- A program that neither claims nor requeues may go on with a recent row. -/
theorem recent_tolerates (row : DurableOperation) :
    ((counting settings outside ok).contract p).Tolerates (Recent p row)
      (Commits Write.uncounted) (fun _ => True) := by
  refine counting_tolerates ?_ ?_ ?_
  · exact fun t t' h hr => h.stillClaimed hr.2
  · exact fun q t hq h => h.stillClaimed (stillClaimed_exec outside (.inr hq) t)
  · exact fun c r t t' h ha => h.stillClaimed (stillClaimed_answer ha)

/-- What is not counted may be done in any state. -/
theorem wp_of_uncounted {α : Type} {R : α → Prop} {prog : Action α}
    (h : Keeps Write.uncounted (fun _ => True) R prog) (t : Sys H) :
    wp ((counting settings outside ok).contract p) prog (fun _ _ => True) t := by
  have hT : ((counting settings outside ok).contract p).Tolerates (fun _ => True)
      (Commits Write.uncounted) (fun _ => True) :=
    counting_tolerates (fun _ _ _ _ => trivial) (fun _ _ _ _ => trivial)
      (fun _ _ _ _ _ _ => trivial)
  exact (Maintains.of_ensures hT h).safe trivial

/-- What a failure writes to the VM record is not counted. -/
theorem keeps_failedVmWrites (row : DurableOperation) (vm : Option StudentVM) :
    ∀ w ∈ failedVmWrites row vm, w.uncounted := by
  intro w hw
  obtain ⟨-, v, -, rfl⟩ := mem_failedVmWrites hw
  trivial

/-- A retry rests on the attempts that were read. -/
theorem wp_retry_counted {row : DurableOperation} (e : Exc) (h : Recent p row t) :
    wp ((counting settings outside ok).contract p) (failOrRetry settings row e)
      (fun _ _ => True) t := by
  have hnow : Keeps Write.uncounted (fun _ => True) (fun _ => True) utcnow :=
    (keeps_utcnow _).mpr fun _ => trivial
  unfold failOrRetry
  refine Maintains.seq (Maintains.of_ensures (recent_tolerates row) hnow) ?_
    (fun _ _ _ => trivial) h
  intro now t _ h
  split
  · rename_i hleft
    rw [wp_commit]
    intro t' hr _ _
    refine ⟨?_, fun _ => trivial, fun _ _ => trivial⟩
    intro ws hws w hw
    injection hws with hws
    rw [← hws] at hw
    rw [List.mem_singleton.mp hw]
    intro hlast cur hcur
    obtain ⟨cur', hcur', hsame⟩ := h.stillClaimed hr.2 hlast
    rw [hcur] at hcur'
    cases hcur'
    rw [hsame]
    exact hleft
  · have hvm : Keeps Write.uncounted (fun _ => True) (fun _ => True) (targetVm row) := by
      unfold targetVm
      split
      · exact Keeps.mono (keeps_loadVm _) fun _ _ => trivial
      · trivial
    refine wp_of_uncounted (R := fun _ => True) ?_ t
    rw [keeps_bind]
    refine Keeps.mono hvm fun vm _ => (keeps_commit _ _).mpr ⟨?_, fun _ => trivial⟩
    intro w hw
    rcases List.mem_append.mp hw with hw | hw
    · exact keeps_failedVmWrites row vm w hw
    · rw [List.mem_singleton.mp hw]
      trivial

/-- Handling a failure requeues the operation only when it has attempts left. -/
theorem wp_failure_counted (operation : ℕ) (e : Exc) (t : Sys H) :
    wp ((counting settings outside ok).contract p) (handleFailure settings operation e)
      (fun _ _ => True) t := by
  have hcancel (row : DurableOperation) (e : Exc) : Keeps Write.uncounted (fun _ => True)
      (fun _ => True) (do
        cancelUnauthorizedOperation row e
        return WorkerTurn.cancelled) := by
    unfold cancelUnauthorizedOperation
    rw [keeps_bind, keeps_bind, keeps_utcnow]
    intro s
    refine (keeps_commit _ _).mpr ⟨?_, fun _ => trivial⟩
    intro w hw
    rw [List.mem_singleton.mp hw]
    trivial
  unfold handleFailure
  refine wp_seq (wp_of_uncounted (R := fun _ => True) ((keeps_rollback _).mpr fun _ => trivial) t)
    ?_ (fun _ _ _ => trivial)
  rintro _ t -
  rw [wp_bind, wp_select]
  intro t₁ _ _ _
  refine ⟨(fun ws hws => by cases hws), ?_⟩
  have hview : ((counting settings outside ok).contract p).machine.view t₁ = t₁.store := rfl
  rw [hview, Post.andThen_ok]
  cases hrow : t₁.store.db.durableOperations.get? operation with
  | none => cases e <;> exact trivial
  | some row =>
    have hrecent : Recent p row ((machine outside).exec p (.select .rows) t₁) := by
      intro _
      have hid : row.id = operation := Table.get?_key hrow
      rw [hid]
      exact ⟨row, hrow, rfl⟩
    cases e with
    | authorization message => exact wp_of_uncounted (hcancel row _) _
    | _ =>
      refine wp_seq (wp_retry_counted _ hrecent) ?_ ?_
      · exact fun _ _ _ => trivial
      · exact fun _ _ _ => trivial

/-- The worker counts its attempts. -/
theorem wp_worker_counted (ht : Entry.enter p (.operationWorker workerId) ∈ t.log) :
    wp ((counting settings outside ok).contract p) (operationWorker settings workerId)
      (fun _ _ => True) t := by
  unfold operationWorker
  refine wp_seq (wp_claim_counted ht) ?_ (fun _ _ _ => trivial)
  intro claimed t h
  cases claimed with
  | none => exact trivial
  | some row =>
    have hbody : wp ((counting settings outside ok).contract p)
        (do
          executeOperation settings row
          return WorkerTurn.succeeded)
        (fun _ _ => True) t :=
      wp_seq ((maintains_uncounted row).safe h) (fun _ _ _ => trivial) fun _ _ _ => trivial
    exact wp_handle hbody (fun _ _ _ => trivial) fun e t _ => wp_failure_counted row.id e t

end Worker

/-- The program of every request counts attempts. -/
theorem counting_sound (settings : Settings) (outside : Outside H) (ok : Condition H) :
    (counting settings outside ok).Sound := by
  refine (conductUnder_sound settings outside ok).layer conductUnder_relies ?_
  intro r t _ _
  have henter : Entry.enter (started t.log) r ∈ (t.enter r).log := List.mem_cons_self
  cases hr : r.isWorker with
  | false => exact wp_uncounted hr _ henter
  | true =>
    cases r with
    | operationWorker workerId => exact wp_discard (wp_worker_counted henter)
    | _ => cases hr

/-! ## Conditions -/

/-- No running operation that has had its last attempt has a lease that has run out. -/
def LastLeasesHold (settings : Settings) (t : Sys H) : Prop :=
  ∀ row ∈ t.store.db.durableOperations.rows, row.state = .running →
    settings.operationMaxAttempts ≤ row.attempts →
    ∀ lease, row.leaseExpiresAt = some lease → t.store.clock ≤ lease

/-- A process queues an operation again only if nobody has claimed it since. -/
def RequeuesOwn (p : Pid) (q : Stmt) (t : Sys H) : Prop :=
  ∀ ws, q = .commit ws → ∀ o error runAfter, .operation (.retry o error runAfter) ∈ ws →
    lastClaimant o t.log = some p

def requeueing : Condition H where
  stmt := RequeuesOwn

/-- The same, in states with leases that hold. -/
def leasing (settings : Settings) : Condition H where
  stmt := fun p q t => LastLeasesHold settings t ∧ RequeuesOwn p q t

/-- A run through states in which no lease of a last attempt has run out. -/
def Leased (settings : Settings) (outside : Outside H) :
    World Api (Sys H) → World Api (Sys H) → Prop :=
  Relation.ReflTransGen fun w w' =>
    World.Step (systemUnder settings outside requeueing) w w' ∧ LastLeasesHold settings w'.shared

/-- A run through states with leases that hold is a run that meets the condition. -/
theorem Leased.reach {w w' : World Api (Sys H)} (h : Leased settings outside w w')
    (hw : LastLeasesHold settings w.shared) :
    World.Reach (systemUnder settings outside (leasing settings)) w w' ∧
      LastLeasesHold settings w'.shared := by
  induction h with
  | refl => exact ⟨.refl, hw⟩
  | tail _ hstep ih =>
    obtain ⟨hstep, hleases⟩ := hstep
    refine ⟨ih.1.tail ?_, hleases⟩
    cases hstep with
    | spawn r h => exact .spawn _ r h
    | interact p prog prog' t' hp h =>
      refine .interact _ p prog prog' t' hp ?_
      cases h with
      | stmt q k _ he => exact .stmt q k _ ⟨he.1, ih.2, he.2⟩
      | call c k _ _ r hr => exact .call c k _ _ r hr
    | exit p prog hp => exact .exit _ p prog hp
    | env t' h => exact .env _ t' h

/-! ## The account -/

/-- The attempts of every operation are the claims of it, and within the bound; one that waits has
attempts left. -/
structure Accounted (settings : Settings) (t : Sys H) : Prop where
  absent : ∀ o, t.store.db.durableOperations.get? o = none → claimants o t.log = []
  counted : ∀ o row, t.store.db.durableOperations.get? o = some row →
    row.attempts = (claimants o t.log).length
  bounded : ∀ o row, t.store.db.durableOperations.get? o = some row →
    row.attempts ≤ settings.operationMaxAttempts
  waiting : ∀ o row, t.store.db.durableOperations.get? o = some row → row.state = .queued →
    row.attempts < settings.operationMaxAttempts

/-- Steps that claim nothing and change no row. -/
theorem Accounted.quiet {e : Entry} (h : Accounted settings t) (hlog : t'.log = e :: t.log)
    (he : e.written = []) (hrows : t.store.db.SameRows t'.store.db) : Accounted settings t' := by
  have hclaimants (o : ℕ) : claimants o t'.log = claimants o t.log := by
    rw [hlog]
    exact claimants_cons_of_quiet _ (by simp [he])
  refine ⟨?_, ?_, ?_, ?_⟩
  · intro o hnone
    rw [hclaimants]
    exact h.absent o ((hrows.operation o).symm.trans hnone)
  · intro o row hrow
    rw [hclaimants]
    exact h.counted o row ((hrows.operation o).symm.trans hrow)
  · exact fun o row hrow => h.bounded o row ((hrows.operation o).symm.trans hrow)
  · exact fun o row hrow => h.waiting o row ((hrows.operation o).symm.trans hrow)

/-- What can be claimed has attempts left. -/
theorem Accounted.claimable (h : Accounted settings t) (hleases : LastLeasesHold settings t)
    {row : DurableOperation} {now : Time} (hrow : t.store.db.durableOperations.get? o = some row)
    (hclaimable : LabGoblin.claimable now row = true) (hnow : now ≤ t.store.clock) :
    row.attempts < settings.operationMaxAttempts := by
  simp only [LabGoblin.claimable, Bool.and_eq_true, Bool.or_eq_true, decide_eq_true_eq]
    at hclaimable
  rcases hclaimable.1 with hstate | ⟨hstate, hlease⟩
  · exact h.waiting o row hrow hstate
  · by_contra hleft
    cases hsome : row.leaseExpiresAt with
    | none =>
      rw [hsome] at hlease
      cases hlease
    | some lease =>
      rw [hsome] at hlease
      have hlt : lease < now := of_decide_eq_true hlease
      have hle := hleases row (Table.mem_of_get? hrow) hstate (Nat.le_of_not_lt hleft) lease hsome
      exact Nat.lt_irrefl _ (Nat.lt_of_lt_of_le hlt (Nat.le_trans hnow hle))

section Commit

variable {ws : List Write} {db : { db : Db // db.Constraints }} (h : Accounted settings t)
  (hconducted : Stmt.Conducted p (.commit ws) t) (hcounts : Counts settings p (.commit ws) t)
  (hok : (leasing settings).stmt p (.commit ws) t) (hcommit : t.store.afterCommit ws = some db)
include h hconducted hcounts hok hcommit

/-- A claim is of an operation with attempts left, and takes one of them. -/
theorem Accounted.claim {owner : String} {lease started : Time} {attempts : ℕ}
    (hw : .operation (.claim o owner lease started attempts) ∈ ws) :
    ∃ row row', t.store.db.durableOperations.get? o = some row ∧
      db.1.durableOperations.get? o = some row' ∧ row'.attempts = row.attempts + 1 ∧
      row.attempts < settings.operationMaxAttempts ∧ row'.state = .running := by
  obtain ⟨-, hws⟩ := hconducted.claim hw
  obtain ⟨row, now, hrow, hattempts, hclaimable, hnow⟩ := hcounts ws rfl _ hw
  subst hws
  have hafter := Store.operation_after hcommit (by simp)
  have htarget : (OperationWrite.claim o owner lease started attempts).target = o := rfl
  rw [htarget, hrow] at hafter
  exact ⟨row, _, hrow, hafter, hattempts, h.claimable hok.1 hrow hclaimable hnow, rfl⟩

omit hconducted in
/-- An operation that is not claimed keeps its attempts, and is queued only if some are left. -/
theorem Accounted.unclaimed {row row' : DurableOperation}
    (hno : ∀ w ∈ ws, w.claims o = false)
    (hrow : t.store.db.durableOperations.get? o = some row)
    (hrow' : db.1.durableOperations.get? o = some row') :
    row'.attempts = row.attempts ∧
      (row'.state = .queued → row.attempts < settings.operationMaxAttempts) := by
  constructor
  · obtain ⟨row'', hrow'', hsame⟩ := attempts_after hcommit hrow hno
    rw [hrow'] at hrow''
    cases hrow''
    exact hsame
  · refine Store.operation_afterCommit (P := fun r => r.state = .queued →
      row.attempts < settings.operationMaxAttempts) hcommit ?_ ?_ ?_ row' hrow'
    · intro r hr
      rw [hrow] at hr
      cases hr
      exact h.waiting o row hrow
    · intro r hnone
      rw [hrow] at hnone
      cases hnone
    · intro w hw htarget r _ hr
      cases w with
      | retry o' error runAfter =>
        have ho : o' = o := htarget
        subst ho
        exact fun _ => hcounts ws rfl _ hw (hok.2 ws rfl _ _ _ hw) row hrow
      | insert r' => exact hr
      | renewLease o' lease => exact hr
      | checkpoint o' upid payload lease => exact hr
      | claim o' owner lease started attempts =>
        intro hstate
        cases hstate
      | _ =>
        intro hstate
        cases hstate

omit h hcounts hok in
/-- An operation that was not there has no attempts. -/
theorem Accounted.inserted {row' : DurableOperation} (hno : ∀ w ∈ ws, w.claims o = false)
    (hnone : t.store.db.durableOperations.get? o = none)
    (hrow' : db.1.durableOperations.get? o = some row') : row'.attempts = 0 := by
  refine Store.operation_afterCommit (P := fun r => r.attempts = 0) hcommit ?_ ?_ ?_ row' hrow'
  · intro r hr
    rw [hnone] at hr
    cases hr
  · exact fun r _ hw _ => (hconducted.queued hw).attempts
  · intro w hw htarget r _ hr
    cases w with
    | claim o' owner lease started attempts =>
      exact absurd htarget (of_decide_eq_false (hno _ hw))
    | _ => exact hr

/-- A commit keeps the account. -/
theorem Accounted.commit (hmax : 0 < settings.operationMaxAttempts)
    (hlog : t'.log = .stmt p (.commit ws) t.store :: t.log)
    (hwritten : (Entry.stmt p (.commit ws) t.store).written = ws) (hdb : t'.store.db = db.1) :
    Accounted settings t' := by
  have hcases (o : ℕ) :
      (∃ owner lease started attempts,
        .operation (.claim o owner lease started attempts) ∈ ws ∧
          claimants o t'.log = p :: claimants o t.log) ∨
      ((∀ w ∈ ws, w.claims o = false) ∧ claimants o t'.log = claimants o t.log) := by
    rw [hlog]
    by_cases hclaims : ∃ w ∈ ws, w.claims o = true
    · obtain ⟨w, hw, hw'⟩ := hclaims
      refine Or.inl ?_
      have hmem : w ∈ (Entry.stmt p (.commit ws) t.store).written := by rwa [hwritten]
      have hlist := claimants_cons_of_claims t.log hmem hw'
      cases w with
      | operation w =>
        cases w with
        | claim o' owner lease started attempts =>
          have ho : o' = o := of_decide_eq_true hw'
          subst ho
          exact ⟨owner, lease, started, attempts, hw, hlist⟩
        | _ => cases hw'
      | _ => cases hw'
    · have hno : ∀ w ∈ ws, w.claims o = false := fun w hw =>
        eq_false_of_ne_true fun hw' => hclaims ⟨w, hw, hw'⟩
      exact Or.inr ⟨hno, claimants_cons_of_quiet _ (by rwa [hwritten])⟩
  have hrow (o : ℕ) (row' : DurableOperation)
      (hrow' : db.1.durableOperations.get? o = some row') :
      row'.attempts = (claimants o t'.log).length ∧
        row'.attempts ≤ settings.operationMaxAttempts ∧
          (row'.state = .queued → row'.attempts < settings.operationMaxAttempts) := by
    rcases hcases o with ⟨owner, lease, started, attempts, hw, hlist⟩ | ⟨hno, hlist⟩
    · obtain ⟨row, row'', hrow, hrow'', hattempts, hleft, hstate⟩ :=
        h.claim hconducted hcounts hok hcommit hw
      rw [hrow'] at hrow''
      cases hrow''
      have hlength := h.counted o row hrow
      refine ⟨?_, by omega, fun hqueued => ?_⟩
      · rw [hlist, List.length_cons, hattempts, hlength]
      · rw [hstate] at hqueued
        cases hqueued
    · rw [hlist]
      cases hbefore : t.store.db.durableOperations.get? o with
      | none =>
        have hzero := Accounted.inserted hconducted hcommit hno hbefore hrow'
        rw [hzero, h.absent o hbefore]
        exact ⟨rfl, Nat.zero_le _, fun _ => hmax⟩
      | some row =>
        obtain ⟨hsame, hleft⟩ := h.unclaimed hcounts hok hcommit hno hbefore hrow'
        rw [hsame]
        exact ⟨h.counted o row hbefore, h.bounded o row hbefore, hleft⟩
  refine ⟨?_, ?_, ?_, ?_⟩
  · intro o hnone
    rw [hdb] at hnone
    have hbefore : t.store.db.durableOperations.get? o = none := by
      cases hbefore : t.store.db.durableOperations.get? o with
      | none => rfl
      | some row =>
        obtain ⟨row', hrow'⟩ := Store.operation_stays hcommit hbefore
        rw [hnone] at hrow'
        cases hrow'
    rcases hcases o with ⟨owner, lease, started, attempts, hw, -⟩ | ⟨-, hlist⟩
    · obtain ⟨row, -, hrow, -⟩ := h.claim hconducted hcounts hok hcommit hw
      rw [hbefore] at hrow
      cases hrow
    · rw [hlist]
      exact h.absent o hbefore
  · exact fun o row' hrow' => (hrow o row' (by rwa [hdb] at hrow')).1
  · exact fun o row' hrow' => (hrow o row' (by rwa [hdb] at hrow')).2.1
  · exact fun o row' hrow' => (hrow o row' (by rwa [hdb] at hrow')).2.2

end Commit

/-! ## Runs -/

/-- Every step of a run that meets the conditions keeps the account. -/
theorem accounted_preserved (hmax : 0 < settings.operationMaxAttempts) :
    (counting settings outside (leasing settings)).allowed.Preserves (Accounted settings) where
  stmt := by
    rintro p q t h ⟨⟨⟨-, hok⟩, -, -, hconducted⟩, -, -, hcounts⟩
    rcases Store.exec_cases p q t.store with ⟨ws, db, rfl, hcommit, hdb, hwritten⟩ |
      ⟨-, hwritten, hsame⟩
    · exact h.commit hconducted hcounts hok hcommit hmax rfl hwritten hdb
    · exact h.quiet rfl hwritten hsame
  call := by
    rintro p c t r t' h ⟨-, -, -, hyper, -, rfl⟩
    have hcall : Accounted settings { t with log := .call p c t.store :: t.log } :=
      h.quiet rfl rfl (.refl _)
    exact hcall.quiet rfl rfl (.refl _)
  enter := fun r t h _ => h.quiet (e := .enter (started t.log) r) rfl rfl (.refl _)
  leave := fun p t h => h.quiet (e := .leave p) rfl rfl (.refl _)
  env := by
    rintro t t' h ⟨-, -, ⟨henv, hlog⟩, -⟩
    have hrows := henv.sameRows
    refine ⟨?_, ?_, ?_, ?_⟩
    · intro o hnone
      rw [hlog]
      exact h.absent o ((hrows.operation o).symm.trans hnone)
    · intro o row hrow
      rw [hlog]
      exact h.counted o row ((hrows.operation o).symm.trans hrow)
    · exact fun o row hrow => h.bounded o row ((hrows.operation o).symm.trans hrow)
    · exact fun o row hrow => h.waiting o row ((hrows.operation o).symm.trans hrow)

/-- The bound on the executions of operations: no operation is claimed or executed more often, and
one that has had its last attempt is finished, or its last lease has not run out. -/
structure Bounded (settings : Settings) (t : Sys H) : Prop where
  executions : ∀ o, executions o t.log ≤ settings.operationMaxAttempts
  claims : ∀ o, (claimants o t.log).length ≤ settings.operationMaxAttempts
  exhausted : ∀ o row, t.store.db.durableOperations.get? o = some row →
    settings.operationMaxAttempts ≤ (claimants o t.log).length →
    row.state.terminal = true ∨
      row.state = .running ∧ ∀ lease, row.leaseExpiresAt = some lease → t.store.clock ≤ lease

/-- Where the attempts are accounted and the leases hold, the executions are bounded. -/
theorem Accounted.executionsBounded (h : Accounted settings t)
    (hleases : LastLeasesHold settings t) : Bounded settings t := by
  have hclaims (o : ℕ) : (claimants o t.log).length ≤ settings.operationMaxAttempts := by
    cases hrow : t.store.db.durableOperations.get? o with
    | none =>
      rw [h.absent o hrow]
      exact Nat.zero_le _
    | some row =>
      rw [← h.counted o row hrow]
      exact h.bounded o row hrow
  refine ⟨fun o => Nat.le_trans (executions_le o t.log) (hclaims o), hclaims, ?_⟩
  intro o row hrow hlast
  rw [← h.counted o row hrow] at hlast
  cases hstate : row.state with
  | queued => exact absurd (h.waiting o row hrow hstate) (Nat.not_lt.mpr hlast)
  | running => exact Or.inr ⟨rfl, hleases row (Table.mem_of_get? hrow) hstate hlast⟩
  | _ => exact Or.inl rfl

/-- In every run that meets the conditions the executions of operations are bounded. -/
def BoundedRuns (settings : Settings) (outside : Outside H) (t : Sys H) : Prop :=
  ∀ w, Leased settings outside (World.idle t) w → Bounded settings w.shared

/-- From a state in which nothing has been attempted yet. -/
theorem executions_bounded (settings : Settings) (outside : Outside H) (t : Sys H)
    (ht : t.Initial) (hmax : 0 < settings.operationMaxAttempts)
    (hnew : ∀ row ∈ t.store.db.durableOperations.rows, row.attempts = 0) :
    BoundedRuns settings outside t := by
  intro w hrun
  have hstart : LastLeasesHold settings t := by
    intro row hrow _ hlast
    rw [hnew row hrow] at hlast
    omega
  obtain ⟨hreach, hleases⟩ := hrun.reach hstart
  have haccounted : Accounted settings (World.idle (G := Api) t).shared := by
    have hempty (o : ℕ) : claimants o t.log = [] := by rw [ht.log]; rfl
    have hzero (o : ℕ) (row : DurableOperation)
        (hrow : t.store.db.durableOperations.get? o = some row) : row.attempts = 0 :=
      hnew row (Table.mem_of_get? hrow)
    refine ⟨fun o _ => hempty o, ?_, ?_, ?_⟩
    · intro o row hrow
      have hlength : (claimants o t.log).length = 0 := by rw [hempty]; rfl
      exact (hzero o row hrow).trans hlength.symm
    · intro o row hrow
      rw [hzero o row hrow]
      exact Nat.zero_le _
    · intro o row hrow _
      rw [hzero o row hrow]
      exact hmax
  have hallowed := (counting_sound settings outside (leasing settings)).reach_allowed
    (Discipline.holds_idle ?_)
    ((conductUnder_sound settings outside (leasing settings)).reach_allowed
      (conductUnder_holds ht) hreach)
  · exact ((accounted_preserved hmax).of_reach haccounted hallowed).executionsBounded hleases
  · show WellLogged t.log
    rw [ht.log]
    exact wellLogged_nil

end Attempts

namespace Fixture

/-- From the store of the fixture the executions are bounded. -/
theorem executions_bounded_readyStore : BoundedRuns {} anything (start readyStore) :=
  executions_bounded {} anything (start readyStore) ⟨rfl, rfl⟩ (by decide) (by decide)

/-- A worker that begins to execute the operation and crashes, and the time that its lease takes
to run out. -/
def crash (p : Pid) (workerId : String) : List (Move Api Request) :=
  [.spawn (.operationWorker workerId), .run p 6 unreachable, .exit p, .wait 200]

/-- The start of a VM is queued, and four workers crash over it. -/
def crashes : List (Move Api Request) :=
  [.spawn (.vmPower ⟨1, some 1⟩ 1 .start), .run 0 6 unreachable, .exit 0] ++
    crash 1 "a" ++ crash 2 "b" ++ crash 3 "c" ++ crash 4 "d"

set_option maxRecDepth 100000 in
/-- Each of them has started the execution, although three attempts are allowed. -/
theorem executions_not_bounded : ¬ ∀ w,
    World.Reach (system {} anything) (World.idle (start readyStore)) w → Bounded {} w.shared := by
  intro h
  have hplay : (player.play (World.idle (start readyStore)) crashes).any (fun w =>
      executions 1 w.shared.log = 4) = true := by
    decide +kernel
  obtain ⟨w, hr, hw⟩ := player.exists_of_play hplay
  have hbound := (h w hr).executions 1
  rw [of_decide_eq_true hw] at hbound
  exact absurd hbound (by decide)

end Fixture

end LabGoblin
