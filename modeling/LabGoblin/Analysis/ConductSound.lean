import LabGoblin.Analysis.Grounds

/-!
# Every run keeps the discipline

The programs of all requests keep to the discipline. For the operation worker this follows its
turn: what it claims it has in hand, it executes what it has in hand, and its failure handler
updates the same operation.
-/

set_option autoImplicit false

namespace LabGoblin

open Interactive

section Worker

variable {H : Type} {settings : Settings} {outside : Outside H} {p : Pid} {t : Sys H}

/-! ## What the worker's own interactions keep -/

/-- The process's own statement keeps what it has in hand, if it neither claims nor
finishes. -/
theorem Executes.exec {row : DurableOperation} {q : Stmt} (h : Executes p row t)
    (hq : Stmt.Conducted p q t)
    (hhand : ∀ w ∈ (Entry.stmt p q t.store).written, ∀ o, w.hand o = o) :
    Executes p row ((machine outside).exec p q t) := by
  obtain ⟨hin, cur, hcur, hsame⟩ := h
  obtain ⟨cur', hcur', hsame'⟩ := exec_operations hq _ _ hcur
  refine ⟨?_, cur', hcur', hsame.trans hsame'⟩
  show inHand p (.stmt p q t.store :: t.log) = _
  have hpid : (Entry.stmt p q t.store).pid = p := rfl
  rw [inHand_cons_self _ hpid, ← hin]
  exact inHand_foldl hhand

/-- A record that the VM was loaded from is there after every statement. -/
theorem OnRecord.exec {vm : StudentVM} (q : Stmt) (h : OnRecord vm t) :
    OnRecord vm ((machine outside).exec p q t) := by
  obtain ⟨cur, hcur, hsame⟩ := h
  obtain ⟨cur', hcur', hsame'⟩ := exec_vms p q t _ _ hcur
  exact ⟨cur', hcur', hsame.trans hsame'⟩

/-- A call changes neither the store nor what is in hand. -/
theorem Executes.answer {row : DurableOperation} {c : Call} {r : Except Exc c.Reply} {t' : Sys H}
    (h : Executes p row t) (ha : (machine outside).answer p c t r t') : Executes p row t' := by
  obtain ⟨hh, -, rfl⟩ := ha
  refine ⟨?_, h.2⟩
  rw [← h.1]
  exact (inHand_cons_of_quiet p _ rfl).trans (inHand_cons_of_quiet p _ rfl)

/-- The worker serves its turn with an operation in hand and, once it is loaded, on the
record of a VM. -/
structure Working (p : Pid) (workerId : String) (row : DurableOperation) (vm : Option StudentVM)
    (t : Sys H) : Prop where
  serves : Entry.enter p (.operationWorker workerId) ∈ t.log
  executes : Executes p row t
  onRecord : ∀ v, vm = some v → OnRecord v t

variable {workerId : String} {row : DurableOperation} {vm : Option StudentVM}

/-- A worker goes on with its operation while the others go on. -/
theorem Working.rely {t' : Sys H} (h : Working p workerId row vm t) (hr : Rely p t t') :
    Working p workerId row vm t' where
  serves := hr.log.subset h.serves
  executes := hr.executes h.executes
  onRecord := fun v hv => hr.onRecord (h.onRecord v hv)

/-- A worker goes on with its operation after a call. -/
theorem Working.answer {c : Call} {r : Except Exc c.Reply} {t' : Sys H}
    (h : Working p workerId row vm t) (ha : (machine outside).answer p c t r t') :
    Working p workerId row vm t' where
  serves := by
    obtain ⟨hh, -, rfl⟩ := ha
    exact List.mem_cons_of_mem _ (List.mem_cons_of_mem _ h.serves)
  executes := h.executes.answer ha
  onRecord := by
    obtain ⟨hh, -, rfl⟩ := ha
    exact h.onRecord

/-- A worker goes on with its operation after a statement that leaves what is in hand. -/
theorem Working.exec {q : Stmt} (h : Working p workerId row vm t) (hq : Stmt.Conducted p q t)
    (hhand : ∀ w ∈ (Entry.stmt p q t.store).written, ∀ o, w.hand o = o) :
    Working p workerId row vm ((machine outside).exec p q t) where
  serves := List.mem_cons_of_mem _ h.serves
  executes := h.executes.exec hq hhand
  onRecord := fun v hv => (h.onRecord v hv).exec q

/-- A worker's statement is conducted when its writes fit what it has in hand. -/
theorem Working.conducted {q : Stmt} (h : Working p workerId row vm t)
    (hq : ∀ ws, q = .commit ws → ∀ w ∈ ws, w.ByWorker p t ws) : Stmt.Conducted p q t :=
  ⟨_, h.serves, hq⟩

/-- A statement that is no commit is conducted. -/
theorem Working.quiet {q : Stmt} (h : Working p workerId row vm t) (hq : ∀ ws, q ≠ .commit ws) :
    Stmt.Conducted p q t :=
  h.conducted fun ws hws => absurd hws (hq ws)

/-- The writes that a worker may make at any time while it executes the operation, and that
leave it in hand. -/
def Write.During (p : Pid) (row : DurableOperation) (H : Type) (w : Write) : Prop :=
  (∀ (t : Sys H) ws, Executes p row t → w.ByWorker p t ws) ∧ ∀ o, w.hand o = o

/-- Between its submissions an execution stays within the discipline. -/
theorem conduct_tolerates :
    ((conduct settings outside).contract p).Tolerates (Working p workerId row vm)
      (Commits (Write.During p row H)) (fun c => c.mutating = false) where
  stable := fun t t' h hr _ => h.rely hr
  stmt := by
    intro q t hq _ h _
    have hconducted : Stmt.Conducted p q t := by
      refine h.conducted ?_
      intro ws hws w hw
      subst hws
      exact (hq w hw).1 t ws h.executes
    refine ⟨hconducted, h.exec hconducted ?_⟩
    intro w hw
    cases q with
    | commit ws => exact (hq w (mem_of_mem_written hw)).2
    | _ => cases hw
  call := by
    intro c t hc _ h
    refine ⟨fun hm => ?_, fun r t' ha => h.answer ha⟩
    rw [hc] at hm
    cases hm

/-- A write of an execution's progress may be made during it. -/
theorem Write.Progress.during {v : ℕ} (htarget : row.target = .studentVm v) {w : Write}
    (h : w.Progress row v) : w.During p row H := by
  cases w with
  | vm w =>
    cases w with
    | status v' s =>
      obtain ⟨rfl, htype⟩ := h
      exact ⟨fun t _ ht => ⟨row, ht, htarget, by simp [htype]⟩, fun _ => rfl⟩
    | _ => exact h.elim
  | operation w =>
    cases w with
    | renewLease o lease =>
      have ho : o = row.id := h
      subst ho
      exact ⟨fun t _ ht => ht.1, fun _ => rfl⟩
    | checkpoint o upid payload lease =>
      obtain ⟨rfl, hpayload⟩ := h
      exact ⟨fun t _ ht => ⟨row, ht, rfl, hpayload⟩, fun _ => rfl⟩
    | _ => exact h.elim
  | _ => exact h.elim

/-- A write of the outcome fits what the worker has in hand. -/
theorem Write.Outcome.byWorker {v : ℕ} (htarget : row.target = .studentVm v) {w : Write}
    (h : w.Outcome row v) (ht : Executes p row t) (ws : List Write) : w.ByWorker p t ws := by
  cases w with
  | vm w =>
    cases w with
    | status v' s =>
      obtain ⟨rfl, htype⟩ := h
      exact ⟨row, ht, htarget, htype⟩
    | tombstone v' now =>
      obtain ⟨rfl, htype⟩ := h
      exact ⟨row, ht, htarget, htype⟩
    | insert r => exact h.elim
  | assignment w =>
    cases w with
    | status a s => exact ⟨row, ht, h.2, h.1⟩
    | unlink a s => exact ⟨row, ht, h.1, h.2⟩
    | _ => exact h.elim
  | _ => exact h.elim

/-! ## Submissions -/

/-- A submission directly follows the process's own validation. -/
theorem maintains_submission {v : StudentVM} (payload : Payload) (c : Call)
    (htarget : row.target = .studentVm v.id) (hc : c.Addresses v)
    (hsuits : c.Suits row.operationType) :
    Maintains ((conduct settings outside).contract p) (Working p workerId row (some v))
      (fun _ => True)
      (do
        authorize row v payload
        await c) := by
  intro t ht
  rw [wp_bind, wp_authorize]
  intro t₁ hr₁ _ _
  have h₁ := ht.rely hr₁
  have hconducted : Stmt.Conducted p (.authorize row v payload) t₁ := h₁.quiet (by simp)
  have h₂ : Working p workerId row (some v)
      ((machine outside).exec p (.authorize row v payload) t₁) :=
    h₁.exec hconducted (by intro w hw; cases hw)
  refine ⟨hconducted, ?_⟩
  have hview : ((conduct settings outside).contract p).machine.view t₁ = t₁.store := rfl
  rw [hview]
  cases hvalid : validateOperationAuthorization t₁.store.db t₁.store.clock row v payload with
  | error e =>
    refine ⟨h₂, fun a ha => ?_⟩
    cases ha
  | ok u =>
    rw [Post.andThen_ok]
    unfold await
    rw [wp_await]
    intro t₃ hr₃ _
    have h₃ := h₂.rely hr₃
    refine ⟨fun _ => ?_, fun r t' ha => ⟨h₃.answer ha, fun _ _ => trivial⟩⟩
    refine ⟨row, v, payload, t₁.store, entriesOf p t₁.log, h₃.executes, h₃.onRecord v rfl,
      htarget, hc, hsuits, ?_, hvalid⟩
    rw [hr₃.entries]
    exact entriesOf_cons_self _ rfl

/-- Every guarded submission of an operation is one of the conduct. -/
theorem conduct_submissions (v : StudentVM) (htarget : row.target = .studentVm v.id) :
    Submissions ((conduct settings outside).contract p) (Working p workerId row (some v))
      ⟨settings, row, v⟩ where
  clone := fun payload _ _ htype =>
    maintains_submission payload _ htarget ⟨rfl, rfl, rfl, rfl⟩ htype
  start := fun payload _ htype =>
    maintains_submission payload _ htarget ⟨rfl, rfl, rfl⟩ (Or.inr (Or.inl ⟨htype, rfl⟩))
  power := fun payload _ _ htype =>
    maintains_submission payload _ htarget ⟨rfl, rfl, rfl⟩ (Or.inl htype)
  stop := fun payload _ htype =>
    maintains_submission payload _ htarget ⟨rfl, rfl, rfl⟩ (Or.inr (Or.inr ⟨htype, rfl⟩))
  delete := fun payload _ htype =>
    maintains_submission payload _ htarget ⟨rfl, rfl, rfl⟩ htype

/-! ## The execution -/

/-- A worker with a loaded record is one that works on the operation. -/
theorem Working.forget (h : Working p workerId row vm t) : Working p workerId row none t :=
  ⟨h.serves, h.executes, by simp⟩

/-- Loading the target puts the worker on the record it found. -/
theorem wp_loadTarget (ht : Working p workerId row none t) :
    wp ((conduct settings outside).contract p) (loadTarget row)
      (Loaded (Working p workerId row none) (Working p workerId row) row) t := by
  unfold loadTarget
  cases htarget : row.target with
  | other type id =>
    refine ⟨ht, fun v hv => ?_⟩
    cases hv
  | studentVm id =>
    rw [wp_bind, wp_loadVm]
    intro t₁ hr₁ _ _
    have h₁ := ht.rely hr₁
    have hconducted : Stmt.Conducted p (.select (.vm id)) t₁ := h₁.quiet (by simp)
    have h₂ : Working p workerId row none ((machine outside).exec p (.select (.vm id)) t₁) :=
      h₁.exec hconducted (by intro w hw; cases hw)
    refine ⟨hconducted, ?_⟩
    have hview : ((conduct settings outside).contract p).machine.view t₁ = t₁.store := rfl
    rw [hview, Post.andThen_ok]
    cases hvm : t₁.store.db.studentVms.get? id with
    | none =>
      have hkeeps : Keeps (Write.During p row H) (fun c => c.mutating = false)
          (fun vm => vm = none)
          (do
            authorizeAbsent row row.payload
            return none : Action (Option StudentVM)) := by
        simp [authorizeAbsent]
      refine wp_mono (Maintains.of_ensures conduct_tolerates hkeeps _ h₂) ?_
      intro r t' h
      cases r with
      | error e => exact h.1
      | ok vm =>
        cases h.2 vm rfl
        refine ⟨h.1, fun v hv => ?_⟩
        cases hv
    | some v =>
      have hid : v.id = id := Table.get?_key hvm
      have h₃ : Working p workerId row (some v)
          ((machine outside).exec p (.select (.vm id)) t₁) := by
        refine ⟨h₂.serves, h₂.executes, ?_⟩
        intro v' hv'
        cases hv'
        refine ⟨v, ?_, .refl v⟩
        rw [hid]
        exact hvm
      have hauthorize : Keeps (Write.During p row H) (fun c => c.mutating = false)
          (fun _ => True) (authorize row v row.payload) := keeps_authorize row v row.payload
      refine Maintains.seq (Maintains.of_ensures conduct_tolerates hauthorize) ?_ ?_ h₃
      · intro _ t' _ h
        refine ⟨h, fun v' hv' => ?_⟩
        cases hv'
        rw [hid]
        exact htarget
      · intro e t' h
        exact h.forget

/-- What holds after an execution: it has finished, or it still has the operation in hand. -/
def Executed (p : Pid) (workerId : String) (row : DurableOperation) : Post Api (Sys H) Unit :=
  fun r t => ∀ e, r = .error e → Working p workerId row none t

/-- The final commit is conducted, and a failed one leaves the operation in hand. -/
theorem wp_finalCommit {ws : List Write} (result : OperationResult) (now : Time)
    (hws : ∀ w ∈ ws, ∃ v, row.target = .studentVm v ∧ w.Outcome row v)
    (ht : Working p workerId row vm t) :
    wp ((conduct settings outside).contract p)
      (commit (ws ++ [.operation (.complete row.id result now)])) (Executed p workerId row) t := by
  rw [wp_commit]
  intro t₁ hr₁ _ _
  have h₁ := ht.rely hr₁
  have hconducted : Stmt.Conducted p
      (.commit (ws ++ [.operation (.complete row.id result now)])) t₁ := by
    refine h₁.conducted ?_
    intro ws' hws' w hw
    injection hws' with hws'
    rw [← hws'] at hw
    rcases List.mem_append.mp hw with hw | hw
    · obtain ⟨v, htarget, houtcome⟩ := hws w hw
      exact houtcome.byWorker htarget h₁.executes ws'
    · rw [List.mem_singleton.mp hw]
      exact h₁.executes.1
  refine ⟨hconducted, ?_, ?_⟩
  · intro hnone e _
    refine (h₁.exec hconducted ?_).forget
    intro w hw
    have hnone : t₁.store.afterCommit (ws ++ [.operation (.complete row.id result now)]) =
        none := hnone
    unfold Entry.written at hw
    simp only [hnone] at hw
    cases hw
  · intro db _ e he
    cases he

/-- Executing an operation keeps to the conduct and ends as an execution may. -/
theorem wp_executeOperation_conduct (ht : Working p workerId row none t) :
    wp ((conduct settings outside).contract p) (executeOperation settings row)
      (Executed p workerId row) t := by
  refine wp_executeOperation (fun _ h => h) ?_ (fun _ h => wp_loadTarget h)
    (fun _ => conduct_tolerates) (fun v htarget => conduct_submissions v htarget) ?_ ?_ ?_ ht
  · intro v htarget w hw
    exact hw.during htarget
  · intro vm ws result now t hws h
    exact wp_finalCommit result now hws h
  · intro e t h _ _
    exact h
  · intro vm e t h _ _
    exact h.forget

/-! ## Failures -/

/-- A write of the failure handler for the operation. -/
def Write.Failure (row : DurableOperation) : Write → Prop
  | .operation (.retry o _ _) => o = row.id
  | .operation (.fail o _ _) => o = row.id
  | .operation (.cancel o _ _) => o = row.id
  | .vm (.status v _) => row.operationType = .create ∧ row.target = .studentVm v
  | _ => False

/-- A write of the failure handler fits what the worker has in hand. -/
theorem Write.Failure.byWorker {w : Write} (h : w.Failure row) (ht : Executes p row t)
    (ws : List Write) : w.ByWorker p t ws := by
  cases w with
  | vm w =>
    cases w with
    | status v s => exact ⟨row, ht, h.2, by simp [h.1]⟩
    | _ => exact h.elim
  | operation w =>
    cases w with
    | retry o e time =>
      have ho : o = row.id := h
      subst ho
      exact ht.1
    | fail o e time =>
      have ho : o = row.id := h
      subst ho
      exact ht.1
    | cancel o e time =>
      have ho : o = row.id := h
      subst ho
      exact ht.1
    | _ => exact h.elim
  | _ => exact h.elim

/-- Only the VM that a `vm.create` was to create is marked as failed. -/
theorem mem_failedVmWrites {w : Write} (h : w ∈ failedVmWrites row vm) :
    row.operationType = .create ∧ ∃ v, vm = some v ∧ w = .vm (.status v.id .error) := by
  unfold failedVmWrites at h
  cases htype : row.operationType with
  | create =>
    cases vm with
    | none => simp [htype] at h
    | some v =>
      simp only [htype] at h
      exact ⟨rfl, v, rfl, mem_statusWrites h⟩
  | _ => simp [htype] at h

/-- The last commit of a turn is conducted. -/
theorem wp_failureCommit {ws : List Write} (hws : ∀ w ∈ ws, w.Failure row)
    (ht : Working p workerId row none t) :
    wp ((conduct settings outside).contract p) (commit ws) (fun _ _ => True) t := by
  rw [wp_commit]
  intro t₁ hr₁ _ _
  have h₁ := ht.rely hr₁
  refine ⟨h₁.conducted ?_, fun _ => trivial, fun _ _ => trivial⟩
  intro ws' hws' w hw
  injection hws' with hws'
  rw [← hws'] at hw
  exact (hws w hw).byWorker h₁.executes ws'

/-- Between its commits the worker only reads the clock and records. -/
theorem maintains_utcnow : Maintains ((conduct settings outside).contract p)
    (Working p workerId row vm) (fun _ => True) utcnow := by
  refine Maintains.of_ensures conduct_tolerates ?_
  exact (keeps_utcnow _).mpr fun _ => trivial

/-- Cancelling an operation that is not authorized keeps to the conduct. -/
theorem wp_cancelUnauthorizedOperation (e : Exc) (ht : Working p workerId row none t) :
    wp ((conduct settings outside).contract p) (cancelUnauthorizedOperation row e)
      (fun _ _ => True) t := by
  unfold cancelUnauthorizedOperation
  refine Maintains.seq maintains_utcnow ?_ (fun _ _ _ => trivial) ht
  intro now t _ h
  refine wp_failureCommit ?_ h
  intro w hw
  rw [List.mem_singleton.mp hw]
  rfl

/-- A final failure writes the operation, and the status of the VM it would have created. -/
theorem wp_failOrRetry (e : Exc) (ht : Working p workerId row none t) :
    wp ((conduct settings outside).contract p) (failOrRetry settings row e)
      (fun _ _ => True) t := by
  have htarget : Keeps (Write.During p row H) (fun c => c.mutating = false)
      (fun vm => ∀ v, vm = some v → row.target = .studentVm v.id) (targetVm row) := by
    unfold targetVm
    cases htarget : row.target with
    | studentVm id =>
      refine Keeps.mono (keeps_loadVm id) ?_
      intro vm h v hv
      rw [h v hv]
    | other type id =>
      intro v hv
      cases hv
  unfold failOrRetry
  refine Maintains.seq maintains_utcnow ?_ (fun _ _ _ => trivial) ht
  intro now t _ h
  split
  · refine wp_failureCommit ?_ h
    intro w hw
    rw [List.mem_singleton.mp hw]
    rfl
  · refine Maintains.seq (Maintains.of_ensures conduct_tolerates htarget) ?_
      (fun _ _ _ => trivial) h
    intro vm t hvm h
    refine wp_failureCommit ?_ h
    intro w hw
    rcases List.mem_append.mp hw with hw | hw
    · obtain ⟨htype, v, rfl, rfl⟩ := mem_failedVmWrites hw
      exact ⟨htype, hvm v rfl⟩
    · rw [List.mem_singleton.mp hw]
      rfl

/-- The handler reads the operation again, which is still the one in hand. -/
theorem wp_handleFailure (e : Exc) (ht : Working p workerId row none t) :
    wp ((conduct settings outside).contract p) (handleFailure settings row.id e)
      (fun _ _ => True) t := by
  have hrollback : Keeps (Write.During p row H) (fun c => c.mutating = false)
      (fun _ => True) rollback := (keeps_rollback _).mpr fun _ => trivial
  unfold handleFailure
  refine Maintains.seq (Maintains.of_ensures conduct_tolerates hrollback) ?_
    (fun _ _ _ => trivial) ht
  intro _ t _ h
  rw [wp_bind, wp_select]
  intro t₁ hr₁ _ _
  have h₁ := h.rely hr₁
  have hconducted : Stmt.Conducted p (.select .rows) t₁ := h₁.quiet (by simp)
  have h₂ : Working p workerId row none ((machine outside).exec p (.select .rows) t₁) :=
    h₁.exec hconducted (by intro w hw; cases hw)
  refine ⟨hconducted, ?_⟩
  have hview : ((conduct settings outside).contract p).machine.view t₁ = t₁.store := rfl
  rw [hview, Post.andThen_ok]
  obtain ⟨cur, hcur, hsame⟩ := h₁.executes.2
  have hcurrent : Working p workerId cur none
      ((machine outside).exec p (.select .rows) t₁) := by
    refine ⟨h₂.serves, ⟨?_, cur, ?_, .refl cur⟩, by simp⟩
    · rw [hsame.id]
      exact h₂.executes.1
    · rw [hsame.id]
      exact hcur
  rw [hcur]
  cases e with
  | authorization message =>
    refine wp_seq (wp_cancelUnauthorizedOperation _ hcurrent) ?_ ?_
    · exact fun _ _ _ => trivial
    · exact fun _ _ _ => trivial
  | _ =>
    refine wp_seq (wp_failOrRetry _ hcurrent) ?_ ?_
    · exact fun _ _ _ => trivial
    · exact fun _ _ _ => trivial

/-! ## A turn -/

/-- Before it has claimed an operation, the worker only serves its turn. -/
theorem serves_tolerates (r : Request) :
    ((conduct settings outside).contract p).Tolerates (fun t => Entry.enter p r ∈ t.log)
      (Commits fun _ => False) (fun c => c.mutating = false) where
  stable := fun t t' h hr _ => hr.log.subset h
  stmt := by
    intro q t hq _ h _
    refine ⟨⟨r, h, ?_⟩, List.mem_cons_of_mem _ h⟩
    rintro ws rfl w hw
    exact (hq w hw).elim
  call := by
    intro c t hc _ h
    refine ⟨fun hm => ?_, ?_⟩
    · rw [hc] at hm
      cases hm
    · rintro r t' ⟨hh, -, rfl⟩
      exact List.mem_cons_of_mem _ (List.mem_cons_of_mem _ h)

/-- The earliest operation is one of the operations. -/
theorem mem_of_earliest {os : List DurableOperation} {o : DurableOperation}
    (h : earliest os = some o) : o ∈ os := by
  induction os generalizing o with
  | nil => cases h
  | cons a os ih =>
    unfold earliest at h
    split at h
    · cases h
      exact List.mem_cons_self
    · rename_i best hbest
      split at h
      · cases h
        exact List.mem_cons_self
      · cases h
        exact List.mem_cons_of_mem a (ih hbest)

/-- The row that is claimed is there, and can be claimed. -/
theorem nextOperation_claimable {s : Store} {now : Time} {row : DurableOperation}
    (h : nextOperation s now = some row) :
    s.db.durableOperations.get? row.id = some row ∧ claimable now row = true := by
  obtain ⟨hrow, hclaimable⟩ := List.mem_filter.mp (mem_of_earliest h)
  exact ⟨Table.get?_of_mem hrow, (Bool.and_eq_true_iff.mp hclaimable).1⟩

/-- The row that is claimed is waiting or its lease has run out. -/
theorem nextOperation_some {s : Store} {now : Time} {row : DurableOperation}
    (h : nextOperation s now = some row) :
    s.db.durableOperations.get? row.id = some row ∧ row.state.terminal = false := by
  obtain ⟨hrow, hclaimable⟩ := nextOperation_claimable h
  refine ⟨hrow, ?_⟩
  simp only [claimable, Bool.and_eq_true, Bool.or_eq_true, decide_eq_true_eq] at hclaimable
  rcases hclaimable.1 with hstate | ⟨hstate, -⟩ <;> rw [hstate] <;> rfl

/-- What holds once a worker has looked for an operation. -/
def Claimed (p : Pid) (workerId : String) : Post Api (Sys H) (Option DurableOperation) :=
  fun r t => ∀ row, r = .ok (some row) → Working p workerId row none t

/-- The operation that a worker claims was locked, so it claims it in the state it saw. -/
theorem wp_claimOperation (ht : Entry.enter p (.operationWorker workerId) ∈ t.log) :
    wp ((conduct settings outside).contract p) (claimOperation settings workerId)
      (Claimed p workerId) t := by
  have hnow : Keeps (fun _ => False) (fun c => c.mutating = false) (fun _ => True) utcnow :=
    (keeps_utcnow _).mpr fun _ => trivial
  unfold claimOperation
  refine Maintains.seq (Maintains.of_ensures (serves_tolerates (.operationWorker workerId)) hnow)
    ?_ (fun e t _ row hr => by cases hr) ht
  intro now t _ h
  rw [wp_run_bind]
  intro t₁ hr₁ _ _
  have h₁ : Entry.enter p (.operationWorker workerId) ∈ t₁.log := hr₁.log.subset h
  refine ⟨⟨_, h₁, fun _ hq => by cases hq⟩, ?_⟩
  have hview : ((conduct settings outside).contract p).machine.view t₁ = t₁.store := rfl
  rw [hview]
  cases hnext : nextOperation t₁.store now with
  | none =>
    intro row hr
    cases hr
  | some row =>
    obtain ⟨hrow, hstate⟩ := nextOperation_some hnext
    have hlock : (Lock.durableOperation row.id, p) ∈
        ((machine outside).exec p (.lock (.claimNext now)) t₁).store.locks := by
      refine List.mem_append_left _ ?_
      simp [LockQuery.locks, hnext]
    rw [wp_bind, wp_commit]
    intro t₂ hr₂ _ _
    have h₂ : Entry.enter p (.operationWorker workerId) ∈ t₂.log :=
      hr₂.log.subset (List.mem_cons_of_mem _ h₁)
    have hrow₂ : t₂.store.db.durableOperations.get? row.id = some row := by
      rw [hr₂.locked _ hlock]
      exact hrow
    have hconducted : Stmt.Conducted p (.commit [.operation (.claim row.id workerId
        (now + settings.operationLeaseSeconds) (row.startedAt.getD now) (row.attempts + 1))])
        t₂ := by
      refine ⟨_, h₂, ?_⟩
      intro ws hws w hw
      injection hws with hws
      rw [← hws] at hw ⊢
      rw [List.mem_singleton.mp hw]
      exact ⟨⟨row, hrow₂, hstate⟩, rfl⟩
    refine ⟨hconducted, ?_, ?_⟩
    · intro _ row hr
      cases hr
    · intro db hdb
      have hcommit : t₂.store.afterCommit [.operation (.claim row.id workerId
        (now + settings.operationLeaseSeconds) (row.startedAt.getD now) (row.attempts + 1))] =
          some db := hdb
      have hworking : Working p workerId row none ((machine outside).exec p
          (.commit [.operation (.claim row.id workerId (now + settings.operationLeaseSeconds)
            (row.startedAt.getD now) (row.attempts + 1))]) t₂) := by
        obtain ⟨cur, hcur, hsame⟩ := exec_operations hconducted _ _ hrow₂
        refine ⟨List.mem_cons_of_mem _ h₂, ⟨?_, cur, hcur, hsame⟩, by simp⟩
        refine (inHand_cons_self _ rfl).trans ?_
        unfold Entry.hand Entry.written
        simp only [hcommit]
        rfl
      rw [Post.andThen_ok]
      unfold reloadOperation
      rw [wp_bind, wp_bind, wp_select]
      intro t₃ hr₃ _ _
      have h₃ := hworking.rely hr₃
      have hselect : Stmt.Conducted p (.select .rows) t₃ := h₃.quiet (by simp)
      have h₄ : Working p workerId row none
          ((machine outside).exec p (.select .rows) t₃) :=
        h₃.exec hselect (by intro w hw; cases hw)
      refine ⟨hselect, ?_⟩
      have hview₃ : ((conduct settings outside).contract p).machine.view t₃ = t₃.store := rfl
      rw [hview₃]
      obtain ⟨cur, hcur, hsame⟩ := h₃.executes.2
      rw [Post.andThen_ok, hcur]
      intro row' hr
      cases hr
      refine ⟨h₄.serves, ⟨?_, cur, ?_, .refl cur⟩, by simp⟩
      · rw [hsame.id]
        exact h₄.executes.1
      · rw [hsame.id]
        exact hcur

/-- A turn of the operation worker keeps the discipline. -/
theorem wp_operationWorker (ht : Entry.enter p (.operationWorker workerId) ∈ t.log) :
    wp ((conduct settings outside).contract p) (operationWorker settings workerId)
      (fun _ _ => True) t := by
  unfold operationWorker
  refine wp_seq (wp_claimOperation ht) ?_ (fun _ _ _ => trivial)
  intro row t hrow
  cases row with
  | none => exact trivial
  | some row =>
    have h : Working p workerId row none t := hrow row rfl
    have hbody : wp ((conduct settings outside).contract p)
        (do
          executeOperation settings row
          return WorkerTurn.succeeded)
        (fun r t => ∀ e, r = .error e → Working p workerId row none t) t := by
      refine wp_seq (wp_executeOperation_conduct h) ?_ ?_
      · intro _ t _ e he
        cases he
      · intro e t he e' he'
        cases he'
        exact he e rfl
    refine wp_handle hbody (fun _ _ _ => trivial) ?_
    intro e t he
    exact wp_handleFailure e (he e rfl)

end Worker

/-! ## Soundness -/

section Soundness

variable {H : Type} {settings : Settings} {outside : Outside H}

/-- The program of every request keeps the discipline. -/
theorem wp_program (r : Request) (p : Pid) (t : Sys H) (h : Entry.enter p r ∈ t.log) :
    wp ((conduct settings outside).contract p) (program settings r) (fun _ _ => True) t := by
  cases hr : r.isWorker with
  | false => exact wp_request hr h
  | true =>
    cases r with
    | operationWorker workerId =>
      exact wp_seq (wp_operationWorker h) (fun _ _ _ => trivial) fun _ _ _ => trivial
    | _ => cases hr

/-- The deployed system keeps the discipline. -/
theorem conduct_sound (settings : Settings) (outside : Outside H) :
    (conduct settings outside).Sound where
  refl := Rely.refl
  trans := fun _ _ _ _ => Rely.trans
  stable := fun _ _ _ h hr => h.rely hr
  stmt := by
    intro p q t hinv hpresent henabled hconducted
    refine ⟨⟨?_, fun p' hne => exec_rely henabled hconducted hne⟩, ?_⟩
    · exact hinv.cons hpresent.1 (by simp)
    · exact hpresent.cons rfl (by simp)
  call := by
    intro p c t r t' hinv hpresent _ hanswer
    obtain ⟨h, houtside, rfl⟩ := hanswer
    have hcall : WellLogged (Entry.call p c t.store :: t.log) := hinv.cons hpresent.1 (by simp)
    refine ⟨⟨?_, fun p' hne => answer_rely ⟨h, houtside, rfl⟩ hne⟩, ?_⟩
    · refine hcall.cons ?_ (by simp)
      obtain ⟨r', hr'⟩ := hpresent.1
      exact ⟨r', List.mem_cons_of_mem _ hr'⟩
    · obtain ⟨⟨r', hr'⟩, hended⟩ := hpresent
      refine ⟨⟨r', List.mem_cons_of_mem _ (List.mem_cons_of_mem _ hr')⟩, ?_⟩
      intro hleave
      refine hended ?_
      simpa [Ended] using hleave
  enter := by
    intro r t hinv _
    refine ⟨⟨hinv.enter r, fun p' hne => enter_rely r hne⟩, ⟨r, List.mem_cons_self⟩, ?_⟩
    intro hleave
    rcases List.mem_cons.mp hleave with heq | hleave
    · cases heq
    · exact hinv.not_mem (by rfl) hleave
  leave := by
    intro p t hinv hpresent
    exact ⟨hinv.cons hpresent.1 (by simp), fun p' hne => leave_rely hne⟩
  env := by
    intro t t' hinv henv
    refine ⟨?_, env_rely henv.1 henv.2⟩
    show WellLogged t'.log
    rw [henv.2]
    exact hinv
  program := by
    intro r t _ _
    exact wp_program r _ _ List.mem_cons_self

variable {okStart : Request → Sys H → Prop} {okStmt : Pid → Stmt → Sys H → Prop}
  {okCall : Pid → Call → Sys H → Prop} {t : Sys H} {w w' : World Api (Sys H)}

/-- In an idle world in which nothing has happened the discipline holds. -/
theorem conduct_holds (ht : t.log = []) :
    ((conduct settings outside).restrict okStart okStmt okCall).Holds (World.idle t) := by
  refine Discipline.holds_idle ?_
  show WellLogged t.log
  rw [ht]
  exact wellLogged_nil

/-- Every run from an idle world that meets a condition is a run whose steps all meet the
condition and keep the discipline. -/
theorem reach_conduct (ht : t.log = [])
    (hr : World.Reach ((system settings outside).restrict okStart okStmt okCall)
      (World.idle t) w) :
    World.Reach ((conduct settings outside).restrict okStart okStmt okCall).allowed
      (World.idle t) w :=
  ((conduct_sound settings outside).restrict okStart okStmt okCall).reach_allowed
    (conduct_holds ht) hr

/-- The same for what follows a world that such a run has reached. -/
theorem reach_conduct_from (ht : t.log = [])
    (hr : World.Reach ((system settings outside).restrict okStart okStmt okCall)
      (World.idle t) w)
    (hr' : World.Reach ((system settings outside).restrict okStart okStmt okCall) w w') :
    World.Reach ((conduct settings outside).restrict okStart okStmt okCall).allowed w w' := by
  have hsound := (conduct_sound settings outside).restrict okStart okStmt okCall
  exact hsound.reach_allowed (hsound.holds_of_reach (conduct_holds ht) hr) hr'

end Soundness

end LabGoblin
