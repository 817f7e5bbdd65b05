import LabGoblin.Analysis.Conduct

/-!
# What a conducted step guarantees the others

Every statement, call, start and end of a process under the discipline is one that every
other process reckons with, and keeps the log well formed.
-/

set_option autoImplicit false

namespace LabGoblin

open Interactive

/-! ## The log -/

/-- The number of processes that were started does not go down. -/
theorem started_cons (e : Entry) (log : List Entry) : started log ≤ started (e :: log) := by
  cases e with
  | enter p r => exact Nat.le_succ _
  | _ => exact Nat.le_refl _

/-- The empty log is well formed. -/
theorem wellLogged_nil : WellLogged [] where
  fresh := by simp
  request := by simp

/-- An entry in the name of a process that was started. -/
theorem WellLogged.cons {log : List Entry} {e : Entry} (h : WellLogged log)
    (he : ∃ r, Entry.enter e.pid r ∈ log) (hne : ∀ p r, e ≠ .enter p r) :
    WellLogged (e :: log) where
  fresh := by
    obtain ⟨r, hr⟩ := he
    have hpid := h.fresh _ hr
    intro e' he'
    rcases List.mem_cons.mp he' with rfl | he'
    · exact lt_of_lt_of_le hpid (started_cons _ log)
    · exact lt_of_lt_of_le (h.fresh e' he') (started_cons _ log)
  request := by
    intro p r r' hr hr'
    rcases List.mem_cons.mp hr with heq | hr
    · exact absurd heq.symm (hne p r)
    · rcases List.mem_cons.mp hr' with heq | hr'
      · exact absurd heq.symm (hne p r')
      · exact h.request p r r' hr hr'

/-- A new process gets a name that no entry carries. -/
theorem WellLogged.not_mem {log : List Entry} (h : WellLogged log) {e : Entry}
    (he : e.pid = started log) : e ∉ log := by
  intro hmem
  exact absurd he (Nat.ne_of_lt (h.fresh e hmem))

/-- A process that enters under the next number keeps the log well formed. -/
theorem WellLogged.enter {log : List Entry} (h : WellLogged log) (r : Request) :
    WellLogged (.enter (started log) r :: log) where
  fresh := by
    intro e he
    show e.pid < started log + 1
    rcases List.mem_cons.mp he with rfl | he
    · exact Nat.lt_succ_self _
    · exact Nat.lt_succ_of_lt (h.fresh e he)
  request := by
    intro p r₁ r₂ h₁ h₂
    rcases List.mem_cons.mp h₁ with h₁ | h₁
    · rcases List.mem_cons.mp h₂ with h₂ | h₂
      · injection h₁ with _ hr₁
        injection h₂ with _ hr₂
        rw [hr₁, hr₂]
      · injection h₁ with hp _
        exact absurd h₂ (h.not_mem (e := .enter p r₂) hp)
    · rcases List.mem_cons.mp h₂ with h₂ | h₂
      · injection h₂ with hp _
        exact absurd h₁ (h.not_mem (e := .enter p r₁) hp)
      · exact h.request p r₁ r₂ h₁ h₂

/-- A new process has no entries. -/
theorem WellLogged.entriesOf_started {log : List Entry} (h : WellLogged log) :
    entriesOf (started log) log = [] := by
  refine List.filter_eq_nil_iff.mpr ?_
  intro e he hpid
  have hpid : e.pid = started log := by simpa using hpid
  exact h.not_mem hpid he

/-! ## Statements -/

section Statements

variable {H : Type} {outside : Outside H} {p : Pid} {q : Stmt} {t : Sys H}

/-- A statement is the last entry of the process that runs it. -/
theorem entriesOf_exec (p : Pid) (q : Stmt) (t : Sys H) :
    entriesOf p ((machine outside).exec p q t).log = .stmt p q t.store :: entriesOf p t.log :=
  entriesOf_cons_self _ rfl

/-- A conducted commit is one of the worker's, or of another request. -/
theorem Stmt.Conducted.split {ws : List Write} (h : Stmt.Conducted p (.commit ws) t) :
    ∃ r, Entry.enter p r ∈ t.log ∧
      ((r.isWorker = true ∧ ∀ w ∈ ws, w.ByWorker p t ws) ∨
        (r.isWorker = false ∧ ∀ w ∈ ws, r.mayWrite w ∧ w.Grounded r p t ws)) := by
  obtain ⟨r, hr, hconducts⟩ := h
  refine ⟨r, hr, ?_⟩
  cases hworker : r.isWorker with
  | true =>
    refine Or.inl ⟨rfl, fun w hw => ?_⟩
    have h := hconducts ws rfl w hw
    unfold Request.conducts at h
    rwa [hworker, if_pos rfl] at h
  | false =>
    refine Or.inr ⟨rfl, fun w hw => ?_⟩
    have h := hconducts ws rfl w hw
    unfold Request.conducts at h
    rwa [hworker, if_neg (by simp)] at h

/-- Except for the worker, a request updates no operation. -/
theorem Request.mayWrite_operation {r : Request} (hr : r.isWorker = false) {w : OperationWrite}
    (h : r.mayWrite (.operation w)) : ∃ row, w = .insert row ∧ Queued row := by
  cases w with
  | insert row =>
    refine ⟨row, rfl, ?_⟩
    cases r with
    | operationWorker _ => cases hr
    | createVm _ _ => exact h.1
    | vmPower _ _ _ => exact h.1
    | deleteVmRecord _ _ _ => exact h.1
    | changeLabRunState _ _ _ _ => exact h.1
    | cleanupWorker => exact h.1
    | bulkVmAction _ _ _ =>
      obtain ⟨_, _, hq⟩ := h
      exact hq.1
    | createLabRun _ _ =>
      obtain ⟨_, hrow⟩ := h
      cases hrow
    | revokeRunAssignment _ _ _ => cases h
    | _ => exact h.elim
  | _ =>
    exfalso
    cases r with
    | operationWorker _ => cases hr
    | bulkVmAction _ _ _ =>
      obtain ⟨_, _, hq⟩ := h
      exact hq
    | createLabRun _ _ =>
      obtain ⟨_, hrow⟩ := h
      cases hrow
    | revokeRunAssignment _ _ _ => cases h
    | _ => exact h

/-- Except for the worker, a request gives an assignment no live status. -/
theorem Request.mayWrite_status {r : Request} (hr : r.isWorker = false) {a : ℕ}
    {s : AssignmentStatus} (h : r.mayWrite (.assignment (.status a s))) :
    s = .expired ∨ s = .revoked := by
  cases r with
  | operationWorker _ => cases hr
  | changeLabRunState _ _ _ _ => exact h
  | revokeRunAssignment _ _ _ =>
    cases h
    exact Or.inr rfl
  | createSetup _ _ => exact Or.inr h
  | editSetup _ _ _ => exact Or.inr h
  | cleanupWorker => exact Or.inl h
  | createLabRun _ _ =>
    obtain ⟨_, hw⟩ := h
    cases hw
  | bulkVmAction _ _ _ =>
    obtain ⟨_, _, hq⟩ := h
    exact hq.elim
  | _ => exact h.elim

/-- The requests that write the status of VM records they have found, or queue operations other
than deletions on them. -/
def Request.disturbs : Request → Bool
  | .listVms _ => true
  | .vmPower _ _ _ => true
  | .refreshVmStatus _ _ => true
  | .bulkVmAction _ _ action => action ≠ .delete
  | .reconcileVms _ => true
  | .reconciliationWorker => true
  | _ => false

/-- An endpoint that writes the status of a VM is one of those that disturb. -/
theorem Request.mayWrite_vmStatus {r : Request} (hr : r.isWorker = false) {v : ℕ} {s : VmStatus}
    (h : r.mayWrite (.vm (.status v s))) : r.disturbs = true := by
  cases r with
  | operationWorker _ => cases hr
  | listVms _ => rfl
  | refreshVmStatus _ _ => rfl
  | reconcileVms _ => rfl
  | reconciliationWorker => rfl
  | createLabRun _ _ =>
    obtain ⟨_, hw⟩ := h
    cases hw
  | bulkVmAction _ _ _ =>
    obtain ⟨_, _, hq⟩ := h
    exact hq.elim
  | revokeRunAssignment _ _ _ => cases h
  | _ => exact h.elim

/-- What a request queues creates a VM, deletes one, or acts on one it has searched for. -/
theorem Request.mayWrite_insert {r : Request} (hr : r.isWorker = false) {row : DurableOperation}
    (h : r.mayWrite (.operation (.insert row))) :
    row.operationType = .create ∨ row.operationType = .delete ∨
      (r.searches = true ∧ r.disturbs = true ∧ ∃ v, row.target = .studentVm v) := by
  cases r with
  | operationWorker _ => cases hr
  | createVm _ _ => exact Or.inl h.2
  | vmPower _ v _ =>
    obtain ⟨-, -, v, htarget, -⟩ := h
    exact Or.inr (Or.inr ⟨rfl, rfl, v, htarget⟩)
  | deleteVmRecord _ _ _ => exact Or.inr (Or.inl h.2.1)
  | changeLabRunState _ _ _ _ => exact Or.inr (Or.inl h.2)
  | cleanupWorker => exact Or.inr (Or.inl h.2)
  | bulkVmAction _ _ action =>
    obtain ⟨type, htype, -, hrow, v, htarget, -⟩ := h
    cases action with
    | delete =>
      cases htype
      exact Or.inr (Or.inl hrow)
    | power action => exact Or.inr (Or.inr ⟨rfl, rfl, v, htarget⟩)
    | other text => cases htype
  | createLabRun _ _ =>
    obtain ⟨_, hw⟩ := h
    cases hw
  | revokeRunAssignment _ _ _ => cases h
  | _ => exact h.elim

/-- A conducted checkpoint keeps the payload but its phase. -/
theorem Stmt.Conducted.checkpoint {ws : List Write} (h : Stmt.Conducted p (.commit ws) t)
    {i : ℕ} {upid : Option Upid} {payload : Payload} {lease : Time}
    (hw : .operation (.checkpoint i upid (some payload) lease) ∈ ws) {o : DurableOperation}
    (ho : t.store.db.durableOperations.get? i = some o) : payload.Agrees o.payload := by
  obtain ⟨r, -, ⟨-, hworker⟩ | ⟨hr, hrequest⟩⟩ := h.split
  · obtain ⟨row, ⟨-, cur, hcur, hsame⟩, rfl, hpayload⟩ := hworker _ hw
    rw [ho] at hcur
    cases hcur
    exact (hpayload payload rfl).trans hsame.payload.symm
  · obtain ⟨row, hrow, -⟩ := Request.mayWrite_operation hr (hrequest _ hw).1
    cases hrow

/-- A conducted claim is alone in its commit, and takes an operation that is not finished. -/
theorem Stmt.Conducted.claim {ws : List Write} (h : Stmt.Conducted p (.commit ws) t) {o : ℕ}
    {owner : String} {lease started : Time} {attempts : ℕ}
    (hw : .operation (.claim o owner lease started attempts) ∈ ws) :
    (∃ cur, t.store.db.durableOperations.get? o = some cur ∧ cur.state.terminal = false) ∧
      ws = [.operation (.claim o owner lease started attempts)] := by
  obtain ⟨r, -, ⟨-, hworker⟩ | ⟨hr, hrequest⟩⟩ := h.split
  · exact hworker _ hw
  · obtain ⟨row, hrow, -⟩ := Request.mayWrite_operation hr (hrequest _ hw).1
    cases hrow

/-- An operation that a request queues is new in every respect. -/
theorem Stmt.Conducted.queued {ws : List Write} (h : Stmt.Conducted p (.commit ws) t)
    {row : DurableOperation} (hw : .operation (.insert row) ∈ ws) : Queued row := by
  obtain ⟨r, -, ⟨-, hworker⟩ | ⟨hr, hrequest⟩⟩ := h.split
  · exact (hworker _ hw).elim
  · obtain ⟨row', heq, hqueued⟩ := Request.mayWrite_operation hr (hrequest _ hw).1
    cases heq
    exact hqueued

/-- The operation that a write updates, if it is neither an insert nor a claim. -/
def Write.updates : Write → Option ℕ
  | .operation (.insert _) => none
  | .operation (.claim _ _ _ _ _) => none
  | .operation w => some w.target
  | _ => none

/-- A conducted update is one of the operation in hand. -/
theorem Stmt.Conducted.update {ws : List Write} (h : Stmt.Conducted p (.commit ws) t) {w : Write}
    (hw : w ∈ ws) {o : ℕ} (ho : w.updates = some o) : inHand p t.log = some o := by
  cases w with
  | operation w =>
    obtain ⟨r, -, ⟨-, hworker⟩ | ⟨hr, hrequest⟩⟩ := h.split
    · have hw := hworker _ hw
      cases w with
      | insert row => cases ho
      | claim o' owner lease started attempts => cases ho
      | checkpoint o' upid payload lease =>
        obtain ⟨row, ⟨hhand, -⟩, rfl, -⟩ := hw
        cases ho
        exact hhand
      | _ =>
        cases ho
        exact hw
    · obtain ⟨row, rfl, -⟩ := Request.mayWrite_operation hr (hrequest _ hw).1
      cases ho
  | _ => cases ho

/-- After a commit a process has in hand what it has claimed by it, or had before. -/
theorem inHand_before_of_no_claim {ws : List Write} (h : Stmt.Conducted p (.commit ws) t)
    {db : { db : Db // db.Constraints }} (hcommit : t.store.afterCommit ws = some db) {o : ℕ}
    (hclaim : ¬ ∃ owner lease started attempts,
      Write.operation (.claim o owner lease started attempts) ∈ ws)
    (hhand : inHand p (.stmt p (.commit ws) t.store :: t.log) = some o) :
    inHand p t.log = some o := by
  rw [inHand_cons_self _ (show (Entry.stmt p (.commit ws) t.store).pid = p from rfl)] at hhand
  unfold Entry.hand at hhand
  rw [show (Entry.stmt p (.commit ws) t.store).written = ws by
    simp [Entry.written, hcommit]] at hhand
  by_cases hclaims : ∃ o' owner lease started attempts,
      Write.operation (.claim o' owner lease started attempts) ∈ ws
  · obtain ⟨o', owner, lease, started, attempts, hw⟩ := hclaims
    obtain ⟨-, hws⟩ := h.claim hw
    subst hws
    have ho : o' = o := Option.some.inj hhand
    subst ho
    exact absurd ⟨owner, lease, started, attempts, hw⟩ hclaim
  · refine (inHand_of_foldl ?_ hhand).1
    rintro w hw o' owner lease started attempts rfl
    exact hclaims ⟨o', owner, lease, started, attempts, hw⟩

/-- No conducted statement gives an operation another job. -/
theorem exec_operations (h : Stmt.Conducted p q t) (i : ℕ) (o : DurableOperation)
    (ho : t.store.db.durableOperations.get? i = some o) :
    ∃ o', (t.store.exec p q).db.durableOperations.get? i = some o' ∧ o.SameJob o' := by
  rcases Store.exec_cases p q t.store with ⟨ws, db, rfl, hcommit, hdb, -⟩ | ⟨-, -, hsame⟩
  · rw [hdb]
    obtain ⟨o', ho'⟩ := Store.operation_stays hcommit ho
    refine ⟨o', ho', ?_⟩
    refine Store.operation_afterCommit hcommit ?_ ?_ ?_ o' ho'
    · intro r hr
      rw [ho] at hr
      cases hr
      exact .refl o
    · intro r hnone
      rw [ho] at hnone
      cases hnone
    · intro w hw htarget r _ hr
      refine OperationWrite.onRow_sameJob hr ?_
      rintro j upid payload lease rfl
      have hj : j = i := htarget
      subst hj
      exact h.checkpoint hw ho
  · refine ⟨o, ?_, .refl o⟩
    rw [hsame.operation, ho]

/-- No statement gives a VM record another VM. -/
theorem exec_vms (p : Pid) (q : Stmt) (t : Sys H) (i : ℕ) (v : StudentVM)
    (hv : t.store.db.studentVms.get? i = some v) :
    ∃ v', (t.store.exec p q).db.studentVms.get? i = some v' ∧ v.SameRecord v' := by
  rcases Store.exec_cases p q t.store with ⟨ws, db, rfl, hcommit, hdb, -⟩ | ⟨-, -, hsame⟩
  · rw [hdb]
    obtain ⟨v', hv'⟩ := Store.vm_stays hcommit hv
    refine ⟨v', hv', ?_⟩
    refine Store.vm_afterCommit hcommit ?_ ?_ ?_ v' hv'
    · intro r hr
      rw [hv] at hr
      cases hr
      exact .refl v
    · intro r hnone
      rw [hv] at hnone
      cases hnone
    · intro w _ _ r _ hr
      exact hr.trans (w.onRow_sameRecord r)
  · refine ⟨v, ?_, .refl v⟩
    rw [hsame.vm, hv]

/-- A statement drops no lock of another process. -/
theorem exec_locks {p' : Pid} (hne : p' ≠ p) {l : Lock} (hl : (l, p') ∈ t.store.locks) :
    (l, p') ∈ (t.store.exec p q).locks := by
  have hrelease : ∀ s : Store, s.locks = t.store.locks → (l, p') ∈ (s.release p).locks := by
    intro s hs
    simp [Store.release, hs, hl, hne]
  cases q with
  | lock lq => exact List.mem_append_right _ hl
  | commit ws =>
    cases h : t.store.afterCommit ws with
    | none =>
      rw [Store.exec_commit_none h]
      exact hrelease _ rfl
    | some db =>
      rw [Store.exec_commit_some h]
      exact hrelease _ rfl
  | rollback => exact hrelease _ rfl
  | _ => exact hl

/-- A row that another process has locked is not written. -/
theorem exec_locked {p' : Pid} (hne : p' ≠ p)
    (henabled : ∀ l ∈ q.needs t.store, t.store.FreeFor p l) {i : ℕ}
    (hl : (.durableOperation i, p') ∈ t.store.locks) :
    (t.store.exec p q).db.durableOperations.get? i = t.store.db.durableOperations.get? i := by
  rcases Store.exec_cases p q t.store with ⟨ws, db, rfl, hcommit, hdb, -⟩ | ⟨-, -, hsame⟩
  · rw [hdb]
    refine Store.operation_untouched hcommit ?_
    intro w hw htarget
    have hneeds : Lock.durableOperation i ∈ (Stmt.commit ws).needs t.store :=
      List.mem_filterMap.mpr ⟨.operation w, hw, by rw [← htarget]; rfl⟩
    exact hne (henabled _ hneeds _ hl rfl)
  · exact hsame.operation i

/-- Every other process reckons with a conducted statement. -/
theorem exec_rely (henabled : (machine outside).enabled p q t) (h : Stmt.Conducted p q t)
    {p' : Pid} (hne : p' ≠ p) : Rely p' t ((machine outside).exec p q t) where
  log := List.suffix_cons _ _
  entries := entriesOf_cons_of_ne _ hne.symm
  operations := exec_operations h
  vms := exec_vms p q t
  locks := fun _ => exec_locks hne
  locked := fun _ => exec_locked hne henabled

end Statements

/-! ## The other steps -/

section Steps

variable {H : Type} {outside : Outside H} {t t' : Sys H}

/-- A step that leaves the store alone, up to other processes' locks. -/
theorem rely_of_store {p' : Pid} (hlog : t.log <:+ t'.log)
    (hentries : entriesOf p' t'.log = entriesOf p' t.log) (hdb : t'.store.db = t.store.db)
    (hlocks : ∀ l, (l, p') ∈ t.store.locks → (l, p') ∈ t'.store.locks) : Rely p' t t' where
  log := hlog
  entries := hentries
  operations := fun _ o ho => ⟨o, by rw [hdb]; exact ho, .refl o⟩
  vms := fun _ v hv => ⟨v, by rw [hdb]; exact hv, .refl v⟩
  locks := hlocks
  locked := fun _ _ => by rw [hdb]

/-- The answer to a call of one process is what the others rely on. -/
theorem answer_rely {p : Pid} {c : Call} {r : Except Exc c.Reply}
    (h : (machine outside).answer p c t r t') {p' : Pid} (hne : p' ≠ p) : Rely p' t t' := by
  obtain ⟨h, -, rfl⟩ := h
  refine rely_of_store ?_ ?_ rfl fun _ hl => hl
  · exact (List.suffix_cons _ _).trans (List.suffix_cons _ _)
  · have hreply : (Entry.reply p c r).pid ≠ p' := hne.symm
    have hcall : (Entry.call p c t.store).pid ≠ p' := hne.symm
    exact (entriesOf_cons_of_ne _ hreply).trans (entriesOf_cons_of_ne _ hcall)

/-- The start of a process is what the others rely on. -/
theorem enter_rely (r : Request) {p' : Pid} (hne : p' ≠ started t.log) :
    Rely p' t (t.enter r) :=
  rely_of_store (List.suffix_cons _ _) (entriesOf_cons_of_ne _ hne.symm) rfl fun _ hl => hl

/-- The end of a process is what the others rely on. -/
theorem leave_rely {p p' : Pid} (hne : p' ≠ p) : Rely p' t (t.leave p) := by
  refine rely_of_store (List.suffix_cons _ _) (entriesOf_cons_of_ne _ hne.symm) rfl ?_
  intro l hl
  simp [Sys.leave, Store.release, hl, hne]

/-- The environment does what all processes rely on. -/
theorem env_rely (h : t.store.Environment t'.store) (hlog : t'.log = t.log) (p : Pid) :
    Rely p t t' where
  log := hlog ▸ List.suffix_refl _
  entries := by rw [hlog]
  operations := by
    intro i o ho
    refine ⟨o, ?_, .refl o⟩
    rw [h.durableOperations]
    exact ho
  vms := by
    intro i v hv
    refine ⟨v, ?_, .refl v⟩
    rw [h.studentVms]
    exact hv
  locks := by
    intro l hl
    rw [h.locks]
    exact hl
  locked := fun _ _ => by rw [h.durableOperations]

/-- A process stays present until it ends. -/
theorem Present.cons {p : Pid} {e : Entry} (h : Present p t) (hlog : t'.log = e :: t.log)
    (he : ∀ p', e ≠ .leave p') : Present p t' := by
  obtain ⟨⟨r, hr⟩, hended⟩ := h
  refine ⟨⟨r, ?_⟩, ?_⟩
  · rw [hlog]
    exact List.mem_cons_of_mem _ hr
  · unfold Ended
    rw [hlog]
    intro hmem
    rcases List.mem_cons.mp hmem with heq | hmem
    · exact he p heq.symm
    · exact hended hmem

/-- A process that is present after a step of another kind was present before it. -/
theorem Present.of_cons {p : Pid} {e : Entry} (h : Present p t') (hlog : t'.log = e :: t.log)
    (he : ∀ r, e ≠ .enter p r) : Present p t := by
  obtain ⟨⟨r, hr⟩, hended⟩ := h
  unfold Ended at hended
  rw [hlog] at hr hended
  refine ⟨⟨r, ?_⟩, fun hleave => hended (List.mem_cons_of_mem _ hleave)⟩
  rcases List.mem_cons.mp hr with heq | hr
  · exact absurd heq.symm (he r)
  · exact hr

/-- A process that is present was present before the others acted. -/
theorem Present.before {p : Pid} (h : Present p t') (hr : Rely p t t') : Present p t := by
  obtain ⟨⟨r, hmem⟩, hended⟩ := h
  have hown : Entry.enter p r ∈ entriesOf p t'.log := mem_entriesOf.mpr ⟨hmem, rfl⟩
  rw [hr.entries] at hown
  exact ⟨⟨r, (mem_entriesOf.mp hown).1⟩, fun hleave => hended (hr.log.subset hleave)⟩

/-- A process stays present while the others go on. -/
theorem Present.rely {p : Pid} (h : Present p t) (hr : Rely p t t') : Present p t' := by
  obtain ⟨⟨r, hmem⟩, hended⟩ := h
  refine ⟨⟨r, hr.log.subset hmem⟩, ?_⟩
  intro hleave
  have hown : Entry.leave p ∈ entriesOf p t'.log := mem_entriesOf.mpr ⟨hleave, rfl⟩
  rw [hr.entries] at hown
  exact hended (mem_entriesOf.mp hown).1

end Steps

end LabGoblin
