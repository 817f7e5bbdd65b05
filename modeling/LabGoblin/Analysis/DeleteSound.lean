import LabGoblin.Analysis.Execution
import LabGoblin.Analysis.Fixture
import LabGoblin.Analysis.Guarantee
import LabGoblin.Analysis.Rules

/-!
# A deletion is concluded only on an absent VM

`vm.delete` swallows the 404 and 500 answers of six calls. Whatever the calls are answered,
and from whatever checkpoint it resumes, it touches the VM record and the assignments only in
its final commit, and only when the newest observation of the VM before that commit is that
Proxmox does not have it. On every other trace it raises.
-/

set_option autoImplicit false

namespace LabGoblin

open Interactive

/-! ## Observations -/

/-- What a reply tells about a VM, if it is an answer about that VM: whether Proxmox does not
have it. A failed request tells so only when it is a 404 on the status. -/
def Entry.observedAbsent (vm : StudentVM) : Entry → Option Bool
  | .reply _ (.vmResources cluster) r =>
      if cluster = vm.proxmoxClusterId then
        some (match r with
          | .ok response => inventoryLacks response vm.vmid
          | .error _ => false)
      else none
  | .reply _ (.getVmStatus cluster _ vmid) r =>
      if cluster = vm.proxmoxClusterId ∧ vmid = vm.vmid then
        some (match r with
          | .ok _ => false
          | .error e => isNotFound e)
      else none
  | _ => none

/-- The newest observation of the VM in the entries is that Proxmox does not have it. -/
def LastAbsent (vm : StudentVM) (entries : List Entry) : Prop :=
  (entries.filterMap (Entry.observedAbsent vm)).head? = some true

/-- An entry that tells nothing about the VM leaves the newest observation. -/
theorem LastAbsent.cons {vm : StudentVM} {e : Entry} {entries : List Entry}
    (h : LastAbsent vm entries) (he : e.observedAbsent vm = none) :
    LastAbsent vm (e :: entries) := by
  unfold LastAbsent
  rw [List.filterMap_cons_none he]
  exact h

/-- An observation that the VM is not there is the newest one. -/
theorem LastAbsent.of_head {vm : StudentVM} {e : Entry} {entries : List Entry}
    (he : e.observedAbsent vm = some true) : LastAbsent vm (e :: entries) := by
  unfold LastAbsent
  rw [List.filterMap_cons_some he]
  rfl

/-- The statement changes no VM record and no assignment, and completes no operation. -/
structure Stmt.LeavesRecords (p : Pid) (q : Stmt) (s : Store) : Prop where
  vms : ∀ i, (s.exec p q).db.studentVms.get? i = s.db.studentVms.get? i
  assignments : ∀ i, (s.exec p q).db.labAssignments.get? i = s.db.labAssignments.get? i
  operations : ∀ i row, (s.exec p q).db.durableOperations.get? i = some row →
    row.state = .succeeded → ∃ row', s.db.durableOperations.get? i = some row' ∧
      row'.state = .succeeded

/-- Every statement in the entries that changes a VM record or an assignment, or completes an
operation, was preceded by the observation that Proxmox does not have the VM. -/
def OnlyWhenAbsent (p : Pid) (vm : StudentVM) (entries : List Entry) : Prop :=
  ∀ q s older, Entry.stmt p q s :: older <:+ entries →
    q.LeavesRecords p s ∨ LastAbsent vm older

/-- No statement in the entries changes a VM record or an assignment, or completes an
operation. -/
def Untouched (p : Pid) (entries : List Entry) : Prop :=
  ∀ q s, Entry.stmt p q s ∈ entries → q.LeavesRecords p s

/-- The newest entry is the commit that concludes the deletion, and before it Proxmox was
observed not to have the VM: the record is tombstoned, the operation has succeeded, and the
assignment that was found linked to the VM is not linked any more. -/
def Concluded (p : Pid) (row : DurableOperation) (vm : StudentVM) (entries : List Entry) : Prop :=
  ∃ ws s older, entries = .stmt p (.commit ws) s :: older ∧ LastAbsent vm older ∧
    (∃ buried, (s.exec p (.commit ws)).db.studentVms.get? vm.id = some buried ∧
      buried.status = .deleted ∧ buried.deletedAt.isSome) ∧
    (∀ done, (s.exec p (.commit ws)).db.durableOperations.get? row.id = some done →
      done.state = .succeeded) ∧
    ∃ found, .stmt p (.select .rows) found ∈ older ∧
      ∀ a, assignmentOfVm found.db vm.id = some a → ∀ freed,
        (s.exec p (.commit ws)).db.labAssignments.get? a.id = some freed →
          freed.studentVmId = none

/-- Without entries nothing was changed. -/
theorem onlyWhenAbsent_nil (p : Pid) (vm : StudentVM) : OnlyWhenAbsent p vm [] := by
  intro q s older h
  have := List.suffix_nil.mp h
  cases this

/-- An entry that is no statement adds no obligation. -/
theorem OnlyWhenAbsent.cons {p : Pid} {vm : StudentVM} {e : Entry} {entries : List Entry}
    (h : OnlyWhenAbsent p vm entries)
    (he : ∀ q s, e = .stmt p q s → q.LeavesRecords p s ∨ LastAbsent vm entries) :
    OnlyWhenAbsent p vm (e :: entries) := by
  intro q s older hs
  rcases List.suffix_cons_iff.mp hs with heq | hs
  · injection heq with hentry holder
    subst holder
    exact he q s hentry.symm
  · exact h q s older hs

/-! ## What the statements before the final commit leave alone -/

/-- A write of the progress of a deletion concerns its operation only, and does not complete
it. -/
theorem Write.Progress.of_delete {row : DurableOperation} {v : ℕ} {w : Write}
    (h : w.Progress row v) (htype : row.operationType = .delete) :
    ∃ o, w = .operation o ∧ ∀ r, (o.onRow r).state = r.state := by
  cases w with
  | operation o =>
    refine ⟨o, rfl, fun r => ?_⟩
    cases o with
    | renewLease o' lease => rfl
    | checkpoint o' upid payload lease => rfl
    | _ => exact h.elim
  | vm w =>
    cases w with
    | status v' s =>
      have hcreate : row.operationType = .create := h.2
      rw [htype] at hcreate
      cases hcreate
    | _ => exact h.elim
  | _ => exact h.elim

/-- A statement after which the same rows are there leaves the records. -/
theorem Stmt.leavesRecords_of_sameRows {p : Pid} {q : Stmt} {s : Store}
    (h : s.db.SameRows (s.exec p q).db) : q.LeavesRecords p s where
  vms := fun i => h.vm i
  assignments := fun i => h.assignment i
  operations := fun i row hrow hstate => ⟨row, by rw [← h.operation i, hrow], hstate⟩

/-- The statements of a deletion before its final commit change no record. -/
theorem Stmt.leavesRecords_of_progress {p : Pid} {q : Stmt} {s : Store} {row : DurableOperation}
    {v : ℕ} (htype : row.operationType = .delete)
    (hq : Commits (fun w => w.Progress row v) q) : q.LeavesRecords p s := by
  rcases Store.exec_cases p q s with ⟨ws, db, rfl, hcommit, hdb, -⟩ | ⟨-, -, hsame⟩
  · have hws : ∀ w ∈ ws, ∃ o, w = .operation o ∧ ∀ r, (o.onRow r).state = r.state :=
      fun w hw => (hq w hw).of_delete htype
    refine ⟨fun i => ?_, fun i => ?_, fun i row' hrow' hstate => ?_⟩
    · rw [hdb]
      refine Store.vm_untouched hcommit fun w hw => ?_
      obtain ⟨o, ho, -⟩ := hws _ hw
      cases ho
    · rw [hdb]
      refine Store.assignment_untouched hcommit fun w hw => ?_
      obtain ⟨o, ho, -⟩ := hws _ hw
      cases ho
    · rw [hdb] at hrow'
      refine Store.operation_afterCommit
        (P := fun r => r.state = .succeeded → ∃ row', s.db.durableOperations.get? i = some row' ∧
          row'.state = .succeeded) hcommit ?_ ?_ ?_ row' hrow' hstate
      · exact fun r hr hdone => ⟨r, hr, hdone⟩
      · intro r _ hw _ hdone
        have hkeeps := hq _ hw
        exact hkeeps.elim
      · intro o hw _ r _ hr hdone
        obtain ⟨o', ho', hkeeps⟩ := hws _ hw
        cases ho'
        rw [hkeeps] at hdone
        exact hr hdone
  · exact Stmt.leavesRecords_of_sameRows hsame

/-! ## The contract of a deletion -/

section Contract

variable {H : Type}

/-- What the others may do between two interactions of the deletion: anything that forges no
entry of it and keeps the row of the VM record, which always stands for the same VM. -/
structure KeepsTarget (p : Pid) (id : ℕ) (t t' : Sys H) : Prop where
  entries : entriesOf p t'.log = entriesOf p t.log
  record : ∀ v, t.store.db.studentVms.get? id = some v →
    ∃ v', t'.store.db.studentVms.get? id = some v' ∧ v.SameRecord v'

/-- Before a statement that touches the records, Proxmox was observed not to have the VM. -/
def deleteContract (outside : Outside H) (p : Pid) (vm : StudentVM) : Contract Api (Sys H) where
  machine := machine outside
  self := p
  inv := fun t => OnlyWhenAbsent p vm (entriesOf p t.log)
  rely := KeepsTarget p vm.id
  allowsStmt := fun q t => q.LeavesRecords p t.store ∨ LastAbsent vm (entriesOf p t.log)
  allowsCall := fun _ _ => True

/-- The records are untouched so far, and the VM record is there. -/
structure Underway (p : Pid) (vm : StudentVM) (t : Sys H) : Prop where
  untouched : Untouched p (entriesOf p t.log)
  record : ∃ v, t.store.db.studentVms.get? vm.id = some v ∧ vm.SameRecord v

variable {outside : Outside H} {p : Pid} {vm : StudentVM}

/-- Nothing happening keeps the target. -/
theorem KeepsTarget.refl {id : ℕ} (t : Sys H) : KeepsTarget p id t t :=
  ⟨rfl, fun v hv => ⟨v, hv, .refl v⟩⟩

/-- Two steps that keep the target keep it together. -/
theorem KeepsTarget.trans {id : ℕ} {t t' t'' : Sys H} (h : KeepsTarget p id t t')
    (h' : KeepsTarget p id t' t'') : KeepsTarget p id t t'' := by
  refine ⟨h'.entries.trans h.entries, fun v hv => ?_⟩
  obtain ⟨v', hv', hsame⟩ := h.record v hv
  obtain ⟨v'', hv'', hsame'⟩ := h'.record v' hv'
  exact ⟨v'', hv'', hsame.trans hsame'⟩

/-- A deletion stays under way while the others keep its target. -/
theorem Underway.rely {t t' : Sys H} (h : Underway p vm t) (hr : KeepsTarget p vm.id t t') :
    Underway p vm t' where
  untouched := by
    rw [hr.entries]
    exact h.untouched
  record := by
    obtain ⟨v, hv, hsame⟩ := h.record
    obtain ⟨v', hv', hsame'⟩ := hr.record v hv
    exact ⟨v', hv', hsame.trans hsame'⟩

/-- The entry of an own statement. -/
theorem entriesOf_own_stmt (q : Stmt) (t : Sys H) :
    entriesOf p ((machine outside).exec p q t).log =
      .stmt p q t.store :: entriesOf p t.log :=
  entriesOf_cons_self t.log rfl

/-- The entries of an own call. -/
theorem entriesOf_own_call {c : Call} {r : Except Exc c.Reply} {t t' : Sys H}
    (h : (machine outside).answer p c t r t') :
    entriesOf p t'.log = .reply p c r :: .call p c t.store :: entriesOf p t.log ∧
      t'.store = t.store := by
  obtain ⟨hyper, -, rfl⟩ := h
  refine ⟨?_, rfl⟩
  have hreply : (Entry.reply p c r).pid = p := rfl
  have hcall : (Entry.call p c t.store).pid = p := rfl
  show entriesOf p (.reply p c r :: .call p c t.store :: t.log) = _
  rw [entriesOf_cons_self _ hreply, entriesOf_cons_self _ hcall]

/-- A deletion stays under way after a statement that leaves the records. -/
theorem Underway.stmt {q : Stmt} {t : Sys H} (h : Underway p vm t)
    (hq : q.LeavesRecords p t.store) : Underway p vm ((machine outside).exec p q t) where
  untouched := by
    rw [entriesOf_own_stmt]
    intro q' s hmem
    rcases List.mem_cons.mp hmem with heq | hmem
    · cases heq
      exact hq
    · exact h.untouched q' s hmem
  record := by
    obtain ⟨v, hv, hsame⟩ := h.record
    refine ⟨v, ?_, hsame⟩
    show (t.store.exec p q).db.studentVms.get? vm.id = some v
    rw [hq.vms, hv]

/-- A deletion stays under way after a call. -/
theorem Underway.call {c : Call} {r : Except Exc c.Reply} {t t' : Sys H} (h : Underway p vm t)
    (ht : (machine outside).answer p c t r t') : Underway p vm t' := by
  obtain ⟨hentries, hstore⟩ := entriesOf_own_call ht
  refine ⟨?_, ?_⟩
  · rw [hentries]
    intro q s hmem
    have hmem : Entry.stmt p q s ∈ entriesOf p t.log := by
      rcases List.mem_cons.mp hmem with heq | hmem
      · cases heq
      · rcases List.mem_cons.mp hmem with heq | hmem
        · cases heq
        · exact hmem
    exact h.untouched q s hmem
  · rw [hstore]
    exact h.record

/-- The newest observation of the VM is that Proxmox does not have it. -/
def SeenAbsent (p : Pid) (vm : StudentVM) (t : Sys H) : Prop :=
  LastAbsent vm (entriesOf p t.log)

/-- The parts of a deletion before its conclusion are tolerated. -/
theorem deleteContract_tolerates {row : DurableOperation} (htype : row.operationType = .delete) :
    (deleteContract outside p vm).Tolerates (Underway p vm)
      (Commits fun w => w.Progress row vm.id) (fun _ => True) where
  stable := fun _ _ h hr _ => h.rely hr
  stmt := by
    intro q t hq _ h _
    have hleaves : q.LeavesRecords p t.store := Stmt.leavesRecords_of_progress htype hq
    exact ⟨Or.inl hleaves, h.stmt hleaves⟩
  call := fun _ _ _ _ h => ⟨trivial, fun _ _ ht => h.call ht⟩

/-- The submissions only add entries that touch no record. -/
theorem deleteContract_hosts {settings : Settings} {row : DurableOperation} {loaded : StudentVM}
    (htype : row.operationType = .delete) (hid : loaded.id = vm.id) :
    Hosts (deleteContract outside p vm) (Underway p vm)
      (fun w => w.Progress row vm.id) (fun _ => True) ⟨settings, row, loaded⟩ := by
  have hT : (deleteContract outside p vm).Tolerates (Underway p vm)
      (Commits fun w => w.Progress row vm.id) (fun _ => True) :=
    deleteContract_tolerates htype
  have hsubmit : ∀ (payload : Payload) (c : Call), Maintains (deleteContract outside p vm)
      (Underway p vm) (fun _ => True) (do
        authorize row loaded payload
        await c) := by
    intro payload c
    refine Maintains.of_ensures hT ?_
    refine (keeps_bind _ _ _).mpr (Keeps.mono (keeps_authorize row loaded payload) ?_)
    intro _ _
    exact (keeps_await _ _).mpr ⟨trivial, fun _ => trivial⟩
  refine ⟨hT, ?_, fun _ _ => trivial, ⟨?_, ?_, ?_, ?_, ?_⟩⟩
  · intro w hw
    rw [← hid]
    exact hw
  · exact fun payload template _ _ => hsubmit payload _
  · exact fun payload _ _ => hsubmit payload _
  · exact fun payload action _ _ => hsubmit payload _
  · exact fun payload _ _ => hsubmit payload _
  · exact fun payload _ _ => hsubmit payload _

/-- A call of the deletion ends underway, with its reply the newest entry. -/
theorem wp_observe {c : Call} {t : Sys H} {Q : Post Api (Sys H) c.Reply} (h : Underway p vm t)
    (hQ : ∀ r t', Underway p vm t' →
      ((Entry.reply p c r).observedAbsent vm = some true → SeenAbsent p vm t') → Q r t') :
    wp (deleteContract outside p vm) (await c) Q t := by
  unfold await
  rw [wp_await]
  intro t' hr _
  have hunder := h.rely hr
  refine ⟨trivial, fun r t'' ht => hQ r t'' (hunder.call ht) fun habsent => ?_⟩
  have hentries : entriesOf p t''.log = _ := (entriesOf_own_call ht).1
  show LastAbsent vm (entriesOf p t''.log)
  rw [hentries]
  exact LastAbsent.of_head habsent

section Observing

variable {settings : Settings} {row : DurableOperation} {loaded : StudentVM}
  (hloaded : vm.SameRecord loaded)
include hloaded

/-- An inventory without the VM is an observation that Proxmox does not have it. -/
theorem wp_vmExists {t : Sys H} {Q : Post Api (Sys H) Bool} (h : Underway p vm t)
    (hQ : ∀ r t', Underway p vm t' → (r = .ok false → SeenAbsent p vm t') → Q r t') :
    wp (deleteContract outside p vm) (Job.vmExists ⟨settings, row, loaded⟩) Q t := by
  unfold Job.vmExists
  rw [wp_bind]
  refine wp_observe h fun r t' hunder habsent => ?_
  cases r with
  | error e =>
    rw [Post.andThen_error]
    refine hQ _ t' hunder fun hr => ?_
    cases hr
  | ok response =>
    rw [Post.andThen_ok, wp_bind, wp_check]
    cases hread : vmIdentifiers response with
    | error e =>
      rw [Post.andThen_error]
      refine hQ _ t' hunder fun hr => ?_
      cases hr
    | ok identifiers =>
      rw [Post.andThen_ok, wp_pure]
      refine hQ _ t' hunder fun hr => habsent ?_
      injection hr with hlisted
      have hlacks : inventoryLacks response vm.vmid = true := by
        simpa [inventoryLacks, hread, hloaded.vmid] using hlisted
      simp [Entry.observedAbsent, hloaded.proxmoxClusterId, hlacks]

/-- A 404 on the status is an observation that Proxmox does not have the VM. -/
theorem wp_getVmStatus {t : Sys H} {Q : Post Api (Sys H) (Option VmStatus)}
    (h : Underway p vm t)
    (hQ : ∀ r t', Underway p vm t' →
      (∀ e, r = .error e → isNotFound e = true → SeenAbsent p vm t') → Q r t') :
    wp (deleteContract outside p vm) (Job.getVmStatus ⟨settings, row, loaded⟩) Q t := by
  refine wp_observe h fun r t' hunder habsent => hQ r t' hunder ?_
  intro e hr he
  subst hr
  refine habsent ?_
  simp [Entry.observedAbsent, hloaded.proxmoxClusterId, hloaded.vmid, he]

/-- The inner `try` ends well on a 404 only. -/
theorem wp_verifyAbsent {t : Sys H} (h : Underway p vm t) :
    wp (deleteContract outside p vm) (verifyAbsent ⟨settings, row, loaded⟩)
      (fun r t' => Underway p vm t' ∧ (r = .ok () → SeenAbsent p vm t')) t := by
  unfold verifyAbsent guarded
  rw [wp_tryCatch, wp_bind]
  refine wp_getVmStatus hloaded h fun r t' hunder habsent => ?_
  cases r with
  | ok status =>
    -- the VM answered: the error that is raised now is no 404
    refine ⟨hunder, fun hr => ?_⟩
    cases hr
  | error e =>
    rw [Post.andThen_error, Post.orElse_error]
    by_cases he : isNotFound e = true
    · rw [if_pos he]
      exact ⟨hunder, fun _ => habsent e rfl he⟩
    · rw [if_neg he]
      refine ⟨hunder, fun hr => ?_⟩
      cases hr

/-- The hypervisor part of a deletion ends well only when the VM was last seen absent: before
the outer `try`, at the end of its body, or in its handler. -/
theorem wp_deleteVm (htype : row.operationType = .delete) {t : Sys H} (h : Underway p vm t) :
    wp (deleteContract outside p vm) (deleteVm ⟨settings, row, loaded⟩ row.payload)
      (fun r t' => Underway p vm t' ∧ (r = .ok () → SeenAbsent p vm t')) t := by
  have hhosts : Hosts (deleteContract outside p vm) (Underway p vm)
      (fun w => w.Progress row vm.id) (fun _ => True) ⟨settings, row, loaded⟩ :=
    deleteContract_hosts htype hloaded.id
  have hraise : ∀ (e : Exc) (t : Sys H), Underway p vm t → Underway p vm t ∧
      ((Except.error e : Except Exc Unit) = .ok () → SeenAbsent p vm t) := by
    intro e t ht
    refine ⟨ht, fun hr => ?_⟩
    cases hr
  unfold deleteVm
  refine (hhosts.maintains (keeps_client hhosts.calls _)).seq ?_ hraise h
  intro _ t _ h
  rw [wp_bind]
  refine wp_vmExists hloaded h fun r t h habsent => ?_
  rcases r with e | listed
  · exact hraise e t h
  rw [Post.andThen_ok]
  cases listed with
  | false => exact ⟨h, fun _ => habsent rfl⟩
  | true =>
    rw [if_pos rfl]
    unfold guarded
    have hbody : wp (deleteContract outside p vm)
        (deleteListedVm ⟨settings, row, loaded⟩ row.payload)
        (fun r t' => Underway p vm t' ∧ (r = .ok () → SeenAbsent p vm t')) t := by
      unfold deleteListedVm
      have hresume := hhosts.maintains
        (keeps_resumeDelete hhosts.progress hhosts.calls _ (Payload.Agrees.refl _))
      refine hresume.seq ?_ hraise h
      intro payload t hp h
      refine (hhosts.maintains_stopBeforeDelete htype payload hp).seq ?_ hraise h
      intro payload t hp h
      refine (hhosts.maintains_submitDeletion htype payload hp).seq ?_ hraise h
      intro _ t _ h
      exact wp_verifyAbsent hloaded h
    refine wp_handle hbody (fun _ _ hok => hok) ?_
    intro e t herr
    by_cases he : isAbsentOrFault e = true
    · rw [if_pos he, wp_bind]
      refine wp_vmExists hloaded herr.1 fun r t h habsent => ?_
      rcases r with e' | listed
      · exact hraise e' t h
      rw [Post.andThen_ok, wp_raiseIf]
      refine ⟨fun _ => hraise e t h, fun hlisted => ⟨h, fun _ => habsent ?_⟩⟩
      rw [Bool.not_eq_true] at hlisted
      rw [hlisted]
    · rw [if_neg he]
      exact hraise e t herr.1

end Observing

/-! ## The conclusion -/

/-- The hypervisor part has ended well. -/
structure Settled (p : Pid) (vm : StudentVM) (t : Sys H) : Prop where
  underway : Underway p vm t
  absent : SeenAbsent p vm t

/-- The hypervisor part stays settled while the others keep the target. -/
theorem Settled.rely {t t' : Sys H} (h : Settled p vm t) (hr : KeepsTarget p vm.id t t') :
    Settled p vm t' := by
  refine ⟨h.underway.rely hr, ?_⟩
  have habsent := h.absent
  unfold SeenAbsent at habsent ⊢
  rwa [hr.entries]

/-- A query leaves the records. -/
theorem leavesRecords_select (s : Store) : (Stmt.select .rows).LeavesRecords p s :=
  Stmt.leavesRecords_of_sameRows (Db.SameRows.refl _)

/-- A read changes no record and is no observation. -/
theorem Settled.select {t : Sys H} (h : Settled p vm t) :
    Settled p vm ((machine outside).exec p (.select .rows) t) := by
  refine ⟨h.underway.stmt (leavesRecords_select _), ?_⟩
  unfold SeenAbsent
  rw [entriesOf_own_stmt]
  exact LastAbsent.cons h.absent rfl

/-- The writes that bury the record, and unlink the assignment that a read found linked. -/
def Buries (p : Pid) (row : DurableOperation) (vm : StudentVM) (ws : List Write)
    (entries : List Entry) : Prop :=
  ∃ found now, Entry.stmt p (.select .rows) found ∈ entries ∧
    ws = unlinkWrites row.payload (assignmentOfVm found.db vm.id) ++
      [.vm (.tombstone vm.id now)]

/-- The writes of the final commit: it unlinks, buries and completes. -/
theorem mem_conclusion {payload : Payload} {linked : Option LabAssignment} {v o : ℕ}
    {instant now : Time} {result : OperationResult} {w : Write}
    (h : w ∈ unlinkWrites payload linked ++ [.vm (.tombstone v instant)] ++
      [.operation (.complete o result now)]) :
    (∃ a s, w = .assignment (.unlink a s)) ∨ w = .vm (.tombstone v instant) ∨
      w = .operation (.complete o result now) := by
  rcases List.mem_append.mp h with h | h
  · rcases List.mem_append.mp h with h | h
    · unfold unlinkWrites at h
      split at h
      · exact Or.inl ⟨_, _, List.mem_singleton.mp h⟩
      · cases h
    · exact Or.inr (Or.inl (List.mem_singleton.mp h))
  · exact Or.inr (Or.inr (List.mem_singleton.mp h))

/-- The final commit of a settled deletion concludes it. -/
theorem concluded_of_commit {row : DurableOperation} {found : Store} {instant now : Time}
    {result : OperationResult} {t : Sys H} {db : { db : Db // db.Constraints }}
    (h : Settled p vm t) (hfound : Entry.stmt p (.select .rows) found ∈ entriesOf p t.log)
    (hdb : t.store.afterCommit (unlinkWrites row.payload (assignmentOfVm found.db vm.id) ++
      [.vm (.tombstone vm.id instant)] ++ [.operation (.complete row.id result now)]) = some db) :
    Concluded p row vm (.stmt p (.commit (unlinkWrites row.payload
      (assignmentOfVm found.db vm.id) ++ [.vm (.tombstone vm.id instant)] ++
        [.operation (.complete row.id result now)])) t.store :: entriesOf p t.log) := by
  have happly := Store.applyAll_of_afterCommit hdb
  have hafter : ∀ ws, t.store.afterCommit ws = some db →
      (t.store.exec p (.commit ws)).db = db.1 := by
    intro ws hws
    rw [Store.exec_commit_some hws]
    rfl
  refine ⟨_, _, _, rfl, h.absent, ?_, ?_, found, hfound, ?_⟩
  · obtain ⟨v, hv, -⟩ := h.underway.record
    obtain ⟨buried, hburied⟩ := Store.vm_stays hdb hv
    rw [hafter _ hdb]
    refine ⟨buried, hburied, ?_⟩
    refine Write.ofVms.row_of_update (P := fun r => r.status = .deleted ∧ r.deletedAt.isSome)
      happly ?_ (v := .tombstone vm.id instant) (by simp [Write.ofVms]) rfl
      (fun _ => ⟨rfl, rfl⟩) ?_ buried hburied
    · intro r hr
      rcases mem_conclusion hr with ⟨a, s, heq⟩ | heq | heq <;> cases heq
    · intro w hw _ r _
      rcases mem_conclusion hw with ⟨a, s, heq⟩ | heq | heq <;> cases heq
      exact ⟨rfl, rfl⟩
  · rw [hafter _ hdb]
    refine Write.ofOperations.row_of_update (P := fun r => r.state = .succeeded) happly ?_
      (v := .complete row.id result now) (by simp [Write.ofOperations]) rfl (fun _ => rfl) ?_
    · intro r hr
      rcases mem_conclusion hr with ⟨a, s, heq⟩ | heq | heq <;> cases heq
    · intro w hw _ r _
      rcases mem_conclusion hw with ⟨a, s, heq⟩ | heq | heq <;> cases heq
      rfl
  · intro a ha
    rw [hafter _ hdb]
    obtain ⟨s, hs⟩ : ∃ s, unlinkWrites row.payload (assignmentOfVm found.db vm.id) =
        [.assignment (.unlink a.id s)] := by
      rw [ha]
      exact ⟨_, rfl⟩
    refine Write.ofAssignments.row_of_update (P := fun r => r.studentVmId = none) happly ?_
      (v := .unlink a.id s) (by simp [Write.ofAssignments, hs]) rfl (fun _ => rfl) ?_
    · intro r hr
      rcases mem_conclusion hr with ⟨a, s, heq⟩ | heq | heq <;> cases heq
    · intro w hw _ r _
      rcases mem_conclusion hw with ⟨a, s, heq⟩ | heq | heq <;> cases heq
      rfl

/-- A read of a settled deletion. -/
theorem wp_read {t : Sys H} {Q : Post Api (Sys H) Store} (h : Settled p vm t)
    (hQ : ∀ t', Settled p vm t' → entriesOf p t'.log = entriesOf p t.log →
      Q (.ok t'.store) ((machine outside).exec p (.select .rows) t')) :
    wp (deleteContract outside p vm) LabGoblin.select Q t := by
  rw [wp_select]
  intro t' hr _ _
  have hkeeps : KeepsTarget p vm.id t t' := hr
  exact ⟨Or.inl (leavesRecords_select _), hQ t' (h.rely hkeeps) hkeeps.entries⟩

/-- Reading the clock settles nothing and unsettles nothing. -/
theorem wp_readClock {t : Sys H} {Q : Post Api (Sys H) Time} (h : Settled p vm t)
    (hQ : ∀ t', Settled p vm t' → entriesOf p t'.log = entriesOf p t.log →
      Q (.ok t'.store.clock) ((machine outside).exec p (.select .rows) t')) :
    wp (deleteContract outside p vm) utcnow Q t := by
  unfold utcnow
  rw [wp_bind]
  exact wp_read h hQ

/-- The branch for `vm.delete` raises before it touched a record, or hands over its
conclusion with the VM last seen absent. -/
theorem wp_executeDelete {settings : Settings} {row : DurableOperation} {loaded : StudentVM}
    (hloaded : vm.SameRecord loaded) (htype : row.operationType = .delete) {t : Sys H}
    (h : Underway p vm t) :
    wp (deleteContract outside p vm) (executeDelete ⟨settings, row, loaded⟩ row.payload)
      (fun r t' => Underway p vm t' ∧ ∀ o, r = .ok o → Settled p vm t' ∧
        Buries p row vm o.writes (entriesOf p t'.log)) t := by
  unfold executeDelete
  refine wp_seq (wp_deleteVm hloaded htype h) ?_ ?_
  · rintro _ t ⟨hunder, habsent⟩
    rw [wp_bind]
    refine wp_read ⟨hunder, habsent rfl⟩ fun t₁ h₁ _ => ?_
    rw [Post.andThen_ok, wp_bind]
    refine wp_readClock h₁.select fun t₂ h₂ hentries₂ => ?_
    refine ⟨h₂.select.underway, fun o ho => ⟨?_, t₁.store, t₂.store.clock, ?_, ?_⟩⟩
    · exact h₂.select
    · rw [entriesOf_own_stmt, hentries₂, entriesOf_own_stmt]
      exact List.mem_cons_of_mem _ (List.mem_cons_self ..)
    · cases ho
      show unlinkWrites row.payload (assignmentOfVm t₁.store.db loaded.id) ++
        [.vm (.tombstone loaded.id t₂.store.clock)] = _
      rw [hloaded.id]
  · rintro e t ⟨hunder, -⟩
    refine ⟨hunder, fun o ho => ?_⟩
    cases ho

/-- The final commit concludes the deletion, or violates a constraint and changes nothing. -/
theorem wp_conclude {row : DurableOperation} {ws : List Write} {result : OperationResult}
    {now : Time} {t : Sys H} (h : Settled p vm t)
    (hws : Buries p row vm ws (entriesOf p t.log)) :
    wp (deleteContract outside p vm)
      (commit (ws ++ [.operation (.complete row.id result now)]))
      (fun r t' => match r with
        | .ok _ => Concluded p row vm (entriesOf p t'.log)
        | .error _ => Untouched p (entriesOf p t'.log)) t := by
  rw [wp_commit]
  intro t' hr _ _
  have hkeeps : KeepsTarget p vm.id t t' := hr
  have hsettled := h.rely hkeeps
  have hentries : entriesOf p ((machine outside).exec p (.commit
      (ws ++ [.operation (.complete row.id result now)])) t').log = _ := entriesOf_own_stmt _ _
  refine ⟨Or.inr hsettled.absent, fun hnone => ?_, fun db hdb => ?_⟩
  · have hnone : t'.store.afterCommit
        (ws ++ [.operation (.complete row.id result now)]) = none := hnone
    refine (hsettled.underway.stmt (Stmt.leavesRecords_of_sameRows ?_)).untouched
    rw [Store.exec_commit_none hnone]
    exact Db.SameRows.refl _
  · show Concluded p row vm (entriesOf p ((machine outside).exec p (.commit
      (ws ++ [.operation (.complete row.id result now)])) t').log)
    rw [hentries]
    obtain ⟨found, instant, hfound, rfl⟩ := hws
    exact concluded_of_commit hsettled (by rwa [hkeeps.entries]) hdb

/-! ## The whole execution -/

/-- How an execution ends: with the deletion concluded, or with nothing touched. -/
def Verdict (p : Pid) (row : DurableOperation) (vm : StudentVM) : Post Api (Sys H) Unit :=
  fun r t => match r with
    | .ok _ => Concluded p row vm (entriesOf p t.log)
    | .error _ => Untouched p (entriesOf p t.log)

/-- How an execution ended does not change while the others keep the target. -/
theorem Verdict.stable {row : DurableOperation} (r : Except Exc Unit) (t t' : Sys H)
    (hkeeps : KeepsTarget p vm.id t t') (h : Verdict p row vm r t) : Verdict p row vm r t' := by
  cases r with
  | ok u =>
    show Concluded p row vm (entriesOf p t'.log)
    rw [hkeeps.entries]
    exact h
  | error e =>
    show Untouched p (entriesOf p t'.log)
    rw [hkeeps.entries]
    exact h

/-- The record of the target is found, and is the one the operation was queued for. -/
theorem wp_loadTarget_underway {row : DurableOperation} (htarget : row.target = .studentVm vm.id)
    {t : Sys H} (h : Underway p vm t) :
    wp (deleteContract outside p vm) (loadTarget row)
      (fun r t' => Underway p vm t' ∧ ∀ found, r = .ok found →
        ∃ loaded, found = some loaded ∧ vm.SameRecord loaded) t := by
  unfold loadTarget
  rw [htarget]
  show wp _ (loadVm vm.id >>= _) _ t
  rw [wp_bind, wp_loadVm]
  intro t' hr _ _
  have hunder : Underway p vm t' := h.rely hr
  have hleaves : (Stmt.select (.vm vm.id)).LeavesRecords p t'.store :=
    Stmt.leavesRecords_of_sameRows (Db.SameRows.refl _)
  refine ⟨Or.inl hleaves, ?_⟩
  obtain ⟨loaded, hloaded, hsame⟩ := hunder.record
  have hview : ((deleteContract outside p vm).machine.view t').db.studentVms.get? vm.id =
      some loaded := hloaded
  rw [Post.andThen_ok, hview]
  show wp _ (authorize row loaded row.payload >>= _) _ _
  rw [wp_bind, wp_authorize]
  intro t₁ hr₁ _ _
  have hunder₁ : Underway p vm t₁ := (hunder.stmt hleaves).rely hr₁
  have hleaves₁ : (Stmt.authorize row loaded row.payload).LeavesRecords p t₁.store :=
    Stmt.leavesRecords_of_sameRows (Db.SameRows.refl _)
  refine ⟨Or.inl hleaves₁, ?_⟩
  have hunder₂ : Underway p vm ((machine outside).exec p _ t₁) := hunder₁.stmt hleaves₁
  cases validateOperationAuthorization ((deleteContract outside p vm).machine.view t₁).db
    ((deleteContract outside p vm).machine.view t₁).clock row loaded row.payload with
  | error e =>
    refine ⟨hunder₂, fun found hfound => ?_⟩
    cases hfound
  | ok _ =>
    refine ⟨hunder₂, fun found hfound => ?_⟩
    cases hfound
    exact ⟨loaded, rfl, hsame⟩

/-- A deletion that starts with untouched records ends with a verdict, from every checkpoint. -/
theorem wp_executeOperation_delete {settings : Settings} {row : DurableOperation}
    (htype : row.operationType = .delete) (htarget : row.target = .studentVm vm.id) {t : Sys H}
    (h : Underway p vm t) :
    wp (deleteContract outside p vm) (executeOperation settings row) (Verdict p row vm) t := by
  unfold executeOperation
  refine wp_seq (wp_loadTarget_underway htarget h) ?_ fun e t ht => ht.1.untouched
  rintro _ t ⟨h, hfound⟩
  obtain ⟨loaded, rfl, hloaded⟩ := hfound _ rfl
  have hbranch : executeBranch settings row (some loaded) =
      executeDelete ⟨settings, row, loaded⟩ row.payload := by
    unfold executeBranch
    rw [htype]
  rw [hbranch]
  refine wp_seq (wp_executeDelete hloaded htype h) ?_ fun e t ht => ht.1.untouched
  rintro outcome t ⟨-, hout⟩
  obtain ⟨hsettled, hburies⟩ := hout outcome rfl
  rw [wp_bind]
  refine wp_readClock hsettled fun t₁ h₁ hentries => ?_
  have hown : entriesOf p ((machine outside).exec p (.select .rows) t₁).log = _ :=
    entriesOf_own_stmt _ _
  refine wp_conclude h₁.select ?_
  rw [hown, hentries]
  obtain ⟨found, now, hmem, hws⟩ := hburies
  exact ⟨found, now, List.mem_cons_of_mem _ hmem, hws⟩

/-- Each interaction the contract allows keeps the obligation. -/
theorem deleteContract_maintained : (deleteContract outside p vm).Maintained where
  refl := KeepsTarget.refl
  trans := fun _ _ _ => KeepsTarget.trans
  env := by
    intro t t' h hr
    have hkeeps : KeepsTarget p vm.id t t' := hr
    show OnlyWhenAbsent p vm (entriesOf p t'.log)
    rw [hkeeps.entries]
    exact h
  stmt := by
    intro q t h _ hallowed
    have hown : entriesOf p ((machine outside).exec p q t).log = _ := entriesOf_own_stmt q t
    show OnlyWhenAbsent p vm (entriesOf p ((machine outside).exec p q t).log)
    rw [hown]
    refine OnlyWhenAbsent.cons h ?_
    intro q' s heq
    cases heq
    exact hallowed
  call := by
    intro c t r t' h _ hanswer
    have hown : entriesOf p t'.log = _ := (entriesOf_own_call hanswer).1
    show OnlyWhenAbsent p vm (entriesOf p t'.log)
    rw [hown]
    refine OnlyWhenAbsent.cons (OnlyWhenAbsent.cons h ?_) ?_
    · intro q s heq
      cases heq
    · intro q s heq
      cases heq

end Contract

/-- Whatever the calls of a deletion are answered, and whatever checkpoint it resumes: the
records are touched only after Proxmox was last observed not to have the VM. A finished
execution has concluded the deletion so, or it has raised and left the records alone. -/
theorem executeOperation_deletesOnlyAbsent {H : Type} (settings : Settings)
    (outside : Outside H) (p : Pid) (row : DurableOperation) (vm : StudentVM)
    (htype : row.operationType = .delete) (htarget : row.target = .studentVm vm.id)
    (start t : Sys H) (rest : Action Unit) (hstart : entriesOf p start.log = [])
    (hvm : start.store.db.studentVms.get? vm.id = some vm)
    (hrun : Program.Runs (machine outside) p (KeepsTarget p vm.id)
      (executeOperation settings row, start) (rest, t)) :
    OnlyWhenAbsent p vm (entriesOf p t.log) ∧
      (∀ u, rest = pure u → Concluded p row vm (entriesOf p t.log)) ∧
      ∀ e, rest = .throw e → Untouched p (entriesOf p t.log) := by
  have hunder : Underway p vm start := by
    refine ⟨?_, vm, hvm, .refl vm⟩
    rw [hstart]
    intro q s hmem
    cases hmem
  have hinv : OnlyWhenAbsent p vm (entriesOf p start.log) := by
    rw [hstart]
    exact onlyWhenAbsent_nil p vm
  have hsound : wp (deleteContract outside p vm) (executeOperation settings row)
      (Verdict p row vm) start :=
    wp_executeOperation_delete htype htarget hunder
  obtain ⟨honly, hwp⟩ := wp_runs deleteContract_maintained Verdict.stable hinv hsound hrun
  refine ⟨honly, fun u hu => ?_, fun e he => ?_⟩
  · subst hu
    exact hwp
  · subst he
    exact hwp

/-- The program has returned. -/
def Action.hasReturned : Action Unit → Bool
  | .pure _ => true
  | _ => false

set_option maxRecDepth 100000 in
/-- For instance, the deletion of a VM that the inventory does not list is concluded. -/
theorem deleteOperation_deletesOnlyAbsent :
    ∃ s, Fixture.player.runProgram 0 Fixture.absent 8
        (executeOperation {} (Fixture.operation .delete),
          Fixture.start Fixture.readyStore) = some s ∧
      OnlyWhenAbsent 0 Fixture.vm (entriesOf 0 s.2.log) ∧
      Concluded 0 (Fixture.operation .delete) Fixture.vm (entriesOf 0 s.2.log) := by
  have h : (Fixture.player.runProgram 0 Fixture.absent 8
      (executeOperation {} (Fixture.operation .delete),
        Fixture.start Fixture.readyStore)).map (fun s => Action.hasReturned s.1) = some true := by
    decide +kernel
  obtain ⟨s, hs, hreturned⟩ := Option.map_eq_some_iff.mp h
  have hrun : Program.Runs (machine Fixture.anything) 0 (KeepsTarget 0 Fixture.vm.id)
      (executeOperation {} (Fixture.operation .delete), Fixture.start Fixture.readyStore) s :=
    Fixture.player.runs_of_runProgram .refl hs
  obtain ⟨honly, hconcluded, -⟩ := executeOperation_deletesOnlyAbsent {} Fixture.anything 0
    (Fixture.operation .delete) Fixture.vm rfl rfl (Fixture.start Fixture.readyStore) s.2 s.1 rfl
    rfl hrun
  refine ⟨s, hs, honly, ?_⟩
  obtain ⟨rest, t⟩ := s
  cases rest with
  | pure u => exact hconcluded u rfl
  | throw e => cases hreturned
  | stmt q k => cases hreturned
  | call c k => cases hreturned

end LabGoblin
