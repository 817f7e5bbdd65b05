import LabGoblin.Analysis.ConductSound
import LabGoblin.Analysis.Fixture

/-!
# Tombstones

A tombstoned VM record stays deleted and is neither created nor started again, provided that
nothing was left that could do so when it was tombstoned: no unfinished operation on it but
deletions, no worker with one of those in hand, and no process that had found the record
before. `execute_operation` loads the record by its key and does not look at `deleted_at`.
-/

set_option autoImplicit false

namespace LabGoblin

open Interactive

section Tombstones

variable {H : Type} {settings : Settings} {outside : Outside H}

/-! ## What a run has tombstoned -/

/-- The entry commits a tombstone for the record. -/
def Entry.buries (v : ℕ) : Entry → Prop
  | .stmt _ (.commit ws) s => (s.afterCommit ws).isSome ∧ (s.db.studentVms.get? v).isSome ∧
      ∃ now, .vm (.tombstone v now) ∈ ws
  | _ => False

/-- The write is a tombstone for the record. -/
def Write.isTombstone (v : ℕ) : Write → Bool
  | .vm (.tombstone v' _) => v' = v
  | _ => false

/-- Whether some writes bury a record can be computed. -/
theorem exists_tombstone_iff {v : ℕ} {ws : List Write} :
    (∃ now, Write.vm (.tombstone v now) ∈ ws) ↔ ws.any (Write.isTombstone v) = true := by
  rw [List.any_eq_true]
  constructor
  · rintro ⟨now, hw⟩
    exact ⟨_, hw, decide_eq_true rfl⟩
  · rintro ⟨w, hw, htombstone⟩
    cases w with
    | vm w =>
      cases w with
      | tombstone v' now =>
        have hv : v' = v := of_decide_eq_true htombstone
        subst hv
        exact ⟨now, hw⟩
      | _ => cases htombstone
    | _ => cases htombstone

instance (v : ℕ) (e : Entry) : Decidable (e.buries v) :=
  match e with
  | .stmt _ (.commit ws) _ =>
    haveI : Decidable (∃ now, Write.vm (.tombstone v now) ∈ ws) :=
      decidable_of_iff (ws.any (Write.isTombstone v) = true) exists_tombstone_iff.symm
    instDecidableAnd
  | .stmt _ (.select _) _ => instDecidableFalse
  | .stmt _ (.lock _) _ => instDecidableFalse
  | .stmt _ (.draw _) _ => instDecidableFalse
  | .stmt _ .uuid _ => instDecidableFalse
  | .stmt _ (.authorize _ _ _) _ => instDecidableFalse
  | .stmt _ .rollback _ => instDecidableFalse
  | .enter _ _ => instDecidableFalse
  | .call _ _ _ => instDecidableFalse
  | .reply _ _ _ => instDecidableFalse
  | .leave _ => instDecidableFalse

/-- A tombstone was committed for the record. -/
def Tombstoned (v : ℕ) (log : List Entry) : Prop :=
  ∃ e ∈ log, e.buries v

instance (v : ℕ) (log : List Entry) : Decidable (Tombstoned v log) :=
  inferInstanceAs (Decidable (∃ e ∈ log, e.buries v))

/-- A record is buried by the newest entry or by an earlier one. -/
theorem tombstoned_cons {v : ℕ} {e : Entry} {log : List Entry} :
    Tombstoned v (e :: log) ↔ e.buries v ∨ Tombstoned v log := by
  unfold Tombstoned
  simp

/-- The call submits `clone_vm` or `start_vm` for the VM identifier. -/
def Call.brings (cluster : Option ℕ) (vmid : ℕ) : Call → Prop
  | .cloneVm c _ _ newid _ => c = cluster ∧ newid = vmid
  | .vmAction c .start _ id => c = cluster ∧ id = vmid
  | _ => False

/-- The call submits `clone_vm` or `start_vm`. -/
def Call.isClone : Call → Bool
  | .cloneVm _ _ _ _ _ => true
  | .vmAction _ .start _ _ => true
  | _ => false

/-- After `older`, the entry commits no status but `deleted` for the record, and submits no
`clone_vm` or `start_vm`, be it one that was authorized on the record or one for its VM
identifier, which is the record's own in a cluster. -/
def Entry.Spares (v : ℕ) (older : List Entry) (e : Entry) : Prop :=
  (∀ status, .vm (.status v status) ∈ e.written → status = .deleted) ∧
    ∀ p c s, e = .call p c s →
      (c.isClone = true → ∀ row vm payload s' rest,
        entriesOf p older = .stmt p (.authorize row vm payload) s' :: rest → vm.id ≠ v) ∧
      ∀ vm, s.db.studentVms.get? v = some vm → vm.proxmoxClusterId ≠ none →
        ¬ c.brings vm.proxmoxClusterId vm.vmid

/-- An entry that makes nothing visible and is no call spares every record. -/
theorem Entry.spares_of_quiet {e : Entry} (hwritten : e.written = [])
    (hcall : ∀ p c s, e ≠ .call p c s) (v : ℕ) (older : List Entry) : e.Spares v older := by
  refine ⟨?_, fun p c s heq => absurd heq (hcall p c s)⟩
  intro status hw
  rw [hwritten] at hw
  cases hw

/-! ## The condition -/

/-- Nothing is left that could write about the record or act on its VM but deletions. -/
structure Quiescent (v : ℕ) (t : Sys H) : Prop where
  operations : ∀ o row, t.store.db.durableOperations.get? o = some row →
    row.target = .studentVm v → row.operationType ≠ .delete → row.state.terminal = true
  finders : ∀ p r, Present p t → Entry.enter p r ∈ t.log → r.disturbs = true →
    v ∉ foundVms p t.log
  hands : ∀ p o row, Present p t → inHand p t.log = some o →
    t.store.db.durableOperations.get? o = some row → row.target = .studentVm v →
    row.operationType = .delete

/-- A record is tombstoned only when nothing else is left, and a bulk power action does not find
a tombstoned record through its links. -/
structure BuriesLast (p : Pid) (q : Stmt) (t : Sys H) : Prop where
  commit : ∀ ws, q = .commit ws → ∀ v now, .vm (.tombstone v now) ∈ ws → Quiescent v t
  search : ∀ run, q = .select (.linkedVms run) → ∀ r, Entry.enter p r ∈ t.log →
    r.disturbs = true → ∀ v ∈ (Query.linkedVms run).vms t.store.db,
    ∀ vm, t.store.db.studentVms.get? v = some vm → vm.deletedAt = none

/-- What holds of a record from its tombstone on. -/
structure Buried (v : ℕ) (t : Sys H) : Prop where
  record : ∃ vm, t.store.db.studentVms.get? v = some vm ∧ vm.status = .deleted ∧
    vm.deletedAt.isSome
  quiescent : Quiescent v t

/-! ## One commit -/

section Commit

variable {v : ℕ} {p : Pid} {ws : List Write} {t : Sys H} {db : { db : Db // db.Constraints }}
  (h : Quiescent v t) (hp : Present p t) (hconducted : Stmt.Conducted p (.commit ws) t)
include h hp

/-- What a worker has in hand on the record is a deletion. -/
theorem Quiescent.executes {row : DurableOperation} (hrow : Executes p row t)
    (htarget : row.target = .studentVm v) : row.operationType = .delete := by
  obtain ⟨hhand, cur, hcur, hsame⟩ := hrow
  rw [← hsame.operationType]
  exact h.hands p _ cur hp hhand hcur (by rw [hsame.target, htarget])

include hconducted

/-- Nothing that is left writes a status of the record. -/
theorem Quiescent.status_not_mem (s : VmStatus) : Write.vm (.status v s) ∉ ws := by
  intro hw
  obtain ⟨r, hr, ⟨-, hworker⟩ | ⟨hendpoint, hrequest⟩⟩ := hconducted.split
  · obtain ⟨row, hexecutes, htarget, htype⟩ := hworker _ hw
    exact htype (h.executes hp hexecutes htarget)
  · obtain ⟨hmay, hgrounded⟩ := hrequest _ hw
    exact h.finders p r hp hr (Request.mayWrite_vmStatus hendpoint hmay) hgrounded

variable (hcommit : t.store.afterCommit ws = some db) (hv : (t.store.db.studentVms.get? v).isSome)
include hcommit

/-- No operation but a deletion is queued on the record. -/
theorem Quiescent.insert (hv : (t.store.db.studentVms.get? v).isSome) {row : DurableOperation}
    (hw : .operation (.insert row) ∈ ws) (htarget : row.target = .studentVm v) :
    row.operationType = .delete := by
  obtain ⟨r, hr, ⟨-, hworker⟩ | ⟨hendpoint, hrequest⟩⟩ := hconducted.split
  · exact (hworker _ hw).elim
  · obtain ⟨hmay, hsearch, hcreate⟩ := hrequest _ hw
    rcases Request.mayWrite_insert hendpoint hmay with htype | htype | ⟨hsearches, hdisturbs, -⟩
    · obtain ⟨vm, hvm, hid⟩ := hcreate htype
      rw [htarget] at hid
      injection hid with hid
      have hfresh := Store.vm_fresh hcommit hvm
      rw [← hid] at hfresh
      rw [hfresh] at hv
      cases hv
    · exact htype
    · exact absurd (hsearch hsearches v htarget) (h.finders p r hp hr hdisturbs)

/-- A finished operation on the record that is no deletion is not written. -/
theorem Quiescent.kept {o : ℕ} {row : DurableOperation}
    (hrow : t.store.db.durableOperations.get? o = some row) (htarget : row.target = .studentVm v)
    (htype : row.operationType ≠ .delete) :
    db.1.durableOperations.get? o = some row := by
  refine Store.operation_kept hcommit hrow ?_
  intro w hw hwo
  cases w with
  | insert r => exact ⟨r, rfl⟩
  | claim o' owner lease started attempts =>
    have ho : o' = o := hwo
    subst ho
    obtain ⟨⟨cur, hcur, hopen⟩, -⟩ := hconducted.claim hw
    rw [hrow] at hcur
    cases hcur
    rw [h.operations _ row hrow htarget htype] at hopen
    cases hopen
  | _ =>
    have hhand := hconducted.update hw (o := o) (congrArg some hwo)
    exact absurd (h.hands p o row hp hhand hrow htarget) htype

include hv

/-- A commit leaves nothing but deletions behind that could disturb the record. -/
theorem Quiescent.commit (hexists : ∀ p' o, inHand p' t.log = some o →
      (t.store.db.durableOperations.get? o).isSome) {t' : Sys H}
    (hlog : t'.log = .stmt p (.commit ws) t.store :: t.log) (hdb : t'.store.db = db.1) :
    Quiescent v t' where
  operations := by
    intro o row' hrow' htarget htype
    rw [hdb] at hrow'
    cases hrow : t.store.db.durableOperations.get? o with
    | none =>
      have hdelete : row'.target = .studentVm v → row'.operationType = .delete := by
        refine Store.operation_afterCommit
          (P := fun r => r.target = .studentVm v → r.operationType = .delete) hcommit ?_ ?_ ?_
          row' hrow'
        · intro r hr
          rw [hrow] at hr
          cases hr
        · intro r _ hw _ hr
          exact h.insert hp hconducted hcommit hv hw hr
        · intro w _ _ r _ hr
          cases w <;> exact hr
      exact absurd (hdelete htarget) htype
    | some row =>
      obtain ⟨row'', hrow'', hsame⟩ := exec_operations (q := .commit ws) hconducted o row hrow
      rw [Store.exec_commit_some hcommit] at hrow''
      have hrow'' : db.1.durableOperations.get? o = some row'' := hrow''
      rw [hrow'] at hrow''
      cases hrow''
      rw [hsame.target] at htarget
      rw [hsame.operationType] at htype
      have hkept := h.kept hp hconducted hcommit hrow htarget htype
      rw [hkept] at hrow'
      cases hrow'
      exact h.operations o _ hrow htarget htype
  finders := by
    intro p' r hp' hr hdisturbs
    have hbefore := hp'.of_cons hlog (by simp)
    rw [hlog] at hr ⊢
    rcases List.mem_cons.mp hr with heq | hr
    · cases heq
    · rw [foundVms_cons_of_quiet p' _ rfl]
      exact h.finders p' r hbefore hr hdisturbs
  hands := by
    intro p' o row' hp' hhand hrow' htarget
    have hbefore := hp'.of_cons hlog (by simp)
    rw [hlog] at hhand
    rw [hdb] at hrow'
    have hold : ∀ row, t.store.db.durableOperations.get? o = some row →
        (row.target = .studentVm v → row.operationType = .delete) →
        row'.operationType = .delete := by
      intro row hrow hdelete
      obtain ⟨row'', hrow'', hsame⟩ := exec_operations (q := .commit ws) hconducted o row hrow
      rw [Store.exec_commit_some hcommit] at hrow''
      have hrow'' : db.1.durableOperations.get? o = some row'' := hrow''
      rw [hrow'] at hrow''
      cases hrow''
      rw [hsame.operationType]
      exact hdelete (by rw [← hsame.target]; exact htarget)
    by_cases hclaim : ∃ owner lease started attempts,
        Write.operation (.claim o owner lease started attempts) ∈ ws
    · obtain ⟨owner, lease, started, attempts, hw⟩ := hclaim
      obtain ⟨⟨cur, hcur, hopen⟩, -⟩ := hconducted.claim hw
      refine hold cur hcur fun ht => ?_
      by_contra hne
      rw [h.operations o cur hcur ht hne] at hopen
      cases hopen
    · have hhand : inHand p' t.log = some o := by
        by_cases hpid : p = p'
        · subst hpid
          exact inHand_before_of_no_claim hconducted hcommit hclaim hhand
        · rwa [inHand_cons_of_ne _ (show (Entry.stmt p (.commit ws) t.store).pid ≠ p' from hpid)]
            at hhand
      obtain ⟨row, hrow⟩ := Option.isSome_iff_exists.mp (hexists p' o hhand)
      exact hold row hrow (h.hands p' o row hbefore hhand hrow)

/-- A tombstoned record keeps its tombstone through a commit. -/
theorem Quiescent.record_kept (hburied : Buried v t) :
    ∃ vm, db.1.studentVms.get? v = some vm ∧ vm.status = .deleted ∧ vm.deletedAt.isSome := by
  obtain ⟨vm, hvm, hdeleted⟩ := hburied.record
  obtain ⟨vm', hvm'⟩ := Store.vm_stays hcommit hvm
  refine ⟨vm', hvm', ?_⟩
  refine Store.vm_afterCommit (P := fun r => r.status = .deleted ∧ r.deletedAt.isSome) hcommit
    ?_ ?_ ?_ vm' hvm'
  · intro r hr
    rw [hvm] at hr
    cases hr
    exact hdeleted
  · intro r hnone
    rw [hvm] at hnone
    cases hnone
  · intro w hw htarget r _ hr
    cases w with
    | insert row => exact hr
    | tombstone v' now => exact ⟨rfl, rfl⟩
    | status v' s =>
      have hv' : v' = v := htarget
      subst hv'
      exact absurd hw (h.status_not_mem hp hconducted s)

/-- The tombstone of a record takes effect. -/
theorem Quiescent.record_buries {now : Time} (hw : .vm (.tombstone v now) ∈ ws) :
    ∃ vm, db.1.studentVms.get? v = some vm ∧ vm.status = .deleted ∧ vm.deletedAt.isSome := by
  obtain ⟨vm, hvm⟩ := Option.isSome_iff_exists.mp hv
  obtain ⟨vm', hvm'⟩ := Store.vm_stays hcommit hvm
  refine ⟨vm', hvm', ?_⟩
  refine Store.vm_of_mem (P := fun r => r.status = .deleted ∧ r.deletedAt.isSome) hcommit hv hw
    (by simp) rfl (fun _ => ⟨rfl, rfl⟩) ?_ vm' hvm'
  intro w hw' htarget r hr
  cases w with
  | insert row => exact hr
  | tombstone v' now' => exact ⟨rfl, rfl⟩
  | status v' s =>
    have hv' : v' = v := htarget
    subst hv'
    exact absurd hw' (h.status_not_mem hp hconducted s)

end Commit

/-! ## The invariant -/

/-- Every tombstoned record is buried, and was spared by every entry since. -/
structure Burials (t : Sys H) : Prop where
  exist : ∀ p o, inHand p t.log = some o → (t.store.db.durableOperations.get? o).isSome
  buried : ∀ v, Tombstoned v t.log → Buried v t
  spared : EachAfter (fun e older => ∀ v, Tombstoned v older → e.Spares v older) t.log

/-- A commit that meets the condition keeps the tombstones. -/
theorem Burials.commit {p : Pid} {ws : List Write} {t t' : Sys H}
    {db : { db : Db // db.Constraints }} (h : Burials t) (hp : Present p t)
    (hconducted : Stmt.Conducted p (.commit ws) t) (hlast : BuriesLast p (.commit ws) t)
    (hcommit : t.store.afterCommit ws = some db)
    (hlog : t'.log = .stmt p (.commit ws) t.store :: t.log) (hdb : t'.store.db = db.1) :
    Burials t' where
  exist := by
    intro p' o hhand
    rw [hlog] at hhand
    rw [hdb]
    have hstays : (t.store.db.durableOperations.get? o).isSome := by
      by_cases hclaim : ∃ owner lease started attempts,
          Write.operation (.claim o owner lease started attempts) ∈ ws
      · obtain ⟨owner, lease, started, attempts, hw⟩ := hclaim
        obtain ⟨⟨cur, hcur, -⟩, -⟩ := hconducted.claim hw
        rw [hcur]
        rfl
      · by_cases hpid : p = p'
        · subst hpid
          exact h.exist p o (inHand_before_of_no_claim hconducted hcommit hclaim hhand)
        · rw [inHand_cons_of_ne _ (show (Entry.stmt p (.commit ws) t.store).pid ≠ p' from hpid)]
            at hhand
          exact h.exist p' o hhand
    obtain ⟨row, hrow⟩ := Option.isSome_iff_exists.mp hstays
    obtain ⟨row', hrow'⟩ := Store.operation_stays hcommit hrow
    rw [hrow']
    rfl
  buried := by
    intro v hv
    rw [hlog, tombstoned_cons] at hv
    rcases hv with ⟨-, hexists, now, hw⟩ | hv
    · have hquiescent := hlast.commit ws rfl v now hw
      exact ⟨by rw [hdb]; exact hquiescent.record_buries hp hconducted hcommit hexists hw,
        hquiescent.commit hp hconducted hcommit hexists h.exist hlog hdb⟩
    · have hburied := h.buried v hv
      have hexists : (t.store.db.studentVms.get? v).isSome := by
        obtain ⟨vm, hvm, -⟩ := hburied.record
        rw [hvm]
        rfl
      exact ⟨by rw [hdb]; exact hburied.quiescent.record_kept hp hconducted hcommit hexists hburied,
        hburied.quiescent.commit hp hconducted hcommit hexists h.exist hlog hdb⟩
  spared := by
    rw [hlog]
    refine h.spared.cons ?_
    intro v hv
    refine ⟨?_, by simp⟩
    intro s hw
    exact absurd (mem_of_mem_written hw)
      ((h.buried v hv).quiescent.status_not_mem hp hconducted s)

/-- A step that changes no row and makes nothing visible keeps the tombstones, if nobody finds
a tombstoned record by it. -/
theorem Burials.quiet {t t' : Sys H} {e : Entry} (h : Burials t) (hlog : t'.log = e :: t.log)
    (hwritten : e.written = []) (hrows : t.store.db.SameRows t'.store.db)
    (hspares : ∀ v, Tombstoned v t.log → e.Spares v t.log)
    (hpresent : ∀ p, Present p t' → (Present p t ∧ ∀ r, e ≠ .enter p r) ∨
      entriesOf p t.log = [] ∧ e.found = [])
    (hfound : ∀ v r, Tombstoned v t.log → Present e.pid t → Entry.enter e.pid r ∈ t.log →
      r.disturbs = true → v ∉ e.found) :
    Burials t' where
  exist := by
    intro p o hhand
    rw [hlog, inHand_cons_of_quiet p _ hwritten] at hhand
    rw [hrows.operation]
    exact h.exist p o hhand
  buried := by
    intro v hv
    have hv : Tombstoned v t.log := by
      rw [hlog, tombstoned_cons] at hv
      refine hv.resolve_left ?_
      intro hburies
      cases e with
      | stmt p q s =>
        cases q with
        | commit ws =>
          obtain ⟨hsome, -, now, hw⟩ := hburies
          have hwritten : (if (s.afterCommit ws).isSome then ws else []) = [] := hwritten
          rw [if_pos hsome] at hwritten
          rw [hwritten] at hw
          cases hw
        | _ => exact hburies
      | _ => exact hburies
    have hburied := h.buried v hv
    obtain ⟨vm, hvm, hdeleted⟩ := hburied.record
    refine ⟨⟨vm, (hrows.vm v).trans hvm, hdeleted⟩, ?_⟩
    refine ⟨?_, ?_, ?_⟩
    · intro o row hrow
      rw [hrows.operation] at hrow
      exact hburied.quiescent.operations o row hrow
    · intro p r hp hr hdisturbs hfoundv
      rw [hlog] at hr hfoundv
      rcases hpresent p hp with ⟨hbefore, henter⟩ | ⟨hnone, hefound⟩
      · have hr : Entry.enter p r ∈ t.log :=
          (List.mem_cons.mp hr).resolve_left (henter r).symm
        have hold := hburied.quiescent.finders p r hbefore hr hdisturbs
        unfold foundVms at hfoundv hold
        by_cases hpid : e.pid = p
        · rw [entriesOf_cons_self _ hpid, List.flatMap_cons] at hfoundv
          rcases List.mem_append.mp hfoundv with hnow | hbefore'
          · exact hfound v r hv (hpid ▸ hbefore) (hpid ▸ hr) hdisturbs hnow
          · exact hold hbefore'
        · rw [entriesOf_cons_of_ne _ hpid] at hfoundv
          exact hold hfoundv
      · rw [foundVms_cons_of_quiet p _ hefound] at hfoundv
        unfold foundVms at hfoundv
        rw [hnone] at hfoundv
        cases hfoundv
    · intro p o row hp hhand hrow
      rw [hlog, inHand_cons_of_quiet p _ hwritten] at hhand
      rw [hrows.operation] at hrow
      rcases hpresent p hp with ⟨hbefore, -⟩ | ⟨hnone, -⟩
      · exact hburied.quiescent.hands p o row hbefore hhand hrow
      · unfold inHand at hhand
        rw [hnone] at hhand
        cases hhand
  spared := by
    rw [hlog]
    exact h.spared.cons hspares

/-- A query does not find a record that is deleted, except through the links of a run. -/
theorem Buried.not_found {v : ℕ} {p : Pid} {q : Stmt} {t : Sys H} (h : Buried v t)
    (hlast : BuriesLast p q t) {r : Request} (hr : Entry.enter p r ∈ t.log)
    (hdisturbs : r.disturbs = true) : v ∉ (Entry.stmt p q t.store).found := by
  obtain ⟨vm, hvm, -, hdeleted⟩ := h.record
  have hlive : ∀ P : StudentVM → Bool, (∀ row, P row = true → row.deletedAt.isNone = true) →
      v ∉ (t.store.db.studentVms.filter P).map StudentVM.id := by
    intro P hP hmem
    obtain ⟨row, hrow, hid⟩ := List.mem_map.mp hmem
    obtain ⟨hmem, hcond⟩ := List.mem_filter.mp hrow
    have := Table.get?_of_mem hmem
    rw [hid, hvm] at this
    cases this
    have := hP _ hcond
    cases hd : vm.deletedAt <;> simp_all
  have hscope : ∀ userId organization (row : StudentVM),
      vmInScope t.store.db userId organization row = true → row.deletedAt.isNone = true := by
    intro userId organization row hrow
    unfold vmInScope at hrow
    simp only [Bool.and_eq_true] at hrow
    exact hrow.1.2
  cases q with
  | select q =>
    cases q with
    | rows => simp [Entry.found, Query.vms]
    | vm id => simp [Entry.found]
    | scopedVm id userId organization =>
      refine hlive _ fun row hrow => ?_
      rw [Bool.and_eq_true] at hrow
      exact hscope _ _ row hrow.2
    | scopedVms userId organization => exact hlive _ fun row hrow => hscope _ _ row hrow
    | liveVm id organizationId =>
      refine hlive _ fun row hrow => ?_
      simp only [Bool.and_eq_true] at hrow
      exact hrow.2
    | liveVms => exact hlive _ fun row hrow => hrow
    | clusterVms organizationId clusterId =>
      refine hlive _ fun row hrow => ?_
      simp only [Bool.and_eq_true] at hrow
      exact hrow.2
    | linkedVms run =>
      intro hmem
      have := hlast.search run rfl r hr hdisturbs v hmem vm hvm
      rw [this] at hdeleted
      cases hdeleted
  | _ => simp [Entry.found]

/-- A call that the worker may make spares the tombstoned records. -/
theorem Buried.spares_call {v : ℕ} {p : Pid} {c : Call} {t : Sys H} (h : Buried v t)
    (hp : Present p t) (hconducted : c.mutating = true → c.Conducted p t) :
    (Entry.call p c t.store).Spares v t.log := by
  refine ⟨fun status hw => (by cases hw), ?_⟩
  intro p' c' s heq
  cases heq
  have hclone : c.isClone = true → ∀ {row : DurableOperation} {vm : StudentVM},
      Executes p row t → row.target = .studentVm vm.id → c.Suits row.operationType →
      vm.id ≠ v := by
    intro hclone row vm hexecutes htarget hsuits hid
    rw [hid] at htarget
    have hdelete := h.quiescent.executes hp hexecutes htarget
    rw [hdelete] at hsuits
    cases c with
    | cloneVm _ _ _ _ _ => cases hsuits
    | vmAction _ action _ _ =>
      cases action with
      | start =>
        rcases hsuits with hsuits | ⟨hsuits, -⟩ | ⟨-, hsuits⟩ <;> cases hsuits
      | _ => cases hclone
    | _ => cases hclone
  have hmutating : c.isClone = true → c.mutating = true := by
    intro hclone
    cases c <;> first | rfl | cases hclone
  refine ⟨?_, ?_⟩
  · intro hisClone row vm payload s' rest hentries
    obtain ⟨row', vm', payload', s'', rest', hexecutes, -, htarget, -, hsuits, hentries', -⟩ :=
      hconducted (hmutating hisClone)
    rw [hentries] at hentries'
    injection hentries' with hentry _
    injection hentry with _ hq _
    injection hq with _ hvm _
    subst hvm
    exact hclone hisClone hexecutes htarget hsuits
  · intro vm hvm hcluster hbrings
    have hisClone : c.isClone = true := by
      cases c with
      | cloneVm _ _ _ _ _ => rfl
      | vmAction _ action _ _ =>
        cases action with
        | start => rfl
        | _ => exact hbrings.elim
      | _ => exact hbrings.elim
    obtain ⟨row, vm', payload, s, rest, hexecutes, ⟨cur, hcur, hsame⟩, htarget, haddresses,
      hsuits, -⟩ := hconducted (hmutating hisClone)
    refine hclone hisClone hexecutes htarget hsuits ?_
    have hkey : cur.proxmoxClusterId = vm.proxmoxClusterId ∧ cur.vmid = vm.vmid := by
      rw [hsame.proxmoxClusterId, hsame.vmid]
      cases c with
      | cloneVm _ _ _ _ _ =>
        exact ⟨haddresses.1.symm.trans hbrings.1, haddresses.2.2.1.symm.trans hbrings.2⟩
      | vmAction _ action _ _ =>
        cases action with
        | start => exact ⟨haddresses.1.symm.trans hbrings.1, haddresses.2.2.symm.trans hbrings.2⟩
        | _ => exact hbrings.elim
      | _ => exact hbrings.elim
    have hrows : cur = vm := by
      refine t.store.valid.vms_vmid cur (Table.mem_of_get? hcur) vm (Table.mem_of_get? hvm) ?_ ?_
      · show cur.proxmoxClusterId.map (·, cur.vmid) ≠ none
        rw [hkey.1]
        cases hc : vm.proxmoxClusterId with
        | none => exact absurd hc hcluster
        | some cluster => simp
      · show cur.proxmoxClusterId.map (·, cur.vmid) = vm.proxmoxClusterId.map (·, vm.vmid)
        rw [hkey.1, hkey.2]
    rw [← Table.get?_key hcur, hrows, Table.get?_key hvm]

/-! ## Runs -/

/-- The runs in which records are tombstoned only when nothing else is left. -/
def quiescing (settings : Settings) (outside : Outside H) : System Api (Sys H) Request :=
  (system settings outside).restrict (fun _ _ => True) BuriesLast (fun _ _ _ => True)

/-- Every step keeps the tombstones. -/
theorem burials_preserved :
    ((conduct settings outside).restrict (fun _ _ => True) BuriesLast
      (fun _ _ _ => True)).allowed.Preserves Burials where
  stmt := by
    rintro p q t h ⟨⟨-, hlast⟩, -, hp, hconducted⟩
    have hlog : ((machine outside).exec p q t).log = .stmt p q t.store :: t.log := rfl
    rcases Store.exec_cases p q t.store with
      ⟨ws, db, rfl, hcommit, hdb, -⟩ | ⟨-, hwritten, hsame⟩
    · exact h.commit hp hconducted hlast hcommit hlog hdb
    · refine h.quiet hlog hwritten hsame ?_ ?_ ?_
      · exact fun v _ => Entry.spares_of_quiet hwritten (by simp) v _
      · exact fun p' hp' => Or.inl ⟨hp'.of_cons hlog (by simp), by simp⟩
      · intro v r hv _ hr hdisturbs
        exact (h.buried v hv).not_found hlast hr hdisturbs
  call := by
    rintro p c t r t' h ⟨⟨-, hp, hconducted⟩, -, hyper, -, rfl⟩
    have hcall : Burials { t with log := .call p c t.store :: t.log } := by
      refine h.quiet rfl rfl (.refl _) ?_ ?_ ?_
      · exact fun v hv => (h.buried v hv).spares_call hp hconducted
      · exact fun p' hp' => Or.inl ⟨hp'.of_cons rfl (by simp), by simp⟩
      · exact fun v r _ _ _ _ hfound => by cases hfound
    refine hcall.quiet rfl rfl (.refl _) ?_ ?_ ?_
    · exact fun v _ => Entry.spares_of_quiet rfl (by simp) v _
    · exact fun p' hp' => Or.inl ⟨hp'.of_cons rfl (by simp), by simp⟩
    · exact fun v r _ _ _ _ hfound => by cases hfound
  enter := by
    rintro r t h ⟨-, hinv⟩
    have hinv : WellLogged t.log := hinv
    refine h.quiet rfl rfl (.refl _) ?_ ?_ ?_
    · exact fun v _ => Entry.spares_of_quiet rfl (by simp) v _
    · intro p hp
      by_cases hnew : p = started t.log
      · subst hnew
        exact Or.inr ⟨hinv.entriesOf_started, rfl⟩
      · have hne : ∀ r', Entry.enter (started t.log) r ≠ .enter p r' := by
          intro r' heq
          injection heq with hpid _
          exact hnew hpid.symm
        exact Or.inl ⟨hp.of_cons rfl hne, hne⟩
    · exact fun v r _ _ _ _ hfound => by cases hfound
  leave := by
    rintro p t h
    refine h.quiet rfl rfl (.refl _) ?_ ?_ ?_
    · exact fun v _ => Entry.spares_of_quiet rfl (by simp) v _
    · exact fun p' hp' => Or.inl ⟨hp'.of_cons rfl (by simp), by simp⟩
    · exact fun v r _ _ _ _ hfound => by cases hfound
  env := by
    rintro t t' h ⟨-, henv, hlog⟩
    have hrows := henv.sameRows
    refine ⟨?_, ?_, hlog ▸ h.spared⟩
    · intro p o hhand
      rw [hlog] at hhand
      rw [hrows.operation]
      exact h.exist p o hhand
    · intro v hv
      rw [hlog] at hv
      obtain ⟨⟨vm, hvm, hdeleted⟩, hoperations, hfinders, hhands⟩ := h.buried v hv
      refine ⟨⟨vm, (hrows.vm v).trans hvm, hdeleted⟩, ?_, ?_, ?_⟩
      · intro o row hrow
        rw [hrows.operation] at hrow
        exact hoperations o row hrow
      · unfold Present at hfinders ⊢
        rw [hlog]
        exact hfinders
      · intro p o row hp hhand hrow
        unfold Present at hp
        rw [hlog] at hp hhand
        rw [hrows.operation] at hrow
        exact hhands p o row hp hhand hrow

/-- In every run from the state a tombstoned record stays deleted, and every entry since spares
it. -/
def TombstonedRuns (sys : System Api (Sys H) Request) (t : Sys H) : Prop :=
  ∀ w, World.Reach sys (World.idle t) w →
    (∀ v, Tombstoned v w.shared.log →
      ∃ vm, w.shared.store.db.studentVms.get? v = some vm ∧ vm.status = .deleted ∧
        vm.deletedAt.isSome) ∧
    EachAfter (fun e older => ∀ v, Tombstoned v older → e.Spares v older) w.shared.log

/-- Tombstones are absorbing in every run in which nothing is left when they are written. -/
theorem tombstones_absorb (settings : Settings) (outside : Outside H) (t : Sys H)
    (ht : t.log = []) : TombstonedRuns (quiescing settings outside) t := by
  intro w hr
  have hinitial : Burials (World.idle (G := Api) t).shared := by
    refine ⟨?_, ?_, ?_⟩
    · intro p o hhand
      have hhand : inHand p t.log = some o := hhand
      rw [ht] at hhand
      cases hhand
    · rintro v ⟨e, he, -⟩
      have he : e ∈ t.log := he
      rw [ht] at he
      cases he
    · show EachAfter _ t.log
      rw [ht]
      exact EachAfter.nil _
  have h := burials_preserved.of_reach hinitial (reach_conduct ht hr)
  exact ⟨fun v hv => (h.buried v hv).record, h.spared⟩

end Tombstones

namespace Fixture

/-- From the store of the fixture, where records are buried only when quiescent, tombstones absorb.
-/
theorem tombstones_absorb_readyStore :
    TombstonedRuns (quiescing {} anything) (start readyStore) :=
  tombstones_absorb {} anything (start readyStore) rfl

/-- A platform administrator queues the deletion of the VM and a start of it. One worker
executes the deletion, and the next one the start. -/
def deleteThenStart : List (Move Api Request) :=
  [.spawn (.deleteVmRecord ⟨1, some 1⟩ 1 (.delete 200000)), .run 0 6 absent, .exit 0,
    .spawn (.vmPower ⟨1, some 1⟩ 1 .start), .run 1 6 absent, .exit 1,
    .spawn (.operationWorker "w"), .run 2 12 absent, .exit 2,
    .spawn (.operationWorker "w"), .run 3 17 running]

/-- The status of a VM record. -/
def vmStatus (w : World Api (Sys Unit)) (v : ℕ) : Option VmStatus :=
  (w.shared.store.db.studentVms.get? v).map StudentVM.status

set_option maxRecDepth 100000 in
/-- The tombstoned VM is started, and its record says that it is running. -/
theorem tombstones_do_not_absorb : ¬ TombstonedRuns (system {} anything) (start readyStore) := by
  intro h
  have hplay : (player.play (World.idle (start readyStore)) deleteThenStart).any (fun w =>
      decide (Tombstoned 1 w.shared.log) && decide (vmStatus w 1 = some .running)) = true := by
    decide +kernel
  obtain ⟨w, hr, hw⟩ := player.exists_of_play hplay
  rw [Bool.and_eq_true, decide_eq_true_eq, decide_eq_true_eq] at hw
  obtain ⟨vm, hvm, hdeleted, -⟩ := (h w hr).1 1 hw.1
  obtain ⟨vm', hvm', hrunning⟩ := Option.map_eq_some_iff.mp hw.2
  rw [hvm] at hvm'
  cases hvm'
  rw [hdeleted] at hrunning
  cases hrunning

end Fixture

end LabGoblin
