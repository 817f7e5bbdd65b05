import LabGoblin.Analysis.History
import LabGoblin.Analysis.Provisioning

/-!
# The identifiers that are allocated for VMs

A serialized history of the allocations of one cluster: transactions that call `allocate_vmid`
and then commit or roll back, one after the other because they lock the allocator row. Between
the statements everything else may change: VM records of any kind appear and disappear, and other
clusters allocate. An allocated identifier exceeds every identifier of the cluster that is in
use, and every one that a transaction committed before.
-/

set_option autoImplicit false

namespace LabGoblin

open Interactive

variable {H : Type} {outside : Outside H} {p : Pid}

/-- The allocator row of a cluster. -/
def Db.allocator (db : Db) (cluster : ℕ) : Option VmidAllocator :=
  db.vmidAllocators.first fun a => a.scope = cluster

/-- The identifiers of the VM records of a cluster, tombstones included. -/
def Db.vmids (db : Db) (cluster : ℕ) : List ℕ :=
  (db.studentVms.filter fun vm => vm.proxmoxClusterId = some cluster).map StudentVM.vmid

/-- A value that `allocate_vmid` returned, whether its transaction was committed, and the
identifiers of the cluster at that time. -/
structure Allocation where
  value : ℕ
  committed : Bool
  vmids : List ℕ

/-- The write concerns an allocator row. -/
def Write.allocates : Write → Bool
  | .allocator _ => true
  | _ => false

/-- The end of a transaction that has allocated an identifier: it commits the allocation with
writes of its own, or it rolls back. -/
inductive Finishes (outside : Outside H) (p : Pid) (allocated : List Write) :
    Bool → Sys H → Sys H → Prop
  | commit (rest : List Write) (t t' : Sys H) (hrest : ∀ w ∈ rest, w.allocates = false)
      (h : Returns (machine outside) p (commit (allocated ++ rest)) t () t') :
      Finishes outside p allocated true t t'
  | rollback (t t' : Sys H) (h : Returns (machine outside) p rollback t () t') :
      Finishes outside p allocated false t t'

/-- The serialized histories of the allocations of a cluster, newest allocation first. -/
inductive Allocations (outside : Outside H) (cluster : ℕ) (start : Sys H) :
    List Allocation → Sys H → Prop
  | start : Allocations outside cluster start [] start
  | others {past : List Allocation} {t t' : Sys H}
      (before : Allocations outside cluster start past t)
      (h : t'.store.db.allocator cluster = t.store.db.allocator cluster) :
      Allocations outside cluster start past t'
  | transaction {past : List Allocation} {t t₁ t₂ t₃ : Sys H} {p : Pid} {value : ℕ}
      {allocated : List Write} {committed : Bool}
      (before : Allocations outside cluster start past t)
      (call : Returns (machine outside) p (allocateVmid cluster) t (value, allocated) t₁)
      (meanwhile : t₂.store.db.allocator cluster = t₁.store.db.allocator cluster)
      (finish : Finishes outside p allocated committed t₂ t₃) :
      Allocations outside cluster start (⟨value, committed, t.store.db.vmids cluster⟩ :: past) t₃

/-! ## One call -/

/-- The maximum of a list is above its start and its members. -/
theorem le_foldl_max (l : List ℕ) (m : ℕ) : m ≤ l.foldl max m ∧ ∀ v ∈ l, v ≤ l.foldl max m := by
  induction l generalizing m with
  | nil => exact ⟨Nat.le_refl m, by simp⟩
  | cons a l ih =>
    obtain ⟨hm, hl⟩ := ih (max m a)
    refine ⟨le_trans (le_max_left m a) hm, fun v hv => ?_⟩
    rcases List.mem_cons.mp hv with rfl | hv
    · exact le_trans (le_max_right m v) hm
    · exact hl v hv

/-- The next identifier is past the allocator, past every VM of the cluster and past the floor. -/
theorem nextVmid_bounds (db : Db) (cluster : ℕ) (allocator : VmidAllocator) :
    allocator.nextValue ≤ nextVmid db cluster allocator ∧
      200000 ≤ nextVmid db cluster allocator ∧
      ∀ v ∈ db.vmids cluster, v < nextVmid db cluster allocator := by
  unfold nextVmid
  have hlargest := (le_foldl_max (db.vmids cluster) 0).2
  unfold Db.vmids at hlargest ⊢
  refine ⟨by simp, by simp, fun v hv => ?_⟩
  have hle := hlargest v hv
  simp only [lt_max_iff]
  split <;> omega

/-- What `allocate_vmid` returns: the next identifier past the row of the cluster, which it
inserts if there is none, and the writes that move the row past it. -/
theorem returns_allocateVmid {cluster value : ℕ} {allocated : List Write} {t t' : Sys H}
    (h : Returns (machine outside) p (allocateVmid cluster) t (value, allocated) t') :
    t'.store.db.allocator cluster = t.store.db.allocator cluster ∧
      ∃ (allocator : VmidAllocator) (created : List Write), allocator.scope = cluster ∧
        value = nextVmid t.store.db cluster allocator ∧
        allocated = created ++ [.allocator (.allocate allocator.id (value + 1))] ∧
        (t.store.db.allocator cluster = some allocator ∧ created = [] ∨
          t.store.db.allocator cluster = none ∧ created = [.allocator (.insert allocator)]) := by
  unfold allocateVmid at h
  rw [returns_stmt_bind] at h
  obtain ⟨-, h⟩ := h
  unfold Db.allocator
  cases hfound : t.store.db.vmidAllocators.first fun a => a.scope = cluster with
  | some allocator =>
    rw [hfound] at h
    simp only [findAllocator, pure_bind, returns_select_bind, returns_pure, Prod.mk.injEq] at h
    obtain ⟨⟨rfl, rfl⟩, rfl⟩ := h
    have hscope : allocator.scope = cluster := by simpa using (Table.first_some hfound).2
    exact ⟨hfound, allocator, [], hscope, rfl, rfl, Or.inl ⟨rfl, rfl⟩⟩
  | none =>
    rw [hfound] at h
    simp only [findAllocator, bind_assoc, pure_bind, returns_draw_bind, returns_select_bind,
      returns_pure, Prod.mk.injEq] at h
    obtain ⟨⟨rfl, rfl⟩, rfl⟩ := h
    exact ⟨hfound, _, _, rfl, rfl, rfl, Or.inr ⟨rfl, rfl⟩⟩

/-! ## The end of the transaction -/

/-- A write that is not about allocators leaves them alone. -/
theorem Write.apply_vmidAllocators {w : Write} {db db' : Db} (hw : w.allocates = false)
    (h : w.apply db = some db') : db'.vmidAllocators = db.vmidAllocators := by
  cases w with
  | allocator w => cases hw
  | catalogue w =>
    cases w with
    | editLab lab name description pool flags =>
      cases h
      rfl
    | insertReceipt row =>
      simp only [Write.apply, CatalogueWrite.apply] at h
      split at h
      · cases h
      · cases h
        rfl
    | _ =>
      obtain ⟨table, -, rfl⟩ := Option.map_eq_some_iff.mp h
      rfl
  | _ =>
    obtain ⟨table, -, rfl⟩ := Option.map_eq_some_iff.mp h
    rfl

/-- Writes that allocate nothing leave the allocators. -/
theorem Db.applyAll_vmidAllocators {ws : List Write} {db db' : Db}
    (hws : ∀ w ∈ ws, w.allocates = false) (h : Db.applyAll ws db = some db') :
    db'.vmidAllocators = db.vmidAllocators := by
  induction ws generalizing db with
  | nil =>
    cases h
    rfl
  | cons w ws ih =>
    obtain ⟨u, hu, hrest⟩ := Option.bind_eq_some_iff.mp h
    rw [ih (fun w' hw' => hws w' (List.mem_cons_of_mem _ hw')) hrest,
      Write.apply_vmidAllocators (hws w List.mem_cons_self) hu]

/-- The allocator of a cluster is its only row with that scope. -/
theorem Db.allocator_eq_some {db : Db} (hvalid : db.Constraints) {cluster : ℕ}
    {row : VmidAllocator} (hmem : row ∈ db.vmidAllocators.rows) (hscope : row.scope = cluster) :
    db.allocator cluster = some row := by
  refine (Table.find?_eq_some_iff_of_unique ?_ row).mpr ⟨hmem, by simpa using hscope⟩
  intro x hx y hy hpx hpy
  rw [decide_eq_true_eq] at hpx hpy
  exact hvalid.allocators_scope x hx y hy (by simp) (congrArg some (hpx.trans hpy.symm))

/-- A committed allocation has moved the allocator past the identifier. -/
theorem allocator_of_commit {cluster value : ℕ} {allocated rest created : List Write} {s : Store}
    {db : { db : Db // db.Constraints }} {allocator : VmidAllocator}
    (hscope : allocator.scope = cluster)
    (hallocated : allocated = created ++ [.allocator (.allocate allocator.id (value + 1))])
    (hcreated : s.db.allocator cluster = some allocator ∧ created = [] ∨
      s.db.allocator cluster = none ∧ created = [.allocator (.insert allocator)])
    (hrest : ∀ w ∈ rest, w.allocates = false) (h : s.afterCommit (allocated ++ rest) = some db) :
    db.1.allocator cluster = some { allocator with nextValue := value + 1 } := by
  have happly := Store.applyAll_of_afterCommit h
  rw [hallocated, Db.applyAll_append, Db.applyAll_append] at happly
  obtain ⟨db₂, hdb₂, hdb⟩ := Option.bind_eq_some_iff.mp happly
  obtain ⟨db₁, hdb₁, hdb₂⟩ := Option.bind_eq_some_iff.mp hdb₂
  cases hdb₂
  have hmem : allocator ∈ db₁.vmidAllocators.rows := by
    rcases hcreated with ⟨hfound, rfl⟩ | ⟨-, rfl⟩
    · cases hdb₁
      exact (Table.first_some hfound).1
    · obtain ⟨db₁', hdb₁', hend⟩ := Option.bind_eq_some_iff.mp hdb₁
      cases hend
      obtain ⟨table, htable, rfl⟩ := Option.map_eq_some_iff.mp hdb₁'
      show allocator ∈ table.rows
      rw [Table.rows_of_insert? htable]
      exact List.mem_append_right _ List.mem_cons_self
  refine Db.allocator_eq_some db.2 ?_ hscope
  rw [Db.applyAll_vmidAllocators hrest hdb]
  show _ ∈ (db₁.vmidAllocators.update allocator.id
    (fun row => { row with nextValue := value + 1 }) fun _ => rfl).rows
  rw [Table.mem_update]
  exact ⟨allocator, hmem, if_pos rfl⟩

/-! ## Histories -/

/-- Every committed identifier lies below the next value of the allocator. -/
def Reserved (cluster : ℕ) (past : List Allocation) (t : Sys H) : Prop :=
  ∀ a ∈ past, a.committed = true →
    ∃ row, t.store.db.allocator cluster = some row ∧ a.value < row.nextValue

/-- No step of a history takes an allocator back. -/
theorem Allocations.reserved {cluster : ℕ} {start t : Sys H} {past : List Allocation}
    (h : Allocations outside cluster start past t) : Reserved cluster past t := by
  induction h with
  | start =>
    intro a ha
    cases ha
  | others before hsame ih =>
    intro a ha hcommitted
    rw [hsame]
    exact ih a ha hcommitted
  | @transaction past t t₁ t₂ t₃ p value allocated committed before call meanwhile finish ih =>
    obtain ⟨hcall, allocator, created, hscope, rfl, hallocated, hcreated⟩ :=
      returns_allocateVmid call
    rw [hcall] at meanwhile
    have hnext := (nextVmid_bounds t.store.db cluster allocator).1
    cases finish with
    | rollback _ _ hrollback =>
      have hend : t₃.store.db.allocator cluster = t₂.store.db.allocator cluster := by
        unfold rollback at hrollback
        obtain ⟨-, hrollback⟩ := returns_stmt_bind.mp hrollback
        obtain ⟨-, rfl⟩ := returns_pure.mp hrollback
        rfl
      intro a ha hcommitted
      rw [hend, meanwhile]
      rcases List.mem_cons.mp ha with rfl | ha
      · cases hcommitted
      · exact ih a ha hcommitted
    | commit rest _ _ hrest hcommit =>
      obtain ⟨-, hsome, rfl⟩ := returns_commit.mp hcommit
      obtain ⟨db, hdb⟩ := Option.isSome_iff_exists.mp hsome
      rw [← meanwhile] at hcreated
      have hrow := allocator_of_commit hscope hallocated hcreated hrest hdb
      have hend : (t₂.after p (.commit (allocated ++ rest))).store.db.allocator cluster =
          some { allocator with nextValue := nextVmid t.store.db cluster allocator + 1 } := by
        rw [Sys.after_store, Store.exec_commit_some hdb]
        exact hrow
      intro a ha hcommitted
      refine ⟨_, hend, ?_⟩
      show a.value < nextVmid t.store.db cluster allocator + 1
      rw [meanwhile] at hcreated
      rcases List.mem_cons.mp ha with rfl | ha
      · exact Nat.lt_succ_self _
      · obtain ⟨row, hrow, hlt⟩ := ih a ha hcommitted
        rcases hcreated with ⟨hfound, -⟩ | ⟨hnone, -⟩
        · rw [hfound] at hrow
          cases hrow
          omega
        · rw [hnone] at hrow
          cases hrow

/-- `create_vm` is a transaction that allocates an identifier and commits it with its VM record. -/
theorem Allocations.provisionVm {start t t' : Sys H} {past : List Allocation} {user : User}
    {organization : OrganizationContext} {payload : CreateVMRequest} {template : VMTemplate}
    {assignment : Option LabAssignment} {cluster : ProxmoxCluster} {node reason : String}
    {response : VMOperationResponse} (before : Allocations outside cluster.id start past t)
    (h : Returns (machine outside) p
      (provisionVm user organization payload template assignment cluster node reason) t response
      t') :
    ∃ value, Allocations outside cluster.id start
      (⟨value, true, t.store.db.vmids cluster.id⟩ :: past) t' ∧
      ∃ vm ∈ t'.store.db.studentVms.rows, vm.vmid = value := by
  unfold LabGoblin.provisionVm at h
  rw [returns_bind_iff] at h
  obtain ⟨⟨value, allocated⟩, t₁, hcall, h⟩ := h
  simp only [returns_draw_bind] at h
  rw [returns_bind_iff] at h
  obtain ⟨⟨operation, queued⟩, t₂, henqueue, h⟩ := h
  simp only [returns_commit_bind, returns_pure, List.append_assoc] at h
  obtain ⟨henabled, hsome, -, rfl⟩ := h
  obtain ⟨-, allocator, created, -, -, hallocated, hcreated⟩ := returns_allocateVmid hcall
  have hmeanwhile : t₂.store.db.allocator cluster.id = t₁.store.db.allocator cluster.id := by
    rcases returns_enqueueOperation rfl henqueue with ⟨-, -, rfl⟩ | ⟨-, -, -, rfl⟩ <;> rfl
  have hqueued : ∀ w ∈ queued, w.allocates = false := by
    rcases returns_enqueueOperation rfl henqueue with ⟨-, hq, -⟩ | ⟨-, -, hq, -⟩
    · intro w hw
      have hq : queued = [] := hq
      rw [hq] at hw
      cases hw
    · intro w hw
      have hq : queued = _ := hq
      rw [hq, List.mem_singleton] at hw
      rw [hw]
      rfl
  obtain ⟨db, hdb⟩ := Option.isSome_iff_exists.mp hsome
  refine ⟨value, before.transaction hcall hmeanwhile
    (.commit _ _ _ ?_ (returns_commit.mpr ⟨henabled, hsome, rfl⟩)), ?_⟩
  · intro w hw
    simp only [List.cons_append, List.nil_append, List.mem_cons, List.mem_append] at hw
    rcases hw with rfl | hw | hw
    · rfl
    · unfold linkWrites at hw
      split at hw
      · rw [List.mem_singleton.mp hw]
        rfl
      · cases hw
    · exact hqueued w hw
  · rw [Sys.after_store, Store.exec_commit_some hdb]
    generalize hvm : ({
      id := t₁.store.db.nextval .studentVms
      organizationId := organization.id
      proxmoxClusterId := some cluster.id
      ownerId := user.id
      templateId := template.id
      vmName := safeVmName user.username payload.labName value
      vmid := value
      proxmoxNode := node
      status := .provisioning
      deletedAt := none } : StudentVM) = vm at hdb
    have hvmid : vm.vmid = value := by
      rw [← hvm]
    generalize hid : t₁.store.db.nextval .studentVms = id at hdb
    have honly : ∀ w, Write.vm w ∈ allocated ++ ([.vm (.insert vm)] ++
        (linkWrites assignment id ++ queued)) → w = .insert vm := by
      intro w hw
      simp only [List.cons_append, List.nil_append, List.mem_cons, List.mem_append] at hw
      rcases hw with hw | hw | hw | hw
      · rw [hallocated] at hw
        rcases hcreated with ⟨-, rfl⟩ | ⟨-, rfl⟩ <;> simp at hw
      · injection hw
      · unfold linkWrites at hw
        split at hw <;> simp at hw
      · rcases returns_enqueueOperation rfl henqueue with ⟨-, hq, -⟩ | ⟨-, -, hq, -⟩ <;>
          (have hq : queued = _ := hq; rw [hq] at hw; simp at hw)
    obtain ⟨row, hrow, hrowid⟩ := Store.vm_inserted (P := fun r => r.vmid = value) hdb
      (r := vm) (by simp) (by
        intro r' hr' _
        injection honly _ hr' with heq
        rw [heq]
        exact hvmid) (by
        intro w hw _ r' hr'
        rw [honly w hw]
        exact hr')
    exact ⟨row, Table.mem_of_get? hrow, hrowid⟩

/-- In every serialized history of a cluster, an identifier exceeds those that were committed
before it, is at least 200000 and is not in use in the cluster when it is allocated. -/
theorem allocations_fresh (outside : Outside H) (cluster : ℕ) (start t : Sys H)
    (past : List Allocation) (h : Allocations outside cluster start past t) :
    past.Pairwise (fun a b => b.committed = true → b.value < a.value) ∧
      ∀ a ∈ past, 200000 ≤ a.value ∧ a.value ∉ a.vmids := by
  induction h with
  | start => exact ⟨.nil, by simp⟩
  | others before hsame ih => exact ih
  | @transaction past t t₁ t₂ t₃ p value allocated committed before call meanwhile finish ih =>
    obtain ⟨-, allocator, created, -, rfl, -, hcreated⟩ := returns_allocateVmid call
    obtain ⟨hnext, hfloor, hused⟩ := nextVmid_bounds t.store.db cluster allocator
    refine ⟨List.pairwise_cons.mpr ⟨?_, ih.1⟩, ?_⟩
    · intro b hb hcommitted
      obtain ⟨row, hrow, hlt⟩ := before.reserved b hb hcommitted
      rcases hcreated with ⟨hfound, -⟩ | ⟨hnone, -⟩
      · rw [hfound] at hrow
        cases hrow
        exact lt_of_lt_of_le hlt hnext
      · rw [hnone] at hrow
        cases hrow
    · intro a ha
      rcases List.mem_cons.mp ha with rfl | ha
      · exact ⟨hfloor, fun hmem => absurd (hused _ hmem) (Nat.lt_irrefl _)⟩
      · exact ih.2 a ha

/-- In every serialized history of a cluster, each allocation is above all earlier ones, at least
200000 and unused, whether it is committed or rolled back. -/
def StrictlyIncreasing (outside : Outside H) (cluster : ℕ) (start : Sys H) : Prop :=
  ∀ past t, Allocations outside cluster start past t →
    past.Pairwise (fun a b => b.value < a.value) ∧
      ∀ a ∈ past, 200000 ≤ a.value ∧ a.value ∉ a.vmids

namespace Fixture

set_option maxRecDepth 100000 in
/-- One transaction allocates and commits. -/
theorem allocated_once :
    ∃ result t t', Returns (machine anything) 0 (allocateVmid 1) (start openStore).alone result t ∧
      Returns (machine anything) 0 (commit result.2) t () t' := by
  have h : ((allocateVmid 1) >>= fun result => commit result.2).passes (machine anything) 0
      (start openStore).alone (fun _ _ => true) = true := by
    decide +kernel
  obtain ⟨_, t', hreturns, -⟩ := exists_returns_of_passes h
  obtain ⟨result, t, hcall, hcommit⟩ := returns_bind_iff.mp hreturns
  exact ⟨result, t, t', hcall, hcommit⟩

/-- From the store of the fixture an allocation gives a fresh VMID. -/
theorem allocations_fresh_openStore :
    ∃ a t, Allocations anything 1 (start openStore).alone [a] t ∧ a.committed = true ∧
      [a].Pairwise (fun a b => b.committed = true → b.value < a.value) ∧
      ∀ b ∈ [a], 200000 ≤ b.value ∧ b.value ∉ b.vmids := by
  obtain ⟨⟨value, allocated⟩, t, t', hcall, hcommit⟩ := allocated_once
  have hhistory : Allocations anything 1 (start openStore).alone
      [⟨value, true, (start openStore).alone.store.db.vmids 1⟩] t' :=
    .transaction .start hcall rfl (.commit [] _ _ (by simp) (by simpa using hcommit))
  exact ⟨_, t', hhistory, rfl, allocations_fresh _ _ _ _ _ hhistory⟩

set_option maxRecDepth 100000 in
/-- A transaction that rolls back leaves the allocator where it was: the next one gets the same
identifier. -/
theorem identifier_returned_twice :
    ¬ StrictlyIncreasing anything 1 (start openStore).alone := by
  have h : ((allocateVmid 1) >>= fun first => rollback >>= fun _ =>
      (allocateVmid 1) >>= fun second => rollback >>= fun _ =>
        (pure (first.1, second.1) : Action (ℕ × ℕ))).passes (machine anything) 0
      (start openStore).alone (fun values _ => values.1 = values.2) = true := by
    decide +kernel
  obtain ⟨values, t', hreturns, hsame⟩ := exists_returns_of_passes h
  obtain ⟨first, t₁, hfirst, hreturns⟩ := returns_bind_iff.mp hreturns
  obtain ⟨_, t₂, hback, hreturns⟩ := returns_bind_iff.mp hreturns
  obtain ⟨second, t₃, hsecond, hreturns⟩ := returns_bind_iff.mp hreturns
  obtain ⟨_, t₄, hback', hreturns⟩ := returns_bind_iff.mp hreturns
  obtain ⟨rfl, rfl⟩ := returns_pure.mp hreturns
  intro hincreasing
  have hhistory := (Allocations.start.transaction hfirst rfl (.rollback _ _ hback)).transaction
    hsecond rfl (.rollback _ _ hback')
  obtain ⟨hpairs, -⟩ := hincreasing _ _ hhistory
  have hlt := (List.pairwise_cons.mp hpairs).1 _ List.mem_cons_self
  have hsame : first.1 = second.1 := by simpa using hsame
  exact absurd hlt (by simp [hsame])

end Fixture

end LabGoblin
