import LabGoblin.Analysis.Guarantee
import LabGoblin.Model.Reconciliation

/-!
# Deleted desktops in the reconciliation preview

A deletion leaves its record in `student_vms`, and the preview counts the records without a look
at `deleted_at`. So a tombstone is a desktop to it, in every scope that it lies in.
-/

set_option autoImplicit false

namespace LabGoblin.Reconciliation

open Interactive

variable {db db' : Db} {added : List StudentVM} {organizationId : Option ℕ}

/-- What a deletion leaves of a record. -/
def IsTombstone (vm : StudentVM) : Prop := vm.deletedAt.isSome = true ∧ vm.status = .deleted

/-- The second database has further VM records and is the same otherwise. -/
structure Db.Adds (db db' : Db) (added : List StudentVM) : Prop where
  desktopPools : db'.desktopPools = db.desktopPools
  vmSessions : db'.vmSessions = db.vmSessions
  studentVms : db'.studentVms.rows.Perm (db.studentVms.rows ++ added)

/-- The desktops that the preview counts. -/
def current (db : Db) (organizationId : Option ℕ) : ℕ := (vmQuery db organizationId).length

/-- The desktops that the pools ask for. -/
def wanted (db : Db) (organizationId : Option ℕ) : ℤ := desired (poolQuery db organizationId)

/-- The preview reports as missing what is wanted beyond what there is. -/
theorem preview_missing (db : Db) (organizationId : Option ℕ) :
    (preview db organizationId).missingDesktops =
      max (wanted db organizationId - current db organizationId) 0 := rfl

/-- The preview reports as excess what there is beyond what is wanted. -/
theorem preview_excess (db : Db) (organizationId : Option ℕ) :
    (preview db organizationId).excessDesktops =
      max (current db organizationId - wanted db organizationId) 0 := rfl

/-- The records of a scope, as a permutation: those of before and the added ones in it. -/
theorem Db.Adds.vmQuery (h : db.Adds db' added) (organizationId : Option ℕ) :
    (vmQuery db' organizationId).Perm (vmQuery db organizationId ++
      added.filter fun vm => inScope organizationId vm.organizationId) := by
  have hfilter := h.studentVms.filter fun vm => inScope organizationId vm.organizationId
  rw [List.filter_append] at hfilter
  exact hfilter

/-- Records that are added in the scope count as desktops. -/
theorem Db.Adds.current (h : db.Adds db' added) (organizationId : Option ℕ) :
    current db' organizationId = current db organizationId +
      (added.filter fun vm => inScope organizationId vm.organizationId).length := by
  have hlength := (h.vmQuery organizationId).length_eq
  rw [List.length_append] at hlength
  exact hlength

/-- Records that are added do not change what is wanted. -/
theorem Db.Adds.wanted (h : db.Adds db' added) (organizationId : Option ℕ) :
    wanted db' organizationId = wanted db organizationId := by
  unfold Reconciliation.wanted poolQuery
  rw [h.desktopPools]

/-- Tombstones are not stopped desktops. -/
theorem Db.Adds.stopped (h : db.Adds db' added) (hdeleted : ∀ vm ∈ added, IsTombstone vm)
    (organizationId : Option ℕ) :
    (preview db' organizationId).stoppedDesktops =
      (preview db organizationId).stoppedDesktops := by
  have hstopped := ((h.vmQuery organizationId).filter fun vm => vm.status = .stopped).length_eq
  have hnone : (added.filter fun vm => inScope organizationId vm.organizationId).filter
      (fun vm => vm.status = .stopped) = [] := by
    rw [List.filter_eq_nil_iff]
    intro vm hvm hstatus
    have hstatus' := (hdeleted vm (List.mem_filter.mp hvm).1).2
    rw [hstatus'] at hstatus
    simp at hstatus
  rw [List.filter_append, List.length_append, hnone, List.length_nil, Nat.add_zero] at hstopped
  exact hstopped

/-- Deleted desktops do not count: the plan is the same with further tombstones exactly when none
of them lies in the scope of the preview. -/
theorem preview_same_iff (h : db.Adds db' added) (hdeleted : ∀ vm ∈ added, IsTombstone vm)
    (organizationId : Option ℕ) :
    preview db' organizationId = preview db organizationId ↔
      ∀ vm ∈ added, inScope organizationId vm.organizationId = false := by
  have hcurrent := h.current organizationId
  have hwanted := h.wanted organizationId
  have hnone : (∀ vm ∈ added, inScope organizationId vm.organizationId = false) ↔
      (added.filter fun vm => inScope organizationId vm.organizationId).length = 0 := by
    rw [List.length_eq_zero_iff, List.filter_eq_nil_iff]
    simp
  rw [hnone]
  constructor
  · intro hsame
    have hmissing := congrArg Preview.missingDesktops hsame
    have hexcess := congrArg Preview.excessDesktops hsame
    rw [preview_missing, preview_missing] at hmissing
    rw [preview_excess, preview_excess] at hexcess
    omega
  · intro hzero
    have hstopped := h.stopped hdeleted organizationId
    have hmissing : (preview db' organizationId).missingDesktops =
        (preview db organizationId).missingDesktops := by
      rw [preview_missing, preview_missing]
      omega
    have hexcess : (preview db' organizationId).excessDesktops =
        (preview db organizationId).excessDesktops := by
      rw [preview_excess, preview_excess]
      omega
    have hpools : poolQuery db' organizationId = poolQuery db organizationId := by
      unfold poolQuery
      rw [h.desktopPools]
    have hsessions : sessionQuery db' organizationId = sessionQuery db organizationId := by
      unfold sessionQuery
      rw [h.vmSessions]
    unfold preview at hstopped hmissing hexcess ⊢
    rw [hpools] at hmissing hexcess ⊢
    rw [hsessions]
    dsimp only at hstopped hmissing hexcess ⊢
    rw [hstopped, hmissing, hexcess]

/-! ## Runs -/

section Runs

variable {H : Type} {settings : Settings} {outside : Outside H}

/-- Every record stays the record of its VM. -/
def RecordsStay (t t' : Sys H) : Prop :=
  ∀ i v, t.store.db.studentVms.get? i = some v →
    ∃ v', t'.store.db.studentVms.get? i = some v' ∧ v.SameRecord v'

/-- No step removes a VM record or gives it to another organization. -/
theorem recordsStay_step {w w' : World Api (Sys H)}
    (h : World.Step (system settings outside) w w') : RecordsStay w.shared w'.shared := by
  cases h with
  | spawn r hadmits => exact (enter_rely r (Nat.succ_ne_self _)).vms
  | interact p prog prog' t' hp h =>
    cases h with
    | stmt q k henabled => exact exec_vms p q w.shared
    | call c k _ _ r hanswer => exact (answer_rely hanswer (Nat.succ_ne_self p)).vms
  | exit p prog hp => exact (leave_rely (Nat.succ_ne_self p)).vms
  | env t' henv => exact (env_rely henv.1 henv.2 0).vms

/-- No VM record is deleted in any run. -/
theorem recordsStay_of_reach {w w' : World Api (Sys H)}
    (h : World.Reach (system settings outside) w w') : RecordsStay w.shared w'.shared := by
  induction h with
  | refl => exact fun i v hv => ⟨v, hv, .refl v⟩
  | tail _ hstep ih =>
    intro i v hv
    obtain ⟨v', hv', hsame⟩ := ih i v hv
    obtain ⟨v'', hv'', hsame'⟩ := recordsStay_step hstep i v' hv'
    exact ⟨v'', hv'', hsame.trans hsame'⟩

/-- Records that stay are counted on. -/
theorem RecordsStay.current_le {t t' : Sys H} (h : RecordsStay t t') (pools : List DesktopPool)
    (sessions : List Sessions.VMSession) (organizationId : Option ℕ) :
    current ⟨pools, t.store.db.studentVms, sessions⟩ organizationId ≤
      current ⟨pools, t'.store.db.studentVms, sessions⟩ organizationId := by
  have hnodup : ((vmQuery ⟨pools, t.store.db.studentVms, sessions⟩ organizationId).map
      StudentVM.id).Nodup :=
    t.store.db.studentVms.nodup.sublist (List.filter_sublist.map _)
  have hsub : (vmQuery ⟨pools, t.store.db.studentVms, sessions⟩ organizationId).map StudentVM.id ⊆
      (vmQuery ⟨pools, t'.store.db.studentVms, sessions⟩ organizationId).map StudentVM.id := by
    intro i hi
    obtain ⟨v, hv, rfl⟩ := List.mem_map.mp hi
    obtain ⟨hv, hscope⟩ := List.mem_filter.mp hv
    obtain ⟨v', hv', hsame⟩ := h v.id v (Table.get?_of_mem hv)
    obtain ⟨hmem, hid⟩ := (Table.get?_eq_some_iff _ _ _).mp hv'
    refine List.mem_map.mpr ⟨v', List.mem_filter.mpr ⟨hmem, ?_⟩, hid⟩
    rw [hsame.organizationId]
    exact hscope
  have hlength := (List.subperm_of_subset hnodup hsub).length_le
  rw [List.length_map, List.length_map] at hlength
  exact hlength

/-- Whatever is deleted in a run, the preview with the same pools does not miss more desktops
afterwards, and does not find fewer of them in excess. -/
theorem preview_of_reach {w w' : World Api (Sys H)}
    (h : World.Reach (system settings outside) w w') (pools : List DesktopPool)
    (sessions : List Sessions.VMSession) (organizationId : Option ℕ) :
    (preview ⟨pools, w'.shared.store.db.studentVms, sessions⟩ organizationId).missingDesktops ≤
        (preview ⟨pools, w.shared.store.db.studentVms, sessions⟩ organizationId).missingDesktops ∧
      (preview ⟨pools, w.shared.store.db.studentVms, sessions⟩ organizationId).excessDesktops ≤
        (preview ⟨pools, w'.shared.store.db.studentVms, sessions⟩ organizationId).excessDesktops
    := by
  have hcurrent := (recordsStay_of_reach h).current_le pools sessions organizationId
  have hwanted : wanted ⟨pools, w'.shared.store.db.studentVms, sessions⟩ organizationId =
      wanted ⟨pools, w.shared.store.db.studentVms, sessions⟩ organizationId := rfl
  rw [preview_missing, preview_missing, preview_excess, preview_excess]
  constructor <;> omega

end Runs

namespace Fixture

/-- A pool that asks for one desktop. -/
def pool : DesktopPool where
  id := 1
  name := "p".toList
  poolType := "persistent".toList
  defaultProtocol := "SSH_WS".toList
  desiredSize := 1
  organizationId := 1

/-- The record of a VM that was deleted. -/
def tombstone : StudentVM :=
  ⟨1, 1, some 1, 2, 1, "v", 200000, "n", .deleted, some 5⟩

/-- No VM was ever there. -/
def empty : Db := ⟨[pool], Table.empty, []⟩

/-- The one VM was deleted. -/
def emptied : Db := ⟨[pool], ⟨[tombstone], 2, by decide, by decide⟩, []⟩

/-- The second database of the fixture has one tombstone more. -/
theorem adds_tombstone : empty.Adds emptied [tombstone] := ⟨rfl, rfl, List.Perm.refl _⟩

/-- The added record is a tombstone. -/
theorem isTombstone_tombstone : ∀ vm ∈ [tombstone], IsTombstone vm := by
  intro vm hvm
  rw [List.mem_singleton.mp hvm]
  exact ⟨rfl, rfl⟩

/-- The tombstone leaves the preview exactly if it is out of its scope. -/
theorem preview_same_iff_tombstone :
    preview emptied (some 1) = preview empty (some 1) ↔
      ∀ vm ∈ [tombstone], inScope (some 1) vm.organizationId = false :=
  preview_same_iff adds_tombstone isTombstone_tombstone (some 1)

/-- With the tombstone the preview misses no desktop, without it one. -/
theorem preview_counts_tombstone : ¬ ∀ (db db' : Db) (added : List StudentVM),
    db.Adds db' added → (∀ vm ∈ added, IsTombstone vm) → ∀ organizationId,
      preview db' organizationId = preview db organizationId := by
  intro h
  have hsame := h empty emptied [tombstone] adds_tombstone isTombstone_tombstone (some 1)
  have hmissing : (preview emptied (some 1)).missingDesktops = 0 := by decide
  have hmissing' : (preview empty (some 1)).missingDesktops = 1 := by decide
  rw [hsame, hmissing'] at hmissing
  cases hmissing

end Fixture

end LabGoblin.Reconciliation
