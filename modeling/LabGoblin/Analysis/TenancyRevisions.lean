import LabGoblin.Analysis.TenancyRules
import LabGoblin.Model.Catalogue

/-!
# Revisions of the catalogue

What a write of the catalogue must be to keep tenancy. Its commits are no entries of the log: a
key is drawn and its row is there in one step. A row that was added stands under a key that nobody
else has drawn, a row that was changed belongs to the same organization, and a lab has a class and a
pool of its own one.
-/

set_option autoImplicit false

namespace LabGoblin

open Interactive

section Revisions

variable {H : Type} {t t' : Sys H}

/-- The catalogue has been revised: no row changed its organization, no key was given back, and
every lab has a class and a pool that were held for its organization. -/
structure Revises (t t' : Sys H) : Prop where
  log : t'.log = t.log
  next : ∀ q, t.store.db.nextval q ≤ t'.store.db.nextval q
  classes : t.store.db.classes.Descends (fun i => i < t.store.db.classes.next)
    Class.organizationId t'.store.db.classes
  pools : t.store.db.desktopPools.Descends (fun i => i < t.store.db.desktopPools.next)
    DesktopPool.organizationId t'.store.db.desktopPools
  labs : t.store.db.labs.Descends (fun i => i < t.store.db.labs.next)
    Lab.organizationId t'.store.db.labs
  templates : t.store.db.vmTemplates.Endures VMTemplate.organizationId t'.store.db.vmTemplates
  runs : t'.store.db.labRuns = t.store.db.labRuns
  assignments : t'.store.db.labAssignments = t.store.db.labAssignments
  vms : t'.store.db.studentVms = t.store.db.studentVms
  operations : t'.store.db.durableOperations = t.store.db.durableOperations
  lab : ∀ i l, t'.store.db.labs.get? i = some l →
    HeldClass t l.classId l.organizationId ∧ HeldPool t l.defaultPoolId l.organizationId

/-- A revision leaves the ids that transactions have drawn. -/
theorem Revises.pending (h : Revises t t') {q : Sequence} {p : Pid} {i : ℕ} :
    Pending q p i t' ↔ Pending q p i t := by
  unfold Pending
  rw [h.log]

/-- An id that is spent stays spent. -/
theorem Revises.spent (h : Revises t t') {q : Sequence} {i : ℕ} (hi : Spent q t i) :
    Spent q t' i := by
  obtain ⟨hlt, hno⟩ := hi
  exact ⟨Nat.lt_of_lt_of_le hlt (h.next q), fun p hp => hno p (h.pending.mp hp)⟩

/-- A revision extends what is held. -/
theorem Revises.extends (h : Revises t t') : Extends t t' where
  spent := fun _ _ => h.spent
  classes := h.classes.mono fun _ hi => hi.1
  pools := h.pools.mono fun _ hi => hi.1
  labs := h.labs.mono fun _ hi => hi.1
  runs := .of_get? fun i => by rw [h.runs]
  templates := h.templates
  assignments := .of_get? fun i => by rw [h.assignments]
  vms := .of_get? fun i => by rw [h.vms]

/-- The rows stand under spent keys: one that was there before as it did, and one that was added
under a key that no transaction had drawn. -/
theorem Revises.spent_row {α : Type} {key : α → ℕ} {K : Kind α key} (h : Revises t t')
    (ht : Tenanted t)
    (hdescends : (K.table t.store.db).Descends (fun i => i < (K.table t.store.db).next)
      K.organization (K.table t'.store.db))
    (hrows : ∀ i r, (K.table t.store.db).get? i = some r → Spent K.sequence t i) (i : ℕ) (r : α)
    (hr : (K.table t'.store.db).get? i = some r) : Spent K.sequence t' i := by
  by_cases hi : i < (K.table t.store.db).next
  · obtain ⟨r₀, hr₀, -⟩ := hdescends i r hi hr
    exact h.spent (hrows i r₀ hr₀)
  · refine ⟨?_, ?_⟩
    · rw [K.nextval_eq]
      exact Table.lt_next_of_get? hr
    · intro p hp
      have hlt := ht.drawn _ p i (h.pending.mp hp)
      rw [K.nextval_eq] at hlt
      exact hi hlt

/-- A revision keeps tenancy. -/
theorem Revises.tenanted (h : Revises t t') (ht : Tenanted t) : Tenanted t' := by
  have hext := h.extends
  refine {
    drawn := fun q p i hp => Nat.lt_of_lt_of_le (ht.drawn q p i (h.pending.mp hp)) (h.next q)
    apart := fun q p p' i hp hp' => ht.apart q p p' i (h.pending.mp hp) (h.pending.mp hp')
    spentClass := Revises.spent_row (K := .classes) h ht h.classes ht.spentClass
    spentPool := Revises.spent_row (K := .pools) h ht h.pools ht.spentPool
    spentLab := Revises.spent_row (K := .labs) h ht h.labs ht.spentLab
    spentRun := fun i r hr => h.spent (ht.spentRun i r (h.runs ▸ hr))
    lab := ?_
    run := fun i r hr => hext.heldLab (ht.run i r (h.runs ▸ hr))
    assignment := ?_
    vm := fun i v hv => hext.templateIn (ht.vm i v (h.vms ▸ hv))
    operation := ?_ }
  · intro i l hl
    obtain ⟨hclass, hpool⟩ := h.lab i l hl
    exact ⟨hext.heldClass hclass, hext.heldPool hpool⟩
  · intro i a ha
    obtain ⟨hrun, htemplate, hlink⟩ := ht.assignment i a (h.assignments ▸ ha)
    exact ⟨hext.heldRun hrun, hext.templateIn htemplate, fun v hv => hext.vmIn (hlink v hv)⟩
  · intro i o ho v hv
    obtain ⟨organizationId, user, horg, hvm⟩ := ht.operation i o (h.operations ▸ ho) v hv
    exact ⟨organizationId, user, horg, hext.vmIn hvm⟩

/-- What is neither a request of the deployed system nor one of the catalogue: it leaves classes,
pools and labs alone, and templates with their organizations. -/
structure Bystander (t t' : Sys H) : Prop where
  next : ∀ q, t.store.db.nextval q ≤ t'.store.db.nextval q
  classes : t'.store.db.classes.rows = t.store.db.classes.rows
  pools : t'.store.db.desktopPools.rows = t.store.db.desktopPools.rows
  labs : t'.store.db.labs.rows = t.store.db.labs.rows
  templates : t.store.db.vmTemplates.Endures VMTemplate.organizationId t'.store.db.vmTemplates

/-- The environment of the system keeps tenancy where it is a bystander. -/
theorem Bystander.tenable (h : Bystander t t') (henv : t.store.Environment t'.store)
    (hlog : t'.log = t.log) : Tenable t t' := by
  have hpending : ∀ q p i, Pending q p i t' → Pending q p i t := by
    intro q p i hp
    unfold Pending at hp ⊢
    rwa [hlog] at hp
  have hrows {α : Type} {key : α → ℕ} {a b : Table α key} (hab : b.rows = a.rows) (i : ℕ) :
      b.get? i = a.get? i := by
    unfold Table.get?
    rw [hab]
  have hquiet : Quiet t t' := {
    next := h.next
    pending := fun q p i hp => Or.inl (hpending q p i hp)
    apart := fun q p p' i hp hno => absurd (hpending q p i hp) hno
    classes := hrows h.classes
    pools := hrows h.pools
    labs := hrows h.labs
    runs := fun i => by rw [henv.labRuns]
    templates := h.templates
    assignments := fun i => by rw [henv.labAssignments]
    vms := fun i => by rw [henv.studentVms]
    operations := fun i => by rw [henv.durableOperations] }
  exact fun ht => ⟨hquiet.tenanted ht, hquiet.extends⟩

end Revisions

namespace Catalogue

/-! ## What a change is to the tables -/

/-- What every change is to the tables: at most one write to each one of the catalogue, and none
to any other. -/
structure Revised (db db' : Db) : Prop where
  classes : db.classes.Revision Class.organizationId db'.classes
  enrollments : db.enrollments.Revision Enrollment.classId db'.enrollments
  labs : db.labs.Revision Lab.organizationId db'.labs
  pools : db.desktopPools.Revision DesktopPool.organizationId db'.desktopPools
  templates : db.vmTemplates.Endures VMTemplate.organizationId db'.vmTemplates
  users : db'.users = db.users
  organizationMemberships : db'.organizationMemberships = db.organizationMemberships
  labRuns : db'.labRuns = db.labRuns
  labAssignments : db'.labAssignments = db.labAssignments
  labSetupReceipts : db'.labSetupReceipts = db.labSetupReceipts
  studentVms : db'.studentVms = db.studentVms
  vmidAllocators : db'.vmidAllocators = db.vmidAllocators
  durableOperations : db'.durableOperations = db.durableOperations

/-- Nothing being revised is a revision. -/
theorem Revised.refl (db : Db) : Revised db db :=
  ⟨.same, .same, .same, .same, .refl _, rfl, rfl, rfl, rfl, rfl, rfl, rfl, rfl⟩

/-- A change revises the tables. -/
theorem CatalogueChange.revised {c : CatalogueChange} {db db' : Db} (h : c.apply db = some db') :
    Revised db db' := by
  have hrefl := Revised.refl db
  cases c with
  | insertClass organizationId payload =>
    cases h
    exact { hrefl with classes := .add _ fun _ => rfl }
  | updateClass id patch =>
    obtain ⟨-, h⟩ := Option.ite_none_right_eq_some.mp h
    cases h
    exact { hrefl with classes := .update id patch.onRow (fun _ => rfl) fun _ => rfl }
  | deleteClass id =>
    cases h
    exact { hrefl with classes := .remove _, enrollments := .remove _, labs := .remove _ }
  | insertEnrollment classId userId role =>
    obtain ⟨-, h⟩ := Option.ite_none_right_eq_some.mp h
    cases h
    exact { hrefl with enrollments := .add _ fun _ => rfl }
  | deleteEnrollment id =>
    cases h
    exact { hrefl with enrollments := .remove _ }
  | insertLab organizationId payload =>
    obtain ⟨-, h⟩ := Option.ite_none_right_eq_some.mp h
    cases h
    exact { hrefl with labs := .add _ fun _ => rfl }
  | updateLab id patch =>
    obtain ⟨-, h⟩ := Option.ite_none_right_eq_some.mp h
    cases h
    exact { hrefl with labs := .update id patch.onRow (fun _ => rfl) fun _ => rfl }
  | deleteLab id =>
    cases h
    exact { hrefl with labs := .remove _ }
  | insertPool organizationId payload =>
    cases h
    exact { hrefl with pools := .add _ fun _ => rfl }
  | updatePool id patch =>
    obtain ⟨-, h⟩ := Option.ite_none_right_eq_some.mp h
    cases h
    exact { hrefl with pools := .update id patch.onRow (fun _ => rfl) fun _ => rfl }
  | deletePool id =>
    obtain ⟨-, h⟩ := Option.ite_none_left_eq_some.mp h
    cases h
    exact { hrefl with pools := .remove _ }
  | insertTemplate organizationId payload =>
    cases h
    exact { hrefl with templates := .add _ _ fun _ => rfl }
  | updateTemplate id patch =>
    obtain ⟨-, h⟩ := Option.ite_none_right_eq_some.mp h
    cases h
    exact { hrefl with templates := .update _ id patch.onRow (fun _ => rfl) fun _ => rfl }

/-- A revision moves no sequence back. -/
theorem Revised.next {db db' : Db} (h : Revised db db') (q : Sequence) :
    db.nextval q ≤ db'.nextval q := by
  cases q with
  | users => exact le_of_eq (by rw [Db.nextval, Db.nextval, h.users])
  | organizationMemberships =>
    exact le_of_eq (by rw [Db.nextval, Db.nextval, h.organizationMemberships])
  | classes => exact h.classes.next_le
  | enrollments => exact h.enrollments.next_le
  | labs => exact h.labs.next_le
  | labRuns => exact le_of_eq (by rw [Db.nextval, Db.nextval, h.labRuns])
  | labAssignments => exact le_of_eq (by rw [Db.nextval, Db.nextval, h.labAssignments])
  | desktopPools => exact h.pools.next_le
  | studentVms => exact le_of_eq (by rw [Db.nextval, Db.nextval, h.studentVms])
  | vmidAllocators => exact le_of_eq (by rw [Db.nextval, Db.nextval, h.vmidAllocators])
  | durableOperations => exact le_of_eq (by rw [Db.nextval, Db.nextval, h.durableOperations])

/-! ## Changes that belong together -/

section Belonging

variable {H : Type} {t : Sys H}

/-- What a change writes of a lab was held for its organization. -/
def CatalogueChange.Belongs (t : Sys H) : CatalogueChange → Prop
  | .insertLab organizationId payload =>
      HeldClass t payload.classId organizationId ∧ HeldPool t payload.defaultPoolId organizationId
  | .updateLab id patch => ∀ poolId, patch.defaultPoolId = some poolId →
      ∃ organizationId, HeldLab t id organizationId ∧ HeldPool t poolId organizationId
  | _ => True

/-- What was held once goes on being held. -/
theorem CatalogueChange.Belongs.extends {c : CatalogueChange} {t' : Sys H} (hc : c.Belongs t)
    (h : Extends t t') : c.Belongs t' := by
  cases c with
  | insertLab organizationId payload => exact ⟨h.heldClass hc.1, h.heldPool hc.2⟩
  | updateLab id patch =>
    intro poolId hpool
    obtain ⟨organizationId, hlab, hheld⟩ := hc poolId hpool
    exact ⟨organizationId, h.heldLab hlab, h.heldPool hheld⟩
  | _ => trivial

/-- A patch of a lab does not change its id. -/
theorem LabPatch.onRow_id (patch : LabPatch) (row : Lab) : (patch.onRow row).id = row.id := rfl

/-- The labs after a change have a class and a pool of their organization. -/
theorem CatalogueChange.labs_belong {c : CatalogueChange} {db : Db} (ht : Tenanted t)
    (hc : c.Belongs t) (h : c.apply t.store.db = some db) (i : ℕ) (l : Lab)
    (hl : db.labs.get? i = some l) :
    HeldClass t l.classId l.organizationId ∧ HeldPool t l.defaultPoolId l.organizationId := by
  cases c with
  | insertLab organizationId payload =>
    obtain ⟨-, h⟩ := Option.ite_none_right_eq_some.mp h
    cases h
    rcases Table.get?_of_add (h := fun _ => rfl) hl with rfl | hold
    · exact hc
    · exact ht.lab i l hold
  | updateLab id patch =>
    obtain ⟨-, h⟩ := Option.ite_none_right_eq_some.mp h
    cases h
    have hl : (t.store.db.labs.update id patch.onRow patch.onRow_id).get? i = some l := hl
    rw [Table.get?_update] at hl
    by_cases hi : i = id
    · rw [if_pos hi] at hl
      obtain ⟨row, hrow, rfl⟩ := Option.map_eq_some_iff.mp hl
      obtain ⟨hclass, hpool⟩ := ht.lab i row hrow
      refine ⟨hclass, ?_⟩
      show HeldPool t (patch.defaultPoolId.getD row.defaultPoolId) row.organizationId
      cases hpatch : patch.defaultPoolId with
      | none => exact hpool
      | some poolId =>
        obtain ⟨organizationId, hlab, hheld⟩ := hc poolId hpatch
        rw [hi] at hrow
        have horg : row.organizationId = organizationId := hlab.eq hrow
        rw [horg]
        exact hheld
    · rw [if_neg hi] at hl
      exact ht.lab i l hl
  | deleteClass id =>
    cases h
    exact ht.lab i l (Table.get?_of_remove hl)
  | deleteLab id =>
    cases h
    exact ht.lab i l (Table.get?_of_remove hl)
  | deletePool id =>
    obtain ⟨-, h⟩ := Option.ite_none_left_eq_some.mp h
    cases h
    exact ht.lab i l hl
  | insertClass organizationId payload =>
    cases h
    exact ht.lab i l hl
  | insertPool organizationId payload =>
    cases h
    exact ht.lab i l hl
  | insertTemplate organizationId payload =>
    cases h
    exact ht.lab i l hl
  | deleteEnrollment id =>
    cases h
    exact ht.lab i l hl
  | _ =>
    obtain ⟨-, h⟩ := Option.ite_none_right_eq_some.mp h
    cases h
    exact ht.lab i l hl

/-- The statement commits nothing, or a change that belongs together. -/
def CatalogueStmt.Belongs (q : CatalogueStmt) (t : Sys H) : Prop :=
  ∀ c, q = .commit (some c) → c.Belongs t

/-- A transaction that is committed made its change. -/
theorem applyChange_of_afterChange {s : Store} {c : Option CatalogueChange} {db : Db}
    {hvalid : db.Constraints} (h : afterChange s c = some ⟨db, hvalid⟩) :
    applyChange c s.db = some db := by
  unfold afterChange at h
  split at h
  · cases h
  · next found hfound =>
    split at h
    · cases h
      exact hfound
    · cases h

/-- A statement changes nothing, or commits a change. -/
theorem exec_cases (q : CatalogueStmt) (s : Store) : exec q s = s ∨
    ∃ c db, ∃ hvalid : db.Constraints, q = .commit (some c) ∧ c.apply s.db = some db ∧
      exec q s = { s with db := db, valid := hvalid } := by
  cases q with
  | select => exact Or.inl rfl
  | commit c =>
    cases hafter : afterChange s c with
    | none =>
      left
      simp only [exec, hafter]
    | some found =>
      obtain ⟨db, hvalid⟩ := found
      have happly := applyChange_of_afterChange hafter
      cases c with
      | none =>
        cases happly
        left
        simp only [exec, hafter]
      | some c =>
        refine Or.inr ⟨c, db, hvalid, rfl, happly, ?_⟩
        simp only [exec, hafter]

/-- Every statement of the catalogue makes a revision. -/
theorem revised_exec (q : CatalogueStmt) (s : Store) : Revised s.db (exec q s).db := by
  rcases exec_cases q s with h | ⟨c, db, hvalid, -, happly, h⟩
  · rw [h]
    exact .refl _
  · rw [h]
    exact CatalogueChange.revised happly

/-- To the deployed system a statement of the catalogue is what the rest of the application may
do. -/
theorem environment_exec (q : CatalogueStmt) (s : Store) : s.Environment (exec q s) := by
  have hrevised := revised_exec q s
  have hsame : (exec q s).clock = s.clock ∧ (exec q s).nonce = s.nonce ∧
      (exec q s).locks = s.locks := by
    rcases exec_cases q s with h | ⟨c, db, hvalid, -, -, h⟩
    · rw [h]
      exact ⟨rfl, rfl, rfl⟩
    · rw [h]
      exact ⟨rfl, rfl, rfl⟩
  exact {
    clock := hsame.1.ge
    nonce := hsame.2.1
    locks := hsame.2.2
    labRuns := hrevised.labRuns
    labAssignments := hrevised.labAssignments
    labSetupReceipts := hrevised.labSetupReceipts
    studentVms := hrevised.studentVms
    vmidAllocators := hrevised.vmidAllocators
    durableOperations := hrevised.durableOperations }

/-- A statement of the catalogue keeps tenancy where its change belongs together. -/
theorem revises_exec {q : CatalogueStmt} (ht : Tenanted t) (hq : q.Belongs t) :
    Revises t { t with store := exec q t.store } := by
  have hrevised := revised_exec q t.store
  have hlab : ∀ i l, (exec q t.store).db.labs.get? i = some l →
      HeldClass t l.classId l.organizationId ∧ HeldPool t l.defaultPoolId l.organizationId := by
    rcases exec_cases q t.store with h | ⟨c, db, hvalid, rfl, happly, h⟩
    · rw [h]
      exact ht.lab
    · rw [h]
      exact c.labs_belong ht (hq c rfl) happly
  exact {
    log := rfl
    next := hrevised.next
    classes := hrevised.classes.descends
    pools := hrevised.pools.descends
    labs := hrevised.labs.descends
    templates := hrevised.templates
    runs := hrevised.labRuns
    assignments := hrevised.labAssignments
    vms := hrevised.studentVms
    operations := hrevised.durableOperations
    lab := hlab }

end Belonging

end Catalogue

end LabGoblin
