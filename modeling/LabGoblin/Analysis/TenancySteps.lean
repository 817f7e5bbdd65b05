import LabGoblin.Analysis.Tenancy

/-!
# What a step does to tenancy

A step that makes nothing visible keeps what is drawn and spent. A commit keeps tenancy when each
of its writes belongs to the organization of the rows that it refers to, which are there or are
inserted by the same commit.
-/

set_option autoImplicit false

namespace LabGoblin

open Interactive

/-! ## The writes of classes and pools -/

def Write.onClass : Write → Option Class
  | .catalogue (.insertClass row) => some row
  | _ => none

/-- The writes that concern the classes are the insertions of classes. -/
theorem Write.onClass_eq_some {w : Write} {c : Class} :
    w.onClass = some c ↔ w = .catalogue (.insertClass c) := by
  constructor
  · intro h
    cases w with
    | catalogue w =>
      cases w with
      | insertClass row =>
        cases h
        rfl
      | _ => cases h
    | _ => cases h
  · rintro rfl
    rfl

/-- The writes of classes. -/
def Write.ofClasses : TableWrites Class Class.id where
  Part := Class
  write := fun row => .catalogue (.insertClass row)
  part := Write.onClass
  table := Db.classes
  insert := id
  target := Class.id
  onRow := fun _ row => row
  change := .insert
  part_eq_some := Write.onClass_eq_some
  change_insert := fun _ => rfl
  change_cases := fun v => Or.inl ⟨v, rfl⟩
  apply_change := by
    intro w db db' h
    cases w with
    | catalogue w =>
      cases w with
      | insertClass row =>
        obtain ⟨t, ht, rfl⟩ := Option.map_eq_some_iff.mp h
        simp [Write.onClass, Change.applyAll, Change.apply, ht]
      | editLab lab name description poolId flags =>
        cases h
        rfl
      | insertReceipt row =>
        have h : (if row.requestId ∈ db.labSetupReceipts.map LabSetupReceipt.requestId then none
          else some { db with labSetupReceipts := db.labSetupReceipts ++ [row] }) = some db' := h
        split at h
        · cases h
        · cases h
          rfl
      | _ =>
        obtain ⟨t, _, rfl⟩ := Option.map_eq_some_iff.mp h
        rfl
    | _ =>
      obtain ⟨t, _, rfl⟩ := Option.map_eq_some_iff.mp h
      rfl

def Write.onPool : Write → Option DesktopPool
  | .catalogue (.insertPool row) => some row
  | _ => none

/-- The writes that concern the pools are the insertions of pools. -/
theorem Write.onPool_eq_some {w : Write} {q : DesktopPool} :
    w.onPool = some q ↔ w = .catalogue (.insertPool q) := by
  constructor
  · intro h
    cases w with
    | catalogue w =>
      cases w with
      | insertPool row =>
        cases h
        rfl
      | _ => cases h
    | _ => cases h
  · rintro rfl
    rfl

/-- The writes of pools. -/
def Write.ofPools : TableWrites DesktopPool DesktopPool.id where
  Part := DesktopPool
  write := fun row => .catalogue (.insertPool row)
  part := Write.onPool
  table := Db.desktopPools
  insert := id
  target := DesktopPool.id
  onRow := fun _ row => row
  change := .insert
  part_eq_some := Write.onPool_eq_some
  change_insert := fun _ => rfl
  change_cases := fun v => Or.inl ⟨v, rfl⟩
  apply_change := by
    intro w db db' h
    cases w with
    | catalogue w =>
      cases w with
      | insertPool row =>
        obtain ⟨t, ht, rfl⟩ := Option.map_eq_some_iff.mp h
        simp [Write.onPool, Change.applyAll, Change.apply, ht]
      | editLab lab name description poolId flags =>
        cases h
        rfl
      | insertReceipt row =>
        have h : (if row.requestId ∈ db.labSetupReceipts.map LabSetupReceipt.requestId then none
          else some { db with labSetupReceipts := db.labSetupReceipts ++ [row] }) = some db' := h
        split at h
        · cases h
        · cases h
          rfl
      | _ =>
        obtain ⟨t, _, rfl⟩ := Option.map_eq_some_iff.mp h
        rfl
    | _ =>
      obtain ⟨t, _, rfl⟩ := Option.map_eq_some_iff.mp h
      rfl

/-! ## Sequences and templates -/

/-- A write draws nothing. -/
theorem Write.nextval_apply {w : Write} {db db' : Db} (h : w.apply db = some db') (q : Sequence) :
    db'.nextval q = db.nextval q := by
  cases w with
  | vm w =>
    obtain ⟨t, ht, rfl⟩ := Option.map_eq_some_iff.mp h
    rw [← VmWrite.apply_change] at ht
    cases q with
    | studentVms => exact Change.next_of_apply ht
    | _ => rfl
  | assignment w =>
    obtain ⟨t, ht, rfl⟩ := Option.map_eq_some_iff.mp h
    rw [← AssignmentWrite.apply_change] at ht
    cases q with
    | labAssignments => exact Change.next_of_apply ht
    | _ => rfl
  | run w =>
    obtain ⟨t, ht, rfl⟩ := Option.map_eq_some_iff.mp h
    rw [← RunWrite.apply_change] at ht
    cases q with
    | labRuns => exact Change.next_of_apply ht
    | _ => rfl
  | operation w =>
    obtain ⟨t, ht, rfl⟩ := Option.map_eq_some_iff.mp h
    rw [← OperationWrite.apply_change] at ht
    cases q with
    | durableOperations => exact Change.next_of_apply ht
    | _ => rfl
  | allocator w =>
    obtain ⟨t, ht, rfl⟩ := Option.map_eq_some_iff.mp h
    cases q with
    | vmidAllocators =>
      cases w with
      | insert row => exact Table.next_of_insert? ht
      | allocate a next =>
        cases ht
        rfl
    | _ => rfl
  | catalogue w =>
    have h : w.apply db = some db' := h
    cases w with
    | editLab lab name description poolId flags =>
      cases h
      cases q <;> rfl
    | insertReceipt row =>
      have h : (if row.requestId ∈ db.labSetupReceipts.map LabSetupReceipt.requestId then none
        else some { db with labSetupReceipts := db.labSetupReceipts ++ [row] }) = some db' := h
      split at h
      · cases h
      · cases h
        cases q <;> rfl
    | _ =>
      obtain ⟨t, ht, rfl⟩ := Option.map_eq_some_iff.mp h
      have hnext := Table.next_of_insert? ht
      cases q <;> first | rfl | exact hnext

/-- A write changes no template. -/
theorem Write.templates_apply {w : Write} {db db' : Db} (h : w.apply db = some db') :
    db'.vmTemplates = db.vmTemplates := by
  cases w with
  | catalogue w =>
    have h : w.apply db = some db' := h
    cases w with
    | editLab lab name description poolId flags =>
      cases h
      rfl
    | insertReceipt row =>
      have h : (if row.requestId ∈ db.labSetupReceipts.map LabSetupReceipt.requestId then none
        else some { db with labSetupReceipts := db.labSetupReceipts ++ [row] }) = some db' := h
      split at h
      · cases h
      · cases h
        rfl
    | _ =>
      obtain ⟨t, -, rfl⟩ := Option.map_eq_some_iff.mp h
      rfl
  | _ =>
    obtain ⟨t, -, rfl⟩ := Option.map_eq_some_iff.mp h
    rfl

/-- Writes draw no id. -/
theorem Db.nextval_applyAll {ws : List Write} {db db' : Db} (h : Db.applyAll ws db = some db')
    (q : Sequence) : db'.nextval q = db.nextval q := by
  induction ws generalizing db with
  | nil =>
    cases h
    rfl
  | cons w ws ih =>
    obtain ⟨u, hu, hrest⟩ := Option.bind_eq_some_iff.mp h
    rw [ih hrest, Write.nextval_apply hu]

/-- Writes change no template. -/
theorem Db.templates_applyAll {ws : List Write} {db db' : Db}
    (h : Db.applyAll ws db = some db') : db'.vmTemplates = db.vmTemplates := by
  induction ws generalizing db with
  | nil =>
    cases h
    rfl
  | cons w ws ih =>
    obtain ⟨u, hu, hrest⟩ := Option.bind_eq_some_iff.mp h
    rw [ih hrest, Write.templates_apply hu]

/-! ## The tables whose ids a request may go on believing in -/

/-- The writes of a table whose rows have an organization that no write changes, and keys from a
sequence. -/
structure Kind (α : Type) (key : α → ℕ) extends TableWrites α key where
  organization : α → ℕ
  sequence : Sequence
  nextval_eq : ∀ db, Db.nextval db sequence = (table db).next
  keeps : ∀ v r, organization (onRow v r) = organization r

def Kind.classes : Kind Class Class.id where
  toTableWrites := Write.ofClasses
  organization := Class.organizationId
  sequence := .classes
  nextval_eq := fun _ => rfl
  keeps := fun _ _ => rfl

def Kind.pools : Kind DesktopPool DesktopPool.id where
  toTableWrites := Write.ofPools
  organization := DesktopPool.organizationId
  sequence := .desktopPools
  nextval_eq := fun _ => rfl
  keeps := fun _ _ => rfl

def Kind.labs : Kind Lab Lab.id where
  toTableWrites := Write.ofLabs
  organization := Lab.organizationId
  sequence := .labs
  nextval_eq := fun _ => rfl
  keeps := by
    intro v r
    cases v <;> rfl

def Kind.runs : Kind LabRun LabRun.id where
  toTableWrites := Write.ofRuns
  organization := LabRun.organizationId
  sequence := .labRuns
  nextval_eq := fun _ => rfl
  keeps := by
    intro v r
    cases v <;> rfl

section Kinds

variable {H : Type} {α : Type} {key : α → ℕ} (K : Kind α key)

/-- The row of the id, if there is one, belongs to the organization. -/
def Kind.Held (t : Sys H) (i organizationId : ℕ) : Prop :=
  (K.table t.store.db).Held (Spent K.sequence t) K.organization i organizationId

/-- The id is held, or the commit inserts a row of the organization under it. -/
def Kind.Known (t : Sys H) (ws : List Write) (i organizationId : ℕ) : Prop :=
  K.Held t i organizationId ∨
    ∃ r, K.write (K.insert r) ∈ ws ∧ key r = i ∧ K.organization r = organizationId

/-- The commit inserts rows only under ids that its transaction has drawn. -/
def Kind.Draws (p : Pid) (t : Sys H) (ws : List Write) : Prop :=
  ∀ r, K.write (K.insert r) ∈ ws → Pending K.sequence p (key r) t

variable {K} {p : Pid} {t : Sys H} {ws : List Write} {db : Db}

/-- An update keeps the organization of its row. -/
theorem Kind.update_keeps {cs : List Write} {i : ℕ} {f : α → α} {hf : ∀ r, key (f r) = key r}
    (h : .update i f hf ∈ K.changes cs) (r : α) : K.organization (f r) = K.organization r := by
  obtain ⟨v, -, -, rfl⟩ := K.mem_of_update h
  exact K.keeps v r

/-- No row is inserted under a spent id. -/
theorem Kind.descends (hdraws : K.Draws p t ws) (h : Db.applyAll ws t.store.db = some db) :
    (K.table t.store.db).Descends (Spent K.sequence t) K.organization (K.table db) := by
  refine Change.descends_of_applyAll (K.applyAll_changes h) ?_ ?_
  · intro r hr hspent
    exact hspent.2 p (hdraws r (K.mem_of_insert hr))
  · exact fun i f hf hmem => K.update_keeps hmem

/-- All that is known of an id agrees. -/
theorem Kind.known_row (hdraws : K.Draws p t ws) (h : Db.applyAll ws t.store.db = some db)
    {i organizationId : ℕ} (hknown : K.Known t ws i organizationId) {r : α}
    (hr : (K.table t.store.db).get? i = some r ∨ K.write (K.insert r) ∈ ws ∧ key r = i) :
    K.organization r = organizationId := by
  have hchanges := K.applyAll_changes h
  rcases hr with hr | ⟨hr, hkey⟩
  · rcases hknown with hheld | ⟨s, hs, hskey, -⟩
    · exact hheld.eq hr
    · have hnone := K.fresh h hs
      rw [hskey, hr] at hnone
      cases hnone
  · rcases hknown with hheld | ⟨s, hs, hskey, horg⟩
    · rw [← hkey] at hheld
      exact absurd (hdraws r hr) (hheld.1.2 p)
    · have hsame := Change.insert_unique hchanges (K.insert_mem hr) (K.insert_mem hs)
        (hskey.trans hkey.symm)
      rw [← hsame]
      exact horg

/-- What is known of an id before a commit is held afterwards. -/
theorem Kind.held_after {t' : Sys H} (hdraws : K.Draws p t ws)
    (h : Db.applyAll ws t.store.db = some db) (hdb : t'.store.db = db)
    (hspent : ∀ i, Spent K.sequence t i → Spent K.sequence t' i)
    (hdrawn : ∀ i, Pending K.sequence p i t → Spent K.sequence t' i)
    {i organizationId : ℕ} (hknown : K.Known t ws i organizationId) :
    K.Held t' i organizationId := by
  unfold Kind.Held
  rw [hdb]
  rcases hknown with hheld | ⟨r, hr, rfl, rfl⟩
  · exact hheld.descends hspent (Kind.descends hdraws h)
  · refine ⟨hdrawn _ (hdraws r hr), ?_⟩
    intro r' hr'
    exact Change.column_of_insert (K.applyAll_changes h) (K.insert_mem hr)
      (fun i f hf hmem => K.update_keeps hmem) hr'

/-- A row that is there after a commit stands under a spent id. -/
theorem Kind.spent_after {t' : Sys H} (hdraws : K.Draws p t ws)
    (h : Db.applyAll ws t.store.db = some db) (hdb : t'.store.db = db)
    (hspent : ∀ i, Spent K.sequence t i → Spent K.sequence t' i)
    (hdrawn : ∀ i, Pending K.sequence p i t → Spent K.sequence t' i)
    (hrows : ∀ i r, (K.table t.store.db).get? i = some r → Spent K.sequence t i) (i : ℕ) (r : α)
    (hr : (K.table t'.store.db).get? i = some r) : Spent K.sequence t' i := by
  rw [hdb] at hr
  refine K.row_after (P := fun _ => Spent K.sequence t' i) h ?_ ?_ ?_ r hr
  · exact fun s hs => hspent i (hrows i s hs)
  · intro s _ hs hkey
    rw [← hkey]
    exact hdrawn _ (hdraws s hs)
  · exact fun _ _ _ _ _ hs => hs

end Kinds

/-! ## Writes that belong together -/

section Belonging

variable {H : Type}

/-- The assignment is there, or is inserted. -/
def KnownAssignment (t : Sys H) (ws : List Write) (i organizationId : ℕ) : Prop :=
  (∃ row, t.store.db.labAssignments.get? i = some row ∧ row.organizationId = organizationId) ∨
    ∃ row, .assignment (.insert row) ∈ ws ∧ row.id = i ∧ row.organizationId = organizationId

/-- The VM record is there, or is inserted. -/
def KnownVm (t : Sys H) (ws : List Write) (i organizationId ownerId : ℕ) : Prop :=
  VmIn t i organizationId ownerId ∨
    ∃ row, .vm (.insert row) ∈ ws ∧ row.id = i ∧ row.organizationId = organizationId ∧
      row.ownerId = ownerId

/-- The rows that a write refers to belong to the organization of the row that it writes. -/
def Write.Belongs (p : Pid) (t : Sys H) (ws : List Write) : Write → Prop
  | .vm (.insert row) => TemplateIn t row.templateId row.organizationId
  | .assignment (.insert a) => Kind.runs.Known t ws a.labRunId a.organizationId ∧
      TemplateIn t a.templateId a.organizationId ∧ a.studentVmId = none
  | .assignment (.reassign a templateId _) => ∃ organizationId,
      KnownAssignment t ws a organizationId ∧ TemplateIn t templateId organizationId
  | .assignment (.reschedule a _ (some templateId)) => ∃ organizationId,
      KnownAssignment t ws a organizationId ∧ TemplateIn t templateId organizationId
  | .assignment (.link a v) => ∃ organizationId user, AssignmentIn t a organizationId user ∧
      ∃ row, .vm (.insert row) ∈ ws ∧ row.id = v ∧ row.organizationId = organizationId ∧
        row.ownerId = user
  | .run (.insert r) => Pending .labRuns p r.id t ∧ Kind.labs.Known t ws r.labId r.organizationId
  | .operation (.insert o) => ∀ v, o.target = .studentVm v → ∃ organizationId user,
      o.organizationId = some organizationId ∧ KnownVm t ws v organizationId user
  | .catalogue (.insertClass c) => Pending .classes p c.id t
  | .catalogue (.insertPool q) => Pending .desktopPools p q.id t
  | .catalogue (.insertLab l) => Pending .labs p l.id t ∧
      Kind.classes.Known t ws l.classId l.organizationId ∧
      Kind.pools.Known t ws l.defaultPoolId l.organizationId
  | .catalogue (.editLab lab _ _ poolId _) => ∃ organizationId,
      Kind.labs.Known t ws lab organizationId ∧ Kind.pools.Known t ws poolId organizationId
  | _ => True

/-! ## Steps that write no row -/

/-- A step that writes no row but templates, and draws ids that nobody has. -/
structure Quiet (t t' : Sys H) : Prop where
  next : ∀ q, t.store.db.nextval q ≤ t'.store.db.nextval q
  pending : ∀ q p i, Pending q p i t' →
    Pending q p i t ∨ t.store.db.nextval q ≤ i ∧ i < t'.store.db.nextval q
  apart : ∀ q p p' i, Pending q p i t' → ¬ Pending q p i t → Pending q p' i t' →
    ¬ Pending q p' i t → p = p'
  classes : ∀ i, t'.store.db.classes.get? i = t.store.db.classes.get? i
  pools : ∀ i, t'.store.db.desktopPools.get? i = t.store.db.desktopPools.get? i
  labs : ∀ i, t'.store.db.labs.get? i = t.store.db.labs.get? i
  runs : ∀ i, t'.store.db.labRuns.get? i = t.store.db.labRuns.get? i
  templates : t.store.db.vmTemplates.Endures VMTemplate.organizationId t'.store.db.vmTemplates
  assignments : ∀ i, t'.store.db.labAssignments.get? i = t.store.db.labAssignments.get? i
  vms : ∀ i, t'.store.db.studentVms.get? i = t.store.db.studentVms.get? i
  operations : ∀ i, t'.store.db.durableOperations.get? i = t.store.db.durableOperations.get? i

/-- A quiet step extends what is held. -/
theorem Quiet.extends {t t' : Sys H} (h : Quiet t t') : Extends t t' where
  spent := by
    rintro q i ⟨hlt, hno⟩
    refine ⟨Nat.lt_of_lt_of_le hlt (h.next q), ?_⟩
    intro p hp
    rcases h.pending q p i hp with hp | ⟨hle, -⟩
    · exact hno p hp
    · omega
  classes := .of_get? h.classes
  pools := .of_get? h.pools
  labs := .of_get? h.labs
  runs := .of_get? h.runs
  templates := h.templates
  assignments := .of_get? h.assignments
  vms := .of_get? h.vms

/-- A quiet step keeps tenancy. -/
theorem Quiet.tenanted {t t' : Sys H} (h : Quiet t t') (ht : Tenanted t) : Tenanted t' := by
  have hext := h.extends
  refine {
    drawn := ?_
    apart := ?_
    spentClass := fun i c hc => hext.spent _ _ (ht.spentClass i c (h.classes i ▸ hc))
    spentPool := fun i q hq => hext.spent _ _ (ht.spentPool i q (h.pools i ▸ hq))
    spentLab := fun i l hl => hext.spent _ _ (ht.spentLab i l (h.labs i ▸ hl))
    spentRun := fun i r hr => hext.spent _ _ (ht.spentRun i r (h.runs i ▸ hr))
    lab := ?_
    run := fun i r hr => hext.heldLab (ht.run i r (h.runs i ▸ hr))
    assignment := ?_
    vm := fun i v hv => hext.templateIn (ht.vm i v (h.vms i ▸ hv))
    operation := ?_ }
  · intro q p i hp
    rcases h.pending q p i hp with hp | ⟨-, hlt⟩
    · exact Nat.lt_of_lt_of_le (ht.drawn q p i hp) (h.next q)
    · exact hlt
  · intro q p p' i hp hp'
    by_cases hi : i < t.store.db.nextval q
    · have hold : ∀ p, Pending q p i t' → Pending q p i t := by
        intro p hp
        rcases h.pending q p i hp with hp | ⟨hle, -⟩
        · exact hp
        · omega
      exact ht.apart q p p' i (hold p hp) (hold p' hp')
    · have hnew : ∀ p, ¬ Pending q p i t := fun p hp => hi (ht.drawn q p i hp)
      exact h.apart q p p' i hp (hnew p) hp' (hnew p')
  · intro i l hl
    obtain ⟨hclass, hpool⟩ := ht.lab i l (h.labs i ▸ hl)
    exact ⟨hext.heldClass hclass, hext.heldPool hpool⟩
  · intro i a ha
    obtain ⟨hrun, htemplate, hlink⟩ := ht.assignment i a (h.assignments i ▸ ha)
    exact ⟨hext.heldRun hrun, hext.templateIn htemplate, fun v hv => hext.vmIn (hlink v hv)⟩
  · intro i o ho v hv
    obtain ⟨organizationId, user, horg, hvm⟩ := ht.operation i o (h.operations i ▸ ho) v hv
    exact ⟨organizationId, user, horg, hext.vmIn hvm⟩

/-- Entries that are no statements draw nothing. -/
theorem mem_openTransaction_append {p : Pid} {es log : List Entry} {x : Stmt × Store}
    (hes : ∀ e ∈ es, ∀ p q s, e ≠ .stmt p q s) (h : x ∈ openTransaction p (es ++ log)) :
    x ∈ openTransaction p log := by
  induction es with
  | nil => exact h
  | cons e es ih =>
    rcases mem_openTransaction_cons h with hold | ⟨heq, -⟩
    · exact ih (fun e' he' => hes e' (List.mem_cons_of_mem e he')) hold
    · exact absurd heq (hes e List.mem_cons_self _ _ _)

/-- A step that adds no statements to the log, and writes nothing. -/
theorem Quiet.of_entries {t t' : Sys H} {E : List Entry} (hlog : t'.log = E ++ t.log)
    (hes : ∀ e ∈ E, ∀ p q s, e ≠ .stmt p q s) (hdb : t'.store.db = t.store.db) : Quiet t t' := by
  have hold : ∀ q p i, Pending q p i t' → Pending q p i t := by
    rintro q p i ⟨s, hmem, hi⟩
    rw [hlog] at hmem
    exact ⟨s, mem_openTransaction_append hes hmem, hi⟩
  exact {
    next := fun q => by rw [hdb]
    pending := fun q p i hp => Or.inl (hold q p i hp)
    apart := fun q p p' i hp hno => absurd (hold q p i hp) hno
    classes := fun i => by rw [hdb]
    pools := fun i => by rw [hdb]
    labs := fun i => by rw [hdb]
    runs := fun i => by rw [hdb]
    templates := .of_get? fun i => by rw [hdb]
    assignments := fun i => by rw [hdb]
    vms := fun i => by rw [hdb]
    operations := fun i => by rw [hdb] }

variable {outside : Outside H} {p : Pid} {t t' : Sys H}

/-- What is drawn after a statement was drawn before, or is what the statement drew. -/
theorem pending_of_exec {q' : Stmt} {q : Sequence} {p' : Pid} {i : ℕ}
    (h : Pending q p' i ((machine outside).exec p q' t)) :
    Pending q p' i t ∨ p' = p ∧ q' = .draw q ∧ i = t.store.db.nextval q := by
  obtain ⟨s, hmem, hi⟩ := h
  rcases mem_openTransaction_cons hmem with hmem | ⟨heq, -⟩
  · exact Or.inl ⟨s, hmem, hi⟩
  · cases heq
    exact Or.inr ⟨rfl, rfl, hi.symm⟩

/-- Drawing from a sequence moves it on by one. -/
theorem Db.nextval_draw (db : Db) (q : Sequence) : (db.draw q).nextval q = db.nextval q + 1 := by
  cases q <;> rfl

/-- Drawing moves no sequence back. -/
theorem Db.nextval_le_draw (db : Db) (q q' : Sequence) :
    db.nextval q ≤ (db.draw q').nextval q := by
  by_cases h : q = q'
  · rw [h, Db.nextval_draw]
    exact Nat.le_succ _
  · cases q <;> cases q' <;> first | exact absurd rfl h | exact Nat.le_refl _

/-- A draw changes no row. -/
structure Db.Drawn (db db' : Db) : Prop where
  classes : db'.classes.rows = db.classes.rows
  pools : db'.desktopPools.rows = db.desktopPools.rows
  labs : db'.labs.rows = db.labs.rows
  templates : db'.vmTemplates = db.vmTemplates
  rows : db.SameRows db'

/-- A draw is one. -/
theorem Db.Drawn.draw (db : Db) (q : Sequence) : db.Drawn (db.draw q) := by
  cases q <;> exact ⟨rfl, rfl, rfl, rfl, rfl, rfl, rfl, rfl⟩

/-- Nothing being drawn changes no row. -/
theorem Db.Drawn.refl (db : Db) : db.Drawn db := ⟨rfl, rfl, rfl, rfl, .refl db⟩

/-- A statement that is no successful commit draws at most. -/
theorem Store.drawn_of_quiet {q : Stmt} {s : Store}
    (h : ∀ ws, q = .commit ws → s.afterCommit ws = none) : s.db.Drawn (s.exec p q).db := by
  cases q with
  | commit ws =>
    rw [Store.exec_commit_none (h ws rfl)]
    exact .refl _
  | draw sq => exact .draw _ _
  | _ => exact .refl _

/-- A statement that commits nothing moves no sequence back. -/
theorem Store.nextval_le_exec {q : Stmt} {s : Store}
    (h : ∀ ws, q = .commit ws → s.afterCommit ws = none) (sq : Sequence) :
    s.db.nextval sq ≤ (s.exec p q).db.nextval sq := by
  cases q with
  | commit ws =>
    rw [Store.exec_commit_none (h ws rfl)]
    exact Nat.le_refl _
  | draw sq' => exact Db.nextval_le_draw _ _ _
  | _ => exact Nat.le_refl _

/-- A statement that commits nothing is a quiet step. -/
theorem Quiet.exec {q : Stmt} (h : ∀ ws, q = .commit ws → t.store.afterCommit ws = none) :
    Quiet t ((machine outside).exec p q t) := by
  have hdrawn : t.store.db.Drawn ((machine outside).exec p q t).store.db :=
    Store.drawn_of_quiet h
  have hrows {α : Type} {key : α → ℕ} {a b : Table α key} (hab : b.rows = a.rows) (i : ℕ) :
      b.get? i = a.get? i := by
    unfold Table.get?
    rw [hab]
  refine {
    next := fun sq => Store.nextval_le_exec h sq
    pending := ?_
    apart := ?_
    classes := hrows hdrawn.classes
    pools := hrows hdrawn.pools
    labs := hrows hdrawn.labs
    runs := hrows hdrawn.rows.labRuns
    templates := .of_get? fun i => by rw [hdrawn.templates]
    assignments := hrows hdrawn.rows.labAssignments
    vms := hrows hdrawn.rows.studentVms
    operations := hrows hdrawn.rows.durableOperations }
  · intro sq p' i hp
    rcases pending_of_exec hp with hp | ⟨-, rfl, rfl⟩
    · exact Or.inl hp
    · refine Or.inr ⟨Nat.le_refl _, ?_⟩
      show _ < (t.store.db.draw sq).nextval sq
      rw [Db.nextval_draw]
      exact Nat.lt_succ_self _
  · intro sq p₁ p₂ i hp₁ hno₁ hp₂ hno₂
    rcases pending_of_exec hp₁ with hp₁ | ⟨rfl, -, -⟩
    · exact absurd hp₁ hno₁
    · rcases pending_of_exec hp₂ with hp₂ | ⟨rfl, -, -⟩
      · exact absurd hp₂ hno₂
      · rfl

/-! ## Commits -/

section Commit

variable {ws : List Write} {db : { db : Db // db.Constraints }}

/-- What a commit leaves of the draws: nothing of its own. -/
theorem pending_of_commit {q : Sequence} {p' : Pid} {i : ℕ}
    (h : Pending q p' i ((machine outside).exec p (.commit ws) t)) :
    Pending q p' i t ∧ p' ≠ p := by
  refine ⟨?_, ?_⟩
  · rcases pending_of_exec h with h | ⟨-, hcontra, -⟩
    · exact h
    · cases hcontra
  · rintro rfl
    obtain ⟨s, hmem, -⟩ := h
    have hpid : (Entry.stmt p' (.commit ws) t.store).pid = p' := rfl
    have hnone : openTransaction p' (.stmt p' (.commit ws) t.store :: t.log) = [] := by
      unfold openTransaction
      rw [entriesOf_cons_self t.log hpid]
      rfl
    have hmem : _ ∈ openTransaction p' (.stmt p' (.commit ws) t.store :: t.log) := hmem
    rw [hnone] at hmem
    cases hmem

section After

variable (hcommit : t.store.afterCommit ws = some db)
include hcommit

/-- After the commit the database is the one that the writes made. -/
theorem db_after : ((machine outside).exec p (.commit ws) t).store.db = db.1 := by
  show (t.store.exec p (.commit ws)).db = db.1
  rw [Store.exec_commit_some hcommit]
  rfl

/-- After the commit the sequences are where they were. -/
theorem nextval_after (q : Sequence) :
    ((machine outside).exec p (.commit ws) t).store.db.nextval q = t.store.db.nextval q := by
  rw [db_after hcommit, Db.nextval_applyAll (Store.applyAll_of_afterCommit hcommit)]

/-- Ids stay spent. -/
theorem spent_after {q : Sequence} {i : ℕ} (hi : Spent q t i) :
    Spent q ((machine outside).exec p (.commit ws) t) i := by
  refine ⟨?_, fun p' hp' => hi.2 p' (pending_of_commit hp').1⟩
  rw [nextval_after hcommit]
  exact hi.1

/-- The ids that the transaction has drawn are spent when it is over. -/
theorem spent_of_pending (ht : Tenanted t) {q : Sequence} {i : ℕ} (hi : Pending q p i t) :
    Spent q ((machine outside).exec p (.commit ws) t) i := by
  refine ⟨?_, ?_⟩
  · rw [nextval_after hcommit]
    exact ht.drawn q p i hi
  · intro p' hp'
    obtain ⟨hold, hne⟩ := pending_of_commit hp'
    exact hne (ht.apart q p' p i hold hi)

end After

section Known

variable (ht : Tenanted t) (hcommit : t.store.afterCommit ws = some db)
include hcommit

/-- No id that was spent before the commit is given to a new row by it. -/
theorem descends_after {α : Type} {key : α → ℕ} {K : Kind α key} (hdraws : K.Draws p t ws) :
    (K.table t.store.db).Descends (Spent K.sequence t) K.organization
      (K.table ((machine outside).exec p (.commit ws) t).store.db) := by
  rw [db_after hcommit]
  exact Kind.descends hdraws (Store.applyAll_of_afterCommit hcommit)

include ht

/-- What is known of an id is held after the commit. -/
theorem held_of_known {α : Type} {key : α → ℕ} {K : Kind α key} (hdraws : K.Draws p t ws)
    {i organizationId : ℕ} (hknown : K.Known t ws i organizationId) :
    K.Held ((machine outside).exec p (.commit ws) t) i organizationId :=
  Kind.held_after hdraws (Store.applyAll_of_afterCommit hcommit) (db_after hcommit)
    (fun _ => spent_after hcommit) (fun _ => spent_of_pending hcommit ht) hknown

/-- The rows stand under spent ids after the commit. -/
theorem spent_rows_after {α : Type} {key : α → ℕ} {K : Kind α key} (hdraws : K.Draws p t ws)
    (hrows : ∀ i r, (K.table t.store.db).get? i = some r → Spent K.sequence t i) (i : ℕ) (r : α)
    (hr : (K.table ((machine outside).exec p (.commit ws) t).store.db).get? i = some r) :
    Spent K.sequence ((machine outside).exec p (.commit ws) t) i :=
  Kind.spent_after hdraws (Store.applyAll_of_afterCommit hcommit) (db_after hcommit)
    (fun _ => spent_after hcommit) (fun _ => spent_of_pending hcommit ht) hrows i r hr

end Known

section Belongs

variable (h : ∀ w ∈ ws, w.Belongs p t ws)
include h

/-- Classes are inserted under ids that were drawn. -/
theorem draws_classes : Kind.classes.Draws p t ws := fun _ hr => h _ hr

/-- Pools are inserted under ids that were drawn. -/
theorem draws_pools : Kind.pools.Draws p t ws := fun _ hr => h _ hr

/-- Labs are inserted under ids that were drawn. -/
theorem draws_labs : Kind.labs.Draws p t ws := fun _ hr => (h _ hr).1

/-- Runs are inserted under ids that were drawn. -/
theorem draws_runs : Kind.runs.Draws p t ws := fun _ hr => (h _ hr).1

end Belongs

/-- No write moves an assignment. -/
theorem AssignmentWrite.onRow_place (w : AssignmentWrite) (a : LabAssignment) :
    (w.onRow a).place = a.place := by
  cases w <;> rfl

/-- No write gives a VM record to anybody else. -/
theorem VmWrite.onRow_place (w : VmWrite) (v : StudentVM) : (w.onRow v).place = v.place := by
  cases w <;> rfl

/-- A commit whose writes belong together is one that the others reckon with. -/
theorem extends_of_commit (hcommit : t.store.afterCommit ws = some db)
    (h : ∀ w ∈ ws, w.Belongs p t ws) :
    Extends t ((machine outside).exec p (.commit ws) t) := by
  have happ := Store.applyAll_of_afterCommit hcommit
  refine {
    spent := fun q i => spent_after hcommit
    classes := descends_after hcommit (draws_classes h)
    pools := descends_after hcommit (draws_pools h)
    labs := descends_after hcommit (draws_labs h)
    runs := descends_after hcommit (draws_runs h)
    templates := ?_
    assignments := ?_
    vms := ?_ }
  · rw [db_after hcommit]
    exact .of_get? fun i => by rw [Db.templates_applyAll happ]
  · rw [db_after hcommit]
    refine Change.endures_of_applyAll (Write.ofAssignments.applyAll_changes happ) ?_
    intro i f hf hmem r
    obtain ⟨v, -, -, rfl⟩ := Write.ofAssignments.mem_of_update hmem
    exact AssignmentWrite.onRow_place v r
  · rw [db_after hcommit]
    refine Change.endures_of_applyAll (Write.ofVms.applyAll_changes happ) ?_
    intro i f hf hmem r
    obtain ⟨v, -, -, rfl⟩ := Write.ofVms.mem_of_update hmem
    exact VmWrite.onRow_place v r

section Invariant

variable (ht : Tenanted t) (hcommit : t.store.afterCommit ws = some db)
  (h : ∀ w ∈ ws, w.Belongs p t ws)
include ht hcommit h

/-- The labs after the commit have classes and pools of their organization. -/
theorem labs_of_commit (i : ℕ) (l : Lab) (hl : db.1.labs.get? i = some l) :
    Kind.classes.Known t ws l.classId l.organizationId ∧
      Kind.pools.Known t ws l.defaultPoolId l.organizationId := by
  have happ := Store.applyAll_of_afterCommit hcommit
  refine (Write.ofLabs.row_after (i := i)
    (P := fun l => (∀ o, Kind.labs.Known t ws i o → l.organizationId = o) ∧
      Kind.classes.Known t ws l.classId l.organizationId ∧
        Kind.pools.Known t ws l.defaultPoolId l.organizationId) happ ?_ ?_ ?_ l hl).2
  · intro l hl
    obtain ⟨hclass, hpool⟩ := ht.lab i l hl
    refine ⟨?_, Or.inl hclass, Or.inl hpool⟩
    exact fun o ho => Kind.known_row (draws_labs h) happ ho (Or.inl hl)
  · intro l _ hl hkey
    obtain ⟨-, hclass, hpool⟩ := h _ hl
    refine ⟨?_, hclass, hpool⟩
    exact fun o ho => Kind.known_row (draws_labs h) happ ho (Or.inr ⟨hl, hkey⟩)
  · intro w hw htarget l hkey hl
    cases w with
    | insert row => exact hl
    | edit lab name description poolId flags =>
      obtain ⟨horg, hclass, -⟩ := hl
      obtain ⟨o, hlab, hpool⟩ := h _ hw
      have htarget : lab = i := htarget
      rw [htarget] at hlab
      refine ⟨horg, hclass, ?_⟩
      show Kind.pools.Known t ws poolId l.organizationId
      rw [horg o hlab]
      exact hpool

/-- The runs after the commit have labs of their organization. -/
theorem runs_of_commit (i : ℕ) (r : LabRun) (hr : db.1.labRuns.get? i = some r) :
    Kind.labs.Known t ws r.labId r.organizationId := by
  refine Write.ofRuns.row_after (i := i)
    (P := fun r => Kind.labs.Known t ws r.labId r.organizationId)
    (Store.applyAll_of_afterCommit hcommit) ?_ ?_ ?_ r hr
  · exact fun r hr => Or.inl (ht.run i r hr)
  · exact fun r _ hr _ => (h _ hr).2
  · intro w hw htarget r hkey hr
    cases w <;> exact hr

/-- The assignments after the commit have runs, templates and VM records of their
organization. -/
theorem assignments_of_commit (i : ℕ) (a : LabAssignment)
    (ha : db.1.labAssignments.get? i = some a) :
    Kind.runs.Known t ws a.labRunId a.organizationId ∧
      TemplateIn t a.templateId a.organizationId ∧
        ∀ v, a.studentVmId = some v → KnownVm t ws v a.organizationId a.userId := by
  have happ := Store.applyAll_of_afterCommit hcommit
  have hfresh : ∀ r, .assignment (.insert r) ∈ ws → t.store.db.labAssignments.get? r.id = none :=
    fun r hr => Write.ofAssignments.fresh happ hr
  refine (Write.ofAssignments.row_after (i := i)
    (P := fun a => ((∀ o, KnownAssignment t ws i o → a.organizationId = o) ∧
      ∀ o u, AssignmentIn t i o u → a.organizationId = o ∧ a.userId = u) ∧
      Kind.runs.Known t ws a.labRunId a.organizationId ∧
        TemplateIn t a.templateId a.organizationId ∧
          ∀ v, a.studentVmId = some v → KnownVm t ws v a.organizationId a.userId) happ
    ?_ ?_ ?_ a ha).2
  · intro a ha
    have ha : t.store.db.labAssignments.get? i = some a := ha
    obtain ⟨hrun, htemplate, hvm⟩ := ht.assignment i a ha
    refine ⟨⟨?_, ?_⟩, Or.inl hrun, htemplate, fun v hv => Or.inl (hvm v hv)⟩
    · rintro o (⟨row, hrow, rfl⟩ | ⟨row, hrow, hkey, -⟩)
      · rw [ha] at hrow
        cases hrow
        rfl
      · have hnone := hfresh row hrow
        rw [hkey, ha] at hnone
        cases hnone
    · rintro o u ⟨row, hrow, rfl, rfl⟩
      rw [ha] at hrow
      cases hrow
      exact ⟨rfl, rfl⟩
  · intro a hnone hins hkey
    have hnone : t.store.db.labAssignments.get? i = none := hnone
    obtain ⟨hrun, htemplate, hvm⟩ := h _ hins
    refine ⟨⟨?_, ?_⟩, hrun, htemplate, ?_⟩
    · rintro o (⟨row, hrow, -⟩ | ⟨row, hrow, hkey', rfl⟩)
      · rw [hnone] at hrow
        cases hrow
      · have hchanges := Write.ofAssignments.applyAll_changes happ
        have hsame := Change.insert_unique hchanges (Write.ofAssignments.insert_mem hrow)
          (Write.ofAssignments.insert_mem hins) (hkey.trans hkey'.symm)
        rw [hsame]
    · rintro o u ⟨row, hrow, -⟩
      rw [hnone] at hrow
      cases hrow
    · intro v hv
      rw [hvm] at hv
      cases hv
  · intro w hw htarget a hkey hP
    obtain ⟨hplace, hrun, htemplate, hvm⟩ := hP
    have hbelongs := h _ hw
    cases w with
    | insert row => exact ⟨hplace, hrun, htemplate, hvm⟩
    | reassign a' templateId expiresAt =>
      obtain ⟨o, ho, htemplate'⟩ := hbelongs
      have htarget : a' = i := htarget
      rw [htarget] at ho
      refine ⟨hplace, hrun, ?_, hvm⟩
      show TemplateIn t templateId a.organizationId
      rw [hplace.1 o ho]
      exact htemplate'
    | status a' st => exact ⟨hplace, hrun, htemplate, hvm⟩
    | link a' v =>
      obtain ⟨o, u, hin, row, hrow, hid, horg, howner⟩ := hbelongs
      have htarget : a' = i := htarget
      rw [htarget] at hin
      obtain ⟨horg', huser'⟩ := hplace.2 o u hin
      refine ⟨hplace, hrun, htemplate, ?_⟩
      rintro v' ⟨⟩
      exact Or.inr ⟨row, hrow, hid, horg.trans horg'.symm, howner.trans huser'.symm⟩
    | unlink a' st => exact ⟨hplace, hrun, htemplate, fun v hv => nomatch hv⟩
    | reschedule a' expiresAt templateId =>
      refine ⟨hplace, hrun, ?_, hvm⟩
      cases templateId with
      | none => exact htemplate
      | some templateId =>
        obtain ⟨o, ho, htemplate'⟩ := hbelongs
        have htarget : a' = i := htarget
        rw [htarget] at ho
        show TemplateIn t templateId a.organizationId
        rw [hplace.1 o ho]
        exact htemplate'

/-- The VM records after the commit have templates of their organization. -/
theorem vms_of_commit (i : ℕ) (v : StudentVM) (hv : db.1.studentVms.get? i = some v) :
    TemplateIn t v.templateId v.organizationId := by
  refine Write.ofVms.row_after (i := i)
    (P := fun v => TemplateIn t v.templateId v.organizationId)
    (Store.applyAll_of_afterCommit hcommit) ?_ ?_ ?_ v hv
  · exact fun v hv => ht.vm i v hv
  · exact fun v _ hv _ => h _ hv
  · intro w hw htarget v hkey hv
    cases w <;> exact hv

/-- The operations after the commit concern VM records of their organization. -/
theorem operations_of_commit (i : ℕ) (o : DurableOperation)
    (ho : db.1.durableOperations.get? i = some o) (v : ℕ) (hv : o.target = .studentVm v) :
    ∃ organizationId user, o.organizationId = some organizationId ∧
      KnownVm t ws v organizationId user := by
  refine Write.ofOperations.row_after (i := i)
    (P := fun o => ∀ v, o.target = .studentVm v → ∃ organizationId user,
      o.organizationId = some organizationId ∧ KnownVm t ws v organizationId user)
    (Store.applyAll_of_afterCommit hcommit) ?_ ?_ ?_ o ho v hv
  · intro o ho v hv
    obtain ⟨organizationId, user, horg, hvm⟩ := ht.operation i o ho v hv
    exact ⟨organizationId, user, horg, Or.inl hvm⟩
  · exact fun o _ ho _ => h _ ho
  · intro w hw htarget o hkey ho
    cases w <;> exact ho

omit ht in
/-- The VM record is there after the commit. -/
theorem vmIn_of_known {v organizationId user : ℕ} (hv : KnownVm t ws v organizationId user) :
    VmIn ((machine outside).exec p (.commit ws) t) v organizationId user := by
  rcases hv with hv | ⟨row, hrow, rfl, rfl, rfl⟩
  · exact (extends_of_commit hcommit h).vmIn hv
  · obtain ⟨r, hr, hplace⟩ := Write.ofVms.row_of_insert (P := fun r => r.place = row.place)
      (Store.applyAll_of_afterCommit hcommit) hrow rfl
      (fun w _ _ r hr => (VmWrite.onRow_place w r).trans hr)
    obtain ⟨horg, howner⟩ := Prod.mk.inj hplace
    refine ⟨r, ?_, horg, howner⟩
    rw [db_after hcommit]
    exact hr

/-- A commit whose writes belong together keeps tenancy. -/
theorem tenanted_of_commit : Tenanted ((machine outside).exec p (.commit ws) t) := by
  have hext : Extends t ((machine outside).exec p (.commit ws) t) :=
    extends_of_commit hcommit h
  have hdb : ((machine outside).exec p (.commit ws) t).store.db = db.1 := db_after hcommit
  refine {
    drawn := ?_
    apart := fun q p₁ p₂ i h₁ h₂ => ht.apart q p₁ p₂ i (pending_of_commit h₁).1
      (pending_of_commit h₂).1
    spentClass := spent_rows_after ht hcommit (draws_classes h) ht.spentClass
    spentPool := spent_rows_after ht hcommit (draws_pools h) ht.spentPool
    spentLab := spent_rows_after ht hcommit (draws_labs h) ht.spentLab
    spentRun := spent_rows_after ht hcommit (draws_runs h) ht.spentRun
    lab := ?_
    run := ?_
    assignment := ?_
    vm := ?_
    operation := ?_ }
  · intro q p' i hp'
    rw [nextval_after hcommit]
    exact ht.drawn q p' i (pending_of_commit hp').1
  · intro i l hl
    rw [hdb] at hl
    obtain ⟨hclass, hpool⟩ := labs_of_commit ht hcommit h i l hl
    exact ⟨held_of_known ht hcommit (draws_classes h) hclass,
      held_of_known ht hcommit (draws_pools h) hpool⟩
  · intro i r hr
    rw [hdb] at hr
    exact held_of_known ht hcommit (draws_labs h) (runs_of_commit ht hcommit h i r hr)
  · intro i a ha
    rw [hdb] at ha
    obtain ⟨hrun, htemplate, hvm⟩ := assignments_of_commit ht hcommit h i a ha
    exact ⟨held_of_known ht hcommit (draws_runs h) hrun, hext.templateIn htemplate,
      fun v hv => vmIn_of_known hcommit h (hvm v hv)⟩
  · intro i v hv
    rw [hdb] at hv
    exact hext.templateIn (vms_of_commit ht hcommit h i v hv)
  · intro i o ho v hv
    rw [hdb] at ho
    obtain ⟨organizationId, user, horg, hvm⟩ := operations_of_commit ht hcommit h i o ho v hv
    exact ⟨organizationId, user, horg, vmIn_of_known hcommit h hvm⟩

end Invariant

end Commit

end Belonging

end LabGoblin
