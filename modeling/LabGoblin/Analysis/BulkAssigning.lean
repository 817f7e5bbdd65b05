import LabGoblin.Analysis.AutomaticSlot

/-!
# Assigning the slots of a class

`bulk_create_run_assignments` asks for every slot of every student of the class, one after the
other in one transaction. `Filled` says what becomes of the assignments meanwhile. Every request
extends it, whatever row it finds in its slot, and a request whose slot is held changes nothing.
-/

set_option autoImplicit false

namespace LabGoblin

open Interactive

/-! ## What is left -/

/-- The student has an active enrollment in the class, as a student. -/
def ActiveStudent (db : Db) (classId userId : ℕ) : Prop :=
  ∃ e ∈ db.enrollments.rows, e.classId = classId ∧ e.userId = userId ∧ e.isActive = true ∧
    e.role.getD .student = .student

/-- The slots that a bulk assignment asks for. -/
def Asked (db : Db) (lab : Lab) (slots userId slot : ℕ) : Prop :=
  ActiveStudent db lab.classId userId ∧ 1 ≤ slot ∧ slot ≤ slots

/-- The slot has an assignment that is not revoked, or is revoked and still linked to a VM. -/
def SlotHeld (db : Db) (runId userId slot : ℕ) : Prop :=
  ∃ a ∈ db.labAssignments.rows, a.InSlot runId userId slot ∧
    (a.status ≠ .revoked ∨ a.studentVmId ≠ none)

/-- The row after it was assigned again. -/
def LabAssignment.revived (a : LabAssignment) (run : LabRun) (templateId : ℕ) : LabAssignment :=
  { a with templateId := templateId, status := .assigned, expiresAt := run.endsAt }

/-- A new assignment has the id it was made with. -/
@[simp] theorem newAssignment_id (run : LabRun) (userId templateId slot id : ℕ) :
    (newAssignment run userId templateId slot id).id = id := rfl

/-- The table with one row assigned again. -/
def reviveIn (t : Table LabAssignment LabAssignment.id) (id : ℕ) (run : LabRun)
    (templateId : ℕ) : Table LabAssignment LabAssignment.id :=
  t.update id (fun a => a.revived run templateId) fun _ => rfl

/-- The table with a row added for a slot. -/
def addIn (t : Table LabAssignment LabAssignment.id) (run : LabRun)
    (userId templateId slot : ℕ) : Table LabAssignment LabAssignment.id :=
  t.add (newAssignment run userId templateId slot) (newAssignment_id run userId templateId slot)

/-- After a revival the rows are the old ones, one of them assigned again. -/
theorem mem_reviveIn {t : Table LabAssignment LabAssignment.id} {id templateId : ℕ}
    {run : LabRun} {b : LabAssignment} :
    b ∈ (reviveIn t id run templateId).rows ↔
      ∃ a ∈ t.rows, (if a.id = id then a.revived run templateId else a) = b :=
  Table.mem_update

/-- After an addition the rows are the old ones and the new assignment. -/
theorem mem_addIn {t : Table LabAssignment LabAssignment.id} {userId templateId slot : ℕ}
    {run : LabRun} {b : LabAssignment} :
    b ∈ (addIn t run userId templateId slot).rows ↔
      b ∈ t.rows ∨ b = newAssignment run userId templateId slot t.next := by
  simp only [addIn, Table.rows_add, List.mem_append, List.mem_singleton]

/-- A row of a slot that was asked for, which was added or revived. -/
inductive NewRow (run : LabRun) (asked : ℕ → ℕ → Prop) (db : Db) : LabAssignment → Prop
  | added (id userId slot templateId : ℕ) (hnew : db.labAssignments.get? id = none)
      (hasked : asked userId slot) :
      NewRow run asked db (newAssignment run userId templateId slot id)
  | revived (b : LabAssignment) (templateId : ℕ) (hb : b ∈ db.labAssignments.rows)
      (hvacant : b.vacant) (hrun : b.labRunId = run.id) (hasked : asked b.userId b.slotIndex) :
      NewRow run asked db (b.revived run templateId)

/-- Between the two databases `created` rows were added or revived, in slots that were asked for,
and nothing else was changed. -/
structure Filled (run : LabRun) (asked : ℕ → ℕ → Prop) (created : ℕ) (db db' : Db) : Prop where
  others : db' = { db with labAssignments := db'.labAssignments }
  kept : ∀ a ∈ db.labAssignments.rows, a ∈ db'.labAssignments.rows ∨
    (a.vacant ∧ a.labRunId = run.id ∧ asked a.userId a.slotIndex ∧
      ∃ templateId, a.revived run templateId ∈ db'.labAssignments.rows)
  origin : ∀ a ∈ db'.labAssignments.rows, a ∈ db.labAssignments.rows ∨ NewRow run asked db a
  count : (db'.labAssignments.filter fun a => a ∉ db.labAssignments.rows).length = created

/-! ## One request -/

/-- What one request does to the rows that its transaction sees. -/
inductive SlotStep (run : LabRun) (userId slot : ℕ) (db : Db) : Bool → Db → Prop
  | held (a : LabAssignment) (ha : a ∈ db.labAssignments.rows)
      (hslot : a.InSlot run.id userId slot) (hheld : ¬ a.vacant) :
      SlotStep run userId slot db false db
  | revived (a : LabAssignment) (templateId : ℕ) (ha : a ∈ db.labAssignments.rows)
      (hslot : a.InSlot run.id userId slot) (hvacant : a.vacant) :
      SlotStep run userId slot db true
        { db with labAssignments := reviveIn db.labAssignments a.id run templateId }
  | added (templateId : ℕ) :
      SlotStep run userId slot db true
        { db with labAssignments := addIn db.labAssignments run userId templateId slot }

section Step

variable {run : LabRun} {asked : ℕ → ℕ → Prop} {created userId slot : ℕ} {db db' db'' : Db}
  {was : Bool}

/-- Before the first request nothing was filled. -/
theorem Filled.refl (run : LabRun) (asked : ℕ → ℕ → Prop) (db : Db) :
    Filled run asked 0 db db := by
  refine ⟨rfl, fun a ha => .inl ha, fun a ha => .inl ha, ?_⟩
  simp [Table.filter]

/-- A row of before keeps its key. -/
theorem Filled.key_kept (h : Filled run asked created db db') {a : LabAssignment}
    (ha : a ∈ db.labAssignments.rows) : ∃ b ∈ db'.labAssignments.rows, b.id = a.id := by
  rcases h.kept a ha with hkept | ⟨-, -, -, templateId, hrevived⟩
  · exact ⟨a, hkept, rfl⟩
  · exact ⟨_, hrevived, rfl⟩

/-- The vacant rows are rows of before. -/
theorem Filled.of_vacant (h : Filled run asked created db db') {a : LabAssignment}
    (ha : a ∈ db'.labAssignments.rows) (hvacant : a.vacant) : a ∈ db.labAssignments.rows := by
  rcases h.origin a ha with hold | hnew
  · exact hold
  · cases hnew with
    | added id userId slot templateId _ _ => cases hvacant.1
    | revived b templateId _ _ _ _ => cases hvacant.1

/-- A row of a slot that is not vacant holds it. -/
theorem SlotHeld.of_not_vacant {a : LabAssignment} {runId : ℕ} (ha : a ∈ db.labAssignments.rows)
    (hslot : a.InSlot runId userId slot) (h : ¬ a.vacant) : SlotHeld db runId userId slot := by
  refine ⟨a, ha, hslot, ?_⟩
  by_contra hno
  rw [not_or, not_not, not_not] at hno
  exact h hno

/-- A request leaves its slot held. -/
theorem SlotStep.held_after (h : SlotStep run userId slot db was db') :
    SlotHeld db' run.id userId slot := by
  cases h with
  | held a ha hslot hheld => exact .of_not_vacant ha hslot hheld
  | revived a templateId ha hslot _ =>
    refine ⟨a.revived run templateId, mem_reviveIn.mpr ⟨a, ha, if_pos rfl⟩, ?_, ?_⟩
    · exact ⟨hslot.labRunId, hslot.userId, hslot.slotIndex⟩
    · exact .inl nofun
  | added templateId =>
    refine ⟨_, mem_addIn.mpr (.inr rfl), ⟨rfl, rfl, rfl⟩, .inl nofun⟩

/-- A request leaves alone the slots that are held. -/
theorem SlotStep.keeps_held (h : SlotStep run userId slot db was db') {userId' slot' : ℕ}
    (hheld : SlotHeld db run.id userId' slot') : SlotHeld db' run.id userId' slot' := by
  obtain ⟨b, hb, hslot, hb'⟩ := hheld
  refine ⟨b, ?_, hslot, hb'⟩
  cases h with
  | held => exact hb
  | revived a templateId ha _ hvacant =>
    refine mem_reviveIn.mpr ⟨b, hb, if_neg ?_⟩
    intro hid
    rw [db.labAssignments.eq_of_key_eq hb ha hid] at hb'
    rcases hb' with hopen | hlinked
    · exact hopen hvacant.1
    · exact hlinked hvacant.2
  | added templateId =>
    exact mem_addIn.mpr (.inl hb)

/-- A request extends what the ones before it have done. -/
theorem Filled.step (h : Filled run asked created db db') (hasked : asked userId slot)
    (hstep : SlotStep run userId slot db' was db'') :
    Filled run asked (created + was.toNat) db db'' := by
  cases hstep with
  | held => exact h
  | revived a templateId ha hslot hvacant =>
    have hold := h.of_vacant ha hvacant
    have haskeda : asked a.userId a.slotIndex := by
      rw [hslot.userId, hslot.slotIndex]
      exact hasked
    have hnew : a.revived run templateId ∉ db.labAssignments.rows := by
      intro hmem
      have heq : a.revived run templateId = a := db.labAssignments.eq_of_key_eq hmem hold rfl
      have hstatus : AssignmentStatus.assigned = a.status := congrArg LabAssignment.status heq
      rw [hvacant.1] at hstatus
      cases hstatus
    refine ⟨?_, ?_, ?_, ?_⟩
    · conv_lhs => rw [h.others]
    · intro b hb
      rcases h.kept b hb with hkept | ⟨hbvacant, hbrun, hbasked, templateId', hrevived⟩
      · by_cases hid : b.id = a.id
        · have hba := db.labAssignments.eq_of_key_eq hb hold hid
          subst hba
          exact .inr ⟨hvacant, hslot.labRunId, haskeda, templateId,
            mem_reviveIn.mpr ⟨b, ha, if_pos rfl⟩⟩
        · exact .inl (mem_reviveIn.mpr ⟨b, hkept, if_neg hid⟩)
      · refine .inr ⟨hbvacant, hbrun, hbasked, templateId', mem_reviveIn.mpr
          ⟨_, hrevived, if_neg ?_⟩⟩
        intro hid
        have heq := db'.labAssignments.eq_of_key_eq hrevived ha hid
        have hstatus : AssignmentStatus.assigned = a.status := congrArg LabAssignment.status heq
        rw [hvacant.1] at hstatus
        cases hstatus
    · intro b hb
      obtain ⟨c, hc, hbc⟩ := mem_reviveIn.mp hb
      by_cases hid : c.id = a.id
      · rw [if_pos hid] at hbc
        subst hbc
        have hca := db'.labAssignments.eq_of_key_eq hc ha hid
        subst hca
        exact .inr (.revived c templateId hold hvacant hslot.labRunId haskeda)
      · rw [if_neg hid] at hbc
        subst hbc
        exact h.origin c hc
    · have hbefore : decide (a ∉ db.labAssignments.rows) = false := by simpa using hold
      have hafter : decide (a.revived run templateId ∉ db.labAssignments.rows) = true := by
        simpa using hnew
      rw [← h.count]
      exact Table.length_filter_update (f := fun b => b.revived run templateId)
        (p := fun b => decide (b ∉ db.labAssignments.rows)) (fun _ => rfl) (Table.get?_of_mem ha)
        hbefore hafter
  | added templateId =>
    have hnone : db.labAssignments.get? db'.labAssignments.next = none := by
      cases hget : db.labAssignments.get? db'.labAssignments.next with
      | none => rfl
      | some b =>
        obtain ⟨c, hc, hid⟩ := h.key_kept (Table.mem_of_get? hget)
        have hlt := db'.labAssignments.bounded c hc
        have hkey := Table.get?_key hget
        omega
    have hnew : newAssignment run userId templateId slot db'.labAssignments.next ∉
        db.labAssignments.rows := by
      intro hmem
      have hget := Table.get?_of_mem hmem
      rw [show LabAssignment.id (newAssignment run userId templateId slot db'.labAssignments.next) =
        db'.labAssignments.next from rfl, hnone] at hget
      cases hget
    refine ⟨?_, ?_, ?_, ?_⟩
    · conv_lhs => rw [h.others]
    · intro b hb
      rcases h.kept b hb with hkept | ⟨hbvacant, hbrun, hbasked, templateId', hrevived⟩
      · exact .inl (mem_addIn.mpr (.inl hkept))
      · exact .inr ⟨hbvacant, hbrun, hbasked, templateId', mem_addIn.mpr (.inl hrevived)⟩
    · intro b hb
      rcases mem_addIn.mp hb with hold | rfl
      · exact h.origin b hold
      · exact .inr (.added _ _ _ _ hnone hasked)
    · have hcount := h.count
      simp only [Table.filter, addIn, Table.rows_add, List.filter_append, List.length_append] at *
      rw [hcount]
      simp [hnew]

end Step

/-! ## What a transaction sees -/

/-- A drawn id does not disturb a write of an assignment. -/
theorem AssignmentWrite.apply_reserve {w : AssignmentWrite}
    {t t' : Table LabAssignment LabAssignment.id} (h : w.apply t = some t') :
    w.apply t.reserve = some t'.reserve := by
  cases w with
  | insert row => exact Table.insert?_reserve h
  | _ =>
    cases h
    rfl

/-- Drawing a key of an assignment makes no difference to a write that succeeds. -/
theorem Write.apply_draw {w : Write} {db db' : Db} (h : w.apply db = some db') :
    w.apply (db.draw .labAssignments) = some (db'.draw .labAssignments) := by
  cases w with
  | assignment w =>
    obtain ⟨u, hu, rfl⟩ := Option.map_eq_some_iff.mp h
    simp only [Write.apply, Db.draw, AssignmentWrite.apply_reserve hu, Option.map_some]
  | catalogue w =>
    cases w with
    | editLab lab name description pool flags =>
      cases h
      rfl
    | insertReceipt row =>
      simp only [Write.apply, CatalogueWrite.apply, Db.draw] at h ⊢
      split at h
      · cases h
      · rename_i hfree
        cases h
        exact if_neg hfree
    | _ =>
      obtain ⟨u, hu, rfl⟩ := Option.map_eq_some_iff.mp h
      simp only [Write.apply, CatalogueWrite.apply, Db.draw, hu, Option.map_some]
  | _ =>
    obtain ⟨u, hu, rfl⟩ := Option.map_eq_some_iff.mp h
    simp only [Write.apply, Db.draw, hu, Option.map_some]

/-- Writes give the same with an id drawn before them or after. -/
theorem Db.applyAll_draw {ws : List Write} {db db' : Db} (h : Db.applyAll ws db = some db') :
    Db.applyAll ws (db.draw .labAssignments) = some (db'.draw .labAssignments) := by
  induction ws generalizing db with
  | nil =>
    cases h
    rfl
  | cons w ws ih =>
    obtain ⟨u, hu, hrest⟩ := Option.bind_eq_some_iff.mp h
    exact Option.bind_eq_some_iff.mpr ⟨_, Write.apply_draw hu, ih hrest⟩

/-- With its writes so far a transaction sees the database so. -/
structure Sees {H : Type} (t : Sys H) (flushed : List Write) (db : Db) : Prop where
  applied : Db.applyAll flushed t.store.db = some db
  next : db.labAssignments.next = t.store.db.labAssignments.next

section Loop

variable {H : Type} {outside : Outside H} {p : Pid} {t t' : Sys H} {run : LabRun} {lab : Lab}
  {payload : LabAssignmentCreate} {payloads : List LabAssignmentCreate} {flushed : List Write}
  {db : Db}

/-- What a transaction sees is the store with its writes. -/
theorem Sees.withFlushed (h : Sees t flushed db) : t.store.withFlushed flushed = db := by
  rw [Store.withFlushed, h.applied]
  rfl

/-- A request of the loops that returns has passed the checks and made its step. -/
theorem step_of_returns {slot : ℕ} {r : ℕ × Bool × List Write}
    (h : Returns (machine outside) p (createAssignment run lab payload flushed) t r t')
    (hsees : Sees t flushed db) (hslot : payload.slotIndex = some slot) (hpositive : slot ≠ 0) :
    (∃ template, checkAssignment db run lab payload = .ok (template, slot)) ∧
      t'.store.locks = t.store.locks ∧
      ∃ db', SlotStep run payload.userId slot db r.2.1 db' ∧ Sees t' (flushed ++ r.2.2) db' := by
  obtain ⟨template, slot', hcheck, hresult⟩ := returns_createAssignment_flushed.mp h
  rw [hsees.withFlushed] at hcheck hresult
  obtain rfl : slot' = slot := (checkAssignment_ok hcheck).2.2 slot hslot hpositive
  refine ⟨⟨template, hcheck⟩, ?_⟩
  unfold slotOutcome at hresult
  split at hresult
  · rename_i a ha
    obtain ⟨hmem, hin⟩ := assignmentInSlot_some ha
    split at hresult
    · rename_i hvacant
      cases hresult
      refine ⟨rfl, _, .revived a template.id hmem hin hvacant, ?_, hsees.next⟩
      rw [Db.applyAll_append, Sys.after_store, Sys.after_store, Store.exec_select,
        Store.exec_select, hsees.applied]
      rfl
    · rename_i hheld
      cases hresult
      refine ⟨rfl, db, .held a hmem hin hheld, ?_, hsees.next⟩
      rw [List.append_nil]
      exact hsees.applied
  · cases hresult
    refine ⟨rfl, _, .added template.id, ?_, congrArg Nat.succ hsees.next⟩
    have hdrawn := Db.applyAll_draw hsees.applied
    have hinsert : (newAssignment run payload.userId template.id slot'
        t.store.db.labAssignments.next).id = db.labAssignments.next := hsees.next.symm
    rw [Db.applyAll_append]
    show (Db.applyAll flushed (t.store.db.draw .labAssignments)).bind _ = _
    rw [hdrawn]
    have hadmits := Table.admits_reserve hinsert
    simp [Db.applyAll, Write.apply, AssignmentWrite.apply, Db.draw,
      Table.insert?_of_admits hadmits, addIn, Table.add, hsees.next]

/-- With a slot in the request the checks of `_create_assignment` read no assignment. -/
theorem checkAssignment_others {db' : Db} {slot : ℕ}
    (h : db' = { db with labAssignments := db'.labAssignments })
    (hslot : payload.slotIndex = some slot) (hpositive : slot ≠ 0) :
    checkAssignment db' run lab payload = checkAssignment db run lab payload := by
  obtain ⟨userId, templateId, slotIndex⟩ := payload
  subst hslot
  rw [h]
  unfold checkAssignment
  simp only [Option.filter_some, hpositive, ne_eq, not_false_eq_true, decide_true, if_true,
    Option.getD_some]
  rfl

/-- The loops of `bulk_create_run_assignments`, by induction on the requests. -/
theorem filled_of_returns {asked : ℕ → ℕ → Prop} {db₀ : Db} {done r : ℕ × List Write}
    (h : Returns (machine outside) p (createAssignments run lab done payloads) t r t')
    (hsees : Sees t done.2 db) (hfilled : Filled run asked done.1 db₀ db)
    (hasked : ∀ payload ∈ payloads, ∃ slot, payload.slotIndex = some slot ∧ slot ≠ 0 ∧
      asked payload.userId slot) :
    ∃ db', Sees t' r.2 db' ∧ Filled run asked r.1 db₀ db' ∧
      t'.store.locks = t.store.locks ∧
      (∀ userId slot, SlotHeld db run.id userId slot → SlotHeld db' run.id userId slot) ∧
      ∀ payload ∈ payloads, ∀ slot, payload.slotIndex = some slot →
        SlotHeld db' run.id payload.userId slot ∧
          ∃ template, checkAssignment db₀ run lab payload = .ok (template, slot) := by
  induction payloads generalizing done t db with
  | nil =>
    obtain ⟨rfl, rfl⟩ := returns_pure.mp h
    exact ⟨db, hsees, hfilled, rfl, fun _ _ hheld => hheld, nofun⟩
  | cons payload payloads ih =>
    obtain ⟨created, flushed⟩ := done
    unfold createAssignments at h
    obtain ⟨⟨id, was, writes⟩, t₁, hfirst, hrest⟩ := returns_bind_iff.mp h
    obtain ⟨slot, hslot, hpositive, haskedHere⟩ := hasked payload List.mem_cons_self
    obtain ⟨⟨template, hcheck⟩, hlocks₁, db₁, hstep, hsees₁⟩ :=
      step_of_returns hfirst hsees hslot hpositive
    have hfilled₁ := hfilled.step haskedHere hstep
    obtain ⟨db', hsees', hfilled', hlocks, hmore, hheld⟩ := ih hrest hsees₁ hfilled₁
      fun payload hmem => hasked payload (List.mem_cons_of_mem _ hmem)
    refine ⟨db', hsees', hfilled', hlocks.trans hlocks₁, ?_, ?_⟩
    · exact fun userId slot hh => hmore userId slot (hstep.keeps_held hh)
    · intro payload' hmem slot' hslot'
      rcases List.mem_cons.mp hmem with rfl | hmem
      · rw [hslot] at hslot'
        cases hslot'
        rw [checkAssignment_others hfilled.others hslot hpositive] at hcheck
        exact ⟨hmore _ _ hstep.held_after, template, hcheck⟩
      · exact hheld payload' hmem slot' hslot'

/-- By the unique constraint a held slot is found held. -/
theorem assignmentInSlot_of_held (hvalid : db.Constraints) {userId slot : ℕ}
    (h : SlotHeld db run.id userId slot) :
    ∃ a, assignmentInSlot db run.id userId slot = some a ∧
      ¬ (a.status = .revoked ∧ a.studentVmId = none) := by
  obtain ⟨b, hb, hslot, hheld⟩ := h
  cases hfound : assignmentInSlot db run.id userId slot with
  | none =>
    have hfalse := Table.first_none hfound b hb
    simp [hslot.labRunId, hslot.userId, hslot.slotIndex] at hfalse
  | some a =>
    obtain ⟨ha, haslot⟩ := assignmentInSlot_some hfound
    have hab := eq_of_inSlot hvalid ha hb haslot hslot
    subst hab
    refine ⟨a, rfl, ?_⟩
    rintro ⟨hrevoked, hunlinked⟩
    rcases hheld with hopen | hlinked
    · exact hopen hrevoked
    · exact hlinked hunlinked

/-- Where every slot is held the loops do nothing. -/
theorem returns_of_held {created : ℕ}
    (h : ∀ payload ∈ payloads, ∃ template slot,
      checkAssignment t.store.db run lab payload = .ok (template, slot) ∧
        SlotHeld t.store.db run.id payload.userId slot) :
    ∃ t₁, t₁.store = t.store ∧ ∀ r t', Returns (machine outside) p
      (createAssignments run lab (created, []) payloads) t r t' ↔ r = (created, []) ∧ t' = t₁ := by
  induction payloads generalizing t with
  | nil =>
    refine ⟨t, rfl, fun r t' => ?_⟩
    unfold createAssignments
    rw [returns_pure, eq_comm]
  | cons payload payloads ih =>
    obtain ⟨template, slot, hcheck, hheld⟩ := h payload List.mem_cons_self
    obtain ⟨a, ha, hkeeps⟩ := assignmentInSlot_of_held t.store.valid hheld
    let t₂ := (t.after p (.select .rows)).after p (.select .rows)
    obtain ⟨t₁, hstore, hrest⟩ := ih (t := t₂)
      fun payload hmem => h payload (List.mem_cons_of_mem _ hmem)
    refine ⟨t₁, hstore, fun r t' => ?_⟩
    have houtcome : slotOutcome p t₂ (t.store.withFlushed []) run payload.userId template.id slot =
        ((a.id, false, []), t₂) := by
      unfold slotOutcome
      rw [show assignmentInSlot (t.store.withFlushed []) run.id payload.userId slot = some a
        from ha]
      exact if_neg hkeeps
    have hfirst : ∀ x u, Returns (machine outside) p (createAssignment run lab payload []) t x u ↔
        x = (a.id, false, []) ∧ u = t₂ := by
      intro x u
      rw [returns_createAssignment_flushed]
      constructor
      · rintro ⟨template', slot', hcheck', hout⟩
        have hsame : (template', slot') = (template, slot) :=
          Except.ok.inj (hcheck'.symm.trans hcheck)
        cases hsame
        cases hout.trans houtcome
        exact ⟨rfl, rfl⟩
      · rintro ⟨rfl, rfl⟩
        exact ⟨template, slot, hcheck, houtcome.symm⟩
    unfold createAssignments
    rw [returns_bind_iff]
    constructor
    · rintro ⟨x, u, hx, hr⟩
      obtain ⟨rfl, rfl⟩ := (hfirst x u).mp hx
      exact (hrest r t').mp hr
    · intro hr
      exact ⟨_, _, (hfirst _ _).mpr ⟨rfl, rfl⟩, (hrest r t').mpr hr⟩

end Loop

/-! ## The endpoint -/

/-- The students of the class, as `bulk_create_run_assignments` selects them. -/
def activeStudents (db : Db) (lab : Lab) : List ℕ :=
  (db.enrollments.filter fun e =>
    e.classId = lab.classId && e.isActive && e.role.getD .student = .student).map Enrollment.userId

/-- The selected students are those with an active enrollment in the class, as students. -/
theorem mem_activeStudents {db : Db} {lab : Lab} {userId : ℕ} :
    userId ∈ activeStudents db lab ↔ ActiveStudent db lab.classId userId := by
  simp only [activeStudents, Table.filter, List.mem_map, List.mem_filter, Bool.and_eq_true,
    decide_eq_true_eq, ActiveStudent]
  constructor
  · rintro ⟨e, ⟨he, ⟨hclass, hactive⟩, hrole⟩, huser⟩
    exact ⟨e, he, hclass, huser, hactive, hrole⟩
  · rintro ⟨e, he, hclass, huser, hactive, hrole⟩
    exact ⟨e, ⟨he, ⟨hclass, hactive⟩, hrole⟩, huser⟩

/-- The loops ask for the slots of the students, up to the number that was given. -/
theorem mem_slotRequests_iff {db : Db} {lab : Lab} {slots : ℕ} {payload : LabAssignmentCreate} :
    payload ∈ slotRequests (activeStudents db lab) none slots ↔
      ∃ userId slot, Asked db lab slots userId slot ∧ payload = ⟨userId, none, some slot⟩ := by
  simp only [slotRequests, List.mem_flatMap, List.mem_map, List.mem_range, mem_activeStudents]
  constructor
  · rintro ⟨userId, hstudent, i, hi, rfl⟩
    exact ⟨userId, i + 1, ⟨hstudent, by omega, hi⟩, rfl⟩
  · rintro ⟨userId, slot, ⟨hstudent, hpositive, hle⟩, rfl⟩
    refine ⟨userId, hstudent, slot - 1, by omega, ?_⟩
    rw [show slot - 1 + 1 = slot by omega]

/-- The request passes the checks before the loops. -/
structure AdmitsBulk (s : Store) (p : Pid) (caller : Caller) (runId slots : ℕ)
    (organization : OrganizationContext) (run : LabRun) (lab : Lab) : Prop where
  instructor : ∃ user, currentUser s.db caller = .ok user ∧
    resolveOrganizationContext s.db user caller.organizationId = .ok organization ∧
    enforceOrganizationRole organization .instructor = .ok () ∧
    labForUser s.db run.labId organization user = .ok lab
  found : runInOrganization s.db runId organization.id = some run
  free : s.FreeFor p (.labRun run.id)
  notClosed : run.state.closed = false
  quota : 1 ≤ slots ∧ slots ≤ run.maxVmsPerStudent

section Endpoint

variable {H : Type} {outside : Outside H} {p : Pid} {t t' : Sys H} {caller : Caller}
  {runId slots created : ℕ}

/-- The state in which the loops start. -/
def Sys.admitted (t : Sys H) (p : Pid) (runId organizationId : ℕ) : Sys H :=
  (((t.after p (.select .rows)).after p (.lock (.labRun runId organizationId))).after p
    (.select .rows)).after p (.select .rows)

/-- The loops and the commit. -/
theorem returns_loops_commit {prog : Action (ℕ × List Write)} :
    Returns (machine outside) p (prog >>= fun x => commit x.2 >>= fun _ => pure x.1) t created t' ↔
      ∃ writes t₂, Returns (machine outside) p prog t (created, writes) t₂ ∧
        t₂.Enabled p (.commit writes) ∧ (t₂.store.afterCommit writes).isSome ∧
        t' = t₂.after p (.commit writes) := by
  rw [returns_bind_iff]
  constructor
  · rintro ⟨⟨n, writes⟩, t₂, hprog, hrest⟩
    obtain ⟨henabled, hsome, hpure⟩ := returns_commit_bind.mp hrest
    obtain ⟨rfl, rfl⟩ := returns_pure.mp hpure
    exact ⟨writes, t₂, hprog, henabled, hsome, rfl⟩
  · rintro ⟨writes, t₂, hprog, henabled, hsome, rfl⟩
    exact ⟨_, t₂, hprog, returns_commit_bind.mpr ⟨henabled, hsome, returns_pure.mpr ⟨rfl, rfl⟩⟩⟩

/-- The endpoint is its checks, its loops and one commit. -/
theorem returns_bulkCreateRunAssignments :
    Returns (machine outside) p (bulkCreateRunAssignments caller runId slots) t created t' ↔
      ∃ organization run lab, AdmitsBulk t.store p caller runId slots organization run lab ∧
        ∃ writes t₂, Returns (machine outside) p (createAssignments run lab (0, [])
            (slotRequests (activeStudents t.store.db lab) none slots))
            (t.admitted p runId organization.id) (created, writes) t₂ ∧
          t₂.Enabled p (.commit writes) ∧ (t₂.store.afterCommit writes).isSome ∧
          t' = t₂.after p (.commit writes) := by
  unfold bulkCreateRunAssignments openRunForUser
  simp only [bind_assoc, pure_bind, returns_currentInstructor_bind, returns_runForUser_bind,
    returns_raiseIf_bind, returns_select_bind]
  constructor
  · rintro ⟨user, organization, huser, horganization, hrole, q, hq, henabled, run, hrun, lab, hlab,
      hopen, hquota, hrest⟩
    rw [if_pos trivial] at hq
    subst hq
    refine ⟨organization, run, lab, ⟨⟨user, huser, horganization, hrole, hlab⟩, hrun, ?_, ?_, ?_⟩,
      returns_loops_commit.mp hrest⟩
    · refine henabled _ ?_
      have hfound : runInOrganization t.store.db runId organization.id = some run := hrun
      simp [Stmt.needs, LockQuery.locks, hfound]
    · simpa using hopen
    · omega
  · rintro ⟨organization, run, lab, hadmits, hrest⟩
    obtain ⟨user, huser, horganization, hrole, hlab⟩ := hadmits.instructor
    refine ⟨user, organization, huser, horganization, hrole, _, rfl, ?_, run, hadmits.found, lab,
      hlab, ?_, ?_, returns_loops_commit.mpr hrest⟩
    · intro l hl
      rw [if_pos trivial] at hl
      simp only [Stmt.needs, LockQuery.locks, Sys.after_store, Store.exec_select, hadmits.found,
        Option.map_some, Option.toList_some, List.mem_singleton] at hl
      rw [hl]
      exact hadmits.free
    · simp [hadmits.notClosed]
    · have hquota := hadmits.quota
      omega

/-- The run and the lab are rows. -/
theorem AdmitsBulk.rows {s : Store} {organization : OrganizationContext} {run : LabRun} {lab : Lab}
    (h : AdmitsBulk s p caller runId slots organization run lab) :
    s.db.labRuns.get? runId = some run ∧ s.db.labs.get? run.labId = some lab := by
  obtain ⟨user, -, -, -, hlab⟩ := h.instructor
  have hrun := h.found
  unfold runInOrganization at hrun
  rw [Table.first_key_and, Option.filter_eq_some_iff] at hrun
  refine ⟨hrun.1, ?_⟩
  unfold labForUser at hlab
  split at hlab
  · cases hlab
  · rename_i lab' hfound
    unfold labInOrganization at hfound
    rw [Table.first_key_and, Option.filter_eq_some_iff] at hfound
    split at hlab
    · cases hlab
    · cases hlab
      exact hfound.1

/-- A request that passes the checks has one organization, one run and one lab. -/
theorem AdmitsBulk.unique {s : Store} {organization organization' : OrganizationContext}
    {run run' : LabRun} {lab lab' : Lab}
    (h : AdmitsBulk s p caller runId slots organization run lab)
    (h' : AdmitsBulk s p caller runId slots organization' run' lab') :
    organization = organization' ∧ run = run' ∧ lab = lab' := by
  obtain ⟨user, huser, horganization, -, -⟩ := h.instructor
  obtain ⟨user', huser', horganization', -, -⟩ := h'.instructor
  rw [huser] at huser'
  cases huser'
  rw [horganization] at horganization'
  cases horganization'
  have hrun := h.rows.1.symm.trans h'.rows.1
  cases hrun
  have hlab := h.rows.2.symm.trans h'.rows.2
  cases hlab
  exact ⟨rfl, rfl, rfl⟩

/-- The checks before the loops read no assignment. -/
theorem AdmitsBulk.others {s s' : Store} {organization : OrganizationContext} {run : LabRun}
    {lab : Lab} (h : AdmitsBulk s p caller runId slots organization run lab)
    (hdb : s'.db = { s.db with labAssignments := s'.db.labAssignments })
    (hlocks : ∀ e ∈ s'.locks, e ∈ s.locks ∨ e.2 = p) :
    AdmitsBulk s' p caller runId slots organization run lab := by
  refine ⟨?_, ?_, ?_, h.notClosed, h.quota⟩
  · rw [hdb]
    exact h.instructor
  · rw [hdb]
    exact h.found
  · intro e he hlock
    rcases hlocks e he with hold | hown
    · exact h.free e hold hlock
    · exact hown

/-- A commit without writes succeeds and changes nothing. -/
theorem Store.afterCommit_nil (s : Store) : s.afterCommit [] = some ⟨s.db, s.valid⟩ :=
  dif_pos s.valid

/-- Where its loops do nothing the endpoint returns 0 and has written nothing. -/
theorem returns_of_idle {t₁ : Sys H} {organization : OrganizationContext} {run : LabRun}
    {lab : Lab} (h : AdmitsBulk t.store p caller runId slots organization run lab)
    (hidle : ∀ r t', Returns (machine outside) p (createAssignments run lab (0, [])
      (slotRequests (activeStudents t.store.db lab) none slots))
      (t.admitted p runId organization.id) r t' ↔ r = (0, []) ∧ t' = t₁) :
    Returns (machine outside) p (bulkCreateRunAssignments caller runId slots) t created t' ↔
      created = 0 ∧ t' = t₁.after p (.commit []) := by
  rw [returns_bulkCreateRunAssignments]
  constructor
  · rintro ⟨organization', run', lab', hadmits, writes, t₂, hloops, -, -, rfl⟩
    obtain ⟨rfl, rfl, rfl⟩ := h.unique hadmits
    obtain ⟨heq, rfl⟩ := (hidle _ _).mp hloops
    cases heq
    exact ⟨rfl, rfl⟩
  · rintro ⟨rfl, rfl⟩
    refine ⟨organization, run, lab, h, [], t₁, (hidle _ _).mpr ⟨rfl, rfl⟩, nofun, ?_, rfl⟩
    rw [Store.afterCommit_nil]
    rfl

/-- A bulk assignment that succeeds leaves every slot that it asks for held. It adds or revives
as many rows as it says, in these slots, and changes nothing else. The same request right after
it creates nothing and leaves the database as it is. -/
theorem bulkCreateRunAssignments_exact {H : Type} (outside : Outside H) (p : Pid)
    (caller : Caller) (runId slots created : ℕ) (t t' : Sys H)
    (h : Returns (machine outside) p (bulkCreateRunAssignments caller runId slots) t created t') :
    ∃ run lab, t.store.db.labRuns.get? runId = some run ∧ run.state.closed = false ∧
      t.store.db.labs.get? run.labId = some lab ∧
      Filled run (Asked t.store.db lab slots) created t.store.db t'.store.db ∧
      (∀ userId slot, Asked t.store.db lab slots userId slot →
        SlotHeld t'.store.db run.id userId slot) ∧
      ∃ t'', t''.store.db = t'.store.db ∧ ∀ created' u,
        Returns (machine outside) p (bulkCreateRunAssignments caller runId slots) t' created' u ↔
          created' = 0 ∧ u = t'' := by
  obtain ⟨organization, run, lab, hadmits, writes, t₂, hloops, -, hsome, rfl⟩ :=
    returns_bulkCreateRunAssignments.mp h
  have hstart : Sees (t.admitted p runId organization.id) [] t.store.db := ⟨rfl, rfl⟩
  obtain ⟨db', hsees, hfilled, hlocks, -, hheld⟩ :=
    filled_of_returns hloops hstart (.refl run (Asked t.store.db lab slots) t.store.db) (by
      intro payload hmem
      obtain ⟨userId, slot, hasked, rfl⟩ := mem_slotRequests_iff.mp hmem
      exact ⟨slot, rfl, Nat.ne_of_gt hasked.2.1, hasked⟩)
  have hcommit : (t₂.after p (.commit writes)).store.db = db' ∧
      (t₂.after p (.commit writes)).store.locks = t₂.store.locks.filter fun e => e.2 ≠ p := by
    obtain ⟨after, hafter⟩ := Option.isSome_iff_exists.mp hsome
    have happlied := Store.applyAll_of_afterCommit hafter
    rw [hsees.applied] at happlied
    cases happlied
    simp [Store.exec, hafter, Store.release]
  generalize t₂.after p (.commit writes) = t' at hcommit h
  obtain ⟨hdb, hlocks'⟩ := hcommit
  have hall : ∀ userId slot, Asked t.store.db lab slots userId slot →
      SlotHeld db' run.id userId slot ∧ ∃ template,
        checkAssignment t.store.db run lab ⟨userId, none, some slot⟩ = .ok (template, slot) :=
    fun userId slot hasked =>
      hheld _ (mem_slotRequests_iff.mpr ⟨userId, slot, hasked, rfl⟩) slot rfl
  refine ⟨run, lab, hadmits.rows.1, hadmits.notClosed, hadmits.rows.2, ?_, ?_, ?_⟩
  · rw [hdb]
    exact hfilled
  · intro userId slot hasked
    rw [hdb]
    exact (hall userId slot hasked).1
  · have hothers :
        t'.store.db = { t.store.db with labAssignments := t'.store.db.labAssignments } := by
      rw [hdb]
      exact hfilled.others
    have hadmits' : AdmitsBulk t'.store p caller runId slots organization run lab := by
      refine hadmits.others hothers ?_
      intro e he
      rw [hlocks', List.mem_filter, hlocks] at he
      rcases List.mem_append.mp he.1 with hown | hold
      · obtain ⟨l, -, rfl⟩ := List.mem_map.mp hown
        exact .inr rfl
      · exact .inl hold
    have hrequests : ∀ payload ∈ slotRequests (activeStudents t'.store.db lab) none slots,
        ∃ template slot, checkAssignment t'.store.db run lab payload = .ok (template, slot) ∧
          SlotHeld t'.store.db run.id payload.userId slot := by
      intro payload hmem
      have hstudents : activeStudents t'.store.db lab = activeStudents t.store.db lab := by
        rw [hothers]
        rfl
      rw [hstudents] at hmem
      obtain ⟨userId, slot, hasked, rfl⟩ := mem_slotRequests_iff.mp hmem
      obtain ⟨hslot, template, hcheck⟩ := hall userId slot hasked
      rw [← hdb] at hslot
      rw [← checkAssignment_others hothers rfl (Nat.ne_of_gt hasked.2.1)] at hcheck
      exact ⟨template, slot, hcheck, hslot⟩
    obtain ⟨t₁, hstore, hidle⟩ : ∃ t₁, t₁.store = (t'.admitted p runId organization.id).store ∧
        ∀ r u, Returns (machine outside) p (createAssignments run lab (0, [])
          (slotRequests (activeStudents t'.store.db lab) none slots))
          (t'.admitted p runId organization.id) r u ↔ r = (0, []) ∧ u = t₁ :=
      returns_of_held (t := t'.admitted p runId organization.id) hrequests
    refine ⟨t₁.after p (.commit []), ?_, fun created' u => returns_of_idle hadmits' hidle⟩
    rw [Sys.after_store, Store.exec, Store.afterCommit_nil, hstore]
    rfl

end Endpoint

namespace Fixture

set_option maxRecDepth 100000 in
/-- For instance, where the first slot of the student was revoked and the second one is open. -/
theorem bulkCreateRunAssignments_exact_hole :
    ∃ t', Returns (machine anything) 0 (bulkCreateRunAssignments ⟨3, none⟩ 1 2) (start holeStore)
        1 t' ∧
      ∃ run lab, holeStore.db.labRuns.get? 1 = some run ∧
        Filled run (Asked holeStore.db lab 2) 1 holeStore.db t'.store.db := by
  have hpasses : (bulkCreateRunAssignments ⟨3, none⟩ 1 2).passes (machine anything) 0
      (start holeStore) (fun created _ => created = 1) = true := by decide +kernel
  obtain ⟨created, t', hreturns, hcreated⟩ := exists_returns_of_passes hpasses
  obtain rfl : created = 1 := by simpa using hcreated
  obtain ⟨run, lab, hrun, -, -, hfilled, -⟩ :=
    bulkCreateRunAssignments_exact anything 0 ⟨3, none⟩ 1 2 1 (start holeStore) t' hreturns
  exact ⟨t', hreturns, run, lab, hrun, hfilled⟩

end Fixture

end LabGoblin
