import LabGoblin.Analysis.Saving
import Mathlib.Data.List.Dedup

/-!
# The programs that save a lab setup

`create_setup` and `edit_setup` keep to what their commits rest on, whatever they read and however
they are interleaved.
-/

set_option autoImplicit false

namespace LabGoblin

open Interactive

/-- What every commit of a setup rests on: it inserts the run or holds its lock, and when it takes
effect it saves the setup that was requested. -/
structure SetupGround {H : Type} (p : Pid) (body : LabSetupBody) (ws : List Write) (t : Sys H)
    (run : ℕ) (lab : Lab) (students : List ℕ) : Prop where
  under : (.labRun run, p) ∈ t.store.locks ∨ ∃ row, .run (.insert row) ∈ ws ∧ row.id = run
  saves : ∀ db, t.store.afterCommit ws = some db →
    SetupCommit body run lab students t.store.db ws

/-- What a commit of `edit_setup` rests on besides: the run and its assignments are locked, and
are what they were when the checks on them passed. -/
structure Edited {H : Type} (p : Pid) (body : LabSetupBody) (t : Sys H) (run : LabRun) (lab : Lab)
    (s : Store) : Prop where
  locked : LockedRun p run t.store
  «open» : run.state.closed = false
  roster : LockedRoster p run.id t.store
  stmt : (.lock (.assignmentsOfRun run.id), s) ∈ openTransaction p t.log
  held : LockedRun p run s
  same : SameRoster run.id s.db t.store.db
  checked : checkEdit s.db body run lab = .ok ()
  ofRun : lab.id = run.labId
  read : ∃ s₀, (.select .rows, s₀) ∈ openTransaction p t.log ∧ LockedRun p run s₀ ∧
    s₀.db.labs.get? lab.id = some lab

/-- What an edit has locked stays as it was within its transaction. -/
theorem Edited.within {H : Type} {p : Pid} {body : LabSetupBody} {t t' : Sys H} {run : LabRun}
    {lab : Lab} {s : Store} (h : Edited p body t run lab s) (hwithin : Within p t t') :
    Edited p body t' run lab s where
  locked := h.locked.kept hwithin.kept
  «open» := h.open
  roster := h.roster.kept hwithin.kept
  stmt := hwithin.since _ h.stmt
  held := h.held
  same := fun a ha => (h.same a ha).trans (h.roster.same hwithin.kept a ha)
  checked := h.checked
  ofRun := h.ofRun
  read := by
    obtain ⟨s₀, hs₀, hread⟩ := h.read
    exact ⟨s₀, hwithin.since _ hs₀, hread⟩

/-- Writes that touch no assignment leave what the transaction sees of them. -/
theorem Store.withFlushed_assignments {s : Store} {ws : List Write}
    (hws : ∀ w ∈ ws, ∀ v, w ≠ .assignment v) :
    (s.withFlushed ws).labAssignments = s.db.labAssignments := by
  unfold Store.withFlushed
  cases h : Db.applyAll ws s.db with
  | none => rfl
  | some db =>
    have hchanges := Write.ofAssignments.applyAll_changes h
    have hnil : Write.ofAssignments.changes ws = [] := by
      unfold TableWrites.changes
      rw [List.flatMap_eq_nil_iff]
      intro w hw
      have hnone : Write.ofAssignments.part w = none := by
        cases hpart : Write.ofAssignments.part w with
        | none => rfl
        | some v => exact absurd (Write.ofAssignments.part_eq_some.mp hpart) (hws w hw v)
      rw [hnone]
      rfl
    rw [hnil] at hchanges
    exact (Option.some.inj hchanges).symm

/-- The writes of `_apply` before it looks at the assignments: of the catalogue, and the insert of
a new run. -/
def BeforeRoster (run slots : ℕ) : Write → Prop
  | .catalogue (.editLab _ _ _ _ _) => False
  | .catalogue _ => True
  | .run (.insert row) => row.id = run ∧ row.maxVmsPerStudent = slots
  | _ => False

section Saving

variable {H : Type} {settings : Settings} {outside : Outside H} {ok : Condition H}
  {ground : Pid → List Write → Sys H → Prop} {p : Pid}

/-- What `_apply` does to an assignment that exists is a write on it. -/
theorem rosterWrites_assignment {body : LabSetupBody} {templateId : ℕ} {students : List ℕ}
    {a : LabAssignment} {w : Write} (h : w ∈ rosterWrites body templateId students a) :
    ∃ v, w = .assignment v := by
  unfold rosterWrites at h
  split at h
  · split at h
    · cases h
    · exact ⟨_, List.mem_singleton.mp h⟩
  · split at h
    · exact ⟨_, List.mem_singleton.mp h⟩
    · cases h

/-- What `_apply` does to the assignments that exist. -/
theorem rosterWrites_forms {body : LabSetupBody} {lab : Lab} {poolId templateId : ℕ}
    {students : List ℕ} {a : LabAssignment} {v : AssignmentWrite} {run : ℕ} {db : Db}
    (ha : a ∈ db.labAssignments.rows) (hrun : a.labRunId = run)
    (hsafe : affectsLinked body lab poolId students a = false)
    (h : .assignment v ∈ rosterWrites body templateId students a) :
    RosterWrite run students body db v := by
  unfold rosterWrites at h
  unfold affectsLinked at hsafe
  by_cases hout : (!students.contains a.userId || decide (body.slots < a.slotIndex)) = true
  · rw [if_pos hout] at h
    rw [hout, Bool.true_or, Bool.and_true] at hsafe
    by_cases hstatus : a.status = .revoked
    · rw [if_pos hstatus] at h
      cases h
    · rw [if_neg hstatus] at h
      cases List.mem_singleton.mp h
      refine .drop a ha hrun ?_ (by simpa using hsafe) hstatus
      rintro ⟨huser, hslot⟩
      simp [huser, Nat.not_lt.mpr hslot] at hout
  · rw [if_neg hout] at h
    simp only [Bool.or_eq_true, Bool.not_eq_true', List.contains_eq_mem, decide_eq_true_eq,
      decide_eq_false_iff_not, not_or, Classical.not_not, Nat.not_lt] at hout
    by_cases hstatus : a.status = .revoked
    · rw [if_neg (by simp [hstatus])] at h
      cases h
    · rw [if_pos hstatus] at h
      cases List.mem_singleton.mp h
      refine .keep a _ ha hrun hout.1 hout.2 hstatus ?_
      intro hlinked
      rw [if_neg]
      simpa using hlinked

section Commit

variable {s₀ s : Store} {run : ℕ} {body : LabSetupBody} {lab : Lab} {poolId templateId : ℕ}
  {students : List ℕ} {head : List Write}

/-- The assignments of the run, as the second half of `_apply` reads them. -/
def assignmentsOf (db : Db) (run : ℕ) : List LabAssignment :=
  db.labAssignments.filter fun a => a.labRunId = run

/-- The assignments of a run are the rows that name it. -/
theorem mem_assignmentsOf {db : Db} {a : LabAssignment} :
    a ∈ assignmentsOf db run ↔ a ∈ db.labAssignments.rows ∧ a.labRunId = run := by
  unfold assignmentsOf Table.filter
  rw [List.mem_filter, decide_eq_true_eq]

/-- Before the loop over the roster, only the assignments that exist have been written. -/
theorem saving_start (hhead : ∀ w ∈ head, ∀ v, w ≠ .assignment v)
    (hsafe : ∀ a ∈ assignmentsOf s₀.db run, affectsLinked body lab poolId students a = false)
    (hkept : s₀.Kept p s) :
    Saving p s₀ run students body
      (head ++ (assignmentsOf s₀.db run).flatMap (rosterWrites body templateId students)) []
      (head ++ (assignmentsOf s₀.db run).flatMap (rosterWrites body templateId students)) s where
  since := hkept
  added := ⟨[], by simp, by simp⟩
  leaves := by
    intro w hw
    rcases List.mem_append.mp hw with hw | hw
    · exact absurd rfl (hhead _ hw w)
    · obtain ⟨a, ha, hw⟩ := List.mem_flatMap.mp hw
      obtain ⟨hmem, hrun⟩ := mem_assignmentsOf.mp ha
      cases rosterWrites_forms hmem hrun (hsafe a ha) hw with
      | insert row _ _ _ _ hstatus hlink _ => exact Or.inl ⟨row, rfl, hstatus, hlink⟩
      | reassign b _ _ _ _ _ _ => exact Or.inr (Or.inl ⟨_, _, _, rfl⟩)
      | drop b hb _ hout _ _ =>
        obtain ⟨b', hb', hsame⟩ := hkept.places _ _ (Table.get?_of_mem hb)
        refine Or.inr (Or.inr (Or.inr ⟨b', hb', ?_⟩))
        rw [hsame.userId, hsame.slotIndex]
        exact hout
      | keep b _ _ _ _ _ _ _ => exact Or.inr (Or.inr (Or.inl ⟨_, _, _, rfl⟩))
  saved := by
    intro t ht hsettled
    have hsame := same_of_settled (.refl p s₀) (hkept.trans ht) hsettled
    refine ⟨?_, by simp⟩
    intro w hw
    rcases List.mem_append.mp hw with hw | hw
    · exact absurd rfl (hhead _ hw w)
    · obtain ⟨a, ha, hw⟩ := List.mem_flatMap.mp hw
      obtain ⟨hmem, hrun⟩ := mem_assignmentsOf.mp ha
      exact rosterWrites_forms ((hsame a hrun).mp hmem) hrun (hsafe a ha) hw

/-- A student of the roster and a slot are among the requests of the loop. -/
theorem mem_rosterRequests {u n slots : ℕ} (hu : u ∈ sortedSet students) (hpositive : 1 ≤ n)
    (hn : n ≤ slots) :
    ∃ r ∈ rosterRequests (sortedSet students) templateId slots, r.userId = u ∧
      r.slotIndex = some n := by
  refine ⟨⟨u, some templateId, some n⟩, ?_, rfl, rfl⟩
  unfold rosterRequests slotRequests
  simp only [List.mem_flatMap, List.mem_singleton, List.mem_map, List.mem_range]
  refine ⟨u, hu, u, rfl, n - 1, by omega, ?_⟩
  simp only [LabAssignmentCreate.mk.injEq, true_and, Option.some.injEq]
  omega

/-- Sorting the students loses none. -/
theorem mem_sortedSet {u : ℕ} : u ∈ sortedSet students ↔ u ∈ students := by
  unfold sortedSet
  rw [List.mem_insertionSort, List.mem_dedup]

/-- Before the assignments are looked at no assignment is written. -/
theorem BeforeRoster.not_assignment {slots : ℕ} {w : Write} (h : BeforeRoster run slots w)
    (v : AssignmentWrite) :
    w ≠ .assignment v := by
  rintro rfl
  exact h

/-- What the transaction commits once the loop is done, when the roster stayed as it was or the run
is new. -/
theorem Saving.commits {flushed ws : List Write} {name name' description : String}
    {flags : LabFlags} {activatedAt : Option Time} {receipt : LabSetupReceipt} {t : Store}
    (hbefore : ∀ w ∈ flushed, BeforeRoster run body.slots w)
    (hsafe : ∀ a ∈ assignmentsOf s₀.db run, affectsLinked body lab poolId students a = false)
    (hroster : students = body.studentIds ++ flushed.filterMap Write.newUser)
    (h : Saving p s₀ run students body
      (flushed ++ [.catalogue (.editLab lab.id name description poolId flags),
        .run (.edit run name' body.startsAt body.endsAt body.slots body.state.toRunState
          activatedAt)] ++
        (assignmentsOf s₀.db run).flatMap (rosterWrites body templateId students))
      (rosterRequests (sortedSet students) templateId body.slots) ws s)
    (ht : s.Kept p t) (hsettled : LockedRoster p run s₀ ∨ t.db.labRuns.get? run = none) :
    SetupCommit body run lab students t.db (ws ++ [.catalogue (.insertReceipt receipt)]) := by
  have hsame := same_of_settled (.refl p s₀) (h.since.trans ht) hsettled
  have hsaved := h.saved t ht hsettled
  obtain ⟨new, hws, hnew⟩ := h.added
  have hbase : ∀ a ∈ assignmentsOf s₀.db run, ∀ w ∈ rosterWrites body templateId students a,
      w ∈ ws ++ [.catalogue (.insertReceipt receipt)] := by
    intro a ha w hw
    rw [hws]
    have : w ∈ (assignmentsOf s₀.db run).flatMap (rosterWrites body templateId students) :=
      List.mem_flatMap.mpr ⟨a, ha, hw⟩
    simp [this]
  have hfound : ∀ a ∈ t.db.labAssignments.rows, a.labRunId = run →
      a ∈ assignmentsOf s₀.db run :=
    fun a ha hrun => mem_assignmentsOf.mpr ⟨(hsame a hrun).mpr ha, hrun⟩
  have hlab : ∀ l n d pool f, .catalogue (.editLab l n d pool f) ∈
      ws ++ [.catalogue (.insertReceipt receipt)] → l = lab.id ∧ pool = poolId := by
    intro l n d pool f hw
    rw [hws] at hw
    simp only [List.mem_append, List.mem_cons, List.not_mem_nil, or_false, reduceCtorEq,
      Write.catalogue.injEq, CatalogueWrite.editLab.injEq] at hw
    rcases hw with ((hw | ⟨rfl, -, -, rfl, -⟩) | hw) | hw
    · exact (hbefore _ hw).elim
    · exact ⟨rfl, rfl⟩
    · obtain ⟨a, _, hw⟩ := List.mem_flatMap.mp hw
      obtain ⟨_, heq⟩ := rosterWrites_assignment hw
      cases heq
    · rcases hnew _ hw with ⟨v, hv⟩ | ⟨row, hrow⟩
      · cases hv
      · cases hrow
  refine ⟨?_, ?_, ?_, ?_, ?_, ?_, ?_, fun l n d pool f hw => (hlab l n d pool f hw).1, ?_⟩
  · refine ⟨name', activatedAt, ?_⟩
    rw [hws]
    simp
  · intro w hw
    rw [hws] at hw
    simp only [List.mem_append, List.mem_cons, List.not_mem_nil, or_false, reduceCtorEq,
      false_or, Write.run.injEq] at hw
    rcases hw with ((hw | rfl) | hw) | hw
    · have hw := hbefore _ hw
      cases w with
      | insert row => exact Or.inl ⟨row, rfl, hw⟩
      | _ => exact hw.elim
    · exact Or.inr ⟨name', activatedAt, rfl⟩
    · obtain ⟨a, _, hw⟩ := List.mem_flatMap.mp hw
      obtain ⟨_, heq⟩ := rosterWrites_assignment hw
      cases heq
    · rcases hnew _ hw with ⟨v, hv⟩ | ⟨row, hrow⟩
      · cases hv
      · cases hrow
  · intro w hw
    rcases List.mem_append.mp hw with hw | hw
    · exact hsaved.assignments w hw
    · cases List.mem_singleton.mp hw
  · intro a ha hrun hout
    have hmem := hfound a ha hrun
    have hsafe := hsafe a hmem
    have hcond : (!students.contains a.userId || decide (body.slots < a.slotIndex)) = true := by
      by_contra hcond
      simp only [Bool.or_eq_true, Bool.not_eq_true', List.contains_eq_mem, decide_eq_true_eq,
        decide_eq_false_iff_not, not_or, Classical.not_not, Nat.not_lt] at hcond
      exact hout hcond
    constructor
    · unfold affectsLinked at hsafe
      rw [hcond, Bool.true_or, Bool.and_true] at hsafe
      simpa using hsafe
    · intro hstatus
      refine hbase a hmem _ ?_
      unfold rosterWrites
      rw [if_pos hcond, if_neg hstatus]
      exact List.mem_singleton_self _
  · intro a ha hrun huser hslot hstatus
    refine ⟨_, hbase a (hfound a ha hrun) (.assignment (.reschedule a.id body.endsAt
      (if a.studentVmId.isNone then some templateId else none))) ?_⟩
    unfold rosterWrites
    rw [if_neg, if_pos hstatus]
    · exact List.mem_singleton_self _
    · simp [huser, Nat.not_lt.mpr hslot]
  · intro u hu n hpositive hn
    obtain ⟨r, hr, huser, hslot⟩ := mem_rosterRequests (mem_sortedSet.mpr hu) hpositive hn
    rw [← huser]
    exact (hsaved.filled r hr n hslot).mono (fun w hw => List.mem_append_left _ hw)
      fun _ _ => Iff.rfl
  · rw [hws]
    refine hroster.trans (congrArg _ ?_)
    have hrest : new.filterMap Write.newUser = [] := by
      rw [List.filterMap_eq_nil_iff]
      intro w hw
      rcases hnew w hw with ⟨v, rfl⟩ | ⟨row, rfl⟩ <;> rfl
    have hwrites : ((assignmentsOf s₀.db run).flatMap
        (rosterWrites body templateId students)).filterMap Write.newUser = [] := by
      rw [List.filterMap_eq_nil_iff]
      intro w hw
      obtain ⟨a, -, hw⟩ := List.mem_flatMap.mp hw
      obtain ⟨v, rfl⟩ := rosterWrites_assignment hw
      rfl
    rw [List.filterMap_append, List.filterMap_append, List.filterMap_append,
      List.filterMap_append, hrest, hwrites]
    simp [Write.newUser]
  · rintro ⟨a, ha, hrun, hlinked⟩ l n d pool f hw
    have hsafe := hsafe a (hfound a ha hrun)
    have hpool : lab.defaultPoolId = poolId := by
      unfold affectsLinked at hsafe
      rw [Option.isSome_iff_ne_none.mpr hlinked, Bool.true_and] at hsafe
      simpa using (Bool.or_eq_false_iff.mp hsafe).2
    rw [(hlab l n d pool f hw).2]
    exact hpool.symm

end Commit

/-! ## The programs -/

variable {t : Sys H} {user : User} {organization : OrganizationContext}

/-- The second half of `_apply`, from a point at which the run is locked or about to be
inserted. -/
theorem wp_saveSetup {payload : LabSetupWrite} {run : LabRun} {lab : Lab} {poolId : ℕ}
    {students : List ℕ} {flushed : List Write}
    (hbefore : ∀ w ∈ flushed, BeforeRoster run.id payload.body.slots w)
    (hroster : students = payload.body.studentIds ++ flushed.filterMap Write.newUser)
    (hrun : (.labRun run.id, p) ∈ t.store.locks ∨
      ∃ row, .run (.insert row) ∈ flushed ∧ row.id = run.id)
    (hground : ∀ ws t', Within p t t' → (∀ w ∈ flushed, w ∈ ws) →
      SetupGround p payload.body ws t' run.id lab students → ground p ws t') :
    wp ((locking settings outside ok ground).contract p)
      (saveSetup payload user organization run lab poolId students flushed)
      (fun _ t' => t.log <:+ t'.log) t := by
  unfold saveSetup
  refine wp_readStmt (.refl p t) trivial ?_
  intro t₁ h₁ _ _ h₁'
  have hsees : ((t₁.store.withFlushed flushed).labAssignments.filter fun a =>
      a.labRunId = run.id) = assignmentsOf t₁.store.db run.id := by
    rw [Store.withFlushed_assignments fun w hw v => (hbefore w hw).not_assignment v]
    rfl
  refine wp_raiseIf_bind (fun hsafe => ?_) h₁'.log
  rw [hsees] at hsafe ⊢
  have hsafe : ∀ a ∈ assignmentsOf ((machine outside).exec p
      (.lock (.assignmentsOfRun run.id)) t₁).store.db run.id,
      affectsLinked payload.body lab poolId students a = false := by
    intro a ha
    cases haff : affectsLinked payload.body lab poolId students a with
    | false => rfl
    | true => exact absurd (List.any_eq_true.mpr ⟨a, ha, haff⟩) hsafe
  refine wp_readStmt (.refl p _) trivial ?_
  intro t₂ _ _ _ h₂
  refine wp_check_bind (fun template _ => ?_) fun _ => h₁'.log.trans h₂.log
  unfold utcnow
  rw [bind_assoc]
  refine wp_readStmt h₂ trivial ?_
  intro t₃ _ _ _ h₃
  rw [pure_bind]
  have hhead : ∀ w ∈ flushed ++ [.catalogue (.editLab lab.id (strip payload.body.name)
        payload.body.description poolId payload.body.flags),
      .run (.edit run.id (strip payload.body.name) payload.body.startsAt
        payload.body.endsAt payload.body.slots payload.body.state.toRunState
        (if payload.body.state = .active ∧ run.activatedAt = none then some t₃.store.clock
          else none))], ∀ v, w ≠ .assignment v := by
    intro w hw v
    simp only [List.mem_append, List.mem_cons, List.not_mem_nil, or_false] at hw
    rcases hw with hw | rfl | rfl
    · exact (hbefore w hw).not_assignment v
    · simp
    · simp
  have hstart : Saving p _ run.id students payload.body _ []
      (_ ++ (assignmentsOf _ run.id).flatMap (rosterWrites payload.body template.id students)) _ :=
    saving_start hhead hsafe h₃.kept
  refine wp_reading h₃ (reads_saveRoster rfl rfl (fun u hu => mem_sortedSet.mp hu) hstart) ?_
    fun _ t' h' => h₁'.log.trans h'.log
  intro ws s₄ t₄ h₄ hkept₄ hsaved
  refine wp_readStmt (.refl p t₄) trivial ?_
  intro t₅ _ _ _ h₅
  refine wp_check_bind (fun result _ => ?_) fun _ => (h₁'.log.trans h₄.log).trans h₅.log
  rw [wp_bind]
  refine wp_grounded h₅ ?_ fun r t' h' => ?_
  · intro t₆ h₆
    have hkept₆ : s₄.Kept p t₆.store := hkept₄.trans h₆.kept
    have hmem : ∀ w ∈ flushed, w ∈ ws := by
      intro w hw
      obtain ⟨new, rfl, -⟩ := hsaved.added
      simp [hw]
    refine hground _ t₆ ((h₁'.trans h₄).trans h₆)
      (fun w hw => List.mem_append_left _ (hmem w hw)) ⟨?_, ?_⟩
    · rcases hrun with hlock | ⟨row, hrow, hid⟩
      · exact Or.inl (((h₁'.trans h₄).trans h₆).kept.locks _ hlock)
      · exact Or.inr ⟨row, List.mem_append_left _ (hmem _ hrow), hid⟩
    · intro db hcommit
      refine hsaved.commits hbefore hsafe hroster hkept₆ ?_
      rcases hrun with hlock | ⟨row, hrow, hid⟩
      · refine Or.inl ⟨h₁'.kept.locks _ hlock, ?_⟩
        intro a ha hrun
        refine List.mem_append_left _ (List.mem_map.mpr ⟨_, ?_, rfl⟩)
        exact List.mem_map.mpr ⟨a, List.mem_filter.mpr ⟨ha, decide_eq_true hrun⟩, rfl⟩
      · have hfresh := Store.run_fresh hcommit (List.mem_append_left _ (hmem _ hrow))
        rw [hid] at hfresh
        exact Or.inr hfresh
  · have hlog := (h₁'.log.trans h₄.log).trans h'
    cases r <;> exact hlog

/-- The roster is that of the request and the accounts that the writes create; the writes are
inserts of the catalogue. -/
structure Enlists (body : LabSetupBody) (students : List ℕ) (ws : List Write) : Prop where
  roster : students = body.studentIds ++ ws.filterMap Write.newUser
  before : ∀ w ∈ ws, ∀ run, BeforeRoster run body.slots w

section Reading

variable {le : Store → Store → Prop} {s : Store} {body : LabSetupBody}

/-- The loop over the requested accounts, by induction on them. -/
theorem reads_createAccounts {roleId : ℕ} {items : List (SetupStudentBody × Password)}
    {done : List ℕ × List Write} (hdone : Enlists body done.1 done.2) :
    Reads le (fun r _ => Enlists body r.1 r.2)
      (createAccounts settings organization roleId done items) s := by
  induction items generalizing done s with
  | nil => exact hdone
  | cons item items ih =>
    obtain ⟨ids, flushed⟩ := done
    obtain ⟨item, password⟩ := item
    unfold createAccounts
    simp only [reads_bind, reads_select, reads_check, reads_draw]
    rintro s₁ _ ⟨username, email⟩ _ s₂ _ s₃ _
    refine ih ⟨?_, ?_⟩
    · have hroster : ids = _ := hdone.roster
      show ids ++ _ = _
      rw [hroster, List.filterMap_append]
      simp [Write.newUser]
    · intro w hw run
      simp only [List.mem_append, List.mem_cons, List.not_mem_nil, or_false] at hw
      rcases hw with hw | rfl | rfl
      · exact hdone.before w hw run
      · trivial
      · trivial

/-- Making the accounts of new students reads, and puts them on the roster. -/
theorem reads_newStudents {payload : LabSetupWrite} {flushed : List Write}
    (hbefore : ∀ w ∈ flushed, ∀ run, BeforeRoster run payload.body.slots w)
    (hnew : flushed.filterMap Write.newUser = []) :
    Reads le (fun r _ => Enlists payload.body r.1 r.2)
      (newStudents settings payload user organization flushed) s := by
  have hstart : Enlists payload.body payload.body.studentIds flushed := ⟨by simp [hnew], hbefore⟩
  unfold newStudents
  simp only [reads_bind, reads_select, reads_raiseIf]
  intro s' _ _ _
  split
  · exact trivial
  · exact hstart
  · exact reads_createAccounts hstart

/-- The class and the pool are found, or inserted. -/
theorem reads_setupClass :
    Reads le (fun r _ => (∀ w ∈ r.2, ∀ run, BeforeRoster run body.slots w) ∧
      r.2.filterMap Write.newUser = []) (setupClass body user organization) s := by
  unfold setupClass
  split
  · simp
  · rw [reads_bind, reads_draw]
    intro s' _
    refine ⟨?_, rfl⟩
    intro w hw run
    rw [List.mem_singleton.mp hw]
    trivial

/-- Setting up the pool reads, and creates no account. -/
theorem reads_setupPool :
    Reads le (fun r _ => (∀ w ∈ r.2, ∀ run, BeforeRoster run body.slots w) ∧
      r.2.filterMap Write.newUser = []) (setupPool body organization) s := by
  unfold setupPool
  split
  · simp
  · simp only [reads_bind, reads_select, reads_orRaise, reads_raiseIf, reads_draw]
    intro s₁ _ template _ _ s₂ _
    refine ⟨?_, rfl⟩
    intro w hw run
    rw [List.mem_singleton.mp hw]
    trivial

/-- The run of the setup is the one that is edited, or it is inserted. -/
theorem reads_setupRun {classId poolId : ℕ} {edited : Option (LabRun × Lab)} :
    Reads le (fun r _ => (∀ w ∈ r.2.2, BeforeRoster r.1.id body.slots w) ∧
        r.2.2.filterMap Write.newUser = [] ∧
        (edited = some (r.1, r.2.1) ∨
          edited = none ∧ ∃ row, .run (.insert row) ∈ r.2.2 ∧ row.id = r.1.id))
      (setupRun body user organization classId poolId edited) s := by
  unfold setupRun
  cases edited with
  | some edited =>
    obtain ⟨run, lab⟩ := edited
    simp
  | none =>
    simp only [reads_bind, reads_draw]
    intro s₁ _ s₂ _
    refine ⟨?_, rfl, Or.inr ⟨trivial, _, List.mem_cons_of_mem _ List.mem_cons_self, rfl⟩⟩
    intro w hw
    simp only [List.mem_cons, List.not_mem_nil, or_false] at hw
    rcases hw with rfl | rfl
    · trivial
    · exact ⟨rfl, rfl⟩

/-- Finding a run for a user reads. -/
theorem reads_runForUser {runId : ℕ} :
    Reads le (fun _ _ => True) (runForUser runId organization user false) s := by
  unfold runForUser
  simp [Stmt.reads]

/-- Replaying a receipt reads. -/
theorem reads_replayReceipt {payload : LabSetupWrite} {runId : Option ℕ}
    {receipt : LabSetupReceipt} :
    Reads le (fun _ _ => True) (replayReceipt payload user organization runId receipt) s := by
  unfold replayReceipt
  simp only [reads_bind, reads_raiseIf]
  intro _ _
  refine Reads.mono reads_runForUser ?_
  rintro ⟨run, lab⟩ s' _
  simp

end Reading

/-- The lab that an endpoint finds is the row under its key. -/
theorem labForUser_ok {db : Db} {labId : ℕ} {lab : Lab}
    (h : labForUser db labId organization user = .ok lab) :
    db.labs.get? lab.id = some lab ∧ lab.id = labId := by
  unfold labForUser at h
  cases hfound : labInOrganization db labId organization.id with
  | none =>
    rw [hfound] at h
    cases h
  | some found =>
    rw [hfound] at h
    simp only at h
    split at h
    · cases h
    · cases h
      obtain ⟨hmem, hcond⟩ := Table.first_some hfound
      simp only [Bool.and_eq_true, decide_eq_true_eq] at hcond
      exact ⟨Table.get?_of_mem hmem, hcond.1⟩

/-- The run and the lab that are edited are locked and checked. -/
theorem wp_lockEdited {β : Type} {body : LabSetupBody} {runId : Option ℕ}
    {f : Option (LabRun × Lab) → Action β} {Q : Post Api (Sys H) β} {t₁ : Sys H}
    (ht : Within p t₁ t)
    (hnone : runId = none →
      wp ((locking settings outside ok ground).contract p) (f none) Q t)
    (hsome : ∀ i run lab s t', runId = some i → run.id = i → Within p t₁ t' →
      Edited p body t' run lab s →
      wp ((locking settings outside ok ground).contract p) (f (some (run, lab))) Q t')
    (herr : ∀ e t', Within p t₁ t' → Q (.error e) t') :
    wp ((locking settings outside ok ground).contract p)
      (lockEdited body user organization runId >>= f) Q t := by
  cases runId with
  | none => exact hnone rfl
  | some i =>
    unfold lockEdited
    simp only [bind_assoc]
    refine wp_lockRun ht ?_ herr
    intro run lab t₂ s₂ _ h₂ hlocked hid _ hread hheld hlab _
    refine wp_raiseIf_bind (fun hopen => ?_) (herr _ _ h₂)
    refine wp_readStmt (.refl p t₂) trivial ?_
    intro t₃ ht₃ hkept₃ _ h₃
    refine wp_check_bind (fun _ hchecked => ?_) fun e => herr e _ (h₂.trans h₃)
    rw [pure_bind]
    have hlocked₃ := hlocked.kept hkept₃
    obtain ⟨hlabRow, hlabId⟩ := labForUser_ok hlab
    have hstmt : (.lock (.assignmentsOfRun run.id), t₃.store) ∈ openTransaction p
        ((machine outside).exec p (.lock (.assignmentsOfRun run.id)) t₃).log := by
      show _ ∈ openTransaction p (.stmt p (.lock (.assignmentsOfRun run.id)) t₃.store :: t₃.log)
      rw [openTransaction_read (q := .lock (.assignmentsOfRun run.id)) trivial]
      exact List.mem_cons_self
    refine hsome i run lab t₃.store _ rfl hid (h₂.trans h₃) ⟨?_, by simpa using hopen, ?_, hstmt,
      hlocked₃, fun _ _ => Iff.rfl, hchecked, hlabId, s₂, h₃.since _ hread, hheld, hlabRow⟩
    · exact ⟨List.mem_append_right _ hlocked₃.lock, hlocked₃.row⟩
    · refine ⟨List.mem_append_right _ hlocked₃.lock, ?_⟩
      intro a ha hrun
      refine List.mem_append_left _ (List.mem_map.mpr ⟨_, ?_, rfl⟩)
      exact List.mem_map.mpr ⟨a, List.mem_filter.mpr ⟨ha, decide_eq_true hrun⟩, rfl⟩

/-- What is left of `_apply` once the edited run, if there is one, has been locked. -/
theorem wp_setupRows {payload : LabSetupWrite} {runId : Option ℕ} {edited : Option (LabRun × Lab)}
    (hground : ∀ ws t' run lab students, t.log <:+ t'.log →
      SetupGround p payload.body ws t' run lab students →
      (∀ i, runId = some i → ∃ row s, run = i ∧ row.id = i ∧ Edited p payload.body t' row lab s) →
      (runId = none → ∃ row, .run (.insert row) ∈ ws ∧ row.id = run) → ground p ws t')
    (hedited : ∀ run lab, edited = some (run, lab) → ∃ s, runId = some run.id ∧
      Edited p payload.body t run lab s) (hnew : edited = none → runId = none) :
    wp ((locking settings outside ok ground).contract p) (do
      let (classId, newClass) ← setupClass payload.body user organization
      let (poolId, newPool) ← setupPool payload.body organization
      let (students, flushed) ← newStudents settings payload user organization
        (newClass ++ newPool)
      raiseIf (payload.body.state ≠ .draft ∧ students = []) (.http 422
        "Add at least one student before opening the lab.")
      let (run, lab, newRun) ← setupRun payload.body user organization classId poolId edited
      saveSetup payload user organization run lab poolId students (flushed ++ newRun))
      (fun _ t' => t.log <:+ t'.log) t := by
  refine wp_reading (.refl p t) reads_setupClass ?_ fun _ _ h => h.log
  rintro ⟨classId, newClass⟩ _ t₁ h₁ _ ⟨hclass, hclassUsers⟩
  refine wp_reading h₁ reads_setupPool ?_ fun _ _ h => h.log
  rintro ⟨poolId, newPool⟩ _ t₂ h₂ _ ⟨hpool, hpoolUsers⟩
  refine wp_reading h₂ (reads_newStudents ?_ ?_) ?_ fun _ _ h => h.log
  · intro w hw
    rcases List.mem_append.mp hw with hw | hw
    · exact hclass w hw
    · exact hpool w hw
  · have hclassUsers : newClass.filterMap Write.newUser = [] := hclassUsers
    have hpoolUsers : newPool.filterMap Write.newUser = [] := hpoolUsers
    rw [List.filterMap_append, hclassUsers, hpoolUsers]
    rfl
  rintro ⟨students, flushed⟩ _ t₃ h₃ _ henlists
  refine wp_raiseIf_bind (fun _ => ?_) h₃.log
  refine wp_reading h₃ reads_setupRun ?_ fun _ _ h => h.log
  rintro ⟨run, lab, newRun⟩ _ t₄ h₄ _ ⟨hnewRun, hrunUsers, hrun⟩
  have hfound : ∀ t', Within p t₄ t' → edited = some (run, lab) →
      ∃ s, runId = some run.id ∧ Edited p payload.body t' run lab s := by
    intro t' h' heq
    obtain ⟨s, hid, he⟩ := hedited run lab heq
    exact ⟨s, hid, (he.within h₄).within h'⟩
  refine wp_mono (wp_saveSetup ?_ ?_ ?_ ?_) fun _ _ h => h₄.log.trans h
  · intro w hw
    rcases List.mem_append.mp hw with hw | hw
    · exact henlists.before w hw run.id
    · exact hnewRun w hw
  · have hroster : students = _ := henlists.roster
    have hrunUsers : newRun.filterMap Write.newUser = [] := hrunUsers
    rw [List.filterMap_append, hrunUsers, List.append_nil]
    exact hroster
  · rcases hrun with heq | ⟨-, row, hrow, hid⟩
    · obtain ⟨s, -, he⟩ := hfound t₄ (.refl p _) heq
      exact Or.inl he.locked.lock
    · exact Or.inr ⟨row, List.mem_append_right _ hrow, hid⟩
  · intro ws t' h' hmem hsetup
    refine hground ws t' run.id lab students (h₄.log.trans h'.log) hsetup ?_ ?_
    · rintro i hi
      rcases hrun with heq | ⟨hnone, -⟩
      · obtain ⟨s, hid, he⟩ := hfound t' h' heq
        rw [hi] at hid
        cases hid
        exact ⟨run, s, rfl, rfl, he⟩
      · rw [hnew hnone] at hi
        cases hi
    · intro hnone
      rcases hrun with heq | ⟨-, row, hrow, hid⟩
      · obtain ⟨s, hid, -⟩ := hfound t' h' heq
        rw [hnone] at hid
        cases hid
      · exact ⟨row, hmem _ (List.mem_append_right _ hrow), hid⟩

/-- `_apply` commits only what rests on its locks. -/
theorem wp_applySetup {payload : LabSetupWrite} {runId : Option ℕ}
    (hground : ∀ ws t' run lab students, t.log <:+ t'.log →
      SetupGround p payload.body ws t' run lab students →
      (∀ i, runId = some i → ∃ row s, run = i ∧ row.id = i ∧ Edited p payload.body t' row lab s) →
      (runId = none → ∃ row, .run (.insert row) ∈ ws ∧ row.id = run) → ground p ws t') :
    wp ((locking settings outside ok ground).contract p)
      (applySetup settings payload user organization runId) (fun _ t' => t.log <:+ t'.log) t := by
  unfold applySetup
  refine wp_check_bind (fun _ _ => ?_) fun _ => List.suffix_refl _
  refine wp_readStmt (.refl p t) trivial ?_
  intro t₁ _ _ _ h₁
  split
  · refine wp_mono (wp_reads h₁ reads_replayReceipt) ?_
    intro r t' h
    exact h.1.log
  · unfold utcnow
    rw [bind_assoc]
    refine wp_readStmt h₁ trivial ?_
    intro t₂ _ _ _ h₂
    rw [pure_bind]
    refine wp_check_bind (fun _ _ => ?_) fun _ => h₂.log
    refine wp_lockEdited h₂ ?_ ?_ fun _ _ h => h.log
    · intro hnone
      refine wp_mono (wp_setupRows (fun ws t' run lab students hlog =>
        hground ws t' run lab students (h₂.log.trans hlog)) ?_ fun _ => hnone)
        fun _ _ h => h₂.log.trans h
      intro run lab heq
      cases heq
    · intro i run lab s t₃ hi hid h₃ he
      refine wp_mono (wp_setupRows (fun ws t' run lab students hlog =>
        hground ws t' run lab students (h₃.log.trans hlog)) ?_ ?_)
        fun _ _ h => h₃.log.trans h
      · intro run' lab' heq
        cases heq
        exact ⟨s, by rw [hi, hid], he⟩
      · intro heq
        cases heq

/-- `_save` runs `_apply` again after an integrity error, in a transaction of its own. -/
theorem wp_writeSetup {caller : Caller} {payload : LabSetupWrite} {runId : Option ℕ}
    {r : Request} (ht : Entry.enter p r ∈ t.log)
    (hground : ∀ ws t' run lab students, Entry.enter p r ∈ t'.log →
      SetupGround p payload.body ws t' run lab students →
      (∀ i, runId = some i → ∃ row s, run = i ∧ row.id = i ∧ Edited p payload.body t' row lab s) →
      (runId = none → ∃ row, .run (.insert row) ∈ ws ∧ row.id = run) → ground p ws t') :
    wp ((locking settings outside ok ground).contract p)
      (writeSetup settings caller runId payload) (fun _ _ => True) t := by
  have happly : ∀ user organization (t' : Sys H), Entry.enter p r ∈ t'.log →
      wp ((locking settings outside ok ground).contract p)
        (applySetup settings payload user organization runId)
        (fun _ t'' => Entry.enter p r ∈ t''.log) t' := by
    intro user organization t' ht'
    refine wp_mono (wp_applySetup ?_) fun _ _ h => h.subset ht'
    intro ws t'' run lab students hlog
    exact hground ws t'' run lab students (hlog.subset ht')
  unfold writeSetup
  refine wp_check_bind (fun _ _ => ?_) fun _ => trivial
  refine wp_reading (.refl p t) (reads_currentInstructor caller) ?_ fun _ _ _ => trivial
  rintro ⟨user, organization⟩ _ t₁ h₁ _ _
  unfold saveOrReplay
  refine wp_handle (happly user organization t₁ (h₁.log.subset ht)) (fun _ _ _ => trivial) ?_
  intro e t₂ ht₂
  unfold rollback
  rw [bind_assoc, wp_run_bind]
  intro t₃ hr₃ _ _
  refine ⟨?_, ?_⟩
  · intro ws hws
    cases hws
  · rw [pure_bind]
    have ht₃ : Entry.enter p r ∈ ((machine outside).exec p .rollback t₃).log :=
      List.mem_cons_of_mem _ (hr₃.1.log.subset ht₂)
    split
    · refine wp_readStmt (.refl p _) trivial ?_
      intro t₄ _ _ _ h₄
      split
      · exact wp_mono (happly user organization _ (h₄.log.subset ht₃)) fun _ _ _ => trivial
      · exact trivial
    · exact trivial

end Saving

end LabGoblin
