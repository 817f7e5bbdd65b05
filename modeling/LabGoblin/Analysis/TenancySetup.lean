import LabGoblin.Analysis.TenancyPrograms

/-!
# Lab setups keep tenancy

A setup may insert the class, the pool, the lab and the run that it needs, and refers to them before
they are there. What it inserts has ids that it has drawn, and belongs to the organization of its
caller; what it does not insert it has found there.
-/

set_option autoImplicit false

namespace LabGoblin

open Interactive

section Setup

variable {H : Type} {settings : Settings} {outside : Outside H} {p : Pid} {t : Sys H}
  {user : User} {organization : OrganizationContext} {β : Type} {ws new : List Write}

/-- The writes that a setup has flushed before it comes to the assignments. -/
structure Preparing (p : Pid) (ws : List Write) (t : Sys H) : Prop where
  belongs : ∀ w ∈ ws, w.Belongs p t ws
  unassigned : ∀ w ∈ ws, ∀ v, w ≠ .assignment v

/-- What a setup has flushed stays right while others go on. -/
theorem Preparing.along {t' : Sys H} (h : Preparing p ws t) (ht : Along p t t') :
    Preparing p ws t' where
  belongs := fun w hw => (h.belongs w hw).along ht fun _ hw => hw
  unassigned := h.unassigned

/-- More writes are flushed. -/
theorem Preparing.add (h : Preparing p ws t) (hnew : ∀ w ∈ new, w.Belongs p t (ws ++ new))
    (hunassigned : ∀ w ∈ new, ∀ v, w ≠ .assignment v) : Preparing p (ws ++ new) t where
  belongs := by
    intro w hw
    rcases List.mem_append.mp hw with hw | hw
    · exact (h.belongs w hw).along (.refl p t) fun _ hw => List.mem_append_left _ hw
    · exact hnew w hw
  unassigned := by
    intro w hw
    rcases List.mem_append.mp hw with hw | hw
    · exact h.unassigned w hw
    · exact hunassigned w hw

/-- Two lists of flushed writes are right together. -/
theorem Preparing.append (h : Preparing p ws t) (h' : Preparing p new t) :
    Preparing p (ws ++ new) t :=
  h.add (fun w hw => (h'.belongs w hw).along (.refl p t) fun _ hw => List.mem_append_right _ hw)
    h'.unassigned

/-- A setup starts with nothing flushed. -/
theorem Preparing.nil : Preparing p [] t := ⟨by simp, by simp⟩

/-! ## What the setup looks up or inserts -/

/-- The class of the setup belongs to the organization of the caller. -/
theorem wp_setupClass_tenancy {body : LabSetupBody} {f : ℕ × List Write → Action β}
    (hf : ∀ r t', Along p t t' → Kind.classes.Known t' r.2 r.1 organization.id →
      Preparing p r.2 t' →
      wp ((tenancy settings outside).contract p) (f r) (fun _ _ => True) t') :
    wp ((tenancy settings outside).contract p) (setupClass body user organization >>= f)
      (fun _ _ => True) t := by
  unfold setupClass
  split
  · rw [bind_assoc]
    refine wp_sees trivial ?_
    intro t₁ h₁ ht₁ h₁'
    rw [bind_assoc]
    refine wp_check_bind (fun classroom hclass => ?_) fun _ => trivial
    obtain ⟨hrow, hid, horg⟩ := classOr404_org hclass
    rw [pure_bind]
    refine hf _ _ (h₁.trans h₁') (Or.inl ?_) .nil
    rw [← horg, hid]
    exact h₁'.onwards.heldClass (ht₁.heldClass hrow)
  · rw [bind_assoc]
    refine wp_draws ?_
    intro id t₁ h₁ hpending
    rw [pure_bind]
    refine hf _ _ h₁ (Or.inr ⟨_, List.mem_cons_self, rfl, rfl⟩) ⟨?_, ?_⟩
    · intro w hw
      rw [List.mem_singleton.mp hw]
      exact hpending
    · intro w hw v
      rw [List.mem_singleton.mp hw]
      simp

/-- The pool of the setup belongs to the organization of the caller. -/
theorem wp_setupPool_tenancy {body : LabSetupBody} {f : ℕ × List Write → Action β}
    (hf : ∀ r t', Along p t t' → Kind.pools.Known t' r.2 r.1 organization.id →
      Preparing p r.2 t' →
      wp ((tenancy settings outside).contract p) (f r) (fun _ _ => True) t') :
    wp ((tenancy settings outside).contract p) (setupPool body organization >>= f)
      (fun _ _ => True) t := by
  unfold setupPool
  split
  · rw [bind_assoc]
    refine wp_sees trivial ?_
    intro t₁ h₁ ht₁ h₁'
    rw [bind_assoc]
    refine wp_orRaise_bind (fun pool hpool => ?_) trivial
    obtain ⟨hmem, hcond⟩ := Table.first_some hpool
    simp only [Bool.and_eq_true, decide_eq_true_eq] at hcond
    rw [pure_bind]
    refine hf _ _ (h₁.trans h₁') (Or.inl ?_) .nil
    rw [← hcond.1.1.2]
    exact h₁'.onwards.heldPool (ht₁.heldPool (Table.get?_of_mem hmem))
  · rw [bind_assoc]
    refine wp_sees trivial ?_
    intro t₁ h₁ _ h₁'
    rw [bind_assoc]
    refine wp_orRaise_bind (fun template _ => ?_) trivial
    rw [bind_assoc]
    refine wp_raiseIf_bind (fun _ => ?_) trivial
    rw [bind_assoc]
    refine wp_draws ?_
    intro id t₂ h₂ hpending
    rw [pure_bind]
    refine hf _ _ (h₁.trans (h₁'.trans h₂)) (Or.inr ⟨_, List.mem_cons_self, rfl, rfl⟩) ⟨?_, ?_⟩
    · intro w hw
      rw [List.mem_singleton.mp hw]
      exact hpending
    · intro w hw v
      rw [List.mem_singleton.mp hw]
      simp

/-- A write that creates an account. -/
def Write.ofAccount : Write → Prop
  | .catalogue (.insertUser _) => True
  | .catalogue (.insertMembership _) => True
  | _ => False

/-- The creation of an account belongs everywhere. -/
theorem Write.ofAccount.belongs {w : Write} (h : w.ofAccount) : w.Belongs p t ws := by
  cases w with
  | catalogue w => cases w <;> first | exact trivial | exact h.elim
  | _ => exact h.elim

/-- The creation of an account is no assignment. -/
theorem Write.ofAccount.unassigned {w : Write} (h : w.ofAccount) (v : AssignmentWrite) :
    w ≠ .assignment v := by
  rintro rfl
  exact h

/-- Accounts have been added to the writes. -/
def AddsAccounts (ws ws' : List Write) : Prop :=
  ∃ added, ws' = ws ++ added ∧ ∀ w ∈ added, w.ofAccount

/-- No account has been added. -/
theorem AddsAccounts.refl (ws : List Write) : AddsAccounts ws ws := ⟨[], by simp, by simp⟩

/-- More accounts may be added. -/
theorem AddsAccounts.append {ws' : List Write} (h : AddsAccounts ws ws')
    (hnew : ∀ w ∈ new, w.ofAccount) : AddsAccounts ws (ws' ++ new) := by
  obtain ⟨added, rfl, hadded⟩ := h
  refine ⟨added ++ new, List.append_assoc _ _ _, ?_⟩
  intro w hw
  rcases List.mem_append.mp hw with hw | hw
  · exact hadded w hw
  · exact hnew w hw

/-- Accounts refer to nothing. -/
theorem Preparing.accounts {ws' : List Write} (h : Preparing p ws t) (hadds : AddsAccounts ws ws') :
    Preparing p ws' t := by
  obtain ⟨added, rfl, hadded⟩ := hadds
  exact h.add (fun w hw => (hadded w hw).belongs) fun w hw => (hadded w hw).unassigned

/-- The loop over the requested accounts, by induction on them. -/
theorem reads_accounts {le : Store → Store → Prop} {s : Store} {roleId : ℕ}
    {items : List (SetupStudentBody × Password)} {done : List ℕ × List Write}
    (hdone : AddsAccounts ws done.2) :
    Reads le (fun r _ => AddsAccounts ws r.2)
      (createAccounts settings organization roleId done items) s := by
  induction items generalizing done s with
  | nil => exact hdone
  | cons item items ih =>
    obtain ⟨ids, flushed⟩ := done
    obtain ⟨item, password⟩ := item
    unfold createAccounts
    simp only [reads_bind, reads_select, reads_check, reads_draw]
    rintro s₁ _ ⟨username, email⟩ _ s₂ _ s₃ _
    refine ih (hdone.append ?_)
    intro w hw
    simp only [List.mem_cons, List.not_mem_nil, or_false] at hw
    rcases hw with rfl | rfl
    · trivial
    · trivial

/-- Making the accounts of new students reads, and adds accounts to the writes. -/
theorem reads_accountsOf {le : Store → Store → Prop} {s : Store} {payload : LabSetupWrite} :
    Reads le (fun r _ => AddsAccounts ws r.2)
      (newStudents settings payload user organization ws) s := by
  unfold newStudents
  simp only [reads_bind, reads_select, reads_raiseIf]
  intro s' _ _ _
  split
  · exact trivial
  · exact .refl ws
  · exact reads_accounts (.refl ws)

/-! ## The run -/

/-- The run and the lab of the setup, and the writes flushed so far, with the organization that all
of them belong to. -/
structure Prepared (p : Pid) (organizationId poolId : ℕ) (run : LabRun) (lab : Lab)
    (ws : List Write) (t : Sys H) : Prop where
  preparing : Preparing p ws t
  runOrg : run.organizationId = organizationId
  labOrg : lab.organizationId = organizationId
  pool : Kind.pools.Known t ws poolId organizationId
  knownRun : Kind.runs.Known t ws run.id organizationId
  knownLab : Kind.labs.Known t ws lab.id organizationId

/-- The run that is edited and its lab belong to the organization of the caller. -/
def EditedIn (organizationId : ℕ) (edited : Option (LabRun × Lab)) (t : Sys H) : Prop :=
  ∀ run lab, edited = some (run, lab) → run.organizationId = organizationId ∧
    lab.organizationId = organizationId ∧ HeldRun t run.id organizationId ∧
    HeldLab t lab.id organizationId

/-- The edited run and its lab stay in the organization. -/
theorem EditedIn.along {organizationId : ℕ} {edited : Option (LabRun × Lab)} {t' : Sys H}
    (h : EditedIn organizationId edited t) (ht : Along p t t') :
    EditedIn organizationId edited t' := by
  intro run lab heq
  obtain ⟨hrunOrg, hlabOrg, hrun, hlab⟩ := h run lab heq
  exact ⟨hrunOrg, hlabOrg, ht.onwards.heldRun hrun, ht.onwards.heldLab hlab⟩

/-- Locking the run that is edited gives it with its lab, both of the caller's organization. -/
theorem wp_lockEdited_tenancy {body : LabSetupBody} {runId : Option ℕ}
    {f : Option (LabRun × Lab) → Action β}
    (hf : ∀ edited t', EditedIn organization.id edited t' →
      wp ((tenancy settings outside).contract p) (f edited) (fun _ _ => True) t') :
    wp ((tenancy settings outside).contract p) (lockEdited body user organization runId >>= f)
      (fun _ _ => True) t := by
  cases runId with
  | none =>
    refine hf none t ?_
    rintro run lab ⟨⟩
  | some i =>
    unfold lockEdited
    simp only [bind_assoc]
    refine wp_runForUser_tenancy ?_
    intro run lab t₁ _ hrunOrg hlabOrg hrun hlab
    refine wp_raiseIf_bind (fun _ => ?_) trivial
    refine wp_sees trivial ?_
    intro t₂ h₂ _ h₂'
    refine wp_check_bind (fun _ _ => ?_) fun _ => trivial
    rw [pure_bind]
    refine hf _ _ ?_
    rintro run' lab' ⟨⟩
    have hall := h₂.trans h₂'
    exact ⟨hrunOrg, hlabOrg, hall.onwards.heldRun hrun, hall.onwards.heldLab hlab⟩

/-- The run and the lab are those that are edited, or are inserted. -/
theorem wp_setupRun_tenancy {body : LabSetupBody} {classId poolId : ℕ}
    {edited : Option (LabRun × Lab)} {f : LabRun × Lab × List Write → Action β}
    (hedited : EditedIn organization.id edited t) (h : Preparing p ws t)
    (hclass : Kind.classes.Known t ws classId organization.id)
    (hpool : Kind.pools.Known t ws poolId organization.id)
    (hf : ∀ run lab new t', Prepared p organization.id poolId run lab (ws ++ new) t' →
      wp ((tenancy settings outside).contract p) (f (run, lab, new)) (fun _ _ => True) t') :
    wp ((tenancy settings outside).contract p)
      (setupRun body user organization classId poolId edited >>= f) (fun _ _ => True) t := by
  unfold setupRun
  cases edited with
  | some edited =>
    obtain ⟨run, lab⟩ := edited
    obtain ⟨hrunOrg, hlabOrg, hrun, hlab⟩ := hedited run lab rfl
    refine hf run lab [] t ?_
    rw [List.append_nil]
    exact ⟨h, hrunOrg, hlabOrg, hpool, Or.inl hrun, Or.inl hlab⟩
  | none =>
    dsimp only
    rw [bind_assoc]
    refine wp_draws ?_
    intro labId t₁ h₁ hlab
    rw [bind_assoc]
    refine wp_draws ?_
    intro runId t₂ h₂ hrun
    rw [pure_bind]
    have hall : Along p t t₂ := h₁.trans h₂
    have hleft : ∀ {new : List Write}, ∀ w ∈ ws, w ∈ ws ++ new :=
      fun w hw => List.mem_append_left _ hw
    refine hf _ _ _ t₂ {
      preparing := (h.along hall).add ?_ ?_
      runOrg := rfl
      labOrg := rfl
      pool := hall.onwards.knownPool hleft hpool
      knownRun := Or.inr ⟨_, List.mem_append_right _ (List.mem_cons_of_mem _ List.mem_cons_self),
        rfl, rfl⟩
      knownLab := Or.inr ⟨_, List.mem_append_right _ List.mem_cons_self, rfl, rfl⟩ }
    · intro w hw
      simp only [List.mem_cons, List.not_mem_nil, or_false] at hw
      rcases hw with rfl | rfl
      · exact ⟨h₂.pending hlab, hall.onwards.knownClass hleft hclass,
          hall.onwards.knownPool hleft hpool⟩
      · exact ⟨hrun, Or.inr ⟨_, List.mem_append_right _ List.mem_cons_self, rfl, rfl⟩⟩
    · intro w hw v
      simp only [List.mem_cons, List.not_mem_nil, or_false] at hw
      rcases hw with rfl | rfl
      · simp
      · simp

/-! ## Saving -/

/-- The run of the setup gets its assignments in its organization. -/
theorem Prepared.assigning {poolId organizationId : ℕ} {run : LabRun} {lab : Lab}
    (h : Prepared p organizationId poolId run lab ws t) : Assigning p run ws t where
  known := by
    rw [h.runOrg]
    exact h.knownRun
  belongs := h.preparing.belongs
  own := fun a ha => absurd rfl (h.preparing.unassigned _ ha (.insert a))

/-- Editing the other columns of the run makes no difference. -/
theorem Assigning.same {run run' : LabRun} (h : Assigning p run ws t) (hid : run'.id = run.id)
    (horg : run'.organizationId = run.organizationId) : Assigning p run' ws t := by
  refine ⟨?_, h.belongs, ?_⟩
  · rw [hid, horg]
    exact h.known
  · rw [hid, horg]
    exact h.own

/-- The receipt of a setup may be added to its writes. -/
theorem Assigning.receipt {run : LabRun} {row : LabSetupReceipt} (h : Assigning p run ws t) :
    Assigning p run (ws ++ [.catalogue (.insertReceipt row)]) t := by
  refine h.add ?_ (by simp)
  intro w hw
  rw [List.mem_singleton.mp hw]
  trivial

/-- The run and the lab of a setup stay as they are while others go on. -/
theorem Prepared.along {poolId organizationId : ℕ} {run : LabRun} {lab : Lab} {t' : Sys H}
    (h : Prepared p organizationId poolId run lab ws t) (ht : Along p t t') :
    Prepared p organizationId poolId run lab ws t' where
  preparing := h.preparing.along ht
  runOrg := h.runOrg
  labOrg := h.labOrg
  pool := ht.onwards.knownPool (fun _ hw => hw) h.pool
  knownRun := ht.onwards.knownRun (fun _ hw => hw) h.knownRun
  knownLab := ht.onwards.knownLab (fun _ hw => hw) h.knownLab

/-- What `_apply` does to an assignment that exists. -/
theorem mem_rosterWrites {body : LabSetupBody} {templateId : ℕ} {students : List ℕ}
    {a : LabAssignment} {w : Write} (h : w ∈ rosterWrites body templateId students a) :
    w = .assignment (.status a.id .revoked) ∨ ∃ found, w = .assignment
      (.reschedule a.id body.endsAt found) ∧ (found = none ∨ found = some templateId) := by
  unfold rosterWrites at h
  split at h
  · split at h
    · cases h
    · exact Or.inl (List.mem_singleton.mp h)
  · split at h
    · refine Or.inr ⟨_, List.mem_singleton.mp h, ?_⟩
      split
      · exact Or.inr rfl
      · exact Or.inl rfl
    · cases h

/-- What `_apply` does to assignments of the organization refers to the template that was found
there. -/
theorem rosterWrites_belongs {body : LabSetupBody} {templateId organizationId : ℕ}
    {students : List ℕ} {a : LabAssignment} {w : Write}
    (h : w ∈ rosterWrites body templateId students a)
    (ha : KnownAssignment t ws a.id organizationId)
    (htemplate : TemplateIn t templateId organizationId) : w.Belongs p t ws := by
  rcases mem_rosterWrites h with rfl | ⟨found, rfl, rfl | rfl⟩
  · trivial
  · trivial
  · exact ⟨organizationId, ha, htemplate⟩

/-- The loop over the roster, by induction on it. -/
theorem wp_saveRoster_tenancy {run : LabRun} {lab : Lab} {templateId slots : ℕ}
    {students : List ℕ} {f : List Write → Action β}
    (hlab : lab.organizationId = run.organizationId) (h : Assigning p run ws t)
    (hf : ∀ ws' t', Assigning p run ws' t' →
      wp ((tenancy settings outside).contract p) (f ws') (fun _ _ => True) t') :
    wp ((tenancy settings outside).contract p)
      (saveRoster run lab templateId slots ws students >>= f) (fun _ _ => True) t := by
  induction students generalizing ws t with
  | nil => exact hf ws t h
  | cons studentId students ih =>
    unfold saveRoster
    rw [bind_assoc]
    refine wp_gathers (R := fun ws' => ∀ w ∈ ws', ∃ row, w = .catalogue (.insertEnrollment row))
      (reads_enrollStudent _ _ _) ?_
    intro enrolled t₁ h₁ henrolled
    rw [bind_assoc]
    refine wp_createAssignments_tenancy hlab ((h.along h₁).add ?_ ?_) ?_
    · intro w hw
      obtain ⟨row, rfl⟩ := henrolled w hw
      trivial
    · intro a ha
      obtain ⟨row, hrow⟩ := henrolled _ ha
      cases hrow
    · rintro ⟨n, flushed⟩ t₂ _ h₂ _
      exact ih h₂

/-- The second half of `_apply`. -/
theorem wp_saveSetup_tenancy {payload : LabSetupWrite} {run : LabRun} {lab : Lab} {poolId : ℕ}
    {students : List ℕ} (h : Prepared p organization.id poolId run lab ws t) :
    wp ((tenancy settings outside).contract p)
      (saveSetup payload user organization run lab poolId students ws) (fun _ _ => True) t := by
  unfold saveSetup
  refine wp_sees trivial ?_
  intro t₁ h₁ ht₁ h₁'
  refine wp_raiseIf_bind (fun _ => ?_) trivial
  refine wp_sees trivial ?_
  intro t₂ h₂ _ h₂'
  refine wp_check_bind (fun template htemplate => ?_) fun _ => trivial
  obtain ⟨hrow, horg⟩ := defaultTemplate_org htemplate
  rw [Store.withFlushed_templates] at hrow
  have htemplate₂ : TemplateIn t₂ template.id organization.id :=
    ⟨template, hrow, horg.trans h.labOrg⟩
  refine wp_gathers (R := fun _ => True) (by simp) ?_
  intro now t₃ h₃ _
  have hfrom : Along p t₁ t₃ := h₁'.trans (h₂.trans (h₂'.trans h₃))
  have hprepared := (h.along h₁).along hfrom
  have hassignments : ∀ a ∈ (t₁.store.withFlushed ws).labAssignments.filter (fun a =>
      a.labRunId = run.id), KnownAssignment t₃ ws a.id organization.id := by
    intro a ha
    obtain ⟨hmem, hof⟩ := List.mem_filter.mp ha
    have hknown := (h.along h₁).assigning.known_row ht₁ hmem (of_decide_eq_true hof)
    rw [h.runOrg] at hknown
    exact hfrom.onwards.knownAssignment (fun _ hw => hw) hknown
  have htemplate₃ := (h₂'.trans h₃).onwards.templateIn htemplate₂
  have hhead : Assigning p run (ws ++ [.catalogue (.editLab lab.id (strip payload.body.name)
        payload.body.description poolId payload.body.flags),
      .run (.edit run.id (strip payload.body.name) payload.body.startsAt
        payload.body.endsAt payload.body.slots payload.body.state.toRunState
        (if payload.body.state = .active ∧ run.activatedAt = none then some now else none))])
      t₃ := by
    refine hprepared.assigning.add ?_ ?_
    · intro w hw
      have hleft : ∀ {new : List Write}, ∀ w ∈ ws, w ∈ ws ++ new :=
        fun w hw => List.mem_append_left _ hw
      simp only [List.mem_cons, List.not_mem_nil, or_false] at hw
      rcases hw with rfl | rfl
      · exact ⟨organization.id, (Extends.refl t₃).knownLab hleft hprepared.knownLab,
          (Extends.refl t₃).knownPool hleft hprepared.pool⟩
      · trivial
    · intro a ha
      simp at ha
  refine wp_saveRoster_tenancy (h.labOrg.trans h.runOrg.symm)
    (Assigning.same (hhead.add ?_ ?_) rfl rfl) ?_
  · intro w hw
    obtain ⟨a, ha, hw⟩ := List.mem_flatMap.mp hw
    refine rosterWrites_belongs hw ?_ htemplate₃
    refine (Extends.refl t₃).knownAssignment ?_ (hassignments a ha)
    intro w hw
    simp [hw]
  · intro a ha
    obtain ⟨b, _, hb⟩ := List.mem_flatMap.mp ha
    rcases mem_rosterWrites hb with heq | ⟨found, heq, -⟩
    · cases heq
    · cases heq
  · intro ws' t₄ h₄
    refine wp_sees trivial ?_
    intro t₅ h₅ _ h₅'
    refine wp_check_bind (fun result _ => ?_) fun _ => trivial
    exact wp_commits_bind ((h₄.along h₅).along h₅').receipt.belongs fun _ => trivial

/-- Applying a lab setup keeps tenancy. -/
theorem wp_applySetup_tenancy {payload : LabSetupWrite} {runId : Option ℕ} :
    wp ((tenancy settings outside).contract p)
      (applySetup settings payload user organization runId) (fun _ _ => True) t := by
  unfold applySetup
  refine wp_check_bind (fun _ _ => ?_) fun _ => trivial
  refine wp_sees trivial ?_
  intro t₁ _ _ _
  split
  · exact wp_looks reads_replayReceipt
  · dsimp only
    refine wp_gathers (R := fun _ => True) (by simp) ?_
    intro now t₂ _ _
    refine wp_check_bind (fun _ _ => ?_) fun _ => trivial
    refine wp_lockEdited_tenancy ?_
    intro edited t₃ hedited
    refine wp_setupClass_tenancy ?_
    rintro ⟨classId, newClass⟩ t₄ h₄ hclass hnewClass
    refine wp_setupPool_tenancy ?_
    rintro ⟨poolId, newPool⟩ t₅ h₅ hpool hnewPool
    refine wp_gathers (R := fun r => AddsAccounts (newClass ++ newPool) r.2) reads_accountsOf ?_
    rintro ⟨students, flushed⟩ t₆ h₆ hadds
    refine wp_raiseIf_bind (fun _ => ?_) trivial
    have hsub : ∀ w ∈ newClass ++ newPool, w ∈ flushed := by
      obtain ⟨added, rfl, -⟩ := hadds
      exact fun w hw => List.mem_append_left _ hw
    have hpreparing := (((hnewClass.along h₅).append hnewPool).along h₆).accounts hadds
    refine wp_setupRun_tenancy (hedited.along (h₄.trans (h₅.trans h₆))) hpreparing ?_ ?_ ?_
    · exact (h₅.trans h₆).onwards.knownClass
        (fun w hw => hsub w (List.mem_append_left _ hw)) hclass
    · exact h₆.onwards.knownPool (fun w hw => hsub w (List.mem_append_right _ hw)) hpool
    · intro run lab new t₇ h₇
      exact wp_saveSetup_tenancy h₇

/-- After an integrity error the setup starts again from what is there. -/
theorem wp_writeSetup_tenancy {caller : Caller} {runId : Option ℕ} {payload : LabSetupWrite} :
    wp ((tenancy settings outside).contract p) (writeSetup settings caller runId payload)
      (fun _ _ => True) t := by
  unfold writeSetup
  refine wp_check_bind (fun _ _ => ?_) fun _ => trivial
  refine wp_gathers (R := fun _ => True) (reads_currentInstructor caller) ?_
  rintro ⟨user, organization⟩ t₁ _ -
  unfold saveOrReplay guarded
  refine wp_handle wp_applySetup_tenancy (fun _ _ _ => trivial) ?_
  intro e t₂ _
  refine wp_rollsBack ?_
  intro t₃
  split
  · refine wp_sees trivial ?_
    intro t₄ _ _ _
    split
    · exact wp_applySetup_tenancy
    · trivial
  · trivial

end Setup

end LabGoblin
