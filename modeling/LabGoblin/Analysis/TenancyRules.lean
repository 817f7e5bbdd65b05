import LabGoblin.Analysis.Locking
import LabGoblin.Analysis.TenancySteps
import LabGoblin.Computation.Clients

/-!
# How processes keep tenancy

The discipline in which every commit writes only what belongs together, and the rules for its
programs. A process reads within one transaction; what it has read of an id it may go on
believing, and what it has drawn nobody else has.
-/

set_option autoImplicit false

namespace LabGoblin

open Interactive

section Rules

variable {H : Type} {settings : Settings} {outside : Outside H} {p : Pid}

/-! ## The discipline -/

/-- The writes of a commit belong together. -/
def Stmt.Belongs (p : Pid) (q : Stmt) (t : Sys H) : Prop :=
  ∀ ws, q = .commit ws → ∀ w ∈ ws, w.Belongs p t ws

/-- Whatever else happens keeps tenancy. -/
def Tenable (t t' : Sys H) : Prop := Tenanted t → Tenanted t' ∧ Extends t t'

/-- The conduct of the system where the rest of the application keeps tenancy. -/
def conductTenable (settings : Settings) (outside : Outside H) :
    Discipline Api (Sys H) Request :=
  (conduct settings outside).confine Tenable

/-- The conduct of the system is sound where the rest of the application keeps tenancy. -/
theorem conductTenable_sound (settings : Settings) (outside : Outside H) :
    (conductTenable settings outside).Sound :=
  (conduct_sound settings outside).confine Tenable

/-- The discipline in which tenancy is kept. -/
def tenancy (settings : Settings) (outside : Outside H) : Discipline Api (Sys H) Request :=
  (conductTenable settings outside).uphold Tenanted Extends Stmt.Belongs

/-- A statement whose writes belong together keeps tenancy and extends what is held. -/
theorem tenable_exec {q : Stmt} {t : Sys H} (ht : Tenanted t) (hq : q.Belongs p t) :
    Tenanted ((machine outside).exec p q t) ∧ Extends t ((machine outside).exec p q t) := by
  by_cases h : ∃ ws db, q = .commit ws ∧ t.store.afterCommit ws = some db
  · obtain ⟨ws, db, rfl, hcommit⟩ := h
    exact ⟨tenanted_of_commit ht hcommit (hq ws rfl), extends_of_commit hcommit (hq ws rfl)⟩
  · have hquiet : Quiet t ((machine outside).exec p q t) := by
      refine .exec ?_
      intro ws hws
      cases hcommit : t.store.afterCommit ws with
      | none => rfl
      | some db => exact absurd ⟨ws, db, hws, hcommit⟩ h
    exact ⟨hquiet.tenanted ht, hquiet.extends⟩

/-- A call changes no row. -/
theorem Quiet.answer {c : Call} {r : Except Exc c.Reply} {t t' : Sys H}
    (h : (machine outside).answer p c t r t') : Quiet t t' := by
  obtain ⟨hyper, -, rfl⟩ := h
  refine .of_entries (E := [.reply p c r, .call p c t.store]) rfl ?_ rfl
  intro e he p' q s heq
  rw [heq] at he
  simp at he

/-- On top of that conduct, tenancy is upheld by statements whose writes belong together. -/
theorem tenancy_upholds :
    (conductTenable settings outside).Upholds (Tenanted (H := H)) Extends Stmt.Belongs where
  refl := Extends.refl
  trans := fun _ _ _ => Extends.trans
  stmt := fun _ _ _ ht _ hq => tenable_exec ht hq
  call := fun p c t r t' ht hanswer =>
    ⟨(Quiet.answer hanswer.2).tenanted ht, (Quiet.answer hanswer.2).extends⟩
  enter := by
    intro r t ht _
    have hquiet : Quiet t (t.enter r) := by
      refine .of_entries (E := [.enter (started t.log) r]) rfl ?_ rfl
      intro e he p' q s heq
      rw [heq] at he
      simp at he
    exact ⟨hquiet.tenanted ht, hquiet.extends⟩
  leave := by
    intro p t ht _
    have hquiet : Quiet t (t.leave p) := by
      refine .of_entries (E := [.leave p]) rfl ?_ rfl
      intro e he p' q s heq
      rw [heq] at he
      simp at he
    exact ⟨hquiet.tenanted ht, hquiet.extends⟩
  env := fun t t' ht henv => henv.2.2 ht

/-! ## Where a process stands in its transaction -/

/-- The state has gone on while the process was in a transaction. -/
structure Along (p : Pid) (t t' : Sys H) : Prop where
  log : t.log <:+ t'.log
  since : ∀ x ∈ openTransaction p t.log, x ∈ openTransaction p t'.log
  onwards : Extends t t'

/-- Nothing has happened. -/
theorem Along.refl (p : Pid) (t : Sys H) : Along p t t :=
  ⟨List.suffix_refl _, fun _ h => h, .refl t⟩

/-- What went on in two parts went on in the whole. -/
theorem Along.trans {a b c : Sys H} (h : Along p a b) (h' : Along p b c) : Along p a c :=
  ⟨h.log.trans h'.log, fun x hx => h'.since x (h.since x hx), h.onwards.trans h'.onwards⟩

/-- An id that a transaction has drawn stays pending for it. -/
theorem Along.pending {t t' : Sys H} (h : Along p t t') {q : Sequence} {i : ℕ}
    (hi : Pending q p i t) : Pending q p i t' := by
  obtain ⟨s, hs, hnext⟩ := hi
  exact ⟨s, h.since _ hs, hnext⟩

/-- Other processes go on while the process waits. -/
theorem Along.of_rely {t t' : Sys H} (h : Rely p t t') (h' : Extends t t') : Along p t t' where
  log := h.log
  since := by
    have hsame : openTransaction p t'.log = openTransaction p t.log := by
      unfold openTransaction
      rw [h.entries]
    rw [hsame]
    exact fun _ hx => hx
  onwards := h'

/-- A statement that reads goes on within the transaction. -/
theorem Along.read {q : Stmt} (hq : q.reads) (t : Sys H) :
    Along p t ((machine outside).exec p q t) where
  log := List.suffix_cons _ _
  since := by
    intro x hx
    show x ∈ openTransaction p (.stmt p q t.store :: t.log)
    rw [openTransaction_read hq]
    exact List.mem_cons_of_mem _ hx
  onwards := by
    refine Quiet.extends (.exec ?_)
    rintro ws rfl
    exact hq.elim

/-- A call and its answer go on within the transaction. -/
theorem Along.answer {c : Call} {r : Except Exc c.Reply} {t t' : Sys H}
    (h : (machine outside).answer p c t r t') : Along p t t' := by
  have hquiet := Quiet.answer h
  obtain ⟨hyper, -, rfl⟩ := h
  refine ⟨(List.suffix_cons _ _).trans (List.suffix_cons _ _), ?_, hquiet.extends⟩
  intro x hx
  show x ∈ openTransaction p (.reply p c r :: .call p c t.store :: t.log)
  rw [openTransaction_call]
  exact hx

/-! ## What is known of the writes of a transaction -/

section Onwards

variable {t t' : Sys H} {ws ws' : List Write} {i organizationId user : ℕ}
  (h : Extends t t') (hws : ∀ w ∈ ws, w ∈ ws')
include h hws

/-- A class that is known stays known. -/
theorem Extends.knownClass (hi : Kind.classes.Known t ws i organizationId) :
    Kind.classes.Known t' ws' i organizationId := by
  rcases hi with hi | ⟨r, hr, hkey⟩
  · exact Or.inl (h.heldClass hi)
  · exact Or.inr ⟨r, hws _ hr, hkey⟩

/-- A pool that is known stays known. -/
theorem Extends.knownPool (hi : Kind.pools.Known t ws i organizationId) :
    Kind.pools.Known t' ws' i organizationId := by
  rcases hi with hi | ⟨r, hr, hkey⟩
  · exact Or.inl (h.heldPool hi)
  · exact Or.inr ⟨r, hws _ hr, hkey⟩

/-- A lab that is known stays known. -/
theorem Extends.knownLab (hi : Kind.labs.Known t ws i organizationId) :
    Kind.labs.Known t' ws' i organizationId := by
  rcases hi with hi | ⟨r, hr, hkey⟩
  · exact Or.inl (h.heldLab hi)
  · exact Or.inr ⟨r, hws _ hr, hkey⟩

/-- A run that is known stays known. -/
theorem Extends.knownRun (hi : Kind.runs.Known t ws i organizationId) :
    Kind.runs.Known t' ws' i organizationId := by
  rcases hi with hi | ⟨r, hr, hkey⟩
  · exact Or.inl (h.heldRun hi)
  · exact Or.inr ⟨r, hws _ hr, hkey⟩

/-- An assignment that is known stays known. -/
theorem Extends.knownAssignment (hi : KnownAssignment t ws i organizationId) :
    KnownAssignment t' ws' i organizationId := by
  rcases hi with ⟨row, hrow, horg⟩ | ⟨row, hrow, hkey⟩
  · obtain ⟨row', hrow', hplace⟩ := h.assignments i row hrow
    exact Or.inl ⟨row', hrow', (Prod.mk.inj hplace).1.trans horg⟩
  · exact Or.inr ⟨row, hws _ hrow, hkey⟩

/-- A VM record that is known stays known. -/
theorem Extends.knownVm (hi : KnownVm t ws i organizationId user) :
    KnownVm t' ws' i organizationId user := by
  rcases hi with hi | ⟨row, hrow, hkey⟩
  · exact Or.inl (h.vmIn hi)
  · exact Or.inr ⟨row, hws _ hrow, hkey⟩

end Onwards

/-- Writes that belong together go on belonging together, and others may be added. -/
theorem Write.Belongs.along {w : Write} {t t' : Sys H} {ws ws' : List Write}
    (hw : w.Belongs p t ws) (h : Along p t t') (hws : ∀ w ∈ ws, w ∈ ws') :
    w.Belongs p t' ws' := by
  have ho := h.onwards
  cases w with
  | vm w =>
    cases w with
    | insert row => exact ho.templateIn hw
    | _ => trivial
  | assignment w =>
    cases w with
    | insert a =>
      obtain ⟨hrun, htemplate, hlink⟩ := hw
      exact ⟨ho.knownRun hws hrun, ho.templateIn htemplate, hlink⟩
    | reassign a templateId expiresAt =>
      obtain ⟨organizationId, ha, htemplate⟩ := hw
      exact ⟨organizationId, ho.knownAssignment hws ha, ho.templateIn htemplate⟩
    | reschedule a expiresAt templateId =>
      cases templateId with
      | none => trivial
      | some templateId =>
        obtain ⟨organizationId, ha, htemplate⟩ := hw
        exact ⟨organizationId, ho.knownAssignment hws ha, ho.templateIn htemplate⟩
    | link a v =>
      obtain ⟨organizationId, user, ha, row, hrow, hplace⟩ := hw
      exact ⟨organizationId, user, ho.assignmentIn ha, row, hws _ hrow, hplace⟩
    | _ => trivial
  | run w =>
    cases w with
    | insert r => exact ⟨h.pending hw.1, ho.knownLab hws hw.2⟩
    | _ => trivial
  | operation w =>
    cases w with
    | insert o =>
      intro v hv
      obtain ⟨organizationId, user, horg, hvm⟩ := hw v hv
      exact ⟨organizationId, user, horg, ho.knownVm hws hvm⟩
    | _ => trivial
  | allocator w => trivial
  | catalogue w =>
    cases w with
    | insertClass c => exact h.pending hw
    | insertPool q => exact h.pending hw
    | insertLab l => exact ⟨h.pending hw.1, ho.knownClass hws hw.2.1, ho.knownPool hws hw.2.2⟩
    | editLab lab name description poolId flags =>
      obtain ⟨organizationId, hlab, hpool⟩ := hw
      exact ⟨organizationId, ho.knownLab hws hlab, ho.knownPool hws hpool⟩
    | _ => trivial

/-! ## Rules for programs -/

section Programs

variable {α β : Type} {t : Sys H}

/-- A statement that reads, and the rest of the transaction. -/
theorem wp_sees {q : Stmt} {f : Store → Action β} {Q : Post Api (Sys H) β} (hq : q.reads)
    (hf : ∀ t₁, Along p t t₁ → Tenanted t₁ → Along p t₁ ((machine outside).exec p q t₁) →
      wp ((tenancy settings outside).contract p) (f t₁.store) Q ((machine outside).exec p q t₁)) :
    wp ((tenancy settings outside).contract p) (Program.run (G := Api) q >>= f) Q t := by
  rw [wp_run_bind]
  intro t₁ hr hinv _
  refine ⟨?_, hf t₁ (.of_rely hr.1 hr.2) hinv.1.2 (.read hq t₁)⟩
  rintro ws rfl
  exact hq.elim

/-- A key that is drawn is pending. -/
theorem wp_draws {q : Sequence} {f : ℕ → Action β} {Q : Post Api (Sys H) β}
    (hf : ∀ i t', Along p t t' → Pending q p i t' →
      wp ((tenancy settings outside).contract p) (f i) Q t') :
    wp ((tenancy settings outside).contract p) (draw q >>= f) Q t := by
  unfold draw
  rw [bind_assoc]
  refine wp_sees trivial ?_
  intro t₁ h₁ _ h₂
  rw [pure_bind]
  refine hf _ _ (h₁.trans h₂) ⟨t₁.store, ?_, rfl⟩
  show (Stmt.draw q, t₁.store) ∈ openTransaction p (.stmt p (.draw q) t₁.store :: t₁.log)
  rw [openTransaction_read (q := .draw q) trivial]
  exact List.mem_cons_self

/-- A program that reads may go on wherever the process has got to. -/
theorem along_tolerates (t : Sys H) :
    ((tenancy settings outside).contract p).Tolerates (fun t' => Along p t t' ∧ True) Stmt.reads
      (fun _ => True) where
  stable := fun t₁ t₂ h hr _ => ⟨h.1.trans (.of_rely hr.1 hr.2), trivial⟩
  stmt := by
    intro q t₁ hq _ h _
    have hread : Along p t₁ ((machine outside).exec p q t₁) := .read hq t₁
    refine ⟨?_, h.1.trans hread, trivial⟩
    rintro ws rfl
    exact hq.elim
  call := fun c t₁ _ _ h => ⟨trivial, fun r t₂ hanswer => ⟨h.1.trans (.answer hanswer.2), trivial⟩⟩

/-- A part of a transaction that only reads, and the rest of it. -/
theorem wp_gathers {R : α → Prop} {prog : Action α} {f : α → Action β}
    (hprog : Reads (fun _ _ => True) (fun a _ => R a) prog t.store)
    (hf : ∀ a t', Along p t t' → R a →
      wp ((tenancy settings outside).contract p) (f a) (fun _ _ => True) t') :
    wp ((tenancy settings outside).contract p) (prog >>= f) (fun _ _ => True) t := by
  have hreads := wp_of_ensuresAlong (C := (tenancy settings outside).contract p)
    (J := Along p t) (fun _ => trivial) (fun _ => along_tolerates t) hprog ⟨.refl p t, trivial⟩
  refine wp_seq hreads ?_ (fun _ _ _ => trivial)
  intro a t' h
  obtain ⟨-, -, hR⟩ := h.2 a rfl
  exact hf a t' h.1 hR

/-- A part of a transaction that only reads. -/
theorem wp_looks {prog : Action α}
    (hprog : Reads (fun _ _ => True) (fun _ _ => True) prog t.store) :
    wp ((tenancy settings outside).contract p) prog (fun _ _ => True) t := by
  have hsafe : wp ((tenancy settings outside).contract p) (prog >>= pure) (fun _ _ => True) t :=
    wp_gathers hprog fun _ _ _ _ => trivial
  rwa [bind_pure] at hsafe

/-- A rollback, after which the process starts again. -/
theorem wp_rollsBack {f : Unit → Action β}
    (hf : ∀ t', wp ((tenancy settings outside).contract p) (f ()) (fun _ _ => True) t') :
    wp ((tenancy settings outside).contract p) (rollback >>= f) (fun _ _ => True) t := by
  unfold rollback
  rw [bind_assoc, wp_run_bind]
  intro t₁ _ _ _
  refine ⟨?_, ?_⟩
  · intro ws hws
    cases hws
  · rw [pure_bind]
    exact hf _

/-- A commit of writes that belong together. -/
theorem wp_commits {ws : List Write} (hws : ∀ w ∈ ws, w.Belongs p t ws) :
    wp ((tenancy settings outside).contract p) (commit ws) (fun _ _ => True) t := by
  rw [wp_commit]
  intro t₁ hr _ _
  refine ⟨?_, fun _ => trivial, fun _ _ => trivial⟩
  intro ws' heq w hw
  injection heq with heq
  rw [← heq] at hw ⊢
  exact (hws w hw).along (.of_rely hr.1 hr.2) fun _ h => h

/-- A commit of writes that belong together ends the transaction, and the rest starts anywhere. -/
theorem wp_commits_bind {ws : List Write} {f : Unit → Action β}
    (hws : ∀ w ∈ ws, w.Belongs p t ws)
    (hf : ∀ t', wp ((tenancy settings outside).contract p) (f ()) (fun _ _ => True) t') :
    wp ((tenancy settings outside).contract p) (commit ws >>= f) (fun _ _ => True) t :=
  wp_seq (wp_commits hws) (fun _ t' _ => hf t') fun _ _ _ => trivial

/-- The writes of a request that conducts itself belong together, whatever its program. -/
theorem wp_belongs {r : Request} (prog : Action α)
    (hbelongs : ∀ ws (t : Sys H), (∀ w ∈ ws, r.conducts p t ws w) → ∀ w ∈ ws, w.Belongs p t ws)
    (ht : Entry.enter p r ∈ t.log) :
    wp ((tenancy settings outside).contract p) prog (fun _ _ => True) t := by
  refine Maintains.safe (J := fun t => Entry.enter p r ∈ t.log)
    (Maintains.of_ensures (R := fun _ => True) ?_ (Program.ensures_anything prog)) ht
  refine ⟨fun t t' h hr _ => hr.1.log.subset h, ?_, ?_⟩
  · rintro q t - - h ⟨-, hlogged, -, r', hr', hconducts⟩
    refine ⟨?_, List.mem_cons_of_mem _ h⟩
    rintro ws rfl
    rw [hlogged.request p r' r hr' h] at hconducts
    exact hbelongs ws t (hconducts ws rfl)
  · intro c t _ _ h
    exact ⟨trivial, fun reply t' hanswer => (Along.answer hanswer.2).log.subset h⟩

end Programs

end Rules

end LabGoblin
