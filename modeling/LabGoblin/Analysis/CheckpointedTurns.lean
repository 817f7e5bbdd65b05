import LabGoblin.Analysis.CheckpointedAttempts

/-!
# Turns that keep to the checkpoints

A turn of the operation worker claims an operation and executes it, from the row that it reads
back to the final commit or to the failure handler. If it is the operation under observation, the
attempt tracks its checkpoint; if it is another one, the turn writes nothing about this one. The
other requests have no operation in hand.
-/

set_option autoImplicit false

namespace LabGoblin

open Interactive

section Turn

variable {H : Type} {settings : Settings} {outside : Outside H} {ok : Condition H} {o : ℕ}
  {p : Pid} {t t' : Sys H}

/-! ## The execution -/

section Execution

variable {target : Target} {k : Checkpoint} {past : List Entry}

/-- Loading the target puts the attempt on the record it found. -/
theorem wp_loadTarget_tracks {row : DurableOperation}
    (ht : Tracks p o row.target none k past t) :
    wp ((checkpointing settings outside ok o).contract p) (loadTarget row)
      (Post.returning fun vm t' => Tracks p o row.target vm k past t' ∧
        ∀ v, vm = some v → row.target = .studentVm v.id) t := by
  unfold loadTarget
  cases htarget : row.target with
  | other type id =>
    rw [htarget] at ht
    refine Post.returning_ok ⟨ht, fun v hv => ?_⟩
    cases hv
  | studentVm id =>
    rw [htarget] at ht
    rw [wp_bind, wp_loadVm]
    intro t₁ hr₁ hinv₁ _
    have h₁ := tracks_tolerates.stable t t₁ ht hr₁ hinv₁
    have hread : Commits Write.Unrecorded (.select (.vm id)) := trivial
    have h₂ := h₁.exec outside hread
    refine ⟨checkpoints_of_unrecorded hread t₁, ?_⟩
    have hview : ((checkpointing settings outside ok o).contract p).machine.view t₁ =
        t₁.store := rfl
    rw [hview, Post.andThen_ok]
    cases hvm : t₁.store.db.studentVms.get? id with
    | none =>
      have habsent : Keeps Write.Unrecorded (fun _ => False) (fun _ => True)
          (authorizeAbsent row row.payload) := by
        simp [authorizeAbsent]
      refine wp_tracked habsent h₂ ?_
      intro _ t₃ _ h₃
      refine Post.returning_ok ⟨h₃, fun v hv => ?_⟩
      cases hv
    | some v =>
      have hvid : v.id = id := Table.get?_key hvm
      have honRecord : OnRecord v ((machine outside).exec p (.select (.vm id)) t₁) := by
        refine ⟨v, ?_, .refl v⟩
        rw [hvid]
        exact hvm
      have h₃ : Tracks p o (.studentVm id) (some v) k past
          ((machine outside).exec p (.select (.vm id)) t₁) := by
        refine ⟨h₂.hand, h₂.row, ?_, h₂.past⟩
        intro v' hv'
        cases hv'
        exact honRecord
      refine wp_tracked (keeps_authorize row v row.payload) h₃ ?_
      intro _ t₄ _ h₄
      refine Post.returning_ok ⟨h₄, fun v' hv' => ?_⟩
      cases hv'
      rw [hvid]

/-- The execution of the operation from its checkpoint to the final commit. -/
theorem wp_executeOperation_tracks {row : DurableOperation} (hid : row.id = o)
    (hform : row.checkpoint.WellFormed)
    (ht : Tracks p o row.target none row.checkpoint past t) :
    wp ((checkpointing settings outside ok o).contract p) (executeOperation settings row)
      (Post.returning fun _ _ => True) t := by
  unfold executeOperation
  refine wp_returning (wp_loadTarget_tracks ht) ?_
  rintro vm t₁ ⟨h₁, htarget⟩
  have hbranch : wp ((checkpointing settings outside ok o).contract p)
      (executeBranch settings row vm)
      (Post.returning fun outcome _ => ∀ w, .operation w ∉ outcome.writes) t₁ := by
    cases vm with
    | none =>
      refine wp_quiet (Keeps.mono (keeps_executeBranch_none settings row) ?_) t₁
      intro outcome hempty w hw
      rw [hempty] at hw
      cases hw
    | some vm =>
      let job : Job := ⟨settings, row, vm⟩
      have hjob : job.row.id = o := hid
      exact wp_executeBranch hjob hform (htarget vm rfl) h₁
  refine wp_returning hbranch ?_
  intro outcome t₂ hwrites
  refine wp_quiet ?_ t₂
  rw [keeps_bind, keeps_utcnow]
  intro s
  refine (keeps_commit _ _).mpr ⟨?_, fun _ => trivial⟩
  intro w hw
  rcases List.mem_append.mp hw with hw | hw
  · cases w with
    | operation w => exact absurd hw (hwrites w)
    | _ => trivial
  · rw [List.mem_singleton.mp hw]
    trivial

end Execution

/-! ## The failure handler -/

/-- The handler records no checkpoint. -/
theorem keeps_handleFailure (settings : Settings) (operation : ℕ) (e : Exc) :
    Keeps Write.Quiet Call.Quiet (fun _ => True) (handleFailure settings operation e) := by
  have hretry (row : DurableOperation) (e : Exc) :
      Keeps Write.Quiet Call.Quiet (fun _ => True) (failOrRetry settings row e) := by
    have hvm : Keeps Write.Quiet Call.Quiet (fun _ => True) (targetVm row) := by
      unfold targetVm
      split
      · exact Keeps.mono (keeps_loadVm _) fun _ _ => trivial
      · trivial
    unfold failOrRetry
    rw [keeps_bind, keeps_utcnow]
    intro s
    split
    · refine (keeps_commit _ _).mpr ⟨?_, fun _ => trivial⟩
      intro w hw
      rw [List.mem_singleton.mp hw]
      trivial
    · rw [keeps_bind]
      refine Keeps.mono hvm fun vm _ => (keeps_commit _ _).mpr ⟨?_, fun _ => trivial⟩
      intro w hw
      rcases List.mem_append.mp hw with hw | hw
      · obtain ⟨-, v, -, rfl⟩ := mem_failedVmWrites hw
        trivial
      · rw [List.mem_singleton.mp hw]
        trivial
  have hcancel (row : DurableOperation) (e : Exc) :
      Keeps Write.Quiet Call.Quiet (fun _ => True) (cancelUnauthorizedOperation row e) := by
    unfold cancelUnauthorizedOperation
    rw [keeps_bind, keeps_utcnow]
    intro s
    refine (keeps_commit _ _).mpr ⟨?_, fun _ => trivial⟩
    intro w hw
    rw [List.mem_singleton.mp hw]
    trivial
  unfold handleFailure
  rw [keeps_bind, keeps_rollback]
  intro s
  rw [keeps_bind, keeps_select]
  intro s'
  cases s'.db.durableOperations.get? operation with
  | none => cases e <;> trivial
  | some row =>
    cases e with
    | authorization message =>
      rw [keeps_bind]
      exact Keeps.mono (hcancel row _) fun _ _ => trivial
    | _ =>
      rw [keeps_bind]
      exact Keeps.mono (hretry row _) fun _ _ => trivial

/-! ## The claim of an operation -/

/-- The row that a worker reads back after its claim is the one it has in hand. -/
theorem wp_claimOperation_tracks (workerId : String) (t : Sys H) :
    wp ((checkpointing settings outside ok o).contract p) (claimOperation settings workerId)
      (Post.returning fun claimed t' => ∀ row, claimed = some row →
        inHand p t'.log = some row.id ∧
          t'.store.db.durableOperations.get? row.id = some row ∧
          (row.id = o → row.checkpoint.WellFormed)) t := by
  have hnow : Keeps Write.Quiet Call.Quiet (fun _ => True) utcnow :=
    (keeps_utcnow _).mpr fun _ => trivial
  unfold claimOperation
  refine wp_returning (wp_quiet hnow t) ?_
  intro now t₁ _
  rw [wp_run_bind]
  intro t₂ _ _ _
  refine ⟨(fun ws hws => by cases hws), ?_⟩
  have hview : ((checkpointing settings outside ok o).contract p).machine.view = Sys.store := rfl
  rw [hview]
  cases nextOperation t₂.store now with
  | none =>
    refine Post.returning_ok fun row hrow => ?_
    cases hrow
  | some row =>
    rw [wp_bind, wp_commit]
    intro t₃ _ _ _
    refine ⟨?_, fun _ => (Post.andThen_error _ _ _ _).mpr (Post.returning_error _ _ _), ?_⟩
    · intro ws hws upid payload lease hw
      injection hws with hws
      rw [← hws] at hw
      cases List.mem_singleton.mp hw
    · intro db hcommit
      have hcommit : t₃.store.afterCommit [.operation (.claim row.id workerId
        (now + settings.operationLeaseSeconds) (row.startedAt.getD now) (row.attempts + 1))] =
          some db := hcommit
      have hhand : inHand p ((machine outside).exec p (.commit [.operation (.claim row.id workerId
          (now + settings.operationLeaseSeconds) (row.startedAt.getD now) (row.attempts + 1))])
          t₃).log = some row.id := by
        refine (inHand_cons_self _ rfl).trans ?_
        unfold Entry.hand Entry.written
        simp only [hcommit]
        rfl
      unfold reloadOperation
      rw [Post.andThen_ok, wp_bind, wp_bind, wp_select]
      intro t₄ hr₄ hinv₄ _
      refine ⟨(fun ws hws => by cases hws), ?_⟩
      rw [Post.andThen_ok, hview, wp_orRaise]
      refine ⟨fun _ => (Post.andThen_error _ _ _ _).mpr (Post.returning_error _ _ _), ?_⟩
      intro cur hcur
      refine (Post.andThen_ok _ _ _ _).mpr (Post.returning_ok ?_)
      rintro _ ⟨⟩
      have hid : cur.id = row.id := Table.get?_key hcur
      rw [hid]
      refine ⟨?_, hcur, ?_⟩
      · refine (inHand_cons_of_quiet p _ rfl).trans ?_
        exact hr₄.1.inHand.trans hhand
      · rintro rfl
        exact hinv₄.1.2.2 cur hcur

/-! ## Other operations and other requests -/

/-- The writes that neither claim an operation nor record a checkpoint of this one. -/
def Write.Elsewhere (o : ℕ) : Write → Prop
  | .operation (.claim _ _ _ _ _) => False
  | .operation (.checkpoint o' _ _ _) => o' ≠ o
  | _ => True

/-- A process that does not have the operation in hand does not get it without a claim. -/
theorem elsewhere_tolerates : ((checkpointing settings outside ok o).contract p).Tolerates
    (fun t => inHand p t.log ≠ some o) (Commits (Write.Elsewhere o)) (fun _ => True) where
  stable := fun t t' h hr _ => by rwa [hr.1.inHand]
  stmt := by
    intro q t hq _ h _
    refine ⟨?_, ?_⟩
    · rintro ws rfl upid payload lease hw
      exact absurd rfl (hq _ hw)
    · show inHand p (.stmt p q t.store :: t.log) ≠ some o
      rw [inHand_cons_self _ (show (Entry.stmt p q t.store).pid = p from rfl)]
      intro hhand
      refine h (inHand_of_foldl ?_ hhand).1
      rintro w hw o' owner lease started attempts rfl
      cases q with
      | commit ws => exact hq _ (mem_of_mem_written hw)
      | _ => cases hw
  call := by
    intro c t _ _ h
    refine ⟨fun hhand => absurd hhand h, ?_⟩
    rintro r t' ⟨-, -, hyper, -, rfl⟩
    show inHand p (.reply p c r :: .call p c t.store :: t.log) ≠ some o
    rw [inHand_cons_of_quiet p _ rfl, inHand_cons_of_quiet p _ rfl]
    exact h

/-- The execution of another operation. -/
theorem wp_executeOperation_elsewhere {row : DurableOperation} (hid : row.id ≠ o)
    (ht : inHand p t.log ≠ some o) :
    wp ((checkpointing settings outside ok o).contract p) (executeOperation settings row)
      (fun _ _ => True) t := by
  refine (maintains_execution elsewhere_tolerates ?_ ?_ ?_).safe ht
  · intro v _ w hw
    cases w with
    | operation w =>
      cases w with
      | renewLease o' lease => trivial
      | checkpoint o' upid payload lease =>
        show o' ≠ o
        rw [hw.1]
        exact hid
      | _ => exact hw.elim
    | _ => trivial
  · intro v _ w hw
    cases w with
    | operation w => exact hw.elim
    | _ => trivial
  · exact fun _ _ => trivial

/-- A turn of the operation worker. -/
theorem wp_operationWorker_tracks (workerId : String) (t : Sys H) :
    wp ((checkpointing settings outside ok o).contract p) (operationWorker settings workerId)
      (fun _ _ => True) t := by
  unfold operationWorker
  refine wp_seq (wp_claimOperation_tracks workerId t) ?_ (fun _ _ _ => trivial)
  intro claimed t₁ hclaimed
  cases claimed with
  | none => exact trivial
  | some row =>
    obtain ⟨hhand, hrow, hform⟩ := hclaimed _ rfl row rfl
    have hexecute : wp ((checkpointing settings outside ok o).contract p)
        (executeOperation settings row) (fun _ _ => True) t₁ := by
      by_cases hid : row.id = o
      · subst hid
        have ht : Tracks p row.id row.target none row.checkpoint [] t₁ :=
          ⟨hhand, ⟨row, hrow, rfl, rfl⟩, by simp, List.nil_suffix⟩
        exact wp_mono (wp_executeOperation_tracks rfl (hform rfl) ht) fun _ _ _ => trivial
      · refine wp_executeOperation_elsewhere hid ?_
        rw [hhand]
        exact fun h => hid (Option.some.inj h)
    have hbody : wp ((checkpointing settings outside ok o).contract p)
        (do
          executeOperation settings row
          return WorkerTurn.succeeded)
        (fun _ _ => True) t₁ :=
      wp_seq hexecute (fun _ _ _ => trivial) fun _ _ _ => trivial
    refine wp_handle hbody (fun _ _ _ => trivial) ?_
    intro e t₂ _
    exact wp_mono (wp_quiet (keeps_handleFailure settings row.id e) t₂) fun _ _ _ => trivial

/-- A request of another kind never has an operation in hand. -/
theorem wp_request_elsewhere {r : Request} (hr : r.isWorker = false) (prog : Action Unit)
    (ht : entriesOf p t.log = [.enter p r]) :
    wp ((checkpointing settings outside ok o).contract p) prog (fun _ _ => True) t := by
  have hstart : Entry.enter p r ∈ t.log ∧ inHand p t.log = none := by
    refine ⟨mem_of_entriesOf_enter ht, ?_⟩
    unfold inHand
    rw [ht]
    rfl
  refine Maintains.safe (J := fun t => Entry.enter p r ∈ t.log ∧ inHand p t.log = none)
    (Maintains.of_ensures (R := fun _ => True) ?_ (Program.ensures_anything prog)) hstart
  refine ⟨fun t t' h hr _ => ⟨hr.1.log.subset h.1, hr.1.inHand.trans h.2⟩, ?_, ?_⟩
  · rintro q t - - ⟨henter, hhand⟩ ⟨-, hlogged, -, hconducted⟩
    have hnone : ∀ ws, q = .commit ws → ∀ w, .operation w ∈ ws → ∃ row, w = .insert row := by
      rintro ws rfl w hw
      obtain ⟨r', hr', hconducts⟩ := hconducted
      have hwrite := hconducts ws rfl _ hw
      rw [hlogged.request p r' r hr' henter] at hwrite
      unfold Request.conducts at hwrite
      rw [hr, if_neg (by simp)] at hwrite
      obtain ⟨row, hrow, -⟩ := Request.mayWrite_operation hr hwrite.1
      exact ⟨row, hrow⟩
    refine ⟨?_, List.mem_cons_of_mem _ henter, ?_⟩
    · rintro ws rfl upid payload lease hw
      obtain ⟨row, hrow⟩ := hnone ws rfl _ hw
      cases hrow
    · show inHand p (.stmt p q t.store :: t.log) = none
      rw [inHand_cons_self _ (show (Entry.stmt p q t.store).pid = p from rfl), hhand]
      refine inHand_foldl ?_
      intro w hw x
      cases q with
      | commit ws =>
        cases w with
        | operation w =>
          obtain ⟨row, rfl⟩ := hnone ws rfl w (mem_of_mem_written hw)
          rfl
        | _ => rfl
      | _ => cases hw
  · rintro c t - - ⟨henter, hhand⟩
    refine ⟨fun h => ?_, ?_⟩
    · have h : inHand p t.log = some o := h
      rw [hhand] at h
      cases h
    · rintro reply t' ⟨-, -, hyper, -, rfl⟩
      refine ⟨List.mem_cons_of_mem _ (List.mem_cons_of_mem _ henter), ?_⟩
      show inHand p (.reply p c reply :: .call p c t.store :: t.log) = none
      rw [inHand_cons_of_quiet p _ rfl, inHand_cons_of_quiet p _ rfl, hhand]

/-- The program of every request keeps to the checkpoints. -/
theorem checkpointing_program_sound (hok : ∀ p q t, ok.stmt p q t → TakesOverOf o q t) :
    (checkpointing settings outside ok o).Sound := by
  refine checkpointing_sound hok ?_
  intro r p t ht
  cases hr : r.isWorker with
  | false => exact wp_request_elsewhere hr _ ht
  | true =>
    cases r with
    | operationWorker workerId => exact wp_discard (wp_operationWorker_tracks workerId t)
    | _ => cases hr

end Turn

end LabGoblin
