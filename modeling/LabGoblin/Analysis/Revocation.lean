import LabGoblin.Analysis.ConductSound
import LabGoblin.Analysis.Fixture

/-!
# Revoked assignments

A revoked assignment stays unusable until an instructor assigns its slot again, except for the
commits that write a status they computed before or without looking: the completion of a
`vm.create` or of an ordinary `vm.delete` on its VM, and a `delete_app_record_admin` that read
the assignment as ready before it was revoked.
-/

set_option autoImplicit false

namespace LabGoblin

open Interactive

section Revocation

variable {H : Type} {settings : Settings} {outside : Outside H}

/-! ## What a run has revoked -/

/-- The assignment is revoked. -/
def Db.revoked (db : Db) (a : ℕ) : Bool :=
  (db.labAssignments.get? a).any fun row => row.status = .revoked

/-- The write reassigns the slot of an assignment. -/
def Write.reassigns (a : ℕ) : Write → Bool
  | .assignment (.reassign a' _ _) => a' = a
  | _ => false

/-- The assignment was revoked in a run that started from `start`, and its slot was not
reassigned since. -/
def withdrawn (start : Db) (a : ℕ) : List Entry → Bool
  | [] => start.revoked a
  | .stmt _ (.commit ws) s :: log =>
    match s.afterCommit ws with
    | none => withdrawn start a log
    | some db => db.1.revoked a || (withdrawn start a log && !ws.any (Write.reassigns a))
  | _ :: log => withdrawn start a log

/-- The completion of the operation gives its assignment a live status again. -/
def DurableOperation.restores (o : DurableOperation) : Bool :=
  o.operationType = .create ||
    (o.operationType = .delete && o.payload.expirationCleanup ≠ some true)

/-- A commit that touches a withdrawn assignment is not the completion of an operation that
gives it a live status, nor a deletion of the record that read it as ready. -/
def LeavesWithdrawn (start : Db) (p : Pid) (q : Stmt) (t : Sys H) : Prop :=
  ∀ ws, q = .commit ws → ∀ w, .assignment w ∈ ws → withdrawn start w.target t.log = true →
    (∀ o row, inHand p t.log = some o → t.store.db.durableOperations.get? o = some row →
      row.restores = false) ∧
    ∀ s₂ s₁ rest vm row, entriesOf p t.log =
        .stmt p (.select .rows) s₂ :: .stmt p (.select .rows) s₁ :: rest →
      assignmentOfVm s₁.db vm = some row → row.id = w.target → row.status ≠ .ready

/-- A withdrawn assignment is neither assigned nor ready. -/
def StaysWithdrawn (start : Db) (t : Sys H) : Prop :=
  ∀ a, withdrawn start a t.log = true →
    ∃ row, t.store.db.labAssignments.get? a = some row ∧ row.status.live = false

/-- A revoked assignment is there and not live. -/
theorem exists_of_revoked {db : Db} {a : ℕ} (h : db.revoked a = true) :
    ∃ row, db.labAssignments.get? a = some row ∧ row.status.live = false := by
  unfold Db.revoked at h
  cases hrow : db.labAssignments.get? a with
  | none =>
    rw [hrow] at h
    cases h
  | some row =>
    rw [hrow] at h
    have hstatus : row.status = .revoked := by simpa using h
    refine ⟨row, rfl, ?_⟩
    rw [hstatus]
    rfl

/-- Only a commit that takes effect withdraws or reassigns. -/
theorem withdrawn_cons_of_quiet (start : Db) (a : ℕ) {e : Entry} (log : List Entry)
    (he : ∀ p ws s db, e = .stmt p (.commit ws) s → s.afterCommit ws ≠ some db) :
    withdrawn start a (e :: log) = withdrawn start a log := by
  cases e with
  | stmt p q s =>
    cases q with
    | commit ws =>
      cases hcommit : s.afterCommit ws with
      | none => simp only [withdrawn, hcommit]
      | some db => exact absurd hcommit (he p ws s db rfl)
    | _ => rfl
  | _ => rfl

/-- A commit after which an assignment is withdrawn revoked it, or left it and its slot alone. -/
theorem withdrawn_commit {start : Db} {a : ℕ} {log : List Entry} {p : Pid} {ws : List Write}
    {s : Store} {db : { db : Db // db.Constraints }} (hcommit : s.afterCommit ws = some db)
    (h : withdrawn start a (.stmt p (.commit ws) s :: log) = true) :
    db.1.revoked a = true ∨ withdrawn start a log = true ∧
      ∀ templateId expiresAt, .assignment (.reassign a templateId expiresAt) ∉ ws := by
  simp only [withdrawn, hcommit, Bool.or_eq_true, Bool.and_eq_true] at h
  rcases h with h | ⟨h, hno⟩
  · exact Or.inl h
  · refine Or.inr ⟨h, ?_⟩
    intro templateId expiresAt hw
    have hany : ws.any (Write.reassigns a) = true :=
      List.any_eq_true.mpr ⟨_, hw, decide_eq_true rfl⟩
    rw [hany] at hno
    cases hno

/-! ## One commit -/

section Commit

variable {start : Db} {p : Pid} {ws : List Write} {t : Sys H}
  {db : { db : Db // db.Constraints }}

/-- What a worker writes leaves a withdrawn assignment unusable. -/
theorem Write.ByWorker.keepsWithdrawn {w : AssignmentWrite}
    (h : Write.ByWorker p t ws (.assignment w))
    (hrestores : ∀ o row, inHand p t.log = some o →
      t.store.db.durableOperations.get? o = some row → row.restores = false)
    {r : LabAssignment} (hr : r.status.live = false) : (w.onRow r).status.live = false := by
  cases w with
  | status a s =>
    obtain ⟨row, ⟨hhand, cur, hcur, hsame⟩, htype, -⟩ := h
    have := hrestores _ cur hhand hcur
    simp [DurableOperation.restores, hsame.operationType, htype] at this
  | unlink a s =>
    obtain ⟨row, ⟨hhand, cur, hcur, hsame⟩, htype, hs⟩ := h
    have hcleanup : row.payload.expirationCleanup = some true := by
      have hno := hrestores _ cur hhand hcur
      have hpayload := congrArg Payload.expirationCleanup hsame.payload
      have hpayload : cur.payload.expirationCleanup = row.payload.expirationCleanup := hpayload
      rw [← hpayload]
      simpa [DurableOperation.restores, hsame.operationType, htype] using hno
    rcases hs with rfl | rfl
    · exact hr
    · rw [if_pos hcleanup]
      rfl
  | _ => exact h.elim

/-- What an endpoint writes leaves a withdrawn assignment unusable, unless it reassigns it. -/
theorem keepsWithdrawn_of_request {r : Request} (hr : r.isWorker = false) {w : AssignmentWrite}
    (hmay : r.mayWrite (.assignment w)) (hgrounded : Write.Grounded r p t ws (.assignment w))
    (hread : ∀ s₂ s₁ rest vm row, entriesOf p t.log =
        .stmt p (.select .rows) s₂ :: .stmt p (.select .rows) s₁ :: rest →
      assignmentOfVm s₁.db vm = some row → row.id = w.target → row.status ≠ .ready)
    (hreassign : ∀ a templateId expiresAt, w ≠ .reassign a templateId expiresAt)
    (hinsert : ∀ row, w ≠ .insert row) {row : LabAssignment} (hrow : row.status.live = false) :
    (w.onRow row).status.live = false := by
  cases w with
  | insert r => exact absurd rfl (hinsert r)
  | reassign a templateId expiresAt => exact absurd rfl (hreassign a templateId expiresAt)
  | status a s =>
    rcases Request.mayWrite_status hr hmay with rfl | rfl <;> rfl
  | link a v => exact hrow
  | reschedule a expiresAt templateId => exact hrow
  | unlink a s =>
    obtain ⟨caller, vm, -, s₂, s₁, rest, read, hentries, hassignment, hid, rfl⟩ := hgrounded
    rw [if_neg (hread s₂ s₁ rest vm read hentries hassignment hid)]
    exact hrow

/-- A conducted commit that meets the condition keeps the withdrawn assignments unusable. -/
theorem StaysWithdrawn.commit (h : StaysWithdrawn start t)
    (hconducted : Stmt.Conducted p (.commit ws) t)
    (hleaves : LeavesWithdrawn start p (.commit ws) t)
    (hcommit : t.store.afterCommit ws = some db) {t' : Sys H}
    (hlog : t'.log = .stmt p (.commit ws) t.store :: t.log) (hdb : t'.store.db = db.1) :
    StaysWithdrawn start t' := by
  intro a ha
  rw [hlog] at ha
  rw [hdb]
  rcases withdrawn_commit hcommit ha with hrevoked | ⟨hbefore, hno⟩
  · exact exists_of_revoked hrevoked
  · obtain ⟨row, hrow, hlive⟩ := h a hbefore
    obtain ⟨row', hrow'⟩ := Store.assignment_stays hcommit hrow
    refine ⟨row', hrow', ?_⟩
    refine Store.assignment_afterCommit (P := fun r => r.status.live = false) hcommit ?_ ?_ ?_
      row' hrow'
    · intro r hr
      rw [hrow] at hr
      cases hr
      exact hlive
    · intro r hnone
      rw [hrow] at hnone
      cases hnone
    · intro w hw htarget r _ hr
      obtain ⟨hrestores, hread⟩ := hleaves ws rfl w hw (by rw [htarget]; exact hbefore)
      obtain ⟨request, -, ⟨-, hworker⟩ | ⟨hendpoint, hrequest⟩⟩ := hconducted.split
      · exact (hworker _ hw).keepsWithdrawn hrestores hr
      · obtain ⟨hmay, hgrounded⟩ := hrequest _ hw
        refine keepsWithdrawn_of_request hendpoint hmay hgrounded hread ?_ ?_ hr
        · rintro a' templateId expiresAt rfl
          have ha' : a' = a := htarget
          subst ha'
          exact hno templateId expiresAt hw
        · rintro inserted rfl
          have hid : inserted.id = a := htarget
          have := Store.assignment_fresh hcommit hw
          rw [hid, hrow] at this
          cases this

end Commit

/-! ## Runs -/

/-- Steps that neither change a row nor make a write visible. -/
theorem StaysWithdrawn.quiet {start : Db} {t t' : Sys H} (h : StaysWithdrawn start t)
    (hlog : ∀ a, withdrawn start a t'.log = withdrawn start a t.log)
    (hrows : t.store.db.SameRows t'.store.db) : StaysWithdrawn start t' := by
  intro a ha
  rw [hlog] at ha
  obtain ⟨row, hrow, hlive⟩ := h a ha
  exact ⟨row, (hrows.assignment a).trans hrow, hlive⟩

/-- The runs whose commits all leave the withdrawn assignments as they are. -/
def unrestoring (settings : Settings) (outside : Outside H) (start : Db) :
    System Api (Sys H) Request :=
  (system settings outside).restrict (fun _ _ => True) (LeavesWithdrawn start)
    (fun _ _ _ => True)

/-- Every step keeps the withdrawn assignments unusable. -/
theorem staysWithdrawn_preserved (start : Db) :
    ((conduct settings outside).restrict (fun _ _ => True) (LeavesWithdrawn start)
      (fun _ _ _ => True)).allowed.Preserves (StaysWithdrawn start) where
  stmt := by
    rintro p q t h ⟨⟨-, hleaves⟩, -, -, hconducted⟩
    have hlog : ((machine outside).exec p q t).log = .stmt p q t.store :: t.log := rfl
    rcases Store.exec_cases p q t.store with ⟨ws, db, rfl, hcommit, hdb, -⟩ | ⟨hnone, -, hsame⟩
    · exact h.commit hconducted hleaves hcommit hlog hdb
    · refine h.quiet (fun a => ?_) hsame
      refine withdrawn_cons_of_quiet start a t.log ?_
      intro p' ws s db heq hcommit
      injection heq with _ hq hs
      subst hs
      rw [hnone ws hq] at hcommit
      cases hcommit
  call := by
    rintro p c t r t' h ⟨-, -, hyper, -, rfl⟩
    exact h.quiet (fun _ => rfl) (.refl _)
  enter := fun r t h _ => h.quiet (fun _ => rfl) (.refl _)
  leave := fun p t h => h.quiet (fun _ => rfl) (.refl _)
  env := by
    rintro t t' h ⟨-, henv, hlog⟩
    exact h.quiet (fun _ => by rw [hlog]) henv.sameRows

/-- In every run from the state, an assignment that was revoked and whose slot was not
reassigned since is not live, so it opens nothing to its student. -/
def RevokedRuns (sys : System Api (Sys H) Request) (t : Sys H) : Prop :=
  ∀ w, World.Reach sys (World.idle t) w →
    ∀ a, withdrawn t.store.db a w.shared.log = true →
      (∃ row, w.shared.store.db.labAssignments.get? a = some row ∧ row.status.live = false ∧
        ∀ run now, assignmentEffectivelyOpen row run now = false) ∧
      ∀ now userId organizationId vm access,
        activeAssignmentForVm w.shared.store.db now userId organizationId vm = some access →
        access.1.id ≠ a

/-- What is not live is not effectively open. -/
theorem effectivelyOpen_of_not_live {row : LabAssignment} (h : row.status.live = false)
    (run : LabRun) (now : Time) : assignmentEffectivelyOpen row run now = false := by
  unfold assignmentEffectivelyOpen
  rw [h]
  rfl

/-- The assignment through which a VM is accessed is a row that is effectively open. -/
theorem activeAssignmentForVm_some {db : Db} {now : Time} {userId organizationId vm : ℕ}
    {access : LabAssignment × LabRun × Lab}
    (h : activeAssignmentForVm db now userId organizationId vm = some access) :
    access.1 ∈ db.labAssignments.rows ∧ access.1.organizationId = organizationId ∧
      access.1.userId = userId ∧ access.1.studentVmId = some vm ∧
      runInOrganization db access.1.labRunId organizationId = some access.2.1 ∧
      assignmentEffectivelyOpen access.1 access.2.1 now = true := by
  unfold activeAssignmentForVm at h
  simp only [Option.bind_eq_bind, Option.bind_eq_some_iff, guard, Option.pure_def] at h
  obtain ⟨a, ha, run, hrun, _, hopen, lab, _, _, _, haccess⟩ := h
  obtain ⟨hmem, hcond⟩ := Table.first_some ha
  simp only [Bool.and_eq_true, decide_eq_true_eq] at hcond
  cases haccess
  refine ⟨hmem, hcond.1.1, hcond.1.2, hcond.2, hrun, ?_⟩
  by_contra hclosed
  rw [if_neg hclosed] at hopen
  cases hopen

/-- Revocation is permanent in every run in which no completion and no deletion of a record
restores a withdrawn assignment. -/
theorem revocation_permanent (settings : Settings) (outside : Outside H) (t : Sys H)
    (ht : t.log = []) : RevokedRuns (unrestoring settings outside t.store.db) t := by
  intro w hr a ha
  have hinitial : StaysWithdrawn t.store.db (World.idle (G := Api) t).shared := by
    intro a ha
    have ha : withdrawn t.store.db a t.log = true := ha
    rw [ht] at ha
    exact exists_of_revoked ha
  have h := (staysWithdrawn_preserved t.store.db).of_reach hinitial (reach_conduct ht hr)
  obtain ⟨row, hrow, hlive⟩ := h a ha
  refine ⟨⟨row, hrow, hlive, effectivelyOpen_of_not_live hlive⟩, ?_⟩
  rintro now userId organizationId vm access haccess rfl
  obtain ⟨hmem, -, -, -, -, hopen⟩ := activeAssignmentForVm_some haccess
  rw [Table.get?_of_mem hmem] at hrow
  cases hrow
  rw [effectivelyOpen_of_not_live hlive] at hopen
  cases hopen

end Revocation

namespace Fixture

/-- From the store of the fixture revocations are permanent, where nobody restores them. -/
theorem revocation_permanent_readyStore :
    RevokedRuns (unrestoring {} anything (start readyStore).store.db) (start readyStore) :=
  revocation_permanent {} anything (start readyStore) rfl

/-- An instructor revokes the assignment, a platform administrator deletes its VM, and a worker
executes the deletion. -/
def revokeThenDelete : List (Move Api Request) :=
  [.spawn (.revokeRunAssignment ⟨1, some 1⟩ 1 1), .run 0 5 absent, .exit 0,
    .spawn (.deleteVmRecord ⟨1, some 1⟩ 1 (.delete 200000)), .run 1 6 absent, .exit 1,
    .spawn (.operationWorker "w"), .run 2 12 absent]

/-- The status of an assignment. -/
def assignmentStatus (w : World Api (Sys Unit)) (a : ℕ) : Option AssignmentStatus :=
  (w.shared.store.db.labAssignments.get? a).map LabAssignment.status

set_option maxRecDepth 100000 in
/-- The completed deletion assigns the revoked slot again. -/
theorem revocation_undone : ¬ RevokedRuns (system {} anything) (start readyStore) := by
  intro h
  have hplay : (player.play (World.idle (start readyStore)) revokeThenDelete).any (fun w =>
      withdrawn (start readyStore).store.db 1 w.shared.log &&
        decide (assignmentStatus w 1 = some .assigned)) = true := by
    decide +kernel
  obtain ⟨w, hr, hw⟩ := player.exists_of_play hplay
  rw [Bool.and_eq_true, decide_eq_true_eq] at hw
  obtain ⟨row, hrow, hlive, -⟩ := (h w hr 1 hw.1).1
  obtain ⟨row', hrow', hassigned⟩ := Option.map_eq_some_iff.mp hw.2
  rw [hrow] at hrow'
  cases hrow'
  rw [hassigned] at hlive
  cases hlive

end Fixture

end LabGoblin
