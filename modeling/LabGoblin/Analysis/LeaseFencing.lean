import LabGoblin.Analysis.ConductSound
import LabGoblin.Analysis.Fixture

/-!
# Lease fencing

An operation's row is updated by the process that claimed it last, as long as a running
operation is taken over only from a process that has ended. The claim of a row whose lease has
run out does not ask for that: a worker that stalls past its lease keeps the row it loaded and
goes on to write it.
-/

set_option autoImplicit false

namespace LabGoblin

open Interactive

section Fencing

variable {H : Type} {settings : Settings} {outside : Outside H}

/-- The operation, while it is running, is taken over only from a process that has ended. -/
def TakesOverOf (o : ℕ) (q : Stmt) (t : Sys H) : Prop :=
  ∀ ws, q = .commit ws → ∀ owner lease started attempts,
    .operation (.claim o owner lease started attempts) ∈ ws →
    ∀ row, t.store.db.durableOperations.get? o = some row → row.state = .running →
    ∀ p, lastClaimant o t.log = some p → Ended p t.log

/-- A running operation is taken over only from a process that has ended. -/
def TakesOver (q : Stmt) (t : Sys H) : Prop :=
  ∀ ws, q = .commit ws → ∀ o owner lease started attempts,
    .operation (.claim o owner lease started attempts) ∈ ws →
    ∀ row, t.store.db.durableOperations.get? o = some row → row.state = .running →
    ∀ p, lastClaimant o t.log = some p → Ended p t.log

/-- A statement that takes over no operation of a live process takes over no given one. -/
theorem TakesOver.of {q : Stmt} {t : Sys H} (h : TakesOver q t) (o : ℕ) : TakesOverOf o q t :=
  fun ws hws => h ws hws o

/-- Every update of an operation came from the process that had claimed it last. -/
def Fenced (log : List Entry) : Prop :=
  ∀ newer e older, log = newer ++ e :: older → ∀ w ∈ e.written, ∀ o, w.updates = some o →
    lastClaimant o older = some e.pid

/-- An entry whose updates come from the last claimant keeps the log fenced. -/
theorem Fenced.cons {log : List Entry} (h : Fenced log) {e : Entry}
    (he : ∀ w ∈ e.written, ∀ o, w.updates = some o → lastClaimant o log = some e.pid) :
    Fenced (e :: log) :=
  EachAfter.cons (P := fun e older => ∀ w ∈ e.written, ∀ o, w.updates = some o →
    lastClaimant o older = some e.pid) h he

/-! ## One operation -/

/-- Whoever is present and has the operation in hand claimed it last, and it is running. -/
def Sole (o : ℕ) (t : Sys H) : Prop :=
  ∀ p, Present p t → inHand p t.log = some o → lastClaimant o t.log = some p ∧
    ∃ row, t.store.db.durableOperations.get? o = some row ∧ row.state = .running

/-- Nobody else has it in hand. -/
theorem Sole.eq {o : ℕ} {t : Sys H} (h : Sole o t) {p p' : Pid} (hp : Present p t)
    (hhand : inHand p t.log = some o) (hp' : Present p' t) (hhand' : inHand p' t.log = some o) :
    p = p' := by
  have hlast := (h p hp hhand).1
  rw [(h p' hp' hhand').1] at hlast
  exact (Option.some.inj hlast).symm

/-- Steps that make nothing visible. -/
theorem Sole.quiet {o : ℕ} {t t' : Sys H} (h : Sole o t) {e : Entry} (hlog : t'.log = e :: t.log)
    (he : e.written = []) (hrows : t.store.db.SameRows t'.store.db)
    (hpresent : ∀ p, Present p t' → inHand p t.log = some o → Present p t) : Sole o t' := by
  intro p hp hhand
  rw [hlog, inHand_cons_of_quiet p _ he] at hhand
  obtain ⟨hclaimant, row, hrow, hstate⟩ := h p (hpresent p hp hhand) hhand
  refine ⟨?_, row, ?_, hstate⟩
  · rw [hlog, lastClaimant_cons_of_quiet _ (by simp [he]), hclaimant]
  · rw [hrows.operation, hrow]

section Commit

variable {o : ℕ} {p : Pid} {ws : List Write} {t : Sys H} {db : { db : Db // db.Constraints }}
  (h : Sole o t) (hp : Present p t) (hconducted : Stmt.Conducted p (.commit ws) t)
  (hover : TakesOverOf o (.commit ws) t) (hcommit : t.store.afterCommit ws = some db)
include h hp hconducted

/-- Only the process that claimed the operation last updates it. -/
theorem Sole.update {w : Write} (hw : w ∈ ws) (ho : w.updates = some o) :
    lastClaimant o t.log = some p ∧
      ∃ row, t.store.db.durableOperations.get? o = some row ∧ row.state = .running :=
  h p hp (hconducted.update hw ho)

include hcommit

/-- Once it is finished it is not written any more. -/
theorem Sole.finished {row : DurableOperation}
    (hrow : t.store.db.durableOperations.get? o = some row) (hstate : row.state.terminal = true) :
    db.1.durableOperations.get? o = some row := by
  refine Store.operation_kept hcommit hrow ?_
  intro w hw htarget
  cases w with
  | insert r => exact ⟨r, rfl⟩
  | claim o' owner lease started attempts =>
    have ho : o' = o := htarget
    subst ho
    obtain ⟨⟨cur, hcur, hopen⟩, -⟩ := hconducted.claim hw
    rw [hrow] at hcur
    cases hcur
    rw [hstate] at hopen
    cases hopen
  | _ =>
    obtain ⟨-, cur, hcur, hrunning⟩ := h.update hp hconducted hw (congrArg some htarget)
    rw [hrow] at hcur
    cases hcur
    rw [hrunning] at hstate
    cases hstate

include hover

/-- While another process has it in hand it is not touched. -/
theorem Sole.untouched {p' : Pid} (hne : p' ≠ p) (hp' : Present p' t)
    (hhand : inHand p' t.log = some o) :
    db.1.durableOperations.get? o = t.store.db.durableOperations.get? o ∧
      ∀ w ∈ ws, w.claims o = false := by
  obtain ⟨hclaimant, row, hrow, hstate⟩ := h p' hp' hhand
  have hclaim : ∀ owner lease started attempts,
      Write.operation (.claim o owner lease started attempts) ∉ ws := by
    intro owner lease started attempts hw
    exact hp'.2 (hover ws rfl owner lease started attempts hw row hrow hstate p' hclaimant)
  refine ⟨?_, ?_⟩
  · rw [hrow]
    refine Store.operation_kept hcommit hrow ?_
    intro w hw htarget
    cases w with
    | insert r => exact ⟨r, rfl⟩
    | claim o' owner lease started attempts =>
      have ho : o' = o := htarget
      subst ho
      exact absurd hw (hclaim owner lease started attempts)
    | _ =>
      obtain ⟨hown, -⟩ := h.update hp hconducted hw (congrArg some htarget)
      rw [hclaimant] at hown
      exact absurd (Option.some.inj hown) hne
  · intro w hw
    cases w with
    | operation w =>
      cases w with
      | claim o' owner lease started attempts =>
        refine decide_eq_false ?_
        rintro rfl
        exact hclaim owner lease started attempts hw
      | _ => rfl
    | _ => rfl

/-- After a commit another process still has in hand what it claimed last. -/
theorem Sole.other {p' : Pid} (hne : p' ≠ p) (hp' : Present p' t)
    (hhand : inHand p' t.log = some o) :
    lastClaimant o (.stmt p (.commit ws) t.store :: t.log) = some p' ∧
      ∃ row, db.1.durableOperations.get? o = some row ∧ row.state = .running := by
  obtain ⟨hclaimant, row, hrow, hstate⟩ := h p' hp' hhand
  obtain ⟨hsame, hno⟩ := h.untouched hp hconducted hover hcommit hne hp' hhand
  refine ⟨?_, row, hsame.trans hrow, hstate⟩
  rw [lastClaimant_cons_of_quiet, hclaimant]
  exact fun w hw => hno w (mem_of_mem_written hw)

omit hover in
/-- What the process itself has in hand it has claimed, now or before. -/
theorem Sole.own (hhand : inHand p (.stmt p (.commit ws) t.store :: t.log) = some o) :
    lastClaimant o (.stmt p (.commit ws) t.store :: t.log) = some p ∧
      ∃ row, db.1.durableOperations.get? o = some row ∧ row.state = .running := by
  have hwritten : (Entry.stmt p (.commit ws) t.store).written = ws := by
    simp [Entry.written, hcommit]
  rw [inHand_cons_self _ (show (Entry.stmt p (.commit ws) t.store).pid = p from rfl)] at hhand
  unfold Entry.hand at hhand
  rw [hwritten] at hhand
  by_cases hclaims : ∃ o' owner lease started attempts,
      Write.operation (.claim o' owner lease started attempts) ∈ ws
  · obtain ⟨o', owner, lease, started, attempts, hw⟩ := hclaims
    obtain ⟨⟨cur, hcur, -⟩, hws⟩ := hconducted.claim hw
    subst hws
    have ho : o' = o := Option.some.inj hhand
    subst ho
    refine ⟨?_, ?_⟩
    · refine lastClaimant_cons_of_claims _ (hwritten.symm ▸ hw) ?_
      exact decide_eq_true rfl
    · have hafter := Store.operation_after hcommit (by simp)
      rw [show (OperationWrite.claim o' owner lease started attempts).target = o' from rfl,
        hcur] at hafter
      exact ⟨_, hafter, rfl⟩
  · have hno : ∀ w ∈ ws, ∀ o' owner lease started attempts,
        w ≠ .operation (.claim o' owner lease started attempts) := by
      rintro w hw o' owner lease started attempts rfl
      exact hclaims ⟨o', owner, lease, started, attempts, hw⟩
    obtain ⟨hbefore, hkeeps⟩ := inHand_of_foldl hno hhand
    obtain ⟨hclaimant, row, hrow, hstate⟩ := h p hp hbefore
    refine ⟨?_, ?_⟩
    · rw [lastClaimant_cons_of_quiet, hclaimant]
      intro w hw
      cases w with
      | operation w =>
        cases w with
        | claim o' owner lease started attempts =>
          exact absurd rfl (hno _ (mem_of_mem_written hw) o' owner lease started attempts)
        | _ => rfl
      | _ => rfl
    · obtain ⟨row', hrow'⟩ := Store.operation_stays hcommit hrow
      refine ⟨row', hrow', ?_⟩
      refine Store.operation_afterCommit (P := fun r => r.state = .running) hcommit ?_ ?_ ?_
        row' hrow'
      · intro r hr
        rw [hrow] at hr
        cases hr
        exact hstate
      · intro r hnone
        rw [hrow] at hnone
        cases hnone
      · intro w hw _ r _ hr
        cases w with
        | insert row => exact hr
        | renewLease o' lease => exact hr
        | checkpoint o' upid payload lease => exact hr
        | claim o' owner lease started attempts => rfl
        | _ => cases hkeeps _ hw

/-- A commit keeps the operation in the hands of one process. -/
theorem Sole.commit {t' : Sys H} (hlog : t'.log = .stmt p (.commit ws) t.store :: t.log)
    (hdb : t'.store.db = db.1) : Sole o t' := by
  intro p' hp' hhand
  have hbefore := hp'.of_cons hlog (by simp)
  rw [hlog] at hhand ⊢
  rw [hdb]
  by_cases hne : p' = p
  · subst hne
    exact h.own hp hconducted hcommit hhand
  · rw [inHand_cons_of_ne _ (Ne.symm hne)] at hhand
    exact h.other hp hconducted hover hcommit hne hbefore hhand

end Commit

section Steps

variable {o : ℕ} {t t' : Sys H} (h : Sole o t)
include h

/-- A statement that takes over only from ended processes keeps the operation in one hand. -/
theorem Sole.exec {p : Pid} {q : Stmt} (hp : Present p t) (hconducted : Stmt.Conducted p q t)
    (hover : TakesOverOf o q t) : Sole o ((machine outside).exec p q t) := by
  have hlog : ((machine outside).exec p q t).log = .stmt p q t.store :: t.log := rfl
  rcases Store.exec_cases p q t.store with ⟨ws, db, rfl, hcommit, hdb, -⟩ | ⟨-, hwritten, hsame⟩
  · exact h.commit hp hconducted hover hcommit hlog hdb
  · exact h.quiet hlog hwritten hsame fun p' hp' _ => hp'.of_cons hlog (by simp)

/-- The answer to a call keeps the operation in one hand. -/
theorem Sole.answer {p : Pid} {c : Call} {r : Except Exc c.Reply}
    (ha : (machine outside).answer p c t r t') : Sole o t' := by
  obtain ⟨hyper, -, rfl⟩ := ha
  have hcall : Sole o { t with log := .call p c t.store :: t.log } :=
    h.quiet rfl rfl (.refl _) fun p' hp' _ => hp'.of_cons rfl (by simp)
  exact hcall.quiet rfl rfl (.refl _) fun p' hp' _ => hp'.of_cons rfl (by simp)

/-- A new process has nothing in hand. -/
theorem Sole.enter (hinv : WellLogged t.log) (r : Request) : Sole o (t.enter r) := by
  refine h.quiet rfl rfl (.refl _) ?_
  intro p hp hhand
  by_cases hnew : p = started t.log
  · subst hnew
    unfold inHand at hhand
    rw [hinv.entriesOf_started] at hhand
    cases hhand
  · refine hp.of_cons rfl ?_
    intro r' heq
    injection heq with hpid _
    exact hnew hpid.symm

/-- A process that ends leaves the others alone. -/
theorem Sole.leave (p : Pid) : Sole o (t.leave p) :=
  h.quiet rfl rfl (.refl _) fun p' hp' _ => hp'.of_cons rfl (by simp)

/-- The environment claims nothing and finishes nothing. -/
theorem Sole.env (henv : t.store.Environment t'.store) (hlog : t'.log = t.log) : Sole o t' := by
  intro p hp hhand
  have hp : Present p t := by
    unfold Present at hp ⊢
    rwa [hlog] at hp
  rw [hlog] at hhand ⊢
  obtain ⟨hclaimant, row, hrow, hstate⟩ := h p hp hhand
  exact ⟨hclaimant, row, (henv.sameRows.operation o).trans hrow, hstate⟩

end Steps

/-- At the start nobody has anything in hand. -/
theorem sole_initial {o : ℕ} {t : Sys H} (ht : t.log = []) : Sole o t := by
  intro p _ hhand
  rw [ht] at hhand
  cases hhand

/-! ## All operations -/

/-- What a process that is present has in hand it claimed last, and it is running. -/
structure Fencing (t : Sys H) : Prop where
  holds : ∀ p o, Present p t → inHand p t.log = some o →
    lastClaimant o t.log = some p ∧
      ∃ row, t.store.db.durableOperations.get? o = some row ∧ row.state = .running
  fenced : Fenced t.log

/-- Under the fencing every operation is in one hand at most. -/
theorem Fencing.sole {t : Sys H} (h : Fencing t) (o : ℕ) : Sole o t := fun p => h.holds p o

/-- Steps that make nothing visible add no update. -/
theorem Fencing.of_sole {t t' : Sys H} (h : Fencing t) (hsole : ∀ o, Sole o t') {e : Entry}
    (hlog : t'.log = e :: t.log) (he : e.written = []) : Fencing t' where
  holds := fun p o => hsole o p
  fenced := by
    rw [hlog]
    exact h.fenced.cons (by simp [he])

/-- A commit adds updates by the process that claimed the operation last. -/
theorem Fencing.commit {p : Pid} {ws : List Write} {t t' : Sys H} (h : Fencing t)
    (hp : Present p t) (hconducted : Stmt.Conducted p (.commit ws) t) (hsole : ∀ o, Sole o t')
    (hlog : t'.log = .stmt p (.commit ws) t.store :: t.log) : Fencing t' where
  holds := fun p o => hsole o p
  fenced := by
    rw [hlog]
    refine h.fenced.cons ?_
    intro w hw o ho
    exact ((h.sole o).update hp hconducted (mem_of_mem_written hw) ho).1

/-! ## Runs -/

/-- The runs in which a running operation is taken over only from a process that has ended. -/
def undisputed (settings : Settings) (outside : Outside H) : System Api (Sys H) Request :=
  (system settings outside).restrict (fun _ _ => True) (fun _ q t => TakesOver q t)
    (fun _ _ _ => True)

/-- The same runs, with the discipline that they keep. -/
def undisputedConduct (settings : Settings) (outside : Outside H) :
    System Api (Sys H) Request :=
  ((conduct settings outside).restrict (fun _ _ => True) (fun _ q t => TakesOver q t)
    (fun _ _ _ => True)).allowed

/-- The fencing, and a set of finished operations that are as they were. -/
def FencedWith (finished : DurableOperation → Prop) (t : Sys H) : Prop :=
  Fencing t ∧ ∀ row, finished row → t.store.db.durableOperations.get? row.id = some row

/-- Every step keeps the fencing and the operations that are finished. -/
theorem fencing_preserved {finished : DurableOperation → Prop}
    (hfinished : ∀ row, finished row → row.state.terminal = true) :
    (undisputedConduct settings outside).Preserves (FencedWith finished) where
  stmt := by
    rintro p q t ⟨h, hrows⟩ ⟨⟨-, hover⟩, -, hp, hconducted⟩
    have hlog : ((machine outside).exec p q t).log = .stmt p q t.store :: t.log := rfl
    have hsole (o : ℕ) : Sole o ((machine outside).exec p q t) :=
      (h.sole o).exec hp hconducted (hover.of o)
    rcases Store.exec_cases p q t.store with ⟨ws, db, rfl, hcommit, hdb, -⟩ | ⟨-, hwritten, hsame⟩
    · refine ⟨h.commit hp hconducted hsole hlog, ?_⟩
      intro row hrow
      show ((t.store.exec p (.commit ws)).db).durableOperations.get? row.id = some row
      rw [hdb]
      exact (h.sole row.id).finished hp hconducted hcommit (hrows row hrow) (hfinished row hrow)
    · refine ⟨h.of_sole hsole hlog hwritten, ?_⟩
      intro row hrow
      exact (hsame.operation row.id).trans (hrows row hrow)
  call := by
    rintro p c t r t' ⟨h, hrows⟩ ⟨-, -, hanswer⟩
    have hsole (o : ℕ) : Sole o t' := (h.sole o).answer hanswer
    obtain ⟨hyper, -, rfl⟩ := hanswer
    refine ⟨⟨fun p o => hsole o p, ?_⟩, hrows⟩
    have hcall : Fenced (.call p c t.store :: t.log) := h.fenced.cons (by simp [Entry.written])
    exact hcall.cons (by simp [Entry.written])
  enter := by
    rintro r t ⟨h, hrows⟩ ⟨-, hinv⟩
    have hinv : WellLogged t.log := hinv
    exact ⟨h.of_sole (fun o => (h.sole o).enter hinv r) rfl rfl, hrows⟩
  leave := by
    rintro p t ⟨h, hrows⟩
    exact ⟨h.of_sole (fun o => (h.sole o).leave p) rfl rfl, hrows⟩
  env := by
    rintro t t' ⟨h, hrows⟩ ⟨-, henv, hlog⟩
    refine ⟨⟨fun p o => (h.sole o).env henv hlog p, hlog ▸ h.fenced⟩, ?_⟩
    intro row hrow
    exact (henv.sameRows.operation row.id).trans (hrows row hrow)

/-- The fencing holds at the start. -/
theorem fencing_initial {t : Sys H} (ht : t.log = []) : Fencing t where
  holds := fun p o => sole_initial ht p
  fenced := by
    rw [ht]
    exact EachAfter.nil _

/-- In every run from the state, each update of an operation comes from the process that
claimed it last, and an operation that is finished keeps its state, result and error. -/
def FencedRuns (sys : System Api (Sys H) Request) (t : Sys H) : Prop :=
  ∀ w, World.Reach sys (World.idle t) w → Fenced w.shared.log ∧
    ∀ w', World.Reach sys w w' →
      ∀ o row, w.shared.store.db.durableOperations.get? o = some row →
        row.state.terminal = true →
        ∃ row', w'.shared.store.db.durableOperations.get? o = some row' ∧
          row'.state = row.state ∧ row'.result = row.result ∧ row'.error = row.error

/-- Leases fence the writes of the workers in every run in which no running operation is taken
over from a process that is still alive. -/
theorem leases_fence (settings : Settings) (outside : Outside H) (t : Sys H) (ht : t.log = []) :
    FencedRuns (undisputed settings outside) t := by
  intro w hr
  have hfencing : ∀ {w}, World.Reach (undisputed settings outside) (World.idle t) w →
      Fencing w.shared := by
    intro w hr
    have hinitial : Fencing (World.idle (G := Api) t).shared ∧
        ∀ row, False → (World.idle (G := Api) t).shared.store.db.durableOperations.get? row.id =
          some row := ⟨fencing_initial ht, by simp⟩
    exact ((fencing_preserved (by simp)).of_reach hinitial (reach_conduct ht hr)).1
  refine ⟨(hfencing hr).fenced, ?_⟩
  intro w' hr' o row hrow hstate
  have hid : row.id = o := Table.get?_key hrow
  have hstart : Fencing w.shared ∧ ∀ row', row' = row →
      w.shared.store.db.durableOperations.get? row'.id = some row' :=
    ⟨hfencing hr, by simp [hid, hrow]⟩
  have hkept := (fencing_preserved (by simp [hstate])).of_reach hstart
    (reach_conduct_from ht hr hr')
  refine ⟨row, ?_, rfl, rfl, rfl⟩
  rw [← hid]
  exact hkept.2 row rfl

end Fencing

namespace Fixture

/-- From the store of the fixture the leases fence, where no live worker is taken over from. -/
theorem leases_fence_readyStore : FencedRuns (undisputed {} anything) (start readyStore) :=
  leases_fence {} anything (start readyStore) rfl

/-- A worker stalls before its first call until its lease has run out, and another one takes
the operation over and finishes it. -/
def takeover : List (Move Api Request) :=
  [.spawn (.vmPower ⟨1, some 1⟩ 1 .start), .run 0 6 unreachable, .exit 0,
    .spawn (.operationWorker "a"), .run 1 6 unreachable, .wait 200,
    .spawn (.operationWorker "b"), .run 2 17 running]

/-- The state of an operation. -/
def operationState (w : World Api (Sys Unit)) (o : ℕ) : Option OperationState :=
  (w.shared.store.db.durableOperations.get? o).map DurableOperation.state

set_option maxRecDepth 100000 in
/-- The first worker then fails to reach Proxmox, and queues the finished operation again. -/
theorem leases_do_not_fence : ¬ FencedRuns (system {} anything) (start readyStore) := by
  intro h
  have hplay : (player.play (World.idle (start readyStore)) takeover).any (fun w =>
      operationState w 1 = some .succeeded && (player.play w [.run 1 5 unreachable]).any fun w' =>
        operationState w' 1 = some .queued) = true := by
    decide +kernel
  obtain ⟨w, hr, hw⟩ := player.exists_of_play hplay
  rw [Bool.and_eq_true, decide_eq_true_eq] at hw
  obtain ⟨w', hr', hw'⟩ := player.exists_of_play hw.2
  rw [decide_eq_true_eq] at hw'
  obtain ⟨row, hrow, hstate⟩ := Option.map_eq_some_iff.mp hw.1
  obtain ⟨row', hrow', hsame, -⟩ := (h w hr).2 w' hr' 1 row hrow (by rw [hstate]; rfl)
  obtain ⟨row'', hrow'', hqueued⟩ := Option.map_eq_some_iff.mp hw'
  rw [hrow'] at hrow''
  cases hrow''
  rw [hsame, hstate] at hqueued
  cases hqueued

end Fixture

end LabGoblin
