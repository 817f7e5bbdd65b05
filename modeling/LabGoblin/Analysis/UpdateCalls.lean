import LabGoblin.Computation.Ending
import LabGoblin.Model.Updater

/-!
# How the calls of the updater end

One lemma for each command, and from these one for the recovery and one for each operation. They
say exactly which commands succeeded when an operation returns, and what it leaves when it raises.
-/

set_option autoImplicit false

namespace LabGoblin.Updater

open Raising

variable {D : Type} {settings : Settings} {env : Environment D} {h t : Host D}

/-! ## Commands -/

section Commands

variable {Q : Unit → Host D → Prop} {E : Failure → Host D → Prop}

/-- A command succeeds or fails, and changes nothing of the host that is modelled. -/
theorem ends_run {phase : Phase} {c : Command} (hok : env.fails phase c = false → Q () h)
    (hfail : env.fails phase c = true → E (.command c) h) : Ends (run env phase c) h Q E := by
  refine ends_ite (fun hc => hfail hc) fun hc => ?_
  exact hok (Bool.of_not_eq_true hc)

/-- A checkout succeeds, or leaves the tree halfway. -/
theorem ends_checkout {phase : Phase} {version : String}
    (hok : env.fails phase .checkout = false → Q () { h with checkout := version })
    (hfail : env.fails phase .checkout = true →
      E (.command .checkout) { h with checkout := env.halfCheckedOut phase }) :
    Ends (checkout env phase version) h Q E := by
  refine ends_ite (fun hc => ?_) fun hc => ?_
  · rw [ends_bind, ends_modify, ends_throw]
    exact hfail hc
  · rw [ends_modify]
    exact hok (Bool.of_not_eq_true hc)

/-- A restore brings the contents of the dump back, or leaves the database halfway. -/
theorem ends_restoreDatabase {phase : Phase} {path : String} {contents : D}
    (hdump : h.dumps path = some contents)
    (hok : env.fails phase .restore = false → Q () { h with database := contents })
    (hfail : env.fails phase .restore = true →
      E (.command .restore) { h with database := env.halfRestored phase }) :
    Ends (restoreDatabase env phase path) h Q E := by
  unfold restoreDatabase
  rw [ends_bind, ends_get, hdump]
  refine ends_ite (fun hc => ?_) fun hc => ?_
  · rw [ends_bind, ends_modify, ends_throw]
    exact hfail hc
  · rw [ends_modify]
    exact hok (Bool.of_not_eq_true hc)

/-- Starting the services runs migrations on the database, whether it succeeds or fails. -/
theorem ends_composeUp
    (hok : env.fails .forward .up = false → Q () { h with database := env.activity h.database })
    (hfail : env.fails .forward .up = true →
      E (.command .up) { h with database := env.activity h.database }) :
    Ends (composeUp env) h Q E := by
  unfold composeUp
  rw [ends_bind, ends_modify]
  exact ends_run hok hfail

/-- The state file is written, or the write fails before or after the file was replaced. -/
theorem ends_writeState {s : UpdateState}
    (hok : env.fails .forward .writeState = false → Q () { h with state := s })
    (hfail : env.fails .forward .writeState = true →
      E (.command .writeState) { h with state := if env.replaced then s else h.state }) :
    Ends (writeState env s) h Q E := by
  refine ends_ite (fun hc => ?_) fun hc => ?_
  · have hfail := hfail hc
    cases hr : env.replaced with
    | true =>
      rw [hr] at hfail
      exact hfail
    | false =>
      rw [hr] at hfail
      exact hfail
  · rw [ends_modify]
    exact hok (Bool.of_not_eq_true hc)

end Commands

/-- The files after a dump of the database. -/
def Host.withDump (h : Host D) (path : String) : Host D :=
  { h with dumps := fun p => if p = path then some h.database else h.dumps p }

/-- The dump of the database is found under its path. -/
theorem dumps_withDump (h : Host D) (path : String) :
    (h.withDump path).dumps path = some h.database := if_pos rfl

/-- A backup dumps the database as it is, or fails and dumps nothing. -/
theorem ends_backupDatabase {version : String} {Q : String → Host D → Prop}
    {E : Failure → Host D → Prop}
    (hok : env.fails .forward .dump = false →
      Q (backupPath version env.stamp) (h.withDump (backupPath version env.stamp)))
    (hfail : env.fails .forward .dump = true → E (.command .dump) h) :
    Ends (backupDatabase env version) h Q E := by
  unfold backupDatabase
  rw [ends_bind]
  exact ends_run hok hfail

/-! ## Recovery -/

def recoveryCommands (backup : Option String) : List Command :=
  [.stop, .checkout] ++ (if backup.isSome then [.restore] else []) ++ [.up, .health, .installAgent]

/-- Every command of the recovery succeeds. -/
def Recovers (env : Environment D) (backup : Option String) : Prop :=
  ∀ c ∈ recoveryCommands backup, env.fails .recovery c = false

/-- A command of the recovery that fails makes the recovery fail. -/
theorem not_recovers {backup : Option String} {c : Command} (hfail : env.fails .recovery c = true)
    (hc : c ∈ recoveryCommands backup) : ¬ Recovers env backup := by
  intro hall
  rw [hall c hc] at hfail
  cases hfail

/-- The end of a recovery, after the stores are back. -/
theorem ends_restart {P : Host D → Prop} (hP : P t) {before : List Command}
    (hbefore : ∀ c ∈ before, env.fails .recovery c = false) :
    Ends (do
        run env .recovery .up
        run env .recovery .health
        run env .recovery .installAgent) t
      (fun _ u => (∀ c ∈ before ++ [.up, .health, .installAgent], env.fails .recovery c = false) ∧
        P u)
      fun _ _ => ¬ ∀ c ∈ before ++ [.up, .health, .installAgent],
        env.fails .recovery c = false := by
  have hnot {c : Command} (hc : c ∈ [Command.up, .health, .installAgent])
      (hfail : env.fails .recovery c = true) :
      ¬ ∀ c ∈ before ++ [.up, .health, .installAgent], env.fails .recovery c = false := by
    intro hall
    rw [hall c (List.mem_append_right _ hc)] at hfail
    cases hfail
  rw [ends_bind]
  refine ends_run (fun hup => ?_) fun hfail => hnot (by simp) hfail
  rw [ends_bind]
  refine ends_run (fun hhealth => ?_) fun hfail => hnot (by simp) hfail
  refine ends_run (fun hinstall => ⟨?_, hP⟩) fun hfail => hnot (by simp) hfail
  intro c hc
  rcases List.mem_append.mp hc with hc | hc
  · exact hbefore c hc
  · simp only [List.mem_cons, List.not_mem_nil, or_false] at hc
    rcases hc with rfl | rfl | rfl
    · exact hup
    · exact hhealth
    · exact hinstall

/-- A recovery puts back the version, and the database if it is given a backup. -/
theorem ends_recoverVersion {version : String} {backup : Option String} {contents : D}
    (hnone : backup = none → t.database = contents)
    (hsome : ∀ path, backup = some path → t.dumps path = some contents) :
    Ends (recoverVersion env version backup) t
      (fun _ u => Recovers env backup ∧ u = { t with checkout := version, database := contents })
      fun _ _ => ¬ Recovers env backup := by
  unfold recoverVersion
  rw [ends_bind]
  refine ends_run (fun hstop => ?_) fun hfail => not_recovers hfail (by simp [recoveryCommands])
  rw [ends_bind]
  refine ends_checkout (fun hcheckout => ?_) fun hfail =>
    not_recovers hfail (by simp [recoveryCommands])
  cases backup with
  | none =>
    have hbefore : ∀ c ∈ [Command.stop, .checkout], env.fails .recovery c = false := by
      simp [hstop, hcheckout]
    refine ends_restart (P := fun u => u = { t with checkout := version, database := contents })
      ?_ hbefore
    rw [← hnone rfl]
  | some path =>
    rw [ends_bind]
    refine ends_restoreDatabase (hsome path rfl) (fun hrestore => ?_) fun hfail =>
      not_recovers hfail (by simp [recoveryCommands])
    have hbefore : ∀ c ∈ [Command.stop, .checkout, .restore], env.fails .recovery c = false := by
      simp [hstop, hcheckout, hrestore]
    exact ends_restart (P := fun u => u = { t with checkout := version, database := contents })
      rfl hbefore

/-- The recovery brings the version and the database back when its commands succeed, and calls for
an operator otherwise. -/
theorem ends_recoverAfterFailure {operation version : String} {backup : Option String}
    {contents : D} (hnone : backup = none → t.database = contents)
    (hsome : ∀ path, backup = some path → t.dumps path = some contents) :
    Ends (recoverAfterFailure env operation version backup) t
      (fun _ u => Recovers env backup ∧ u = { t with checkout := version, database := contents })
      fun _ u => ¬ Recovers env backup ∧ u.needsOperator = true := by
  unfold recoverAfterFailure
  rw [ends_tryCatch]
  refine (ends_recoverVersion hnone hsome).mono (fun _ _ hu => hu) fun e u hnot => ?_
  rw [ends_bind, ends_modify, ends_throw]
  exact ⟨hnot, rfl⟩

/-- A body with recovery returns as the body does, and after a failure the recovery runs and the
failure is raised. -/
theorem ends_withRecovery {α : Type} {operation version : String} {backup : Option String}
    {body : M D α} {Q : α → Host D → Prop} {E : Failure → Host D → Prop}
    (hbody : Ends body h Q fun e t =>
      Ends (recoverAfterFailure env operation version backup) t (fun _ u => E e u) E) :
    Ends (withRecovery env operation version backup body) h Q E := by
  unfold withRecovery
  rw [ends_tryCatch]
  refine hbody.mono (fun _ _ ha => ha) fun e t he => ?_
  rw [ends_bind]
  exact he

/-- What a body with a cleanup computes: the body, then the cleanup, then the result of the body. -/
theorem withCleanup_apply {α : Type} (cleanup : M D Unit) (body : M D α) (h : Host D) :
    withCleanup cleanup body h = match body h with
      | .ok a t => (cleanup >>= fun _ => pure a : M D α) t
      | .error e t => (cleanup >>= fun _ => throw e : M D α) t := rfl

/-- The cleanup runs at either end of the body. -/
theorem ends_withCleanup {α : Type} {cleanup : M D Unit} {body : M D α} {Q : α → Host D → Prop}
    {E : Failure → Host D → Prop} :
    Ends (withCleanup cleanup body) h Q E ↔
      Ends body h (fun a t => Ends cleanup t (fun _ u => Q a u) E)
        fun e t => Ends cleanup t (fun _ u => E e u) E := by
  have hrun := withCleanup_apply cleanup body h
  cases hbody : body h with
  | ok a t =>
    rw [ends_of_ok hbody]
    rw [hbody] at hrun
    unfold Ends
    rw [hrun]
    exact ends_bind
  | error e t =>
    rw [ends_of_error hbody]
    rw [hbody] at hrun
    unfold Ends
    rw [hrun]
    exact ends_bind

/-! ## What comes before the changes -/

/-- A command changes nothing of the host that is modelled. -/
theorem looks_run (phase : Phase) (c : Command) : Looks (run env phase c) :=
  Looks.ite (looks_throw _) (looks_pure _)

/-- A check changes nothing. -/
theorem looks_raiseIf (p : Prop) [Decidable p] (message : String) :
    Looks (raiseIf p message : M D Unit) := Looks.ite (looks_throw _) (looks_pure _)

/-- A pure computation changes nothing. -/
theorem looks_raising {α : Type} (a : Except Failure α) : Looks (raising a : M D α) := by
  cases a with
  | ok a => exact looks_pure a
  | error e => exact looks_throw e

/-- Resolving a commit changes nothing. -/
theorem looks_commit (ref : String) : Looks (commit env ref) := by
  refine Looks.bind (looks_run _ _) fun _ => ?_
  refine Looks.ite (Looks.bind looks_get fun h => looks_pure _) ?_
  cases env.git.resolve ref with
  | some version => exact looks_pure version
  | none => exact looks_throw _

/-- Reading the state file changes nothing. -/
theorem looks_readState : Looks (readState env) :=
  Looks.bind (looks_run _ _) fun _ => Looks.bind looks_get fun _ => looks_pure _

/-- The check of a signature changes nothing. -/
theorem looks_verifySigned : Looks (verifySigned settings env) :=
  Looks.ite (looks_run _ _) (looks_pure _)

/-- What `commit` answers: the commit that is checked out, or what git resolves. -/
theorem ends_commit (h : Host D) (ref : String) :
    Ends (commit env ref) h
      (fun version t => t = h ∧
        if ref = "HEAD" then version = h.checkout else env.git.resolve ref = some version)
      fun _ t => t = h := by
  unfold commit
  rw [ends_bind]
  refine ends_run (fun _ => ?_) fun _ => rfl
  refine ends_ite (fun hhead => ?_) fun hhead => ?_
  · rw [ends_bind, ends_get, ends_pure, if_pos hhead]
    exact ⟨rfl, rfl⟩
  · cases hresolve : env.git.resolve ref with
    | none => exact rfl
    | some version =>
      rw [ends_pure, if_neg hhead]
      exact ⟨rfl, rfl⟩

/-- The commit of `HEAD` is the one that is checked out. -/
theorem ends_commit_head (h : Host D) :
    Ends (commit env "HEAD") h (fun version t => t = h ∧ version = h.checkout) fun _ t => t = h :=
  (ends_commit h "HEAD").mono (fun _ _ hv => hv) fun _ _ ht => ht

/-- A part that only reads may be skipped when only the state matters. -/
theorem Looks.skip {α β : Type} {m : M D α} {f : α → M D β} {Q : β → Host D → Prop}
    {E : Failure → Host D → Prop} (hm : Looks m) (hf : ∀ a, Ends (f a) h Q E)
    (hE : ∀ e, E e h) : Ends (m >>= f) h Q E := by
  rw [ends_bind]
  refine (hm h).mono ?_ ?_
  · intro a t ht
    rw [ht]
    exact hf a
  · intro e t ht
    rw [ht]
    exact hE e

/-- The commit that is checked out, or one that git has resolved. -/
def Known (env : Environment D) (h : Host D) (version : String) : Prop :=
  version = h.checkout ∨ ∃ ref, env.git.resolve ref = some version

/-- An update starts from the commit that is checked out and goes to a known one. -/
theorem ends_checkedUpdate (h : Host D) (payload : Payload) :
    Ends (checkedUpdate settings env payload) h
      (fun r t => t = h ∧ r.1 = h.checkout ∧ Known env h r.2) fun _ t => t = h := by
  refine Looks.skip (looks_raising _) ?_ fun _ => rfl
  rintro ⟨repository, branch⟩
  refine Looks.skip (looks_raising _) (fun requested => ?_) fun _ => rfl
  refine Looks.skip (looks_run _ _) (fun _ => ?_) fun _ => rfl
  refine Looks.skip (looks_raiseIf _ _) (fun _ => ?_) fun _ => rfl
  refine Looks.skip (looks_run _ _) (fun _ => ?_) fun _ => rfl
  rw [ends_bind]
  refine (ends_commit_head h).mono ?_ fun _ _ ht => ht
  rintro previous t ⟨rfl, rfl⟩
  rw [ends_bind]
  refine (ends_commit t _).mono ?_ fun _ _ ht => ht
  rintro target u ⟨rfl, htarget⟩
  have hknown : Known env u target := by
    by_cases hhead : requested = "HEAD"
    · rw [if_pos hhead] at htarget
      exact .inl htarget
    · rw [if_neg hhead] at htarget
      exact .inr ⟨requested, htarget⟩
  refine Looks.skip looks_readState (fun state => ?_) fun _ => rfl
  refine Looks.skip (looks_raising _) (fun checked => ?_) fun _ => rfl
  refine Looks.skip (looks_raiseIf _ _) (fun _ => ?_) fun _ => rfl
  refine Looks.skip (looks_commit _) (fun head => ?_) fun _ => rfl
  refine Looks.skip (looks_raiseIf _ _) (fun _ => ?_) fun _ => rfl
  refine Looks.skip (looks_run _ _) (fun _ => ?_) fun _ => rfl
  refine Looks.skip (looks_raiseIf _ _) (fun _ => ?_) fun _ => rfl
  refine Looks.skip looks_verifySigned (fun _ => ?_) fun _ => rfl
  refine Looks.skip (looks_run _ _) (fun _ => ?_) fun _ => rfl
  refine Looks.skip (looks_raiseIf _ _) (fun _ => ?_) fun _ => rfl
  exact ⟨rfl, rfl, hknown⟩

/-- What a rollback goes by: the backup and the previous version of the state file. -/
structure RollsBack (env : Environment D) (h : Host D) (backup current target : String) : Prop where
  path : backup = h.state.backupPath.getD ""
  dumped : (h.dumps backup).isSome = true
  current : current = h.checkout
  named : h.state.previousVersion.getD "" ≠ ""
  resolved : if h.state.previousVersion.getD "" = "HEAD" then target = h.checkout
    else env.git.resolve (h.state.previousVersion.getD "") = some target

/-- The target of a rollback comes from the state file, with a backup that is there. -/
theorem ends_rollbackTarget (h : Host D) :
    Ends (rollbackTarget env) h (fun r t => t = h ∧ RollsBack env h r.1 r.2.1 r.2.2)
      fun _ t => t = h := by
  unfold rollbackTarget readState
  simp only [ends_bind, ends_get, ends_pure]
  refine ends_run (fun _ => ?_) fun _ => rfl
  refine ends_ite (fun _ => rfl) fun hnamed => ?_
  refine ends_ite (fun _ => rfl) fun hdumped => ?_
  refine (ends_commit_head h).mono ?_ fun _ _ ht => ht
  rintro current t ⟨rfl, rfl⟩
  refine (ends_commit t _).mono ?_ fun _ _ ht => ht
  rintro target u ⟨rfl, hresolved⟩
  have hsome : (u.dumps (u.state.backupPath.getD "")).isSome = true := by
    rw [Option.isSome_iff_ne_none]
    simpa using hdumped
  exact ⟨rfl, rfl, hsome, rfl, hnamed, hresolved⟩

/-! ## Operations -/

/-- Every one of these commands succeeds. -/
def Succeed (env : Environment D) (commands : List Command) : Prop :=
  ∀ c ∈ commands, env.fails .forward c = false

/-- A command that fails among some makes them not succeed. -/
theorem not_succeed {commands : List Command} {c : Command}
    (hfail : env.fails .forward c = true) (hc : c ∈ commands) : ¬ Succeed env commands := by
  intro hall
  rw [hall c hc] at hfail
  cases hfail

/-- The version, the database and what a rollback goes by are the same. -/
structure Same (h t : Host D) : Prop where
  checkout : t.checkout = h.checkout
  database : t.database = h.database
  metadata : t.state.metadata = h.state.metadata

/-- The stores are as before, unless a recovery has failed. -/
def Undone (h t : Host D) : Prop := t.needsOperator = false → Same h t

/-- Recovery puts the stores back, from wherever it starts with the old state file. -/
theorem ends_undo {operation : String} {backup : Option String} (hstate : t.state = h.state)
    (hnone : backup = none → t.database = h.database)
    (hsome : ∀ path, backup = some path → t.dumps path = some h.database) :
    Ends (recoverAfterFailure env operation h.checkout backup) t (fun _ u => Undone h u)
      fun _ u => Undone h u := by
  refine (ends_recoverAfterFailure hnone hsome).mono ?_ ?_
  · rintro _ u ⟨-, rfl⟩ -
    exact ⟨rfl, rfl, congrArg _ hstate⟩
  · intro e u hu hop
    rw [hu.2] at hop
    cases hop

/-- The part of an operation that ends with the backup. -/
theorem ends_backupStage (h : Host D) (operation : String) :
    Ends (withRecovery env operation h.checkout none do
        run env .forward .build
        run env .forward .stop
        backupDatabase env h.checkout) h
      (fun path t => Succeed env [.build, .stop, .dump] ∧
        path = backupPath h.checkout env.stamp ∧ t = h.withDump path)
      fun _ t => ¬ Succeed env [.build, .stop, .dump] ∧ Undone h t := by
  have hundo (hnot : ¬ Succeed env [.build, .stop, .dump]) :
      Ends (recoverAfterFailure env operation h.checkout none) h
        (fun _ u => ¬ Succeed env [.build, .stop, .dump] ∧ Undone h u)
        fun _ u => ¬ Succeed env [.build, .stop, .dump] ∧ Undone h u := by
    have hends : Ends (recoverAfterFailure env operation h.checkout none) h
        (fun _ u => Undone h u) fun _ u => Undone h u :=
      ends_undo rfl (fun _ => rfl) (by simp)
    exact hends.mono (fun _ _ hu => ⟨hnot, hu⟩) fun _ _ hu => ⟨hnot, hu⟩
  refine ends_withRecovery ?_
  rw [ends_bind]
  refine ends_run (fun hbuild => ?_) fun hfail => hundo (not_succeed hfail (by simp))
  rw [ends_bind]
  refine ends_run (fun hstop => ?_) fun hfail => hundo (not_succeed hfail (by simp))
  refine ends_backupDatabase (fun hdump => ?_) fun hfail => hundo (not_succeed hfail (by simp))
  exact ⟨by simp [Succeed, hbuild, hstop, hdump], rfl, rfl⟩

/-- The files of the backup are those of the host before, and the dump. -/
theorem dumps_some {path : String} (hstage : t = h.withDump path) {u : Host D}
    (hdumps : u.dumps = t.dumps) (p : String) (hp : some path = some p) :
    u.dumps p = some h.database := by
  cases hp
  rw [hdumps, hstage]
  exact dumps_withDump h path

/-- The state that an update writes, when it was taken from a host. -/
def Host.updateState (h : Host D) (env : Environment D) (target : String) : UpdateState :=
  updatedState h.checkout target (backupPath h.checkout env.stamp) env.now

/-- The state that a rollback writes, when it was taken from a host. -/
def Host.rollbackState (h : Host D) (env : Environment D) (target : String) : UpdateState :=
  rolledBackState h.checkout target (backupPath h.checkout env.stamp) env.now

/-- The host after an update. -/
def Host.updated (h : Host D) (env : Environment D) (target : String) : Host D :=
  { h.withDump (backupPath h.checkout env.stamp) with
    checkout := target
    database := env.activity h.database
    state := h.updateState env target }

/-- How the host is left when the state could not be written after an update and the recovery
has succeeded. -/
structure Unwritten (env : Environment D) (h : Host D) (state : UpdateState) (t : Host D) :
    Prop where
  checkout : t.checkout = h.checkout
  database : t.database = h.database
  state : t.state = if env.replaced then state else h.state
  needsOperator : t.needsOperator = h.needsOperator

def startCommands : List Command := [.checkout, .up, .health, .installAgent]

/-- How the part of an update after the backup fails. -/
def UpdateFailed (env : Environment D) (h : Host D) (target : String) (t : Host D) : Prop :=
  (¬ Succeed env startCommands ∧ Undone h t) ∨
    (Succeed env startCommands ∧ env.fails .forward .writeState = true ∧
      (Recovers env (some (backupPath h.checkout env.stamp)) →
        Unwritten env h (h.updateState env target) t) ∧
      (¬ Recovers env (some (backupPath h.checkout env.stamp)) → t.needsOperator = true))

/-- The part of an update after its backup ends with everything new, or fails as described. -/
theorem ends_updateStage (h : Host D) (target : String) (result : Result) :
    Ends (withRecovery env "Update" h.checkout (some (backupPath h.checkout env.stamp)) do
        checkout env .forward target
        composeUp env
        run env .forward .health
        run env .forward .installAgent
        writeState env (h.updateState env target)
        return result) (h.withDump (backupPath h.checkout env.stamp))
      (fun _ t => Succeed env startCommands ∧ env.fails .forward .writeState = false ∧
        t = h.updated env target)
      fun _ t => UpdateFailed env h target t := by
  have hundo {t : Host D} (hnot : ¬ Succeed env startCommands) (hstate : t.state = h.state)
      (hdumps : t.dumps = (h.withDump (backupPath h.checkout env.stamp)).dumps) :
      Ends (recoverAfterFailure env "Update" h.checkout
          (some (backupPath h.checkout env.stamp))) t
        (fun _ u => UpdateFailed env h target u) fun _ u => UpdateFailed env h target u := by
    have hends : Ends (recoverAfterFailure env "Update" h.checkout
          (some (backupPath h.checkout env.stamp))) t
        (fun _ u => Undone h u) fun _ u => Undone h u :=
      ends_undo hstate (by simp) (dumps_some rfl hdumps)
    exact hends.mono (fun _ _ hu => .inl ⟨hnot, hu⟩) fun _ _ hu => .inl ⟨hnot, hu⟩
  refine ends_withRecovery ?_
  rw [ends_bind]
  refine ends_checkout (fun hcheckout => ?_) fun hfail =>
    hundo (not_succeed hfail (by simp [startCommands])) rfl rfl
  rw [ends_bind]
  refine ends_composeUp (fun hup => ?_) fun hfail =>
    hundo (not_succeed hfail (by simp [startCommands])) rfl rfl
  rw [ends_bind]
  refine ends_run (fun hhealth => ?_) fun hfail =>
    hundo (not_succeed hfail (by simp [startCommands])) rfl rfl
  rw [ends_bind]
  refine ends_run (fun hinstall => ?_) fun hfail =>
    hundo (not_succeed hfail (by simp [startCommands])) rfl rfl
  have hsucceed : Succeed env startCommands := by
    simp [Succeed, startCommands, hcheckout, hup, hhealth, hinstall]
  rw [ends_bind]
  refine ends_writeState (fun hwrite => ⟨hsucceed, hwrite, rfl⟩) fun hfail => ?_
  have hends : Ends (recoverAfterFailure env "Update" h.checkout
      (some (backupPath h.checkout env.stamp)))
      { h.withDump (backupPath h.checkout env.stamp) with
        checkout := target
        database := env.activity h.database
        state := if env.replaced then h.updateState env target else h.state } _ _ :=
    ends_recoverAfterFailure (by simp) (dumps_some rfl rfl)
  refine hends.mono ?_ ?_
  · rintro _ u ⟨hrecovers, rfl⟩
    exact .inr ⟨hsucceed, hfail, fun _ => ⟨rfl, rfl, rfl, rfl⟩, fun hnot => absurd hrecovers hnot⟩
  · rintro e u ⟨hnot, hop⟩
    exact .inr ⟨hsucceed, hfail, fun hrecovers => absurd hrecovers hnot, fun _ => hop⟩

/-- The host after the `try` of a rollback, with the contents of the backup. -/
def Host.rolledBack (h : Host D) (env : Environment D) (target : String) (contents : D) : Host D :=
  { h.withDump (backupPath h.checkout env.stamp) with
    checkout := target
    database := env.activity contents }

def restoreCommands : List Command := [.checkout, .restore, .up, .health, .installAgent]

/-- The part of a rollback after the reverse backup. -/
theorem ends_rollbackStage (h : Host D) {backup : String} {contents : D} (target : String)
    (hdump : (h.withDump (backupPath h.checkout env.stamp)).dumps backup = some contents) :
    Ends (withRecovery env "Rollback" h.checkout (some (backupPath h.checkout env.stamp)) do
        checkout env .forward target
        restoreDatabase env .forward backup
        composeUp env
        run env .forward .health
        run env .forward .installAgent) (h.withDump (backupPath h.checkout env.stamp))
      (fun _ t => Succeed env restoreCommands ∧ t = h.rolledBack env target contents)
      fun _ t => ¬ Succeed env restoreCommands ∧ Undone h t := by
  have hundo {t : Host D} (hnot : ¬ Succeed env restoreCommands) (hstate : t.state = h.state)
      (hdumps : t.dumps = (h.withDump (backupPath h.checkout env.stamp)).dumps) :
      Ends (recoverAfterFailure env "Rollback" h.checkout
          (some (backupPath h.checkout env.stamp))) t
        (fun _ u => ¬ Succeed env restoreCommands ∧ Undone h u)
        fun _ u => ¬ Succeed env restoreCommands ∧ Undone h u := by
    have hends : Ends (recoverAfterFailure env "Rollback" h.checkout
          (some (backupPath h.checkout env.stamp))) t
        (fun _ u => Undone h u) fun _ u => Undone h u :=
      ends_undo hstate (by simp) (dumps_some rfl hdumps)
    exact hends.mono (fun _ _ hu => ⟨hnot, hu⟩) fun _ _ hu => ⟨hnot, hu⟩
  refine ends_withRecovery ?_
  rw [ends_bind]
  refine ends_checkout (fun hcheckout => ?_) fun hfail =>
    hundo (not_succeed hfail (by simp [restoreCommands])) rfl rfl
  rw [ends_bind]
  refine ends_restoreDatabase hdump (fun hrestore => ?_) fun hfail =>
    hundo (not_succeed hfail (by simp [restoreCommands])) rfl rfl
  rw [ends_bind]
  refine ends_composeUp (fun hup => ?_) fun hfail =>
    hundo (not_succeed hfail (by simp [restoreCommands])) rfl rfl
  rw [ends_bind]
  refine ends_run (fun hhealth => ?_) fun hfail =>
    hundo (not_succeed hfail (by simp [restoreCommands])) rfl rfl
  refine ends_run (fun hinstall => ?_) fun hfail =>
    hundo (not_succeed hfail (by simp [restoreCommands])) rfl rfl
  exact ⟨by simp [Succeed, restoreCommands, hcheckout, hrestore, hup, hhealth, hinstall], rfl⟩

/-- An update passes its checks, and every command before the state write succeeds. -/
structure Installs (settings : Settings) (env : Environment D) (payload : Payload) (h : Host D)
    (target : String) : Prop where
  checked : checkedUpdate settings env payload h = .ok (h.checkout, target) h
  newer : h.checkout ≠ target
  staged : env.fails .forward .worktreeAdd = false
  stopped : Succeed env [.build, .stop, .dump]
  started : Succeed env startCommands

/-- How an update that passes its checks and stages the new version ends. -/
theorem ends_install (h : Host D) {target : String} (result : String → Result)
    {Q : Result → Host D → Prop} {E : Failure → Host D → Prop}
    (hok : Succeed env [.build, .stop, .dump] → Succeed env startCommands →
      env.fails .forward .writeState = false → env.fails .forward .worktreeRemove = false →
      ∀ r, Q r (h.updated env target))
    (hundone : ¬ (Succeed env [.build, .stop, .dump] ∧ Succeed env startCommands) →
      ∀ e t, Undone h t → E e t)
    (hcleanup : Succeed env [.build, .stop, .dump] → Succeed env startCommands →
      env.fails .forward .writeState = false → env.fails .forward .worktreeRemove = true →
      ∀ e, E e (h.updated env target))
    (hwrite : Succeed env [.build, .stop, .dump] → Succeed env startCommands →
      env.fails .forward .writeState = true →
      ∀ e t, (Recovers env (some (backupPath h.checkout env.stamp)) →
          Unwritten env h (h.updateState env target) t) →
        (¬ Recovers env (some (backupPath h.checkout env.stamp)) → t.needsOperator = true) →
        E e t) :
    Ends (withCleanup (run env .forward .worktreeRemove) do
      let backup ← withRecovery env "Update" h.checkout none do
        run env .forward .build
        run env .forward .stop
        backupDatabase env h.checkout
      withRecovery env "Update" h.checkout (some backup) do
        checkout env .forward target
        composeUp env
        run env .forward .health
        run env .forward .installAgent
        writeState env (updatedState h.checkout target backup env.now)
        return result backup) h Q E := by
  rw [ends_withCleanup, ends_bind]
  refine (ends_backupStage h "Update").mono ?_ ?_
  · rintro path t ⟨hstopped, rfl, rfl⟩
    refine (ends_updateStage h target _).mono ?_ ?_
    · rintro r t ⟨hstarted, hw, rfl⟩
      exact ends_run (fun hr => hok hstopped hstarted hw hr r)
        fun hr => hcleanup hstopped hstarted hw hr _
    · rintro e t (⟨hnot, hundo⟩ | ⟨hstarted, hw, hrecovered, hfailed⟩)
      · have hnot : ¬ (Succeed env [.build, .stop, .dump] ∧ Succeed env startCommands) :=
          fun hboth => hnot hboth.2
        exact ends_run (fun _ => hundone hnot e t hundo) fun _ => hundone hnot _ t hundo
      · exact ends_run (fun _ => hwrite hstopped hstarted hw e t hrecovered hfailed)
          fun _ => hwrite hstopped hstarted hw _ t hrecovered hfailed
  · rintro e t ⟨hnot, hundo⟩
    have hnot : ¬ (Succeed env [.build, .stop, .dump] ∧ Succeed env startCommands) :=
      fun hboth => hnot hboth.1
    exact ends_run (fun _ => hundone hnot e t hundo) fun _ => hundone hnot _ t hundo

/-- How an update ends: what has succeeded when it returns, and what it leaves when it raises. -/
theorem ends_applyUpdate (h : Host D) (payload : Payload) :
    Ends (applyUpdate settings env payload) h
      (fun _ t => ((∀ target, ¬ Installs settings env payload h target) ∧ t = h) ∨
        ∃ target, Installs settings env payload h target ∧
        env.fails .forward .writeState = false ∧ env.fails .forward .worktreeRemove = false ∧
        t = h.updated env target)
      fun _ t => ((∀ target, ¬ Installs settings env payload h target) ∧ Undone h t) ∨
        ∃ target, Installs settings env payload h target ∧
          ((env.fails .forward .writeState = false ∧
              env.fails .forward .worktreeRemove = true ∧ t = h.updated env target) ∨
            (env.fails .forward .writeState = true ∧
              (Recovers env (some (backupPath h.checkout env.stamp)) →
                Unwritten env h (h.updateState env target) t) ∧
              (¬ Recovers env (some (backupPath h.checkout env.stamp)) →
                t.needsOperator = true))) := by
  have hsame : Undone h h := fun _ => ⟨rfl, rfl, rfl⟩
  have hchecks : Ends (checkedUpdate settings env payload) h _ _ := ends_checkedUpdate h payload
  unfold applyUpdate
  rw [ends_bind]
  cases hrun : checkedUpdate settings env payload h with
  | error e t =>
    rw [ends_of_error hrun]
    rw [hchecks.of_error hrun]
    refine .inl ⟨fun target hinstalls => ?_, hsame⟩
    have hchecked := hinstalls.checked
    rw [hrun] at hchecked
    cases hchecked
  | ok r t =>
    obtain ⟨previous, target⟩ := r
    obtain ⟨rfl, rfl, -⟩ := hchecks.of_ok hrun
    rw [ends_of_ok hrun]
    refine ends_ite (fun hcurrent => .inl ⟨fun target' hinstalls => ?_, rfl⟩) fun hnewer => ?_
    · have hchecked := hinstalls.checked
      rw [hrun] at hchecked
      cases hchecked
      exact hinstalls.newer hcurrent
    rw [ends_bind]
    refine ends_run (fun hstaged => ?_) fun hfail => .inl ⟨fun target' hinstalls => ?_, hsame⟩
    · have hinstalls (hstopped : Succeed env [.build, .stop, .dump])
          (hstarted : Succeed env startCommands) : Installs settings env payload t target :=
        ⟨hrun, hnewer, hstaged, hstopped, hstarted⟩
      refine ends_install t _ ?_ ?_ ?_ ?_
      · intro hstopped hstarted hw hr r
        exact .inr ⟨target, hinstalls hstopped hstarted, hw, hr, rfl⟩
      · intro hnot e u hundo
        exact .inl ⟨fun target' hi => hnot ⟨hi.stopped, hi.started⟩, hundo⟩
      · intro hstopped hstarted hw hr e
        exact .inr ⟨target, hinstalls hstopped hstarted, .inl ⟨hw, hr, rfl⟩⟩
      · intro hstopped hstarted hw e u hrecovered hfailed
        exact .inr ⟨target, hinstalls hstopped hstarted, .inr ⟨hw, hrecovered, hfailed⟩⟩
    · have hstaged := hinstalls.staged
      rw [hfail] at hstaged
      cases hstaged

/-- An update that passes its checks has one target. -/
theorem Installs.unique {payload : Payload} {target target' : String}
    (hi : Installs settings env payload h target) (hi' : Installs settings env payload h target') :
    target = target' := by
  have hchecked := hi.checked
  rw [hi'.checked] at hchecked
  cases hchecked
  rfl

/-- A rollback passes its checks, and every command in its `try` succeeds. -/
structure Restarts (env : Environment D) (h : Host D) (backup target : String) (contents : D) :
    Prop where
  checked : rollbackTarget env h = .ok (backup, h.checkout, target) h
  dumped : (h.withDump (backupPath h.checkout env.stamp)).dumps backup = some contents
  staged : env.fails .forward .worktreeAdd = false
  stopped : Succeed env [.build, .stop, .dump]
  restarted : Succeed env restoreCommands

/-- A rollback that passes its checks has one target and one backup. -/
theorem Restarts.unique {backup backup' target target' : String} {contents contents' : D}
    (hr : Restarts env h backup target contents) (hr' : Restarts env h backup' target' contents') :
    target = target' ∧ contents = contents' := by
  have hchecked := hr.checked
  rw [hr'.checked] at hchecked
  cases hchecked
  have hdumped := hr.dumped
  rw [hr'.dumped] at hdumped
  exact ⟨rfl, (Option.some.inj hdumped).symm⟩

/-- How the `try` of a rollback ends, with its cleanup. -/
theorem ends_restart_version (h : Host D) {backup target : String} {contents : D}
    (hdump : (h.withDump (backupPath h.checkout env.stamp)).dumps backup = some contents)
    {Q : String → Host D → Prop} {E : Failure → Host D → Prop}
    (hok : Succeed env [.build, .stop, .dump] → Succeed env restoreCommands →
      env.fails .forward .worktreeRemove = false →
      Q (backupPath h.checkout env.stamp) (h.rolledBack env target contents))
    (hundone : ¬ (Succeed env [.build, .stop, .dump] ∧ Succeed env restoreCommands) →
      ∀ e t, Undone h t → E e t)
    (hcleanup : Succeed env [.build, .stop, .dump] → Succeed env restoreCommands →
      env.fails .forward .worktreeRemove = true →
      ∀ e, E e (h.rolledBack env target contents)) :
    Ends (withCleanup (run env .forward .worktreeRemove) do
      let reverseBackup ← withRecovery env "Rollback" h.checkout none do
        run env .forward .build
        run env .forward .stop
        backupDatabase env h.checkout
      withRecovery env "Rollback" h.checkout (some reverseBackup) do
        checkout env .forward target
        restoreDatabase env .forward backup
        composeUp env
        run env .forward .health
        run env .forward .installAgent
      return reverseBackup) h Q E := by
  rw [ends_withCleanup, ends_bind]
  refine (ends_backupStage h "Rollback").mono ?_ ?_
  · rintro path t ⟨hstopped, rfl, rfl⟩
    rw [ends_bind]
    refine (ends_rollbackStage h target hdump).mono ?_ ?_
    · rintro _ t ⟨hrestarted, rfl⟩
      exact ends_run (fun hr => hok hstopped hrestarted hr)
        fun hr => hcleanup hstopped hrestarted hr _
    · rintro e t ⟨hnot, hundo⟩
      have hnot : ¬ (Succeed env [.build, .stop, .dump] ∧ Succeed env restoreCommands) :=
        fun hboth => hnot hboth.2
      exact ends_run (fun _ => hundone hnot e t hundo) fun _ => hundone hnot _ t hundo
  · rintro e t ⟨hnot, hundo⟩
    have hnot : ¬ (Succeed env [.build, .stop, .dump] ∧ Succeed env restoreCommands) :=
      fun hboth => hnot hboth.1
    exact ends_run (fun _ => hundone hnot e t hundo) fun _ => hundone hnot _ t hundo

/-- The host after a rollback, whose state write may fail. -/
def Host.rolledBackWith (h : Host D) (env : Environment D) (target : String) (contents : D)
    (written : Bool) : Host D :=
  { h.rolledBack env target contents with
    state := if written then h.rollbackState env target else h.state }

/-- How a rollback ends. -/
theorem ends_rollbackUpdate (h : Host D) :
    Ends (rollbackUpdate env) h
      (fun _ t => ∃ backup target contents, Restarts env h backup target contents ∧
        env.fails .forward .worktreeRemove = false ∧ env.fails .forward .writeState = false ∧
        t = h.rolledBackWith env target contents true)
      fun _ t => ((∀ backup target contents, ¬ Restarts env h backup target contents) ∧
          Undone h t) ∨
        ∃ backup target contents, Restarts env h backup target contents ∧
          ((env.fails .forward .worktreeRemove = true ∧
              t = h.rolledBack env target contents) ∨
            (env.fails .forward .worktreeRemove = false ∧
              env.fails .forward .writeState = true ∧
              t = h.rolledBackWith env target contents env.replaced)) := by
  have hsame : Undone h h := fun _ => ⟨rfl, rfl, rfl⟩
  have hchecks : Ends (rollbackTarget env) h _ _ := ends_rollbackTarget h
  unfold rollbackUpdate
  rw [ends_bind]
  cases hrun : rollbackTarget env h with
  | error e t =>
    rw [ends_of_error hrun, hchecks.of_error hrun]
    refine .inl ⟨fun backup target contents hrestarts => ?_, hsame⟩
    have hchecked := hrestarts.checked
    rw [hrun] at hchecked
    cases hchecked
  | ok r t =>
    obtain ⟨backup, current, target⟩ := r
    obtain ⟨rfl, hrolls⟩ := hchecks.of_ok hrun
    obtain rfl := hrolls.current
    rw [ends_of_ok hrun, ends_bind]
    refine ends_run (fun hstaged => ?_) fun hfail => .inl ⟨fun _ _ _ hrestarts => ?_, hsame⟩
    · obtain ⟨contents, hdump⟩ : ∃ contents,
          (t.withDump (backupPath t.checkout env.stamp)).dumps backup = some contents := by
        by_cases hpath : backup = backupPath t.checkout env.stamp
        · exact ⟨t.database, if_pos hpath⟩
        · obtain ⟨contents, hcontents⟩ := Option.isSome_iff_exists.mp hrolls.dumped
          exact ⟨contents, (if_neg hpath).trans hcontents⟩
      have hrestarts (hstopped : Succeed env [.build, .stop, .dump])
          (hrestarted : Succeed env restoreCommands) : Restarts env t backup target contents :=
        ⟨hrun, hdump, hstaged, hstopped, hrestarted⟩
      rw [ends_bind]
      refine ends_restart_version t hdump ?_ ?_ ?_
      · intro hstopped hrestarted hremoved
        rw [ends_bind]
        refine ends_writeState (fun hw => ?_) fun hw => ?_
        · exact ⟨backup, target, contents, hrestarts hstopped hrestarted, hremoved, hw, rfl⟩
        · exact .inr ⟨backup, target, contents, hrestarts hstopped hrestarted,
            .inr ⟨hremoved, hw, rfl⟩⟩
      · intro hnot e u hundo
        exact .inl ⟨fun _ _ _ hr => hnot ⟨hr.stopped, hr.restarted⟩, hundo⟩
      · intro hstopped hrestarted hremoved e
        exact .inr ⟨backup, target, contents, hrestarts hstopped hrestarted, .inl ⟨hremoved, rfl⟩⟩
    · have hstaged := hrestarts.staged
      rw [hfail] at hstaged
      cases hstaged

end LabGoblin.Updater
