import Mathlib.Data.Fintype.Basic
import LabGoblin.Computation.Guarded
import LabGoblin.Model.AssetSync

/-!
# The result of an asset job

A run commits `verified` only after an inventory that lists the file, whatever the other runs do.
That the result is final needs more: a run whose lease has run out goes on and writes the job
without a look at the lease. It is final when a job is claimed only after every earlier run that
had it in hand has ended.
-/

set_option autoImplicit false

namespace LabGoblin.AssetSync

open Interactive.Guarded

/-- The states that end a job. -/
def JobState.Final (state : JobState) : Prop := state = .verified ∨ state = .failed

instance (state : JobState) : Decidable state.Final :=
  inferInstanceAs (Decidable (state = .verified ∨ state = .failed))

/-- An inventory of the node and the storage of a job lists its file. -/
structure Inventory.Lists (inventory : Inventory) (id : ℕ) (job : AssetSyncJob) : Prop where
  target : ∃ metadata, job.metadata = .ok metadata ∧ inventory.node = job.targetNode ∧
    inventory.storageId = metadata.storageId ∧ inventory.content = (job.task id metadata).content ∧
    metadata.filename ∈ inventory.filenames

/-- What no run changes in a job. -/
structure SameTarget (job job' : AssetSyncJob) : Prop where
  targetNode : job'.targetNode = job.targetNode
  method : job'.method = job.method
  metadata : job'.metadata = job.metadata

/-- A job has its own target. -/
theorem SameTarget.refl (job : AssetSyncJob) : SameTarget job job := ⟨rfl, rfl, rfl⟩

/-- Jobs with one target make one task. -/
theorem SameTarget.task {job job' : AssetSyncJob} (h : SameTarget job job') (id : ℕ)
    (metadata : Metadata) : job'.task id metadata = job.task id metadata := by
  unfold AssetSyncJob.task
  rw [h.targetNode, h.method]

/-- An inventory that lists the file of a job lists it for every job with the same target. -/
theorem Inventory.Lists.same {inventory : Inventory} {id : ℕ} {job job' : AssetSyncJob}
    (h : inventory.Lists id job) (hsame : SameTarget job job') : inventory.Lists id job' := by
  obtain ⟨metadata, hmetadata, hnode, hstorage, hcontent, hfile⟩ := h.target
  exact ⟨metadata, hsame.metadata.trans hmetadata, hnode.trans hsame.targetNode.symm, hstorage,
    by rw [hsame.task]; exact hcontent, hfile⟩

/-- The variables of a run are those of its job. -/
def Task.Of (task : Task) (jobs : ℕ → Option AssetSyncJob) : Prop :=
  ∃ job metadata, jobs task.job = some job ∧ job.metadata = .ok metadata ∧
    task = job.task task.job metadata

/-- The rows stay, with their targets. -/
def KeepsTargets (jobs jobs' : ℕ → Option AssetSyncJob) : Prop :=
  ∀ id job, jobs id = some job → ∃ job', jobs' id = some job' ∧ SameTarget job job'

/-- The variables of a run stay those of its job while the targets stay. -/
theorem Task.Of.keep {task : Task} {jobs jobs' : ℕ → Option AssetSyncJob} (h : task.Of jobs)
    (hkeep : KeepsTargets jobs jobs') : task.Of jobs' := by
  obtain ⟨job, metadata, hjob, hmetadata, htask⟩ := h
  obtain ⟨job', hjob', hsame⟩ := hkeep _ _ hjob
  exact ⟨job', metadata, hjob', hsame.metadata.trans hmetadata, by rw [hsame.task]; exact htask⟩

/-- What a run is about to commit, and why. -/
def Phase.Sound (jobs : ℕ → Option AssetSyncJob) (seen : Option Inventory) : Phase → Prop
  | .discovering _ task => task.Of jobs
  | .downloading _ task => task.Of jobs
  | .submitting _ changed task => task.Of jobs ∧ changed.state = .syncing
  | .submitted task => task.Of jobs
  | .renewing loaded changed task _ _ => task.Of jobs ∧ changed.state = loaded.state
  | .polling task _ _ => task.Of jobs
  | .verifying _ task => task.Of jobs
  | .finishing id _ changed _ => changed.state = .failed ∨ changed.state = .verified ∧
      ∃ inventory job, seen = some inventory ∧ jobs id = some job ∧ inventory.Lists id job
  | _ => True

/-- What a run is about to commit stays sound while the targets stay. -/
theorem Phase.Sound.keep {phase : Phase} {jobs jobs' : ℕ → Option AssetSyncJob}
    {seen : Option Inventory} (h : phase.Sound jobs seen) (hkeep : KeepsTargets jobs jobs') :
    phase.Sound jobs' seen := by
  cases phase with
  | idle => trivial
  | claimed => trivial
  | raised => trivial
  | ended => trivial
  | discovering => exact Task.Of.keep h hkeep
  | downloading => exact Task.Of.keep h hkeep
  | submitted => exact Task.Of.keep h hkeep
  | polling => exact Task.Of.keep h hkeep
  | verifying => exact Task.Of.keep h hkeep
  | submitting => exact ⟨h.1.keep hkeep, h.2⟩
  | renewing => exact ⟨h.1.keep hkeep, h.2⟩
  | finishing =>
    rcases h with hfailed | ⟨hverified, inventory, job, hseen, hjob, hlists⟩
    · exact Or.inl hfailed
    · obtain ⟨job', hjob', hsame⟩ := hkeep _ _ hjob
      exact Or.inr ⟨hverified, inventory, job', hseen, hjob', hlists.same hsame⟩

/-- A run that finds its file in an answer has an inventory that lists the file of its job. -/
theorem Task.Of.lists {task : Task} {jobs : ℕ → Option AssetSyncJob} (h : task.Of jobs)
    {volids : List (Option Text)}
    (hfile : task.metadata.filename ∈ (task.answered volids).filenames) :
    ∃ job, jobs task.job = some job ∧ (task.answered volids).Lists task.job job := by
  obtain ⟨job, metadata, hjob, hmetadata, htask⟩ := h
  refine ⟨job, hjob, metadata, hmetadata, ?_, ?_, ?_, ?_⟩
  · exact congrArg Task.node htask
  · exact congrArg (fun t : Task => t.metadata.storageId) htask
  · exact congrArg Task.content htask
  · have hname := congrArg (fun t : Task => t.metadata.filename) htask
    dsimp only [AssetSyncJob.task] at hname
    rw [← hname]
    exact hfile

/-! ## What a step does -/

/-- What a commit writes, and what follows it. -/
inductive Commits : Phase → ℕ → AssetSyncJob → AssetSyncJob → Phase → Prop where
  | submitting {loaded changed : AssetSyncJob} {task : Task} :
      Commits (.submitting loaded changed task) task.job loaded changed (.submitted task)
  | renewing {loaded changed : AssetSyncJob} {task : Task} {left : ℕ} {latest : Text} :
      Commits (.renewing loaded changed task left latest) task.job loaded changed
        (.polling task left latest)
  | finishing {id : ℕ} {loaded changed : AssetSyncJob} {handling : Bool} :
      Commits (.finishing id loaded changed handling) id loaded changed .ended

/-- A run goes on without a commit. -/
structure Moves {A : Type} [DecidableEq A] (s s' : System A) (x : A) (next : Phase) : Prop where
  jobs : s'.jobs = s.jobs
  phase : s'.phase = Function.update s.phase x next
  seen : ∀ y, y ≠ x → s'.seen y = s.seen y
  job : ∀ id, next.job = some id → (s.phase x).job = some id
  sound : (s.phase x).Sound s.jobs (s.seen x) → next.Sound s.jobs (s'.seen x)

section Steps

variable {A : Type} [DecidableEq A] {env : Env} {s s' : System A} {a : Action A}

/-- What a step can do. -/
inductive StepCases (env : Env) (s s' : System A) : Action A → Prop where
  | insert (a : Action A) (id : ℕ) (job : AssetSyncJob) (hnew : s.jobs id = none)
      (hstate : job.state ≠ .verified) (hs : s' = s.put id job) : StepCases env s s' a
  | claim (x : A) (id : ℕ) (hostname : Text) (now : ℤ) (job : AssetSyncJob)
      (hphase : s.phase x = .idle) (hjob : s.jobs id = some job)
      (hclaimable : job.claimable now = true)
      (hs : s' = (s.put id (job.claim env hostname now)).goto x (.claimed id)) :
      StepCases env s s' (.claim x id hostname now)
  | commit (x : A) {id : ℕ} {loaded changed : AssetSyncJob} {next : Phase}
      (hcommits : Commits (s.phase x) id loaded changed next)
      (hs : s' = (s.flush id loaded changed).goto x next) : StepCases env s s' (.commit x)
  | move (a : Action A) (x : A) (next : Phase) (h : Moves s s' x next) : StepCases env s s' a

/-- The insertion of a job that is not verified is one of the cases. -/
theorem insert_cases {id : ℕ} {job : AssetSyncJob} (h : s.insert id job = some s')
    (hstate : job.state ≠ .verified) : StepCases env s s' a := by
  unfold System.insert at h
  split at h
  · rename_i hnew
    cases h
    exact .insert a id job hnew hstate rfl
  · cases h

/-- A run moves on, and its last answer stays. -/
theorem moves_goto {x : A} {next : Phase}
    (hjob : ∀ id, next.job = some id → (s.phase x).job = some id)
    (hsound : (s.phase x).Sound s.jobs (s.seen x) → next.Sound s.jobs (s.seen x)) :
    Moves s (s.goto x next) x next :=
  ⟨rfl, rfl, fun _ _ => rfl, hjob, hsound⟩

/-- Raising an error keeps the job of the run and is sound. -/
theorem raise_cases {phase next : Phase} {error : Text} (h : phase.raise error = some next) :
    next.job = phase.job ∧ ∀ jobs seen, next.Sound jobs seen := by
  unfold Phase.raise at h
  split at h <;> cases h <;> exact ⟨rfl, fun _ _ => trivial⟩

/-- A run that raises goes on without a commit. -/
theorem moves_raise {x : A} {error : Text} {next : Phase}
    (h : (s.phase x).raise error = some next) : Moves s (s.goto x next) x next := by
  obtain ⟨hjob, hsound⟩ := raise_cases h
  exact moves_goto (fun id hid => hjob ▸ hid) fun _ => hsound _ _

/-- A run that has claimed a job goes on when it loads it. -/
theorem moves_load {x : A} {id : ℕ} (hphase : s.phase x = .claimed id) :
    ∃ next, Moves s (s.load x id) x next := by
  unfold System.load
  split
  · exact ⟨.ended, moves_goto (fun _ hid => by cases hid) fun _ => trivial⟩
  · rename_i job hjob
    split
    · rename_i metadata hmetadata
      refine ⟨_, moves_goto (fun id' hid => ?_) fun _ => ⟨job, metadata, hjob, hmetadata, rfl⟩⟩
      rw [hphase]
      exact hid
    · refine ⟨_, moves_goto (fun id' hid => ?_) fun _ => trivial⟩
      rw [hphase]
      exact hid

/-- A run that handles an error goes on without a commit. -/
theorem moves_handle {x : A} {id : ℕ} {object : Option (AssetSyncJob × AssetSyncJob)}
    {error : Text} {now : ℤ} (hphase : s.phase x = .raised id object error) :
    ∃ next, Moves s (s.handle x id object error now) x next := by
  unfold System.handle
  split
  · exact ⟨.ended, moves_goto (fun _ hid => by cases hid) fun _ => trivial⟩
  · refine ⟨_, moves_goto (fun id' hid => ?_) fun _ => Or.inl rfl⟩
    rw [hphase]
    exact hid

/-- After an answer the run goes on with what it lists. -/
theorem moves_see {x : A} {task : Task} {volids : List (Option Text)}
    {next : Phase} (hjob : (s.phase x).job = some task.job)
    (hof : (s.phase x).Sound s.jobs (s.seen x) → task.Of s.jobs) (hnext : next.job = some task.job)
    (hsound : task.Of s.jobs → next.Sound s.jobs (some (task.answered volids))) :
    Moves s ((s.see x (task.answered volids)).goto x next) x next where
  jobs := rfl
  phase := rfl
  seen := fun y hy => Function.update_of_ne hy _ _
  job := fun id hid => by
    rw [hnext] at hid
    rw [hjob]
    exact hid
  sound := fun h => by
    have hseen : ((s.see x (task.answered volids)).goto x next).seen x =
        some (task.answered volids) := Function.update_self _ _ _
    rw [hseen]
    exact hsound (hof h)

/-- After an inventory a run still has its job in hand. -/
theorem afterInventory_job (loaded : AssetSyncJob) (task : Task) (inventory : Inventory)
    (now : ℤ) : (afterInventory loaded task inventory now).job = some task.job := by
  unfold afterInventory
  split
  · rfl
  · split
    · rfl
    · split <;> rfl

/-- After an inventory a run is about to commit `verified` only for a file that it lists. -/
theorem afterInventory_sound {loaded : AssetSyncJob} {task : Task} {jobs : ℕ → Option AssetSyncJob}
    {volids : List (Option Text)} {now : ℤ} (h : task.Of jobs) :
    (afterInventory loaded task (task.answered volids) now).Sound jobs
      (some (task.answered volids)) := by
  unfold afterInventory
  split
  · rename_i hfile
    obtain ⟨job, hjob, hlists⟩ := h.lists hfile
    exact Or.inr ⟨rfl, _, job, rfl, hjob, hlists⟩
  · split
    · exact h
    · split
      · exact h
      · exact ⟨h, rfl⟩

/-- After the verification a run still has its job in hand. -/
theorem afterVerification_job (loaded : AssetSyncJob) (task : Task) (inventory : Inventory)
    (now : ℤ) : (afterVerification loaded task inventory now).job = some task.job := by
  unfold afterVerification
  split <;> rfl

/-- After the verification a run is about to commit `verified` only for a file that the inventory
lists. -/
theorem afterVerification_sound {loaded : AssetSyncJob} {task : Task}
    {jobs : ℕ → Option AssetSyncJob} {volids : List (Option Text)} {now : ℤ} (h : task.Of jobs) :
    (afterVerification loaded task (task.answered volids) now).Sound jobs
      (some (task.answered volids)) := by
  unfold afterVerification
  split
  · rename_i hfile
    obtain ⟨job, hjob, hlists⟩ := h.lists hfile
    exact Or.inr ⟨rfl, _, job, rfl, hjob, hlists⟩
  · exact Or.inl rfl

/-- After the status of a task a run still has its job in hand. -/
theorem afterStatus_job (loaded : AssetSyncJob) (task : Task) (left : ℕ) (latest : Text)
    (answer : TaskStatus) (now : ℤ) :
    (afterStatus env loaded task left latest answer now).job = some task.job := by
  unfold afterStatus
  dsimp only
  split
  · split <;> rfl
  · split <;> rfl

/-- The status of a task alone lets no run commit `verified`. -/
theorem afterStatus_sound {loaded : AssetSyncJob} {task : Task} {left : ℕ} {latest : Text}
    {answer : TaskStatus} {now : ℤ} {jobs : ℕ → Option AssetSyncJob} {seen : Option Inventory}
    (h : task.Of jobs) : (afterStatus env loaded task left latest answer now).Sound jobs seen := by
  unfold afterStatus
  dsimp only
  split
  · split
    · exact h
    · exact Or.inl rfl
  · split
    · exact Or.inl rfl
    · exact Or.inl rfl
    · exact ⟨h, rfl⟩

/-- Every step is one of the cases. -/
theorem step_cases (h : s.step env a = some s') : StepCases env s s' a := by
  cases a with
  | enqueue id targetNode method metadata => exact insert_cases h (by simp [newJob])
  | syncVmTemplate id targetNode metadata now =>
    exact insert_cases h (by simp [AssetSyncJob.finish])
  | claim x id hostname now =>
    simp only [System.step, System.claim] at h
    split at h
    · rename_i job hphase hjob
      split at h
      · rename_i hclaimable
        cases h
        exact .claim x id hostname now job hphase hjob hclaimable rfl
      · cases h
    · cases h
  | load x =>
    simp only [System.step] at h
    split at h
    · rename_i id hphase
      cases h
      obtain ⟨next, hmoves⟩ := moves_load hphase
      exact .move _ x next hmoves
    · cases h
  | inventory x volids now =>
    simp only [System.step] at h
    split at h
    · rename_i loaded task hphase
      cases h
      refine .move _ x _ (moves_see ?_ ?_ (afterInventory_job _ _ _ _)
        afterInventory_sound)
      · rw [hphase]
        rfl
      · rw [hphase]
        exact id
    · rename_i loaded task hphase
      cases h
      refine .move _ x _ (moves_see ?_ ?_ (afterVerification_job _ _ _ _)
        afterVerification_sound)
      · rw [hphase]
        rfl
      · rw [hphase]
        exact id
    · cases h
  | download x upid =>
    simp only [System.step] at h
    split at h
    · rename_i loaded task hphase
      cases h
      refine .move _ x _ (moves_goto (fun id hid => ?_) ?_)
      · rw [hphase]
        exact hid
      · rw [hphase]
        exact fun hof => ⟨hof, rfl⟩
    · cases h
  | commit x =>
    simp only [System.step] at h
    split at h
    · rename_i loaded changed task hphase
      cases h
      exact .commit x (by rw [hphase]; exact .submitting) rfl
    · rename_i loaded changed task left latest hphase
      cases h
      exact .commit x (by rw [hphase]; exact .renewing) rfl
    · rename_i id loaded changed handling hphase
      cases h
      exact .commit x (by rw [hphase]; exact .finishing) rfl
    · cases h
  | refresh x now =>
    simp only [System.step] at h
    split at h
    · rename_i task hphase
      obtain ⟨job, hjob, rfl⟩ := Option.map_eq_some_iff.mp h
      refine .move _ x _ (moves_goto (fun id hid => ?_) ?_)
      · rw [hphase]
        exact hid
      · rw [hphase]
        exact fun hof => ⟨hof, rfl⟩
    · cases h
  | status x answer now =>
    simp only [System.step] at h
    split at h
    · rename_i task left latest hphase
      obtain ⟨job, hjob, rfl⟩ := Option.map_eq_some_iff.mp h
      refine .move _ x _ (moves_goto (fun id hid => ?_) ?_)
      · rw [hphase]
        rw [afterStatus_job] at hid
        exact hid
      · rw [hphase]
        exact fun hof => afterStatus_sound hof
    · cases h
  | raise x error =>
    obtain ⟨next, hnext, rfl⟩ := Option.map_eq_some_iff.mp h
    exact .move _ x next (moves_raise hnext)
  | handle x now =>
    simp only [System.step] at h
    split at h
    · rename_i id object error hphase
      cases h
      obtain ⟨next, hmoves⟩ : ∃ next, Moves s (s.handle x id object error now) x next :=
        moves_handle hphase
      exact .move _ x next hmoves
    · cases h
  | crash x =>
    cases h
    exact .move _ x .ended (moves_goto (fun _ hid => by cases hid) fun _ => trivial)

end Steps

/-! ## The rows -/

section Rows

variable {A : Type} {s : System A}

/-- A flush writes no column of the target. -/
theorem flush_sameTarget (loaded changed current : AssetSyncJob) :
    SameTarget current (loaded.flush changed current) := ⟨rfl, rfl, rfl⟩

/-- A commit sets the row of its job, if there is one, and no other row. -/
theorem flush_jobs (s : System A) (id : ℕ) (loaded changed : AssetSyncJob) (j : ℕ) :
    (s.flush id loaded changed).jobs j =
      if j = id then (s.jobs j).map (loaded.flush changed) else s.jobs j := by
  unfold System.flush
  split
  · rename_i hnone
    by_cases hj : j = id
    · rw [if_pos hj, hj, hnone]
      rfl
    · rw [if_neg hj]
  · rename_i current hcurrent
    by_cases hj : j = id
    · subst hj
      rw [if_pos rfl, hcurrent]
      exact Function.update_self _ _ _
    · rw [if_neg hj]
      exact Function.update_of_ne hj _ _

/-- A flush moves no run on. -/
theorem flush_phase (s : System A) (id : ℕ) (loaded changed : AssetSyncJob) :
    (s.flush id loaded changed).phase = s.phase ∧ (s.flush id loaded changed).seen = s.seen := by
  unfold System.flush
  split <;> exact ⟨rfl, rfl⟩

/-- Writing a row with the same target keeps all targets. -/
theorem keepsTargets_put {id : ℕ} {job : AssetSyncJob}
    (h : ∀ old, s.jobs id = some old → SameTarget old job) :
    KeepsTargets s.jobs (s.put id job).jobs := by
  intro j old hold
  by_cases hj : j = id
  · subst hj
    exact ⟨job, Function.update_self _ _ _, h old hold⟩
  · exact ⟨old, (Function.update_of_ne hj _ _).trans hold, .refl old⟩

/-- A flush keeps all targets. -/
theorem keepsTargets_flush (s : System A) (id : ℕ) (loaded changed : AssetSyncJob) :
    KeepsTargets s.jobs (s.flush id loaded changed).jobs := by
  intro j old hold
  rw [flush_jobs, hold]
  by_cases hj : j = id
  · rw [if_pos hj]
    exact ⟨_, rfl, flush_sameTarget loaded changed old⟩
  · rw [if_neg hj]
    exact ⟨old, rfl, .refl old⟩

/-! ## Every result is truthful -/

/-- Every run has what it is about to commit from an inventory. -/
def System.Sound (s : System A) : Prop := ∀ x, (s.phase x).Sound s.jobs (s.seen x)

/-- After a commit a run is as sound as before. -/
theorem Commits.sound {phase next : Phase} {id : ℕ} {loaded changed : AssetSyncJob}
    (h : Commits phase id loaded changed next) {jobs : ℕ → Option AssetSyncJob}
    {seen : Option Inventory} (hsound : phase.Sound jobs seen) : next.Sound jobs seen := by
  cases h with
  | submitting => exact hsound.1
  | renewing => exact hsound.1
  | finishing => trivial

/-- At the start no run has anything to commit. -/
theorem System.Sound.start : ({} : System A).Sound := fun _ => trivial

variable [DecidableEq A] {env : Env} {s' : System A} {a : Action A}

/-- A run that goes on soundly leaves the others sound. -/
theorem System.Sound.goto {x : A} {next : Phase} (h : s.Sound)
    (hnext : next.Sound s.jobs (s.seen x)) : (s.goto x next).Sound := by
  intro y
  show (Function.update s.phase x next y).Sound s.jobs (s.seen y)
  by_cases hy : y = x
  · rw [hy, Function.update_self]
    exact hnext
  · rw [Function.update_of_ne hy]
    exact h y

/-- Every step keeps the runs sound. -/
theorem System.Sound.step (hs : s.Sound) (h : s.step env a = some s') : s'.Sound := by
  cases step_cases h with
  | insert _ id job hnew _ hs' =>
    subst hs'
    have hkeep : KeepsTargets s.jobs (s.put id job).jobs :=
      keepsTargets_put fun old hold => by rw [hnew] at hold; cases hold
    exact fun x => (hs x).keep hkeep
  | claim x id hostname now job _ hjob _ hs' =>
    subst hs'
    have hkeep : KeepsTargets s.jobs (s.put id (job.claim env hostname now)).jobs :=
      keepsTargets_put fun old hold => by
        rw [hjob] at hold
        cases hold
        exact ⟨rfl, rfl, rfl⟩
    have hput : (s.put id (job.claim env hostname now)).Sound := fun y => (hs y).keep hkeep
    exact hput.goto trivial
  | @commit x id loaded changed next hcommits hs' =>
    subst hs'
    obtain ⟨hphase, hseen⟩ := flush_phase s id loaded changed
    have hkeep := keepsTargets_flush s id loaded changed
    have hflush : (s.flush id loaded changed).Sound := by
      intro y
      rw [hphase, hseen]
      exact (hs y).keep hkeep
    refine hflush.goto ?_
    rw [hseen]
    exact (hcommits.sound (hs x)).keep hkeep
  | move _ x next hmoves =>
    intro y
    rw [hmoves.jobs, hmoves.phase]
    by_cases hy : y = x
    · rw [hy, Function.update_self]
      exact hmoves.sound (hs x)
    · rw [Function.update_of_ne hy, hmoves.seen y hy]
      exact hs y

/-- A row becomes `verified` only by the end of a run. -/
theorem verified_by_finishing (hs : s.Sound) (h : s.step env a = some s') {j : ℕ}
    {job' : AssetSyncJob} (hjob' : s'.jobs j = some job') (hverified : job'.state = .verified)
    (hbefore : ∀ job, s.jobs j = some job → job.state ≠ .verified) :
    ∃ x loaded changed handling, a = .commit x ∧
      s.phase x = .finishing j loaded changed handling ∧ changed.state = .verified := by
  cases step_cases h with
  | insert _ id job hnew hstate hs' =>
    subst hs'
    by_cases hj : j = id
    · subst hj
      have hput : (s.put j job).jobs j = some job := Function.update_self _ _ _
      rw [hput] at hjob'
      cases hjob'
      exact absurd hverified hstate
    · have hput : (s.put id job).jobs j = s.jobs j := Function.update_of_ne hj _ _
      rw [hput] at hjob'
      exact absurd hverified (hbefore job' hjob')
  | claim x id hostname now job _ hjob _ hs' =>
    subst hs'
    by_cases hj : j = id
    · subst hj
      have hput : ((s.put j (job.claim env hostname now)).goto x (.claimed j)).jobs j =
          some (job.claim env hostname now) := Function.update_self _ _ _
      rw [hput] at hjob'
      cases hjob'
      cases hverified
    · have hput : ((s.put id (job.claim env hostname now)).goto x (.claimed id)).jobs j =
          s.jobs j := Function.update_of_ne hj _ _
      rw [hput] at hjob'
      exact absurd hverified (hbefore job' hjob')
  | @commit x id loaded changed next hcommits hs' =>
    subst hs'
    have hrow : (s.flush id loaded changed).jobs j = some job' := hjob'
    rw [flush_jobs] at hrow
    by_cases hj : j = id
    · subst hj
      rw [if_pos rfl] at hrow
      obtain ⟨current, hcurrent, rfl⟩ := Option.map_eq_some_iff.mp hrow
      have hwritten : changed.state = .verified ∧ changed.state ≠ loaded.state := by
        unfold AssetSyncJob.flush updated at hverified
        dsimp only at hverified
        split at hverified
        · exact absurd hverified (hbefore current hcurrent)
        · rename_i hne
          exact ⟨hverified, hne⟩
      have hx := hs x
      generalize hphase : s.phase x = phase at hcommits hx
      cases hcommits with
      | submitting =>
        rw [hx.2] at hwritten
        cases hwritten.1
      | renewing => exact absurd hx.2 hwritten.2
      | @finishing _ _ _ handling =>
        exact ⟨x, loaded, changed, handling, rfl, hphase, hwritten.1⟩
    · rw [if_neg hj] at hrow
      exact absurd hverified (hbefore job' hrow)
  | move _ x next hmoves =>
    rw [hmoves.jobs] at hjob'
    exact absurd hverified (hbefore job' hjob')

end Rows

/-! ## Results are final in timely runs -/

/-- A job is claimed only when no run has it in hand any more. -/
def ClaimsTimely {A : Type} (s : System A) : Action A → Prop
  | .claim _ id _ _ => ∀ x, (s.phase x).job ≠ some id
  | _ => True

instance {A : Type} [Fintype A] (s : System A) (a : Action A) : Decidable (ClaimsTimely s a) :=
  match a with
  | .claim _ id _ _ => inferInstanceAs (Decidable (∀ x, (s.phase x).job ≠ some id))
  | .enqueue _ _ _ _ => inferInstanceAs (Decidable True)
  | .syncVmTemplate _ _ _ _ => inferInstanceAs (Decidable True)
  | .load _ => inferInstanceAs (Decidable True)
  | .inventory _ _ _ => inferInstanceAs (Decidable True)
  | .download _ _ => inferInstanceAs (Decidable True)
  | .commit _ => inferInstanceAs (Decidable True)
  | .refresh _ _ => inferInstanceAs (Decidable True)
  | .status _ _ _ => inferInstanceAs (Decidable True)
  | .raise _ _ => inferInstanceAs (Decidable True)
  | .handle _ _ => inferInstanceAs (Decidable True)
  | .crash _ => inferInstanceAs (Decidable True)

/-- At most one run has a job in hand, and then the job has not ended. -/
structure System.Alone {A : Type} (s : System A) : Prop where
  sound : s.Sound
  single : ∀ x y id, (s.phase x).job = some id → (s.phase y).job = some id → x = y
  unfinished : ∀ x id, (s.phase x).job = some id → ∃ job, s.jobs id = some job ∧ ¬ job.state.Final

section Alone

variable {A : Type} {env : Env} {s s' : System A} {a : Action A}

/-- At the start no run has a job in hand. -/
theorem System.Alone.start : ({} : System A).Alone where
  sound := .start
  single := fun _ _ _ h => by cases h
  unfinished := fun _ _ h => by cases h

/-- A job that can be claimed has not ended. -/
theorem not_final_of_claimable {job : AssetSyncJob} {now : ℤ} (h : job.claimable now = true) :
    ¬ job.state.Final := by
  unfold AssetSyncJob.claimable at h
  rintro (hfinal | hfinal) <;> simp [hfinal] at h

/-- A commit is of the job that the run has in hand, before and after. -/
theorem Commits.job {phase next : Phase} {id : ℕ} {loaded changed : AssetSyncJob}
    (h : Commits phase id loaded changed next) :
    phase.job = some id ∧ ∀ j, next.job = some j → j = id := by
  cases h with
  | submitting => exact ⟨rfl, fun j hj => (Option.some.inj hj).symm⟩
  | renewing => exact ⟨rfl, fun j hj => (Option.some.inj hj).symm⟩
  | finishing => exact ⟨rfl, fun j hj => by cases hj⟩

/-- As long as a run goes on with a job, its commits leave the job open. -/
theorem Commits.not_final {phase next : Phase} {id : ℕ} {loaded changed current : AssetSyncJob}
    (h : Commits phase id loaded changed next) {jobs : ℕ → Option AssetSyncJob}
    {seen : Option Inventory} (hsound : phase.Sound jobs seen) (hnext : next.job = some id)
    (hcurrent : ¬ current.state.Final) : ¬ (loaded.flush changed current).state.Final := by
  unfold AssetSyncJob.flush updated
  dsimp only
  split
  · exact hcurrent
  · rename_i hne
    cases h with
    | submitting =>
      rw [hsound.2]
      decide
    | renewing => exact absurd hsound.2 hne
    | finishing => cases hnext

variable [DecidableEq A]

/-- A run that has a job in hand had it before, or has just claimed it. -/
theorem hand_step (h : s.step env a = some s') {y : A} {j : ℕ} (hj : (s'.phase y).job = some j) :
    (s.phase y).job = some j ∨ (∃ hostname now, a = .claim y j hostname now) ∧
      ∃ job, s'.jobs j = some job ∧ job.state = .running := by
  cases step_cases h with
  | insert _ id job _ _ hs' =>
    subst hs'
    exact Or.inl hj
  | claim x id hostname now job _ _ _ hs' =>
    subst hs'
    by_cases hy : y = x
    · subst hy
      have hself : ((s.put id (job.claim env hostname now)).goto y (.claimed id)).phase y =
          .claimed id := Function.update_self _ _ _
      rw [hself] at hj
      obtain rfl : id = j := Option.some.inj hj
      exact Or.inr ⟨⟨hostname, now, rfl⟩, _, Function.update_self _ _ _, rfl⟩
    · have hsame : ((s.put id (job.claim env hostname now)).goto x (.claimed id)).phase y =
          s.phase y := Function.update_of_ne hy _ _
      rw [hsame] at hj
      exact Or.inl hj
  | @commit x id loaded changed next hcommits hs' =>
    subst hs'
    have hphase : ((s.flush id loaded changed).goto x next).phase =
        Function.update s.phase x next := by
      rw [System.goto, (flush_phase s id loaded changed).1]
    rw [hphase] at hj
    rcases update_read_cases hj with ⟨hy, hj⟩ | ⟨-, hj⟩
    · rw [hy, hcommits.job.2 j hj]
      exact Or.inl hcommits.job.1
    · exact Or.inl hj
  | move _ x next hmoves =>
    rw [hmoves.phase] at hj
    rcases update_read_cases hj with ⟨hy, hj⟩ | ⟨-, hj⟩
    · rw [hy]
      exact Or.inl (hmoves.job j hj)
    · exact Or.inl hj

/-- What a step can do to a row. -/
theorem row_step (h : s.step env a = some s') {j : ℕ} {job : AssetSyncJob}
    (hjob : s.jobs j = some job) :
    s'.jobs j = some job ∨ (∃ now, job.claimable now = true) ∧
        (∃ job', s'.jobs j = some job' ∧ job'.state = .running) ∨
      ∃ x loaded changed next, Commits (s.phase x) j loaded changed next ∧ s'.phase x = next ∧
        s'.jobs j = some (loaded.flush changed job) := by
  cases step_cases h with
  | insert _ id job' hnew _ hs' =>
    subst hs'
    refine Or.inl ?_
    have hne : j ≠ id := by
      rintro rfl
      rw [hnew] at hjob
      cases hjob
    exact (Function.update_of_ne hne _ _).trans hjob
  | claim x id hostname now job' _ hjob' hclaimable hs' =>
    subst hs'
    by_cases hj : j = id
    · subst hj
      rw [hjob] at hjob'
      cases hjob'
      exact Or.inr (Or.inl ⟨⟨now, hclaimable⟩, _, Function.update_self _ _ _, rfl⟩)
    · exact Or.inl ((Function.update_of_ne hj _ _).trans hjob)
  | @commit x id loaded changed next hcommits hs' =>
    subst hs'
    have hrow : ((s.flush id loaded changed).goto x next).jobs j =
        if j = id then (s.jobs j).map (loaded.flush changed) else s.jobs j := flush_jobs _ _ _ _ _
    by_cases hj : j = id
    · subst hj
      rw [if_pos rfl, hjob] at hrow
      exact Or.inr (Or.inr ⟨x, loaded, changed, next, hcommits, Function.update_self _ _ _, hrow⟩)
    · rw [if_neg hj] at hrow
      exact Or.inl (hrow.trans hjob)
  | move _ x next hmoves =>
    rw [hmoves.jobs]
    exact Or.inl hjob

/-- Steps that claim in time keep it so that one run at most has a job in hand. -/
theorem System.Alone.step (hs : s.Alone) (hok : ClaimsTimely s a) (h : s.step env a = some s') :
    s'.Alone := by
  refine ⟨hs.sound.step h, fun y z j hy hz => ?_, fun y j hy => ?_⟩
  · rcases hand_step h hy with hy' | ⟨⟨hostname, now, rfl⟩, -⟩
    · rcases hand_step h hz with hz' | ⟨⟨hostname, now, rfl⟩, -⟩
      · exact hs.single y z j hy' hz'
      · exact absurd hy' (hok y)
    · rcases hand_step h hz with hz' | ⟨⟨hostname', now', heq⟩, -⟩
      · exact absurd hz' (hok z)
      · cases heq
        rfl
  · rcases hand_step h hy with hy' | ⟨-, job, hjob, hrunning⟩
    · obtain ⟨job, hjob, hopen⟩ := hs.unfinished y j hy'
      rcases row_step h hjob with hsame | ⟨-, job', hjob', hrunning⟩ |
          ⟨x, loaded, changed, next, hcommits, hnext, hrow⟩
      · exact ⟨job, hsame, hopen⟩
      · exact ⟨job', hjob', by rw [hrunning]; decide⟩
      · have hxy : x = y := hs.single x y j hcommits.job.1 hy'
        subst hxy
        rw [hnext] at hy
        exact ⟨_, hrow, hcommits.not_final (hs.sound x) hy hopen⟩
    · exact ⟨job, hjob, by rw [hrunning]; decide⟩

/-- A job that has ended is not touched. -/
theorem System.Alone.final (hs : s.Alone) (h : s.step env a = some s') {j : ℕ}
    {job : AssetSyncJob} (hjob : s.jobs j = some job) (hfinal : job.state.Final) :
    s'.jobs j = some job := by
  rcases row_step h hjob with hsame | ⟨⟨now, hclaimable⟩, -⟩ |
      ⟨x, loaded, changed, next, hcommits, -⟩
  · exact hsame
  · exact absurd hfinal (not_final_of_claimable hclaimable)
  · obtain ⟨job', hjob', hopen⟩ := hs.unfinished x j hcommits.job.1
    rw [hjob] at hjob'
    cases hjob'
    exact absurd hfinal hopen

end Alone

/-! ## The results -/

/-- The step commits `verified` for a job, by a run whose last inventory lists its file. -/
def VerifiedByInventory {A : Type} (s : System A) (a : Action A) (id : ℕ) : Prop :=
  ∃ x inventory job, a = .commit x ∧ (s.phase x).job = some id ∧ s.seen x = some inventory ∧
    s.jobs id = some job ∧ inventory.Lists id job

/-- In every run of workers, `verified` is committed only by a run whose last inventory lists the
file. When jobs are claimed only after every earlier run that had them in hand has ended, no step
changes a job that is `verified` or `failed`. -/
theorem asset_results {A : Type} [DecidableEq A] (env : Env) :
    (∀ s : System A, Reaches (System.step env) (fun _ _ => True) {} s →
      ∀ a s', s.step env a = some s' → ∀ id,
        (∀ x loaded changed handling, a = .commit x →
          s.phase x = .finishing id loaded changed handling → changed.state = .verified →
            VerifiedByInventory s a id) ∧
        ∀ job', s'.jobs id = some job' → job'.state = .verified →
          (∃ job, s.jobs id = some job ∧ job.state = .verified) ∨ VerifiedByInventory s a id) ∧
    ∀ s : System A, Reaches (System.step env) ClaimsTimely {} s →
      ∀ a s', s.step env a = some s' → ∀ id job, s.jobs id = some job → job.state.Final →
        s'.jobs id = some job := by
  constructor
  · intro s hs a s' h id
    have hsound : s.Sound := hs.invariant .start fun _ _ _ hinv _ hstep => hinv.step hstep
    have hlists : ∀ x loaded changed handling, a = .commit x →
        s.phase x = .finishing id loaded changed handling → changed.state = .verified →
          VerifiedByInventory s a id := by
      intro x loaded changed handling ha hphase hverified
      have hx := hsound x
      rw [hphase] at hx
      rcases hx with hfailed | ⟨-, inventory, job, hseen, hjob, hl⟩
      · rw [hverified] at hfailed
        cases hfailed
      · exact ⟨x, inventory, job, ha, by rw [hphase]; rfl, hseen, hjob, hl⟩
    refine ⟨hlists, fun job' hjob' hverified => ?_⟩
    by_cases hbefore : ∃ job, s.jobs id = some job ∧ job.state = .verified
    · exact Or.inl hbefore
    · obtain ⟨x, loaded, changed, handling, ha, hphase, hchanged⟩ :=
        verified_by_finishing hsound h hjob' hverified fun job hjob hv => hbefore ⟨job, hjob, hv⟩
      exact Or.inr (hlists x loaded changed handling ha hphase hchanged)
  · intro s hs a s' h id job hjob hfinal
    have halone : s.Alone := hs.invariant .start fun _ _ _ hinv hok hstep => hinv.step hok hstep
    exact halone.final h hjob hfinal

namespace Fixture

def env : Env where
  lower := id
  upper := id

def file : Metadata := ⟨some "a.iso".toList, "local".toList, some "http://192.0.2.1/a.iso".toList⟩

/-- A run claims the job, finds the file missing and is killed. Another one claims the job when
the lease has run out, and finds the file. -/
def recovered : List (Action (Fin 2)) :=
  [.enqueue 1 "pve".toList "download-url-iso".toList file,
    .claim 0 1 "host".toList 0, .load 0, .inventory 0 [] 0, .crash 0,
    .claim 1 1 "host".toList 200000000, .load 1,
    .inventory 1 [some "local:iso/a.iso".toList] 200000000]

def verifiedJob : AssetSyncJob :=
  { newJob "pve".toList "download-url-iso".toList file with
    state := .verified
    finishedAt := some 200000000 }

set_option maxRecDepth 100000 in
/-- After a killed run the second one verifies the job by its inventory, and the result stays. -/
theorem asset_results_recovered :
    (∃ s s', follow (System.step env) (fun _ _ => True) {} recovered = some s ∧
      s.step env (.commit 1) = some s' ∧ VerifiedByInventory s (.commit 1) 1) ∧
    ∃ s s' job, follow (System.step env) ClaimsTimely {} (recovered ++ [.commit 1]) = some s ∧
      s.step env (.enqueue 2 "pve".toList "download-url-iso".toList file) = some s' ∧
      s'.jobs 1 = some job ∧ job.state = .verified := by
  have hany : (follow (System.step env) (fun _ _ => True) {} recovered).isSome = true := rfl
  have htimely : (follow (System.step env) ClaimsTimely {} (recovered ++ [.commit 1])).isSome =
    true := by decide +kernel
  refine ⟨⟨_, _, (Option.some_get hany).symm, rfl, ?_⟩,
    _, _, verifiedJob, (Option.some_get htimely).symm, rfl, ?_, rfl⟩
  · exact ((asset_results env).1 _ (reaches_get hany) (.commit 1) _ rfl 1).1 1 _ _ _ rfl rfl rfl
  · exact (asset_results env).2 _ (reaches_get htimely)
      (.enqueue 2 "pve".toList "download-url-iso".toList file) _ rfl 1 verifiedJob rfl (Or.inl rfl)

/-- The first run is not killed but stalls past its lease. -/
def overtaken : List (Action (Fin 2)) :=
  [.enqueue 1 "pve".toList "download-url-iso".toList file,
    .claim 0 1 "host".toList 0, .load 0, .inventory 0 [] 0,
    .claim 1 1 "host".toList 200000000, .load 1,
    .inventory 1 [some "local:iso/a.iso".toList] 200000000, .commit 1]

set_option maxRecDepth 100000 in
/-- It then fails to submit the download, and the verified job becomes a failed one. -/
theorem verified_job_fails :
    ∃ s s' job job', follow (System.step env) (fun _ _ => True) {}
        (overtaken ++ [.raise 0 "timeout".toList, .handle 0 300000000]) = some s ∧
      s.step env (.commit 0) = some s' ∧ s.jobs 1 = some job ∧ job.state = .verified ∧
      s'.jobs 1 = some job' ∧ job'.state = .failed ∧ job'.error ≠ job.error :=
  ⟨_, _, _, _, rfl, rfl, rfl, rfl, rfl, rfl, by decide⟩

end Fixture

end LabGoblin.AssetSync
