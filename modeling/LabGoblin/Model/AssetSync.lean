import Mathlib.Logic.Function.Basic
import LabGoblin.Model.Text

/-!
# Asset synchronization

`services/asset_sync.py` and `workers/asset_sync_worker.py`. A run of the worker claims a job and
processes it: it looks at the inventory of the target node, submits the download unless the job
has a task already, polls the task, and looks at the inventory again. Between two of its awaits a
run commits at most once, and any other run may come in between. The `UPDATE` of a commit sets the
columns that the run has changed in the row it loaded last.

The events that a run logs are left out. Instants are in microseconds, and every run has a clock
of its own.
-/

set_option autoImplicit false

namespace LabGoblin.AssetSync

/-- The settings, and the methods of `str` that the service uses. -/
structure Env where
  pollIntervalSeconds : ℤ := 3
  downloadTimeoutSeconds : ℤ := 7200
  leaseSeconds : ℤ := 180
  lower : Text → Text
  upper : Text → Text

namespace Env

def pollInterval (env : Env) : ℤ :=
  max 1 (if env.pollIntervalSeconds = 0 then 3 else env.pollIntervalSeconds)

def timeoutSeconds (env : Env) : ℤ :=
  max env.pollInterval
    (if env.downloadTimeoutSeconds = 0 then 7200 else env.downloadTimeoutSeconds)

/-- `max_attempts` -/
def maxAttempts (env : Env) : ℕ :=
  max 1 ((env.timeoutSeconds + env.pollInterval - 1) / env.pollInterval).toNat

/-- The end of a lease that is taken or renewed now. -/
def leaseEnd (env : Env) (now : ℤ) : ℤ := now + env.leaseSeconds * 1000000

end Env

/-! ## Rows -/

inductive JobState where
  | queued
  | running
  | syncing
  | verified
  | failed
  deriving DecidableEq

/-- What a job says of its file. -/
structure Metadata where
  filename : Option Text
  storageId : Text
  sourceUrl : Option Text
  deriving DecidableEq

/-- `AssetSyncJob`, but for its `id`. `metadata` is what is read from `metadata_json`, or the text
of the error. -/
structure AssetSyncJob where
  targetNode : Text
  state : JobState
  method : Text
  proxmoxUpid : Option Text := none
  leaseOwner : Option Text := none
  leaseExpiresAt : Option ℤ := none
  finishedAt : Option ℤ := none
  error : Option Text := none
  metadata : Except Text Metadata

/-- The value of a column after an `UPDATE` of what was changed in the loaded row. -/
def updated {α : Type} [DecidableEq α] (loaded changed current : α) : α :=
  if changed = loaded then current else changed

namespace AssetSyncJob

/-- `_finish` -/
def finish (job : AssetSyncJob) (state : JobState) (error : Option Text) (now : ℤ) :
    AssetSyncJob :=
  { job with
    state := state
    error := error
    finishedAt := some now
    leaseOwner := none
    leaseExpiresAt := none }

/-- The current row after the `UPDATE` of a commit. -/
def flush (loaded changed current : AssetSyncJob) : AssetSyncJob :=
  { current with
    state := updated loaded.state changed.state current.state
    proxmoxUpid := updated loaded.proxmoxUpid changed.proxmoxUpid current.proxmoxUpid
    leaseOwner := updated loaded.leaseOwner changed.leaseOwner current.leaseOwner
    leaseExpiresAt := updated loaded.leaseExpiresAt changed.leaseExpiresAt current.leaseExpiresAt
    finishedAt := updated loaded.finishedAt changed.finishedAt current.finishedAt
    error := updated loaded.error changed.error current.error }

/-- The condition of the query of `run_once`. -/
def claimable (job : AssetSyncJob) (now : ℤ) : Bool :=
  job.state = .queued ||
    (job.state = .running || job.state = .syncing) &&
      match job.leaseExpiresAt with
      | none => true
      | some expires => expires < now

/-- What `run_once` writes. -/
def claim (job : AssetSyncJob) (env : Env) (hostname : Text) (now : ℤ) : AssetSyncJob :=
  { job with
    state := .running
    leaseOwner := some hostname
    leaseExpiresAt := some (env.leaseEnd now) }

end AssetSyncJob

/-! ## Proxmox -/

inductive Content where
  | iso
  | vztmpl
  deriving DecidableEq

/-- The filename of an item of an inventory, by its `volid`. -/
def filenameOf : Option Text → Option Text
  | none => none
  | some volid => if volid = [] then none else some ((volid.splitOn '/').getLastD [])

/-- What a node answers to the question for its inventory. -/
structure Inventory where
  node : Text
  storageId : Text
  content : Content
  filenames : List (Option Text)
  deriving DecidableEq

/-- `str(status.get("status") or "")`, and `exitstatus` as a text if there is one. -/
structure TaskStatus where
  status : Text
  exitstatus : Option Text
  deriving DecidableEq

/-- `str(exitstatus).upper() == "OK"` -/
def TaskStatus.succeeded (env : Env) (answer : TaskStatus) : Bool :=
  env.upper (answer.exitstatus.getD "None".toList) = "OK".toList

/-- `exitstatus or 'unknown'` -/
def TaskStatus.reason (answer : TaskStatus) : Text :=
  match answer.exitstatus with
  | none => "unknown".toList
  | some text => if text = [] then "unknown".toList else text

/-! ## A run of the worker -/

/-- The variables of `process_job`. -/
structure Task where
  job : ℕ
  node : Text
  content : Content
  metadata : Metadata
  deriving DecidableEq

def AssetSyncJob.task (job : AssetSyncJob) (id : ℕ) (metadata : Metadata) : Task where
  job := id
  node := job.targetNode
  content := if job.method = "download-url-iso".toList then .iso else .vztmpl
  metadata := metadata

/-- Where a run is. `loaded` is the row as it was loaded last, and `changed` the row as the run has
changed it since. -/
inductive Phase where
  | idle
  | claimed (job : ℕ)
  /-- The first look at the inventory. -/
  | discovering (loaded : AssetSyncJob) (task : Task)
  | downloading (loaded : AssetSyncJob) (task : Task)
  /-- About to commit that the download is submitted. -/
  | submitting (loaded changed : AssetSyncJob) (task : Task)
  | submitted (task : Task)
  /-- About to commit a new lease; `left` polls are left with this one. -/
  | renewing (loaded changed : AssetSyncJob) (task : Task) (left : ℕ) (latest : Text)
  | polling (task : Task) (left : ℕ) (latest : Text)
  /-- The second look at the inventory. -/
  | verifying (loaded : AssetSyncJob) (task : Task)
  /-- About to commit the end of the job; `handling` says that an exception has been caught. -/
  | finishing (job : ℕ) (loaded changed : AssetSyncJob) (handling : Bool)
  /-- An exception has been raised. The row is to be loaded if the last commit has expired it. -/
  | raised (job : ℕ) (object : Option (AssetSyncJob × AssetSyncJob)) (error : Text)
  | ended

/-- The job that a run has in hand. -/
def Phase.job : Phase → Option ℕ
  | .idle => none
  | .claimed job => some job
  | .discovering _ task => some task.job
  | .downloading _ task => some task.job
  | .submitting _ _ task => some task.job
  | .submitted task => some task.job
  | .renewing _ _ task _ _ => some task.job
  | .polling task _ _ => some task.job
  | .verifying _ task => some task.job
  | .finishing job _ _ _ => some job
  | .raised job _ _ => some job
  | .ended => none

/-- `_poll_task_until_done` goes into its next turn. -/
def renew (env : Env) (loaded : AssetSyncJob) (task : Task) (left : ℕ) (latest : Text) (now : ℤ) :
    Phase :=
  .renewing loaded { loaded with leaseExpiresAt := some (env.leaseEnd now) } task left latest

def timedOut (env : Env) (latest : Text) : Text :=
  "Timed out waiting for Proxmox download task to complete (elapsed=".toList ++
    (toString env.timeoutSeconds).toList ++ "s timeout=".toList ++
    (toString env.timeoutSeconds).toList ++ "s latest_status=".toList ++ latest ++ ").".toList

/-- What follows the first look at the inventory. -/
def afterInventory (loaded : AssetSyncJob) (task : Task) (inventory : Inventory) (now : ℤ) :
    Phase :=
  if task.metadata.filename ∈ inventory.filenames then
    .finishing task.job loaded (loaded.finish .verified none now) false
  else
    match loaded.proxmoxUpid with
    | none => .downloading loaded task
    | some upid =>
      if upid = [] then .downloading loaded task
      else .submitting loaded { loaded with state := .syncing } task

/-- What follows the second look at the inventory. -/
def afterVerification (loaded : AssetSyncJob) (task : Task) (inventory : Inventory) (now : ℤ) :
    Phase :=
  if task.metadata.filename ∈ inventory.filenames then
    .finishing task.job loaded (loaded.finish .verified none now) false
  else
    .finishing task.job loaded
      (loaded.finish .failed (some "Post-download verification failed.".toList) now) false

/-- What follows the answer of the task, when the row has been loaded again. -/
def afterStatus (env : Env) (loaded : AssetSyncJob) (task : Task) (left : ℕ) (latest : Text)
    (answer : TaskStatus) (now : ℤ) : Phase :=
  let status := env.lower answer.status
  let latest := if status = [] then latest else status
  if status = "stopped".toList then
    if answer.succeeded env then .verifying loaded task
    else
      .finishing task.job loaded (loaded.finish .failed
        (some ("Proxmox task failed: ".toList ++ answer.reason)) now) false
  else
    match left with
    | 0 | 1 =>
      .finishing task.job loaded (loaded.finish .failed (some (timedOut env latest)) now) false
    | left + 2 => renew env loaded task (left + 1) latest now

/-! ## Any number of runs -/

/-- The table of jobs and the runs `A`. `seen` is history: what each run has last been answered to
the question for an inventory. -/
structure System (A : Type) where
  jobs : ℕ → Option AssetSyncJob := fun _ => none
  phase : A → Phase := fun _ => .idle
  seen : A → Option Inventory := fun _ => none

inductive Action (A : Type) where
  /-- `enqueue_iso` and `enqueue_ct_template` -/
  | enqueue (job : ℕ) (targetNode method : Text) (metadata : Metadata)
  | syncVmTemplate (job : ℕ) (targetNode : Text) (metadata : Metadata) (now : ℤ)
  /-- The transaction of `run_once`. -/
  | claim (a : A) (job : ℕ) (hostname : Text) (now : ℤ)
  /-- The first query of `process_job`. -/
  | load (a : A)
  | inventory (a : A) (volids : List (Option Text)) (now : ℤ)
  | download (a : A) (upid : Text)
  | commit (a : A)
  /-- The row is loaded again after the download has been submitted. -/
  | refresh (a : A) (now : ℤ)
  | status (a : A) (answer : TaskStatus) (now : ℤ)
  /-- A statement raises: a request to Proxmox fails, or a commit does. -/
  | raise (a : A) (error : Text)
  /-- `process_job` catches an exception. -/
  | handle (a : A) (now : ℤ)
  /-- The process ends, or the handler itself raises. -/
  | crash (a : A)

/-- `_new_job` -/
def newJob (targetNode method : Text) (metadata : Metadata) : AssetSyncJob where
  targetNode := targetNode
  state := .queued
  method := method
  metadata := .ok metadata

def vmTemplateError : Text :=
  ("VM template sync requires configured command runner (qm/pvesh) and is not enabled in this " ++
    "environment.").toList

/-- The exception of a statement in the `try` block of `process_job`. -/
def Phase.raise (error : Text) : Phase → Option Phase
  | .discovering loaded task => some (.raised task.job (some (loaded, loaded)) error)
  | .downloading loaded task => some (.raised task.job (some (loaded, loaded)) error)
  | .submitting loaded changed task => some (.raised task.job (some (loaded, changed)) error)
  | .submitted task => some (.raised task.job none error)
  | .renewing loaded changed task _ _ => some (.raised task.job (some (loaded, changed)) error)
  | .polling task _ _ => some (.raised task.job none error)
  | .verifying loaded task => some (.raised task.job (some (loaded, loaded)) error)
  | .finishing job loaded changed false => some (.raised job (some (loaded, changed)) error)
  | _ => none

/-- The answer to a run that asks for the inventory of a task. -/
def Task.answered (task : Task) (volids : List (Option Text)) : Inventory :=
  ⟨task.node, task.metadata.storageId, task.content, volids.map filenameOf⟩

namespace System

variable {A : Type} [DecidableEq A]

def goto (s : System A) (a : A) (phase : Phase) : System A :=
  { s with phase := Function.update s.phase a phase }

def put (s : System A) (id : ℕ) (job : AssetSyncJob) : System A :=
  { s with jobs := Function.update s.jobs id (some job) }

def see (s : System A) (a : A) (inventory : Inventory) : System A :=
  { s with seen := Function.update s.seen a (some inventory) }

/-- The commit of what a run has changed in a row. -/
def flush (s : System A) (id : ℕ) (loaded changed : AssetSyncJob) : System A :=
  match s.jobs id with
  | none => s
  | some current => s.put id (loaded.flush changed current)

def insert (s : System A) (id : ℕ) (job : AssetSyncJob) : Option (System A) :=
  match s.jobs id with
  | none => some (s.put id job)
  | some _ => none

/-- The transaction of `run_once`. -/
def claim (env : Env) (s : System A) (a : A) (id : ℕ) (hostname : Text) (now : ℤ) :
    Option (System A) :=
  match s.phase a, s.jobs id with
  | .idle, some job =>
    if job.claimable now then some ((s.put id (job.claim env hostname now)).goto a (.claimed id))
    else none
  | _, _ => none

/-- `process_job` begins. -/
def load (s : System A) (a : A) (id : ℕ) : System A :=
  match s.jobs id with
  | none => s.goto a .ended
  | some job =>
    match job.metadata with
    | .ok metadata => s.goto a (.discovering job (job.task id metadata))
    | .error e => s.goto a (.raised id (some (job, job)) e)

/-- The row is loaded again, and the run goes on with it. -/
def reload (s : System A) (a : A) (id : ℕ) (next : AssetSyncJob → Phase) : Option (System A) :=
  (s.jobs id).map fun job => s.goto a (next job)

/-- The handler of `process_job`. -/
def handle (s : System A) (a : A) (id : ℕ) (object : Option (AssetSyncJob × AssetSyncJob))
    (error : Text) (now : ℤ) : System A :=
  match s.jobs id with
  | none => s.goto a .ended
  | some current =>
    let (loaded, changed) := object.getD (current, current)
    s.goto a (.finishing id loaded (changed.finish .failed (some (error.take 300)) now) true)

def step (env : Env) (s : System A) : Action A → Option (System A)
  | .enqueue id targetNode method metadata => s.insert id (newJob targetNode method metadata)
  | .syncVmTemplate id targetNode metadata now =>
    s.insert id ((newJob targetNode "local_clone_migrate_template".toList metadata).finish .failed
      (some vmTemplateError) now)
  | .claim a id hostname now => s.claim env a id hostname now
  | .load a =>
    match s.phase a with
    | .claimed id => some (s.load a id)
    | _ => none
  | .inventory a volids now =>
    match s.phase a with
    | .discovering loaded task =>
      some ((s.see a (task.answered volids)).goto a
        (afterInventory loaded task (task.answered volids) now))
    | .verifying loaded task =>
      some ((s.see a (task.answered volids)).goto a
        (afterVerification loaded task (task.answered volids) now))
    | _ => none
  | .download a upid =>
    match s.phase a with
    | .downloading loaded task =>
      some (s.goto a
        (.submitting loaded { loaded with proxmoxUpid := some upid, state := .syncing } task))
    | _ => none
  | .commit a =>
    match s.phase a with
    | .submitting loaded changed task =>
      some ((s.flush task.job loaded changed).goto a (.submitted task))
    | .renewing loaded changed task left latest =>
      some ((s.flush task.job loaded changed).goto a (.polling task left latest))
    | .finishing id loaded changed _ => some ((s.flush id loaded changed).goto a .ended)
    | _ => none
  | .refresh a now =>
    match s.phase a with
    | .submitted task =>
      s.reload a task.job fun job => renew env job task env.maxAttempts "unknown".toList now
    | _ => none
  | .status a answer now =>
    match s.phase a with
    | .polling task left latest =>
      s.reload a task.job fun job => afterStatus env job task left latest answer now
    | _ => none
  | .raise a error => ((s.phase a).raise error).map (s.goto a)
  | .handle a now =>
    match s.phase a with
    | .raised id object error => some (s.handle a id object error now)
    | _ => none
  | .crash a => some (s.goto a .ended)

end System

end LabGoblin.AssetSync
