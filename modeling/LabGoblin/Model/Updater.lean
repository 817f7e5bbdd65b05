import LabGoblin.Model.Text
import Mathlib.Data.Int.Notation
import Mathlib.Data.List.Infix

/-!
# The updater agent

The agent changes three stores on the host in turn: the checked-out commit, the database and
`update-state.json`. Every command it runs can fail, and a failed one may leave its own store
half-changed; an `Environment` says which commands fail during a call, and with what effect.
`pg_dump` and `pg_restore` are exact.

The service is in use between calls, and its writers are stopped before the database is dumped.
Whatever they write before that in a call is written before the call as far as the agent can tell,
so a call starts from what it finds when the writers stop. Times are in microseconds.
-/

set_option autoImplicit false

namespace LabGoblin.Updater

/-! ## The state file -/

structure LastCheck where
  repository : String
  branch : String
  fromVersion : String
  targetVersion : String
  checkedAt : ℤ
  deriving DecidableEq

inductive OperationStatus where
  | queued
  | running
  | succeeded
  | failed
  deriving DecidableEq

structure Result where
  fromVersion : String
  toVersion : String
  backupPath : Option String
  message : String
  deriving DecidableEq

structure Operation where
  id : String
  action : Option String := none
  status : OperationStatus
  startedAt : Option ℤ := none
  result : Option Result := none
  error : Option String := none
  finishedAt : Option ℤ := none
  deriving DecidableEq

/-- `update-state.json`. An absent file is one without keys. -/
structure UpdateState where
  previousVersion : Option String := none
  currentVersion : Option String := none
  backupPath : Option String := none
  updatedAt : Option ℤ := none
  rolledBackAt : Option ℤ := none
  lastCheck : Option LastCheck := none
  operation : Option Operation := none
  deriving DecidableEq

/-- What a rollback goes by. -/
structure Metadata where
  previousVersion : Option String
  currentVersion : Option String
  backupPath : Option String
  deriving DecidableEq

def UpdateState.metadata (s : UpdateState) : Metadata :=
  ⟨s.previousVersion, s.currentVersion, s.backupPath⟩

/-! ## The host -/

/-- The stores of the host. `dumps` are the files in the state directory, and `needsOperator` says
that an automatic recovery has failed. -/
structure Host (D : Type) where
  checkout : String
  database : D
  dumps : String → Option D
  state : UpdateState
  needsOperator : Bool

inductive Command where
  | readState
  | status
  | fetch
  | revParse (ref : String)
  | mergeBase (ancestor descendant : String)
  | verifyCommit
  | worktreeAdd
  | build
  | stop
  | dump
  | checkout
  | restore
  | up
  | health
  | installAgent
  | writeState
  | worktreeRemove
  deriving DecidableEq

inductive Failure where
  | value (message : String)
  | runtime (message : String)
  | command (c : Command)
  /-- The operation failed and automatic recovery also failed. -/
  | recovery (operation : String)
  deriving DecidableEq

inductive Phase where
  | forward
  | recovery
  deriving DecidableEq

/-- What `git` answers about the repository. -/
structure Git where
  porcelain : String
  /-- `git rev-parse --verify`, after the fetch. -/
  resolve : String → Option String
  isAncestor : String → String → Bool

structure Settings where
  allowedRepository : String
  requireSignedCommits : Bool
  checkMaxAge : ℤ

/-- What happens to the commands of one call. -/
structure Environment (D : Type) where
  git : Git
  fails : Phase → Command → Bool
  /-- The commit that a failed checkout leaves. -/
  halfCheckedOut : Phase → String
  /-- The contents that a failed restore leaves. -/
  halfRestored : Phase → D
  /-- Whether a state write that fails has replaced the file before. -/
  replaced : Bool
  /-- What the version that the call starts does to the database from then on. -/
  activity : D → D
  now : ℤ
  /-- The time of the dump, as the name of the file has it. -/
  stamp : String

abbrev M (D : Type) := EStateM Failure (Host D)

/-! ## Requests -/

structure Payload where
  repository : String := ""
  branch : String := ""
  targetRef : String := ""

/-- `str.rstrip`, for the characters that satisfy a condition. -/
def rstrip (p : Char → Bool) (s : Text) : Text := (s.reverse.dropWhile p).reverse

def removesuffix (suffix s : Text) : Text :=
  if suffix.isSuffixOf s then s.take (s.length - suffix.length) else s

/-- `normalize_repo` -/
def normalizeRepo (value : String) : String :=
  let stripped := rstrip Text.isspace (value.toList.dropWhile Text.isspace)
  String.ofList (removesuffix ".git".toList (rstrip (· = '/') stripped))

def alphanumeric (c : Char) : Bool :=
  ('a' ≤ c && c ≤ 'z') || ('A' ≤ c && c ≤ 'Z') || ('0' ≤ c && c ≤ '9')

/-- `REF_RE.fullmatch` -/
def refRe (value : String) : Bool :=
  match value.toList with
  | [] => false
  | c :: cs => alphanumeric c && cs.length ≤ 119 &&
      cs.all fun c => alphanumeric c || c ∈ ['.', '_', '/', '-']

/-- `SHA_RE.fullmatch` -/
def shaRe (value : String) : Bool :=
  value.toList.length = 40 &&
    value.toList.all fun c => ('0' ≤ c && c ≤ '9') || ('a' ≤ c && c ≤ 'f')

def hasDotDot (value : String) : Bool := "..".toList <:+: value.toList

/-- `value or default` -/
def orDefault (value fallback : String) : String := if value = "" then fallback else value

section Calls

variable {D : Type} (settings : Settings) (env : Environment D)

/-- `validate_request` -/
@[irreducible] def validateRequest (payload : Payload) : Except Failure (String × String) :=
  let repository := orDefault payload.repository settings.allowedRepository
  let branch := orDefault payload.branch "main"
  if normalizeRepo repository ≠ normalizeRepo settings.allowedRepository then
    .error (.value "Repository is not allowed by the host configuration")
  else if !refRe branch || hasDotDot branch then .error (.value "Invalid Git reference")
  else .ok (repository, branch)

def raising {α : Type} : Except Failure α → M D α
  | .ok a => pure a
  | .error e => throw e

def raiseIf (p : Prop) [Decidable p] (message : String) : M D Unit :=
  if p then throw (.runtime message) else pure ()

/-! ## Commands -/

/-- A command that changes none of the three stores. -/
def run (phase : Phase) (c : Command) : M D Unit :=
  if env.fails phase c then throw (.command c) else pure ()

/-- `commit` -/
def commit (ref : String) : M D String := do
  run env .forward (.revParse ref)
  if ref = "HEAD" then return (← get).checkout
  else
    match env.git.resolve ref with
    | some version => return version
    | none => throw (.command (.revParse ref))

def readState : M D UpdateState := do
  run env .forward .readState
  return (← get).state

/-- `write_state` -/
def writeState (s : UpdateState) : M D Unit := do
  if env.fails .forward .writeState then
    if env.replaced then modify fun h => { h with state := s }
    throw (.command .writeState)
  else modify fun h => { h with state := s }

/-- `git checkout --detach` -/
def checkout (phase : Phase) (version : String) : M D Unit := do
  if env.fails phase .checkout then
    modify fun h => { h with checkout := env.halfCheckedOut phase }
    throw (.command .checkout)
  else modify fun h => { h with checkout := version }

/-- `before-{version[:12]}-{stamp}.dump` in the directory of the backups. -/
@[irreducible] def backupPath (version stamp : String) : String :=
  "before-" ++ String.ofList (version.toList.take 12) ++ "-" ++ stamp ++ ".dump"

/-- `backup_database` -/
def backupDatabase (fromVersion : String) : M D String := do
  run env .forward .dump
  let path := backupPath fromVersion env.stamp
  modify fun h => { h with dumps := fun p => if p = path then some h.database else h.dumps p }
  return path

/-- `restore_database` -/
def restoreDatabase (phase : Phase) (path : String) : M D Unit := do
  match (← get).dumps path with
  | none => throw (.runtime "Rollback backup is missing or outside the state directory")
  | some contents =>
    if env.fails phase .restore then
      modify fun h => { h with database := env.halfRestored phase }
      throw (.command .restore)
    else modify fun h => { h with database := contents }

/-- `docker compose up` of the version that is checked out, also when it fails half-way. -/
def composeUp : M D Unit := do
  modify fun h => { h with database := env.activity h.database }
  run env .forward .up

/-! ## Recovery -/

/-- `recover_version`. What the recovered version writes from then on is left out. -/
def recoverVersion (version : String) (backup : Option String) : M D Unit := do
  run env .recovery .stop
  checkout env .recovery version
  match backup with
  | some path => restoreDatabase env .recovery path
  | none => pure ()
  run env .recovery .up
  run env .recovery .health
  run env .recovery .installAgent

/-- `recover_after_failure` -/
def recoverAfterFailure (operation version : String) (backup : Option String) : M D Unit :=
  tryCatch (recoverVersion env version backup) fun _ => do
    modify fun h => { h with needsOperator := true }
    throw (.recovery operation)

/-- `try` with the handler of the two operations: it recovers and raises again. -/
def withRecovery {α : Type} (operation version : String) (backup : Option String) (body : M D α) :
    M D α :=
  tryCatch body fun e => do
    recoverAfterFailure env operation version backup
    throw e

/-- `try` and `finally`: what the cleanup raises replaces how the body ended. -/
def withCleanup {α : Type} (cleanup : M D Unit) (body : M D α) : M D α := fun h =>
  match body h with
  | .ok a h' => (cleanup *> pure a : M D α) h'
  | .error e h' => (cleanup *> throw e : M D α) h'

/-! ## The three actions -/

/-- `check_update` -/
def checkUpdate (payload : Payload) : M D Result := do
  let (repository, branch) ← raising (validateRequest settings payload)
  run env .forward .fetch
  let current ← commit env "HEAD"
  let target ← commit env ("origin/" ++ branch)
  let state ← readState env
  writeState env { state with
    lastCheck := some ⟨normalizeRepo repository, branch, current, target, env.now⟩ }
  return ⟨current, target, none, if current ≠ target then "Update available" else "Already current"⟩

/-- Whether a check allows the update: it is the same request, and recent. -/
def LastCheck.allows (checked : LastCheck) (target branch repository previous : String)
    (checkMaxAge now : ℤ) : Bool :=
  checked.targetVersion = target && checked.branch = branch &&
    checked.repository = normalizeRepo repository && checked.fromVersion = previous &&
    now - checked.checkedAt ≤ checkMaxAge * 1000000

def exactCommit (payload : Payload) : Except Failure String :=
  if shaRe payload.targetRef then .ok payload.targetRef
  else .error (.value
    "target_ref must be the exact 40-character commit SHA returned by the update check")

def UpdateState.checked (s : UpdateState) : Except Failure LastCheck :=
  match s.lastCheck with
  | some checked => .ok checked
  | none => .error (.runtime "Run an update check before applying an update")

def verifySigned : M D Unit :=
  if settings.requireSignedCommits then run env .forward .verifyCommit else pure ()

/-- What `apply_update` checks before it changes anything: the current commit and the new one. -/
def checkedUpdate (payload : Payload) : M D (String × String) := do
  let (repository, branch) ← raising (validateRequest settings payload)
  let requested ← raising (exactCommit payload)
  run env .forward .status
  raiseIf (env.git.porcelain ≠ "")
    "Deployment checkout has local changes; refusing to overwrite them"
  run env .forward .fetch
  let previous ← commit env "HEAD"
  let target ← commit env requested
  let checked ← raising (← readState env).checked
  raiseIf (checked.allows target branch repository previous settings.checkMaxAge env.now = false)
    "The checked update is stale or does not match this request; run update check again"
  let head ← commit env ("origin/" ++ branch)
  raiseIf (head ≠ target) "The update branch changed after the update check; run update check again"
  run env .forward (.mergeBase target ("origin/" ++ branch))
  raiseIf (env.git.isAncestor target ("origin/" ++ branch) = false)
    "Requested commit is not reachable from the configured update branch"
  verifySigned settings env
  run env .forward (.mergeBase previous target)
  raiseIf (env.git.isAncestor previous target = false)
    "Refusing a non-forward update; use the rollback action for downgrades"
  return (previous, target)

/-- The whole file that `apply_update` writes. -/
def updatedState (previous target backup : String) (now : ℤ) : UpdateState where
  previousVersion := some previous
  currentVersion := some target
  backupPath := some backup
  updatedAt := some now

/-- The whole file that `rollback_update` writes. -/
def rolledBackState (current target reverseBackup : String) (now : ℤ) : UpdateState where
  previousVersion := some current
  currentVersion := some target
  backupPath := some reverseBackup
  rolledBackAt := some now

/-- `apply_update`. The handler of its `try` sees the backup once it is taken. -/
def applyUpdate (payload : Payload) : M D Result := do
  let (previous, target) ← checkedUpdate settings env payload
  if previous = target then return ⟨previous, target, none, "Already current"⟩
  else
    run env .forward .worktreeAdd
    withCleanup (run env .forward .worktreeRemove) do
      let backup ← withRecovery env "Update" previous none do
        run env .forward .build
        run env .forward .stop
        backupDatabase env previous
      withRecovery env "Update" previous (some backup) do
        checkout env .forward target
        composeUp env
        run env .forward .health
        run env .forward .installAgent
        writeState env (updatedState previous target backup env.now)
        return ⟨previous, target, some backup, "Update applied and health gate passed"⟩

/-- What `rollback_update` checks first: the backup, the current commit and the previous one. -/
def rollbackTarget : M D (String × String × String) := do
  let state ← readState env
  let target := state.previousVersion.getD ""
  let backup := state.backupPath.getD ""
  raiseIf (target = "") "No previous successful update is available"
  raiseIf (((← get).dumps backup).isNone = true)
    "Rollback backup is missing or outside the state directory"
  let current ← commit env "HEAD"
  let target ← commit env target
  return (backup, current, target)

/-- `rollback_update`. Its state write stands after the `try`. -/
def rollbackUpdate : M D Result := do
  let (backup, current, target) ← rollbackTarget env
  run env .forward .worktreeAdd
  let reverseBackup ← withCleanup (run env .forward .worktreeRemove) do
    let reverseBackup ← withRecovery env "Rollback" current none do
      run env .forward .build
      run env .forward .stop
      backupDatabase env current
    withRecovery env "Rollback" current (some reverseBackup) do
      checkout env .forward target
      restoreDatabase env .forward backup
      composeUp env
      run env .forward .health
      run env .forward .installAgent
    return reverseBackup
  writeState env (rolledBackState current target reverseBackup env.now)
  return ⟨current, target, some backup, "Application and database rollback completed"⟩

end Calls

end LabGoblin.Updater
