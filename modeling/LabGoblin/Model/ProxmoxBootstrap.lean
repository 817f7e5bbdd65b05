import Mathlib.Data.Finset.Sort
import Mathlib.Data.String.Basic
import LabGoblin.Computation.Ending
import LabGoblin.Computation.Table
import LabGoblin.Model.Json
import LabGoblin.Model.ProxmoxUrl

/-!
# Bootstrap of a Proxmox cluster

`bootstrap_with_root` of `services/proxmox_bootstrap.py`. It creates a role, a user and a token at a
Proxmox server with the root password, stores the cluster, and takes back what it has created when
a step fails. A call is carried out and answered, or it is refused, or its answer makes no sense;
an `Env` says which calls fail, and what comes from outside. Nobody else changes the server or the
database meanwhile.
-/

set_option autoImplicit false

namespace LabGoblin.ProxmoxBootstrap

open Interactive (Table)

inductive Exc where
  | value (text : String)
  /-- `payload["api_url"]` -/
  | key
  /-- `ProxmoxBootstrapError` -/
  | bootstrap (text : String)
  /-- A call fails, as its status or the transport says. -/
  | http
  /-- A flush or a commit fails. -/
  | database
  | other
  deriving DecidableEq

def tokenIdDefault : String := "labgoblin"

def serviceUser : String := "labgoblin@pve"

def serviceRole : String := "LabGoblinRole"

def servicePrivileges : Finset String :=
  {"Datastore.AllocateSpace", "Datastore.AllocateTemplate", "Datastore.Audit", "Pool.Allocate",
    "Pool.Audit", "SDN.Audit", "SDN.Use", "Sys.Audit", "VM.Allocate", "VM.Audit", "VM.Clone",
    "VM.Console", "VM.GuestAgent.Audit", "VM.PowerMgmt"}

/-! ## The Proxmox server -/

structure User where
  enable : Bool
  comment : String
  tokens : List String := []
  deriving DecidableEq

structure Acl where
  path : String
  user : String
  role : String
  propagate : Bool
  deriving DecidableEq

/-- The roles with their privileges, the users and the permissions, and the privileges that the
server knows, which are those of `Administrator`. -/
structure Server where
  roles : String → Option (Finset String)
  users : String → Option User
  acl : List Acl := []
  supported : Finset String

namespace Server

def createRole (s : Server) (id : String) (privileges : Finset String) : Option Server :=
  match s.roles id with
  | some _ => none
  | none => some { s with roles := Function.update s.roles id (some privileges) }

def createUser (s : Server) (id comment : String) : Option Server :=
  match s.users id with
  | some _ => none
  | none =>
    some { s with
      users := Function.update s.users id (some { enable := true, comment := comment }) }

def grant (s : Server) (entry : Acl) : Server := { s with acl := s.acl ++ [entry] }

def createToken (s : Server) (id token : String) : Option Server :=
  match s.users id with
  | none => none
  | some user =>
    some { s with
      users := Function.update s.users id (some { user with tokens := user.tokens ++ [token] }) }

/-- A user goes with its tokens and its permissions. -/
def deleteUser (s : Server) (id : String) : Server :=
  { s with
    users := Function.update s.users id none
    acl := s.acl.filter fun entry => entry.user ≠ id }

def deleteRole (s : Server) (id : String) : Server :=
  { s with roles := Function.update s.roles id none }

end Server

/-- An item of `cluster/resources`; `summary` is `str(item)`. -/
structure Resource where
  type : Option String
  node : Option String
  status : Option String
  summary : String
  deriving DecidableEq

/-! ## The database -/

structure ProxmoxCluster where
  id : ℕ
  name : String
  apiUrl : String
  verifySsl : Bool
  authMode : String
  rootUsername : String
  tokenUser : String
  tokenId : String
  encryptedTokenSecret : String
  tokenCreatedByApp : Bool
  isActive : Bool
  lastValidatedAt : ℤ
  lastValidationStatus : String
  lastValidationError : Option String
  deriving DecidableEq

structure ProxmoxNode where
  clusterId : ℕ
  nodeName : Option String
  status : Option String
  rawSummaryJson : String
  deriving DecidableEq

structure ProxmoxClusterDefault where
  clusterId : ℕ
  deriving DecidableEq

/-- The ids of the nodes and of the defaults are left out. -/
structure Database where
  clusters : Table ProxmoxCluster ProxmoxCluster.id
  nodes : List ProxmoxNode
  defaults : List ProxmoxClusterDefault

namespace Database

/-- A new cluster. Names are unique, and at most one cluster is active. -/
def addCluster (db : Database) (cluster : ProxmoxCluster) : Option Database :=
  if db.clusters.rows.any fun c => c.name = cluster.name ∨ c.isActive ∧ cluster.isActive then none
  else (db.clusters.reserve.insert? cluster).map fun clusters => { db with clusters := clusters }

/-- `_upsert_nodes` -/
def upsertNodes (db : Database) (clusterId : ℕ) (resources : List Resource) : Database :=
  { db with
    nodes := db.nodes.filter (fun node => node.clusterId ≠ clusterId) ++
      (resources.filter fun item => item.type = some "node").map fun item =>
        ⟨clusterId, item.node, item.status, item.summary⟩ }

def addDefaults (db : Database) (clusterId : ℕ) : Database :=
  { db with defaults := db.defaults ++ [⟨clusterId⟩] }

/-- Every node has a name, and no cluster has two rows of defaults. -/
def Valid (db : Database) : Prop :=
  (∀ node ∈ db.nodes, node.nodeName ≠ none) ∧ db.defaults.Nodup

instance (db : Database) : Decidable db.Valid :=
  inferInstanceAs (Decidable ((∀ node ∈ db.nodes, node.nodeName ≠ none) ∧ db.defaults.Nodup))

end Database

/-! ## The method -/

/-- What comes from outside: which of the calls fail, by their number, and with which exception;
what the answers say that the server decides on its own; whether a flush or a commit fails. -/
structure Env where
  repr : Json → String
  isprintable : String → Bool
  url : Csrf.Library
  settings : ProxmoxUrl.Settings
  /-- `encrypt_secret` -/
  encrypt : String → Except Exc String
  now : ℤ
  fault : ℕ → Option Exc
  /-- The value of the token, once it is created. -/
  secret : Except Exc String
  /-- The answer to the first call with the token; `none` is a status of 400 or more. -/
  resources : Except Exc (Option (List Resource))
  flushFails : Bool := false
  commitFails : Bool := false
  /-- Whether the compensating deletions are carried out. -/
  userDeleted : Bool := true
  roleDeleted : Bool := true

/-- `servers` is history: the server after each of the calls, the latest first. -/
structure World where
  server : Server
  servers : List Server := []
  db : Database
  /-- The database as the session sees it. -/
  session : Database
  createdRole : Bool := false
  createdUser : Bool := false

def World.start (server : Server) (db : Database) : World where
  server := server
  db := db
  session := db

abbrev M := EStateM Exc World

/-- The server is another one after a call. -/
def World.answer (w : World) (server : Server) : World :=
  { w with server := server, servers := server :: w.servers }

/-- A call that the server carries out unless it fails. -/
def call {α : Type} (env : Env) (request : Server → Option (α × Server)) : M α := fun w =>
  match env.fault w.servers.length with
  | some e => .error e (w.answer w.server)
  | none =>
    match request w.server with
    | none => .error .http (w.answer w.server)
    | some (a, server) => .ok a (w.answer server)

def liftExcept {α : Type} : Except Exc α → M α
  | .ok a => pure a
  | .error e => throw e

def raiseIf (p : Prop) [Decidable p] (e : Exc) : M Unit := if p then throw e else pure ()

/-- The privileges of the role, by those that the server knows. -/
def requiredPrivileges (available : Finset String) : Finset String :=
  if "VM.GuestAgent.Audit" ∉ available ∧ "VM.Monitor" ∈ available then
    insert "VM.Monitor" (servicePrivileges.erase "VM.GuestAgent.Audit")
  else servicePrivileges

/-- `_ensure_service_role` -/
def ensureServiceRole (env : Env) : M Bool := do
  let exists' ← call env fun s => some ((s.roles serviceRole).isSome, s)
  let available ← call env fun s => some (s.supported, s)
  let privileges := requiredPrivileges available
  let missing := privileges \ available
  raiseIf (missing ≠ ∅)
    (.bootstrap ("Proxmox does not support required privileges: " ++
      ", ".intercalate (missing.sort fun a b => a ≤ b)))
  if exists' then do
    let actual ← call env fun s => (s.roles serviceRole).map fun actual => (actual, s)
    raiseIf (actual ≠ privileges)
      (.bootstrap s!"Existing {serviceRole} has unexpected privileges; refusing to modify it")
    return false
  else do
    call env fun s => (s.createRole serviceRole privileges).map fun s => ((), s)
    return true

/-- `_create_service_user` -/
def createServiceUser (env : Env) : M Unit := do
  let exists' ← call env fun s => some ((s.users serviceUser).isSome, s)
  raiseIf (exists' = true)
    (.bootstrap s!"{serviceUser} already exists; refusing to take ownership automatically")
  call env fun s => (s.createUser serviceUser "Managed by LabGoblin").map fun s => ((), s)

/-- `_grant_service_acl` -/
def grantServiceAcl (env : Env) : M Unit :=
  call env fun s => some ((), s.grant ⟨"/", serviceUser, serviceRole, true⟩)

/-- `_create_service_token` -/
def createServiceToken (env : Env) : M String := do
  call env fun s => (s.createToken serviceUser tokenIdDefault).map fun s => ((), s)
  let secret ← liftExcept env.secret
  raiseIf (secret = "")
    (.bootstrap "Proxmox created the API token without returning its secret")
  return secret

/-- `_validate_with_token`, and the check of its result. -/
def validateWithToken (env : Env) : M (List Resource) := do
  call env fun s => some ((), s)
  match ← liftExcept env.resources with
  | none => throw (.bootstrap "The dedicated API token failed its permission validation")
  | some resources => return resources

def flush (env : Env) (cluster : ProxmoxCluster) : M Unit := do
  raiseIf (env.flushFails = true) .database
  match (← get).session.addCluster cluster with
  | none => throw .database
  | some db => modify fun w => { w with session := db }

def commit (env : Env) : M Unit := do
  let w ← get
  raiseIf (env.commitFails = true ∨ ¬ w.session.Valid) .database
  set { w with db := w.session }

/-- The arguments of a bootstrap, as they are checked. -/
structure Arguments where
  apiUrl : String
  verifySsl : Bool
  rootUsername : String
  rootPassword : String
  name : String

/-- `str(payload.get(key) or fallback)` -/
def textOr (env : Env) (payload : Dict) (key fallback : String) : String :=
  if (Dict.get payload key).truthy then (Dict.get payload key).str env.repr else fallback

def verifySslOf (payload : Dict) : Except Exc Bool :=
  match Dict.get payload "verify_ssl" (.bool true) with
  | .bool b => .ok b
  | _ => .error (.value "verify_ssl must be a boolean")

/-- The text of a `ValueError` of `canonicalize_proxmox_api_url`. -/
def ofValueError : ValueError → Exc
  | .message text => .value text
  | .invalidLiteral => .value "invalid literal for int() with base 10"
  | .tooManyDigits => .value "Exceeds the limit (4300 digits) for integer string conversion"

/-- `canonicalize_proxmox_api_url(payload["api_url"], verify_ssl=verify_ssl)` -/
def apiUrlOf (env : Env) (payload : Dict) (verifySsl : Bool) : Except Exc String :=
  match payload.lookup "api_url" with
  | none => .error .key
  | some value =>
    let raw := if value.truthy then value.str env.repr else ""
    ((ProxmoxUrl.canonicalizeProxmoxApiUrl env.url env.settings verifySsl raw.toList).map
      String.ofList).mapError ofValueError

/-- `str.strip` -/
def strip (text : String) : String := String.ofList (Text.strip text.toList)

def checkArguments (env : Env) (payload : Dict) : M Arguments := do
  let verifySsl ← liftExcept (verifySslOf payload)
  let apiUrl ← liftExcept (apiUrlOf env payload verifySsl)
  let rootUsername := strip (textOr env payload "root_username" "root@pam")
  raiseIf (rootUsername ≠ "root@pam") (.value "Automatic bootstrap accepts only root@pam")
  let rootPassword := textOr env payload "root_password" ""
  raiseIf (rootPassword = "") (.value "Root password is required for bootstrap")
  raiseIf (rootPassword.length > 4096) (.value "Root password exceeds the accepted length")
  let name := strip (textOr env payload "name" "")
  raiseIf (name = "") (.value "Cluster name is required")
  raiseIf (name.length > 120 ∨ env.isprintable name = false)
    (.value "Cluster name must be 1-120 printable characters")
  return ⟨apiUrl, verifySsl, rootUsername, rootPassword, name⟩

/-- `_login`. The session of root is not told apart any further. -/
def login (env : Env) : M Unit := call env fun s => some ((), s)

/-- An entry of `steps`. -/
structure Step where
  step : String
  created : Option Bool := none
  count : Option ℕ := none

structure Result where
  cluster : ProxmoxCluster
  nodesDiscovered : ℕ
  steps : List Step

/-- The row that is to be stored. -/
def newCluster (env : Env) (arguments : Arguments) (secret : String) (db : Database) :
    ProxmoxCluster where
  id := db.clusters.next
  name := arguments.name
  apiUrl := arguments.apiUrl
  verifySsl := arguments.verifySsl
  authMode := "token"
  rootUsername := arguments.rootUsername
  tokenUser := serviceUser
  tokenId := tokenIdDefault
  encryptedTokenSecret := secret
  tokenCreatedByApp := true
  isActive := !db.clusters.rows.any fun c => c.isActive
  lastValidatedAt := env.now
  lastValidationStatus := "success"
  lastValidationError := none

/-- The part of the `try` block that stores the cluster. -/
def store (env : Env) (arguments : Arguments) (secret : String) (resources : List Resource) :
    M ProxmoxCluster := do
  let encrypted ← liftExcept (env.encrypt secret)
  let cluster := newCluster env arguments encrypted (← get).session
  flush env cluster
  modify fun w => { w with session := w.session.upsertNodes cluster.id resources }
  modify fun w => { w with session := w.session.addDefaults cluster.id }
  commit env
  return cluster

/-- The `try` block. -/
def attempt (env : Env) (arguments : Arguments) : M Result := do
  let created ← ensureServiceRole env
  modify fun w => { w with createdRole := created }
  createServiceUser env
  modify fun w => { w with createdUser := true }
  grantServiceAcl env
  let secret ← createServiceToken env
  let resources ← validateWithToken env
  let cluster ← store env arguments secret resources
  return {
    cluster := cluster
    nodesDiscovered := (resources.filter fun item => item.type = some "node").length
    steps := [{ step := "root_authentication" },
      { step := "service_role", created := some created },
      { step := "service_user", created := some true },
      { step := "service_acl" }, { step := "service_token" },
      { step := "token_validation", count := some resources.length }] }

/-- `_delete_service_user_best_effort` -/
def deleteServiceUser (env : Env) : M Unit :=
  modify fun w => w.answer (if env.userDeleted then w.server.deleteUser serviceUser else w.server)

/-- `_delete_service_role_best_effort` -/
def deleteServiceRole (env : Env) : M Unit :=
  modify fun w => w.answer (if env.roleDeleted then w.server.deleteRole serviceRole else w.server)

/-- The handler. -/
def compensate {α : Type} (env : Env) (e : Exc) : M α := do
  modify fun w => { w with session := w.db }
  if (← get).createdUser then deleteServiceUser env
  if (← get).createdRole then deleteServiceRole env
  throw e

/-- `bootstrap_with_root` -/
def bootstrapWithRoot (env : Env) (payload : Dict) : M Result := do
  let arguments ← checkArguments env payload
  let w ← get
  raiseIf (w.session.clusters.rows.any (fun c => c.name = arguments.name) = true)
    (.bootstrap
      "A cluster with this name already exists; validate it or use manual token setup")
  login env
  modify fun w => { w with createdRole := false, createdUser := false }
  tryCatch (attempt env arguments) (compensate env)

end LabGoblin.ProxmoxBootstrap
