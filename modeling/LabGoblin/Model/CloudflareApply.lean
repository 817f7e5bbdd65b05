import LabGoblin.Computation.Inventory
import LabGoblin.Model.Cloudflare

/-!
# Applying a plan

`apply` posts what is missing, configures the host, publishes the DNS record and writes the state
file. When a step fails it deletes what it created, newest first, unless a `POST` went unanswered.
The log has every request and every step on the host, each with the account that it left.
-/

set_option autoImplicit false

namespace LabGoblin.Cloudflare

/-! ## The host -/

inductive EnvFile where
  | missing
  | undecodable
  | text (contents : Text)

/-- What `apply` finds and changes on the host: the environment file of the application and the
installed tunnel token. -/
structure LocalHost where
  envFile : EnvFile
  tokenFile : Option String

def lineBreak (c : Char) : Bool :=
  c.toNat ∈ [0xa, 0xb, 0xc, 0xd, 0x1c, 0x1d, 0x1e, 0x85, 0x2028, 0x2029]

/-- `str.splitlines`, with the line that is being read in reverse. -/
def splitlines (line : Text) : Text → List Text
  | [] => if line.isEmpty then [] else [line.reverse]
  | '\r' :: '\n' :: rest => line.reverse :: splitlines [] rest
  | c :: rest =>
    if lineBreak c then line.reverse :: splitlines [] rest else splitlines (c :: line) rest

/-- The keys and values of an environment file, comments left out. -/
def assignments (contents : Text) : List (Text × Text) :=
  (splitlines [] contents).filterMap fun line =>
    if '=' ∈ line ∧ (line.dropWhile Text.isspace).head? ≠ some '#' then
      some (line.takeWhile (· ≠ '='), (line.dropWhile (· ≠ '=')).drop 1)
    else none

/-! ## The account -/

inductive Kind where
  | policy
  | app
  | tunnel
  | dns
  deriving DecidableEq

/-- The resource in the list of changes. -/
def Kind.resource : Kind → String
  | policy => "Access policy"
  | app => "Access application"
  | tunnel => "Tunnel"
  | dns => "proxied CNAME"

/-- The resource in an error. -/
def Kind.label : Kind → String
  | policy => "Access policy"
  | app => "Access application"
  | tunnel => "Tunnel"
  | dns => "DNS record"

def Discovery.resource (found : Discovery) : Kind → Option Dict
  | .policy => found.policy
  | .app => found.app
  | .tunnel => found.tunnel
  | .dns => found.dns

/-- The identifiers of the resources that exist. -/
abbrev Account := Interactive.Inventory Kind String

inductive PostAnswer where
  /-- The resource was created, and the answer has this result. -/
  | created (id : String) (result : Json)
  /-- The resource was created, but the answer is too long or not JSON. -/
  | unreadable (id : String) (message : String)
  | refused (message : String)
  /-- No answer came. -/
  | lost (id : Option String)

/-- The resource that a request has created. -/
def PostAnswer.id : PostAnswer → Option String
  | created id _ => some id
  | unreadable id _ => some id
  | refused _ => none
  | lost id => id

def PostAnswer.effect (answer : PostAnswer) (kind : Kind) (account : Account) : Account :=
  match answer.id with
  | some id => account.add kind id
  | none => account

inductive HelperOutcome where
  | missing (path : String)
  | noRunDirectory (reason : String)
  | foreignRunDirectory
  | unwritable
  | exited (code : ℤ)

inductive StateWrite where
  | written
  | insecureDirectory
  | irregularFile
  | failed (replaced : Bool)

/-- What happens to the requests and the steps of one call. -/
structure Environment where
  post : Kind → PostAnswer
  put : Except String Unit
  token : String → Except String Json
  delete : Kind → Except String Unit
  helper : HelperOutcome
  /-- What the helper makes of the environment file. -/
  enabled : EnvFile
  /-- What a helper that fails leaves. -/
  halfEnabled : LocalHost
  disabled : LocalHost → LocalHost
  stateWrite : StateWrite
  now : String

inductive Event where
  | post (kind : Kind) (body : Json) (answer : PostAnswer)
  | put (tunnelId : String) (body : Json)
  | token (tunnelId : String)
  | configure (token audience : String)
  | disable
  | delete (kind : Kind) (id : String)
  | writeState (state : OwnedState)

/-- A request or a step on the host, and the account that it left. -/
structure Moment where
  event : Event
  account : Account

structure World where
  account : Account
  host : LocalHost
  stateFile : Option OwnedState

/-- The world during a call, with the variables of the call. -/
structure Run extends World where
  created : List (Kind × String)
  localEnabled : Bool
  log : List Moment

def Run.start (w : World) : Run := ⟨w, [], false, []⟩

def Run.events (s : Run) : List Event := s.log.map (·.event)

abbrev M := EStateM Failure Run

def raises {α : Type} (result : Except Failure α) : M α :=
  match result with
  | .ok a => pure a
  | .error e => throw e

/-- The answer of a request that is sent again where it fails. -/
def answered {α : Type} (answer : Except String α) : M α :=
  match answer with
  | .ok a => pure a
  | .error message => throw (.api message)

def Run.record (s : Run) (event : Event) (effect : Account → Account) : Run :=
  { s with account := effect s.account, log := s.log ++ [⟨event, effect s.account⟩] }

def record (event : Event) (effect : Account → Account) : M Unit :=
  modify fun s => s.record event effect

section Requests

variable (p : Provisioner) (env : Environment)

def post (kind : Kind) (body : Json) : M Json := do
  record (.post kind body (env.post kind)) ((env.post kind).effect kind)
  match env.post kind with
  | .created _ result => pure result
  | .unreadable _ message => throw (.api message)
  | .refused message => throw (.api message)
  | .lost _ => throw .ambiguousPost

def putConfiguration (tunnelId : String) (body : Json) : M Unit := do
  record (.put tunnelId body) fun account => account
  answered env.put

def getToken (tunnelId : String) : M Json := do
  record (.token tunnelId) fun account => account
  answered (env.token tunnelId)

def delete (kind : Kind) (id : String) : M Unit := do
  record (.delete kind id) fun account =>
    match env.delete kind with
    | .ok _ => account.remove kind id
    | .error _ => account
  answered (env.delete kind)

/-- `_configure_local` -/
def configureLocal (token audience : String) : M Unit := do
  record (.configure token audience) fun account => account
  match env.helper with
  | .missing path => throw (.provision s!"Missing local Cloudflare helper: {path}")
  | .noRunDirectory reason =>
    throw (.provision s!"Unable to prepare protected runtime directory: {reason}")
  | .foreignRunDirectory =>
    throw (.provision "Protected runtime path must be an owned directory")
  | .unwritable => throw .system
  | .exited code =>
    if !Text.isascii token.toList then throw .system
    if code = 0 then modify fun s => { s with host := ⟨env.enabled, some token⟩ }
    else do
      modify fun s => { s with host := env.halfEnabled }
      throw (.provision s!"Local Cloudflare activation failed with exit code {code}")

/-- `_disable_local_best_effort` -/
def disableLocal : M Unit := do
  record .disable fun account => account
  modify fun s => { s with host := env.disabled s.host }

/-- `write_state` -/
def writeState (state : OwnedState) : M Unit := do
  record (.writeState state) fun account => account
  match env.stateWrite with
  | .written => modify fun s => { s with stateFile := some state }
  | .insecureDirectory => throw (.provision
      "Cloudflare state directory must be an owned, non-writable directory")
  | .irregularFile => throw (.provision "Cloudflare ownership state must be a regular file")
  | .failed replaced => do
    if replaced then modify fun s => { s with stateFile := some state }
    throw .system

/-- A `POST`, the check of its answer and `created.append`. -/
def create (kind : Kind) (body : Json) : M Dict := do
  let value ← post env kind body
  let resource ← raises (p.requireResource value kind.label)
  let id ← raises (p.idOf resource)
  modify fun s => { s with created := s.created ++ [(kind, id)] }
  pure resource

/-- The cleanup of one resource, in which a `ProvisionError` counts for nothing. -/
def deleteCreated (kind : Kind) (id : String) : M Unit :=
  tryCatch (delete env kind id) fun e =>
    match e with
    | .provision _ | .api _ | .ambiguousPost => pure ()
    | .key _ | .attribute | .system => throw e

def deleteEach : List (Kind × String) → M Unit
  | [] => pure ()
  | (kind, id) :: rest => do
    deleteCreated env kind id
    deleteEach rest

/-- What `apply` does with a definite failure, before it raises it again. -/
def cleanUp : M Unit := do
  let s ← get
  if s.localEnabled then disableLocal env
  deleteEach env s.created.reverse

end Requests

/-! ## The plan -/

namespace Provisioner

variable (p : Provisioner) (env : Environment)

/-- The settings that the environment file has to have. -/
def localSettings (audience : String) : List (String × String) :=
  [("CLOUDFLARE_TUNNEL_ENABLED", "true"), ("CLOUDFLARE_PUBLIC_HOSTNAME", p.desired.hostname),
    ("CLOUDFLARE_ACCESS_REQUIRED", "true"),
    ("CLOUDFLARE_ACCESS_TEAM_DOMAIN", p.desired.teamDomain),
    ("CLOUDFLARE_ACCESS_AUDIENCE", audience), ("HTTP_BIND_ADDRESS", "127.0.0.1")]

/-- `_local_matches`, from the audience on. -/
def hostMatches (host : LocalHost) (audience : String) : Except Failure Bool :=
  if !idRe audience then .ok false
  else
    match host.envFile, host.tokenFile with
    | .missing, _ => .ok false
    | _, none => .ok false
    | .undecodable, some _ => .error .system
    | .text contents, some _ =>
      let actual := (assignments contents).reverse
      .ok ((p.localSettings audience).all fun (key, value) =>
        actual.lookup key.toList = some value.toList)

/-- `str(app.get("aud", ""))` -/
def audienceOf (app : Dict) : String := p.str (Dict.get app "aud" (.text ""))

/-- `_local_matches` -/
def localMatches (host : LocalHost) (found : Discovery) : Except Failure Bool :=
  match found.app with
  | some app =>
    if app.isEmpty || !present found.tunnel then .ok false
    else p.hostMatches host (p.audienceOf app)
  | none => .ok false

def selectorDetail : String :=
  match p.desired.accessSelectorKind with
  | .group => s!"allow group {p.desired.accessSelectorValue}"
  | .emailDomain => s!"allow email_domain {p.desired.accessSelectorValue}"

def change (found : Discovery) (kind : Kind) (detail : String) : Change :=
  ⟨if present (found.resource kind) then .keep else .create, kind.resource, detail⟩

/-- `changes` -/
def changes (host : LocalHost) (found : Discovery) : Except Failure (List Change) := do
  let d := p.desired
  let resources := [change found .policy p.selectorDetail, change found .app d.hostname,
    change found .tunnel d.tunnelName, change found .dns d.hostname]
  let ingress := if present found.tunnel then
    [⟨.keep, "Tunnel ingress", "http://web:8080 + 404 catch-all"⟩] else []
  let matching ← p.localMatches host found
  pure (resources ++ ingress ++
    [⟨if matching then .keep else .configure, "local host", d.hostname⟩])

/-! ## The call -/

def ensurePolicy (found : Discovery) : M Dict :=
  match found.policy with
  | some policy => pure policy
  | none => create p env .policy (policyBody p.desired)

def ensureApp (found : Discovery) (policy : Dict) : M Dict :=
  match found.app with
  | some app => pure app
  | none => do
    let policyId ← raises (p.idOf policy)
    create p env .app (appBody p.desired policyId)

def ensureTunnel (found : Discovery) : M Dict :=
  match found.tunnel with
  | some tunnel => pure tunnel
  | none => do
    let tunnel ← create p env .tunnel (tunnelBody p.desired)
    let tunnelId ← raises (p.idOf tunnel)
    putConfiguration env tunnelId (tunnelConfiguration p.desired)
    pure tunnel

/-- The token of a tunnel, as the helper takes it. -/
def checkToken (value : Json) : Except Failure String :=
  match value with
  | .text token =>
    if token = "" || token.length > 8192 then
      .error (.api "Cloudflare returned an invalid Tunnel token")
    else .ok token
  | _ => .error (.api "Cloudflare returned an invalid Tunnel token")

/-- The host is configured unless it matches what is there by now. -/
def ensureLocal (found : Discovery) (policy app tunnel : Dict) (audience : String) : M Unit := do
  let s ← get
  let matching ← raises (p.localMatches s.host
    { found with tunnel := some tunnel, policy := some policy, app := some app })
  if !matching then
    let tunnelId ← raises (p.idOf tunnel)
    let value ← getToken env tunnelId
    let token ← raises (checkToken value)
    configureLocal env token audience
    modify fun s => { s with localEnabled := true }

def ensureDns (found : Discovery) (tunnel : Dict) : M Dict :=
  match found.dns with
  | some dns => pure dns
  | none => do
    let tunnelId ← raises (p.idOf tunnel)
    create p env .dns (dnsBody p.desired tunnelId)

/-- The `OwnedState` of the resources. -/
def ownedState (found : Discovery) (policy app tunnel dns : Dict) (audience : String) :
    Except Failure OwnedState := do
  let d := p.desired
  let tunnelId ← p.idOf tunnel
  let appId ← p.idOf app
  let policyId ← p.idOf policy
  let dnsId ← p.idOf dns
  pure ⟨1, "labgoblin", d.accountId, found.zoneId, d.zoneName, d.hostname, d.accessSelectorKind,
    d.accessSelectorValue, d.teamDomain, tunnelId, d.tunnelName, appId, d.accessAppName, audience,
    policyId, d.accessPolicyName, dnsId, env.now⟩

/-- The body of the `try` in `apply`. -/
def attempt (found : Discovery) : M OwnedState := do
  let policy ← p.ensurePolicy env found
  let app ← p.ensureApp env found policy
  let audience ← raises (validateIdentifier (p.audienceOf app) "Cloudflare Access audience")
  let tunnel ← p.ensureTunnel env found
  p.ensureLocal env found policy app tunnel audience
  let dns ← p.ensureDns env found tunnel
  let state ← raises (p.ownedState env found policy app tunnel dns audience)
  writeState env state
  pure state

/-- `apply`, which runs from `Run.start`. -/
def apply (found : Discovery) : M OwnedState :=
  tryCatch (p.attempt env found) fun e => do
    if e ≠ .ambiguousPost then cleanUp env
    throw e

end Provisioner

end LabGoblin.Cloudflare
