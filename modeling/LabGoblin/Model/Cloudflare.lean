import LabGoblin.Model.Json
import LabGoblin.Model.Updater

/-!
# Provisioning Cloudflare

`plan` reads what exists and lists the changes, and `apply` makes them: the Access policy, the
Access application, the tunnel, the host and, last, the DNS record. The account is a remote store
that answers each request; an `Environment` says how, during one call of `apply`, and what happens
on the host.
-/

set_option autoImplicit false

namespace LabGoblin.Cloudflare

inductive Failure where
  /-- `ProvisionError` -/
  | provision (message : String)
  | api (message : String)
  | ambiguousPost
  | key (name : String)
  | attribute
  /-- An `OSError` or a `UnicodeError`. -/
  | system
  deriving DecidableEq

/-! ## Data -/

inductive SelectorKind where
  | group
  | emailDomain
  deriving DecidableEq

structure Desired where
  accountId : String
  zoneName : String
  hostname : String
  accessSelectorKind : SelectorKind
  accessSelectorValue : String
  teamDomain : String
  tunnelName : String
  accessAppName : String
  accessPolicyName : String
  sessionDuration : String

structure OwnedState where
  schemaVersion : ℤ
  managedBy : String
  accountId : String
  zoneId : String
  zoneName : String
  hostname : String
  accessSelectorKind : SelectorKind
  accessSelectorValue : String
  teamDomain : String
  tunnelId : String
  tunnelName : String
  accessAppId : String
  accessAppName : String
  accessAudience : String
  accessPolicyId : String
  accessPolicyName : String
  dnsRecordId : String
  updatedAt : String

/-- What exists. `tunnelConfig` is null where there is no tunnel. -/
structure Discovery where
  zoneId : String
  tunnel : Option Dict
  tunnelConfig : Json
  policy : Option Dict
  app : Option Dict
  dns : Option Dict
  state : Option OwnedState

inductive Action where
  | keep
  | create
  | configure
  deriving DecidableEq

structure Change where
  action : Action
  resource : String
  detail : String
  deriving DecidableEq

/-- `Provisioner`, with the functions of Python's library that it calls: `str` of a list or an
object, and `str.lower`. -/
structure Provisioner where
  desired : Desired
  adoptExisting : Bool
  repr : Json → String
  lower : String → String

/-! ## Identifiers -/

/-- A character of `[A-Za-z0-9_-]`. -/
def idChar (c : Char) : Bool := Updater.alphanumeric c || c = '_' || c = '-'

/-- `ID_RE.fullmatch` -/
def idRe (value : String) : Bool :=
  8 ≤ value.length && value.length ≤ 128 && value.toList.all idChar

/-- `_validate_identifier` -/
def validateIdentifier (value label : String) : Except Failure String :=
  if idRe value then .ok value
  else .error (.provision s!"{label} is not a valid Cloudflare identifier")

/-- `resource["key"]` -/
def item (resource : Dict) (key : String) : Except Failure Json :=
  match resource.lookup key with
  | some value => .ok value
  | none => .error (.key key)

/-- `if resource` -/
def present (resource : Option Dict) : Bool := resource.any fun fields => !fields.isEmpty

namespace Provisioner

variable (p : Provisioner)

def str (value : Json) : String := value.str p.repr

/-- `_validate_resource_identifier` -/
def validateResourceIdentifier (value : Json) (label : String) : Except Failure String :=
  let normalized := p.str value
  if 1 ≤ normalized.length && normalized.length ≤ 128 && normalized.toList.all idChar then
    .ok normalized
  else .error (.api s!"Cloudflare returned an invalid {label} ID")

/-- `_require_resource`, which also returns the resource. -/
def requireResource (value : Json) (label : String) : Except Failure Dict :=
  match value with
  | .object resource => do
    if !(Dict.get resource "id").truthy then
      throw (.api s!"Cloudflare returned an invalid {label} resource")
    let _ ← p.validateResourceIdentifier (Dict.get resource "id") label
    pure resource
  | _ => .error (.api s!"Cloudflare returned an invalid {label} resource")

/-- The text of `resource["id"]`. -/
def idOf (resource : Dict) : Except Failure String := do
  return p.str (← item resource "id")

end Provisioner

/-! ## Bodies of requests -/

/-- `_desired_ingress` -/
def desiredIngress (hostname : String) : Json :=
  .list [.object [("hostname", .text hostname), ("service", .text "http://web:8080")],
    .object [("service", .text "http_status:404")]]

def policyInclude (d : Desired) : Json :=
  match d.accessSelectorKind with
  | .group => .list [.object [("group", .object [("id", .text d.accessSelectorValue)])]]
  | .emailDomain =>
    .list [.object [("email_domain", .object [("domain", .text d.accessSelectorValue)])]]

/-- `_policy_body` -/
def policyBody (d : Desired) : Json :=
  .object [("name", .text d.accessPolicyName), ("decision", .text "allow"),
    ("include", policyInclude d)]

def policyLink (d : Desired) (policyId : String) : Json :=
  .object [("id", .text policyId), ("account_id", .text d.accountId), ("precedence", .int 1)]

def destinations (d : Desired) : Json :=
  .list [.object [("type", .text "public"), ("uri", .text d.hostname)]]

/-- `_app_body` -/
def appBody (d : Desired) (policyId : String) : Json :=
  .object [("name", .text d.accessAppName), ("domain", .text d.hostname),
    ("destinations", destinations d), ("type", .text "self_hosted"),
    ("session_duration", .text d.sessionDuration), ("app_launcher_visible", .bool true),
    ("allow_authenticate_via_warp", .bool false), ("http_only_cookie_attribute", .bool true),
    ("same_site_cookie_attribute", .text "lax"), ("policies", .list [policyLink d policyId])]

def tunnelBody (d : Desired) : Json :=
  .object [("name", .text d.tunnelName), ("config_src", .text "cloudflare")]

def tunnelConfiguration (d : Desired) : Json :=
  .object [("config", .object [("ingress", desiredIngress d.hostname)])]

def dnsBody (d : Desired) (tunnelId : String) : Json :=
  .object [("type", .text "CNAME"), ("name", .text d.hostname),
    ("content", .text s!"{tunnelId}.cfargotunnel.com"), ("proxied", .bool true), ("ttl", .int 1),
    ("comment", .text "Managed by LabGoblin Cloudflare provisioning")]

/-! ## Discovery -/

/-- The `GET` requests of `discover`. -/
inductive Query where
  | zones
  | tunnels
  | tunnelConfig (tunnelId : String)
  | policies
  | apps
  | app (appId : String)
  | records (zoneId : String)

/-- `_result_list` -/
def resultList (result : Json) (description : String) : Except Failure (List Dict) :=
  let refuse : Except Failure (List Dict) :=
    .error (.api s!"Cloudflare returned an invalid {description} list")
  match result with
  | .list items => items.foldr (fun value rest =>
      match value with
      | .object fields => rest.map (fields :: ·)
      | _ => refuse) (.ok [])
  | _ => refuse

/-- `_one` -/
def one (items : List Dict) (description : String) : Except Failure (Option Dict) :=
  match items with
  | [] => .ok none
  | [resource] => .ok (some resource)
  | _ => .error (.provision s!"Multiple {description} resources matched; refusing to guess")

/-- `value.get(key, default)`, for a value that may not be an object. -/
def field (value : Json) (key : String) (fallback : Json := .null) : Except Failure Json :=
  match value with
  | .object fields => .ok (Dict.get fields key fallback)
  | _ => .error .attribute

namespace Provisioner

variable (p : Provisioner)

/-- The check of one resource against the state: it is owned, or existing ones are adopted. -/
def verifyOwned (resource : Option Dict) (owned : Option String) (label : String) :
    Except Failure Unit :=
  match resource with
  | none => .ok ()
  | some fields =>
    if owned = some (p.str (Dict.get fields "id" (.text ""))) || p.adoptExisting then .ok ()
    else .error (.provision (s!"An unmanaged {label} already matches this deployment; " ++
      "inspect it and use --adopt-existing only if it is dedicated to LabGoblin"))

/-- `_policy_matches` -/
def policyMatches (policy : Dict) : Bool :=
  (Dict.get policy "decision").same (.text "allow") &&
    (Dict.get policy "include").same (policyInclude p.desired) &&
    !(Dict.get policy "exclude").truthy && !(Dict.get policy "require").truthy

/-- The links of an application to policies, as far as they are compared. -/
def policyLinks (app : Dict) : List Json :=
  match Dict.get app "policies" with
  | .list links => links.filterMap fun link =>
    match link with
    | .object fields => some (.object [("id", Dict.get fields "id"),
        ("account_id", Dict.get fields "account_id"), ("precedence", Dict.get fields "precedence")])
    | _ => none
  | _ => []

/-- Whether an application is the one of this deployment, linked to the policy and no other. -/
def appMatches (app : Dict) (policyId : String) : Bool :=
  let d := p.desired
  (Dict.get app "name").same (.text d.accessAppName) &&
    (Dict.get app "domain").same (.text d.hostname) &&
    (Dict.get app "type").same (.text "self_hosted") &&
    (Dict.get app "destinations").same (destinations d) &&
    (Dict.get app "session_duration").same (.text d.sessionDuration) &&
    (Dict.get app "allow_authenticate_via_warp").isBool false &&
    (Dict.get app "http_only_cookie_attribute").isBool true &&
    (Dict.get app "same_site_cookie_attribute").same (.text "lax") &&
    (Json.list (policyLinks app)).same (.list [policyLink d policyId])

def verifyTunnel (found : Discovery) : Except Failure Unit := do
  if present found.tunnel then
    let whole := if found.tunnelConfig.truthy then found.tunnelConfig else .object []
    let config ← field whole "config" (.object [])
    let actual ← field config "ingress"
    if !actual.same (desiredIngress p.desired.hostname) then
      throw (.provision "Existing Tunnel has unexpected ingress rules; refusing to overwrite it")

def verifyPolicy (found : Discovery) : Except Failure Unit := do
  if let some policy := found.policy then
    if !policy.isEmpty && !p.policyMatches policy then
      throw (.provision "Existing Access policy is broader than the requested policy")

def verifyApp (found : Discovery) : Except Failure Unit := do
  if let some app := found.app then
    if !app.isEmpty then
      let policyId ← match found.policy with
        | some policy => if policy.isEmpty then pure "" else p.idOf policy
        | none => pure ""
      if !p.appMatches app policyId then
        throw (.provision ("Existing Access application does not exactly match the " ++
          "dedicated LabGoblin boundary"))

def verifyDns (found : Discovery) : Except Failure Unit := do
  if let some dns := found.dns then
    if !dns.isEmpty then
      let expected ← match found.tunnel with
        | some tunnel =>
          if tunnel.isEmpty then pure .null
          else (p.idOf tunnel).map fun tunnelId => .text s!"{tunnelId}.cfargotunnel.com"
        | none => pure .null
      if !(Dict.get dns "type").same (.text "CNAME") || !(Dict.get dns "content").same expected ||
          !(Dict.get dns "proxied").isBool true then
        throw (.provision "Existing DNS record conflicts with the requested Tunnel")

/-- `_verify_ownership` -/
def verifyOwnership (found : Discovery) : Except Failure Unit := do
  p.verifyOwned found.tunnel (found.state.map (·.tunnelId)) "Tunnel"
  p.verifyOwned found.policy (found.state.map (·.accessPolicyId)) "Access policy"
  p.verifyOwned found.app (found.state.map (·.accessAppId)) "Access application"
  p.verifyOwned found.dns (found.state.map (·.dnsRecordId)) "DNS record"
  p.verifyTunnel found
  p.verifyPolicy found
  p.verifyApp found
  p.verifyDns found

/-- `str(resource.get(key, "")).lower() == value` -/
def called (key value : String) (resource : Dict) : Bool :=
  p.lower (p.str (Dict.get resource key (.text ""))) = value

/-- The state file belongs to this deployment. -/
def checkState (state : Option OwnedState) : Except Failure Unit :=
  match state with
  | none => .ok ()
  | some state =>
    if state.accountId ≠ p.desired.accountId || state.zoneName ≠ p.desired.zoneName ||
        state.hostname ≠ p.desired.hostname then
      .error (.provision "Ownership state belongs to a different Cloudflare deployment")
    else .ok ()

/-- `discover`, from what `load_state` makes of the state file and the answers of the account. -/
def discover (state : Except Failure (Option OwnedState))
    (request : Query → Except Failure Json) : Except Failure Discovery := do
  let d := p.desired
  let state ← state
  p.checkState state
  let zones ← resultList (← request .zones) "zone"
  let zone ← one (zones.filter (p.called "name" d.zoneName)) "active zone"
  let unknownZone := Failure.provision s!"Active Cloudflare zone {d.zoneName} was not found"
  let some zone := zone | throw unknownZone
  if !(Dict.get zone "id").truthy then throw unknownZone
  let zoneId ← p.validateResourceIdentifier (Dict.get zone "id") "zone"
  let tunnels ← resultList (← request .tunnels) "Tunnel"
  let tunnel ← one (tunnels.filter fun t => (Dict.get t "name").same (.text d.tunnelName)) "Tunnel"
  let tunnelConfig ← match tunnel with
    | some tunnel => do
      let tunnelId ← p.validateResourceIdentifier (Dict.get tunnel "id") "Tunnel"
      request (.tunnelConfig tunnelId)
    | none => pure .null
  let policies ← resultList (← request .policies) "Access policy"
  let policy ← one (policies.filter fun policy =>
    (Dict.get policy "name").same (.text d.accessPolicyName)) "Access policy"
  let apps ← resultList (← request .apps) "Access application"
  let app ← one (apps.filter (p.called "domain" d.hostname)) "Access application"
  let app ← match app with
    | some app => do
      let appId ← p.validateResourceIdentifier (Dict.get app "id") "Access application"
      match ← request (.app appId) with
      | .object app => pure (some app)
      | _ => throw (.api "Cloudflare returned an invalid Access application")
    | none => pure none
  let records ← resultList (← request (.records zoneId)) "DNS record"
  let dns ← one (records.filter (p.called "name" d.hostname)) "DNS record"
  let discovery : Discovery := ⟨zoneId, tunnel, tunnelConfig, policy, app, dns, state⟩
  p.verifyOwnership discovery
  pure discovery

end Provisioner

end LabGoblin.Cloudflare
