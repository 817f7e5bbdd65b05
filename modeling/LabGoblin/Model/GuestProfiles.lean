import LabGoblin.Model.Access

/-!
# Guest profiles and template credentials

The connection profile of a VM (`save_remote_profile` of `api/routers/console.py`), the guest
credentials of its template (the endpoints of `api/routers/templates.py` and
`services/template_credentials.py`), and what `connect` of `services/guacamole_console.py` keeps
of them: the revisions at the launch, which `profile_watch` compares at every poll. A stored
secret is represented by what it decrypts to, and an empty one by `none`.
-/

set_option autoImplicit false

namespace LabGoblin.GuestProfiles

/-- What `decode_credentials` accepts. -/
structure GuestCredentials where
  username : String
  password : String
  domain : String
  username_ne : username ≠ ""
  password_ne : password ≠ ""

instance : DecidableEq GuestCredentials := fun a b =>
  decidable_of_iff (a.username = b.username ∧ a.password = b.password ∧ a.domain = b.domain)
    (GuestCredentials.mk.injEq ..).to_iff.symm

/-- `VMRemoteProfile`, with its own credentials when it does not use those of the template. -/
structure VMRemoteProfile where
  protocol : String
  address : String
  port : ℕ
  macAddress : String
  serverIdentity : String
  own : Option GuestCredentials
  enabled : Bool
  revision : ℕ
  deriving DecidableEq

/-- `TemplateGuestCredential` -/
structure TemplateGuestCredential where
  guest : GuestCredentials
  autoConnect : Bool
  studentVisible : Bool
  revision : ℕ
  deriving DecidableEq

/-- What is stored about one VM: its profile, whether its template is enabled and of its
organization, and the credentials of the template. -/
structure Stored where
  profile : Option VMRemoteProfile
  templateAvailable : Bool
  credential : Option TemplateGuestCredential

namespace Stored

variable (s : Stored)

/-- `template_for_vm` -/
def templateForVm : Except Exc TemplateGuestCredential :=
  if s.templateAvailable then
    match s.credential with
    | some credential => .ok credential
    | none => .error (.http 409 "No guest credentials are configured for this template.")
  else .error (.http 409 "This VM's template is unavailable.")

/-- `connection_credentials` -/
def connectionCredentials (profile : VMRemoteProfile) : Except Exc GuestCredentials :=
  match profile.own with
  | some guest => .ok guest
  | none => do
    let credential ← s.templateForVm
    if !credential.autoConnect then
      throw (.http 403 "Automatic connections using template credentials are disabled.")
    return credential.guest

/-- `template_connection_revision` -/
def templateConnectionRevision (profile : VMRemoteProfile) : Except Exc (Option (ℕ × Bool)) :=
  match profile.own with
  | some _ => .ok none
  | none => do
    let credential ← s.templateForVm
    return some (credential.revision, credential.autoConnect)

end Stored

/-! ## The edits -/

/-- `RemoteProfileRequest`, with the protocol that the guest's system calls for. The checks of
the address, the identity and the adapter have been passed. -/
structure RemoteProfileRequest where
  protocol : String
  address : String
  port : ℕ
  macAddress : String
  serverIdentity : String
  username : String := ""
  password : String := ""
  useTemplateCredentials : Bool := false
  domain : String := ""
  enabled : Bool := true

/-- The profile's own credentials in a request. -/
def RemoteProfileRequest.own (request : RemoteProfileRequest) : Option GuestCredentials :=
  if h : request.username ≠ "" ∧ request.password ≠ "" then
    some ⟨request.username, request.password, request.domain, h.1, h.2⟩
  else none

inductive Edit where
  | saveProfile (request : RemoteProfileRequest)
  | saveCredentials (guest : GuestCredentials) (autoConnect studentVisible : Bool)
  | changePolicy (autoConnect studentVisible : Bool)
  | removeCredentials

namespace Stored

variable (s : Stored)

/-- The profile as a request saves it. -/
def savedProfile (request : RemoteProfileRequest) (own : Option GuestCredentials) :
    VMRemoteProfile where
  protocol := request.protocol
  address := request.address
  port := request.port
  macAddress := request.macAddress
  serverIdentity := request.serverIdentity
  own := own
  enabled := request.enabled
  revision := (s.profile.map VMRemoteProfile.revision).getD 0 + 1

/-- `save_remote_profile` -/
def saveProfile (request : RemoteProfileRequest) : Except Exc Stored :=
  if request.useTemplateCredentials then do
    let credential ← s.templateForVm
    if !credential.autoConnect then
      throw (.http 409 "Enable automatic connections in template credential settings first.")
    return { s with profile := some (s.savedProfile request none) }
  else
    match request.own with
    | none => .error (.http 422 "A VM-specific guest username and password are required.")
    | some own => .ok { s with profile := some (s.savedProfile request (some own)) }

/-- `save_guest_credentials` -/
def saveCredentials (guest : GuestCredentials) (autoConnect studentVisible : Bool) : Stored :=
  let revision := (s.credential.map TemplateGuestCredential.revision).getD 0
  { s with credential := some ⟨guest, autoConnect, studentVisible, revision + 1⟩ }

/-- `change_guest_credential_policy` -/
def changePolicy (autoConnect studentVisible : Bool) : Except Exc Stored :=
  match s.credential with
  | none => .error (.http 409 "Save guest credentials first")
  | some credential =>
    let changed :=
      { credential with autoConnect, studentVisible, revision := credential.revision + 1 }
    .ok { s with credential := some changed }

/-- What an edit leaves; one that is refused leaves everything as it is. -/
def apply (s : Stored) : Edit → Stored
  | .saveProfile request => (s.saveProfile request).toOption.getD s
  | .saveCredentials guest autoConnect studentVisible =>
    s.saveCredentials guest autoConnect studentVisible
  | .changePolicy autoConnect studentVisible =>
    (s.changePolicy autoConnect studentVisible).toOption.getD s
  | .removeCredentials => { s with credential := none }

end Stored

/-! ## The tunnel -/

/-- What `connect` keeps of the launch. -/
structure Launch where
  guest : GuestCredentials
  revision : ℕ
  credentialRevision : Option (ℕ × Bool)

/-- `profile_parameters` and the revisions that `connect` takes after it, for the protocol that
the guest's system calls for. The other checks of a launch only refuse. -/
def launch (s : Stored) (expected : String) : Except Exc Launch :=
  match s.profile with
  | none => .error (.http 409 "An administrator must configure remote access for this VM.")
  | some profile => do
    if !profile.enabled ∨ profile.protocol ≠ expected then
      throw (.http 409 "An administrator must configure remote access for this VM.")
    let guest ← s.connectionCredentials profile
    let credentialRevision ← s.templateConnectionRevision profile
    return ⟨guest, profile.revision, credentialRevision⟩

/-- Whether a poll of `profile_watch` ends the tunnel: it closes the socket, or it raises. -/
def poll (l : Launch) (s : Stored) : Bool :=
  match s.profile with
  | none => true
  | some current =>
    !current.enabled || current.revision ≠ l.revision ||
      match s.templateConnectionRevision current with
      | .error _ => true
      | .ok revision => revision ≠ l.credentialRevision

/-- What is in force for connections: the profile without its revision, the credentials that a
connection would use, and the policy of the template when the profile depends on it. -/
structure InForce where
  protocol : String
  address : String
  port : ℕ
  serverIdentity : String
  enabled : Bool
  guest : Option GuestCredentials
  autoConnect : Option Bool
  deriving DecidableEq

def Stored.inForce (s : Stored) : Option InForce :=
  s.profile.map fun profile =>
    { protocol := profile.protocol
      address := profile.address
      port := profile.port
      serverIdentity := profile.serverIdentity
      enabled := profile.enabled
      guest := (s.connectionCredentials profile).toOption
      autoConnect :=
        match profile.own with
        | some _ => none
        | none => s.credential.map TemplateGuestCredential.autoConnect }

end LabGoblin.GuestProfiles
