import LabGoblin.Analysis.ProvisionSteps

/-!
# When a provisioning call does what its plan says

The plan configures the host unless the application and the tunnel exist and the host matches
them. The call decides again once it has created what was missing, so a new tunnel or a new
application counts as one that exists, and the host is left alone if its files happen to match.
-/

set_option autoImplicit false

namespace LabGoblin.Cloudflare

open Raising

variable {p : Provisioner} {env : Environment} {found : Discovery} {w : World} {s t : Run}

/-- The resource that an event changes or deletes. -/
def Event.changes : Event → Option (Kind × String)
  | .put tunnelId _ => some (.tunnel, tunnelId)
  | .delete kind id => some (kind, id)
  | _ => none

/-- The resource with this identifier was created by one of these events. -/
def CreatedIn (p : Provisioner) (events : List Event) (kind : Kind) (id : String) : Prop :=
  ∃ body real resource, .post kind body (.created real (.object resource)) ∈ events ∧
    p.idOf resource = .ok id

/-- If a tunnel was created, then the helper installed its token before any DNS record was
created. -/
def InstallsFirst (p : Provisioner) (env : Environment) (events : List Event) : Prop :=
  .tunnel ∈ posted events → ∃ before after tunnelId token audience,
    events = before ++ .configure token audience :: after ∧ .dns ∉ posted before ∧
      CreatedIn p before .tunnel tunnelId ∧ env.token tunnelId = .ok (.text token)

/-- The call created what the plan creates, in the same order, changed nothing else, and
configured the host if and only if the plan does. -/
def FollowsPlan (p : Provisioner) (env : Environment) (found : Discovery) (w : World) (t : Run) :
    Prop :=
  ∃ plan, p.changes w.host found = .ok plan ∧
    (posted t.events).map Kind.resource =
      (plan.filter fun change => change.action = .create).map (·.resource) ∧
    (∀ event ∈ t.events, ∀ kind id, event.changes = some (kind, id) →
      CreatedIn p t.events kind id) ∧
    ((∃ token audience, .configure token audience ∈ t.events) ↔
      ∃ change ∈ plan, change.resource = "local host" ∧ change.action = .configure) ∧
    InstallsFirst p env t.events

/-- The audience of the application that the call goes by: the one that was found, or the one
that it creates. -/
def usedAudience (p : Provisioner) (env : Environment) (found : Discovery) : String :=
  match found.app, env.post .app with
  | some app, _ => p.audienceOf app
  | none, .created _ (.object app) => p.audienceOf app
  | none, _ => ""

/-- The application and the tunnel existed, or the host does not match the audience that the call
goes by. -/
def DecidesAlike (p : Provisioner) (env : Environment) (found : Discovery) (host : LocalHost) :
    Prop :=
  (present found.app = true ∧ present found.tunnel = true) ∨
    p.hostMatches host (usedAudience p env found) ≠ .ok true

/-! ## The events of a call that succeeds -/

/-- The resource is the one that was found, or it was posted. -/
def Ensured (env : Environment) (found : Discovery) (kind : Kind) (resource : Dict)
    (events : List Event) : Prop :=
  (found.resource kind = some resource ∧ events = []) ∨
    (found.resource kind = none ∧ ∃ body real, env.post kind = .created real (.object resource) ∧
      events = [.post kind body (env.post kind)])

/-- A tunnel that was posted was also configured. -/
def EnsuredTunnel (p : Provisioner) (env : Environment) (found : Discovery) (tunnel : Dict)
    (events : List Event) : Prop :=
  (found.tunnel = some tunnel ∧ events = []) ∨
    (found.tunnel = none ∧ ∃ body real tunnelId configuration,
      env.post .tunnel = .created real (.object tunnel) ∧ p.idOf tunnel = .ok tunnelId ∧
        events = [.post .tunnel body (env.post .tunnel), .put tunnelId configuration])

/-- The host matched the audience, or it was configured. -/
def EnsuredLocal (p : Provisioner) (env : Environment) (host : LocalHost) (tunnel : Dict)
    (audience : String) (events : List Event) : Prop :=
  (p.hostMatches host audience = .ok true ∧ events = []) ∨
    (p.hostMatches host audience = .ok false ∧ ∃ tunnelId token, p.idOf tunnel = .ok tunnelId ∧
      env.token tunnelId = .ok (.text token) ∧
        events = [.token tunnelId, .configure token audience])

section Success

/-- The creation of a missing resource posts it and leaves the host alone. -/
theorem ends_create_ok {kind : Kind} {body : Json} {Q : Dict → Run → Prop}
    (hmissing : found.resource kind = none)
    (hok : ∀ resource t events, Ensured env found kind resource events →
      (∃ id, p.idOf resource = .ok id) → t.events = s.events ++ events → t.host = s.host →
      Q resource t) :
    Ends (create p env kind body) s Q fun _ _ => True := by
  refine ends_create (fun real result resource id hpost hr hid => ?_) fun _ _ => trivial
  obtain ⟨rfl, -⟩ := requireResource_object hr
  refine hok resource _ [.post kind body (env.post kind)] ?_ ⟨id, hid⟩ ?_ ?_
  · exact .inr ⟨hmissing, body, real, hpost, rfl⟩
  · rw [events_registered, events_posted]
  · rw [host_registered, host_posted]

/-- After `_ensure_policy` the policy is the one that was found or was posted. -/
theorem ends_ensurePolicy_ok {Q : Dict → Run → Prop}
    (hok : ∀ policy t events, Ensured env found .policy policy events →
      t.events = s.events ++ events → t.host = s.host → Q policy t) :
    Ends (p.ensurePolicy env found) s Q fun _ _ => True := by
  unfold Provisioner.ensurePolicy
  cases hf : found.policy with
  | some policy => exact hok policy s [] (.inl ⟨hf, rfl⟩) (List.append_nil _).symm rfl
  | none => exact ends_create_ok hf fun policy t events he _ => hok policy t events he

/-- After `_ensure_app` the application is the one that was found or was posted. -/
theorem ends_ensureApp_ok {policy : Dict} {Q : Dict → Run → Prop}
    (hok : ∀ app t events, Ensured env found .app app events →
      t.events = s.events ++ events → t.host = s.host → Q app t) :
    Ends (p.ensureApp env found policy) s Q fun _ _ => True := by
  unfold Provisioner.ensureApp
  cases hf : found.app with
  | some app => exact hok app s [] (.inl ⟨hf, rfl⟩) (List.append_nil _).symm rfl
  | none =>
    dsimp only
    rw [ends_bind]
    refine ends_raises (fun policyId _ => ?_) fun _ _ => trivial
    exact ends_create_ok hf fun app t events he _ => hok app t events he

/-- After `_ensure_tunnel` the tunnel is the one that was found, or was posted and configured. -/
theorem ends_ensureTunnel_ok {Q : Dict → Run → Prop}
    (hok : ∀ tunnel t events, EnsuredTunnel p env found tunnel events →
      t.events = s.events ++ events → t.host = s.host → Q tunnel t) :
    Ends (p.ensureTunnel env found) s Q fun _ _ => True := by
  unfold Provisioner.ensureTunnel
  cases hf : found.tunnel with
  | some tunnel => exact hok tunnel s [] (.inl ⟨hf, rfl⟩) (List.append_nil _).symm rfl
  | none =>
    dsimp only
    rw [ends_bind]
    refine ends_create_ok hf fun tunnel t events he _ hevents hhost => ?_
    rcases he with ⟨hsome, -⟩ | ⟨-, body, real, hpost, rfl⟩
    · exact absurd (hf.symm.trans hsome) (by simp)
    rw [ends_bind]
    refine ends_raises (fun tunnelId hid => ?_) fun _ _ => trivial
    rw [ends_bind]
    refine ends_putConfiguration ?_ fun _ => trivial
    rw [ends_pure]
    refine hok tunnel _ _ (.inr ⟨hf, body, real, tunnelId, tunnelConfiguration p.desired,
      hpost, hid, rfl⟩) ?_ hhost
    rw [(quiet_record t _).events, hevents, List.append_assoc]
    rfl

/-- After `_ensure_dns` the DNS record is the one that was found or was posted. -/
theorem ends_ensureDns_ok {tunnel : Dict} {Q : Dict → Run → Prop}
    (hok : ∀ dns t events, Ensured env found .dns dns events →
      t.events = s.events ++ events → Q dns t) :
    Ends (p.ensureDns env found tunnel) s Q fun _ _ => True := by
  unfold Provisioner.ensureDns
  cases hf : found.dns with
  | some dns => exact hok dns s [] (.inl ⟨hf, rfl⟩) (List.append_nil _).symm
  | none =>
    dsimp only
    rw [ends_bind]
    refine ends_raises (fun tunnelId _ => ?_) fun _ _ => trivial
    exact ends_create_ok hf fun dns t events he _ hevents _ => hok dns t events he hevents

/-- With the tunnel and the application at hand, the host matches when it matches the audience of
the application. -/
theorem localMatches_some (found : Discovery) (host : LocalHost) (policy : Dict)
    {app tunnel : Dict} (happ : app.isEmpty = false) (htunnel : tunnel.isEmpty = false) :
    p.localMatches host
      { found with tunnel := some tunnel, policy := some policy, app := some app } =
      p.hostMatches host (p.audienceOf app) := by
  have hnot : ¬ (app.isEmpty || !present (some tunnel)) = true := by
    simp [present, happ, htunnel]
  exact if_neg hnot

/-- After `_ensure_local` the host matched, or it was configured. -/
theorem ends_ensureLocal_ok {policy app tunnel : Dict} {Q : Unit → Run → Prop}
    (happ : app.isEmpty = false)
    (hok : ∀ t events, EnsuredLocal p env s.host tunnel (p.audienceOf app) events →
      t.events = s.events ++ events → Q () t) :
    Ends (p.ensureLocal env found policy app tunnel (p.audienceOf app)) s Q fun _ _ => True := by
  refine ends_ensureLocal (fun hkept => ?_) (fun t tunnelId token hm hid htoken hq => ?_)
    fun _ _ _ _ _ => trivial
  · refine hok s [] (.inl ⟨?_, rfl⟩) (List.append_nil _).symm
    cases htunnel : tunnel.isEmpty with
    | false => rw [← localMatches_some found s.host policy happ htunnel, hkept]
    | true =>
      have hnone : p.localMatches s.host { found with
          tunnel := some tunnel, policy := some policy, app := some app } = .ok false :=
        if_pos (by simp [present, htunnel])
      rw [hnone] at hkept
      cases hkept
  · have hhost : _ = p.hostMatches s.host (p.audienceOf app) :=
      localMatches_some found s.host policy happ (isEmpty_of_idOf hid)
    exact hok t _ (.inr ⟨hhost.symm.trans hm, tunnelId, token, hid, htoken, rfl⟩) hq.events

end Success

/-- The resources that a call ends up with, and the events of each of its parts. -/
structure Parts where
  policy : Dict
  app : Dict
  tunnel : Dict
  dns : Dict
  ofPolicy : List Event
  ofApp : List Event
  ofTunnel : List Event
  ofLocal : List Event
  ofDns : List Event
  state : OwnedState

def Parts.events (x : Parts) : List Event :=
  x.ofPolicy ++ (x.ofApp ++ (x.ofTunnel ++ (x.ofLocal ++ (x.ofDns ++ [.writeState x.state]))))

structure Parts.Applied (x : Parts) (p : Provisioner) (env : Environment) (found : Discovery)
    (host : LocalHost) : Prop where
  policy : Ensured env found .policy x.policy x.ofPolicy
  app : Ensured env found .app x.app x.ofApp
  tunnel : EnsuredTunnel p env found x.tunnel x.ofTunnel
  onHost : EnsuredLocal p env host x.tunnel (p.audienceOf x.app) x.ofLocal
  dns : Ensured env found .dns x.dns x.ofDns
  policy_some : x.policy.isEmpty = false
  app_some : x.app.isEmpty = false
  tunnel_some : x.tunnel.isEmpty = false
  dns_some : x.dns.isEmpty = false

/-- A sequence that succeeds has succeeded in both halves. -/
theorem bind_eq_ok {α β : Type} {x : Except Failure α} {f : α → Except Failure β} {b : β}
    (h : x >>= f = .ok b) : ∃ a, x = .ok a ∧ f a = .ok b := by
  cases x with
  | error e => cases h
  | ok a => exact ⟨a, rfl, h⟩

/-- The state that is saved has all four resources. -/
theorem isEmpty_of_ownedState {policy app tunnel dns : Dict} {audience : String}
    {state : OwnedState}
    (h : p.ownedState env found policy app tunnel dns audience = .ok state) :
    tunnel.isEmpty = false ∧ app.isEmpty = false ∧ policy.isEmpty = false ∧
      dns.isEmpty = false := by
  obtain ⟨tunnelId, htunnel, h⟩ := bind_eq_ok h
  obtain ⟨appId, happ, h⟩ := bind_eq_ok h
  obtain ⟨policyId, hpolicy, h⟩ := bind_eq_ok h
  obtain ⟨dnsId, hdns, -⟩ := bind_eq_ok h
  exact ⟨isEmpty_of_idOf htunnel, isEmpty_of_idOf happ, isEmpty_of_idOf hpolicy,
    isEmpty_of_idOf hdns⟩

/-- An application whose audience is valid is there. -/
theorem isEmpty_of_audience {app : Dict} {label audience : String}
    (h : validateIdentifier (p.audienceOf app) label = .ok audience) :
    app.isEmpty = false ∧ audience = p.audienceOf app := by
  cases app with
  | nil => cases h
  | cons field fields =>
    unfold validateIdentifier at h
    by_cases hid : idRe (p.audienceOf (field :: fields)) = true
    · rw [if_pos hid] at h
      cases h
      exact ⟨rfl, rfl⟩
    · rw [if_neg hid] at h
      cases h

/-- A call that succeeds consists of its parts. -/
theorem ends_attempt_ok : Ends (p.attempt env found) (Run.start w)
    (fun _ t => ∃ x : Parts, x.Applied p env found w.host ∧ t.events = x.events)
    fun _ _ => True := by
  unfold Provisioner.attempt
  rw [ends_bind]
  refine ends_ensurePolicy_ok fun policy s₁ ofPolicy hpolicy hevents₁ hhost₁ => ?_
  rw [ends_bind]
  refine ends_ensureApp_ok fun app s₂ ofApp happ hevents₂ hhost₂ => ?_
  rw [ends_bind]
  refine ends_raises (fun audience haudience => ?_) fun _ _ => trivial
  obtain ⟨happSome, rfl⟩ := isEmpty_of_audience haudience
  rw [ends_bind]
  refine ends_ensureTunnel_ok fun tunnel s₃ ofTunnel htunnel hevents₃ hhost₃ => ?_
  have hhost : s₃.host = w.host := hhost₃.trans (hhost₂.trans hhost₁)
  rw [ends_bind]
  refine ends_ensureLocal_ok happSome fun s₄ ofLocal hlocal hevents₄ => ?_
  rw [ends_bind]
  refine ends_ensureDns_ok fun dns s₅ ofDns hdns hevents₅ => ?_
  rw [ends_bind]
  refine ends_raises (fun state hstate => ?_) fun _ _ => trivial
  obtain ⟨htunnelSome, -, hpolicySome, hdnsSome⟩ := isEmpty_of_ownedState hstate
  rw [ends_bind]
  refine ends_writeState (fun t hq => ?_) fun _ _ _ => trivial
  rw [ends_pure]
  rw [hhost] at hlocal
  refine ⟨⟨policy, app, tunnel, dns, ofPolicy, ofApp, ofTunnel, ofLocal, ofDns, state⟩,
    ⟨hpolicy, happ, htunnel, hlocal, hdns, hpolicySome, happSome, htunnelSome, hdnsSome⟩, ?_⟩
  have hstart : (Run.start w).events = [] := rfl
  rw [hq.events, hevents₅, hevents₄, hevents₃, hevents₂, hevents₁, hstart, List.nil_append]
  simp [Parts.events]

/-! ## The plan -/

/-- What two lists of events posted is what the first one posted and then the second one. -/
@[simp] theorem posted_append (events events' : List Event) :
    posted (events ++ events') = posted events ++ posted events' := List.filterMap_append

/-- A resource that is there was found, and then nothing was posted, or it was posted. -/
theorem Ensured.present {kind : Kind} {resource : Dict} {events : List Event}
    (h : Ensured env found kind resource events) (hsome : resource.isEmpty = false) :
    (present (found.resource kind) = true ∧ events = []) ∨
      (present (found.resource kind) = false ∧ ∃ body real,
        env.post kind = .created real (.object resource) ∧
          events = [.post kind body (env.post kind)]) := by
  rcases h with ⟨hf, rfl⟩ | ⟨hf, h⟩
  · refine .inl ⟨?_, rfl⟩
    rw [hf]
    simp [Cloudflare.present, hsome]
  · refine .inr ⟨?_, h⟩
    rw [hf]
    rfl

/-- A resource is posted exactly when it was not found. -/
theorem Ensured.posted {kind : Kind} {resource : Dict} {events : List Event}
    (h : Ensured env found kind resource events) (hsome : resource.isEmpty = false) :
    posted events = if Cloudflare.present (found.resource kind) then [] else [kind] := by
  rcases h.present hsome with ⟨hp, rfl⟩ | ⟨hp, body, real, -, rfl⟩
  · rw [hp]
    rfl
  · rw [hp]
    rfl

/-- The events of a resource are posts. -/
theorem Ensured.mem {kind : Kind} {resource : Dict} {events : List Event} {event : Event}
    (h : Ensured env found kind resource events) (hm : event ∈ events) :
    ∃ body answer, event = .post kind body answer := by
  rcases h with ⟨-, rfl⟩ | ⟨-, body, real, -, rfl⟩
  · cases hm
  · exact ⟨body, _, List.mem_singleton.mp hm⟩

/-- The events of the tunnel are its post and its configuration. -/
theorem EnsuredTunnel.mem {tunnel : Dict} {events : List Event} {event : Event}
    (h : EnsuredTunnel p env found tunnel events) (hm : event ∈ events) :
    (∃ body answer, event = .post .tunnel body answer) ∨
      ∃ tunnelId configuration, event = .put tunnelId configuration := by
  rcases h with ⟨-, rfl⟩ | ⟨-, body, real, tunnelId, configuration, -, -, rfl⟩
  · cases hm
  · rcases List.mem_cons.mp hm with he | he
    · exact .inl ⟨body, _, he⟩
    · exact .inr ⟨tunnelId, configuration, List.mem_singleton.mp he⟩

/-- The tunnel is posted exactly when it was not found. -/
theorem EnsuredTunnel.posted {tunnel : Dict} {events : List Event}
    (h : EnsuredTunnel p env found tunnel events) (hsome : tunnel.isEmpty = false) :
    posted events = if Cloudflare.present found.tunnel then [] else [.tunnel] := by
  rcases h with ⟨hf, rfl⟩ | ⟨hf, body, real, tunnelId, configuration, -, -, rfl⟩
  · rw [hf]
    simp [Cloudflare.present, hsome, Cloudflare.posted]
  · rw [hf]
    rfl

/-- Configuring the host posts nothing. -/
theorem EnsuredLocal.posted {host : LocalHost} {tunnel : Dict} {audience : String}
    {events : List Event} (h : EnsuredLocal p env host tunnel audience events) :
    posted events = [] := by
  rcases h with ⟨-, rfl⟩ | ⟨-, tunnelId, token, -, -, rfl⟩
  · rfl
  · rfl

/-- The changes of the four resources. -/
def resourceChanges (p : Provisioner) (found : Discovery) : List Change :=
  [Provisioner.change found .policy p.selectorDetail,
    Provisioner.change found .app p.desired.hostname,
    Provisioner.change found .tunnel p.desired.tunnelName,
    Provisioner.change found .dns p.desired.hostname]

def ingressChanges (found : Discovery) : List Change :=
  if present found.tunnel then [⟨.keep, "Tunnel ingress", "http://web:8080 + 404 catch-all"⟩]
  else []

/-- The plan, where the host matches what exists or not. -/
def planFor (p : Provisioner) (found : Discovery) (matching : Bool) : List Change :=
  resourceChanges p found ++ ingressChanges found ++
    [⟨if matching then .keep else .configure, "local host", p.desired.hostname⟩]

/-- The change of a resource does not configure the host. -/
theorem change_action (kind : Kind) (detail : String) :
    (Provisioner.change found kind detail).action ≠ .configure := by
  unfold Provisioner.change
  cases present (found.resource kind) <;> simp

/-- No change of the four resources configures the host. -/
theorem resourceChanges_action : ∀ change ∈ resourceChanges p found,
    change.action ≠ .configure := by
  intro change hmem
  simp only [resourceChanges, List.mem_cons, List.not_mem_nil, or_false] at hmem
  rcases hmem with rfl | rfl | rfl | rfl <;> exact change_action _ _

/-- No change of the ingress configures the host. -/
theorem ingressChanges_action : ∀ change ∈ ingressChanges found,
    change.action ≠ .configure := by
  unfold ingressChanges
  cases present found.tunnel <;> simp

/-- The plan configures the host unless it matches. -/
theorem configure_mem_planFor {matching : Bool} :
    (∃ change ∈ planFor p found matching,
      change.resource = "local host" ∧ change.action = .configure) ↔ matching = false := by
  constructor
  · rintro ⟨change, hmem, -, haction⟩
    rcases List.mem_append.mp hmem with hmem | hlast
    · rcases List.mem_append.mp hmem with hr | hi
      · exact absurd haction (resourceChanges_action change hr)
      · exact absurd haction (ingressChanges_action change hi)
    · rw [List.mem_singleton.mp hlast] at haction
      cases matching with
      | false => rfl
      | true => cases haction
  · rintro rfl
    exact ⟨_, List.mem_append_right _ (List.mem_singleton_self _), rfl, rfl⟩

/-- The plan is determined by what was found and by whether the host matches. -/
theorem changes_eq {host : LocalHost} {matching : Bool}
    (h : p.localMatches host found = .ok matching) :
    p.changes host found = .ok (planFor p found matching) := by
  unfold Provisioner.changes
  rw [h]
  rfl

namespace Parts.Applied

variable {x : Parts} {host : LocalHost}

/-- A call posts what was not found: the policy, the application, the tunnel and the DNS record, in
this order. -/
theorem posted_events (h : x.Applied p env found host) :
    posted x.events = (if present found.policy then [] else [Kind.policy]) ++
      ((if present found.app then [] else [.app]) ++
        ((if present found.tunnel then [] else [.tunnel]) ++
          (if present found.dns then [] else [.dns]))) := by
  have hpolicy : posted x.ofPolicy = if present found.policy then [] else [.policy] :=
    h.policy.posted h.policy_some
  have happ : posted x.ofApp = if present found.app then [] else [.app] :=
    h.app.posted h.app_some
  have htunnel : posted x.ofTunnel = if present found.tunnel then [] else [.tunnel] :=
    h.tunnel.posted h.tunnel_some
  have hdns : posted x.ofDns = if present found.dns then [] else [.dns] :=
    h.dns.posted h.dns_some
  have hstate : posted [.writeState x.state] = [] := rfl
  unfold Parts.events
  simp only [posted_append, hpolicy, happ, htunnel, h.onHost.posted, hdns, hstate,
    List.nil_append, List.append_nil]

/-- The posted resources are those that the plan creates. -/
theorem creates (h : x.Applied p env found host) (matching : Bool) :
    (posted x.events).map Kind.resource =
      ((planFor p found matching).filter fun change => change.action = .create).map
        (·.resource) := by
  rw [h.posted_events]
  unfold planFor resourceChanges ingressChanges Provisioner.change Discovery.resource
  cases present found.policy <;> cases present found.app <;> cases present found.tunnel <;>
    cases present found.dns <;> cases matching <;> simp

/-- An application that was found is the one the call ends up with. -/
theorem app_of_present (h : x.Applied p env found host) (hp : present found.app = true) :
    found.app = some x.app := by
  rcases h.app with ⟨hf, -⟩ | ⟨hf, -⟩
  · exact hf
  · have hf : found.app = none := hf
    rw [hf] at hp
    cases hp

/-- The audience that the call goes by is that of the application it ends up with. -/
theorem usedAudience_eq (h : x.Applied p env found host) :
    usedAudience p env found = p.audienceOf x.app := by
  unfold usedAudience
  rcases h.app with ⟨hf, -⟩ | ⟨hf, body, real, hpost, -⟩
  · have hf : found.app = some x.app := hf
    rw [hf]
  · have hf : found.app = none := hf
    rw [hf, hpost]

/-- The comparison with the host has a result. -/
theorem hostMatches_ok (h : x.Applied p env found host) :
    ∃ matching, p.hostMatches host (p.audienceOf x.app) = .ok matching := by
  rcases h.onHost with ⟨hm, -⟩ | ⟨hm, -⟩
  · exact ⟨true, hm⟩
  · exact ⟨false, hm⟩

/-- What the plan makes of the host: nothing matches before the application and the tunnel
exist. -/
theorem localMatches_eq (h : x.Applied p env found host) :
    p.localMatches host found =
      if present found.app = true ∧ present found.tunnel = true then
        p.hostMatches host (p.audienceOf x.app)
      else .ok false := by
  unfold Provisioner.localMatches
  by_cases happ : present found.app = true
  · have hsome : present (some x.app) = true := by
      simp [present, h.app_some]
    rw [h.app_of_present happ, hsome]
    dsimp only
    rw [h.app_some, Bool.false_or]
    by_cases htunnel : present found.tunnel = true
    · simp [htunnel]
    · simp [Bool.of_not_eq_true htunnel]
  · rw [if_neg fun hboth => happ hboth.1]
    cases hf : found.app with
    | none => rfl
    | some app =>
      rw [hf] at happ
      have hempty : app.isEmpty = true := by
        simpa [present] using happ
      dsimp only
      rw [hempty, Bool.true_or, if_pos rfl]

/-- Every event of a call that succeeds. -/
theorem mem_events (h : x.Applied p env found host) {event : Event} (hm : event ∈ x.events) :
    (∃ kind body answer, event = .post kind body answer) ∨
      (∃ tunnelId configuration, event = .put tunnelId configuration ∧ event ∈ x.ofTunnel) ∨
      event ∈ x.ofLocal ∨ event = .writeState x.state := by
  unfold Parts.events at hm
  simp only [List.mem_append, List.mem_singleton] at hm
  rcases hm with hm | hm | hm | hm | hm | hm
  · exact .inl ⟨_, h.policy.mem hm⟩
  · exact .inl ⟨_, h.app.mem hm⟩
  · rcases h.tunnel.mem hm with hpost | ⟨tunnelId, configuration, he⟩
    · exact .inl ⟨_, hpost⟩
    · exact .inr (.inl ⟨tunnelId, configuration, he, hm⟩)
  · exact .inr (.inr (.inl hm))
  · exact .inl ⟨_, h.dns.mem hm⟩
  · exact .inr (.inr (.inr hm))

/-- The host is configured exactly when it does not match the audience that the call goes by. -/
theorem configures_iff (h : x.Applied p env found host) :
    (∃ token audience, .configure token audience ∈ x.events) ↔
      p.hostMatches host (p.audienceOf x.app) = .ok false := by
  constructor
  · rintro ⟨token, audience, hmem⟩
    rcases h.mem_events hmem with ⟨_, _, _, he⟩ | ⟨_, _, he, -⟩ | hlocal | he
    · cases he
    · cases he
    · rcases h.onHost with ⟨-, he⟩ | ⟨hm, -⟩
      · rw [he] at hlocal
        cases hlocal
      · exact hm
    · cases he
  · intro hm
    rcases h.onHost with ⟨hm', -⟩ | ⟨-, tunnelId, token, -, -, he⟩
    · rw [hm'] at hm
      cases hm
    · refine ⟨token, p.audienceOf x.app, ?_⟩
      unfold Parts.events
      rw [he]
      simp

/-- What a call that succeeds changes is what it created. -/
theorem createdIn (h : x.Applied p env found host) {event : Event} (hm : event ∈ x.events)
    {kind : Kind} {id : String} (hc : event.changes = some (kind, id)) :
    CreatedIn p x.events kind id := by
  rcases h.mem_events hm with ⟨_, _, _, rfl⟩ | ⟨_, configuration', rfl, htunnel⟩ |
    hlocal | rfl
  · cases hc
  · cases hc
    rcases h.tunnel with ⟨-, he⟩ | ⟨-, body, real, tunnelId, configuration, hpost, hid, he⟩
    · rw [he] at htunnel
      cases htunnel
    · rw [he] at htunnel
      have hput : id = tunnelId ∧ configuration' = configuration := by
        simpa using htunnel
      rw [hput.1]
      refine ⟨body, real, x.tunnel, ?_, hid⟩
      unfold Parts.events
      rw [he, hpost]
      simp
  · rcases h.onHost with ⟨-, he⟩ | ⟨-, _, _, -, -, he⟩
    · rw [he] at hlocal
      cases hlocal
    · rw [he] at hlocal
      rcases List.mem_cons.mp hlocal with rfl | hlocal
      · cases hc
      · rw [List.mem_singleton.mp hlocal] at hc
        cases hc
  · cases hc

/-- A host that is configured is configured before the DNS record is posted. -/
theorem installsFirst (h : x.Applied p env found host)
    (hm : p.hostMatches host (p.audienceOf x.app) = .ok false) :
    InstallsFirst p env x.events := by
  intro hposted
  rcases h.onHost with ⟨hm', -⟩ | ⟨-, tunnelId, token, hid, htoken, he⟩
  · rw [hm'] at hm
    cases hm
  have hpolicy : posted x.ofPolicy = if present found.policy then [] else [.policy] :=
    h.policy.posted h.policy_some
  have happ : posted x.ofApp = if present found.app then [] else [.app] :=
    h.app.posted h.app_some
  have htunnel : posted x.ofTunnel = if present found.tunnel then [] else [.tunnel] :=
    h.tunnel.posted h.tunnel_some
  rcases h.tunnel with ⟨hf, -⟩ | ⟨-, body, real, tunnelId', configuration, hpost, hid', he'⟩
  · -- a tunnel that was found is not posted
    have hpresent : present found.tunnel = true := by
      rw [hf]
      simp [present, h.tunnel_some]
    rw [h.posted_events, hpresent] at hposted
    cases present found.policy <;> cases present found.app <;> cases present found.dns <;>
      simp at hposted
  · refine ⟨x.ofPolicy ++ (x.ofApp ++ (x.ofTunnel ++ [.token tunnelId])),
      x.ofDns ++ [.writeState x.state], tunnelId, token, p.audienceOf x.app, ?_, ?_, ?_, htoken⟩
    · unfold Parts.events
      rw [he]
      simp
    · have hasked : posted [.token tunnelId] = [] := rfl
      rw [posted_append, posted_append, posted_append, hpolicy, happ, htunnel, hasked]
      cases present found.policy <;> cases present found.app <;> cases present found.tunnel <;>
        simp
    · refine ⟨body, real, x.tunnel, ?_, hid⟩
      rw [he', hpost]
      simp

end Parts.Applied

/-- A call that succeeds does what its plan says if and only if the application and the tunnel
existed, or the host does not match the audience of the application that the call goes by. -/
theorem apply_followsPlan {state : OwnedState}
    (hrun : p.apply env found (Run.start w) = .ok state t) :
    FollowsPlan p env found w t ↔ DecidesAlike p env found w.host := by
  have hends : Ends (p.apply env found) (Run.start w)
      (fun _ t => ∃ x : Parts, x.Applied p env found w.host ∧ t.events = x.events)
      fun _ _ => True := by
    refine ends_apply (ends_attempt_ok.mono (fun _ _ h => h) fun e s _ => ?_)
    exact ⟨fun _ => trivial, fun _ => ends_true⟩
  obtain ⟨x, h, hevents⟩ := hends.of_ok hrun
  obtain ⟨matching, hmatching⟩ := h.hostMatches_ok
  have hconfigures := h.configures_iff
  rw [hmatching] at hconfigures
  unfold FollowsPlan DecidesAlike
  rw [h.usedAudience_eq, hevents, hmatching]
  by_cases hboth : present found.app = true ∧ present found.tunnel = true
  · -- nothing that the decision rests on has changed
    have hplan : p.changes w.host found = .ok (planFor p found matching) := by
      refine changes_eq ?_
      rw [h.localMatches_eq, if_pos hboth, hmatching]
    refine ⟨fun _ => .inl hboth, fun _ => ⟨_, hplan, h.creates matching,
      fun event hm kind id hc => h.createdIn hm hc, ?_, ?_⟩⟩
    · rw [hconfigures, configure_mem_planFor]
      simp
    · intro hposted
      rw [h.posted_events, hboth.1, hboth.2] at hposted
      cases present found.policy <;> cases present found.dns <;> simp at hposted
  · -- the plan configures the host
    have hplan : p.changes w.host found = .ok (planFor p found false) := by
      refine changes_eq ?_
      rw [h.localMatches_eq, if_neg hboth]
    have hlisted : ∃ change ∈ planFor p found false,
        change.resource = "local host" ∧ change.action = .configure :=
      configure_mem_planFor.mpr rfl
    cases matching with
    | false =>
      refine ⟨fun _ => .inr (by simp), fun _ => ⟨_, hplan, h.creates false,
        fun event hm kind id hc => h.createdIn hm hc, ?_, h.installsFirst hmatching⟩⟩
      exact ⟨fun _ => hlisted, fun _ => hconfigures.mpr rfl⟩
    | true =>
      refine ⟨?_, ?_⟩
      · rintro ⟨plan, hp, -, -, hconfigured, -⟩
        rw [hplan] at hp
        cases hp
        have htrue := hconfigures.mp (hconfigured.mpr hlisted)
        cases htrue
      · rintro (h' | h')
        · exact absurd h' hboth
        · exact absurd rfl h'

namespace Fixture

def provisioner : Provisioner where
  desired := ⟨"account_12345678", "example.edu", "lab.example.edu", .emailDomain,
    "students.example.edu", "school.cloudflareaccess.com", "labgoblin-lab-example-edu",
    "LabGoblin", "allow students", "12h"⟩
  adoptExisting := false
  repr _ := "[]"
  lower text := text

def policy : Dict :=
  [("id", .text "policy-id"), ("name", .text "allow students"), ("decision", .text "allow"),
    ("include", policyInclude provisioner.desired)]

def app : Dict :=
  [("id", .text "app-id"), ("aud", .text "audience_12345678"), ("name", .text "LabGoblin"),
    ("domain", .text "lab.example.edu"), ("type", .text "self_hosted"),
    ("destinations", destinations provisioner.desired), ("session_duration", .text "12h"),
    ("allow_authenticate_via_warp", .bool false), ("http_only_cookie_attribute", .bool true),
    ("same_site_cookie_attribute", .text "lax"),
    ("policies", .list [policyLink provisioner.desired "policy-id"])]

def owned : OwnedState :=
  ⟨1, "labgoblin", "account_12345678", "zone-id", "example.edu", "lab.example.edu", .emailDomain,
    "students.example.edu", "school.cloudflareaccess.com", "old-tunnel",
    "labgoblin-lab-example-edu", "app-id", "LabGoblin", "audience_12345678", "policy-id",
    "allow students", "old-dns", "2026-09-12T00:00:00+00:00"⟩

/-- The tunnel and the DNS record of the deployment were deleted at Cloudflare. -/
def tunnelDeleted : Query → Except Failure Json
  | .zones => .ok (.list [.object [("id", .text "zone-id"), ("name", .text "example.edu")]])
  | .policies => .ok (.list [.object policy])
  | .apps => .ok (.list [.object app])
  | .app _ => .ok (.object app)
  | .tunnels | .tunnelConfig _ | .records _ => .ok (.list [])

def settingsFile : Text :=
  ["CLOUDFLARE_TUNNEL_ENABLED=true", "CLOUDFLARE_PUBLIC_HOSTNAME=lab.example.edu",
    "CLOUDFLARE_ACCESS_REQUIRED=true", "CLOUDFLARE_ACCESS_TEAM_DOMAIN=school.cloudflareaccess.com",
    "CLOUDFLARE_ACCESS_AUDIENCE=audience_12345678", "HTTP_BIND_ADDRESS=127.0.0.1"].flatMap
    fun line => line.toList ++ ['\n']

/-- The host still has the settings and the token of the deployment. -/
def deployed : World where
  account kind := match kind with
    | .policy => ["policy-id"]
    | .app => ["app-id"]
    | .tunnel | .dns => []
  host := ⟨.text settingsFile, some "old-token"⟩
  stateFile := some owned

/-- Every request and every step on the host succeeds. -/
def allSucceed : Environment where
  post kind := match kind with
    | .policy => .created "new-policy" (.object [("id", .text "new-policy")])
    | .app => .created "new-app"
        (.object [("id", .text "new-app"), ("aud", .text "audience_87654321")])
    | .tunnel => .created "new-tunnel" (.object [("id", .text "new-tunnel")])
    | .dns => .created "new-dns" (.object [("id", .text "new-dns")])
  put := .ok ()
  token _ := .ok (.text "new-token")
  delete _ := .ok ()
  helper := .exited 0
  enabled := .text settingsFile
  halfEnabled := deployed.host
  disabled host := host
  stateWrite := .written
  now := "2026-10-01T00:00:00+00:00"

def isConfigure : Event → Bool
  | .configure _ _ => true
  | _ => false

/-- The plan for what was found configures the host, and the run does not. -/
def planUnmet (found : Discovery) : Bool :=
  match provisioner.apply allSucceed found (Run.start deployed),
    provisioner.changes deployed.host found with
  | .ok _ t, .ok plan => !t.events.any isConfigure &&
      plan.any fun change => change.resource = "local host" ∧ change.action = .configure
  | _, _ => false

set_option maxRecDepth 100000 in
/-- The new tunnel is published while the host keeps the token of the old one. -/
theorem oldToken_not_followsPlan :
    ∃ found, provisioner.discover (.ok (some owned)) tunnelDeleted = .ok found ∧
      ∃ state t, provisioner.apply allSucceed found (Run.start deployed) = .ok state t ∧
        ¬ FollowsPlan provisioner allSucceed found deployed t := by
  have hplay : (provisioner.discover (.ok (some owned)) tunnelDeleted).toOption.any planUnmet =
      true := by decide +kernel
  cases hfound : provisioner.discover (.ok (some owned)) tunnelDeleted with
  | error e =>
    rw [hfound] at hplay
    cases hplay
  | ok found =>
    rw [hfound] at hplay
    change planUnmet found = true at hplay
    unfold planUnmet at hplay
    cases hrun : provisioner.apply allSucceed found (Run.start deployed) with
    | error e t =>
      rw [hrun] at hplay
      cases hplay
    | ok state t =>
      refine ⟨found, rfl, state, t, hrun, ?_⟩
      rintro ⟨plan, hplan, -, -, hconfigured, -⟩
      rw [hrun, hplan] at hplay
      simp only [Bool.and_eq_true, Bool.not_eq_true', List.any_eq_false, List.any_eq_true,
        decide_eq_true_eq] at hplay
      obtain ⟨token, audience, hmem⟩ := hconfigured.mpr hplay.2
      exact hplay.1 _ hmem rfl

def nothing : Discovery := ⟨"zone-id", none, .null, none, none, none, none⟩

def empty : World := ⟨fun _ => [], ⟨.missing, none⟩, none⟩

/-- From an empty account the fixture's call succeeds and follows its plan. -/
theorem apply_followsPlan_empty : ∃ state t,
    provisioner.apply allSucceed nothing (Run.start empty) = .ok state t ∧
      FollowsPlan provisioner allSucceed nothing empty t := by
  have hplay : (match provisioner.apply allSucceed nothing (Run.start empty) with
      | .error _ _ => false
      | .ok _ _ => true) = true := by
    decide +kernel
  cases hrun : provisioner.apply allSucceed nothing (Run.start empty) with
  | error e t =>
    rw [hrun] at hplay
    cases hplay
  | ok state t =>
    refine ⟨state, t, rfl, (apply_followsPlan hrun).mpr (.inr ?_)⟩
    unfold Provisioner.hostMatches empty
    cases idRe (usedAudience provisioner allSucceed nothing) <;> simp

end Fixture

end LabGoblin.Cloudflare
