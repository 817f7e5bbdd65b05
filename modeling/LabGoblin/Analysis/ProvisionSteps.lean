import LabGoblin.Computation.Ending
import LabGoblin.Model.CloudflareApply

/-!
# The steps of a provisioning call

How each request and each step on the host ends. A `POST` that fails with a definite answer has
created nothing, or has created a resource that its answer does not identify.
-/

set_option autoImplicit false

namespace LabGoblin.Cloudflare

open Raising

variable {p : Provisioner} {env : Environment} {s t : Run}

/-! ## Events -/

/-- The `POST` that an event is. -/
def Event.posts : Event → Option Kind
  | .post kind _ _ => some kind
  | _ => none

def posted (events : List Event) : List Kind := events.filterMap (·.posts)

/-- An event that leaves the set of resources as it is, whatever it is answered. -/
def Event.isQuiet : Event → Bool
  | .post _ _ _ => false
  | .delete _ _ => false
  | _ => true

/-- From `s` to `t` there were these events only, and they left the account as it was. -/
structure Quiet (s t : Run) (events : List Event) : Prop where
  account : t.account = s.account
  created : t.created = s.created
  log : t.log = s.log ++ events.map fun event => ⟨event, s.account⟩

/-- Nothing happening is quiet. -/
theorem Quiet.refl (s : Run) : Quiet s s [] := ⟨rfl, rfl, (List.append_nil _).symm⟩

/-- A quiet part adds its events. -/
theorem Quiet.events {events : List Event} (h : Quiet s t events) :
    t.events = s.events ++ events := by
  have hmap : (events.map fun event => (⟨event, s.account⟩ : Moment)).map (·.event) = events := by
    rw [List.map_map]
    exact List.map_id _
  unfold Run.events
  rw [h.log, List.map_append, hmap]

/-- Two quiet parts are quiet together. -/
theorem Quiet.trans {u : Run} {events events' : List Event} (h : Quiet s t events)
    (h' : Quiet t u events') : Quiet s u (events ++ events') where
  account := h'.account.trans h.account
  created := h'.created.trans h.created
  log := by rw [h'.log, h.log, h.account, List.append_assoc, List.map_append]

/-- Recording an event that changes no resource is quiet. -/
theorem quiet_record (s : Run) (event : Event) :
    Quiet s (s.record event fun account => account) [event] := ⟨rfl, rfl, rfl⟩

/-- A change of the host or of the state file is no event. -/
theorem Quiet.of_eq {u : Run} {events : List Event} (h : Quiet s t events)
    (haccount : u.account = t.account) (hcreated : u.created = t.created) (hlog : u.log = t.log) :
    Quiet s u events :=
  ⟨haccount.trans h.account, hcreated.trans h.created, hlog.trans h.log⟩

/-- The run after a `POST`. -/
def Run.posted (env : Environment) (s : Run) (kind : Kind) (body : Json) : Run :=
  s.record (.post kind body (env.post kind)) ((env.post kind).effect kind)

def Run.registered (s : Run) (kind : Kind) (id : String) : Run :=
  { s with created := s.created ++ [(kind, id)] }

/-- A `POST` is recorded with its answer. -/
@[simp] theorem events_posted (kind : Kind) (body : Json) :
    (s.posted env kind body).events = s.events ++ [.post kind body (env.post kind)] := by
  simp [Run.events, Run.posted, Run.record]

/-- Registering a resource records no event. -/
@[simp] theorem events_registered (kind : Kind) (id : String) :
    (s.registered kind id).events = s.events := rfl

/-- A `POST` leaves the host. -/
@[simp] theorem host_posted (kind : Kind) (body : Json) :
    (s.posted env kind body).host = s.host := rfl

/-- Registering a resource leaves the host. -/
@[simp] theorem host_registered (kind : Kind) (id : String) :
    (s.registered kind id).host = s.host := rfl

/-! ## Values -/

section Values

variable {α : Type} {Q : α → Run → Prop} {E : Failure → Run → Prop}

/-- A pure computation returns or raises and leaves the run. -/
theorem ends_raises {result : Except Failure α} (hok : ∀ a, result = .ok a → Q a s)
    (herr : ∀ e, result = .error e → E e s) : Ends (raises result) s Q E := by
  cases result with
  | ok a => exact hok a rfl
  | error e => exact herr e rfl

/-- An answer is returned, or raised as an error of the API. -/
theorem ends_answered {answer : Except String α} (hok : ∀ a, answer = .ok a → Q a s)
    (herr : ∀ message, answer = .error message → E (.api message) s) :
    Ends (answered answer) s Q E := by
  cases answer with
  | ok a => exact hok a rfl
  | error message => exact herr message rfl

end Values

/-- A field that is true is there. -/
theorem lookup_of_get {resource : Dict} {key : String}
    (h : (Dict.get resource key).truthy = true) :
    ∃ value, resource.lookup key = some value := by
  unfold Dict.get at h
  cases hl : resource.lookup key with
  | some value => exact ⟨value, rfl⟩
  | none =>
    rw [hl] at h
    cases h

/-- The id of a resource is the text of its field. -/
theorem idOf_of_lookup {resource : Dict} {value : Json}
    (h : resource.lookup "id" = some value) : p.idOf resource = .ok (p.str value) := by
  unfold Provisioner.idOf item
  rw [h]
  rfl

/-- A resource with an identifier is not empty. -/
theorem isEmpty_of_idOf {resource : Dict} {id : String} (h : p.idOf resource = .ok id) :
    resource.isEmpty = false := by
  cases resource with
  | nil => cases h
  | cons field fields => rfl

/-- A resource that passes the check is an object with an id. -/
theorem requireResource_object {value : Json} {label : String} {resource : Dict}
    (h : p.requireResource value label = .ok resource) :
    value = .object resource ∧ (Dict.get resource "id").truthy = true := by
  cases value with
  | object fields =>
    unfold Provisioner.requireResource at h
    dsimp only at h
    cases ht : (Dict.get fields "id").truthy with
    | false =>
      rw [ht] at h
      cases h
    | true =>
      rw [ht] at h
      cases hv : p.validateResourceIdentifier (Dict.get fields "id") label with
      | error e =>
        rw [hv] at h
        cases h
      | ok id =>
        rw [hv] at h
        cases h
        exact ⟨rfl, ht⟩
  | null => cases h
  | bool b => cases h
  | int n => cases h
  | float x => cases h
  | text text => cases h
  | list items => cases h

/-- A resource that passes the check has an id. -/
theorem idOf_of_requireResource {value : Json} {label : String} {resource : Dict}
    (h : p.requireResource value label = .ok resource) : ∃ id, p.idOf resource = .ok id := by
  obtain ⟨-, ht⟩ := requireResource_object h
  obtain ⟨value, hl⟩ := lookup_of_get ht
  exact ⟨_, idOf_of_lookup hl⟩

/-! ## Requests -/

/-- The answer of a `POST` that has created a resource identifies it. -/
def Complete (p : Provisioner) (kind : Kind) (answer : PostAnswer) : Prop :=
  ∃ id result resource, answer = .created id result ∧
    p.requireResource result kind.label = .ok resource

/-- Nothing was created, or the answer does not say what. -/
def Unregistered (p : Provisioner) (env : Environment) (kind : Kind) : Prop :=
  (env.post kind).id = none ∨ ¬ Complete p kind (env.post kind)

/-- A creation registers what it posted; when it fails without being ambiguous, nothing identifiable
was created. -/
theorem ends_create {kind : Kind} {body : Json} {Q : Dict → Run → Prop}
    {E : Failure → Run → Prop}
    (hok : ∀ real result resource id, env.post kind = .created real result →
      p.requireResource result kind.label = .ok resource → p.idOf resource = .ok id →
      Q resource ((s.posted env kind body).registered kind id))
    (herr : ∀ e, (e ≠ .ambiguousPost → Unregistered p env kind) →
      E e (s.posted env kind body)) :
    Ends (create p env kind body) s Q E := by
  have hposted : s.record (.post kind body (env.post kind)) ((env.post kind).effect kind) =
      s.posted env kind body := rfl
  unfold create post record
  rw [ends_bind, ends_bind, ends_modify, hposted]
  cases hpost : env.post kind with
  | created real result =>
    rw [ends_pure, ends_bind]
    refine ends_raises (fun resource hr => ?_) fun e he => herr e fun _ => .inr ?_
    · obtain ⟨id, hid⟩ := idOf_of_requireResource hr
      rw [ends_bind]
      refine ends_raises (fun id' hid' => ?_) fun e he => ?_
      · rw [ends_bind, ends_modify, ends_pure]
        exact hok real result resource id' hpost hr hid'
      · rw [hid] at he
        cases he
    · rintro ⟨id, result', resource, hanswer, hr⟩
      rw [hpost] at hanswer
      cases hanswer
      rw [he] at hr
      cases hr
  | unreadable id message =>
    rw [ends_throw]
    refine herr _ fun _ => .inr ?_
    rintro ⟨_, _, _, hanswer, -⟩
    rw [hpost] at hanswer
    cases hanswer
  | refused message =>
    rw [ends_throw]
    refine herr _ fun _ => .inl ?_
    rw [hpost]
    rfl
  | lost id =>
    rw [ends_throw]
    exact herr _ fun he => absurd rfl he

/-- The configuration of a tunnel is recorded, whether it succeeds or fails. -/
theorem ends_putConfiguration {tunnelId : String} {body : Json} {Q : Unit → Run → Prop}
    {E : Failure → Run → Prop}
    (hok : Q () (s.record (.put tunnelId body) fun account => account))
    (herr : ∀ e, E e (s.record (.put tunnelId body) fun account => account)) :
    Ends (putConfiguration env tunnelId body) s Q E := by
  unfold putConfiguration record
  rw [ends_bind, ends_modify]
  exact ends_answered (fun _ _ => hok) fun _ _ => herr _

/-! ## The host -/

/-- Configuring the host is one quiet event, whether it succeeds or fails. -/
theorem ends_configureLocal {token audience : String} {Q : Unit → Run → Prop}
    {E : Failure → Run → Prop}
    (hok : ∀ t, Quiet s t [.configure token audience] → Q () t)
    (herr : ∀ e t, Quiet s t [.configure token audience] → E e t) :
    Ends (configureLocal env token audience) s Q E := by
  have hquiet := quiet_record s (.configure token audience)
  unfold configureLocal record
  rw [ends_bind, ends_modify]
  cases env.helper with
  | missing path => exact herr _ _ hquiet
  | noRunDirectory reason => exact herr _ _ hquiet
  | foreignRunDirectory => exact herr _ _ hquiet
  | unwritable => exact herr _ _ hquiet
  | exited code =>
    dsimp only
    refine ends_ite (fun _ => herr _ _ hquiet) fun _ => ?_
    refine ends_ite (fun _ => ?_) fun _ => ?_
    · rw [ends_modify]
      exact hok _ (hquiet.of_eq rfl rfl rfl)
    · rw [ends_bind, ends_modify, ends_throw]
      exact herr _ _ (hquiet.of_eq rfl rfl rfl)

/-- Disabling the host is one quiet event, and does not fail. -/
theorem ends_disableLocal {Q : Unit → Run → Prop} {E : Failure → Run → Prop}
    (hok : ∀ t, Quiet s t [.disable] → Q () t) : Ends (disableLocal env) s Q E := by
  unfold disableLocal record
  rw [ends_bind, ends_modify, ends_modify]
  exact hok _ ((quiet_record s .disable).of_eq rfl rfl rfl)

/-- Writing the state file is one quiet event, whether it succeeds or fails. -/
theorem ends_writeState {state : OwnedState} {Q : Unit → Run → Prop} {E : Failure → Run → Prop}
    (hok : ∀ t, Quiet s t [.writeState state] → Q () t)
    (herr : ∀ e t, Quiet s t [.writeState state] → E e t) :
    Ends (writeState env state) s Q E := by
  have hquiet := quiet_record s (.writeState state)
  unfold writeState record
  rw [ends_bind, ends_modify]
  cases env.stateWrite with
  | written =>
    rw [ends_modify]
    exact hok _ (hquiet.of_eq rfl rfl rfl)
  | insecureDirectory => exact herr _ _ hquiet
  | irregularFile => exact herr _ _ hquiet
  | failed replaced =>
    dsimp only
    refine ends_ite (fun _ => ?_) fun _ => herr _ _ hquiet
    rw [ends_bind, ends_modify]
    exact herr _ _ (hquiet.of_eq rfl rfl rfl)

/-- The host is configured, with the token of the tunnel, exactly where it does not match. -/
theorem ends_ensureLocal {found : Discovery} {policy app tunnel : Dict} {audience : String}
    {Q : Unit → Run → Prop} {E : Failure → Run → Prop}
    (hkept : p.localMatches s.host { found with
      tunnel := some tunnel, policy := some policy, app := some app } = .ok true → Q () s)
    (hconfigured : ∀ t tunnelId token, p.localMatches s.host { found with
        tunnel := some tunnel, policy := some policy, app := some app } = .ok false →
      p.idOf tunnel = .ok tunnelId → env.token tunnelId = .ok (.text token) →
      Quiet s t [.token tunnelId, .configure token audience] → Q () t)
    (herr : ∀ e t events, (∀ event ∈ events, event.isQuiet = true) → Quiet s t events → E e t) :
    Ends (p.ensureLocal env found policy app tunnel audience) s Q E := by
  have hnone : ∀ e, E e s := fun e => herr e s [] (fun _ h => by cases h) (Quiet.refl s)
  unfold Provisioner.ensureLocal
  rw [ends_bind, ends_get, ends_bind]
  refine ends_raises (fun matching hm => ?_) fun e _ => hnone e
  cases matching with
  | true => exact hkept hm
  | false =>
    rw [Bool.not_false, if_pos rfl, ends_bind]
    refine ends_raises (fun tunnelId hid => ?_) fun e _ => hnone e
    unfold getToken record
    rw [ends_bind, ends_bind, ends_modify]
    have hasked := quiet_record s (.token tunnelId)
    have hone : ∀ event ∈ [Event.token tunnelId], event.isQuiet = true := by
      intro event h
      rw [List.mem_singleton.mp h]
      rfl
    refine ends_answered (fun value hv => ?_) fun message _ => herr _ _ _ hone hasked
    rw [ends_bind]
    refine ends_raises (fun token ht => ?_) fun e _ => herr _ _ _ hone hasked
    have htoken : value = .text token := by
      cases value with
      | text text =>
        unfold Provisioner.checkToken at ht
        dsimp only at ht
        by_cases hbad : (text = "" || decide (text.length > 8192)) = true
        · rw [if_pos hbad] at ht
          cases ht
        · rw [if_neg hbad] at ht
          cases ht
          rfl
      | null => cases ht
      | bool b => cases ht
      | int n => cases ht
      | float x => cases ht
      | list items => cases ht
      | object fields => cases ht
    rw [htoken] at hv
    rw [ends_bind]
    refine ends_configureLocal (fun t hq => ?_) fun e t hq => ?_
    · rw [ends_modify]
      exact hconfigured _ tunnelId token hm hid hv ((hasked.trans hq).of_eq rfl rfl rfl)
    · refine herr _ _ _ ?_ (hasked.trans hq)
      intro event h
      rcases List.mem_cons.mp h with rfl | h
      · rfl
      · rw [List.mem_singleton.mp h]
        rfl

/-- A failure that is not ambiguous is raised again after the cleanup. -/
theorem ends_apply {found : Discovery} {Q : OwnedState → Run → Prop} {E : Failure → Run → Prop}
    (h : Ends (p.attempt env found) s Q fun e t =>
      (e = .ambiguousPost → E e t) ∧
        (e ≠ .ambiguousPost → Ends (cleanUp env) t (fun _ u => E e u) E)) :
    Ends (p.apply env found) s Q E := by
  unfold Provisioner.apply
  rw [ends_tryCatch]
  refine h.mono (fun _ _ hok => hok) fun e t herr => ?_
  refine ends_ite (fun he => ?_) fun he => ?_
  · rw [ends_bind]
    exact herr.2 he
  · exact herr.1 (Decidable.not_not.mp he)

end LabGoblin.Cloudflare
