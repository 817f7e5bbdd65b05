import LabGoblin.Analysis.PlannedChanges
import Mathlib.Data.List.Nodup

/-!
# When a failed provisioning call leaves the account as it was

A call keeps the list of what it created and deletes it newest first, so the DNS record goes before
the application and the policy that protect it. A resource enters the list only once its answer was
checked: one whose answer is malformed exists in the account and is never deleted.
-/

set_option autoImplicit false

namespace LabGoblin.Cloudflare

open Interactive Raising

variable {p : Provisioner} {env : Environment} {found : Discovery} {w : World} {s t : Run}

/-- What the account promises: a new resource has a new identifier, and where an answer has one it
is that of the resource. -/
structure Documented (p : Provisioner) (env : Environment) (account : Account) : Prop where
  fresh : ∀ kind id, (env.post kind).id = some id → id ∉ account kind
  identified : ∀ kind id result resource, env.post kind = .created id result →
    p.requireResource result kind.label = .ok resource → p.idOf resource = .ok id

/-- The resources that were found are in the account. -/
def Existing (p : Provisioner) (found : Discovery) (account : Account) : Prop :=
  ∀ kind resource, found.resource kind = some resource →
    ∃ id, p.idOf resource = .ok id ∧ id ∈ account kind

/-- The resource of a kind that was found exists, or, where none was found, a new one. -/
def InUse (p : Provisioner) (found : Discovery) (before account : Account) (kind : Kind) : Prop :=
  match found.resource kind with
  | some resource => ∃ id, p.idOf resource = .ok id ∧ id ∈ account kind
  | none => ∃ id ∈ account kind, id ∉ before kind

/-- A new DNS record exists only together with the Access policy and the Access application. -/
def Protected (p : Provisioner) (found : Discovery) (before account : Account) : Prop :=
  (∃ id ∈ account .dns, id ∉ before .dns) →
    InUse p found before account .policy ∧ InUse p found before account .app

/-- The account is as before, nothing that existed was deleted, and at no moment was a new DNS
record unprotected. -/
structure RolledBack (p : Provisioner) (found : Discovery) (w : World) (t : Run) : Prop where
  account : t.account = w.account
  kept : ∀ kind id, .delete kind id ∈ t.events → id ∉ w.account kind
  guarded : ∀ m ∈ t.log, Protected p found w.account m.account

/-- Every `POST` that created a resource was answered with a resource that is well formed. -/
def AllIdentified (p : Provisioner) (events : List Event) : Prop :=
  ∀ kind body answer, .post kind body answer ∈ events → answer.id ≠ none → Complete p kind answer

/-! ## The forward phase -/

/-- No kind comes twice, and the DNS record comes last, after the policy and the application. -/
def Ordered (kinds : List Kind) : Prop :=
  kinds.Nodup ∧ (.dns ∈ kinds → .policy ∈ kinds ∧ .app ∈ kinds) ∧ .dns ∉ kinds.dropLast

instance (kinds : List Kind) : Decidable (Ordered kinds) := inferInstanceAs (Decidable (_ ∧ _))

/-- The resources of these kinds exist, and the list of what was created is exact. -/
structure Listed (found : Discovery) (w : World) (kinds : List Kind) (s : Run) : Prop where
  account : s.account = w.account.addEach s.created
  kinds : s.created.map (·.1) = kinds.filter fun kind => (found.resource kind).isNone
  fresh : ∀ e ∈ s.created, e.2 ∉ w.account e.1

structure Forward (p : Provisioner) (found : Discovery) (w : World) (kinds : List Kind) (s : Run) :
    Prop extends Listed found w kinds s where
  identified : AllIdentified p s.events
  undeleted : ∀ kind id, .delete kind id ∉ s.events
  guarded : ∀ m ∈ s.log, Protected p found w.account m.account

/-- A resource exists that is not in the list, and its answer did not identify it. -/
def Orphaned (p : Provisioner) (w : World) (s : Run) : Prop :=
  ∃ kind id body answer, id ∈ s.account kind ∧ id ∉ w.account kind ∧ (kind, id) ∉ s.created ∧
    .post kind body answer ∈ s.events ∧ answer.id ≠ none ∧ ¬ Complete p kind answer

/-- How the body of the `try` fails. -/
def Failed (p : Provisioner) (found : Discovery) (w : World) (s : Run) : Prop :=
  (∃ kinds, Ordered kinds ∧ Forward p found w kinds s) ∨ Orphaned p w s

namespace Listed

variable {kinds : List Kind}

/-- What was created is of one of the kinds that exist. -/
theorem mem_kinds (h : Listed found w kinds s) {kind : Kind} {id : String}
    (hmem : (kind, id) ∈ s.created) : kind ∈ kinds := by
  have hmap : kind ∈ s.created.map (·.1) := List.mem_map_of_mem hmem
  rw [h.kinds] at hmap
  exact (List.mem_filter.mp hmap).1

/-- A kind that is done has its resource. -/
theorem inUse (h : Listed found w kinds s) (hfound : Existing p found w.account) {kind : Kind}
    (hmem : kind ∈ kinds) : InUse p found w.account s.account kind := by
  unfold InUse
  cases hr : found.resource kind with
  | some resource =>
    obtain ⟨id, hid, hin⟩ := hfound kind resource hr
    refine ⟨id, hid, ?_⟩
    rw [h.account]
    exact Inventory.mem_addEach.mpr (.inl hin)
  | none =>
    have hmap : kind ∈ s.created.map (·.1) := by
      rw [h.kinds]
      exact List.mem_filter.mpr ⟨hmem, by rw [hr]; rfl⟩
    obtain ⟨⟨kind', id⟩, he, rfl⟩ := List.mem_map.mp hmap
    refine ⟨id, ?_, h.fresh _ he⟩
    rw [h.account]
    exact Inventory.mem_addEach.mpr (.inr he)

/-- The DNS record is the last to be created. -/
theorem protected_account (h : Listed found w kinds s) (hfound : Existing p found w.account)
    (hlast : .dns ∈ kinds → .policy ∈ kinds ∧ .app ∈ kinds) :
    Protected p found w.account s.account := by
  rintro ⟨id, hmem, hnew⟩
  rw [h.account] at hmem
  rcases Inventory.mem_addEach.mp hmem with hold | hcreated
  · exact absurd hold hnew
  · obtain ⟨hpolicy, happ⟩ := hlast (h.mem_kinds hcreated)
    exact ⟨h.inUse hfound hpolicy, h.inUse hfound happ⟩

end Listed

namespace Forward

variable {kinds : List Kind}

/-- A call starts with nothing created. -/
theorem start (w : World) : Forward p found w [] (Run.start w) where
  account := rfl
  kinds := rfl
  fresh _ h := by cases h
  identified _ _ _ h := by cases h
  undeleted _ _ h := by cases h
  guarded _ h := by cases h

/-- Events that leave the account as it is. -/
theorem of_log {moments : List Moment} (h : Forward p found w kinds s)
    (hfound : Existing p found w.account)
    (hlast : Ordered kinds) (haccount : t.account = s.account)
    (hcreated : t.created = s.created) (hlog : t.log = s.log ++ moments)
    (hmoments : ∀ m ∈ moments, m.account = s.account ∧ ∀ kind id, m.event ≠ .delete kind id)
    (hidentified : AllIdentified p (moments.map (·.event))) : Forward p found w kinds t where
  account := by rw [haccount, hcreated, h.account]
  kinds := by rw [hcreated, h.kinds]
  fresh := by
    rw [hcreated]
    exact h.fresh
  identified kind body answer hmem := by
    unfold Run.events at hmem
    rw [hlog, List.map_append] at hmem
    rcases List.mem_append.mp hmem with hm | hm
    · exact h.identified kind body answer hm
    · exact hidentified kind body answer hm
  undeleted kind id hmem := by
    unfold Run.events at hmem
    rw [hlog, List.map_append] at hmem
    rcases List.mem_append.mp hmem with hm | hm
    · exact h.undeleted kind id hm
    · obtain ⟨m, hin, hevent⟩ := List.mem_map.mp hm
      exact (hmoments m hin).2 kind id hevent
  guarded m hmem := by
    rw [hlog] at hmem
    rcases List.mem_append.mp hmem with hm | hm
    · exact h.guarded m hm
    · rw [(hmoments m hm).1]
      exact h.toListed.protected_account hfound hlast.2.1

/-- A quiet part changes nothing of what was created. -/
theorem of_quiet {events : List Event} (h : Forward p found w kinds s)
    (hfound : Existing p found w.account)
    (hlast : Ordered kinds) (hq : Quiet s t events)
    (hquiet : ∀ event ∈ events, event.isQuiet = true) : Forward p found w kinds t := by
  refine h.of_log hfound hlast hq.account hq.created hq.log ?_ ?_
  · intro m hm
    obtain ⟨event, hin, rfl⟩ := List.mem_map.mp hm
    refine ⟨rfl, fun kind id hevent => ?_⟩
    have hevent : event = .delete kind id := hevent
    rw [hevent] at hin
    cases hquiet _ hin
  · intro kind body answer hm
    rw [List.map_map] at hm
    obtain ⟨event, hin, hevent⟩ := List.mem_map.mp hm
    have hevent : event = .post kind body answer := hevent
    rw [hevent] at hin
    cases hquiet _ hin

/-- A `POST` that created nothing. -/
theorem of_refused {kind : Kind} {body : Json} (h : Forward p found w kinds s)
    (hfound : Existing p found w.account)
    (hlast : Ordered kinds) (hnone : (env.post kind).id = none) :
    Forward p found w kinds (s.posted env kind body) := by
  have haccount : (s.posted env kind body).account = s.account := by
    show (env.post kind).effect kind s.account = s.account
    unfold PostAnswer.effect
    rw [hnone]
  refine h.of_log hfound hlast haccount rfl rfl ?_ ?_
  · intro m hm
    rw [List.mem_singleton.mp hm]
    exact ⟨haccount, fun _ _ hevent => by cases hevent⟩
  · intro kind' body' answer hm hid
    cases List.mem_singleton.mp hm
    exact absurd hnone hid

/-- A `POST` whose answer identifies what it created. -/
theorem of_created {kind : Kind} {body : Json} {real id : String} {result : Json}
    {resource : Dict} (h : Forward p found w kinds s) (hdoc : Documented p env w.account)
    (hfound : Existing p found w.account) (hmissing : found.resource kind = none)
    (hlast : Ordered (kinds ++ [kind]))
    (hpost : env.post kind = .created real result)
    (hr : p.requireResource result kind.label = .ok resource) (hid : p.idOf resource = .ok id) :
    Forward p found w (kinds ++ [kind]) ((s.posted env kind body).registered kind id) := by
  have hreal : id = real := by
    have hsame := hdoc.identified kind real result resource hpost hr
    rw [hid] at hsame
    cases hsame
    rfl
  have haccount : (s.posted env kind body).account = s.account.add kind id := by
    show (env.post kind).effect kind s.account = s.account.add kind id
    rw [hpost, hreal]
    rfl
  have hlisted : Listed found w (kinds ++ [kind]) ((s.posted env kind body).registered kind id) :=
    { account := by
        show (s.posted env kind body).account = w.account.addEach (s.created ++ [(kind, id)])
        rw [haccount, Inventory.addEach_concat, h.account]
      kinds := by
        show (s.created ++ [(kind, id)]).map (·.1) = _
        rw [List.map_append, h.kinds, List.filter_append]
        simp [hmissing]
      fresh := by
        intro e he
        rcases List.mem_append.mp he with he | he
        · exact h.fresh e he
        · rw [List.mem_singleton.mp he, hreal]
          refine hdoc.fresh kind real ?_
          rw [hpost]
          rfl }
  refine { hlisted with identified := ?_, undeleted := ?_, guarded := ?_ }
  · intro kind' body' answer hmem hsome
    rw [events_registered, events_posted] at hmem
    rcases List.mem_append.mp hmem with hm | hm
    · exact h.identified kind' body' answer hm hsome
    · cases List.mem_singleton.mp hm
      exact ⟨real, result, resource, hpost, hr⟩
  · intro kind' id' hmem
    rw [events_registered, events_posted] at hmem
    rcases List.mem_append.mp hmem with hm | hm
    · exact h.undeleted kind' id' hm
    · cases List.mem_singleton.mp hm
  · intro m hmem
    rcases List.mem_append.mp hmem with hm | hm
    · exact h.guarded m hm
    · rw [List.mem_singleton.mp hm]
      exact hlisted.protected_account hfound hlast.2.1

/-- A resource that was found is not created. -/
theorem keep {kind : Kind} {resource : Dict} (h : Forward p found w kinds s)
    (hr : found.resource kind = some resource) : Forward p found w (kinds ++ [kind]) s :=
  { h with
    kinds := by
      rw [h.kinds, List.filter_append]
      simp [hr] }

end Forward

section Attempt

variable {kinds : List Kind}

/-- A creation goes forward by one kind, or fails with an exact list, unless it is ambiguous. -/
theorem ends_create_forward {kind : Kind} {body : Json} (hdoc : Documented p env w.account)
    (hfound : Existing p found w.account) (h : Forward p found w kinds s) (hordered : Ordered kinds)
    (hnext : Ordered (kinds ++ [kind])) (hmissing : found.resource kind = none) :
    Ends (create p env kind body) s (fun _ t => Forward p found w (kinds ++ [kind]) t)
      fun e t => e ≠ .ambiguousPost → Failed p found w t := by
  refine ends_create (fun real result resource id hpost hr hid => ?_) fun e hun he => ?_
  · exact h.of_created hdoc hfound hmissing hnext hpost hr hid
  · by_cases hnone : (env.post kind).id = none
    · exact .inl ⟨kinds, hordered, h.of_refused hfound hordered hnone⟩
    · -- the resource exists, and its answer does not say which it is
      have hincomplete : ¬ Complete p kind (env.post kind) := (hun he).resolve_left hnone
      obtain ⟨id, hid⟩ := Option.ne_none_iff_exists'.mp hnone
      refine .inr ⟨kind, id, body, env.post kind, ?_, hdoc.fresh kind id hid, ?_, ?_, hnone,
        hincomplete⟩
      · show id ∈ (env.post kind).effect kind s.account kind
        unfold PostAnswer.effect
        rw [hid]
        exact Inventory.mem_add.mpr (.inr ⟨rfl, rfl⟩)
      · intro hmem
        have hkind : kind ∈ kinds := h.toListed.mem_kinds hmem
        exact (List.nodup_append.mp hnext.1).2.2 kind hkind kind (List.mem_singleton_self kind) rfl
      · rw [events_posted]
        exact List.mem_append_right _ (List.mem_singleton_self _)

/-- A pure computation leaves the list exact, whether it returns or raises. -/
theorem ends_raises_forward {α : Type} {result : Except Failure α} {Q : α → Run → Prop}
    (h : Forward p found w kinds s) (hordered : Ordered kinds)
    (hok : ∀ a, result = .ok a → Q a s) :
    Ends (raises result) s Q fun e t => e ≠ .ambiguousPost → Failed p found w t :=
  ends_raises hok fun _ _ _ => .inl ⟨kinds, hordered, h⟩

/-- `_ensure_policy` goes forward to the policy. -/
theorem ends_ensurePolicy_forward (hdoc : Documented p env w.account)
    (hfound : Existing p found w.account) (h : Forward p found w [] s) :
    Ends (p.ensurePolicy env found) s (fun _ t => Forward p found w [.policy] t)
      fun e t => e ≠ .ambiguousPost → Failed p found w t := by
  unfold Provisioner.ensurePolicy
  cases hf : found.policy with
  | some policy => exact h.keep hf
  | none => exact ends_create_forward hdoc hfound h (by decide) (by decide) hf

/-- `_ensure_app` goes forward to the application. -/
theorem ends_ensureApp_forward {policy : Dict} (hdoc : Documented p env w.account)
    (hfound : Existing p found w.account) (h : Forward p found w [.policy] s) :
    Ends (p.ensureApp env found policy) s (fun _ t => Forward p found w [.policy, .app] t)
      fun e t => e ≠ .ambiguousPost → Failed p found w t := by
  unfold Provisioner.ensureApp
  cases hf : found.app with
  | some app => exact h.keep hf
  | none =>
    dsimp only
    rw [ends_bind]
    refine ends_raises_forward h (by decide) fun policyId _ => ?_
    exact ends_create_forward hdoc hfound h (by decide) (by decide) hf

/-- `_ensure_tunnel` goes forward to the tunnel. -/
theorem ends_ensureTunnel_forward (hdoc : Documented p env w.account)
    (hfound : Existing p found w.account) (h : Forward p found w [.policy, .app] s) :
    Ends (p.ensureTunnel env found) s (fun _ t => Forward p found w [.policy, .app, .tunnel] t)
      fun e t => e ≠ .ambiguousPost → Failed p found w t := by
  unfold Provisioner.ensureTunnel
  cases hf : found.tunnel with
  | some tunnel => exact h.keep hf
  | none =>
    have hmissing : found.resource .tunnel = none := hf
    dsimp only
    rw [ends_bind]
    refine (ends_create_forward hdoc hfound h (by decide) (by decide) hmissing).mono
      (fun tunnel t h => ?_) fun _ _ h => h
    rw [ends_bind]
    refine ends_raises_forward h (by decide) fun tunnelId _ => ?_
    have hput : Forward p found w [.policy, .app, .tunnel]
        (t.record (.put tunnelId (tunnelConfiguration p.desired)) fun account => account) := by
      refine h.of_quiet hfound (by decide) (quiet_record t _) fun event hmem => ?_
      rw [List.mem_singleton.mp hmem]
      rfl
    rw [ends_bind]
    refine ends_putConfiguration ?_ fun _ _ => .inl ⟨_, by decide, hput⟩
    rw [ends_pure]
    exact hput

/-- `_ensure_local` creates nothing. -/
theorem ends_ensureLocal_forward {policy app tunnel : Dict} {audience : String}
    (hfound : Existing p found w.account) (h : Forward p found w [.policy, .app, .tunnel] s) :
    Ends (p.ensureLocal env found policy app tunnel audience) s
      (fun _ t => Forward p found w [.policy, .app, .tunnel] t)
      fun e t => e ≠ .ambiguousPost → Failed p found w t := by
  refine ends_ensureLocal (fun _ => h) (fun t tunnelId token _ _ _ hq => ?_)
    fun e t events hquiet hq _ => .inl ⟨_, by decide, h.of_quiet hfound (by decide) hq hquiet⟩
  refine h.of_quiet hfound (by decide) hq fun event hmem => ?_
  rcases List.mem_cons.mp hmem with rfl | hmem
  · rfl
  · rw [List.mem_singleton.mp hmem]
    rfl

/-- `_ensure_dns` goes forward to the DNS record. -/
theorem ends_ensureDns_forward {tunnel : Dict} (hdoc : Documented p env w.account)
    (hfound : Existing p found w.account) (h : Forward p found w [.policy, .app, .tunnel] s) :
    Ends (p.ensureDns env found tunnel) s
      (fun _ t => Forward p found w [.policy, .app, .tunnel, .dns] t)
      fun e t => e ≠ .ambiguousPost → Failed p found w t := by
  unfold Provisioner.ensureDns
  cases hf : found.dns with
  | some dns => exact h.keep hf
  | none =>
    dsimp only
    rw [ends_bind]
    refine ends_raises_forward h (by decide) fun tunnelId _ => ?_
    exact ends_create_forward hdoc hfound h (by decide) (by decide) hf

/-- A failure leaves an exact list of what was created, or a resource that is not in it. -/
theorem ends_attempt_failed (hdoc : Documented p env w.account)
    (hfound : Existing p found w.account) :
    Ends (p.attempt env found) (Run.start w) (fun _ _ => True)
      fun e t => e ≠ .ambiguousPost → Failed p found w t := by
  unfold Provisioner.attempt
  rw [ends_bind]
  refine (ends_ensurePolicy_forward hdoc hfound (Forward.start w)).mono
    (fun policy s₁ h₁ => ?_) fun _ _ h => h
  rw [ends_bind]
  refine (ends_ensureApp_forward hdoc hfound h₁).mono (fun app s₂ h₂ => ?_) fun _ _ h => h
  rw [ends_bind]
  refine ends_raises_forward h₂ (by decide) fun audience _ => ?_
  rw [ends_bind]
  refine (ends_ensureTunnel_forward hdoc hfound h₂).mono (fun tunnel s₃ h₃ => ?_) fun _ _ h => h
  rw [ends_bind]
  refine (ends_ensureLocal_forward hfound h₃).mono (fun _ s₄ h₄ => ?_) fun _ _ h => h
  rw [ends_bind]
  refine (ends_ensureDns_forward hdoc hfound h₄).mono (fun dns s₅ h₅ => ?_) fun _ _ h => h
  rw [ends_bind]
  refine ends_raises_forward h₅ (by decide) fun state _ => ?_
  rw [ends_bind]
  have hwritten : ∀ t, Quiet s₅ t [.writeState state] →
      Forward p found w [.policy, .app, .tunnel, .dns] t := by
    intro t hq
    refine h₅.of_quiet hfound (by decide) hq fun event hmem => ?_
    rw [List.mem_singleton.mp hmem]
    rfl
  refine ends_writeState (fun t _ => ?_) fun e t hq _ => .inl ⟨_, by decide, hwritten t hq⟩
  rw [ends_pure]
  trivial

end Attempt

/-! ## The cleanup -/

/-- Everything that a `DELETE` of the cleanup leaves, when it succeeds. -/
theorem ends_deleteCreated {kind : Kind} {id : String} {Q : Unit → Run → Prop}
    {E : Failure → Run → Prop} (hdelete : env.delete kind = .ok ())
    (hok : Q () (s.record (.delete kind id) fun account => account.remove kind id)) :
    Ends (deleteCreated env kind id) s Q E := by
  unfold deleteCreated delete record
  rw [ends_tryCatch, ends_bind, ends_modify, hdelete]
  exact hok

/-- The entries are removed in turn. Every moment on the way is one of these, and its account has
the entries that are left. -/
theorem ends_deleteEach {entries : List (Kind × String)} {Q : Unit → Run → Prop}
    {E : Failure → Run → Prop} (hdelete : ∀ kind, env.delete kind = .ok ())
    (hok : ∀ t moments, t.log = s.log ++ moments →
      (∀ m ∈ moments, ∃ done left, entries = done ++ left ∧ done ≠ [] ∧
        m.account = s.account.removeEach done ∧ ∃ e ∈ entries, m.event = .delete e.1 e.2) →
      t.account = s.account.removeEach entries → Q () t) :
    Ends (deleteEach env entries) s Q E := by
  induction entries generalizing s with
  | nil =>
    refine hok s [] (List.append_nil _).symm (fun m hm => by cases hm) rfl
  | cons e entries ih =>
    obtain ⟨kind, id⟩ := e
    unfold deleteEach
    rw [ends_bind]
    refine ends_deleteCreated (hdelete kind) (ih fun t moments hlog hmoments haccount => ?_)
    refine hok t (⟨.delete kind id, s.account.remove kind id⟩ :: moments) ?_ ?_ haccount
    · rw [hlog]
      show s.log ++ [⟨.delete kind id, s.account.remove kind id⟩] ++ moments = _
      rw [List.append_assoc]
      rfl
    · intro m hm
      rcases List.mem_cons.mp hm with rfl | hm
      · exact ⟨[(kind, id)], entries, rfl, by simp, rfl, (kind, id), List.mem_cons_self, rfl⟩
      · obtain ⟨done, left, hsplit, -, hleft, e, he, hevent⟩ := hmoments m hm
        refine ⟨(kind, id) :: done, left, ?_, by simp, hleft, e, List.mem_cons_of_mem _ he, hevent⟩
        rw [hsplit]
        rfl

/-- What is not the last of some entries is not the last of all. -/
theorem mem_dropLast_of_filter {α : Type} {f : α → Bool} {a : α} {l : List α}
    (h : a ∈ (l.filter f).dropLast) : a ∈ l.dropLast := by
  induction l using List.reverseRecOn with
  | nil => cases h
  | append_singleton init last _ =>
    rw [List.dropLast_concat]
    rw [List.filter_append] at h
    cases hf : f last with
    | true =>
      have hlast : [last].filter f = [last] := by simp [hf]
      rw [hlast, List.dropLast_concat] at h
      exact (List.mem_filter.mp h).1
    | false =>
      have hlast : [last].filter f = [] := by simp [hf]
      rw [hlast, List.append_nil] at h
      exact (List.mem_filter.mp (List.dropLast_subset _ h)).1

namespace Listed

variable {kinds : List Kind}

/-- Nothing is created twice, for no kind comes twice. -/
theorem nodup (h : Listed found w kinds s) (hordered : Ordered kinds) : s.created.Nodup := by
  have hmap : (s.created.map (·.1)).Nodup := by
    rw [h.kinds]
    exact hordered.1.filter _
  exact List.Nodup.of_map _ hmap

/-- The DNS record is the newest entry, if it is one. -/
theorem dns_not_mem_older {older newer : List (Kind × String)} {id : String}
    (h : Listed found w kinds s) (hordered : Ordered kinds) (hsplit : s.created = older ++ newer)
    (hne : newer ≠ []) : (.dns, id) ∉ older := by
  intro hmem
  have hlast : Kind.dns ∈ (s.created.map (·.1)).dropLast := by
    rw [hsplit, List.map_append, List.dropLast_append_of_ne_nil (by simpa using hne)]
    exact List.mem_append_left _ (List.mem_map_of_mem hmem)
  rw [h.kinds] at hlast
  exact hordered.2.2 (mem_dropLast_of_filter hlast)

/-- Deleting the newer resources leads back to the account with the older ones. -/
theorem removeEach_newer {older newer : List (Kind × String)} (h : Listed found w kinds s)
    (hordered : Ordered kinds) (hsplit : s.created = older ++ newer) :
    s.account.removeEach newer.reverse = w.account.addEach older := by
  have hfresh := h.fresh
  have hnodup := h.nodup hordered
  rw [hsplit] at hfresh hnodup
  rw [h.account, hsplit]
  exact Inventory.removeEach_addEach_append hfresh hnodup

end Listed

/-- The cleanup disables the host if it has to, and deletes the entries of the list. -/
theorem ends_cleanUp {Q : Unit → Run → Prop} {E : Failure → Run → Prop}
    (h : ∀ t events, (∀ event ∈ events, event.isQuiet = true) → Quiet s t events →
      Ends (deleteEach env s.created.reverse) t Q E) : Ends (cleanUp env) s Q E := by
  unfold cleanUp
  rw [ends_bind, ends_get]
  refine ends_ite (fun _ => ?_) fun _ => ?_
  · rw [ends_bind]
    refine ends_disableLocal fun t hq => h t _ ?_ hq
    intro event hmem
    rw [List.mem_singleton.mp hmem]
    rfl
  · exact h s [] (fun _ hmem => by cases hmem) (Quiet.refl s)

/-- With an exact list the cleanup leaves the account as it was before the call. -/
theorem ends_cleanUp_forward {kinds : List Kind} (hdelete : ∀ kind, env.delete kind = .ok ())
    (hfound : Existing p found w.account) (h : Forward p found w kinds s)
    (hordered : Ordered kinds) :
    Ends (cleanUp env) s (fun _ t => RolledBack p found w t ∧ AllIdentified p t.events)
      fun _ _ => False := by
  refine ends_cleanUp fun u events hquiet hq => ?_
  have hu : Forward p found w kinds u := h.of_quiet hfound hordered hq hquiet
  rw [← hq.created]
  refine ends_deleteEach hdelete fun t moments hlog hmoments haccount => ?_
  refine ⟨⟨?_, fun kind id hmem => ?_, fun m hmem => ?_⟩, fun kind body answer hmem => ?_⟩
  · rw [haccount]
    have hall : u.created = [] ++ u.created := rfl
    exact hu.toListed.removeEach_newer hordered hall
  · unfold Run.events at hmem
    rw [hlog, List.map_append] at hmem
    rcases List.mem_append.mp hmem with hm | hm
    · exact absurd hm (hu.undeleted kind id)
    · obtain ⟨m, hin, hevent⟩ := List.mem_map.mp hm
      obtain ⟨_, _, -, -, -, e, he, hdeleted⟩ := hmoments m hin
      rw [hdeleted] at hevent
      cases hevent
      exact hu.fresh e (List.mem_reverse.mp he)
  · rw [hlog] at hmem
    rcases List.mem_append.mp hmem with hm | hm
    · exact hu.guarded m hm
    · -- the DNS record, if there is one, was the first to go
      obtain ⟨done, left, hsplit, hdone, hleft, -⟩ := hmoments m hm
      have hcreated : u.created = left.reverse ++ done.reverse := by
        rw [← List.reverse_append, ← hsplit, List.reverse_reverse]
      have hne : done.reverse ≠ [] := by simpa using hdone
      have hrest := hu.toListed.removeEach_newer hordered hcreated
      rw [List.reverse_reverse] at hrest
      rintro ⟨id, hid, hnew⟩
      rw [hleft, hrest] at hid
      rcases Inventory.mem_addEach.mp hid with hold | hentry
      · exact absurd hold hnew
      · exact absurd hentry (hu.toListed.dns_not_mem_older hordered hcreated hne)
  · unfold Run.events at hmem
    rw [hlog, List.map_append] at hmem
    rcases List.mem_append.mp hmem with hm | hm
    · exact hu.identified kind body answer hm
    · obtain ⟨m, hin, hevent⟩ := List.mem_map.mp hm
      obtain ⟨_, _, -, -, -, e, -, hdeleted⟩ := hmoments m hin
      rw [hdeleted] at hevent
      cases hevent

/-- A resource that is not in the list outlives the cleanup. -/
theorem ends_cleanUp_orphaned (found : Discovery)
    (hdelete : ∀ kind, env.delete kind = .ok ()) (h : Orphaned p w s) :
    Ends (cleanUp env) s (fun _ t => ¬ RolledBack p found w t ∧ ¬ AllIdentified p t.events)
      fun _ _ => False := by
  obtain ⟨kind, id, body, answer, hexists, hnew, hnot, hposted, hcreated, hincomplete⟩ := h
  refine ends_cleanUp fun u events _ hq => ?_
  refine ends_deleteEach hdelete fun t moments hlog _ haccount => ⟨fun hback => ?_, fun hall => ?_⟩
  · have hleft : id ∈ t.account kind := by
      rw [haccount, hq.account]
      exact Inventory.mem_removeEach hexists fun hmem => hnot (List.mem_reverse.mp hmem)
    rw [hback.account] at hleft
    exact hnew hleft
  · refine hincomplete (hall kind body answer ?_ hcreated)
    unfold Run.events
    rw [hlog, List.map_append]
    refine List.mem_append_left _ ?_
    show _ ∈ u.events
    rw [hq.events]
    exact List.mem_append_left _ hposted

/-- A call that fails with a definite answer leaves the account as it was, and never a new DNS
record without the policy and the application, if and only if every `POST` that created a resource
was answered with a well-formed one. -/
theorem apply_rolledBack {e : Failure} (hdoc : Documented p env w.account)
    (hfound : Existing p found w.account) (hdelete : ∀ kind, env.delete kind = .ok ())
    (hrun : p.apply env found (Run.start w) = .error e t) (he : e ≠ .ambiguousPost) :
    RolledBack p found w t ↔ AllIdentified p t.events := by
  have hends : Ends (p.apply env found) (Run.start w) (fun _ _ => True)
      fun e t => e ≠ .ambiguousPost → (RolledBack p found w t ↔ AllIdentified p t.events) := by
    refine ends_apply ((ends_attempt_failed hdoc hfound).mono (fun _ _ h => h) fun e s hs => ?_)
    refine ⟨fun hambiguous hnot => absurd hambiguous hnot, fun hnot => ?_⟩
    rcases hs hnot with ⟨kinds, hordered, h⟩ | h
    · refine (ends_cleanUp_forward hdelete hfound h hordered).mono (fun _ t ht _ => ?_)
        fun _ _ hfalse => hfalse.elim
      exact ⟨fun _ => ht.2, fun _ => ht.1⟩
    · refine (ends_cleanUp_orphaned found hdelete h).mono (fun _ t ht _ => ?_)
        fun _ _ hfalse => hfalse.elim
      exact ⟨fun hback => absurd hback ht.1, fun hall => absurd hall ht.2⟩
  exact hends.of_error hrun he

namespace Fixture

/-- Nothing of the deployment exists at Cloudflare. -/
def nothingExists : Query → Except Failure Json
  | .zones => .ok (.list [.object [("id", .text "zone-id"), ("name", .text "example.edu")]])
  | .tunnels | .tunnelConfig _ | .policies | .apps | .app _ | .records _ => .ok (.list [])

/-- The DNS record is created, but the result has no identifier. -/
def dnsWithoutId : Environment :=
  { allSucceed with
    post := fun kind => match kind with
      | .dns => .created "new-dns" (.object [])
      | kind => allSucceed.post kind }

def helperFails : Environment := { allSucceed with helper := .exited 1 }

/-- The account of the fixture with a failing helper keeps its promises. -/
theorem documented_helperFails : Documented provisioner helperFails empty.account where
  fresh _ _ _ hmem := by cases hmem
  identified kind id result resource hpost hr := by
    obtain ⟨rfl, -⟩ := requireResource_object hr
    cases kind <;> (cases hpost; rfl)

/-- The account of the fixture whose DNS answer has no identifier keeps its promises. -/
theorem documented_dnsWithoutId : Documented provisioner dnsWithoutId empty.account where
  fresh _ _ _ hmem := by cases hmem
  identified kind id result resource hpost hr := by
    obtain ⟨rfl, ht⟩ := requireResource_object hr
    cases kind with
    | dns =>
      cases hpost
      cases ht
    | policy =>
      cases hpost
      rfl
    | app =>
      cases hpost
      rfl
    | tunnel =>
      cases hpost
      rfl

set_option maxRecDepth 100000 in
/-- The DNS record stays, and the policy and the application are deleted. -/
theorem dnsWithoutId_not_rolledBack :
    ∃ found, provisioner.discover (.ok none) nothingExists = .ok found ∧
      Existing provisioner found empty.account ∧
      Documented provisioner dnsWithoutId empty.account ∧
      (∀ kind, dnsWithoutId.delete kind = .ok ()) ∧
      ∃ e t, provisioner.apply dnsWithoutId found (Run.start empty) = .error e t ∧
        e ≠ .ambiguousPost ∧ ¬ RolledBack provisioner found empty t ∧
        t.account .dns = ["new-dns"] ∧ t.account .policy = [] ∧ t.account .app = [] := by
  have hplay : (match provisioner.discover (.ok none) nothingExists with
      | .error _ => false
      | .ok found => found.policy.isNone && found.app.isNone && found.tunnel.isNone &&
        found.dns.isNone && match provisioner.apply dnsWithoutId found (Run.start empty) with
          | .ok _ _ => false
          | .error e t => e ≠ .ambiguousPost && t.account .dns = ["new-dns"] &&
            t.account .policy = [] && t.account .app = []) = true := by
    decide +kernel
  cases hfound : provisioner.discover (.ok none) nothingExists with
  | error e =>
    rw [hfound] at hplay
    cases hplay
  | ok found =>
    rw [hfound] at hplay
    dsimp only at hplay
    cases hrun : provisioner.apply dnsWithoutId found (Run.start empty) with
    | ok state t =>
      rw [hrun] at hplay
      simp at hplay
    | error e t =>
      rw [hrun] at hplay
      simp only [Bool.and_eq_true, Option.isNone_iff_eq_none, decide_eq_true_eq] at hplay
      obtain ⟨⟨⟨⟨hpolicy, happ⟩, htunnel⟩, hdns⟩, ⟨⟨he, hleft⟩, hnopolicy⟩, hnoapp⟩ := hplay
      refine ⟨found, rfl, ?_, documented_dnsWithoutId, fun _ => rfl, e, t, hrun, he, ?_, hleft,
        hnopolicy, hnoapp⟩
      · intro kind resource hr
        cases kind with
        | policy => cases hpolicy.symm.trans hr
        | app => cases happ.symm.trans hr
        | tunnel => cases htunnel.symm.trans hr
        | dns => cases hdns.symm.trans hr
      · intro hback
        rw [hback.account] at hleft
        cases hleft

/-- When the helper fails, the call is rolled back exactly if all resources were identified. -/
theorem apply_rolledBack_helperFails :
    ∃ e t, provisioner.apply helperFails nothing (Run.start empty) = .error e t ∧
      (RolledBack provisioner nothing empty t ↔ AllIdentified provisioner t.events) := by
  have hplay : (match provisioner.apply helperFails nothing (Run.start empty) with
      | .ok _ _ => false
      | .error e _ => e ≠ .ambiguousPost) = true := by
    decide +kernel
  cases hrun : provisioner.apply helperFails nothing (Run.start empty) with
  | ok state t =>
    rw [hrun] at hplay
    cases hplay
  | error e t =>
    rw [hrun] at hplay
    refine ⟨e, t, rfl, apply_rolledBack documented_helperFails (fun kind resource hr => ?_)
      (fun _ => rfl) hrun (of_decide_eq_true hplay)⟩
    cases kind <;> cases hr

end Fixture

end LabGoblin.Cloudflare
