import LabGoblin.Computation.Outcome
import LabGoblin.Model.GuestProfiles

/-!
# What a poll of the profile notices

A profile is never deleted, and every save raises its revision. The credentials of a template can
be deleted, and start again from the first revision when they are saved anew. A poll misses what
happened exactly when they have been built up again to the revision and the policy of the launch.
-/

set_option autoImplicit false

namespace LabGoblin.GuestProfiles

/-- What is stored after a sequence of edits. -/
def Stored.run (s : Stored) (edits : List Edit) : Stored := edits.foldl Stored.apply s

/-! ## The template's credentials -/

/-- What an edit makes of the credentials of the template. -/
def editCredential (credential : Option TemplateGuestCredential) :
    Edit → Option TemplateGuestCredential
  | .saveProfile _ => credential
  | .saveCredentials guest autoConnect studentVisible =>
    some ⟨guest, autoConnect, studentVisible,
      (credential.map TemplateGuestCredential.revision).getD 0 + 1⟩
  | .changePolicy autoConnect studentVisible =>
    credential.map fun credential =>
      { credential with autoConnect, studentVisible, revision := credential.revision + 1 }
  | .removeCredentials => none

/-- The edits after the last removal of the credentials, when there is one. -/
def sinceRemoval : List Edit → Option (List Edit)
  | [] => none
  | edit :: edits =>
    match sinceRemoval edits with
    | some later => some later
    | none =>
      match edit with
      | .removeCredentials => some edits
      | _ => none

/-- How many edits save the credentials or change their policy. -/
def changes : List Edit → ℕ
  | [] => 0
  | .saveCredentials .. :: edits => changes edits + 1
  | .changePolicy .. :: edits => changes edits + 1
  | _ :: edits => changes edits

/-- The same, counted from the first save on. -/
def rebuilds : List Edit → ℕ
  | [] => 0
  | .saveCredentials .. :: edits => changes edits + 1
  | _ :: edits => rebuilds edits

/-- The credentials that were saved last. -/
def lastSaved : List Edit → Option GuestCredentials
  | [] => none
  | .saveCredentials guest _ _ :: edits => (lastSaved edits).or (some guest)
  | _ :: edits => lastSaved edits

/-- The policy that was set last. -/
def lastPolicy : List Edit → Option Bool
  | [] => none
  | .saveCredentials _ autoConnect _ :: edits => (lastPolicy edits).or (some autoConnect)
  | .changePolicy autoConnect _ :: edits => (lastPolicy edits).or (some autoConnect)
  | _ :: edits => lastPolicy edits

section Credential

variable {edits later : List Edit}

/-- After a removal only the edits since it count, for the credentials start from nothing. -/
theorem foldl_sinceRemoval (h : sinceRemoval edits = some later)
    (credential : Option TemplateGuestCredential) :
    edits.foldl editCredential credential = later.foldl editCredential none ∧
      sinceRemoval later = none := by
  induction edits generalizing credential with
  | nil => cases h
  | cons edit edits ih =>
    unfold sinceRemoval at h
    cases hrest : sinceRemoval edits with
    | some found =>
      rw [hrest] at h
      cases h
      exact ih hrest _
    | none =>
      rw [hrest] at h
      cases edit with
      | removeCredentials =>
        cases h
        exact ⟨rfl, hrest⟩
      | saveProfile => cases h
      | saveCredentials => cases h
      | changePolicy => cases h

/-- Without a removal among the edits there is none among the later ones. -/
theorem sinceRemoval_tail {edit : Edit} (h : sinceRemoval (edit :: edits) = none) :
    sinceRemoval edits = none ∧ edit ≠ .removeCredentials := by
  unfold sinceRemoval at h
  cases hrest : sinceRemoval edits with
  | some found =>
    rw [hrest] at h
    cases h
  | none =>
    rw [hrest] at h
    refine ⟨rfl, ?_⟩
    rintro rfl
    cases h

/-- Without a removal the credentials stay, and their revision counts the changes. -/
theorem foldl_of_some (h : sinceRemoval edits = none) (c : TemplateGuestCredential) :
    ∃ c' : TemplateGuestCredential, edits.foldl editCredential (some c) = some c' ∧
      c'.revision = c.revision + changes edits ∧
      c'.guest = (lastSaved edits).getD c.guest ∧
      c'.autoConnect = (lastPolicy edits).getD c.autoConnect ∧ (changes edits = 0 → c' = c) := by
  induction edits generalizing c with
  | nil => exact ⟨c, rfl, rfl, rfl, rfl, fun _ => rfl⟩
  | cons edit edits ih =>
    obtain ⟨hrest, hedit⟩ := sinceRemoval_tail h
    cases edit with
    | removeCredentials => exact absurd rfl hedit
    | saveProfile request => exact ih hrest c
    | saveCredentials guest autoConnect studentVisible =>
      obtain ⟨c', hfold, hrevision, hguest, hpolicy, -⟩ :=
        ih hrest ⟨guest, autoConnect, studentVisible, c.revision + 1⟩
      refine ⟨c', hfold, ?_, ?_, ?_, nofun⟩
      · rw [hrevision]
        show c.revision + 1 + changes edits = c.revision + (changes edits + 1)
        omega
      · rw [hguest, lastSaved]
        cases lastSaved edits <;> rfl
      · rw [hpolicy, lastPolicy]
        cases lastPolicy edits <;> rfl
    | changePolicy autoConnect studentVisible =>
      obtain ⟨c', hfold, hrevision, hguest, hpolicy, -⟩ :=
        ih hrest { c with autoConnect, studentVisible, revision := c.revision + 1 }
      refine ⟨c', hfold, ?_, hguest, ?_, nofun⟩
      · rw [hrevision]
        show c.revision + 1 + changes edits = c.revision + (changes edits + 1)
        omega
      · rw [hpolicy, lastPolicy]
        cases lastPolicy edits <;> rfl

/-- From nothing, the credentials appear with the first save. -/
theorem foldl_of_none (h : sinceRemoval edits = none) :
    (edits.foldl editCredential none = none ∧ lastSaved edits = none) ∨
      ∃ c, edits.foldl editCredential none = some c ∧ c.revision = rebuilds edits ∧
        lastSaved edits = some c.guest ∧ lastPolicy edits = some c.autoConnect := by
  induction edits with
  | nil => exact Or.inl ⟨rfl, rfl⟩
  | cons edit edits ih =>
    obtain ⟨hrest, hedit⟩ := sinceRemoval_tail h
    cases edit with
    | removeCredentials => exact absurd rfl hedit
    | saveProfile request => exact ih hrest
    | saveCredentials guest autoConnect studentVisible =>
      obtain ⟨c, hfold, hrevision, hguest, hpolicy, -⟩ :=
        foldl_of_some hrest ⟨guest, autoConnect, studentVisible, 0 + 1⟩
      refine Or.inr ⟨c, hfold, ?_, ?_, ?_⟩
      · rw [hrevision]
        show 0 + 1 + changes edits = changes edits + 1
        omega
      · rw [hguest, lastSaved]
        cases lastSaved edits <;> rfl
      · rw [hpolicy, lastPolicy]
        cases lastPolicy edits <;> rfl
    | changePolicy autoConnect studentVisible =>
      rcases ih hrest with hnone | ⟨c, hfold, hrevision, hguest, hpolicy⟩
      · exact Or.inl hnone
      · refine Or.inr ⟨c, hfold, hrevision, hguest, ?_⟩
        rw [lastPolicy, hpolicy]
        rfl

end Credential

/-! ## The profile -/

/-- A save of the profile among the edits is accepted. -/
def savesProfile : Stored → List Edit → Bool
  | _, [] => false
  | s, edit :: edits =>
    (match edit with
      | .saveProfile request => (s.saveProfile request).toOption.isSome
      | _ => false) || savesProfile (s.apply edit) edits

section Profile

variable {s : Stored} {edit : Edit} {edits : List Edit} {p : VMRemoteProfile}

/-- What an accepted save leaves. -/
theorem saveProfile_eq_ok {s' : Stored} {request : RemoteProfileRequest}
    (h : s.saveProfile request = .ok s') :
    ∃ own, s' = { s with profile := some (s.savedProfile request own) } := by
  unfold Stored.saveProfile at h
  by_cases htemplate : request.useTemplateCredentials = true
  · rw [if_pos htemplate] at h
    obtain ⟨credential, -, h⟩ := Interactive.bind_eq_ok h
    by_cases hpolicy : (!credential.autoConnect) = true
    · rw [if_pos hpolicy] at h
      cases h
    · rw [if_neg hpolicy] at h
      cases h
      exact ⟨none, rfl⟩
  · rw [if_neg htemplate] at h
    cases hown : request.own with
    | none =>
      rw [hown] at h
      cases h
    | some own =>
      rw [hown] at h
      cases h
      exact ⟨some own, rfl⟩

/-- A save of the profile is refused and changes nothing, or replaces the profile. -/
theorem apply_saveProfile (request : RemoteProfileRequest) :
    ((s.saveProfile request).toOption.isSome = false ∧ s.apply (.saveProfile request) = s) ∨
      ((s.saveProfile request).toOption.isSome = true ∧
        ∃ own, s.apply (.saveProfile request) =
          { s with profile := some (s.savedProfile request own) }) := by
  simp only [Stored.apply]
  cases hsave : s.saveProfile request with
  | error e => exact Or.inl ⟨rfl, rfl⟩
  | ok s' =>
    obtain ⟨own, rfl⟩ := saveProfile_eq_ok hsave
    exact Or.inr ⟨rfl, own, rfl⟩

/-- An edit does to the stored credentials what it does to credentials. -/
theorem credential_apply : (s.apply edit).credential = editCredential s.credential edit := by
  cases edit with
  | saveProfile request =>
    rcases apply_saveProfile (s := s) request with ⟨-, hsame⟩ | ⟨-, own, hsaved⟩
    · rw [hsame]
      rfl
    · rw [hsaved]
      rfl
  | saveCredentials guest autoConnect studentVisible => rfl
  | changePolicy autoConnect studentVisible =>
    unfold Stored.apply Stored.changePolicy editCredential
    cases h : s.credential with
    | none => exact h
    | some credential => rfl
  | removeCredentials => rfl

/-- No edit makes the template available or not. -/
theorem templateAvailable_apply : (s.apply edit).templateAvailable = s.templateAvailable := by
  cases edit with
  | saveProfile request =>
    rcases apply_saveProfile (s := s) request with ⟨-, hsame⟩ | ⟨-, own, hsaved⟩
    · rw [hsame]
    · rw [hsaved]
  | saveCredentials guest autoConnect studentVisible => rfl
  | changePolicy autoConnect studentVisible =>
    unfold Stored.apply Stored.changePolicy
    cases s.credential <;> rfl
  | removeCredentials => rfl

/-- An edit leaves the profile, or saves it with a higher revision. -/
theorem profile_apply (hprofile : s.profile = some p) (edit : Edit) :
    ((s.apply edit).profile = some p ∧
        ∀ edits, savesProfile s (edit :: edits) = savesProfile (s.apply edit) edits) ∨
      ∃ p', (s.apply edit).profile = some p' ∧ p.revision < p'.revision ∧
        ∀ edits, savesProfile s (edit :: edits) = true := by
  cases edit with
  | saveProfile request =>
    rcases apply_saveProfile (s := s) request with ⟨hrefused, hsame⟩ | ⟨haccepted, own, hsaved⟩
    · refine Or.inl ⟨by rw [hsame]; exact hprofile, fun edits => ?_⟩
      simp only [savesProfile, hrefused, Bool.false_or]
    · rw [hsaved]
      refine Or.inr ⟨s.savedProfile request own, rfl, ?_, fun edits => ?_⟩
      · show p.revision < (s.profile.map VMRemoteProfile.revision).getD 0 + 1
        rw [hprofile]
        exact Nat.lt_succ_self _
      · simp only [savesProfile, haccepted, Bool.true_or]
  | saveCredentials guest autoConnect studentVisible => exact Or.inl ⟨hprofile, fun _ => rfl⟩
  | changePolicy autoConnect studentVisible =>
    refine Or.inl ⟨?_, fun _ => rfl⟩
    unfold Stored.apply Stored.changePolicy
    cases s.credential <;> exact hprofile
  | removeCredentials => exact Or.inl ⟨hprofile, fun _ => rfl⟩

/-- Without an accepted save the profile stays, and with one its revision has been raised. -/
theorem profile_run (hprofile : s.profile = some p) (edits : List Edit) :
    (savesProfile s edits = false ∧ (s.run edits).profile = some p) ∨
      savesProfile s edits = true ∧ ∃ p', (s.run edits).profile = some p' ∧
        p.revision < p'.revision := by
  induction edits generalizing s p with
  | nil => exact Or.inl ⟨rfl, hprofile⟩
  | cons edit edits ih =>
    rcases profile_apply hprofile edit with ⟨hsame, hsaves⟩ | ⟨p', hsaved, hlt, hsaves⟩
    · rw [hsaves]
      exact ih hsame
    · refine Or.inr ⟨hsaves edits, ?_⟩
      rcases ih hsaved with ⟨-, hsame⟩ | ⟨-, p'', hlater, hlt'⟩
      · exact ⟨p', hsame, hlt⟩
      · exact ⟨p'', hlater, hlt.trans hlt'⟩

/-- Edits do to the stored credentials what they do one after the other. -/
theorem credential_run (edits : List Edit) :
    (s.run edits).credential = edits.foldl editCredential s.credential := by
  induction edits generalizing s with
  | nil => rfl
  | cons edit edits ih =>
    rw [List.foldl_cons, ← credential_apply]
    exact ih

/-- No edits make the template available or not. -/
theorem templateAvailable_run (edits : List Edit) :
    (s.run edits).templateAvailable = s.templateAvailable := by
  induction edits generalizing s with
  | nil => rfl
  | cons edit edits ih => exact ih.trans templateAvailable_apply

end Profile

/-! ## The poll -/

/-- A tunnel that uses the template's credentials, whose profile has not been saved since, and
whose credentials have been removed and built up again to the revision of its launch, with
automatic connections, and with other contents. -/
def Rebuilt (s : Stored) (edits : List Edit) : Prop :=
  ∃ p c later guest, s.profile = some p ∧ p.own = none ∧ s.credential = some c ∧
    savesProfile s edits = false ∧ sinceRemoval edits = some later ∧
    rebuilds later = c.revision ∧ lastPolicy later = some true ∧
    lastSaved later = some guest ∧ guest ≠ c.guest

section Poll

variable {s : Stored} {l : Launch} {expected : String}

/-- Credentials of the template are used only while the template is available and has them. -/
theorem templateForVm_eq_ok {c : TemplateGuestCredential} (h : s.templateForVm = .ok c) :
    s.templateAvailable = true ∧ s.credential = some c := by
  unfold Stored.templateForVm at h
  by_cases havailable : s.templateAvailable = true
  · rw [if_pos havailable] at h
    cases hc : s.credential with
    | none =>
      rw [hc] at h
      cases h
    | some found =>
      rw [hc] at h
      cases h
      exact ⟨havailable, rfl⟩
  · rw [if_neg havailable] at h
    cases h

/-- What a launch has found. -/
theorem launch_eq_ok (h : launch s expected = .ok l) :
    ∃ p, s.profile = some p ∧ p.enabled = true ∧ l.revision = p.revision ∧
      ((∃ guest, p.own = some guest ∧ l.credentialRevision = none) ∨
        p.own = none ∧ s.templateAvailable = true ∧ ∃ c, s.credential = some c ∧
          c.autoConnect = true ∧ l.credentialRevision = some (c.revision, true)) := by
  unfold launch at h
  cases hprofile : s.profile with
  | none =>
    rw [hprofile] at h
    cases h
  | some p =>
    rw [hprofile] at h
    dsimp only at h
    by_cases hrefused : !p.enabled ∨ p.protocol ≠ expected
    · rw [if_pos hrefused] at h
      cases h
    · rw [if_neg hrefused] at h
      obtain ⟨guest, hguest, h⟩ := Interactive.bind_eq_ok h
      obtain ⟨credentialRevision, hcredential, h⟩ := Interactive.bind_eq_ok h
      cases h
      have henabled : p.enabled = true := by
        rw [not_or] at hrefused
        simpa using hrefused.1
      refine ⟨p, rfl, henabled, rfl, ?_⟩
      unfold Stored.connectionCredentials at hguest
      unfold Stored.templateConnectionRevision at hcredential
      cases hown : p.own with
      | some own =>
        rw [hown] at hcredential
        cases hcredential
        exact Or.inl ⟨own, rfl, rfl⟩
      | none =>
        rw [hown] at hguest hcredential
        obtain ⟨c, htemplate, hguest⟩ := Interactive.bind_eq_ok hguest
        obtain ⟨c', htemplate', hcredential⟩ := Interactive.bind_eq_ok hcredential
        cases htemplate.symm.trans htemplate'
        cases hcredential
        obtain ⟨havailable, hstored⟩ := templateForVm_eq_ok htemplate
        by_cases hpolicy : (!c.autoConnect) = true
        · rw [if_pos hpolicy] at hguest
          cases hguest
        · have hconnect : c.autoConnect = true := by simpa using hpolicy
          exact Or.inr ⟨rfl, havailable, c, hstored, hconnect, by rw [hconnect]⟩

/-- While the profile is the same, a poll looks at the template's credentials only. -/
theorem poll_of_profile {p : VMRemoteProfile} (hprofile : s.profile = some p)
    (henabled : p.enabled = true) (hrevision : l.revision = p.revision) :
    poll l s = match s.templateConnectionRevision p with
      | .error _ => true
      | .ok revision => revision ≠ l.credentialRevision := by
  have hsame : (!p.enabled || decide (p.revision ≠ l.revision)) = false := by
    rw [henabled, hrevision]
    simp
  unfold poll
  rw [hprofile]
  dsimp only
  rw [hsame]
  exact Bool.false_or _

/-- A profile without its own credentials has the revision and the policy of the template's. -/
theorem templateConnectionRevision_of_credential {p : VMRemoteProfile}
    {c : TemplateGuestCredential} (hown : p.own = none) (havailable : s.templateAvailable = true)
    (hc : s.credential = some c) :
    s.templateConnectionRevision p = .ok (some (c.revision, c.autoConnect)) := by
  unfold Stored.templateConnectionRevision Stored.templateForVm
  rw [hown, if_pos havailable, hc]
  rfl

/-- What is in force for a profile that uses the template's credentials. -/
theorem inForce_of_credential {p : VMRemoteProfile} {c : TemplateGuestCredential}
    (hprofile : s.profile = some p) (hown : p.own = none)
    (havailable : s.templateAvailable = true) (hc : s.credential = some c)
    (hconnect : c.autoConnect = true) :
    s.inForce = some
      { protocol := p.protocol
        address := p.address
        port := p.port
        serverIdentity := p.serverIdentity
        enabled := p.enabled
        guest := some c.guest
        autoConnect := some true } := by
  have hguest : s.connectionCredentials p = .ok c.guest := by
    unfold Stored.connectionCredentials Stored.templateForVm
    rw [hown, if_pos havailable, hc]
    show (if (!c.autoConnect) = true then _ else _) = _
    rw [hconnect]
    rfl
  unfold Stored.inForce
  rw [hprofile, Option.map_some, hguest, hown, hc]
  simp only [Option.map_some, hconnect]
  rfl

/-- With its own credentials a profile has the same ones in force as long as it is the same profile.
-/
theorem inForce_of_own {s' : Stored} {p : VMRemoteProfile} {guest : GuestCredentials}
    (hown : p.own = some guest) (hprofile : s.profile = some p)
    (hprofile' : s'.profile = some p) : s'.inForce = s.inForce := by
  unfold Stored.inForce Stored.connectionCredentials
  rw [hprofile, hprofile']
  simp only [Option.map_some, hown]

/-- A tunnel's credentials are rebuilt when the saves since the removal reach its revision, under
the same policy, with other credentials. -/
theorem rebuilt_iff {p : VMRemoteProfile} {c : TemplateGuestCredential} {edits later : List Edit}
    (hprofile : s.profile = some p) (hown : p.own = none) (hc : s.credential = some c)
    (hunsaved : savesProfile s edits = false) (hsince : sinceRemoval edits = some later) :
    Rebuilt s edits ↔ rebuilds later = c.revision ∧ lastPolicy later = some true ∧
      ∃ guest, lastSaved later = some guest ∧ guest ≠ c.guest := by
  constructor
  · rintro ⟨p', c', later', guest, -, -, hc', -, hlater, hcount, hpolicy, hguest, hne⟩
    cases hc.symm.trans hc'
    cases hsince.symm.trans hlater
    exact ⟨hcount, hpolicy, guest, hguest, hne⟩
  · rintro ⟨hcount, hpolicy, guest, hguest, hne⟩
    exact ⟨p, c, later, guest, hprofile, hown, hc, hunsaved, hsince, hcount, hpolicy, hguest, hne⟩

/-- The poll after any edits ends the tunnel whenever something else is in force than at its
launch, exactly when the template's credentials have not been built up again. -/
theorem poll_closes_iff (h : launch s expected = .ok l) (edits : List Edit) :
    ((s.run edits).inForce ≠ s.inForce → poll l (s.run edits) = true) ↔ ¬ Rebuilt s edits := by
  obtain ⟨p, hprofile, henabled, hrevision, hcredential⟩ := launch_eq_ok h
  rcases profile_run hprofile edits with ⟨hunsaved, hsame⟩ | ⟨hsaved, p', hprofile', hlt⟩
  · rw [poll_of_profile hsame henabled hrevision]
    rcases hcredential with ⟨guest, hown, hnone⟩ | ⟨hown, havailable, c, hc, hconnect, hsome⟩
    · have hnotRebuilt : ¬ Rebuilt s edits := by
        rintro ⟨p', _, _, _, hprofile', hown', -⟩
        cases hprofile.symm.trans hprofile'
        rw [hown] at hown'
        cases hown'
      exact iff_of_true (fun hne => absurd (inForce_of_own hown hprofile hsame) hne) hnotRebuilt
    · have havailable' := (templateAvailable_run (s := s) edits).trans havailable
      have hrun := credential_run (s := s) edits
      rw [hc] at hrun
      cases hsince : sinceRemoval edits with
      | none =>
        have hnotRebuilt : ¬ Rebuilt s edits := by
          rintro ⟨_, _, _, _, _, _, _, _, hlater, -⟩
          rw [hsince] at hlater
          cases hlater
        obtain ⟨c', hfold, hcount, -, -, hquiet⟩ := foldl_of_some hsince c
        rw [hfold] at hrun
        refine iff_of_true (fun hne => ?_) hnotRebuilt
        rw [templateConnectionRevision_of_credential hown havailable' hrun, hsome]
        by_cases hchanges : changes edits = 0
        · rw [hquiet hchanges] at hrun
          exact absurd ((inForce_of_credential hsame hown havailable' hrun hconnect).trans
            (inForce_of_credential hprofile hown havailable hc hconnect).symm) hne
        · have hraised : c'.revision ≠ c.revision := by omega
          simp [hraised]
      | some later =>
        obtain ⟨hfold, hlast⟩ := foldl_sinceRemoval hsince (some c)
        rw [hfold] at hrun
        rw [rebuilt_iff hprofile hown hc hunsaved hsince]
        rcases foldl_of_none hlast with ⟨hnone, hsaved⟩ | ⟨c', hsome', hcount, hsaved, hpolicy⟩
        · -- The credentials are gone, so the revision cannot be read.
          have hraises : poll l (s.run edits) = true := by
            rw [poll_of_profile hsame henabled hrevision]
            unfold Stored.templateConnectionRevision Stored.templateForVm
            rw [hown, if_pos havailable', hrun, hnone]
            rfl
          rw [← poll_of_profile hsame henabled hrevision, hraises, hsaved]
          simp
        · rw [hsome'] at hrun
          rw [templateConnectionRevision_of_credential hown havailable' hrun, hsome, hsaved,
            hpolicy, ← hcount]
          by_cases hreused : c'.revision = c.revision ∧ c'.autoConnect = true
          · have hforce := inForce_of_credential hsame hown havailable' hrun hreused.2
            rw [hforce, inForce_of_credential hprofile hown havailable hc hconnect]
            simp [hreused.1, hreused.2]
          · have hdiffers : (c'.revision, c'.autoConnect) ≠ (c.revision, true) := by
              intro heq
              exact hreused (Prod.mk.inj heq)
            have hnoticed : decide (some (c'.revision, c'.autoConnect) ≠
                some (c.revision, true)) = true :=
              decide_eq_true fun heq => hdiffers (Option.some.inj heq)
            refine iff_of_true (fun _ => hnoticed) ?_
            rintro ⟨hsameCount, hconnect', -⟩
            exact hreused ⟨hsameCount, Option.some.inj hconnect'⟩
  · -- A save of the profile is always noticed.
    have hnoticed : poll l (s.run edits) = true := by
      have hne : p'.revision ≠ l.revision := by omega
      unfold poll
      rw [hprofile']
      simp [hne]
    have hnotRebuilt : ¬ Rebuilt s edits := by
      rintro ⟨_, _, _, _, _, _, _, hunsaved, -⟩
      rw [hsaved] at hunsaved
      cases hunsaved
    exact iff_of_true (fun _ => hnoticed) hnotRebuilt

end Poll

namespace Fixture

def guest (password : String) (h : password ≠ "" := by decide) : GuestCredentials where
  username := "lab"
  password := password
  domain := ""
  username_ne := by decide
  password_ne := h

/-- A VM that uses the credentials of its template, which were saved once. -/
def stored : Stored where
  profile := some
    { protocol := "rdp"
      address := "10.0.0.5"
      port := 3389
      macAddress := "bc:24:11:00:00:01"
      serverIdentity := "sha256:ab"
      own := none
      enabled := true
      revision := 1 }
  templateAvailable := true
  credential := some ⟨guest "first", true, false, 1⟩

def launched : Launch := ⟨guest "first", 1, some (1, true)⟩

/-- What the launch of the fixture reads. -/
theorem launch_stored : launch stored "rdp" = .ok launched := rfl

/-- A poll notices that the credentials were saved again. -/
theorem poll_closes_iff_saved :
    poll launched (stored.run [.saveCredentials (guest "second") true false]) = true := by
  refine (poll_closes_iff launch_stored _).mpr ?_ (by decide)
  rintro ⟨_, _, _, _, _, _, _, _, hlater, -⟩
  cases hlater

/-- The credentials are removed and saved again with another password. -/
def resaved : List Edit := [.removeCredentials, .saveCredentials (guest "second") true false]

/-- A poll does not notice credentials that were removed and saved once. -/
theorem not_poll_closes : ¬ ∀ (s : Stored) (l : Launch) (expected : String) (edits : List Edit),
    launch s expected = .ok l → (s.run edits).inForce ≠ s.inForce →
    poll l (s.run edits) = true := by
  intro h
  have hcloses := h stored launched "rdp" resaved launch_stored (by decide)
  revert hcloses
  decide

end Fixture

end LabGoblin.GuestProfiles
