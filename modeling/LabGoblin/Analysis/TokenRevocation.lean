import LabGoblin.Analysis.AccountEffects
import Mathlib.Data.List.Infix

/-!
# Revocation is final

Session rows are never deleted and never lose their revocation, so a token that was revoked once
has a revoked row ever after, and its identifier has no other row.
-/

set_option autoImplicit false

namespace LabGoblin.Accounts

open Interactive

/-! ## What the history says about the sessions -/

/-- A revoked session row has the token id. -/
def State.Dead (s : State) (tokenId : String) : Prop :=
  ∃ row ∈ s.sessions.rows, row.tokenId = tokenId ∧ row.revokedAt ≠ none

/-- The token was issued for a user and the user's sessions were all revoked since. -/
def Superseded (history : List Record) (claims : Claims) : Prop :=
  ∃ userId before, .revokedAll userId :: before <:+ history ∧ .issued claims userId ∈ before

structure Inv (s : State) : Prop where
  version : ∀ u ∈ s.users.rows, u.tokenVersion ≠ 0
  issued : ∀ claims userId, .issued claims userId ∈ s.history →
    claims.jti ≠ "" ∧ claims.typ = "access" ∧ microseconds claims.iat ≤ s.clock ∧
      ∃ row ∈ s.sessions.rows, row.tokenId = claims.jti ∧ row.userId = userId
  superseded : ∀ claims, Superseded s.history claims → s.Dead claims.jti
  revoked : ∀ tokenId, .revoked tokenId ∈ s.history → s.Dead tokenId

/-- Rows stay, with their user and token id, and stay revoked. -/
def Kept (rows rows' : List AuthSession) : Prop :=
  ∀ row ∈ rows, ∃ row' ∈ rows', row'.tokenId = row.tokenId ∧ row'.userId = row.userId ∧
    (row.revokedAt ≠ none → row'.revokedAt ≠ none)

/-- A revoked row keeps its token id and its user. -/
theorem AuthSession.revoke_spec (now : ℕ) (reason : String) (row : AuthSession) :
    (row.revoke now reason).tokenId = row.tokenId ∧ (row.revoke now reason).userId = row.userId ∧
      (row.revoke now reason).revokedAt ≠ none := by
  unfold AuthSession.revoke
  by_cases h : row.revokedAt = none
  · rw [if_pos h]
    simp
  · rw [if_neg h]
    exact ⟨rfl, rfl, h⟩

/-- Rows that are only revoked are kept. -/
theorem kept_map (rows : List AuthSession) (f : AuthSession → AuthSession)
    (h : ∀ row, f row = row ∨ ∃ now reason, f row = row.revoke now reason) :
    Kept rows (rows.map f) := by
  intro row hrow
  refine ⟨f row, List.mem_map_of_mem hrow, ?_⟩
  rcases h row with hf | ⟨now, reason, hf⟩
  · rw [hf]
    exact ⟨rfl, rfl, id⟩
  · rw [hf]
    have hspec := row.revoke_spec now reason
    exact ⟨hspec.1, hspec.2.1, fun _ => hspec.2.2⟩

/-- Issuing a session keeps the rows. -/
theorem kept_withSession (s : State) (settings : Settings) (user : User) (tokenId : String)
    (claims : Claims) :
    Kept s.sessions.rows (s.withSession settings user tokenId claims).sessions.rows := by
  intro row hrow
  exact ⟨row, List.mem_append_left _ hrow, rfl, rfl, id⟩

/-- Revoking a session keeps the rows. -/
theorem kept_withRevoked (s : State) (session : AuthSession) (reason : String) :
    Kept s.sessions.rows (s.withRevoked session reason).sessions.rows := by
  refine kept_map s.sessions.rows _ fun row => ?_
  by_cases hid : row.id = session.id
  · exact .inr ⟨s.clock, reason, if_pos hid⟩
  · exact .inl (if_neg hid)

/-- Revoking all sessions of a user keeps the rows. -/
theorem kept_withAllRevoked (s : State) (userId : ℕ) (reason : String) :
    Kept s.sessions.rows (s.withAllRevoked userId reason).sessions.rows := by
  refine kept_map s.sessions.rows _ fun row => ?_
  by_cases hid : row.userId = userId
  · exact .inr ⟨s.clock, reason, if_pos hid⟩
  · exact .inl (if_neg hid)

/-- A token id that is dead stays dead while the rows are kept. -/
theorem State.Dead.kept {s t : State} {tokenId : String} (h : s.Dead tokenId)
    (hkept : Kept s.sessions.rows t.sessions.rows) : t.Dead tokenId := by
  obtain ⟨row, hrow, hid, hrev⟩ := h
  obtain ⟨row', hrow', hid', -, hrev'⟩ := hkept row hrow
  exact ⟨row', hrow', hid'.trans hid, hrev' hrev⟩

/-- What supersedes a token is the latest record or an earlier one. -/
theorem superseded_cons {record : Record} {history : List Record} {claims : Claims}
    (h : Superseded (record :: history) claims) :
    Superseded history claims ∨
      ∃ userId, record = .revokedAll userId ∧ .issued claims userId ∈ history := by
  obtain ⟨userId, before, hsuffix, hissued⟩ := h
  rcases List.suffix_cons_iff.mp hsuffix with heq | hsuffix
  · have hhead : Record.revokedAll userId = record := (List.cons.inj heq).1
    have htail : before = history := (List.cons.inj heq).2
    exact .inr ⟨userId, hhead.symm, htail ▸ hissued⟩
  · exact .inl ⟨userId, before, hsuffix, hissued⟩

/-- What an issued token needs survives while rows are kept and the clock stands still. -/
theorem Inv.issued_kept {s : State} (h : Inv s) (t : State) (hclock : t.clock = s.clock)
    (hkept : Kept s.sessions.rows t.sessions.rows) {claims : Claims} {userId : ℕ}
    (hissued : .issued claims userId ∈ s.history) :
    claims.jti ≠ "" ∧ claims.typ = "access" ∧ microseconds claims.iat ≤ t.clock ∧
      ∃ row ∈ t.sessions.rows, row.tokenId = claims.jti ∧ row.userId = userId := by
  obtain ⟨hjti, htyp, hiat, row, hrow, hid, huser⟩ := h.issued claims userId hissued
  obtain ⟨row', hrow', hid', huser', -⟩ := hkept row hrow
  rw [hclock]
  exact ⟨hjti, htyp, hiat, row', hrow', hid'.trans hid, huser'.trans huser⟩

/-- The whole second of an instant is not after it. -/
theorem microseconds_div_le (now : ℕ) : microseconds (now / 1000000) ≤ now :=
  Nat.div_mul_le_self now 1000000

/-- Issuing a session keeps the invariant, for its row is new and not revoked. -/
theorem Inv.withSession {s : State} (h : Inv s) (settings : Settings) (user : User)
    {tokenId : String} (htoken : tokenId ≠ "") :
    Inv (s.withSession settings user tokenId
      (createAccessToken settings user.username tokenId (orOne user.tokenVersion) s.clock)) := by
  have hkept := kept_withSession s settings user tokenId
    (createAccessToken settings user.username tokenId (orOne user.tokenVersion) s.clock)
  refine ⟨h.version, ?_, ?_, ?_⟩
  · intro claims userId hissued
    rcases List.mem_cons.mp hissued with heq | hissued
    · cases heq
      let row : AuthSession := ⟨s.sessions.next, user.id, tokenId,
        s.clock + microseconds (settings.accessTokenExpireMinutes * 60), none, none⟩
      have hrow : row ∈ s.sessions.rows ++ [row] := List.mem_append_right _ (by simp)
      exact ⟨htoken, rfl, microseconds_div_le s.clock, row, hrow, rfl, rfl⟩
    · exact h.issued_kept (s.withSession settings user tokenId _) rfl hkept hissued
  · intro claims hsup
    rcases superseded_cons hsup with hsup | ⟨userId, heq, -⟩
    · exact (h.superseded claims hsup).kept hkept
    · cases heq
  · intro id hrev
    rcases List.mem_cons.mp hrev with heq | hrev
    · cases heq
    · exact (h.revoked id hrev).kept hkept

/-- Revoking a session keeps the invariant. -/
theorem Inv.withRevoked {s : State} (h : Inv s) {session : AuthSession} (reason : String)
    (hsession : session ∈ s.sessions.rows) : Inv (s.withRevoked session reason) := by
  have hkept := kept_withRevoked s session reason
  refine ⟨h.version, ?_, ?_, ?_⟩
  · intro claims userId hissued
    rcases List.mem_cons.mp hissued with heq | hissued
    · cases heq
    · exact h.issued_kept (s.withRevoked session reason) rfl hkept hissued
  · intro claims hsup
    rcases superseded_cons hsup with hsup | ⟨userId, heq, -⟩
    · exact (h.superseded claims hsup).kept hkept
    · cases heq
  · intro id hrev
    rcases List.mem_cons.mp hrev with heq | hrev
    · cases heq
      have hspec := session.revoke_spec s.clock reason
      refine ⟨session.revoke s.clock reason, ?_, hspec.1, hspec.2.2⟩
      exact List.mem_map.mpr ⟨session, hsession, if_pos rfl⟩
    · exact (h.revoked id hrev).kept hkept

/-- Revoking all sessions of a user keeps the invariant. -/
theorem Inv.withAllRevoked {s : State} (h : Inv s) (userId : ℕ) (reason : String) :
    Inv (s.withAllRevoked userId reason) := by
  have hkept := kept_withAllRevoked s userId reason
  refine ⟨?_, ?_, ?_, ?_⟩
  · intro u hu
    obtain ⟨v, hv, rfl⟩ := List.mem_map.mp hu
    by_cases hid : v.id = userId
    · rw [if_pos hid]
      exact Nat.succ_ne_zero _
    · rw [if_neg hid]
      exact h.version v hv
  · intro claims i hissued
    rcases List.mem_cons.mp hissued with heq | hissued
    · cases heq
    · exact h.issued_kept (s.withAllRevoked userId reason) rfl hkept hissued
  · intro claims hsup
    rcases superseded_cons hsup with hsup | ⟨i, heq, hissued⟩
    · exact (h.superseded claims hsup).kept hkept
    -- the row of the token is one of the user's, which have just been revoked
    · cases heq
      obtain ⟨-, -, -, row, hrow, hid, huser⟩ := h.issued claims userId hissued
      have hspec := row.revoke_spec s.clock reason
      refine ⟨row.revoke s.clock reason, ?_, hspec.1.trans hid, hspec.2.2⟩
      exact List.mem_map.mpr ⟨row, hrow, if_pos huser⟩
  · intro id hrev
    rcases List.mem_cons.mp hrev with heq | hrev
    · cases heq
    · exact (h.revoked id hrev).kept hkept

/-- Every effect keeps the invariant. -/
theorem Inv.effect {s t : State} (h : Inv s) (heffect : Effect s t) : Inv t := by
  cases heffect with
  | accounts users attempts hversion =>
    exact ⟨hversion h.version, h.issued, h.superseded, h.revoked⟩
  | issued settings user tokenId htoken => exact h.withSession settings user htoken
  | revoked session reason hsession => exact h.withRevoked reason hsession
  | revokedAll userId reason => exact h.withAllRevoked userId reason

/-- Every path of effects keeps the invariant. -/
theorem Inv.effects {s t : State} (h : Inv s) (heffects : Effects s t) : Inv t := by
  induction heffects with
  | refl => exact h
  | tail _ heffect ih => exact ih.effect heffect

/-! ## Runs -/

/-- Nothing was issued or revoked yet. Accounts and old sessions may be there. -/
structure State.Initial (s : State) : Prop where
  history : s.history = []
  constraints : s.Constraints
  version : ∀ u ∈ s.users.rows, u.tokenVersion ≠ 0

variable {lib : Library} {settings : Settings}

/-- The invariant holds at the start. -/
theorem State.Initial.inv {s : State} (h : s.Initial) : Inv s := by
  refine ⟨h.version, ?_, ?_, ?_⟩
  · intro claims userId hissued
    rw [h.history] at hissued
    cases hissued
  · rintro claims ⟨userId, before, hsuffix, -⟩
    rw [h.history] at hsuffix
    cases List.suffix_nil.mp hsuffix
  · intro tokenId hrev
    rw [h.history] at hrev
    cases hrev

/-- Every step of the system keeps the invariant. -/
theorem Inv.step {s t : State} (h : Inv s) (hstep : Step lib settings s t) : Inv t := by
  cases hstep with
  | request r hrun => exact h.effects (moves_run lib settings r s () t hrun)
  | tick elapsed =>
    refine ⟨h.version, ?_, h.superseded, h.revoked⟩
    intro claims userId hissued
    obtain ⟨hjti, htyp, hiat, hrow⟩ := h.issued claims userId hissued
    exact ⟨hjti, htyp, Nat.le_add_right_of_le hiat, hrow⟩

/-- Every step keeps the constraints. -/
theorem constraints_step {s t : State} (h : s.Constraints) (hstep : Step lib settings s t) :
    t.Constraints := by
  cases hstep with
  | request r hrun => exact endsIn_run lib settings r s () t hrun
  | tick elapsed => exact ⟨h.username, h.email, h.tokenId⟩

/-- The states that requests and time lead to. -/
abbrev Reach (lib : Library) (settings : Settings) : State → State → Prop :=
  Relation.ReflTransGen (Step lib settings)

/-- The invariant and the constraints hold in every state that is reached. -/
theorem reach_inv {start s : State} (hstart : start.Initial) (h : Reach lib settings start s) :
    Inv s ∧ s.Constraints := by
  induction h with
  | refl => exact ⟨hstart.inv, hstart.constraints⟩
  | tail _ hstep ih => exact ⟨ih.1.step hstep, constraints_step ih.2 hstep⟩

/-! ## Which tokens are accepted -/

/-- The subject of a token names an active user, whose session and version the token has; the
session is not revoked, and neither it nor the token has expired. -/
def State.Honours (s : State) (claims : Claims) : Prop :=
  ∃ user ∈ s.users.rows, user.username = claims.sub ∧ user.isActive = true ∧
    claims.ver = user.tokenVersion ∧
    ∃ session ∈ s.sessions.rows, session.tokenId = claims.jti ∧ session.userId = user.id ∧
      session.revokedAt = none ∧ s.clock < session.expiresAt ∧ s.clock < microseconds claims.exp

def Accepted (s : State) (claims : Claims) : Prop :=
  ∃ user, getUserFromToken s (.signed claims) = .ok user

/-- A check is passed when its condition fails. -/
theorem refuseIf_bind_eq_ok {α : Type} {p : Prop} [Decidable p] {e : Exc}
    {f : Unit → Except Exc α} {a : α} : (refuseIf p e >>= f) = .ok a ↔ ¬ p ∧ f () = .ok a := by
  unfold refuseIf
  by_cases h : p
  · rw [if_pos h]
    constructor
    · intro heq
      cases heq
    · exact fun hnot => absurd h hnot.1
  · rw [if_neg h]
    exact ⟨fun hok => ⟨h, hok⟩, fun hok => hok.2⟩

/-- A row is unpacked when it was found. -/
theorem found_bind_eq_ok {α β : Type} {o : Option α} {e : Exc} {f : α → Except Exc β} {b : β} :
    (found o e >>= f) = .ok b ↔ ∃ a, o = some a ∧ f a = .ok b := by
  unfold found
  cases o with
  | none =>
    constructor
    · intro heq
      cases heq
    · rintro ⟨a, heq, -⟩
      cases heq
  | some a =>
    constructor
    · exact fun hok => ⟨a, rfl, hok⟩
    · rintro ⟨b, heq, hok⟩
      cases heq
      exact hok

/-- What a signed token passes that is accepted, in the order of the checks. -/
theorem getUserFromToken_eq_ok (s : State) (token : Token) (user : User) :
    getUserFromToken s token = .ok user ↔ ∃ payload, decode s.clock token = some payload ∧
      ¬ (payload.sub = "" ∨ payload.jti = "" ∨ payload.typ ≠ "access") ∧
      s.users.first (fun u => u.username = payload.sub) = some user ∧ ¬ user.isActive = false ∧
      ¬ payload.ver ≠ orOne user.tokenVersion ∧
      ∃ session, s.sessions.first
          (fun row => row.tokenId = payload.jti && row.userId = user.id) = some session ∧
        ¬ session.revokedAt ≠ none ∧ ¬ session.expiresAt ≤ s.clock := by
  unfold getUserFromToken
  simp only [found_bind_eq_ok, refuseIf_bind_eq_ok]
  constructor
  · rintro ⟨payload, hd, hnamed, u, hu, hactive, hver, session, hrow, hrevoked, hexpires, heq⟩
    cases heq
    exact ⟨payload, hd, hnamed, hu, hactive, hver, session, hrow, hrevoked, hexpires⟩
  · rintro ⟨payload, hd, hnamed, hu, hactive, hver, session, hrow, hrevoked, hexpires⟩
    exact ⟨payload, hd, hnamed, user, hu, hactive, hver, session, hrow, hrevoked, hexpires, rfl⟩

/-- A signed token is decoded from its second of issue until it expires. -/
theorem decode_signed {now : ℕ} {claims payload : Claims} :
    decode now (.signed claims) = some payload ↔
      payload = claims ∧ microseconds claims.iat ≤ now ∧ now < microseconds claims.exp := by
  unfold decode
  by_cases h : microseconds claims.iat ≤ now ∧ now < microseconds claims.exp
  · simp [h, eq_comm]
  · simp [h]

/-- A token that is accepted names somebody and is honoured. -/
theorem Accepted.honours {s : State} {claims : Claims}
    (hversion : ∀ u ∈ s.users.rows, u.tokenVersion ≠ 0) (h : Accepted s claims) :
    claims.sub ≠ "" ∧ s.Honours claims := by
  obtain ⟨user, h⟩ := h
  obtain ⟨payload, hd, hnamed, hu, hactive, hver, row, hrow, hrevoked, hexpires⟩ :=
    (getUserFromToken_eq_ok s _ user).mp h
  obtain ⟨rfl, -, hexp⟩ := decode_signed.mp hd
  obtain ⟨hmem, hname⟩ := Table.first_some hu
  obtain ⟨hrowMem, hids⟩ := Table.first_some hrow
  simp only [Bool.and_eq_true, decide_eq_true_eq] at hname hids
  have hone : orOne user.tokenVersion = user.tokenVersion := if_neg (hversion user hmem)
  rw [hone] at hver
  have hactive : user.isActive = true := by simpa using hactive
  exact ⟨fun hsub => hnamed (.inl hsub), user, hmem, hname, hactive, not_not.mp hver, row, hrowMem,
    hids.1, hids.2, not_not.mp hrevoked, Nat.lt_of_not_le hexpires, hexp⟩

/-- The only user with a name, and the only session with a token id, are what a search finds. -/
theorem first_username {s : State} (h : s.Constraints) {user : User} (hu : user ∈ s.users.rows) :
    s.users.first (fun u => u.username = user.username) = some user := by
  refine (Table.find?_eq_some_iff_of_unique ?_ user).mpr ⟨hu, by simp⟩
  intro x hx y hy hpx hpy
  simp only [decide_eq_true_eq] at hpx hpy
  exact h.username x hx y hy (by simp) (congrArg some (hpx.trans hpy.symm))

/-- A session is found by its token id and its user, since token ids are unique. -/
theorem first_tokenId {s : State} (h : s.Constraints) {row : AuthSession}
    (hrow : row ∈ s.sessions.rows) :
    s.sessions.first (fun r => r.tokenId = row.tokenId && r.userId = row.userId) = some row := by
  refine (Table.find?_eq_some_iff_of_unique ?_ row).mpr ⟨hrow, by simp⟩
  intro x hx y hy hpx hpy
  simp only [Bool.and_eq_true, decide_eq_true_eq] at hpx hpy
  exact h.tokenId x hx y hy (by simp) (congrArg some (hpx.1.trans hpy.1.symm))

/-- A token that the state honours is accepted if it was issued for a user with a name. -/
theorem State.Honours.accepted {s : State} {claims : Claims} (hinv : Inv s)
    (hc : s.Constraints) {userId : ℕ} (hissued : .issued claims userId ∈ s.history)
    (hsub : claims.sub ≠ "") (h : s.Honours claims) : Accepted s claims := by
  obtain ⟨user, hu, hname, hactive, hver, row, hrow, hid, hown, hrevoked, hexpires, hexp⟩ := h
  obtain ⟨hjti, htyp, hiat, -⟩ := hinv.issued claims userId hissued
  have hone : orOne user.tokenVersion = user.tokenVersion := if_neg (hinv.version user hu)
  have hfirst := first_username hc hu
  have hsession := first_tokenId hc hrow
  rw [hname] at hfirst
  rw [hid, hown] at hsession
  refine ⟨user, (getUserFromToken_eq_ok s _ user).mpr ⟨claims, ?_, ?_, hfirst, ?_, ?_, row,
    hsession, not_not.mpr hrevoked, Nat.not_le_of_lt hexpires⟩⟩
  · exact decode_signed.mpr ⟨rfl, hiat, hexp⟩
  · simp [hsub, hjti, htyp]
  · simp [hactive]
  · rw [hone]
    exact not_not.mpr hver

/-- A token with a revoked session row is not accepted. -/
theorem State.Dead.not_accepted {s : State} {claims : Claims} (hc : s.Constraints)
    (hversion : ∀ u ∈ s.users.rows, u.tokenVersion ≠ 0) (h : s.Dead claims.jti) :
    ¬ Accepted s claims := by
  intro haccepted
  obtain ⟨-, user, -, -, -, -, row, hrow, hid, -, hrevoked, -⟩ := haccepted.honours hversion
  obtain ⟨dead, hdead, hid', hdeadRevoked⟩ := h
  have heq : dead = row :=
    hc.tokenId dead hdead row hrow (by simp) (congrArg some (hid'.trans hid.symm))
  rw [heq] at hdeadRevoked
  exact hdeadRevoked hrevoked

/-! ## A name is reused, and a name is empty -/

instance (s : State) (claims : Claims) : Decidable (s.Honours claims) := by
  unfold State.Honours
  infer_instance

instance (s : State) (claims : Claims) : Decidable (Accepted s claims) :=
  match h : getUserFromToken s (.signed claims) with
  | .ok user => isTrue ⟨user, h⟩
  | .error e => isFalse (by
    rintro ⟨user, hok⟩
    rw [h] at hok
    cases hok)

/-- Requests one after the other, if none raises. -/
def runAll (lib : Library) (settings : Settings) : List Request → State → Option State
  | [], s => some s
  | r :: requests, s =>
    match (r.run lib settings).run s with
    | .ok (_, t) => runAll lib settings requests t
    | .error _ => none

/-- The state after a list of requests is reached. -/
theorem reach_of_runAll {requests : List Request} {s t : State}
    (h : runAll lib settings requests s = some t) : Reach lib settings s t := by
  induction requests generalizing s with
  | nil =>
    cases h
    exact Relation.ReflTransGen.refl
  | cons r requests ih =>
    unfold runAll at h
    split at h
    · rename_i hrun
      exact Relation.ReflTransGen.head (.request r hrun) (ih h)
    · cases h

/-- Requests that lead to a state with a property exhibit a reachable one. -/
theorem exists_of_runAll {requests : List Request} {s : State} {P : State → Bool}
    (h : (runAll lib settings requests s).any P = true) :
    ∃ t, Reach lib settings s t ∧ P t = true := by
  cases hrun : runAll lib settings requests s with
  | none =>
    rw [hrun] at h
    cases h
  | some t =>
    rw [hrun] at h
    exact ⟨t, reach_of_runAll hrun, h⟩

namespace Fixture

def library : Library where
  hash password := "#" ++ password
  verify password hash := hash = "#" ++ password
  attemptKey username _ := username
  ilike a b := a = b
  strip text := text
  lower text := text
  islower c := 'a' ≤ c && c ≤ 'z'
  isupper c := 'A' ≤ c && c ≤ 'Z'
  isdigit c := '0' ≤ c && c ≤ '9'
  isalnum c := c ≠ '-'

def users : Table User (·.id) where
  rows := [⟨1, "root", "root@lab", "#r", 1, true, false, 1⟩,
    ⟨2, "ada", "ada@lab", "#a", 2, true, false, 1⟩]
  next := 3
  nodup := by decide
  bounded := by decide

def start : State := ⟨users, .empty, [], [⟨1, "Admin"⟩, ⟨2, "Student"⟩], 0, []⟩

def rootToken : Claims := ⟨"root", "t1", 1, 0, 3600, "access"⟩

def adaToken : Claims := ⟨"ada", "t2", 1, 0, 3600, "access"⟩

/-- The user is renamed, and another user gets the name. -/
def renamed : List Request :=
  [.login "root" "r" none ⟨"t1", by decide⟩, .login "ada" "a" none ⟨"t2", by decide⟩,
    .patchAdminUser (.signed rootToken) 2 { username := some "eve" },
    .createAdminUser (.signed rootToken) "ada" "new@lab" "Longenough-12" none (some 2) true false]

def namelessToken : Claims := ⟨"", "t2", 2, 0, 3600, "access"⟩

/-- The user is renamed to the empty name and logs in. -/
def nameless : List Request :=
  [.login "root" "r" none ⟨"t1", by decide⟩,
    .patchAdminUser (.signed rootToken) 2 { username := some "" },
    .login "" "a" none ⟨"t2", by decide⟩]

/-- The fixture starts with nothing issued or revoked. -/
theorem start_initial : start.Initial := ⟨rfl, by decide, by decide⟩

end Fixture

/-- A token that was issued before all sessions of its user were revoked, or whose session was
revoked, is rejected from then on; any other issued token is accepted exactly when its subject is
a name and the state honours it. -/
theorem token_revocation_final (lib : Library) (settings : Settings) (start s : State)
    (hstart : start.Initial) (hreach : Reach lib settings start s) :
    (∀ claims, Superseded s.history claims → ¬ Accepted s claims) ∧
      (∀ claims userId, .issued claims userId ∈ s.history → .revoked claims.jti ∈ s.history →
        ¬ Accepted s claims) ∧
      ∀ claims userId, .issued claims userId ∈ s.history →
        (Accepted s claims ↔ claims.sub ≠ "" ∧ s.Honours claims) := by
  obtain ⟨hinv, hc⟩ := reach_inv hstart hreach
  refine ⟨?_, ?_, ?_⟩
  · intro claims hsup
    exact (hinv.superseded claims hsup).not_accepted hc hinv.version
  · intro claims userId _ hrevoked
    exact (hinv.revoked claims.jti hrevoked).not_accepted hc hinv.version
  · intro claims userId hissued
    constructor
    · exact fun h => h.honours hinv.version
    · exact fun h => h.2.accepted hinv hc hissued h.1

namespace Fixture

set_option maxRecDepth 100000 in
/-- Whoever logs in under a name that is free again, the old token stays rejected. -/
theorem token_revocation_final_renamed :
    ∃ s, Reach library {} start s ∧ (∃ u ∈ s.users.rows, u.username = adaToken.sub) ∧
      ¬ Accepted s adaToken := by
  have hplay : (runAll library {} renamed start).any (fun s =>
      (∃ u ∈ s.users.rows, u.username = adaToken.sub) ∧
        s.history = [.revokedAll 2, .issued adaToken 2, .issued rootToken 1]) = true := by
    decide +kernel
  obtain ⟨s, hreach, hs⟩ := exists_of_runAll hplay
  obtain ⟨hname, hhistory⟩ := of_decide_eq_true hs
  have hfinal := token_revocation_final library {} start s start_initial hreach
  have hsuperseded : Superseded s.history adaToken := by
    refine ⟨2, [.issued adaToken 2, .issued rootToken 1], ?_, ?_⟩
    · rw [hhistory]
    · simp
  exact ⟨s, hreach, hname, hfinal.1 adaToken hsuperseded⟩

set_option maxRecDepth 100000 in
/-- A token for the empty name is rejected although the state honours it. -/
theorem honoured_nameless_rejected :
    start.Initial ∧ ∃ s, Reach library {} start s ∧ .issued namelessToken 2 ∈ s.history ∧
      s.Honours namelessToken ∧ ¬ Accepted s namelessToken := by
  have hplay : (runAll library {} nameless start).any (fun s =>
      .issued namelessToken 2 ∈ s.history ∧ s.Honours namelessToken ∧
        ¬ Accepted s namelessToken) = true := by
    decide +kernel
  obtain ⟨s, hreach, hs⟩ := exists_of_runAll hplay
  exact ⟨start_initial, s, hreach, of_decide_eq_true hs⟩

end Fixture

end LabGoblin.Accounts
