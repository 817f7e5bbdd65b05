import LabGoblin.Computation.Outcome
import LabGoblin.Model.Accounts

/-!
# The login throttle

The attempts on one key are counted from the first failure of the current window. When a failure
comes after the end of that window the counter restarts, and the failures just before it are
forgotten, however recent they are. Where no failure restarts the counter over a recent failure,
enough failures within one window block the key.
-/

set_option autoImplicit false

namespace LabGoblin.Accounts

open Interactive

/-! ## The attempts on a key -/

inductive LoginOutcome where
  | succeeded
  | failed
  | denied
  | refused
  deriving DecidableEq

structure Attempt where
  instant : ℕ
  outcome : LoginOutcome
  deriving DecidableEq

/-- How a login ended: a token, a failure that was recorded, a disabled account, or an exception
that left nothing behind. -/
def loginOutcome : Except Exc (Except Exc Claims × State) → LoginOutcome
  | .ok (.ok _, _) => .succeeded
  | .ok (.error (.http 401 _), _) => .failed
  | .ok (.error _, _) => .denied
  | .error _ => .refused

/-- The state after a transaction. -/
def State.after (s : State) : Except Exc (Except Exc Claims × State) → State
  | .ok (_, s') => s'
  | .error _ => s

/-- The rows of a key. -/
def State.rowsOf (s : State) (key : String) : List AuthLoginAttempt :=
  s.attempts.filter (·.keyHash = key)

/-- The attempts on a key, the latest first, from a state in which the key has no row. Between
them anything may happen that leaves the row of the key alone. An attempt that fails does so in a
state that `admits` it. -/
inductive Logins (lib : Library) (settings : Settings) (key : String)
    (admits : List Attempt → State → Prop) : List Attempt → State → Prop
  | start (s : State) (h : s.rowsOf key = []) : Logins lib settings key admits [] s
  | attempt {past : List Attempt} {s : State} (h : Logins lib settings key admits past s)
      (username password : String) (clientIp : Option String) (tokenId : String)
      (hkey : lib.attemptKey username clientIp = key)
      (hadmits : loginOutcome
        ((loginUser lib settings username password clientIp tokenId).run s) = .failed →
          admits past s) :
      Logins lib settings key admits
        (⟨s.clock, loginOutcome
          ((loginUser lib settings username password clientIp tokenId).run s)⟩ :: past)
        (s.after ((loginUser lib settings username password clientIp tokenId).run s))
  | meanwhile {past : List Attempt} {s s' : State} (h : Logins lib settings key admits past s)
      (hclock : s.clock ≤ s'.clock) (hrows : s'.rowsOf key = s.rowsOf key) :
      Logins lib settings key admits past s'

/-- The instants of the failed attempts. -/
def failedAt (attempts : List Attempt) : List ℕ :=
  (attempts.filter (·.outcome = .failed)).map Attempt.instant

/-- At `last` as many attempts had failed within one window as the settings allow, with no
success in between. -/
def Exhausted (settings : Settings) (past : List Attempt) (last : ℕ) : Prop :=
  ∃ later attempts earlier before, past = later ++ (attempts ++ earlier) ∧
    (∀ a ∈ attempts, a.outcome ≠ .succeeded) ∧ failedAt attempts = last :: before ∧
    settings.loginMaxFailures ≤ before.length + 1 ∧
    ∀ i ∈ before, last ≤ i + microseconds settings.loginFailureWindowSeconds

/-- Every attempt on the key is refused while the lockout lasts, whatever the verification of
the password would say. -/
def Throttled (lib : Library) (settings : Settings) (key : String) (past : List Attempt)
    (s : State) : Prop :=
  ∀ last, Exhausted settings past last →
    s.clock < last + microseconds settings.loginLockoutSeconds →
    ∀ verify username password clientIp tokenId, lib.attemptKey username clientIp = key →
      (loginUser { lib with verify := verify } settings username password clientIp tokenId).run s =
        .error (.http 429 "Too many login attempts. Try again later.")

/-- The failures since the last success. -/
def openFailures : List Attempt → List ℕ
  | [] => []
  | ⟨i, .failed⟩ :: past => i :: openFailures past
  | ⟨_, .succeeded⟩ :: _ => []
  | _ :: past => openFailures past

/-- Where the window of the row is over, the failures since the last success are older than a
window. -/
def NoEarlyRestart (settings : Settings) (key : String) (past : List Attempt) (s : State) : Prop :=
  ∀ row ∈ s.rowsOf key,
    microseconds settings.loginFailureWindowSeconds < s.clock - row.firstFailureAt →
      ∀ i ∈ openFailures past, i + microseconds settings.loginFailureWindowSeconds < s.clock

/-! ## One login -/

section Login

variable {lib : Library} {settings : Settings} {key : String} {s : State}

/-- The key is blocked. -/
def Blocked (s : State) (key : String) : Prop :=
  ∃ row ∈ s.rowsOf key, ∃ limit, row.blockedUntil = some limit ∧ s.clock < limit

/-- Whether a key is blocked can be computed from the attempts. -/
theorem blocked_iff : Blocked s key ↔ (s.attempts.any fun row =>
    row.keyHash = key && row.blockedUntil.any fun until_ => s.clock < until_) = true := by
  simp only [Blocked, State.rowsOf, List.mem_filter, decide_eq_true_eq, List.any_eq_true,
    Bool.and_eq_true, Option.any_eq_true, and_assoc]

/-- A login under a blocked key is refused. -/
theorem checkLoginAllowed_of_blocked (h : Blocked s key) :
    (checkLoginAllowed key).run s =
      .error (.http 429 "Too many login attempts. Try again later.") := by
  rw [blocked_iff] at h
  have hrun : (checkLoginAllowed key).run s = (raiseIf ((s.attempts.any fun row =>
      row.keyHash = key && row.blockedUntil.any fun until_ => s.clock < until_) = true) 429
      "Too many login attempts. Try again later.").run s := rfl
  rw [hrun, raiseIf, if_pos h]
  rfl

/-- A login under a key that is not blocked goes on. -/
theorem checkLoginAllowed_of_not (h : ¬ Blocked s key) :
    (checkLoginAllowed key).run s = .ok ((), s) := by
  rw [blocked_iff] at h
  have hrun : (checkLoginAllowed key).run s = (raiseIf ((s.attempts.any fun row =>
      row.keyHash = key && row.blockedUntil.any fun until_ => s.clock < until_) = true) 429
      "Too many login attempts. Try again later.").run s := rfl
  rw [hrun, raiseIf, if_neg h]
  rfl

/-- A blocked key is refused before the password is looked at. -/
theorem loginUser_of_blocked {username password tokenId : String} {clientIp : Option String}
    (h : Blocked s (lib.attemptKey username clientIp)) :
    (loginUser lib settings username password clientIp tokenId).run s =
      .error (.http 429 "Too many login attempts. Try again later.") := by
  unfold loginUser
  rw [StateT.run_bind, checkLoginAllowed_of_blocked h]
  rfl

/-- The row after a failure. -/
def AuthLoginAttempt.counted (maxFailures window lockout now : ℕ) (row : AuthLoginAttempt) :
    AuthLoginAttempt :=
  let row :=
    if now - row.firstFailureAt > window then
      { row with failures := 0, firstFailureAt := now, blockedUntil := none }
    else row
  { row with
    failures := row.failures + 1
    blockedUntil :=
      if row.failures + 1 ≥ maxFailures then some (now + lockout) else row.blockedUntil }

/-- Counting a failure does not change the key of its row. -/
theorem counted_keyHash (maxFailures window lockout now : ℕ) (row : AuthLoginAttempt) :
    (row.counted maxFailures window lockout now).keyHash = row.keyHash := by
  unfold AuthLoginAttempt.counted
  dsimp only
  split <;> rfl

/-- Replacing the rows of a key by one row leaves that one. -/
theorem filter_replaced {row : AuthLoginAttempt} (h : row.keyHash = key)
    (attempts : List AuthLoginAttempt) :
    (row :: attempts.filter (·.keyHash ≠ key)).filter (·.keyHash = key) = [row] := by
  rw [List.filter_cons_of_pos (by simpa using h), List.filter_filter]
  simp

/-- The rows of the key after a failure that is recorded. -/
theorem rows_of_failure {t : State}
    (h : (recordLoginFailure settings key).run s = .ok ((), t)) :
    t.clock = s.clock ∧ t.rowsOf key =
      [((s.rowsOf key).headD ⟨key, 0, s.clock, none⟩).counted settings.loginMaxFailures
        (microseconds settings.loginFailureWindowSeconds)
        (microseconds settings.loginLockoutSeconds) s.clock] := by
  unfold recordLoginFailure at h
  cases h
  refine ⟨rfl, ?_⟩
  generalize microseconds settings.loginFailureWindowSeconds = window
  generalize microseconds settings.loginLockoutSeconds = lockout
  have hfind : s.attempts.find? (·.keyHash = key) = (s.rowsOf key).head? := by
    rw [State.rowsOf, List.head?_filter]
  simp only [hfind, List.headD_eq_head?_getD]
  cases hhead : (s.rowsOf key).head? with
  | none =>
    refine Eq.trans ?_ (filter_replaced
      (counted_keyHash settings.loginMaxFailures window lockout s.clock ⟨key, 0, s.clock, none⟩)
      s.attempts)
    simp [State.rowsOf, AuthLoginAttempt.counted]
  | some row =>
    have hmem : row ∈ s.rowsOf key := List.mem_of_mem_head? hhead
    have hkey : row.keyHash = key := by simpa [State.rowsOf] using (List.mem_filter.mp hmem).2
    refine Eq.trans ?_ (filter_replaced
      ((counted_keyHash settings.loginMaxFailures window lockout s.clock row).trans hkey)
      s.attempts)
    by_cases hover : s.clock - row.firstFailureAt > window
    · simp only [State.rowsOf, AuthLoginAttempt.counted, if_pos hover]
    · simp only [State.rowsOf, AuthLoginAttempt.counted, if_neg hover]

/-- A commit changes nothing of the state. -/
theorem state_of_commit {t : State} {u : Unit} (h : commit.run s = .ok (u, t)) : t = s := by
  unfold commit at h
  obtain ⟨_, s₁, hget, h⟩ := run_bind_eq_ok h
  cases hget
  by_cases hc : s.Constraints
  · simp only [hc] at h
    cases h
    rfl
  · simp only [hc] at h
    cases h

/-- Issuing a session takes no time and leaves the attempts. -/
theorem attempts_of_issue {user : User} {tokenId : String} {claims : Claims} {t : State}
    (h : (issueSession settings user tokenId).run s = .ok (claims, t)) :
    t.clock = s.clock ∧ t.attempts = s.attempts := by
  unfold issueSession at h
  obtain ⟨_, s₁, hget, h⟩ := run_bind_eq_ok h
  cases hget
  dsimp only at h
  obtain ⟨_, s₂, hset, h⟩ := run_bind_eq_ok h
  cases hset
  cases h
  exact ⟨rfl, rfl⟩

/-- What a login that was not refused may have done to the row of the key. -/
inductive RowStep (settings : Settings) (key : String) (s : State) :
    Except Exc Claims → State → Prop
  | failed (t : State) (hclock : t.clock = s.clock)
      (hrows : t.rowsOf key =
        [((s.rowsOf key).headD ⟨key, 0, s.clock, none⟩).counted settings.loginMaxFailures
          (microseconds settings.loginFailureWindowSeconds)
          (microseconds settings.loginLockoutSeconds) s.clock]) :
      RowStep settings key s (.error (.http 401 "Invalid credentials")) t
  | denied : RowStep settings key s (.error (.http 403 "User account is disabled")) s
  | succeeded (claims : Claims) (t : State) (hclock : t.clock = s.clock)
      (hrows : t.rowsOf key = []) : RowStep settings key s (.ok claims) t

/-- After a success the key has no row. -/
theorem rows_of_clear {t : State} (h : (clearLoginFailures key).run s = .ok ((), t)) :
    t.clock = s.clock ∧ t.rowsOf key = [] := by
  unfold clearLoginFailures at h
  cases h
  refine ⟨rfl, ?_⟩
  simp only [State.rowsOf, List.filter_filter]
  simp

/-- A login that ends normally was not blocked, and takes one of the three steps. -/
theorem rowStep_of_login {username password tokenId : String} {clientIp : Option String}
    {result : Except Exc Claims} {t : State}
    (h : (loginUser lib settings username password clientIp tokenId).run s = .ok (result, t)) :
    ¬ Blocked s (lib.attemptKey username clientIp) ∧
      RowStep settings (lib.attemptKey username clientIp) s result t := by
  have hfree : ¬ Blocked s (lib.attemptKey username clientIp) := by
    intro hblocked
    rw [loginUser_of_blocked hblocked] at h
    cases h
  refine ⟨hfree, ?_⟩
  unfold loginUser at h
  obtain ⟨_, s₁, hcheck, h⟩ := run_bind_eq_ok h
  rw [checkLoginAllowed_of_not hfree] at hcheck
  cases hcheck
  obtain ⟨_, s₂, hget, h⟩ := run_bind_eq_ok h
  cases hget
  dsimp only at h
  split at h
  · split at h
    · obtain ⟨_, s₃, hcommit, h⟩ := run_bind_eq_ok h
      cases h
      rw [state_of_commit hcommit]
      exact .denied
    · obtain ⟨_, s₃, hclear, h⟩ := run_bind_eq_ok h
      obtain ⟨claims, s₄, hissue, h⟩ := run_bind_eq_ok h
      obtain ⟨_, s₅, hcommit, h⟩ := run_bind_eq_ok h
      cases h
      rw [state_of_commit hcommit]
      obtain ⟨hclock, hrows⟩ := rows_of_clear hclear
      obtain ⟨hclock', hattempts⟩ := attempts_of_issue hissue
      refine .succeeded claims s₄ (hclock'.trans hclock) ?_
      rw [State.rowsOf, hattempts]
      exact hrows
  · obtain ⟨_, s₃, hfailure, h⟩ := run_bind_eq_ok h
    obtain ⟨_, s₄, hcommit, h⟩ := run_bind_eq_ok h
    cases h
    rw [state_of_commit hcommit]
    obtain ⟨hclock, hrows⟩ := rows_of_failure hfailure
    exact .failed s₃ hclock hrows

end Login

/-! ## What has been counted -/

section Counting

variable {settings : Settings} {key : String} {past : List Attempt} {s t : State}

/-- Within the attempts after the last success all failures are open. -/
theorem openFailures_append {attempts earlier : List Attempt}
    (h : ∀ a ∈ attempts, a.outcome ≠ .succeeded) :
    openFailures (attempts ++ earlier) = failedAt attempts ++ openFailures earlier := by
  induction attempts with
  | nil => rfl
  | cons a attempts ih =>
    have hrest := ih fun b hb => h b (List.mem_cons_of_mem _ hb)
    have ha := h a List.mem_cons_self
    obtain ⟨instant, outcome⟩ := a
    cases outcome with
    | succeeded => exact absurd rfl ha
    | failed => simp [openFailures, failedAt, hrest]
    | denied => simp [openFailures, failedAt, hrest]
    | refused => simp [openFailures, failedAt, hrest]

/-- An attempt that did not fail exhausts nothing. -/
theorem Exhausted.of_cons {a : Attempt} {last : ℕ} (h : Exhausted settings (a :: past) last)
    (ha : a.outcome ≠ .failed) : Exhausted settings past last := by
  obtain ⟨later, attempts, earlier, before, hpast, hno, hfailed, hmax, hwindow⟩ := h
  cases later with
  | cons b later =>
    cases hpast
    exact ⟨later, attempts, earlier, before, rfl, hno, hfailed, hmax, hwindow⟩
  | nil =>
    cases attempts with
    | nil => cases hfailed
    | cons b attempts =>
      cases hpast
      refine ⟨[], attempts, earlier, before, rfl, ?_, ?_, hmax, hwindow⟩
      · exact fun c hc => hno c (List.mem_cons_of_mem _ hc)
      · rw [← hfailed]
        simp [failedAt, ha]

/-- A failure that exhausts anew is the last of open failures within one window. -/
theorem Exhausted.of_failed {now last : ℕ} (h : Exhausted settings (⟨now, .failed⟩ :: past) last) :
    Exhausted settings past last ∨ (last = now ∧ ∃ before rest, openFailures past = before ++ rest ∧
      settings.loginMaxFailures ≤ before.length + 1 ∧
      ∀ i ∈ before, now ≤ i + microseconds settings.loginFailureWindowSeconds) := by
  obtain ⟨later, attempts, earlier, before, hpast, hno, hfailed, hmax, hwindow⟩ := h
  cases later with
  | cons b later =>
    cases hpast
    exact .inl ⟨later, attempts, earlier, before, rfl, hno, hfailed, hmax, hwindow⟩
  | nil =>
    cases attempts with
    | nil => cases hfailed
    | cons b attempts =>
      cases hpast
      have hrest : failedAt (⟨now, .failed⟩ :: attempts) = now :: failedAt attempts := by
        simp [failedAt]
      rw [hrest] at hfailed
      cases hfailed
      refine .inr ⟨rfl, failedAt attempts, openFailures earlier, ?_, hmax, hwindow⟩
      exact openFailures_append fun c hc => hno c (List.mem_cons_of_mem _ hc)

/-- What holds of the row of the key after the attempts: it counts the open failures that are
within a window of all of them, and it blocks the key as long as it must. -/
structure Counted (settings : Settings) (key : String) (past : List Attempt) (s : State) :
    Prop where
  open_le : ∀ i ∈ openFailures past, i ≤ s.clock
  row : s.rowsOf key = [] ∧ openFailures past = [] ∨ ∃ row, s.rowsOf key = [row] ∧
    ∀ first, (∀ i ∈ openFailures past,
        i ≤ first + microseconds settings.loginFailureWindowSeconds) →
      ((openFailures past).filter (first ≤ ·)).length ≤ row.failures
  blocked : ∀ last, Exhausted settings past last →
    s.clock < last + microseconds settings.loginLockoutSeconds → ∃ row ∈ s.rowsOf key, ∃ limit,
      row.blockedUntil = some limit ∧ last + microseconds settings.loginLockoutSeconds ≤ limit

/-- A key that has exhausted its attempts is blocked until the lockout is over. -/
theorem Counted.blocks (h : Counted settings key past s) {last : ℕ}
    (hexhausted : Exhausted settings past last)
    (hactive : s.clock < last + microseconds settings.loginLockoutSeconds) : Blocked s key := by
  obtain ⟨row, hrow, limit, hlimit, hle⟩ := h.blocked last hexhausted hactive
  exact ⟨row, hrow, limit, hlimit, Nat.lt_of_lt_of_le hactive hle⟩

/-- The count of a row after a failure. -/
theorem counted_failures {maxFailures window lockout now n : ℕ} {row : AuthLoginAttempt}
    (hkeep : now - row.firstFailureAt ≤ window → n ≤ row.failures)
    (hover : window < now - row.firstFailureAt → n = 0) :
    n + 1 ≤ (row.counted maxFailures window lockout now).failures := by
  unfold AuthLoginAttempt.counted
  by_cases h : now - row.firstFailureAt > window
  · simp only [if_pos h]
    have := hover h
    omega
  · simp only [if_neg h]
    have := hkeep (by omega)
    omega

/-- A row whose count reaches the maximum blocks for the lockout. -/
theorem counted_blockedUntil {maxFailures window lockout now : ℕ} {row : AuthLoginAttempt}
    (h : maxFailures ≤ (row.counted maxFailures window lockout now).failures) :
    (row.counted maxFailures window lockout now).blockedUntil = some (now + lockout) := by
  unfold AuthLoginAttempt.counted at h ⊢
  exact if_pos h

/-- A failure is counted, and blocks the key when it is one too many. -/
theorem Counted.failed (h : Counted settings key past s) (hfree : ¬ Blocked s key)
    (hadmits : NoEarlyRestart settings key past s) (hclock : t.clock = s.clock)
    (hrows : t.rowsOf key = [((s.rowsOf key).headD ⟨key, 0, s.clock, none⟩).counted
      settings.loginMaxFailures (microseconds settings.loginFailureWindowSeconds)
      (microseconds settings.loginLockoutSeconds) s.clock]) :
    Counted settings key (⟨s.clock, .failed⟩ :: past) t := by
  have hcount : ∀ first, (∀ i ∈ openFailures past,
      i ≤ first + microseconds settings.loginFailureWindowSeconds) →
      s.clock ≤ first + microseconds settings.loginFailureWindowSeconds →
      ((openFailures past).filter (first ≤ ·)).length + 1 ≤
        (((s.rowsOf key).headD ⟨key, 0, s.clock, none⟩).counted settings.loginMaxFailures
          (microseconds settings.loginFailureWindowSeconds)
          (microseconds settings.loginLockoutSeconds) s.clock).failures := by
    intro first hfirst hnow
    rcases h.row with ⟨hnone, hopen⟩ | ⟨row, hrow, hcounts⟩
    · rw [hnone, hopen]
      exact counted_failures (fun _ => Nat.zero_le _) fun _ => rfl
    · rw [hrow, List.headD_cons]
      refine counted_failures (fun _ => hcounts first hfirst) fun hover => ?_
      have hold := hadmits row (by rw [hrow]; exact List.mem_singleton_self row) hover
      rw [List.length_eq_zero_iff, List.filter_eq_nil_iff]
      intro i hi
      have := hold i hi
      simp only [decide_eq_true_eq]
      omega
  refine ⟨?_, .inr ⟨_, hrows, ?_⟩, ?_⟩
  · intro i hi
    rw [hclock]
    rcases List.mem_cons.mp hi with rfl | hi
    · exact Nat.le_refl _
    · exact h.open_le i hi
  · intro first hfirst
    have hnow := hfirst s.clock List.mem_cons_self
    have hcounted := hcount first (fun i hi => hfirst i (List.mem_cons_of_mem _ hi)) hnow
    refine Nat.le_trans ?_ hcounted
    rw [openFailures, List.filter_cons]
    split <;> simp
  · intro last hexhausted hactive
    rw [hclock] at hactive
    rcases hexhausted.of_failed with hbefore | ⟨rfl, before, rest, hopen, hmax, hwindow⟩
    · exact absurd (h.blocks hbefore hactive) hfree
    · refine ⟨_, by rw [hrows]; exact List.mem_singleton_self _, _, counted_blockedUntil ?_, ?_⟩
      · -- the failures within the window that ends now
        have hcounted := hcount (s.clock - microseconds settings.loginFailureWindowSeconds)
          (fun i hi => by have := h.open_le i hi; omega) (by omega)
        have hall : before.filter (s.clock - microseconds settings.loginFailureWindowSeconds ≤ ·) =
            before := by
          rw [List.filter_eq_self]
          intro i hi
          have := hwindow i hi
          simp only [decide_eq_true_eq]
          omega
        rw [hopen, List.filter_append, hall, List.length_append] at hcounted
        omega
      · exact Nat.le_refl _

/-- An attempt that did not fail and left the row of the key alone. -/
theorem Counted.kept {a : Attempt} (h : Counted settings key past s) (ha : a.outcome = .denied ∨
    a.outcome = .refused) : Counted settings key (a :: past) s := by
  obtain ⟨instant, outcome⟩ := a
  have hopen : openFailures (⟨instant, outcome⟩ :: past) = openFailures past := by
    rcases ha with rfl | rfl <;> rfl
  have hfailed : (⟨instant, outcome⟩ : Attempt).outcome ≠ .failed := by
    rcases ha with rfl | rfl <;> exact nofun
  exact ⟨hopen ▸ h.open_le, hopen ▸ h.row, fun last hexhausted =>
    h.blocked last (hexhausted.of_cons hfailed)⟩

/-- The count is right in every state that the attempts reach. -/
theorem counted_of_logins {lib : Library}
    (h : Logins lib settings key (NoEarlyRestart settings key) past s) :
    Counted settings key past s := by
  induction h with
  | start s h =>
    refine ⟨nofun, .inl ⟨h, rfl⟩, ?_⟩
    rintro last ⟨later, attempts, earlier, before, hpast, -, hfailed, -⟩
    have hnil := List.append_eq_nil_iff.mp hpast.symm
    rw [(List.append_eq_nil_iff.mp hnil.2).1] at hfailed
    cases hfailed
  | @attempt past s _ username password clientIp tokenId hkey hadmits ih =>
    cases hrun : (loginUser lib settings username password clientIp tokenId).run s with
    | error e => exact ih.kept (.inr rfl)
    | ok x =>
      obtain ⟨result, t⟩ := x
      obtain ⟨hfree, hstep⟩ := rowStep_of_login hrun
      rw [hkey] at hfree hstep
      rw [hrun] at hadmits
      cases hstep with
      | failed t hclock hrows => exact ih.failed hfree (hadmits rfl) hclock hrows
      | denied => exact ih.kept (.inl rfl)
      | succeeded claims t hclock hrows =>
        refine ⟨nofun, .inl ⟨hrows, rfl⟩, fun last hexhausted hactive => ?_⟩
        have hbefore := hexhausted.of_cons (show LoginOutcome.succeeded ≠ .failed from nofun)
        exact absurd (ih.blocks hbefore (hclock ▸ hactive)) hfree
  | @meanwhile past s s' _ hclock hrows ih =>
    refine ⟨fun i hi => Nat.le_trans (ih.open_le i hi) hclock, ?_, ?_⟩
    · rw [hrows]
      exact ih.row
    · intro last hexhausted hactive
      rw [hrows]
      exact ih.blocked last hexhausted (Nat.lt_of_le_of_lt hclock hactive)

end Counting

/-- Where no failure restarts the counter over a recent failure, as many failures within one
window as the settings allow have every further attempt refused for the time of the lockout. -/
theorem logins_throttled (lib : Library) (settings : Settings) (key : String)
    (past : List Attempt) (s : State)
    (h : Logins lib settings key (NoEarlyRestart settings key) past s) :
    Throttled lib settings key past s := by
  intro last hexhausted hactive verify username password clientIp tokenId hkey
  have hblocked := (counted_of_logins h).blocks hexhausted hactive
  rw [← hkey] at hblocked
  exact loginUser_of_blocked hblocked

namespace Fixture

/-- Nobody's password is right. -/
def stranger : Library where
  hash := id
  verify _ _ := false
  attemptKey username _ := username
  ilike a b := a = b
  strip := id
  lower := id
  islower := Char.isLower
  isupper := Char.isUpper
  isdigit := Char.isDigit
  isalnum := Char.isAlphanum

def nobody : State := ⟨.empty, .empty, [], [], 0, []⟩

/-- Attempts under one name at some seconds, the latest first. -/
def guessing : List ℕ → List Attempt × State
  | [] => ([], nobody)
  | second :: earlier =>
    let s := { (guessing earlier).2 with clock := microseconds second }
    let r := (loginUser stranger {} "a" "x" none "t").run s
    (⟨s.clock, loginOutcome r⟩ :: (guessing earlier).1, s.after r)

instance (settings : Settings) (key : String) (past : List Attempt) (s : State) :
    Decidable (NoEarlyRestart settings key past s) := by
  unfold NoEarlyRestart
  infer_instance

/-- The clock does not go back, and every attempt is admitted. -/
def admitted (admits : List Attempt → State → Prop) [∀ past s, Decidable (admits past s)] :
    List ℕ → Bool
  | [] => true
  | second :: earlier =>
    (guessing earlier).2.clock ≤ microseconds second &&
      admits (guessing earlier).1 { (guessing earlier).2 with clock := microseconds second } &&
      admitted admits earlier

/-- A computed check that a run of guesses is admitted. -/
theorem logins_guessing {admits : List Attempt → State → Prop}
    [∀ past s, Decidable (admits past s)] {seconds : List ℕ}
    (h : admitted admits seconds = true) :
    Logins stranger {} "a" admits (guessing seconds).1 (guessing seconds).2 := by
  induction seconds with
  | nil => exact .start nobody rfl
  | cons second earlier ih =>
    simp only [admitted, Bool.and_eq_true, decide_eq_true_eq] at h
    obtain ⟨⟨hclock, hadmits⟩, hearlier⟩ := h
    have hwaited : Logins stranger {} "a" admits (guessing earlier).1
        { (guessing earlier).2 with clock := microseconds second } :=
      .meanwhile (ih hearlier) hclock rfl
    exact .attempt hwaited "a" "x" none "t" rfl fun _ => hadmits

def failures (seconds : List ℕ) : List Attempt :=
  seconds.map fun second => ⟨microseconds second, .failed⟩

set_option maxRecDepth 100000 in
/-- Five failures in five seconds block the name. -/
theorem logins_throttled_fifth :
    Exhausted {} (guessing [4, 3, 2, 1, 0]).1 4000000 ∧
      Throttled stranger {} "a" (guessing [4, 3, 2, 1, 0]).1 (guessing [4, 3, 2, 1, 0]).2 := by
  have hpast : (guessing [4, 3, 2, 1, 0]).1 = [] ++ (failures [4, 3, 2, 1, 0] ++ []) := by
    decide +kernel
  have hadmitted : admitted (NoEarlyRestart {} "a") [4, 3, 2, 1, 0] = true := by decide +kernel
  refine ⟨?_, logins_throttled stranger {} "a" _ _ (logins_guessing hadmitted)⟩
  exact ⟨_, _, _, [3000000, 2000000, 1000000, 0], hpast, by decide, by decide, by decide,
    by decide⟩

set_option maxRecDepth 100000 in
/-- The window of the first failure is over when the fourth one comes, so the counter forgets
the second and the third. The sixth failure is the fifth within a minute, and blocks nothing. -/
theorem restart_forgets :
    ¬ ∀ (lib : Library) (settings : Settings) (key : String) (past : List Attempt) (s : State),
      Logins lib settings key (fun _ _ => True) past s → Throttled lib settings key past s := by
  intro hclaim
  have hadmitted : admitted (fun _ _ => True) [303, 302, 301, 260, 250, 0] = true := by
    decide +kernel
  have hthrottled := hclaim stranger {} "a" _ _ (logins_guessing hadmitted)
  have hpast : (guessing [303, 302, 301, 260, 250, 0]).1 =
      [] ++ (failures [303, 302, 301, 260, 250] ++ failures [0]) := by decide +kernel
  have hexhausted : Exhausted {} (guessing [303, 302, 301, 260, 250, 0]).1 303000000 :=
    ⟨_, _, _, [302000000, 301000000, 260000000, 250000000], hpast, by decide, by decide,
      by decide, by decide⟩
  have hrefused := hthrottled 303000000 hexhausted (by decide +kernel) stranger.verify "a" "x" none
    "t" rfl
  have hfailed : loginOutcome ((loginUser stranger {} "a" "x" none "t").run
      (guessing [303, 302, 301, 260, 250, 0]).2) = .failed := by decide +kernel
  have hsame : loginOutcome ((loginUser stranger {} "a" "x" none "t").run
      (guessing [303, 302, 301, 260, 250, 0]).2) = .refused := by
    rw [show (loginUser stranger {} "a" "x" none "t").run _ = _ from hrefused]
    rfl
  rw [hfailed] at hsame
  cases hsame

end Fixture

end LabGoblin.Accounts
