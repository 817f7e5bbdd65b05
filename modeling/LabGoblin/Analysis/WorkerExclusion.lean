import Mathlib.Data.Fintype.Basic
import LabGoblin.Model.WorkerLocks

/-!
# The locks of the workers exclude each other

A holder whose lock has lapsed may still release it. In memory this removes the entry of the
name, whoever made it, and with Redis the key whose token its process remembers, which a thread
of the same process may have overwritten. Apart from such releases, a lock that has not lapsed
stays in the store until its holder gives it back, and nobody else acquires it.
-/

set_option autoImplicit false

namespace LabGoblin.WorkerLocks

open Interactive.Guarded

/-! ## The store in memory -/

section Memory

variable {P H : Type} {process : H → P}

/-- The lock that a holder has not given back. -/
def MemoryPhase.lock : MemoryPhase → Option (Text × ℕ)
  | .holding name limit => some (name, limit)
  | _ => none

def MemorySystem.lock (s : MemorySystem P H) (h : H) : Option (Text × ℕ) := (s.phase h).lock

/-- Every lock that has not lapsed and was not given back is in the store. -/
def MemorySystem.Kept (process : H → P) (s : MemorySystem P H) : Prop :=
  ∀ h name limit, s.lock h = some (name, limit) → s.clock ≤ limit →
    (name, limit) ∈ (s.stores (process h)).entries

/-- Only holders of one process act, and none of them gives a name back while another one has a
lock of it that has not lapsed. -/
def MemoryTimely (process : H → P) (home : P) (s : MemorySystem P H) (a : MemoryAction H) : Prop :=
  (∀ h ∈ a.actor, process h = home) ∧
    match a with
    | .release h => ∀ lock ∈ s.lock h, ∀ h', h' ≠ h → ¬ Holds s.lock s.clock h' lock.1
    | _ => True

instance [DecidableEq P] [DecidableEq H] [Fintype H] (home : P) (s : MemorySystem P H)
    (a : MemoryAction H) : Decidable (MemoryTimely process home s a) :=
  match a with
  | .wait _ => inferInstanceAs (Decidable (_ ∧ True))
  | .readClock _ => inferInstanceAs (Decidable (_ ∧ True))
  | .acquire _ _ _ => inferInstanceAs (Decidable (_ ∧ True))
  | .release h => inferInstanceAs (Decidable (_ ∧
      ∀ lock ∈ s.lock h, ∀ h', h' ≠ h → ¬ Holds s.lock s.clock h' lock.1))

/-- An entry that has not lapsed stays when another lock is acquired. -/
theorem mem_acquire {store : InMemoryWorkerLockStore} {entry : Text × ℕ} {now : ℕ} (name : Text)
    (ttlSeconds : ℕ) (h : entry ∈ store.entries) (hlive : now ≤ entry.2) :
    entry ∈ (store.acquire name ttlSeconds now).2.entries := by
  have hfilter : entry ∈ store.entries.filter fun e => now ≤ e.2 := by simp [h, hlive]
  unfold InMemoryWorkerLockStore.acquire
  dsimp only
  split
  · exact hfilter
  · exact List.mem_cons_of_mem _ hfilter

/-- A lock that is acquired is entered with its limit, and every earlier entry of the name has
lapsed. -/
theorem acquire_succeeds {store : InMemoryWorkerLockStore} {name : Text} {ttlSeconds now : ℕ}
    (h : (store.acquire name ttlSeconds now).1 = true) :
    (name, now + ttlSeconds) ∈ (store.acquire name ttlSeconds now).2.entries ∧
      ∀ entry ∈ store.entries, entry.1 = name → entry.2 < now := by
  unfold InMemoryWorkerLockStore.acquire at h ⊢
  dsimp only at h ⊢
  split at h
  · cases h
  · rename_i hnew
    rw [if_neg hnew]
    refine ⟨List.mem_cons_self, fun entry hentry hname => ?_⟩
    by_contra hlive
    have hfilter : entry ∈ store.entries.filter fun e => now ≤ e.2 := by
      simp [hentry]
      omega
    exact hnew (List.mem_map.mpr ⟨entry, hfilter, hname⟩)

/-- The entries of other names stay when a name is given back. -/
theorem mem_release {store : InMemoryWorkerLockStore} {entry : Text × ℕ} {name : Text}
    (h : entry ∈ store.entries) (hname : entry.1 ≠ name) :
    entry ∈ (store.release name).entries := by
  simp [InMemoryWorkerLockStore.release, h, hname]

/-- What the timely runs keep. -/
structure MemoryInvariant (process : H → P) (home : P) (s : MemorySystem P H) : Prop where
  home : ∀ h, s.phase h ≠ .idle → process h = home
  read : ∀ h now, s.phase h = .reading now → now ≤ s.clock
  kept : s.Kept process
  exclusive : Exclusive s.lock s.clock

variable {home : P} {s s' : MemorySystem P H}

/-- The invariant holds at the start, with no entries. -/
theorem MemoryInvariant.start : MemoryInvariant process home {} where
  home := fun _ h => absurd rfl h
  read := fun _ _ h => by cases h
  kept := fun _ _ _ h => by cases h
  exclusive := by
    rintro h h' k ⟨limit, hlock, -⟩
    cases hlock

/-- Time passes, and what has not lapsed is still in the store. -/
theorem MemoryInvariant.wait (h : MemoryInvariant process home s) (seconds : ℕ) :
    MemoryInvariant process home { s with clock := s.clock + seconds } where
  home := h.home
  read := fun a now ha => by
    have hread := h.read a now ha
    exact hread.trans (by dsimp only; omega)
  kept := fun a name limit hlock hlimit => by
    dsimp only at hlimit
    exact h.kept a name limit hlock (by omega)
  exclusive := h.exclusive.later (by dsimp only; omega)

variable [DecidableEq H]

/-- A step of one holder changes the lock of that holder only. -/
theorem lock_update (s : MemorySystem P H) (stores : P → InMemoryWorkerLockStore) (h : H)
    (phase : MemoryPhase) :
    MemorySystem.lock { s with stores := stores, phase := Function.update s.phase h phase } =
      Function.update s.lock h phase.lock :=
  Function.comp_update MemoryPhase.lock s.phase h phase

/-- A holder's phase changes, and it is given no lock. -/
theorem MemoryInvariant.change (hinv : MemoryInvariant process home s) {h : H}
    {phase : MemoryPhase} {stores : P → InMemoryWorkerLockStore} (hhome : process h = home)
    (hread : ∀ now, phase = .reading now → now ≤ s.clock) (hnone : phase.lock = none)
    (hstores : ∀ h' name limit, h' ≠ h → s.lock h' = some (name, limit) → s.clock ≤ limit →
      (name, limit) ∈ (stores (process h')).entries) :
    MemoryInvariant process home
      { s with stores := stores, phase := Function.update s.phase h phase } where
  home := fun a ha => by
    by_cases hah : a = h
    · rw [hah]
      exact hhome
    · dsimp only at ha
      rw [Function.update_of_ne hah] at ha
      exact hinv.home a ha
  read := fun a now ha => by
    rcases update_cases ha with ⟨-, ha⟩ | ⟨-, ha⟩
    · exact hread now ha
    · exact hinv.read a now ha
  kept := fun a name limit hlock hlimit => by
    rw [lock_update, hnone] at hlock
    rcases update_cases hlock with ⟨-, hlock⟩ | ⟨hah, hlock⟩
    · cases hlock
    · exact hstores a name limit hah hlock hlimit
  exclusive := by
    rw [lock_update, hnone]
    exact hinv.exclusive.release h

/-- The holder gets the lock: no lock of the name was left. -/
theorem MemoryInvariant.acquire [DecidableEq P] (hinv : MemoryInvariant process home s) {h : H}
    {now : ℕ} (hphase : s.phase h = .reading now) {name : Text} {ttlSeconds : ℕ}
    (hacquired : ((s.stores (process h)).acquire name ttlSeconds now).1 = true) :
    MemoryInvariant process home { s with
      stores := Function.update s.stores (process h)
        ((s.stores (process h)).acquire name ttlSeconds now).2
      phase := Function.update s.phase h (.holding name (now + ttlSeconds)) } := by
  have hhome : process h = home := hinv.home h (by rw [hphase]; simp)
  have hnow := hinv.read h now hphase
  obtain ⟨hentry, hfree⟩ := acquire_succeeds hacquired
  have hsame : ∀ a name' limit, s.lock a = some (name', limit) → process a = process h := by
    intro a name' limit hlock
    rw [hhome]
    refine hinv.home a fun hidle => ?_
    unfold MemorySystem.lock at hlock
    rw [hidle] at hlock
    cases hlock
  refine ⟨fun a ha => ?_, fun a now' ha => ?_, fun a name' limit hlock hlimit => ?_, ?_⟩
  · by_cases hah : a = h
    · rw [hah]
      exact hhome
    · dsimp only at ha
      rw [Function.update_of_ne hah] at ha
      exact hinv.home a ha
  · rcases update_cases ha with ⟨-, ha⟩ | ⟨-, ha⟩
    · cases ha
    · exact hinv.read a now' ha
  · dsimp only at hlimit ⊢
    rw [lock_update] at hlock
    rcases update_cases hlock with ⟨hah, hlock⟩ | ⟨-, hlock⟩
    · cases hlock
      rw [hah, Function.update_self]
      exact hentry
    · have hold := hinv.kept a name' limit hlock hlimit
      rw [hsame a name' limit hlock] at hold ⊢
      rw [Function.update_self]
      exact mem_acquire name ttlSeconds hold (by dsimp only; omega)
  · rw [lock_update]
    refine hinv.exclusive.acquire (now + ttlSeconds) fun a ⟨limit, hlock, hlimit⟩ => ?_
    have hold := hinv.kept a name limit hlock hlimit
    rw [hsame a name limit hlock] at hold
    have hlapsed := hfree _ hold rfl
    dsimp only at hlapsed
    omega

/-- Every timely step in memory keeps the invariant. -/
theorem MemoryInvariant.step [DecidableEq P] (hinv : MemoryInvariant process home s)
    {a : MemoryAction H} (htimely : MemoryTimely process home s a)
    (h : s.step process a = some s') : MemoryInvariant process home s' := by
  obtain ⟨hactor, hrelease⟩ := htimely
  cases a with
  | wait seconds =>
    cases h
    exact hinv.wait seconds
  | readClock h₀ =>
    simp only [MemorySystem.step] at h
    split at h
    · cases h
      refine hinv.change (hactor h₀ rfl) (fun now hnow => ?_) rfl
        fun a name limit _ hlock hlimit => hinv.kept a name limit hlock hlimit
      cases hnow
      exact le_rfl
    · cases h
  | acquire h₀ name ttlSeconds =>
    simp only [MemorySystem.step] at h
    split at h
    · rename_i now hphase
      cases h
      have hnow := hinv.read h₀ now hphase
      cases hacquired : ((s.stores (process h₀)).acquire name ttlSeconds now).1 with
      | true => exact hinv.acquire hphase hacquired
      | false =>
        refine hinv.change (hactor h₀ rfl) (fun now' hnow' => by cases hnow') rfl
          fun a name' limit _ hlock hlimit => ?_
        have hold := hinv.kept a name' limit hlock hlimit
        by_cases hp : process a = process h₀
        · rw [hp] at hold ⊢
          rw [Function.update_self]
          exact mem_acquire name ttlSeconds hold (by dsimp only; omega)
        · rw [Function.update_of_ne hp]
          exact hold
    · cases h
  | release h₀ =>
    simp only [MemorySystem.step] at h
    split at h
    · rename_i name limit₀ hphase
      cases h
      refine hinv.change (hactor h₀ rfl) (fun now' hnow' => by cases hnow') rfl
        fun a name' limit ha hlock hlimit => ?_
      have hown : (name, limit₀) ∈ s.lock h₀ := by
        unfold MemorySystem.lock
        rw [hphase]
        rfl
      have hother := hrelease _ hown a ha
      have hne : name' ≠ name := by
        rintro rfl
        exact hother ⟨limit, hlock, hlimit⟩
      have hold := hinv.kept a name' limit hlock hlimit
      by_cases hp : process a = process h₀
      · rw [hp] at hold ⊢
        rw [Function.update_self]
        exact mem_release hold hne
      · rw [Function.update_of_ne hp]
        exact hold
    · cases h

end Memory

/-! ## The store in Redis -/

section Redis

variable {P H T : Type} {process : H → P}

/-- The name, the token and the limit of a lock that has not been given back. -/
def RedisPhase.claim : RedisPhase T → Option (Text × T × ℕ)
  | .recording name token limit => some (name, token, limit)
  | .holding name token limit => some (name, token, limit)
  | _ => none

def RedisPhase.lock (phase : RedisPhase T) : Option (Text × ℕ) :=
  phase.claim.map fun c => (c.1, c.2.2)

def RedisSystem.lock (s : RedisSystem P H T) (h : H) : Option (Text × ℕ) := (s.phase h).lock

/-- Every lock that has not lapsed and was not given back is on the server. -/
def RedisSystem.Kept (s : RedisSystem P H T) : Prop :=
  ∀ h name token limit, (s.phase h).claim = some (name, token, limit) → s.clock ≤ limit →
    s.server.keys (lockKey name) = some (token, limit)

/-- A holder gives a name back only if what its process remembers for the name is not the token of
another holder whose lock has not lapsed. -/
def RedisTimely (process : H → P) (s : RedisSystem P H T) : RedisAction H T → Prop
  | .forget h => ∀ claim ∈ (s.phase h).claim, ∀ h', h' ≠ h → ∀ claim' ∈ (s.phase h').claim,
      s.clock ≤ claim'.2.2 → s.tokens (process h) claim.1 ≠ some claim'.2.1
  | _ => True

instance [DecidableEq T] [DecidableEq H] [Fintype H] (s : RedisSystem P H T)
    (a : RedisAction H T) : Decidable (RedisTimely process s a) :=
  match a with
  | .wait _ => inferInstanceAs (Decidable True)
  | .set _ _ _ _ => inferInstanceAs (Decidable True)
  | .remember _ => inferInstanceAs (Decidable True)
  | .forget h => inferInstanceAs (Decidable (∀ claim ∈ (s.phase h).claim, ∀ h', h' ≠ h →
      ∀ claim' ∈ (s.phase h').claim, s.clock ≤ claim'.2.2 →
        s.tokens (process h) claim.1 ≠ some claim'.2.1))
  | .eval _ => inferInstanceAs (Decidable True)

/-- A key is found on the server while it has not lapsed. -/
theorem get_eq_some_iff {server : RedisServer T} {now : ℕ} {key : Text} {value : T} :
    server.get now key = some value ↔ ∃ limit, server.keys key = some (value, limit) ∧
      now ≤ limit := by
  unfold RedisServer.get
  constructor
  · intro h
    split at h
    · rename_i value' limit hkey
      by_cases hlimit : now ≤ limit
      · rw [if_pos hlimit] at h
        cases h
        exact ⟨limit, hkey, hlimit⟩
      · rw [if_neg hlimit] at h
        cases h
    · cases h
  · rintro ⟨limit, hkey, hlimit⟩
    rw [hkey]
    exact if_pos hlimit

/-- A key is set only when none is found, with its limit. -/
theorem setNx_succeeds {server : RedisServer T} {now : ℕ} {key : Text} {value : T} {seconds : ℕ}
    (h : (server.setNx now key value seconds).1 = true) :
    server.get now key = none ∧ (server.setNx now key value seconds).2 =
      { keys := Function.update server.keys key (some (value, now + seconds)) } := by
  unfold RedisServer.setNx at h ⊢
  cases hget : server.get now key with
  | some old =>
    rw [hget] at h
    cases h
  | none => exact ⟨rfl, rfl⟩

/-- A key that is not set leaves the server as it is. -/
theorem setNx_fails {server : RedisServer T} {now : ℕ} {key : Text} {value : T} {seconds : ℕ}
    (h : (server.setNx now key value seconds).1 = false) :
    (server.setNx now key value seconds).2 = server := by
  unfold RedisServer.setNx at h ⊢
  cases hget : server.get now key with
  | some old => rfl
  | none =>
    rw [hget] at h
    cases h

/-- What the timely runs keep. -/
structure RedisInvariant (s : RedisSystem P H T) : Prop where
  kept : s.Kept
  exclusive : Exclusive s.lock s.clock
  /-- The script is about to be run for no lock that has not lapsed. -/
  releasing : ∀ h name token, s.phase h = .releasing name token → ∀ h' name' limit',
    (s.phase h').claim = some (name', token, limit') → limit' < s.clock
  remembered : ∀ p name token, s.tokens p name = some token → token ∈ s.drawn
  claimed : ∀ h name token limit, (s.phase h).claim = some (name, token, limit) → token ∈ s.drawn
  released : ∀ h name token, s.phase h = .releasing name token → token ∈ s.drawn

variable {s s' : RedisSystem P H T}

/-- The invariant holds at the start, with nothing on the server. -/
theorem RedisInvariant.start : RedisInvariant ({} : RedisSystem P H T) where
  kept := fun _ _ _ _ h => by cases h
  exclusive := by
    rintro h h' k ⟨limit, hlock, -⟩
    cases hlock
  releasing := fun _ _ _ h => by cases h
  remembered := fun _ _ _ h => by cases h
  claimed := fun _ _ _ _ h => by cases h
  released := fun _ _ _ h => by cases h

/-- Time passes, and what has not lapsed is still on the server. -/
theorem RedisInvariant.wait (h : RedisInvariant s) (seconds : ℕ) :
    RedisInvariant { s with clock := s.clock + seconds } where
  kept := fun a name token limit hclaim hlimit => by
    dsimp only at hlimit
    exact h.kept a name token limit hclaim (by omega)
  exclusive := h.exclusive.later (by dsimp only; omega)
  releasing := fun a name token ha b name' limit' hb => by
    have hlapsed := h.releasing a name token ha b name' limit' hb
    exact hlapsed.trans_le (by dsimp only; omega)
  remembered := h.remembered
  claimed := h.claimed
  released := h.released

variable [DecidableEq H]

/-- A step of one holder changes the lock of that holder only. -/
theorem redisLock_update (s : RedisSystem P H T) (server : RedisServer T)
    (tokens : P → Text → Option T) (drawn : List T) (h : H) (phase : RedisPhase T) :
    RedisSystem.lock { s with
      server := server
      tokens := tokens
      phase := Function.update s.phase h phase
      drawn := drawn } = Function.update s.lock h phase.lock :=
  Function.comp_update RedisPhase.lock s.phase h phase

/-- A holder gives its lock back or does not get one, and the locks of the others stay. -/
theorem RedisInvariant.drop (hinv : RedisInvariant s) {h : H} {phase : RedisPhase T}
    {server : RedisServer T} {tokens : P → Text → Option T} {drawn : List T}
    (hnone : phase.claim = none) (hdrawn : ∀ token ∈ s.drawn, token ∈ drawn)
    (hserver : ∀ h' name token limit, h' ≠ h → (s.phase h').claim = some (name, token, limit) →
      s.clock ≤ limit → server.keys (lockKey name) = some (token, limit))
    (htokens : ∀ p name token, tokens p name = some token → token ∈ drawn)
    (hreleasing : ∀ name token, phase = .releasing name token → token ∈ drawn ∧
      ∀ h' name' limit', h' ≠ h → (s.phase h').claim = some (name', token, limit') →
        limit' < s.clock) :
    RedisInvariant { s with
      server := server
      tokens := tokens
      phase := Function.update s.phase h phase
      drawn := drawn } where
  kept := fun a name token limit ha hlimit => by
    rcases update_read_cases ha with ⟨-, ha⟩ | ⟨hah, ha⟩
    · rw [hnone] at ha
      cases ha
    · exact hserver a name token limit hah ha hlimit
  exclusive := by
    have hlock : phase.lock = none := by
      unfold RedisPhase.lock
      rw [hnone]
      rfl
    rw [redisLock_update, hlock]
    exact hinv.exclusive.release h
  releasing := fun a name token ha b name' limit' hb => by
    rcases update_read_cases hb with ⟨-, hb⟩ | ⟨hbh, hb⟩
    · rw [hnone] at hb
      cases hb
    · rcases update_cases ha with ⟨-, ha⟩ | ⟨-, ha⟩
      · exact (hreleasing name token ha).2 b name' limit' hbh hb
      · exact hinv.releasing a name token ha b name' limit' hb
  remembered := htokens
  claimed := fun a name token limit ha => by
    rcases update_read_cases ha with ⟨-, ha⟩ | ⟨-, ha⟩
    · rw [hnone] at ha
      cases ha
    · exact hdrawn _ (hinv.claimed a name token limit ha)
  released := fun a name token ha => by
    rcases update_cases ha with ⟨-, ha⟩ | ⟨-, ha⟩
    · exact (hreleasing name token ha).1
    · exact hdrawn _ (hinv.released a name token ha)

/-- The server sets the key: no lock of the name was left, and the token is a new one. -/
theorem RedisInvariant.acquire (hinv : RedisInvariant s) (h : H) {name : Text} {token : T}
    {seconds : ℕ} (hnew : token ∉ s.drawn) (hget : s.server.get s.clock (lockKey name) = none) :
    RedisInvariant { s with
      server := {
        keys := Function.update s.server.keys (lockKey name) (some (token, s.clock + seconds)) }
      phase := Function.update s.phase h (.recording name token (s.clock + seconds))
      drawn := token :: s.drawn } where
  kept := fun a name' token' limit ha hlimit => by
    rcases update_read_cases ha with ⟨-, ha⟩ | ⟨-, ha⟩
    · cases ha
      exact Function.update_self _ _ _
    · have hold := hinv.kept a name' token' limit ha hlimit
      have hne : lockKey name' ≠ lockKey name := by
        intro hkey
        rw [hkey] at hold
        have hsome := get_eq_some_iff.mpr ⟨limit, hold, hlimit⟩
        rw [hget] at hsome
        cases hsome
      exact (Function.update_of_ne hne _ _).trans hold
  exclusive := by
    rw [redisLock_update]
    refine hinv.exclusive.acquire (s.clock + seconds) fun a ⟨limit, hlock, hlimit⟩ => ?_
    obtain ⟨⟨name', token', limit'⟩, hclaim, heq⟩ := Option.map_eq_some_iff.mp hlock
    cases heq
    have hold := hinv.kept a name token' limit' hclaim hlimit
    have hsome := get_eq_some_iff.mpr ⟨limit', hold, hlimit⟩
    rw [hget] at hsome
    cases hsome
  releasing := fun a name' token' ha b name'' limit' hb => by
    rcases update_cases ha with ⟨-, ha⟩ | ⟨-, ha⟩
    · cases ha
    · rcases update_read_cases hb with ⟨-, hb⟩ | ⟨-, hb⟩
      · cases hb
        exact absurd (hinv.released a name' token ha) hnew
      · exact hinv.releasing a name' token' ha b name'' limit' hb
  remembered := fun p name' token' htoken =>
    List.mem_cons_of_mem _ (hinv.remembered p name' token' htoken)
  claimed := fun a name' token' limit ha => by
    rcases update_read_cases ha with ⟨-, ha⟩ | ⟨-, ha⟩
    · cases ha
      exact List.mem_cons_self
    · exact List.mem_cons_of_mem _ (hinv.claimed a name' token' limit ha)
  released := fun a name' token' ha => by
    rcases update_cases ha with ⟨-, ha⟩ | ⟨-, ha⟩
    · cases ha
    · exact List.mem_cons_of_mem _ (hinv.released a name' token' ha)

/-- The process remembers the token of the lock. -/
theorem RedisInvariant.remember (hinv : RedisInvariant s) {h : H} {name : Text} {token : T}
    {limit : ℕ} (hphase : s.phase h = .recording name token limit)
    {tokens : P → Text → Option T}
    (htokens : ∀ p name' token', tokens p name' = some token' → token' ∈ s.drawn) :
    RedisInvariant { s with
      tokens := tokens
      phase := Function.update s.phase h (.holding name token limit) } := by
  have hclaim : ∀ a, (Function.update s.phase h (.holding name token limit) a).claim =
      (s.phase a).claim := by
    intro a
    by_cases hah : a = h
    · rw [hah, Function.update_self, hphase]
      rfl
    · rw [Function.update_of_ne hah]
  have hphases : ∀ a name' token',
      Function.update s.phase h (.holding name token limit) a = .releasing name' token' →
        s.phase a = .releasing name' token' := by
    intro a name' token' ha
    rcases update_cases ha with ⟨-, ha⟩ | ⟨-, ha⟩
    · cases ha
    · exact ha
  have hlock : RedisSystem.lock { s with
      tokens := tokens
      phase := Function.update s.phase h (.holding name token limit) } = s.lock := by
    funext a
    exact congrArg (Option.map fun c => (c.1, c.2.2)) (hclaim a)
  refine ⟨fun a name' token' limit' ha => ?_, ?_, fun a name' token' ha b name'' limit' hb => ?_,
    htokens, fun a name' token' limit' ha => ?_, fun a name' token' ha => ?_⟩
  · exact hinv.kept a name' token' limit' ((hclaim a).symm.trans ha)
  · rw [hlock]
    exact hinv.exclusive
  · exact hinv.releasing a name' token' (hphases a name' token' ha) b name'' limit'
      ((hclaim b).symm.trans hb)
  · exact hinv.claimed a name' token' limit' ((hclaim a).symm.trans ha)
  · exact hinv.released a name' token' (hphases a name' token' ha)

omit [DecidableEq H] in
/-- What a process remembers of one name changes. -/
theorem RedisInvariant.tokens_update [DecidableEq P] (hinv : RedisInvariant s) (p : P)
    (name : Text) {token : Option T} (htoken : ∀ token', token = some token' → token' ∈ s.drawn) :
    ∀ p' name' token', Function.update s.tokens p (Function.update (s.tokens p) name token) p'
      name' = some token' → token' ∈ s.drawn := by
  intro p' name' token' hremembered
  by_cases hp : p' = p
  · rw [hp, Function.update_self] at hremembered
    rcases update_cases hremembered with ⟨-, hnew⟩ | ⟨-, hold⟩
    · exact htoken token' hnew
    · exact hinv.remembered p name' token' hold
  · rw [Function.update_of_ne hp] at hremembered
    exact hinv.remembered p' name' token' hremembered

/-- Every timely step with Redis keeps the invariant. -/
theorem RedisInvariant.step [DecidableEq P] [DecidableEq T] (hinv : RedisInvariant s)
    {a : RedisAction H T} (htimely : RedisTimely process s a) (h : s.step process a = some s') :
    RedisInvariant s' := by
  cases a with
  | wait seconds =>
    cases h
    exact hinv.wait seconds
  | set h₀ name token seconds =>
    simp only [RedisSystem.step] at h
    split at h
    · split at h
      · cases h
      · rename_i hnew
        cases h
        cases hset : (s.server.setNx s.clock (lockKey name) token seconds).1 with
        | true =>
          obtain ⟨hget, hserver⟩ := setNx_succeeds hset
          rw [hserver]
          exact hinv.acquire h₀ hnew hget
        | false =>
          rw [setNx_fails hset]
          refine hinv.drop rfl (fun t ht => List.mem_cons_of_mem _ ht) ?_ ?_ ?_
          · intro a name' token' limit _ hclaim hlimit
            exact hinv.kept a name' token' limit hclaim hlimit
          · intro p name' token' htoken
            exact List.mem_cons_of_mem _ (hinv.remembered p name' token' htoken)
          · intro name' token' hphase
            cases hphase
    · cases h
  | remember h₀ =>
    simp only [RedisSystem.step] at h
    split at h
    · rename_i name token limit hphase
      cases h
      have hown : token ∈ s.drawn := hinv.claimed h₀ name token limit (by rw [hphase]; rfl)
      refine hinv.remember hphase (hinv.tokens_update (process h₀) name ?_)
      intro token' htoken
      cases htoken
      exact hown
    · cases h
  | forget h₀ =>
    simp only [RedisSystem.step] at h
    split at h
    · rename_i name token limit hphase
      cases h
      have hclaim : (name, token, limit) ∈ (s.phase h₀).claim := by
        rw [hphase]
        rfl
      refine hinv.drop ?_ (fun t ht => ht) (fun a name' token' limit' _ ha hlimit =>
        hinv.kept a name' token' limit' ha hlimit)
        (hinv.tokens_update (process h₀) name fun token' hnone => by cases hnone) ?_
      · cases s.tokens (process h₀) name <;> rfl
      · intro name' token' hreleasing
        cases htoken : s.tokens (process h₀) name with
        | none =>
          rw [htoken] at hreleasing
          cases hreleasing
        | some remembered =>
          rw [htoken] at hreleasing
          cases hreleasing
          refine ⟨hinv.remembered _ name token' htoken, fun b name'' limit' hb hclaim' => ?_⟩
          by_contra hlive
          exact htimely _ hclaim b hb _ hclaim' (not_lt.mp hlive) htoken
    · cases h
  | eval h₀ =>
    simp only [RedisSystem.step] at h
    split at h
    · rename_i name token hphase
      cases h
      refine hinv.drop rfl (fun t ht => ht) ?_ hinv.remembered fun _ _ hidle => by cases hidle
      intro a name' token' limit ha hclaim hlimit
      have hold := hinv.kept a name' token' limit hclaim hlimit
      unfold RedisServer.deleteIfEqual
      split
      · rename_i hget
        obtain ⟨limit', hkey, -⟩ := get_eq_some_iff.mp hget
        have hne : lockKey name' ≠ lockKey name := by
          intro hsame
          rw [hsame, hkey] at hold
          cases hold
          have hlapsed := hinv.releasing h₀ name token hphase a name' limit hclaim
          omega
        dsimp only
        rw [Function.update_of_ne hne]
        exact hold
      · exact hold
    · cases h

end Redis

/-- In every run of timely steps, a lock that has not lapsed and was not given back is in the
store, and no two holders have such locks of one name. -/
theorem worker_locks_exclude {P H T : Type} [DecidableEq P] [DecidableEq H] [DecidableEq T]
    (process : H → P) (home : P) :
    (∀ s, Reaches (MemorySystem.step process) (MemoryTimely process home) {} s →
      s.Kept process ∧ Exclusive s.lock s.clock) ∧
    ∀ s : RedisSystem P H T, Reaches (RedisSystem.step process) (RedisTimely process) {} s →
      s.Kept ∧ Exclusive s.lock s.clock := by
  constructor
  · intro s hs
    have hinv : MemoryInvariant process home s :=
      hs.invariant .start fun _ _ _ hinv hok hstep => hinv.step hok hstep
    exact ⟨hinv.kept, hinv.exclusive⟩
  · intro s hs
    have hinv : RedisInvariant s :=
      hs.invariant .start fun _ _ _ hinv hok hstep => hinv.step hok hstep
    exact ⟨hinv.kept, hinv.exclusive⟩

namespace Fixture

/-- The name of a worker's lock. -/
def cleanup : Text := "cleanup_worker".toList

/-- A thread acquires the lock and stalls past its lapse. Another one acquires it then. -/
def memoryOverrun : List (MemoryAction (Fin 3)) :=
  [.readClock 0, .acquire 0 cleanup 60, .wait 61, .readClock 1, .acquire 1 cleanup 60]

def redisOverrun : List (RedisAction (Fin 3) ℕ) :=
  [.set 0 cleanup 0 60, .remember 0, .wait 61, .set 1 cleanup 1 60, .remember 1]

/-- With a process for each holder, the late release leaves the lock on the server, and a third
holder does not acquire it. -/
theorem worker_locks_exclude_overrun :
    (∃ s, follow (MemorySystem.step fun _ => ()) (MemoryTimely (fun _ => ()) ()) {}
        (memoryOverrun ++ [.release 1, .release 0]) = some s ∧
      s.Kept (fun _ => ()) ∧ Exclusive s.lock s.clock) ∧
    ∃ s, follow (RedisSystem.step id) (RedisTimely id) ({} : RedisSystem (Fin 3) (Fin 3) ℕ)
        (redisOverrun ++ [.forget 0, .eval 0, .set 2 cleanup 2 60]) = some s ∧
      s.Kept ∧ Exclusive s.lock s.clock := by
  have hmemory : (follow (MemorySystem.step fun _ => ()) (MemoryTimely (fun _ => ()) ()) {}
      (memoryOverrun ++ [.release 1, .release 0])).isSome = true := by decide +kernel
  have hredis : (follow (RedisSystem.step id) (RedisTimely id)
      ({} : RedisSystem (Fin 3) (Fin 3) ℕ)
      (redisOverrun ++ [.forget 0, .eval 0, .set 2 cleanup 2 60])).isSome = true := by
    decide +kernel
  exact ⟨⟨_, (Option.some_get hmemory).symm,
      (worker_locks_exclude (T := ℕ) (fun _ => ()) ()).1 _ (reaches_get hmemory)⟩,
    _, (Option.some_get hredis).symm,
      (worker_locks_exclude id (0 : Fin 3)).2 _ (reaches_get hredis)⟩

/-- Threads of one process: the late release removes the other lock, and a third thread acquires
the name. -/
theorem worker_locks_overlap :
    (∃ s s', follow (MemorySystem.step fun _ => ()) (fun _ _ => True) {}
        (memoryOverrun ++ [.release 0]) = some s ∧ ¬ s.Kept (fun _ => ()) ∧
      follow (MemorySystem.step fun _ => ()) (fun _ _ => True) s
        [.readClock 2, .acquire 2 cleanup 60] = some s' ∧ ¬ Exclusive s'.lock s'.clock) ∧
    ∃ s s', follow (RedisSystem.step fun _ => ()) (fun _ _ => True) {}
        (redisOverrun ++ [.forget 0, .eval 0]) = some s ∧ ¬ s.Kept ∧
      follow (RedisSystem.step fun _ => ()) (fun _ _ => True) s
        [.set 2 cleanup 2 60] = some s' ∧ ¬ Exclusive s'.lock s'.clock := by
  refine ⟨⟨_, _, rfl, fun h => ?_, rfl, fun h => ?_⟩, _, _, rfl, fun h => ?_, rfl, fun h => ?_⟩
  · exact absurd (h 1 cleanup 121 rfl (by decide)) (by decide +kernel)
  · exact absurd (h 1 2 cleanup ⟨121, rfl, by decide⟩ ⟨121, rfl, by decide⟩) (by decide)
  · exact absurd (h 1 cleanup 1 121 rfl (by decide)) (by decide +kernel)
  · exact absurd (h 1 2 cleanup ⟨121, rfl, by decide⟩ ⟨121, rfl, by decide⟩) (by decide)

end Fixture

end LabGoblin.WorkerLocks
