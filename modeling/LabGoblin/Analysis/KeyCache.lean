import LabGoblin.Computation.Outcome
import LabGoblin.Model.CloudflareAccess
import Mathlib.Logic.Relation
import Mathlib.Tactic.Linarith
import Mathlib.Tactic.NormNum

/-!
# The cache of signing keys

What the calls of `verify` do to the cache is a sequence of few kinds of events, whatever their
number and the order in which they get the lock. The cache holds the keys of the last fetch that
succeeded, and an assertion is accepted under a fresh key unless the cooldown refuses a call that
has waited until the cache was expired.
-/

set_option autoImplicit false

namespace LabGoblin.CloudflareAccess

variable {Key Claims : Type} {lib : Library Key Claims}

/-! ## What happens to the cache -/

/-- One event at the time that the clock shows. The proposition says whether every key that
accepts an assertion is known to be fresh. -/
inductive Event (strict : Prop) (w : World Key) : World Key → Prop
  | wait (waiters : List Call) : Event strict w { w with waiters }
  | tick (now : ℚ) (h : w.now ≤ now) : Event strict w { w with now }
  | delay (now : ℚ) : Event strict w { w with verifier := w.verifier.delayUnknown now }
  | start (call : Call) (verifier : Verifier Key) (hfree : w.holder = none)
      (h : w.verifier.refreshKeys call.reason w.now = some verifier) :
      Event strict w
        { w with
          verifier
          holder := some (call, w.now)
          history := .started call.reason w.now :: w.history }
  | fail (call : Call) (start : ℚ) (h : w.holder = some (call, start)) :
      Event strict w
        { w with holder := none, history := .failed call.reason start :: w.history }
  | succeed (call : Call) (start : ℚ) (keys : List (String × Key))
      (h : w.holder = some (call, start)) (hkeys : keys ≠ []) :
      Event strict w
        { w with
          holder := none
          verifier := w.verifier.install keys w.now
          history := .succeeded keys w.now :: w.history }
  | accept (kid : String) (key : Key) (hkey : w.verifier.keys.lookup kid = some key)
      (hfresh : strict → w.now < w.verifier.expiresAt) :
      Event strict w { w with history := .accepted kid key w.now :: w.history }

/-- Any number of events. -/
abbrev Events (strict : Prop) : World Key → World Key → Prop :=
  Relation.ReflTransGen (Event strict)

/-- The call that gets the lock next is refused a refresh for its unknown key by the cooldown,
when the cache is expired, and accepts its assertion under a key that it finds there now. -/
def StaleRefusal (lib : Library Key Claims) (w : World Key) (now : ℚ) : Prop :=
  ∃ call waiters key, w.holder = none ∧ w.waiters = call :: waiters ∧
    call.reason = .unknownKid ∧ now < w.verifier.unknownKidRefreshAfter ∧
    w.verifier.expiresAt ≤ now ∧ w.verifier.keys.lookup call.kid = some key ∧
    (lib.decode call.assertion key w.verifier.audience w.verifier.issuer).isSome = true

/-! ## What the verifier decides -/

section Decisions

variable {v v' : Verifier Key} {now : ℚ}

/-- A refresh of expired keys that does not fetch has found them fresh. -/
theorem refreshKeys_expired_eq_none (h : v.refreshKeys .expired now = none) :
    now < v.expiresAt := by
  unfold Verifier.refreshKeys at h
  by_cases hlive : (!v.keys.isEmpty) = true ∧ now < v.expiresAt
  · exact hlive.2
  · rw [if_neg hlive] at h
    cases h

/-- A refresh of expired keys that fetches has found no keys, or expired ones. -/
theorem refreshKeys_expired_eq_some (h : v.refreshKeys .expired now = some v') :
    v' = v ∧ (v.keys = [] ∨ v.expiresAt ≤ now) := by
  unfold Verifier.refreshKeys at h
  by_cases hlive : (!v.keys.isEmpty) = true ∧ now < v.expiresAt
  · rw [if_pos hlive] at h
    cases h
  · rw [if_neg hlive] at h
    cases h
    refine ⟨rfl, ?_⟩
    by_cases hkeys : v.keys = []
    · exact Or.inl hkeys
    · refine Or.inr (not_lt.mp fun hlt => hlive ⟨?_, hlt⟩)
      simpa using hkeys

/-- A refresh for an unknown key that does not fetch is within the cooldown. -/
theorem refreshKeys_unknownKid_eq_none (h : v.refreshKeys .unknownKid now = none) :
    now < v.unknownKidRefreshAfter := by
  unfold Verifier.refreshKeys at h
  by_cases hcool : now < v.unknownKidRefreshAfter
  · exact hcool
  · rw [if_neg hcool] at h
    cases h

/-- A refresh for an unknown key that fetches starts the cooldown anew. -/
theorem refreshKeys_unknownKid_eq_some (h : v.refreshKeys .unknownKid now = some v') :
    v' = { v with unknownKidRefreshAfter := now + unknownKidRefreshCooldownSeconds } ∧
      v.unknownKidRefreshAfter ≤ now := by
  unfold Verifier.refreshKeys at h
  by_cases hcool : now < v.unknownKidRefreshAfter
  · rw [if_pos hcool] at h
    cases h
  · rw [if_neg hcool] at h
    cases h
    exact ⟨rfl, not_lt.mp hcool⟩

/-- A key set that is accepted has a key. -/
theorem keysOf_ne_nil {payload : Dict} {keys : List (String × Key)}
    (h : keysOf lib payload = .ok keys) : keys ≠ [] := by
  unfold keysOf at h
  split at h
  · obtain ⟨found, -, h⟩ := Interactive.bind_eq_ok h
    by_cases hempty : found.isEmpty = true
    · rw [if_pos hempty] at h
      cases h
    · rw [if_neg hempty] at h
      cases h
      simpa using hempty
  · cases h

end Decisions

/-! ## Every action is a sequence of events -/

section Steps

variable {strict : Prop} {w w' : World Key} {call : Call} {now later last : ℚ}

/-- Time passes. -/
theorem events_tick {w : World Key} (h : w.now ≤ last) :
    Events strict w { w with now := last } :=
  .single (.tick last h)

/-- The decoding of an assertion under a cached key is an event. -/
theorem events_decode {assertion : Text} {kid : String} {key : Key} (hnow : w.now ≤ now)
    (hlast : now ≤ last) (hkey : w.verifier.keys.lookup kid = some key)
    (hfresh : strict →
      (lib.decode assertion key w.verifier.audience w.verifier.issuer).isSome = true →
      now < w.verifier.expiresAt) :
    Events strict w { w.decode lib assertion kid key now with now := last } := by
  unfold World.decode
  by_cases hdecode :
      (lib.decode assertion key w.verifier.audience w.verifier.issuer).isSome = true
  · rw [if_pos hdecode]
    have haccept : Event strict { w with now }
        (World.record { w with now } (.accepted kid key now)) :=
      .accept kid key hkey fun hstrict => hfresh hstrict hdecode
    exact ((events_tick hnow).tail haccept).trans (events_tick hlast)
  · rw [if_neg hdecode]
    exact events_tick (hnow.trans hlast)

/-- What a call does after its refresh is a sequence of events. -/
theorem events_afterRefresh (hnow : w.now ≤ now) (hlast : now ≤ last)
    (hfresh : strict → ∀ key, w.verifier.keys.lookup call.kid = some key →
      (lib.decode call.assertion key w.verifier.audience w.verifier.issuer).isSome = true →
      now < w.verifier.expiresAt) :
    Events strict w { w.afterRefresh lib call now later with now := last } := by
  unfold World.afterRefresh
  cases hkey : w.verifier.keys.lookup call.kid with
  | some key => exact events_decode hnow hlast hkey fun hstrict => hfresh hstrict key hkey
  | none =>
    cases hreason : call.reason with
    | expired => exact .head (.delay later) (events_tick (hnow.trans hlast))
    | unknownKid => exact events_tick (hnow.trans hlast)

/-- What a call does once it has the lock is a sequence of events. -/
theorem events_locked (hnow : w.now ≤ now) (hlast : now ≤ last) (hfree : w.holder = none)
    (hfresh : strict → call.reason = .unknownKid → now < w.verifier.unknownKidRefreshAfter →
      ∀ key, w.verifier.keys.lookup call.kid = some key →
      (lib.decode call.assertion key w.verifier.audience w.verifier.issuer).isSome = true →
      now < w.verifier.expiresAt) :
    Events strict w { w.locked lib call now later with now := last } := by
  unfold World.locked
  cases hrefresh : w.verifier.refreshKeys call.reason now with
  | some verifier =>
    have htick : Events strict w { w with now } := events_tick hnow
    exact (htick.tail (.start call verifier hfree hrefresh)).trans (events_tick hlast)
  | none =>
    apply events_afterRefresh hnow hlast
    intro hstrict key hkey hdecode
    cases hreason : call.reason with
    | expired =>
      rw [hreason] at hrefresh
      exact refreshKeys_expired_eq_none hrefresh
    | unknownKid =>
      rw [hreason] at hrefresh
      exact hfresh hstrict hreason (refreshKeys_unknownKid_eq_none hrefresh) key hkey hdecode

/-- What a call does to refresh the keys is a sequence of events. -/
theorem events_refreshKeys (hnow : w.now ≤ now) (hlast : now ≤ last)
    (hknown : call.reason = .unknownKid → w.verifier.keys.lookup call.kid = none) :
    Events strict w { w.refreshKeys lib call now with now := last } := by
  unfold World.refreshKeys
  by_cases hfree : w.holder.isNone = true ∧ w.waiters.isEmpty = true
  · rw [if_pos hfree]
    refine events_locked hnow hlast (Option.isNone_iff_eq_none.mp hfree.1) ?_
    intro _ hreason _ key hkey
    rw [hknown hreason] at hkey
    cases hkey
  · rw [if_neg hfree]
    exact .head (.wait _) (events_tick (hnow.trans hlast))

/-- What a call of `verify` does until it ends or waits is a sequence of events. -/
theorem events_verify {assertion : Text} {kid : String} {clock : Clock}
    (hclock : w.now ≤ clock.first) :
    Events strict w ((w.verify lib assertion kid clock).tick clock) := by
  have hlater := hclock.trans clock.le
  unfold World.verify World.tick
  by_cases hexpired : w.verifier.cacheExpired clock.first = true
  · rw [if_pos hexpired]
    exact events_refreshKeys hlater le_rfl nofun
  · rw [if_neg hexpired]
    have hfresh : clock.first < w.verifier.expiresAt := by
      unfold Verifier.cacheExpired at hexpired
      simp only [ge_iff_le, Bool.or_eq_true, decide_eq_true_eq, not_or, not_le] at hexpired
      exact hexpired.2
    cases hkey : w.verifier.keys.lookup kid with
    | some key => exact events_decode hclock clock.le hkey fun _ _ => hfresh
    | none => exact events_refreshKeys hlater le_rfl fun _ => hkey

/-- What the answer of a fetch does is a sequence of events. -/
theorem events_fetched {start : ℚ} {payload : Except VerifyError Dict} {clock : Clock}
    (hheld : w.holder = some (call, start)) (hclock : w.now ≤ clock.first) :
    Events strict w ((w.fetched lib call start payload clock).tick clock) := by
  unfold World.fetched World.tick
  cases hkeys : payload.bind (keysOf lib) with
  | error e => exact .head (.fail call start hheld) (events_tick (hclock.trans clock.le))
  | ok keys =>
    obtain ⟨rows, -, hrows⟩ := Interactive.bind_eq_ok hkeys
    have htick : Events strict w { w with now := clock.first } := events_tick hclock
    have httl : (30 : ℚ) ≤ w.verifier.jwksTtlSeconds := by
      exact_mod_cast w.verifier.ttl_ge
    have hfresh : clock.first < clock.first + (w.verifier.jwksTtlSeconds : ℚ) := by linarith
    refine (htick.tail (.succeed call start keys hheld (keysOf_ne_nil hrows))).trans ?_
    exact events_afterRefresh (le_refl clock.first) clock.le fun _ _ _ _ => hfresh

/-- Every action is a sequence of events. -/
theorem events_step {action : Action}
    (hfresh : strict → ∀ clock, action = .acquire clock → ¬ StaleRefusal lib w clock.first)
    (h : w.step lib action = some w') : Events strict w w' := by
  cases action with
  | verify assertion clock =>
    by_cases hclock : w.now ≤ clock.first
    · simp only [World.step, if_pos hclock] at h
      cases hchecked : checkedHeader lib assertion with
      | none =>
        rw [hchecked] at h
        cases h
        exact .refl
      | some checked =>
        rw [hchecked] at h
        cases h
        exact events_verify hclock
    · simp only [World.step, if_neg hclock] at h
      cases h
  | acquire clock =>
    cases hfree : w.holder with
    | some held =>
      simp only [World.step, hfree] at h
      cases h
    | none =>
      cases hwaiters : w.waiters with
      | nil =>
        simp only [World.step, hfree, hwaiters] at h
        cases h
      | cons call waiters =>
        by_cases hclock : w.now ≤ clock.first
        · have hstep : w.step lib (.acquire clock) = some
              ((World.locked lib { w with waiters } call clock.first clock.second).tick clock) := by
            simp only [World.step, hfree, hwaiters, if_pos hclock]
          rw [hstep] at h
          cases h
          refine .head (.wait waiters) (events_locked hclock clock.le hfree ?_)
          intro hstrict hreason hcool key hkey hdecode
          by_cases hexpired : w.verifier.expiresAt ≤ clock.first
          · exact absurd ⟨call, waiters, key, hfree, hwaiters, hreason, hcool, hexpired, hkey,
              hdecode⟩ (hfresh hstrict clock rfl)
          · exact not_le.mp hexpired
        · simp only [World.step, hfree, hwaiters, if_neg hclock] at h
          cases h
  | fetched payload clock =>
    cases hheld : w.holder with
    | none =>
      simp only [World.step, hheld] at h
      cases h
    | some held =>
      by_cases hclock : w.now ≤ clock.first
      · simp only [World.step, hheld, if_pos hclock] at h
        cases h
        exact events_fetched hheld hclock
      · simp only [World.step, hheld, if_neg hclock] at h
        cases h
  | cancel index =>
    by_cases hindex : index < w.waiters.length
    · simp only [World.step, if_pos hindex] at h
      cases h
      exact .single (.wait _)
    · simp only [World.step, if_neg hindex] at h
      cases h

/-- A run starts with a step. -/
theorem step_of_run {action : Action} {actions : List Action}
    (h : w.run lib (action :: actions) = some w') :
    ∃ u, w.step lib action = some u ∧ u.run lib actions = some w' := by
  unfold World.run at h
  rw [List.foldlM_cons] at h
  exact Option.bind_eq_some_iff.mp h

/-- A run of two parts is a run of the first and then of the second. -/
theorem run_split {before after : List Action} (h : w.run lib (before ++ after) = some w') :
    ∃ u, w.run lib before = some u ∧ u.run lib after = some w' := by
  unfold World.run at h
  rw [List.foldlM_append] at h
  exact Option.bind_eq_some_iff.mp h

/-- Every run is a sequence of events. -/
theorem events_run {actions : List Action} (h : w.run lib actions = some w') :
    Events False w w' := by
  induction actions generalizing w with
  | nil =>
    cases h
    exact .refl
  | cons action actions ih =>
    obtain ⟨u, hstep, hrest⟩ := step_of_run h
    exact (events_step nofun hstep).trans (ih hrest)

/-- Events add to the history and take nothing from it. -/
theorem history_suffix_of_events (h : Events strict w w') : w.history <:+ w'.history := by
  induction h with
  | refl => exact List.suffix_rfl
  | tail _ hevent ih =>
    refine ih.trans ?_
    cases hevent with
    | wait => exact List.suffix_rfl
    | tick => exact List.suffix_rfl
    | delay => exact List.suffix_rfl
    | start => exact List.suffix_cons _ _
    | fail => exact List.suffix_cons _ _
    | succeed => exact List.suffix_cons _ _
    | accept => exact List.suffix_cons _ _

end Steps

/-! ## What the cache holds -/

/-- The key set of the last fetch that succeeded, and when that was. -/
def lastSuccess : List (Entry Key) → Option (List (String × Key) × ℚ)
  | [] => none
  | .succeeded keys completed :: _ => some (keys, completed)
  | _ :: before => lastSuccess before

/-- The cache holds the key set of the last fetch that succeeded, for its lifetime. -/
def Cached (w : World Key) : Prop :=
  match lastSuccess w.history with
  | none => w.verifier.keys = []
  | some (keys, completed) =>
    w.verifier.keys = keys ∧ w.verifier.expiresAt = completed + w.verifier.jwksTtlSeconds

/-- Every assertion was accepted under a key of the last fetch that had succeeded, at a time that
is in the lifetime of that fetch. -/
def FreshlyAccepted (jwksTtlSeconds : ℤ) : List (Entry Key) → Prop
  | [] => True
  | .accepted kid key consulted :: before =>
    (∃ keys completed, lastSuccess before = some (keys, completed) ∧
      keys.lookup kid = some key ∧ consulted < completed + jwksTtlSeconds) ∧
    FreshlyAccepted jwksTtlSeconds before
  | _ :: before => FreshlyAccepted jwksTtlSeconds before

section Cache

variable {strict : Prop} {w w' u : World Key}

/-- An event keeps what is known of the cache. -/
theorem cached_event (hcached : Cached w) (h : Event strict w w') :
    Cached w' ∧ w'.verifier.jwksTtlSeconds = w.verifier.jwksTtlSeconds := by
  cases h with
  | wait => exact ⟨hcached, rfl⟩
  | tick => exact ⟨hcached, rfl⟩
  | delay => exact ⟨hcached, rfl⟩
  | start call verifier hfree hrefresh =>
    cases hreason : call.reason with
    | expired =>
      rw [hreason] at hrefresh
      obtain ⟨rfl, -⟩ := refreshKeys_expired_eq_some hrefresh
      exact ⟨hcached, rfl⟩
    | unknownKid =>
      rw [hreason] at hrefresh
      obtain ⟨rfl, -⟩ := refreshKeys_unknownKid_eq_some hrefresh
      exact ⟨hcached, rfl⟩
  | fail => exact ⟨hcached, rfl⟩
  | succeed => exact ⟨⟨rfl, rfl⟩, rfl⟩
  | accept => exact ⟨hcached, rfl⟩

/-- Events keep what is known of the cache. -/
theorem cached_events (hcached : Cached w) (h : Events strict w w') :
    Cached w' ∧ w'.verifier.jwksTtlSeconds = w.verifier.jwksTtlSeconds := by
  induction h with
  | refl => exact ⟨hcached, rfl⟩
  | tail _ hevent ih =>
    obtain ⟨hcached', httl⟩ := cached_event ih.1 hevent
    exact ⟨hcached', httl.trans ih.2⟩

/-- A key that is in the cache before it expires is fresh. -/
theorem fresh_of_lookup {kid : String} {key : Key} {now : ℚ} (hcached : Cached w)
    (hkey : w.verifier.keys.lookup kid = some key) (hnow : now < w.verifier.expiresAt) :
    ∃ keys completed, lastSuccess w.history = some (keys, completed) ∧
      keys.lookup kid = some key ∧ now < completed + w.verifier.jwksTtlSeconds := by
  unfold Cached at hcached
  cases hlast : lastSuccess w.history with
  | none =>
    rw [hlast] at hcached
    rw [hcached] at hkey
    cases hkey
  | some found =>
    rw [hlast] at hcached
    obtain ⟨hkeys, hexpires⟩ := hcached
    exact ⟨found.1, found.2, rfl, hkeys ▸ hkey, hexpires ▸ hnow⟩

/-- Where every accepting key is known to be fresh, assertions are accepted freshly. -/
theorem freshlyAccepted_events (hcached : Cached w)
    (hfresh : FreshlyAccepted w.verifier.jwksTtlSeconds w.history) (h : Events True w w') :
    FreshlyAccepted w.verifier.jwksTtlSeconds w'.history := by
  induction h with
  | refl => exact hfresh
  | @tail u u' hevents hevent ih =>
    obtain ⟨hcached', httl⟩ := cached_events hcached hevents
    cases hevent with
    | wait => exact ih
    | tick => exact ih
    | delay => exact ih
    | start => exact ih
    | fail => exact ih
    | succeed => exact ih
    | accept kid key hkey hlive =>
      exact ⟨httl ▸ fresh_of_lookup hcached' hkey (hlive trivial), ih⟩

/-- What holds of a history holds of an earlier one. -/
theorem freshlyAccepted_suffix {jwksTtlSeconds : ℤ} {before history : List (Entry Key)}
    (h : before <:+ history) (hfresh : FreshlyAccepted jwksTtlSeconds history) :
    FreshlyAccepted jwksTtlSeconds before := by
  induction history with
  | nil =>
    rw [List.suffix_nil.mp h]
    trivial
  | cons entry history ih =>
    rcases List.suffix_cons_iff.mp h with heq | hsuffix
    · rw [heq]
      exact hfresh
    · refine ih hsuffix ?_
      cases entry with
      | accepted => exact hfresh.2
      | started => exact hfresh
      | failed => exact hfresh
      | succeeded => exact hfresh

/-- What a stale refusal accepts. -/
theorem accepted_of_stale {clock : Clock} (hstale : StaleRefusal lib u clock.first)
    (h : u.step lib (.acquire clock) = some w) :
    ∃ kid key, u.verifier.expiresAt ≤ clock.first ∧
      w.history = .accepted kid key clock.first :: u.history := by
  obtain ⟨call, waiters, key, hfree, hwaiters, hreason, hcool, hexpired, hkey, hdecode⟩ := hstale
  refine ⟨call.kid, key, hexpired, ?_⟩
  have hrefused : u.verifier.refreshKeys call.reason clock.first = none := by
    rw [hreason]
    exact if_pos hcool
  by_cases hclock : u.now ≤ clock.first
  · have hstep : u.step lib (.acquire clock) = some
        ((World.locked lib { u with waiters } call clock.first clock.second).tick clock) := by
      simp only [World.step, hfree, hwaiters, if_pos hclock]
    rw [hstep] at h
    cases h
    simp only [World.tick, World.locked, hrefused, World.afterRefresh, hkey, World.decode,
      if_pos hdecode, World.record]
  · simp only [World.step, hfree, hwaiters, if_neg hclock] at h
    cases h

/-- No stale refusal among the actions. -/
def NeverStale (lib : Library Key Claims) (w : World Key) (actions : List Action) : Prop :=
  ∀ before clock after u, actions = before ++ .acquire clock :: after →
    w.run lib before = some u → ¬ StaleRefusal lib u clock.first

/-- Without stale refusals a run accepts assertions freshly. -/
theorem freshlyAccepted_run {actions : List Action} (hcached : Cached w)
    (hfresh : FreshlyAccepted w.verifier.jwksTtlSeconds w.history)
    (hnever : NeverStale lib w actions) (h : w.run lib actions = some w') :
    FreshlyAccepted w.verifier.jwksTtlSeconds w'.history := by
  induction actions generalizing w with
  | nil =>
    cases h
    exact hfresh
  | cons action actions ih =>
    obtain ⟨u, hstep, hrest⟩ := step_of_run h
    have hevents : Events True w u := by
      refine events_step (fun _ clock haction => ?_) hstep
      exact hnever [] clock actions w (by rw [haction]; rfl) rfl
    obtain ⟨hcached', httl⟩ := cached_events hcached hevents
    have hfresh' := freshlyAccepted_events hcached hfresh hevents
    rw [← httl] at hfresh' ⊢
    refine ih hcached' hfresh' ?_ hrest
    intro before clock after x hsplit hbefore
    refine hnever (action :: before) clock after x (by rw [hsplit]; rfl) ?_
    unfold World.run
    rw [List.foldlM_cons, hstep]
    exact hbefore

/-- A stale refusal would show in the history, as an assertion that is not accepted freshly. -/
theorem neverStale_of_freshlyAccepted {actions : List Action} (hcached : Cached w)
    (h : w.run lib actions = some w')
    (hfresh : FreshlyAccepted w.verifier.jwksTtlSeconds w'.history) :
    NeverStale lib w actions := by
  intro before clock after x hsplit hbefore hstale
  rw [hsplit] at h
  obtain ⟨x', hbefore', hrest⟩ := run_split h
  cases hbefore.symm.trans hbefore'
  obtain ⟨y, hstep, hafter⟩ := step_of_run hrest
  obtain ⟨kid, key, hexpired, hhistory⟩ := accepted_of_stale hstale hstep
  obtain ⟨hcached', httl⟩ := cached_events hcached (events_run hbefore)
  have haccepted : FreshlyAccepted w.verifier.jwksTtlSeconds y.history :=
    freshlyAccepted_suffix (history_suffix_of_events (events_run hafter)) hfresh
  rw [hhistory] at haccepted
  obtain ⟨⟨keys, completed, hlast, -, hlive⟩, -⟩ := haccepted
  unfold Cached at hcached'
  rw [hlast] at hcached'
  obtain ⟨-, hexpires⟩ := hcached'
  rw [httl] at hexpires
  exact absurd hlive (not_lt.mpr (hexpires ▸ hexpired))

end Cache

/-! ## The start -/

/-- A new verifier has no keys and no cooldown. -/
theorem init_eq_ok {teamDomain audience : Text} {jwksTtlSeconds : ℤ} {v : Verifier Key}
    (h : Verifier.init lib teamDomain audience jwksTtlSeconds = .ok v) :
    v.keys = [] ∧ v.unknownKidRefreshAfter = 0 := by
  obtain ⟨issuer, -, h⟩ := Interactive.bind_eq_ok h
  by_cases haudience : Text.strip audience = []
  · rw [if_pos haudience] at h
    cases h
  · rw [if_neg haudience] at h
    cases h
    exact ⟨rfl, rfl⟩

/-- A fetch that fails, or whose payload has no keys, leaves the verifier as it is. -/
theorem verifier_of_failed {w w' : World Key} {payload : Except VerifyError Dict} {clock : Clock}
    {e : VerifyError} (hfailed : payload.bind (keysOf lib) = .error e)
    (h : w.step lib (.fetched payload clock) = some w') : w'.verifier = w.verifier := by
  cases hheld : w.holder with
  | none =>
    simp only [World.step, hheld] at h
    cases h
  | some held =>
    by_cases hclock : w.now ≤ clock.first
    · simp only [World.step, hheld, if_pos hclock] at h
      cases h
      simp only [World.tick, World.fetched, hfailed]
    · simp only [World.step, hheld, if_neg hclock] at h
      cases h

/-- Whatever calls are made and whatever their fetches return, the cache holds the key set of the
last fetch that succeeded, which no other fetch changes. Every assertion is accepted under a fresh
key of it exactly when no call is refused a refresh with an expired key. -/
theorem accepted_fresh_iff {teamDomain audience : Text} {jwksTtlSeconds : ℤ} {v : Verifier Key}
    (hinit : Verifier.init lib teamDomain audience jwksTtlSeconds = .ok v) (start : ℚ)
    {actions : List Action} {w : World Key}
    (hrun : World.run lib { verifier := v, now := start } actions = some w) :
    (∀ payload clock u e, payload.bind (keysOf lib) = .error e →
      w.step lib (.fetched payload clock) = some u → u.verifier = w.verifier) ∧
    Cached w ∧
    (FreshlyAccepted v.jwksTtlSeconds w.history ↔
      NeverStale lib { verifier := v, now := start } actions) := by
  have hcached : Cached ({ verifier := v, now := start } : World Key) := (init_eq_ok hinit).1
  refine ⟨fun payload clock u e hfailed hstep => verifier_of_failed hfailed hstep,
    (cached_events hcached (events_run hrun)).1, ?_⟩
  constructor
  · exact neverStale_of_freshlyAccepted hcached hrun
  · exact fun hnever => freshlyAccepted_run hcached trivial hnever hrun

namespace Fixture

/-- Assertions that are their own key ids, signed with keys that are their own key ids. -/
def library : Library String Unit where
  url :=
    { lower := (·.map Char.toLower)
      nfkc := id
      cookieParser := fun _ => [] }
  unverifiedHeader := fun assertion =>
    some [("alg", .text "RS256"), ("kid", .text (String.ofList assertion))]
  fromJwk := fun item =>
    match Dict.get item "kid" with
    | .text kid => .ok kid
    | _ => .error .unavailable
  decode := fun assertion key _ _ => if String.ofList assertion = key then some () else none

def verifier : Verifier String where
  issuer := "https://team.cloudflareaccess.com".toList
  audience := "audience".toList
  jwksTtlSeconds := 30
  ttl_ge := le_rfl

set_option maxRecDepth 100000 in
/-- The issuer of the fixture's team domain. -/
theorem issuer_team :
    (issuerForTeamDomain library "team.cloudflareaccess.com".toList).toOption =
      some "https://team.cloudflareaccess.com".toList := by
  decide +kernel

/-- The verifier of the fixture is made by its constructor. -/
theorem init_verifier :
    Verifier.init library "team.cloudflareaccess.com".toList "audience".toList 30 =
      .ok verifier := by
  have hissuer : issuerForTeamDomain library "team.cloudflareaccess.com".toList =
      .ok "https://team.cloudflareaccess.com".toList := by
    have hteam := issuer_team
    cases h : issuerForTeamDomain library "team.cloudflareaccess.com".toList with
    | error e =>
      rw [h] at hteam
      cases hteam
    | ok issuer =>
      rw [h] at hteam
      cases hteam
      rfl
  have haudience : Text.strip "audience".toList = "audience".toList := by decide
  unfold Verifier.init
  rw [hissuer]
  simp only [haudience]
  rfl

def atTime (t : ℚ) : Clock := ⟨t, t, le_rfl⟩

def verify (kid : String) (t : ℚ) : Action := .verify (some kid.toList) (atTime t)

def jwks (kid : String) : Dict :=
  [("keys", .list [.object [("kid", .text kid), ("kty", .text "RSA")]])]

/-- The third call waits through two fetches that take long and fail. -/
def staleRun : List Action :=
  [verify "old" 0, .fetched (.ok (jwks "old")) (atTime 0),
    verify "b" 1, verify "c" 2, verify "d" 3, verify "a" 4,
    .fetched (.ok (jwks "a")) (atTime 35),
    .acquire (atTime 35), .fetched (.error .unavailable) (atTime 66),
    .acquire (atTime 66), .fetched (.error .unavailable) (atTime 67),
    .acquire (atTime 67)]

set_option maxRecDepth 100000 in
/-- What the stale run leaves in the history. -/
theorem run_stale :
    (World.run library { verifier := verifier, now := 0 } staleRun).map (·.history) = some
      [.accepted "a" "a" 67, .failed .unknownKid 66, .started .unknownKid 66,
        .failed .unknownKid 35, .started .unknownKid 35, .succeeded [("a", "a")] 35,
        .started .unknownKid 1, .accepted "old" "old" 0, .succeeded [("old", "old")] 0,
        .started .expired 0] := by
  decide +kernel

/-- The stale run ends with an assertion that is accepted half a minute after the last fetch that
succeeded. -/
theorem exists_run_stale : ∃ w,
    World.run library { verifier := verifier, now := 0 } staleRun = some w ∧
      ∃ before, w.history = .accepted "a" "a" 67 :: before ∧
        lastSuccess before = some ([("a", "a")], 35) := by
  obtain ⟨w, hrun, hhistory⟩ := Option.map_eq_some_iff.mp run_stale
  exact ⟨w, hrun, _, hhistory, rfl⟩

/-- That assertion is not accepted freshly, for the lifetime of the keys is thirty seconds. -/
theorem not_freshlyAccepted_stale {w : World String} {before : List (Entry String)}
    (hhistory : w.history = .accepted "a" "a" 67 :: before)
    (hlast : lastSuccess before = some ([("a", "a")], 35)) :
    ¬ FreshlyAccepted verifier.jwksTtlSeconds w.history := by
  rw [hhistory]
  rintro ⟨⟨keys, completed, hlast', hlive⟩, hrest⟩
  rw [hlast] at hlast'
  have hcompleted : (35 : ℚ) = completed := (Prod.mk.inj (Option.some.inj hlast')).2
  rw [← hcompleted] at hlive
  have hlive' : (67 : ℚ) < 35 + (30 : ℤ) := hlive.2
  norm_num at hlive'

/-- The stale run has a stale refusal. -/
theorem accepted_fresh_iff_stale :
    ¬ NeverStale library { verifier := verifier, now := 0 } staleRun := by
  obtain ⟨w, hrun, before, hhistory, hlast⟩ := exists_run_stale
  intro hnever
  exact not_freshlyAccepted_stale hhistory hlast
    ((accepted_fresh_iff init_verifier 0 hrun).2.2.mpr hnever)

/-- A key set that was fetched at 35 for 30 seconds accepts an assertion at 67. -/
theorem not_freshlyAccepted : ¬ ∀ (v : Verifier String) (w : World String) (actions : List Action),
    Verifier.init library "team.cloudflareaccess.com".toList "audience".toList 30 = .ok v →
    World.run library { verifier := v, now := 0 } actions = some w →
    FreshlyAccepted v.jwksTtlSeconds w.history := by
  intro h
  obtain ⟨w, hrun, before, hhistory, hlast⟩ := exists_run_stale
  exact not_freshlyAccepted_stale hhistory hlast (h verifier w staleRun init_verifier hrun)

end Fixture

end LabGoblin.CloudflareAccess
