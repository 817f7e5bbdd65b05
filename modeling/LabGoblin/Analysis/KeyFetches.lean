import LabGoblin.Analysis.KeyCache
import LabGoblin.Computation.Spacing

/-!
# How often keys are fetched

A fetch for an unknown key puts off the next one before it starts. A fetch for an expired or empty
cache does so only when it succeeds, by the lifetime of the new keys, so the fetches are limited
as long as none of these is tried again too soon after it failed.
-/

set_option autoImplicit false

namespace LabGoblin.CloudflareAccess

open Interactive

variable {Key Claims : Type} {lib : Library Key Claims}

/-- When fetches were started for the reason. -/
def starts (reason : Reason) : List (Entry Key) → List ℚ
  | [] => []
  | .started r now :: before =>
    if r = reason then now :: starts reason before else starts reason before
  | _ :: before => starts reason before

/-- When the fetches for the reason were started that failed. -/
def failures (reason : Reason) : List (Entry Key) → List ℚ
  | [] => []
  | .failed r start :: before =>
    if r = reason then start :: failures reason before else failures reason before
  | _ :: before => failures reason before

/-- In every half-open interval of the cooldown's length at most one fetch is started for an
expired or empty cache, and at most one for unknown keys. -/
def FetchesLimited (history : List (Entry Key)) : Prop :=
  ∀ reason, Limited unknownKidRefreshCooldownSeconds (starts reason history)

/-- No fetch for an expired or empty cache is started within the cooldown after the start of one
that failed. -/
def NoEarlyRetry : List (Entry Key) → Prop
  | [] => True
  | .started .expired now :: before =>
    (∀ start ∈ failures .expired before, start + unknownKidRefreshCooldownSeconds ≤ now) ∧
      NoEarlyRetry before
  | _ :: before => NoEarlyRetry before

/-- What holds of the fetches that were started, whatever the calls are. -/
structure Fetching (w : World Key) : Prop where
  past : ∀ reason, ∀ t ∈ starts reason w.history, t ≤ w.now
  held : ∀ call start, w.holder = some (call, start) → start ∈ starts call.reason w.history
  failed : ∀ reason, ∀ t ∈ failures reason w.history, t ∈ starts reason w.history
  cooled : ∀ t ∈ starts .unknownKid w.history,
    t + unknownKidRefreshCooldownSeconds ≤ w.verifier.unknownKidRefreshAfter
  settled : ∀ t ∈ starts .expired w.history,
    t ∈ failures .expired w.history ∨ (∃ call, call.reason = .expired ∧ w.holder = some (call, t)) ∨
      w.verifier.keys ≠ [] ∧ t + unknownKidRefreshCooldownSeconds ≤ w.verifier.expiresAt
  spaced : Spaced unknownKidRefreshCooldownSeconds (starts .unknownKid w.history)

section Fetches

variable {strict : Prop} {w w' : World Key}

/-- The start of a fetch is among the starts of its reason. -/
theorem mem_starts_started {reason r : Reason} {now t : ℚ} {before : List (Entry Key)} :
    t ∈ starts reason (.started r now :: before) ↔
      r = reason ∧ t = now ∨ t ∈ starts reason before := by
  by_cases hr : r = reason
  · simp [starts, hr]
  · simp [starts, hr]

/-- The failure of a fetch is among the failures of its reason. -/
theorem mem_failures_failed {reason r : Reason} {start t : ℚ} {before : List (Entry Key)} :
    t ∈ failures reason (.failed r start :: before) ↔
      r = reason ∧ t = start ∨ t ∈ failures reason before := by
  by_cases hr : r = reason
  · simp [failures, hr]
  · simp [failures, hr]

/-- A call that starts a fetch keeps what is known of the fetches. -/
theorem fetching_start {call : Call} {verifier : Verifier Key} (h : Fetching w)
    (hfree : w.holder = none)
    (hrefresh : w.verifier.refreshKeys call.reason w.now = some verifier) :
    Fetching
      { w with
        verifier
        holder := some (call, w.now)
        history := .started call.reason w.now :: w.history } := by
  have hpast : ∀ reason, ∀ t ∈ starts reason (.started call.reason w.now :: w.history),
      t ≤ w.now := by
    intro reason t ht
    rcases mem_starts_started.mp ht with ⟨-, rfl⟩ | hbefore
    · exact le_rfl
    · exact h.past reason t hbefore
  have hheld : ∀ c start, some (call, w.now) = some (c, start) →
      start ∈ starts c.reason (.started call.reason w.now :: w.history) := by
    intro c start heq
    cases heq
    exact mem_starts_started.mpr (Or.inl ⟨rfl, rfl⟩)
  have hfailed : ∀ reason, ∀ t ∈ failures reason w.history,
      t ∈ starts reason (.started call.reason w.now :: w.history) :=
    fun reason t ht => mem_starts_started.mpr (Or.inr (h.failed reason t ht))
  -- Only a settled fetch comes before one that has the lock.
  have hsettled : ∀ t ∈ starts .expired w.history, t ∈ failures .expired w.history ∨
      w.verifier.keys ≠ [] ∧ t + unknownKidRefreshCooldownSeconds ≤ w.verifier.expiresAt := by
    intro t ht
    rcases h.settled t ht with hfail | ⟨c, -, hc⟩ | hlive
    · exact Or.inl hfail
    · rw [hfree] at hc
      cases hc
    · exact Or.inr hlive
  cases hreason : call.reason with
  | expired =>
    rw [hreason] at hrefresh hpast hheld hfailed
    obtain ⟨rfl, -⟩ := refreshKeys_expired_eq_some hrefresh
    refine ⟨hpast, hheld, hfailed, h.cooled, fun t ht => ?_, h.spaced⟩
    rcases mem_starts_started.mp ht with ⟨-, rfl⟩ | hbefore
    · exact Or.inr (Or.inl ⟨call, hreason, rfl⟩)
    · exact (hsettled t hbefore).imp_right Or.inr
  | unknownKid =>
    rw [hreason] at hrefresh hpast hheld hfailed
    obtain ⟨rfl, hcool⟩ := refreshKeys_unknownKid_eq_some hrefresh
    refine ⟨hpast, hheld, hfailed, fun t ht => ?_,
      fun t ht => (hsettled t ht).imp_right Or.inr, ?_⟩
    · rcases mem_starts_started.mp ht with ⟨-, rfl⟩ | hbefore
      · exact le_rfl
      · have hearlier := h.cooled t hbefore
        have hnow : w.now ≤ w.now + unknownKidRefreshCooldownSeconds :=
          le_add_of_nonneg_right (by decide)
        exact hearlier.trans (hcool.trans hnow)
    · exact spaced_cons.mpr ⟨fun t ht => (h.cooled t ht).trans hcool, h.spaced⟩

/-- Every event keeps what is known of the fetches. -/
theorem fetching_event (h : Fetching w) (hevent : Event strict w w') : Fetching w' := by
  cases hevent with
  | wait => exact ⟨h.past, h.held, h.failed, h.cooled, h.settled, h.spaced⟩
  | tick now hnow =>
    exact ⟨fun reason t ht => (h.past reason t ht).trans hnow, h.held, h.failed, h.cooled,
      h.settled, h.spaced⟩
  | delay now =>
    exact ⟨h.past, h.held, h.failed, fun t ht => (h.cooled t ht).trans (le_max_left _ _),
      h.settled, h.spaced⟩
  | start call verifier hfree hrefresh => exact fetching_start h hfree hrefresh
  | fail call start hheld =>
    refine ⟨h.past, nofun, fun reason t ht => ?_, h.cooled, fun t ht => ?_, h.spaced⟩
    · rcases mem_failures_failed.mp ht with ⟨rfl, rfl⟩ | hbefore
      · exact h.held call t hheld
      · exact h.failed reason t hbefore
    · rcases h.settled t ht with hfail | ⟨c, hc, hflight⟩ | hlive
      · exact Or.inl (mem_failures_failed.mpr (Or.inr hfail))
      · cases hheld.symm.trans hflight
        exact Or.inl (mem_failures_failed.mpr (Or.inl ⟨hc, rfl⟩))
      · exact Or.inr (Or.inr hlive)
  | succeed call start keys hheld hkeys =>
    refine ⟨h.past, nofun, h.failed, h.cooled, fun t ht => Or.inr (Or.inr ⟨hkeys, ?_⟩), h.spaced⟩
    have httl : (30 : ℚ) ≤ w.verifier.jwksTtlSeconds := by
      exact_mod_cast w.verifier.ttl_ge
    exact add_le_add (h.past .expired t ht) httl
  | accept kid key hkey hfresh =>
    exact ⟨h.past, h.held, h.failed, h.cooled, h.settled, h.spaced⟩

/-- At every start the fetches before it have been settled, so they are spaced when no early retry
follows a failure, and the other way round. -/
theorem limited_iff_event (h : Fetching w)
    (hiff : FetchesLimited w.history ↔ NoEarlyRetry w.history) (hevent : Event strict w w') :
    FetchesLimited w'.history ↔ NoEarlyRetry w'.history := by
  cases hevent with
  | wait => exact hiff
  | tick => exact hiff
  | delay => exact hiff
  | fail => exact hiff
  | succeed => exact hiff
  | accept => exact hiff
  | start call verifier hfree hrefresh =>
    have hstart := fetching_start h hfree hrefresh
    cases hreason : call.reason with
    | unknownKid =>
      rw [hreason] at hstart
      constructor
      · intro hlimited
        refine hiff.mp fun reason => ?_
        cases reason with
        | expired => exact hlimited .expired
        | unknownKid => exact limited_of_spaced h.spaced
      · intro hretry reason
        cases reason with
        | expired => exact hiff.mpr hretry .expired
        | unknownKid => exact limited_of_spaced hstart.spaced
    | expired =>
      rw [hreason] at hrefresh
      obtain ⟨rfl, hempty⟩ := refreshKeys_expired_eq_some hrefresh
      constructor
      · intro hlimited
        have hbefore : FetchesLimited w.history := by
          intro reason
          cases reason with
          | expired => exact limited_of_cons (hlimited .expired)
          | unknownKid => exact limited_of_spaced h.spaced
        refine ⟨fun start hfailed => ?_, hiff.mp hbefore⟩
        have hstarted := h.failed .expired start hfailed
        exact add_le_of_limited (by decide) (hlimited .expired) hstarted
          (h.past .expired start hstarted)
      · rintro ⟨hretry, hbefore⟩ reason
        cases reason with
        | unknownKid => exact limited_of_spaced h.spaced
        | expired =>
          refine limited_cons (fun t ht => ?_) (hiff.mpr hbefore .expired)
          rcases h.settled t ht with hfail | ⟨c, -, hflight⟩ | ⟨hkeys, hlive⟩
          · exact hretry t hfail
          · rw [hfree] at hflight
            cases hflight
          · rcases hempty with hnone | hexpired
            · exact absurd hnone hkeys
            · exact hlive.trans hexpired

end Fetches

/-- Whatever calls are made and whatever their fetches return, at most one fetch for an expired or
empty cache and one for unknown keys is started in every half-open interval of the cooldown's
length, exactly when no fetch for an expired or empty cache is tried again within the cooldown
after one that failed. -/
theorem fetches_limited_iff (v : Verifier Key) (start : ℚ) {actions : List Action}
    {w : World Key} (hrun : World.run lib { verifier := v, now := start } actions = some w) :
    FetchesLimited w.history ↔ NoEarlyRetry w.history := by
  have hevents := events_run hrun
  clear hrun
  have hinv : Fetching w ∧ (FetchesLimited w.history ↔ NoEarlyRetry w.history) := by
    induction hevents with
    | refl =>
      have hnone : FetchesLimited ([] : List (Entry Key)) := fun _ => limited_of_spaced .nil
      exact ⟨⟨nofun, nofun, nofun, nofun, nofun, .nil⟩, fun _ => trivial, fun _ => hnone⟩
    | tail _ hevent ih =>
      exact ⟨fetching_event ih.1 hevent, limited_iff_event ih.1 ih.2 hevent⟩
  exact hinv.2

namespace Fixture

/-- Three calls find the cache empty while the fetches fail. -/
def failingRun : List Action :=
  [verify "a" 0, .fetched (.error .unavailable) (atTime 0),
    verify "b" 1, .fetched (.error .unavailable) (atTime 1),
    verify "c" 2, .fetched (.error .unavailable) (atTime 2)]

set_option maxRecDepth 100000 in
/-- What the failing run leaves in the history. -/
theorem run_failing :
    (World.run library { verifier := verifier, now := 0 } failingRun).map (·.history) = some
      [.failed .expired 2, .started .expired 2, .failed .expired 1, .started .expired 1,
        .failed .expired 0, .started .expired 0] := by
  decide +kernel

/-- Fetches that fail are started again at once, so the failing run is not limited. -/
theorem fetches_limited_iff_failing : ∃ w,
    World.run library { verifier := verifier, now := 0 } failingRun = some w ∧
      ¬ FetchesLimited w.history := by
  obtain ⟨w, hrun, hhistory⟩ := Option.map_eq_some_iff.mp run_failing
  refine ⟨w, hrun, fun hlimited => ?_⟩
  have hretry := (fetches_limited_iff verifier 0 hrun).mp hlimited
  rw [hhistory] at hretry
  have hspace : (1 : ℚ) + 30 ≤ 2 := hretry.1 1 List.mem_cons_self
  norm_num at hspace

/-- Three fetches are started within three seconds. -/
theorem three_fetches : ¬ ∀ (w : World String) (actions : List Action) (t : ℚ),
    World.run library { verifier := verifier, now := 0 } actions = some w →
    (within unknownKidRefreshCooldownSeconds t (starts .expired w.history)).length +
      (within unknownKidRefreshCooldownSeconds t (starts .unknownKid w.history)).length ≤ 2 := by
  intro h
  obtain ⟨w, hrun, hhistory⟩ := Option.map_eq_some_iff.mp run_failing
  have hthree := h w failingRun 0 hrun
  rw [hhistory] at hthree
  revert hthree
  decide +kernel

end Fixture

end LabGoblin.CloudflareAccess
