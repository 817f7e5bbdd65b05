import Mathlib.Logic.Function.Basic
import Mathlib.Data.Option.Basic
import Mathlib.Data.Nat.Notation

/-!
# Guarded runs and locks that lapse

The states that a partial step function reaches by steps which meet a condition, and the locks of
some holders, each of which lapses at a limit.
-/

set_option autoImplicit false

namespace Interactive.Guarded

section Runs

variable {S A : Type} (step : S → A → Option S) (ok : S → A → Prop)

/-- A state is reached from another one by steps that meet a condition. -/
inductive Reaches (s : S) : S → Prop where
  | start : Reaches s s
  | step {t t' : S} (a : A) (h : Reaches s t) (hok : ok t a) (ht : step t a = some t') :
      Reaches s t'

/-- Run some steps, as far as they meet a condition. -/
def follow [∀ s a, Decidable (ok s a)] (s : S) : List A → Option S
  | [] => some s
  | a :: as => if ok s a then (step s a).bind fun t => follow t as else none

variable {step ok}

/-- What holds at the start and is kept by every step that meets the condition. -/
theorem Reaches.invariant {s t : S} (h : Reaches step ok s t) {Inv : S → Prop} (hs : Inv s)
    (hstep : ∀ t a t', Inv t → ok t a → step t a = some t' → Inv t') : Inv t := by
  induction h with
  | start => exact hs
  | step a _ hok ht ih => exact hstep _ a _ ih hok ht

/-- What is reached from a reached state is reached. -/
theorem Reaches.trans {s t u : S} (h : Reaches step ok s t) (h' : Reaches step ok t u) :
    Reaches step ok s u := by
  induction h' with
  | start => exact h
  | step a _ hok ht ih => exact .step a ih hok ht

/-- The state that some steps compute is reached. -/
theorem reaches_of_follow [∀ s a, Decidable (ok s a)] {s t : S} {as : List A}
    (h : follow step ok s as = some t) : Reaches step ok s t := by
  induction as generalizing s with
  | nil =>
    simp only [follow, Option.some.injEq] at h
    subst h
    exact .start
  | cons a as ih =>
    rw [follow] at h
    by_cases hok : ok s a
    · rw [if_pos hok, Option.bind_eq_some_iff] at h
      obtain ⟨u, hu, hrest⟩ := h
      have hfirst : Reaches step ok s u := .step a .start hok hu
      exact hfirst.trans (ih hrest)
    · rw [if_neg hok] at h
      cases h

/-- The state that some steps compute is reached, where it is known to exist. -/
theorem reaches_get [∀ s a, Decidable (ok s a)] {s : S} {as : List A}
    (h : (follow step ok s as).isSome = true) :
    Reaches step ok s ((follow step ok s as).get h) :=
  reaches_of_follow (Option.some_get h).symm

end Runs

/-! ## Parts of a state that change -/

section Update

variable {I V W : Type} [DecidableEq I] {f : I → V} {i j : I} {v w : V}

/-- Where a part has changed it has the new value, elsewhere the one that it had. -/
theorem update_cases (h : Function.update f i v j = w) :
    (j = i ∧ v = w) ∨ (j ≠ i ∧ f j = w) := by
  by_cases hj : j = i
  · rw [hj, Function.update_self] at h
    exact Or.inl ⟨hj, h⟩
  · rw [Function.update_of_ne hj] at h
    exact Or.inr ⟨hj, h⟩

/-- The same of what is read from the part. -/
theorem update_read_cases {g : V → W} {b : W} (h : g (Function.update f i v j) = b) :
    (j = i ∧ g v = b) ∨ (j ≠ i ∧ g (f j) = b) := by
  rcases update_cases (f := f) (i := i) (v := v) (j := j) rfl with ⟨hj, hv⟩ | ⟨hj, hf⟩
  · rw [← hv] at h
    exact Or.inl ⟨hj, h⟩
  · rw [← hf] at h
    exact Or.inr ⟨hj, h⟩

end Update

/-! ## Locks -/

section Locks

variable {H K : Type}

/-- A holder's lock of a name, which it has not given back, has not lapsed. -/
def Holds (lock : H → Option (K × ℕ)) (now : ℕ) (h : H) (k : K) : Prop :=
  ∃ limit, lock h = some (k, limit) ∧ now ≤ limit

instance [DecidableEq K] (lock : H → Option (K × ℕ)) (now : ℕ) (h : H) (k : K) :
    Decidable (Holds lock now h k) :=
  decidable_of_iff ((lock h).any (fun l => l.1 = k ∧ now ≤ l.2) = true) <| by
    simp only [Option.any_eq_true, decide_eq_true_eq, Holds]
    constructor
    · rintro ⟨⟨_, limit⟩, hlock, rfl, hlimit⟩
      exact ⟨limit, hlock, hlimit⟩
    · rintro ⟨limit, hlock, hlimit⟩
      exact ⟨(k, limit), hlock, rfl, hlimit⟩

/-- No two holders have locks of one name that have not lapsed. -/
def Exclusive (lock : H → Option (K × ℕ)) (now : ℕ) : Prop :=
  ∀ h h' k, Holds lock now h k → Holds lock now h' k → h = h'

variable {lock lock' : H → Option (K × ℕ)} {now now' : ℕ}

/-- A lock that has not lapsed had not lapsed before. -/
theorem Holds.earlier {h : H} {k : K} (hh : Holds lock now' h k) (hle : now ≤ now') :
    Holds lock now h k := by
  obtain ⟨limit, hlock, hlimit⟩ := hh
  exact ⟨limit, hlock, by omega⟩

/-- Locks that exclude each other go on doing so while time passes. -/
theorem Exclusive.later (h : Exclusive lock now) (hle : now ≤ now') : Exclusive lock now' :=
  fun a b k ha hb => h a b k (ha.earlier hle) (hb.earlier hle)

variable [DecidableEq H]

/-- A holder gets the lock of a name of which no lock is left. -/
theorem Exclusive.acquire (hex : Exclusive lock now) {h : H} {k : K} (limit : ℕ)
    (hfree : ∀ h', ¬ Holds lock now h' k) :
    Exclusive (Function.update lock h (some (k, limit))) now := by
  have hkeep : ∀ a k', a ≠ h → Holds (Function.update lock h (some (k, limit))) now a k' →
      Holds lock now a k' := by
    intro a k' ha hhold
    unfold Holds at hhold ⊢
    rwa [Function.update_of_ne ha] at hhold
  have hname : ∀ k', Holds (Function.update lock h (some (k, limit))) now h k' → k' = k := by
    rintro k' ⟨limit', hlock, -⟩
    rw [Function.update_self, Option.some.injEq, Prod.mk.injEq] at hlock
    exact hlock.1.symm
  intro a b k' ha hb
  by_cases hah : a = h
  · by_cases hbh : b = h
    · rw [hah, hbh]
    · subst hah
      have hk := hname k' ha
      subst hk
      exact absurd (hkeep b _ hbh hb) (hfree b)
  · by_cases hbh : b = h
    · subst hbh
      have hk := hname k' hb
      subst hk
      exact absurd (hkeep a _ hah ha) (hfree a)
    · exact hex a b k' (hkeep a k' hah ha) (hkeep b k' hbh hb)

/-- A holder gives its lock back. -/
theorem Exclusive.release (hex : Exclusive lock now) (h : H) :
    Exclusive (Function.update lock h none) now := by
  have hkeep : ∀ a k, Holds (Function.update lock h none) now a k → Holds lock now a k := by
    rintro a k ⟨limit, hlock, hlimit⟩
    rcases update_cases hlock with ⟨-, hnone⟩ | ⟨-, hlock⟩
    · cases hnone
    · exact ⟨limit, hlock, hlimit⟩
  exact fun a b k ha hb => hex a b k (hkeep a k ha) (hkeep b k hb)

end Locks

end Interactive.Guarded
