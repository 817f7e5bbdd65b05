import Mathlib.Algebra.Order.Group.Defs
import Mathlib.Data.List.Pairwise

/-!
# Spaced moments

Moments are listed latest first. Every half-open interval of a length has at most one of them
exactly when each is at least that length after every earlier one.
-/

set_option autoImplicit false

namespace Interactive

variable {T : Type} [AddCommGroup T] [LinearOrder T]

/-- The moments in the half-open interval of length `d` from `t`. -/
def within (d t : T) (moments : List T) : List T := moments.filter fun m => t ≤ m ∧ m < t + d

/-- Every half-open interval of length `d` has at most one of the moments. -/
def Limited (d : T) (moments : List T) : Prop := ∀ t, (within d t moments).length ≤ 1

/-- Each moment is at least `d` after every earlier one. -/
def Spaced (d : T) (moments : List T) : Prop :=
  moments.Pairwise fun later earlier => earlier + d ≤ later

variable {d m : T} {moments : List T}

/-- A moment more keeps the spacing when it is late enough after every earlier one. -/
theorem spaced_cons :
    Spaced d (m :: moments) ↔ (∀ e ∈ moments, e + d ≤ m) ∧ Spaced d moments :=
  List.pairwise_cons

/-- Leaving out the last moment keeps every interval limited. -/
theorem limited_of_cons (h : Limited d (m :: moments)) : Limited d moments := by
  intro t
  have hsub : (within d t moments).Sublist (within d t (m :: moments)) :=
    (List.sublist_cons_self m moments).filter _
  exact hsub.length_le.trans (h t)

variable [IsOrderedAddMonoid T]

/-- Where every interval is limited, a moment is at least `d` after each that is not later than it.
-/
theorem add_le_of_limited (hd : 0 < d) (h : Limited d (m :: moments)) {e : T} (he : e ∈ moments)
    (hle : e ≤ m) : e + d ≤ m := by
  by_cases hspace : e + d ≤ m
  · exact hspace
  · have hin : e ∈ within d e moments := by
      simp [within, he, hd]
    have hcons : within d e (m :: moments) = m :: within d e moments :=
      List.filter_cons_of_pos (by simp [hle, not_le.mp hspace])
    have hlimit := h e
    have hpos := List.length_pos_of_mem hin
    rw [hcons, List.length_cons] at hlimit
    omega

/-- A moment that is late enough after every earlier one keeps every interval limited. -/
theorem limited_cons (h : ∀ e ∈ moments, e + d ≤ m) (hrest : Limited d moments) :
    Limited d (m :: moments) := by
  intro t
  by_cases hin : t ≤ m ∧ m < t + d
  · have hempty : within d t moments = [] := by
      refine List.filter_eq_nil_iff.mpr fun e he => ?_
      have hbefore : e < t := lt_of_add_lt_add_right ((h e he).trans_lt hin.2)
      simp [hbefore]
    have hcons : within d t (m :: moments) = m :: within d t moments :=
      List.filter_cons_of_pos (by simpa using hin)
    rw [hcons, hempty]
    exact le_rfl
  · have hcons : within d t (m :: moments) = within d t moments :=
      List.filter_cons_of_neg (by simpa using hin)
    rw [hcons]
    exact hrest t

/-- Moments that are spaced by `d` leave at most one in every interval of that length. -/
theorem limited_of_spaced (h : Spaced d moments) : Limited d moments := by
  induction moments with
  | nil => exact fun t => Nat.zero_le 1
  | cons m moments ih =>
    obtain ⟨hfirst, hrest⟩ := spaced_cons.mp h
    exact limited_cons hfirst (ih hrest)

end Interactive
