import Mathlib.Data.List.Nodup
import Mathlib.Data.List.Perm.Subperm

/-!
# Unused candidates

A loop that tries one candidate after the other until it finds one that is not used. Where the
candidates differ, it ends after as many rounds as there are used ones and one more.
-/

set_option autoImplicit false

namespace Interactive.Fresh

variable {α : Type} [DecidableEq α]

/-- The first candidate from `n` on that is not used, within so many rounds. -/
def search (candidate : ℕ → α) (used : List α) : ℕ → ℕ → Option α
  | 0, _ => none
  | rounds + 1, n =>
    if candidate n ∈ used then search candidate used rounds (n + 1) else some (candidate n)

variable {candidate : ℕ → α} {used : List α} {rounds n : ℕ} {a : α}

/-- What is found is a candidate that is not used. -/
theorem search_spec (h : search candidate used rounds n = some a) :
    a ∉ used ∧ ∃ m, n ≤ m ∧ m < n + rounds ∧ a = candidate m := by
  induction rounds generalizing n with
  | zero => cases h
  | succ rounds ih =>
    unfold search at h
    split at h
    · obtain ⟨hunused, m, hle, hlt, heq⟩ := ih h
      exact ⟨hunused, m, by omega, by omega, heq⟩
    · next hunused =>
      cases h
      exact ⟨hunused, n, by omega, by omega, rfl⟩

/-- Where nothing is found, every candidate that was tried is used. -/
theorem used_of_search_none (h : search candidate used rounds n = none) {m : ℕ} (hle : n ≤ m)
    (hlt : m < n + rounds) : candidate m ∈ used := by
  induction rounds generalizing n with
  | zero => omega
  | succ rounds ih =>
    unfold search at h
    split at h
    · next hused =>
      by_cases hm : m = n
      · rw [hm]
        exact hused
      · exact ih h (by omega) (by omega)
    · cases h

/-- Among candidates that differ, one is found in more rounds than there are used ones. -/
theorem search_isSome (hinj : ∀ i j, n ≤ i → n ≤ j → candidate i = candidate j → i = j)
    (hrounds : used.length < rounds) : (search candidate used rounds n).isSome = true := by
  cases h : search candidate used rounds n with
  | some a => rfl
  | none =>
    have hnodup : ((List.range rounds).map fun i => candidate (n + i)).Nodup := by
      refine List.Nodup.map ?_ List.nodup_range
      intro i j heq
      have := hinj (n + i) (n + j) (by omega) (by omega) heq
      omega
    have hsub : ((List.range rounds).map fun i => candidate (n + i)) ⊆ used := by
      intro c hc
      obtain ⟨i, hi, rfl⟩ := List.mem_map.mp hc
      have hi := List.mem_range.mp hi
      exact used_of_search_none h (by omega) (by omega)
    have hlength := (List.subperm_of_subset hnodup hsub).length_le
    rw [List.length_map, List.length_range] at hlength
    omega

end Interactive.Fresh
