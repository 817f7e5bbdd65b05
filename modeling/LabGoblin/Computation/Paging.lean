import Mathlib.Algebra.Order.BigOperators.Group.List
import Mathlib.Algebra.Order.Group.Nat

/-!
# Pages

A list that is read in pages: the offsets of the pages are the multiples of a step that are below
the length of the list. Pages that are as long as the step make up the list, and shorter pages
leave something out.
-/

set_option autoImplicit false

namespace Interactive

/-- The offsets `0`, `step`, `2 * step`, … below a total. -/
def offsets (step total : ℕ) : List ℕ := (List.range total).filter (step ∣ ·)

/-- A total that fits one page has the offset zero alone. -/
theorem offsets_of_le {step total : ℕ} (htotal : 0 < total) (h : total ≤ step) :
    offsets step total = [0] := by
  obtain ⟨m, rfl⟩ := Nat.exists_eq_succ_of_ne_zero (by omega : total ≠ 0)
  unfold offsets
  rw [List.range_succ_eq_map, List.filter_cons, if_pos (by simp)]
  congr 1
  refine List.filter_eq_nil_iff.mpr fun i hi hdvd => ?_
  obtain ⟨j, hj, rfl⟩ := List.mem_map.mp hi
  have hlt : j < m := List.mem_range.mp hj
  have hle : step ≤ j + 1 := Nat.le_of_dvd (by omega) (of_decide_eq_true hdvd)
  omega

/-- Without a step only the offset zero is left. -/
theorem offsets_zero {total : ℕ} (h : 0 < total) : offsets 0 total = [0] := by
  obtain ⟨m, rfl⟩ := Nat.exists_eq_succ_of_ne_zero (by omega : total ≠ 0)
  unfold offsets
  rw [List.range_succ_eq_map, List.filter_cons, if_pos (by simp)]
  congr 1
  refine List.filter_eq_nil_iff.mpr fun i hi hdvd => ?_
  obtain ⟨j, -, rfl⟩ := List.mem_map.mp hi
  simp at hdvd

/-- With a page more, the offsets are zero and the old ones one step on. -/
theorem offsets_add {step : ℕ} (h : 0 < step) (total : ℕ) :
    offsets step (step + total) = 0 :: (offsets step total).map (step + ·) := by
  have hfirst : (List.range step).filter (step ∣ ·) = [0] := offsets_of_le h (le_refl step)
  unfold offsets
  rw [List.range_add, List.filter_append, hfirst, List.filter_map]
  simp [Function.comp_def]

/-- The first offset is zero. -/
theorem exists_offsets_cons (step : ℕ) {total : ℕ} (h : 0 < total) :
    ∃ rest, offsets step total = 0 :: rest := by
  obtain ⟨m, rfl⟩ := Nat.exists_eq_succ_of_ne_zero (by omega : total ≠ 0)
  unfold offsets
  rw [List.range_succ_eq_map, List.filter_cons, if_pos (by simp)]
  exact ⟨_, rfl⟩

variable {α : Type}

/-- The pages of a list that start every `step` items. -/
def pages (step size : ℕ) (l : List α) : List α :=
  (offsets step l.length).flatMap fun o => (l.drop o).take size

/-- Pages that are as long as the step make up the list. -/
theorem pages_self {step : ℕ} (h : 0 < step) (l : List α) : pages step step l = l := by
  induction hn : l.length using Nat.strong_induction_on generalizing l with
  | _ n ih =>
    subst hn
    unfold pages
    by_cases hlong : l.length ≤ step
    · by_cases hempty : l = []
      · subst hempty
        rfl
      · have hpos : 0 < l.length := List.length_pos_iff.mpr hempty
        rw [offsets_of_le hpos hlong]
        simp [List.take_of_length_le hlong]
    · have hrest : (l.drop step).length < l.length := by
        rw [List.length_drop]
        omega
      have hlen : l.length = step + (l.drop step).length := by
        rw [List.length_drop]
        omega
      have hih := ih _ hrest (l.drop step) rfl
      unfold pages at hih
      rw [hlen, offsets_add h, List.flatMap_cons, List.flatMap_map]
      simp only [List.drop_zero, ← List.drop_drop]
      rw [hih, List.take_append_drop]

/-- A list that fits on the first page, where no other page starts on it. -/
theorem pages_of_length_le {step size : ℕ} {l : List α} (hstep : step = 0 ∨ size ≤ step)
    (h : l.length ≤ size) : pages step size l = l := by
  unfold pages
  by_cases hempty : l = []
  · subst hempty
    rfl
  · have hpos : 0 < l.length := List.length_pos_iff.mpr hempty
    have hoffsets : offsets step l.length = [0] := by
      rcases hstep with rfl | hstep
      · exact offsets_zero hpos
      · exact offsets_of_le hpos (by omega)
    rw [hoffsets]
    simp [List.take_of_length_le h]

/-- Pages shorter than the step leave something out of a list that is longer than a page. -/
theorem length_pages_lt {step size : ℕ} {l : List α} (hstep : step = 0 ∨ size < step)
    (h : size < l.length) : (pages step size l).length < l.length := by
  unfold pages
  rcases hstep with rfl | hstep
  · rw [offsets_zero (by omega)]
    simpa using h
  · have hfull := congrArg List.length (pages_self (by omega : 0 < step) l)
    unfold pages at hfull
    have hpages : ∀ offsets : List ℕ,
        (offsets.flatMap fun o => (l.drop o).take size).length ≤
          (offsets.flatMap fun o => (l.drop o).take step).length := by
      intro offsets
      rw [List.length_flatMap, List.length_flatMap]
      refine List.sum_le_sum fun o _ => ?_
      simp only [List.length_take]
      omega
    obtain ⟨rest, hrest⟩ := exists_offsets_cons step (by omega : 0 < l.length)
    rw [hrest] at hfull ⊢
    have hothers := hpages rest
    rw [List.flatMap_cons, List.length_append, List.drop_zero, List.length_take] at hfull ⊢
    omega

end Interactive
