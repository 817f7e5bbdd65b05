import Mathlib.Data.List.Induction

/-!
# Inventories

What exists of each kind, as a list. Entries that are new and distinct can be taken back: removing
them one by one, newest first, leads through the inventories before each of them to the first.
-/

set_option autoImplicit false

namespace Interactive

variable {κ ι : Type} [DecidableEq κ] [DecidableEq ι]

abbrev Inventory (κ ι : Type) := κ → List ι

namespace Inventory

def add (a : Inventory κ ι) (k : κ) (i : ι) : Inventory κ ι :=
  fun l => if l = k then a l ++ [i] else a l

def remove (a : Inventory κ ι) (k : κ) (i : ι) : Inventory κ ι :=
  fun l => if l = k then (a l).erase i else a l

/-- The inventory with all the entries, the first one first. -/
def addEach (a : Inventory κ ι) (entries : List (κ × ι)) : Inventory κ ι :=
  entries.foldl (fun b e => b.add e.1 e.2) a

def removeEach (a : Inventory κ ι) (entries : List (κ × ι)) : Inventory κ ι :=
  entries.foldl (fun b e => b.remove e.1 e.2) a

variable {a : Inventory κ ι} {k l : κ} {i j : ι} {entries : List (κ × ι)}

omit [DecidableEq ι] in
/-- Adding an entry adds it to its own kind and to no other. -/
theorem mem_add : j ∈ a.add k i l ↔ j ∈ a l ∨ (l = k ∧ j = i) := by
  unfold add
  by_cases h : l = k
  · simp [h]
  · simp [h]

/-- Removing one entry keeps every other one. -/
theorem mem_remove_of_ne (hmem : j ∈ a l) (hne : (l, j) ≠ (k, i)) : j ∈ a.remove k i l := by
  unfold remove
  by_cases h : l = k
  · rw [if_pos h]
    refine (List.mem_erase_of_ne fun hji => hne ?_).mpr hmem
    rw [h, hji]
  · rw [if_neg h]
    exact hmem

/-- A new entry is taken back by its removal. -/
theorem remove_add (hnew : i ∉ a k) : (a.add k i).remove k i = a := by
  funext l
  unfold remove add
  by_cases h : l = k
  · rw [if_pos h, if_pos h, h, List.erase_append_right _ hnew]
    simp
  · rw [if_neg h, if_neg h]

omit [DecidableEq ι] in
/-- The last entry is added after the others. -/
theorem addEach_concat (e : κ × ι) :
    a.addEach (entries ++ [e]) = (a.addEach entries).add e.1 e.2 := by
  unfold addEach
  rw [List.foldl_append]
  rfl

omit [DecidableEq ι] in
/-- After adding some entries, what exists was there or is one of them. -/
theorem mem_addEach : j ∈ a.addEach entries l ↔ j ∈ a l ∨ (l, j) ∈ entries := by
  induction entries generalizing a with
  | nil => simp [addEach]
  | cons e entries ih =>
    have hstep : a.addEach (e :: entries) = (a.add e.1 e.2).addEach entries := rfl
    rw [hstep, ih, mem_add, List.mem_cons, Prod.ext_iff, or_assoc]

/-- The removal of the last entry leads back to the inventory without it. -/
theorem remove_addEach_concat {e : κ × ι} (hnew : e.2 ∉ a e.1) (hdistinct : e ∉ entries) :
    (a.addEach (entries ++ [e])).remove e.1 e.2 = a.addEach entries := by
  rw [addEach_concat]
  refine remove_add fun hmem => ?_
  rcases mem_addEach.mp hmem with h | h
  · exact hnew h
  · exact hdistinct h

/-- The newest entries, removed newest first, leave the others. -/
theorem removeEach_addEach_append {older newer : List (κ × ι)}
    (hnew : ∀ e ∈ older ++ newer, e.2 ∉ a e.1) (hdistinct : (older ++ newer).Nodup) :
    (a.addEach (older ++ newer)).removeEach newer.reverse = a.addEach older := by
  induction newer using List.reverseRecOn with
  | nil =>
    rw [List.append_nil]
    rfl
  | append_singleton newer e ih =>
    have happend : older ++ (newer ++ [e]) = older ++ newer ++ [e] := by
      rw [List.append_assoc]
    rw [happend] at hnew hdistinct ⊢
    have hlast : e ∉ older ++ newer := fun hmem =>
      (List.nodup_append.mp hdistinct).2.2 e hmem e (List.mem_singleton_self e) rfl
    have hstep := remove_addEach_concat (hnew e (List.mem_append_right _ (by simp))) hlast
    rw [List.reverse_append]
    show removeEach (remove (a.addEach (older ++ newer ++ [e])) e.1 e.2) newer.reverse = _
    rw [hstep]
    exact ih (fun e' he' => hnew e' (List.mem_append_left _ he'))
      (List.nodup_append.mp hdistinct).1

/-- What is not among the removed entries stays. -/
theorem mem_removeEach (hmem : j ∈ a l) (hnot : (l, j) ∉ entries) :
    j ∈ a.removeEach entries l := by
  induction entries generalizing a with
  | nil => exact hmem
  | cons e entries ih =>
    rw [List.mem_cons, not_or] at hnot
    exact ih (mem_remove_of_ne hmem hnot.1) hnot.2

end Inventory

end Interactive
