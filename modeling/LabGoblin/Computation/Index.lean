import Mathlib.Data.Finmap
import Mathlib.Data.Finset.Sort

/-!
# Inverse indexes

A dictionary from keys to sets of values that a loop fills from pairs, and the dictionary of
the nonempty reports of a list of keys. Two dictionaries are equal where their lookups are, so
neither depends on the order of what it was made from.
-/

set_option autoImplicit false

namespace Interactive

variable {κ ν : Type} [DecidableEq κ] [DecidableEq ν]

/-- The values that occur with each key. -/
abbrev Index (κ ν : Type) := Finmap fun _ : κ => Finset ν

namespace Index

/-- The values of a key, of which there are none where the key is not there. -/
def values (index : Index κ ν) (key : κ) : Finset ν := (index.lookup key).getD ∅

/-- `index.setdefault(key, set()).add(value)` -/
def add (index : Index κ ν) (key : κ) (value : ν) : Index κ ν :=
  index.insert key (insert value (index.values key))

/-- The index of a list of pairs. -/
def ofPairs (pairs : List (κ × ν)) : Index κ ν :=
  pairs.foldl (fun index pair => index.add pair.1 pair.2) ∅

omit [DecidableEq ν] in
/-- A lookup finds the values of a key that is there. -/
theorem lookup_eq (index : Index κ ν) (key : κ) :
    index.lookup key = if key ∈ index then some (index.values key) else none := by
  by_cases h : key ∈ index
  · obtain ⟨values, hvalues⟩ := Finmap.mem_iff.mp h
    rw [if_pos h, Index.values, hvalues, Option.getD_some]
  · rw [if_neg h, Finmap.lookup_eq_none.mpr h]

/-- After an addition a key has its old values, and the added one under the added key. -/
theorem mem_values_add {index : Index κ ν} {key key' : κ} {value value' : ν} :
    value' ∈ (index.add key value).values key' ↔
      key' = key ∧ value' = value ∨ value' ∈ index.values key' := by
  by_cases h : key' = key
  · subst h
    simp [add, values, Finmap.lookup_insert]
  · simp [add, values, Finmap.lookup_insert_of_ne _ h, h]

/-- After an addition the keys are the old ones and the added one. -/
theorem mem_add {index : Index κ ν} {key key' : κ} {value : ν} :
    key' ∈ index.add key value ↔ key' = key ∨ key' ∈ index := Finmap.mem_insert

/-- The loop from an index that is there already. -/
theorem mem_foldl_add (pairs : List (κ × ν)) (index : Index κ ν) (key : κ) :
    (key ∈ pairs.foldl (fun index pair => index.add pair.1 pair.2) index ↔
      key ∈ index ∨ ∃ value, (key, value) ∈ pairs) ∧
    ∀ value, value ∈ Index.values (pairs.foldl (fun index pair => index.add pair.1 pair.2) index)
        key ↔ value ∈ index.values key ∨ (key, value) ∈ pairs := by
  induction pairs generalizing index with
  | nil => simp
  | cons pair pairs ih =>
    obtain ⟨key', value'⟩ := pair
    obtain ⟨hkey, hvalues⟩ := ih (index.add key' value')
    rw [List.foldl_cons]
    constructor
    · rw [hkey, mem_add]
      simp only [List.mem_cons, Prod.mk.injEq, exists_or]
      constructor
      · rintro ((h | h) | h)
        · exact .inr (.inl ⟨value', h, rfl⟩)
        · exact .inl h
        · exact .inr (.inr h)
      · rintro (h | ⟨value, h, -⟩ | h)
        · exact .inl (.inr h)
        · exact .inl (.inl h)
        · exact .inr h
    · intro value
      rw [hvalues value, mem_values_add, List.mem_cons, Prod.mk.injEq]
      tauto

/-- The keys of the index are the first components of the pairs. -/
theorem mem_ofPairs {pairs : List (κ × ν)} {key : κ} :
    key ∈ ofPairs pairs ↔ ∃ value, (key, value) ∈ pairs := by
  rw [ofPairs, (mem_foldl_add pairs ∅ key).1, or_iff_right Finmap.notMem_empty]

/-- The values of a key are those that it is paired with. -/
theorem mem_values_ofPairs {pairs : List (κ × ν)} {key : κ} {value : ν} :
    value ∈ (ofPairs pairs).values key ↔ (key, value) ∈ pairs := by
  have h := (mem_foldl_add pairs ∅ key).2 value
  simpa [ofPairs, values] using h

/-- An index is made from a set of pairs. -/
theorem ofPairs_congr {pairs pairs' : List (κ × ν)} (h : ∀ pair, pair ∈ pairs ↔ pair ∈ pairs') :
    ofPairs pairs = ofPairs pairs' := by
  apply Finmap.ext_lookup
  intro key
  have hkey : key ∈ ofPairs pairs ↔ key ∈ ofPairs pairs' := by
    simp only [mem_ofPairs, h]
  have hvalues : (ofPairs pairs).values key = (ofPairs pairs').values key := by
    ext value
    simp only [mem_values_ofPairs, h]
  rw [lookup_eq, lookup_eq, hvalues]
  simp only [hkey]

/-- The keys that a value does not occur with. -/
def lacking (index : Index κ ν) (value : ν) : Finset κ :=
  index.keys.filter fun key => value ∉ index.values key

/-- A key lacks a value when it is there and the value is not among its values. -/
theorem mem_lacking {index : Index κ ν} {key : κ} {value : ν} :
    key ∈ index.lacking value ↔ key ∈ index ∧ value ∉ index.values key := by
  rw [lacking, Finset.mem_filter, Finmap.mem_keys]

end Index

/-! ## Reports -/

variable {ρ : Type}

/-- `reports[key] = report(key)` for every key whose report is not empty. -/
def reports (report : κ → List ρ) (keys : List κ) : Finmap fun _ : κ => List ρ :=
  keys.foldl (fun reported key =>
    if (report key).isEmpty then reported else reported.insert key (report key)) ∅

/-- The loop writes the report of every key that has one and keeps what was reported before. -/
theorem lookup_foldl_reports (report : κ → List ρ) (keys : List κ)
    (reported : Finmap fun _ : κ => List ρ) (key : κ) :
    (keys.foldl (fun reported key =>
      if (report key).isEmpty then reported else reported.insert key (report key))
        reported).lookup key =
      if key ∈ keys ∧ report key ≠ [] then some (report key) else reported.lookup key := by
  induction keys generalizing reported with
  | nil => simp
  | cons head keys ih =>
    rw [List.foldl_cons, ih]
    by_cases hmem : key ∈ keys ∧ report key ≠ []
    · rw [if_pos hmem, if_pos ⟨List.mem_cons_of_mem _ hmem.1, hmem.2⟩]
    · rw [if_neg hmem]
      by_cases hkey : key = head
      · subst hkey
        by_cases hempty : report key = []
        · simp [hempty]
        · simp [hempty, Finmap.lookup_insert]
      · have hcons : ¬(key ∈ head :: keys ∧ report key ≠ []) := by
          intro h
          rcases List.mem_cons.mp h.1 with heq | htail
          · exact hkey heq
          · exact hmem ⟨htail, h.2⟩
        rw [if_neg hcons]
        split
        · rfl
        · exact Finmap.lookup_insert_of_ne _ hkey

/-- A key is reported exactly when it is among the keys and its report is not empty. -/
theorem lookup_reports (report : κ → List ρ) (keys : List κ) (key : κ) :
    (reports report keys).lookup key =
      if key ∈ keys ∧ report key ≠ [] then some (report key) else none :=
  lookup_foldl_reports report keys ∅ key

/-- The reported keys are those with an item to report. -/
theorem mem_reports {report : κ → List ρ} {keys : List κ} {key : κ} :
    key ∈ reports report keys ↔ key ∈ keys ∧ ∃ item, item ∈ report key := by
  have hempty : (∃ item, item ∈ report key) ↔ report key ≠ [] := by
    rw [ne_eq, List.eq_nil_iff_forall_not_mem, not_forall_not]
  rw [hempty, ← Finmap.lookup_isSome, lookup_reports]
  by_cases h : key ∈ keys ∧ report key ≠ []
  · simp [h]
  · rw [if_neg h]
    simp [h]

/-- A list that is reported is the report of its key. -/
theorem eq_of_lookup_reports {report : κ → List ρ} {keys : List κ} {key : κ} {reported : List ρ}
    (h : (reports report keys).lookup key = some reported) : reported = report key := by
  rw [lookup_reports] at h
  split at h
  · exact (Option.some.inj h).symm
  · cases h

end Interactive
