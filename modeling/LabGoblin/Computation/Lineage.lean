import LabGoblin.Computation.Change

/-!
# Versions of a table

Two versions of a table, the later one made from the earlier one by writes. `Endures` says that
every row of the earlier version is still there, and the same in one column. `Descends` is what is
left of it where rows are deleted: a row under a key that is spent was there before, with the same
column. A key that is spent is never given to another row, so a row that was deleted does not come
back as a different one.

`Held` is what a process may go on believing about a key that it has read: the key is spent, and
the row that has it, if there is one, has the column that was read.
-/

set_option autoImplicit false

namespace Interactive

namespace Table

variable {α β : Type} {key : α → ℕ} {column : α → β}

/-- `DELETE ... WHERE p` -/
def remove (t : Table α key) (p : α → Bool) : Table α key where
  rows := t.rows.filter fun r => !p r
  next := t.next
  nodup := t.nodup.sublist (List.filter_sublist.map key)
  bounded := fun r hr => t.bounded r (List.mem_of_mem_filter hr)

/-- A row survives a `DELETE` exactly when the condition fails on it. -/
theorem mem_remove {t : Table α key} {p : α → Bool} {r : α} :
    r ∈ (t.remove p).rows ↔ r ∈ t.rows ∧ p r = false := by
  show r ∈ t.rows.filter _ ↔ _
  rw [List.mem_filter, Bool.not_eq_true']

/-- A row that is there after a deletion was there before. -/
theorem get?_of_remove {t : Table α key} {p : α → Bool} {i : ℕ} {r : α}
    (h : (t.remove p).get? i = some r) : t.get? i = some r := by
  obtain ⟨hr, hkey⟩ := (get?_eq_some_iff _ _ _).mp h
  exact (get?_eq_some_iff _ _ _).mpr ⟨(mem_remove.mp hr).1, hkey⟩

/-- An added row is found under the drawn key, and every other key finds what it found. -/
theorem get?_add (t : Table α key) (row : ℕ → α) (h : ∀ i, key (row i) = i) (i : ℕ) :
    (t.add row h).get? i = if i = t.next then some (row t.next) else t.get? i := by
  show (t.reserve.append _ _).get? i = _
  rw [get?_append, h, get?_reserve]

/-- A row that is there after it was inserted, or was there before. -/
theorem get?_of_add {t : Table α key} {row : ℕ → α} {h : ∀ i, key (row i) = i} {i : ℕ} {r : α}
    (hr : (t.add row h).get? i = some r) : r = row t.next ∨ t.get? i = some r := by
  rw [get?_add] at hr
  by_cases hi : i = t.next
  · rw [if_pos hi] at hr
    exact Or.inl (Option.some.inj hr).symm
  · rw [if_neg hi] at hr
    exact Or.inr hr

/-- An insert draws nothing. -/
theorem next_of_insert? {t t' : Table α key} {r : α} (h : t.insert? r = some t') :
    t'.next = t.next := by
  obtain ⟨hr, rfl⟩ := insert?_eq_some h
  rfl

/-! ## Rows that stay -/

/-- Every row is still there, with the same column. -/
def Endures (column : α → β) (t t' : Table α key) : Prop :=
  ∀ i r, t.get? i = some r → ∃ r', t'.get? i = some r' ∧ column r' = column r

/-- A table that does not change keeps every row and its column. -/
theorem Endures.refl (t : Table α key) : t.Endures column t :=
  fun _ r h => ⟨r, h, rfl⟩

/-- Tables with the same lookups keep each other's rows. -/
theorem Endures.of_get? {t t' : Table α key} (h : ∀ i, t'.get? i = t.get? i) :
    t.Endures column t' := by
  intro i r hr
  rw [← h i] at hr
  exact ⟨r, hr, rfl⟩

/-- Enduring two steps one after the other is enduring both. -/
theorem Endures.trans {a b c : Table α key} (h : a.Endures column b) (h' : b.Endures column c) :
    a.Endures column c := by
  intro i r hr
  obtain ⟨r', hr', hcolumn⟩ := h i r hr
  obtain ⟨r'', hr'', hcolumn'⟩ := h' i r' hr'
  exact ⟨r'', hr'', hcolumn'.trans hcolumn⟩

/-- An `UPDATE` that leaves the column alone keeps every row with its column. -/
theorem Endures.update (t : Table α key) (i : ℕ) (f : α → α) (hf : ∀ r, key (f r) = key r)
    (hcolumn : ∀ r, column (f r) = column r) : t.Endures column (t.update i f hf) := by
  intro j r hr
  rw [get?_update]
  by_cases hj : j = i
  · rw [if_pos hj, hr]
    exact ⟨f r, rfl, hcolumn r⟩
  · rw [if_neg hj]
    exact ⟨r, hr, rfl⟩

/-- An `INSERT` keeps the rows that were there. -/
theorem Endures.add (t : Table α key) (row : ℕ → α) (h : ∀ i, key (row i) = i) :
    t.Endures column (t.add row h) := by
  intro j r hr
  refine ⟨r, ?_, rfl⟩
  have hlt := lt_next_of_get? hr
  have hne : j ≠ t.next := by omega
  rw [get?_add, if_neg hne, hr]

/-! ## Rows that come from earlier ones -/

/-- The row of a spent key was there before, with the same column. -/
def Descends (spent : ℕ → Prop) (column : α → β) (t t' : Table α key) : Prop :=
  ∀ i r', spent i → t'.get? i = some r' → ∃ r, t.get? i = some r ∧ column r' = column r

/-- A table that does not change gives no spent key to a new row. -/
theorem Descends.refl (spent : ℕ → Prop) (t : Table α key) : t.Descends spent column t :=
  fun _ r _ h => ⟨r, h, rfl⟩

/-- Tables with the same lookups give no spent key to a new row. -/
theorem Descends.of_get? {spent : ℕ → Prop} {t t' : Table α key}
    (h : ∀ i, t'.get? i = t.get? i) : t.Descends spent column t' := by
  intro i r _ hr
  rw [h i] at hr
  exact ⟨r, hr, rfl⟩

/-- Keys that are spent stay spent. -/
theorem Descends.trans {spent spent' : ℕ → Prop} {a b c : Table α key}
    (hspent : ∀ i, spent i → spent' i) (h : a.Descends spent column b)
    (h' : b.Descends spent' column c) : a.Descends spent column c := by
  intro i r'' hi hr''
  obtain ⟨r', hr', hcolumn'⟩ := h' i r'' (hspent i hi) hr''
  obtain ⟨r, hr, hcolumn⟩ := h i r' hi hr'
  exact ⟨r, hr, hcolumn'.trans hcolumn⟩

/-- An `UPDATE` that leaves the column alone gives no spent key to a new row. -/
theorem Descends.update (spent : ℕ → Prop) (t : Table α key) (i : ℕ) (f : α → α)
    (hf : ∀ r, key (f r) = key r) (hcolumn : ∀ r, column (f r) = column r) :
    t.Descends spent column (t.update i f hf) := by
  intro j r' _ hr'
  rw [get?_update] at hr'
  by_cases hj : j = i
  · rw [if_pos hj] at hr'
    obtain ⟨r, hr, rfl⟩ := Option.map_eq_some_iff.mp hr'
    exact ⟨r, hr, hcolumn r⟩
  · rw [if_neg hj] at hr'
    exact ⟨r', hr', rfl⟩

/-- A `DELETE` gives no key to a new row. -/
theorem Descends.remove (spent : ℕ → Prop) (t : Table α key) (p : α → Bool) :
    t.Descends spent column (t.remove p) :=
  fun _ r _ h => ⟨r, get?_of_remove h, rfl⟩

/-- What holds of more spent keys holds of fewer. -/
theorem Descends.mono {spent spent' : ℕ → Prop} {t t' : Table α key}
    (h : t.Descends spent' column t') (hspent : ∀ i, spent i → spent' i) :
    t.Descends spent column t' :=
  fun i r hi hr => h i r (hspent i hi) hr

/-- A row that is added under the next key has none that is spent. -/
theorem Descends.add {spent : ℕ → Prop} (t : Table α key) (row : ℕ → α)
    (h : ∀ i, key (row i) = i) (hspent : ∀ i, spent i → i < t.next) :
    t.Descends spent column (t.add row h) := by
  intro j r' hj hr'
  have hlt := hspent j hj
  have hne : j ≠ key (row t.next) := by
    rw [h]
    omega
  have hr' : (t.reserve.append _ _).get? j = some r' := hr'
  rw [get?_append, if_neg hne] at hr'
  exact ⟨r', hr', rfl⟩

/-! ## One write -/

/-- The later version is the earlier one, or is made from it by one write that leaves the column
alone. -/
inductive Revision (column : α → β) (t : Table α key) : Table α key → Prop
  | same : Revision column t t
  | add (row : ℕ → α) (h : ∀ i, key (row i) = i) : Revision column t (t.add row h)
  | update (i : ℕ) (f : α → α) (hf : ∀ r, key (f r) = key r)
      (hcolumn : ∀ r, column (f r) = column r) : Revision column t (t.update i f hf)
  | remove (p : α → Bool) : Revision column t (t.remove p)

/-- No key is given back. -/
theorem Revision.next_le {t t' : Table α key} (h : t.Revision column t') : t.next ≤ t'.next := by
  cases h with
  | same => exact Nat.le_refl _
  | add row h => exact Nat.le_succ _
  | update i f hf hcolumn => exact Nat.le_refl _
  | remove p => exact Nat.le_refl _

/-- A row under a key that had been drawn was there before. -/
theorem Revision.descends {t t' : Table α key} (h : t.Revision column t') :
    t.Descends (fun i => i < t.next) column t' := by
  cases h with
  | same => exact .refl _ _
  | add row h => exact .add _ _ _ fun _ hi => hi
  | update i f hf hcolumn => exact .update _ _ _ _ _ hcolumn
  | remove p => exact .remove _ _ _

/-! ## What was read of a key -/

/-- The key is spent, and the row that has it, if there is one, has the value in the column. -/
def Held (spent : ℕ → Prop) (column : α → β) (t : Table α key) (i : ℕ) (b : β) : Prop :=
  spent i ∧ ∀ r, t.get? i = some r → column r = b

/-- The column of a row under a spent key is held by that key. -/
theorem Held.of_get? {spent : ℕ → Prop} {t : Table α key} {i : ℕ} {r : α} (hi : spent i)
    (hr : t.get? i = some r) : t.Held spent column i (column r) := by
  refine ⟨hi, ?_⟩
  intro r' hr'
  rw [hr] at hr'
  cases hr'
  rfl

/-- A row found under a spent key has the column that the key holds. -/
theorem Held.eq {spent : ℕ → Prop} {t : Table α key} {i : ℕ} {r : α} {b : β}
    (h : t.Held spent column i b) (hr : t.get? i = some r) : column r = b :=
  h.2 r hr

/-- What was read is still so in a later version. -/
theorem Held.descends {spent spent' : ℕ → Prop} {t t' : Table α key} {i : ℕ} {b : β}
    (h : t.Held spent column i b) (hspent : ∀ i, spent i → spent' i)
    (ht : t.Descends spent column t') : t'.Held spent' column i b := by
  refine ⟨hspent i h.1, ?_⟩
  intro r' hr'
  obtain ⟨r, hr, hcolumn⟩ := ht i r' h.1 hr'
  rw [hcolumn]
  exact h.2 r hr

end Table

namespace Change

variable {α β : Type} {key : α → ℕ} {column : α → β} {cs : List (Change α key)}
  {t t' : Table α key}

/-- A change draws nothing. -/
theorem next_of_apply {c : Change α key} (h : c.apply t = some t') : t'.next = t.next := by
  cases c with
  | insert r => exact Table.next_of_insert? h
  | update i f hf =>
    cases h
    rfl

/-- Rows endure inserts, and updates that leave the column alone. -/
theorem endures_of_applyAll (h : applyAll cs t = some t')
    (hupd : ∀ i f hf, update i f hf ∈ cs → ∀ r, column (f r) = column r) :
    t.Endures column t' := by
  intro i r hr
  obtain ⟨r', hr'⟩ := Option.isSome_iff_exists.mp
    (isSome_of_applyAll h (Option.isSome_iff_exists.mpr ⟨r, hr⟩))
  refine ⟨r', hr', row_of_applyAll (P := fun s => column s = column r) h ?_ ?_ ?_ r' hr'⟩
  · intro s hs
    rw [hr] at hs
    cases hs
    rfl
  · intro s hnone
    rw [hr] at hnone
    cases hnone
  · intro f hf hmem s _ hs
    rw [hupd i f hf hmem s, hs]

/-- The rows of spent keys descend from earlier ones where none of the keys is inserted. -/
theorem descends_of_applyAll {spent : ℕ → Prop} (h : applyAll cs t = some t')
    (hins : ∀ r, insert r ∈ cs → ¬ spent (key r))
    (hupd : ∀ i f hf, update i f hf ∈ cs → ∀ r, column (f r) = column r) :
    t.Descends spent column t' := by
  intro i r' hi hr'
  refine row_of_applyAll (P := fun s => ∃ r, t.get? i = some r ∧ column s = column r) h
    ?_ ?_ ?_ r' hr'
  · exact fun r hr => ⟨r, hr, rfl⟩
  · intro r _ hmem hkey
    rw [← hkey] at hi
    exact absurd hi (hins r hmem)
  · rintro f hf hmem s _ ⟨r, hr, hcolumn⟩
    exact ⟨r, hr, (hupd i f hf hmem s).trans hcolumn⟩

/-- An inserted row has its column afterwards. -/
theorem column_of_insert (h : applyAll cs t = some t') {r r' : α} (hr : insert r ∈ cs)
    (hupd : ∀ i f hf, update i f hf ∈ cs → ∀ r, column (f r) = column r)
    (hr' : t'.get? (key r) = some r') : column r' = column r := by
  refine row_of_applyAll (P := fun s => column s = column r) h ?_ ?_ ?_ r' hr'
  · intro s hs
    rw [none_of_insert h hr] at hs
    cases hs
  · intro s _ hs hkey
    rw [insert_unique h hr hs hkey]
  · intro f hf hmem s _ hs
    exact (hupd _ f hf hmem s).trans hs

end Change

end Interactive
