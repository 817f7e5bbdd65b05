import Mathlib.Data.List.Nodup

/-!
# Tables keyed by a primary key

A relational table as its rows in insertion order together with the next value of the
sequence that numbers them. Primary keys are distinct and below the sequence by
construction: both facts are fields, so a table that violates them cannot be built, and
every operation below re-establishes them once and for all.

`get?` is the lookup by primary key, `first` the `SELECT ... LIMIT 1` over an arbitrary
condition, `map` an `UPDATE` of every row and `update` an `UPDATE ... WHERE id = i`.
`reserve` draws a value of the sequence and `insert?` is the `INSERT` of a row that carries
a drawn value; it fails when the key is taken.
-/

set_option autoImplicit false

namespace Interactive

/-- Rows in insertion order, with distinct keys that lie below the sequence value `next`. -/
structure Table (α : Type) (key : α → ℕ) where
  rows : List α
  next : ℕ
  nodup : (rows.map key).Nodup
  bounded : ∀ r ∈ rows, key r < next

namespace Table

variable {α : Type} {key : α → ℕ}

/-- The table without rows. -/
def empty : Table α key := ⟨[], 1, by simp, by simp⟩

/-- The row whose primary key is `i`. -/
def get? (t : Table α key) (i : ℕ) : Option α :=
  t.rows.find? fun r => key r = i

/-- The first row that satisfies `p`. -/
def first (t : Table α key) (p : α → Bool) : Option α :=
  t.rows.find? p

/-- All rows that satisfy `p`. -/
def filter (t : Table α key) (p : α → Bool) : List α :=
  t.rows.filter p

/-- Rewrite every row with a function that leaves the key alone. -/
def map (t : Table α key) (f : α → α) (hf : ∀ r, key (f r) = key r) : Table α key where
  rows := t.rows.map f
  next := t.next
  nodup := by
    have hkeys : (t.rows.map f).map key = t.rows.map key := by
      rw [List.map_map]
      exact List.map_congr_left fun r _ => hf r
    rw [hkeys]
    exact t.nodup
  bounded := by
    intro r hr
    obtain ⟨s, hs, rfl⟩ := List.mem_map.mp hr
    rw [hf s]
    exact t.bounded s hs

/-- Rewrite the row with key `i`. -/
def update (t : Table α key) (i : ℕ) (f : α → α) (hf : ∀ r, key (f r) = key r) :
    Table α key :=
  t.map (fun r => if key r = i then f r else r) (by
    intro r
    by_cases h : key r = i
    · rw [if_pos h, hf r]
    · rw [if_neg h])

/-- Draw the next value of the sequence. Like a database sequence it never goes back, even
when the transaction that drew the value is rolled back. -/
def reserve (t : Table α key) : Table α key where
  rows := t.rows
  next := t.next + 1
  nodup := t.nodup
  bounded := fun r hr => Nat.lt_succ_of_lt (t.bounded r hr)

/-- A row may be inserted when its key was drawn from the sequence and no row has it. -/
def Admits (t : Table α key) (r : α) : Prop :=
  key r < t.next ∧ ∀ s ∈ t.rows, key s ≠ key r

instance (t : Table α key) (r : α) : Decidable (t.Admits r) := by
  unfold Admits
  infer_instance

/-- Append a row with a drawn, unused key. -/
def append (t : Table α key) (r : α) (h : t.Admits r) : Table α key where
  rows := t.rows ++ [r]
  next := t.next
  nodup := by
    rw [List.map_append, List.nodup_append]
    refine ⟨t.nodup, by simp, ?_⟩
    intro a ha b hb
    obtain ⟨s, hs, rfl⟩ := List.mem_map.mp ha
    simp only [List.map_cons, List.map_nil, List.mem_singleton] at hb
    rw [hb]
    exact h.2 s hs
  bounded := by
    intro s hs
    rcases List.mem_append.mp hs with hs | hs
    · exact t.bounded s hs
    · rw [List.mem_singleton.mp hs]
      exact h.1

/-- `INSERT`: `none` is a primary key violation. -/
def insert? (t : Table α key) (r : α) : Option (Table α key) :=
  if h : t.Admits r then some (t.append r h) else none

/-- A unique constraint on a column or a tuple of columns. A row in which it is null
conflicts with no other row. -/
def Unique {β : Type} (t : Table α key) (column : α → Option β) : Prop :=
  ∀ r ∈ t.rows, ∀ s ∈ t.rows, column r ≠ none → column r = column s → r = s

instance {β : Type} [DecidableEq α] [DecidableEq β] (t : Table α key) (column : α → Option β) :
    Decidable (t.Unique column) := by
  unfold Unique
  infer_instance

/-- A foreign key: every value of the column that is not null is a key of `u`. -/
def References {β : Type} {keyβ : β → ℕ} (t : Table α key) (column : α → Option ℕ)
    (u : Table β keyβ) : Prop :=
  ∀ r ∈ t.rows, ∀ i ∈ column r, (u.get? i).isSome

instance {β : Type} {keyβ : β → ℕ} (t : Table α key) (column : α → Option ℕ)
    (u : Table β keyβ) : Decidable (t.References column u) := by
  unfold References
  infer_instance

/-! ## Lookup -/

/-- Two rows of a table with the same key are the same row. -/
theorem eq_of_key_eq (t : Table α key) {r s : α} (hr : r ∈ t.rows) (hs : s ∈ t.rows)
    (h : key r = key s) : r = s :=
  List.inj_on_of_nodup_map t.nodup hr hs h

/-- A lookup finds exactly the row of the table that has the key. -/
theorem get?_eq_some_iff (t : Table α key) (i : ℕ) (r : α) :
    t.get? i = some r ↔ r ∈ t.rows ∧ key r = i := by
  constructor
  · intro h
    exact ⟨List.mem_of_find?_eq_some h, by simpa using List.find?_some h⟩
  · rintro ⟨hr, hk⟩
    cases h : t.get? i with
    | none =>
      have := List.find?_eq_none.mp h r hr
      simp [hk] at this
    | some s =>
      have hs := List.mem_of_find?_eq_some h
      have hks : key s = i := by simpa using List.find?_some h
      rw [t.eq_of_key_eq hs hr (hks.trans hk.symm)]

/-- What a lookup finds has the key it was looked up by. -/
theorem get?_key {t : Table α key} {i : ℕ} {r : α} (h : t.get? i = some r) : key r = i :=
  ((t.get?_eq_some_iff i r).mp h).2

/-- What a lookup finds is a row of the table. -/
theorem mem_of_get? {t : Table α key} {i : ℕ} {r : α} (h : t.get? i = some r) : r ∈ t.rows :=
  ((t.get?_eq_some_iff i r).mp h).1

/-- A row is found under its own key, because keys are unique. -/
theorem get?_of_mem {t : Table α key} {r : α} (h : r ∈ t.rows) : t.get? (key r) = some r :=
  (t.get?_eq_some_iff _ _).mpr ⟨h, rfl⟩

/-- The keys of the rows lie below the next key to be drawn. -/
theorem lt_next_of_get? {t : Table α key} {i : ℕ} {r : α} (h : t.get? i = some r) :
    i < t.next := by
  have hlt := t.bounded r (mem_of_get? h)
  rwa [get?_key h] at hlt

/-- A unique column takes no value twice among the rows that satisfy a condition. -/
theorem Unique.nodup_filterMap {β : Type} {t : Table α key} {column : α → Option β}
    (h : t.Unique column) (p : α → Bool) : ((t.filter p).filterMap column).Nodup := by
  have hrows : (t.filter p).Nodup := (List.Nodup.of_map key t.nodup).filter p
  refine List.pairwise_filterMap.mpr (List.Pairwise.imp_of_mem ?_ hrows)
  rintro r s hr hs hne b hb c hc rfl
  have hr := (List.mem_filter.mp hr).1
  have hs := (List.mem_filter.mp hs).1
  have hb : column r = some b := hb
  have hc : column s = some b := hc
  refine hne (h r hr s hs ?_ (hb.trans hc.symm))
  rw [hb]
  exact Option.some_ne_none b

/-! ## Lookup after a write -/

/-- Rewriting every row without its key rewrites what each lookup finds. -/
@[simp] theorem get?_map (t : Table α key) (f : α → α) (hf : ∀ r, key (f r) = key r) (i : ℕ) :
    (t.map f hf).get? i = (t.get? i).map f := by
  show (t.rows.map f).find? (fun r => decide (key r = i)) = _
  rw [List.find?_map]
  have hcomp : ((fun r => decide (key r = i)) ∘ f) = fun r => decide (key r = i) := by
    funext r
    simp [hf r]
  rw [hcomp]
  rfl

/-- An `UPDATE` changes what is found under its own key and nothing else. -/
theorem get?_update (t : Table α key) (i : ℕ) (f : α → α) (hf : ∀ r, key (f r) = key r)
    (j : ℕ) : (t.update i f hf).get? j = if j = i then (t.get? j).map f else t.get? j := by
  unfold update
  rw [get?_map]
  cases h : t.get? j with
  | none => simp
  | some r =>
    have hk := get?_key h
    by_cases hji : j = i
    · simp [hk, hji]
    · simp [hk, hji]

/-- Under the updated key the rewritten row is found. -/
@[simp] theorem get?_update_self (t : Table α key) (i : ℕ) (f : α → α)
    (hf : ∀ r, key (f r) = key r) : (t.update i f hf).get? i = (t.get? i).map f := by
  rw [get?_update, if_pos rfl]

/-- An `UPDATE` of one key leaves every other key alone. -/
theorem get?_update_of_ne (t : Table α key) {i j : ℕ} (f : α → α)
    (hf : ∀ r, key (f r) = key r) (h : j ≠ i) : (t.update i f hf).get? j = t.get? j := by
  rw [get?_update, if_neg h]

/-- An appended row is found under its key, and every other key finds what it found. -/
theorem get?_append (t : Table α key) (r : α) (h : t.Admits r) (j : ℕ) :
    (t.append r h).get? j = if j = key r then some r else t.get? j := by
  by_cases hj : j = key r
  · rw [if_pos hj, get?_eq_some_iff]
    exact ⟨by simp [append], hj.symm⟩
  · rw [if_neg hj]
    show (t.rows ++ [r]).find? _ = _
    rw [List.find?_append]
    have hlast : [r].find? (fun s => decide (key s = j)) = none := by
      simp [Ne.symm hj]
    rw [hlast, Option.or_none]
    rfl

/-- Drawing a key adds no row. -/
@[simp] theorem get?_reserve (t : Table α key) (i : ℕ) : t.reserve.get? i = t.get? i := rfl

/-- Drawing a key leaves the rows as they are. -/
@[simp] theorem rows_reserve (t : Table α key) : t.reserve.rows = t.rows := rfl

/-- A successful `INSERT` appended the row, whose key was drawn and unused. -/
theorem insert?_eq_some {t t' : Table α key} {r : α} (h : t.insert? r = some t') :
    ∃ hr : t.Admits r, t' = t.append r hr := by
  unfold insert? at h
  by_cases hr : t.Admits r
  · rw [dif_pos hr] at h
    exact ⟨hr, (Option.some.inj h).symm⟩
  · rw [dif_neg hr] at h
    cases h

/-- An `INSERT` of an admissible row succeeds and appends it. -/
theorem insert?_of_admits {t : Table α key} {r : α} (h : t.Admits r) :
    t.insert? r = some (t.append r h) := dif_pos h

/-- After a successful `INSERT` every other key finds what it found before. -/
theorem get?_of_insert? {t t' : Table α key} {r : α} (h : t.insert? r = some t') (j : ℕ) :
    t'.get? j = if j = key r then some r else t.get? j := by
  obtain ⟨hr, rfl⟩ := insert?_eq_some h
  exact get?_append t r hr j

/-- An inserted key was free. -/
theorem get?_eq_none_of_insert? {t t' : Table α key} {r : α} (h : t.insert? r = some t') :
    t.get? (key r) = none := by
  obtain ⟨hr, rfl⟩ := insert?_eq_some h
  cases hg : t.get? (key r) with
  | none => rfl
  | some s => exact absurd (get?_key hg) (hr.2 s (mem_of_get? hg))

/-- A successful `INSERT` puts its row behind the rows that were there. -/
theorem rows_of_insert? {t t' : Table α key} {r : α} (h : t.insert? r = some t') :
    t'.rows = t.rows ++ [r] := by
  obtain ⟨hr, rfl⟩ := insert?_eq_some h
  rfl

/-- A row that is present stays present and unchanged through an `INSERT`. -/
theorem get?_insert?_of_some {t t' : Table α key} {r s : α} {j : ℕ}
    (h : t.insert? r = some t') (hs : t.get? j = some s) : t'.get? j = some s := by
  rw [get?_of_insert? h, if_neg, hs]
  rintro rfl
  rw [get?_eq_none_of_insert? h] at hs
  cases hs

/-- The value just drawn is free, so the row that carries it can be inserted. -/
theorem admits_reserve {t : Table α key} {r : α} (h : key r = t.next) : t.reserve.Admits r := by
  refine ⟨by rw [h]; exact Nat.lt_succ_self _, ?_⟩
  intro s hs
  have hlt := t.bounded s hs
  omega

/-- Drawing a key first makes no difference to an `INSERT` that succeeds. -/
theorem insert?_reserve {t t' : Table α key} {r : α} (h : t.insert? r = some t') :
    t.reserve.insert? r = some t'.reserve := by
  obtain ⟨hr, rfl⟩ := insert?_eq_some h
  have hreserve : t.reserve.Admits r := ⟨Nat.lt_succ_of_lt hr.1, hr.2⟩
  rw [insert?_of_admits hreserve]
  rfl

/-- Draw a key and insert the row that carries it. -/
def add (t : Table α key) (row : ℕ → α) (h : ∀ i, key (row i) = i) : Table α key :=
  t.reserve.append (row t.next) (admits_reserve (h t.next))

/-! ## Membership after a write -/

/-- An added row carries the drawn key and stands behind the others. -/
@[simp] theorem rows_add (t : Table α key) (row : ℕ → α) (h : ∀ i, key (row i) = i) :
    (t.add row h).rows = t.rows ++ [row t.next] := rfl

/-- The rows of a rewritten table are the rewritten rows. -/
@[simp] theorem rows_map (t : Table α key) (f : α → α) (hf : ∀ r, key (f r) = key r) :
    (t.map f hf).rows = t.rows.map f := rfl

/-- Rewriting rows draws no key. -/
@[simp] theorem next_map (t : Table α key) (f : α → α) (hf : ∀ r, key (f r) = key r) :
    (t.map f hf).next = t.next := rfl

/-- An `UPDATE` draws no key. -/
@[simp] theorem next_update (t : Table α key) (i : ℕ) (f : α → α)
    (hf : ∀ r, key (f r) = key r) : (t.update i f hf).next = t.next := rfl

/-- Every row after an update is an old row, rewritten exactly when it has the key. -/
theorem mem_update {t : Table α key} {i : ℕ} {f : α → α} {hf : ∀ r, key (f r) = key r} {r : α} :
    r ∈ (t.update i f hf).rows ↔ ∃ s ∈ t.rows, (if key s = i then f s else s) = r := by
  show r ∈ t.rows.map _ ↔ _
  rw [List.mem_map]

/-- `first` answers with a row of the table that satisfies the condition. -/
theorem first_some {t : Table α key} {p : α → Bool} {r : α} (h : t.first p = some r) :
    r ∈ t.rows ∧ p r = true :=
  ⟨List.mem_of_find?_eq_some h, List.find?_some h⟩

/-- Where at most one row satisfies a condition, a search for it finds exactly that row. -/
theorem find?_eq_some_iff_of_unique {l : List α} {p : α → Bool}
    (h : ∀ x ∈ l, ∀ y ∈ l, p x = true → p y = true → x = y) (a : α) :
    l.find? p = some a ↔ a ∈ l ∧ p a = true := by
  constructor
  · exact fun ha => ⟨List.mem_of_find?_eq_some ha, List.find?_some ha⟩
  · rintro ⟨hmem, hp⟩
    cases hfind : l.find? p with
    | none =>
      have := List.find?_eq_none.mp hfind a hmem
      exact absurd hp this
    | some b =>
      rw [h b (List.mem_of_find?_eq_some hfind) a hmem (List.find?_some hfind) hp]

/-- A search by key with a further condition finds the row of the key, if it meets it. -/
theorem first_key_and (t : Table α key) (i : ℕ) (q : α → Bool) :
    (t.first fun r => key r = i && q r) = (t.get? i).filter q := by
  refine Option.ext fun r => ?_
  unfold first
  rw [find?_eq_some_iff_of_unique, Option.filter_eq_some_iff, t.get?_eq_some_iff]
  · simp only [Bool.and_eq_true, decide_eq_true_eq]
    tauto
  · intro x hx y hy hpx hpy
    simp only [Bool.and_eq_true, decide_eq_true_eq] at hpx hpy
    exact t.eq_of_key_eq hx hy (hpx.1.trans hpy.1.symm)

/-- When no first row is found, no row satisfies the condition. -/
theorem first_none {t : Table α key} {p : α → Bool} (h : t.first p = none) (r : α)
    (hr : r ∈ t.rows) : p r = false := by
  have := List.find?_eq_none.mp h r hr
  simpa using this

/-- An update under which its row comes to satisfy a condition adds one row that does. -/
theorem length_filter_update {t : Table α key} {i : ℕ} {f : α → α}
    (hf : ∀ r, key (f r) = key r) {r : α} {p : α → Bool} (h : t.get? i = some r)
    (hbefore : p r = false) (hafter : p (f r) = true) :
    ((t.update i f hf).filter p).length = (t.filter p).length + 1 := by
  have hkey := get?_key h
  obtain ⟨l₁, l₂, hrows⟩ := List.append_of_mem (mem_of_get? h)
  have hnodup := t.nodup
  rw [hrows, List.map_append, List.map_cons, hkey, List.nodup_middle, List.nodup_cons] at hnodup
  have hsame (l : List α) (hl : ∀ s ∈ l, key s ≠ i) :
      l.map (fun s => if key s = i then f s else s) = l := by
    refine (List.map_congr_left fun s hs => ?_).trans l.map_id
    exact if_neg (hl s hs)
  have hne : ∀ s ∈ l₁ ++ l₂, key s ≠ i := by
    intro s hs heq
    refine hnodup.1 ?_
    rw [← heq, ← List.map_append]
    exact List.mem_map_of_mem hs
  have hupdated : (t.update i f hf).rows = l₁ ++ f r :: l₂ := by
    show t.rows.map _ = _
    rw [hrows, List.map_append, List.map_cons, if_pos hkey,
      hsame l₁ fun s hs => hne s (List.mem_append_left _ hs),
      hsame l₂ fun s hs => hne s (List.mem_append_right _ hs)]
  unfold filter
  rw [hupdated, hrows]
  simp only [List.filter_append, List.filter_cons, hbefore, hafter, List.length_append]
  simp
  omega

end Table

end Interactive
