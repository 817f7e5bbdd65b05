import LabGoblin.Computation.Table

/-!
# Changes of a table

A transaction changes a table by inserts and by updates of single rows. `Change.row_of_applyAll`
is the induction principle for what such a sequence of changes does to one row: a property
that the row had before, that an insert of the row establishes and that every update of it
preserves, holds of the row afterwards.
-/

set_option autoImplicit false

namespace Interactive

/-- An `INSERT`, or an `UPDATE` of the row with a key. -/
inductive Change (α : Type) (key : α → ℕ) where
  | insert (r : α)
  | update (i : ℕ) (f : α → α) (hf : ∀ r, key (f r) = key r)

namespace Change

variable {α : Type} {key : α → ℕ}

/-- The table after a change; `none` is a primary key violation. -/
def apply : Change α key → Table α key → Option (Table α key)
  | insert r, t => t.insert? r
  | update i f hf, t => some (t.update i f hf)

/-- The table after a sequence of changes. -/
def applyAll : List (Change α key) → Table α key → Option (Table α key)
  | [], t => some t
  | c :: cs, t => (c.apply t).bind (applyAll cs)

/-- Two lists of changes are applied one after the other. -/
theorem applyAll_append (cs ds : List (Change α key)) (t : Table α key) :
    applyAll (cs ++ ds) t = (applyAll cs t).bind (applyAll ds) := by
  induction cs generalizing t with
  | nil => rfl
  | cons c cs ih =>
    simp only [List.cons_append, applyAll]
    cases c.apply t with
    | none => rfl
    | some u => exact ih u

/-- What one change does to the row with a key. -/
theorem row_of_apply {c : Change α key} {t t' : Table α key} {i : ℕ} {P : α → Prop}
    (h : c.apply t = some t') (hold : ∀ r, t.get? i = some r → P r)
    (hins : ∀ r, t.get? i = none → c = insert r → key r = i → P r)
    (hupd : ∀ f hf, c = update i f hf → ∀ r, key r = i → P r → P (f r)) :
    ∀ r', t'.get? i = some r' → P r' := by
  intro r' hr'
  cases c with
  | insert r =>
    have hfree := Table.get?_eq_none_of_insert? h
    rw [Table.get?_of_insert? h] at hr'
    by_cases hi : i = key r
    · rw [if_pos hi] at hr'
      cases hr'
      subst hi
      exact hins _ hfree rfl rfl
    · rw [if_neg hi] at hr'
      exact hold r' hr'
  | update j f hf =>
    cases h
    rw [Table.get?_update] at hr'
    by_cases hi : i = j
    · subst hi
      rw [if_pos rfl] at hr'
      obtain ⟨r, hr, rfl⟩ := Option.map_eq_some_iff.mp hr'
      exact hupd f hf rfl r (Table.get?_key hr) (hold r hr)
    · rw [if_neg hi] at hr'
      exact hold r' hr'

/-- A row that is present stays present. -/
theorem isSome_of_apply {c : Change α key} {t t' : Table α key} {i : ℕ}
    (h : c.apply t = some t') (hi : (t.get? i).isSome) : (t'.get? i).isSome := by
  obtain ⟨r, hr⟩ := Option.isSome_iff_exists.mp hi
  cases c with
  | insert s =>
    rw [Table.get?_insert?_of_some h hr]
    rfl
  | update j f hf =>
    cases h
    rw [Table.get?_update]
    split
    · rw [hr]
      rfl
    · exact hi

/-- What a sequence of changes does to the row with a key, by induction on the sequence. -/
theorem row_of_applyAll {cs : List (Change α key)} {t t' : Table α key} {i : ℕ} {P : α → Prop}
    (h : applyAll cs t = some t') (hold : ∀ r, t.get? i = some r → P r)
    (hins : ∀ r, t.get? i = none → insert r ∈ cs → key r = i → P r)
    (hupd : ∀ f hf, update i f hf ∈ cs → ∀ r, key r = i → P r → P (f r)) :
    ∀ r', t'.get? i = some r' → P r' := by
  induction cs generalizing t with
  | nil =>
    cases h
    exact hold
  | cons c cs ih =>
    obtain ⟨u, hu, hrest⟩ := Option.bind_eq_some_iff.mp h
    refine ih hrest ?_ ?_ ?_
    · refine row_of_apply hu hold ?_ ?_
      · intro r hr hc
        exact hins r hr (hc ▸ List.mem_cons_self)
      · intro f hf hc
        exact hupd f hf (hc ▸ List.mem_cons_self)
    · intro r hnone hmem
      refine hins r ?_ (List.mem_cons_of_mem c hmem)
      by_contra hsome
      have := isSome_of_apply hu (Option.isSome_iff_ne_none.mpr hsome)
      rw [hnone] at this
      cases this
    · intro f hf hmem
      exact hupd f hf (List.mem_cons_of_mem c hmem)

/-- What one of the updates establishes and all of them preserve holds afterwards of a row that
was there. -/
theorem row_of_mem {cs : List (Change α key)} {t t' : Table α key} {i : ℕ} {P : α → Prop}
    (h : applyAll cs t = some t') (hrow : (t.get? i).isSome)
    (hmem : ∃ f hf, update i f hf ∈ cs ∧ ∀ r, P (f r))
    (hupd : ∀ f hf, update i f hf ∈ cs → ∀ r, P r → P (f r)) :
    ∀ r', t'.get? i = some r' → P r' := by
  induction cs generalizing t with
  | nil =>
    obtain ⟨f, hf, hmem, -⟩ := hmem
    cases hmem
  | cons c cs ih =>
    obtain ⟨u, hu, hrest⟩ := Option.bind_eq_some_iff.mp h
    have hrow' := isSome_of_apply hu hrow
    have hupd' : ∀ f hf, update i f hf ∈ cs → ∀ r, P r → P (f r) :=
      fun f hf hf' => hupd f hf (List.mem_cons_of_mem c hf')
    obtain ⟨f, hf, hmem, hP⟩ := hmem
    rcases List.mem_cons.mp hmem with rfl | hmem
    · refine row_of_applyAll hrest ?_ ?_ fun g hg hg' r _ => hupd' g hg hg' r
      · intro r hr
        cases hu
        rw [Table.get?_update_self] at hr
        obtain ⟨r', -, rfl⟩ := Option.map_eq_some_iff.mp hr
        exact hP r'
      · intro r hnone
        rw [hnone] at hrow'
        cases hrow'
    · exact ih hrest hrow' ⟨f, hf, hmem, hP⟩ hupd'

/-- Changes delete no row. -/
theorem isSome_of_applyAll {cs : List (Change α key)} {t t' : Table α key} {i : ℕ}
    (h : applyAll cs t = some t') (hi : (t.get? i).isSome) : (t'.get? i).isSome := by
  induction cs generalizing t with
  | nil =>
    cases h
    exact hi
  | cons c cs ih =>
    obtain ⟨u, hu, hrest⟩ := Option.bind_eq_some_iff.mp h
    exact ih hrest (isSome_of_apply hu hi)

/-- A key that no change mentions finds what it found before. -/
theorem get?_of_untouched {cs : List (Change α key)} {t t' : Table α key} {i : ℕ}
    (h : applyAll cs t = some t') (hins : ∀ r, insert r ∈ cs → key r ≠ i)
    (hupd : ∀ f hf, update i f hf ∉ cs) : t'.get? i = t.get? i := by
  cases ht : t.get? i with
  | none =>
    have hnone : ∀ r', t'.get? i = some r' → False := by
      refine row_of_applyAll h ?_ ?_ ?_
      · intro r hr
        rw [ht] at hr
        cases hr
      · intro r _ hmem hkey
        exact hins r hmem hkey
      · intro f hf hmem
        exact absurd hmem (hupd f hf)
    exact Option.eq_none_iff_forall_ne_some.mpr fun r hr => hnone r hr
  | some r =>
    have hsome : (t'.get? i).isSome := isSome_of_applyAll h (by rw [ht]; rfl)
    obtain ⟨r', hr'⟩ := Option.isSome_iff_exists.mp hsome
    have heq : ∀ r', t'.get? i = some r' → r' = r := by
      refine row_of_applyAll h ?_ ?_ ?_
      · intro s hs
        rw [ht] at hs
        exact (Option.some.inj hs).symm
      · intro s hnone
        rw [ht] at hnone
        cases hnone
      · intro f hf hmem
        exact absurd hmem (hupd f hf)
    rw [hr', heq r' hr']

/-- An inserted row was not there before. -/
theorem none_of_insert {cs : List (Change α key)} {t t' : Table α key} {r : α}
    (h : applyAll cs t = some t') (hr : insert r ∈ cs) : t.get? (key r) = none := by
  induction cs generalizing t with
  | nil => cases hr
  | cons c cs ih =>
    obtain ⟨u, hu, hrest⟩ := Option.bind_eq_some_iff.mp h
    rcases List.mem_cons.mp hr with rfl | hr
    · exact Table.get?_eq_none_of_insert? hu
    · by_contra hsome
      have := isSome_of_apply hu (Option.isSome_iff_ne_none.mpr hsome)
      rw [ih hrest hr] at this
      cases this

/-- An inserted row stays. -/
theorem isSome_of_insert {cs : List (Change α key)} {t t' : Table α key} {r : α}
    (h : applyAll cs t = some t') (hr : insert r ∈ cs) : (t'.get? (key r)).isSome := by
  induction cs generalizing t with
  | nil => cases hr
  | cons c cs ih =>
    obtain ⟨u, hu, hrest⟩ := Option.bind_eq_some_iff.mp h
    rcases List.mem_cons.mp hr with rfl | hr
    · refine isSome_of_applyAll hrest ?_
      rw [Table.get?_of_insert? hu, if_pos rfl]
      rfl
    · exact ih hrest hr

/-- Changes insert one row for a key at most. -/
theorem insert_unique {cs : List (Change α key)} {t t' : Table α key} {r s : α}
    (h : applyAll cs t = some t') (hr : insert r ∈ cs) (hs : insert s ∈ cs)
    (hkey : key s = key r) : s = r := by
  induction cs generalizing t with
  | nil => cases hr
  | cons c cs ih =>
    obtain ⟨u, hu, hrest⟩ := Option.bind_eq_some_iff.mp h
    have hfirst : ∀ a b : α, c = insert a → insert b ∈ cs → key b ≠ key a := by
      rintro a b rfl hb heq
      have hnone := none_of_insert hrest hb
      rw [heq, Table.get?_of_insert? hu, if_pos rfl] at hnone
      cases hnone
    rcases List.mem_cons.mp hr with hr' | hr'
    · rcases List.mem_cons.mp hs with hs' | hs'
      · rw [← hr'] at hs'
        exact Change.insert.inj hs'
      · exact absurd hkey (hfirst r s hr'.symm hs')
    · rcases List.mem_cons.mp hs with hs' | hs'
      · exact absurd hkey.symm (hfirst s r hs'.symm hr')
      · exact ih hrest hr' hs'

/-- The row that a change inserts. -/
def inserted : Change α key → Option α
  | insert r => some r
  | update _ _ _ => none

/-- Changes that only insert append their rows. -/
theorem rows_of_inserts {cs : List (Change α key)} {t t' : Table α key}
    (h : applyAll cs t = some t') (hcs : ∀ c ∈ cs, ∃ r, c = insert r) :
    t'.rows = t.rows ++ cs.filterMap inserted := by
  induction cs generalizing t with
  | nil =>
    cases h
    simp
  | cons c cs ih =>
    obtain ⟨u, hu, hrest⟩ := Option.bind_eq_some_iff.mp h
    obtain ⟨r, rfl⟩ := hcs c List.mem_cons_self
    rw [ih hrest fun d hd => hcs d (List.mem_cons_of_mem _ hd), Table.rows_of_insert? hu]
    simp [inserted]

end Change

end Interactive
