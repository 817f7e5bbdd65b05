import LabGoblin.Model.TemplateSync
import Mathlib.Data.List.TakeWhile

/-!
# Synchronizing the template catalog

What `sync_templates` keeps, what it adds, and that a second time with the same discovery changes
nothing.
-/

set_option autoImplicit false

namespace LabGoblin.TemplateSync

open Interactive LabGoblin.Text

variable {organizationId activeId : ℕ}

/-! ## The names that the loop tries -/

/-- The letters after the last dash of a text. -/
theorem append_dash_inj {a b d e : Text} (hd : '-' ∉ d) (he : '-' ∉ e)
    (h : a ++ '-' :: d = b ++ '-' :: e) : d = e := by
  have hlast : ∀ x y : Text, '-' ∉ y →
      (x ++ '-' :: y).reverse.takeWhile (fun c => c ≠ '-') = y.reverse := by
    intro x y hy
    have hall : ∀ c ∈ y.reverse, decide (c ≠ '-') = true := by
      intro c hc
      rw [decide_eq_true_eq]
      rintro rfl
      exact hy (List.mem_reverse.mp hc)
    rw [List.reverse_append, List.reverse_cons, List.append_assoc,
      List.takeWhile_append_of_pos hall]
    simp
  have hreverse : d.reverse = e.reverse := by
    rw [← hlast a d hd, ← hlast b e he, h]
  exact List.reverse_injective hreverse

/-- Names with different suffixes differ. -/
theorem candidate_inj {base : Text} {vmid : ℤ} {i j : ℕ} (hi : 1 ≤ i) (hj : 1 ≤ j)
    (h : candidate activeId base vmid i = candidate activeId base vmid j) : i = j := by
  obtain ⟨m, rfl⟩ := Nat.exists_eq_add_of_le' hi
  obtain ⟨n, rfl⟩ := Nat.exists_eq_add_of_le' hj
  have hform : ∀ k, ∃ front, candidate activeId base vmid (k + 1) =
      front ++ '-' :: str ((k + 1 : ℕ) : ℤ) := by
    intro k
    exact ⟨_, (List.append_assoc _ _ _).symm⟩
  obtain ⟨front, hfront⟩ := hform m
  obtain ⟨front', hfront'⟩ := hform n
  rw [hfront, hfront'] at h
  have hdigits := append_dash_inj (minus_not_mem_toDigits _) (minus_not_mem_toDigits _) h
  exact toDigits_injective hdigits

/-- The loop over the names ends, with a name that is not taken. -/
theorem freshName_ok (activeId : ℕ) (base : Text) (vmid : ℤ) (names : List Text) :
    ∃ name, freshName activeId base vmid names = .ok name ∧ name ∉ names ∧
      ∃ n, n < names.length + 2 ∧ name = candidate activeId base vmid n := by
  have hsome : (Fresh.search (candidate activeId base vmid) names (names.length + 2) 0).isSome =
      true := by
    unfold Fresh.search
    split
    · exact Fresh.search_isSome (fun i j hi hj h => candidate_inj hi hj h) (Nat.lt_succ_self _)
    · rfl
  obtain ⟨name, hname⟩ := Option.isSome_iff_exists.mp hsome
  obtain ⟨hfree, n, -, hlt, heq⟩ := Fresh.search_spec hname
  refine ⟨name, ?_, hfree, n, by omega, heq⟩
  unfold freshName
  rw [hname]

/-- A slice up to `k` has at most `k` characters. -/
theorem length_sliceTo (s : Text) {k : ℤ} (hk : 0 ≤ k) : ((sliceTo s k).length : ℤ) ≤ k := by
  unfold sliceTo
  rw [if_pos hk, List.length_take]
  omega

/-- A numeral of an integer with an absolute value below a power of ten. -/
theorem length_str_le {v : ℤ} {k : ℕ} (hk : 0 < k) (h : v.natAbs < 10 ^ k) :
    (str v).length ≤ k + 1 := by
  cases v with
  | ofNat n =>
    have hle : (Nat.toDigits 10 n).length ≤ k :=
      (Nat.length_toDigits_le_iff (by decide) hk).mpr h
    show (Nat.toDigits 10 n).length ≤ _
    omega
  | negSucc n =>
    have hle : (Nat.toDigits 10 (n + 1)).length ≤ k :=
      (Nat.length_toDigits_le_iff (by decide) hk).mpr h
    show (Nat.toDigits 10 (n + 1)).length + 1 ≤ _
    omega

/-- The names that the loop tries are not too long when the numbers fit into their columns. -/
theorem length_candidate_le {base : Text} {vmid : ℤ} {n : ℕ} (hbase : base.length ≤ nameLength)
    (hactive : activeId < maxInteger) (hvmid : -maxInteger ≤ vmid) (hvmid' : vmid < maxInteger)
    (hn : n ≤ maxInteger + 2) : (candidate activeId base vmid n).length ≤ nameLength := by
  cases n with
  | zero => exact hbase
  | succ n =>
    have hmax : (maxInteger : ℤ) = 2147483648 := rfl
    have hmax' : maxInteger = 2147483648 := rfl
    have hname : nameLength = 100 := rfl
    have hlong : (ending activeId vmid (n + 1)).length ≤ nameLength := by
      have hlength : (ending activeId vmid (n + 1)).length =
          3 + (str activeId).length + (str vmid).length + (str ((n + 1 : ℕ) : ℤ)).length := by
        unfold ending
        simp
        omega
      have hactive := length_str_le (v := activeId) (k := 10) (by decide) (by simp; omega)
      have hvmid := length_str_le (v := vmid) (k := 10) (by decide) (by omega)
      have hsuffix := length_str_le (v := ((n + 1 : ℕ) : ℤ)) (k := 10) (by decide) (by omega)
      omega
    unfold candidate
    dsimp only
    rw [List.length_append]
    have hslice := length_sliceTo base
      (k := (nameLength : ℤ) - ((ending activeId vmid (n + 1)).length : ℤ)) (by omega)
    omega

/-- The name that a template gets at first fits its column. -/
theorem length_baseName_le (t : DiscoveredTemplate) (vmid : ℤ) :
    (baseName t vmid).length ≤ nameLength := by
  unfold baseName
  rw [List.length_take]
  exact min_le_left _ _

/-! ## Catalogs -/

/-- What the database keeps of the catalog of an organization: the primary keys are below the next
one, and at most one row stands for a template on a cluster. -/
structure Catalog (rows : List VMTemplate) (nextId : ℕ) : Prop where
  ids : (rows.map VMTemplate.id).Nodup
  bounded : ∀ row ∈ rows, row.id < nextId ∧ row.id < maxInteger
  names : (rows.map VMTemplate.name).Nodup
  stored : ∀ row ∈ rows, row.name.length ≤ nameLength
  keys : ∀ row ∈ rows, ∀ other ∈ rows, row.proxmoxClusterId.isSome = true →
    other.proxmoxClusterId = row.proxmoxClusterId → other.sourceVmid = row.sourceVmid → other = row

/-- A state of the loop: the set of names is that of the rows. -/
structure State.Good (s : State) : Prop where
  catalog : Catalog s.catalog s.nextId
  names : s.names.Perm (s.catalog.map VMTemplate.name)

/-- Rows of a catalog with one id are one row. -/
theorem Catalog.eq_of_id {rows : List VMTemplate} {nextId : ℕ} (h : Catalog rows nextId)
    {row other : VMTemplate} (hrow : row ∈ rows) (hother : other ∈ rows) (hid : other.id = row.id) :
    other = row :=
  List.inj_on_of_nodup_map h.ids hother hrow hid

/-- A catalog has no more rows than there are ids. -/
theorem Catalog.length_le {rows : List VMTemplate} {nextId : ℕ} (h : Catalog rows nextId) :
    rows.length ≤ maxInteger := by
  have hsub : rows.map VMTemplate.id ⊆ List.range maxInteger := by
    intro id hid
    obtain ⟨row, hrow, rfl⟩ := List.mem_map.mp hid
    exact List.mem_range.mpr (h.bounded row hrow).2
  have hlength := (List.subperm_of_subset h.ids hsub).length_le
  rwa [List.length_map, List.length_range] at hlength

/-- A row stands for a template when it has the cluster and the VMID. -/
theorem isRow_iff {vmid : ℤ} {item : VMTemplate} : isRow activeId vmid item = true ↔
    item.proxmoxClusterId = some activeId ∧ item.sourceVmid = vmid := by
  unfold isRow
  simp

/-- A row without a cluster is adopted by its VMID and its node. -/
theorem isLegacy_iff {vmid : ℤ} {node : Text} {item : VMTemplate} :
    isLegacy vmid node item = true ↔
      item.proxmoxClusterId = none ∧ item.sourceVmid = vmid ∧ item.proxmoxNode = node := by
  unfold isLegacy
  simp [and_assoc]

/-- The row of a template is on the cluster, or it has no cluster and none is. -/
theorem existing_some {catalog : List VMTemplate} {vmid : ℤ} {node : Text} {row : VMTemplate}
    (h : existing activeId vmid node catalog = some row) :
    ∃ found ∈ catalog, row = { found with proxmoxClusterId := some activeId } ∧
      found.sourceVmid = vmid ∧
      (found.proxmoxClusterId = some activeId ∨
        found.proxmoxClusterId = none ∧ ∀ item ∈ catalog, isRow activeId vmid item = false) := by
  unfold existing at h
  cases hfind : catalog.find? (isRow activeId vmid) with
  | some found =>
    rw [hfind] at h
    cases h
    obtain ⟨hcluster, hvmid⟩ := isRow_iff.mp (List.find?_some hfind)
    refine ⟨row, List.mem_of_find?_eq_some hfind, ?_, hvmid, Or.inl hcluster⟩
    rw [← hcluster]
  | none =>
    rw [hfind] at h
    have hnone : ∀ item ∈ catalog, isRow activeId vmid item = false := by
      intro item hitem
      simpa using List.find?_eq_none.mp hfind item hitem
    unfold adopt at h
    dsimp only at h
    split at h
    · next found heq =>
      cases h
      have hmem : found ∈ catalog.filter (isLegacy vmid node) := by
        rw [heq]
        exact List.mem_singleton_self found
      obtain ⟨hfound, hlegacy⟩ := List.mem_filter.mp hmem
      obtain ⟨hcluster, hvmid, -⟩ := isLegacy_iff.mp hlegacy
      exact ⟨found, hfound, rfl, hvmid, Or.inr ⟨hcluster, hnone⟩⟩
    · cases h

/-- A template without a row is not on the cluster. -/
theorem existing_none {catalog : List VMTemplate} {vmid : ℤ} {node : Text}
    (h : existing activeId vmid node catalog = none) :
    ∀ item ∈ catalog, isRow activeId vmid item = false := by
  intro item hitem
  unfold existing at h
  cases hfind : catalog.find? (isRow activeId vmid) with
  | some found =>
    rw [hfind] at h
    cases h
  | none => simpa using List.find?_eq_none.mp hfind item hitem

/-! ## Flushes -/

/-- The template can be stored: it has a VMID, which fits its column, as its node does. -/
structure Storable (t : DiscoveredTemplate) (vmid : ℤ) : Prop where
  reads : t.vmid = some vmid
  inRange : -maxInteger ≤ vmid ∧ vmid < maxInteger
  node : t.node.length ≤ nodeLength

/-- Why a template is refused. -/
inductive Refused (t : DiscoveredTemplate) (nextId : ℕ) : SyncError → Prop
  | noVmid (h : t.vmid = none) : Refused t nextId .noVmid
  | vmidOutOfRange (vmid : ℤ) (h : t.vmid = some vmid)
      (hout : vmid < -maxInteger ∨ maxInteger ≤ vmid) :
      Refused t nextId .vmidOutOfRange
  | nodeTooLong (h : nodeLength < t.node.length) : Refused t nextId .nodeTooLong
  | noId (h : maxInteger ≤ nextId) : Refused t nextId .noId

/-- A flush stores a row, or refuses what the template brings. -/
theorem flush_cases (others : List Text) (row : VMTemplate) (t : DiscoveredTemplate) (nextId : ℕ)
    (hid : row.id < maxInteger ∨ row.id = nextId) (hvmid : t.vmid = some row.sourceVmid)
    (hnode : row.proxmoxNode = t.node)
    (hname : -maxInteger ≤ row.sourceVmid → row.sourceVmid < maxInteger →
      row.name.length ≤ nameLength) (hother : row.name ∉ others) :
    (flush others row = .ok () ∧ Storable t row.sourceVmid ∧ row.name.length ≤ nameLength ∧
        row.id < maxInteger) ∨
      ∃ e, flush others row = .error e ∧ Refused t nextId e := by
  unfold flush
  by_cases hids : maxInteger ≤ row.id
  · rw [if_pos hids]
    refine Or.inr ⟨_, rfl, .noId ?_⟩
    omega
  · rw [if_neg hids]
    by_cases hout : row.sourceVmid < -maxInteger ∨ maxInteger ≤ row.sourceVmid
    · rw [if_pos hout]
      exact Or.inr ⟨_, rfl, .vmidOutOfRange _ hvmid hout⟩
    · rw [if_neg hout]
      by_cases hlong : nodeLength < row.proxmoxNode.length
      · rw [if_pos hlong]
        rw [hnode] at hlong
        exact Or.inr ⟨_, rfl, .nodeTooLong hlong⟩
      · have hshort := hname (by omega) (by omega)
        rw [if_neg hlong, if_neg (by omega), if_neg hother]
        rw [hnode] at hlong
        exact Or.inl ⟨rfl, ⟨hvmid, by omega, by omega⟩, hshort, by omega⟩

/-! ## One template -/

/-- The row of a template once it has been found or adopted. -/
def revisited (activeId : ℕ) (t : DiscoveredTemplate) (found : VMTemplate) : VMTemplate :=
  { found with proxmoxClusterId := some activeId, proxmoxNode := t.node }

/-- The row of a template that is new. -/
def created (organizationId activeId nextId : ℕ) (t : DiscoveredTemplate) (vmid : ℤ)
    (name : Text) : VMTemplate where
  id := nextId
  organizationId := organizationId
  proxmoxClusterId := some activeId
  name := name
  proxmoxNode := t.node
  sourceVmid := vmid
  enabled := true

/-- What one round of the loop does to the state. -/
inductive Imports (organizationId activeId : ℕ) (t : DiscoveredTemplate) (s : State) :
    State → Prop
  | revisit (vmid : ℤ) (hstorable : Storable t vmid) (found : VMTemplate)
      (hfound : found ∈ s.catalog) (hvmid : found.sourceVmid = vmid)
      (hrow : found.proxmoxClusterId = some activeId ∨ found.proxmoxClusterId = none ∧
        ∀ item ∈ s.catalog, isRow activeId vmid item = false) :
      Imports organizationId activeId t s
        { s with catalog := put (revisited activeId t found) s.catalog }
  | create (vmid : ℤ) (hstorable : Storable t vmid)
      (hnone : ∀ item ∈ s.catalog, isRow activeId vmid item = false) (name : Text)
      (hfree : name ∉ s.names) (hlength : name.length ≤ nameLength)
      (hid : s.nextId < maxInteger) :
      Imports organizationId activeId t s
        ⟨s.catalog ++ [created organizationId activeId s.nextId t vmid name], name :: s.names,
          s.nextId + 1⟩

variable {t : DiscoveredTemplate} {s s' : State}

/-- A row has its name for itself. -/
theorem Catalog.not_mem_otherNames {rows : List VMTemplate} {nextId : ℕ} (h : Catalog rows nextId)
    {row : VMTemplate} (hrow : row ∈ rows) : row.name ∉ otherNames row.id rows := by
  unfold otherNames
  intro hmem
  obtain ⟨other, hother, hname⟩ := List.mem_map.mp hmem
  obtain ⟨hother, hid⟩ := List.mem_filter.mp hother
  have heq : other = row := List.inj_on_of_nodup_map h.names hother hrow hname
  rw [heq] at hid
  simp at hid

/-- What a round does with a row that is there. -/
theorem importOne_existing {vmid : ℤ} {found : VMTemplate} (hread : t.vmid = some vmid)
    (h : existing activeId vmid t.node s.catalog =
      some { found with proxmoxClusterId := some activeId }) :
    importOne organizationId activeId s t =
      (flush (otherNames found.id s.catalog) (revisited activeId t found)).map fun _ =>
        ({ s with catalog := put (revisited activeId t found) s.catalog },
          revisited activeId t found) := by
  unfold importOne readVmid
  rw [hread]
  dsimp only [bind, Except.bind]
  rw [h]
  show (flush (otherNames found.id s.catalog) (revisited activeId t found) >>= fun _ => _) = _
  cases flush (otherNames found.id s.catalog) (revisited activeId t found) <;> rfl

/-- What a round does with a template that is new. -/
theorem importOne_new {vmid : ℤ} {name : Text} (hread : t.vmid = some vmid)
    (h : existing activeId vmid t.node s.catalog = none)
    (hname : freshName activeId (baseName t vmid) vmid s.names = .ok name) :
    importOne organizationId activeId s t =
      (flush (s.catalog.map VMTemplate.name)
        (created organizationId activeId s.nextId t vmid name)).map fun _ =>
        (⟨s.catalog ++ [created organizationId activeId s.nextId t vmid name], name :: s.names,
          s.nextId + 1⟩, created organizationId activeId s.nextId t vmid name) := by
  unfold importOne readVmid
  rw [hread]
  dsimp only [bind, Except.bind]
  rw [h]
  have hnew : newRow organizationId activeId t vmid s =
      .ok (created organizationId activeId s.nextId t vmid name) := by
    unfold newRow
    rw [hname]
    rfl
  show (newRow organizationId activeId t vmid s >>= fun row => _) = _
  rw [hnew]
  show (flush (s.catalog.map VMTemplate.name)
    (created organizationId activeId s.nextId t vmid name) >>= fun _ => _) = _
  cases flush (s.catalog.map VMTemplate.name)
    (created organizationId activeId s.nextId t vmid name) <;> rfl

/-- One round imports a template, or refuses it. -/
theorem importOne_cases (organizationId : ℕ) (hgood : s.Good) (hactive : activeId < maxInteger) :
    (∃ s' row, importOne organizationId activeId s t = .ok (s', row) ∧
        Imports organizationId activeId t s s') ∨
      ∃ e, importOne organizationId activeId s t = .error e ∧ Refused t s.nextId e := by
  cases hread : t.vmid with
  | none =>
    have herror : importOne organizationId activeId s t = .error .noVmid := by
      unfold importOne readVmid
      rw [hread]
      rfl
    exact Or.inr ⟨_, herror, .noVmid hread⟩
  | some vmid =>
    cases hexisting : existing activeId vmid t.node s.catalog with
    | some row =>
      obtain ⟨found, hfound, rfl, rfl, hrow⟩ := existing_some hexisting
      have hbounded := hgood.catalog.bounded found hfound
      rw [importOne_existing hread hexisting]
      have hflush := flush_cases (otherNames found.id s.catalog) (revisited activeId t found) t
        s.nextId (Or.inl hbounded.2) hread rfl (fun _ _ => hgood.catalog.stored found hfound)
        (hgood.catalog.not_mem_otherNames hfound)
      rcases hflush with ⟨hok, hstorable, -, -⟩ | ⟨e, herror, hrefused⟩
      · rw [hok]
        exact Or.inl ⟨_, _, rfl, .revisit _ hstorable found hfound rfl hrow⟩
      · rw [herror]
        exact Or.inr ⟨e, rfl, hrefused⟩
    | none =>
      obtain ⟨name, hname, hfree, n, hn, rfl⟩ :=
        freshName_ok activeId (baseName t vmid) vmid s.names
      rw [importOne_new hread hexisting hname]
      have hlength : s.names.length ≤ maxInteger := by
        rw [hgood.names.length_eq, List.length_map]
        exact hgood.catalog.length_le
      have hfree' : candidate activeId (baseName t vmid) vmid n ∉
          s.catalog.map VMTemplate.name := by
        rw [← hgood.names.mem_iff]
        exact hfree
      have hflush := flush_cases (s.catalog.map VMTemplate.name)
        (created organizationId activeId s.nextId t vmid
          (candidate activeId (baseName t vmid) vmid n)) t s.nextId (Or.inr rfl) hread rfl
        (fun hlow hhigh => length_candidate_le (length_baseName_le t vmid) hactive hlow hhigh
          (by omega)) hfree'
      rcases hflush with ⟨hok, hstorable, hshort, hid⟩ | ⟨e, herror, hrefused⟩
      · rw [hok]
        exact Or.inl ⟨_, _, rfl,
          .create vmid hstorable (existing_none hexisting) _ hfree hshort hid⟩
      · rw [herror]
        exact Or.inr ⟨e, rfl, hrefused⟩

/-! ## What a round keeps -/

/-- After a row is put into the catalog the others are as they were. -/
theorem mem_put {row item : VMTemplate} {catalog : List VMTemplate} : item ∈ put row catalog ↔
    (item = row ∧ ∃ old ∈ catalog, old.id = row.id) ∨ (item ∈ catalog ∧ item.id ≠ row.id) := by
  unfold put
  rw [List.mem_map]
  constructor
  · rintro ⟨old, hold, rfl⟩
    by_cases hid : old.id = row.id
    · rw [if_pos hid]
      exact Or.inl ⟨rfl, old, hold, hid⟩
    · rw [if_neg hid]
      exact Or.inr ⟨hold, hid⟩
  · rintro (⟨rfl, old, hold, hid⟩ | ⟨hitem, hid⟩)
    · exact ⟨old, hold, if_pos hid⟩
    · exact ⟨item, hitem, if_neg hid⟩

/-- A changed row leaves a column as it is where it has the old value. -/
theorem map_put {β : Type} {row : VMTemplate} {catalog : List VMTemplate} (column : VMTemplate → β)
    (h : ∀ item ∈ catalog, item.id = row.id → column row = column item) :
    (put row catalog).map column = catalog.map column := by
  unfold put
  rw [List.map_map]
  refine List.map_congr_left ?_
  intro item hitem
  show column (if item.id = row.id then row else item) = column item
  split
  · next hid => exact h item hitem hid
  · rfl

/-- No other row stands for the template on the cluster. -/
theorem Catalog.others_not_row {rows : List VMTemplate} {nextId : ℕ} (h : Catalog rows nextId)
    {vmid : ℤ} {found other : VMTemplate} (hfound : found ∈ rows) (hvmid : found.sourceVmid = vmid)
    (hrow : found.proxmoxClusterId = some activeId ∨ found.proxmoxClusterId = none ∧
      ∀ item ∈ rows, isRow activeId vmid item = false)
    (hother : other ∈ rows) (hne : other.id ≠ found.id) : isRow activeId vmid other = false := by
  cases hrow with
  | inr hnone => exact hnone.2 other hother
  | inl hcluster =>
    by_contra hrow
    obtain ⟨hcluster', hvmid'⟩ := isRow_iff.mp (eq_true_of_ne_false hrow)
    have heq : other = found := h.keys found hfound other hother (by rw [hcluster]; rfl)
      (by rw [hcluster, hcluster']) (by rw [hvmid, hvmid'])
    exact hne (congrArg VMTemplate.id heq)

/-- A row that does not stand for the template has another cluster or VMID. -/
theorem not_isRow {vmid : ℤ} {item : VMTemplate} (h : isRow activeId vmid item = false) :
    ¬ (item.proxmoxClusterId = some activeId ∧ item.sourceVmid = vmid) := by
  intro hrow
  rw [isRow_iff.mpr hrow] at h
  cases h

/-- One round keeps the catalog in order. -/
theorem Imports.good (h : Imports organizationId activeId t s s') (hgood : s.Good) : s'.Good := by
  have hcatalog := hgood.catalog
  cases h with
  | revisit vmid hstorable found hfound hvmid hrow =>
    have hothers : ∀ other ∈ s.catalog, other.id ≠ found.id →
        isRow activeId vmid other = false :=
      fun other hother hid => hcatalog.others_not_row hfound hvmid hrow hother hid
    have hsame : ∀ item ∈ s.catalog, item.id = (revisited activeId t found).id → item = found :=
      fun item hitem hid => hcatalog.eq_of_id hfound hitem hid
    have hids : (put (revisited activeId t found) s.catalog).map VMTemplate.id =
        s.catalog.map VMTemplate.id := map_put _ fun item _ hid => hid.symm
    have hnames : (put (revisited activeId t found) s.catalog).map VMTemplate.name =
        s.catalog.map VMTemplate.name :=
      map_put _ fun item hitem hid => by rw [hsame item hitem hid]; rfl
    refine ⟨⟨by rw [hids]; exact hcatalog.ids, ?_, by rw [hnames]; exact hcatalog.names, ?_, ?_⟩,
      by rw [hnames]; exact hgood.names⟩
    · intro item hitem
      rcases mem_put.mp hitem with ⟨rfl, -⟩ | ⟨hitem, -⟩
      · exact hcatalog.bounded found hfound
      · exact hcatalog.bounded item hitem
    · intro item hitem
      rcases mem_put.mp hitem with ⟨rfl, -⟩ | ⟨hitem, -⟩
      · exact hcatalog.stored found hfound
      · exact hcatalog.stored item hitem
    · intro item hitem other hother hsome hcluster hsource
      rcases mem_put.mp hitem with ⟨rfl, -⟩ | ⟨hitem, hid⟩
      · rcases mem_put.mp hother with ⟨rfl, -⟩ | ⟨hother, hid'⟩
        · rfl
        · exact absurd ⟨hcluster, hsource.trans hvmid⟩ (not_isRow (hothers other hother hid'))
      · rcases mem_put.mp hother with ⟨rfl, -⟩ | ⟨hother, hid'⟩
        · exact absurd ⟨hcluster.symm, hsource.symm.trans hvmid⟩
            (not_isRow (hothers item hitem hid))
        · exact hcatalog.keys item hitem other hother hsome hcluster hsource
  | create vmid hstorable hnone name hfree hlength hid =>
    have hnew : ∀ item ∈ s.catalog, item.id ≠ s.nextId := by
      intro item hitem
      have := (hcatalog.bounded item hitem).1
      omega
    have hfree' : name ∉ s.catalog.map VMTemplate.name := by
      rw [← hgood.names.mem_iff]
      exact hfree
    refine ⟨⟨?_, ?_, ?_, ?_, ?_⟩, ?_⟩
    · rw [List.map_append]
      refine List.Nodup.append hcatalog.ids (List.nodup_singleton _) ?_
      intro id hid hmem
      obtain ⟨item, hitem, rfl⟩ := List.mem_map.mp hid
      exact hnew item hitem (List.mem_singleton.mp hmem)
    · intro item hitem
      rcases List.mem_append.mp hitem with hitem | hitem
      · have := hcatalog.bounded item hitem
        exact ⟨Nat.lt_succ_of_lt this.1, this.2⟩
      · rw [List.mem_singleton.mp hitem]
        exact ⟨Nat.lt_succ_self _, hid⟩
    · rw [List.map_append]
      refine List.Nodup.append hcatalog.names (List.nodup_singleton _) ?_
      intro other hother hmem
      rw [List.mem_singleton.mp hmem] at hother
      exact hfree' hother
    · intro item hitem
      rcases List.mem_append.mp hitem with hitem | hitem
      · exact hcatalog.stored item hitem
      · rw [List.mem_singleton.mp hitem]
        exact hlength
    · intro item hitem other hother hsome hcluster hsource
      rcases List.mem_append.mp hitem with hitem | hitem
      · rcases List.mem_append.mp hother with hother | hother
        · exact hcatalog.keys item hitem other hother hsome hcluster hsource
        · rw [List.mem_singleton.mp hother] at hcluster hsource
          exact absurd ⟨hcluster.symm, hsource.symm⟩ (not_isRow (hnone item hitem))
      · rw [List.mem_singleton.mp hitem] at hcluster hsource ⊢
        rcases List.mem_append.mp hother with hother | hother
        · exact absurd ⟨hcluster, hsource⟩ (not_isRow (hnone other hother))
        · exact List.mem_singleton.mp hother
    · rw [List.map_append]
      exact (hgood.names.cons name).trans (List.perm_append_singleton _ _).symm

/-- A later state of a row: it is the same template under the same name. -/
structure VMTemplate.Continues (row row' : VMTemplate) : Prop where
  id : row'.id = row.id
  organizationId : row'.organizationId = row.organizationId
  name : row'.name = row.name
  sourceVmid : row'.sourceVmid = row.sourceVmid
  enabled : row'.enabled = row.enabled
  cluster : ∀ cluster, row.proxmoxClusterId = some cluster → row'.proxmoxClusterId = some cluster

/-- A row continues itself. -/
theorem VMTemplate.Continues.refl (row : VMTemplate) : row.Continues row :=
  ⟨rfl, rfl, rfl, rfl, rfl, fun _ h => h⟩

/-- A row that continues a later state continues the earlier one. -/
theorem VMTemplate.Continues.trans {a b c : VMTemplate} (h : a.Continues b) (h' : b.Continues c) :
    a.Continues c :=
  ⟨h'.id.trans h.id, h'.organizationId.trans h.organizationId, h'.name.trans h.name,
    h'.sourceVmid.trans h.sourceVmid, h'.enabled.trans h.enabled,
    fun cluster hcluster => h'.cluster cluster (h.cluster cluster hcluster)⟩

/-- What the loop does to the rows of the catalog: all stay, and what is new has a name that fits
and a cluster. -/
structure Advances (s s' : State) : Prop where
  keeps : ∀ row ∈ s.catalog, ∃ row' ∈ s'.catalog, row.Continues row'
  added : ∀ row' ∈ s'.catalog, (∃ row ∈ s.catalog, row.Continues row') ∨
    s.nextId ≤ row'.id ∧ row'.name.length ≤ nameLength
  legacy : ∀ row' ∈ s'.catalog, row'.proxmoxClusterId = none → row' ∈ s.catalog
  nextId : s.nextId ≤ s'.nextId

/-- Doing nothing advances. -/
theorem Advances.refl (s : State) : Advances s s :=
  ⟨fun row h => ⟨row, h, .refl row⟩, fun row h => Or.inl ⟨row, h, .refl row⟩, fun _ h _ => h,
    le_refl _⟩

/-- Two rounds that advance do so together. -/
theorem Advances.trans {a b c : State} (h : Advances a b) (h' : Advances b c) : Advances a c where
  keeps := by
    intro row hrow
    obtain ⟨row', hrow', hcontinues⟩ := h.keeps row hrow
    obtain ⟨row'', hrow'', hcontinues'⟩ := h'.keeps row' hrow'
    exact ⟨row'', hrow'', hcontinues.trans hcontinues'⟩
  added := by
    intro row'' hrow''
    have hnext := h.nextId
    rcases h'.added row'' hrow'' with ⟨row', hrow', hcontinues'⟩ | ⟨hid, hlength⟩
    · rcases h.added row' hrow' with ⟨row, hrow, hcontinues⟩ | ⟨hid, hlength⟩
      · exact Or.inl ⟨row, hrow, hcontinues.trans hcontinues'⟩
      · refine Or.inr ⟨?_, ?_⟩
        · rw [hcontinues'.id]
          exact hid
        · rw [hcontinues'.name]
          exact hlength
    · exact Or.inr ⟨by omega, hlength⟩
  legacy := fun row'' hrow'' hnone => h.legacy row'' (h'.legacy row'' hrow'' hnone) hnone
  nextId := le_trans h.nextId h'.nextId

/-- A row that is found or adopted goes on as the same template under the same name. -/
theorem continues_revisited {found : VMTemplate}
    (h : found.proxmoxClusterId = some activeId ∨ found.proxmoxClusterId = none) :
    found.Continues (revisited activeId t found) := by
  refine ⟨rfl, rfl, rfl, rfl, rfl, ?_⟩
  intro cluster hcluster
  cases h with
  | inl hsome =>
    rw [hsome] at hcluster
    exact hcluster
  | inr hnone =>
    rw [hnone] at hcluster
    cases hcluster

/-- What one round does to the rows. -/
theorem Imports.advances (h : Imports organizationId activeId t s s') (hgood : s.Good) :
    Advances s s' := by
  cases h with
  | revisit vmid hstorable found hfound hvmid hrow =>
    have hcontinues : found.Continues (revisited activeId t found) :=
      continues_revisited (hrow.imp id And.left)
    refine ⟨?_, ?_, ?_, le_refl _⟩
    · intro row hmem
      by_cases hid : row.id = found.id
      · have heq := hgood.catalog.eq_of_id hfound hmem hid
        refine ⟨revisited activeId t found, mem_put.mpr (Or.inl ⟨rfl, found, hfound, rfl⟩), ?_⟩
        rw [heq]
        exact hcontinues
      · exact ⟨row, mem_put.mpr (Or.inr ⟨hmem, hid⟩), .refl row⟩
    · intro row' hmem
      rcases mem_put.mp hmem with ⟨rfl, -⟩ | ⟨hmem, -⟩
      · exact Or.inl ⟨found, hfound, hcontinues⟩
      · exact Or.inl ⟨row', hmem, .refl row'⟩
    · intro row' hmem hnone
      rcases mem_put.mp hmem with ⟨rfl, -⟩ | ⟨hmem, -⟩
      · cases hnone
      · exact hmem
  | create vmid hstorable hnone name hfree hlength hid =>
    refine ⟨?_, ?_, ?_, Nat.le_succ _⟩
    · intro row hmem
      exact ⟨row, List.mem_append_left _ hmem, .refl row⟩
    · intro row' hmem
      rcases List.mem_append.mp hmem with hmem | hmem
      · exact Or.inl ⟨row', hmem, .refl row'⟩
      · rw [List.mem_singleton.mp hmem]
        exact Or.inr ⟨le_refl _, hlength⟩
    · intro row' hmem hcluster
      rcases List.mem_append.mp hmem with hmem | hmem
      · exact hmem
      · rw [List.mem_singleton.mp hmem] at hcluster
        cases hcluster

/-- The template is storable, and a row stands for it on the cluster. -/
def Present (activeId : ℕ) (s : State) (t : DiscoveredTemplate) : Prop :=
  ∃ vmid, Storable t vmid ∧ ∃ row ∈ s.catalog, isRow activeId vmid row = true

/-- After its round a template is present. -/
theorem Imports.present (h : Imports organizationId activeId t s s') : Present activeId s' t := by
  cases h with
  | revisit vmid hstorable found hfound hvmid hrow =>
    refine ⟨vmid, hstorable, revisited activeId t found, ?_, isRow_iff.mpr ⟨rfl, hvmid⟩⟩
    exact mem_put.mpr (Or.inl ⟨rfl, found, hfound, rfl⟩)
  | create vmid hstorable hnone name hfree hlength hid =>
    refine ⟨vmid, hstorable, created organizationId activeId s.nextId t vmid name, ?_,
      isRow_iff.mpr ⟨rfl, rfl⟩⟩
    exact List.mem_append_right _ (List.mem_singleton_self _)

/-- A template for which a row stands keeps having one. -/
theorem Present.advances (h : Present activeId s t) (hadvances : Advances s s') :
    Present activeId s' t := by
  obtain ⟨vmid, hstorable, row, hrow, hkey⟩ := h
  obtain ⟨hcluster, hvmid⟩ := isRow_iff.mp hkey
  obtain ⟨row', hrow', hcontinues⟩ := hadvances.keeps row hrow
  refine ⟨vmid, hstorable, row', hrow', isRow_iff.mpr ⟨?_, ?_⟩⟩
  · exact hcontinues.cluster activeId hcluster
  · rw [hcontinues.sourceVmid, hvmid]

/-! ## Coming back -/

/-- What a discovered template does to a row that is on the cluster: it tells the node. -/
def visit (activeId : ℕ) (row : VMTemplate) (t : DiscoveredTemplate) : VMTemplate :=
  if row.proxmoxClusterId = some activeId ∧ t.vmid = some row.sourceVmid then
    { row with proxmoxNode := t.node }
  else row

/-- What discovered templates do to a row one after the other. -/
def visits (activeId : ℕ) (row : VMTemplate) (ts : List DiscoveredTemplate) : VMTemplate :=
  ts.foldl (visit activeId) row

/-- The visits of the templates would change no row. -/
def Settled (activeId : ℕ) (ts : List DiscoveredTemplate) (rows : List VMTemplate) : Prop :=
  ∀ row ∈ rows, visits activeId row ts = row

/-- A visit changes the node of a row only. -/
theorem visit_node (activeId : ℕ) (row : VMTemplate) (t : DiscoveredTemplate) :
    ∃ node, visit activeId row t = { row with proxmoxNode := node } := by
  unfold visit
  split
  · exact ⟨t.node, rfl⟩
  · exact ⟨row.proxmoxNode, rfl⟩

/-- Any number of visits changes the node of a row only. -/
theorem visits_node (activeId : ℕ) (row : VMTemplate) (ts : List DiscoveredTemplate) :
    ∃ node, visits activeId row ts = { row with proxmoxNode := node } := by
  induction ts generalizing row with
  | nil => exact ⟨row.proxmoxNode, rfl⟩
  | cons t ts ih =>
    obtain ⟨node, hnode⟩ := visit_node activeId row t
    obtain ⟨node', hnode'⟩ := ih (visit activeId row t)
    refine ⟨node', ?_⟩
    show visits activeId (visit activeId row t) ts = _
    rw [hnode', hnode]

/-- The last visit comes after the others. -/
theorem visits_append (activeId : ℕ) (row : VMTemplate) (ts : List DiscoveredTemplate)
    (t : DiscoveredTemplate) :
    visits activeId row (ts ++ [t]) = visit activeId (visits activeId row ts) t := by
  unfold visits
  rw [List.foldl_append]
  rfl

/-- The last visit decides. -/
theorem visits_append_self {row : VMTemplate} (ts : List DiscoveredTemplate)
    (hcluster : row.proxmoxClusterId = some activeId) (hvmid : t.vmid = some row.sourceVmid)
    (hnode : row.proxmoxNode = t.node) : visits activeId row (ts ++ [t]) = row := by
  obtain ⟨node, hvisits⟩ := visits_node activeId row ts
  rw [visits_append, hvisits]
  unfold visit
  rw [if_pos ⟨hcluster, hvmid⟩]
  rw [← hnode]

/-- The rows stay settled, with the template that was imported. -/
theorem Imports.settled (h : Imports organizationId activeId t s s') (hgood : s.Good)
    {ts : List DiscoveredTemplate} (hsettled : Settled activeId ts s.catalog) :
    Settled activeId (ts ++ [t]) s'.catalog := by
  have hold : ∀ row ∈ s.catalog, ∀ vmid, t.vmid = some vmid → isRow activeId vmid row = false →
      visits activeId row (ts ++ [t]) = row := by
    intro row hrow vmid hvmid hno
    rw [visits_append, hsettled row hrow]
    unfold visit
    rw [if_neg]
    rintro ⟨hcluster, hsource⟩
    rw [hvmid] at hsource
    exact not_isRow hno ⟨hcluster, (Option.some.inj hsource).symm⟩
  cases h with
  | revisit vmid hstorable found hfound hvmid hrow =>
    intro row hmem
    rcases mem_put.mp hmem with ⟨rfl, -⟩ | ⟨hmem, hid⟩
    · refine visits_append_self ts rfl ?_ rfl
      rw [hstorable.reads, ← hvmid]
      rfl
    · exact hold row hmem vmid hstorable.reads
        (hgood.catalog.others_not_row hfound hvmid hrow hmem hid)
  | create vmid hstorable hnone name hfree hlength hid =>
    intro row hmem
    rcases List.mem_append.mp hmem with hmem | hmem
    · exact hold row hmem vmid hstorable.reads (hnone row hmem)
    · rw [List.mem_singleton.mp hmem]
      exact visits_append_self ts rfl hstorable.reads rfl

/-! ## Runs -/

/-- What a run of the loop that ends has done. -/
structure Ran (activeId : ℕ) (ts : List DiscoveredTemplate) (s s' : State) : Prop where
  good : s'.Good
  advances : Advances s s'
  present : ∀ t ∈ ts, Present activeId s' t
  settled : ∀ before, Settled activeId before s.catalog →
    Settled activeId (before ++ ts) s'.catalog

/-- A round of the loop draws at most one id. -/
theorem Imports.nextId_le (h : Imports organizationId activeId t s s') :
    s'.nextId ≤ s.nextId + 1 := by
  cases h with
  | revisit vmid hstorable found hfound hvmid hrow => exact Nat.le_succ _
  | create vmid hstorable hnone name hfree hlength hid => exact le_refl _

/-- The loop ends, or it refuses one of the templates. -/
theorem importAll_cases (organizationId : ℕ) (hactive : activeId < maxInteger)
    (ts : List DiscoveredTemplate) (hgood : s.Good) :
    (∃ s' rows, importAll organizationId activeId s ts = .ok (s', rows) ∧ Ran activeId ts s s') ∨
      ∃ e, importAll organizationId activeId s ts = .error e ∧
        ∃ t ∈ ts, ∃ nextId, nextId < s.nextId + ts.length ∧ Refused t nextId e := by
  induction ts generalizing s with
  | nil =>
    refine Or.inl ⟨s, [], rfl, hgood, .refl s, by simp, ?_⟩
    intro before hsettled
    rw [List.append_nil]
    exact hsettled
  | cons t ts ih =>
    rcases importOne_cases (t := t) organizationId hgood hactive with
      ⟨s₁, row, hone, himports⟩ | ⟨e, herror, hrefused⟩
    · have hnext := himports.nextId_le
      rcases ih (himports.good hgood) with
        ⟨s₂, rows, hall, hran⟩ | ⟨e, herror, t', ht', n, hn, hrefused⟩
      · refine Or.inl ⟨s₂, row :: rows, ?_, hran.good,
          (himports.advances hgood).trans hran.advances, ?_, ?_⟩
        · unfold importAll
          rw [hone]
          show (importAll organizationId activeId s₁ ts >>= fun _ => _) = _
          rw [hall]
          rfl
        · intro t' ht'
          rcases List.mem_cons.mp ht' with rfl | ht'
          · exact himports.present.advances hran.advances
          · exact hran.present t' ht'
        · intro before hsettled
          have hsettled' := hran.settled (before ++ [t]) (himports.settled hgood hsettled)
          rw [List.append_assoc] at hsettled'
          exact hsettled'
      · refine Or.inr ⟨e, ?_, t', List.mem_cons_of_mem _ ht', n, ?_, hrefused⟩
        · unfold importAll
          rw [hone]
          show (importAll organizationId activeId s₁ ts >>= fun _ => _) = _
          rw [herror]
          rfl
        · rw [List.length_cons]
          omega
    · refine Or.inr ⟨e, ?_, t, List.mem_cons_self, s.nextId, ?_, hrefused⟩
      · unfold importAll
        rw [herror]
        rfl
      · rw [List.length_cons]
        omega

/-- A template that is present is visited. -/
theorem importOne_present (organizationId : ℕ) (hgood : s.Good) (h : Present activeId s t) :
    ∃ row, importOne organizationId activeId s t =
        .ok ({ s with catalog := s.catalog.map fun item => visit activeId item t }, row) ∧
      Imports organizationId activeId t s
        { s with catalog := s.catalog.map fun item => visit activeId item t } := by
  obtain ⟨vmid, hstorable, row, hrow, hkey⟩ := h
  obtain ⟨found, hfind⟩ : ∃ found, s.catalog.find? (isRow activeId vmid) = some found := by
    rw [← Option.isSome_iff_exists, List.find?_isSome]
    exact ⟨row, hrow, hkey⟩
  have hfound : found ∈ s.catalog := List.mem_of_find?_eq_some hfind
  obtain ⟨hcluster, hvmid⟩ := isRow_iff.mp (List.find?_some hfind)
  have hexisting : existing activeId vmid t.node s.catalog =
      some { found with proxmoxClusterId := some activeId } := by
    unfold existing
    rw [hfind, ← hcluster]
  have hput : put (revisited activeId t found) s.catalog =
      s.catalog.map fun item => visit activeId item t := by
    refine List.map_congr_left ?_
    intro item hitem
    show (if item.id = found.id then revisited activeId t found else item) = visit activeId item t
    unfold visit
    by_cases hid : item.id = found.id
    · have heq := hgood.catalog.eq_of_id hfound hitem hid
      rw [if_pos hid, heq, if_pos ⟨hcluster, by rw [hstorable.reads, hvmid]⟩]
      unfold revisited
      rw [← hcluster]
    · have hno := hgood.catalog.others_not_row hfound hvmid (Or.inl hcluster) hitem hid
      rw [if_neg hid, if_neg]
      rintro ⟨hcluster', hsource⟩
      rw [hstorable.reads] at hsource
      exact not_isRow hno ⟨hcluster', (Option.some.inj hsource).symm⟩
  have hbounded := hgood.catalog.bounded found hfound
  have hflush := flush_cases (otherNames found.id s.catalog) (revisited activeId t found) t 0
    (Or.inl hbounded.2) (by rw [hstorable.reads, ← hvmid]; rfl) rfl
    (fun _ _ => hgood.catalog.stored found hfound) (hgood.catalog.not_mem_otherNames hfound)
  rw [← hput, importOne_existing hstorable.reads hexisting]
  rcases hflush with ⟨hok, -, -, -⟩ | ⟨e, -, hrefused⟩
  · rw [hok]
    exact ⟨_, rfl, .revisit vmid hstorable found hfound hvmid (Or.inl hcluster)⟩
  · exfalso
    have hreads := hstorable.reads
    cases hrefused with
    | noVmid h =>
      rw [h] at hreads
      cases hreads
    | vmidOutOfRange vmid' h hout =>
      rw [h] at hreads
      cases hreads
      have := hstorable.inRange
      omega
    | nodeTooLong h => exact absurd hstorable.node (Nat.not_le.mpr h)
    | noId h => exact absurd h (by decide)

/-- A run over templates that are all present visits the rows. -/
theorem importAll_present (organizationId : ℕ) (ts : List DiscoveredTemplate) (hgood : s.Good)
    (h : ∀ t ∈ ts, Present activeId s t) :
    ∃ rows, importAll organizationId activeId s ts =
      .ok ({ s with catalog := s.catalog.map fun item => visits activeId item ts }, rows) := by
  induction ts generalizing s with
  | nil =>
    refine ⟨[], ?_⟩
    have hsame : (s.catalog.map fun item => visits activeId item []) = s.catalog :=
      List.map_id _
    rw [hsame]
    rfl
  | cons t ts ih =>
    obtain ⟨row, hone, himports⟩ := importOne_present organizationId hgood (h t List.mem_cons_self)
    have hadvances := himports.advances hgood
    obtain ⟨rows, hall⟩ := ih (himports.good hgood)
      (fun t' ht' => (h t' (List.mem_cons_of_mem _ ht')).advances hadvances)
    refine ⟨row :: rows, ?_⟩
    unfold importAll
    rw [hone]
    show (importAll organizationId activeId _ ts >>= fun _ => _) = _
    rw [hall, List.map_map]
    rfl

/-! ## The synchronization -/

/-- What a synchronization that is committed has done to the catalog. -/
structure Synced (activeId : ℕ) (before after : List VMTemplate) (nextId' : ℕ)
    (discovered : List DiscoveredTemplate) : Prop where
  /-- Every row keeps its primary key, its name and its flag. -/
  keeps : ∀ row ∈ before, ∃ row' ∈ after,
    row'.id = row.id ∧ row'.name = row.name ∧ row'.enabled = row.enabled
  /-- Exactly one row stands for each discovered template on the cluster. -/
  one : ∀ t ∈ discovered, ∀ vmid, t.vmid = some vmid →
    (after.filter (isRow activeId vmid)).length = 1
  /-- No two rows stand for one template on a cluster, and no two have the same name. -/
  catalog : Catalog after nextId'
  /-- The rows without a cluster were there before. -/
  legacy : ∀ row ∈ after, row.proxmoxClusterId = none → row ∈ before
  /-- New rows have names that fit and that no other row has. -/
  added : ∀ row ∈ after, row.id ∉ before.map VMTemplate.id → row.name.length ≤ nameLength ∧
    ∀ other ∈ after, other.id ≠ row.id → other.name ≠ row.name

/-- A run of the loop that ends has synchronized the catalog. -/
theorem Ran.synced {rows : List VMTemplate} {nextId : ℕ} {ts : List DiscoveredTemplate}
    (h : Ran activeId ts ⟨rows, rows.map VMTemplate.name, nextId⟩ s') :
    Synced activeId rows s'.catalog s'.nextId ts where
  keeps := by
    intro row hrow
    obtain ⟨row', hrow', hcontinues⟩ := h.advances.keeps row hrow
    exact ⟨row', hrow', hcontinues.id, hcontinues.name, hcontinues.enabled⟩
  one := by
    intro t ht vmid hread
    obtain ⟨vmid', hstorable, row, hrow, hkey⟩ := h.present t ht
    rw [hstorable.reads] at hread
    cases hread
    obtain ⟨hcluster, hvmid⟩ := isRow_iff.mp hkey
    have hall : ∀ other ∈ s'.catalog.filter (isRow activeId vmid), other = row := by
      intro other hother
      obtain ⟨hother, hkey'⟩ := List.mem_filter.mp hother
      obtain ⟨hcluster', hvmid'⟩ := isRow_iff.mp hkey'
      exact h.good.catalog.keys row hrow other hother (by rw [hcluster]; rfl)
        (by rw [hcluster, hcluster']) (by rw [hvmid, hvmid'])
    have hnodup : (s'.catalog.filter (isRow activeId vmid)).Nodup :=
      (List.Nodup.of_map _ h.good.catalog.ids).filter _
    have hmem : row ∈ s'.catalog.filter (isRow activeId vmid) := List.mem_filter.mpr ⟨hrow, hkey⟩
    cases hrows : s'.catalog.filter (isRow activeId vmid) with
    | nil =>
      rw [hrows] at hmem
      cases hmem
    | cons a rest =>
      cases rest with
      | nil => rfl
      | cons b rest =>
        rw [hrows] at hall hnodup
        have ha := hall a List.mem_cons_self
        have hb := hall b (List.mem_cons_of_mem _ List.mem_cons_self)
        have hne := (List.nodup_cons.mp hnodup).1
        rw [ha, hb] at hne
        exact absurd List.mem_cons_self hne
  catalog := h.good.catalog
  legacy := fun row hrow hnone => h.advances.legacy row hrow hnone
  added := by
    intro row hrow hnew
    constructor
    · exact h.good.catalog.stored row hrow
    · intro other hother hid hname
      exact hid (congrArg VMTemplate.id
        (List.inj_on_of_nodup_map h.good.catalog.names hother hrow hname))

/-- A catalog in another order is one, as long as the ids are below the next one. -/
theorem Catalog.perm {rows rows' : List VMTemplate} {nextId nextId' : ℕ} (h : Catalog rows nextId)
    (hperm : rows'.Perm rows) (hle : nextId ≤ nextId') : Catalog rows' nextId' where
  ids := (hperm.map _).nodup_iff.mpr h.ids
  bounded := by
    intro row hrow
    have hbounded := h.bounded row (hperm.mem_iff.mp hrow)
    exact ⟨by omega, hbounded.2⟩
  names := (hperm.map _).nodup_iff.mpr h.names
  stored := fun row hrow => h.stored row (hperm.mem_iff.mp hrow)
  keys := fun row hrow other hother =>
    h.keys row (hperm.mem_iff.mp hrow) other (hperm.mem_iff.mp hother)

/-- The state in which the loop starts. -/
theorem Catalog.good {rows : List VMTemplate} {nextId : ℕ} (h : Catalog rows nextId) :
    State.Good ⟨rows, rows.map VMTemplate.name, nextId⟩ :=
  ⟨h, List.Perm.refl _⟩

/-- After a run a second one with the same templates changes nothing, in whatever order the query
returns the rows. -/
theorem Ran.again {rows : List VMTemplate} {nextId : ℕ} {ts : List DiscoveredTemplate}
    (h : Ran activeId ts ⟨rows, rows.map VMTemplate.name, nextId⟩ s') (organizationId : ℕ)
    {again : List VMTemplate} {nextId' : ℕ} (hperm : again.Perm s'.catalog)
    (hle : s'.nextId ≤ nextId') :
    ∃ imported, syncTemplates organizationId activeId again nextId' ts =
      .ok (again, nextId', imported) := by
  have hgood := (h.good.catalog.perm hperm hle).good
  have hpresent : ∀ t ∈ ts, Present activeId ⟨again, again.map VMTemplate.name, nextId'⟩ t := by
    intro t ht
    obtain ⟨vmid, hstorable, row, hrow, hkey⟩ := h.present t ht
    exact ⟨vmid, hstorable, row, hperm.mem_iff.mpr hrow, hkey⟩
  obtain ⟨imported, hall⟩ := importAll_present organizationId ts hgood hpresent
  have hsettled : Settled activeId ts s'.catalog := h.settled [] fun _ _ => rfl
  have hsame : (again.map fun item => visits activeId item ts) = again := by
    refine (List.map_congr_left ?_).trans (List.map_id _)
    intro row hrow
    exact hsettled row (hperm.mem_iff.mp hrow)
  refine ⟨imported, ?_⟩
  unfold syncTemplates
  rw [hall]
  show Except.ok (again.map (fun item => visits activeId item ts), nextId', imported) = _
  rw [hsame]

/-- A synchronization loses no row and has exactly one for each discovered template, and once more
with the same templates it changes nothing; or it raises because of a template that does not fit,
and is rolled back. -/
theorem sync_lossless {rows : List VMTemplate} {nextId : ℕ} (organizationId : ℕ)
    (h : Catalog rows nextId) (hactive : activeId < maxInteger)
    (discovered : List DiscoveredTemplate) :
    (∃ after nextId' imported,
        syncTemplates organizationId activeId rows nextId discovered =
          .ok (after, nextId', imported) ∧
        Synced activeId rows after nextId' discovered ∧
        ∀ again nextId'', again.Perm after → nextId' ≤ nextId'' →
          ∃ imported', syncTemplates organizationId activeId again nextId'' discovered =
            .ok (again, nextId'', imported')) ∨
      ∃ e, syncTemplates organizationId activeId rows nextId discovered = .error e ∧
        ∃ t ∈ discovered, ∃ n, n < nextId + discovered.length ∧ Refused t n e := by
  rcases importAll_cases organizationId hactive discovered h.good with
    ⟨s', imported, hall, hran⟩ | ⟨e, herror, t, ht, n, hn, hrefused⟩
  · refine Or.inl ⟨s'.catalog, s'.nextId, imported, ?_, hran.synced, ?_⟩
    · unfold syncTemplates
      rw [hall]
      rfl
    · intro again nextId'' hperm hle
      exact hran.again organizationId hperm hle
  · refine Or.inr ⟨e, ?_, t, ht, n, hn, hrefused⟩
    unfold syncTemplates
    rw [herror]
    rfl

namespace Fixture

/-- A template that was imported before rows had a cluster, and has been renamed and disabled. -/
def legacy : VMTemplate where
  id := 1
  organizationId := 1
  proxmoxClusterId := none
  name := "Custom Windows".toList
  proxmoxNode := "pve1".toList
  sourceVmid := 9002
  enabled := false

def windows : DiscoveredTemplate where
  vmid := some 9002
  node := "pve1".toList
  name := some "windows".toList

/-- A template whose name another row has. -/
def ubuntu : DiscoveredTemplate where
  vmid := some 9003
  node := "pve2".toList
  name := some "Custom Windows".toList

example : (syncTemplates 1 1 [legacy] 2 [windows, ubuntu]).toOption.map (fun run =>
    run.1.map fun row => (row.id, row.proxmoxClusterId, String.ofList row.name, row.enabled)) =
    some [(1, some 1, "Custom Windows", false), (2, some 1, "Custom Windows-1-9003-1", true)] := by
  decide +kernel

/-- The row of the fixture makes a catalog. -/
theorem catalog_legacy : Catalog [legacy] 2 where
  ids := by decide
  bounded := by
    intro row hrow
    rw [List.mem_singleton.mp hrow]
    exact ⟨by decide, by decide⟩
  names := List.nodup_singleton _
  stored := by
    intro row hrow
    rw [List.mem_singleton.mp hrow]
    decide
  keys := by
    intro row hrow other hother _ _ _
    rw [List.mem_singleton.mp hrow, List.mem_singleton.mp hother]

/-- In the fixture the old row is kept or the synchronization is refused, and a second run changes
nothing. -/
theorem sync_lossless_legacy :
    (∃ after nextId' imported,
        syncTemplates 1 1 [legacy] 2 [windows, ubuntu] = .ok (after, nextId', imported) ∧
        Synced 1 [legacy] after nextId' [windows, ubuntu] ∧
        ∀ again nextId'', again.Perm after → nextId' ≤ nextId'' →
          ∃ imported', syncTemplates 1 1 again nextId'' [windows, ubuntu] =
            .ok (again, nextId'', imported')) ∨
      ∃ e, syncTemplates 1 1 [legacy] 2 [windows, ubuntu] = .error e ∧
        ∃ t ∈ [windows, ubuntu], ∃ n, n < 2 + [windows, ubuntu].length ∧ Refused t n e :=
  sync_lossless 1 catalog_legacy (by decide) [windows, ubuntu]

end Fixture

end LabGoblin.TemplateSync
