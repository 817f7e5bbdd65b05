import LabGoblin.Model.Pools
import Mathlib.Data.List.Nodup

/-!
# Plans of desktop pools

When a plan delivers what the checks of the configuration promise: the identifiers that are asked
for, in the range, with names of their own.
-/

set_option autoImplicit false

namespace LabGoblin.Pools

open Interactive.Placeholder LabGoblin.Text

variable {pool : DesktopPool} {pattern : Text}

/-! ## What the checks promise -/

/-- There is no complaint exactly when the condition fails. -/
theorem complain_eq_nil {condition : Prop} [Decidable condition] {message : String} :
    complain condition message = [] ↔ ¬ condition := by
  unfold complain
  by_cases h : condition
  · simp [h]
  · simp [h]

/-- What a configuration without errors has. -/
structure Validated (pool : DesktopPool) : Prop where
  range : ∀ start last, pool.vmidStart = some start → pool.vmidEnd = some last → start ≤ last
  size : ∀ start last, pool.vmidStart = some start → pool.vmidEnd = some last →
    pool.desiredSize ≤ last - start + 1
  pattern : ∀ pattern, truthy pool.namingPattern = some pattern →
    indexPlaceholder <:+: pattern ∨ vmidPlaceholder <:+: pattern

/-- A configuration without errors has passed every check. -/
theorem validated_of_no_errors (h : validatePoolConfig pool = []) : Validated pool := by
  unfold validatePoolConfig at h
  simp only [List.append_eq_nil_iff, complain_eq_nil] at h
  obtain ⟨⟨⟨⟨⟨hrange, hsize⟩, -⟩, -⟩, -⟩, hpattern⟩ := h
  refine ⟨?_, ?_, ?_⟩
  · intro start last hstart hlast
    by_contra hgt
    exact hrange ⟨start, hstart, last, hlast, by omega⟩
  · intro start last hstart hlast
    by_contra hgt
    exact hsize ⟨start, hstart, last, hlast, by omega⟩
  · intro pattern htruthy
    rw [← contains_iff, ← contains_iff]
    by_contra hno
    rw [not_or] at hno
    exact hpattern ⟨pattern, htruthy, hno.1, hno.2⟩

/-- The pattern of a plan has a placeholder. -/
theorem Validated.placeholder (h : Validated pool) :
    indexPlaceholder <:+: planPattern pool ∨ vmidPlaceholder <:+: planPattern pool := by
  unfold planPattern
  cases htruthy : truthy pool.namingPattern with
  | some pattern => exact h.pattern pattern htruthy
  | none => exact Or.inl ((List.suffix_append _ _).isInfix)

/-! ## Names -/

/-- A name renders the pieces of the pattern. -/
theorem spell_eq (pattern : Text) (index vmid : ℤ) :
    spell pattern index vmid =
      render (str index) (str vmid) (pieces indexPlaceholder vmidPlaceholder pattern) := by
  refine replace_replace (by decide) (str_ne_nil index) ?_ pattern
  intro c hc hmem
  have hletters : vmidPlaceholder.all (fun d => d ≠ '-' && !d.isDigit) = true := by decide
  have hletter := List.all_eq_true.mp hletters c hmem
  rw [Bool.and_eq_true, decide_eq_true_eq, Bool.not_eq_true'] at hletter
  obtain ⟨hminus, hdigit⟩ := hletter
  cases mem_str hc with
  | inl h => exact hminus h
  | inr h =>
    rw [hdigit] at h
    cases h

/-- Where the numerals that occur in it get no shorter, two names that are spelled alike have the
same numbers. -/
theorem spell_inj {index vmid index' vmid' : ℤ}
    (hindex : Piece.first ∈ pieces indexPlaceholder vmidPlaceholder pattern →
      (str index).length ≤ (str index').length)
    (hvmid : Piece.second ∈ pieces indexPlaceholder vmidPlaceholder pattern →
      (str vmid).length ≤ (str vmid').length)
    (h : spell pattern index vmid = spell pattern index' vmid') :
    (Piece.first ∈ pieces indexPlaceholder vmidPlaceholder pattern → index = index') ∧
      (Piece.second ∈ pieces indexPlaceholder vmidPlaceholder pattern → vmid = vmid') := by
  rw [spell_eq, spell_eq] at h
  obtain ⟨hfirst, hsecond⟩ := render_inj_of_le hindex hvmid h
  exact ⟨fun hmem => str_injective (hfirst hmem), fun hmem => str_injective (hsecond hmem)⟩

/-- A pattern has the sign of the index exactly when it has the placeholder. -/
theorem index_mem_pieces : Piece.first ∈ pieces indexPlaceholder vmidPlaceholder pattern ↔
    indexPlaceholder <:+: pattern :=
  first_mem_pieces (by decide)

/-- Two names differ when the pattern has no place for the index. -/
theorem spell_ne_of_vmid (hno : ¬ indexPlaceholder <:+: pattern)
    (hin : vmidPlaceholder <:+: pattern) {index vmid index' vmid' : ℤ} (hne : vmid ≠ vmid') :
    spell pattern index vmid ≠ spell pattern index' vmid' := by
  intro heq
  have hfirst : Piece.first ∉ pieces indexPlaceholder vmidPlaceholder pattern :=
    fun h => hno (index_mem_pieces.mp h)
  have hsecond : Piece.second ∈ pieces indexPlaceholder vmidPlaceholder pattern :=
    second_mem_pieces (by decide) hno hin
  cases le_total (str vmid).length (str vmid').length with
  | inl hle => exact hne ((spell_inj (fun h => absurd h hfirst) (fun _ => hle) heq).2 hsecond)
  | inr hle =>
    exact hne ((spell_inj (fun h => absurd h hfirst) (fun _ => hle) heq.symm).2 hsecond).symm

/-! ## The conditions -/

/-- Where only the end of the range is set, the identifiers from 0 up to it are enough. -/
def RangeSuffices (pool : DesktopPool) : Prop :=
  pool.vmidStart = none → ∀ last, pool.vmidEnd = some last →
    max pool.desiredSize 0 ≤ max (last + 1) 0

/-- The placeholders of a pattern, from left to right. -/
def placeholders (pattern : Text) : List (Piece Char) :=
  (pieces indexPlaceholder vmidPlaceholder pattern).filter Piece.isHole

/-- The first placeholder of the pattern is an identifier and the last one an index, the numeral
of the larger index ends with that of the smaller, and the numeral of the smaller identifier
starts with that of the larger, as among negative numbers only. -/
structure Confusable (pattern : Text) (index vmid index' vmid' : ℤ) : Prop where
  holes : (placeholders pattern).head? = some .second ∧
    (placeholders pattern).getLast? = some .first
  index : str index <:+ str index'
  vmid : str vmid' <+: str vmid

/-- No two positions with numbers that can be confused are spelled alike. -/
def SpelledApart (pool : DesktopPool) : Prop :=
  ∀ i j : ℤ, 1 ≤ i → i < j → j ≤ pool.desiredSize →
    Confusable (planPattern pool) i (planStart pool + i - 1) j (planStart pool + j - 1) →
    spell (planPattern pool) i (planStart pool + i - 1) ≠
      spell (planPattern pool) j (planStart pool + j - 1)

-- The first and the eleventh VM from -11 on.
example : spell "{vmid}{index}".toList 1 (-11) = spell "{vmid}{index}".toList 11 (-1) := by
  decide +kernel

/-- The numeral of a negative number starts with its only sign. -/
theorem minus_not_mem_tail {v : ℤ} {rest : Text} (h : str v = '-' :: rest) : '-' ∉ rest := by
  cases v with
  | ofNat n =>
    have hmem : '-' ∈ Nat.toDigits 10 n := by
      have hn : Nat.toDigits 10 n = '-' :: rest := h
      rw [hn]
      exact List.mem_cons_self
    exact absurd hmem (minus_not_mem_toDigits n)
  | negSucc n =>
    have hrest : rest = Nat.toDigits 10 (n + 1) := (List.tail_eq_of_cons_eq h).symm
    rw [hrest]
    exact minus_not_mem_toDigits (n + 1)

/-- Only growing numbers that can be confused are spelled alike. -/
theorem confusable_of_spell_eq
    (hpattern : indexPlaceholder <:+: pattern ∨ vmidPlaceholder <:+: pattern)
    {index vmid index' vmid' : ℤ} (hindex : 0 ≤ index) (hlt : index < index')
    (hlt' : vmid < vmid') (heq : spell pattern index vmid = spell pattern index' vmid') :
    Confusable pattern index vmid index' vmid' := by
  have hin : indexPlaceholder <:+: pattern := by
    by_contra hno
    exact spell_ne_of_vmid hno (hpattern.resolve_left hno) (ne_of_lt hlt') heq
  have hfirst := index_mem_pieces.mpr hin
  have hmono := length_str_mono hindex (le_of_lt hlt)
  have hne : index ≠ index' := ne_of_lt hlt
  -- the lengths do not move together
  have hvmids : (str vmid').length < (str vmid).length := by
    by_contra hle
    exact hne ((spell_inj (fun _ => hmono) (fun _ => by omega) heq).1 hfirst)
  have hindices : (str index).length < (str index').length := by
    by_contra hle
    exact hne ((spell_inj (fun _ => by omega) (fun _ => by omega) heq.symm).1 hfirst).symm
  have hnegative : vmid < 0 := by
    by_contra hle
    have := length_str_mono (by omega : 0 ≤ vmid) (le_of_lt hlt')
    omega
  obtain ⟨rest, hrest⟩ : ∃ rest, str vmid = '-' :: rest := by
    cases vmid with
    | ofNat n => exact absurd hnegative (by simp)
    | negSucc n => exact ⟨_, rfl⟩
  have hunsigned : ∀ n : ℤ, 0 ≤ n → '-' ∉ str n := by
    intro n hn
    lift n to ℕ using hn
    exact minus_not_mem_toDigits n
  rw [spell_eq, spell_eq] at heq
  obtain ⟨hholes, hsuffix, hprefix⟩ := holes_of_render_eq hfirst hindices hvmids
    (hunsigned index hindex) (hunsigned index' (by omega)) hrest (minus_not_mem_tail hrest)
    (str_ne_nil vmid') (fun _ h => minus_not_mem_tail h) heq
  exact ⟨hholes, hsuffix, hprefix⟩

/-- Names at different positions differ under the conditions. -/
theorem SpelledApart.spell_ne (h : SpelledApart pool) (hvalid : Validated pool) {i j : ℤ}
    (hi : 1 ≤ i) (hij : i < j) (hj : j ≤ pool.desiredSize) :
    spell (planPattern pool) i (planStart pool + i - 1) ≠
      spell (planPattern pool) j (planStart pool + j - 1) := by
  intro heq
  have hconfusable := confusable_of_spell_eq hvalid.placeholder (by omega) hij (by omega) heq
  exact h i j hi hij hj hconfusable heq

/-! ## Identifiers -/

/-- The plan has as many VMIDs as are asked for, or as many as the range has. -/
theorem length_planVmids (pool : DesktopPool) : (planVmids pool).length =
    min (planSize pool).toNat (planEnd pool + 1 - planStart pool).toNat := by
  unfold planVmids range
  rw [List.length_take, List.length_map, List.length_range]

/-- The identifiers count up from the start. -/
theorem planVmids_eq (pool : DesktopPool) : planVmids pool =
    (List.range (planVmids pool).length).map fun (i : ℕ) => planStart pool + i := by
  rw [length_planVmids]
  unfold planVmids range
  rw [← List.map_take, List.take_range]

/-- The VMIDs of a plan are the first ones of its range. -/
theorem mem_planVmids {v : ℤ} : v ∈ planVmids pool ↔
    planStart pool ≤ v ∧ v < planStart pool + (planVmids pool).length := by
  rw [planVmids_eq, List.length_map, List.length_range, List.mem_map]
  constructor
  · rintro ⟨i, hi, rfl⟩
    have := List.mem_range.mp hi
    omega
  · rintro ⟨hle, hlt⟩
    refine ⟨(v - planStart pool).toNat, List.mem_range.mpr (by omega), by omega⟩

/-- No VMID is planned twice. -/
theorem planVmids_nodup (pool : DesktopPool) : (planVmids pool).Nodup := by
  rw [planVmids_eq]
  refine List.Nodup.map ?_ List.nodup_range
  intro i j h
  have h : planStart pool + i = planStart pool + j := h
  omega

/-- Where the range is long enough, there are as many identifiers as are asked for. -/
theorem length_planVmids_of_le (h : planSize pool ≤ max (planEnd pool + 1 - planStart pool) 0) :
    (planVmids pool).length = (planSize pool).toNat := by
  rw [length_planVmids]
  omega

/-- The range is long enough under the condition, and ends where it is set to. -/
theorem RangeSuffices.bounds (h : RangeSuffices pool) (hvalid : Validated pool) :
    planSize pool ≤ max (planEnd pool + 1 - planStart pool) 0 ∧
      (∀ start, pool.vmidStart = some start → planStart pool = start) ∧
      ∀ last, pool.vmidEnd = some last → planStart pool + planSize pool ≤ last + 1 ∨
        planSize pool = 0 := by
  have hstart : ∀ start, pool.vmidStart = some start → planStart pool = start := by
    intro start heq
    unfold planStart orElse
    rw [heq]
    dsimp only
    split
    · omega
    · rfl
  have hnone : pool.vmidStart = none → planStart pool = 0 := by
    intro heq
    unfold planStart orElse
    rw [heq]
  have hsize : planSize pool = max pool.desiredSize 0 := rfl
  have hlast : ∀ last, pool.vmidEnd = some last → planStart pool + planSize pool ≤ last + 1 ∨
      planSize pool = 0 := by
    intro last heq
    cases hcase : pool.vmidStart with
    | none =>
      have := h hcase last heq
      have := hnone hcase
      omega
    | some start =>
      have := hvalid.size start last hcase heq
      have := hvalid.range start last hcase heq
      have := hstart start hcase
      omega
  refine ⟨?_, hstart, hlast⟩
  unfold planEnd orElse
  cases hcase : pool.vmidEnd with
  | none =>
    dsimp only
    omega
  | some last =>
    have := hlast last hcase
    dsimp only
    split
    · omega
    · omega

/-! ## Plans -/

/-- What the checks promise of a plan. -/
structure Delivers (pool : DesktopPool) : Prop where
  count : ((buildPlan pool).vmidPreview.length : ℤ) = max pool.desiredSize 0
  distinct : (buildPlan pool).vmidPreview.Nodup
  range : ∀ v ∈ (buildPlan pool).vmidPreview,
    (∀ start, pool.vmidStart = some start → start ≤ v) ∧
      ∀ last, pool.vmidEnd = some last → v ≤ last
  names : (buildPlan pool).namingPreview.length = (buildPlan pool).vmidPreview.length ∧
    (buildPlan pool).namingPreview.Nodup
  actions : ((buildPlan pool).estimatedActions.filter fun a => a.action = "would_create_vm").map
      PoolPlanAction.detail =
    List.zipWith createDetail (buildPlan pool).vmidPreview (buildPlan pool).namingPreview

/-- The plan has a name for every VMID. -/
theorem length_planNames (pattern : Text) (vmids : List ℤ) :
    (planNames pattern vmids).length = vmids.length := by
  unfold planNames
  rw [List.length_map, List.length_zipIdx]

/-- The names of identifiers that count up. -/
theorem planNames_planVmids (pool : DesktopPool) :
    planNames (planPattern pool) (planVmids pool) =
      (List.range (planVmids pool).length).map fun (i : ℕ) =>
        spell (planPattern pool) (i + 1) (planStart pool + i) := by
  apply List.ext_getElem
  · rw [length_planNames, List.length_map, List.length_range]
  · intro i hi hi'
    rw [length_planNames] at hi
    have hv : (planVmids pool)[i] = planStart pool + i := by
      rw [List.getElem_of_eq (planVmids_eq pool) hi, List.getElem_map, List.getElem_range]
    simp [planNames, hv]

/-- There is one action for each identifier that says that a VM would be created. -/
theorem create_actions (vmids : List ℤ) (names : List Text) :
    ((estimatedActions vmids names).filter fun a => a.action = "would_create_vm").map
      PoolPlanAction.detail = List.zipWith createDetail vmids names := by
  have hall : (List.zipWith (fun vmid name => PoolPlanAction.mk "would_create_vm"
      (createDetail vmid name)) vmids names).filter (fun a => a.action = "would_create_vm") =
      List.zipWith (fun vmid name => ⟨"would_create_vm", createDetail vmid name⟩) vmids names := by
    refine List.filter_eq_self.mpr ?_
    intro a ha
    obtain ⟨i, hi, rfl⟩ := List.getElem_of_mem ha
    simp
  unfold estimatedActions
  rw [List.filter_append, List.map_append, hall, List.map_zipWith]
  rfl

/-- Names that are spelled apart are different. -/
theorem planNames_nodup (hspelled : SpelledApart pool) (hvalid : Validated pool) :
    (planNames (planPattern pool) (planVmids pool)).Nodup := by
  rw [planNames_planVmids]
  have hle : (planVmids pool).length ≤ (planSize pool).toNat := by
    rw [length_planVmids]
    omega
  have hsize : planSize pool = max pool.desiredSize 0 := rfl
  refine List.Nodup.map_on ?_ List.nodup_range
  intro i hi j hj heq
  rw [List.mem_range] at hi hj
  have hapart : ∀ m n : ℕ, m < n → n < (planVmids pool).length →
      spell (planPattern pool) (m + 1) (planStart pool + m) ≠
        spell (planPattern pool) (n + 1) (planStart pool + n) := by
    intro m n hmn hn
    have hne := hspelled.spell_ne hvalid (i := m + 1) (j := n + 1) (by omega) (by omega) (by omega)
    have hm : planStart pool + (m + 1) - 1 = planStart pool + m := by omega
    have hn' : planStart pool + (n + 1) - 1 = planStart pool + n := by omega
    rwa [hm, hn'] at hne
  rcases lt_trichotomy i j with hij | hij | hij
  · exact absurd heq (hapart i j hij hj)
  · exact hij
  · exact absurd heq.symm (hapart j i hij hi)

/-- A plan that delivers has a range that suffices. -/
theorem Delivers.rangeSuffices (h : Delivers pool) : RangeSuffices pool := by
  intro hnone last hlast
  have hstart : planStart pool = 0 := by
    unfold planStart orElse
    rw [hnone]
  have hsize : planSize pool = max pool.desiredSize 0 := rfl
  have hcount : ((planVmids pool).length : ℤ) = max pool.desiredSize 0 := h.count
  by_cases hzero : last = 0
  · by_contra hgt
    have hmem : 1 ∈ planVmids pool := by
      rw [mem_planVmids]
      omega
    have hle := (h.range 1 hmem).2 last hlast
    omega
  · have hend : planEnd pool = last := by
      unfold planEnd orElse
      rw [hlast]
      exact if_neg hzero
    rw [length_planVmids] at hcount
    omega

/-- A plan that delivers spells no two positions alike. -/
theorem Delivers.spelledApart (h : Delivers pool) : SpelledApart pool := by
  intro i j hi hij hj _ heq
  have hcount : ((planVmids pool).length : ℤ) = max pool.desiredSize 0 := h.count
  have hnodup : (planNames (planPattern pool) (planVmids pool)).Nodup := h.names.2
  rw [planNames_planVmids] at hnodup
  have hinj := List.inj_on_of_nodup_map hnodup
  have hindex : ∀ k : ℤ, 1 ≤ k →
      (((k - 1).toNat : ℕ) : ℤ) + 1 = k ∧
        planStart pool + (((k - 1).toNat : ℕ) : ℤ) = planStart pool + k - 1 := by
    intro k hk
    omega
  obtain ⟨hi₁, hi₂⟩ := hindex i hi
  obtain ⟨hj₁, hj₂⟩ := hindex j (by omega)
  have hi₃ : (i - 1).toNat ∈ List.range (planVmids pool).length :=
    List.mem_range.mpr (by omega)
  have hj₃ : (j - 1).toNat ∈ List.range (planVmids pool).length :=
    List.mem_range.mpr (by omega)
  have hsame : (i - 1).toNat = (j - 1).toNat := by
    refine hinj hi₃ hj₃ ?_
    rw [hi₁, hi₂, hj₁, hj₂]
    exact heq
  omega

/-- A configuration without errors gets the plan that the checks promise exactly when its range
suffices and no two of its positions are spelled alike. -/
theorem plan_delivers_iff (pool : DesktopPool) (h : validatePoolConfig pool = []) :
    Delivers pool ↔ RangeSuffices pool ∧ SpelledApart pool := by
  have hvalid := validated_of_no_errors h
  constructor
  · exact fun hdelivers => ⟨hdelivers.rangeSuffices, hdelivers.spelledApart⟩
  · rintro ⟨hrange, hspelled⟩
    obtain ⟨hlong, hstart, hlast⟩ := hrange.bounds hvalid
    have hsize : planSize pool = max pool.desiredSize 0 := rfl
    have hlength := length_planVmids_of_le hlong
    refine ⟨?_, planVmids_nodup pool, ?_, ⟨length_planNames _ _, planNames_nodup hspelled hvalid⟩,
      create_actions _ _⟩
    · show ((planVmids pool).length : ℤ) = _
      omega
    · intro v hv
      obtain ⟨hle, hlt⟩ := mem_planVmids.mp hv
      constructor
      · intro start heq
        have := hstart start heq
        omega
      · intro last heq
        have := hlast last heq
        omega

/-- The promise for every configuration. -/
def PlansDeliver : Prop := ∀ pool, validatePoolConfig pool = [] → Delivers pool

namespace Fixture

/-- A pool with only the end of its range set. -/
def openPool : DesktopPool where
  id := 1
  name := "lab".toList
  poolType := "persistent".toList
  defaultProtocol := "SSH_WS".toList
  vmidEnd := some 2
  desiredSize := 5

/-- A pool with its range set. -/
def rangedPool : DesktopPool := { openPool with vmidStart := some 300, vmidEnd := some 305 }

set_option maxRecDepth 100000 in
/-- The pool of the fixture is delivered exactly when its range suffices and its names are spelled
apart. -/
theorem plan_delivers_iff_ranged : Delivers rangedPool ↔
    RangeSuffices rangedPool ∧ SpelledApart rangedPool :=
  plan_delivers_iff rangedPool (by decide +kernel)

set_option maxRecDepth 100000 in
/-- The pool that asks for five VMs gets three. -/
theorem plan_misses : ¬ PlansDeliver := by
  intro h
  have hrange := (h openPool (by decide +kernel)).rangeSuffices rfl 2 rfl
  exact absurd hrange (by decide)

end Fixture

end LabGoblin.Pools
