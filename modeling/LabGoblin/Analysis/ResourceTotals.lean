import LabGoblin.Model.ResourceStats
import Mathlib.Algebra.BigOperators.Group.List.Basic
import Mathlib.Data.List.Dedup

/-!
# The cluster statistics conserve resources

The loop over the virtual machines moves the totals, the counters of a node and the warnings
side by side. After every row each of them is the number of the rows seen so far that it is about.
The warnings are made into a set at the end, so one warning stands for all machines of a node
that nobody reported.
-/

set_option autoImplicit false

namespace LabGoblin.ResourceStats

/-- The counter of an outcome. -/
def Totals.countOf : Outcome → Totals → ℕ
  | .template, t => t.templates
  | .vm .running, t => t.runningVms
  | .vm .stopped, t => t.stoppedVms
  | .vm .paused, t => t.pausedVms
  | .vm .unknown, t => t.unknownVms

/-- The counter of an outcome at a node. -/
def NodeStats.countOf : Outcome → NodeStats → ℕ
  | .template, n => n.templateCount
  | .vm .running, n => n.runningVmCount
  | .vm .stopped, n => n.stoppedVmCount
  | .vm .paused, n => n.pausedVmCount
  | .vm .unknown, n => n.unknownVmCount

def Totals.vmSum (t : Totals) : ℕ := t.runningVms + t.stoppedVms + t.pausedVms + t.unknownVms

def NodeStats.vmSum (n : NodeStats) : ℕ :=
  n.runningVmCount + n.stoppedVmCount + n.pausedVmCount + n.unknownVmCount

/-- Counting an outcome adds one to its counter in the totals. -/
theorem Totals.countOf_count (t : Totals) (o o' : Outcome) :
    (t.count o).countOf o' = t.countOf o' + if o = o' then 1 else 0 := by
  cases o with
  | template => cases o' with
    | template => rfl
    | vm c' => cases c' <;> rfl
  | vm c => cases o' with
    | template => cases c <;> rfl
    | vm c' => cases c <;> cases c' <;> rfl

/-- Counting an outcome adds one to its counter at the node. -/
theorem NodeStats.countOf_count (n : NodeStats) (o o' : Outcome) :
    (n.count o).countOf o' = n.countOf o' + if o = o' then 1 else 0 := by
  cases o with
  | template => cases o' with
    | template => rfl
    | vm c' => cases c' <;> rfl
  | vm c => cases o' with
    | template => cases c <;> rfl
    | vm c' => cases c <;> cases c' <;> rfl

/-- Counting keeps the total equal to the sum of the statuses. -/
theorem Totals.totalVms_count {t : Totals} (h : t.totalVms = t.vmSum) (o : Outcome) :
    (t.count o).totalVms = (t.count o).vmSum := by
  unfold Totals.vmSum at h ⊢
  cases o with
  | template => exact h
  | vm c => cases c <;> simp only [Totals.count] <;> omega

/-- Counting at a node keeps its number equal to the sum of the statuses. -/
theorem NodeStats.vmCount_count {n : NodeStats} (h : n.vmCount = n.vmSum) (o : Outcome) :
    (n.count o).vmCount = (n.count o).vmSum := by
  unfold NodeStats.vmSum at h ⊢
  cases o with
  | template => exact h
  | vm c => cases c <;> simp only [NodeStats.count] <;> omega

/-! ## The node rows -/

/-- A node is in the map when an entry has its name. -/
theorem NodeMap.contains_iff {nodes : NodeMap} {name : String} :
    nodes.contains name = true ↔ name ∈ nodes.entries.map NodeStats.name := by
  simp [NodeMap.contains, List.any_eq_true]

/-- An entry that no machine was counted at. -/
structure NodeStats.Fresh (n : NodeStats) : Prop where
  counters : ∀ o, n.countOf o = 0
  vms : n.vmCount = 0

/-- The entry of a node row has counted nothing yet. -/
theorem NodeStats.fresh_ofResource (name : String) (r : Resource) :
    (NodeStats.ofResource name r).Fresh := by
  refine ⟨fun o => ?_, rfl⟩
  cases o with
  | template => rfl
  | vm c => cases c <;> rfl

/-- After an insertion the entries are the new one and old ones. -/
theorem NodeMap.mem_insert {nodes : NodeMap} {entry n : NodeStats}
    (h : n ∈ (nodes.insert entry).entries) : n = entry ∨ n ∈ nodes.entries := by
  unfold NodeMap.insert at h
  split at h
  · obtain ⟨m, hm, hn⟩ := List.mem_map.mp h
    by_cases hname : m.name = entry.name
    · left
      simpa [hname] using hn.symm
    · right
      have hmn : m = n := by simpa [hname] using hn
      exact hmn ▸ hm
  · rcases List.mem_append.mp h with hold | hnew
    · exact .inr hold
    · exact .inl (List.mem_singleton.mp hnew)

/-- After an insertion the nodes are the old ones and the new one. -/
theorem NodeMap.contains_insert {nodes : NodeMap} {entry : NodeStats} {name : String} :
    (nodes.insert entry).contains name = true ↔
      name = entry.name ∨ nodes.contains name = true := by
  simp only [NodeMap.contains_iff]
  unfold NodeMap.insert
  split
  · rename_i hin
    rw [map_name_changed fun _ _ => rfl]
    constructor
    · intro h
      exact .inr h
    · rintro (rfl | h)
      · exact contains_iff.mp hin
      · exact h
  · simp [or_comm]

/-- The nodes that rows report, with the entries that they make. -/
theorem collectNodes_spec (rows : List Resource) (nodes : NodeMap)
    (hfresh : ∀ n ∈ nodes.entries, n.Fresh) :
    (∀ n ∈ (collectNodes nodes rows).entries, n.Fresh) ∧
      ∀ name, (collectNodes nodes rows).contains name = true ↔
        nodes.contains name = true ∨ ∃ r ∈ rows, nonempty r.node = some name := by
  induction rows generalizing nodes with
  | nil => exact ⟨hfresh, fun name => by simp [collectNodes]⟩
  | cons r rows ih =>
    cases hnode : nonempty r.node with
    | none =>
      have heq : collectNodes nodes (r :: rows) = collectNodes nodes rows := by
        simp only [collectNodes, hnode]
      rw [heq]
      refine ⟨(ih nodes hfresh).1, fun name => ?_⟩
      rw [(ih nodes hfresh).2 name]
      simp [hnode]
    | some key =>
      have heq : collectNodes nodes (r :: rows) =
          collectNodes (nodes.insert (NodeStats.ofResource key r)) rows := by
        simp only [collectNodes, hnode]
      have hinsert : ∀ n ∈ (nodes.insert (NodeStats.ofResource key r)).entries, n.Fresh := by
        intro n hn
        rcases NodeMap.mem_insert hn with rfl | hold
        · exact NodeStats.fresh_ofResource key r
        · exact hfresh n hold
      rw [heq]
      refine ⟨(ih _ hinsert).1, fun name => ?_⟩
      rw [(ih _ hinsert).2 name, NodeMap.contains_insert]
      have hname : (NodeStats.ofResource key r).name = key := rfl
      rw [hname]
      simp only [List.mem_cons, exists_eq_or_imp, hnode, Option.some.injEq]
      constructor
      · rintro ((rfl | h) | h)
        · exact .inr (.inl rfl)
        · exact .inl h
        · exact .inr (.inr h)
      · rintro (h | (rfl | h))
        · exact .inl (.inr h)
        · exact .inl (.inl rfl)
        · exact .inr h

/-! ## The loop over the machines -/

/-- The number of the machines on a node that have an outcome. -/
def countAt (vms : List Resource) (name : String) (o : Outcome) : ℕ :=
  vms.countP fun vm => vm.node = some name && outcome vm = o

/-- The number of the machines with an outcome that are on a node of a map. -/
def countKnown (nodes : NodeMap) (vms : List Resource) (o : Outcome) : ℕ :=
  vms.countP fun vm => vm.node.any nodes.contains && outcome vm = o

/-- After the rows `seen`, the counters are the numbers of the rows that they are about. -/
structure Balanced (nodes : NodeMap) (seen : List Resource) (t : Tally) : Prop where
  names : t.nodes.entries.map NodeStats.name = nodes.entries.map NodeStats.name
  node : ∀ n ∈ t.nodes.entries, ∀ o, n.countOf o = countAt seen n.name o
  nodeVms : ∀ n ∈ t.nodes.entries, n.vmCount = n.vmSum
  total : ∀ o, t.totals.countOf o = countKnown nodes seen o
  totalVms : t.totals.totalVms = t.totals.vmSum
  warnings : t.warnings =
    (seen.filter fun vm => !vm.node.any nodes.contains).map fun vm => unknownNode vm.node

/-- Maps with the same names contain the same nodes. -/
theorem contains_congr {nodes nodes' : NodeMap}
    (h : nodes'.entries.map NodeStats.name = nodes.entries.map NodeStats.name) (name : String) :
    nodes'.contains name = nodes.contains name := by
  rw [Bool.eq_iff_iff, NodeMap.contains_iff, NodeMap.contains_iff, h]

/-- Before the first row all counters are zero. -/
theorem Balanced.start {nodes : NodeMap} (hfresh : ∀ n ∈ nodes.entries, n.Fresh) :
    Balanced nodes [] ⟨nodes, {}, []⟩ where
  names := rfl
  node := fun n hn o => (hfresh n hn).counters o
  nodeVms := by
    intro n hn
    have hvms := (hfresh n hn).vms
    have hrunning := (hfresh n hn).counters (.vm .running)
    have hstopped := (hfresh n hn).counters (.vm .stopped)
    have hpaused := (hfresh n hn).counters (.vm .paused)
    have hunknown := (hfresh n hn).counters (.vm .unknown)
    simp only [NodeStats.countOf] at hrunning hstopped hpaused hunknown
    simp only [NodeStats.vmSum]
    omega
  total := by
    intro o
    cases o with
    | template => rfl
    | vm c => cases c <;> rfl
  totalVms := rfl
  warnings := rfl

/-- A machine on an unknown node makes a warning and is counted nowhere. -/
theorem Balanced.lost {nodes : NodeMap} {seen : List Resource} {t : Tally} {vm : Resource}
    (h : Balanced nodes seen t) (hlost : vm.node.any nodes.contains = false) :
    Balanced nodes (seen ++ [vm]) { t with warnings := t.warnings ++ [unknownNode vm.node] } where
  names := h.names
  node := by
    intro n hn o
    have hother : vm.node ≠ some n.name := by
      intro hnode
      have hmem : n.name ∈ nodes.entries.map NodeStats.name :=
        h.names ▸ List.mem_map_of_mem hn
      rw [hnode, Option.any_some, NodeMap.contains_iff.mpr hmem] at hlost
      cases hlost
    have hnone : [vm].countP (fun vm => vm.node = some n.name && outcome vm = o) = 0 := by
      simp [hother]
    rw [h.node n hn o, countAt, countAt, List.countP_append, hnone, Nat.add_zero]
  nodeVms := h.nodeVms
  total := by
    intro o
    have hnone : [vm].countP (fun vm => vm.node.any nodes.contains && outcome vm = o) = 0 := by
      simp [hlost]
    rw [h.total o, countKnown, countKnown, List.countP_append, hnone, Nat.add_zero]
  totalVms := h.totalVms
  warnings := by
    rw [h.warnings, List.filter_append, List.map_append]
    simp [hlost]

/-- A machine on a known node is counted at the node and in the totals. -/
theorem Balanced.counted {nodes : NodeMap} {seen : List Resource} {t : Tally} {vm : Resource}
    {name : String} (h : Balanced nodes seen t) (hnode : vm.node = some name)
    (hknown : nodes.contains name = true) :
    Balanced nodes (seen ++ [vm])
      { t with
        nodes := t.nodes.update name (NodeStats.count (outcome vm)) (NodeStats.count_name _)
        totals := t.totals.count (outcome vm) } where
  names := by
    have hnames : (t.nodes.update name (NodeStats.count (outcome vm))
        (NodeStats.count_name _)).entries.map NodeStats.name = t.nodes.entries.map NodeStats.name :=
      NodeMap.map_name_changed (fun n hn => (NodeStats.count_name _ n).trans hn) _
    exact hnames.trans h.names
  node := by
    intro n hn o
    obtain ⟨m, hm, hmn⟩ := List.mem_map.mp hn
    have hold := h.node m hm o
    rw [countAt, List.countP_append, ← countAt, List.countP_singleton]
    by_cases hname : m.name = name
    · rw [if_pos hname] at hmn
      have hn' : n.name = m.name := hmn ▸ NodeStats.count_name _ m
      rw [← hmn, NodeStats.countOf_count, hold, NodeStats.count_name]
      simp [hnode, hname]
    · rw [if_neg hname] at hmn
      subst hmn
      have hother : ¬some name = some m.name := by
        intro hsome
        exact hname (Option.some.inj hsome).symm
      rw [hold]
      simp [hnode, Ne.symm hname]
  nodeVms := by
    intro n hn
    obtain ⟨m, hm, hmn⟩ := List.mem_map.mp hn
    by_cases hname : m.name = name
    · rw [if_pos hname] at hmn
      exact hmn ▸ NodeStats.vmCount_count (h.nodeVms m hm) (outcome vm)
    · rw [if_neg hname] at hmn
      exact hmn ▸ h.nodeVms m hm
  total := by
    intro o
    rw [Totals.countOf_count, h.total o, countKnown, countKnown, List.countP_append,
      List.countP_singleton]
    simp [hnode, hknown]
  totalVms := Totals.totalVms_count h.totalVms (outcome vm)
  warnings := by
    rw [h.warnings, List.filter_append, List.map_append]
    simp [hnode, hknown]

/-- One turn of the loop. -/
theorem Balanced.add {nodes : NodeMap} {seen : List Resource} {t : Tally}
    (h : Balanced nodes seen t) (vm : Resource) : Balanced nodes (seen ++ [vm]) (t.add vm) := by
  have hcontains := contains_congr h.names
  unfold Tally.add
  split
  · rename_i hfilter
    refine h.lost ?_
    cases hnode : vm.node with
    | none => rfl
    | some name =>
      rw [hnode, Option.filter_eq_none_iff] at hfilter
      have hnot := hfilter name rfl
      rw [hcontains] at hnot
      simpa using hnot
  · rename_i name hfilter
    obtain ⟨hnode, hin⟩ := Option.filter_eq_some_iff.mp hfilter
    rw [hcontains] at hin
    exact h.counted hnode hin

/-- The whole loop. -/
theorem Balanced.foldl {nodes : NodeMap} (vms seen : List Resource) {t : Tally}
    (h : Balanced nodes seen t) : Balanced nodes (seen ++ vms) (vms.foldl Tally.add t) := by
  induction vms generalizing seen t with
  | nil => simpa using h
  | cons vm vms ih =>
    have hstep := ih (seen ++ [vm]) (h.add vm)
    rwa [List.append_assoc, List.singleton_append] at hstep

/-! ## Sums over the nodes -/

/-- The machines of known nodes, counted node by node. -/
theorem sum_countAt {names : List String} (hnodup : names.Nodup) (vms : List Resource)
    (o : Outcome) : (names.map fun name => countAt vms name o).sum =
      vms.countP fun vm => vm.node.any (· ∈ names) && outcome vm = o := by
  induction names with
  | nil => simp
  | cons name names ih =>
    obtain ⟨hnot, hrest⟩ := List.nodup_cons.mp hnodup
    rw [List.map_cons, List.sum_cons, ih hrest, countAt]
    clear ih
    induction vms with
    | nil => rfl
    | cons vm vms ih =>
      simp only [List.countP_cons]
      have hvm : (if (vm.node = some name && outcome vm = o : Bool) then 1 else 0) +
          (if (vm.node.any (· ∈ names) && outcome vm = o : Bool) then 1 else 0) =
            if (vm.node.any (· ∈ name :: names) && outcome vm = o : Bool) then 1 else 0 := by
        cases hnode : vm.node with
        | none => simp
        | some key =>
          by_cases hkey : key = name
          · subst hkey
            simp [hnot]
          · simp [hkey]
      omega

/-- The machines of all nodes are the sum over the statuses. -/
theorem sum_vmSum (nodes : List NodeStats) : (nodes.map NodeStats.vmSum).sum =
    (nodes.map (NodeStats.countOf (.vm .running))).sum +
      (nodes.map (NodeStats.countOf (.vm .stopped))).sum +
      (nodes.map (NodeStats.countOf (.vm .paused))).sum +
      (nodes.map (NodeStats.countOf (.vm .unknown))).sum := by
  induction nodes with
  | nil => rfl
  | cons n nodes ih =>
    simp only [List.map_cons, List.sum_cons, ih, NodeStats.vmSum, NodeStats.countOf]
    omega

/-- A machine is on a node that is not known, or it has one of the outcomes. -/
theorem length_eq_countKnown (nodes : NodeMap) (vms : List Resource) :
    vms.length = countKnown nodes vms .template + (countKnown nodes vms (.vm .running) +
      countKnown nodes vms (.vm .stopped) + countKnown nodes vms (.vm .paused) +
      countKnown nodes vms (.vm .unknown)) +
      vms.countP fun vm => !vm.node.any nodes.contains := by
  unfold countKnown
  induction vms with
  | nil => rfl
  | cons vm vms ih =>
    simp only [List.countP_cons, List.length_cons]
    cases hknown : vm.node.any nodes.contains with
    | false =>
      simp only [Bool.false_and, Bool.not_false, Bool.false_eq_true, if_true, if_false]
      omega
    | true =>
      cases ho : outcome vm with
      | template => simp; omega
      | vm c => cases c <;> simp <;> omega

/-! ## The statistics -/

/-- The rows of the virtual machines. -/
def vmRows (resources : List Resource) : List Resource :=
  resources.filter fun r => r.type = some "qemu"

/-- Whether a node row reports the node of a machine. -/
def onKnownNode (resources : List Resource) (vm : Resource) : Bool :=
  vm.node.any fun name =>
    resources.any fun r => r.type = some "node" && nonempty r.node = some name

/-- Every virtual machine is counted as a template, in the status that it has, or as a warning. -/
def CountedOnce (resources : List Resource) (stats : Stats) : Prop :=
  (vmRows resources).length =
    stats.summary.totals.templates + stats.summary.totals.totalVms + stats.warnings.length

/-- Every virtual machine is counted at its node and in the totals, as a template or in the
status that it has, or is on a node that no row reports, which a warning names. -/
structure Conserved (resources : List Resource) (stats : Stats) : Prop where
  all : (vmRows resources).length = stats.summary.totals.templates +
    stats.summary.totals.totalVms + (vmRows resources).countP fun vm => !onKnownNode resources vm
  total : ∀ o, stats.summary.totals.countOf o =
    (vmRows resources).countP fun vm => onKnownNode resources vm && outcome vm = o
  totalVms : stats.summary.totals.totalVms = stats.summary.totals.vmSum
  names : (stats.nodes.map NodeStats.name).Nodup
  node : ∀ n ∈ stats.nodes, ∀ o, n.countOf o =
    (vmRows resources).countP fun vm => vm.node = some n.name && outcome vm = o
  sums : ∀ o, stats.summary.totals.countOf o = (stats.nodes.map (NodeStats.countOf o)).sum
  sumVms : stats.summary.totals.totalVms = (stats.nodes.map NodeStats.vmCount).sum
  warned : ∀ w, w ∈ stats.warnings ↔
    ∃ vm ∈ vmRows resources, onKnownNode resources vm = false ∧ w = unknownNode vm.node
  once : stats.warnings.Nodup

/-- The statistics that a tally is made into. -/
def Tally.stats (t : Tally) : Stats :=
  let nodes := t.nodes.entries.mergeSort fun a b => a.name ≤ b.name
  ⟨summary nodes t.totals, nodes, t.warnings.dedup.mergeSort fun a b => a ≤ b⟩

/-- The counters of the nodes add up to the total. -/
theorem Balanced.sum_countOf {nodes : NodeMap} {seen : List Resource} {t : Tally}
    (h : Balanced nodes seen t) (o : Outcome) :
    (t.nodes.entries.map (NodeStats.countOf o)).sum = t.totals.countOf o := by
  have heach : t.nodes.entries.map (NodeStats.countOf o) =
      (t.nodes.entries.map NodeStats.name).map fun name => countAt seen name o := by
    rw [List.map_map]
    exact List.map_congr_left fun n hn => h.node n hn o
  rw [heach, sum_countAt t.nodes.distinct, h.total o, countKnown]
  apply List.countP_congr
  intro vm _
  have hsame : vm.node.any (· ∈ t.nodes.entries.map NodeStats.name) =
      vm.node.any nodes.contains := by
    cases vm.node with
    | none => rfl
    | some name =>
      rw [Option.any_some, Option.any_some, h.names, Bool.eq_iff_iff, NodeMap.contains_iff,
        decide_eq_true_iff]
  rw [hsame]

/-- The numbers of the nodes add up to the total. -/
theorem Balanced.sum_vmCount {nodes : NodeMap} {seen : List Resource} {t : Tally}
    (h : Balanced nodes seen t) :
    (t.nodes.entries.map NodeStats.vmCount).sum = t.totals.totalVms := by
  have heach : t.nodes.entries.map NodeStats.vmCount = t.nodes.entries.map NodeStats.vmSum :=
    List.map_congr_left h.nodeVms
  have hrunning := h.sum_countOf (.vm .running)
  have hstopped := h.sum_countOf (.vm .stopped)
  have hpaused := h.sum_countOf (.vm .paused)
  have hunknown := h.sum_countOf (.vm .unknown)
  have htotal := h.totalVms
  simp only [Totals.countOf] at hrunning hstopped hpaused hunknown
  rw [heach, sum_vmSum, hrunning, hstopped, hpaused, hunknown, htotal, Totals.vmSum]

/-- The tally that the statistics are made from. -/
theorem collect_eq_stats (resources : List Resource) :
    ∃ nodes t, collect resources = Tally.stats t ∧ Balanced nodes (vmRows resources) t ∧
      ∀ vm : Resource, vm.node.any nodes.contains = onKnownNode resources vm := by
  have hstart := collectNodes_spec (resources.filter fun r => r.type = some "node") .empty
    (fun n hn => by cases hn)
  obtain ⟨hfresh, hcontains⟩ := hstart
  refine ⟨_, _, rfl, (Balanced.start hfresh).foldl (vmRows resources) [], fun vm => ?_⟩
  unfold onKnownNode
  cases vm.node with
  | none => rfl
  | some name =>
    rw [Option.any_some, Option.any_some, Bool.eq_iff_iff, hcontains name]
    have hempty : NodeMap.empty.contains name = false := rfl
    simp [hempty, and_assoc]

/-- A balanced tally is made into statistics that conserve the resources. -/
theorem Balanced.conserved {nodes : NodeMap} {resources : List Resource} {t : Tally}
    (h : Balanced nodes (vmRows resources) t)
    (hknown : ∀ vm : Resource, vm.node.any nodes.contains = onKnownNode resources vm) :
    Conserved resources t.stats where
  all := by
    have hlength := length_eq_countKnown nodes (vmRows resources)
    simp only [hknown] at hlength
    have htotal := h.totalVms
    have htemplate := h.total .template
    have hrunning := h.total (.vm .running)
    have hstopped := h.total (.vm .stopped)
    have hpaused := h.total (.vm .paused)
    have hunknown := h.total (.vm .unknown)
    simp only [Totals.countOf] at htemplate hrunning hstopped hpaused hunknown
    simp only [Totals.vmSum] at htotal
    change _ = t.totals.templates + t.totals.totalVms + _
    omega
  total := by
    intro o
    have htotal := h.total o
    simp only [countKnown, hknown] at htotal
    exact htotal
  totalVms := h.totalVms
  names := by
    have hperm := (List.mergeSort_perm t.nodes.entries fun a b => a.name ≤ b.name).map
      NodeStats.name
    exact hperm.nodup_iff.mpr t.nodes.distinct
  node := by
    intro n hn o
    exact h.node n (List.mem_mergeSort.mp hn) o
  sums := by
    intro o
    have hperm := (List.mergeSort_perm t.nodes.entries fun a b => a.name ≤ b.name).map
      (NodeStats.countOf o)
    exact (h.sum_countOf o).symm.trans hperm.sum_eq.symm
  sumVms := by
    have hperm := (List.mergeSort_perm t.nodes.entries fun a b => a.name ≤ b.name).map
      NodeStats.vmCount
    exact h.sum_vmCount.symm.trans hperm.sum_eq.symm
  warned := by
    intro w
    have hmem : w ∈ t.stats.warnings ↔ w ∈ t.warnings := by
      simp [Tally.stats]
    rw [hmem, h.warnings, List.mem_map]
    constructor
    · rintro ⟨vm, hvm, hw⟩
      obtain ⟨hrow, hlost⟩ := List.mem_filter.mp hvm
      rw [hknown] at hlost
      exact ⟨vm, hrow, by simpa using hlost, hw.symm⟩
    · rintro ⟨vm, hrow, hlost, hw⟩
      refine ⟨vm, List.mem_filter.mpr ⟨hrow, ?_⟩, hw.symm⟩
      rw [hknown, hlost]
      rfl
  once := (List.mergeSort_perm _ _).nodup_iff.mpr (List.nodup_dedup _)

/-- Every list of resources is conserved. -/
theorem collect_conserved (resources : List Resource) :
    Conserved resources (collect resources) := by
  obtain ⟨nodes, t, hstats, hbalanced, hknown⟩ := collect_eq_stats resources
  rw [hstats]
  exact hbalanced.conserved hknown

namespace Fixture

/-- A machine on a node that no row reports. -/
def stray : Resource := { type := some "qemu", node := some "pve9", status := some "running" }

/-- Two machines on one lost node are one warning. -/
theorem stray_machines_not_counted : ¬CountedOnce [stray, stray] (collect [stray, stray]) := by
  intro h
  have hwarnings : (collect [stray, stray]).warnings.length = 1 := by
    have hdedup : (collect [stray, stray]).warnings =
        [unknownNode (some "pve9")].mergeSort fun a b => a ≤ b := rfl
    rw [hdedup, List.length_mergeSort]
    rfl
  rw [CountedOnce, hwarnings] at h
  exact absurd h (by decide)

end Fixture

end LabGoblin.ResourceStats
