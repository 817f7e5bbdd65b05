import LabGoblin.Model.Placement

/-!
# The choice of a node

What `choose_cluster_node` chooses: who can be chosen at all, when the default node is, and that
the balance takes a node with the least key, whatever the order of the list. A key holds doubles, so
it ranks nodes by their rounded figures. Whole numbers that are not too large are ranked exactly.
-/

set_option autoImplicit false

namespace LabGoblin.Placement

variable {nodes online : List Node} {counts : String → Option ℤ} {placementPolicy : Option Text}
  {policy : Text} {defaultNode : Option String} {allowedNodes : Option (List String)}

/-! ## The least key -/

/-- The scored nodes are the nodes, in an order of their scores. -/
theorem mem_scored {n : Node} : n ∈ scored counts online ↔ n ∈ online :=
  List.mem_insertionSort _

/-- The first of the sorted nodes is one of the nodes, and none has a smaller key. -/
theorem scored_head {n : Node} {rest : List Node} (h : scored counts online = n :: rest) :
    n ∈ online ∧ ∀ m ∈ online, key counts n ≤ key counts m := by
  have hn : n ∈ scored counts online := by simp [h]
  refine ⟨mem_scored.mp hn, ?_⟩
  intro m hm
  have hsorted : (scored counts online).Pairwise fun a b => key counts a ≤ key counts b :=
    List.pairwise_insertionSort _ _
  have hm : m ∈ n :: rest := by
    rw [← h]
    exact mem_scored.mpr hm
  rw [h] at hsorted
  cases List.mem_cons.mp hm with
  | inl heq => rw [heq]
  | inr hrest => exact (List.pairwise_cons.mp hsorted).1 m hrest

/-- A key tells the name of its node. -/
theorem name_of_key {m n : Node} (h : key counts m = key counts n) : m.name = n.name := by
  unfold key score at h
  simp only [EmbeddingLike.apply_eq_iff_eq, Prod.mk.injEq] at h
  exact h.2.2.2

/-- By these figures `m` has strictly more free memory than `n`, or as much and a strictly lower CPU
ratio, or the same of both and strictly fewer running VMs. -/
def Outranks {α β : Type} [LT α] [LT β] (memory : Node → α) (load : Node → β)
    (counts : String → Option ℤ) (m n : Node) : Prop :=
  memory n < memory m ∨ memory m = memory n ∧ (load m < load n ∨
    load m = load n ∧ runningCount counts m < runningCount counts n)

/-- A node that outranks another by the doubles that the code computes has a smaller key. -/
theorem Outranks.key_lt {m n : Node} (h : Outranks Node.memFree Node.cpuRatio counts m n) :
    key counts m < key counts n := by
  unfold key score
  rw [Prod.Lex.toLex_lt_toLex]
  cases h with
  | inl hmem =>
    apply Or.inl
    exact OrderDual.toDual_lt_toDual.mpr hmem
  | inr h =>
    refine Or.inr ⟨congrArg OrderDual.toDual h.1, ?_⟩
    rw [Prod.Lex.toLex_lt_toLex]
    cases h.2 with
    | inl hcpu => exact Or.inl hcpu
    | inr h =>
      refine Or.inr ⟨h.1, ?_⟩
      rw [Prod.Lex.toLex_lt_toLex]
      exact Or.inl h.2

/-- The balance chooses a node of the name: one of the candidates has it, and no candidate has a
smaller key. -/
def WinsBalance (counts : String → Option ℤ) (candidate : Node → Prop) (name : String) : Prop :=
  ∃ n, candidate n ∧ n.name = name ∧ ∀ m, candidate m → key counts n ≤ key counts m

section Balance

variable {candidate : Node → Prop}

/-- Two names cannot both win. -/
theorem WinsBalance.unique {a b : String} (ha : WinsBalance counts candidate a)
    (hb : WinsBalance counts candidate b) : a = b := by
  obtain ⟨m, hm, hma, hmin⟩ := ha
  obtain ⟨n, hn, hnb, hnin⟩ := hb
  have hkey : key counts m = key counts n := le_antisymm (hmin n hn) (hnin m hm)
  calc a = m.name := hma.symm
    _ = n.name := name_of_key hkey
    _ = b := hnb

/-- The winner of the balance is outranked by no rival. -/
theorem WinsBalance.best {name : String} (h : WinsBalance counts candidate name) :
    ∃ n, candidate n ∧ n.name = name ∧
      ∀ m, candidate m → ¬ Outranks Node.memFree Node.cpuRatio counts m n := by
  obtain ⟨n, hn, hname, hmin⟩ := h
  refine ⟨n, hn, hname, ?_⟩
  intro m hm hbetter
  have hle : key counts n ≤ key counts m := hmin m hm
  have hlt : key counts m < key counts n := hbetter.key_lt
  exact absurd hlt (not_lt.mpr hle)

/-- The winner is the same among the same candidates. -/
theorem WinsBalance.congr {candidate' : Node → Prop} {name : String}
    (hsame : ∀ n, candidate n ↔ candidate' n) (h : WinsBalance counts candidate name) :
    WinsBalance counts candidate' name := by
  obtain ⟨n, hn, hname, hmin⟩ := h
  refine ⟨n, (hsame n).mp hn, hname, ?_⟩
  intro m hm
  exact hmin m ((hsame m).mpr hm)

end Balance

/-- Where there are candidates, the balance has a winner, and it is chosen. -/
theorem chooseBalanced_eq (counts : String → Option ℤ) (hne : online ≠ []) (policy : Text) :
    ∃ name, WinsBalance counts (· ∈ online) name ∧
      chooseBalanced online counts policy = .ok {
        selectedNode := name
        reason := "balanced selection based on memory/cpu/running-vm load"
        policy := policy
        candidateCount := some online.length } := by
  unfold chooseBalanced
  cases h : scored counts online with
  | nil =>
    have hlength : (scored counts online).length = online.length := List.length_insertionSort _ _
    rw [h] at hlength
    exact absurd (List.length_eq_zero_iff.mp hlength.symm) hne
  | cons n rest =>
    have hhead := scored_head h
    exact ⟨n.name, ⟨n, hhead.1, rfl, hhead.2⟩, rfl⟩

/-! ## Who can be chosen -/

/-- A node that can be chosen: it is online, and allowed where only some nodes are. -/
structure Candidate (nodes : List Node) (allowedNodes : Option (List String)) (n : Node) :
    Prop where
  mem : n ∈ nodes
  online : isOnline n = true
  allowed : ∀ allowed, allowedNodes = some allowed → ∃ name ∈ allowed, n.nodeName = some name

/-- The online nodes are the ones that can be chosen. -/
theorem mem_onlineNodes {n : Node} :
    n ∈ onlineNodes nodes allowedNodes ↔ Candidate nodes allowedNodes n := by
  unfold onlineNodes
  cases allowedNodes with
  | none =>
    dsimp only
    rw [List.mem_filter]
    exact ⟨fun ⟨hmem, honline⟩ => ⟨hmem, honline, nofun⟩, fun h => ⟨h.mem, h.online⟩⟩
  | some allowed =>
    dsimp only
    rw [List.mem_filter, List.mem_filter]
    constructor
    · rintro ⟨⟨hmem, honline⟩, hallowed⟩
      obtain ⟨name, hname, hcontains⟩ := Option.any_eq_true _ _ |>.mp hallowed
      refine ⟨hmem, honline, ?_⟩
      rintro _ ⟨⟩
      exact ⟨name, List.contains_iff_mem.mp hcontains, hname⟩
    · intro h
      obtain ⟨name, hname, heq⟩ := h.allowed allowed rfl
      refine ⟨⟨h.mem, h.online⟩, ?_⟩
      rw [heq]
      exact List.contains_iff_mem.mpr hname

/-- A node is a candidate when an online node has its name. -/
theorem isCandidate_iff {name : String} :
    isCandidate online name = true ↔ ∃ n ∈ online, n.nodeName = some name := by
  unfold isCandidate
  rw [List.any_eq_true]
  simp

/-- The order of the nodes does not matter for which are online. -/
theorem onlineNodes_perm {nodes' : List Node} (allowedNodes : Option (List String))
    (h : nodes.Perm nodes') :
    (onlineNodes nodes allowedNodes).Perm (onlineNodes nodes' allowedNodes) := by
  unfold onlineNodes
  cases allowedNodes with
  | none => exact h.filter _
  | some allowed => exact (h.filter _).filter _

/-- The order of the nodes does not matter for which are candidates. -/
theorem isCandidate_perm {online' : List Node} (h : online.Perm online') (name : String) :
    isCandidate online name = isCandidate online' name := by
  rw [Bool.eq_iff_iff, isCandidate_iff, isCandidate_iff]
  constructor
  · rintro ⟨n, hn, hname⟩
    exact ⟨n, h.mem_iff.mp hn, hname⟩
  · rintro ⟨n, hn, hname⟩
    exact ⟨n, h.mem_iff.mpr hn, hname⟩

/-- The order of the nodes does not matter for the choice by score. -/
theorem chooseBalanced_perm {online' : List Node} (h : online.Perm online') (policy : Text) :
    chooseBalanced online counts policy = chooseBalanced online' counts policy := by
  by_cases hempty : online = []
  · rw [hempty] at h ⊢
    rw [List.nil_perm.mp h]
  · have hempty' : online' ≠ [] := by
      intro heq
      rw [heq] at h
      exact hempty (List.perm_nil.mp h)
    obtain ⟨a, hwins, heq⟩ := chooseBalanced_eq counts hempty policy
    obtain ⟨b, hwins', heq'⟩ := chooseBalanced_eq counts hempty' policy
    rw [heq, heq', (hwins.congr fun _ => h.mem_iff).unique hwins', h.length_eq]

/-! ## The decision -/

/-- What `choose_cluster_node` does, branch by branch. -/
theorem chooseClusterNode_cases (nodes : List Node) (counts : String → Option ℤ)
    (placementPolicy : Option Text) (defaultNode : Option String)
    (allowedNodes : Option (List String)) :
    (onlineNodes nodes allowedNodes = [] ∧ ∃ message,
        chooseClusterNode nodes counts placementPolicy defaultNode allowedNodes = .error message) ∨
      (effectivePolicy placementPolicy defaultNode = manual ∧
        (∀ d, nonblank defaultNode = some d →
          isCandidate (onlineNodes nodes allowedNodes) d = false) ∧
        ∃ message, chooseClusterNode nodes counts placementPolicy defaultNode allowedNodes =
          .error message) ∨
      (∃ d reason, nonblank defaultNode = some d ∧
        isCandidate (onlineNodes nodes allowedNodes) d = true ∧
        (effectivePolicy placementPolicy defaultNode = manual ∨
          effectivePolicy placementPolicy defaultNode = preferDefaultThenBalance) ∧
        chooseClusterNode nodes counts placementPolicy defaultNode allowedNodes =
          .ok ⟨d, reason, effectivePolicy placementPolicy defaultNode, none⟩) ∨
      (onlineNodes nodes allowedNodes ≠ [] ∧
        effectivePolicy placementPolicy defaultNode ≠ manual ∧
        (∀ d, nonblank defaultNode = some d →
          effectivePolicy placementPolicy defaultNode = preferDefaultThenBalance →
          isCandidate (onlineNodes nodes allowedNodes) d = false) ∧
        chooseClusterNode nodes counts placementPolicy defaultNode allowedNodes =
          chooseBalanced (onlineNodes nodes allowedNodes) counts
            (effectivePolicy placementPolicy defaultNode)) := by
  unfold chooseClusterNode
  generalize effectivePolicy placementPolicy defaultNode = policy
  generalize onlineNodes nodes allowedNodes = online
  dsimp only
  by_cases hempty : online.isEmpty = true
  · rw [if_pos hempty]
    exact Or.inl ⟨List.isEmpty_iff.mp hempty, _, rfl⟩
  · rw [if_neg hempty]
    have hne : online ≠ [] := fun h => hempty (List.isEmpty_iff.mpr h)
    by_cases hmanual : policy = manual
    · rw [if_pos hmanual]
      cases hdefault : nonblank defaultNode with
      | none => exact Or.inr (Or.inl ⟨hmanual, by simp, _, rfl⟩)
      | some d =>
        dsimp only
        cases hd : isCandidate online d with
        | false =>
          refine Or.inr (Or.inl ⟨hmanual, ?_, _, rfl⟩)
          intro d' hd'
          cases hd'
          exact hd
        | true => exact Or.inr (Or.inr (Or.inl ⟨d, _, rfl, hd, Or.inl hmanual, rfl⟩))
    · rw [if_neg hmanual]
      cases hdefault : nonblank defaultNode with
      | none => exact Or.inr (Or.inr (Or.inr ⟨hne, hmanual, by simp, rfl⟩))
      | some d =>
        dsimp only
        by_cases hd : policy = preferDefaultThenBalance ∧ isCandidate online d = true
        · rw [if_pos hd]
          exact Or.inr (Or.inr (Or.inl ⟨d, _, rfl, hd.2, Or.inr hd.1, rfl⟩))
        · rw [if_neg hd]
          refine Or.inr (Or.inr (Or.inr ⟨hne, hmanual, ?_, rfl⟩))
          intro d' hd' hprefer
          cases hd'
          cases hcandidate : isCandidate online d with
          | false => rfl
          | true => exact absurd ⟨hprefer, hcandidate⟩ hd

/-- A decision is for the default node, or it is the balance's. -/
theorem chooseClusterNode_ok {decision : PlacementDecision}
    (h : chooseClusterNode nodes counts placementPolicy defaultNode allowedNodes = .ok decision) :
    (nonblank defaultNode = some decision.selectedNode ∧
        (∃ n ∈ onlineNodes nodes allowedNodes, n.nodeName = some decision.selectedNode) ∧
        (effectivePolicy placementPolicy defaultNode = manual ∨
          effectivePolicy placementPolicy defaultNode = preferDefaultThenBalance)) ∨
      (effectivePolicy placementPolicy defaultNode ≠ manual ∧
        (∀ d, nonblank defaultNode = some d →
          effectivePolicy placementPolicy defaultNode = preferDefaultThenBalance →
          ¬ ∃ n ∈ onlineNodes nodes allowedNodes, n.nodeName = some d) ∧
        WinsBalance counts (· ∈ onlineNodes nodes allowedNodes) decision.selectedNode) := by
  rcases chooseClusterNode_cases nodes counts placementPolicy defaultNode allowedNodes with
    ⟨-, message, herror⟩ | ⟨-, -, message, herror⟩ | ⟨d, reason, hd, hcandidate, hpolicy, hok⟩ |
    ⟨hne, hmanual, hno, hbalanced⟩
  · rw [herror] at h
    cases h
  · rw [herror] at h
    cases h
  · rw [hok] at h
    cases h
    exact Or.inl ⟨hd, isCandidate_iff.mp hcandidate, hpolicy⟩
  · obtain ⟨name, hwins, hok⟩ := chooseBalanced_eq counts hne
      (effectivePolicy placementPolicy defaultNode)
    rw [hbalanced, hok] at h
    cases h
    refine Or.inr ⟨hmanual, ?_, hwins⟩
    intro d hd hprefer hcandidate
    have htrue := isCandidate_iff.mpr hcandidate
    rw [hno d hd hprefer] at htrue
    exact Bool.false_ne_true htrue

/-! ## Exact figures -/

/-- The free memory of a node, without rounding. -/
def Node.freeMemory (node : Node) : ℚ :=
  max (node.memoryTotal.getD 0 - node.memoryUsed.getD 0) 0

/-- The CPU ratio of a node, without rounding. -/
def Node.load (node : Node) : ℚ :=
  if 0 < node.cpuTotal.getD 1 then node.cpuUsed.getD 0 / node.cpuTotal.getD 1 else 1

/-- `m` has strictly more free memory than `n`, or as much and a strictly lower CPU ratio, or the
same of both and strictly fewer running VMs. -/
def Better : (String → Option ℤ) → Node → Node → Prop := Outranks Node.freeMemory Node.load

/-- The figure is missing, or a whole number of so many binary digits. -/
def Whole (digits : ℕ) (v : Option ℚ) : Prop :=
  ∀ q, v = some q → ∃ n : ℤ, q = n ∧ |n| < 2 ^ digits

/-- The figures of a node are whole numbers, the memory below 2^52 and the CPUs below 2^26. -/
structure Node.HasWholeFigures (node : Node) : Prop where
  memoryTotal : Whole 52 node.memoryTotal
  memoryUsed : Whole 52 node.memoryUsed
  cpuTotal : Whole 26 node.cpuTotal
  cpuUsed : Whole 26 node.cpuUsed

section Exact

variable {digits : ℕ} {v : Option ℚ} {d : ℤ} {m n : Node}

/-- A whole figure, or the whole number that stands for a missing one. -/
theorem Whole.getD (h : Whole digits v) (hd : |d| < 2 ^ digits) :
    ∃ k : ℤ, v.getD d = k ∧ |k| < 2 ^ digits := by
  cases v with
  | none => exact ⟨d, rfl, hd⟩
  | some q => exact h q rfl

/-- The conversion of a whole figure to a double is exact. -/
theorem toFloat_eq (h : Whole digits v) (hdigits : digits ≤ 53) : toFloat v d = v.getD d := by
  cases v with
  | none => rfl
  | some q =>
    obtain ⟨k, rfl, hk⟩ := h q rfl
    have hbound : |k| < 2 ^ 53 :=
      lt_of_lt_of_le hk (pow_le_pow_right₀ (by norm_num) hdigits)
    unfold toFloat
    rw [Option.bind_some, Double.ofRat?_intCast hbound]

/-- The free memory that the code computes is exact. -/
theorem memFree_eq (h : n.HasWholeFigures) : n.memFree = Double.finite n.freeMemory := by
  have htotal : toFloat n.memoryTotal 0 = n.memoryTotal.getD 0 :=
    toFloat_eq (d := 0) h.memoryTotal (by norm_num)
  have hused : toFloat n.memoryUsed 0 = n.memoryUsed.getD 0 :=
    toFloat_eq (d := 0) h.memoryUsed (by norm_num)
  obtain ⟨total, htotal', htotal_lt⟩ := h.memoryTotal.getD (d := 0) (by norm_num)
  obtain ⟨used, hused', hused_lt⟩ := h.memoryUsed.getD (d := 0) (by norm_num)
  rw [Int.cast_zero] at htotal' hused'
  have hdifference : |total - used| < 2 ^ 53 := by
    have htriangle := abs_sub total used
    omega
  have hcast : (total : ℚ) - used = ((total - used : ℤ) : ℚ) := by push_cast; rfl
  unfold Node.memFree memFree Node.freeMemory
  rw [htotal, hused, htotal', hused', hcast, Double.round_intCast hdifference]
  cases le_total ((total - used : ℤ) : ℚ) 0 with
  | inl hle =>
    rw [max_eq_right hle, max_eq_right]
    exact not_lt.mp fun hlt => absurd (Double.finite_lt_finite.mp hlt) (not_lt.mpr hle)
  | inr hle =>
    rw [max_eq_left hle, max_eq_left]
    exact not_lt.mp fun hlt => absurd (Double.finite_lt_finite.mp hlt) (not_lt.mpr hle)

/-- The CPU ratio of whole figures is a fraction of small whole numbers, which the code rounds. -/
theorem cpuRatio_eq (h : n.HasWholeFigures) : ∃ a b : ℤ, |a| < 2 ^ 26 ∧ 0 < b ∧ b < 2 ^ 26 ∧
    n.load = a / b ∧ n.cpuRatio = Double.round (a / b) := by
  have htotal : toFloat n.cpuTotal 1 = n.cpuTotal.getD 1 := by
    exact_mod_cast toFloat_eq (d := 1) h.cpuTotal (by norm_num)
  have hused : toFloat n.cpuUsed 0 = n.cpuUsed.getD 0 :=
    toFloat_eq (d := 0) h.cpuUsed (by norm_num)
  obtain ⟨total, htotal', htotal_lt⟩ := h.cpuTotal.getD (d := 1) (by norm_num)
  obtain ⟨used, hused', hused_lt⟩ := h.cpuUsed.getD (d := 0) (by norm_num)
  rw [Int.cast_zero] at hused'
  rw [Int.cast_one] at htotal'
  unfold Node.cpuRatio cpuRatio Node.load
  rw [htotal, hused, htotal', hused']
  by_cases hpos : (0 : ℚ) < total
  · have hpos' : 0 < total := by exact_mod_cast hpos
    have hlt : total < 2 ^ 26 := lt_of_le_of_lt (le_abs_self total) htotal_lt
    exact ⟨used, total, hused_lt, hpos', hlt, if_pos hpos, if_pos hpos⟩
  · have hone : (((1 : ℤ) : ℚ) / ((1 : ℤ) : ℚ)) = ((1 : ℤ) : ℚ) := by norm_num
    refine ⟨1, 1, by norm_num, by norm_num, by norm_num, ?_, ?_⟩
    · rw [if_neg hpos, hone, Int.cast_one]
    · rw [if_neg hpos, hone, Double.round_intCast (by norm_num), Int.cast_one]

/-- Whole figures order the nodes as the doubles do that the code computes. -/
theorem outranks_iff_better (hm : m.HasWholeFigures) (hn : n.HasWholeFigures) :
    Outranks Node.memFree Node.cpuRatio counts m n ↔ Better counts m n := by
  obtain ⟨a, b, ha, hb, hb', hload, hratio⟩ := cpuRatio_eq hm
  obtain ⟨c, d, hc, hd, hd', hload', hratio'⟩ := cpuRatio_eq hn
  have hlt := Double.round_div_lt_iff ha hb hb' hc hd hd'
  have hgt := Double.round_div_lt_iff hc hd hd' ha hb hb'
  have heq : m.cpuRatio = n.cpuRatio ↔ m.load = n.load := by
    rw [hratio, hratio', hload, hload', eq_iff_le_not_lt, eq_iff_le_not_lt, ← not_lt, ← not_lt,
      hlt, hgt]
  unfold Better Outranks
  rw [memFree_eq hm, memFree_eq hn, Double.finite_lt_finite, Double.finite_inj, heq, hratio,
    hratio', hlt, hload, hload']

end Exact

/-! ## The promise -/

/-- A node that is chosen and is not the default one has no rival that is better in a sense. -/
def ChoosesBest (better : (String → Option ℤ) → Node → Node → Prop) (nodes : List Node)
    (counts : String → Option ℤ) (placementPolicy : Option Text) (defaultNode : Option String)
    (allowedNodes : Option (List String)) : Prop :=
  ∀ decision,
    chooseClusterNode nodes counts placementPolicy defaultNode allowedNodes = .ok decision →
    nonblank defaultNode ≠ some decision.selectedNode →
    ∃ n, Candidate nodes allowedNodes n ∧ n.name = decision.selectedNode ∧
      ∀ m, Candidate nodes allowedNodes m → ¬ better counts m n

/-- What is promised of a call of `choose_cluster_node`. -/
structure Chooses (nodes : List Node) (counts : String → Option ℤ)
    (placementPolicy : Option Text) (defaultNode : Option String)
    (allowedNodes : Option (List String)) : Prop where
  /-- It raises only where no node can be chosen, or where the policy is to take the default node
  and there is none, or it cannot be chosen. -/
  raises : ∀ message,
    chooseClusterNode nodes counts placementPolicy defaultNode allowedNodes = .error message →
    (¬ ∃ n, Candidate nodes allowedNodes n) ∨
      effectivePolicy placementPolicy defaultNode = manual ∧
        ∀ d, nonblank defaultNode = some d →
          ¬ ∃ n, Candidate nodes allowedNodes n ∧ n.nodeName = some d
  /-- The order of the nodes does not matter. -/
  perm : ∀ nodes', nodes.Perm nodes' →
    chooseClusterNode nodes' counts placementPolicy defaultNode allowedNodes =
      chooseClusterNode nodes counts placementPolicy defaultNode allowedNodes
  /-- When the default node is chosen. -/
  default_iff : ∀ decision d,
    chooseClusterNode nodes counts placementPolicy defaultNode allowedNodes = .ok decision →
    nonblank defaultNode = some d →
    (decision.selectedNode = d ↔
      effectivePolicy placementPolicy defaultNode = manual ∨
      effectivePolicy placementPolicy defaultNode = preferDefaultThenBalance ∧
        (∃ n, Candidate nodes allowedNodes n ∧ n.nodeName = some d) ∨
      WinsBalance counts (Candidate nodes allowedNodes) d)
  /-- The node that is chosen can be chosen. -/
  eligible : ∀ decision,
    chooseClusterNode nodes counts placementPolicy defaultNode allowedNodes = .ok decision →
    ∃ n, Candidate nodes allowedNodes n ∧ n.name = decision.selectedNode
  /-- A node that is not the default one has no rival that is better by the doubles. -/
  best : ChoosesBest (Outranks Node.memFree Node.cpuRatio) nodes counts placementPolicy defaultNode
    allowedNodes
  /-- Among nodes with whole figures it has no better rival at all. -/
  bestExactly : (∀ n, Candidate nodes allowedNodes n → n.HasWholeFigures) →
    ChoosesBest Better nodes counts placementPolicy defaultNode allowedNodes

/-- `choose_cluster_node` keeps the promise for all nodes and settings. -/
theorem chooses (nodes : List Node) (counts : String → Option ℤ) (placementPolicy : Option Text)
    (defaultNode : Option String) (allowedNodes : Option (List String)) :
    Chooses nodes counts placementPolicy defaultNode allowedNodes := by
  have hnamed : ∀ d, (∃ n ∈ onlineNodes nodes allowedNodes, n.nodeName = some d) ↔
      ∃ n, Candidate nodes allowedNodes n ∧ n.nodeName = some d := by
    intro d
    simp only [mem_onlineNodes]
  have hbalance : ∀ d, WinsBalance counts (· ∈ onlineNodes nodes allowedNodes) d →
      WinsBalance counts (Candidate nodes allowedNodes) d := fun d h =>
    h.congr fun _ => mem_onlineNodes
  have hbest : ChoosesBest (Outranks Node.memFree Node.cpuRatio) nodes counts placementPolicy
      defaultNode allowedNodes := by
    intro decision h hother
    rcases chooseClusterNode_ok h with ⟨hdefault, -, -⟩ | ⟨-, -, hwins⟩
    · exact absurd hdefault hother
    · exact (hbalance _ hwins).best
  constructor
  case raises =>
    intro message h
    rcases chooseClusterNode_cases nodes counts placementPolicy defaultNode allowedNodes with
      ⟨hempty, -⟩ | ⟨hmanual, hno, -⟩ | ⟨d, reason, -, -, -, hok⟩ | ⟨hne, -, -, hbalanced⟩
    · left
      rintro ⟨n, hn⟩
      rw [← mem_onlineNodes, hempty] at hn
      cases hn
    · refine Or.inr ⟨hmanual, ?_⟩
      intro d hd hcandidate
      have htrue := isCandidate_iff.mpr ((hnamed d).mpr hcandidate)
      rw [hno d hd] at htrue
      exact absurd htrue Bool.false_ne_true
    · rw [hok] at h
      cases h
    · obtain ⟨name, -, hok⟩ := chooseBalanced_eq counts hne
        (effectivePolicy placementPolicy defaultNode)
      rw [hbalanced, hok] at h
      cases h
  case perm =>
    intro nodes' hperm
    have honline := onlineNodes_perm allowedNodes hperm
    unfold chooseClusterNode
    simp only [honline.isEmpty_eq, isCandidate_perm honline, chooseBalanced_perm honline]
  case default_iff =>
    intro decision d h hd
    rw [← hnamed]
    rcases chooseClusterNode_ok h with ⟨hdefault, hcandidate, hpolicy⟩ | ⟨hmanual, hno, hwins⟩
    · rw [hd] at hdefault
      cases hdefault
      refine iff_of_true rfl ?_
      cases hpolicy with
      | inl hmanual => exact Or.inl hmanual
      | inr hprefer => exact Or.inr (Or.inl ⟨hprefer, hcandidate⟩)
    · constructor
      · intro heq
        rw [← heq]
        exact Or.inr (Or.inr (hbalance _ hwins))
      · rintro (h | ⟨hprefer, hcandidate⟩ | hwins')
        · exact absurd h hmanual
        · exact absurd hcandidate (hno d hd hprefer)
        · exact (hbalance _ hwins).unique hwins'
  case eligible =>
    intro decision h
    simp only [← mem_onlineNodes]
    rcases chooseClusterNode_ok h with ⟨-, ⟨n, hn, hname⟩, -⟩ | ⟨-, -, n, hn, hname, -⟩
    · refine ⟨n, hn, ?_⟩
      unfold Node.name
      rw [hname]
      rfl
    · exact ⟨n, hn, hname⟩
  case best => exact hbest
  case bestExactly =>
    intro hwhole decision h hother
    obtain ⟨n, hn, hname, hrivals⟩ := hbest decision h hother
    refine ⟨n, hn, hname, ?_⟩
    intro m hm hbetter
    exact hrivals m hm ((outranks_iff_better (hwhole m hm) (hwhole n hn)).mpr hbetter)

/-! ## The rows of `proxmox_nodes` -/

/-- The dictionary that `create_vm` makes of a row. -/
structure Node.Records (node : Node) (row : ProxmoxNode) : Prop where
  nodeName : node.nodeName = some row.nodeName
  status : isOnline node = row.isOnline
  memoryTotal : node.memoryTotal = rational row.memoryTotal
  memoryUsed : node.memoryUsed = rational row.memoryUsed
  cpuTotal : node.cpuTotal = rational row.cpuTotal
  cpuUsed : node.cpuUsed = rational row.cpuUsed

/-- The policy column that stands for the effective policy. -/
def readPolicy (policy : Text) : PlacementPolicy :=
  if policy = manual then .manual
  else if policy = preferDefaultThenBalance then .preferDefaultThenBalance
  else if policy = balanced then .balanced
  else .other (String.ofList policy)

/-- The sort key that a score of a row stands for. -/
def Score.key (s : Score) : Key :=
  toLex (OrderDual.toDual s.memFree, toLex (s.cpuRatio, toLex ((s.runningVms : ℤ), s.name)))

/-- Scores of rows are ordered as their keys are. -/
theorem Score.before_iff {a b : Score} : a.before b = true ↔ Score.key a < Score.key b := by
  unfold Score.before Score.key
  simp only [Prod.Lex.toLex_lt_toLex, OrderDual.toDual_lt_toDual, EmbeddingLike.apply_eq_iff_eq,
    Nat.cast_lt, Nat.cast_inj]
  by_cases hmem : a.memFree = b.memFree
  · by_cases hcpu : a.cpuRatio = b.cpuRatio
    · by_cases hrunning : a.runningVms = b.runningVms
      · simp [hmem, hcpu, hrunning]
      · simp [hmem, hcpu, hrunning]
    · simp [hmem, hcpu]
  · simp [hmem]

/-- Only where there is no row there is no best one. -/
theorem bestNode_eq_none {running : String → ℕ} {rows : List ProxmoxNode}
    (h : bestNode running rows = none) : rows = [] := by
  cases rows with
  | nil => rfl
  | cons row rows =>
    unfold bestNode at h
    split at h
    · cases h
    · split at h <;> cases h

/-- The best row has the least key. -/
theorem bestNode_spec {running : String → ℕ} {rows : List ProxmoxNode} {best : ProxmoxNode}
    (h : bestNode running rows = some best) : best ∈ rows ∧ ∀ row ∈ rows,
      Score.key (LabGoblin.score best (running best.nodeName)) ≤
        Score.key (LabGoblin.score row (running row.nodeName)) := by
  induction rows generalizing best with
  | nil => cases h
  | cons row rows ih =>
    unfold bestNode at h
    cases hrest : bestNode running rows with
    | none =>
      have hnil : rows = [] := bestNode_eq_none hrest
      rw [hrest] at h
      cases h
      simp [hnil]
    | some other =>
      obtain ⟨hother, hmin⟩ := ih hrest
      rw [hrest] at h
      dsimp only at h
      have hbefore := Score.before_iff (a := LabGoblin.score other (running other.nodeName))
        (b := LabGoblin.score row (running row.nodeName))
      split at h
      · next hlt =>
        cases h
        refine ⟨List.mem_cons_of_mem _ hother, ?_⟩
        intro r hr
        cases List.mem_cons.mp hr with
        | inl heq =>
          rw [heq]
          exact le_of_lt (hbefore.mp hlt)
        | inr hr => exact hmin r hr
      · next hge =>
        cases h
        refine ⟨List.mem_cons_self, ?_⟩
        have hle := not_lt.mp (fun hlt => hge (hbefore.mpr hlt))
        intro r hr
        cases List.mem_cons.mp hr with
        | inl heq => rw [heq]
        | inr hr => exact le_trans hle (hmin r hr)

section Rows

variable {node : Node} {row : ProxmoxNode} {rows : List ProxmoxNode} {running : String → ℕ}

/-- A dictionary of a row has the name of the row. -/
theorem Node.Records.name (h : node.Records row) : node.name = row.nodeName := by
  unfold Node.name
  rw [h.nodeName]
  rfl

/-- A dictionary has the sort key of its row. -/
theorem Node.Records.key (h : node.Records row)
    (hcount : (counts row.nodeName).getD 0 = running row.nodeName) :
    key counts node = Score.key (LabGoblin.score row (running row.nodeName)) := by
  have hrunning : runningCount counts node = running row.nodeName := by
    unfold runningCount
    rw [h.name, hcount]
  unfold Placement.key score Score.key Node.memFree Node.cpuRatio
  rw [h.memoryTotal, h.memoryUsed, h.cpuTotal, h.cpuUsed, hrunning, h.name]
  rfl

/-- The nodes that can be chosen are those of the rows that can be chosen. -/
theorem onlineNodes_records (h : List.Forall₂ Node.Records nodes rows) (allowed : List String) :
    List.Forall₂ Node.Records (onlineNodes nodes (some allowed))
      (rows.filter fun n => n.isOnline && allowed.contains n.nodeName) := by
  unfold onlineNodes
  dsimp only
  rw [List.filter_filter]
  refine List.rel_filter ?_ h
  intro node row hrow
  simp [hrow.status, hrow.nodeName, and_comm]

/-- Dictionaries and their rows have the same candidates. -/
theorem isCandidate_records (h : List.Forall₂ Node.Records nodes rows) (name : String) :
    isCandidate nodes name = rows.any fun n => n.nodeName = name := by
  unfold isCandidate
  induction h with
  | nil => rfl
  | cons hrow _ ih => simp [hrow.nodeName, ih]

/-- The best row is the winner of the balance. -/
theorem bestNode_wins (h : List.Forall₂ Node.Records nodes rows)
    (hcounts : ∀ row ∈ rows, (counts row.nodeName).getD 0 = running row.nodeName)
    {best : ProxmoxNode} (hbest : bestNode running rows = some best) :
    WinsBalance counts (· ∈ nodes) best.nodeName := by
  obtain ⟨hmem, hmin⟩ := bestNode_spec hbest
  obtain ⟨i, hi, rfl⟩ := List.getElem_of_mem hmem
  have hlength : nodes.length = rows.length := h.length_eq
  have hrow : nodes[i].Records rows[i] := h.get (by omega) hi
  refine ⟨nodes[i], List.getElem_mem _, hrow.name, ?_⟩
  intro m hm
  obtain ⟨j, hj, rfl⟩ := List.getElem_of_mem hm
  have hrow' : nodes[j].Records rows[j] := h.get hj (by omega)
  rw [hrow.key (hcounts _ (List.getElem_mem _)), hrow'.key (hcounts _ (List.getElem_mem _))]
  exact hmin _ (List.getElem_mem _)

/-- What `create_vm` sees of the placement is the placement of its rows. -/
theorem chooseClusterNode_rows (h : List.Forall₂ Node.Records nodes rows)
    (hcounts : ∀ row ∈ rows, (counts row.nodeName).getD 0 = running row.nodeName)
    (allowed : List String) :
    LabGoblin.chooseClusterNode rows running
        (readPolicy (effectivePolicy placementPolicy defaultNode)) (nonblank defaultNode) allowed =
      (chooseClusterNode nodes counts placementPolicy defaultNode (some allowed)).map
        fun decision => (decision.selectedNode, decision.reason) := by
  have honline := onlineNodes_records h allowed
  have hcount : ∀ row ∈ rows.filter fun n => n.isOnline && allowed.contains n.nodeName,
      (counts row.nodeName).getD 0 = running row.nodeName := by
    intro row hrow
    exact hcounts row (List.mem_of_mem_filter hrow)
  unfold LabGoblin.chooseClusterNode chooseClusterNode
  dsimp only
  generalize (rows.filter fun n => n.isOnline && allowed.contains n.nodeName) = online' at *
  generalize onlineNodes nodes (some allowed) = online at *
  generalize effectivePolicy placementPolicy defaultNode = policy
  simp only [← isCandidate_records honline]
  cases hbest : bestNode running online' with
  | none =>
    have hempty : online' = [] := bestNode_eq_none hbest
    rw [hempty] at honline
    cases honline
    rfl
  | some best =>
    have hwins : WinsBalance counts (· ∈ online) best.nodeName := bestNode_wins honline hcount hbest
    have hne : online ≠ [] := by
      obtain ⟨n, hn, -⟩ := hwins
      exact List.ne_nil_of_mem hn
    have hbalanced : chooseBalanced online counts policy = .ok {
        selectedNode := best.nodeName
        reason := "balanced selection based on memory/cpu/running-vm load"
        policy := policy
        candidateCount := some online.length } := by
      obtain ⟨name, hname, heq⟩ := chooseBalanced_eq counts hne policy
      rw [heq, hname.unique hwins]
    rw [hbalanced, if_neg (by simpa using hne)]
    unfold readPolicy
    by_cases hmanual : policy = manual
    · rw [if_pos hmanual, if_pos hmanual]
      cases nonblank defaultNode with
      | none => rfl
      | some d =>
        dsimp only
        split <;> rfl
    · rw [if_neg hmanual, if_neg hmanual]
      by_cases hprefer : policy = preferDefaultThenBalance
      · rw [if_pos hprefer]
        cases nonblank defaultNode with
        | none => rfl
        | some d =>
          dsimp only
          cases isCandidate online d <;> simp [hprefer, Except.map]
      · rw [if_neg hprefer]
        by_cases hplain : policy = balanced
        · rw [if_pos hplain]
          cases nonblank defaultNode with
          | none => rfl
          | some d => simp [hprefer, Except.map]
        · rw [if_neg hplain]
          cases nonblank defaultNode with
          | none => rfl
          | some d => simp [hprefer, Except.map]

end Rows

end LabGoblin.Placement
