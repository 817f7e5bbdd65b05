import LabGoblin.Model.Text
import LabGoblin.Model.VirtualMachines
import Mathlib.Algebra.Order.Field.Rat
import Mathlib.Data.List.Sort
import Mathlib.Data.Prod.Lex
import Mathlib.Data.String.Basic

/-!
# Placement

`services/placement.py` on the dictionaries that it is given, with capacities that are rational
numbers, which it converts to doubles. The endpoints call it with the rows of `proxmox_nodes`, whose
columns are integers; what they see of it is `chooseClusterNode`.
-/

set_option autoImplicit false

namespace LabGoblin.Placement

open LabGoblin.Text

/-- The keys of a node dictionary that placement reads. -/
structure Node where
  nodeName : Option String := none
  status : Option Text := none
  memoryTotal : Option ℚ := none
  memoryUsed : Option ℚ := none
  cpuTotal : Option ℚ := none
  cpuUsed : Option ℚ := none
  deriving DecidableEq

/-- `node.get("node_name") or ""` -/
def Node.name (node : Node) : String := node.nodeName.getD ""

/-- `_is_online`. No letter outside ASCII has one of the letters of these words for its lower
case. -/
def isOnline (node : Node) : Bool :=
  (node.status.getD []).map Char.toLower ∈ ["online".toList, "up".toList]

def Node.memFree (node : Node) : Double.Value :=
  LabGoblin.memFree node.memoryTotal node.memoryUsed

def Node.cpuRatio (node : Node) : Double.Value := LabGoblin.cpuRatio node.cpuTotal node.cpuUsed

/-- The sort keys, compared as Python compares tuples. The free memory comes negated, which turns
its order around. -/
abbrev Key := Double.Valueᵒᵈ ×ₗ Double.Value ×ₗ ℤ ×ₗ String

/-- `_score` -/
def score (node : Node) (runningVmCount : ℤ) : Key :=
  toLex (OrderDual.toDual node.memFree,
    toLex (node.cpuRatio, toLex (runningVmCount, node.name)))

structure PlacementDecision where
  selectedNode : String
  reason : String
  policy : Text
  candidateCount : Option ℕ := none
  deriving DecidableEq

def manual : Text := "manual".toList
def preferDefaultThenBalance : Text := "prefer_default_then_balance".toList
def balanced : Text := "balanced".toList

/-- `(placement_policy or "").strip() or (...)` -/
def effectivePolicy (placementPolicy : Option Text) (defaultNode : Option String) : Text :=
  let policy := Text.strip (placementPolicy.getD [])
  if policy ≠ [] then policy
  else if (nonblank defaultNode).isSome then preferDefaultThenBalance
  else balanced

/-- The online nodes among the allowed ones. -/
def onlineNodes (nodes : List Node) (allowedNodes : Option (List String)) : List Node :=
  let online := nodes.filter fun n => isOnline n
  match allowedNodes with
  | none => online
  | some allowed => online.filter fun n => n.nodeName.any allowed.contains

/-- `running_counts_by_node.get(n.get("node_name") or "", 0)` -/
def runningCount (runningCountsByNode : String → Option ℤ) (node : Node) : ℤ :=
  (runningCountsByNode node.name).getD 0

def key (runningCountsByNode : String → Option ℤ) (node : Node) : Key :=
  score node (runningCount runningCountsByNode node)

/-- `sorted(online_nodes, key=...)` -/
def scored (runningCountsByNode : String → Option ℤ) (onlineNodes : List Node) : List Node :=
  onlineNodes.insertionSort fun m n => key runningCountsByNode m ≤ key runningCountsByNode n

def noOnlineNodes : String := "No online Proxmox nodes are available for placement."

/-- The end of `choose_cluster_node`; there is a node to choose. -/
def chooseBalanced (onlineNodes : List Node) (runningCountsByNode : String → Option ℤ)
    (policy : Text) : Except String PlacementDecision :=
  match scored runningCountsByNode onlineNodes with
  | [] => .error noOnlineNodes
  | selected :: _ => .ok {
      selectedNode := selected.name
      reason := "balanced selection based on memory/cpu/running-vm load"
      policy := policy
      candidateCount := some onlineNodes.length }

/-- The default node is the name of an online node. -/
def isCandidate (onlineNodes : List Node) (name : String) : Bool :=
  onlineNodes.any fun n => n.nodeName = some name

/-- `choose_cluster_node`, with the text of its `PlacementError`. -/
def chooseClusterNode (nodes : List Node) (runningCountsByNode : String → Option ℤ)
    (placementPolicy : Option Text) (defaultNode : Option String)
    (allowedNodes : Option (List String)) : Except String PlacementDecision :=
  let policy := effectivePolicy placementPolicy defaultNode
  let online := onlineNodes nodes allowedNodes
  if online.isEmpty then .error noOnlineNodes
  else if policy = manual then
    match nonblank defaultNode with
    | none => .error "Placement policy manual requires a configured default node."
    | some node =>
      if isCandidate online node then .ok ⟨node, "manual default node", policy, none⟩
      else
        .error (s!"Placement policy manual selected {node}, " ++
          "but that node is offline or unavailable.")
  else
    match nonblank defaultNode with
    | some node =>
      if policy = preferDefaultThenBalance ∧ isCandidate online node then
        .ok ⟨node, "preferred default node is online", policy, none⟩
      else chooseBalanced online runningCountsByNode policy
    | none => chooseBalanced online runningCountsByNode policy

end LabGoblin.Placement
