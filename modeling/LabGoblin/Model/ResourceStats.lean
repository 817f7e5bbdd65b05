import LabGoblin.Model.Json
import Mathlib.Algebra.Ring.Nat
import Mathlib.Data.List.Sort
import Mathlib.Data.String.Basic

/-!
# Cluster statistics

`_collect_from_client` of `services/proxmox_resource_stats.py` on the rows that
`/cluster/resources` answers with. The percentages are left out: they are rounded floats, and no
count depends on them.
-/

set_option autoImplicit false

namespace LabGoblin.ResourceStats

/-- The keys of a resource that the statistics read. -/
structure Resource where
  type : Option String := none
  node : Option String := none
  status : Option String := none
  template : Json := .null
  mem : Option ℕ := none
  maxmem : Option ℕ := none
  disk : Option ℕ := none
  maxdisk : Option ℕ := none
  maxcpu : Option ℕ := none
  uptime : Option ℕ := none

/-- `_is_template` -/
def isTemplate (vm : Resource) : Bool :=
  [.int 1, .bool true, .text "1", .text "true", .text "True"].any vm.template.same

inductive VmClass where
  | running
  | stopped
  | paused
  | unknown
  deriving DecidableEq

/-- `(status or "").lower()`. No letter outside ASCII has one of the letters of the words that it
is compared with for its lower case. -/
def lowerStatus (status : Option String) : String := (status.getD "").map Char.toLower

/-- `_classify_vm_status` -/
def classifyVmStatus (status : Option String) : VmClass :=
  let s := lowerStatus status
  if s = "running" then .running
  else if s = "stopped" then .stopped
  else if s ∈ ["paused", "suspended"] then .paused
  else .unknown

/-! ## The nodes -/

/-- An entry of `node_map`. -/
structure NodeStats where
  name : String
  status : String
  cpuCount : Option ℕ
  memoryUsedBytes : Option ℕ
  memoryTotalBytes : Option ℕ
  diskUsedBytes : Option ℕ
  diskTotalBytes : Option ℕ
  vmCount : ℕ := 0
  runningVmCount : ℕ := 0
  stoppedVmCount : ℕ := 0
  pausedVmCount : ℕ := 0
  templateCount : ℕ := 0
  unknownVmCount : ℕ := 0
  uptimeSeconds : Option ℕ
  deriving DecidableEq

/-- A text that is there and not empty. -/
def nonempty (text : Option String) : Option String := text.filter (· ≠ "")

/-- The entry that a row makes. -/
def NodeStats.ofResource (name : String) (n : Resource) : NodeStats where
  name := name
  status := (nonempty n.status).getD "unknown"
  cpuCount := n.maxcpu
  memoryUsedBytes := n.mem
  memoryTotalBytes := n.maxmem
  diskUsedBytes := n.disk
  diskTotalBytes := n.maxdisk
  uptimeSeconds := n.uptime

/-- `node_map`: its entries in the order of their insertion. -/
structure NodeMap where
  entries : List NodeStats
  distinct : (entries.map NodeStats.name).Nodup

namespace NodeMap

def empty : NodeMap := ⟨[], List.nodup_nil⟩

/-- `name in node_map` -/
def contains (nodes : NodeMap) (name : String) : Bool :=
  nodes.entries.any fun n => n.name = name

/-- The entries after a change of the entry with a name. -/
def changed (name : String) (f : NodeStats → NodeStats) (entries : List NodeStats) :
    List NodeStats :=
  entries.map fun n => if n.name = name then f n else n

/-- Changing the entry of a node keeps the names of the entries. -/
theorem map_name_changed {name : String} {f : NodeStats → NodeStats}
    (hf : ∀ n, n.name = name → (f n).name = name) (entries : List NodeStats) :
    (changed name f entries).map NodeStats.name = entries.map NodeStats.name := by
  unfold changed
  rw [List.map_map]
  refine List.map_congr_left fun n _ => ?_
  by_cases h : n.name = name
  · simp [h, hf n h]
  · simp [h]

/-- `node_map[entry["name"]] = entry` -/
def insert (nodes : NodeMap) (entry : NodeStats) : NodeMap :=
  if h : nodes.contains entry.name then
    { entries := changed entry.name (fun _ => entry) nodes.entries
      distinct := by
        rw [map_name_changed fun _ _ => rfl]
        exact nodes.distinct }
  else
    { entries := nodes.entries ++ [entry]
      distinct := by
        rw [List.map_append, List.map_singleton, List.nodup_append_comm, List.singleton_append,
          List.nodup_cons]
        refine ⟨fun hmem => h ?_, nodes.distinct⟩
        obtain ⟨n, hn, hname⟩ := List.mem_map.mp hmem
        exact List.any_eq_true.mpr ⟨n, hn, decide_eq_true hname⟩ }

/-- What the loop does to the entry of a node; it keeps the names. -/
def update (nodes : NodeMap) (name : String) (f : NodeStats → NodeStats)
    (hf : ∀ n, (f n).name = n.name) : NodeMap where
  entries := changed name f nodes.entries
  distinct := by
    rw [map_name_changed fun n hn => (hf n).trans hn]
    exact nodes.distinct

end NodeMap

/-- The loop over the node rows. -/
def collectNodes : NodeMap → List Resource → NodeMap
  | nodes, [] => nodes
  | nodes, n :: rows =>
    match nonempty n.node with
    | none => collectNodes nodes rows
    | some name => collectNodes (nodes.insert (NodeStats.ofResource name n)) rows

/-! ## The virtual machines -/

structure Totals where
  totalVms : ℕ := 0
  runningVms : ℕ := 0
  stoppedVms : ℕ := 0
  pausedVms : ℕ := 0
  templates : ℕ := 0
  unknownVms : ℕ := 0
  deriving DecidableEq

/-- What a resource on a known node is counted as. -/
inductive Outcome where
  | template
  | vm (c : VmClass)
  deriving DecidableEq

def outcome (vm : Resource) : Outcome :=
  if isTemplate vm then .template else .vm (classifyVmStatus vm.status)

/-- The counters of the node that a resource adds to. -/
def NodeStats.count : Outcome → NodeStats → NodeStats
  | .template, n => { n with templateCount := n.templateCount + 1 }
  | .vm .running, n => { n with vmCount := n.vmCount + 1, runningVmCount := n.runningVmCount + 1 }
  | .vm .stopped, n => { n with vmCount := n.vmCount + 1, stoppedVmCount := n.stoppedVmCount + 1 }
  | .vm .paused, n => { n with vmCount := n.vmCount + 1, pausedVmCount := n.pausedVmCount + 1 }
  | .vm .unknown, n => { n with vmCount := n.vmCount + 1, unknownVmCount := n.unknownVmCount + 1 }

/-- Counting a VM does not rename its node. -/
theorem NodeStats.count_name (o : Outcome) (n : NodeStats) : (n.count o).name = n.name := by
  cases o with
  | template => rfl
  | vm c => cases c <;> rfl

/-- The totals that a resource adds to. -/
def Totals.count : Outcome → Totals → Totals
  | .template, t => { t with templates := t.templates + 1 }
  | .vm .running, t => { t with totalVms := t.totalVms + 1, runningVms := t.runningVms + 1 }
  | .vm .stopped, t => { t with totalVms := t.totalVms + 1, stoppedVms := t.stoppedVms + 1 }
  | .vm .paused, t => { t with totalVms := t.totalVms + 1, pausedVms := t.pausedVms + 1 }
  | .vm .unknown, t => { t with totalVms := t.totalVms + 1, unknownVms := t.unknownVms + 1 }

structure Tally where
  nodes : NodeMap
  totals : Totals := {}
  warnings : List String := []

def unknownNode (node : Option String) : String :=
  "VM resource references unknown node: " ++ node.getD "None"

/-- The body of the loop over the VM resources. -/
def Tally.add (t : Tally) (vm : Resource) : Tally :=
  match vm.node.filter t.nodes.contains with
  | none => { t with warnings := t.warnings ++ [unknownNode vm.node] }
  | some name =>
    { t with
      nodes := t.nodes.update name (NodeStats.count (outcome vm)) (NodeStats.count_name _)
      totals := t.totals.count (outcome vm) }

/-! ## The statistics -/

structure Summary where
  totalNodes : ℕ
  onlineNodes : ℕ
  offlineNodes : ℕ
  totalCpuCores : ℕ
  memoryUsedBytes : ℕ
  memoryTotalBytes : ℕ
  diskUsedBytes : ℕ
  diskTotalBytes : ℕ
  totals : Totals
  deriving DecidableEq

structure Stats where
  summary : Summary
  nodes : List NodeStats
  warnings : List String
  deriving DecidableEq

def isOnline (n : NodeStats) : Bool := lowerStatus (some n.status) ∈ ["online", "up"]

/-- `sum((n.get(key) or 0) for n in nodes)` -/
def sumOf (nodes : List NodeStats) (key : NodeStats → Option ℕ) : ℕ :=
  (nodes.map fun n => (key n).getD 0).sum

def summary (nodes : List NodeStats) (totals : Totals) : Summary where
  totalNodes := nodes.length
  onlineNodes := (nodes.filter isOnline).length
  offlineNodes := nodes.length - (nodes.filter isOnline).length
  totalCpuCores := sumOf nodes NodeStats.cpuCount
  memoryUsedBytes := sumOf nodes NodeStats.memoryUsedBytes
  memoryTotalBytes := sumOf nodes NodeStats.memoryTotalBytes
  diskUsedBytes := sumOf nodes NodeStats.diskUsedBytes
  diskTotalBytes := sumOf nodes NodeStats.diskTotalBytes
  totals := totals

/-- `_collect_from_client` -/
def collect (resources : List Resource) : Stats :=
  let nodeResources := resources.filter fun r => r.type = some "node"
  let vmResources := resources.filter fun r => r.type = some "qemu"
  let tally := vmResources.foldl Tally.add ⟨collectNodes .empty nodeResources, {}, []⟩
  let nodes := tally.nodes.entries.mergeSort fun a b => a.name ≤ b.name
  ⟨summary nodes tally.totals, nodes, tally.warnings.dedup.mergeSort fun a b => a ≤ b⟩

end LabGoblin.ResourceStats
