import LabGoblin.Computation.Index
import LabGoblin.Model.Json
import Mathlib.Data.String.Basic

/-!
# Asset readiness

`_compute_asset_constraints` of `api/routers/admin_proxmox_setup.py`. A row is a dictionary of
any values. `repr` is the text that Python makes of a float, a list or an object.
-/

set_option autoImplicit false

namespace LabGoblin.Readiness

open Interactive

variable (repr : Json → String)

/-- The body of the loop over the templates. -/
def addTemplate (templateByVmid : Index ℤ String) (t : Dict) : Index ℤ String :=
  let node := Dict.get t "node"
  match Dict.get t "vmid" with
  | .null => templateByVmid
  | vmid =>
    if !node.truthy then templateByVmid
    else match vmid.toInt with
      | .error _ => templateByVmid
      | .ok ivmid => templateByVmid.add ivmid (node.str repr)

/-- The two dictionaries that the loop over the ISO items fills. -/
structure IsoIndexes where
  isoByContent : Index String String := ∅
  isoByNode : Index String String := ∅

/-- `i.get("content_id") or i.get("name")` -/
def isoKey (i : Dict) : Json :=
  if (Dict.get i "content_id").truthy then Dict.get i "content_id" else Dict.get i "name"

/-- The body of the loop over the ISO items. -/
def IsoIndexes.addIso (indexes : IsoIndexes) (i : Dict) : IsoIndexes :=
  let node := Dict.get i "node"
  let key := isoKey i
  if !node.truthy || !key.truthy then indexes
  else
    { isoByContent := indexes.isoByContent.add (key.str repr) (node.str repr)
      isoByNode := indexes.isoByNode.add (node.str repr) (key.str repr) }

structure Constraints where
  templateByVmid : Index ℤ String
  isoByContent : Index String String
  assetReadyNodes : List String
  constrainedNodes : List String
  missingTemplatesByNode : Finmap fun _ : String => List ℤ
  missingIsosByNode : Finmap fun _ : String => List String

/-- The nodes that have to hold every asset. -/
def requiredNodes (onlineNodes eligibleNodes : Finset String) (placementPolicy : Option String) :
    Finset String :=
  if placementPolicy ∈ [some "balanced", some "prefer_default_then_balance"] ∧
      1 < onlineNodes.card then onlineNodes
  else eligibleNodes

/-- `sorted` -/
def sorted {α : Type} [LinearOrder α] (s : Finset α) : List α := s.sort

/-- The template identifiers that a node lacks. -/
def missingTemplates (templateByVmid : Index ℤ String) (node : String) : List ℤ :=
  sorted (templateByVmid.lacking node)

/-- The ISO keys that a node lacks. -/
def missingIsos (indexes : IsoIndexes) (node : String) : List String :=
  let allIsos := indexes.isoByContent.keys
  let nodeIsos := indexes.isoByNode.values node
  if allIsos = ∅ then [] else sorted (allIsos.filter fun iso => iso ∉ nodeIsos)

/-- `_compute_asset_constraints` -/
def computeAssetConstraints (onlineNodes eligibleNodes : Finset String)
    (templates isoItems : List Dict) (placementPolicy : Option String) : Constraints :=
  let templateByVmid := templates.foldl (addTemplate repr) ∅
  let isos := isoItems.foldl (IsoIndexes.addIso repr) {}
  let required := requiredNodes onlineNodes eligibleNodes placementPolicy
  let missingTemplatesByNode := reports (missingTemplates templateByVmid) (sorted required)
  let missingIsosByNode := reports (missingIsos isos) (sorted required)
  let assetReadyNodes := sorted (required.filter fun node =>
    node ∉ missingTemplatesByNode ∧ node ∉ missingIsosByNode)
  { templateByVmid
    isoByContent := isos.isoByContent
    assetReadyNodes
    constrainedNodes := sorted (required.filter (· ∉ assetReadyNodes))
    missingTemplatesByNode
    missingIsosByNode }

end LabGoblin.Readiness
