import LabGoblin.Computation.Fresh
import LabGoblin.Model.Numerals

/-!
# The template catalog

`sync_templates` of `api/routers/admin_proxmox_setup.py` on the catalog of one organization, which
it has locked. A flush raises where a value does not fit its column; the transaction is rolled
back then.
-/

set_option autoImplicit false

namespace LabGoblin.TemplateSync

open Interactive LabGoblin.Text

/-- A row of `vm_templates`. -/
structure VMTemplate where
  id : ℕ
  organizationId : ℕ
  proxmoxClusterId : Option ℕ
  name : Text
  proxmoxNode : Text
  sourceVmid : ℤ
  enabled : Bool
  deriving DecidableEq

/-- A row of `discover_templates`: its `vmid` as `int` reads it, if it does, and the text of its
`name`. -/
structure DiscoveredTemplate where
  vmid : Option ℤ
  node : Text
  name : Option Text := none
  deriving DecidableEq

inductive SyncError where
  /-- `int(t["vmid"])` raises. -/
  | noVmid
  /-- `source_vmid` is outside the range of its column. -/
  | vmidOutOfRange
  /-- `proxmox_node` is too long for its column. -/
  | nodeTooLong
  /-- `name` is too long for its column. -/
  | nameTooLong
  /-- `uq_vm_templates_organization_name` -/
  | duplicateName
  /-- The primary keys have run out. -/
  | noId
  /-- The loop over the names does not end. -/
  | endless
  deriving DecidableEq

/-- `Integer` -/
def maxInteger : ℕ := 2 ^ 31

/-- The length of `name`. -/
def nameLength : ℕ := 100

/-- The length of `proxmox_node`. -/
def nodeLength : ℕ := 50

/-- What a flush of an inserted or changed row checks, with the names of the other rows. -/
def flush (others : List Text) (row : VMTemplate) : Except SyncError Unit :=
  if maxInteger ≤ row.id then .error .noId
  else if row.sourceVmid < -maxInteger ∨ maxInteger ≤ row.sourceVmid then .error .vmidOutOfRange
  else if nodeLength < row.proxmoxNode.length then .error .nodeTooLong
  else if nameLength < row.name.length then .error .nameTooLong
  else if row.name ∈ others then .error .duplicateName
  else .ok ()

/-- `s[:k]` -/
def sliceTo (s : Text) (k : ℤ) : Text :=
  s.take (if 0 ≤ k then k.toNat else (s.length + k).toNat)

/-- `f"-{active.id}-{vmid}-{suffix}"` -/
def ending (activeId : ℕ) (vmid : ℤ) (suffix : ℕ) : Text :=
  '-' :: str activeId ++ '-' :: str vmid ++ '-' :: str suffix

/-- `str(t.get("name") or f"template-{vmid}")[:100]` -/
def baseName (t : DiscoveredTemplate) (vmid : ℤ) : Text :=
  ((t.name.filter fun name => name ≠ []).getD ("template-".toList ++ str vmid)).take nameLength

/-- The name that the loop tries with a suffix; it starts without one. -/
def candidate (activeId : ℕ) (base : Text) (vmid : ℤ) : ℕ → Text
  | 0 => base
  | n + 1 =>
    let ending := ending activeId vmid (n + 1)
    sliceTo base (nameLength - ending.length) ++ ending

/-- The catalog as the loop knows it: its rows, the set of their names, and the next primary key
of the table. -/
structure State where
  catalog : List VMTemplate
  names : List Text
  nextId : ℕ
  deriving DecidableEq

/-- The row is the template's on the cluster. -/
def isRow (activeId : ℕ) (vmid : ℤ) (item : VMTemplate) : Bool :=
  item.proxmoxClusterId = some activeId && item.sourceVmid = vmid

/-- The row was imported for the template before rows had a cluster. -/
def isLegacy (vmid : ℤ) (node : Text) (item : VMTemplate) : Bool :=
  item.proxmoxClusterId = none && item.sourceVmid = vmid && item.proxmoxNode = node

/-- `legacy[0]` if there is exactly one, with the cluster. -/
def adopt (activeId : ℕ) (vmid : ℤ) (node : Text) (catalog : List VMTemplate) :
    Option VMTemplate :=
  match catalog.filter (isLegacy vmid node) with
  | [row] => some { row with proxmoxClusterId := some activeId }
  | _ => none

/-- The row of the template that is there already. -/
def existing (activeId : ℕ) (vmid : ℤ) (node : Text) (catalog : List VMTemplate) :
    Option VMTemplate :=
  match catalog.find? (isRow activeId vmid) with
  | some row => some row
  | none => adopt activeId vmid node catalog

/-- A changed row in its place. -/
def put (row : VMTemplate) (catalog : List VMTemplate) : List VMTemplate :=
  catalog.map fun item => if item.id = row.id then row else item

/-- `while name in names` -/
def freshName (activeId : ℕ) (base : Text) (vmid : ℤ) (names : List Text) :
    Except SyncError Text :=
  match Fresh.search (candidate activeId base vmid) names (names.length + 2) 0 with
  | some name => .ok name
  | none => .error .endless

/-- The row of a template that is new. -/
def newRow (organizationId activeId : ℕ) (t : DiscoveredTemplate) (vmid : ℤ) (s : State) :
    Except SyncError VMTemplate := do
  let name ← freshName activeId (baseName t vmid) vmid s.names
  return {
    id := s.nextId
    organizationId := organizationId
    proxmoxClusterId := some activeId
    name := name
    proxmoxNode := t.node
    sourceVmid := vmid
    enabled := true }

/-- The names of the rows but one. -/
def otherNames (id : ℕ) (catalog : List VMTemplate) : List Text :=
  (catalog.filter fun item => item.id ≠ id).map VMTemplate.name

/-- `int(t["vmid"])` -/
def readVmid (t : DiscoveredTemplate) : Except SyncError ℤ :=
  match t.vmid with
  | some vmid => .ok vmid
  | none => .error .noVmid

/-- One round of the loop, with the row that it reports as imported. -/
def importOne (organizationId activeId : ℕ) (s : State) (t : DiscoveredTemplate) :
    Except SyncError (State × VMTemplate) := do
  let vmid ← readVmid t
  match existing activeId vmid t.node s.catalog with
  | some found => do
    let row := { found with proxmoxNode := t.node }
    flush (otherNames row.id s.catalog) row
    return ({ s with catalog := put row s.catalog }, row)
  | none => do
    let row ← newRow organizationId activeId t vmid s
    flush (s.catalog.map VMTemplate.name) row
    return (⟨s.catalog ++ [row], row.name :: s.names, s.nextId + 1⟩, row)

/-- `for t in discovered` -/
def importAll (organizationId activeId : ℕ) :
    State → List DiscoveredTemplate → Except SyncError (State × List VMTemplate)
  | s, [] => .ok (s, [])
  | s, t :: ts => do
    let (s, row) ← importOne organizationId activeId s t
    let (s, rows) ← importAll organizationId activeId s ts
    return (s, row :: rows)

/-- `sync_templates` after its queries: the catalog that is committed, the next primary key, and
the imported rows. -/
def syncTemplates (organizationId activeId : ℕ) (catalog : List VMTemplate) (nextId : ℕ)
    (discovered : List DiscoveredTemplate) :
    Except SyncError (List VMTemplate × ℕ × List VMTemplate) := do
  let (s, imported) ← importAll organizationId activeId
    ⟨catalog, catalog.map VMTemplate.name, nextId⟩ discovered
  return (s.catalog, s.nextId, imported)

end LabGoblin.TemplateSync
