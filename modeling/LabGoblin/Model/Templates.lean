import LabGoblin.Model.Classroom

/-!
# The template catalog

What `GET /templates` lists: to students the templates of their open assignments, to everybody
else the templates of the organization.
-/

set_option autoImplicit false

namespace LabGoblin

open Interactive

/-- The loop of `list_templates` over the assignments of the student. -/
def openTemplateIds (organizationId : ℕ) : List ℕ → List LabAssignment → Action (List ℕ)
  | assignedIds, [] => return assignedIds
  | assignedIds, assignment :: rest => do
    let s ← select
    match runInOrganization s.db assignment.labRunId organizationId with
    | none => openTemplateIds organizationId assignedIds rest
    | some run => do
      let now ← utcnow
      openTemplateIds organizationId
        (if assignmentEffectivelyOpen assignment run now then assignment.templateId :: assignedIds
        else assignedIds) rest

/-- `list_templates` -/
def listTemplates (userId organizationId : ℕ) (organizationRole : OrganizationRole) :
    Action (List VMTemplate) := do
  let s ← select
  match organizationRole with
  | .student => do
    let assignments := s.db.labAssignments.filter fun a =>
      a.organizationId = organizationId && a.userId = userId && a.status.live
    let assignedIds ← openTemplateIds organizationId [] assignments
    if assignedIds = [] then return []
    else do
      let s ← select
      return s.db.vmTemplates.filter fun t =>
        t.id ∈ assignedIds && t.organizationId = organizationId && t.enabled
  | _ => return s.db.vmTemplates.filter fun t => t.organizationId = organizationId

end LabGoblin
