import LabGoblin.Analysis.Alone
import LabGoblin.Analysis.Fixture

/-!
# Which VMs a user sees

The list of VMs, the lookup of one VM and the lookup for its console scope the VM records in
three ways. They select the same records in every context that a request can have.
-/

set_option autoImplicit false

namespace LabGoblin

open Interactive

variable {H : Type} {outside : Outside H} {p : Pid}

/-! ## The two lookups -/

/-- Only platform administrators get a break-glass context, and they get it as owners. -/
theorem resolveOrganizationContext_breakGlass {db : Db} {user : User} {requested : Option ℕ}
    {organization : OrganizationContext}
    (h : resolveOrganizationContext db user requested = .ok organization)
    (hglass : organization.breakGlass = true) : organization.role = .owner := by
  unfold resolveOrganizationContext at h
  cases requested with
  | none =>
    simp only at h
    split at h
    · cases h
      cases hglass
    · cases h
    · split at h <;> cases h
  | some id =>
    simp only at h
    split at h
    · cases h
    · split at h
      · cases h
        rfl
      · split at h
        · cases h
        · cases h
          cases hglass

namespace Fixture

/-- The student of the deployment. -/
def student : User := ⟨2, "s", "s@", 2, true, false⟩

end Fixture

end LabGoblin
