import LabGoblin.Computation.Script
import LabGoblin.Model.Deployment

/-!
# A small deployment

One organization with a platform administrator (user 1), a student (user 2) and an
instructor (user 3), whose class has one active lab run. The student's assignment is linked
to a VM. The states below are the starting points of the concrete runs that later modules
exhibit.
-/

set_option autoImplicit false

namespace LabGoblin

open Interactive

namespace Fixture

/-- Everything but the assignment, the VM record and the operations. -/
def baseDb : Db where
  roles := ⟨[⟨1, .known .admin⟩, ⟨2, .known .student⟩], 3, by decide, by decide⟩
  users := ⟨[⟨1, "a", "a@", 1, true, false⟩, ⟨2, "s", "s@", 2, true, false⟩,
    ⟨3, "i", "i@", 2, true, false⟩], 4, by decide, by decide⟩
  organizations := ⟨[⟨1, "o", true⟩], 2, by decide, by decide⟩
  organizationMemberships := ⟨[⟨1, 1, 2, .student, true⟩, ⟨2, 1, 3, .instructor, true⟩], 3,
    by decide, by decide⟩
  classes := ⟨[⟨1, 1, "c", none, some 3⟩], 2, by decide, by decide⟩
  enrollments := ⟨[⟨1, 1, 2, some .student, true⟩], 2, by decide, by decide⟩
  labs := ⟨[⟨1, 1, 1, "l", none, none, none, 1, ⟨true, true, true, true, true⟩⟩], 2,
    by decide, by decide⟩
  labRuns := ⟨[⟨1, 1, 1, "r", .active, none, none, 1, 3, none, none⟩], 2, by decide, by decide⟩
  labAssignments := Table.empty
  labSetupReceipts := []
  vmTemplates := ⟨[⟨1, 1, some 1, "t", "n", 9000, true⟩], 2, by decide, by decide⟩
  desktopPools := ⟨[⟨1, 1, "p", some 9000, some "n", false, true⟩], 2, by decide, by decide⟩
  proxmoxClusters := ⟨[⟨1, true⟩], 2, by decide, by decide⟩
  proxmoxClusterDefaults := Table.empty
  proxmoxNodes := ⟨[⟨1, 1, "n", some .online, none, none, none, none⟩], 2, by decide, by decide⟩
  studentVms := Table.empty
  vmidAllocators := ⟨[⟨1, 1, 200001⟩], 2, by decide, by decide⟩
  durableOperations := Table.empty

/-- The VM record of the student. -/
def vm : StudentVM :=
  ⟨1, 1, some 1, 2, 1, "v", 200000, "n", .running, none⟩

/-- The base deployment with one assignment of the student and the VM record. -/
def linkedDb (assignment : LabAssignment) (h : assignment.id < 2) : Db :=
  { baseDb with
    labAssignments := ⟨[assignment], 2, by simp, by simpa using h⟩
    studentVms := ⟨[vm], 2, by decide, by decide⟩ }

/-- The assignment, ready and linked to the VM. -/
def readyAssignment : LabAssignment :=
  ⟨1, 1, 1, 2, 1, 1, .ready, some 1, none⟩

/-- The deployment with the assignment ready and linked, at instant 100. -/
def readyStore : Store where
  db := linkedDb readyAssignment (by decide)
  valid := by decide
  clock := 100
  locks := []
  nonce := 0

/-- An operation on the VM, queued by the platform administrator and claimed. -/
def operation (type : OperationType) : DurableOperation where
  id := 1
  organizationId := some 1
  requestedBy := some 1
  operationType := type
  target := .studentVm 1
  idempotencyKey := .uuid 0
  state := .running
  payload := {}
  result := none
  proxmoxUpid := none
  attempts := 1
  leaseOwner := some "w"
  leaseExpiresAt := some 280
  runAfter := some 100
  error := none
  createdAt := 100
  startedAt := some 100
  finishedAt := none

/-- The mutating calls in a log, newest first. -/
def mutations (log : List Entry) : List Call :=
  log.filterMap fun
    | .call _ c _ => if c.mutating then some c else none
    | _ => none

/-- An outside that may answer anything. -/
def anything : Outside Unit where
  answer := fun _ _ _ _ => True

/-- Carrying out scripts in the deployed system with that outside. -/
def player : Player (system {} anything) where
  decEnabled := fun p q t =>
    inferInstanceAs (Decidable (∀ l ∈ q.needs t.store, t.store.FreeFor p l))
  admits := fun _ _ => trivial
  deliver := fun p c t r =>
    { t with log := .reply p c r :: .call p c t.store :: t.log }
  deliver_answer := fun _ _ _ _ => ⟨(), trivial, rfl⟩
  wait := fun n t => { t with store := { t.store with clock := t.store.clock + n } }
  wait_env := fun _ _ => ⟨⟨Nat.le_add_right _ _, rfl, rfl, rfl, rfl, rfl, rfl, rfl, rfl⟩, rfl⟩

/-- Start scripts from a store. -/
def start (s : Store) : Sys Unit := ⟨s, (), []⟩

/-! ## Answers -/

/-- Every task ends well, and the VM is running afterwards. -/
def running : (c : Call) → Except Exc c.Reply
  | .client _ => .ok ()
  | .vmAction _ _ _ _ => .ok (.object (some "U"))
  | .pollTask _ _ _ => .ok ⟨true, .ok, false⟩
  | .getVmStatus _ _ _ => .ok (some .running)
  | _ => .error (.transport "")

/-- No call is answered. -/
def unreachable (c : Call) : Except Exc c.Reply := .error (.transport "")

/-- Proxmox does not list the VM. -/
def absent : (c : Call) → Except Exc c.Reply
  | .client _ => .ok ()
  | .vmResources _ => .ok (.object [("data", .list [])])
  | _ => .error (.transport "")

end Fixture

end LabGoblin
