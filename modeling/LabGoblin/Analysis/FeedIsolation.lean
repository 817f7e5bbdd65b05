import LabGoblin.Analysis.SessionRaces
import LabGoblin.Model.ActivityFeed

/-!
# Who sees what in the activity feed

The feed of an organization shows the telemetry of its machines, and all telemetry that is of no
machine. So what other organizations do with their sessions stays out of it exactly when every
event that they publish and that is recorded names a machine. Reconnect attempts, reconnect
failures and stale cleanups name none.
-/

set_option autoImplicit false

namespace LabGoblin.Feed

open Interactive
open Sessions (DomainEvent VMSession PublishedAbout)

/-! ## The events of session activity -/

/-- Every event that any run of the session service publishes is about a session. -/
theorem publishedAbout_of_reach {σ : Type} {d : Sessions.Deployment σ} {t : Sessions.State σ}
    {w : World (Sessions.signature σ) (Sessions.State σ)}
    (hr : World.Reach (Sessions.system d) (World.idle t) w) (ht : t.events = []) :
    ∀ event ∈ w.shared.events, ∃ s, PublishedAbout s event :=
  Sessions.events_of_reach hr fun event hevent => by
    rw [ht] at hevent
    cases hevent

/-- The event is recorded as a telemetry row. -/
def Recorded (event : DomainEvent) : Prop := event.name ∈ subscribed

/-- The event names a machine. -/
def NamesMachine (event : DomainEvent) : Prop :=
  (integer (Dict.get event.payload "vm_id")).isSome = true

/-- The telemetry rows that the session activity of other organizations records, where their
events are among `activity`. -/
def Foreign (db : Db) (organizationId : ℕ) (activity : DomainEvent → Prop)
    (row : TelemetryEvent) : Prop :=
  ∃ (s : VMSession) (event : DomainEvent), s.organizationId ≠ organizationId ∧
    (∀ vm ∈ db.vms.rows, vm.id = s.vmId → vm.organizationId = s.organizationId) ∧
    PublishedAbout s event ∧ activity event ∧ Recorded event ∧
    ∃ id createdAt, row = recordEvent event id createdAt

/-- `rows` are the rows of `own` in their order, and others of which `other` holds. -/
inductive Interleaved {α : Type} (other : α → Prop) : List α → List α → Prop
  | nil : Interleaved other [] []
  | own (row : α) {own rows : List α} (h : Interleaved other own rows) :
      Interleaved other (row :: own) (row :: rows)
  | other (row : α) {own rows : List α} (hrow : other row) (h : Interleaved other own rows) :
      Interleaved other own (row :: rows)

/-- The states agree on everything that is of the organization, and on the worker runs. They may
differ in the machines and audit logs of others, and in the telemetry of their sessions. -/
structure Agree (organizationId : ℕ) (activity : DomainEvent → Prop) (db db' : Db) : Prop where
  auditLogs : db.auditLogs.filter (·.organizationId = some organizationId) =
    db'.auditLogs.filter (·.organizationId = some organizationId)
  vms : db.vms.filter (·.organizationId = organizationId) =
    db'.vms.filter (·.organizationId = organizationId)
  workerRuns : db.workerRuns = db'.workerRuns
  telemetry : ∃ own, Interleaved (Foreign db organizationId activity) own db.telemetry ∧
    Interleaved (Foreign db' organizationId activity) own db'.telemetry

/-- The feed of the organization does not depend on that activity of others. -/
def Isolated (organizationId : ℕ) (activity : DomainEvent → Prop) : Prop :=
  ∀ (env : Env) (db db' : Db), Agree organizationId activity db db' →
    ∀ p, listEvents env db organizationId p = listEvents env db' organizationId p

/-! ## What the query sees of foreign rows -/

/-- A filter that lets no foreign row through sees the own rows only. -/
theorem Interleaved.filter_eq {α : Type} {other : α → Prop} {own rows : List α}
    (h : Interleaved other own rows) {p : α → Bool} (hp : ∀ row, other row → p row = false) :
    rows.filter p = own.filter p := by
  induction h with
  | nil => rfl
  | own row _ ih => rw [List.filter_cons, List.filter_cons, ih]
  | other row hrow _ ih => rw [List.filter_cons, hp row hrow, ih]; rfl

variable {organizationId : ℕ} {activity : DomainEvent → Prop} {db db' : Db}

/-- The VMs of an organization are those whose records have it. -/
theorem mem_organizationVmIds {vmId : ℤ} : vmId ∈ organizationVmIds db organizationId ↔
    ∃ vm ∈ db.vms.rows, vm.organizationId = organizationId ∧ (vm.id : ℤ) = vmId := by
  unfold organizationVmIds
  rw [List.mem_map]
  constructor
  · rintro ⟨vm, hvm, hid⟩
    obtain ⟨hmem, horg⟩ := List.mem_filter.mp hvm
    exact ⟨vm, hmem, of_decide_eq_true horg, hid⟩
  · rintro ⟨vm, hmem, horg, hid⟩
    exact ⟨vm, List.mem_filter.mpr ⟨hmem, decide_eq_true horg⟩, hid⟩

/-- The machine that an event about a session names is the machine of the session. -/
theorem machine_of_publishedAbout {s : VMSession} {event : DomainEvent}
    (h : PublishedAbout s event) (hnames : NamesMachine event) :
    integer (Dict.get event.payload "vm_id") = some (s.vmId : ℤ) := by
  cases h with
  | created => rfl
  | started => rfl
  | expired => rfl
  | attempt => cases hnames
  | failure => cases hnames
  | success => cases hnames
  | cleanup count => cases hnames

/-- A foreign row that names a machine is not scoped to the organization. -/
theorem visible_of_foreign (hnames : ∀ s event, s.organizationId ≠ organizationId →
      PublishedAbout s event → activity event → Recorded event → NamesMachine event)
    {row : TelemetryEvent} (h : Foreign db organizationId activity row) :
    visible db organizationId row = false := by
  obtain ⟨s, event, hother, hvm, habout, hactivity, hrecorded, id, createdAt, rfl⟩ := h
  have hnamed := hnames s event hother habout hactivity hrecorded
  have hvmId := machine_of_publishedAbout habout hnamed
  have hnotMem : (s.vmId : ℤ) ∉ organizationVmIds db organizationId := by
    intro hmem
    obtain ⟨vm, hrow, horg, hid⟩ := mem_organizationVmIds.mp hmem
    have hsame := hvm vm hrow (Int.ofNat.inj hid)
    exact hother (hsame.symm.trans horg)
  have hrow : (recordEvent event id createdAt).vmId = some (s.vmId : ℤ) := hvmId
  unfold visible
  rw [hrow]
  exact decide_eq_false hnotMem

/-- What the organization sees of telemetry is in both states what they agree on. -/
theorem Agree.visible_eq (h : Agree organizationId activity db db')
    (hnames : ∀ s event, s.organizationId ≠ organizationId →
      PublishedAbout s event → activity event → Recorded event → NamesMachine event) :
    db.telemetry.filter (visible db organizationId) =
      db'.telemetry.filter (visible db' organizationId) := by
  obtain ⟨own, hown, hown'⟩ := h.telemetry
  have hsame : visible db organizationId = visible db' organizationId := by
    funext row
    unfold visible organizationVmIds
    rw [h.vms]
  rw [hown.filter_eq fun _ => visible_of_foreign hnames,
    hown'.filter_eq fun _ => visible_of_foreign hnames, hsame]

/-- The answer is made of the audit logs of the organization, the telemetry it sees and the worker
runs. -/
theorem listEvents_congr {env : Env}
    (hlogs : db.auditLogs.filter (·.organizationId = some organizationId) =
      db'.auditLogs.filter (·.organizationId = some organizationId))
    (htelemetry : db.telemetry.filter (visible db organizationId) =
      db'.telemetry.filter (visible db' organizationId))
    (hruns : db.workerRuns = db'.workerRuns) (p : Params) :
    listEvents env db organizationId p = listEvents env db' organizationId p := by
  unfold listEvents auditItems telemetryItems workerItems
  rw [hlogs, htelemetry, hruns]

/-! ## The result -/

/-- The state with no row, and with one telemetry row. -/
def empty : Db := ⟨[], Table.empty, [], []⟩

def withRow (row : TelemetryEvent) : Db := { empty with telemetry := [row] }

/-- Without events the total is zero. -/
theorem total_empty {env : Env} : (listEvents env empty organizationId {}).total = 0 := by
  simp [listEvents, auditItems, telemetryItems, workerItems, empty, latest, given]

/-- A row that names no machine is in the feed of every organization. -/
theorem total_withRow {env : Env} {row : TelemetryEvent} (h : row.vmId = none) :
    (listEvents env (withRow row) organizationId {}).total = 1 := by
  have hquery : matchesQuery env none [row.eventType] = true := rfl
  simp [listEvents, auditItems, telemetryItems, workerItems, withRow, empty, latest, given,
    hquery, h, visible]

/-- The feed of an organization is isolated from an activity of others exactly when every event of
it that is recorded names a machine. -/
theorem isolated_iff (organizationId : ℕ) (activity : DomainEvent → Prop) :
    Isolated organizationId activity ↔
      ∀ s event, s.organizationId ≠ organizationId → PublishedAbout s event → activity event →
        Recorded event → NamesMachine event := by
  constructor
  · intro h s event hother habout hactivity hrecorded
    by_contra hnot
    have hmachine : (recordEvent event 1 0).vmId = none :=
      Option.not_isSome_iff_eq_none.mp hnot
    have hforeign : Foreign (withRow (recordEvent event 1 0)) organizationId activity
        (recordEvent event 1 0) :=
      ⟨s, event, hother, fun vm hvm => absurd hvm List.not_mem_nil, habout, hactivity, hrecorded,
        1, 0, rfl⟩
    have hagree : Agree organizationId activity (withRow (recordEvent event 1 0)) empty :=
      ⟨rfl, rfl, rfl, [], .other _ hforeign .nil, .nil⟩
    have hequal := h ⟨0, fun _ _ => true, fun text => text⟩ _ _ hagree {}
    have htotal := congrArg Answer.total hequal
    rw [total_withRow hmachine, total_empty] at htotal
    cases htotal
  · intro hnames env db db' hagree p
    exact listEvents_congr hagree.auditLogs (hagree.visible_eq hnames) hagree.workerRuns p

/-! ### A reconnect attempt in another organization -/

namespace Attempt

def session : VMSession where
  id := 1
  organizationId := 2
  userId := 1
  vmId := 1
  protocol := "ssh"
  state := .disconnected
  createdAt := 0
  updatedAt := 0

/-- An event without a VM is shown to every organization. -/
theorem not_isolated : ¬ Isolated 1 fun _ => True := by
  intro h
  have hrecorded : Recorded (Sessions.reconnectAttempt session) := by
    unfold Recorded
    decide
  have hnames := (isolated_iff 1 _).mp h session (Sessions.reconnectAttempt session) (by decide)
    .attempt trivial hrecorded
  cases hnames

end Attempt

end LabGoblin.Feed
