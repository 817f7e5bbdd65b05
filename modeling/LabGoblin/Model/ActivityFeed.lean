import LabGoblin.Model.Sessions
import Mathlib.Data.List.Sort

/-!
# The activity feed

`list_events` of `api/routers/admin_events.py` and the subscribers of
`telemetry/subscribers.py`, which record the events of the bus as telemetry rows. A time is
a number of microseconds, in place of its ISO text, which is in the same order. The
fields of an item that are always `None` are left out.
-/

set_option autoImplicit false

namespace LabGoblin.Feed

open Interactive
open Sessions (DomainEvent)

/-! ## The tables -/

structure AuditLog where
  id : ℕ
  organizationId : Option ℕ
  action : String
  targetType : String
  targetId : String
  createdAt : Option ℕ
  deriving DecidableEq, Repr

structure StudentVM where
  id : ℕ
  organizationId : ℕ
  deriving DecidableEq, Repr

structure TelemetryEvent where
  id : ℕ
  eventType : String
  severity : String
  source : String
  userId : Option ℤ
  vmId : Option ℤ
  sessionId : Option ℤ
  metadata : Dict
  createdAt : ℕ

structure WorkerRun where
  id : ℕ
  workerName : String
  status : String
  requestId : Option String
  startedAt : ℕ
  deriving DecidableEq, Repr

/-- The tables that the feed is made of, each in the order in which the database reads it. -/
structure Db where
  auditLogs : List AuditLog
  vms : Table StudentVM StudentVM.id
  telemetry : List TelemetryEvent
  workerRuns : List WorkerRun

/-! ## The subscribers -/

/-- `needle in text` -/
def occursIn (needle text : String) : Bool :=
  text.toList.tails.any fun rest => needle.toList.isPrefixOf rest

def severityOf (name : String) : String :=
  if occursIn "FAIL" name then "error"
  else if occursIn "VALIDATION" name then "warning"
  else "info"

/-- The value of a payload that goes to an integer column. -/
def integer : Json → Option ℤ
  | .int n => some n
  | _ => none

/-- The names of the events that `register_subscribers` subscribes to. -/
def subscribed : List String :=
  ["SESSION_STARTED", "SESSION_FAILED", "RECONNECT_ATTEMPT", "RECONNECT_FAILURE",
    "WEBSOCKET_DISCONNECT", "STALE_CLEANUP", "VALIDATION_FAILED"]

/-- The row that the handler of `_inc` records of an event. -/
def recordEvent (event : DomainEvent) (id createdAt : ℕ) : TelemetryEvent where
  id := id
  eventType := event.name
  severity := severityOf event.name
  source := "event_bus"
  userId := integer (Dict.get event.payload "actor_id")
  vmId := integer (Dict.get event.payload "vm_id")
  sessionId := integer (Dict.get event.payload "session_id")
  metadata := event.payload
  createdAt := createdAt

/-! ## The helpers of the router -/

/-- The parts of the environment that the answer depends on: the clock, `ILIKE` of the database, and
`str.lower`. -/
structure Env where
  now : ℕ
  ilike : (text pattern : String) → Bool
  lower : String → String

/-- `safe_str` of a text or `None` -/
def safeStr (value : Option String) (fallback : String := "") : String :=
  match value with
  | none => fallback
  | some text => if text = "" then fallback else text

/-- `safe_int(value) or 'unknown'` -/
def idText (id : ℕ) : String := if id = 0 then "unknown" else toString id

def normalizeSeverity (env : Env) (value : String) : String :=
  let v := env.lower (safeStr (some value) "info")
  if v ∈ ["info", "warning", "error", "task"] then v
  else if v = "warn" then "warning"
  else "info"

def normalizeEventType (env : Env) (value : String) : String :=
  let v := env.lower (safeStr (some value) "system")
  if v ∈ ["desktop", "template", "server", "user", "pool", "system", "task"] then v
  else "system"

structure Item where
  id : String
  time : ℕ
  type : String
  severity : String
  message : String
  relatedObject : Option String
  status : String
  source : String
  deriving DecidableEq, Repr

/-- The query parameters of a request. -/
structure Params where
  type : Option String := none
  severity : Option String := none
  q : Option String := none
  limit : ℤ := 50
  offset : ℤ := 0
  deriving DecidableEq, Repr

structure Answer where
  items : List Item
  total : ℕ
  limit : ℕ
  offset : ℕ
  deriving DecidableEq, Repr

/-- A text parameter that is given and not empty. -/
def given (parameter : Option String) : Option String := parameter.filter (· ≠ "")

/-- Whether one of the columns matches `%q%`, where `q` is given. -/
def matchesQuery (env : Env) (q : Option String) (columns : List String) : Bool :=
  match given q with
  | none => true
  | some q => columns.any fun column => env.ilike column s!"%{q}%"

/-- `order_by(time.desc()).limit(limit)` -/
def latest {α : Type} (time : α → WithTop ℕ) (limit : ℕ) (rows : List α) : List α :=
  (rows.mergeSort fun a b => time b ≤ time a).take limit

def auditItem (env : Env) (a : AuditLog) : Item where
  id := s!"audit-{idText a.id}"
  time := a.createdAt.getD env.now
  type := "system"
  severity := "info"
  message := safeStr (some a.action) "Audit event"
  relatedObject :=
    some (safeStr (some a.targetType) "target" ++ ":" ++ safeStr (some a.targetId) "unknown")
  status := "ok"
  source := "audit_logs"

def telemetryItem (env : Env) (type : Option String) (t : TelemetryEvent) : Item where
  id := s!"tel-{idText t.id}"
  time := t.createdAt
  type := normalizeEventType env ((given type).getD "system")
  severity := normalizeSeverity env t.severity
  message := safeStr (some t.eventType) "Telemetry event"
  relatedObject := (t.vmId.filter (· ≠ 0)).map fun vmId => s!"vm:{vmId}"
  status := "ok"
  source := "telemetry_events"

def workerItem (env : Env) (w : WorkerRun) : Item where
  id := s!"wr-{idText w.id}"
  time := w.startedAt
  type := "task"
  severity :=
    if normalizeSeverity env w.status = "info" then "task" else normalizeSeverity env w.status
  message := safeStr (some w.workerName) (safeStr (some w.status) s!"Worker run {idText w.id}")
  relatedObject := w.requestId.filter (· ≠ "")
  status := safeStr (some w.status) "unknown"
  source := "worker_runs"

/-- `organization_vm_ids` -/
def organizationVmIds (db : Db) (organizationId : ℕ) : List ℤ :=
  (db.vms.filter fun vm => vm.organizationId = organizationId).map fun vm => (vm.id : ℤ)

/-- The telemetry rows that the query scopes to an organization. -/
def visible (db : Db) (organizationId : ℕ) (t : TelemetryEvent) : Bool :=
  match t.vmId with
  | none => true
  | some vmId => vmId ∈ organizationVmIds db organizationId

def auditItems (env : Env) (db : Db) (organizationId : ℕ) (p : Params) (limit : ℕ) :
    List Item :=
  let rows := db.auditLogs.filter fun a => a.organizationId = some organizationId
  let rows := rows.filter fun a => matchesQuery env p.q [a.action, a.targetType]
  (latest (fun a => a.createdAt.elim ⊤ (↑)) limit rows).map (auditItem env)

def telemetryItems (env : Env) (db : Db) (organizationId : ℕ) (p : Params) (limit : ℕ) :
    List Item :=
  let rows := db.telemetry.filter (visible db organizationId)
  let rows := rows.filter fun t => matchesQuery env p.q [t.eventType]
  let rows := rows.filter fun t => (given p.severity).all (t.severity = ·)
  (latest (fun t => t.createdAt) limit rows).map (telemetryItem env p.type)

def workerItems (env : Env) (db : Db) (p : Params) (limit : ℕ) : List Item :=
  let rows := db.workerRuns.filter fun w => matchesQuery env p.q [w.workerName, w.status]
  (latest (fun w => w.startedAt) limit rows).map (workerItem env)

/-- `list_events` -/
def listEvents (env : Env) (db : Db) (organizationId : ℕ) (p : Params) : Answer :=
  let limit := (max 1 (min p.limit 200)).toNat
  let offset := (max 0 p.offset).toNat
  let items := auditItems env db organizationId p limit ++
    telemetryItems env db organizationId p limit ++ workerItems env db p limit
  let items := items.mergeSort fun a b => b.time ≤ a.time
  let items :=
    match given p.type with
    | none => items
    | some type => items.filter (·.type = type)
  ⟨(items.drop offset).take limit, items.length, limit, offset⟩

end LabGoblin.Feed
