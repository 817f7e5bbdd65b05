import LabGoblin.Model.Json
import Mathlib.Data.Finset.Basic
import Mathlib.Logic.Function.Basic

/-!
# The live event stream

`EventStream` of `telemetry/event_stream.py` and the generator `gen` of `events_stream` in
`api/routers/admin_events.py`, which sends the events of one organization to one client. A
queue is named by a number, which is also the name of the generator that subscribed it. The
generator gives up control only where it awaits or yields, so every action below is atomic.
-/

set_option autoImplicit false

namespace LabGoblin.Events

/-! ## The stream -/

/-- `maxsize` of the queues that `subscribe` makes. -/
def maxsize : ℕ := 100

/-- `put_nowait`, which raises `QueueFull` at the bound. -/
def putNowait (queue : List Dict) (event : Dict) : Option (List Dict) :=
  if queue.length < maxsize then some (queue ++ [event]) else none

/-- `_subs` and the queues that exist. -/
structure EventStream where
  subs : Finset ℕ
  queues : ℕ → List Dict

namespace EventStream

def subscribe (s : EventStream) (q : ℕ) : EventStream where
  subs := insert q s.subs
  queues := Function.update s.queues q []

def unsubscribe (s : EventStream) (q : ℕ) : EventStream :=
  { s with subs := s.subs.erase q }

def publish (s : EventStream) (event : Dict) : EventStream :=
  let dead := s.subs.filter fun q => (putNowait (s.queues q) event).isNone
  { subs := s.subs \ dead
    queues := fun q =>
      if q ∈ s.subs then (putNowait (s.queues q) event).getD (s.queues q) else s.queues q }

end EventStream

/-! ## The generators -/

/-- What a generator yields: a packed event, or the heartbeat. -/
inductive Output where
  | event (evt : Dict)
  | heartbeat

/-- Where a generator is suspended: before a turn of its loop, in `wait_for`, at a `yield`, or
past its `finally`. -/
inductive Phase where
  | looping
  | waiting
  | yielded
  | ended
  deriving DecidableEq, Repr

structure Gen where
  organizationId : ℕ
  lastRevalidation : ℚ := 0
  phase : Phase := .looping
  sent : List Output := []

/-- `safe_int` -/
def safeInt (value : Json) : Option ℤ := value.toInt.toOption

/-- The event is of the organization. -/
def ofOrganization (organizationId : ℕ) (evt : Dict) : Bool :=
  safeInt (Dict.get evt "organization_id") = some (organizationId : ℤ)

/-- A turn of the loop up to `wait_for`: what `loop.time()`, `is_disconnected` and, when it is
asked, `_sse_access_allowed` answer. The last may also raise. -/
def Gen.turn (g : Gen) (now : ℚ) (disconnected : Bool) (allowed : Except Unit Bool) : Gen :=
  if disconnected then { g with phase := .ended }
  else if now - g.lastRevalidation ≥ 10 then
    match allowed with
    | .ok true => { g with lastRevalidation := now, phase := .waiting }
    | _ => { g with phase := .ended }
  else { g with phase := .waiting }

/-- `wait_for` returns an event. -/
def Gen.receive (g : Gen) (evt : Dict) : Gen :=
  if ofOrganization g.organizationId evt then
    { g with phase := .yielded, sent := g.sent ++ [.event evt] }
  else { g with phase := .looping }

/-- `wait_for` raises `TimeoutError`. -/
def Gen.timeout (g : Gen) : Gen :=
  { g with phase := .yielded, sent := g.sent ++ [.heartbeat] }

/-! ## Runs -/

/-- The stream and the generators. `due` is history: for every generator the events that were
published since it subscribed at moments at which its queue had room. -/
structure World where
  stream : EventStream
  gens : ℕ → Option Gen
  due : ℕ → List Dict

def World.init : World where
  stream := ⟨∅, fun _ => []⟩
  gens := fun _ => none
  due := fun _ => []

/-- What can happen next. A generator may be closed wherever it is suspended. -/
inductive Action where
  | subscribe (q organizationId : ℕ)
  | publish (event : Dict)
  | turn (q : ℕ) (now : ℚ) (disconnected : Bool) (allowed : Except Unit Bool)
  | get (q : ℕ)
  | timeout (q : ℕ)
  | resume (q : ℕ)
  | close (q : ℕ)

namespace World

/-- The generator goes on as `g`. Its `finally` unsubscribes when it ends. -/
def setGen (w : World) (q : ℕ) (g : Gen) : World :=
  { w with
    stream := if g.phase = .ended then w.stream.unsubscribe q else w.stream
    gens := Function.update w.gens q (some g) }

/-- What is left in the queue after `get`. -/
def setQueue (w : World) (q : ℕ) (queue : List Dict) : World :=
  { w with stream := { w.stream with queues := Function.update w.stream.queues q queue } }

/-- The generator that is suspended there. -/
def genAt (w : World) (q : ℕ) (phase : Phase) : Option Gen :=
  (w.gens q).filter (·.phase = phase)

/-- A new generator subscribes. -/
def subscribe (w : World) (q organizationId : ℕ) : World where
  stream := w.stream.subscribe q
  gens := Function.update w.gens q (some { organizationId })
  due := Function.update w.due q []

def publish (w : World) (event : Dict) : World :=
  { w with
    stream := w.stream.publish event
    due := fun q =>
      if (w.stream.queues q).length < maxsize then w.due q ++ [event] else w.due q }

def step (w : World) : Action → Option World
  | .subscribe q organizationId =>
    if w.gens q = none then some (w.subscribe q organizationId) else none
  | .publish event => some (w.publish event)
  | .turn q now disconnected allowed =>
    (w.genAt q .looping).map fun g => w.setGen q (g.turn now disconnected allowed)
  | .get q =>
    match w.genAt q .waiting, w.stream.queues q with
    | some g, evt :: queue => some ((w.setQueue q queue).setGen q (g.receive evt))
    | _, _ => none
  | .timeout q => (w.genAt q .waiting).map fun g => w.setGen q g.timeout
  | .resume q => (w.genAt q .yielded).map fun g => w.setGen q { g with phase := .looping }
  | .close q => ((w.gens q).filter (·.phase ≠ .ended)).map fun g =>
    w.setGen q { g with phase := .ended }

/-- The state after a sequence of actions that are possible one after the other. -/
def run (w : World) (actions : List Action) : Option World :=
  actions.foldlM World.step w

end World

end LabGoblin.Events
