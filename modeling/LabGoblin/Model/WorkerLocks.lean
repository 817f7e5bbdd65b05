import Mathlib.Data.List.Basic
import LabGoblin.Computation.Guarded
import LabGoblin.Model.Text

/-!
# Locks of the workers

A worker runs only if it acquires the lock of its name, and releases it when it ends. A holder is
one such run. It is a thread of a process, and a process has one lock store: a dictionary of its
own, or a connection to a Redis server together with the tokens that the process remembers.

Where a call is not atomic its holder is in between, and every other holder can go on. Instants
are whole seconds.
-/

set_option autoImplicit false

namespace LabGoblin.WorkerLocks

/-! ## The store in memory -/

/-- `InMemoryWorkerLockStore` -/
structure InMemoryWorkerLockStore where
  entries : List (Text × ℕ) := []

namespace InMemoryWorkerLockStore

/-- `acquire`, when `now` has been read. -/
def acquire (store : InMemoryWorkerLockStore) (name : Text) (ttlSeconds now : ℕ) :
    Bool × InMemoryWorkerLockStore :=
  let entries := store.entries.filter fun entry => now ≤ entry.2
  if name ∈ entries.map Prod.fst then (false, { entries })
  else (true, { entries := (name, now + ttlSeconds) :: entries })

/-- `release` -/
def release (store : InMemoryWorkerLockStore) (name : Text) : InMemoryWorkerLockStore where
  entries := store.entries.filter fun entry => entry.1 ≠ name

end InMemoryWorkerLockStore

/-- What a holder is about to do. -/
inductive MemoryPhase where
  | idle
  /-- `acquire` has read the clock and waits for the mutex. -/
  | reading (now : ℕ)
  | holding (name : Text) (limit : ℕ)
  deriving DecidableEq

/-- The holders `H` of the processes `P`. -/
structure MemorySystem (P H : Type) where
  clock : ℕ := 0
  stores : P → InMemoryWorkerLockStore := fun _ => {}
  phase : H → MemoryPhase := fun _ => .idle

inductive MemoryAction (H : Type) where
  | wait (seconds : ℕ)
  | readClock (h : H)
  | acquire (h : H) (name : Text) (ttlSeconds : ℕ)
  | release (h : H)

/-- The holder that acts, if one does. -/
def MemoryAction.actor {H : Type} : MemoryAction H → Option H
  | .wait _ => none
  | .readClock h => some h
  | .acquire h _ _ => some h
  | .release h => some h

section Memory

variable {P H : Type} [DecidableEq P] [DecidableEq H] (process : H → P)

def MemorySystem.step (s : MemorySystem P H) : MemoryAction H → Option (MemorySystem P H)
  | .wait seconds => some { s with clock := s.clock + seconds }
  | .readClock h =>
    match s.phase h with
    | .idle => some { s with phase := Function.update s.phase h (.reading s.clock) }
    | _ => none
  | .acquire h name ttlSeconds =>
    match s.phase h with
    | .reading now =>
      let acquired := (s.stores (process h)).acquire name ttlSeconds now
      some { s with
        stores := Function.update s.stores (process h) acquired.2
        phase := Function.update s.phase h
          (if acquired.1 then .holding name (now + ttlSeconds) else .idle) }
    | _ => none
  | .release h =>
    match s.phase h with
    | .holding name _ =>
      some { s with
        stores := Function.update s.stores (process h) ((s.stores (process h)).release name)
        phase := Function.update s.phase h .idle }
    | _ => none

end Memory

/-! ## The store in Redis -/

/-- The keys of a Redis server, each with its value and the instant at which it expires. -/
structure RedisServer (T : Type) where
  keys : Text → Option (T × ℕ) := fun _ => none

namespace RedisServer

variable {T : Type}

/-- `GET` -/
def get (server : RedisServer T) (now : ℕ) (key : Text) : Option T :=
  match server.keys key with
  | some (value, expires) => if now ≤ expires then some value else none
  | none => none

/-- `SET … NX EX` -/
def setNx (server : RedisServer T) (now : ℕ) (key : Text) (value : T) (seconds : ℕ) :
    Bool × RedisServer T :=
  match server.get now key with
  | some _ => (false, server)
  | none => (true, { keys := Function.update server.keys key (some (value, now + seconds)) })

/-- The script of `release`. -/
def deleteIfEqual [DecidableEq T] (server : RedisServer T) (now : ℕ) (key : Text) (value : T) :
    RedisServer T :=
  if server.get now key = some value then { keys := Function.update server.keys key none }
  else server

end RedisServer

/-- The key of a lock. -/
def lockKey (name : Text) : Text := "plp:worker-lock:".toList ++ name

/-- What a holder is about to do. -/
inductive RedisPhase (T : Type) where
  | idle
  /-- The server has set the token, and the process is about to remember it. -/
  | recording (name : Text) (token : T) (limit : ℕ)
  | holding (name : Text) (token : T) (limit : ℕ)
  /-- The process has forgotten the token, and the script is about to be run with it. -/
  | releasing (name : Text) (token : T)
  deriving DecidableEq

/-- The holders `H` of the processes `P`, and one server. `tokens` has what each process remembers
in `_tokens`; `drawn` are the tokens that have been generated so far. -/
structure RedisSystem (P H T : Type) where
  clock : ℕ := 0
  server : RedisServer T := {}
  tokens : P → Text → Option T := fun _ _ => none
  phase : H → RedisPhase T := fun _ => .idle
  drawn : List T := []

inductive RedisAction (H T : Type) where
  | wait (seconds : ℕ)
  /-- `acquire` up to the answer of the server. -/
  | set (h : H) (name : Text) (token : T) (ttlSeconds : ℕ)
  /-- The rest of `acquire`. -/
  | remember (h : H)
  /-- `release` up to the script. -/
  | forget (h : H)
  /-- The script. -/
  | eval (h : H)

section Redis

variable {P H T : Type} [DecidableEq P] [DecidableEq H] [DecidableEq T] (process : H → P)

/-- A token that is generated has not been generated before. -/
def RedisSystem.step (s : RedisSystem P H T) : RedisAction H T → Option (RedisSystem P H T)
  | .wait seconds => some { s with clock := s.clock + seconds }
  | .set h name token ttlSeconds =>
    match s.phase h with
    | .idle =>
      if token ∈ s.drawn then none
      else
        let acquired := s.server.setNx s.clock (lockKey name) token ttlSeconds
        some { s with
          server := acquired.2
          phase := Function.update s.phase h
            (if acquired.1 then .recording name token (s.clock + ttlSeconds) else .idle)
          drawn := token :: s.drawn }
    | _ => none
  | .remember h =>
    match s.phase h with
    | .recording name token limit =>
      some { s with
        tokens := Function.update s.tokens (process h)
          (Function.update (s.tokens (process h)) name (some token))
        phase := Function.update s.phase h (.holding name token limit) }
    | _ => none
  | .forget h =>
    match s.phase h with
    | .holding name _ _ =>
      some { s with
        tokens := Function.update s.tokens (process h)
          (Function.update (s.tokens (process h)) name none)
        phase := Function.update s.phase h
          (match s.tokens (process h) name with
          | some token => .releasing name token
          | none => .idle) }
    | _ => none
  | .eval h =>
    match s.phase h with
    | .releasing name token =>
      some { s with
        server := s.server.deleteIfEqual s.clock (lockKey name) token
        phase := Function.update s.phase h .idle }
    | _ => none

end Redis

end LabGoblin.WorkerLocks
