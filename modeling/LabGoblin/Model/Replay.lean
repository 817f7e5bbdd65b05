import LabGoblin.Model.Json

/-!
# Reconnect tokens

The replay stores of `security/replay_store.py`, the checks of
`security/reconnect_tokens.py` and `SessionService.verify_reconnect`. An instant is a
number of microseconds since the epoch. What a token says and whether its signature and its
claims hold is up to the JWT library.
-/

set_option autoImplicit false

namespace LabGoblin.Reconnect

/-- A second, in microseconds. -/
def second : ℕ := 1000000

/-- `int(datetime.now(timezone.utc).timestamp())` -/
def nowTs (now : ℕ) : ℤ := (now / second : ℕ)

/-! ## The replay stores -/

/-- `ReplayStore`: what `mark_used` answers at an instant, and what it leaves behind. -/
structure ReplayStore (σ : Type) where
  markUsed : (now : ℕ) → (tokenId : String) → (expiresAt : ℤ) → σ → Bool × σ

/-- `_used_until` -/
abbrev UsedUntil := List (String × ℤ)

/-- `InMemoryReplayStore` -/
def inMemoryReplayStore : ReplayStore UsedUntil where
  markUsed now tokenId expiresAt usedUntil :=
    let kept := usedUntil.filter fun (_, exp) => nowTs now ≤ exp
    if (kept.lookup tokenId).isSome then (false, kept)
    else (true, (tokenId, expiresAt) :: kept)

/-- The keys of a Redis database, each with the instant at which it is gone. -/
abbrev Keys := List (String × ℤ)

/-- `SET key value NX EX ttl`: whether the key was set. -/
def setNxEx (now : ℕ) (key : String) (ttl : ℤ) (keys : Keys) : Bool × Keys :=
  let live := keys.filter fun (_, goneAt) => (now : ℤ) < goneAt
  if (live.lookup key).isSome then (false, live)
  else (true, (key, now + ttl * second) :: live)

/-- The key of a token in Redis. -/
def replayKey (tokenId : String) : String := s!"plp:replay:{tokenId}"

/-- `RedisReplayStore` -/
def redisReplayStore : ReplayStore Keys where
  markUsed now tokenId expiresAt keys :=
    let ttl := max 1 (expiresAt - nowTs now)
    setNxEx now (replayKey tokenId) ttl keys

inductive ReplayBackend where
  | memory
  | redis
  deriving DecidableEq, Repr

/-- What a store of the backend keeps. -/
def ReplayBackend.Entries : ReplayBackend → Type
  | .memory => UsedUntil
  | .redis => Keys

/-- A store that was not used yet. -/
def ReplayBackend.empty : (backend : ReplayBackend) → backend.Entries
  | .memory => []
  | .redis => []

/-- `build_replay_store`, for the backends that it supports. -/
def buildReplayStore : (backend : ReplayBackend) → ReplayStore backend.Entries
  | .memory => inMemoryReplayStore
  | .redis => redisReplayStore

/-! ## The tokens -/

/-- What `verify_reconnect` raises or lets pass. -/
inductive TokenError where
  /-- `ValueError` -/
  | value (message : String)
  /-- `KeyError` -/
  | key (name : String)
  /-- `TypeError`, for a value that is not hashable -/
  | unhashable
  /-- what `int(payload["exp"])` raises -/
  | int (e : Json.IntError)

/-- `jwt.decode` with the algorithm HS256: the payload of a token at an instant, or the text of
an `InvalidTokenError`. -/
structure Jwt where
  decode : (token secret : String) → (now : ℕ) → Except String Dict

/-- One call of `create_reconnect_token`, with the identifier that `uuid4` gave it. -/
structure Created where
  now : ℕ
  sessionId : ℤ
  userId : ℤ
  protocol : String
  ttlSeconds : ℤ
  uuid : String
  fingerprint : Option String := none

def Created.exp (c : Created) : ℤ := ((c.now : ℤ) + c.ttlSeconds * second).tdiv second

/-- What `create_reconnect_token` has encoded. -/
def Created.payload (c : Created) : Dict :=
  [("sid", .int c.sessionId), ("uid", .int c.userId), ("proto", .text c.protocol),
    ("jti", .text c.uuid), ("iat", .int (nowTs c.now)), ("exp", .int c.exp)] ++
  match c.fingerprint with
  | none => []
  | some fingerprint => if fingerprint = "" then [] else [("fp", .text fingerprint)]

/-- `value not in {None, fingerprint}` -/
def notIn (value : Json) (fingerprint : String) : Except TokenError Bool :=
  match value with
  | .list _ => .error .unhashable
  | .object _ => .error .unhashable
  | .null => .ok false
  | value => .ok (!value.same (.text fingerprint))

/-- `verify_reconnect_token` -/
def verifyReconnectToken (jwt : Jwt) (now : ℕ) (token secret : String) (sessionId userId : ℤ)
    (protocol : String) (fingerprint : Option String := none) : Except TokenError Dict := do
  let payload ← (jwt.decode token secret now).mapError fun text =>
    .value s!"invalid reconnect token: {text}"
  if !(Dict.get payload "sid").same (.int sessionId) then throw (.value "wrong session")
  if !(Dict.get payload "uid").same (.int userId) then throw (.value "wrong user")
  if !(Dict.get payload "proto").same (.text protocol) then throw (.value "wrong protocol")
  if !(Dict.get payload "jti").truthy then throw (.value "missing token id")
  match fingerprint with
  | none => return payload
  | some fingerprint =>
    if fingerprint = "" then return payload
    if ← notIn (Dict.get payload "fp") fingerprint then throw (.value "wrong fingerprint")
    return payload

/-- `payload[key]` -/
def item (payload : Dict) (key : String) : Except TokenError Json :=
  match payload.lookup key with
  | some value => .ok value
  | none => .error (.key key)

/-- The token id and the expiry that `verify_reconnect` hands to the replay store. -/
def tokenUse (repr : Json → String) (payload : Dict) : Except TokenError (String × ℤ) := do
  let jti ← item payload "jti"
  let exp ← item payload "exp"
  let expiresAt ← exp.toInt.mapError .int
  return (jti.str repr, expiresAt)

/-- The parts of the deployment that `verify_reconnect` uses: the JWT library, the secret it is
given, and the text Python makes of a float, a list or an object. -/
structure Verifier where
  jwt : Jwt
  secret : String
  repr : Json → String

/-- One call of `verify_reconnect` with its instant. -/
structure Presented where
  now : ℕ
  token : String
  sessionId : ℤ
  userId : ℤ
  protocol : String
  deriving DecidableEq

/-- What the checks before the replay store say of a call. -/
def Verifier.checked (v : Verifier) (c : Presented) : Except TokenError (String × ℤ) := do
  let payload ←
    verifyReconnectToken v.jwt c.now c.token v.secret c.sessionId c.userId c.protocol
  tokenUse v.repr payload

/-- `SessionService.verify_reconnect` -/
def Verifier.verifyReconnect {σ : Type} (v : Verifier) (store : ReplayStore σ) (c : Presented)
    (used : σ) : Bool × σ :=
  match v.checked c with
  | .error _ => (false, used)
  | .ok (tokenId, expiresAt) => store.markUsed c.now tokenId expiresAt used

/-- What each of a sequence of calls answers. -/
def Verifier.run {σ : Type} (v : Verifier) (store : ReplayStore σ) :
    List Presented → σ → List Bool
  | [], _ => []
  | c :: cs, used =>
    let answer := v.verifyReconnect store c used
    answer.1 :: v.run store cs answer.2

/-- What `mark_used` answers to each of a sequence of uses. -/
def ReplayStore.answers {σ : Type} (store : ReplayStore σ) :
    List (ℕ × String × ℤ) → σ → List Bool
  | [], _ => []
  | (now, tokenId, expiresAt) :: uses, used =>
    let answer := store.markUsed now tokenId expiresAt used
    answer.1 :: store.answers uses answer.2

end LabGoblin.Reconnect
