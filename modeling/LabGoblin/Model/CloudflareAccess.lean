import LabGoblin.Model.Csrf
import LabGoblin.Model.Json
import Mathlib.Algebra.Order.Ring.Rat
import Mathlib.Data.List.Infix

/-!
# The signing keys of Cloudflare Access

`CloudflareAccessVerifier` of `security/cloudflare_access.py`. A call of `verify` gives up control
only where it waits for the lock of `_refresh_keys` and where it awaits the fetch, so what it does
between these points is one action. `asyncio.Lock` is fair: a call that finds it held, or finds
others waiting, waits behind them.
-/

set_option autoImplicit false

namespace LabGoblin.CloudflareAccess

open Csrf (urlsplit)

/-- `MAX_CACHED_KEYS` -/
def maxCachedKeys : ℕ := 32

/-- `UNKNOWN_KID_REFRESH_COOLDOWN_SECONDS` -/
def unknownKidRefreshCooldownSeconds : ℚ := 30

/-- `CloudflareAccessInvalid`, `CloudflareAccessUnavailable`, and what else a fetcher or
`RSAAlgorithm.from_jwk` may raise. -/
inductive VerifyError where
  | invalid
  | unavailable
  | other
  deriving DecidableEq

/-- The libraries: `urllib.parse`, and `jwt` with its algorithm. `fromJwk` raises `unavailable`
where `from_jwk` raises `TypeError`, `ValueError` or `PyJWTError`, and `decode` is `jwt.decode`
with a key, an audience and an issuer. -/
structure Library (Key Claims : Type) where
  url : Csrf.Library
  unverifiedHeader : Text → Option Dict
  fromJwk : Dict → Except VerifyError Key
  decode : Text → Key → (audience issuer : Text) → Option Claims

variable {Key Claims : Type} (lib : Library Key Claims)

/-- `_issuer_for_team_domain` -/
def issuerForTeamDomain (teamDomain : Text) : Except ValueError Text := do
  let refused := ValueError.message
    "Cloudflare Access team domain must be an HTTPS *.cloudflareaccess.com origin"
  let value := ((Text.strip teamDomain).reverse.dropWhile (· = '/')).reverse
  let value := if "://".toList <:+: value then value else "https://".toList ++ value
  let parsed ← urlsplit lib.url value
  let hostname := lib.url.lower (parsed.hostname lib.url)
  if parsed.scheme ≠ "https".toList ∨ hostname = [] ∨
      ¬ ".cloudflareaccess.com".toList.isSuffixOf hostname ∨
      hostname = "cloudflareaccess.com".toList ∨ parsed.userinfo.1 ≠ [] ∨
      parsed.userinfo.2 ≠ [] then
    throw refused
  if (← parsed.port).isSome then throw refused
  if (parsed.path ≠ [] ∧ parsed.path ≠ ['/']) ∨ parsed.query ≠ [] ∨ parsed.fragment ≠ [] then
    throw refused
  return "https://".toList ++ hostname

/-! ## The keys -/

/-- `keys[kid] = key` -/
def setKey (keys : List (String × Key)) (kid : String) (key : Key) : List (String × Key) :=
  (kid, key) :: keys.filter (·.1 ≠ kid)

/-- The loop over the rows. -/
def keysOfRows : List Json → List (String × Key) → Except VerifyError (List (String × Key))
  | [], keys => .ok keys
  | .object item :: rows, keys =>
    match Dict.get item "kid" with
    | .text kid =>
      if kid ≠ "" ∧ (Dict.get item "kty").same (.text "RSA") then do
        let key ← lib.fromJwk item
        keysOfRows rows (setKey keys kid key)
      else keysOfRows rows keys
    | _ => keysOfRows rows keys
  | _ :: rows, keys => keysOfRows rows keys

/-- The key set of a payload. -/
def keysOf (payload : Dict) : Except VerifyError (List (String × Key)) :=
  match Dict.get payload "keys" with
  | .list rows => do
    let keys ← keysOfRows lib (rows.take maxCachedKeys) []
    if keys.isEmpty then throw .unavailable
    return keys
  | _ => .error .unavailable

/-! ## The verifier -/

/-- `CloudflareAccessVerifier`, with the bound that its constructor puts on the lifetime. -/
structure Verifier (Key : Type) where
  issuer : Text
  audience : Text
  jwksTtlSeconds : ℤ
  keys : List (String × Key) := []
  expiresAt : ℚ := 0
  unknownKidRefreshAfter : ℚ := 0
  ttl_ge : 30 ≤ jwksTtlSeconds

/-- `__init__` -/
def Verifier.init (teamDomain audience : Text) (jwksTtlSeconds : ℤ) :
    Except ValueError (Verifier Key) := do
  let issuer ← issuerForTeamDomain lib teamDomain
  if Text.strip audience = [] then
    throw (.message "Cloudflare Access audience is required")
  return {
    issuer
    audience := Text.strip audience
    jwksTtlSeconds := max 30 (min jwksTtlSeconds 86400)
    ttl_ge := le_max_left 30 _ }

/-- Why `_refresh_keys` is called: the cache was expired or empty, or the key was unknown. -/
inductive Reason where
  | expired
  | unknownKid
  deriving DecidableEq

namespace Verifier

variable (v : Verifier Key)

/-- `cache_expired` -/
def cacheExpired (now : ℚ) : Bool := v.keys.isEmpty || now ≥ v.expiresAt

/-- What `_refresh_keys` decides when it has the lock: `none` where it returns `False`, else the
state in which it fetches. -/
def refreshKeys (reason : Reason) (now : ℚ) : Option (Verifier Key) :=
  match reason with
  | .unknownKid =>
    if now < v.unknownKidRefreshAfter then none
    else some { v with unknownKidRefreshAfter := now + unknownKidRefreshCooldownSeconds }
  | .expired => if !v.keys.isEmpty ∧ now < v.expiresAt then none else some v

/-- The new key set. -/
def install (keys : List (String × Key)) (now : ℚ) : Verifier Key :=
  { v with keys, expiresAt := now + v.jwksTtlSeconds }

/-- The just fetched set does not have the key. -/
def delayUnknown (now : ℚ) : Verifier Key :=
  { v with
    unknownKidRefreshAfter :=
      max v.unknownKidRefreshAfter (now + unknownKidRefreshCooldownSeconds) }

end Verifier

/-- The assertion and its `kid`, when `verify` does not refuse them at once. -/
def checkedHeader (assertion : Option Text) : Option (Text × String) := do
  let assertion ← assertion.filter (· ≠ [])
  let header ← lib.unverifiedHeader assertion
  match Dict.get header "kid" with
  | .text kid =>
    if (Dict.get header "alg").same (.text "RS256") ∧ kid ≠ "" ∧ kid.length ≤ 128 then
      some (assertion, kid)
    else none
  | _ => none

/-! ## Runs -/

/-- A call of `verify` that is in `_refresh_keys`. -/
structure Call where
  assertion : Text
  kid : String
  reason : Reason

/-- Two readings of the clock, one after the other. -/
structure Clock where
  first : ℚ
  second : ℚ
  le : first ≤ second

/-- What has happened. A fetch was started at a time, it failed, or it succeeded with a key set at
a time; or an assertion was accepted under a key, found in the cache at a time. -/
inductive Entry (Key : Type) where
  | started (reason : Reason) (now : ℚ)
  | failed (reason : Reason) (start : ℚ)
  | succeeded (keys : List (String × Key)) (completed : ℚ)
  | accepted (kid : String) (key : Key) (consulted : ℚ)
  deriving DecidableEq

/-- The verifier, the call that holds the lock with the time at which its fetch started, and the
calls that wait for the lock. `now` is the last reading of the clock and `history` what has
happened, latest first. -/
structure World (Key : Type) where
  verifier : Verifier Key
  holder : Option (Call × ℚ) := none
  waiters : List Call := []
  now : ℚ
  history : List (Entry Key) := []

namespace World

variable (w : World Key)

def record (entry : Entry Key) : World Key := { w with history := entry :: w.history }

/-- The end of `verify`. -/
def decode (assertion : Text) (kid : String) (key : Key) (consulted : ℚ) : World Key :=
  if (lib.decode assertion key w.verifier.audience w.verifier.issuer).isSome then
    w.record (.accepted kid key consulted)
  else w

/-- `verify` after `_refresh_keys` returned. -/
def afterRefresh (call : Call) (consulted later : ℚ) : World Key :=
  match w.verifier.keys.lookup call.kid with
  | some key => w.decode lib call.assertion call.kid key consulted
  | none =>
    match call.reason with
    | .expired => { w with verifier := w.verifier.delayUnknown later }
    | .unknownKid => w

/-- `_refresh_keys` with the lock, up to the fetch. -/
def locked (call : Call) (now later : ℚ) : World Key :=
  match w.verifier.refreshKeys call.reason now with
  | none => w.afterRefresh lib call now later
  | some verifier =>
    { w with
      verifier
      holder := some (call, now)
      history := .started call.reason now :: w.history }

/-- `_refresh_keys`, which may have to wait for the lock. -/
def refreshKeys (call : Call) (now : ℚ) : World Key :=
  if w.holder.isNone ∧ w.waiters.isEmpty then w.locked lib call now now
  else { w with waiters := w.waiters ++ [call] }

/-- `verify` -/
def verify (assertion : Text) (kid : String) (clock : Clock) : World Key :=
  if w.verifier.cacheExpired clock.first then
    w.refreshKeys lib ⟨assertion, kid, .expired⟩ clock.second
  else
    match w.verifier.keys.lookup kid with
    | some key => w.decode lib assertion kid key clock.first
    | none => w.refreshKeys lib ⟨assertion, kid, .unknownKid⟩ clock.second

/-- The fetch of the call ends. -/
def fetched (call : Call) (start : ℚ) (payload : Except VerifyError Dict) (clock : Clock) :
    World Key :=
  match payload.bind (keysOf lib) with
  | .error _ => { w with holder := none, history := .failed call.reason start :: w.history }
  | .ok keys =>
    { w with
        holder := none
        verifier := w.verifier.install keys clock.first
        now := clock.first
        history := .succeeded keys clock.first :: w.history : World Key }.afterRefresh lib call
      clock.first clock.second

end World

/-- What can happen next: `verify` is called, the first call that waits gets the lock, the fetch
ends, or a call that waits is cancelled. A call that is cancelled in its fetch is a fetch that
raises. -/
inductive Action where
  | verify (assertion : Option Text) (clock : Clock)
  | acquire (clock : Clock)
  | fetched (payload : Except VerifyError Dict) (clock : Clock)
  | cancel (index : ℕ)

namespace World

/-- The clock has been read. -/
def tick (w : World Key) (clock : Clock) : World Key := { w with now := clock.second }

def step (w : World Key) : Action → Option (World Key)
  | .verify assertion clock =>
    if w.now ≤ clock.first then
      match checkedHeader lib assertion with
      | none => some w
      | some (assertion, kid) => some ((w.verify lib assertion kid clock).tick clock)
    else none
  | .acquire clock =>
    match w.holder, w.waiters with
    | none, call :: waiters =>
      if w.now ≤ clock.first then
        some (({ w with waiters }.locked lib call clock.first clock.second).tick clock)
      else none
    | _, _ => none
  | .fetched payload clock =>
    match w.holder with
    | some (call, start) =>
      if w.now ≤ clock.first then
        some ((w.fetched lib call start payload clock).tick clock)
      else none
    | none => none
  | .cancel index =>
    if index < w.waiters.length then some { w with waiters := w.waiters.eraseIdx index }
    else none

/-- The state after a sequence of actions that are possible one after the other. -/
def run (w : World Key) (actions : List Action) : Option (World Key) :=
  actions.foldlM (World.step lib) w

end World

end LabGoblin.CloudflareAccess
