import LabGoblin.Computation.IpAddress
import LabGoblin.Model.Text
import Mathlib.Data.List.TakeWhile

/-!
# Cookie requests and their origin

`CookieCsrfMiddleware` of `middleware/csrf.py` and `get_request_token` of `api/deps.py`. Both
read the headers of a request, and each decides for itself whether the request is authenticated
by its cookie. `urlsplit` is the function of `urllib.parse`.
-/

set_option autoImplicit false

namespace LabGoblin.Csrf

/-- `str.lower`, `unicodedata.normalize("NFKC", …)` and the parser of `request.cookies`. -/
structure Library where
  lower : Text → Text
  nfkc : Text → Text
  cookieParser : Text → List (Text × Text)

structure Settings where
  authCookieName : Text := "labgoblin_session".toList
  browserTrustedOrigins : Text := []

/-! ## Splitting text -/

/-- `str.partition`: the text before the first separator, whether there is one, and the text
after it. -/
def partition (separator : Char) (s : Text) : Text × Bool × Text :=
  match s.dropWhile (· ≠ separator) with
  | [] => (s, false, [])
  | _ :: after => (s.takeWhile (· ≠ separator), true, after)

/-- The characters of a text without a character are others. -/
theorem ne_of_notMem {c : Char} {s : Text} (h : c ∉ s) : ∀ d ∈ s, decide (d ≠ c) = true := by
  intro d hd
  rw [decide_eq_true_iff]
  rintro rfl
  exact h hd

/-- A text without the separator is all before it. -/
theorem partition_of_notMem {c : Char} {s : Text} (h : c ∉ s) : partition c s = (s, false, []) := by
  unfold partition
  rw [List.dropWhile_eq_nil_iff.mpr (ne_of_notMem h)]

/-- A text is parted at its first separator. -/
theorem partition_append {c : Char} {s : Text} (h : c ∉ s) (rest : Text) :
    partition c (s ++ c :: rest) = (s, true, rest) := by
  unfold partition
  rw [List.dropWhile_append_of_pos (ne_of_notMem h), List.takeWhile_append_of_pos (ne_of_notMem h)]
  simp

/-- `str.rpartition`, which puts a text without a separator into the last part. -/
def rpartition (separator : Char) (s : Text) : Text × Bool × Text :=
  match s.reverse.dropWhile (· ≠ separator) with
  | [] => ([], false, s)
  | _ :: before => (before.reverse, true, (s.reverse.takeWhile (· ≠ separator)).reverse)

/-! ## `urllib.parse` -/

/-- `SplitResult` -/
structure SplitResult where
  scheme : Text
  netloc : Text
  path : Text
  query : Text
  fragment : Text
  deriving DecidableEq

def invalidIpv6Url : ValueError := .message "Invalid IPv6 URL"

def asciiAlpha (c : Char) : Bool := ('a' ≤ c && c ≤ 'z') || ('A' ≤ c && c ≤ 'Z')

/-- `scheme_chars` -/
def schemeChar (c : Char) : Bool :=
  asciiAlpha c || Text.asciiDigit c || c = '+' || c = '-' || c = '.'

def hexDigit (c : Char) : Bool :=
  Text.asciiDigit c || ('a' ≤ c && c ≤ 'f') || ('A' ≤ c && c ≤ 'F')

/-- `_check_bracketed_host`, with `ipaddress.ip_address` -/
def checkBracketedHost (hostname : Text) : Except ValueError Unit :=
  match hostname with
  | 'v' :: future =>
    let (version, dot, address) := partition '.' future
    if version = [] ∨ version.all hexDigit = false ∨ dot = false ∨ address = [] ∨
        '\n' ∈ address then
      .error (.message "IPvFuture address is invalid")
    else .ok ()
  | _ =>
    if (Interactive.Ip.V4.parse hostname).isSome then
      .error (.message "An IPv4 address cannot be in brackets")
    else if (Interactive.Ip.V6.parse hostname).isSome then .ok ()
    else
      .error (.message s!"'{String.ofList hostname}' does not appear to be an IPv4 or IPv6 address")

/-- `_check_bracketed_netloc` -/
def checkBracketedNetloc (netloc : Text) : Except ValueError Unit :=
  let (_, _, hostnameAndPort) := rpartition '@' netloc
  let (beforeBracket, haveOpenBracket, bracketed) := partition '[' hostnameAndPort
  if haveOpenBracket then
    let (hostname, _, port) := partition ']' bracketed
    if beforeBracket ≠ [] then .error invalidIpv6Url
    else if port ≠ [] ∧ port.head? ≠ some ':' then .error invalidIpv6Url
    else checkBracketedHost hostname
  else checkBracketedHost (partition ':' hostnameAndPort).1

variable (lib : Library)

/-- `_checknetloc` -/
def checkNetloc (netloc : Text) : Except ValueError Unit :=
  if Text.isascii netloc then .ok ()
  else
    let n := netloc.filter fun c => c ∉ ['@', ':', '#', '?']
    let netloc2 := lib.nfkc n
    if n = netloc2 then .ok ()
    else if ['/', '?', '#', '@', ':'].any (· ∈ netloc2) then
      .error (.message "netloc contains invalid characters under NFKC normalization")
    else .ok ()

/-- The scheme of a URL in lower case, and the rest. -/
def splitScheme (url : Text) : Text × Text :=
  let (scheme, found, rest) := partition ':' url
  if found ∧ scheme.head?.any asciiAlpha ∧ scheme.all schemeChar then (lib.lower scheme, rest)
  else ([], url)

/-- `urlsplit` -/
def urlsplit (url : Text) : Except ValueError SplitResult := do
  let url := url.dropWhile fun c => c.toNat ≤ 32
  let url := url.filter fun c => c ≠ '\t' && c ≠ '\r' && c ≠ '\n'
  let (scheme, url) := splitScheme lib url
  let (netloc, url) := match url with
    | '/' :: '/' :: rest =>
      (rest.takeWhile fun c => c ∉ ['/', '?', '#'], rest.dropWhile fun c => c ∉ ['/', '?', '#'])
    | url => ([], url)
  if ('[' ∈ netloc ∧ ']' ∉ netloc) ∨ (']' ∈ netloc ∧ '[' ∉ netloc) then
    throw invalidIpv6Url
  if '[' ∈ netloc then checkBracketedNetloc netloc
  let (url, _, fragment) := partition '#' url
  let (path, _, query) := partition '?' url
  checkNetloc lib netloc
  return ⟨scheme, netloc, path, query, fragment⟩

namespace SplitResult

variable (parsed : SplitResult)

/-- `username` and `password`, where a missing one is empty. -/
def userinfo : Text × Text :=
  let (userinfo, _, _) := rpartition '@' parsed.netloc
  let (username, _, password) := partition ':' userinfo
  (username, password)

/-- `_hostinfo` -/
def hostinfo : Text × Text :=
  let (_, _, hostinfo) := rpartition '@' parsed.netloc
  let (_, haveOpenBracket, bracketed) := partition '[' hostinfo
  if haveOpenBracket then
    let (hostname, _, port) := partition ']' bracketed
    (hostname, (partition ':' port).2.2)
  else
    let (hostname, _, port) := partition ':' hostinfo
    (hostname, port)

/-- `hostname`, where a missing one is empty. The zone of an address keeps its case. -/
def hostname : Text :=
  let (hostname, percent, zone) := partition '%' parsed.hostinfo.1
  lib.lower hostname ++ (if percent then '%' :: zone else [])

/-- `port` -/
def port : Except ValueError (Option ℕ) :=
  let port := parsed.hostinfo.2
  if port = [] then .ok none
  else if Text.isdigit port && Text.isascii port then
    match Text.int port with
    | .error e => .error e
    | .ok n => if n ≤ 65535 then .ok (some n) else .error (.message "Port out of range 0-65535")
  else .error (.message "Port could not be cast to integer value")

end SplitResult

/-! ## Origins -/

/-- `_canonical_origin` of a parsed value. -/
def originOf (parsed : SplitResult) : Option Text :=
  if parsed.scheme ∉ ["http".toList, "https".toList] ∨ parsed.hostname lib = [] then none
  else if parsed.userinfo.1 ≠ [] ∨ parsed.userinfo.2 ≠ [] ∨ parsed.path ∉ [[], ['/']] then none
  else if parsed.query ≠ [] ∨ parsed.fragment ≠ [] then none
  else
    match parsed.port with
    | .error _ => none
    | .ok port =>
      let host := lib.lower (parsed.hostname lib)
      let host := if ':' ∈ host then '[' :: host ++ [']'] else host
      let default_ := if parsed.scheme = "https".toList then 443 else 80
      some (parsed.scheme ++ "://".toList ++ host ++
        match port with
        | none => []
        | some n => if n ≠ 0 ∧ n ≠ default_ then ':' :: (toString n).toList else [])

/-- `_canonical_origin` -/
def canonicalOrigin (value : Text) : Except ValueError (Option Text) :=
  (urlsplit lib (Text.strip value)).map (originOf lib)

/-- `_trusted_origins` -/
def trustedOrigins (settings : Settings) (host : Text) (forwardedProto : Option Text)
    (scheme : Text) : Except ValueError (List Text) := do
  let configured ← (settings.browserTrustedOrigins.splitOn ',').mapM (canonicalOrigin lib)
  if configured.reduceOption ≠ [] then return configured.reduceOption
  let stated := (forwardedProto.filter (· ≠ [])).getD scheme
  let proto := lib.lower (Text.strip (partition ',' stated).1)
  let proto :=
    if proto = "wss".toList then "https".toList
    else if proto = "ws".toList then "http".toList
    else proto
  let derived ← canonicalOrigin lib (proto ++ "://".toList ++ host)
  return derived.toList

/-! ## Requests -/

def blank (c : Char) : Bool := c = ' ' || c = '\t'

/-- The value of a header as the server delivers it: bytes that are read as Latin-1, without
blanks at the ends. -/
structure HeaderValue where
  text : Text
  latin1 : ∀ c ∈ text, c.toNat < 256
  trimmedLeft : text.head?.all (!blank ·) = true
  trimmedRight : text.getLast?.all (!blank ·) = true

structure Request where
  method : String
  /-- the scheme of `request.url` -/
  scheme : Text
  authorization : Option HeaderValue
  cookie : Option HeaderValue
  origin : Option HeaderValue
  host : Option HeaderValue
  xForwardedProto : Option HeaderValue
  secFetchSite : Option HeaderValue

/-- `headers.get(name, "")` -/
def header (value : Option HeaderValue) : Text := (value.map HeaderValue.text).getD []

/-- `request.cookies.get(settings.auth_cookie_name)`, where a missing one is empty. -/
def authCookie (settings : Settings) (r : Request) : Text :=
  ((r.cookie.map fun value => lib.cookieParser value.text).bind
    (·.lookup settings.authCookieName)).getD []

/-- The methods that `dispatch` looks at. -/
def unsafeMethods : List String := ["POST", "PUT", "PATCH", "DELETE"]

/-- What the middleware does with a request. -/
inductive Verdict where
  | callNext
  | forbidden (detail : String)
  deriving DecidableEq

/-- `uses_cookie` -/
def usesCookie (settings : Settings) (r : Request) : Bool :=
  authCookie lib settings r ≠ [] &&
    !("bearer ".toList.isPrefixOf (lib.lower (header r.authorization)))

/-- `CookieCsrfMiddleware.dispatch` -/
def dispatch (settings : Settings) (r : Request) : Except ValueError Verdict := do
  if r.method ∉ unsafeMethods then return .callNext
  if !usesCookie lib settings r then return .callNext
  let fetchSite := lib.lower (header r.secFetchSite)
  if fetchSite ≠ [] ∧ fetchSite ∉ ["same-origin".toList, "none".toList] then
    return .forbidden "Cross-origin request denied"
  if header r.origin ≠ [] then
    let origin ← canonicalOrigin lib (header r.origin)
    let trusted ← trustedOrigins lib settings (header r.host)
      (r.xForwardedProto.map HeaderValue.text) r.scheme
    match origin with
    | none => return .forbidden "Cross-origin request denied"
    | some origin =>
      if origin ∈ trusted then return .callNext
      else return .forbidden "Cross-origin request denied"
  else if fetchSite ≠ "same-origin".toList then
    return .forbidden "CSRF verification required"
  else return .callNext

/-- `websocket_origin_allowed`. The handshake is refused where this is not the case. -/
def websocketOriginAllowed (settings : Settings) (handshake : Request) :
    Except ValueError Bool := do
  let origin ← canonicalOrigin lib (header handshake.origin)
  let trusted ← trustedOrigins lib settings (header handshake.host)
    (handshake.xForwardedProto.map HeaderValue.text) handshake.scheme
  return origin.any fun origin => decide (origin ∈ trusted)

/-! ## The token of a request -/

/-- `OAuth2PasswordBearer` -/
def oauth2Scheme (r : Request) : Option Text :=
  let authorization := header r.authorization
  let (scheme, _, param) := partition ' ' authorization
  if authorization = [] ∨ lib.lower scheme ≠ "bearer".toList then none else some param

/-- The token that is used, and where it comes from. -/
inductive RequestToken where
  | bearer (token : Text)
  | cookie (token : Text)
  deriving DecidableEq

/-- `get_request_token`, where `none` is the answer 401. -/
def getRequestToken (settings : Settings) (r : Request) : Option RequestToken :=
  match (oauth2Scheme lib r).filter (· ≠ []) with
  | some token => some (.bearer token)
  | none =>
    if authCookie lib settings r ≠ [] then some (.cookie (authCookie lib settings r)) else none

end LabGoblin.Csrf
