import LabGoblin.Computation.IpAddress
import LabGoblin.Computation.PercentEncoding
import LabGoblin.Model.Csrf
import LabGoblin.Model.Numerals
import Mathlib.Data.List.DropRight

/-!
# Asset source URLs

`asset_source_url` of `api/routers/proxmox_assets.py`, which names the URL of an asset, and
`_validate_url` of `services/asset_sync.py`, which a synchronization starts with.
-/

set_option autoImplicit false

namespace LabGoblin.AssetSource

open Interactive
open Csrf (SplitResult urlsplit)

structure Settings where
  assetSourceIsoBaseUrl : Option Text := none
  assetSourceCtBaseUrl : Option Text := none

/-- `lower` and its like, and the properties that a mapped address has from the address that it
stands for. -/
structure Library extends Csrf.Library where
  mapped : Ip.Property → Bool

/-- `rstrip("/")` -/
def rstripSlash (s : Text) : Text := s.rdropWhile (· = '/')

/-- `any(part in filename for part in ("..", "/", "\\"))` -/
def hasForbiddenPart (filename : Text) : Bool :=
  ["..", "/", "\\"].any fun part => Text.contains part.toList filename

/-! ## Naming a URL -/

/-- The answers of `asset_source_url`. -/
inductive SourceUrl where
  | httpError (status : ℕ) (detail : String)
  | notConfigured (kind filename : Text)
  | named (kind filename sourceUrl : Text)
  deriving DecidableEq

/-- `base` -/
def baseUrl (settings : Settings) (resolvedKind : Text) : Option Text :=
  if resolvedKind = "iso".toList then settings.assetSourceIsoBaseUrl
  else if resolvedKind ∈ ["ct", "ct-template", "vztmpl", "ct_template"].map String.toList then
    settings.assetSourceCtBaseUrl
  else none

/-- `asset_source_url`, where a missing field of the query is empty. -/
def assetSourceUrl (settings : Settings) (assetType kind filename : Text) : SourceUrl :=
  let resolvedKind := if assetType ≠ [] then assetType else kind
  if assetType ≠ [] ∧ kind ≠ [] ∧ assetType ≠ kind then
    .httpError 400 "asset_type and kind conflict"
  else if resolvedKind = [] then .httpError 422 "missing query field: asset_type"
  else if hasForbiddenPart filename ∨ "http://".toList.isPrefixOf filename ∨
      "https://".toList.isPrefixOf filename then .httpError 400 "invalid filename"
  else
    match (baseUrl settings resolvedKind).filter (· ≠ []) with
    | none => .notConfigured resolvedKind filename
    | some base =>
      .named resolvedKind filename (rstripSlash base ++ '/' :: Percent.quote filename)

/-! ## Checking a URL -/

variable (lib : Library)

/-- `uses_params` -/
def usesParams : List Text :=
  ["", "ftp", "hdl", "prospero", "http", "https", "imap", "shttp", "rtsp", "rtspu", "sip", "sips",
    "mms", "sftp", "tel"].map String.toList

/-- `_splitparams`: the path without the parameters of its last segment. -/
def splitParams (url : Text) : Text :=
  url.rdropWhile (· ≠ '/') ++ (url.rtakeWhile (· ≠ '/')).takeWhile (· ≠ ';')

/-- `urlparse`, without the parameters, which nothing reads. -/
def urlparse (url : Text) : Except ValueError SplitResult :=
  (urlsplit lib.toLibrary url).map fun s =>
    if s.scheme ∈ usesParams ∧ ';' ∈ s.path then { s with path := splitParams s.path } else s

/-- `_origin` -/
def origin (parsed : SplitResult) : Except ValueError (Text × Text × ℕ) :=
  if parsed.hostname lib.toLibrary = [] then
    .error (.message "asset source URL must include a host")
  else
    match parsed.port with
    | .error _ => .error (.message "asset source URL has an invalid port")
    | .ok port =>
      let default_ := if parsed.scheme = "https".toList then 443 else 80
      .ok (lib.lower parsed.scheme, lib.lower (parsed.hostname lib.toLibrary),
        (port.filter (· ≠ 0)).getD default_)

/-- Whether a host is an address that an asset is not fetched from. -/
def isUnsafeHost (hostname : Text) : Bool :=
  (Ip.Address.parse hostname).any fun address =>
    [.loopback, .linkLocal, .unspecified, .multicast].any fun p => address.has lib.mapped p

def schemes : List Text := ["http".toList, "https".toList]

def hasUserinfo (parsed : SplitResult) : Bool :=
  parsed.userinfo.1 ≠ [] || parsed.userinfo.2 ≠ []

/-- The checks of `_validate_url` on the parsed URLs. -/
def checkUrls (p base : SplitResult) (filename : Text) : Except ValueError Unit :=
  if p.scheme ∉ schemes then .error (.message "source_url must use http/https")
  else if hasUserinfo p ∨ p.query ≠ [] ∨ p.fragment ≠ [] then
    .error (.message "source_url must not include credentials")
  else if base.scheme ∉ schemes ∨ hasUserinfo base then
    .error (.message "configured asset source base URL is invalid")
  else if base.query ≠ [] ∨ base.fragment ≠ [] then
    .error (.message "source_url origin does not match configured asset source")
  else do
    let pOrigin ← origin lib p
    let baseOrigin ← origin lib base
    if pOrigin ≠ baseOrigin then
      .error (.message "source_url origin does not match configured asset source")
    else if isUnsafeHost lib (p.hostname lib.toLibrary) then
      .error (.message "asset source address is not safe")
    else if filename = [] ∨ hasForbiddenPart filename then
      .error (.message "asset filename is invalid")
    else if Percent.unquote p.path ≠ rstripSlash (Percent.unquote base.path) ++ '/' :: filename then
      .error (.message "source_url path is outside the configured asset source")
    else .ok ()

/-- `_validate_url` -/
def validateUrl (sourceUrl : Text) (baseUrl : Option Text) (filename : Text) :
    Except ValueError Unit :=
  match baseUrl.filter (· ≠ []) with
  | none => .error (.message "asset source base URL is not configured")
  | some baseUrl => do
    let p ← urlparse lib sourceUrl
    let base ← urlparse lib baseUrl
    checkUrls lib p base filename

end LabGoblin.AssetSource
