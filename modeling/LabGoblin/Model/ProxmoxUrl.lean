import LabGoblin.Model.Csrf
import Mathlib.Data.List.DropRight

/-!
# The URL of a cluster

`canonicalize_proxmox_api_url` of `services/proxmox_url.py`: the form in which the URL of a
cluster is kept, and the values that are refused. The token of the cluster is sent to this URL.
-/

set_option autoImplicit false

namespace LabGoblin.ProxmoxUrl

open Csrf (Library SplitResult urlsplit)

structure Settings where
  proxmoxAllowInsecureTls : Bool := false

variable (lib : Library) (settings : Settings)

def apiPath : Text := "/api2/json".toList

/-- `f"[{host}]"` where the host has a colon in it. -/
def bracketed (host : Text) : Text := if ':' ∈ host then '[' :: (host ++ [']']) else host

/-- `f":{port}"`, unless the port is left out. -/
def portSuffix : Option ℕ → Text
  | none => []
  | some n => ':' :: (toString n).toList

/-- `urlunsplit(("https", netloc, "/api2/json", "", ""))` -/
def urlunsplit (netloc : Text) : Text := "https://".toList ++ (netloc ++ apiPath)

/-- The checks of a parsed value, and the URL that it stands for. -/
def canonicalOf (verifySsl : Bool) (parsed : SplitResult) : Except ValueError Text :=
  if lib.lower parsed.scheme ≠ "https".toList then
    .error (.message "Proxmox API URL must use HTTPS")
  else if parsed.hostname lib = [] ∨ '@' ∈ parsed.netloc then
    .error (.message "Proxmox API URL must contain a host and no credentials")
  else if parsed.query ≠ [] ∨ parsed.fragment ≠ [] then
    .error (.message "Proxmox API URL must not contain a query or fragment")
  else if parsed.path.rdropWhile (· = '/') ≠ apiPath then
    .error (.message "Proxmox API URL path must be /api2/json")
  else if !verifySsl ∧ !settings.proxmoxAllowInsecureTls then
    .error (.message "Disabling Proxmox TLS verification is prohibited by host policy")
  else
    match parsed.port with
    | .error _ => .error (.message "Proxmox API URL has an invalid port")
    | .ok port =>
      .ok (urlunsplit (bracketed (lib.lower (parsed.hostname lib)) ++
        portSuffix (port.filter (· ≠ 443))))

/-- `canonicalize_proxmox_api_url`, of the text that the value stands for. -/
def canonicalizeProxmoxApiUrl (verifySsl : Bool) (value : Text) : Except ValueError Text :=
  (urlsplit lib (Text.strip value)).bind (canonicalOf lib settings verifySsl)

end LabGoblin.ProxmoxUrl
