import LabGoblin.Computation.IpAddress
import LabGoblin.Model.Csrf
import LabGoblin.Model.Json
import Mathlib.Data.List.Lex
import Mathlib.Data.List.Sort
import Mathlib.Data.Prod.Lex
import Mathlib.Data.String.Basic

/-!
# Guest addresses

`candidate_addresses` of `services/guest_discovery.py`. The configuration of a machine and the
interfaces that its guest reports are JSON values of any shape.
-/

set_option autoImplicit false

namespace LabGoblin.GuestDiscovery

open Interactive
open Csrf (partition)

/-- The text that Python makes of a float, a list or an object, the characters that `\w` stands
for, and the properties that a mapped address has from the address that it stands for. -/
structure Library where
  repr : Json → String
  wordChar : Char → Bool
  mapped : Ip.Property → Bool

variable (lib : Library)

/-- `str(value)` -/
def textOf (value : Json) : Text := (value.str lib.repr).toList

/-- `str.lower`, for a text that is compared with texts of hexadecimal digits and colons: no
character outside ASCII has one of these for its lower case. -/
def lower (s : Text) : Text := s.map Char.toLower

/-! ## The adapters of the configuration -/

/-- `re.fullmatch(r"net\d+", name)`, and `name[3:]` where it matches. -/
def netIndex (name : Text) : Option Text :=
  match name with
  | 'n' :: 'e' :: 't' :: digits =>
    if digits ≠ [] ∧ digits.all fun c => (Text.decimal c).isSome then some digits else none
  | _ => none

/-- The group of `[\w-]+=([0-9a-fA-F:]{17})`, for a text that it matches from end to end. -/
def macOf (segment : Text) : Option Text :=
  let (key, found, value) := partition '=' segment
  if key ≠ [] ∧ (key.all fun c => lib.wordChar c || c = '-') ∧ found ∧ value.length = 17 ∧
      value.all fun c => (Hex.value c).isSome || c = ':' then some value
  else none

/-- The end of a text before which `$` matches. -/
def beforeEnd (s : Text) : Text := if s.getLast? = some '\n' then s.dropLast else s

/-- `re.search(r"(?:^|,)[\w-]+=([0-9a-fA-F:]{17})(?:,|$)", text)`: no character of the group is a
comma, so the match is the first text between commas that matches. -/
def searchMac (text : Text) : Option Text :=
  let segments := text.splitOn ','
  (segments.dropLast ++ [beforeEnd (segments.getLastD [])]).findSome? (macOf lib)

/-- What an item of the configuration says about an adapter: its address and its index. -/
def adapterOf (item : String × Json) : Option (Text × Text) :=
  (netIndex item.1.toList).bind fun index =>
    (searchMac lib (textOf lib item.2)).map fun mac => (lower mac, index)

/-- `adapters`, where the last item with an address counts. -/
def adapters (config : Dict) : List (Text × Text) := (config.filterMap (adapterOf lib)).reverse

/-- `static`: the addresses in the `ipconfig` of an adapter. -/
def static (config : Dict) (index : Text) : List Text :=
  let configured := textOf lib (Dict.get config ("ipconfig" ++ String.ofList index) (.text ""))
  (configured.splitOn ',').filterMap fun item =>
    let (key, _, value) := partition '=' item
    if key ∈ ["ip".toList, "ip6".toList] then (Ip.interfaceIp value).map Ip.Address.str else none

/-! ## The addresses of the guest -/

/-- An item of `found`. Its key is its first two fields. -/
structure Candidate where
  address : Text
  macAddress : Text
  matchesCloudInit : Bool
  deriving DecidableEq

def Candidate.key (c : Candidate) : Text × Text := (c.address, c.macAddress)

/-- `found[key] = candidate` -/
def put (found : List Candidate) (c : Candidate) : List Candidate :=
  if c.key ∈ found.map Candidate.key then found.map fun d => if d.key = c.key then c else d
  else found ++ [c]

/-- Whether an address is none that a guest is reached at. -/
def isUnusable (ip : Ip.Address) : Bool :=
  [.loopback, .linkLocal, .multicast, .unspecified, .reserved].any fun p => ip.has lib.mapped p

/-- The body of the loop over the entries of an interface. -/
def addEntry (listed : List Text) (mac : Text) (found : List Candidate) (entry : Json) :
    List Candidate :=
  match entry with
  | .object fields =>
    match Dict.get fields "ip-address" with
    | .text s =>
      match Ip.Address.parse s.toList with
      | none => found
      | some ip =>
        if isUnusable lib ip then found else put found ⟨ip.str, mac, ip.str ∈ listed⟩
    | _ => found
  | _ => found

/-- The address of an interface. -/
def macAddress (fields : Dict) : Text :=
  lower (textOf lib (Dict.get fields "hardware-address" (.text "")))

/-- The body of the loop over the interfaces. -/
def addInterface (config : Dict) (found : List Candidate) (interface : Json) : List Candidate :=
  match interface with
  | .object fields =>
    match (adapters lib config).lookup (macAddress lib fields) with
    | none => found
    | some index =>
      match Dict.get fields "ip-addresses" (.list []) with
      | .list addresses =>
        (addresses.take 64).foldl (addEntry lib (static lib config index) (macAddress lib fields))
          found
      | _ => found
  | _ => found

/-- The key that the candidates are sorted by, which there is none of where the address is not
read again. -/
def sortKey (c : Candidate) : Option (Bool ×ₗ ℕ ×ₗ Text ×ₗ Text) :=
  (Ip.Address.parse c.address).map fun ip =>
    toLex (!c.matchesCloudInit, toLex (ip.version, toLex (c.address, c.macAddress)))

/-- `candidate_addresses`, which is `none` where it raises. -/
def candidateAddresses (config : Dict) (interfaces : List Json) : Option (List Candidate) :=
  let found := (interfaces.take 64).foldl (addInterface lib config) []
  (found.mapM fun c => (sortKey c).map fun key => (key, c)).map fun keyed =>
    ((keyed.mergeSort fun a b => a.1 ≤ b.1).map Prod.snd).take 32

end LabGoblin.GuestDiscovery
