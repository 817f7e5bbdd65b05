import LabGoblin.Computation.Hexadecimal
import Mathlib.Data.Fin.Basic

/-!
# Internet addresses

The texts of version 4 and version 6 addresses after the `ipaddress` module of Python: what is
read as an address, how an address is written, and the ranges that have a property. An address
is read back from the text that it is written in.
-/

set_option autoImplicit false

namespace Interactive.Ip

/-- Reading a list entry by entry keeps its length. -/
theorem length_of_mapM {α β : Type} {f : α → Option β} {xs : List α} {ys : List β}
    (h : xs.mapM f = some ys) : ys.length = xs.length := by
  induction xs generalizing ys with
  | nil =>
    rw [List.mapM_nil] at h
    rw [← Option.some.inj h]
    rfl
  | cons x xs ih =>
    rw [List.mapM_cons] at h
    cases hx : f x with
    | none =>
      rw [hx] at h
      cases h
    | some y =>
      cases hxs : xs.mapM f with
      | none =>
        rw [hx, hxs] at h
        cases h
      | some rest =>
        rw [hx, hxs] at h
        have hys : y :: rest = ys := Option.some.inj h
        rw [← hys, List.length_cons, List.length_cons, ih hxs]

/-- What is written element by element is read back element by element. -/
theorem mapM_map_of_read {α β : Type} {write : β → α} {read : α → Option β}
    (h : ∀ b, read (write b) = some b) (bs : List β) : (bs.map write).mapM read = some bs := by
  induction bs with
  | nil => rfl
  | cons b bs ih =>
    rw [List.map_cons, List.mapM_cons, h b, ih]
    rfl

/-- Every element that is read together with others is read alone. -/
theorem read_of_mapM {α β : Type} {f : α → Option β} {xs : List α} {ys : List β}
    (h : xs.mapM f = some ys) : ∀ x ∈ xs, (f x).isSome = true := by
  induction xs generalizing ys with
  | nil => exact fun x hx => absurd hx List.not_mem_nil
  | cons x xs ih =>
    rw [List.mapM_cons] at h
    cases hx : f x with
    | none =>
      rw [hx] at h
      cases h
    | some y =>
      cases hxs : xs.mapM f with
      | none =>
        rw [hx, hxs] at h
        cases h
      | some rest =>
        intro x' hx'
        rcases List.mem_cons.mp hx' with rfl | htail
        · rw [hx]
          rfl
        · exact ih hxs x' htail

/-- The properties that are asked of an address. -/
inductive Property where
  | loopback
  | linkLocal
  | multicast
  | unspecified
  | reserved
  deriving DecidableEq

/-! ## Version 4 -/

/-- `IPv4Address`: the four bytes of its number. -/
structure V4 where
  octets : List (Fin 256)
  length_eq : octets.length = 4
  deriving DecidableEq

/-- `_parse_octet` -/
def parseOctet (s : List Char) : Option (Fin 256) :=
  if s = [] then none
  else if s.all Char.isDigit = false then none
  else if 3 < s.length then none
  else if s ≠ ['0'] ∧ s.head? = some '0' then none
  else if h : Nat.ofDigitChars 10 s 0 < 256 then some ⟨Nat.ofDigitChars 10 s 0, h⟩
  else none

namespace V4

/-- `IPv4Address(text)` -/
def parse (s : List Char) : Option V4 :=
  if '/' ∈ s ∨ s = [] then none
  else if h : (s.splitOn '.').length = 4 then
    match hread : (s.splitOn '.').mapM parseOctet with
    | some octets => some ⟨octets, (length_of_mapM hread).trans h⟩
    | none => none
  else none

/-- `str(address)` -/
def str (a : V4) : List Char :=
  ['.'].intercalate (a.octets.map fun o : Fin 256 => Nat.toDigits 10 o)

/-- The number of an address. -/
def number (a : V4) : ℕ := a.octets.foldl (fun n o => 256 * n + o) 0

def has (a : V4) : Property → Bool
  | .loopback => a.octets.take 1 = [127]
  | .linkLocal => a.octets.take 2 = [169, 254]
  | .multicast => (a.octets.headD 0).val / 16 = 14
  | .unspecified => a.octets = [0, 0, 0, 0]
  | .reserved => (a.octets.headD 0).val / 16 = 15

/-- `'%x'` of the two halves of an address. -/
def hextetTexts (a : V4) : List (List Char) :=
  match a.octets with
  | [b, c, d, e] => [Hex.digits (256 * b + c), Hex.digits (256 * d + e)]
  | _ => []

end V4

/-! ## Version 6 -/

/-- The zone of a scoped address. -/
structure ScopeId where
  text : List Char
  ne_nil : text ≠ []
  no_percent : '%' ∉ text
  no_slash : '/' ∉ text
  deriving DecidableEq

/-- `IPv6Address`: the eight hextets of its number, and its zone. -/
structure V6 where
  hextets : List (Fin 65536)
  length_eq : hextets.length = 8
  scopeId : Option ScopeId
  deriving DecidableEq

/-- `_parse_hextet` -/
def parseHextet (s : List Char) : Option (Fin 65536) :=
  if hlength : 4 < s.length ∨ s = [] then none
  else
    match hread : Hex.readFrom 0 s with
    | none => none
    | some n => some ⟨n, by
        have hlt := Hex.readFrom_lt hread
        have hpow : 16 ^ s.length ≤ 16 ^ 4 := Nat.pow_le_pow_right (by decide) (by omega)
        omega⟩

/-- The parts between the colons, where a version 4 address at the end becomes two parts. -/
def splitParts (s : List Char) : Option (List (List Char)) :=
  if s = [] then none
  else
    let parts := s.splitOn ':'
    if parts.length < 3 then none
    else if '.' ∈ parts.getLastD [] then
      (V4.parse (parts.getLastD [])).map fun v4 => parts.dropLast ++ v4.hextetTexts
    else some parts

/-- The indices of the parts that are empty and neither first nor last. -/
def skips (parts : List (List Char)) : List ℕ :=
  (List.range' 1 (parts.length - 2)).filter fun i => parts[i]? = some []

/-- The hextets before and after a skipped part, with the zeros that it stands for. -/
def aroundSkip (high low : List (List Char)) : Option (List (Fin 65536)) :=
  if 7 < high.length + low.length then none
  else
    (high.mapM parseHextet).bind fun hi => (low.mapM parseHextet).map fun lo =>
      hi ++ List.replicate (8 - (high.length + low.length)) 0 ++ lo

/-- The hextets of the parts between the colons. -/
def readHextets (parts : List (List Char)) : Option (List (Fin 65536)) :=
  if 9 < parts.length then none
  else
    match skips parts with
    | [] =>
      if parts.length ≠ 8 ∨ parts.head? = some [] ∨ parts.getLast? = some [] then none
      else parts.mapM parseHextet
    | [skip] =>
      let high := parts.take skip
      let low := parts.drop (skip + 1)
      if (high.head? = some [] ∧ high.length ≠ 1) ∨ (low.getLast? = some [] ∧ low.length ≠ 1) then
        none
      else
        aroundSkip (if high.head? = some [] then [] else high)
          (if low.getLast? = some [] then [] else low)
    | _ => none

/-- `_split_scope_id` -/
def splitScope (s : List Char) : Option (List Char × Option ScopeId) :=
  match s.dropWhile (· ≠ '%') with
  | [] => some (s, none)
  | _ :: scope =>
    -- a text with a slash has been refused before
    if h : scope ≠ [] ∧ '%' ∉ scope ∧ '/' ∉ scope then
      some (s.takeWhile (· ≠ '%'), some ⟨scope, h.1, h.2.1, h.2.2⟩)
    else none

/-- With the zeros for what is skipped there are eight hextets. -/
theorem length_of_aroundSkip {high low : List (List Char)} {hs : List (Fin 65536)}
    (h : aroundSkip high low = some hs) : hs.length = 8 := by
  unfold aroundSkip at h
  split at h
  · cases h
  · obtain ⟨hi, hhi, hmap⟩ := Option.bind_eq_some_iff.mp h
    obtain ⟨lo, hlo, rfl⟩ := Option.map_eq_some_iff.mp hmap
    rw [List.length_append, List.length_append, List.length_replicate, length_of_mapM hhi,
      length_of_mapM hlo]
    omega

/-- What is read as an address has eight hextets. -/
theorem length_of_readHextets {parts : List (List Char)} {hs : List (Fin 65536)}
    (h : readHextets parts = some hs) : hs.length = 8 := by
  unfold readHextets at h
  split at h
  · cases h
  · split at h
    · split at h
      · cases h
      · rename_i hparts
        rw [length_of_mapM h]
        omega
    · dsimp only at h
      split at h
      · cases h
      · exact length_of_aroundSkip h
    · cases h

/-- `IPv6Address(text)` -/
def V6.parse (s : List Char) : Option V6 :=
  if '/' ∈ s then none
  else
    (splitScope s).bind fun (addr, scopeId) =>
      (splitParts addr).bind fun parts =>
        match h : readHextets parts with
        | none => none
        | some hextets => some ⟨hextets, length_of_readHextets h, scopeId⟩

/-! ### Writing -/

/-- The variables of the loop in `_compress_hextets`. Where a run has not begun, its start is
missing, and the best start is not read before a run has set it. -/
structure Runs where
  bestStart : ℕ := 0
  bestLen : ℕ := 0
  start : Option ℕ := none
  len : ℕ := 0

/-- The body of the loop. -/
def Runs.next (r : Runs) (index : ℕ) (hextet : List Char) : Runs :=
  if hextet = ['0'] then
    let start := r.start.getD index
    let len := r.len + 1
    if r.bestLen < len then { bestStart := start, bestLen := len, start := some start, len }
    else { r with start := some start, len }
  else { r with start := none, len := 0 }

def zeroRuns (hextets : List (List Char)) : Runs :=
  hextets.zipIdx.foldl (fun r item => r.next item.2 item.1) {}

/-- `_compress_hextets` -/
def compressHextets (hextets : List (List Char)) : List (List Char) :=
  let r := zeroRuns hextets
  if 1 < r.bestLen then
    let bestEnd := r.bestStart + r.bestLen
    (if r.bestStart = 0 then [[]] else []) ++ hextets.take r.bestStart ++ [[]] ++
      hextets.drop bestEnd ++ (if bestEnd = hextets.length then [[]] else [])
  else hextets

namespace V6

/-- The text of an address without its zone. -/
def baseStr (hextets : List (Fin 65536)) : List Char :=
  [':'].intercalate (compressHextets (hextets.map fun h : Fin 65536 => Hex.digits h))

/-- `str(address)` -/
def str (a : V6) : List Char :=
  baseStr a.hextets ++ a.scopeId.elim [] fun zone => '%' :: zone.text

/-- The version 4 address that a mapped address stands for. -/
def ipv4Mapped (a : V6) : Option V4 :=
  match a.hextets with
  | [0, 0, 0, 0, 0, 0xffff, high, low] =>
    some ⟨[Fin.ofNat 256 (high / 256), Fin.ofNat 256 high, Fin.ofNat 256 (low / 256),
      Fin.ofNat 256 low], rfl⟩
  | _ => none

/-- Whether an address has the first `len` bits of `first`, where there are at most 16. -/
def inNetwork (a : V6) (first len : ℕ) : Bool :=
  (a.hextets.headD 0).val / 2 ^ (16 - len) = first / 2 ^ (16 - len)

/-- `_reserved_networks` -/
def reservedNetworks : List (ℕ × ℕ) :=
  [(0x0000, 8), (0x0100, 8), (0x0200, 7), (0x0400, 6), (0x0800, 5), (0x1000, 4), (0x4000, 3),
    (0x6000, 3), (0x8000, 3), (0xa000, 3), (0xc000, 3), (0xe000, 4), (0xf000, 5), (0xf800, 6),
    (0xfe00, 9)]

/-- The properties of an address that is not looked at as a mapped one. -/
def hasOwn (a : V6) : Property → Bool
  | .loopback => a.hextets = [0, 0, 0, 0, 0, 0, 0, 1]
  | .linkLocal => a.inNetwork 0xfe80 10
  | .multicast => a.inNetwork 0xff00 8
  | .unspecified => a.hextets = [0, 0, 0, 0, 0, 0, 0, 0]
  | .reserved => reservedNetworks.any fun (first, len) => a.inNetwork first len

/-- A property of an address. The releases of Python differ in the properties that a mapped
address has from the address that it stands for: `mapped` are these. -/
def has (mapped : Property → Bool) (a : V6) (p : Property) : Bool :=
  match a.ipv4Mapped with
  | some v4 => if mapped p then v4.has p else a.hasOwn p
  | none => a.hasOwn p

end V6

/-! ## Addresses and interfaces -/

inductive Address where
  | v4 (a : V4)
  | v6 (a : V6)
  deriving DecidableEq

namespace Address

/-- `ip_address(text)` -/
def parse (s : List Char) : Option Address :=
  match V4.parse s with
  | some a => some (.v4 a)
  | none => (V6.parse s).map .v6

/-- `str(address)` -/
def str : Address → List Char
  | v4 a => a.str
  | v6 a => a.str

def version : Address → ℕ
  | v4 _ => 4
  | v6 _ => 6

def has (mapped : Property → Bool) (p : Property) : Address → Bool
  | v4 a => a.has p
  | v6 a => a.has mapped p

end Address

/-- `_prefix_from_prefix_string`, where more digits than `int` reads are refused. -/
def isPrefixLength (most : ℕ) (mask : List Char) : Bool :=
  mask ≠ [] && mask.all Char.isDigit && mask.length ≤ 4300 && Nat.ofDigitChars 10 mask 0 ≤ most

/-- `_prefix_from_ip_string`: a netmask or a hostmask. -/
def isMask (mask : List Char) : Bool :=
  (V4.parse mask).any fun a =>
    (List.range 33).any fun k => a.number + 2 ^ k = 2 ^ 32 || a.number + 1 = 2 ^ k

/-- `ip_interface(text).ip`, which has no zone. -/
def interfaceIp (s : List Char) : Option Address :=
  let (addr, mask) := match s.splitOn '/' with
    | [addr] => (some addr, none)
    | [addr, mask] => (some addr, some mask)
    | _ => (none, none)
  addr.bind fun addr =>
    match (V4.parse addr).filter fun _ => mask.all fun m => isPrefixLength 32 m || isMask m with
    | some a => some (.v4 a)
    | none =>
      ((V6.parse addr).filter fun _ => mask.all (isPrefixLength 128)).map fun a =>
        .v6 { a with scopeId := none }

end Interactive.Ip
