import LabGoblin.Computation.IpRoundTrip
import LabGoblin.Model.GuestDiscovery

/-!
# Guest addresses are sound and in one order

Whether an address is flagged depends on the address and on the adapter only, so the dictionary
of the candidates is the set of what the interfaces report. An address is read back from its
text, so the sort has a key for every candidate, and no two candidates have the same key.
-/

set_option autoImplicit false

namespace LabGoblin.GuestDiscovery

open Interactive

variable {lib : Library} {config : Dict} {interfaces : List Json}

/-! ## What the interfaces report -/

/-- The candidate of an entry. -/
def entryCandidate (lib : Library) (listed : List Text) (mac : Text) (entry : Json) :
    Option Candidate :=
  match entry with
  | .object fields =>
    match Dict.get fields "ip-address" with
    | .text s => ((Ip.Address.parse s.toList).filter fun ip => !isUnusable lib ip).map fun ip =>
        ⟨ip.str, mac, ip.str ∈ listed⟩
    | _ => none
  | _ => none

/-- The candidates of an interface. -/
def interfaceCandidates (lib : Library) (config : Dict) (interface : Json) : List Candidate :=
  match interface with
  | .object fields =>
    match (adapters lib config).lookup (macAddress lib fields) with
    | none => []
    | some index =>
      match Dict.get fields "ip-addresses" (.list []) with
      | .list addresses =>
        (addresses.take 64).filterMap
          (entryCandidate lib (static lib config index) (macAddress lib fields))
      | _ => []
  | _ => []

/-- The candidates in the order of their reports. -/
def reported (lib : Library) (config : Dict) (interfaces : List Json) : List Candidate :=
  (interfaces.take 64).flatMap (interfaceCandidates lib config)

/-- An entry puts its candidate into the dictionary, if it has one. -/
theorem addEntry_eq (listed : List Text) (mac : Text) (found : List Candidate) (entry : Json) :
    addEntry lib listed mac found entry =
      (entryCandidate lib listed mac entry).elim found (put found) := by
  unfold addEntry entryCandidate
  cases entry with
  | object fields =>
    dsimp only
    generalize Dict.get fields "ip-address" = value
    cases value with
    | text s =>
      dsimp only
      cases Ip.Address.parse s.toList with
      | none => rfl
      | some ip => cases hunusable : isUnusable lib ip <;> simp [Option.filter, hunusable]
    | _ => rfl
  | _ => rfl

/-- The entries of an interface put their candidates in, by induction on the entries. -/
theorem foldl_addEntry (listed : List Text) (mac : Text) (entries : List Json)
    (found : List Candidate) : entries.foldl (addEntry lib listed mac) found =
      (entries.filterMap (entryCandidate lib listed mac)).foldl put found := by
  induction entries generalizing found with
  | nil => rfl
  | cons entry entries ih =>
    rw [List.foldl_cons, ih, addEntry_eq]
    cases hentry : entryCandidate lib listed mac entry with
    | none => rw [List.filterMap_cons_none hentry, Option.elim_none]
    | some c => rw [List.filterMap_cons_some hentry, List.foldl_cons, Option.elim_some]

/-- An interface puts its candidates in. -/
theorem addInterface_eq (found : List Candidate) (interface : Json) :
    addInterface lib config found interface =
      (interfaceCandidates lib config interface).foldl put found := by
  unfold addInterface interfaceCandidates
  cases interface with
  | object fields =>
    dsimp only
    cases (adapters lib config).lookup (macAddress lib fields) with
    | none => rfl
    | some index =>
      dsimp only
      generalize Dict.get fields "ip-addresses" (.list []) = value
      cases value with
      | list addresses => exact foldl_addEntry _ _ _ _
      | _ => rfl
  | _ => rfl

/-- The interfaces put their candidates in, by induction on the interfaces. -/
theorem foldl_addInterface (interfaces : List Json) (found : List Candidate) :
    interfaces.foldl (addInterface lib config) found =
      (interfaces.flatMap (interfaceCandidates lib config)).foldl put found := by
  induction interfaces generalizing found with
  | nil => rfl
  | cons interface interfaces ih =>
    rw [List.foldl_cons, ih, addInterface_eq, List.flatMap_cons, List.foldl_append]

/-- An entry reports a usable address. -/
theorem entryCandidate_eq_some_iff {listed : List Text} {mac : Text} {entry : Json}
    {c : Candidate} : entryCandidate lib listed mac entry = some c ↔
      ∃ fields s ip, entry = .object fields ∧ Dict.get fields "ip-address" = .text s ∧
        Ip.Address.parse s.toList = some ip ∧ isUnusable lib ip = false ∧
        c = ⟨ip.str, mac, ip.str ∈ listed⟩ := by
  constructor
  · intro h
    unfold entryCandidate at h
    split at h
    · rename_i fields
      split at h
      · rename_i s hs
        obtain ⟨ip, hip, hc⟩ := Option.map_eq_some_iff.mp h
        obtain ⟨hparse, husable⟩ := Option.filter_eq_some_iff.mp hip
        exact ⟨fields, s, ip, rfl, hs, hparse, by simpa using husable, hc.symm⟩
      · cases h
    · cases h
  · rintro ⟨fields, s, ip, rfl, hs, hparse, husable, rfl⟩
    unfold entryCandidate
    dsimp only
    rw [hs]
    dsimp only
    rw [hparse, Option.filter_some, husable]
    rfl

/-- An interface of an adapter reports the addresses of its entries. -/
theorem mem_interfaceCandidates {interface : Json} {c : Candidate} :
    c ∈ interfaceCandidates lib config interface ↔
      ∃ fields index addresses, interface = .object fields ∧
        (adapters lib config).lookup (macAddress lib fields) = some index ∧
        Dict.get fields "ip-addresses" (.list []) = .list addresses ∧
        ∃ entry ∈ addresses.take 64,
          entryCandidate lib (static lib config index) (macAddress lib fields) entry = some c := by
  constructor
  · intro h
    unfold interfaceCandidates at h
    split at h
    · rename_i fields
      split at h
      · cases h
      · rename_i index hindex
        split at h
        · rename_i addresses haddresses
          exact ⟨fields, index, addresses, rfl, hindex, haddresses, List.mem_filterMap.mp h⟩
        · cases h
    · cases h
  · rintro ⟨fields, index, addresses, rfl, hindex, haddresses, hentry⟩
    unfold interfaceCandidates
    dsimp only
    rw [hindex]
    dsimp only
    rw [haddresses]
    exact List.mem_filterMap.mpr hentry

/-- The flag of an address at an adapter. -/
def flagOf (lib : Library) (config : Dict) (address mac : Text) : Bool :=
  ((adapters lib config).lookup mac).any fun index => address ∈ static lib config index

/-- The flag of a reported candidate is the one of its address at its adapter. -/
theorem matchesCloudInit_of_reported {c : Candidate} (h : c ∈ reported lib config interfaces) :
    c.matchesCloudInit = flagOf lib config c.address c.macAddress := by
  obtain ⟨interface, -, hc⟩ := List.mem_flatMap.mp h
  obtain ⟨fields, index, addresses, -, hindex, -, entry, -, hentry⟩ :=
    mem_interfaceCandidates.mp hc
  obtain ⟨_, s, ip, -, -, -, -, rfl⟩ := entryCandidate_eq_some_iff.mp hentry
  unfold flagOf
  rw [hindex]
  rfl

/-- A candidate is what its key says. -/
theorem eq_of_key_eq {c d : Candidate} (hc : c ∈ reported lib config interfaces)
    (hd : d ∈ reported lib config interfaces) (h : c.key = d.key) : c = d := by
  have hflag := matchesCloudInit_of_reported hc
  have hflag' := matchesCloudInit_of_reported hd
  obtain ⟨address, mac, flag⟩ := c
  obtain ⟨address', mac', flag'⟩ := d
  have haddress : address = address' := congrArg Prod.fst h
  have hmac : mac = mac' := congrArg Prod.snd h
  subst haddress hmac
  have hsame : flag = flag' := hflag.trans hflag'.symm
  rw [hsame]

/-- The address of a candidate is the text of an address. -/
theorem parse_address_of_reported {c : Candidate} (h : c ∈ reported lib config interfaces) :
    ∃ ip, Ip.Address.parse c.address = some ip ∧ isUnusable lib ip = false := by
  obtain ⟨interface, -, hc⟩ := List.mem_flatMap.mp h
  obtain ⟨fields, index, addresses, -, -, -, entry, -, hentry⟩ := mem_interfaceCandidates.mp hc
  obtain ⟨_, s, ip, -, -, -, husable, rfl⟩ := entryCandidate_eq_some_iff.mp hentry
  exact ⟨ip, Ip.Address.parse_str ip, husable⟩

/-! ## The dictionary of the candidates -/

/-- The dictionary holds what has been reported, under distinct keys. -/
structure Holds (seen found : List Candidate) : Prop where
  keys : (found.map Candidate.key).Nodup
  mem : ∀ c, c ∈ found ↔ c ∈ seen

/-- One assignment. -/
theorem Holds.put {seen found : List Candidate} {c : Candidate} (h : Holds seen found)
    (hsame : ∀ d ∈ seen, d.key = c.key → d = c) : Holds (seen ++ [c]) (put found c) := by
  unfold GuestDiscovery.put
  by_cases hin : c.key ∈ found.map Candidate.key
  · rw [if_pos hin]
    obtain ⟨d, hd, hkey⟩ := List.mem_map.mp hin
    have hcd : d = c := hsame d ((h.mem d).mp hd) hkey
    have hfound : (found.map fun d => if d.key = c.key then c else d) = found := by
      refine (List.map_congr_left fun e he => ?_).trans (List.map_id' found)
      by_cases hek : e.key = c.key
      · rw [if_pos hek, hsame e ((h.mem e).mp he) hek]
      · rw [if_neg hek]
    rw [hfound]
    refine ⟨h.keys, fun e => ?_⟩
    rw [h.mem e, List.mem_append, List.mem_singleton]
    constructor
    · intro he
      exact .inl he
    · rintro (he | rfl)
      · exact he
      · exact (h.mem e).mp (hcd ▸ hd)
  · rw [if_neg hin]
    refine ⟨?_, fun e => ?_⟩
    · rw [List.map_append, List.map_singleton]
      refine List.Nodup.append h.keys (List.nodup_singleton _) ?_
      intro key hkey hkey'
      rw [List.mem_singleton.mp hkey'] at hkey
      exact hin hkey
    · rw [List.mem_append, List.mem_append, h.mem e]

/-- All assignments. -/
theorem Holds.foldl_put (cs : List Candidate) {seen found : List Candidate} (h : Holds seen found)
    (hsame : ∀ c ∈ seen ++ cs, ∀ d ∈ seen ++ cs, d.key = c.key → d = c) :
    Holds (seen ++ cs) (cs.foldl GuestDiscovery.put found) := by
  induction cs generalizing seen found with
  | nil => simpa using h
  | cons c cs ih =>
    have hstep : Holds (seen ++ [c]) (GuestDiscovery.put found c) := by
      apply h.put
      intro d hd hkey
      exact hsame c (by simp) d (List.mem_append_left _ hd) hkey
    have hrest := ih hstep (by simpa using hsame)
    rwa [List.append_assoc, List.singleton_append] at hrest

/-- The dictionary after both loops. -/
theorem holds_reported (lib : Library) (config : Dict) (interfaces : List Json) :
    Holds (reported lib config interfaces)
      ((interfaces.take 64).foldl (addInterface lib config) []) := by
  have hempty : Holds [] [] := ⟨List.nodup_nil, fun c => Iff.rfl⟩
  rw [foldl_addInterface]
  exact hempty.foldl_put (reported lib config interfaces)
    fun c hc d hd hkey => eq_of_key_eq hd hc hkey

/-! ## The sort -/

/-- The key of a candidate whose address is read again. -/
def rank (c : Candidate) : Bool ×ₗ ℕ ×ₗ Text ×ₗ Text :=
  (sortKey c).getD (toLex (false, toLex (0, toLex ([], []))))

/-- The candidates in the order of their keys. -/
def ordered (found : List Candidate) : List Candidate :=
  ((found.map fun c => (rank c, c)).mergeSort fun a b => a.1 ≤ b.1).map Prod.snd

/-- A candidate whose address is read back has a key, which orders by the flag, the version and the
texts. -/
theorem sortKey_eq_rank {c : Candidate} {ip : Ip.Address}
    (h : Ip.Address.parse c.address = some ip) : sortKey c = some (rank c) ∧
      rank c = toLex (!c.matchesCloudInit,
        toLex (ip.version, toLex (c.address, c.macAddress))) := by
  unfold rank sortKey
  rw [h]
  exact ⟨rfl, rfl⟩

/-- Candidates with one key are one candidate. -/
theorem eq_of_rank_eq {c d : Candidate} {ip ip' : Ip.Address}
    (hc : Ip.Address.parse c.address = some ip) (hd : Ip.Address.parse d.address = some ip')
    (h : rank c = rank d) : c = d := by
  rw [(sortKey_eq_rank hc).2, (sortKey_eq_rank hd).2] at h
  obtain ⟨address, mac, flag⟩ := c
  obtain ⟨address', mac', flag'⟩ := d
  have hpair := toLex.injective h
  simp only [Prod.mk.injEq, Bool.not_inj_iff, EmbeddingLike.apply_eq_iff_eq] at hpair
  obtain ⟨hflag, -, haddress, hmac⟩ := hpair
  rw [hflag, haddress, hmac]

/-- Where every entry is read, the list is read entry by entry. -/
theorem mapM_eq_map {α β : Type} {f : α → Option β} {g : α → β} {l : List α}
    (h : ∀ a ∈ l, f a = some (g a)) : l.mapM f = some (l.map g) := by
  induction l with
  | nil => rfl
  | cons a l ih =>
    rw [List.mapM_cons, h a List.mem_cons_self, ih fun b hb => h b (List.mem_cons_of_mem _ hb)]
    rfl

/-- Ordering keeps the candidates. -/
theorem ordered_perm (found : List Candidate) : (ordered found).Perm found := by
  have hperm := (List.mergeSort_perm (found.map fun c => (rank c, c)) fun a b => a.1 ≤ b.1).map
    Prod.snd
  rw [List.map_map] at hperm
  have hid : found.map (Prod.snd ∘ fun c => (rank c, c)) = found := List.map_id found
  rwa [hid] at hperm

/-- The keyed candidates are sorted by their keys. -/
theorem pairwise_keyed (found : List Candidate) :
    ((found.map fun c => (rank c, c)).mergeSort fun a b => a.1 ≤ b.1).Pairwise
      fun a b => a.1 ≤ b.1 := by
  refine (List.pairwise_mergeSort (fun a b c hab hbc => ?_) (fun a b => ?_) _).imp fun h =>
    of_decide_eq_true h
  · rw [decide_eq_true_iff] at hab hbc ⊢
    exact hab.trans hbc
  · rw [Bool.or_eq_true, decide_eq_true_iff, decide_eq_true_iff]
    exact le_total a.1 b.1

/-- A keyed candidate is one of the candidates with its own key. -/
theorem mem_keyed {found : List Candidate} {a : (Bool ×ₗ ℕ ×ₗ Text ×ₗ Text) × Candidate}
    (h : a ∈ (found.map fun c => (rank c, c)).mergeSort fun a b => a.1 ≤ b.1) :
    a.2 ∈ found ∧ a.1 = rank a.2 := by
  obtain ⟨c, hc, rfl⟩ := List.mem_map.mp (List.mem_mergeSort.mp h)
  exact ⟨hc, rfl⟩

/-- The candidates are sorted by their keys. -/
theorem ordered_pairwise (found : List Candidate) :
    (ordered found).Pairwise fun c d => rank c ≤ rank d := by
  rw [ordered, List.pairwise_map]
  refine (pairwise_keyed found).imp_of_mem fun ha hb hle => ?_
  rw [← (mem_keyed ha).2, ← (mem_keyed hb).2]
  exact hle

/-- The candidates in the order of their keys are the only list of them that is sorted. -/
theorem ordered_eq {found sorted : List Candidate}
    (hparse : ∀ c ∈ found, ∃ ip, Ip.Address.parse c.address = some ip)
    (h : found.Perm sorted) (hsorted : sorted.Pairwise fun c d => rank c ≤ rank d) :
    ordered found = sorted := by
  refine ((ordered_perm found).trans h).eq_of_pairwise ?_ (ordered_pairwise found) hsorted
  intro c d hc hd hle hge
  obtain ⟨ip, hip⟩ := hparse c ((ordered_perm found).mem_iff.mp hc)
  obtain ⟨ip', hip'⟩ := hparse d (h.mem_iff.mpr hd)
  exact eq_of_rank_eq hip hip' (le_antisymm hle hge)

/-- The order of the candidates is one, whatever the order they were found in. -/
theorem ordered_congr {found found' : List Candidate}
    (hparse : ∀ c ∈ found, ∃ ip, Ip.Address.parse c.address = some ip)
    (h : found.Perm found') : ordered found = ordered found' :=
  ordered_eq hparse (h.trans (ordered_perm found').symm) (ordered_pairwise found')

/-- Flagged candidates come before the others. -/
theorem flagged_of_rank_le {c d : Candidate} {ip ip' : Ip.Address}
    (hc : Ip.Address.parse c.address = some ip) (hd : Ip.Address.parse d.address = some ip')
    (h : rank c ≤ rank d) (hflag : d.matchesCloudInit = true) : c.matchesCloudInit = true := by
  rw [(sortKey_eq_rank hc).2, (sortKey_eq_rank hd).2, Prod.Lex.toLex_le_toLex] at h
  rw [hflag] at h
  rcases h with hlt | ⟨heq, -⟩
  · exact absurd hlt (by simp)
  · simpa using heq

/-- What is cut off comes after a full list. -/
theorem before_of_cut {α : Type} {R : α → α → Prop} {l : List α} (h : l.Pairwise R) {n : ℕ} {c : α}
    (hc : c ∈ l) (hcut : c ∉ l.take n) : (l.take n).length = n ∧ ∀ d ∈ l.take n, R d c := by
  have hdrop : c ∈ l.drop n := by
    rw [← List.take_append_drop n l] at hc
    exact (List.mem_append.mp hc).resolve_left hcut
  constructor
  · have hpos := List.length_pos_of_mem hdrop
    rw [List.length_drop] at hpos
    rw [List.length_take]
    omega
  · rw [← List.take_append_drop n l] at h
    exact fun d hd => (List.pairwise_append.mp h).2.2 d hd c hdrop

/-! ## What the configuration says -/

/-- A text between commas gives the address of an adapter: `key=` with a key of word characters
and hyphens, and then 17 hexadecimal digits and colons. -/
def GivesMac (lib : Library) (segment mac : Text) : Prop :=
  ∃ key, segment = key ++ '=' :: mac ∧ key ≠ [] ∧ '=' ∉ key ∧
    (∀ c ∈ key, lib.wordChar c = true ∨ c = '-') ∧ mac.length = 17 ∧
    ∀ c ∈ mac, (Hex.value c).isSome ∨ c = ':'

/-- The texts between the commas of a value, without a newline at its end. -/
def segments (text : Text) : List Text :=
  (text.splitOn ',').dropLast ++ [beforeEnd ((text.splitOn ',').getLastD [])]

/-- The configuration has an adapter with an address and an index: an item `net` with the index, in
whose value the first text between commas that gives an address gives that one. -/
def IsAdapter (lib : Library) (config : Dict) (mac index : Text) : Prop :=
  ∃ name value before segment after given, (name, value) ∈ config ∧
    name.toList = "net".toList ++ index ∧ index ≠ [] ∧
    (∀ c ∈ index, (Text.decimal c).isSome) ∧
    segments (textOf lib value) = before ++ segment :: after ∧ GivesMac lib segment given ∧
    (∀ other ∈ before, ∀ mac', ¬ GivesMac lib other mac') ∧ mac = lower given

/-- The `ipconfig` of an adapter lists an address: a text between its commas is `ip=` or `ip6=`
with an interface of that address. -/
def Lists (lib : Library) (config : Dict) (index address : Text) : Prop :=
  ∃ key value ip, key ++ '=' :: value ∈
      (textOf lib (Dict.get config ("ipconfig" ++ String.ofList index) (.text ""))).splitOn ',' ∧
    (key = "ip".toList ∨ key = "ip6".toList) ∧ Ip.interfaceIp value = some ip ∧ address = ip.str

/-- The name of an adapter is `net` and an index of digits. -/
theorem netIndex_eq_some_iff {name index : Text} :
    netIndex name = some index ↔
      name = "net".toList ++ index ∧ index ≠ [] ∧ ∀ c ∈ index, (Text.decimal c).isSome := by
  unfold netIndex
  constructor
  · intro h
    split at h
    · split at h
      · rename_i hdigits
        cases h
        exact ⟨rfl, hdigits.1, List.all_eq_true.mp hdigits.2⟩
      · cases h
    · cases h
  · rintro ⟨rfl, hne, hdecimal⟩
    exact if_pos ⟨hne, List.all_eq_true.mpr hdecimal⟩

/-- A text between commas gives an address exactly when it has the form of one. -/
theorem macOf_eq_some_iff {segment mac : Text} :
    macOf lib segment = some mac ↔ GivesMac lib segment mac := by
  have hword : ∀ key : Text, (key.all fun c => lib.wordChar c || c = '-') = true ↔
      ∀ c ∈ key, lib.wordChar c = true ∨ c = '-' := by
    intro key
    simp only [List.all_eq_true, Bool.or_eq_true, decide_eq_true_eq]
  have hhex : ∀ mac : Text, (mac.all fun c => (Hex.value c).isSome || c = ':') = true ↔
      ∀ c ∈ mac, (Hex.value c).isSome ∨ c = ':' := by
    intro mac
    simp only [List.all_eq_true, Bool.or_eq_true, decide_eq_true_eq]
  unfold macOf
  by_cases hequals : '=' ∈ segment
  · obtain ⟨key, value, rfl, hnot⟩ := List.eq_append_cons_of_mem hequals
    rw [Csrf.partition_append hnot]
    dsimp only
    constructor
    · intro h
      split at h
      · rename_i hmatch
        obtain ⟨hne, hkey, -, hlength, hvalue⟩ := hmatch
        cases h
        exact ⟨key, rfl, hne, hnot, (hword key).mp hkey, hlength, (hhex _).mp hvalue⟩
      · cases h
    · rintro ⟨key', heq, hne, hnot', hkey, hlength, hvalue⟩
      have hsame := Csrf.partition_append hnot' mac
      rw [← heq, Csrf.partition_append hnot] at hsame
      obtain ⟨rfl, -, rfl⟩ := hsame
      rw [if_pos ⟨hne, (hword _).mpr hkey, rfl, hlength, (hhex _).mpr hvalue⟩]
  · rw [Csrf.partition_of_notMem hequals]
    dsimp only
    constructor
    · intro h
      split at h
      · rename_i hmatch
        exact absurd hmatch.2.2.1 Bool.false_ne_true
      · cases h
    · rintro ⟨key, rfl, -⟩
      exact absurd (List.mem_append_right _ List.mem_cons_self) hequals

/-- The search finds the first text between commas that gives an address. -/
theorem searchMac_eq_some_iff {text given : Text} :
    searchMac lib text = some given ↔
      ∃ before segment after, segments text = before ++ segment :: after ∧
        GivesMac lib segment given ∧ ∀ other ∈ before, ∀ mac, ¬ GivesMac lib other mac := by
  have hnone : ∀ other, macOf lib other = none ↔ ∀ mac, ¬ GivesMac lib other mac := by
    intro other
    rw [Option.eq_none_iff_forall_ne_some]
    exact forall_congr' fun mac => not_congr macOf_eq_some_iff
  have hunfold : searchMac lib text = (segments text).findSome? (macOf lib) := rfl
  rw [hunfold, List.findSome?_eq_some_iff]
  constructor
  · rintro ⟨before, segment, after, hsegments, hmac, hbefore⟩
    exact ⟨before, segment, after, hsegments, macOf_eq_some_iff.mp hmac,
      fun other hother => (hnone other).mp (hbefore other hother)⟩
  · rintro ⟨before, segment, after, hsegments, hmac, hbefore⟩
    exact ⟨before, segment, after, hsegments, macOf_eq_some_iff.mpr hmac,
      fun other hother => (hnone other).mpr (hbefore other hother)⟩

/-- The adapters that `adapters` is built from are those of the configuration. -/
theorem mem_adapters_iff {mac index : Text} :
    (mac, index) ∈ config.filterMap (adapterOf lib) ↔ IsAdapter lib config mac index := by
  rw [List.mem_filterMap]
  constructor
  · rintro ⟨⟨name, value⟩, hitem, hadapter⟩
    obtain ⟨index', hindex, hmap⟩ := Option.bind_eq_some_iff.mp hadapter
    obtain ⟨given, hgiven, heq⟩ := Option.map_eq_some_iff.mp hmap
    cases heq
    obtain ⟨hname, hne, hdecimal⟩ := netIndex_eq_some_iff.mp hindex
    obtain ⟨before, segment, after, hsegments, hgives, hbefore⟩ :=
      searchMac_eq_some_iff.mp hgiven
    exact ⟨name, value, before, segment, after, given, hitem, hname, hne, hdecimal, hsegments,
      hgives, hbefore, rfl⟩
  · rintro ⟨name, value, before, segment, after, given, hitem, hname, hne, hdecimal, hsegments,
      hgives, hbefore, rfl⟩
    refine ⟨(name, value), hitem, Option.bind_eq_some_iff.mpr ⟨index, ?_, ?_⟩⟩
    · exact netIndex_eq_some_iff.mpr ⟨hname, hne, hdecimal⟩
    · rw [searchMac_eq_some_iff.mpr ⟨before, segment, after, hsegments, hgives, hbefore⟩]
      rfl

/-- The addresses that are compared with are those that the `ipconfig` lists. -/
theorem mem_static_iff {index address : Text} :
    address ∈ static lib config index ↔ Lists lib config index address := by
  unfold static Lists
  rw [List.mem_filterMap]
  constructor
  · rintro ⟨item, hitem, hsome⟩
    by_cases hequals : '=' ∈ item
    · obtain ⟨key, value, rfl, hnot⟩ := List.eq_append_cons_of_mem hequals
      rw [Csrf.partition_append hnot] at hsome
      dsimp only at hsome
      split at hsome
      · rename_i hkey
        obtain ⟨ip, hip, rfl⟩ := Option.map_eq_some_iff.mp hsome
        rw [List.mem_pair] at hkey
        exact ⟨key, value, ip, hitem, hkey, hip, rfl⟩
      · cases hsome
    · -- an item without a value has no address
      rw [Csrf.partition_of_notMem hequals] at hsome
      dsimp only at hsome
      split at hsome <;> cases hsome
  · rintro ⟨key, value, ip, hitem, hkey, hip, rfl⟩
    refine ⟨_, hitem, ?_⟩
    have hnot : '=' ∉ key := by
      rcases hkey with rfl | rfl <;> decide
    rw [Csrf.partition_append hnot]
    dsimp only
    rw [if_pos (List.mem_pair.mpr hkey), hip]
    rfl

/-! ## The result -/

/-- The interfaces and their entries are at most as many as are looked at. -/
structure Bounded (interfaces : List Json) : Prop where
  few : interfaces.length ≤ 64
  entries : ∀ fields, Json.object fields ∈ interfaces → ∀ addresses,
    Dict.get fields "ip-addresses" (.list []) = .list addresses → addresses.length ≤ 64

/-- The adapters of the configuration have different addresses. -/
def DistinctAdapters (lib : Library) (config : Dict) : Prop :=
  ((config.filterMap (adapterOf lib)).map Prod.fst).Nodup

/-- An interface, and the same interface with its entries in another order. -/
inductive SameEntries : Json → Json → Prop where
  | same (interface : Json) : SameEntries interface interface
  | entries {fields fields' : Dict} {addresses addresses' : List Json}
      (others : ∀ key, key ≠ "ip-addresses" → fields.lookup key = fields'.lookup key)
      (before : fields.lookup "ip-addresses" = some (.list addresses))
      (after : fields'.lookup "ip-addresses" = some (.list addresses'))
      (perm : addresses.Perm addresses') : SameEntries (.object fields) (.object fields')

/-- The same interfaces in another order, with their entries in other orders. -/
def Reordered (interfaces interfaces' : List Json) : Prop :=
  ∃ middle, interfaces.Perm middle ∧ List.Forall₂ SameEntries middle interfaces'

/-- An entry of an interface gives an address. -/
def ReportedBy (lib : Library) (interfaces : List Json) (ip : Ip.Address) (mac : Text) : Prop :=
  ∃ fields, Json.object fields ∈ interfaces ∧ macAddress lib fields = mac ∧
    ∃ addresses, Dict.get fields "ip-addresses" (.list []) = .list addresses ∧
      ∃ entry, Json.object entry ∈ addresses ∧
        ∃ s, Dict.get entry "ip-address" = .text s ∧ Ip.Address.parse s.toList = some ip

/-- What is returned for the interfaces: usable addresses that an interface of an adapter
reports, each once, with the ones that the `ipconfig` of the adapter lists flagged and first. -/
structure Sound (lib : Library) (config : Dict) (interfaces : List Json)
    (result : List Candidate) : Prop where
  reported : ∀ c ∈ result, ∃ ip index, ReportedBy lib interfaces ip c.macAddress ∧
    c.address = ip.str ∧ (∀ p, ip.has lib.mapped p = false) ∧
      IsAdapter lib config c.macAddress index
  once : (result.map fun c => (c.address, c.macAddress)).Nodup
  flagged : ∀ c ∈ result, ∀ index, IsAdapter lib config c.macAddress index →
    (c.matchesCloudInit = true ↔ Lists lib config index c.address)
  atMost : result.length ≤ 32
  flaggedFirst : result.Pairwise fun c d => d.matchesCloudInit = true → c.matchesCloudInit = true
  others : ∀ ip mac index, ReportedBy lib interfaces ip mac → (∀ p, ip.has lib.mapped p = false) →
    IsAdapter lib config mac index → Lists lib config index ip.str →
      (∃ c ∈ result, c.address = ip.str ∧ c.macAddress = mac) ∨
        (result.length = 32 ∧ ∀ c ∈ result, c.matchesCloudInit = true)

/-! ## Candidates and reports -/

/-- An address is usable when it has none of the special properties. -/
theorem isUnusable_eq_false_iff {ip : Ip.Address} :
    isUnusable lib ip = false ↔ ∀ p, ip.has lib.mapped p = false := by
  unfold isUnusable
  rw [List.any_eq_false]
  constructor
  · intro h p
    have hp := h p (by cases p <;> decide)
    exact Bool.eq_false_iff.mpr hp
  · intro h p _
    rw [h p]
    exact Bool.false_ne_true

/-- The index of an adapter comes from an item of the configuration. -/
theorem mem_of_lookup {mac index : Text} (h : (adapters lib config).lookup mac = some index) :
    (mac, index) ∈ config.filterMap (adapterOf lib) := by
  obtain ⟨before, after, heq, -⟩ := List.lookup_eq_some_iff.mp h
  have hmem : (mac, index) ∈ adapters lib config := by
    rw [heq]
    exact List.mem_append_right _ List.mem_cons_self
  exact List.mem_reverse.mp hmem

/-- Of adapters with different addresses, each is found by its own. -/
theorem lookup_of_mem (hdistinct : DistinctAdapters lib config) {mac index : Text}
    (h : (mac, index) ∈ config.filterMap (adapterOf lib)) :
    (adapters lib config).lookup mac = some index := by
  cases hlookup : (adapters lib config).lookup mac with
  | none =>
    have hnone := List.lookup_eq_none_iff.mp hlookup (mac, index) (List.mem_reverse.mpr h)
    simp at hnone
  | some other =>
    have hother := mem_of_lookup hlookup
    have heq := List.inj_on_of_nodup_map hdistinct h hother rfl
    rw [(Prod.mk.inj heq).2]

/-- A candidate is reported exactly when an interface of a known adapter gives its usable address,
with the flag that the adapter's `ipconfig` decides. -/
theorem mem_reported (hbounded : Bounded interfaces) {c : Candidate} :
    c ∈ reported lib config interfaces ↔
      ∃ ip index, ReportedBy lib interfaces ip c.macAddress ∧
        (adapters lib config).lookup c.macAddress = some index ∧
        (∀ p, ip.has lib.mapped p = false) ∧
        c = ⟨ip.str, c.macAddress, ip.str ∈ static lib config index⟩ := by
  unfold reported
  rw [List.take_of_length_le hbounded.few, List.mem_flatMap]
  constructor
  · rintro ⟨interface, hinterface, hc⟩
    obtain ⟨fields, index, addresses, rfl, hindex, haddresses, entry, hentry, hcandidate⟩ :=
      mem_interfaceCandidates.mp hc
    obtain ⟨entryFields, s, ip, rfl, hs, hparse, husable, rfl⟩ :=
      entryCandidate_eq_some_iff.mp hcandidate
    exact ⟨ip, index, ⟨fields, hinterface, rfl, addresses, haddresses, entryFields,
      List.mem_of_mem_take hentry, s, hs, hparse⟩, hindex, isUnusable_eq_false_iff.mp husable, rfl⟩
  · rintro ⟨ip, index, ⟨fields, hinterface, hmac, addresses, haddresses, entry, hentry, s, hs,
      hparse⟩, hindex, husable, hc⟩
    refine ⟨.object fields, hinterface, mem_interfaceCandidates.mpr
      ⟨fields, index, addresses, rfl, hmac ▸ hindex, haddresses, .object entry, ?_, ?_⟩⟩
    · rw [List.take_of_length_le (hbounded.entries fields hinterface addresses haddresses)]
      exact hentry
    · rw [hmac]
      exact entryCandidate_eq_some_iff.mpr ⟨entry, s, ip, rfl, hs, hparse,
        isUnusable_eq_false_iff.mpr husable, hc⟩

/-! ## Other orders of the reports -/

/-- Having the same entries goes both ways. -/
theorem SameEntries.symm {interface interface' : Json} (h : SameEntries interface interface') :
    SameEntries interface' interface := by
  cases h with
  | same => exact .same _
  | entries others before after perm =>
    exact .entries (fun key hkey => (others key hkey).symm) after before perm.symm

/-- An object keeps its address and the entries that it has. -/
theorem SameEntries.object {interface' : Json} {fields : Dict}
    (h : SameEntries (.object fields) interface') :
    ∃ fields', interface' = .object fields' ∧
      Dict.get fields' "hardware-address" (.text "") =
        Dict.get fields "hardware-address" (.text "") ∧
      ∀ addresses, Dict.get fields "ip-addresses" (.list []) = .list addresses →
        ∃ addresses', Dict.get fields' "ip-addresses" (.list []) = .list addresses' ∧
          addresses.Perm addresses' := by
  cases h with
  | same => exact ⟨fields, rfl, rfl, fun addresses h => ⟨addresses, h, .refl _⟩⟩
  | @entries _ fields' addresses addresses' others before after perm =>
    refine ⟨fields', rfl, ?_, fun given hgiven => ⟨addresses', ?_, ?_⟩⟩
    · unfold Dict.get
      rw [others "hardware-address" (by decide)]
    · unfold Dict.get
      rw [after]
      rfl
    · unfold Dict.get at hgiven
      rw [before, Option.getD_some] at hgiven
      rw [← Json.list.inj hgiven]
      exact perm

/-- Every interface stands for one of the others. -/
theorem Reordered.mem {interfaces' : List Json} (h : Reordered interfaces interfaces') :
    (∀ i ∈ interfaces, ∃ i' ∈ interfaces', SameEntries i i') ∧
      ∀ i' ∈ interfaces', ∃ i ∈ interfaces, SameEntries i i' := by
  obtain ⟨middle, hperm, hsame⟩ := h
  have hforward : ∀ {l l' : List Json}, List.Forall₂ SameEntries l l' →
      (∀ i ∈ l, ∃ i' ∈ l', SameEntries i i') ∧ ∀ i' ∈ l', ∃ i ∈ l, SameEntries i i' := by
    intro l l' hl
    induction hl with
    | nil => simp
    | @cons i i' l l' hi _ ih =>
      constructor
      · intro j hj
        rcases List.mem_cons.mp hj with rfl | hj
        · exact ⟨i', List.mem_cons_self, hi⟩
        · obtain ⟨j', hj', hjj'⟩ := ih.1 j hj
          exact ⟨j', List.mem_cons_of_mem _ hj', hjj'⟩
      · intro j' hj'
        rcases List.mem_cons.mp hj' with rfl | hj'
        · exact ⟨i, List.mem_cons_self, hi⟩
        · obtain ⟨j, hj, hjj'⟩ := ih.2 j' hj'
          exact ⟨j, List.mem_cons_of_mem _ hj, hjj'⟩
  refine ⟨fun i hi => (hforward hsame).1 i (hperm.mem_iff.mp hi), fun i' hi' => ?_⟩
  obtain ⟨i, hi, hii'⟩ := (hforward hsame).2 i' hi'
  exact ⟨i, hperm.mem_iff.mpr hi, hii'⟩

/-- What is reported is reported by interfaces that the interfaces stand for. -/
theorem reportedBy_of_same {interfaces' : List Json} {ip : Ip.Address} {mac : Text}
    (h : ∀ i ∈ interfaces, ∃ i' ∈ interfaces', SameEntries i i')
    (hreported : ReportedBy lib interfaces ip mac) : ReportedBy lib interfaces' ip mac := by
  obtain ⟨fields, hfields, hmac, addresses, haddresses, entry, hentry, s, hs, hparse⟩ := hreported
  obtain ⟨i', hi', hsame⟩ := h _ hfields
  obtain ⟨fields', rfl, hhardware, hentries⟩ := hsame.object
  obtain ⟨addresses', haddresses', hperm⟩ := hentries addresses haddresses
  have hmac' : macAddress lib fields' = mac := by
    rw [← hmac, macAddress, hhardware]
    rfl
  exact ⟨fields', hi', hmac', addresses', haddresses', entry, hperm.mem_iff.mp hentry,
    s, hs, hparse⟩

/-- In another order there are as many interfaces and entries. -/
theorem Bounded.reordered {interfaces' : List Json} (hbounded : Bounded interfaces)
    (h : Reordered interfaces interfaces') : Bounded interfaces' where
  few := by
    obtain ⟨middle, hperm, hsame⟩ := h
    rw [← hsame.length_eq, ← hperm.length_eq]
    exact hbounded.few
  entries := by
    intro fields' hfields' addresses' haddresses'
    obtain ⟨i, hi, hsame⟩ := h.mem.2 _ hfields'
    obtain ⟨fields, rfl, -, hentries⟩ := hsame.symm.object
    obtain ⟨addresses, haddresses, hperm⟩ := hentries addresses' haddresses'
    rw [hperm.length_eq]
    exact hbounded.entries fields hi addresses haddresses

/-- In another order the same candidates are reported. -/
theorem reported_reordered {interfaces' : List Json} (hbounded : Bounded interfaces)
    (h : Reordered interfaces interfaces') (c : Candidate) :
    c ∈ reported lib config interfaces ↔ c ∈ reported lib config interfaces' := by
  have hback : ∀ i' ∈ interfaces', ∃ i ∈ interfaces, SameEntries i' i := by
    intro i' hi'
    obtain ⟨i, hi, hsame⟩ := h.mem.2 i' hi'
    exact ⟨i, hi, hsame.symm⟩
  rw [mem_reported hbounded, mem_reported (hbounded.reordered h)]
  constructor
  · rintro ⟨ip, index, hreported, hrest⟩
    exact ⟨ip, index, reportedBy_of_same h.mem.1 hreported, hrest⟩
  · rintro ⟨ip, index, hreported, hrest⟩
    exact ⟨ip, index, reportedBy_of_same hback hreported, hrest⟩

/-! ## The main result -/

/-- The candidates that are found. -/
def found (lib : Library) (config : Dict) (interfaces : List Json) : List Candidate :=
  (interfaces.take 64).foldl (addInterface lib config) []

/-- What is found is what is reported. -/
theorem mem_found {c : Candidate} :
    c ∈ found lib config interfaces ↔ c ∈ reported lib config interfaces :=
  (holds_reported lib config interfaces).mem c

/-- The address of every candidate is read again. -/
theorem parse_of_mem_found : ∀ c ∈ found lib config interfaces,
    ∃ ip, Ip.Address.parse c.address = some ip := by
  intro c hc
  obtain ⟨ip, hip, -⟩ := parse_address_of_reported (mem_found.mp hc)
  exact ⟨ip, hip⟩

/-- No candidate is found twice. -/
theorem nodup_found : (found lib config interfaces).Nodup :=
  (holds_reported lib config interfaces).keys.of_map _

/-- The sort has a key for every candidate. -/
theorem candidateAddresses_eq :
    candidateAddresses lib config interfaces =
      some ((ordered (found lib config interfaces)).take 32) := by
  have hkeys : (found lib config interfaces).mapM
        (fun c => (sortKey c).map fun key => (key, c)) =
      some ((found lib config interfaces).map fun c => (rank c, c)) := by
    apply mapM_eq_map
    intro c hc
    obtain ⟨ip, hip, -⟩ := parse_address_of_reported (mem_found.mp hc)
    rw [(sortKey_eq_rank hip).1]
    rfl
  have hunfold : candidateAddresses lib config interfaces =
      ((found lib config interfaces).mapM
        (fun c => (sortKey c).map fun key => (key, c))).map fun keyed =>
          ((keyed.mergeSort fun a b => a.1 ≤ b.1).map Prod.snd).take 32 := rfl
  rw [hunfold, hkeys]
  rfl

/-- In another order the same list is returned, since the candidates are sorted by distinct keys. -/
theorem candidateAddresses_reordered {interfaces' : List Json} (hbounded : Bounded interfaces)
    (h : Reordered interfaces interfaces') :
    candidateAddresses lib config interfaces' = candidateAddresses lib config interfaces := by
  have hperm : (found lib config interfaces).Perm (found lib config interfaces') := by
    rw [List.perm_ext_iff_of_nodup nodup_found nodup_found]
    intro c
    rw [mem_found, mem_found]
    exact reported_reordered hbounded h c
  rw [candidateAddresses_eq, candidateAddresses_eq, ordered_congr parse_of_mem_found hperm]

/-- Each of the first candidates is a reported one. -/
theorem mem_of_mem_take_ordered {c : Candidate}
    (h : c ∈ (ordered (found lib config interfaces)).take 32) :
    c ∈ reported lib config interfaces :=
  mem_found.mp ((ordered_perm _).mem_iff.mp (List.mem_of_mem_take h))

/-- In the order of the keys every flagged candidate comes before those that are not. -/
theorem pairwise_flagged (lib : Library) (config : Dict) (interfaces : List Json) :
    (ordered (found lib config interfaces)).Pairwise fun c d =>
      d.matchesCloudInit = true → c.matchesCloudInit = true := by
  refine (ordered_pairwise _).imp_of_mem fun hc hd hle hflag => ?_
  obtain ⟨ip, hip, -⟩ := parse_address_of_reported (mem_found.mp ((ordered_perm _).mem_iff.mp hc))
  obtain ⟨ip', hip', -⟩ :=
    parse_address_of_reported (mem_found.mp ((ordered_perm _).mem_iff.mp hd))
  exact flagged_of_rank_le hip hip' hle hflag

/-- The first candidates in the order of their keys are sound. -/
theorem sound_take_ordered (hdistinct : DistinctAdapters lib config)
    (hbounded : Bounded interfaces) :
    Sound lib config interfaces ((ordered (found lib config interfaces)).take 32) where
  reported := by
    intro c hc
    obtain ⟨ip, index, hreported, hindex, husable, heq⟩ :=
      (mem_reported hbounded).mp (mem_of_mem_take_ordered hc)
    exact ⟨ip, index, hreported, congrArg Candidate.address heq, husable,
      mem_adapters_iff.mp (mem_of_lookup hindex)⟩
  once := by
    have hkeys : ((ordered (found lib config interfaces)).map Candidate.key).Nodup :=
      ((ordered_perm _).map Candidate.key).nodup_iff.mpr (holds_reported lib config interfaces).keys
    exact hkeys.sublist ((List.take_sublist 32 _).map Candidate.key)
  flagged := by
    intro c hc index hindex
    have hflag := matchesCloudInit_of_reported (mem_of_mem_take_ordered hc)
    unfold flagOf at hflag
    rw [lookup_of_mem hdistinct (mem_adapters_iff.mpr hindex), Option.any_some] at hflag
    rw [hflag, decide_eq_true_iff, mem_static_iff]
  atMost := by
    rw [List.length_take]
    exact Nat.min_le_left 32 _
  flaggedFirst := (pairwise_flagged lib config interfaces).sublist (List.take_sublist 32 _)
  others := by
    intro ip mac index hreported husable hadapter hlists
    have hindex := mem_adapters_iff.mpr hadapter
    have hlisted := mem_static_iff.mpr hlists
    have hc : ⟨ip.str, mac, ip.str ∈ static lib config index⟩ ∈ reported lib config interfaces :=
      (mem_reported hbounded).mpr
        ⟨ip, index, hreported, lookup_of_mem hdistinct hindex, husable, rfl⟩
    by_cases hin : ⟨ip.str, mac, ip.str ∈ static lib config index⟩ ∈
        (ordered (found lib config interfaces)).take 32
    · exact .inl ⟨_, hin, rfl, rfl⟩
    · have hmem := (ordered_perm _).mem_iff.mpr (mem_found.mpr hc)
      obtain ⟨hlength, hbefore⟩ :=
        before_of_cut (pairwise_flagged lib config interfaces) hmem hin
      exact .inr ⟨hlength, fun c hc => hbefore c hc (decide_eq_true hlisted)⟩

/-- The addresses of a guest are sound, and they are the same whatever the order in which the
guest reports them. -/
theorem candidateAddresses_sound (lib : Library) (config : Dict) (interfaces : List Json)
    (hdistinct : DistinctAdapters lib config) (hbounded : Bounded interfaces) :
    ∃ result, candidateAddresses lib config interfaces = some result ∧
      Sound lib config interfaces result ∧
      ∀ interfaces', Reordered interfaces interfaces' →
        candidateAddresses lib config interfaces' = some result :=
  ⟨(ordered (found lib config interfaces)).take 32, candidateAddresses_eq,
    sound_take_ordered hdistinct hbounded, fun _ h =>
      (candidateAddresses_reordered hbounded h).trans candidateAddresses_eq⟩

namespace Fixture

/-- Letters, digits and underscores for `\w`, and mapped addresses with all properties of the
addresses that they stand for. -/
def library : Library where
  repr := fun _ => ""
  wordChar := fun c => c.isAlphanum || c = '_'
  mapped := fun _ => true

def guestConfig : Dict :=
  [("net0", .text "virtio=02:00:00:00:00:01,bridge=vmbr0"),
    ("net1", .text "e1000=02:00:00:00:00:02,bridge=vmbr1"),
    ("ipconfig0", .text "ip=dhcp"), ("ipconfig1", .text "ip=192.0.2.10/24,gw=192.0.2.1")]

/-- Two adapters that report an address each and the first a loopback address, and an interface
that is none of the machine's. -/
def guestInterfaces : List Json :=
  [.object [("hardware-address", .text "02:00:00:00:00:01"),
      ("ip-addresses", .list [.object [("ip-address", .text "127.0.0.1")],
        .object [("ip-address", .text "198.51.100.7")]])],
    .object [("hardware-address", .text "02:00:00:00:00:02"),
      ("ip-addresses", .list [.object [("ip-address", .text "192.0.2.10")]])],
    .object [("hardware-address", .text "02:00:00:00:00:03"),
      ("ip-addresses", .list [.object [("ip-address", .text "192.0.2.11")]])]]

/-- The interfaces of the fixture are few, with few entries. -/
theorem guestInterfaces_bounded : Bounded guestInterfaces where
  few := by decide
  entries := by
    intro fields hfields addresses haddresses
    simp only [guestInterfaces, List.mem_cons, Json.object.injEq, List.not_mem_nil,
      or_false] at hfields
    rcases hfields with rfl | rfl | rfl <;>
      · obtain rfl := Json.list.inj haddresses
        decide

/-- The adapters of the fixture have different addresses. -/
theorem guestConfig_distinct : DistinctAdapters library guestConfig := by
  unfold DistinctAdapters
  decide +kernel

/-- The two addresses that are returned, the listed one first. -/
def guestCandidates : List Candidate :=
  [⟨"192.0.2.10".toList, "02:00:00:00:00:02".toList, true⟩,
    ⟨"198.51.100.7".toList, "02:00:00:00:00:01".toList, false⟩]

/-- In the fixture two candidates are found. -/
theorem found_perm : (found library guestConfig guestInterfaces).Perm guestCandidates := by
  have hfound : found library guestConfig guestInterfaces = guestCandidates.reverse := by
    decide +kernel
  rw [hfound]
  exact guestCandidates.reverse_perm

/-- In the fixture the flagged candidate is returned first. -/
theorem candidateAddresses_guest :
    candidateAddresses library guestConfig guestInterfaces = some guestCandidates := by
  have hsorted : guestCandidates.Pairwise fun c d => rank c ≤ rank d := by
    decide +kernel
  rw [candidateAddresses_eq, ordered_eq parse_of_mem_found found_perm hsorted]
  rfl

/-- The two addresses of the fixture are sound, in every order of its interfaces. -/
theorem candidateAddresses_sound_reported :
    Sound library guestConfig guestInterfaces guestCandidates ∧
      ∀ interfaces', Reordered guestInterfaces interfaces' →
        candidateAddresses library guestConfig interfaces' = some guestCandidates := by
  obtain ⟨result, hresult, hsound, hreordered⟩ := candidateAddresses_sound library guestConfig
    guestInterfaces guestConfig_distinct guestInterfaces_bounded
  rw [candidateAddresses_guest] at hresult
  cases hresult
  exact ⟨hsound, hreordered⟩

end Fixture

end LabGoblin.GuestDiscovery
