import LabGoblin.Analysis.CookieWrites
import LabGoblin.Analysis.Framing
import LabGoblin.Analysis.SourceUrls
import LabGoblin.Computation.IpLowerCase
import LabGoblin.Model.ProxmoxUrl

/-!
# Canonical URLs

A network location that is put together from a host and a port is divided into them again. So
the URL under which a cluster is kept is read as the target that was checked, two clusters are
kept under one URL exactly when they name one target, and an origin is trusted exactly when its
scheme, host and port are those of a trusted one.
-/

set_option autoImplicit false

namespace LabGoblin.Csrf

open Interactive
open Csrf (partition_of_notMem)
open ProxmoxUrl (bracketed portSuffix)

/-! ## Hosts and ports -/

/-- Without the separator, `rpartition` gives the whole text as its last part. -/
theorem rpartition_of_notMem {c : Char} {s : Text} (h : c ∉ s) :
    rpartition c s = ([], false, s) := by
  have hreverse : c ∉ s.reverse := fun hmem => h (List.mem_reverse.mp hmem)
  unfold rpartition
  rw [List.dropWhile_eq_nil_iff.mpr (Csrf.ne_of_notMem hreverse)]

/-- The digits of a port. -/
def portText (port : Option ℕ) : Text := port.elim [] fun n => (toString n).toList

/-- Lean writes a number with its decimal digits. -/
theorem toList_toString (n : ℕ) : (toString n).toList = Nat.toDigits 10 n := by
  show (String.ofList (Nat.toDigits 10 n)).toList = _
  rw [String.toList_ofList]

/-- The suffix of a port is made of a colon and digits. -/
theorem mem_portSuffix {port : Option ℕ} {c : Char} (h : c ∈ portSuffix port) :
    c = ':' ∨ c.isDigit = true := by
  cases port with
  | none => exact absurd h List.not_mem_nil
  | some n =>
    rcases List.mem_cons.mp h with hcolon | hdigit
    · exact .inl hcolon
    · rw [toList_toString] at hdigit
      exact .inr (Nat.isDigit_of_mem_toDigits (by decide) (by decide) hdigit)

/-- What is neither a colon nor a digit does not occur in the suffix of a port. -/
theorem notMem_portSuffix {port : Option ℕ} {c : Char} (hcolon : c ≠ ':')
    (hdigit : c.isDigit = false) : c ∉ portSuffix port := by
  intro hmem
  rcases mem_portSuffix hmem with h | h
  · exact hcolon h
  · rw [h] at hdigit
    cases hdigit

/-- Behind the colon of the suffix stand the digits of the port. -/
theorem partition_portSuffix (port : Option ℕ) :
    (partition ':' (portSuffix port)).2.2 = portText port := by
  cases port with
  | none => rfl
  | some n =>
    have hparts := Csrf.partition_append (s := []) (c := ':') List.not_mem_nil
      (toString n).toList
    exact congrArg (fun x => x.2.2) hparts

/-- Two ports with the same digits are one port. -/
theorem portText_injective {port port' : Option ℕ} (h : portText port = portText port') :
    port = port' := by
  have hne : ∀ n : ℕ, (toString n).toList ≠ [] := by
    intro n hnil
    rw [toList_toString] at hnil
    exact Nat.toDigits_ne_nil hnil
  cases port with
  | none =>
    cases port' with
    | none => rfl
    | some n => exact absurd h.symm (hne n)
  | some m =>
    cases port' with
    | none => exact absurd h (hne m)
    | some n =>
      have htext : (toString m).toList = (toString n).toList := h
      rw [toList_toString, toList_toString] at htext
      have hvalue := congrArg (fun digits => Nat.ofDigitChars 10 digits 0) htext
      simp only [Nat.ofDigitChars_toDigits (show 1 < 10 by decide) (by decide)] at hvalue
      rw [hvalue]

/-- A host in which nothing is read as the end of it. -/
structure IsHost (host : Text) : Prop where
  noAt : '@' ∉ host
  noClose : ']' ∉ host
  noOpen : '[' ∈ host → ':' ∈ host

/-- A host with a colon is written between brackets, any other host as it is. -/
theorem mem_bracketed {host : Text} {c : Char} :
    c ∈ bracketed host ↔ c ∈ host ∨ (':' ∈ host ∧ (c = '[' ∨ c = ']')) := by
  unfold bracketed
  by_cases hcolon : ':' ∈ host
  · rw [if_pos hcolon]
    simp only [List.mem_cons, List.mem_append, List.not_mem_nil, or_false, hcolon, true_and]
    tauto
  · rw [if_neg hcolon]
    simp only [hcolon, false_and, or_false]

/-- A host that is not taken for one in brackets. -/
structure WellBracketed (host : Text) : Prop where
  noClose : ']' ∉ host
  head : host.head? = some '[' → ':' ∈ host

/-- Two ports with the same suffix are one port. -/
theorem portSuffix_injective {port port' : Option ℕ} (h : portSuffix port = portSuffix port') :
    port = port' := by
  refine portText_injective ?_
  rw [← partition_portSuffix, ← partition_portSuffix, h]

/-- A location that starts with an opening bracket is one of a host with a colon. -/
theorem colon_of_head_eq {host : Text} (port : Option ℕ) (h : WellBracketed host)
    (hhead : (bracketed host ++ portSuffix port).head? = some '[') : ':' ∈ host := by
  by_contra hcolon
  unfold bracketed at hhead
  rw [if_neg hcolon] at hhead
  cases host with
  | nil =>
    cases port with
    | none => cases hhead
    | some n => exact absurd (Option.some.inj hhead) (by decide)
  | cons c host => exact hcolon (h.head hhead)

/-- A host and a port are told from the network location that they make. -/
theorem location_injective {host host' : Text} {port port' : Option ℕ} (h : WellBracketed host)
    (h' : WellBracketed host')
    (heq : bracketed host ++ portSuffix port = bracketed host' ++ portSuffix port') :
    host = host' ∧ port = port' := by
  have hiff : ':' ∈ host ↔ ':' ∈ host' := by
    constructor
    · intro hcolon
      refine colon_of_head_eq port' h' ?_
      rw [← heq]
      unfold bracketed
      rw [if_pos hcolon]
      rfl
    · intro hcolon
      refine colon_of_head_eq port h ?_
      rw [heq]
      unfold bracketed
      rw [if_pos hcolon]
      rfl
  unfold bracketed at heq
  by_cases hcolon : ':' ∈ host
  · rw [if_pos hcolon, if_pos (hiff.mp hcolon)] at heq
    simp only [List.cons_append, List.append_assoc, List.nil_append, List.cons.injEq,
      true_and] at heq
    have hparts := Csrf.partition_append h.noClose (portSuffix port)
    rw [heq, Csrf.partition_append h'.noClose] at hparts
    have hhost := congrArg Prod.fst hparts
    have hport := congrArg (fun x => x.2.2) hparts
    exact ⟨hhost.symm, portSuffix_injective hport.symm⟩
  · have hcolon' : ':' ∉ host' := fun hmem => hcolon (hiff.mpr hmem)
    have hread : ∀ (s : Text) (p : Option ℕ), ':' ∉ s →
        (partition ':' (s ++ portSuffix p)).1 = s := by
      intro s p hs
      cases p with
      | none => rw [show portSuffix none = [] from rfl, List.append_nil, partition_of_notMem hs]
      | some n => exact congrArg Prod.fst (Csrf.partition_append hs _)
    rw [if_neg hcolon, if_neg hcolon'] at heq
    have hhost : host = host' := by
      rw [← hread host port hcolon, heq, hread host' port' hcolon']
    rw [hhost] at heq
    exact ⟨hhost, portSuffix_injective (List.append_cancel_left heq)⟩

/-- A network location of a host and a port is divided into them. -/
theorem hostinfo_eq (parsed : SplitResult) {host : Text} {port : Option ℕ} (h : IsHost host)
    (hnetloc : parsed.netloc = bracketed host ++ portSuffix port) :
    parsed.hostinfo = (host, portText port) := by
  have hat : '@' ∉ parsed.netloc := by
    rw [hnetloc, List.mem_append, mem_bracketed]
    rintro ((hmem | ⟨-, hmem⟩) | hmem)
    · exact h.noAt hmem
    · rcases hmem with hmem | hmem <;> cases hmem
    · exact notMem_portSuffix (by decide) (by decide) hmem
  unfold SplitResult.hostinfo
  rw [rpartition_of_notMem hat]
  dsimp only
  rw [hnetloc]
  unfold bracketed
  by_cases hcolon : ':' ∈ host
  · have hopen := Csrf.partition_append (c := '[') (s := []) List.not_mem_nil
      (host ++ ']' :: portSuffix port)
    rw [if_pos hcolon, show ('[' :: (host ++ [']'])) ++ portSuffix port =
      [] ++ '[' :: (host ++ ']' :: portSuffix port) by simp, hopen]
    dsimp only
    rw [if_pos rfl, Csrf.partition_append h.noClose]
    dsimp only
    rw [partition_portSuffix]
  · have hopen : '[' ∉ host ++ portSuffix port := by
      rw [List.mem_append]
      rintro (hmem | hmem)
      · exact hcolon (h.noOpen hmem)
      · exact notMem_portSuffix (by decide) (by decide) hmem
    rw [if_neg hcolon, partition_of_notMem hopen]
    dsimp only
    rw [if_neg (by decide)]
    cases port with
    | none =>
      rw [show host ++ portSuffix none = host from List.append_nil host,
        partition_of_notMem hcolon]
      rfl
    | some n =>
      rw [show host ++ portSuffix (some n) = host ++ ':' :: (toString n).toList from rfl,
        Csrf.partition_append hcolon]
      rfl

/-- A port that is written out is read back. -/
theorem port_eq {parsed : SplitResult} {port : Option ℕ}
    (hport : parsed.hostinfo.2 = portText port) (hmost : ∀ n ∈ port, n ≤ 65535) :
    parsed.port = .ok port := by
  unfold SplitResult.port
  rw [hport]
  cases port with
  | none => exact if_pos rfl
  | some n =>
    have hn : n ≤ 65535 := hmost n rfl
    have hdigits := Guacamole.lengthDigits_toDigits (show n ≤ 9999999 by omega)
    have htext : portText (some n) = Nat.toDigits 10 n := toList_toString n
    dsimp only
    rw [htext, if_neg hdigits.nonempty, hdigits.isdigit, hdigits.isascii, hdigits.value]
    exact if_pos hn

/-! ## What a checked value says of its host -/

variable {lib : Library}

/-- What stands before the separator comes from the text and is not the separator. -/
theorem mem_partition_fst {c d : Char} {s : Text} (h : c ∈ (partition d s).1) : c ∈ s ∧ c ≠ d := by
  by_cases hd : d ∈ s
  · obtain ⟨before, after, rfl, hnot⟩ := List.eq_append_cons_of_mem hd
    rw [Csrf.partition_append hnot] at h
    refine ⟨List.mem_append_left _ h, ?_⟩
    rintro rfl
    exact hnot h
  · rw [partition_of_notMem hd] at h
    refine ⟨h, ?_⟩
    rintro rfl
    exact hd h

/-- What stands behind the separator comes from the text. -/
theorem mem_partition_snd {c d : Char} {s : Text} (h : c ∈ (partition d s).2.2) : c ∈ s := by
  by_cases hd : d ∈ s
  · obtain ⟨before, after, rfl, hnot⟩ := List.eq_append_cons_of_mem hd
    rw [Csrf.partition_append hnot] at h
    exact List.mem_append_right _ (List.mem_cons_of_mem _ h)
  · rw [partition_of_notMem hd] at h
    exact absurd h List.not_mem_nil

/-- The separator is found exactly when it occurs in the text. -/
theorem partition_found {d : Char} {s : Text} : (partition d s).2.1 = true ↔ d ∈ s := by
  by_cases hd : d ∈ s
  · obtain ⟨before, after, rfl, hnot⟩ := List.eq_append_cons_of_mem hd
    rw [Csrf.partition_append hnot]
    exact iff_of_true rfl hd
  · rw [partition_of_notMem hd]
    exact iff_of_false Bool.false_ne_true hd

/-- What the checks of a network location without user information say of its host. -/
structure Divided (lib : Library) (parsed : SplitResult) : Prop where
  sub : ∀ c ∈ parsed.hostinfo.1, c ∈ parsed.netloc
  noClose : ']' ∉ parsed.hostinfo.1
  plain : '[' ∉ parsed.netloc → ':' ∉ parsed.hostinfo.1
  checked : '[' ∈ parsed.netloc → checkBracketedHost parsed.hostinfo.1 = .ok ()

/-- Without user information the host is what stands in the brackets, or before the first colon. -/
theorem hostinfo_of_notMem {parsed : SplitResult} (hat : '@' ∉ parsed.netloc) :
    parsed.hostinfo.1 = if '[' ∈ parsed.netloc then
      (partition ']' (partition '[' parsed.netloc).2.2).1
    else (partition ':' parsed.netloc).1 := by
  unfold SplitResult.hostinfo
  rw [rpartition_of_notMem hat]
  dsimp only
  by_cases hopen : '[' ∈ parsed.netloc
  · rw [if_pos hopen, if_pos (partition_found.mpr hopen)]
  · rw [if_neg hopen, if_neg (fun h => hopen (partition_found.mp h))]

/-- In a checked location without user information the bracketed host has been checked. -/
theorem checkBracketedHost_of_netloc {netloc : Text} (hat : '@' ∉ netloc) (hopen : '[' ∈ netloc)
    (h : checkBracketedNetloc netloc = .ok ()) :
    checkBracketedHost (partition ']' (partition '[' netloc).2.2).1 = .ok () := by
  unfold checkBracketedNetloc at h
  rw [rpartition_of_notMem hat] at h
  dsimp only at h
  rw [if_pos (partition_found.mpr hopen)] at h
  split at h
  · cases h
  · split at h
    · cases h
    · exact h

/-- The checks of a location without user information say of its host what is needed. -/
theorem Divided.of_checked (alib : AssetSource.Library) {parsed : SplitResult}
    (hat : '@' ∉ parsed.netloc)
    (h : AssetSource.checkAuthority alib parsed.netloc = .ok ()) :
    Divided alib.toLibrary parsed := by
  have hhost := hostinfo_of_notMem hat
  unfold AssetSource.checkAuthority at h
  by_cases hunpaired : ('[' ∈ parsed.netloc ∧ ']' ∉ parsed.netloc) ∨
      (']' ∈ parsed.netloc ∧ '[' ∉ parsed.netloc)
  · rw [if_pos hunpaired] at h
    cases h
  · rw [if_neg hunpaired] at h
    by_cases hopen : '[' ∈ parsed.netloc
    · rw [if_pos hopen] at hhost h
      cases hcheck : checkBracketedNetloc parsed.netloc with
      | error e =>
        rw [hcheck] at h
        cases h
      | ok _ =>
        have hbracketed := checkBracketedHost_of_netloc hat hopen hcheck
        rw [← hhost] at hbracketed
        refine ⟨?_, ?_, fun hnot => absurd hopen hnot, fun _ => hbracketed⟩
        · intro c hc
          rw [hhost] at hc
          exact mem_partition_snd (mem_partition_fst hc).1
        · intro hc
          rw [hhost] at hc
          exact (mem_partition_fst hc).2 rfl
    · rw [if_neg hopen] at hhost
      refine ⟨?_, ?_, ?_, fun hmem => absurd hmem hopen⟩
      · intro c hc
        rw [hhost] at hc
        exact (mem_partition_fst hc).1
      · intro hc
        rw [hhost] at hc
        exact hunpaired (.inr ⟨(mem_partition_fst hc).1, hopen⟩)
      · intro _ hc
        rw [hhost] at hc
        exact (mem_partition_fst hc).2 rfl

/-! ## Lower case -/

/-- The characters that a URL is divided at or that are taken out of one. -/
def urlMarks : Text := "/?#@[]:%\t\r\n".toList

/-- What `str.lower` does with these characters and with ASCII text. -/
structure Lowers (lib : Library) : Prop where
  idem : ∀ s, lib.lower (lib.lower s) = lib.lower s
  mark : ∀ s, ∀ c ∈ urlMarks, c ∈ lib.lower s ↔ c ∈ s
  percent : ∀ s t, lib.lower (s ++ '%' :: t) = lib.lower s ++ '%' :: lib.lower t
  ascii : ∀ s t, Text.isascii s = true →
    ∃ t', lib.lower (s ++ t) = s.map Char.toLower ++ t' ∧ (t' = [] ↔ t = [])

/-- Only the empty text is empty in lower case. -/
theorem Lowers.eq_nil_iff (hl : Lowers lib) (s : Text) : lib.lower s = [] ↔ s = [] := by
  obtain ⟨t', heq, hnil⟩ := hl.ascii [] s rfl
  rw [List.nil_append] at heq
  rw [heq]
  exact hnil

/-- A host is lowered as a whole, whatever case its zone was left in. -/
theorem Lowers.hostname (hl : Lowers lib) (parsed : SplitResult) :
    lib.lower (parsed.hostname lib) = lib.lower parsed.hostinfo.1 := by
  unfold SplitResult.hostname
  by_cases hpercent : '%' ∈ parsed.hostinfo.1
  · obtain ⟨before, zone, hsplit, hnot⟩ := List.eq_append_cons_of_mem hpercent
    rw [hsplit, Csrf.partition_append hnot]
    dsimp only
    rw [if_pos rfl, hl.percent, hl.percent, hl.idem]
  · rw [partition_of_notMem hpercent]
    dsimp only
    rw [if_neg Bool.false_ne_true, List.append_nil, hl.idem]

/-- A host in lower case is its own host name. -/
theorem Lowers.hostname_of_lower (hl : Lowers lib) {parsed : SplitResult} {s : Text}
    (h : parsed.hostinfo.1 = lib.lower s) : parsed.hostname lib = lib.lower s := by
  unfold SplitResult.hostname
  rw [h]
  by_cases hpercent : '%' ∈ s
  · obtain ⟨before, zone, rfl, hnot⟩ := List.eq_append_cons_of_mem hpercent
    have hlowered : '%' ∉ lib.lower before := fun hmem =>
      hnot ((hl.mark before '%' (by decide)).mp hmem)
    rw [hl.percent, Csrf.partition_append hlowered]
    dsimp only
    rw [if_pos rfl, hl.idem]
  · have hlowered : '%' ∉ lib.lower s := fun hmem => hpercent ((hl.mark s '%' (by decide)).mp hmem)
    rw [partition_of_notMem hlowered]
    dsimp only
    rw [if_neg Bool.false_ne_true, List.append_nil, hl.idem]

/-- A hexadecimal digit is one in lower case as well. -/
theorem hexDigit_toLower {c : Char} (h : hexDigit c = true) : hexDigit c.toLower = true := by
  have hc := Hex.toNat_toLower c
  have hnat : ∀ d : Char, d.val.toNat = d.toNat := fun _ => rfl
  simp only [hexDigit, Text.asciiDigit, Char.le_def, UInt32.le_iff_toNat_le, hnat,
    Char.reduceToNat, Bool.or_eq_true, Bool.and_eq_true, decide_eq_true_eq] at h ⊢
  split at hc <;> omega

/-- Hexadecimal digits are ASCII. -/
theorem ascii_of_hexDigit {c : Char} (h : hexDigit c = true) : c.toNat < 128 := by
  have hnat : ∀ d : Char, d.val.toNat = d.toNat := fun _ => rfl
  simp only [hexDigit, Text.asciiDigit, Char.le_def, UInt32.le_iff_toNat_le, hnat,
    Char.reduceToNat, Bool.or_eq_true, Bool.and_eq_true, decide_eq_true_eq] at h
  omega

/-- `v`, a hexadecimal number, a dot and more text of one line. -/
def IsFuture (s : Text) : Prop :=
  ∃ version address, s = 'v' :: (version ++ '.' :: address) ∧ version ≠ [] ∧
    version.all hexDigit = true ∧ address ≠ [] ∧ '\n' ∉ address

/-- There is no dot in the version of a future address. -/
theorem dot_notMem {version : Text} (h : version.all hexDigit = true) : '.' ∉ version := by
  intro hmem
  have hdot := List.all_eq_true.mp h '.' hmem
  exact absurd hdot (by decide)

/-- A host may stand in brackets when it is an address of a future version or an IPv6 address. -/
theorem checkBracketedHost_iff {s : Text} : checkBracketedHost s = .ok () ↔
    IsFuture s ∨ s.head? ≠ some 'v' ∧ (Ip.V6.parse s).isSome = true := by
  unfold checkBracketedHost
  split
  · rename_i future
    dsimp only
    constructor
    · intro h
      split at h
      · cases h
      · rename_i hgood
        simp only [not_or, Bool.not_eq_false] at hgood
        obtain ⟨hversion, hhex, hdot, haddress, hline⟩ := hgood
        obtain ⟨before, after, rfl, hnot⟩ :=
          List.eq_append_cons_of_mem (partition_found.mp hdot)
        rw [Csrf.partition_append hnot] at hversion hhex haddress hline
        exact .inl ⟨before, after, rfl, hversion, hhex, haddress, hline⟩
    · rintro (⟨version, address, heq, hversion, hhex, haddress, hline⟩ | ⟨hhead, -⟩)
      · rw [(List.cons.inj heq).2, Csrf.partition_append (dot_notMem hhex), if_neg]
        simp only [not_or]
        exact ⟨hversion, by rw [hhex]; nofun, nofun, haddress, hline⟩
      · exact absurd rfl hhead
  · rename_i hnot
    have hhead : s.head? ≠ some 'v' := by
      cases s with
      | nil => nofun
      | cons c rest =>
        intro heq
        exact hnot rest (by rw [Option.some.inj heq])
    have hfuture : ¬IsFuture s := by
      rintro ⟨version, address, rfl, -⟩
      exact hhead rfl
    by_cases hipv6 : (Ip.V6.parse s).isSome = true
    · rw [if_neg (Ip.V6.not_isSome_parse_v4 hipv6), if_pos hipv6]
      exact iff_of_true rfl (.inr ⟨hhead, hipv6⟩)
    · rw [if_neg hipv6]
      refine iff_of_false ?_ fun h => h.elim hfuture fun h => hipv6 h.2
      split <;> nofun

/-- The lower case of an address is an address, and begins with no `v`. -/
theorem Lowers.ipv6 (hl : Lowers lib) {s : Text} (h : (Ip.V6.parse s).isSome = true) :
    (Ip.V6.parse (lib.lower s)).isSome = true ∧ (lib.lower s).head? ≠ some 'v' := by
  obtain ⟨base, scopeId, hbase, rfl⟩ := Ip.V6.isSome_parse_iff.mp h
  have hascii : Text.isascii base = true := by
    refine List.all_eq_true.mpr fun c hc => decide_eq_true ?_
    rcases hbase.mem c hc with rfl | rfl | hvalue
    · decide
    · decide
    · exact Ip.toNat_lt_of_value hvalue
  have hlower : lib.lower base = base.map Char.toLower := by
    obtain ⟨rest, heq, hnil⟩ := hl.ascii base [] hascii
    rw [List.append_nil, hnil.mpr rfl, List.append_nil] at heq
    exact heq
  have hhead : ∀ rest, (base.map Char.toLower ++ rest).head? ≠ some 'v' := by
    intro rest heq
    rw [List.head?_append_of_ne_nil _ (List.ne_nil_of_mem hbase.map_toLower.colon)] at heq
    exact hbase.map_toLower.notMem (by decide) (by decide) (by decide) (List.mem_of_mem_head? heq)
  cases scopeId with
  | none =>
    rw [Option.elim_none, List.append_nil, hlower]
    refine ⟨Ip.V6.isSome_parse_iff.mpr ⟨_, none, hbase.map_toLower, (List.append_nil _).symm⟩, ?_⟩
    have := hhead []
    rwa [List.append_nil] at this
  | some zone =>
    rw [Option.elim_some, hl.percent, hlower]
    have hkeeps : ∀ c ∈ urlMarks, c ∉ zone.text → c ∉ lib.lower zone.text := fun c hc hnot hmem =>
      hnot ((hl.mark _ c hc).mp hmem)
    refine ⟨Ip.V6.isSome_parse_iff.mpr ⟨_, some ⟨lib.lower zone.text,
      mt (hl.eq_nil_iff _).mp zone.ne_nil, hkeeps '%' (by decide) zone.no_percent,
      hkeeps '/' (by decide) zone.no_slash⟩, hbase.map_toLower, rfl⟩, hhead _⟩

/-- What may stand in brackets may stand there in lower case. -/
theorem Lowers.checkBracketedHost (hl : Lowers lib) {s : Text}
    (h : Csrf.checkBracketedHost s = .ok ()) :
    Csrf.checkBracketedHost (lib.lower s) = .ok () := by
  rw [checkBracketedHost_iff] at h ⊢
  rcases h with ⟨version, address, rfl, hversion, hhex, haddress, hline⟩ | ⟨-, hipv6⟩
  · left
    have hascii : Text.isascii ('v' :: (version ++ ['.'])) = true := by
      refine List.all_eq_true.mpr fun c hc => decide_eq_true ?_
      rcases List.mem_cons.mp hc with rfl | hc
      · decide
      · rcases List.mem_append.mp hc with hc | hc
        · exact ascii_of_hexDigit (List.all_eq_true.mp hhex c hc)
        · rw [List.mem_singleton.mp hc]
          decide
    obtain ⟨address', heq, hnil⟩ := hl.ascii _ address hascii
    have htext : 'v' :: (version ++ '.' :: address) = 'v' :: (version ++ ['.']) ++ address := by
      simp
    have hlowered : lib.lower ('v' :: (version ++ '.' :: address)) =
        'v' :: (version.map Char.toLower ++ '.' :: address') := by
      rw [htext, heq, List.map_cons, List.map_append]
      simp
    refine ⟨version.map Char.toLower, address', hlowered, ?_, ?_, fun hnone => ?_, fun hmem => ?_⟩
    · exact fun hnone => hversion (List.map_eq_nil_iff.mp hnone)
    · rw [List.all_map, List.all_eq_true]
      intro c hc
      exact hexDigit_toLower (List.all_eq_true.mp hhex c hc)
    · exact haddress (hnil.mp hnone)
    · have hwhole : '\n' ∈ 'v' :: (version ++ '.' :: address) := by
        refine (hl.mark _ '\n' (by decide)).mp ?_
        rw [hlowered]
        simp [hmem]
      rcases List.mem_cons.mp hwhole with heq | hwhole
      · cases heq
      · rcases List.mem_append.mp hwhole with hversion | hrest
        · exact absurd (List.all_eq_true.mp hhex _ hversion) (by decide)
        · rcases List.mem_cons.mp hrest with heq | hrest
          · cases heq
          · exact hline hrest
  · exact .inr ⟨(hl.ipv6 hipv6).2, (hl.ipv6 hipv6).1⟩

section Latin1

/-- In Latin-1, lower case moves the capital letters of ASCII and those above it, the multiplication
sign apart. -/
theorem toNat_latin1Lower (c : Char) : (latin1Lower c).toNat =
    if (0x41 ≤ c.toNat ∧ c.toNat ≤ 0x5a) ∨ (0xc0 ≤ c.toNat ∧ c.toNat ≤ 0xde ∧ c.toNat ≠ 0xd7)
    then c.toNat + 32 else c.toNat := by
  unfold latin1Lower
  by_cases h : (0x41 ≤ c.toNat ∧ c.toNat ≤ 0x5a) ∨
      (0xc0 ≤ c.toNat ∧ c.toNat ≤ 0xde ∧ c.toNat ≠ 0xd7)
  · have hvalid : (c.toNat + 32).isValidChar := Or.inl (by omega)
    rw [if_pos h, if_pos (by simpa [and_assoc] using h), Char.ofNat, dif_pos hvalid]
    rfl
  · rw [if_neg h, if_neg (by simpa [and_assoc] using h)]

/-- On ASCII, lower case in Latin-1 is lower case in ASCII. -/
theorem latin1Lower_ascii {c : Char} (h : c.toNat < 128) : latin1Lower c = c.toLower := by
  have hlatin1 := toNat_latin1Lower c
  have hlower := Hex.toNat_toLower c
  refine Hex.eq_of_toNat_eq ?_
  split at hlatin1 <;> split at hlower <;> omega

/-- A letter in lower case stays as it is. -/
theorem latin1Lower_idem (c : Char) : latin1Lower (latin1Lower c) = latin1Lower c := by
  have hc := toNat_latin1Lower c
  have hlower := toNat_latin1Lower (latin1Lower c)
  refine Hex.eq_of_toNat_eq ?_
  split at hc <;> split at hlower <;> omega

/-- A mark of ASCII is the lower case of itself only. -/
theorem latin1Lower_eq_iff {c d : Char} (hd : Hex.isMark d = true) (hascii : d.toNat < 128) :
    latin1Lower c = d ↔ c = d := by
  have hc := toNat_latin1Lower c
  simp only [Hex.isMark, Bool.or_eq_true, Bool.and_eq_true, decide_eq_true_eq] at hd
  constructor
  · rintro rfl
    refine Hex.eq_of_toNat_eq ?_
    split at hc <;> omega
  · rintro rfl
    refine Hex.eq_of_toNat_eq ?_
    split at hc <;> omega

end Latin1

/-! ## Reading a network location -/

/-- For a location made of a host and a port, both parsers make the same checks, when a host with a
colon may stand in brackets. -/
theorem checkAuthority_eq (alib : AssetSource.Library) {host : Text} {port : Option ℕ}
    (h : IsHost host)
    (hchecked : ':' ∈ host → Csrf.checkBracketedHost host = .ok ()) :
    AssetSource.checkAuthority alib (bracketed host ++ portSuffix port) =
      checkNetloc alib.toLibrary (bracketed host ++ portSuffix port) := by
  have hat : '@' ∉ bracketed host ++ portSuffix port := by
    rw [List.mem_append, mem_bracketed]
    rintro ((hmem | ⟨-, hmem⟩) | hmem)
    · exact h.noAt hmem
    · rcases hmem with hmem | hmem <;> cases hmem
    · exact notMem_portSuffix (by decide) (by decide) hmem
  have hsuffix : ∀ c ∈ ['[', ']'], c ∉ portSuffix port := by
    intro c hc
    rcases List.mem_pair.mp hc with rfl | rfl <;>
      exact notMem_portSuffix (by decide) (by decide)
  unfold AssetSource.checkAuthority
  by_cases hcolon : ':' ∈ host
  · have hopen : '[' ∈ bracketed host ++ portSuffix port :=
      List.mem_append_left _ (mem_bracketed.mpr (.inr ⟨hcolon, .inl rfl⟩))
    have hclose : ']' ∈ bracketed host ++ portSuffix port :=
      List.mem_append_left _ (mem_bracketed.mpr (.inr ⟨hcolon, .inr rfl⟩))
    have hnetloc : checkBracketedNetloc (bracketed host ++ portSuffix port) =
        .ok () := by
      have htext : bracketed host ++ portSuffix port =
          [] ++ '[' :: (host ++ ']' :: portSuffix port) := by
        unfold bracketed
        rw [if_pos hcolon]
        simp
      unfold checkBracketedNetloc
      rw [rpartition_of_notMem hat]
      dsimp only
      rw [htext, Csrf.partition_append (s := []) List.not_mem_nil]
      dsimp only
      rw [if_pos rfl, Csrf.partition_append h.noClose]
      dsimp only
      rw [if_neg (by simp), if_neg, hchecked hcolon]
      rintro ⟨hne, hhead⟩
      cases port with
      | none => exact hne rfl
      | some n => exact hhead rfl
    rw [if_neg (by simp [hopen, hclose]), if_pos hopen, hnetloc]
    rfl
  · have hopen : '[' ∉ bracketed host ++ portSuffix port := by
      rw [List.mem_append, mem_bracketed]
      rintro ((hmem | ⟨hmem, -⟩) | hmem)
      · exact hcolon (h.noOpen hmem)
      · exact hcolon hmem
      · exact hsuffix '[' (by simp) hmem
    have hclose : ']' ∉ bracketed host ++ portSuffix port := by
      rw [List.mem_append, mem_bracketed]
      rintro ((hmem | ⟨hmem, -⟩) | hmem)
      · exact h.noClose hmem
      · exact hcolon hmem
      · exact hsuffix ']' (by simp) hmem
    rw [if_neg (by simp [hopen, hclose]), if_neg hopen]

/-- A host in lower case that may be written into a network location. -/
theorem Lowers.isHost (hl : Lowers lib) {parsed : SplitResult} (h : Divided lib parsed)
    (hat : '@' ∉ parsed.netloc)
    (hopen : '[' ∈ lib.lower parsed.hostinfo.1 → ':' ∈ lib.lower parsed.hostinfo.1) :
    IsHost (lib.lower parsed.hostinfo.1) where
  noAt := fun hmem => hat (h.sub _ ((hl.mark _ '@' (by decide)).mp hmem))
  noClose := fun hmem => h.noClose ((hl.mark _ ']' (by decide)).mp hmem)
  noOpen := hopen

/-- What may stand in brackets is told from what stands without. -/
theorem colon_of_bracketed {s : Text}
    (h : Csrf.checkBracketedHost s = .ok ()) (hhead : s.head? = some '[') : ':' ∈ s := by
  rcases checkBracketedHost_iff.mp h with ⟨version, address, rfl, -⟩ | ⟨-, hipv6⟩
  · cases Option.some.inj hhead
  · exact Ip.V6.colon_mem_of_parse hipv6

/-- The host of a checked location is not taken for one in brackets when it is in lower case. -/
theorem Lowers.wellBracketed (hl : Lowers lib) {parsed : SplitResult} (h : Divided lib parsed) :
    WellBracketed (lib.lower parsed.hostinfo.1) where
  noClose := fun hmem => h.noClose ((hl.mark _ ']' (by decide)).mp hmem)
  head := by
    intro hhead
    have hmem : '[' ∈ lib.lower parsed.hostinfo.1 := List.mem_of_mem_head? hhead
    have hnetloc := h.sub _ ((hl.mark _ '[' (by decide)).mp hmem)
    exact colon_of_bracketed (hl.checkBracketedHost (h.checked hnetloc)) hhead

/-- A host with a colon may stand in brackets in lower case too. -/
theorem Lowers.checked (hl : Lowers lib) {parsed : SplitResult} (h : Divided lib parsed)
    (hcolon : ':' ∈ lib.lower parsed.hostinfo.1) :
    Csrf.checkBracketedHost (lib.lower parsed.hostinfo.1) = .ok () := by
  have hmem : ':' ∈ parsed.hostinfo.1 := (hl.mark _ ':' (by decide)).mp hcolon
  refine hl.checkBracketedHost (h.checked ?_)
  by_contra hopen
  exact h.plain hopen hmem

/-- What the network location of a host has no characters of. -/
theorem notMem_netloc {host : Text} {port : Option ℕ} {c : Char} (h : c ∉ host)
    (hmark : c ∉ ['[', ']', ':'] ∧ c.isDigit = false) : c ∉ bracketed host ++ portSuffix port := by
  simp only [List.mem_cons, List.not_mem_nil, or_false, not_or] at hmark
  rw [List.mem_append, mem_bracketed]
  rintro ((hmem | ⟨-, hmem | hmem⟩) | hmem)
  · exact h hmem
  · exact hmark.1.1 hmem
  · exact hmark.1.2.1 hmem
  · exact notMem_portSuffix hmark.1.2.2 hmark.2 hmem

open AssetSource (Shape kept clean) in
/-- A URL that is put together has its parts. -/
theorem shape_of_text {scheme netloc tail : Text} (hletter : scheme.head?.any asciiAlpha = true)
    (hchars : scheme.all schemeChar = true) (hnetloc : ∀ c ∈ netloc, c ∉ ['/', '?', '#'])
    (htail : ∀ c, tail.head? = some c → c ∈ ['/', '?', '#'])
    (hkept : (netloc ++ tail).all kept = true) :
    Shape (scheme ++ "://".toList ++ (netloc ++ tail)) scheme netloc tail where
  text := by
    have hall : (scheme ++ "://".toList ++ (netloc ++ tail)).filter kept =
        scheme ++ "://".toList ++ (netloc ++ tail) := by
      rw [List.filter_eq_self]
      intro c hc
      rcases List.mem_append.mp hc with hc | hc
      · rcases List.mem_append.mp hc with hc | hc
        · have hchar := List.all_eq_true.mp hchars c hc
          unfold kept
          simp only [Bool.and_eq_true, decide_eq_true_eq]
          refine ⟨⟨?_, ?_⟩, ?_⟩ <;> rintro rfl <;> exact absurd hchar (by decide)
        · have hmarks : ("://".toList).all kept = true := by decide
          exact List.all_eq_true.mp hmarks c hc
      · exact List.all_eq_true.mp hkept c hc
    unfold clean
    cases scheme with
    | nil => cases hletter
    | cons c scheme =>
      have hblank : ¬decide (c.toNat ≤ 32) = true := by
        have halpha : asciiAlpha c = true := hletter
        have hnat : ∀ d : Char, d.val.toNat = d.toNat := fun _ => rfl
        simp only [asciiAlpha, Char.le_def, UInt32.le_iff_toNat_le, hnat, Char.reduceToNat,
          Bool.or_eq_true, Bool.and_eq_true, decide_eq_true_eq] at halpha
        rw [decide_eq_true_eq]
        omega
      rw [List.cons_append, List.cons_append,
        List.dropWhile_cons_of_neg (p := fun c : Char => decide (c.toNat ≤ 32)) hblank,
        ← List.cons_append, ← List.cons_append]
      exact hall.trans (by simp)
  letter := hletter
  chars := hchars
  netloc := hnetloc
  tail := htail

/-- The library, for the lemmas about splitting. -/
abbrev assetLibrary (lib : Library) : AssetSource.Library := { lib with mapped := fun _ => false }

/-- The scheme of a parsed value is in lower case. -/
theorem lower_scheme (hl : Lowers lib) {value : Text} {parsed : SplitResult}
    (h : urlsplit lib value = .ok parsed) : lib.lower parsed.scheme = parsed.scheme := by
  have hsplit := @AssetSource.urlsplit_eq (assetLibrary lib) value
  rw [show urlsplit (assetLibrary lib).toLibrary value = .ok parsed from h] at hsplit
  cases hcheck : AssetSource.checkAuthority (assetLibrary lib)
      (AssetSource.authority (splitScheme lib (AssetSource.clean value)).2).1 with
  | error e =>
    rw [hcheck] at hsplit
    cases hsplit
  | ok _ =>
    rw [hcheck] at hsplit
    have hparsed : parsed.scheme = (splitScheme lib (AssetSource.clean value)).1 :=
      congrArg SplitResult.scheme (Except.ok.inj hsplit)
    rcases AssetSource.splitScheme_cases (assetLibrary lib) (AssetSource.clean value) with
      ⟨scheme, rest, -, -, -, hscheme⟩ | hscheme
    · rw [hparsed, show splitScheme lib (AssetSource.clean value) = _ from hscheme]
      exact hl.idem scheme
    · rw [hparsed, show splitScheme lib (AssetSource.clean value) = _ from hscheme]
      exact (hl.eq_nil_iff []).mpr rfl

/-- What is known of the host of a parsed value: it is divided from a location of the value. -/
structure Located (lib : Library) (value : Text) (parsed : SplitResult) : Prop where
  divided : Divided lib parsed
  noEnd : ∀ c ∈ parsed.netloc, c ∉ ['/', '?', '#']
  kept : ∀ c ∈ parsed.netloc, AssetSource.kept c = true
  within : parsed.netloc.Sublist value

/-- What is known of the host of a value that is an HTTP URL without user information. -/
theorem located {value : Text} {parsed : SplitResult} (h : urlsplit lib value = .ok parsed)
    (hscheme : parsed.scheme ∈ AssetSource.schemes) (hhost : parsed.hostname lib ≠ [])
    (hl : Lowers lib) (hat : '@' ∉ parsed.netloc) : Located lib value parsed := by
  have hnetloc : parsed.netloc ≠ [] := by
    intro hnil
    refine hhost ?_
    have hinfo := hostinfo_of_notMem hat
    rw [hnil, if_neg List.not_mem_nil] at hinfo
    have hnone : parsed.hostinfo.1 = [] := hinfo
    rw [hl.hostname_of_lower (s := []) (hnone.trans ((hl.eq_nil_iff []).mpr rfl).symm)]
    exact (hl.eq_nil_iff []).mpr rfl
  obtain ⟨scheme, netloc, tail, hshape, -, hcheck, hparsed⟩ :=
    @AssetSource.Shape.of_urlsplit (assetLibrary lib) _ _ h hscheme hnetloc
  have hsame : parsed.netloc = netloc := congrArg SplitResult.netloc hparsed
  have hclean : netloc.Sublist (AssetSource.clean value) := by
    rw [hshape.text]
    refine List.Sublist.trans (List.sublist_append_left netloc tail) ?_
    refine List.Sublist.trans ?_ (List.sublist_append_right scheme _)
    exact ((List.Sublist.refl _).cons _ |>.cons _).cons _
  refine ⟨?_, ?_, ?_, ?_⟩
  · refine Divided.of_checked (assetLibrary lib) hat ?_
    rw [hsame]
    exact hcheck
  · rw [hsame]
    exact hshape.netloc
  · rw [hsame]
    intro c hc
    exact (List.mem_filter.mp (hclean.subset hc)).2
  · rw [hsame]
    exact hclean.trans (List.filter_sublist.trans (List.dropWhile_suffix _).sublist)

/-- No character that ends or cleans a location occurs in the host. -/
theorem Located.notMem_host (hl : Lowers lib) {value : Text} {parsed : SplitResult}
    (h : Located lib value parsed) {c : Char} (hc : c ∈ ['/', '?', '#', '\t', '\r', '\n']) :
    c ∉ lib.lower parsed.hostinfo.1 := by
  have hmarks : (['/', '?', '#', '\t', '\r', '\n']).all (· ∈ urlMarks) = true := by decide
  have hmark : c ∈ urlMarks := of_decide_eq_true (List.all_eq_true.mp hmarks c hc)
  intro hmem
  have hnetloc := h.divided.sub c ((hl.mark _ c hmark).mp hmem)
  have hend := h.noEnd c hnetloc
  have hkept := h.kept c hnetloc
  simp only [List.mem_cons, List.not_mem_nil, or_false] at hc hend
  rcases hc with rfl | rfl | rfl | rfl | rfl | rfl
  · exact hend (.inl rfl)
  · exact hend (.inr (.inl rfl))
  · exact hend (.inr (.inr rfl))
  all_goals exact absurd hkept (by decide)

/-- A tail without a query and a fragment. -/
structure IsTail (tail : Text) : Prop where
  head : ∀ c, tail.head? = some c → c ∈ ['/', '?', '#']
  kept : tail.all AssetSource.kept = true
  noQuery : '?' ∉ tail
  noFragment : '#' ∉ tail

/-- A URL of the host of a parsed value, and how it is read. -/
theorem Located.urlsplit_eq (hl : Lowers lib) {value : Text} {parsed : SplitResult}
    (h : Located lib value parsed) {scheme tail : Text} (hscheme : scheme ∈ AssetSource.schemes)
    (htail : IsTail tail) (port : Option ℕ) :
    urlsplit lib (scheme ++ "://".toList ++
        (bracketed (lib.lower parsed.hostinfo.1) ++ portSuffix port ++ tail)) =
      (AssetSource.checkAuthority (assetLibrary lib)
        (bracketed (lib.lower parsed.hostinfo.1) ++ portSuffix port)).map fun _ =>
          ⟨lib.lower scheme, bracketed (lib.lower parsed.hostinfo.1) ++ portSuffix port, tail,
            [], []⟩ := by
  have hvalid : ∀ s ∈ AssetSource.schemes, s.head?.any asciiAlpha = true ∧
      s.all schemeChar = true := by decide
  have hmarks : ∀ c ∈ ['/', '?', '#', '\t', '\r', '\n'],
      c ∉ bracketed (lib.lower parsed.hostinfo.1) ++ portSuffix port := by
    intro c hc
    have hplain : (['/', '?', '#', '\t', '\r', '\n']).all (fun d =>
        d ∉ ['[', ']', ':'] && !d.isDigit) = true := by decide
    have hmark := List.all_eq_true.mp hplain c hc
    simp only [Bool.and_eq_true, decide_eq_true_eq, Bool.not_eq_true'] at hmark
    exact notMem_netloc (h.notMem_host hl hc) hmark
  have hshape : AssetSource.Shape _ scheme _ tail :=
    shape_of_text (hvalid scheme hscheme).1 (hvalid scheme hscheme).2
      (fun c hc hend => hmarks c (List.mem_append_left ['\t', '\r', '\n'] hend) hc) htail.head ?_
  · have hsplit := @AssetSource.Shape.urlsplit_eq (assetLibrary lib) _ _ _ _ hshape
    rw [AssetSource.parts_of_notMem htail.noQuery htail.noFragment] at hsplit
    exact hsplit
  · rw [List.all_append, Bool.and_eq_true]
    refine ⟨List.all_eq_true.mpr ?_, htail.kept⟩
    intro c hc
    unfold AssetSource.kept
    simp only [Bool.and_eq_true, decide_eq_true_eq]
    refine ⟨⟨?_, ?_⟩, ?_⟩ <;> rintro rfl <;> exact hmarks _ (by decide) hc

/-- A location that passes the checks has brackets for all that needs them. -/
theorem Located.isHost (hl : Lowers lib) {value : Text} {parsed : SplitResult}
    (h : Located lib value parsed) (hat : '@' ∉ parsed.netloc) {port : Option ℕ}
    (hcheck : AssetSource.checkAuthority (assetLibrary lib)
      (bracketed (lib.lower parsed.hostinfo.1) ++ portSuffix port) = .ok ()) :
    IsHost (lib.lower parsed.hostinfo.1) := by
  refine hl.isHost h.divided hat fun hopen => ?_
  by_contra hcolon
  have hclose : ']' ∉ lib.lower parsed.hostinfo.1 := fun hmem =>
    h.divided.noClose ((hl.mark _ ']' (by decide)).mp hmem)
  have hunpaired : ']' ∉ bracketed (lib.lower parsed.hostinfo.1) ++ portSuffix port := by
    rw [List.mem_append, mem_bracketed]
    rintro ((hmem | ⟨hmem, -⟩) | hmem)
    · exact hclose hmem
    · exact hcolon hmem
    · exact notMem_portSuffix (by decide) (by decide) hmem
  have hmem : '[' ∈ bracketed (lib.lower parsed.hostinfo.1) ++ portSuffix port :=
    List.mem_append_left _ (mem_bracketed.mpr (.inl hopen))
  unfold AssetSource.checkAuthority at hcheck
  rw [if_pos (.inl ⟨hmem, hunpaired⟩)] at hcheck
  cases hcheck

/-- ASCII text is ASCII in lower case. -/
theorem Lowers.isascii (hl : Lowers lib) {s : Text} (h : Text.isascii s = true) :
    Text.isascii (lib.lower s) = true := by
  obtain ⟨t', heq, hnil⟩ := hl.ascii s [] h
  rw [List.append_nil, hnil.mpr rfl, List.append_nil] at heq
  rw [heq]
  refine List.all_eq_true.mpr fun c hc => decide_eq_true ?_
  obtain ⟨d, hd, rfl⟩ := List.mem_map.mp hc
  have hascii : d.toNat < 128 := of_decide_eq_true (List.all_eq_true.mp h d hd)
  have hlower := Hex.toNat_toLower d
  split at hlower <;> omega

/-- In a value with one opening bracket at most the host has none. -/
theorem Located.noOpen {value : Text} {parsed : SplitResult} (h : Located lib value parsed)
    (hat : '@' ∉ parsed.netloc) (hcount : value.count '[' ≤ 1) : '[' ∉ parsed.hostinfo.1 := by
  intro hmem
  have hopen := h.divided.sub _ hmem
  have hinfo := hostinfo_of_notMem hat
  obtain ⟨before, after, hsplit, hnot⟩ := List.eq_append_cons_of_mem hopen
  rw [if_pos hopen, hsplit, Csrf.partition_append hnot] at hinfo
  rw [hinfo] at hmem
  have hafter : '[' ∈ after := (mem_partition_fst hmem).1
  have hle := h.within.count_le '['
  have hpos : 0 < after.count '[' := List.count_pos_iff.mpr hafter
  rw [hsplit, List.count_append, List.count_cons_self] at hle
  omega

/-- ASCII text with one opening bracket at most is read again. -/
theorem Located.checked_of_ascii (hl : Lowers lib) {value : Text} {parsed : SplitResult}
    (h : Located lib value parsed) (hat : '@' ∉ parsed.netloc) (port : Option ℕ)
    (hascii : Text.isascii value = true) (hcount : value.count '[' ≤ 1) :
    AssetSource.checkAuthority (assetLibrary lib)
      (bracketed (lib.lower parsed.hostinfo.1) ++ portSuffix port) = .ok () := by
  have hhost : IsHost (lib.lower parsed.hostinfo.1) := by
    refine hl.isHost h.divided hat fun hopen => ?_
    exact absurd ((hl.mark _ '[' (by decide)).mp hopen) (h.noOpen hat hcount)
  have hinfo : Text.isascii parsed.hostinfo.1 = true := by
    refine List.all_eq_true.mpr fun c hc => ?_
    exact List.all_eq_true.mp hascii c (h.within.subset (h.divided.sub c hc))
  have hnetloc : Text.isascii (bracketed (lib.lower parsed.hostinfo.1) ++ portSuffix port) =
      true := by
    refine List.all_eq_true.mpr fun c hc => decide_eq_true ?_
    rcases List.mem_append.mp hc with hc | hc
    · rcases mem_bracketed.mp hc with hc | ⟨-, rfl | rfl⟩
      · exact of_decide_eq_true (List.all_eq_true.mp (hl.isascii hinfo) c hc)
      · decide
      · decide
    · rcases mem_portSuffix hc with rfl | hdigit
      · decide
      · have hrange := Guacamole.asciiDigit_of_isDigit hdigit
        simp only [Text.asciiDigit, Bool.and_eq_true, decide_eq_true_eq] at hrange
        omega
  rw [checkAuthority_eq (assetLibrary lib) hhost (hl.checked h.divided)]
  unfold checkNetloc
  exact if_pos hnetloc

end LabGoblin.Csrf

namespace LabGoblin.ProxmoxUrl

open Csrf (Library SplitResult urlsplit Lowers)
open AssetSource (Shape kept)

variable {lib : Library} {settings : Settings}

/-- What is accepted of a parsed value. -/
structure Accepted (lib : Library) (settings : Settings) (verifySsl : Bool) (parsed : SplitResult)
    (port : Option ℕ) : Prop where
  scheme : lib.lower parsed.scheme = "https".toList
  host : parsed.hostname lib ≠ []
  noAt : '@' ∉ parsed.netloc
  query : parsed.query = []
  fragment : parsed.fragment = []
  path : parsed.path.rdropWhile (· = '/') = apiPath
  tls : verifySsl = true ∨ settings.proxmoxAllowInsecureTls = true
  port : parsed.port = .ok port

/-- The network location that an accepted value is kept with. -/
def netlocOf (lib : Library) (parsed : SplitResult) (port : Option ℕ) : Text :=
  bracketed (lib.lower (parsed.hostname lib)) ++ portSuffix (port.filter (· ≠ 443))

/-- A parsed value is accepted exactly when every check passes, and its URL is then made of its host
and port. -/
theorem canonicalOf_eq_ok_iff {verifySsl : Bool} {parsed : SplitResult} {url : Text} :
    canonicalOf lib settings verifySsl parsed = .ok url ↔
      ∃ port, Accepted lib settings verifySsl parsed port ∧
        url = urlunsplit (netlocOf lib parsed port) := by
  unfold canonicalOf
  constructor
  · intro h
    split at h
    · cases h
    · rename_i hscheme
      split at h
      · cases h
      · rename_i hhost
        split at h
        · cases h
        · rename_i hmarks
          split at h
          · cases h
          · rename_i hpath
            split at h
            · cases h
            · rename_i htls
              split at h
              · cases h
              · rename_i port hport
                simp only [not_or, not_not] at hhost hmarks hscheme hpath
                have htls' : verifySsl = true ∨ settings.proxmoxAllowInsecureTls = true := by
                  simpa [or_iff_not_imp_left] using htls
                exact ⟨port, ⟨hscheme, hhost.1, hhost.2, hmarks.1, hmarks.2, hpath, htls', hport⟩,
                  (Except.ok.inj h).symm⟩
  · rintro ⟨port, h, rfl⟩
    have htls : ¬((!verifySsl) = true ∧ (!settings.proxmoxAllowInsecureTls) = true) := by
      rcases h.tls with htls | htls <;> simp [htls]
    rw [if_neg (not_not.mpr h.scheme), if_neg (not_or.mpr ⟨h.host, h.noAt⟩),
      if_neg (by simp [h.query, h.fragment]), if_neg (not_not.mpr h.path), if_neg htls, h.port]
    rfl

/-! ## The URL of a cluster -/

/-- The host in lower case and the port that a URL asks for. -/
def target (lib : Library) (parsed : SplitResult) : Option (Text × ℕ) :=
  parsed.port.toOption.map fun port => (lib.lower (parsed.hostname lib), port.getD 443)

/-- The target of a value. -/
def requested (lib : Library) (value : Text) : Option (Text × ℕ) :=
  (urlsplit lib value).toOption.bind (target lib)

/-- A port that is read is at most 65535. -/
theorem port_le {parsed : SplitResult} {port : Option ℕ} (h : parsed.port = .ok port) :
    ∀ n ∈ port, n ≤ 65535 := by
  rintro n rfl
  unfold SplitResult.port at h
  dsimp only at h
  split at h
  · cases Except.ok.inj h
  · split at h
    · split at h
      · cases h
      · rename_i m hm
        split at h
        · rename_i hle
          cases Except.ok.inj h
          exact hle
        · cases h
    · cases h

/-- The path of the API is a tail of a URL. -/
theorem isTail_apiPath : Csrf.IsTail apiPath where
  head := by
    intro c hc
    rw [← Option.some.inj (show some '/' = some c from hc)]
    decide
  kept := by decide
  noQuery := by decide
  noFragment := by decide

/-- What is known of the host of an accepted value. -/
theorem Accepted.located (hl : Lowers lib) {verifySsl : Bool} {value : Text} {parsed : SplitResult}
    {port : Option ℕ} (h : Accepted lib settings verifySsl parsed port)
    (hsplit : urlsplit lib value = .ok parsed) : Csrf.Located lib value parsed := by
  have hscheme : parsed.scheme ∈ AssetSource.schemes := by
    rw [← Csrf.lower_scheme hl hsplit, h.scheme]
    decide
  exact Csrf.located hsplit hscheme h.host hl h.noAt

/-- The scheme of HTTPS is in lower case. -/
theorem lower_https (hl : Lowers lib) : lib.lower "https".toList = "https".toList := by
  obtain ⟨t', heq, hnil⟩ := hl.ascii "https".toList [] (by decide)
  rw [List.append_nil, hnil.mpr rfl, List.append_nil] at heq
  rw [heq]
  decide

/-- How the URL of an accepted value is read. -/
theorem Accepted.urlsplit_eq (hl : Lowers lib) {verifySsl : Bool} {value : Text}
    {parsed : SplitResult} {port : Option ℕ} (h : Accepted lib settings verifySsl parsed port)
    (hsplit : urlsplit lib value = .ok parsed) :
    urlsplit lib (urlunsplit (netlocOf lib parsed port)) =
      (AssetSource.checkAuthority (Csrf.assetLibrary lib) (netlocOf lib parsed port)).map fun _ =>
        ⟨"https".toList, netlocOf lib parsed port, apiPath, [], []⟩ := by
  have hread := (h.located hl hsplit).urlsplit_eq hl
    (show "https".toList ∈ AssetSource.schemes by decide) isTail_apiPath (port.filter (· ≠ 443))
  rw [lower_https hl, ← hl.hostname] at hread
  exact hread

/-- The host and the port of an accepted value, as its location is divided into them. -/
structure Rewritten (lib : Library) (parsed : SplitResult) (port : Option ℕ) (q : SplitResult) :
    Prop where
  scheme : q.scheme = "https".toList
  path : q.path = apiPath
  query : q.query = []
  fragment : q.fragment = []
  noAt : '@' ∉ q.netloc
  hostinfo : q.hostinfo = (lib.lower (parsed.hostname lib), Csrf.portText (port.filter (· ≠ 443)))
  hostname : q.hostname lib = lib.lower (parsed.hostname lib)
  port : q.port = .ok (port.filter (· ≠ 443))

/-- The URL that is kept for an accepted value is divided into its host and port again. -/
theorem Accepted.rewritten (hl : Lowers lib) {verifySsl : Bool} {value : Text}
    {parsed q : SplitResult} {port : Option ℕ} (h : Accepted lib settings verifySsl parsed port)
    (hsplit : urlsplit lib value = .ok parsed)
    (hq : urlsplit lib (urlunsplit (netlocOf lib parsed port)) = .ok q) :
    Rewritten lib parsed port q := by
  have hlocated := h.located hl hsplit
  rw [h.urlsplit_eq hl hsplit] at hq
  cases hcheck : AssetSource.checkAuthority (Csrf.assetLibrary lib) (netlocOf lib parsed port) with
  | error e =>
    rw [hcheck] at hq
    cases hq
  | ok _ =>
    rw [hcheck] at hq
    cases Except.ok.inj hq
    unfold netlocOf at hcheck
    rw [hl.hostname] at hcheck
    have hhost := hlocated.isHost hl h.noAt hcheck
    rw [← hl.hostname] at hhost
    have hinfo := Csrf.hostinfo_eq
      ⟨"https".toList, netlocOf lib parsed port, apiPath, [], []⟩ hhost rfl
    have hat : '@' ∉ netlocOf lib parsed port :=
      Csrf.notMem_netloc hhost.noAt (by decide)
    refine ⟨rfl, rfl, rfl, rfl, hat, hinfo, ?_, ?_⟩
    · have hfirst := congrArg Prod.fst hinfo
      exact hl.hostname_of_lower hfirst
    · refine Csrf.port_eq (congrArg Prod.snd hinfo) ?_
      intro n hn
      exact port_le h.port n (Option.mem_filter_iff.mp hn).1

/-- The URL that is kept asks for the target of the value. -/
theorem Rewritten.target_eq (hl : Lowers lib) {parsed q : SplitResult} {port : Option ℕ}
    (h : Rewritten lib parsed port q) (hport : parsed.port = .ok port) :
    target lib q = target lib parsed := by
  unfold target
  rw [h.port, h.hostname, hport, hl.idem]
  cases port with
  | none => rfl
  | some n =>
    by_cases hn : n = 443
    · rw [hn]
      rfl
    · rw [show (some n).filter (· ≠ 443) = some n by simp [hn]]

/-- The URL that is kept is accepted in turn. -/
theorem Rewritten.accepted (hl : Lowers lib) {verifySsl : Bool} {parsed q : SplitResult}
    {port : Option ℕ} (h : Rewritten lib parsed port q)
    (ha : Accepted lib settings verifySsl parsed port) :
    Accepted lib settings verifySsl q (port.filter (· ≠ 443)) where
  scheme := by
    rw [h.scheme]
    exact lower_https hl
  host := by
    rw [h.hostname]
    exact fun hnil => ha.host ((hl.eq_nil_iff _).mp hnil)
  noAt := h.noAt
  query := h.query
  fragment := h.fragment
  path := by
    rw [h.path]
    decide
  tls := ha.tls
  port := h.port

/-- Two accepted values that are kept under one URL have one target. -/
theorem target_congr (hl : Lowers lib) {verifySsl verifySsl' : Bool} {value value' : Text}
    {parsed parsed' : SplitResult} {port port' : Option ℕ}
    (h : Accepted lib settings verifySsl parsed port)
    (h' : Accepted lib settings verifySsl' parsed' port')
    (hsplit : urlsplit lib value = .ok parsed) (hsplit' : urlsplit lib value' = .ok parsed')
    (heq : netlocOf lib parsed port = netlocOf lib parsed' port') :
    target lib parsed = target lib parsed' := by
  have hgetD : ∀ p : Option ℕ, (p.filter (· ≠ 443)).getD 443 = p.getD 443 := by
    intro p
    cases p with
    | none => rfl
    | some n =>
      by_cases hn : n = 443
      · rw [hn]
        rfl
      · rw [show (some n).filter (· ≠ 443) = some n by simp [hn]]
  unfold netlocOf at heq
  rw [hl.hostname, hl.hostname] at heq
  obtain ⟨hhost, hport⟩ := Csrf.location_injective
    (hl.wellBracketed (h.located hl hsplit).divided)
    (hl.wellBracketed (h'.located hl hsplit').divided) heq
  unfold target
  rw [h.port, h'.port, hl.hostname, hl.hostname, hhost]
  show some (_, port.getD 443) = some (_, port'.getD 443)
  rw [← hgetD port, hport, hgetD]

/-- A text with no space at either end is stripped already. -/
theorem strip_eq_self {s : Text} (hhead : s.head?.any Text.isspace = false)
    (hlast : s.getLast?.any Text.isspace = false) : Text.strip s = s := by
  have hfront : ∀ t : Text, t.head?.any Text.isspace = false → t.dropWhile Text.isspace = t := by
    intro t ht
    cases t with
    | nil => rfl
    | cons c t =>
      have hc : ¬Text.isspace c = true := by
        rw [show Text.isspace c = false from ht]
        nofun
      exact List.dropWhile_cons_of_neg hc
  unfold Text.strip
  rw [hfront s hhead, hfront s.reverse (by rw [List.head?_reverse]; exact hlast),
    List.reverse_reverse]

/-- There is no space at the ends of a URL that is kept. -/
theorem strip_urlunsplit (netloc : Text) : Text.strip (urlunsplit netloc) = urlunsplit netloc := by
  refine strip_eq_self ?_ ?_
  · show Text.isspace 'h' = false
    decide
  · have hpath : apiPath = "/api2/jso".toList ++ ['n'] := by decide
    have hlast : (urlunsplit netloc).getLast? = some 'n' := by
      unfold urlunsplit
      rw [hpath, ← List.append_assoc, ← List.append_assoc, List.getLast?_concat]
    rw [hlast]
    exact show Text.isspace 'n' = false by decide

/-- Two accepted values with one target are kept under one URL. -/
theorem netlocOf_congr {parsed parsed' : SplitResult} {port port' : Option ℕ}
    (hport : parsed.port = .ok port) (hport' : parsed'.port = .ok port')
    (h : target lib parsed = target lib parsed') :
    netlocOf lib parsed port = netlocOf lib parsed' port' := by
  unfold target at h
  rw [hport, hport'] at h
  have hboth := Prod.mk.inj (Option.some.inj h)
  have hfilter : ∀ p : Option ℕ, p.filter (· ≠ 443) =
      if p.getD 443 = 443 then none else some (p.getD 443) := by
    intro p
    cases p with
    | none => rfl
    | some n =>
      by_cases hn : n = 443
      · rw [hn]
        rfl
      · simp [hn]
  unfold netlocOf
  rw [hboth.1, hfilter port, hfilter port', hboth.2]

/-- Stripping only takes characters away. -/
theorem strip_sublist (s : Text) : (Text.strip s).Sublist s := by
  have hdrop : ∀ t : Text, (t.dropWhile Text.isspace).Sublist t := fun t =>
    (List.dropWhile_suffix _).sublist
  have hback := (hdrop ((s.dropWhile Text.isspace).reverse)).reverse
  rw [List.reverse_reverse] at hback
  exact hback.trans (hdrop s)

/-- A value is accepted exactly when it parses, stripped of spaces, and what it parses to is
accepted. -/
theorem canonicalize_eq_ok_iff {verifySsl : Bool} {value url : Text} :
    canonicalizeProxmoxApiUrl lib settings verifySsl value = .ok url ↔
      ∃ parsed port, urlsplit lib (Text.strip value) = .ok parsed ∧
        Accepted lib settings verifySsl parsed port ∧
        url = urlunsplit (netlocOf lib parsed port) := by
  unfold canonicalizeProxmoxApiUrl
  cases hsplit : urlsplit lib (Text.strip value) with
  | error e =>
    refine iff_of_false nofun ?_
    rintro ⟨_, _, h, -⟩
    cases h
  | ok parsed =>
    rw [show Except.bind (Except.ok parsed) (canonicalOf lib settings verifySsl) =
      canonicalOf lib settings verifySsl parsed from rfl, canonicalOf_eq_ok_iff]
    constructor
    · rintro ⟨port, h⟩
      exact ⟨parsed, port, rfl, h⟩
    · rintro ⟨_, port, heq, h⟩
      cases Except.ok.inj heq
      exact ⟨port, h⟩

/-- An accepted value of ASCII text is kept under a URL that can be read. -/
theorem readable_of_ascii (hl : Lowers lib) {verifySsl : Bool} {value : Text}
    {parsed : SplitResult} {port : Option ℕ} (h : Accepted lib settings verifySsl parsed port)
    (hsplit : urlsplit lib (Text.strip value) = .ok parsed) (hascii : Text.isascii value = true)
    (hcount : value.count '[' ≤ 1) :
    ∃ q, urlsplit lib (urlunsplit (netlocOf lib parsed port)) = .ok q := by
  have hstripped : Text.isascii (Text.strip value) = true := by
    refine List.all_eq_true.mpr fun c hc => ?_
    exact List.all_eq_true.mp hascii c ((strip_sublist value).subset hc)
  have hcheck := (h.located hl hsplit).checked_of_ascii hl h.noAt (port.filter (· ≠ 443))
    hstripped (((strip_sublist value).count_le '[').trans hcount)
  rw [← hl.hostname] at hcheck
  rw [h.urlsplit_eq hl hsplit]
  unfold netlocOf
  rw [hcheck]
  exact ⟨_, rfl⟩

/-- The target of a value that parses is that of what it parses to. -/
theorem requested_eq {value : Text} {parsed : SplitResult}
    (h : urlsplit lib value = .ok parsed) : requested lib value = target lib parsed := by
  unfold requested
  rw [h]
  rfl

/-- The form in which the URL of a cluster is kept is a form of its target: it is read as the
target that was checked, it is kept as it is, and two values have one form exactly when they have
one target. -/
theorem canonical_urls (lib : Library) (settings : Settings) (hl : Lowers lib) (verifySsl : Bool)
    (value url : Text) (h : canonicalizeProxmoxApiUrl lib settings verifySsl value = .ok url) :
    (Text.isascii value = true → value.count '[' ≤ 1 → ∃ q, urlsplit lib url = .ok q) ∧
    (∀ q, urlsplit lib url = .ok q →
      q.scheme = "https".toList ∧ '@' ∉ q.netloc ∧ q.path = apiPath ∧ q.query = [] ∧
      q.fragment = [] ∧ target lib q = requested lib (Text.strip value) ∧
      canonicalizeProxmoxApiUrl lib settings verifySsl url = .ok url) ∧
    ∀ (verifySsl' : Bool) (value' url' : Text),
      canonicalizeProxmoxApiUrl lib settings verifySsl' value' = .ok url' →
        (url = url' ↔ requested lib (Text.strip value) = requested lib (Text.strip value')) := by
  obtain ⟨parsed, port, hsplit, haccepted, rfl⟩ := canonicalize_eq_ok_iff.mp h
  refine ⟨readable_of_ascii hl haccepted hsplit, ?_, ?_⟩
  · intro q hq
    have hrewritten := haccepted.rewritten hl hsplit hq
    have hagain := hrewritten.accepted hl haccepted
    have htarget := hrewritten.target_eq hl haccepted.port
    refine ⟨hrewritten.scheme, hrewritten.noAt, hrewritten.path, hrewritten.query,
      hrewritten.fragment, htarget.trans (requested_eq hsplit).symm, ?_⟩
    have hsame := netlocOf_congr hrewritten.port haccepted.port htarget
    refine canonicalize_eq_ok_iff.mpr ⟨q, _, ?_, hagain, ?_⟩
    · rw [strip_urlunsplit]
      exact hq
    · rw [hsame]
  · intro verifySsl' value' url' h'
    obtain ⟨parsed', port', hsplit', haccepted', rfl⟩ := canonicalize_eq_ok_iff.mp h'
    rw [requested_eq hsplit, requested_eq hsplit']
    constructor
    · intro heq
      refine target_congr hl haccepted haccepted' hsplit hsplit' ?_
      exact List.append_cancel_right (List.append_cancel_left heq)
    · intro htarget
      rw [netlocOf_congr haccepted.port haccepted'.port htarget]

namespace Fixture

/-- The library of the fixtures, which lowers Latin-1, treats the marks of a URL and ASCII as asked.
-/
theorem lowers_lib : Lowers Csrf.Fixture.lib where
  idem := by
    intro s
    show (s.map Csrf.latin1Lower).map Csrf.latin1Lower = _
    rw [List.map_map]
    exact List.map_congr_left fun c _ => Csrf.latin1Lower_idem c
  mark := by
    intro s c hc
    have hmarks : Csrf.urlMarks.all fun d => Interactive.Hex.isMark d && d.toNat < 128 := by decide
    have hmark := List.all_eq_true.mp hmarks c hc
    simp only [Bool.and_eq_true, decide_eq_true_eq] at hmark
    show c ∈ s.map Csrf.latin1Lower ↔ c ∈ s
    rw [List.mem_map]
    constructor
    · rintro ⟨d, hd, heq⟩
      rw [← (Csrf.latin1Lower_eq_iff hmark.1 hmark.2).mp heq]
      exact hd
    · intro hmem
      exact ⟨c, hmem, (Csrf.latin1Lower_eq_iff hmark.1 hmark.2).mpr rfl⟩
  percent := by
    intro s t
    have hpercent : Csrf.latin1Lower '%' = '%' := by decide
    show (s ++ '%' :: t).map Csrf.latin1Lower = _
    rw [List.map_append, List.map_cons, hpercent]
    rfl
  ascii := by
    intro s t hs
    refine ⟨t.map Csrf.latin1Lower, ?_, List.map_eq_nil_iff⟩
    have hlower : s.map Csrf.latin1Lower = s.map Char.toLower := List.map_congr_left fun c hc =>
      Csrf.latin1Lower_ascii (of_decide_eq_true (List.all_eq_true.mp hs c hc))
    show (s ++ t).map Csrf.latin1Lower = _
    rw [List.map_append, hlower]

/-- An address in upper case, with the standard port and a slash at the end. -/
theorem canonical_urls_address :
    canonicalizeProxmoxApiUrl Csrf.Fixture.lib {} true
        " HTTPS://[2001:DB8::1]:443/api2/json/ ".toList =
          .ok "https://[2001:db8::1]/api2/json".toList ∧
      canonicalizeProxmoxApiUrl Csrf.Fixture.lib {} true "https://[2001:db8::1]/api2/json".toList =
        .ok "https://[2001:db8::1]/api2/json".toList := by
  have hkept : canonicalizeProxmoxApiUrl Csrf.Fixture.lib {} true
      " HTTPS://[2001:DB8::1]:443/api2/json/ ".toList =
        .ok "https://[2001:db8::1]/api2/json".toList := by rfl
  have hcanonical := canonical_urls Csrf.Fixture.lib {} lowers_lib true
    " HTTPS://[2001:DB8::1]:443/api2/json/ ".toList "https://[2001:db8::1]/api2/json".toList hkept
  obtain ⟨q, hq⟩ := hcanonical.1 (by decide) (by decide)
  obtain ⟨-, -, -, -, -, -, hagain⟩ := hcanonical.2.1 q hq
  exact ⟨hkept, hagain⟩

end Fixture

end LabGoblin.ProxmoxUrl
