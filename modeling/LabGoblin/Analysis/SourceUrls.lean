import LabGoblin.Model.AssetSource

/-!
# Source URLs and the check of them

A URL with a host is a scheme, a network location and the rest, and putting more characters at its
end changes the rest only. So the URL of an asset has the origin of its base, and the check
compares the path before the name of the asset with the path of the base, once both are decoded.
-/

set_option autoImplicit false

namespace LabGoblin.AssetSource

open Interactive
open Csrf (SplitResult urlsplit partition splitScheme checkBracketedNetloc checkNetloc
  invalidIpv6Url asciiAlpha schemeChar ne_of_notMem partition_of_notMem partition_append)

variable {lib : Library}

/-! ## Splitting a URL -/

/-- The text that a URL is split as. -/
def clean (url : Text) : Text :=
  (url.dropWhile fun c => c.toNat ≤ 32).filter fun c => c ≠ '\t' && c ≠ '\r' && c ≠ '\n'

/-- The network location and the rest after the scheme. -/
def authority (url : Text) : Text × Text :=
  match url with
  | '/' :: '/' :: rest =>
    (rest.takeWhile fun c => c ∉ ['/', '?', '#'], rest.dropWhile fun c => c ∉ ['/', '?', '#'])
  | url => ([], url)

/-- The checks of a network location. -/
def checkAuthority (lib : Library) (netloc : Text) : Except ValueError Unit :=
  if ('[' ∈ netloc ∧ ']' ∉ netloc) ∨ (']' ∈ netloc ∧ '[' ∉ netloc) then .error invalidIpv6Url
  else do
    if '[' ∈ netloc then checkBracketedNetloc netloc
    checkNetloc lib.toLibrary netloc

/-- The parts of a URL whose path, query and fragment are `tail`. -/
def parts (scheme netloc tail : Text) : SplitResult where
  scheme := scheme
  netloc := netloc
  path := (partition '?' (partition '#' tail).1).1
  query := (partition '?' (partition '#' tail).1).2.2
  fragment := (partition '#' tail).2.2

/-- The end of `urlsplit`: the checks, and the parts. -/
theorem urlsplit_eq (url : Text) :
    urlsplit lib.toLibrary url =
      (checkAuthority lib (authority (splitScheme lib.toLibrary (clean url)).2).1).map fun _ =>
        parts (splitScheme lib.toLibrary (clean url)).1
          (authority (splitScheme lib.toLibrary (clean url)).2).1
          (authority (splitScheme lib.toLibrary (clean url)).2).2 := by
  have hdivided : ∀ scheme netloc tail, (do
      if ('[' ∈ netloc ∧ ']' ∉ netloc) ∨ (']' ∈ netloc ∧ '[' ∉ netloc) then
        throw invalidIpv6Url
      if '[' ∈ netloc then checkBracketedNetloc netloc
      checkNetloc lib.toLibrary netloc
      return parts scheme netloc tail) =
        (checkAuthority lib netloc).map fun _ => parts scheme netloc tail := by
    intro scheme netloc tail
    unfold checkAuthority
    by_cases hunpaired : ('[' ∈ netloc ∧ ']' ∉ netloc) ∨ (']' ∈ netloc ∧ '[' ∉ netloc)
    · rw [if_pos hunpaired, if_pos hunpaired]
      rfl
    · rw [if_neg hunpaired, if_neg hunpaired]
      by_cases hbracket : '[' ∈ netloc
      · rw [if_pos hbracket, if_pos hbracket]
        cases checkBracketedNetloc netloc with
        | error e => rfl
        | ok _ => cases checkNetloc lib.toLibrary netloc <;> rfl
      · rw [if_neg hbracket, if_neg hbracket]
        cases checkNetloc lib.toLibrary netloc <;> rfl
  exact hdivided _ _ _

/-- A URL with a scheme and a network location. -/
structure Shape (url scheme netloc tail : Text) : Prop where
  text : clean url = scheme ++ ':' :: '/' :: '/' :: (netloc ++ tail)
  letter : scheme.head?.any asciiAlpha = true
  chars : scheme.all schemeChar = true
  netloc : ∀ c ∈ netloc, c ∉ ['/', '?', '#']
  tail : ∀ c, tail.head? = some c → c ∈ ['/', '?', '#']

/-- A URL with a scheme and a location is split into them, when the location passes its checks. -/
theorem Shape.urlsplit_eq {url scheme netloc tail : Text} (h : Shape url scheme netloc tail) :
    urlsplit lib.toLibrary url =
      (checkAuthority lib netloc).map fun _ => parts (lib.lower scheme) netloc tail := by
  have hcolon : ':' ∉ scheme := by
    intro hmem
    have hchar := List.all_eq_true.mp h.chars ':' hmem
    exact absurd hchar (by decide)
  have hscheme : splitScheme lib.toLibrary (clean url) =
      (lib.lower scheme, '/' :: '/' :: (netloc ++ tail)) := by
    unfold splitScheme
    rw [h.text, partition_append hcolon]
    exact if_pos ⟨rfl, h.letter, h.chars⟩
  have hplain : ∀ c ∈ netloc, decide (c ∉ ['/', '?', '#']) = true := by
    intro c hc
    exact decide_eq_true (h.netloc c hc)
  have hdivided : authority ('/' :: '/' :: (netloc ++ tail)) = (netloc, tail) := by
    show ((netloc ++ tail).takeWhile fun c => c ∉ ['/', '?', '#'],
      (netloc ++ tail).dropWhile fun c => c ∉ ['/', '?', '#']) = (netloc, tail)
    rw [List.takeWhile_append_of_pos hplain, List.dropWhile_append_of_pos hplain]
    cases htail : tail with
    | nil => rw [List.takeWhile_nil, List.dropWhile_nil, List.append_nil]
    | cons c rest =>
      have hc : ¬decide (c ∉ ['/', '?', '#']) = true := by
        rw [decide_eq_true_iff, not_not]
        exact h.tail c (by rw [htail]; rfl)
      rw [List.takeWhile_cons_of_neg (p := fun c => decide (c ∉ ['/', '?', '#'])) hc,
        List.dropWhile_cons_of_neg (p := fun c => decide (c ∉ ['/', '?', '#'])) hc,
        List.append_nil]
  rw [AssetSource.urlsplit_eq, hscheme, hdivided]

/-- A text has a scheme before its first colon, or none. -/
theorem splitScheme_cases (lib : Library) (text : Text) :
    (∃ scheme rest, text = scheme ++ ':' :: rest ∧ scheme.head?.any asciiAlpha = true ∧
      scheme.all schemeChar = true ∧
        splitScheme lib.toLibrary text = (lib.lower scheme, rest)) ∨
      splitScheme lib.toLibrary text = ([], text) := by
  by_cases hcolon : ':' ∈ text
  · obtain ⟨scheme, rest, rfl, hnot⟩ := List.eq_append_cons_of_mem hcolon
    by_cases hvalid : scheme.head?.any asciiAlpha = true ∧ scheme.all schemeChar = true
    · refine .inl ⟨scheme, rest, rfl, hvalid.1, hvalid.2, ?_⟩
      unfold splitScheme
      rw [partition_append hnot]
      exact if_pos ⟨rfl, hvalid⟩
    · right
      unfold splitScheme
      rw [partition_append hnot]
      exact if_neg fun h => hvalid h.2
  · right
    unfold splitScheme
    rw [partition_of_notMem hcolon]
    exact if_neg fun h => absurd h.1 (by decide)

/-- A rest has a network location after two slashes, or none. -/
theorem authority_cases (rest : Text) :
    (∃ netloc tail, rest = '/' :: '/' :: (netloc ++ tail) ∧ (∀ c ∈ netloc, c ∉ ['/', '?', '#']) ∧
      (∀ c, tail.head? = some c → c ∈ ['/', '?', '#']) ∧ authority rest = (netloc, tail)) ∨
      (authority rest).1 = [] := by
  unfold authority
  split
  · rename_i after
    left
    refine ⟨_, _, congrArg (fun s => '/' :: '/' :: s) List.takeWhile_append_dropWhile.symm, ?_, ?_,
      rfl⟩
    · intro c hc
      have hplain := List.mem_takeWhile_imp hc
      exact of_decide_eq_true hplain
    · intro c hc
      have hstop := List.head?_dropWhile_not (fun c => decide (c ∉ ['/', '?', '#'])) after
      rw [hc] at hstop
      exact Decidable.of_not_not (of_decide_eq_false hstop)
  · exact .inr rfl

/-- A text that is split with a scheme and a location has that shape, and its location passed the
checks. -/
theorem Shape.of_urlsplit {url : Text} {b : SplitResult} (h : urlsplit lib.toLibrary url = .ok b)
    (hscheme : b.scheme ∈ schemes) (hnetloc : b.netloc ≠ []) :
    ∃ scheme netloc tail, Shape url scheme netloc tail ∧ netloc ≠ [] ∧
      checkAuthority lib netloc = .ok () ∧ b = parts (lib.lower scheme) netloc tail := by
  rw [AssetSource.urlsplit_eq] at h
  cases hcheck : checkAuthority lib (authority (splitScheme lib.toLibrary (clean url)).2).1 with
  | error e =>
    rw [hcheck] at h
    cases h
  | ok _ =>
    rw [hcheck] at h
    have hb := (Except.ok.inj h).symm
    rcases splitScheme_cases lib (clean url) with
      ⟨scheme, rest, htext, hletter, hchars, hsplit⟩ | hnone
    · rw [hsplit] at hb hcheck
      rcases authority_cases rest with ⟨netloc, tail, hrest, hplain, htail, hdivided⟩ | hempty
      · rw [hdivided] at hb hcheck
        have hne : netloc ≠ [] := by
          rintro rfl
          exact hnetloc (by rw [hb]; rfl)
        exact ⟨scheme, netloc, tail, ⟨by rw [htext, hrest], hletter, hchars, hplain, htail⟩, hne,
          hcheck, hb⟩
      · exact absurd (by rw [hb]; exact hempty) hnetloc
    · rw [hnone] at hb
      have hnil : b.scheme = [] := by rw [hb]; rfl
      rw [hnil] at hscheme
      exact absurd hscheme (by decide)

/-! ## Longer and shorter URLs -/

/-- The characters that `clean` keeps inside a text. -/
def kept (c : Char) : Bool := c ≠ '\t' && c ≠ '\r' && c ≠ '\n'

/-- Cleaning a text does not touch kept characters that are put after it. -/
theorem clean_append (s : Text) {rest : Text} (h : rest.all kept = true) :
    clean (s ++ '/' :: rest) = clean s ++ '/' :: rest := by
  have hslash : ¬decide (('/' : Char).toNat ≤ 32) = true := by decide
  have hfilter : ('/' :: rest).filter kept = '/' :: rest := by
    rw [List.filter_eq_self]
    intro c hc
    rcases List.mem_cons.mp hc with rfl | hc
    · rfl
    · exact List.all_eq_true.mp h c hc
  unfold clean
  rw [List.dropWhile_append]
  split
  · rename_i hempty
    rw [List.isEmpty_iff.mp hempty,
      List.dropWhile_cons_of_neg (p := fun c : Char => decide (c.toNat ≤ 32)) hslash]
    exact hfilter
  · rw [List.filter_append]
    exact congrArg _ hfilter

/-- Cleaning takes no character away that is kept and no blank. -/
theorem mem_clean {c : Char} (hblank : ¬c.toNat ≤ 32) (hkept : kept c = true) {s : Text} :
    c ∈ clean s ↔ c ∈ s := by
  have hdrop : c ∈ s.dropWhile (fun c => decide (c.toNat ≤ 32)) ↔ c ∈ s := by
    constructor
    · intro h
      exact (List.dropWhile_suffix _).mem h
    · intro h
      rw [← List.takeWhile_append_dropWhile (p := fun c => decide (c.toNat ≤ 32)) (l := s),
        List.mem_append] at h
      rcases h with h | h
      · have hchar := List.mem_takeWhile_imp h
        exact absurd (of_decide_eq_true hchar) hblank
      · exact h
  unfold clean
  rw [List.mem_filter, hdrop]
  exact and_iff_left hkept

/-- A URL with more at its end has the same scheme and location. -/
theorem Shape.append {url scheme netloc tail : Text} (h : Shape url scheme netloc tail)
    {rest : Text} (hrest : rest.all kept = true) :
    Shape (url ++ '/' :: rest) scheme netloc (tail ++ '/' :: rest) where
  text := by
    rw [clean_append url hrest, h.text]
    simp
  letter := h.letter
  chars := h.chars
  netloc := h.netloc
  tail := by
    intro c hc
    cases htail : tail with
    | nil =>
      rw [htail] at hc
      rw [← Option.some.inj hc]
      decide
    | cons d tail =>
      rw [htail] at hc
      exact h.tail c (by rw [htail]; exact hc)

/-- A text is a text and the slashes after it. -/
theorem rstripSlash_append (s : Text) :
    ∃ k, s = rstripSlash s ++ List.replicate k '/' := by
  refine ⟨(s.rtakeWhile (· = '/')).length, ?_⟩
  have hslashes : s.rtakeWhile (· = '/') = List.replicate (s.rtakeWhile (· = '/')).length '/' := by
    rw [List.eq_replicate_iff]
    refine ⟨rfl, ?_⟩
    intro c hc
    have hchar := List.mem_rtakeWhile_imp hc
    exact of_decide_eq_true hchar
  rw [← hslashes]
  exact List.rdropWhile_append_rtakeWhile.symm

/-- The URL without its slashes at the end is of the same shape, with as many slashes fewer. -/
theorem Shape.rstripSlash {url scheme netloc tail : Text} (h : Shape url scheme netloc tail)
    (hnetloc : netloc ≠ []) :
    ∃ stem k, tail = stem ++ List.replicate k '/' ∧
      url = AssetSource.rstripSlash url ++ List.replicate k '/' ∧
        Shape (AssetSource.rstripSlash url) scheme netloc stem := by
  obtain ⟨k, hurl⟩ := rstripSlash_append url
  have hclean : clean url = clean (AssetSource.rstripSlash url) ++ List.replicate k '/' := by
    cases k with
    | zero => rw [List.replicate_zero, List.append_nil] at hurl ⊢; exact congrArg clean hurl
    | succ k =>
      have hkept : (List.replicate k '/').all kept = true := by
        rw [List.all_eq_true]
        intro c hc
        rw [List.eq_of_mem_replicate hc]
        decide
      rw [List.replicate_succ] at hurl ⊢
      rw [← clean_append _ hkept, ← hurl]
  have hboth : clean (AssetSource.rstripSlash url) ++ List.replicate k '/' =
      (scheme ++ ':' :: '/' :: '/' :: netloc) ++ tail := by
    rw [← hclean, h.text]
    simp
  have hstem : ∃ stem, clean (AssetSource.rstripSlash url) =
      (scheme ++ ':' :: '/' :: '/' :: netloc) ++ stem ∧ tail = stem ++ List.replicate k '/' := by
    rcases List.append_eq_append_iff.mp hboth with
      ⟨beyond, hbeyond, hslashes⟩ | ⟨stem, hstem, htail⟩
    · -- the slashes at the end cannot reach into the network location
      cases beyond with
      | nil => exact ⟨[], by rw [hbeyond]; simp, by rw [hslashes]; simp⟩
      | cons c beyond =>
        have hlast : (c :: beyond).getLast? = netloc.getLast? := by
          have hends := congrArg List.getLast? hbeyond
          rw [List.getLast?_append_of_ne_nil _ (List.cons_ne_nil c beyond),
            List.getLast?_append_of_ne_nil _ (List.cons_ne_nil ':' _)] at hends
          rw [← hends]
          cases netloc with
          | nil => exact absurd rfl hnetloc
          | cons d netloc => rw [List.getLast?_cons_cons, List.getLast?_cons_cons,
              List.getLast?_cons_cons]
        have hmem := List.getLast_mem (List.cons_ne_nil c beyond)
        have hslash : (c :: beyond).getLast (List.cons_ne_nil c beyond) = '/' := by
          refine List.eq_of_mem_replicate (n := k) ?_
          rw [hslashes]
          exact List.mem_append_left tail hmem
        rw [List.getLast?_eq_some_getLast (List.cons_ne_nil c beyond), hslash] at hlast
        exact absurd (by decide) (h.netloc '/' (List.mem_of_getLast? hlast.symm))
    · exact ⟨stem, hstem, htail⟩
  obtain ⟨stem, htext, htail⟩ := hstem
  refine ⟨stem, k, htail, hurl, ⟨?_, h.letter, h.chars, h.netloc, ?_⟩⟩
  · rw [htext]
    simp
  · intro c hc
    refine h.tail c ?_
    rw [htail, List.head?_append, hc]
    rfl

/-! ## The paths -/

/-- Where neither mark stands in the tail, it is the path. -/
theorem parts_of_notMem {scheme netloc tail : Text} (hquery : '?' ∉ tail)
    (hfragment : '#' ∉ tail) : parts scheme netloc tail = ⟨scheme, netloc, tail, [], []⟩ := by
  unfold parts
  rw [partition_of_notMem hfragment]
  dsimp only
  rw [partition_of_notMem hquery]

/-- Where one of the marks stands in the tail, more text after it is in the query or in the
fragment. -/
theorem parts_of_mem {scheme netloc tail rest : Text} (h : '?' ∈ tail ∨ '#' ∈ tail)
    (hrest : '#' ∉ rest) :
    (parts scheme netloc (tail ++ '/' :: rest)).query ≠ [] ∨
      (parts scheme netloc (tail ++ '/' :: rest)).fragment ≠ [] := by
  by_cases hfragment : '#' ∈ tail
  · right
    obtain ⟨before, after, rfl, hnot⟩ := List.eq_append_cons_of_mem hfragment
    unfold parts
    dsimp only
    rw [List.append_assoc, List.cons_append, partition_append hnot]
    simp
  · left
    have hquery : '?' ∈ tail := h.resolve_right hfragment
    have hwhole : '#' ∉ tail ++ '/' :: rest := by
      rw [List.mem_append, List.mem_cons]
      rintro (hmem | hmem | hmem)
      · exact hfragment hmem
      · exact absurd hmem (by decide)
      · exact hrest hmem
    obtain ⟨before, after, rfl, hnot⟩ := List.eq_append_cons_of_mem hquery
    unfold parts
    dsimp only
    rw [partition_of_notMem hwhole, List.append_assoc, List.cons_append, partition_append hnot]
    simp

/-- Without a semicolon in its last segment a path has no parameters. -/
theorem splitParams_of_notMem {s : Text} (h : ';' ∉ s.rtakeWhile (· ≠ '/')) :
    splitParams s = s := by
  have hall : (s.rtakeWhile (· ≠ '/')).takeWhile (· ≠ ';') = s.rtakeWhile (· ≠ '/') := by
    rw [List.takeWhile_eq_self_iff]
    exact ne_of_notMem h
  unfold splitParams
  rw [hall]
  exact List.rdropWhile_append_rtakeWhile

/-- Parameters end a path, and it is longer than without them. -/
theorem splitParams_append {s : Text} (h : ';' ∈ s.rtakeWhile (· ≠ '/')) :
    ∃ params, s = splitParams s ++ ';' :: params := by
  obtain ⟨before, params, hsegment, hnot⟩ := List.eq_append_cons_of_mem h
  have htaken : (s.rtakeWhile (· ≠ '/')).takeWhile (· ≠ ';') = before := by
    rw [hsegment, List.takeWhile_append_of_pos (ne_of_notMem hnot)]
    simp
  refine ⟨params, ?_⟩
  unfold splitParams
  rw [htaken, List.append_assoc, ← hsegment]
  exact List.rdropWhile_append_rtakeWhile.symm

/-- `urlparse` splits a URL and takes the parameters off its path. -/
theorem urlparse_eq {url : Text} {b : SplitResult} (h : urlsplit lib.toLibrary url = .ok b)
    (hscheme : b.scheme ∈ schemes) :
    urlparse lib url = .ok { b with path := splitParams b.path } := by
  have hparams : b.scheme ∈ usesParams := by
    have hsub : ∀ s ∈ schemes, s ∈ usesParams := by decide
    exact hsub _ hscheme
  unfold urlparse
  rw [h]
  by_cases hmem : ';' ∈ b.path
  · exact congrArg Except.ok (if_pos ⟨hparams, hmem⟩)
  · have hself : splitParams b.path = b.path :=
      splitParams_of_notMem fun hc => hmem ((List.rtakeWhile_suffix _ _).mem hc)
    rw [hself]
    exact congrArg Except.ok (if_neg fun hboth => hmem hboth.2)

/-! ## What the check passes -/

/-- All that `_validate_url` asks of the parsed URLs. -/
structure Passes (lib : Library) (p base : SplitResult) (filename : Text) : Prop where
  scheme : p.scheme ∈ schemes
  noUserinfo : hasUserinfo p = false
  query : p.query = []
  fragment : p.fragment = []
  baseScheme : base.scheme ∈ schemes
  baseNoUserinfo : hasUserinfo base = false
  baseQuery : base.query = []
  baseFragment : base.fragment = []
  origin : ∃ o, origin lib p = .ok o ∧ origin lib base = .ok o
  safe : isUnsafeHost lib (p.hostname lib.toLibrary) = false
  named : filename ≠ []
  allowed : hasForbiddenPart filename = false
  path : Percent.unquote p.path = rstripSlash (Percent.unquote base.path) ++ '/' :: filename

/-- The check of parsed URLs passes exactly when everything that it asks holds. -/
theorem checkUrls_eq_ok_iff {p base : SplitResult} {filename : Text} :
    checkUrls lib p base filename = .ok () ↔ Passes lib p base filename := by
  constructor
  · intro h
    unfold checkUrls at h
    split at h
    · cases h
    rename_i hscheme
    split at h
    · cases h
    rename_i hplain
    split at h
    · cases h
    rename_i hbase
    split at h
    · cases h
    rename_i hbasePlain
    cases hp : AssetSource.origin lib p with
    | error e =>
      rw [hp] at h
      cases h
    | ok o =>
      cases hb : AssetSource.origin lib base with
      | error e =>
        rw [hp, hb] at h
        cases h
      | ok o' =>
        rw [hp, hb] at h
        replace h : (if o ≠ o' then _ else _) = Except.ok () := h
        split at h
        · cases h
        rename_i horigin
        split at h
        · cases h
        rename_i hsafe
        split at h
        · cases h
        rename_i hname
        split at h
        · cases h
        rename_i hpath
        simp only [not_or, ne_eq, Decidable.not_not, Bool.not_eq_true] at *
        exact ⟨hscheme, hplain.1, hplain.2.1, hplain.2.2, hbase.1, hbase.2, hbasePlain.1,
          hbasePlain.2, ⟨o, hp, horigin ▸ hb⟩, hsafe, hname.1, hname.2, hpath⟩
  · intro h
    obtain ⟨o, hp, hb⟩ := h.origin
    unfold checkUrls
    rw [if_neg (fun hnot => hnot h.scheme),
      if_neg (by simp [h.noUserinfo, h.query, h.fragment]),
      if_neg (by simp [h.baseScheme, h.baseNoUserinfo]),
      if_neg (by simp [h.baseQuery, h.baseFragment]), hp, hb]
    show (if o ≠ o then _ else _) = Except.ok ()
    rw [if_neg (fun hne => hne rfl), if_neg (by simp [h.safe]),
      if_neg (by simp [h.named, h.allowed]), if_neg (fun hne => hne h.path)]

/-- The check of two URLs that parse is the check of what they parse to. -/
theorem validateUrl_eq {url base filename : Text} {p b : SplitResult} (hbase : base ≠ [])
    (hp : urlparse lib url = .ok p) (hb : urlparse lib base = .ok b) :
    validateUrl lib url (some base) filename = checkUrls lib p b filename := by
  unfold validateUrl
  rw [Option.filter_some, if_pos (by simpa using hbase)]
  show (do
    let p ← urlparse lib url
    let base ← urlparse lib base
    checkUrls lib p base filename) = _
  rw [hp, hb]
  rfl

/-! ## Round trips -/

/-- An http or https base URL without user information, query and fragment, whose host is safe. -/
structure ConfiguredBase (lib : Library) (base : Text) (b : SplitResult) : Prop where
  split : urlsplit lib.toLibrary base = .ok b
  scheme : b.scheme ∈ schemes
  noUserinfo : hasUserinfo b = false
  query : b.query = []
  fragment : b.fragment = []
  netloc : b.netloc ≠ []
  host : b.hostname lib.toLibrary ≠ []
  safe : isUnsafeHost lib (b.hostname lib.toLibrary) = false

/-- The check accepts a URL for the name, and for no other. -/
def RoundTrips (lib : Library) (base filename url : Text) : Prop :=
  validateUrl lib url (some base) filename = .ok () ∧
    ∀ other, other ≠ filename → validateUrl lib url (some base) other ≠ .ok ()

/-- A base that the path of the asset can be put after: its port is one, it has neither mark of a
query or a fragment, no parameters, and its path, decoded, does not end in a slash where the base
itself does not. -/
structure Extensible (lib : Library) (base : Text) (b : SplitResult) : Prop where
  port : ∃ port, b.port = .ok port
  noQuery : '?' ∉ base
  noFragment : '#' ∉ base
  noParams : ';' ∉ b.path.rtakeWhile (· ≠ '/')
  noSlash : ∀ s, urlsplit lib.toLibrary (rstripSlash base) = .ok s →
    (Percent.unquote s.path).getLast? ≠ some '/'

/-- A slash is no part of an escape. -/
theorem divides_slash : Percent.Divides '/' := ⟨by decide, by decide, by decide⟩

/-- A semicolon is no part of an escape. -/
theorem divides_semicolon : Percent.Divides ';' := ⟨by decide, by decide, by decide⟩

/-- Slashes at the end of a text are not quoted. -/
theorem unquote_append_slashes (s : Text) (k : ℕ) :
    Percent.unquote (s ++ List.replicate k '/') =
      Percent.unquote s ++ List.replicate k '/' := by
  induction k with
  | zero => rw [List.replicate_zero, List.append_nil, List.append_nil]
  | succ k ih =>
    rw [List.replicate_succ', ← List.append_assoc, Percent.unquote_append divides_slash, ih,
      List.append_assoc]
    rfl

/-- Slashes put at the end are stripped with the others. -/
theorem rstripSlash_append_slashes (s : Text) (k : ℕ) :
    rstripSlash (s ++ List.replicate k '/') = rstripSlash s := by
  induction k with
  | zero => rw [List.replicate_zero, List.append_nil]
  | succ k ih =>
    rw [List.replicate_succ', ← List.append_assoc, ← ih]
    exact List.rdropWhile_concat_pos _ _ _ (by decide)

/-- A text is stripped already exactly when its last character is no slash. -/
theorem rstripSlash_eq_self_iff {s : Text} : rstripSlash s = s ↔ s.getLast? ≠ some '/' := by
  unfold rstripSlash
  rw [List.rdropWhile_eq_self_iff]
  constructor
  · intro h hlast
    have hne : s ≠ [] := by
      rintro rfl
      cases hlast
    rw [List.getLast?_eq_some_getLast hne] at hlast
    exact h hne (decide_eq_true (Option.some.inj hlast))
  · intro h hne hlast
    rw [List.getLast?_eq_some_getLast hne, of_decide_eq_true hlast] at h
    exact h rfl

/-- The path of the asset is the expected one if and only if the base has no parameters, and no
slash at the end of its decoded path but its own. -/
theorem unquote_eq_iff (stem : Text) (k : ℕ) :
    Percent.unquote stem =
        rstripSlash (Percent.unquote (splitParams (stem ++ List.replicate k '/'))) ↔
      ';' ∉ (stem ++ List.replicate k '/').rtakeWhile (· ≠ '/') ∧
        (Percent.unquote stem).getLast? ≠ some '/' := by
  by_cases hparams : ';' ∈ (stem ++ List.replicate k '/').rtakeWhile (· ≠ '/')
  · have hk : k = 0 := by
      cases k with
      | zero => rfl
      | succ k =>
        rw [List.replicate_succ', ← List.append_assoc,
          List.rtakeWhile_concat_neg _ _ _ (by decide)] at hparams
        cases hparams
    subst hk
    rw [List.replicate_zero, List.append_nil] at hparams ⊢
    obtain ⟨params, hstem⟩ := splitParams_append hparams
    refine iff_of_false ?_ fun h => h.1 hparams
    intro heq
    have hlonger := congrArg List.length heq
    rw [hstem, Percent.unquote_append divides_semicolon, ← hstem] at hlonger
    have hprefix := (List.rdropWhile_prefix (p := fun c => decide (c = '/'))
      (Percent.unquote (splitParams stem))).length_le
    rw [List.length_append, List.length_cons] at hlonger
    unfold rstripSlash at hlonger
    omega
  · rw [splitParams_of_notMem hparams, unquote_append_slashes, rstripSlash_append_slashes, eq_comm,
      rstripSlash_eq_self_iff]
    exact (and_iff_right hparams).symm

/-- The last segment is what stands behind the last slash. -/
theorem rtakeWhile_append_slash (s rest : Text) :
    (s ++ '/' :: rest).rtakeWhile (· ≠ '/') = rest.rtakeWhile (· ≠ '/') := by
  induction rest using List.reverseRecOn with
  | nil =>
    rw [List.rtakeWhile_nil]
    exact List.rtakeWhile_concat_neg _ _ _ (by decide)
  | append_singleton rest c ih =>
    rw [← List.cons_append, ← List.append_assoc]
    by_cases hc : (fun c => decide (c ≠ '/')) c = true
    · rw [List.rtakeWhile_concat_pos _ _ c hc, List.rtakeWhile_concat_pos _ _ c hc, ih]
    · rw [List.rtakeWhile_concat_neg _ _ c hc, List.rtakeWhile_concat_neg _ _ c hc]

/-- The name after the last slash. -/
theorem append_slash_inj {s s' name name' : Text} (h : '/' ∉ name) (h' : '/' ∉ name') :
    s ++ '/' :: name = s' ++ '/' :: name' ↔ s = s' ∧ name = name' := by
  constructor
  · intro heq
    have hname := congrArg (List.rtakeWhile (· ≠ '/')) heq
    rw [rtakeWhile_append_slash, rtakeWhile_append_slash,
      List.rtakeWhile_eq_self_iff.mpr (ne_of_notMem h),
      List.rtakeWhile_eq_self_iff.mpr (ne_of_notMem h')] at hname
    subst hname
    exact ⟨List.append_cancel_right heq, rfl⟩
  · rintro ⟨rfl, rfl⟩
    rfl

/-- A name without a forbidden part has no slash. -/
theorem slash_notMem {filename : Text} (h : hasForbiddenPart filename = false) :
    '/' ∉ filename := by
  intro hmem
  have hpart : Text.contains "/".toList filename = true := by
    rw [Text.contains_iff]
    obtain ⟨before, after, rfl⟩ := List.append_of_mem hmem
    exact ⟨before, after, by simp⟩
  unfold hasForbiddenPart at h
  rw [List.any_eq_false] at h
  exact h "/" (by simp) hpart

/-- A URL with a host has an origin exactly when its port is one. -/
theorem origin_eq_ok_iff {b : SplitResult} (hhost : b.hostname lib.toLibrary ≠ []) :
    (∃ o, origin lib b = .ok o) ↔ ∃ port, b.port = .ok port := by
  unfold origin
  rw [if_neg hhost]
  cases b.port with
  | error e => exact iff_of_false (by rintro ⟨o, ho⟩; cases ho) (by rintro ⟨o, ho⟩; cases ho)
  | ok port => exact iff_of_true ⟨_, rfl⟩ ⟨_, rfl⟩

/-- A mark of a query or a fragment stands after the network location. -/
theorem Shape.mem_iff {url scheme netloc tail : Text} (h : Shape url scheme netloc tail) {c : Char}
    (hc : c ∈ ['?', '#']) : c ∈ url ↔ c ∈ tail := by
  have hblank : ¬c.toNat ≤ 32 := by
    rcases List.mem_pair.mp hc with rfl | rfl <;> decide
  have hkept : kept c = true := by
    rcases List.mem_pair.mp hc with rfl | rfl <;> decide
  have hscheme : c ∉ scheme := by
    intro hmem
    have hchar := List.all_eq_true.mp h.chars c hmem
    rcases List.mem_pair.mp hc with rfl | rfl <;> exact absurd hchar (by decide)
  have hnetloc : c ∉ netloc := fun hmem =>
    h.netloc c hmem (List.mem_cons_of_mem '/' hc)
  have hmarks : c ≠ ':' ∧ c ≠ '/' := by
    rcases List.mem_pair.mp hc with rfl | rfl <;> decide
  rw [← mem_clean hblank hkept, h.text]
  simp only [List.mem_append, List.mem_cons, hscheme, hnetloc, hmarks.1, hmarks.2, false_or]

/-- Cleaning keeps every character of a quoted name. -/
theorem kept_quote (filename : Text) : (Percent.quote filename).all kept = true := by
  rw [List.all_eq_true]
  intro c hc
  unfold kept
  simp only [Bool.and_eq_true, decide_eq_true_iff]
  refine ⟨⟨?_, ?_⟩, ?_⟩ <;> rintro rfl <;>
    exact Percent.notMem_quote (by decide) (by decide) filename hc

/-- A source URL is the base without its last slashes, a slash and the quoted name. -/
theorem of_named {settings : Settings} {assetType kind resolved filename url base : Text}
    (h : assetSourceUrl settings assetType kind filename = .named resolved filename url)
    (hbase : baseUrl settings resolved = some base) :
    base ≠ [] ∧ hasForbiddenPart filename = false ∧
      url = rstripSlash base ++ '/' :: Percent.quote filename := by
  unfold assetSourceUrl at h
  dsimp only at h
  generalize (if assetType ≠ [] then assetType else kind) = resolvedKind at h
  split at h
  · cases h
  split at h
  · cases h
  split at h
  · cases h
  rename_i hname
  split at h
  · cases h
  rename_i base' hfilter
  injection h with hkind _ hurl
  rw [hkind] at hfilter
  rw [hbase] at hfilter
  obtain ⟨hsome, hne⟩ := Option.filter_eq_some_iff.mp hfilter
  cases hsome
  refine ⟨of_decide_eq_true hne, ?_, hurl.symm⟩
  rw [Bool.eq_false_iff]
  exact fun hbad => hname (.inl hbad)

/-- What `urlparse` makes of a URL. -/
def parsed (lib : Library) (scheme netloc tail : Text) : SplitResult :=
  let s := parts (lib.lower scheme) netloc tail
  { s with path := splitParams s.path }

/-- A URL without marks of a query and a fragment is a path only. -/
theorem parsed_of_notMem {scheme netloc tail : Text} (hquery : '?' ∉ tail)
    (hfragment : '#' ∉ tail) :
    parsed lib scheme netloc tail = ⟨lib.lower scheme, netloc, splitParams tail, [], []⟩ := by
  unfold parsed
  rw [parts_of_notMem hquery hfragment]

/-- Where no mark stands in the base, the URL of an asset passes the check for its own name only,
and it does so where the path of the asset is the expected one. -/
theorem passes_parsed_iff {scheme netloc stem filename other base : Text} {k : ℕ}
    (hquery : '?' ∉ stem) (hfragment : '#' ∉ stem) (hallowed : hasForbiddenPart filename = false)
    (hne : filename ≠ [])
    (hconfigured : ConfiguredBase lib base
      ⟨lib.lower scheme, netloc, stem ++ List.replicate k '/', [], []⟩) :
    Passes lib (parsed lib scheme netloc (stem ++ '/' :: Percent.quote filename))
        (parsed lib scheme netloc (stem ++ List.replicate k '/')) other ↔
      (∃ port, SplitResult.port
        ⟨lib.lower scheme, netloc, stem ++ List.replicate k '/', [], []⟩ = .ok port) ∧
        ';' ∉ (stem ++ List.replicate k '/').rtakeWhile (· ≠ '/') ∧
          (Percent.unquote stem).getLast? ≠ some '/' ∧ other = filename := by
  have hnone : ∀ c ∈ ['?', '#'], c ∉ stem →
      c ∉ stem ++ '/' :: Percent.quote filename ∧ c ∉ stem ++ List.replicate k '/' := by
    intro c hc hstem
    have hslash : c ≠ '/' := by
      rcases List.mem_pair.mp hc with rfl | rfl <;> decide
    have hquoted : c ∉ Percent.quote filename := by
      rcases List.mem_pair.mp hc with rfl | rfl <;>
        exact Percent.notMem_quote (by decide) (by decide) filename
    simp [hstem, hslash, hquoted]
  obtain ⟨hsourceQuery, hbaseQuery⟩ := hnone '?' (by decide) hquery
  obtain ⟨hsourceFragment, hbaseFragment⟩ := hnone '#' (by decide) hfragment
  have hsegment : ';' ∉ (stem ++ '/' :: Percent.quote filename).rtakeWhile (· ≠ '/') := by
    rw [rtakeWhile_append_slash]
    intro hmem
    exact Percent.notMem_quote (by decide) (by decide) filename
      ((List.rtakeWhile_suffix _ _).mem hmem)
  have hpath : Percent.unquote (stem ++ '/' :: Percent.quote filename) =
      Percent.unquote stem ++ '/' :: filename := by
    rw [Percent.unquote_append divides_slash, Percent.unquote_quote]
  have hplain := hconfigured.noUserinfo
  have hport := origin_eq_ok_iff hconfigured.host
  rw [parsed_of_notMem hsourceQuery hsourceFragment, parsed_of_notMem hbaseQuery hbaseFragment,
    splitParams_of_notMem hsegment, ← hport]
  constructor
  · intro h
    obtain ⟨o, -, ho⟩ := h.origin
    have heq := h.path
    rw [hpath, append_slash_inj (slash_notMem hallowed) (slash_notMem h.allowed),
      unquote_eq_iff] at heq
    exact ⟨⟨o, ho⟩, heq.1.1, heq.1.2, heq.2.symm⟩
  · rintro ⟨⟨o, ho⟩, hparams, hlast, rfl⟩
    have heq := (unquote_eq_iff stem k).mpr ⟨hparams, hlast⟩
    exact ⟨hconfigured.scheme, hplain, rfl, rfl, hconfigured.scheme, hplain, rfl, rfl, ⟨o, ho, ho⟩,
      hconfigured.safe, hne, hallowed, by rw [hpath, heq]⟩

/-- The URL of an asset under a configured base passes the check for the name of the asset, and
for no other name, if and only if the path of the asset can be put after the base. -/
theorem assetSourceUrl_roundTrips_iff {settings : Settings}
    {assetType kind resolved filename url base : Text} {b : SplitResult}
    (hnamed : assetSourceUrl settings assetType kind filename = .named resolved filename url)
    (hbase : baseUrl settings resolved = some base) (hconfigured : ConfiguredBase lib base b)
    (hne : filename ≠ []) :
    RoundTrips lib base filename url ↔ Extensible lib base b := by
  obtain ⟨hbase_ne, hallowed, hurl⟩ := of_named hnamed hbase
  obtain ⟨scheme, netloc, tail, hshape, hnetloc, hcheck, rfl⟩ :=
    Shape.of_urlsplit hconfigured.split hconfigured.scheme hconfigured.netloc
  obtain ⟨stem, k, rfl, -, hstem⟩ := hshape.rstripSlash hnetloc
  have hsource := hstem.append (kept_quote filename)
  rw [← hurl] at hsource
  have hsplit : ∀ {text rest}, Shape text scheme netloc rest →
      urlsplit lib.toLibrary text = .ok (parts (lib.lower scheme) netloc rest) := by
    intro text rest h
    rw [h.urlsplit_eq, hcheck]
    rfl
  have hvalidate : ∀ other, validateUrl lib url (some base) other = .ok () ↔
      Passes lib (parsed lib scheme netloc (stem ++ '/' :: Percent.quote filename))
        (parsed lib scheme netloc (stem ++ List.replicate k '/')) other := by
    intro other
    rw [validateUrl_eq hbase_ne (urlparse_eq (hsplit hsource) hconfigured.scheme)
      (urlparse_eq (hsplit hshape) hconfigured.scheme), checkUrls_eq_ok_iff]
    rfl
  have hmarks : ∀ c ∈ ['?', '#'], (c ∈ base ↔ c ∈ stem) := by
    intro c hc
    have hslash : c ∉ List.replicate k '/' := by
      intro hmem
      rw [List.eq_of_mem_replicate hmem] at hc
      exact absurd hc (by decide)
    rw [hshape.mem_iff hc, List.mem_append, or_iff_left hslash]
  by_cases hmark : '?' ∈ stem ∨ '#' ∈ stem
  · -- the name ends up in the query or in the fragment
    refine iff_of_false ?_ ?_
    · intro h
      have hpasses := (hvalidate filename).mp h.1
      have hquoted : '#' ∉ Percent.quote filename :=
        Percent.notMem_quote (by decide) (by decide) filename
      have hmarked :
          (parts (lib.lower scheme) netloc (stem ++ '/' :: Percent.quote filename)).query ≠ [] ∨
          (parts (lib.lower scheme) netloc (stem ++ '/' :: Percent.quote filename)).fragment ≠
            [] := parts_of_mem hmark hquoted
      rcases hmarked with hquery | hfragment
      · exact hquery hpasses.query
      · exact hfragment hpasses.fragment
    · intro h
      rcases hmark with hquery | hfragment
      · exact h.noQuery ((hmarks '?' (by decide)).mpr hquery)
      · exact h.noFragment ((hmarks '#' (by decide)).mpr hfragment)
  · rw [not_or] at hmark
    have hslashes : ∀ c ∈ ['?', '#'], c ∉ stem → c ∉ stem ++ List.replicate k '/' := by
      intro c hc hnot hmem
      exact hnot ((hmarks c hc).mp ((hshape.mem_iff hc).mpr hmem))
    have hstemSplit := hsplit hstem
    rw [parts_of_notMem hmark.1 hmark.2] at hstemSplit
    rw [parts_of_notMem (hslashes '?' (by decide) hmark.1)
      (hslashes '#' (by decide) hmark.2)] at hconfigured ⊢
    have hpasses := fun other => (hvalidate other).trans
      (passes_parsed_iff hmark.1 hmark.2 hallowed hne hconfigured)
    constructor
    · intro h
      obtain ⟨hport, hparams, hlast, -⟩ := (hpasses filename).mp h.1
      refine ⟨hport, fun hmem => hmark.1 ((hmarks '?' (by decide)).mp hmem),
        fun hmem => hmark.2 ((hmarks '#' (by decide)).mp hmem), hparams, ?_⟩
      intro s hs
      rw [hstemSplit] at hs
      rw [← Except.ok.inj hs]
      exact hlast
    · intro h
      refine ⟨(hpasses filename).mpr ⟨h.port, h.noParams, h.noSlash _ hstemSplit, rfl⟩, ?_⟩
      intro other hother hok
      exact hother ((hpasses other).mp hok).2.2.2

namespace Fixture

/-- Characters are lowered one at a time, and the host is a name. -/
def library : Library where
  lower := List.map Char.toLower
  nfkc := id
  cookieParser := fun _ => []
  mapped := fun _ => true

/-- A base with parameters, and one with a slash at its end. -/
def settings : Settings where
  assetSourceIsoBaseUrl := some "http://h/a;b".toList
  assetSourceCtBaseUrl := some "https://h:8443/a%20b/".toList

/-- A base with parameters makes a source URL that its check does not accept. -/
theorem source_url_rejected :
    assetSourceUrl settings "iso".toList [] "x".toList =
        .named "iso".toList "x".toList "http://h/a;b/x".toList ∧
      ConfiguredBase library "http://h/a;b".toList
        ⟨"http".toList, "h".toList, "/a;b".toList, [], []⟩ ∧
      ¬RoundTrips library "http://h/a;b".toList "x".toList "http://h/a;b/x".toList := by
  refine ⟨by decide +kernel, ⟨rfl, by decide, by decide, rfl, rfl, by decide, by decide,
    by decide +kernel⟩, ?_⟩
  intro h
  have hok : (validateUrl library "http://h/a;b/x".toList (some "http://h/a;b".toList)
    "x".toList).isOk = false := by decide +kernel
  rw [h.1] at hok
  cases hok

/-- A base with a slash at its end makes a source URL that its check accepts for its name alone. -/
theorem assetSourceUrl_roundTrips_iff_container :
    RoundTrips library "https://h:8443/a%20b/".toList "x;y?z".toList
      "https://h:8443/a%20b/x%3By%3Fz".toList := by
  have hconfigured : ConfiguredBase library "https://h:8443/a%20b/".toList
      ⟨"https".toList, "h:8443".toList, "/a%20b/".toList, [], []⟩ :=
    ⟨rfl, by decide, by decide, rfl, rfl, by decide, by decide, by decide +kernel⟩
  have hsplit : urlsplit library.toLibrary (rstripSlash "https://h:8443/a%20b/".toList) =
      .ok ⟨"https".toList, "h:8443".toList, "/a%20b".toList, [], []⟩ := rfl
  have hnamed : assetSourceUrl settings "ct".toList [] "x;y?z".toList =
      .named "ct".toList "x;y?z".toList "https://h:8443/a%20b/x%3By%3Fz".toList := by
    decide +kernel
  refine (assetSourceUrl_roundTrips_iff hnamed (by decide) hconfigured (by decide)).mpr
    ⟨⟨some 8443, rfl⟩, by decide, by decide, by decide, ?_⟩
  intro s hs
  rw [hsplit] at hs
  rw [← Except.ok.inj hs]
  decide +kernel

end Fixture

end LabGoblin.AssetSource
