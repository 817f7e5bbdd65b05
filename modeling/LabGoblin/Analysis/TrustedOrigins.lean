import LabGoblin.Analysis.CanonicalUrls
import LabGoblin.Computation.Outcome
import Mathlib.Data.List.ReduceOption

/-!
# Trusted origins

The canonical form of an origin stands for its scheme, its host in lower case and the port at
which it is reached. So the writes and the handshakes that pass by their `Origin` are those whose
origin has these in common with a configured value, or with the address of the request where none
is configured.
-/

set_option autoImplicit false

namespace LabGoblin.Csrf

open ProxmoxUrl (bracketed portSuffix)

variable {lib : Library}

/-! ## What an origin names -/

def defaultPort (scheme : Text) : ℕ := if scheme = "https".toList then 443 else 80

/-- The port that is written into an origin. A port of zero is taken for none. -/
def statedPort (scheme : Text) (port : Option ℕ) : Option ℕ :=
  port.filter fun n => n ≠ 0 ∧ n ≠ defaultPort scheme

/-- The port at which a value is reached. -/
def reachedPort (scheme : Text) (port : Option ℕ) : ℕ :=
  (statedPort scheme port).getD (defaultPort scheme)

/-- The scheme, the host in lower case and the port of a parsed value. -/
def placeOf (lib : Library) (parsed : SplitResult) : Option (Text × Text × ℕ) :=
  parsed.port.toOption.map fun port =>
    (parsed.scheme, lib.lower (parsed.hostname lib), reachedPort parsed.scheme port)

/-- What is asked of a parsed value that names an origin. -/
structure NamesOrigin (lib : Library) (parsed : SplitResult) (port : Option ℕ) : Prop where
  scheme : parsed.scheme ∈ ["http".toList, "https".toList]
  host : parsed.hostname lib ≠ []
  username : parsed.userinfo.1 = []
  password : parsed.userinfo.2 = []
  path : parsed.path ∈ [[], ['/']]
  query : parsed.query = []
  fragment : parsed.fragment = []
  port : parsed.port = .ok port

/-- The port is written into an origin unless it is zero or the standard one. -/
theorem portSuffix_statedPort (scheme : Text) (n : ℕ) :
    portSuffix (statedPort scheme (some n)) =
      if n ≠ 0 ∧ n ≠ defaultPort scheme then ':' :: (toString n).toList else [] := by
  unfold statedPort
  rw [Option.filter_some]
  by_cases hstated : n ≠ 0 ∧ n ≠ defaultPort scheme
  · rw [if_pos hstated, if_pos (decide_eq_true hstated)]
    rfl
  · rw [if_neg hstated, if_neg fun hkept => hstated (of_decide_eq_true hkept)]
    rfl

/-- The origin that is made of a scheme, a host and a port. -/
def originText (scheme host : Text) (port : Option ℕ) : Text :=
  scheme ++ "://".toList ++ (bracketed host ++ portSuffix (statedPort scheme port))

/-- A value that names an origin has the origin of its scheme, host and port. -/
theorem NamesOrigin.originOf_eq {parsed : SplitResult} {port : Option ℕ}
    (h : NamesOrigin lib parsed port) : originOf lib parsed =
      some (originText parsed.scheme (lib.lower (parsed.hostname lib)) port) := by
  unfold originOf
  rw [if_neg (not_or.mpr ⟨not_not.mpr h.scheme, h.host⟩),
    if_neg (by simp [h.username, h.password, h.path]),
    if_neg (by simp [h.query, h.fragment]), h.port]
  unfold originText
  rw [← List.append_assoc]
  cases port with
  | none => rfl
  | some n =>
    rw [portSuffix_statedPort]
    rfl

/-- A parsed value has an origin exactly when it names one. -/
theorem originOf_eq_some_iff {parsed : SplitResult} {origin : Text} :
    originOf lib parsed = some origin ↔ ∃ port, NamesOrigin lib parsed port ∧
      origin = originText parsed.scheme (lib.lower (parsed.hostname lib)) port := by
  constructor
  · intro h
    have hnames : ∃ port, NamesOrigin lib parsed port := by
      unfold originOf at h
      split at h
      · cases h
      · rename_i hhost
        split at h
        · cases h
        · rename_i huser
          split at h
          · cases h
          · rename_i hmarks
            split at h
            · cases h
            · rename_i port hport
              simp only [not_or, not_not] at hhost huser hmarks
              exact ⟨port, hhost.1, hhost.2, huser.1, huser.2.1, huser.2.2, hmarks.1, hmarks.2,
                hport⟩
    obtain ⟨port, hnames⟩ := hnames
    refine ⟨port, hnames, ?_⟩
    rw [hnames.originOf_eq] at h
    exact (Option.some.inj h).symm
  · rintro ⟨port, h, rfl⟩
    exact h.originOf_eq

/-- The origin that a value names, where it names one. -/
def originPlace (lib : Library) (value : Text) : Option (Text × Text × ℕ) :=
  match urlsplit lib (Text.strip value) with
  | .error _ => none
  | .ok parsed => if (originOf lib parsed).isSome then placeOf lib parsed else none

/-! ## Hosts of origins -/

/-- `rpartition` divides a text at the last separator. -/
theorem rpartition_append {c : Char} {before after : Text} (h : c ∉ after) :
    rpartition c (before ++ c :: after) = (before, true, after) := by
  have hreverse : (before ++ c :: after).reverse = after.reverse ++ c :: before.reverse := by simp
  have hother : ∀ d ∈ after.reverse, decide (d ≠ c) = true :=
    Csrf.ne_of_notMem fun hmem => h (List.mem_reverse.mp hmem)
  have hdrop : (after.reverse ++ c :: before.reverse).dropWhile (fun d => decide (d ≠ c)) =
      c :: before.reverse := by
    rw [List.dropWhile_append_of_pos hother, List.dropWhile_cons_of_neg (by simp)]
  have htake : (after.reverse ++ c :: before.reverse).takeWhile (fun d => decide (d ≠ c)) =
      after.reverse := by
    rw [List.takeWhile_append_of_pos hother, List.takeWhile_cons_of_neg (by simp),
      List.append_nil]
  unfold rpartition
  rw [hreverse, hdrop, htake]
  dsimp only
  rw [List.reverse_reverse, List.reverse_reverse]

/-- A value whose user information is empty has the host of its location after the mark. -/
theorem netloc_of_userinfo {parsed : SplitResult} (husername : parsed.userinfo.1 = [])
    (hpassword : parsed.userinfo.2 = []) : '@' ∉ parsed.netloc ∨
      ∃ user host, parsed.netloc = user ++ '@' :: host ∧ '@' ∉ host ∧ user ∈ [[], [':']] := by
  by_cases hat : '@' ∈ parsed.netloc
  · right
    obtain ⟨before, after, hreverse, hnot⟩ :=
      List.eq_append_cons_of_mem (List.mem_reverse.mpr hat)
    have hnetloc : parsed.netloc = after.reverse ++ '@' :: before.reverse := by
      rw [← List.reverse_reverse parsed.netloc, hreverse]
      simp
    have hhost : '@' ∉ before.reverse := fun hmem => hnot (List.mem_reverse.mp hmem)
    refine ⟨after.reverse, before.reverse, hnetloc, hhost, ?_⟩
    unfold SplitResult.userinfo at husername hpassword
    rw [hnetloc, rpartition_append hhost] at husername hpassword
    dsimp only at husername hpassword
    by_cases hcolon : ':' ∈ after.reverse
    · obtain ⟨name, password, hsplit, hfirst⟩ := List.eq_append_cons_of_mem hcolon
      rw [hsplit, Csrf.partition_append hfirst] at husername hpassword
      dsimp only at husername hpassword
      rw [hsplit, husername, hpassword]
      simp
    · rw [Csrf.partition_of_notMem hcolon] at husername
      dsimp only at husername
      rw [husername]
      simp
  · exact .inl hat

/-- The location of a value that is split passed its checks. -/
theorem checkAuthority_of_urlsplit {value : Text} {parsed : SplitResult}
    (h : urlsplit lib value = .ok parsed) :
    AssetSource.checkAuthority (assetLibrary lib) parsed.netloc = .ok () := by
  have hsplit := @AssetSource.urlsplit_eq (assetLibrary lib) value
  rw [show urlsplit (assetLibrary lib).toLibrary value = .ok parsed from h] at hsplit
  cases hcheck : AssetSource.checkAuthority (assetLibrary lib)
      (AssetSource.authority (splitScheme lib (AssetSource.clean value)).2).1 with
  | error e =>
    rw [hcheck] at hsplit
    cases hsplit
  | ok _ =>
    rw [hcheck] at hsplit
    have hnetloc := congrArg SplitResult.netloc (Except.ok.inj hsplit)
    rw [hnetloc]
    exact hcheck

/-- Empty user information changes nothing in the checks of a network location. -/
theorem checkAuthority_append (alib : AssetSource.Library) {user host : Text} (hat : '@' ∉ host)
    (huser : user ∈ [[], [':']]) :
    AssetSource.checkAuthority alib (user ++ '@' :: host) =
      AssetSource.checkAuthority alib host := by
  have hsame : ∀ c, c ≠ '@' → c ≠ ':' → (c ∈ user ++ '@' :: host ↔ c ∈ host) := by
    intro c hmark hcolon
    rcases List.mem_pair.mp huser with rfl | rfl <;> simp [hmark, hcolon]
  have hopen := hsame '[' (by decide) (by decide)
  have hclose := hsame ']' (by decide) (by decide)
  have hbracketed : checkBracketedNetloc (user ++ '@' :: host) =
      checkBracketedNetloc host := by
    unfold checkBracketedNetloc
    rw [rpartition_append hat, rpartition_of_notMem hat]
  have hplain : checkNetloc alib.toLibrary (user ++ '@' :: host) =
      checkNetloc alib.toLibrary host := by
    unfold checkNetloc
    rcases List.mem_pair.mp huser with rfl | rfl <;> rfl
  unfold AssetSource.checkAuthority
  simp only [hopen, hclose, hbracketed, hplain]

/-- The network location without its empty user information. -/
theorem NamesOrigin.divided {value : Text} {parsed : SplitResult} {port : Option ℕ}
    (h : NamesOrigin lib parsed port) (hsplit : urlsplit lib value = .ok parsed) :
    ∃ q, q.hostinfo = parsed.hostinfo ∧ Divided lib q := by
  have hcheck := checkAuthority_of_urlsplit hsplit
  rcases netloc_of_userinfo h.username h.password with hat | ⟨user, host, hnetloc, hat, huser⟩
  · exact ⟨parsed, rfl, Divided.of_checked (assetLibrary lib) hat hcheck⟩
  · refine ⟨{ parsed with netloc := host }, ?_, Divided.of_checked (assetLibrary lib) hat ?_⟩
    · unfold SplitResult.hostinfo
      dsimp only
      rw [hnetloc, rpartition_append hat, rpartition_of_notMem hat]
    · rw [← checkAuthority_append (assetLibrary lib) hat huser, ← hnetloc]
      exact hcheck

/-- The host of an origin is not taken for one in brackets. -/
theorem NamesOrigin.wellBracketed (hl : Lowers lib) {value : Text} {parsed : SplitResult}
    {port : Option ℕ} (h : NamesOrigin lib parsed port) (hsplit : urlsplit lib value = .ok parsed) :
    WellBracketed (lib.lower (parsed.hostname lib)) := by
  obtain ⟨q, hsame, hdivided⟩ := h.divided hsplit
  have hwell := hl.wellBracketed hdivided
  rw [hl.hostname, ← hsame]
  exact hwell

/-! ## Equal origins -/

/-- A scheme is told from the location behind it. -/
theorem scheme_injective {scheme scheme' location location' : Text}
    (h : scheme ∈ ["http".toList, "https".toList]) (h' : scheme' ∈ ["http".toList, "https".toList])
    (heq : scheme ++ "://".toList ++ location = scheme' ++ "://".toList ++ location') :
    scheme = scheme' ∧ location = location' := by
  rcases List.mem_pair.mp h with rfl | rfl <;> rcases List.mem_pair.mp h' with rfl | rfl
  · exact ⟨rfl, List.append_cancel_left heq⟩
  · have hfifth := congrArg (fun s => s[4]?) heq
    exact absurd (Option.some.inj hfifth) (by decide)
  · have hfifth := congrArg (fun s => s[4]?) heq
    exact absurd (Option.some.inj hfifth) (by decide)
  · exact ⟨rfl, List.append_cancel_left heq⟩

/-- Two ports are reached as one exactly when they are written alike. -/
theorem reachedPort_injective {scheme : Text} {port port' : Option ℕ} :
    reachedPort scheme port = reachedPort scheme port' ↔
      statedPort scheme port = statedPort scheme port' := by
  have hne : ∀ p : Option ℕ, ∀ n ∈ statedPort scheme p, n ≠ defaultPort scheme := by
    intro p n hn
    exact (of_decide_eq_true (Option.mem_filter_iff.mp hn).2).2
  unfold reachedPort
  refine ⟨fun h => ?_, fun h => by rw [h]⟩
  cases hp : statedPort scheme port with
  | none =>
    cases hp' : statedPort scheme port' with
    | none => rfl
    | some n =>
      rw [hp, hp'] at h
      exact absurd h.symm (hne port' n hp')
  | some m =>
    cases hp' : statedPort scheme port' with
    | none =>
      rw [hp, hp'] at h
      exact absurd h (hne port m hp)
    | some n =>
      rw [hp, hp'] at h
      exact congrArg some h

/-- A value is read as an origin exactly when it parses, stripped of spaces, to one that names it.
-/
theorem canonicalOrigin_eq_some_iff {value origin : Text} :
    canonicalOrigin lib value = .ok (some origin) ↔
      ∃ parsed, urlsplit lib (Text.strip value) = .ok parsed ∧
        originOf lib parsed = some origin := by
  unfold canonicalOrigin
  cases urlsplit lib (Text.strip value) with
  | error e => exact iff_of_false nofun fun ⟨_, h, _⟩ => nomatch h
  | ok parsed =>
    constructor
    · intro h
      exact ⟨parsed, rfl, Except.ok.inj h⟩
    · rintro ⟨_, heq, h⟩
      cases Except.ok.inj heq
      exact congrArg Except.ok h

/-- The place of an origin is its scheme, its host in lower case and the port at which it is
reached. -/
theorem originPlace_eq {value origin : Text} {parsed : SplitResult} {port : Option ℕ}
    (hsplit : urlsplit lib (Text.strip value) = .ok parsed)
    (horigin : originOf lib parsed = some origin) (h : NamesOrigin lib parsed port) :
    originPlace lib value = some (parsed.scheme, lib.lower (parsed.hostname lib),
      reachedPort parsed.scheme port) := by
  unfold originPlace placeOf
  rw [hsplit]
  dsimp only
  rw [horigin, h.port]
  rfl

/-- Two origins have one canonical form exactly when they name one scheme, host and port. -/
theorem canonicalOrigin_eq_iff (hl : Lowers lib) {value value' origin origin' : Text}
    (h : canonicalOrigin lib value = .ok (some origin))
    (h' : canonicalOrigin lib value' = .ok (some origin')) :
    origin = origin' ↔ originPlace lib value = originPlace lib value' := by
  obtain ⟨parsed, hsplit, horigin⟩ := canonicalOrigin_eq_some_iff.mp h
  obtain ⟨parsed', hsplit', horigin'⟩ := canonicalOrigin_eq_some_iff.mp h'
  obtain ⟨port, hnames, heq⟩ := originOf_eq_some_iff.mp horigin
  obtain ⟨port', hnames', heq'⟩ := originOf_eq_some_iff.mp horigin'
  rw [originPlace_eq hsplit horigin hnames, originPlace_eq hsplit' horigin' hnames', heq, heq']
  constructor
  · intro hforms
    unfold originText at hforms
    obtain ⟨hscheme, hlocation⟩ := scheme_injective hnames.scheme hnames'.scheme hforms
    obtain ⟨hhost, hport⟩ := location_injective (hnames.wellBracketed hl hsplit)
      (hnames'.wellBracketed hl hsplit') hlocation
    rw [hscheme] at hport ⊢
    rw [hhost, reachedPort_injective.mpr hport]
  · intro hplaces
    simp only [Option.some.injEq, Prod.mk.injEq] at hplaces
    obtain ⟨hscheme, hhost, hport⟩ := hplaces
    rw [hscheme] at hport ⊢
    unfold originText
    rw [hhost, reachedPort_injective.mp hport]

/-- A value has a place exactly when it is read as an origin. -/
theorem isSome_originPlace_iff {value : Text} :
    (originPlace lib value).isSome = true ↔
      ∃ origin, canonicalOrigin lib value = .ok (some origin) := by
  constructor
  · intro h
    unfold originPlace at h
    cases hsplit : urlsplit lib (Text.strip value) with
    | error e =>
      rw [hsplit] at h
      cases h
    | ok parsed =>
      rw [hsplit] at h
      dsimp only at h
      split at h
      · rename_i hsome
        obtain ⟨origin, horigin⟩ := Option.isSome_iff_exists.mp hsome
        exact ⟨origin, canonicalOrigin_eq_some_iff.mpr ⟨parsed, hsplit, horigin⟩⟩
      · cases h
  · rintro ⟨origin, h⟩
    obtain ⟨parsed, hsplit, horigin⟩ := canonicalOrigin_eq_some_iff.mp h
    obtain ⟨port, hnames, -⟩ := originOf_eq_some_iff.mp horigin
    rw [originPlace_eq hsplit horigin hnames]
    rfl

/-! ## What is trusted -/

/-- The values that are configured. -/
def configuredValues (settings : Settings) : List Text := settings.browserTrustedOrigins.splitOn ','

/-- The address that a request is made to. -/
def requestValue (lib : Library) (r : Request) : Text :=
  let stated := ((r.xForwardedProto.map HeaderValue.text).filter (· ≠ [])).getD r.scheme
  let proto := lib.lower (Text.strip (partition ',' stated).1)
  (if proto = "wss".toList then "https".toList
    else if proto = "ws".toList then "http".toList
    else proto) ++ "://".toList ++ header r.host

/-- The values whose origins are trusted: the configured ones, or else the address that the
request is made to. -/
def trustedValues (lib : Library) (settings : Settings) (r : Request) : List Text :=
  if (configuredValues settings).any fun value => (originPlace lib value).isSome then
    configuredValues settings
  else [requestValue lib r]

/-- Every configured value is read, as an origin or not. -/
def ConfigurationRead (lib : Library) (settings : Settings) : Prop :=
  ∀ value ∈ configuredValues settings, ∃ origin, canonicalOrigin lib value = .ok origin

/-- The request comes from an origin that has the scheme, the host and the port of a trusted
value. -/
def FromTrusted (lib : Library) (settings : Settings) (r : Request) : Prop :=
  ConfigurationRead lib settings ∧ ∃ value ∈ trustedValues lib settings r, ∃ place,
    originPlace lib (header r.origin) = some place ∧ originPlace lib value = some place

variable {settings : Settings} {r : Request}

/-- An origin is trusted when the configuration is read and one of the trusted values is read as it.
-/
theorem trustedOrigins_iff (origin : Text) :
    (∃ trusted, trustedOrigins lib settings (header r.host)
        (r.xForwardedProto.map HeaderValue.text) r.scheme = .ok trusted ∧ origin ∈ trusted) ↔
      ConfigurationRead lib settings ∧
        ∃ value ∈ trustedValues lib settings r, canonicalOrigin lib value = .ok (some origin) := by
  have hread : ConfigurationRead lib settings ↔
      ∃ configured, (configuredValues settings).mapM (canonicalOrigin lib) = .ok configured :=
    Interactive.exists_mapM_eq_ok_iff.symm
  rw [hread]
  unfold trustedOrigins
  rw [show settings.browserTrustedOrigins.splitOn ',' = configuredValues settings from rfl]
  cases hmapM : (configuredValues settings).mapM (canonicalOrigin lib) with
  | error e => exact iff_of_false (fun ⟨_, h, _⟩ => nomatch h) (fun ⟨⟨_, h⟩, _⟩ => nomatch h)
  | ok configured =>
    have hmem : ∀ o, o ∈ configured.reduceOption ↔
        ∃ value ∈ configuredValues settings, canonicalOrigin lib value = .ok (some o) := by
      intro o
      rw [List.reduceOption_mem_iff]
      exact Interactive.mem_of_mapM_eq_ok hmapM (some o)
    have hany : ((configuredValues settings).any fun value => (originPlace lib value).isSome) = true
        ↔ configured.reduceOption ≠ [] := by
      rw [List.any_eq_true]
      constructor
      · rintro ⟨value, hvalue, hsome⟩
        obtain ⟨o, ho⟩ := isSome_originPlace_iff.mp hsome
        exact List.ne_nil_of_mem ((hmem o).mpr ⟨value, hvalue, ho⟩)
      · intro hne
        obtain ⟨o, ho⟩ := List.exists_mem_of_ne_nil _ hne
        obtain ⟨value, hvalue, hcanonical⟩ := (hmem o).mp ho
        exact ⟨value, hvalue, isSome_originPlace_iff.mpr ⟨o, hcanonical⟩⟩
    unfold trustedValues
    by_cases hconfigured : configured.reduceOption ≠ []
    · rw [if_pos (hany.mpr hconfigured)]
      show (∃ trusted, (if configured.reduceOption ≠ [] then _ else _) = _ ∧ _) ↔ _
      rw [if_pos hconfigured]
      constructor
      · rintro ⟨trusted, heq, horigin⟩
        cases Except.ok.inj heq
        exact ⟨⟨configured, rfl⟩, (hmem origin).mp horigin⟩
      · rintro ⟨-, hvalue⟩
        exact ⟨_, rfl, (hmem origin).mpr hvalue⟩
    · rw [if_neg fun h => hconfigured (hany.mp h)]
      show (∃ trusted, (if configured.reduceOption ≠ [] then _ else
        (canonicalOrigin lib (requestValue lib r)).bind fun derived => .ok derived.toList) = _ ∧ _)
          ↔ _
      rw [if_neg hconfigured]
      constructor
      · rintro ⟨trusted, heq, horigin⟩
        obtain ⟨derived, hderived, heq⟩ := Interactive.bind_eq_ok heq
        cases Except.ok.inj heq
        refine ⟨⟨configured, rfl⟩, requestValue lib r, List.mem_singleton.mpr rfl, ?_⟩
        rw [hderived, Option.mem_toList.mp horigin]
      · rintro ⟨-, value, hvalue, hcanonical⟩
        rw [List.mem_singleton.mp hvalue] at hcanonical
        rw [hcanonical]
        exact ⟨[origin], rfl, List.mem_singleton.mpr rfl⟩

/-- An origin is trusted by its canonical form exactly when it is trusted by what it names. -/
theorem originTrusted_iff (hl : Lowers lib) :
    OriginTrusted lib settings r ↔ FromTrusted lib settings r := by
  constructor
  · rintro ⟨origin, trusted, hcanonical, htrusted, hmem⟩
    obtain ⟨hread, value, hvalue, hform⟩ := (trustedOrigins_iff origin).mp ⟨trusted, htrusted, hmem⟩
    obtain ⟨place, hplace⟩ := Option.isSome_iff_exists.mp
      (isSome_originPlace_iff.mpr ⟨origin, hcanonical⟩)
    refine ⟨hread, value, hvalue, place, hplace, ?_⟩
    rw [← (canonicalOrigin_eq_iff hl hcanonical hform).mp rfl]
    exact hplace
  · rintro ⟨hread, value, hvalue, place, horigin, hplace⟩
    obtain ⟨origin, hcanonical⟩ := isSome_originPlace_iff.mp
      (Option.isSome_iff_exists.mpr ⟨place, horigin⟩)
    obtain ⟨form, hform⟩ := isSome_originPlace_iff.mp
      (Option.isSome_iff_exists.mpr ⟨place, hplace⟩)
    have hsame := (canonicalOrigin_eq_iff hl hcanonical hform).mpr (horigin.trans hplace.symm)
    rw [← hsame] at hform
    obtain ⟨trusted, htrusted, hmem⟩ :=
      (trustedOrigins_iff origin).mpr ⟨hread, value, hvalue, hform⟩
    exact ⟨origin, trusted, hcanonical, htrusted, hmem⟩

/-- A handshake is allowed exactly when its origin is trusted. -/
theorem websocketOriginAllowed_iff :
    websocketOriginAllowed lib settings r = .ok true ↔ OriginTrusted lib settings r := by
  unfold websocketOriginAllowed
  constructor
  · intro h
    obtain ⟨origin, hcanonical, h⟩ := Interactive.bind_eq_ok h
    obtain ⟨trusted, htrusted, h⟩ := Interactive.bind_eq_ok h
    obtain ⟨form, rfl, hmem⟩ := (Option.any_eq_true _ _).mp (Except.ok.inj h)
    exact ⟨form, trusted, hcanonical, htrusted, of_decide_eq_true hmem⟩
  · rintro ⟨origin, trusted, hcanonical, htrusted, hmem⟩
    rw [hcanonical, htrusted]
    exact congrArg Except.ok (decide_eq_true hmem)

/-- A write with a cookie passes exactly when its site is allowed and its origin is trusted, or
without one its site is the same. -/
theorem dispatch_iff (hl : Lowers lib) (hmethod : r.method ∈ unsafeMethods)
    (hcookie : usesCookie lib settings r = true) :
    dispatch lib settings r = .ok .callNext ↔ SiteAllowed lib r ∧
      (header r.origin ≠ [] ∧ OriginTrusted lib settings r ∨
        header r.origin = [] ∧ lib.lower (header r.secFetchSite) = "same-origin".toList) := by
  have hsite : ¬(lib.lower (header r.secFetchSite) ≠ [] ∧
      lib.lower (header r.secFetchSite) ∉ ["same-origin".toList, "none".toList]) ↔
        SiteAllowed lib r := by
    rw [Ne, hl.eq_nil_iff, not_and, Decidable.not_not, ← Decidable.or_iff_not_imp_left,
      List.mem_pair]
    rfl
  unfold dispatch
  simp only [hmethod, not_true_eq_false, if_false, hcookie, Bool.not_true, Bool.false_eq_true]
  by_cases hallowed : SiteAllowed lib r
  · rw [if_neg (hsite.mpr hallowed), and_iff_right hallowed]
    by_cases horigin : header r.origin = []
    · rw [if_neg (not_not.mpr horigin)]
      by_cases hsame : lib.lower (header r.secFetchSite) = "same-origin".toList
      · rw [if_neg (not_not.mpr hsame)]
        exact iff_of_true rfl (.inr ⟨horigin, hsame⟩)
      · rw [if_pos hsame]
        exact iff_of_false nofun fun h => h.elim (fun h => h.1 horigin) fun h => hsame h.2
    · rw [if_pos horigin]
      constructor
      · intro h
        obtain ⟨origin, hcanonical, h⟩ := Interactive.bind_eq_ok h
        obtain ⟨trusted, htrusted, h⟩ := Interactive.bind_eq_ok h
        cases origin with
        | none => cases h
        | some origin =>
          dsimp only at h
          by_cases hmem : origin ∈ trusted
          · exact .inl ⟨horigin, origin, trusted, hcanonical, htrusted, hmem⟩
          · rw [if_neg hmem] at h
            cases h
      · rintro (⟨-, origin, trusted, hcanonical, htrusted, hmem⟩ | ⟨hempty, -⟩)
        · rw [hcanonical, htrusted]
          exact if_pos hmem
        · exact absurd hempty horigin
  · rw [if_pos (not_not.mp fun h => hallowed (hsite.mp h))]
    exact iff_of_false nofun fun h => hallowed h.1

/-- A handshake is let through, and a write that the cookie authenticates and that states an
origin, exactly when the origin has the scheme, the host and the port of a trusted value; a write
without an origin only from the site itself. -/
theorem origins_trusted (lib : Library) (settings : Settings) (r : Request) (hl : Lowers lib) :
    (websocketOriginAllowed lib settings r = .ok true ↔ FromTrusted lib settings r) ∧
    (r.method ∈ unsafeMethods → usesCookie lib settings r = true →
      (dispatch lib settings r = .ok .callNext ↔ SiteAllowed lib r ∧
        (header r.origin ≠ [] ∧ FromTrusted lib settings r ∨
          header r.origin = [] ∧ lib.lower (header r.secFetchSite) = "same-origin".toList))) := by
  refine ⟨websocketOriginAllowed_iff.trans (originTrusted_iff hl), fun hmethod hcookie => ?_⟩
  rw [dispatch_iff hl hmethod hcookie, originTrusted_iff hl]

namespace Fixture

open ProxmoxUrl.Fixture (lowers_lib)

/-- A write of the site itself, whose origin states the standard port. -/
def writeOfSite : Request :=
  { write (headerValue "same-origin".toList) with
    origin := headerValue "https://Lab.Example:443".toList }

/-- A write of the site itself passes, and so does its handshake. -/
theorem origins_trusted_writeOfSite :
    websocketOriginAllowed Fixture.lib {} writeOfSite = .ok true ∧
      dispatch Fixture.lib {} writeOfSite = .ok .callNext := by
  have hplace : FromTrusted Fixture.lib {} writeOfSite := by
    refine ⟨?_, requestValue Fixture.lib writeOfSite, ?_,
      ("https".toList, "lab.example".toList, 443), by rfl, by rfl⟩
    · intro value hvalue
      have hempty : value = [] := List.mem_singleton.mp hvalue
      rw [hempty]
      exact ⟨none, rfl⟩
    · exact List.mem_singleton.mpr rfl
  have htrusted := origins_trusted Fixture.lib {} writeOfSite lowers_lib
  refine ⟨htrusted.1.mpr hplace, (htrusted.2 (by decide) (by decide)).mpr ⟨.inr (.inl ?_), .inl ?_⟩⟩
  · rfl
  · exact ⟨by decide, hplace⟩

end Fixture

end LabGoblin.Csrf
