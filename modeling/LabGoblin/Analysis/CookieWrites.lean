import LabGoblin.Computation.Outcome
import LabGoblin.Model.Csrf

/-!
# Writes with the cookie

The middleware looks for the word of a bearer token at the front of the header, and the
dependency splits the header at its first blank. They see a bearer token in the same headers, so
a write that is authenticated by the cookie has passed the checks of the middleware.
-/

set_option autoImplicit false

namespace LabGoblin.Csrf

/-- `str.lower` on a character of Latin-1. -/
def latin1Lower (c : Char) : Char :=
  if (0x41 ≤ c.toNat && c.toNat ≤ 0x5a) || (0xc0 ≤ c.toNat && c.toNat ≤ 0xde && c.toNat ≠ 0xd7)
  then Char.ofNat (c.toNat + 32) else c

/-- `str.lower` changes text in Latin-1 character by character. -/
def LowersLatin1 (lib : Library) : Prop :=
  ∀ s : Text, (∀ c ∈ s, c.toNat < 256) → lib.lower s = s.map latin1Lower

/-- The request lets a browser say where it comes from: nowhere, from the site itself, or from
the user. -/
def SiteAllowed (lib : Library) (r : Request) : Prop :=
  header r.secFetchSite = [] ∨ lib.lower (header r.secFetchSite) = "same-origin".toList ∨
    lib.lower (header r.secFetchSite) = "none".toList

/-- The canonical form of the `Origin` is trusted. -/
def OriginTrusted (lib : Library) (settings : Settings) (r : Request) : Prop :=
  ∃ origin trusted, canonicalOrigin lib (header r.origin) = .ok (some origin) ∧
    trustedOrigins lib settings (header r.host) (r.xForwardedProto.map HeaderValue.text) r.scheme =
      .ok trusted ∧ origin ∈ trusted

section Bearer

variable {lib : Library} {settings : Settings} {r : Request}

/-- In Latin-1 only a space becomes a space in lower case. -/
theorem latin1Lower_eq_space {c : Char} : latin1Lower c = ' ' ↔ c = ' ' := by
  unfold latin1Lower
  by_cases h : ((0x41 ≤ c.toNat && c.toNat ≤ 0x5a) ||
      (0xc0 ≤ c.toNat && c.toNat ≤ 0xde && c.toNat ≠ 0xd7)) = true
  · rw [if_pos h]
    simp only [Bool.or_eq_true, Bool.and_eq_true, decide_eq_true_eq] at h
    have hvalid : (c.toNat + 32).isValidChar := Or.inl (by omega)
    have htoNat : (Char.ofNat (c.toNat + 32)).toNat = c.toNat + 32 := by
      rw [Char.ofNat, dif_pos hvalid]
      rfl
    constructor
    · intro heq
      rw [heq] at htoNat
      have hspace : (' ' : Char).toNat = 32 := rfl
      omega
    · rintro rfl
      have hspace : (' ' : Char).toNat = 32 := rfl
      omega
  · rw [if_neg h]

/-- A word and a separator are at the front exactly when the word is all before the first
separator. -/
theorem prefix_iff_of_not_mem {separator : Char} {word before after : Text}
    (hword : separator ∉ word) (hbefore : separator ∉ before) :
    (word ++ [separator]).isPrefixOf (before ++ separator :: after) = true ↔ before = word := by
  induction word generalizing before with
  | nil =>
    cases before with
    | nil => simp
    | cons c before =>
      rw [List.mem_cons, not_or] at hbefore
      simp [List.isPrefixOf, hbefore.1]
  | cons d word ih =>
    rw [List.mem_cons, not_or] at hword
    cases before with
    | nil => simp [List.isPrefixOf, Ne.symm hword.1]
    | cons c before =>
      rw [List.mem_cons, not_or] at hbefore
      simp only [List.cons_append, List.isPrefixOf, Bool.and_eq_true, beq_iff_eq,
        List.cons.injEq, ih hword.2 hbefore.2]
      exact and_congr_left fun _ => eq_comm

/-- A word with the separator behind it does not start a text without the separator. -/
theorem prefix_of_not_mem {separator : Char} {word s : Text} (h : separator ∉ s) :
    (word ++ [separator]).isPrefixOf s = false := by
  rw [Bool.eq_false_iff]
  intro hprefix
  have hsub := (List.isPrefixOf_iff_prefix.mp hprefix).subset
  exact h (hsub (List.mem_append_right _ List.mem_cons_self))

/-- A text without a space has none in lower case. -/
theorem not_mem_map_latin1Lower {s : Text} (h : ' ' ∉ s) : ' ' ∉ s.map latin1Lower := by
  intro hmem
  obtain ⟨c, hc, hlower⟩ := List.mem_map.mp hmem
  exact h (latin1Lower_eq_space.mp hlower ▸ hc)

/-- The characters of a header are Latin-1. -/
theorem latin1_header (value : Option HeaderValue) : ∀ c ∈ header value, c.toNat < 256 := by
  cases value with
  | none => exact nofun
  | some value => exact value.latin1

/-- No blank ends a header. -/
theorem header_ne_blank {value : Option HeaderValue} {before : Text} :
    header value ≠ before ++ [' '] := by
  intro heq
  cases value with
  | none => simp [header] at heq
  | some value =>
    have htrimmed := value.trimmedRight
    have htext : value.text = before ++ [' '] := heq
    rw [htext] at htrimmed
    simp [blank] at htrimmed

/-- The middleware and the dependency see a bearer token in the same headers. -/
theorem bearer_iff (hlower : LowersLatin1 lib) :
    "bearer ".toList.isPrefixOf (lib.lower (header r.authorization)) = true ↔
      ∃ token, oauth2Scheme lib r = some token ∧ token ≠ [] := by
  have hword : "bearer ".toList = "bearer".toList ++ [' '] := by decide
  have hblank : ' ' ∉ "bearer".toList := by decide
  rw [hlower _ (latin1_header _), hword]
  simp only [oauth2Scheme]
  by_cases hmem : ' ' ∈ header r.authorization
  · obtain ⟨before, after, hsplit, hbefore⟩ := List.eq_append_cons_of_mem hmem
    have hlatin1 : ∀ c ∈ before, c.toNat < 256 := by
      intro c hc
      refine latin1_header r.authorization c ?_
      rw [hsplit]
      exact List.mem_append_left _ hc
    have hne : header r.authorization ≠ [] := by
      rw [hsplit]
      simp
    have hafter : after ≠ [] := by
      rintro rfl
      exact header_ne_blank hsplit
    have hspace : latin1Lower ' ' = ' ' := latin1Lower_eq_space.mpr rfl
    rw [hsplit] at hne ⊢
    rw [partition_append hbefore]
    simp only [hne, false_or, hlower before hlatin1, List.map_append, List.map_cons, hspace,
      prefix_iff_of_not_mem hblank (not_mem_map_latin1Lower hbefore)]
    constructor
    · intro hbearer
      exact ⟨after, if_neg (not_not_intro hbearer), hafter⟩
    · rintro ⟨token, htoken, -⟩
      by_cases hbearer : before.map latin1Lower = "bearer".toList
      · exact hbearer
      · rw [if_pos hbearer] at htoken
        cases htoken
  · rw [partition_of_notMem hmem, prefix_of_not_mem (not_mem_map_latin1Lower hmem)]
    simp

/-- A bearer token is used exactly when the middleware sees none of the cookie. -/
theorem usesCookie_of_cookie (hlower : LowersLatin1 lib) {token : Text}
    (h : getRequestToken lib settings r = some (.cookie token)) :
    usesCookie lib settings r = true := by
  unfold getRequestToken at h
  cases hbearer : (oauth2Scheme lib r).filter (· ≠ []) with
  | some used =>
    rw [hbearer] at h
    cases h
  | none =>
    rw [hbearer] at h
    have hcookie : authCookie lib settings r ≠ [] := by
      intro hempty
      simp [hempty] at h
    have hseen : "bearer ".toList.isPrefixOf (lib.lower (header r.authorization)) = false := by
      rw [Bool.eq_false_iff]
      intro hprefix
      obtain ⟨used, hscheme, hne⟩ := (bearer_iff hlower).mp hprefix
      simp [hscheme, hne] at hbearer
    rw [usesCookie, hseen]
    simp [hcookie]

/-- A request with a bearer token does not use the cookie. -/
theorem usesCookie_of_bearer (hlower : LowersLatin1 lib) {token : Text}
    (h : getRequestToken lib settings r = some (.bearer token)) :
    usesCookie lib settings r = false := by
  unfold getRequestToken at h
  cases hbearer : (oauth2Scheme lib r).filter (· ≠ []) with
  | some used =>
    obtain ⟨hscheme, hne⟩ := Option.filter_eq_some_iff.mp hbearer
    have hseen : "bearer ".toList.isPrefixOf (lib.lower (header r.authorization)) = true :=
      (bearer_iff hlower).mpr ⟨used, hscheme, by simpa using hne⟩
    rw [usesCookie, hseen]
    simp
  | none =>
    rw [hbearer] at h
    dsimp only at h
    split at h
    · cases h
    · cases h

end Bearer

section Writes

variable {lib : Library} {settings : Settings} {r : Request}

/-- A write that the middleware checks passes only with an allowed site and a trusted origin, or
without an origin from the site itself. -/
theorem allowed_of_dispatch (hlower : LowersLatin1 lib) (hmethod : r.method ∈ unsafeMethods)
    (hcookie : usesCookie lib settings r = true)
    (h : dispatch lib settings r = .ok .callNext) :
    SiteAllowed lib r ∧
      (header r.origin ≠ [] ∧ OriginTrusted lib settings r ∨
        header r.origin = [] ∧ lib.lower (header r.secFetchSite) = "same-origin".toList) := by
  unfold dispatch at h
  simp only [hmethod, not_true_eq_false, if_false, hcookie, Bool.not_true, Bool.false_eq_true] at h
  by_cases hsite : lib.lower (header r.secFetchSite) ≠ [] ∧
      lib.lower (header r.secFetchSite) ∉ ["same-origin".toList, "none".toList]
  · rw [if_pos hsite] at h
    cases h
  rw [if_neg hsite] at h
  have hallowed : SiteAllowed lib r := by
    by_cases hempty : header r.secFetchSite = []
    · exact Or.inl hempty
    · have hne : lib.lower (header r.secFetchSite) ≠ [] := by
        rw [hlower _ (latin1_header _)]
        simpa using hempty
      have hstated := Decidable.not_not.mp (not_and.mp hsite hne)
      simpa [SiteAllowed, hempty] using hstated
  refine ⟨hallowed, ?_⟩
  by_cases horigin : header r.origin ≠ []
  · refine Or.inl ⟨horigin, ?_⟩
    rw [if_pos horigin] at h
    obtain ⟨origin, hcanonical, h⟩ := Interactive.bind_eq_ok h
    obtain ⟨trusted, htrusted, h⟩ := Interactive.bind_eq_ok h
    cases origin with
    | none => cases h
    | some origin =>
      dsimp only at h
      by_cases hmem : origin ∈ trusted
      · exact ⟨origin, trusted, hcanonical, htrusted, hmem⟩
      · rw [if_neg hmem] at h
        cases h
  · refine Or.inr ⟨Decidable.not_not.mp horigin, ?_⟩
    rw [if_neg horigin] at h
    by_cases hsame : lib.lower (header r.secFetchSite) = "same-origin".toList
    · exact hsame
    · rw [if_pos hsame] at h
      cases h

/-- A request that does not use the cookie passes. -/
theorem dispatch_of_not_usesCookie (h : usesCookie lib settings r = false) :
    dispatch lib settings r = .ok .callNext := by
  unfold dispatch
  by_cases hmethod : r.method ∈ unsafeMethods
  · simp [hmethod, h]
    rfl
  · simp [hmethod]
    rfl

end Writes

/-- Every write that the cookie authenticates has been let through by the checks of the
middleware, and a request that a bearer token authenticates is never blocked by it. -/
theorem cookie_writes_checked (lib : Library) (settings : Settings) (r : Request)
    (hlower : LowersLatin1 lib) :
    (r.method ∈ unsafeMethods → ∀ token,
      getRequestToken lib settings r = some (.cookie token) →
      dispatch lib settings r = .ok .callNext →
      SiteAllowed lib r ∧
        (header r.origin ≠ [] ∧ OriginTrusted lib settings r ∨
          header r.origin = [] ∧ lib.lower (header r.secFetchSite) = "same-origin".toList)) ∧
    ∀ token, getRequestToken lib settings r = some (.bearer token) →
      dispatch lib settings r = .ok .callNext := by
  constructor
  · intro hmethod token htoken hdispatch
    exact allowed_of_dispatch hlower hmethod (usesCookie_of_cookie hlower htoken) hdispatch
  · intro token htoken
    exact dispatch_of_not_usesCookie (usesCookie_of_bearer hlower htoken)

namespace Fixture

def lib : Library where
  lower := (·.map latin1Lower)
  nfkc := id
  cookieParser := fun text => [((partition '=' text).1, (partition '=' text).2.2)]

/-- The library of the fixture lowers Latin-1. -/
theorem lowersLatin1_lib : LowersLatin1 lib := fun _ _ => rfl

def headerValue (text : Text) (hlatin1 : text.all (·.toNat < 256) = true := by decide)
    (hleft : text.head?.all (!blank ·) = true := by decide)
    (hright : text.getLast?.all (!blank ·) = true := by decide) : Option HeaderValue :=
  some ⟨text, fun c hc => of_decide_eq_true (List.all_eq_true.mp hlatin1 c hc), hleft, hright⟩

/-- A write with the cookie, in which the browser states its site. -/
def write (fetchSite : Option HeaderValue) : Request where
  method := "POST"
  scheme := "https".toList
  authorization := none
  cookie := headerValue "labgoblin_session=abc".toList
  origin := none
  host := headerValue "lab.example".toList
  xForwardedProto := none
  secFetchSite := fetchSite

/-- The same write with a bearer token beside the cookie, and without a site. -/
def writeWithToken : Request :=
  { write none with authorization := headerValue "BEARER abc".toList }

/-- A write of the site itself passes, and so does one with a bearer token. -/
theorem cookie_writes_checked_write :
    SiteAllowed lib (write (headerValue "same-origin".toList)) ∧
      dispatch lib {} writeWithToken = .ok .callNext :=
  ⟨((cookie_writes_checked lib {} (write (headerValue "same-origin".toList)) lowersLatin1_lib).1
    (by decide) "abc".toList (by decide) rfl).1,
    (cookie_writes_checked lib {} writeWithToken lowersLatin1_lib).2 "abc".toList (by decide)⟩

/-- The middleware compares the stated site in lower case. -/
theorem not_site_literal :
    ¬ ∀ (lib : Library) (settings : Settings) (r : Request), LowersLatin1 lib →
      r.method ∈ unsafeMethods → ∀ token,
      getRequestToken lib settings r = some (.cookie token) →
      dispatch lib settings r = .ok .callNext →
      r.secFetchSite = none ∨ header r.secFetchSite = "same-origin".toList ∨
        header r.secFetchSite = "none".toList := by
  intro h
  have hsite := h lib {} (write (headerValue "Same-Origin".toList)) lowersLatin1_lib (by decide)
    "abc".toList (by decide) rfl
  revert hsite
  decide

end Fixture

end LabGoblin.Csrf
