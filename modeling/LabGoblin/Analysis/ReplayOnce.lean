import LabGoblin.Computation.Expiry
import LabGoblin.Computation.Outcome
import LabGoblin.Model.Replay
import Mathlib.Tactic.Linarith

/-!
# A reconnect token works once

Both replay stores are registers that forget: the store in memory drops an entry when the second
of its expiry is over, Redis when its time to live is. For the uses of a token that has not
expired neither forgets too early, so both decide as the register that never forgets.
-/

set_option autoImplicit false

namespace LabGoblin.Reconnect

open Interactive

/-! ## The stores as registers -/

/-- One use of a store: its instant, the token id and the expiry of the token. -/
abbrev TokenUse := ℕ × String × ℤ

/-- The token has not expired. -/
def Unexpired (u : TokenUse) : Prop := (u.1 : ℤ) < u.2.2 * second

/-- Two uses, the second not before the first, and one expiry for one token id. -/
def InOrder (u v : TokenUse) : Prop := u.1 ≤ v.1 ∧ (u.2.1 = v.2.1 → u.2.2 = v.2.2)

/-- `_used_until` keeps an entry through the second of its expiry. -/
def inMemoryLive (now : ℕ) (exp : ℤ) : Bool := nowTs now ≤ exp

/-- A key of Redis is there until its time to live is over. -/
def redisLive (now : ℕ) (goneAt : ℤ) : Bool := (now : ℤ) < goneAt

def inMemoryUse (u : TokenUse) : Register.Use ℕ String ℤ := ⟨u.1, u.2.1, u.2.2⟩

def redisUse (u : TokenUse) : Register.Use ℕ String ℤ :=
  ⟨u.1, replayKey u.2.1, u.1 + max 1 (u.2.2 - nowTs u.1) * second⟩

/-- The store in memory answers as a register that forgets at the end of the second. -/
theorem inMemory_answers (us : List TokenUse) (used : UsedUntil) :
    inMemoryReplayStore.answers us used =
      Register.answers inMemoryLive (us.map inMemoryUse) used := by
  induction us generalizing used with
  | nil => rfl
  | cons u us ih =>
    have hstep : inMemoryReplayStore.markUsed u.1 u.2.1 u.2.2 used =
        Register.use inMemoryLive (inMemoryUse u) used := rfl
    simp only [ReplayStore.answers, List.map_cons, Register.answers, hstep, ih]

/-- Redis answers as a register that forgets at the end of the time to live. -/
theorem redis_answers (us : List TokenUse) (keys : Keys) :
    redisReplayStore.answers us keys =
      Register.answers redisLive (us.map redisUse) keys := by
  induction us generalizing keys with
  | nil => rfl
  | cons u us ih =>
    have hstep : redisReplayStore.markUsed u.1 u.2.1 u.2.2 keys =
        Register.use redisLive (redisUse u) keys := rfl
    simp only [ReplayStore.answers, List.map_cons, Register.answers, hstep, ih]

/-- Different tokens have different keys. -/
theorem replayKey_injective : Function.Injective replayKey := by
  intro a b h
  have hlist := congrArg String.toList h
  have htoList : a.toList = b.toList := by
    simp only [replayKey, String.toList_append, List.append_cancel_left_eq] at hlist
    exact hlist
  exact String.toList_inj.mp htoList

/-! ## Neither forgets too early -/

/-- The second of an instant does not go back. -/
theorem nowTs_mono {now later : ℕ} (h : now ≤ later) : nowTs now ≤ nowTs later := by
  have hdiv := Nat.div_le_div_right (c := second) h
  exact Int.ofNat_le.mpr hdiv

/-- The whole seconds of an instant are not more than it, and less than a second short of it. -/
theorem nowTs_bounds (now : ℕ) :
    nowTs now * second ≤ now ∧ (now : ℤ) < (nowTs now + 1) * second := by
  unfold nowTs second
  omega

/-- In memory a later use of an unexpired token finds the entry of the earlier one. -/
theorem inMemory_covered {u v : TokenUse} (hv : Unexpired v) (h : InOrder u v) :
    Register.Covered inMemoryLive (inMemoryUse u) (inMemoryUse v) := by
  obtain ⟨htime, hexp⟩ := h
  have hts := nowTs_mono htime
  refine ⟨fun limit hlive => ?_, fun hkey => ?_⟩
  · have hle : nowTs v.1 ≤ limit := of_decide_eq_true hlive
    exact decide_eq_true (hts.trans hle)
  · have heq := hexp hkey
    have hbound := (nowTs_bounds v.1).1
    have hlt : nowTs v.1 * second < v.2.2 * second := lt_of_le_of_lt hbound hv
    have hle : nowTs v.1 ≤ u.2.2 := by
      rw [heq]
      unfold second at hlt
      omega
    exact decide_eq_true hle

/-- In Redis a later use of an unexpired token finds the key of the earlier one. -/
theorem redis_covered {u v : TokenUse} (hv : Unexpired v) (h : InOrder u v) :
    Register.Covered redisLive (redisUse u) (redisUse v) := by
  obtain ⟨htime, hexp⟩ := h
  refine ⟨fun limit hlive => ?_, fun hkey => ?_⟩
  · have hlt : (v.1 : ℤ) < limit := of_decide_eq_true hlive
    have hle : (u.1 : ℤ) ≤ v.1 := Int.ofNat_le.mpr htime
    exact decide_eq_true (lt_of_le_of_lt hle hlt)
  · have heq := hexp (replayKey_injective hkey)
    have hbound := (nowTs_bounds u.1).1
    have hlt : (v.1 : ℤ) < u.2.2 * second := by
      rw [heq]
      exact hv
    have hgone : (v.1 : ℤ) < u.1 + max 1 (u.2.2 - nowTs u.1) * second := by
      unfold second at hbound hlt ⊢
      omega
    exact decide_eq_true hgone

/-- On the uses of tokens that have not expired both stores decide as the register that
never forgets. -/
theorem answers_eq_once {us : List TokenUse} (horder : us.Pairwise InOrder)
    (hunexpired : ∀ u ∈ us, Unexpired u) :
    inMemoryReplayStore.answers us [] = Register.once (us.map fun u => u.2.1) [] ∧
      redisReplayStore.answers us [] = Register.once (us.map fun u => u.2.1) [] := by
  constructor
  · have hcovered : (us.map inMemoryUse).Pairwise (Register.Covered inMemoryLive) := by
      rw [List.pairwise_map]
      refine horder.imp_of_mem ?_
      intro u v _ hv h
      exact inMemory_covered (hunexpired v hv) h
    rw [inMemory_answers, Register.answers_nil hcovered, List.map_map]
    rfl
  · have hcovered : (us.map redisUse).Pairwise (Register.Covered redisLive) := by
      rw [List.pairwise_map]
      refine horder.imp_of_mem ?_
      intro u v _ hv h
      exact redis_covered (hunexpired v hv) h
    have hkeys := Register.once_map replayKey_injective (us.map fun u => u.2.1) []
    rw [redis_answers, Register.answers_nil hcovered, ← hkeys, List.map_map, List.map_map]
    rfl

/-! ## The calls of `verify_reconnect` -/

/-- What the libraries behind `verify_reconnect` are documented to do: only a token that was
encoded with the secret decodes, and no other kind of token with that secret has a session in
it; a token is rejected from the instant of its expiry on; `uuid4` does not repeat. -/
structure Verifier.Documented (v : Verifier) (created : Created → Prop) : Prop where
  signed : ∀ token now payload, v.jwt.decode token v.secret now = .ok payload →
    (∃ c, created c ∧ payload = c.payload) ∨ payload.lookup "sid" = none
  expires : ∀ token now payload exp, v.jwt.decode token v.secret now = .ok payload →
    payload.lookup "exp" = some (.int exp) → (now : ℤ) < exp * second
  fresh : ∀ c d, created c → created d → c.uuid = d.uuid → c = d

/-- The uses of the replay store that a sequence of calls makes. -/
def Verifier.uses (v : Verifier) : List Presented → List TokenUse
  | [] => []
  | c :: cs =>
    match v.checked c with
    | .error _ => v.uses cs
    | .ok (tokenId, expiresAt) => (c.now, tokenId, expiresAt) :: v.uses cs

/-- The ids of the tokens that a sequence of calls accepted, in order. -/
def Verifier.accepted (v : Verifier) : List Presented → List Bool → List String
  | c :: cs, answer :: answers =>
    match v.checked c, answer with
    | .ok (tokenId, _), true => tokenId :: v.accepted cs answers
    | _, _ => v.accepted cs answers
  | _, _ => []

variable {v : Verifier} {created : Created → Prop}

/-- What a call is answered, where the checks before the store refuse it or the store decides. -/
def Verifier.merge (v : Verifier) : List Presented → List Bool → List Bool
  | [], _ => []
  | c :: cs, decided =>
    match v.checked c with
    | .error _ => false :: v.merge cs decided
    | .ok _ => decided.headD false :: v.merge cs decided.tail

/-- The store decides on the calls that pass the checks, one after the other. -/
theorem run_eq_merge {σ : Type} (store : ReplayStore σ) (cs : List Presented) (used : σ) :
    v.run store cs used = v.merge cs (store.answers (v.uses cs) used) := by
  induction cs generalizing used with
  | nil => rfl
  | cons c cs ih =>
    cases h : v.checked c with
    | error e =>
      simp only [Verifier.run, Verifier.verifyReconnect, Verifier.merge, Verifier.uses, h, ih]
    | ok use =>
      simp only [Verifier.run, Verifier.verifyReconnect, Verifier.merge, Verifier.uses, h, ih,
        ReplayStore.answers, List.headD_cons, List.tail_cons]

/-- The accepted tokens are those that the store admits. -/
theorem accepted_merge (cs : List Presented) {decided : List Bool}
    (hlength : decided.length = (v.uses cs).length) :
    v.accepted cs (v.merge cs decided) =
      Register.admitted ((v.uses cs).map fun u => u.2.1) decided := by
  induction cs generalizing decided with
  | nil => rfl
  | cons c cs ih =>
    cases h : v.checked c with
    | error e =>
      simp only [Verifier.uses, h] at hlength
      simp only [Verifier.merge, Verifier.accepted, Verifier.uses, h, ih hlength]
    | ok use =>
      simp only [Verifier.uses, h, List.length_cons] at hlength
      cases decided with
      | nil => cases hlength
      | cons b bs =>
        have hrest : bs.length = (v.uses cs).length := Nat.succ.inj hlength
        simp only [Verifier.merge, Verifier.accepted, Verifier.uses, h, List.headD_cons,
          List.tail_cons, List.map_cons, ih hrest]
        cases b with
        | false => rfl
        | true => rfl

/-- What passes the checks is the payload of a token that has the id and the expiry. -/
theorem eq_of_verifyReconnectToken {jwt : Jwt} {now : ℕ} {token secret protocol : String}
    {sessionId userId : ℤ} {payload : Dict}
    (h : verifyReconnectToken jwt now token secret sessionId userId protocol = .ok payload) :
    jwt.decode token secret now = .ok payload ∧
      (Dict.get payload "sid").same (.int sessionId) = true := by
  unfold verifyReconnectToken at h
  obtain ⟨decoded, hdecode, hchecks⟩ := bind_eq_ok h
  have hdecoded := mapError_eq_ok hdecode
  dsimp only at hchecks
  cases hsid : (Dict.get decoded "sid").same (.int sessionId) with
  | false =>
    rw [hsid] at hchecks
    cases hchecks
  | true =>
    rw [hsid] at hchecks
    cases huid : (Dict.get decoded "uid").same (.int userId) with
    | false =>
      rw [huid] at hchecks
      cases hchecks
    | true =>
      rw [huid] at hchecks
      cases hproto : (Dict.get decoded "proto").same (.text protocol) with
      | false =>
        rw [hproto] at hchecks
        cases hchecks
      | true =>
        rw [hproto] at hchecks
        cases hjti : (Dict.get decoded "jti").truthy with
        | false =>
          rw [hjti] at hchecks
          cases hchecks
        | true =>
          rw [hjti] at hchecks
          cases hchecks
          exact ⟨hdecoded, hsid⟩

/-- What the checks pass was encoded by `create_reconnect_token` and has not expired. -/
theorem Verifier.Documented.of_checked (h : v.Documented created) {c : Presented}
    {tokenId : String} {expiresAt : ℤ} (hc : v.checked c = .ok (tokenId, expiresAt)) :
    ∃ k, created k ∧ tokenId = k.uuid ∧ expiresAt = k.exp ∧
      (c.now : ℤ) < expiresAt * second := by
  obtain ⟨payload, hverified, huse⟩ := bind_eq_ok hc
  obtain ⟨hdecode, hsid⟩ := eq_of_verifyReconnectToken hverified
  rcases h.signed _ _ _ hdecode with ⟨k, hk, rfl⟩ | hnone
  · have hjti : item k.payload "jti" = .ok (.text k.uuid) := rfl
    have hexp : item k.payload "exp" = .ok (.int k.exp) := rfl
    unfold tokenUse at huse
    rw [hjti, hexp] at huse
    cases huse
    exact ⟨k, hk, rfl, rfl, h.expires _ _ _ _ hdecode rfl⟩
  · have hnull : Dict.get payload "sid" = .null := by
      simp [Dict.get, hnone]
    rw [hnull] at hsid
    cases hsid

/-- Every use of the store is made by a call that passed the checks. -/
theorem mem_uses {cs : List Presented} {u : TokenUse} (hu : u ∈ v.uses cs) :
    ∃ c ∈ cs, v.checked c = .ok u.2 ∧ c.now = u.1 := by
  induction cs with
  | nil => cases hu
  | cons c cs ih =>
    cases h : v.checked c with
    | error e =>
      simp only [Verifier.uses, h] at hu
      obtain ⟨d, hd, hchecked⟩ := ih hu
      exact ⟨d, List.mem_cons_of_mem c hd, hchecked⟩
    | ok use =>
      simp only [Verifier.uses, h] at hu
      rcases List.mem_cons.mp hu with rfl | hu
      · exact ⟨c, List.mem_cons_self, h, rfl⟩
      · obtain ⟨d, hd, hchecked⟩ := ih hu
        exact ⟨d, List.mem_cons_of_mem c hd, hchecked⟩

/-- Two calls of which the second is not before the first use the store in order. -/
theorem Verifier.Documented.inOrder (h : v.Documented created) {c d : Presented}
    {use use' : String × ℤ} (hc : v.checked c = .ok use) (hd : v.checked d = .ok use')
    (htime : c.now ≤ d.now) : InOrder (c.now, use) (d.now, use') := by
  obtain ⟨k, hk, hid, hexp, -⟩ := h.of_checked hc
  obtain ⟨k', hk', hid', hexp', -⟩ := h.of_checked hd
  refine ⟨htime, fun hsame => ?_⟩
  have huuid : k.uuid = k'.uuid := hid.symm.trans (hsame.trans hid')
  have heq := h.fresh k k' hk hk' huuid
  exact hexp.trans (heq ▸ hexp'.symm)

/-- The uses that a sequence of calls makes are of tokens that have not expired, in order. -/
theorem Verifier.Documented.uses_ok (h : v.Documented created) {cs : List Presented}
    (horder : cs.Pairwise fun c d => c.now ≤ d.now) :
    (v.uses cs).Pairwise InOrder ∧ ∀ u ∈ v.uses cs, Unexpired u := by
  constructor
  · induction cs with
    | nil => exact List.Pairwise.nil
    | cons c cs ih =>
      obtain ⟨hfirst, hrest⟩ := List.pairwise_cons.mp horder
      cases hc : v.checked c with
      | error e =>
        simp only [Verifier.uses, hc]
        exact ih hrest
      | ok use =>
        simp only [Verifier.uses, hc]
        rw [List.pairwise_cons]
        refine ⟨fun u hu => ?_, ih hrest⟩
        obtain ⟨d, hd, hchecked, hnow⟩ := mem_uses hu
        have hinOrder := h.inOrder hc hchecked (hfirst d hd)
        rw [hnow] at hinOrder
        exact hinOrder
  · intro u hu
    obtain ⟨c, -, hchecked, hnow⟩ := mem_uses hu
    obtain ⟨k, -, -, -, hbefore⟩ := h.of_checked hchecked
    rw [hnow] at hbefore
    exact hbefore

/-- The ids that a store accepts on a sequence of calls are those it admits. -/
theorem accepted_nodup {σ : Type} (store : ReplayStore σ) {cs : List Presented} {used : σ}
    (honce : store.answers (v.uses cs) used =
      Register.once ((v.uses cs).map fun u => u.2.1) []) :
    (v.accepted cs (v.run store cs used)).Nodup := by
  have hlength : (store.answers (v.uses cs) used).length = (v.uses cs).length := by
    rw [honce, Register.once_length, List.length_map]
  rw [run_eq_merge, accepted_merge cs hlength, honce]
  exact (Register.once_admitted _ _).1

/-- A reconnect token works at most once, whatever the store, and the stores agree: on every
sequence of calls of `verify_reconnect`, and of uses of unexpired tokens. -/
theorem verifyReconnect_once (v : Verifier) (created : Created → Prop)
    (h : v.Documented created) (cs : List Presented)
    (horder : cs.Pairwise fun c d => c.now ≤ d.now) :
    (v.accepted cs (v.run inMemoryReplayStore cs [])).Nodup ∧
    (v.accepted cs (v.run redisReplayStore cs [])).Nodup ∧
    v.run inMemoryReplayStore cs [] = v.run redisReplayStore cs [] ∧
    ∀ us : List TokenUse, us.Pairwise InOrder → (∀ u ∈ us, Unexpired u) →
      inMemoryReplayStore.answers us [] = redisReplayStore.answers us [] := by
  obtain ⟨hinOrder, hunexpired⟩ := h.uses_ok horder
  obtain ⟨hmemory, hredis⟩ := answers_eq_once hinOrder hunexpired
  refine ⟨accepted_nodup _ hmemory, accepted_nodup _ hredis, ?_, ?_⟩
  · rw [run_eq_merge, run_eq_merge, hmemory, hredis]
  · intro us hus hall
    obtain ⟨hmemory', hredis'⟩ := answers_eq_once hus hall
    rw [hmemory', hredis']

/-! ## One more call -/

/-- What a sequence of calls leaves in the store. -/
def Verifier.leaves {σ : Type} (v : Verifier) (store : ReplayStore σ) : List Presented → σ → σ
  | [], used => used
  | c :: cs, used => v.leaves store cs (v.verifyReconnect store c used).2

/-- Two sequences of calls leave what the second leaves after the first. -/
theorem leaves_append {σ : Type} (store : ReplayStore σ) (cs ds : List Presented) (used : σ) :
    v.leaves store (cs ++ ds) used = v.leaves store ds (v.leaves store cs used) := by
  induction cs generalizing used with
  | nil => rfl
  | cons c cs ih => exact ih _

/-- A last call is answered from what the calls before it left. -/
theorem run_concat {σ : Type} (store : ReplayStore σ) (cs : List Presented) (c : Presented)
    (used : σ) :
    v.run store (cs ++ [c]) used =
      v.run store cs used ++ [(v.verifyReconnect store c (v.leaves store cs used)).1] := by
  induction cs generalizing used with
  | nil => rfl
  | cons d cs ih => exact congrArg _ (ih _)

/-- A last call adds its token when it is accepted. -/
theorem accepted_concat (cs : List Presented) (c : Presented) {bs : List Bool} {b : Bool}
    (hlength : bs.length = cs.length) :
    v.accepted (cs ++ [c]) (bs ++ [b]) = v.accepted cs bs ++ v.accepted [c] [b] := by
  induction cs generalizing bs with
  | nil =>
    rw [List.eq_nil_of_length_eq_zero hlength]
    rfl
  | cons d cs ih =>
    cases bs with
    | nil => cases hlength
    | cons b' bs =>
      have hrest := ih (Nat.succ.inj hlength)
      cases hd : v.checked d with
      | error e => simp [Verifier.accepted, hd, hrest]
      | ok use =>
        cases b' with
        | false => simp [Verifier.accepted, hd, hrest]
        | true => simp [Verifier.accepted, hd, hrest]

/-- Every call is answered. -/
theorem run_length {σ : Type} (store : ReplayStore σ) (cs : List Presented) (used : σ) :
    (v.run store cs used).length = cs.length := by
  induction cs generalizing used with
  | nil => rfl
  | cons c cs ih => exact congrArg Nat.succ (ih _)

/-- A call that is accepted after others presents a token that they did not use up. -/
theorem notMem_accepted {σ : Type} {store : ReplayStore σ} {cs : List Presented} {c : Presented}
    {used : σ}
    (hnodup : (v.accepted (cs ++ [c]) (v.run store (cs ++ [c]) used)).Nodup)
    (hc : (v.verifyReconnect store c (v.leaves store cs used)).1 = true) :
    ∃ tokenId expiresAt, v.checked c = .ok (tokenId, expiresAt) ∧
      tokenId ∉ v.accepted cs (v.run store cs used) := by
  cases hchecked : v.checked c with
  | error e =>
    rw [Verifier.verifyReconnect, hchecked] at hc
    cases hc
  | ok use =>
    obtain ⟨tokenId, expiresAt⟩ := use
    have hlast : v.accepted [c] [true] = [tokenId] := by
      simp [Verifier.accepted, hchecked]
    rw [run_concat, hc, accepted_concat cs c (run_length store cs used), hlast] at hnodup
    have hdisjoint := (List.nodup_append.mp hnodup).2.2
    refine ⟨tokenId, expiresAt, rfl, fun hmem => ?_⟩
    exact hdisjoint tokenId hmem tokenId List.mem_cons_self rfl

/-- Whatever the store of a deployment is, a token works at most once. -/
theorem accepted_nodup_of_build (backend : ReplayBackend) (h : v.Documented created)
    {cs : List Presented} (horder : cs.Pairwise fun c d => c.now ≤ d.now) :
    (v.accepted cs (v.run (buildReplayStore backend) cs backend.empty)).Nodup := by
  obtain ⟨hinOrder, hunexpired⟩ := h.uses_ok horder
  obtain ⟨hmemory, hredis⟩ := answers_eq_once hinOrder hunexpired
  cases backend with
  | memory => exact accepted_nodup _ hmemory
  | redis => exact accepted_nodup _ hredis

/-! ### A token in its last second -/

namespace Sample

def token : Created where
  now := 0
  sessionId := 7
  userId := 3
  protocol := "ssh"
  ttlSeconds := 300
  uuid := "f81d4fae"

def verifier : Verifier where
  jwt :=
    { decode := fun text secret now =>
        if text = "token" ∧ secret = "secret" ∧ (now : ℤ) < token.exp * second then
          .ok token.payload
        else .error "Signature has expired" }
  secret := "secret"
  repr := fun _ => "?"

/-- The verifier of the fixture does what the libraries are documented to do. -/
theorem verifier_documented : verifier.Documented (· = token) where
  signed := by
    intro text now payload h
    dsimp only [verifier] at h
    split at h
    · cases h
      exact .inl ⟨token, rfl, rfl⟩
    · cases h
  expires := by
    intro text now payload exp h hexp
    dsimp only [verifier] at h
    split at h
    · rename_i hif
      cases h
      cases hexp
      exact hif.2.2
    · cases h
  fresh := by
    rintro c d rfl rfl -
    rfl

def presented (now : ℕ) : Presented := ⟨now, "token", 7, 3, "ssh"⟩

def calls : List Presented := [presented 299500000, presented 299900000, presented 300000000]

example : verifier.run inMemoryReplayStore calls [] = [true, false, false] := by decide

/-- In the last second of a token both stores accept it once. -/
theorem verifyReconnect_once_lastSecond :
    (verifier.accepted calls (verifier.run inMemoryReplayStore calls [])).Nodup ∧
    (verifier.accepted calls (verifier.run redisReplayStore calls [])).Nodup ∧
    verifier.run inMemoryReplayStore calls [] = verifier.run redisReplayStore calls [] ∧
    ∀ us : List TokenUse, us.Pairwise InOrder → (∀ u ∈ us, Unexpired u) →
      inMemoryReplayStore.answers us [] = redisReplayStore.answers us [] :=
  verifyReconnect_once verifier (· = token) verifier_documented calls (by decide)

end Sample

end LabGoblin.Reconnect
