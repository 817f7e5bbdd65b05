import LabGoblin.Analysis.SessionRows
import LabGoblin.Model.Tunnels
import Mathlib.Data.List.Perm.Subperm

/-!
# The limit on tunnels

`connect` counts the live sessions of its user before it awaits anything and creates its own
session afterwards. Its check leaves room for one more, so the limit holds as long as no tunnel is
missed: the session of every tunnel that is open when a session is created was among those counted.
-/

set_option autoImplicit false

namespace LabGoblin.Tunnels

open Sessions (VMSession NewSession)

/-- The call has missed no open tunnel: their sessions are among those that it counted. -/
def Connects.MissesNone (c : Connects) (call : ℕ) : Prop :=
  ∀ counted, c.counted.lookup call = some counted → ∀ tunnel ∈ c.tunnels, tunnel.2 ∈ counted

/-- No session is created by a call that has missed a tunnel. -/
def NeverMisses (userId : ℕ) (c : Connects) (actions : List Action) : Prop :=
  ∀ before call new now after u, actions = before ++ .create call new now :: after →
    c.run userId before = some u → u.MissesNone call

/-- The sessions of the tunnels are distinct and have been created, and the calls that have counted
were let through. -/
structure Connects.Valid (c : Connects) : Prop where
  distinct : (c.tunnels.map Prod.snd).Nodup
  created : ∀ tunnel ∈ c.tunnels, tunnel.2 < c.sessions.next
  passed : ∀ entry ∈ c.counted, entry.2.length < maxTunnels

section Limit

variable {c c' : Connects} {userId : ℕ}

/-- Where no tunnel was missed there are no more tunnels than were counted. -/
theorem length_tunnels_le (h : c.Valid) {counted : List ℕ}
    (hnone : ∀ tunnel ∈ c.tunnels, tunnel.2 ∈ counted) : c.tunnels.length ≤ counted.length := by
  have hsubset : c.tunnels.map Prod.snd ⊆ counted := by
    intro id hid
    obtain ⟨tunnel, htunnel, rfl⟩ := List.mem_map.mp hid
    exact hnone tunnel htunnel
  have hcounted := (h.distinct.subperm hsubset).length_le
  rwa [List.length_map] at hcounted

/-- Updates create no session. -/
theorem next_applyWrites (sessions : Interactive.Table VMSession VMSession.id)
    (writes : List Sessions.Write) :
    (Sessions.applyWrites sessions writes).next = sessions.next := by
  induction writes generalizing sessions with
  | nil => rfl
  | cons w writes ih =>
    rw [Sessions.applyWrites, ih, Interactive.Table.next_update]

/-- Another session leaves the tunnels as they are. -/
theorem valid_add {new : NewSession} {now : ℕ} (h : c.Valid) : (c.add new now).Valid := by
  refine ⟨h.distinct, fun tunnel htunnel => ?_, h.passed⟩
  have hlt := h.created tunnel htunnel
  show tunnel.2 < c.sessions.next + 1
  omega

/-- A new tunnel gets a session of its own. -/
theorem valid_create {new : NewSession} {now call : ℕ} {p : ℕ × List ℕ → Bool} (h : c.Valid) :
    Connects.Valid
      { c.add new now with
        counted := c.counted.filter p
        tunnels := (call, c.sessions.next) :: c.tunnels } := by
  refine ⟨?_, ?_, fun entry hentry => h.passed entry (List.mem_filter.mp hentry).1⟩
  · rw [List.map_cons, List.nodup_cons]
    refine ⟨fun hmem => ?_, h.distinct⟩
    obtain ⟨tunnel, htunnel, hid⟩ := List.mem_map.mp hmem
    have hlt := h.created tunnel htunnel
    omega
  · intro tunnel htunnel
    show tunnel.2 < c.sessions.next + 1
    rcases List.mem_cons.mp htunnel with rfl | hbefore
    · exact Nat.lt_succ_self _
    · have hlt := h.created tunnel hbefore
      omega

/-- Updates of sessions leave the tunnels as they are. -/
theorem valid_applyWrites (h : c.Valid) (writes : List Sessions.Write) :
    Connects.Valid { c with sessions := Sessions.applyWrites c.sessions writes } := by
  refine ⟨h.distinct, fun tunnel htunnel => ?_, h.passed⟩
  rw [next_applyWrites]
  exact h.created tunnel htunnel

/-- Some of the tunnels are as distinct as all of them. -/
theorem valid_filter (h : c.Valid) (p : ℕ × ℕ → Bool) :
    Connects.Valid { c with tunnels := c.tunnels.filter p } :=
  ⟨h.distinct.sublist (List.filter_sublist.map Prod.snd),
    fun tunnel htunnel => h.created tunnel (List.mem_filter.mp htunnel).1, h.passed⟩

/-- A call that is let through has counted fewer sessions than the limit. -/
theorem valid_count {call : ℕ} (h : c.Valid) (hpass : ¬ (c.liveIds userId).length ≥ maxTunnels) :
    Connects.Valid { c with counted := (call, c.liveIds userId) :: c.counted } := by
  refine ⟨h.distinct, h.created, fun entry hentry => ?_⟩
  rcases List.mem_cons.mp hentry with rfl | hbefore
  · exact Nat.lt_of_not_le hpass
  · exact h.passed entry hbefore

/-- A step keeps the limit when no session is created by a call that has missed a tunnel: the check
let the call through with fewer sessions than the limit, and there are no more tunnels. -/
theorem limit_step {action : Action} (h : c.Valid) (hlimit : c.tunnels.length ≤ maxTunnels)
    (hnone : ∀ call new now, action = .create call new now → c.MissesNone call)
    (hstep : c.step userId action = some c') : c'.Valid ∧ c'.tunnels.length ≤ maxTunnels := by
  cases action with
  | count call =>
    by_cases htaken : c.Taken call
    · simp only [Connects.step, if_pos htaken] at hstep
      cases hstep
    · by_cases hfull : (c.liveIds userId).length ≥ maxTunnels
      · simp only [Connects.step, if_neg htaken, if_pos hfull] at hstep
        cases hstep
        exact ⟨h, hlimit⟩
      · simp only [Connects.step, if_neg htaken, if_neg hfull] at hstep
        cases hstep
        exact ⟨valid_count h hfull, hlimit⟩
  | abandon call =>
    cases hstep
    have hpassed : ∀ entry ∈ c.counted.filter (·.1 ≠ call), entry.2.length < maxTunnels :=
      fun entry hentry => h.passed entry (List.mem_filter.mp hentry).1
    exact ⟨⟨h.distinct, h.created, hpassed⟩, hlimit⟩
  | create call new now =>
    cases hcounted : c.counted.lookup call with
    | none =>
      simp only [Connects.step, hcounted] at hstep
      cases hstep
    | some counted =>
      simp only [Connects.step, hcounted, Option.isSome_some, if_true] at hstep
      cases hstep
      refine ⟨valid_create h, ?_⟩
      have hmem : (call, counted) ∈ c.counted := by
        obtain ⟨before, after, hsplit, -⟩ := List.lookup_eq_some_iff.mp hcounted
        simp [hsplit]
      have hless : counted.length < maxTunnels := h.passed (call, counted) hmem
      have htunnels := length_tunnels_le h (hnone call new now rfl counted hcounted)
      show c.tunnels.length + 1 ≤ maxTunnels
      omega
  | tearDown call writes =>
    cases hstep
    exact ⟨valid_filter (valid_applyWrites h writes) _,
      (List.length_filter_le _ _).trans hlimit⟩
  | commit writes =>
    cases hstep
    exact ⟨valid_applyWrites h writes, hlimit⟩
  | other new now =>
    cases hstep
    exact ⟨valid_add h, hlimit⟩

/-- The condition of a run is one on its first step, and the condition of the rest. -/
theorem neverMisses_cons {action : Action} {actions : List Action} :
    NeverMisses userId c (action :: actions) ↔
      (∀ call new now, action = .create call new now → c.MissesNone call) ∧
        ∀ next, c.step userId action = some next → NeverMisses userId next actions := by
  constructor
  · intro h
    constructor
    · rintro call new now rfl
      exact h [] call new now actions c rfl rfl
    · intro next hstep before call new now after u hsplit hbefore
      refine h (action :: before) call new now after u (by rw [hsplit]; rfl) ?_
      unfold Connects.run
      rw [List.foldlM_cons, hstep]
      exact hbefore
  · rintro ⟨hfirst, hrest⟩ before call new now after u hsplit hbefore
    cases before with
    | nil =>
      cases hsplit
      cases hbefore
      exact hfirst call new now rfl
    | cons b before =>
      cases hsplit
      unfold Connects.run at hbefore
      rw [List.foldlM_cons] at hbefore
      obtain ⟨next, hstep, hbefore⟩ := Option.bind_eq_some_iff.mp hbefore
      exact hrest next hstep before call new now after u rfl hbefore

/-- At most five tunnels of a user are open in every run in which no session is created by a call
that has missed an open tunnel. -/
theorem at_most_five (sessions : Interactive.Table VMSession VMSession.id) (userId : ℕ)
    {actions : List Action} (hnone : NeverMisses userId { sessions } actions)
    (hrun : Connects.run userId { sessions } actions = some c) :
    c.tunnels.length ≤ maxTunnels := by
  have hstart : Connects.Valid { sessions } := ⟨.nil, nofun, nofun⟩
  have hlimit : ({ sessions } : Connects).tunnels.length ≤ maxTunnels := Nat.zero_le _
  generalize ({ sessions } : Connects) = start at hnone hrun hstart hlimit
  induction actions generalizing start with
  | nil =>
    cases hrun
    exact hlimit
  | cons action actions ih =>
    unfold Connects.run at hrun
    rw [List.foldlM_cons] at hrun
    obtain ⟨next, hstep, hrest⟩ := Option.bind_eq_some_iff.mp hrun
    obtain ⟨hfirst, hlater⟩ := neverMisses_cons.mp hnone
    obtain ⟨hvalid, hlimit⟩ := limit_step hstart hlimit hfirst hstep
    exact ih next (hlater next hstep) hrest hvalid hlimit

end Limit

namespace Fixture

def start : Connects := { sessions := .empty }

def tunnel : NewSession where
  organizationId := 1
  userId := 7
  vmId := 3
  protocol := "GUAC_RDP"

/-- One call after the other. -/
def inTurn : List Action :=
  [.count 1, .create 1 tunnel 0, .count 2, .create 2 tunnel 1]

/-- The second call has counted the tunnel of the first one. -/
theorem at_most_five_inTurn :
    ∃ c, Connects.run 7 start inTurn = some c ∧ c.tunnels.length = 2 ∧
      c.tunnels.length ≤ maxTunnels := by
  have hnone : NeverMisses 7 { sessions := .empty } inTurn := by
    refine neverMisses_cons.mpr ⟨nofun, ?_⟩
    rintro _ ⟨⟩
    refine neverMisses_cons.mpr ⟨?_, ?_⟩
    · rintro _ _ _ ⟨⟩ counted ⟨⟩
      decide
    · rintro _ ⟨⟩
      refine neverMisses_cons.mpr ⟨nofun, ?_⟩
      rintro _ ⟨⟩
      refine neverMisses_cons.mpr ⟨?_, ?_⟩
      · rintro _ _ _ ⟨⟩ counted ⟨⟩
        decide
      · rintro _ ⟨⟩ before call new now after u hsplit
        cases before <;> cases hsplit
  exact ⟨_, rfl, rfl, at_most_five .empty 7 hnone rfl⟩

/-- Six calls count before any of them creates its session. -/
def racing : List Action :=
  [1, 2, 3, 4, 5, 6].map .count ++ [1, 2, 3, 4, 5, 6].map fun call => .create call tunnel 0

/-- What a client's heartbeat with a state writes. -/
def heartbeatWrite (row : VMSession) (next : Sessions.SessionState) (now : ℕ) : Sessions.Write where
  loaded := row
  changed :=
    { (row.setState next now).getD row with lastHeartbeatAt := some now, updatedAt := now }

/-- A client disconnects the first of five sessions, whose tunnel goes on, and opens a sixth. -/
def afterHeartbeats : List Action :=
  let row := tunnel.row 0 1
  let active := (heartbeatWrite row .active 1).changed
  [1, 2, 3, 4, 5].flatMap (fun call => [.count call, .create call tunnel 0]) ++
    [.commit [heartbeatWrite row .active 1], .commit [heartbeatWrite active .disconnected 2],
      .count 6, .create 6 tunnel 3]

/-- A race, or heartbeats that were missed, open a sixth tunnel. -/
theorem six_tunnels :
    (¬ ∀ actions c, Connects.run 7 start actions = some c → c.tunnels.length ≤ maxTunnels) ∧
      (Connects.run 7 start racing).map (·.tunnels.length) = some 6 ∧
      (Connects.run 7 start afterHeartbeats).map (·.tunnels.length) = some 6 := by
  have hracing : (Connects.run 7 start racing).map (·.tunnels.length) = some 6 := by
    decide +kernel
  refine ⟨fun h => ?_, hracing, by decide +kernel⟩
  obtain ⟨c, hrun, hlength⟩ := Option.map_eq_some_iff.mp hracing
  have hlimit := h racing c hrun
  rw [hlength] at hlimit
  revert hlimit
  decide

end Fixture

end LabGoblin.Tunnels
