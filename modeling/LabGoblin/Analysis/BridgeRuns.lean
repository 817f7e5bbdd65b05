import LabGoblin.Analysis.BridgeBytes
import LabGoblin.Model.VncBridge

/-!
# Runs of the console bridge

A bridge is compared with one at which the same happens and whose console sends nothing. Both
negotiate the same with every connection of guacd. At most one connection is authenticated; it
has been written the bytes of the desktop that have been received, in their order, after those of
the negotiation, and no other connection has been written any.
-/

set_option autoImplicit false

namespace LabGoblin.Rfb

/-- What a connection has been written when it is authenticated. -/
def Connection.greeting (c : Connection) : Bytes :=
  rfbVersion ++ [1, 2] ++ c.challenge ++ [0, 0, 0, 0]

/-- What a connection has been written that is not authenticated, by where its task waits. -/
def Connection.Greeted (c : Connection) : Prop :=
  match c.stage with
  | .version => c.taken = 0 ∧ c.written = rfbVersion
  | .security => c.taken = 12 ∧ c.written = rfbVersion ++ [1, 2]
  | .response => c.taken = 13 ∧ c.written = rfbVersion ++ [1, 2] ++ c.challenge
  | .closed => c.written <+: rfbVersion ++ [1, 2] ++ c.challenge
  | .clientInit | .leftover | .pumping => False

/-- The bytes of the desktop that an authenticated connection has been written, and those that are
left. Once the task pumps, these are the bytes still to be received. -/
structure Forwards (desktop : Bytes) (b : Bridge) (c : Connection) (forwarded left : Bytes) :
    Prop where
  written : c.written = c.greeting ++ forwarded
  whole : forwarded ++ left = desktop
  pumping : c.stage = .pumping → left = b.unread
  closed : forwarded = [] ∨ left = b.unread
  waiting : c.stage = .clientInit ∨ c.stage = .leftover →
    forwarded = [] ∧ b.upstream.buffer ++ b.unread = desktop

/-- What has become of an authenticated connection: it has answered the challenge with the last of
its first 29 bytes, and what has been taken of it since has been sent to the console. -/
structure Served (desktop : Bytes) (b : Bridge) (c : Connection) : Prop where
  stage : c.stage = .clientInit ∨ c.stage = .leftover ∨ c.stage = .pumping ∨ c.stage = .closed
  answered : 29 ≤ c.taken
  first : c.stage = .clientInit → c.taken = 29
  taken : c.taken ≤ c.heard.length
  toUpstream : b.toUpstream = (c.heard.take c.taken).drop 29
  forwards : ∃ forwarded left, Forwards desktop b c forwarded left

/-- A connection of a bridge, and the same connection where the console sends nothing. -/
structure Tracks (desktop : Bytes) (b : Bridge) (c₀ c : Connection) : Prop where
  same : c = { c₀ with written := c.written }
  refused : c.authenticated = false → c₀.written = c.written ∧ c.Greeted
  served : c.authenticated = true → c₀.written = c.greeting ∧ b.used = true ∧ Served desktop b c

/-- A bridge, and the same bridge where the console sends nothing. -/
structure Keeps (desktop : Bytes) (s b : Bridge) : Prop where
  silent : s.upstream = { pending := [] }
  used : b.used = s.used
  toUpstream : b.toUpstream = s.toUpstream
  length : b.connections.length = s.connections.length
  messages : ∀ frame ∈ b.upstream.pending, ∃ data, frame = .binary data
  fresh : b.used = false → b.toUpstream = [] ∧ b.upstream.buffer ++ b.unread = desktop
  once : ∀ (i j : ℕ) (c c' : Connection), b.connections[i]? = some c → b.connections[j]? = some c' →
    c.authenticated = true → c'.authenticated = true → i = j
  connections : ∀ (i : ℕ) (c₀ c : Connection), s.connections[i]? = some c₀ →
    b.connections[i]? = some c →
    Tracks desktop b c₀ c

variable {desktop : Bytes} {s b b' : Bridge} {c₀ c : Connection}

/-! ## What a turn may do -/

/-- What is served by a bridge depends on the stream of the console and what it has been sent. -/
theorem Served.of_same (h : Served desktop b c) (hup : b'.upstream = b.upstream)
    (hto : b'.toUpstream = b.toUpstream) : Served desktop b' c := by
  have hunread : b'.unread = b.unread := by
    unfold Bridge.unread
    rw [hup]
  obtain ⟨forwarded, left, hforwards⟩ := h.forwards
  refine ⟨h.stage, h.answered, h.first, h.taken, hto.trans h.toUpstream, forwarded, left, ?_⟩
  refine ⟨hforwards.written, hforwards.whole, ?_, ?_, ?_⟩
  · rw [hunread]
    exact hforwards.pumping
  · rw [hunread]
    exact hforwards.closed
  · rw [hunread, hup]
    exact hforwards.waiting

/-- A connection that tracks another still does when the bridge is the same to it. -/
theorem Tracks.of_same (h : Tracks desktop b c₀ c) (hused : b.used = true → b'.used = true)
    (hup : b'.upstream = b.upstream) (hto : b'.toUpstream = b.toUpstream) :
    Tracks desktop b' c₀ c := by
  refine ⟨h.same, h.refused, fun hauth => ?_⟩
  obtain ⟨hwritten, hserved, hdone⟩ := h.served hauth
  exact ⟨hwritten, hused hserved, hdone.of_same hup hto⟩

/-- A connection that is not authenticated tracks another at any bridge. -/
theorem Tracks.of_refused (h : Tracks desktop b c₀ c) (hauth : c.authenticated = false) :
    Tracks desktop b' c₀ c := by
  refine ⟨h.same, h.refused, fun htrue => ?_⟩
  rw [hauth] at htrue
  cases htrue

/-- A connection that is not authenticated is as it is where the console sends nothing. -/
theorem Tracks.eq_of_refused (h : Tracks desktop b c₀ c) (hauth : c.authenticated = false) :
    c₀ = c := by
  have hwritten := (h.refused hauth).1
  rw [h.same, ← hwritten]

/-- What a turn of a task leaves of two bridges and of its connection. Only a task whose connection
is authenticated receives of the console or sends it something, and a connection becomes
authenticated only where `used` is not set. -/
structure Turned (desktop : Bytes) (s b : Bridge) (c : Connection) (r₀ r : Bridge × Connection) :
    Prop where
  silent : r₀.1.upstream = s.upstream
  used : r.1.used = r₀.1.used
  toUpstream : r.1.toUpstream = r₀.1.toUpstream
  messages : ∀ frame ∈ r.1.upstream.pending, frame ∈ b.upstream.pending
  own : r.1.toUpstream = b.toUpstream ∧ r.1.upstream = b.upstream ∨ c.authenticated = true
  usedStays : b.used = true → r.1.used = true
  first : r.2.authenticated = true → c.authenticated = true ∨ b.used = false
  tracks : Tracks desktop r.1 r₀.2 r.2

/-- Every connection is one that the bridge had before, further on. -/
theorem Keeps.before (h : Keeps desktop s b) {i : ℕ} (hget : b.connections[i]? = some c) :
    ∃ c₀, s.connections[i]? = some c₀ ∧ Tracks desktop b c₀ c := by
  have hlt := (List.getElem?_eq_some_iff.mp hget).1
  have hget₀ : ∃ c₀, s.connections[i]? = some c₀ := ⟨_, List.getElem?_eq_getElem (h.length ▸ hlt)⟩
  obtain ⟨c₀, hget₀⟩ := hget₀
  exact ⟨c₀, hget₀, h.connections i c₀ c hget₀ hget⟩

/-- A turn keeps what a bridge keeps. -/
theorem Keeps.turn {f : Bridge → Connection → Bridge × Connection} (h : Keeps desktop s b)
    (hf : ∀ c₀ c, Tracks desktop b c₀ c → Turned desktop s b c (f s c₀) (f b c)) (i : ℕ) :
    Keeps desktop (s.turn i f) (b.turn i f) := by
  cases hget : b.connections[i]? with
  | none =>
    have hnone : s.connections[i]? = none := by
      rw [List.getElem?_eq_none_iff] at hget ⊢
      exact h.length ▸ hget
    unfold Bridge.turn
    rw [hget, hnone]
    exact h
  | some c =>
    obtain ⟨c₀, hget₀, hc⟩ := h.before hget
    have hturn := hf c₀ c hc
    have hlt := (List.getElem?_eq_some_iff.mp hget).1
    have hset : ∀ j c', (b.connections.set i (f b c).2)[j]? = some c' →
        i = j ∧ c' = (f b c).2 ∨ i ≠ j ∧ b.connections[j]? = some c' := by
      intro j c' hj
      rw [List.getElem?_set] at hj
      by_cases hij : i = j
      · rw [if_pos hij, if_pos (hij ▸ hlt)] at hj
        exact .inl ⟨hij, (Option.some.inj hj).symm⟩
      · rw [if_neg hij] at hj
        exact .inr ⟨hij, hj⟩
    have hfirst : ∀ j c', i ≠ j → b.connections[j]? = some c' → c'.authenticated = true →
        (f b c).2.authenticated = true → False := by
      intro j c' hij hj hauth' hauth
      rcases hturn.first hauth with hbefore | hfree
      · exact hij (h.once i j c c' hget hj hbefore hauth')
      · obtain ⟨c₀', hj₀⟩ : ∃ c₀', s.connections[j]? = some c₀' := by
          have hlt' := (List.getElem?_eq_some_iff.mp hj).1
          exact ⟨_, List.getElem?_eq_getElem (h.length ▸ hlt')⟩
        have hused := ((h.connections j c₀' c' hj₀ hj).served hauth').2.1
        rw [hfree] at hused
        cases hused
    unfold Bridge.turn
    rw [hget, hget₀]
    refine ⟨hturn.silent.trans h.silent, hturn.used, hturn.toUpstream, ?_, ?_, ?_, ?_, ?_⟩
    · dsimp only
      rw [List.length_set, List.length_set]
      exact h.length
    · exact fun frame hframe => h.messages frame (hturn.messages frame hframe)
    · intro hfree
      have hfree' : b.used = false := by
        by_contra hused
        have hstays := hturn.usedStays (eq_true_of_ne_false hused)
        exact absurd (hfree.symm.trans hstays) Bool.noConfusion
      rcases hturn.own with ⟨hto, hup⟩ | hauth
      · obtain ⟨hnone, hwhole⟩ := h.fresh hfree'
        refine ⟨hto.trans hnone, ?_⟩
        unfold Bridge.unread at hwhole ⊢
        dsimp only
        rw [hup]
        exact hwhole
      · have hused := (hc.served hauth).2.1
        rw [hfree'] at hused
        cases hused
    · intro j k c' c'' hj hk hauth' hauth''
      rcases hset j c' hj with ⟨hij, rfl⟩ | ⟨hij, hj⟩
      · rcases hset k c'' hk with ⟨hik, rfl⟩ | ⟨hik, hk⟩
        · exact hij.symm.trans hik
        · exact absurd hauth' fun hauth => hfirst k c'' hik hk hauth'' hauth
      · rcases hset k c'' hk with ⟨hik, rfl⟩ | ⟨hik, hk⟩
        · exact absurd hauth'' fun hauth => hfirst j c' hij hj hauth' hauth
        · exact h.once j k c' c'' hj hk hauth' hauth''
    · intro j c₀' c' hj₀ hj
      dsimp only at hj₀
      rw [List.getElem?_set] at hj₀
      rcases hset j c' hj with ⟨rfl, rfl⟩ | ⟨hij, hj⟩
      · rw [if_pos rfl, if_pos (h.length ▸ hlt)] at hj₀
        cases hj₀
        exact hturn.tracks.of_same (fun hused => hused) rfl rfl
      · rw [if_neg hij] at hj₀
        have hother := h.connections j c₀' c' hj₀ hj
        rcases hturn.own with ⟨hto, hup⟩ | hauth
        · exact hother.of_same hturn.usedStays hup hto
        · refine hother.of_refused ?_
          by_contra hauth'
          exact hij (h.once i j c c' hget hj hauth (eq_true_of_ne_false hauth'))

/-! ## The turns -/

section Turns

variable {des : TripleDes} {password : Text}

/-- Where a bridge stays as it is. -/
theorem Turned.of_tracks {d₀ d : Connection} (h : Keeps desktop s b)
    (hfirst : d.authenticated = true → c.authenticated = true) (htracks : Tracks desktop b d₀ d) :
    Turned desktop s b c (s, d₀) (b, d) where
  silent := rfl
  used := h.used
  toUpstream := h.toUpstream
  messages := fun _ hframe => hframe
  own := .inl ⟨rfl, rfl⟩
  usedStays := fun hused => hused
  first := fun hauth => .inl (hfirst hauth)
  tracks := htracks

/-- A connection that is not authenticated is closed. -/
theorem tracks_close (hauth : c.authenticated = false)
    (hwritten : c.written <+: rfbVersion ++ [1, 2] ++ c.challenge) :
    Tracks desktop b c.close c.close where
  same := rfl
  refused := fun _ => ⟨rfl, hwritten⟩
  served := fun htrue => by
    have hfalse : c.authenticated = true := htrue
    rw [hauth] at hfalse
    cases hfalse

/-- What a connection has been written that is not authenticated. -/
theorem Connection.Greeted.begins (h : c.Greeted) :
    c.written <+: rfbVersion ++ [1, 2] ++ c.challenge := by
  unfold Connection.Greeted at h
  cases hstage : c.stage with
  | version =>
    rw [hstage] at h
    rw [h.2, List.append_assoc]
    exact List.prefix_append _ _
  | security =>
    rw [hstage] at h
    rw [h.2]
    exact List.prefix_append _ _
  | response =>
    rw [hstage] at h
    exact h.2 ▸ List.prefix_rfl
  | closed =>
    rw [hstage] at h
    exact h
  | clientInit => rw [hstage] at h; exact h.elim
  | leftover => rw [hstage] at h; exact h.elim
  | pumping => rw [hstage] at h; exact h.elim

/-- A task ends, and has forwarded what it has forwarded. -/
theorem turned_finish (h : Keeps desktop s b) (hc : Tracks desktop b c₀ c) :
    Turned desktop s b c (finish s c₀) (finish b c) := by
  refine .of_tracks h id ?_
  cases hauth : c.authenticated with
  | false =>
    rw [hc.eq_of_refused hauth]
    exact tracks_close hauth (hc.refused hauth).2.begins
  | true =>
    obtain ⟨hwritten, hused, hserved⟩ := hc.served hauth
    obtain ⟨forwarded, left, hforwards⟩ := hserved.forwards
    refine ⟨?_, fun hfalse => ?_, fun _ => ⟨hwritten, hused, ?_⟩⟩
    · rw [hc.same]
      rfl
    · have hfalse' : c.authenticated = false := hfalse
      rw [hauth] at hfalse'
      cases hfalse'
    · refine ⟨.inr (.inr (.inr rfl)), hserved.answered, ?_, hserved.taken, hserved.toUpstream,
        forwarded, left, hforwards.written, hforwards.whole, ?_, hforwards.closed, ?_⟩
      · exact Stage.noConfusion
      · exact Stage.noConfusion
      · rintro (hstage | hstage) <;> cases hstage

/-- A connection that is not authenticated and has been written what it is to be written. -/
theorem tracks_refused (hauth : c.authenticated = false) (h : c.Greeted) :
    Tracks desktop b c c where
  same := rfl
  refused := fun _ => ⟨rfl, h⟩
  served := fun htrue => by
    rw [hauth] at htrue
    cases htrue

/-- A turn at which a connection that is not authenticated stays so. -/
theorem Turned.of_greeted {d : Connection} (h : Keeps desktop s b) (hauth : d.authenticated = false)
    (hgreeted : d.Greeted) : Turned desktop s b c (s, d) (b, d) := by
  refine .of_tracks h (fun htrue => ?_) (tracks_refused hauth hgreeted)
  rw [hauth] at htrue
  cases htrue

/-- Bytes of guacd do not change what has been taken of them. -/
theorem turned_receive (h : Keeps desktop s b) (data : Bytes) (hc : Tracks desktop b c₀ c) :
    Turned desktop s b c (receive data s c₀) (receive data b c) := by
  refine .of_tracks h id ?_
  have hheard : c.heard = c₀.heard := by
    rw [hc.same]
  refine ⟨?_, fun hauth => ?_, fun hauth => ?_⟩
  · have hsame : c = { c₀ with written := c.written } := hc.same
    rw [hheard]
    exact congrArg (fun c : Connection => { c with heard := c₀.heard ++ data }) hsame
  · exact hc.refused hauth
  · obtain ⟨hwritten, hused, hserved⟩ := hc.served hauth
    obtain ⟨forwarded, left, hforwards⟩ := hserved.forwards
    refine ⟨hwritten, hused, hserved.stage, hserved.answered, hserved.first, ?_, ?_,
      forwarded, left, ?_⟩
    · dsimp only
      rw [List.length_append]
      exact Nat.le_add_right_of_le hserved.taken
    · dsimp only
      rw [List.take_append_of_le_length hserved.taken]
      exact hserved.toUpstream
    · exact ⟨hforwards.written, hforwards.whole, hforwards.pumping, hforwards.closed,
        hforwards.waiting⟩

/-- The task has read the version, or the security type. -/
theorem turned_greeting (h : Keeps desktop s b) (challenge : Bytes)
    (hauth : c.authenticated = false)
    (hgreeted : c.Greeted) (hstage : c.stage = .version ∨ c.stage = .security) :
    Turned desktop s b c (accept des password challenge s c)
      (accept des password challenge b c) := by
  unfold accept Connection.readExactly
  rcases hstage with hstage | hstage
  · unfold Connection.Greeted at hgreeted
    rw [hstage] at hgreeted ⊢
    obtain ⟨htaken, hwritten⟩ := hgreeted
    dsimp only
    by_cases hlen : 12 ≤ c.unread.length
    · rw [if_pos hlen]
      dsimp only
      split
      · refine .of_greeted h hauth ?_
        show c.written <+: _
        rw [hwritten, List.append_assoc]
        exact List.prefix_append _ _
      · refine .of_greeted h hauth ⟨?_, ?_⟩
        · show c.taken + 12 = 12
          rw [htaken]
        · show c.written ++ [1, 2] = _
          rw [hwritten]
    · rw [if_neg hlen]
      refine .of_greeted h hauth ?_
      unfold Connection.Greeted
      rw [hstage]
      exact ⟨htaken, hwritten⟩
  · unfold Connection.Greeted at hgreeted
    rw [hstage] at hgreeted ⊢
    obtain ⟨htaken, hwritten⟩ := hgreeted
    dsimp only
    by_cases hlen : 1 ≤ c.unread.length
    · rw [if_pos hlen]
      dsimp only
      split
      · refine .of_greeted h hauth ?_
        show c.written <+: _
        rw [hwritten]
        exact List.prefix_append _ _
      · refine .of_greeted h hauth ⟨?_, ?_⟩
        · show c.taken + 1 = 13
          rw [htaken]
        · show c.written ++ challenge = _ ++ challenge
          rw [hwritten]
    · rw [if_neg hlen]
      refine .of_greeted h hauth ?_
      unfold Connection.Greeted
      rw [hstage]
      exact ⟨htaken, hwritten⟩

/-- The task has read the answer to the challenge: the first connection that answers it right is
authenticated, and has been written nothing of the desktop yet. -/
theorem turned_response (h : Keeps desktop s b) (challenge : Bytes)
    (hauth : c.authenticated = false)
    (hgreeted : c.Greeted) (hstage : c.stage = .response) :
    Turned desktop s b c (accept des password challenge s c)
      (accept des password challenge b c) := by
  have hprefix := hgreeted.begins
  unfold Connection.Greeted at hgreeted
  rw [hstage] at hgreeted
  obtain ⟨htaken, hwritten⟩ := hgreeted
  have hclosed : Turned desktop s b c (s, { c with taken := c.taken + 16 }.close)
      (b, { c with taken := c.taken + 16 }.close) := .of_greeted h hauth hprefix
  unfold accept Connection.readExactly
  rw [hstage]
  dsimp only
  by_cases hlen : 16 ≤ c.unread.length
  · rw [if_pos hlen]
    dsimp only
    cases hresponse : vncResponse des password c.challenge with
    | error e => exact hclosed
    | ok expected =>
      dsimp only
      rw [← h.used]
      by_cases hno : c.unread.take 16 ≠ expected ∨ b.used = true
      · rw [if_pos hno, if_pos hno]
        exact hclosed
      · rw [if_neg hno, if_neg hno]
        have hfree : b.used = false := eq_false_of_ne_true fun hused => hno (.inr hused)
        obtain ⟨hnone, hwhole⟩ := h.fresh hfree
        have hheard : 29 ≤ c.heard.length := by
          unfold Connection.unread at hlen
          rw [List.length_drop, htaken] at hlen
          omega
        have hwritten' : c.written ++ [0, 0, 0, 0] = c.greeting := by
          rw [hwritten]
          rfl
        refine ⟨rfl, rfl, h.toUpstream, fun _ hframe => hframe, .inl ⟨rfl, rfl⟩, fun _ => rfl,
          fun _ => .inr hfree, rfl, fun hfalse => ?_, fun _ => ⟨hwritten', rfl, ?_⟩⟩
        · cases hfalse
        · refine ⟨.inl rfl, ?_, fun _ => ?_, ?_, ?_, [], desktop, ?_⟩
          · show 29 ≤ c.taken + 16
            omega
          · show c.taken + 16 = 29
            omega
          · show c.taken + 16 ≤ c.heard.length
            omega
          · show b.toUpstream = (c.heard.take (c.taken + 16)).drop 29
            rw [hnone, htaken]
            simp
          · refine ⟨?_, rfl, Stage.noConfusion, .inl rfl, fun _ => ⟨rfl, hwhole⟩⟩
            show c.written ++ [0, 0, 0, 0] = c.greeting ++ []
            rw [hwritten', List.append_nil]
  · rw [if_neg hlen]
    refine .of_greeted h hauth ?_
    unfold Connection.Greeted
    rw [hstage]
    exact ⟨htaken, hwritten⟩

/-- What is taken next of the bytes of guacd comes after what has been taken. -/
theorem taken_append (heard : Bytes) {taken : ℕ} (count : ℕ) (hanswered : 29 ≤ taken)
    (htaken : taken ≤ heard.length) :
    (heard.take (taken + count)).drop 29 =
      (heard.take taken).drop 29 ++ (heard.drop taken).take count := by
  have hlen : 29 ≤ (heard.take taken).length := by
    rw [List.length_take]
    omega
  rw [List.take_add, List.drop_append_of_le_length hlen]

/-- An authenticated connection where the console sends nothing. -/
theorem Tracks.eq_of_served (h : Tracks desktop b c₀ c) (hauth : c.authenticated = true) :
    c₀ = { c with written := c.greeting } := by
  have hwritten := (h.served hauth).1
  rw [← hwritten, h.same]

/-- A turn at which some of what guacd has sent goes to the console. -/
theorem turned_send (h : Keeps desktop s b) (hc : Tracks desktop b c₀ c)
    (hauth : c.authenticated = true) {count : ℕ} {next : Stage}
    (hcount : c.taken + count ≤ c.heard.length)
    (hnext : c.stage = .clientInit ∧ next = .leftover ∨ c.stage = .pumping ∧ next = .pumping) :
    Turned desktop s b c
      (s.send (c.unread.take count), { c₀ with taken := c.taken + count, stage := next })
      (b.send (c.unread.take count), { c with taken := c.taken + count, stage := next }) := by
  obtain ⟨hwritten, hused, hserved⟩ := hc.served hauth
  obtain ⟨forwarded, left, hforwards⟩ := hserved.forwards
  have hsent : b.toUpstream ++ c.unread.take count =
      (c.heard.take (c.taken + count)).drop 29 := by
    rw [taken_append c.heard count hserved.answered hserved.taken, hserved.toUpstream]
    rfl
  have hfalse : ∀ stage : Stage, stage ≠ .leftover → stage ≠ .pumping → next ≠ stage := by
    rintro stage hleftover hpumping rfl
    rcases hnext with ⟨-, rfl⟩ | ⟨-, rfl⟩
    · exact hleftover rfl
    · exact hpumping rfl
  refine ⟨rfl, h.used, ?_, fun _ hframe => hframe, .inr hauth, fun hu => hu, fun _ => .inl hauth,
    ?_, fun hno => ?_, fun _ => ⟨hwritten, hused, ?_⟩⟩
  · show b.toUpstream ++ _ = s.toUpstream ++ _
    rw [h.toUpstream]
  · rw [hc.eq_of_served hauth]
  · exact absurd (hauth.symm.trans hno) Bool.noConfusion
  · refine ⟨?_, ?_, fun hfirst => ?_, hcount, hsent, forwarded, left, hforwards.written,
      hforwards.whole, fun hpump => ?_, hforwards.closed, fun hwait => ?_⟩
    · rcases hnext with ⟨-, rfl⟩ | ⟨-, rfl⟩
      · exact .inr (.inl rfl)
      · exact .inr (.inr (.inl rfl))
    · exact Nat.le_add_right_of_le hserved.answered
    · exact absurd hfirst (hfalse .clientInit Stage.noConfusion Stage.noConfusion)
    · rcases hnext with ⟨-, rfl⟩ | ⟨hstage, -⟩
      · cases hpump
      · exact hforwards.pumping hstage
    · rcases hnext with ⟨hstage, -⟩ | ⟨-, rfl⟩
      · exact hforwards.waiting (.inl hstage)
      · rcases hwait with hwait | hwait <;> cases hwait

/-- A turn at which an authenticated connection is written more of the desktop. -/
theorem turned_forward (h : Keeps desktop s b) (hc : Tracks desktop b c₀ c)
    (hauth : c.authenticated = true) {upstream : ByteStream} {data forwarded : Bytes}
    (hmessages : ∀ frame ∈ upstream.pending, frame ∈ b.upstream.pending)
    (hbefore : c.written = c.greeting ++ forwarded)
    (hwhole : forwarded ++ data ++ upstream.pending.flatMap Frame.data = desktop) :
    Turned desktop s b c (s, { c₀ with stage := .pumping })
      ({ b with upstream := upstream }, c.write data .pumping) := by
  obtain ⟨hwritten, hused, hserved⟩ := hc.served hauth
  refine ⟨rfl, h.used, h.toUpstream, hmessages, .inr hauth, fun hu => hu, fun _ => .inl hauth,
    ?_, fun hno => ?_, fun _ => ⟨hwritten, hused, ?_⟩⟩
  · rw [hc.eq_of_served hauth]
    rfl
  · exact absurd (hauth.symm.trans hno) Bool.noConfusion
  · refine ⟨.inr (.inr (.inl rfl)), hserved.answered, Stage.noConfusion, hserved.taken,
      hserved.toUpstream, forwarded ++ data, upstream.pending.flatMap Frame.data, ?_, hwhole,
      fun _ => rfl, .inr rfl, ?_⟩
    · show c.written ++ data = c.greeting ++ (forwarded ++ data)
      rw [hbefore, List.append_assoc]
    · rintro (hstage | hstage) <;> cases hstage

/-- A task goes on from its `await` alike whether the console sends anything or not. -/
theorem turned_accept (h : Keeps desktop s b) (challenge : Bytes) (hc : Tracks desktop b c₀ c) :
    Turned desktop s b c (accept des password challenge s c₀)
      (accept des password challenge b c) := by
  cases hauth : c.authenticated with
  | false =>
    have hgreeted := (hc.refused hauth).2
    rw [hc.eq_of_refused hauth]
    cases hstage : c.stage with
    | version => exact turned_greeting h challenge hauth hgreeted (.inl hstage)
    | security => exact turned_greeting h challenge hauth hgreeted (.inr hstage)
    | response => exact turned_response h challenge hauth hgreeted hstage
    | closed =>
      unfold accept
      rw [hstage]
      exact .of_greeted h hauth hgreeted
    | _ =>
      unfold Connection.Greeted at hgreeted
      rw [hstage] at hgreeted
      exact hgreeted.elim
  | true =>
    obtain ⟨-, -, hserved⟩ := hc.served hauth
    have hsame : c₀.stage = c.stage := by
      rw [hc.eq_of_served hauth]
    unfold accept
    rcases hserved.stage with hstage | hstage | hstage | hstage
    · have hread : c₀.readExactly 1 = if 1 ≤ c.unread.length then
          some (c.unread.take 1, { c₀ with taken := c.taken + 1 }) else none := by
        rw [hc.eq_of_served hauth]
        rfl
      rw [hsame, hstage]
      dsimp only
      rw [hread]
      unfold Connection.readExactly
      by_cases hlen : 1 ≤ c.unread.length
      · rw [if_pos hlen, if_pos hlen]
        have hcount : c.taken + 1 ≤ c.heard.length := by
          unfold Connection.unread at hlen
          rw [List.length_drop] at hlen
          omega
        exact turned_send h hc hauth hcount (.inl ⟨hstage, rfl⟩)
      · rw [if_neg hlen, if_neg hlen]
        exact .of_tracks h id hc
    · rw [hsame, hstage]
      dsimp only
      obtain ⟨forwarded, left, hforwards⟩ := hserved.forwards
      obtain ⟨rfl, hwhole⟩ := hforwards.waiting (.inr hstage)
      have hsilent : c₀.write s.upstream.buffer .pumping = { c₀ with stage := .pumping } := by
        rw [h.silent]
        unfold Connection.write
        rw [List.append_nil]
      rw [hsilent]
      exact turned_forward h hc hauth (fun _ hframe => hframe) hforwards.written hwhole
    · rw [hsame, hstage]
      exact .of_tracks h id hc
    · rw [hsame, hstage]
      exact .of_tracks h id hc

/-- Only an authenticated connection is pumped. -/
theorem Tracks.authenticated_of_pumping (hc : Tracks desktop b c₀ c) (hstage : c.stage = .pumping) :
    c.authenticated = true := by
  by_contra hno
  have hgreeted := (hc.refused (eq_false_of_ne_true hno)).2
  unfold Connection.Greeted at hgreeted
  rw [hstage] at hgreeted
  exact hgreeted

/-- A frame of the console goes to the one connection that is authenticated. -/
theorem turned_pveToTcp (h : Keeps desktop s b) (hc : Tracks desktop b c₀ c) :
    Turned desktop s b c (pveToTcp s c₀) (pveToTcp b c) := by
  have hsame : c₀.stage = c.stage := by
    rw [hc.same]
  unfold pveToTcp
  rw [hsame]
  by_cases hstage : c.stage = .pumping
  · rw [if_pos hstage, if_pos hstage, h.silent]
    dsimp only
    have hauth := hc.authenticated_of_pumping hstage
    cases hpending : b.upstream.pending with
    | nil => exact .of_tracks h id hc
    | cons frame pending =>
      obtain ⟨data, rfl⟩ := h.messages frame (hpending ▸ List.mem_cons_self)
      obtain ⟨forwarded, left, hforwards⟩ := (hc.served hauth).2.2.forwards
      have hwhole := hforwards.whole
      rw [hforwards.pumping hstage] at hwhole
      unfold Bridge.unread at hwhole
      rw [hpending, List.flatMap_cons, ← List.append_assoc] at hwhole
      have hidle : c₀ = { c₀ with stage := .pumping } := by
        rw [← hstage, ← hsame]
      have hbinary : Frame.binary data ≠ .text := Frame.noConfusion
      dsimp only
      rw [if_neg hbinary, hidle]
      refine turned_forward h hc hauth ?_ hforwards.written hwhole
      rw [hpending]
      exact fun _ hframe => List.mem_cons_of_mem _ hframe
  · rw [if_neg hstage, if_neg hstage]
    exact .of_tracks h id hc

/-- What guacd has sent goes to the console. -/
theorem turned_tcpToPve (h : Keeps desktop s b) (hc : Tracks desktop b c₀ c) :
    Turned desktop s b c (tcpToPve s c₀) (tcpToPve b c) := by
  have hsame : c₀.stage = c.stage := by
    rw [hc.same]
  unfold tcpToPve
  by_cases hstage : c.stage = .pumping
  · rw [if_pos (hsame.trans hstage), if_pos hstage]
    dsimp only
    have hauth := hc.authenticated_of_pumping hstage
    have hunread : c₀.unread = c.unread := by
      rw [hc.eq_of_served hauth]
      rfl
    have htaken : c₀.taken = c.taken := by
      rw [hc.same]
    have hdata : c.unread.take 65536 = c.unread.take (c.unread.take 65536).length := by
      rw [List.length_take]
      exact List.take_eq_take_min
    have hcount : c.taken + (c.unread.take 65536).length ≤ c.heard.length := by
      have hlen : c.unread.length = c.heard.length - c.taken := List.length_drop
      have htaken := (hc.served hauth).2.2.taken
      rw [List.length_take, hlen]
      omega
    have hturned := turned_send h hc hauth hcount (.inr ⟨hstage, rfl⟩)
    rw [← hdata] at hturned
    have hidle : ∀ c' : Connection, c'.stage = .pumping →
        { c' with taken := c.taken + (c.unread.take 65536).length, stage := .pumping } =
          { c' with taken := c.taken + (c.unread.take 65536).length } := by
      rintro c' hpumping
      rw [← hpumping]
    rw [hidle c hstage, hidle c₀ (hsame.trans hstage)] at hturned
    rw [hunread, htaken]
    exact hturned
  · rw [if_neg (hsame ▸ hstage), if_neg hstage]
    exact .of_tracks h id hc

/-- A new connection is closed at once when `used` is set, and else is written the version. -/
theorem Keeps.connect (h : Keeps desktop s b) : Keeps desktop s.connect b.connect := by
  obtain ⟨new, hnew, hauth, hgreeted⟩ : ∃ new : Connection,
      new = (if b.used then { stage := .closed }
        else { stage := .version, written := rfbVersion }) ∧
        new.authenticated = false ∧ new.Greeted := by
    refine ⟨_, rfl, ?_⟩
    split
    · exact ⟨rfl, List.nil_prefix⟩
    · exact ⟨rfl, rfl, rfl⟩
  have hget : ∀ (connections : List Connection) (i : ℕ) (c : Connection),
      (connections ++ [new])[i]? = some c →
        connections[i]? = some c ∨ i = connections.length ∧ c = new := by
    intro connections i c hi
    rcases Nat.lt_or_ge i connections.length with hlt | hge
    · rw [List.getElem?_append_left hlt] at hi
      exact .inl hi
    · rw [List.getElem?_append_right hge] at hi
      obtain ⟨hlast, hsome⟩ := List.getElem?_eq_some_iff.mp hi
      rw [List.length_singleton] at hlast
      rw [List.getElem_singleton] at hsome
      exact .inr ⟨by omega, hsome.symm⟩
  have hadded : b.connect.connections = b.connections ++ [new] := by
    rw [hnew]
    rfl
  have hadded₀ : s.connect.connections = s.connections ++ [new] := by
    rw [hnew, h.used]
    rfl
  refine ⟨h.silent, h.used, h.toUpstream, ?_, h.messages, h.fresh, ?_, ?_⟩
  · rw [hadded, hadded₀, List.length_append, List.length_append, h.length]
  · intro i j c c' hi hj hc hc'
    rw [hadded] at hi hj
    rcases hget _ i c hi with hi | ⟨-, rfl⟩
    · rcases hget _ j c' hj with hj | ⟨-, rfl⟩
      · exact h.once i j c c' hi hj hc hc'
      · exact absurd (hauth.symm.trans hc') Bool.noConfusion
    · exact absurd (hauth.symm.trans hc) Bool.noConfusion
  · intro i c₀ c hi₀ hi
    rw [hadded₀] at hi₀
    rw [hadded] at hi
    rcases hget _ i c hi with hi | ⟨hlast, rfl⟩
    · have hlt := (List.getElem?_eq_some_iff.mp hi).1
      rcases hget _ i c₀ hi₀ with hi₀ | ⟨hlast, -⟩
      · exact (h.connections i c₀ c hi₀ hi).of_same id rfl rfl
      · rw [h.length, hlast] at hlt
        exact absurd hlt (Nat.lt_irrefl _)
    · rcases hget _ i c₀ hi₀ with hi₀ | ⟨-, rfl⟩
      · have hlt := (List.getElem?_eq_some_iff.mp hi₀).1
        rw [← h.length, hlast] at hlt
        exact absurd hlt (Nat.lt_irrefl _)
      · exact tracks_refused hauth hgreeted

/-- What happens at a bridge keeps it as the bridge whose console sends nothing, but for the bytes
of the desktop. -/
theorem Keeps.after (h : Keeps desktop s b) (action : Action) :
    Keeps desktop (s.after des password action) (b.after des password action) := by
  cases action with
  | connect => exact h.connect
  | receive i data => exact h.turn (fun _ _ hc => turned_receive h data hc) i
  | resume i challenge => exact h.turn (fun _ _ hc => turned_accept h challenge hc) i
  | pveToTcp i => exact h.turn (fun _ _ hc => turned_pveToTcp h hc) i
  | tcpToPve i => exact h.turn (fun _ _ hc => turned_tcpToPve h hc) i
  | finish i => exact h.turn (fun _ _ hc => turned_finish h hc) i

/-- So does a whole run. -/
theorem Keeps.run (h : Keeps desktop s b) (actions : List Action) :
    Keeps desktop (s.run des password actions) (b.run des password actions) := by
  induction actions generalizing s b with
  | nil => exact h
  | cons action actions ih => exact ih (h.after action)

end Turns

/-! ## The result -/

/-- A connection without what has been forwarded to it. -/
def Connection.negotiated (c : Connection) : Connection :=
  { c with written := if c.authenticated then c.greeting else c.written }

/-- What has become of a bridge whose console sends the bytes of a desktop, in comparison with one
whose console sends nothing: the connections have negotiated the same, and the desktop has gone to
the one that is authenticated, once and in order, as far as it is not left to be received. What
that connection has sent since has gone to the console, as far as it is not left to be read. -/
structure Delivers (desktop : Bytes) (silent b : Bridge) : Prop where
  used : b.used = silent.used
  toUpstream : b.toUpstream = silent.toUpstream
  negotiated : b.connections.map Connection.negotiated = silent.connections
  once : ∀ (i j : ℕ) (c c' : Connection), b.connections[i]? = some c →
    b.connections[j]? = some c' → c.authenticated = true → c'.authenticated = true → i = j
  refused : ∀ c ∈ b.connections, c.authenticated = false →
    c.written <+: rfbVersion ++ [1, 2] ++ c.challenge
  forwarded : ∀ c ∈ b.connections, c.authenticated = true → ∃ forwarded left,
    c.written = rfbVersion ++ [1, 2] ++ c.challenge ++ [0, 0, 0, 0] ++ forwarded ∧
      forwarded ++ left = desktop ∧ (c.stage = .pumping → left = b.unread) ∧
      (forwarded = [] ∨ left = b.unread)
  input : ∀ c ∈ b.connections, c.authenticated = true →
    b.toUpstream ++ c.unread = c.heard.drop 29

/-- What `Keeps` says of the bytes. -/
theorem Keeps.delivers (h : Keeps desktop s b) : Delivers desktop s b := by
  have hmem : ∀ c ∈ b.connections, ∃ c₀, Tracks desktop b c₀ c := by
    intro c hc
    obtain ⟨i, hi⟩ := List.mem_iff_getElem?.mp hc
    obtain ⟨c₀, -, htracks⟩ := h.before hi
    exact ⟨c₀, htracks⟩
  refine ⟨h.used, h.toUpstream, ?_, h.once, ?_, ?_, ?_⟩
  · refine List.ext_getElem? fun i => ?_
    rw [List.getElem?_map]
    cases hi : b.connections[i]? with
    | none =>
      rw [List.getElem?_eq_none_iff, h.length] at hi
      exact (List.getElem?_eq_none_iff.mpr hi).symm
    | some c =>
      have hlt := (List.getElem?_eq_some_iff.mp hi).1
      rw [h.length] at hlt
      have hi₀ := List.getElem?_eq_getElem hlt
      have htracks := h.connections i _ c hi₀ hi
      rw [hi₀, Option.map_some]
      congr 1
      unfold Connection.negotiated
      by_cases hauth : c.authenticated = true
      · rw [if_pos hauth]
        exact (htracks.eq_of_served hauth).symm
      · rw [if_neg hauth]
        exact (htracks.eq_of_refused (eq_false_of_ne_true hauth)).symm
  · intro c hc hauth
    obtain ⟨c₀, htracks⟩ := hmem c hc
    exact (htracks.refused hauth).2.begins
  · intro c hc hauth
    obtain ⟨c₀, htracks⟩ := hmem c hc
    obtain ⟨forwarded, left, hforwards⟩ := (htracks.served hauth).2.2.forwards
    exact ⟨forwarded, left, hforwards.written, hforwards.whole, hforwards.pumping,
      hforwards.closed⟩
  · intro c hc hauth
    obtain ⟨c₀, htracks⟩ := hmem c hc
    have hserved := (htracks.served hauth).2.2
    have hlen : 29 ≤ (c.heard.take c.taken).length := by
      have hanswered := hserved.answered
      have htaken := hserved.taken
      rw [List.length_take]
      omega
    unfold Connection.unread
    rw [hserved.toUpstream, ← List.drop_append_of_le_length hlen, List.take_append_drop]

/-- The bridge of a console that has been authenticated. -/
theorem keeps_start {w : Wire} {g : Progress} (h : At g w) :
    Keeps g.upstream { upstream := { pending := [] } } { upstream := w.upstream } where
  silent := rfl
  used := rfl
  toUpstream := rfl
  length := rfl
  messages := fun frame hframe => by
    obtain ⟨data, -, hdata⟩ := h.messages .upstream frame hframe
    exact ⟨data, hdata⟩
  fresh := fun _ => ⟨rfl, h.remaining .upstream⟩
  once := fun i j c c' hi => by cases hi
  connections := fun i c₀ c hi => by cases hi

/-- What `vnc_bridge` comes to depends on the bytes of the console only, however they are cut into
messages: the authentication of the console, and whatever happens then at the bridge. -/
def VncBridgeKeeps (des : TripleDes) (data : TicketData) (password : Text) (upstream : Bytes) :
    Prop :=
  (∃ authentication desktop toUpstream, upstream = authentication ++ desktop ∧
    ∀ frames actions, Carries frames upstream →
      ¬ TooLarge (vncBridge des data password actions (start frames [])) →
      ∃ b w, vncBridge des data password actions (start frames []) = .ok b w ∧
        sentBytes .upstream w.trace = toUpstream ∧
        Delivers desktop (Bridge.run des password { upstream := { pending := [] } } actions) b) ∨
  ∃ e toUpstream, ∀ frames actions, Carries frames upstream →
    ¬ TooLarge (vncBridge des data password actions (start frames [])) →
    ∃ w, vncBridge des data password actions (start frames []) = .error e w ∧
      sentBytes .upstream w.trace = toUpstream

/-- The console is authenticated by its bytes, and the bridge then keeps those that are left. -/
theorem vncBridge_bytes (des : TripleDes) (data : TicketData) (password : Text)
    (upstream : Bytes) : VncBridgeKeeps des data password upstream := by
  have hstart : ∀ frames, Carries frames upstream →
      At { upstream := upstream, browser := [] } (start frames []) :=
    fun frames hcarries => at_start hcarries ⟨List.forall_mem_nil _, rfl⟩
  unfold VncBridgeKeeps vncBridge
  rcases talksUpstream_authenticateUpstream des data { upstream := upstream, browser := [] } with
    ⟨_, g, honly, hok⟩ | ⟨e, g, herr⟩
  · obtain ⟨authentication, hauthentication⟩ := honly.upstream
    refine .inl ⟨authentication, g.upstream, g.toUpstream, hauthentication, ?_⟩
    intro frames actions hcarries hlarge
    rcases hok _ (hstart frames hcarries) with hl | ⟨w, hw, hat⟩
    · exact absurd (tooLarge_bind _ hl) hlarge
    · refine ⟨_, w, bind_ok _ hw, hat.sent .upstream, ?_⟩
      exact ((keeps_start hat).run actions).delivers
  · refine .inr ⟨e, g.toUpstream, fun frames actions hcarries hlarge => ?_⟩
    rcases herr _ (hstart frames hcarries) with hl | ⟨w, hw, hsent⟩
    · exact absurd (tooLarge_bind _ hl) hlarge
    · exact ⟨w, bind_error _ hw, hsent .upstream⟩

/-- The gateway loses and duplicates no bytes of a desktop. -/
theorem bridge_keeps_bytes (des : TripleDes) (data : TicketData) (upstream browser : Bytes) :
    AuthenticateBrowserKeeps des data upstream browser ∧
      ∀ password, VncBridgeKeeps des data password upstream :=
  ⟨authenticateBrowser_bytes des data upstream browser,
    fun password => vncBridge_bytes des data password upstream⟩

namespace Fixture

/-- Two connections answer their challenges, and a third comes when `used` is set. The second is
the first to answer, and is pumped one frame. -/
def twoAnswers : List Action :=
  [.connect, .connect, .receive 0 (rfbVersion ++ [2]), .receive 1 (rfbVersion ++ [2]),
    .resume 0 [], .resume 1 [], .resume 0 (List.replicate 16 3), .resume 1 (List.replicate 16 4),
    .receive 1 (List.replicate 16 4 ++ [1]), .receive 0 (List.replicate 16 3), .resume 1 [],
    .resume 0 [], .connect, .resume 1 [], .resume 1 [], .pveToTcp 1]

/-- What the connections of a bridge have been written, and what has been sent to its console. -/
def outputs (result : EStateM.Result Failure Wire Bridge) : Option (List Bytes × Bytes) :=
  match result with
  | .ok b _ => some (b.connections.map Connection.written, b.toUpstream)
  | .error _ _ => none

set_option maxRecDepth 100000 in
/-- What has come with the security result goes to the second connection before the next frame. -/
theorem bridge_keeps_bytes_twoAnswers :
    VncBridgeKeeps (fun _ challenge => challenge) serviceTicket "secret".toList
        (lateConsole.flatMap Frame.data) ∧
      outputs (vncBridge (fun _ challenge => challenge) serviceTicket "secret".toList twoAnswers
          (start lateConsole [])) =
        some ([rfbVersion ++ [1, 2] ++ List.replicate 16 3,
          rfbVersion ++ [1, 2] ++ List.replicate 16 4 ++ [0, 0, 0, 0] ++
            (List.replicate 20 0 ++ [0, 0, 0, 1, 0x74]) ++ [7, 7], []], [1]) :=
  ⟨(bridge_keeps_bytes _ _ _ []).2 _, by decide +kernel⟩

end Fixture

end LabGoblin.Rfb
