import LabGoblin.Analysis.Sweeps
import LabGoblin.Computation.Script

/-!
# Races between the methods of the session service

Every method commits only state changes that are edges of the transition table from the state
it read. What it read may have changed by then, and nothing stops the commit. As long as
every commit finds the state that was read, or the one it writes, the committed states
follow the table in every interleaving.
-/

set_option autoImplicit false

namespace LabGoblin.Sessions

open Interactive

variable {σ : Type} {d : Deployment σ}

/-! ## What the methods commit -/

/-- The update of a row changes its state along the table or not at all. -/
def Write.Legal (w : Write) : Prop :=
  w.changed.state = w.loaded.state ∨
    validateTransition w.loaded.state w.changed.state = true

/-- A commit updates no row twice, and each of them legally; a token may be verified where that
is permitted. -/
def Stmt.Legal (permitted : Prop) : Stmt → Prop
  | .commit writes =>
    (writes.map fun w => w.loaded.id).Nodup ∧ ∀ w ∈ writes, w.Legal
  | .verify _ _ _ _ => permitted
  | .publish event => ∃ s, PublishedAbout s event
  | _ => True

/-- Whatever the program is shown, it commits legal updates only, publishes what is about a
session, and verifies a token only where that is permitted. -/
abbrev Legally (permitted : Prop) {α : Type} (prog : M σ α) : Prop :=
  Program.Ensures (G := signature σ) (Stmt.Legal permitted) (fun _ => True) (fun _ => True) prog

variable {permitted : Prop}

/-- A program of one legal statement is legal. -/
theorem legally_issue {q : Stmt} (h : q.Legal permitted) :
    Legally permitted (issue q : M σ (State σ)) :=
  ⟨h, fun _ => trivial⟩

/-- A return is legal. -/
theorem legally_pure {α : Type} (a : α) : Legally permitted (pure a : M σ α) := trivial

/-- Two legal programs are legal in sequence. -/
theorem legally_bind {α β : Type} {prog : M σ α} {f : α → M σ β} (h : Legally permitted prog)
    (hf : ∀ a, Legally permitted (f a)) : Legally permitted (prog >>= f) := by
  rw [Legally, Program.ensures_bind]
  exact h.mono (fun _ hq => hq) (fun _ hc => hc) fun a _ => hf a

/-- Publishing an event about a session is legal. -/
theorem legally_publish {event : DomainEvent} {s : VMSession} (h : PublishedAbout s event) :
    Legally permitted (publish event : M σ Unit) :=
  legally_bind (legally_issue ⟨s, h⟩) fun _ => legally_pure ()

/-- Finding a session commits nothing. -/
theorem legally_find (known : Option VMSession) (id : ℕ) :
    Legally permitted (find known id : M σ (Option VMSession)) :=
  legally_bind (legally_issue trivial) fun _ => legally_pure _

/-- The commit of one changed row. -/
theorem legal_setState {row changed : VMSession} {next : SessionState} {now : ℕ}
    {reason : Option String} (h : row.setState next now reason = some changed) :
    (Stmt.commit [⟨row, changed⟩]).Legal permitted := by
  obtain ⟨hedge, hstate, -⟩ := setState_eq_some h
  refine ⟨List.nodup_singleton _, fun w hw => ?_⟩
  rw [List.mem_singleton.mp hw]
  exact .inr (hstate ▸ hedge)

/-- A mark commits only a transition of the row that it has. -/
theorem legally_mark {next : SessionState} {reason : Option String}
    {before after : VMSession → M σ Unit} (hbefore : ∀ row, Legally permitted (before row))
    (hafter : ∀ row, Legally permitted (after row)) (known : Option VMSession) (id : ℕ) :
    Legally permitted (mark next reason before after known id) := by
  refine legally_bind (legally_find known id) fun found => ?_
  cases found with
  | none => exact legally_pure false
  | some row =>
    refine legally_bind (hbefore row) fun _ => ?_
    refine legally_bind (legally_issue trivial) fun t => ?_
    cases h : row.setState next t.now reason with
    | none => exact legally_pure false
    | some changed =>
      refine legally_bind (legally_issue (legal_setState h)) fun _ => ?_
      exact legally_bind (hafter row) fun _ => legally_pure true

/-- Marking a session active is legal. -/
theorem legally_markActive (known : Option VMSession) (id : ℕ) :
    Legally permitted (markActive known id : M σ Bool) :=
  legally_mark (fun _ => legally_pure ()) (fun _ => legally_publish .started) known id

/-- Marking a session reconnecting is legal. -/
theorem legally_markReconnecting (known : Option VMSession) (id : ℕ) :
    Legally permitted (markReconnecting known id : M σ Bool) :=
  legally_mark (fun _ => legally_publish .attempt) (fun _ => legally_pure ()) known id

/-- What `heartbeat` makes of the row keeps or legally changes its state. -/
theorem legal_heartbeat {row moved : VMSession} {now : ℕ}
    (h : moved.state = row.state ∨ validateTransition row.state moved.state = true) :
    (Stmt.commit
      [⟨row, { moved with lastHeartbeatAt := some now, updatedAt := now }⟩]).Legal permitted := by
  refine ⟨List.nodup_singleton _, fun w hw => ?_⟩
  rw [List.mem_singleton.mp hw]
  exact h

/-- Setting a state either follows the table or leaves the row. -/
theorem state_getD_setState (row : VMSession) (next : SessionState) (now : ℕ) :
    ((row.setState next now).getD row).state = row.state ∨
      validateTransition row.state ((row.setState next now).getD row).state = true := by
  cases h : row.setState next now with
  | none => exact .inl rfl
  | some changed =>
    obtain ⟨hedge, hstate, -⟩ := setState_eq_some h
    exact .inr (hstate ▸ hedge)

/-- A heartbeat changes the state along the table or not at all. -/
theorem legally_heartbeat (known : Option VMSession) (id : ℕ) (next : Option SessionState) :
    Legally permitted (heartbeat known id next : M σ (Option VMSession)) := by
  refine legally_bind (legally_find known id) fun found => ?_
  cases found with
  | none => exact legally_pure none
  | some row =>
    have hcommit : ∀ moved : VMSession, moved.state = row.state ∨
        validateTransition row.state moved.state = true → Legally permitted (do
          let t ← issue .read
          let changed := { moved with lastHeartbeatAt := some t.now, updatedAt := t.now }
          let _ ← issue (.commit [⟨row, changed⟩])
          return some changed : M σ (Option VMSession)) := by
      intro moved hmoved
      refine legally_bind (legally_issue trivial) fun t => ?_
      exact legally_bind (legally_issue (legal_heartbeat hmoved)) fun _ => legally_pure _
    dsimp only
    split
    · exact legally_pure none
    · cases next with
      | none => exact hcommit row (.inl rfl)
      | some next =>
        refine legally_bind (legally_issue trivial) fun t => ?_
        exact hcommit _ (state_getD_setState row next t.now)

/-- What `reconnect` does once the token is verified. -/
theorem legally_resume (row : VMSession) (id : ℕ) :
    Legally permitted (do
      if ← markReconnecting (some row) id then
        let _ ← markActive none id
        publish (reconnectSuccess row)
        find none id
      else
        publish (reconnectFailure row)
        return none : M σ (Option VMSession)) := by
  refine legally_bind (legally_markReconnecting (some row) id) fun moved => ?_
  cases moved with
  | false => exact legally_bind (legally_publish .failure) fun _ => legally_pure none
  | true =>
    refine legally_bind (legally_markActive none id) fun _ => ?_
    exact legally_bind (legally_publish .success) fun _ => legally_find none id

/-- A reconnect is legal where a token may be verified. -/
theorem legally_reconnect (h : permitted) (known : Option VMSession) (id : ℕ) (token : String)
    (userId : ℕ) : Legally permitted (reconnect d known id token userId) := by
  refine legally_bind (legally_find known id) fun found => ?_
  cases found with
  | none => exact legally_pure none
  | some row =>
    refine legally_bind (legally_issue h) fun t => ?_
    split
    · exact legally_resume row id
    · exact legally_pure none

/-- A sweep updates each row once, along the table. -/
theorem legal_sweepWrites {selects : ℕ → VMSession → Bool} {next : SessionState}
    {reason : Option String} {t : State σ} :
    (Stmt.commit (sweepWrites selects next reason t)).Legal permitted := by
  refine ⟨nodup_sweepWrites, fun w hw => ?_⟩
  obtain ⟨-, -, hchanged⟩ := mem_sweepWrites.mp hw
  obtain ⟨hedge, hstate, -⟩ := setState_eq_some hchanged
  exact .inr (hstate ▸ hedge)

/-- What a sweep publishes is about one of the sessions that it moved. -/
theorem legally_sweep {selects : ℕ → VMSession → Bool} {next : SessionState}
    {reason : Option String} {after : ℕ → M σ Unit}
    (hafter : VMSession → ∀ n, Legally permitted (after n)) :
    Legally permitted (sweep selects next reason after) := by
  refine legally_bind (legally_issue trivial) fun t => ?_
  dsimp only
  split
  · rename_i hcount
    obtain ⟨w, -⟩ := List.exists_mem_of_length_pos (Nat.pos_of_ne_zero hcount)
    refine legally_bind (legally_issue (legal_sweepWrites)) fun _ => ?_
    exact legally_bind (hafter w.loaded _) fun _ => legally_pure _
  · exact legally_pure _

/-- Finding a session for a caller commits nothing. -/
theorem legally_getSessionForUser (id : ℕ) (caller : Caller) :
    Legally permitted (getSessionForUser id caller : M σ (Option VMSession)) :=
  legally_bind (legally_issue trivial) fun _ => legally_pure _

/-- Raising an error is legal. -/
theorem legally_throw {α : Type} (e : Exc) : Legally permitted (.throw e : M σ α) := trivial

/-- A heartbeat that answers with an error is legal. -/
theorem legally_heartbeatOr409 (row : VMSession) (id : ℕ) (next : Option SessionState) :
    Legally permitted (do
      match ← heartbeat (some row) id next with
      | none => .throw (.http 409 "Session is not heartbeat-eligible")
      | some _ => return () : M σ Unit) := by
  refine legally_bind (legally_heartbeat (some row) id next) fun updated => ?_
  cases updated with
  | none => exact legally_throw _
  | some _ => exact legally_pure ()

/-- The heartbeat endpoint is legal. -/
theorem legally_sessionHeartbeat (id : ℕ) (state : Option String) (caller : Caller) :
    Legally permitted (sessionHeartbeat id state caller : M σ Unit) := by
  refine legally_bind (legally_getSessionForUser id caller) fun found => ?_
  cases found with
  | none => exact legally_throw _
  | some row =>
    cases state with
    | none => exact legally_heartbeatOr409 row id none
    | some text =>
      dsimp only
      split
      · exact legally_heartbeatOr409 row id none
      · cases SessionState.ofText text with
        | error e => exact legally_throw e
        | ok next => exact legally_heartbeatOr409 row id (some next)

/-- The reconnect endpoint is legal where a token may be verified. -/
theorem legally_sessionReconnect (h : permitted) (id : ℕ) (token : String) (caller : Caller) :
    Legally permitted (sessionReconnect d id token caller) := by
  refine legally_bind (legally_getSessionForUser id caller) fun found => ?_
  cases found with
  | none => exact legally_throw _
  | some row =>
    refine legally_bind (legally_reconnect h (some row) id token caller.userId) fun updated => ?_
    cases updated with
    | none => exact legally_throw _
    | some _ => exact legally_pure ()

/-- Dropping a result does not change what a program commits. -/
theorem legally_discard {α : Type} {prog : M σ α} (h : Legally permitted prog) :
    Legally permitted (discard prog) :=
  legally_bind h fun _ => legally_pure ()

/-- The calls that verify a token. -/
def Request.Verifies : Request → Prop
  | .reconnect _ _ _ _ => True
  | .sessionReconnect _ _ _ => True
  | _ => False

variable (d) in
/-- Every call commits legal updates only. -/
theorem legally_program (r : Request) (h : r.Verifies → permitted) :
    Legally permitted (program d r) := by
  cases r with
  | createLaunchingSession new =>
    exact legally_bind (legally_issue trivial) fun _ => legally_publish .created
  | markActive known id => exact legally_discard (legally_markActive known id)
  | markFailed known id reason =>
    exact legally_discard
      (legally_mark (fun _ => legally_pure ()) (fun _ => legally_pure ()) known id)
  | markDisconnected known id =>
    exact legally_discard
      (legally_mark (fun _ => legally_pure ()) (fun _ => legally_pure ()) known id)
  | markReconnecting known id => exact legally_discard (legally_markReconnecting known id)
  | markExpired known id =>
    exact legally_discard
      (legally_mark (fun _ => legally_pure ()) (fun _ => legally_publish .expired) known id)
  | heartbeat known id next => exact legally_discard (legally_heartbeat known id next)
  | reconnect known id token userId =>
    exact legally_discard (legally_reconnect (h trivial) known id token userId)
  | sessionHeartbeat id state caller => exact legally_sessionHeartbeat id state caller
  | sessionReconnect id token caller => exact legally_sessionReconnect (h trivial) id token caller
  | expireStaleSessions seconds =>
    exact legally_discard (legally_sweep fun s count => legally_publish (s := s) (.cleanup count))
  | expireReconnectingSessions seconds =>
    exact legally_discard (legally_sweep fun _ _ => legally_pure ())
  | failStuckLaunching seconds =>
    exact legally_discard (legally_sweep fun _ _ => legally_pure ())

/-! ## Published events -/

/-- In every run the published events are about sessions, if they were at its start. -/
theorem events_of_reach {t : State σ} {w : World (signature σ) (State σ)}
    (hr : World.Reach (system d) (World.idle t) w)
    (ht : ∀ event ∈ t.events, ∃ s, PublishedAbout s event) :
    ∀ event ∈ w.shared.events, ∃ s, PublishedAbout s event := by
  have hprogram : ∀ r, Legally True (program d r) := fun r => legally_program d r fun _ => trivial
  induction hr with
  | refl => exact ht
  | @tail u v hu hs ih =>
    have hissues : World.Issues (Stmt.Legal True) u := World.issues_of_reach hprogram hu
    obtain ⟨hdoes, -⟩ := hissues.step hprogram hs
    revert hdoes
    generalize v.shared = t'
    intro hdoes
    cases hdoes with
    | enter r h => exact ih
    | stmt p q hq h =>
      cases q with
      | publish event =>
        intro event' hmem
        rcases List.mem_append.mp hmem with hmem | hmem
        · exact ih event' hmem
        · rw [List.mem_singleton.mp hmem]
          exact hq
      | read => exact ih
      | commit writes => exact ih
      | create new => exact ih
      | verify token sessionId userId protocol => exact ih
    | call p c r t' h => exact c.elim
    | leave p => exact ih
    | env t' h =>
      obtain ⟨now, -, rfl⟩ := h
      exact ih

/-! ## Committed states -/

/-- Every session is still there, in the same state or in one that the table allows from it. -/
def FollowsTable (t t' : State σ) : Prop :=
  ∀ id row, t.sessions.get? id = some row → ∃ row', t'.sessions.get? id = some row' ∧
    (row'.state = row.state ∨ validateTransition row.state row'.state = true)

/-- In every run, every change of a committed state is an edge of the table from the state
that was committed before. -/
def StatesFollow (sys : System (signature σ) (State σ) Request) (t : State σ) : Prop :=
  ∀ w w', World.Reach sys (World.idle t) w → World.Step sys w w' →
    FollowsTable w.shared w'.shared

/-- In every run, a session in a terminal state stays in it. -/
def TerminalStays (sys : System (signature σ) (State σ) Request) (t : State σ) : Prop :=
  ∀ w w', World.Reach sys (World.idle t) w → World.Reach sys w w' →
    ∀ id row, w.shared.sessions.get? id = some row → row.state.terminal = true →
      ∃ row', w'.shared.sessions.get? id = some row' ∧ row'.state = row.state

/-- A terminal state has no edge, so where the states follow the table it is never left. -/
theorem StatesFollow.terminalStays {sys : System (signature σ) (State σ) Request} {t : State σ}
    (h : StatesFollow sys t) : TerminalStays sys t := by
  intro w w' hw hreach id row hget hterminal
  induction hreach with
  | refl => exact ⟨row, hget, rfl⟩
  | @tail u v hu hs ih =>
    obtain ⟨row₁, hget₁, hstate₁⟩ := ih
    obtain ⟨row₂, hget₂, hstate₂⟩ := h u v (hw.trans hu) hs id row₁ hget₁
    refine ⟨row₂, hget₂, ?_⟩
    rcases hstate₂ with hsame | hedge
    · exact hsame.trans hstate₁
    · have hnone : sessionTransitions row₁.state = [] := by
        rw [hstate₁]
        exact (terminal_iff _).mp hterminal
      unfold validateTransition at hedge
      rw [hnone] at hedge
      cases hedge

/-! ### Commits that find what was read -/

/-- Every state change that a statement commits finds the session in the state that was read, or
already in the one that it writes. -/
def Stmt.Current (q : Stmt) (t : State σ) : Prop :=
  match q with
  | .commit writes =>
    ∀ w ∈ writes, w.changed.state ≠ w.loaded.state →
      ∀ row, t.sessions.get? w.loaded.id = some row →
        row.state = w.loaded.state ∨ row.state = w.changed.state
  | _ => True

/-- The runs in which every commit of a state change is current. -/
def currentSystem (d : Deployment σ) : System (signature σ) (State σ) Request :=
  (system d).restrict (fun _ _ => True) (fun _ q t => q.Current t) fun _ _ _ => True

/-- Where the sessions stay they follow the table. -/
theorem followsTable_of_eq {t t' : State σ} (h : t'.sessions = t.sessions) :
    FollowsTable t t' := by
  intro id row hget
  rw [h]
  exact ⟨row, hget, .inl rfl⟩

variable (d) in
/-- A legal and current commit moves the sessions along the table. -/
theorem followsTable_commit {writes : List Write} {t : State σ}
    (hlegal : (Stmt.commit writes).Legal permitted) (hcurrent : (Stmt.commit writes).Current t) :
    FollowsTable t (d.exec (.commit writes) t) := by
  intro id row hget
  have hsessions : (d.exec (.commit writes) t).sessions = applyWrites t.sessions writes := rfl
  rw [hsessions]
  by_cases hmem : ∃ w ∈ writes, w.loaded.id = id
  · obtain ⟨w, hw, rfl⟩ := hmem
    have hget' := get?_applyWrites_of_mem t.sessions hlegal.1 hw
    rw [hget] at hget'
    refine ⟨w.apply row, hget', ?_⟩
    rw [apply_state]
    by_cases hsame : w.changed.state = w.loaded.state
    · rw [hsame, column_unchanged]
      exact .inl rfl
    · have hcolumn : column w.loaded.state w.changed.state row.state = w.changed.state :=
        if_neg hsame
      rw [hcolumn]
      rcases hcurrent w hw hsame row hget with hread | hwritten
      · rcases hlegal.2 w hw with heq | hedge
        · exact absurd heq hsame
        · exact .inr (hread ▸ hedge)
      · exact .inl hwritten.symm
  · have hother : ∀ w ∈ writes, w.loaded.id ≠ id := fun w hw heq => hmem ⟨w, hw, heq⟩
    rw [get?_applyWrites_of_notMem hother]
    exact ⟨row, hget, .inl rfl⟩

variable (d) in
/-- A new session leaves the others as they are. -/
theorem followsTable_create (new : NewSession) (t : State σ) :
    FollowsTable t (d.exec (.create new) t) := by
  intro id row hget
  have hadmits : t.sessions.reserve.Admits (new.row t.now t.sessions.next) :=
    Table.admits_reserve rfl
  have hrow : (d.exec (.create new) t).sessions.get? id = some row := by
    show (t.sessions.reserve.append (new.row t.now t.sessions.next) hadmits).get? id = _
    rw [Table.get?_append, if_neg, Table.get?_reserve, hget]
    intro heq
    have hlt := Table.lt_next_of_get? hget
    have hid : (new.row t.now t.sessions.next).id = t.sessions.next := rfl
    omega
  exact ⟨row, hrow, .inl rfl⟩

/-- In every run whose commits are all current, the committed states follow the table, and
terminal states are never left. -/
theorem currentSystem_follows (d : Deployment σ) (t : State σ) :
    StatesFollow (currentSystem d) t ∧ TerminalStays (currentSystem d) t := by
  have hfollow : StatesFollow (currentSystem d) t := by
    intro w w' hw hs
    have hprogram : ∀ r, Legally True (program d r) := fun r => legally_program d r fun _ => trivial
    have hissues : World.Issues (Stmt.Legal True) w := World.issues_of_reach hprogram hw
    obtain ⟨hdoes, -⟩ := hissues.step hprogram hs
    revert hdoes
    generalize w'.shared = t'
    intro hdoes
    cases hdoes with
    | enter r h => exact followsTable_of_eq rfl
    | stmt p q hq h =>
      cases q with
      | read => exact followsTable_of_eq rfl
      | commit writes => exact followsTable_commit d hq h.2
      | create new => exact followsTable_create d new w.shared
      | verify token sessionId userId protocol => exact followsTable_of_eq rfl
      | publish event => exact followsTable_of_eq rfl
    | call p c r t' h => exact c.elim
    | leave p => exact followsTable_of_eq rfl
    | env t' h =>
      obtain ⟨now, -, rfl⟩ := h
      exact followsTable_of_eq rfl
  exact ⟨hfollow, hfollow.terminalStays⟩

/-! ### A sweep and a tunnel that ends -/

namespace Race

/-- The system can be played. -/
def player (d : Deployment σ) : Player (system d) where
  decEnabled := fun _ _ _ => .isTrue trivial
  admits := fun _ _ => trivial
  deliver := fun _ c _ _ => c.elim
  deliver_answer := fun _ c _ _ => c.elim
  wait := fun n t => { t with now := t.now + n }
  wait_env := fun n t => ⟨t.now + n, Nat.le_add_right _ _, rfl⟩

/-- An active session that was last heard of twenty minutes ago. -/
def start : State Unit where
  sessions := ⟨[{ Leak.row with state := .active }], 2, by decide, by decide⟩
  now := 1200000000
  used := ()
  events := []

/-- The tunnel has read the session and the clock when the sweep runs to its end. -/
def sweeping : List (Move (signature Unit) Request) :=
  [.spawn (.markDisconnected none 1), .run 0 2 fun c => c.elim,
    .spawn (.expireStaleSessions 900), .run 1 3 fun c => c.elim]

/-- Then the tunnel commits. -/
def committing : List (Move (signature Unit) Request) := [.run 0 1 fun c => c.elim]

def stateOf (w : World (signature Unit) (State Unit)) : Option SessionState :=
  (w.shared.sessions.get? 1).map VMSession.state

set_option maxRecDepth 100000 in
/-- The sweep expires the session, and then the tunnel commits it as disconnected. -/
theorem played :
    ((player Leak.deployment).play (World.idle start) sweeping).any (fun w =>
      stateOf w = some .expired ∧ ((player Leak.deployment).play w committing).any fun w' =>
        stateOf w' = some .disconnected) = true := by
  decide +kernel

/-- A tunnel that read before a sweep takes a session from an end state. -/
theorem not_statesFollow : ¬ StatesFollow (system Leak.deployment) start := by
  intro h
  have hplayed := played
  obtain ⟨w, hw, hP⟩ := (player Leak.deployment).exists_of_play hplayed
  obtain ⟨hexpired, hplayed'⟩ := of_decide_eq_true hP
  obtain ⟨w', hw', hP'⟩ := (player Leak.deployment).exists_of_play hplayed'
  have hdisconnected : stateOf w' = some .disconnected := of_decide_eq_true hP'
  obtain ⟨row, hget, hstate⟩ := Option.map_eq_some_iff.mp hexpired
  obtain ⟨row', hget', hstate'⟩ := Option.map_eq_some_iff.mp hdisconnected
  have hterminal : row.state.terminal = true := by
    rw [hstate]
    rfl
  obtain ⟨row'', hget'', hsame⟩ := h.terminalStays w w' hw hw' 1 row hget hterminal
  rw [hget'] at hget''
  cases hget''
  rw [hstate, hstate'] at hsame
  cases hsame

end Race

end LabGoblin.Sessions
