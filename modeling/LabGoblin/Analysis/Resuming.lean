import LabGoblin.Analysis.ReplayOnce
import LabGoblin.Analysis.SessionRaces
import LabGoblin.Model.Tunnels

/-!
# Resuming a session

A session that was disconnected can only become active from the state reconnecting. Of the
calls that are served, `reconnect` takes it there and on with a token; a heartbeat that asks for
the state active takes a reconnecting session there without one. A tunnel marks its session active
by the object that it has of the row, which may say launching or reconnecting when the row does
not any more. Where no heartbeat meets a reconnecting session, and no tunnel marks one active that
is not launching, a token is needed.
-/

set_option autoImplicit false

namespace LabGoblin.Sessions

open Interactive
open Reconnect (Verifier Presented ReplayBackend buildReplayStore Created)
open Tunnels (Tunnel)

variable {σ : Type} {d : Deployment σ}

/-! ## Runs of calls one after the other -/

/-- The object that the tunnel of each session has of its row. -/
abbrev Objects := ℕ → Option VMSession

/-- The calls of the session endpoints, of the console tunnels and of the session worker. A tunnel
calls the service with the object that it has. -/
def Request.Served (objects : Objects) : Request → Prop
  | .markActive known id => known = objects id
  | .markFailed known id _ => known = objects id
  | .markDisconnected known id => known = objects id
  | .heartbeat known id next => known = objects id ∧ next = none
  | .markReconnecting _ _ => False
  | .markExpired _ _ => False
  | .reconnect _ _ _ _ => False
  | _ => True

/-- The session whose tunnel makes the call, and what the call does to the tunnel. -/
def Request.onTunnel (now : ℕ) : Request → Option (ℕ × (Tunnel → Tunnel))
  | .markActive _ id => some (id, fun tunnel => (tunnel.mark .active none now).2)
  | .markFailed _ id reason => some (id, fun tunnel => (tunnel.mark .failed reason now).2)
  | .markDisconnected _ id => some (id, fun tunnel => (tunnel.mark .disconnected none now).2)
  | .heartbeat _ id _ => some (id, fun tunnel => tunnel.heartbeat now)
  | _ => none

/-- What becomes of the object that the tunnel of a session has. -/
def Objects.change (objects : Objects) (t : State σ) (id : ℕ) (f : Tunnel → Tunnel) : Objects :=
  match t.sessions.get? id with
  | none => objects
  | some row => Function.update objects id (f ⟨row, objects id⟩).known

/-- The objects after a call. -/
def Objects.after (objects : Objects) (t : State σ) (r : Request) : Objects :=
  match r.onTunnel t.now with
  | none => objects
  | some (id, f) => objects.change t id f

/-- The call of `verify_reconnect` that a request makes. -/
def presentedBy (r : Request) (t : State σ) : List Presented :=
  match r with
  | .sessionReconnect id token caller =>
    match (t.sessions.get? id).filter caller.sees with
    | none => []
    | some row => [presented t.now token id caller.userId row.protocol]
  | _ => []

/-- A run of served calls one after the other, between which the clock goes on and the tunnels load
and expire their objects: the states before, the latest first, the calls of `verify_reconnect` in
order, the objects of the tunnels, and the state reached. -/
inductive Run (d : Deployment σ) (ok : Request → State σ → Prop) (start : State σ) :
    List (State σ) → List Presented → Objects → State σ → Prop
  | start : Run d ok start [] [] (fun _ => none) start
  | call {past : List (State σ)} {calls : List Presented} {objects : Objects} {t t' : State σ}
      {r : Request} {result : Except Exc Unit} (before : Run d ok start past calls objects t)
      (hserved : r.Served objects) (hok : ok r t)
      (h : Ends d.machine 0 (program d r) t result t') :
      Run d ok start (t :: past) (calls ++ presentedBy r t) (objects.after t r) t'
  | tick {past : List (State σ)} {calls : List Presented} {objects : Objects} {t t' : State σ}
      (before : Run d ok start past calls objects t) (h : Tick t t') :
      Run d ok start (t :: past) calls objects t'
  | load {past : List (State σ)} {calls : List Presented} {objects : Objects} {t : State σ}
      (before : Run d ok start past calls objects t) (id : ℕ) :
      Run d ok start past calls (objects.change t id fun tunnel => tunnel.after .load) t
  | expireAll {past : List (State σ)} {calls : List Presented} {objects : Objects} {t : State σ}
      (before : Run d ok start past calls objects t) (id : ℕ) :
      Run d ok start past calls (objects.change t id fun tunnel => tunnel.after .expireAll) t

/-- In every run, a session that has been disconnected becomes active only in a reconnect call
for it whose token verifies for the session, the user and the protocol, and was not
accepted before. -/
def ResumesByToken (d : Deployment σ) (ok : Request → State σ → Prop) (start : State σ) :
    Prop :=
  ∀ past calls objects t r result t', Run d ok start past calls objects t → r.Served objects →
    ok r t → Ends d.machine 0 (program d r) t result t' →
    ∀ id row row', t.sessions.get? id = some row → row.state ≠ .active →
      t'.sessions.get? id = some row' → row'.state = .active →
      (∃ u ∈ t :: past, ∃ row₀, u.sessions.get? id = some row₀ ∧ row₀.state = .disconnected) →
      ∃ token caller tokenId expiresAt, r = .sessionReconnect id token caller ∧
        d.verifier.checked (presented t.now token id caller.userId row.protocol) =
          .ok (tokenId, expiresAt) ∧
        tokenId ∉ d.verifier.accepted calls (d.verifier.run d.store calls start.used)

/-- No heartbeat asks for the state active for a reconnecting session of its caller. -/
def BeatKeepsToToken (r : Request) (t : State σ) : Prop :=
  match r with
  | .sessionHeartbeat id state caller =>
    state = some "active" →
      ∀ row, (t.sessions.get? id).filter caller.sees = some row → row.state ≠ .reconnecting
  | _ => True

/-- Where a tunnel can mark its session active by the object that it has, the session is
launching, or active already. -/
def TunnelKeepsToToken (r : Request) (t : State σ) : Prop :=
  match r with
  | .markActive known id =>
    ∀ row, t.sessions.get? id = some row →
      validateTransition (known.getD row).state .active = true →
        row.state = .launching ∨ row.state = .active
  | _ => True

/-- No tunnel and no heartbeat makes a session active that needs a token. -/
def KeepsToToken (r : Request) (t : State σ) : Prop :=
  BeatKeepsToToken r t ∧ TunnelKeepsToToken r t

/-- A run under a stronger condition. -/
theorem Run.mono {ok ok' : Request → State σ → Prop} {start t : State σ} {past : List (State σ)}
    {calls : List Presented} {objects : Objects} (himp : ∀ r t, ok r t → ok' r t)
    (h : Run d ok start past calls objects t) : Run d ok' start past calls objects t := by
  induction h with
  | start => exact .start
  | call before hserved hok h ih => exact .call ih hserved (himp _ _ hok) h
  | tick before h ih => exact .tick ih h
  | load before id ih => exact .load ih id
  | expireAll before id ih => exact .expireAll ih id

/-- What holds of all runs holds of those under a condition. -/
theorem ResumesByToken.mono {ok ok' : Request → State σ → Prop} {start : State σ}
    (h : ResumesByToken d ok' start) (himp : ∀ r t, ok r t → ok' r t) :
    ResumesByToken d ok start :=
  fun _ _ _ _ _ _ _ hrun hserved hok => h _ _ _ _ _ _ _ (hrun.mono himp) hserved (himp _ _ hok)

/-- A statement runs at once, and the rest sees the state it was made in. -/
theorem ends_issue_bind_iff {β : Type} {q : Stmt} {f : State σ → M σ β} {t t' : State σ}
    {r : Except Exc β} :
    Ends d.machine 0 (issue q >>= f) t r t' ↔ Ends d.machine 0 (f t) (d.exec q t) r t' := by
  refine Iff.trans (ends_run_bind_iff (M := d.machine)) ?_
  exact and_iff_right trivial

/-! ## A disconnected session is not launching again -/

/-- The session is there, and not launching. -/
def Launched (id : ℕ) (t : State σ) : Prop :=
  ∃ row, t.sessions.get? id = some row ∧ row.state ≠ .launching

/-- No transition leads to the state launching. -/
theorem state_ne_launching_of_edge {s s' : SessionState} (h : validateTransition s s' = true) :
    s' ≠ .launching := by
  rintro rfl
  cases s <;> cases h

/-- Legal statements leave no session launching that was not. -/
theorem launched_exec {id : ℕ} {q : Stmt} {t : State σ} (hq : q.Legal True) (h : Launched id t) :
    Launched id (d.exec q t) := by
  obtain ⟨row, hget, hstate⟩ := h
  cases q with
  | read => exact ⟨row, hget, hstate⟩
  | verify token sessionId userId protocol => exact ⟨row, hget, hstate⟩
  | publish event => exact ⟨row, hget, hstate⟩
  | create new =>
    obtain ⟨row', hget', hsame⟩ := followsTable_create d new t id row hget
    refine ⟨row', hget', ?_⟩
    rcases hsame with hsame | hedge
    · rw [hsame]
      exact hstate
    · exact state_ne_launching_of_edge hedge
  | commit writes =>
    by_cases hmem : ∃ w ∈ writes, w.loaded.id = id
    · obtain ⟨w, hw, rfl⟩ := hmem
      have hget' := get?_applyWrites_of_mem t.sessions hq.1 hw
      rw [hget] at hget'
      refine ⟨w.apply row, hget', ?_⟩
      rw [apply_state]
      unfold column
      split
      · exact hstate
      · rename_i hchanged
        rcases hq.2 w hw with heq | hedge
        · exact absurd heq hchanged
        · exact state_ne_launching_of_edge hedge
    · have hother : ∀ w ∈ writes, w.loaded.id ≠ id := fun w hw heq => hmem ⟨w, hw, heq⟩
      exact ⟨row, (get?_applyWrites_of_notMem hother).trans hget, hstate⟩

/-- A session that is there and not launching is so after every call. -/
theorem launched_of_ends {id : ℕ} {r : Request} {result : Except Exc Unit} {t t' : State σ}
    (h : Ends d.machine 0 (program d r) t result t') (ht : Launched id t) : Launched id t' := by
  refine h.preserves (legally_program d r fun _ => trivial) ?_ ?_ ht
  · exact fun q t hq _ ht => launched_exec hq ht
  · exact fun c => c.elim

/-- A session that was not launching at some moment of a run is not launching at its end. -/
theorem Run.launched {ok : Request → State σ → Prop} {start t : State σ}
    {past : List (State σ)} {calls : List Presented} {objects : Objects}
    (h : Run d ok start past calls objects t) {id : ℕ} {u : State σ} (hu : u ∈ t :: past)
    (hlaunched : Launched id u) : Launched id t := by
  induction h with
  | start =>
    rw [List.mem_singleton.mp hu] at hlaunched
    exact hlaunched
  | call before hserved hok h ih =>
    rcases List.mem_cons.mp hu with rfl | hu
    · exact hlaunched
    · exact launched_of_ends h (ih hu)
  | tick before h ih =>
    rcases List.mem_cons.mp hu with rfl | hbefore
    · exact hlaunched
    · obtain ⟨now, -, rfl⟩ := h
      exact ih hbefore
  | load before id ih => exact ih hu
  | expireAll before id ih => exact ih hu

/-! ## What cannot make a session active -/

/-- The session is not there, or not active. -/
def Inactive (id : ℕ) (t : State σ) : Prop :=
  ∀ row, t.sessions.get? id = some row → row.state ≠ .active

/-- A statement that does not write the state active to the session. -/
def Stmt.SparesActive (id : ℕ) : Stmt → Prop
  | .commit writes =>
    ∀ w ∈ writes, w.loaded.id = id → w.changed.state = .active → w.loaded.state = .active
  | _ => True

/-- Writes none of which makes the session active leave it inactive, by induction on them. -/
theorem inactive_applyWrites {id : ℕ} {writes : List Write}
    {sessions : Table VMSession VMSession.id}
    (hwrites : (Stmt.commit writes).SparesActive id)
    (h : ∀ row, sessions.get? id = some row → row.state ≠ .active) (row : VMSession)
    (hget : (applyWrites sessions writes).get? id = some row) : row.state ≠ .active := by
  induction writes generalizing sessions with
  | nil => exact h row hget
  | cons w ws ih =>
    refine ih (fun w' hw' => hwrites w' (List.mem_cons_of_mem w hw')) ?_ hget
    intro row' hget'
    rw [Table.get?_update] at hget'
    by_cases hid : id = w.loaded.id
    · rw [if_pos hid] at hget'
      obtain ⟨current, hcurrent, rfl⟩ := Option.map_eq_some_iff.mp hget'
      rw [apply_state]
      unfold column
      split
      · exact h current hcurrent
      · rename_i hchanged
        intro hactive
        have hloaded := hwrites w List.mem_cons_self hid.symm hactive
        exact hchanged (hactive.trans hloaded.symm)
    · rw [if_neg hid] at hget'
      exact h row' hget'

/-- A statement that does not make the session active leaves it inactive. -/
theorem inactive_exec {id : ℕ} {q : Stmt} {t : State σ} (hq : q.SparesActive id)
    (h : Inactive id t) : Inactive id (d.exec q t) := by
  cases q with
  | read => exact h
  | verify token sessionId userId protocol => exact h
  | publish event => exact h
  | commit writes => exact fun row hget => inactive_applyWrites hq h row hget
  | create new =>
    intro row hget
    have hadmits : t.sessions.reserve.Admits (new.row t.now t.sessions.next) :=
      Table.admits_reserve rfl
    have hget' : (t.sessions.reserve.append (new.row t.now t.sessions.next) hadmits).get? id =
        some row := hget
    rw [Table.get?_append] at hget'
    split at hget'
    · cases hget'
      exact SessionState.noConfusion
    · exact h row hget'

/-- Whatever the program is shown, it does not write the state active to the session. -/
abbrev Spares {α : Type} (id : ℕ) (prog : M σ α) : Prop :=
  Program.Ensures (G := signature σ) (Stmt.SparesActive id) (fun _ => True) (fun _ => True) prog

/-- A program of one statement spares the session when the statement does. -/
theorem spares_issue {id : ℕ} {q : Stmt} (h : q.SparesActive id) :
    Spares id (issue q : M σ (State σ)) := ⟨h, fun _ => trivial⟩

/-- A return spares every session. -/
theorem spares_pure {α : Type} {id : ℕ} (a : α) : Spares id (pure a : M σ α) := trivial

/-- A raised error spares every session. -/
theorem spares_throw {α : Type} {id : ℕ} (e : Exc) : Spares id (.throw e : M σ α) := trivial

/-- Two programs that spare the session do so in sequence. -/
theorem spares_bind {α β : Type} {id : ℕ} {prog : M σ α} {f : α → M σ β} (h : Spares id prog)
    (hf : ∀ a, Spares id (f a)) : Spares id (prog >>= f) := by
  rw [Spares, Program.ensures_bind]
  exact h.mono (fun _ hq => hq) (fun _ hc => hc) fun a _ => hf a

/-- Publishing an event spares every session. -/
theorem spares_publish {id : ℕ} (event : DomainEvent) : Spares id (publish event : M σ Unit) :=
  spares_bind (spares_issue trivial) fun _ => spares_pure ()

/-- Dropping a result does not change what a program spares. -/
theorem spares_discard {α : Type} {id : ℕ} {prog : M σ α} (h : Spares id prog) :
    Spares id (discard prog) :=
  spares_bind h fun _ => spares_pure ()

/-- The object that a unit of work has of a row is of that row. -/
def Knows (known : Option VMSession) (sessionId : ℕ) : Prop :=
  ∀ row, known = some row → row.id = sessionId

/-- Without an object there is nothing to be wrong about. -/
theorem knows_none (sessionId : ℕ) : Knows none sessionId := by
  intro row h
  cases h

/-- An object of a row is of that row. -/
theorem knows_some {row : VMSession} {sessionId : ℕ} (h : row.id = sessionId) :
    Knows (some row) sessionId := by
  intro row' h'
  cases h'
  exact h

/-- A query for a row, after which the program may rely on the key of what it has. -/
theorem spares_find_bind {β : Type} {id sessionId : ℕ} {known : Option VMSession}
    (hknown : Knows known sessionId) {f : Option VMSession → M σ β}
    (hnone : Spares id (f none)) (hsome : ∀ row, row.id = sessionId → Spares id (f (some row))) :
    Spares id (find known sessionId >>= f) := by
  unfold find
  rw [bind_assoc]
  refine spares_bind (spares_issue trivial) fun t => ?_
  rw [pure_bind]
  cases hget : t.sessions.get? sessionId with
  | none => exact hnone
  | some row =>
    cases known with
    | none => exact hsome row (Table.get?_key hget)
    | some known => exact hsome known (hknown known rfl)

/-- A mark spares the session when it writes another state, or another session. -/
theorem spares_mark {id sessionId : ℕ} {next : SessionState} {reason : Option String}
    {before after : VMSession → M σ Unit} {known : Option VMSession}
    (hknown : Knows known sessionId)
    (h : next ≠ .active ∨ sessionId ≠ id) (hbefore : ∀ row, Spares id (before row))
    (hafter : ∀ row, Spares id (after row)) :
    Spares id (mark next reason before after known sessionId) := by
  refine spares_find_bind hknown (spares_pure false) fun row hrow => ?_
  refine spares_bind (hbefore row) fun _ => ?_
  refine spares_bind (spares_issue trivial) fun t => ?_
  cases hset : row.setState next t.now reason with
  | none => exact spares_pure false
  | some changed =>
    have hcommit : (Stmt.commit [⟨row, changed⟩]).SparesActive id := by
      intro w hw hid hactive
      rw [List.mem_singleton.mp hw] at hid hactive
      rcases h with h | h
      · exact absurd ((setState_eq_some hset).2.1.symm.trans hactive) h
      · exact absurd (hrow.symm.trans hid) h
    refine spares_bind (spares_issue hcommit) fun _ => ?_
    exact spares_bind (hafter row) fun _ => spares_pure true

/-- A heartbeat spares the session when it asks for another state, or is of another session. -/
theorem spares_heartbeat {id sessionId : ℕ} {known : Option VMSession}
    (hknown : Knows known sessionId) {next : Option SessionState}
    (h : next ≠ some .active ∨ sessionId ≠ id) :
    Spares id (heartbeat known sessionId next : M σ (Option VMSession)) := by
  refine spares_find_bind hknown (spares_pure none) fun row hrow => ?_
  have hcommit : ∀ moved : VMSession,
      (moved.state = .active → row.state = .active ∨ row.id ≠ id) → Spares id (do
        let t ← issue .read
        let changed := { moved with lastHeartbeatAt := some t.now, updatedAt := t.now }
        let _ ← issue (.commit [⟨row, changed⟩])
        return some changed : M σ (Option VMSession)) := by
    intro moved hmoved
    refine spares_bind (spares_issue trivial) fun t => ?_
    refine spares_bind (spares_issue ?_) fun _ => spares_pure _
    intro w hw hid hactive
    rw [List.mem_singleton.mp hw] at hid hactive ⊢
    exact (hmoved hactive).resolve_right fun hne => hne hid
  dsimp only
  split
  · exact spares_pure none
  · cases next with
    | none => exact hcommit row .inl
    | some next =>
      refine spares_bind (spares_issue trivial) fun t => ?_
      refine hcommit _ fun hactive => ?_
      rcases h with h | h
      · left
        rcases state_getD_setState row next t.now with hsame | hedge
        · exact hsame.symm.trans hactive
        · cases hset : row.setState next t.now with
          | none =>
            rw [hset] at hactive
            exact hactive
          | some changed =>
            rw [hset] at hactive
            have hnext := (setState_eq_some hset).2.1
            exact absurd (congrArg some (hnext.symm.trans hactive)) h
      · right
        rw [hrow]
        exact h

/-- A sweep spares every session when it writes another state than active. -/
theorem spares_sweep {id : ℕ} {selects : ℕ → VMSession → Bool} {next : SessionState}
    {reason : Option String} {after : ℕ → M σ Unit} (h : next ≠ .active)
    (hafter : ∀ n, Spares id (after n)) : Spares id (sweep selects next reason after) := by
  refine spares_bind (spares_issue trivial) fun t => ?_
  have hcommit : (Stmt.commit (sweepWrites selects next reason t)).SparesActive id := by
    intro w hw _ hactive
    obtain ⟨-, -, hchanged⟩ := mem_sweepWrites.mp hw
    exact absurd ((setState_eq_some hchanged).2.1.symm.trans hactive) h
  dsimp only
  split
  · refine spares_bind (spares_issue hcommit) fun _ => ?_
    exact spares_bind (hafter _) fun _ => spares_pure _
  · exact spares_pure _

/-- A text that is read as a state is the value of that state. -/
theorem value_of_ofText {text : String} {state : SessionState}
    (h : SessionState.ofText text = .ok state) : state.value = text := by
  unfold SessionState.ofText at h
  split at h
  · rename_i found hfound
    cases h
    have hvalue := List.find?_some hfound
    exact of_decide_eq_true hvalue
  · cases h

/-- The calls that may write the state active to a session. -/
def Request.MayActivate (id : ℕ) : Request → Prop
  | .markActive _ sessionId => sessionId = id
  | .sessionHeartbeat sessionId state _ => sessionId = id ∧ state = some "active"
  | .sessionReconnect sessionId _ _ => sessionId = id
  | _ => False

/-- A query for a row that the caller sees. -/
theorem spares_getSessionForUser_bind {β : Type} {id sessionId : ℕ} {caller : Caller}
    {f : Option VMSession → M σ β} (hnone : Spares id (f none))
    (hsome : ∀ row, row.id = sessionId → Spares id (f (some row))) :
    Spares id (getSessionForUser sessionId caller >>= f) := by
  unfold getSessionForUser
  rw [bind_assoc]
  refine spares_bind (spares_issue trivial) fun t => ?_
  rw [pure_bind]
  cases hget : (t.sessions.get? sessionId).filter caller.sees with
  | none => exact hnone
  | some row =>
    obtain ⟨hrow, -⟩ := Option.filter_eq_some_iff.mp hget
    exact hsome row (Table.get?_key hrow)

/-- The heartbeat endpoint spares the session unless it asks for the state active for it. -/
theorem spares_sessionHeartbeat {id sessionId : ℕ} {state : Option String} {caller : Caller}
    (h : ¬ (sessionId = id ∧ state = some "active")) :
    Spares id (sessionHeartbeat sessionId state caller : M σ Unit) := by
  unfold sessionHeartbeat
  refine spares_getSessionForUser_bind ?_ fun row hrow => ?_
  · exact spares_throw _
  have hrest : ∀ next, next ≠ some .active ∨ sessionId ≠ id → Spares id (do
      match ← heartbeat (some row) sessionId next with
      | none => .throw (.http 409 "Session is not heartbeat-eligible")
      | some _ => return () : M σ Unit) := by
    intro next hnext
    refine spares_bind (spares_heartbeat (knows_some hrow) hnext) fun updated => ?_
    cases updated with
    | none => exact spares_throw _
    | some _ => exact spares_pure ()
  have hneither : state ≠ some "active" ∨ sessionId ≠ id := by
    by_cases hid : sessionId = id
    · exact .inl fun hstate => h ⟨hid, hstate⟩
    · exact .inr hid
  cases state with
  | none => exact hrest none (.inl nofun)
  | some text =>
    dsimp only
    split
    · exact hrest none (.inl nofun)
    · cases htext : SessionState.ofText text with
      | error e => exact spares_throw e
      | ok next =>
        refine hrest (some next) (hneither.imp (fun hne hnext => hne ?_) fun hid => hid)
        have hvalue := value_of_ofText htext
        rw [Option.some.inj hnext] at hvalue
        exact congrArg some hvalue.symm

/-- A reconnect of another session spares this one. -/
theorem spares_reconnect {id sessionId : ℕ} {row : VMSession} (hrow : row.id = sessionId)
    (h : sessionId ≠ id) (token : String) (userId : ℕ) :
    Spares id (reconnect d (some row) sessionId token userId) := by
  unfold reconnect
  refine spares_find_bind (knows_some hrow) (spares_pure none) fun row' hrow' => ?_
  refine spares_bind (spares_issue trivial) fun t => ?_
  split
  · have hattempt : Spares id (markReconnecting (some row') sessionId : M σ Bool) :=
      spares_mark (knows_some hrow') (.inl nofun) (fun _ => spares_publish _)
        fun _ => spares_pure ()
    have hactive : Spares id (markActive none sessionId : M σ Bool) :=
      spares_mark (knows_none sessionId) (.inr h) (fun _ => spares_pure ())
        fun _ => spares_publish _
    refine spares_bind hattempt fun moved => ?_
    cases moved with
    | false => exact spares_bind (spares_publish _) fun _ => spares_pure none
    | true =>
      refine spares_bind hactive fun _ => ?_
      refine spares_bind (spares_publish _) fun _ => ?_
      exact spares_bind (spares_issue trivial) fun _ => spares_pure _
  · exact spares_pure none

/-- The reconnect endpoint spares every session but its own. -/
theorem spares_sessionReconnect {id sessionId : ℕ} (h : sessionId ≠ id) (token : String)
    (caller : Caller) : Spares id (sessionReconnect d sessionId token caller) := by
  unfold sessionReconnect
  refine spares_getSessionForUser_bind ?_ fun row hrow => ?_
  · exact spares_throw _
  refine spares_bind (spares_reconnect hrow h token caller.userId) fun updated => ?_
  cases updated with
  | none => exact spares_throw _
  | some _ => exact spares_pure ()

/-- Every other served call spares the session. -/
theorem spares_program {id : ℕ} {objects : Objects} {r : Request} (hserved : r.Served objects)
    (hknows : ∀ sessionId, Knows (objects sessionId) sessionId) (h : ¬ r.MayActivate id) :
    Spares id (program d r) := by
  cases r with
  | createLaunchingSession new =>
    exact spares_bind (spares_issue trivial) fun _ => spares_publish _
  | markActive known sessionId =>
    obtain rfl : known = objects sessionId := hserved
    exact spares_discard (spares_mark (hknows sessionId) (.inr h) (fun _ => spares_pure ())
      fun _ => spares_publish _)
  | markFailed known sessionId reason =>
    obtain rfl : known = objects sessionId := hserved
    exact spares_discard (spares_mark (hknows sessionId) (.inl nofun) (fun _ => spares_pure ())
      fun _ => spares_pure ())
  | markDisconnected known sessionId =>
    obtain rfl : known = objects sessionId := hserved
    exact spares_discard (spares_mark (hknows sessionId) (.inl nofun) (fun _ => spares_pure ())
      fun _ => spares_pure ())
  | markReconnecting known sessionId => exact hserved.elim
  | markExpired known sessionId => exact hserved.elim
  | heartbeat known sessionId next =>
    obtain ⟨rfl, rfl⟩ : known = objects sessionId ∧ next = none := hserved
    exact spares_discard (spares_heartbeat (hknows sessionId) (.inl nofun))
  | reconnect known sessionId token userId => exact hserved.elim
  | sessionHeartbeat sessionId state caller => exact spares_sessionHeartbeat h
  | sessionReconnect sessionId token caller => exact spares_sessionReconnect h token caller
  | expireStaleSessions seconds =>
    exact spares_discard (spares_sweep nofun fun _ => spares_publish _)
  | expireReconnectingSessions seconds =>
    exact spares_discard (spares_sweep nofun fun _ => spares_pure ())
  | failStuckLaunching seconds =>
    exact spares_discard (spares_sweep nofun fun _ => spares_pure ())

/-- A call that spares the session leaves it inactive. -/
theorem inactive_of_spares {id : ℕ} {r : Request} {result : Except Exc Unit} {t t' : State σ}
    (h : Ends d.machine 0 (program d r) t result t') (hspares : Spares id (program d r))
    (ht : Inactive id t) : Inactive id t' := by
  refine h.preserves hspares ?_ ?_ ht
  · exact fun q t hq _ ht => inactive_exec hq ht
  · exact fun c => c.elim

/-! ## The calls for the session itself -/

/-- Finding a row gives the object that the unit of work has of it, where the row is there. -/
theorem ends_find_bind_iff {β : Type} {known : Option VMSession} {id : ℕ}
    {f : Option VMSession → M σ β} {t t' : State σ} {r : Except Exc β} :
    Ends d.machine 0 (find known id >>= f) t r t' ↔
      Ends d.machine 0 (f ((t.sessions.get? id).map known.getD)) t r t' := by
  unfold find
  rw [bind_assoc, ends_issue_bind_iff, pure_bind]
  rfl

/-- Finding a session for a caller gives the row when the caller sees it. -/
theorem ends_getSessionForUser_bind_iff {β : Type} {id : ℕ} {caller : Caller}
    {f : Option VMSession → M σ β} {t t' : State σ} {r : Except Exc β} :
    Ends d.machine 0 (getSessionForUser id caller >>= f) t r t' ↔
      Ends d.machine 0 (f ((t.sessions.get? id).filter caller.sees)) t r t' := by
  unfold getSessionForUser
  rw [bind_assoc, ends_issue_bind_iff, pure_bind]
  rfl

/-- A heartbeat cannot make a session active that has no edge to active. -/
theorem ends_heartbeat_refused {id : ℕ} {t t' : State σ} {row : VMSession}
    {result : Except Exc (Option VMSession)} (hget : t.sessions.get? id = some row)
    (hedge : validateTransition row.state .active = false) (hinactive : row.state ≠ .active)
    (h : Ends d.machine 0 (heartbeat (some row) id (some .active)) t result t') :
    Inactive id t' := by
  have hstays : Inactive id t := by
    intro row' hget'
    rw [hget] at hget'
    cases hget'
    exact hinactive
  unfold heartbeat at h
  rw [ends_find_bind_iff, hget] at h
  dsimp only [Option.map_some, Option.getD_some] at h
  split at h
  · rw [(ends_pure_iff.mp h).2]
    exact hstays
  · rw [ends_issue_bind_iff, pure_bind, setState_eq_none hedge] at h
    rw [ends_issue_bind_iff, ends_issue_bind_iff] at h
    rw [(ends_pure_iff.mp h).2]
    refine inactive_exec ?_ hstays
    intro w hw _ hactive
    rw [List.mem_singleton.mp hw] at hactive ⊢
    exact hactive

/-- A heartbeat that asks for the state active leaves the session inactive where the table of
transitions has no such edge. -/
theorem ends_sessionHeartbeat_refused {id : ℕ} {caller : Caller} {t t' : State σ}
    {result : Except Exc Unit} (hinactive : Inactive id t)
    (hedge : ∀ row, (t.sessions.get? id).filter caller.sees = some row →
      validateTransition row.state .active = false)
    (h : Ends d.machine 0 (sessionHeartbeat id (some "active") caller) t result t') :
    Inactive id t' := by
  unfold sessionHeartbeat at h
  rw [ends_getSessionForUser_bind_iff] at h
  cases hfound : (t.sessions.get? id).filter caller.sees with
  | none =>
    rw [hfound] at h
    cases h
    exact hinactive
  | some row =>
    have hget : t.sessions.get? id = some row := (Option.filter_eq_some_iff.mp hfound).1
    have htext : SessionState.ofText "active" = .ok .active := by decide
    have hne : ("active" : String) ≠ "" := by decide
    rw [hfound] at h
    dsimp only at h
    rw [if_neg hne, htext] at h
    change Ends d.machine 0 (heartbeat (some row) id (some .active) >>= _) t result t' at h
    rcases ends_bind_iff.mp h with ⟨updated, u, hu, hrest⟩ | ⟨e, he, -⟩
    · have hbeat := ends_heartbeat_refused hget (hedge row hfound) (hinactive row hget) hu
      cases updated with
      | none =>
        cases hrest
        exact hbeat
      | some _ =>
        rw [(ends_pure_iff.mp hrest).2]
        exact hbeat
    · exact ends_heartbeat_refused hget (hedge row hfound) (hinactive row hget) he

/-! ## The tunnels -/

/-- A program that leaves the sessions as they are. -/
def SparesSessions (d : Deployment σ) (prog : M σ Unit) : Prop :=
  ∀ t r t', Ends d.machine 0 prog t r t' → t'.sessions = t.sessions

/-- Doing nothing leaves the sessions. -/
theorem sparesSessions_pure : SparesSessions d (pure ()) := by
  intro t r t' h
  rw [(ends_pure_iff.mp h).2]

/-- Publishing an event leaves the sessions. -/
theorem sparesSessions_publish (event : DomainEvent) : SparesSessions d (publish event) := by
  intro t r t' h
  unfold publish at h
  rw [ends_issue_bind_iff] at h
  rw [(ends_pure_iff.mp h).2]
  rfl

/-- Running a program for its effects has its effects. -/
theorem ends_discard {α : Type} {prog : M σ α} {t t' : State σ} {result : Except Exc Unit}
    (h : Ends d.machine 0 (discard prog) t result t') :
    ∃ result', Ends d.machine 0 prog t result' t' := by
  rcases ends_bind_iff.mp h with ⟨a, u, hu, hrest⟩ | ⟨e, he, -⟩
  · rw [(ends_pure_iff.mp hrest).2]
    exact ⟨_, hu⟩
  · exact ⟨_, he⟩

/-- The update of a row by its id. -/
theorem get?_applyWrites_singleton {sessions : Table VMSession VMSession.id} {w : Write} {id : ℕ}
    {row : VMSession} (hget : sessions.get? id = some row) (hid : w.loaded.id = id) :
    (applyWrites sessions [w]).get? id = some (w.apply row) := by
  subst hid
  have hnodup : (List.map (fun w : Write => w.loaded.id) [w]).Nodup := List.nodup_singleton _
  rw [get?_applyWrites_of_mem sessions hnodup (List.mem_singleton_self w), hget]
  rfl

section Tunnels

variable {id : ℕ} {known : Option VMSession} {row : VMSession} {t t' : State σ}

/-- What a tunnel has of its row is a version of that row. -/
theorem object_id {tunnel : Tunnel} (hrow : tunnel.row.id = id) (hknown : Knows tunnel.known id) :
    tunnel.object.id = id := by
  unfold Tunnel.object
  cases hobject : tunnel.known with
  | none => exact hrow
  | some object => exact hknown object hobject

/-- A `mark_*` does to the row what it does to the tunnel that calls it. -/
theorem row_of_mark {next : SessionState} {reason : Option String} {after : VMSession → M σ Unit}
    {result : Except Exc Bool} (hget : t.sessions.get? id = some row) (hknown : Knows known id)
    (hafter : ∀ row, SparesSessions d (after row))
    (h : Ends d.machine 0 (mark next reason nothing after known id) t result t') :
    t'.sessions.get? id = some (Tunnel.mark ⟨row, known⟩ next reason t.now).2.row := by
  have hid : (Tunnel.object ⟨row, known⟩).id = id :=
    object_id (Table.get?_key hget) hknown
  unfold mark nothing at h
  rw [ends_find_bind_iff, hget] at h
  dsimp only [Option.map_some] at h
  rw [pure_bind, ends_issue_bind_iff] at h
  unfold Tunnel.mark
  unfold Tunnel.object at hid ⊢
  dsimp only at hid ⊢
  cases hset : (known.getD row).setState next t.now reason with
  | none =>
    rw [hset] at h
    rw [(ends_pure_iff.mp h).2]
    exact hget
  | some changed =>
    rw [hset] at h
    dsimp only at h
    rw [ends_issue_bind_iff] at h
    have hsessions : t'.sessions = applyWrites t.sessions [⟨known.getD row, changed⟩] := by
      rcases ends_bind_iff.mp h with ⟨u, v, hv, hrest⟩ | ⟨e, he, -⟩
      · rw [(ends_pure_iff.mp hrest).2]
        exact hafter _ _ _ _ hv
      · exact hafter _ _ _ _ he
    rw [hsessions]
    exact get?_applyWrites_singleton hget hid

/-- A heartbeat without a state does to the row what it does to the tunnel that sends it. -/
theorem row_of_heartbeat {result : Except Exc (Option VMSession)}
    (hget : t.sessions.get? id = some row) (hknown : Knows known id)
    (h : Ends d.machine 0 (heartbeat known id none) t result t') :
    t'.sessions.get? id = some (Tunnel.heartbeat ⟨row, known⟩ t.now).row := by
  have hid : (Tunnel.object ⟨row, known⟩).id = id :=
    object_id (Table.get?_key hget) hknown
  unfold heartbeat at h
  rw [ends_find_bind_iff, hget] at h
  dsimp only [Option.map_some] at h
  unfold Tunnel.heartbeat
  unfold Tunnel.object at hid ⊢
  dsimp only at hid ⊢
  split at h
  · rename_i hclosed
    rw [if_pos hclosed, (ends_pure_iff.mp h).2]
    exact hget
  · rename_i hopen
    rw [if_neg hopen]
    rw [pure_bind, ends_issue_bind_iff, ends_issue_bind_iff] at h
    rw [(ends_pure_iff.mp h).2]
    exact get?_applyWrites_singleton hget hid

/-- A call of a tunnel does to the row of the session what it does to the tunnel: the programs of
the methods and the model of one tunnel agree. -/
theorem row_of_tunnel {objects : Objects} {r : Request} {f : Tunnel → Tunnel}
    {result : Except Exc Unit} (hserved : r.Served objects) (hknows : Knows (objects id) id)
    (htunnel : r.onTunnel t.now = some (id, f)) (hget : t.sessions.get? id = some row)
    (h : Ends d.machine 0 (program d r) t result t') :
    t'.sessions.get? id = some (f ⟨row, objects id⟩).row := by
  cases r with
  | markActive known sessionId =>
    obtain rfl : known = objects sessionId := hserved
    cases htunnel
    obtain ⟨_, h⟩ := ends_discard h
    exact row_of_mark hget hknows (fun _ => sparesSessions_publish _) h
  | markFailed known sessionId reason =>
    obtain rfl : known = objects sessionId := hserved
    cases htunnel
    obtain ⟨_, h⟩ := ends_discard h
    exact row_of_mark hget hknows (fun _ => sparesSessions_pure) h
  | markDisconnected known sessionId =>
    obtain rfl : known = objects sessionId := hserved
    cases htunnel
    obtain ⟨_, h⟩ := ends_discard h
    exact row_of_mark hget hknows (fun _ => sparesSessions_pure) h
  | heartbeat known sessionId next =>
    obtain ⟨rfl, rfl⟩ : known = objects sessionId ∧ next = none := hserved
    cases htunnel
    obtain ⟨_, h⟩ := ends_discard h
    exact row_of_heartbeat hget hknows h
  | _ => cases htunnel

/-- A tunnel whose object has no edge to active does not mark the row. -/
theorem mark_active_refused (h : validateTransition (known.getD row).state .active = false)
    (now : ℕ) : (Tunnel.mark ⟨row, known⟩ .active none now).2.row = row := by
  unfold Tunnel.mark Tunnel.object
  dsimp only
  rw [setState_eq_none h]

/-- A change of a tunnel that leaves it with an object of its row. -/
theorem knows_change {objects : Objects} {f : Tunnel → Tunnel} {sessionId : ℕ}
    (hknows : ∀ id, Knows (objects id) id)
    (hf : ∀ tunnel object, (f tunnel).known = some object → object = tunnel.object) :
    Knows (objects.change t sessionId f id) id := by
  unfold Objects.change
  cases hget : t.sessions.get? sessionId with
  | none => exact hknows id
  | some row =>
    by_cases hid : id = sessionId
    · subst hid
      dsimp only
      rw [Function.update_self]
      intro object hobject
      rw [hf _ object hobject]
      exact object_id (Table.get?_key hget) (hknows id)
    · dsimp only
      rw [Function.update_of_ne hid]
      exact hknows id

/-- An object that a tunnel still has after a mark is the one that it had of the row. -/
theorem known_mark (tunnel : Tunnel) (next : SessionState) (reason : Option String) (now : ℕ)
    (object : VMSession) (h : (tunnel.mark next reason now).2.known = some object) :
    object = tunnel.object := by
  unfold Tunnel.mark at h
  split at h
  · exact (Option.some.inj h).symm
  · cases h

/-- An object that a tunnel still has after a heartbeat is the one that it had of the row. -/
theorem known_heartbeat (tunnel : Tunnel) (now : ℕ) (object : VMSession)
    (h : (tunnel.heartbeat now).known = some object) : object = tunnel.object := by
  unfold Tunnel.heartbeat at h
  split at h
  · exact (Option.some.inj h).symm
  · cases h

/-- In every run the tunnels have objects of their own rows. -/
theorem Run.knows {ok : Request → State σ → Prop} {start : State σ} {past : List (State σ)}
    {calls : List Presented} {objects : Objects} (h : Run d ok start past calls objects t) :
    ∀ id, Knows (objects id) id := by
  induction h with
  | start => exact fun id => knows_none id
  | @call past calls objects t t' r result before hserved hok h ih =>
    intro id
    unfold Objects.after
    cases htunnel : r.onTunnel t.now with
    | none => exact ih id
    | some change =>
      refine knows_change ih ?_
      cases r with
      | markActive known sessionId =>
        cases htunnel
        exact fun tunnel => known_mark tunnel _ _ _
      | markFailed known sessionId reason =>
        cases htunnel
        exact fun tunnel => known_mark tunnel _ _ _
      | markDisconnected known sessionId =>
        cases htunnel
        exact fun tunnel => known_mark tunnel _ _ _
      | heartbeat known sessionId next =>
        cases htunnel
        exact fun tunnel => known_heartbeat tunnel _
      | _ => cases htunnel
  | tick before h ih => exact ih
  | load before id ih =>
    exact fun _ => knows_change ih fun tunnel object h => (Option.some.inj h).symm
  | expireAll before id ih => exact fun _ => knows_change ih fun tunnel object h => by cases h

end Tunnels

/-! ## The replay store along a run -/

/-- The replay store and the clock are as they were. -/
def SameStore (used : σ) (now : ℕ) (t : State σ) : Prop := t.used = used ∧ t.now = now

/-- A statement that does not verify a token leaves the replay store and the clock. -/
theorem sameStore_exec {used : σ} {now : ℕ} {q : Stmt} {t : State σ} (hq : q.Legal False)
    (h : SameStore used now t) : SameStore used now (d.exec q t) := by
  cases q with
  | verify token sessionId userId protocol => exact hq.elim
  | read => exact h
  | commit writes => exact h
  | create new => exact h
  | publish event => exact h

/-- A program that does not verify tokens leaves the replay store and the clock. -/
theorem sameStore_of_ends {α : Type} {prog : M σ α} {result : Except Exc α} {t t' : State σ}
    {used : σ} {now : ℕ} (h : Ends d.machine 0 prog t result t') (hprog : Legally False prog)
    (ht : SameStore used now t) : SameStore used now t' := by
  refine h.preserves hprog ?_ ?_ ht
  · exact fun q t hq _ ht => sameStore_exec hq ht
  · exact fun c => c.elim

/-- `reconnect` verifies the token once, and goes no further when that fails. -/
theorem ends_reconnect {id userId : ℕ} {token : String} {t t' : State σ}
    {result : Except Exc (Option VMSession)} {row : VMSession}
    (hget : t.sessions.get? id = some row)
    (h : Ends d.machine 0 (reconnect d (some row) id token userId) t result t') :
    SameStore (d.usedAfter t token id userId row.protocol) t.now t' ∧
      (d.verified t token id userId row.protocol = false → t'.sessions = t.sessions) := by
  have hstart : SameStore (d.usedAfter t token id userId row.protocol) t.now
      (d.exec (.verify token id userId row.protocol) t) := ⟨rfl, rfl⟩
  unfold reconnect at h
  rw [ends_find_bind_iff, hget] at h
  dsimp only [Option.map_some, Option.getD_some] at h
  rw [ends_issue_bind_iff] at h
  split at h
  · rename_i hverified
    refine ⟨sameStore_of_ends h (legally_resume row id) hstart, fun hnot => ?_⟩
    rw [hverified] at hnot
    cases hnot
  · obtain ⟨-, rfl⟩ := ends_pure_iff.mp h
    exact ⟨hstart, fun _ => rfl⟩

/-- The endpoint does what `reconnect` does for a row that the caller sees. -/
theorem ends_sessionReconnect {id : ℕ} {token : String} {caller : Caller} {t t' : State σ}
    {result : Except Exc Unit} {row : VMSession}
    (hfound : (t.sessions.get? id).filter caller.sees = some row)
    (h : Ends d.machine 0 (sessionReconnect d id token caller) t result t') :
    SameStore (d.usedAfter t token id caller.userId row.protocol) t.now t' ∧
      (d.verified t token id caller.userId row.protocol = false → t'.sessions = t.sessions) := by
  have hget : t.sessions.get? id = some row := (Option.filter_eq_some_iff.mp hfound).1
  unfold sessionReconnect at h
  rw [ends_getSessionForUser_bind_iff, hfound] at h
  dsimp only at h
  rcases ends_bind_iff.mp h with ⟨updated, u, hu, hrest⟩ | ⟨e, he, -⟩
  · have hdone := ends_reconnect hget hu
    cases updated with
    | none =>
      cases hrest
      exact hdone
    | some _ =>
      rw [(ends_pure_iff.mp hrest).2]
      exact hdone
  · exact ends_reconnect hget he

/-- A reconnect of a session that its caller does not see changes nothing. -/
theorem ends_sessionReconnect_unseen {id : ℕ} {token : String} {caller : Caller}
    {t t' : State σ} {result : Except Exc Unit}
    (hfound : (t.sessions.get? id).filter caller.sees = none)
    (h : Ends d.machine 0 (sessionReconnect d id token caller) t result t') : t' = t := by
  unfold sessionReconnect at h
  rw [ends_getSessionForUser_bind_iff, hfound] at h
  cases h
  rfl

/-- A call leaves in the replay store what its call of `verify_reconnect` leaves there. -/
theorem used_of_ends {r : Request} {objects : Objects} {result : Except Exc Unit}
    {t t' : State σ} (hserved : r.Served objects) (h : Ends d.machine 0 (program d r) t result t') :
    SameStore (d.verifier.leaves d.store (presentedBy r t) t.used) t.now t' := by
  have hother : (¬ r.Verifies) → SameStore t.used t.now t' := fun hnot =>
    sameStore_of_ends h (legally_program d r hnot) ⟨rfl, rfl⟩
  cases r with
  | sessionReconnect id token caller =>
    cases hfound : (t.sessions.get? id).filter caller.sees with
    | none =>
      have hcalls : presentedBy (.sessionReconnect id token caller) t = [] := by
        simp only [presentedBy, hfound]
      rw [hcalls, ends_sessionReconnect_unseen hfound h]
      exact ⟨rfl, rfl⟩
    | some row =>
      have hcalls : presentedBy (.sessionReconnect id token caller) t =
          [presented t.now token id caller.userId row.protocol] := by
        simp only [presentedBy, hfound]
      rw [hcalls]
      exact (ends_sessionReconnect hfound h).1
  | reconnect known id token userId => exact hserved.elim
  | createLaunchingSession new => exact hother id
  | markActive known sessionId => exact hother id
  | markFailed known sessionId reason => exact hother id
  | markDisconnected known sessionId => exact hother id
  | markReconnecting known sessionId => exact hother id
  | markExpired known sessionId => exact hother id
  | heartbeat known sessionId next => exact hother id
  | sessionHeartbeat sessionId state caller => exact hother id
  | expireStaleSessions seconds => exact hother id
  | expireReconnectingSessions seconds => exact hother id
  | failStuckLaunching seconds => exact hother id

/-- What the replay store and the clock are in a run, by the calls of `verify_reconnect` so
far. -/
theorem Run.store {ok : Request → State σ → Prop} {start t : State σ} {past : List (State σ)}
    {calls : List Presented} {objects : Objects} (h : Run d ok start past calls objects t) :
    t.used = d.verifier.leaves d.store calls start.used ∧
      (calls.Pairwise fun c c' => c.now ≤ c'.now) ∧ ∀ c ∈ calls, c.now ≤ t.now := by
  induction h with
  | start => exact ⟨rfl, List.Pairwise.nil, fun c hc => absurd hc List.not_mem_nil⟩
  | @call past calls objects t t' r result before hserved hok h ih =>
    obtain ⟨hused, hsorted, hbefore⟩ := ih
    obtain ⟨hused', hnow⟩ := used_of_ends hserved h
    have hpresented : ∀ c ∈ presentedBy r t, c.now = t.now := by
      intro c hc
      cases r with
      | sessionReconnect id token caller =>
        unfold presentedBy at hc
        dsimp only at hc
        split at hc
        · cases hc
        · rw [List.mem_singleton.mp hc]
          rfl
      | _ => cases hc
    refine ⟨?_, ?_, ?_⟩
    · rw [hused', hused, Reconnect.leaves_append]
    · refine List.pairwise_append.mpr ⟨hsorted, ?_, fun c hc c' hc' => ?_⟩
      · refine List.pairwise_of_forall_mem_list fun c hc c' hc' => ?_
        rw [hpresented c hc, hpresented c' hc']
      · rw [hpresented c' hc']
        exact hbefore c hc
    · intro c hc
      rw [hnow]
      rcases List.mem_append.mp hc with hc | hc
      · exact hbefore c hc
      · exact (hpresented c hc).le
  | tick before h ih =>
    obtain ⟨now, hle, rfl⟩ := h
    exact ⟨ih.1, ih.2.1, fun c hc => (ih.2.2 c hc).trans hle⟩
  | load before id ih => exact ih
  | expireAll before id ih => exact ih

/-! ## The result -/

/-- Only a launching or a reconnecting session can become active. -/
theorem edge_active {s : SessionState} (hlaunching : s ≠ .launching)
    (hreconnecting : s ≠ .reconnecting) : validateTransition s .active = false := by
  cases s with
  | launching => exact absurd rfl hlaunching
  | reconnecting => exact absurd rfl hreconnecting
  | active => rfl
  | disconnected => rfl
  | expired => rfl
  | failed => rfl

/-- A session that was disconnected is not launching. -/
theorem Run.ne_launching {ok : Request → State σ → Prop} {start t : State σ}
    {past : List (State σ)} {calls : List Presented} {objects : Objects}
    (h : Run d ok start past calls objects t) {id : ℕ} {row : VMSession}
    (hget : t.sessions.get? id = some row)
    (hdisconnected : ∃ u ∈ t :: past, ∃ row₀, u.sessions.get? id = some row₀ ∧
      row₀.state = .disconnected) : row.state ≠ .launching := by
  obtain ⟨u, hu, row₀, hget₀, hstate₀⟩ := hdisconnected
  have hlaunched₀ : Launched id u := by
    refine ⟨row₀, hget₀, ?_⟩
    rw [hstate₀]
    exact SessionState.noConfusion
  obtain ⟨row₁, hget₁, hstate₁⟩ := h.launched hu hlaunched₀
  rw [hget] at hget₁
  cases hget₁
  exact hstate₁

/-- A token that verifies in a run was not accepted before. -/
theorem Run.fresh_of_verified {backend : ReplayBackend} {v : Verifier} {created : Created → Prop}
    (hv : v.Documented created) {ok : Request → State backend.Entries → Prop}
    {start t : State backend.Entries} (hempty : start.used = backend.empty)
    {past : List (State backend.Entries)} {calls : List Presented} {objects : Objects}
    (h : Run ⟨v, buildReplayStore backend⟩ ok start past calls objects t) {token protocol : String}
    {sessionId userId : ℕ}
    (hverified : Deployment.verified ⟨v, buildReplayStore backend⟩ t token sessionId userId
      protocol = true) :
    ∃ tokenId expiresAt,
      v.checked (presented t.now token sessionId userId protocol) = .ok (tokenId, expiresAt) ∧
        tokenId ∉ v.accepted calls (v.run (buildReplayStore backend) calls start.used) := by
  obtain ⟨hused, hsorted, hbefore⟩ := h.store
  have horder : (calls ++ [presented t.now token sessionId userId protocol]).Pairwise
      fun c c' => c.now ≤ c'.now := by
    refine List.pairwise_append.mpr ⟨hsorted, List.pairwise_singleton _ _, ?_⟩
    intro c hc c' hc'
    rw [List.mem_singleton.mp hc']
    exact hbefore c hc
  have hnodup := Reconnect.accepted_nodup_of_build backend hv horder
  unfold Deployment.verified at hverified
  rw [hused] at hverified
  rw [← hempty] at hnodup
  exact Reconnect.notMem_accepted hnodup hverified

/-- Where no heartbeat meets a reconnecting session and no tunnel marks one active that is not
launching, every disconnected session needs a token that verifies and was not used before. -/
theorem resumesByToken_of_keepsToToken (backend : ReplayBackend) (v : Verifier)
    (created : Created → Prop) (hv : v.Documented created) (start : State backend.Entries)
    (hempty : start.used = backend.empty) :
    ResumesByToken ⟨v, buildReplayStore backend⟩ KeepsToToken start := by
  intro past calls objects t r result t' hrun hserved hok hends id row row' hget hstate hget'
    hactive hdisconnected
  have hsame : ∀ row₁, t.sessions.get? id = some row₁ → row₁ = row := by
    intro row₁ hget₁
    rw [hget] at hget₁
    exact (Option.some.inj hget₁).symm
  have hinactive : Inactive id t := fun row₁ hget₁ => hsame row₁ hget₁ ▸ hstate
  have hcontra : ¬ Inactive id t' := fun h => h row' hget' hactive
  have hlaunching := hrun.ne_launching hget hdisconnected
  by_cases hmay : r.MayActivate id
  · cases r with
    | markActive known sessionId =>
      have hid : sessionId = id := hmay
      subst hid
      have hknown : known = objects sessionId := hserved
      have hrow := row_of_tunnel hserved (hrun.knows sessionId) rfl hget hends
      have hrefused : validateTransition ((objects sessionId).getD row).state .active = false := by
        by_contra hedge
        rw [← hknown] at hedge
        rcases hok.2 row hget (Bool.eq_true_of_not_eq_false hedge) with hstill | hstill
        · exact hlaunching hstill
        · exact hstate hstill
      rw [mark_active_refused hrefused, hget'] at hrow
      cases hrow
      exact absurd hactive hstate
    | sessionHeartbeat sessionId state caller =>
      obtain ⟨hid, hactiveText⟩ : sessionId = id ∧ state = some "active" := hmay
      subst hid hactiveText
      refine absurd (ends_sessionHeartbeat_refused hinactive ?_ hends) hcontra
      intro row₁ hfound
      have hrow₁ := hsame row₁ (Option.filter_eq_some_iff.mp hfound).1
      subst hrow₁
      exact edge_active hlaunching (hok.1 rfl row₁ hfound)
    | sessionReconnect sessionId token caller =>
      have hid : sessionId = id := hmay
      subst hid
      cases hfound : (t.sessions.get? sessionId).filter caller.sees with
      | none =>
        rw [ends_sessionReconnect_unseen hfound hends] at hcontra
        exact absurd hinactive hcontra
      | some row₁ =>
        have hrow₁ := hsame row₁ (Option.filter_eq_some_iff.mp hfound).1
        subst hrow₁
        obtain ⟨-, hunverified⟩ := ends_sessionReconnect hfound hends
        cases hverified : Deployment.verified ⟨v, buildReplayStore backend⟩ t token sessionId
          caller.userId row₁.protocol with
        | false =>
          refine absurd (fun row₂ hget₂ => hinactive row₂ ?_) hcontra
          rw [← hunverified hverified]
          exact hget₂
        | true =>
          obtain ⟨tokenId, expiresAt, hchecked, hfresh⟩ :=
            hrun.fresh_of_verified hv hempty hverified
          exact ⟨token, caller, tokenId, expiresAt, rfl, hchecked, hfresh⟩
    | _ => exact hmay.elim
  · have hstill : Inactive id t' :=
      inactive_of_spares hends (spares_program hserved hrun.knows hmay) hinactive
    exact absurd hstill hcontra

/-! ### Two heartbeats -/

namespace Heartbeats

/-- The session of the sample token, disconnected. -/
def row : VMSession where
  id := 7
  organizationId := 1
  userId := 3
  vmId := 1
  protocol := "ssh"
  state := .disconnected
  createdAt := 0
  updatedAt := 0

def start : State ReplayBackend.memory.Entries where
  sessions := ⟨[row], 8, by decide, by decide⟩
  now := 1000000
  used := ReplayBackend.memory.empty
  events := []

def deployment : Deployment ReplayBackend.memory.Entries :=
  ⟨Reconnect.Sample.verifier, buildReplayStore .memory⟩

/-- From the state of the fixture, under the condition, sessions resume by token. -/
theorem resumesByToken_start : ResumesByToken deployment KeepsToToken start :=
  resumesByToken_of_keepsToToken .memory Reconnect.Sample.verifier (· = Reconnect.Sample.token)
    Reconnect.Sample.verifier_documented start rfl

/-- The owner of the session. -/
def owner : Caller := ⟨3, some .student, some 1, some .student⟩

def beat (state : String) : Request := .sessionHeartbeat 7 (some state) owner

instance (q : Stmt) (t : State ReplayBackend.memory.Entries) :
    Decidable (deployment.machine.enabled 0 q t) := .isTrue trivial

def stateOf (t : State ReplayBackend.memory.Entries) : Option SessionState :=
  (t.sessions.get? 7).map VMSession.state

/-! A session that heartbeats take through reconnecting. -/

set_option maxRecDepth 100000 in
/-- The heartbeats that ask for reconnecting and active do what they ask for. -/
theorem played_beats :
    (program deployment (beat "reconnecting")).passes deployment.machine 0 start (fun _ t =>
      stateOf t = some .reconnecting &&
        (program deployment (beat "active")).passes deployment.machine 0 t fun _ t' =>
          stateOf t' = some .active) = true := by
  decide +kernel

/-- What a test of the state says of the row. -/
theorem exists_row {t : State ReplayBackend.memory.Entries} {state : SessionState}
    (h : decide (stateOf t = some state) = true) :
    ∃ row, t.sessions.get? 7 = some row ∧ row.state = state :=
  Option.map_eq_some_iff.mp (of_decide_eq_true h : (t.sessions.get? 7).map _ = some state)

/-- A heartbeat that asks for reconnecting and one that asks for active resume a disconnected
session without a token, whatever the tunnels do. -/
theorem beats_resume : ¬ ResumesByToken deployment TunnelKeepsToToken start := by
  intro h
  obtain ⟨⟨⟩, t, hfirst, hP⟩ := exists_returns_of_passes played_beats
  obtain ⟨hreconnecting, hplayed⟩ := Bool.and_eq_true_iff.mp hP
  obtain ⟨⟨⟩, t', hsecond, hP'⟩ := exists_returns_of_passes hplayed
  obtain ⟨row₁, hget, hstate⟩ := exists_row hreconnecting
  obtain ⟨row₂, hget', hactive⟩ := exists_row hP'
  have hserved : (beat "reconnecting").Served fun _ => none := trivial
  have hstart : Run deployment TunnelKeepsToToken start [] [] (fun _ => none) start := .start
  have hrun := hstart.call hserved trivial hfirst
  have hinactive : row₁.state ≠ .active := by
    rw [hstate]
    exact SessionState.noConfusion
  obtain ⟨token, caller, tokenId, expiresAt, hr, -⟩ :=
    h _ _ _ t (beat "active") _ t' hrun trivial trivial hsecond 7 row₁ row₂ hget hinactive hget'
      hactive ⟨start, List.mem_cons_of_mem _ List.mem_cons_self, row, rfl, rfl⟩
  cases hr

/-! A session whose tunnel has loaded it before the first heartbeat. -/

/-- The state in which the tunnel loads its object. -/
def launching : State ReplayBackend.memory.Entries :=
  { start with sessions := ⟨[{ row with state := .launching }], 8, by decide, by decide⟩ }

/-- The objects of the tunnels: that of the session says launching. -/
def loaded : Objects :=
  Objects.change (fun _ => none) launching 7 fun tunnel => tunnel.after .load

/-- The first sync of the tunnel. -/
def sync : Request := .markActive (loaded 7) 7

set_option maxRecDepth 100000 in
/-- Heartbeats make the session active and disconnected, and the tunnel makes it active again. -/
theorem played_tunnel :
    (program deployment (beat "active")).passes deployment.machine 0 launching (fun _ t =>
      stateOf t = some .active &&
        (program deployment (beat "disconnected")).passes deployment.machine 0 t fun _ t' =>
          stateOf t' = some .disconnected &&
            (program deployment sync).passes deployment.machine 0 t' fun _ t'' =>
              stateOf t'' = some .active) = true := by
  decide +kernel

/-- A tunnel that has not seen that its session was disconnected marks it active without a
token, whatever state the heartbeats ask for. -/
theorem tunnel_resumes : ¬ ResumesByToken deployment BeatKeepsToToken launching := by
  intro h
  obtain ⟨⟨⟩, t, hfirst, hP⟩ := exists_returns_of_passes played_tunnel
  obtain ⟨-, hplayed⟩ := Bool.and_eq_true_iff.mp hP
  obtain ⟨⟨⟩, t', hsecond, hP'⟩ := exists_returns_of_passes hplayed
  obtain ⟨hdisconnected, hplayed'⟩ := Bool.and_eq_true_iff.mp hP'
  obtain ⟨⟨⟩, t'', hthird, hP''⟩ := exists_returns_of_passes hplayed'
  obtain ⟨row₁, hget, hstate⟩ := exists_row hdisconnected
  obtain ⟨row₂, hget', hactive⟩ := exists_row hP''
  have hstart : Run deployment BeatKeepsToToken launching [] [] (fun _ => none) launching := .start
  have hload := hstart.load 7
  have hok : BeatKeepsToToken (beat "active") launching := by
    intro _ row₀ hfound hreconnecting
    cases hfound
    cases hreconnecting
  have hok' : BeatKeepsToToken (beat "disconnected") t := by
    intro hasks
    exact absurd hasks (by decide)
  have hactivated := hload.call (r := beat "active") trivial hok hfirst
  have hrun := hactivated.call (r := beat "disconnected") trivial hok' hsecond
  have hinactive : row₁.state ≠ .active := by
    rw [hstate]
    exact SessionState.noConfusion
  obtain ⟨token, caller, tokenId, expiresAt, hr, -⟩ :=
    h _ _ _ t' sync _ t'' hrun rfl trivial hthird 7 row₁ row₂ hget hinactive hget' hactive
      ⟨t', List.mem_cons_self, row₁, hget, hstate⟩
  cases hr

/-- Neither is prevented by the service. -/
theorem not_resumesByToken : ¬ ResumesByToken deployment (fun _ _ => True) start :=
  fun h => beats_resume (h.mono fun _ _ _ => trivial)

end Heartbeats

end LabGoblin.Sessions
