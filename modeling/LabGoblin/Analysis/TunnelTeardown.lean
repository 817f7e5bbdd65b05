import LabGoblin.Analysis.SessionRows
import LabGoblin.Computation.Ending
import LabGoblin.Model.Tunnels

/-!
# The end of a tunnel

Whatever happened while a tunnel ran, its teardown takes the row out of the states that count as
live by a pair of transitions, of which one is permitted in most states that it can see. It fails
where it is left before these transitions, and where the unit of work still has an object from
which no transition leads although the row is live again.
-/

set_option autoImplicit false

namespace LabGoblin.Tunnels

open Raising
open Sessions (SessionState VMSession sessionTransitions validateTransition)

/-- The row counts as live. -/
def Tunnel.Live (t : Tunnel) : Prop := t.row.state ∈ liveStates

instance (t : Tunnel) : Decidable t.Live :=
  inferInstanceAs (Decidable (t.row.state ∈ liveStates))

/-- The method ends with a row that is not live, whether it returns or raises. -/
def EndsSettled (m : M Unit) (t : Tunnel) : Prop :=
  Ends m t (fun _ t' => ¬ t'.Live) fun _ t' => ¬ t'.Live

/-! ## The transitions -/

section Transitions

variable {t : Tunnel} {next : SessionState}

/-- A transition leads to another state. -/
theorem ne_of_transition {current : SessionState} (h : validateTransition current next = true) :
    next ≠ current := by
  rintro rfl
  revert h
  cases next <;> decide

/-- No transition leads to `launching`. -/
theorem ne_launching_of_transition {current : SessionState}
    (h : next ∈ sessionTransitions current) : next ≠ .launching := by
  rintro rfl
  revert h
  cases current <;> decide

/-- A permitted mark writes the row, of which the tunnel then has no object. -/
theorem mark_permitted (reason : Option String) (now : ℕ)
    (h : validateTransition t.object.state next = true) :
    ∃ row : VMSession, t.mark next reason now = (true, { row }) ∧ row.state = next := by
  cases hset : t.object.setState next now reason with
  | none =>
    have hsome := Sessions.setState_isSome t.object next now reason
    rw [hset, h] at hsome
    cases hsome
  | some changed =>
    have hstate := (Sessions.setState_eq_some hset).2.1
    refine ⟨Sessions.Write.apply ⟨t.object, changed⟩ t.row, ?_, ?_⟩
    · unfold Tunnel.mark
      rw [hset]
    · rw [Sessions.apply_state, hstate]
      exact if_neg (ne_of_transition h)

/-- A mark that is refused changes nothing, and the tunnel keeps its object. -/
theorem mark_refused (reason : Option String) (now : ℕ)
    (h : validateTransition t.object.state next = false) :
    t.mark next reason now = (false, { t with known := some t.object }) := by
  unfold Tunnel.mark
  rw [Sessions.setState_eq_none h]

/-- A mark returns whether it was permitted, and does not raise. -/
theorem ends_mark {reason : Option String} {now : ℕ} {ok : Bool → Tunnel → Prop}
    {raised : Exc → Tunnel → Prop} :
    Ends (mark next reason now) t ok raised ↔
      ok (t.mark next reason now).1 (t.mark next reason now).2 := Iff.rfl

end Transitions

/-! ## The end of a method -/

section Teardown

variable {t : Tunnel} {m : M Unit} {down : Teardown} {now : ℕ}

/-- Waiting changes no row. -/
theorem looks_await (outcome : Except Exc Unit) : Looks (await outcome) := by
  intro s
  cases outcome with
  | ok a => rfl
  | error e => rfl

/-- Waiting with some exceptions suppressed changes no row. -/
theorem looks_suppress (caught : List Exc) (outcome : Except Exc Unit) :
    Looks (suppress caught (await outcome)) := by
  intro s
  cases outcome with
  | ok a => rfl
  | error e =>
    unfold suppress
    rw [ends_tryCatch]
    by_cases hcaught : e ∈ caught
    · show Ends (if e ∈ caught then pure () else throw e) s _ _
      rw [if_pos hcaught]
      rfl
    · show Ends (if e ∈ caught then pure () else throw e) s _ _
      rw [if_neg hcaught]
      rfl

/-- A method that changes no row settles what was settled already. -/
theorem endsSettled_looks (h : Looks m) : EndsSettled m t ↔ ¬ t.Live :=
  h.ends_iff

/-- A clause that tries a transition and then leaves the row alone. -/
theorem ends_markThen {next : SessionState} {reason : Option String} {P : Tunnel → Prop}
    (h : Looks m) :
    Ends (mark next reason now >>= fun _ => m) t (fun _ u => P u) (fun _ u => P u) ↔
      P (t.mark next reason now).2 := by
  rw [ends_bind, ends_mark]
  exact h.ends_iff

/-- The pair of transitions settles the row when one of them is permitted. -/
theorem endsSettled_disconnectOrFail (h : Looks m) :
    EndsSettled (disconnectOrFail now >>= fun _ => m) t ↔
      ¬ t.Live ∨ t.object.state ∈ [SessionState.launching, .active, .reconnecting] := by
  unfold EndsSettled disconnectOrFail markDisconnected markFailed
  simp only [ends_bind, ends_mark]
  by_cases hdisc : validateTransition t.object.state .disconnected = true
  · obtain ⟨row, hmark, hrow⟩ := mark_permitted none now hdisc
    have hactive : t.object.state = .active := by
      revert hdisc
      cases t.object.state <;> decide
    have hsettled : EndsSettled m { row } := by
      rw [endsSettled_looks h, Tunnel.Live, hrow]
      decide
    rw [hmark, hactive]
    exact ⟨fun _ => Or.inr (by decide), fun _ => hsettled⟩
  · rw [mark_refused none now (Bool.eq_false_iff.mpr hdisc)]
    show EndsSettled m (Tunnel.mark { t with known := some t.object } .failed
      (some "Connection ended before the remote session became active") now).2 ↔ _
    by_cases hfail : validateTransition t.object.state .failed = true
    · obtain ⟨row, hmark, hrow⟩ := mark_permitted (t := { t with known := some t.object })
        (some "Connection ended before the remote session became active") now hfail
      have hstate : t.object.state ∈ [SessionState.launching, .active, .reconnecting] := by
        revert hfail
        cases t.object.state <;> decide
      have hsettled : EndsSettled m { row } := by
        rw [endsSettled_looks h, Tunnel.Live, hrow]
        decide
      rw [hmark]
      exact ⟨fun _ => Or.inr hstate, fun _ => hsettled⟩
    · have hstate : t.object.state ∉ [SessionState.launching, .active, .reconnecting] := by
        revert hdisc hfail
        cases t.object.state <;> decide
      rw [mark_refused (t := { t with known := some t.object })
        (some "Connection ended before the remote session became active") now
        (Bool.eq_false_iff.mpr hfail), endsSettled_looks h]
      exact ⟨Or.inl, fun hor => hor.resolve_right hstate⟩

/-- Marking the row disconnected settles it exactly from the state active. -/
theorem endsSettled_markDisconnected :
    EndsSettled (do let _ ← markDisconnected now) t ↔ ¬ t.Live ∨ t.object.state = .active := by
  show ¬ (t.mark .disconnected none now).2.Live ↔ _
  by_cases hdisc : validateTransition t.object.state .disconnected = true
  · obtain ⟨row, hmark, hrow⟩ := mark_permitted none now hdisc
    have hactive : t.object.state = .active := by
      revert hdisc
      cases t.object.state <;> decide
    have hsettled : ¬ Tunnel.Live { row } := by
      rw [Tunnel.Live, hrow]
      decide
    rw [hmark]
    exact ⟨fun _ => Or.inr hactive, fun _ => hsettled⟩
  · have hinactive : t.object.state ≠ .active := by
      intro hactive
      exact hdisc (by rw [hactive]; decide)
    rw [mark_refused none now (Bool.eq_false_iff.mpr hdisc)]
    exact ⟨Or.inl, fun hor => hor.resolve_right hinactive⟩

/-- With a final clause the row is settled when the clause settles it, after a return and after an
exception. -/
theorem endsSettled_ensuring {finalizer : M Unit} :
    EndsSettled (ensuring m finalizer) t ↔
      Ends m t (fun _ u => EndsSettled finalizer u) fun _ u => EndsSettled finalizer u := by
  unfold EndsSettled ensuring
  simp only [ends_bind, ends_tryCatch, ends_throw]

/-- The body goes through its events and then returns, or raises into the handler. -/
theorem ends_body {events : List Event} {outcome : Except Exc Unit}
    {handler : Exc → M Unit} {ok : Unit → Tunnel → Prop} {raised : Exc → Tunnel → Prop} :
    Ends (tryCatch (body events outcome) handler) t ok raised ↔
      match outcome with
      | .ok a => ok a (events.foldl Tunnel.after t)
      | .error e => Ends (handler e) (events.foldl Tunnel.after t) ok raised := by
  rw [ends_tryCatch]
  cases outcome <;> rfl

/-- The body raised an `Exception` for which there is no clause of its own. -/
def FailedExit (quiet : List Exc) (outcome : Except Exc Unit) : Prop :=
  ∃ e, outcome = .error e ∧ e ≠ .cancelled ∧ e ∉ quiet

/-- After a mark as failed the final clause has to settle only what the mark could not. -/
theorem settled_after_failed {finalizer : M Unit} {reached : Prop} {states : List SessionState}
    (hfinal : ∀ u, EndsSettled finalizer u ↔ ¬ u.Live ∨ reached ∧ u.object.state ∈ states)
    (reason : Option String) :
    EndsSettled finalizer (t.mark .failed reason now).2 ↔
      ¬ t.Live ∨ t.object.state ∈ [SessionState.launching, .reconnecting] ∨
        reached ∧ t.object.state ∈ states := by
  by_cases hfail : validateTransition t.object.state .failed = true
  · obtain ⟨row, hmark, hrow⟩ := mark_permitted reason now hfail
    have hstate : t.object.state ∈ [SessionState.launching, .reconnecting] := by
      revert hfail
      cases t.object.state <;> decide
    have hsettled : ¬ Tunnel.Live { row } := by
      rw [Tunnel.Live, hrow]
      decide
    rw [hmark, hfinal]
    exact ⟨fun _ => Or.inr (Or.inl hstate), fun _ => Or.inl hsettled⟩
  · have hstate : t.object.state ∉ [SessionState.launching, .reconnecting] := by
      revert hfail
      cases t.object.state <;> decide
    rw [mark_refused reason now (Bool.eq_false_iff.mpr hfail), hfinal, or_iff_right hstate]
    exact Iff.rfl

/-- A method settles the row when it is not live at the teardown, when the clause for exceptions
fails it, or when the final clause reaches a transition that is permitted. -/
theorem endsSettled_method {events : List Event} {outcome : Except Exc Unit}
    {handler : Exc → M Unit} {finalizer : M Unit} {reached : Prop} {states : List SessionState}
    {quiet : List Exc} (reason : String) (now : ℕ)
    (hfinal : ∀ u, EndsSettled finalizer u ↔ ¬ u.Live ∨ reached ∧ u.object.state ∈ states)
    (hquiet : ∀ e u, e = .cancelled ∨ e ∈ quiet →
      (Ends (handler e) u (fun _ v => EndsSettled finalizer v)
        (fun _ v => EndsSettled finalizer v) ↔ EndsSettled finalizer u))
    (hfailed : ∀ e u, e ≠ .cancelled → e ∉ quiet →
      (Ends (handler e) u (fun _ v => EndsSettled finalizer v)
        (fun _ v => EndsSettled finalizer v) ↔
          EndsSettled finalizer (u.mark .failed (some reason) now).2)) :
    EndsSettled (ensuring (tryCatch (body events outcome) handler) finalizer) t ↔
      ¬ (events.foldl Tunnel.after t).Live ∨
      FailedExit quiet outcome ∧
        (events.foldl Tunnel.after t).object.state ∈ [SessionState.launching, .reconnecting] ∨
      reached ∧ (events.foldl Tunnel.after t).object.state ∈ states := by
  rw [endsSettled_ensuring, ends_body]
  generalize events.foldl Tunnel.after t = u
  have hsame (h : ¬ FailedExit quiet outcome) : EndsSettled finalizer u ↔ ¬ u.Live ∨
      FailedExit quiet outcome ∧ u.object.state ∈ [SessionState.launching, .reconnecting] ∨
      reached ∧ u.object.state ∈ states := by
    simp only [hfinal, h, false_and, false_or]
  cases outcome with
  | ok a => exact hsame nofun
  | error e =>
    dsimp only
    by_cases hexit : e = .cancelled ∨ e ∈ quiet
    · rw [hquiet e u hexit]
      refine hsame ?_
      rintro ⟨e', heq, hcancelled, hmem⟩
      cases heq
      exact hexit.elim hcancelled hmem
    · rw [not_or] at hexit
      have hfails : FailedExit quiet (.error e) := ⟨e, rfl, hexit.1, hexit.2⟩
      rw [hfailed e u hexit.1 hexit.2, settled_after_failed hfinal, and_iff_right hfails]

end Teardown

/-! ## The methods -/

/-- The final clause of `connect` gets past the wait for the writer. -/
def ReachesRow (writer : Bool) (down : Teardown) : Prop :=
  ∀ e, writer = true → down.waitClosed = .error e → e ∈ [Exc.osError, .timeoutError]

section Methods

variable {t : Tunnel} {events : List Event} {outcome : Except Exc Unit} {writer : Bool}
  {down : Teardown}

/-- `suppress` of an `await` either goes on or raises. -/
theorem ends_suppress_await {caught : List Exc} {wait : Except Exc Unit} {u : Tunnel}
    {ok : Unit → Tunnel → Prop} {raised : Exc → Tunnel → Prop} :
    Ends (suppress caught (await wait)) u ok raised ↔
      match wait with
      | .ok a => ok a u
      | .error e => if e ∈ caught then ok () u else raised e u := by
  cases wait with
  | ok a => rfl
  | error e =>
    unfold suppress
    rw [ends_tryCatch]
    by_cases hcaught : e ∈ caught
    · show Ends (if e ∈ caught then pure () else throw e) u _ _ ↔ if e ∈ caught then _ else _
      rw [if_pos hcaught, if_pos hcaught]
      rfl
    · show Ends (if e ∈ caught then pure () else throw e) u _ _ ↔ if e ∈ caught then _ else _
      rw [if_neg hcaught, if_neg hcaught]
      rfl

/-- The final clause of `connect` settles the row when it gets to it and finds a state from which it
can be left. -/
theorem endsSettled_connectFinally (u : Tunnel) :
    EndsSettled (connectFinally writer down) u ↔
      ¬ u.Live ∨ ReachesRow writer down ∧
        u.object.state ∈ [SessionState.launching, .active, .reconnecting] := by
  have hrest : EndsSettled (disconnectOrFail down.now >>= fun _ => closeSocket down) u ↔
      ¬ u.Live ∨ u.object.state ∈ [SessionState.launching, .active, .reconnecting] :=
    endsSettled_disconnectOrFail (looks_suppress _ down.close)
  cases writer with
  | false =>
    have hreach : ReachesRow false down := nofun
    rw [and_iff_right hreach]
    exact hrest
  | true =>
    have hwriter : EndsSettled (connectFinally true down) u ↔
        Ends (suppress [.osError, .timeoutError] (await down.waitClosed)) u
          (fun _ u => EndsSettled (disconnectOrFail down.now >>= fun _ => closeSocket down) u)
          fun _ u => ¬ u.Live := ends_bind
    rw [hwriter, ends_suppress_await]
    cases hwait : down.waitClosed with
    | ok a =>
      have hreach : ReachesRow true down := by
        intro e _ he
        rw [hwait] at he
        cases he
      rw [and_iff_right hreach]
      exact hrest
    | error e =>
      by_cases hcaught : e ∈ [Exc.osError, .timeoutError]
      · have hreach : ReachesRow true down := by
          intro e' _ he
          rw [hwait] at he
          cases he
          exact hcaught
        rw [and_iff_right hreach]
        dsimp only
        rw [if_pos hcaught]
        exact hrest
      · have hreach : ¬ ReachesRow true down := fun hreach => hcaught (hreach e rfl hwait)
        dsimp only
        rw [if_neg hcaught]
        exact ⟨Or.inl, fun hor => hor.resolve_right fun hand => hreach hand.1⟩

/-- When `connect` leaves the row settled, in terms of the tunnel after its events. -/
theorem endsSettled_connect :
    EndsSettled (connect events outcome writer down) t ↔
      ¬ (events.foldl Tunnel.after t).Live ∨
      FailedExit [.webSocketDisconnect] outcome ∧
        (events.foldl Tunnel.after t).object.state ∈ [SessionState.launching, .reconnecting] ∨
      ReachesRow writer down ∧
        (events.foldl Tunnel.after t).object.state ∈
          [SessionState.launching, .active, .reconnecting] := by
  have hlooks := looks_suppress [.runtimeError, .webSocketDisconnect] down.sendText
  unfold connect
  refine endsSettled_method
    "Browser connection failed; verify guest service, profile and server identity" down.now
    endsSettled_connectFinally (fun e u he => ?_) fun e u hcancelled he => ?_
  · rcases he with rfl | he
    · exact ends_throw _
    · rw [List.mem_singleton.mp he]
      exact ends_pure _
  · cases e with
    | webSocketDisconnect => exact absurd List.mem_cons_self he
    | cancelled => exact absurd rfl hcancelled
    | connectionClosedOk => exact ends_markThen hlooks
    | runtimeError => exact ends_markThen hlooks
    | osError => exact ends_markThen hlooks
    | timeoutError => exact ends_markThen hlooks
    | other => exact ends_markThen hlooks

/-- The final clause of `_proxmox_ws` settles the row from the states that it can leave. -/
theorem endsSettled_proxmoxFinally (u : Tunnel) :
    EndsSettled (proxmoxFinally down) u ↔
      ¬ u.Live ∨ True ∧ u.object.state ∈ [SessionState.launching, .active, .reconnecting] := by
  rw [true_and]
  exact endsSettled_disconnectOrFail (looks_suppress _ _)

/-- When `_proxmox_ws` leaves the row settled, in terms of the tunnel after its events. -/
theorem endsSettled_proxmoxWs :
    EndsSettled (proxmoxWs events outcome down) t ↔
      ¬ (events.foldl Tunnel.after t).Live ∨
      (events.foldl Tunnel.after t).object.state ∈
        [SessionState.launching, .active, .reconnecting] := by
  have hmethod : EndsSettled (proxmoxWs events outcome down) t ↔
      ¬ (events.foldl Tunnel.after t).Live ∨
      FailedExit [.webSocketDisconnect, .connectionClosedOk] outcome ∧
        (events.foldl Tunnel.after t).object.state ∈ [SessionState.launching, .reconnecting] ∨
      True ∧ (events.foldl Tunnel.after t).object.state ∈
        [SessionState.launching, .active, .reconnecting] := by
    unfold proxmoxWs
    refine endsSettled_method "Remote console connection failed" down.now
      endsSettled_proxmoxFinally (fun e u he => ?_) fun e u hcancelled he => ?_
    · rcases he with rfl | he
      · exact ends_throw _
      · rcases List.mem_cons.mp he with rfl | he
        · exact ends_pure _
        · rw [List.mem_singleton.mp he]
          exact ends_pure _
    · cases e with
      | webSocketDisconnect => exact absurd List.mem_cons_self he
      | connectionClosedOk => exact absurd (List.mem_cons_of_mem _ List.mem_cons_self) he
      | cancelled => exact absurd rfl hcancelled
      | runtimeError => exact Iff.rfl
      | osError => exact Iff.rfl
      | timeoutError => exact Iff.rfl
      | other => exact Iff.rfl
  rw [hmethod, true_and]
  have hmore : (events.foldl Tunnel.after t).object.state ∈
      [SessionState.launching, .reconnecting] → (events.foldl Tunnel.after t).object.state ∈
        [SessionState.launching, .active, .reconnecting] := by
    simp only [List.mem_cons, List.not_mem_nil, or_false]
    exact fun h => h.imp_right Or.inr
  exact or_congr_right ⟨fun h => h.elim (fun hand => hmore hand.2) id, Or.inr⟩

/-- The final clause of `ssh_ws` settles the row from the state active only. -/
theorem endsSettled_sshFinally (u : Tunnel) :
    EndsSettled (sshFinally down) u ↔ ¬ u.Live ∨ True ∧ u.object.state ∈ [SessionState.active] := by
  rw [true_and, List.mem_singleton]
  exact endsSettled_markDisconnected

/-- Two methods that change no row change none in sequence. -/
theorem looks_bind {m m' : M Unit} (h : Looks m) (h' : Looks m') :
    Looks (m >>= fun _ => m') := by
  intro s
  rw [ends_bind]
  refine (h s).mono (fun _ u hu => ?_) fun _ _ hu => hu
  rw [hu]
  exact h' s

/-- The part of `ssh_ws` in its `try` statement. -/
theorem endsSettled_sshTry :
    EndsSettled (ensuring (tryCatch (body events outcome) (sshExcept down)) (sshFinally down)) t ↔
      ¬ (events.foldl Tunnel.after t).Live ∨
      FailedExit [.webSocketDisconnect] outcome ∧
        (events.foldl Tunnel.after t).object.state ∈ [SessionState.launching, .reconnecting] ∨
      True ∧ (events.foldl Tunnel.after t).object.state ∈ [SessionState.active] := by
  have hlooks := looks_bind (looks_await down.sendText) (looks_await down.close)
  refine endsSettled_method "SSH connection failed" down.now
    endsSettled_sshFinally (fun e u he => ?_) fun e u hcancelled he => ?_
  · rcases he with rfl | he
    · exact ends_throw _
    · rw [List.mem_singleton.mp he]
      -- The clause disconnects the row, and the final clause tries it again.
      show EndsSettled (sshFinally down) (u.mark .disconnected none down.now).2 ↔ _
      by_cases hdisc : validateTransition u.object.state .disconnected = true
      · obtain ⟨row, hmark, hrow⟩ := mark_permitted none down.now hdisc
        have hactive : u.object.state ∈ [SessionState.active] := by
          revert hdisc
          cases u.object.state <;> decide
        have hsettled : ¬ Tunnel.Live { row } := by
          rw [Tunnel.Live, hrow]
          decide
        rw [hmark, endsSettled_sshFinally, endsSettled_sshFinally]
        exact ⟨fun _ => Or.inr ⟨trivial, hactive⟩, fun _ => Or.inl hsettled⟩
      · rw [mark_refused none down.now (Bool.eq_false_iff.mpr hdisc), endsSettled_sshFinally,
          endsSettled_sshFinally]
        exact Iff.rfl
  · cases e with
    | webSocketDisconnect => exact absurd List.mem_cons_self he
    | cancelled => exact absurd rfl hcancelled
    | connectionClosedOk => exact ends_markThen hlooks
    | runtimeError => exact ends_markThen hlooks
    | osError => exact ends_markThen hlooks
    | timeoutError => exact ends_markThen hlooks
    | other => exact ends_markThen hlooks

end Methods

/-! ## `ssh_ws` before its `try` statement -/

/-- Neither the row nor the object of it is `launching`. -/
def NeverLaunching (t : Tunnel) : Prop :=
  t.row.state ≠ .launching ∧ ∀ row, t.known = some row → row.state ≠ .launching

section Launching

variable {t : Tunnel}

/-- What the tunnel takes for its row is not `launching`. -/
theorem NeverLaunching.object (h : NeverLaunching t) : t.object.state ≠ .launching := by
  unfold Tunnel.object
  cases hknown : t.known with
  | none => exact h.1
  | some row => exact h.2 row hknown

/-- A row that is not `launching` is not launching for a tunnel without an object. -/
theorem neverLaunching_row {row : VMSession} (h : row.state ≠ .launching) :
    NeverLaunching { row } := by
  refine ⟨h, ?_⟩
  rintro _ ⟨⟩

/-- Loading the object of a row that is not `launching` keeps it so. -/
theorem neverLaunching_load (h : NeverLaunching t) :
    NeverLaunching { t with known := some t.object } := by
  refine ⟨h.1, ?_⟩
  rintro row ⟨⟩
  exact h.object

/-- A change by another client does not make the row `launching`. -/
theorem neverLaunching_outside (h : NeverLaunching t) (change : Change) :
    NeverLaunching { t with row := change.apply t.row } := by
  refine ⟨?_, h.2⟩
  show Sessions.column change.loaded.state change.changed.state t.row.state ≠ .launching
  rcases change.follows with hsame | htransition
  · rw [hsame, Sessions.column_unchanged]
    exact h.1
  · unfold Sessions.column
    by_cases hsame : change.changed.state = change.loaded.state
    · rw [if_pos hsame]
      exact h.1
    · rw [if_neg hsame]
      exact ne_launching_of_transition htransition

/-- A heartbeat of the tunnel does not make the row `launching`. -/
theorem neverLaunching_heartbeat (h : NeverLaunching t) (now : ℕ) :
    NeverLaunching (t.heartbeat now) := by
  unfold Tunnel.heartbeat
  by_cases hended : t.object.state = .expired ∨ t.object.state = .failed
  · rw [if_pos hended]
    exact neverLaunching_load h
  · rw [if_neg hended]
    apply neverLaunching_row
    rw [Sessions.apply_state, Sessions.column_unchanged]
    exact h.1

/-- Marking the row active does not make it `launching`. -/
theorem neverLaunching_mark (h : NeverLaunching t) (now : ℕ) :
    NeverLaunching (t.mark .active none now).2 := by
  by_cases hactive : validateTransition t.object.state .active = true
  · obtain ⟨row, hmark, hrow⟩ := mark_permitted none now hactive
    rw [hmark]
    apply neverLaunching_row
    rw [hrow]
    decide
  · rw [mark_refused none now (Bool.eq_false_iff.mpr hactive)]
    exact neverLaunching_load h

/-- A tunnel that loads the row to mark it as active leaves nothing that is `launching`. -/
theorem neverLaunching_markActive (hknown : t.known = none) (now : ℕ) :
    NeverLaunching (t.mark .active none now).2 := by
  by_cases hactive : validateTransition t.object.state .active = true
  · obtain ⟨row, hmark, hrow⟩ := mark_permitted none now hactive
    rw [hmark]
    apply neverLaunching_row
    rw [hrow]
    decide
  · have hstate : t.object.state ≠ .launching := by
      intro hlaunching
      exact hactive (by rw [hlaunching]; decide)
    have hobject : t.object = t.row := by
      unfold Tunnel.object
      rw [hknown]
      rfl
    rw [mark_refused none now (Bool.eq_false_iff.mpr hactive)]
    refine ⟨hobject ▸ hstate, ?_⟩
    rintro row ⟨⟩
    exact hstate

/-- No event makes the row `launching`. -/
theorem neverLaunching_after (h : NeverLaunching t) (event : Event) :
    NeverLaunching (t.after event) := by
  cases event with
  | outside change => exact neverLaunching_outside h change
  | load => exact neverLaunching_load h
  | expireAll => exact neverLaunching_row h.1
  | markActive now => exact neverLaunching_mark h now
  | heartbeat now => exact neverLaunching_heartbeat h now

/-- No events make the row `launching`, by induction on them. -/
theorem neverLaunching_events (h : NeverLaunching t) (events : List Event) :
    NeverLaunching (events.foldl Tunnel.after t) := by
  induction events generalizing t with
  | nil => exact h
  | cons event events ih => exact ih (neverLaunching_after h event)

/-- No changes by other clients make the row `launching`. -/
theorem neverLaunching_others (h : NeverLaunching t) (changes : List Change) :
    NeverLaunching (others changes t) := by
  induction changes generalizing t with
  | nil => exact h
  | cons change changes ih => exact ih (neverLaunching_outside h change)

/-- Changes by other clients give the tunnel no object. -/
theorem known_others (changes : List Change) (h : t.known = none) :
    (others changes t).known = none := by
  induction changes generalizing t with
  | nil => exact h
  | cons change changes ih => exact ih h

end Launching

/-! ## The three methods -/

/-- `ssh_ws` when it gets to its `try` statement. -/
def sshOpened (row : VMSession) (before between : List Change) (now : ℕ) : Tunnel :=
  (others between ((others before { row }).mark .active none now).2).heartbeat now

/-- The row is settled by `connect`: it is not live at the teardown, or the clause for exceptions
fails it, or the final clause gets past the wait for the writer and reads a state that a
transition leads out of. -/
def ConnectSettles (outcome : Except Exc Unit) (writer : Bool) (down : Teardown) (t : Tunnel) :
    Prop :=
  ¬ t.Live ∨
  FailedExit [.webSocketDisconnect] outcome ∧
    t.object.state ∈ [SessionState.launching, .reconnecting] ∨
  ReachesRow writer down ∧
    t.object.state ∈ [SessionState.launching, .active, .reconnecting]

/-- The row is settled by `_proxmox_ws`. -/
def ProxmoxSettles (t : Tunnel) : Prop :=
  ¬ t.Live ∨ t.object.state ∈ [SessionState.launching, .active, .reconnecting]

/-- The row is settled by `ssh_ws`, whose final clause has no second transition. -/
def SshSettles (outcome : Except Exc Unit) (t : Tunnel) : Prop :=
  ¬ t.Live ∨ t.object.state = .active ∨
    FailedExit [.webSocketDisconnect] outcome ∧ t.object.state = .reconnecting

/-- What each method leaves, by the state of the row and of the object when its teardown starts,
how its body ended, and the outcomes of the awaits of its teardown. -/
theorem tunnels_settle_iff (row : VMSession) (events : List Event) (outcome : Except Exc Unit)
    (down : Teardown) :
    (∀ writer, EndsSettled (connect events outcome writer down) { row } ↔
      ConnectSettles outcome writer down (events.foldl Tunnel.after { row })) ∧
    (EndsSettled (proxmoxWs events outcome down) { row } ↔
      ProxmoxSettles (events.foldl Tunnel.after { row })) ∧
    (∀ before between now, EndsSettled (sshWs before between now events outcome down) { row } ↔
      SshSettles outcome (events.foldl Tunnel.after (sshOpened row before between now))) := by
  refine ⟨fun writer => endsSettled_connect, endsSettled_proxmoxWs, fun before between now => ?_⟩
  have hopened : NeverLaunching (sshOpened row before between now) := by
    have hknown : (others before { row }).known = none := known_others before rfl
    exact neverLaunching_heartbeat
      (neverLaunching_others (neverLaunching_markActive hknown now) between) now
  have hnever := neverLaunching_events hopened events
  have htry : EndsSettled (sshWs before between now events outcome down) { row } ↔ _ :=
    endsSettled_sshTry (t := sshOpened row before between now)
  rw [htry, true_and, or_comm (b := _ ∈ [SessionState.active])]
  simp only [SshSettles, List.mem_cons, List.not_mem_nil, or_false, hnever.object, false_or]

namespace Fixture

def row : VMSession where
  id := 1
  organizationId := 1
  userId := 7
  vmId := 3
  protocol := "GUAC_RDP"
  state := .launching
  createdAt := 0
  updatedAt := 0

/-- A change of the state as a client's heartbeat makes it. -/
def heartbeatTo (current next : SessionState) (h : next ∈ sessionTransitions current) : Change where
  loaded := { row with state := current }
  changed := { row with state := next, lastHeartbeatAt := some 1, updatedAt := 1 }
  follows := Or.inr h

/-- The client disconnects while the row is active, and the task is cancelled while it waits for
the writer to close. -/
def cancelledWait : Teardown where
  sendText := .ok ()
  waitClosed := .error .cancelled
  close := .ok ()
  now := 2

def quietly : Teardown := { cancelledWait with waitClosed := .ok () }

/-- The client disconnects the session; the tunnel reads that; the client connects it again. -/
def reconnected : List Event :=
  [.outside (heartbeatTo .active .disconnected (by decide)), .load,
    .outside (heartbeatTo .disconnected .reconnecting (by decide)),
    .outside (heartbeatTo .reconnecting .active (by decide))]

/-- A cancelled wait in `connect` leaves the row live, and so does a reconnect under `ssh_ws`. -/
theorem not_settled :
    ¬ EndsSettled (connect [.markActive 0, .heartbeat 0] (.error .webSocketDisconnect) true
        cancelledWait) { row } ∧
      ¬ EndsSettled (sshWs [] [] 0 reconnected (.ok ()) quietly) { row } := by
  constructor
  · intro h
    exact h (by decide)
  · intro h
    exact h (by decide)

end Fixture

end LabGoblin.Tunnels
