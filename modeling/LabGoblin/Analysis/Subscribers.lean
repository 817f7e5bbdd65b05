import LabGoblin.Model.EventStream

/-!
# The subscribers of the event stream

A subscriber whose queue is full when an event is published is dropped from the stream, but its
generator goes on: it drains the queue and then sends heartbeats for ever. So the subscribers
are served as they should be exactly in the runs in which no event finds the queue of a live
generator full.
-/

set_option autoImplicit false

namespace LabGoblin.Events

/-- The events among what a generator has sent. -/
def eventsOf (sent : List Output) : List Dict :=
  sent.filterMap fun output => match output with
    | .event evt => some evt
    | .heartbeat => none

namespace World

/-- The generator has neither returned nor been closed. -/
def Live (w : World) (q : ℕ) (g : Gen) : Prop := w.gens q = some g ∧ g.phase ≠ .ended

/-- Of the events that were published while its queue had room, the generator has sent those of
its organization, in their order, up to what is still queued. -/
def Delivered (w : World) (q : ℕ) (g : Gen) : Prop :=
  eventsOf g.sent ++ (w.stream.queues q).filter (ofOrganization g.organizationId) =
    (w.due q).filter (ofOrganization g.organizationId)

end World

/-- The subscriber is no zombie: while its generator is live it is registered and gets its
events, and it sends no heartbeat when it is not registered. -/
structure Served (w : World) (q : ℕ) : Prop where
  registered : ∀ g, w.Live q g → q ∈ w.stream.subs
  delivered : ∀ g, w.Live q g → w.Delivered q g
  heartbeats : ∀ w', w.step (.timeout q) = some w' → q ∈ w.stream.subs

/-- The queue of a live generator has room. -/
def HasRoom (w : World) (q : ℕ) : Prop :=
  ∀ g, w.Live q g → (w.stream.queues q).length < maxsize

variable {w w' : World} {p q : ℕ}

/-! ## The generators -/

/-- A generator in a phase before its end is live. -/
theorem World.live_of_genAt {g : Gen} {phase : Phase} (h : w.genAt q phase = some g)
    (hphase : phase ≠ .ended) : w.Live q g := by
  obtain ⟨hgen, hat⟩ := Option.filter_eq_some_iff.mp h
  have hat := of_decide_eq_true hat
  refine ⟨hgen, ?_⟩
  rw [hat]
  exact hphase

/-- A heartbeat is sent by a live generator, so a registered one sends it. -/
theorem Served.of_registered (hreg : ∀ g, w.Live q g → q ∈ w.stream.subs)
    (hdel : ∀ g, w.Live q g → w.Delivered q g) : Served w q := by
  refine ⟨hreg, hdel, ?_⟩
  intro w' hstep
  simp only [World.step, Option.map_eq_some_iff] at hstep
  obtain ⟨g, hgen, -⟩ := hstep
  exact hreg g (World.live_of_genAt hgen (by decide))

/-- The events that a generator has sent after it received one. -/
theorem Gen.eventsOf_receive (g : Gen) (evt : Dict) :
    eventsOf (g.receive evt).sent =
      eventsOf g.sent ++ [evt].filter (ofOrganization g.organizationId) := by
  unfold Gen.receive
  by_cases h : ofOrganization g.organizationId evt = true
  · simp [h, eventsOf]
  · simp [h, eventsOf]

/-- Receiving an event does not change the organization of a generator. -/
@[simp] theorem Gen.organizationId_receive (g : Gen) (evt : Dict) :
    (g.receive evt).organizationId = g.organizationId := by
  unfold Gen.receive
  split <;> rfl

/-- A heartbeat is no event. -/
theorem Gen.eventsOf_timeout (g : Gen) : eventsOf g.timeout.sent = eventsOf g.sent := by
  simp [Gen.timeout, eventsOf]

/-- A turn sends nothing. -/
theorem Gen.turn_sent (g : Gen) (now : ℚ) (disconnected : Bool) (allowed : Except Unit Bool) :
    (g.turn now disconnected allowed).sent = g.sent ∧
      (g.turn now disconnected allowed).organizationId = g.organizationId := by
  unfold Gen.turn
  repeat' split
  all_goals exact ⟨rfl, rfl⟩

/-! ## One step -/

/-- After a step of one generator the live ones are that one, unless it has ended, and the others.
-/
theorem World.live_setGen {g g' : Gen} (h : (w.setGen p g').Live q g) :
    p = q ∧ g = g' ∧ g'.phase ≠ .ended ∨ p ≠ q ∧ w.Live q g := by
  obtain ⟨hgen, hlive⟩ := h
  by_cases hpq : p = q
  · subst hpq
    have hsame : some g' = some g := by simpa [World.setGen] using hgen
    cases hsame
    exact .inl ⟨rfl, rfl, hlive⟩
  · have hother : w.gens q = some g := by
      simpa [World.setGen, Function.update_of_ne (Ne.symm hpq)] using hgen
    exact .inr ⟨hpq, hother, hlive⟩

/-- A step of a generator leaves the registrations of the others. -/
theorem World.mem_subs_setGen {g' : Gen} (h : q ∈ w.stream.subs)
    (hother : p = q → g'.phase ≠ .ended) : q ∈ (w.setGen p g').stream.subs := by
  unfold World.setGen
  by_cases hended : g'.phase = .ended
  · have hne : q ≠ p := fun heq => hother heq.symm hended
    simpa [hended, EventStream.unsubscribe, hne] using h
  · simpa [hended] using h

/-- A step of a generator leaves the queues. -/
@[simp] theorem World.queues_setGen (w : World) (p : ℕ) (g' : Gen) :
    (w.setGen p g').stream.queues = w.stream.queues := by
  unfold World.setGen
  dsimp only
  split <;> rfl

/-- A generator that goes on serves its own subscriber when it has sent what it took, and
leaves the others alone. -/
theorem served_setGen {g' : Gen} (hother : p ≠ q → Served w q)
    (hself : p = q → g'.phase ≠ .ended → q ∈ w.stream.subs ∧ w.Delivered q g') :
    Served (w.setGen p g') q := by
  refine Served.of_registered ?_ ?_
  · intro g hlive
    rcases World.live_setGen hlive with ⟨hpq, rfl, hphase⟩ | ⟨hpq, hlive⟩
    · exact World.mem_subs_setGen (hself hpq hphase).1 fun _ => hphase
    · exact World.mem_subs_setGen ((hother hpq).registered g hlive) fun heq => absurd heq hpq
  · intro g hlive
    unfold World.Delivered
    rw [World.queues_setGen]
    rcases World.live_setGen hlive with ⟨hpq, rfl, hphase⟩ | ⟨hpq, hlive⟩
    · exact (hself hpq hphase).2
    · exact (hother hpq).delivered g hlive

/-- A generator that goes on without taking or sending an event. -/
theorem Served.setGen {g g' : Gen} (h : Served w q) (hlive : w.Live p g)
    (hsent : eventsOf g'.sent = eventsOf g.sent)
    (horg : g'.organizationId = g.organizationId) : Served (w.setGen p g') q := by
  refine served_setGen (fun _ => h) ?_
  rintro rfl -
  refine ⟨h.registered g hlive, ?_⟩
  have hdel := h.delivered g hlive
  unfold World.Delivered at hdel ⊢
  rw [hsent, horg]
  exact hdel

/-- A new subscriber is registered, and nothing is due to it yet. -/
theorem Served.subscribe (h : Served w q) (p organizationId : ℕ) :
    Served (w.subscribe p organizationId) q := by
  by_cases hpq : p = q
  · subst hpq
    refine Served.of_registered ?_ ?_
    · intro g hlive
      simp [World.subscribe, EventStream.subscribe]
    · rintro g ⟨hgen, -⟩
      have hsame : some { organizationId } = some g := by simpa [World.subscribe] using hgen
      cases hsame
      simp [World.Delivered, World.subscribe, EventStream.subscribe, eventsOf]
  · have hne : q ≠ p := fun heq => hpq heq.symm
    have hold {g : Gen} (hlive : (w.subscribe p organizationId).Live q g) : w.Live q g := by
      obtain ⟨hgen, hphase⟩ := hlive
      exact ⟨by simpa [World.subscribe, hne] using hgen, hphase⟩
    refine Served.of_registered ?_ ?_
    · intro g hlive
      have hmem := h.registered g (hold hlive)
      simp [World.subscribe, EventStream.subscribe, hmem]
    · intro g hlive
      have hdel := h.delivered g (hold hlive)
      simpa [World.Delivered, World.subscribe, EventStream.subscribe, hne] using hdel

/-- A queue with room gets the event and stays registered. -/
theorem EventStream.publish_of_room {s : EventStream} {event : Dict}
    (hmem : q ∈ s.subs) (hroom : (s.queues q).length < maxsize) :
    q ∈ (s.publish event).subs ∧ (s.publish event).queues q = s.queues q ++ [event] := by
  simp [EventStream.publish, putNowait, hmem, hroom]

/-- A full queue is dropped. -/
theorem EventStream.not_mem_publish_of_full {s : EventStream} {event : Dict}
    (hfull : maxsize ≤ (s.queues q).length) : q ∉ (s.publish event).subs := by
  have hnot : ¬ (s.queues q).length < maxsize := by omega
  simp [EventStream.publish, putNowait, hnot]

/-- A subscriber whose queue has room stays served when an event is published. -/
theorem Served.publish (h : Served w q) (event : Dict) (hroom : HasRoom w q) :
    Served (w.publish event) q := by
  refine Served.of_registered ?_ ?_
  · intro g hlive
    have hlive : w.Live q g := hlive
    exact (EventStream.publish_of_room (h.registered g hlive) (hroom g hlive)).1
  · intro g hlive
    have hlive : w.Live q g := hlive
    have hlength := hroom g hlive
    have hqueue : (w.publish event).stream.queues q = w.stream.queues q ++ [event] :=
      (EventStream.publish_of_room (h.registered g hlive) hlength).2
    have hdue : (w.publish event).due q = w.due q ++ [event] := if_pos hlength
    have hdel := h.delivered g hlive
    unfold World.Delivered at hdel ⊢
    rw [hqueue, hdue, List.filter_append, List.filter_append, ← List.append_assoc, hdel]

/-- The generator takes the first event of its queue. -/
theorem Served.get (h : Served w q) (hstep : w.step (.get p) = some w') : Served w' q := by
  simp only [World.step] at hstep
  split at hstep
  · rename_i g evt queue hgen hqueue
    cases hstep
    have hlive := World.live_of_genAt hgen (by decide)
    refine served_setGen ?_ ?_
    · intro hpq
      have hne : q ≠ p := fun heq => hpq heq.symm
      refine Served.of_registered (fun g hlive => h.registered g hlive) ?_
      intro g' hlive'
      have hdel := h.delivered g' hlive'
      simpa [World.Delivered, World.setQueue, hne] using hdel
    · rintro rfl -
      refine ⟨h.registered g hlive, ?_⟩
      have hdel := h.delivered g hlive
      unfold World.Delivered at hdel ⊢
      rw [Gen.eventsOf_receive, Gen.organizationId_receive]
      have hrest : (w.setQueue p queue).stream.queues p = queue := by simp [World.setQueue]
      rw [hrest, List.append_assoc, ← List.filter_append]
      rw [hqueue] at hdel
      exact hdel
  · cases hstep

/-- Every step serves a subscriber as before, when a publication finds its queue with room. -/
theorem Served.step (h : Served w q) {a : Action} (hroom : ∀ event, a = .publish event →
    HasRoom w q) (hstep : w.step a = some w') : Served w' q := by
  cases a with
  | subscribe p organizationId =>
    simp only [World.step] at hstep
    split at hstep
    · cases hstep
      exact h.subscribe p organizationId
    · cases hstep
  | publish event =>
    cases hstep
    exact h.publish event (hroom event rfl)
  | turn p now disconnected allowed =>
    obtain ⟨g, hgen, rfl⟩ := Option.map_eq_some_iff.mp hstep
    obtain ⟨hsent, horg⟩ := g.turn_sent now disconnected allowed
    exact h.setGen (World.live_of_genAt hgen (by decide)) (congrArg eventsOf hsent) horg
  | get p => exact h.get hstep
  | timeout p =>
    obtain ⟨g, hgen, rfl⟩ := Option.map_eq_some_iff.mp hstep
    exact h.setGen (World.live_of_genAt hgen (by decide)) g.eventsOf_timeout rfl
  | resume p =>
    obtain ⟨g, hgen, rfl⟩ := Option.map_eq_some_iff.mp hstep
    exact h.setGen (World.live_of_genAt hgen (by decide)) rfl rfl
  | close p =>
    obtain ⟨g, hgen, rfl⟩ := Option.map_eq_some_iff.mp hstep
    obtain ⟨hgen, hphase⟩ := Option.filter_eq_some_iff.mp hgen
    exact h.setGen ⟨hgen, of_decide_eq_true hphase⟩ rfl rfl

/-- A publication that finds the queue of a live generator full leaves it a zombie. -/
theorem not_served_of_full (event : Dict) (hfull : ¬ HasRoom w q) :
    ¬ Served (w.publish event) q := by
  intro h
  obtain ⟨g, hlive, hlength⟩ : ∃ g, w.Live q g ∧ maxsize ≤ (w.stream.queues q).length := by
    simpa [HasRoom] using hfull
  exact EventStream.not_mem_publish_of_full hlength (h.registered g hlive)

/-! ## Runs -/

/-- The last action is run after the others. -/
theorem World.run_concat {actions : List Action} {a : Action} :
    w.run (actions ++ [a]) = (w.run actions).bind fun w' => w'.step a := by
  simp [World.run, List.foldlM_append]

/-- A run starts with its first action. -/
theorem World.run_cons {actions : List Action} {a : Action} (h : w.step a = some w') :
    w.run (a :: actions) = w'.run actions := by
  simp [World.run, h]

/-- At the start every subscriber is served. -/
theorem served_init (q : ℕ) : Served World.init q := by
  have hnone {g : Gen} (hlive : World.init.Live q g) : False := by
    obtain ⟨hgen, -⟩ := hlive
    cases hgen
  exact .of_registered (fun g hlive => (hnone hlive).elim) fun g hlive => (hnone hlive).elim

/-- In every run the subscriber is served in every state exactly when every event that is
published finds its queue with room, where its generator is live. -/
theorem served_iff (actions : List Action) (q : ℕ) :
    (∀ n w, World.init.run (actions.take n) = some w → Served w q) ↔
      ∀ n w event, World.init.run (actions.take n) = some w →
        actions[n]? = some (.publish event) → HasRoom w q := by
  constructor
  · intro h n w event hrun hnext
    by_contra hfull
    have htake : actions.take (n + 1) = actions.take n ++ [.publish event] := by
      rw [List.take_add_one, hnext, Option.toList_some]
    have hrun' : World.init.run (actions.take (n + 1)) = some (w.publish event) := by
      rw [htake, World.run_concat, hrun]
      rfl
    exact not_served_of_full event hfull (h (n + 1) _ hrun')
  · intro hroom n
    induction n with
    | zero =>
      intro w hrun
      cases hrun
      exact served_init q
    | succ n ih =>
      intro w' hrun
      cases hnext : actions[n]? with
      | none =>
        rw [List.take_add_one, hnext, Option.toList_none, List.append_nil] at hrun
        exact ih w' hrun
      | some a =>
        rw [List.take_add_one, hnext, Option.toList_some, World.run_concat] at hrun
        obtain ⟨w, hbefore, hstep⟩ := Option.bind_eq_some_iff.mp hrun
        refine (ih w hbefore).step ?_ hstep
        rintro event rfl
        exact hroom n w event hbefore hnext

/-! ## A slow reader -/

/-- Events that fit into the queue are queued, and change no generator. -/
theorem run_publish_of_room (event : Dict) (k : ℕ) (hmem : q ∈ w.stream.subs)
    (hroom : (w.stream.queues q).length + k ≤ maxsize) :
    ∃ w', w.run (List.replicate k (.publish event)) = some w' ∧ w'.gens = w.gens ∧
      q ∈ w'.stream.subs ∧ (w'.stream.queues q).length = (w.stream.queues q).length + k := by
  induction k with
  | zero => exact ⟨w, rfl, rfl, hmem, rfl⟩
  | succ k ih =>
    obtain ⟨w₁, hrun, hgens, hmem₁, hlength⟩ := ih (by omega)
    have hroom₁ : (w₁.stream.queues q).length < maxsize := by omega
    obtain ⟨hmem₂, hqueue⟩ : q ∈ (w₁.stream.publish event).subs ∧
        (w₁.stream.publish event).queues q = w₁.stream.queues q ++ [event] :=
      EventStream.publish_of_room hmem₁ hroom₁
    refine ⟨w₁.publish event, ?_, hgens, hmem₂, ?_⟩
    · rw [List.replicate_succ', World.run_concat, hrun]
      rfl
    · have hlength₂ := congrArg List.length hqueue
      rw [List.length_append, List.length_singleton] at hlength₂
      exact hlength₂.trans (by omega)

/-- A client that does not read while a hundred and one events are published. -/
theorem not_served : ¬ ∀ (actions : List Action) (w : World),
    World.init.run actions = some w → ∀ q, Served w q := by
  intro h
  have hmem : 0 ∈ (World.init.subscribe 0 1).stream.subs := by decide
  have hempty : (World.init.subscribe 0 1).stream.queues 0 = [] := by rfl
  obtain ⟨w, hrun, hgens, -, hlength⟩ :=
    run_publish_of_room [] 100 hmem (by rw [hempty]; decide)
  have hlive : w.Live 0 { organizationId := 1 } := by
    refine ⟨?_, by decide⟩
    rw [hgens]
    rfl
  have hfull : ¬ HasRoom w 0 := by
    intro hroom
    have hlt := hroom _ hlive
    rw [hlength, hempty] at hlt
    exact absurd hlt (by decide)
  have hstart : World.init.step (.subscribe 0 1) = some (World.init.subscribe 0 1) := by rfl
  have hall : World.init.run (.subscribe 0 1 :: List.replicate 100 (.publish []) ++
      [.publish []]) = some (w.publish []) := by
    rw [World.run_concat, World.run_cons hstart, hrun, Option.bind_some]
    rfl
  exact not_served_of_full [] hfull (h _ _ hall 0)

end LabGoblin.Events
