import LabGoblin.Computation.World

/-!
# Systems with clients

A system and processes of another signature, its clients, that act on the same shared state. To
the system a step of a client is a step of the environment, so its part of a run of both is a run
of its own, and what is proved of every run of the system holds with the clients at work.

To reason about both at once, `Guard` gives the clients a contract, and `Guard.Sound` says what
the steps of each side must be to the other. `Discipline.uphold` is a discipline on top of
another that also keeps an invariant.
-/

set_option autoImplicit false

namespace Interactive

/-! ## Invariants on top of a discipline -/

namespace Discipline

variable {G : Signature} {τ Req : Type} {D : Discipline G τ Req}

variable (D) in
/-- A discipline on top of another: its processes keep an invariant, rely on what `rely` says of
every step, and make only the statements that `allows` admits. -/
def uphold (inv : τ → Prop) (rely : τ → τ → Prop) (allows : Pid → G.Stmt → τ → Prop) :
    Discipline G τ Req where
  sys := D.allowed
  inv := fun t => D.inv t ∧ inv t
  present := D.present
  rely := fun p t t' => D.rely p t t' ∧ rely t t'
  allowsStmt := allows
  allowsCall := fun _ _ _ => True

/-- The steps that are admitted keep the invariant, and each is one that the others reckon
with. -/
structure Upholds (D : Discipline G τ Req) (inv : τ → Prop) (rely : τ → τ → Prop)
    (allows : Pid → G.Stmt → τ → Prop) : Prop where
  refl : ∀ t, rely t t
  trans : ∀ a b c, rely a b → rely b c → rely a c
  stmt : ∀ p q t, inv t → D.allowed.machine.enabled p q t → allows p q t →
    inv (D.sys.machine.exec p q t) ∧ rely t (D.sys.machine.exec p q t)
  call : ∀ p c t r t', inv t → D.allowed.machine.answer p c t r t' → inv t' ∧ rely t t'
  enter : ∀ r t, inv t → D.allowed.admits r t → inv (D.sys.enter r t) ∧ rely t (D.sys.enter r t)
  leave : ∀ p t, inv t → D.inv t → inv (D.sys.leave p t) ∧ rely t (D.sys.leave p t)
  env : ∀ t t', inv t → D.allowed.env t t' → inv t' ∧ rely t t'

variable {inv : τ → Prop} {rely : τ → τ → Prop} {allows : Pid → G.Stmt → τ → Prop}

/-- A discipline on top of a sound one is sound, when its own invariant and relation are upheld and
every program fulfils its contract. -/
theorem Sound.uphold (hD : D.Sound) (h : D.Upholds inv rely allows)
    (hprogram : ∀ r t, D.inv t → inv t → D.sys.admits r t →
      wp ((D.uphold inv rely allows).contract (D.sys.next t)) (D.sys.program r) (fun _ _ => True)
        (D.sys.enter r t)) : (D.uphold inv rely allows).Sound where
  refl := fun p t => ⟨hD.refl p t, h.refl t⟩
  trans := fun p a b c hab hbc =>
    ⟨hD.trans p a b c hab.1 hbc.1, h.trans a b c hab.2 hbc.2⟩
  stable := fun p t t' hp hr => hD.stable p t t' hp hr.1
  stmt := by
    intro p q t hi hp henabled ha
    obtain ⟨⟨hi', hr⟩, hp'⟩ := hD.stmt p q t hi.1 hp henabled.1 henabled.2.2.2
    obtain ⟨hinv, hrely⟩ := h.stmt p q t hi.2 henabled ha
    exact ⟨⟨⟨hi', hinv⟩, fun p' hne => ⟨hr p' hne, hrely⟩⟩, hp'⟩
  call := by
    intro p c t r t' hi hp _ hanswer
    obtain ⟨⟨hi', hr⟩, hp'⟩ := hD.call p c t r t' hi.1 hp hanswer.1.2.2 hanswer.2
    obtain ⟨hinv, hrely⟩ := h.call p c t r t' hi.2 hanswer
    exact ⟨⟨⟨hi', hinv⟩, fun p' hne => ⟨hr p' hne, hrely⟩⟩, hp'⟩
  enter := by
    intro r t hi hadmits
    obtain ⟨⟨hi', hr⟩, hp'⟩ := hD.enter r t hi.1 hadmits.1
    obtain ⟨hinv, hrely⟩ := h.enter r t hi.2 hadmits
    exact ⟨⟨⟨hi', hinv⟩, fun p' hne => ⟨hr p' hne, hrely⟩⟩, hp'⟩
  leave := by
    intro p t hi hp
    obtain ⟨hi', hr⟩ := hD.leave p t hi.1 hp
    obtain ⟨hinv, hrely⟩ := h.leave p t hi.2 hi.1
    exact ⟨⟨hi', hinv⟩, fun p' hne => ⟨hr p' hne, hrely⟩⟩
  env := by
    intro t t' hi henv
    obtain ⟨hi', hr⟩ := hD.env t t' hi.1 henv.2
    obtain ⟨hinv, hrely⟩ := h.env t t' hi.2 henv
    exact ⟨⟨hi', hinv⟩, fun p => ⟨hr p, hrely⟩⟩
  program := fun r t hi hadmits => hprogram r t hi.1 hi.2 hadmits.1

/-- A step of the world is one that everybody reckons with. -/
theorem Sound.rely_of_step (hD : D.Sound) (h : D.Upholds inv rely allows) {w w' : World G τ}
    (hw : D.Holds w) (hw' : (D.uphold inv rely allows).Holds w) (hs : World.Step D.sys w w') :
    rely w.shared w'.shared := by
  have hallowed := hD.step_allowed hw hs
  have hinv : inv w.shared := hw'.1.2
  cases hallowed with
  | spawn r hadmits => exact (h.enter r _ hinv hadmits).2
  | interact p prog prog' t' hp hstep =>
    obtain ⟨hpresent, hprog⟩ := hw'.2 p prog hp
    have hrefl : ∀ t, ((D.uphold inv rely allows).contract p).rely t t :=
      fun t => ⟨hD.refl p t, h.refl t⟩
    cases hstep with
    | stmt q k _ he =>
      obtain ⟨ha, -⟩ := hprog w.shared (hrefl _) ⟨hw'.1, hpresent⟩ he
      exact (h.stmt p q _ hinv he ha).2
    | call c k _ _ r hr => exact (h.call p c _ r _ hinv hr).2
  | exit p prog hp => exact (h.leave p _ hinv hw.1).2
  | env t' henv => exact (h.env _ _ hinv henv).2

end Discipline

/-- A step within bounds is one within weaker bounds. -/
theorem World.Step.confine_mono {G : Signature} {τ Req : Type} {sys : System G τ Req}
    {ok ok' : τ → τ → Prop} (hok : ∀ t t', sys.env t t' → ok t t' → ok' t t') {w w' : World G τ}
    (h : World.Step (sys.confine ok) w w') : World.Step (sys.confine ok') w w' := by
  cases h with
  | spawn r hr => exact .spawn w r hr
  | interact p prog prog' t' hp hstep =>
    cases hstep with
    | stmt q k _ he => exact .interact w p _ _ _ hp (.stmt q k _ he)
    | call c k _ _ r hr => exact .interact w p _ _ _ hp (.call c k _ _ r hr)
  | exit p prog hp => exact .exit w p prog hp
  | env t' henv => exact .env w t' ⟨henv.1, hok _ _ henv.1 henv.2⟩

/-! ## Clients -/

/-- Programs of another signature that act on the state of a system. -/
structure Clients (F : Signature) (τ Req : Type) where
  machine : Machine F τ
  program : Req → Program F Unit

/-- What an interaction of a client does to the shared state. -/
inductive Clients.Does {F : Signature} {τ Req : Type} (cl : Clients F τ Req) (t : τ) : τ → Prop
  | stmt (c : Pid) (q : F.Stmt) (h : cl.machine.enabled c q t) : Does cl t (cl.machine.exec c q t)
  | call (c : Pid) (a : F.Call) (r : Except F.Exc (F.Reply a)) (t' : τ)
      (h : cl.machine.answer c a t r t') : Does cl t t'

/-- A step of a client's program does something that the client may do. -/
theorem Clients.does_of_step {F : Signature} {τ Req : Type} {cl : Clients F τ Req} {c : Pid}
    {prog prog' : Program F Unit} {t t' : τ}
    (h : Program.Step cl.machine c (prog, t) (prog', t')) : cl.Does t t' := by
  cases h with
  | stmt q k _ he => exact .stmt c q he
  | call a k _ _ r hr => exact .call c a r t' hr

/-- The world of a system, and what is left of the program of every client. -/
structure Joint (G F : Signature) (τ : Type) where
  world : World G τ
  clients : Pid → Option (Program F Unit)

namespace Joint

variable {G F : Signature} {τ Req Req' : Type}

/-- One client makes a step, which changes the state. -/
def put (j : Joint G F τ) (c : Pid) (prog : Option (Program F Unit)) (t : τ) : Joint G F τ where
  world := ⟨t, j.world.procs⟩
  clients := fun c' => if c' = c then prog else j.clients c'

/-- A step of the system, or of a client: it connects, interacts, or is cut off. -/
inductive Step (sys : System G τ Req) (cl : Clients F τ Req') : Joint G F τ → Joint G F τ → Prop
  | system (j : Joint G F τ) (w' : World G τ) (h : World.Step sys j.world w') :
      Step sys cl j ⟨w', j.clients⟩
  | connect (j : Joint G F τ) (c : Pid) (r : Req') (h : j.clients c = none) :
      Step sys cl j (j.put c (some (cl.program r)) j.world.shared)
  | interact (j : Joint G F τ) (c : Pid) (prog prog' : Program F Unit) (t' : τ)
      (hc : j.clients c = some prog)
      (h : Program.Step cl.machine c (prog, j.world.shared) (prog', t')) :
      Step sys cl j (j.put c (some prog') t')
  | disconnect (j : Joint G F τ) (c : Pid) : Step sys cl j (j.put c none j.world.shared)

abbrev Reach (sys : System G τ Req) (cl : Clients F τ Req') : Joint G F τ → Joint G F τ → Prop :=
  Relation.ReflTransGen (Step sys cl)

/-- Of two steps of one client the second decides what is left of it. -/
theorem put_put (j : Joint G F τ) (c : Pid) (prog prog' : Option (Program F Unit)) (t t' : τ) :
    (j.put c prog t).put c prog' t' = j.put c prog' t' := by
  have hclients : ((j.put c prog t).put c prog' t').clients = (j.put c prog' t').clients := by
    funext c'
    show (if c' = c then prog' else if c' = c then prog else j.clients c') =
      if c' = c then prog' else j.clients c'
    split
    · rfl
    · rfl
  exact congrArg (Joint.mk ⟨t', j.world.procs⟩) hclients

/-- A client goes on while nothing else happens. -/
theorem Reach.client {sys : System G τ Req} {cl : Clients F τ Req'} {j₀ j : Joint G F τ} {c : Pid}
    {u v : Program F Unit × τ} (h : Reach sys cl j₀ (j.put c (some u.1) u.2))
    (hstep : Program.Step cl.machine c u v) : Reach sys cl j₀ (j.put c (some v.1) v.2) := by
  have hnext : Step sys cl (j.put c (some u.1) u.2)
      ((j.put c (some u.1) u.2).put c (some v.1) v.2) :=
    .interact _ c u.1 v.1 v.2 (if_pos rfl) hstep
  rw [put_put] at hnext
  exact h.tail hnext

/-- No process is running, and no client is connected. -/
def idle (t : τ) : Joint G F τ := ⟨World.idle t, fun _ => none⟩

/-- Where the system admits as a step of its environment whatever a client does, its part of a
run of both is a run of the system. -/
theorem reach_world {sys : System G τ Req} {cl : Clients F τ Req'}
    (henv : ∀ t t', cl.Does t t' → sys.env t t') {j j' : Joint G F τ}
    (h : Reach sys cl j j') : World.Reach sys j.world j'.world := by
  induction h with
  | refl => exact Relation.ReflTransGen.refl
  | tail _ hs ih =>
    cases hs with
    | system w' hw => exact ih.tail hw
    | interact c prog prog' t' hc hp =>
      exact ih.tail (.env _ t' (henv _ _ (Clients.does_of_step hp)))
    | connect c r hc => exact ih
    | disconnect c => exact ih

end Joint

/-- What every client may assume and must guarantee. -/
structure Guard (F : Signature) (τ : Type) where
  inv : τ → Prop
  rely : τ → τ → Prop
  allowsStmt : F.Stmt → τ → Prop
  allowsCall : F.Call → τ → Prop

namespace Guard

variable {G F : Signature} {τ Req Req' : Type}

/-- The contract of one client. -/
def contract (g : Guard F τ) (cl : Clients F τ Req') (c : Pid) : Contract F τ where
  machine := cl.machine
  self := c
  inv := g.inv
  rely := g.rely
  allowsStmt := g.allowsStmt
  allowsCall := g.allowsCall

/-- What the steps of the system and of its clients must be to each other, where `J` is what the
system keeps to. -/
structure Sound (g : Guard F τ) (sys : System G τ Req) (cl : Clients F τ Req')
    (J : World G τ → Prop) : Prop where
  refl : ∀ t, g.rely t t
  trans : ∀ a b c, g.rely a b → g.rely b c → g.rely a c
  inv : ∀ w, J w → g.inv w.shared
  system : ∀ w w', J w → World.Step sys w w' → J w' ∧ g.rely w.shared w'.shared
  stmt : ∀ c q w, J w → cl.machine.enabled c q w.shared → g.allowsStmt q w.shared →
    J ⟨cl.machine.exec c q w.shared, w.procs⟩ ∧ g.rely w.shared (cl.machine.exec c q w.shared)
  call : ∀ c a w r t', J w → g.allowsCall a w.shared → cl.machine.answer c a w.shared r t' →
    J ⟨t', w.procs⟩ ∧ g.rely w.shared t'
  program : ∀ c r t, g.inv t → wp (g.contract cl c) (cl.program r) (fun _ _ => True) t

/-- What holds of both: what the system keeps to, and for every client the precondition of the
rest of its program. -/
def Holds (g : Guard F τ) (cl : Clients F τ Req') (J : World G τ → Prop) (j : Joint G F τ) :
    Prop :=
  J j.world ∧ ∀ c prog, j.clients c = some prog →
    wp (g.contract cl c) prog (fun _ _ => True) j.world.shared

variable {g : Guard F τ} {sys : System G τ Req} {cl : Clients F τ Req'} {J : World G τ → Prop}

/-- The clients keep their preconditions when the state moves along what they rely on. -/
theorem Sound.clients_rely (hg : g.Sound sys cl J) {j : Joint G F τ} (hj : g.Holds cl J j) {t' : τ}
    (hr : g.rely j.world.shared t') (c : Pid) (prog : Program F Unit)
    (hc : j.clients c = some prog) : wp (g.contract cl c) prog (fun _ _ => True) t' :=
  wp_rely hg.trans (fun _ _ _ _ _ => trivial) (hj.2 c prog hc) hr

/-- A step of a client keeps what holds of both, when it keeps the invariant, the others reckon with
it, and the rest of its program is still as required. -/
theorem Sound.holds_put (hg : g.Sound sys cl J) {j : Joint G F τ} (hj : g.Holds cl J j) {c : Pid}
    {prog : Option (Program F Unit)} {t' : τ} (hJ : J ⟨t', j.world.procs⟩)
    (hr : g.rely j.world.shared t')
    (hp : ∀ q, prog = some q → wp (g.contract cl c) q (fun _ _ => True) t') :
    g.Holds cl J (j.put c prog t') := by
  refine ⟨hJ, ?_⟩
  intro c' q hq
  have hq : (if c' = c then prog else j.clients c') = some q := hq
  by_cases h : c' = c
  · rw [if_pos h] at hq
    rw [h]
    exact hp q hq
  · rw [if_neg h] at hq
    exact hg.clients_rely hj hr c' q hq

/-- One step of either side keeps what holds of both. -/
theorem Sound.holds_step (hg : g.Sound sys cl J) {j j' : Joint G F τ} (hj : g.Holds cl J j)
    (hs : Joint.Step sys cl j j') : g.Holds cl J j' := by
  cases hs with
  | system w' hw =>
    obtain ⟨hJ, hr⟩ := hg.system _ _ hj.1 hw
    exact ⟨hJ, fun c prog hc => hg.clients_rely hj hr c prog hc⟩
  | connect c r hc =>
    refine hg.holds_put hj hj.1 (hg.refl _) ?_
    rintro q ⟨⟩
    exact hg.program c r _ (hg.inv _ hj.1)
  | interact c prog prog' t' hc hp =>
    obtain ⟨hwp, hact⟩ := wp_step (C := g.contract cl c) hg.refl (hg.inv _ hj.1) (hj.2 c prog hc) hp
    have hstep : J ⟨t', j.world.procs⟩ ∧ g.rely j.world.shared t' := by
      rcases hact with ⟨q, ha, he, rfl⟩ | ⟨a, r, ha, hans⟩
      · exact hg.stmt c q _ hj.1 he ha
      · exact hg.call c a _ r _ hj.1 ha hans
    refine hg.holds_put hj hstep.1 hstep.2 ?_
    rintro q ⟨⟩
    exact hwp
  | disconnect c =>
    refine hg.holds_put hj hj.1 (hg.refl _) ?_
    rintro q ⟨⟩

/-- What holds of the system and its clients at the start holds throughout every run of both. -/
theorem Sound.holds_of_reach (hg : g.Sound sys cl J) {j j' : Joint G F τ} (hj : g.Holds cl J j)
    (h : Joint.Reach sys cl j j') : g.Holds cl J j' := by
  induction h with
  | refl => exact hj
  | tail _ hs ih => exact hg.holds_step ih hs

/-- Where no client is connected, it is enough that the system keeps to its part. -/
theorem holds_idle {t : τ} (h : J (World.idle t)) : g.Holds cl J (Joint.idle t) := by
  refine ⟨h, ?_⟩
  intro c prog hc
  cases hc

end Guard

end Interactive
