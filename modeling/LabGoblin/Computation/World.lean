import LabGoblin.Computation.Contract
import Mathlib.Logic.Relation

/-!
# Systems of interleaved processes

A `System` says which programs the requests of an application run and what the start and
the end of a process do to the shared state. A `World` is the shared state together with
what is left of every live process. Its steps start a process, let one process make one
interaction, end a process (at its last instruction or by a crash, anywhere), or let the
environment act.

`Discipline` is the rely-guarantee method for such systems: an invariant of the shared
state, what every process may rely on, and what every process is allowed to do. Its
soundness theorem reduces a statement about every interleaving to the weakest
preconditions of the single programs.
-/

set_option autoImplicit false

namespace Interactive

/-- An application: its programs and what the life cycle of a process does to the state. -/
structure System (G : Signature) (τ Req : Type) where
  machine : Machine G τ
  program : Req → Program G Unit
  admits : Req → τ → Prop
  next : τ → Pid
  enter : Req → τ → τ
  leave : Pid → τ → τ
  env : τ → τ → Prop

/-- The shared state and the rest of the program of every live process. -/
structure World (G : Signature) (τ : Type) where
  shared : τ
  procs : Pid → Option (Program G Unit)

namespace World

variable {G : Signature} {τ Req : Type}

/-- Replace what is left of one process. -/
def put (w : World G τ) (p : Pid) (prog : Option (Program G Unit)) (t : τ) : World G τ where
  shared := t
  procs := fun p' => if p' = p then prog else w.procs p'

/-- A step sets the shared state. -/
@[simp] theorem put_shared (w : World G τ) (p : Pid) (prog : Option (Program G Unit)) (t : τ) :
    (w.put p prog t).shared = t := rfl

/-- A step sets what is left of its own process. -/
@[simp] theorem put_procs_self (w : World G τ) (p : Pid) (prog : Option (Program G Unit)) (t : τ) :
    (w.put p prog t).procs p = prog := if_pos rfl

/-- A step leaves the other processes as they are. -/
theorem put_procs_of_ne (w : World G τ) {p p' : Pid} (prog : Option (Program G Unit)) (t : τ)
    (h : p' ≠ p) : (w.put p prog t).procs p' = w.procs p' := if_neg h

/-- One step of the world. -/
inductive Step (sys : System G τ Req) : World G τ → World G τ → Prop
  | spawn (w : World G τ) (r : Req) (h : sys.admits r w.shared) :
      Step sys w (w.put (sys.next w.shared) (some (sys.program r)) (sys.enter r w.shared))
  | interact (w : World G τ) (p : Pid) (prog prog' : Program G Unit) (t' : τ)
      (hp : w.procs p = some prog)
      (h : Program.Step sys.machine p (prog, w.shared) (prog', t')) :
      Step sys w (w.put p (some prog') t')
  | exit (w : World G τ) (p : Pid) (prog : Program G Unit) (hp : w.procs p = some prog) :
      Step sys w (w.put p none (sys.leave p w.shared))
  | env (w : World G τ) (t' : τ) (h : sys.env w.shared t') : Step sys w ⟨t', w.procs⟩

/-- The worlds that can be reached by any number of steps. -/
abbrev Reach (sys : System G τ Req) : World G τ → World G τ → Prop :=
  Relation.ReflTransGen (Step sys)

/-- A world in which no process is running. -/
def idle (t : τ) : World G τ := ⟨t, fun _ => none⟩

end World

namespace System

variable {G : Signature} {τ Req : Type}

/-- The system whose steps all meet a condition on the request, statement or call they
start with and on the state before them. -/
def restrict (sys : System G τ Req) (okStart : Req → τ → Prop) (okStmt : Pid → G.Stmt → τ → Prop)
    (okCall : Pid → G.Call → τ → Prop) : System G τ Req :=
  { sys with
    admits := fun r t => sys.admits r t ∧ okStart r t
    machine :=
      { sys.machine with
        enabled := fun p q t => sys.machine.enabled p q t ∧ okStmt p q t
        answer := fun p c t r t' => okCall p c t ∧ sys.machine.answer p c t r t' } }

/-- The system in which the environment acts within bounds. -/
def confine (sys : System G τ Req) (okEnv : τ → τ → Prop) : System G τ Req :=
  { sys with env := fun t t' => sys.env t t' ∧ okEnv t t' }

end System

namespace World

variable {G : Signature} {τ Req : Type}

/-! ### What the live programs can issue -/

/-- Every live program issues only statements in `S`. -/
def Issues (S : G.Stmt → Prop) (w : World G τ) : Prop :=
  ∀ p prog, w.procs p = some prog → prog.Ensures S (fun _ => True) (fun _ => True)

/-- What one step does to the shared state, when the live programs issue only statements
in `S`. -/
inductive Does (sys : System G τ Req) (S : G.Stmt → Prop) (t : τ) : τ → Prop
  | enter (r : Req) (h : sys.admits r t) : Does sys S t (sys.enter r t)
  | stmt (p : Pid) (q : G.Stmt) (hq : S q) (h : sys.machine.enabled p q t) :
      Does sys S t (sys.machine.exec p q t)
  | call (p : Pid) (c : G.Call) (r : Except G.Exc (G.Reply c)) (t' : τ)
      (h : sys.machine.answer p c t r t') : Does sys S t t'
  | leave (p : Pid) : Does sys S t (sys.leave p t)
  | env (t' : τ) (h : sys.env t t') : Does sys S t t'

variable {sys : System G τ Req} {S : G.Stmt → Prop} {w w' : World G τ}

/-- A step keeps what all processes may issue, when the rest of its program may issue no more. -/
theorem Issues.put (hw : Issues S w) {p : Pid} {prog : Option (Program G Unit)} {t : τ}
    (hprog : ∀ q, prog = some q → q.Ensures S (fun _ => True) (fun _ => True)) :
    Issues S (w.put p prog t) := by
  intro p' q hq
  by_cases h : p' = p
  · subst h
    rw [World.put_procs_self] at hq
    exact hprog q hq
  · rw [World.put_procs_of_ne _ _ _ h] at hq
    exact hw p' q hq

/-- One step of the world is one of the things its programs can do, and what is left of them
issues no other statements. -/
theorem Issues.step (hw : Issues S w)
    (hprogram : ∀ r, (sys.program r).Ensures S (fun _ => True) (fun _ => True))
    (hs : World.Step sys w w') : Does sys S w.shared w'.shared ∧ Issues S w' := by
  cases hs with
  | spawn r h =>
    refine ⟨.enter r h, hw.put fun q hq => ?_⟩
    cases hq
    exact hprogram r
  | interact p prog prog' t' hp h =>
    have hprog := hw p prog hp
    cases h with
    | stmt q k _ he =>
      refine ⟨.stmt p q hprog.1 he, hw.put fun q' hq' => ?_⟩
      cases hq'
      exact hprog.2 _
    | call c k _ _ r hr =>
      refine ⟨.call p c r t' hr, hw.put fun q' hq' => ?_⟩
      cases hq'
      exact hprog.2 r
  | exit p prog hp =>
    refine ⟨.leave p, hw.put fun q hq => ?_⟩
    cases hq
  | env t' h => exact ⟨.env t' h, hw⟩

/-- From an idle world on, the live programs issue what the programs of the system do. -/
theorem issues_of_reach {t : τ}
    (hprogram : ∀ r, (sys.program r).Ensures S (fun _ => True) (fun _ => True))
    (hr : World.Reach sys (World.idle t) w) : Issues S w := by
  induction hr with
  | refl =>
    intro p prog hp
    cases hp
  | tail _ hs ih => exact (ih.step hprogram hs).2

end World

/-- A rely-guarantee argument for a system: the invariant of the shared state, what the state
says of every live process, what a process may rely on, and what it is allowed to do. -/
structure Discipline (G : Signature) (τ Req : Type) where
  sys : System G τ Req
  inv : τ → Prop
  present : Pid → τ → Prop
  rely : Pid → τ → τ → Prop
  allowsStmt : Pid → G.Stmt → τ → Prop
  allowsCall : Pid → G.Call → τ → Prop

namespace Discipline

variable {G : Signature} {τ Req : Type} (D : Discipline G τ Req)

/-- The contract of the process `p`. -/
def contract (p : Pid) : Contract G τ where
  machine := D.sys.machine
  self := p
  inv := fun t => D.inv t ∧ D.present p t
  rely := D.rely p
  allowsStmt := D.allowsStmt p
  allowsCall := D.allowsCall p

/-- A step of one process keeps the invariant and is one that every other process
reckons with. -/
def Respects (p : Pid) (t t' : τ) : Prop :=
  D.inv t' ∧ ∀ p', p' ≠ p → D.rely p' t t'

/-- The obligations of a rely-guarantee argument. -/
structure Sound : Prop where
  refl : ∀ p t, D.rely p t t
  trans : ∀ p a b c, D.rely p a b → D.rely p b c → D.rely p a c
  stable : ∀ p t t', D.present p t → D.rely p t t' → D.present p t'
  stmt : ∀ p q t, D.inv t → D.present p t → D.sys.machine.enabled p q t → D.allowsStmt p q t →
    D.Respects p t (D.sys.machine.exec p q t) ∧ D.present p (D.sys.machine.exec p q t)
  call : ∀ p c t r t', D.inv t → D.present p t → D.allowsCall p c t →
    D.sys.machine.answer p c t r t' → D.Respects p t t' ∧ D.present p t'
  enter : ∀ r t, D.inv t → D.sys.admits r t →
    D.Respects (D.sys.next t) t (D.sys.enter r t) ∧ D.present (D.sys.next t) (D.sys.enter r t)
  leave : ∀ p t, D.inv t → D.present p t → D.Respects p t (D.sys.leave p t)
  env : ∀ t t', D.inv t → D.sys.env t t' → D.inv t' ∧ ∀ p, D.rely p t t'
  program : ∀ r t, D.inv t → D.sys.admits r t →
    wp (D.contract (D.sys.next t)) (D.sys.program r) (fun _ _ => True) (D.sys.enter r t)

/-- What holds of a world under the discipline: the invariant, and for every live process
its presence and the precondition of the rest of its program. -/
def Holds (w : World G τ) : Prop :=
  D.inv w.shared ∧
    ∀ p prog, w.procs p = some prog →
      D.present p w.shared ∧ wp (D.contract p) prog (fun _ _ => True) w.shared

variable {D}

/-- The others keep their preconditions when the state moves along what they rely on. -/
theorem Sound.holds_put (hD : D.Sound) {w : World G τ} (hw : D.Holds w) {p : Pid} {t' : τ}
    {prog : Option (Program G Unit)} (hr : D.Respects p w.shared t')
    (hp : ∀ q, prog = some q → D.present p t' ∧ wp (D.contract p) q (fun _ _ => True) t') :
    D.Holds (w.put p prog t') := by
  refine ⟨hr.1, ?_⟩
  intro p' q hq
  by_cases h : p' = p
  · subst h
    rw [World.put_procs_self] at hq
    exact hp q hq
  · rw [World.put_procs_of_ne _ _ _ h] at hq
    obtain ⟨hpresent, hwp⟩ := hw.2 p' q hq
    refine ⟨hD.stable p' _ _ hpresent (hr.2 p' h), ?_⟩
    exact wp_rely (hD.trans p') (fun _ _ _ _ _ => trivial) hwp (hr.2 p' h)

/-- One step of the world keeps the discipline. -/
theorem Sound.holds_step (hD : D.Sound) {w w' : World G τ} (hw : D.Holds w)
    (hs : World.Step D.sys w w') : D.Holds w' := by
  cases hs with
  | spawn r h =>
    obtain ⟨hrespects, hpresent⟩ := hD.enter r _ hw.1 h
    refine hD.holds_put hw hrespects ?_
    intro q hq
    cases hq
    exact ⟨hpresent, hD.program r _ hw.1 h⟩
  | interact p prog prog' t' hp h =>
    obtain ⟨hpresent, hprog⟩ := hw.2 p prog hp
    obtain ⟨hwp, hact⟩ := wp_step (C := D.contract p) (hD.refl p) ⟨hw.1, hpresent⟩ hprog h
    have hr : D.Respects p w.shared t' ∧ D.present p t' := by
      rcases hact with ⟨q, ha, he, rfl⟩ | ⟨c, r, ha, hans⟩
      · exact hD.stmt p q _ hw.1 hpresent he ha
      · exact hD.call p c _ r _ hw.1 hpresent ha hans
    refine hD.holds_put hw hr.1 ?_
    intro q hq
    cases hq
    exact ⟨hr.2, hwp⟩
  | exit p prog hp =>
    refine hD.holds_put hw (hD.leave p _ hw.1 (hw.2 p prog hp).1) ?_
    intro q hq
    cases hq
  | env t' h =>
    obtain ⟨hi, hr⟩ := hD.env _ _ hw.1 h
    refine ⟨hi, fun p q hq => ?_⟩
    obtain ⟨hpresent, hwp⟩ := hw.2 p q hq
    refine ⟨hD.stable p _ _ hpresent (hr p), ?_⟩
    exact wp_rely (hD.trans p) (fun _ _ _ _ _ => trivial) hwp (hr p)

/-- Soundness of the rely-guarantee method: the discipline holds in every world that is
reachable from one in which it holds. -/
theorem Sound.holds_of_reach (hD : D.Sound) {w w' : World G τ} (hw : D.Holds w)
    (hr : World.Reach D.sys w w') : D.Holds w' := by
  induction hr with
  | refl => exact hw
  | tail _ hs ih => exact hD.holds_step ih hs

/-! ### Layers

What one discipline establishes, the next may assume: every run of the system is a run of the
system in which each process, at each interaction, meets what the discipline allows. -/

variable (D) in
/-- The system whose steps all keep to the discipline. -/
def allowed : System G τ Req :=
  { D.sys.restrict (fun _ t => D.inv t)
      (fun p q t => D.inv t ∧ D.present p t ∧ D.allowsStmt p q t)
      (fun p c t => D.inv t ∧ D.present p t ∧ D.allowsCall p c t) with
    env := fun t t' => D.inv t ∧ D.sys.env t t' }

/-- One step of the world is a step of the system that keeps to the discipline. -/
theorem Sound.step_allowed (hD : D.Sound) {w w' : World G τ} (hw : D.Holds w)
    (hs : World.Step D.sys w w') : World.Step D.allowed w w' := by
  cases hs with
  | spawn r h => exact .spawn w r ⟨h, hw.1⟩
  | interact p prog prog' t' hp h =>
    obtain ⟨hpresent, hwp⟩ := hw.2 p prog hp
    refine .interact w p prog prog' t' hp ?_
    cases h with
    | stmt q k _ he =>
      obtain ⟨ha, -⟩ := hwp w.shared (hD.refl p _) ⟨hw.1, hpresent⟩ he
      exact .stmt q k _ ⟨he, hw.1, hpresent, ha⟩
    | call c k _ _ r hr =>
      obtain ⟨ha, -⟩ := hwp w.shared (hD.refl p _) ⟨hw.1, hpresent⟩
      exact .call c k _ _ r ⟨⟨hw.1, hpresent, ha⟩, hr⟩
  | exit p prog hp => exact .exit w p prog hp
  | env t' h => exact .env w t' ⟨hw.1, h⟩

/-- Every run of a system under a sound discipline keeps to the discipline throughout. -/
theorem Sound.reach_allowed (hD : D.Sound) {w w' : World G τ} (hw : D.Holds w)
    (hr : World.Reach D.sys w w') : World.Reach D.allowed w w' := by
  induction hr with
  | refl => exact Relation.ReflTransGen.refl
  | tail hr hs ih => exact ih.tail (hD.step_allowed (hD.holds_of_reach hw hr) hs)

variable (D) in
/-- A discipline on top of another: its processes also rely on what `rely` says, and make only
the statements that `allows` admits. -/
def layer (rely : Pid → τ → τ → Prop) (allows : Pid → G.Stmt → τ → Prop) :
    Discipline G τ Req where
  sys := D.allowed
  inv := D.inv
  present := D.present
  rely := fun p t t' => D.rely p t t' ∧ rely p t t'
  allowsStmt := allows
  allowsCall := fun _ _ _ => True

/-- What a layer has to establish of the relation that it adds. -/
structure Relies (D : Discipline G τ Req) (rely : Pid → τ → τ → Prop) : Prop where
  refl : ∀ p t, rely p t t
  trans : ∀ p a b c, D.rely p a b → D.rely p b c → rely p a b → rely p b c → rely p a c
  stmt : ∀ p q t p', p' ≠ p → D.allowed.machine.enabled p q t →
    rely p' t (D.sys.machine.exec p q t)
  call : ∀ p c t r t' p', p' ≠ p → D.allowed.machine.answer p c t r t' → rely p' t t'
  enter : ∀ r t p', p' ≠ D.sys.next t → D.allowed.admits r t → rely p' t (D.sys.enter r t)
  leave : ∀ p t p', p' ≠ p → D.inv t → rely p' t (D.sys.leave p t)
  env : ∀ t t' p, D.allowed.env t t' → rely p t t'

/-- A layer on top of a sound discipline is sound as soon as the programs keep it. -/
theorem Sound.layer (hD : D.Sound) {rely : Pid → τ → τ → Prop}
    {allows : Pid → G.Stmt → τ → Prop} (hrely : D.Relies rely)
    (hprogram : ∀ r t, D.inv t → D.sys.admits r t →
      wp ((D.layer rely allows).contract (D.sys.next t)) (D.sys.program r) (fun _ _ => True)
        (D.sys.enter r t)) : (D.layer rely allows).Sound where
  refl := fun p t => ⟨hD.refl p t, hrely.refl p t⟩
  trans := fun p a b c h h' =>
    ⟨hD.trans p a b c h.1 h'.1, hrely.trans p a b c h.1 h'.1 h.2 h'.2⟩
  stable := fun p t t' hp hr => hD.stable p t t' hp hr.1
  stmt := by
    intro p q t hi hp henabled _
    have hallows : D.allowsStmt p q t := henabled.2.2.2
    have henabled' : D.sys.machine.enabled p q t := henabled.1
    obtain ⟨⟨hi', hr⟩, hp'⟩ := hD.stmt p q t hi hp henabled' hallows
    exact ⟨⟨hi', fun p' hne => ⟨hr p' hne, hrely.stmt p q t p' hne henabled⟩⟩, hp'⟩
  call := by
    intro p c t r t' hi hp _ hanswer
    have hallows : D.allowsCall p c t := hanswer.1.2.2
    obtain ⟨⟨hi', hr⟩, hp'⟩ := hD.call p c t r t' hi hp hallows hanswer.2
    exact ⟨⟨hi', fun p' hne => ⟨hr p' hne, hrely.call p c t r t' p' hne hanswer⟩⟩, hp'⟩
  enter := by
    intro r t hi hadmits
    obtain ⟨⟨hi', hr⟩, hp'⟩ := hD.enter r t hi hadmits.1
    exact ⟨⟨hi', fun p' hne => ⟨hr p' hne, hrely.enter r t p' hne hadmits⟩⟩, hp'⟩
  leave := by
    intro p t hi hp
    obtain ⟨hi', hr⟩ := hD.leave p t hi hp
    exact ⟨hi', fun p' hne => ⟨hr p' hne, hrely.leave p t p' hne hi⟩⟩
  env := by
    intro t t' hi henv
    obtain ⟨hi', hr⟩ := hD.env t t' hi henv.2
    exact ⟨hi', fun p => ⟨hr p, hrely.env t t' p henv⟩⟩
  program := fun r t hi hadmits => hprogram r t hi hadmits.1

variable (D) in
/-- The same discipline for the runs that meet a condition. -/
def restrict (okStart : Req → τ → Prop) (okStmt : Pid → G.Stmt → τ → Prop)
    (okCall : Pid → G.Call → τ → Prop) : Discipline G τ Req :=
  { D with sys := D.sys.restrict okStart okStmt okCall }

/-- A program that keeps to a contract keeps to it where fewer things can happen. -/
theorem wp_restrict {okStart : Req → τ → Prop} {okStmt : Pid → G.Stmt → τ → Prop}
    {okCall : Pid → G.Call → τ → Prop} {p : Pid} {α : Type} {prog : Program G α}
    {Q : Post G τ α} {t : τ} (h : wp (D.contract p) prog Q t) :
    wp ((D.restrict okStart okStmt okCall).contract p) prog Q t := by
  induction prog generalizing t with
  | pure a => exact h
  | throw e => exact h
  | stmt q k ih =>
    intro t' hrely hinv henabled
    obtain ⟨hallows, hk⟩ := h t' hrely hinv henabled.1
    exact ⟨hallows, ih _ hk⟩
  | call c k ih =>
    intro t' hrely hinv
    obtain ⟨hallows, hk⟩ := h t' hrely hinv
    exact ⟨hallows, fun r t'' hans => ih _ (hk r t'' hans.2)⟩

/-- A discipline that is sound for a system is sound for the runs that meet a condition. -/
theorem Sound.restrict (hD : D.Sound) (okStart : Req → τ → Prop)
    (okStmt : Pid → G.Stmt → τ → Prop) (okCall : Pid → G.Call → τ → Prop) :
    (D.restrict okStart okStmt okCall).Sound where
  refl := hD.refl
  trans := hD.trans
  stable := hD.stable
  stmt := fun p q t hi hp he ha => hD.stmt p q t hi hp he.1 ha
  call := fun p c t r t' hi hp ha hans => hD.call p c t r t' hi hp ha hans.2
  enter := fun r t hi hadmits => hD.enter r t hi hadmits.1
  leave := hD.leave
  env := hD.env
  program := fun r t hi hadmits => wp_restrict (hD.program r t hi hadmits.1)

variable (D) in
/-- The same discipline where the environment acts within bounds. -/
def confine (okEnv : τ → τ → Prop) : Discipline G τ Req :=
  { D with sys := D.sys.confine okEnv }

/-- A discipline that is sound for a system is sound where the environment keeps to bounds. -/
theorem Sound.confine (hD : D.Sound) (okEnv : τ → τ → Prop) : (D.confine okEnv).Sound where
  refl := hD.refl
  trans := hD.trans
  stable := hD.stable
  stmt := hD.stmt
  call := hD.call
  enter := hD.enter
  leave := hD.leave
  env := fun t t' hi henv => hD.env t t' hi henv.1
  program := hD.program

/-- In an idle world a discipline holds as soon as its invariant does. -/
theorem holds_idle {t : τ} (ht : D.inv t) : D.Holds (World.idle t) := by
  refine ⟨ht, ?_⟩
  intro p prog hp
  cases hp

end Discipline

namespace System

variable {G : Signature} {τ Req : Type}

/-- The steps of a system preserve a property of the shared state. -/
structure Preserves (sys : System G τ Req) (inv : τ → Prop) : Prop where
  stmt : ∀ p q t, inv t → sys.machine.enabled p q t → inv (sys.machine.exec p q t)
  call : ∀ p c t r t', inv t → sys.machine.answer p c t r t' → inv t'
  enter : ∀ r t, inv t → sys.admits r t → inv (sys.enter r t)
  leave : ∀ p t, inv t → inv (sys.leave p t)
  env : ∀ t t', inv t → sys.env t t' → inv t'

/-- What the steps preserve holds in every world that is reached. -/
theorem Preserves.of_reach {sys : System G τ Req} {inv : τ → Prop} (h : sys.Preserves inv)
    {w w' : World G τ} (hw : inv w.shared) (hr : World.Reach sys w w') : inv w'.shared := by
  induction hr with
  | refl => exact hw
  | tail _ hs ih =>
    cases hs with
    | spawn r hadmits => exact h.enter r _ ih hadmits
    | interact p prog prog' t' _ hstep =>
      cases hstep with
      | stmt q k _ he => exact h.stmt p q _ ih he
      | call c k _ _ r hr => exact h.call p c _ r _ ih hr
    | exit p prog _ => exact h.leave p _ ih
    | env t' henv => exact h.env _ _ ih henv

end System

end Interactive
