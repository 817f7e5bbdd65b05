import LabGoblin.Computation.World

/-!
# Scripts

An executable way to exhibit a run of a system. A script is a list of moves: start a
process, let a process make a number of interactions with its calls answered by a given
function, end it, or let the environment act. `play` carries a script out, and what it reaches
is reachable.
-/

set_option autoImplicit false

namespace Interactive

/-- A system whose steps can be carried out: statements can be checked for being enabled,
every request may start, every reply to a call can be delivered, and the environment has a
family of steps to choose from. -/
structure Player {G : Signature} {τ Req : Type} (sys : System G τ Req) where
  decEnabled : ∀ p q t, Decidable (sys.machine.enabled p q t)
  admits : ∀ r t, sys.admits r t
  deliver : (p : Pid) → (c : G.Call) → τ → Except G.Exc (G.Reply c) → τ
  deliver_answer : ∀ p c t r, sys.machine.answer p c t r (deliver p c t r)
  wait : ℕ → τ → τ
  wait_env : ∀ n t, sys.env t (wait n t)

/-- One move of a script. -/
inductive Move (G : Signature) (Req : Type) where
  | spawn (r : Req)
  | run (p : Pid) (interactions : ℕ) (answers : (c : G.Call) → Except G.Exc (G.Reply c))
  | exit (p : Pid)
  | wait (n : ℕ)

namespace Player

variable {G : Signature} {τ Req : Type} {sys : System G τ Req} (player : Player sys)

/-- Let a program make a number of interactions; `none` when it is blocked or has ended. -/
def runProgram {α : Type} (p : Pid) (answers : (c : G.Call) → Except G.Exc (G.Reply c)) :
    ℕ → Program G α × τ → Option (Program G α × τ)
  | 0, s => some s
  | n + 1, (.stmt q k, t) =>
    haveI := player.decEnabled p q t
    if sys.machine.enabled p q t then
      runProgram p answers n (k (sys.machine.view t), sys.machine.exec p q t)
    else none
  | n + 1, (.call c k, t) =>
    runProgram p answers n (k (answers c), player.deliver p c t (answers c))
  | _ + 1, (.pure _, _) => none
  | _ + 1, (.throw _, _) => none

/-- What `runProgram` reaches is reached by a run without interference. -/
theorem runs_of_runProgram {α : Type} {p : Pid} {rely : τ → τ → Prop}
    {answers : (c : G.Call) → Except G.Exc (G.Reply c)} {n : ℕ} {start s s' : Program G α × τ}
    (hs : Program.Runs sys.machine p rely start s)
    (h : player.runProgram p answers n s = some s') :
    Program.Runs sys.machine p rely start s' := by
  induction n generalizing s with
  | zero =>
    cases h
    exact hs
  | succ n ih =>
    obtain ⟨prog, t⟩ := s
    cases prog with
    | pure a => cases h
    | throw e => cases h
    | stmt q k =>
      unfold runProgram at h
      split at h
      · rename_i he
        exact ih (.step hs (.stmt q k t he)) h
      · cases h
    | call c k =>
      exact ih (.step hs (.call c k t _ _ (player.deliver_answer p c t _))) h

/-- Carry out one move. -/
def move (w : World G τ) : Move G Req → Option (World G τ)
  | .spawn r =>
      some (w.put (sys.next w.shared) (some (sys.program r)) (sys.enter r w.shared))
  | .run p n answers =>
    match w.procs p with
    | none => none
    | some prog =>
      (player.runProgram p answers n (prog, w.shared)).map fun s => w.put p (some s.1) s.2
  | .exit p =>
    match w.procs p with
    | none => none
    | some _ => some (w.put p none (sys.leave p w.shared))
  | .wait n => some ⟨player.wait n w.shared, w.procs⟩

/-- Carry out a script. -/
def play : World G τ → List (Move G Req) → Option (World G τ)
  | w, [] => some w
  | w, m :: ms => (player.move w m).bind fun w' => play w' ms

/-- Putting back what is there changes nothing. -/
theorem put_put (w : World G τ) (p : Pid) (a b : Option (Program G Unit)) (t t' : τ) :
    (w.put p a t).put p b t' = w.put p b t' := by
  have hprocs : ((w.put p a t).put p b t').procs = (w.put p b t').procs := by
    funext p'
    by_cases h : p' = p
    · subst h
      simp
    · rw [World.put_procs_of_ne _ _ _ h, World.put_procs_of_ne _ _ _ h,
        World.put_procs_of_ne _ _ _ h]
  exact World.mk.injEq _ _ _ _ ▸ ⟨rfl, hprocs⟩

/-- A run of one process without interference is a sequence of steps of the world. -/
theorem reach_of_runs {w : World G τ} {p : Pid} {prog : Program G Unit} {t : τ}
    {s : Program G Unit × τ} (hp : w.procs p = some prog) (ht : w.shared = t)
    (h : Program.Runs sys.machine p Eq (prog, t) s) :
    World.Reach sys w (w.put p (some s.1) s.2) := by
  subst ht
  induction h with
  | refl =>
    have hw : w.put p (some prog) w.shared = w := by
      obtain ⟨shared, procs⟩ := w
      have : (fun p' => if p' = p then some prog else procs p') = procs := by
        funext p'
        by_cases h : p' = p
        · rw [if_pos h, h]
          exact hp.symm
        · rw [if_neg h]
      exact congrArg (World.mk shared) this
    show World.Reach sys w (w.put p (some prog) w.shared)
    rw [hw]
  | env before h ih =>
    cases h
    exact ih
  | @step u v before next ih =>
    refine ih.tail ?_
    have hstep := @World.Step.interact G τ Req sys (w.put p (some u.1) u.2) p u.1 v.1 v.2
      (World.put_procs_self _ _ _ _) next
    rwa [put_put] at hstep

/-- One move leads to a reachable world. -/
theorem reach_of_move {w w' : World G τ} {m : Move G Req} (h : player.move w m = some w') :
    World.Reach sys w w' := by
  cases m with
  | spawn r =>
    cases h
    exact Relation.ReflTransGen.single (.spawn w r (player.admits r _))
  | run p n answers =>
    simp only [move] at h
    cases hp : w.procs p with
    | none =>
      rw [hp] at h
      cases h
    | some prog =>
      rw [hp] at h
      obtain ⟨s, hs, rfl⟩ := Option.map_eq_some_iff.mp h
      exact reach_of_runs hp rfl (player.runs_of_runProgram .refl hs)
  | exit p =>
    simp only [move] at h
    cases hp : w.procs p with
    | none =>
      rw [hp] at h
      cases h
    | some prog =>
      rw [hp] at h
      cases h
      exact Relation.ReflTransGen.single (.exit w p prog hp)
  | wait n =>
    cases h
    exact Relation.ReflTransGen.single (.env w _ (player.wait_env n w.shared))

/-- What a script reaches is reachable. -/
theorem reach_of_play {w w' : World G τ} {ms : List (Move G Req)}
    (h : player.play w ms = some w') : World.Reach sys w w' := by
  induction ms generalizing w with
  | nil =>
    cases h
    exact Relation.ReflTransGen.refl
  | cons m ms ih =>
    obtain ⟨u, hu, hw⟩ := Option.bind_eq_some_iff.mp h
    exact (player.reach_of_move hu).trans (ih hw)

/-- A script that ends in a world with a property exhibits a reachable one. -/
theorem exists_of_play {w : World G τ} {ms : List (Move G Req)} {P : World G τ → Bool}
    (h : (player.play w ms).any P = true) : ∃ w', World.Reach sys w w' ∧ P w' = true := by
  cases hplay : player.play w ms with
  | none =>
    rw [hplay] at h
    cases h
  | some w' =>
    rw [hplay] at h
    exact ⟨w', player.reach_of_play hplay, h⟩

end Player

end Interactive
