import Mathlib.Data.Nat.Notation

/-!
# Interactive programs

A program is a tree of interactions with the world. It runs *statements* against a shared
store, each of which hands it a view of the store, and it makes *calls* to the outside,
each of which is answered by a value or by an exception. Between two interactions it is
pure. A `Signature` says which statements, calls, replies, exceptions and views there are.

Programs form a monad with exceptions, so source code with `await` and `raise` is written
in `do` notation, and `try`/`except` with `tryCatch`. What the interactions *do* is not part of a
program: a `Machine` says how a statement changes the shared state and how a call may be
answered, and `Program.Step` is the resulting small-step semantics.
-/

set_option autoImplicit false

namespace Interactive

/-- The interactions a family of programs may have. -/
structure Signature where
  View : Type
  Stmt : Type
  Call : Type
  Reply : Call → Type
  Exc : Type

/-- Programs over a signature that return a value of type `α`. -/
inductive Program (G : Signature) (α : Type) where
  | pure (a : α)
  | throw (e : G.Exc)
  | stmt (q : G.Stmt) (k : G.View → Program G α)
  | call (c : G.Call) (k : Except G.Exc (G.Reply c) → Program G α)

namespace Program

variable {G : Signature} {α β : Type}

/-- Sequencing: continue with the value a program returns. -/
protected def bind : Program G α → (α → Program G β) → Program G β
  | .pure a, f => f a
  | .throw e, _ => .throw e
  | .stmt q k, f => .stmt q fun v => (k v).bind f
  | .call c k, f => .call c fun r => (k r).bind f

/-- Run a handler on the exception a program raises. -/
def tryCatch : Program G α → (G.Exc → Program G α) → Program G α
  | .pure a, _ => .pure a
  | .throw e, handler => handler e
  | .stmt q k, handler => .stmt q fun v => (k v).tryCatch handler
  | .call c k, handler => .call c fun r => (k r).tryCatch handler

instance : Monad (Program G) where
  pure := .pure
  bind := Program.bind

/-- Run one statement and return the view of the store it gives. -/
def run (q : G.Stmt) : Program G G.View := .stmt q .pure

/-- Make a call, raising the exception it is answered with. -/
def await (c : G.Call) : Program G (G.Reply c) :=
  .call c fun
    | .ok a => .pure a
    | .error e => .throw e

/-- Raise the error of a pure check, or return its value. -/
def ofExcept : Except G.Exc α → Program G α
  | .ok a => .pure a
  | .error e => .throw e

/-- The monadic sequence is the sequence of programs. -/
theorem bind_eq (p : Program G α) (f : α → Program G β) : p >>= f = p.bind f := rfl

/-- Returning the result of a program is the program. -/
protected theorem bind_pure (p : Program G α) : p.bind .pure = p := by
  induction p with
  | pure a => rfl
  | throw e => rfl
  | stmt q k ih => exact congrArg (stmt q) (funext ih)
  | call c k ih => exact congrArg (call c) (funext ih)

/-- Sequencing is associative, by induction on the first program. -/
protected theorem bind_assoc {γ : Type} (p : Program G α) (f : α → Program G β)
    (g : β → Program G γ) : (p.bind f).bind g = p.bind fun a => (f a).bind g := by
  induction p with
  | pure a => rfl
  | throw e => rfl
  | stmt q k ih => exact congrArg (stmt q) (funext ih)
  | call c k ih => exact congrArg (call c) (funext ih)

/-- Programs obey the monad laws. -/
instance : LawfulMonad (Program G) :=
  LawfulMonad.mk' (Program G) Program.bind_pure (fun _ _ => rfl) Program.bind_assoc

end Program

/-- Processes are named by natural numbers. -/
abbrev Pid := ℕ

/-- What the interactions of a program do to a shared state of type `τ`.

`view` is the part of the state a statement shows to the program, `enabled` says when a
statement does not block, `exec` is its effect, and `answer` relates a call to the
possible replies and to the states it may leave behind. -/
structure Machine (G : Signature) (τ : Type) where
  view : τ → G.View
  enabled : Pid → G.Stmt → τ → Prop
  exec : Pid → G.Stmt → τ → τ
  answer : Pid → (c : G.Call) → τ → Except G.Exc (G.Reply c) → τ → Prop

/-- The machine in which `env` may act while a program awaits the answer to a call. -/
def Machine.yielding {G : Signature} {τ : Type} (M : Machine G τ) (env : τ → τ → Prop) :
    Machine G τ :=
  { M with answer := fun p c t r t' => ∃ s, M.answer p c t r s ∧ env s t' }

namespace Program

variable {G : Signature} {τ : Type}

/-- One interaction of a program with the shared state. -/
inductive Step {α : Type} (M : Machine G τ) (p : Pid) :
    Program G α × τ → Program G α × τ → Prop
  | stmt (q : G.Stmt) (k : G.View → Program G α) (t : τ) (h : M.enabled p q t) :
      Step M p (.stmt q k, t) (k (M.view t), M.exec p q t)
  | call (c : G.Call) (k : Except G.Exc (G.Reply c) → Program G α) (t t' : τ)
      (r : Except G.Exc (G.Reply c)) (h : M.answer p c t r t') :
      Step M p (.call c k, t) (k r, t')

/-- The beginnings of runs of one program: any number of its interactions, between any two
of which the environment may move the shared state along `rely`. -/
inductive Runs {α : Type} (M : Machine G τ) (p : Pid) (rely : τ → τ → Prop)
    (start : Program G α × τ) : Program G α × τ → Prop
  | refl : Runs M p rely start start
  | env {prog : Program G α} {t t' : τ} (before : Runs M p rely start (prog, t))
      (h : rely t t') : Runs M p rely start (prog, t')
  | step {u v : Program G α × τ} (before : Runs M p rely start u) (next : Step M p u v) :
      Runs M p rely start v

/-- A run that nothing interferes with is also one in which others may act during calls. -/
theorem Runs.yielding {α : Type} {M : Machine G τ} {p : Pid} {rely env : τ → τ → Prop}
    {start s : Program G α × τ} (henv : ∀ t, env t t) (h : Runs M p rely start s) :
    Runs (M.yielding env) p rely start s := by
  induction h with
  | refl => exact .refl
  | env _ hrely ih => exact .env ih hrely
  | step _ next ih =>
    cases next with
    | stmt q k t he => exact .step ih (.stmt q k t he)
    | call c k t t' r hr => exact .step ih (.call c k t t' r ⟨t', hr, henv t'⟩)

end Program

/-! ## What a program can issue at all -/

namespace Program

variable {G : Signature} {α β : Type}

/-- Whatever the store shows and whatever the calls are answered, the program issues only
statements in `S` and calls in `C`, and returns only values in `R`. -/
def Ensures (S : G.Stmt → Prop) (C : G.Call → Prop) (R : α → Prop) : Program G α → Prop
  | .pure a => R a
  | .throw _ => True
  | .stmt q k => S q ∧ ∀ v, Ensures S C R (k v)
  | .call c k => C c ∧ ∀ r, Ensures S C R (k r)

variable {S : G.Stmt → Prop} {C : G.Call → Prop} {R : α → Prop} {Q : β → Prop}

/-- A return ensures what holds of its result. -/
@[simp] theorem ensures_pure (a : α) : Ensures S C R (pure a : Program G α) ↔ R a := Iff.rfl

/-- A raised error ensures everything about results. -/
@[simp] theorem ensures_throw (e : G.Exc) : Ensures S C R (.throw e : Program G α) := trivial

/-- A pure computation ensures what holds of its result, if it has one. -/
@[simp] theorem ensures_ofExcept (x : Except G.Exc α) :
    Ensures S C R (ofExcept x) ↔ ∀ a, x = .ok a → R a := by
  cases x with
  | error e =>
    constructor
    · intro _ a ha
      cases ha
    · exact fun _ => trivial
  | ok a =>
    constructor
    · intro h b hb
      cases hb
      exact h
    · exact fun h => h a rfl

/-- A statement ensures a property of its view when it is permitted and every view has the property.
-/
@[simp] theorem ensures_run (q : G.Stmt) (P : G.View → Prop) :
    Ensures S C P (run q) ↔ S q ∧ ∀ v, P v := Iff.rfl

/-- An awaited call ensures a property of its reply when it is permitted and every reply has the
property. -/
@[simp] theorem ensures_await (c : G.Call) (P : G.Reply c → Prop) :
    Ensures S C P (await c) ↔ C c ∧ ∀ r, P r := by
  constructor
  · rintro ⟨hc, h⟩
    exact ⟨hc, fun r => h (.ok r)⟩
  · rintro ⟨hc, h⟩
    refine ⟨hc, fun r => ?_⟩
    cases r with
    | ok r => exact h r
    | error e => exact trivial

/-- A sequence ensures what its second part ensures from the values of the first. -/
@[simp] theorem ensures_bind (p : Program G α) (f : α → Program G β) :
    Ensures S C Q (p >>= f) ↔ Ensures S C (fun a => Ensures S C Q (f a)) p := by
  rw [bind_eq]
  induction p with
  | pure a => exact Iff.rfl
  | throw e => exact Iff.rfl
  | stmt q k ih => exact and_congr_right fun _ => forall_congr' fun v => ih v
  | call c k ih => exact and_congr_right fun _ => forall_congr' fun r => ih r

/-- A guarded program ensures what its body and its handler ensure. -/
theorem Ensures.tryCatch {p : Program G α} {handler : G.Exc → Program G α}
    (hp : Ensures S C R p) (hh : ∀ e, Ensures S C R (handler e)) :
    Ensures S C R (p.tryCatch handler) := by
  induction p with
  | pure a => exact hp
  | throw e => exact hh e
  | stmt q k ih => exact ⟨hp.1, fun v => ih v (hp.2 v)⟩
  | call c k ih => exact ⟨hp.1, fun r => ih r (hp.2 r)⟩

/-- What is ensured may be weakened. -/
theorem Ensures.mono {S' : G.Stmt → Prop} {C' : G.Call → Prop} {R' : α → Prop}
    {p : Program G α} (hp : Ensures S C R p) (hS : ∀ q, S q → S' q) (hC : ∀ c, C c → C' c)
    (hR : ∀ a, R a → R' a) : Ensures S' C' R' p := by
  induction p with
  | pure a => exact hR a hp
  | throw e => exact trivial
  | stmt q k ih => exact ⟨hS q hp.1, fun v => ih v (hp.2 v)⟩
  | call c k ih => exact ⟨hC c hp.1, fun r => ih r (hp.2 r)⟩

/-- Every program issues some statements and calls. -/
theorem ensures_anything (p : Program G α) :
    Ensures (fun _ => True) (fun _ => True) (fun _ => True) p := by
  induction p with
  | pure a => exact trivial
  | throw e => exact trivial
  | stmt q k ih => exact ⟨trivial, ih⟩
  | call c k ih => exact ⟨trivial, ih⟩

/-! ## What a program does while the store moves along a relation -/

section Views

variable {le : G.View → G.View → Prop} {P : α → G.View → Prop}

/-- As long as the views that the store shows move along `le`, and whatever the calls are
answered, the program runs only statements in `S`. What it returns is in `P` of the view that it
saw last. -/
def EnsuresAlong (le : G.View → G.View → Prop) (S : G.Stmt → Prop) (P : α → G.View → Prop) :
    Program G α → G.View → Prop
  | .pure a, v => P a v
  | .throw _, _ => True
  | .stmt q k, v => S q ∧ ∀ v', le v v' → EnsuresAlong le S P (k v') v'
  | .call _ k, v => ∀ r, EnsuresAlong le S P (k r) v

/-- A return asks the property of its result and of the last view. -/
@[simp] theorem ensuresAlong_pure (a : α) (v : G.View) :
    EnsuresAlong le S P (pure a : Program G α) v ↔ P a v := Iff.rfl

/-- A raised error asks nothing. -/
@[simp] theorem ensuresAlong_throw (e : G.Exc) (v : G.View) :
    EnsuresAlong le S P (.throw e : Program G α) v := trivial

/-- A pure computation asks the property of its result, if it has one. -/
@[simp] theorem ensuresAlong_ofExcept (x : Except G.Exc α) (v : G.View) :
    EnsuresAlong le S P (ofExcept x) v ↔ ∀ a, x = .ok a → P a v := by
  cases x with
  | error e =>
    constructor
    · intro _ a ha
      cases ha
    · exact fun _ => trivial
  | ok a =>
    constructor
    · intro h b hb
      cases hb
      exact h
    · exact fun h => h a rfl

/-- A statement asks the property of every view that is later than the last one. -/
@[simp] theorem ensuresAlong_run (q : G.Stmt) (P : G.View → G.View → Prop) (v : G.View) :
    EnsuresAlong le S P (run q) v ↔ S q ∧ ∀ v', le v v' → P v' v' := Iff.rfl

/-- An awaited call asks the property of every reply, at the last view. -/
@[simp] theorem ensuresAlong_await (c : G.Call) (P : G.Reply c → G.View → Prop) (v : G.View) :
    EnsuresAlong le S P (await c) v ↔ ∀ r, P r v := by
  constructor
  · exact fun h r => h (.ok r)
  · intro h r
    cases r with
    | ok r => exact h r
    | error e => exact trivial

/-- A sequence ensures what its second part ensures from the values of the first. -/
@[simp] theorem ensuresAlong_bind {P : β → G.View → Prop} (p : Program G α) (f : α → Program G β)
    (v : G.View) :
    EnsuresAlong le S P (p >>= f) v ↔
      EnsuresAlong le S (fun a => EnsuresAlong le S P (f a)) p v := by
  rw [bind_eq]
  induction p generalizing v with
  | pure a => exact Iff.rfl
  | throw e => exact Iff.rfl
  | stmt q k ih =>
    exact and_congr_right fun _ => forall_congr' fun v' => imp_congr_right fun _ => ih v' v'
  | call c k ih => exact forall_congr' fun r => ih r v

/-- What is ensured may be weakened. -/
theorem EnsuresAlong.mono {P' : α → G.View → Prop} {p : Program G α} {v : G.View}
    (hp : EnsuresAlong le S P p v) (hP : ∀ a v, P a v → P' a v) : EnsuresAlong le S P' p v := by
  induction p generalizing v with
  | pure a => exact hP a v hp
  | throw e => exact trivial
  | stmt q k ih => exact ⟨hp.1, fun v' hv => ih v' (hp.2 v' hv)⟩
  | call c k ih => exact fun r => ih r (hp r)

/-- What is ensured is ensured of a view the store has moved along to. -/
theorem EnsuresAlong.along (htrans : ∀ a b c, le a b → le b c → le a c)
    (hP : ∀ a v v', le v v' → P a v → P a v') {p : Program G α} {v v' : G.View}
    (hp : EnsuresAlong le S P p v) (hv : le v v') : EnsuresAlong le S P p v' := by
  induction p with
  | pure a => exact hP a v v' hv hp
  | throw e => exact trivial
  | stmt q k ih => exact ⟨hp.1, fun v'' hv' => hp.2 v'' (htrans _ _ _ hv hv')⟩
  | call c k ih => exact fun r => ih r (hp r)

/-- The last view is one that the store has moved along to. -/
theorem EnsuresAlong.last (hrefl : ∀ v, le v v) (htrans : ∀ a b c, le a b → le b c → le a c)
    {p : Program G α} {v : G.View} (hp : EnsuresAlong le S P p v) :
    EnsuresAlong le S (fun a v' => le v v' ∧ P a v') p v := by
  suffices h : ∀ u, le u v → EnsuresAlong le S (fun a v' => le u v' ∧ P a v') p v from h v (hrefl v)
  induction p generalizing v with
  | pure a => exact fun u hu => ⟨hu, hp⟩
  | throw e => exact fun _ _ => trivial
  | stmt q k ih =>
    exact fun u hu => ⟨hp.1, fun v' hv => ih v' (hp.2 v' hv) u (htrans _ _ _ hu hv)⟩
  | call c k ih => exact fun u hu r => ih r (hp r) u hu

end Views

end Program

end Interactive
