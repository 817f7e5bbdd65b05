import LabGoblin.Computation.Contract
import Mathlib.Logic.IsEmpty.Defs

/-!
# Programs that run alone

The big-step semantics of a program that nothing interferes with: `Ends` relates a program and
the state it starts from to its result and the state it leaves. An ending is the end of a run
(`Ends.runs`), and the rules below take a program apart as its binds do.
-/

set_option autoImplicit false

namespace Interactive

variable {G : Signature} {τ α β : Type}

/-- The program ends with a result and a state when it runs alone. -/
inductive Ends (M : Machine G τ) (p : Pid) :
    Program G α → τ → Except G.Exc α → τ → Prop
  | pure (a : α) (t : τ) : Ends M p (.pure a) t (.ok a) t
  | throw (e : G.Exc) (t : τ) : Ends M p (.throw e) t (.error e) t
  | stmt {q : G.Stmt} {k : G.View → Program G α} {t t' : τ} {r : Except G.Exc α}
      (h : M.enabled p q t) (rest : Ends M p (k (M.view t)) (M.exec p q t) r t') :
      Ends M p (.stmt q k) t r t'
  | call {c : G.Call} {k : Except G.Exc (G.Reply c) → Program G α} {t t' t'' : τ}
      {reply : Except G.Exc (G.Reply c)} {r : Except G.Exc α} (h : M.answer p c t reply t')
      (rest : Ends M p (k reply) t' r t'') : Ends M p (.call c k) t r t''

variable {M : Machine G τ} {p : Pid}

/-- An ending is the end of a run without interference. -/
theorem Ends.runs {prog : Program G α} {start : Program G α × τ} {t t' : τ}
    {r : Except G.Exc α} (h : Ends M p prog t r t')
    (hs : Program.Runs M p Eq start (prog, t)) :
    Program.Runs M p Eq start (Program.ofExcept r, t') := by
  induction h generalizing start with
  | pure a t => exact hs
  | throw e t => exact hs
  | stmt he _ ih => exact ih (.step hs (.stmt _ _ _ he))
  | call ha _ ih => exact ih (.step hs (.call _ _ _ _ _ ha))

/-- Without calls a program ends in one way only. -/
theorem Ends.unique [IsEmpty G.Call] {prog : Program G α} {t t' t'' : τ}
    {r r' : Except G.Exc α} (h : Ends M p prog t r t') (h' : Ends M p prog t r' t'') :
    r = r' ∧ t' = t'' := by
  induction h with
  | pure a t =>
    cases h'
    exact ⟨rfl, rfl⟩
  | throw e t =>
    cases h'
    exact ⟨rfl, rfl⟩
  | stmt _ _ ih =>
    cases h' with
    | stmt _ rest => exact ih rest
  | @call c => exact (IsEmpty.false c).elim

/-- What every statement and call that a program can issue preserves, its endings preserve. -/
theorem Ends.preserves {S : G.Stmt → Prop} {C : G.Call → Prop} {R : α → Prop} {inv : τ → Prop}
    {prog : Program G α} {t t' : τ} {r : Except G.Exc α} (h : Ends M p prog t r t')
    (hprog : prog.Ensures S C R)
    (hstmt : ∀ q t, S q → M.enabled p q t → inv t → inv (M.exec p q t))
    (hcall : ∀ c t reply t', C c → M.answer p c t reply t' → inv t → inv t') (ht : inv t) :
    inv t' := by
  induction h with
  | pure a t => exact ht
  | throw e t => exact ht
  | stmt he _ ih => exact ih (hprog.2 _) (hstmt _ _ hprog.1 he ht)
  | call ha _ ih => exact ih (hprog.2 _) (hcall _ _ _ _ hprog.1 ha ht)

/-- What a program ensures of its results holds of the value that it ends with. -/
theorem Ends.ensures {S : G.Stmt → Prop} {C : G.Call → Prop} {R : α → Prop}
    {prog : Program G α} {t t' : τ} {a : α} (h : Ends M p prog t (.ok a) t')
    (hprog : prog.Ensures S C R) : R a := by
  generalize hr : (Except.ok a : Except G.Exc α) = r at h
  induction h with
  | pure b t =>
    cases hr
    exact hprog
  | throw e t => cases hr
  | stmt _ _ ih => exact ih (hprog.2 _) hr
  | call _ _ ih => exact ih (hprog.2 _) hr

/-! ## Endings of the program constructors -/

/-- A return ends at once, with its result and in its state. -/
theorem ends_pure_iff {a : α} {t t' : τ} {r : Except G.Exc α} :
    Ends M p (pure a) t r t' ↔ r = .ok a ∧ t' = t := by
  constructor
  · intro h
    cases h
    exact ⟨rfl, rfl⟩
  · rintro ⟨rfl, rfl⟩
    exact .pure a t'

/-- A pure computation ends at once, in its state. -/
theorem ends_ofExcept_iff {x : Except G.Exc α} {t t' : τ} {r : Except G.Exc α} :
    Ends M p (Program.ofExcept x) t r t' ↔ r = x ∧ t' = t := by
  constructor
  · intro h
    cases x <;> cases h <;> exact ⟨rfl, rfl⟩
  · rintro ⟨rfl, rfl⟩
    cases r
    · exact .throw _ t'
    · exact .pure _ t'

/-- A sequence ends where its second part does, or where its first part raises. -/
theorem ends_bind_iff {prog : Program G α} {f : α → Program G β} {t t' : τ}
    {r : Except G.Exc β} :
    Ends M p (prog >>= f) t r t' ↔
      (∃ a u, Ends M p prog t (.ok a) u ∧ Ends M p (f a) u r t') ∨
        ∃ e, Ends M p prog t (.error e) t' ∧ r = .error e := by
  rw [Program.bind_eq]
  induction prog generalizing t with
  | pure a =>
    constructor
    · exact fun h => Or.inl ⟨a, t, .pure a t, h⟩
    · rintro (⟨a', u, h, h'⟩ | ⟨e, h, -⟩)
      · cases h
        exact h'
      · cases h
  | throw e =>
    constructor
    · intro h
      cases h
      exact Or.inr ⟨e, .throw e _, rfl⟩
    · rintro (⟨a', u, h, -⟩ | ⟨e', h, rfl⟩)
      · cases h
      · cases h
        exact .throw e _
  | stmt q k ih =>
    constructor
    · intro h
      cases h with
      | stmt he rest =>
        rcases (ih _).mp rest with ⟨a, u, h, h'⟩ | ⟨e, h, hr⟩
        · exact Or.inl ⟨a, u, .stmt he h, h'⟩
        · exact Or.inr ⟨e, .stmt he h, hr⟩
    · rintro (⟨a, u, h, h'⟩ | ⟨e, h, hr⟩)
      · cases h with
        | stmt he rest => exact .stmt he ((ih _).mpr (Or.inl ⟨a, u, rest, h'⟩))
      · cases h with
        | stmt he rest => exact .stmt he ((ih _).mpr (Or.inr ⟨e, rest, hr⟩))
  | call c k ih =>
    constructor
    · intro h
      cases h with
      | call ha rest =>
        rcases (ih _).mp rest with ⟨a, u, h, h'⟩ | ⟨e, h, hr⟩
        · exact Or.inl ⟨a, u, .call ha h, h'⟩
        · exact Or.inr ⟨e, .call ha h, hr⟩
    · rintro (⟨a, u, h, h'⟩ | ⟨e, h, hr⟩)
      · cases h with
        | call ha rest => exact .call ha ((ih _).mpr (Or.inl ⟨a, u, rest, h'⟩))
      · cases h with
        | call ha rest => exact .call ha ((ih _).mpr (Or.inr ⟨e, rest, hr⟩))

/-- A statement first and the rest of a program after it. -/
theorem ends_run_bind_iff {q : G.Stmt} {f : G.View → Program G β} {t t' : τ}
    {r : Except G.Exc β} :
    Ends M p (Program.run q >>= f) t r t' ↔
      M.enabled p q t ∧ Ends M p (f (M.view t)) (M.exec p q t) r t' := by
  constructor
  · intro h
    cases h with
    | stmt he rest => exact ⟨he, rest⟩
  · rintro ⟨he, rest⟩
    exact .stmt he rest

/-- A pure check first and the rest of a program after it. -/
theorem ends_ofExcept_bind_iff {x : Except G.Exc α} {f : α → Program G β} {t t' : τ}
    {r : Except G.Exc β} :
    Ends M p (Program.ofExcept x >>= f) t r t' ↔
      (∃ a, x = .ok a ∧ Ends M p (f a) t r t') ∨ ∃ e, x = .error e ∧ r = .error e ∧ t' = t := by
  cases x with
  | ok a =>
    constructor
    · exact fun h => Or.inl ⟨a, rfl, h⟩
    · rintro (⟨b, hb, h⟩ | ⟨e, he, -⟩)
      · cases hb
        exact h
      · cases he
  | error e =>
    constructor
    · intro h
      cases h
      exact Or.inr ⟨e, rfl, rfl, rfl⟩
    · rintro (⟨b, hb, -⟩ | ⟨e', he, rfl, rfl⟩)
      · cases hb
      · cases he
        exact .throw e _

/-! ## Programs that return -/

/-- The program returns the value and leaves the state when it runs alone. -/
def Returns (M : Machine G τ) (p : Pid) (prog : Program G α) (t : τ) (a : α) (t' : τ) : Prop :=
  Ends M p prog t (.ok a) t'

/-- What a sequence returns, its parts return. -/
theorem returns_bind_iff {prog : Program G α} {f : α → Program G β} {t t' : τ} {b : β} :
    Returns M p (prog >>= f) t b t' ↔
      ∃ a u, Returns M p prog t a u ∧ Returns M p (f a) u b t' := by
  refine ends_bind_iff.trans ⟨?_, Or.inl⟩
  rintro (h | ⟨e, -, he⟩)
  · exact h
  · cases he

/-- A return returns its result in its state, and nothing else. -/
theorem returns_pure_iff {a b : α} {t t' : τ} :
    Returns M p (pure a) t b t' ↔ a = b ∧ t' = t := by
  refine ends_pure_iff.trans (and_congr_left fun _ => ⟨?_, ?_⟩)
  · intro h
    cases h
    rfl
  · rintro rfl
    rfl

/-- A raised error returns nothing. -/
theorem not_returns_throw {e : G.Exc} {a : α} {t t' : τ} :
    ¬ Returns M p (.throw e) t a t' := by
  intro h
  cases h

/-- A leading statement must be enabled, and the rest runs on its view from the state it leaves. -/
theorem returns_run_bind_iff {q : G.Stmt} {f : G.View → Program G β} {t t' : τ} {b : β} :
    Returns M p (Program.run q >>= f) t b t' ↔
      M.enabled p q t ∧ Returns M p (f (M.view t)) (M.exec p q t) b t' :=
  ends_run_bind_iff

/-- A leading pure computation must have a result, with which the rest runs. -/
theorem returns_ofExcept_bind_iff {x : Except G.Exc α} {f : α → Program G β} {t t' : τ} {b : β} :
    Returns M p (Program.ofExcept x >>= f) t b t' ↔
      ∃ a, x = .ok a ∧ Returns M p (f a) t b t' := by
  refine ends_ofExcept_bind_iff.trans ⟨?_, Or.inl⟩
  rintro (h | ⟨e, -, he, -⟩)
  · exact h
  · cases he

/-! ## Running a program -/

/-- Run a program alone. The result is `none` where it blocks or makes a call. -/
def Program.alone (M : Machine G τ) (p : Pid) [∀ q t, Decidable (M.enabled p q t)] :
    Program G α → τ → Option (Except G.Exc α × τ)
  | .pure a, t => some (.ok a, t)
  | .throw e, t => some (.error e, t)
  | .stmt q k, t =>
    if M.enabled p q t then Program.alone M p (k (M.view t)) (M.exec p q t) else none
  | .call _ _, _ => none

/-- What the computed run without other programs reaches is an end of the program. -/
theorem ends_of_alone [∀ q t, Decidable (M.enabled p q t)] {prog : Program G α} {t t' : τ}
    {r : Except G.Exc α} (h : prog.alone M p t = some (r, t')) : Ends M p prog t r t' := by
  induction prog generalizing t with
  | pure a =>
    cases h
    exact .pure _ _
  | throw e =>
    cases h
    exact .throw _ _
  | stmt q k ih =>
    unfold Program.alone at h
    by_cases he : M.enabled p q t
    · rw [if_pos he] at h
      exact .stmt he (ih _ h)
    · rw [if_neg he] at h
      cases h
  | call c k ih => cases h

/-- Run alone, the program returns, and its value and the state it leaves pass a test. -/
def Program.passes (M : Machine G τ) (p : Pid) [∀ q t, Decidable (M.enabled p q t)]
    (prog : Program G α) (t : τ) (P : α → τ → Bool) : Bool :=
  match prog.alone M p t with
  | some (.ok a, t') => P a t'
  | _ => false

/-- A computed run that passes its test returns a value that passes it. -/
theorem exists_returns_of_passes [∀ q t, Decidable (M.enabled p q t)] {prog : Program G α} {t : τ}
    {P : α → τ → Bool} (h : prog.passes M p t P = true) :
    ∃ a t', Returns M p prog t a t' ∧ P a t' = true := by
  unfold Program.passes at h
  cases hrun : prog.alone M p t with
  | none =>
    rw [hrun] at h
    cases h
  | some x =>
    obtain ⟨r, t'⟩ := x
    rw [hrun] at h
    cases r with
    | error e => cases h
    | ok a => exact ⟨a, t', ends_of_alone hrun, h⟩

/-- Run a program alone where every call gets the reply that `reply` says. The result is `none`
where it blocks. -/
def Program.answered (M : Machine G τ) (p : Pid) [∀ q t, Decidable (M.enabled p q t)]
    (reply : (c : G.Call) → Except G.Exc (G.Reply c)) (deliver : G.Call → τ → τ) :
    Program G α → τ → Option (Except G.Exc α × τ)
  | .pure a, t => some (.ok a, t)
  | .throw e, t => some (.error e, t)
  | .stmt q k, t =>
    if M.enabled p q t then Program.answered M p reply deliver (k (M.view t)) (M.exec p q t)
    else none
  | .call c k, t => Program.answered M p reply deliver (k (reply c)) (deliver c t)

/-- What the computed run with given replies reaches is an end of the program, when the calls may be
answered so. -/
theorem ends_of_answered [∀ q t, Decidable (M.enabled p q t)]
    {reply : (c : G.Call) → Except G.Exc (G.Reply c)} {deliver : G.Call → τ → τ}
    (hanswer : ∀ c t, M.answer p c t (reply c) (deliver c t)) {prog : Program G α} {t t' : τ}
    {r : Except G.Exc α} (h : prog.answered M p reply deliver t = some (r, t')) :
    Ends M p prog t r t' := by
  induction prog generalizing t with
  | pure a =>
    cases h
    exact .pure _ _
  | throw e =>
    cases h
    exact .throw _ _
  | stmt q k ih =>
    unfold Program.answered at h
    by_cases he : M.enabled p q t
    · rw [if_pos he] at h
      exact .stmt he (ih _ h)
    · rw [if_neg he] at h
      cases h
  | call c k ih => exact .call (hanswer c t) (ih (reply c) h)

/-- Run alone with these replies, the program returns, and its value and the state it leaves pass a
test. -/
def Program.passesAnswered (M : Machine G τ) (p : Pid) [∀ q t, Decidable (M.enabled p q t)]
    (reply : (c : G.Call) → Except G.Exc (G.Reply c)) (deliver : G.Call → τ → τ)
    (prog : Program G α) (t : τ) (P : α → τ → Bool) : Bool :=
  match prog.answered M p reply deliver t with
  | some (.ok a, t') => P a t'
  | _ => false

/-- A computed run with given replies that passes its test returns a value that passes it. -/
theorem exists_returns_of_passesAnswered [∀ q t, Decidable (M.enabled p q t)]
    {reply : (c : G.Call) → Except G.Exc (G.Reply c)} {deliver : G.Call → τ → τ}
    (hanswer : ∀ c t, M.answer p c t (reply c) (deliver c t)) {prog : Program G α} {t : τ}
    {P : α → τ → Bool} (h : prog.passesAnswered M p reply deliver t P = true) :
    ∃ a t', Returns M p prog t a t' ∧ P a t' = true := by
  unfold Program.passesAnswered at h
  cases hrun : prog.answered M p reply deliver t with
  | none =>
    rw [hrun] at h
    cases h
  | some x =>
    obtain ⟨r, t'⟩ := x
    rw [hrun] at h
    cases r with
    | error e => cases h
    | ok a => exact ⟨a, t', ends_of_answered hanswer hrun, h⟩

end Interactive
