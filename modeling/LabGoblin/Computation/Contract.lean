import LabGoblin.Computation.Program

/-!
# Contracts: rules of pre- and postconditions for interactive programs

A `Contract` fixes what one process may assume and what it must guarantee. It may assume
the invariant `inv` whenever it acts, and that between two of its interactions the others
move the shared state only along `rely`. It must run a statement only when `allowsStmt`
permits it in the current state, and make a call only when `allowsCall` does.

`wp` is the weakest precondition of a program under a contract. It is defined by recursion
on the program and has a rule for every program constructor and for `bind` and `tryCatch`.
`wp_step` shows that one interaction of a process whose precondition holds is allowed and
re-establishes the precondition of what is left of the program; `wp_runs` lifts this to
every run of the process, cut off anywhere.
-/

set_option autoImplicit false

namespace Interactive

variable {G : Signature} {τ : Type}

/-- What a process may assume of its environment and must guarantee about itself. -/
structure Contract (G : Signature) (τ : Type) where
  machine : Machine G τ
  self : Pid
  inv : τ → Prop
  rely : τ → τ → Prop
  allowsStmt : G.Stmt → τ → Prop
  allowsCall : G.Call → τ → Prop

/-- A postcondition: of the result and of the shared state. -/
abbrev Post (G : Signature) (τ α : Type) := Except G.Exc α → τ → Prop

variable (C : Contract G τ)

/-- The weakest precondition: every interaction of the program is allowed whatever the
environment does, and a finished run satisfies `Q`. -/
def wp {α : Type} : Program G α → Post G τ α → τ → Prop
  | .pure a, Q, t => Q (.ok a) t
  | .throw e, Q, t => Q (.error e) t
  | .stmt q k, Q, t => ∀ t', C.rely t t' → C.inv t' → C.machine.enabled C.self q t' →
      C.allowsStmt q t' ∧ wp (k (C.machine.view t')) Q (C.machine.exec C.self q t')
  | .call c k, Q, t => ∀ t', C.rely t t' → C.inv t' → C.allowsCall c t' ∧
      ∀ r t'', C.machine.answer C.self c t' r t'' → wp (k r) Q t''

section Rules

variable {C} {α β : Type}

/-- A return asks the postcondition of the present state. -/
@[simp] theorem wp_pure (a : α) (Q : Post G τ α) (t : τ) :
    wp C (pure a) Q t ↔ Q (.ok a) t := Iff.rfl

/-- A raised error asks the postcondition of the present state. -/
@[simp] theorem wp_throw (e : G.Exc) (Q : Post G τ α) (t : τ) :
    wp C (.throw e) Q t ↔ Q (.error e) t := Iff.rfl

/-- The postcondition under which the first half of a sequence must run. -/
def Post.andThen (C : Contract G τ) (f : α → Program G β) (Q : Post G τ β) : Post G τ α :=
  fun r t => match r with
    | .ok a => wp C (f a) Q t
    | .error e => Q (.error e) t

/-- The postcondition under which the body of a handler must run. -/
def Post.orElse (C : Contract G τ) (handler : G.Exc → Program G α) (Q : Post G τ α) :
    Post G τ α :=
  fun r t => match r with
    | .ok a => Q (.ok a) t
    | .error e => wp C (handler e) Q t

/-- After a return the second program runs with the result. -/
@[simp] theorem Post.andThen_ok (f : α → Program G β) (Q : Post G τ β) (a : α) (t : τ) :
    Post.andThen C f Q (.ok a) t ↔ wp C (f a) Q t := Iff.rfl

/-- After an error the second program does not run. -/
@[simp] theorem Post.andThen_error (f : α → Program G β) (Q : Post G τ β) (e : G.Exc) (t : τ) :
    Post.andThen C f Q (.error e) t ↔ Q (.error e) t := Iff.rfl

/-- After a return the handler does not run. -/
@[simp] theorem Post.orElse_ok (handler : G.Exc → Program G α) (Q : Post G τ α) (a : α) (t : τ) :
    Post.orElse C handler Q (.ok a) t ↔ Q (.ok a) t := Iff.rfl

/-- After an error the handler runs with it. -/
@[simp] theorem Post.orElse_error (handler : G.Exc → Program G α) (Q : Post G τ α) (e : G.Exc)
    (t : τ) : Post.orElse C handler Q (.error e) t ↔ wp C (handler e) Q t := Iff.rfl

/-- Sequencing: by induction on the first program, whose leaves are where the second
one starts. -/
theorem wp_bind (p : Program G α) (f : α → Program G β) (Q : Post G τ β) (t : τ) :
    wp C (p >>= f) Q t ↔ wp C p (Post.andThen C f Q) t := by
  rw [Program.bind_eq]
  induction p generalizing t with
  | pure a => exact Iff.rfl
  | throw e => exact Iff.rfl
  | stmt q k ih =>
    simp only [Program.bind, wp]
    exact forall_congr' fun t' => imp_congr_right fun _ => imp_congr_right fun _ =>
      imp_congr_right fun _ => and_congr_right fun _ => ih _ _
  | call c k ih =>
    simp only [Program.bind, wp]
    exact forall_congr' fun t' => imp_congr_right fun _ => imp_congr_right fun _ =>
      and_congr_right fun _ => forall_congr' fun r => forall_congr' fun t'' =>
        imp_congr_right fun _ => ih _ _

/-- Handlers run where the body raises. -/
theorem wp_tryCatch (p : Program G α) (handler : G.Exc → Program G α) (Q : Post G τ α) (t : τ) :
    wp C (p.tryCatch handler) Q t ↔ wp C p (Post.orElse C handler Q) t := by
  induction p generalizing t with
  | pure a => exact Iff.rfl
  | throw e => exact Iff.rfl
  | stmt q k ih =>
    simp only [Program.tryCatch, wp]
    exact forall_congr' fun t' => imp_congr_right fun _ => imp_congr_right fun _ =>
      imp_congr_right fun _ => and_congr_right fun _ => ih _ _
  | call c k ih =>
    simp only [Program.tryCatch, wp]
    exact forall_congr' fun t' => imp_congr_right fun _ => imp_congr_right fun _ =>
      and_congr_right fun _ => forall_congr' fun r => forall_congr' fun t'' =>
        imp_congr_right fun _ => ih _ _

/-- A weaker postcondition is easier to reach. -/
theorem wp_mono {p : Program G α} {Q Q' : Post G τ α} {t : τ} (hp : wp C p Q t)
    (hQ : ∀ r t, Q r t → Q' r t) : wp C p Q' t := by
  induction p generalizing t with
  | pure a => exact hQ _ _ hp
  | throw e => exact hQ _ _ hp
  | stmt q k ih =>
    intro t' ht hi he
    obtain ⟨ha, hk⟩ := hp t' ht hi he
    exact ⟨ha, ih _ hk⟩
  | call c k ih =>
    intro t' ht hi
    obtain ⟨ha, hk⟩ := hp t' ht hi
    exact ⟨ha, fun r t'' hr => ih _ (hk r t'' hr)⟩

/-- Sequencing in the form in which it is applied: run the first program to an intermediate
postcondition, from which the second one runs, or which already covers the exception. -/
theorem wp_seq {p : Program G α} {f : α → Program G β} {R : Post G τ α} {Q : Post G τ β} {t : τ}
    (hp : wp C p R t) (hok : ∀ a t, R (.ok a) t → wp C (f a) Q t)
    (herr : ∀ e t, R (.error e) t → Q (.error e) t) : wp C (p >>= f) Q t := by
  rw [wp_bind]
  refine wp_mono hp ?_
  intro r t hr
  cases r with
  | ok a => exact hok a t hr
  | error e => exact herr e t hr

/-- The form in which a handler is applied. -/
theorem wp_handle {p : Program G α} {handler : G.Exc → Program G α} {R Q : Post G τ α} {t : τ}
    (hp : wp C p R t) (hok : ∀ a t, R (.ok a) t → Q (.ok a) t)
    (herr : ∀ e t, R (.error e) t → wp C (handler e) Q t) :
    wp C (p.tryCatch handler) Q t := by
  rw [wp_tryCatch]
  refine wp_mono hp ?_
  intro r t hr
  cases r with
  | ok a => exact hok a t hr
  | error e => exact herr e t hr

/-- The postcondition that says something of a returned value only. -/
def Post.returning (R : α → τ → Prop) : Post G τ α := fun r t => ∀ a, r = .ok a → R a t

/-- A result that satisfies the relation meets the postcondition on results. -/
theorem Post.returning_ok {R : α → τ → Prop} {a : α} {t : τ} (h : R a t) :
    Post.returning (G := G) R (.ok a) t := by
  intro b hb
  cases hb
  exact h

/-- An error meets every postcondition on results. -/
theorem Post.returning_error (R : α → τ → Prop) (e : G.Exc) (t : τ) :
    Post.returning (G := G) R (.error e) t := by
  intro a ha
  cases ha

/-- Sequencing where nothing is said of exceptions. -/
theorem wp_returning {p : Program G α} {f : α → Program G β} {R : α → τ → Prop}
    {S : β → τ → Prop} {t : τ} (hp : wp C p (Post.returning R) t)
    (hok : ∀ a t, R a t → wp C (f a) (Post.returning S) t) :
    wp C (p >>= f) (Post.returning S) t :=
  wp_seq hp (fun a t h => hok a t (h a rfl)) fun e t _ => Post.returning_error S e t

/-- A precondition survives the environment when the postcondition does. -/
theorem wp_rely (htrans : ∀ a b c, C.rely a b → C.rely b c → C.rely a c)
    {p : Program G α} {Q : Post G τ α} {t t' : τ}
    (hQ : ∀ r t t', C.rely t t' → Q r t → Q r t')
    (hp : wp C p Q t) (hr : C.rely t t') : wp C p Q t' := by
  cases p with
  | pure a => exact hQ _ _ _ hr hp
  | throw e => exact hQ _ _ _ hr hp
  | stmt q k =>
    intro t'' ht hi he
    exact hp t'' (htrans _ _ _ hr ht) hi he
  | call c k =>
    intro t'' ht hi
    exact hp t'' (htrans _ _ _ hr ht) hi

/-- An awaited call ends with the reply it was given. -/
theorem wp_await (c : G.Call) (Q : Post G τ (G.Reply c)) (t : τ) :
    wp C (Program.await c) Q t ↔ ∀ t', C.rely t t' → C.inv t' → C.allowsCall c t' ∧
      ∀ r t'', C.machine.answer C.self c t' r t'' → Q r t'' := by
  refine forall_congr' fun t' => imp_congr_right fun _ => imp_congr_right fun _ =>
    and_congr_right fun _ => forall_congr' fun r => forall_congr' fun t'' =>
      imp_congr_right fun _ => ?_
  cases r <;> exact Iff.rfl

/-- A pure computation ends at once, with its result or its error. -/
@[simp] theorem wp_ofExcept (x : Except G.Exc α) (Q : Post G τ α) (t : τ) :
    wp C (Program.ofExcept x) Q t ↔ Q x t := by
  cases x <;> exact Iff.rfl

/-- A statement first and the rest of a program after it. -/
theorem wp_run_bind (q : G.Stmt) (f : G.View → Program G α) (Q : Post G τ α) (t : τ) :
    wp C (Program.run q >>= f) Q t ↔ ∀ t', C.rely t t' → C.inv t' →
      C.machine.enabled C.self q t' → C.allowsStmt q t' ∧
        wp C (f (C.machine.view t')) Q (C.machine.exec C.self q t') := Iff.rfl

/-! ### Programs that maintain an assertion -/

variable (C) in
/-- From every state with the assertion `J`, the program keeps to the contract and ends with
`J` again, by returning a value in `R` or by raising. -/
def Maintains (J : τ → Prop) (R : α → Prop) (p : Program G α) : Prop :=
  ∀ t, J t → wp C p (fun r t' => J t' ∧ ∀ a, r = .ok a → R a) t

variable {J : τ → Prop} {R : α → Prop} {Q : β → Prop}

/-- A return keeps the invariant when its result is as asked. -/
theorem maintains_pure {a : α} (h : R a) : Maintains C J R (pure a) := by
  intro t ht
  refine ⟨ht, fun b hb => ?_⟩
  cases hb
  exact h

/-- A raised error keeps the invariant. -/
theorem maintains_throw (e : G.Exc) : Maintains C J R (.throw e : Program G α) := by
  intro t ht
  refine ⟨ht, fun b hb => ?_⟩
  cases hb

/-- Two programs that keep the invariant keep it in sequence. -/
theorem Maintains.bind {p : Program G α} {f : α → Program G β} (hp : Maintains C J R p)
    (hf : ∀ a, R a → Maintains C J Q (f a)) : Maintains C J Q (p >>= f) := by
  intro t ht
  refine wp_seq (hp t ht) ?_ ?_
  · intro a t' h
    exact hf a (h.2 a rfl) t' h.1
  · intro e t' h
    refine ⟨h.1, fun b hb => ?_⟩
    cases hb

/-- A part that maintains an assertion, and a rest that starts from it. -/
theorem Maintains.seq {p : Program G α} {f : α → Program G β} {Q : Post G τ β}
    (hp : Maintains C J R p) (hok : ∀ a t, R a → J t → wp C (f a) Q t)
    (herr : ∀ e t, J t → Q (.error e) t) {t : τ} (ht : J t) : wp C (p >>= f) Q t := by
  refine wp_seq (hp t ht) ?_ ?_
  · intro a t' h
    exact hok a t' (h.2 a rfl) h.1
  · intro e t' h
    exact herr e t' h.1

/-- A program and its handler that keep the invariant keep it together. -/
theorem Maintains.tryCatch {p : Program G α} {handler : G.Exc → Program G α}
    (hp : Maintains C J R p) (hh : ∀ e, Maintains C J R (handler e)) :
    Maintains C J R (p.tryCatch handler) := by
  intro t ht
  refine wp_handle (hp t ht) ?_ ?_
  · intro a t' h
    exact h
  · intro e t' h
    exact hh e t' h.1

/-- The condition on the result may be weakened. -/
theorem Maintains.mono {R' : α → Prop} {p : Program G α} (hp : Maintains C J R p)
    (hR : ∀ a, R a → R' a) : Maintains C J R' p := by
  intro t ht
  refine wp_mono (hp t ht) ?_
  intro r t' h
  exact ⟨h.1, fun a ha => hR a (h.2 a ha)⟩

/-- The contract allows the statements in `S` and the calls in `K` wherever `J` holds, and
neither they nor the environment disturb `J`. -/
structure Contract.Tolerates (C : Contract G τ) (J : τ → Prop) (S : G.Stmt → Prop)
    (K : G.Call → Prop) : Prop where
  stable : ∀ t t', J t → C.rely t t' → C.inv t' → J t'
  stmt : ∀ q t, S q → C.inv t → J t → C.machine.enabled C.self q t →
    C.allowsStmt q t ∧ J (C.machine.exec C.self q t)
  call : ∀ c t, K c → C.inv t → J t → C.allowsCall c t ∧
    ∀ r t', C.machine.answer C.self c t r t' → J t'

/-- A program that issues only what the contract tolerates maintains the assertion. -/
theorem Maintains.of_ensures {S : G.Stmt → Prop} {K : G.Call → Prop} {p : Program G α}
    (hT : C.Tolerates J S K) (hp : Program.Ensures S K R p) : Maintains C J R p := by
  intro t ht
  induction p generalizing t with
  | pure a =>
    refine ⟨ht, fun b hb => ?_⟩
    cases hb
    exact hp
  | throw e =>
    refine ⟨ht, fun b hb => ?_⟩
    cases hb
  | stmt q k ih =>
    intro t' hr hi he
    have hJ := hT.stable t t' ht hr hi
    obtain ⟨ha, hJ'⟩ := hT.stmt q t' hp.1 hi hJ he
    exact ⟨ha, ih _ (hp.2 _) _ hJ'⟩
  | call c k ih =>
    intro t' hr hi
    have hJ := hT.stable t t' ht hr hi
    obtain ⟨ha, hJ'⟩ := hT.call c t' hp.1 hi hJ
    exact ⟨ha, fun r t'' h => ih _ (hp.2 _) _ (hJ' r t'' h)⟩

/-- A program that issues only tolerated statements while what it sees moves along a relation
maintains the assertion, and returns what it ensures of a view before the current one. -/
theorem wp_of_ensuresAlong {le : G.View → G.View → Prop} {S : G.Stmt → Prop}
    {P : α → G.View → Prop} {p : Program G α} {v : G.View} {t : τ}
    (hrefl : ∀ v, le v v)
    (hT : ∀ v, C.Tolerates (fun t => J t ∧ le v (C.machine.view t)) S fun _ => True)
    (hp : Program.EnsuresAlong le S P p v) (ht : J t ∧ le v (C.machine.view t)) :
    wp C p (fun r t' => J t' ∧ ∀ a, r = .ok a → ∃ v', le v' (C.machine.view t') ∧ P a v') t := by
  induction p generalizing t v with
  | pure a =>
    refine ⟨ht.1, fun b hb => ?_⟩
    cases hb
    exact ⟨v, ht.2, hp⟩
  | throw e =>
    refine ⟨ht.1, fun b hb => ?_⟩
    cases hb
  | stmt q k ih =>
    intro t' hr hi he
    have hJ := (hT v).stable t t' ht hr hi
    obtain ⟨ha, -⟩ := (hT v).stmt q t' hp.1 hi hJ he
    have hnow := ((hT (C.machine.view t')).stmt q t' hp.1 hi ⟨hJ.1, hrefl _⟩ he).2
    exact ⟨ha, ih _ (hp.2 _ hJ.2) hnow⟩
  | call c k ih =>
    intro t' hr hi
    have hJ := (hT v).stable t t' ht hr hi
    obtain ⟨ha, hJ'⟩ := (hT v).call c t' trivial hi hJ
    exact ⟨ha, fun r t'' h => ih _ (hp r) (hJ' r t'' h)⟩

/-- What a program maintains holds when it is run from a state with the assertion. -/
theorem Maintains.safe {p : Program G α} (hp : Maintains C J R p) {t : τ} (ht : J t) :
    wp C p (fun _ _ => True) t :=
  wp_mono (hp t ht) fun _ _ _ => trivial

end Rules

/-! ## Soundness -/

variable {C} {α : Type}

/-- What a contract's process must re-establish with each interaction it is allowed. -/
structure Contract.Maintained (C : Contract G τ) : Prop where
  refl : ∀ t, C.rely t t
  trans : ∀ a b c, C.rely a b → C.rely b c → C.rely a c
  env : ∀ t t', C.inv t → C.rely t t' → C.inv t'
  stmt : ∀ q t, C.inv t → C.machine.enabled C.self q t → C.allowsStmt q t →
    C.inv (C.machine.exec C.self q t)
  call : ∀ c t r t', C.inv t → C.allowsCall c t → C.machine.answer C.self c t r t' → C.inv t'

/-- One interaction of a process whose precondition holds is allowed, and re-establishes
the precondition of what is left of the program. -/
theorem wp_step (hrefl : ∀ t, C.rely t t) {p p' : Program G α} {Q : Post G τ α} {t t' : τ}
    (hi : C.inv t) (hp : wp C p Q t)
    (hs : Program.Step C.machine C.self (p, t) (p', t')) :
    wp C p' Q t' ∧
      ((∃ q, C.allowsStmt q t ∧ C.machine.enabled C.self q t ∧
          t' = C.machine.exec C.self q t) ∨
        ∃ c r, C.allowsCall c t ∧ C.machine.answer C.self c t r t') := by
  cases hs with
  | stmt q k _ he =>
    obtain ⟨ha, hk⟩ := hp t (hrefl t) hi he
    exact ⟨hk, Or.inl ⟨q, ha, he, rfl⟩⟩
  | call c k _ _ r hr =>
    obtain ⟨ha, hk⟩ := hp t (hrefl t) hi
    exact ⟨hk r t' hr, Or.inr ⟨c, r, ha, hr⟩⟩

/-- Soundness: from a state with the invariant and the precondition, both hold at every
point of every run, wherever the run is cut off. -/
theorem wp_runs (hC : C.Maintained) {p p' : Program G α} {Q : Post G τ α} {t t' : τ}
    (hQ : ∀ r t t', C.rely t t' → Q r t → Q r t') (hi : C.inv t) (hp : wp C p Q t)
    (hr : Program.Runs C.machine C.self C.rely (p, t) (p', t')) : C.inv t' ∧ wp C p' Q t' := by
  generalize hend : (p', t') = fin at hr
  induction hr generalizing p' t' with
  | refl =>
    cases hend
    exact ⟨hi, hp⟩
  | env before hrel ih =>
    cases hend
    obtain ⟨hi', hw⟩ := ih rfl
    exact ⟨hC.env _ _ hi' hrel, wp_rely hC.trans hQ hw hrel⟩
  | @step u v before next ih =>
    obtain ⟨pu, tu⟩ := u
    cases hend
    obtain ⟨hi', hw⟩ := ih rfl
    obtain ⟨hw', hact⟩ := wp_step hC.refl hi' hw next
    refine ⟨?_, hw'⟩
    rcases hact with ⟨q, ha, he, rfl⟩ | ⟨c, r, ha, hr⟩
    · exact hC.stmt q tu hi' he ha
    · exact hC.call c tu r t' hi' ha hr

end Interactive
