import Mathlib.Logic.Relation

/-!
# Outcomes of transactions

A transaction is a computation on a state that either returns, with a new state, or raises and
leaves nothing behind. `After` is its weakest precondition for partial correctness: what holds of
the value and the state whenever it returns. `EndsIn` is a postcondition that the last part of a
transaction establishes from any state, `Moves` a relation that a transaction keeps between the
state before and the state after it.
-/

set_option autoImplicit false

namespace Interactive

variable {ε σ α β : Type}

/-! ## Pure checks -/

/-- The value in the middle of a sequence of checks that returned. -/
theorem bind_eq_ok {x : Except ε α} {g : α → Except ε β} {b : β} (h : x >>= g = .ok b) :
    ∃ a, x = .ok a ∧ g a = .ok b := by
  cases x with
  | error e => cases h
  | ok a => exact ⟨a, rfl, h⟩

/-- Renaming the errors of a computation does not change what it returned. -/
theorem mapError_eq_ok {ε' : Type} {x : Except ε α} {g : ε → ε'} {a : α}
    (h : x.mapError g = .ok a) : x = .ok a := by
  cases x with
  | error e => cases h
  | ok b =>
    cases h
    rfl

/-- What a list of checks that returned has returned. -/
theorem mem_of_mapM_eq_ok {f : α → Except ε β} {l : List α} {ys : List β}
    (h : l.mapM f = .ok ys) (y : β) : y ∈ ys ↔ ∃ x ∈ l, f x = .ok y := by
  induction l generalizing ys with
  | nil =>
    rw [List.mapM_nil] at h
    cases h
    simp
  | cons x l ih =>
    rw [List.mapM_cons] at h
    obtain ⟨z, hz, h⟩ := bind_eq_ok h
    obtain ⟨zs, hzs, h⟩ := bind_eq_ok h
    cases h
    have hcons : (∃ a ∈ x :: l, f a = .ok y) ↔ f x = .ok y ∨ ∃ a ∈ l, f a = .ok y := by simp
    rw [List.mem_cons, ih hzs, hcons, hz]
    refine or_congr_left ?_
    exact ⟨fun heq => congrArg Except.ok heq.symm, fun heq => (Except.ok.inj heq).symm⟩

/-- A list of checks returns exactly when each of them does. -/
theorem exists_mapM_eq_ok_iff {f : α → Except ε β} {l : List α} :
    (∃ ys, l.mapM f = .ok ys) ↔ ∀ x ∈ l, ∃ y, f x = .ok y := by
  induction l with
  | nil =>
    rw [List.mapM_nil]
    exact iff_of_true ⟨[], rfl⟩ (by simp)
  | cons x l ih =>
    rw [List.mapM_cons, List.forall_mem_cons, ← ih]
    constructor
    · rintro ⟨ys, h⟩
      obtain ⟨z, hz, h⟩ := bind_eq_ok h
      obtain ⟨zs, hzs, -⟩ := bind_eq_ok h
      exact ⟨⟨z, hz⟩, zs, hzs⟩
    · rintro ⟨⟨z, hz⟩, zs, hzs⟩
      rw [hz, hzs]
      exact ⟨z :: zs, rfl⟩

/-! ## Transactions -/

/-- Whenever the transaction returns from a state, the value and the new state satisfy `Q`. -/
def After (m : StateT σ (Except ε) α) (Q : α → σ → Prop) (s : σ) : Prop :=
  ∀ a t, m.run s = .ok (a, t) → Q a t

variable {m : StateT σ (Except ε) α} {f : α → StateT σ (Except ε) β} {s : σ}

/-- A postcondition may be weakened: what holds after every return still holds. -/
theorem After.mono {Q Q' : α → σ → Prop} (h : After m Q s) (hQ : ∀ a t, Q a t → Q' a t) :
    After m Q' s := fun a t hrun => hQ a t (h a t hrun)

/-- A return leaves the state, so the postcondition is asked of the present one. -/
@[simp] theorem after_pure (a : α) (Q : α → σ → Prop) :
    After (pure a : StateT σ (Except ε) α) Q s ↔ Q a s := by
  constructor
  · intro h
    exact h a s rfl
  · intro h b t hrun
    cases hrun
    exact h

/-- An exception returns nothing, so it meets every postcondition. -/
@[simp] theorem after_throw (e : ε) (Q : α → σ → Prop) :
    After (throw e : StateT σ (Except ε) α) Q s := by
  intro a t hrun
  cases hrun

/-- Reading the state returns the present state and leaves it. -/
@[simp] theorem after_get (Q : σ → σ → Prop) :
    After (get : StateT σ (Except ε) σ) Q s ↔ Q s s := by
  constructor
  · intro h
    exact h s s rfl
  · intro h b t hrun
    cases hrun
    exact h

/-- Setting the state asks the postcondition of the new state. -/
@[simp] theorem after_set (t : σ) (Q : PUnit → σ → Prop) :
    After (set t : StateT σ (Except ε) PUnit) Q s ↔ Q ⟨⟩ t := by
  constructor
  · intro h
    exact h ⟨⟩ t rfl
  · intro h b t' hrun
    cases hrun
    exact h

/-- Modifying the state asks the postcondition of the modified state. -/
@[simp] theorem after_modify (g : σ → σ) (Q : PUnit → σ → Prop) :
    After (modify g : StateT σ (Except ε) PUnit) Q s ↔ Q ⟨⟩ (g s) := by
  constructor
  · intro h
    exact h ⟨⟩ (g s) rfl
  · intro h b t hrun
    cases hrun
    exact h

/-- The state and the value in the middle of a sequence that returned. -/
theorem run_bind_eq_ok {b : β} {u : σ} (h : (m >>= f).run s = .ok (b, u)) :
    ∃ a t, m.run s = .ok (a, t) ∧ (f a).run t = .ok (b, u) := by
  have hbind : (m >>= f).run s = (m.run s).bind fun r => (f r.1).run r.2 := rfl
  rw [hbind] at h
  cases hm : m.run s with
  | error e =>
    rw [hm] at h
    cases h
  | ok r =>
    rw [hm] at h
    exact ⟨r.1, r.2, rfl, h⟩

/-- A sequence is run by halves: the second half starts where the first one returned. -/
@[simp] theorem after_bind (Q : β → σ → Prop) :
    After (m >>= f) Q s ↔ After m (fun a t => After (f a) Q t) s := by
  constructor
  · intro h a t hm b u hf
    refine h b u ?_
    have hbind : (m >>= f).run s = (m.run s).bind fun r => (f r.1).run r.2 := rfl
    rw [hbind, hm]
    exact hf
  · intro h b u hrun
    obtain ⟨a, t, hm, hf⟩ := run_bind_eq_ok hrun
    exact h a t hm b u hf

/-- A branch is checked under its own condition. -/
theorem after_ite {p : Prop} [Decidable p] {m' : StateT σ (Except ε) α} {Q : α → σ → Prop}
    (h : p → After m Q s) (h' : ¬ p → After m' Q s) : After (if p then m else m') Q s := by
  by_cases hp : p
  · rw [if_pos hp]
    exact h hp
  · rw [if_neg hp]
    exact h' hp

/-! ## Postconditions of the last part -/

/-- Whenever the transaction returns, from any state, the new state satisfies `P`. -/
def EndsIn (P : σ → Prop) (m : StateT σ (Except ε) α) : Prop :=
  ∀ s, After m (fun _ t => P t) s

/-- A sequence ends well when its second half does, whatever the first half returned. -/
theorem EndsIn.bind {P : σ → Prop} (h : ∀ a, EndsIn P (f a)) : EndsIn P (m >>= f) := by
  intro s
  rw [after_bind]
  exact fun a t _ => h a t

/-- Returning a value keeps the state. -/
theorem EndsIn.returning {P : σ → Prop} (h : EndsIn P m) (g : α → β) :
    EndsIn P (m >>= fun a => pure (g a)) := by
  intro s
  rw [after_bind]
  refine (h s).mono fun a t ht => ?_
  rw [after_pure]
  exact ht

/-- A choice ends well when both of its branches do. -/
theorem EndsIn.ite {P : σ → Prop} {p : Prop} [Decidable p] {m' : StateT σ (Except ε) α}
    (h : EndsIn P m) (h' : EndsIn P m') : EndsIn P (if p then m else m') :=
  fun s => after_ite (fun _ => h s) fun _ => h' s

/-! ## Relations between before and after -/

/-- Whenever the transaction returns, from any state, the new state is related to the old. -/
def Moves (R : σ → σ → Prop) (m : StateT σ (Except ε) α) : Prop :=
  ∀ s, After m (fun _ t => R s t) s

section Moves

variable {R : σ → σ → Prop}

/-- A return stands still, so it moves along any reflexive relation. -/
theorem moves_pure (hrefl : ∀ s, R s s) (a : α) :
    Moves R (pure a : StateT σ (Except ε) α) := by
  intro s
  rw [after_pure]
  exact hrefl s

/-- An exception returns no state, so it moves along every relation. -/
theorem moves_throw (e : ε) : Moves R (throw e : StateT σ (Except ε) α) :=
  fun _ => after_throw e _

/-- A read stands still, so it moves along any reflexive relation. -/
theorem moves_get (hrefl : ∀ s, R s s) : Moves R (get : StateT σ (Except ε) σ) := by
  intro s
  rw [after_get]
  exact hrefl s

/-- A modification moves along a relation that contains each of its steps. -/
theorem moves_modify {g : σ → σ} (h : ∀ s, R s (g s)) :
    Moves R (modify g : StateT σ (Except ε) PUnit) := by
  intro s
  rw [after_modify]
  exact h s

/-- Two halves that move along a transitive relation move along it together. -/
theorem Moves.bind (htrans : ∀ s t u, R s t → R t u → R s u) (h : Moves R m)
    (hf : ∀ a, Moves R (f a)) : Moves R (m >>= f) := by
  intro s
  rw [after_bind]
  refine (h s).mono fun a t ht => ?_
  exact (hf a t).mono fun b u hu => htrans s t u ht hu

/-- A choice between two computations that move along a relation moves along it. -/
theorem Moves.ite {p : Prop} [Decidable p] {m' : StateT σ (Except ε) α} (h : Moves R m)
    (h' : Moves R m') : Moves R (if p then m else m') :=
  fun s => after_ite (fun _ => h s) fun _ => h' s

/-- A loop moves along a reflexive and transitive relation when each of its turns does, by induction
on the list. -/
theorem Moves.forM (hrefl : ∀ s, R s s) (htrans : ∀ s t u, R s t → R t u → R s u)
    {g : α → StateT σ (Except ε) PUnit} (h : ∀ a, Moves R (g a)) (l : List α) :
    Moves R (l.forM g) := by
  induction l with
  | nil => exact moves_pure hrefl PUnit.unit
  | cons a l ih => exact Moves.bind htrans (h a) fun _ => ih

end Moves

end Interactive
