/-!
# How a computation with exceptions ends

A computation that changes a state and may raise keeps its changes when it raises. `Ends` says how
it ends from a state: it returns and the first postcondition holds, or it raises and the second one
does. Each rule is an equivalence, so a goal about a program unfolds along its syntax.
-/

set_option autoImplicit false

namespace Raising

variable {ε σ α β : Type}

/-- The computation returns, with a value and a state in `ok`, or raises in `raised`. -/
def Ends (m : EStateM ε σ α) (s : σ) (ok : α → σ → Prop) (raised : ε → σ → Prop) : Prop :=
  match m s with
  | .ok a t => ok a t
  | .error e t => raised e t

variable {m : EStateM ε σ α} {f : α → EStateM ε σ β} {s : σ}
  {ok : α → σ → Prop} {raised : ε → σ → Prop}

/-- Both postconditions may be weakened. -/
theorem Ends.mono {ok' : α → σ → Prop} {raised' : ε → σ → Prop} (h : Ends m s ok raised)
    (hok : ∀ a t, ok a t → ok' a t) (hraised : ∀ e t, raised e t → raised' e t) :
    Ends m s ok' raised' := by
  unfold Ends at h ⊢
  cases hrun : m s with
  | ok a t =>
    rw [hrun] at h
    exact hok a t h
  | error e t =>
    rw [hrun] at h
    exact hraised e t h

/-- On a run that returned, the first postcondition holds. -/
theorem Ends.of_ok {a : α} {t : σ} (h : Ends m s ok raised) (hrun : m s = .ok a t) : ok a t := by
  unfold Ends at h
  rw [hrun] at h
  exact h

/-- On a run that raised, the second postcondition holds. -/
theorem Ends.of_error {e : ε} {t : σ} (h : Ends m s ok raised) (hrun : m s = .error e t) :
    raised e t := by
  unfold Ends at h
  rw [hrun] at h
  exact h

/-- For a computation known to return, only the first postcondition matters. -/
theorem ends_of_ok {a : α} {t : σ} (hrun : m s = .ok a t) :
    Ends m s ok raised ↔ ok a t := by
  unfold Ends
  rw [hrun]

/-- For a computation known to raise, only the second postcondition matters. -/
theorem ends_of_error {e : ε} {t : σ} (hrun : m s = .error e t) :
    Ends m s ok raised ↔ raised e t := by
  unfold Ends
  rw [hrun]

/-- A return asks the first postcondition of the present state. -/
@[simp] theorem ends_pure (a : α) {ok : α → σ → Prop} :
    Ends (pure a : EStateM ε σ α) s ok raised ↔ ok a s := Iff.rfl

/-- A raised error asks the second postcondition of the present state. -/
@[simp] theorem ends_throw (e : ε) :
    Ends (throw e : EStateM ε σ α) s ok raised ↔ raised e s := Iff.rfl

/-- A read returns the present state. -/
@[simp] theorem ends_get {ok : σ → σ → Prop} :
    Ends (get : EStateM ε σ σ) s ok raised ↔ ok s s := Iff.rfl

/-- A modification asks the first postcondition of the modified state. -/
@[simp] theorem ends_modify (g : σ → σ) {ok : PUnit → σ → Prop} :
    Ends (modify g : EStateM ε σ PUnit) s ok raised ↔ ok PUnit.unit (g s) := Iff.rfl

/-- A sequence: the second half starts where the first one returned, and an error of either half is
an error of the whole. -/
@[simp] theorem ends_bind {ok : β → σ → Prop} :
    Ends (m >>= f) s ok raised ↔ Ends m s (fun a t => Ends (f a) t ok raised) raised := by
  have hbind : (m >>= f) s = match m s with
    | .ok a t => f a t
    | .error e t => .error e t := rfl
  unfold Ends
  rw [hbind]
  cases m s <;> rfl

/-- A handler takes over exactly where the body raised. -/
@[simp] theorem ends_tryCatch (handler : ε → EStateM ε σ α) :
    Ends (tryCatch m handler) s ok raised ↔
      Ends m s ok fun e t => Ends (handler e) t ok raised := by
  have htry : (tryCatch m handler) s = match m s with
    | .ok a t => .ok a t
    | .error e t => handler e t := by
    show EStateM.tryCatch m handler s = _
    unfold EStateM.tryCatch
    cases m s <;> rfl
  unfold Ends
  rw [htry]
  cases m s <;> rfl

/-- A branch is checked under its own condition. -/
theorem ends_ite {p : Prop} [Decidable p] {m' : EStateM ε σ α} (h : p → Ends m s ok raised)
    (h' : ¬ p → Ends m' s ok raised) : Ends (if p then m else m') s ok raised := by
  by_cases hp : p
  · rw [if_pos hp]
    exact h hp
  · rw [if_neg hp]
    exact h' hp

/-- Every computation ends somehow. -/
theorem ends_true : Ends m s (fun _ _ => True) fun _ _ => True := by
  unfold Ends
  cases m s with
  | ok a t => trivial
  | error e t => trivial

/-- A computation that only reads ends in the state it started in. -/
def Looks (m : EStateM ε σ α) : Prop := ∀ s, Ends m s (fun _ t => t = s) fun _ t => t = s

/-- What does not depend on how it ends holds after such a computation when it held before. -/
theorem Looks.ends_iff (h : Looks m) {P : σ → Prop} :
    Ends m s (fun _ t => P t) (fun _ t => P t) ↔ P s := by
  have hsame := h s
  cases hrun : m s with
  | ok a t =>
    rw [ends_of_ok hrun] at hsame ⊢
    rw [hsame]
  | error e t =>
    rw [ends_of_error hrun] at hsame ⊢
    rw [hsame]

/-- A return changes nothing. -/
theorem looks_pure (a : α) : Looks (pure a : EStateM ε σ α) := fun _ => rfl

/-- Raising an error changes nothing. -/
theorem looks_throw (e : ε) : Looks (throw e : EStateM ε σ α) := fun _ => rfl

/-- A read changes nothing. -/
theorem looks_get : Looks (get : EStateM ε σ σ) := fun _ => rfl

/-- A sequence of two computations that change nothing changes nothing. -/
theorem Looks.bind (h : Looks m) (hf : ∀ a, Looks (f a)) : Looks (m >>= f) := by
  intro s
  rw [ends_bind]
  refine (h s).mono ?_ fun _ _ ht => ht
  intro a t ht
  rw [ht]
  exact hf a s

/-- A choice between two computations that change nothing changes nothing. -/
theorem Looks.ite {p : Prop} [Decidable p] {m' : EStateM ε σ α} (h : Looks m) (h' : Looks m') :
    Looks (if p then m else m') := fun s => ends_ite (fun _ => h s) fun _ => h' s

end Raising
