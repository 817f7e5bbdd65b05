/-!
# Coupled runs

Two stateful computations that may raise are coupled from two states when they both return, in
states and with values related by a postcondition, or both raise, in states related by a relation
for failures. Coupling two runs of one program from different secrets shows that what the relation
keeps equal does not depend on the secret.
-/

set_option autoImplicit false

namespace Interactive

variable {ε σ τ α β γ δ : Type}

/-- Both computations return and their results are in `post`, or both raise and their results are
in `fail`. -/
def Coupled (m : EStateM ε σ α) (m' : EStateM ε τ β) (s : σ) (s' : τ)
    (post : α → β → σ → τ → Prop) (fail : ε → ε → σ → τ → Prop) : Prop :=
  match m s, m' s' with
  | .ok a t, .ok b t' => post a b t t'
  | .error e t, .error e' t' => fail e e' t t'
  | .ok _ _, .error _ _ => False
  | .error _ _, .ok _ _ => False

variable {m : EStateM ε σ α} {m' : EStateM ε τ β} {s : σ} {s' : τ}
  {post : α → β → σ → τ → Prop} {fail : ε → ε → σ → τ → Prop}

/-- Two returns are coupled when their results are. -/
theorem coupled_pure {a : α} {b : β} (h : post a b s s') :
    Coupled (pure a : EStateM ε σ α) (pure b : EStateM ε τ β) s s' post fail := h

/-- Two errors are coupled when they are as asked. -/
theorem coupled_throw {e e' : ε} (h : fail e e' s s') :
    Coupled (throw e : EStateM ε σ α) (throw e' : EStateM ε τ β) s s' post fail := h

/-- Coupled computations both return or both raise. -/
theorem Coupled.ends (h : Coupled m m' s s' post fail) :
    (∃ a b t t', m s = .ok a t ∧ m' s' = .ok b t' ∧ post a b t t') ∨
      ∃ e e' t t', m s = .error e t ∧ m' s' = .error e' t' ∧ fail e e' t t' := by
  unfold Coupled at h
  cases h1 : m s with
  | ok a t =>
    cases h2 : m' s' with
    | ok b t' =>
      rw [h1, h2] at h
      exact .inl ⟨a, b, t, t', rfl, rfl, h⟩
    | error e' t' =>
      rw [h1, h2] at h
      exact h.elim
  | error e t =>
    cases h2 : m' s' with
    | ok b t' =>
      rw [h1, h2] at h
      exact h.elim
    | error e' t' =>
      rw [h1, h2] at h
      exact .inr ⟨e, e', t, t', rfl, rfl, h⟩

/-- Sequences are coupled when their first parts are, and their second parts from all the results
that this allows. -/
theorem coupled_bind {q : α → β → σ → τ → Prop} {f : α → EStateM ε σ γ}
    {f' : β → EStateM ε τ δ} {post : γ → δ → σ → τ → Prop}
    (h : Coupled m m' s s' q fail)
    (hf : ∀ a b t t', q a b t t' → Coupled (f a) (f' b) t t' post fail) :
    Coupled (m >>= f) (m' >>= f') s s' post fail := by
  have hm : (m >>= f) s = match m s with
    | .ok a t => f a t
    | .error e t => .error e t := rfl
  have hm' : (m' >>= f') s' = match m' s' with
    | .ok b t => f' b t
    | .error e t => .error e t := rfl
  unfold Coupled
  rw [hm, hm']
  rcases h.ends with ⟨a, b, t, t', h1, h2, hmid⟩ | ⟨e, e', t, t', h1, h2, hfail⟩
  · rw [h1, h2]
    exact hf a b t t' hmid
  · rw [h1, h2]
    exact hfail

/-- The relations that coupled results are in may be weakened. -/
theorem Coupled.mono {post' : α → β → σ → τ → Prop} {fail' : ε → ε → σ → τ → Prop}
    (h : Coupled m m' s s' post fail) (hpost : ∀ a b t t', post a b t t' → post' a b t t')
    (hfail : ∀ e e' t t', fail e e' t t' → fail' e e' t t') :
    Coupled m m' s s' post' fail' := by
  unfold Coupled
  rcases h.ends with ⟨a, b, t, t', h1, h2, h⟩ | ⟨e, e', t, t', h1, h2, h⟩
  · rw [h1, h2]
    exact hpost a b t t' h
  · rw [h1, h2]
    exact hfail e e' t t' h

end Interactive
