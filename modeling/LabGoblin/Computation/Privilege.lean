import Mathlib.Logic.Relation

/-!
# Privileges that are conferred

Some hold a privilege in some states of a system. A step that gives it to somebody founds it, or
somebody who holds it confers it. Then whoever holds it in a state that the system has run to has
come by it properly: it was held at the start, or was founded in the run, or was conferred by
somebody who had come by it properly before.
-/

set_option autoImplicit false

namespace Interactive

/-- Who holds a privilege, and which steps give it to whom. -/
structure Privilege (σ κ : Type) where
  step : σ → σ → Prop
  holds : σ → κ → Prop
  founds : σ → σ → κ → Prop
  confers : σ → σ → κ → κ → Prop

namespace Privilege

variable {σ κ : Type} (P : Privilege σ κ)

abbrev Run : σ → σ → Prop := Relation.ReflTransGen P.step

/-- Under an invariant, a step leaves nobody the privilege who has not held it before, been the
one it was founded for, or got it from a holder. -/
structure Guarded (I : σ → Prop) : Prop where
  keeps : ∀ s t, I s → P.step s t → I t
  gives : ∀ s t k, I s → P.step s t → P.holds t k →
    P.holds s k ∨ P.founds s t k ∨ ∃ j, P.holds s j ∧ P.confers s t j k

/-- `k` holds the privilege in a state of a run from `start`, and has come by it properly. -/
inductive Entitled (start : σ) : σ → κ → Prop
  | held {k : κ} (h : P.holds start k) : Entitled start start k
  | kept {s t : σ} {k : κ} (before : Entitled start s k) (step : P.step s t)
      (h : P.holds t k) : Entitled start t k
  | founded {s t : σ} {k : κ} (before : P.Run start s) (step : P.step s t)
      (founds : P.founds s t k) (h : P.holds t k) : Entitled start t k
  | conferred {s t : σ} {j k : κ} (before : Entitled start s j) (step : P.step s t)
      (confers : P.confers s t j k) (h : P.holds t k) : Entitled start t k

variable {P} {I : σ → Prop} {start t : σ} {k : κ}

/-- Whoever holds a guarded privilege after a run has come by it properly. -/
theorem Guarded.entitled (hguarded : P.Guarded I) (hstart : I start) (hrun : P.Run start t)
    (h : P.holds t k) : P.Entitled start t k := by
  have hinv : ∀ s, P.Run start s → I s := by
    intro s hs
    induction hs with
    | refl => exact hstart
    | tail _ hstep ih => exact hguarded.keeps _ _ ih hstep
  induction hrun generalizing k with
  | refl => exact .held h
  | tail hbefore hstep ih =>
    rcases hguarded.gives _ _ k (hinv _ hbefore) hstep h with hkept | hfounded | ⟨j, hj, hconfers⟩
    · exact .kept (ih hkept) hstep h
    · exact .founded hbefore hstep hfounded h
    · exact .conferred (ih hj) hstep hconfers h

/-- Every such history goes back to a holder at the start or to a founding in the run. -/
theorem Entitled.origin (h : P.Entitled start t k) :
    (∃ j, P.holds start j) ∨
      ∃ s u j, P.Run start s ∧ P.step s u ∧ P.founds s u j := by
  induction h with
  | held h => exact .inl ⟨_, h⟩
  | kept _ _ _ ih => exact ih
  | founded before step founds _ => exact .inr ⟨_, _, _, before, step, founds⟩
  | conferred _ _ _ _ ih => exact ih

/-- A privilege that nobody holds and no step of the run founds stays without a holder. -/
theorem Guarded.not_holds (hguarded : P.Guarded I) (hstart : I start) (hrun : P.Run start t)
    (hnone : ∀ j, ¬ P.holds start j) (hfounds : ∀ s u j, P.step s u → ¬ P.founds s u j) :
    ¬ P.holds t k := by
  intro h
  rcases (hguarded.entitled hstart hrun h).origin with ⟨j, hj⟩ | ⟨s, u, j, -, hstep, hfounded⟩
  · exact hnone j hj
  · exact hfounds s u j hstep hfounded

end Privilege

end Interactive
