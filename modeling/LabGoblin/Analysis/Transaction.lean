import LabGoblin.Analysis.Keeps

/-!
# What an action does before it commits

`Reads le R p s` says that the action `p`, started after the store `s` was seen, runs no statement
that ends its transaction, as long as the stores that it sees move along `le`. What it returns is
in `R` of the store that it saw last. The locks it takes stay held meanwhile, so `le` may say that
the rows under these locks stay as they are.
-/

set_option autoImplicit false

namespace LabGoblin

open Interactive

/-- The statement neither commits nor rolls back. -/
def Stmt.reads : Stmt → Prop
  | .commit _ => False
  | .rollback => False
  | _ => True

section Blocks

variable {le : Store → Store → Prop} {s : Store} {α β : Type}

/-- `p` ends no transaction while the store moves along `le`, and returns only values in `R`. -/
def Reads (le : Store → Store → Prop) (R : α → Store → Prop) (p : Action α) (s : Store) : Prop :=
  Program.EnsuresAlong (G := Api) le Stmt.reads R p s

/-- A return is asked what holds at the store that was seen last. -/
@[simp] theorem reads_pure (a : α) (R : α → Store → Prop) :
    Reads le R (pure a : Action α) s ↔ R a s := Iff.rfl

/-- A sequence reads when both halves do, the second one from the store that the first one saw last.
-/
@[simp] theorem reads_bind (p : Action α) (f : α → Action β) (R : β → Store → Prop) :
    Reads le R (p >>= f) s ↔ Reads le (fun a => Reads le R (f a)) p s :=
  Program.ensuresAlong_bind (G := Api) p f s

/-- A function of the result changes what is asked of the result. -/
@[simp] theorem reads_map (p : Action α) (f : α → β) (R : β → Store → Prop) :
    Reads le R (f <$> p) s ↔ Reads le (fun a => R (f a)) p s := by
  rw [map_eq_pure_bind, reads_bind]
  rfl

/-- A statement reads when it ends no transaction, and sees any later store. -/
@[simp] theorem reads_run (q : Stmt) (R : Store → Store → Prop) :
    Reads le R (Program.run (G := Api) q) s ↔ q.reads ∧ ∀ s', le s s' → R s' s' := Iff.rfl

/-- A query sees any later store. -/
@[simp] theorem reads_select (R : Store → Store → Prop) :
    Reads le R select s ↔ ∀ s', le s s' → R s' s' :=
  ⟨fun h => h.2, fun h => ⟨trivial, h⟩⟩

/-- Reading the clock sees the clock of any later store. -/
@[simp] theorem reads_utcnow (R : Time → Store → Prop) :
    Reads le R utcnow s ↔ ∀ s', le s s' → R s'.clock s' :=
  ⟨fun h => h.2, fun h => ⟨trivial, h⟩⟩

/-- A pure computation returns its result, if it has one. -/
@[simp] theorem reads_check (x : Except Exc α) (R : α → Store → Prop) :
    Reads le R (check x) s ↔ ∀ a, x = .ok a → R a s :=
  Program.ensuresAlong_ofExcept (G := Api) x s

/-- A failure reads. -/
@[simp] theorem reads_fail (e : Exc) (R : α → Store → Prop) : Reads le R (fail e) s := trivial

/-- A check goes on only when its condition fails. -/
@[simp] theorem reads_raiseIf (c : Prop) [Decidable c] (e : Exc) (R : Unit → Store → Prop) :
    Reads le R (raiseIf c e) s ↔ (¬ c → R () s) := by
  unfold raiseIf
  by_cases h : c
  · rw [if_pos h]
    exact ⟨fun _ hc => absurd h hc, fun _ => trivial⟩
  · rw [if_neg h]
    exact ⟨fun hr _ => hr, fun hr => hr h⟩

/-- Unpacking a value goes on only when there is one. -/
@[simp] theorem reads_orRaise (x : Option α) (e : Exc) (R : α → Store → Prop) :
    Reads le R (orRaise x e) s ↔ ∀ a, x = some a → R a s := by
  cases x with
  | none =>
    refine ⟨fun _ a ha => ?_, fun _ => trivial⟩
    cases ha
  | some a =>
    refine ⟨fun h b hb => ?_, fun h => h a rfl⟩
    cases hb
    exact h

/-- Drawing sees the next id of any later store. -/
@[simp] theorem reads_draw (q : Sequence) (R : ℕ → Store → Prop) :
    Reads le R (draw q) s ↔ ∀ s', le s s' → R (s'.db.nextval q) s' :=
  ⟨fun h => h.2, fun h => ⟨trivial, h⟩⟩

/-- A call ends no transaction, and may be answered in any way. -/
@[simp] theorem reads_await (c : Call) (R : c.Reply → Store → Prop) :
    Reads le R (await c) s ↔ ∀ r, R r s :=
  Program.ensuresAlong_await (G := Api) c R s

/-- A postcondition that every value has. -/
theorem Reads.mono {R R' : α → Store → Prop} {p : Action α} (hp : Reads le R p s)
    (hR : ∀ a s', R a s' → R' a s') : Reads le R' p s :=
  Program.EnsuresAlong.mono hp hR

/-- The store that was seen last comes after the first one. -/
theorem Reads.last (hrefl : ∀ s, le s s) (htrans : ∀ a b c, le a b → le b c → le a c)
    {R : α → Store → Prop} {p : Action α} (hp : Reads le R p s) :
    Reads le (fun a s' => le s s' ∧ R a s') p s :=
  Program.EnsuresAlong.last hrefl htrans hp

end Blocks

/-! ## Callers and queues -/

section Parts

variable {le : Store → Store → Prop} {s : Store}

/-- The check of the caller reads. -/
theorem reads_currentCaller (caller : Caller) :
    Reads le (fun _ _ => True) (currentCaller caller) s := by
  unfold currentCaller
  simp

/-- The check for an instructor reads. -/
theorem reads_currentInstructor (caller : Caller) :
    Reads le (fun _ _ => True) (currentInstructor caller) s := by
  unfold currentInstructor
  rw [reads_bind]
  refine Reads.mono (reads_currentCaller caller) ?_
  intro a _ _
  simp

/-- `enqueue_operation` finds an operation under the key that it was given, or returns the insert
of one. -/
theorem reads_enqueueOperation (r : EnqueueRequest) (flushed : List Write)
    (R : DurableOperation × List Write → Store → Prop)
    (hfound : ∀ o s' key, le s s' → r.idempotencyKey = some key →
      operationWithKey (s'.withFlushed flushed) key = some o → R (o, []) s')
    (hrandom : r.idempotencyKey = none → ∀ o s', R (o, []) s')
    (hsome : ∀ row s', r.Inserts row → R (row, [.operation (.insert row)]) s') :
    Reads le R (enqueueOperation r flushed) s := by
  unfold enqueueOperation
  rw [reads_bind]
  cases hkey : r.idempotencyKey with
  | some key =>
    simp only [operationKey, reads_pure, reads_bind, reads_select]
    intro s' hs'
    cases hf : operationWithKey (s'.withFlushed flushed) key with
    | some existing => exact hfound existing s' key hs' hkey hf
    | none =>
      simp only [reads_bind, reads_draw, reads_pure]
      exact fun s'' _ => hsome _ s'' ⟨_, key, _, rfl, Or.inl hkey⟩
  | none =>
    simp only [operationKey, reads_pure, reads_bind, reads_select, reads_run]
    refine ⟨trivial, fun s₀ _ s' _ => ?_⟩
    cases hf : operationWithKey (s'.withFlushed flushed) (.uuid s₀.nonce) with
    | some existing => exact hrandom hkey existing s'
    | none =>
      simp only [reads_bind, reads_draw, reads_pure]
      exact fun s'' _ => hsome _ s'' ⟨_, _, _, rfl, Or.inr ⟨hkey, _, rfl⟩⟩

end Parts

end LabGoblin
