import LabGoblin.Model.Operations

/-!
# Weakest preconditions of the building blocks

One rule for each building block of actions, in the form in which the rules of contracts are
applied to the modelled code.
-/

set_option autoImplicit false

namespace LabGoblin

open Interactive

variable {τ : Type} {C : Contract Api τ} {α : Type}

/-- A query is admitted and sees whatever state the others have left. -/
theorem wp_select (Q : Post Api τ Store) (t : τ) :
    wp C select Q t ↔ ∀ t', C.rely t t' → C.inv t' →
      C.machine.enabled C.self (Stmt.select .rows) t' →
      C.allowsStmt (Stmt.select .rows) t' ∧
        Q (.ok (C.machine.view t')) (C.machine.exec C.self (Stmt.select .rows) t') := Iff.rfl

/-- Reading the clock sees the clock of whatever state the others have left. -/
theorem wp_utcnow (Q : Post Api τ Time) (t : τ) :
    wp C utcnow Q t ↔ ∀ t', C.rely t t' → C.inv t' →
      C.machine.enabled C.self (Stmt.select .rows) t' →
      C.allowsStmt (Stmt.select .rows) t' ∧
        Q (.ok (C.machine.view t').clock) (C.machine.exec C.self (Stmt.select .rows) t') :=
  Iff.rfl

/-- A pure computation ends at once. -/
@[simp] theorem wp_check (x : Except Exc α) (Q : Post Api τ α) (t : τ) :
    wp C (check x) Q t ↔ Q x t :=
  wp_ofExcept x Q t

/-- A failure ends at once. -/
@[simp] theorem wp_fail (e : Exc) (Q : Post Api τ α) (t : τ) :
    wp C (fail e) Q t ↔ Q (.error e) t := Iff.rfl

/-- A check raises under its condition and returns otherwise. -/
theorem wp_raiseIf (c : Prop) [Decidable c] (e : Exc) (Q : Post Api τ Unit) (t : τ) :
    wp C (raiseIf c e) Q t ↔ (c → Q (.error e) t) ∧ (¬ c → Q (.ok ()) t) := by
  unfold raiseIf
  by_cases h : c
  · rw [if_pos h]
    exact ⟨fun hq => ⟨fun _ => hq, fun hn => absurd h hn⟩, fun hq => hq.1 h⟩
  · rw [if_neg h]
    exact ⟨fun hq => ⟨fun hp => absurd hp h, fun _ => hq⟩, fun hq => hq.2 h⟩

/-- Unpacking a value raises when there is none. -/
theorem wp_orRaise (x : Option α) (e : Exc) (Q : Post Api τ α) (t : τ) :
    wp C (orRaise x e) Q t ↔ (x = none → Q (.error e) t) ∧ ∀ a, x = some a → Q (.ok a) t := by
  cases x with
  | none =>
    refine ⟨fun h => ⟨fun _ => h, fun a ha => ?_⟩, fun h => h.1 rfl⟩
    cases ha
  | some a =>
    refine ⟨fun h => ⟨fun hn => ?_, fun b hb => ?_⟩, fun h => h.2 a rfl⟩
    · cases hn
    · cases hb
      exact h

variable {β : Type}

/-- A check first and the rest of an action after it. -/
theorem wp_check_bind {x : Except Exc α} {f : α → Action β} {Q : Post Api τ β} {t : τ}
    (hok : ∀ a, x = .ok a → wp C (f a) Q t) (herr : ∀ e, Q (.error e) t) :
    wp C (check x >>= f) Q t := by
  rw [wp_bind, wp_check]
  cases x with
  | error e => exact herr e
  | ok a => exact hok a rfl

/-- A leading check: the rest may use that its condition fails. -/
theorem wp_raiseIf_bind {c : Prop} [Decidable c] {e : Exc} {f : Unit → Action β}
    {Q : Post Api τ β} {t : τ} (hok : ¬ c → wp C (f ()) Q t) (herr : Q (.error e) t) :
    wp C (raiseIf c e >>= f) Q t := by
  rw [wp_bind, wp_raiseIf]
  exact ⟨fun _ => herr, hok⟩

/-- A leading value: the rest may use it. -/
theorem wp_orRaise_bind {x : Option α} {e : Exc} {f : α → Action β} {Q : Post Api τ β} {t : τ}
    (hok : ∀ a, x = some a → wp C (f a) Q t) (herr : Q (.error e) t) :
    wp C (orRaise x e >>= f) Q t := by
  rw [wp_bind, wp_orRaise]
  exact ⟨fun _ => herr, hok⟩

/-- A commit either violates a constraint, which raises, or takes effect. -/
theorem wp_commit (ws : List Write) (Q : Post Api τ Unit) (t : τ) :
    wp C (commit ws) Q t ↔ ∀ t', C.rely t t' → C.inv t' →
      C.machine.enabled C.self (Stmt.commit ws) t' →
      C.allowsStmt (Stmt.commit ws) t' ∧
        ((C.machine.view t').afterCommit ws = none →
          Q (.error .integrity) (C.machine.exec C.self (Stmt.commit ws) t')) ∧
        (∀ db, (C.machine.view t').afterCommit ws = some db →
          Q (.ok ()) (C.machine.exec C.self (Stmt.commit ws) t')) := by
  unfold commit
  rw [wp_run_bind]
  refine forall_congr' fun t' => imp_congr_right fun _ => imp_congr_right fun _ =>
    imp_congr_right fun _ => and_congr_right fun _ => ?_
  cases h : (C.machine.view t').afterCommit ws with
  | none =>
    refine ⟨fun hq => ⟨fun _ => hq, fun db hdb => ?_⟩, fun hq => hq.1 rfl⟩
    cases hdb
  | some db =>
    refine ⟨fun hq => ⟨fun hn => ?_, fun db' _ => hq⟩, fun hq => hq.2 db rfl⟩
    cases hn

/-- The validator is one statement, which ends with its verdict on the current store. -/
theorem wp_authorize (row : DurableOperation) (vm : StudentVM) (payload : Payload)
    (Q : Post Api τ Unit) (t : τ) :
    wp C (authorize row vm payload) Q t ↔ ∀ t', C.rely t t' → C.inv t' →
      C.machine.enabled C.self (Stmt.authorize row vm payload) t' →
      C.allowsStmt (Stmt.authorize row vm payload) t' ∧
        Q (validateOperationAuthorization (C.machine.view t').db (C.machine.view t').clock row vm
            payload)
          (C.machine.exec C.self (Stmt.authorize row vm payload) t') := by
  unfold authorize
  rw [wp_run_bind]
  simp only [check, wp_ofExcept]

/-- Loading a VM record sees the record in whatever state the others have left. -/
theorem wp_loadVm (id : ℕ) (Q : Post Api τ (Option StudentVM)) (t : τ) :
    wp C (loadVm id) Q t ↔ ∀ t', C.rely t t' → C.inv t' →
      C.machine.enabled C.self (Stmt.select (.vm id)) t' →
      C.allowsStmt (Stmt.select (.vm id)) t' ∧
        Q (.ok ((C.machine.view t').db.studentVms.get? id))
          (C.machine.exec C.self (Stmt.select (.vm id)) t') := Iff.rfl

end LabGoblin
