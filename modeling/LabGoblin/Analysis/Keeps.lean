import LabGoblin.Model.Deployment

/-!
# What actions keep to

`Keeps W K R p` says that, whatever it reads and whatever its calls are answered, the action
`p` commits only writes in `W`, makes only calls in `K` and returns only values in `R`. The
rules for the building blocks of actions are equivalences, so that they compute.
-/

set_option autoImplicit false

namespace LabGoblin

open Interactive

/-- The statements whose commits contain only writes in `W`. -/
def Commits (W : Write → Prop) : Stmt → Prop
  | .commit ws => ∀ w ∈ ws, W w
  | _ => True

/-! ## Rules for the building blocks -/

section Blocks

variable {W : Write → Prop} {K : Call → Prop}

/-- `p` commits only writes in `W`, makes only calls in `K`, and returns only values in `R`. -/
def Keeps {α : Type} (W : Write → Prop) (K : Call → Prop) (R : α → Prop) (p : Action α) : Prop :=
  Program.Ensures (G := Api) (Commits W) K R p

/-- A return commits and calls nothing. -/
@[simp] theorem keeps_pure {α : Type} (a : α) (R : α → Prop) :
    Keeps W K R (pure a : Action α) ↔ R a := Iff.rfl

/-- A sequence keeps to what both halves keep to. -/
@[simp] theorem keeps_bind {α β : Type} (p : Action α) (f : α → Action β) (R : β → Prop) :
    Keeps W K R (p >>= f) ↔ Keeps W K (fun a => Keeps W K R (f a)) p :=
  Program.ensures_bind (G := Api) p f

/-- A function of the result changes what is asked of the result. -/
@[simp] theorem keeps_map {α β : Type} (p : Action α) (f : α → β) (R : β → Prop) :
    Keeps W K R (f <$> p) ↔ Keeps W K (fun a => R (f a)) p := by
  rw [map_eq_pure_bind, keeps_bind]
  rfl

/-- A statement keeps to the writes that its commit may have. -/
@[simp] theorem keeps_run (q : Stmt) (R : Store → Prop) :
    Keeps W K R (Program.run (G := Api) q) ↔ Commits W q ∧ ∀ s, R s := Iff.rfl

/-- A query returns any store. -/
@[simp] theorem keeps_select (R : Store → Prop) : Keeps W K R select ↔ ∀ s, R s :=
  ⟨fun h => h.2, fun h => ⟨trivial, h⟩⟩

/-- Reading the clock returns the clock of any store. -/
@[simp] theorem keeps_utcnow (R : Time → Prop) : Keeps W K R utcnow ↔ ∀ s : Store, R s.clock :=
  ⟨fun h => h.2, fun h => ⟨trivial, h⟩⟩

/-- A pure computation returns its result, if it has one. -/
@[simp] theorem keeps_check {α : Type} (x : Except Exc α) (R : α → Prop) :
    Keeps W K R (check x) ↔ ∀ a, x = .ok a → R a :=
  Program.ensures_ofExcept (G := Api) x

/-- A failure keeps to everything. -/
@[simp] theorem keeps_fail {α : Type} (e : Exc) (R : α → Prop) : Keeps W K R (fail e) := trivial

/-- A check goes on only when its condition fails. -/
@[simp] theorem keeps_raiseIf (c : Prop) [Decidable c] (e : Exc) (R : Unit → Prop) :
    Keeps W K R (raiseIf c e) ↔ (¬ c → R ()) := by
  unfold raiseIf
  by_cases h : c
  · rw [if_pos h]
    exact ⟨fun _ hc => absurd h hc, fun _ => trivial⟩
  · rw [if_neg h]
    exact ⟨fun hr _ => hr, fun hr => hr h⟩

/-- Unpacking a value goes on only when there is one. -/
@[simp] theorem keeps_orRaise {α : Type} (x : Option α) (e : Exc) (R : α → Prop) :
    Keeps W K R (orRaise x e) ↔ ∀ a, x = some a → R a := by
  cases x with
  | none =>
    refine ⟨fun _ a ha => ?_, fun _ => trivial⟩
    cases ha
  | some a =>
    refine ⟨fun h b hb => ?_, fun h => h a rfl⟩
    cases hb
    exact h

/-- A commit keeps to its writes, and goes on only when some store admits them. -/
@[simp] theorem keeps_commit (ws : List Write) (R : Unit → Prop) :
    Keeps W K R (commit ws) ↔
      (∀ w ∈ ws, W w) ∧ ((∃ s : Store, s.afterCommit ws ≠ none) → R ()) := by
  constructor
  · rintro ⟨hw, hr⟩
    refine ⟨hw, ?_⟩
    rintro ⟨s, hs⟩
    have := hr s
    cases h : s.afterCommit ws with
    | none => exact absurd h hs
    | some db =>
      simp only [Program.bind, h] at this
      exact this
  · rintro ⟨hw, hr⟩
    refine ⟨hw, fun s => ?_⟩
    cases h : s.afterCommit ws with
    | none =>
      simp only [Program.bind, h]
      trivial
    | some db =>
      simp only [Program.bind, h]
      exact hr ⟨s, by simp [h]⟩

/-- A rollback commits nothing. -/
@[simp] theorem keeps_rollback (R : Unit → Prop) : Keeps W K R rollback ↔ (Store → R ()) :=
  ⟨fun h => h.2, fun h => ⟨trivial, h⟩⟩

/-- Drawing returns the next id of any store. -/
@[simp] theorem keeps_draw (q : Sequence) (R : ℕ → Prop) :
    Keeps W K R (draw q) ↔ ∀ s : Store, R (s.db.nextval q) :=
  ⟨fun h => h.2, fun h => ⟨trivial, h⟩⟩

/-- A call keeps to the calls that are allowed, and may be answered in any way. -/
@[simp] theorem keeps_await (c : Call) (R : c.Reply → Prop) :
    Keeps W K R (await c) ↔ K c ∧ ∀ r, R r :=
  Program.ensures_await (G := Api) c R

/-- A guarded action keeps what its body and its handler keep. -/
theorem Keeps.guarded {α : Type} {R : α → Prop} {body : Action α} {handler : Exc → Action α}
    (hb : Keeps W K R body) (hh : ∀ e, Keeps W K R (handler e)) :
    Keeps W K R (guarded body handler) :=
  Program.Ensures.tryCatch hb hh

/-- A postcondition that every value has. -/
theorem Keeps.mono {α : Type} {R R' : α → Prop} {p : Action α} (hp : Keeps W K R p)
    (hR : ∀ a, R a → R' a) : Keeps W K R' p :=
  Program.Ensures.mono hp (fun _ h => h) (fun _ h => h) hR

end Blocks

/-! ## Queueing -/

section Queueing

variable {W : Write → Prop} {K : Call → Prop}

/-- A key that names a VM belongs to an operation on that VM, of the type the key is for. -/
def KeyHonest (row : DurableOperation) : Prop :=
  match row.idempotencyKey with
  | .assignmentExpire _ v => row.operationType = .delete ∧ row.target = .studentVm v
  | .labRunClose _ v => row.operationType = .delete ∧ row.target = .studentVm v
  | .vmCreate v => row.operationType = .create ∧ row.target = .studentVm v
  | .uuid _ => True

/-- The row of an operation that was just queued. -/
structure Queued (row : DurableOperation) : Prop where
  state : row.state = .queued
  upid : row.proxmoxUpid = none
  phase : row.payload.phase = none
  result : row.result = none
  error : row.error = none
  honest : KeyHonest row
  attempts : row.attempts = 0

/-- The row is one that `enqueue_operation` inserts for the request. -/
def EnqueueRequest.Inserts (r : EnqueueRequest) (row : DurableOperation) : Prop :=
  ∃ id key now, row = r.row id key now ∧
    (r.idempotencyKey = some key ∨ r.idempotencyKey = none ∧ ∃ n, key = .uuid n)

/-- `enqueue_operation` flushes nothing, or the insert of one row. -/
theorem keeps_enqueueOperation (r : EnqueueRequest) (flushed : List Write)
    (R : DurableOperation × List Write → Prop) (hnone : ∀ o, R (o, []))
    (hsome : ∀ row, r.Inserts row → R (row, [.operation (.insert row)])) :
    Keeps W K R (enqueueOperation r flushed) := by
  have hkey : Keeps W K
      (fun key => r.idempotencyKey = some key ∨ r.idempotencyKey = none ∧ ∃ n, key = .uuid n)
      (operationKey r.idempotencyKey) := by
    cases h : r.idempotencyKey with
    | some key => exact Or.inl rfl
    | none => exact ⟨trivial, fun s => Or.inr ⟨rfl, s.nonce, rfl⟩⟩
  unfold enqueueOperation
  simp only [keeps_bind]
  refine Keeps.mono hkey ?_
  intro key hk
  rw [keeps_select]
  intro s
  cases operationWithKey (s.withFlushed flushed) key with
  | some existing => exact hnone existing
  | none =>
    simp only [keeps_bind, keeps_draw]
    intro s'
    exact hsome _ ⟨_, key, _, rfl, hk⟩

/-- A row that was inserted for a request under an honest key is queued. -/
theorem EnqueueRequest.Inserts.queued {r : EnqueueRequest} {row : DurableOperation}
    (h : r.Inserts row) (hphase : r.payload.phase = none)
    (hkey : ∀ id key now, r.idempotencyKey = some key → KeyHonest (r.row id key now)) :
    Queued row := by
  obtain ⟨id, key, now, rfl, hk⟩ := h
  refine ⟨rfl, rfl, hphase, rfl, rfl, ?_, rfl⟩
  rcases hk with hk | ⟨_, n, rfl⟩
  · exact hkey id key now hk
  · exact trivial

end Queueing

end LabGoblin
