import LabGoblin.Computation.Solo
import LabGoblin.Model.LabSetup

/-!
# Requests that run alone

What the building blocks of actions return when nothing interferes, and the store they leave.
The statements about one request in one state are about these runs.
-/

set_option autoImplicit false

namespace LabGoblin

open Interactive

variable {H : Type} {outside : Outside H} {p : Pid} {t t' : Sys H} {α β : Type}

/-- The shared state after a statement of a process. -/
def Sys.after (t : Sys H) (p : Pid) (q : Stmt) : Sys H :=
  { t with store := t.store.exec p q, log := .stmt p q t.store :: t.log }

/-- After a statement the store is the one that it leaves. -/
@[simp] theorem Sys.after_store (t : Sys H) (p : Pid) (q : Stmt) :
    (t.after p q).store = t.store.exec p q := rfl

/-- A query changes nothing. -/
@[simp] theorem Store.exec_select (s : Store) (p : Pid) (q : Query) :
    s.exec p (.select q) = s := rfl

/-- Nobody else holds a lock that the statement needs. -/
def Sys.Enabled (t : Sys H) (p : Pid) (q : Stmt) : Prop :=
  ∀ l ∈ q.needs t.store, t.store.FreeFor p l

/-- Nothing holds up a process when nobody holds a lock. -/
theorem Sys.enabled_of_unlocked (h : t.store.locks = []) (q : Stmt) : t.Enabled p q := by
  intro l _ e he
  rw [h] at he
  cases he

instance (outside : Outside H) (p : Pid) (q : Stmt) (t : Sys H) :
    Decidable ((machine outside).enabled p q t) :=
  inferInstanceAs (Decidable (∀ l ∈ q.needs t.store, t.store.FreeFor p l))

/-! ## The building blocks -/

/-- A leading statement must be enabled, and the rest runs on the store it has found. -/
theorem returns_stmt_bind {q : Stmt} {f : Store → Action β} {b : β} :
    Returns (machine outside) p (@Bind.bind Action _ Store β (Program.run (G := Api) q) f) t b t' ↔
      t.Enabled p q ∧ Returns (machine outside) p (f t.store) (t.after p q) b t' :=
  returns_run_bind_iff

/-- A query blocks nowhere. -/
theorem returns_query_bind {q : Query} {f : Store → Action β} {b : β} :
    Returns (machine outside) p
        (@Bind.bind Action _ Store β (Program.run (G := Api) (.select q)) f) t b t' ↔
      Returns (machine outside) p (f t.store) (t.after p (.select q)) b t' := by
  refine returns_stmt_bind.trans ⟨fun h => h.2, fun h => ⟨?_, h⟩⟩
  intro l hl
  cases hl

/-- A leading query gives the rest the present store. -/
theorem returns_select_bind {f : Store → Action β} {b : β} :
    Returns (machine outside) p (select >>= f) t b t' ↔
      Returns (machine outside) p (f t.store) (t.after p (.select .rows)) b t' :=
  returns_query_bind

/-- A leading read of the clock gives the rest the present time. -/
theorem returns_utcnow_bind {f : Time → Action β} {b : β} :
    Returns (machine outside) p (utcnow >>= f) t b t' ↔
      Returns (machine outside) p (f t.store.clock) (t.after p (.select .rows)) b t' :=
  returns_query_bind (f := fun s => f s.clock)

/-- A leading draw gives the rest the next id. -/
theorem returns_draw_bind {q : Sequence} {f : ℕ → Action β} {b : β} :
    Returns (machine outside) p (draw q >>= f) t b t' ↔
      Returns (machine outside) p (f (t.store.db.nextval q)) (t.after p (.draw q)) b t' := by
  refine (returns_stmt_bind (f := fun s => f (s.db.nextval q))).trans
    ⟨fun h => h.2, fun h => ⟨?_, h⟩⟩
  intro l hl
  cases hl

/-- A leading pure computation must have a result. -/
theorem returns_check_bind {x : Except Exc α} {f : α → Action β} {b : β} :
    Returns (machine outside) p (check x >>= f) t b t' ↔
      ∃ a, x = .ok a ∧ Returns (machine outside) p (f a) t b t' :=
  returns_ofExcept_bind_iff

/-- A pure computation returns its result and changes nothing. -/
theorem returns_check {x : Except Exc α} {a : α} :
    Returns (machine outside) p (check x) t a t' ↔ x = .ok a ∧ t' = t :=
  ends_ofExcept_iff.trans (and_congr_left fun _ => ⟨Eq.symm, Eq.symm⟩)

/-- A return returns its value and changes nothing. -/
theorem returns_pure {a b : α} :
    Returns (machine outside) p (pure a : Action α) t b t' ↔ a = b ∧ t' = t :=
  returns_pure_iff

/-- A failure returns nothing. -/
theorem not_returns_fail {e : Exc} {a : α} :
    ¬ Returns (machine outside) p (fail e : Action α) t a t' :=
  not_returns_throw

/-- A leading value must be there. -/
theorem returns_orRaise_bind {x : Option α} {e : Exc} {f : α → Action β} {b : β} :
    Returns (machine outside) p (orRaise x e >>= f) t b t' ↔
      ∃ a, x = some a ∧ Returns (machine outside) p (f a) t b t' := by
  cases x with
  | none => exact (returns_check_bind (x := .error e)).trans (by simp)
  | some a => exact (returns_check_bind (x := .ok a)).trans (by simp)

/-- A leading check must be passed. -/
theorem returns_raiseIf_bind {c : Prop} [Decidable c] {e : Exc} {f : Unit → Action β} {b : β} :
    Returns (machine outside) p (raiseIf c e >>= f) t b t' ↔
      ¬ c ∧ Returns (machine outside) p (f ()) t b t' := by
  unfold raiseIf
  by_cases hc : c
  · rw [if_pos hc]
    exact (returns_check_bind (x := .error e)).trans (by simp [hc])
  · rw [if_neg hc]
    refine (returns_check_bind (x := .ok ())).trans ⟨?_, fun h => ⟨(), rfl, h.2⟩⟩
    rintro ⟨a, -, h⟩
    exact ⟨hc, h⟩

/-- A leading commit gives the rest a return or an integrity error. -/
theorem commit_bind (ws : List Write) (f : Unit → Action β) :
    commit ws >>= f = Program.run (G := Api) (.commit ws) >>= fun s =>
      (match s.afterCommit ws with
        | none => fail .integrity
        | some _ => return ()) >>= f := rfl

/-- A commit that returns has made its writes visible. -/
theorem returns_commit_bind {ws : List Write} {f : Unit → Action β} {b : β} :
    Returns (machine outside) p (commit ws >>= f) t b t' ↔
      t.Enabled p (.commit ws) ∧ (t.store.afterCommit ws).isSome ∧
        Returns (machine outside) p (f ()) (t.after p (.commit ws)) b t' := by
  rw [commit_bind]
  refine returns_stmt_bind.trans (and_congr_right fun _ => ?_)
  cases h : t.store.afterCommit ws with
  | none => exact ⟨fun hends => (not_returns_fail hends).elim, fun hends => by cases hends.1⟩
  | some db => exact ⟨fun hends => ⟨rfl, hends⟩, fun hends => hends.2⟩

/-- A commit returns when it is enabled and its writes can be made. -/
theorem returns_commit {ws : List Write} :
    Returns (machine outside) p (commit ws) t () t' ↔
      t.Enabled p (.commit ws) ∧ (t.store.afterCommit ws).isSome ∧
        t' = t.after p (.commit ws) := by
  rw [← bind_pure (commit ws), returns_commit_bind, returns_pure]
  simp

/-! ## The caller -/

/-- The caller that an endpoint serves, and the organization it acts in. -/
theorem returns_currentCaller_bind {caller : Caller}
    {f : User × OrganizationContext → Action β} {b : β} :
    Returns (machine outside) p (currentCaller caller >>= f) t b t' ↔
      ∃ user organization, currentUser t.store.db caller = .ok user ∧
        resolveOrganizationContext t.store.db user caller.organizationId = .ok organization ∧
        Returns (machine outside) p (f (user, organization)) (t.after p (.select .rows)) b t' := by
  unfold currentCaller
  simp only [bind_assoc, pure_bind, returns_select_bind, returns_check_bind, exists_and_left]

/-- The caller of an endpoint for instructors. -/
theorem returns_currentInstructor_bind {caller : Caller}
    {f : User × OrganizationContext → Action β} {b : β} :
    Returns (machine outside) p (currentInstructor caller >>= f) t b t' ↔
      ∃ user organization, currentUser t.store.db caller = .ok user ∧
        resolveOrganizationContext t.store.db user caller.organizationId = .ok organization ∧
        enforceOrganizationRole organization .instructor = .ok () ∧
        Returns (machine outside) p (f (user, organization)) (t.after p (.select .rows)) b t' := by
  unfold currentInstructor
  simp only [bind_assoc, pure_bind, returns_currentCaller_bind, returns_check_bind,
    Unique.exists_iff, PUnit.default_eq_unit]

/-- The run of an endpoint, without or with its row locked. -/
theorem returns_runForUser_bind {runId : ℕ} {organization : OrganizationContext} {user : User}
    {lock : Bool} {f : LabRun × Lab → Action β} {b : β} :
    Returns (machine outside) p (runForUser runId organization user lock >>= f) t b t' ↔
      ∃ q, q = (if lock then .lock (.labRun runId organization.id) else .select .rows) ∧
        t.Enabled p q ∧ ∃ run, runInOrganization t.store.db runId organization.id = some run ∧
        ∃ lab, labForUser (t.after p q).store.db run.labId organization user = .ok lab ∧
        Returns (machine outside) p (f (run, lab)) ((t.after p q).after p (.select .rows)) b
          t' := by
  unfold runForUser
  simp only [bind_assoc, pure_bind, returns_stmt_bind, returns_orRaise_bind,
    returns_select_bind, returns_check_bind, exists_eq_left]

/-! ## Queueing -/

/-- What `enqueue_operation` does under a given key: it finds the operation that has the key, or
inserts one. -/
theorem returns_enqueueOperation {r : EnqueueRequest} {key : IdempotencyKey}
    {flushed : List Write} {result : DurableOperation × List Write}
    (hkey : r.idempotencyKey = some key)
    (h : Returns (machine outside) p (enqueueOperation r flushed) t result t') :
    (operationWithKey (t.store.withFlushed flushed) key = some result.1 ∧ result.2 = [] ∧
        t' = t.after p (.select .rows)) ∨
      (operationWithKey (t.store.withFlushed flushed) key = none ∧
        result.1 = r.row t.store.db.durableOperations.next key t.store.clock ∧
        result.2 = [.operation (.insert result.1)] ∧
        t' = (t.after p (.select .rows)).after p (.draw .durableOperations)) := by
  unfold enqueueOperation at h
  rw [hkey] at h
  simp only [operationKey, pure_bind, returns_select_bind] at h
  cases hfound : operationWithKey (t.store.withFlushed flushed) key with
  | some existing =>
    rw [hfound] at h
    obtain ⟨rfl, rfl⟩ := returns_pure.mp h
    exact Or.inl ⟨rfl, rfl, rfl⟩
  | none =>
    rw [hfound] at h
    simp only [returns_draw_bind, returns_pure] at h
    obtain ⟨rfl, rfl⟩ := h
    exact Or.inr ⟨rfl, rfl, rfl, rfl⟩

end LabGoblin
