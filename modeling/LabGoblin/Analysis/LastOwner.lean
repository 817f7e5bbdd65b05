import LabGoblin.Computation.Script
import LabGoblin.Model.Memberships

/-!
# The last active owner of an organization

A transaction writes memberships of the organization whose row it has locked, and while it holds
the lock nobody else writes them. So what it has read, its own membership row and the other
active owner, is still there when it commits, and the write leaves an active owner.
-/

set_option autoImplicit false

namespace LabGoblin.Memberships

open Interactive

/-- The organization has an active membership with role owner. -/
def HasActiveOwner (t : State) (o : ℕ) : Prop :=
  ∃ m ∈ t.memberships.rows, m.organizationId = o ∧ m.role = .owner ∧ m.isActive = true

/-! ## Writes -/

/-- The row that a write is about belongs to the organization. -/
def Write.Within (write : Write) (t : State) (o : ℕ) : Prop :=
  match write with
  | .insert organizationId _ _ => organizationId = o
  | .update id _ _ => ∀ m ∈ t.memberships.rows, m.id = id → m.organizationId = o

variable {t t' : State} {p : Pid} {o : ℕ} {write : Write}

/-- Releasing the locks changes no membership. -/
@[simp] theorem release_memberships (t : State) (p : Pid) :
    (t.release p).memberships = t.memberships := rfl

/-- A commit makes its write, or it is refused and changes no membership. -/
theorem exec_commit (t : State) (p : Pid) (write : Write) :
    (exec p (.commit write) t).memberships = t.memberships ∨
      (exec p (.commit write) t).memberships = t.written write := by
  simp only [exec]
  by_cases h : t.Admits write
  · right
    rw [if_pos h, release_memberships]
  · left
    rw [if_neg h, release_memberships]

/-- After an insertion the memberships are the old ones and the new one. -/
theorem mem_written_insert {organizationId userId : ℕ} {role : OrganizationRole}
    {m : OrganizationMembership} :
    m ∈ (t.written (.insert organizationId userId role)).rows ↔
      m ∈ t.memberships.rows ∨
        m = ⟨t.memberships.next, organizationId, userId, role, true⟩ := by
  unfold State.written
  rw [Table.rows_add, List.mem_append, List.mem_singleton]

/-- After an update the memberships are the old ones, of which one may be assigned to. -/
theorem mem_written_update {id : ℕ} {role : Option OrganizationRole} {isActive : Option Bool}
    {m : OrganizationMembership} :
    m ∈ (t.written (.update id role isActive)).rows ↔
      ∃ b ∈ t.memberships.rows, (if b.id = id then assign role isActive b else b) = m := by
  show m ∈ (t.memberships.update id (assign role isActive) fun _ => rfl).rows ↔ _
  exact Table.mem_update

/-- A write leaves the memberships of the other organizations alone. -/
theorem mem_written_of_ne (hwithin : write.Within t o) {m : OrganizationMembership}
    (hm : m.organizationId ≠ o) : m ∈ (t.written write).rows ↔ m ∈ t.memberships.rows := by
  cases write with
  | insert organizationId userId role =>
    have horg : organizationId = o := hwithin
    rw [mem_written_insert]
    constructor
    · rintro (h | h)
      · exact h
      · rw [h] at hm
        exact absurd horg hm
    · exact .inl
  | update id role isActive =>
    rw [mem_written_update]
    constructor
    · rintro ⟨b, hb, heq⟩
      by_cases hid : b.id = id
      · have horg := hwithin b hb hid
        rw [if_pos hid] at heq
        rw [← heq] at hm
        exact absurd horg hm
      · rw [if_neg hid] at heq
        exact heq ▸ hb
    · intro h
      refine ⟨m, h, if_neg fun hid => hm ?_⟩
      exact hwithin m h hid

/-- An active owner of the organization in another row stays one. -/
theorem hasActiveOwner_update {id : ℕ} {role : Option OrganizationRole} {isActive : Option Bool}
    {w : OrganizationMembership} (hw : w ∈ t.memberships.rows) (horg : w.organizationId = o)
    (hrole : w.role = .owner) (hactive : w.isActive = true)
    (hkept : w.id = id → (assign role isActive w).role = .owner ∧
      (assign role isActive w).isActive = true) :
    ∃ m ∈ (t.written (.update id role isActive)).rows, m.organizationId = o ∧
      m.role = .owner ∧ m.isActive = true := by
  refine ⟨_, mem_written_update.mpr ⟨w, hw, rfl⟩, ?_⟩
  by_cases hid : w.id = id
  · rw [if_pos hid]
    exact ⟨horg, hkept hid⟩
  · rw [if_neg hid]
    exact ⟨horg, hrole, hactive⟩

/-- A write keeps an active owner when the table it leaves has one. -/
theorem hasActiveOwner_commit (h : HasActiveOwner t o)
    (hwritten : ∃ m ∈ (t.written write).rows, m.organizationId = o ∧ m.role = .owner ∧
      m.isActive = true) : HasActiveOwner (exec p (.commit write) t) o := by
  unfold HasActiveOwner
  rcases exec_commit t p write with hrows | hrows
  · rw [hrows]
    exact h
  · rw [hrows]
    exact hwritten

/-- A write in one organization keeps the active owner of another. -/
theorem hasActiveOwner_commit_of_ne {o' : ℕ} (hwithin : write.Within t o) (hne : o' ≠ o)
    (h : HasActiveOwner t o') : HasActiveOwner (exec p (.commit write) t) o' := by
  refine hasActiveOwner_commit h ?_
  obtain ⟨m, hm, horg, howner⟩ := h
  exact ⟨m, (mem_written_of_ne hwithin (horg ▸ hne)).mpr hm, horg, howner⟩

/-- What is flushed of an attribute is what was assigned to it. -/
@[simp] theorem changed_getD {α : Type} [DecidableEq α] (loaded assigned : α) :
    (changed loaded assigned).getD loaded = assigned := by
  unfold changed
  by_cases h : assigned = loaded
  · rw [if_pos h, Option.getD_none, h]
  · rw [if_neg h, Option.getD_some]

/-! ## The discipline of the lock -/

/-- Only transactions that were started hold a lock. -/
def HeldByCalls (t : State) : Prop := ∀ o p, t.holder o = some p → p < t.calls

/-- While a transaction holds the lock of an organization, the others leave its memberships
alone. -/
def Undisturbed (p : Pid) (t t' : State) : Prop :=
  t.calls ≤ t'.calls ∧ ∀ o, t.holder o = some p → t'.holder o = some p ∧
    ∀ m : OrganizationMembership, m.organizationId = o →
      (m ∈ t'.memberships.rows ↔ m ∈ t.memberships.rows)

/-- A transaction writes in an organization whose lock it holds, and leaves every organization
an active owner that has one. -/
def Guards (p : Pid) (q : Stmt) (t : State) : Prop :=
  match q with
  | .commit write => (∃ o, t.holder o = some p ∧ write.Within t o) ∧
      ∀ o, HasActiveOwner t o → HasActiveOwner (exec p (.commit write) t) o
  | _ => True

/-- The transactions of the two endpoints under the lock. -/
def locking (lower : Text → Text) : Discipline signature State Request where
  sys := system lower
  inv := HeldByCalls
  present := fun p t => p < t.calls
  rely := Undisturbed
  allowsStmt := Guards
  allowsCall := fun _ _ _ => True

/-- Nothing happening disturbs nobody. -/
theorem undisturbed_refl (p : Pid) (t : State) : Undisturbed p t t :=
  ⟨le_refl _, fun _ h => ⟨h, fun _ _ => Iff.rfl⟩⟩

/-- Two steps that disturb nobody disturb nobody together. -/
theorem undisturbed_trans (p : Pid) (a b c : State) (h : Undisturbed p a b)
    (h' : Undisturbed p b c) : Undisturbed p a c := by
  refine ⟨h.1.trans h'.1, fun o ho => ?_⟩
  obtain ⟨hb, hrows⟩ := h.2 o ho
  obtain ⟨hc, hrows'⟩ := h'.2 o hb
  exact ⟨hc, fun m hm => (hrows' m hm).trans (hrows m hm)⟩

/-- A step that leaves the memberships alone disturbs nobody whose locks stay. -/
theorem undisturbed_of_memberships (hcalls : t.calls ≤ t'.calls)
    (hholder : ∀ o, t.holder o = some p → t'.holder o = some p)
    (hrows : t'.memberships = t.memberships) : Undisturbed p t t' := by
  refine ⟨hcalls, fun o ho => ⟨hholder o ho, fun m _ => ?_⟩⟩
  rw [hrows]

/-- The locks of others stay when a transaction releases its own. -/
theorem release_holder_of_ne {p' : Pid} (hne : p' ≠ p) (ho : t.holder o = some p') :
    (t.release p).holder o = some p' := by
  have hnot : ¬ t.holder o = some p := by
    rw [ho]
    exact fun h => hne (Option.some.inj h)
  exact (if_neg hnot).trans ho

/-- Releasing locks leaves the others with transactions that were started. -/
theorem heldByCalls_release (h : HeldByCalls t) : HeldByCalls (t.release p) := by
  intro o p' ho
  have hcases : (if t.holder o = some p then none else t.holder o) = some p' := ho
  by_cases hp : t.holder o = some p
  · rw [if_pos hp] at hcases
    cases hcases
  · rw [if_neg hp] at hcases
    exact h o p' hcases

/-- Releasing locks starts no transaction. -/
@[simp] theorem release_calls (t : State) (p : Pid) : (t.release p).calls = t.calls := rfl

/-- A statement starts no transaction. -/
@[simp] theorem exec_calls (q : Stmt) : (exec p q t).calls = t.calls := by
  cases q with
  | read => rfl
  | lock o =>
    simp only [exec]
    split <;> rfl
  | commit write =>
    simp only [exec]
    split <;> rfl

/-- After a commit the locks of its transaction are released. -/
theorem exec_commit_holder (t : State) (p : Pid) (write : Write) :
    (exec p (.commit write) t).holder = (t.release p).holder := by
  simp only [exec]
  split <;> rfl

/-- A committed write of one transaction disturbs no other. -/
theorem undisturbed_commit {p' : Pid} (hne : p' ≠ p) (ho : t.holder o = some p)
    (hwithin : write.Within t o) : Undisturbed p' t (exec p (.commit write) t) := by
  refine ⟨le_of_eq (exec_calls _).symm, fun o' ho' => ⟨?_, fun m hm => ?_⟩⟩
  · rw [exec_commit_holder]
    exact release_holder_of_ne hne ho'
  · have hother : o' ≠ o := by
      rintro rfl
      rw [ho] at ho'
      exact hne (Option.some.inj ho').symm
    rcases exec_commit t p write with hrows | hrows
    · rw [hrows]
    · rw [hrows]
      exact mem_written_of_ne hwithin (hm ▸ hother)

/-- A lock that is free, or one's own, disturbs nobody when it is taken. -/
theorem undisturbed_lock {p' : Pid} (hne : p' ≠ p) (h : Enabled p (.lock o) t) :
    Undisturbed p' t (exec p (.lock o) t) := by
  simp only [exec]
  split
  · refine undisturbed_of_memberships (le_refl _) (fun o' ho' => ?_) rfl
    refine (if_neg ?_).trans ho'
    rintro rfl
    rcases h with h | h
    · rw [h] at ho'
      cases ho'
    · rw [h] at ho'
      exact hne (Option.some.inj ho').symm
  · exact undisturbed_refl p' t

/-- A lock that is taken is held by a transaction that was started. -/
theorem heldByCalls_lock (h : HeldByCalls t) (hp : p < t.calls) :
    HeldByCalls (exec p (.lock o) t) := by
  simp only [exec]
  split
  · intro o' p' ho'
    have hcases : (if o' = o then some p else t.holder o') = some p' := ho'
    by_cases heq : o' = o
    · rw [if_pos heq] at hcases
      exact Option.some.inj hcases ▸ hp
    · rw [if_neg heq] at hcases
      exact h o' p' hcases
  · exact h

/-- A statement that keeps to the guards keeps what the others rely on. -/
theorem locking_stmt {lower : Text → Text} (q : Stmt) (hinv : HeldByCalls t) (hp : p < t.calls)
    (henabled : Enabled p q t) (hguards : Guards p q t) :
    (locking lower).Respects p t (exec p q t) ∧ p < (exec p q t).calls := by
  refine ⟨?_, by rwa [exec_calls]⟩
  cases q with
  | read => exact ⟨hinv, fun p' _ => undisturbed_refl p' t⟩
  | lock o => exact ⟨heldByCalls_lock hinv hp, fun p' hne => undisturbed_lock hne henabled⟩
  | commit write =>
    obtain ⟨⟨o, ho, hwithin⟩, -⟩ := hguards
    refine ⟨?_, fun p' hne => undisturbed_commit hne ho hwithin⟩
    intro o' p' ho'
    rw [exec_commit_holder] at ho'
    rw [exec_calls]
    exact heldByCalls_release hinv o' p' ho'

/-! ## The endpoints keep to the discipline -/

section Programs

variable {lower : Text → Text}

/-- The contract of one transaction. -/
abbrev under (lower : Text → Text) (p : Pid) : Contract signature State :=
  (locking lower).contract p

/-- The transaction holds the lock of an organization, of which it knows some memberships. -/
def Knows (p : Pid) (o : ℕ) (known : OrganizationMembership → Prop) (t : State) : Prop :=
  t.holder o = some p ∧ ∀ m, known m → m.organizationId = o ∧ m ∈ t.memberships.rows

/-- What a transaction knows under its lock stays true while the others go on. -/
theorem Knows.along {known : OrganizationMembership → Prop} (h : Knows p o known t)
    (hr : Undisturbed p t t') : Knows p o known t' := by
  obtain ⟨hholder, hrows⟩ := hr.2 o h.1
  refine ⟨hholder, fun m hm => ?_⟩
  obtain ⟨horg, hmem⟩ := h.2 m hm
  exact ⟨horg, (hrows m horg).mpr hmem⟩

/-- A read tells the transaction memberships that it knows from then on. -/
theorem wp_read {α : Type} {f : State → M α} {Q : Post signature State α}
    {known : OrganizationMembership → Prop} (ht : Knows p o known t)
    (hf : ∀ t', Knows p o known t' → wp (under lower p) (f t') Q t') :
    wp (under lower p) (issue .read >>= f) Q t := by
  refine (wp_run_bind _ _ _ _).mpr fun t' hr _ _ => ⟨trivial, ?_⟩
  exact hf t' (ht.along hr)

/-- Nothing more is known than that the lock is held. -/
def nothing : OrganizationMembership → Prop := fun _ => False

/-- A commit may be made when, after whatever the others did, it writes within the locked
organization and keeps it an active owner. -/
theorem wp_commit {known : OrganizationMembership → Prop} (ht : Knows p o known t)
    (hkeep : ∀ t', Knows p o known t' → write.Within t' o ∧
      (HasActiveOwner t' o → ∃ m ∈ (t'.written write).rows, m.organizationId = o ∧
        m.role = .owner ∧ m.isActive = true)) :
    wp (under lower p) (commit write) (fun _ _ => True) t := by
  refine (wp_run_bind _ _ _ _).mpr fun t' hr _ _ => ?_
  have ht' := ht.along hr
  obtain ⟨hwithin, howner⟩ := hkeep t' ht'
  refine ⟨⟨⟨o, ht'.1, hwithin⟩, fun o' ho' => ?_⟩, ?_⟩
  · by_cases heq : o' = o
    · subst heq
      exact hasActiveOwner_commit ho' (howner ho')
    · exact hasActiveOwner_commit_of_ne hwithin heq ho'
  · split <;> trivial

/-- The check returns only when the transaction knows another active owner. -/
theorem wp_ensureAnotherActiveOwner {known : OrganizationMembership → Prop} {userId : ℕ}
    (ht : Knows p o known t) :
    wp (under lower p) (ensureAnotherActiveOwner o userId)
      (fun r t' => ∀ a, r = .ok a → ∃ w, Knows p o (fun m => known m ∨ m = w) t' ∧
        w.userId ≠ userId ∧ w.role = .owner ∧ w.isActive = true) t := by
  unfold ensureAnotherActiveOwner
  refine wp_read ht fun t' ht' => ?_
  dsimp only
  split
  · intro a ha
    cases ha
  · rename_i hsome
    intro a _
    obtain ⟨w, hw⟩ := List.exists_mem_of_length_pos (Nat.pos_of_ne_zero hsome)
    obtain ⟨hmem, hother⟩ := List.mem_filter.mp hw
    simp only [Bool.and_eq_true, decide_eq_true_eq] at hother
    obtain ⟨⟨⟨horg, huser⟩, hrole⟩, hactive⟩ := hother
    refine ⟨w, ⟨ht'.1, ?_⟩, huser, hrole, hactive⟩
    rintro m (hm | rfl)
    · exact ht'.2 m hm
    · exact ⟨horg, hmem⟩

/-- The membership that a query found, as the transaction knows it. -/
theorem Knows.membership {userId : ℕ} {m : OrganizationMembership} (ht : Knows p o nothing t)
    (hm : t.membership o userId = some m) :
    Knows p o (fun m' => m' = m) t ∧ m.userId = userId := by
  obtain ⟨hmem, hkey⟩ := Table.first_some hm
  rw [Bool.and_eq_true, decide_eq_true_eq, decide_eq_true_eq] at hkey
  refine ⟨⟨ht.1, ?_⟩, hkey.2⟩
  rintro m' rfl
  exact ⟨hkey.1, hmem⟩

/-- A membership of the organization is found by its key. -/
theorem Knows.within {known : OrganizationMembership → Prop} {m : OrganizationMembership}
    {role : Option OrganizationRole} {isActive : Option Bool} (ht : Knows p o known t)
    (hm : known m) : (Write.update m.id role isActive).Within t o := by
  obtain ⟨horg, hmem⟩ := ht.2 m hm
  intro m' hm' hid
  rw [t.memberships.eq_of_key_eq hm' hmem hid]
  exact horg

/-- A change of a membership that is guarded when it takes the activity or the role away from an
owner leaves an active owner. -/
theorem wp_guarded {m : OrganizationMembership} {userId : ℕ} {role : Option OrganizationRole}
    {isActive : Option Bool} {guarded : Prop} [Decidable guarded]
    (ht : Knows p o (fun m' => m' = m) t) (huser : m.userId = userId)
    (hfree : ¬ guarded → m.role = .owner → m.isActive = true →
      (assign role isActive m).role = .owner ∧ (assign role isActive m).isActive = true) :
    wp (under lower p)
      (if guarded then do
        ensureAnotherActiveOwner o userId
        commit (.update m.id role isActive)
      else commit (.update m.id role isActive)) (fun _ _ => True) t := by
  by_cases hguarded : guarded
  · rw [if_pos hguarded]
    refine wp_seq (wp_ensureAnotherActiveOwner ht) ?_ fun _ _ _ => trivial
    intro a t' hr
    obtain ⟨w, hknows, hother, hrole, hactive⟩ := hr a rfl
    refine wp_commit hknows fun t'' ht'' => ⟨ht''.within (.inl rfl), fun _ => ?_⟩
    obtain ⟨horg, hmem⟩ := ht''.2 w (.inr rfl)
    refine hasActiveOwner_update hmem horg hrole hactive fun hid => ?_
    have hsame := t''.memberships.eq_of_key_eq hmem (ht''.2 m (.inl rfl)).2 hid
    rw [hsame] at hother
    exact absurd huser hother
  · rw [if_neg hguarded]
    refine wp_commit ht fun t'' ht'' => ⟨ht''.within rfl, fun howner => ?_⟩
    obtain ⟨w, hmem, horg, hrole, hactive⟩ := howner
    refine hasActiveOwner_update hmem horg hrole hactive fun hid => ?_
    have hsame := t''.memberships.eq_of_key_eq hmem (ht''.2 m rfl).2 hid
    subst hsame
    exact hfree hguarded hrole hactive

/-- Finding an organization locks its row, once nobody else holds the lock. -/
theorem wp_organizationOr404_bind {α : Type} (f : Unit → M α) (Q : Post signature State α)
    (t : State) :
    wp (under lower p) (organizationOr404 o >>= f) Q t ↔ ∀ t', (under lower p).rely t t' →
      (under lower p).inv t' → (under lower p).machine.enabled p (.lock o) t' →
      (under lower p).allowsStmt (.lock o) t' ∧
        wp (under lower p) ((match t'.organizations.get? o with
          | some _ => return ()
          | none => .throw (Exc.http 404 "Organization not found") : M Unit) >>= f) Q
          (exec p (.lock o) t') := Iff.rfl

/-- The first statement takes the lock, or the call ends with 404. -/
theorem wp_organizationOr404 {α : Type} {f : Unit → M α} {Q : Post signature State α}
    (hraise : ∀ e t, Q (.error e) t)
    (hf : ∀ t, Knows p o nothing t → wp (under lower p) (f ()) Q t) (t : State) :
    wp (under lower p) (organizationOr404 o >>= f) Q t := by
  refine (wp_organizationOr404_bind f Q t).mpr fun t' _ _ _ => ⟨trivial, ?_⟩
  cases horg : t'.organizations.get? o with
  | none => exact hraise _ _
  | some organization =>
    refine hf _ ⟨?_, fun m hm => hm.elim⟩
    simp [exec, horg]

/-- The deactivation of a member keeps to the guards: it counts the other owners under the lock. -/
theorem safe_deactivateMember (userId : ℕ) (t : State) :
    wp (under lower p) (deactivateMember o userId) (fun _ _ => True) t := by
  refine wp_organizationOr404 (fun _ _ => trivial) (fun t ht => ?_) t
  refine wp_read ht fun t' ht' => ?_
  cases hm : t'.membership o userId with
  | none => trivial
  | some m =>
    obtain ⟨hknows, huser⟩ := ht'.membership hm
    refine wp_guarded hknows huser fun hfree hrole hactive => ?_
    exact absurd ⟨hrole, hactive⟩ hfree

/-- Setting a member keeps to the guards: it counts the other owners under the lock. -/
theorem safe_putMember (userId : ℕ) (payload : Dict) (t : State) :
    wp (under lower p) (putMember lower o userId payload) (fun _ _ => True) t := by
  refine wp_organizationOr404 (fun _ _ => trivial) (fun t ht => ?_) t
  refine wp_read ht fun t' ht' => ?_
  cases t'.users.get? userId with
  | none => trivial
  | some user =>
    refine (wp_bind _ _ _ _).mpr ((wp_ofExcept _ _ _).mpr ?_)
    rcases normalizeOrganizationRole lower (payload.get "role") with e | role | role
    · trivial
    · trivial
    · refine wp_read ht' fun t₂ ht₂ => ?_
      cases hm : t₂.membership o userId with
      | none =>
        refine wp_commit ht₂ fun t₃ _ => ⟨rfl, fun howner => ?_⟩
        obtain ⟨w, hw, hfacts⟩ := howner
        exact ⟨w, mem_written_insert.mpr (.inl hw), hfacts⟩
      | some m =>
        obtain ⟨hknows, huser⟩ := ht₂.membership hm
        refine wp_guarded hknows huser fun hfree hrole _ => ?_
        have hstays := not_or.mp fun hor => hfree ⟨hrole, hor⟩
        rw [not_not, Bool.not_eq_false] at hstays
        refine ⟨?_, ?_⟩
        · exact (changed_getD _ _).trans hstays.1
        · exact (changed_getD _ _).trans hstays.2

/-- Both endpoints keep to the guards. -/
theorem safe_program (r : Request) (t : State) :
    wp (under lower p) (program lower r) (fun _ _ => True) t := by
  cases r with
  | putMember o userId payload => exact safe_putMember userId payload t
  | deactivateMember o userId => exact safe_deactivateMember userId t

end Programs

/-- The discipline of the lock is sound. -/
theorem locking_sound (lower : Text → Text) : (locking lower).Sound where
  refl := undisturbed_refl
  trans := undisturbed_trans
  stable := fun p t t' hp hr => Nat.lt_of_lt_of_le hp hr.1
  stmt := fun p q t hinv hp henabled hguards => locking_stmt q hinv hp henabled hguards
  call := fun _ c _ _ _ _ _ _ _ => c.elim
  enter := by
    intro r t hinv _
    refine ⟨⟨fun o p ho => Nat.lt_succ_of_lt (hinv o p ho), fun p' _ => ?_⟩, Nat.lt_succ_self _⟩
    exact undisturbed_of_memberships (Nat.le_succ _) (fun _ h => h) rfl
  leave := by
    intro p t hinv _
    refine ⟨heldByCalls_release hinv, fun p' hne => ?_⟩
    exact undisturbed_of_memberships (le_refl _) (fun o ho => release_holder_of_ne hne ho) rfl
  env := by
    rintro t t' hinv ⟨organizations, users, rfl⟩
    refine ⟨hinv, fun p => ?_⟩
    exact undisturbed_of_memberships (le_refl _) (fun _ h => h) rfl
  program := fun r t _ _ => safe_program r _

/-- No step under the discipline takes the last active owner of an organization. -/
theorem preserves_activeOwner (lower : Text → Text) (o : ℕ) :
    (locking lower).allowed.Preserves (HasActiveOwner · o) where
  stmt := by
    intro p q t h henabled
    obtain ⟨-, -, -, hguards⟩ := henabled
    cases q with
    | read => exact h
    | lock o' =>
      show HasActiveOwner (exec p (.lock o') t) o
      simp only [exec]
      split <;> exact h
    | commit write => exact hguards.2 o h
  call := fun _ c _ _ _ _ _ => c.elim
  enter := fun _ _ h _ => h
  leave := fun _ _ h => h
  env := by
    rintro t t' h ⟨-, organizations, users, rfl⟩
    exact h

/-- Once an organization has an active owner, it has one in every later state, whatever calls are
interleaved. -/
theorem keeps_activeOwner (lower : Text → Text) {start : State}
    (hfree : ∀ o, start.holder o = none) {w w' : World signature State} {o : ℕ}
    (hreach : World.Reach (system lower) (World.idle start) w)
    (howner : HasActiveOwner w.shared o) (hlater : World.Reach (system lower) w w') :
    HasActiveOwner w'.shared o := by
  have hinv : HeldByCalls start := by
    intro o p ho
    rw [hfree o] at ho
    cases ho
  have hholds : (locking lower).Holds w :=
    (locking_sound lower).holds_of_reach (Discipline.holds_idle hinv) hreach
  have hallowed := (locking_sound lower).reach_allowed hholds hlater
  exact (preserves_activeOwner lower o).of_reach howner hallowed

namespace Fixture

def player (lower : Text → Text) : Player (system lower) where
  decEnabled := fun p q t => inferInstanceAs (Decidable (Enabled p q t))
  admits := fun _ _ => trivial
  deliver := fun _ c _ _ => c.elim
  deliver_answer := fun _ c _ _ => c.elim
  wait := fun _ t => t
  wait_env := fun _ t => ⟨t.organizations, t.users, rfl⟩

/-- One organization with two owners. -/
def twoOwners : State where
  organizations := ⟨[⟨1, "lab", true⟩], 2, by decide, by decide⟩
  users := ⟨[⟨1, "ada", "ada@lab", 1, true, false⟩, ⟨2, "bob", "bob@lab", 1, true, false⟩], 3,
    by decide, by decide⟩
  memberships := ⟨[⟨1, 1, 1, .owner, true⟩, ⟨2, 1, 2, .owner, true⟩], 3, by decide, by decide⟩
  holder := fun _ => none
  calls := 0

/-- The owners remove each other at once: the second call waits for the first, counts again and
is refused. -/
def removals : List (Move signature Request) :=
  [.spawn (.deactivateMember 1 2), .spawn (.deactivateMember 1 1), .run 0 4 (·.elim), .exit 0,
    .run 1 3 (·.elim), .exit 1]

/-- `str.lower` on ASCII. -/
def lowerAscii (s : Text) : Text := s.map Char.toLower

/-- Of two owners who remove each other at once one stays. -/
theorem keeps_activeOwner_twoOwners :
    ∃ w : World signature State, (w.shared.membership 1 2).any (·.isActive = false) = true ∧
      HasActiveOwner w.shared 1 := by
  have hplayed : ((player lowerAscii).play (World.idle twoOwners) removals).any
      (fun w => (w.shared.membership 1 2).any (·.isActive = false)) = true := by
    decide
  obtain ⟨w, hreach, hremoved⟩ := (player lowerAscii).exists_of_play hplayed
  refine ⟨w, hremoved, keeps_activeOwner lowerAscii (fun _ => rfl) .refl ?_ hreach⟩
  exact ⟨⟨1, 1, 1, .owner, true⟩, by decide, rfl, rfl, rfl⟩

end Fixture

end LabGoblin.Memberships
