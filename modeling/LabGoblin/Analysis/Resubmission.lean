import LabGoblin.Analysis.CheckpointedTurns
import LabGoblin.Analysis.Fixture
import LabGoblin.Computation.Outcome

/-!
# Nothing is submitted twice

What the checkpoints of an operation are good for. In every run in which the operation is taken
over only from processes that have ended, whatever the crashes, no attempt submits again what a
standing checkpoint records. And of a `vm.create` at most one clone is accepted, as long as
Proxmox lists a VM from the moment its clone is accepted and nobody deletes it meanwhile: an
attempt that finds no recorded clone looks into the inventory first.
-/

set_option autoImplicit false

namespace LabGoblin

open Interactive

section Resubmission

variable {H : Type} {settings : Settings} {outside : Outside H} {ok : Condition H} {o : ℕ}

/-! ## What the log says of the checkpoints -/

/-- A call of a process that has the operation in hand respects the checkpoint, and a commit
leaves a checkpoint that names a task as it is, or the process that has the operation in hand
replaces it where it may. -/
def CheckpointEntry (o : ℕ) (e : Entry) (older : List Entry) : Prop :=
  match e with
  | .call p c s => inHand p older = some o →
      ∀ row, s.db.durableOperations.get? o = some row → c.Respects row (entriesOf p older)
  | .stmt p (.commit ws) s => ∀ after row u, s.afterCommit ws = some after →
      s.db.durableOperations.get? o = some row → row.proxmoxUpid = some u →
      ∃ row', after.1.durableOperations.get? o = some row' ∧
        (row'.checkpoint = row.checkpoint ∨ inHand p older = some o ∧
          row'.checkpoint.Supersedes u row (entriesOf p older) s)
  | _ => True

/-- The condition that the operation is taken over only from processes that have ended. -/
def takingOver (o : ℕ) : Condition H where
  stmt := fun _ q t => TakesOverOf o q t

/-- Every step keeps what the log says of the checkpoints. -/
theorem checkpointEntries_preserved : (checkpointing settings outside ok o).allowed.Preserves
    (fun t => EachAfter (CheckpointEntry o) t.log) where
  stmt := by
    rintro p q t h ⟨⟨-, -, -, hconducted⟩, -, -, hcheckpoints⟩
    refine EachAfter.cons h ?_
    cases q with
    | commit ws =>
      intro after row u hcommit hrow hu
      obtain ⟨row', hrow', -, hsame | ⟨upid, payload, lease, hw, hrecord⟩⟩ :=
        checkpoint_after hcheckpoints hcommit hrow
      · exact ⟨row', hrow', Or.inl hsame⟩
      · refine ⟨row', hrow', Or.inr ⟨hconducted.update hw rfl, ?_⟩⟩
        rw [hrecord]
        exact ((hcheckpoints ws rfl upid payload lease hw).2 row hrow).2 u hu
    | _ => trivial
  call := by
    rintro p c t r t' h ⟨⟨-, -, hcall⟩, -, -, hyper, -, rfl⟩
    have hbefore : EachAfter (CheckpointEntry o) (.call p c t.store :: t.log) :=
      EachAfter.cons h hcall
    exact hbefore.cons trivial
  enter := fun r t h _ => EachAfter.cons h trivial
  leave := fun p t h => EachAfter.cons h trivial
  env := by
    rintro t t' h ⟨-, -, ⟨-, hlog⟩, -⟩
    rw [hlog]
    exact h

/-! ## Worlds under both disciplines -/

/-- Both disciplines hold of the world. -/
def Observed (settings : Settings) (outside : Outside H) (ok : Condition H) (o : ℕ)
    (w : World Api (Sys H)) : Prop :=
  (conductUnder settings outside ok).Holds w ∧ (checkpointing settings outside ok o).Holds w

/-- While nothing runs, an operation with a checkpoint that is well formed is observed. -/
theorem observed_idle {t : Sys H} (ht : t.log = [])
    (hform : ∀ row, t.store.db.durableOperations.get? o = some row →
      row.checkpoint.WellFormed) : Observed settings outside ok o (World.idle t) := by
  have hwell : WellLogged t.log := by
    rw [ht]
    exact wellLogged_nil
  exact ⟨Discipline.holds_idle hwell, Discipline.holds_idle ⟨hwell, sole_initial ht, hform⟩⟩

section Reach

variable (hok : ∀ p q t, ok.stmt p q t → TakesOverOf o q t) {w w' : World Api (Sys H)}
include hok

/-- A step of the system is one that keeps to the checkpoints. -/
theorem Observed.step (h : Observed settings outside ok o w)
    (hs : World.Step (systemUnder settings outside ok) w w') :
    Observed settings outside ok o w' ∧
      World.Step (checkpointing settings outside ok o).allowed w w' := by
  have hconduct := conductUnder_sound settings outside ok
  have hallowed := hconduct.step_allowed h.1 hs
  have hsound : (checkpointing settings outside ok o).Sound := checkpointing_program_sound hok
  exact ⟨⟨hconduct.holds_step h.1 hs, hsound.holds_step h.2 hallowed⟩,
    hsound.step_allowed h.2 hallowed⟩

/-- An operation that is observed stays so, and its runs are runs of the discipline of checkpoints.
-/
theorem Observed.reach (h : Observed settings outside ok o w)
    (hr : World.Reach (systemUnder settings outside ok) w w') :
    Observed settings outside ok o w' ∧
      World.Reach (checkpointing settings outside ok o).allowed w w' := by
  induction hr with
  | refl => exact ⟨h, .refl⟩
  | tail _ hs ih =>
    obtain ⟨hobserved, hstep⟩ := ih.1.step hok hs
    exact ⟨hobserved, ih.2.tail hstep⟩

end Reach

/-- In every run from the state, every attempt respects the checkpoints of the ones before. -/
def CheckpointsRespected (sys : System Api (Sys H) Request) (o : ℕ) (t : Sys H) : Prop :=
  ∀ w, World.Reach sys (World.idle t) w → EachAfter (CheckpointEntry o) w.shared.log

/-- As long as the operation is taken over only from processes that have ended, no attempt
submits again what a standing checkpoint records. -/
theorem checkpoints_respected (settings : Settings) (outside : Outside H) (o : ℕ) (t : Sys H)
    (ht : t.log = []) (hform : ∀ row, t.store.db.durableOperations.get? o = some row →
      row.checkpoint.WellFormed) :
    CheckpointsRespected (systemUnder settings outside (takingOver o)) o t := by
  intro w hr
  have hstart : EachAfter (CheckpointEntry o) (World.idle (G := Api) t).shared.log := by
    show EachAfter (CheckpointEntry o) t.log
    rw [ht]
    exact EachAfter.nil _
  have hobserved : Observed settings outside (takingOver o) o (World.idle t) :=
    observed_idle ht hform
  have hallowed := (hobserved.reach (fun _ _ _ h => h) hr).2
  exact checkpointEntries_preserved.of_reach hstart hallowed

/-! ## At most one clone -/

/-- An entry that is read has its `vmid` read. -/
theorem inventoryEntry_eq_ok {row : Dict} {n : ℕ} (h : inventoryEntry (.object row) = .ok n) :
    vmIdentifier (Dict.get row "vmid") = .ok n := by
  dsimp only [inventoryEntry] at h
  split at h
  · cases h
  · cases h
  · split at h
    · exact h
    · cases h
  · cases h

/-- An integer is read as itself. -/
theorem vmIdentifier_int {vmid n : ℕ} (h : vmIdentifier (.int vmid) = .ok n) : n = vmid := by
  dsimp only [vmIdentifier] at h
  split at h
  · injection h with h
    simpa using h.symm
  · cases h

/-- The response has an entry with the identifier. -/
def Shows (response : Json) (vmid : ℕ) : Prop :=
  ∃ fields rows row, response = .object fields ∧ Dict.get fields "data" = .list rows ∧
    .object row ∈ rows ∧ Dict.get row "vmid" = .int vmid

/-- `vm_exists` overlooks no entry: an inventory that it can read and that shows the VM does not
lack it. -/
theorem Shows.not_inventoryLacks {response : Json} {vmid : ℕ} (h : Shows response vmid) :
    inventoryLacks response vmid = false := by
  obtain ⟨fields, rows, row, rfl, hdata, hrow, hvmid⟩ := h
  have hrows : vmIdentifiers (.object fields) = rows.mapM inventoryEntry := by
    dsimp only [vmIdentifiers]
    rw [hdata]
  unfold inventoryLacks
  rw [hrows]
  cases hread : rows.mapM inventoryEntry with
  | error e => rfl
  | ok identifiers =>
    -- the entry was read, so its identifier is among the others
    obtain ⟨n, hn⟩ := exists_mapM_eq_ok_iff.mp ⟨identifiers, hread⟩ _ hrow
    have hvalue := inventoryEntry_eq_ok hn
    rw [hvmid] at hvalue
    have heq : n = vmid := vmIdentifier_int hvalue
    subst heq
    have hmem : n ∈ identifiers := (mem_of_mapM_eq_ok hread n).mpr ⟨_, hrow, hn⟩
    simp [hmem]

/-- What Proxmox promises of its inventory: it lists a VM once a clone for it is accepted, shows
what it lists, and lists a VM until it is deleted. -/
structure ListsClones (outside : Outside H) (lists : Option ℕ → ℕ → H → Prop)
    (accepts : Call → H → H → Prop) : Prop where
  accepted : ∀ cluster node source newid name h r h',
    outside.answer (.cloneVm cluster node source newid name) h r h' →
    accepts (.cloneVm cluster node source newid name) h h' → lists cluster newid h'
  shown : ∀ cluster vmid h response h',
    outside.answer (.vmResources cluster) h (.ok response) h' → lists cluster vmid h →
    Shows response vmid
  kept : ∀ c h r h', outside.answer c h r h' → ∀ cluster vmid, lists cluster vmid h →
    (∀ node, c ≠ .deleteVm cluster node vmid) → lists cluster vmid h'

/-- The VM that the operation targets. -/
def TargetVm (o : ℕ) (t : Sys H) (cluster : Option ℕ) (vmid : ℕ) : Prop :=
  ∃ row vm, t.store.db.durableOperations.get? o = some row ∧ row.target = .studentVm vm.id ∧
    t.store.db.studentVms.get? vm.id = some vm ∧ vm.proxmoxClusterId = cluster ∧ vm.vmid = vmid

def Unfinished (o : ℕ) (t : Sys H) : Prop :=
  ∃ row, t.store.db.durableOperations.get? o = some row ∧ row.state.terminal = false

/-- The condition that the operation is taken over only from processes that have ended, and that
nobody deletes its VM before it is finished. -/
def undeleted (lists : Option ℕ → ℕ → H → Prop) (o : ℕ) : Condition H where
  stmt := fun _ q t => TakesOverOf o q t
  call := fun _ c t => Unfinished o t → ∀ cluster vmid, TargetVm o t cluster vmid →
    ∀ node, c ≠ .deleteVm cluster node vmid
  env := fun t t' => Unfinished o t → ∀ cluster vmid, TargetVm o t cluster vmid →
    lists cluster vmid t.hyper → lists cluster vmid t'.hyper

/-- In the step a process that has the operation in hand submits a clone that is accepted. -/
def AcceptsClone (accepts : Call → H → H → Prop) (o : ℕ) (w w' : World Api (Sys H)) : Prop :=
  ∃ p cluster node source newid name r, inHand p w.shared.log = some o ∧
    w'.shared.log = .reply p (.cloneVm cluster node source newid name) r ::
      .call p (.cloneVm cluster node source newid name) w.shared.store :: w.shared.log ∧
    accepts (.cloneVm cluster node source newid name) w.shared.hyper w'.shared.hyper

/-- The process has seen that the VM is not in the inventory, and is about to clone it. -/
def Ready (cluster : Option ℕ) (vmid : ℕ) (own : List Entry) : Prop :=
  LookedUp cluster vmid own ∨
    ∃ p response rest, own = .reply p (.vmResources cluster) (.ok response) :: rest ∧
      inventoryLacks response vmid = true

/-- Since a clone for it was accepted the VM of the operation is in the inventory, and nobody who
works on the operation has seen anything else. -/
structure InInventory (lists : Option ℕ → ℕ → H → Prop) (o : ℕ) (cluster : Option ℕ) (vmid : ℕ)
    (t : Sys H) : Prop where
  target : TargetVm o t cluster vmid
  listed : Unfinished o t → lists cluster vmid t.hyper
  unready : ∀ p, Present p t → inHand p t.log = some o →
    ¬ Ready cluster vmid (entriesOf p t.log)

section Inventory

variable {lists : Option ℕ → ℕ → H → Prop} {accepts : Call → H → H → Prop} {cluster : Option ℕ}
  {vmid : ℕ} {t t' : Sys H}

/-- The operation keeps its target after every statement. -/
theorem TargetVm.exec {p : Pid} {q : Stmt} (h : TargetVm o t cluster vmid)
    (hq : Stmt.Conducted p q t) : TargetVm o ((machine outside).exec p q t) cluster vmid := by
  obtain ⟨row, vm, hrow, htarget, hvm, hcluster, hvmid⟩ := h
  obtain ⟨row', hrow', hjob⟩ := exec_operations hq o row hrow
  obtain ⟨vm', hvm', hrecord⟩ := exec_vms p q t vm.id vm hvm
  refine ⟨row', vm', hrow', ?_, ?_, hrecord.proxmoxClusterId.trans hcluster,
    hrecord.vmid.trans hvmid⟩
  · rw [hjob.target, htarget, hrecord.id]
  · rw [hrecord.id]
    exact hvm'

/-- A finished operation stays finished. -/
theorem Unfinished.before {p : Pid} {q : Stmt} (hsole : Sole o t) (hp : Present p t)
    (hq : Stmt.Conducted p q t) (hrow : ∃ row, t.store.db.durableOperations.get? o = some row)
    (h : Unfinished o ((machine outside).exec p q t)) : Unfinished o t := by
  obtain ⟨row, hrow⟩ := hrow
  refine ⟨row, hrow, ?_⟩
  cases hstate : row.state.terminal with
  | false => rfl
  | true =>
    obtain ⟨row', hrow', hstate'⟩ := h
    have hsame : ((machine outside).exec p q t).store.db.durableOperations.get? o = some row := by
      rcases Store.exec_cases p q t.store with ⟨ws, db, rfl, hcommit, hdb, -⟩ | ⟨-, -, hsame⟩
      · show ((t.store.exec p (.commit ws)).db).durableOperations.get? o = some row
        rw [hdb]
        exact hsole.finished hp hq hcommit hrow hstate
      · exact (hsame.operation o).trans hrow
    rw [hsame] at hrow'
    cases hrow'
    rw [hstate] at hstate'
    cases hstate'

/-- A statement makes nobody ready to clone. -/
theorem InInventory.exec (outside : Outside H) {p : Pid} {q : Stmt}
    (h : InInventory lists o cluster vmid t) (hsole : Sole o t) (hp : Present p t)
    (hq : Stmt.Conducted p q t) :
    InInventory lists o cluster vmid ((machine outside).exec p q t) where
  target := h.target.exec hq
  listed := by
    intro hopen
    obtain ⟨row, -, hrow, -⟩ := h.target
    exact h.listed (hopen.before hsole hp hq ⟨row, hrow⟩)
  unready := by
    intro p' hp' hhand hready
    have hlog : ((machine outside).exec p q t).log = .stmt p q t.store :: t.log := rfl
    have hbefore : Present p' t := hp'.of_cons hlog (by simp)
    rw [hlog] at hhand hready
    by_cases hne : p' = p
    · subst hne
      have hpid : (Entry.stmt p' q t.store).pid = p' := rfl
      rw [entriesOf_cons_self _ hpid] at hready
      rcases hready with ⟨p₁, p₂, row, vm, payload, s, response, rest, hown, hlacks⟩ |
        ⟨p₁, response, rest, hown, -⟩
      · injection hown with hhead htail
        injection hhead with _ hq _
        subst hq
        rw [inHand_cons_of_quiet p' _ rfl] at hhand
        exact h.unready p' hbefore hhand (Or.inr ⟨p₂, response, rest, htail, hlacks⟩)
      · injection hown with hhead _
        cases hhead
    · have hpid : (Entry.stmt p q t.store).pid ≠ p' := Ne.symm hne
      rw [inHand_cons_of_ne _ hpid] at hhand
      rw [entriesOf_cons_of_ne _ hpid] at hready
      exact h.unready p' hbefore hhand hready

/-- A call leaves the VM in the inventory, and its answer does not deny it. -/
theorem InInventory.answer (hinventory : ListsClones outside lists accepts) {p : Pid} {c : Call}
    {r : Except Exc c.Reply} (h : InInventory lists o cluster vmid t) (hsole : Sole o t)
    (hp : Present p t) (hc : (undeleted lists o).call p c t)
    (ha : (machine outside).answer p c t r t') : InInventory lists o cluster vmid t' := by
  obtain ⟨hyper, houtside, rfl⟩ := ha
  refine ⟨h.target, ?_, ?_⟩
  · intro hopen
    have hopen : Unfinished o t := hopen
    exact hinventory.kept c _ r hyper houtside cluster vmid (h.listed hopen)
      (hc hopen cluster vmid h.target)
  · intro p' hp' hhand hready
    have hbeforehand : inHand p' t.log = some o := by
      have hafter : inHand p' (.reply p c r :: .call p c t.store :: t.log) = some o := hhand
      rwa [inHand_cons_of_quiet p' _ rfl, inHand_cons_of_quiet p' _ rfl] at hafter
    have hcalled : Present p' { t with log := .call p c t.store :: t.log } :=
      hp'.of_cons rfl (by simp)
    have hbefore : Present p' t := hcalled.of_cons rfl (by simp)
    have hready : Ready cluster vmid (entriesOf p' (.reply p c r :: .call p c t.store :: t.log)) :=
      hready
    have hreply : (Entry.reply p c r).pid = p := rfl
    have hcall : (Entry.call p c t.store).pid = p := rfl
    by_cases hne : p' = p
    · subst hne
      rw [entriesOf_cons_self _ hreply] at hready
      rcases hready with ⟨_, _, _, _, _, _, _, _, hown, -⟩ | ⟨_, response, _, hown, hlacks⟩
      · injection hown with hhead _
        cases hhead
      · injection hown with hhead _
        injection hhead with _ hc hr
        subst hc
        cases hr
        obtain ⟨-, row, hrow, hstate⟩ := hsole p' hbefore hbeforehand
        have hopen : Unfinished o t := ⟨row, hrow, by rw [hstate]; rfl⟩
        have hshown := hinventory.shown cluster vmid _ response hyper houtside (h.listed hopen)
        rw [hshown.not_inventoryLacks] at hlacks
        cases hlacks
    · rw [entriesOf_cons_of_ne _ (by rw [hreply]; exact Ne.symm hne),
        entriesOf_cons_of_ne _ (by rw [hcall]; exact Ne.symm hne)] at hready
      exact h.unready p' hbefore hbeforehand hready

/-- Every step keeps the VM in the inventory. -/
theorem inInventory_preserved (hinventory : ListsClones outside lists accepts) :
    (checkpointing settings outside (undeleted lists o) o).allowed.Preserves
      (InInventory lists o cluster vmid) where
  stmt := by
    rintro p q t h ⟨⟨-, -, -, hconducted⟩, ⟨-, hsole, -⟩, hp, -⟩
    exact h.exec outside hsole hp hconducted
  call := by
    rintro p c t r t' h ⟨⟨⟨-, hsole, -⟩, hp, -⟩, -, hc, ha⟩
    exact h.answer hinventory hsole hp hc ha
  enter := by
    rintro r t ⟨htarget, hlisted, hunready⟩ ⟨-, hwell, -⟩
    have hwell : WellLogged t.log := hwell
    refine ⟨htarget, hlisted, ?_⟩
    intro p hp hhand hready
    have hhand : inHand p (.enter (started t.log) r :: t.log) = some o := hhand
    have hready : Ready cluster vmid (entriesOf p (.enter (started t.log) r :: t.log)) := hready
    rw [inHand_cons_of_quiet p _ rfl] at hhand
    by_cases hne : p = started t.log
    · rw [hne] at hhand
      unfold inHand at hhand
      rw [hwell.entriesOf_started] at hhand
      cases hhand
    · have hpid : (Entry.enter (started t.log) r).pid ≠ p := Ne.symm hne
      rw [entriesOf_cons_of_ne _ hpid] at hready
      refine hunready p (hp.of_cons rfl ?_) hhand hready
      intro r' heq
      injection heq with hpid' _
      exact hne hpid'.symm
  leave := by
    rintro p t ⟨htarget, hlisted, hunready⟩
    refine ⟨htarget, hlisted, ?_⟩
    intro p' hp' hhand hready
    have hhand : inHand p' (.leave p :: t.log) = some o := hhand
    have hready : Ready cluster vmid (entriesOf p' (.leave p :: t.log)) := hready
    rw [inHand_cons_of_quiet p' _ rfl] at hhand
    have hpid : (Entry.leave p).pid ≠ p' := by
      rintro rfl
      exact hp'.2 List.mem_cons_self
    rw [entriesOf_cons_of_ne _ hpid] at hready
    exact hunready p' (hp'.of_cons rfl (by simp)) hhand hready
  env := by
    rintro t t' ⟨htarget, hlisted, hunready⟩ ⟨-, -, ⟨henv, hlog⟩, hok⟩
    have htarget' : TargetVm o t' cluster vmid := by
      obtain ⟨row, vm, hrow, hvm, hget, hrest⟩ := htarget
      exact ⟨row, vm, (henv.sameRows.operation o).trans hrow, hvm,
        (henv.sameRows.vm vm.id).trans hget, hrest⟩
    refine ⟨htarget', ?_, ?_⟩
    · rintro ⟨row, hrow, hstate⟩
      rw [henv.sameRows.operation] at hrow
      have hopen : Unfinished o t := ⟨row, hrow, hstate⟩
      exact hok hopen cluster vmid htarget (hlisted hopen)
    · intro p hp hhand
      have hp : Present p t := by
        unfold Present at hp ⊢
        rwa [hlog] at hp
      rw [hlog] at hhand ⊢
      exact hunready p hp hhand

/-- A step that logs a call and its reply is the call. -/
theorem answer_of_step {w w' : World Api (Sys H)} {p : Pid} {c : Call} {r : Except Exc c.Reply}
    (hs : World.Step (checkpointing settings outside ok o).allowed w w')
    (hlog : w'.shared.log = .reply p c r :: .call p c w.shared.store :: w.shared.log) :
    (checkpointing settings outside ok o).allowed.machine.answer p c w.shared r w'.shared := by
  cases hs with
  | spawn r' _ =>
    injection hlog with hhead _
    cases hhead
  | interact p' prog prog' t' _ hstep =>
    cases hstep with
    | stmt q k _ _ =>
      injection hlog with hhead _
      cases hhead
    | call c' k _ _ r' ha =>
      have hshape := ha
      obtain ⟨-, -, -, hyper, -, rfl⟩ := hshape
      injection hlog with hhead _
      injection hhead with hp hc hr
      subst hp hc
      cases hr
      exact ha
  | exit p' prog _ =>
    injection hlog with hhead _
    cases hhead
  | env t' henv =>
    have hsame : t'.log = w.shared.log := henv.2.2.1.2
    have hlength := congrArg List.length hlog
    rw [hsame, List.length_cons, List.length_cons] at hlength
    omega

/-- The VM that an accepted clone is for is the target of the operation. -/
theorem target_of_clone {p : Pid} {node name : String} {source : ℕ}
    (hcall : Call.Conducted p t (.cloneVm cluster node source vmid name))
    (hhand : inHand p t.log = some o) : TargetVm o t cluster vmid := by
  obtain ⟨row, vm, -, -, -, ⟨hhand', cur, hcur, hjob⟩, ⟨vm', hvm', hrecord⟩, htarget,
    ⟨hcluster, -, hvmid, -⟩, -⟩ := hcall
  rw [hhand] at hhand'
  have ho : o = row.id := Option.some.inj hhand'
  refine ⟨cur, vm', ?_, ?_, ?_, hrecord.proxmoxClusterId.trans hcluster.symm,
    hrecord.vmid.trans hvmid.symm⟩
  · rw [ho]
    exact hcur
  · rw [hjob.target, htarget, hrecord.id]
  · rw [hrecord.id]
    exact hvm'

/-- An operation has one target. -/
theorem TargetVm.unique {cluster' : Option ℕ} {vmid' : ℕ} (h : TargetVm o t cluster vmid)
    (h' : TargetVm o t cluster' vmid') : cluster = cluster' ∧ vmid = vmid' := by
  obtain ⟨row, vm, hrow, htarget, hvm, rfl, rfl⟩ := h
  obtain ⟨row', vm', hrow', htarget', hvm', rfl, rfl⟩ := h'
  rw [hrow] at hrow'
  cases hrow'
  rw [htarget] at htarget'
  injection htarget' with hid
  rw [← hid, hvm] at hvm'
  cases hvm'
  exact ⟨rfl, rfl⟩

end Inventory

/-- No run from the state has two steps in which a clone for the operation is accepted. -/
def ClonesOnce (sys : System Api (Sys H) Request) (accepts : Call → H → H → Prop) (o : ℕ)
    (t : Sys H) : Prop :=
  ∀ w₁ w₁' w₂ w₂', World.Reach sys (World.idle t) w₁ → World.Step sys w₁ w₁' →
    AcceptsClone accepts o w₁ w₁' → World.Reach sys w₁' w₂ → World.Step sys w₂ w₂' →
    ¬ AcceptsClone accepts o w₂ w₂'

/-- As long as the operation is taken over only from processes that have ended, and nobody deletes
its VM before it is finished, at most one clone is accepted for it. -/
theorem clones_once (settings : Settings) {outside : Outside H}
    {lists : Option ℕ → ℕ → H → Prop} {accepts : Call → H → H → Prop}
    (hinventory : ListsClones outside lists accepts) (o : ℕ) (t : Sys H) (ht : t.log = [])
    (hform : ∀ row, t.store.db.durableOperations.get? o = some row →
      row.checkpoint.WellFormed) :
    ClonesOnce (systemUnder settings outside (undeleted lists o)) accepts o t := by
  intro w₁ w₁' w₂ w₂' hr₁ hs₁ hclone hr₂ hs₂
  have hok : ∀ (p : Pid) (q : Stmt) (t : Sys H), (undeleted lists o).stmt p q t →
      TakesOverOf o q t := fun _ _ _ h => h
  obtain ⟨hobserved₁, -⟩ := (observed_idle ht hform).reach hok hr₁
  obtain ⟨hobserved₁', hstep₁⟩ := hobserved₁.step hok hs₁
  obtain ⟨hobserved₂, hreach₂⟩ := hobserved₁'.reach hok hr₂
  obtain ⟨-, hstep₂⟩ := hobserved₂.step hok hs₂
  obtain ⟨p, cluster, node, source, vmid, name, r, hhand, hlog, haccepts⟩ := hclone
  obtain ⟨⟨⟨-, hsole, -⟩, hp, hrespects⟩, ⟨-, -, hconducted⟩, -, ha⟩ :=
    answer_of_step hstep₁ hlog
  -- from the first clone on the VM is in the inventory
  have hin : InInventory lists o cluster vmid w₁'.shared := by
    have hsole' : Sole o w₁'.shared := hsole.answer ha
    have hhand' : inHand p w₁'.shared.log = some o := by
      rw [hlog, inHand_cons_of_quiet p _ rfl, inHand_cons_of_quiet p _ rfl, hhand]
    have hp' : Present p w₁'.shared := by
      have hcalled : Present p { w₁.shared with
          log := .call p (.cloneVm cluster node source vmid name) w₁.shared.store ::
            w₁.shared.log } := Present.cons hp rfl (by simp)
      exact hcalled.cons hlog (by simp)
    have htarget := target_of_clone (hconducted rfl) hhand
    have hlisted := hinventory.accepted cluster node source vmid name
    obtain ⟨hyper, houtside, heq⟩ := ha
    refine ⟨?_, ?_, ?_⟩
    · rw [heq]
      exact htarget
    · intro _
      rw [heq] at haccepts ⊢
      exact hlisted _ r hyper houtside haccepts
    · intro p' hpresent hhand'' hready
      have hsame := hsole'.eq hpresent hhand'' hp' hhand'
      subst hsame
      rw [hlog, entriesOf_cons_self _ (show (Entry.reply p' (.cloneVm cluster node source vmid
        name) r).pid = p' from rfl)] at hready
      rcases hready with ⟨_, _, _, _, _, _, _, _, hown, -⟩ | ⟨_, _, _, hown, -⟩
      · injection hown with hhead _
        cases hhead
      · injection hown with hhead _
        injection hhead with _ hc _
        cases hc
  have hin₂ := (inInventory_preserved hinventory).of_reach hin hreach₂
  -- the second one would have been preceded by a look into it
  rintro ⟨p', cluster', node', source', vmid', name', r', hhand', hlog', -⟩
  obtain ⟨⟨-, hp', hrespects'⟩, ⟨-, -, hconducted'⟩, -⟩ := answer_of_step hstep₂ hlog'
  obtain ⟨row, vm, hrow, -⟩ := hin₂.target
  have hlooked := (hrespects' hhand' row hrow).clones cluster' node' source' vmid' name' rfl
  obtain ⟨rfl, rfl⟩ := hin₂.target.unique (target_of_clone (hconducted' rfl) hhand')
  exact hin₂.unready p' hp' hhand' (Or.inl hlooked)

end Resubmission

namespace Fixture

/-- Nothing is queued yet. -/
theorem readyStore_operations (o : ℕ) : readyStore.db.durableOperations.get? o = none := rfl

/-- From the store of the fixture the checkpoints of the operation are respected, where it is taken
over only from ended workers. -/
theorem checkpoints_respected_readyStore :
    CheckpointsRespected (systemUnder {} anything (takingOver 1)) 1 (start readyStore) := by
  refine checkpoints_respected {} anything 1 (start readyStore) rfl ?_
  intro row hrow
  cases (readyStore_operations 1).symm.trans hrow

/-- The response in which Proxmox shows the VMs that it lists on a cluster. -/
def inventory (cluster : Option ℕ) (h : List (Option ℕ × ℕ)) : Json :=
  .object [("data", .list ((h.filter fun e => e.1 = cluster).map fun e =>
    .object [("type", .text "qemu"), ("vmid", .int e.2)]))]

/-- The inventory shows every VM that is there. -/
theorem inventory_shows {cluster : Option ℕ} {vmid : ℕ} {h : List (Option ℕ × ℕ)}
    (hmem : (cluster, vmid) ∈ h) : Shows (inventory cluster h) vmid := by
  refine ⟨_, _, [("type", .text "qemu"), ("vmid", .int vmid)], rfl, rfl, ?_, rfl⟩
  refine List.mem_map.mpr ⟨(cluster, vmid), ?_, rfl⟩
  exact List.mem_filter.mpr ⟨hmem, decide_eq_true rfl⟩

/-- A Proxmox that lists a VM when it accepts a clone for it, whether the response arrives or not,
and shows and deletes what it lists. -/
def inventoryAnswers : (c : Call) → List (Option ℕ × ℕ) → Except Exc c.Reply →
    List (Option ℕ × ℕ) → Prop
  | .cloneVm cluster _ _ newid _, h, _, h' => h' = (cluster, newid) :: h ∨ h' = h
  | .vmResources cluster, h, r, h' =>
      h' = h ∧ ∀ response, r = .ok response → response = inventory cluster h
  | .deleteVm cluster _ vmid, h, _, h' => h' = h ∨ h' = h.filter fun e => e ≠ (cluster, vmid)
  | _, h, _, h' => h' = h

def inventoried : Outside (List (Option ℕ × ℕ)) := ⟨inventoryAnswers⟩

/-- The clones that are listed are the ones that were accepted. -/
def listsMore : Call → List (Option ℕ × ℕ) → List (Option ℕ × ℕ) → Prop
  | .cloneVm cluster _ _ newid _, h, h' => h' = (cluster, newid) :: h
  | _, _, _ => False

/-- The hypervisor of the fixture lists what was cloned. -/
theorem inventoried_listsClones :
    ListsClones inventoried (fun cluster vmid h => (cluster, vmid) ∈ h) listsMore where
  accepted := by
    intro cluster node source newid name h r h' _ haccepts
    have haccepts : h' = (cluster, newid) :: h := haccepts
    rw [haccepts]
    exact List.mem_cons_self
  shown := by
    rintro cluster vmid h response h' ⟨-, hresponse⟩ hmem
    rw [hresponse response rfl]
    exact inventory_shows hmem
  kept := by
    intro c h r h' ha cluster vmid hmem hdelete
    cases c with
    | cloneVm cluster' node source newid name =>
      rcases ha with ha | ha
      · rw [ha]
        exact List.mem_cons_of_mem _ hmem
      · rw [ha]
        exact hmem
    | vmResources cluster' =>
      rw [ha.1]
      exact hmem
    | deleteVm cluster' node vmid' =>
      rcases ha with ha | ha
      · rw [ha]
        exact hmem
      · rw [ha]
        refine List.mem_filter.mpr ⟨hmem, decide_eq_true ?_⟩
        intro heq
        injection heq with hcluster hvmid
        subst hcluster hvmid
        exact hdelete node rfl
    | _ =>
      have ha : h' = h := ha
      rw [ha]
      exact hmem

/-- From the store of the fixture the operation clones once, where nobody deletes its VM. -/
theorem clones_once_inventoried :
    ClonesOnce
      (systemUnder {} inventoried (undeleted (fun cluster vmid h => (cluster, vmid) ∈ h) 1))
      listsMore 1 ⟨readyStore, [], []⟩ := by
  refine clones_once {} inventoried_listsClones 1 ⟨readyStore, [], []⟩ rfl ?_
  intro row hrow
  cases (readyStore_operations 1).symm.trans hrow

end Fixture

end LabGoblin
