import LabGoblin.Analysis.Checkpoints

/-!
# Attempts at checkpoints

An attempt loads the row that it has claimed and then follows the checkpoint of its operation:
nobody else writes the row while it is in hand, so the checkpoint is the one that was loaded until
the attempt itself records another. This module follows every branch of `execute_operation` that
way, from the claim to the final commit.
-/

set_option autoImplicit false

namespace LabGoblin

open Interactive

section Attempt

variable {H : Type} {settings : Settings} {outside : Outside H} {ok : Condition H} {o : ℕ}
  {p : Pid} {t t' : Sys H}

/-! ## Following the checkpoint -/

/-- The process has the operation in hand at the checkpoint, once it has loaded it works on the
record of the VM, and its own entries have grown from `past`. -/
structure Tracks (p : Pid) (o : ℕ) (target : Target) (vm : Option StudentVM) (k : Checkpoint)
    (past : List Entry) (t : Sys H) : Prop where
  hand : inHand p t.log = some o
  row : ∃ cur, t.store.db.durableOperations.get? o = some cur ∧ cur.checkpoint = k ∧
    cur.target = target
  onRecord : ∀ v, vm = some v → OnRecord v t
  past : past <:+ entriesOf p t.log

variable {target : Target} {vm : Option StudentVM} {k : Checkpoint} {past : List Entry}

/-- An attempt stays at its checkpoint while the others do not write its operation. -/
theorem Tracks.rely (h : Tracks p o target vm k past t) (hp : Present p t') (hr : Rely p t t')
    (hsame : Undisturbed o p t t') : Tracks p o target vm k past t' where
  hand := hr.inHand.trans h.hand
  row := by
    obtain ⟨cur, hcur, hrest⟩ := h.row
    exact ⟨cur, (hsame (hp.before hr) h.hand).trans hcur, hrest⟩
  onRecord := fun v hv => hr.onRecord (h.onRecord v hv)
  past := by
    rw [hr.entries]
    exact h.past

/-- A later point of the past. -/
theorem Tracks.now (h : Tracks p o target vm k past t) :
    Tracks p o target vm k (entriesOf p t.log) t :=
  ⟨h.hand, h.row, h.onRecord, List.suffix_refl _⟩

/-- An earlier point of the past. -/
theorem Tracks.since (h : Tracks p o target vm k past t) {before : List Entry}
    (hbefore : before <:+ past) : Tracks p o target vm k before t :=
  ⟨h.hand, h.row, h.onRecord, hbefore.trans h.past⟩

/-- The writes that leave the checkpoint and what is in hand as they are. -/
def Write.Unrecorded : Write → Prop
  | .operation (.renewLease _ _) => True
  | .operation _ => False
  | _ => True

/-- A write that records nothing leaves what is in hand. -/
theorem Write.Unrecorded.hand {w : Write} (h : w.Unrecorded) (x : Option ℕ) : w.hand x = x := by
  cases w with
  | operation w =>
    cases w with
    | renewLease o lease => rfl
    | _ => exact h.elim
  | _ => rfl

/-- A statement that records nothing leaves the attempt at its checkpoint. -/
theorem Tracks.exec (outside : Outside H) (h : Tracks p o target vm k past t) {q : Stmt}
    (hq : Commits Write.Unrecorded q) :
    Tracks p o target vm k past ((machine outside).exec p q t) where
  hand := by
    show inHand p (.stmt p q t.store :: t.log) = some o
    rw [inHand_cons_self _ (show (Entry.stmt p q t.store).pid = p from rfl), h.hand]
    refine inHand_foldl ?_
    intro w hw x
    cases q with
    | commit ws => exact (hq w (mem_of_mem_written hw)).hand x
    | _ => cases hw
  row := by
    obtain ⟨cur, hcur, hk, htarget⟩ := h.row
    show ∃ cur, (t.store.exec p q).db.durableOperations.get? o = some cur ∧ _
    rcases Store.exec_cases p q t.store with ⟨ws, db, rfl, hcommit, hdb, -⟩ | ⟨-, -, hsame⟩
    · rw [hdb]
      obtain ⟨cur', hcur', htarget', hk'⟩ :=
        checkpoint_kept (fun upid payload lease hw => hq _ hw) hcommit hcur
      exact ⟨cur', hcur', hk'.trans hk, htarget'.trans htarget⟩
    · exact ⟨cur, (hsame.operation o).trans hcur, hk, htarget⟩
  onRecord := fun v hv => (h.onRecord v hv).exec q
  past := by
    rw [entriesOf_exec]
    exact h.past.trans (List.suffix_cons _ _)

/-- A call and its reply leave the attempt at its checkpoint, and are its newest entries. -/
theorem Tracks.answer (h : Tracks p o target vm k past t) {c : Call} {r : Except Exc c.Reply}
    (ha : (machine outside).answer p c t r t') :
    Tracks p o target vm k past t' ∧
      ∃ s, entriesOf p t'.log = .reply p c r :: .call p c s :: entriesOf p t.log := by
  obtain ⟨hyper, -, rfl⟩ := ha
  have hentries : entriesOf p (.reply p c r :: .call p c t.store :: t.log) =
      .reply p c r :: .call p c t.store :: entriesOf p t.log := by
    rw [entriesOf_cons_self _ (show (Entry.reply p c r).pid = p from rfl),
      entriesOf_cons_self _ (show (Entry.call p c t.store).pid = p from rfl)]
  refine ⟨⟨?_, h.row, h.onRecord, ?_⟩, t.store, hentries⟩
  · show inHand p (.reply p c r :: .call p c t.store :: t.log) = some o
    rw [inHand_cons_of_quiet p _ rfl, inHand_cons_of_quiet p _ rfl, h.hand]
  · show past <:+ entriesOf p (.reply p c r :: .call p c t.store :: t.log)
    rw [hentries]
    exact h.past.trans ((List.suffix_cons _ _).trans (List.suffix_cons _ _))

/-- The calls that submit nothing and wait for no task but the recorded one. -/
def Call.Idle (k : Checkpoint) (c : Call) : Prop :=
  c.mutating = false ∧ ∀ cluster node u, c = .pollTask cluster node u → k.upid = some u

/-- An idle call respects the checkpoint. -/
theorem Call.Idle.respects {c : Call} (h : c.Idle k) {row : DurableOperation}
    (hrow : row.checkpoint = k) (own : List Entry) : c.Respects row own where
  waits := by
    intro cluster node u hc
    exact (congrArg Checkpoint.upid hrow).trans (h.2 cluster node u hc)
  submits := by
    intro hmutating
    rw [h.1] at hmutating
    cases hmutating
  clones := by
    rintro cluster node source newid name rfl
    cases h.1

/-- A commit of other writes records no checkpoint. -/
theorem checkpoints_of_unrecorded {q : Stmt} (hq : Commits Write.Unrecorded q) (t : Sys H) :
    Stmt.Checkpoints o p q t := by
  rintro ws rfl upid payload lease hw
  exact (hq _ hw).elim

/-- Between its submissions an attempt keeps to the checkpoint. -/
theorem tracks_tolerates : ((checkpointing settings outside ok o).contract p).Tolerates
    (Tracks p o target vm k past) (Commits Write.Unrecorded) (Call.Idle k) where
  stable := fun t t' h hr hinv => h.rely hinv.2 hr.1 hr.2
  stmt := fun q t hq _ h _ => ⟨checkpoints_of_unrecorded hq t, h.exec outside hq⟩
  call := by
    intro c t hc _ h
    refine ⟨fun _ row hrow => ?_, fun r t' ha => (h.answer ha.2.2).1⟩
    obtain ⟨cur, hcur, hk, -⟩ := h.row
    rw [hrow] at hcur
    cases hcur
    exact hc.respects hk _

/-- A part of the attempt that submits nothing and records no checkpoint. -/
theorem wp_tracking {α : Type} {K : Call → Prop} {R : α → Prop} {prog : Action α}
    (hK : ∀ c, K c → c.Idle k) (hprog : Keeps Write.Unrecorded K R prog)
    (ht : Tracks p o target vm k past t) :
    wp ((checkpointing settings outside ok o).contract p) prog
      (fun r t' => Tracks p o target vm k past t' ∧ ∀ a, r = .ok a → R a) t := by
  have hidle : Keeps Write.Unrecorded (Call.Idle k) R prog :=
    Program.Ensures.mono hprog (fun _ h => h) hK fun _ h => h
  exact Maintains.of_ensures tracks_tolerates hidle t ht

/-- A call that submits nothing, and the reply to it. -/
theorem wp_ask {c : Call} (hc : c.Idle k) (ht : Tracks p o target vm k past t) :
    wp ((checkpointing settings outside ok o).contract p) (await c)
      (fun r t' => Tracks p o target vm k past t' ∧
        ∃ s, entriesOf p t'.log = .reply p c r :: .call p c s :: entriesOf p t.log) t := by
  unfold await
  rw [wp_await]
  intro t₁ hr₁ hinv₁
  have h₁ : Tracks p o target vm k past t₁ := tracks_tolerates.stable t t₁ ht hr₁ hinv₁
  refine ⟨(tracks_tolerates.call c t₁ hc hinv₁ h₁).1, ?_⟩
  intro r t' ha
  have h' := h₁.answer ha.2.2
  rw [hr₁.1.entries] at h'
  exact h'

/-! ## What may be done anywhere -/

/-- The calls that submit nothing and wait for no task. -/
def Call.Quiet (c : Call) : Prop :=
  c.mutating = false ∧ ∀ cluster node u, c ≠ .pollTask cluster node u

/-- The writes that record no checkpoint. -/
def Write.Quiet : Write → Prop
  | .operation (.checkpoint _ _ _ _) => False
  | _ => True

/-- Actions that make only such calls and writes keep the discipline in every state. -/
theorem wp_quiet {α : Type} {R : α → Prop} {prog : Action α}
    (h : Keeps Write.Quiet Call.Quiet R prog) (t : Sys H) :
    wp ((checkpointing settings outside ok o).contract p) prog
      (Post.returning fun a _ => R a) t := by
  have hT : ((checkpointing settings outside ok o).contract p).Tolerates (fun _ => True)
      (Commits Write.Quiet) Call.Quiet := by
    refine ⟨fun _ _ _ _ _ => trivial, ?_, ?_⟩
    · rintro q t hq - - -
      refine ⟨?_, trivial⟩
      rintro ws rfl upid payload lease hw
      exact (hq _ hw).elim
    · rintro c t hc - -
      refine ⟨fun _ row _ => ?_, fun _ _ _ => trivial⟩
      refine Call.Idle.respects (k := row.checkpoint) ⟨hc.1, ?_⟩ rfl _
      exact fun cluster node u heq => absurd heq (hc.2 cluster node u)
  exact wp_mono (Maintains.of_ensures hT h t trivial) fun r t' h => h.2

/-! ## Waiting for the recorded task -/

section Waiting

variable {job : Job} {u : Upid} (hu : k.upid = some u)
include hu

/-- A poll of the recorded task, with its retries. -/
theorem wp_fetchTask (attempts : ℕ) {t : Sys H} (ht : Tracks p o target vm k past t) :
    wp ((checkpointing settings outside ok o).contract p) (fetchTask job u attempts)
      (fun r t' => Tracks p o target vm k past t' ∧
        ∀ task, r = .ok task → task.stopped = true → Awaited u (entriesOf p t'.log)) t := by
  have hraise : ∀ (e : Exc) (t : Sys H), Tracks p o target vm k past t →
      Tracks p o target vm k past t ∧
        ∀ task : TaskPoll, (Except.error e : Except Exc TaskPoll) = .ok task →
        task.stopped = true → Awaited u (entriesOf p t.log) := by
    intro e t ht
    refine ⟨ht, fun task htask => ?_⟩
    cases htask
  induction attempts generalizing t with
  | zero => exact hraise _ t ht
  | succ attempts ih =>
    have hidle : (Call.pollTask job.vm.proxmoxClusterId job.vm.proxmoxNode u).Idle k := by
      refine ⟨rfl, ?_⟩
      rintro cluster node u' ⟨⟩
      exact hu
    unfold fetchTask
    refine wp_handle (wp_ask hidle ht) ?_ ?_
    · rintro task t' ⟨ht', s, hentries⟩
      refine ⟨ht', ?_⟩
      rintro _ ⟨⟩ hstopped
      rw [hentries]
      exact ⟨p, _, _, task, List.mem_cons_self, hstopped⟩
    · rintro e t' ⟨ht', -⟩
      split
      · split
        · exact hraise _ t' ht'
        · exact ih ht'
      · exact hraise _ t' ht'

/-- The poll loop, by induction on the rounds that are left. -/
theorem wp_pollTask (allowWarnings : Bool) (rounds : ℕ) {t : Sys H}
    (ht : Tracks p o target vm k past t) :
    wp ((checkpointing settings outside ok o).contract p) (pollTask job u allowWarnings rounds)
      (Post.returning fun _ t' =>
        Tracks p o target vm k past t' ∧ Awaited u (entriesOf p t'.log)) t := by
  induction rounds generalizing t with
  | zero => exact Post.returning_error _ _ t
  | succ rounds ih =>
    unfold pollTask
    refine wp_seq (wp_fetchTask hu 3 ht) ?_ fun e t' _ => Post.returning_error _ e t'
    rintro task t₁ ⟨ht₁, hawaited⟩
    cases hstopped : task.stopped with
    | true =>
      rw [if_pos rfl]
      split
      · exact Post.returning_ok ⟨ht₁, hawaited task rfl hstopped⟩
      · exact Post.returning_error _ _ t₁
    | false =>
      rw [if_neg Bool.false_ne_true]
      have hrenew : Keeps Write.Unrecorded (Call.Idle k) (fun _ => True)
          (renewLease job.settings job.row.id) := keeps_renewLease job.settings fun _ => trivial
      refine wp_seq (wp_tracking (fun _ h => h) hrenew ht₁) ?_
        fun e t' _ => Post.returning_error _ e t'
      rintro _ t₂ ⟨ht₂, -⟩
      split
      · exact Post.returning_error _ _ t₂
      · exact ih ht₂

/-- A wait that ends well has seen the task stopped. -/
theorem wp_waitForTask (phase : Option Phase) (timeout : ℕ) (ht : Tracks p o target vm k past t) :
    wp ((checkpointing settings outside ok o).contract p) (waitForTask job phase u timeout)
      (Post.returning fun _ t' =>
        Tracks p o target vm k past t' ∧ Awaited u (entriesOf p t'.log)) t := by
  unfold waitForTask
  refine wp_returning (wp_pollTask hu _ _ ht) ?_
  intro exitstatus t' h
  cases exitstatus <;> exact Post.returning_ok h

end Waiting

/-! ## Submissions and their checkpoints -/

/-- A submission right after the validation, at a checkpoint that allows it. -/
theorem wp_submit {row : DurableOperation} {v : StudentVM} {payload : Payload} {c : Call}
    (ht : Tracks p o target vm k past t)
    (hc : ∀ cur s, cur.checkpoint = k →
      c.Respects cur (.stmt p (.authorize row v payload) s :: entriesOf p t.log)) :
    wp ((checkpointing settings outside ok o).contract p)
      (do
        authorize row v payload
        await c)
      (Post.returning fun _ t' => Tracks p o target vm k past t') t := by
  rw [wp_bind, wp_authorize]
  intro t₁ hr₁ hinv₁ _
  have h₁ : Tracks p o target vm k past t₁ := tracks_tolerates.stable t t₁ ht hr₁ hinv₁
  have hread : Commits Write.Unrecorded (.authorize row v payload) := trivial
  have h₂ := h₁.exec outside hread
  have hentries₂ : entriesOf p ((machine outside).exec p (.authorize row v payload) t₁).log =
      .stmt p (.authorize row v payload) t₁.store :: entriesOf p t.log := by
    rw [entriesOf_exec, hr₁.1.entries]
  refine ⟨checkpoints_of_unrecorded hread t₁, ?_⟩
  cases validateOperationAuthorization (((checkpointing settings outside ok o).contract
    p).machine.view t₁).db (((checkpointing settings outside ok o).contract
    p).machine.view t₁).clock row v payload with
  | error e =>
    rw [Post.andThen_error]
    exact Post.returning_error _ _ _
  | ok u =>
    rw [Post.andThen_ok]
    unfold await
    rw [wp_await]
    intro t₃ hr₃ hinv₃
    have h₃ : Tracks p o target vm k past t₃ := tracks_tolerates.stable _ t₃ h₂ hr₃ hinv₃
    refine ⟨?_, ?_⟩
    · intro _ cur' hcur'
      obtain ⟨cur, hcur, hk, -⟩ := h₃.row
      rw [hcur'] at hcur
      cases hcur
      rw [hr₃.1.entries.trans hentries₂]
      exact hc _ _ hk
    · intro r t' ha a _
      exact (h₃.answer ha.2.2).1

/-- What the commit of a checkpoint leaves the attempt with. -/
theorem Tracks.persisted (outside : Outside H) (h : Tracks p o target vm k past t)
    {ws : List Write} {upid : Option Upid} {payload : Option Payload} {lease : Time}
    {pending : List Write}
    (hpending : ∀ w, .operation w ∉ pending)
    (hws : ws = pending ++ [.operation (.checkpoint o upid payload lease)])
    {db : { db : Db // db.Constraints }} (hcommit : t.store.afterCommit ws = some db) :
    Tracks p o target vm (k.record upid payload) past
      ((machine outside).exec p (.commit ws) t) where
  hand := by
    show inHand p (.stmt p (.commit ws) t.store :: t.log) = some o
    rw [inHand_cons_self _ (show (Entry.stmt p (.commit ws) t.store).pid = p from rfl), h.hand]
    refine inHand_foldl ?_
    intro w hw x
    have hw := mem_of_mem_written hw
    rw [hws] at hw
    rcases List.mem_append.mp hw with hw | hw
    · cases w with
      | operation w => exact absurd hw (hpending w)
      | _ => rfl
    · rw [List.mem_singleton.mp hw]
      rfl
  row := by
    obtain ⟨cur, hcur, hk, htarget⟩ := h.row
    have hafter := hcommit
    rw [hws] at hafter
    have hafter := Store.operation_after_pending pending hpending hafter (by simp)
    show ∃ cur, (t.store.exec p (.commit ws)).db.durableOperations.get? o = some cur ∧ _
    rw [Store.exec_commit_some hcommit]
    refine ⟨_, hafter.trans (congrArg _ hcur), ?_, htarget⟩
    rw [OperationWrite.onRow_checkpoint, hk]
  onRecord := fun v hv => (h.onRecord v hv).exec _
  past := by
    rw [entriesOf_exec]
    exact h.past.trans (List.suffix_cons _ _)

/-- `persist_task` records the next checkpoint, and reads its task back. -/
theorem wp_persistTask {job : Job} (hid : job.row.id = o) (data : Option String)
    (payload : Option Payload) {pending : List Write} (hpending : ∀ w, .operation w ∉ pending)
    (hform : (k.record (Upid.ofResponse data) payload).WellFormed)
    (hnext : ∀ cur u s (t' : Sys H), cur.checkpoint = k → k.upid = some u →
      Tracks p o target vm k past t' → t'.store.db.durableOperations.get? o = some cur →
      entriesOf p t'.log = .stmt p (.select .rows) s :: entriesOf p t.log →
      (k.record (Upid.ofResponse data) payload).Supersedes u cur (entriesOf p t'.log) t'.store)
    (ht : Tracks p o target vm k past t) :
    wp ((checkpointing settings outside ok o).contract p) (persistTask job data payload pending)
      (Post.returning fun upid t' => upid = Upid.ofResponse data ∧
        Tracks p o target vm (k.record (Upid.ofResponse data) payload) past t') t := by
  unfold persistTask
  rw [wp_bind, wp_utcnow]
  intro t₁ hr₁ hinv₁ _
  have h₁ : Tracks p o target vm k past t₁ := tracks_tolerates.stable t t₁ ht hr₁ hinv₁
  have hselect : Commits Write.Unrecorded (.select .rows) := trivial
  have h₂ : Tracks p o target vm k past ((machine outside).exec p (.select .rows) t₁) :=
    h₁.exec outside hselect
  have hentries₂ : entriesOf p ((machine outside).exec p (.select .rows) t₁).log =
      .stmt p (.select .rows) t₁.store :: entriesOf p t.log := by
    rw [entriesOf_exec, hr₁.1.entries]
  refine ⟨checkpoints_of_unrecorded hselect t₁, ?_⟩
  rw [Post.andThen_ok, hid, wp_bind, wp_commit]
  intro t₃ hr₃ hinv₃ _
  have h₃ : Tracks p o target vm k past t₃ := tracks_tolerates.stable _ t₃ h₂ hr₃ hinv₃
  obtain ⟨cur, hcur, hk, htarget⟩ := h₃.row
  refine ⟨?_, fun _ => (Post.andThen_error _ _ _ _).mpr (Post.returning_error _ _ _), ?_⟩
  · intro ws hws upid payload' lease hw
    injection hws with hws
    have honly : ∀ w, .operation w ∈ ws → w = .checkpoint o (Upid.ofResponse data) payload
        (t₁.store.clock + job.settings.operationLeaseSeconds) := by
      intro w hw
      rw [← hws] at hw
      rcases List.mem_append.mp hw with hw | hw
      · exact absurd hw (hpending w)
      · injection List.mem_singleton.mp hw
    cases honly _ hw
    refine ⟨honly, ?_⟩
    intro row hrow
    rw [hcur] at hrow
    cases hrow
    rw [hk]
    refine ⟨hform, ?_⟩
    intro u hu
    have hupid : k.upid = some u := (congrArg Checkpoint.upid hk).symm.trans hu
    exact hnext cur u t₁.store t₃ hk hupid h₃ hcur (hr₃.1.entries.trans hentries₂)
  · intro db hcommit
    have h₄ := h₃.persisted outside hpending rfl hcommit
    unfold reloadOperation
    rw [Post.andThen_ok, wp_bind, wp_bind, wp_select]
    intro t₅ hr₅ hinv₅ _
    have h₅ := tracks_tolerates.stable _ t₅ h₄ hr₅ hinv₅
    refine ⟨checkpoints_of_unrecorded hselect t₅, ?_⟩
    obtain ⟨cur', hcur', hk', -⟩ := h₅.row
    have hview : ((checkpointing settings outside ok o).contract p).machine.view t₅ =
        t₅.store := rfl
    rw [hview, Post.andThen_ok, hcur']
    refine Post.returning_ok ⟨?_, h₅.exec outside hselect⟩
    exact congrArg Checkpoint.upid hk'

/-! ## The branches -/

/-- A task that was awaited stays so when more entries come. -/
theorem Awaited.mono {u : Upid} {own own' : List Entry} (h : Awaited u own)
    (hsub : ∀ e ∈ own, e ∈ own') : Awaited u own' := by
  obtain ⟨p, cluster, node, poll, hmem, hstopped⟩ := h
  exact ⟨p, cluster, node, poll, hsub _ hmem, hstopped⟩

/-- Where no task is recorded, everything but a clone may be submitted. -/
theorem Call.respects_of_none {c : Call} (hclone : ∀ cluster node source newid name,
      c ≠ .cloneVm cluster node source newid name)
    (hwait : ∀ cluster node u, c ≠ .pollTask cluster node u) {cur : DurableOperation}
    (hnone : cur.proxmoxUpid = none) (own : List Entry) : c.Respects cur own where
  waits := fun cluster node u hc => absurd hc (hwait cluster node u)
  submits := by
    intro _ u hu
    rw [hnone] at hu
    cases hu
  clones := fun cluster node source newid name hc =>
    absurd hc (hclone cluster node source newid name)

section Branches

variable {job : Job} (hid : job.row.id = o)

/-- Asking for the status leaves the attempt at its checkpoint, with the answer as its newest entry.
-/
theorem wp_getVmStatus_tracks (ht : Tracks p o target vm k past t) :
    wp ((checkpointing settings outside ok o).contract p) job.getVmStatus
      (fun r t' => Tracks p o target vm k past t' ∧ ∃ s, entriesOf p t'.log =
        .reply p (.getVmStatus job.vm.proxmoxClusterId job.vm.proxmoxNode job.vm.vmid) r ::
        .call p (.getVmStatus job.vm.proxmoxClusterId job.vm.proxmoxNode job.vm.vmid) s ::
          entriesOf p t.log) t :=
  wp_ask ⟨rfl, by simp⟩ ht

/-- A call whose reply does not matter. -/
theorem wp_asked {β : Type} {c : Call} {f : c.Reply → Action β} {S : β → Sys H → Prop}
    (hc : c.Idle k) (ht : Tracks p o target vm k past t)
    (hf : ∀ a t', Tracks p o target vm k past t' →
      wp ((checkpointing settings outside ok o).contract p) (f a) (Post.returning S) t') :
    wp ((checkpointing settings outside ok o).contract p) (await c >>= f) (Post.returning S) t :=
  wp_seq (wp_ask hc ht) (fun a t' h => hf a t' h.1) fun e t' _ => Post.returning_error _ e t'

/-- A look into the inventory, and the rest of an attempt. Where the VM is not found, the response
is an inventory without it. -/
theorem wp_vmExists_tracks {β : Type} {f : Bool → Action β} {S : β → Sys H → Prop}
    (ht : Tracks p o target vm k past t)
    (hf : ∀ listed t', Tracks p o target vm k past t' →
      (listed = false → ∃ response s, entriesOf p t'.log =
          .reply p (.vmResources job.vm.proxmoxClusterId) (.ok response) ::
            .call p (.vmResources job.vm.proxmoxClusterId) s :: entriesOf p t.log ∧
          inventoryLacks response job.vm.vmid = true) →
      wp ((checkpointing settings outside ok o).contract p) (f listed) (Post.returning S) t') :
    wp ((checkpointing settings outside ok o).contract p) (job.vmExists >>= f)
      (Post.returning S) t := by
  unfold Job.vmExists
  rw [bind_assoc]
  refine wp_seq (wp_ask ⟨rfl, by simp⟩ ht) ?_ fun e t' _ => Post.returning_error _ e t'
  rintro response t' ⟨h', s, hentries⟩
  rw [bind_assoc]
  refine wp_check_bind ?_ fun e => Post.returning_error _ e t'
  intro identifiers hread
  refine hf _ t' h' fun hlisted => ⟨response, s, hentries, ?_⟩
  simpa [inventoryLacks, hread] using hlisted

/-- What is only read, and the rest of an attempt. -/
theorem wp_tracked {α β : Type} {R : α → Prop} {prog : Action α} {f : α → Action β}
    {S : β → Sys H → Prop} (hprog : Keeps Write.Unrecorded (fun _ => False) R prog)
    (ht : Tracks p o target vm k past t)
    (hf : ∀ a t', R a → Tracks p o target vm k past t' →
      wp ((checkpointing settings outside ok o).contract p) (f a) (Post.returning S) t') :
    wp ((checkpointing settings outside ok o).contract p) (prog >>= f) (Post.returning S) t :=
  wp_seq (wp_tracking (fun _ h => h.elim) hprog ht) (fun a t' h => hf a t' (h.2 a rfl) h.1)
    fun e t' _ => Post.returning_error _ e t'

/-- What the clone leaves the attempt with: the VM is running, or the clone that is recorded is
done. -/
def Cloned (p : Pid) (o : ℕ) (target : Target) (vm : StudentVM) (past : List Entry)
    (r : VmStatus × Payload × List (Upid × ExitStatus)) (t : Sys H) : Prop :=
  ∃ k, Tracks p o target (some vm) k past t ∧
    (r.1 = .running ∨ ∃ u, k = ⟨.create, some u, some .cloneSubmitted⟩ ∧
      Awaited u (entriesOf p t.log))

/-- The wait for the clone that is recorded. -/
theorem wp_awaitClone {u : Upid} (payload : Payload) (timeout : ℕ)
    (hk : k = ⟨.create, some u, some .cloneSubmitted⟩)
    (ht : Tracks p o target (some job.vm) k past t) :
    wp ((checkpointing settings outside ok o).contract p)
      (do
        let warnings ← waitForTask job payload.phase u timeout
        let live ← job.getVmStatus
        return (live.getD .stopped, payload, warnings))
      (Post.returning (Cloned p o target job.vm past)) t := by
  have hu : k.upid = some u := by rw [hk]
  refine wp_returning (wp_waitForTask hu _ _ ht) ?_
  rintro warnings t₁ ⟨h₁, hawaited⟩
  refine wp_asked ⟨rfl, by simp⟩ h₁.now ?_
  intro live t₂ h₂
  refine Post.returning_ok ⟨k, h₂.since h₁.past, Or.inr ?_⟩
  exact ⟨u, hk, hawaited.mono h₂.past.subset⟩

include hid

/-- The clone, resumed or submitted. -/
theorem wp_cloneVm (htype : job.row.operationType = .create)
    (hform : job.row.checkpoint.WellFormed) (template : VMTemplate)
    (ht : Tracks p o target (some job.vm) job.row.checkpoint past t) :
    wp ((checkpointing settings outside ok o).contract p) (cloneVm job job.row.payload template)
      (Post.returning (Cloned p o target job.vm past)) t := by
  unfold cloneVm
  split
  · rename_i u hu
    have hupid : job.row.checkpoint.upid = some u := hu
    split
    · refine wp_returning (wp_waitForTask hupid _ _ ht) ?_
      rintro warnings t₁ ⟨h₁, -⟩
      refine wp_asked ⟨rfl, by simp⟩ h₁ ?_
      intro live t₂ h₂
      refine wp_raiseIf_bind ?_ (Post.returning_error _ _ _)
      intro hrunning
      rw [not_not] at hrunning
      exact Post.returning_ok ⟨_, h₂, Or.inl (by rw [hrunning]; rfl)⟩
    · rename_i hphase
      have hclone := (hform.create htype (by rw [hupid]; rfl)).resolve_right hphase
      have hk : job.row.checkpoint = ⟨.create, some u, some .cloneSubmitted⟩ := by
        rw [← htype, ← hupid, ← hclone]
        rfl
      exact wp_awaitClone job.row.payload _ hk ht
  · rename_i hu
    have hupid : job.row.checkpoint.upid = none := hu
    refine wp_vmExists_tracks ht ?_
    intro listed t₁ h₁ hlooked
    refine wp_raiseIf_bind ?_ (Post.returning_error _ _ _)
    intro hlisted
    obtain ⟨response, s, hentries, hlacks⟩ := hlooked (eq_false_of_ne_true hlisted)
    refine wp_returning (wp_submit h₁ ?_) ?_
    · intro cur s' hcur
      refine ⟨by simp, ?_, ?_⟩
      · intro _ u hu
        have hcur := congrArg Checkpoint.upid hcur
        rw [hupid] at hcur
        exact absurd (hcur.symm.trans hu) (by simp)
      · rintro cluster node source newid name ⟨⟩
        rw [hentries]
        exact ⟨_, _, _, _, _, _, _, _, rfl, hlacks⟩
    · intro response t₂ h₂
      refine wp_tracked (keeps_getData response) h₂ ?_
      intro data t₃ _ h₃
      refine wp_returning (wp_persistTask hid data
        (some { job.row.payload with phase := some .cloneSubmitted }) (by simp) ?_ ?_ h₃) ?_
      · exact ⟨fun _ _ => Or.inl rfl, fun hdelete => by cases htype.symm.trans hdelete⟩
      · intro cur u _ _ _ hu
        rw [hupid] at hu
        cases hu
      · rintro recorded t₄ ⟨hrecorded, h₄⟩
        refine wp_orRaise_bind ?_ (Post.returning_error _ _ _)
        intro u hu
        refine wp_awaitClone { job.row.payload with phase := some .cloneSubmitted } _ ?_ h₄
        rw [← hrecorded, hu, ← htype]
        rfl

/-- The start of the VM once its clone is done. -/
theorem wp_autoStart {u : Upid} {pending : List Write} (payload : Payload)
    (hpending : ∀ w, .operation w ∉ pending)
    (ht : Tracks p o target (some job.vm) ⟨.create, some u, some .cloneSubmitted⟩ past t)
    (hawaited : Awaited u (entriesOf p t.log)) :
    wp ((checkpointing settings outside ok o).contract p) (autoStart job payload pending)
      (Post.returning fun r _ => ∀ w, .operation w ∉ r.2.1) t := by
  unfold autoStart
  refine wp_returning (wp_submit ht.now ?_) ?_
  · intro cur s hcur
    refine ⟨by simp, ?_, by simp⟩
    intro _ u' hu'
    have hupid : some u = some u' := (congrArg Checkpoint.upid hcur).symm.trans hu'
    cases hupid
    exact ⟨congrArg Checkpoint.operationType hcur, congrArg Checkpoint.phase hcur,
      hawaited.mono fun _ he => List.mem_cons_of_mem _ he, _, _, _, rfl⟩
  · intro response t₁ h₁
    refine wp_returning (wp_persistTask hid response.dataOrNone
      (some { payload with phase := some .startSubmitted }) hpending ?_ ?_ h₁) ?_
    · exact ⟨fun _ _ => Or.inr rfl, fun hdelete => by cases hdelete⟩
    · intro cur u' s t' hcur hu' h' _ _
      cases hu'
      exact Or.inl ⟨congrArg Checkpoint.operationType hcur, congrArg Checkpoint.phase hcur,
        hawaited.mono h'.past.subset, rfl⟩
    · rintro recorded t₂ ⟨hrecorded, h₂⟩
      refine wp_orRaise_bind ?_ (Post.returning_error _ _ _)
      intro u' hu'
      refine wp_returning (wp_waitForTask (hrecorded.symm.trans hu') _ _ h₂) ?_
      rintro warnings t₃ ⟨h₃, -⟩
      refine wp_asked ⟨rfl, by simp⟩ h₃ ?_
      intro live t₄ h₄
      refine wp_tracked (keeps_reloadVm _) h₄ ?_
      intro loaded t₅ _ _
      refine wp_raiseIf_bind (fun _ => Post.returning_ok ?_) (Post.returning_error _ _ _)
      intro w hw
      cases mem_statusWrites hw

/-- Starting a VM after its clone respects the checkpoint of the clone. -/
theorem wp_startCloned {r : VmStatus × Payload × List (Upid × ExitStatus)} (payload : Payload)
    (loaded : StudentVM) (ht : Cloned p o target job.vm past r t) :
    wp ((checkpointing settings outside ok o).contract p) (startCloned job payload loaded r.1)
      (Post.returning fun r _ => ∀ w, .operation w ∉ r.2.1) t := by
  have hwrites : ∀ w, .operation w ∉ statusWrites loaded r.1 := by
    intro w hw
    cases mem_statusWrites hw
  unfold startCloned
  split
  · rename_i hstart
    obtain ⟨k, h, hrunning | ⟨u, rfl, hawaited⟩⟩ := ht
    · exact absurd hrunning hstart.2
    · exact wp_autoStart hid payload hwrites h hawaited
  · exact Post.returning_ok hwrites

/-- The branch `vm.create`. -/
theorem wp_executeCreate (htype : job.row.operationType = .create)
    (hform : job.row.checkpoint.WellFormed)
    (ht : Tracks p o target (some job.vm) job.row.checkpoint past t) :
    wp ((checkpointing settings outside ok o).contract p) (executeCreate job job.row.payload)
      (Post.returning fun outcome _ => ∀ w, .operation w ∉ outcome.writes) t := by
  unfold executeCreate
  refine wp_tracked ((keeps_select _).mpr fun _ => trivial) (R := fun _ => True) ht ?_
  intro s t₁ _ h₁
  refine wp_orRaise_bind ?_ (Post.returning_error _ _ _)
  intro template _
  refine wp_asked ⟨rfl, by simp⟩ h₁ ?_
  intro _ t₂ h₂
  refine wp_returning (wp_cloneVm hid htype hform template h₂) ?_
  rintro ⟨cloned, payload, warnings⟩ t₃ ⟨k, h₃, hcloned⟩
  refine wp_tracked (keeps_reloadVm _) h₃.now ?_
  intro loaded t₄ _ h₄
  have hcloned₄ : Cloned p o target job.vm (entriesOf p t₃.log) (cloned, payload, warnings) t₄ := by
    refine ⟨k, h₄, ?_⟩
    rcases hcloned with hrunning | ⟨u, hk, hawaited⟩
    · exact Or.inl hrunning
    · exact Or.inr ⟨u, hk, hawaited.mono h₄.past.subset⟩
  refine wp_returning (wp_startCloned hid payload loaded hcloned₄) ?_
  rintro ⟨status, writes, started⟩ t₅ hwrites
  refine wp_quiet ?_ t₅
  rw [keeps_bind, keeps_select]
  intro s' w hw
  rcases List.mem_append.mp hw with hw | hw
  · exact hwrites w hw
  · unfold readyWrites at hw
    split at hw
    · split at hw <;> simp at hw
    · cases hw

/-- The task of a power action is the recorded one. -/
theorem wp_powerTask {action : PowerAction} (htype : job.row.operationType = .power action)
    (ht : Tracks p o target (some job.vm) job.row.checkpoint past t) :
    wp ((checkpointing settings outside ok o).contract p)
      (powerTask job job.row.payload action)
      (Post.returning fun u t' => ∃ k, k.upid = some u ∧
        Tracks p o target (some job.vm) k past t') t := by
  unfold powerTask
  split
  · rename_i u hu
    exact Post.returning_ok ⟨_, hu, ht⟩
  · rename_i hu
    refine wp_returning (wp_submit ht ?_) ?_
    · intro cur s hcur
      exact Call.respects_of_none (by simp) (by simp)
        ((congrArg Checkpoint.upid hcur).trans hu) _
    · intro response t₁ h₁
      refine wp_returning (wp_persistTask hid response.dataOrNone none (by simp) ?_ ?_ h₁) ?_
      · refine ⟨fun hcreate => ?_, fun hdelete => ?_⟩
        · cases htype.symm.trans hcreate
        · cases htype.symm.trans hdelete
      · intro cur u _ _ _ hu'
        cases hu.symm.trans hu'
      · rintro recorded t₂ ⟨hrecorded, h₂⟩
        rw [wp_orRaise]
        refine ⟨fun _ => Post.returning_error _ _ _, ?_⟩
        intro u hu'
        exact Post.returning_ok ⟨_, hrecorded.symm.trans hu', h₂⟩

/-- The branch of a power action. -/
theorem wp_executePower {action : PowerAction} (htype : job.row.operationType = .power action)
    (ht : Tracks p o target (some job.vm) job.row.checkpoint past t) :
    wp ((checkpointing settings outside ok o).contract p)
      (executePower job job.row.payload action)
      (Post.returning fun outcome _ => ∀ w, .operation w ∉ outcome.writes) t := by
  unfold executePower
  refine wp_asked ⟨rfl, by simp⟩ ht ?_
  intro _ t₁ h₁
  refine wp_returning (wp_powerTask hid htype h₁) ?_
  rintro u t₂ ⟨k, hu, h₂⟩
  refine wp_returning (wp_waitForTask hu _ _ h₂) ?_
  rintro warnings t₃ ⟨h₃, -⟩
  refine wp_asked ⟨rfl, by simp⟩ h₃ ?_
  intro live t₄ h₄
  refine wp_tracked (keeps_reloadVm _) h₄ ?_
  intro loaded t₅ _ _
  refine wp_raiseIf_bind (fun _ => Post.returning_ok ?_) (Post.returning_error _ _ _)
  intro w hw
  cases mem_statusWrites hw

/-- A stop that is done is cleared once the VM was seen stopped. -/
theorem wp_observeStopped {u : Upid} (payload : Payload)
    (htarget : target = .studentVm job.vm.id)
    (ht : Tracks p o target (some job.vm) ⟨.delete, some u, some .stopSubmitted⟩ past t)
    (hawaited : Awaited u (entriesOf p t.log)) :
    wp ((checkpointing settings outside ok o).contract p) (observeStopped job payload)
      (Post.returning fun payload' t' => payload'.phase = some .stopped ∧
        Tracks p o target (some job.vm) ⟨.delete, none, some .stopped⟩ past t') t := by
  unfold observeStopped
  refine wp_seq (wp_getVmStatus_tracks ht.now) ?_ fun e t' _ => Post.returning_error _ e t'
  rintro stopped t₁ ⟨h₁, s, hentries⟩
  refine wp_raiseIf_bind ?_ (Post.returning_error _ _ _)
  intro hstopped
  rw [not_not] at hstopped
  subst hstopped
  refine wp_returning (wp_persistTask hid none
    (some { payload with phase := some .stopped }) (by simp) ?_ ?_ h₁) ?_
  · exact Checkpoint.wellFormed_of_none rfl
  · intro cur u' s' t' hcur hu' h' hcur' hentries'
    cases hu'
    obtain ⟨v, hv, hsame⟩ := h'.onRecord job.vm rfl
    obtain ⟨cur'', hcur'', -, htarget'⟩ := h'.row
    rw [hcur'] at hcur''
    cases hcur''
    refine Or.inr ⟨congrArg Checkpoint.operationType hcur, congrArg Checkpoint.phase hcur,
      hawaited.mono h'.past.subset, rfl, rfl, v, ?_, ?_, ?_⟩
    · rw [hsame.id]
      exact hv
    · rw [hsame.id, htarget', htarget]
    · unfold ObservedStopped
      rw [hsame.proxmoxClusterId, hsame.proxmoxNode, hsame.vmid, hentries', hentries]
      exact ⟨_, _, _, _, rfl⟩
  · rintro recorded t₂ ⟨-, h₂⟩
    exact Post.returning_ok ⟨rfl, h₂.since ht.past⟩

/-- Between its phases a deletion has no recorded task, unless the deletion was submitted. -/
def Deleting (p : Pid) (o : ℕ) (target : Target) (vm : StudentVM) (past : List Entry)
    (payload : Payload) (t : Sys H) : Prop :=
  ∃ upid, Tracks p o target (some vm) ⟨.delete, upid, payload.phase⟩ past t ∧
    (upid = none ∨ payload.phase = some .deleteSubmitted)

/-- Resuming a deletion awaits the recorded task and leaves none. -/
theorem wp_resumeDelete (htype : job.row.operationType = .delete)
    (hform : job.row.checkpoint.WellFormed) (htarget : target = .studentVm job.vm.id)
    (ht : Tracks p o target (some job.vm) job.row.checkpoint past t) :
    wp ((checkpointing settings outside ok o).contract p) (resumeDelete job job.row.payload)
      (Post.returning (Deleting p o target job.vm past)) t := by
  have hk : job.row.checkpoint = ⟨.delete, job.row.proxmoxUpid, job.row.payload.phase⟩ := by
    rw [← htype]
    rfl
  unfold resumeDelete
  split
  · rename_i u hphase hu
    refine wp_returning (wp_waitForTask hu _ _ ht) ?_
    rintro _ t₁ ⟨h₁, hawaited⟩
    rw [hk, hphase, hu] at h₁
    refine wp_mono (wp_observeStopped hid job.row.payload htarget h₁ hawaited) ?_
    intro r t₂ h payload' hr
    obtain ⟨hstopped, h₂⟩ := h payload' hr
    refine ⟨none, ?_, Or.inl rfl⟩
    rw [hstopped]
    exact h₂
  · rename_i u hphase hu
    refine wp_returning (wp_waitForTask hu _ _ ht) ?_
    rintro _ t₁ ⟨h₁, -⟩
    rw [hk] at h₁
    exact Post.returning_ok ⟨_, h₁, Or.inr hphase⟩
  · rename_i hstop hdelete
    rw [hk] at ht
    refine Post.returning_ok ⟨_, ht, ?_⟩
    cases hu : job.row.proxmoxUpid with
    | none => exact Or.inl rfl
    | some u =>
      have hupid : job.row.checkpoint.upid.isSome = true := by
        show job.row.proxmoxUpid.isSome = true
        rw [hu]
        rfl
      rcases hform.delete htype hupid with hphase | hphase
      · exact absurd hu (hstop u hphase)
      · exact absurd hu (hdelete u hphase)

/-- Stopping a VM before its deletion records the stop and awaits it. -/
theorem wp_stopBeforeDelete (payload : Payload) (htarget : target = .studentVm job.vm.id)
    (ht : Deleting p o target job.vm past payload t) :
    wp ((checkpointing settings outside ok o).contract p) (stopBeforeDelete job payload)
      (Post.returning (Deleting p o target job.vm past)) t := by
  obtain ⟨upid, ht, hupid⟩ := ht
  unfold stopBeforeDelete
  refine wp_asked ⟨rfl, by simp⟩ ht ?_
  intro live t₁ h₁
  split
  · rename_i hrunning
    have hnone : upid = none := hupid.resolve_right hrunning.2
    subst hnone
    refine wp_returning (wp_submit h₁ ?_) ?_
    · intro cur s hcur
      exact Call.respects_of_none (by simp) (by simp) (congrArg Checkpoint.upid hcur) _
    · intro stop t₂ h₂
      refine wp_returning (wp_persistTask hid stop.dataOrNone
        (some { payload with phase := some .stopSubmitted }) (by simp) ?_ ?_ h₂) ?_
      · exact ⟨nofun, fun _ _ => Or.inl rfl⟩
      · intro cur u _ _ _ hu
        cases hu
      · rintro recorded t₃ ⟨hrecorded, h₃⟩
        refine wp_orRaise_bind ?_ (Post.returning_error _ _ _)
        intro u hu
        have hresponse : Upid.ofResponse stop.dataOrNone = some u := hrecorded.symm.trans hu
        rw [hresponse] at h₃
        refine wp_returning (wp_waitForTask (show _ = some u from rfl) _ _ h₃) ?_
        rintro _ t₄ ⟨h₄, hawaited⟩
        refine wp_mono (wp_observeStopped hid _ htarget h₄ hawaited) ?_
        intro r t₅ h payload' hr
        obtain ⟨hstopped, h₅⟩ := h payload' hr
        refine ⟨none, ?_, Or.inl rfl⟩
        rw [hstopped]
        exact h₅
  · exact Post.returning_ok ⟨upid, h₁, hupid⟩

/-- Submitting a deletion records its task once nothing else is recorded. -/
theorem wp_submitDeletion (payload : Payload) (ht : Deleting p o target job.vm past payload t) :
    wp ((checkpointing settings outside ok o).contract p) (submitDeletion job payload)
      (Post.returning fun _ _ => True) t := by
  obtain ⟨upid, ht, hupid⟩ := ht
  unfold submitDeletion
  split
  · rename_i hphase
    have hnone : upid = none := hupid.resolve_right hphase
    subst hnone
    refine wp_returning (wp_submit ht ?_) ?_
    · intro cur s hcur
      exact Call.respects_of_none (by simp) (by simp) (congrArg Checkpoint.upid hcur) _
    · intro response t₁ h₁
      refine wp_tracked (keeps_getData response) h₁ ?_
      intro data t₂ _ h₂
      refine wp_returning (wp_persistTask hid data
        (some { payload with phase := some .deleteSubmitted }) (by simp) ?_ ?_ h₂) ?_
      · exact ⟨nofun, fun _ _ => Or.inr rfl⟩
      · intro cur u _ _ _ hu
        cases hu
      · rintro recorded t₃ ⟨hrecorded, h₃⟩
        refine wp_orRaise_bind ?_ (Post.returning_error _ _ _)
        intro u hu
        refine wp_returning (wp_waitForTask (hrecorded.symm.trans hu) _ _ h₃) ?_
        exact fun _ _ _ => Post.returning_ok trivial
  · exact Post.returning_ok trivial

/-- The hypervisor part of `vm.delete`. After an error only the inventory is read. -/
theorem wp_deleteVm_tracks (htype : job.row.operationType = .delete)
    (hform : job.row.checkpoint.WellFormed) (htarget : target = .studentVm job.vm.id)
    (ht : Tracks p o target (some job.vm) job.row.checkpoint past t) :
    wp ((checkpointing settings outside ok o).contract p) (deleteVm job job.row.payload)
      (Post.returning fun _ _ => True) t := by
  have hquiet {c : Call} (hc : c.Quiet) :
      Keeps Write.Quiet Call.Quiet (fun _ => True) (await c) :=
    (keeps_await c _).mpr ⟨hc, fun _ => trivial⟩
  unfold deleteVm
  refine wp_asked ⟨rfl, by simp⟩ ht ?_
  intro _ t₁ h₁
  refine wp_vmExists_tracks h₁ ?_
  intro listed t₂ h₂ _
  split
  · refine wp_handle (R := Post.returning fun _ _ => True) ?_ (fun _ _ h => h) ?_
    · unfold deleteListedVm
      refine wp_returning (wp_resumeDelete hid htype hform htarget h₂) ?_
      intro payload t₃ h₃
      refine wp_returning (wp_stopBeforeDelete hid payload htarget h₃) ?_
      intro payload' t₄ h₄
      refine wp_returning (wp_submitDeletion hid payload' h₄) ?_
      rintro _ t₅ -
      refine wp_quiet ?_ t₅
      unfold verifyAbsent
      refine Keeps.guarded ?_ fun e => ?_
      · rw [keeps_bind]
        exact Keeps.mono (hquiet ⟨rfl, by simp⟩) fun _ _ => trivial
      · split <;> exact trivial
    · rintro e t₃ -
      refine wp_quiet ?_ t₃
      split
      · rw [keeps_bind]
        refine Keeps.mono (keeps_vmExists ⟨rfl, by simp⟩) fun _ _ => ?_
        exact (keeps_raiseIf _ _ _).mpr fun _ => trivial
      · exact trivial
  · exact Post.returning_ok trivial

/-- The branch `vm.delete`. -/
theorem wp_executeDelete_tracks (htype : job.row.operationType = .delete)
    (hform : job.row.checkpoint.WellFormed) (htarget : target = .studentVm job.vm.id)
    (ht : Tracks p o target (some job.vm) job.row.checkpoint past t) :
    wp ((checkpointing settings outside ok o).contract p) (executeDelete job job.row.payload)
      (Post.returning fun outcome _ => ∀ w, .operation w ∉ outcome.writes) t := by
  unfold executeDelete
  refine wp_returning (wp_deleteVm_tracks hid htype hform htarget ht) ?_
  rintro _ t₁ -
  refine wp_quiet ?_ t₁
  simp only [keeps_bind, keeps_select, keeps_utcnow, keeps_pure]
  intro s s' w hw
  rcases List.mem_append.mp hw with hw | hw
  · unfold unlinkWrites at hw
    split at hw <;> simp at hw
  · cases List.mem_singleton.mp hw

/-- Every branch on an existing VM record. -/
theorem wp_executeBranch (hform : job.row.checkpoint.WellFormed)
    (htarget : target = .studentVm job.vm.id)
    (ht : Tracks p o target (some job.vm) job.row.checkpoint past t) :
    wp ((checkpointing settings outside ok o).contract p)
      (executeBranch job.settings job.row (some job.vm))
      (Post.returning fun outcome _ => ∀ w, .operation w ∉ outcome.writes) t := by
  unfold executeBranch
  cases htype : job.row.operationType with
  | create => exact wp_executeCreate hid htype hform ht
  | power action => exact wp_executePower hid htype ht
  | delete => exact wp_executeDelete_tracks hid htype hform htarget ht
  | other text => exact Post.returning_error _ _ _

end Branches

end Attempt

end LabGoblin
