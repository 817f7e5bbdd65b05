import LabGoblin.Model.UpdateAgent
import Mathlib

/-!
# Every accepted operation is accounted for

While an operation waits or runs, the file has its record, unless the action has just replaced the
whole file. A run in which no crash falls into that gap, and in which no two operations are
accepted by one process in one second, always ends an operation with a record of its end.
-/

set_option autoImplicit false

namespace LabGoblin.Updater

/-! ## Ids -/

/-- There is no dash among the digits of a number. -/
theorem dash_not_mem_repr (n : ℕ) : '-' ∉ n.repr.toList := by
  rw [Nat.toList_repr]
  intro hmem
  have hdigit := Nat.isDigit_of_mem_toDigits (by decide) (by decide) hmem
  exact absurd hdigit (by decide)

/-- An id says in which second and by which process its operation was accepted. -/
theorem operationId_injective : Function.Injective Acceptance.operationId := by
  intro a b heq
  have htext := congrArg String.toList heq
  simp only [Acceptance.operationId, String.toList_append] at htext
  have hbefore (x y : ℕ) :
      (x.repr.toList ++ "-".toList ++ y.repr.toList).takeWhile (· ≠ '-') = x.repr.toList := by
    rw [List.append_assoc, List.takeWhile_append_of_pos]
    · have hdash : "-".toList ++ y.repr.toList = '-' :: y.repr.toList := rfl
      rw [hdash, List.takeWhile_cons_of_neg (by simp), List.append_nil]
    · intro c hc
      have hne : c ≠ '-' := by
        rintro rfl
        exact dash_not_mem_repr x hc
      simpa using hne
  have hseconds : a.seconds.repr.toList = b.seconds.repr.toList := by
    have htake := congrArg (List.takeWhile (· ≠ '-')) htext
    rwa [hbefore, hbefore] at htake
  have hpid : a.pid.repr.toList = b.pid.repr.toList := by
    rw [hseconds] at htext
    exact List.append_cancel_left htext
  have h1 : a.seconds = b.seconds := Nat.repr_injective (String.toList_injective hseconds)
  have h2 : a.pid = b.pid := Nat.repr_injective (String.toList_injective hpid)
  cases a
  cases b
  simp only at h1 h2
  rw [h1, h2]

/-! ## What the file records -/

/-- The file has a record of the end of the operation. -/
def UpdateState.Ended (s : UpdateState) (id : String) : Prop :=
  ∃ op, s.operation = some op ∧ op.id = id ∧ (op.status = .succeeded ∨ op.status = .failed)

/-- The file has a record of the operation. -/
def UpdateState.Records (s : UpdateState) (id : String) : Prop :=
  ∃ op, s.operation = some op ∧ op.id = id

/-- After the end is recorded the file has it. -/
theorem ended_finish (s : UpdateState) (id : String) (outcome : Except String Result)
    (finishedAt : ℤ) : (s.finish id outcome finishedAt).Ended id := by
  refine ⟨endedOperation id outcome finishedAt, rfl, ?_⟩
  cases outcome with
  | ok result => exact ⟨rfl, .inl rfl⟩
  | error error => exact ⟨rfl, .inr rfl⟩

/-- When the agent starts again, whatever was recorded has ended. -/
theorem ended_recover {s : UpdateState} {id : String} (h : s.Records id) (finishedAt : ℤ) :
    (s.recover finishedAt).Ended id := by
  obtain ⟨op, hop, hid⟩ := h
  unfold UpdateState.recover
  by_cases hbusy : s.busy = true
  · rw [if_pos hbusy]
    refine ⟨op.cutOff finishedAt, ?_, hid, .inr rfl⟩
    rw [hop]
    rfl
  · rw [if_neg hbusy]
    refine ⟨op, hop, hid, ?_⟩
    unfold UpdateState.busy at hbusy
    rw [hop] at hbusy
    cases hstatus : op.status with
    | queued => simp [hstatus] at hbusy
    | running => simp [hstatus] at hbusy
    | succeeded => exact .inl rfl
    | failed => exact .inr rfl

/-- The file says that the operation is queued or running. -/
def UpdateState.Pending (s : UpdateState) (id : String) : Prop :=
  ∃ op, s.operation = some op ∧ op.id = id ∧ (op.status = .queued ∨ op.status = .running)

/-- What the agent knows of the operation it has accepted last. -/
def Agent.Follows (a : Agent) (id : String) : Prop :=
  match a.worker with
  | some (.starting i) => i = id ∧ a.file.Pending id
  | some (.running i) => i = id ∧ a.file.Pending id
  | some (.written i) => i = id ∧ a.file.operation = none
  | some .leaving => a.file.Ended id
  | none => if a.alive then a.file.Ended id else a.file.Records id

/-- A pending operation is on record. -/
theorem UpdateState.Pending.records {s : UpdateState} {id : String} (h : s.Pending id) :
    s.Records id := by
  obtain ⟨op, hop, hid, -⟩ := h
  exact ⟨op, hop, hid⟩

/-- An ended operation is on record. -/
theorem UpdateState.Ended.records {s : UpdateState} {id : String} (h : s.Ended id) :
    s.Records id := by
  obtain ⟨op, hop, hid, -⟩ := h
  exact ⟨op, hop, hid⟩

/-- Unless the action has just written the file, it has a record of the operation. -/
theorem Agent.Follows.records {a : Agent} {id : String} (h : a.Follows id)
    (hnot : ∀ i, a.worker ≠ some (.written i)) : a.file.Records id := by
  unfold Agent.Follows at h
  cases hworker : a.worker with
  | none =>
    rw [hworker] at h
    cases halive : a.alive with
    | true =>
      have hended : a.file.Ended id := by simpa [halive] using h
      exact hended.records
    | false => simpa [halive] using h
  | some w =>
    rw [hworker] at h
    cases w with
    | starting i => exact h.2.records
    | running i => exact h.2.records
    | written i => exact absurd hworker (hnot i)
    | leaving =>
      have hended : a.file.Ended id := h
      exact hended.records

structure AgentInv (a : Agent) : Prop where
  idle : a.accepted = [] → a.worker = none
  stopped : a.alive = false → a.worker = none
  distinct : a.accepted.Nodup
  follows : ∀ acceptance earlier, a.accepted = acceptance :: earlier →
    a.Follows acceptance.operationId

/-- The invariant holds at the start. -/
theorem Agent.Initial.inv {a : Agent} (h : a.Initial) : AgentInv a := by
  refine ⟨fun _ => h.worker, fun _ => h.worker, ?_, ?_⟩
  · rw [h.accepted]
    exact List.nodup_nil
  · intro acceptance earlier heq
    rw [h.accepted] at heq
    cases heq

/-- When the agent runs and no thread does, the file has the end of the operation. -/
theorem Agent.Follows.idle {a : Agent} {id : String} (h : a.Follows id)
    (halive : a.alive = true) (hworker : a.worker = none) : a.file.Ended id := by
  unfold Agent.Follows at h
  rw [hworker] at h
  simpa [halive] using h

/-- An acceptance is of a second and a process that none was accepted in before, and a crash does
not fall between the action's write of the file and the record of its end. -/
structure Careful (a b : Agent) : Prop where
  fresh : ∀ acceptance, b.accepted = acceptance :: a.accepted → acceptance ∉ a.accepted
  crash : a.alive = true → b.alive = false → ∀ id, a.worker ≠ some (.written id)

/-- A change that keeps the operations that were accepted. -/
theorem AgentInv.of_follows {a b : Agent} (hinv : AgentInv a)
    (haccepted : b.accepted = a.accepted) (hidle : a.worker = none → b.worker = none)
    (hstopped : b.alive = false → b.worker = none)
    (hfollows : ∀ id, a.Follows id → b.Follows id) : AgentInv b := by
  refine ⟨?_, hstopped, ?_, ?_⟩
  · rw [haccepted]
    exact fun h => hidle (hinv.idle h)
  · rw [haccepted]
    exact hinv.distinct
  · rw [haccepted]
    exact fun acceptance earlier h => hfollows _ (hinv.follows acceptance earlier h)

/-- A thread goes on. -/
theorem AgentInv.of_thread {a b : Agent} (hinv : AgentInv a) {w : Worker}
    (hworker : a.worker = some w) (haccepted : b.accepted = a.accepted)
    (halive : b.alive = a.alive) (hfollows : ∀ id, a.Follows id → b.Follows id) :
    AgentInv b := by
  refine hinv.of_follows haccepted ?_ ?_ hfollows
  · intro hnone
    rw [hworker] at hnone
    cases hnone
  · intro hstopped
    rw [halive] at hstopped
    have hnone := hinv.stopped hstopped
    rw [hworker] at hnone
    cases hnone

/-- An acceptance under a new id keeps the invariant. -/
theorem AgentInv.accept {a : Agent} (hinv : AgentInv a) {acceptance : Acceptance} {action : String}
    {startedAt : ℤ} (halive : a.alive = true) (hfresh : acceptance ∉ a.accepted) :
    AgentInv { a with
      file := a.file.queue acceptance.operationId action startedAt
      worker := some (.starting acceptance.operationId)
      accepted := acceptance :: a.accepted } := by
  refine ⟨?_, ?_, List.nodup_cons.mpr ⟨hfresh, hinv.distinct⟩, ?_⟩
  · intro heq
    cases heq
  · intro hstopped
    rw [halive] at hstopped
    cases hstopped
  · intro last earlier heq
    cases heq
    exact ⟨rfl, _, rfl, rfl, .inl rfl⟩

/-- The action's write of the file keeps the thread of the operation. -/
theorem AgentInv.write {a : Agent} (hinv : AgentInv a) {i : String} {file : UpdateState}
    (hfile : file.operation = none) (hworker : a.worker = some (.running i)) :
    AgentInv { a with file := file, worker := some (.written i) } := by
  refine hinv.of_thread hworker rfl rfl fun j h => ?_
  unfold Agent.Follows at h
  rw [hworker] at h
  exact ⟨h.1, hfile⟩

/-- Every careful step keeps the invariant. -/
theorem AgentInv.step {a b : Agent} (hinv : AgentInv a) (hstep : AgentStep a b)
    (hcareful : Careful a b) : AgentInv b := by
  cases hstep with
  | accept acceptance action startedAt halive hbusy hlock =>
    exact hinv.accept halive (hcareful.fresh acceptance rfl)
  | check checked halive hbusy hlock =>
    exact hinv.of_follows rfl id hinv.stopped fun i h => h
  | start i hworker =>
    refine hinv.of_thread hworker rfl rfl fun j h => ?_
    unfold Agent.Follows at h
    rw [hworker] at h
    obtain ⟨rfl, op, hop, hid, -⟩ := h
    refine ⟨rfl, startedOperation a.file.operation i, rfl, ?_⟩
    unfold startedOperation
    rw [hop]
    exact ⟨rfl, .inr rfl⟩
  | writeUpdate i previous target backup now hworker => exact hinv.write rfl hworker
  | writeRollback i current target reverseBackup now hworker => exact hinv.write rfl hworker
  | finish i outcome finishedAt hworker =>
    rcases hworker with hworker | hworker
    · refine hinv.of_thread hworker rfl rfl fun j h => ?_
      unfold Agent.Follows at h
      rw [hworker] at h
      obtain ⟨rfl, -⟩ := h
      exact ended_finish a.file i outcome finishedAt
    · refine hinv.of_thread hworker rfl rfl fun j h => ?_
      unfold Agent.Follows at h
      rw [hworker] at h
      obtain ⟨rfl, -⟩ := h
      exact ended_finish a.file i outcome finishedAt
  | leave hworker =>
    refine hinv.of_follows rfl (fun _ => rfl) (fun _ => rfl) fun j h => ?_
    unfold Agent.Follows at h
    rw [hworker] at h
    have hended : a.file.Ended j := h
    cases halive : a.alive with
    | true => simpa [Agent.Follows, halive] using hended
    | false => simpa [Agent.Follows, halive] using hended.records
  | crash halive =>
    refine hinv.of_follows rfl (fun _ => rfl) (fun _ => rfl) fun j h => ?_
    have hrecords := h.records (hcareful.crash halive rfl)
    simpa [Agent.Follows] using hrecords
  | restart finishedAt halive =>
    have hworker := hinv.stopped halive
    refine hinv.of_follows rfl id (fun _ => hworker) fun j h => ?_
    unfold Agent.Follows at h
    rw [hworker, halive] at h
    have hended := ended_recover (show a.file.Records j from h) finishedAt
    simpa [Agent.Follows, hworker] using hended

/-- A run of careful steps. -/
abbrev CarefulRun : Agent → Agent → Prop :=
  Relation.ReflTransGen fun a b => AgentStep a b ∧ Careful a b

/-- The invariant holds in every state of a careful run. -/
theorem careful_inv {start a : Agent} (hstart : start.Initial) (hrun : CarefulRun start a) :
    AgentInv a := by
  induction hrun with
  | refl => exact hstart.inv
  | tail _ hstep ih => exact ih.step hstep.1 hstep.2

/-- The ids of the accepted operations differ, and when the agent runs and no operation does, the
file says how the last one ended. -/
structure Accounted (a : Agent) : Prop where
  distinct : (a.accepted.map Acceptance.operationId).Nodup
  ended : ∀ acceptance earlier, a.accepted = acceptance :: earlier → a.alive = true →
    a.worker = none ∨ a.worker = some .leaving → a.file.Ended acceptance.operationId
  same : ∀ acceptance earlier op, a.accepted = acceptance :: earlier →
    a.file.operation = some op → op.id = acceptance.operationId

/-- Under the invariant the accepted operations are accounted for. -/
theorem AgentInv.accounted {a : Agent} (hinv : AgentInv a) : Accounted a := by
  refine ⟨hinv.distinct.map operationId_injective, ?_, ?_⟩
  · intro acceptance earlier haccepted halive hworker
    have hfollows := hinv.follows acceptance earlier haccepted
    rcases hworker with hworker | hworker
    · exact hfollows.idle halive hworker
    · unfold Agent.Follows at hfollows
      rw [hworker] at hfollows
      exact hfollows
  · intro acceptance earlier op haccepted hop
    have hfollows := hinv.follows acceptance earlier haccepted
    by_cases hwritten : ∃ i, a.worker = some (.written i)
    · obtain ⟨i, hworker⟩ := hwritten
      unfold Agent.Follows at hfollows
      rw [hworker] at hfollows
      rw [hfollows.2] at hop
      cases hop
    · obtain ⟨op', hop', hid⟩ := hfollows.records fun i hi => hwritten ⟨i, hi⟩
      rw [hop] at hop'
      cases hop'
      exact hid

/-- In every run whose acceptances are fresh and whose crashes do not fall between the action's
write of the file and the record of its end, every accepted operation is accounted for. -/
theorem operations_accounted (start a : Agent) (hstart : start.Initial)
    (hrun : CarefulRun start a) : Accounted a :=
  (careful_inv hstart hrun).accounted

namespace Operations

def start : Agent := ⟨{}, true, none, []⟩

/-- The fixture starts with no operation. -/
theorem start_initial : start.Initial := ⟨rfl, rfl, rfl, rfl⟩

def first : Acceptance := ⟨100, 7⟩

/-- The operation is accepted, and its thread has the lock. -/
def started : Agent where
  file := (start.file.queue first.operationId "apply" 0).start first.operationId
  alive := true
  worker := some (.running first.operationId)
  accepted := [first]

/-- The state in which the thread has started is reached. -/
theorem reach_started : Relation.ReflTransGen AgentStep start started :=
  (Relation.ReflTransGen.single (.accept start first "apply" 0 rfl rfl rfl)).tail
    (.start _ first.operationId rfl)

/-- An operation that fails at once leaves its id to the next one in the same second. -/
theorem same_second :
    ∃ a, Relation.ReflTransGen AgentStep start a ∧
      a.accepted.map Acceptance.operationId = [first.operationId, first.operationId] := by
  have hended := reach_started.tail
    (.finish started first.operationId (.error "Run an update check") 1 (.inl rfl))
  have hleft := hended.tail (.leave _ rfl)
  have haccepted := hleft.tail (.accept _ first "apply" 2 rfl rfl rfl)
  exact ⟨_, haccepted, rfl⟩

/-- A crash after the write of `apply_update` leaves no record of the operation. -/
theorem crash_after_write :
    ∃ a, Relation.ReflTransGen AgentStep start a ∧ a.alive = true ∧ a.worker = none ∧
      a.accepted = [first] ∧ a.file.operation = none := by
  have hwritten := reach_started.tail
    (.writeUpdate started first.operationId "a" "b" "before-a.dump" 1 rfl)
  have hcrashed := hwritten.tail (.crash _ rfl)
  have hrestarted := hcrashed.tail (.restart _ 2 rfl)
  exact ⟨_, hrestarted, rfl, rfl, rfl, rfl⟩

/-- Two operations may be accepted under one id, and one may end without a record. -/
theorem operations_not_accounted :
    start.Initial ∧ (∃ a, Relation.ReflTransGen AgentStep start a ∧
        ¬ (a.accepted.map Acceptance.operationId).Nodup) ∧
      ∃ a, Relation.ReflTransGen AgentStep start a ∧ a.alive = true ∧ a.worker = none ∧
        ∃ acceptance, a.accepted = [acceptance] ∧ ¬ a.file.Ended acceptance.operationId := by
  refine ⟨start_initial, ?_, ?_⟩
  · obtain ⟨a, hreach, hids⟩ := same_second
    refine ⟨a, hreach, ?_⟩
    rw [hids]
    simp
  · obtain ⟨a, hreach, halive, hworker, haccepted, hnone⟩ := crash_after_write
    refine ⟨a, hreach, halive, hworker, first, haccepted, ?_⟩
    rintro ⟨op, hop, -⟩
    rw [hnone] at hop
    cases hop

/-- After a crash in the middle of an operation, the agent records that it failed. -/
theorem operations_accounted_crash :
    ∃ a, CarefulRun start a ∧ a.accepted = [first] ∧ a.worker = none ∧ Accounted a := by
  have hcareful {b c : Agent} (haccepted : c.accepted = b.accepted)
      (hworker : ∀ id, b.worker ≠ some (.written id)) : Careful b c := by
    refine ⟨fun acceptance heq => ?_, fun _ _ => hworker⟩
    rw [haccepted] at heq
    exact absurd heq.symm (List.cons_ne_self _ _)
  have haccept : CarefulRun start { start with
      file := start.file.queue first.operationId "apply" 0
      worker := some (.starting first.operationId)
      accepted := [first] } := by
    refine .single ⟨.accept start first "apply" 0 rfl rfl rfl, fun acceptance _ => ?_, ?_⟩
    · exact List.not_mem_nil
    · intro _ hstopped
      cases hstopped
  have hstarted : CarefulRun start started := haccept.tail
    ⟨.start _ first.operationId rfl, hcareful rfl (fun id h => by cases h)⟩
  have hcrashed := hstarted.tail ⟨.crash started rfl, hcareful rfl (fun id h => by cases h)⟩
  have hrestarted := hcrashed.tail ⟨.restart _ 2 rfl, hcareful rfl (fun id h => by cases h)⟩
  exact ⟨_, hrestarted, rfl, rfl, operations_accounted start _ start_initial hrestarted⟩

end Operations

end LabGoblin.Updater
