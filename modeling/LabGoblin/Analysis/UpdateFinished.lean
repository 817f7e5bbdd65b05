import LabGoblin.Model.UpdateRuns
import Mathlib.Logic.Relation

/-!
# Finished update runs

`status` looks at the latest run only. If the run that waits for the reported operation is the
latest one whenever `status` looks, every run whose operation was reported as ended is finished,
and stays so.
-/

set_option autoImplicit false

namespace LabGoblin.Updater

open Interactive

/-! ## One call of `status` -/

/-- Every run that waits for the reported operation, if that has ended, is the latest run. -/
def ReportsLatest (s : Service) (reported : Option Operation) : Prop :=
  ∀ op outcome, endedReport reported = some (op, outcome) → ∀ run ∈ s.runs.rows,
    run.awaits op = true → s.latest = some run

/-- The status of a run. -/
def statusOf (runs : Table DeploymentUpdateRun (·.id)) (id : ℕ) : Option RunStatus :=
  (runs.get? id).map (·.status)

/-- The status of a run in the table is found by its id. -/
theorem statusOf_of_mem {runs : Table DeploymentUpdateRun (·.id)} {run : DeploymentUpdateRun}
    (h : run ∈ runs.rows) : statusOf runs run.id = some run.status := by
  unfold statusOf
  rw [Table.get?_of_mem h]
  rfl

/-- A run that waits for an operation is queued. -/
theorem awaits_queued {run : DeploymentUpdateRun} {op : Operation} (h : run.awaits op = true) :
    run.status = .queued := by
  unfold DeploymentUpdateRun.awaits at h
  simp only [Bool.and_eq_true, decide_eq_true_eq] at h
  exact h.1.1

/-- An operation ends with success or failure. -/
theorem outcome_of_endedReport {reported : Option Operation} {op : Operation}
    {outcome : RunStatus} (h : endedReport reported = some (op, outcome)) :
    outcome = .success ∨ outcome = .failed := by
  unfold endedReport at h
  obtain ⟨op', -, hmap⟩ := Option.bind_eq_some_iff.mp h
  obtain ⟨found, hfound, heq⟩ := Option.map_eq_some_iff.mp hmap
  cases heq
  unfold Operation.outcome at hfound
  split at hfound
  · exact .inl (Option.some.inj hfound).symm
  · exact .inr (Option.some.inj hfound).symm
  · cases hfound

/-- The runs that a report finishes are those that wait for its operation. -/
theorem mem_finished {s : Service} {reported : Option Operation} {id : ℕ} {outcome : RunStatus} :
    (id, outcome) ∈ s.finished reported ↔ ∃ op run, endedReport reported = some (op, outcome) ∧
      run ∈ s.runs.rows ∧ run.awaits op = true ∧ run.id = id := by
  unfold Service.finished
  cases hreport : endedReport reported with
  | none => simp
  | some report =>
    obtain ⟨op, found⟩ := report
    show (id, outcome) ∈ (s.runs.rows.filter (·.awaits op)).map (fun run => (run.id, found)) ↔ _
    rw [List.mem_map]
    constructor
    · rintro ⟨run, hrun, heq⟩
      cases heq
      obtain ⟨hmem, hawaits⟩ := List.mem_filter.mp hrun
      exact ⟨op, run, rfl, hmem, hawaits, rfl⟩
    · rintro ⟨op', run, heq, hmem, hawaits, rfl⟩
      cases heq
      exact ⟨run, List.mem_filter.mpr ⟨hmem, hawaits⟩, rfl⟩

/-- The latest run is in the table. -/
theorem latest_mem {s : Service} {run : DeploymentUpdateRun} (h : s.latest = some run) :
    run ∈ s.runs.rows := List.mem_of_find?_eq_some h

/-- The run that a call of `status` finishes: the latest one, if the report says that its
operation has ended. -/
def Service.finishes (s : Service) (reported : Option Operation) (id : ℕ) (outcome : RunStatus) :
    Prop :=
  ∃ op latest, endedReport reported = some (op, outcome) ∧ s.latest = some latest ∧
    latest.awaits op = true ∧ latest.id = id

/-- A run that a call of `status` finishes has the outcome of its operation. -/
theorem statusOf_settle_of_finishes {s : Service} {reported : Option Operation} {id : ℕ}
    {outcome : RunStatus} (h : s.finishes reported id outcome) (now : ℤ) :
    statusOf (s.settle reported now) id = some outcome := by
  obtain ⟨op, latest, hreport, hlatest, hawaits, rfl⟩ := h
  unfold Service.settle
  rw [hreport, hlatest]
  show statusOf (if latest.awaits op then _ else _) latest.id = _
  rw [if_pos hawaits]
  unfold statusOf
  rw [Table.get?_update_self, Table.get?_of_mem (latest_mem hlatest)]
  rfl

/-- Every other run keeps its status. -/
theorem statusOf_settle_of_not {s : Service} {reported : Option Operation} {id : ℕ}
    (h : ∀ outcome, ¬ s.finishes reported id outcome) (now : ℤ) :
    statusOf (s.settle reported now) id = statusOf s.runs id := by
  unfold Service.settle
  cases hreport : endedReport reported with
  | none => rfl
  | some report =>
    obtain ⟨op, outcome⟩ := report
    cases hlatest : s.latest with
    | none => rfl
    | some latest =>
      show statusOf (if latest.awaits op then _ else _) id = _
      by_cases hawaits : latest.awaits op = true
      · rw [if_pos hawaits]
        have hne : id ≠ latest.id := by
          rintro rfl
          exact h outcome ⟨op, latest, hreport, hlatest, hawaits, rfl⟩
        unfold statusOf
        rw [Table.get?_update_of_ne _ _ _ hne]
      · rw [if_neg hawaits]

/-- A call of `status` finishes every run whose operation it finds ended exactly when the run that
waits for the operation is the latest one. -/
theorem settles_iff (s : Service) (reported : Option Operation) (now : ℤ) :
    (∀ id outcome, (id, outcome) ∈ s.finished reported →
        statusOf (s.settle reported now) id = some outcome) ↔ ReportsLatest s reported := by
  constructor
  · intro h op outcome hreport run hrun hawaits
    have hstatus := h run.id outcome (mem_finished.mpr ⟨op, run, hreport, hrun, hawaits, rfl⟩)
    by_cases hfinishes : ∃ found, s.finishes reported run.id found
    · obtain ⟨found, op', latest, -, hlatest, -, hid⟩ := hfinishes
      have heq : latest = run := s.runs.eq_of_key_eq (latest_mem hlatest) hrun hid
      rw [hlatest, heq]
    -- otherwise the run is still queued
    · have hnot := statusOf_settle_of_not (fun found hf => hfinishes ⟨found, hf⟩) now
      rw [hnot, statusOf_of_mem hrun, awaits_queued hawaits] at hstatus
      cases hstatus
      rcases outcome_of_endedReport hreport with heq | heq
      · cases heq
      · cases heq
  · intro h id outcome hfinished
    obtain ⟨op, run, hreport, hrun, hawaits, hid⟩ := mem_finished.mp hfinished
    have hlatest := h op outcome hreport run hrun hawaits
    exact statusOf_settle_of_finishes ⟨op, run, hreport, hlatest, hawaits, hid⟩ now

/-! ## Runs of the service -/

/-- The runs in progress, and the runs that were reported. -/
structure ServiceInv (s : Service) : Prop where
  distinct : (s.calls.map (·.runId)).Nodup
  running : ∀ c ∈ s.calls, statusOf s.runs c.runId = some .running
  finished : ∀ id outcome, (id, outcome) ∈ s.reported →
    (outcome = .success ∨ outcome = .failed) ∧ statusOf s.runs id = some outcome

/-- The invariant holds at the start. -/
theorem Service.Initial.inv {s : Service} (h : s.Initial) : ServiceInv s := by
  refine ⟨?_, ?_, ?_⟩
  · rw [h.calls]
    exact List.nodup_nil
  · rw [h.calls]
    intro c hc
    cases hc
  · rw [h.reported]
    intro id outcome hmem
    cases hmem

/-- A change that keeps the runs and the reports, and which runs are in progress. -/
theorem ServiceInv.of_same {s t : Service} (hinv : ServiceInv s) (hruns : t.runs = s.runs)
    (hcalls : t.calls.map (·.runId) = s.calls.map (·.runId)) (hreported : t.reported = s.reported) :
    ServiceInv t := by
  refine ⟨?_, ?_, ?_⟩
  · rw [hcalls]
    exact hinv.distinct
  · intro c hc
    have hid : c.runId ∈ s.calls.map (·.runId) := by
      rw [← hcalls]
      exact List.mem_map_of_mem hc
    obtain ⟨c', hc', heq⟩ := List.mem_map.mp hid
    rw [hruns, ← heq]
    exact hinv.running c' hc'
  · rw [hruns, hreported]
    exact hinv.finished

/-- A call that goes on is the call of the same run. -/
theorem map_runId_replace {calls before after : List Call} {runId : ℕ}
    {answer answer' : Option Answer} (hcalls : calls = before ++ ⟨runId, answer⟩ :: after) :
    (before ++ ⟨runId, answer'⟩ :: after : List Call).map (·.runId) = calls.map (·.runId) := by
  rw [hcalls]
  simp

/-- A new run is running, and the others keep their status. -/
theorem statusOf_record (s : Service) (requestedBy : Option ℕ) (action : String) (id : ℕ) :
    statusOf (s.record requestedBy action).runs id =
      if id = s.runs.next then some .running else statusOf s.runs id := by
  unfold statusOf Service.record Table.add
  rw [Table.get?_append]
  by_cases hid : id = s.runs.next
  · rw [if_pos hid, if_pos hid]
    rfl
  · rw [if_neg hid, if_neg hid, Table.get?_reserve]

/-- A run that has a status has an id below the next one. -/
theorem lt_next_of_statusOf {runs : Table DeploymentUpdateRun (·.id)} {id : ℕ}
    {status : RunStatus} (h : statusOf runs id = some status) : id < runs.next := by
  unfold statusOf at h
  obtain ⟨run, hrun, -⟩ := Option.map_eq_some_iff.mp h
  exact Table.lt_next_of_get? hrun

/-- Recording a run keeps the invariant. -/
theorem ServiceInv.record {s : Service} (hinv : ServiceInv s) (requestedBy : Option ℕ)
    (action : String) : ServiceInv (s.record requestedBy action) := by
  have hold {id : ℕ} {status : RunStatus} (h : statusOf s.runs id = some status) :
      statusOf (s.record requestedBy action).runs id = some status := by
    have hlt := lt_next_of_statusOf h
    rw [statusOf_record, if_neg (Nat.ne_of_lt hlt), h]
  refine ⟨?_, ?_, ?_⟩
  · refine List.nodup_cons.mpr ⟨fun hmem => ?_, hinv.distinct⟩
    obtain ⟨c, hc, heq⟩ := List.mem_map.mp hmem
    have hlt := lt_next_of_statusOf (hinv.running c hc)
    have heq : c.runId = s.runs.next := heq
    omega
  · intro c hc
    rcases List.mem_cons.mp hc with rfl | hc
    · rw [statusOf_record, if_pos rfl]
    · exact hold (hinv.running c hc)
  · intro id outcome hmem
    obtain ⟨houtcome, hstatus⟩ := hinv.finished id outcome hmem
    exact ⟨houtcome, hold hstatus⟩

/-- Committing a call changes the run of that call only. -/
theorem ServiceInv.commit {s : Service} (hinv : ServiceInv s) {before after : List Call}
    {runId : ℕ} {answer : Answer} (now : ℤ)
    (hcalls : s.calls = before ++ ⟨runId, some answer⟩ :: after) :
    ServiceInv { s with
      runs := s.runs.update runId (·.answered answer now) fun run => run.answered_id answer now
      calls := before ++ after } := by
  have hdistinct := hinv.distinct
  rw [hcalls, List.map_append, List.map_cons] at hdistinct
  have hothers : runId ∉ (before ++ after).map (·.runId) := by
    have hperm := List.nodup_middle.mp hdistinct
    rw [List.map_append]
    exact (List.nodup_cons.mp hperm).1
  have hkeep {id : ℕ} (hne : id ≠ runId) :
      statusOf (s.runs.update runId (·.answered answer now) fun run =>
        run.answered_id answer now) id = statusOf s.runs id := by
    unfold statusOf
    rw [Table.get?_update_of_ne _ _ _ hne]
  refine ⟨?_, ?_, ?_⟩
  · have hperm := List.nodup_middle.mp hdistinct
    rw [List.map_append]
    exact (List.nodup_cons.mp hperm).2
  · intro c hc
    have hne : c.runId ≠ runId := by
      rintro rfl
      exact hothers (List.mem_map_of_mem hc)
    have hmem : c ∈ s.calls := by
      rw [hcalls]
      rcases List.mem_append.mp hc with hc | hc
      · exact List.mem_append_left _ hc
      · exact List.mem_append_right _ (List.mem_cons_of_mem _ hc)
    exact (hkeep hne).trans (hinv.running c hmem)
  · intro id outcome hmem
    obtain ⟨houtcome, hstatus⟩ := hinv.finished id outcome hmem
    have hne : id ≠ runId := by
      rintro rfl
      have hrunning := hinv.running ⟨id, some answer⟩ (by rw [hcalls]; simp)
      rw [hstatus] at hrunning
      rcases houtcome with rfl | rfl
      · cases hrunning
      · cases hrunning
    exact ⟨houtcome, (hkeep hne).trans hstatus⟩

/-- A call of `status` finishes queued runs only. -/
theorem statusOf_settle_of_ne_queued {s : Service} {reported : Option Operation} {id : ℕ}
    {status : RunStatus} (hstatus : statusOf s.runs id = some status) (hne : status ≠ .queued)
    (now : ℤ) : statusOf (s.settle reported now) id = some status := by
  rw [statusOf_settle_of_not, hstatus]
  rintro outcome ⟨op, latest, -, hlatest, hawaits, rfl⟩
  rw [statusOf_of_mem (latest_mem hlatest), awaits_queued hawaits] at hstatus
  exact hne (Option.some.inj hstatus).symm

/-- A call of `status` keeps the invariant, when every run that waits for the reported operation is
the latest one. -/
theorem ServiceInv.settle {s : Service} (hinv : ServiceInv s) {reported : Option Operation}
    (polls : List (Option Operation)) (now : ℤ) (hlatest : ReportsLatest s reported) :
    ServiceInv { s with
      runs := s.settle reported now
      polls := polls
      reported := s.finished reported ++ s.reported } := by
  refine ⟨hinv.distinct, ?_, ?_⟩
  · intro c hc
    exact statusOf_settle_of_ne_queued (hinv.running c hc) (by simp) now
  · intro id outcome hmem
    rcases List.mem_append.mp hmem with hmem | hmem
    · obtain ⟨op, run, hreport, -⟩ := mem_finished.mp hmem
      have hsettled := (settles_iff s reported now).mpr hlatest
      exact ⟨outcome_of_endedReport hreport, hsettled id outcome hmem⟩
    · obtain ⟨houtcome, hstatus⟩ := hinv.finished id outcome hmem
      have hne : outcome ≠ .queued := by
        rcases houtcome with rfl | rfl
        · simp
        · simp
      exact ⟨houtcome, statusOf_settle_of_ne_queued hstatus hne now⟩

/-- Every step in which reports are about the latest run keeps the invariant. -/
theorem ServiceInv.step {s t : Service} (hinv : ServiceInv s)
    (hstep : ServiceStep ReportsLatest s t) : ServiceInv t := by
  cases hstep with
  | run requestedBy action targetRef haction htarget => exact hinv.record requestedBy action
  | accept before after runId operationId action startedAt hcalls hfree =>
    exact hinv.of_same rfl (map_runId_replace hcalls) rfl
  | answer before after runId result haccepted hcalls =>
    exact hinv.of_same rfl (map_runId_replace hcalls) rfl
  | unavailable before after runId answer text hcalls =>
    exact hinv.of_same rfl (map_runId_replace hcalls) rfl
  | commit before after runId answer now hcalls => exact hinv.commit now hcalls
  | progress op op' hop hopen hid => exact hinv.of_same rfl rfl rfl
  | poll reported hreported => exact hinv.of_same rfl rfl rfl
  | settle before after reported now hpolls hok => exact hinv.settle (before ++ after) now hok

abbrev ServiceReach (ok : Service → Option Operation → Prop) : Service → Service → Prop :=
  Relation.ReflTransGen (ServiceStep ok)

/-- Every run whose operation a call of `status` found ended is finished accordingly. -/
def Finalised (s : Service) : Prop :=
  ∀ id outcome, (id, outcome) ∈ s.reported → statusOf s.runs id = some outcome

/-- In every run of the service in which, whenever a call of `status` looks, the run that waits for
the operation it found ended is the latest one, such runs are finished. Where it is not, the call
leaves a run queued. -/
theorem runs_finalised (start s : Service) (hstart : start.Initial)
    (hreach : ServiceReach ReportsLatest start s) :
    Finalised s ∧ ∀ reported now,
      (∀ id outcome, (id, outcome) ∈ s.finished reported →
        statusOf (s.settle reported now) id = some outcome) ↔ ReportsLatest s reported := by
  have hinv : ServiceInv s := by
    induction hreach with
    | refl => exact hstart.inv
    | tail _ hstep ih => exact ih.step hstep
  exact ⟨fun id outcome hmem => (hinv.finished id outcome hmem).2, settles_iff s⟩

namespace Runs

def start : Service := ⟨.empty, [], [], none, []⟩

/-- The fixture starts with no run. -/
theorem start_initial : start.Initial := ⟨rfl, rfl, rfl⟩

def target : String := "aaaaaaaaaaaaaaaaaaaaaaaaaaaaaaaaaaaaaaaa"

/-- The agent has accepted an update, and its run is queued. -/
def queued : Service :=
  let s := start.record (some 1) "apply"
  { s with
    runs := s.runs.update 1 (·.answered (.ok (acceptedAnswer "100-7")) 0) fun run =>
      run.answered_id (.ok (acceptedAnswer "100-7")) 0
    calls := []
    operation := some ⟨"100-7", some "apply", .queued, some 0, none, none, none⟩ }

variable {ok : Service → Option Operation → Prop}

/-- The state of the fixture with a queued run is reached. -/
theorem reach_queued : ServiceReach ok start queued := by
  have hrun : ServiceStep ok start (start.record (some 1) "apply") :=
    .run start (some 1) "apply" (some target) (by simp) (by decide +kernel)
  have haccept := (Relation.ReflTransGen.single hrun).tail
    (.accept _ [] [] 1 "100-7" "apply" 0 rfl fun op hop => by cases hop)
  exact haccept.tail (.commit _ [] [] 1 (.ok (acceptedAnswer "100-7")) 0 rfl)

/-- How the agent records that the update has succeeded. -/
def succeeded : Operation := { id := "100-7", status := .succeeded, finishedAt := some 5 }

/-- A check that is recorded before `status` is called leaves the update queued. -/
theorem queued_behind_check :
    start.Initial ∧ ∃ s, ServiceReach (fun _ _ => True) start s ∧ ¬ Finalised s := by
  refine ⟨start_initial, ?_⟩
  have hreach : ServiceReach (fun _ _ => True) start queued := reach_queued
  have hcheck := hreach.tail
    (.run queued none "check" none (by simp) (by decide +kernel))
  have hended := hcheck.tail (.progress _ _ succeeded rfl rfl rfl)
  have hpoll := hended.tail (.poll _ (some succeeded) (.inl rfl))
  have hsettled := hpoll.tail (.settle _ [] [] (some succeeded) 6 rfl trivial)
  refine ⟨_, hsettled, fun hfinalised => ?_⟩
  have hstatus := hfinalised 1 .success (by decide)
  exact absurd hstatus (by decide)

/-- Without the check the update is finished. -/
theorem runs_finalised_update :
    ∃ s, ServiceReach ReportsLatest start s ∧ s.reported = [(1, .success)] ∧ Finalised s := by
  have hreach : ServiceReach ReportsLatest start queued := reach_queued
  have hended := hreach.tail (.progress _ _ succeeded rfl rfl rfl)
  have hpoll := hended.tail (.poll _ (some succeeded) (.inl rfl))
  have hlatest : ReportsLatest { queued with
      operation := some succeeded, polls := [some succeeded] } (some succeeded) := by
    have hall : ∀ run ∈ queued.runs.rows, queued.latest = some run := by decide +kernel
    exact fun op outcome _ run hrun _ => hall run hrun
  have hsettled := hpoll.tail (.settle _ [] [] (some succeeded) 6 rfl hlatest)
  exact ⟨_, hsettled, rfl, (runs_finalised start _ start_initial hsettled).1⟩

end Runs

end LabGoblin.Updater
