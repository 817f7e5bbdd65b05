import LabGoblin.Analysis.EventPages

/-!
# What the filters of the feed do

The type filter looks at labels, and the label of a telemetry event is the type that was asked
for. The severity filter is applied to the telemetry rows only, and to the severity as it is
stored. So the filtered feed is a part of the unfiltered one exactly where no event tells the
difference.
-/

set_option autoImplicit false

namespace LabGoblin.Feed

open Interactive

variable {env : Env} {db : Db} {organizationId : ℕ} {p : Params}

/-- The request without its type and severity filters. -/
def Params.unfiltered (p : Params) : Params := { p with type := none, severity := none }

/-- Whether the severity filter asks for a severity. -/
def admitsSeverity (p : Params) (severity : String) : Bool := (given p.severity).all (severity = ·)

/-- The pages of the filtered feed are the items of the unfiltered feed that have the type and the
severity. -/
def FiltersSelect (env : Env) (db : Db) (organizationId : ℕ) (p : Params) : Prop :=
  (listPages env db organizationId p (pageLimit p.limit)).Perm
    ((listPages env db organizationId p.unfiltered (pageLimit p.limit)).filter fun i =>
      admitsType p i.type && admitsSeverity p i.severity)

/-- No event tells the filters from a selection by label and severity: audit logs are not asked
for under a severity other than `info`, worker runs are asked for under their own severity, and
a telemetry row is selected where its own type and its normalized severity are asked for. -/
structure FiltersAgree (env : Env) (db : Db) (organizationId : ℕ) (p : Params) : Prop where
  audits : ∀ _a ∈ auditRows env db organizationId p, admitsType p "system" = true →
    admitsSeverity p "info" = true
  telemetry : ∀ t ∈ telemetryRows env db organizationId p.unfiltered,
    (admitsType p (telemetryType env p) = true ∧ admitsSeverity p t.severity = true ↔
      admitsType p (normalizeEventType env "system") = true ∧
        admitsSeverity p (normalizeSeverity env t.severity) = true)
  workers : ∀ w ∈ workerRows env db p, admitsType p "task" = true →
    admitsSeverity p (workerItem env w).severity = true

/-! ## Selections of one source -/

/-- Two selections of rows are made into the same items exactly where they select the same rows,
if an item that both make tells that its row is selected by the second. -/
theorem filter_map_perm_iff {α β : Type} {rows : List α} {P Q : α → Bool} {f g : α → β}
    (hQ : ∀ a b, P a = true → Q b = true → f a = g b → Q a = true)
    (hsame : ∀ a, P a = true → Q a = true → f a = g a) :
    ((rows.filter P).map f).Perm ((rows.filter Q).map g) ↔
      ∀ a ∈ rows, (P a = true ↔ Q a = true) := by
  constructor
  · intro hperm
    have hle : ∀ a ∈ rows, P a = true → Q a = true := by
      intro a ha hPa
      have hmem : f a ∈ (rows.filter P).map f :=
        List.mem_map_of_mem (List.mem_filter.mpr ⟨ha, hPa⟩)
      obtain ⟨b, hb, hfg⟩ := List.mem_map.mp (hperm.mem_iff.mp hmem)
      exact hQ a b hPa (List.mem_filter.mp hb).2 hfg.symm
    have hfilter : rows.filter P = (rows.filter Q).filter P := by
      rw [List.filter_filter]
      refine List.filter_congr fun a ha => ?_
      cases hPa : P a with
      | false => rfl
      | true => simp [hle a ha hPa]
    have hlength : (rows.filter P).length = (rows.filter Q).length := by
      simpa using hperm.length_eq
    have hequal : (rows.filter Q).filter P = rows.filter Q := by
      refine List.filter_sublist.eq_of_length ?_
      rw [← hfilter]
      exact hlength
    intro a ha
    refine ⟨hle a ha, fun hQa => ?_⟩
    have hmem : a ∈ rows.filter Q := List.mem_filter.mpr ⟨ha, hQa⟩
    rw [← hequal] at hmem
    exact (List.mem_filter.mp hmem).2
  · intro h
    have hfilter : rows.filter P = rows.filter Q :=
      List.filter_congr fun a ha => Bool.eq_iff_iff.mpr (h a ha)
    rw [hfilter]
    refine List.Perm.of_eq (List.map_congr_left fun a ha => ?_)
    obtain ⟨hmem, hQa⟩ := List.mem_filter.mp ha
    exact hsame a ((h a hmem).mpr hQa) hQa

/-- Lists in two parts that a test tells apart are permutations where their parts are. -/
theorem append_perm_iff {β : Type} {l l' m m' : List β} (P : β → Bool)
    (hl : ∀ b ∈ l, P b = true) (hl' : ∀ b ∈ l', P b = true) (hm : ∀ b ∈ m, P b = false)
    (hm' : ∀ b ∈ m', P b = false) : (l ++ m).Perm (l' ++ m') ↔ l.Perm l' ∧ m.Perm m' := by
  have hparts : ∀ {x y : List β}, (∀ b ∈ x, P b = true) → (∀ b ∈ y, P b = false) →
      (x ++ y).filter P = x ∧ (x ++ y).filter (fun b => !P b) = y := by
    intro x y hx hy
    constructor
    · rw [List.filter_append, List.filter_eq_self.mpr hx, List.filter_eq_nil_iff.mpr,
        List.append_nil]
      intro b hb
      simp [hy b hb]
    · rw [List.filter_append, List.filter_eq_nil_iff.mpr, List.filter_eq_self.mpr, List.nil_append]
      · intro b hb
        simp [hy b hb]
      · intro b hb
        simp [hx b hb]
  obtain ⟨hfirst, hsecond⟩ := hparts hl hm
  obtain ⟨hfirst', hsecond'⟩ := hparts hl' hm'
  constructor
  · intro h
    have hin := h.filter P
    have hout := h.filter fun b => !P b
    rw [hfirst, hfirst'] at hin
    rw [hsecond, hsecond'] at hout
    exact ⟨hin, hout⟩
  · rintro ⟨h, h'⟩
    exact h.append h'

/-- The type filter on a source is a filter on its rows. -/
theorem shown_eq_filter {α : Type} {type : String} {item : α → Item} {rows : List α} :
    shown p type item rows = (rows.filter fun _ => admitsType p type).map item := by
  unfold shown
  by_cases hadmits : admitsType p type = true
  · simp [hadmits]
  · simp [hadmits]

/-- The items of a source of the unfiltered feed that have the type and the severity. -/
def selected {α : Type} (p : Params) (item : α → Item) (rows : List α) : List Item :=
  (rows.filter fun a => admitsType p (item a).type && admitsSeverity p (item a).severity).map item

/-- The items of two groups have the source that both groups have. -/
theorem source_of_mem {α : Type} (item item' : α → Item) {source : String} {rows rows' : List α}
    (hitem : ∀ a, (item a).source = source) (hitem' : ∀ a, (item' a).source = source) :
    ∀ i ∈ rows.map item ++ rows'.map item', i.source = source := by
  intro i hi
  rcases List.mem_append.mp hi with hi | hi
  · obtain ⟨a, -, rfl⟩ := List.mem_map.mp hi
    exact hitem a
  · obtain ⟨a, -, rfl⟩ := List.mem_map.mp hi
    exact hitem' a

/-- Two feeds are permutations where their sources are. -/
theorem sources_perm_iff {a a' t t' w w' : List Item} (ha : ∀ i ∈ a ++ a', i.source = "audit_logs")
    (ht : ∀ i ∈ t ++ t', i.source = "telemetry_events")
    (hw : ∀ i ∈ w ++ w', i.source = "worker_runs") :
    (a ++ t ++ w).Perm (a' ++ t' ++ w') ↔ a.Perm a' ∧ t.Perm t' ∧ w.Perm w' := by
  simp only [List.mem_append] at ha ht hw
  rw [append_perm_iff fun i : Item => i.source ≠ "worker_runs",
    append_perm_iff fun i : Item => i.source = "audit_logs", and_assoc]
  · exact fun i hi => by simp [ha i (Or.inl hi)]
  · exact fun i hi => by simp [ha i (Or.inr hi)]
  · exact fun i hi => by simp [ht i (Or.inl hi)]
  · exact fun i hi => by simp [ht i (Or.inr hi)]
  · intro i hi
    rcases List.mem_append.mp hi with hi | hi
    · simp [ha i (Or.inl hi)]
    · simp [ht i (Or.inl hi)]
  · intro i hi
    rcases List.mem_append.mp hi with hi | hi
    · simp [ha i (Or.inr hi)]
    · simp [ht i (Or.inr hi)]
  · exact fun i hi => by simp [hw i (Or.inl hi)]
  · exact fun i hi => by simp [hw i (Or.inr hi)]

/-- The unfiltered feed after the selection, source by source. -/
theorem filter_matching_unfiltered :
    ((matching env db organizationId p.unfiltered).filter fun i =>
        admitsType p i.type && admitsSeverity p i.severity) =
      selected p (auditItem env) (auditRows env db organizationId p) ++
        selected p (telemetryItem env none) (telemetryRows env db organizationId p.unfiltered) ++
        selected p (workerItem env) (workerRows env db p) := by
  unfold matching selected
  have hall : ∀ i : Item, admitsType p.unfiltered i.type = true := fun _ => rfl
  rw [List.filter_eq_self.mpr fun i _ => hall i, List.filter_append, List.filter_append,
    List.filter_map, List.filter_map, List.filter_map]
  rfl

/-- The severity filter on telemetry is a filter on its rows. -/
theorem telemetryRows_eq :
    telemetryRows env db organizationId p =
      (telemetryRows env db organizationId p.unfiltered).filter fun t =>
        admitsSeverity p t.severity := by
  have hunfiltered : telemetryRows env db organizationId p.unfiltered =
      (db.telemetry.filter (visible db organizationId)).filter fun t =>
        matchesQuery env p.q [t.eventType] :=
    List.filter_eq_self.mpr fun _ _ => rfl
  rw [hunfiltered]
  rfl

/-- The filtered feed, source by source. -/
theorem matching_eq_filter :
    matching env db organizationId p =
      ((auditRows env db organizationId p).filter fun _ => admitsType p "system").map
          (auditItem env) ++
        ((telemetryRows env db organizationId p.unfiltered).filter fun t =>
          admitsType p (telemetryType env p) && admitsSeverity p t.severity).map
            (telemetryItem env p.type) ++
        ((workerRows env db p).filter fun _ => admitsType p "task").map (workerItem env) := by
  rw [matching_eq, shown_eq_filter, shown_eq_filter, shown_eq_filter, telemetryRows_eq,
    List.filter_filter]

/-! ## The sources -/

/-- Audit logs are selected rightly exactly when the severity filter lets them through, if the type
filter does. -/
theorem audits_perm_iff {rows : List AuditLog} :
    ((rows.filter fun _ => admitsType p "system").map (auditItem env)).Perm
        (selected p (auditItem env) rows) ↔
      ∀ _a ∈ rows, admitsType p "system" = true → admitsSeverity p "info" = true := by
  unfold selected
  refine (filter_map_perm_iff ?_ (fun _ _ _ => rfl)).trans ?_
  · intro a b _ hb _
    exact hb
  · refine forall₂_congr fun a _ => ?_
    simp [auditItem]

/-- Worker runs are selected rightly exactly when the severity filter lets them through, if the type
filter does. -/
theorem workers_perm_iff {rows : List WorkerRun} :
    ((rows.filter fun _ => admitsType p "task").map (workerItem env)).Perm
        (selected p (workerItem env) rows) ↔
      ∀ w ∈ rows, admitsType p "task" = true →
        admitsSeverity p (workerItem env w).severity = true := by
  unfold selected
  refine (filter_map_perm_iff ?_ (fun _ _ _ => rfl)).trans ?_
  · intro w v _ hv heq
    rw [heq]
    exact hv
  · refine forall₂_congr fun w _ => ?_
    have htype : (workerItem env w).type = "task" := rfl
    simp [htype]

/-- The label of a filtered telemetry item is that of the unfiltered one where the type filter
admits both. -/
theorem telemetryType_eq (h : admitsType p (telemetryType env p) = true)
    (h' : admitsType p (normalizeEventType env "system") = true) :
    telemetryType env p = normalizeEventType env "system" := by
  unfold admitsType at h h'
  cases htype : given p.type with
  | none =>
    unfold telemetryType
    rw [htype]
    rfl
  | some type =>
    rw [htype] at h h'
    simp only [Option.all_some, decide_eq_true_eq] at h h'
    rw [h, h']

/-- Telemetry is selected rightly exactly when the label of the answer is the type of the event. -/
theorem telemetry_perm_iff {rows : List TelemetryEvent} :
    ((rows.filter fun t =>
        admitsType p (telemetryType env p) && admitsSeverity p t.severity).map
          (telemetryItem env p.type)).Perm (selected p (telemetryItem env none) rows) ↔
      ∀ t ∈ rows, (admitsType p (telemetryType env p) = true ∧ admitsSeverity p t.severity = true ↔
        admitsType p (normalizeEventType env "system") = true ∧
          admitsSeverity p (normalizeSeverity env t.severity) = true) := by
  unfold selected
  refine (filter_map_perm_iff ?_ ?_).trans ?_
  · intro t u _ hu heq
    have hseverity : (telemetryItem env p.type t).severity = (telemetryItem env none u).severity :=
      congrArg Item.severity heq
    have htype : (telemetryItem env none t).type = (telemetryItem env none u).type := rfl
    show (admitsType p (telemetryItem env none t).type &&
      admitsSeverity p (telemetryItem env p.type t).severity) = true
    rw [hseverity, htype]
    exact hu
  · intro t ht ht'
    simp only [Bool.and_eq_true] at ht ht'
    have hlabel : telemetryType env p = normalizeEventType env "system" :=
      telemetryType_eq ht.1 ht'.1
    have htype : (telemetryItem env p.type t).type = (telemetryItem env none t).type := hlabel
    show ({ telemetryItem env none t with type := (telemetryItem env p.type t).type } : Item) = _
    rw [htype]
  · refine forall₂_congr fun t _ => ?_
    have htype : (telemetryItem env none t).type = normalizeEventType env "system" := rfl
    have hseverity : (telemetryItem env none t).severity = normalizeSeverity env t.severity := rfl
    rw [htype, hseverity, Bool.and_eq_true, Bool.and_eq_true]

/-! ## The result -/

/-- Sources that fit without filters fit with them. -/
theorem SourcesFit.of_unfiltered {limit : ℕ}
    (h : SourcesFit env db organizationId p.unfiltered limit) :
    SourcesFit env db organizationId p limit where
  audits := fun _ => h.audits rfl
  telemetry := fun _ => by
    rw [telemetryRows_eq]
    exact (List.length_filter_le _ _).trans (h.telemetry rfl)
  workers := fun _ => h.workers rfl

/-- A limit that was applied is applied as it is. -/
theorem pageLimit_pageLimit (limit : ℤ) : pageLimit (pageLimit limit : ℕ) = pageLimit limit := by
  unfold pageLimit
  omega

/-- In pages of the limit that is applied, the feed is complete where no source is cut. -/
theorem listPages_perm {limit : ℤ} (h : SourcesFit env db organizationId p (pageLimit limit)) :
    (listPages env db organizationId p (pageLimit limit)).Perm
      (matching env db organizationId p) := by
  have hpos : 0 < pageLimit limit := by
    unfold pageLimit
    omega
  rw [listPages_eq, pageLimit_pageLimit, pages_self hpos]
  exact feed_perm_matching h

/-- What the filters must do, said of all events that match. -/
theorem filtersSelect_iff_matching
    (hfit : SourcesFit env db organizationId p.unfiltered (pageLimit p.limit)) :
    FiltersSelect env db organizationId p ↔
      (matching env db organizationId p).Perm
        ((matching env db organizationId p.unfiltered).filter fun i =>
          admitsType p i.type && admitsSeverity p i.severity) := by
  have hleft := listPages_perm hfit.of_unfiltered
  have hright := (listPages_perm hfit).filter fun i =>
    admitsType p i.type && admitsSeverity p i.severity
  unfold FiltersSelect
  exact ⟨fun h => (hleft.symm.trans h).trans hright, fun h => (hleft.trans h).trans hright.symm⟩

/-- Where no source has more events than the page limit, the filters select items of the unfiltered
feed by their type and severity exactly where no event tells the difference. -/
theorem filtersSelect_iff (env : Env) (db : Db) (organizationId : ℕ) (p : Params)
    (hfit : SourcesFit env db organizationId p.unfiltered (pageLimit p.limit)) :
    FiltersSelect env db organizationId p ↔ FiltersAgree env db organizationId p := by
  rw [filtersSelect_iff_matching hfit, matching_eq_filter, filter_matching_unfiltered,
    sources_perm_iff, audits_perm_iff, telemetry_perm_iff, workers_perm_iff]
  · exact ⟨fun h => ⟨h.1, h.2.1, h.2.2⟩, fun h => ⟨h.audits, h.telemetry, h.workers⟩⟩
  · exact source_of_mem (auditItem env) (auditItem env) (fun _ => rfl) fun _ => rfl
  · exact source_of_mem (telemetryItem env p.type) (telemetryItem env none) (fun _ => rfl)
      fun _ => rfl
  · exact source_of_mem (workerItem env) (workerItem env) (fun _ => rfl) fun _ => rfl

namespace Fixture

/-- One telemetry event that is of no machine. -/
def oneEvent : Db where
  auditLogs := []
  vms := Table.empty
  telemetry := [⟨1, "STALE_CLEANUP", "info", "event_bus", none, none, none, [], 10⟩]
  workerRuns := []

/-- The feed of desktops. -/
def desktops : Params := { type := some "desktop" }

/-- The event of the fixture fits a page. -/
theorem oneEvent_fits :
    SourcesFit anyMatch oneEvent 1 desktops.unfiltered (pageLimit desktops.limit) :=
  ⟨by decide, by decide, by decide⟩

/-- For the event of the fixture the filters select rightly exactly when they agree with it. -/
theorem filtersSelect_iff_oneEvent :
    FiltersSelect anyMatch oneEvent 1 desktops ↔ FiltersAgree anyMatch oneEvent 1 desktops :=
  filtersSelect_iff anyMatch oneEvent 1 desktops oneEvent_fits

/-- Asked for desktops, the feed shows the event as one. -/
theorem event_relabelled : ¬ FiltersSelect anyMatch oneEvent 1 desktops := by
  intro h
  have hlength := ((filtersSelect_iff_matching oneEvent_fits).mp h).length_eq
  revert hlength
  decide +kernel

end Fixture

end LabGoblin.Feed
