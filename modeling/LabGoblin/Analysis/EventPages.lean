import LabGoblin.Computation.Paging
import LabGoblin.Model.ActivityFeed

/-!
# Reading the feed page by page

Every source is cut at the limit of the page before the sources are merged, and the offset is
taken of what is left. So the pages of a feed are complete exactly when nothing was cut, and the
limit is one that the endpoint does not correct.
-/

set_option autoImplicit false

namespace LabGoblin.Feed

open Interactive

variable {env : Env} {db : Db} {organizationId : ℕ} {p : Params}

/-- The limit that `list_events` applies. -/
def pageLimit (limit : ℤ) : ℕ := (max 1 (min limit 200)).toNat

/-- Whether the type filter lets items of a type through. -/
def admitsType (p : Params) (type : String) : Bool := (given p.type).all (type = ·)

/-! ## The events that match -/

/-- The audit logs that the filters of the query select. -/
def auditRows (env : Env) (db : Db) (organizationId : ℕ) (p : Params) : List AuditLog :=
  (db.auditLogs.filter fun a => a.organizationId = some organizationId).filter fun a =>
    matchesQuery env p.q [a.action, a.targetType]

def telemetryRows (env : Env) (db : Db) (organizationId : ℕ) (p : Params) :
    List TelemetryEvent :=
  ((db.telemetry.filter (visible db organizationId)).filter fun t =>
    matchesQuery env p.q [t.eventType]).filter fun t => (given p.severity).all (t.severity = ·)

def workerRows (env : Env) (db : Db) (p : Params) : List WorkerRun :=
  db.workerRuns.filter fun w => matchesQuery env p.q [w.workerName, w.status]

/-- The items of all events that match the filters of a request. -/
def matching (env : Env) (db : Db) (organizationId : ℕ) (p : Params) : List Item :=
  ((auditRows env db organizationId p).map (auditItem env) ++
    (telemetryRows env db organizationId p).map (telemetryItem env p.type) ++
      (workerRows env db p).map (workerItem env)).filter fun i => admitsType p i.type

/-- The items that `list_events` takes its page from. -/
def feed (env : Env) (db : Db) (organizationId : ℕ) (p : Params) (limit : ℕ) : List Item :=
  ((auditItems env db organizationId p limit ++ telemetryItems env db organizationId p limit ++
    workerItems env db p limit).mergeSort fun a b => b.time ≤ a.time).filter fun i =>
      admitsType p i.type

/-- The answer is the page of the feed at its offset, with the length of the feed as the total. -/
theorem listEvents_eq :
    listEvents env db organizationId p =
      ⟨((feed env db organizationId p (pageLimit p.limit)).drop (max 0 p.offset).toNat).take
          (pageLimit p.limit),
        (feed env db organizationId p (pageLimit p.limit)).length, pageLimit p.limit,
        (max 0 p.offset).toNat⟩ := by
  unfold listEvents feed admitsType pageLimit
  cases htype : given p.type with
  | none => simp
  | some type => simp

/-- The answers to requests with the offsets `0`, `L`, `2 * L`, … below the total that is reported,
one after the other. -/
def listPages (env : Env) (db : Db) (organizationId : ℕ) (p : Params) (L : ℕ) : List Item :=
  (offsets L (listEvents env db organizationId { p with limit := L, offset := 0 }).total).flatMap
    fun o : ℕ => (listEvents env db organizationId { p with limit := L, offset := o }).items

/-- Reading page by page reads the pages of the feed. -/
theorem listPages_eq {L : ℕ} :
    listPages env db organizationId p L =
      pages L (pageLimit L) (feed env db organizationId p (pageLimit L)) := by
  unfold listPages pages
  simp only [listEvents_eq]
  rfl

/-- The pages that the endpoint is asked for contain every event that matches once, newest first,
and the total counts them. -/
structure PagesComplete (env : Env) (db : Db) (organizationId : ℕ) (p : Params) (L : ℕ) :
    Prop where
  once : (listPages env db organizationId p L).Perm (matching env db organizationId p)
  newest : (listPages env db organizationId p L).Pairwise fun a b => b.time ≤ a.time
  total : (listEvents env db organizationId { p with limit := L, offset := 0 }).total =
    (matching env db organizationId p).length

/-- The type that the telemetry of an answer is labelled with. -/
def telemetryType (env : Env) (p : Params) : String :=
  normalizeEventType env ((given p.type).getD "system")

/-- No source with items of an admitted type has more rows than fit on a page. -/
structure SourcesFit (env : Env) (db : Db) (organizationId : ℕ) (p : Params) (limit : ℕ) :
    Prop where
  audits : admitsType p "system" = true → (auditRows env db organizationId p).length ≤ limit
  telemetry : admitsType p (telemetryType env p) = true →
    (telemetryRows env db organizationId p).length ≤ limit
  workers : admitsType p "task" = true → (workerRows env db p).length ≤ limit

/-! ## What is left of a source -/

/-- The items of a source have one type, so the type filter keeps all of them or none. -/
theorem filter_admitsType (type : String) {items : List Item} (h : ∀ i ∈ items, i.type = type) :
    (items.filter fun i => admitsType p i.type) = if admitsType p type then items else [] := by
  by_cases hadmits : admitsType p type = true
  · rw [if_pos hadmits, List.filter_eq_self]
    intro i hi
    rw [h i hi]
    exact hadmits
  · rw [if_neg hadmits, List.filter_eq_nil_iff]
    intro i hi
    rw [h i hi]
    exact hadmits

/-- The latest rows are at most as many as the limit. -/
theorem length_latest {α : Type} (time : α → WithTop ℕ) (limit : ℕ) (rows : List α) :
    (latest time limit rows).length = min limit rows.length := by
  unfold latest
  rw [List.length_take, List.length_mergeSort]

/-- What fits on a page is not cut. -/
theorem latest_perm {α : Type} {time : α → WithTop ℕ} {limit : ℕ} {rows : List α}
    (h : rows.length ≤ limit) : (latest time limit rows).Perm rows := by
  unfold latest
  rw [List.take_of_length_le (by rw [List.length_mergeSort]; exact h)]
  exact List.mergeSort_perm rows _

/-- The items of a source after the type filter, where `rows` are made into items of a type. -/
def shown {α : Type} (p : Params) (type : String) (item : α → Item) (rows : List α) : List Item :=
  if admitsType p type then rows.map item else []

/-- The type filter shows all items of a source or none. -/
theorem length_shown {α : Type} {type : String} {item : α → Item} {rows : List α} :
    (shown p type item rows).length = if admitsType p type then rows.length else 0 := by
  unfold shown
  by_cases hadmits : admitsType p type = true
  · rw [if_pos hadmits, if_pos hadmits, List.length_map]
  · rw [if_neg hadmits, if_neg hadmits]
    rfl

/-- A source that fits a page is shown whole. -/
theorem shown_perm {α : Type} {type : String} {item : α → Item} {time : α → WithTop ℕ}
    {limit : ℕ} {rows : List α} (h : admitsType p type = true → rows.length ≤ limit) :
    (shown p type item (latest time limit rows)).Perm (shown p type item rows) := by
  unfold shown
  by_cases hadmits : admitsType p type = true
  · rw [if_pos hadmits, if_pos hadmits]
    exact (latest_perm (h hadmits)).map item
  · rw [if_neg hadmits, if_neg hadmits]

/-- The items that match are those of the three sources. -/
theorem matching_eq :
    matching env db organizationId p =
      shown p "system" (auditItem env) (auditRows env db organizationId p) ++
        shown p (telemetryType env p) (telemetryItem env p.type)
          (telemetryRows env db organizationId p) ++
        shown p "task" (workerItem env) (workerRows env db p) := by
  unfold matching shown
  rw [List.filter_append, List.filter_append, filter_admitsType "system",
    filter_admitsType (telemetryType env p), filter_admitsType "task"]
  · simp [workerItem]
  · simp [telemetryItem, telemetryType]
  · simp [auditItem]

/-- The feed has the items that the sources show, each cut at the limit. -/
theorem feed_perm_shown {limit : ℕ} :
    (feed env db organizationId p limit).Perm
      (shown p "system" (auditItem env)
          (latest (fun a => a.createdAt.elim ⊤ (↑)) limit (auditRows env db organizationId p)) ++
        shown p (telemetryType env p) (telemetryItem env p.type)
          (latest (fun t => t.createdAt) limit (telemetryRows env db organizationId p)) ++
        shown p "task" (workerItem env)
          (latest (fun w => w.startedAt) limit (workerRows env db p))) := by
  refine ((List.mergeSort_perm _ _).filter _).trans ?_
  unfold shown
  rw [List.filter_append, List.filter_append, filter_admitsType "system",
    filter_admitsType (telemetryType env p), filter_admitsType "task"]
  · rfl
  · simp [workerItems, workerItem]
  · simp [telemetryItems, telemetryItem, telemetryType]
  · simp [auditItems, auditItem]

/-- The feed has as many items as match exactly when every source fits. -/
theorem length_feed_eq_iff {limit : ℕ} :
    (feed env db organizationId p limit).length = (matching env db organizationId p).length ↔
      SourcesFit env db organizationId p limit := by
  rw [feed_perm_shown.length_eq, matching_eq]
  simp only [List.length_append, length_shown, length_latest]
  constructor
  · intro h
    refine ⟨fun hadmits => ?_, fun hadmits => ?_, fun hadmits => ?_⟩ <;>
    · rw [if_pos hadmits, if_pos hadmits] at h
      split at h <;> split at h <;> omega
  · rintro ⟨haudits, htelemetry, hworkers⟩
    split <;> split <;> split <;> simp_all

/-- Where nothing is cut, the feed is what matches. -/
theorem feed_perm_matching {limit : ℕ} (h : SourcesFit env db organizationId p limit) :
    (feed env db organizationId p limit).Perm (matching env db organizationId p) := by
  rw [matching_eq]
  exact feed_perm_shown.trans
    (((shown_perm h.audits).append (shown_perm h.telemetry)).append (shown_perm h.workers))

/-- The feed is sorted, newest first. -/
theorem feed_newest {limit : ℕ} :
    (feed env db organizationId p limit).Pairwise fun a b => b.time ≤ a.time := by
  refine List.Pairwise.filter _ ?_
  refine (List.pairwise_mergeSort (fun a b c hab hbc => ?_) (fun a b => ?_) _).imp fun h =>
    of_decide_eq_true h
  · simp only [decide_eq_true_eq] at hab hbc ⊢
    omega
  · simp only [Bool.or_eq_true, decide_eq_true_eq]
    omega

/-! ## The result -/

/-- A limit that the endpoint accepts is applied as it is. -/
theorem pageLimit_of_accepted {L : ℕ} (h : 1 ≤ L ∧ L ≤ 200) : pageLimit L = L := by
  unfold pageLimit
  omega

/-- A limit that the endpoint corrects is zero, or larger than what it becomes. -/
theorem corrected_limit {L : ℕ} (h : ¬ (1 ≤ L ∧ L ≤ 200)) : L = 0 ∨ pageLimit L < L := by
  unfold pageLimit
  omega

/-- The total that is reported is the length of the feed. -/
theorem total_listEvents {L : ℕ} :
    (listEvents env db organizationId { p with limit := L, offset := 0 }).total =
      (feed env db organizationId p (pageLimit L)).length := by
  rw [listEvents_eq]
  rfl

/-- The pages are complete exactly when no source that the type filter admits has more matching
events than the limit that is applied, and the limit is between 1 and 200 or all matching events
fit on one page. -/
theorem pagesComplete_iff (env : Env) (db : Db) (organizationId : ℕ) (p : Params) (L : ℕ) :
    PagesComplete env db organizationId p L ↔
      SourcesFit env db organizationId p (pageLimit L) ∧
        ((1 ≤ L ∧ L ≤ 200) ∨ (matching env db organizationId p).length ≤ pageLimit L) := by
  constructor
  · rintro ⟨honce, -, htotal⟩
    rw [total_listEvents] at htotal
    refine ⟨length_feed_eq_iff.mp htotal, ?_⟩
    by_contra hnot
    obtain ⟨hlimit, hlong⟩ := not_or.mp hnot
    rw [← htotal] at hlong
    have hlt := length_pages_lt (corrected_limit hlimit) (not_le.mp hlong)
    rw [← listPages_eq, honce.length_eq, htotal] at hlt
    exact absurd hlt (lt_irrefl _)
  · rintro ⟨hfit, hlimit⟩
    have hlength := length_feed_eq_iff.mpr hfit
    have hpages : listPages env db organizationId p L =
        feed env db organizationId p (pageLimit L) := by
      rw [listPages_eq]
      by_cases haccepted : 1 ≤ L ∧ L ≤ 200
      · rw [pageLimit_of_accepted haccepted]
        exact pages_self haccepted.1 _
      · have hshort := hlimit.resolve_left haccepted
        rw [← hlength] at hshort
        exact pages_of_length_le ((corrected_limit haccepted).imp_right le_of_lt) hshort
    refine ⟨?_, ?_, ?_⟩
    · rw [hpages]
      exact feed_perm_matching hfit
    · rw [hpages]
      exact feed_newest
    · rw [total_listEvents]
      exact hlength

namespace Fixture

/-- Two audit logs of one organization. -/
def twoLogs : Db where
  auditLogs :=
    [⟨1, some 1, "LOGIN", "user", "1", some 10⟩, ⟨2, some 1, "LOGOUT", "user", "1", some 20⟩]
  vms := Table.empty
  telemetry := []
  workerRuns := []

/-- The environment, in which every text matches every pattern. -/
def anyMatch : Env := ⟨100, fun _ _ => true, fun text => text⟩

/-- Of two audit logs, pages of one item show the later one only. -/
theorem pages_incomplete : ¬ PagesComplete anyMatch twoLogs 1 {} 1 := by
  intro h
  have htotal := h.total
  rw [total_listEvents] at htotal
  have hlogs := (length_feed_eq_iff.mp htotal).audits rfl
  revert hlogs
  decide +kernel

end Fixture

end LabGoblin.Feed
