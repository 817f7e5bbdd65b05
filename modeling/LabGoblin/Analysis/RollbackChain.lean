import LabGoblin.Analysis.UpdateCalls
import Mathlib.Logic.Relation

/-!
# A rollback undoes the last change

A chain of successful calls, with the database in use between them. `last` is the version and the
database from before the last call that changed the version. The state file names that version and
a dump of that database: the next backup cannot overwrite the dump, because it is named after
another version.
-/

set_option autoImplicit false

namespace LabGoblin.Updater

open Raising

variable {D : Type} {settings : Settings} {commits : String → Prop}

/-! ## The repository -/

/-- The full hashes of commits differ in their first twelve characters. -/
structure Repository (commits : String → Prop) : Prop where
  length : ∀ v, commits v → v.toList.length = 40
  distinct : ∀ v w, commits v → commits w → v.toList.take 12 = w.toList.take 12 → v = w

/-- What git resolves are commits, and a full hash names itself. -/
structure Answers (commits : String → Prop) (env : Environment D) : Prop where
  resolves : ∀ ref v, env.git.resolve ref = some v → commits v
  itself : ∀ v w, commits v → env.git.resolve v = some w → w = v

/-- Backups of different commits have different names. -/
theorem backupPath_ne (hrepo : Repository commits) {v w : String} (hv : commits v)
    (hw : commits w) (hne : v ≠ w) (stamp stamp' : String) :
    backupPath v stamp ≠ backupPath w stamp' := by
  intro heq
  have htext := congrArg String.toList heq
  simp only [backupPath, String.toList_append, String.toList_ofList, List.append_assoc] at htext
  have hrest := List.append_cancel_left htext
  have hlength : (v.toList.take 12).length = (w.toList.take 12).length := by
    rw [List.length_take, List.length_take, hrepo.length v hv, hrepo.length w hw]
  exact hne (hrepo.distinct v w hv hw (List.append_inj_left hrest hlength))

/-! ## Chains of calls -/

/-- The host, and the version and the database from before the last change of the version. -/
structure Chain (D : Type) where
  host : Host D
  last : Option (String × D)

/-- A call has ended. -/
def Chain.after (c : Chain D) (t : Host D) : Chain D where
  host := t
  last := if t.checkout = c.host.checkout then c.last
    else some (c.host.checkout, c.host.database)

/-- What happens without a change of the version. -/
inductive Quiet (settings : Settings) (commits : String → Prop) : Chain D → Chain D → Prop
  | check (c : Chain D) (env : Environment D) (payload : Payload) (r : Result) (t : Host D)
      (hgit : Answers commits env) (h : checkUpdate settings env payload c.host = .ok r t) :
      Quiet settings commits c (c.after t)
  /-- The service is in use. -/
  | activity (c : Chain D) (database : D) :
      Quiet settings commits c { c with host := { c.host with database := database } }
  /-- The agent records the state of an operation. -/
  | operation (c : Chain D) (operation : Option Operation) :
      Quiet settings commits c { c with
        host := { c.host with state := { c.host.state with operation := operation } } }

inductive ChainStep (settings : Settings) (commits : String → Prop) : Chain D → Chain D → Prop
  | apply (c : Chain D) (env : Environment D) (payload : Payload) (r : Result) (t : Host D)
      (hgit : Answers commits env) (h : applyUpdate settings env payload c.host = .ok r t) :
      ChainStep settings commits c (c.after t)
  | rollback (c : Chain D) (env : Environment D) (r : Result) (t : Host D)
      (hgit : Answers commits env) (h : rollbackUpdate env c.host = .ok r t) :
      ChainStep settings commits c (c.after t)
  | quiet (c c' : Chain D) (h : Quiet settings commits c c') : ChainStep settings commits c c'

/-- No update was made before. -/
structure Chain.Initial (commits : String → Prop) (c : Chain D) : Prop where
  checkout : commits c.host.checkout
  previousVersion : c.host.state.previousVersion = none
  last : c.last = none

/-! ## What the state file says -/

/-- The state file names a version and a dump that was taken when it was left. -/
structure Paired (commits : String → Prop) (h : Host D) (v : String) (d : D) : Prop where
  commit : commits v
  other : v ≠ h.checkout
  previousVersion : h.state.previousVersion = some v
  currentVersion : h.state.currentVersion = some h.checkout
  backup : ∃ stamp, h.state.backupPath = some (backupPath v stamp) ∧
    h.dumps (backupPath v stamp) = some d

structure ChainInv (commits : String → Prop) (c : Chain D) : Prop where
  checkout : commits c.host.checkout
  none : c.last = none → c.host.state.previousVersion = none
  paired : ∀ v d, c.last = some (v, d) → Paired commits c.host v d

/-- The invariant holds at the start. -/
theorem Chain.Initial.inv {c : Chain D} (h : c.Initial commits) : ChainInv commits c := by
  refine ⟨h.checkout, fun _ => h.previousVersion, fun v d hlast => ?_⟩
  rw [h.last] at hlast
  cases hlast

/-- A check changes nothing but the record of the last check. -/
theorem ends_checkUpdate (env : Environment D) (h : Host D) (payload : Payload) :
    Ends (checkUpdate settings env payload) h
      (fun _ t => ∃ checked, t = { h with state := { h.state with lastCheck := some checked } })
      fun _ _ => True := by
  refine Looks.skip (looks_raising _) ?_ fun _ => trivial
  rintro ⟨repository, branch⟩
  refine Looks.skip (looks_run _ _) (fun _ => ?_) fun _ => trivial
  refine Looks.skip (looks_commit _) (fun current => ?_) fun _ => trivial
  refine Looks.skip (looks_commit _) (fun target => ?_) fun _ => trivial
  unfold readState
  simp only [ends_bind, ends_get, ends_pure]
  refine ends_run (fun _ => ?_) fun _ => trivial
  exact ends_writeState (fun _ => ⟨_, rfl⟩) fun _ => trivial

/-- What happens without a change of the version keeps the invariant, the last change and the
version. -/
theorem ChainInv.quiet {c c' : Chain D} (hinv : ChainInv commits c)
    (hquiet : Quiet settings commits c c') :
    ChainInv commits c' ∧ c'.last = c.last ∧ c'.host.checkout = c.host.checkout := by
  cases hquiet with
  | check env payload r t hgit hrun =>
    obtain ⟨checked, rfl⟩ := (ends_checkUpdate env c.host payload).of_ok hrun
    have hlast : (c.after { c.host with
        state := { c.host.state with lastCheck := some checked } }).last = c.last := if_pos rfl
    refine ⟨⟨hinv.checkout, ?_, ?_⟩, hlast, rfl⟩
    · rw [hlast]
      exact hinv.none
    · rw [hlast]
      intro v d h
      obtain ⟨hcommit, hother, hprevious, hcurrent, hbackup⟩ := hinv.paired v d h
      exact ⟨hcommit, hother, hprevious, hcurrent, hbackup⟩
  | activity database =>
    refine ⟨⟨hinv.checkout, hinv.none, fun v d h => ?_⟩, rfl, rfl⟩
    obtain ⟨hcommit, hother, hprevious, hcurrent, hbackup⟩ := hinv.paired v d h
    exact ⟨hcommit, hother, hprevious, hcurrent, hbackup⟩
  | operation operation =>
    refine ⟨⟨hinv.checkout, hinv.none, fun v d h => ?_⟩, rfl, rfl⟩
    obtain ⟨hcommit, hother, hprevious, hcurrent, hbackup⟩ := hinv.paired v d h
    exact ⟨hcommit, hother, hprevious, hcurrent, hbackup⟩

/-- A host that left a version, whose database it has dumped. -/
theorem ChainInv.left {c : Chain D} (hinv : ChainInv commits c) {t : Host D}
    (hcommit : commits t.checkout) (hother : c.host.checkout ≠ t.checkout) {stamp : String}
    (hdump : t.dumps (backupPath c.host.checkout stamp) = some c.host.database)
    (hmetadata : t.state.metadata = ⟨some c.host.checkout, some t.checkout,
      some (backupPath c.host.checkout stamp)⟩) :
    ChainInv commits (c.after t) ∧ (c.after t).last = some (c.host.checkout, c.host.database) := by
  have hlast : (c.after t).last = some (c.host.checkout, c.host.database) := if_neg hother.symm
  have hprevious : t.state.previousVersion = some c.host.checkout :=
    congrArg Metadata.previousVersion hmetadata
  have hcurrent : t.state.currentVersion = some t.checkout :=
    congrArg Metadata.currentVersion hmetadata
  have hbackup : t.state.backupPath = some (backupPath c.host.checkout stamp) :=
    congrArg Metadata.backupPath hmetadata
  refine ⟨⟨hcommit, ?_, ?_⟩, hlast⟩
  · rw [hlast]
    intro heq
    cases heq
  · rw [hlast]
    intro v d heq
    cases heq
    exact ⟨hinv.checkout, hother, hprevious, hcurrent, stamp, hbackup, hdump⟩

/-- An update that succeeds keeps the invariant: its dump is the database from before. -/
theorem ChainInv.apply {c : Chain D} (hinv : ChainInv commits c) {env : Environment D}
    {payload : Payload} {r : Result} {t : Host D} (hgit : Answers commits env)
    (hrun : applyUpdate settings env payload c.host = .ok r t) : ChainInv commits (c.after t) := by
  rcases (ends_applyUpdate c.host payload).of_ok hrun with ⟨-, rfl⟩ | ⟨target, hi, -, -, rfl⟩
  · have hsame : c.after c.host = c := by
      have hlast : (c.after c.host).last = c.last := if_pos rfl
      exact congrArg (Chain.mk c.host) hlast
    rw [hsame]
    exact hinv
  · obtain ⟨-, -, hknown⟩ := (ends_checkedUpdate c.host payload).of_ok hi.checked
    have hcommit : commits target := by
      rcases hknown with htarget | ⟨ref, href⟩
      · exact absurd htarget.symm hi.newer
      · exact hgit.resolves ref target href
    exact (hinv.left (t := c.host.updated env target) hcommit hi.newer
      (dumps_withDump c.host (backupPath c.host.checkout env.stamp)) rfl).1

/-- A rollback goes back to the last version and the last database. -/
theorem ChainInv.rollback {c : Chain D} (hrepo : Repository commits) (hinv : ChainInv commits c)
    {env : Environment D} {r : Result} {t : Host D} (hgit : Answers commits env)
    (hrun : rollbackUpdate env c.host = .ok r t) :
    ChainInv commits (c.after t) ∧
      (c.after t).last = some (c.host.checkout, c.host.database) ∧
      ∃ v d, c.last = some (v, d) ∧ t.checkout = v ∧ t.database = env.activity d := by
  obtain ⟨backup, target, contents, hr, -, -, rfl⟩ := (ends_rollbackUpdate c.host).of_ok hrun
  obtain ⟨-, hrolls⟩ := (ends_rollbackTarget c.host).of_ok hr.checked
  have hnamed := hrolls.named
  have hresolved := hrolls.resolved
  cases hlast : c.last with
  | none =>
    rw [hinv.none hlast] at hnamed
    exact absurd rfl hnamed
  | some before =>
    obtain ⟨v, d⟩ := before
    obtain ⟨hcommit, hother, hprevious, -, stamp, hbackup, hdump⟩ := hinv.paired v d hlast
    have hlength := hrepo.length v hcommit
    have hhead : v ≠ "HEAD" := by
      rintro rfl
      exact absurd hlength (by decide)
    rw [hprevious, Option.getD_some, if_neg hhead] at hresolved
    have htarget : target = v := hgit.itself v target hcommit hresolved
    have hpath : backup = backupPath v stamp := by
      have hstate : backup = c.host.state.backupPath.getD "" := hrolls.path
      rw [hstate, hbackup, Option.getD_some]
    have hne := backupPath_ne hrepo hcommit hinv.checkout hother stamp env.stamp
    have hcontents : contents = d := by
      have hdumped : (c.host.withDump (backupPath c.host.checkout env.stamp)).dumps backup =
          some contents := hr.dumped
      rw [hpath] at hdumped
      have hkept : (c.host.withDump (backupPath c.host.checkout env.stamp)).dumps
          (backupPath v stamp) = c.host.dumps (backupPath v stamp) := if_neg hne
      rw [hkept, hdump] at hdumped
      exact (Option.some.inj hdumped).symm
    subst htarget hcontents
    obtain ⟨hafter, hafterLast⟩ := hinv.left
      (t := c.host.rolledBackWith env target contents true) hcommit hother.symm
      (dumps_withDump c.host (backupPath c.host.checkout env.stamp)) rfl
    exact ⟨hafter, hafterLast, target, contents, rfl, rfl, rfl⟩

/-- Every step of a chain keeps the invariant. -/
theorem ChainInv.step {c c' : Chain D} (hrepo : Repository commits) (hinv : ChainInv commits c)
    (hstep : ChainStep settings commits c c') : ChainInv commits c' := by
  cases hstep with
  | apply env payload r t hgit hrun => exact hinv.apply hgit hrun
  | rollback env r t hgit hrun => exact (hinv.rollback hrepo hgit hrun).1
  | quiet _ hquiet => exact (hinv.quiet hquiet).1

abbrev ChainReach (settings : Settings) (commits : String → Prop) : Chain D → Chain D → Prop :=
  Relation.ReflTransGen (ChainStep settings commits)

/-- The invariant holds in every state of a chain. -/
theorem chain_inv {start c : Chain D} (hrepo : Repository commits) (hstart : start.Initial commits)
    (hreach : ChainReach settings commits start c) : ChainInv commits c := by
  induction hreach with
  | refl => exact hstart.inv
  | tail _ hstep ih => exact ih.step hrepo hstep

/-- Any number of quiet steps keeps the invariant and the last change. -/
theorem quiet_inv {c c' : Chain D} (hinv : ChainInv commits c)
    (hquiet : Relation.ReflTransGen (Quiet settings commits) c c') :
    ChainInv commits c' ∧ c'.last = c.last := by
  induction hquiet with
  | refl => exact ⟨hinv, rfl⟩
  | tail _ hstep ih =>
    have hnext := ih.1.quiet hstep
    exact ⟨hnext.1, hnext.2.1.trans ih.2⟩

/-- In every chain of successful calls, the previous version of the state file is paired with the
dump of the database from before the last change; a rollback goes back to that version and starts
it on that database, so two rollbacks in a row go back to what was there before the first one. -/
theorem rollback_undoes (settings : Settings) (commits : String → Prop)
    (hrepo : Repository commits) (start c : Chain D) (hstart : start.Initial commits)
    (hreach : ChainReach settings commits start c) :
    (∀ v, c.host.state.previousVersion = some v → ∃ d stamp, c.last = some (v, d) ∧
      c.host.state.backupPath = some (backupPath v stamp) ∧
      c.host.dumps (backupPath v stamp) = some d) ∧
    (∀ env r t, Answers commits env → rollbackUpdate env c.host = .ok r t →
      ∃ v d, c.last = some (v, d) ∧ t.checkout = v ∧ t.database = env.activity d) ∧
    ∀ env r t, Answers commits env → rollbackUpdate env c.host = .ok r t →
      ∀ c', Relation.ReflTransGen (Quiet settings commits) (c.after t) c' →
      ∀ env' r' t', Answers commits env' → rollbackUpdate env' c'.host = .ok r' t' →
        t'.checkout = c.host.checkout ∧ t'.database = env'.activity c.host.database := by
  have hinv := chain_inv hrepo hstart hreach
  refine ⟨?_, ?_, ?_⟩
  · intro v hprevious
    cases hlast : c.last with
    | none =>
      rw [hinv.none hlast] at hprevious
      cases hprevious
    | some before =>
      obtain ⟨w, d⟩ := before
      obtain ⟨-, -, hpaired, -, stamp, hbackup, hdump⟩ := hinv.paired w d hlast
      have hv : w = v := Option.some.inj (hpaired.symm.trans hprevious)
      subst hv
      exact ⟨d, stamp, rfl, hbackup, hdump⟩
  · intro env r t hgit hrun
    exact (hinv.rollback hrepo hgit hrun).2.2
  · intro env r t hgit hrun c' hquiet env' r' t' hgit' hrun'
    obtain ⟨hafter, hlast, -⟩ := hinv.rollback hrepo hgit hrun
    obtain ⟨hinv', hlast'⟩ := quiet_inv hafter hquiet
    obtain ⟨-, -, v, d, hbefore, hcheckout, hdatabase⟩ := hinv'.rollback hrepo hgit' hrun'
    rw [hlast', hlast] at hbefore
    cases hbefore
    exact ⟨hcheckout, hdatabase⟩

namespace Chains

def old : String := "aaaaaaaaaaaaaaaaaaaaaaaaaaaaaaaaaaaaaaaa"

def new : String := "bbbbbbbbbbbbbbbbbbbbbbbbbbbbbbbbbbbbbbbb"

def Both (v : String) : Prop := v = old ∨ v = new

/-- The two hashes of the fixture differ in their first twelve characters. -/
theorem both_repository : Repository Both := by
  constructor
  · rintro v (rfl | rfl)
    · decide
    · decide
  · rintro v w (rfl | rfl) (rfl | rfl) heq
    · rfl
    · exact absurd heq (by decide)
    · exact absurd heq (by decide)
    · rfl

/-- The branch is at `new`, which was checked. -/
def environment : Environment ℕ where
  git := ⟨"", fun ref => if ref = old then some old else some new, fun _ _ => true⟩
  fails _ _ := false
  halfCheckedOut _ := old
  halfRestored _ := 0
  replaced := false
  activity n := n + 1
  now := 0
  stamp := "20260101T000000Z"

/-- What git resolves in the fixture are commits. -/
theorem environment_answers : Answers Both environment := by
  constructor
  · intro ref v h
    by_cases hold : ref = old
    · exact .inl (Option.some.inj (h.symm.trans (if_pos hold)))
    · exact .inr (Option.some.inj (h.symm.trans (if_neg hold)))
  · rintro v w hv h
    rcases hv with rfl | rfl
    · have hresolve : environment.git.resolve old = some old := by decide
      exact Option.some.inj (h.symm.trans hresolve)
    · have hresolve : environment.git.resolve new = some new := by decide
      exact Option.some.inj (h.symm.trans hresolve)

def policy : Settings := ⟨"https://example/labgoblin.git", false, 3600⟩

def start : Chain ℕ where
  host := {
    checkout := old
    database := 7
    dumps := fun _ => none
    state := { lastCheck := some ⟨"https://example/labgoblin", "main", old, new, 0⟩ }
    needsOperator := false }
  last := none

/-- The fixture starts without an update. -/
theorem start_initial : start.Initial Both := ⟨.inl rfl, rfl, rfl⟩

/-- After an update, whatever the service does, a rollback goes back to the old version. -/
theorem rollback_undoes_update :
    ∃ c : Chain ℕ, ChainReach policy Both start c ∧ c.host.state.previousVersion = some old ∧
      ∃ d stamp, c.last = some (old, d) ∧ c.host.state.backupPath = some (backupPath old stamp) ∧
        c.host.dumps (backupPath old stamp) = some d := by
  have hplay : (match applyUpdate policy environment { targetRef := new } start.host with
      | .ok _ t => t.state.previousVersion = some old
      | .error _ _ => false) = true := by
    decide +kernel
  cases hrun : applyUpdate policy environment { targetRef := new } start.host with
  | error e t =>
    rw [hrun] at hplay
    cases hplay
  | ok r t =>
    rw [hrun] at hplay
    have hprevious : t.state.previousVersion = some old := of_decide_eq_true hplay
    have hreach : ChainReach policy Both start (start.after t) :=
      .single (.apply start environment _ r t environment_answers hrun)
    have hundoes := rollback_undoes policy Both both_repository start (start.after t)
      start_initial hreach
    exact ⟨start.after t, hreach, hprevious, hundoes.1 old hprevious⟩

end Chains

end LabGoblin.Updater
