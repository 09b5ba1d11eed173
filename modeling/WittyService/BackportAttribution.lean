import Mathlib.Data.Option.Basic
import WittyService.BackportRunAll

/-! Which case of the stored run an event of `_run_all` is recorded in, and when every event finds
the case of the row the loop is at. -/
namespace WittyService

open GuardedRuns RunAll

def Progress.row (event : Progress) : Row := event.updatedCommits.head?.getD { name := {} }

/-- The commit `record_progress` looks for and stores. -/
def Progress.commit (event : Progress) : PyStr :=
  commitOf event.row (PyStr.strip event.currentRowId)

/-- The row number `record_progress` looks for. -/
def Progress.rowNumber (event : Progress) : Nat := rowNumberOf event.row event.currentIndex

/-- What `record_progress` finds a case by. -/
def caseNames (cases : List Case) : List (Nat × PyStr) :=
  cases.map fun summary => (summary.row, summary.commit)

/-- The event names the commit of the case at `k`, and no earlier case has the number or the
commit that the event names. -/
def FitsCase (names : List (Nat × PyStr)) (k : Nat) (event : Progress) : Prop :=
  (∃ own ∈ names[k]?, own.2 = event.commit) ∧
    ∀ earlier ∈ names.take k, earlier.1 ≠ event.rowNumber ∧
      PyStr.lower earlier.2 ≠ PyStr.lower event.commit

instance (names : List (Nat × PyStr)) (k : Nat) (event : Progress) :
    Decidable (FitsCase names k event) :=
  inferInstanceAs (Decidable (_ ∧ _))

/-- An event left the names of all cases and every case but the one at `k`. -/
structure OwnCase (k : Nat) (cases cases' : List Case) : Prop where
  names : caseNames cases' = caseNames cases
  others : ∀ j, j ≠ k → cases'[j]? = cases[j]?

theorem OwnCase.refl (k : Nat) (cases : List Case) : OwnCase k cases cases :=
  ⟨rfl, fun _ _ => rfl⟩

theorem updateSummaryCase_names (summary : Case) (row : Row) (phase : Phase)
    (phaseState : PhaseState) :
    (summary.updateSummaryCase row phase phaseState).row = summary.row ∧
      (summary.updateSummaryCase row phase phaseState).commit = summary.commit := by
  have htake : ∀ other : Case, (other.takeOver row).row = other.row ∧
      (other.takeOver row).commit = other.commit := fun other => ⟨rfl, rfl⟩
  cases phase with
  | checking =>
    cases phaseState with
    | running =>
      simp only [Case.updateSummaryCase, Case.checking]
      split
      · exact htake _
      · exact htake _
    | completed | failed => exact htake _
  | resolving =>
    simp only [Case.updateSummaryCase, Case.resolving]
    split_ifs <;> exact htake _
  | applying =>
    cases phaseState with
    | running | completed | failed => exact htake _
  | skipped | initializing | paused | completed | waitingForRepository => exact htake _
  | failed =>
    simp only [Case.updateSummaryCase, Case.failing]
    split_ifs <;> exact htake _

section

variable (row : Row) (commit : PyStr) (event : Progress) (summary : Case)

theorem row_record :
    (Case.record row commit event summary).row = summary.row :=
  (updateSummaryCase_names _ _ _ _).1

theorem commit_record :
    (Case.record row commit event summary).commit = PyStr.or commit summary.commit :=
  (updateSummaryCase_names _ _ _ _).2

end

variable {cases : List Case} {k : Nat} {event : Progress}

theorem PyStr.or_of_ne_nil {first : PyStr} (h : first ≠ []) (second : PyStr) :
    PyStr.or first second = first := if_neg h

theorem commit_ne_nil (h : PyStr.given event.currentRowId) : event.commit ≠ [] := by
  rw [Progress.commit, commitOf]
  intro hnil
  rw [PyStr.or] at hnil
  split at hnil
  · exact of_decide_eq_true h hnil
  · next hne => exact hne hnil

section

variable (h : FitsCase (caseNames cases) k event) (hgiven : PyStr.given event.currentRowId)
include h hgiven

theorem findIdx?_of_fits :
    cases.findIdx? (Case.matchesRow event.rowNumber event.commit) = some k ∧
      ∃ own, cases[k]? = some own ∧ own.commit = event.commit := by
  obtain ⟨⟨name, hname, hcommit⟩, hearlier⟩ := h
  rw [caseNames, Option.mem_def, List.getElem?_map, Option.map_eq_some_iff] at hname
  obtain ⟨own, hown, rfl⟩ := hname
  change own.commit = event.commit at hcommit
  obtain ⟨hlt, hget⟩ := List.getElem?_eq_some_iff.mp hown
  refine ⟨?_, own, hown, hcommit⟩
  rw [List.findIdx?_eq_some_iff_getElem]
  refine ⟨hlt, ?_, fun j hj => ?_⟩
  · have hne := commit_ne_nil hgiven
    simp [hget, Case.matchesRow, hcommit, hne]
  · have hmem : (cases[j].row, cases[j].commit) ∈ (caseNames cases).take k := by
      rw [caseNames, ← List.map_take]
      apply List.mem_map_of_mem
      exact List.mem_take_iff_getElem.mpr ⟨j, by omega, rfl⟩
    obtain ⟨hnumber, hlower⟩ := hearlier _ hmem
    simp [Case.matchesRow, hnumber, hlower]

theorem ownCase_recordCase : OwnCase k cases (recordCase cases event) := by
  obtain ⟨hfind, own, hown, hcommit⟩ := findIdx?_of_fits h hgiven
  have hrecord : recordCase cases event =
      cases.modify k (Case.record event.row event.commit event) := by
    rw [recordCase]
    rw [Progress.commit, Progress.rowNumber, Progress.row] at hfind
    simp only [hfind]
    rfl
  rw [hrecord]
  refine ⟨?_, fun j hj => List.getElem?_modify_ne _ cases (Ne.symm hj)⟩
  apply List.ext_getElem?
  intro j
  rw [caseNames, caseNames, List.getElem?_map, List.getElem?_map]
  by_cases hj : j = k
  · rw [hj, List.getElem?_modify_eq, hown]
    simp [row_record, commit_record, PyStr.or_of_ne_nil (commit_ne_nil hgiven), hcommit]
  · rw [List.getElem?_modify_ne _ cases (Ne.symm hj)]

end

theorem ownCase_recordProgress {run : ExecutionRun}
    (h : PyStr.given event.currentRowId → FitsCase (caseNames run.cases) k event) :
    OwnCase k run.cases (recordProgress run event).cases := by
  by_cases hgiven : PyStr.given event.currentRowId
  · simp only [recordProgress, if_pos hgiven]
    exact ownCase_recordCase (h hgiven) hgiven
  · simp only [recordProgress, if_neg hgiven]
    exact OwnCase.refl k run.cases

section

variable {names : List (Nat × PyStr)} {events : List Progress} {run : ExecutionRun}
  (hnames : caseNames run.cases = names)
  (h : ∀ event ∈ events, PyStr.given event.currentRowId → FitsCase names k event)
include hnames h

theorem names_foldl :
    caseNames (events.foldl recordProgress run).cases = names := by
  induction events generalizing run with
  | nil => exact hnames
  | cons event events ih =>
    have hown : OwnCase k run.cases (recordProgress run event).cases :=
      ownCase_recordProgress fun hgiven => hnames ▸ h event List.mem_cons_self hgiven
    apply ih (hown.names.trans hnames)
    exact fun other hother => h other (List.mem_cons_of_mem _ hother)

theorem ownCase_foldl {before after : List Progress} (heq : events = before ++ event :: after) :
    OwnCase k (before.foldl recordProgress run).cases
      (recordProgress (before.foldl recordProgress run) event).cases := by
  have hbefore : caseNames (before.foldl recordProgress run).cases = names := by
    apply names_foldl hnames
    intro other hother
    exact h other (heq ▸ List.mem_append_left _ hother)
  have hmem : event ∈ events := heq ▸ List.mem_append_right _ List.mem_cons_self
  exact ownCase_recordProgress fun hgiven => hbefore.symm ▸ h event hmem hgiven

end

/-- From `s` to `s'` events were published, the ones with a row id about the row at `k`, and
recorded one after the other. -/
def Publishes (k : Nat) (s s' : RunAll) : Prop :=
  ∃ events, s'.progress = s.progress ++ events ∧ s'.run = events.foldl recordProgress s.run ∧
    ∀ event ∈ events, PyStr.given event.currentRowId → event.currentIndex = k + 1

namespace Publishes

variable {s s' s'' : RunAll}

theorem refl (s : RunAll) : Publishes k s s :=
  ⟨[], (List.append_nil _).symm, rfl, fun _ hevent => absurd hevent List.not_mem_nil⟩

theorem trans (h : Publishes k s s') (h' : Publishes k s' s'') : Publishes k s s'' := by
  obtain ⟨events, hp, hr, ha⟩ := h
  obtain ⟨events', hp', hr', ha'⟩ := h'
  refine ⟨events ++ events', ?_, ?_, fun event hevent => ?_⟩
  · rw [hp', hp, List.append_assoc]
  · rw [hr', hr, List.foldl_append]
  · obtain hmem | hmem := List.mem_append.mp hevent
    · exact ha event hmem
    · exact ha' event hmem

theorem congr (h : Publishes k s s') (hp : s''.progress = s'.progress)
    (hr : s''.run = s'.run) : Publishes k s s'' := by
  obtain ⟨events, heq⟩ := h
  exact ⟨events, hp.trans heq.1, hr.trans heq.2.1, heq.2.2⟩

section

variable (hk : s.index = k) (phase : Phase) (phaseState : PhaseState) (base : Row) (rows : List Row)
include hk

theorem emit : Publishes k s (s.emit phase phaseState base rows) := by
  refine ⟨_, rfl, rfl, fun event hevent _ => ?_⟩
  rw [List.mem_singleton.mp hevent, hk]

theorem finishRow (failed : Bool) :
    Publishes k s (s.finishRow phase phaseState base rows failed) := by
  refine ⟨_, rfl, rfl, fun event hevent _ => ?_⟩
  rw [List.mem_singleton.mp hevent]
  exact congrArg (· + 1) hk

end

theorem publish (h : event.currentRowId = []) : Publishes k s (s.publish event) := by
  refine ⟨_, rfl, rfl, fun other hother hgiven => ?_⟩
  rw [List.mem_singleton.mp hother, h] at hgiven
  exact absurd hgiven (by decide)

section

variable (hk : s.index = k)
include hk

variable (base row : Row)

theorem checkStep (base row given : Row) (shown : List Row) (tool : Cvekit) :
    Publishes k s (s.checkStep base row given shown tool) := by
  have hemit := emit hk .checking .running base shown
  unfold RunAll.checkStep
  dsimp only [report_emit]
  split
  · exact hemit.congr rfl rfl
  · next report checked _ =>
    have hstored : Publishes k s ((s.emit .checking .running base shown).store report) :=
      hemit.congr rfl rfl
    have hindex : ((s.emit .checking .running base shown).store report).index = k := hk
    split_ifs
    · exact hemit.congr rfl rfl
    · exact hstored.trans (finishRow hindex _ _ _ _ _)
    · exact hstored.trans (emit hindex _ _ _ _)

theorem applyStep (b : Behaviour) :
    Publishes k s (s.applyStep base row b) := by
  have hemit := emit hk .applying .running base [row]
  unfold RunAll.applyStep
  dsimp only [report_emit]
  split
  · exact hemit.congr rfl rfl
  · next report applied _ =>
    have hstored : Publishes k s ((s.emit .applying .running base [row]).store report) :=
      hemit.congr rfl rfl
    have hindex : ((s.emit .applying .running base [row]).store report).index = k := hk
    split_ifs
    · exact hemit.congr rfl rfl
    · exact hstored.trans (checkStep hindex _ _ _ _ _)
    · exact hstored.trans (finishRow hindex _ _ _ _ _)
    · exact hstored.trans (finishRow hindex _ _ _ _ _)

theorem applyResolved (b : Behaviour) :
    Publishes k s (s.applyResolved base b) := by
  unfold RunAll.applyResolved
  split
  · exact (refl s).congr rfl rfl
  · split_ifs
    · exact finishRow hk _ _ _ _ _
    · exact applyStep hk _ _ _

theorem resolveStep (b : Behaviour) :
    Publishes k s (s.resolveStep row b) := by
  have hemit := emit hk .resolving .running row [row]
  unfold RunAll.resolveStep
  dsimp only [report_emit]
  split
  · exact hemit.congr rfl rfl
  · next report resolved _ =>
    have hstored : Publishes k s ((s.emit .resolving .running row [row]).store report) :=
      hemit.congr rfl rfl
    have hindex : ((s.emit .resolving .running row [row]).store report).index = k := hk
    split_ifs
    · exact hemit.congr rfl rfl
    · have hmerged : (((s.emit .resolving .running row [row]).store report).store
          (mergeReportRows report (failedRows resolved row))).index = k := hk
      exact (hstored.congr rfl rfl).trans (finishRow hmerged _ _ _ _ _)
    · have hresolved := emit hindex .resolving .completed row (rowsOr resolved.rows row)
      exact (hstored.trans hresolved).trans
        (applyResolved ((index_emit _ _ _ _ _).trans hindex) _ _)

theorem processRow (b : Behaviour) :
    Publishes k s (s.processRow row b) := by
  unfold RunAll.processRow
  split_ifs
  · exact finishRow hk _ _ _ _ _
  · exact checkStep hk _ _ _ _ _
  · exact resolveStep hk _ _
  · exact applyStep hk _ _ _

end

theorem finish (s : RunAll) : Publishes k s s.finish := by
  unfold RunAll.finish
  split_ifs
  · exact (refl s).congr rfl rfl
  · exact (publish rfl).congr rfl rfl

theorem iterate (s : RunAll) (b : Behaviour) : Publishes s.index s (s.iterate b) := by
  have hcount : Publishes s.index s { s with stepCount := s.stepCount + 1 } :=
    (refl s).congr rfl rfl
  cases hrow : s.current b with
  | none =>
    obtain ⟨-, -, heq⟩ | ⟨-, heq⟩ := iterate_of_none hrow
    · rw [heq]
      exact hcount.trans ((publish rfl).congr rfl rfl)
    · rw [heq]
      exact finish s
  | some row =>
    rw [iterate_of_current hrow]
    exact hcount.trans (processRow rfl row b)

theorem start (report : List Row) (run : ExecutionRun) (maxSteps : Option Nat) (pause : Bool) :
    Publishes k { report, maxSteps := maxStepsOf maxSteps report, run }
      (start report run maxSteps pause) := by
  cases pause with
  | false => exact (publish rfl).trans (publish rfl)
  | true => exact ((publish rfl).trans (publish rfl)).trans ((publish rfl).congr rfl rfl)

end Publishes

def publishedEvents (s : RunAll) : RunAllAction → List Progress
  | .iterate b => (s.iterate b).progress.drop s.progress.length
  | .resume maxSteps pause => (start s.report s.run maxSteps pause).progress

/-- Every event about a row fits the case of the row the loop is at. -/
def ProgressFits (report : List Row) (s : RunAll) (a : RunAllAction) : Prop :=
  ∀ event ∈ publishedEvents s a, PyStr.given event.currentRowId →
    FitsCase (caseNames (ExecutionRun.create report).cases) s.index event

instance (report : List Row) (s : RunAll) : DecidablePred (ProgressFits report s) := fun a =>
  inferInstanceAs (Decidable (∀ event ∈ publishedEvents s a, _))

/-- The events of a step are recorded one after the other, each in the case of the row the loop is
at and in no other, and every case stands for the commit it was built for. -/
def AttributesProgress (report : List Row) (s : RunAll) (a : RunAllAction) (s' : RunAll) : Prop :=
  s'.run = (publishedEvents s a).foldl recordProgress s.run ∧
    (∀ before event after, publishedEvents s a = before ++ event :: after →
      OwnCase s.index (before.foldl recordProgress s.run).cases
        (recordProgress (before.foldl recordProgress s.run) event).cases) ∧
    s'.run.cases.map Case.commit = (ExecutionRun.create report).cases.map Case.commit

theorem commits_of_names {cases cases' : List Case} (h : caseNames cases' = caseNames cases) :
    cases'.map Case.commit = cases.map Case.commit := by
  have hcommits := congrArg (List.map Prod.snd) h
  rw [caseNames, caseNames, List.map_map, List.map_map] at hcommits
  exact hcommits

variable {report : List Row} {s s' : RunAll} {a : RunAllAction}

theorem run_eq_foldl (hs : step s a = some s') :
    s'.run = (publishedEvents s a).foldl recordProgress s.run := by
  cases a with
  | iterate b =>
    simp only [step] at hs
    split_ifs at hs
    cases hs
    obtain ⟨events, hp, hr, -⟩ := Publishes.iterate s b
    rw [publishedEvents, hp, List.drop_left, hr]
  | resume maxSteps pause =>
    simp only [step] at hs
    split_ifs at hs
    cases hs
    obtain ⟨events, hp, hr, -⟩ := Publishes.start (k := s.index) s.report s.run maxSteps pause
    rw [publishedEvents, hp, List.nil_append, hr]

theorem cases_start (report : List Row) (run : ExecutionRun) (maxSteps : Option Nat)
    (pause : Bool) : (start report run maxSteps pause).run.cases = run.cases := by
  cases pause <;> rfl

theorem attributesProgress_step
    (hnames : caseNames s.run.cases = caseNames (ExecutionRun.create report).cases)
    (hfits : ProgressFits report s a) (hs : step s a = some s') :
    caseNames s'.run.cases = caseNames (ExecutionRun.create report).cases ∧
      AttributesProgress report s a s' := by
  have hrun := run_eq_foldl hs
  have hnames' : caseNames s'.run.cases = caseNames (ExecutionRun.create report).cases := by
    rw [hrun]
    exact names_foldl hnames hfits
  refine ⟨hnames', hrun, fun before event after heq => ?_, commits_of_names hnames'⟩
  exact ownCase_foldl hnames hfits heq

def presentRow : Row := { name := { commit := ['a'] }, mergedInTarget := .bool true }

def appliedRow : Row := { name := { commit := ['b'] }, appliedCommit := ['f'] }

end WittyService
