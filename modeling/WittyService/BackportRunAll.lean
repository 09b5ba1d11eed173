import WittyService.BackportCvekit
import WittyService.BackportSummary
import WittyService.GuardedRuns

/-! The loop of `_run_all` over the rows of a report, one iteration after the other, and the stored
run its events update. The events about waiting for the repository lock, which repeat the last
event, are left out. -/
namespace WittyService

/-- How a pass of `_run_all` ends. -/
inductive Ending where
  | paused
  | lockTimeout
  | crashed
  | maxSteps
  | completed
  deriving DecidableEq, Repr

structure RunAll where
  report : List Row
  maxSteps : Nat
  index : Nat := 0
  stepCount : Nat := 0
  failedCount : Nat := 0
  processedCount : Nat := 0
  progress : List Progress := []
  run : ExecutionRun
  ended : Option Ending := none

/-- What an iteration meets: a pause request, and the calls of `cvekit` it may make. `fallback` is
the check after a failed direct application. -/
structure Behaviour where
  pause : Bool := false
  check : Cvekit := .failed .crashed
  resolve : Cvekit := .failed .crashed
  apply : Cvekit := .failed .crashed
  fallback : Cvekit := .failed .crashed

def rowsOr (rows : List Row) (row : Row) : List Row := if rows = [] then [row] else rows

def unresolvedRow (resolved : Result) (row item : Row) : Row :=
  { item with
    status := "failed".toList
    hasConflict := .bool true
    error := PyStr.or resolved.summary "自动解冲突失败".toList
    conflictCheckError :=
      PyStr.or (PyStr.or resolved.summary resolved.errorText) row.conflictCheckError }

/-- `failed_rows` of `_run_all`. -/
def failedRows (resolved : Result) (row : Row) : List Row :=
  (rowsOr resolved.rows row).map (unresolvedRow resolved row)

/-- `unresolved` of `_run_all`. -/
def Result.unresolved (resolved : Result) : Bool :=
  resolved.failed || (findBlockingConflict resolved.rows).isSome

/-- `current_row_id` of the events about a row. -/
def currentRowId (row : Row) : PyStr :=
  PyStr.or (PyStr.or row.name.rowId row.name.commit) row.name.inputCommit

namespace RunAll

/-- `_emit_run_all_progress`. -/
def publish (s : RunAll) (event : Progress) : RunAll :=
  { s with progress := s.progress ++ [event], run := recordProgress s.run event }

def emit (s : RunAll) (phase : Phase) (phaseState : PhaseState) (base : Row)
    (updatedCommits : List Row) : RunAll :=
  s.publish
    { phase
      phaseState
      currentIndex := s.index + 1
      currentRowId := currentRowId base
      updatedCommits := updatedCommits.map sanitizeCommitItem
      failedCount := s.failedCount
      processedCount := s.processedCount }

def store (s : RunAll) (report : List Row) : RunAll := { s with report }

def stop (s : RunAll) (ending : Ending) : RunAll := { s with ended := some ending }

def finishRow (s : RunAll) (phase : Phase) (phaseState : PhaseState) (base : Row)
    (updatedCommits : List Row) (failed : Bool) : RunAll :=
  let counted := { s with
    failedCount := if failed then s.failedCount + 1 else s.failedCount
    processedCount := s.processedCount + 1 }
  let s := counted.emit phase phaseState base updatedCommits
  { s with index := s.index + 1 }

section
variable (s : RunAll) (event : Progress) (phase : Phase) (phaseState : PhaseState) (base : Row)
  (rows : List Row) (failed : Bool) (ending : Ending)

@[simp] theorem report_emit : (s.emit phase phaseState base rows).report = s.report := rfl
@[simp] theorem report_store : (s.store rows).report = rows := rfl
@[simp] theorem report_finishRow :
    (s.finishRow phase phaseState base rows failed).report = s.report := rfl
@[simp] theorem index_emit : (s.emit phase phaseState base rows).index = s.index := rfl
@[simp] theorem index_store : (s.store rows).index = s.index := rfl

end

def skip (s : RunAll) (base row : Row) : RunAll :=
  s.finishRow .skipped .completed base [row] row.isFailed

/-- The check of one row, `given` to the client as it is then. -/
def checkStep (s : RunAll) (base row given : Row) (shown : List Row) (tool : Cvekit) : RunAll :=
  let s := s.emit .checking .running base shown
  match runCheckRow s.report given tool with
  | (report, .error _) => (s.store report).stop .crashed
  | (report, .ok checked) =>
    let s := s.store report
    if checked.lockTimeout then s.stop .lockTimeout
    else if checked.failed then s.finishRow .failed .failed base (rowsOr checked.rows row) true
    else s.emit .checking .completed base checked.rows

def applyStep (s : RunAll) (base row : Row) (b : Behaviour) : RunAll :=
  let s := s.emit .applying .running base [row]
  match runApplyRow s.report row b.apply with
  | (report, .error _) => (s.store report).stop .crashed
  | (report, .ok applied) =>
    let s := s.store report
    if applied.lockTimeout then s.stop .lockTimeout
    else if applied.failed && base.wasUnchecked then
      s.checkStep base row (applied.rows.head?.getD row) (rowsOr applied.rows row) b.fallback
    else if applied.failed then s.finishRow .failed .failed base applied.rows true
    else s.finishRow .applying .completed base applied.rows false

def applyResolved (s : RunAll) (base : Row) (b : Behaviour) : RunAll :=
  match s.report[s.index]? with
  | none => s.stop .crashed
  | some row => if row.isTerminalNonblockingRow then s.skip base row else s.applyStep base row b

def resolveStep (s : RunAll) (row : Row) (b : Behaviour) : RunAll :=
  let s := s.emit .resolving .running row [row]
  match runTryResolve s.report row b.resolve with
  | (report, .error _) => (s.store report).stop .crashed
  | (report, .ok resolved) =>
    let s := s.store report
    if resolved.lockTimeout then s.stop .lockTimeout
    else if resolved.unresolved then
      let merged := mergeReportRows report (failedRows resolved row)
      (s.store merged).finishRow .failed .failed row
        (affectedRows merged (failedRows resolved row)) true
    else (s.emit .resolving .completed row (rowsOr resolved.rows row)).applyResolved row b

def processRow (s : RunAll) (row : Row) (b : Behaviour) : RunAll :=
  if row.isTerminalNonblockingRow then s.skip row row
  else if row.needsCheck then s.checkStep row row row [row] b.check
  else if row.hasConflict.isTrue then s.resolveStep row b
  else s.applyStep row row b

def current (s : RunAll) (b : Behaviour) : Option Row :=
  if s.stepCount < s.maxSteps ∧ b.pause = false then s.report[s.index]? else none

/-- `_build_run_all_paused_result`. -/
def pause (s : RunAll) : RunAll :=
  (s.publish
    { phase := .paused
      phaseState := .completed
      currentIndex := min (s.processedCount + 1) s.report.length
      failedCount := s.failedCount
      processedCount := s.processedCount }).stop .paused

def finish (s : RunAll) : RunAll :=
  if s.maxSteps ≤ s.stepCount ∧ s.index < s.report.length then s.stop .maxSteps
  else
    (s.publish
      { phase := .completed
        phaseState := .completed
        currentIndex := s.report.length
        failedCount := s.failedCount
        processedCount := s.processedCount }).stop .completed

def iterate (s : RunAll) (b : Behaviour) : RunAll :=
  if s.index < s.report.length ∧ s.stepCount < s.maxSteps then
    let s := { s with stepCount := s.stepCount + 1 }
    if b.pause then s.pause
    else
      match s.report[s.index]? with
      | none => s.finish
      | some row => s.processRow row b
  else s.finish

section

variable {s : RunAll} {b : Behaviour}

variable {row : Row}

theorem iterate_of_current (h : s.current b = some row) :
    s.iterate b = ({ s with stepCount := s.stepCount + 1 } : RunAll).processRow row b := by
  unfold current at h
  split_ifs at h with hc
  have hlt := (List.getElem?_eq_some_iff.mp h).1
  unfold iterate
  rw [if_pos ⟨hlt, hc.1⟩]
  simp only [hc.2, Bool.false_eq_true, if_false, h]

theorem iterate_of_none (h : s.current b = none) :
    (s.index < s.report.length ∧ b.pause = true ∧
      s.iterate b = ({ s with stepCount := s.stepCount + 1 } : RunAll).pause) ∨
    (¬ (s.index < s.report.length ∧ s.stepCount < s.maxSteps) ∧ s.iterate b = s.finish) := by
  unfold iterate
  by_cases hc : s.index < s.report.length ∧ s.stepCount < s.maxSteps
  · left
    have hpause : b.pause = true := by
      by_contra hb
      rw [Bool.not_eq_true] at hb
      rw [current, if_pos ⟨hc.2, hb⟩, List.getElem?_eq_getElem hc.1] at h
      cases h
    refine ⟨hc.1, hpause, ?_⟩
    simp [if_pos hc, hpause]
  · exact .inr ⟨hc, if_neg hc⟩

theorem current_eq_some (h : s.current b = some row) :
    s.report[s.index]? = some row := by
  unfold current at h
  split_ifs at h
  exact h

end

@[simp] theorem report_finish (s : RunAll) : s.finish.report = s.report := by
  unfold finish
  split_ifs <;> rfl

/-- `payload.get("max_steps") or max(len(current_commits) * 4, 20)`. -/
def maxStepsOf (maxSteps : Option Nat) (report : List Row) : Nat :=
  if maxSteps.getD 0 = 0 then max (report.length * 4) 20 else maxSteps.getD 0

def start (report : List Row) (run : ExecutionRun) (maxSteps : Option Nat) (pause : Bool) :
    RunAll :=
  let s : RunAll := { report, maxSteps := maxStepsOf maxSteps report, run }
  let initializing : Progress := { phase := .initializing, phaseState := .completed }
  let s := (s.publish initializing).publish initializing
  if pause then s.pause else s

end RunAll

inductive RunAllAction where
  | iterate (b : Behaviour)
  | resume (maxSteps : Option Nat) (pause : Bool)

namespace RunAll

@[simp] theorem report_start (report : List Row) (run : ExecutionRun) (maxSteps : Option Nat)
    (pause : Bool) : (start report run maxSteps pause).report = report := by
  cases pause <;> rfl

def step (s : RunAll) : RunAllAction → Option RunAll
  | .iterate b => if s.ended = none then some (s.iterate b) else none
  | .resume maxSteps pause =>
    if s.ended = some .paused then some (start s.report s.run maxSteps pause) else none

end RunAll

end WittyService
