import Mathlib.Tactic.SplitIfs
import WittyService.BackportRows

/-! The cases of a backport run, one for each row, and what the events of the run make of them.
The archive name of a case is left out. -/
namespace WittyService

def summaryText (text : PyStr) (limit : Nat) : PyStr :=
  let text := [' '].intercalate (PyStr.words text)
  if text.length ≤ limit then text else PyStr.rstrip (text.take (limit - 1)) ++ ['…']

/-- The limit `_summary_text` has by default. -/
def SUMMARY_TEXT_LIMIT : Nat := 2000

inductive Phase where
  | initializing
  | checking
  | resolving
  | applying
  | skipped
  | failed
  | paused
  | completed
  | waitingForRepository
  deriving DecidableEq, Repr

inductive PhaseState where
  | running
  | completed
  | failed
  deriving DecidableEq, Repr

/-- The `state` of a stage of a case. -/
inductive StageState where
  | notStarted
  | running
  | completed
  | failed
  | notNeeded
  deriving DecidableEq, Repr

/-- The `result` of a stage of a case. -/
inductive StageResult where
  | empty
  | equivalentExists
  | alreadyPresent
  | conflict
  | cleanApply
  | failed
  | backportGenerated
  | readyToApply
  | directApply
  | applied
  | skipped
  deriving DecidableEq, Repr

structure Detection where
  state : StageState := .notStarted
  result : StageResult := .empty
  deriving DecidableEq, Repr

structure Handling where
  state : StageState := .notStarted
  result : StageResult := .empty
  engine : PyStr := []
  report : PyStr := []
  deriving DecidableEq, Repr

structure Final where
  state : StageState := .notStarted
  result : StageResult := .empty
  appliedCommit : PyStr := []
  deriving DecidableEq, Repr

structure Case where
  row : Nat
  commit : PyStr
  title : PyStr
  detection : Detection := {}
  handling : Handling := {}
  final : Final := {}
  deriving DecidableEq, Repr

/-- `applied_patch_kind` or a backported patch says that another patch than the original one was
applied. -/
def usedResolvedPatch (row : Row) : Bool :=
  let kind := PyStr.lower (PyStr.strip row.appliedPatchKind)
  (kind ≠ [] && kind ≠ "original".toList) ||
    (PyStr.given row.backportedPatchPath && kind ≠ "original".toList)

/-- The `status` as `_set_detection_from_row` reads it, with the blanks around it. -/
def readsFailed (row : Row) : Bool :=
  PyStr.lower row.status = "failed".toList || PyStr.lower row.status = "error".toList

def setDetectionFromRow (detection : Detection) (row : Row) : Detection :=
  if detection.state = .completed ∨ detection.state = .failed then detection
  else if row.equivalentExists.isTrue then ⟨.completed, .equivalentExists⟩
  else if PyStr.given row.appliedCommit then
    ⟨.completed, if usedResolvedPatch row then .conflict else .cleanApply⟩
  else if row.mergedInTarget.isTrue then ⟨.completed, .alreadyPresent⟩
  else if row.hasConflict.isTrue then ⟨.completed, .conflict⟩
  else if readsFailed row then ⟨.failed, .failed⟩
  else if row.hasConflict.isFalse then ⟨.completed, .cleanApply⟩
  else detection

def summaryCase (row : Row) (index : Nat) : Case :=
  { row := if row.rowNumber.getD 0 = 0 then index else row.rowNumber.getD 0
    commit := PyStr.or (PyStr.or row.name.commit row.name.inputCommit) row.name.rowId
    title := summaryText row.title SUMMARY_TEXT_LIMIT
    detection := setDetectionFromRow {} row }

namespace Case

/-- The branch `checking` of `_update_summary_case`. -/
def checking (summary : Case) (row : Row) : PhaseState → Case
  | .running =>
    if summary.detection.state = .notStarted then
      { summary with detection := { summary.detection with state := .running } }
    else summary
  | .completed => { summary with detection := setDetectionFromRow summary.detection row }
  | .failed => { summary with detection := ⟨.failed, .failed⟩ }

/-- What the branch `resolving` makes of the detection. -/
def detectionResolving (detection : Detection) (row : Row) : Detection :=
  let detection := setDetectionFromRow detection row
  if detection.state = .notStarted then ⟨.completed, .conflict⟩ else detection

/-- The branch `resolving`. -/
def resolving (summary : Case) (row : Row) (phaseState : PhaseState) : Case :=
  let report := PyStr.or row.backportExplanation row.conflictSummary
  let handling : Handling := { summary.handling with
    engine := summaryText row.backportEngine 80
    report := if report = [] then summary.handling.report
      else summaryText report SUMMARY_TEXT_LIMIT }
  let summary := { summary with
    detection := detectionResolving summary.detection row
    handling }
  if phaseState = .running then { summary with handling := { handling with state := .running } }
  else if phaseState = .failed ∨ row.isFailed then
    { summary with handling := { handling with state := .failed, result := .failed } }
  else if row.equivalentExists.isTrue then
    { summary with
      handling := { handling with state := .completed, result := .equivalentExists } }
  else if PyStr.given row.backportedPatchPath then
    { summary with
      handling := { handling with state := .completed, result := .backportGenerated }
      final := { summary.final with state := .notStarted, result := .readyToApply } }
  else summary

/-- What the branch `applying` makes of the handling when the phase completes. -/
def handlingApplied (detection : Detection) (handling : Handling) (row : Row) : Handling :=
  if handling.state ≠ .notStarted then handling
  else if detection.result = .cleanApply then
    { handling with state := .completed, result := .directApply }
  else if detection.result = .conflict ∧ PyStr.given row.backportedPatchPath then
    { handling with
      state := .completed
      result := .backportGenerated
      engine := summaryText row.backportEngine 80 }
  else handling

/-- The branch `applying`. -/
def applying (summary : Case) (row : Row) (phaseState : PhaseState) : Case :=
  match phaseState with
  | .running =>
    let final : Final := { summary.final with state := .running, result := .empty }
    { summary with
      final := if row.isFailed then { final with state := .failed, result := .failed }
        else final }
  | .failed =>
    { summary with final := { summary.final with state := .failed, result := .failed } }
  | .completed =>
    let appliedCommit := summaryText row.appliedCommit 80
    let detection := setDetectionFromRow summary.detection row
    let detection := if appliedCommit ≠ [] ∧
        (detection.state = .notStarted ∨ detection.state = .running) then
      ⟨.completed, .cleanApply⟩ else detection
    { summary with
      detection
      handling := handlingApplied detection summary.handling row
      final :=
        if appliedCommit ≠ [] then ⟨.completed, .applied, appliedCommit⟩
        else if row.isFailed then { summary.final with state := .failed, result := .failed }
        else summary.final }

/-- The branch `skipped`. -/
def skipped (summary : Case) (row : Row) : Case :=
  let detection := setDetectionFromRow summary.detection row
  let appliedCommit := summaryText row.appliedCommit 80
  { summary with
    detection
    handling :=
      if detection.result = .equivalentExists ∨ detection.result = .alreadyPresent then
        { summary.handling with state := .notNeeded, result := .equivalentExists }
      else summary.handling
    final :=
      if appliedCommit ≠ [] then ⟨.completed, .applied, appliedCommit⟩
      else { summary.final with state := .completed, result := .skipped } }

/-- The branch `failed`. -/
def failing (summary : Case) (row : Row) : Case :=
  let detection := setDetectionFromRow summary.detection row
  if detection.state = .notStarted ∨ detection.state = .running then
    { summary with detection := ⟨.failed, .failed⟩ }
  else if detection.result = .conflict ∧
      (summary.handling.state = .notStarted ∨ summary.handling.state = .running) then
    { summary with
      detection
      handling := { summary.handling with state := .failed, result := .failed } }
  else
    { summary with
      detection
      final := { summary.final with state := .failed, result := .failed } }

def takeOver (summary : Case) (row : Row) : Case :=
  { summary with
    handling := { summary.handling with
      report := if row.backportExplanation = [] then summary.handling.report
        else summaryText row.backportExplanation SUMMARY_TEXT_LIMIT
      engine := if row.backportEngine = [] then summary.handling.engine
        else summaryText row.backportEngine 80 } }

def updateSummaryCase (summary : Case) (row : Row) (phase : Phase) (phaseState : PhaseState) :
    Case :=
  match phase with
  | .checking => (summary.checking row phaseState).takeOver row
  | .resolving => (summary.resolving row phaseState).takeOver row
  | .applying => (summary.applying row phaseState).takeOver row
  | .skipped => (summary.skipped row).takeOver row
  | .failed => (summary.failing row).takeOver row
  | .initializing | .paused | .completed | .waitingForRepository => summary.takeOver row

end Case

def Case.stageFailed (summary : Case) : Bool :=
  summary.detection.state = .failed || summary.handling.state = .failed ||
    summary.final.state = .failed

def Case.isApplied (summary : Case) : Bool := summary.final.result = .applied

/-- The cases `_summary_counts` counts as failed. -/
def Case.isFailed (summary : Case) : Bool := !summary.isApplied && summary.stageFailed

/-- The cases `_summary_counts` counts as equivalent. -/
def Case.isEquivalent (summary : Case) : Bool :=
  !summary.isApplied && !summary.isFailed &&
    (summary.detection.result = .equivalentExists || summary.detection.result = .alreadyPresent ||
      summary.handling.result = .equivalentExists)

structure Counts where
  total : Nat
  applied : Nat
  directApplied : Nat
  conflictResolved : Nat
  equivalentExists : Nat
  failed : Nat
  unprocessed : Nat
  deriving DecidableEq, Repr

def summaryCounts (cases : List Case) : Counts :=
  let appliedCases := cases.filter Case.isApplied
  let conflictResolved := appliedCases.countP fun summary => summary.detection.result = .conflict
  let failed := cases.countP Case.isFailed
  let equivalentExists := cases.countP Case.isEquivalent
  let classified := appliedCases.length + failed + equivalentExists
  { total := cases.length
    applied := appliedCases.length
    directApplied := appliedCases.length - conflictResolved
    conflictResolved
    equivalentExists
    failed
    unprocessed := cases.length - classified }

/-- What `record_progress` reads of an event. The rows are sanitized. -/
structure Progress where
  phase : Phase
  phaseState : PhaseState
  currentIndex : Nat := 0
  currentRowId : PyStr := []
  updatedCommits : List Row := []
  failedCount : Nat := 0
  processedCount : Nat := 0
  deriving DecidableEq, Repr

structure RunSummary where
  processed : Nat := 0
  success : Nat := 0
  failed : Nat := 0
  deriving DecidableEq, Repr

/-- The stored run: its `summary` and its `cases`. -/
structure ExecutionRun where
  summary : RunSummary := {}
  cases : List Case := []
  deriving DecidableEq, Repr

/-- The run `create_async_record` stores for a report. -/
def ExecutionRun.create (report : List Row) : ExecutionRun :=
  { cases := report.zipIdx.map fun item => summaryCase item.1 (item.2 + 1) }

def sanitizeCommitItem (row : Row) : Row :=
  { row with
    name := { row.name with rowId := row.id }
    backportedPatchPath := []
    patchPath := []
    originalPatchPath := [] }

def rowNumberOf (row : Row) (currentIndex : Nat) : Nat :=
  if row.rowNumber.getD 0 = 0 then currentIndex else row.rowNumber.getD 0

def commitOf (row : Row) (rowId : PyStr) : PyStr :=
  PyStr.or (PyStr.or row.name.commit row.name.inputCommit) rowId

/-- `record_progress` takes a case for the one of a row by its number or by its commit. -/
def Case.matchesRow (rowNumber : Nat) (commit : PyStr) (summary : Case) : Bool :=
  summary.row = rowNumber || (commit ≠ [] && PyStr.lower summary.commit = PyStr.lower commit)

def Case.record (row : Row) (commit : PyStr) (progress : Progress) (summary : Case) : Case :=
  Case.updateSummaryCase
    { summary with
      commit := PyStr.or commit summary.commit
      title := if row.title = [] then summary.title else summaryText row.title SUMMARY_TEXT_LIMIT }
    row progress.phase progress.phaseState

def recordCase (cases : List Case) (progress : Progress) : List Case :=
  let row := progress.updatedCommits.head?.getD { name := {} }
  let commit := commitOf row (PyStr.strip progress.currentRowId)
  let rowNumber := rowNumberOf row progress.currentIndex
  match cases.findIdx? (Case.matchesRow rowNumber commit) with
  | some index => cases.modify index (Case.record row commit progress)
  | none =>
    let index := if rowNumber = 0 then cases.length + 1 else rowNumber
    cases ++ [Case.record row commit progress (summaryCase row index)]

def recordProgress (run : ExecutionRun) (progress : Progress) : ExecutionRun :=
  { summary :=
      { processed := progress.processedCount
        success := progress.processedCount - progress.failedCount
        failed := progress.failedCount }
    cases := if PyStr.given progress.currentRowId then recordCase run.cases progress
      else run.cases }

/-- A case that is not counted as applied is counted as failed exactly when a stage failed, and as
equivalent only when none did. -/
theorem classes_disjoint (summary : Case) :
    (if summary.isApplied then 1 else 0) + (if summary.isFailed then 1 else 0) +
      (if summary.isEquivalent then 1 else 0) ≤ 1 := by
  cases happlied : summary.isApplied with
  | true => simp [Case.isFailed, Case.isEquivalent, happlied]
  | false =>
    cases hfailed : summary.isFailed with
    | true => simp [Case.isEquivalent, happlied, hfailed]
    | false =>
      simp only [Bool.false_eq_true, if_false, Nat.zero_add]
      split_ifs <;> omega

variable (cases : List Case)

theorem classified_le :
    cases.countP Case.isApplied + cases.countP Case.isFailed + cases.countP Case.isEquivalent ≤
      cases.length := by
  induction cases with
  | nil => exact le_refl 0
  | cons summary cases ih =>
    have hclass := classes_disjoint summary
    simp only [List.countP_cons, List.length_cons]
    omega

end WittyService
