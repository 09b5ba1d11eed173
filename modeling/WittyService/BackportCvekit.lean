import WittyService.BackportRows

/-! The calls of `cvekit` for one row of a report. A call is given by how the tool ends and what it
writes. The report of a run that has not ended can be read and written. -/
namespace WittyService

/-- `str(error)` and the `error_text` of the diagnostics, and whether the error is the retryable
timeout of the repository lock. -/
structure CallError where
  message : PyStr
  errorText : PyStr
  lockTimeout : Bool
  deriving DecidableEq, Repr

/-- A `ValueError` or a `RuntimeError` of the service itself. -/
def CallError.plain (message : PyStr) : CallError := ⟨message, message, false⟩

def CallError.summary (error : CallError) : PyStr :=
  if error.lockTimeout then
    "目标仓库正被其他任务使用，等待超时。请稍后手动重试。".toList
  else error.message

/-- What leaves a call: one of the three exceptions `_run_check_row`, `_run_try_resolve` and
`_run_apply_row` catch, or another one. -/
inductive Failure where
  | raised (error : CallError)
  | crashed
  deriving DecidableEq, Repr

/-- How a call of `cvekit` ends: the rows it left in the report it was given, the `status` and the
`error` it printed, and how the archive of the attempt ends after the rows are stored. -/
inductive Cvekit where
  | failed (failure : Failure)
  | wrote (rows : List Row) (status error : PyStr) (archive : Except Failure Unit)

def Cvekit.rows : Cvekit → List Row
  | .failed _ => []
  | .wrote rows _ _ _ => rows

structure Result where
  failed : Bool
  rows : List Row
  summary : PyStr
  errorText : PyStr := []
  lockTimeout : Bool := false
  deriving DecidableEq, Repr

def Result.ofError (error : CallError) (rows : List Row) : Result :=
  { failed := true, rows, summary := error.summary, errorText := error.errorText,
    lockTimeout := error.lockTimeout }

def rowNotFound (row : Row) : CallError :=
  .plain ("report 中找不到 row_id=".toList ++ row.id)

/-- `row_for_check` of `check_row`. -/
def rowForCheck (resolvedRow : Row) : Row :=
  let originalPatchPath :=
    PyStr.strip (PyStr.or resolvedRow.originalPatchPath resolvedRow.patchPath)
  let row : Row := { resolvedRow with
    status := "pending".toList
    mergedInTarget := .null
    mergedCheckError := []
    hasConflict := .null
    conflictCheckMethod := []
    conflictCheckError := []
    backportedPatchPath := [] }
  if originalPatchPath = [] then row
  else { row with originalPatchPath, patchPath := originalPatchPath }

/-- `failed_row` of `_run_check_row`. -/
def checkFailureRow (row : Row) (error : CallError) : Row :=
  { row.markFailed error.message with conflictCheckError := error.message }

/-- The exception branch of `_run_check_row`: the row is stored as failed. -/
def storeCheckFailure (report : List Row) (row : Row) (error : CallError) : List Row × Result :=
  let report := mergeReportRows report [checkFailureRow row error]
  (report, .ofError error (affectedRows report [checkFailureRow row error]))

/-- `check_row`: the report afterwards, and what is returned or raised. -/
def checkRow (report : List Row) (row : Row) (tool : Cvekit) : List Row × Except Failure Result :=
  match resolveCommitRow report row with
  | none => (report, .error (.raised (rowNotFound row)))
  | some resolvedRow =>
    match tool with
    | .failed failure => (report, .error failure)
    | .wrote rows _ _ archive =>
      let updatedRow := rows.head?.getD (rowForCheck resolvedRow)
      (mergeReportRows report [updatedRow], archive.map fun _ =>
        { failed := false, rows := [updatedRow], summary := "当前提交已检查。".toList })

def runCheckRow (report : List Row) (row : Row) (tool : Cvekit) :
    List Row × Except Failure Result :=
  match checkRow report row tool with
  | (report, .error (.raised error)) =>
    let (report, result) := storeCheckFailure report row error
    (report, .ok result)
  | ended => ended

/-- `execute_selected` for one selected row: what becomes of the report, and the rows and the
summary it returns. -/
def executeSelected (report : List Row) (row : Row) (tool : Cvekit) :
    List Row × Except Failure (List Row × PyStr) :=
  match resolveCommitRow report row with
  | none => (report, .error (.raised (rowNotFound row)))
  | some resolvedRow =>
    if resolvedRow.needsNothing then
      (report, .ok ([resolvedRow], "选中的 1 条 commit 均无需执行".toList))
    else
      match tool with
      | .failed failure => (report, .error failure)
      | .wrote rows _ _ archive =>
        let merged := mergeReportRows report rows
        let commits := affectedRows merged rows
        -- the archive of a case refuses an empty list of rows
        if commits = [] then
          (merged, .error (.raised (.plain
            "Backport case archive requires at least one row.".toList)))
        else
          (merged, archive.map fun _ => (commits,
            "执行完成，共处理 ".toList ++ (Nat.repr commits.length).toList ++
              " 条 commit".toList))

def normalizeTryResolveRow (row : Row) : Row :=
  if row.equivalentExists.isTrue then
    { row with
      hasConflict := .bool false
      conflictCheckMethod := "llm-equivalence".toList
      conflictCheckError := []
      backportedPatchPath := []
      patchPath := []
      error := [] }
  else if row.statusWord = "success".toList ∧ PyStr.given row.appliedCommit then
    { row with
      hasConflict := .bool false
      mergedInTarget := .bool true
      conflictCheckError := []
      error := [] }
  else if row.statusWord = "success".toList ∧ PyStr.given row.backportedPatchPath then
    { row with
      hasConflict := .bool false
      conflictCheckMethod := "backport-generated".toList
      conflictCheckError := []
      error := []
      patchPath := PyStr.strip row.backportedPatchPath }
  else row

def tryResolve (report : List Row) (row : Row) (tool : Cvekit) :
    List Row × Except Failure Result :=
  match findBlockingConflict report with
  | none =>
    (report, .ok { failed := true, rows := [], summary := "当前 report 没有可处理的阻塞冲突。".toList })
  | some firstConflict =>
    match resolveCommitRow report row with
    | none => (report, .error (.raised (rowNotFound row)))
    | some resolvedRow =>
      if firstConflict.id ≠ resolvedRow.id then
        (report, .ok { failed := true, rows := [firstConflict],
                       summary := "只能处理当前第一条阻塞冲突。".toList })
      else
        match executeSelected report resolvedRow tool with
        | (report, .error failure) => (report, .error failure)
        | (report, .ok (commits, summary)) =>
          let rows := commits.map normalizeTryResolveRow
          let report := mergeReportRows report rows
          (report, .ok { failed := false, rows := affectedRows report rows, summary })

def resolveApplyValue (row : Row) : Option PyStr :=
  ([row.backportedPatchPath, row.patchPath, row.originalPatchPath, row.name.commit,
    row.name.inputCommit].map PyStr.strip).find? (· ≠ [])

/-- What `apply_row` makes of a row when the tool prints another status than `success`. -/
def applyStatus (status error : PyStr) (row : Row) : Row :=
  { row with
    status := PyStr.lower (PyStr.strip status)
    error := PyStr.or error row.error
    conflictCheckMethod := PyStr.or row.conflictCheckMethod "apply".toList
    conflictCheckError := PyStr.or error row.conflictCheckError }

/-- The rows of the tool's report that `apply_row` takes up. -/
def ownRows (resolvedRow : Row) (rows : List Row) : List Row :=
  let own := rows.filter fun row => row.id = resolvedRow.id
  if own = [] then [resolvedRow] else own

/-- The rows `apply_row` stores. -/
def appliedRows (resolvedRow : Row) (rows : List Row) (status error : PyStr) : List Row :=
  let word := PyStr.lower (PyStr.strip status)
  if word ≠ [] ∧ word ≠ "success".toList then
    (ownRows resolvedRow rows).map (applyStatus status error)
  else ownRows resolvedRow rows

def applyRow (report : List Row) (row : Row) (tool : Cvekit) : List Row × Except Failure Result :=
  match resolveCommitRow report row with
  | none => (report, .error (.raised (rowNotFound row)))
  | some resolvedRow =>
    if resolvedRow.needsNothing then
      (report, .ok { failed := false, rows := [resolvedRow], summary := "该提交无需执行".toList })
    else if resolveApplyValue resolvedRow = none then
      (report, .error (.raised (.plain "row 中缺少可用于 apply 的字段".toList)))
    else
      match tool with
      | .failed failure => (report, .error failure)
      | .wrote rows status error archive =>
        let affected := appliedRows resolvedRow rows status error
        let report := mergeReportRows report affected
        (report, archive.map fun _ =>
          { failed := PyStr.lower (PyStr.strip status) = "failed".toList
            rows := affectedRows report affected
            summary := PyStr.or error "单条应用执行完成".toList })

/-- The exception branch of `_run_try_resolve` and `_run_apply_row`: the failed row is returned
and not stored. -/
def returnFailure (row : Row) :
    List Row × Except Failure Result → List Row × Except Failure Result
  | (report, .error (.raised error)) =>
    (report, .ok (.ofError error [row.markFailed error.message]))
  | ended => ended

def runTryResolve (report : List Row) (row : Row) (tool : Cvekit) :
    List Row × Except Failure Result := returnFailure row (tryResolve report row tool)

def runApplyRow (report : List Row) (row : Row) (tool : Cvekit) :
    List Row × Except Failure Result := returnFailure row (applyRow report row tool)

end WittyService
