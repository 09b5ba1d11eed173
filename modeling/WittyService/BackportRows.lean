import WittyService.KeyedMerge
import WittyService.OrderedDict
import WittyService.TextSegments

/-! The rows of a backport report and the merge of updated rows into it. A missing text is the
empty one. -/
namespace WittyService

/-- `text.lower()` as a comparison with an ASCII word sees it: outside ASCII only the Kelvin
sign has an ASCII letter for its lower case. -/
def PyStr.lower (text : PyStr) : PyStr :=
  text.map fun c => if c = '\u212A' then 'k' else c.toLower

/-- `str(value or "").strip()` is not empty. -/
def PyStr.given (text : PyStr) : Bool := PyStr.strip text ≠ []

def PyStr.or (first second : PyStr) : PyStr := if first = [] then second else first

/-- A field that is tested for `None`, for a boolean or for a word. -/
inductive Value where
  | null
  | bool (b : Bool)
  | text (s : PyStr)
  deriving DecidableEq, Repr

def Value.isTrue (value : Value) : Bool := value = .bool true

def Value.isFalse (value : Value) : Bool := value = .bool false

def Value.isSkipped : Value → Bool
  | .text s => PyStr.lower (PyStr.strip s) = "skipped".toList
  | _ => false

/-- The fields that name a row. The patch paths, which name a row without any of them, are left
out: a check clears them. -/
structure RowName where
  rowId : PyStr := []
  commit : PyStr := []
  inputCommit : PyStr := []
  deriving DecidableEq, Repr

/-- `_build_row_id`. -/
def RowName.id (name : RowName) : PyStr :=
  (([name.rowId, name.commit, name.inputCommit].map PyStr.strip).find? (· ≠ [])).getD []

/-- A commit of a report. `title` is the first of `commit_title`, `title` and `subject`, and
`conflictSummary` the reason or the error of `conflict_summary`. -/
structure Row where
  name : RowName
  title : PyStr := []
  rowNumber : Option Nat := none
  status : PyStr := []
  mergedInTarget : Value := .null
  hasConflict : Value := .null
  emptyPatch : Value := .null
  equivalentExists : Value := .null
  isMergeCommit : Value := .null
  appliedCommit : PyStr := []
  appliedPatchKind : PyStr := []
  backportedPatchPath : PyStr := []
  patchPath : PyStr := []
  originalPatchPath : PyStr := []
  backportEngine : PyStr := []
  backportExplanation : PyStr := []
  conflictSummary : PyStr := []
  error : PyStr := []
  mergedCheckError : PyStr := []
  conflictCheckMethod : PyStr := []
  conflictCheckError : PyStr := []
  deriving DecidableEq, Repr

namespace Row

def id (row : Row) : PyStr := row.name.id

def statusWord (row : Row) : PyStr := PyStr.lower (PyStr.strip row.status)

/-- The status is `failed` or `error`. -/
def isFailed (row : Row) : Bool :=
  row.statusWord = "failed".toList || row.statusWord = "error".toList

/-- `_is_skipped_commit` of the service and `_is_skipped_row` of the client. -/
def isSkippedCommit (row : Row) : Bool :=
  row.statusWord = "skipped".toList || row.mergedInTarget.isSkipped || row.isMergeCommit.isTrue

def isTerminalNonblockingRow (row : Row) : Bool :=
  row.isSkippedCommit || row.mergedInTarget.isTrue || row.emptyPatch.isTrue ||
    row.equivalentExists.isTrue || PyStr.given row.appliedCommit || row.isFailed

/-- `_is_blocking_conflict` of the client, which `_find_blocking_conflict` of the service
repeats. -/
def isBlockingConflict (row : Row) : Bool :=
  row.hasConflict.isTrue && !row.isFailed && !row.isSkippedCommit

/-- `was_unchecked` of `_run_all`. -/
def wasUnchecked (row : Row) : Bool :=
  row.statusWord = "pending".toList || row.hasConflict = .null

/-- `has_apply_candidate` of `_run_all`. -/
def hasApplyCandidate (row : Row) : Bool :=
  PyStr.given row.backportedPatchPath || PyStr.given row.patchPath ||
    PyStr.given row.originalPatchPath

/-- `needs_check` of `_run_all`. -/
def needsCheck (row : Row) : Bool := row.wasUnchecked && !row.hasApplyCandidate

def needsNothing (row : Row) : Bool :=
  row.mergedInTarget.isTrue || row.emptyPatch.isTrue || row.equivalentExists.isTrue ||
    row.statusWord = "skipped".toList || row.mergedInTarget.isSkipped

def markFailed (row : Row) (error : PyStr) : Row :=
  { row with status := "failed".toList, error }

variable {row : Row}

theorem isFailed_of_status (h : row.status = "failed".toList) : row.isFailed := by
  rw [isFailed, statusWord, h]
  decide +kernel

theorem isTerminal_of_isFailed (h : row.isFailed) : row.isTerminalNonblockingRow := by
  rw [isTerminalNonblockingRow, h, Bool.or_true]

theorem not_isFailed_of_isBlocking (h : row.isBlockingConflict) :
    row.isFailed = false := by
  simp only [isBlockingConflict, Bool.and_eq_true, Bool.not_eq_true'] at h
  exact h.1.2

theorem isBlocking_of_not_isTerminal (h : row.isTerminalNonblockingRow = false)
    (hc : row.hasConflict.isTrue) : row.isBlockingConflict := by
  simp only [isTerminalNonblockingRow, Bool.or_eq_false_iff] at h
  simp only [isBlockingConflict, hc, h.2, h.1.1.1.1.1, Bool.not_false, Bool.and_self]

theorem needsNothing_of_not_isTerminal (h : row.isTerminalNonblockingRow = false) :
    row.needsNothing = false := by
  simp only [isTerminalNonblockingRow, isSkippedCommit, Bool.or_eq_false_iff] at h
  obtain ⟨⟨⟨⟨⟨⟨⟨hs, hm⟩, -⟩, hmt⟩, he⟩, hq⟩, -⟩, -⟩ := h
  simp only [needsNothing, hs, hm, hmt, he, hq, Bool.or_false]

end Row

def findBlockingConflict (commits : List Row) : Option Row :=
  commits.find? Row.isBlockingConflict

def mergeReportRows (commits updatedRows : List Row) : List Row :=
  KeyedMerge.merge Row.id commits updatedRows

/-- The rows of a report that bear the id of one of `rows`. -/
def affectedRows (commits rows : List Row) : List Row :=
  commits.filter fun item => item.id ∈ rows.map Row.id

def overlayCommit (rawRow rowOverlay : Row) : Row :=
  { rowOverlay with
    name := { rowOverlay.name with rowId := rawRow.name.rowId }
    rowNumber := rowOverlay.rowNumber.or rawRow.rowNumber
    backportedPatchPath := rawRow.backportedPatchPath
    patchPath := rawRow.patchPath
    originalPatchPath := rawRow.originalPatchPath }

/-- `_resolve_commit_row`, `none` when no row bears the id. -/
def resolveCommitRow (commits : List Row) (row : Row) : Option Row :=
  (commits.zipIdx.find? fun item => item.1.id = row.id).map fun item =>
    let resolved := overlayCommit item.1 row
    { resolved with rowNumber := resolved.rowNumber.or (some (item.2 + 1)) }

/-! The rows of a report as the dictionaries that stand in its file: which fields name a row, how
the row of a request is looked up, and how updated rows are merged back by their names. -/

/-- The value of a field. `other` is what YAML reads besides: a float, a date, a collection. -/
inductive Field (α : Type*) where
  | null
  | bool (b : Bool)
  | int (n : ℤ)
  | text (s : PyStr)
  | other (v : α)
  deriving DecidableEq

abbrev ReportRow (α : Type*) := OrderedDict String (Field α)

/-- The items of `commits`. `none` is one that is no dictionary. -/
abbrev Report (α : Type*) := List (Option (ReportRow α))

/-- How the values the rows do not look into are read, and `json.dumps` of a row with
`sort_keys=True` and `ensure_ascii=False`. -/
structure FieldReader (α : Type*) where
  str : α → PyStr
  truthy : α → Bool
  dumps : ReportRow α → PyStr

variable {α : Type*}

namespace Field

def isTrue : Field α → Bool
  | .bool b => b
  | _ => false

def truthy (reader : FieldReader α) : Field α → Bool
  | .null => false
  | .bool b => b
  | .int n => n ≠ 0
  | .text s => s ≠ []
  | .other v => reader.truthy v

def str (reader : FieldReader α) : Field α → PyStr
  | .null => "None".toList
  | .bool b => if b then "True".toList else "False".toList
  | .int n => (toString n).toList
  | .text s => s
  | .other v => reader.str v

def or (reader : FieldReader α) (first second : Field α) : Field α :=
  if first.truthy reader then first else second

def strip (reader : FieldReader α) (value : Field α) : PyStr :=
  PyStr.strip ((value.or reader (.text [])).str reader)

def word (reader : FieldReader α) (value : Field α) : PyStr := PyStr.lower (value.strip reader)

def name? : Field α → Option PyStr
  | .text s => if PyStr.strip s = [] then none else some (PyStr.strip s)
  | _ => none

end Field

namespace ReportRow

def get (row : ReportRow α) (key : String) : Field α := (row.get? key).getD .null

def setdefault (row : ReportRow α) (key : String) (value : Field α) : ReportRow α :=
  if (row.get? key).isSome then row else row.set key value

def PATCH_KEYS : List String := ["original_patch_path", "patch_path", "backported_patch_path"]

def buildRowId (reader : FieldReader α) (row : ReportRow α) : PyStr :=
  ((["row_id", "commit", "input_commit", "original_patch_path", "patch_path",
    "backported_patch_path"]).findSome? fun key => (row.get key).name?).getD (reader.dumps row)

def overlayCommit (rawRow rowOverlay : ReportRow α) : ReportRow α :=
  rowOverlay.entries.foldl (fun merged entry =>
    if entry.1 = "row_id" ∨ entry.1 = "patches" ∨ entry.1 ∈ PATCH_KEYS then merged
    else merged.set entry.1 entry.2) rawRow

/-- The row of one report that `_resolve_commit_row` takes. -/
def findCommitRow (reader : FieldReader α) (row : ReportRow α) (commits : Report α) :
    Option (ReportRow α) :=
  commits.zipIdx.findSome? fun (item, index) => item.bind fun item =>
    if item.buildRowId reader = row.buildRowId reader then
      some ((item.overlayCommit row).setdefault "row_number" (.int (index + 1)))
    else none

/-- `_resolve_commit_row`, `none` when no row bears the id. -/
def resolveCommitRow (reader : FieldReader α) (row : ReportRow α) (base : Report α)
    (working : Option (Report α)) : Option (ReportRow α) :=
  (working.bind (row.findCommitRow reader)).or (row.findCommitRow reader base)

def mergeReportRows (reader : FieldReader α) (commits : Report α)
    (updatedRows : List (ReportRow α)) : Report α :=
  (KeyedMerge.merge (buildRowId reader) (commits.filterMap id) updatedRows).map some

def isSkippedRow (reader : FieldReader α) (row : ReportRow α) : Bool :=
  (row.get "status").word reader = "skipped".toList ||
    (row.get "merged_in_target").word reader = "skipped".toList ||
    (row.get "is_merge_commit").isTrue

def isBlockingConflict (reader : FieldReader α) (row : ReportRow α) : Bool :=
  (row.get "has_conflict").isTrue &&
    !((row.get "status").word reader = "failed".toList ||
      (row.get "status").word reader = "error".toList) &&
    !row.isSkippedRow reader

/-- Neither `apply_row` nor `execute_selected` hands such a row to the tool. -/
def needsNothing (reader : FieldReader α) (row : ReportRow α) : Bool :=
  (row.get "merged_in_target").isTrue || (row.get "empty_patch").isTrue ||
    (row.get "equivalent_exists").isTrue ||
    (row.get "status").word reader = "skipped".toList ||
    (row.get "merged_in_target").word reader = "skipped".toList

/-- `_resolve_apply_value`, `none` when it raises. -/
def resolveApplyValue (row : ReportRow α) : Option PyStr :=
  (["backported_patch_path", "patch_path", "original_patch_path", "commit",
    "input_commit"]).findSome? fun key => (row.get key).name?

/-- The row that `check_row` hands to the tool. -/
def rowForCheck (reader : FieldReader α) (row : ReportRow α) : ReportRow α :=
  let originalPatchPath :=
    ((row.get "original_patch_path").or reader (row.get "patch_path")).strip reader
  let cleared := (((((((row.set "status" (.text "pending".toList)).set "merged_in_target"
    .null).set "merged_check_error" .null).set "has_conflict" .null).set "conflict_check_method"
    .null).set "conflict_check_error" .null).set "backported_patch_path" .null)
  if originalPatchPath = [] then cleared
  else (cleared.set "original_patch_path" (.text originalPatchPath)).set "patch_path"
    (.text originalPatchPath)

/-- What `apply_row` makes of a row the tool was asked to apply, by the status and the error the
tool reports. -/
def applyStatus (reader : FieldReader α) (status error : Field α) (row : ReportRow α) :
    ReportRow α :=
  let applyStatus := status.word reader
  if applyStatus = [] ∨ applyStatus = "success".toList then row
  else (((row.set "status" (.text applyStatus)).set "error"
    (error.or reader (row.get "error"))).set "conflict_check_method"
    ((row.get "conflict_check_method").or reader (.text "apply".toList))).set
    "conflict_check_error" (error.or reader (row.get "conflict_check_error"))

def normalizeTryResolveRow (reader : FieldReader α) (row : ReportRow α) : ReportRow α :=
  let backportedPatchPath := (row.get "backported_patch_path").strip reader
  let appliedCommit := (row.get "applied_commit").strip reader
  let status := (row.get "status").word reader
  if (row.get "equivalent_exists").isTrue then
    (((((row.set "has_conflict" (.bool false)).set "conflict_check_method"
      (.text "llm-equivalence".toList)).set "conflict_check_error" .null).set
      "backported_patch_path" (.text [])).set "patch_path" (.text [])).set "error" .null
  else if status = "success".toList ∧ appliedCommit ≠ [] then
    (((row.set "has_conflict" (.bool false)).set "merged_in_target" (.bool true)).set
      "conflict_check_error" .null).set "error" .null
  else if status = "success".toList ∧ backportedPatchPath ≠ [] then
    ((((row.set "has_conflict" (.bool false)).set "conflict_check_method"
      (.text "backport-generated".toList)).set "conflict_check_error" .null).set "error"
      .null).set "patch_path" (.text backportedPatchPath)
  else row

end ReportRow

end WittyService
