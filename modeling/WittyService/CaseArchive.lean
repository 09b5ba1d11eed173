import Mathlib.Data.List.Infix
import WittyService.BackportRows

/-! The archive of the cases of a backport task: `case_dir`, `archive_case_attempt` and
`read_artifact`. A file is the bytes it has. The times, statuses and titles that `case.json` also
keeps are left out. -/
namespace WittyService

abbrev FileBytes := List UInt8

/-- What a call needs of Python and of its disk. `path` is `Path(text).expanduser()`, `read` the
bytes of a path that is a regular file, `attemptFile` a regular file of the attempt directory and
`attemptGlob` the first regular one that `glob("*-" + name)` finds there, `listing` the order in
which the directories of the cases are found. -/
structure ArchiveTools (α P : Type*) where
  reader : FieldReader α
  rowNumber : PyStr → ℕ
  path : PyStr → P
  fileName : P → PyStr
  read : P → Option FileBytes
  attemptFile : PyStr → Option FileBytes
  attemptGlob : PyStr → Option FileBytes
  listing : List PyStr
  decode : FileBytes → Option PyStr
  decodeReplacing : FileBytes → PyStr
  encode : PyStr → FileBytes
  redact : PyStr → PyStr
  dumpsIndented : Field α → PyStr

/-- `[a-z0-9]`. -/
def isSlugChar (c : Char) : Bool := ('a' ≤ c && c ≤ 'z') || ('0' ≤ c && c ≤ '9')

/-- `[0-9a-f]`. -/
def isHexChar (c : Char) : Bool := ('0' ≤ c && c ≤ '9') || ('a' ≤ c && c ≤ 'f')

def safeSlug (lower : PyStr → PyStr) (value fallback : PyStr) (maxLength : ℕ) : PyStr :=
  let text := ['-'].intercalate
    (((lower (PyStr.strip value)).splitOnP fun c => !isSlugChar c).filter (· ≠ []))
  ((if text = [] then fallback else text).take maxLength).rdropWhile (· == '-')

/-- `safe_slug` with the `max_length` it has by default. -/
def slug (lower : PyStr → PyStr) (value fallback : PyStr) : PyStr :=
  safeSlug lower value fallback 96

/-- `f"{number:03d}"`. -/
def threeDigits (number : ℕ) : PyStr := (Nat.toDigits 10 number).leftpad 3 '0'

def ORIGINAL_PATCH : PyStr := "original.patch".toList

/-- The keys of `artifacts`. -/
inductive ArtifactKind where
  | originalPatch
  | resolvedPatch
  | applyLog
  | backportLog
  | engineLog
  | conflictReport
  deriving DecidableEq, Repr

inductive ArchiveScope where
  | run
  | interaction
  deriving DecidableEq, Repr

abbrev Artifacts := OrderedDict ArtifactKind PyStr

/-- `case.json`. -/
structure CaseFile where
  commit : PyStr
  artifacts : Artifacts := .empty
  runs : OrderedDict ℕ Artifacts := .empty
  interactions : OrderedDict ℕ Artifacts := .empty
  lastInteraction : ℕ := 0

/-- The directory of a case, `case.json` and the other files. -/
structure CaseDir where
  case : CaseFile
  files : OrderedDict PyStr FileBytes := .empty

abbrev CaseDirs := OrderedDict PyStr CaseDir

/-- A call of `archive_case_attempt`: its arguments, the run id of the store and the `current_run`
of the task. -/
structure ArchiveCall (α : Type*) where
  rows : List (ReportRow α)
  patchKeys : List String
  result : ReportRow α
  scope : ArchiveScope
  runId : PyStr
  currentRun : ℕ

variable {α P : Type*}

namespace ArchiveTools

variable (tools : ArchiveTools α P)

def orElse (first second : Field α) : Field α := first.or tools.reader second

def text (value : Field α) : PyStr := (tools.orElse value (.text [])).str tools.reader

def fileOf (value : Field α) : Option FileBytes :=
  if value.truthy tools.reader then tools.read (tools.path (value.str tools.reader)) else none

end ArchiveTools

/-- The commit `case_dir` looks for, where `rowId` is the last choice. -/
def caseCommit (tools : ArchiveTools α P) (row : ReportRow α) : PyStr :=
  let rowId := if (row.get "row_id").truthy tools.reader then (row.get "row_id").str tools.reader
    else ['0']
  (["commit", "commit_id", "input_commit", "upstream_commit"].foldr (fun key rest =>
    tools.orElse (row.get key) rest) (.text rowId)).str tools.reader

def caseId (lower : PyStr → PyStr) (tools : ArchiveTools α P) (row : ReportRow α) : PyStr :=
  let number := tools.rowNumber (tools.text
    (tools.orElse (row.get "row_number") (tools.orElse (row.get "row") (row.get "index"))))
  let commit := caseCommit tools row
  let hex := ((lower commit).filter isHexChar).take 12
  let commitSlug := if hex = [] then (slug lower commit "item".toList).take 12 else hex
  let title := tools.text
    (tools.orElse (row.get "commit_title") (tools.orElse (row.get "title") (row.get "subject")))
  threeDigits number ++ ['-'] ++ commitSlug ++ ['-'] ++
    safeSlug lower title "commit".toList 48

def sameCommit (lower : PyStr → PyStr) (existing commit : PyStr) : Bool :=
  existing ≠ [] && ((lower commit).isPrefixOf (lower existing) ||
    (lower existing).isPrefixOf (lower commit))

/-- `case_dir`: the name of the directory of the case, and the directories with it. -/
def caseDir (lower : PyStr → PyStr) (tools : ArchiveTools α P) (dirs : CaseDirs)
    (row : ReportRow α) : PyStr × CaseDirs :=
  let commit := caseCommit tools row
  match tools.listing.find? fun id =>
      (dirs.get? id).any fun dir => sameCommit lower dir.case.commit commit with
  | some id => (id, dirs)
  | none =>
    let id := caseId lower tools row
    (id, if (dirs.get? id).isSome then dirs else dirs.set id { case := { commit } })

/-- `_available_artifact_name`, `none` when it raises. -/
def availableArtifactName (taken : PyStr → Bool) (stem suffix : PyStr) : Option PyStr :=
  if taken (stem ++ suffix) = false then some (stem ++ suffix)
  else (List.range' 2 998).findSome? fun attemptNumber =>
    let candidate := stem ++ "-attempt-".toList ++ threeDigits attemptNumber ++ suffix
    if taken candidate then none else some candidate

/-- What a call is going to do with one artifact. A log that is blank once it is redacted has no
`content`: a name is looked for and nothing is stored. -/
inductive ArtifactStep where
  | raises
  | store (kind : ArtifactKind) (stem suffix : PyStr) (content : Option FileBytes)
  deriving DecidableEq

namespace ArchiveCall

variable (lower : PyStr → PyStr) (tools : ArchiveTools α P) (call : ArchiveCall α)

/-- The patch of a row under the keys that contain `word`. -/
def patchSource (row : ReportRow α) (word : PyStr) : Option FileBytes :=
  call.patchKeys.findSome? fun key =>
    if word <:+: key.toList then tools.fileOf (row.get key) else none

def runSuffix : PyStr :=
  let runId := slug lower call.runId []
  if runId = [] then [] else '-' :: runId

/-- `cleaned` with its line end, when it is not blank. -/
def cleaned (log : PyStr) : Option FileBytes :=
  let cleaned := PyStr.strip (tools.redact log)
  if cleaned = [] then none else some (tools.encode (cleaned ++ ['\n']))

def newBatchLogPath (row : ReportRow α) : Field α :=
  tools.orElse (call.result.get "batch_log_path") (row.get "batch_log_path")

def operation : PyStr := tools.text (call.result.get "operation")

def resolvedSteps (row : ReportRow α) (stem : PyStr) (original : Option FileBytes) :
    List ArtifactStep :=
  match call.patchSource tools row "backport".toList with
  | some bytes =>
    if bytes ≠ [] ∧ original ≠ some bytes then
      [.store .resolvedPatch (stem ++ "-resolved".toList) ".patch".toList (some bytes)]
    else []
  | none => []

def batchLog (row : ReportRow α) : Option FileBytes :=
  let value := tools.orElse (call.newBatchLogPath tools row)
    (tools.orElse (call.result.get "batch_logfile") (tools.orElse (row.get "batch_logfile")
      (tools.orElse (call.result.get "log_path") (row.get "log_path"))))
  if value.truthy tools.reader then
    let path := tools.path (value.str tools.reader)
    ((tools.read path).or (tools.attemptFile (tools.fileName path))).or
      (tools.attemptGlob (tools.fileName path))
  else none

def backportSuffix (row : ReportRow α) : PyStr :=
  let engine := lower (PyStr.strip (tools.text (row.get "backport_engine")))
  let invoked := row.get "backport_engine_invoked"
  let usedEngine : Bool := match invoked with
    | .null => (tools.orElse (row.get "log_path") (row.get "logfile")).truthy tools.reader
    | value => value.truthy tools.reader
  if engine ≠ [] ∧ usedEngine then '-' :: slug lower engine "item".toList else []

def batchSteps (row : ReportRow α) (stem : PyStr) : List ArtifactStep :=
  match call.batchLog tools row with
  | some bytes =>
    match tools.decode bytes with
    | none => [.raises]
    | some log =>
      match cleaned tools log with
      | none => []
      | some content =>
        if call.operation tools = "apply_row".toList then
          [.store .applyLog (stem ++ "-apply".toList ++ call.runSuffix lower) ".log".toList
            (some content)]
        else
          [.store .backportLog (stem ++ "-backport".toList ++ backportSuffix lower tools row ++
            call.runSuffix lower) ".log".toList (some content)]
  | none => []

def engineLog [DecidableEq P] (row : ReportRow α) (engine : PyStr) : Option FileBytes :=
  let newBatchLogPath := call.newBatchLogPath tools row
  let value :=
    if newBatchLogPath.truthy tools.reader then
      let candidate := tools.orElse (row.get "log_path") (call.result.get "log_path")
      if candidate.truthy tools.reader ∧ tools.path (candidate.str tools.reader) ≠
          tools.path (newBatchLogPath.str tools.reader) then candidate else .text []
    else tools.orElse (row.get "logfile") (call.result.get "logfile")
  if value.truthy tools.reader then
    let path := tools.path (value.str tools.reader)
    ((tools.read path).or (tools.attemptFile (engine ++ ['-'] ++ tools.fileName path))).or
      (tools.attemptFile (tools.fileName path))
  else none

def engineSteps [DecidableEq P] (row : ReportRow α) (stem : PyStr) : List ArtifactStep :=
  let engine := slug lower (tools.text (row.get "backport_engine")) "engine".toList
  match call.engineLog tools row engine with
  | some bytes =>
    [.store .engineLog (stem ++ ['-'] ++ engine ++ call.runSuffix lower) ".log".toList
      (cleaned tools (tools.decodeReplacing bytes))]
  | none => []

def conflictSteps (row : ReportRow α) (stem : PyStr) : List ArtifactStep :=
  let store (report : PyStr) : ArtifactStep :=
    .store .conflictReport (stem ++ "-conflict-report".toList) ".json".toList
      (some (tools.encode (tools.redact report)))
  match tools.attemptFile "conflict-report.json".toList with
  | some bytes =>
    match tools.decode bytes with
    | some report => [store report]
    | none => [.raises]
  | none =>
    match row.get "conflict_summary" with
    | .null => []
    | summary => [store (tools.dumpsIndented summary)]

def artifactStem (number : ℕ) : PyStr :=
  (match call.scope with
    | .run => "run-".toList
    | .interaction => "interaction-".toList) ++ threeDigits number

def steps [DecidableEq P] (row : ReportRow α) (number : ℕ) (original : Option FileBytes) :
    List ArtifactStep :=
  let stem := call.artifactStem number
  call.resolvedSteps tools row stem original ++ call.batchSteps lower tools row stem ++
    call.engineSteps lower tools row stem ++ conflictSteps tools row stem

def withOriginal (row : ReportRow α) (files : OrderedDict PyStr FileBytes) :
    OrderedDict PyStr FileBytes :=
  if (files.get? ORIGINAL_PATCH).isSome then files
  else match call.patchSource tools row "original".toList with
    | some bytes => files.set ORIGINAL_PATCH bytes
    | none => files

/-- `archive_number`, `none` when the call raises. -/
def archiveNumber (case : CaseFile) : Option ℕ :=
  match call.scope with
  | .run => if call.currentRun < 1 then none else some call.currentRun
  | .interaction => some ((case.interactions.entries.map Prod.fst).foldl max
      case.lastInteraction + 1)

end ArchiveCall

def isTaken (files : OrderedDict PyStr FileBytes) (name : PyStr) : Bool :=
  name = "case.json".toList || (files.get? name).isSome

def storeSteps : List ArtifactStep → OrderedDict PyStr FileBytes → Artifacts →
    OrderedDict PyStr FileBytes × Option Artifacts
  | [], files, artifacts => (files, some artifacts)
  | .raises :: _, files, _ => (files, none)
  | .store kind stem suffix content :: rest, files, artifacts =>
    match availableArtifactName (isTaken files) stem suffix with
    | none => (files, none)
    | some name =>
      match content with
      | none => storeSteps rest files artifacts
      | some bytes => storeSteps rest (files.set name bytes) (artifacts.set kind name)

def originalArtifact (files : OrderedDict PyStr FileBytes) : Artifacts :=
  if (files.get? ORIGINAL_PATCH).isSome then
    OrderedDict.empty.set .originalPatch ORIGINAL_PATCH
  else .empty

namespace CaseFile

def collection (case : CaseFile) : ArchiveScope → OrderedDict ℕ Artifacts
  | .run => case.runs
  | .interaction => case.interactions

def archived (case : CaseFile) (scope : ArchiveScope) (number : ℕ) : Artifacts :=
  ((case.collection scope).get? number).getD .empty

/-- `case.json` after a call. -/
def register (case : CaseFile) (scope : ArchiveScope) (number : ℕ) (original artifacts : Artifacts) :
    CaseFile :=
  let archive := (case.archived scope number).update artifacts
  let case := { case with artifacts := case.artifacts.update original }
  match scope with
  | .run => { case with runs := case.runs.set number archive }
  | .interaction =>
    { case with
      interactions := case.interactions.set number archive
      lastInteraction := number }

/-- `registered` of `read_artifact`. -/
def registered (case : CaseFile) : List PyStr :=
  case.artifacts.entries.map Prod.snd ++
    (case.runs.entries ++ case.interactions.entries).flatMap fun archive =>
      archive.2.entries.map Prod.snd

end CaseFile

/-- What `archive_case_attempt` returns. -/
structure ArchivedCase where
  caseId : PyStr
  scope : ArchiveScope
  number : ℕ
  artifacts : Artifacts

/-- `archive_case_attempt`: the directories of the cases after the call, and what it returns unless
it raises. -/
def archiveCaseAttempt [DecidableEq P] (lower : PyStr → PyStr) (tools : ArchiveTools α P)
    (call : ArchiveCall α) (dirs : CaseDirs) : CaseDirs × Option ArchivedCase :=
  match call.rows with
  | [] => (dirs, none)
  | row :: _ =>
    let (caseId, dirs) := caseDir lower tools dirs row
    match dirs.get? caseId with
    | none => (dirs, none)
    | some dir =>
      match call.archiveNumber dir.case with
      | none => (dirs, none)
      | some number =>
        let files := call.withOriginal tools row dir.files
        let original := originalArtifact files
        match storeSteps (call.steps lower tools row number (files.get? ORIGINAL_PATCH)) files
            original with
        | (files, none) => (dirs.set caseId { dir with files }, none)
        | (files, some artifacts) =>
          (dirs.set caseId
            { case := dir.case.register call.scope number original artifacts, files },
            some { caseId, scope := call.scope, number, artifacts })

def isFileName (artifact : PyStr) : Bool := '/' ∉ artifact && artifact ≠ ['.']

/-- `read_artifact`, `none` when it raises. -/
def readArtifact (lower : PyStr → PyStr) (dirs : CaseDirs) (caseId artifact : PyStr) :
    Option FileBytes :=
  (dirs.get? (slug lower caseId "item".toList)).bind fun dir =>
    if artifact ∈ dir.case.registered ∧ isFileName artifact then dir.files.get? artifact else none

end WittyService
