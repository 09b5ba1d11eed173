import WittyService.BackportCvekit
import WittyService.BackportRuns

/-! The actions of the client on the report of a run, with the order in which each of them reads the
report, runs `cvekit` and writes. The attempt's own files and what is archived are left out. -/
namespace WittyService

/-- A path as it is resolved: the report of a run, or another file. -/
inductive ReportPath where
  | run (task : PyStr) (number : Nat)
  | other (path : PyStr)
  deriving DecidableEq, Repr

/-- `_read_report` of the bytes of a file, none when they are not a YAML object, and the dump of the
report data with its `commits`. What is dumped can be read. -/
structure ReportYaml (β : Type) where
  load : β → Option (Dict × List Row)
  dump : Dict → List Row → β
  load_dump : ∀ data commits, ∃ data', load (dump data commits) = some (data', commits)

inductive ReportError where
  | frozen
  | notFound
  | invalidReport
  | rowNotFound
  | emptySelection
  | noCommits
  | noApplyValue
  | call (failure : Failure)
  deriving DecidableEq, Repr

/-- The settings of a request that go into the report. `layoutLevel` is the `default_level` of valid
`target_config_layout_opts`. -/
structure CommitMessageConfig where
  commitMessageTemplate : PyStr := []
  commitMessageSource : PyStr := []
  signerName : PyStr := []
  signerEmail : PyStr := []
  linuxRepoPath : PyStr := []
  targetConfigLayout : PyStr := "none".toList
  layoutLevel : Option PyStr := none
  deriving DecidableEq, Repr

def normalizeCommitMessageSource (value : PyStr) : PyStr :=
  if value ∈ ["auto".toList, "openEuler".toList, "upstream".toList] then value
  else "upstream".toList

/-- The level of the layout after `_normalize_layout_fields`, none for the layout `none`. -/
def normalizeLayoutFields (layout : PyStr) (level : Option PyStr) : Option PyStr :=
  if PyStr.strip layout = "anolis".toList then some (level.getD "L1-RECOMMEND".toList) else none

def setText (data : Dict) (key : String) (value : PyStr) : Dict :=
  Dict.set data key (.str (String.ofList value))

/-- The change `_override_commit_message_config` makes. -/
def overrideCommitMessageConfig (config : CommitMessageConfig) (data : Dict) : Dict :=
  let source := normalizeCommitMessageSource config.commitMessageSource
  let data := if PyStr.given config.commitMessageTemplate then
    setText data "commit_message_template" config.commitMessageTemplate else data
  let data := if source ≠ "auto".toList then setText data "commit_message_source" source else data
  let data := if PyStr.given config.signerName then
    setText data "signer_name" (PyStr.strip config.signerName) else data
  let data := if PyStr.given config.signerEmail then
    setText data "signer_email" (PyStr.strip config.signerEmail) else data
  let data := if source = "auto".toList ∧ PyStr.given config.linuxRepoPath then
    setText data "linux_repo_path" (PyStr.strip config.linuxRepoPath) else data
  let data := Dict.pop (Dict.pop data "target_config_layout") "target_config_layout_opts"
  match normalizeLayoutFields config.targetConfigLayout config.layoutLevel with
  | none => data
  | some level =>
    Dict.set (setText data "target_config_layout" "anolis".toList) "target_config_layout_opts"
      (.obj [("default_level", .str (String.ofList level))])

/-- The runs of the tasks and the report files. `ranCvekit` says that the action has called
`_run_cvekit`. -/
structure ReportStore (β : Type) where
  tasks : PyStr → TaskFiles
  files : ReportPath → Option β
  ranCvekit : Bool := false

structure Served (β : Type) where
  store : ReportStore β
  ended : Except ReportError Result

/-- What an action meets: an exception while its workspace is prepared, and the call of `cvekit`. -/
structure CallEnvironment where
  workspace : Option Failure := none
  tool : Cvekit

inductive ReportAction where
  | applyRow (row : Row) (config : CommitMessageConfig)
  | executeSelected (selectedCommits : List Row)
  | tryResolve (row : Row)
  | checkRow (row : Row)
  | recheckConflict (row : Row)
  | continueReport
  | previewCommitMessage (row : Row)

namespace ReportStore

variable {β : Type} (s : ReportStore β)

/-- `is_report_frozen`. The name of a frozen report has three digits. -/
def isReportFrozen : ReportPath → Bool
  | .run task number =>
    number ≤ 999 && ((s.tasks task).readRun number).any fun file => file.status.isTerminal
  | .other _ => false

def write (path : ReportPath) (bytes : β) : ReportStore β :=
  { s with files := Function.update s.files path (some bytes) }

def stop (ended : Except ReportError Result) : Served β := ⟨s, ended⟩

def early (failed : Bool) (rows : List Row) (summary : PyStr) : Except ReportError Result :=
  .ok { failed, rows, summary }

variable (yaml : ReportYaml β) (base : ReportPath) (working : Option ReportPath)

def readReport (path : ReportPath) : Except ReportError (Dict × List Row) :=
  match s.files path with
  | none => .error .notFound
  | some bytes =>
    match yaml.load bytes with
    | none => .error .invalidReport
    | some report => .ok report

/-- `_write_report`, and what follows it. -/
def writeReport (data : Dict) (commits : List Row) (next : ReportStore β → Served β) : Served β :=
  if s.isReportFrozen base then s.stop (.error .frozen)
  else next (s.write base (yaml.dump data commits))

/-- `_resolve_commit_row` over its candidates. -/
def resolveIn (row : Row) : List ReportPath → Except ReportError Row
  | [] => .error .rowNotFound
  | path :: rest =>
    match s.files path with
    | none => resolveIn row rest
    | some bytes =>
      match yaml.load bytes with
      | none => .error .invalidReport
      | some (_, commits) =>
        match resolveCommitRow commits row with
        | some resolvedRow => .ok resolvedRow
        | none => resolveIn row rest

def resolveRow (row : Row) : Except ReportError Row :=
  s.resolveIn yaml row ((working.toList.filter (· ≠ base)) ++ [base])

/-- The preparation of the attempt, the call of `cvekit`, and what follows it. -/
def runCvekit (env : CallEnvironment)
    (next : ReportStore β → List Row → PyStr → PyStr → Except Failure Unit → Served β) : Served β :=
  match env.workspace with
  | some failure => s.stop (.error (.call failure))
  | none =>
    let s := { s with ranCvekit := true }
    match env.tool with
    | .failed failure => s.stop (.error (.call failure))
    | .wrote rows status error archive => next s rows status error archive

/-- `archive_case_attempt` after the report is written. -/
def archived (archive : Except Failure Unit) (result : Result) : Served β :=
  match archive with
  | .error failure => s.stop (.error (.call failure))
  | .ok () => s.stop (.ok result)

def checkTarget (row : Row) : Except (Except ReportError Result) (Dict × List Row × Row) :=
  match s.readReport yaml base with
  | .error error => .error (.error error)
  | .ok (data, commits) =>
    match s.resolveRow yaml base working row with
    | .error error => .error (.error error)
    | .ok resolvedRow => .ok (data, commits, resolvedRow)

/-- The same for `recheck_conflict`. -/
def recheckTarget (row : Row) : Except (Except ReportError Result) (Dict × List Row × Row) :=
  match s.readReport yaml base with
  | .error error => .error (.error error)
  | .ok (data, commits) =>
    match findBlockingConflict commits with
    | none => .error (early true [] "当前 report 没有可检测的阻塞冲突。".toList)
    | some firstConflict =>
      match s.resolveRow yaml base working row with
      | .error error => .error (.error error)
      | .ok resolvedRow =>
        if firstConflict.id ≠ resolvedRow.id then
          .error (early true [firstConflict] "只能检测当前第一条阻塞冲突。".toList)
        else .ok (data, commits, resolvedRow)

/-- The call for one row, as in `check_row` and `recheck_conflict`. -/
def check (env : CallEnvironment) (summary : String) :
    Except (Except ReportError Result) (Dict × List Row × Row) → Served β
  | .error ended => s.stop ended
  | .ok (data, commits, resolvedRow) => s.runCvekit env fun s rows _ _ archive =>
    let updatedRow := rows.head?.getD (rowForCheck resolvedRow)
    s.writeReport yaml base data (mergeReportRows commits [updatedRow]) fun s =>
      s.archived archive { failed := false, rows := [updatedRow], summary := summary.toList }

def isPendingRow (row : Row) : Bool := row.statusWord = "pending".toList

/-- The report to go on with in `continue_report`, and the index of its first pending row. -/
def continueTarget : Except (Except ReportError Result) (Dict × Nat) :=
  match s.readReport yaml base with
  | .error error => .error (.error error)
  | .ok (data, commits) =>
    if commits = [] then .error (.error .noCommits)
    else if (findBlockingConflict commits).isSome then
      .error (early true commits "当前仍有阻塞冲突，请先检测或处理当前冲突后再继续检查。".toList)
    else
      match commits.findIdx? isPendingRow with
      | none => .error (early false commits "当前 report 没有待检查的 pending 条目。".toList)
      | some index => .ok (data, index)

def continueReport (env : CallEnvironment) : Served β :=
  match s.continueTarget yaml base with
  | .error ended => s.stop ended
  | .ok (data, index) => s.runCvekit env fun s rows _ _ archive =>
    s.writeReport yaml base data rows fun s => s.archived archive
      { failed := false
        rows
        summary := "继续检查完成，从第 ".toList ++ (Nat.repr (index + 1)).toList ++
          " 条 pending 开始推进。".toList }

/-- The rows that `execute_selected` looks up, one after the other. -/
def resolveAll : List Row → Except ReportError (List Row)
  | [] => .ok []
  | row :: rows =>
    match s.resolveRow yaml base working row with
    | .error error => .error error
    | .ok resolvedRow => (resolveAll rows).map (resolvedRow :: ·)

/-- The rows `execute_selected` runs `cvekit` for. -/
def executeTarget (selectedCommits : List Row) : Except (Except ReportError Result) (List Row) :=
  match s.readReport yaml base with
  | .error error => .error (.error error)
  | .ok _ =>
    if selectedCommits = [] then .error (.error .emptySelection)
    else
      match s.resolveAll yaml base working selectedCommits with
      | .error error => .error (.error error)
      | .ok resolvedCommits =>
        let actionableCommits := resolvedCommits.filter fun row => !row.needsNothing
        if actionableCommits = [] then
          .error (early false resolvedCommits ("选中的 ".toList ++
            (Nat.repr resolvedCommits.length).toList ++ " 条 commit 均无需执行".toList))
        else .ok actionableCommits

def executeSelected (selectedCommits : List Row) (env : CallEnvironment) : Served β :=
  match s.executeTarget yaml base working selectedCommits with
  | .error ended => s.stop ended
  | .ok _ => s.runCvekit env fun s rows _ _ archive =>
    match s.readReport yaml base with
    | .error error => s.stop (.error error)
    | .ok (data, baseCommits) =>
      let mergedCommits := mergeReportRows baseCommits rows
      s.writeReport yaml base data mergedCommits fun s =>
        let commits := affectedRows mergedCommits rows
        s.archived archive
          { failed := false
            rows := commits
            summary := "执行完成，共处理 ".toList ++ (Nat.repr commits.length).toList ++
              " 条 commit".toList }

/-- The row `try_resolve` goes on with. -/
def resolveTarget (row : Row) : Except (Except ReportError Result) Row :=
  match s.readReport yaml base with
  | .error error => .error (.error error)
  | .ok (_, commits) =>
    match findBlockingConflict commits with
    | none => .error (early true [] "当前 report 没有可处理的阻塞冲突。".toList)
    | some firstConflict =>
      match s.resolveRow yaml base working row with
      | .error error => .error (.error error)
      | .ok resolvedRow =>
        if firstConflict.id ≠ resolvedRow.id then
          .error (early true [firstConflict] "只能处理当前第一条阻塞冲突。".toList)
        else .ok resolvedRow

def tryResolve (row : Row) (env : CallEnvironment) : Served β :=
  match s.resolveTarget yaml base working row with
  | .error ended => s.stop ended
  | .ok resolvedRow =>
    let served := s.executeSelected yaml base working [resolvedRow] env
    match served.ended with
    | .error error => served.store.stop (.error error)
    | .ok result =>
      let s := served.store
      let rows := result.rows.map normalizeTryResolveRow
      if rows = [] then s.stop (.ok result)
      else
        match s.readReport yaml base with
        | .error error => s.stop (.error error)
        | .ok (data, commits) =>
          let nextCommits := mergeReportRows commits rows
          s.writeReport yaml base data nextCommits fun s =>
            s.stop (.ok { result with rows := affectedRows nextCommits rows })

/-- The report that `apply_row` gives to the tool. -/
def applyConfigPath : ReportPath :=
  match working with
  | some path => if (s.files path).isSome then path else base
  | none => base

/-- The row `apply_row` goes on with. -/
def applyTarget (row : Row) : Except (Except ReportError Result) Row :=
  if (s.files base).isNone then .error (.error .notFound)
  else
    match s.resolveRow yaml base working row with
    | .error error => .error (.error error)
    | .ok resolvedRow =>
      if resolvedRow.needsNothing then .error (early false [resolvedRow] "该提交无需执行".toList)
      else if resolveApplyValue resolvedRow = none then .error (.error .noApplyValue)
      else .ok resolvedRow

def applyRow (row : Row) (config : CommitMessageConfig) (env : CallEnvironment) : Served β :=
  match s.applyTarget yaml base working row with
  | .error ended => s.stop ended
  | .ok resolvedRow =>
    let path := s.applyConfigPath base working
    match s.readReport yaml path with
    | .error error => s.stop (.error error)
    | .ok (data, commits) =>
      let s := s.write path (yaml.dump (overrideCommitMessageConfig config data) commits)
      s.runCvekit env fun s rows status error archive =>
        let affected := appliedRows resolvedRow rows status error
        match s.readReport yaml base with
        | .error error => s.stop (.error error)
        | .ok (data, baseCommits) =>
          let nextCommits := mergeReportRows baseCommits affected
          s.writeReport yaml base data nextCommits fun s =>
            s.archived archive
              { failed := PyStr.lower (PyStr.strip status) = "failed".toList
                rows := affectedRows nextCommits affected
                summary := PyStr.or error "单条应用执行完成".toList }

/-- `preview_commit_message`. The tool gets a copy of the report. -/
def previewCommitMessage (row : Row) (env : CallEnvironment) : Served β :=
  if (s.files base).isNone then s.stop (.error .notFound)
  else
    match env.workspace, s.resolveRow yaml base working row with
    | some failure, _ => s.stop (.error (.call failure))
    | none, .error error => s.stop (.error error)
    | none, .ok resolvedRow =>
      if resolveApplyValue resolvedRow = none then s.stop (.error .noApplyValue)
      else s.runCvekit env fun s _ status error _ =>
        if status = "success".toList then
          s.stop (early false [] "commit message 预览已生成".toList)
        else s.stop (.error (.call (.raised (.plain error))))

/-- An action of a request that has not called `cvekit` yet. -/
def serve (s : ReportStore β) (env : CallEnvironment) (action : ReportAction) : Served β :=
  let s := { s with ranCvekit := false }
  match action with
  | .applyRow row config => s.applyRow yaml base working row config env
  | .executeSelected selectedCommits => s.executeSelected yaml base working selectedCommits env
  | .tryResolve row => s.tryResolve yaml base working row env
  | .checkRow row =>
    s.check yaml base env "当前提交已检查。" (s.checkTarget yaml base working row)
  | .recheckConflict row =>
    s.check yaml base env "当前冲突已重新检测。" (s.recheckTarget yaml base working row)
  | .continueReport => s.continueReport yaml base env
  | .previewCommitMessage row => s.previewCommitMessage yaml base working row env

end ReportStore

end WittyService
