import Mathlib.Logic.Function.Basic
import WittyService.BackportSummary
import WittyService.GuardedRuns

/-! The Backport tasks of the service: their files, the records of the runs the process executes,
and the requests that look for runs a restart has interrupted. A section under `runs_lock` is one
step, and so is each access of such a request to a file. Targets, error texts and times are left
out. -/
namespace WittyService

/-- The `status` of a task or of a run. -/
inductive BackportStatus where
  | generating
  | generationFailed
  | ready
  | running
  | paused
  | interrupted
  | completed
  | completedWithFailures
  | failed
  deriving DecidableEq, Repr

/-- `TERMINAL_STATUSES`. -/
def BackportStatus.isTerminal : BackportStatus → Bool
  | .completed | .completedWithFailures | .failed => true
  | _ => false

inductive RunEvent where
  | resumed
  | paused
  | interrupted
  deriving DecidableEq, Repr

/-- A file `runs/NNN.json`. -/
structure RunFile where
  status : BackportStatus
  resumeCount : Nat := 0
  events : List RunEvent := []
  run : ExecutionRun := {}
  deriving DecidableEq, Repr

/-- `task.json`. -/
structure Manifest where
  status : BackportStatus
  currentRun : Nat := 0
  deriving DecidableEq, Repr

/-- What `get_async_record` makes of a run that nobody executes. -/
def RunFile.interrupt (file : RunFile) : RunFile :=
  { file with
    status := .interrupted
    events := if .interrupted ∈ file.events then file.events else file.events ++ [.interrupted] }

/-- What `update_current_execution` makes of the run when its worker ends. -/
def RunFile.finish (file : RunFile) (status : BackportStatus) (summary : Option RunSummary) :
    RunFile :=
  { file with
    status
    events := if status = .paused ∧ file.events.getLast? ≠ some .paused then
      file.events ++ [.paused] else file.events
    run := { file.run with summary := summary.getD file.run.summary } }

structure TaskFiles where
  manifest : Option Manifest := none
  runs : Nat → Option RunFile := fun _ => none

namespace TaskFiles

variable (files : TaskFiles)

def readRun (number : Nat) : Option RunFile := if number = 0 then none else files.runs number

def writeRun (number : Nat) (file : RunFile) : TaskFiles :=
  { files with runs := Function.update files.runs number (some file) }

/-- `update_manifest` with a status. -/
def setStatus (status : BackportStatus) : TaskFiles :=
  { files with manifest := some { files.manifest.getD { status } with status } }

/-- The run which `create_async_record` resumes or creates, with its number. `report` has the rows
of the task's report, when there is one. -/
def nextRun (manifest : Manifest) (report : Option (List Row)) : Option (Nat × RunFile) :=
  match (files.readRun manifest.currentRun).filter fun file => !file.status.isTerminal with
  | some file =>
    if file.status = .paused ∨ file.status = .interrupted then
      some (manifest.currentRun,
        { file with
          status := .running
          resumeCount := file.resumeCount + 1
          events := file.events ++ [.resumed] })
    else none
  | none =>
    if manifest.status = .generating ∨ manifest.status = .generationFailed then none
    else report.map fun rows =>
      (manifest.currentRun + 1, { status := .running, run := ExecutionRun.create rows })

/-- `create_async_record` for `run_all`, `none` when it refuses. -/
def createRecord (report : Option (List Row)) : Option TaskFiles :=
  files.manifest.bind fun manifest => (files.nextRun manifest report).map fun next =>
    { files.writeRun next.1 next.2 with
      manifest := some { status := .running, currentRun := next.1 } }

def recordProgress (progress : Progress) : TaskFiles :=
  match files.manifest.bind fun manifest =>
      (files.readRun manifest.currentRun).map (manifest.currentRun, ·) with
  | some (number, file) =>
    files.writeRun number { file with run := WittyService.recordProgress file.run progress }
  | none => files

/-- `update_current_execution` at the end of a worker. -/
def finishRun (status : BackportStatus) (summary : Option RunSummary) : TaskFiles :=
  match files.manifest with
  | some manifest =>
    if manifest.currentRun = 0 then files
    else files.writeRun manifest.currentRun
      (((files.readRun manifest.currentRun).getD { status }).finish status summary)
  | none => files

/-- The run `get_async_record` is to declare interrupted. -/
def staleRun (number : Nat) (active : Bool) : Option RunFile :=
  (files.readRun number).filter fun file => file.status = .running && !active

/-- The whole of `get_async_record`, as in the section of `pause_run`. -/
def recover (active : Bool) : TaskFiles :=
  match files.manifest.bind fun manifest =>
      (files.staleRun manifest.currentRun active).map (manifest.currentRun, ·) with
  | some (number, file) => (files.writeRun number file.interrupt).setStatus .interrupted
  | none => files

end TaskFiles

inductive BackportAction where
  | generateReport
  | runAll
  deriving DecidableEq, Repr

inductive RecordStatus where
  | running
  | success
  | paused
  | failed
  deriving DecidableEq, Repr

/-- A record of `backport_runs`. -/
structure BackportRecord where
  action : BackportAction
  status : RecordStatus := .running
  progress : Option Progress := none
  pauseRequested : Bool := false
  deriving DecidableEq, Repr

inductive RunOutcome where
  | finished
  | paused
  | operationFailed
  | raised
  deriving DecidableEq, Repr

namespace BackportRecord

variable (record : BackportRecord)

/-- `failed_count` of the last progress. -/
def failedCount : Nat := (record.progress.map Progress.failedCount).getD 0

def archiveStatus : RunOutcome → BackportStatus
  | .operationFailed | .raised =>
    if record.action = .generateReport then .generationFailed else .failed
  | .paused => .paused
  | .finished =>
    if record.action = .generateReport then .ready
    else if record.failedCount = 0 then .completed else .completedWithFailures

def endSummary : RunOutcome → Option RunSummary
  | .raised => none
  | _ =>
    let processed := (record.progress.map Progress.processedCount).getD 0
    some ⟨processed, processed - record.failedCount, record.failedCount⟩

end BackportRecord

def RunOutcome.recordStatus : RunOutcome → RecordStatus
  | .finished => .success
  | .paused => .paused
  | .operationFailed | .raised => .failed

/-- Where a request is in `get_async_record`. -/
inductive RecoveryStage (ι : Type) where
  | idle
  | manifestRead (task : ι) (number : Nat)
  | runRead (task : ι) (number : Nat) (file : RunFile)
  | runWritten (task : ι)
  deriving DecidableEq

def RecoveryStage.task {ι : Type} : RecoveryStage ι → Option ι
  | .idle => none
  | .manifestRead x _ | .runRead x _ _ | .runWritten x => some x

def RecoveryStage.recovering {ι : Type} : RecoveryStage ι → Option ι
  | .idle | .manifestRead _ _ => none
  | .runRead x _ _ | .runWritten x => some x

/-- A `list_runs` or, with a task, a `get_run` on its way, with the runs that were active when it
had the lock. -/
structure RecoveryRequest (ι : Type) where
  scope : Option ι := none
  activeIds : ι → Bool
  stage : RecoveryStage ι := .idle

/-- `runs`, the tasks under `runs_root`, and whether the run store has been made. -/
structure BackportRuns (ι : Type) where
  files : ι → TaskFiles
  records : ι → Option BackportRecord := fun _ => none
  hasStore : Bool := false
  requests : List (RecoveryRequest ι) := []

inductive BackportRunsAction (ι : Type) where
  | ensureStore
  | createRun (task : ι) (report : Option (List Row))
  | generateReport (task : ι)
  | updateProgress (task : ι) (progress : Progress)
  | workerEnds (task : ι) (outcome : RunOutcome)
  | listRuns
  | getRun (task : ι)
  | pauseRun (task : ι)
  | readManifest (i : Nat) (task : ι)
  | readRun (i : Nat)
  | writeRun (i : Nat)
  | writeManifest (i : Nat)

/-- The action belongs to a `list_runs`, a `get_run` or a `pause_run`. -/
def BackportRunsAction.isRequest {ι : Type} : BackportRunsAction ι → Bool
  | .createRun _ _ | .generateReport _ | .updateProgress _ _ | .workerEnds _ _ => false
  | _ => true

namespace BackportRuns

variable {ι : Type} [DecidableEq ι] (s : BackportRuns ι)

def executing (x : ι) : Bool := (s.records x).any fun record => record.status = .running

def setFiles (x : ι) (files : TaskFiles) : BackportRuns ι :=
  { s with files := Function.update s.files x files }

def setRecord (x : ι) (record : BackportRecord) : BackportRuns ι :=
  { s with records := Function.update s.records x (some record) }

def setStage (i : Nat) (request : RecoveryRequest ι) (stage : RecoveryStage ι) : BackportRuns ι :=
  { s with requests := s.requests.set i { request with stage } }

/-- The section of `create_run` for `run_all`. -/
def createRun (x : ι) (report : Option (List Row)) : BackportRuns ι :=
  if s.executing x then s
  else
    match (s.files x).createRecord report with
    | some files => (s.setFiles x files).setRecord x { action := .runAll }
    | none => s

/-- The section of `pause_run`. -/
def pauseRun (x : ι) : BackportRuns ι :=
  match s.records x with
  | none => s.setFiles x ((s.files x).recover false)
  | some record =>
    if record.action = .runAll ∧ record.status = .running then
      s.setRecord x { record with pauseRequested := true }
    else s

def workerEnds (x : ι) (record : BackportRecord) (outcome : RunOutcome) : BackportRuns ι :=
  let status := record.archiveStatus outcome
  (s.setFiles x
    (((s.files x).setStatus status).finishRun status (record.endSummary outcome))).setRecord x
      { record with status := outcome.recordStatus }

def stageOfRun (request : RecoveryRequest ι) : Option (RecoveryStage ι) :=
  match request.stage with
  | .manifestRead x number =>
    match (s.files x).staleRun number (request.activeIds x) with
    | some file => some (.runRead x number file)
    | none => some .idle
  | _ => none

def runningRecord (x : ι) : Option BackportRecord :=
  (s.records x).filter fun record => record.status = .running

def step : BackportRunsAction ι → Option (BackportRuns ι)
  | .ensureStore =>
    -- the first request lists the runs, none of which is taken for active
    if s.hasStore then none
    else some { s with
      hasStore := true
      requests := s.requests ++ [{ activeIds := fun _ => false }] }
  | .createRun x report => if s.hasStore then some (s.createRun x report) else none
  | .generateReport x =>
    -- the task has a new directory
    if s.hasStore ∧ (s.files x).manifest = none then
      some ((s.setFiles x
        { (s.files x) with manifest := some { status := .generating } }).setRecord x
          { action := .generateReport })
    else none
  | .updateProgress x progress => (s.runningRecord x).map fun record =>
    (s.setFiles x ((s.files x).recordProgress progress)).setRecord x
      { record with progress := some progress }
  | .workerEnds x outcome => (s.runningRecord x).map fun record => s.workerEnds x record outcome
  | .listRuns =>
    if s.hasStore then some { s with requests := s.requests ++ [{ activeIds := s.executing }] }
    else none
  | .getRun x =>
    if s.hasStore ∧ s.records x = none then
      some { s with
        requests := s.requests ++ [{ scope := some x, activeIds := fun _ => false }] }
    else none
  | .pauseRun x => if s.hasStore then some (s.pauseRun x) else none
  | .readManifest i x => s.requests[i]?.bind fun request =>
    if request.stage = .idle ∧ (request.scope = none ∨ request.scope = some x) then
      (s.files x).manifest.map fun manifest =>
        s.setStage i request (.manifestRead x manifest.currentRun)
    else none
  | .readRun i => s.requests[i]?.bind fun request =>
    (s.stageOfRun request).map (s.setStage i request)
  | .writeRun i => s.requests[i]?.bind fun request =>
    match request.stage with
    | .runRead x number file => some ((s.setFiles x
        ((s.files x).writeRun number file.interrupt)).setStage i request (.runWritten x))
    | _ => none
  | .writeManifest i => s.requests[i]?.bind fun request =>
    match request.stage with
    | .runWritten x => some ((s.setFiles x ((s.files x).setStatus .interrupted)).setStage i request
        .idle)
    | _ => none

end BackportRuns

end WittyService
