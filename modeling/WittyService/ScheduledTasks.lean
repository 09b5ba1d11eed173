import Mathlib.Algebra.Group.Int.Defs
import Mathlib.Logic.Function.Basic
import WittyService.GuardedRuns

/-! The rows of scheduled tasks and the jobs of the scheduler. A task is named by its place among
all there were. -/
namespace WittyService

inductive TriggerError where
  | valueError
  | overflowError
  deriving DecidableEq, Repr

/-- What `ZoneInfo` raises. -/
inductive ZoneError where
  | notFound
  | valueError
  | other
  deriving DecidableEq, Repr

/-- A `DomainError` without its details, or what else a call raises. -/
inductive ScheduledTaskError where
  | domain (code message : String)
  | trigger (error : TriggerError)
  | zone (error : ZoneError)
  | database
  deriving DecidableEq, Repr

structure TriggerLibrary (Trigger : Type) where
  zoneInfo : String → Except ZoneError Unit
  fromCrontab : String → String → Except TriggerError Trigger
  intervalTrigger : Int → Except TriggerError Trigger
  insideWorkspace : Nat → String → Bool

/-- A row of `scheduled_tasks`. -/
structure ScheduledTaskRecord where
  name : String
  scheduleType : String
  cronExpr : Option String
  intervalSeconds : Option Int
  timezone : String
  content : String
  agentId : Nat
  workspaceFolder : Option String
  enabled : Bool
  deriving DecidableEq, Repr

/-- The arguments of `update_task`, `none` for `_UNSET`. -/
structure TaskChanges where
  name : Option (Option String)
  scheduleType : Option (Option String)
  cronExpr : Option (Option String)
  intervalSeconds : Option (Option Int)
  timezone : Option (Option String)
  content : Option (Option String)
  workspaceFolder : Option (Option String)
  deriving DecidableEq, Repr

def TASK_NOT_FOUND : String := "TASK_NOT_FOUND"
def TASK_AGENT_NOT_FOUND : String := "TASK_AGENT_NOT_FOUND"
def TASK_BUSY : String := "TASK_BUSY"
def TASK_INVALID_SCHEDULE : String := "TASK_INVALID_SCHEDULE"
def TASK_INVALID_WORKSPACE_FOLDER : String := "TASK_INVALID_WORKSPACE_FOLDER"

def taskNotFound : ScheduledTaskError := .domain TASK_NOT_FOUND "Scheduled task was not found."

def agentNotFound : ScheduledTaskError := .domain TASK_AGENT_NOT_FOUND "Agent was not found."

def taskBusy : ScheduledTaskError :=
  .domain TASK_BUSY "Task has an in-flight run and cannot be deleted."

def folderOutside : ScheduledTaskError :=
  .domain TASK_INVALID_WORKSPACE_FOLDER "Workspace folder must be inside the agent workspace."

def invalidSchedule (message : String) : ScheduledTaskError :=
  .domain TASK_INVALID_SCHEDULE message

/-- A text that is neither `None` nor empty. -/
def givenText (text : Option String) : Option String := text.filter fun text => text ≠ ""

def positiveSeconds (seconds : Option Int) : Option Int := seconds.filter fun seconds => 0 < seconds

section
variable {Trigger : Type} (lib : TriggerLibrary Trigger)

/-- `ZoneInfo`, also of what is no text. -/
def zoneOf : Option String → Except ZoneError Unit
  | some timezone => lib.zoneInfo timezone
  | none => .error .other

def validateSchedule (scheduleType cronExpr : Option String) (intervalSeconds : Option Int)
    (timezone : Option String) : Except ScheduledTaskError Unit :=
  match zoneOf lib timezone with
  | .error .notFound => .error (invalidSchedule "Invalid timezone.")
  | .error error => .error (.zone error)
  | .ok () =>
    if scheduleType = some "cron" then
      match givenText cronExpr with
      | none => .error (invalidSchedule "cron_expr is required when schedule_type is 'cron'.")
      | some expr =>
        match lib.fromCrontab expr (timezone.getD "") with
        | .ok _ => .ok ()
        | .error .valueError => .error (invalidSchedule "Invalid cron expression.")
        | .error .overflowError => .error (.trigger .overflowError)
    else if scheduleType = some "interval" then
      match positiveSeconds intervalSeconds with
      | none => .error (invalidSchedule "interval_seconds must be a positive integer.")
      | some _ => .ok ()
    else .error (invalidSchedule "schedule_type must be 'cron' or 'interval'.")

def buildTrigger (task : ScheduledTaskRecord) : Except ScheduledTaskError Trigger :=
  if task.scheduleType = "cron" then
    match givenText task.cronExpr with
    | none => .error (invalidSchedule "cron_expr is required for cron schedules.")
    | some expr =>
      match lib.zoneInfo task.timezone with
      | .error .other => .error (.zone .other)
      | .error _ => .error (invalidSchedule "Invalid cron expression or timezone.")
      | .ok () =>
        match lib.fromCrontab expr task.timezone with
        | .ok trigger => .ok trigger
        | .error .valueError => .error (invalidSchedule "Invalid cron expression or timezone.")
        | .error .overflowError => .error (.trigger .overflowError)
  else if task.scheduleType = "interval" then
    match positiveSeconds task.intervalSeconds with
    | none => .error (invalidSchedule "interval_seconds must be a positive integer.")
    | some seconds =>
      match lib.intervalTrigger seconds with
      | .ok trigger => .ok trigger
      | .error error => .error (.trigger error)
  else .error (invalidSchedule "schedule_type must be 'cron' or 'interval'.")

/-- `_validate_workspace_folder`. -/
def folderAllowed (agentId : Nat) (folder : Option String) : Bool :=
  (givenText folder).all fun folder => lib.insideWorkspace agentId folder

end

def rowOf (name scheduleType cronExpr : Option String) (intervalSeconds : Option Int)
    (timezone content : Option String) (agentId : Nat) (workspaceFolder : Option String)
    (enabled : Bool) : Option ScheduledTaskRecord :=
  match name, scheduleType, timezone, content with
  | some name, some scheduleType, some timezone, some content =>
    if ((scheduleType = "cron" ∧ cronExpr.isSome ∧ intervalSeconds = none) ∨
        (scheduleType = "interval" ∧ intervalSeconds.isSome ∧ cronExpr = none)) ∧
        ∀ seconds ∈ intervalSeconds, -2 ^ 63 ≤ seconds ∧ seconds < 2 ^ 63
    then some ⟨name, scheduleType, cronExpr, intervalSeconds, timezone, content, agentId,
      workspaceFolder, enabled⟩
    else none
  | _, _, _, _ => none

/-- The service with the table and the scheduler. `removed` are the tasks whose job
`handle_agent_deleted` has removed since it was last added, `refused` those whose row was written
by a call that could not add a job for it then. -/
structure ScheduledTasks (Trigger : Type) where
  rows : List (Option ScheduledTaskRecord)
  agents : Nat → Bool
  activeRuns : Nat → Bool
  jobs : Nat → Option Trigger
  removed : Nat → Bool
  refused : Nat → Bool

inductive ScheduledTaskCall where
  | createTask (task : ScheduledTaskRecord)
  | updateTask (taskId : Nat) (changes : TaskChanges)
  | enableTask (taskId : Nat)
  | disableTask (taskId : Nat)
  | deleteTask (taskId : Nat)
  | handleAgentDeleted (agentId : Nat)
  | agentChanges (agentId : Nat) (usable : Bool)
  | runChanges (taskId : Nat) (active : Bool)
  deriving DecidableEq, Repr

abbrev TaskResult := Except ScheduledTaskError (Option ScheduledTaskRecord)

namespace ScheduledTasks

variable {Trigger : Type} (lib : TriggerLibrary Trigger) (s : ScheduledTasks Trigger)

def fresh : ScheduledTasks Trigger where
  rows := []
  agents _ := false
  activeRuns _ := false
  jobs _ := none
  removed _ := false
  refused _ := false

/-- `get_scheduled_task`. -/
def row (taskId : Nat) : Option ScheduledTaskRecord := s.rows[taskId]?.join

def setRow (taskId : Nat) (task : Option ScheduledTaskRecord) : ScheduledTasks Trigger :=
  { s with rows := s.rows.set taskId task }

/-- `_schedule_task` for a row that was just written. -/
def scheduleTask (taskId : Nat) (task : ScheduledTaskRecord) :
    TaskResult × ScheduledTasks Trigger :=
  match buildTrigger lib task with
  | .error error => (.error error, { s with refused := Function.update s.refused taskId true })
  | .ok trigger =>
    (.ok (some task),
      { s with
        jobs := Function.update s.jobs taskId (some trigger)
        removed := Function.update s.removed taskId false
        refused := Function.update s.refused taskId false })

def unscheduleTask (taskId : Nat) : ScheduledTasks Trigger :=
  { s with
    jobs := Function.update s.jobs taskId none
    refused := Function.update s.refused taskId false }

def createTask (task : ScheduledTaskRecord) : TaskResult × ScheduledTasks Trigger :=
  if !s.agents task.agentId then (.error agentNotFound, s)
  else
    match validateSchedule lib (some task.scheduleType) task.cronExpr task.intervalSeconds
      (some task.timezone) with
    | .error error => (.error error, s)
    | .ok () =>
      if !folderAllowed lib task.agentId task.workspaceFolder then (.error folderOutside, s)
      else
        match rowOf (some task.name) (some task.scheduleType) task.cronExpr task.intervalSeconds
          (some task.timezone) (some task.content) task.agentId task.workspaceFolder
          task.enabled with
        | none => (.error .database, s)
        | some created =>
          let written := { s with rows := s.rows ++ [some created] }
          if created.enabled then written.scheduleTask lib s.rows.length created
          else (.ok (some created), written)

def updateTask (taskId : Nat) (changes : TaskChanges) : TaskResult × ScheduledTasks Trigger :=
  match s.row taskId with
  | none => (.error taskNotFound, s)
  | some current =>
    let scheduleType := changes.scheduleType.getD (some current.scheduleType)
    let timezone := changes.timezone.getD (some current.timezone)
    let folder := changes.workspaceFolder.getD current.workspaceFolder
    let cronExpr :=
      if scheduleType = some "cron" then changes.cronExpr.getD current.cronExpr else none
    let intervalSeconds :=
      if scheduleType = some "cron" then none
      else changes.intervalSeconds.getD current.intervalSeconds
    match validateSchedule lib scheduleType cronExpr intervalSeconds timezone with
    | .error error => (.error error, s)
    | .ok () =>
      if !s.agents current.agentId then (.error agentNotFound, s)
      else if !folderAllowed lib current.agentId folder then (.error folderOutside, s)
      else
        match rowOf (changes.name.getD (some current.name)) scheduleType cronExpr intervalSeconds
          timezone (changes.content.getD (some current.content)) current.agentId folder
          current.enabled with
        | none => (.error .database, s)
        | some updated =>
          let written := s.setRow taskId (some updated)
          if updated.enabled then written.scheduleTask lib taskId updated
          else (.ok (some updated), written.unscheduleTask taskId)

def enableTask (taskId : Nat) : TaskResult × ScheduledTasks Trigger :=
  match s.row taskId with
  | none => (.error taskNotFound, s)
  | some task =>
    let updated := { task with enabled := true }
    (s.setRow taskId (some updated)).scheduleTask lib taskId updated

def disableTask (taskId : Nat) : TaskResult × ScheduledTasks Trigger :=
  match s.row taskId with
  | none => (.error taskNotFound, s)
  | some task =>
    let updated := { task with enabled := false }
    (.ok (some updated), (s.setRow taskId (some updated)).unscheduleTask taskId)

def deleteTask (taskId : Nat) : TaskResult × ScheduledTasks Trigger :=
  match s.row taskId with
  | none => (.ok none, s)
  | some _ =>
    if s.activeRuns taskId then (.error taskBusy, s)
    else (.ok none, (s.unscheduleTask taskId).setRow taskId none)

/-- The task is one of those that `list_scheduled_tasks(agent_id=...)` gives. -/
def isTaskOf (agentId taskId : Nat) : Bool := (s.row taskId).any fun task => task.agentId = agentId

/-- `handle_agent_deleted`, which comes before the rows are deleted with their agent. -/
def handleAgentDeleted (agentId : Nat) : ScheduledTasks Trigger :=
  { s with
    jobs := fun taskId => if s.isTaskOf agentId taskId then none else s.jobs taskId
    activeRuns := fun taskId => !s.isTaskOf agentId taskId && s.activeRuns taskId
    removed := fun taskId => s.isTaskOf agentId taskId || s.removed taskId
    refused := fun taskId => !s.isTaskOf agentId taskId && s.refused taskId }

def perform : ScheduledTaskCall → TaskResult × ScheduledTasks Trigger
  | .createTask task => s.createTask lib task
  | .updateTask taskId changes => s.updateTask lib taskId changes
  | .enableTask taskId => s.enableTask lib taskId
  | .disableTask taskId => s.disableTask taskId
  | .deleteTask taskId => s.deleteTask taskId
  | .handleAgentDeleted agentId => (.ok none, s.handleAgentDeleted agentId)
  | .agentChanges agentId usable =>
    (.ok none, { s with agents := Function.update s.agents agentId usable })
  | .runChanges taskId active =>
    (.ok none, { s with activeRuns := Function.update s.activeRuns taskId active })

end ScheduledTasks

def scheduledTasksStep {Trigger : Type} (lib : TriggerLibrary Trigger)
    (s : ScheduledTasks Trigger) (call : ScheduledTaskCall) : Option (ScheduledTasks Trigger) :=
  some (s.perform lib call).2

end WittyService
