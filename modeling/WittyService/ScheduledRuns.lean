import Mathlib.Logic.Function.Basic
import WittyService.GuardedRuns

/-! Runs of scheduled tasks. A task, a run record and a background run are named by their place
among all there were. What holds the state lock awaits nothing while it has it, so a whole
critical section is part of one step. -/
namespace WittyService

inductive ScheduledTaskRunStatus where
  | running
  | succeeded
  | failed
  | skipped
  deriving DecidableEq, Repr

/-- What a run reads of a row of `scheduled_tasks`, which exists as long as its agent does. -/
structure RunnableTask where
  agentId : Nat
  enabled : Bool
  deriving DecidableEq, Repr

/-- A row of `scheduled_task_runs`; `present` is off once it was deleted. -/
structure ScheduledTaskRun where
  taskId : Nat
  status : ScheduledTaskRunStatus
  sessionId : Option String
  error : Option String
  present : Bool
  deriving DecidableEq, Repr

/-- How a run ends that has started: what `_run_agent_turn` returns or raises. A session that
was aborted ends it with an error. -/
inductive TurnEnd where
  | returned (sessionId : String)
  | cancelled
  | raised (error : String)
  deriving DecidableEq, Repr

/-- Where the background task of a run is: not yet given its first step, in the agent's turn,
waiting for the state lock in its `finally`, or done. -/
inductive BackgroundPhase where
  | scheduled
  | running
  | releasing (ended : TurnEnd)
  | done
  deriving DecidableEq, Repr

/-- A background task. `cancelled` says that `cancel` was called on it before it ended, `evicted`
that the deletion of its agent has taken it out of `_bg_tasks_by_task`. -/
structure BackgroundRun where
  taskId : Nat
  agentId : Nat
  runId : Nat
  providedSessionId : Option String
  phase : BackgroundPhase
  cancelled : Bool
  evicted : Bool
  deriving DecidableEq, Repr

/-- `Task.cancel`. A coroutine that waits for the lock in its `finally` is left at once; in the
turn the cancellation shows in how the turn ends. -/
def BackgroundRun.cancel (run : BackgroundRun) : BackgroundRun :=
  match run.phase with
  | .scheduled | .running => { run with cancelled := true }
  | .releasing _ => { run with cancelled := true, phase := .done }
  | .done => run

structure ScheduledRuns where
  maxRunRecords : Nat
  tasks : List RunnableTask
  deletedAgents : Nat → Bool
  records : List ScheduledTaskRun
  background : List BackgroundRun
  activeRuns : Nat → Option Nat
  busyAgents : Nat → Bool
  stateLock : Bool

inductive ScheduledRunsAction where
  | createTask (agentId : Nat) (enabled : Bool)
  | setEnabled (taskId : Nat) (enabled : Bool)
  | runTaskNow (taskId : Nat) (sessionId refusal : Option String)
  | executeTask (taskId : Nat)
  | runStarts (k : Nat)
  | sessionReady (k : Nat) (sessionId : String)
  | turnEnds (k : Nat) (ended : TurnEnd)
  | lockFree (k : Nat)
  | shutdown
  | handleAgentDeleted (agentId : Nat)
  | agentRowsDeleted (agentId : Nat)
  | sessionDeleted (sessionId : String)

namespace ScheduledRuns

variable (s : ScheduledRuns)

def fresh (maxRunRecords : Nat) : ScheduledRuns where
  maxRunRecords := maxRunRecords
  tasks := []
  deletedAgents _ := false
  records := []
  background := []
  activeRuns _ := none
  busyAgents _ := false
  stateLock := false

def getScheduledTask (taskId : Nat) : Option RunnableTask :=
  s.tasks[taskId]?.filter fun task => !s.deletedAgents task.agentId

/-- `async with self._state_lock` when nobody has the lock. -/
def withStateLock (body : ScheduledRuns → ScheduledRuns) : ScheduledRuns :=
  { body { s with stateLock := true } with stateLock := false }

def createRun (taskId : Nat) (status : ScheduledTaskRunStatus) (error : Option String) :
    ScheduledRuns :=
  { s with records := s.records ++ [⟨taskId, status, none, error, true⟩] }

/-- `update_scheduled_task_run`, which raises and changes nothing when the row is gone. -/
def updateRun (runId : Nat) (status : ScheduledTaskRunStatus) (sessionId error : Option String) :
    ScheduledRuns :=
  { s with
    records := s.records.modify runId fun record =>
      if record.present then
        { record with status := status, sessionId := sessionId, error := error }
      else record }

/-- `prune_scheduled_task_runs`: the latest rows of the task are kept. -/
def pruneRuns (taskId : Nat) : ScheduledRuns :=
  { s with
    records := s.records.mapIdx fun runId record =>
      if record.taskId = taskId ∧ s.maxRunRecords ≤
          (s.records.drop (runId + 1)).countP fun later => later.present ∧ later.taskId = taskId
      then { record with present := false }
      else record }

def recordSkipped (taskId : Nat) : ScheduledRuns :=
  (s.createRun taskId .skipped (some "Task or agent is busy, this run was skipped.")).pruneRuns
    taskId

/-- The task is in `_active_runs` or its agent in `_busy_agents`. -/
def isBusy (taskId agentId : Nat) : Bool := (s.activeRuns taskId).isSome || s.busyAgents agentId

/-- `_acquire_slot` of a task that is not busy, under the lock. -/
def takeSlot (taskId agentId : Nat) : ScheduledRuns :=
  { s.createRun taskId .running none with
    activeRuns := Function.update s.activeRuns taskId (some s.records.length)
    busyAgents := Function.update s.busyAgents agentId true }

/-- `_release_slot`, under the lock. -/
def freeSlot (taskId agentId runId : Nat) : ScheduledRuns :=
  if s.activeRuns taskId = some runId then
    { s with
      activeRuns := Function.update s.activeRuns taskId none
      busyAgents := Function.update s.busyAgents agentId false }
  else s

def spawnRun (taskId agentId runId : Nat) (sessionId : Option String) : ScheduledRuns :=
  { s with
    background := s.background ++
      [⟨taskId, agentId, runId, sessionId, .scheduled, false, false⟩] }

/-- `_dispatch_run`, which awaits nothing but the free lock. A session that came with the call may
be refused. -/
def dispatchRun (taskId : Nat) (task : RunnableTask) (sessionId refusal : Option String) :
    ScheduledRuns :=
  if s.isBusy taskId task.agentId then s.recordSkipped taskId
  else
    let runId := s.records.length
    let acquired := s.withStateLock fun s => s.takeSlot taskId task.agentId
    match sessionId, refusal with
    | none, _ => acquired.spawnRun taskId task.agentId runId none
    | some session, none =>
      (acquired.updateRun runId .running (some session) none).spawnRun taskId task.agentId runId
        (some session)
    | some session, some error =>
      (acquired.withStateLock fun s => s.freeSlot taskId task.agentId runId).updateRun runId
        .failed (some session) (some error)

def setPhase (k : Nat) (phase : BackgroundPhase) : ScheduledRuns :=
  { s with background := s.background.modify k fun run => { run with phase := phase } }

/-- The row as `_run_in_flight` writes it at the end: with the session of the turn, or after an
error with the one that was written before. -/
def writeEnd (runId : Nat) : TurnEnd → ScheduledRuns
  | .returned sessionId => s.updateRun runId .succeeded (some sessionId) none
  | .cancelled =>
    s.updateRun runId .failed none (some "Run cancelled during service shutdown.")
  | .raised error =>
    let current := s.records[runId]?.filter fun record => record.present
    let sessionId := (current.bind fun record => record.sessionId).filter fun id => id ≠ ""
    s.updateRun runId .failed sessionId (some error)

/-- The `finally` of `_run_in_flight` once the lock is free. -/
def finish (k : Nat) (run : BackgroundRun) (ended : TurnEnd) : ScheduledRuns :=
  (((s.withStateLock fun s => s.freeSlot run.taskId run.agentId run.runId).writeEnd run.runId
    ended).pruneRuns run.taskId).setPhase k .done

def shutdown : ScheduledRuns := { s with background := s.background.map BackgroundRun.cancel }

/-- The task is one of those that `list_scheduled_tasks(agent_id=...)` gives. -/
def isTaskOf (agentId taskId : Nat) : Bool :=
  (s.getScheduledTask taskId).any fun task => task.agentId = agentId

/-- `handle_agent_deleted`, under the lock. -/
def evictAgent (agentId : Nat) : ScheduledRuns :=
  { s with
    activeRuns := fun taskId => if s.isTaskOf agentId taskId then none else s.activeRuns taskId
    busyAgents := Function.update s.busyAgents agentId false
    background := s.background.map fun run =>
      if s.isTaskOf agentId run.taskId ∧ run.evicted = false ∧ run.phase ≠ .done then
        { run.cancel with evicted := true }
      else run }

def dropRecords (gone : ScheduledTaskRun → Bool) : ScheduledRuns :=
  { s with
    records := s.records.map fun record =>
      if gone record then { record with present := false } else record }

def deleteAgentRows (agentId : Nat) : ScheduledRuns :=
  { s.dropRecords fun record => s.isTaskOf agentId record.taskId with
    deletedAgents := Function.update s.deletedAgents agentId true }

end ScheduledRuns

open ScheduledRuns in
def scheduledRunsStep (s : ScheduledRuns) : ScheduledRunsAction → Option ScheduledRuns
  | .createTask agentId enabled =>
    if s.deletedAgents agentId then some s
    else some { s with tasks := s.tasks ++ [⟨agentId, enabled⟩] }
  | .setEnabled taskId enabled =>
    some { s with tasks := s.tasks.modify taskId fun task => { task with enabled := enabled } }
  | .runTaskNow taskId sessionId refusal =>
    match s.getScheduledTask taskId with
    | none => some s
    | some task =>
      if s.stateLock then none else some (s.dispatchRun taskId task sessionId refusal)
  | .executeTask taskId =>
    match s.getScheduledTask taskId with
    | none => some s
    | some task =>
      if !task.enabled then some s
      else if s.stateLock then none
      else some (s.dispatchRun taskId task none none)
  | .runStarts k =>
    match s.background[k]? with
    | some run =>
      -- a task that was cancelled before its first step never enters the coroutine
      if run.phase = .scheduled then
        some (s.setPhase k (if run.cancelled then .done else .running))
      else none
    | none => none
  | .sessionReady k sessionId =>
    match s.background[k]? with
    | some run =>
      if run.phase = .running then some (s.updateRun run.runId .running (some sessionId) none)
      else none
    | none => none
  | .turnEnds k ended =>
    match s.background[k]? with
    | some run =>
      if run.phase ≠ .running then none
      else if s.stateLock then some (s.setPhase k (.releasing ended))
      else some (s.finish k run ended)
    | none => none
  | .lockFree k =>
    match s.background[k]? with
    | some run =>
      match run.phase with
      | .releasing ended => if s.stateLock then none else some (s.finish k run ended)
      | .scheduled | .running | .done => none
    | none => none
  | .shutdown => some s.shutdown
  | .handleAgentDeleted agentId =>
    if s.stateLock then none else some (s.withStateLock fun s => s.evictAgent agentId)
  | .agentRowsDeleted agentId => some (s.deleteAgentRows agentId)
  | .sessionDeleted sessionId =>
    some (s.dropRecords fun record => record.sessionId = some sessionId)

end WittyService
