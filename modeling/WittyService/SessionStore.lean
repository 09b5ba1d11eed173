import Mathlib.Logic.Function.Basic
import WittyService.AssistantTurn

/-! The sessions of all agents as the repository stores them. The rows of `messages`,
`message_events` and `scheduled_task_runs` that refer to a session are kept with it: their
foreign keys cascade, so they never outlive it. -/
namespace WittyService

inductive AgentStatus where
  | creating
  | running
  | paused
  | deleted
  | error
  deriving DecidableEq, Repr

structure AgentRow where
  status : AgentStatus
  hasSandboxState : Bool

inductive SessionStatus where
  | running
  | idle
  | error
  deriving DecidableEq, Repr

/-- `SessionStatus(value)`, none for the `ValueError`. -/
def SessionStatus.ofString (value : String) : Option SessionStatus :=
  if value = "running" then some .running
  else if value = "idle" then some .idle
  else if value = "error" then some .error
  else none

structure StoredMessage where
  id : Nat
  role : String
  row : MessageRow

structure ScheduledRun where
  id : String
  taskId : String
  deriving DecidableEq, Repr

structure Session where
  agentId : String
  remoteRuntimeAgentId : Option String
  runtimeType : Option String
  runtimeSessionId : Option String
  runtimeSessionKey : Option String
  status : SessionStatus
  title : Option String
  pinned : Bool
  scheduledTaskId : Option String
  createdAt : Int
  updatedAt : Int
  messages : List StoredMessage
  events : List EventRow
  runs : List ScheduledRun

structure SessionStore where
  agents : String → Option AgentRow
  sessions : String → Option Session

/-- The arguments of `upsert_session` beside the session and the agent. `refused` says that
a unique constraint of the table refuses the row. -/
structure SessionUpdate where
  status : String
  runtimeType : Option String
  runtimeSessionKey : Option String
  createdAt : Option Int
  remoteRuntimeAgentId : Option String
  refused : Bool
  now : Int

/-- `new or existing` on optional strings. -/
def pyOr (new existing : Option String) : Option String :=
  match new with
  | some text => if text = "" then existing else some text
  | none => existing

def SessionUpdate.insert (u : SessionUpdate) (agentId : String) (status : SessionStatus) :
    Session where
  agentId := agentId
  remoteRuntimeAgentId := u.remoteRuntimeAgentId
  runtimeType := u.runtimeType
  runtimeSessionId := none
  runtimeSessionKey := u.runtimeSessionKey
  status := status
  title := none
  pinned := false
  scheduledTaskId := none
  createdAt := u.createdAt.getD u.now
  updatedAt := u.now
  messages := []
  events := []
  runs := []

def SessionUpdate.refresh (u : SessionUpdate) (existing : Session) (status : SessionStatus) :
    Session :=
  { existing with
    status := status
    runtimeType := pyOr u.runtimeType existing.runtimeType
    runtimeSessionKey := pyOr u.runtimeSessionKey existing.runtimeSessionKey
    remoteRuntimeAgentId := pyOr u.remoteRuntimeAgentId existing.remoteRuntimeAgentId
    updatedAt := u.now }

namespace SessionStore

variable (s : SessionStore)

def put (id : String) (session : Option Session) : SessionStore :=
  { s with sessions := Function.update s.sessions id session }

/-- The row is looked up by its id alone. None when the call raises: a status the enum does
not know, a constraint, or the foreign key of a new row. -/
def upsertSession (id agentId : String) (u : SessionUpdate) :
    Option (SessionStore × Session) :=
  match SessionStatus.ofString u.status, s.sessions id with
  | none, _ => none
  | some status, none =>
    if u.refused || (s.agents agentId).isNone then none
    else some (s.put id (some (u.insert agentId status)), u.insert agentId status)
  | some status, some existing =>
    if u.refused then none
    else some (s.put id (some (u.refresh existing status)), u.refresh existing status)

def deleteSession (id : String) : SessionStore := s.put id none

def modifySession (id : String) (f : Session → Session) : SessionStore :=
  s.put id ((s.sessions id).map f)

/-- `delete_agent`; the sessions of the agent cascade. -/
def deleteAgent (agentId : String) : SessionStore :=
  { s with
    agents := Function.update s.agents agentId none
    sessions := fun id => (s.sessions id).filter fun row => row.agentId != agentId }

/-- `delete_scheduled_task`; the sessions of the task and its runs cascade. -/
def deleteScheduledTask (taskId : String) : SessionStore :=
  { s with
    sessions := fun id => ((s.sessions id).filter fun row =>
      row.scheduledTaskId != some taskId).map fun row =>
        { row with runs := row.runs.filter fun run => run.taskId != taskId } }

def updateAgentStatus (agentId : String) (status : AgentStatus) : SessionStore :=
  let agent := (s.agents agentId).map fun row => { row with status := status }
  { s with agents := Function.update s.agents agentId agent }

end SessionStore

namespace SessionStore

variable {s : SessionStore}

theorem put_self (id : String) (session : Option Session) :
    (s.put id session).sessions id = session :=
  Function.update_self _ _ _

variable {id agentId : String} {u : SessionUpdate}

theorem put_other {other : String} (h : other ≠ id) (session : Option Session) :
    (s.put id session).sessions other = s.sessions other :=
  Function.update_of_ne h _ _

theorem upsertSession_put {s' : SessionStore}
    {row : Session} (h : s.upsertSession id agentId u = some (s', row)) :
    (SessionStatus.ofString u.status).isSome ∧ u.refused = false ∧
      s' = s.put id (some row) := by
  unfold upsertSession at h
  split at h
  · cases h
  · next status hstatus _ =>
    split_ifs at h with hrefused
    cases h
    simp only [Bool.or_eq_true, not_or, Bool.not_eq_true] at hrefused
    exact ⟨by rw [hstatus]; rfl, hrefused.1, rfl⟩
  · next status existing hstatus _ =>
    split_ifs at h with hrefused
    cases h
    exact ⟨by rw [hstatus]; rfl, by simpa using hrefused, rfl⟩

theorem upsertSession_of_accepted (s : SessionStore) (id : String)
    (hstatus : (SessionStatus.ofString u.status).isSome) (hrefused : u.refused = false)
    {agent : AgentRow} (hagent : s.agents agentId = some agent) :
    ∃ row, s.upsertSession id agentId u = some (s.put id (some row), row) := by
  obtain ⟨status, hstatus⟩ := Option.isSome_iff_exists.mp hstatus
  cases hrow : s.sessions id with
  | none =>
    exact ⟨u.insert agentId status, by simp [upsertSession, hstatus, hrow, hrefused, hagent]⟩
  | some existing =>
    exact ⟨u.refresh existing status, by simp [upsertSession, hstatus, hrow, hrefused]⟩

end SessionStore

end WittyService
