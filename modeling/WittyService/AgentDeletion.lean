import WittyService.AgentDisk
import WittyService.SessionRetention

/-! The deletion of an agent: the runtime, the sandbox and the disk first, and the record
last. The errors on the way are collected and classified before the record is touched. -/
namespace WittyService

def sandboxNotFound : String := "SANDBOX_NOT_FOUND"

def Raised.code : Raised → Option String
  | .domain code _ => some code
  | .other _ => none

def Raised.message : Raised → String
  | .domain _ message => message
  | .other text => text

structure CleanupError where
  stage : String
  error : String
  code : Option String
  deriving DecidableEq, Repr

def cleanupError (stage : String) (exc : Raised) : CleanupError :=
  ⟨stage, exc.message, exc.code⟩

def isTolerableCleanupError (error : CleanupError) : Bool :=
  error.stage == "workspace_cleanup" ||
    (error.stage == "sandbox_cleanup" && error.code == some sandboxNotFound)

/-- The details of `_raise_operation_failed`. -/
structure FailureDetails where
  agentId : String
  cause : String
  causeCode : Option String
  cleanupErrors : List CleanupError
  deriving DecidableEq, Repr

/-- The error `delete_agent` raises. -/
inductive DeleteError where
  | agentNotFound (agentId : String)
  | operationFailed (details : FailureDetails)
  deriving DecidableEq, Repr

namespace DeleteError

def code : DeleteError → String
  | agentNotFound _ => "AGENT_NOT_FOUND"
  | operationFailed _ => "AGENT_DELETE_FAILED"

def message : DeleteError → String
  | agentNotFound _ => "Agent was not found."
  | operationFailed _ => "Agent delete failed."

end DeleteError

def raiseOperationFailed (agentId : String) (cause : Raised) (errors : List CleanupError) :
    DeleteError :=
  .operationFailed ⟨agentId, cause.message, cause.code, errors⟩

/-- The answer to `/agent/stop`. -/
inductive RuntimeStop where
  | answered
  | httpStatusError
  | connectError
  | raised (exc : Raised)

/-- How the steps of one deletion end, `none` where a step succeeds. The backend answers
that it knows no such sandbox only if there is none. -/
structure DeleteFaults (sandboxUp : Bool) where
  runtimeStop : RuntimeStop
  sandboxCleanup : Option Raised
  lost_gone : ∀ exc, sandboxCleanup = some exc → exc.code = some sandboxNotFound →
    sandboxUp = false
  disk : DiskFaults
  statusUpdate : Option Raised
  rowRemoval : Option Raised

/-- The database, and for each agent its directories and whether its sandbox is up. -/
structure AgentHost where
  store : SessionStore
  disk : String → AgentDisk
  sandbox : String → Bool

/-- `_stop_runtime`. Without a sandbox state there is no client to stop it with. -/
def stopRuntime (agent : AgentRow) (answer : RuntimeStop) : Option Raised :=
  if agent.hasSandboxState then
    match answer with
    | .raised exc => some exc
    | .answered | .httpStatusError | .connectError => none
  else some (.domain "SANDBOX_STATE_NOT_FOUND" "Sandbox state was not found.")

namespace DeleteFaults

variable {up : Bool} (f : DeleteFaults up) (agent : AgentRow)

def runtimeStopError : Option Raised :=
  if agent.status = .running ∨ agent.status = .paused then stopRuntime agent f.runtimeStop
  else none

def sandboxCleanupError : Option Raised :=
  if agent.hasSandboxState then f.sandboxCleanup else none

def cleanupErrors (disk : AgentDisk) : List CleanupError :=
  ((f.runtimeStopError agent).map (cleanupError "runtime_stop")).toList ++
    ((f.sandboxCleanupError agent).map (cleanupError "sandbox_cleanup")).toList ++
    ((f.disk.cleanupAgentDisk disk).2.map (cleanupError "workspace_cleanup")).toList

end DeleteFaults

namespace AgentHost

variable (w : AgentHost) (agentId : String)

def sweep (f : DeleteFaults (w.sandbox agentId)) (agent : AgentRow) : AgentHost :=
  { w with
    disk := Function.update w.disk agentId (f.disk.cleanupAgentDisk (w.disk agentId)).1
    sandbox := if agent.hasSandboxState ∧ f.sandboxCleanup = none then
      Function.update w.sandbox agentId false else w.sandbox }

def deleteRecord (statusUpdate rowRemoval : Option Raised) (errors : List CleanupError) :
    AgentHost × Except DeleteError Unit :=
  let failed (exc : Raised) : DeleteError :=
    raiseOperationFailed agentId exc (errors ++ [cleanupError "agent_delete" exc])
  match statusUpdate, rowRemoval with
  | some exc, _ => (w, .error (failed exc))
  | none, some exc =>
    ({ w with store := w.store.updateAgentStatus agentId .deleted }, .error (failed exc))
  | none, none =>
    ({ w with store := (w.store.updateAgentStatus agentId .deleted).deleteAgent agentId },
      .ok ())

def deleteAgent (f : DeleteFaults (w.sandbox agentId)) : AgentHost × Except DeleteError Unit :=
  match w.store.agents agentId with
  | none => (w, .error (.agentNotFound agentId))
  | some agent =>
    let errors := f.cleanupErrors agent (w.disk agentId)
    let w := w.sweep agentId f agent
    match errors.filter fun error => !isTolerableCleanupError error with
    | error :: _ => (w, .error (raiseOperationFailed agentId (.other error.error) errors))
    | [] => w.deleteRecord agentId f.statusUpdate f.rowRemoval errors

end AgentHost

section

variable {up : Bool} {f : DeleteFaults up} {agent : AgentRow} {disk : AgentDisk}

/-- A stage before the record that ends the deletion: `/agent/stop` of an agent that may
still run, or the cleanup of its sandbox. -/
def DeleteFaults.Blocks (f : DeleteFaults up) (agent : AgentRow) : Prop :=
  ((agent.status = .running ∨ agent.status = .paused) ∧
      (agent.hasSandboxState = false ∨ ∃ exc, f.runtimeStop = .raised exc)) ∨
    (agent.hasSandboxState = true ∧
      ∃ exc, f.sandboxCleanup = some exc ∧ exc.code ≠ some sandboxNotFound)

theorem runtimeStopError_none_iff :
    f.runtimeStopError agent = none ↔ ¬ ((agent.status = .running ∨ agent.status = .paused) ∧
      (agent.hasSandboxState = false ∨ ∃ exc, f.runtimeStop = .raised exc)) := by
  unfold DeleteFaults.runtimeStopError stopRuntime
  by_cases hstatus : agent.status = .running ∨ agent.status = .paused
  · cases hstate : agent.hasSandboxState with
    | false => simp [hstatus]
    | true => cases hstop : f.runtimeStop <;> simp [hstatus]
  · simp [hstatus]

variable (exc : Raised)

theorem sandboxCleanup_blocks_iff :
    isTolerableCleanupError (cleanupError "sandbox_cleanup" exc) = false ↔
      exc.code ≠ some sandboxNotFound := by
  simp [isTolerableCleanupError, cleanupError]

theorem workspaceCleanup_tolerable :
    isTolerableCleanupError (cleanupError "workspace_cleanup" exc) = true := by
  simp [isTolerableCleanupError, cleanupError]

theorem sandboxCleanupErrors_tolerable_iff :
    (∀ exc, f.sandboxCleanupError agent = some exc →
        isTolerableCleanupError (cleanupError "sandbox_cleanup" exc) = true) ↔
      ¬ (agent.hasSandboxState = true ∧
        ∃ exc, f.sandboxCleanup = some exc ∧ exc.code ≠ some sandboxNotFound) := by
  unfold DeleteFaults.sandboxCleanupError
  have hiff (exc : Raised) := not_congr (sandboxCleanup_blocks_iff exc)
  simp only [Bool.not_eq_false, not_not] at hiff
  cases agent.hasSandboxState with
  | false => simp
  | true => simp [hiff]

theorem blockingErrors_nil_iff :
    ((f.cleanupErrors agent disk).filter fun error => !isTolerableCleanupError error) = [] ↔
      ¬ f.Blocks agent := by
  rw [DeleteFaults.Blocks, not_or, ← runtimeStopError_none_iff,
    ← sandboxCleanupErrors_tolerable_iff, List.filter_eq_nil_iff]
  constructor
  · intro h
    constructor
    · cases hstop : f.runtimeStopError agent with
      | none => rfl
      | some exc =>
        have hmem : cleanupError "runtime_stop" exc ∈ f.cleanupErrors agent disk := by
          simp [DeleteFaults.cleanupErrors, hstop]
        have htolerable := h _ hmem
        exact absurd rfl htolerable
    · intro exc hexc
      have hmem : cleanupError "sandbox_cleanup" exc ∈ f.cleanupErrors agent disk := by
        simp [DeleteFaults.cleanupErrors, hexc]
      simpa using h _ hmem
  · rintro ⟨hstop, hsandbox⟩ error hmem
    simp only [DeleteFaults.cleanupErrors, hstop, Option.map_none, Option.toList_none,
      List.nil_append, List.mem_append, Option.mem_toList, Option.map_eq_some_iff] at hmem
    obtain ⟨exc, hexc, rfl⟩ | ⟨exc, -, rfl⟩ := hmem
    · simp [hsandbox exc hexc]
    · simp [workspaceCleanup_tolerable]

end

namespace AgentHost

variable {w : AgentHost} {agentId : String} {f : DeleteFaults (w.sandbox agentId)}
  {agent : AgentRow}

theorem sweep_store : (w.sweep agentId f agent).store = w.store := rfl

theorem sweep_disk :
    (w.sweep agentId f agent).disk agentId = (f.disk.cleanupAgentDisk (w.disk agentId)).1 :=
  Function.update_self _ _ _

theorem deleteAgent_missing (hagent : w.store.agents agentId = none) :
    w.deleteAgent agentId f = (w, .error (.agentNotFound agentId)) := by
  simp only [deleteAgent, hagent]

theorem deleteAgent_blocked (hagent : w.store.agents agentId = some agent)
    (hblocks : f.Blocks agent) :
    ∃ exc errors, w.deleteAgent agentId f =
      (w.sweep agentId f agent, .error (raiseOperationFailed agentId exc errors)) := by
  simp only [deleteAgent, hagent]
  cases hblocking : (f.cleanupErrors agent (w.disk agentId)).filter
      fun error => !isTolerableCleanupError error with
  | nil => exact absurd hblocks (blockingErrors_nil_iff.mp hblocking)
  | cons error rest => exact ⟨_, _, rfl⟩

theorem deleteAgent_unblocked (hagent : w.store.agents agentId = some agent)
    (hpasses : ¬ f.Blocks agent) :
    w.deleteAgent agentId f = (w.sweep agentId f agent).deleteRecord agentId f.statusUpdate
      f.rowRemoval (f.cleanupErrors agent (w.disk agentId)) := by
  have hblocking : ((f.cleanupErrors agent (w.disk agentId)).filter
      fun error => !isTolerableCleanupError error) = [] := blockingErrors_nil_iff.mpr hpasses
  simp only [deleteAgent, hagent, hblocking]

/-- What a deletion owes its caller. One that raises leaves the status and the directories
of the agent as they were; one that returns leaves no row of the agent, none of its sessions
and no sandbox of it. -/
def DestroysNothingOrAll (w : AgentHost) (agentId : String)
    (result : AgentHost × Except DeleteError Unit) : Prop :=
  match result.2 with
  | .error _ =>
    (result.1.store.agents agentId).map AgentRow.status =
        (w.store.agents agentId).map AgentRow.status ∧
      result.1.disk agentId = w.disk agentId
  | .ok () =>
    result.1.store.agents agentId = none ∧
      (∀ id row, result.1.store.sessions id = some row → row.agentId ≠ agentId) ∧
      ∀ agent, w.store.agents agentId = some agent → agent.hasSandboxState = true →
        result.1.sandbox agentId = false

theorem updateAgentStatus_status (hagent : w.store.agents agentId = some agent)
    (status : AgentStatus) :
    ((w.store.updateAgentStatus agentId status).agents agentId).map AgentRow.status =
      some status := by
  simp [SessionStore.updateAgentStatus, hagent]

theorem deleteAgent_gone (s : SessionStore) (agentId : String) :
    (s.deleteAgent agentId).agents agentId = none ∧
      ∀ id row, (s.deleteAgent agentId).sessions id = some row → row.agentId ≠ agentId := by
  refine ⟨Function.update_self _ _ _, fun id row hrow => ?_⟩
  simp only [SessionStore.deleteAgent, Option.filter_eq_some_iff] at hrow
  simpa using hrow.2

theorem sandbox_gone (hpasses : ¬ f.Blocks agent) (hstate : agent.hasSandboxState = true) :
    (w.sweep agentId f agent).sandbox agentId = false := by
  cases hcleanup : f.sandboxCleanup with
  | none => simp [sweep, hstate, hcleanup]
  | some exc =>
    have hcode : exc.code = some sandboxNotFound := by
      by_contra hcode
      exact hpasses (.inr ⟨hstate, exc, hcleanup, hcode⟩)
    have hgone : w.sandbox agentId = false := f.lost_gone exc hcleanup hcode
    simp [sweep, hcleanup, hgone]

/-- The deletion succeeds, or it fails with the disk and the status as they were: the agent
is not known, or the removal of its directories removes nothing and, if only the removal of
the row fails, the status was `deleted` before. -/
def DeletesOrSpares (w : AgentHost) (agentId : String) (f : DeleteFaults (w.sandbox agentId)) :
    Prop :=
  ∀ agent, w.store.agents agentId = some agent →
    (¬ f.Blocks agent ∧ f.statusUpdate = none ∧ f.rowRemoval = none) ∨
      (f.disk.Spares (w.disk agentId) DiskFaults.removalOrder ∧
        (¬ f.Blocks agent ∧ f.statusUpdate = none → agent.status = .deleted))

theorem refused_delete_iff (w : AgentHost) (agentId : String)
    (f : DeleteFaults (w.sandbox agentId)) :
    w.DestroysNothingOrAll agentId (w.deleteAgent agentId f) ↔ w.DeletesOrSpares agentId f := by
  cases hagent : w.store.agents agentId with
  | none =>
    rw [deleteAgent_missing hagent]
    constructor
    · intro _ agent hagent'
      rw [hagent] at hagent'
      cases hagent'
    · intro _
      exact ⟨rfl, rfl⟩
  | some agent =>
    have hcond : w.DeletesOrSpares agentId f ↔
        (¬ f.Blocks agent ∧ f.statusUpdate = none ∧ f.rowRemoval = none) ∨
          (f.disk.Spares (w.disk agentId) DiskFaults.removalOrder ∧
            (¬ f.Blocks agent ∧ f.statusUpdate = none → agent.status = .deleted)) := by
      simp [DeletesOrSpares, hagent]
    rw [hcond, ← DiskFaults.cleanupAgentDisk_keeps_iff]
    by_cases hblocks : f.Blocks agent
    · obtain ⟨exc, errors, hresult⟩ := deleteAgent_blocked hagent hblocks
      rw [hresult]
      simp [DestroysNothingOrAll, sweep_store, sweep_disk, hblocks]
    · rw [deleteAgent_unblocked hagent hblocks]
      cases hstatus : f.statusUpdate with
      | some exc =>
        simp [DestroysNothingOrAll, deleteRecord, sweep_store, sweep_disk]
      | none =>
        cases hremoval : f.rowRemoval with
        | some exc =>
          simp only [DestroysNothingOrAll, deleteRecord, sweep_store, sweep_disk,
            updateAgentStatus_status hagent, hagent, Option.map_some, Option.some.injEq]
          have hdeleted : AgentStatus.deleted = agent.status ↔ agent.status = .deleted := eq_comm
          simp [hblocks, hdeleted, and_comm]
        | none =>
          have hgone := deleteAgent_gone (w.store.updateAgentStatus agentId .deleted) agentId
          simp only [DestroysNothingOrAll, deleteRecord, sweep_store]
          constructor
          · intro _
            exact .inl ⟨hblocks, trivial, trivial⟩
          · intro _
            refine ⟨hgone.1, hgone.2, fun agent' hagent' hstate => ?_⟩
            rw [hagent] at hagent'
            cases hagent'
            exact sandbox_gone hblocks hstate

variable {error : DeleteError}

theorem deleteRecord_error {statusUpdate rowRemoval : Option Raised} {errors : List CleanupError}
    (h : (w.deleteRecord agentId statusUpdate rowRemoval errors).2 = .error error) :
    ∃ exc, error = raiseOperationFailed agentId exc
      (errors ++ [cleanupError "agent_delete" exc]) := by
  cases statusUpdate with
  | some exc =>
    cases h
    exact ⟨exc, rfl⟩
  | none =>
    cases rowRemoval with
    | some exc =>
      cases h
      exact ⟨exc, rfl⟩
    | none => cases h

/-- What the deletion does to the database is one of the outcomes the deployment knows. -/
theorem deleteAgent_deployment (w : AgentHost) (agentId : String)
    (f : DeleteFaults (w.sandbox agentId)) (held : String → List String) :
    ∃ outcome, deploymentStep ⟨w.store, held⟩ (.deleteAgent agentId outcome) =
      some ⟨(w.deleteAgent agentId f).1.store, held⟩ := by
  cases hagent : w.store.agents agentId with
  | none =>
    rw [deleteAgent_missing hagent]
    exact ⟨.blocked, by simp [deploymentStep, hagent]⟩
  | some agent =>
    by_cases hblocks : f.Blocks agent
    · obtain ⟨exc, errors, hresult⟩ := deleteAgent_blocked hagent hblocks
      rw [hresult]
      exact ⟨.blocked, by simp [deploymentStep, hagent, sweep_store]⟩
    · rw [deleteAgent_unblocked hagent hblocks]
      cases hstatus : f.statusUpdate with
      | some exc => exact ⟨.blocked, by simp [deploymentStep, hagent, deleteRecord, sweep_store]⟩
      | none =>
        cases hremoval : f.rowRemoval with
        | some exc =>
          exact ⟨.recordFailed, by simp [deploymentStep, hagent, deleteRecord, sweep_store,
            Deployment.setStatus, Deployment.withStore]⟩
        | none =>
          have hdeleted : (w.store.updateAgentStatus agentId .deleted).deleteAgent agentId =
              w.store.deleteAgent agentId := by
            simp [SessionStore.deleteAgent, SessionStore.updateAgentStatus]
          exact ⟨.deleted, by simp [deploymentStep, hagent, deleteRecord, sweep_store,
            Deployment.withStore, hdeleted]⟩

end AgentHost

def workingHost : AgentHost where
  store := {
    agents := fun id => if id = "a" then some ⟨.running, true⟩ else none
    sessions := fun _ => none }
  disk := fun _ d => if d = .agentRoot then some ["workspace"] else none
  sandbox := fun _ => true

def survivingSandbox : DeleteFaults (workingHost.sandbox "a") where
  runtimeStop := .answered
  sandboxCleanup :=
    some (.domain "SANDBOX_STOP_FAILED" "Local process sandbox survived stop signals.")
  lost_gone := by
    intro exc hexc hcode
    cases hexc
    exact absurd hcode (by decide)
  disk := ⟨fun _ => none, fun _ => .removed⟩
  statusUpdate := none
  rowRemoval := none

/-- The deletion is refused, and the workspace is gone. -/
theorem refused_delete_wipes_workspace :
    ¬ workingHost.DestroysNothingOrAll "a" (workingHost.deleteAgent "a" survivingSandbox) := by
  intro h
  have hkept : (workingHost.deleteAgent "a" survivingSandbox).1.disk "a" = workingHost.disk "a" :=
    h.2
  have hwiped : (workingHost.deleteAgent "a" survivingSandbox).1.disk "a" .agentRoot = none := rfl
  rw [hkept] at hwiped
  exact absurd hwiped (by decide)

end WittyService
