import WittyService.SandboxProcesses

/-! Pausing, resuming and deleting one agent with the local process backend. Resumes and
deletions are coroutines of one event loop: from one `await` to the next nothing else of the
loop runs. A pause is handled in a worker thread and may run between any two statements. -/
namespace WittyService

/-- The stored sandbox state: the handle, whether it has an adapter URL, `adapter_ready`. -/
structure SandboxRecord where
  handle : Nat
  hasUrl : Bool
  adapterReady : Bool
  deriving DecidableEq, Repr

inductive LoopSection where
  -- a resume: `_ensure_sandbox_ready_for_resume`, `_restart_sandbox`
  | readUrl
  | readGatewayPort
  | saveGatewayPort (state : SandboxRecord)
  | readPrevious
  | stopPrevious (previous : Option Nat)
  | launch
  | saveSandbox (handle : Nat)
  -- a deletion: `_cleanup_sandbox`, what the errors amount to, the record
  | cleanupSandbox (errors : List CleanupError)
  | stopSandbox (handle : Nat) (errors : List CleanupError)
  | decide (errors : List CleanupError)
  | deleteRow
  deriving DecidableEq, Repr

/-- A coroutine that is suspended, by what it awaits. `agentStart` is `/agent/start` and the
restores of the sessions after it. -/
inductive Awaiting where
  | probe
  | health
  | agentStart
  | runtimeStop
  deriving DecidableEq, Repr

inductive PauseCall where
  | stopRuntime
  | readState
  | stopSandbox (state : SandboxRecord)
  | saveState (state : SandboxRecord)
  | saveStatus
  deriving DecidableEq, Repr

/-- The row of the agent, its sandbox state, the processes, and the operations on it. -/
structure AgentLife where
  agent : Option AgentStatus
  record : Option SandboxRecord
  backend : LocalBackend
  running : Option LoopSection
  awaiting : List Awaiting
  pauses : List PauseCall

/-- What the statement meets: the signals of a stop, whether the new process stays up, and
whether the gateway port has to change. -/
structure Chance where
  signals : Signals
  staysUp : Bool
  newPort : Bool
  deriving DecidableEq, Repr

/-- `wake` ends an await, with what it raised or `none`; a health check that is answered
badly counts as raised. The last three are about the processes of a group. -/
inductive LifeAction where
  | pause
  | resume
  | delete
  | pauseStep (k : Nat) (signals : Signals)
  | loopStep (chance : Chance)
  | wake (k : Nat) (raised : Option Raised)
  | leaderExits (handle : Nat)
  | membersExit (handle : Nat)
  | memberStarts (handle : Nat)

namespace AgentLife

variable (s : AgentLife)

def goto (next : LoopSection) : AgentLife := { s with running := some next }

def suspend (await : Awaiting) : AgentLife :=
  { s with running := none, awaiting := s.awaiting ++ [await] }

def finish : AgentLife := { s with running := none }

/-- `_get_adaptor_http_client` raises without a sandbox state. -/
def startRuntime : AgentLife := if s.record.isNone then s.finish else s.suspend .agentStart

def saveSandboxState (record : SandboxRecord) : Option AgentLife :=
  if s.agent.isNone then none else some { s with record := some record }

def updateAgentStatus (status : AgentStatus) : AgentLife :=
  { s with agent := s.agent.map fun _ => status }

def resumeAgent : AgentLife :=
  match s.agent with
  | none | some .creating => s
  | some .paused => s.goto .readUrl
  | some .deleted | some .error | some .running => s.goto .readPrevious

def deleteAgent : AgentLife :=
  match s.agent, s.record with
  | none, _ => s
  | some status, none =>
    s.goto (.decide (if status = .running ∨ status = .paused then
      [cleanupError "runtime_stop"
        (.domain "SANDBOX_STATE_NOT_FOUND" "Sandbox state was not found.")] else []))
  | some status, some _ =>
    if status = .running ∨ status = .paused then s.suspend .runtimeStop
    else s.goto (.cleanupSandbox [])

/-- `_ensure_transition`, then `/agent/stop`. -/
def pauseAgent : AgentLife :=
  match s.agent with
  | none => s
  | some status =>
    if canTransition status .paused then { s with pauses := s.pauses ++ [.stopRuntime] } else s

def loopStep (chance : Chance) : LoopSection → AgentLife
  | .readUrl =>
    match s.record with
    | some state => if state.hasUrl then s.suspend .probe else s.goto .readPrevious
    | none => s.goto .readPrevious
  | .readGatewayPort =>
    match s.record with
    | some state => if chance.newPort then s.goto (.saveGatewayPort state) else s.startRuntime
    | none => s.startRuntime
  | .saveGatewayPort state =>
    match s.saveSandboxState { state with adapterReady := true } with
    | none => s.finish
    | some s => s.startRuntime
  | .readPrevious => s.goto (.stopPrevious (s.record.map SandboxRecord.handle))
  | .stopPrevious none => s.goto .launch
  | .stopPrevious (some previous) =>
    match s.backend.stopPreviousSandbox previous chance.signals with
    | (backend, some _) => { s with backend := backend }.finish
    | (backend, none) => { s with backend := backend }.goto .launch
  | .launch =>
    if chance.staysUp then
      { s with backend := s.backend.launch }.goto (.saveSandbox s.backend.next)
    else s.finish
  | .saveSandbox handle =>
    match s.saveSandboxState ⟨handle, true, true⟩ with
    | none => s.finish
    | some s => s.suspend .health
  | .cleanupSandbox errors =>
    match s.record with
    | none => s.goto (.decide errors)
    | some state => s.goto (.stopSandbox state.handle errors)
  | .stopSandbox handle errors =>
    match s.backend.cleanup handle chance.signals with
    | (backend, some exc) =>
      { s with backend := backend }.goto
        (.decide (errors ++ [cleanupError "sandbox_cleanup" exc]))
    | (backend, none) => { s with backend := backend }.goto (.decide errors)
  | .decide errors =>
    if errors.all isTolerableCleanupError then
      if s.agent.isNone then s.finish
      else (s.updateAgentStatus .deleted).goto .deleteRow
    else s.finish
  -- the sandbox state cascades
  | .deleteRow => { s with agent := none, record := none }.finish

def resumeFrom (raised : Option Raised) : Awaiting → AgentLife
  | .probe => s.goto (if raised.isNone then .readGatewayPort else .readPrevious)
  | .health => if raised.isNone then s.startRuntime else s
  | .agentStart => if raised.isNone then s.updateAgentStatus .running else s
  | .runtimeStop => s.goto (.cleanupSandbox (raised.map (cleanupError "runtime_stop")).toList)

def pauseStep (signals : Signals) : PauseCall → AgentLife × Option PauseCall
  | .stopRuntime => (s, some .readState)
  | .readState => (s, some (s.record.elim .saveStatus .stopSandbox))
  | .stopSandbox state =>
    match s.backend.stop state.handle signals with
    | (backend, some _) => ({ s with backend := backend }, some .saveStatus)
    | (backend, none) => ({ s with backend := backend }, some (.saveState state))
  | .saveState state =>
    match s.saveSandboxState { state with adapterReady := false } with
    | none => (s, none)
    | some s => (s, some .saveStatus)
  | .saveStatus => (s.updateAgentStatus .paused, none)

def setTree (handle : Nat) (f : ProcessTree → ProcessTree) : AgentLife :=
  { s with backend := { s.backend with
      trees := Function.update s.backend.trees handle (f (s.backend.trees handle)) } }

end AgentLife

def LocalBackend.exitLeader (b : LocalBackend) (handle : Nat) (t : ProcessTree) : ProcessTree :=
  if t.leader = .running then
    { t with leader := if b.processes handle then .zombie else .reaped }
  else t

def ProcessTree.startMember (t : ProcessTree) : ProcessTree :=
  if t.leader = .running then { t with members := true } else t

def lifeStep (s : AgentLife) : LifeAction → Option AgentLife
  | .pause => some s.pauseAgent
  | .resume => if s.running.isSome then none else some s.resumeAgent
  | .delete => if s.running.isSome then none else some s.deleteAgent
  | .pauseStep k signals =>
    match s.pauses[k]? with
    | none => none
    | some call =>
      let (after, next) := s.pauseStep signals call
      some { after with pauses := s.pauses.take k ++ next.toList ++ s.pauses.drop (k + 1) }
  | .loopStep chance => s.running.map (s.loopStep chance)
  | .wake k raised =>
    match s.running, s.awaiting[k]? with
    | none, some await =>
      some ({ s with awaiting := s.awaiting.eraseIdx k }.resumeFrom raised await)
    | _, _ => none
  | .leaderExits handle => some (s.setTree handle (s.backend.exitLeader handle))
  | .membersExit handle => some (s.setTree handle fun t => { t with members := false })
  | .memberStarts handle => some (s.setTree handle ProcessTree.startMember)

end WittyService
