import WittyService.GuardedRuns

/-! The agent services of the agent server, one for each runtime: how `start` and `stop` set the
status of the agent around the operations of the lifecycle service. Of an agent the id and the
status are kept. -/
namespace WittyService.AgentServer

open GuardedRuns

inductive RuntimeType where
  | openclaw
  | opencode
  | dsh
  deriving DecidableEq, Repr

inductive AgentStatus where
  | created
  | stopped
  | starting
  | running
  | paused
  | failed
  deriving DecidableEq, Repr

structure LifecycleError where
  action : String
  message : String
  deriving DecidableEq, Repr

inductive AgentServiceError where
  | operation (code message : String) (statusCode : Nat) (cause : LifecycleError)
  | invalidAgentTransition (current target : AgentStatus)
  /-- The gateway does not list the agent, does not have it loaded or cannot be asked. -/
  | gateway (code : String)
  /-- An error of the lifecycle service that is not caught. -/
  | lifecycle (cause : LifecycleError)
  deriving DecidableEq, Repr

/-- Whether the process of the runtime is alive, and whether a stop has failed, are not kept by
the service. -/
structure AgentService where
  id : Option String := none
  status : AgentStatus := .created
  lastStartAlreadyRunning : Bool := false
  alive : Bool := false
  stopFailed : Bool := false
  deriving DecidableEq, Repr

/-- How the operations of a start end, `none` where one succeeds. Only openclaw asks whether the
profile is provisioned, runs an onboarding and resolves its agent at the gateway. `update_config`,
which can fail for dsh only, tells whether it detached the harness. A probe may miss a process. -/
structure StartOperations where
  provisioned : Bool := true
  updateConfig : Except LifecycleError Bool := .ok false
  probe : Except LifecycleError Bool := .ok true
  stop : Option LifecycleError := none
  onboard : Option LifecycleError := none
  startServer : Option LifecycleError := none
  gateway : Except String String := .ok "main"

abbrev ServiceM := ExceptT AgentServiceError (StateM AgentService)

def probeRunning (ops : StartOperations) (onError : LifecycleError → ServiceM Bool) :
    ServiceM Bool :=
  match ops.probe with
  | .ok answer => do return (← get).alive && answer
  | .error error => onError error

/-- `lifecycle_service.stop`; when it fails, the process stays as it is. -/
def lifecycleStop (outcome : Option LifecycleError) (onError : LifecycleError → ServiceM Unit) :
    ServiceM Unit :=
  match outcome with
  | none => modify fun s => { s with alive := false }
  | some error => onError error

/-- `lifecycle_service.start_server`; when it fails, no process is left. -/
def lifecycleStart (outcome : Option LifecycleError) (onError : LifecycleError → ServiceM Unit) :
    ServiceM Unit :=
  match outcome with
  | none => modify fun s => { s with alive := true }
  | some error => do
    modify fun s => { s with alive := false }
    onError error

def stopRunning (isRunning : Bool) (stop : ServiceM Unit) : ServiceM Unit :=
  if isRunning then stop else pure ()

def transition (allowedCurrent : List AgentStatus) (target : AgentStatus) : ServiceM Unit := do
  let current := (← get).status
  if current ∉ allowedCurrent then throw (.invalidAgentTransition current target)
  modify fun s => { s with status := target }

def ensureAgentContext (agentId : Option String) : ServiceM Unit :=
  match agentId with
  | some id => if id = "" then pure () else modify fun s => { s with id := some id }
  | none => pure ()

namespace OpenClawAgentService

def probeOpenclawRunning (ops : StartOperations) : ServiceM Bool :=
  probeRunning ops fun error =>
    throw (.operation "OPENCLAW_START_FAILED" "openclaw start failed" 500 error)

def stopOpenclaw (outcome : Option LifecycleError) : ServiceM Unit :=
  lifecycleStop outcome fun error =>
    throw (.operation "OPENCLAW_STOP_FAILED" "openclaw stop failed" 500 error)

def onboardOpenclaw (ops : StartOperations) : ServiceM Unit := do
  match ops.onboard with
  | some error => throw (.operation "OPENCLAW_ONBOARD_FAILED" "openclaw onboard failed" 500 error)
  | none =>
    lifecycleStart ops.startServer fun error =>
      throw (.operation "OPENCLAW_GATEWAY_START_FAILED" "openclaw gateway start failed" 500 error)

/-- `_resolve_target_agent` and `_ensure_gateway_agent_loaded`. -/
def resolveLoadedAgent (ops : StartOperations) : ServiceM String :=
  match ops.gateway with
  | .ok agentId => pure agentId
  | .error code => throw (.gateway code)

def gatewayRunning (ops : StartOperations) : ServiceM Bool :=
  if ops.provisioned then probeOpenclawRunning ops else pure false

/-- `start` where the runtime is not reused. -/
def restart (isRunning : Bool) (ops : StartOperations) : ServiceM Unit := do
  stopRunning isRunning (stopOpenclaw ops.stop)
  onboardOpenclaw ops
  let agentId ← resolveLoadedAgent ops
  modify fun s => { s with id := some agentId, status := .running }

/-- `start` where the runtime is reused. -/
def reuse (ops : StartOperations) : ServiceM Unit := do
  let agentId ← resolveLoadedAgent ops
  modify fun s => { s with id := some agentId, status := .running, lastStartAlreadyRunning := true }

def start (reload : Bool) (ops : StartOperations) : ServiceM Unit := do
  let isRunning ← gatewayRunning ops
  if isRunning && !reload then reuse ops else restart isRunning ops

def stop (agentId : Option String) (outcome : Option LifecycleError) : ServiceM Unit := do
  ensureAgentContext agentId
  transition [.running, .paused] .stopped
  stopOpenclaw outcome

end OpenClawAgentService

/-- `start` of opencode and dsh, from the probe on. -/
def startServing (code message : String) (reload : Bool) (ops : StartOperations) :
    ServiceM Unit := do
  -- the probes of opencode and dsh catch what they meet
  let isRunning ← probeRunning ops fun _ => pure false
  if isRunning && !reload then
    modify fun s => { s with status := .running, lastStartAlreadyRunning := true }
  else
    stopRunning isRunning (lifecycleStop ops.stop fun error => throw (.lifecycle error))
    lifecycleStart ops.startServer fun error => do
      modify fun s => { s with status := .failed }
      throw (.operation code message 500 error)
    modify fun s => { s with status := .running }

/-- `stop` of opencode and dsh. -/
def stopServing (agentId : Option String) (outcome : Option LifecycleError) : ServiceM Unit := do
  ensureAgentContext agentId
  match outcome with
  | some _ => modify fun s => { s with status := .failed }
  | none =>
    modify fun s => { s with alive := false }
    transition [.running, .paused] .stopped

namespace OpenCodeAgentService

def start (agentId : Option String) (reload : Bool) (ops : StartOperations) : ServiceM Unit := do
  modify fun s => { s with
    lastStartAlreadyRunning := false
    id := some (agentId.getD (s.id.getD "main")) }
  startServing "OPENCODE_SERVE_START_FAILED" "opencode serve start failed" reload ops

def stop (agentId : Option String) (outcome : Option LifecycleError) : ServiceM Unit :=
  stopServing agentId outcome

end OpenCodeAgentService

namespace DshAgentService

/-- `_apply_config`; a change detaches the harness, so that none is current. -/
def applyConfig (ops : StartOperations) : ServiceM Unit :=
  match ops.updateConfig with
  | .ok changed => modify fun s => { s with alive := s.alive && !changed }
  | .error error => throw (.operation "DSH_AGENT_CONFIG_INVALID"
      ("invalid dsh agent config: " ++ error.message) 400 error)

def start (agentId : Option String) (reload : Bool) (ops : StartOperations) : ServiceM Unit := do
  modify fun s => { s with lastStartAlreadyRunning := false }
  applyConfig ops
  -- the id is written only after the configuration was found valid
  modify fun s => { s with
    id := some (agentId.getD (if s.id.getD "" = "" then "main" else s.id.getD "")) }
  startServing "DSH_RUNTIME_START_FAILED" "dsh runtime start failed" reload ops

def stop (agentId : Option String) (outcome : Option LifecycleError) : ServiceM Unit :=
  stopServing agentId outcome

end DshAgentService

inductive AgentCall where
  | start (agentId : Option String) (reload : Bool) (ops : StartOperations)
  | stop (agentId : Option String) (outcome : Option LifecycleError)

def perform : RuntimeType → AgentCall → ServiceM Unit
  | .openclaw, .start _ reload ops => OpenClawAgentService.start reload ops
  | .openclaw, .stop agentId outcome => OpenClawAgentService.stop agentId outcome
  | .opencode, .start agentId reload ops => OpenCodeAgentService.start agentId reload ops
  | .opencode, .stop agentId outcome => OpenCodeAgentService.stop agentId outcome
  | .dsh, .start agentId reload ops => DshAgentService.start agentId reload ops
  | .dsh, .stop agentId outcome => DshAgentService.stop agentId outcome

namespace AgentService

variable (runtime : RuntimeType) (s : AgentService)

/-- The call is a stop whose lifecycle operation fails; openclaw does not get to it when the
transition is refused. -/
def failsToStop : AgentCall → Bool
  | .start _ _ _ => false
  | .stop _ outcome =>
    outcome.isSome && (runtime ≠ .openclaw || s.status ∈ [AgentStatus.running, .paused])

def step (call : AgentCall) : Option AgentService :=
  some { (perform runtime call s).2 with
    stopFailed := s.stopFailed || s.failsToStop runtime call }

/-- The status tells whether the process is alive. -/
structure Truthful : Prop where
  stopped : s.status = .stopped → s.alive = false
  running : s.status = .running → s.alive = true

/-- A call that tells the truth, and that ends in `stopped` when it is a stop that succeeds after
one that failed. -/
structure Honest (call : AgentCall) (s' : AgentService) : Prop where
  truthful : s'.Truthful
  retried : s.stopFailed = true → ∀ agentId, call = .stop agentId none → s'.status = .stopped

def seesRunning (ops : StartOperations) : Bool :=
  ops.provisioned && s.alive && ops.probe.toOption = some true

/-- The start gets as far as the onboarding. -/
def ReachesOnboard (reload : Bool) (ops : StartOperations) : Prop :=
  (ops.provisioned = true → ops.probe.isOk = true) ∧
    (s.seesRunning ops = true → reload = true ∧ ops.stop = none)

/-- The start raises after it stopped the gateway, or could not start it. -/
def RaisesWithoutGateway (reload : Bool) (ops : StartOperations) : Prop :=
  s.ReachesOnboard reload ops ∧
    if ops.onboard.isSome then s.seesRunning ops = true else ops.startServer.isSome = true

/-- The start raises after it started the gateway. -/
def RaisesWithGateway (reload : Bool) (ops : StartOperations) : Prop :=
  s.ReachesOnboard reload ops ∧ ops.onboard = none ∧ ops.startServer = none ∧
    ops.gateway.isOk = false

/-- No call of openclaw fails after it stopped the gateway of a running agent, or after it started
the gateway of a stopped one, and no stop of a live gateway fails. No stop of opencode and dsh
succeeds that finds the status `failed` after a stop that failed. -/
def KeepsTruth : AgentCall → Prop
  | .start _ reload ops => runtime = .openclaw →
      ¬ (s.status = .running ∧ s.RaisesWithoutGateway reload ops) ∧
        ¬ (s.status = .stopped ∧ s.RaisesWithGateway reload ops)
  | .stop _ (some _) =>
    ¬ (runtime = .openclaw ∧ s.status ∈ [AgentStatus.running, .paused] ∧ s.alive)
  | .stop _ none => ¬ (runtime ≠ .openclaw ∧ s.stopFailed ∧ s.status = .failed)

end AgentService

end WittyService.AgentServer
