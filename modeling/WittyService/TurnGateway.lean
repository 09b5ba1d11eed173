import WittyService.RouteInvariants
import WittyService.SessionStore

/-! The turns of a route as the turn gateway runs them: the pump that hands the events of a turn
to the worker, and the assistant messages that are stored meanwhile. -/
namespace WittyService

/-- An assistant message. `turn` is the turn of the route that stored it, `none` for any other
(a turn of the console, of another route, of an earlier process). -/
structure AssistantMessage where
  sessionId : String
  turn : Option Nat
  content : String
  status : MessageStatus
  deriving DecidableEq, Repr

inductive PumpTask where
  | created (agentId sessionId : String)
  | resumeAgent (sessionId : String)
  | stream (sessionId : String)
  | done
  deriving DecidableEq, Repr

/-- An event of the stream of `send_message_stream`, as far as its type is looked at. -/
inductive TurnEvent where
  | terminal (text : Option String)
  | failure (code message : Option String)
  | questionAsked (requestId : Option String)
  | other
  deriving DecidableEq, Repr

def TurnEvent.signal : TurnEvent → TurnSignal
  | terminal text => .terminal text
  | failure code message => .errorEvent code message
  | questionAsked requestId => .questionAsked requestId
  | other => .other

def TurnEvent.final : TurnEvent → Bool
  | terminal _ | failure _ _ => true
  | _ => false

inductive PumpAnswer where
  | started
  | resumed (status : AgentStatus)
  | event (event : TurnEvent)
  | ended
  | domainError (agentNotFound : Bool) (code message : String)
  | raised
  | cancelled
  deriving DecidableEq, Repr

inductive AnswerSource where
  | terminal
  | stored (turn : Option Nat)
  deriving DecidableEq, Repr

/-- How `_process` goes on once it has the outcome of a turn. -/
inductive Conclusion where
  | aborted
  | gated
  | failure
  | answer (source : AnswerSource) (text : String)
  deriving DecidableEq, Repr

/-- The route, the agents, the assistant messages in the order of `created_at`, the pump of the
running turn and what it put into the event queue. `produced` are the texts that the terminal
events and the messages of a turn carried, `concluded` is how the turns were concluded. -/
structure GatewayState where
  route : RouteState
  agents : String → Option AgentStatus
  messages : List AssistantMessage
  pump : PumpTask
  events : List TurnSignal
  produced : List (Nat × String)
  concluded : List (Nat × Conclusion)

def CHANNEL_AGENT_NOT_BOUND : String := "CHANNEL_AGENT_NOT_BOUND"
def CHANNEL_AGENT_NOT_RUNNABLE : String := "CHANNEL_AGENT_NOT_RUNNABLE"
def CHANNEL_TURN_FAILED : String := "CHANNEL_TURN_FAILED"
def AGENT_NOT_RUNNING : String := "AGENT_NOT_RUNNING"

namespace GatewayState

variable (cfg : RouterConfig) (s : GatewayState)

def findLastAssistantMessage (sessionId : String) : Option AssistantMessage :=
  s.messages.reverse.find? (·.sessionId = sessionId)

/-- The message that `last_assistant_text` reads, unless it is blank. -/
def lastAssistantMessage (sessionId : String) : Option AssistantMessage :=
  (s.findLastAssistantMessage sessionId).filter fun message => pyStrip message.content ≠ []

def lastAssistantText (sessionId : String) : Option String :=
  (s.lastAssistantMessage sessionId).map AssistantMessage.content

def isSessionAborted (sessionId : String) : Bool :=
  (s.findLastAssistantMessage sessionId).any fun message => message.status = .interrupted

def pumpEnds (signals : List TurnSignal) : GatewayState :=
  { s with pump := .done, events := s.events ++ signals ++ [.ended] }

def pumpFails (code message : String) : GatewayState := s.pumpEnds [.error code message]

def requireAgent (agentId : String) : Option AgentStatus :=
  (s.agents agentId).filter (· ≠ .deleted)

/-- The end of `_ensure_runnable`, and the stream if it lets the turn through. -/
def ensureRunnable (sessionId : String) (status : AgentStatus) : GatewayState :=
  if status = .running then { s with pump := .stream sessionId }
  else s.pumpFails CHANNEL_AGENT_NOT_RUNNABLE "Agent is not runnable for channel messages."

def runTurn (agentId sessionId : String) : GatewayState :=
  match s.requireAgent agentId with
  | none => s.pumpFails CHANNEL_AGENT_NOT_BOUND "Channel instance has no usable agent bound."
  | some .paused => { s with pump := .resumeAgent sessionId }
  | some status => s.ensureRunnable sessionId status

def turnFailed : GatewayState :=
  s.pumpFails CHANNEL_TURN_FAILED "Channel turn failed before reaching a terminal event."

def streamEnds (sessionId : String) : GatewayState :=
  if s.isSessionAborted sessionId then
    s.pumpFails RouteState.channelTurnAborted "Channel turn was aborted."
  else s.turnFailed

def mapAgentError (agentNotFound : Bool) (code message : String) : GatewayState :=
  if agentNotFound then
    s.pumpFails CHANNEL_AGENT_NOT_BOUND "Channel instance has no usable agent bound."
  else if code = AGENT_NOT_RUNNING then
    s.pumpFails CHANNEL_AGENT_NOT_RUNNABLE "Agent is not runnable for channel messages."
  else s.pumpFails code message

def joining : Bool :=
  match s.route.worker.bind s.route.tasks with
  | some (.processing _ (.joinPump _ _)) => true
  | _ => false

def pumpStep : PumpTask → PumpAnswer → Option GatewayState
  | .created agentId sessionId, .started => some (s.runTurn agentId sessionId)
  | .resumeAgent sessionId, .resumed status => some (s.ensureRunnable sessionId status)
  -- `resume_agent` is outside of the `try` that maps the errors of the agent
  | .resumeAgent _, .domainError _ code message => some (s.pumpFails code message)
  | .stream _, .event event =>
    some (if event.final then s.pumpEnds [event.signal]
      else { s with events := s.events ++ [event.signal] })
  | .stream sessionId, .ended => some (s.streamEnds sessionId)
  | .stream _, .domainError agentNotFound code message =>
    some (s.mapAgentError agentNotFound code message)
  | .resumeAgent _, .raised | .stream _, .raised => some s.turnFailed
  -- a task that is cancelled before it starts does not run its `finally`
  | .created _ _, .cancelled => if s.joining then some { s with pump := .done } else none
  | .resumeAgent _, .cancelled | .stream _, .cancelled =>
    if s.joining then some (s.pumpEnds []) else none
  | _, _ => none

def finalAnswer (outcome : TurnOutcome) (sessionId : String) : Option (AnswerSource × String) :=
  match outcome.finalText with
  | some text => some (.terminal, text)
  | none => (s.lastAssistantMessage sessionId).map fun message =>
      (.stored message.turn, message.content)

def conclusion (turn : TurnContext) (outcome : TurnOutcome) : Conclusion :=
  if outcome.aborted || s.route.stoppedTurnId == some turn.turnId then .aborted
  else if s.route.turnDeliveryAllowed turn then
    match s.finalAnswer outcome turn.sessionId with
    | some (source, text) => .answer source text
    | none => .failure
  else .gated

def unboundOutcome : TurnOutcome :=
  { TurnOutcome.initial with failed := true, errorCode := some CHANNEL_AGENT_NOT_BOUND }

def signalText (turnId : Nat) : TurnSignal → List (Nat × String)
  | .terminal (some text) => [(turnId, text)]
  | _ => []

/-- A step of a worker of the route: its pump, its event queue and the stored messages decide
what its awaits end with. -/
def workerStep (id : Nat) (answer : Answer) : Option GatewayState :=
  match s.route.tasks id, answer with
  | some (.processing item (.placeholder turn)), .placeholderSent delivered ref _ =>
    let answer := .placeholderSent delivered ref (s.lastAssistantText turn.sessionId)
    (s.route.workerStep cfg id answer).map fun route =>
      match s.route.agentId with
      | some agentId =>
        { s with route := route, pump := .created agentId turn.sessionId, events := [] }
      | none =>
        { s with
          route := route
          pump := .done
          events := []
          concluded := s.concluded ++ [(item.turnId, s.conclusion turn unboundOutcome)] }
  | some (.processing item (.turnEvent _ _)), .signal signal =>
    if signal = .stall then (s.route.workerStep cfg id answer).map fun route =>
      { s with route := route }
    else
      match s.events with
      | [] => none
      | next :: rest =>
        if next = signal then (s.route.workerStep cfg id answer).map fun route =>
          { s with
            route := route
            events := rest
            produced := s.produced ++ signalText item.turnId signal }
        else none
  | some (.processing item (.joinPump turn exit)), .pumpDone _ =>
    if s.pump = .done then
      let answer := .pumpDone (s.lastAssistantText turn.sessionId)
      (s.route.workerStep cfg id answer).map fun route =>
        { s with
          route := route
          concluded := s.concluded ++
            match exit with
            | .outcome outcome => [(item.turnId, s.conclusion turn outcome)]
            | _ => [] }
    else none
  | _, _ => (s.route.workerStep cfg id answer).map fun route => { s with route := route }

def messageText (message : AssistantMessage) : List (Nat × String) :=
  message.turn.toList.map fun turn => (turn, message.content)

end GatewayState

/-- A step of the route, a step of the pump, or a change of the agents and the messages by whoever
may make it. -/
inductive GatewayAction where
  | route (action : RouteAction)
  | pump (answer : PumpAnswer)
  | setStatus (agentId : String) (status : Option AgentStatus)
  | store (message : AssistantMessage)
  | rewrite (k : Nat) (content : String) (status : MessageStatus)
  | remove (k : Nat)
  deriving DecidableEq, Repr

def gatewayStep (cfg : RouterConfig) (s : GatewayState) : GatewayAction → Option GatewayState
  | .route (.worker id answer) => s.workerStep cfg id answer
  | .route action => (routeStep cfg s.route action).map fun route => { s with route := route }
  | .pump answer => s.pumpStep s.pump answer
  | .setStatus agentId status => some { s with agents := Function.update s.agents agentId status }
  | .store message =>
    some { s with
      messages := s.messages ++ [message]
      produced := s.produced ++ GatewayState.messageText message }
  | .rewrite k content status =>
    s.messages[k]?.map fun message =>
      let message := { message with content := content, status := status }
      { s with
        messages := s.messages.set k message
        produced := s.produced ++ GatewayState.messageText message }
  | .remove k => some { s with messages := s.messages.eraseIdx k }

def GatewayState.fresh (agentId activeSession : Option String)
    (agents : String → Option AgentStatus) (messages : List AssistantMessage) : GatewayState where
  route := .fresh agentId activeSession
  agents := agents
  messages := messages.map fun message => { message with turn := none }
  pump := .done
  events := []
  produced := []
  concluded := []

end WittyService
