import Mathlib.Logic.Function.Basic

/-! One route of the channel router: its queue, the tasks that work on it and the commands
that are handled beside them. A task runs from one `await` to the next without interruption;
each step of the model is such a run. -/
namespace WittyService

/-- `turnId` is the place of the message among all that arrived on the route. -/
structure QueuedMessage where
  turnId : Nat
  text : String
  deriving DecidableEq, Repr

structure TurnContext where
  turnId : Nat
  sessionId : String
  bindingVersion : Nat
  nonFinalSent : Nat
  noticeSent : Bool
  deriving DecidableEq, Repr

structure TurnOutcome where
  finalText : Option String
  failed : Bool
  errorCode : Option String
  errorMessage : Option String
  aborted : Bool
  deferred : Bool
  deriving DecidableEq, Repr

def TurnOutcome.initial : TurnOutcome := ⟨none, false, none, none, false, false⟩

def TurnOutcome.renderedCode (outcome : TurnOutcome) : String :=
  (if outcome.failed then outcome.errorCode.filter (· ≠ "") else none).getD "CHANNEL_TURN_FAILED"

/-- What `_consume_turn` gets from its event queue: the stall timeout, the end mark, the error
of the pump, or an event. Other events only renew the timeout. -/
inductive TurnSignal where
  | stall
  | ended
  | error (code message : String)
  | terminal (text : Option String)
  | errorEvent (code message : Option String)
  | questionAsked (requestId : Option String)
  | other
  deriving DecidableEq, Repr

/-- How `_consume_turn` is left, before its pump is joined. -/
inductive TurnExit where
  | outcome (outcome : TurnOutcome)
  | raised
  | cancelled
  deriving DecidableEq, Repr

inductive ProcessAwait where
  | notBound
  | resolveSession (bound : Option String)
  | resolveError
  | placeholder (turn : TurnContext)
  | turnEvent (turn : TurnContext) (outcome : TurnOutcome)
  | deferredNotice (turn : TurnContext) (outcome : TurnOutcome) (edited : Bool)
  | interactionNotice (turn : TurnContext) (outcome : TurnOutcome) (requestId : Option String)
  | rejectInteraction (turn : TurnContext) (outcome : TurnOutcome)
  | joinPump (turn : TurnContext) (exit : TurnExit)
  -- a segment is being sent, `rest` are the segments after it
  | delivery (turn : TurnContext) (final : Bool) (ref : Option String) (rest : List String)
  deriving DecidableEq, Repr

inductive WorkerTask where
  | created
  | processing (item : QueuedMessage) (await : ProcessAwait)
  deriving DecidableEq, Repr

/-- What an await ends with. `pumpDone` comes with the stored answer of the session, for the
lookup that follows it, and so does `placeholderSent`, for a turn whose agent is gone; `done` is
a call whose exceptions are only logged. -/
inductive Answer where
  | sent (delivered : Bool) (ref : Option String)
  | placeholderSent (delivered : Bool) (ref lastText : Option String)
  | session (id : String)
  | domainError (code message : String)
  | signal (signal : TurnSignal)
  | pumpDone (lastText : Option String)
  | done
  | raised
  | cancelled
  deriving DecidableEq, Repr

inductive OutboundText where
  | notBound
  | placeholder
  | deferredNotice
  | interactionNotice
  | answer (text : String)
  | failure (text : String)
  | queueFull (depth : Nat)
  | stopCancelled
  | newAck (drained : Nat)
  deriving DecidableEq, Repr

/-- What happened on the route, in order. A text of a turn names the turn, an edit the message
it replaces. The acknowledgement of a `/stop` names the turn the `/stop` found in process. -/
inductive RouteEvent where
  | enqueued (turnId : Nat)
  | taken (turnId : Nat)
  | ended (turnId : Nat)
  | removed (turnId command : Nat)
  | sent (turnId : Option Nat) (text : OutboundText) (edit : Option String)
  | aborted (command turnId : Nat) (sessionId : String)
  | stopAck (command : Nat) (found : Option Nat) (idle : Bool)
  deriving DecidableEq, Repr

/-- A command between two of its awaits. `reply` is the last text of a command, or of a
message that is not queued. -/
inductive CommandTask where
  | stopNotices (command : Nat) (found : Option Nat) (left : Nat)
  | stopAbort (command : Nat) (found : Option Nat)
  | newSession (command : Nat)
  | reply
  deriving DecidableEq, Repr

/-- An inbound message that passed the checks of `handle_inbound`; `other` is what is dropped
there or only answered. -/
inductive Inbound where
  | plain (text : String)
  | stop
  | new
  | other
  deriving DecidableEq, Repr

structure RouterConfig where
  requestedDepth : Int
  canEdit : Bool
  plan : String → Nat → List String
  renderError : String → String

def RouterConfig.queueDepth (cfg : RouterConfig) : Nat := max 1 cfg.requestedDepth.toNat

/-- The state of the route, the row of the route in the database (`activeSession`,
`activePlaceholder`), the agent of the instance and the tasks. Of `current` only the turn and
the session are read. -/
structure RouteState where
  queue : List QueuedMessage
  worker : Option Nat
  bindingVersion : Nat
  current : Option TurnContext
  stoppedTurnId : Option Nat
  placeholderRef : Option String
  activeSession : Option String
  activePlaceholder : Option String
  agentId : Option String
  tasks : Nat → Option WorkerTask
  nextTask : Nat
  commands : List CommandTask
  clock : Nat
  trace : List RouteEvent

namespace RouteState

variable (cfg : RouterConfig) (s : RouteState)

def emit (event : RouteEvent) : RouteState := { s with trace := s.trace ++ [event] }

def say (turnId : Option Nat) (text : OutboundText) (edit : Option String) : RouteState :=
  s.emit (.sent turnId text edit)

def await (id : Nat) (item : QueuedMessage) (await : ProcessAwait) : RouteState :=
  { s with tasks := Function.update s.tasks id (some (.processing item await)) }

def workerExit (id : Nat) : RouteState :=
  { s with tasks := Function.update s.tasks id none, worker := none }

def createWorker : RouteState :=
  { s with
    tasks := Function.update s.tasks s.nextTask (some .created)
    worker := some s.nextTask
    nextTask := s.nextTask + 1 }

def ensureWorker : RouteState :=
  match s.worker with
  | some id => if (s.tasks id).isSome then s else s.createWorker
  | none => s.createWorker

/-- `_process` up to its first await. -/
def startProcess (id : Nat) (item : QueuedMessage) : RouteState :=
  match s.agentId with
  | none => (s.say item.turnId .notBound none).await id item .notBound
  | some _ => s.await id item (.resolveSession s.activeSession)

/-- The head of the loop of `_worker`. -/
def takeNext (id : Nat) : RouteState :=
  match s.queue with
  | [] => s.workerExit id
  | item :: rest => ({ s with queue := rest }.emit (.taken item.turnId)).startProcess id item

/-- `_process` returned or raised an `Exception`. -/
def endMessage (id : Nat) (item : QueuedMessage) : RouteState :=
  (s.emit (.ended item.turnId)).takeNext id

/-- `_process` raised `CancelledError`. -/
def cancelMessage (id : Nat) (item : QueuedMessage) : RouteState :=
  (s.emit (.ended item.turnId)).workerExit id

def clearPlaceholder : RouteState := { s with placeholderRef := none, activePlaceholder := none }

def turnDeliveryAllowed (turn : TurnContext) : Bool :=
  s.bindingVersion == turn.bindingVersion && s.activeSession == some turn.sessionId

def deliver (id : Nat) (item : QueuedMessage) (turn : TurnContext) (final : Bool)
    (ref : Option String) : List String → RouteState
  | [] => s.clearPlaceholder.endMessage id item
  | text :: rest =>
    (s.say turn.turnId (if final then .answer text else .failure text)
      (if cfg.canEdit then ref else none)).await id item (.delivery turn final ref rest)

def deliverError (id : Nat) (item : QueuedMessage) (turn : TurnContext) (code : String) :
    RouteState :=
  if s.turnDeliveryAllowed turn then
    s.deliver cfg id item turn false s.placeholderRef
      (cfg.plan (cfg.renderError code) turn.nonFinalSent)
  else s.clearPlaceholder.endMessage id item

def deliverFinal (id : Nat) (item : QueuedMessage) (turn : TurnContext) (text : String) :
    RouteState :=
  s.deliver cfg id item turn true (s.placeholderRef.or s.activePlaceholder)
    (cfg.plan text turn.nonFinalSent)

/-- `_process` after the turn is consumed. -/
def finishTurn (id : Nat) (item : QueuedMessage) (turn : TurnContext) (outcome : TurnOutcome)
    (lastText : Option String) : RouteState :=
  let stoppedByUser := s.stoppedTurnId == some turn.turnId
  let s := { s with
    current := none
    stoppedTurnId := if stoppedByUser then none else s.stoppedTurnId }
  if outcome.aborted || stoppedByUser then s.clearPlaceholder.endMessage id item
  else
    match outcome.finalText.or lastText with
    | none => s.deliverError cfg id item turn outcome.renderedCode
    | some text =>
      if s.turnDeliveryAllowed turn then s.deliverFinal cfg id item turn text
      else s.clearPlaceholder.endMessage id item

/-- `_process` from the session to the placeholder. -/
def sendPlaceholder (id : Nat) (item : QueuedMessage) (bound : Option String)
    (sessionId : String) : RouteState :=
  let s := if some sessionId = bound then s else { s with activeSession := some sessionId }
  (s.say item.turnId .placeholder none).await id item
    (.placeholder ⟨item.turnId, sessionId, s.bindingVersion, 0, false⟩)

def startTurn (id : Nat) (item : QueuedMessage) (turn : TurnContext) (delivered : Bool)
    (ref lastText : Option String) : RouteState :=
  let turn := { turn with nonFinalSent := turn.nonFinalSent + 1 }
  let ref := if delivered then ref.filter (· ≠ "") else none
  let s := { s with
    placeholderRef := ref
    activePlaceholder := ref.or s.activePlaceholder
    current := some turn }
  match s.agentId with
  | none => s.finishTurn cfg id item turn
      { TurnOutcome.initial with failed := true, errorCode := some "CHANNEL_AGENT_NOT_BOUND" }
      lastText
  | some _ => s.await id item (.turnEvent turn .initial)

def markDeferred (id : Nat) (item : QueuedMessage) (turn : TurnContext) (outcome : TurnOutcome) :
    RouteState :=
  let outcome := { outcome with deferred := true }
  if turn.noticeSent then s.await id item (.turnEvent turn outcome)
  else
    let turn := { turn with noticeSent := true }
    let edit := if cfg.canEdit then s.placeholderRef else none
    (s.say turn.turnId .deferredNotice edit).await id item
      (.deferredNotice turn outcome edit.isSome)

def refuseQuestion (id : Nat) (item : QueuedMessage) (turn : TurnContext)
    (outcome : TurnOutcome) (requestId : Option String) : RouteState :=
  if requestId.isSome && s.agentId.isSome then s.await id item (.rejectInteraction turn outcome)
  else s.await id item (.turnEvent turn outcome)

def handleInteraction (id : Nat) (item : QueuedMessage) (turn : TurnContext)
    (outcome : TurnOutcome) (requestId : Option String) : RouteState :=
  if turn.noticeSent then s.refuseQuestion id item turn outcome requestId
  else
    let turn := { turn with noticeSent := true, nonFinalSent := turn.nonFinalSent + 1 }
    (s.say turn.turnId .interactionNotice none).await id item
      (.interactionNotice turn outcome requestId)

def channelTurnAborted : String := "CHANNEL_TURN_ABORTED"

/-- One round of `_consume_turn`. -/
def consume (id : Nat) (item : QueuedMessage) (turn : TurnContext) (outcome : TurnOutcome) :
    TurnSignal → RouteState
  | .stall => s.markDeferred cfg id item turn outcome
  | .ended => s.await id item (.joinPump turn (.outcome outcome))
  | .error code message =>
    let outcome := if code = channelTurnAborted then { outcome with aborted := true }
      else { outcome with failed := true, errorCode := some code, errorMessage := some message }
    s.await id item (.joinPump turn (.outcome outcome))
  | .terminal text =>
    s.await id item (.joinPump turn (.outcome { outcome with finalText := text }))
  | .errorEvent code message =>
    s.await id item (.joinPump turn
      (.outcome { outcome with failed := true, errorCode := code, errorMessage := message }))
  | .questionAsked requestId => s.handleInteraction id item turn outcome requestId
  | .other => s.await id item (.turnEvent turn outcome)

/-- An exception inside `_consume_turn`. -/
def leaveTurn (id : Nat) (item : QueuedMessage) (turn : TurnContext) (exit : TurnExit) :
    RouteState :=
  s.await id item (.joinPump turn exit)

def pumpJoined (id : Nat) (item : QueuedMessage) (turn : TurnContext) (lastText : Option String) :
    TurnExit → RouteState
  | .outcome outcome => s.finishTurn cfg id item turn outcome lastText
  | .raised => { s with current := none }.endMessage id item
  | .cancelled => { s with current := none }.cancelMessage id item

def processStep (id : Nat) (item : QueuedMessage) : ProcessAwait → Answer → Option RouteState
  | .notBound, .sent _ _ | .notBound, .raised => some (s.endMessage id item)
  | .notBound, .cancelled => some (s.cancelMessage id item)
  | .resolveSession bound, .session sessionId => some (s.sendPlaceholder id item bound sessionId)
  | .resolveSession _, .domainError code _ =>
    some ((s.say item.turnId (.failure (cfg.renderError code)) none).await id item .resolveError)
  | .resolveSession _, .raised => some (s.endMessage id item)
  | .resolveSession _, .cancelled => some (s.cancelMessage id item)
  | .resolveError, .sent _ _ | .resolveError, .raised => some (s.endMessage id item)
  | .resolveError, .cancelled => some (s.cancelMessage id item)
  | .placeholder turn, .placeholderSent delivered ref lastText =>
    some (s.startTurn cfg id item turn delivered ref lastText)
  | .placeholder _, .raised => some (s.endMessage id item)
  | .placeholder _, .cancelled => some (s.cancelMessage id item)
  | .turnEvent turn outcome, .signal signal => some (s.consume cfg id item turn outcome signal)
  | .turnEvent turn _, .cancelled => some (s.leaveTurn id item turn .cancelled)
  | .deferredNotice turn outcome edited, .sent _ _ =>
    let turn := if edited then turn else { turn with nonFinalSent := turn.nonFinalSent + 1 }
    some (s.await id item (.turnEvent turn outcome))
  | .deferredNotice turn _ _, .raised => some (s.leaveTurn id item turn .raised)
  | .deferredNotice turn _ _, .cancelled => some (s.leaveTurn id item turn .cancelled)
  | .interactionNotice turn outcome requestId, .sent _ _ =>
    some (s.refuseQuestion id item turn outcome requestId)
  | .interactionNotice turn _ _, .raised => some (s.leaveTurn id item turn .raised)
  | .interactionNotice turn _ _, .cancelled => some (s.leaveTurn id item turn .cancelled)
  | .rejectInteraction turn outcome, .done => some (s.await id item (.turnEvent turn outcome))
  | .rejectInteraction turn _, .cancelled => some (s.leaveTurn id item turn .cancelled)
  | .joinPump turn exit, .pumpDone lastText =>
    some (s.pumpJoined cfg id item turn lastText exit)
  | .delivery turn final ref rest, .sent delivered _ =>
    some (if delivered then s.deliver cfg id item turn final ref rest
      else s.clearPlaceholder.endMessage id item)
  | .delivery _ _ _ _, .raised => some (s.endMessage id item)
  | .delivery _ _ _ _, .cancelled => some (s.cancelMessage id item)
  | _, _ => none

def workerStep (id : Nat) (answer : Answer) : Option RouteState :=
  match s.tasks id with
  | none => none
  | some .created => some (s.takeNext id)
  | some (.processing item await) => s.processStep cfg id item await answer

def processing : Option Nat :=
  match s.worker.bind s.tasks with
  | some (.processing item _) => some item.turnId
  | _ => none

/-- `_drain_queue`, for the command that calls it. -/
def drainQueue (command : Nat) : RouteState :=
  { s with
    queue := []
    trace := s.trace ++ s.queue.map fun item => .removed item.turnId command }

/-- `_handle_stop` from where it looks at the running turn. -/
def stopCurrent (command : Nat) (found : Option Nat) : RouteState × CommandTask :=
  match s.current, s.agentId with
  | some turn, some _ =>
    ({ s with stoppedTurnId := some turn.turnId }.emit
      (.aborted command turn.turnId turn.sessionId), .stopAbort command found)
  | _, _ => (s.emit (.stopAck command found true), .reply)

def handleStop (command : Nat) : RouteState × CommandTask :=
  match s.queue.length with
  | 0 => s.stopCurrent command s.processing
  | left + 1 =>
    ((s.drainQueue command).say none .stopCancelled none,
      .stopNotices command s.processing left)

def handleNew (command : Nat) : RouteState × CommandTask :=
  match s.agentId with
  | none => (s.say none .notBound none, .reply)
  | some _ => (s, .newSession command)

/-- `_handle_new` once it has the session. -/
def bindNew (command : Nat) (sessionId : String) : RouteState :=
  let drained := s.queue.length
  ({ s with
    activeSession := some sessionId
    bindingVersion := s.bindingVersion + 1 }.drainQueue command).say none (.newAck drained) none

/-- How a command goes on when its await ends; with `none` for the command it is over. -/
def commandStep : CommandTask → Answer → Option (RouteState × Option CommandTask)
  | .stopNotices command found 0, .sent _ _ =>
    let result := s.stopCurrent command found
    some (result.1, some result.2)
  | .stopNotices command found (left + 1), .sent _ _ =>
    some (s.say none .stopCancelled none, some (.stopNotices command found left))
  | .stopAbort command found, .done =>
    some (s.emit (.stopAck command found false), some .reply)
  | .newSession command, .session sessionId => some (s.bindNew command sessionId, some .reply)
  | .newSession _, .domainError code _ =>
    some (s.say none (.failure (cfg.renderError code)) none, some .reply)
  | .reply, .sent _ _ => some (s, none)
  -- what `abort` raises is logged
  | .stopAbort _ _, .raised => none
  | _, .raised | _, .cancelled => some (s, none)
  | _, _ => none

/-- `handle_inbound` up to its first await. -/
def handleInbound : Inbound → RouteState
  | .plain text =>
    if cfg.queueDepth ≤ s.queue.length then
      { s.say none (.queueFull s.queue.length) none with commands := s.commands ++ [.reply] }
    else
      let item : QueuedMessage := ⟨s.clock, text⟩
      ({ s with queue := s.queue ++ [item] }.emit (.enqueued item.turnId)).ensureWorker
  | .stop =>
    let result := s.handleStop s.clock
    { result.1 with commands := s.commands ++ [result.2] }
  | .new =>
    let result := s.handleNew s.clock
    { result.1 with commands := s.commands ++ [result.2] }
  | .other => s

end RouteState

/-- A message arrives, the agent of the instance changes, or the await of a worker or a
command ends. -/
inductive RouteAction where
  | inbound (message : Inbound)
  | setAgent (agentId : Option String)
  | worker (id : Nat) (answer : Answer)
  | command (k : Nat) (answer : Answer)
  deriving DecidableEq, Repr

def routeStep (cfg : RouterConfig) (s : RouteState) : RouteAction → Option RouteState
  | .inbound message =>
    let s' := s.handleInbound cfg message
    some { s' with clock := s.clock + 1 }
  | .setAgent agentId => some { s with agentId := agentId }
  | .worker id answer => s.workerStep cfg id answer
  | .command k answer =>
    match s.commands[k]? with
    | none => none
    | some command =>
      (s.commandStep cfg command answer).map fun result =>
        { result.1 with
          commands := s.commands.take k ++ result.2.toList ++ s.commands.drop (k + 1) }

def RouteState.fresh (agentId activeSession : Option String) : RouteState where
  queue := []
  worker := none
  bindingVersion := 0
  current := none
  stoppedTurnId := none
  placeholderRef := none
  activeSession := activeSession
  activePlaceholder := none
  agentId := agentId
  tasks := fun _ => none
  nextTask := 0
  commands := []
  clock := 0
  trace := []

end WittyService
