import WittyService.OpenClawRuntime
import WittyService.ReadingLoop

/-! `OpenClawGatewayClient.stream_turn`: the events of the gateway a turn passes on. It waits for
messages that come after the end of the lifecycle, and stops when nothing comes for too long. -/
namespace WittyService

open ReadingLoop

/-- What `_recv_json` comes to. -/
inductive GatewayRecv where
  | frame (message : Dict)
  | timeout
  | raises
  deriving Repr

/-- A round of the loop: the clock at its begin, what it receives, and the clock at its end. -/
structure GatewayRound where
  before : Int := 0
  recv : GatewayRecv
  after : Int := 0
  deriving Repr

def GatewayRound.timesOut (round : GatewayRound) : Bool :=
  match round.recv with
  | .timeout => true
  | _ => false

/-- How the connection and the calls up to `sessions.send` end: with the answer of the latter, with
the error that asks for pairing, or with another one. -/
inductive GatewayOpening where
  | sent (payload : Dict)
  | pairingRequired
  | raises

structure GatewayTurn where
  opening : GatewayOpening
  pairingApproved : Bool := false
  reopening : GatewayOpening := .raises
  rounds : List GatewayRound

namespace OpenClawClient

def pickNested (payload : Dict) (key : String) (parents : List String) : Option String :=
  ((Dict.get payload key).bind Json.nonemptyStr).or
    (parents.findSome? fun parent => (dictOf (Dict.get payload parent)).bind fun nested =>
      (Dict.get nested key).bind Json.nonemptyStr)

def extractSessionKey (payload : Dict) : Option String :=
  pickNested payload "sessionKey" ["message", "data", "session"]

def extractRunId (payload : Dict) : Option String := pickNested payload "runId" ["data"]

def extractRuntimeSessionId (payload : Dict) : Option String :=
  pickNested payload "sessionId" ["data", "session"]

/-- `_normalize_session_key`, as a list of characters. -/
def normalizeSessionKey (value : String) : List Char :=
  if "agent:main:".toList <+: value.toList then value.toList.drop "agent:main:".toList.length
  else value.toList

def isSameSessionKey (expected actual : String) : Bool :=
  actual = expected || normalizeSessionKey actual = expected.toList

def stopsWithoutText (message : Dict) : Bool :=
  textOf (Dict.get message "stopReason") = some "stop" &&
    !(blocksOfType "text" ((listOf (Dict.get message "content")).getD [])).any fun item =>
      ((Dict.get item "text").bind Json.nonemptyStr).isSome

def accept (sessionKey : String) (runId : Option String) (message : Dict) : Option GatewayEvent :=
  if textOf (Dict.get message "type") ≠ some "event" then none
  else
    match textOf (Dict.get message "event") with
    | none => none
    | some eventName =>
      let payload := (dictOf (Dict.get message "payload")).getD []
      if eventName ∉ ["agent", "session.message", "sessions.changed"] then none
      -- what names no session is taken for this one
      else if (extractSessionKey payload).any fun key => !isSameSessionKey sessionKey key then none
      else if (eventName = "agent" ∨ eventName = "chat") ∧
          runId.any fun runId => (extractRunId payload).any (· ≠ runId) then none
      else if eventName = "session.message" ∧
          (dictOf (Dict.get payload "message")).any stopsWithoutText then none
      else if eventName = "sessions.changed" ∧ (extractRuntimeSessionId payload).isNone then none
      else some ⟨eventName, payload⟩

def lifecyclePhase (event : GatewayEvent) : Option String :=
  if event.type = "agent" ∧ textOf (Dict.get event.payload "stream") = some "lifecycle" then
    (dictOf (Dict.get event.payload "data")).bind fun data => textOf (Dict.get data "phase")
  else none

section
variable (sessionKey : String) (runId : Option String) (drainTimeout : Int)

/-- What the loop keeps: the end of the lifecycle it holds back and the deadline for late events. -/
structure CollectState where
  pendingLifecycleEnd : Option GatewayEvent := none
  lifecycleEndDeadline : Option Int := none

def onEvent (s : CollectState) (after : Int) (event : GatewayEvent) :
    Outcome CollectState GatewayEvent :=
  match lifecyclePhase event with
  | some "end" =>
    -- held back, as messages can still come
    .goes { pendingLifecycleEnd := some event, lifecycleEndDeadline := some (after + drainTimeout) }
      none
  | some "error" => .stops (some event)
  | _ =>
    -- each late event puts the deadline off
    if s.pendingLifecycleEnd.isSome then
      .goes { s with lifecycleEndDeadline := some (after + drainTimeout) } (some event)
    else .goes s (some event)

/-- The body of the loop of `_collect_stream_events`. -/
def onRound (s : CollectState) (round : GatewayRound) : Outcome CollectState GatewayEvent :=
  if s.lifecycleEndDeadline.any fun deadline => deadline - round.before ≤ 0 then
    .stops s.pendingLifecycleEnd
  else
    match round.recv with
    | .timeout => .stops s.pendingLifecycleEnd
    | .raises => .raises none
    | .frame message =>
      match accept sessionKey runId message with
      | none => .goes s none
      | some event => onEvent drainTimeout s round.after event

end

/-- The id of the run of a turn whose message was sent, after a pairing and a second try where that
was asked for. -/
def openTurn (turn : GatewayTurn) : Option (Option String) :=
  match turn.opening, turn.pairingApproved, turn.reopening with
  | .sent payload, _, _ => some ((Dict.get payload "runId").bind Json.nonemptyStr)
  | .pairingRequired, true, .sent payload => some ((Dict.get payload "runId").bind Json.nonemptyStr)
  | _, _, _ => none

/-- `stream_turn`: the events it passes on and whether it raises, `none` as long as it reads. -/
def streamTurn (sessionKey : String) (drainTimeout : Int) (turn : GatewayTurn) :
    Option (List GatewayEvent × Bool) :=
  match openTurn turn with
  | none => some ([], true)
  | some runId =>
    let events := stream (onRound sessionKey runId drainTimeout) {} turn.rounds
    match events.2 with
    | .stopped => some (events.1, false)
    | .raised => some (events.1, true)
    | .exhausted => none

end OpenClawClient

namespace OpenClawRuntime

def isFinal (message : Dict) : Bool :=
  textOf (Dict.get message "role") = some "assistant" &&
    textOf (Dict.get message "stopReason") = some "stop" && messageText message ≠ ""

def endsLifecycle (data : Dict) : Bool :=
  (pickString data ["phase"]).any fun phase => phase.toLower = "end" ∨ phase.toLower = "error"

def endsTurn (raw : GatewayEvent) : Bool :=
  if raw.type = "agent" then
    textOf (Dict.get raw.payload "stream") = some "lifecycle" &&
      (dictOf (Dict.get raw.payload "data")).any endsLifecycle
  else raw.type = "session.message" && (dictOf (Dict.get raw.payload "message")).any isFinal

end OpenClawRuntime

namespace OpenClawClient

section
variable (sessionKey : String)

def isQuiet (runId : Option String) (round : GatewayRound) : Bool :=
  match round.recv with
  | .frame message =>
    (accept sessionKey runId message).all fun event => !OpenClawRuntime.endsTurn event
  | _ => false

def goesIdle (turn : GatewayTurn) : Bool :=
  (openTurn turn).any fun runId =>
    (turn.rounds.find? fun round => !isQuiet sessionKey runId round).any GatewayRound.timesOut

end

end OpenClawClient

end WittyService
