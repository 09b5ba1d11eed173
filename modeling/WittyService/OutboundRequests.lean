import Mathlib.Tactic.SplitIfs
import WittyService.QqAdapter

/-! The outbound messages of the WeCom adapter. An answer of the platform is matched with its
request by the request id, through a table of futures. -/
namespace WittyService

structure DeliveryResult where
  certainty : Certainty
  platformMessageRef : Option String
  errorCode : Option String
  deriving DecidableEq, Repr

namespace DeliveryResult

def deliveredWith (ref : String) : DeliveryResult := ⟨.delivered, some ref, none⟩
def rejectedWith (errorCode : String) : DeliveryResult := ⟨.rejected, none, some errorCode⟩
def uncertainWith (errorCode : String) : DeliveryResult := ⟨.uncertain, none, some errorCode⟩

end DeliveryResult

def CHANNEL_CREDENTIAL_INVALID : String := "CHANNEL_CREDENTIAL_INVALID"
def CHANNEL_DELIVERY_UNCERTAIN : String := "CHANNEL_DELIVERY_UNCERTAIN"

def CREDENTIAL_ERROR_CODES : List String := ["-1", "40001", "40014", "41001", "42001"]
def MAX_MISSED_HEARTBEATS : Nat := 2

/-- The `errcode` of a frame: missing or null, an integer or what equals one, a text, or another
value with its text. -/
inductive Errcode where
  | absent
  | int (value : Int)
  | text (value : String)
  | other (shown : String)
  deriving DecidableEq, Repr

namespace Errcode

def accepted : Errcode → Bool
  | absent => true
  | int value => value = 0
  | text value => value = "0"
  | other _ => false

def code : Errcode → String
  | absent => "None"
  | int value => toString value
  | text value => value
  | other shown => shown

/-- The platform definitely did not take the message. -/
def refuses (errcode : Errcode) : Prop :=
  errcode.accepted = false ∧ errcode.code ∈ CREDENTIAL_ERROR_CODES

end Errcode

/-- A frame of the platform, by what is read of it: an answer to a request, the event that a
newer connection took this one over, or another one. -/
inductive WecomFrame where
  | ack (reqId : String) (errcode : Errcode) (ref : String) (message : Option String)
  | takenOver
  | other
  deriving DecidableEq, Repr

/-- The future of a request in `_pending`. -/
inductive AckFuture where
  | unsettled
  | result (ref : String)
  | protocolError (code message : String)
  | connectionError
  | cancelled
  deriving DecidableEq, Repr

/-- How a call of `send_text` ends: it returns, it is cancelled by its caller, or a
`CancelledError` comes out of it that its caller has not asked for. -/
inductive SendEnd where
  | returned (result : DeliveryResult)
  | cancelledByCaller
  | cancelled
  deriving DecidableEq, Repr

inductive WecomPhase where
  | writing
  | waiting
  | ended (sendEnd : SendEnd)
  deriving DecidableEq, Repr

/-- A call of `send_text` with every `errcode` that has come in answer to its request.
`inboundTask` says that it is made in one of the tasks in `_inflight_emits`. -/
structure WecomSend where
  reqId : String
  inboundTask : Bool
  pending : Bool
  future : AckFuture
  phase : WecomPhase
  answers : List Errcode
  deriving DecidableEq, Repr

namespace WecomSend

variable (send : WecomSend)

def isEnded : Bool :=
  match send.phase with
  | .ended _ => true
  | .writing | .waiting => false

def finish (sendEnd : SendEnd) : WecomSend :=
  { send with pending := false, phase := .ended sendEnd }

def settle (future : AckFuture) : WecomSend :=
  if send.pending ∧ send.future = .unsettled then { send with future := future } else send

def settleAck (errcode : Errcode) (ref : String) (message : Option String) : WecomSend :=
  let answered := { send with answers := send.answers ++ [errcode] }
  if errcode.accepted then answered.settle (.result ref)
  else answered.settle (.protocolError errcode.code (message.getD "wecom error"))

/-- What `await asyncio.wait_for(future, ...)` and the rest of `send_text` make of the future. -/
def outcome : AckFuture → Option SendEnd
  | .unsettled => none
  | .result ref => some (.returned (.deliveredWith ref))
  | .protocolError code _ =>
    if code ∈ CREDENTIAL_ERROR_CODES then
      some (.returned (.rejectedWith CHANNEL_CREDENTIAL_INVALID))
    else some (.returned (.uncertainWith ("WECOM_" ++ code)))
  | .connectionError => some (.returned (.uncertainWith CHANNEL_DELIVERY_UNCERTAIN))
  | .cancelled => some .cancelled

end WecomSend

/-- The adapter with every call of `send_text` so far. -/
structure WecomAdapter where
  transport : Bool
  receiving : Bool
  connected : Bool
  missedHeartbeats : Nat
  sends : List WecomSend
  deriving DecidableEq, Repr

/-- `disconnect` is the part of `_disconnect` before its awaits and `disconnected` the part after
them. -/
inductive WecomAction where
  | send (reqId : String) (inboundTask : Bool)
  | written (k : Nat) (ok : Bool)
  | resumes (k : Nat)
  | timesOut (k : Nat)
  | callerCancels (k : Nat)
  | frame (frame : WecomFrame)
  | receiverEnds
  | heartbeatAnswered
  | heartbeatMissed
  | teardown
  | disconnect
  | disconnected
  | connect
  | subscribed (ok : Bool)
  deriving DecidableEq, Repr

namespace WecomAdapter

variable (s : WecomAdapter)

def fresh : WecomAdapter := ⟨false, false, false, 0, []⟩

def setSend (k : Nat) (send : WecomSend) : WecomAdapter := { s with sends := s.sends.set k send }

def mapSends (f : WecomSend → WecomSend) : WecomAdapter := { s with sends := s.sends.map f }

def inPhase (k : Nat) (phase : WecomPhase) : Option WecomSend :=
  s.sends[k]?.filter fun send => send.phase = phase

/-- `send_text` up to its first await. Without a connection nothing is sent. -/
def startSend (reqId : String) (inboundTask : Bool) : WecomAdapter :=
  let phase : WecomPhase :=
    if s.transport then .writing
    else .ended (.returned (.uncertainWith CHANNEL_DELIVERY_UNCERTAIN))
  { s with sends := s.sends ++ [⟨reqId, inboundTask, s.transport, .unsettled, phase, []⟩] }

def dispatchFrame : WecomFrame → WecomAdapter
  | .ack reqId errcode ref message =>
    s.mapSends fun send =>
      if send.reqId = reqId then send.settleAck errcode ref message else send
  | .takenOver =>
    { s.mapSends fun send => { send.settle .connectionError with pending := false } with
      connected := false }
  | .other => s

/-- The end of `_disconnect`: the tasks of incoming messages are cancelled, then the futures. -/
def cancelAll : WecomAdapter :=
  { s.mapSends fun send =>
      if send.inboundTask ∧ send.isEnded = false then send.finish .cancelled
      else { send.settle .cancelled with pending := false } with
    transport := false }

end WecomAdapter

open WecomAdapter in
def wecomStep (s : WecomAdapter) : WecomAction → Option WecomAdapter
  | .send reqId inboundTask =>
    if s.sends.any fun send => send.reqId = reqId then none
    else some (s.startSend reqId inboundTask)
  | .written k ok =>
    (s.inPhase k .writing).map fun send =>
      s.setSend k <|
        if ok then { send with phase := .waiting }
        else send.finish (.returned (.uncertainWith CHANNEL_DELIVERY_UNCERTAIN))
  | .resumes k =>
    match s.inPhase k .waiting with
    | some send => (WecomSend.outcome send.future).map fun sendEnd =>
      s.setSend k (send.finish sendEnd)
    | none => none
  | .timesOut k =>
    (s.inPhase k .waiting).map fun send =>
      s.setSend k (send.finish (.returned (.uncertainWith CHANNEL_DELIVERY_UNCERTAIN)))
  | .callerCancels k =>
    match s.sends[k]? with
    | some send =>
      if send.isEnded then none else some (s.setSend k (send.finish .cancelledByCaller))
    | none => none
  | .frame frame => if s.receiving then some (s.dispatchFrame frame) else none
  | .receiverEnds => some { s with receiving := false, connected := false }
  | .heartbeatAnswered => some { s with missedHeartbeats := 0 }
  | .heartbeatMissed =>
    let missed := s.missedHeartbeats + 1
    if MAX_MISSED_HEARTBEATS ≤ missed then
      some { s with missedHeartbeats := missed, connected := false, transport := false }
    else some { s with missedHeartbeats := missed }
  | .teardown => some { s with transport := false }
  | .disconnect => some { s with connected := false, receiving := false }
  | .disconnected => some s.cancelAll
  | .connect => if s.transport then none else some { s with transport := true, receiving := true }
  | .subscribed ok =>
    if ok then some { s with connected := true, missedHeartbeats := 0 }
    else some { s with receiving := false, transport := false }

/-! The outbound messages of the QQ adapter, as requests of its REST client. -/

/-- The body of a response: an object, of which `id` or `access_token` is read where it is a
nonempty text, another JSON value, or no JSON. -/
inductive ResponseBody where
  | object (value : Option String)
  | otherJson
  | notJson
  deriving DecidableEq, Repr

/-- How a request over HTTP ends: with a response, with an `httpx.HTTPError` or with another
exception, such as that the client is closed. -/
inductive HttpAnswer where
  | response (status : Nat) (body : ResponseBody)
  | httpError
  | otherError
  deriving DecidableEq, Repr

namespace HttpAnswer

def accepts : HttpAnswer → Prop
  | response status (.object _) => status = 200
  | _ => False

def refuses : HttpAnswer → Prop
  | response status _ => status ∈ [401, 403, 404, 429]
  | _ => False

def unauthorized : HttpAnswer → Bool
  | response status _ => status = 401
  | _ => false

end HttpAnswer

/-- `translate_http_status`, by the result that the adapter makes of it. -/
def translateHttpStatus (status : Nat) : DeliveryResult :=
  if status = 401 then .rejectedWith CHANNEL_CREDENTIAL_INVALID
  else if status ∈ [403, 404, 429] then .rejectedWith ("QQ_" ++ toString status)
  else if 500 ≤ status then .uncertainWith "QQ_SERVER_ERROR"
  else .uncertainWith ("QQ_" ++ toString status)

def readAnswer : HttpAnswer → Except DeliveryResult (Option String)
  | .response status body =>
    if status ≠ 200 then .error (translateHttpStatus status)
    else
      match body with
      | .object value => .ok value
      | .otherJson | .notJson => .error (.uncertainWith CHANNEL_DELIVERY_UNCERTAIN)
  | .httpError | .otherError => .error (.uncertainWith CHANNEL_DELIVERY_UNCERTAIN)

/-- Where a call of `send_text` waits: for a token, from the cache, from another call that asks
for one or from the platform, or for the answer to its message; for the second time after an
answer 401. -/
inductive QqPhase where
  | authorizing (retried : Bool)
  | posting (retried : Bool)
  | ended (sendEnd : SendEnd)
  deriving DecidableEq, Repr

/-- A call of `send_text` with every answer to its message so far. -/
structure QqRequest where
  msgId : Option String
  inboundTask : Bool
  phase : QqPhase
  answers : List HttpAnswer
  deriving DecidableEq, Repr

namespace QqRequest

variable (request : QqRequest)

def isEnded : Bool :=
  match request.phase with
  | .ended _ => true
  | .authorizing _ | .posting _ => false

def finish (sendEnd : SendEnd) : QqRequest := { request with phase := .ended sendEnd }

def tokenAnswered (retried : Bool) (answer : HttpAnswer) : QqRequest :=
  match readAnswer answer with
  | .ok (some _) => { request with phase := .posting retried }
  | .ok none => request.finish (.returned (.rejectedWith CHANNEL_CREDENTIAL_INVALID))
  | .error result => request.finish (.returned result)

def answered (retried : Bool) (answer : HttpAnswer) : QqRequest :=
  let heard := { request with answers := request.answers ++ [answer] }
  if answer.unauthorized && !retried then
    { heard with phase := .authorizing true }
  else
    match readAnswer answer with
    | .ok ref => heard.finish (.returned (.deliveredWith (ref.getD (request.msgId.getD ""))))
    | .error result => heard.finish (.returned result)

end QqRequest

structure QqClient where
  transport : Bool
  requests : List QqRequest
  deriving DecidableEq, Repr

inductive QqRequestAction where
  | send (msgId : Option String) (inboundTask : Bool)
  | hasToken (k : Nat)
  | tokenAnswered (k : Nat) (answer : HttpAnswer)
  | answered (k : Nat) (answer : HttpAnswer)
  | callerCancels (k : Nat)
  | connected
  | disconnect
  deriving DecidableEq, Repr

namespace QqClient

variable (s : QqClient)

def fresh : QqClient := ⟨false, []⟩

def setRequest (k : Nat) (request : QqRequest) : QqClient :=
  { s with requests := s.requests.set k request }

/-- `send_text` up to its first await. Without a transport nothing is sent. -/
def startSend (msgId : Option String) (inboundTask : Bool) : QqClient :=
  let phase : QqPhase :=
    if s.transport then .authorizing false
    else .ended (.returned (.uncertainWith CHANNEL_DELIVERY_UNCERTAIN))
  { s with requests := s.requests ++ [⟨msgId, inboundTask, phase, []⟩] }

/-- `_disconnect`: the tasks of incoming messages are cancelled, and requests that are under way
find their client closed. -/
def cancelInbound : QqClient where
  transport := false
  requests := s.requests.map fun request =>
    if request.inboundTask ∧ request.isEnded = false then request.finish .cancelled else request

end QqClient

open QqClient in
def qqRequestStep (s : QqClient) : QqRequestAction → Option QqClient
  | .send msgId inboundTask => some (s.startSend msgId inboundTask)
  | .hasToken k =>
    match s.requests[k]? with
    | some request =>
      match request.phase with
      | .authorizing retried => some (s.setRequest k { request with phase := .posting retried })
      | .posting _ | .ended _ => none
    | none => none
  | .tokenAnswered k answer =>
    match s.requests[k]? with
    | some request =>
      match request.phase with
      | .authorizing retried => some (s.setRequest k (request.tokenAnswered retried answer))
      | .posting _ | .ended _ => none
    | none => none
  | .answered k answer =>
    match s.requests[k]? with
    | some request =>
      match request.phase with
      | .posting retried => some (s.setRequest k (request.answered retried answer))
      | .authorizing _ | .ended _ => none
    | none => none
  | .callerCancels k =>
    match s.requests[k]? with
    | some request =>
      if request.isEnded then none else some (s.setRequest k (request.finish .cancelledByCaller))
    | none => none
  | .connected => some { s with transport := true }
  | .disconnect => some s.cancelInbound

end WittyService
