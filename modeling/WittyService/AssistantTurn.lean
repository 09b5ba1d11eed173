import WittyService.MessageEvents

/-! `consume_ws`, the background consumer of one assistant turn: what it does with an event
of the WebSocket, as its new variables and the calls it makes on the messages of the
repository. A clock reading is an integer in microseconds, and no two readings are assumed
to be in order. -/
namespace WittyService

inductive MessageStatus where
  | generating
  | completed
  | error
  | interrupted
  deriving DecidableEq, Repr

/-- A row of `messages`. A value of `content` that is no string is kept as it was bound. -/
structure MessageRow where
  status : MessageStatus
  content : Json
  lastStreamAt : Option Int

def Json.bindable : Json → Bool
  | .arr _ | .obj _ => false
  | _ => true

inductive MessageCall where
  | createMessage
  | createMessageEventsBulk (events : List PendingEvent)
  | updateMessageContent (content : Json)
  | updateMessageStreamAt (now : Int)
  | updateMessageStatus (status : MessageStatus)
  | finalizeMessage (status : MessageStatus) (content : Json) (lastStreamAt : Int)
  | compactMessageDeltaEvents

/-- What a call does to the row of the message it names. A call that cannot bind its content
raises and leaves the row as it is. -/
def MessageCall.apply (row : Option MessageRow) : MessageCall → Option MessageRow
  | .createMessage => some ⟨.generating, .str "", none⟩
  | .updateMessageContent content =>
    row.map fun r => if content.bindable then { r with content := content } else r
  | .updateMessageStreamAt now => row.map fun r => { r with lastStreamAt := some now }
  | .updateMessageStatus status => row.map fun r =>
    if status = .completed ∧ r.status ≠ .generating then r else { r with status := status }
  | .finalizeMessage status content now =>
    row.map fun r => if content.bindable then ⟨status, content, some now⟩ else r
  | .createMessageEventsBulk _ | .compactMessageDeltaEvents => row

def applyCalls (row : Option MessageRow) (calls : List MessageCall) : Option MessageRow :=
  calls.foldl MessageCall.apply row

def handedBy (calls : List MessageCall) : List PendingEvent :=
  calls.flatMap fun
    | .createMessageEventsBulk events => events
    | _ => []

/-- An event as `recv` yields it. -/
structure WsEvent where
  eventType : EventType
  payload : Json

namespace EventType

/-- `{"client.error", "stream.error"}`. -/
def isError : EventType → Bool
  | .clientError | .streamError => true
  | _ => false

/-- `_should_filter_session_event`. -/
def isSessionEvent : EventType → Bool
  | .sessionStateChanged | .sessionHeartbeat | .sessionRuntimeChanged => true
  | _ => false

/-- `TRANSIENT_EVENT_TYPES`. -/
def isTransient : EventType → Bool
  | .toolCallDelta => true
  | _ => false

/-- `ARTIFACT_EVENT_TYPES`. -/
def isArtifact : EventType → Bool
  | .artifactStarted | .artifactDelta | .artifactCompleted => true
  | _ => false

/-- `{"message.completed", "turn.completed"}`. -/
def isTerminal : EventType → Bool
  | .messageCompleted | .turnCompleted => true
  | _ => false

end EventType

/-- The workspace of the agent. `resolve` is the path relative to the workspace, `none` for
a path outside; both go through the file system or another package. -/
structure Workspace where
  resolve : String → Option String
  isSensitiveFile : String → Bool

def normalizeArtifactEvent (ws : Workspace) (event : WsEvent) : Option WsEvent :=
  if !event.eventType.isArtifact then some event
  else
    match event.payload with
    | .obj payload =>
      match (Dict.get payload "relative_path").bind Json.nonemptyStr with
      | none => none
      | some rawPath =>
        match ws.resolve rawPath with
        | none => none
        | some normalized =>
          if normalized = "" ∨ normalized = "." then none
          else
            let newPayload := Dict.set (Dict.set payload "id" (.str normalized))
              "relative_path" (.str normalized)
            some ⟨event.eventType, .obj (if ws.isSensitiveFile normalized then
              Dict.pop newPayload "content" else newPayload)⟩
    | _ => none

structure Consumer where
  seqNo : Nat
  assistantText : Json
  assistantMsgId : Bool
  pendingEvents : List PendingEvent
  lastFlushTime : Int
  tokensSinceCheckpoint : Nat
  lastCheckpointTime : Int

def Consumer.new (lastCheckpointTime lastFlushTime : Int) : Consumer :=
  ⟨0, .str "", false, [], lastFlushTime, 0, lastCheckpointTime⟩

def PERSIST_BATCH_MAX_EVENTS : Nat := 64
def PERSIST_BATCH_INTERVAL : Int := 250000
def TOKENS_PER_CHECKPOINT : Nat := 100
def CHECKPOINT_INTERVAL : Int := 2000000

/-- An event with what the code reads beside it while it takes it up. `raises` says that one
of the calls made before the event is buffered raises: a session synchronisation, the path
resolution or `create_message`. -/
structure Arrival where
  event : WsEvent
  raises : Bool
  flushClock : Int
  flushedAt : Int
  clock : Int
  streamAt : Int

inductive Next where
  | goOn
  | stop
  | fail (status : MessageStatus)

structure Reaction where
  consumer : Consumer
  calls : List MessageCall
  next : Next

namespace Consumer

def flushEvents (c : Consumer) (now : Int) : Consumer × List MessageCall :=
  if c.pendingEvents.isEmpty || !c.assistantMsgId then (c, [])
  else ({ c with pendingEvents := [], lastFlushTime := now },
    [.createMessageEventsBulk c.pendingEvents])

def ensureMessage (c : Consumer) : Consumer × List MessageCall :=
  if c.assistantMsgId then (c, []) else ({ c with assistantMsgId := true }, [.createMessage])

def buffer (c : Consumer) (e : StreamEvent) : Consumer :=
  { c with
    seqNo := c.seqNo + 1
    pendingEvents := c.pendingEvents ++ [⟨c.seqNo + 1, c.seqNo + 1, e⟩] }

def bufferEvent (c : Consumer) (e : StreamEvent) (a : Arrival) : Consumer × List MessageCall :=
  if e.eventType.isTransient then (c, [])
  else
    let c := c.buffer e
    if c.pendingEvents.length ≥ PERSIST_BATCH_MAX_EVENTS ∨
        a.flushClock - c.lastFlushTime ≥ PERSIST_BATCH_INTERVAL then
      c.flushEvents a.flushedAt
    else (c, [])

/-- `assistant_text` after the event; `none` is the `TypeError` of a delta that is no
string. -/
def accumulate (c : Consumer) (e : StreamEvent) : Option Consumer :=
  match e.eventType with
  | .messageDelta =>
    match c.assistantText, e.payload.getD "delta" (.str "") with
    | .str text, .str delta => some { c with
        assistantText := .str (text ++ delta)
        tokensSinceCheckpoint := c.tokensSinceCheckpoint + delta.length / 4 }
    | _, _ => none
  | .messageCompleted =>
    let completedText := e.payload.getD "text" (.str "")
    some (if completedText.truthy then { c with assistantText := completedText } else c)
  | _ => some c

def contentCalls (c : Consumer) (a : Arrival) : List MessageCall :=
  if !c.assistantText.truthy then []
  else if c.assistantText.bindable then
    [.updateMessageContent c.assistantText, .updateMessageStreamAt a.streamAt]
  else [.updateMessageContent c.assistantText]

def checkpoint (c : Consumer) (e : StreamEvent) (a : Arrival) : Consumer × List MessageCall :=
  if c.assistantMsgId ∧ (c.tokensSinceCheckpoint ≥ TOKENS_PER_CHECKPOINT ∨
      a.clock - c.lastCheckpointTime ≥ CHECKPOINT_INTERVAL ∨ e.eventType.isTerminal) then
    ({ c with tokensSinceCheckpoint := 0, lastCheckpointTime := a.clock }, c.contentCalls a)
  else (c, [])

def takeUp (c : Consumer) (e : StreamEvent) (a : Arrival) : Reaction :=
  let created := c.ensureMessage
  let buffered := created.1.bufferEvent e a
  match buffered.1.accumulate e with
  | none => ⟨buffered.1, created.2 ++ buffered.2, .fail .interrupted⟩
  | some c =>
    let checked := c.checkpoint e a
    let calls := created.2 ++ buffered.2 ++ checked.2
    if e.eventType.isTerminal then
      let flushed := checked.1.flushEvents a.flushedAt
      ⟨flushed.1, calls ++ flushed.2 ++
        [.updateMessageStatus .completed, .compactMessageDeltaEvents], .stop⟩
    else ⟨checked.1, calls, .goOn⟩

/-- The error branch. A payload that is no dict has no `get`. -/
def takeUpError (c : Consumer) (event : WsEvent) : Reaction :=
  match event.payload with
  | .obj payload =>
    let created := c.ensureMessage
    ⟨created.1.buffer ⟨event.eventType, payload⟩, created.2, .fail .error⟩
  | _ => ⟨c, [], .fail .interrupted⟩

def react (ws : Workspace) (c : Consumer) (a : Arrival) : Reaction :=
  if a.raises then ⟨c, [], .fail .interrupted⟩
  else if a.event.eventType.isError then c.takeUpError a.event
  else if a.event.eventType.isSessionEvent then ⟨c, [], .goOn⟩
  else
    match normalizeArtifactEvent ws a.event with
    | none => ⟨c, [], .goOn⟩
    | some event => c.takeUp ⟨event.eventType, event.payload.asDict⟩ a

def finalizeAbnormalTurn (c : Consumer) (status : MessageStatus) (now : Int) :
    Consumer × List MessageCall :=
  let flushed := c.flushEvents now
  (flushed.1, flushed.2 ++
    if c.assistantMsgId then [.finalizeMessage status c.assistantText now] else [])

/-- The loop body and, where it leaves the loop, the blocks after it: the consumer, its
calls, and whether it is over. `endedAt` is the clock of the finalisation. -/
def receive (ws : Workspace) (c : Consumer) (a : Arrival) (endedAt : Int) :
    Consumer × List MessageCall × Bool :=
  let r := c.react ws a
  match r.next with
  | .goOn => (r.consumer, r.calls, false)
  | .stop => (r.consumer, r.calls, true)
  | .fail status =>
    let final := r.consumer.finalizeAbnormalTurn status endedAt
    (final.1, r.calls ++ final.2, true)

end Consumer

/-- The event as it goes into the timeline of the message: none for an event that only
synchronises the session, for an artifact that is dropped, and for a transient event. -/
def WsEvent.messageEvent (ws : Workspace) (event : WsEvent) : Option StreamEvent :=
  if event.eventType.isError then some ⟨event.eventType, event.payload.asDict⟩
  else if event.eventType.isSessionEvent then none
  else
    match normalizeArtifactEvent ws event with
    | none => none
    | some event =>
      if event.eventType.isTransient then none
      else some ⟨event.eventType, event.payload.asDict⟩

/-! What the helpers of the loop do to the buffer, the text and the row. -/

@[simp] theorem applyCalls_nil (row : Option MessageRow) : applyCalls row [] = row := rfl

theorem applyCalls_append (row : Option MessageRow) (calls later : List MessageCall) :
    applyCalls row (calls ++ later) = applyCalls (applyCalls row calls) later :=
  List.foldl_append

@[simp] theorem handedBy_nil : handedBy [] = [] := rfl

theorem handedBy_append (calls later : List MessageCall) :
    handedBy (calls ++ later) = handedBy calls ++ handedBy later :=
  List.flatMap_append

namespace Consumer

variable (c : Consumer)

variable (now : Int)

theorem flushEvents_ledger :
    handedBy (c.flushEvents now).2 ++ (c.flushEvents now).1.pendingEvents = c.pendingEvents := by
  unfold flushEvents
  split_ifs
  · rfl
  · simp [handedBy]

theorem flushEvents_row (row : Option MessageRow) :
    applyCalls row (c.flushEvents now).2 = row := by
  unfold flushEvents
  split_ifs <;> rfl

theorem flushEvents_text : (c.flushEvents now).1.assistantText = c.assistantText := by
  unfold flushEvents
  split_ifs <;> rfl

theorem flushEvents_id : (c.flushEvents now).1.assistantMsgId = c.assistantMsgId := by
  unfold flushEvents
  split_ifs <;> rfl

theorem flushEvents_empties (h : c.assistantMsgId = true) :
    (c.flushEvents now).1.pendingEvents = [] := by
  unfold flushEvents
  rw [h]
  cases hp : c.pendingEvents <;> simp [hp]

@[simp] theorem ensureMessage_pending :
    c.ensureMessage.1.pendingEvents = c.pendingEvents := by
  unfold ensureMessage
  split_ifs <;> rfl

@[simp] theorem ensureMessage_text : c.ensureMessage.1.assistantText = c.assistantText := by
  unfold ensureMessage
  split_ifs <;> rfl

@[simp] theorem ensureMessage_id : c.ensureMessage.1.assistantMsgId = true := by
  unfold ensureMessage
  split_ifs with h
  · exact h
  · rfl

@[simp] theorem ensureMessage_handed : handedBy c.ensureMessage.2 = [] := by
  unfold ensureMessage
  split_ifs <;> rfl

theorem ensureMessage_row {row : Option MessageRow} (h : c.assistantMsgId = row.isSome) :
    ∃ r, applyCalls row c.ensureMessage.2 = some r ∧
      (row = some r ∨ r = ⟨.generating, .str "", none⟩) := by
  cases row with
  | none => exact ⟨_, by simp [ensureMessage, h, applyCalls, MessageCall.apply], .inr rfl⟩
  | some r => exact ⟨r, by simp [ensureMessage, h], .inl rfl⟩

section

variable (e : StreamEvent) (a : Arrival)

theorem bufferEvent_ledger :
    (handedBy (c.bufferEvent e a).2 ++ (c.bufferEvent e a).1.pendingEvents).map
        PendingEvent.event =
      c.pendingEvents.map PendingEvent.event ++
        (if e.eventType.isTransient then [] else [e]) := by
  unfold bufferEvent
  dsimp only
  split_ifs
  · simp
  · rw [flushEvents_ledger]
    simp [buffer]
  · simp [buffer]

theorem bufferEvent_row (row : Option MessageRow) :
    applyCalls row (c.bufferEvent e a).2 = row := by
  unfold bufferEvent
  dsimp only
  split_ifs
  · rfl
  · exact flushEvents_row _ _ _
  · rfl

theorem bufferEvent_text :
    (c.bufferEvent e a).1.assistantText = c.assistantText := by
  unfold bufferEvent
  dsimp only
  split_ifs
  · rfl
  · exact flushEvents_text _ _
  · rfl

theorem bufferEvent_id :
    (c.bufferEvent e a).1.assistantMsgId = c.assistantMsgId := by
  unfold bufferEvent
  dsimp only
  split_ifs
  · rfl
  · exact flushEvents_id _ _
  · rfl

end

theorem accumulate_keeps {c c' : Consumer} {e : StreamEvent} (h : c.accumulate e = some c') :
    c'.pendingEvents = c.pendingEvents ∧ c'.assistantMsgId = c.assistantMsgId := by
  unfold accumulate at h
  split at h
  · split at h
    · cases h
      exact ⟨rfl, rfl⟩
    · cases h
  · cases h
    split_ifs <;> exact ⟨rfl, rfl⟩
  · cases h
    exact ⟨rfl, rfl⟩

section

variable (e : StreamEvent) (a : Arrival)

@[simp] theorem checkpoint_pending :
    (c.checkpoint e a).1.pendingEvents = c.pendingEvents := by
  unfold checkpoint
  split_ifs <;> rfl

@[simp] theorem checkpoint_text :
    (c.checkpoint e a).1.assistantText = c.assistantText := by
  unfold checkpoint
  split_ifs <;> rfl

@[simp] theorem checkpoint_id :
    (c.checkpoint e a).1.assistantMsgId = c.assistantMsgId := by
  unfold checkpoint
  split_ifs <;> rfl

end

@[simp] theorem contentCalls_handed (a : Arrival) : handedBy (c.contentCalls a) = [] := by
  unfold contentCalls
  split_ifs <;> rfl

@[simp] theorem checkpoint_handed (e : StreamEvent) (a : Arrival) :
    handedBy (c.checkpoint e a).2 = [] := by
  unfold checkpoint
  split_ifs
  · exact contentCalls_handed c a
  · rfl

theorem contentCalls_row (a : Arrival) (r : MessageRow) :
    ∃ r', applyCalls (some r) (c.contentCalls a) = some r' ∧ r'.status = r.status ∧
      r'.content = if c.assistantText.truthy && c.assistantText.bindable then c.assistantText
        else r.content := by
  unfold contentCalls
  cases ht : c.assistantText.truthy with
  | false => exact ⟨r, by simp⟩
  | true =>
    cases hb : c.assistantText.bindable with
    | false => exact ⟨r, by simp [applyCalls, MessageCall.apply, hb]⟩
    | true =>
      exact ⟨{ r with content := c.assistantText, lastStreamAt := some a.streamAt },
        by simp [applyCalls, MessageCall.apply, hb]⟩

section

variable (status : MessageStatus) (now : Int)

theorem finalizeAbnormalTurn_text :
    (c.finalizeAbnormalTurn status now).1.assistantText = c.assistantText :=
  flushEvents_text c now

theorem finalizeAbnormalTurn_unborn (h : c.assistantMsgId = false)
    : (c.finalizeAbnormalTurn status now).2 = [] := by
  simp [finalizeAbnormalTurn, flushEvents, h]

theorem finalizeAbnormalTurn_handed (h : c.assistantMsgId = true) :
    handedBy (c.finalizeAbnormalTurn status now).2 = c.pendingEvents := by
  have hledger := flushEvents_ledger c now
  rw [flushEvents_empties c now h, List.append_nil] at hledger
  simp only [finalizeAbnormalTurn, handedBy_append, hledger, h]
  exact List.append_nil _

theorem finalizeAbnormalTurn_row {r : MessageRow}
    (h : c.assistantMsgId = true) (hb : c.assistantText.bindable = true) :
    applyCalls (some r) (c.finalizeAbnormalTurn status now).2 =
      some ⟨status, c.assistantText, some now⟩ := by
  simp only [finalizeAbnormalTurn, applyCalls_append, flushEvents_row, h]
  simp [applyCalls, MessageCall.apply, hb]

end

end Consumer

end WittyService
