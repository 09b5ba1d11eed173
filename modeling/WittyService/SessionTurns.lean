import Mathlib.Logic.Function.Basic
import WittyService.AssistantTurn
import WittyService.GuardedRuns
import WittyService.SessionStreamRegistry

/-! The turns of one session, sent and regenerated, and its abort requests on the rows of
`messages` and `message_events`. An action is what one task does between two suspension
points, so any order of actions is a possible interleaving. The queues of the clients and
the buffer of the stream registry decide nothing here and are left out. -/
namespace WittyService

inductive MessageRole where
  | user
  | assistant
  deriving DecidableEq, Repr

/-- The columns of `messages` that the turns read or write. -/
structure SessionMessage where
  role : MessageRole
  createdAt : Int
  row : MessageRow

def SessionMessage.isUser (message : SessionMessage) : Bool := message.role == .user

def SessionMessage.isAssistant (message : SessionMessage) : Bool := message.role == .assistant

/-- A turn is `preparing` while it connects, and `running` once `consume_ws` is a task. -/
inductive TurnStage where
  | preparing
  | running
  | over
  deriving DecidableEq, Repr

/-- A call of `send_message_stream` or `regenerate_message_stream` that sends `content`, made
of the user message `prompt`. -/
structure SessionTurn where
  stage : TurnStage
  content : String
  prompt : Nat
  supersededMessageId : Option Nat
  streamGen : Option Nat
  consumer : Consumer
  assistantMsgId : Option Nat

/-- A call of `abort_session`, `pending` until its local effects. The other fields are no data
of the program: the turns in flight when it was called, and the message whose status it
changed. -/
structure SessionAbort where
  pending : Bool
  inFlight : List Nat
  changed : Option Nat

/-- Messages, turns and aborts are numbered as they come. The last two fields are no data of
the program: the changes of the stored status of a message, and the user message a reply
answers. -/
structure SessionTurns where
  messages : Nat → Option SessionMessage
  messageCount : Nat
  events : List EventRow
  registry : SessionStreamRegistry WsEvent
  turns : Nat → Option SessionTurn
  turnCount : Nat
  aborts : Nat → Option SessionAbort
  abortCount : Nat
  changes : Nat → List (MessageStatus × MessageStatus)
  answered : Nat → Option Nat

def SessionTurns.new : SessionTurns :=
  ⟨fun _ => none, 0, [], .new, fun _ => none, 0, fun _ => none, 0, fun _ => [], fun _ => none⟩

/-- `choice`, here and below, is the row a query with `order_by(created_at.desc()).first()`
returned; which of several rows with the same `created_at` that is, SQLite may choose.
`lost` names the calls on the repository that raise; their exceptions are logged. -/
inductive SessionAction where
  | send (content : String) (createdAt : Int) (lastAssistant : Option Nat)
  | regenerate (target prompt : Option Nat)
  | prepared (k : Nat) (lastCheckpointTime lastFlushTime : Int)
  | prepareFails (k : Nat)
  | event (k : Nat) (a : Arrival) (endedAt createdAt : Int) (lost : MessageCall → Bool)
  | recvRaises (k : Nat) (endedAt : Int) (lost : MessageCall → Bool)
  | exhausted (k : Nat)
  | cancelled (k : Nat)
  | callAbort
  | applyAbort (j : Nat) (target : Option Nat) (lost : Bool)

def INTERRUPTION_PREFIX : String :=
"[CRITICAL SYSTEM INSTRUCTION - OVERRIDE ALL PREVIOUS CONTEXT]

The assistant's previous response in the conversation history was INTERRUPTED and INCOMPLETE before being sent to you.

You MUST follow these rules with HIGHEST PRIORITY:

1. IGNORE the ENTIRE interrupted assistant message completely - treat it as if it never existed
2. DO NOT continue, complete, reference, or acknowledge that interrupted response in ANY way
3. DO NOT use phrases like \"continuing from\", \"as I was saying\",
  \"to complete my previous thought\"
4. Answer ONLY and DIRECTLY the user's message below, starting from a fresh response

The user's current message (ignore everything before this):

"

namespace SessionTurns

variable (s : SessionTurns)

/-- The stored messages that meet `p`. -/
def rows (p : SessionMessage → Bool) : List (Nat × SessionMessage) :=
  (List.range s.messageCount).filterMap fun m =>
    ((s.messages m).filter p).map fun message => (m, message)

/-- `query(...).filter(p).order_by(created_at.desc()).first()` may return `choice`. -/
def isLast (p : SessionMessage → Bool) : Option Nat → Bool
  | none => (s.rows p).isEmpty
  | some m => (s.rows p).any fun x =>
      x.1 == m && (s.rows p).all fun y => decide (y.2.createdAt ≤ x.2.createdAt)

/-- `_maybe_prepend_interruption_prefix`, with the row `get_last_assistant_status` finds. -/
def maybePrependInterruptionPrefix (lastAssistant : Option Nat) (content : String) : String :=
  match lastAssistant.bind s.messages with
  | some message =>
    if message.row.status = .interrupted then INTERRUPTION_PREFIX ++ content else content
  | none => content

def messageIds : List Nat := (List.range s.messageCount).filter fun m => (s.messages m).isSome

/-- `create_message` without a message to replace. -/
def addMessage (message : SessionMessage) : SessionTurns :=
  { s with
    messages := Function.update s.messages s.messageCount (some message)
    messageCount := s.messageCount + 1 }

def deleteMessage (m : Nat) : SessionTurns :=
  { s with
    messages := Function.update s.messages m none
    events := deleteMessageEvents s.events m }

/-- `create_message` for a reply to `prompt`. -/
def createReply (prompt : Nat) (replaces : Option Nat) (createdAt : Int) : SessionTurns :=
  let cleared := match replaces with
    | some old => s.deleteMessage old
    | none => s
  { cleared.addMessage ⟨.assistant, createdAt, ⟨.generating, .str "", none⟩⟩ with
    answered := Function.update s.answered s.messageCount (some prompt) }

def rowAfter (row : MessageRow) (call : MessageCall) : MessageRow :=
  (call.apply (some row)).getD row

/-- The rows of `message_events` after a call on message `m`. -/
def eventsAfter (m : Nat) : MessageCall → List EventRow
  | .createMessageEventsBulk events =>
    match createMessageEventsBulk s.messageIds s.events m events with
    | .ok rows => rows
    | .error _ => s.events
  | .compactMessageDeltaEvents => compactMessageDeltaEvents s.events m
  | _ => s.events

/-- A call on message `m`. An update of a row that is gone changes nothing, and events without
a message to refer to are refused. -/
def callOn (m : Nat) (call : MessageCall) : SessionTurns :=
  match s.messages m with
  | none => s
  | some message =>
    let row := rowAfter message.row call
    { s with
      messages := Function.update s.messages m (some { message with row := row })
      events := s.eventsAfter m call
      changes := if row.status = message.row.status then s.changes
        else Function.update s.changes m (s.changes m ++ [(message.row.status, row.status)]) }

/-- A call of turn `t`, with the id of its message beside the state. -/
def performCall (t : SessionTurn) (replaces : Option Nat) (createdAt : Int)
    (x : SessionTurns × Option Nat) : MessageCall → SessionTurns × Option Nat
  | .createMessage => (x.1.createReply t.prompt replaces createdAt, some x.1.messageCount)
  | call =>
    match x.2 with
    | some m => (x.1.callOn m call, x.2)
    | none => x

def setTurn (k : Nat) (t : SessionTurn) : SessionTurns :=
  { s with turns := Function.update s.turns k (some t) }

/-- The calls that take effect. Where `create_message` raises, the consumer goes another way,
and the arrival says so. -/
def kept (lost : MessageCall → Bool) (calls : List MessageCall) : List MessageCall :=
  calls.filter fun
    | .createMessage => true
    | call => !lost call

/-- Turn `k` performs calls; where it is over, its `finally` block ends the stream. -/
def advance (k : Nat) (t : SessionTurn) (c : Consumer) (calls : List MessageCall)
    (isOver : Bool) (replaces : Option Nat) (createdAt : Int) : SessionTurns :=
  let x := calls.foldl (performCall t replaces createdAt) (s, t.assistantMsgId)
  let after := x.1.setTurn k
    { t with
      consumer := c
      assistantMsgId := x.2
      stage := if isOver then .over else .running }
  { after with registry := if isOver then s.registry.endStream.cleanup else s.registry }

/-- `create_message` of the error branch has no `replaces_message_id`. -/
def replacedBy (t : SessionTurn) (a : Arrival) : Option Nat :=
  if a.event.eventType.isError then none else t.supersededMessageId

def addTurn (t : SessionTurn) : SessionTurns :=
  { s with turns := Function.update s.turns s.turnCount (some t), turnCount := s.turnCount + 1 }

/-- A turn whose `consume_ws` has not begun. -/
def preparing (content : String) (prompt : Nat) (superseded streamGen : Option Nat) :
    SessionTurn :=
  ⟨.preparing, content, prompt, superseded, streamGen, .new 0 0, none⟩

/-- `send_message_stream` up to the connection. -/
def send (content : String) (createdAt : Int) (lastAssistant : Option Nat) :
    Option SessionTurns :=
  let stored := s.addMessage ⟨.user, createdAt, ⟨.completed, .str content, none⟩⟩
  if stored.isLast SessionMessage.isAssistant lastAssistant then
    some (stored.addTurn
      (preparing (stored.maybePrependInterruptionPrefix lastAssistant content) s.messageCount
        none none))
  else none

/-- The reservation is given back where a check of `regenerate_message_stream` fails. -/
def released (registry : SessionStreamRegistry WsEvent) (streamGen : Nat) : SessionTurns :=
  { s with registry := registry.releaseStream streamGen }

/-- The user message found for a regeneration and its text; `none` where it may not be sent. -/
def promptText (prompt : Option Nat) : Option (Nat × String) :=
  prompt.bind fun p =>
    match s.messages p with
    | some ⟨_, _, ⟨_, .str content, _⟩⟩ =>
      if (pyStrip content).isEmpty then none else some (p, content)
    | _ => none

/-- `regenerate_message_stream` up to the connection. The last reply is looked up twice, for
its id and for its status, and both times found the same. -/
def regenerate (target prompt : Option Nat) : Option SessionTurns :=
  match s.registry.tryStartStream with
  | none => some s
  | some registry =>
    let streamGen := s.registry.nextGeneration
    if !s.isLast SessionMessage.isAssistant target then none
    else
      match target.bind s.messages with
      | none => some (s.released registry streamGen)
      | some reply =>
        if !s.isLast (fun message => message.isUser && message.createdAt ≤ reply.createdAt)
            prompt then none
        else
          match s.promptText prompt with
          | none => some (s.released registry streamGen)
          | some (promptId, content) =>
            some ({ s with registry := registry }.addTurn
              (preparing (s.maybePrependInterruptionPrefix target content) promptId target
                (some streamGen)))

/-- `_stream_assistant_turn` from the connection on. -/
def prepared (k : Nat) (t : SessionTurn) (lastCheckpointTime lastFlushTime : Int) :
    SessionTurns :=
  let registry := match t.streamGen with
    | some _ => s.registry
    | none => s.registry.startStream
  { s.setTurn k { t with
      stage := .running
      streamGen := some (t.streamGen.getD s.registry.nextGeneration)
      consumer := .new lastCheckpointTime lastFlushTime } with
    registry := registry.subscribe }

def prepareFails (k : Nat) (t : SessionTurn) : SessionTurns :=
  { s.setTurn k { t with stage := .over } with
    registry := match t.streamGen with
      | some streamGen => s.registry.releaseStream streamGen
      | none => s.registry }

def inFlight : List Nat :=
  (List.range s.turnCount).filter fun k => (s.turns k).any fun t => t.stage ≠ .over

def callAbort : SessionTurns :=
  { s with
    aborts := Function.update s.aborts s.abortCount (some ⟨true, s.inFlight, none⟩)
    abortCount := s.abortCount + 1 }

/-- The local effects of `abort_session`, which come after the remote call. -/
def applyAbort (j : Nat) (b : SessionAbort) (target : Option Nat) (lost : Bool) :
    SessionTurns :=
  let after := match target with
    | some m => if lost then s else s.callOn m (.updateMessageStatus .interrupted)
    | none => s
  { after with
    aborts := Function.update s.aborts j
      (some ⟨false, b.inFlight, target.filter fun m => after.changes m ≠ s.changes m⟩) }

def turnIn (k : Nat) (stage : TurnStage) : Option SessionTurn :=
  (s.turns k).filter fun t => t.stage = stage

end SessionTurns

def SessionTurns.step (ws : Workspace) (s : SessionTurns) : SessionAction → Option SessionTurns
  | .send content createdAt lastAssistant => s.send content createdAt lastAssistant
  | .regenerate target prompt => s.regenerate target prompt
  | .prepared k lastCheckpointTime lastFlushTime =>
    (s.turnIn k .preparing).map fun t => s.prepared k t lastCheckpointTime lastFlushTime
  | .prepareFails k => (s.turnIn k .preparing).map fun t => s.prepareFails k t
  | .event k a endedAt createdAt lost =>
    (s.turnIn k .running).map fun t =>
      let r := t.consumer.receive ws a endedAt
      s.advance k t r.1 (SessionTurns.kept lost r.2.1) r.2.2 (SessionTurns.replacedBy t a)
        createdAt
  | .recvRaises k endedAt lost =>
    (s.turnIn k .running).map fun t =>
      let final := t.consumer.finalizeAbnormalTurn .interrupted endedAt
      s.advance k t final.1 (SessionTurns.kept lost final.2) true none 0
  | .exhausted k | .cancelled k =>
    (s.turnIn k .running).map fun t => s.advance k t t.consumer [] true none 0
  | .callAbort => some s.callAbort
  | .applyAbort j target lost =>
    ((s.aborts j).filter SessionAbort.pending).bind fun b =>
      if s.isLast SessionMessage.isAssistant target then some (s.applyAbort j b target lost)
      else none

namespace SessionTurns

variable {s : SessionTurns}

variable {p : SessionMessage → Bool} {s' : SessionTurns} {content : String} {prompt : Option Nat}

theorem mem_rows {x : Nat × SessionMessage} :
    x ∈ s.rows p ↔ x.1 < s.messageCount ∧ s.messages x.1 = some x.2 ∧ p x.2 = true := by
  obtain ⟨m, message⟩ := x
  simp only [rows, List.mem_filterMap, List.mem_range, Option.map_eq_some_iff,
    Option.filter_eq_some_iff, Prod.mk.injEq]
  constructor
  · rintro ⟨_, hm, message', ⟨hmessage, hp⟩, rfl, rfl⟩
    exact ⟨hm, hmessage, hp⟩
  · rintro ⟨hm, hmessage, hp⟩
    exact ⟨m, hm, message, ⟨hmessage, hp⟩, rfl, rfl⟩

theorem isLast_some {m : Nat} (h : s.isLast p (some m) = true) :
    ∃ message, s.messages m = some message ∧ p message = true ∧
      ∀ m' message', m' < s.messageCount → s.messages m' = some message' → p message' = true →
        message'.createdAt ≤ message.createdAt := by
  simp only [isLast, List.any_eq_true, Bool.and_eq_true, beq_iff_eq, List.all_eq_true,
    decide_eq_true_eq] at h
  obtain ⟨⟨m₀, message⟩, hmem, rfl, hall⟩ := h
  obtain ⟨hm, hmessage, hp⟩ := mem_rows.mp hmem
  refine ⟨message, hmessage, hp, fun m' message' hm' hmessage' hp' => ?_⟩
  exact hall (m', message') (mem_rows.mpr ⟨hm', hmessage', hp'⟩)

theorem turnIn_some {k : Nat} {stage : TurnStage} {t : SessionTurn} :
    s.turnIn k stage = some t ↔ s.turns k = some t ∧ t.stage = stage := by
  simp [turnIn, Option.filter_eq_some_iff]

variable (message : SessionMessage)

theorem addMessage_self : (s.addMessage message).messages s.messageCount = some message :=
  Function.update_self ..

theorem addMessage_other {m : Nat} (hm : m ≠ s.messageCount) :
    (s.addMessage message).messages m = s.messages m :=
  Function.update_of_ne hm _ _

theorem send_cases {createdAt : Int}
    {lastAssistant : Option Nat} (h : s.send content createdAt lastAssistant = some s') :
    ∃ sent, s' = (s.addMessage ⟨.user, createdAt, ⟨.completed, .str content, none⟩⟩).addTurn
      (preparing sent s.messageCount none none) := by
  unfold send at h
  dsimp only at h
  split_ifs at h
  cases h
  exact ⟨_, rfl⟩

theorem promptText_some {p : Nat} (h : s.promptText prompt = some (p, content)) :
    prompt = some p ∧ ∃ message, s.messages p = some message ∧
      message.row.content = .str content := by
  obtain ⟨p', hp', h⟩ := Option.bind_eq_some_iff.mp h
  split at h
  · next heq =>
    split_ifs at h
    cases h
    exact ⟨hp', _, heq, rfl⟩
  · cases h

/-- A regeneration is refused, and leaves at most a stream that has ended, or it reserves the
stream and goes on with the last reply and the user message before it. -/
theorem regenerate_cases {target : Option Nat} (h : s.regenerate target prompt = some s') :
    s' = s ∨ s.registry.isActive = false ∧ (s' = s.released s.registry.startStream
        s.registry.nextGeneration ∨
      ∃ m p reply message content, target = some m ∧ prompt = some p ∧
        s.messages m = some reply ∧ s.isLast SessionMessage.isAssistant (some m) = true ∧
        s.isLast (fun message => message.isUser && message.createdAt ≤ reply.createdAt)
          (some p) = true ∧
        s.messages p = some message ∧ message.row.content = .str content ∧
        s' = { s with registry := s.registry.startStream }.addTurn
          (preparing (s.maybePrependInterruptionPrefix (some m) content) p (some m)
            (some s.registry.nextGeneration))) := by
  unfold regenerate SessionStreamRegistry.tryStartStream at h
  by_cases hactive : s.registry.isActive = true
  · rw [if_pos hactive] at h
    exact .inl (Option.some.inj h).symm
  rw [if_neg hactive] at h
  refine .inr ⟨Bool.not_eq_true _ ▸ hactive, ?_⟩
  dsimp only at h
  split_ifs at h with htarget
  split at h
  · exact .inl (Option.some.inj h).symm
  · next reply hreply =>
    split_ifs at h with hprompt
    split at h
    · exact .inl (Option.some.inj h).symm
    · next p content htext =>
      obtain ⟨m, hm, hreply⟩ := Option.bind_eq_some_iff.mp hreply
      obtain ⟨hp, message, hmessage, hcontent⟩ := promptText_some htext
      subst hm hp
      rw [Bool.not_eq_true, Bool.not_eq_false'] at htarget hprompt
      exact .inr ⟨m, p, reply, message, content, rfl, rfl, hreply, htarget, hprompt, hmessage,
        hcontent, (Option.some.inj h).symm⟩

end SessionTurns

end WittyService
