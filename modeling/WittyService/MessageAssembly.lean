import WittyService.AssistantTurn
import WittyService.UsagePayload

/-! `_assemble_message`: a message and its events as the REST interface returns them. `τ` is
a creation time as `_format_utc_datetime` prints it, and a row comes with that of its event.
A `TypeError`, from a value that no dictionary takes as a key, is `none`. -/
namespace WittyService

namespace Json

def hashable : Json → Bool
  | .arr _ | .obj _ => false
  | _ => true

/-- `int(value)` of the values that Python compares as numbers. -/
def numeric : Json → Option (Int × Nat)
  | .num m e => some (m, e)
  | .bool b => some (if b then 1 else 0, 0)
  | _ => none

/-- `a == b` of two hashable values. -/
def sameKey (a b : Json) : Bool :=
  match a.numeric, b.numeric with
  | some (m, e), some (m', e') => m * 10 ^ e' == m' * 10 ^ e
  | none, none =>
    match a, b with
    | .null, .null => true
    | .str s, .str s' => s == s'
    | _, _ => false
  | _, _ => false

def listOrNull : Json → Json
  | .arr items => .arr items
  | _ => .null

def isNull : Json → Bool
  | .null => true
  | _ => false

end Json

/-- `payload.get(key)`, where a missing key is `None`. -/
def Dict.getOrNull (d : Dict) (key : String) : Json := Dict.getD d key .null

def artifactItemFromPayload (payload : Dict) : Dict :=
  let item : Dict := [
    ("id", Dict.getOrNull payload "id"),
    ("name", Dict.getOrNull payload "name"),
    ("type", Dict.getOrNull payload "type"),
    ("status", Dict.getOrNull payload "status"),
    ("version", Dict.getD payload "version" (.num 1 0)),
    ("relativePath", Dict.getOrNull payload "relative_path"),
    ("size", Dict.getOrNull payload "size"),
    ("mime", Dict.getOrNull payload "mime")]
  if (Dict.getOrNull payload "content").isNull then item
  else item ++ [("content", Dict.getOrNull payload "content")]

def USAGE_REST_FIELDS : List (String × String) := [
  ("input_tokens", "inputTokens"),
  ("output_tokens", "outputTokens"),
  ("total_tokens", "totalTokens"),
  ("cache_read_tokens", "cacheReadTokens"),
  ("cache_write_tokens", "cacheWriteTokens"),
  ("reasoning_tokens", "reasoningTokens"),
  ("total_cost", "totalCost")]

def usageToRest (usage : Dict) : Dict :=
  USAGE_REST_FIELDS.filterMap fun field =>
    if (Dict.getOrNull usage field.1).isNull then none
    else some (field.2, Dict.getOrNull usage field.1)

/-- An entry of `events`; a key the entry does not have is `none`. -/
structure EventItem (τ : Type*) where
  eventType : EventType
  timestamp : τ
  toolCall : Option Dict
  content : Option Json
  usage : Option Dict
  payload : Option Dict
  artifact : Option Dict

def EventItem.bare {τ : Type*} (eventType : EventType) (timestamp : τ) : EventItem τ :=
  ⟨eventType, timestamp, none, none, none, none, none⟩

/-- A segment of the text. `delta_items` and `event_items` share these objects, so the
timeline refers to a segment by its place in `delta_items`. -/
structure DeltaItem (τ : Type*) where
  timestamp : τ
  content : String

inductive TimelineEntry (τ : Type*) where
  | delta (index : Nat)
  | item (item : EventItem τ)

/-- The variables of the loop. `toolCallsById` refers to the objects of `toolCalls` by their
place, newest first; a question field that is `None` is `null`. -/
structure AssemblyState (τ : Type*) where
  toolCalls : List Dict
  toolCallsById : List (Json × Nat)
  artifacts : List (Json × Dict)
  thinking : List Json
  usage : Dict
  eventItems : List (TimelineEntry τ)
  deltaItems : List (DeltaItem τ)
  prevItemType : Option EventType
  question : Json
  questionId : Json
  questionStatus : Option String
  questionAnswers : Json

namespace AssemblyState

variable {τ : Type*}

def new : AssemblyState τ :=
  ⟨[], [], [], [], [], [], [], none, .null, .null, none, .null⟩

def appendItem (s : AssemblyState τ) (item : EventItem τ) : AssemblyState τ :=
  { s with
    eventItems := s.eventItems ++ [.item item]
    prevItemType := some item.eventType }

def toolCallStarted (s : AssemblyState τ) (payload : Dict) (item : EventItem τ) :
    Option (AssemblyState τ) :=
  let toolCallId := Dict.getD payload "tool_call_id" (.str "")
  let tc : Dict := [
    ("id", toolCallId),
    ("name", Dict.getD payload "tool_name" (.str "")),
    ("status", .str "running"),
    ("input", Dict.getOrNull payload "arguments")]
  if toolCallId.hashable then
    some ({ s with
      toolCalls := s.toolCalls ++ [tc]
      toolCallsById := (toolCallId, s.toolCalls.length) :: s.toolCallsById }.appendItem
        { item with toolCall := some tc })
  else none

/-- `tc` after the response has been written into it. -/
def respond (tc payload : Dict) : Dict :=
  let isError := (Dict.getOrNull payload "is_error").truthy
  let tc := Dict.set tc "status" (.str (if isError then "error" else "completed"))
  let tc := Dict.set tc "output" (Dict.getOrNull payload "content")
  let tc := Dict.set tc "duration" (Dict.getOrNull payload "duration")
  if isError then Dict.set tc "error" (Dict.getOrNull payload "content") else tc

def toolCallResponse (s : AssemblyState τ) (payload : Dict) (item : EventItem τ) :
    Option (AssemblyState τ) :=
  let toolCallId := Dict.getD payload "tool_call_id" (.str "")
  if !toolCallId.truthy then some (s.appendItem item)
  else if !toolCallId.hashable then none
  else
    match s.toolCallsById.find? fun entry => entry.1.sameKey toolCallId with
    | none => some (s.appendItem item)
    | some entry =>
      let tc := respond (s.toolCalls.getD entry.2 []) payload
      let isError := (Dict.getOrNull payload "is_error").truthy
      some ({ s with toolCalls := s.toolCalls.set entry.2 tc }.appendItem { item with
        toolCall := some [
          ("id", toolCallId),
          ("name", Dict.getD tc "name" (.str "")),
          ("status", Dict.getOrNull tc "status"),
          ("input", Dict.getOrNull tc "input"),
          ("output", Dict.getOrNull payload "content"),
          ("error", if isError then Dict.getOrNull payload "content" else .null),
          ("duration", Dict.getOrNull payload "duration")] })

def thinkingEvent (s : AssemblyState τ) (payload : Dict) (item : EventItem τ) :
    AssemblyState τ :=
  let content := Dict.getD payload "thinking" (.str "")
  { s with thinking := if content.truthy then s.thinking ++ [content] else s.thinking }.appendItem
    { item with content := some content }

def messageDelta (s : AssemblyState τ) (timestamp : τ) (text : String) : AssemblyState τ :=
  if text = "" then s
  else if s.prevItemType = some .messageDelta ∧ s.deltaItems ≠ [] then
    { s with deltaItems := s.deltaItems.modify (s.deltaItems.length - 1) fun tail =>
        { tail with content := tail.content ++ text } }
  else { s with
    deltaItems := s.deltaItems ++ [⟨timestamp, text⟩]
    eventItems := s.eventItems ++ [.delta s.deltaItems.length]
    prevItemType := some .messageDelta }

def sessionUsage (add : Json → Json → Json) (s : AssemblyState τ) (payload : Dict)
    (item : EventItem τ) : AssemblyState τ :=
  let stepUsage := normalizeUsagePayload add payload
  if stepUsage.isEmpty then s.appendItem item
  else { s with usage := mergeUsage add s.usage stepUsage }.appendItem
    { item with usage := some (usageToRest stepUsage) }

def questionAsked (s : AssemblyState τ) (payload : Dict) (item : EventItem τ) :
    AssemblyState τ :=
  let question := (Dict.getOrNull payload "questions").listOrNull
  let questionId := Dict.getOrNull payload "question_id"
  { s with
    question := question
    questionId := questionId
    questionStatus := some "asked"
    questionAnswers := .null }.appendItem { item with
      payload := some [("question_id", questionId), ("questions", question)] }

/-- `question_id` after an answer that names its request. -/
def answeredId (s : AssemblyState τ) (payload : Dict) : Json :=
  if s.questionId.isNull then Dict.getOrNull payload "request_id" else s.questionId

def questionReplied (s : AssemblyState τ) (payload : Dict) (item : EventItem τ) :
    AssemblyState τ :=
  let answers := (Dict.getOrNull payload "answers").listOrNull
  { s with
    questionId := s.answeredId payload
    questionStatus := some "replied"
    questionAnswers := answers }.appendItem { item with
      payload := some [("question_id", s.answeredId payload), ("answers", answers)] }

def questionRejected (s : AssemblyState τ) (payload : Dict) (item : EventItem τ) :
    AssemblyState τ :=
  { s with
    questionId := s.answeredId payload
    questionStatus := some "rejected" }.appendItem { item with
      payload := some [("question_id", s.answeredId payload)] }

def putArtifact (artifacts : List (Json × Dict)) (id : Json) (artifact : Dict) :
    List (Json × Dict) :=
  if artifacts.any fun entry => entry.1.sameKey id then
    artifacts.map fun entry =>
      if entry.1.sameKey id then
        (entry.1, artifact.foldl (fun merged kv => Dict.set merged kv.1 kv.2) entry.2)
      else entry
  else artifacts ++ [(id, artifact)]

def artifactEvent (s : AssemblyState τ) (payload : Dict) (item : EventItem τ) :
    Option (AssemblyState τ) :=
  let artifact := artifactItemFromPayload payload
  let id := Dict.getOrNull artifact "id"
  if !id.truthy then some (s.appendItem item)
  else if !id.hashable then none
  else some ({ s with artifacts := putArtifact s.artifacts id artifact }.appendItem
    { item with artifact := some artifact })

def takeEvent (add : Json → Json → Json) (s : AssemblyState τ) (evt : τ × StreamEvent) :
    Option (AssemblyState τ) :=
  let payload := evt.2.payload
  let item := EventItem.bare evt.2.eventType evt.1
  match evt.2.eventType with
  | .other "tool.call.started" => s.toolCallStarted payload item
  | .other "tool.call.response" => s.toolCallResponse payload item
  | .thinking => some (s.thinkingEvent payload item)
  | .messageDelta => some (s.messageDelta evt.1 (deltaTextFromPayload payload))
  | .thinkingDelta | .toolCallDelta => some s
  | .other "session.usage" => some (s.sessionUsage add payload item)
  | .other "question.asked" => some (s.questionAsked payload item)
  | .other "question.replied" => some (s.questionReplied payload item)
  | .other "question.rejected" => some (s.questionRejected payload item)
  | .streamError | .clientError => some (s.appendItem { item with payload := some payload })
  | .artifactStarted | .artifactDelta | .artifactCompleted => s.artifactEvent payload item
  | _ => some (s.appendItem item)

def takeEvents (add : Json → Json → Json) (s : AssemblyState τ) :
    List (τ × StreamEvent) → Option (AssemblyState τ)
  | [] => some s
  | evt :: events => (s.takeEvent add evt).bind fun s' => takeEvents add s' events

end AssemblyState

/-- The row of `messages` as `_assemble_message` reads it. -/
structure MessageRecord (τ : Type*) where
  id : String
  role : String
  content : String
  status : MessageStatus
  createdAt : τ

/-- The assembled message. A key that is left out is `none`, `null` or an empty list. -/
structure RenderedMessage (τ : Type*) where
  id : String
  role : String
  content : String
  timestamp : τ
  events : List (EventItem τ)
  status : MessageStatus
  isStreaming : Bool
  toolCalls : List Dict
  thinking : List Json
  usage : Option Dict
  question : Json
  questionId : Json
  questionStatus : Option String
  questionAnswers : Json
  artifacts : List Dict

section Assemble

variable {τ : Type*}

def stopToolCall (status : MessageStatus) (tc : Dict) : Dict :=
  match Dict.getOrNull tc "status" with
  | .str "running" =>
    let tc := Dict.set tc "status" (.str "error")
    if (Dict.get tc "error").isSome then tc
    else Dict.set tc "error" (.str (if status = .interrupted then "已停止生成" else "发生错误"))
  | _ => tc

def stopItem (status : MessageStatus) (item : EventItem τ) : EventItem τ :=
  { item with toolCall := item.toolCall.map (stopToolCall status) }

/-- The loop over `tool_calls` and `event_items` after the events. -/
def stopToolCalls (status : MessageStatus) (s : AssemblyState τ) : AssemblyState τ :=
  if status = .interrupted ∨ status = .error then
    { s with
      toolCalls := s.toolCalls.map (stopToolCall status)
      eventItems := s.eventItems.map fun
        | .item item => .item (stopItem status item)
        | entry => entry }
  else s

def joinedDeltas (deltaItems : List (DeltaItem τ)) : String :=
  String.join (deltaItems.map DeltaItem.content)

def TimelineEntry.isMessageDelta : TimelineEntry τ → Bool
  | .delta _ => true
  | .item i => i.eventType = .messageDelta

/-- The stored content against the segments: an incomplete prefix is completed in the last
segment, and segments that do not match are given up. -/
def reconcile (content : String) (s : AssemblyState τ) : AssemblyState τ :=
  let joined := joinedDeltas s.deltaItems
  if s.deltaItems ≠ [] ∧ content ≠ "" ∧ joined ≠ content then
    if joined ≠ "" ∧ joined.toList <+: content.toList then
      { s with deltaItems := s.deltaItems.modify (s.deltaItems.length - 1) fun tail =>
          { tail with content :=
              joined ++ String.ofList (content.toList.drop joined.toList.length) } }
    else { s with
      eventItems := s.eventItems.filter fun entry => !entry.isMessageDelta
      deltaItems := [] }
  else s

def DeltaItem.toItem (d : DeltaItem τ) : EventItem τ :=
  { EventItem.bare .messageDelta d.timestamp with content := some (.str d.content) }

def TimelineEntry.resolve (deltaItems : List (DeltaItem τ)) : TimelineEntry τ → Option (EventItem τ)
  | .delta index => (deltaItems[index]?).map DeltaItem.toItem
  | .item i => some i

/-- `event_items` with the objects its entries refer to. -/
def timeline (s : AssemblyState τ) : List (EventItem τ) :=
  s.eventItems.filterMap (TimelineEntry.resolve s.deltaItems)

def assembleMessage (add : Json → Json → Json) (msg : MessageRecord τ)
    (events : List (τ × StreamEvent)) : Option (RenderedMessage τ) :=
  (AssemblyState.new.takeEvents add events).map fun s =>
    let s := reconcile msg.content (stopToolCalls msg.status s)
    { id := msg.id
      role := msg.role
      content := msg.content
      timestamp := msg.createdAt
      events := timeline s ++
        -- messages whose deltas were dropped, or given up just now
        if s.deltaItems = [] ∧ msg.content ≠ "" then
          [(DeltaItem.mk msg.createdAt msg.content).toItem]
        else []
      status := msg.status
      isStreaming := msg.status = .generating
      toolCalls := s.toolCalls
      thinking := s.thinking
      usage := if s.usage.isEmpty then none else some (usageToRest s.usage)
      question := s.question
      questionId := s.questionId
      questionStatus := s.questionStatus
      questionAnswers := s.questionAnswers
      artifacts := s.artifacts.map Prod.snd }

end Assemble

variable {α : Type*}

theorem modify_last (l : List α) (a : α) (f : α → α) :
    (l ++ [a]).modify l.length f = l ++ [f a] := by
  induction l with
  | nil => rfl
  | cons b l ih => simpa using ih

theorem exists_modify_last {l : List α} (h : l ≠ []) :
    ∃ init a, l = init ++ [a] ∧
      ∀ f : α → α, l.modify (l.length - 1) f = init ++ [f a] := by
  obtain ⟨init, a, hl⟩ := (List.eq_nil_or_concat l).resolve_left h
  rw [List.concat_eq_append] at hl
  refine ⟨init, a, hl, fun f => ?_⟩
  rw [hl, List.length_append, List.length_singleton, Nat.add_sub_cancel, modify_last]

end WittyService
