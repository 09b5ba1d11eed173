import WittyService.DshRuntime

/-! `OpenClawGatewayRuntime`: the events of the gateway mapped to the events of a turn. The delta of
a text or of a thought that comes late is sent with the whole of it, and dropped when it comes. -/
namespace WittyService

/-- An event as `OpenClawGatewayClient.stream_turn` passes it on. -/
structure GatewayEvent where
  type : String
  payload : Dict
  deriving Repr

structure OpenClawParts where
  lifecycleError : Dict → Dict
  artifacts : ArtifactParts

/-- What the handling of mapped events keeps in a turn, with texts as lists of characters. -/
structure OpenClawTurn where
  accDelta : List Char := []
  accThinking : List Char := []
  thinkingSuppress : List Char := []
  artifactInputs : ArtifactInputs := []

/-- `None` where there is no text. -/
def Json.ofText : Option String → Json
  | some text => .str text
  | none => .null

namespace OpenClawRuntime

def pickString (payload : Dict) (keys : List String) : Option String :=
  (keys.findSome? (Dict.get payload)).bind Json.nonemptyStr

def pickBool (payload : Dict) (key : String) : Option Bool :=
  match Dict.get payload key with
  | some (.bool b) => some b
  | _ => none

def mapAgentToolStream (data : Dict) : List RuntimeTurnEvent :=
  let toolName := (pickString data ["toolName", "name"]).getD "unknown"
  let toolCallId := pickString data ["toolCallId"]
  match (textOf (Dict.get data "phase")).map String.toLower with
  | some "start" =>
    [⟨.toolCallStarted, [("stage", .str "started"), ("tool_name", .str toolName),
      ("tool_call_id", .ofText toolCallId), ("arguments", Dict.getD data "args" .null)]⟩]
  | some "result" =>
    let result := (dictOf (Dict.get data "result")).getD []
    let details := (dictOf (Dict.get result "details")).getD []
    [⟨.toolCallResponse, [("stage", .str "response"), ("name", .str toolName),
      ("tool_call_id", .ofText toolCallId), ("content", Dict.getD result "content" (.str "")),
      ("is_error", ((pickBool data "isError").map Json.bool).getD .null),
      ("exitCode", Dict.getD details "exitCode" (.num 1 0))]⟩]
  | some "update" =>
    let partialResult := (dictOf (Dict.get data "partialResult")).getD []
    match (Dict.get partialResult "content").bind Json.nonemptyStr, toolCallId with
    | some content, some toolCallId =>
      [⟨.toolCallDelta, [("stage", .str "delta"), ("tool_name", .str toolName),
        ("tool_call_id", .str toolCallId), ("delta", .str content)]⟩]
    | _, _ => []
  | _ => []

def extractThinkingEvents (message : Dict) : List RuntimeTurnEvent :=
  (blocksOfType "thinking" ((listOf (Dict.get message "content")).getD [])).flatMap fun item =>
    match (Dict.get item "thinking").bind Json.nonemptyStr with
    | some thinking =>
      [⟨.thinking, ("thinking", .str thinking) ::
        (((Dict.get item "signature").bind Json.nonemptyStr).map fun signature =>
          ("signature", Json.str signature)).toList⟩]
    | none => []

def mapToolResultMessage (message : Dict) : List RuntimeTurnEvent :=
  let details := (dictOf (Dict.get message "details")).getD []
  [⟨.toolCallResponse, [("stage", .str "response"),
    ("name", .str ((pickString message ["toolName", "name"]).getD "unknown")),
    ("tool_call_id", .ofText (pickString message ["toolCallId"])),
    ("content", Dict.getD message "content" (.str "")),
    ("is_error", .bool ((pickBool message "isError").getD false ||
      textOf (Dict.get details "status") = some "error")),
    ("details", .obj details), ("exitCode", Dict.getD details "exitCode" .null)]⟩]

def toolCalls (message : Dict) : List RuntimeTurnEvent :=
  (blocksOfType "toolCall" ((listOf (Dict.get message "content")).getD [])).map fun item =>
    ⟨.toolCallStarted, [("stage", .str "started"),
      ("tool_name", .str ((pickString item ["name"]).getD "unknown")),
      ("tool_call_id", .ofText (pickString item ["id"])),
      ("arguments", Dict.getD item "arguments" .null)]⟩

def messageText (message : Dict) : String :=
  String.join ((blocksOfType "text" ((listOf (Dict.get message "content")).getD [])).filterMap
    fun item => textOf (Dict.get item "text"))

def usageEvents (usage : Dict) : List RuntimeTurnEvent :=
  if DshRuntime.hasTokenUsage usage then [⟨.sessionUsage, usage⟩] else []

def mapSessionMessage (add : Json → Json → Json) (message : Dict) : List RuntimeTurnEvent :=
  match textOf (Dict.get message "role") with
  | some "toolResult" => mapToolResultMessage message
  | some "assistant" =>
    let reported := usageEvents (normalizeUsagePayload add (Dict.getD message "usage" .null).asDict)
    if textOf (Dict.get message "stopReason") ≠ some "stop" then
      -- thoughts come before the calls they lead to
      reported ++ extractThinkingEvents message ++ toolCalls message
    else
      reported ++ toolCalls message ++
        (if messageText message ≠ "" then
          [⟨.messageCompleted, [("text", .str (messageText message))]⟩]
        else extractThinkingEvents message)
  | _ => extractThinkingEvents message

/-- The id `sessions.changed` tells, from the payload, its `data` or its `session`. -/
def runtimeSessionId (payload : Dict) : Option String :=
  (pickString payload ["sessionId"]).or
    (((dictOf (Dict.get payload "data")).bind (pickString · ["sessionId"])).or
      ((dictOf (Dict.get payload "session")).bind (pickString · ["sessionId"])))

/-- The part of `_map_gateway_events` about a change of the session. -/
def mapSessionsChanged (payload : Dict) : List RuntimeTurnEvent :=
  match runtimeSessionId payload with
  | some sessionId => [⟨.sessionRuntimeChanged, [("runtime_session_id", .str sessionId)]⟩]
  | none => []

/-- The part of `_map_gateway_events` about the lifecycle. `phase.lower()` is compared with words in
ASCII, to which nothing else is lowered. -/
def mapLifecycle (parts : OpenClawParts) (data : Dict) : List RuntimeTurnEvent :=
  match (pickString data ["phase"]).map String.toLower with
  | some "start" => [⟨.messageStarted, []⟩]
  | some "end" => [⟨.turnCompleted, []⟩]
  | some "error" => [⟨.streamError, parts.lifecycleError data⟩]
  | _ => []

/-- The part of `_map_gateway_events` about the agent. -/
def mapAgent (parts : OpenClawParts) (payload : Dict) : List RuntimeTurnEvent :=
  match textOf (Dict.get payload "stream"), dictOf (Dict.get payload "data") with
  | some "assistant", some data =>
    DshRuntime.textEvent .messageDelta "delta" (Dict.get data "delta")
  | some "thinking", some data =>
    match (Dict.get data "delta").bind Json.nonemptyStr with
    | some delta =>
      [⟨.thinkingDelta, [("delta", .str delta), ("text", .ofText (textOf (Dict.get data "text")))]⟩]
    | none => []
  | some "tool", some data => mapAgentToolStream data
  | some "lifecycle", some data => mapLifecycle parts data
  | _, _ => []

def mapGatewayEvents (add : Json → Json → Json) (parts : OpenClawParts) (raw : GatewayEvent) :
    List RuntimeTurnEvent :=
  if raw.type = "sessions.changed" then mapSessionsChanged raw.payload
  else if raw.type = "agent" then mapAgent parts raw.payload
  else if raw.type = "session.message" then
    match dictOf (Dict.get raw.payload "message") with
    | some message => mapSessionMessage add message
    | none => []
  else []

variable (message : Dict)

theorem type_extractThinkingEvents :
    ∀ e ∈ extractThinkingEvents message, e.type = .thinking := by
  intro e he
  obtain ⟨item, -, he⟩ := List.mem_flatMap.mp he
  split at he
  · rw [List.mem_singleton.mp he]
  · cases he

theorem type_usageEvents (usage : Dict) : ∀ e ∈ usageEvents usage, e.type = .sessionUsage := by
  unfold usageEvents
  split_ifs
  · exact List.forall_mem_singleton.mpr rfl
  · exact List.forall_mem_nil _

theorem type_toolCalls :
    ∀ e ∈ toolCalls message, e.type = .toolCallStarted := by
  intro e he
  obtain ⟨item, -, rfl⟩ := List.mem_map.mp he
  rfl

theorem types_mapAgentToolStream (data : Dict) : ∀ e ∈ mapAgentToolStream data,
    e.type ∈ [.toolCallStarted, .toolCallResponse, TurnEventType.toolCallDelta] := by
  unfold mapAgentToolStream
  dsimp only
  split
  · exact List.forall_mem_singleton.mpr (.head _)
  · exact List.forall_mem_singleton.mpr (.tail _ (.head _))
  · split
    · exact List.forall_mem_singleton.mpr (.tail _ (.tail _ (.head _)))
    · exact List.forall_mem_nil _
  · exact List.forall_mem_nil _

theorem types_mapLifecycle (parts : OpenClawParts) (data : Dict) : ∀ e ∈ mapLifecycle parts data,
    e.type ∈ [.messageStarted, .turnCompleted, TurnEventType.streamError] := by
  unfold mapLifecycle
  split
  · exact List.forall_mem_singleton.mpr (.head _)
  · exact List.forall_mem_singleton.mpr (.tail _ (.head _))
  · exact List.forall_mem_singleton.mpr (.tail _ (.tail _ (.head _)))
  · exact List.forall_mem_nil _

/-- `_on_thinking_event`: the rest of the thought that no delta has brought is sent before it. -/
def onThinkingEvent (event : RuntimeTurnEvent) (t : OpenClawTurn) :
    List RuntimeTurnEvent × OpenClawTurn :=
  match (Dict.get event.payload "thinking").bind Json.nonemptyStr with
  | none => ([event], t)
  | some thinking =>
    let text := thinking.toList
    if t.accThinking ≠ [] ∧ t.accThinking <+: text ∧ t.accThinking.length < text.length then
      let missing := text.drop t.accThinking.length
      let payload : Dict := [("delta", .str (String.ofList missing)), ("text", .str thinking)]
      ([⟨.thinkingDelta, payload⟩, event],
        { t with
          thinkingSuppress := missing
          accThinking := text })
    else
      ([event], { t with
        thinkingSuppress := []
        accThinking := text })

def commonLength : List Char → List Char → Nat
  | a :: as, b :: bs => if a = b then commonLength as bs + 1 else 0
  | _, _ => 0

/-- `_on_thinking_delta_event`: what was sent ahead is taken off the delta. -/
def onThinkingDeltaEvent (event : RuntimeTurnEvent) (t : OpenClawTurn) :
    List RuntimeTurnEvent × OpenClawTurn :=
  match (Dict.get event.payload "delta").bind Json.nonemptyStr with
  | none => ([], t)
  | some delta =>
    let text := (textOf (Dict.get event.payload "text")).map String.toList
    let sameBlock := text.any fun text =>
      t.accThinking.isPrefixOf text || text.isPrefixOf t.accThinking
    -- what was sent ahead for another block is forgotten
    let suppress := if sameBlock then t.thinkingSuppress else []
    let common := commonLength suppress delta.toList
    if suppress ≠ [] ∧ common = delta.toList.length then
      ([], { t with thinkingSuppress := suppress.drop common })
    else
      let delta := delta.toList.drop common
      let payload := Dict.set event.payload "delta" (.str (String.ofList delta))
      ([{ event with payload }],
        { t with
          thinkingSuppress := if common = 0 then [] else suppress.drop common
          accThinking := (text.filter (· ≠ [])).getD (t.accThinking ++ delta) })

/-- `_on_mapped_event`: the rest of a text that no delta has brought is sent before its end. -/
def onMappedEvent (event : RuntimeTurnEvent) (t : OpenClawTurn) :
    List RuntimeTurnEvent × OpenClawTurn :=
  match event.type with
  | .thinking => onThinkingEvent event t
  | .thinkingDelta => onThinkingDeltaEvent event t
  | .messageDelta =>
    ([event], { t with
      accDelta := t.accDelta ++ ((textOf (Dict.get event.payload "delta")).getD "").toList })
  | .messageCompleted =>
    match textOf (Dict.get event.payload "text") with
    | some fullText =>
      if t.accDelta.length < fullText.toList.length ∧ t.accDelta <+: fullText.toList then
        let missing := String.ofList (fullText.toList.drop t.accDelta.length)
        ([⟨.messageDelta, [("delta", .str missing)]⟩, event],
          { t with accDelta := fullText.toList })
      else ([event], t)
    | none => ([event], t)
  | _ => ([event], t)

/-- `OpenClawGatewayRuntime`. It catches no error of its client. -/
def hooks (add : Json → Json → Json) (parts : OpenClawParts) :
    RuntimeHooks GatewayEvent Unit OpenClawTurn where
  mapping := ()
  handling := {}
  mapEvents raw _ := (mapGatewayEvents add parts raw, some ())
  onMappedEvent event t := some (onMappedEvent event t)
  onArtifactEvent event t :=
    (RuntimeBase.onArtifactEvent parts.artifacts event t.artifactInputs).map fun artifacts =>
      (artifacts.1, { t with artifactInputs := artifacts.2 })
  errorEvents _ := []
  errorEvents_noUsage := fun _ _ h => absurd h List.not_mem_nil

end OpenClawRuntime

end WittyService
