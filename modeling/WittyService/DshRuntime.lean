import WittyService.RuntimeTurns

/-! `DshRuntime`: the notifications of the dsh harness mapped to the events of a turn, and the
framing of a turn repaired as its events pass by. -/
namespace WittyService

/-- A notification as `DshClient.stream_turn` passes it on. -/
structure Notification where
  method : String
  payload : Json

/-- What the runtime uses without looking into it: the id of the dsh session, `json.loads`, the
normal forms of its errors, and the detection of artifacts. -/
structure DshParts where
  sessionId : String
  loads : String → Option Json
  turnError : Dict → Dict
  outputTruncated : Dict
  clientError : Dict
  extractWriteArguments : Json → Dict
  artifactStarted : Dict → Option Dict
  artifactCompleted : Dict → Bool → Option Dict

def textOf : Option Json → Option String
  | some (.str text) => some text
  | _ => none

def dictOf : Option Json → Option Dict
  | some (.obj fields) => some fields
  | _ => none

def listOf : Option Json → Option (List Json)
  | some (.arr items) => some items
  | _ => none

/-- The dictionaries in a list with a `type`. -/
def blocksOfType (type : String) (content : List Json) : List Dict :=
  content.filterMap fun block => (dictOf (some block)).filter fun fields =>
    textOf (Dict.get fields "type") = some type

namespace DshRuntime

def hasTokenUsage (usage : Dict) : Bool :=
  (COUNT_FIELDS ++ ["reasoning_tokens", "total_tokens"]).any fun field =>
    (Dict.get usage field).isSome

abbrev ToolNames := List (String × String)

section
variable (add : Json → Json → Json) (parts : DshParts)

/-- `kind` of the reason of a turn end. -/
def endKind (data : Dict) : Json :=
  ((dictOf (Dict.get data "reason")).getD [] |> (Dict.get · "kind")).getD .null

def mapTurnEnd (data : Dict) : List RuntimeTurnEvent :=
  let reason := (dictOf (Dict.get data "reason")).getD []
  let completed : RuntimeTurnEvent := ⟨.turnCompleted, [("reason", endKind data)]⟩
  if textOf (some (endKind data)) = some "error" then
    [⟨.streamError, parts.turnError ((dictOf (Dict.get reason "error")).getD [])⟩, completed]
  else if textOf (some (endKind data)) = some "max-tokens" then
    [⟨.streamError, parts.outputTruncated⟩, completed]
  else [completed]

def textEvent (type : TurnEventType) (field : String) (text : Option Json) :
    List RuntimeTurnEvent :=
  match textOf text with
  | some text => if text = "" then [] else [⟨type, [(field, .str text)]⟩]
  | none => []

def mapAssistantChunk (data : Dict) : List RuntimeTurnEvent :=
  match dictOf (Dict.get data "chunk") with
  | none => []
  | some chunk =>
    match textOf (Dict.get chunk "type") with
    | some "text-delta" => textEvent .messageDelta "delta" (Dict.get chunk "text")
    | some "reasoning-delta" => textEvent .thinkingDelta "delta" (Dict.get chunk "text")
    | some "block-end" =>
      match dictOf (Dict.get chunk "block") with
      | some block =>
        if textOf (Dict.get block "type") = some "reasoning" then
          textEvent .thinking "thinking" (Dict.get block "text")
        else []
      | none => []
    | _ => []

def mapAssistantStreamFrame (frame : Option Json) : List RuntimeTurnEvent :=
  match dictOf frame with
  | none => []
  | some fields =>
    if textOf (Dict.get fields "type") = some "chunk" then
      match dictOf (Dict.get fields "chunk") with
      | some chunk => mapAssistantChunk [("chunk", .obj chunk)]
      | none => []
    else []

/-- The text blocks of a message joined, `none` when a text is no string. -/
def joinTexts (content : List Json) : Option String :=
  ((blocksOfType "text" content).mapM fun block =>
    textOf (some (Dict.getD block "text" (.str "")))).map String.join

/-- `_map_assistant_message`, with `false` when it raises. -/
def mapAssistantMessage (data : Dict) : List RuntimeTurnEvent × Bool :=
  let usage := normalizeUsagePayload add data
  let reported : List RuntimeTurnEvent :=
    if hasTokenUsage usage then [⟨.sessionUsage, usage⟩] else []
  match (dictOf (Dict.get data "message")).bind fun message =>
      listOf (Dict.get message "content") with
  | none => (reported, true)
  | some content =>
    if blocksOfType "tool-call" content ≠ [] then (reported, true)
    else
      match joinTexts content with
      | some text => (reported ++ [⟨.messageCompleted, [("text", .str text)]⟩], true)
      | none => (reported, false)

def callArguments (data : Dict) : Json :=
  match Dict.get data "arguments" with
  | some (.str text) => if text = "" then .str text else (parts.loads text).getD (.str text)
  | some value => value
  | none => .null

def mapToolCall (data : Dict) (names : ToolNames) : List RuntimeTurnEvent × ToolNames :=
  match (Dict.get data "callId").bind Json.nonemptyStr with
  | none => ([], names)
  | some callId =>
    let toolName := (textOf (Dict.get data "name")).getD ""
    ([⟨.toolCallStarted, [("stage", .str "started"), ("tool_name", .str toolName),
        ("tool_call_id", .str callId), ("arguments", callArguments parts data)]⟩],
      if toolName = "" then names else (callId, toolName) :: names)

def mapToolResult (data : Dict) (names : ToolNames) : List RuntimeTurnEvent :=
  match dictOf (Dict.get data "message") with
  | none => []
  | some message =>
    match (dictOf (Dict.get message "source")).bind fun source =>
        (Dict.get source "callId").bind Json.nonemptyStr with
    | none => []
    | some callId =>
      let results := blocksOfType "tool-result" ((listOf (Dict.get message "content")).getD [])
      let texts := results.flatMap fun block =>
        (blocksOfType "text" ((listOf (Dict.get block "content")).getD [])).filterMap fun item =>
          textOf (Dict.get item "text")
      let isError := results.any fun block => match Dict.get block "isError" with
        | some (.bool b) => b
        | _ => false
      [⟨.toolCallResponse, [("stage", .str "response"),
        ("name", .str (((names.lookup callId).filter (· ≠ "")).getD "unknown")),
        ("tool_call_id", .str callId), ("content", .str (String.join texts)),
        ("is_error", .bool isError)]⟩]

/-- The `event` of a notification of the own session, with its `type`. -/
def ownEvent (raw : Notification) : Option (String × Dict) :=
  match dictOf (some raw.payload) with
  | none => none
  | some payload =>
    if raw.method = "session.event" ∧
        textOf (Dict.get payload "sessionId") = some parts.sessionId then
      (dictOf (Dict.get payload "event")).bind fun event =>
        (textOf (Dict.get event "type")).map fun type =>
          (type, (dictOf (Dict.get event "data")).getD [])
    else none

def ownFrame (raw : Notification) : Option Json :=
  match dictOf (some raw.payload) with
  | none => none
  | some payload =>
    if raw.method = "witty.assistant.stream" ∧
        textOf (Dict.get payload "sessionId") = some parts.sessionId then
      Dict.get payload "frame"
    else none

def mapDshEvent (raw : Notification) (names : ToolNames) :
    List RuntimeTurnEvent × Option ToolNames :=
  if raw.method = "witty.assistant.stream" then
    (mapAssistantStreamFrame (ownFrame parts raw), some names)
  else
    match ownEvent parts raw with
    | some ("turn/start", data) =>
      ([⟨.messageStarted, [("turn", Dict.getD data "turn" .null)]⟩], some names)
    | some ("turn/end", data) => (mapTurnEnd parts data, some names)
    | some ("assistant/chunk", data) => (mapAssistantChunk data, some names)
    | some ("assistant/message", data) =>
      let mapped := mapAssistantMessage add data
      (mapped.1, if mapped.2 then some names else none)
    | some ("tool/call", data) =>
      let mapped := mapToolCall parts data names
      (mapped.1, some mapped.2)
    | some ("tool/result", data) => (mapToolResult data names, some names)
    | _ => ([], some names)

variable {add parts}

theorem type_of_mem_textEvent {type : TurnEventType} {field : String} {text : Option Json} :
    ∀ e ∈ textEvent type field text, e.type = type := by
  unfold textEvent
  split
  · split_ifs
    · exact List.forall_mem_nil _
    · exact List.forall_mem_singleton.mpr rfl
  · exact List.forall_mem_nil _

variable (data : Dict)

theorem types_mapAssistantChunk : ∀ e ∈ mapAssistantChunk data,
    e.type ∈ [.messageDelta, .thinkingDelta, TurnEventType.thinking] := by
  have htext {type : TurnEventType} (htype : type ∈ [.messageDelta, .thinkingDelta, .thinking])
      (field : String) (text : Option Json) : ∀ e ∈ textEvent type field text,
        e.type ∈ [.messageDelta, .thinkingDelta, TurnEventType.thinking] := fun e he => by
    rwa [type_of_mem_textEvent e he]
  unfold mapAssistantChunk
  split
  · exact List.forall_mem_nil _
  · split
    · exact htext (by decide) _ _
    · exact htext (by decide) _ _
    · split
      · split_ifs
        · exact htext (by decide) _ _
        · exact List.forall_mem_nil _
      · exact List.forall_mem_nil _
    · exact List.forall_mem_nil _

theorem types_mapAssistantStreamFrame (frame : Option Json) :
    ∀ e ∈ mapAssistantStreamFrame frame,
      e.type ∈ [.messageDelta, .thinkingDelta, TurnEventType.thinking] := by
  unfold mapAssistantStreamFrame
  split
  · exact List.forall_mem_nil _
  · split_ifs
    · split
      · exact types_mapAssistantChunk _
      · exact List.forall_mem_nil _
    · exact List.forall_mem_nil _

theorem types_mapAssistantMessage : ∀ e ∈ (mapAssistantMessage add data).1,
    e.type ∈ [.sessionUsage, TurnEventType.messageCompleted] := by
  have hreported (usage : Dict) : ∀ e ∈ (if hasTokenUsage usage then
      [(⟨.sessionUsage, usage⟩ : RuntimeTurnEvent)] else []),
        e.type ∈ [.sessionUsage, TurnEventType.messageCompleted] := by
    split_ifs
    · exact List.forall_mem_singleton.mpr List.mem_cons_self
    · exact List.forall_mem_nil _
  unfold mapAssistantMessage
  split
  · exact hreported _
  · split
    · exact hreported _
    · split
      · exact List.forall_mem_append.mpr ⟨hreported _,
        List.forall_mem_singleton.mpr (.tail _ (.head _))⟩
      · exact hreported _

theorem type_mapToolCall (names : ToolNames) :
    ∀ e ∈ (mapToolCall parts data names).1, e.type = .toolCallStarted := by
  unfold mapToolCall
  split
  · exact List.forall_mem_nil _
  · exact List.forall_mem_singleton.mpr rfl

theorem type_mapToolResult (names : ToolNames) :
    ∀ e ∈ mapToolResult data names, e.type = .toolCallResponse := by
  unfold mapToolResult
  split
  · exact List.forall_mem_nil _
  · split
    · exact List.forall_mem_nil _
    · exact List.forall_mem_singleton.mpr rfl

end

end DshRuntime

structure DshTurn where
  accumulatedText : String := ""
  startedEmitted : Bool := false
  completedEmitted : Bool := false
  artifactInputs : List (String × Dict) := []

namespace DshRuntime

/-- The reason of a turn end is `error`. -/
def endedByError (event : RuntimeTurnEvent) : Bool :=
  textOf (Dict.get event.payload "reason") = some "error"

def onMappedEvent (event : RuntimeTurnEvent) (t : DshTurn) : List RuntimeTurnEvent × DshTurn :=
  if event.type = .messageStarted then ([event], { t with startedEmitted := true })
  else
    let missing : List RuntimeTurnEvent := if t.startedEmitted then [] else [⟨.messageStarted, []⟩]
    let t := { t with startedEmitted := true }
    match event.type with
    | .messageDelta =>
      (missing ++ [event], { t with
        accumulatedText := t.accumulatedText ++ (textOf (Dict.get event.payload "delta")).getD "" })
    | .messageCompleted => (missing ++ [event], { t with completedEmitted := true })
    | .turnCompleted =>
      if !t.completedEmitted && !endedByError event then
        (missing ++ [⟨.messageCompleted, [("text", .str t.accumulatedText)]⟩, event],
          { t with completedEmitted := true })
      else (missing ++ [event], t)
    | _ => (missing ++ [event], t)

def toolNameOf (payload : Dict) : Option String :=
  ((Dict.get payload "name").bind Json.nonemptyStr).or (textOf (Dict.get payload "tool_name"))

def callIdOf (payload : Dict) : String := (textOf (Dict.get payload "tool_call_id")).getD ""

/-- `_on_artifact_event`, whose calls have text ids here. -/
def onArtifactEvent (parts : DshParts) (event : RuntimeTurnEvent) (t : DshTurn) :
    List RuntimeTurnEvent × DshTurn :=
  if toolNameOf event.payload ≠ some "write" then ([], t)
  else
    match event.type with
    | .toolCallStarted =>
      let args := parts.extractWriteArguments (Dict.getD event.payload "arguments" .null)
      let started := (parts.artifactStarted args).toList.map (RuntimeTurnEvent.mk .artifactStarted)
      (started, if args.isEmpty then t
        else { t with artifactInputs := (callIdOf event.payload, args) :: t.artifactInputs })
    | .toolCallResponse =>
      let args := (t.artifactInputs.lookup (callIdOf event.payload)).getD []
      let isError := (Dict.getD event.payload "is_error" .null).truthy
      ((parts.artifactCompleted args isError).toList.map
        (RuntimeTurnEvent.mk .artifactCompleted), t)
    | _ => ([], t)

/-- The events a caught `DshClientError` becomes. -/
def clientErrorEvents (parts : DshParts) (t : DshTurn) : List RuntimeTurnEvent :=
  let failed := onMappedEvent ⟨.streamError, parts.clientError⟩ t
  let ended := onMappedEvent ⟨.turnCompleted, [("reason", .str "error")]⟩ failed.2
  failed.1 ++ ended.1

theorem clientErrorEvents_eq (parts : DshParts) (t : DshTurn) :
    clientErrorEvents parts t = (if t.startedEmitted then [] else [⟨.messageStarted, []⟩]) ++
      [⟨.streamError, parts.clientError⟩, ⟨.turnCompleted, [("reason", .str "error")]⟩] := by
  have herror : endedByError ⟨.turnCompleted, [("reason", .str "error")]⟩ := by decide +kernel
  simp [clientErrorEvents, onMappedEvent, herror]

/-- `DshRuntime`. -/
def hooks (add : Json → Json → Json) (parts : DshParts) :
    RuntimeHooks Notification ToolNames DshTurn where
  mapping := []
  handling := {}
  mapEvents := mapDshEvent add parts
  onMappedEvent event t := some (onMappedEvent event t)
  onArtifactEvent event t := some (onArtifactEvent parts event t)
  errorEvents := clientErrorEvents parts
  errorEvents_noUsage := by
    intro t event hevent
    rw [clientErrorEvents_eq, List.mem_append] at hevent
    obtain hevent | hevent := hevent
    · split_ifs at hevent
      · cases hevent
      · rw [List.mem_singleton.mp hevent]
        rfl
    · cases hevent with
      | head => rfl
      | tail _ hevent =>
        rw [List.mem_singleton.mp hevent]
        rfl

end DshRuntime

end WittyService
