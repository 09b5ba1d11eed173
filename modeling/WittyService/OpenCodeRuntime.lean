import WittyService.DshRuntime

/-! `OpenCodeRuntime`: the events of OpenCode, their properties at the top, mapped to the events of
a turn. A value of a type that was not thought of can raise. -/
namespace WittyService

structure PartMeta where
  partType : Option String := none
  callId : Option String := none
  toolName : Option String := none

/-- What the mapping keeps in a turn: the parts by their id, and the ids of the calls it started. -/
structure OpenCodeParts where
  partsById : List (String × PartMeta) := []
  startedToolCallIds : List HashKey := []

structure OpenCodeTurn where
  accumulatedText : String := ""
  artifactInputs : ArtifactInputs := []

structure OpenCodeNormalizers where
  openCodeError : Dict → Dict
  artifacts : ArtifactParts

namespace OpenCodeRuntime

def trackPart (raw : Dict) (kept : OpenCodeParts) : OpenCodeParts :=
  if textOf (Dict.get raw "type") ≠ some "message.part.updated" then kept
  else
    match dictOf (Dict.get raw "part") with
    | none => kept
    | some part =>
      match (Dict.get part "id").bind Json.nonemptyStr with
      | none => kept
      | some partId =>
        let partMeta : PartMeta :=
          { partType := (Dict.get part "type").bind Json.nonemptyStr
            callId := (Dict.get part "callID").bind Json.nonemptyStr
            toolName := (Dict.get part "tool").bind Json.nonemptyStr }
        { kept with partsById := (partId, partMeta) :: kept.partsById }

def toolCallDeltaEvent (toolCallId toolName delta : Json) : RuntimeTurnEvent :=
  ⟨.toolCallDelta, [("stage", .str "delta"), ("tool_name", toolName), ("tool_call_id", toolCallId),
    ("delta", delta)]⟩

/-- The output of a call that runs, `""` where there is none. -/
def runningOutput (state : Json) : String :=
  (textOf ((dictOf (Dict.get state.asDict "metadata")).bind (Dict.get · "output"))).getD ""

def mapRunning (toolName toolCallId state : Json) (started : List HashKey) :
    Option (List RuntimeTurnEvent × List HashKey) :=
  let start : RuntimeTurnEvent :=
    ⟨.toolCallStarted, [("stage", .str "started"), ("tool_name", toolName),
      ("tool_call_id", toolCallId), ("arguments", Dict.getD state.asDict "input" (.obj []))]⟩
  if !toolCallId.truthy then some ([start], started)
  else
    toolCallId.hashKey.map fun key =>
      -- the input of a call is there from its first event that it runs
      if key ∈ started then
        if runningOutput state = "" then ([], started)
        else ([toolCallDeltaEvent toolCallId toolName (.str (runningOutput state))], started)
      else ([start], key :: started)

def responseEvent (toolName toolCallId content : Json) (isError : Bool) (exitCode : Option Json) :
    RuntimeTurnEvent :=
  ⟨.toolCallResponse, [("stage", .str "response"), ("name", toolName),
    ("tool_call_id", toolCallId), ("content", content), ("is_error", .bool isError)] ++
      (exitCode.map fun code => ("exitCode", code)).toList⟩

def mapCompleted (toolName toolCallId state : Json) : Option RuntimeTurnEvent :=
  match state with
  | .obj fields =>
    (dictOf (some (Dict.getD fields "metadata" (.obj [])))).map fun metadata =>
      responseEvent toolName toolCallId (Dict.getD fields "output" (.str "")) false
        (match Dict.getD metadata "exit" .null with
          | .null => none
          | code => some code)
  | _ => some (responseEvent toolName toolCallId (.str "") false none)

/-- The part of `_map_part_updated` about tools, `none` when it raises. -/
def mapTool (part : Dict) (started : List HashKey) :
    Option (List RuntimeTurnEvent × List HashKey) :=
  let toolName := (Dict.getD part "tool" .null).orElse (Dict.getD part "name" (.str ""))
  -- questions have events of their own
  if textOf (some toolName) = some "question" then some ([], started)
  else
    let state := Dict.getD part "state" (.str "")
    let status := match state with
      | .obj fields => Dict.getD fields "status" (.str "")
      | other => other
    let toolCallId := (Dict.getD part "callID" .null).orElse (Dict.getD part "id" (.str ""))
    match textOf (some status) with
    | some "running" => mapRunning toolName toolCallId state started
    | some "completed" =>
      (mapCompleted toolName toolCallId state).map fun event => ([event], started)
    | some "error" =>
      some ([responseEvent toolName toolCallId (Dict.getD state.asDict "output" (.str "")) true
        (some (.num (-1) 0))], started)
    | _ => some ([], started)

/-- `_map_part_updated`, `none` when it raises. -/
def mapPartUpdated (add : Json → Json → Json) (raw : Dict) (started : List HashKey) :
    Option (List RuntimeTurnEvent × List HashKey) :=
  match dictOf (Dict.get raw "part") with
  | none => some ([], started)
  | some part =>
    match textOf (Dict.get part "type") with
    | some "reasoning" =>
      some (DshRuntime.textEvent .thinking "thinking" (Dict.get part "text"), started)
    | some "tool" => mapTool part started
    | some "step-start" => some ([⟨.messageStarted, [("part", .obj part)]⟩], started)
    | some "step-finish" =>
      let usage := normalizeUsagePayload add part
      some (if DshRuntime.hasTokenUsage usage then [⟨.sessionUsage, usage⟩] else [], started)
    | _ => some ([], started)

def mapPartDelta (raw : Dict) (partsById : List (String × PartMeta)) : List RuntimeTurnEvent :=
  let delta := Dict.getD raw "delta" (.str "")
  if !delta.truthy then []
  else
    let partMeta := ((textOf (Dict.get raw "partID")).bind fun partId =>
      partsById.lookup partId).getD {}
    if partMeta.partType = some "reasoning" then [⟨.thinkingDelta, [("delta", delta)]⟩]
    else
      match textOf (Dict.get raw "field"), partMeta.callId with
      | some "text", _ => [⟨.messageDelta, [("delta", delta)]⟩]
      | some "tool", some callId =>
        [toolCallDeltaEvent (.str callId) (.str (partMeta.toolName.getD "")) delta]
      | _, _ => []

def finishedInfo (raw : Dict) : Option Dict :=
  (dictOf (Dict.get raw "info")).filter fun info =>
    textOf (Dict.get info "role") = some "assistant" ∧ textOf (Dict.get info "finish") = some "stop"

def mapMessageUpdated (raw : Dict) : List RuntimeTurnEvent :=
  match finishedInfo raw with
  | some info => [⟨.messageCompleted, [("info", .obj info)]⟩]
  | none => []

def mapSessionStatus (raw : Dict) : List RuntimeTurnEvent :=
  match dictOf (Dict.get raw "status") with
  | some status =>
    if textOf (Dict.get status "type") = some "busy" then
      [⟨.messageStarted, [("status", .obj status)]⟩]
    else []
  | none => []

def mapQuestionAsked (raw : Dict) : Option RuntimeTurnEvent :=
  ((Dict.get raw "id").bind Json.nonemptyStr).map fun questionId =>
    ⟨.questionAsked, [("question_id", .str questionId),
      ("questions", Dict.getD raw "questions" (.arr []))] ++
        ((dictOf (Dict.get raw "tool")).map fun tool => ("tool", Json.obj tool)).toList⟩

/-- `_map_opencode_event`, behind `_track_part`. -/
def mapOpencodeEvent (add : Json → Json → Json) (normalizers : OpenCodeNormalizers) (raw : Dict)
    (kept : OpenCodeParts) : List RuntimeTurnEvent × Option OpenCodeParts :=
  let kept := trackPart raw kept
  match textOf (Dict.get raw "type") with
  | some "message.part.updated" =>
    match mapPartUpdated add raw kept.startedToolCallIds with
    | some (events, startedToolCallIds) => (events, some { kept with startedToolCallIds })
    | none => ([], none)
  | some "message.part.delta" => (mapPartDelta raw kept.partsById, some kept)
  | some "message.updated" => (mapMessageUpdated raw, some kept)
  | some "session.status" => (mapSessionStatus raw, some kept)
  | some "session.idle" => ([⟨.turnCompleted, []⟩], some kept)
  | some "session.error" => ([⟨.streamError, normalizers.openCodeError raw⟩], some kept)
  | some "question.asked" =>
    ([(mapQuestionAsked raw).getD ⟨.streamError, normalizers.openCodeError raw⟩], some kept)
  | some "question.replied" =>
    ([⟨.questionReplied, [("request_id", Dict.getD raw "requestID" (.str "")),
      ("answers", Dict.getD raw "answers" (.arr []))]⟩], some kept)
  | some "question.rejected" =>
    ([⟨.questionRejected, [("request_id", Dict.getD raw "requestID" (.str ""))]⟩], some kept)
  | _ => ([], some kept)

/-- The types of the events that an event of OpenCode of some type is mapped to. -/
def mappedTypes : Option String → List TurnEventType
  | some "message.part.updated" => [.thinking, .toolCallStarted, .toolCallDelta, .toolCallResponse,
      .messageStarted, .sessionUsage]
  | some "message.part.delta" => [.thinkingDelta, .messageDelta, .toolCallDelta]
  | some "message.updated" => [.messageCompleted]
  | some "session.status" => [.messageStarted]
  | some "session.idle" => [.turnCompleted]
  | some "session.error" => [.streamError]
  | some "question.asked" => [.questionAsked, .streamError]
  | some "question.replied" => [.questionReplied]
  | some "question.rejected" => [.questionRejected]
  | _ => []

section
variable {add : Json → Json → Json} {started : List HashKey}
  {out : List RuntimeTurnEvent × List HashKey}

variable {toolName toolCallId state : Json}

theorem types_mapRunning (h : mapRunning toolName toolCallId state started = some out) :
    ∀ e ∈ out.1, e.type ∈ [.toolCallStarted, TurnEventType.toolCallDelta] := by
  unfold mapRunning at h
  by_cases htruthy : (!toolCallId.truthy) = true
  · rw [if_pos htruthy] at h
    cases h
    exact List.forall_mem_singleton.mpr (.head _)
  · rw [if_neg htruthy] at h
    obtain ⟨key, -, rfl⟩ := Option.map_eq_some_iff.mp h
    split_ifs
    · exact List.forall_mem_nil _
    · exact List.forall_mem_singleton.mpr (.tail _ (.head _))
    · exact List.forall_mem_singleton.mpr (.head _)

theorem type_mapCompleted {event : RuntimeTurnEvent}
    (h : mapCompleted toolName toolCallId state = some event) :
    event.type = .toolCallResponse := by
  unfold mapCompleted at h
  split at h
  · obtain ⟨metadata, -, rfl⟩ := Option.map_eq_some_iff.mp h
    rfl
  · cases h
    rfl

theorem types_mapTool {part : Dict} (h : mapTool part started = some out) :
    ∀ e ∈ out.1, e.type ∈ [.toolCallStarted, .toolCallDelta, TurnEventType.toolCallResponse] := by
  unfold mapTool at h
  dsimp only at h
  split_ifs at h
  · cases h
    exact List.forall_mem_nil _
  · split at h
    · exact fun e he =>
        List.mem_append_left [TurnEventType.toolCallResponse] (types_mapRunning h e he)
    · obtain ⟨event, hevent, rfl⟩ := Option.map_eq_some_iff.mp h
      rw [List.forall_mem_singleton, type_mapCompleted hevent]
      exact .tail _ (.tail _ (.head _))
    · cases h
      exact List.forall_mem_singleton.mpr (.tail _ (.tail _ (.head _)))
    · cases h
      exact List.forall_mem_nil _

theorem types_mapPartUpdated {raw : Dict} (h : mapPartUpdated add raw started = some out) :
    ∀ e ∈ out.1, e.type ∈ mappedTypes (some "message.part.updated") := by
  unfold mapPartUpdated at h
  split at h
  · cases h
    exact List.forall_mem_nil _
  · split at h
    · cases h
      exact fun e he => DshRuntime.type_of_mem_textEvent e he ▸ List.mem_cons_self
    · intro e he
      have hmem := types_mapTool h e he
      exact .tail _ (List.mem_append_left [TurnEventType.messageStarted, .sessionUsage] hmem)
    · cases h
      exact List.forall_mem_singleton.mpr (.tail _ (.tail _ (.tail _ (.tail _ (.head _)))))
    · cases h
      split_ifs
      · refine List.forall_mem_singleton.mpr ?_
        exact .tail _ (.tail _ (.tail _ (.tail _ (.tail _ (.head _)))))
      · exact List.forall_mem_nil _
    · cases h
      exact List.forall_mem_nil _

theorem types_mapPartDelta (raw : Dict) (partsById : List (String × PartMeta)) :
    ∀ e ∈ mapPartDelta raw partsById, e.type ∈ mappedTypes (some "message.part.delta") := by
  unfold mapPartDelta
  dsimp only
  split_ifs
  · exact List.forall_mem_nil _
  · exact List.forall_mem_singleton.mpr (.head _)
  · split
    · exact List.forall_mem_singleton.mpr (.tail _ (.head _))
    · exact List.forall_mem_singleton.mpr (.tail _ (.tail _ (.head _)))
    · exact List.forall_mem_nil _

section

variable {normalizers : OpenCodeNormalizers}

theorem types_mapOpencodeEvent (raw : Dict)
    (kept : OpenCodeParts) : ∀ e ∈ (mapOpencodeEvent add normalizers raw kept).1,
      e.type ∈ mappedTypes (textOf (Dict.get raw "type")) := by
  unfold mapOpencodeEvent
  dsimp only
  split
  · next htype =>
    rw [htype]
    split
    · next hmap => exact types_mapPartUpdated hmap
    · exact List.forall_mem_nil _
  · next htype =>
    rw [htype]
    exact types_mapPartDelta _ _
  · next htype =>
    rw [htype, mapMessageUpdated]
    split
    · exact List.forall_mem_singleton.mpr (.head _)
    · exact List.forall_mem_nil _
  · next htype =>
    rw [htype, mapSessionStatus]
    split
    · split_ifs
      · exact List.forall_mem_singleton.mpr (.head _)
      · exact List.forall_mem_nil _
    · exact List.forall_mem_nil _
  · next htype => exact List.forall_mem_singleton.mpr (htype ▸ .head _)
  · next htype => exact List.forall_mem_singleton.mpr (htype ▸ .head _)
  · next htype =>
    rw [htype, List.forall_mem_singleton, mapQuestionAsked]
    cases (Dict.get raw "id").bind Json.nonemptyStr with
    | none => exact .tail _ (.head _)
    | some questionId => exact .head _
  · next htype => exact List.forall_mem_singleton.mpr (htype ▸ .head _)
  · next htype => exact List.forall_mem_singleton.mpr (htype ▸ .head _)
  · exact List.forall_mem_nil _

variable {raw : Dict}

theorem mapOpencodeEvent_updated
    (htype : textOf (Dict.get raw "type") = some "message.part.updated") (kept : OpenCodeParts) :
    mapOpencodeEvent add normalizers raw kept =
      match mapPartUpdated add raw (trackPart raw kept).startedToolCallIds with
      | some out => (out.1, some { trackPart raw kept with startedToolCallIds := out.2 })
      | none => ([], none) := by
  rw [mapOpencodeEvent, htype]
  cases mapPartUpdated add raw (trackPart raw kept).startedToolCallIds with
  | none | some out => rfl

theorem kept_of_not_updated {kept : OpenCodeParts}
    (htype : textOf (Dict.get raw "type") ≠ some "message.part.updated") :
    (mapOpencodeEvent add normalizers raw kept).2 = some (trackPart raw kept) := by
  unfold mapOpencodeEvent
  split
  · exact absurd ‹_› htype
  all_goals rfl

end

end

/-- `_on_mapped_event`. A delta that is no text cannot be added to the text. -/
def onMappedEvent (event : RuntimeTurnEvent) (t : OpenCodeTurn) :
    Option (List RuntimeTurnEvent × OpenCodeTurn) :=
  match event.type with
  | .messageDelta =>
    (textOf (some (Dict.getD event.payload "delta" (.str "")))).map fun delta =>
      ([event], { t with accumulatedText := t.accumulatedText ++ delta })
  | .messageCompleted =>
    if t.accumulatedText = "" then some ([event], t)
    else
      let payload := Dict.set event.payload "text" (.str t.accumulatedText)
      some ([{ event with payload }], t)
  | _ => some ([event], t)

/-- `OpenCodeRuntime`. It catches no error of its client. -/
def hooks (add : Json → Json → Json) (normalizers : OpenCodeNormalizers) :
    RuntimeHooks Dict OpenCodeParts OpenCodeTurn where
  mapping := {}
  handling := {}
  mapEvents := mapOpencodeEvent add normalizers
  onMappedEvent := onMappedEvent
  onArtifactEvent event t :=
    (RuntimeBase.onArtifactEvent normalizers.artifacts event t.artifactInputs).map fun artifacts =>
      (artifacts.1, { t with artifactInputs := artifacts.2 })
  errorEvents _ := []
  errorEvents_noUsage := fun _ _ h => absurd h List.not_mem_nil

end OpenCodeRuntime

end WittyService
