import WittyService.CallTracking
import WittyService.OpenClawText

/-! The calls of a gateway turn. The gateway announces and answers a call in the tool stream of the
agent, and again in the messages of the session. -/
namespace WittyService

namespace OpenClawRuntime

variable {plus : NumberAdd} {parts : OpenClawParts}

def toolSignals (data : Dict) : List CallSignal :=
  match (textOf (Dict.get data "phase")).map String.toLower with
  | some "start" => ((pickString data ["toolCallId"]).map .started).toList
  | some "result" => ((pickString data ["toolCallId"]).map .answered).toList
  | _ => []

def messageSignals (message : Dict) : List CallSignal :=
  match textOf (Dict.get message "role") with
  | some "toolResult" => ((pickString message ["toolCallId"]).map .answered).toList
  | some "assistant" =>
    (blocksOfType "toolCall" ((listOf (Dict.get message "content")).getD [])).filterMap fun item =>
      (pickString item ["id"]).map .started
  | _ => []

def rawSignals (raw : GatewayEvent) : List CallSignal :=
  if raw.type = "agent" then
    match textOf (Dict.get raw.payload "stream"), dictOf (Dict.get raw.payload "data") with
    | some "tool", some data => toolSignals data
    | _, _ => []
  else if raw.type = "session.message" then
    ((dictOf (Dict.get raw.payload "message")).map messageSignals).getD []
  else []

theorem pickString_nonempty {payload : Dict} {keys : List String} {text : String}
    (h : pickString payload keys = some text) : (Json.str text).nonemptyStr = some text :=
  nonemptyStr_of_bind h

variable (payload message : Dict) (raw : GatewayEvent)

theorem nonemptyStr_ofText_pickString (keys : List String) :
    (Json.ofText (pickString payload keys)).nonemptyStr = pickString payload keys := by
  cases h : pickString payload keys with
  | none => rfl
  | some text => exact pickString_nonempty h

theorem callSignals_mapAgentToolStream (data : Dict) :
    callSignals (mapAgentToolStream data) = toolSignals data := by
  have hid := nonemptyStr_ofText_pickString data ["toolCallId"]
  unfold mapAgentToolStream toolSignals
  dsimp only
  split
  · next hphase =>
    rw [hphase, callSignals_singleton, callSignal_started rfl, hid]
    rfl
  · next hphase =>
    rw [hphase, callSignals_singleton, callSignal_answered rfl, hid]
    rfl
  · next hphase =>
    rw [hphase]
    split
    · rfl
    · rfl
  · next hstart hresult _ =>
    split
    · exact absurd ‹_› hstart
    · exact absurd ‹_› hresult
    · rfl

theorem callSignals_toolCalls : callSignals (toolCalls message) =
    (blocksOfType "toolCall" ((listOf (Dict.get message "content")).getD [])).filterMap fun item =>
      (pickString item ["id"]).map .started := by
  unfold toolCalls
  induction blocksOfType "toolCall" ((listOf (Dict.get message "content")).getD []) with
  | nil => rfl
  | cons item items ih =>
    rw [List.map_cons, callSignals_cons, ih,
      callSignal_started rfl, nonemptyStr_ofText_pickString item ["id"]]
    cases hid : pickString item ["id"] with
    | none =>
      rw [List.filterMap_cons_none (by rw [hid]; rfl)]
      rfl
    | some id =>
      rw [List.filterMap_cons_some (by rw [hid]; rfl)]
      rfl

theorem messageSignals_of_ne {message : Dict}
    (hresult : textOf (Dict.get message "role") ≠ some "toolResult")
    (hassistant : textOf (Dict.get message "role") ≠ some "assistant") :
    messageSignals message = [] := by
  unfold messageSignals
  split
  · exact absurd ‹_› hresult
  · exact absurd ‹_› hassistant
  · rfl

theorem callSignals_mapSessionMessage :
    callSignals (mapSessionMessage plus.add message) = messageSignals message := by
  have husage (usage : Dict) := callSignals_of_type (type_usageEvents usage)
  have hthinking := callSignals_of_type (type_extractThinkingEvents message)
  unfold mapSessionMessage
  split
  · next hrole =>
    rw [messageSignals, hrole, mapToolResultMessage, callSignals_singleton, callSignal_answered rfl,
      nonemptyStr_ofText_pickString message ["toolCallId"]]
    rfl
  · next hrole =>
    rw [messageSignals, hrole]
    split
    · rw [callSignals_append, callSignals_append, husage, hthinking, callSignals_toolCalls]
      rfl
    · rw [callSignals_append, callSignals_append, husage, callSignals_toolCalls]
      split
      · exact List.append_nil _
      · rw [hthinking]
        exact List.append_nil _
  · next hresult hassistant =>
    rw [hthinking, messageSignals_of_ne hresult hassistant]

theorem callSignals_mapAgent :
    callSignals (mapAgent parts payload) =
      match textOf (Dict.get payload "stream"), dictOf (Dict.get payload "data") with
      | some "tool", some data => toolSignals data
      | _, _ => [] := by
  unfold mapAgent
  split
  · next data hstream hdata =>
    rw [hstream, hdata, DshRuntime.textEvent]
    split
    · split_ifs
      · rfl
      · rfl
    · rfl
  · next data hstream hdata =>
    rw [hstream, hdata]
    split
    · rfl
    · rfl
  · next data hstream hdata =>
    rw [hstream, hdata]
    exact callSignals_mapAgentToolStream data
  · next data hstream hdata =>
    rw [hstream, hdata, mapLifecycle]
    split
    · rfl
    · rfl
    · rfl
    · rfl
  · next _ _ htool _ =>
    split
    · next data hstream hdata => exact absurd hdata (htool data hstream)
    · rfl

theorem callSignals_mapGatewayEvents :
    callSignals (mapGatewayEvents plus.add parts raw) = rawSignals raw := by
  unfold mapGatewayEvents rawSignals
  by_cases hchanged : raw.type = "sessions.changed"
  · rw [if_pos hchanged, if_neg (by rw [hchanged]; decide), if_neg (by rw [hchanged]; decide),
      mapSessionsChanged]
    split
    · rfl
    · rfl
  · rw [if_neg hchanged]
    by_cases hagent : raw.type = "agent"
    · rw [if_pos hagent, if_pos hagent]
      exact callSignals_mapAgent raw.payload
    · rw [if_neg hagent, if_neg hagent]
      split_ifs
      · cases dictOf (Dict.get raw.payload "message") with
        | none => rfl
        | some message => exact callSignals_mapSessionMessage message
      · rfl

theorem onMappedEvent_calls (event : RuntimeTurnEvent) (t : OpenClawTurn) :
    (onMappedEvent event t).1.filter RuntimeTurnEvent.isPairing =
        [event].filter RuntimeTurnEvent.isPairing ∧
      (onMappedEvent event t).2.artifactInputs = t.artifactInputs := by
  have hquiet : ∀ (event : RuntimeTurnEvent) (events : List RuntimeTurnEvent),
      event.isPairing = false → (event :: events).filter RuntimeTurnEvent.isPairing =
        events.filter RuntimeTurnEvent.isPairing :=
    fun event events h => List.filter_cons_of_neg (by simp [h])
  unfold onMappedEvent
  split
  · next htype =>
    unfold onThinkingEvent
    split
    · exact ⟨rfl, rfl⟩
    · dsimp only
      split
      · exact ⟨hquiet _ _ rfl, rfl⟩
      · exact ⟨rfl, rfl⟩
  · next htype =>
    have hevent : event.isPairing = false := by
      rw [RuntimeTurnEvent.isPairing, htype]
    rw [hquiet event [] hevent]
    unfold onThinkingDeltaEvent
    split
    · exact ⟨rfl, rfl⟩
    · dsimp only
      split_ifs
      all_goals first
        | exact ⟨rfl, rfl⟩
        | exact ⟨hquiet _ _ hevent, rfl⟩
  · exact ⟨rfl, rfl⟩
  · split
    · split
      · exact ⟨hquiet _ _ rfl, rfl⟩
      · exact ⟨rfl, rfl⟩
    · exact ⟨rfl, rfl⟩
  · exact ⟨rfl, rfl⟩

theorem isMapped_mapGatewayEvents :
    ∀ e ∈ mapGatewayEvents plus.add parts raw, e.type.isMapped = true := by
  have hthinking (message : Dict) := isMapped_of_type (type_extractThinkingEvents message)
  have hcalls (message : Dict) := isMapped_of_type (type_toolCalls message)
  have husage (usage : Dict) := isMapped_of_type (type_usageEvents usage)
  unfold mapGatewayEvents
  split_ifs
  · unfold mapSessionsChanged
    split
    · exact List.forall_mem_singleton.mpr rfl
    · exact List.forall_mem_nil _
  · unfold mapAgent
    split
    · exact isMapped_of_type DshRuntime.type_of_mem_textEvent
    · split
      · exact List.forall_mem_singleton.mpr rfl
      · exact List.forall_mem_nil _
    · exact isMapped_of_types (types_mapAgentToolStream _)
    · exact isMapped_of_types (types_mapLifecycle parts _)
    · exact List.forall_mem_nil _
  · split
    · unfold mapSessionMessage
      split
      · exact List.forall_mem_singleton.mpr rfl
      · split
        · exact List.forall_mem_append.mpr
            ⟨List.forall_mem_append.mpr ⟨husage _, hthinking _⟩, hcalls _⟩
        · refine List.forall_mem_append.mpr
            ⟨List.forall_mem_append.mpr ⟨husage _, hcalls _⟩, ?_⟩
          split
          · exact List.forall_mem_singleton.mpr rfl
          · exact hthinking _
      · exact hthinking _
    · exact List.forall_mem_nil _
  · exact List.forall_mem_nil _

theorem tracksCalls : TracksCalls (hooks plus.add parts) parts.artifacts OpenClawTurn.artifactInputs
    RuntimeTurnEvent.NoArtifact where
  inputs_handling := rfl
  mapped_noArtifact _ h := h
  errors_quiet _ _ h := nomatch h
  handled := by
    intro event t out t' _ hhandle
    obtain ⟨hevents, hinputs⟩ := onMappedEvent_calls event t
    have hmap : ((RuntimeBase.onArtifactEvent parts.artifacts event
        (onMappedEvent event t).2.artifactInputs).map fun artifacts =>
          (artifacts.1, { (onMappedEvent event t).2 with artifactInputs := artifacts.2 })).map
            (fun artifacts => ((onMappedEvent event t).1 ++ artifacts.1, artifacts.2)) =
              some (out, t') := hhandle
    rw [Option.map_map, Option.map_eq_some_iff, hinputs] at hmap
    obtain ⟨⟨artifacts, inputs'⟩, hartifacts, heq⟩ := hmap
    cases heq
    refine ⟨artifacts, ?_, hartifacts⟩
    rw [List.filter_append, hevents, filter_isPairing_artifacts hartifacts]

theorem mapsSignals : (hooks plus.add parts).MapsSignals rawSignals fun _ _ => True where
  raised raw _ _ _ hraised := nomatch hraised
  goes raw _ _ seen _ _ := by
    have hsignals : callSignals ((hooks plus.add parts).mapEvents raw ()).1 = rawSignals raw :=
      callSignals_mapGatewayEvents raw
    rw [hsignals]
    exact ⟨rfl, rfl, trivial⟩

theorem pairedTurn (plus : NumberAdd) (lifecycleError : Dict → Dict)
    (loads : String → Option Json) (raws : List GatewayEvent) (raised : Bool) :
    PairedTurn (raws.flatMap rawSignals)
      ((hooks plus.add ⟨lifecycleError, ArtifactDetector.parts loads⟩).turn raws).crashed
      (sentEvents ((hooks plus.add ⟨lifecycleError, ArtifactDetector.parts loads⟩).runTurn plus.add
        raws raised).emitted) := by
  have hmapped (raw : GatewayEvent) (_ : Unit) : ∀ e ∈ mapGatewayEvents plus.add
      ⟨lifecycleError, ArtifactDetector.parts loads⟩ raw, e.NoArtifact :=
    fun e he => noArtifact_of_isMapped (isMapped_mapGatewayEvents raw e he)
  exact tracksCalls.pairedTurn hmapped mapsSignals trivial plus raws raised

end OpenClawRuntime

end WittyService
