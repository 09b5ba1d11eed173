import WittyService.CallTracking

/-! The calls of a turn of dsh. Their ids are texts, so the arguments of a write are kept under a
text. -/
namespace WittyService

def DshParts.detecting (parts : DshParts) : DshParts :=
  { parts with
    extractWriteArguments := ArtifactDetector.extractWriteArguments parts.loads
    artifactStarted := (ArtifactDetector.parts parts.loads).artifactStarted
    artifactCompleted := (ArtifactDetector.parts parts.loads).artifactCompleted }

namespace DshRuntime

variable {plus : NumberAdd} {parts : DshParts}

def resultCallId (data : Dict) : Option String :=
  (dictOf (Dict.get data "message")).bind fun message =>
    (dictOf (Dict.get message "source")).bind fun source =>
      (Dict.get source "callId").bind Json.nonemptyStr

def rawSignals (parts : DshParts) (raw : Notification) : List CallSignal :=
  if raw.method = "witty.assistant.stream" then []
  else
    match ownEvent parts raw with
    | some ("tool/call", data) =>
      (((Dict.get data "callId").bind Json.nonemptyStr).map .started).toList
    | some ("tool/result", data) => ((resultCallId data).map .answered).toList
    | _ => []

/-- The event of a call has a text for its id, and one of the two fields for the name. -/
def TextCall (event : RuntimeTurnEvent) : Prop :=
  event.type = .toolCallStarted ∨ event.type = .toolCallResponse →
    (∃ id, id ≠ "" ∧ Dict.get event.payload "tool_call_id" = some (.str id)) ∧
      (event.isWrite = true ↔ toolNameOf event.payload = some "write")

def keptInputs (t : DshTurn) : ArtifactInputs :=
  t.artifactInputs.map fun kept => (.text kept.1, kept.2)

theorem lookup_keptInputs (inputs : List (String × Dict)) (id : String) :
    (inputs.map fun kept => (HashKey.text kept.1, kept.2)).lookup (.text id) =
      inputs.lookup id := by
  induction inputs with
  | nil => rfl
  | cons kept inputs ih =>
    obtain ⟨key, args⟩ := kept
    rw [List.map_cons, List.lookup_cons, List.lookup_cons, ih]
    by_cases h : id = key
    · subst h
      rw [beq_self_eq_true, beq_self_eq_true]
    · have htext : (HashKey.text id == HashKey.text key) = false :=
        beq_eq_false_iff_ne.mpr fun heq => h (HashKey.text.inj heq)
      rw [htext, beq_eq_false_iff_ne.mpr h]

variable {event : RuntimeTurnEvent}

theorem ids_of_get {id : String} (hid : id ≠ "")
    (hget : Dict.get event.payload "tool_call_id" = some (.str id)) :
    event.callId.hashKey = some (.text id) ∧ callIdOf event.payload = id := by
  constructor
  · have htruthy : (Json.str id).truthy = true := bne_iff_ne.mpr hid
    rw [RuntimeTurnEvent.callId, Dict.getD, hget, Option.getD_some, Json.orElse, if_pos htruthy,
      Json.hashKey]
  · rw [callIdOf, hget]
    rfl

theorem onArtifactEvent_other {t : DshTurn}
    (hstarted : event.type ≠ .toolCallStarted) (hresponse : event.type ≠ .toolCallResponse) :
    onArtifactEvent parts event t = ([], t) := by
  unfold onArtifactEvent
  split
  · rfl
  · split
    · exact absurd ‹_› hstarted
    · exact absurd ‹_› hresponse
    · rfl

theorem onArtifactEvent_eq (parts : DshParts) (hcall : TextCall event) (t : DshTurn) :
    RuntimeBase.onArtifactEvent (ArtifactDetector.parts parts.loads) event (keptInputs t) =
      some ((onArtifactEvent parts.detecting event t).1,
        keptInputs (onArtifactEvent parts.detecting event t).2) := by
  by_cases hstarted : event.type = .toolCallStarted
  · obtain ⟨⟨id, hid, hget⟩, hwrite⟩ := hcall (.inl hstarted)
    obtain ⟨hkey, hcallId⟩ := ids_of_get hid hget
    unfold RuntimeBase.onArtifactEvent onArtifactEvent
    cases hevent : event.isWrite with
    | false =>
      rw [Bool.not_false, if_pos rfl, if_pos fun h => by simp [hwrite.mpr h] at hevent]
    | true =>
      rw [Bool.not_true, if_neg Bool.false_ne_true, if_neg (not_not.mpr (hwrite.mp hevent)),
        hstarted, hkey, hcallId]
      dsimp only
      change (if (ArtifactDetector.extractWriteArguments parts.loads _).isEmpty = true then _
        else _) = _
      have hargs : ∀ value, parts.detecting.extractWriteArguments value =
        ArtifactDetector.extractWriteArguments parts.loads value := fun _ => rfl
      rw [hargs]
      split
      · rfl
      · rfl
  · by_cases hresponse : event.type = .toolCallResponse
    · obtain ⟨⟨id, hid, hget⟩, hwrite⟩ := hcall (.inr hresponse)
      obtain ⟨hkey, hcallId⟩ := ids_of_get hid hget
      unfold RuntimeBase.onArtifactEvent onArtifactEvent
      cases hevent : event.isWrite with
      | false =>
        rw [Bool.not_false, if_pos rfl, if_pos fun h => by simp [hwrite.mpr h] at hevent]
      | true =>
        rw [Bool.not_true, if_neg Bool.false_ne_true, if_neg (not_not.mpr (hwrite.mp hevent)),
          hresponse, hkey, hcallId]
        rw [Option.map_some, keptInputs, lookup_keptInputs]
        rfl
    · have hbase : RuntimeBase.onArtifactEvent (ArtifactDetector.parts parts.loads) event
          (keptInputs t) = some ([], keptInputs t) := by
        unfold RuntimeBase.onArtifactEvent
        split
        · rfl
        · split
          · exact absurd ‹_› hstarted
          · exact absurd ‹_› hresponse
          · rfl
      rw [hbase, onArtifactEvent_other hstarted hresponse]

theorem onMappedEvent_calls (event : RuntimeTurnEvent) (t : DshTurn) :
    (onMappedEvent event t).1.filter RuntimeTurnEvent.isPairing =
        [event].filter RuntimeTurnEvent.isPairing ∧
      (onMappedEvent event t).2.artifactInputs = t.artifactInputs := by
  have hmissing : ∀ (quiet : List RuntimeTurnEvent) (event : RuntimeTurnEvent),
      (∀ e ∈ quiet, e.isPairing = false) →
        (quiet ++ [event]).filter RuntimeTurnEvent.isPairing =
          [event].filter RuntimeTurnEvent.isPairing := by
    intro quiet event hquiet
    rw [List.filter_append, List.filter_eq_nil_iff.mpr fun e he => by simp [hquiet e he],
      List.nil_append]
  have hquiet : ∀ e ∈ (if t.startedEmitted then [] else [(⟨.messageStarted, []⟩ :
      RuntimeTurnEvent)]), e.isPairing = false := by
    intro e he
    split at he
    · cases he
    · rw [List.mem_singleton.mp he]
      rfl
  unfold onMappedEvent
  by_cases hstart : event.type = .messageStarted
  · rw [if_pos hstart]
    exact ⟨rfl, rfl⟩
  · rw [if_neg hstart]
    dsimp only
    generalize (if t.startedEmitted then [] else [(⟨.messageStarted, []⟩ : RuntimeTurnEvent)]) =
      missing at hquiet
    split
    · exact ⟨hmissing missing event hquiet, rfl⟩
    · exact ⟨hmissing missing event hquiet, rfl⟩
    · split
      · refine ⟨?_, rfl⟩
        rw [show missing ++ [(⟨.messageCompleted, [("text", .str t.accumulatedText)]⟩ :
          RuntimeTurnEvent), event] = (missing ++ [⟨.messageCompleted,
            [("text", .str t.accumulatedText)]⟩]) ++ [event] by simp]
        refine hmissing _ event (List.forall_mem_append.mpr ⟨hquiet, ?_⟩)
        exact List.forall_mem_singleton.mpr rfl
      · exact ⟨hmissing missing event hquiet, rfl⟩
    · exact ⟨hmissing missing event hquiet, rfl⟩

theorem tracksCalls : TracksCalls (hooks plus.add parts.detecting)
    (ArtifactDetector.parts parts.loads) keptInputs
    fun event => event.NoArtifact ∧ TextCall event where
  inputs_handling := rfl
  mapped_noArtifact _ h := h.1
  errors_quiet t e he := by
    have herrors : e ∈ clientErrorEvents parts.detecting t := he
    rw [clientErrorEvents_eq] at herrors
    obtain he | he := List.mem_append.mp herrors
    · split at he
      · cases he
      · rw [List.mem_singleton.mp he]
        rfl
    · cases he with
      | head => rfl
      | tail _ he =>
        rw [List.mem_singleton.mp he]
        rfl
  handled := by
    intro event t out t' hevent hhandle
    obtain ⟨hevents, hinputs⟩ := onMappedEvent_calls event t
    have heq : some ((onMappedEvent event t).1 ++
        (onArtifactEvent parts.detecting event (onMappedEvent event t).2).1,
          (onArtifactEvent parts.detecting event (onMappedEvent event t).2).2) = some (out, t') :=
      hhandle
    have hkept : keptInputs (onMappedEvent event t).2 = keptInputs t := by
      rw [keptInputs, hinputs, keptInputs]
    have hartifacts := onArtifactEvent_eq parts hevent.2 (onMappedEvent event t).2
    rw [hkept] at hartifacts
    cases heq
    refine ⟨_, ?_, hartifacts⟩
    rw [List.filter_append, hevents, filter_isPairing_artifacts hartifacts]

theorem noArtifact_textCall_of_quiet (h : event.isPairing = false) :
    (event.NoArtifact ∧ TextCall event) ∧ event.callSignal = none := by
  have hne : ∀ type : TurnEventType, (⟨type, []⟩ : RuntimeTurnEvent).isPairing = true →
      event.type ≠ type := by
    rintro type htype rfl
    exact Bool.false_ne_true (h.symm.trans htype)
  refine ⟨⟨⟨hne _ rfl, hne _ rfl⟩, fun hcall => ?_⟩, ?_⟩
  · exact absurd hcall (not_or.mpr ⟨hne _ rfl, hne _ rfl⟩)
  · unfold RuntimeTurnEvent.callSignal
    split
    · exact absurd ‹_› (hne _ rfl)
    · exact absurd ‹_› (hne _ rfl)
    · rfl

theorem quiet_of_types {events : List RuntimeTurnEvent} {types : List TurnEventType}
    (htypes : ∀ e ∈ events, e.type ∈ types)
    (hquiet : ∀ type ∈ types, (⟨type, []⟩ : RuntimeTurnEvent).isPairing = false := by decide) :
    ∀ e ∈ events, e.isPairing = false := fun e he => hquiet e.type (htypes e he)

variable (data : Dict) (raw : Notification)

theorem quiet_mapTurnEnd : ∀ e ∈ mapTurnEnd parts data, e.isPairing = false := by
  unfold mapTurnEnd
  split_ifs
  · exact List.forall_mem_cons.mpr ⟨rfl, List.forall_mem_singleton.mpr rfl⟩
  · exact List.forall_mem_cons.mpr ⟨rfl, List.forall_mem_singleton.mpr rfl⟩
  · exact List.forall_mem_singleton.mpr rfl

theorem mapDshEvent_cases (plus : NumberAdd) (parts : DshParts) (raw : Notification)
    (names : ToolNames) :
    ((∀ e ∈ (mapDshEvent plus.add parts raw names).1, e.isPairing = false) ∧
      rawSignals parts raw = []) ∨
    (∃ data, (mapDshEvent plus.add parts raw names).1 = (mapToolCall parts data names).1 ∧
      rawSignals parts raw =
        (((Dict.get data "callId").bind Json.nonemptyStr).map .started).toList) ∨
    (∃ data, (mapDshEvent plus.add parts raw names).1 = mapToolResult data names ∧
      rawSignals parts raw = ((resultCallId data).map .answered).toList) := by
  unfold mapDshEvent rawSignals
  by_cases hstream : raw.method = "witty.assistant.stream"
  · rw [if_pos hstream, if_pos hstream]
    exact .inl ⟨quiet_of_types (types_mapAssistantStreamFrame _), rfl⟩
  · rw [if_neg hstream, if_neg hstream]
    split
    · next data hevent =>
      rw [hevent]
      exact .inl ⟨List.forall_mem_singleton.mpr rfl, rfl⟩
    · next data hevent =>
      rw [hevent]
      exact .inl ⟨quiet_mapTurnEnd data, rfl⟩
    · next data hevent =>
      rw [hevent]
      exact .inl ⟨quiet_of_types (types_mapAssistantChunk data), rfl⟩
    · next data hevent =>
      rw [hevent]
      exact .inl ⟨quiet_of_types (types_mapAssistantMessage data), rfl⟩
    · next data hevent =>
      rw [hevent]
      exact .inr (.inl ⟨data, rfl, rfl⟩)
    · next data hevent =>
      rw [hevent]
      exact .inr (.inr ⟨data, rfl, rfl⟩)
    · next hcall hresult =>
      refine .inl ⟨List.forall_mem_nil _, ?_⟩
      split
      · exact absurd ‹_› (hcall _)
      · exact absurd ‹_› (hresult _)
      · rfl

theorem isWrite_iff_of_name {type : TurnEventType} {payload : Dict} {name : String}
    (hget : Dict.get payload "name" = some (.str name)) (hne : name ≠ "") :
    (⟨type, payload⟩ : RuntimeTurnEvent).isWrite = true ↔ toolNameOf payload = some "write" := by
  have htruthy : (Json.str name).truthy = true := bne_iff_ne.mpr hne
  have hname : (Json.str name).nonemptyStr = some name := if_neg hne
  rw [RuntimeTurnEvent.isWrite, toolNameOf, Dict.getD, hget, Option.getD_some, Json.orElse,
    if_pos htruthy, Option.bind_some, hname, Option.some_or, decide_eq_true_eq, Option.some.injEq]

theorem mapToolCall_call (parts : DshParts) (data : Dict) (names : ToolNames) :
    (∀ e ∈ (mapToolCall parts data names).1, e.NoArtifact ∧ TextCall e) ∧
      callSignals (mapToolCall parts data names).1 =
        (((Dict.get data "callId").bind Json.nonemptyStr).map .started).toList := by
  unfold mapToolCall
  cases hid : (Dict.get data "callId").bind Json.nonemptyStr with
  | none => exact ⟨List.forall_mem_nil _, rfl⟩
  | some callId =>
    have hcallId := nonemptyStr_of_bind hid
    have hne : callId ≠ "" := by
      rintro rfl
      cases hcallId
    refine ⟨List.forall_mem_singleton.mpr ⟨noArtifact_of_isMapped rfl, fun _ => ⟨?_, ?_⟩⟩, ?_⟩
    · exact ⟨callId, hne, rfl⟩
    · change decide ((textOf (Dict.get data "name")).getD "" = "write") = true ↔
        some ((textOf (Dict.get data "name")).getD "") = some "write"
      rw [decide_eq_true_eq, Option.some.injEq]
    · rw [callSignals_singleton, callSignal_started rfl, hcallId]

theorem mapToolResult_call (names : ToolNames) :
    (∀ e ∈ mapToolResult data names, e.NoArtifact ∧ TextCall e) ∧
      callSignals (mapToolResult data names) = ((resultCallId data).map .answered).toList := by
  unfold mapToolResult resultCallId
  cases hmessage : dictOf (Dict.get data "message") with
  | none => exact ⟨List.forall_mem_nil _, rfl⟩
  | some message =>
    dsimp only [Option.bind_some]
    cases hid : (dictOf (Dict.get message "source")).bind fun source =>
        (Dict.get source "callId").bind Json.nonemptyStr with
    | none => exact ⟨List.forall_mem_nil _, rfl⟩
    | some callId =>
      have hcallId : (Json.str callId).nonemptyStr = some callId := by
        obtain ⟨source, -, hsource⟩ := Option.bind_eq_some_iff.mp hid
        exact nonemptyStr_of_bind hsource
      have hne : callId ≠ "" := by
        rintro rfl
        cases hcallId
      refine ⟨List.forall_mem_singleton.mpr ⟨noArtifact_of_isMapped rfl, fun _ => ⟨?_, ?_⟩⟩, ?_⟩
      · exact ⟨callId, hne, rfl⟩
      · refine isWrite_iff_of_name rfl ?_
        cases hname : (names.lookup callId).filter (· ≠ "") with
        | none =>
          decide
        | some name =>
          exact of_decide_eq_true (Option.filter_eq_some_iff.mp hname).2
      · rw [callSignals_singleton, callSignal_answered rfl, hcallId]

theorem mapped_mapDshEvent (names : ToolNames) :
    ∀ e ∈ (mapDshEvent plus.add parts raw names).1, e.NoArtifact ∧ TextCall e := by
  obtain ⟨hquiet, -⟩ | ⟨data, heq, -⟩ | ⟨data, heq, -⟩ :=
    mapDshEvent_cases plus parts raw names
  · exact fun e he => (noArtifact_textCall_of_quiet (hquiet e he)).1
  · rw [heq]
    exact (mapToolCall_call parts data names).1
  · rw [heq]
    exact (mapToolResult_call data names).1

theorem callSignals_mapDshEvent (names : ToolNames) :
    callSignals (mapDshEvent plus.add parts raw names).1 = rawSignals parts raw := by
  obtain ⟨hquiet, hnone⟩ | ⟨data, heq, hsignals⟩ | ⟨data, heq, hsignals⟩ :=
    mapDshEvent_cases plus parts raw names
  · rw [hnone]
    exact callSignals_eq_nil fun e he => (noArtifact_textCall_of_quiet (hquiet e he)).2
  · rw [heq, hsignals]
    exact (mapToolCall_call parts data names).2
  · rw [heq, hsignals]
    exact (mapToolResult_call data names).2

theorem mapsSignals : (hooks plus.add parts).MapsSignals (rawSignals parts) fun _ _ => True where
  raised raw names seen _ _ := by
    have hsignals : callSignals ((hooks plus.add parts).mapEvents raw names).1 =
      rawSignals parts raw := callSignals_mapDshEvent raw names
    exact hsignals ▸ List.prefix_refl _
  goes raw names _ seen _ _ := by
    have hsignals : callSignals ((hooks plus.add parts).mapEvents raw names).1 =
      rawSignals parts raw := callSignals_mapDshEvent raw names
    rw [hsignals]
    exact ⟨rfl, rfl, trivial⟩

theorem pairedTurn (plus : NumberAdd) (parts : DshParts) (raws : List Notification)
    (raised : Bool) :
    PairedTurn (raws.flatMap (rawSignals parts.detecting))
      ((hooks plus.add parts.detecting).turn raws).crashed
      (sentEvents ((hooks plus.add parts.detecting).runTurn plus.add raws raised).emitted) :=
  tracksCalls.pairedTurn (fun raw names => mapped_mapDshEvent raw names) mapsSignals trivial plus
    raws raised

end DshRuntime

end WittyService
