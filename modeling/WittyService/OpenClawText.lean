import WittyService.OpenClawEndings
import WittyService.TurnEvents
import WittyService.UsageReports

/-! The text of the last message of a gateway turn, as its deltas bring it. The rest that no delta
has brought is sent before the message is completed, but what the deltas have brought is counted
from the beginning of the turn. -/
namespace WittyService

namespace OpenClawRuntime

variable {plus : NumberAdd} {parts : OpenClawParts} {t : OpenClawTurn} {event : RuntimeTurnEvent}
  {events : List RuntimeTurnEvent}

variable (add : Json → Json → Json) (payload data : Dict)

theorem exists_handle (parts : OpenClawParts) (t : OpenClawTurn)
    (hkey : HasKey event) : ∃ artifacts inputs,
      (hooks add parts).handle event t =
        some ((onMappedEvent event t).1 ++ artifacts,
          { (onMappedEvent event t).2 with artifactInputs := inputs }) ∧
      RuntimeBase.onArtifactEvent parts.artifacts event (onMappedEvent event t).2.artifactInputs =
        some (artifacts, inputs) := by
  obtain ⟨⟨artifacts, inputs⟩, hout⟩ := Option.isSome_iff_exists.mp
    (RuntimeBase.onArtifactEvent_isSome parts.artifacts (onMappedEvent event t).2.artifactInputs
      hkey)
  refine ⟨artifacts, inputs, ?_, hout⟩
  have hhandle : (hooks add parts).handle event t =
      ((RuntimeBase.onArtifactEvent parts.artifacts event
        (onMappedEvent event t).2.artifactInputs).map fun artifacts =>
          (artifacts.1, { (onMappedEvent event t).2 with artifactInputs := artifacts.2 })).map
        fun artifacts => ((onMappedEvent event t).1 ++ artifacts.1, artifacts.2) := rfl
  rw [hhandle, hout]
  rfl

variable {type : TurnEventType} {message : Dict} {raws : List GatewayEvent}

theorem sentText_artifacts (htype : type.IsDelta) {parts : ArtifactParts}
    {inputs inputs' : ArtifactInputs}
    (h : RuntimeBase.onArtifactEvent parts event inputs = some (events, inputs')) :
    sentText type events = [] := by
  refine sentText_eq_nil fun e he hevent => ?_
  obtain he | he := RuntimeBase.type_of_mem_artifacts h e he
  · rw [hevent] at he
    obtain rfl | rfl := htype
    · cases he
    · cases he
  · rw [hevent] at he
    obtain rfl | rfl := htype
    · cases he
    · cases he

theorem onThinkingEvent_frame (event : RuntimeTurnEvent) (t : OpenClawTurn) :
    (∀ e ∈ (onThinkingEvent event t).1, e.type = .thinkingDelta ∨ e = event) ∧
      (onThinkingEvent event t).2.accDelta = t.accDelta := by
  unfold onThinkingEvent
  split
  · exact ⟨fun e he => .inr (List.mem_singleton.mp he), rfl⟩
  · dsimp only
    split
    · refine ⟨fun e he => ?_, rfl⟩
      obtain rfl | he := List.mem_cons.mp he
      · exact .inl rfl
      · exact .inr (List.mem_singleton.mp he)
    · exact ⟨fun e he => .inr (List.mem_singleton.mp he), rfl⟩

theorem onThinkingDeltaEvent_frame (event : RuntimeTurnEvent) (t : OpenClawTurn) :
    (∀ e ∈ (onThinkingDeltaEvent event t).1, e.type = event.type) ∧
      (onThinkingDeltaEvent event t).2.accDelta = t.accDelta := by
  unfold onThinkingDeltaEvent
  split
  · exact ⟨fun e he => absurd he List.not_mem_nil, rfl⟩
  · dsimp only
    split_ifs
    all_goals first
      | exact ⟨fun e he => absurd he List.not_mem_nil, rfl⟩
      | exact ⟨fun e he => by rw [List.mem_singleton.mp he], rfl⟩

theorem onMappedEvent_text (h : event.type ≠ .messageCompleted) (t : OpenClawTurn) :
    sentText .messageDelta (onMappedEvent event t).1 = eventText .messageDelta event ∧
      (onMappedEvent event t).2.accDelta = t.accDelta ++ eventText .messageDelta event := by
  have hsingle := @sentText_singleton .messageDelta event
  unfold onMappedEvent
  split
  · next htype =>
    obtain ⟨hevents, hacc⟩ := onThinkingEvent_frame event t
    have hnone : eventText .messageDelta event = [] := if_neg (by rw [htype]; decide)
    rw [hacc, hnone, List.append_nil]
    refine ⟨sentText_eq_nil fun e he => ?_, rfl⟩
    obtain he | rfl := hevents e he
    · rw [he]
      decide
    · rw [htype]
      decide
  · next htype =>
    obtain ⟨hevents, hacc⟩ := onThinkingDeltaEvent_frame event t
    have hnone : eventText .messageDelta event = [] := if_neg (by rw [htype]; decide)
    rw [hacc, hnone, List.append_nil]
    refine ⟨sentText_eq_nil fun e he => ?_, rfl⟩
    rw [hevents e he, htype]
    decide
  · next htype =>
    refine ⟨hsingle, ?_⟩
    rw [eventText, if_pos htype]
  · next htype => exact absurd htype h
  · next hdelta _ =>
    have hnone : eventText .messageDelta event = [] := if_neg hdelta
    exact ⟨hsingle, by rw [hnone, List.append_nil]⟩

def missingText (acc full : List Char) : List Char :=
  if acc.length < full.length ∧ acc <+: full then full.drop acc.length else []

theorem onMappedEvent_completed {full : String}
    (h : textOf (Dict.get payload "text") = some full) (t : OpenClawTurn) :
    sentText .messageDelta (onMappedEvent ⟨.messageCompleted, payload⟩ t).1 =
      missingText t.accDelta full.toList := by
  have hdelta : ∀ missing : List Char,
      sentText .messageDelta [⟨.messageDelta, [("delta", .str (String.ofList missing))]⟩,
        ⟨.messageCompleted, payload⟩] = missing := by
    intro missing
    have hget : textOf (Dict.get [("delta", .str (String.ofList missing))] "delta") =
        some (String.ofList missing) := rfl
    simp only [sentText, eventText, List.flatMap_cons, List.flatMap_nil, hget]
    simp
  unfold onMappedEvent missingText
  rw [h]
  dsimp only
  split
  · exact hdelta _
  · rfl

theorem handleRun_text (hkeys : ∀ e ∈ events, HasKey e)
    (hopen : ∀ e ∈ events, e.type ≠ .messageCompleted) (t : OpenClawTurn) : ∃ t',
      ((hooks plus.add parts).handleRun t events).2 = some t' ∧
      t'.accDelta = t.accDelta ++ sentText .messageDelta events ∧
      sentText .messageDelta ((hooks plus.add parts).handleRun t events).1 =
        sentText .messageDelta events := by
  induction events generalizing t with
  | nil => exact ⟨t, rfl, (List.append_nil _).symm, rfl⟩
  | cons event events ih =>
    obtain ⟨hkey, hkeys⟩ := List.forall_mem_cons.mp hkeys
    obtain ⟨hevent, hopen⟩ := List.forall_mem_cons.mp hopen
    obtain ⟨artifacts, inputs, hhandle, hartifacts⟩ := exists_handle plus.add parts t hkey
    obtain ⟨htext, hacc⟩ := onMappedEvent_text hevent t
    obtain ⟨t', hrun, hacc', htext'⟩ := ih hkeys hopen
      { (onMappedEvent event t).2 with artifactInputs := inputs }
    have hquiet : sentText .messageDelta artifacts = [] := sentText_artifacts (.inl rfl) hartifacts
    rw [RuntimeHooks.handleRun_some hhandle]
    refine ⟨t', hrun, ?_, ?_⟩
    · rw [hacc', hacc, sentText_cons, List.append_assoc]
    · rw [sentText_append, sentText_append, htext, htext', hquiet, List.append_nil,
        sentText_cons]

def assistantText (raw : GatewayEvent) : List Char :=
  if raw.type = "agent" ∧ textOf (Dict.get raw.payload "stream") = some "assistant" then
    (((dictOf (Dict.get raw.payload "data")).bind fun data =>
      textOf (Dict.get data "delta")).getD "").toList
  else []

def completesMessage (raw : GatewayEvent) : Bool :=
  raw.type = "session.message" && (dictOf (Dict.get raw.payload "message")).any isFinal

theorem mapped_hooks (parts : OpenClawParts) (raws : List GatewayEvent) :
    (hooks add parts).mapped raws = raws.flatMap (mapGatewayEvents add parts) := by
  have hrun : ∀ s, ((hooks add parts).mapRun s raws).1 =
      raws.flatMap (mapGatewayEvents add parts) := by
    intro s
    induction raws generalizing s with
    | nil => rfl
    | cons raw raws ih =>
      rw [List.flatMap_cons, ← ih ()]
      rfl
  exact hrun _

def Silent (event : RuntimeTurnEvent) : Prop :=
  (event.type ≠ .messageDelta && event.type ≠ .messageCompleted) = true

theorem Silent.not_delta (h : Silent event) : event.type ≠ .messageDelta :=
  of_decide_eq_true (Bool.and_eq_true_iff.mp h).1

theorem Silent.not_completed (h : Silent event) : event.type ≠ .messageCompleted :=
  of_decide_eq_true (Bool.and_eq_true_iff.mp h).2

theorem silent_extractThinkingEvents (message : Dict) :
    ∀ e ∈ extractThinkingEvents message, Silent e := by
  intro e he
  obtain ⟨item, -, he⟩ := List.mem_flatMap.mp he
  split at he
  · rw [List.mem_singleton.mp he]
    rfl
  · cases he

theorem silent_usageEvents (usage : Dict) : ∀ e ∈ usageEvents usage, Silent e := by
  intro e he
  unfold usageEvents at he
  split at he
  · rw [List.mem_singleton.mp he]
    rfl
  · cases he

theorem silent_toolCalls (message : Dict) : ∀ e ∈ toolCalls message, Silent e := by
  intro e he
  obtain ⟨item, -, rfl⟩ := List.mem_map.mp he
  rfl

theorem silent_mapAgentToolStream : ∀ e ∈ mapAgentToolStream data, Silent e := by
  intro e he
  unfold mapAgentToolStream at he
  dsimp only at he
  split at he
  · rw [List.mem_singleton.mp he]
    rfl
  · rw [List.mem_singleton.mp he]
    rfl
  · split at he
    · rw [List.mem_singleton.mp he]
      rfl
    · cases he
  · cases he

theorem silent_mapLifecycle : ∀ e ∈ mapLifecycle parts data, Silent e := by
  intro e he
  unfold mapLifecycle at he
  split at he
  · rw [List.mem_singleton.mp he]
    rfl
  · rw [List.mem_singleton.mp he]
    rfl
  · rw [List.mem_singleton.mp he]
    rfl
  · cases he

theorem silent_mapSessionMessage (h : isFinal message = false) :
    ∀ e ∈ mapSessionMessage plus.add message, Silent e := by
  intro e he
  unfold mapSessionMessage at he
  split at he
  · rw [mapToolResultMessage, List.mem_singleton] at he
    rw [he]
    rfl
  · next hrole =>
    split at he
    · obtain he | he := List.mem_append.mp he
      · obtain he | he := List.mem_append.mp he
        · exact silent_usageEvents _ e he
        · exact silent_extractThinkingEvents _ e he
      · exact silent_toolCalls _ e he
    · next hstop =>
      rw [not_not] at hstop
      obtain he | he := List.mem_append.mp he
      · obtain he | he := List.mem_append.mp he
        · exact silent_usageEvents _ e he
        · exact silent_toolCalls _ e he
      · split at he
        · next htext =>
          rw [isFinal, hrole, hstop, decide_eq_true htext] at h
          cases h
        · exact silent_extractThinkingEvents _ e he
  · exact silent_extractThinkingEvents _ e he

theorem mapAgent_text : (∀ e ∈ mapAgent parts payload, e.type ≠ .messageCompleted) ∧
      sentText .messageDelta (mapAgent parts payload) =
        if textOf (Dict.get payload "stream") = some "assistant" then
          (((dictOf (Dict.get payload "data")).bind fun data =>
            textOf (Dict.get data "delta")).getD "").toList
        else [] := by
  have hsilent : ∀ events : List RuntimeTurnEvent, (∀ e ∈ events, Silent e) →
      (∀ e ∈ events, e.type ≠ .messageCompleted) ∧ sentText .messageDelta events = [] :=
    fun events h => ⟨fun e he => (h e he).not_completed,
      sentText_eq_nil fun e he => (h e he).not_delta⟩
  unfold mapAgent
  split
  · next data hstream hdata =>
    rw [hstream, if_pos rfl, hdata, Option.bind_some, DshRuntime.textEvent]
    cases htext : textOf (Dict.get data "delta") with
    | none => exact ⟨fun e he => absurd he List.not_mem_nil, rfl⟩
    | some text =>
      dsimp only
      split
      · next hnil =>
        rw [hnil]
        exact ⟨fun e he => absurd he List.not_mem_nil, rfl⟩
      · refine ⟨fun e he => ?_, ?_⟩
        · rw [List.mem_singleton.mp he]
          exact TurnEventType.noConfusion
        · have hget : textOf (Dict.get [("delta", .str text)] "delta") = some text := rfl
          simp [sentText, eventText, hget]
  · next data hstream hdata =>
    rw [hstream, if_neg (by decide)]
    refine hsilent _ fun e he => ?_
    split at he
    · rw [List.mem_singleton.mp he]
      rfl
    · cases he
  · next data hstream hdata =>
    rw [hstream, if_neg (by decide)]
    exact hsilent _ (silent_mapAgentToolStream data)
  · next data hstream hdata =>
    rw [hstream, if_neg (by decide)]
    exact hsilent _ (silent_mapLifecycle data)
  · next hassistant _ _ _ =>
    refine ⟨fun e he => absurd he List.not_mem_nil, ?_⟩
    split
    · next hstream =>
      cases hdata : dictOf (Dict.get payload "data") with
      | none => rfl
      | some data => exact absurd hdata (hassistant data hstream)
    · rfl

theorem mapGatewayEvents_text {raw : GatewayEvent} (h : completesMessage raw = false) :
    (∀ e ∈ mapGatewayEvents plus.add parts raw, e.type ≠ .messageCompleted) ∧
      sentText .messageDelta (mapGatewayEvents plus.add parts raw) = assistantText raw := by
  unfold mapGatewayEvents assistantText
  have hother (hagent : raw.type ≠ "agent") : (if raw.type = "agent" ∧
      textOf (Dict.get raw.payload "stream") = some "assistant" then
        (((dictOf (Dict.get raw.payload "data")).bind fun data =>
          textOf (Dict.get data "delta")).getD "").toList
      else []) = [] := if_neg fun hand => hagent hand.1
  by_cases hchanged : raw.type = "sessions.changed"
  · rw [if_pos hchanged, hother (by rw [hchanged]; decide), mapSessionsChanged]
    split
    · refine ⟨fun e he => ?_, rfl⟩
      rw [List.mem_singleton.mp he]
      exact TurnEventType.noConfusion
    · exact ⟨fun e he => absurd he List.not_mem_nil, rfl⟩
  · rw [if_neg hchanged]
    by_cases hagent : raw.type = "agent"
    · rw [if_pos hagent]
      simpa only [hagent, true_and] using mapAgent_text raw.payload
    · rw [if_neg hagent, hother hagent]
      split
      · next hmessage =>
        split
        · next message hdict =>
          rw [completesMessage, hmessage, hdict] at h
          have hsilent : ∀ e ∈ mapSessionMessage plus.add message, Silent e :=
            silent_mapSessionMessage h
          exact ⟨fun e he => (hsilent e he).not_completed,
            sentText_eq_nil fun e he => (hsilent e he).not_delta⟩
        · exact ⟨fun e he => absurd he List.not_mem_nil, rfl⟩
      · exact ⟨fun e he => absurd he List.not_mem_nil, rfl⟩

theorem hasKey_of_mem_mapped {e : RuntimeTurnEvent}
    (h : e ∈ (hooks plus.add parts).mapped raws) : HasKey e := by
  rw [mapped_hooks] at h
  obtain ⟨raw, -, he⟩ := List.mem_flatMap.mp h
  exact hasKey_mapGatewayEvents raw e he

theorem turn_text (plus : NumberAdd) (parts : OpenClawParts)
    (hopen : ∀ raw ∈ raws, completesMessage raw = false) : ∃ t,
      ((hooks plus.add parts).handleRun {}
        (dropRepeated [] ((hooks plus.add parts).mapped raws))).2 = some t ∧
      t.accDelta = raws.flatMap assistantText ∧
      sentText .messageDelta ((hooks plus.add parts).handleRun {}
        (dropRepeated [] ((hooks plus.add parts).mapped raws))).1 =
          raws.flatMap assistantText := by
  have htext : sentText .messageDelta ((hooks plus.add parts).mapped raws) =
      raws.flatMap assistantText := by
    rw [mapped_hooks]
    induction raws with
    | nil => rfl
    | cons raw raws ih =>
      obtain ⟨hraw, hraws⟩ := List.forall_mem_cons.mp hopen
      rw [List.flatMap_cons, List.flatMap_cons, sentText_append, ih hraws,
        (mapGatewayEvents_text hraw).2]
  have hkeys : ∀ e ∈ dropRepeated [] ((hooks plus.add parts).mapped raws), HasKey e :=
    fun e he => hasKey_of_mem_mapped (mem_of_mem_dropRepeated he)
  have hcompleted : ∀ e ∈ dropRepeated [] ((hooks plus.add parts).mapped raws),
      e.type ≠ .messageCompleted := by
    intro e he
    have hmem := mem_of_mem_dropRepeated he
    rw [mapped_hooks] at hmem
    obtain ⟨raw, hraw, he⟩ := List.mem_flatMap.mp hmem
    exact (mapGatewayEvents_text (hopen raw hraw)).1 e he
  obtain ⟨t, hrun, hacc, hdelta⟩ := @handleRun_text plus parts _ hkeys hcompleted {}
  rw [sentText_dropRepeated (.inl rfl), htext] at hacc hdelta
  exact ⟨t, hrun, hacc, hdelta⟩

def gatewayText (type : TurnEventType) (plus : NumberAdd) (parts : OpenClawParts)
    (raws : List GatewayEvent) : List Char :=
  sentText type (sentEvents ((hooks plus.add parts).runTurn plus.add raws false).emitted)

theorem gatewayText_eq (htype : type.IsDelta) (plus : NumberAdd)
    (parts : OpenClawParts) (raws : List GatewayEvent) :
    gatewayText type plus parts raws = sentText type ((hooks plus.add parts).handleRun {}
      (dropRepeated [] ((hooks plus.add parts).mapped raws))).1 :=
  sentText_runTurn htype plus _ raws

theorem handleRun_silent (hkeys : ∀ e ∈ events, HasKey e) (hsilent : ∀ e ∈ events, Silent e)
    (seen : List String) (t : OpenClawTurn) : ∃ t',
      ((hooks plus.add parts).handleRun t (dropRepeated seen events)).2 = some t' ∧
      t'.accDelta = t.accDelta ∧
      sentText .messageDelta
        ((hooks plus.add parts).handleRun t (dropRepeated seen events)).1 = [] := by
  have htext : sentText .messageDelta (dropRepeated seen events) = [] :=
    sentText_eq_nil fun e he => (hsilent e (mem_of_mem_dropRepeated he)).not_delta
  obtain ⟨t', hrun, hacc, hdelta⟩ := @handleRun_text plus parts _
    (fun e he => hkeys e (mem_of_mem_dropRepeated he))
    (fun e he => (hsilent e (mem_of_mem_dropRepeated he)).not_completed) t
  rw [htext, List.append_nil] at hacc
  exact ⟨t', hrun, hacc, hdelta.trans htext⟩

theorem handleRun_final (hrole : textOf (Dict.get message "role") = some "assistant")
    (hstop : textOf (Dict.get message "stopReason") = some "stop")
    (hkeys : ∀ e ∈ mapSessionMessage plus.add message, HasKey e) (seen : List String)
    (t : OpenClawTurn) :
    sentText .messageDelta ((hooks plus.add parts).handleRun t
      (dropRepeated seen (mapSessionMessage plus.add message))).1 =
        missingText t.accDelta (messageText message).toList := by
  have hquiet : ∀ e ∈ usageEvents
      (normalizeUsagePayload plus.add (Dict.getD message "usage" .null).asDict) ++
        toolCalls message, Silent e := by
    intro e he
    obtain he | he := List.mem_append.mp he
    · exact silent_usageEvents _ e he
    · exact silent_toolCalls _ e he
  have hstopped : ¬ textOf (Dict.get message "stopReason") ≠ some "stop" := not_not.mpr hstop
  by_cases htext : messageText message = ""
  · have hsilent : ∀ e ∈ mapSessionMessage plus.add message, Silent e := by
      refine silent_mapSessionMessage ?_
      rw [isFinal, decide_eq_false (not_not.mpr htext), Bool.and_false]
    obtain ⟨t', -, -, hdelta⟩ := @handleRun_silent plus parts _ hkeys hsilent seen t
    rw [hdelta, htext, missingText, if_neg fun h => Nat.not_lt_zero _ h.1]
  · have hmap : mapSessionMessage plus.add message = usageEvents
        (normalizeUsagePayload plus.add (Dict.getD message "usage" .null).asDict) ++
          toolCalls message ++ [⟨.messageCompleted, [("text", .str (messageText message))]⟩] := by
      unfold mapSessionMessage
      rw [hrole]
      rw [if_neg hstopped, if_pos htext]
      rfl
    rw [hmap] at hkeys ⊢
    obtain ⟨hkeysQuiet, hkeyCompleted⟩ := List.forall_mem_append.mp hkeys
    obtain ⟨t', hrun, hacc, hdelta⟩ := @handleRun_silent plus parts _ hkeysQuiet hquiet seen t
    obtain ⟨artifacts, inputs, hhandle, hartifacts⟩ := exists_handle plus.add parts t'
      (hkeyCompleted _ (List.mem_singleton_self _))
    have hnone : sentText .messageDelta artifacts = [] := sentText_artifacts (.inl rfl) hartifacts
    have hcompleted := onMappedEvent_completed [("text", .str (messageText message))] rfl t'
    rw [dropRepeated_append, RuntimeHooks.handleRun_append_some hrun, sentText_append, hdelta,
      List.nil_append, ← hacc, ← hcompleted]
    have hkept : ∀ seen, dropRepeated seen
        [⟨.messageCompleted, [("text", .str (messageText message))]⟩] =
          [⟨.messageCompleted, [("text", .str (messageText message))]⟩] := fun _ => rfl
    rw [hkept, RuntimeHooks.handleRun_some hhandle, sentText_append, sentText_append, hnone]
    exact (List.append_nil _).trans (List.append_nil _)

end OpenClawRuntime

open OpenClawRuntime

/-- A turn up to the end of its last message: the raw events of the messages before it, what
streams the beginning of its text, and the message. -/
structure TextTurn where
  earlier : List GatewayEvent
  streamed : List GatewayEvent
  final : GatewayEvent
  message : Dict
  earlier_open : ∀ raw ∈ earlier, completesMessage raw = false
  streamed_open : ∀ raw ∈ streamed, completesMessage raw = false
  final_type : final.type = "session.message"
  final_message : dictOf (Dict.get final.payload "message") = some message
  assistant : textOf (Dict.get message "role") = some "assistant"
  stops : textOf (Dict.get message "stopReason") = some "stop"
  begins : streamed.flatMap assistantText <+: (messageText message).toList

namespace TextTurn

def raws (turn : TextTurn) : List GatewayEvent := turn.earlier ++ turn.streamed ++ [turn.final]

def text (turn : TextTurn) : List Char := (messageText turn.message).toList

/-- The deltas that are sent for the last message make up its text. -/
def Complete (plus : NumberAdd) (parts : OpenClawParts) (turn : TextTurn) : Prop :=
  gatewayText .messageDelta plus parts turn.raws =
    gatewayText .messageDelta plus parts turn.earlier ++ turn.text

theorem gatewayText_raws (plus : NumberAdd) (parts : OpenClawParts) (turn : TextTurn) :
    gatewayText .messageDelta plus parts turn.raws =
      turn.earlier.flatMap assistantText ++ turn.streamed.flatMap assistantText ++
        missingText
          (turn.earlier.flatMap assistantText ++ turn.streamed.flatMap assistantText)
          turn.text := by
  have hopen : ∀ raw ∈ turn.earlier ++ turn.streamed, completesMessage raw = false :=
    fun raw hraw => (List.mem_append.mp hraw).elim (turn.earlier_open raw) (turn.streamed_open raw)
  obtain ⟨t, hrun, hacc, hdelta⟩ := turn_text plus parts hopen
  have hfinal : mapGatewayEvents plus.add parts turn.final =
      mapSessionMessage plus.add turn.message := by
    unfold mapGatewayEvents
    rw [turn.final_type, turn.final_message]
    rfl
  have hmapped : (hooks plus.add parts).mapped turn.raws =
      (hooks plus.add parts).mapped (turn.earlier ++ turn.streamed) ++
        mapSessionMessage plus.add turn.message := by
    rw [mapped_hooks, mapped_hooks, raws, List.flatMap_append, List.flatMap_singleton, hfinal]
  have hkeys : ∀ e ∈ mapSessionMessage plus.add turn.message, HasKey e := by
    rw [← hfinal]
    exact hasKey_mapGatewayEvents turn.final
  rw [gatewayText_eq (.inl rfl), hmapped, dropRepeated_append,
    RuntimeHooks.handleRun_append_some hrun, sentText_append, hdelta,
    handleRun_final turn.assistant turn.stops hkeys, hacc, List.flatMap_append]
  rfl

theorem append_missingText_iff {before begun full : List Char} (h : begun <+: full) :
    begun ++ missingText (before ++ begun) full = full ↔ before = [] ∨ begun = full := by
  obtain ⟨rest, rfl⟩ := h
  unfold missingText
  constructor
  · intro heq
    have hrest := List.append_cancel_left heq
    by_cases hbefore : before = []
    · exact .inl hbefore
    · have hpos := List.length_pos_iff.mpr hbefore
      right
      split at hrest
      · -- What is taken off for the earlier texts is missing from the rest.
        have hlength := congrArg List.length hrest
        rw [List.length_drop, List.length_append, List.length_append] at hlength
        have hnil : rest = [] := List.length_eq_zero_iff.mp (by omega)
        rw [hnil, List.append_nil]
      · rw [← hrest, List.append_nil]
  · rintro (rfl | hfull)
    · rw [List.nil_append, List.length_append]
      split
      · rw [List.drop_left]
      · next hnot =>
        have hnil : rest = [] := by
          by_contra hne
          have hpos := List.length_pos_iff.mpr hne
          exact hnot ⟨by omega, List.prefix_append begun rest⟩
        rw [hnil]
    · have hnil : rest = [] := List.append_right_eq_self.mp hfull.symm
      subst hnil
      rw [List.append_nil, if_neg, List.append_nil]
      rintro ⟨hlt, -⟩
      rw [List.length_append] at hlt
      omega

end TextTurn

/-- The text of the last message is complete exactly when the messages before it have brought none,
or its own deltas have brought all of it. -/
theorem text_complete_iff (plus : NumberAdd) (parts : OpenClawParts) (turn : TextTurn) :
    turn.Complete plus parts ↔
      turn.earlier.flatMap assistantText = [] ∨
        turn.streamed.flatMap assistantText = turn.text := by
  obtain ⟨t, -, -, hearlier⟩ := turn_text plus parts turn.earlier_open
  rw [TextTurn.Complete, TextTurn.gatewayText_raws, gatewayText_eq (.inl rfl), hearlier,
    List.append_assoc, List.append_cancel_left_eq]
  exact TextTurn.append_missingText_iff turn.begins

namespace TextTurn

def assistantDelta (delta : String) : GatewayEvent :=
  ⟨"agent", [("stream", .str "assistant"), ("data", .obj [("delta", .str delta)])]⟩

def assistantMessage (stopReason : String) (content : List Json) : Dict :=
  [("role", .str "assistant"), ("stopReason", .str stopReason), ("content", .arr content)]

def sessionMessage (message : Dict) : GatewayEvent :=
  ⟨"session.message", [("message", .obj message)]⟩

def plainParts : OpenClawParts where
  lifecycleError _ := []
  artifacts := ⟨fun _ => [], fun _ => none, fun _ _ => none⟩

/-- A call with a text before it, and an answer whose first two characters are streamed. -/
def textAfterToolCall : TextTurn where
  earlier := [assistantDelta "Let me check",
    sessionMessage (assistantMessage "toolUse" [.obj [("type", .str "text"),
      ("text", .str "Let me check")], .obj [("type", .str "toolCall"), ("id", .str "1"),
      ("name", .str "read")]])]
  streamed := [assistantDelta "Do"]
  final := sessionMessage (assistantMessage "stop"
    [.obj [("type", .str "text"), ("text", .str "Done!")]])
  message := assistantMessage "stop" [.obj [("type", .str "text"), ("text", .str "Done!")]]
  earlier_open := by decide +kernel
  streamed_open := by decide +kernel
  final_type := rfl
  final_message := rfl
  assistant := rfl
  stops := rfl
  begins := by decide +kernel

/-- The text of the first message is no beginning of the answer, so the rest of the answer is not
sent. -/
theorem textAfterToolCall_not_complete : ¬ textAfterToolCall.Complete addWhole plainParts := by
  unfold Complete
  decide +kernel

end TextTurn

end WittyService
