import WittyService.CallTracking
import WittyService.OpenCodeRuntime

/-! The calls of a turn of OpenCode. The runtime keeps the calls that it started, so that only the
first event of a call that runs becomes its start. -/
namespace WittyService

namespace OpenCodeRuntime

variable {plus : NumberAdd} {normalizers : OpenCodeNormalizers}

def partCallId (part : Dict) : Json :=
  (Dict.getD part "callID" .null).orElse (Dict.getD part "id" (.str ""))

def partStatus (part : Dict) : Json :=
  match Dict.getD part "state" (.str "") with
  | .obj fields => Dict.getD fields "status" (.str "")
  | other => other

def toolSignals (part : Dict) : List CallSignal :=
  if textOf (some ((Dict.getD part "tool" .null).orElse (Dict.getD part "name" (.str "")))) =
      some "question" then []
  else
    match textOf (some (partStatus part)) with
    | some "running" => ((partCallId part).nonemptyStr.map .started).toList
    | some "completed" => ((partCallId part).nonemptyStr.map .answered).toList
    | some "error" => ((partCallId part).nonemptyStr.map .answered).toList
    | _ => []

def partSignals (raw : Dict) : List CallSignal :=
  match dictOf (Dict.get raw "part") with
  | none => []
  | some part => if textOf (Dict.get part "type") = some "tool" then toolSignals part else []

def rawSignals (raw : Dict) : List CallSignal :=
  if textOf (Dict.get raw "type") = some "message.part.updated" then partSignals raw else []

/-- The calls that were started are the ones that have been announced. -/
def KeepsAnnounced (started : List HashKey) (seen : List String) : Prop :=
  ∀ id, id ≠ "" → (HashKey.text id ∈ started ↔ id ∈ seen)

structure Keeps (seen : List String) (signals : List CallSignal)
    (events : List RuntimeTurnEvent) (started : List HashKey) : Prop where
  starts : firstStarts seen (callSignals events) = firstStarts seen signals
  announced : announcedAfter seen (callSignals events) = announcedAfter seen signals
  keeps : KeepsAnnounced started (announcedAfter seen signals)

variable {seen : List String} {started started' : List HashKey} {events : List RuntimeTurnEvent}

theorem keeps_of_eq {signals : List CallSignal} (hsignals : callSignals events = signals)
    (hkeeps : KeepsAnnounced started (announcedAfter seen signals)) :
    Keeps seen signals events started := by
  subst hsignals
  exact ⟨rfl, rfl, hkeeps⟩

theorem keepsAnnounced_push {id : String} (hkeeps : KeepsAnnounced started seen)
    (hseen : id ∉ seen) :
    KeepsAnnounced (.text id :: started) (announcedAfter seen [.started id]) := by
  intro other hother
  rw [announcedAfter, announcedAfter, if_neg hseen, List.mem_cons, HashKey.text.injEq,
    hkeeps other hother, List.mem_append, List.mem_singleton, or_comm]

theorem nonemptyStr_eq_none {value : Json} (h : value.truthy = false) :
    value.nonemptyStr = none := by
  cases value with
  | str text =>
    rw [Json.truthy, bne_eq_false_iff_eq] at h
    exact if_pos h
  | _ => rfl

variable {toolName toolCallId state : Json} {event : RuntimeTurnEvent} {raw : Dict}
  {kept : OpenCodeParts}

theorem keeps_of_not_text {key : HashKey}
    (hnone : toolCallId.nonemptyStr = none) (hkey : ∀ id, key ≠ .text id)
    (hkeeps : KeepsAnnounced started seen)
    (h : (if key ∈ started then
        if runningOutput state = "" then ([], started)
        else ([toolCallDeltaEvent toolCallId toolName (.str (runningOutput state))], started)
      else ([⟨.toolCallStarted, [("stage", .str "started"), ("tool_name", toolName),
        ("tool_call_id", toolCallId), ("arguments", Dict.getD state.asDict "input" (.obj []))]⟩],
          key :: started)) = (events, started')) :
    Keeps seen [] events started' := by
  split_ifs at h
  · cases h
    exact keeps_of_eq rfl hkeeps
  · cases h
    exact keeps_of_eq rfl hkeeps
  · cases h
    refine keeps_of_eq ?_ fun id hid => ?_
    · rw [callSignals_singleton, callSignal_started rfl, hnone]
      rfl
    · rw [List.mem_cons, or_iff_right fun h => hkey id h.symm]
      exact hkeeps id hid

theorem keeps_mapRunning (hkeeps : KeepsAnnounced started seen)
    (h : mapRunning toolName toolCallId state started = some (events, started')) :
    Keeps seen (toolCallId.nonemptyStr.map .started).toList events started' := by
  unfold mapRunning at h
  cases htruthy : toolCallId.truthy with
  | false =>
    rw [htruthy, Bool.not_false, if_pos rfl] at h
    cases h
    refine keeps_of_eq ?_ ?_
    · rw [callSignals_singleton, callSignal_started rfl]
    · rw [nonemptyStr_eq_none htruthy]
      exact hkeeps
  | true =>
    rw [htruthy, Bool.not_true, if_neg Bool.false_ne_true] at h
    obtain ⟨key, hkey, h⟩ := Option.map_eq_some_iff.mp h
    cases toolCallId with
    | str text =>
      have htext : text ≠ "" := bne_iff_ne.mp htruthy
      have hid : (Json.str text).nonemptyStr = some text := if_neg htext
      cases hkey
      rw [hid]
      change Keeps seen [.started text] events started'
      by_cases hseen : text ∈ seen
      · -- The call runs on, which announces nothing.
        have hquiet : callSignals events = [] ∧ started' = started := by
          rw [if_pos ((hkeeps text htext).mpr hseen)] at h
          split_ifs at h
          · cases h
            exact ⟨rfl, rfl⟩
          · cases h
            exact ⟨rfl, rfl⟩
        obtain ⟨hsignals, rfl⟩ := hquiet
        have hannounced : announcedAfter seen [.started text] = seen := by
          rw [announcedAfter, announcedAfter, if_pos hseen]
        refine ⟨?_, ?_, ?_⟩
        · rw [hsignals, firstStarts, firstStarts, if_pos hseen]
          rfl
        · rw [hsignals, hannounced]
          rfl
        · rw [hannounced]
          exact hkeeps
      · rw [if_neg fun hmem => hseen ((hkeeps text htext).mp hmem)] at h
        cases h
        refine keeps_of_eq ?_ (keepsAnnounced_push hkeeps hseen)
        rw [callSignals_singleton, callSignal_started rfl, hid]
        rfl
    | null => cases htruthy
    | bool b | num mantissa exponent =>
      cases hkey
      exact keeps_of_not_text rfl (by intro id h; cases h) hkeeps h
    | arr items | obj fields => cases hkey

theorem announcedAfter_answered (seen : List String) (id : Option String) :
    announcedAfter seen (id.map .answered).toList = seen := by
  cases id with
  | none | some id => rfl

theorem keeps_responseEvent {content : Json} {isError : Bool}
    {exitCode : Option Json} (hkeeps : KeepsAnnounced started seen) :
    Keeps seen (toolCallId.nonemptyStr.map .answered).toList
      [responseEvent toolName toolCallId content isError exitCode] started := by
  refine keeps_of_eq ?_ (by rw [announcedAfter_answered]; exact hkeeps)
  rw [callSignals_singleton, responseEvent, callSignal_answered]
  cases exitCode with
  | none | some code => rfl

theorem exists_of_mapCompleted
    (h : mapCompleted toolName toolCallId state = some event) : ∃ content exitCode,
      event = responseEvent toolName toolCallId content false exitCode := by
  unfold mapCompleted at h
  split at h
  · obtain ⟨metadata, -, h⟩ := Option.map_eq_some_iff.mp h
    cases h
    exact ⟨_, _, rfl⟩
  · cases h
    exact ⟨_, _, rfl⟩

theorem keeps_mapTool {part : Dict} (hkeeps : KeepsAnnounced started seen)
    (h : mapTool part started = some (events, started')) :
    Keeps seen (toolSignals part) events started' := by
  unfold mapTool at h
  unfold toolSignals
  by_cases hquestion : textOf (some ((Dict.getD part "tool" .null).orElse
      (Dict.getD part "name" (.str "")))) = some "question"
  · rw [if_pos hquestion] at h ⊢
    cases h
    exact keeps_of_eq rfl hkeeps
  · rw [if_neg hquestion] at h ⊢
    change (match textOf (some (partStatus part)) with
      | some "running" => _
      | some "completed" => _
      | some "error" => _
      | _ => _) = _ at h
    split at h
    · exact keeps_mapRunning hkeeps h
    · obtain ⟨event, hevent, h⟩ := Option.map_eq_some_iff.mp h
      obtain ⟨content, exitCode, rfl⟩ := exists_of_mapCompleted hevent
      cases h
      exact keeps_responseEvent hkeeps
    · cases h
      exact keeps_responseEvent hkeeps
    · cases h
      exact keeps_of_eq rfl hkeeps

theorem keeps_mapPartUpdated (hkeeps : KeepsAnnounced started seen)
    (h : mapPartUpdated plus.add raw started = some (events, started')) :
    Keeps seen (partSignals raw) events started' := by
  unfold mapPartUpdated at h
  unfold partSignals
  cases hpart : dictOf (Dict.get raw "part") with
  | none =>
    rw [hpart] at h
    cases h
    exact keeps_of_eq rfl hkeeps
  | some part =>
    rw [hpart] at h
    dsimp only at h ⊢
    split at h
    · next htype =>
      rw [htype, if_neg (by decide)]
      cases h
      refine keeps_of_eq ?_ hkeeps
      unfold DshRuntime.textEvent
      split
      · split_ifs
        · rfl
        · rfl
      · rfl
    · next htype =>
      rw [htype, if_pos rfl]
      exact keeps_mapTool hkeeps h
    · next htype =>
      rw [htype, if_neg (by decide)]
      cases h
      exact keeps_of_eq rfl hkeeps
    · next htype =>
      rw [htype, if_neg (by decide)]
      cases h
      refine keeps_of_eq ?_ hkeeps
      split_ifs
      · rfl
      · rfl
    · next _ htool _ _ =>
      rw [if_neg htool]
      cases h
      exact keeps_of_eq rfl hkeeps

theorem startedToolCallIds_trackPart (raw : Dict) (kept : OpenCodeParts) :
    (trackPart raw kept).startedToolCallIds = kept.startedToolCallIds := by
  unfold trackPart
  split_ifs
  · rfl
  · split
    · rfl
    · split
      · rfl
      · rfl

theorem keeps_mapOpencodeEvent {kept' : OpenCodeParts}
    (hkeeps : KeepsAnnounced kept.startedToolCallIds seen)
    (h : (mapOpencodeEvent plus.add normalizers raw kept).2 = some kept') :
    Keeps seen (rawSignals raw) (mapOpencodeEvent plus.add normalizers raw kept).1
      kept'.startedToolCallIds := by
  have hstarted := startedToolCallIds_trackPart raw kept
  by_cases htype : textOf (Dict.get raw "type") = some "message.part.updated"
  · rw [mapOpencodeEvent_updated htype] at h ⊢
    rw [rawSignals, if_pos htype]
    split at h
    · next hmap =>
      cases h
      exact keeps_mapPartUpdated (hstarted.symm ▸ hkeeps) hmap
    · cases h
  · rw [kept_of_not_updated htype] at h
    cases h
    rw [rawSignals, if_neg htype, hstarted]
    refine keeps_of_eq (callSignals_eq_nil fun e he => ?_) hkeeps
    have hquiet : ∀ type ∈ mappedTypes (textOf (Dict.get raw "type")),
        type ≠ .toolCallStarted ∧ type ≠ .toolCallResponse := by
      unfold mappedTypes
      split
      · exact absurd ‹_› htype
      all_goals decide
    obtain ⟨hcall, hresponse⟩ := hquiet e.type (types_mapOpencodeEvent raw kept e he)
    exact callSignal_eq_none hcall hresponse

theorem mapOpencodeEvent_none (h : (mapOpencodeEvent plus.add normalizers raw kept).2 = none) :
    (mapOpencodeEvent plus.add normalizers raw kept).1 = [] := by
  by_cases htype : textOf (Dict.get raw "type") = some "message.part.updated"
  · rw [mapOpencodeEvent_updated htype] at h ⊢
    split at h
    · cases h
    · rfl
  · rw [kept_of_not_updated htype] at h
    cases h

theorem isMapped_mapOpencodeEvent (raw : Dict) (kept : OpenCodeParts) :
    ∀ e ∈ (mapOpencodeEvent plus.add normalizers raw kept).1, e.type.isMapped = true := by
  refine isMapped_of_types (types_mapOpencodeEvent raw kept) ?_
  unfold mappedTypes
  split
  all_goals decide

theorem onMappedEvent_calls {t t' : OpenCodeTurn}
    {out : List RuntimeTurnEvent} (h : onMappedEvent event t = some (out, t')) :
    out.filter RuntimeTurnEvent.isPairing = [event].filter RuntimeTurnEvent.isPairing ∧
      t'.artifactInputs = t.artifactInputs := by
  unfold onMappedEvent at h
  split at h
  · obtain ⟨delta, -, h⟩ := Option.map_eq_some_iff.mp h
    cases h
    exact ⟨rfl, rfl⟩
  · next htype =>
    split_ifs at h
    · cases h
      exact ⟨rfl, rfl⟩
    · cases h
      refine ⟨?_, rfl⟩
      have hquiet : ∀ event : RuntimeTurnEvent, event.type = .messageCompleted →
          [event].filter RuntimeTurnEvent.isPairing = [] := by
        intro event htype
        refine List.filter_eq_nil_iff.mpr fun e he => ?_
        rw [List.mem_singleton.mp he, RuntimeTurnEvent.isPairing, htype]
        exact Bool.false_ne_true
      rw [hquiet event htype]
      exact hquiet _ htype
  · cases h
    exact ⟨rfl, rfl⟩

theorem tracksCalls : TracksCalls (hooks plus.add normalizers) normalizers.artifacts
    OpenCodeTurn.artifactInputs RuntimeTurnEvent.NoArtifact where
  inputs_handling := rfl
  mapped_noArtifact _ h := h
  errors_quiet _ _ h := nomatch h
  handled := by
    intro event t out t' _ hhandle
    have hmap : ((onMappedEvent event t).bind fun mapped =>
        ((RuntimeBase.onArtifactEvent normalizers.artifacts event mapped.2.artifactInputs).map
          fun artifacts => (artifacts.1, { mapped.2 with artifactInputs := artifacts.2 })).map
            fun artifacts => (mapped.1 ++ artifacts.1, artifacts.2)) = some (out, t') := hhandle
    obtain ⟨⟨mapped, kept⟩, hmapped, hmap⟩ := Option.bind_eq_some_iff.mp hmap
    obtain ⟨hevents, hinputs⟩ := onMappedEvent_calls hmapped
    rw [Option.map_map, Option.map_eq_some_iff] at hmap
    obtain ⟨⟨artifacts, inputs'⟩, hartifacts, heq⟩ := hmap
    cases heq
    refine ⟨artifacts, ?_, hinputs ▸ hartifacts⟩
    rw [List.filter_append, hevents, filter_isPairing_artifacts hartifacts]

theorem mapsSignals : (hooks plus.add normalizers).MapsSignals rawSignals
    fun kept seen => KeepsAnnounced kept.startedToolCallIds seen where
  raised raw kept seen _ hraised := by
    have hnil : ((hooks plus.add normalizers).mapEvents raw kept).1 = [] :=
      mapOpencodeEvent_none hraised
    rw [hnil]
    exact List.nil_prefix
  goes raw kept kept' seen hkeeps hgoes := by
    obtain ⟨hstarts, hannounced, hkept⟩ := keeps_mapOpencodeEvent hkeeps hgoes
    exact ⟨hstarts, hannounced, hkept⟩

theorem pairedTurn (plus : NumberAdd) (openCodeError : Dict → Dict)
    (loads : String → Option Json) (raws : List Dict) (raised : Bool) :
    PairedTurn (raws.flatMap rawSignals)
      ((hooks plus.add ⟨openCodeError, ArtifactDetector.parts loads⟩).turn raws).crashed
      (sentEvents ((hooks plus.add ⟨openCodeError, ArtifactDetector.parts loads⟩).runTurn plus.add
        raws raised).emitted) := by
  have hmapped (raw : Dict) (kept : OpenCodeParts) : ∀ e ∈ (mapOpencodeEvent plus.add
      ⟨openCodeError, ArtifactDetector.parts loads⟩ raw kept).1, e.NoArtifact :=
    fun e he => noArtifact_of_isMapped (isMapped_mapOpencodeEvent raw kept e he)
  have hnone : KeepsAnnounced [] [] := fun id _ =>
    ⟨fun h => absurd h List.not_mem_nil, fun h => absurd h List.not_mem_nil⟩
  exact tracksCalls.pairedTurn hmapped mapsSignals hnone plus raws raised

end OpenCodeRuntime

end WittyService
