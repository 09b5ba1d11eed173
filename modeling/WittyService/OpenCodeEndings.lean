import WittyService.OpenClawEndings
import WittyService.OpenCodeRuntime

/-! `OpenCodeClient.stream_turn`: the server-sent events a turn passes on. What ends a turn is
passed on once the assistant has been active, so that the ends of earlier turns are not. -/
namespace WittyService

open ReadingLoop

/-- A line of the response: none with data, or one whose data is parsed, where that is possible. -/
inductive SseLine where
  | other
  | data (parsed : Option Json)

structure SseState where
  turnActive : Bool := false
  userMessageIds : List String := []

/-- A turn as the client sees it: whether the session is found, the stream opened and the prompt
accepted, the lines that come then, and whether the transport fails behind them. -/
structure SseTurn where
  opens : Bool
  lines : List SseLine
  fails : Bool

namespace OpenCodeClient

def INTERNAL_EVENT_TYPES : List String := ["server.connected", "server.heartbeat", "sync"]

def normalizeEvent (raw : Dict) : Dict :=
  match dictOf (Dict.get raw "properties") with
  | some props =>
    props.foldl (fun result kv => Dict.set result kv.1 kv.2) (Dict.pop raw "properties")
  | none => raw

/-- `_is_turn_activity`, `none` when it raises. -/
def isTurnActivity (event : Dict) : Option Bool :=
  match textOf (Dict.get event "type") with
  | some "message.part.delta" =>
    some ((Dict.get event "delta").bind Json.nonemptyStr).isSome
  | some "question.asked" => some true
  | some "message.part.updated" =>
    match dictOf (Dict.get event "part") with
    | none => some false
    | some part =>
      let partType := Dict.getD part "type" .null
      let text := (Dict.getD part "text" .null).orElse (Dict.getD part "content" .null)
      partType.hashKey.map fun _ =>
        textOf (some partType) = some "tool" ||
          ((textOf (some partType) = some "text" || textOf (some partType) = some "reasoning") &&
            text.nonemptyStr.isSome)
  | _ => some false

def isTerminalEvent (event : Dict) : Bool :=
  match textOf (Dict.get event "type") with
  | some "session.idle" => true
  | some "message.updated" =>
    (dictOf (Dict.get event "info")).any fun info => textOf (Dict.get info "finish") = some "stop"
  | _ => false

def messageId (event : Dict) : Json :=
  let part := (dictOf (Dict.get event "part")).map fun part => Dict.getD part "messageID" (.str "")
  let info := (dictOf (Dict.get event "info")).map fun info => Dict.getD info "id" (.str "")
  let own := Dict.getD event "messageID" (.str "")
  let own := if own.truthy then own else part.getD own
  if own.truthy then own else info.getD own

def isUserMessage (event : Dict) : Bool :=
  (dictOf (Dict.get event "info")).any fun info => textOf (Dict.get info "role") = some "user"

section
variable (sessionId : String)

def passEvent (s : SseState) (event : Dict) : Outcome SseState Dict :=
  match if s.turnActive then some true else isTurnActivity event with
  | none => .raises none
  | some turnActive =>
    -- an end before any activity is that of an earlier turn
    if isTerminalEvent event && !turnActive then .goes { s with turnActive } none
    else if textOf (Dict.get event "type") = some "session.error" ∨ isTerminalEvent event then
      .stops (some event)
    else .goes { s with turnActive } (some event)

/-- The body of the loop for a normalized event. Its type and the id of its message are looked up in
sets, where a list or a dictionary raises. -/
def onEvent (s : SseState) (event : Dict) : Outcome SseState Dict :=
  let eventType := Dict.getD event "type" (.str "")
  let evtSession := Dict.getD event "sessionID" (.str "")
  let evtMessage := messageId event
  if eventType.hashKey.isNone then .raises none
  else if (textOf (some eventType)).any (· ∈ INTERNAL_EVENT_TYPES) then .goes s none
  else if evtSession.truthy && textOf (some evtSession) ≠ some sessionId then .goes s none
  else if isUserMessage event then
    .goes { s with userMessageIds := evtMessage.nonemptyStr.toList ++ s.userMessageIds } none
  else if evtMessage.truthy && evtMessage.hashKey.isNone then .raises none
  else if evtMessage.nonemptyStr.any (· ∈ s.userMessageIds) then .goes s none
  else passEvent s event

/-- The body of the loop, `_iter_sse_events` included. An event that is no dictionary raises. -/
def onLine (s : SseState) : SseLine → Outcome SseState Dict
  | .other | .data none => .goes s none
  | .data (some (.obj raw)) => onEvent sessionId s (normalizeEvent raw)
  | .data (some _) => .raises none

/-- `stream_turn`: the events it passes on, and whether it raises. -/
def streamTurn (turn : SseTurn) : List Dict × Bool :=
  if !turn.opens then ([], true)
  else
    let events := stream (onLine sessionId) {} turn.lines
    (events.1, match events.2 with
      | .stopped => false
      | .raised => true
      | .exhausted => turn.fails)

end

end OpenCodeClient

namespace OpenCodeRuntime

/-- The event ends a turn: the session is idle or failed, the last message is finished, or a
question is asked that cannot be answered. -/
def endsTurn (raw : Dict) : Bool :=
  match textOf (Dict.get raw "type") with
  | some "session.idle" | some "session.error" => true
  | some "message.updated" => (finishedInfo raw).isSome
  | some "question.asked" => ((Dict.get raw "id").bind Json.nonemptyStr).isNone
  | _ => false

end OpenCodeRuntime

/-! What ends a turn of OpenCode: the events its runtime makes terminal ones of. The client stops at
other events too, and at the end of the response. -/

namespace OpenCodeRuntime

variable {add : Json → Json → Json} {normalizers : OpenCodeNormalizers} {raw part : Dict}
  {started : List HashKey} {out : List RuntimeTurnEvent × List HashKey}

theorem isTerminal_mapQuestionAsked (raw error : Dict) :
    ((mapQuestionAsked raw).getD ⟨.streamError, error⟩).isTerminal =
      ((Dict.get raw "id").bind Json.nonemptyStr).isNone := by
  unfold mapQuestionAsked
  cases (Dict.get raw "id").bind Json.nonemptyStr with
  | none | some questionId => rfl

theorem anyTerminal_mapOpencodeEvent (raw : Dict) (kept : OpenCodeParts) :
    anyTerminal (mapOpencodeEvent add normalizers raw kept).1 = endsTurn raw := by
  have htypes : ∀ e ∈ (mapOpencodeEvent add normalizers raw kept).1,
      e.type ∈ mappedTypes (textOf (Dict.get raw "type")) := types_mapOpencodeEvent raw kept
  unfold endsTurn
  split
  · next htype =>
    rw [mapOpencodeEvent, htype]
    rfl
  · next htype =>
    rw [mapOpencodeEvent, htype]
    rfl
  · next htype =>
    rw [mapOpencodeEvent, htype]
    unfold mapMessageUpdated
    cases finishedInfo raw with
    | none | some info => rfl
  · next htype =>
    rw [mapOpencodeEvent, htype]
    exact (anyTerminal_singleton _).trans (isTerminal_mapQuestionAsked _ _)
  · next hidle herror hupdated hasked =>
    refine anyTerminal_of_types htypes ?_
    unfold mappedTypes
    split
    · decide
    · decide
    · exact absurd ‹_› hupdated
    · decide
    · exact absurd ‹_› hidle
    · exact absurd ‹_› herror
    · exact absurd ‹_› hasked
    · decide
    · decide
    · decide

theorem endsBy : (hooks add normalizers).EndsBy endsTurn where
  maps := anyTerminal_mapOpencodeEvent
  handles := by
    refine RuntimeHooks.handle_terminal (fun event t out h => ?_) fun event t out h => ?_
    · change onMappedEvent event t = some out at h
      unfold onMappedEvent at h
      split at h
      · obtain ⟨delta, -, rfl⟩ := Option.map_eq_some_iff.mp h
        exact anyTerminal_singleton event
      · split_ifs at h
        · cases h
          exact anyTerminal_singleton event
        · cases h
          exact anyTerminal_singleton _
      · cases h
        exact anyTerminal_singleton event
    · obtain ⟨artifacts, hartifacts, rfl⟩ := Option.map_eq_some_iff.mp h
      exact anyTerminal_eq_false (RuntimeBase.not_terminal_onArtifactEvent hartifacts)

end OpenCodeRuntime

namespace OpenCodeClient

variable {sessionId : String}

/-- The turn fails at its begin or in its transport, or one of the lines it reads raises or passes
on what ends it. -/
def Closes (sessionId : String) (turn : SseTurn) : Prop :=
  turn.opens = false ∨
    ReadingLoop.Closes (onLine sessionId) OpenCodeRuntime.endsTurn {} turn.lines ∨
    (turn.fails = true ∧ (after (onLine sessionId) {} turn.lines).isSome)

theorem streamTurn_closes_iff (turn : SseTurn) :
    ((streamTurn sessionId turn).2 = true ∨
      ∃ raw ∈ (streamTurn sessionId turn).1, OpenCodeRuntime.endsTurn raw = true) ↔
        Closes sessionId turn := by
  unfold streamTurn Closes
  cases turn.opens with
  | false => exact iff_of_true (.inl rfl) (.inl rfl)
  | true =>
    rw [or_iff_right (a := true = false) nofun, ← stream_closes_iff, ← stream_exhausted_iff,
      if_neg (by decide)]
    dsimp only
    cases (stream (onLine sessionId) {} turn.lines).2 with
    | stopped => simp
    | raised => exact iff_of_true (.inl rfl) (.inl (.inl rfl))
    | exhausted =>
      simp only [reduceCtorEq, false_or, and_true]
      exact or_comm

end OpenCodeClient

end WittyService
