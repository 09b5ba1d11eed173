import WittyService.DshTurns
import WittyService.OpenClawEndings

/-! `DshClient.stream_turn`: the notifications a turn that is not aborted passes on, from the
receipt of its prompt to the end of the activity of its session. -/
namespace WittyService

open ReadingLoop

/-- What leaves the client: an error of the harness or a timeout, which it makes a `DshClientError`
of, or another exception. -/
inductive HarnessFailure where
  | clientError
  | other
  deriving DecidableEq, Repr

/-- A turn as the client sees it: what fails before its loop, the notifications that come, and what
fails behind them. Nothing does as long as the loop waits for more. -/
structure DshUpstream where
  opening : Option HarnessFailure := none
  notifications : List Notification
  failure : Option HarnessFailure := none

namespace DshClient

section
variable (sessionId messageId : String)

/-- The items of `inserted` name the message. -/
def insertsMessage (payload : Dict) : Bool :=
  (dictOf (Dict.get payload "event")).any fun event =>
    textOf (Dict.get event "type") = some "agent/inbox/spliced" &&
      ((dictOf (Dict.get event "data")).bind fun data => listOf (Dict.get data "inserted")).any
        fun inserted => inserted.any fun item =>
          (dictOf (some item)).any fun item => textOf (Dict.get item "id") = some messageId

/-- `_is_inbox_receipt`, `none` when it raises. -/
def isInboxReceipt (raw : Notification) : Option Bool :=
  if raw.method ≠ "session.event" then some false
  else
    (dictOf (some raw.payload)).map fun payload =>
      textOf (Dict.get payload "sessionId") = some sessionId && insertsMessage messageId payload

/-- The session is idle again, `none` when the test raises. -/
def isIdle (raw : Notification) : Option Bool :=
  if raw.method ≠ "session.status" then some false
  else
    (dictOf (some raw.payload)).map fun payload =>
      textOf (Dict.get payload "sessionId") = some sessionId &&
        textOf (Dict.get payload "status") = some "idle"

def onNotification (received : Bool) (raw : Notification) : Outcome Bool Notification :=
  if received then
    match isIdle sessionId raw with
    | none => .raises (some raw)
    | some true => .stops (some raw)
    | some false => .goes true (some raw)
  else
    match isInboxReceipt sessionId messageId raw with
    | none => .raises none
    | some received => .goes received none

/-- `stream_turn`: the notifications it passes on, and the failure that leaves it, if one does;
`none` as long as it waits. -/
def streamTurn (turn : DshUpstream) : Option (List Notification × Option HarnessFailure) :=
  match turn.opening with
  | some failure => some ([], some failure)
  | none =>
    let raws := stream (onNotification sessionId messageId) false turn.notifications
    match raws.2 with
    | .stopped => some (raws.1, none)
    | .raised => some (raws.1, some .other)
    | .exhausted => turn.failure.map fun failure => (raws.1, some failure)

end

end DshClient

namespace DshRuntime

def completesMessage (data : Dict) : Bool :=
  ((dictOf (Dict.get data "message")).bind fun message =>
    listOf (Dict.get message "content")).any fun content =>
      (blocksOfType "tool-call" content).isEmpty && (joinTexts content).isSome

def endsTurn (parts : DshParts) (raw : Notification) : Bool :=
  match ownEvent parts raw with
  | some ("turn/end", _) => true
  | some ("assistant/message", data) => completesMessage data
  | _ => false

end DshRuntime

/-! What ends a turn of dsh: the notifications its runtime makes terminal events of. The client
stops where its session is idle, whether or not one of them came before. -/

namespace DshRuntime

variable {plus : NumberAdd} {parts : DshParts}

variable (data : Dict) (event : RuntimeTurnEvent)

theorem anyTerminal_mapTurnEnd : anyTerminal (mapTurnEnd parts data) = true := by
  unfold mapTurnEnd
  split_ifs <;> rfl

theorem anyTerminal_mapAssistantMessage :
    anyTerminal (mapAssistantMessage plus.add data).1 = completesMessage data := by
  have hreported (usage : Dict) : anyTerminal (if hasTokenUsage usage then
      [⟨.sessionUsage, usage⟩] else []) = false := by
    split_ifs <;> rfl
  unfold mapAssistantMessage completesMessage
  cases (dictOf (Dict.get data "message")).bind fun message =>
      listOf (Dict.get message "content") with
  | none => exact hreported _
  | some content =>
    rw [Option.any_some]
    dsimp only
    by_cases hcalls : blocksOfType "tool-call" content = []
    · rw [if_neg (not_not.mpr hcalls), hcalls]
      cases joinTexts content with
      | none => exact hreported _
      | some text => exact (anyTerminal_append _ _).trans (Bool.or_true _)
    · rw [if_pos hcalls, List.isEmpty_eq_false_iff.mpr hcalls]
      exact hreported _

theorem anyTerminal_mapDshEvent (raw : Notification) (names : ToolNames) :
    anyTerminal (mapDshEvent plus.add parts raw names).1 = endsTurn parts raw := by
  unfold mapDshEvent endsTurn
  split_ifs with hstream
  · -- a frame of the stream is no event of the session
    have hown : ownEvent parts raw = none := by
      unfold ownEvent
      split
      · rfl
      · exact if_neg fun h => absurd (hstream.symm.trans h.1) (by decide)
    rw [hown]
    exact anyTerminal_of_types (types_mapAssistantStreamFrame _)
  · split
    next heq =>
      rw [heq]
      rfl
    next heq =>
      rw [heq]
      exact anyTerminal_mapTurnEnd _
    next heq =>
      rw [heq]
      exact anyTerminal_of_types (types_mapAssistantChunk _)
    next heq =>
      rw [heq]
      exact anyTerminal_mapAssistantMessage _
    next heq =>
      rw [heq]
      exact anyTerminal_of_type (type_mapToolCall _ _)
    next heq =>
      rw [heq]
      exact anyTerminal_of_type (type_mapToolResult _ _)
    next hstart hend hchunk hmessage hcall hresult =>
      split
      next data heq => exact absurd heq (hend data)
      next data heq => exact absurd heq (hmessage data)
      · rfl

theorem anyTerminal_onMappedEvent (t : DshTurn) :
    anyTerminal (onMappedEvent event t).1 = event.isTerminal := by
  have hmissing (started : Bool) (events : List RuntimeTurnEvent) :
      anyTerminal ((if started then [] else [⟨.messageStarted, []⟩]) ++ events) =
        anyTerminal events := by
    cases started <;> rfl
  unfold onMappedEvent
  by_cases hstarted : event.type = .messageStarted
  · rw [if_pos hstarted]
    exact anyTerminal_singleton event
  · rw [if_neg hstarted]
    dsimp only
    split
    · rw [hmissing, anyTerminal_singleton]
    · rw [hmissing, anyTerminal_singleton]
    next htype =>
      have hends : event.isTerminal = true := by
        rw [RuntimeTurnEvent.isTerminal, htype]
        rfl
      by_cases hcompleted : (!t.completedEmitted && !endedByError event) = true
      · rw [if_pos hcompleted, hmissing, hends]
        rfl
      · rw [if_neg hcompleted, hmissing, anyTerminal_singleton]
    · rw [hmissing, anyTerminal_singleton]

theorem anyTerminal_onArtifactEvent (t : DshTurn) :
    anyTerminal (onArtifactEvent parts event t).1 = false := by
  unfold onArtifactEvent
  split_ifs
  · rfl
  · split
    · exact anyTerminal_eq_false (RuntimeBase.not_terminal_of_artifacts rfl _)
    · exact anyTerminal_eq_false (RuntimeBase.not_terminal_of_artifacts rfl _)
    · rfl

theorem endsBy : (hooks plus.add parts).EndsBy (endsTurn parts) where
  maps := anyTerminal_mapDshEvent
  handles := by
    refine RuntimeHooks.handle_terminal (fun event t out h => ?_) fun event t out h => ?_
    · rw [← Option.some.inj h]
      exact anyTerminal_onMappedEvent event t
    · rw [← Option.some.inj h]
      exact anyTerminal_onArtifactEvent event t

theorem anyTerminal_clientErrorEvents (t : DshTurn) :
    anyTerminal ((hooks plus.add parts).errorEvents t) = true := by
  change anyTerminal (clientErrorEvents parts t) = true
  rw [clientErrorEvents_eq, anyTerminal_append]
  exact Bool.or_true _

theorem crashed_iff (raws : List Notification) :
    ((hooks plus.add parts).turn raws).crashed = true ↔
      ∃ raw ∈ raws, raises plus parts raw = true := by
  constructor
  · intro h
    by_contra hnone
    have hquiet : ∀ raw ∈ raws, raises plus parts raw = false := fun raw hraw =>
      Bool.not_eq_true _ ▸ fun hraises => hnone ⟨raw, hraw, hraises⟩
    exact nomatch (framing_turn hquiet).crashed.symm.trans h
  · exact fun h => (turn_of_raises plus parts h).1

end DshRuntime

namespace DshClient

variable {sessionId messageId : String}

/-- The turn fails at its begin, or one of the notifications it reads raises or is passed on and
marked, or the client reads all of them and fails behind them. -/
def Closes (sessionId messageId : String) (mark : Notification → Bool) (turn : DshUpstream) :
    Prop :=
  turn.opening.isSome ∨
    ReadingLoop.Closes (onNotification sessionId messageId) mark false turn.notifications ∨
    (after (onNotification sessionId messageId) false turn.notifications).isSome

theorem streamTurn_closes_iff {mark : Notification → Bool} {turn : DshUpstream}
    {raws : List Notification × Option HarnessFailure}
    (h : streamTurn sessionId messageId turn = some raws) :
    (raws.2.isSome ∨ ∃ raw ∈ raws.1, mark raw = true) ↔ Closes sessionId messageId mark turn := by
  unfold streamTurn at h
  unfold Closes
  cases hopening : turn.opening with
  | some failure =>
    rw [hopening] at h
    cases h
    exact iff_of_true (.inl rfl) (.inl rfl)
  | none =>
    rw [hopening] at h
    dsimp only at h
    rw [← stream_closes_iff, ← stream_exhausted_iff, Option.isSome_none,
      or_iff_right Bool.false_ne_true]
    split at h
    next hending =>
      cases h
      simp [hending]
    next hending =>
      cases h
      exact iff_of_true (.inl rfl) (.inl (.inl hending))
    next hending =>
      obtain ⟨failure, -, rfl⟩ := Option.map_eq_some_iff.mp h
      exact iff_of_true (.inl rfl) (.inr hending)

end DshClient

end WittyService
