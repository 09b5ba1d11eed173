import WittyService.AssistantTurn
import WittyService.GuardedRuns

/-! How a turn is left when its consumer has finished. -/
namespace WittyService

/-- A turn with the row of its message. The last two fields are no data of the program: the
message events the WebSocket has yielded, and the events handed to the repository. -/
structure AssistantTurn where
  consumer : Consumer
  isOver : Bool
  row : Option MessageRow
  received : List StreamEvent
  handed : List PendingEvent

def AssistantTurn.new (lastCheckpointTime lastFlushTime : Int) : AssistantTurn :=
  ⟨.new lastCheckpointTime lastFlushTime, false, none, [], []⟩

/-- `abort` is what a concurrent `abort_session` does to the message of the turn. -/
inductive TurnInput where
  | event (a : Arrival) (endedAt : Int)
  | recvRaises (endedAt : Int)
  | exhausted
  | cancelled
  | abort

def AssistantTurn.perform (t : AssistantTurn) (c : Consumer) (calls : List MessageCall)
    (isOver : Bool) : AssistantTurn :=
  { t with
    consumer := c
    isOver := isOver
    row := applyCalls t.row calls
    handed := t.handed ++ handedBy calls }

def AssistantTurn.receiving (t : AssistantTurn) (event : Option StreamEvent) : AssistantTurn :=
  { t with received := t.received ++ event.toList }

def turnStep (ws : Workspace) (t : AssistantTurn) : TurnInput → Option AssistantTurn
  | .event a endedAt =>
    if t.isOver then none
    else
      let r := t.consumer.receive ws a endedAt
      some ((t.receiving (a.event.messageEvent ws)).perform r.1 r.2.1 r.2.2)
  | .recvRaises endedAt =>
    if t.isOver then none
    else
      let final := t.consumer.finalizeAbnormalTurn .interrupted endedAt
      some (t.perform final.1 final.2 true)
  | .exhausted | .cancelled => if t.isOver then none else some { t with isOver := true }
  | .abort => some { t with
      row := (MessageCall.updateMessageStatus .interrupted).apply t.row }

/-- The message is not generating, every message event was handed to the repository once
and in order, and the stored content is the text accumulated so far. -/
structure TurnSettled (t : AssistantTurn) : Prop where
  status : ∀ row, t.row = some row → row.status ≠ .generating
  handed : t.handed.map PendingEvent.event = t.received
  content : ∀ row, t.row = some row → row.content = t.consumer.assistantText

def SettledWhenOver (t : AssistantTurn) : Prop := t.isOver = true → TurnSettled t

def Json.isDict : Json → Bool
  | .obj _ => true
  | _ => false

def Arrival.raisesEarly (a : Arrival) : Bool :=
  a.raises || (a.event.eventType.isError && !a.event.payload.isDict)

/-- The text `message.completed` brings can be stored. -/
def WsEvent.textBindable (event : WsEvent) : Prop :=
  event.eventType = .messageCompleted →
    (event.payload.asDict.getD "text" (.str "")).truthy = true →
    (event.payload.asDict.getD "text" (.str "")).bindable = true

/-- Nothing is left to finalise: no message was created, or it has been aborted, nothing is
buffered and the last checkpoint is current. -/
def NothingToFinalize (t : AssistantTurn) : Prop :=
  t.consumer.assistantMsgId = false ∨
    t.consumer.pendingEvents = [] ∧ ∀ row, t.row = some row →
      row.status ≠ .generating ∧ row.content = t.consumer.assistantText

/-- What a turn must not run into: an exception that loses the event being taken up, a text
that cannot be stored, and an end without a failure status while something is unfinished. -/
def FinalizesTurn (ws : Workspace) (t : AssistantTurn) : TurnInput → Prop
  | .event a _ =>
    (a.raisesEarly = true → a.event.messageEvent ws = none) ∧ a.event.textBindable
  | .exhausted | .cancelled => NothingToFinalize t
  | _ => True

structure TurnTracked (t : AssistantTurn) : Prop where
  ledger : (t.handed ++ t.consumer.pendingEvents).map PendingEvent.event = t.received
  born : t.consumer.assistantMsgId = t.row.isSome
  unborn : t.row = none → t.consumer.pendingEvents = []
  text : ∃ s, t.consumer.assistantText = .str s
  stored : ∀ row, t.row = some row → ∃ s, row.content = .str s ∧
    (t.consumer.assistantText = .str "" → s = "")

def TrackedWhileRunning (t : AssistantTurn) : Prop := t.isOver = false → TurnTracked t

theorem turn_tracked_new (t₁ t₂ : Int) : TurnTracked (.new t₁ t₂) := by
  refine ⟨rfl, rfl, fun _ => rfl, ⟨"", rfl⟩, ?_⟩
  intro row hrow
  cases hrow

theorem perform_perform (t : AssistantTurn) (c c' : Consumer) (calls later : List MessageCall)
    (isOver isOver' : Bool) : (t.perform c calls isOver).perform c' later isOver' =
      t.perform c' (calls ++ later) isOver' := by
  simp [AssistantTurn.perform, applyCalls_append, handedBy_append]

theorem perform_after (t : AssistantTurn) (c c' c'' : Consumer)
    (calls later : List MessageCall) (isOver isOver' : Bool) :
    ({ t.perform c calls isOver with consumer := c' } : AssistantTurn).perform c'' later isOver' =
      t.perform c'' (calls ++ later) isOver' :=
  perform_perform t c c'' calls later isOver isOver'

variable {t : AssistantTurn} {c : Consumer} {e : StreamEvent} {a : Arrival} {ws : Workspace}
  {event : WsEvent}

theorem settled_finalize (h : TurnTracked t) (status : MessageStatus)
    (hs : status ≠ .generating) (now : Int) :
    TurnSettled (t.perform (t.consumer.finalizeAbnormalTurn status now).1
      (t.consumer.finalizeAbnormalTurn status now).2 true) := by
  obtain ⟨s, hs'⟩ := h.text
  cases hrow : t.row with
  | none =>
    have hunborn : t.consumer.assistantMsgId = false := by rw [h.born, hrow]; rfl
    have hledger := h.ledger
    rw [h.unborn hrow, List.append_nil] at hledger
    have hcalls := t.consumer.finalizeAbnormalTurn_unborn status now hunborn
    constructor
    · simp [AssistantTurn.perform, hcalls, hrow]
    · simpa [AssistantTurn.perform, hcalls] using hledger
    · simp [AssistantTurn.perform, hcalls, hrow]
  | some row =>
    have hborn : t.consumer.assistantMsgId = true := by rw [h.born, hrow]; rfl
    have hbind : t.consumer.assistantText.bindable = true := by rw [hs']; rfl
    have hfinal := t.consumer.finalizeAbnormalTurn_row status now (r := row) hborn hbind
    constructor
    · intro r hr
      simp only [AssistantTurn.perform, hrow, hfinal, Option.some.injEq] at hr
      rw [← hr]
      exact hs
    · have hhanded := t.consumer.finalizeAbnormalTurn_handed status now hborn
      simpa [AssistantTurn.perform, hhanded] using h.ledger
    · intro r hr
      simp only [AssistantTurn.perform, hrow, hfinal, Option.some.injEq] at hr
      rw [← hr]
      exact (t.consumer.finalizeAbnormalTurn_text status now).symm

/-! The loop body, up to the point where it goes on, stops or fails. -/

theorem tracked_ensure (h : TurnTracked t) :
    TurnTracked (t.perform t.consumer.ensureMessage.1 t.consumer.ensureMessage.2 false) ∧
      (t.perform t.consumer.ensureMessage.1 t.consumer.ensureMessage.2 false).row.isSome := by
  obtain ⟨r, hr, hwhich⟩ := t.consumer.ensureMessage_row h.born
  refine ⟨⟨?_, ?_, ?_, ?_, ?_⟩, ?_⟩
  · simpa [AssistantTurn.perform] using h.ledger
  · simp [AssistantTurn.perform, hr]
  · simp [AssistantTurn.perform, hr]
  · simpa [AssistantTurn.perform] using h.text
  · intro row hrow
    simp only [AssistantTurn.perform, hr, Option.some.injEq] at hrow
    subst hrow
    rcases hwhich with hold | hnew
    · simpa [AssistantTurn.perform] using h.stored r hold
    · rw [hnew]
      exact ⟨"", rfl, fun _ => rfl⟩
  · simp [AssistantTurn.perform, hr]

theorem tracked_of_ledger (h : TurnTracked t) (hsome : t.row.isSome)
    (event : Option StreamEvent) (calls : List MessageCall)
    (hledger : (handedBy calls ++ c.pendingEvents).map PendingEvent.event =
      t.consumer.pendingEvents.map PendingEvent.event ++ event.toList)
    (hrow : applyCalls t.row calls = t.row) (htext : c.assistantText = t.consumer.assistantText)
    (hid : c.assistantMsgId = t.consumer.assistantMsgId) :
    TurnTracked ((t.receiving event).perform c calls false) := by
  have hrow' : ((t.receiving event).perform c calls false).row = t.row := hrow
  refine ⟨?_, ?_, ?_, ?_, ?_⟩
  · calc (((t.handed ++ handedBy calls) ++ c.pendingEvents).map PendingEvent.event)
        = t.handed.map PendingEvent.event ++
            (handedBy calls ++ c.pendingEvents).map PendingEvent.event := by simp
      _ = (t.handed ++ t.consumer.pendingEvents).map PendingEvent.event ++ event.toList := by
          rw [hledger]
          simp
      _ = t.received ++ event.toList := by rw [h.ledger]
  · rw [hrow']
    exact hid.trans h.born
  · rw [hrow']
    intro hnone
    simp [hnone] at hsome
  · simpa [AssistantTurn.perform, htext] using h.text
  · rw [hrow']
    simpa [AssistantTurn.perform, htext] using h.stored

def StreamEvent.persistent (e : StreamEvent) : Option StreamEvent :=
  if e.eventType.isTransient then none else some e

def AssistantTurn.buffered (t : AssistantTurn) (e : StreamEvent) (a : Arrival) : AssistantTurn :=
  (t.receiving e.persistent).perform (t.consumer.ensureMessage.1.bufferEvent e a).1
    (t.consumer.ensureMessage.2 ++ (t.consumer.ensureMessage.1.bufferEvent e a).2) false

section

variable {t : AssistantTurn} (h : TurnTracked t)
include h

variable (e : StreamEvent)

theorem tracked_buffered
    (a : Arrival) : TurnTracked (t.buffered e a) ∧ (t.buffered e a).row.isSome := by
  obtain ⟨hensured, hsome⟩ := tracked_ensure h
  have hsplit : t.buffered e a =
      ((t.perform t.consumer.ensureMessage.1 t.consumer.ensureMessage.2 false).receiving
        e.persistent).perform (t.consumer.ensureMessage.1.bufferEvent e a).1
          (t.consumer.ensureMessage.1.bufferEvent e a).2 false :=
    (perform_perform (t.receiving e.persistent) _ _ _ _ false false).symm
  rw [hsplit]
  constructor
  · refine tracked_of_ledger hensured hsome _ _ ?_ (Consumer.bufferEvent_row _ e a _)
      (Consumer.bufferEvent_text _ e a) (Consumer.bufferEvent_id _ e a)
    rw [Consumer.bufferEvent_ledger]
    unfold StreamEvent.persistent
    split_ifs <;> rfl
  · show (applyCalls _ _).isSome
    rw [Consumer.bufferEvent_row]
    exact hsome

theorem tracked_accumulate {e : StreamEvent} {c : Consumer} (hc : t.consumer.accumulate e = some c)
    (hgo : e.eventType.isTerminal = false) : TurnTracked { t with consumer := c } := by
  obtain ⟨hpending, hid⟩ := Consumer.accumulate_keeps hc
  -- the text only grows, so it is empty only if it was
  have htext : ∃ s, c.assistantText = .str s ∧ (s = "" → t.consumer.assistantText = .str "") := by
    obtain ⟨s, hs⟩ := h.text
    unfold Consumer.accumulate at hc
    split at hc
    · split at hc
      · next text delta htext _ =>
        cases hc
        refine ⟨text ++ delta, rfl, fun hempty => ?_⟩
        rw [htext, (String.append_eq_empty_iff.mp hempty).1]
      · cases hc
    · next heq => simp [EventType.isTerminal, heq] at hgo
    · cases hc
      exact ⟨s, hs, fun hempty => hempty ▸ hs⟩
  obtain ⟨s, hs, hempty⟩ := htext
  refine ⟨?_, hid.trans h.born, fun hrow => hpending.trans (h.unborn hrow), ⟨s, hs⟩, ?_⟩
  · show (t.handed ++ c.pendingEvents).map _ = _
    rw [hpending]
    exact h.ledger
  · intro row hrow
    obtain ⟨stored, hstored, hblank⟩ := h.stored row hrow
    refine ⟨stored, hstored, fun htext => hblank (hempty ?_)⟩
    exact Json.str.inj (hs.symm.trans htext)

theorem tracked_checkpoint (a : Arrival) : TurnTracked (t.perform (t.consumer.checkpoint e a).1
      (t.consumer.checkpoint e a).2 false) := by
  have hrow : ∀ row, t.row = some row → ∃ row',
      applyCalls t.row (t.consumer.checkpoint e a).2 = some row' ∧
      (row'.content = row.content ∨ row'.content = t.consumer.assistantText) := by
    intro row hrow
    rw [hrow]
    unfold Consumer.checkpoint
    split_ifs
    · obtain ⟨row', hrow', -, hcontent⟩ := t.consumer.contentCalls_row a row
      refine ⟨row', hrow', ?_⟩
      rw [hcontent]
      split_ifs
      · exact .inr rfl
      · exact .inl rfl
    · exact ⟨row, rfl, .inl rfl⟩
  obtain ⟨s, hs⟩ := h.text
  cases hold : t.row with
  | none =>
    have hunborn : t.consumer.assistantMsgId = false := by rw [h.born, hold]; rfl
    have hsame : t.consumer.checkpoint e a = (t.consumer, []) := by
      simp [Consumer.checkpoint, hunborn]
    rw [hsame]
    refine ⟨by simpa [AssistantTurn.perform] using h.ledger, h.born, h.unborn, ⟨s, hs⟩, h.stored⟩
  | some row =>
    obtain ⟨row', hrow', hcontent⟩ := hrow row hold
    refine ⟨?_, ?_, ?_, ⟨s, by simpa [AssistantTurn.perform] using hs⟩, ?_⟩
    · simpa [AssistantTurn.perform] using h.ledger
    · show (t.consumer.checkpoint e a).1.assistantMsgId = (applyCalls t.row _).isSome
      rw [hrow', Consumer.checkpoint_id, h.born, hold]
      rfl
    · simp [AssistantTurn.perform, hrow']
    · intro r hr
      simp only [AssistantTurn.perform, hrow', Option.some.injEq] at hr
      subst hr
      show ∃ s, row'.content = .str s ∧ ((t.consumer.checkpoint e a).1.assistantText = _ → _)
      rw [Consumer.checkpoint_text]
      rcases hcontent with hkept | hstored
      · rw [hkept]
        exact h.stored row hold
      · exact ⟨s, hstored.trans hs, fun hempty => Json.str.inj (hs.symm.trans hempty)⟩

/-- Unless the loop is left, the turn stays tracked; that includes a delta that is no
string, which raises only after its event was buffered. -/
theorem tracked_takeUp (a : Arrival) (hgo : (t.consumer.takeUp e a).next ≠ .stop) :
    TurnTracked ((t.receiving e.persistent).perform (t.consumer.takeUp e a).consumer
      (t.consumer.takeUp e a).calls false) := by
  obtain ⟨hbuffered, -⟩ := tracked_buffered h e a
  unfold Consumer.takeUp at hgo ⊢
  dsimp only at hgo ⊢
  split
  · exact hbuffered
  · next c hc =>
    rw [hc] at hgo
    split_ifs at hgo ⊢ with hterm
    · exact absurd rfl hgo
    · have hchecked := tracked_checkpoint
        (tracked_accumulate hbuffered hc (Bool.not_eq_true _ ▸ hterm)) e a
      rwa [AssistantTurn.buffered, perform_after] at hchecked

end

theorem accumulate_terminal {c' : Consumer}
    (hc : c.accumulate e = some c') (hterm : e.eventType.isTerminal = true)
    (htext : ∃ s, c.assistantText = .str s) :
    (c'.assistantText.truthy = false → c'.assistantText = c.assistantText) ∧
      (c'.assistantText.bindable = true ↔ (e.eventType = .messageCompleted →
        (e.payload.getD "text" (.str "")).truthy = true →
        (e.payload.getD "text" (.str "")).bindable = true)) := by
  obtain ⟨s, hs⟩ := htext
  unfold Consumer.accumulate at hc
  split at hc
  · next heq => simp [EventType.isTerminal, heq] at hterm
  · next heq =>
    cases hc
    cases htruthy : (e.payload.getD "text" (.str "")).truthy with
    | false => simp [heq, hs, Json.bindable]
    | true => simp [heq, htruthy]
  · next hother =>
    cases hc
    refine ⟨fun _ => rfl, iff_of_true (by rw [hs]; rfl) ?_⟩
    intro heq
    exact absurd heq hother

theorem takeUp_stop (h : (c.takeUp e a).next = .stop) : ∃ c',
      (c.ensureMessage.1.bufferEvent e a).1.accumulate e = some c' ∧
      e.eventType.isTerminal = true ∧
      c.takeUp e a = ⟨((c'.checkpoint e a).1.flushEvents a.flushedAt).1,
        c.ensureMessage.2 ++ (c.ensureMessage.1.bufferEvent e a).2 ++ ((c'.checkpoint e a).2 ++
          ((c'.checkpoint e a).1.flushEvents a.flushedAt).2 ++
          [.updateMessageStatus .completed, .compactMessageDeltaEvents]), .stop⟩ := by
  cases hc : (c.ensureMessage.1.bufferEvent e a).1.accumulate e with
  | none => simp [Consumer.takeUp, hc] at h
  | some c' =>
    cases hterm : e.eventType.isTerminal with
    | false => simp [Consumer.takeUp, hc, hterm] at h
    | true => exact ⟨c', rfl, rfl, by simp [Consumer.takeUp, hc, hterm]⟩

/-- The calls of a terminal event on a row: the text is stored if it can be, and the row is
completed unless it was aborted. -/
theorem terminal_calls_row (row : MessageRow)
    (hborn : c.assistantMsgId = true) (hterm : e.eventType.isTerminal = true) :
    ∃ row', applyCalls (some row) ((c.checkpoint e a).2 ++
          ((c.checkpoint e a).1.flushEvents a.flushedAt).2 ++
          [.updateMessageStatus .completed, .compactMessageDeltaEvents]) = some row' ∧
      row'.status ≠ .generating ∧
      row'.content = if c.assistantText.truthy && c.assistantText.bindable then c.assistantText
        else row.content := by
  obtain ⟨row₁, hrow₁, -, hcontent⟩ := c.contentCalls_row a row
  have hchecked : (c.checkpoint e a).2 = c.contentCalls a := by
    simp [Consumer.checkpoint, hborn, hterm]
  rw [applyCalls_append, applyCalls_append, hchecked, hrow₁, Consumer.flushEvents_row]
  by_cases hstatus : row₁.status = .generating
  · exact ⟨{ row₁ with status := .completed },
      by simp [applyCalls, MessageCall.apply, hstatus], by simp, hcontent⟩
  · exact ⟨row₁, by simp [applyCalls, MessageCall.apply, hstatus], hstatus, hcontent⟩

theorem settled_stop_iff (h : TurnTracked t) (hstop : (t.consumer.takeUp e a).next = .stop) :
    TurnSettled ((t.receiving e.persistent).perform (t.consumer.takeUp e a).consumer
      (t.consumer.takeUp e a).calls true) ↔
      (e.eventType = .messageCompleted → (e.payload.getD "text" (.str "")).truthy = true →
        (e.payload.getD "text" (.str "")).bindable = true) := by
  obtain ⟨hbuffered, hsome⟩ := tracked_buffered h e a
  obtain ⟨row, hrow⟩ := Option.isSome_iff_exists.mp hsome
  obtain ⟨c, hc, hterm, heq⟩ := takeUp_stop hstop
  obtain ⟨hpending, hid⟩ := Consumer.accumulate_keeps hc
  have hborn : c.assistantMsgId = true := hid.trans (hbuffered.born.trans hsome)
  obtain ⟨hfalsy, hbind⟩ := accumulate_terminal hc hterm hbuffered.text
  obtain ⟨row', hrow', hstatus, hcontent⟩ := terminal_calls_row (a := a) row hborn hterm
  obtain ⟨stored, hstored, hblank⟩ := hbuffered.stored row hrow
  obtain ⟨s, hs⟩ := hbuffered.text
  rw [heq, ← hbind, ← perform_perform (t.receiving e.persistent)
    (t.consumer.ensureMessage.1.bufferEvent e a).1 _ _ _ false true]
  have hfinal : ∀ r, applyCalls (t.buffered e a).row ((c.checkpoint e a).2 ++
      ((c.checkpoint e a).1.flushEvents a.flushedAt).2 ++
      [.updateMessageStatus .completed, .compactMessageDeltaEvents]) = some r → r = row' := by
    intro r hr
    rw [hrow, hrow'] at hr
    exact (Option.some.inj hr).symm
  have htext : ((c.checkpoint e a).1.flushEvents a.flushedAt).1.assistantText =
      c.assistantText := by
    rw [Consumer.flushEvents_text, Consumer.checkpoint_text]
  constructor
  · intro hsettled
    have hequal : row'.content = c.assistantText :=
      (hsettled.content row' (by rw [← hrow', ← hrow]; rfl)).trans htext
    by_contra hnot
    -- the stored content is a string, and a string can be bound
    rw [hcontent, if_neg (by simp [hnot]), hstored] at hequal
    exact hnot (by rw [← hequal]; rfl)
  · intro hbindable
    refine ⟨fun r hr => hfinal r hr ▸ hstatus, ?_, fun r hr => ?_⟩
    · have hflushed := (c.checkpoint e a).1.flushEvents_ledger a.flushedAt
      rw [Consumer.flushEvents_empties _ _ (by rw [Consumer.checkpoint_id, hborn]),
        Consumer.checkpoint_pending, List.append_nil, hpending] at hflushed
      have hledger := hbuffered.ledger
      show ((t.buffered e a).handed ++ handedBy _).map _ = (t.buffered e a).received
      rw [← hledger, handedBy_append, handedBy_append, hflushed, Consumer.checkpoint_handed]
      rw [List.nil_append]
      exact congrArg _ (congrArg _ (List.append_nil _))
    · rw [hfinal r hr]
      refine Eq.trans ?_ htext.symm
      cases htruthy : c.assistantText.truthy with
      | true => rw [hcontent, if_pos (by simp [htruthy, hbindable])]
      | false =>
        -- the text is the empty string it was before the event
        have hsame : c.assistantText = .str s := (hfalsy htruthy).trans hs
        have hempty : s = "" := by
          rw [hsame] at htruthy
          simpa [Json.truthy] using htruthy
        rw [hcontent, if_neg (by simp [htruthy]), hstored, hsame, hempty]
        exact congrArg Json.str (hblank (by rw [hs, hempty]))

theorem normalized_type {event' : WsEvent} (h : normalizeArtifactEvent ws event = some event') :
    event'.eventType = event.eventType ∧
      (event.eventType.isArtifact = false → event' = event) := by
  unfold normalizeArtifactEvent at h
  cases hart : event.eventType.isArtifact with
  | false =>
    simp only [hart, Bool.not_false, if_true, Option.some.injEq] at h
    exact ⟨h ▸ rfl, fun _ => h.symm⟩
  | true =>
    refine ⟨?_, fun hfalse => absurd hfalse (by simp)⟩
    simp only [hart, Bool.not_true, Bool.false_eq_true, if_false] at h
    split at h
    · split at h
      · cases h
      · split at h
        · cases h
        · split_ifs at h <;> cases h <;> rfl
    · cases h

theorem completed_is_message (h : event.eventType = .messageCompleted) :
    event.messageEvent ws = some ⟨.messageCompleted, event.payload.asDict⟩ := by
  simp [WsEvent.messageEvent, normalizeArtifactEvent, h, EventType.isError,
    EventType.isSessionEvent, EventType.isArtifact, EventType.isTransient]

theorem react_early (ws : Workspace) (c : Consumer) (h : a.raisesEarly = true) :
    c.react ws a = ⟨c, [], .fail .interrupted⟩ := by
  unfold Consumer.react
  split_ifs with hraises herror
  · rfl
  · unfold Consumer.takeUpError
    cases hpayload : a.event.payload with
    | obj payload => simp [Arrival.raisesEarly, hraises, Json.isDict, hpayload] at h
    | _ => rfl
  · simp [Arrival.raisesEarly, hraises, herror] at h
  · simp [Arrival.raisesEarly, hraises, herror] at h

theorem react_cases (c : Consumer) (h : a.raisesEarly = false) :
    (a.event.eventType.isError = true ∧ ∃ e, a.event.messageEvent ws = some e ∧
      c.react ws a = ⟨c.ensureMessage.1.buffer e, c.ensureMessage.2, .fail .error⟩) ∨
    (a.event.messageEvent ws = none ∧ c.react ws a = ⟨c, [], .goOn⟩) ∨
    (∃ e, a.event.messageEvent ws = e.persistent ∧ c.react ws a = c.takeUp e a ∧
      e.eventType = a.event.eventType ∧
      (a.event.eventType = .messageCompleted → e.payload = a.event.payload.asDict)) := by
  simp only [Arrival.raisesEarly, Bool.or_eq_false_iff] at h
  obtain ⟨hraises, hdict⟩ := h
  cases herror : a.event.eventType.isError with
  | true =>
    refine .inl ⟨rfl, ⟨a.event.eventType, a.event.payload.asDict⟩, ?_, ?_⟩
    · simp [WsEvent.messageEvent, herror]
    · cases hpayload : a.event.payload with
      | obj payload => simp [Consumer.react, hraises, herror, Consumer.takeUpError, hpayload,
          Json.asDict]
      | _ => simp [herror, hpayload, Json.isDict] at hdict
  | false =>
    cases hsession : a.event.eventType.isSessionEvent with
    | true =>
      refine .inr (.inl ⟨?_, ?_⟩)
      · simp [WsEvent.messageEvent, herror, hsession]
      · simp [Consumer.react, hraises, herror, hsession]
    | false =>
      cases hnorm : normalizeArtifactEvent ws a.event with
      | none =>
        refine .inr (.inl ⟨?_, ?_⟩)
        · simp [WsEvent.messageEvent, herror, hsession, hnorm]
        · simp [Consumer.react, hraises, herror, hsession, hnorm]
      | some event =>
        obtain ⟨htype, hsame⟩ := normalized_type hnorm
        refine .inr (.inr ⟨⟨event.eventType, event.payload.asDict⟩, ?_, ?_, htype, ?_⟩)
        · simp [WsEvent.messageEvent, herror, hsession, hnorm, StreamEvent.persistent]
        · simp [Consumer.react, hraises, herror, hsession, hnorm]
        · intro hcompleted
          rw [hsame (by rw [hcompleted]; rfl)]

theorem takeUp_completed_stops
    (h : e.eventType = .messageCompleted) : (c.takeUp e a).next = .stop := by
  simp [Consumer.takeUp, Consumer.accumulate, h, EventType.isTerminal]

section

variable {ws : Workspace}

variable {t : AssistantTurn} {a : Arrival}

/-- Leaving the loop body on an exception or an error event, or going on, keeps the turn
tracked; the text a message can be completed with plays no part there. -/
theorem tracked_react (h : TurnTracked t)
    (hearly : a.raisesEarly = false) (hgo : (t.consumer.react ws a).next ≠ .stop) :
    TurnTracked ((t.receiving (a.event.messageEvent ws)).perform (t.consumer.react ws a).consumer
      (t.consumer.react ws a).calls false) ∧ a.event.textBindable := by
  rcases react_cases t.consumer hearly with ⟨herror, e, hmsg, hr⟩ | ⟨hmsg, hr⟩ |
    ⟨e, hmsg, hr, htype, -⟩
  · obtain ⟨hensured, hsome⟩ := tracked_ensure h
    rw [hmsg, hr]
    constructor
    · have hbuffered := tracked_of_ledger hensured hsome (some e) []
        (c := t.consumer.ensureMessage.1.buffer e)
        (by simp [AssistantTurn.perform, Consumer.buffer]) rfl rfl rfl
      have hsplit := perform_perform (t.receiving (some e)) t.consumer.ensureMessage.1
        (t.consumer.ensureMessage.1.buffer e) t.consumer.ensureMessage.2 [] false false
      rw [List.append_nil] at hsplit
      rw [← hsplit]
      exact hbuffered
    · intro hcompleted
      rw [hcompleted] at herror
      cases herror
  · rw [hmsg, hr]
    constructor
    · refine ⟨?_, h.born, h.unborn, h.text, h.stored⟩
      simpa [AssistantTurn.perform, AssistantTurn.receiving] using h.ledger
    · intro hcompleted
      rw [completed_is_message hcompleted] at hmsg
      cases hmsg
  · rw [hr] at hgo ⊢
    rw [hmsg]
    refine ⟨tracked_takeUp h e a hgo, fun hcompleted => ?_⟩
    exact absurd (takeUp_completed_stops (htype.trans hcompleted)) hgo

theorem react_fail_status {c : Consumer} {status : MessageStatus} (hearly : a.raisesEarly = false)
    (hnext : (c.react ws a).next = .fail status) : status ≠ .generating := by
  rcases react_cases c hearly with ⟨-, e, -, hr⟩ | ⟨-, hr⟩ | ⟨e, -, hr, -⟩
  · rw [hr] at hnext
    cases hnext
    simp
  · rw [hr] at hnext
    cases hnext
  · rw [hr] at hnext
    unfold Consumer.takeUp at hnext
    dsimp only at hnext
    split at hnext
    · cases hnext
      simp
    · split_ifs at hnext

theorem settled_react_iff (h : TurnTracked t)
    (hearly : a.raisesEarly = false) (hstop : (t.consumer.react ws a).next = .stop) :
    TurnSettled ((t.receiving (a.event.messageEvent ws)).perform
      (t.consumer.react ws a).consumer (t.consumer.react ws a).calls true) ↔
      a.event.textBindable := by
  rcases react_cases t.consumer hearly with ⟨-, e, -, hr⟩ | ⟨-, hr⟩ | ⟨e, hmsg, hr, htype, hpayload⟩
  · rw [hr] at hstop
    cases hstop
  · rw [hr] at hstop
    cases hstop
  · rw [hr] at hstop
    rw [hr, hmsg, settled_stop_iff h hstop, htype]
    constructor
    · intro hbind hcompleted
      rw [← hpayload hcompleted]
      exact hbind hcompleted
    · intro hbind hcompleted
      rw [hpayload hcompleted]
      exact hbind hcompleted

theorem settled_early_iff (h : TurnTracked t) (endedAt : Int) :
    TurnSettled ((t.receiving (a.event.messageEvent ws)).perform
      (t.consumer.finalizeAbnormalTurn .interrupted endedAt).1
      (t.consumer.finalizeAbnormalTurn .interrupted endedAt).2 true) ↔
      a.event.messageEvent ws = none := by
  have hsettled := settled_finalize h .interrupted (by simp) endedAt
  constructor
  · intro hlost
    have hhanded : t.received = t.received ++ (a.event.messageEvent ws).toList :=
      hsettled.handed.symm.trans hlost.handed
    cases hmsg : a.event.messageEvent ws with
    | none => rfl
    | some e => simp [hmsg] at hhanded
  · intro hmsg
    refine ⟨hsettled.status, ?_, hsettled.content⟩
    rw [hmsg]
    exact hsettled.handed.trans (List.append_nil _).symm

theorem event_step {t' : AssistantTurn} {endedAt : Int}
    (h : TurnTracked t) (hover : t.isOver = false)
    (hs : turnStep ws t (.event a endedAt) = some t') :
    TrackedWhileRunning t' ∧ (SettledWhenOver t' ↔ FinalizesTurn ws t (.event a endedAt)) := by
  simp only [turnStep, hover, Bool.false_eq_true, if_false, Option.some.injEq] at hs
  subst hs
  cases hearly : a.raisesEarly with
  | true =>
    have hr := react_early ws t.consumer hearly
    simp only [Consumer.receive, hr, List.nil_append, FinalizesTurn, hearly, true_implies]
    refine ⟨fun hrunning => absurd hrunning (by simp [AssistantTurn.perform]), ?_⟩
    rw [SettledWhenOver, settled_early_iff h endedAt]
    constructor
    · intro hmsg
      refine ⟨hmsg rfl, fun hcompleted => ?_⟩
      rw [completed_is_message hcompleted] at hmsg
      exact absurd (hmsg rfl) (by simp)
    · exact fun hfinal _ => hfinal.1
  | false =>
    simp only [FinalizesTurn, hearly, Bool.false_eq_true, false_implies, true_and]
    cases hnext : (t.consumer.react ws a).next with
    | stop =>
      simp only [Consumer.receive, hnext]
      refine ⟨fun hrunning => absurd hrunning (by simp [AssistantTurn.perform]), ?_⟩
      rw [← settled_react_iff h hearly hnext]
      exact ⟨fun hsettled => hsettled rfl, fun hsettled _ => hsettled⟩
    | goOn =>
      have hgo : (t.consumer.react ws a).next ≠ .stop := by simp [hnext]
      obtain ⟨htracked, hbind⟩ := tracked_react h hearly hgo
      simp only [Consumer.receive, hnext]
      refine ⟨fun _ => htracked, iff_of_true (fun hdone => ?_) hbind⟩
      cases hdone
    | fail status =>
      have hgo : (t.consumer.react ws a).next ≠ .stop := by simp [hnext]
      obtain ⟨htracked, hbind⟩ := tracked_react h hearly hgo
      simp only [Consumer.receive, hnext]
      refine ⟨fun hrunning => absurd hrunning (by simp [AssistantTurn.perform]),
        iff_of_true (fun _ => ?_) hbind⟩
      have hsettled := settled_finalize htracked _ (react_fail_status hearly hnext) endedAt
      rw [perform_perform] at hsettled
      exact hsettled

end

theorem silent_end_iff (h : TurnTracked t) :
    SettledWhenOver { t with isOver := true } ↔ NothingToFinalize t := by
  constructor
  · intro hdone
    have hsettled := hdone rfl
    cases hborn : t.consumer.assistantMsgId with
    | false => exact .inl hborn
    | true =>
      refine .inr ⟨?_, fun row hrow => ⟨hsettled.status row hrow, hsettled.content row hrow⟩⟩
      have hledger := h.ledger
      rw [List.map_append, show t.handed.map PendingEvent.event = t.received from
        hsettled.handed] at hledger
      simpa using hledger
  · rintro (hborn | ⟨hpending, hrow⟩) _
    · have hnone : t.row = none := by
        rw [h.born] at hborn
        simpa using hborn
      have hledger := h.ledger
      rw [h.unborn hnone, List.append_nil] at hledger
      exact ⟨by simp [hnone], hledger, by simp [hnone]⟩
    · have hledger := h.ledger
      rw [hpending, List.append_nil] at hledger
      exact ⟨fun row hr => (hrow row hr).1, hledger, fun row hr => (hrow row hr).2⟩

theorem abort_keeps : (TrackedWhileRunning t → TrackedWhileRunning { t with
      row := (MessageCall.updateMessageStatus .interrupted).apply t.row }) ∧
    (SettledWhenOver t → SettledWhenOver { t with
      row := (MessageCall.updateMessageStatus .interrupted).apply t.row }) := by
  have hrow : ∀ row', (MessageCall.updateMessageStatus .interrupted).apply t.row = some row' →
      ∃ row, t.row = some row ∧ row'.status = .interrupted ∧ row'.content = row.content := by
    intro row' hrow'
    obtain ⟨row, hrow, heq⟩ := Option.map_eq_some_iff.mp hrow'
    exact ⟨row, hrow, by rw [← heq]; rfl, by rw [← heq]; rfl⟩
  constructor
  · intro h hover
    obtain ⟨hledger, hborn, hunborn, htext, hstored⟩ := h hover
    refine ⟨hledger, ?_, ?_, htext, ?_⟩
    · simpa [MessageCall.apply] using hborn
    · intro hnone
      exact hunborn (by simpa [MessageCall.apply] using hnone)
    · intro row' hrow'
      obtain ⟨row, hr, -, hcontent⟩ := hrow row' hrow'
      rw [hcontent]
      exact hstored row hr
  · intro h hover
    obtain ⟨-, hhanded, hcontent⟩ := h hover
    refine ⟨fun row' hrow' => ?_, hhanded, fun row' hrow' => ?_⟩
    · obtain ⟨row, -, hstatus, -⟩ := hrow row' hrow'
      rw [hstatus]
      simp
    · obtain ⟨row, hr, -, hsame⟩ := hrow row' hrow'
      rw [hsame]
      exact hcontent row hr

theorem turn_step {t' : AssistantTurn} {i : TurnInput}
    (h : TrackedWhileRunning t) (hq : SettledWhenOver t) (hs : turnStep ws t i = some t') :
    TrackedWhileRunning t' ∧ (SettledWhenOver t' ↔ FinalizesTurn ws t i) := by
  cases hover : t.isOver with
  | true =>
    -- only an abort can still come
    cases i with
    | abort =>
      cases hs
      exact ⟨abort_keeps.1 h, iff_of_true (abort_keeps.2 hq) trivial⟩
    | _ => simp [turnStep, hover] at hs
  | false =>
    have htracked := h hover
    cases i with
    | event a endedAt => exact event_step htracked hover hs
    | recvRaises endedAt =>
      simp only [turnStep, hover, Bool.false_eq_true, if_false, Option.some.injEq] at hs
      subst hs
      refine ⟨fun hrunning => (by cases hrunning), iff_of_true (fun _ => ?_) trivial⟩
      exact settled_finalize htracked _ (by simp) endedAt
    | exhausted | cancelled =>
      simp only [turnStep, hover, Bool.false_eq_true, if_false, Option.some.injEq] at hs
      subst hs
      exact ⟨fun hrunning => (by cases hrunning), silent_end_iff htracked⟩
    | abort =>
      cases hs
      exact ⟨abort_keeps.1 h, iff_of_true (abort_keeps.2 hq) trivial⟩

def closedTurn : List TurnInput :=
  [.event ⟨⟨.messageDelta, .obj [("delta", .str "hi")]⟩, false, 0, 0, 0, 0⟩ 0, .exhausted]

end WittyService
