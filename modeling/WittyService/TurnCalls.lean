import WittyService.TurnFinalization

/-! The calls of one event: at most one that creates the message, then calls that leave its
status alone, then at most one that sets it, after which the turn is over. -/
namespace WittyService

def MessageCall.isPlain : MessageCall → Bool
  | .createMessage | .updateMessageStatus _ | .finalizeMessage .. => false
  | _ => true

def Arrival.takesError (a : Arrival) : Bool := a.event.eventType.isError && !a.raisesEarly

def createdCalls (c c' : Consumer) : List MessageCall :=
  if !c.assistantMsgId && c'.assistantMsgId then [.createMessage] else []

/-- The calls that may set the status where the error branch is not taken. -/
def EndingCalls (isOver : Bool) (endedAt : Int) (ending : List MessageCall) : Prop :=
  ending = [] ∨ isOver = true ∧
    (ending = [.updateMessageStatus .completed, .compactMessageDeltaEvents] ∨
      ∃ text, ending = [.finalizeMessage .interrupted text endedAt])

namespace Consumer

variable (c : Consumer)

theorem ensureMessage_calls :
    c.ensureMessage.2 = if c.assistantMsgId then [] else [.createMessage] := by
  unfold ensureMessage
  split_ifs <;> rfl

theorem flushEvents_plain (now : Int) :
    ∀ call ∈ (c.flushEvents now).2, call.isPlain = true := by
  unfold flushEvents
  split_ifs
  · simp
  · simp [MessageCall.isPlain]

theorem bufferEvent_plain (e : StreamEvent) (a : Arrival) :
    ∀ call ∈ (c.bufferEvent e a).2, call.isPlain = true := by
  unfold bufferEvent
  dsimp only
  split_ifs
  · simp
  · exact flushEvents_plain _ _
  · simp

theorem checkpoint_plain (e : StreamEvent) (a : Arrival) :
    ∀ call ∈ (c.checkpoint e a).2, call.isPlain = true := by
  unfold checkpoint contentCalls
  split_ifs <;> simp [MessageCall.isPlain]

variable (status : MessageStatus) (ws : Workspace)

theorem finalizeAbnormalTurn_calls (now : Int) :
    (c.finalizeAbnormalTurn status now).2 = (c.flushEvents now).2 ++
      if c.assistantMsgId then [.finalizeMessage status c.assistantText now] else [] :=
  rfl

theorem finalizeAbnormalTurn_id (now : Int) :
    (c.finalizeAbnormalTurn status now).1.assistantMsgId = c.assistantMsgId :=
  flushEvents_id c now

theorem takeUp_calls (e : StreamEvent) (a : Arrival) : ∃ plain,
    (∀ call ∈ plain, call.isPlain = true) ∧ (c.takeUp e a).consumer.assistantMsgId = true ∧
      ((c.takeUp e a).next = .stop ∧ (c.takeUp e a).calls = c.ensureMessage.2 ++ (plain ++
          [.updateMessageStatus .completed, .compactMessageDeltaEvents]) ∨
        ((c.takeUp e a).next = .goOn ∨ (c.takeUp e a).next = .fail .interrupted) ∧
          (c.takeUp e a).calls = c.ensureMessage.2 ++ plain) := by
  have hbuffered := bufferEvent_plain c.ensureMessage.1 e a
  have hid : (c.ensureMessage.1.bufferEvent e a).1.assistantMsgId = true := by
    rw [bufferEvent_id, ensureMessage_id]
  unfold takeUp
  dsimp only
  split
  · exact ⟨_, hbuffered, hid, .inr ⟨.inr rfl, rfl⟩⟩
  · next c' hc' =>
    have hid' : c'.assistantMsgId = true := (accumulate_keeps hc').2.trans hid
    have hchecked := checkpoint_plain c' e a
    split_ifs
    · refine ⟨(c.ensureMessage.1.bufferEvent e a).2 ++ (c'.checkpoint e a).2 ++
        ((c'.checkpoint e a).1.flushEvents a.flushedAt).2, ?_, ?_, .inl ⟨rfl, ?_⟩⟩
      · intro call hcall
        rcases List.mem_append.mp hcall with hcall | hcall
        · rcases List.mem_append.mp hcall with hcall | hcall
          · exact hbuffered call hcall
          · exact hchecked call hcall
        · exact flushEvents_plain _ _ call hcall
      · show ((c'.checkpoint e a).1.flushEvents a.flushedAt).1.assistantMsgId = true
        rw [flushEvents_id, checkpoint_id, hid']
      · simp
    · refine ⟨(c.ensureMessage.1.bufferEvent e a).2 ++ (c'.checkpoint e a).2, ?_, ?_,
        .inr ⟨.inl rfl, ?_⟩⟩
      · intro call hcall
        rcases List.mem_append.mp hcall with hcall | hcall
        · exact hbuffered call hcall
        · exact hchecked call hcall
      · rw [checkpoint_id, hid']
      · simp

variable {c' : Consumer} {event : WsEvent} {a : Arrival} {e : StreamEvent}

theorem ensureMessage_created (h : c'.assistantMsgId = true) :
    c.ensureMessage.2 = createdCalls c c' := by
  rw [ensureMessage_calls, createdCalls, h]
  cases c.assistantMsgId <;> rfl

theorem createdCalls_same (h : c'.assistantMsgId = c.assistantMsgId) :
    createdCalls c c' = [] := by
  rw [createdCalls, h]
  cases c.assistantMsgId <;> rfl

theorem fail_calls (c₀ : Consumer) {calls : List MessageCall} (status : MessageStatus)
    (endedAt : Int) (hcalls : ∃ plain, (∀ call ∈ plain, call.isPlain = true) ∧
      calls = createdCalls c₀ c ++ plain) :
    ∃ plain, (∀ call ∈ plain, call.isPlain = true) ∧
      calls ++ (c.finalizeAbnormalTurn status endedAt).2 =
        createdCalls c₀ (c.finalizeAbnormalTurn status endedAt).1 ++ (plain ++
          if c.assistantMsgId then [.finalizeMessage status c.assistantText endedAt] else []) := by
  obtain ⟨plain, hplain, rfl⟩ := hcalls
  refine ⟨plain ++ (c.flushEvents endedAt).2, ?_, ?_⟩
  · intro call hcall
    rcases List.mem_append.mp hcall with hcall | hcall
    · exact hplain call hcall
    · exact flushEvents_plain _ _ call hcall
  · have hid := finalizeAbnormalTurn_id c status endedAt
    rw [finalizeAbnormalTurn_calls, createdCalls, createdCalls, hid]
    simp

theorem takeUpError_obj (h : event.payload.isDict = true) :
    ∃ c', c.takeUpError event = ⟨c', c.ensureMessage.2, .fail .error⟩ ∧
      c'.assistantMsgId = true ∧ c'.assistantText = c.assistantText := by
  unfold takeUpError
  cases hpayload : event.payload with
  | obj payload =>
    exact ⟨_, rfl, ensureMessage_id c, ensureMessage_text c⟩
  | _ => simp [hpayload, Json.isDict] at h

theorem takeUpError_other (h : event.payload.isDict = false) :
    c.takeUpError event = ⟨c, [], .fail .interrupted⟩ := by
  unfold takeUpError
  cases hpayload : event.payload with
  | obj payload => simp [hpayload, Json.isDict] at h
  | _ => rfl

theorem receive_error (endedAt : Int) (h : a.takesError = true) :
    (c.receive ws a endedAt).2.2 = true ∧
      (c.receive ws a endedAt).1.assistantMsgId = true ∧
      ∃ plain, (∀ call ∈ plain, call.isPlain = true) ∧
        (c.receive ws a endedAt).2.1 = createdCalls c (c.receive ws a endedAt).1 ++
          (plain ++ [.finalizeMessage .error c.assistantText endedAt]) := by
  simp only [Arrival.takesError, Arrival.raisesEarly, Bool.and_eq_true, Bool.not_eq_true',
    Bool.or_eq_false_iff, Bool.and_eq_false_iff, Bool.not_eq_false'] at h
  obtain ⟨herror, hraises, hdict⟩ := h
  have hpayload : a.event.payload.isDict = true := by
    rcases hdict with hno | hdict
    · rw [herror] at hno
      cases hno
    · exact hdict
  obtain ⟨c', hreact, hid, htext⟩ := c.takeUpError_obj hpayload
  have hreact : c.react ws a = ⟨c', c.ensureMessage.2, .fail .error⟩ := by
    simp [react, hraises, herror, hreact]
  obtain ⟨plain, hplain, hcalls⟩ := fail_calls c' c .error endedAt
    ⟨[], by simp, (List.append_nil _).symm⟩
  rw [hid, if_pos rfl, htext, ← ensureMessage_created c hid] at hcalls
  simp only [receive, hreact]
  exact ⟨trivial, (finalizeAbnormalTurn_id c' .error endedAt).trans hid, plain, hplain, hcalls⟩

theorem receive_other (endedAt : Int) (h : a.takesError = false) :
    (c.assistantMsgId = true → (c.receive ws a endedAt).1.assistantMsgId = true) ∧
      ∃ plain ending, (∀ call ∈ plain, call.isPlain = true) ∧
        (c.receive ws a endedAt).2.1 =
          createdCalls c (c.receive ws a endedAt).1 ++ (plain ++ ending) ∧
        EndingCalls (c.receive ws a endedAt).2.2 endedAt ending := by
  have hnothing : c.react ws a = ⟨c, [], .goOn⟩ ∨ c.react ws a = ⟨c, [], .fail .interrupted⟩ ∨
      ∃ e, c.react ws a = c.takeUp e a := by
    unfold react
    split_ifs with hraises herror
    · exact .inr (.inl rfl)
    · refine .inr (.inl (takeUpError_other c ?_))
      simpa [Arrival.takesError, Arrival.raisesEarly, hraises, herror] using h
    · exact .inl rfl
    · split
      · exact .inl rfl
      · exact .inr (.inr ⟨_, rfl⟩)
  rcases hnothing with hreact | hreact | ⟨e, hreact⟩
  · simp only [receive, hreact]
    refine ⟨fun hid => hid, [], [], by simp, ?_, .inl rfl⟩
    rw [createdCalls_same c rfl]
    rfl
  · obtain ⟨plain, hplain, hcalls⟩ := fail_calls c c .interrupted endedAt
      ⟨[], by simp, (List.append_nil _).symm⟩
    rw [createdCalls_same c rfl] at hcalls
    have hid := finalizeAbnormalTurn_id c .interrupted endedAt
    simp only [receive, hreact]
    refine ⟨fun h => hid.trans h, plain, _, hplain, hcalls, ?_⟩
    split_ifs
    · exact .inr ⟨rfl, .inr ⟨_, rfl⟩⟩
    · exact .inl rfl
  · obtain ⟨plain, hplain, hid, hcases⟩ := c.takeUp_calls e a
    rw [ensureMessage_created c hid] at hcases
    rcases hcases with ⟨hnext, hcalls⟩ | ⟨hnext | hnext, hcalls⟩
    · simp only [receive, hreact, hnext]
      exact ⟨fun _ => hid, plain, _, hplain, hcalls, .inr ⟨rfl, .inl rfl⟩⟩
    · simp only [receive, hreact, hnext]
      refine ⟨fun _ => hid, plain, [], hplain, ?_, .inl rfl⟩
      rw [hcalls, List.append_nil]
    · obtain ⟨plain', hplain', hcalls'⟩ := fail_calls (c.takeUp e a).consumer c
        .interrupted endedAt ⟨plain, hplain, hcalls⟩
      have hid' := finalizeAbnormalTurn_id (c.takeUp e a).consumer .interrupted endedAt
      simp only [receive, hreact, hnext]
      refine ⟨fun _ => hid'.trans hid, plain', _, hplain', hcalls', ?_⟩
      rw [if_pos hid]
      exact .inr ⟨rfl, .inr ⟨_, rfl⟩⟩

theorem accumulate_text (h : c.accumulate e = some c')
    (hterm : e.eventType.isTerminal = false) (htext : ∃ text, c.assistantText = .str text) :
    ∃ text, c'.assistantText = .str text := by
  unfold accumulate at h
  split at h
  · split at h
    · cases h
      exact ⟨_, rfl⟩
    · cases h
  · next heq => simp [EventType.isTerminal, heq] at hterm
  · cases h
    exact htext

theorem takeUp_text (hgo : (c.takeUp e a).next = .goOn)
    (htext : ∃ text, c.assistantText = .str text) :
    ∃ text, (c.takeUp e a).consumer.assistantText = .str text := by
  have hbuffered : ∃ text, (c.ensureMessage.1.bufferEvent e a).1.assistantText = .str text := by
    rw [bufferEvent_text, ensureMessage_text]
    exact htext
  unfold takeUp at hgo ⊢
  dsimp only at hgo ⊢
  split
  · exact hbuffered
  · next c' hc' =>
    rw [hc'] at hgo
    split_ifs at hgo ⊢ with hterm
    rw [checkpoint_text]
    exact accumulate_text _ hc' (Bool.not_eq_true _ ▸ hterm) hbuffered

theorem receive_text {endedAt : Int}
    (hgo : (c.receive ws a endedAt).2.2 = false) (htext : ∃ text, c.assistantText = .str text) :
    ∃ text, (c.receive ws a endedAt).1.assistantText = .str text := by
  have hnext : (c.react ws a).next = .goOn := by
    unfold receive at hgo
    dsimp only at hgo
    cases h : (c.react ws a).next with
    | goOn => rfl
    | stop | fail status =>
      rw [h] at hgo
      cases hgo
  have hconsumer : ∃ text, (c.react ws a).consumer.assistantText = .str text := by
    unfold react at hnext ⊢
    split_ifs at hnext ⊢ with hraises herror hsession
    · cases hdict : a.event.payload.isDict with
      | true =>
        obtain ⟨c', hc', -⟩ := c.takeUpError_obj hdict
        rw [hc'] at hnext
        cases hnext
      | false =>
        rw [takeUpError_other c hdict] at hnext
        cases hnext
    · exact htext
    · split at hnext
      · exact htext
      · exact takeUp_text c hnext htext
  unfold receive
  simp only [hnext]
  exact hconsumer

end Consumer

end WittyService
