import WittyService.ChannelRouter

/-! The ways in which the processing of a message goes on, one case for each. -/
namespace WittyService

namespace ProcessAwait

def running? : ProcessAwait → Option TurnContext
  | turnEvent turn _ | deferredNotice turn _ _ | interactionNotice turn _ _
  | rejectInteraction turn _ | joinPump turn _ => some turn
  | _ => none

def finalText? : ProcessAwait → Option String
  | turnEvent _ outcome | deferredNotice _ outcome _ | interactionNotice _ outcome _
  | rejectInteraction _ outcome | joinPump _ (.outcome outcome) => outcome.finalText
  | _ => none

def Ends : ProcessAwait → Answer → Prop
  | notBound, .sent _ _ | notBound, .raised | resolveSession _, .raised | resolveError, .sent _ _
  | resolveError, .raised | placeholder _, .raised | delivery _ _ _ _, .raised => True
  | _, _ => False

def Cancels : ProcessAwait → Answer → Prop
  | notBound, .cancelled | resolveSession _, .cancelled | resolveError, .cancelled
  | placeholder _, .cancelled | delivery _ _ _ _, .cancelled => True
  | _, _ => False

end ProcessAwait

namespace RouteState

variable {cfg : RouterConfig} {s s' : RouteState} {id : Nat} {item : QueuedMessage}

def leave (s : RouteState) (turn : TurnContext) : RouteState :=
  { s with
    current := none
    stoppedTurnId := if s.stoppedTurnId == some turn.turnId then none else s.stoppedTurnId }

def noticed (turn : TurnContext) (edited : Bool) : TurnContext :=
  if edited then turn else { turn with nonFinalSent := turn.nonFinalSent + 1 }

inductive ProcessCase (cfg : RouterConfig) (s : RouteState) (id : Nat) (item : QueuedMessage) :
    ProcessAwait → Answer → RouteState → Prop where
  | ends {await : ProcessAwait} {answer : Answer} (h : await.Ends answer) :
    ProcessCase cfg s id item await answer (s.endMessage id item)
  | cancels {await : ProcessAwait} {answer : Answer} (h : await.Cancels answer) :
    ProcessCase cfg s id item await answer (s.cancelMessage id item)
  | refuses (bound : Option String) (code message : String) :
    ProcessCase cfg s id item (.resolveSession bound) (.domainError code message)
      ((s.say item.turnId (.failure (cfg.renderError code)) none).await id item .resolveError)
  | resolves (bound : Option String) (sessionId : String) :
    ProcessCase cfg s id item (.resolveSession bound) (.session sessionId)
      (s.sendPlaceholder id item bound sessionId)
  | starts (turn : TurnContext) (delivered : Bool) (ref lastText : Option String) :
    ProcessCase cfg s id item (.placeholder turn) (.placeholderSent delivered ref lastText)
      (s.startTurn cfg id item turn delivered ref lastText)
  | runs {await : ProcessAwait} {answer : Answer} (turn : TurnContext) (await' : ProcessAwait)
    (h : await.running? = some turn) (hopen : ∀ exit, await ≠ .joinPump turn exit)
    (h' : await'.running? = some turn)
    (hfinal : ∀ text, await'.finalText? = some text →
      await.finalText? = some text ∨ answer = .signal (.terminal text)) :
    ProcessCase cfg s id item await answer (s.await id item await')
  | defers (turn : TurnContext) (outcome : TurnOutcome) (hfirst : turn.noticeSent = false)
    (edit : Option String) (hedit : edit = if cfg.canEdit then s.placeholderRef else none) :
    ProcessCase cfg s id item (.turnEvent turn outcome) (.signal .stall)
      ((s.say turn.turnId .deferredNotice edit).await id item
        (.deferredNotice { turn with noticeSent := true } { outcome with deferred := true }
          edit.isSome))
  | noticed (turn : TurnContext) (outcome : TurnOutcome) (edited delivered : Bool)
    (ref : Option String) :
    ProcessCase cfg s id item (.deferredNotice turn outcome edited) (.sent delivered ref)
      (s.await id item (.turnEvent (noticed turn edited) outcome))
  | asks (turn : TurnContext) (outcome : TurnOutcome) (requestId : Option String)
    (hfirst : turn.noticeSent = false) :
    ProcessCase cfg s id item (.turnEvent turn outcome) (.signal (.questionAsked requestId))
      ((s.say turn.turnId .interactionNotice none).await id item
        (.interactionNotice { turn with
          noticeSent := true
          nonFinalSent := turn.nonFinalSent + 1 } outcome requestId))
  | joins (turn : TurnContext) (exit : TurnExit) (lastText : Option String) :
    ProcessCase cfg s id item (.joinPump turn exit) (.pumpDone lastText)
      (s.pumpJoined cfg id item turn lastText exit)
  | delivers (turn : TurnContext) (final : Bool) (ref : Option String) (rest : List String)
    (delivered : Bool) (sentRef : Option String) :
    ProcessCase cfg s id item (.delivery turn final ref rest) (.sent delivered sentRef)
      (if delivered then s.deliver cfg id item turn final ref rest
        else s.clearPlaceholder.endMessage id item)

variable {await : ProcessAwait} {answer : Answer} {turn : TurnContext} {outcome : TurnOutcome}
  {lastText edit : Option String} {event : RouteEvent} {turnId : Option Nat} {text : OutboundText}

theorem refuseQuestion_case {requestId : Option String} (h : await.running? = some turn)
    (hopen : ∀ exit, await ≠ .joinPump turn exit) (hfinal : await.finalText? = outcome.finalText) :
    ProcessCase cfg s id item await answer (s.refuseQuestion id item turn outcome requestId) := by
  unfold refuseQuestion
  split
  · exact .runs turn _ h hopen rfl fun text htext => .inl (hfinal.trans htext)
  · exact .runs turn _ h hopen rfl fun text htext => .inl (hfinal.trans htext)

theorem consume_case {signal : TurnSignal} :
    ProcessCase cfg s id item (.turnEvent turn outcome) (.signal signal)
      (s.consume cfg id item turn outcome signal) := by
  cases signal with
  | stall =>
    simp only [consume, markDeferred]
    split
    · exact .runs turn _ rfl nofun rfl fun text htext => .inl htext
    · next hfirst => exact .defers turn outcome ((Bool.not_eq_true _).mp hfirst) _ rfl
  | questionAsked requestId =>
    simp only [consume, handleInteraction]
    split
    · exact refuseQuestion_case rfl nofun rfl
    · next hfirst => exact .asks turn outcome requestId ((Bool.not_eq_true _).mp hfirst)
  | ended | errorEvent code message | other =>
    exact .runs turn _ rfl nofun rfl fun text htext => .inl htext
  | error code message =>
    refine .runs turn _ rfl nofun rfl fun text htext => .inl ?_
    split at htext
    · exact htext
    · exact htext
  | terminal final =>
    refine .runs turn _ rfl nofun rfl fun text htext => .inr ?_
    have hfinal : final = some text := htext
    rw [hfinal]

theorem processStep_case (h : s.processStep cfg id item await answer = some s') :
    ProcessCase cfg s id item await answer s' := by
  unfold processStep at h
  have hends {await : ProcessAwait} {answer : Answer} (hend : await.Ends answer) :
      ProcessCase cfg s id item await answer (s.endMessage id item) := .ends hend
  have hcancels {await : ProcessAwait} {answer : Answer} (hcancel : await.Cancels answer) :
      ProcessCase cfg s id item await answer (s.cancelMessage id item) := .cancels hcancel
  have hleaves {await : ProcessAwait} {answer : Answer} {turn : TurnContext} (exit : TurnExit)
      (hin : await.running? = some turn) (hopen : ∀ exit, await ≠ .joinPump turn exit)
      (hexit : exit = .raised ∨ exit = .cancelled) :
      ProcessCase cfg s id item await answer (s.leaveTurn id item turn exit) := by
    refine .runs turn (.joinPump turn exit) hin hopen rfl fun text htext => ?_
    obtain rfl | rfl := hexit
    · cases htext
    · cases htext
  split at h <;> cases h
  -- the text for a route without an agent
  · exact hends trivial
  · exact hends trivial
  · exact hcancels trivial
  -- the session
  · exact .resolves _ _
  · exact .refuses _ _ _
  · exact hends trivial
  · exact hcancels trivial
  -- the text for its error
  · exact hends trivial
  · exact hends trivial
  · exact hcancels trivial
  -- the placeholder
  · exact .starts _ _ _ _
  · exact hends trivial
  · exact hcancels trivial
  -- the next event of the turn
  · exact consume_case
  · exact hleaves .cancelled rfl nofun (.inr rfl)
  -- the notice of a stall
  · exact .noticed _ _ _ _ _
  · exact hleaves .raised rfl nofun (.inl rfl)
  · exact hleaves .cancelled rfl nofun (.inr rfl)
  -- the notice of a question and its refusal
  · exact refuseQuestion_case rfl nofun rfl
  · exact hleaves .raised rfl nofun (.inl rfl)
  · exact hleaves .cancelled rfl nofun (.inr rfl)
  · exact .runs _ _ rfl nofun rfl fun text htext => .inl htext
  · exact hleaves .cancelled rfl nofun (.inr rfl)
  -- the end of the pump
  · exact .joins _ _ _
  -- a segment
  · exact .delivers _ _ _ _ _ _
  · exact hends trivial
  · exact hcancels trivial

inductive FinishCase (cfg : RouterConfig) (s : RouteState) (id : Nat) (item : QueuedMessage)
    (turn : TurnContext) (outcome : TurnOutcome) (lastText : Option String) :
    RouteState → Prop where
  | aborted (h : outcome.aborted = true ∨ s.stoppedTurnId = some turn.turnId) :
    FinishCase cfg s id item turn outcome lastText
      ((s.leave turn).clearPlaceholder.endMessage id item)
  | gated (hclosed : s.turnDeliveryAllowed turn = false) :
    FinishCase cfg s id item turn outcome lastText
      ((s.leave turn).clearPlaceholder.endMessage id item)
  | fails (hgo : outcome.aborted = false ∧ s.stoppedTurnId ≠ some turn.turnId)
    (hopen : s.turnDeliveryAllowed turn = true) (hnone : outcome.finalText.or lastText = none) :
    FinishCase cfg s id item turn outcome lastText
      ((s.leave turn).deliver cfg id item turn false s.placeholderRef
        (cfg.plan (cfg.renderError outcome.renderedCode) turn.nonFinalSent))
  | answers (hgo : outcome.aborted = false ∧ s.stoppedTurnId ≠ some turn.turnId)
    (hopen : s.turnDeliveryAllowed turn = true) (text : String)
    (htext : outcome.finalText.or lastText = some text) :
    FinishCase cfg s id item turn outcome lastText
      ((s.leave turn).deliver cfg id item turn true (s.placeholderRef.or s.activePlaceholder)
        (cfg.plan text turn.nonFinalSent))

theorem finishTurn_case (h : s.finishTurn cfg id item turn outcome lastText = s') :
    FinishCase cfg s id item turn outcome lastText s' := by
  rw [← h]
  unfold finishTurn
  extract_lets stoppedByUser t
  split
  · next hends =>
    refine .aborted ?_
    simpa [stoppedByUser] using hends
  · next hgo =>
    have hgo' : outcome.aborted = false ∧ s.stoppedTurnId ≠ some turn.turnId := by
      simpa [stoppedByUser] using hgo
    split
    · next hnone =>
      unfold deliverError
      split
      · next hopen => exact .fails hgo' hopen hnone
      · next hclosed => exact .gated ((Bool.not_eq_true _).mp hclosed)
    · next text htext =>
      split
      · next hopen => exact .answers hgo' hopen text htext
      · next hclosed => exact .gated ((Bool.not_eq_true _).mp hclosed)

/-! What the steps around an await leave alone, and what they add to the trace. -/

/-- The running turn, its stop, the binding, the agent and the commands are the same. -/
structure Keeps (s t : RouteState) : Prop where
  current : t.current = s.current
  stopped : t.stoppedTurnId = s.stoppedTurnId
  version : t.bindingVersion = s.bindingVersion
  session : t.activeSession = s.activeSession
  agent : t.agentId = s.agentId
  commands : t.commands = s.commands

namespace Keeps

theorem refl (s : RouteState) : s.Keeps s := ⟨rfl, rfl, rfl, rfl, rfl, rfl⟩

theorem trans {t : RouteState} (h : s.Keeps t) (h' : t.Keeps s') : s.Keeps s' :=
  ⟨h'.current.trans h.current, h'.stopped.trans h.stopped, h'.version.trans h.version,
    h'.session.trans h.session, h'.agent.trans h.agent, h'.commands.trans h.commands⟩

end Keeps

theorem emit_keeps : s.Keeps (s.emit event) := ⟨rfl, rfl, rfl, rfl, rfl, rfl⟩

theorem say_keeps :
    s.Keeps (s.say turnId text edit) :=
  emit_keeps

theorem await_keeps : s.Keeps (s.await id item await) :=
  ⟨rfl, rfl, rfl, rfl, rfl, rfl⟩

theorem say_await_keeps : s.Keeps ((s.say turnId text edit).await id item await) :=
  say_keeps.trans await_keeps

theorem workerExit_keeps : s.Keeps (s.workerExit id) := ⟨rfl, rfl, rfl, rfl, rfl, rfl⟩

theorem clearPlaceholder_keeps : s.Keeps s.clearPlaceholder := ⟨rfl, rfl, rfl, rfl, rfl, rfl⟩

theorem startProcess_keeps : s.Keeps (s.startProcess id item) := by
  unfold startProcess
  split
  · exact say_await_keeps
  · exact await_keeps

theorem takeNext_keeps : s.Keeps (s.takeNext id) := by
  unfold takeNext
  split
  · exact workerExit_keeps
  · next rest _ =>
    have htaken : s.Keeps { s with queue := rest } := ⟨rfl, rfl, rfl, rfl, rfl, rfl⟩
    exact htaken.trans (emit_keeps.trans startProcess_keeps)

theorem endMessage_keeps : s.Keeps (s.endMessage id item) := emit_keeps.trans takeNext_keeps

theorem cancelMessage_keeps : s.Keeps (s.cancelMessage id item) := emit_keeps.trans workerExit_keeps

theorem clear_keeps : s.Keeps (s.clearPlaceholder.endMessage id item) :=
  clearPlaceholder_keeps.trans endMessage_keeps

theorem deliver_keeps {final : Bool} {ref : Option String}
    {actions : List String} : s.Keeps (s.deliver cfg id item turn final ref actions) := by
  cases actions with
  | nil => exact clear_keeps
  | cons text rest => exact say_await_keeps

theorem finishTurn_keeps :
    (s.leave turn).Keeps (s.finishTurn cfg id item turn outcome lastText) := by
  generalize hend : s.finishTurn cfg id item turn outcome lastText = s'
  cases finishTurn_case hend with
  | aborted h | gated hclosed => exact clear_keeps
  | fails hgo hopen hnone | answers hgo hopen text htext => exact deliver_keeps

def takingEvents (s : RouteState) : List RouteEvent :=
  match s.queue with
  | [] => []
  | item :: _ =>
    .taken item.turnId ::
      match s.agentId with
      | none => [.sent item.turnId .notBound none]
      | some _ => []

theorem mem_takingEvents (h : event ∈ s.takingEvents) :
    ∃ turnId, event = .taken turnId ∨ event = .sent (some turnId) .notBound none := by
  unfold takingEvents at h
  split at h
  · cases h
  · next item rest hqueue =>
    obtain rfl | h := List.mem_cons.mp h
    · exact ⟨_, .inl rfl⟩
    · split at h
      · exact ⟨item.turnId, .inr (List.mem_singleton.mp h)⟩
      · cases h

theorem takeNext_trace : (s.takeNext id).trace = s.trace ++ s.takingEvents := by
  unfold takeNext
  split
  · next hqueue => simp [takingEvents, hqueue, workerExit]
  · next item rest hqueue =>
    cases hagent : s.agentId with
    | none => simp [takingEvents, hqueue, hagent, startProcess, say, emit, RouteState.await]
    | some agentId => simp [takingEvents, hqueue, hagent, startProcess, emit, RouteState.await]

theorem endMessage_trace :
    (s.endMessage id item).trace = s.trace ++ .ended item.turnId :: s.takingEvents := by
  rw [endMessage, takeNext_trace]
  simp [emit, takingEvents]

end RouteState

end WittyService
