import WittyService.RouteBinding

/-! What a route says in a step: the worker to the message in process, the steps beside it to
nobody in particular. -/
namespace WittyService

open GuardedRuns ServiceQueues

def OutboundText.OfTurn : OutboundText → Prop
  | answer _ | failure _ | deferredNotice | interactionNotice => True
  | _ => False

/-- The event is not one of a worker, and does not acknowledge a `/new`. -/
def RouteEvent.Beside : RouteEvent → Prop
  | taken _ | ended _ | sent (some _) _ _ | sent none (.newAck _) _ => False
  | _ => True

def RouteEvent.Silent : RouteEvent → Prop
  | taken _ | sent (some _) _ _ => False
  | _ => True

namespace ProcessAwait

def turn? : ProcessAwait → Option TurnContext
  | placeholder turn | turnEvent turn _ | deferredNotice turn _ _ | interactionNotice turn _ _
  | rejectInteraction turn _ | joinPump turn _ | delivery turn _ _ _ => some turn
  | notBound | resolveSession _ | resolveError => none

/-- The turn says something more, whether it is superseded or not: its one notice, or the next
segment of a text it has begun. -/
def SpeaksOn : ProcessAwait → Answer → Prop
  | turnEvent turn _, .signal .stall | turnEvent turn _, .signal (.questionAsked _) =>
    turn.noticeSent = false
  | delivery _ _ _ rest, .sent true _ => rest ≠ []
  | _, _ => False

def Resolves : ProcessAwait → Answer → Prop
  | resolveSession _, .session _ => True
  | _, _ => False

def version? (await : ProcessAwait) : Option Nat := await.turn?.map TurnContext.bindingVersion

end ProcessAwait

namespace RouteState

variable {cfg : RouterConfig} {s s' t : RouteState} {id : Nat} {item : QueuedMessage}

/-- The turn of the await, if there is one, is of the present binding, or it is one of those
that `SpeaksOn` names. -/
def MaySpeak (s : RouteState) (await : ProcessAwait) (answer : Answer) : Prop :=
  (∀ turn, await.turn? = some turn → turn.bindingVersion = s.bindingVersion) ∨
    await.SpeaksOn answer

def Says (s : RouteState) (item : QueuedMessage) (await : ProcessAwait) (answer : Answer) :
    RouteEvent → Prop
  | .taken _ | .ended _ => True
  | .sent (some turnId) text _ => text = .notBound ∨
      (text = .placeholder ∧ turnId = item.turnId ∧ await.Resolves answer) ∨
        (text.OfTurn ∧ turnId = item.turnId ∧ s.MaySpeak await answer)
  | _ => False

variable {await : ProcessAwait} {answer : Answer}

/-- `t` is `s` with a trace that grew by what may be said. -/
def SaysUpTo (s : RouteState) (item : QueuedMessage) (await : ProcessAwait) (answer : Answer)
    (t : RouteState) : Prop :=
  ∃ events, t.trace = s.trace ++ events ∧ ∀ event ∈ events, s.Says item await answer event

theorem takingEvents_says : ∀ event ∈ t.takingEvents, s.Says item await answer event := by
  intro event hmem
  obtain ⟨turnId, rfl | rfl⟩ := mem_takingEvents hmem
  · trivial
  · exact .inl rfl

theorem endMessage_says (htrace : t.trace = s.trace) :
    s.SaysUpTo item await answer (t.endMessage id item) := by
  refine ⟨.ended item.turnId :: t.takingEvents, ?_, fun event hmem => ?_⟩
  · rw [endMessage_trace, htrace]
  · obtain rfl | hmem := List.mem_cons.mp hmem
    · trivial
    · exact takingEvents_says event hmem

theorem cancelMessage_says (htrace : t.trace = s.trace) :
    s.SaysUpTo item await answer (t.cancelMessage id item) := by
  refine ⟨[.ended item.turnId], congrArg (· ++ _) htrace, fun event hmem => ?_⟩
  rw [List.mem_singleton.mp hmem]
  trivial

theorem silent_says (htrace : t.trace = s.trace) : s.SaysUpTo item await answer t :=
  ⟨[], by rw [htrace, List.append_nil], nofun⟩

variable {text : OutboundText} {turn : TurnContext} {final : Bool} {ref : Option String}
  {event : RouteEvent}

theorem text_says (htext : text.OfTurn) (hmay : s.MaySpeak await answer)
    {edit : Option String} (htrace : t.trace = s.trace ++ [.sent item.turnId text edit]) :
    s.SaysUpTo item await answer t := by
  refine ⟨_, htrace, fun event hmem => ?_⟩
  rw [List.mem_singleton.mp hmem]
  exact .inr (.inr ⟨htext, rfl, hmay⟩)

theorem deliver_trace {text : String}
    {rest : List String} : (s.deliver cfg id item turn final ref (text :: rest)).trace =
      s.trace ++ [.sent turn.turnId (if final then .answer text else .failure text)
        (if cfg.canEdit then ref else none)] :=
  rfl

theorem ofTurn_final {text : String} :
    (if final then OutboundText.answer text else .failure text).OfTurn := by
  cases final with
  | false | true => trivial

theorem deliver_says (htrace : t.trace = s.trace) (howns : turn.turnId = item.turnId)
    {actions : List String} (hmay : actions ≠ [] → s.MaySpeak await answer) :
    s.SaysUpTo item await answer (t.deliver cfg id item turn final ref actions) := by
  cases actions with
  | nil => exact endMessage_says htrace
  | cons text rest =>
    have hgrown : (t.deliver cfg id item turn final ref (text :: rest)).trace =
        s.trace ++ [.sent item.turnId (if final then .answer text else .failure text)
          (if cfg.canEdit then ref else none)] := by
      rw [deliver_trace, htrace, howns]
    exact text_says ofTurn_final (hmay (List.cons_ne_nil text rest)) hgrown

theorem version_of_allowed (h : s.turnDeliveryAllowed turn = true) :
    turn.bindingVersion = s.bindingVersion ∧ s.activeSession = some turn.sessionId := by
  simp only [turnDeliveryAllowed, Bool.and_eq_true, beq_iff_eq] at h
  exact ⟨h.1.symm, h.2⟩

theorem finishTurn_says (htrace : t.trace = s.trace)
    (hversion : t.bindingVersion = s.bindingVersion) {turn' : TurnContext}
    (hturn : await.turn? = some turn)
    (hsame : turn'.bindingVersion = turn.bindingVersion) (howns : turn'.turnId = item.turnId)
    {outcome : TurnOutcome} {lastText : Option String} :
    s.SaysUpTo item await answer (t.finishTurn cfg id item turn' outcome lastText) := by
  have hleave : (t.leave turn').trace = s.trace := htrace
  -- the gate was open, so the turn is of the present binding
  have hmay (hopen : t.turnDeliveryAllowed turn' = true) : s.MaySpeak await answer := by
    refine .inl fun turn'' hturn'' => ?_
    rw [hturn] at hturn''
    cases hturn''
    rw [← hsame, ← hversion]
    exact (version_of_allowed hopen).1
  generalize hend : t.finishTurn cfg id item turn' outcome lastText = s'
  cases finishTurn_case hend with
  | aborted h | gated hclosed => exact endMessage_says hleave
  | fails hgo hopen hnone | answers hgo hopen text htext =>
    exact deliver_says hleave howns fun _ => hmay hopen

section

variable (howns : await.Owns item.turnId) (h : s.processStep cfg id item await answer = some s')
include howns h

theorem processStep_says :
    s.SaysUpTo item await answer s' := by
  cases processStep_case h with
  | ends hends => exact endMessage_says rfl
  | cancels hcancels => exact cancelMessage_says rfl
  | refuses bound code message =>
    have hmay : s.MaySpeak (.resolveSession bound) (.domainError code message) := .inl nofun
    have htext : (OutboundText.failure (cfg.renderError code)).OfTurn := trivial
    exact text_says htext hmay rfl
  | resolves bound sessionId =>
    refine ⟨[.sent item.turnId .placeholder none], ?_, fun event hmem => ?_⟩
    · unfold sendPlaceholder
      split
      · rfl
      · rfl
    · rw [List.mem_singleton.mp hmem]
      exact .inr (.inl ⟨rfl, rfl, trivial⟩)
  | starts turn delivered ref lastText =>
    unfold startTurn
    extract_lets turn' ref' u
    have howns' : turn'.turnId = item.turnId := howns
    split
    · have hturn : (ProcessAwait.placeholder turn).turn? = some turn := rfl
      have hsame : turn'.bindingVersion = turn.bindingVersion := rfl
      exact finishTurn_says rfl rfl hturn hsame howns'
    · exact silent_says rfl
  | runs turn await' hrunning hopen hrunning' | noticed turn outcome edited delivered ref =>
    exact silent_says rfl
  | defers turn outcome hfirst edit hedit =>
    -- the notices are sent without a look at the gate
    have hmay : s.MaySpeak (.turnEvent turn outcome) (.signal .stall) := .inr hfirst
    have htext : OutboundText.deferredNotice.OfTurn := trivial
    have hturnId : turn.turnId = item.turnId := howns
    rw [hturnId]
    exact text_says htext hmay rfl
  | asks turn outcome requestId hfirst =>
    have hmay : s.MaySpeak (.turnEvent turn outcome) (.signal (.questionAsked requestId)) :=
      .inr hfirst
    have htext : OutboundText.interactionNotice.OfTurn := trivial
    have hturnId : turn.turnId = item.turnId := howns
    rw [hturnId]
    exact text_says htext hmay rfl
  | joins turn exit lastText =>
    cases exit with
    | outcome outcome => exact finishTurn_says rfl rfl rfl rfl howns
    | raised => exact endMessage_says rfl
    | cancelled => exact cancelMessage_says rfl
  | delivers turn final ref rest delivered sentRef =>
    cases delivered with
    | true =>
      -- and so is a further segment
      exact deliver_says rfl howns fun hrest => .inr hrest
    | false => exact endMessage_says rfl

theorem processStep_speaksOn (hspeaks : await.SpeaksOn answer) :
    ∃ text edit, text.OfTurn ∧ s'.trace = s.trace ++ [.sent item.turnId text edit] := by
  unfold ProcessAwait.SpeaksOn at hspeaks
  split at hspeaks
  · next turn outcome =>
    have hturnId : turn.turnId = item.turnId := howns
    simp only [processStep, consume, markDeferred, hspeaks, Option.some.injEq] at h
    refine ⟨.deferredNotice, if cfg.canEdit then s.placeholderRef else none, trivial, ?_⟩
    rw [← h, ← hturnId]
    rfl
  · next turn outcome requestId =>
    have hturnId : turn.turnId = item.turnId := howns
    simp only [processStep, consume, handleInteraction, hspeaks, Option.some.injEq] at h
    refine ⟨.interactionNotice, none, trivial, ?_⟩
    rw [← h, ← hturnId]
    rfl
  · next turn final ref rest sentRef =>
    have hturnId : turn.turnId = item.turnId := howns
    obtain ⟨text, rest', rfl⟩ := List.exists_cons_of_ne_nil hspeaks
    simp only [processStep, if_true, Option.some.injEq] at h
    refine ⟨if final then .answer text else .failure text, if cfg.canEdit then ref else none,
      ofTurn_final, ?_⟩
    rw [← h, deliver_trace, hturnId]
  · exact hspeaks.elim

end

theorem takeNext_serving (hsole : t.Sole id) (h : (t.takeNext id).Serving item await) :
    item ∈ t.queue ∧ await.version? = none := by
  unfold takeNext at h
  split at h
  · exact absurd h (not_serving_exit hsole)
  · next front rest hqueue =>
    rw [hqueue]
    unfold startProcess at h
    split at h
    · obtain ⟨rfl, rfl⟩ := serving_await hsole h
      exact ⟨List.mem_cons_self, rfl⟩
    · obtain ⟨rfl, rfl⟩ := serving_await hsole h
      exact ⟨List.mem_cons_self, rfl⟩

/-- The worker has turned to the queue, or it serves the same message in a turn of the same
binding. -/
def ServesOn (item : QueuedMessage) (version? : Option Nat) (queue : List QueuedMessage)
    (t : RouteState) : Prop :=
  ∀ item' await', t.Serving item' await' → (item' ∈ queue ∧ await'.version? = none) ∨
    (item' = item ∧ await'.version? = version?)

variable {version? : Option Nat}

theorem endMessage_servesOn (hsole : t.Sole id) :
    (t.endMessage id item).ServesOn item version? t.queue := by
  intro item' await' h
  have hended : (t.emit (.ended item.turnId)).Sole id := hsole
  obtain ⟨hqueue, hversion⟩ := takeNext_serving hended h
  exact .inl ⟨hqueue, hversion⟩

theorem cancelMessage_servesOn (hsole : t.Sole id) :
    (t.cancelMessage id item).ServesOn item version? t.queue :=
  fun _ _ h => absurd h (not_serving_exit hsole)

theorem await_servesOn (hsole : t.Sole id) (await : ProcessAwait)
    (hversion : await.version? = version?) {queue : List QueuedMessage} :
    (t.await id item await).ServesOn item version? queue := by
  intro item' await' h
  obtain ⟨rfl, rfl⟩ := serving_await hsole h
  exact .inr ⟨rfl, hversion⟩

section

variable (hsole : t.Sole id) {turn : TurnContext} (hversion : some turn.bindingVersion = version?)
include hsole hversion

theorem deliver_servesOn {final : Bool} {ref : Option String} {actions : List String} :
    (t.deliver cfg id item turn final ref actions).ServesOn item version? t.queue := by
  cases actions with
  | nil => exact endMessage_servesOn hsole
  | cons text rest => exact await_servesOn hsole (.delivery turn final ref rest) hversion

theorem finishTurn_servesOn {outcome : TurnOutcome} {lastText : Option String} :
    (t.finishTurn cfg id item turn outcome lastText).ServesOn item version? t.queue := by
  have hleave : (t.leave turn).Sole id := hsole
  generalize hend : t.finishTurn cfg id item turn outcome lastText = s'
  cases finishTurn_case hend with
  | aborted h | gated hclosed => exact endMessage_servesOn hleave
  | fails hgo hopen hnone | answers hgo hopen text htext => exact deliver_servesOn hleave hversion

end

theorem running_version (h : await.running? = some turn) :
    await.version? = some turn.bindingVersion := by
  cases await <;> cases h <;> rfl

theorem processStep_servesOn (hsole : s.Sole id)
    (h : s.processStep cfg id item await answer = some s') (hresolves : ¬ await.Resolves answer) :
    s'.ServesOn item await.version? s.queue := by
  cases processStep_case h with
  | ends hends => exact endMessage_servesOn hsole
  | cancels hcancels => exact cancelMessage_servesOn hsole
  | refuses bound code message | defers turn outcome hfirst edit hedit
    | asks turn outcome requestId hfirst => exact await_servesOn hsole _ rfl
  | resolves bound sessionId => exact absurd trivial hresolves
  | starts turn delivered ref lastText =>
    unfold startTurn
    extract_lets turn' ref' u
    have husole : u.Sole id := hsole
    split
    · exact finishTurn_servesOn husole rfl
    · exact await_servesOn husole _ rfl
  | runs turn await' hrunning hopen hrunning' =>
    have hsame := (running_version hrunning').trans (running_version hrunning).symm
    exact await_servesOn hsole await' hsame
  | noticed turn outcome edited delivered ref =>
    have hsame : (noticed turn edited).bindingVersion = turn.bindingVersion := by
      cases edited with
      | false | true => rfl
    exact await_servesOn hsole (.turnEvent _ outcome) (congrArg some hsame)
  | joins turn exit lastText =>
    have hleft : ({ s with current := none } : RouteState).Sole id := hsole
    cases exit with
    | outcome outcome => exact finishTurn_servesOn hsole rfl
    | raised => exact endMessage_servesOn hleft
    | cancelled => exact cancelMessage_servesOn hleft
  | delivers turn final ref rest delivered sentRef =>
    split
    · exact deliver_servesOn hsole rfl
    · exact endMessage_servesOn hsole

/-- From `s` to `t` the worker does nothing and the binding is the same; a turn that is newly
noted as stopped was aborted. -/
structure StaysBound (s t : RouteState) : Prop where
  version : t.bindingVersion = s.bindingVersion
  session : t.activeSession = s.activeSession
  stopped : ∀ turnId, t.stoppedTurnId = some turnId → s.stoppedTurnId = some turnId ∨
    ∃ command sessionId, .aborted command turnId sessionId ∈ t.trace
  trace : ∃ events, t.trace = s.trace ++ events ∧ ∀ event ∈ events, event.Beside

theorem StaysBound.refl (s : RouteState) : s.StaysBound s :=
  ⟨rfl, rfl, fun _ => .inl, [], (List.append_nil _).symm, nofun⟩

theorem StaysBound.trans (h : s.StaysBound t) (h' : t.StaysBound s') : s.StaysBound s' := by
  obtain ⟨events, htrace, hbeside⟩ := h.trace
  obtain ⟨events', htrace', hbeside'⟩ := h'.trace
  refine ⟨h'.version.trans h.version, h'.session.trans h.session, fun turnId hturnId => ?_,
    events ++ events', ?_, fun event hmem => ?_⟩
  · obtain hnoted | haborted := h'.stopped turnId hturnId
    · refine (h.stopped turnId hnoted).imp_right fun ⟨command, sessionId, hmem⟩ => ?_
      refine ⟨command, sessionId, ?_⟩
      rw [htrace']
      exact List.mem_append_left _ hmem
    · exact .inr haborted
  · rw [htrace', htrace, List.append_assoc]
  · obtain hmem | hmem := List.mem_append.mp hmem
    · exact hbeside event hmem
    · exact hbeside' event hmem

theorem StaysBound.withCommands (h : s.StaysBound t) (commands : List CommandTask) (clock : Nat) :
    s.StaysBound { t with commands := commands, clock := clock } :=
  ⟨h.version, h.session, h.stopped, h.trace⟩

theorem emit_staysBound (h : event.Beside) : s.StaysBound (s.emit event) :=
  ⟨rfl, rfl, fun _ => .inl, [event], rfl, fun event' hmem => by rwa [List.mem_singleton.mp hmem]⟩

theorem say_staysBound (h : (RouteEvent.sent none text none).Beside) :
    s.StaysBound (s.say none text none) :=
  emit_staysBound h

theorem drainQueue_staysBound (s : RouteState) (command : Nat) :
    s.StaysBound (s.drainQueue command) := by
  refine ⟨rfl, rfl, fun _ => .inl, _, rfl, fun event hmem => ?_⟩
  obtain ⟨item, -, rfl⟩ := List.mem_map.mp hmem
  trivial

theorem stopCurrent_staysBound {command : Nat} {found : Option Nat} :
    s.StaysBound (s.stopCurrent command found).1 := by
  unfold stopCurrent
  split
  · next turn agentId hcurrent hagent =>
    refine ⟨rfl, rfl, fun turnId hturnId => .inr ?_,
      [.aborted command turn.turnId turn.sessionId], rfl, fun event hmem => ?_⟩
    · cases hturnId
      exact ⟨command, turn.sessionId, List.mem_append_right _ List.mem_cons_self⟩
    · rw [List.mem_singleton.mp hmem]
      trivial
  · exact emit_staysBound trivial

theorem ensureWorker_staysBound : s.StaysBound s.ensureWorker := by
  have hcreated : s.StaysBound s.createWorker :=
    ⟨rfl, rfl, fun _ => .inl, [], (List.append_nil _).symm, nofun⟩
  unfold ensureWorker
  split
  · split_ifs
    · exact .refl s
    · exact hcreated
  · exact hcreated

theorem inbound_staysBound {message : Inbound}
    (h : routeStep cfg s (.inbound message) = some s') : s.StaysBound s' := by
  cases h
  cases message with
  | plain text =>
    simp only [handleInbound]
    split
    · exact (say_staysBound (by trivial)).withCommands _ _
    · have henqueued : s.StaysBound (s.queued text) :=
        ⟨rfl, rfl, fun _ => .inl, [.enqueued s.clock], rfl, by simp [RouteEvent.Beside]⟩
      exact (henqueued.trans ensureWorker_staysBound).withCommands _ _
  | stop =>
    simp only [handleInbound, handleStop]
    split
    · exact stopCurrent_staysBound.withCommands _ _
    · have hdrained := drainQueue_staysBound s s.clock
      exact (hdrained.trans (say_staysBound (by trivial))).withCommands _ _
  | new =>
    simp only [handleInbound, handleNew]
    split
    · exact (say_staysBound (by trivial)).withCommands _ _
    · exact (StaysBound.refl s).withCommands _ _
  | other => exact (StaysBound.refl s).withCommands _ _

theorem command_staysBound {k : Nat} {answer : Answer}
    (h : routeStep cfg s (.command k answer) = some s') :
    s.StaysBound s' ∨ ∃ command, s'.bindingVersion = s.bindingVersion + 1 ∧
      s'.trace = (s.drainQueue command).trace ++ [.sent none (.newAck s.queue.length) none] ∧
        s'.tasks = s.tasks ∧ s'.stoppedTurnId = s.stoppedTurnId := by
  simp only [routeStep] at h
  split at h
  · cases h
  · next task htask =>
    obtain ⟨result, hresult, rfl⟩ := Option.map_eq_some_iff.mp h
    unfold commandStep at hresult
    split at hresult <;> cases hresult
    · exact .inl (stopCurrent_staysBound.withCommands _ _)
    · exact .inl ((say_staysBound (by trivial)).withCommands _ _)
    · exact .inl ((emit_staysBound (by trivial)).withCommands _ _)
    · next command sessionId => exact .inr ⟨command, rfl, rfl, rfl, rfl⟩
    · exact .inl ((say_staysBound (by trivial)).withCommands _ _)
    · exact .inl ((StaysBound.refl s).withCommands _ _)
    · exact .inl ((StaysBound.refl s).withCommands _ _)
    · exact .inl ((StaysBound.refl s).withCommands _ _)

theorem beside_silent {events : List RouteEvent} (hbeside : ∀ event ∈ events, event.Beside)
    (turnId : Nat) (text : OutboundText) (edit : Option String) :
    .sent (some turnId) text edit ∉ events :=
  fun hmem => hbeside _ hmem

/-- The trace grew by nothing that is said to a turn. -/
def Quieter (s t : RouteState) : Prop :=
  ∃ events, t.trace = s.trace ++ events ∧ ∀ event ∈ events, event.Silent

theorem Quieter.taken (h : s.Quieter t) : t.taken = s.taken := by
  obtain ⟨events, htrace, hsilent⟩ := h
  have htaken : events.filterMap RouteEvent.taken? = [] := by
    refine List.filterMap_eq_nil_iff.mpr fun event hmem => ?_
    have h := hsilent event hmem
    unfold RouteEvent.taken?
    split
    · exact h.elim
    · rfl
  rw [RouteState.taken, htrace, List.filterMap_append, htaken, List.append_nil]
  rfl

theorem quieter_of_trace (htrace : t.trace = s.trace) : s.Quieter t :=
  ⟨[], by rw [htrace, List.append_nil], nofun⟩

theorem beside_silent_event (h : event.Beside) : event.Silent := by
  cases event with
  | taken turnId => exact h
  | sent turnId text edit =>
    cases turnId with
    | none => trivial
    | some id => exact h
  | _ => trivial

theorem beside_quieter {a : RouteAction} (ha : ∀ id answer, a ≠ .worker id answer)
    (h : routeStep cfg s a = some s') : s.Quieter s' := by
  have hbound (hbound : s.StaysBound s') : s.Quieter s' := by
    obtain ⟨events, htrace, hbeside⟩ := hbound.trace
    exact ⟨events, htrace, fun event hmem => beside_silent_event (hbeside event hmem)⟩
  cases a with
  | inbound message => exact hbound (inbound_staysBound h)
  | setAgent agentId =>
    cases h
    exact quieter_of_trace rfl
  | worker id answer => exact absurd rfl (ha id answer)
  | command k answer =>
    obtain hstays | ⟨command, -, htrace, -, -⟩ := command_staysBound h
    · exact hbound hstays
    · refine ⟨_, htrace.trans (List.append_assoc ..), fun event hmem => ?_⟩
      obtain hmem | hmem := List.mem_append.mp hmem
      · obtain ⟨item, -, rfl⟩ := List.mem_map.mp hmem
        trivial
      · rw [List.mem_singleton.mp hmem]
        trivial

end RouteState

end WittyService
