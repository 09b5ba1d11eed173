import WittyService.GatewaySteps
import WittyService.RouteGate
import WittyService.RouteTarget
import WittyService.VisibleMessages

/-! Which messages are dropped without a word. -/
namespace WittyService

open GuardedRuns

namespace ProcessAwait

def Told : ProcessAwait → Prop
  | notBound | resolveError | delivery _ _ _ _ => True
  | _ => False

def Sends : ProcessAwait → Prop
  | notBound | resolveError | placeholder _ | deferredNotice _ _ _ | interactionNotice _ _ _
  | delivery _ _ _ _ => True
  | _ => False

/-- The message is left without a word: its session is not resolved and there is no domain error,
its turn is judged as aborted, or it was left by an exception. -/
def Drops : ProcessAwait → Answer → Prop
  | resolveSession _, .raised | resolveSession _, .cancelled => True
  | joinPump _ (.outcome outcome), .pumpDone _ => outcome.aborted = true
  | joinPump _ _, .pumpDone _ => True
  | _, _ => False

end ProcessAwait

namespace RouteState

variable {cfg : RouterConfig} {s s' t : RouteState} {id : Nat} {item : QueuedMessage}
  {await : ProcessAwait} {answer : Answer} {turnId : Nat}

def Stopped (s : RouteState) (turnId : Nat) : Prop :=
  ∃ command sessionId, .aborted command turnId sessionId ∈ s.trace

/-- The user has stopped the turn, or a `/new` was acknowledged after its message was taken. -/
def Excused (s : RouteState) (turnId : Nat) : Prop :=
  s.Stopped turnId ∨
    ∃ drained, List.Sublist [.taken turnId, .sent none (.newAck drained) none] s.trace

def Answered (s : RouteState) (turnId : Nat) : Prop :=
  ∃ text edit, text.Concluding ∧ .sent (some turnId) text edit ∈ s.trace

def NoSilentDrop (s : RouteState) : Prop :=
  ∀ turnId, .ended turnId ∈ s.trace → s.Answered turnId ∨ s.Excused turnId

def SendsReturn (s : RouteState) : RouteAction → Prop
  | .worker id answer => ∀ item await, s.tasks id = some (.processing item await) →
      await.Sends → answer ≠ .raised ∧ answer ≠ .cancelled
  | _ => True

def DropsExcused (s : RouteState) : RouteAction → Prop
  | .worker id answer => ∀ item await, s.tasks id = some (.processing item await) →
      await.Drops answer → s.Excused item.turnId
  | _ => True

section

variable {events : List RouteEvent}

theorem Stopped.grown (h : s.Stopped turnId)
    (htrace : t.trace = s.trace ++ events) : t.Stopped turnId := by
  obtain ⟨command, sessionId, hmem⟩ := h
  refine ⟨command, sessionId, ?_⟩
  rw [htrace]
  exact List.mem_append_left _ hmem

theorem Excused.grown (h : s.Excused turnId)
    (htrace : t.trace = s.trace ++ events) : t.Excused turnId := by
  obtain hstopped | ⟨drained, hnew⟩ := h
  · exact .inl (hstopped.grown htrace)
  · refine .inr ⟨drained, ?_⟩
    rw [htrace]
    exact hnew.trans (List.sublist_append_left ..)

theorem Answered.grown (h : s.Answered turnId)
    (htrace : t.trace = s.trace ++ events) : t.Answered turnId := by
  obtain ⟨text, edit, hconcluding, hmem⟩ := h
  refine ⟨text, edit, hconcluding, ?_⟩
  rw [htrace]
  exact List.mem_append_left _ hmem

theorem NoSilentDrop.grown (h : s.NoSilentDrop) (htrace : t.trace = s.trace ++ events)
    (hended : ∀ turnId, .ended turnId ∈ events → t.Answered turnId ∨ t.Excused turnId) :
    t.NoSilentDrop := by
  intro turnId hmem
  rw [htrace] at hmem
  obtain hold | hnew := List.mem_append.mp hmem
  · exact (h turnId hold).imp (·.grown htrace) (·.grown htrace)
  · exact hended turnId hnew

end

structure Accountable (s : RouteState) : Prop where
  stopped : ∀ turnId, s.stoppedTurnId = some turnId → s.Stopped turnId
  reads : ∀ item bound, s.Serving item (.resolveSession bound) →
    bound = s.activeSession ∨ s.Excused item.turnId
  bound : ∀ item await turn, s.Serving item await → await.turn? = some turn →
    s.turnDeliveryAllowed turn = true ∨ s.Excused item.turnId
  told : ∀ item await, s.Serving item await → await.Told → s.Answered item.turnId

theorem endMessage_ended (hno : t.NoSilentDrop)
    (htold : t.Answered item.turnId ∨ t.Excused item.turnId) :
    (t.endMessage id item).NoSilentDrop := by
  refine hno.grown endMessage_trace fun turnId hmem => ?_
  obtain heq | hmem := List.mem_cons.mp hmem
  · cases heq
    exact htold.imp (·.grown endMessage_trace) (·.grown endMessage_trace)
  · obtain ⟨turnId', h | h⟩ := mem_takingEvents hmem
    · cases h
    · cases h

section

variable (hsole : t.Sole id) (hstopped : ∀ turnId, t.stoppedTurnId = some turnId → t.Stopped turnId)
include hsole hstopped

theorem takeNext_accountable :
    (t.takeNext id).Accountable := by
  refine ⟨fun turnId h => ?_, fun item bound hserving => .inl ?_,
    fun item await turn hserving hturn => ?_, fun item await hserving htold => ?_⟩
  · rw [takeNext_keeps.stopped] at h
    exact (hstopped turnId h).grown takeNext_trace
  · exact takeNext_reads hsole item bound hserving
  · have hnone := (takeNext_serving hsole hserving).2
    rw [ProcessAwait.version?, hturn] at hnone
    cases hnone
  · unfold takeNext at hserving ⊢
    split at hserving
    · exact absurd hserving (not_serving_exit hsole)
    · next front rest hqueue =>
      have htaken : ({ t with queue := rest }.emit (.taken front.turnId)).Sole id := hsole
      unfold startProcess at hserving ⊢
      split at hserving
      · obtain ⟨rfl, rfl⟩ := serving_await hsole hserving
        exact ⟨.notBound, none, trivial, List.mem_append_right _ List.mem_cons_self⟩
      · obtain ⟨rfl, rfl⟩ := serving_await hsole hserving
        exact htold.elim

theorem endMessage_accountable :
    (t.endMessage id item).Accountable := by
  have hended : (t.emit (.ended item.turnId)).Sole id := hsole
  exact takeNext_accountable hended fun turnId h => (hstopped turnId h).grown rfl

theorem cancelMessage_accountable :
    (t.cancelMessage id item).Accountable :=
  ⟨fun turnId h => (hstopped turnId h).grown rfl,
    fun _ _ hserving => absurd hserving (not_serving_exit hsole),
    fun _ _ _ hserving => absurd hserving (not_serving_exit hsole),
    fun _ _ hserving => absurd hserving (not_serving_exit hsole)⟩

theorem await_accountable (await : ProcessAwait) (hreads : ∀ bound, await ≠ .resolveSession bound)
    (hbound : ∀ turn, await.turn? = some turn →
      t.turnDeliveryAllowed turn = true ∨ t.Excused item.turnId)
    (htold : await.Told → t.Answered item.turnId) : (t.await id item await).Accountable := by
  refine ⟨hstopped, fun item' bound hserving => ?_, fun item' await' turn hserving hturn => ?_,
    fun item' await' hserving h => ?_⟩
  · obtain ⟨-, heq⟩ := serving_await hsole hserving
    exact absurd heq.symm (hreads bound)
  · obtain ⟨rfl, rfl⟩ := serving_await hsole hserving
    exact hbound turn hturn
  · obtain ⟨rfl, rfl⟩ := serving_await hsole hserving
    exact htold h

theorem say_replies (hno : t.NoSilentDrop) {turnId? : Option Nat} {text : OutboundText}
    {edit : Option String}
    {await : ProcessAwait} (hreads : ∀ bound, await ≠ .resolveSession bound)
    (hbound : ∀ turn, await.turn? = some turn →
      t.turnDeliveryAllowed turn = true ∨ t.Excused item.turnId)
    (htold : await.Told → turnId? = some item.turnId ∧ text.Concluding) :
    ((t.say turnId? text edit).await id item await).Accountable ∧
      ((t.say turnId? text edit).await id item await).NoSilentDrop := by
  have hsaid : (t.say turnId? text edit).Sole id := hsole
  refine ⟨await_accountable hsaid (fun turnId h => (hstopped turnId h).grown rfl) await hreads
    (fun turn hturn => (hbound turn hturn).imp_right (·.grown rfl)) fun h => ?_,
    hno.grown rfl fun turnId hmem => ?_⟩
  · obtain ⟨rfl, hconcluding⟩ := htold h
    exact ⟨text, edit, hconcluding, List.mem_append_right _ List.mem_cons_self⟩
  · cases List.mem_singleton.mp hmem

theorem deliver_replies (hno : t.NoSilentDrop) {turn : TurnContext}
    (howns : turn.turnId = item.turnId)
    (hbound : t.turnDeliveryAllowed turn = true ∨ t.Excused item.turnId) {final : Bool}
    {ref : Option String} {actions : List String}
    (htold : actions = [] → t.Answered item.turnId) :
    (t.deliver cfg id item turn final ref actions).Accountable ∧
      (t.deliver cfg id item turn final ref actions).NoSilentDrop := by
  cases actions with
  | nil =>
    have hcleared : t.clearPlaceholder.Sole id := hsole
    have hno' : t.clearPlaceholder.NoSilentDrop := hno
    exact ⟨endMessage_accountable hcleared hstopped, endMessage_ended hno' (.inl (htold rfl))⟩
  | cons text rest =>
    have hconcluding : (if final then OutboundText.answer text else .failure text).Concluding := by
      cases final with
      | false | true => trivial
    refine say_replies hsole hstopped hno nofun (fun turn' hturn' => ?_) fun _ =>
      ⟨congrArg some howns, hconcluding⟩
    cases hturn'
    exact hbound

end

variable {turn : TurnContext}

theorem finishTurn_replies (hplan : ∀ text reserved, cfg.plan text reserved ≠ [])
    (hsole : t.Sole id) (hstopped : ∀ turnId, t.stoppedTurnId = some turnId → t.Stopped turnId)
    (hno : t.NoSilentDrop) (howns : turn.turnId = item.turnId)
    (hbound : t.turnDeliveryAllowed turn = true ∨ t.Excused item.turnId)
    {outcome : TurnOutcome} (haborted : outcome.aborted = true → t.Excused item.turnId)
    {lastText : Option String} (h : t.finishTurn cfg id item turn outcome lastText = s') :
    s'.Accountable ∧ s'.NoSilentDrop := by
  have hleave : (t.leave turn).Sole id := hsole
  have hcleared : (t.leave turn).clearPlaceholder.Sole id := hsole
  have hleft (turnId : Nat) (h : (t.leave turn).stoppedTurnId = some turnId) :
      t.Stopped turnId := by
    obtain hsame | hnone := leave_stopped t turn
    · exact hstopped turnId (hsame.symm.trans h)
    · rw [hnone] at h
      cases h
  cases finishTurn_case h with
  | aborted hends =>
    have hexcused : t.Excused item.turnId := by
      obtain h | h := hends
      · exact haborted h
      · rw [← howns]
        exact .inl (hstopped turn.turnId h)
    exact ⟨endMessage_accountable hcleared hleft, endMessage_ended hno (.inr hexcused)⟩
  | gated hclosed =>
    have hexcused : t.Excused item.turnId := hbound.resolve_left (by simp [hclosed])
    exact ⟨endMessage_accountable hcleared hleft, endMessage_ended hno (.inr hexcused)⟩
  | fails hgo hopen hnone | answers hgo hopen text htext =>
    exact deliver_replies hleave hleft hno howns hbound fun hnil => absurd hnil (hplan _ _)

theorem running_turn (h : await.running? = some turn) :
    await.turn? = some turn := by
  cases await <;> cases h <;> rfl

theorem running_untold (h : await.running? = some turn) : ¬ await.Told := by
  cases await <;> first | exact not_false | cases h

theorem ended_excused (hended : await.Ends answer ∨ await.Cancels answer)
    (hsends : await.Sends → answer ≠ .raised ∧ answer ≠ .cancelled)
    (hdrops : await.Drops answer → s.Excused item.turnId)
    (htold : await.Told → s.Answered item.turnId) :
    s.Answered item.turnId ∨ s.Excused item.turnId := by
  obtain hends | hcancels := hended
  · unfold ProcessAwait.Ends at hends
    split at hends
    · exact .inl (htold trivial)
    · exact .inl (htold trivial)
    · -- the session is not resolved, and nobody is told
      exact .inr (hdrops trivial)
    · exact .inl (htold trivial)
    · exact .inl (htold trivial)
    · -- only a send that raises leaves the placeholder so
      exact absurd rfl (hsends trivial).1
    · exact .inl (htold trivial)
    · exact hends.elim
  · unfold ProcessAwait.Cancels at hcancels
    split at hcancels
    · exact .inl (htold trivial)
    · exact .inr (hdrops trivial)
    · exact .inl (htold trivial)
    · exact absurd rfl (hsends trivial).2
    · exact .inl (htold trivial)
    · exact hcancels.elim

theorem sendPlaceholder_replies (hsole : s.Sole id) (hacc : s.Accountable) (hno : s.NoSilentDrop)
    {bound : Option String} (hserving : s.Serving item (.resolveSession bound))
    {sessionId : String} :
    (s.sendPlaceholder id item bound sessionId).Accountable ∧
      (s.sendPlaceholder id item bound sessionId).NoSilentDrop := by
  have hsession : (if some sessionId = bound then s.activeSession else some sessionId) =
      some sessionId ∨ s.Excused item.turnId := by
    obtain hread | hexcused := hacc.reads item bound hserving
    · refine .inl ?_
      split
      · next hsame => rw [hsame, hread]
      · rfl
    · exact .inr hexcused
  unfold sendPlaceholder
  split
  · next hsame =>
    rw [if_pos hsame] at hsession
    refine say_replies hsole hacc.stopped hno (by rintro _ ⟨⟩) (fun turn hturn => ?_) (by rintro ⟨⟩)
    cases hturn
    exact hsession.imp_left fun hactive => by simp [turnDeliveryAllowed, hactive]
  · have hrebound : ({ s with activeSession := some sessionId } : RouteState).Sole id := hsole
    have hreboundno : ({ s with activeSession := some sessionId } : RouteState).NoSilentDrop := hno
    refine say_replies hrebound hacc.stopped hreboundno (by rintro _ ⟨⟩) (fun turn hturn => ?_)
      (by rintro ⟨⟩)
    cases hturn
    exact .inl (by simp [turnDeliveryAllowed])

section

variable (hplan : ∀ text reserved, cfg.plan text reserved ≠ [])
include hplan

theorem pumpJoined_replies (hsole : s.Sole id) (hacc : s.Accountable) (hno : s.NoSilentDrop)
    {turn : TurnContext}
    (howns : turn.turnId = item.turnId)
    (hbound : s.turnDeliveryAllowed turn = true ∨ s.Excused item.turnId) {exit : TurnExit}
    {lastText : Option String}
    (hdrops : (ProcessAwait.joinPump turn exit).Drops (.pumpDone lastText) →
      s.Excused item.turnId) :
    (s.pumpJoined cfg id item turn lastText exit).Accountable ∧
      (s.pumpJoined cfg id item turn lastText exit).NoSilentDrop := by
  have hleft : ({ s with current := none } : RouteState).Sole id := hsole
  have hleftno : ({ s with current := none } : RouteState).NoSilentDrop := hno
  cases exit with
  | outcome outcome =>
    exact finishTurn_replies hplan hsole hacc.stopped hno howns hbound hdrops rfl
  | raised =>
    exact ⟨endMessage_accountable hleft hacc.stopped,
      endMessage_ended hleftno (.inr (hdrops trivial))⟩
  | cancelled =>
    refine ⟨cancelMessage_accountable hleft hacc.stopped, hleftno.grown rfl fun turnId hmem => ?_⟩
    cases List.mem_singleton.mp hmem
    exact .inr ((hdrops trivial).grown rfl)

theorem processStep_replies (hs : s.Sound) (hacc : s.Accountable) (hno : s.NoSilentDrop)
    (htask : s.tasks id = some (.processing item await))
    (hsends : await.Sends → answer ≠ .raised ∧ answer ≠ .cancelled)
    (hdrops : await.Drops answer → s.Excused item.turnId)
    (h : s.processStep cfg id item await answer = some s') :
    s'.Accountable ∧ s'.NoSilentDrop := by
  have hserving : s.Serving item await := ⟨id, htask⟩
  have hsole : s.Sole id := hs.consistent.sole (by simp [Live, htask])
  have howns : await.Owns item.turnId := hs.tracked.owns item await hserving
  have htold (h : await.Told) : s.Answered item.turnId := hacc.told item await hserving h
  have hbound (turn : TurnContext) (h : await.turn? = some turn) :
      s.turnDeliveryAllowed turn = true ∨ s.Excused item.turnId :=
    hacc.bound item await turn hserving h
  cases processStep_case h with
  | ends hends =>
    have hover := ended_excused (.inl hends) hsends hdrops htold
    exact ⟨endMessage_accountable hsole hacc.stopped, endMessage_ended hno hover⟩
  | cancels hcancels =>
    have hover := ended_excused (.inr hcancels) hsends hdrops htold
    have htrace : (s.cancelMessage id item).trace = s.trace ++ [.ended item.turnId] := rfl
    refine ⟨cancelMessage_accountable hsole hacc.stopped, hno.grown htrace fun turnId hmem => ?_⟩
    cases List.mem_singleton.mp hmem
    exact hover.imp (·.grown htrace) (·.grown htrace)
  | refuses bound code message =>
    exact say_replies hsole hacc.stopped hno (by rintro _ ⟨⟩) (by rintro _ ⟨⟩)
      fun _ => ⟨rfl, trivial⟩
  | resolves bound sessionId => exact sendPlaceholder_replies hsole hacc hno hserving
  | starts turn delivered ref lastText =>
    unfold startTurn
    extract_lets turn' ref' u
    have husole : u.Sole id := hsole
    have howns' : turn'.turnId = item.turnId := howns
    have hubound : u.turnDeliveryAllowed turn' = true ∨ u.Excused item.turnId := hbound turn rfl
    split
    · refine finishTurn_replies hplan husole hacc.stopped hno howns' hubound (fun h => ?_) rfl
      cases h
    · refine ⟨await_accountable husole hacc.stopped _ (by rintro _ ⟨⟩) (fun turn'' hturn => ?_)
        (by rintro ⟨⟩), hno⟩
      cases hturn
      exact hubound
  | runs turn await' hrunning hopen hrunning' hfinal =>
    refine ⟨await_accountable hsole hacc.stopped await' (fun bound heq => ?_)
      (fun turn' hturn => ?_) fun h => ?_, hno⟩
    · rw [heq] at hrunning'
      cases hrunning'
    · rw [running_turn hrunning'] at hturn
      cases hturn
      exact hbound turn (running_turn hrunning)
    · exact absurd h (running_untold hrunning')
  | defers turn outcome hfirst edit hedit | asks turn outcome requestId hfirst =>
    refine say_replies hsole hacc.stopped hno (by rintro _ ⟨⟩) (fun turn' hturn => ?_)
      (by rintro ⟨⟩)
    cases hturn
    exact hbound turn rfl
  | noticed turn outcome edited delivered ref =>
    refine ⟨await_accountable hsole hacc.stopped (.turnEvent _ _) (by rintro _ ⟨⟩)
      (fun turn' hturn => ?_) (fun h => by cases h), hno⟩
    cases hturn
    -- an edit of the placeholder does not count, another text does
    cases edited with
    | false | true => exact hbound turn rfl
  | joins turn exit lastText =>
    exact pumpJoined_replies hplan hsole hacc hno howns (hbound turn rfl) hdrops
  | delivers turn final ref rest delivered sentRef =>
    split
    · exact deliver_replies hsole hacc.stopped hno howns (hbound turn rfl) fun _ => htold trivial
    · have hcleared : s.clearPlaceholder.Sole id := hsole
      have hclearedno : s.clearPlaceholder.NoSilentDrop := hno
      exact ⟨endMessage_accountable hcleared hacc.stopped,
        endMessage_ended hclearedno (.inl (htold trivial))⟩

theorem worker_replies (hs : s.Sound)
    (hacc : s.Accountable) (hno : s.NoSilentDrop) (hsends : s.SendsReturn (.worker id answer))
    (hdrops : s.DropsExcused (.worker id answer)) (h : s.workerStep cfg id answer = some s') :
    s'.Accountable ∧ s'.NoSilentDrop := by
  unfold workerStep at h
  split at h
  · cases h
  · next htask =>
    cases h
    have hsole : s.Sole id := hs.consistent.sole (by simp [Live, htask])
    refine ⟨takeNext_accountable hsole hacc.stopped, hno.grown takeNext_trace fun turnId hmem => ?_⟩
    obtain ⟨turnId', h | h⟩ := mem_takingEvents hmem
    · cases h
    · cases h
  · next item await htask =>
    exact processStep_replies hplan hs hacc hno htask (hsends item await htask)
      (hdrops item await htask) h

end

theorem beside_noEnd {events : List RouteEvent} (hbeside : ∀ event ∈ events, event.Beside)
    (turnId : Nat) : .ended turnId ∉ events :=
  fun hmem => hbeside _ hmem

theorem StaysBound.replies (h : s.StaysBound s') (haside : s.Aside s') (hacc : s.Accountable)
    (hno : s.NoSilentDrop) : s'.Accountable ∧ s'.NoSilentDrop := by
  obtain ⟨events, htrace, hbeside⟩ := h.trace
  refine ⟨⟨fun turnId hturnId => ?_, fun item bound hserving => ?_,
    fun item await turn hserving hturn => ?_, fun item await hserving htold => ?_⟩,
    hno.grown htrace fun turnId hmem => absurd hmem (beside_noEnd hbeside turnId)⟩
  · obtain hnoted | haborted := h.stopped turnId hturnId
    · exact (hacc.stopped turnId hnoted).grown htrace
    · exact haborted
  · rw [h.session]
    exact (hacc.reads item bound (haside.serving _ _ hserving)).imp_right (·.grown htrace)
  · have hallowed : s'.turnDeliveryAllowed turn = s.turnDeliveryAllowed turn := by
      rw [turnDeliveryAllowed, turnDeliveryAllowed, h.version, h.session]
    rw [hallowed]
    exact (hacc.bound item await turn (haside.serving _ _ hserving) hturn).imp_right
      (·.grown htrace)
  · exact (hacc.told item await (haside.serving _ _ hserving) htold).grown htrace

theorem mem_trace_of_taken (h : turnId ∈ s.taken) : .taken turnId ∈ s.trace := by
  obtain ⟨event, hmem, htaken⟩ := List.mem_filterMap.mp h
  cases event with
  | taken turnId' =>
    cases htaken
    exact hmem
  | _ => cases htaken

theorem bindNew_replies (hs : s.Sound) {command drained : Nat}
    (htrace : s'.trace = (s.drainQueue command).trace ++ [.sent none (.newAck drained) none])
    (htasks : s'.tasks = s.tasks) (hstopped : s'.stoppedTurnId = s.stoppedTurnId)
    (hacc : s.Accountable) (hno : s.NoSilentDrop) : s'.Accountable ∧ s'.NoSilentDrop := by
  obtain ⟨events, hdrained, hbeside⟩ := (s.drainQueue_staysBound command).trace
  have hgrown : s'.trace = s.trace ++ (events ++ [.sent none (.newAck drained) none]) := by
    rw [htrace, hdrained, List.append_assoc]
  have hserving {item : QueuedMessage} {await : ProcessAwait} (h : s'.Serving item await) :
      s.Serving item await := by
    obtain ⟨k, hk⟩ := h
    exact ⟨k, by rwa [htasks] at hk⟩
  have hexcused {item : QueuedMessage} {await : ProcessAwait} (h : s'.Serving item await) :
      s'.Excused item.turnId := by
    have htaken : .taken item.turnId ∈ s.trace :=
      mem_trace_of_taken (hs.tracked.taken item await (hserving h))
    refine .inr ⟨drained, ?_⟩
    rw [htrace, hdrained]
    exact (List.singleton_sublist.mpr (List.mem_append_left _ htaken)).append (.refl _)
  refine ⟨⟨fun turnId hturnId => ?_, fun item bound h => .inr (hexcused h),
    fun item await turn h _ => .inr (hexcused h), fun item await h htold => ?_⟩,
    hno.grown hgrown fun turnId hmem => ?_⟩
  · rw [hstopped] at hturnId
    exact (hacc.stopped turnId hturnId).grown hgrown
  · exact (hacc.told item await (hserving h) htold).grown hgrown
  · obtain hmem | hmem := List.mem_append.mp hmem
    · exact absurd hmem (beside_noEnd hbeside turnId)
    · cases List.mem_singleton.mp hmem

theorem step_replies (hplan : ∀ text reserved, cfg.plan text reserved ≠ []) (hs : s.Sound)
    (hacc : s.Accountable) (hno : s.NoSilentDrop) {a : RouteAction} (hsends : s.SendsReturn a)
    (hdrops : s.DropsExcused a) (h : routeStep cfg s a = some s') :
    s'.Accountable ∧ s'.NoSilentDrop := by
  cases a with
  | inbound message => exact (inbound_staysBound h).replies (inbound_aside h) hacc hno
  | setAgent agentId =>
    cases h
    exact ⟨⟨hacc.stopped, hacc.reads, hacc.bound, hacc.told⟩, hno⟩
  | worker id answer => exact worker_replies hplan hs hacc hno hsends hdrops h
  | command k answer =>
    obtain hstays | ⟨command, -, htrace, htasks, hstopped⟩ := command_staysBound h
    · exact hstays.replies (command_aside h) hacc hno
    · exact bindNew_replies hs htrace htasks hstopped hacc hno

end RouteState

namespace GatewayState

variable {cfg : RouterConfig} {s s' : GatewayState}

def OnRoute (p : RouteState → RouteAction → Prop) (s : GatewayState) : GatewayAction → Prop
  | .route action => p s.route action
  | _ => True

variable {await : ProcessAwait} {answer : Answer} {text : Option String} {a : GatewayAction}

theorem drops_withText :
    await.Drops (answer.withText text) ↔ await.Drops answer := by
  cases await with
  | joinPump turn exit =>
    cases answer with
    | pumpDone text' | placeholderSent delivered ref text' => cases exit <;> rfl
    | _ => rfl
  | _ => cases answer <;> rfl

theorem withText_returns (h : answer ≠ .raised ∧ answer ≠ .cancelled) :
    answer.withText text ≠ .raised ∧ answer.withText text ≠ .cancelled := by
  cases answer with
  | placeholderSent delivered ref text' | pumpDone text' => exact ⟨nofun, nofun⟩
  | _ => exact h

theorem step_replies (hplan : ∀ text reserved, cfg.plan text reserved ≠ [])
    (hs : s.route.Sound) (hacc : s.route.Accountable) (hno : s.route.NoSilentDrop)
    (hsends : s.OnRoute RouteState.SendsReturn a)
    (hdrops : s.OnRoute RouteState.DropsExcused a) (h : gatewayStep cfg s a = some s') :
    s'.route.Accountable ∧ s'.route.NoSilentDrop := by
  have hsame (heq : s'.route = s.route) : s'.route.Accountable ∧ s'.route.NoSilentDrop := by
    rw [heq]
    exact ⟨hacc, hno⟩
  cases a with
  | route action =>
    by_cases hworker : ∃ id answer, action = .worker id answer
    · obtain ⟨id, answer, rfl⟩ := hworker
      obtain ⟨text, hroute⟩ := workerStep_route h
      refine RouteState.worker_replies hplan hs hacc hno (fun item await htask hsend => ?_)
        (fun item await htask hdrop => ?_) hroute
      · exact withText_returns (hsends item await htask hsend)
      · exact hdrops item await htask (drops_withText.mp hdrop)
    · have hbeside (id : Nat) (answer : Answer) : action ≠ .worker id answer :=
        fun heq => hworker ⟨id, answer, heq⟩
      obtain ⟨route, hroute, rfl⟩ := routeStep_of_beside hbeside h
      exact RouteState.step_replies hplan hs hacc hno hsends hdrops hroute
  | pump answer => exact hsame (pumpStep_feeds h).route
  | setStatus agentId status | store message | remove k =>
    cases h
    exact ⟨hacc, hno⟩
  | rewrite k content status =>
    obtain ⟨message, -, rfl⟩ := Option.map_eq_some_iff.mp h
    exact ⟨hacc, hno⟩

/-- Over every run of a route and its turns, on a channel whose sends return: every message that
is taken gets an answer, an error text or the not-bound text, if whenever its session is not
resolved without a domain error, its turn is judged as aborted or it is left by a cancellation,
the user has stopped it or sent a `/new` meanwhile. -/
theorem no_silent_drop (capabilities : ChannelCapabilities) (requestedDepth : Int)
    (renderError : String → String) (agentId activeSession : Option String)
    (agents : String → Option AgentStatus) (messages : List AssistantMessage)
    (as : List GatewayAction)
    (hsends : Guarded (gatewayStep (.ofCapabilities capabilities requestedDepth renderError))
      (OnRoute RouteState.SendsReturn) (fresh agentId activeSession agents messages) as)
    (hdrops : Guarded (gatewayStep (.ofCapabilities capabilities requestedDepth renderError))
      (OnRoute RouteState.DropsExcused) (fresh agentId activeSession agents messages) as) :
    Always (gatewayStep (.ofCapabilities capabilities requestedDepth renderError))
      (fun s => s.route.NoSilentDrop) (fresh agentId activeSession agents messages) as := by
  have hplan : ∀ text reserved, (RouterConfig.ofCapabilities capabilities requestedDepth
      renderError).plan text reserved ≠ [] := by
    intro text reserved hnil
    exact plan_ne_nil _ _ _ (List.map_eq_nil_iff.mp hnil)
  have hidle {item : QueuedMessage} {await : ProcessAwait} :
      ¬ (fresh agentId activeSession agents messages).route.Serving item await := by
    rintro ⟨k, hk⟩
    cases hk
  have hfresh : (fresh agentId activeSession agents messages).route.Accountable :=
    ⟨nofun, fun _ _ h => absurd h hidle, fun _ _ _ h => absurd h hidle,
      fun _ _ h => absurd h hidle⟩
  refine always_mono (fun s h => h.2.2) (always_of_guarded
    (Q := fun s => s.route.Sound ∧ s.route.Accountable ∧ s.route.NoSilentDrop)
    (fun s a s' hs hg hstep => ?_)
    ⟨RouteState.fresh_sound agentId activeSession, hfresh, nofun⟩ (guarded_and hsends hdrops))
  exact ⟨step_routeSound hs.1 hstep, step_replies hplan hs.1 hs.2.1 hs.2.2 hg.1 hg.2 hstep⟩

def plainStep : GatewayAction → Bool
  | .route (.worker _ .raised) | .route (.worker _ .cancelled) => false
  | _ => true

def joinStep : GatewayAction → Bool
  | .route (.worker _ (.pumpDone _)) => true
  | _ => false

theorem plainStep_sends (h : plainStep a = true) :
    s.OnRoute RouteState.SendsReturn a := by
  unfold OnRoute
  split
  · unfold RouteState.SendsReturn
    split
    · next id answer =>
      intro item await htask hsend
      cases answer with
      | raised | cancelled => cases h
      | _ => exact ⟨nofun, nofun⟩
    · trivial
  · trivial

theorem plain_sends {as : List GatewayAction} (h : ∀ a ∈ as, plainStep a = true) :
    Guarded (gatewayStep cfg) (OnRoute RouteState.SendsReturn) s as :=
  guarded_mono (fun _ a hmem _ => plainStep_sends (h a hmem)) (guarded_true s as)

theorem drops_answer (h : await.Drops answer) :
    answer = .raised ∨ answer = .cancelled ∨ ∃ text, answer = .pumpDone text := by
  unfold ProcessAwait.Drops at h
  split at h
  · exact .inl rfl
  · exact .inr (.inl rfl)
  · exact .inr (.inr ⟨_, rfl⟩)
  · exact .inr (.inr ⟨_, rfl⟩)
  · exact h.elim

theorem plainStep_drops (h : plainStep a = true) (hjoin : joinStep a = false) :
    s.OnRoute RouteState.DropsExcused a := by
  unfold OnRoute
  split
  · unfold RouteState.DropsExcused
    split
    · next id answer =>
      intro item await htask hdrops
      obtain rfl | rfl | ⟨text, rfl⟩ := drops_answer hdrops
      · cases h
      · cases h
      · cases hjoin
    · trivial
  · trivial

def answeredQuestion : List GatewayAction :=
  [.route (.inbound (.plain "question")), .route (.worker 0 .done),
    .route (.worker 0 (.session "s")), .route (.worker 0 (.placeholderSent true none none)),
    .pump .started, .pump (.event (.terminal (some "answer"))),
    .route (.worker 0 (.signal (.terminal (some "answer"))))]

theorem question_answered :
    Always (gatewayStep (.ofCapabilities ⟨false, 10, none⟩ 3 id)) (fun s => s.route.NoSilentDrop)
      (fresh (some "agent") none (fun _ => some .running) [])
      (answeredQuestion ++ [.route (.worker 0 (.pumpDone none)),
        .route (.worker 0 (.sent true none))]) := by
  have hjudged : ∃ s item turn outcome,
      run (gatewayStep (.ofCapabilities ⟨false, 10, none⟩ 3 id))
        (fresh (some "agent") none (fun _ => some .running) []) answeredQuestion = some s ∧
      s.route.tasks 0 = some (.processing item (.joinPump turn (.outcome outcome))) ∧
        outcome.aborted = false :=
    ⟨_, _, _, _, rfl, rfl, rfl⟩
  obtain ⟨s, item, turn, outcome, hrun, htask, hgo⟩ := hjudged
  refine no_silent_drop ⟨false, 10, none⟩ 3 id (some "agent") none (fun _ => some .running) [] _
    (plain_sends (by decide)) (guarded_append hrun ?_ ?_)
  · exact guarded_mono (fun _ a hmem _ => plainStep_drops
      ((by decide : ∀ a ∈ answeredQuestion, plainStep a = true) a hmem)
      ((by decide : ∀ a ∈ answeredQuestion, joinStep a = false) a hmem)) (guarded_true _ _)
  · refine fun t _ => ⟨fun item' await' htask' hdrops => ?_, fun t' _ => ⟨?_, trivial⟩⟩
    · rw [htask] at htask'
      cases htask'
      have haborted : outcome.aborted = true := hdrops
      rw [hgo] at haborted
      cases haborted
    · exact plainStep_drops rfl rfl

/-- The stream of the turn ends without an event, and the last message of the session, of an
earlier turn, was interrupted. -/
def emptyStream : List GatewayAction :=
  [.route (.inbound (.plain "question")), .route (.worker 0 .done),
    .route (.worker 0 (.session "s")), .route (.worker 0 (.placeholderSent true none none)),
    .pump .started, .pump .ended,
    .route (.worker 0 (.signal (.error RouteState.channelTurnAborted
      "Channel turn was aborted."))),
    .route (.worker 0 (.pumpDone none))]

theorem question_dropped :
    ¬ ∀ (capabilities : ChannelCapabilities) (requestedDepth : Int)
      (renderError : String → String) (agentId activeSession : Option String)
      (agents : String → Option AgentStatus) (messages : List AssistantMessage)
      (as : List GatewayAction),
      Guarded (gatewayStep (.ofCapabilities capabilities requestedDepth renderError))
        (OnRoute RouteState.SendsReturn) (fresh agentId activeSession agents messages) as →
      Always (gatewayStep (.ofCapabilities capabilities requestedDepth renderError))
        (fun s => s.route.NoSilentDrop) (fresh agentId activeSession agents messages) as := by
  intro h
  have hend : ∃ s, run (gatewayStep (.ofCapabilities ⟨false, 10, none⟩ 3 id))
      (fresh (some "agent") (some "s") (fun _ => some .running)
        [⟨"s", none, "half an", .interrupted⟩]) emptyStream = some s ∧
      s.route.trace = [.enqueued 0, .taken 0, .sent (some 0) .placeholder none, .ended 0] :=
    ⟨_, rfl, rfl⟩
  obtain ⟨s, hrun, htrace⟩ := hend
  have hno := always_last (h ⟨false, 10, none⟩ 3 id (some "agent") (some "s")
    (fun _ => some .running) [⟨"s", none, "half an", .interrupted⟩] emptyStream
    (plain_sends (by decide))) hrun
  have hended : .ended 0 ∈ s.route.trace := by
    rw [htrace]
    decide
  obtain ⟨text, edit, hconcluding, hmem⟩ | ⟨command, sessionId, hmem⟩ | ⟨drained, hnew⟩ :=
    hno 0 hended
  · rw [htrace] at hmem
    simp only [List.mem_cons, List.not_mem_nil, RouteEvent.sent.injEq, reduceCtorEq, true_and,
      false_or, or_false] at hmem
    rw [hmem.1] at hconcluding
    exact hconcluding
  · rw [htrace] at hmem
    simp at hmem
  · rw [htrace] at hnew
    have hmem := hnew.subset (List.mem_cons_of_mem _ List.mem_cons_self)
    simp at hmem

end GatewayState

end WittyService
