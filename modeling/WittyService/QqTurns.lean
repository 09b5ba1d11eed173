import WittyService.QqBudget
import WittyService.RouteGate

/-! When the texts of the turns of a QQ route go out as passive replies. -/
namespace WittyService

open GuardedRuns QqAdapter

def RouteState.processingAwait? (s : RouteState) : Option ProcessAwait :=
  match s.worker.bind s.tasks with
  | some (.processing _ await) => some await
  | _ => none

namespace QqRoute

/-- Where the hour matters: in the steps of the worker, and while a turn is in process in every
step of the adapter. -/
def WithinHour (route : Route) (s : QqRoute) : QqRouteAction → Prop
  | .router now (.worker _ _) _ => s.adapter.InWindow route now
  | .adapter (.frame now _) | .adapter (.send now _) | .router now _ _ | .reply now =>
    s.router.processingAwait?.isSome → s.adapter.InWindow route now
  | .adapter (.settle _ _) | .adapter (.cancel _) | .replyEnd _ _ => True

instance (route : Route) (s : QqRoute) : (a : QqRouteAction) → Decidable (s.WithinHour route a)
  | .router _ (.worker _ _) _ => inferInstanceAs (Decidable (InWindow ..))
  | .router _ (.inbound _) _ | .router _ (.setAgent _) _ | .router _ (.command _ _) _
  | .adapter (.frame _ _) | .adapter (.send _ _) | .reply _ => inferInstanceAs (Decidable (_ → _))
  | .adapter (.settle _ _) | .adapter (.cancel _) | .replyEnd _ _ => isTrue trivial

/-- A step of the router finds replies left: all those of a message where it takes a turn, and
beside the turn in process enough for its texts and for what the turn may still send. -/
def RouterCovered (cfg : RouterConfig) (route : Route) (s : QqRoute) (action : RouteAction)
    (callEnd : CallEnd) (router : RouteState) : Prop :=
  ((s.newEvents router).any RouteEvent.isTaken →
    (s.settled action callEnd).Leaves route MAX_REPLY_SEGMENTS) ∧
  match action with
  | .worker _ _ => True
  | _ => ∀ await ∈ s.router.processingAwait?, spokenTexts (s.newEvents router) ≠ [] →
    (s.settled action callEnd).Leaves route
      ((spokenTexts (s.newEvents router)).length + await.due)

instance (cfg : RouterConfig) (route : Route) (s : QqRoute) (action : RouteAction)
    (callEnd : CallEnd) (router : RouteState) :
    Decidable (s.RouterCovered cfg route action callEnd router) :=
  match action with
  | .worker _ _ => inferInstanceAs (Decidable ((_ → _) ∧ True))
  | .inbound _ | .setAgent _ | .command _ _ =>
    inferInstanceAs (Decidable ((_ → _) ∧ ∀ await ∈ _, _ → _))

/-- A turn is taken only when the last message of the route can still be answered in full;
what else is answered while a turn is in process leaves the turn what it may still send; and no
more routes are tracked than the adapter keeps. -/
def QuotaLeft (cfg : RouterConfig) (route : Route) (s : QqRoute) : QqRouteAction → Prop
  | .adapter (.frame now message) =>
    ((s.adapter.contexts.prune now).get? message.route).isSome ∨
      (s.adapter.contexts.prune now).size < MAX_TRACKED_CONTEXTS
  | .router _ action callEnd => ∀ router ∈ routeStep cfg s.router action,
    s.RouterCovered cfg route action callEnd router
  | .reply _ => ∀ await ∈ s.router.processingAwait?, s.adapter.Leaves route (1 + await.due)
  | .adapter _ | .replyEnd _ _ => True

instance (cfg : RouterConfig) (route : Route) (s : QqRoute) :
    (a : QqRouteAction) → Decidable (s.QuotaLeft cfg route a)
  | .adapter (.frame _ _) => inferInstanceAs (Decidable (_ ∨ _))
  | .router _ _ _ | .reply _ => inferInstanceAs (Decidable (∀ _ ∈ _, _))
  | .adapter (.send _ _) | .adapter (.settle _ _) | .adapter (.cancel _) | .replyEnd _ _ =>
    isTrue trivial

def TurnsPassive (s : QqRoute) : Prop :=
  ∀ turnId delivery, (some turnId, delivery) ∈ s.texts → delivery.passive.isSome

/-! The texts of a step beside the worker are not those of a turn. -/

theorem beside_text {event : RouteEvent}
    (h : event.Beside ∨ ∃ drained, event = .sent none (.newAck drained) none)
    {turnId : Option Nat} (htext : event.text? = some turnId) : turnId = none := by
  obtain hbeside | ⟨drained, rfl⟩ := h
  · unfold RouteEvent.text? at htext
    split at htext
    · cases htext
      cases turnId with
      | none => rfl
      | some id => exact hbeside.elim
    · cases htext
      rfl
    · cases htext
  · cases htext
    rfl

variable {cfg : RouterConfig} {route : Route} {s s' : QqRoute} {action : RouteAction}
  {router : RouteState}

theorem newEvents_of_append {events : List RouteEvent}
    (htrace : router.trace = s.router.trace ++ events) : s.newEvents router = events := by
  rw [newEvents, htrace, List.drop_left]

theorem aside_texts (haside : ∀ id answer, action ≠ .worker id answer)
    (h : routeStep cfg s.router action = some router) :
    ∀ turnId ∈ spokenTexts (s.newEvents router), turnId = none := by
  have hbeside {events : List RouteEvent} (htrace : router.trace = s.router.trace ++ events)
      (hevents : ∀ event ∈ events,
        event.Beside ∨ ∃ drained, event = .sent none (.newAck drained) none) :
      ∀ turnId ∈ spokenTexts (s.newEvents router), turnId = none := by
    intro turnId hmem
    rw [newEvents_of_append htrace] at hmem
    obtain ⟨event, hevent, htext⟩ := List.mem_filterMap.mp hmem
    exact beside_text (hevents event hevent) htext
  have hbound (hstays : s.router.StaysBound router) :
      ∀ turnId ∈ spokenTexts (s.newEvents router), turnId = none := by
    obtain ⟨events, htrace, hevents⟩ := hstays.trace
    exact hbeside htrace fun event hmem => .inl (hevents event hmem)
  cases action with
  | inbound message => exact hbound (RouteState.inbound_staysBound h)
  | setAgent agentId =>
    cases h
    exact hbeside (List.append_nil _).symm nofun
  | worker id answer => exact absurd rfl (haside id answer)
  | command k answer =>
    obtain hstays | ⟨command, -, htrace, -⟩ := RouteState.command_staysBound h
    · exact hbound hstays
    · obtain ⟨drained, hdrained, hevents⟩ := (s.router.drainQueue_staysBound command).trace
      rw [hdrained, List.append_assoc] at htrace
      refine hbeside htrace fun event hmem => ?_
      obtain hmem | hmem := List.mem_append.mp hmem
      · exact .inl (hevents event hmem)
      · exact .inr ⟨_, List.mem_singleton.mp hmem⟩

theorem processing_of_serving (hs : s.router.Consistent) {item : QueuedMessage}
    {await : ProcessAwait} (h : s.router.Serving item await) :
    s.router.processingAwait? = some await := by
  obtain ⟨id, htask⟩ := h
  have hworker : s.router.worker = some id := hs.only id (by simp [RouteState.Live, htask])
  simp [RouteState.processingAwait?, hworker, htask]

/-- The last message of the route leaves the turn in process what it may still send. -/
structure Covered (route : Route) (s : QqRoute) : Prop where
  sound : s.router.Sound
  shaped : s.router.Shaped
  ruled : s.adapter.Ruled route
  leaves : ∀ item await, s.router.Serving item await → s.adapter.Leaves route await.due
  passive : s.TurnsPassive

variable {adapter : QqAdapter} {now : Int} {turnIds : List (Option Nat)}

theorem sendTexts_turnIds : (adapter.sendTexts now route turnIds).2.map Prod.fst = turnIds := by
  induction turnIds generalizing adapter with
  | nil => rfl
  | cons turnId rest ih => exact congrArg (turnId :: ·) ih

theorem TurnsPassive.append (h : s.TurnsPassive) {sent : List (Option Nat × Delivery)}
    (htexts : s'.texts = s.texts ++ sent)
    (hsent : ∀ turnId delivery, (some turnId, delivery) ∈ sent → delivery.passive.isSome) :
    s'.TurnsPassive := by
  intro turnId delivery hmem
  rw [htexts] at hmem
  obtain hmem | hmem := List.mem_append.mp hmem
  · exact h turnId delivery hmem
  · exact hsent turnId delivery hmem

theorem sendTexts_aside
    (hnone : ∀ turnId ∈ turnIds, turnId = none) (turnId : Nat) (delivery : Delivery)
    (hmem : (some turnId, delivery) ∈ (adapter.sendTexts now route turnIds).2) :
    delivery.passive.isSome := by
  have hturn := List.mem_map_of_mem (f := Prod.fst) hmem
  rw [sendTexts_turnIds] at hturn
  cases hnone _ hturn

theorem adapter_covered (hdirect : passiveReplyRule route.conversationType =
      (3600, MAX_REPLY_SEGMENTS)) {a : QqAction} (hs : s.Covered route)
    (hhour : s.WithinHour route (.adapter a)) (hquota : s.QuotaLeft cfg route (.adapter a))
    (h : qqRouteStep cfg route s (.adapter a) = some s') : s'.Covered route := by
  simp only [qqRouteStep] at h
  split_ifs at h with hapart
  obtain ⟨adapter, hstep, rfl⟩ := Option.map_eq_some_iff.mp h
  have hwindow {item : QueuedMessage} {await : ProcessAwait}
      (hserving : s.router.Serving item await) : s.router.processingAwait?.isSome :=
    Option.isSome_of_eq_some (processing_of_serving hs.sound.consistent hserving)
  refine ⟨hs.sound, hs.shaped, ?_, fun item await hserving => ?_, hs.passive⟩
  · cases a with
    | frame now message =>
      cases hstep
      exact handleEvent_ruled hs.ruled hdirect hquota
    | send now route' =>
      cases hstep
      exact startSend_ruled hs.ruled
    | settle call certainty =>
      obtain ⟨send, hsend, rfl⟩ := Option.map_eq_some_iff.mp hstep
      exact endSend_ruled hs.ruled
    | cancel call =>
      obtain ⟨send, hsend, rfl⟩ := Option.map_eq_some_iff.mp hstep
      exact ⟨hs.ruled.tracked, hs.ruled.rule⟩
  · have hleaves := hs.leaves item await hserving
    cases a with
    | frame now message =>
      cases hstep
      exact handleEvent_leaves hs.ruled (congrArg Prod.snd hdirect) (hhour (hwindow hserving))
        hleaves
    | send now route' =>
      cases hstep
      -- a call for another route leaves the context of this one, which is within the hour
      obtain ⟨context, hcontext, hleft⟩ := hleaves
      have hkept := startSend_get?_ne hs.ruled (hhour (hwindow hserving)) hapart
      refine ⟨context, hkept.trans hcontext, ?_⟩
      rw [startSend_flying, if_neg fun hsame => hapart hsame.1]
      exact hleft
    | settle call certainty =>
      obtain ⟨send, hsend, rfl⟩ := Option.map_eq_some_iff.mp hstep
      exact endSend_leaves hsend hleaves
    | cancel call =>
      obtain ⟨send, hsend, rfl⟩ := Option.map_eq_some_iff.mp hstep
      exact cancelSend_leaves hsend hleaves

section Routed

variable {now : Int} {callEnd : CallEnd}

theorem routed_router : (s.routed route now action callEnd router).router = router := by
  cases action with
  | inbound message | setAgent agentId | worker id answer | command k answer => rfl

theorem settled_leaves {n : Nat} (h : s.adapter.Leaves route n) :
    (s.settled action callEnd).Leaves route n :=
  endCall_leaves h

theorem settled_ruled (hs : s.adapter.Ruled route) : (s.settled action callEnd).Ruled route :=
  endCall_ruled hs

theorem endCall_window {adapter : QqAdapter} {call? : Option Nat}
    (h : adapter.InWindow route now) : (adapter.endCall call? callEnd).InWindow route now := by
  refine h.of_get? fun context hget => ?_
  unfold endCall at hget
  split at hget
  · exact ⟨context, hget, rfl⟩
  · split at hget
    · exact ⟨context, hget, rfl⟩
    · simp only [endSend, Contexts.consumePassive] at hget
      split at hget
      · obtain ⟨before, hbefore, rfl⟩ := OrderedDict.of_get?_adjust hget
        refine ⟨before, hbefore, ?_⟩
        split_ifs
        · rfl
        · rfl
      · exact ⟨context, hget, rfl⟩
    · exact ⟨context, hget, rfl⟩

theorem worker_covered (hcfg : cfg.LimitsReplies) {id : Nat} {answer : Answer}
    (hs : s.Covered route) (hwindow : s.adapter.InWindow route now)
    (hquota : s.RouterCovered cfg route (.worker id answer) callEnd router)
    (h : routeStep cfg s.router (.worker id answer) = some router) :
    (s.routed route now (.worker id answer) callEnd router).Covered route := by
  have hsound : router.Sound := RouteState.step_sound hs.sound h
  have hruled : (s.settled (.worker id answer) callEnd).Ruled route := settled_ruled hs.ruled
  have hwindow' : (s.settled (.worker id answer) callEnd).InWindow route now :=
    endCall_window hwindow
  obtain ⟨budget?, ⟨events, htrace, hend⟩, hbudget⟩ :=
    RouteState.worker_spends hcfg hs.sound.consistent hs.shaped h
  have hevents : s.newEvents router = events := newEvents_of_append htrace
  obtain ⟨hsilent, hidle⟩ | ⟨item, await, hserving, hshaped, hfits⟩ := hend
  · -- the worker has stopped without a word
    refine ⟨hsound, fun item await hserving => absurd hserving (hidle item await), ?_,
      fun item await hserving => absurd hserving (hidle item await), ?_⟩
    · exact sendTexts_ruled hruled
    · refine hs.passive.append rfl fun turnId delivery hmem => ?_
      rw [hevents, hsilent] at hmem
      cases hmem
  · have hsole {item' : QueuedMessage} {await' : ProcessAwait}
        (hserving' : router.Serving item' await') : item' = item ∧ await' = await :=
      hsound.consistent.serving_unique hserving hserving'
    have hleaves : (s.settled (.worker id answer) callEnd).Leaves route
        ((spokenTexts (s.newEvents router)).length + await.due) := by
      rw [hevents]
      obtain ⟨htaken, hfits⟩ | ⟨budget, hmem, hfits⟩ := hfits
      · -- it has taken a message, which finds the whole quota
        rw [← hevents] at htaken
        exact (hquota.1 htaken).mono hfits
      · obtain ⟨item', await', hserving', rfl⟩ := hbudget budget hmem
        exact (settled_leaves (hs.leaves item' await' hserving')).mono hfits
    obtain ⟨hruled', hleaves', hpassive⟩ := sendTexts_leaves hruled hwindow' hleaves
    refine ⟨hsound, fun item' await' hserving' => ?_, hruled', fun item' await' hserving' => ?_,
      hs.passive.append rfl fun turnId delivery hmem => hpassive _ hmem⟩
    · rw [(hsole hserving').2]
      exact hshaped
    · rw [(hsole hserving').2]
      exact hleaves'

theorem aside_covered (haside : ∀ id answer, action ≠ .worker id answer) (hs : s.Covered route)
    (hwindow : s.router.processingAwait?.isSome → s.adapter.InWindow route now)
    (hquota : ∀ await ∈ s.router.processingAwait?, spokenTexts (s.newEvents router) ≠ [] →
      (s.settled action callEnd).Leaves route
        ((spokenTexts (s.newEvents router)).length + await.due))
    (h : routeStep cfg s.router action = some router) :
    (s.routed route now action callEnd router).Covered route := by
  have hsound : router.Sound := RouteState.step_sound hs.sound h
  have hruled : (s.settled action callEnd).Ruled route := settled_ruled hs.ruled
  have hback {item : QueuedMessage} {await : ProcessAwait} (hserving : router.Serving item await) :
      s.router.Serving item await := by
    obtain ⟨id, answer, heq⟩ | hkept := RouteState.worker_or_aside h
    · exact absurd heq (haside id answer)
    · exact hkept.serving item await hserving
  refine ⟨?_, fun item await hserving => ?_, sendTexts_ruled hruled,
    fun item await hserving => ?_, hs.passive.append rfl (sendTexts_aside (aside_texts haside h))⟩
  · rw [routed_router]
    exact hsound
  · rw [routed_router] at hserving
    exact hs.shaped item await (hback hserving)
  · rw [routed_router] at hserving
    have hprocessing := processing_of_serving hs.sound.consistent (hback hserving)
    have hleaves : (s.settled action callEnd).Leaves route
        ((spokenTexts (s.newEvents router)).length + await.due) := by
      -- a silent step needs no quota of its own
      by_cases hsilent : spokenTexts (s.newEvents router) = []
      · rw [hsilent, List.length_nil, Nat.zero_add]
        exact settled_leaves (hs.leaves item await (hback hserving))
      · exact hquota await hprocessing hsilent
    have hwindow' : (s.settled action callEnd).InWindow route now :=
      endCall_window (hwindow (Option.isSome_of_eq_some hprocessing))
    exact (sendTexts_leaves hruled hwindow' hleaves).2.1

end Routed

theorem step_covered (hcfg : cfg.LimitsReplies)
    (hdirect : passiveReplyRule route.conversationType = (3600, MAX_REPLY_SEGMENTS))
    {a : QqRouteAction} (hs : s.Covered route) (hhour : s.WithinHour route a)
    (hquota : s.QuotaLeft cfg route a) (h : qqRouteStep cfg route s a = some s') :
    s'.Covered route := by
  cases a with
  | adapter action => exact adapter_covered hdirect hs hhour hquota h
  | router now action callEnd =>
    simp only [qqRouteStep] at h
    split_ifs at h with hfits
    obtain ⟨router, hrouter, rfl⟩ := Option.map_eq_some_iff.mp h
    have hcovered := hquota router hrouter
    cases action with
    | worker id answer => exact worker_covered hcfg hs hhour hcovered hrouter
    | inbound message | setAgent agentId | command k answer =>
      exact aside_covered nofun hs hhour hcovered.2 hrouter
  | reply now =>
    simp only [qqRouteStep] at h
    split_ifs at h with hwaits
    cases h
    have hnone : ∀ turnId ∈ [(none : Option Nat)], turnId = none := by simp
    refine ⟨hs.sound, hs.shaped, sendTexts_ruled hs.ruled, fun item await hserving => ?_,
      hs.passive.append rfl (sendTexts_aside hnone)⟩
    have hprocessing := processing_of_serving hs.sound.consistent hserving
    have hwindow := hhour (Option.isSome_of_eq_some hprocessing)
    exact (sendTexts_leaves hs.ruled hwindow (hquota await hprocessing)).2.1
  | replyEnd k callEnd =>
    simp only [qqRouteStep] at h
    split at h
    · cases h
    · next call hcall =>
      cases h
      have hruled : (s.adapter.endCall (some call) callEnd).Ruled route := endCall_ruled hs.ruled
      exact ⟨hs.sound, hs.shaped, hruled,
        fun item await hserving => endCall_leaves (hs.leaves item await hserving), hs.passive⟩

theorem qqRouter_limits (maxTextLength requestedDepth : Int) (renderError : String → String) :
    (qqRouter maxTextLength requestedDepth renderError).LimitsReplies := by
  refine ⟨rfl, fun text reserved => ?_⟩
  have hlimit : (qqCapabilities maxTextLength).maxReplySegments = some 4 := rfl
  have hlength := plan_length_le (some text.toList) (qqCapabilities maxTextLength) hlimit reserved
  simp only [qqRouter, RouterConfig.ofCapabilities, List.length_map, MAX_REPLY_SEGMENTS]
  omega

theorem fresh_covered (route : Route) (agentId activeSession : Option String) :
    (fresh agentId activeSession).Covered route := by
  have hidle {item : QueuedMessage} {await : ProcessAwait} :
      ¬ (fresh agentId activeSession).router.Serving item await := by
    rintro ⟨id, hid⟩
    cases hid
  exact ⟨RouteState.fresh_sound agentId activeSession, fun _ _ h => absurd h hidle,
    ⟨Nat.zero_le _, nofun⟩, fun _ _ h => absurd h hidle, nofun⟩

/-- On a direct route, along every run whose steps are within the hour and meet `QuotaLeft`,
every text of a turn goes out as a passive reply. -/
theorem turns_passive (maxTextLength requestedDepth : Int) (renderError : String → String)
    (route : Route) (hdirect : route.conversationType = CONVERSATION_TYPE_DIRECT)
    (agentId activeSession : Option String) (as : List QqRouteAction)
    (hhour : Guarded (qqRouteStep (qqRouter maxTextLength requestedDepth renderError) route)
      (WithinHour route) (fresh agentId activeSession) as)
    (hquota : Guarded (qqRouteStep (qqRouter maxTextLength requestedDepth renderError) route)
      (QuotaLeft (qqRouter maxTextLength requestedDepth renderError) route)
      (fresh agentId activeSession) as) :
    Always (qqRouteStep (qqRouter maxTextLength requestedDepth renderError) route) TurnsPassive
      (fresh agentId activeSession) as := by
  have hrule : passiveReplyRule route.conversationType = (3600, MAX_REPLY_SEGMENTS) := by
    rw [hdirect]
    rfl
  refine always_mono (fun s hs => hs.passive) (always_of_guarded (Q := Covered route)
    (fun s a s' hs hg hstep => ?_) (fresh_covered route agentId activeSession)
    (guarded_and hhour hquota))
  exact step_covered (qqRouter_limits ..) hrule hs hg.1 hg.2 hstep

def routerStep (action : RouteAction) : QqRouteAction := .router 0 action (.result .delivered)

def arrival (msgId text : String) : List QqRouteAction :=
  [.adapter (.frame 0 (aliceMessage msgId)), routerStep (.inbound (.plain text))]

def opening : List QqRouteAction :=
  [routerStep (.worker 0 (.session "s")),
    routerStep (.worker 0 (.placeholderSent true none none))]

def longAnswer : List QqRouteAction :=
  [routerStep (.worker 0 (.signal (.terminal (some "ab\n\ncd\n\nef")))),
    routerStep (.worker 0 (.pumpDone none)), routerStep (.worker 0 (.sent true none)),
    routerStep (.worker 0 (.sent true none)), routerStep (.worker 0 (.sent true none))]

def wholeTurn : List QqRouteAction :=
  arrival "1" "question" ++ [routerStep (.worker 0 .done)] ++ opening ++ longAnswer

theorem whole_turn_passive : Always (qqRouteStep (qqRouter 2 3 id) aliceRoute) TurnsPassive
    (fresh (some "agent") none) wholeTurn :=
  turns_passive 2 3 id aliceRoute rfl (some "agent") none wholeTurn (by decide +kernel)
    (by decide +kernel)

/-- A second message arrives while the first is in process. The rest of the first turn is
answered to it, and its own turn finds one passive reply left. -/
def overlappingTurns : List QqRouteAction :=
  arrival "1" "question" ++ [routerStep (.worker 0 .done)] ++ opening ++ arrival "2" "next" ++
    longAnswer ++ opening ++ longAnswer.take 2

theorem segment_proactive :
    ¬ ∀ (maxTextLength requestedDepth : Int) (renderError : String → String) (route : Route),
      route.conversationType = CONVERSATION_TYPE_DIRECT →
      ∀ (agentId activeSession : Option String) (as : List QqRouteAction),
      Guarded (qqRouteStep (qqRouter maxTextLength requestedDepth renderError) route)
        (WithinHour route) (fresh agentId activeSession) as →
      Always (qqRouteStep (qqRouter maxTextLength requestedDepth renderError) route)
        TurnsPassive (fresh agentId activeSession) as := by
  intro h
  have htexts : (run (qqRouteStep (qqRouter 2 3 id) aliceRoute) (fresh (some "agent") none)
      overlappingTurns).map (fun s => s.texts[5]?) = some (some (some 1, ⟨"alice", none⟩)) := by
    decide +kernel
  obtain ⟨s, hrun, hlast⟩ := Option.map_eq_some_iff.mp htexts
  have hpassive := always_last (h 2 3 id aliceRoute rfl (some "agent") none overlappingTurns
    (by decide +kernel)) hrun
  exact absurd (hpassive 1 ⟨"alice", none⟩ (List.mem_of_getElem? hlast)) (by decide)

end QqRoute

end WittyService
