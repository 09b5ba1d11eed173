import WittyService.QqQuota
import WittyService.TurnBudget
import WittyService.VisibleMessages

/-! One direct route of the QQ channel: the router and the adapter that its texts go through. A
text is sent in the step of the router that says it, and the call of `send_text` ends with the
next step of the task that made it. -/
namespace WittyService

open GuardedRuns

def qqCapabilities (maxTextLength : Int) : ChannelCapabilities :=
  ⟨false, maxTextLength, some MAX_REPLY_SEGMENTS⟩

def qqRouter (maxTextLength requestedDepth : Int) (renderError : String → String) :
    RouterConfig :=
  .ofCapabilities (qqCapabilities maxTextLength) requestedDepth renderError

/-- The router and the adapter. `waiting` counts the messages on their way from the one to the
other; `workerCall` and `commandCalls` are the calls of `send_text` that the worker and the
commands await, `replyCalls` those for messages that are only answered. `texts` lists the texts
of the route with how they went out. -/
structure QqRoute where
  router : RouteState
  adapter : QqAdapter
  waiting : Nat
  workerCall : Option Nat
  commandCalls : List (Option Nat)
  replyCalls : List Nat
  texts : List (Option Nat × Delivery)

inductive CallEnd where
  | result (certainty : Certainty)
  | cancelled
  deriving DecidableEq, Repr

/-- The adapter for itself (frames, and the calls for other routes), a step of the router, and
the answer to a message that is only answered, from its start to its await and from there to
its end. -/
inductive QqRouteAction where
  | adapter (action : QqAction)
  | router (now : Int) (action : RouteAction) (callEnd : CallEnd)
  | reply (now : Int)
  | replyEnd (k : Nat) (callEnd : CallEnd)
  deriving DecidableEq, Repr

def Answer.Agrees (callEnd : CallEnd) : Answer → Prop
  | sent delivered _ | placeholderSent delivered _ _ =>
    ∃ certainty, callEnd = .result certainty ∧ (delivered = true ↔ certainty = .delivered)
  | cancelled => callEnd = .cancelled
  | _ => callEnd ≠ .cancelled

namespace QqAdapter

def Apart (s : QqAdapter) (route : Route) : QqAction → Prop
  | .frame _ _ => True
  | .send _ route' => route' ≠ route
  | .settle call _ | .cancel call => ∀ send ∈ s.pending? call, send.route ≠ route

instance (s : QqAdapter) (route : Route) : (a : QqAction) → Decidable (s.Apart route a)
  | .frame _ _ => isTrue trivial
  | .send _ _ => inferInstanceAs (Decidable (_ ≠ _))
  | .settle _ _ | .cancel _ => inferInstanceAs (Decidable (∀ send ∈ _, _))

def sendTexts (now : Int) (route : Route) (s : QqAdapter) :
    List (Option Nat) → QqAdapter × List (Option Nat × Delivery)
  | [] => (s, [])
  | turnId :: rest =>
    let sent := sendTexts now route (s.startSend now route) rest
    (sent.1, (turnId, (s.contexts.planDelivery now route).1) :: sent.2)

def endCall (s : QqAdapter) (call : Option Nat) (callEnd : CallEnd) : QqAdapter :=
  match call with
  | none => s
  | some call =>
    match s.pending? call, callEnd with
    | none, _ => s
    | some send, .result certainty => s.endSend call send certainty
    | some send, .cancelled => s.cancelSend call send

end QqAdapter

namespace QqRoute

variable (cfg : RouterConfig) (route : Route) (s : QqRoute)

def endingCall : RouteAction → Option Nat
  | .worker _ _ => s.workerCall
  | .command k _ => s.commandCalls[k]?.join
  | .inbound _ | .setAgent _ => none

def withCall (action : RouteAction) (router : RouteState) (call : Option Nat) : QqRoute :=
  match action with
  | .worker _ _ => { s with router := router, workerCall := call }
  | .command k _ =>
    { s with
      router := router
      commandCalls := if router.commands.length < s.router.commands.length then
        s.commandCalls.eraseIdx k else s.commandCalls.set k call }
  | .inbound _ =>
    { s with
      router := router
      waiting := s.waiting - 1
      commandCalls := if s.router.commands.length < router.commands.length then
        s.commandCalls ++ [call] else s.commandCalls }
  | .setAgent _ => { s with router := router }

def newEvents (router : RouteState) : List RouteEvent :=
  router.trace.drop s.router.trace.length

def settled (action : RouteAction) (callEnd : CallEnd) : QqAdapter :=
  s.adapter.endCall (s.endingCall action) callEnd

/-- The step of the router `router`, with the calls of the adapter that belong to it. -/
def routed (now : Int) (action : RouteAction) (callEnd : CallEnd) (router : RouteState) :
    QqRoute :=
  let settled := s.settled action callEnd
  let turnIds := spokenTexts (s.newEvents router)
  let sent := settled.sendTexts now route turnIds
  let call := if turnIds = [] then none else some settled.sends.length
  { s.withCall action router call with adapter := sent.1, texts := s.texts ++ sent.2 }

def Fits (callEnd : CallEnd) : RouteAction → Prop
  | .worker _ answer => s.workerCall.isSome → answer.Agrees callEnd
  | .command k answer => s.commandCalls[k]?.join.isSome → answer.Agrees callEnd
  | .inbound _ => 0 < s.waiting
  | .setAgent _ => True

end QqRoute

instance (callEnd : CallEnd) : (answer : Answer) → Decidable (answer.Agrees callEnd)
  | .sent delivered _ | .placeholderSent delivered _ _ =>
    match callEnd with
    | .cancelled => isFalse nofun
    | .result certainty => decidable_of_iff (delivered = true ↔ certainty = .delivered)
        ⟨fun h => ⟨certainty, rfl, h⟩, fun ⟨_, heq, h⟩ => by cases heq; exact h⟩
  | .cancelled => inferInstanceAs (Decidable (_ = _))
  | .session _ | .domainError _ _ | .signal _ | .pumpDone _ | .done | .raised =>
    inferInstanceAs (Decidable (_ ≠ _))

instance (s : QqRoute) (callEnd : CallEnd) : (a : RouteAction) → Decidable (s.Fits callEnd a)
  | .worker _ _ | .command _ _ => inferInstanceAs (Decidable (_ → _))
  | .inbound _ => inferInstanceAs (Decidable (_ < _))
  | .setAgent _ => isTrue trivial

/-- A frame of the route brings a message that is on its way to the router from then on. -/
def qqRouteStep (cfg : RouterConfig) (route : Route) (s : QqRoute) :
    QqRouteAction → Option QqRoute
  | .adapter action =>
    if s.adapter.Apart route action then
      (qqStep s.adapter action).map fun adapter =>
        { s with
          adapter := adapter
          waiting := match action with
            | .frame _ message =>
              if message.route = route ∧ message.targetId ≠ "" then s.waiting + 1 else s.waiting
            | _ => s.waiting }
    else none
  | .router now action callEnd =>
    if s.Fits callEnd action then
      (routeStep cfg s.router action).map fun router => s.routed route now action callEnd router
    else none
  | .reply now =>
    if 0 < s.waiting then
      let sent := s.adapter.sendTexts now route [none]
      some { s with
        adapter := sent.1
        waiting := s.waiting - 1
        replyCalls := s.replyCalls ++ [s.adapter.sends.length]
        texts := s.texts ++ sent.2 }
    else none
  | .replyEnd k callEnd =>
    match s.replyCalls[k]? with
    | none => none
    | some call => some { s with
        adapter := s.adapter.endCall (some call) callEnd
        replyCalls := s.replyCalls.eraseIdx k }

def QqRoute.fresh (agentId activeSession : Option String) : QqRoute where
  router := .fresh agentId activeSession
  adapter := .fresh
  waiting := 0
  workerCall := none
  commandCalls := []
  replyCalls := []
  texts := []

/-! The passive replies that a direct route of the QQ channel has left. -/

namespace QqAdapter

variable {s s' : QqAdapter} {now : Int} {route route' : Route} {message : InboundMessage}
  {call : Nat} {send : Send} {n : Nat}

def flying (s : QqAdapter) (route : Route) : Nat :=
  s.sends.countP fun send => send.route = route && send.delivery.passive.isSome && send.inFlight

/-- The route has a context, whose message can be answered `n` times more. -/
def Leaves (s : QqAdapter) (route : Route) (n : Nat) : Prop :=
  ∃ context ∈ s.contexts.get? route, context.passiveUsed + s.flying route + n ≤ context.limit

instance (s : QqAdapter) (route : Route) (n : Nat) : Decidable (s.Leaves route n) :=
  inferInstanceAs (Decidable (∃ context ∈ _, _))

theorem Leaves.mono {m : Nat} (h : s.Leaves route n) (hle : m ≤ n) : s.Leaves route m := by
  obtain ⟨context, hcontext, hleft⟩ := h
  exact ⟨context, hcontext, by omega⟩

/-- The last message of the route arrived within the hour. -/
def InWindow (s : QqAdapter) (route : Route) (now : Int) : Prop :=
  ∀ context ∈ s.contexts.get? route, now - context.receivedAt ≤ microseconds 3600

instance (s : QqAdapter) (route : Route) (now : Int) : Decidable (s.InWindow route now) :=
  inferInstanceAs (Decidable (∀ context ∈ _, _))

/-- The routes are not more than can be tracked, and the context of the route has the rule of a
direct conversation. -/
structure Ruled (s : QqAdapter) (route : Route) : Prop where
  tracked : s.contexts.size ≤ MAX_TRACKED_CONTEXTS
  rule : ∀ context, s.contexts.get? route = some context →
    context.windowSeconds = 3600 ∧ context.limit = MAX_REPLY_SEGMENTS

theorem size_popOldest_iterate (contexts : Contexts) (n : Nat) :
    (Contexts.popOldest^[n] contexts).size ≤ contexts.size := by
  induction n generalizing contexts with
  | zero => exact Nat.le_refl _
  | succ n ih =>
    have hpopped : contexts.popOldest.size ≤ contexts.size := by
      unfold Contexts.popOldest
      split
      · exact Nat.le_refl _
      · exact OrderedDict.size_keep_le ..
    exact (ih _).trans hpopped

theorem size_prune_le (now : Int) (contexts : Contexts) :
    (contexts.prune now).size ≤ contexts.size := by
  exact (size_popOldest_iterate _ _).trans (OrderedDict.size_keep_le ..)

theorem get?_prune_of_window (hs : s.Ruled route) (hwindow : s.InWindow route now) :
    (s.contexts.prune now).get? route = s.contexts.get? route := by
  have hfew (p : Route × ReplyContext → Bool) :
      (s.contexts.keep p).size - MAX_TRACKED_CONTEXTS = 0 :=
    Nat.sub_eq_zero_of_le ((OrderedDict.size_keep_le ..).trans hs.tracked)
  unfold Contexts.prune
  dsimp only
  rw [hfew, Function.iterate_zero, id, OrderedDict.get?_keep]
  cases hcontext : s.contexts.get? route with
  | none => rfl
  | some context =>
    have hage := hwindow context hcontext
    refine Option.filter_some.trans (if_pos (decide_eq_true ?_))
    simp only [microseconds, CONTEXT_RETENTION_SECONDS] at hage ⊢
    omega

theorem InWindow.of_get? (h : s.InWindow route now)
    (hget : ∀ context, s'.contexts.get? route = some context →
      ∃ before, s.contexts.get? route = some before ∧ context.receivedAt = before.receivedAt) :
    s'.InWindow route now := by
  intro context hcontext
  obtain ⟨before, hbefore, hsame⟩ := hget context hcontext
  rw [hsame]
  exact h before hbefore

theorem startSend_flying : (s.startSend now route').flying route = s.flying route +
    if route' = route ∧ (s.contexts.planDelivery now route').1.passive.isSome then 1 else 0 := by
  simp [flying, startSend, List.countP_append, Send.inFlight, List.countP_singleton]

theorem startSend_size : (s.startSend now route).contexts.size ≤ s.contexts.size := by
  have hpruned := size_prune_le now s.contexts
  obtain ⟨-, hcontexts⟩ | ⟨-, -, -, -, hcontexts⟩ :=
    Contexts.planDelivery_cases s.contexts now route
  · exact (congrArg OrderedDict.size hcontexts).trans_le hpruned
  · exact ((congrArg OrderedDict.size hcontexts).trans OrderedDict.size_adjust).trans_le hpruned

theorem startSend_get?_ne (hs : s.Ruled route) (hwindow : s.InWindow route now)
    (hroute : route' ≠ route) :
    (s.startSend now route').contexts.get? route = s.contexts.get? route := by
  have hpruned := get?_prune_of_window hs hwindow
  obtain ⟨-, hcontexts⟩ | ⟨-, -, -, -, hcontexts⟩ :=
    Contexts.planDelivery_cases s.contexts now route'
  · exact (congrArg (OrderedDict.get? · route) hcontexts).trans hpruned
  · refine (congrArg (OrderedDict.get? · route) hcontexts).trans ?_
    rw [OrderedDict.get?_adjust, if_neg (Ne.symm hroute)]
    exact hpruned

theorem startSend_passive (hs : s.Ruled route) (hwindow : s.InWindow route now)
    (h : s.Leaves route (n + 1)) :
    (s.contexts.planDelivery now route).1.passive.isSome ∧
      ∃ context, s.contexts.get? route = some context ∧
        (s.startSend now route).contexts.get? route = some context.takeSeq := by
  obtain ⟨context, hcontext, hleft⟩ := h
  have hrule := hs.rule context hcontext
  have hpruned : (s.contexts.prune now).get? route = some context :=
    (get?_prune_of_window hs hwindow).trans hcontext
  have hallowed : context.passiveAllowed now = true := by
    have hage := hwindow context hcontext
    simp only [ReplyContext.passiveAllowed, hrule.1, Bool.and_eq_true, decide_eq_true_eq]
    exact ⟨by omega, hage⟩
  have hplan : s.contexts.planDelivery now route =
      (⟨context.targetId, some ⟨context.msgId, context.nextSeq⟩⟩,
        (s.contexts.prune now).adjust route .takeSeq) := by
    simp [Contexts.planDelivery, hpruned, hallowed]
  refine ⟨by rw [hplan]; rfl, context, hcontext, ?_⟩
  refine (congrArg (fun plan => OrderedDict.get? plan.2 route) hplan).trans ?_
  rw [OrderedDict.get?_adjust, if_pos rfl, hpruned]
  rfl

theorem startSend_window (h : s.InWindow route now) :
    (s.startSend now route').InWindow route now := by
  refine h.of_get? fun context hget => ?_
  obtain ⟨before, hbefore, rfl | rfl⟩ := Contexts.get?_planDelivery hget
  · exact ⟨_, hbefore, rfl⟩
  · exact ⟨before, hbefore, rfl⟩

theorem startSend_ruled (hs : s.Ruled route) : (s.startSend now route').Ruled route := by
  refine ⟨startSend_size.trans hs.tracked, fun context hget => ?_⟩
  obtain ⟨before, hbefore, rfl | rfl⟩ := Contexts.get?_planDelivery hget
  · exact hs.rule _ hbefore
  · exact hs.rule before hbefore

theorem startSend_leaves (hs : s.Ruled route) (hwindow : s.InWindow route now)
    (h : s.Leaves route (n + 1)) : (s.startSend now route).Leaves route n := by
  obtain ⟨hpassive, context, hcontext, hafter⟩ := startSend_passive hs hwindow h
  obtain ⟨context', hcontext', hleft⟩ := h
  rw [Option.mem_def, hcontext] at hcontext'
  cases hcontext'
  refine ⟨context.takeSeq, hafter, ?_⟩
  rw [startSend_flying, if_pos ⟨rfl, hpassive⟩]
  change context.passiveUsed + (s.flying route + 1) + n ≤ context.limit
  omega

variable {turnIds : List (Option Nat)} {certainty : Certainty} {call? : Option Nat}
  {callEnd : CallEnd}

theorem sendTexts_leaves (hs : s.Ruled route)
    (hwindow : s.InWindow route now) (h : s.Leaves route (turnIds.length + n)) :
    (s.sendTexts now route turnIds).1.Ruled route ∧
      (s.sendTexts now route turnIds).1.Leaves route n ∧
        ∀ text ∈ (s.sendTexts now route turnIds).2, text.2.passive.isSome := by
  induction turnIds generalizing s with
  | nil =>
    rw [List.length_nil, Nat.zero_add] at h
    exact ⟨hs, h, nofun⟩
  | cons turnId rest ih =>
    rw [List.length_cons, Nat.add_right_comm] at h
    obtain ⟨hruled, hleaves, hpassive⟩ :=
      ih (startSend_ruled hs) (startSend_window hwindow) (startSend_leaves hs hwindow h)
    refine ⟨hruled, hleaves, fun text hmem => ?_⟩
    obtain rfl | hmem := List.mem_cons.mp hmem
    · exact (startSend_passive hs hwindow h).1
    · exact hpassive text hmem

theorem sendTexts_ruled (hs : s.Ruled route) : (s.sendTexts now route' turnIds).1.Ruled route := by
  induction turnIds generalizing s with
  | nil => exact hs
  | cons turnId rest ih => exact ih (startSend_ruled hs)

theorem handleEvent_size (h : ((s.contexts.prune now).get? message.route).isSome ∨
      (s.contexts.prune now).size < MAX_TRACKED_CONTEXTS) (hs : s.Ruled route) :
    (s.handleEvent now message).contexts.size ≤ MAX_TRACKED_CONTEXTS := by
  have hpruned := (size_prune_le now s.contexts).trans hs.tracked
  unfold handleEvent
  split
  · exact hs.tracked
  · simp only [Contexts.remember]
    split
    · exact hpruned
    · obtain hkept | hfew := h
      · rw [OrderedDict.size_set_of_isSome hkept]
        exact hpruned
      · exact OrderedDict.size_set_le.trans hfew

theorem handleEvent_leaves (hs : s.Ruled route) (hdirect : (passiveReplyRule
      route.conversationType).2 = MAX_REPLY_SEGMENTS) (hwindow : s.InWindow route now)
    (h : s.Leaves route n) : (s.handleEvent now message).Leaves route n := by
  obtain ⟨context, hcontext, hleft⟩ := h
  have hpruned : (s.contexts.prune now).get? route = some context :=
    (get?_prune_of_window hs hwindow).trans hcontext
  unfold handleEvent
  split
  · exact ⟨context, hcontext, hleft⟩
  · simp only [Contexts.remember]
    split
    · exact ⟨context, hpruned, hleft⟩
    · by_cases hroute : route = message.route
      · refine ⟨.ofMessage message, by rw [OrderedDict.get?_set, if_pos hroute]; rfl, ?_⟩
        have hlimit := (hs.rule context hcontext).2
        have hrule : (ReplyContext.ofMessage message).limit = MAX_REPLY_SEGMENTS := by
          rw [← hdirect, hroute]
          rfl
        rw [hrule]
        change 0 + s.flying route + n ≤ MAX_REPLY_SEGMENTS
        omega
      · exact ⟨context, by rw [OrderedDict.get?_set, if_neg hroute]; exact hpruned, hleft⟩

theorem handleEvent_ruled (hs : s.Ruled route)
    (hdirect : passiveReplyRule route.conversationType = (3600, MAX_REPLY_SEGMENTS))
    (h : ((s.contexts.prune now).get? message.route).isSome ∨
      (s.contexts.prune now).size < MAX_TRACKED_CONTEXTS) :
    (s.handleEvent now message).Ruled route := by
  refine ⟨handleEvent_size h hs, fun context hget => ?_⟩
  unfold handleEvent at hget
  split at hget
  · exact hs.rule context hget
  · obtain hold | ⟨-, hroute, rfl⟩ := Contexts.get?_remember hget
    · exact hs.rule context hold
    · rw [hroute] at hdirect
      exact ⟨congrArg Prod.fst hdirect, congrArg Prod.snd hdirect⟩

theorem set_flying (h : s.pending? call = some send) {status : SendStatus}
    (hends : status ≠ .pending) :
    (s.sends.set call { send with status := status }).countP
        (fun send => send.route = route && send.delivery.passive.isSome && send.inFlight) +
      (if send.route = route ∧ send.delivery.passive.isSome then 1 else 0) = s.flying route := by
  have hset := set_countP h
    (fun send => send.route = route && send.delivery.passive.isSome && send.inFlight) status
  have hwaits := (pending?_eq_some h).2
  simpa [flying, Send.inFlight, hwaits, hends] using hset

theorem get?_of_endSend (call : Nat) (send : Send) (certainty : Certainty) {context : ReplyContext}
    (h : s.contexts.get? route = some context) :
    ∃ after, (s.endSend call send certainty).contexts.get? route = some after ∧
      after.limit = context.limit ∧ after.passiveUsed ≤ context.passiveUsed +
        if send.route = route ∧ send.delivery.passive.isSome then 1 else 0 := by
  simp only [endSend, Contexts.consumePassive]
  split
  · next hcounts =>
    rw [OrderedDict.get?_adjust]
    by_cases hroute : route = send.route
    · subst hroute
      refine ⟨context.charge, by rw [if_pos rfl, h]; rfl, rfl, ?_⟩
      simp only [Bool.and_eq_true] at hcounts
      rw [if_pos ⟨rfl, hcounts.2⟩]
      exact Nat.le_refl _
    · exact ⟨context, by rw [if_neg hroute, h], rfl, Nat.le_add_right _ _⟩
  · exact ⟨context, h, rfl, Nat.le_add_right _ _⟩

theorem endSend_leaves (hpending : s.pending? call = some send)
    (h : s.Leaves route n) : (s.endSend call send certainty).Leaves route n := by
  obtain ⟨context, hcontext, hleft⟩ := h
  obtain ⟨after, hafter, hlimit, hused⟩ := get?_of_endSend call send certainty hcontext
  have hends : SendStatus.finished certainty ≠ .pending := nofun
  have hflight : (s.endSend call send certainty).flying route +
      (if send.route = route ∧ send.delivery.passive.isSome then 1 else 0) = s.flying route :=
    set_flying hpending hends
  refine ⟨after, hafter, ?_⟩
  rw [hlimit]
  omega

theorem cancelSend_leaves (hpending : s.pending? call = some send) (h : s.Leaves route n) :
    (s.cancelSend call send).Leaves route n := by
  obtain ⟨context, hcontext, hleft⟩ := h
  have hends : SendStatus.cancelled ≠ .pending := nofun
  have hflight : (s.cancelSend call send).flying route +
      (if send.route = route ∧ send.delivery.passive.isSome then 1 else 0) = s.flying route :=
    set_flying hpending hends
  exact ⟨context, hcontext, by omega⟩

theorem endSend_ruled (hs : s.Ruled route) : (s.endSend call send certainty).Ruled route := by
  refine ⟨?_, fun context hcontext => ?_⟩
  · simp only [endSend, Contexts.consumePassive]
    split
    · exact OrderedDict.size_adjust.trans_le hs.tracked
    · exact hs.tracked
  · simp only [endSend, Contexts.consumePassive] at hcontext
    split at hcontext
    · obtain ⟨before, hbefore, rfl⟩ := OrderedDict.of_get?_adjust hcontext
      have hrule := hs.rule before hbefore
      split_ifs
      · exact hrule
      · exact hrule
    · exact hs.rule context hcontext

theorem endCall_leaves (h : s.Leaves route n) : (s.endCall call? callEnd).Leaves route n := by
  unfold endCall
  split
  · exact h
  · split
    · exact h
    · next hsend => exact endSend_leaves hsend h
    · next hsend => exact cancelSend_leaves hsend h

theorem endCall_ruled (hs : s.Ruled route) : (s.endCall call? callEnd).Ruled route := by
  unfold endCall
  split
  · exact hs
  · split
    · exact hs
    · exact endSend_ruled hs
    · exact ⟨hs.tracked, hs.rule⟩

end QqAdapter

end WittyService
