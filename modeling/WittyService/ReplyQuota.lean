import WittyService.RouteSpeech
import WittyService.TurnBudget
import WittyService.VisibleMessages

/-! How many texts a turn sends on a channel that limits the segments of a reply, and what its
last segment is when the reply was cut. An edit is not one of the texts. -/
namespace WittyService

open GuardedRuns ServiceQueues

namespace RouteEvent

def isTextOf (turnId : Nat) : RouteEvent → Bool
  | sent (some id) _ none => id == turnId
  | _ => false

def segmentOf? (turnId : Nat) : RouteEvent → Option String
  | sent (some id) (.answer text) _ | sent (some id) (.failure text) _ =>
    if id = turnId then some text else none
  | _ => none

end RouteEvent

/-- The plan leaves room for what was sent before it. -/
structure RouterConfig.PlansWithin (cfg : RouterConfig) (limit : Nat) : Prop where
  plan : ∀ text reserved, reserved ≤ 2 → (cfg.plan text reserved).length + reserved ≤ limit

namespace RouteState

variable (cfg : RouterConfig) (capabilities : ChannelCapabilities) (limit : Nat) (s : RouteState)

def texts (turnId : Nat) : Nat := s.trace.countP (RouteEvent.isTextOf turnId)

def segments (turnId : Nat) : List String := s.trace.filterMap (RouteEvent.segmentOf? turnId)

/-- The segments of the message in process and those that are still to come are those of the
plan for the text. -/
def Delivers (item : QueuedMessage) (turn : TurnContext) (rest : List String) (text : String) :
    Prop :=
  s.segments item.turnId ++ rest = cfg.plan text turn.nonFinalSent

/-- No turn has sent more texts than the limit. Where a send of a segment ends so, and with it the
delivery of a text that was cut, the segment is the notice. -/
structure KeepsQuota (delivered : Bool) : Prop where
  texts : ∀ turnId, s.texts turnId ≤ limit
  delivers : ∀ item turn final ref rest, s.Serving item (.delivery turn final ref rest) →
    ∃ text, s.Delivers cfg item turn rest text
  notice : ∀ item turn final ref rest text, s.Serving item (.delivery turn final ref rest) →
    s.Delivers cfg item turn rest text → (delivered = true → rest = []) →
      (WittyService.plan (some text.toList) capabilities turn.nonFinalSent).truncated = true →
        (s.segments item.turnId).getLast? = some (String.ofList CONSOLE_NOTICE_TEXT)

def Fits (turnId : Nat) : ProcessAwait → Prop
  | .resolveSession _ => s.texts turnId = 0 ∧ s.segments turnId = []
  | .placeholder turn =>
    s.texts turnId = 1 ∧ s.segments turnId = [] ∧ turn.nonFinalSent = 0 ∧ turn.noticeSent = false
  | .turnEvent turn _ | .interactionNotice turn _ _ | .rejectInteraction turn _
  | .joinPump turn (.outcome _) =>
    s.texts turnId = turn.nonFinalSent ∧ s.segments turnId = [] ∧ turn.Fair
  -- the notice is counted when it is sent
  | .deferredNotice turn _ edited =>
    s.texts turnId = (noticed turn edited).nonFinalSent ∧ s.segments turnId = [] ∧
      turn.noticeSent = true ∧ turn.nonFinalSent ≤ 1
  | .delivery turn _ ref rest =>
    ((cfg.canEdit && ref.isSome) = true ∨ s.texts turnId + rest.length ≤ limit) ∧
      ∃ text, s.segments turnId ++ rest = cfg.plan text turn.nonFinalSent
  | .notBound | .resolveError | .joinPump _ .raised | .joinPump _ .cancelled => True

/-- The texts are within the limit, and those of turns that were taken. -/
structure Within : Prop where
  texts : ∀ turnId, s.texts turnId ≤ limit
  untaken : ∀ turnId ∉ s.taken, s.texts turnId = 0 ∧ s.segments turnId = []

structure Budgeted : Prop where
  within : s.Within limit
  serving : ∀ item await, s.Serving item await → s.Fits cfg limit item.turnId await

variable {cfg capabilities limit s} {s' t : RouteState} {id turnId : Nat} {item : QueuedMessage}

theorem texts_append {events : List RouteEvent} (htrace : t.trace = s.trace ++ events) :
    t.texts turnId = s.texts turnId + events.countP (RouteEvent.isTextOf turnId) := by
  rw [texts, htrace, List.countP_append]
  rfl

theorem segments_append {events : List RouteEvent} (htrace : t.trace = s.trace ++ events) :
    t.segments turnId =
      s.segments turnId ++ events.filterMap (RouteEvent.segmentOf? turnId) := by
  rw [segments, htrace, List.filterMap_append]
  rfl

theorem Quieter.same (h : s.Quieter t) (turnId : Nat) :
    t.texts turnId = s.texts turnId ∧ t.segments turnId = s.segments turnId := by
  obtain ⟨events, htrace, hsilent⟩ := h
  have htext : events.countP (RouteEvent.isTextOf turnId) = 0 := by
    refine List.countP_eq_zero.mpr fun event hmem => ?_
    have h := hsilent event hmem
    unfold RouteEvent.isTextOf
    split
    · exact h.elim
    · exact Bool.false_ne_true
  have hsegment : events.filterMap (RouteEvent.segmentOf? turnId) = [] := by
    refine List.filterMap_eq_nil_iff.mpr fun event hmem => ?_
    have h := hsilent event hmem
    unfold RouteEvent.segmentOf?
    split
    · exact h.elim
    · exact h.elim
    · rfl
  rw [texts_append htrace, segments_append htrace, htext, hsegment, List.append_nil]
  exact ⟨rfl, rfl⟩

theorem Quieter.within (h : s.Quieter t) (hs : s.Within limit) : t.Within limit := by
  refine ⟨fun turnId => ?_, fun turnId hturn => ?_⟩
  · rw [(h.same turnId).1]
    exact hs.texts turnId
  · obtain ⟨htexts, hsegments⟩ := h.same turnId
    rw [htexts, hsegments]
    exact hs.untaken turnId (by rwa [← h.taken])

theorem Within.of_trace (hs : s.Within limit) (htrace : t.trace = s.trace) : t.Within limit :=
  (quieter_of_trace htrace).within hs

theorem Fits.quieter {await : ProcessAwait} (hfits : s.Fits cfg limit turnId await)
    (h : s.Quieter t) : t.Fits cfg limit turnId await := by
  obtain ⟨htexts, hsegments⟩ := h.same turnId
  unfold Fits at hfits ⊢
  rw [htexts, hsegments]
  exact hfits

section

variable {turnId' : Nat} {text : OutboundText} {edit : Option String}

theorem texts_say :
    (s.say (some turnId') text edit).texts turnId =
      s.texts turnId + if edit = none ∧ turnId' = turnId then 1 else 0 := by
  have htrace : (s.say (some turnId') text edit).trace =
      s.trace ++ [.sent (some turnId') text edit] := rfl
  rw [texts_append htrace, List.countP_singleton]
  cases edit with
  | some ref => rfl
  | none =>
    have hiff : RouteEvent.isTextOf turnId (.sent (some turnId') text none) = true ↔
        (none : Option String) = none ∧ turnId' = turnId := by
      rw [RouteEvent.isTextOf, beq_iff_eq]
      exact (and_iff_right rfl).symm
    simp only [hiff]

theorem segments_say :
    (s.say (some turnId') text edit).segments turnId = s.segments turnId ++
      (RouteEvent.segmentOf? turnId (.sent (some turnId') text edit)).toList := by
  have htrace : (s.say (some turnId') text edit).trace =
      s.trace ++ [.sent (some turnId') text edit] := rfl
  rw [segments_append htrace]
  cases hsegment : RouteEvent.segmentOf? turnId (.sent (some turnId') text edit) with
  | none | some text => simp [hsegment]

end

theorem Within.say (hs : s.Within limit) (htaken : turnId ∈ s.taken) {text : OutboundText}
    {edit : Option String} (hfits : edit ≠ none ∨ s.texts turnId + 1 ≤ limit) :
    (s.say (some turnId) text edit).Within limit := by
  have hother {turnId' : Nat} (hne : turnId' ≠ turnId) :
      (s.say (some turnId) text edit).texts turnId' = s.texts turnId' := by
    rw [texts_say, if_neg fun h => hne h.2.symm, Nat.add_zero]
  refine ⟨fun turnId' => ?_, fun turnId' huntaken => ?_⟩
  · by_cases heq : turnId' = turnId
    · subst heq
      rw [texts_say]
      split_ifs with hsent
      · exact hfits.resolve_left fun hedit => hedit hsent.1
      · exact hs.texts turnId'
    · rw [hother heq]
      exact hs.texts turnId'
  · have hsame : (s.say (some turnId) text edit).taken = s.taken := by
      rw [taken, show (s.say (some turnId) text edit).trace = s.trace ++ _ from rfl,
        List.filterMap_append]
      exact List.append_nil _
    rw [hsame] at huntaken
    have hne : turnId' ≠ turnId := fun heq => huntaken (heq ▸ htaken)
    obtain ⟨htexts, hsegments⟩ := hs.untaken turnId' huntaken
    refine ⟨(hother hne).trans htexts, ?_⟩
    rw [segments_say, hsegments]
    cases text <;> simp [RouteEvent.segmentOf?, hne.symm]

theorem budgeted_await (hsole : t.Sole id) (hwithin : t.Within limit) {await : ProcessAwait}
    (hfits : t.Fits cfg limit item.turnId await) : (t.await id item await).Budgeted cfg limit := by
  refine ⟨hwithin.of_trace rfl, fun item' await' hserving => ?_⟩
  obtain ⟨rfl, rfl⟩ := serving_await hsole hserving
  exact hfits.quieter (quieter_of_trace rfl)

theorem budgeted_exit (hsole : t.Sole id) (hwithin : t.Within limit) :
    (t.workerExit id).Budgeted cfg limit :=
  ⟨hwithin.of_trace rfl, fun _ _ hserving => absurd hserving (not_serving_exit hsole)⟩

theorem Within.served (hs : t.Within limit) {rest : List QueuedMessage} :
    (t.served item rest).Within limit := by
  have htrace : (t.served item rest).trace = t.trace ++ [.taken item.turnId] := rfl
  refine ⟨fun turnId => ?_, fun turnId huntaken => ?_⟩
  · rw [texts_append htrace]
    exact hs.texts turnId
  · rw [served_taken, List.mem_append, not_or] at huntaken
    rw [texts_append htrace, segments_append htrace, (hs.untaken turnId huntaken.1).2]
    exact ⟨(hs.untaken turnId huntaken.1).1, rfl⟩

theorem budgeted_takeNext (hlimit : 0 < limit) (hsole : t.Sole id) (hwithin : t.Within limit)
    (hwaits : t.Waits) : (t.takeNext id).Budgeted cfg limit := by
  unfold takeNext
  split
  · exact budgeted_exit hsole hwithin
  · next item rest hqueue =>
    have huntaken : item.turnId ∉ t.taken := hwaits item (hqueue ▸ List.mem_cons_self)
    obtain ⟨htexts, hsegments⟩ := hwithin.untaken _ huntaken
    have hserved : (t.served item rest).Sole id := hsole
    have htrace : (t.served item rest).trace = t.trace ++ [.taken item.turnId] := rfl
    have htexts' : (t.served item rest).texts item.turnId = 0 := by
      rw [texts_append htrace, htexts]
      rfl
    unfold startProcess
    split
    · have hsaid : ((t.served item rest).say (some item.turnId) .notBound none).Within limit := by
        refine hwithin.served.say ?_ (.inr ?_)
        · rw [served_taken]
          exact List.mem_append_right _ (List.mem_singleton_self _)
        · rw [htexts']
          exact hlimit
      have hsole' : ((t.served item rest).say (some item.turnId) .notBound none).Sole id := hsole
      exact budgeted_await hsole' hsaid trivial
    · refine budgeted_await hserved hwithin.served ⟨htexts', ?_⟩
      rw [segments_append htrace, hsegments]
      rfl

theorem quieter_ended : t.Quieter (t.emit (.ended turnId)) := by
  refine ⟨[.ended turnId], rfl, fun event hmem => ?_⟩
  rw [List.mem_singleton.mp hmem]
  trivial

theorem budgeted_endMessage (hlimit : 0 < limit) (hsole : t.Sole id) (hwithin : t.Within limit)
    (hwaits : t.Waits) : (t.endMessage id item).Budgeted cfg limit := by
  have hended : t.Quieter (t.emit (.ended item.turnId)) := quieter_ended
  have hsole' : (t.emit (.ended item.turnId)).Sole id := hsole
  refine budgeted_takeNext hlimit hsole' (hended.within hwithin) fun item' hitem' => ?_
  rw [hended.taken]
  exact hwaits item' hitem'

theorem budgeted_cancelMessage (hsole : t.Sole id) (hwithin : t.Within limit) :
    (t.cancelMessage id item).Budgeted cfg limit := by
  have hended : t.Quieter (t.emit (.ended item.turnId)) := quieter_ended
  have hsole' : (t.emit (.ended item.turnId)).Sole id := hsole
  exact budgeted_exit hsole' (hended.within hwithin)

theorem budgeted_deliver (hlimit : 0 < limit) (hsole : t.Sole id) (hwithin : t.Within limit)
    (hwaits : t.Waits) {turn : TurnContext} (howns : turn.turnId = item.turnId)
    (htaken : item.turnId ∈ t.taken) {final : Bool} {ref : Option String} {actions : List String}
    (hroom : (cfg.canEdit && ref.isSome) = true ∨ t.texts item.turnId + actions.length ≤ limit)
    (hplan : ∃ text, t.segments item.turnId ++ actions = cfg.plan text turn.nonFinalSent) :
    (t.deliver cfg id item turn final ref actions).Budgeted cfg limit := by
  cases actions with
  | nil =>
    have hclear : t.clearPlaceholder.Sole id := hsole
    exact budgeted_endMessage hlimit hclear (hwithin.of_trace rfl) hwaits
  | cons text rest =>
    simp only [deliver, howns]
    have hsole' {text : OutboundText} {edit : Option String} :
        (t.say (some item.turnId) text edit).Sole id := hsole
    have hedit (h : (cfg.canEdit && ref.isSome) = true) :
        (if cfg.canEdit then ref else none) ≠ none := by
      obtain ⟨hcan, href⟩ := Bool.and_eq_true_iff.mp h
      rw [if_pos hcan]
      exact Option.isSome_iff_ne_none.mp href
    rw [List.length_cons] at hroom
    refine budgeted_await hsole' (hwithin.say htaken ?_) ⟨?_, ?_⟩
    · exact hroom.imp hedit fun h => by omega
    · refine hroom.imp_right fun h => ?_
      rw [texts_say]
      split_ifs <;> omega
    · obtain ⟨answer, hanswer⟩ := hplan
      refine ⟨answer, ?_⟩
      rw [← hanswer, segments_say, List.append_assoc]
      cases final with
      | false | true => simp [RouteEvent.segmentOf?]

theorem budgeted_finishTurn (hcfg : cfg.PlansWithin limit) (hlimit : 0 < limit) (hsole : t.Sole id)
    (hwithin : t.Within limit) (hwaits : t.Waits) {turn : TurnContext}
    (howns : turn.turnId = item.turnId) (htaken : item.turnId ∈ t.taken)
    (htexts : t.texts item.turnId = turn.nonFinalSent) (hsegments : t.segments item.turnId = [])
    (hfair : turn.Fair) {outcome : TurnOutcome} {lastText : Option String} :
    (t.finishTurn cfg id item turn outcome lastText).Budgeted cfg limit := by
  have hsole' : (t.leave turn).Sole id := hsole
  have hwithin' : (t.leave turn).Within limit := hwithin.of_trace rfl
  have hroom (text : String) (ref : Option String) : (cfg.canEdit && ref.isSome) = true ∨
      (t.leave turn).texts item.turnId + (cfg.plan text turn.nonFinalSent).length ≤ limit := by
    refine .inr ?_
    have hplan := hcfg.plan text turn.nonFinalSent hfair.notices
    change t.texts item.turnId + _ ≤ limit
    omega
  have hnew (text : String) : ∃ answer, (t.leave turn).segments item.turnId ++
      cfg.plan text turn.nonFinalSent = cfg.plan answer turn.nonFinalSent :=
    ⟨text, congrArg (· ++ cfg.plan text turn.nonFinalSent) hsegments⟩
  have hclear : (t.leave turn).clearPlaceholder.Sole id := hsole
  generalize hend : t.finishTurn cfg id item turn outcome lastText = s'
  cases finishTurn_case hend with
  | aborted h | gated hclosed =>
    exact budgeted_endMessage hlimit hclear (hwithin.of_trace rfl) hwaits
  | fails hgo hopen hnone | answers hgo hopen text htext =>
    exact budgeted_deliver hlimit hsole' hwithin' hwaits howns htaken (hroom _ _) (hnew _)

/-- The message is in process, and its worker is the only one. -/
structure Served (s : RouteState) (limit id : Nat) (item : QueuedMessage) : Prop where
  sole : s.Sole id
  within : s.Within limit
  waits : s.Waits
  taken : item.turnId ∈ s.taken

theorem budgeted_placeholder (hlimit : 3 ≤ limit) (hs : s.Served limit id item)
    {bound : Option String} {sessionId : String}
    (hfits : s.Fits cfg limit item.turnId (.resolveSession bound)) :
    (s.sendPlaceholder id item bound sessionId).Budgeted cfg limit := by
  obtain ⟨htexts, hsegments⟩ := hfits
  unfold sendPlaceholder
  extract_lets t
  have htrace : t.trace = s.trace := by
    simp only [t]
    split_ifs
    · rfl
    · rfl
  have htasks : t.tasks = s.tasks := by
    simp only [t]
    split_ifs
    · rfl
    · rfl
  obtain ⟨htexts', hsegments'⟩ := (quieter_of_trace htrace).same item.turnId
  have hsole : (t.say (some item.turnId) .placeholder none).Sole id := fun k hk =>
    hs.sole k (by rwa [Live, ← htasks])
  refine budgeted_await hsole (Within.say (hs.within.of_trace htrace) ?_ (.inr ?_))
    ⟨?_, ?_, rfl, rfl⟩
  · rw [(quieter_of_trace htrace).taken]
    exact hs.taken
  · omega
  · rw [texts_say, htexts', htexts, if_pos ⟨rfl, rfl⟩]
  · rw [segments_say, hsegments', hsegments]
    rfl

theorem budgeted_startTurn (hcfg : cfg.PlansWithin limit) (hlimit : 0 < limit)
    (hs : s.Served limit id item) {turn : TurnContext} (howns : turn.turnId = item.turnId)
    (hfits : s.Fits cfg limit item.turnId (.placeholder turn)) {delivered : Bool}
    {ref lastText : Option String} :
    (s.startTurn cfg id item turn delivered ref lastText).Budgeted cfg limit := by
  obtain ⟨htexts, hsegments, hnone, hfirst⟩ := hfits
  unfold startTurn
  extract_lets turn' ref' t
  have hsole : t.Sole id := hs.sole
  have hwithin : t.Within limit := hs.within.of_trace rfl
  have hsent : turn'.nonFinalSent = 1 := congrArg (· + 1) hnone
  have hfair : turn'.Fair := ⟨by omega, fun _ => Nat.le_of_eq hsent⟩
  have htexts' : t.texts item.turnId = turn'.nonFinalSent := htexts.trans hsent.symm
  have howns' : turn'.turnId = item.turnId := howns
  split
  · exact budgeted_finishTurn hcfg hlimit hsole hwithin hs.waits howns' hs.taken htexts' hsegments
      hfair
  · exact budgeted_await hsole hwithin ⟨htexts', hsegments, hfair⟩

/-- The turn goes on with the texts it has sent. -/
def Exact (s : RouteState) (turnId : Nat) (turn : TurnContext) : Prop :=
  s.texts turnId = turn.nonFinalSent ∧ s.segments turnId = [] ∧ turn.Fair

theorem budgeted_refuse (hs : s.Served limit id item) {turn : TurnContext}
    (hexact : s.Exact item.turnId turn) {outcome : TurnOutcome} {requestId : Option String} :
    (s.refuseQuestion id item turn outcome requestId).Budgeted cfg limit := by
  unfold refuseQuestion
  split
  · exact budgeted_await hs.sole hs.within hexact
  · exact budgeted_await hs.sole hs.within hexact

theorem budgeted_consume (hlimit : 3 ≤ limit) (hs : s.Served limit id item) {turn : TurnContext}
    (howns : turn.turnId = item.turnId) (hexact : s.Exact item.turnId turn)
    {outcome : TurnOutcome} {signal : TurnSignal} :
    (s.consume cfg id item turn outcome signal).Budgeted cfg limit := by
  obtain ⟨htexts, hsegments, hfair⟩ := hexact
  have hsole {text : OutboundText} {edit : Option String} :
      (s.say (some turn.turnId) text edit).Sole id := hs.sole
  have hgoes {await : ProcessAwait} (hfits : s.Fits cfg limit item.turnId await) :
      (s.await id item await).Budgeted cfg limit := budgeted_await hs.sole hs.within hfits
  cases signal with
  | stall =>
    simp only [consume, markDeferred]
    split
    · exact hgoes ⟨htexts, hsegments, hfair⟩
    · next hfirst =>
      have hone := hfair.first ((Bool.not_eq_true _).mp hfirst)
      rw [← howns] at htexts hsegments
      have htaken : turn.turnId ∈ s.taken := howns ▸ hs.taken
      refine budgeted_await hsole (hs.within.say htaken (.inr (by omega))) ⟨?_, ?_, rfl, hone⟩
      · rw [← howns, texts_say, htexts]
        split
        · next hcan =>
          cases hedit : s.placeholderRef with
          | none | some ref => simp [noticed]
        · next hcan => simp [noticed]
      · rw [← howns, segments_say, hsegments]
        rfl
  | questionAsked requestId =>
    simp only [consume, handleInteraction]
    split
    · exact budgeted_refuse hs ⟨htexts, hsegments, hfair⟩
    · next hfirst =>
      have hone := hfair.first ((Bool.not_eq_true _).mp hfirst)
      rw [← howns] at htexts hsegments
      have htaken : turn.turnId ∈ s.taken := howns ▸ hs.taken
      refine budgeted_await hsole (hs.within.say htaken (.inr (by omega))) ⟨?_, ?_, ?_⟩
      · rw [← howns, texts_say, htexts, if_pos ⟨rfl, rfl⟩]
      · rw [← howns, segments_say, hsegments]
        rfl
      · exact ⟨Nat.succ_le_succ hone, (by rintro ⟨⟩)⟩
  | ended | error code message | terminal text | errorEvent code message | other =>
    exact hgoes ⟨htexts, hsegments, hfair⟩

theorem budgeted_join (hcfg : cfg.PlansWithin limit) (hlimit : 0 < limit)
    (hs : s.Served limit id item) {turn : TurnContext} (howns : turn.turnId = item.turnId)
    {exit : TurnExit} (hfits : s.Fits cfg limit item.turnId (.joinPump turn exit))
    {lastText : Option String} :
    (s.pumpJoined cfg id item turn lastText exit).Budgeted cfg limit := by
  have hleft : ({ s with current := none } : RouteState).Sole id := hs.sole
  cases exit with
  | outcome outcome =>
    obtain ⟨htexts, hsegments, hfair⟩ := hfits
    exact budgeted_finishTurn hcfg hlimit hs.sole hs.within hs.waits howns hs.taken htexts hsegments
      hfair
  | raised => exact budgeted_endMessage hlimit hleft (hs.within.of_trace rfl) hs.waits
  | cancelled => exact budgeted_cancelMessage hleft (hs.within.of_trace rfl)

section

variable (hcfg : cfg.PlansWithin limit) (hlimit : 3 ≤ limit)
include hcfg hlimit

theorem processStep_budgeted (hs : s.Served limit id item) {await : ProcessAwait}
    (howns : await.Owns item.turnId)
    (hfits : s.Fits cfg limit item.turnId await) {answer : Answer}
    (h : s.processStep cfg id item await answer = some s') : s'.Budgeted cfg limit := by
  have hpos : 0 < limit := by omega
  have hends : (s.endMessage id item).Budgeted cfg limit :=
    budgeted_endMessage hpos hs.sole hs.within hs.waits
  have hcancels : (s.cancelMessage id item).Budgeted cfg limit :=
    budgeted_cancelMessage hs.sole hs.within
  have hleaves {turn : TurnContext} {exit : TurnExit}
      (hexit : exit = .raised ∨ exit = .cancelled) :
      (s.leaveTurn id item turn exit).Budgeted cfg limit := by
    refine budgeted_await hs.sole hs.within ?_
    obtain rfl | rfl := hexit
    · trivial
    · trivial
  unfold processStep at h
  split at h <;> cases h
  · exact hends
  · exact hends
  · exact hcancels
  -- the session
  · exact budgeted_placeholder hlimit hs hfits
  · have hsole {text : OutboundText} : (s.say (some item.turnId) text none).Sole id := hs.sole
    refine budgeted_await hsole (hs.within.say hs.taken (.inr ?_)) trivial
    rw [hfits.1]
    exact hpos
  · exact hends
  · exact hcancels
  · exact hends
  · exact hends
  · exact hcancels
  -- the placeholder
  · exact budgeted_startTurn hcfg hpos hs howns hfits
  · exact hends
  · exact hcancels
  -- the next event of the turn
  · exact budgeted_consume hlimit hs howns hfits
  · exact hleaves (.inr rfl)
  · next turn outcome edited delivered ref =>
    obtain ⟨htexts, hsegments, hnotice, hone⟩ := hfits
    refine budgeted_await hs.sole hs.within ⟨htexts, hsegments, ?_, fun hfirst => ?_⟩
    · split
      · exact Nat.le_succ_of_le hone
      · exact Nat.succ_le_succ hone
    · split at hfirst
      · rw [hnotice] at hfirst
        cases hfirst
      · rw [hnotice] at hfirst
        cases hfirst
  · exact hleaves (.inl rfl)
  · exact hleaves (.inr rfl)
  -- the notice of a question and its refusal
  · exact budgeted_refuse hs hfits
  · exact hleaves (.inl rfl)
  · exact hleaves (.inr rfl)
  · exact budgeted_await hs.sole hs.within hfits
  · exact hleaves (.inr rfl)
  -- the end of the pump
  · exact budgeted_join hcfg hpos hs howns hfits
  -- a segment
  · split
    · exact budgeted_deliver hpos hs.sole hs.within hs.waits howns hs.taken hfits.1 hfits.2
    · have hclear : s.clearPlaceholder.Sole id := hs.sole
      exact budgeted_endMessage hpos hclear (hs.within.of_trace rfl) hs.waits
  · exact hends
  · exact hcancels

theorem worker_budgeted (hs : s.Sound) (hbudget : s.Budgeted cfg limit) {answer : Answer}
    (h : s.workerStep cfg id answer = some s') : s'.Budgeted cfg limit := by
  have hpos : 0 < limit := by omega
  unfold workerStep at h
  split at h
  · cases h
  · next htask =>
    cases h
    have hsole : s.Sole id := hs.consistent.sole (by simp [Live, htask])
    exact budgeted_takeNext hpos hsole hbudget.within hs.waits
  · next item await htask =>
    have hserving : s.Serving item await := ⟨id, htask⟩
    have hserved : s.Served limit id item :=
      ⟨hs.consistent.sole (by simp [Live, htask]), hbudget.within, hs.waits,
        hs.tracked.taken item await hserving⟩
    exact processStep_budgeted hcfg hlimit hserved (hs.tracked.owns item await hserving)
      (hbudget.serving item await hserving) h

theorem step_budgeted {a : RouteAction}
    (hs : s.Sound) (hbudget : s.Budgeted cfg limit) (h : routeStep cfg s a = some s') :
    s'.Budgeted cfg limit := by
  by_cases hworker : ∃ id answer, a = .worker id answer
  · obtain ⟨id, answer, rfl⟩ := hworker
    exact worker_budgeted hcfg hlimit hs hbudget h
  · have hquieter : s.Quieter s' :=
      beside_quieter (fun id answer heq => hworker ⟨id, answer, heq⟩) h
    have haside : s.Aside s' := (worker_or_aside h).resolve_left hworker
    refine ⟨hquieter.within hbudget.within, fun item await hserving => ?_⟩
    exact (hbudget.serving item await (haside.serving item await hserving)).quieter hquieter

end

theorem fresh_budgeted (agentId activeSession : Option String) :
    (fresh agentId activeSession).Budgeted cfg limit := by
  refine ⟨⟨fun _ => Nat.zero_le _, fun _ _ => ⟨rfl, rfl⟩⟩, ?_⟩
  rintro item await ⟨k, hk⟩
  cases hk

section

variable {requestedDepth : Int} {renderError : String → String}

theorem plansWithin_ofCapabilities (hlimit : 3 ≤ limit)
    (hsegments : capabilities.maxReplySegments = some (limit : Int)) :
    (RouterConfig.ofCapabilities capabilities requestedDepth renderError).PlansWithin limit := by
  refine ⟨fun text reserved hreserved => ?_⟩
  have hplan := plan_length_le (some text.toList) capabilities hsegments reserved
  simp only [RouterConfig.ofCapabilities, List.length_map]
  omega

theorem Budgeted.keepsQuota
    (hs : s.Budgeted (.ofCapabilities capabilities requestedDepth renderError) limit) :
    s.KeepsQuota (.ofCapabilities capabilities requestedDepth renderError) capabilities limit
      true := by
  refine ⟨hs.within.texts, fun item turn final ref rest hserving => ?_, ?_⟩
  · exact (hs.serving item _ hserving).2
  · intro item turn final ref rest text hserving hdelivers hdone hcut
    rw [Delivers, hdone rfl, List.append_nil] at hdelivers
    rw [hdelivers]
    have hlast := plan_truncated_last hcut
    rw [List.getLast?_map] at hlast
    obtain ⟨action, haction, htext⟩ := Option.map_eq_some_iff.mp hlast
    simp [RouterConfig.ofCapabilities, haction, htext]

end

/-- In every run of a route no turn has sent more texts than the channel allows, whatever becomes
of each send; and where all segments of an answer or error text that was cut are delivered, the
last one is the notice. -/
theorem replies_within_limit (capabilities : ChannelCapabilities) (limit : Nat)
    (hlimit : 3 ≤ limit) (hsegments : capabilities.maxReplySegments = some (limit : Int))
    (requestedDepth : Int) (renderError : String → String) (agentId activeSession : Option String)
    (actions : List RouteAction) :
    Always (routeStep (.ofCapabilities capabilities requestedDepth renderError))
      (fun s => s.KeepsQuota (.ofCapabilities capabilities requestedDepth renderError)
        capabilities limit true) (fresh agentId activeSession) actions := by
  have hcfg : (RouterConfig.ofCapabilities capabilities requestedDepth renderError).PlansWithin
      limit := plansWithin_ofCapabilities hlimit hsegments
  refine always_mono (fun s (hs : s.Sound ∧ s.Budgeted _ limit) => hs.2.keepsQuota) ?_
  refine always_of_invariant (fun s a s' hs h => ?_) actions
    ⟨fresh_sound agentId activeSession, fresh_budgeted agentId activeSession⟩
  exact ⟨step_sound hs.1 h, step_budgeted hcfg hlimit hs.1 hs.2 h⟩

def narrowChannel : ChannelCapabilities := ⟨false, 1, some 3⟩

def narrowRouter : RouterConfig := .ofCapabilities narrowChannel 3 fun code => code

def cutAnswer : List RouteAction := [
  .inbound (.plain "question"), .worker 0 .done, .worker 0 (.session "session"),
  .worker 0 (.placeholderSent true none none),
  .worker 0 (.signal (.terminal (some "a\n\nb\n\nc"))), .worker 0 (.pumpDone none)]

theorem narrow_replies_within_limit :
    3 ≤ 3 ∧ Always (routeStep narrowRouter)
      (fun s => s.KeepsQuota narrowRouter narrowChannel 3 true) (fresh (some "agent") none)
        cutAnswer :=
  ⟨by decide, replies_within_limit narrowChannel 3 (by decide) rfl 3 (fun code => code)
    (some "agent") none cutAnswer⟩

/-- When the first part is not delivered, the delivery ends with it. -/
theorem rejected_segment_hides_notice :
    ¬ ∀ (capabilities : ChannelCapabilities) (limit : Nat), 3 ≤ limit →
      capabilities.maxReplySegments = some (limit : Int) → ∀ (requestedDepth : Int)
        (renderError : String → String) (agentId activeSession : Option String)
        (actions : List RouteAction) (delivered : Bool),
          Always (routeStep (.ofCapabilities capabilities requestedDepth renderError))
            (fun s => s.KeepsQuota (.ofCapabilities capabilities requestedDepth renderError)
              capabilities limit delivered) (fresh agentId activeSession) actions := by
  intro h
  have hquota := h narrowChannel 3 (by decide) rfl 3 (fun code => code) (some "agent") none
    cutAnswer false
  have hend : ∃ s item turn, run (routeStep narrowRouter) (fresh (some "agent") none)
      cutAnswer = some s ∧
        s.Serving item (.delivery turn true none [String.ofList CONSOLE_NOTICE_TEXT]) ∧
          turn.nonFinalSent = 1 ∧ s.segments item.turnId = ["a"] := by
    refine ⟨_, ⟨0, "question"⟩, ⟨0, "session", 0, 1, false⟩, rfl, ⟨0, ?_⟩, rfl, ?_⟩
    · rfl
    · rfl
  obtain ⟨s, item, turn, hrun, hserving, hsent, hsegments⟩ := hend
  have hkeeps := always_last hquota hrun
  have hlast := hkeeps.notice item turn true none _ "a\n\nb\n\nc" hserving ?_ nofun ?_
  · rw [hsegments] at hlast
    exact absurd hlast (by decide)
  · rw [Delivers, hsegments, hsent]
    rfl
  · rw [hsent]
    rfl

end RouteState

end WittyService
