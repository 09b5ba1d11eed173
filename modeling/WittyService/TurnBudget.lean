import WittyService.RouteInvariants

/-! How many texts a turn sends on a channel that cannot edit its messages and limits the
segments of a reply. -/
namespace WittyService

open GuardedRuns

def MAX_REPLY_SEGMENTS : Nat := 4

/-- The turn of a text that is sent, `none` for one beside the turns. -/
def RouteEvent.text? : RouteEvent → Option (Option Nat)
  | sent turnId _ none => some turnId
  | stopAck _ _ _ => some none
  | _ => none

def RouteEvent.isTaken : RouteEvent → Bool
  | taken _ => true
  | _ => false

def spokenTexts (events : List RouteEvent) : List (Option Nat) := events.filterMap RouteEvent.text?

/-- The turn has sent its placeholder, and at most one notice. -/
structure TurnContext.Fair (turn : TurnContext) : Prop where
  notices : turn.nonFinalSent ≤ 2
  first : turn.noticeSent = false → turn.nonFinalSent ≤ 1

def TurnContext.rest (turn : TurnContext) : Nat := MAX_REPLY_SEGMENTS - turn.nonFinalSent

/-- The channel cannot edit a message, and limits the segments of a reply. -/
structure RouterConfig.LimitsReplies (cfg : RouterConfig) : Prop where
  edit : cfg.canEdit = false
  plan : ∀ text reserved, (cfg.plan text reserved).length ≤ max 1 (MAX_REPLY_SEGMENTS - reserved)

namespace ProcessAwait

def Shaped : ProcessAwait → Prop
  | placeholder turn => turn.nonFinalSent = 0 ∧ turn.noticeSent = false
  | turnEvent turn _ | interactionNotice turn _ _ | rejectInteraction turn _
  | joinPump turn _ => turn.Fair
  | deferredNotice turn _ edited => edited = false ∧ turn.noticeSent = true ∧ turn.nonFinalSent ≤ 1
  | _ => True

def due : ProcessAwait → Nat
  | notBound | resolveError | joinPump _ .raised | joinPump _ .cancelled => 0
  | resolveSession _ => MAX_REPLY_SEGMENTS
  | turnEvent turn _ | interactionNotice turn _ _ | rejectInteraction turn _
  | joinPump turn (.outcome _) => turn.rest
  -- the text on its way is counted when it is sent
  | placeholder turn | deferredNotice turn _ _ => turn.rest - 1
  | delivery _ _ _ rest => rest.length

end ProcessAwait

namespace RouteState

variable {cfg : RouterConfig} {s s' t : RouteState} {id : Nat} {item : QueuedMessage}
  {budget : Nat} {budget? : Option Nat}

/-- The texts of the step, and what the message may send after it, are within the budget, or
within the limit where the step takes a new message. -/
def Spends (s s' : RouteState) (budget? : Option Nat) : Prop :=
  ∃ events, s'.trace = s.trace ++ events ∧
    ((spokenTexts events = [] ∧ ∀ item await, ¬ s'.Serving item await) ∨
      ∃ item await, s'.Serving item await ∧ await.Shaped ∧
        ((events.any RouteEvent.isTaken ∧
          (spokenTexts events).length + await.due ≤ MAX_REPLY_SEGMENTS) ∨
            ∃ budget ∈ budget?, (spokenTexts events).length + await.due ≤ budget))

variable {events : List RouteEvent} {await : ProcessAwait} {turn : TurnContext}
  {lastText : Option String} {outcome : TurnOutcome} {answer : Answer}

theorem Spends.after (htrace : t.trace = s.trace ++ events)
    (htexts : spokenTexts events = []) (h : t.Spends s' budget?) : s.Spends s' budget? := by
  obtain ⟨events', htrace', hend⟩ := h
  have hsame : spokenTexts (events ++ events') = spokenTexts events' := by
    rw [spokenTexts, List.filterMap_append]
    exact congrArg (· ++ spokenTexts events') htexts
  refine ⟨events ++ events', by rw [htrace', htrace, List.append_assoc], ?_⟩
  rw [hsame, List.any_append]
  refine hend.imp_right ?_
  rintro ⟨item, await, hserving, hshaped, ⟨htaken, hfits⟩ | ⟨budget, hbudget, hfits⟩⟩
  · exact ⟨item, await, hserving, hshaped, .inl ⟨by rw [htaken, Bool.or_true], hfits⟩⟩
  · exact ⟨item, await, hserving, hshaped, .inr ⟨budget, hbudget, hfits⟩⟩

theorem await_spends (hshaped : await.Shaped) (hdue : await.due ≤ budget)
    (htrace : t.trace = s.trace) : s.Spends (t.await id item await) (some budget) := by
  refine ⟨[], by rw [List.append_nil]; exact htrace,
    .inr ⟨item, await, serving_self, hshaped, .inr ⟨budget, rfl, ?_⟩⟩⟩
  rw [spokenTexts, List.filterMap_nil, List.length_nil, Nat.zero_add]
  exact hdue

theorem say_spends {turnId : Option Nat} {text : OutboundText}
    (hshaped : await.Shaped) (hdue : await.due + 1 ≤ budget) (htrace : t.trace = s.trace) :
    s.Spends ((t.say turnId text none).await id item await) (some budget) := by
  refine ⟨[.sent turnId text none], congrArg (· ++ _) htrace,
    .inr ⟨item, await, serving_self, hshaped, .inr ⟨budget, rfl, ?_⟩⟩⟩
  have hone : spokenTexts [.sent turnId text none] = [turnId] := rfl
  rw [hone, List.length_singleton, Nat.add_comm]
  exact hdue

theorem exit_spends (hsole : t.Sole id)
    (htrace : t.trace = s.trace ++ events) (htexts : spokenTexts events = []) :
    s.Spends (t.workerExit id) budget? :=
  ⟨events, htrace, .inl ⟨htexts, fun _ _ => not_serving_exit hsole⟩⟩

theorem takeNext_spends (hsole : t.Sole id) : t.Spends (t.takeNext id) budget? := by
  unfold takeNext
  split
  · exact exit_spends hsole (List.append_nil _).symm rfl
  · next item rest hqueue =>
    unfold startProcess
    split
    · refine ⟨[.taken item.turnId, .sent item.turnId .notBound none], ?_,
        .inr ⟨item, .notBound, serving_self, trivial, .inl ⟨rfl, ?_⟩⟩⟩
      · simp [emit, say, RouteState.await]
      · change 1 + 0 ≤ 4
        decide
    · exact ⟨[.taken item.turnId], rfl,
        .inr ⟨item, _, serving_self, trivial, .inl ⟨rfl, Nat.le_refl _⟩⟩⟩

theorem endMessage_spends (hsole : t.Sole id) (htrace : t.trace = s.trace) :
    s.Spends (t.endMessage id item) budget? := by
  have hended : (t.emit (.ended item.turnId)).trace = s.trace ++ [.ended item.turnId] :=
    congrArg (· ++ _) htrace
  have hsole' : (t.emit (.ended item.turnId)).Sole id := hsole
  exact (takeNext_spends hsole').after hended rfl

theorem cancelMessage_spends (hsole : t.Sole id) (htrace : t.trace = s.trace) :
    s.Spends (t.cancelMessage id item) budget? := by
  have hsole' : (t.emit (.ended item.turnId)).Sole id := hsole
  exact exit_spends hsole' (congrArg (· ++ _) htrace) rfl

section

variable (hcfg : cfg.LimitsReplies) (hsole : t.Sole id) (htrace : t.trace = s.trace)
  {turn : TurnContext}
include hcfg hsole htrace

theorem deliver_spends {final : Bool} {ref : Option String} {actions : List String}
    (hbudget : actions.length ≤ budget) :
    s.Spends (t.deliver cfg id item turn final ref actions) (some budget) := by
  cases actions with
  | nil => exact endMessage_spends hsole htrace
  | cons text rest =>
    simp only [deliver, hcfg.edit, Bool.false_eq_true, if_false]
    exact say_spends trivial hbudget htrace

theorem finishTurn_spends (hnotices : turn.nonFinalSent ≤ 2)
    (hbudget : turn.rest ≤ budget) {outcome : TurnOutcome} {lastText : Option String} :
    s.Spends (t.finishTurn cfg id item turn outcome lastText) (some budget) := by
  -- at most two texts came before, so the reservation of the plan is what is left
  have hplan (text : String) : (cfg.plan text turn.nonFinalSent).length ≤ budget := by
    have hlimit := hcfg.plan text turn.nonFinalSent
    simp only [TurnContext.rest, MAX_REPLY_SEGMENTS] at hlimit hbudget
    omega
  have hsole' : (t.leave turn).Sole id := hsole
  generalize hend : t.finishTurn cfg id item turn outcome lastText = s'
  cases finishTurn_case hend with
  | aborted h | gated hclosed => exact endMessage_spends hsole' htrace
  | fails hgo hopen hnone | answers hgo hopen text htext =>
    exact deliver_spends hcfg hsole' htrace (hplan _)

end

theorem sendPlaceholder_spends {bound : Option String} {sessionId : String}
    (hbudget : MAX_REPLY_SEGMENTS ≤ budget) :
    s.Spends (s.sendPlaceholder id item bound sessionId) (some budget) := by
  unfold sendPlaceholder
  extract_lets t
  have htrace : t.trace = s.trace := by
    simp only [t]
    split_ifs
    · rfl
    · rfl
  exact say_spends ⟨rfl, rfl⟩ hbudget htrace

theorem startTurn_spends (hcfg : cfg.LimitsReplies) (hsole : s.Sole id)
    (hshaped : (ProcessAwait.placeholder turn).Shaped)
    (hbudget : (ProcessAwait.placeholder turn).due ≤ budget)
    {delivered : Bool} {ref : Option String} :
    s.Spends (s.startTurn cfg id item turn delivered ref lastText) (some budget) := by
  unfold startTurn
  extract_lets turn' ref' t
  have hsole' : t.Sole id := hsole
  have hsent : turn'.nonFinalSent = 1 := congrArg (· + 1) hshaped.1
  have hrest : turn'.rest ≤ budget := by
    simp only [ProcessAwait.due, TurnContext.rest, hshaped.1] at hbudget
    simp only [TurnContext.rest, hsent]
    omega
  split
  · exact finishTurn_spends hcfg hsole' rfl (by omega) hrest
  · have hfair : turn'.Fair := ⟨by omega, fun _ => Nat.le_of_eq hsent⟩
    exact await_spends hfair hrest rfl

theorem refuseQuestion_spends (hfair : turn.Fair)
    (hbudget : turn.rest ≤ budget) {requestId : Option String} :
    s.Spends (s.refuseQuestion id item turn outcome requestId) (some budget) := by
  unfold refuseQuestion
  split
  · exact await_spends hfair hbudget rfl
  · exact await_spends hfair hbudget rfl

theorem consume_spends (hcfg : cfg.LimitsReplies) (hfair : turn.Fair)
    (hbudget : turn.rest ≤ budget) {signal : TurnSignal} :
    s.Spends (s.consume cfg id item turn outcome signal) (some budget) := by
  cases signal with
  | stall =>
    simp only [consume, markDeferred, hcfg.edit, Bool.false_eq_true, if_false]
    split
    · exact await_spends hfair hbudget rfl
    · next hfirst =>
      have hone := hfair.first ((Bool.not_eq_true _).mp hfirst)
      refine say_spends ⟨rfl, rfl, hone⟩ ?_ rfl
      simp only [ProcessAwait.due, TurnContext.rest, MAX_REPLY_SEGMENTS] at hbudget ⊢
      omega
  | questionAsked requestId =>
    simp only [consume, handleInteraction]
    split
    · exact refuseQuestion_spends hfair hbudget
    · next hfirst =>
      have hone := hfair.first ((Bool.not_eq_true _).mp hfirst)
      refine say_spends ⟨Nat.succ_le_succ hone, (by rintro ⟨⟩)⟩ ?_ rfl
      simp only [ProcessAwait.due, TurnContext.rest, MAX_REPLY_SEGMENTS] at hbudget ⊢
      omega
  | ended | error code message | terminal text | errorEvent code message | other =>
    exact await_spends hfair hbudget rfl

theorem pumpJoined_spends (hcfg : cfg.LimitsReplies) (hsole : s.Sole id)
    (hfair : turn.Fair) {exit : TurnExit}
    (hbudget : (ProcessAwait.joinPump turn exit).due ≤ budget) :
    s.Spends (s.pumpJoined cfg id item turn lastText exit) (some budget) := by
  have hsole' : { s with current := none : RouteState }.Sole id := hsole
  cases exit with
  | outcome outcome => exact finishTurn_spends hcfg hsole rfl hfair.notices hbudget
  | raised => exact endMessage_spends hsole' rfl
  | cancelled => exact cancelMessage_spends hsole' rfl

theorem processStep_spends (hcfg : cfg.LimitsReplies) (hsole : s.Sole id) (hshaped : await.Shaped)
    (h : s.processStep cfg id item await answer = some s') : s.Spends s' (some await.due) := by
  have hends {budget : Nat} : s.Spends (s.endMessage id item) (some budget) :=
    endMessage_spends hsole rfl
  have hcancels {budget : Nat} : s.Spends (s.cancelMessage id item) (some budget) :=
    cancelMessage_spends hsole rfl
  -- a turn that is left sends nothing more
  have hleaves {budget : Nat} {turn : TurnContext} {exit : TurnExit} (hfair : turn.Fair)
      (hexit : exit = .raised ∨ exit = .cancelled) :
      s.Spends (s.leaveTurn id item turn exit) (some budget) := by
    refine await_spends hfair ?_ rfl
    obtain rfl | rfl := hexit
    · exact Nat.zero_le _
    · exact Nat.zero_le _
  unfold processStep at h
  split at h <;> cases h
  · exact hends
  · exact hends
  · exact hcancels
  -- the session: four texts are due, or the error text
  · exact sendPlaceholder_spends (Nat.le_refl _)
  · exact say_spends trivial (Nat.le_add_left 1 3) rfl
  · exact hends
  · exact hcancels
  · exact hends
  · exact hends
  · exact hcancels
  -- the placeholder is the first of them
  · exact startTurn_spends hcfg hsole hshaped (Nat.le_refl _)
  · exact hends
  · exact hcancels
  · exact consume_spends hcfg hshaped (Nat.le_refl _)
  · exact hleaves hshaped (.inr rfl)
  · -- the notice of a stall was counted when it was sent, so the turn goes on as fair as it was
    next turn outcome edited delivered ref =>
    obtain ⟨rfl, hnotice, hone⟩ := hshaped
    have hfair : { turn with nonFinalSent := turn.nonFinalSent + 1 : TurnContext }.Fair := by
      refine ⟨Nat.succ_le_succ hone, fun hfirst => ?_⟩
      rw [hnotice] at hfirst
      cases hfirst
    refine await_spends hfair ?_ rfl
    simp only [ProcessAwait.due, TurnContext.rest, Bool.false_eq_true, if_false]
    omega
  · exact hleaves ⟨Nat.le_succ_of_le hshaped.2.2, fun _ => hshaped.2.2⟩ (.inl rfl)
  · exact hleaves ⟨Nat.le_succ_of_le hshaped.2.2, fun _ => hshaped.2.2⟩ (.inr rfl)
  · exact refuseQuestion_spends hshaped (Nat.le_refl _)
  · exact hleaves hshaped (.inl rfl)
  · exact hleaves hshaped (.inr rfl)
  · exact await_spends hshaped (Nat.le_refl _) rfl
  · exact hleaves hshaped (.inr rfl)
  · exact pumpJoined_spends hcfg hsole hshaped (Nat.le_refl _)
  · split
    · exact deliver_spends hcfg hsole rfl (Nat.le_refl _)
    · have hsole' : s.clearPlaceholder.Sole id := hsole
      exact endMessage_spends hsole' rfl
  · exact hends
  · exact hcancels

/-- The awaits of the messages in process have the shape they are made with. -/
def Shaped (s : RouteState) : Prop := ∀ item await, s.Serving item await → await.Shaped

theorem worker_spends (hcfg : cfg.LimitsReplies) (hs : s.Consistent) (hshaped : s.Shaped)
    (h : routeStep cfg s (.worker id answer) = some s') :
    ∃ budget?, s.Spends s' budget? ∧
      ∀ budget ∈ budget?, ∃ item await, s.Serving item await ∧ budget = await.due := by
  have hworker : s.workerStep cfg id answer = some s' := h
  unfold workerStep at hworker
  split at hworker
  · cases hworker
  · next htask =>
    cases hworker
    exact ⟨none, takeNext_spends (hs.sole (by simp [Live, htask])), nofun⟩
  · next item await htask =>
    have hsole : s.Sole id := hs.sole (by simp [Live, htask])
    refine ⟨some await.due, processStep_spends hcfg hsole (hshaped item await ⟨id, htask⟩) hworker,
      fun budget hbudget => ?_⟩
    cases hbudget
    exact ⟨item, await, ⟨id, htask⟩, rfl⟩

end RouteState

end WittyService
