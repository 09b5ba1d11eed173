import WittyService.GatewaySteps

/-! Which texts a step of the worker delivers as answers. -/
namespace WittyService

open GuardedRuns

def ProcessAwait.answerRest? : ProcessAwait → Option (List String)
  | delivery _ true _ rest => some rest
  | _ => none

def AnswerSource.OwnedBy (turnId : Nat) (source : AnswerSource) : Prop :=
  source = .terminal ∨ source = .stored (some turnId)

namespace RouteState

variable {cfg : RouterConfig} {s s' t : RouteState} {id : Nat} {item : QueuedMessage}
  {await : ProcessAwait} {answer : Answer}

def Judges (s : RouteState) : ProcessAwait → Answer → Prop
  | .placeholder _, .placeholderSent _ _ _ => s.agentId = none
  | .joinPump _ (.outcome _), .pumpDone _ => True
  | _, _ => False

/-- From `s` to `t` an answer is only delivered on, and a final text is that of the step's own
terminal event or was there before. -/
structure AnswersOn (s : RouteState) (item : QueuedMessage) (await : ProcessAwait)
    (answer : Answer) (t : RouteState) : Prop where
  said : ∃ events, t.trace = s.trace ++ events ∧ ∀ turnId segment edit,
    .sent (some turnId) (.answer segment) edit ∈ events →
      turnId = item.turnId ∧ ∃ rest, await.answerRest? = some rest ∧ segment ∈ rest
  final : ∀ item' await' text, t.Serving item' await' → await'.finalText? = some text →
    item' = item ∧ (await.finalText? = some text ∨ answer = .signal (.terminal text))
  rest : ∀ item' await' rest', t.Serving item' await' → await'.answerRest? = some rest' →
    item' = item ∧ ∃ rest, await.answerRest? = some rest ∧ rest' ⊆ rest

theorem takeNext_silent (hsole : t.Sole id) {await : ProcessAwait}
    (h : (t.takeNext id).Serving item await) :
    await.finalText? = none ∧ await.answerRest? = none := by
  unfold takeNext at h
  split at h
  · exact absurd h (not_serving_exit hsole)
  · next front rest hqueue =>
    unfold startProcess at h
    split at h
    · obtain ⟨-, rfl⟩ := serving_await hsole h
      exact ⟨rfl, rfl⟩
    · obtain ⟨-, rfl⟩ := serving_await hsole h
      exact ⟨rfl, rfl⟩

theorem takingEvents_answers {turnId : Nat} {segment : String} {edit : Option String} :
    .sent (some turnId) (.answer segment) edit ∉ s.takingEvents := by
  intro hmem
  obtain ⟨turnId', h | h⟩ := mem_takingEvents hmem
  · cases h
  · cases h

section

variable (hsole : t.Sole id)
include hsole

theorem endMessage_answersOn (htrace : t.trace = s.trace) :
    s.AnswersOn item await answer (t.endMessage id item) := by
  have hended : (t.emit (.ended item.turnId)).Sole id := hsole
  refine ⟨⟨.ended item.turnId :: t.takingEvents, ?_, fun turnId segment edit hmem => ?_⟩,
    fun item' await' text hserving hfinal => ?_, fun item' await' rest hserving hrest => ?_⟩
  · rw [endMessage_trace, htrace]
  · obtain h | hmem := List.mem_cons.mp hmem
    · cases h
    · exact absurd hmem takingEvents_answers
  · rw [(takeNext_silent hended hserving).1] at hfinal
    cases hfinal
  · rw [(takeNext_silent hended hserving).2] at hrest
    cases hrest

theorem takeNext_answersOn :
    t.AnswersOn ⟨0, ""⟩ .notBound .done (t.takeNext id) := by
  refine ⟨⟨t.takingEvents, takeNext_trace, fun turnId segment edit hmem =>
    absurd hmem takingEvents_answers⟩, fun item' await' text hserving hfinal => ?_,
    fun item' await' rest hserving hrest => ?_⟩
  · rw [(takeNext_silent hsole hserving).1] at hfinal
    cases hfinal
  · rw [(takeNext_silent hsole hserving).2] at hrest
    cases hrest

theorem cancelMessage_answersOn (htrace : t.trace = s.trace) :
    s.AnswersOn item await answer (t.cancelMessage id item) := by
  refine ⟨⟨[.ended item.turnId], congrArg (· ++ _) htrace, fun turnId segment edit hmem => ?_⟩,
    fun item' await' text hserving => absurd hserving (not_serving_exit hsole),
    fun item' await' rest hserving => absurd hserving (not_serving_exit hsole)⟩
  cases List.mem_singleton.mp hmem

theorem await_answersOn {events : List RouteEvent} (htrace : t.trace = s.trace ++ events)
    (hsilent : ∀ turnId segment edit, .sent (some turnId) (.answer segment) edit ∉ events)
    (await' : ProcessAwait) (hrest : await'.answerRest? = none)
    (hfinal : ∀ text, await'.finalText? = some text →
      await.finalText? = some text ∨ answer = .signal (.terminal text)) :
    s.AnswersOn item await answer (t.await id item await') := by
  refine ⟨⟨events, htrace, fun turnId segment edit hmem =>
    absurd hmem (hsilent turnId segment edit)⟩, fun item' await'' text hserving hsome => ?_,
    fun item' await'' rest hserving hsome => ?_⟩
  · obtain ⟨rfl, rfl⟩ := serving_await hsole hserving
    exact ⟨rfl, hfinal text hsome⟩
  · obtain ⟨rfl, rfl⟩ := serving_await hsole hserving
    rw [hrest] at hsome
    cases hsome

theorem deliver_answersOn (htrace : t.trace = s.trace) {turn : TurnContext}
    (howns : turn.turnId = item.turnId) {final : Bool} {ref : Option String}
    {actions : List String} (hrest : final = true → await.answerRest? = some actions) :
    s.AnswersOn item await answer (t.deliver cfg id item turn final ref actions) := by
  cases actions with
  | nil => exact endMessage_answersOn hsole htrace
  | cons text rest =>
    refine ⟨⟨[.sent turn.turnId (if final then .answer text else .failure text)
      (if cfg.canEdit then ref else none)], ?_, fun turnId segment edit hmem => ?_⟩,
      fun item' await' text' hserving hsome => ?_, fun item' await' rest' hserving hsome => ?_⟩
    · exact congrArg (· ++ _) htrace
    · cases final with
      | false => cases List.mem_singleton.mp hmem
      | true =>
        cases List.mem_singleton.mp hmem
        exact ⟨howns, text :: rest, hrest rfl, List.mem_cons_self⟩
    · obtain ⟨-, rfl⟩ := serving_await hsole hserving
      cases hsome
    · obtain ⟨rfl, rfl⟩ := serving_await hsole hserving
      cases final with
      | false => cases hsome
      | true =>
        cases hsome
        exact ⟨rfl, text :: rest, hrest rfl, List.subset_cons_self text rest⟩

end

theorem running_answerRest {turn : TurnContext} (h : await.running? = some turn) :
    await.answerRest? = none := by
  cases await <;> first | rfl | cases h

theorem processStep_answersOn (hsole : s.Sole id) (howns : await.Owns item.turnId)
    (hjudges : ¬ s.Judges await answer)
    (h : s.processStep cfg id item await answer = some s') :
    s.AnswersOn item await answer s' := by
  have hsilent {event : RouteEvent} (hevent : ∀ turnId segment edit,
      event ≠ .sent (some turnId) (.answer segment) edit) (turnId : Nat) (segment : String)
      (edit : Option String) : .sent (some turnId) (.answer segment) edit ∉ [event] :=
    fun hmem => hevent turnId segment edit (List.mem_singleton.mp hmem).symm
  cases processStep_case h with
  | ends hends => exact endMessage_answersOn hsole rfl
  | cancels hcancels => exact cancelMessage_answersOn hsole rfl
  | refuses bound code message =>
    have hsaid : (s.say item.turnId (.failure (cfg.renderError code)) none).Sole id := hsole
    exact await_answersOn hsaid rfl (hsilent nofun) .resolveError rfl nofun
  | resolves bound sessionId =>
    unfold sendPlaceholder
    extract_lets u
    have hu : u.Sole id ∧ u.trace = s.trace := by
      simp only [u]
      split
      · exact ⟨hsole, rfl⟩
      · exact ⟨hsole, rfl⟩
    have hsaid : (u.say item.turnId .placeholder none).Sole id := hu.1
    exact await_answersOn hsaid (congrArg (· ++ _) hu.2) (hsilent nofun) (.placeholder _) rfl nofun
  | starts turn delivered ref lastText =>
    unfold startTurn
    extract_lets turn' ref' u
    split
    · next hnone => exact absurd hnone hjudges
    · have husole : u.Sole id := hsole
      have htrace : u.trace = s.trace ++ [] := (List.append_nil _).symm
      exact await_answersOn husole htrace nofun (.turnEvent _ _) rfl nofun
  | runs turn await' hrunning hopen hrunning' hfinal =>
    exact await_answersOn hsole (List.append_nil _).symm nofun await'
      (running_answerRest hrunning') hfinal
  | defers turn outcome hfirst edit hedit =>
    have hsaid : (s.say turn.turnId .deferredNotice edit).Sole id := hsole
    exact await_answersOn hsaid rfl (hsilent nofun) (.deferredNotice _ _ _) rfl
      fun text hfinal => .inl hfinal
  | noticed turn outcome edited delivered ref =>
    exact await_answersOn hsole (List.append_nil _).symm nofun (.turnEvent _ _) rfl
      fun text hfinal => .inl hfinal
  | asks turn outcome requestId hfirst =>
    have hsaid : (s.say turn.turnId .interactionNotice none).Sole id := hsole
    exact await_answersOn hsaid rfl (hsilent nofun) (.interactionNotice _ _ _) rfl
      fun text hfinal => .inl hfinal
  | joins turn exit lastText =>
    have hleft : ({ s with current := none } : RouteState).Sole id := hsole
    cases exit with
    | outcome outcome => exact absurd trivial hjudges
    | raised => exact endMessage_answersOn hleft rfl
    | cancelled => exact cancelMessage_answersOn hleft rfl
  | delivers turn final ref rest delivered sentRef =>
    split
    · refine deliver_answersOn hsole rfl howns fun hfinal => ?_
      rw [hfinal]
      rfl
    · have hcleared : s.clearPlaceholder.Sole id := hsole
      exact endMessage_answersOn hcleared rfl

/-- From `s` to `t` the turn of the message is finished: with an answer its segments are begun,
with a failure an error text. -/
structure Finishes (cfg : RouterConfig) (s : RouteState) (item : QueuedMessage)
    (reserved : Nat) (outcome : TurnOutcome) (conclusion : Conclusion) (t : RouteState) :
    Prop where
  trace : ∃ events, t.trace = s.trace ++ events ∧
    (∀ turnId segment edit, .sent (some turnId) (.answer segment) edit ∈ events →
      turnId = item.turnId ∧ ∃ source text, conclusion = .answer source text ∧
        segment ∈ cfg.plan text reserved) ∧
    (conclusion = .failure → ∀ first,
      (cfg.plan (cfg.renderError outcome.renderedCode) reserved).head? = some first →
        ∃ edit, .sent (some item.turnId) (.failure first) edit ∈ events)
  final : ∀ item' await', t.Serving item' await' → await'.finalText? = none
  rest : ∀ item' await' rest, t.Serving item' await' → await'.answerRest? = some rest →
    item' = item ∧ ∃ source text, conclusion = .answer source text ∧
      rest ⊆ cfg.plan text reserved

variable {reserved : Nat} {outcome : TurnOutcome} {conclusion : Conclusion}

theorem endMessage_finishes (hsole : t.Sole id) (htrace : t.trace = s.trace)
    (hfailure : conclusion = .failure →
      cfg.plan (cfg.renderError outcome.renderedCode) reserved = []) :
    Finishes cfg s item reserved outcome conclusion (t.endMessage id item) := by
  have hended : (t.emit (.ended item.turnId)).Sole id := hsole
  refine ⟨⟨.ended item.turnId :: t.takingEvents, ?_, fun turnId segment edit hmem => ?_,
    fun h first hfirst => ?_⟩, fun item' await' hserving => ?_,
    fun item' await' rest hserving hrest => ?_⟩
  · rw [endMessage_trace, htrace]
  · obtain h | hmem := List.mem_cons.mp hmem
    · cases h
    · exact absurd hmem takingEvents_answers
  · rw [hfailure h] at hfirst
    cases hfirst
  · exact (takeNext_silent hended hserving).1
  · rw [(takeNext_silent hended hserving).2] at hrest
    cases hrest

section

variable (hsole : t.Sole id) (htrace : t.trace = s.trace) {turn : TurnContext}
  (howns : turn.turnId = item.turnId)
include hsole htrace howns

variable {ref : Option String}

theorem answers_finishes {source : AnswerSource} {text : String} :
    Finishes cfg s item reserved outcome (.answer source text)
      (t.deliver cfg id item turn true ref (cfg.plan text reserved)) := by
  generalize hplan : cfg.plan text reserved = actions
  cases actions with
  | nil => exact endMessage_finishes hsole htrace nofun
  | cons segment rest =>
    refine ⟨⟨[.sent turn.turnId (.answer segment) (if cfg.canEdit then ref else none)], ?_,
      fun turnId segment' edit hmem => ?_, nofun⟩, fun item' await' hserving => ?_,
      fun item' await' rest' hserving hrest => ?_⟩
    · exact congrArg (· ++ _) htrace
    · cases List.mem_singleton.mp hmem
      refine ⟨howns, source, text, rfl, ?_⟩
      rw [hplan]
      exact List.mem_cons_self
    · obtain ⟨-, rfl⟩ := serving_await hsole hserving
      rfl
    · obtain ⟨rfl, rfl⟩ := serving_await hsole hserving
      cases hrest
      refine ⟨rfl, source, text, rfl, ?_⟩
      rw [hplan]
      exact List.subset_cons_self segment rest

theorem fails_finishes :
    Finishes cfg s item reserved outcome .failure (t.deliver cfg id item turn false ref
      (cfg.plan (cfg.renderError outcome.renderedCode) reserved)) := by
  generalize hplan : cfg.plan (cfg.renderError outcome.renderedCode) reserved = actions
  cases actions with
  | nil => exact endMessage_finishes hsole htrace fun _ => hplan
  | cons segment rest =>
    refine ⟨⟨[.sent turn.turnId (.failure segment) (if cfg.canEdit then ref else none)], ?_,
      fun turnId segment' edit hmem => ?_, fun _ first hfirst => ?_⟩,
      fun item' await' hserving => ?_, fun item' await' rest' hserving hrest => ?_⟩
    · exact congrArg (· ++ _) htrace
    · cases List.mem_singleton.mp hmem
    · rw [hplan] at hfirst
      cases hfirst
      rw [howns]
      exact ⟨_, List.mem_cons_self⟩
    · obtain ⟨-, rfl⟩ := serving_await hsole hserving
      rfl
    · obtain ⟨-, rfl⟩ := serving_await hsole hserving
      cases hrest

end

end RouteState

end WittyService
