import WittyService.AnswerSteps

/-! Whose answer a turn delivers. -/
namespace WittyService

open GuardedRuns

namespace GatewayState

variable {cfg : RouterConfig} {s s' : GatewayState} {id : Nat} {item : QueuedMessage}

/-- If the turn ends without a terminal text and is delivered, then the last message of its
session, unless it is blank, was stored by this turn. -/
def ReadsOwn (s : GatewayState) (turn : TurnContext) (outcome : TurnOutcome) : Prop :=
  outcome.aborted = false → s.route.stoppedTurnId ≠ some turn.turnId →
    s.route.turnDeliveryAllowed turn = true → outcome.finalText = none →
      ∀ message, s.lastAssistantMessage turn.sessionId = some message →
        message.turn = some turn.turnId

variable {outcome : TurnOutcome} {turn : TurnContext} {answer : Answer} {a : GatewayAction}

theorem finalAnswer_text {sessionId : String} : (s.finalAnswer outcome sessionId).map Prod.snd =
      outcome.finalText.or (s.lastAssistantText sessionId) := by
  unfold finalAnswer lastAssistantText
  cases outcome.finalText with
  | some text => rfl
  | none =>
    rw [Option.map_map]
    rfl

theorem finishTurn_finishes (hsole : s.route.Sole id)
    (howns : turn.turnId = item.turnId) {t : RouteState}
    (h : s.route.finishTurn cfg id item turn outcome (s.lastAssistantText turn.sessionId) = t) :
    RouteState.Finishes cfg s.route item turn.nonFinalSent outcome
      (s.conclusion turn outcome) t := by
  have hleave : (s.route.leave turn).Sole id := hsole
  have htrace : (s.route.leave turn).trace = s.route.trace := rfl
  have hcleared : (s.route.leave turn).clearPlaceholder.Sole id := hsole
  cases RouteState.finishTurn_case h with
  | aborted hends =>
    have hconclusion : s.conclusion turn outcome = .aborted := by
      obtain haborted | hstopped := hends
      · simp [conclusion, haborted]
      · simp [conclusion, hstopped]
    rw [hconclusion]
    exact RouteState.endMessage_finishes hcleared rfl nofun
  | gated hclosed =>
    refine RouteState.endMessage_finishes hcleared rfl fun hfailure => ?_
    simp only [conclusion, hclosed, Bool.false_eq_true, if_false] at hfailure
    split at hfailure
    · cases hfailure
    · cases hfailure
  | fails hgo hopen hnone =>
    have hanswer : s.finalAnswer outcome turn.sessionId = none := by
      rw [← finalAnswer_text] at hnone
      exact Option.map_eq_none_iff.mp hnone
    have hconclusion : s.conclusion turn outcome = .failure := by
      simp [conclusion, hgo.1, hgo.2, hopen, hanswer]
    rw [hconclusion]
    exact RouteState.fails_finishes hleave htrace howns
  | answers hgo hopen text htext =>
    rw [← finalAnswer_text] at htext
    obtain ⟨⟨source, text'⟩, hanswer, rfl⟩ := Option.map_eq_some_iff.mp htext
    have hconclusion : s.conclusion turn outcome = .answer source text' := by
      simp [conclusion, hgo.1, hgo.2, hopen, hanswer]
    rw [hconclusion]
    exact RouteState.answers_finishes hleave htrace howns

/-- Every answer that is delivered is the turn's own, and a turn that failed gets its error
text. -/
structure OwnAnswers (cfg : RouterConfig) (s : GatewayState) : Prop where
  own : ∀ turnId source text, (turnId, .answer source text) ∈ s.concluded →
    source.OwnedBy turnId ∧ (turnId, text) ∈ s.produced
  sent : ∀ turnId segment edit, .sent (some turnId) (.answer segment) edit ∈ s.route.trace →
    ∃ source text reserved, (turnId, .answer source text) ∈ s.concluded ∧
      segment ∈ cfg.plan text reserved
  failed : ∀ turnId, (turnId, .failure) ∈ s.concluded → ∃ code reserved, ∀ first,
    (cfg.plan (cfg.renderError code) reserved).head? = some first →
      ∃ edit, .sent (some turnId) (.failure first) edit ∈ s.route.trace

def judged? (s : GatewayState) (id : Nat) (answer : Answer) :
    Option (QueuedMessage × TurnContext × TurnOutcome) :=
  match s.route.tasks id, answer with
  | some (.processing item (.joinPump turn (.outcome outcome))), .pumpDone _ =>
    some (item, turn, outcome)
  | some (.processing item (.placeholder turn)), .placeholderSent _ _ _ =>
    if s.route.agentId = none then some (item, turn, unboundOutcome) else none
  | _, _ => none

def ReadsOwnMessage (s : GatewayState) : GatewayAction → Prop
  | .route (.worker id answer) => ∀ item turn outcome,
      s.judged? id answer = some (item, turn, outcome) → s.ReadsOwn turn outcome
  | _ => True

structure Recorded (cfg : RouterConfig) (s : GatewayState) : Prop where
  messages : ∀ message ∈ s.messages, ∀ turnId, message.turn = some turnId →
    (turnId, message.content) ∈ s.produced
  final : ∀ item await text, s.route.Serving item await → await.finalText? = some text →
    (item.turnId, text) ∈ s.produced
  rest : ∀ item await rest, s.route.Serving item await → await.answerRest? = some rest →
    ∃ source text reserved, (item.turnId, .answer source text) ∈ s.concluded ∧
      rest ⊆ cfg.plan text reserved

/-- A step of a worker: the message goes on, or its turn is judged. -/
inductive WorkerCase (cfg : RouterConfig) (s : GatewayState) (id : Nat) (answer : Answer)
    (s' : GatewayState) : Prop where
  | goesOn (hjudged : s.judged? id answer = none) (hconcluded : s'.concluded = s.concluded)
    (hmessages : s'.messages = s.messages) (hproduced : s.produced ⊆ s'.produced)
    (item : QueuedMessage) (await : ProcessAwait) (answer' : Answer)
    (hon : s.route.AnswersOn item await answer' s'.route)
    (hserving : s.route.Serving item await ∨ await = .notBound)
    (hheard : ∀ text : String, answer' = .signal (.terminal text) →
      (item.turnId, text) ∈ s'.produced)
  | judges (item : QueuedMessage) (turn : TurnContext) (outcome : TurnOutcome)
    (hjudged : s.judged? id answer = some (item, turn, outcome))
    (howns : turn.turnId = item.turnId)
    (hconcluded : s'.concluded = s.concluded ++ [(item.turnId, s.conclusion turn outcome)])
    (hmessages : s'.messages = s.messages) (hproduced : s'.produced = s.produced)
    (hserving : ∃ await, s.route.Serving item await ∧
      ∀ text, outcome.finalText = some text → await.finalText? = some text)
    (reserved : Nat)
    (hfinishes : RouteState.Finishes cfg s.route item reserved outcome
      (s.conclusion turn outcome) s'.route)

theorem WorkerCase.of_process (hs : s.route.Sound) {answer' : Answer}
    {await : ProcessAwait} (htask : s.route.tasks id = some (.processing item await))
    (hroute : s.route.workerStep cfg id answer' = some s'.route)
    (hjudges : ¬ s.route.Judges await answer') (hjudged : s.judged? id answer = none)
    (hconcluded : s'.concluded = s.concluded) (hmessages : s'.messages = s.messages)
    (hproduced : s.produced ⊆ s'.produced)
    (hheard : ∀ text : String, answer' = .signal (.terminal text) →
      (item.turnId, text) ∈ s'.produced) : s.WorkerCase cfg id answer s' := by
  have hserving : s.route.Serving item await := ⟨id, htask⟩
  have hsole : s.route.Sole id := hs.consistent.sole (by simp [RouteState.Live, htask])
  have howns : await.Owns item.turnId := hs.tracked.owns item await hserving
  simp only [RouteState.workerStep, htask] at hroute
  exact .goesOn hjudged hconcluded hmessages hproduced item await answer'
    (RouteState.processStep_answersOn hsole howns hjudges hroute) (.inl hserving) hheard

section

variable (hs : s.route.Sound) {turn : TurnContext}
include hs

variable {lastText : Option String}

theorem placeholder_case {delivered : Bool} {ref : Option String}
    (htask : s.route.tasks id = some (.processing item (.placeholder turn)))
    (h : s.workerStep cfg id (.placeholderSent delivered ref lastText) = some s') :
    s.WorkerCase cfg id (.placeholderSent delivered ref lastText) s' := by
  have hserving : s.route.Serving item (.placeholder turn) := ⟨id, htask⟩
  have hsole : s.route.Sole id := hs.consistent.sole (by simp [RouteState.Live, htask])
  have howns : turn.turnId = item.turnId := hs.tracked.owns item _ hserving
  simp only [workerStep, htask] at h
  obtain ⟨route, hroute, heq⟩ := Option.map_eq_some_iff.mp h
  cases hagent : s.route.agentId with
  | some agentId =>
    rw [hagent] at heq
    cases heq
    have hjudged : s.judged? id (.placeholderSent delivered ref lastText) = none := by
      simp [judged?, htask, hagent]
    have hjudges : ¬ s.route.Judges (.placeholder turn)
        (.placeholderSent delivered ref (s.lastAssistantText turn.sessionId)) := by
      simp [RouteState.Judges, hagent]
    exact .of_process hs htask hroute hjudges hjudged rfl rfl (List.Subset.refl _) (by rintro _ ⟨⟩)
  | none =>
    rw [hagent] at heq
    cases heq
    have hjudged : s.judged? id (.placeholderSent delivered ref lastText) =
        some (item, turn, unboundOutcome) := by
      simp [judged?, htask, hagent]
    simp only [RouteState.workerStep, htask, RouteState.processStep, RouteState.startTurn,
      hagent, Option.some.injEq] at hroute
    -- what the turn is judged in: the placeholder is noted and counted, the turn published
    let published : GatewayState := { s with route := { s.route with
      placeholderRef := if delivered then ref.filter (· ≠ "") else none
      activePlaceholder := (if delivered then ref.filter (· ≠ "") else none).or
        s.route.activePlaceholder
      current := some { turn with nonFinalSent := turn.nonFinalSent + 1 }
      agentId := none } }
    have hpublished : published.route.Sole id := hsole
    have hturn : ({ turn with nonFinalSent := turn.nonFinalSent + 1 } : TurnContext).turnId =
        item.turnId := howns
    have hfinishes : RouteState.Finishes cfg published.route item (turn.nonFinalSent + 1)
        unboundOutcome (published.conclusion
          { turn with nonFinalSent := turn.nonFinalSent + 1 } unboundOutcome) route :=
      finishTurn_finishes hpublished hturn hroute
    exact .judges item turn unboundOutcome hjudged howns rfl rfl rfl
      ⟨_, hserving, (by rintro _ ⟨⟩)⟩ (turn.nonFinalSent + 1)
      ⟨hfinishes.trace, hfinishes.final, hfinishes.rest⟩

theorem signal_case {outcome : TurnOutcome} {signal : TurnSignal}
    (htask : s.route.tasks id = some (.processing item (.turnEvent turn outcome)))
    (h : s.workerStep cfg id (.signal signal) = some s') :
    s.WorkerCase cfg id (.signal signal) s' := by
  have hjudged : s.judged? id (.signal signal) = none := by
    simp [judged?, htask]
  simp only [workerStep, htask] at h
  split at h
  · next hstall =>
    obtain ⟨route, hroute, rfl⟩ := Option.map_eq_some_iff.mp h
    refine .of_process hs htask hroute not_false hjudged rfl rfl (List.Subset.refl _)
      fun text htext => ?_
    rw [hstall] at htext
    cases htext
  · split at h
    · cases h
    · next next' rest hevents =>
      split at h
      · obtain ⟨route, hroute, rfl⟩ := Option.map_eq_some_iff.mp h
        refine .of_process hs htask hroute not_false hjudged rfl rfl
          (List.subset_append_left _ _) fun text htext => ?_
        cases htext
        exact List.mem_append_right _ List.mem_cons_self
      · cases h

theorem joined_case {exit : TurnExit}
    (htask : s.route.tasks id = some (.processing item (.joinPump turn exit)))
    (h : s.workerStep cfg id (.pumpDone lastText) = some s') :
    s.WorkerCase cfg id (.pumpDone lastText) s' := by
  simp only [workerStep, htask] at h
  split at h
  · obtain ⟨route, hroute, rfl⟩ := Option.map_eq_some_iff.mp h
    cases exit with
    | outcome outcome =>
      have hserving : s.route.Serving item (.joinPump turn (.outcome outcome)) := ⟨id, htask⟩
      have hsole : s.route.Sole id := hs.consistent.sole (by simp [RouteState.Live, htask])
      have howns : turn.turnId = item.turnId := hs.tracked.owns item _ hserving
      have hjudged : s.judged? id (.pumpDone lastText) = some (item, turn, outcome) := by
        simp [judged?, htask]
      simp only [RouteState.workerStep, htask, RouteState.processStep, RouteState.pumpJoined,
        Option.some.injEq] at hroute
      exact .judges item turn outcome hjudged howns rfl rfl rfl
        ⟨_, hserving, fun text htext => htext⟩ turn.nonFinalSent
        (finishTurn_finishes hsole howns hroute)
    | raised | cancelled =>
      have hjudged : s.judged? id (.pumpDone lastText) = none := by
        simp [judged?, htask]
      exact .of_process hs htask hroute not_false hjudged (List.append_nil _) rfl
        (List.Subset.refl _) (by rintro _ ⟨⟩)
  · cases h

end

theorem workerStep_case (hs : s.route.Sound)
    (h : s.workerStep cfg id answer = some s') : s.WorkerCase cfg id answer s' := by
  have hstep := h
  unfold workerStep at h
  split at h
  · next htask => exact placeholder_case hs htask hstep
  · next htask => exact signal_case hs htask hstep
  · next htask => exact joined_case hs htask hstep
  · -- the other steps are those of the router alone
    next answer _ _ hplaceholder hsignal hpump =>
    obtain ⟨route, hroute, rfl⟩ := Option.map_eq_some_iff.mp h
    have hjudged : s.judged? id answer = none := by
      unfold judged?
      split
      · next htask => exact absurd rfl (hpump _ _ _ _ htask)
      · next htask => exact absurd rfl (hplaceholder _ _ _ _ _ htask)
      · rfl
    cases htask : s.route.tasks id with
    | none => simp [RouteState.workerStep, htask] at hroute
    | some task =>
      cases task with
      | created =>
        have hsole : s.route.Sole id := hs.consistent.sole (by simp [RouteState.Live, htask])
        simp only [RouteState.workerStep, htask, Option.some.injEq] at hroute
        have hon := RouteState.takeNext_answersOn hsole
        rw [hroute] at hon
        exact .goesOn hjudged rfl rfl (List.Subset.refl _) _ _ _ hon (.inr rfl) (by rintro _ ⟨⟩)
      | processing item await =>
        refine .of_process hs htask hroute (fun hjudges => ?_) hjudged rfl rfl
          (List.Subset.refl _) fun text htext => ?_
        · unfold RouteState.Judges at hjudges
          split at hjudges
          · exact hplaceholder _ _ _ _ _ htask rfl
          · exact hpump _ _ _ _ htask rfl
          · exact hjudges
        · rw [htext] at hroute
          cases await <;> simp [RouteState.workerStep, htask, RouteState.processStep] at hroute
          exact (hsignal _ _ _ _ htask htext).elim

theorem conclusion_answer {source : AnswerSource}
    {text : String} : s.conclusion turn outcome = .answer source text ↔
      outcome.aborted = false ∧ s.route.stoppedTurnId ≠ some turn.turnId ∧
        s.route.turnDeliveryAllowed turn = true ∧
          s.finalAnswer outcome turn.sessionId = some (source, text) := by
  unfold conclusion
  split
  · next hends =>
    refine iff_of_false nofun fun hanswer => ?_
    simp [hanswer.1, hanswer.2.1] at hends
  · next hgo =>
    simp only [Bool.or_eq_true, beq_iff_eq, not_or, Bool.not_eq_true] at hgo
    split
    · next hopen =>
      split
      · next source' text' hanswer => simp [hgo, hopen, hanswer]
      · next hanswer => simp [hanswer]
    · next hclosed => simp [hclosed]

theorem WorkerCase.recorded (h : s.WorkerCase cfg id answer s')
    (hs : s.Recorded cfg) : s'.Recorded cfg := by
  cases h with
  | goesOn hjudged hconcluded hmessages hproduced item await answer' hon hserving hheard =>
    refine ⟨fun message hmem turnId howner => ?_, fun item' await' text hserving' hfinal => ?_,
      fun item' await' rest hserving' hrest => ?_⟩
    · rw [hmessages] at hmem
      exact hproduced (hs.messages message hmem turnId howner)
    · obtain ⟨rfl, hbefore | hterminal⟩ := hon.final item' await' text hserving' hfinal
      · obtain hserving | rfl := hserving
        · exact hproduced (hs.final item' await text hserving hbefore)
        · cases hbefore
      · exact hheard text hterminal
    · obtain ⟨rfl, rest', hbefore, hsubset⟩ := hon.rest item' await' rest hserving' hrest
      obtain hserving | rfl := hserving
      · obtain ⟨source, text, reserved, hmem, hplan⟩ := hs.rest item' await rest' hserving hbefore
        rw [hconcluded]
        exact ⟨source, text, reserved, hmem,
          List.Subset.trans hsubset hplan⟩
      · cases hbefore
  | judges item turn outcome hjudged howns hconcluded hmessages hproduced hserving reserved
      hfinishes =>
    refine ⟨fun message hmem turnId howner => ?_, fun item' await' text hserving' hfinal => ?_,
      fun item' await' rest hserving' hrest => ?_⟩
    · rw [hmessages] at hmem
      rw [hproduced]
      exact hs.messages message hmem turnId howner
    · rw [hfinishes.final item' await' hserving'] at hfinal
      cases hfinal
    · obtain ⟨rfl, source, text, hanswer, hplan⟩ := hfinishes.rest item' await' rest hserving' hrest
      rw [hconcluded, hanswer]
      exact ⟨source, text, reserved, List.mem_append_right _ List.mem_cons_self, hplan⟩

theorem conclusion_owned_iff (hs : s.Recorded cfg)
    (howns : turn.turnId = item.turnId) (hserving : ∃ await, s.route.Serving item await ∧
      ∀ text, outcome.finalText = some text → await.finalText? = some text) :
    (∀ source text, s.conclusion turn outcome = .answer source text →
      source.OwnedBy item.turnId ∧ (item.turnId, text) ∈ s.produced) ↔ s.ReadsOwn turn outcome := by
  constructor
  · intro hown hgo hrunning hopen hnone message hmessage
    have hanswer : s.conclusion turn outcome = .answer (.stored message.turn) message.content := by
      refine conclusion_answer.mpr ⟨hgo, hrunning, hopen, ?_⟩
      simp [finalAnswer, hnone, hmessage]
    obtain h | h := (hown _ _ hanswer).1
    · cases h
    · rw [howns]
      exact AnswerSource.stored.inj h
  · intro hreads source text hanswer
    obtain ⟨hgo, hrunning, hopen, hfinal⟩ := conclusion_answer.mp hanswer
    unfold finalAnswer at hfinal
    split at hfinal
    · next text' htext =>
      cases hfinal
      obtain ⟨await, hserving, hheard⟩ := hserving
      exact ⟨.inl rfl, hs.final item await text hserving (hheard text htext)⟩
    · next hnone =>
      obtain ⟨message, hmessage, heq⟩ := Option.map_eq_some_iff.mp hfinal
      cases heq
      have howner : message.turn = some turn.turnId :=
        hreads hgo hrunning hopen hnone message hmessage
      have hstored : message ∈ s.messages := by
        have hlast := (Option.filter_eq_some_iff.mp hmessage).1
        exact List.mem_reverse.mp (List.mem_of_find?_eq_some hlast)
      rw [howns] at howner
      exact ⟨.inr (congrArg _ howner), hs.messages message hstored _ howner⟩

theorem OwnAnswers.grown (hown : s.OwnAnswers cfg) {events : List RouteEvent}
    {added : List (Nat × Conclusion)} (htrace : s'.route.trace = s.route.trace ++ events)
    (hconcluded : s'.concluded = s.concluded ++ added) (hproduced : s.produced ⊆ s'.produced)
    (hadded : ∀ turnId source text, (turnId, .answer source text) ∈ added →
      source.OwnedBy turnId ∧ (turnId, text) ∈ s'.produced)
    (hsent : ∀ turnId segment edit, .sent (some turnId) (.answer segment) edit ∈ events →
      ∃ source text reserved, (turnId, .answer source text) ∈ s'.concluded ∧
        segment ∈ cfg.plan text reserved)
    (hfailed : ∀ turnId, (turnId, .failure) ∈ added → ∃ code reserved, ∀ first,
      (cfg.plan (cfg.renderError code) reserved).head? = some first →
        ∃ edit, .sent (some turnId) (.failure first) edit ∈ events) : s'.OwnAnswers cfg := by
  refine ⟨fun turnId source text hmem => ?_, fun turnId segment edit hmem => ?_,
    fun turnId hmem => ?_⟩
  · rw [hconcluded] at hmem
    obtain hold | hnew := List.mem_append.mp hmem
    · exact (hown.own turnId source text hold).imp_right (hproduced ·)
    · exact hadded turnId source text hnew
  · rw [htrace] at hmem
    obtain hold | hnew := List.mem_append.mp hmem
    · obtain ⟨source, text, reserved, hmem', hplan⟩ := hown.sent turnId segment edit hold
      rw [hconcluded]
      exact ⟨source, text, reserved, List.mem_append_left _ hmem', hplan⟩
    · exact hsent turnId segment edit hnew
  · rw [hconcluded] at hmem
    rw [htrace]
    obtain hold | hnew := List.mem_append.mp hmem
    · obtain ⟨code, reserved, hfirst⟩ := hown.failed turnId hold
      exact ⟨code, reserved, fun first hhead =>
        (hfirst first hhead).imp fun edit => List.mem_append_left _⟩
    · obtain ⟨code, reserved, hfirst⟩ := hfailed turnId hnew
      exact ⟨code, reserved, fun first hhead =>
        (hfirst first hhead).imp fun edit => List.mem_append_right _⟩

theorem WorkerCase.own_iff (h : s.WorkerCase cfg id answer s')
    (hs : s.Recorded cfg) (hown : s.OwnAnswers cfg) :
    s'.OwnAnswers cfg ↔ s.ReadsOwnMessage (.route (.worker id answer)) := by
  cases h with
  | goesOn hjudged hconcluded hmessages hproduced item await answer' hon hserving hheard =>
    obtain ⟨events, htrace, hsaid⟩ := hon.said
    refine iff_of_true (hown.grown htrace (hconcluded.trans (List.append_nil _).symm) hproduced
      nofun (fun turnId segment edit hmem => ?_) nofun) fun item' turn outcome hsome => ?_
    · obtain ⟨rfl, rest, hrest, hsegment⟩ := hsaid turnId segment edit hmem
      rw [hconcluded]
      obtain hserving | rfl := hserving
      · obtain ⟨source, text, reserved, hmem', hplan⟩ := hs.rest item await rest hserving hrest
        exact ⟨source, text, reserved, hmem', hplan hsegment⟩
      · cases hrest
    · rw [hjudged] at hsome
      cases hsome
  | judges item turn outcome hjudged howns hconcluded hmessages hproduced hserving reserved
      hfinishes =>
    have hguard : s.ReadsOwnMessage (.route (.worker id answer)) ↔ s.ReadsOwn turn outcome := by
      constructor
      · exact fun h => h item turn outcome hjudged
      · intro hreads item' turn' outcome' hsome
        rw [hjudged] at hsome
        cases hsome
        exact hreads
    have hnew : (item.turnId, s.conclusion turn outcome) ∈ s'.concluded := by
      rw [hconcluded]
      exact List.mem_append_right _ List.mem_cons_self
    rw [hguard, ← conclusion_owned_iff hs howns hserving]
    obtain ⟨events, htrace, hanswers, hfailure⟩ := hfinishes.trace
    constructor
    · intro hown' source text hanswer
      rw [← hproduced]
      rw [hanswer] at hnew
      exact hown'.own item.turnId source text hnew
    · intro howned
      have hkept : s.produced ⊆ s'.produced := hproduced ▸ List.Subset.refl _
      refine hown.grown htrace hconcluded hkept (fun turnId source text hmem => ?_)
        (fun turnId segment edit hmem => ?_) fun turnId hmem => ?_
      · obtain ⟨rfl, hanswer⟩ := Prod.mk.inj (List.mem_singleton.mp hmem)
        rw [hproduced]
        exact howned source text hanswer.symm
      · obtain ⟨rfl, source, text, hanswer, hplan⟩ := hanswers turnId segment edit hmem
        rw [hanswer] at hnew
        exact ⟨source, text, reserved, hnew, hplan⟩
      · obtain ⟨rfl, hfailed⟩ := Prod.mk.inj (List.mem_singleton.mp hmem)
        exact ⟨outcome.renderedCode, reserved, hfailure hfailed.symm⟩

theorem Beside.recorded (h : s.Beside s') (hs : s.Recorded cfg) : s'.Recorded cfg := by
  refine ⟨fun message hmem turnId howner => ?_, fun item await text hserving hfinal => ?_,
    fun item await rest hserving hrest => ?_⟩
  · obtain hold | hnew := h.messages message hmem
    · exact h.produced (hs.messages message hold turnId howner)
    · exact hnew turnId howner
  · exact h.produced (hs.final item await text (h.aside.serving item await hserving) hfinal)
  · rw [h.concluded]
    exact hs.rest item await rest (h.aside.serving item await hserving) hrest

theorem Beside.own (h : s.Beside s') (hown : s.OwnAnswers cfg) : s'.OwnAnswers cfg := by
  obtain ⟨events, htrace, hopen⟩ := h.aside.trace
  refine hown.grown htrace (h.concluded.trans (List.append_nil _).symm) h.produced nofun
    (fun turnId segment edit hmem => ?_) nofun
  exact absurd ⟨rfl, trivial⟩ (hopen _ hmem turnId)

theorem step_recorded (hs : s.route.Sound) (hrecorded : s.Recorded cfg)
    (h : gatewayStep cfg s a = some s') : s'.Recorded cfg := by
  obtain ⟨id, answer, rfl, hworker⟩ | hbeside := worker_or_beside h
  · exact (workerStep_case hs hworker).recorded hrecorded
  · exact hbeside.recorded hrecorded

theorem step_own_iff (hs : s.route.Sound) (hrecorded : s.Recorded cfg)
    (hown : s.OwnAnswers cfg) (h : gatewayStep cfg s a = some s') :
    s'.OwnAnswers cfg ↔ s.ReadsOwnMessage a := by
  by_cases hworker : ∃ id answer, a = .route (.worker id answer)
  · obtain ⟨id, answer, rfl⟩ := hworker
    exact (workerStep_case hs h).own_iff hrecorded hown
  · have hbeside : ∀ id answer, a ≠ .route (.worker id answer) :=
      fun id answer heq => hworker ⟨id, answer, heq⟩
    refine iff_of_true ((step_beside hbeside h).own hown) ?_
    unfold ReadsOwnMessage
    split
    · exact absurd rfl (hbeside _ _)
    · trivial

theorem fresh_recorded (agentId activeSession : Option String)
    (agents : String → Option AgentStatus) (messages : List AssistantMessage) :
    (fresh agentId activeSession agents messages).Recorded cfg := by
  have hidle {item : QueuedMessage} {await : ProcessAwait} :
      ¬ (fresh agentId activeSession agents messages).route.Serving item await := by
    rintro ⟨k, hk⟩
    cases hk
  refine ⟨fun message hmem turnId howner => ?_, fun item await text hserving =>
    absurd hserving hidle, fun item await rest hserving => absurd hserving hidle⟩
  obtain ⟨message', -, rfl⟩ := List.mem_map.mp hmem
  cases howner

/-- Over every run of a route and its turns: every answer that is delivered is the terminal text
of its turn or was stored by it, and a turn without either gets its error text, if and only if
no turn that ends without a terminal text finds the message of another one as the last of its
session. -/
theorem answers_own_iff (cfg : RouterConfig) (agentId activeSession : Option String)
    (agents : String → Option AgentStatus) (messages : List AssistantMessage)
    (as : List GatewayAction) :
    Always (gatewayStep cfg) (OwnAnswers cfg) (fresh agentId activeSession agents messages) as ↔
      Guarded (gatewayStep cfg) ReadsOwnMessage (fresh agentId activeSession agents messages)
        as := by
  have hkept : ∀ s a s', s.route.Sound ∧ s.Recorded cfg → s.OwnAnswers cfg →
      s'.OwnAnswers cfg → gatewayStep cfg s a = some s' → s'.route.Sound ∧ s'.Recorded cfg :=
    fun s a s' hs _ _ hstep =>
      ⟨step_routeSound hs.1 hstep, step_recorded hs.1 hs.2 hstep⟩
  exact always_iff_guarded hkept
    (fun s a s' hs hown hstep => step_own_iff hs.1 hs.2 hown hstep)
    ⟨RouteState.fresh_sound agentId activeSession,
      fresh_recorded agentId activeSession agents messages⟩ ⟨nofun, nofun, nofun⟩

def unrunnableAgent : List GatewayAction :=
  [.route (.inbound (.plain "question")), .route (.worker 0 .done),
    .route (.worker 0 (.session "s")), .route (.worker 0 (.placeholderSent true none none)),
    .pump .started,
    .route (.worker 0 (.signal (.error CHANNEL_AGENT_NOT_RUNNABLE
      "Agent is not runnable for channel messages."))),
    .route (.worker 0 (.pumpDone none))]

theorem earlier_answer_sent :
    ¬ ∀ cfg agentId activeSession agents messages as,
      Always (gatewayStep cfg) (OwnAnswers cfg)
        (fresh agentId activeSession agents messages) as := by
  intro h
  have hend : ∃ s, run (gatewayStep RouteState.plainRouter)
      (fresh (some "agent") (some "s") (fun _ => some .error)
        [⟨"s", none, "earlier answer", .completed⟩]) unrunnableAgent = some s ∧
      (0, .answer (.stored none) "earlier answer") ∈ s.concluded ∧
        .sent (some 0) (.answer "earlier answer") none ∈ s.route.trace :=
    ⟨_, rfl, by decide, by decide⟩
  obtain ⟨s, hrun, hanswer, -⟩ := hend
  have hown := always_last (h RouteState.plainRouter (some "agent") (some "s")
    (fun _ => some .error) [⟨"s", none, "earlier answer", .completed⟩] unrunnableAgent) hrun
  obtain ⟨howner, -⟩ := hown.own 0 _ _ hanswer
  exact absurd howner (by simp [AnswerSource.OwnedBy])

end GatewayState

end WittyService
