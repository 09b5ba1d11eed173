import WittyService.RouteSpeech

/-! The placeholder that a final answer edits, over any number of processes of the service. The
row of the route outlives a process, its memory does not. -/
namespace WittyService

open GuardedRuns ServiceQueues

def RouteEvent.answerEdit? : RouteEvent → Option (Nat × String)
  | sent (some turnId) (.answer _) (some ref) => some (turnId, ref)
  | _ => none

/-- The route in the process that runs, and the references of the placeholders that its turns
have sent, which are not kept by the router. -/
structure PlaceholderRoute where
  route : RouteState
  placeholders : List (Nat × String) := []

inductive PlaceholderAction where
  | route (action : RouteAction)
  | restart
  deriving DecidableEq, Repr

namespace RouteState

variable (cfg : RouterConfig) (s : RouteState)

def restarted : RouteState :=
  { fresh s.agentId s.activeSession with activePlaceholder := s.activePlaceholder }

def answerEdits : List (Nat × String) := s.trace.filterMap RouteEvent.answerEdit?

def sentRef (delivered : Bool) (ref : Option String) : Option String :=
  if delivered then ref.filter (· ≠ "") else none

def sentRef? : ProcessAwait → Answer → Option String
  | .placeholder _, .placeholderSent delivered ref _ => sentRef delivered ref
  | _, _ => none

def sentPlaceholder? : RouteAction → Option (Nat × String)
  | .worker id answer =>
    match s.tasks id with
    | some (.processing item await) => (sentRef? await answer).map fun ref => (item.turnId, ref)
    | _ => none
  | _ => none

/-- The text with which a turn that is consumed comes to `_deliver_final`. -/
def finalAnswer? (turn : TurnContext) (outcome : TurnOutcome) (lastText : Option String) :
    Option String :=
  if outcome.aborted || s.stoppedTurnId == some turn.turnId then none
  else (outcome.finalText.or lastText).filter fun _ => s.turnDeliveryAllowed turn

/-- Where a final answer is about to edit a message, the reference in memory is there, or there is
none in the row. -/
def OwnFound (turn : TurnContext) (outcome : TurnOutcome) (lastText memory : Option String) :
    Prop :=
  ∀ text, s.finalAnswer? turn outcome lastText = some text →
    cfg.plan text turn.nonFinalSent ≠ [] → cfg.canEdit = true →
      memory ≠ none ∨ s.activePlaceholder = none

def unboundOutcome : TurnOutcome :=
  { TurnOutcome.initial with failed := true, errorCode := some "CHANNEL_AGENT_NOT_BOUND" }

def OwnFoundAt : ProcessAwait → Answer → Prop
  | .joinPump turn (.outcome outcome), .pumpDone lastText =>
    s.OwnFound cfg turn outcome lastText s.placeholderRef
  | .placeholder turn, .placeholderSent delivered ref lastText =>
    s.agentId = none →
      s.OwnFound cfg { turn with nonFinalSent := turn.nonFinalSent + 1 } unboundOutcome lastText
        (sentRef delivered ref)
  | _, _ => True

end RouteState

namespace PlaceholderRoute

variable (cfg : RouterConfig) (s : PlaceholderRoute)

def step : PlaceholderAction → Option PlaceholderRoute
  | .restart => some { route := s.route.restarted }
  | .route action => (routeStep cfg s.route action).map fun route =>
    { route, placeholders := s.placeholders ++ (s.route.sentPlaceholder? action).toList }

/-- Every final answer that edits a message edits the placeholder of its turn. -/
def EditsOwn : Prop := ∀ edit ∈ s.route.answerEdits, edit ∈ s.placeholders

/-- A turn that comes to `_deliver_final` finds its own placeholder in memory, or no reference in
the row of the route. -/
def FindsOwn : PlaceholderAction → Prop
  | .route (.worker id answer) =>
    match s.route.tasks id with
    | some (.processing _ await) => s.route.OwnFoundAt cfg await answer
    | _ => True
  | _ => True

end PlaceholderRoute

namespace RouteState

variable {cfg : RouterConfig} {s s' t : RouteState} {id : Nat} {item : QueuedMessage}
  {turn : TurnContext}

variable {events : List RouteEvent} {turnId : Nat} {final : Bool} {ref lastText : Option String}
  {await : ProcessAwait} {answer : Answer} {a : RouteAction}

theorem answerEdits_append (htrace : t.trace = s.trace ++ events) :
    t.answerEdits = s.answerEdits ++ events.filterMap RouteEvent.answerEdit? := by
  rw [answerEdits, htrace, List.filterMap_append]
  rfl

theorem answerEdits_same (htrace : t.trace = s.trace ++ events)
    (hevents : ∀ event ∈ events, event.answerEdit? = none) : t.answerEdits = s.answerEdits := by
  rw [answerEdits_append htrace, List.filterMap_eq_nil_iff.mpr hevents, List.append_nil]

theorem takingEvents_edits : ∀ event ∈ s.takingEvents, event.answerEdit? = none := by
  intro event hmem
  obtain ⟨turnId, rfl | rfl⟩ := mem_takingEvents hmem
  · rfl
  · rfl

theorem takeNext_edits : (s.takeNext id).answerEdits = s.answerEdits :=
  answerEdits_same takeNext_trace takingEvents_edits

theorem endMessage_edits : (s.endMessage id item).answerEdits = s.answerEdits := by
  refine answerEdits_same endMessage_trace fun event hmem => ?_
  obtain rfl | hmem := List.mem_cons.mp hmem
  · rfl
  · exact takingEvents_edits event hmem

theorem say_edits {turnId : Option Nat} {text : OutboundText} {edit : Option String}
    (htext : (RouteEvent.sent turnId text edit).answerEdit? = none) :
    (s.say turnId text edit).answerEdits = s.answerEdits := by
  refine answerEdits_same rfl fun event hmem => ?_
  rw [List.mem_singleton.mp hmem]
  exact htext

theorem deliver_edits {text : String} {rest : List String} :
    (s.deliver cfg id item turn final ref (text :: rest)).answerEdits = s.answerEdits ++
      (if final && cfg.canEdit then ref else none).toList.map fun ref => (turn.turnId, ref) := by
  rw [answerEdits_append deliver_trace]
  cases final with
  | false | true => cases cfg.canEdit <;> cases ref <;> rfl

def Holds (cfg : RouterConfig) (placeholders : List (Nat × String)) (s : RouteState)
    (turnId : Nat) : ProcessAwait → Prop
  | .notBound | .resolveSession _ | .resolveError | .placeholder _ =>
    ∀ ref, (turnId, ref) ∉ placeholders
  | .turnEvent _ _ | .deferredNotice _ _ _ | .interactionNotice _ _ _ | .rejectInteraction _ _
  | .joinPump _ _ => ∀ ref, (turnId, ref) ∈ placeholders ↔ s.placeholderRef = some ref
  | .delivery _ final ref _ =>
    ∀ own, (if final && cfg.canEdit then ref else none) = some own → (turnId, own) ∈ placeholders

variable {placeholders : List (Nat × String)}

theorem holds_unresolved (hawait : await.version? = none)
    (hnone : ∀ ref, (turnId, ref) ∉ placeholders) : s.Holds cfg placeholders turnId await := by
  cases await with
  | notBound | resolveSession _ | resolveError => exact hnone
  | _ => cases hawait

def NoneWaits (s : RouteState) (placeholders : List (Nat × String)) : Prop :=
  ∀ item ∈ s.queue, ∀ ref, (item.turnId, ref) ∉ placeholders

theorem endMessage_holds (hsole : t.Sole id) (hwaits : t.NoneWaits placeholders)
    {item' : QueuedMessage}
    (hserving : (t.endMessage id item).Serving item' await) :
    (t.endMessage id item).Holds cfg placeholders item'.turnId await := by
  have hended : (t.emit (.ended item.turnId)).Sole id := hsole
  obtain ⟨hqueue, hversion⟩ := takeNext_serving hended hserving
  exact holds_unresolved hversion (hwaits item' hqueue)

theorem ownFound_none {outcome : TurnOutcome} {memory : Option String}
    (h : s.finalAnswer? turn outcome lastText = none) :
    s.OwnFound cfg turn outcome lastText memory := by
  intro text htext
  rw [h] at htext
  cases htext

def EditsAmong (s : RouteState) (placeholders : List (Nat × String)) : Prop :=
  ∀ edit ∈ s.answerEdits, edit ∈ placeholders

theorem deliver_edits_iff {actions : List String} (hedits : s.EditsAmong placeholders) :
    (s.deliver cfg id item turn final ref actions).EditsAmong placeholders ↔
      (actions ≠ [] → ∀ own, (if final && cfg.canEdit then ref else none) = some own →
        (turn.turnId, own) ∈ placeholders) := by
  cases actions with
  | nil =>
    refine iff_of_true ?_ fun h => absurd rfl h
    rw [EditsAmong, deliver, endMessage_edits]
    exact hedits
  | cons text rest =>
    rw [EditsAmong, deliver_edits]
    constructor
    · intro h _ own hown
      refine h _ (List.mem_append_right _ ?_)
      rw [hown]
      exact List.mem_singleton_self _
    · intro h edit hmem
      obtain hmem | hmem := List.mem_append.mp hmem
      · exact hedits edit hmem
      · obtain ⟨own, hown, rfl⟩ := List.mem_map.mp hmem
        exact h (List.cons_ne_nil _ _) own (Option.mem_toList.mp hown)

section

variable (hsole : t.Sole id) (hwaits : t.NoneWaits placeholders) (howns : turn.turnId = item.turnId)
include hsole hwaits howns

theorem deliver_holds {final : Bool} {ref : Option String} {actions : List String}
    (hedits : (t.deliver cfg id item turn final ref actions).EditsAmong placeholders)
    {item' : QueuedMessage} {await : ProcessAwait}
    (hserving : (t.deliver cfg id item turn final ref actions).Serving item' await) :
    (t.deliver cfg id item turn final ref actions).Holds cfg placeholders item'.turnId await := by
  cases actions with
  | nil =>
    have hclear : t.clearPlaceholder.Sole id := hsole
    exact endMessage_holds hclear hwaits hserving
  | cons text rest =>
    have hsaid (text : OutboundText) (edit : Option String) :
        (t.say turn.turnId text edit).Sole id := hsole
    obtain ⟨rfl, rfl⟩ := serving_await (hsaid _ _) hserving
    intro own hown
    rw [← howns]
    refine hedits _ ?_
    rw [deliver_edits, hown]
    exact List.mem_append_right _ (List.mem_singleton_self _)

theorem finish_owned (hedits : t.EditsAmong placeholders)
    (hmemory : ∀ ref, (item.turnId, ref) ∈ placeholders ↔ t.placeholderRef = some ref)
    {outcome : TurnOutcome} {lastText : Option String}
    (h : t.finishTurn cfg id item turn outcome lastText = s') :
    (s'.EditsAmong placeholders ↔ t.OwnFound cfg turn outcome lastText t.placeholderRef) ∧
      (s'.EditsAmong placeholders → ∀ item' await, s'.Serving item' await →
        s'.Holds cfg placeholders item'.turnId await) := by
  have hleft : (t.leave turn).Sole id := hsole
  have hclear : (t.leave turn).clearPlaceholder.Sole id := hsole
  have hedits' : (t.leave turn).EditsAmong placeholders := hedits
  have hends : ((t.leave turn).clearPlaceholder.endMessage id item).EditsAmong placeholders := by
    rw [EditsAmong, endMessage_edits]
    exact hedits
  cases finishTurn_case h with
  | aborted hgone =>
    refine ⟨iff_of_true hends (ownFound_none ?_), fun _ _ _ => endMessage_holds hclear hwaits⟩
    refine if_pos ?_
    rw [Bool.or_eq_true, beq_iff_eq]
    exact hgone
  | gated hclosed =>
    refine ⟨iff_of_true hends (ownFound_none ?_), fun _ _ _ => endMessage_holds hclear hwaits⟩
    rw [finalAnswer?]
    split
    · rfl
    · rw [hclosed]
      exact Option.filter_eq_none_iff.mpr fun _ _ => Bool.false_ne_true
  | fails hgo hopen hnone =>
    refine ⟨iff_of_true ((deliver_edits_iff hedits').mpr fun _ _ => nofun) (ownFound_none ?_),
      fun hown _ _ => deliver_holds hleft hwaits howns hown⟩
    rw [finalAnswer?, hnone]
    split
    · rfl
    · rfl
  | answers hgo hopen text htext =>
    refine ⟨(deliver_edits_iff hedits').trans ?_,
      fun hown _ _ => deliver_holds hleft hwaits howns hown⟩
    have hanswer : t.finalAnswer? turn outcome lastText = some text := by
      have hgoes : ¬ (outcome.aborted || t.stoppedTurnId == some turn.turnId) = true := by
        rw [Bool.or_eq_true, beq_iff_eq, hgo.1]
        exact fun h => h.elim nofun hgo.2
      rw [finalAnswer?, if_neg hgoes, htext, Option.filter_some, if_pos hopen]
    constructor
    · intro hown text' htext' hsends hcan
      cases hanswer.symm.trans htext'
      cases hmem : t.placeholderRef with
      | some own => exact .inl nofun
      | none =>
        refine .inr ?_
        cases hrow : t.activePlaceholder with
        | none => rfl
        | some stale =>
          -- the row still has the reference of an earlier turn
          have hedited := hown hsends stale (by rw [Bool.true_and, if_pos hcan, hmem, hrow]; rfl)
          rw [howns, hmemory, hmem] at hedited
          cases hedited
    · intro hfound hsends own hown
      rw [Bool.true_and] at hown
      split at hown
      · next hcan =>
        rw [howns, hmemory]
        cases hmem : t.placeholderRef with
        | some memory =>
          rw [hmem, Option.some_or] at hown
          exact hown
        | none =>
          have hrow := (hfound text hanswer hsends hcan).resolve_left fun h => h hmem
          rw [hmem, hrow] at hown
          cases hown
      · cases hown

end

/-- The message is in process, and the placeholders are those of turns that were taken. -/
structure InProcess (s : RouteState) (placeholders : List (Nat × String)) (id : Nat)
    (item : QueuedMessage) : Prop where
  sole : s.Sole id
  waits : s.NoneWaits placeholders
  edits : s.EditsAmong placeholders
  apart : ∀ item' ∈ s.queue, item'.turnId ≠ item.turnId

/-- What a step leaves: the edits are own ones where `own` holds, and then the awaits hold what
they should. -/
def Leaves (cfg : RouterConfig) (s' : RouteState) (placeholders : List (Nat × String))
    (own : Prop) : Prop :=
  (s'.EditsAmong placeholders ↔ own) ∧ (s'.EditsAmong placeholders → ∀ item await,
    s'.Serving item await → s'.Holds cfg placeholders item.turnId await)

section

variable (hs : s.InProcess placeholders id item) {own : Prop} (hown : own)
include hs hown

theorem leaves_ends :
    (s.endMessage id item).Leaves cfg placeholders own := by
  refine ⟨iff_of_true ?_ hown, fun _ _ _ => endMessage_holds hs.sole hs.waits⟩
  rw [EditsAmong, endMessage_edits]
  exact hs.edits

theorem leaves_cancels :
    (s.cancelMessage id item).Leaves cfg placeholders own := by
  have hended : (s.emit (.ended item.turnId)).Sole id := hs.sole
  refine ⟨iff_of_true ?_ hown, fun _ _ _ h => absurd h (not_serving_exit hended)⟩
  have hsame : (s.cancelMessage id item).answerEdits = s.answerEdits :=
    answerEdits_same rfl fun event hmem => by
      rw [List.mem_singleton.mp hmem]
      rfl
  rw [EditsAmong, hsame]
  exact hs.edits

theorem leaves_await (hsole : t.Sole id) (hsame : t.answerEdits = s.answerEdits)
    {await : ProcessAwait}
    (hholds : t.Holds cfg placeholders item.turnId await) :
    (t.await id item await).Leaves cfg placeholders own := by
  refine ⟨iff_of_true ?_ hown, fun _ item' await' hserving => ?_⟩
  · have hedits : (t.await id item await).answerEdits = t.answerEdits := rfl
    rw [EditsAmong, hedits, hsame]
    exact hs.edits
  · obtain ⟨rfl, rfl⟩ := serving_await hsole hserving
    exact hholds

end

theorem running_holds (hrunning : await.running? = some turn)
    : s.Holds cfg placeholders turnId await ↔
      ∀ ref, (turnId, ref) ∈ placeholders ↔ s.placeholderRef = some ref := by
  cases await with
  | turnEvent _ _ | deferredNotice _ _ _ | interactionNotice _ _ _ | rejectInteraction _ _
  | joinPump _ _ => exact Iff.rfl
  | _ => cases hrunning

theorem running_ownFoundAt
    (hrunning : await.running? = some turn) (hopen : ∀ exit, await ≠ .joinPump turn exit) :
    s.OwnFoundAt cfg await answer := by
  cases await with
  | joinPump turn' exit =>
    cases hrunning
    exact absurd rfl (hopen exit)
  | turnEvent _ _ | deferredNotice _ _ _ | interactionNotice _ _ _ | rejectInteraction _ _ =>
    trivial
  | _ => cases hrunning

theorem startTurn_leaves (hs : s.InProcess placeholders id item)
    (howns : turn.turnId = item.turnId) (hnone : ∀ ref, (item.turnId, ref) ∉ placeholders)
    {delivered : Bool} :
    (s.startTurn cfg id item turn delivered ref lastText).Leaves cfg
      (placeholders ++ ((sentRef delivered ref).map fun ref => (item.turnId, ref)).toList)
      (s.OwnFoundAt cfg (.placeholder turn) (.placeholderSent delivered ref lastText)) := by
  have hmemory (own : String) : (item.turnId, own) ∈ placeholders ++
      ((sentRef delivered ref).map fun ref => (item.turnId, ref)).toList ↔
        sentRef delivered ref = some own := by
    rw [List.mem_append, Option.mem_toList]
    constructor
    · rintro (hmem | hmem)
      · exact absurd hmem (hnone own)
      · obtain ⟨own', hown', heq⟩ := Option.map_eq_some_iff.mp hmem
        cases heq
        exact hown'
    · intro hown
      rw [hown]
      exact .inr rfl
  have hwaits : s.NoneWaits (placeholders ++
      ((sentRef delivered ref).map fun ref => (item.turnId, ref)).toList) := by
    intro item' hitem' own hmem
    obtain hmem | hmem := List.mem_append.mp hmem
    · exact hs.waits item' hitem' own hmem
    · obtain ⟨own', -, heq⟩ := Option.map_eq_some_iff.mp (Option.mem_toList.mp hmem)
      exact hs.apart item' hitem' (congrArg Prod.fst heq).symm
  have hedits : s.EditsAmong (placeholders ++
      ((sentRef delivered ref).map fun ref => (item.turnId, ref)).toList) :=
    fun edit hedit => List.mem_append_left _ (hs.edits edit hedit)
  unfold startTurn
  extract_lets turn' ref' t
  have hsole : t.Sole id := hs.sole
  have hedits' : t.EditsAmong _ := hedits
  have hwaits' : t.NoneWaits _ := hwaits
  split
  · next hagent =>
    have howns' : turn'.turnId = item.turnId := howns
    generalize hend : finishTurn _ t _ _ _ _ _ = s'
    obtain ⟨hiff, hholds⟩ := finish_owned hsole hwaits' howns' hedits' hmemory hend
    refine ⟨hiff.trans ?_, hholds⟩
    constructor
    · intro hfound _ text htext hsends hcan
      refine (hfound text htext hsends hcan).imp_right fun hrow => ?_
      exact (Option.or_eq_none_iff.mp hrow).2
    · intro hfound text htext hsends hcan
      obtain hown | hrow := hfound hagent text htext hsends hcan
      · exact .inl hown
      · cases hown : sentRef delivered ref with
        | some own =>
          refine .inl ?_
          change sentRef delivered ref ≠ none
          rw [hown]
          nofun
        | none =>
          refine .inr ?_
          change (sentRef delivered ref).or s.activePlaceholder = none
          rw [hown, hrow]
          rfl
  · next agentId hagent =>
    refine ⟨iff_of_true hedits fun hnone => ?_, fun _ item' await hserving => ?_⟩
    · rw [hagent] at hnone
      cases hnone
    · obtain ⟨rfl, rfl⟩ := serving_await hsole hserving
      exact hmemory

theorem processStep_leaves (hs : s.InProcess placeholders id item)
    (howns : await.Owns item.turnId) (hholds : s.Holds cfg placeholders item.turnId await)
    (h : s.processStep cfg id item await answer = some s') :
    s'.Leaves cfg
      (placeholders ++ ((sentRef? await answer).map fun ref => (item.turnId, ref)).toList)
      (s.OwnFoundAt cfg await answer) := by
  -- every other step sends no placeholder
  have hnosend (hsent : sentRef? await answer = none)
      (hleaves : s'.Leaves cfg placeholders (s.OwnFoundAt cfg await answer)) :
      s'.Leaves cfg
        (placeholders ++ ((sentRef? await answer).map fun ref => (item.turnId, ref)).toList)
        (s.OwnFoundAt cfg await answer) := by
    rw [hsent, Option.map_none, Option.toList_none, List.append_nil]
    exact hleaves
  have hsole {text : OutboundText} {turnId : Option Nat} {edit : Option String} :
      (s.say turnId text edit).Sole id := hs.sole
  cases processStep_case h with
  | ends hends =>
    have hquiet : sentRef? await answer = none ∧ s.OwnFoundAt cfg await answer := by
      cases await <;> cases answer <;> first | exact hends.elim | exact ⟨rfl, trivial⟩
    exact hnosend hquiet.1 (leaves_ends hs hquiet.2)
  | cancels hcancels =>
    have hquiet : sentRef? await answer = none ∧ s.OwnFoundAt cfg await answer := by
      cases await <;> cases answer <;> first | exact hcancels.elim | exact ⟨rfl, trivial⟩
    exact hnosend hquiet.1 (leaves_cancels hs hquiet.2)
  | refuses bound code message | defers turn outcome hfirst edit hedit
    | asks turn outcome requestId hfirst =>
    exact hnosend rfl (leaves_await hs trivial hsole (say_edits rfl) hholds)
  | resolves bound sessionId =>
    refine hnosend rfl ?_
    unfold sendPlaceholder
    split
    · exact leaves_await hs trivial hsole (say_edits rfl) hholds
    · have hbound : ({ s with activeSession := some sessionId } : RouteState).InProcess
          placeholders id item := ⟨hs.sole, hs.waits, hs.edits, hs.apart⟩
      exact leaves_await hbound trivial hsole (say_edits rfl) hholds
  | starts turn delivered ref lastText => exact startTurn_leaves hs howns hholds
  | runs turn await' hrunning hopen hrunning' =>
    have hquiet : sentRef? await answer = none := by
      cases await <;> first | rfl | cases hrunning
    refine hnosend hquiet ?_
    refine leaves_await hs (running_ownFoundAt hrunning hopen) hs.sole rfl ?_
    exact (running_holds hrunning').mpr ((running_holds hrunning).mp hholds)
  | noticed turn outcome edited delivered ref =>
    exact hnosend rfl (leaves_await hs trivial hs.sole rfl hholds)
  | joins turn exit lastText =>
    refine hnosend rfl ?_
    have hleft : ({ s with current := none } : RouteState).InProcess placeholders id item :=
      ⟨hs.sole, hs.waits, hs.edits, hs.apart⟩
    cases exit with
    | outcome outcome => exact finish_owned hs.sole hs.waits howns hs.edits hholds rfl
    | raised => exact leaves_ends hleft trivial
    | cancelled => exact leaves_cancels hleft trivial
  | delivers turn final ref rest delivered sentRef =>
    refine hnosend rfl ?_
    split
    · have hown : (s.deliver cfg id item turn final ref rest).EditsAmong placeholders := by
        refine (deliver_edits_iff hs.edits).mpr fun _ own hown => ?_
        rw [show turn.turnId = item.turnId from howns]
        exact hholds own hown
      exact ⟨iff_of_true hown trivial, fun _ _ _ => deliver_holds hs.sole hs.waits howns hown⟩
    · have hclear : s.clearPlaceholder.InProcess placeholders id item :=
        ⟨hs.sole, hs.waits, hs.edits, hs.apart⟩
      exact leaves_ends hclear trivial

theorem ensureWorker_placeholderRef : s.ensureWorker.placeholderRef = s.placeholderRef := by
  unfold ensureWorker
  split
  · split_ifs
    · rfl
    · rfl
  · rfl

theorem stopCurrent_placeholderRef {command : Nat} {found : Option Nat} :
    (s.stopCurrent command found).1.placeholderRef = s.placeholderRef := by
  unfold stopCurrent
  split
  · rfl
  · rfl

theorem inbound_placeholderRef {message : Inbound} :
    (s.handleInbound cfg message).placeholderRef = s.placeholderRef := by
  cases message with
  | plain text =>
    simp only [handleInbound]
    split
    · rfl
    · exact ensureWorker_placeholderRef
  | stop =>
    simp only [handleInbound, handleStop]
    split
    · exact stopCurrent_placeholderRef
    · rfl
  | new =>
    simp only [handleInbound, handleNew]
    split
    · rfl
    · rfl
  | other => rfl

theorem command_placeholderRef {command : CommandTask} {result : RouteState × Option CommandTask}
    (h : s.commandStep cfg command answer = some result) :
    result.1.placeholderRef = s.placeholderRef := by
  unfold commandStep at h
  split at h <;> cases h
  · exact stopCurrent_placeholderRef
  all_goals rfl

theorem beside_placeholderRef (ha : ∀ id answer, a ≠ .worker id answer)
    (h : routeStep cfg s a = some s') : s'.placeholderRef = s.placeholderRef := by
  cases a with
  | inbound message =>
    cases h
    exact inbound_placeholderRef
  | setAgent agentId =>
    cases h
    rfl
  | worker id answer => exact absurd rfl (ha id answer)
  | command k answer =>
    simp only [routeStep] at h
    split at h
    · cases h
    · obtain ⟨result, hresult, rfl⟩ := Option.map_eq_some_iff.mp h
      exact command_placeholderRef hresult

theorem Quieter.answerEdits (h : s.Quieter t) : t.answerEdits = s.answerEdits := by
  obtain ⟨events, htrace, hsilent⟩ := h
  refine answerEdits_same htrace fun event hmem => ?_
  have h := hsilent event hmem
  unfold RouteEvent.answerEdit?
  split
  · exact h.elim
  · rfl

theorem beside_sent (ha : ∀ id answer, a ≠ .worker id answer) :
    s.sentPlaceholder? a = none := by
  cases a with
  | worker id answer => exact absurd rfl (ha id answer)
  | _ => rfl

theorem Holds.beside (href : t.placeholderRef = s.placeholderRef)
    (h : s.Holds cfg placeholders turnId await) :
    t.Holds cfg placeholders turnId await := by
  unfold Holds at h ⊢
  rw [href]
  exact h

theorem sound_restarted (s : RouteState) : s.restarted.Sound := by
  obtain ⟨⟨honly, hunused, haccounted, hpast, honce⟩, ⟨htaken, howns, hpublished⟩, hcurrent⟩ :=
    fresh_sound s.agentId s.activeSession
  exact ⟨⟨honly, hunused, haccounted, hpast, honce⟩, ⟨htaken, howns, hpublished⟩, hcurrent⟩

end RouteState

namespace PlaceholderRoute

variable {cfg : RouterConfig} {s s' : PlaceholderRoute} {a : PlaceholderAction}

structure Owned (cfg : RouterConfig) (s : PlaceholderRoute) : Prop where
  sound : s.route.Sound
  taken : ∀ placeholder ∈ s.placeholders, placeholder.1 ∈ s.route.taken
  serving : ∀ item await, s.route.Serving item await →
    s.route.Holds cfg s.placeholders item.turnId await

theorem Owned.noneWaits (hs : s.Owned cfg) : s.route.NoneWaits s.placeholders :=
  fun item hitem _ hmem => hs.sound.waits item hitem (hs.taken _ hmem)

variable {answer : Answer} {route : RouteState}

theorem worker_leaves (hs : s.Owned cfg) (hown : s.EditsOwn) {id : Nat}
    (h : s.route.workerStep cfg id answer = some route) :
    route.Leaves cfg
      (s.placeholders ++ (s.route.sentPlaceholder? (.worker id answer)).toList)
      (s.FindsOwn cfg (.route (.worker id answer))) := by
  unfold RouteState.workerStep at h
  simp only [RouteState.sentPlaceholder?, FindsOwn]
  split at h
  · cases h
  · next htask =>
    cases h
    simp only [htask, Option.toList_none, List.append_nil]
    have hsole : s.route.Sole id := hs.sound.consistent.sole (by simp [RouteState.Live, htask])
    refine ⟨iff_of_true ?_ trivial, fun _ item await hserving => ?_⟩
    · rw [RouteState.EditsAmong, RouteState.takeNext_edits]
      exact hown
    · obtain ⟨hqueue, hversion⟩ := RouteState.takeNext_serving hsole hserving
      exact RouteState.holds_unresolved hversion (hs.noneWaits item hqueue)
  · next item await htask =>
    simp only [htask]
    have hserving : s.route.Serving item await := ⟨id, htask⟩
    have htaken : item.turnId ∈ s.route.taken := hs.sound.tracked.taken item await hserving
    have hprocess : s.route.InProcess s.placeholders id item :=
      ⟨hs.sound.consistent.sole (by simp [RouteState.Live, htask]), hs.noneWaits, hown,
        fun item' hitem' heq => hs.sound.waits item' hitem' (heq ▸ htaken)⟩
    exact RouteState.processStep_leaves hprocess (hs.sound.tracked.owns item await hserving)
      (hs.serving item await hserving) h

theorem worker_taken (hs : s.Owned cfg) {id : Nat}
    (h : s.route.workerStep cfg id answer = some route) :
    ∀ placeholder ∈ s.placeholders ++ (s.route.sentPlaceholder? (.worker id answer)).toList,
      placeholder.1 ∈ route.taken := by
  obtain ⟨events, htrace, -⟩ :=
    (RouteState.worker_effect hs.sound.consistent hs.sound.tracked h).uttered
  intro placeholder hmem
  refine RouteState.taken_of_append htrace ?_
  obtain hmem | hmem := List.mem_append.mp hmem
  · exact hs.taken placeholder hmem
  · rw [Option.mem_toList] at hmem
    simp only [RouteState.sentPlaceholder?] at hmem
    split at hmem
    · next item await htask =>
      obtain ⟨ref, -, rfl⟩ := Option.map_eq_some_iff.mp hmem
      exact hs.sound.tracked.taken item await ⟨id, htask⟩
    · cases hmem

theorem step_owned (hs : s.Owned cfg) (hown : s.EditsOwn) (h : s.step cfg a = some s') :
    (s'.EditsOwn ↔ s.FindsOwn cfg a) ∧ (s'.EditsOwn → s'.Owned cfg) := by
  cases a with
  | restart =>
    cases h
    refine ⟨iff_of_true nofun trivial, fun _ => ⟨RouteState.sound_restarted _, nofun, ?_⟩⟩
    rintro item await ⟨k, hk⟩
    cases hk
  | route action =>
    obtain ⟨route, hroute, rfl⟩ := Option.map_eq_some_iff.mp h
    have hsound : route.Sound := RouteState.step_sound hs.sound hroute
    by_cases hworker : ∃ id answer, action = .worker id answer
    · obtain ⟨id, answer, rfl⟩ := hworker
      obtain ⟨hiff, hholds⟩ := worker_leaves hs hown hroute
      exact ⟨hiff, fun hown' => ⟨hsound, worker_taken hs hroute, hholds hown'⟩⟩
    · have hbeside : ∀ id answer, action ≠ .worker id answer :=
        fun id answer heq => hworker ⟨id, answer, heq⟩
      have hquieter := RouteState.beside_quieter hbeside hroute
      have haside : s.route.Aside route := (RouteState.worker_or_aside hroute).resolve_left hworker
      rw [RouteState.beside_sent hbeside, Option.toList_none, List.append_nil]
      have hfinds : s.FindsOwn cfg (.route action) := by
        cases action with
        | worker id answer => exact absurd rfl (hbeside id answer)
        | _ => trivial
      refine ⟨iff_of_true ?_ hfinds, fun _ => ⟨hsound, ?_, fun item await hserving => ?_⟩⟩
      · rw [EditsOwn, hquieter.answerEdits]
        exact hown
      · rw [hquieter.taken]
        exact hs.taken
      · refine (hs.serving item await (haside.serving item await hserving)).beside ?_
        exact RouteState.beside_placeholderRef hbeside hroute

/-- In every run of a route, over any restarts, every final answer that edits a message edits the
placeholder of its own turn, if and only if each turn that comes to edit finds its placeholder in
memory or no reference in the row. -/
theorem edits_own_iff (cfg : RouterConfig) (agentId activeSession : Option String)
    (actions : List PlaceholderAction) :
    Always (step cfg) EditsOwn { route := .fresh agentId activeSession } actions ↔
      Guarded (step cfg) (FindsOwn cfg) { route := .fresh agentId activeSession } actions := by
  refine always_iff_guarded (J := Owned cfg) (fun s a s' hs hq hq' h => (step_owned hs hq h).2 hq')
    (fun s a s' hs hq h => (step_owned hs hq h).1) ?_ nofun
  refine ⟨RouteState.fresh_sound agentId activeSession, nofun, ?_⟩
  rintro item await ⟨k, hk⟩
  cases hk

def editingRouter : RouterConfig := { RouteState.plainRouter with canEdit := true }

/-- The process dies while a turn runs whose placeholder was sent, and the placeholder of the next
turn is rejected. -/
def rejectedAfterRestart : List PlaceholderAction := [
  .route (.inbound (.plain "first")), .route (.worker 0 .done),
  .route (.worker 0 (.session "session")),
  .route (.worker 0 (.placeholderSent true (some "stale") none)), .restart,
  .route (.inbound (.plain "second")), .route (.worker 0 .done),
  .route (.worker 0 (.session "session")),
  .route (.worker 0 (.placeholderSent false none none)),
  .route (.worker 0 (.signal (.terminal (some "answer")))), .route (.worker 0 (.pumpDone none))]

theorem answer_edits_stale_placeholder :
    ¬ ∀ (cfg : RouterConfig) (agentId activeSession : Option String)
      (actions : List PlaceholderAction),
        Always (step cfg) EditsOwn { route := .fresh agentId activeSession } actions := by
  intro h
  have hend : ∃ s, run (step editingRouter) { route := .fresh (some "agent") none }
      rejectedAfterRestart = some s ∧ s.route.answerEdits = [(0, "stale")] ∧
        s.placeholders = [] :=
    ⟨_, rfl, rfl, rfl⟩
  obtain ⟨s, hrun, hedits, hnone⟩ := hend
  have hown := always_last (h editingRouter (some "agent") none rejectedAfterRestart) hrun
  have hmem := hown (0, "stale") (hedits ▸ List.mem_singleton_self _)
  rw [hnone] at hmem
  cases hmem

end PlaceholderRoute

end WittyService
