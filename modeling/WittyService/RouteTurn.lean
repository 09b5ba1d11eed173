import WittyService.RouteOrder

/-! What the worker of a route says while it processes a message, and when it is deaf to a
`/stop`. -/
namespace WittyService

def OutboundText.Concluding : OutboundText → Prop
  | notBound | answer _ | failure _ => True
  | _ => False

namespace RouteEvent

def Concludes (turnId : Nat) : RouteEvent → Prop
  | sent (some id) text _ => id = turnId ∧ text.Concluding
  | _ => False

/-- What the worker adds to the trace while it processes a message: texts of this message, and
none that concludes it when it is muted. -/
def Spoken (turnId : Nat) (muted : Prop) : RouteEvent → Prop
  | ended _ => True
  | sent (some id) text _ => id = turnId ∧ (text.Concluding → ¬ muted)
  | _ => False

end RouteEvent

namespace ProcessAwait

def InTurn : ProcessAwait → Prop
  | turnEvent _ _ | deferredNotice _ _ _ | interactionNotice _ _ _ | rejectInteraction _ _
  | joinPump _ _ => True
  | _ => False

def Over : ProcessAwait → Prop
  | notBound | resolveError => True
  | delivery _ _ _ rest => rest = []
  | _ => False

def Owns (turnId : Nat) : ProcessAwait → Prop
  | placeholder turn | turnEvent turn _ | deferredNotice turn _ _ | interactionNotice turn _ _
  | rejectInteraction turn _ | joinPump turn _ | delivery turn _ _ _ => turn.turnId = turnId
  | notBound | resolveSession _ | resolveError => True

end ProcessAwait

namespace RouteState

variable {cfg : RouterConfig} {s s' t : RouteState} {id : Nat} {item : QueuedMessage}
  {muted : Prop}

/-- The turn of the message is the one a `/stop` finds. -/
def Published (s : RouteState) (turnId : Nat) : Prop :=
  s.current.map TurnContext.turnId = some turnId

/-- No answer and no error text of the message follows: its turn is noted as stopped before
its end is judged, or the last text is out. -/
def Muted (s : RouteState) (item : QueuedMessage) (await : ProcessAwait) : Prop :=
  (await.InTurn ∧ s.stoppedTurnId = some item.turnId) ∨ await.Over

/-- The worker goes from `s` to `t` without an await, the queue or a command. -/
structure Speaks (item : QueuedMessage) (muted : Prop) (s t : RouteState) : Prop where
  tasks : t.tasks = s.tasks
  queue : t.queue = s.queue
  commands : t.commands = s.commands
  trace : ∃ events, t.trace = s.trace ++ events ∧
    ∀ event ∈ events, event.Spoken item.turnId muted

namespace Speaks

theorem silent (htasks : t.tasks = s.tasks) (hqueue : t.queue = s.queue)
    (hcommands : t.commands = s.commands) (htrace : t.trace = s.trace) : Speaks item muted s t :=
  ⟨htasks, hqueue, hcommands, [], by simp [htrace], nofun⟩

theorem refl (s : RouteState) : Speaks item muted s s :=
  silent rfl rfl rfl rfl

theorem trans (h : Speaks item muted s t) (h' : Speaks item muted t s') :
    Speaks item muted s s' := by
  obtain ⟨events, htrace, hspoken⟩ := h.trace
  obtain ⟨events', htrace', hspoken'⟩ := h'.trace
  refine ⟨h'.tasks.trans h.tasks, h'.queue.trans h.queue, h'.commands.trans h.commands,
    events ++ events', ?_, ?_⟩
  · rw [htrace', htrace, List.append_assoc]
  · intro event hmem
    obtain hmem | hmem := List.mem_append.mp hmem
    · exact hspoken event hmem
    · exact hspoken' event hmem

theorem emit {event : RouteEvent} (h : event.Spoken item.turnId muted) :
    Speaks item muted s (s.emit event) := by
  refine ⟨rfl, rfl, rfl, [event], rfl, fun event' hmem => ?_⟩
  rw [List.mem_singleton.mp hmem]
  exact h

theorem say {turnId : Nat} (howns : turnId = item.turnId) {text : OutboundText}
    (h : text.Concluding → ¬ muted) {edit : Option String} :
    Speaks item muted s (s.say (some turnId) text edit) :=
  emit ⟨howns, h⟩

end Speaks

/-- How the processing of a message goes on: it is suspended again, it is over and the worker
turns to the queue, or the worker is left. A muted message stays muted. -/
inductive Continues (id : Nat) (item : QueuedMessage) (muted : Prop) (s s' : RouteState) :
    Prop where
  | suspended (t : RouteState) (await : ProcessAwait) (h : Speaks item muted s t)
    (howns : await.Owns item.turnId) (hturn : await.InTurn → t.Published item.turnId)
    (hmuted : muted → t.Muted item await) (heq : s' = t.await id item await)
  | ended (t : RouteState) (h : Speaks item muted s t) (heq : s' = t.takeNext id)
  | left (t : RouteState) (h : Speaks item muted s t) (heq : s' = t.workerExit id)

theorem Speaks.continues (h : Speaks item muted s t) (h' : t.Continues id item muted s') :
    s.Continues id item muted s' := by
  cases h' with
  | suspended u await h' howns hturn hmuted heq =>
    exact .suspended u await (h.trans h') howns hturn hmuted heq
  | ended u h' heq => exact .ended u (h.trans h') heq
  | left u h' heq => exact .left u (h.trans h') heq

theorem ended_speaks : Speaks item muted s (s.emit (.ended item.turnId)) := by
  have hspoken : RouteEvent.Spoken item.turnId muted (.ended item.turnId) := trivial
  exact .emit hspoken

theorem endMessage_continues : s.Continues id item muted (s.endMessage id item) :=
  .ended _ ended_speaks rfl

theorem cancelMessage_continues : s.Continues id item muted (s.cancelMessage id item) :=
  .left _ ended_speaks rfl

theorem clear_continues : s.Continues id item muted (s.clearPlaceholder.endMessage id item) := by
  have hclear : Speaks item muted s s.clearPlaceholder := .silent rfl rfl rfl rfl
  exact hclear.continues endMessage_continues

theorem await_continues {await : ProcessAwait} (hloud : ¬ muted) (hturn : ¬ await.InTurn)
    (howns : await.Owns item.turnId) : s.Continues id item muted (s.await id item await) :=
  .suspended s await (.refl s) howns (fun hin => absurd hin hturn)
    (fun hmuted => absurd hmuted hloud) rfl

/-- The turn runs: it is published, and noted as stopped if it is muted. -/
structure Running (item : QueuedMessage) (muted : Prop) (s : RouteState) : Prop where
  published : s.Published item.turnId
  stopped : muted → s.stoppedTurnId = some item.turnId

theorem Running.await {await : ProcessAwait} (h : s.Running item muted) (hturn : await.InTurn)
    (howns : await.Owns item.turnId) : s.Continues id item muted (s.await id item await) :=
  .suspended s await (.refl s) howns (fun _ => h.published)
    (fun hmuted => .inl ⟨hturn, h.stopped hmuted⟩) rfl

variable {text : OutboundText} {turnId : Nat} {event : RouteEvent} {item' : QueuedMessage}
  {events : List RouteEvent}

theorem Running.say {turn : TurnContext} (h : s.Running item muted)
    {edit : Option String} : (s.say turn.turnId text edit).Running item muted :=
  ⟨h.published, h.stopped⟩

theorem say_continues (howns : turnId = item.turnId)
    (htext : ¬ text.Concluding) {edit : Option String}
    (h : (s.say turnId text edit).Continues id item muted s') : s.Continues id item muted s' := by
  have hsay : Speaks item muted s (s.say turnId text edit) :=
    .say howns fun hconcluding => absurd hconcluding htext
  exact hsay.continues h

theorem deliver_continues {turn : TurnContext} (howns : turn.turnId = item.turnId)
    {final : Bool} {ref : Option String} {actions : List String}
    (hmuted : muted → actions = []) :
    s.Continues id item muted (s.deliver cfg id item turn final ref actions) := by
  cases actions with
  | nil => exact clear_continues
  | cons text rest =>
    have hloud : ¬ muted := fun hmute => nomatch hmuted hmute
    have hsay : Speaks item muted s (s.say turn.turnId
        (if final then .answer text else .failure text) (if cfg.canEdit then ref else none)) :=
      .say howns fun _ => hloud
    exact hsay.continues (await_continues hloud not_false howns)

theorem leave_speaks {turn : TurnContext} : Speaks item muted s (s.leave turn) :=
  .silent rfl rfl rfl rfl

theorem finishTurn_continues {turn : TurnContext} (howns : turn.turnId = item.turnId)
    (hstopped : muted → s.stoppedTurnId = some item.turnId) {outcome : TurnOutcome}
    {lastText : Option String} :
    s.Continues id item muted (s.finishTurn cfg id item turn outcome lastText) := by
  have hloud (hgo : s.stoppedTurnId ≠ some turn.turnId) : ¬ muted := by
    intro hmuted
    rw [howns] at hgo
    exact hgo (hstopped hmuted)
  generalize hend : s.finishTurn cfg id item turn outcome lastText = s'
  cases finishTurn_case hend with
  | aborted h | gated hclosed => exact leave_speaks.continues clear_continues
  | fails hgo hopen hnone | answers hgo hopen text htext =>
    exact leave_speaks.continues
      (deliver_continues howns fun hmuted => absurd hmuted (hloud hgo.2))

theorem sendPlaceholder_continues (hloud : ¬ muted) {bound : Option String} {sessionId : String} :
    s.Continues id item muted (s.sendPlaceholder id item bound sessionId) := by
  unfold sendPlaceholder
  extract_lets t
  have ht : Speaks item muted s t := by
    simp only [t]
    split_ifs
    · exact .refl s
    · exact .silent rfl rfl rfl rfl
  have hplaceholder : ¬ OutboundText.placeholder.Concluding := not_false
  have hawait : (t.say item.turnId .placeholder none).Continues id item muted
      ((t.say item.turnId .placeholder none).await id item
        (.placeholder ⟨item.turnId, sessionId, t.bindingVersion, 0, false⟩)) :=
    await_continues hloud not_false rfl
  exact ht.continues (say_continues rfl hplaceholder hawait)

theorem startTurn_continues {turn : TurnContext} (howns : turn.turnId = item.turnId)
    (hloud : ¬ muted) {delivered : Bool} {ref lastText : Option String} :
    s.Continues id item muted (s.startTurn cfg id item turn delivered ref lastText) := by
  unfold startTurn
  extract_lets turn' ref' t
  have ht : Speaks item muted s t := .silent rfl rfl rfl rfl
  have howns' : turn'.turnId = item.turnId := howns
  have hrunning : t.Running item muted :=
    ⟨congrArg some howns, fun hmuted => absurd hmuted hloud⟩
  refine ht.continues ?_
  split
  · exact finishTurn_continues howns' hrunning.stopped
  · exact hrunning.await trivial howns'

theorem pumpJoined_continues {turn : TurnContext} (howns : turn.turnId = item.turnId)
    (hrunning : s.Running item muted) {exit : TurnExit} {lastText : Option String} :
    s.Continues id item muted (s.pumpJoined cfg id item turn lastText exit) := by
  have hleft : Speaks item muted s { s with current := none } := .silent rfl rfl rfl rfl
  cases exit with
  | outcome outcome => exact finishTurn_continues howns hrunning.stopped
  | raised => exact hleft.continues endMessage_continues
  | cancelled => exact hleft.continues cancelMessage_continues

theorem not_muted {await : ProcessAwait} (hturn : ¬ await.InTurn) (hlast : ¬ await.Over) :
    ¬ s.Muted item await := by
  rintro (⟨hin, -⟩ | hlast')
  · exact hturn hin
  · exact hlast hlast'

section

variable {await : ProcessAwait} {turn : TurnContext} (h : await.running? = some turn)
include h

theorem running_inTurn : await.InTurn := by
  cases await <;> trivial

theorem running_owns {turnId : Nat} :
    await.Owns turnId ↔ turn.turnId = turnId := by
  cases await <;> cases h <;> exact Iff.rfl

theorem running (hturn : await.InTurn → s.Published item.turnId) :
    s.Running item (s.Muted item await) := by
  refine ⟨hturn (running_inTurn h), fun hmuted => ?_⟩
  obtain ⟨-, hstopped⟩ | hlast := hmuted
  · exact hstopped
  · cases await <;> first | cases h; done | exact hlast.elim

end

theorem processStep_continues {await : ProcessAwait} (howns : await.Owns item.turnId)
    (hturn : await.InTurn → s.Published item.turnId) {answer : Answer}
    (h : s.processStep cfg id item await answer = some s') :
    s.Continues id item (s.Muted item await) s' := by
  -- both notices leave the turn open
  have hdeferred : ¬ OutboundText.deferredNotice.Concluding := not_false
  have hinteraction : ¬ OutboundText.interactionNotice.Concluding := not_false
  cases processStep_case h with
  | ends hends => exact endMessage_continues
  | cancels hcancels => exact cancelMessage_continues
  | refuses bound code message =>
    have hloud : ¬ s.Muted item (.resolveSession bound) := not_muted not_false not_false
    have hsay : Speaks item (s.Muted item (.resolveSession bound)) s
        (s.say item.turnId (.failure (cfg.renderError code)) none) :=
      .say rfl fun _ => hloud
    exact hsay.continues (await_continues hloud not_false trivial)
  | resolves bound sessionId =>
    have hloud : ¬ s.Muted item (.resolveSession bound) := not_muted not_false not_false
    exact sendPlaceholder_continues hloud
  | starts turn delivered ref lastText =>
    have hloud : ¬ s.Muted item (.placeholder turn) := not_muted not_false not_false
    exact startTurn_continues howns hloud
  | runs turn await' hrunning hopen hrunning' =>
    have howns' : await'.Owns item.turnId :=
      (running_owns hrunning').mpr ((running_owns hrunning).mp howns)
    exact (running hrunning hturn).await (running_inTurn hrunning') howns'
  | defers turn outcome hfirst edit hedit =>
    have hrunning : s.Running item (s.Muted item (.turnEvent turn outcome)) := running rfl hturn
    exact say_continues howns hdeferred (hrunning.say.await trivial howns)
  | noticed turn outcome edited delivered ref =>
    have hrunning : s.Running item (s.Muted item (.deferredNotice turn outcome edited)) :=
      running rfl hturn
    refine hrunning.await trivial ?_
    unfold noticed
    split
    · exact howns
    · exact howns
  | asks turn outcome requestId hfirst =>
    have hrunning : s.Running item (s.Muted item (.turnEvent turn outcome)) := running rfl hturn
    exact say_continues howns hinteraction (hrunning.say.await trivial howns)
  | joins turn exit lastText => exact pumpJoined_continues howns (running rfl hturn)
  | delivers turn final ref rest delivered sentRef =>
    have hmuted : s.Muted item (.delivery turn final ref rest) → rest = [] := by
      rintro (⟨hin, -⟩ | hlast)
      · exact hin.elim
      · exact hlast
    split
    · exact deliver_continues howns hmuted
    · exact clear_continues

def Serving (s : RouteState) (item : QueuedMessage) (await : ProcessAwait) : Prop :=
  ∃ id, s.tasks id = some (.processing item await)

/-- The worker of `s'` has just taken the message. -/
structure Begins (s s' : RouteState) (item : QueuedMessage) (await : ProcessAwait) : Prop where
  waited : item ∈ s.queue
  taken : item.turnId ∈ s'.taken
  opening : ¬ await.InTurn
  owns : await.Owns item.turnId

/-- The worker of `s'` has come to this await from another one of the same message. -/
structure GoesOn (s s' : RouteState) (item : QueuedMessage) (before await : ProcessAwait) :
    Prop where
  serving : s.Serving item before
  owns : await.Owns item.turnId
  published : await.InTurn → s'.Published item.turnId
  muted : s.Muted item before → s'.Muted item await

/-- A worker acknowledges no `/stop`. It concludes the message it works on, unless that is
muted, or one that waited. -/
structure Utters (s : RouteState) (event : RouteEvent) : Prop where
  no_ack : ∀ command found idle, event ≠ .stopAck command found idle
  concludes : ∀ turnId, event.Concludes turnId →
    (∃ item await, s.Serving item await ∧ item.turnId = turnId ∧ ¬ s.Muted item await) ∨
      ∃ item ∈ s.queue, item.turnId = turnId

/-- The trace grew by what a worker utters. -/
def Uttered (s t : RouteState) : Prop :=
  ∃ events, t.trace = s.trace ++ events ∧ ∀ event ∈ events, s.Utters event

structure WorkerEffect (s s' : RouteState) : Prop where
  commands : s'.commands = s.commands
  uttered : s.Uttered s'
  serving : ∀ item await, s'.Serving item await →
    s.Begins s' item await ∨ ∃ before, s.GoesOn s' item before await

theorem spoken_utters {await : ProcessAwait} (hserving : s.Serving item await)
    (h : event.Spoken item.turnId (s.Muted item await)) :
    s.Utters event := by
  cases event with
  | ended turnId => exact ⟨nofun, nofun⟩
  | sent turnId? text edit =>
    refine ⟨nofun, fun turnId hconcludes => .inl ⟨item, await, hserving, ?_⟩⟩
    cases turnId? with
    | none => cases hconcludes
    | some id =>
      obtain ⟨rfl, hconcluding⟩ := hconcludes
      exact ⟨h.1.symm, h.2 hconcluding⟩
  | _ => cases h

/-- Only `id` is a worker. -/
def Sole (s : RouteState) (id : Nat) : Prop := ∀ k, s.Live k → k = id

theorem Speaks.sole (h : Speaks item muted s t) (hsole : s.Sole id) : t.Sole id :=
  fun k hk => hsole k (by rwa [Live, h.tasks] at hk)

theorem serving_await (hsole : s.Sole id) {await await' : ProcessAwait}
    (h : (s.await id item await).Serving item' await') : item' = item ∧ await' = await := by
  obtain ⟨k, hk⟩ := h
  have hlive : (s.await id item await).Live k := by simp [Live, hk]
  by_cases hid : k = id
  · simp only [RouteState.await, hid, Function.update_self, Option.some.injEq,
      WorkerTask.processing.injEq] at hk
    exact ⟨hk.1.symm, hk.2.symm⟩
  · simp only [Live, RouteState.await, Function.update_of_ne hid] at hlive
    exact absurd (hsole k hlive) hid

theorem not_serving_exit (hsole : s.Sole id) {await : ProcessAwait} :
    ¬ (s.workerExit id).Serving item await := by
  rintro ⟨k, hk⟩
  have hlive : (s.workerExit id).Live k := by simp [Live, hk]
  obtain ⟨hlive, hne⟩ := workerExit_live.mp hlive
  exact hne (hsole k hlive)

theorem startProcess_await (s : RouteState) (id : Nat) (item : QueuedMessage) :
    ∃ (t : RouteState) (await : ProcessAwait), Speaks item False s t ∧ ¬ await.InTurn ∧
      await.Owns item.turnId ∧ s.startProcess id item = t.await id item await := by
  unfold startProcess
  split
  · exact ⟨_, .notBound, .say rfl fun _ => not_false, not_false, trivial, rfl⟩
  · exact ⟨s, .resolveSession s.activeSession, .refl s, not_false, trivial, rfl⟩

theorem Uttered.append (h : s.Uttered t)
    (htrace : s'.trace = t.trace ++ events) (hevents : ∀ event ∈ events, s.Utters event) :
    s.Uttered s' := by
  obtain ⟨before, hbefore, hutters⟩ := h
  refine ⟨before ++ events, by rw [htrace, hbefore, List.append_assoc], fun event hmem => ?_⟩
  obtain hmem | hmem := List.mem_append.mp hmem
  · exact hutters event hmem
  · exact hevents event hmem

theorem Speaks.uttered {await : ProcessAwait} (hserving : s.Serving item await)
    (h : Speaks item (s.Muted item await) s t) : s.Uttered t := by
  obtain ⟨events, htrace, hspoken⟩ := h.trace
  exact ⟨events, htrace, fun event hmem => spoken_utters hserving (hspoken event hmem)⟩

theorem waiting_utters (hitem : item ∈ s.queue)
    (h : event.Spoken item.turnId muted) : s.Utters event := by
  cases event with
  | ended turnId => exact ⟨nofun, nofun⟩
  | sent turnId? text edit =>
    refine ⟨nofun, fun turnId hconcludes => .inr ⟨item, hitem, ?_⟩⟩
    cases turnId? with
    | none => cases hconcludes
    | some id => exact h.1.symm.trans hconcludes.1
  | _ => cases h

theorem taken_of_append (htrace : s'.trace = s.trace ++ events)
    (h : turnId ∈ s.taken) : turnId ∈ s'.taken := by
  simp only [taken, htrace, List.filterMap_append, List.mem_append]
  exact .inl h

theorem takeNext_effect (hsole : t.Sole id) (hqueue : t.queue = s.queue)
    (hcommands : t.commands = s.commands) (huttered : s.Uttered t) :
    s.WorkerEffect (t.takeNext id) := by
  cases htaken : t.queue with
  | nil =>
    rw [takeNext_empty htaken]
    exact ⟨hcommands, huttered, fun item await hserving =>
      absurd hserving (not_serving_exit hsole)⟩
  | cons item rest =>
    have hitem : item ∈ s.queue := by
      rw [← hqueue, htaken]
      exact List.mem_cons_self
    obtain ⟨u, await, hspeaks, hopening, howns, hstart⟩ :=
      startProcess_await (t.served item rest) id item
    have hnext : t.takeNext id = u.await id item await := by
      simp only [takeNext, htaken]
      exact hstart
    have hserved : s.Uttered (t.served item rest) :=
      huttered.append rfl fun event hmem => by
        rw [List.mem_singleton.mp hmem]
        exact ⟨(by rintro _ _ _ ⟨⟩), (by rintro _ ⟨⟩)⟩
    obtain ⟨events, htrace, hspoken⟩ := hspeaks.trace
    rw [hnext]
    refine ⟨hspeaks.commands.trans hcommands, ?_, fun item' await' hserving => .inl ?_⟩
    · exact hserved.append htrace fun event hmem => waiting_utters hitem (hspoken event hmem)
    · have husole : u.Sole id := hspeaks.sole hsole
      obtain ⟨rfl, rfl⟩ := serving_await husole hserving
      refine ⟨hitem, taken_of_append htrace ?_, hopening, howns⟩
      rw [served_taken]
      exact List.mem_append_right _ (List.mem_singleton_self _)

/-- What a `/stop` can rely on: the message in process was taken from the queue, the turn of
its await is its own, and a running turn is published. -/
structure Tracked (s : RouteState) : Prop where
  taken : ∀ item await, s.Serving item await → item.turnId ∈ s.taken
  owns : ∀ item await, s.Serving item await → await.Owns item.turnId
  published : ∀ item await, s.Serving item await → await.InTurn → s.Published item.turnId

theorem Consistent.sole (hs : s.Consistent) (hlive : s.Live id) : s.Sole id := by
  intro k hk
  have hworker := hs.only id hlive
  rw [hs.only k hk] at hworker
  exact Option.some.inj hworker

theorem Consistent.serving_unique (hs : s.Consistent) {item : QueuedMessage}
    {await await' : ProcessAwait} (h : s.Serving item await) (h' : s.Serving item' await') :
    item' = item ∧ await' = await := by
  obtain ⟨id, hid⟩ := h
  obtain ⟨k, hk⟩ := h'
  have heq : k = id := hs.sole (by simp [Live, hid]) k (by simp [Live, hk])
  rw [heq, hid] at hk
  cases hk
  exact ⟨rfl, rfl⟩

theorem worker_effect (hs : s.Consistent) (htracked : s.Tracked) {answer : Answer}
    (h : s.workerStep cfg id answer = some s') : s.WorkerEffect s' := by
  unfold workerStep at h
  split at h
  · cases h
  · next htask =>
    cases h
    exact takeNext_effect (hs.sole (by simp [Live, htask])) rfl rfl
      ⟨[], (List.append_nil _).symm, nofun⟩
  · next item await htask =>
    have hserving : s.Serving item await := ⟨id, htask⟩
    have hsole : s.Sole id := hs.sole (by simp [Live, htask])
    have hcontinues := processStep_continues (htracked.owns item await hserving)
      (htracked.published item await hserving) h
    cases hcontinues with
    | suspended t await' hspeaks howns hturn hmuted heq =>
      have htsole : t.Sole id := hspeaks.sole hsole
      have huttered : s.Uttered t := hspeaks.uttered hserving
      rw [heq]
      refine ⟨hspeaks.commands, huttered, fun item' await'' hserving' => ?_⟩
      obtain ⟨rfl, rfl⟩ := serving_await htsole hserving'
      exact .inr ⟨await, hserving, howns, hturn, hmuted⟩
    | ended t hspeaks heq =>
      have htsole : t.Sole id := hspeaks.sole hsole
      rw [heq]
      exact takeNext_effect htsole hspeaks.queue hspeaks.commands (hspeaks.uttered hserving)
    | left t hspeaks heq =>
      have htsole : t.Sole id := hspeaks.sole hsole
      have huttered : s.Uttered t := hspeaks.uttered hserving
      rw [heq]
      exact ⟨hspeaks.commands, huttered, fun item' await' hserving' =>
        absurd hserving' (not_serving_exit htsole)⟩

theorem WorkerEffect.tracked (h : s.WorkerEffect s') (hs : s.Tracked) : s'.Tracked := by
  obtain ⟨events, htrace, -⟩ := h.uttered
  refine ⟨fun item await hserving => ?_, fun item await hserving => ?_,
    fun item await hserving hturn => ?_⟩
  · obtain hbegins | ⟨before, hgoes⟩ := h.serving item await hserving
    · exact hbegins.taken
    · exact taken_of_append htrace (hs.taken item before hgoes.serving)
  · obtain hbegins | ⟨before, hgoes⟩ := h.serving item await hserving
    · exact hbegins.owns
    · exact hgoes.owns
  · obtain hbegins | ⟨before, hgoes⟩ := h.serving item await hserving
    · exact absurd hturn hbegins.opening
    · exact hgoes.published hturn

end RouteState

end WittyService
