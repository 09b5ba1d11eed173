import WittyService.RouteProcess
import WittyService.GuardedRuns
import WittyService.ServiceQueues

/-! The queue of a route: one worker at a time, every message accounted for. -/
namespace WittyService

open GuardedRuns ServiceQueues

namespace RouteEvent

def enqueued? : RouteEvent → Option Nat
  | enqueued turnId => some turnId
  | _ => none

def taken? : RouteEvent → Option Nat
  | taken turnId => some turnId
  | _ => none

def removed? : RouteEvent → Option (Nat × Nat)
  | removed turnId command => some (turnId, command)
  | _ => none

def Quiet : RouteEvent → Prop
  | enqueued _ | taken _ | removed _ _ => False
  | ended _ | sent _ _ _ | aborted _ _ _ | stopAck _ _ _ => True

end RouteEvent

def ProcessAwait.Dies : ProcessAwait → Answer → Prop
  | .joinPump _ .cancelled, _ => True
  | .notBound, .cancelled | .resolveSession _, .cancelled | .resolveError, .cancelled
  | .placeholder _, .cancelled | .delivery _ _ _ _, .cancelled => True
  | _, _ => False

namespace RouteState

variable {cfg : RouterConfig} {s s' t : RouteState} {id : Nat} {item : QueuedMessage}

def enqueued (s : RouteState) : List Nat := s.trace.filterMap RouteEvent.enqueued?

def taken (s : RouteState) : List Nat := s.trace.filterMap RouteEvent.taken?

def removed (s : RouteState) : List (Nat × Nat) := s.trace.filterMap RouteEvent.removed?

def books (s : RouteState) : ServiceQueue Nat where
  arrived := s.enqueued
  waiting := s.queue.map QueuedMessage.turnId
  taken := s.taken
  removed := s.removed.map Prod.fst

def Live (s : RouteState) (id : Nat) : Prop := (s.tasks id).isSome = true

/-- `s'` differs from `s` in nothing that the queue, its tasks or its books depend on. -/
structure Inert (s s' : RouteState) : Prop where
  queue : s'.queue = s.queue
  worker : s'.worker = s.worker
  live : ∀ id, s'.Live id ↔ s.Live id
  nextTask : s'.nextTask = s.nextTask
  clock : s.clock ≤ s'.clock
  enqueued : s'.enqueued = s.enqueued
  taken : s'.taken = s.taken
  removed : s'.removed = s.removed

namespace Inert

theorem refl (s : RouteState) : s.Inert s :=
  ⟨rfl, rfl, fun _ => Iff.rfl, rfl, Nat.le_refl _, rfl, rfl, rfl⟩

theorem trans (h : s.Inert t) (h' : t.Inert s') : s.Inert s' where
  queue := h'.queue.trans h.queue
  worker := h'.worker.trans h.worker
  live id := (h'.live id).trans (h.live id)
  nextTask := h'.nextTask.trans h.nextTask
  clock := Nat.le_trans h.clock h'.clock
  enqueued := h'.enqueued.trans h.enqueued
  taken := h'.taken.trans h.taken
  removed := h'.removed.trans h.removed

end Inert

theorem emit_inert {event : RouteEvent} (h : event.Quiet) : s.Inert (s.emit event) := by
  refine ⟨rfl, rfl, fun _ => Iff.rfl, rfl, Nat.le_refl _, ?_, ?_, ?_⟩
  · cases event <;> simp_all [RouteEvent.Quiet, enqueued, emit, RouteEvent.enqueued?]
  · cases event <;> simp_all [RouteEvent.Quiet, taken, emit, RouteEvent.taken?]
  · cases event <;> simp_all [RouteEvent.Quiet, removed, emit, RouteEvent.removed?]

variable {turnId : Option Nat} {text : OutboundText} {edit ref lastText : Option String}
  {await : ProcessAwait} {turn : TurnContext} {sessionId : String} {answer : Answer} {command : Nat}
  {a : RouteAction}

theorem say_inert :
    s.Inert (s.say turnId text edit) :=
  emit_inert trivial

theorem ended_inert {turnId : Nat} : s.Inert (s.emit (.ended turnId)) :=
  emit_inert trivial

theorem await_inert (hlive : s.Live id) :
    s.Inert (s.await id item await) := by
  refine ⟨rfl, rfl, fun k => ?_, rfl, Nat.le_refl _, rfl, rfl, rfl⟩
  by_cases hk : k = id
  · rw [hk]
    simp [Live, RouteState.await, show (s.tasks id).isSome = true from hlive]
  · simp [Live, RouteState.await, hk]

theorem clearPlaceholder_inert : s.Inert s.clearPlaceholder :=
  ⟨rfl, rfl, fun _ => Iff.rfl, rfl, Nat.le_refl _, rfl, rfl, rfl⟩

/-- How a worker goes on: it is suspended again, or it is done with its message and turns to
the queue. -/
inductive Proceeds (id : Nat) (s s' : RouteState) : Prop where
  | suspended (h : s.Inert s')
  | ended (t : RouteState) (h : s.Inert t) (heq : s' = t.takeNext id)

theorem Inert.proceeds (h : s.Inert t) (h' : t.Proceeds id s') : s.Proceeds id s' := by
  cases h' with
  | suspended h' => exact .suspended (h.trans h')
  | ended u h' heq => exact .ended u (h.trans h') heq

theorem await_proceeds (hlive : s.Live id) :
    s.Proceeds id (s.await id item await) :=
  .suspended (await_inert hlive)

theorem say_await_proceeds (hlive : s.Live id) :
    s.Proceeds id ((s.say turnId text edit).await id item await) := by
  have hlive' : (s.say turnId text edit).Live id := hlive
  exact say_inert.proceeds (await_proceeds hlive')

theorem endMessage_proceeds : s.Proceeds id (s.endMessage id item) :=
  .ended _ ended_inert rfl

theorem clear_proceeds : s.Proceeds id (s.clearPlaceholder.endMessage id item) :=
  clearPlaceholder_inert.proceeds endMessage_proceeds

theorem deliver_proceeds (hlive : s.Live id) {final : Bool} {actions : List String} :
    s.Proceeds id (s.deliver cfg id item turn final ref actions) := by
  cases actions with
  | nil => exact clear_proceeds
  | cons text rest => exact say_await_proceeds hlive

theorem leave_inert : s.Inert (s.leave turn) :=
  ⟨rfl, rfl, fun _ => Iff.rfl, rfl, Nat.le_refl _, rfl, rfl, rfl⟩

theorem finishTurn_proceeds (hlive : s.Live id) {outcome : TurnOutcome} :
    s.Proceeds id (s.finishTurn cfg id item turn outcome lastText) := by
  have hlive' : (s.leave turn).Live id := hlive
  generalize hend : s.finishTurn cfg id item turn outcome lastText = s'
  cases finishTurn_case hend with
  | aborted h | gated hclosed => exact leave_inert.proceeds clear_proceeds
  | fails hgo hopen hnone | answers hgo hopen text htext =>
    exact leave_inert.proceeds (deliver_proceeds hlive')

theorem sendPlaceholder_proceeds (hlive : s.Live id) {bound : Option String}
    : s.Proceeds id (s.sendPlaceholder id item bound sessionId) := by
  unfold sendPlaceholder
  split_ifs with hbound
  · exact say_await_proceeds hlive
  · have ht : s.Inert { s with activeSession := some sessionId } :=
      ⟨rfl, rfl, fun _ => Iff.rfl, rfl, Nat.le_refl _, rfl, rfl, rfl⟩
    have hlive' : ({ s with activeSession := some sessionId } : RouteState).Live id := hlive
    exact ht.proceeds (say_await_proceeds hlive')

theorem startTurn_proceeds (hlive : s.Live id) {delivered : Bool} :
    s.Proceeds id (s.startTurn cfg id item turn delivered ref lastText) := by
  unfold startTurn
  extract_lets turn ref t
  have ht : s.Inert t := ⟨rfl, rfl, fun _ => Iff.rfl, rfl, Nat.le_refl _, rfl, rfl, rfl⟩
  have hlive' : t.Live id := hlive
  refine ht.proceeds ?_
  split
  · exact finishTurn_proceeds hlive'
  · exact await_proceeds hlive'

section

variable {await : ProcessAwait} {answer : Answer}

theorem not_dies_of_ends (h : await.Ends answer) :
    ¬ await.Dies answer := by
  intro hdies
  cases await <;> cases answer <;> first | exact h.elim | exact hdies.elim

theorem dies_of_cancels (h : await.Cancels answer) :
    await.Dies answer := by
  cases await <;> cases answer <;> first | exact h.elim | trivial

theorem not_dies_of_running {turn : TurnContext}
    (h : await.running? = some turn) (hopen : ∀ exit, await ≠ .joinPump turn exit) :
    ¬ await.Dies answer := by
  intro hdies
  cases await with
  | joinPump turn' exit =>
    cases h
    exact hopen exit rfl
  | _ => first | exact hdies.elim | cases h

end

theorem processStep_spec (hlive : s.Live id)
    (h : s.processStep cfg id item await answer = some s') :
    (¬ await.Dies answer ∧ s.Proceeds id s') ∨
      (await.Dies answer ∧ ∃ t, s.Inert t ∧ s' = t.workerExit id) := by
  have hended : s.Inert (s.emit (.ended item.turnId)) := ended_inert
  cases processStep_case h with
  | ends hends => exact .inl ⟨not_dies_of_ends hends, endMessage_proceeds⟩
  | cancels hcancels => exact .inr ⟨dies_of_cancels hcancels, _, hended, rfl⟩
  | refuses bound code message | defers turn outcome | asks turn outcome requestId =>
    exact .inl ⟨not_false, say_await_proceeds hlive⟩
  | resolves bound sessionId => exact .inl ⟨not_false, sendPlaceholder_proceeds hlive⟩
  | starts turn delivered ref lastText => exact .inl ⟨not_false, startTurn_proceeds hlive⟩
  | runs turn await' hrunning hopen =>
    exact .inl ⟨not_dies_of_running hrunning hopen, await_proceeds hlive⟩
  | noticed turn outcome edited delivered ref => exact .inl ⟨not_false, await_proceeds hlive⟩
  | joins turn exit lastText =>
    have hleft : s.Inert { s with current := none } :=
      ⟨rfl, rfl, fun _ => Iff.rfl, rfl, Nat.le_refl _, rfl, rfl, rfl⟩
    cases exit with
    | outcome outcome => exact .inl ⟨not_false, finishTurn_proceeds hlive⟩
    | raised => exact .inl ⟨not_false, hleft.proceeds endMessage_proceeds⟩
    | cancelled => exact .inr ⟨trivial, _, hleft.trans ended_inert, rfl⟩
  | delivers turn final ref rest delivered sentRef =>
    refine .inl ⟨not_false, ?_⟩
    split
    · exact deliver_proceeds hlive
    · exact clear_proceeds

def queued (s : RouteState) (text : String) : RouteState :=
  { s with queue := s.queue ++ [⟨s.clock, text⟩], trace := s.trace ++ [.enqueued s.clock] }

def arrived (s : RouteState) (text : String) : RouteState :=
  { (s.queued text).ensureWorker with clock := s.clock + 1 }

def served (s : RouteState) (item : QueuedMessage) (rest : List QueuedMessage) : RouteState :=
  { s with queue := rest }.emit (.taken item.turnId)

theorem Inert.served (h : s.Inert t) (rest : List QueuedMessage) :
    (s.served item rest).Inert (t.served item rest) where
  queue := rfl
  worker := h.worker
  live := h.live
  nextTask := h.nextTask
  clock := h.clock
  enqueued := by
    have henqueued := h.enqueued
    simp only [RouteState.enqueued] at henqueued
    simp [RouteState.enqueued, RouteState.served, emit, RouteEvent.enqueued?, henqueued]
  taken := by
    have htaken := h.taken
    simp only [RouteState.taken] at htaken
    simp [RouteState.taken, RouteState.served, emit, RouteEvent.taken?, htaken]
  removed := by
    have hremoved := h.removed
    simp only [RouteState.removed] at hremoved
    simp [RouteState.removed, RouteState.served, emit, RouteEvent.removed?, hremoved]

theorem Inert.workerExit (h : s.Inert t) : (s.workerExit id).Inert (t.workerExit id) where
  queue := h.queue
  worker := rfl
  live k := by
    by_cases hk : k = id
    · simp [Live, RouteState.workerExit, hk]
    · simpa [Live, RouteState.workerExit, hk] using h.live k
  nextTask := h.nextTask
  clock := h.clock
  enqueued := h.enqueued
  taken := h.taken
  removed := h.removed

theorem startProcess_inert (hlive : s.Live id) : s.Inert (s.startProcess id item) := by
  unfold startProcess
  split
  · have hlive' : (s.say item.turnId .notBound none).Live id := hlive
    exact say_inert.trans (await_inert hlive')
  · exact await_inert hlive

theorem takeNext_empty (hqueue : s.queue = []) : s.takeNext id = s.workerExit id := by
  simp only [takeNext, hqueue]

theorem takeNext_inert (hlive : s.Live id) {rest : List QueuedMessage}
    (hqueue : s.queue = item :: rest) : (s.served item rest).Inert (s.takeNext id) := by
  have hlive' : (s.served item rest).Live id := hlive
  have hstart : (s.served item rest).Inert ((s.served item rest).startProcess id item) :=
    startProcess_inert hlive'
  simp only [takeNext, hqueue]
  exact hstart

inductive Move (cfg : RouterConfig) (s : RouteState) : RouteAction → RouteState → Prop where
  | inert {a : RouteAction} {s' : RouteState} (h : s.Inert s') : Move cfg s a s'
  | arrives {s' : RouteState} (text : String) (hroom : s.queue.length < cfg.queueDepth)
    (h : (s.arrived text).Inert s') : Move cfg s (.inbound (.plain text)) s'
  | takes {answer : Answer} {s' : RouteState} (id : Nat) (item : QueuedMessage)
    (rest : List QueuedMessage) (hlive : s.Live id) (hqueue : s.queue = item :: rest)
    (h : (s.served item rest).Inert s') : Move cfg s (.worker id answer) s'
  | leaves {answer : Answer} {s' : RouteState} (id : Nat) (hlive : s.Live id)
    (hempty : s.queue = []) (h : (s.workerExit id).Inert s') : Move cfg s (.worker id answer) s'
  | dies {answer : Answer} {s' : RouteState} (id : Nat) (item : QueuedMessage)
    (await : ProcessAwait) (htask : s.tasks id = some (.processing item await))
    (hdies : await.Dies answer) (h : (s.workerExit id).Inert s') :
    Move cfg s (.worker id answer) s'
  | stops {s' : RouteState} (h : (s.drainQueue s.clock).Inert s') :
    Move cfg s (.inbound .stop) s'
  | renews {s' : RouteState} (k command : Nat) (sessionId : String)
    (hcommand : s.commands[k]? = some (.newSession command))
    (h : (s.drainQueue command).Inert s') : Move cfg s (.command k (.session sessionId)) s'

theorem move_takeNext (hlive : s.Live id) (h : s.Inert t) :
    Move cfg s (.worker id answer) (t.takeNext id) := by
  cases hqueue : s.queue with
  | nil =>
    rw [takeNext_empty (h.queue.trans hqueue)]
    exact .leaves id hlive hqueue h.workerExit
  | cons item rest =>
    have hlive' : t.Live id := (h.live id).mpr hlive
    have htaken := takeNext_inert hlive' (h.queue.trans hqueue)
    exact .takes id item rest hlive hqueue ((h.served rest).trans htaken)

theorem move_worker (h : s.workerStep cfg id answer = some s') :
    Move cfg s (.worker id answer) s' := by
  unfold workerStep at h
  split at h
  · cases h
  · next htask =>
    have hlive : s.Live id := by simp [Live, htask]
    cases h
    exact move_takeNext hlive (.refl s)
  · next item await htask =>
    have hlive : s.Live id := by simp [Live, htask]
    obtain ⟨-, hproceeds⟩ | ⟨hdies, t, ht, rfl⟩ := processStep_spec hlive h
    · cases hproceeds with
      | suspended h => exact .inert h
      | ended t ht heq =>
        rw [heq]
        exact move_takeNext hlive ht
    · exact .dies id item await htask hdies ht.workerExit

theorem stopCurrent_inert {found : Option Nat} :
    s.Inert (s.stopCurrent command found).1 := by
  have hstopped (turnId : Option Nat) : s.Inert { s with stoppedTurnId := turnId } :=
    ⟨rfl, rfl, fun _ => Iff.rfl, rfl, Nat.le_refl _, rfl, rfl, rfl⟩
  unfold stopCurrent
  split
  · exact (hstopped _).trans (emit_inert trivial)
  · exact emit_inert trivial

theorem bindNew_inert : (s.drainQueue command).Inert (s.bindNew command sessionId) := by
  have hbound : (s.drainQueue command).Inert ({ s with
      activeSession := some sessionId
      bindingVersion := s.bindingVersion + 1 }.drainQueue command) :=
    ⟨rfl, rfl, fun _ => Iff.rfl, rfl, Nat.le_refl _, rfl, rfl, rfl⟩
  exact hbound.trans say_inert

theorem move_command {k : Nat} {command : CommandTask}
    {result : RouteState × Option CommandTask} (hcommand : s.commands[k]? = some command)
    (h : s.commandStep cfg command answer = some result) :
    Move cfg s (.command k answer) result.1 := by
  unfold commandStep at h
  split at h <;> cases h
  · exact .inert stopCurrent_inert
  · exact .inert say_inert
  · exact .inert (emit_inert trivial)
  · next command sessionId => exact .renews k command sessionId hcommand bindNew_inert
  · exact .inert say_inert
  · exact .inert (.refl s)
  · exact .inert (.refl s)
  · exact .inert (.refl s)

theorem Inert.later (h : s.Inert t) (commands : List CommandTask) {clock : Nat}
    (hclock : t.clock ≤ clock) : s.Inert { t with commands := commands, clock := clock } :=
  ⟨h.queue, h.worker, h.live, h.nextTask, Nat.le_trans h.clock hclock, h.enqueued, h.taken,
    h.removed⟩

theorem Move.withCommands (h : Move cfg s a t) (commands : List CommandTask) :
    Move cfg s a { t with commands := commands } := by
  have hlater {u : RouteState} (hu : u.Inert t) : u.Inert { t with commands := commands } :=
    hu.later commands (Nat.le_refl _)
  cases h with
  | inert h => exact .inert (hlater h)
  | arrives text hroom h => exact .arrives text hroom (hlater h)
  | takes id item rest hlive hqueue h => exact .takes id item rest hlive hqueue (hlater h)
  | leaves id hlive hempty h => exact .leaves id hlive hempty (hlater h)
  | dies id item await htask hdies h => exact .dies id item await htask hdies (hlater h)
  | stops h => exact .stops (hlater h)
  | renews k command sessionId hcommand h => exact .renews k command sessionId hcommand (hlater h)

theorem handleStop_clock : (s.handleStop command).1.clock = s.clock := by
  unfold handleStop stopCurrent
  split
  · split
    · rfl
    · rfl
  · rfl

theorem handleStop_move : (s.drainQueue command).Inert (s.handleStop command).1 := by
  unfold handleStop
  split
  · next hlength =>
    have hempty : s.queue = [] := List.length_eq_zero_iff.mp hlength
    have hdrained : s.drainQueue command = s := by
      simp only [drainQueue, hempty, List.map_nil, List.append_nil]
      rw [← hempty]
    rw [hdrained]
    exact stopCurrent_inert
  · exact say_inert

theorem routeStep_move (h : routeStep cfg s a = some s') : Move cfg s a s' := by
  cases a with
  | inbound message =>
    cases h
    cases message with
    | plain text =>
      simp only [handleInbound]
      split_ifs with hfull
      · exact .inert (say_inert.later _ (Nat.le_succ _))
      · exact .arrives text (Nat.lt_of_not_le hfull) (.refl _)
    | stop =>
      have hclock : (s.handleStop s.clock).1.clock ≤ s.clock + 1 := by
        rw [handleStop_clock]
        exact Nat.le_succ _
      exact .stops (handleStop_move.later _ hclock)
    | new =>
      simp only [handleInbound, handleNew]
      split
      · exact .inert (say_inert.later _ (Nat.le_succ _))
      · exact .inert ((Inert.refl s).later _ (Nat.le_succ _))
    | other => exact .inert ((Inert.refl s).later _ (Nat.le_succ _))
  | setAgent agentId =>
    cases h
    exact .inert ⟨rfl, rfl, fun _ => Iff.rfl, rfl, Nat.le_refl _, rfl, rfl, rfl⟩
  | worker id answer => exact move_worker h
  | command k answer =>
    simp only [routeStep] at h
    split at h
    · cases h
    · next command hcommand =>
      obtain ⟨result, hresult, rfl⟩ := Option.map_eq_some_iff.mp h
      exact (move_command hcommand hresult).withCommands _

end RouteState

end WittyService
