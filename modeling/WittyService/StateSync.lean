import Mathlib.Data.List.Basic
import Mathlib.Data.Nat.Notation
import Mathlib.Logic.Function.Basic
import WittyService.GuardedRuns

/-! The `session.state_changed` events of one session: the producer threads and the coroutines of
its turns, the aborts of its connection and of the REST interface, and the callbacks of the event
loop between them. The connection stays bound. -/
namespace WittyService

namespace StateSync

inductive SessionState where
  | running
  | idle
  | error
  deriving DecidableEq, Repr

/-- A `session.state_changed` event, or the snapshot of the last one that was built. -/
structure StateEvent where
  state : SessionState
  seq : ℕ
  deriving DecidableEq, Repr

/-- An event of a runtime: `message.completed` or `turn.completed`, `stream.error`, or another. -/
inductive MessageType where
  | completed
  | streamError
  | other
  deriving DecidableEq, Repr

/-- What a producer puts in the queue of its turn. The sentinel is `None`. -/
inductive QueueItem where
  | stateChanged (event : StateEvent)
  | message (type : MessageType)
  | sentinel
  deriving DecidableEq, Repr

def QueueItem.event? : QueueItem → Option StateEvent
  | stateChanged event => some event
  | _ => none

/-- A callback of `call_soon_threadsafe`: for the queue of a turn, or that of the connection. -/
inductive Callback where
  | put (i : ℕ) (item : QueueItem)
  | emit (event : StateEvent)
  deriving DecidableEq, Repr

/-- Where a producer thread is in `stream_message`. In `announcing` and `closing` it has been given
the event that opens or ends the turn, and has not yet looked at its cancel event. -/
inductive Producer where
  | waiting
  | starting
  | announcing (event : StateEvent)
  | streaming (failed : Bool)
  | closing (event : StateEvent) (raised : Bool)
  /-- The generator is done, the sentinel not yet submitted. -/
  | ended (raised : Bool)
  | done
  deriving DecidableEq, Repr

/-- Where the coroutine of `_run_turn` is. -/
inductive TaskPhase where
  | accepted
  | forwarding
  | awaiting
  | ended
  deriving DecidableEq, Repr

structure Turn where
  phase : TaskPhase := .accepted
  producer : Producer := .waiting
  cancelled : Bool := false
  queue : List QueueItem := []
  deriving DecidableEq, Repr

/-- `abort_session` of the pool, which runs on the thread of the loop. -/
inductive SocketAbort where
  | idle
  | cancelled
  | built (event : Option StateEvent)
  deriving DecidableEq, Repr

/-- The session. `outbound` has the state events the connection's queue has been given so far, and
`held` those that a REST abort has built and not yet emitted. -/
structure SyncState where
  snapshot : Option StateEvent := none
  turns : ℕ → Turn := fun _ => {}
  count : ℕ := 0
  inflight : Bool := false
  cancelEvent : Option ℕ := none
  callbacks : List Callback := []
  abort : SocketAbort := .idle
  held : List StateEvent := []
  outbound : List StateEvent := []

inductive TurnAction where
  | begins
  | starts
  /-- `stream_message` raises before it builds an event. -/
  | fails
  | opens (appendFails : Bool)
  | offers
  | yields (type : MessageType)
  /-- The `finally` of `stream_message`, after an exception that goes on or without one. -/
  | ends (appendFails raised : Bool)
  | closes
  | takes
  | finishes
  deriving DecidableEq, Repr

inductive SyncAction where
  | submit
  | turn (i : ℕ) (action : TurnAction)
  /-- The loop runs its next callback. -/
  | callback
  | abort
  | abortBuilds
  | abortEmits
  | restBuilds
  | restEmits (k : ℕ)
  deriving DecidableEq, Repr

namespace SyncState

variable (s : SyncState) (i : ℕ)

def build (state : SessionState) : SyncState × Option StateEvent :=
  match s.snapshot with
  | none => ({ s with snapshot := some ⟨state, 1⟩ }, some ⟨state, 1⟩)
  | some last =>
    -- a state that the session has already is no event
    if last.state = state then (s, none)
    else ({ s with snapshot := some ⟨state, last.seq + 1⟩ }, some ⟨state, last.seq + 1⟩)

def setTurn (t : Turn) : SyncState := { s with turns := Function.update s.turns i t }

def setProducer (producer : Producer) : SyncState :=
  s.setTurn i { s.turns i with producer }

/-- `put_nowait` for the queue of the turn. -/
def putItem (item : QueueItem) : SyncState :=
  s.setTurn i { s.turns i with queue := (s.turns i).queue ++ [item] }

def deliver (event : StateEvent) : SyncState := { s with outbound := s.outbound ++ [event] }

def callSoon (callback : Callback) : SyncState := { s with callbacks := s.callbacks ++ [callback] }

def targetState (failed : Bool) : SessionState := if failed then .error else .idle

/-- The producer is given the `running` event, if there is one. -/
def opens (appendFails : Bool) : SyncState :=
  match s.build .running with
  | (s, none) => s.setProducer i (.streaming false)
  | (s, some event) => s.setProducer i (if appendFails then .ended true else .announcing event)

/-- The producer looks at its cancel event. A turn that it leaves at its first event has no
`finally` to run. -/
def offers : Option SyncState :=
  match (s.turns i).producer with
  | .announcing event =>
    some (if (s.turns i).cancelled then s.setProducer i (.ended false)
      else (s.setProducer i (.streaming false)).callSoon (.put i (.stateChanged event)))
  | .closing event raised =>
    some (if (s.turns i).cancelled then s.setProducer i (.ended false)
      else (s.setProducer i (.ended raised)).callSoon (.put i (.stateChanged event)))
  | _ => none

/-- An event of the runtime. A producer that has been cancelled drops it and closes the generator,
whose `finally` builds an event that nobody is given. -/
def yields (failed : Bool) (type : MessageType) : SyncState :=
  let failed := failed || type = .streamError
  if (s.turns i).cancelled then ((s.build (targetState failed)).1).setProducer i (.ended false)
  else (s.setProducer i (.streaming failed)).callSoon (.put i (.message type))

def ends (failed appendFails raised : Bool) : SyncState :=
  match s.build (targetState failed) with
  | (s, none) => s.setProducer i (.ended raised)
  | (s, some event) => s.setProducer i (if appendFails then .ended true else .closing event raised)

/-- `_producer` after the generator. -/
def closes (raised : Bool) : SyncState :=
  let s := if raised then s.callSoon (.put i (.message .streamError)) else s
  (s.setProducer i .done).callSoon (.put i .sentinel)

/-- `_run_turn` with the next item of its queue. What holds the lock of the pool awaits nothing. -/
def takes : Option SyncState :=
  match (s.turns i).queue with
  | [] => none
  | .stateChanged event :: queue =>
    some ((s.setTurn i { s.turns i with queue }).deliver event)
  | .message type :: queue =>
    some { s.setTurn i { s.turns i with queue } with
      inflight := s.inflight && type ≠ .completed }
  -- the loop over the queue ends, and the producer is awaited
  | .sentinel :: queue =>
    some { s.setTurn i { s.turns i with queue, phase := .awaiting } with
      inflight := false
      cancelEvent := none }

def turnStep : TurnAction → Option SyncState
  | .begins =>
    if s.abort = .idle ∧ (s.turns i).phase = .accepted then
      some { s.setTurn i { s.turns i with phase := .forwarding } with cancelEvent := some i }
    else none
  | .starts =>
    if (s.turns i).phase ≠ .accepted ∧ (s.turns i).producer = .waiting then
      some (s.setProducer i .starting)
    else none
  | .fails =>
    if (s.turns i).producer = .starting then some (s.setProducer i (.ended true)) else none
  | .opens appendFails =>
    if (s.turns i).producer = .starting then some (s.opens i appendFails) else none
  | .offers => s.offers i
  | .yields type =>
    match (s.turns i).producer with
    | .streaming failed => some (s.yields i failed type)
    | _ => none
  | .ends appendFails raised =>
    match (s.turns i).producer with
    | .streaming failed => some (s.ends i failed appendFails raised)
    | _ => none
  | .closes =>
    match (s.turns i).producer with
    | .ended raised => some (s.closes i raised)
    | _ => none
  | .takes => if s.abort = .idle ∧ (s.turns i).phase = .forwarding then s.takes i else none
  | .finishes =>
    if s.abort = .idle ∧ (s.turns i).phase = .awaiting ∧ (s.turns i).producer = .done then
      some (s.setTurn i { s.turns i with phase := .ended })
    else none

def runCallback : Option SyncState :=
  match s.callbacks with
  | [] => none
  | .put i item :: callbacks =>
    some ({ s with callbacks }.putItem i item)
  | .emit event :: callbacks => some ({ s with callbacks }.deliver event)

/-- `event.set()` of the cancel event that the pool has under the key of the session. -/
def socketAbort : SyncState :=
  match s.cancelEvent with
  | none => s
  | some i => { s.setTurn i { s.turns i with cancelled := true } with abort := .cancelled }

def step : SyncAction → Option SyncState
  | .submit =>
    if s.abort = .idle then
      -- a message is refused while a turn is in flight
      some (if s.inflight then s else { s with inflight := true, count := s.count + 1 })
    else none
  | .turn i action => if i < s.count then s.turnStep i action else none
  | .callback => if s.abort = .idle then s.runCallback else none
  | .abort => if s.abort = .idle then some s.socketAbort else none
  | .abortBuilds =>
    if s.abort = .cancelled then
      some { (s.build .idle).1 with abort := .built (s.build .idle).2 }
    else none
  | .abortEmits =>
    match s.abort with
    | .built event =>
      some { s with
        abort := .idle
        callbacks := s.callbacks ++ event.toList.map .emit }
    | _ => none
  | .restBuilds => some { (s.build .idle).1 with held := s.held ++ (s.build .idle).2.toList }
  | .restEmits k =>
    s.held[k]?.map fun event => { s.callSoon (.emit event) with held := s.held.eraseIdx k }

end SyncState

end StateSync

/-! The state events on their way to the connection, in the order in which they have been built. -/

namespace StateSync

def events (items : List QueueItem) : List StateEvent := items.filterMap QueueItem.event?

namespace Callback

/-- What the callback puts in the queue of turn `i`. -/
def itemOf (i : ℕ) : Callback → Option QueueItem
  | put j item => if j = i then some item else none
  | emit _ => none

def event? : Callback → Option StateEvent
  | put _ item => item.event?
  | emit event => some event

def emitted? : Callback → Option StateEvent
  | put _ _ => none
  | emit event => some event

end Callback

def Producer.event? : Producer → Option StateEvent
  | announcing event | closing event _ => some event
  | _ => none

def SocketAbort.held : SocketAbort → List StateEvent
  | built event => event.toList
  | _ => []

namespace SyncState

variable (s : SyncState) (i : ℕ)

def state? : Option SessionState := s.snapshot.map StateEvent.state

def top : ℕ := s.snapshot.elim 0 StateEvent.seq

def queued : List StateEvent := events (s.turns i).queue

/-- What turn `i` is still to be given. -/
def path : List QueueItem := (s.turns i).queue ++ s.callbacks.filterMap (Callback.itemOf i)

def hand : List StateEvent := (s.turns i).producer.event?.toList

/-- The events of turn `i` on their way. -/
def way : List StateEvent := events (s.path i) ++ s.hand i

def called : List StateEvent := s.callbacks.filterMap Callback.event?

def emitted : List StateEvent := s.callbacks.filterMap Callback.emitted?

def allHeld : List StateEvent := s.held ++ s.abort.held

/-- The events that are delivered or given to the loop, where no turn but `i` has any on its way. -/
def sent : List StateEvent := s.outbound ++ s.queued i ++ s.called

def line : List StateEvent := s.sent i ++ s.hand i ++ s.allHeld

/-- The events of `line` that can no longer be dropped. -/
def committed : List StateEvent := s.sent i ++ s.allHeld

def remember (event : StateEvent) : SyncState := { s with snapshot := some event }

section

variable {s i} {j k : ℕ} {t : Turn} {producer : Producer} {callback : Callback} {event : StateEvent}

theorem build_cases (s : SyncState) (state : SessionState) :
    s.state? = some state ∧ s.build state = (s, none) ∨ s.state? ≠ some state ∧
      s.build state = (s.remember ⟨state, s.top + 1⟩, some ⟨state, s.top + 1⟩) := by
  unfold build state? top remember
  cases hsnapshot : s.snapshot with
  | none => exact .inr ⟨nofun, rfl⟩
  | some last =>
    by_cases hstate : last.state = state
    · left
      simp [hstate]
    · right
      simp [hstate]

theorem turns_setTurn_self : (s.setTurn i t).turns i = t := Function.update_self ..

theorem turns_setTurn_ne (h : j ≠ i) : (s.setTurn i t).turns j = s.turns j :=
  Function.update_of_ne h ..

@[simp] theorem turns_remember : (s.remember event).turns j = s.turns j := rfl

@[simp] theorem turns_callSoon : (s.callSoon callback).turns j = s.turns j := rfl

theorem producer_setProducer_self : ((s.setProducer i producer).turns i).producer = producer := by
  rw [setProducer, turns_setTurn_self]

theorem turns_setProducer_ne (h : j ≠ i) : (s.setProducer i producer).turns j = s.turns j :=
  turns_setTurn_ne h

theorem turns_setProducer : ((s.setProducer i producer).turns j).queue = (s.turns j).queue ∧
    ((s.setProducer i producer).turns j).phase = (s.turns j).phase ∧
    ((s.setProducer i producer).turns j).cancelled = (s.turns j).cancelled := by
  by_cases h : j = i
  · rw [h, setProducer, turns_setTurn_self]
    exact ⟨rfl, rfl, rfl⟩
  · rw [turns_setProducer_ne h]
    exact ⟨rfl, rfl, rfl⟩

@[simp] theorem queued_setProducer : (s.setProducer k producer).queued j = s.queued j := by
  rw [queued, turns_setProducer.1, queued]

@[simp] theorem path_setProducer : (s.setProducer k producer).path j = s.path j := by
  rw [path, turns_setProducer.1]
  rfl

theorem hand_setProducer_self : (s.setProducer k producer).hand k = producer.event?.toList := by
  rw [hand, producer_setProducer_self]

theorem hand_setProducer_ne (h : j ≠ k) : (s.setProducer k producer).hand j = s.hand j := by
  rw [hand, turns_setProducer_ne h, hand]

theorem way_setProducer_self :
    (s.setProducer k producer).way k = events (s.path k) ++ producer.event?.toList := by
  rw [way, path_setProducer, hand_setProducer_self]

theorem way_setProducer_ne (h : j ≠ k) : (s.setProducer k producer).way j = s.way j := by
  rw [way, path_setProducer, hand_setProducer_ne h, way]

@[simp] theorem emitted_setProducer : (s.setProducer k producer).emitted = s.emitted := rfl

@[simp] theorem allHeld_setProducer : (s.setProducer k producer).allHeld = s.allHeld := rfl

@[simp] theorem sent_setProducer : (s.setProducer k producer).sent j = s.sent j := by
  rw [sent, queued_setProducer]
  rfl

@[simp] theorem hand_callSoon : (s.callSoon callback).hand j = s.hand j := rfl

@[simp] theorem allHeld_callSoon : (s.callSoon callback).allHeld = s.allHeld := rfl

theorem path_callSoon :
    (s.callSoon callback).path j = s.path j ++ (callback.itemOf j).toList := by
  simp only [path, callSoon, List.filterMap_append, List.append_assoc]
  cases hitem : callback.itemOf j <;> simp [hitem]

theorem called_callSoon : (s.callSoon callback).called = s.called ++ callback.event?.toList := by
  simp only [called, callSoon, List.filterMap_append]
  cases hevent : callback.event? <;> simp [hevent]

theorem sent_callSoon : (s.callSoon callback).sent j = s.sent j ++ callback.event?.toList := by
  rw [sent, called_callSoon, ← List.append_assoc]
  rfl

theorem emitted_callSoon :
    (s.callSoon callback).emitted = s.emitted ++ callback.emitted?.toList := by
  simp only [emitted, callSoon, List.filterMap_append]
  cases hevent : callback.emitted? <;> simp [hevent]

end

end SyncState

end StateSync

end WittyService
