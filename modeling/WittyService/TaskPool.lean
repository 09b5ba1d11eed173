import WittyService.GuardedRuns
import WittyService.RuntimeTurns

/-! `TaskPool`: the turns of one session, with the coroutine and the producer thread of each. What
holds the lock of the pool awaits nothing while it has it, so `submit` is one step. -/
namespace WittyService

/-- An event of `stream_message`: one of the runtime, or a change of the session's state. -/
inductive StreamItem where
  | runtime (type : TurnEventType)
  | stateChanged
  deriving DecidableEq, Repr

namespace StreamItem

def isTerminal : StreamItem → Bool
  | runtime type => type.isTerminal
  | stateChanged => false

def releases : StreamItem → Bool
  | runtime .messageCompleted | runtime .turnCompleted => true
  | _ => false

end StreamItem

/-- Where `_run_turn` is: not yet given its first step, in `queue.get`, at the lock before it
forwards a completion, in `on_event`, at the lock of its `finally`, waiting for the producer, or
done. -/
inductive RunTurnPhase where
  | accepted
  | getting
  | releasing (item : StreamItem)
  | forwarding (item : StreamItem)
  | closing
  | awaiting
  | ended
  deriving DecidableEq, Repr

/-- Between the registration of the cancel event and the `finally`. -/
def RunTurnPhase.isActive : RunTurnPhase → Bool
  | getting | releasing _ | forwarding _ | closing => true
  | _ => false

/-- Where the producer thread is: not started, in the loop over `stream_message`, behind its
sentinel, or done. -/
inductive ProducerPhase where
  | waiting
  | running
  | closed
  | done
  deriving DecidableEq, Repr

/-- A turn that was accepted. `none` in the queue is the sentinel; `released` says that the turn has
dropped the mark of the session. -/
structure PoolTurn where
  phase : RunTurnPhase := .accepted
  producer : ProducerPhase := .waiting
  cancelled : Bool := false
  queue : List (Option StreamItem) := []
  forwarded : List StreamItem := []
  released : Bool := false
  deriving DecidableEq, Repr

inductive PoolTurnAction where
  | begins
  | producerStarts
  | produces (item : StreamItem)
  | producerRaises
  | producerEnds
  | producerDone
  | takes
  | releases
  | forwards
  | forwardRaises
  | finalizes
  | taskEnds
  deriving DecidableEq, Repr

namespace PoolTurn

/-- What `_run_turn` does with an item of its queue. -/
def phaseOf : Option StreamItem → RunTurnPhase
  | none => .closing
  | some item => if item.releases then .releasing item else .forwarding item

def step (t : PoolTurn) : PoolTurnAction → Option PoolTurn
  | .begins => if t.phase = .accepted then some { t with phase := .getting } else none
  | .producerStarts =>
    if t.phase ≠ .accepted ∧ t.producer = .waiting then some { t with producer := .running }
    else none
  | .produces item =>
    if t.producer ≠ .running then none
    else if t.cancelled then some { t with producer := .closed, queue := t.queue ++ [none] }
    else some { t with queue := t.queue ++ [some item] }
  | .producerRaises =>
    if t.producer = .running then
      some { t with producer := .closed, queue := t.queue ++ [some (.runtime .streamError), none] }
    else none
  | .producerEnds =>
    if t.producer = .running then
      some { t with producer := .closed, queue := t.queue ++ [none] }
    else none
  | .producerDone => if t.producer = .closed then some { t with producer := .done } else none
  | .takes =>
    match t.phase, t.queue with
    | .getting, item :: queue => some { t with phase := phaseOf item, queue }
    | _, _ => none
  | .releases =>
    match t.phase with
    | .releasing item => some { t with phase := .forwarding item, released := true }
    | _ => none
  | .forwards =>
    match t.phase with
    | .forwarding item =>
      some { t with phase := .getting, forwarded := t.forwarded ++ [item] }
    | _ => none
  | .forwardRaises =>
    match t.phase with
    | .forwarding _ => some { t with phase := .closing }
    | _ => none
  | .finalizes =>
    if t.phase = .closing then some { t with phase := .awaiting, released := true } else none
  | .taskEnds =>
    if t.phase = .awaiting ∧ t.producer = .done then some { t with phase := .ended } else none

inductive Steps (t : PoolTurn) : PoolTurnAction → PoolTurn → Prop
  | begins (hphase : t.phase = .accepted) : Steps t .begins { t with phase := .getting }
  | starts (hphase : t.phase ≠ .accepted) (hproducer : t.producer = .waiting) :
    Steps t .producerStarts { t with producer := .running }
  | puts (item : StreamItem) (hproducer : t.producer = .running)
      (hcancelled : t.cancelled = false) :
    Steps t (.produces item) { t with queue := t.queue ++ [some item] }
  | closes (action : PoolTurnAction) (items : List (Option StreamItem))
      (hproducer : t.producer = .running) (haction : (∃ item, action = .produces item) ∨
        action = .producerRaises ∨ action = .producerEnds)
      (hitems : items.length ≤ 2 ∧ none ∈ items) :
    Steps t action { t with producer := .closed, queue := t.queue ++ items }
  | done (hproducer : t.producer = .closed) : Steps t .producerDone { t with producer := .done }
  | takes (item : Option StreamItem) (queue : List (Option StreamItem))
      (hphase : t.phase = .getting) (hqueue : t.queue = item :: queue) :
    Steps t .takes { t with phase := phaseOf item, queue }
  | releases (item : StreamItem) (hphase : t.phase = .releasing item) :
    Steps t .releases { t with phase := .forwarding item, released := true }
  | forwards (item : StreamItem) (hphase : t.phase = .forwarding item) :
    Steps t .forwards { t with phase := .getting, forwarded := t.forwarded ++ [item] }
  | raises (item : StreamItem) (hphase : t.phase = .forwarding item) :
    Steps t .forwardRaises { t with phase := .closing }
  | finalizes (hphase : t.phase = .closing) :
    Steps t .finalizes { t with phase := .awaiting, released := true }
  | ends (hphase : t.phase = .awaiting) (hproducer : t.producer = .done) :
    Steps t .taskEnds { t with phase := .ended }

theorem step_cases {t t' : PoolTurn} {action : PoolTurnAction} (h : t.step action = some t') :
    t.Steps action t' := by
  cases action with
  | begins =>
    obtain ⟨hphase, h⟩ := Option.ite_none_right_eq_some.mp h
    exact Option.some.inj h ▸ .begins hphase
  | producerStarts =>
    obtain ⟨⟨hphase, hproducer⟩, h⟩ := Option.ite_none_right_eq_some.mp h
    exact Option.some.inj h ▸ .starts hphase hproducer
  | produces item =>
    unfold step at h
    dsimp only at h
    split_ifs at h with hrunning hcancelled
    · exact Option.some.inj h ▸ .closes _ [none] (not_not.mp hrunning) (.inl ⟨item, rfl⟩)
        ⟨Nat.le_succ 1, List.mem_cons_self⟩
    · rw [Bool.not_eq_true] at hcancelled
      exact Option.some.inj h ▸ .puts item (not_not.mp hrunning) hcancelled
  | producerRaises =>
    obtain ⟨hrunning, h⟩ := Option.ite_none_right_eq_some.mp h
    exact Option.some.inj h ▸ .closes _ _ hrunning (.inr (.inl rfl))
      ⟨Nat.le_refl 2, List.mem_cons_of_mem _ List.mem_cons_self⟩
  | producerEnds =>
    obtain ⟨hrunning, h⟩ := Option.ite_none_right_eq_some.mp h
    exact Option.some.inj h ▸ .closes _ _ hrunning (.inr (.inr rfl))
      ⟨Nat.le_succ 1, List.mem_cons_self⟩
  | producerDone =>
    obtain ⟨hproducer, h⟩ := Option.ite_none_right_eq_some.mp h
    exact Option.some.inj h ▸ .done hproducer
  | takes =>
    unfold step at h
    dsimp only at h
    split at h
    next item queue hphase hqueue => exact Option.some.inj h ▸ .takes item queue hphase hqueue
    · cases h
  | releases =>
    unfold step at h
    dsimp only at h
    split at h
    next item hphase => exact Option.some.inj h ▸ .releases item hphase
    · cases h
  | forwards =>
    unfold step at h
    dsimp only at h
    split at h
    next item hphase => exact Option.some.inj h ▸ .forwards item hphase
    · cases h
  | forwardRaises =>
    unfold step at h
    dsimp only at h
    split at h
    next item hphase => exact Option.some.inj h ▸ .raises item hphase
    · cases h
  | finalizes =>
    obtain ⟨hphase, h⟩ := Option.ite_none_right_eq_some.mp h
    exact Option.some.inj h ▸ .finalizes hphase
  | taskEnds =>
    obtain ⟨⟨hphase, hproducer⟩, h⟩ := Option.ite_none_right_eq_some.mp h
    exact Option.some.inj h ▸ .ends hphase hproducer

/-- The turn has ended or has forwarded a terminal event. -/
def IsOver (t : PoolTurn) : Prop := t.phase = .ended ∨ ∃ item ∈ t.forwarded, item.isTerminal

end PoolTurn

/-- The pool as one session sees it: whether it is in flight, and whose cancel event is under its
key. -/
structure TaskPool where
  inflight : Bool := false
  cancelEvent : Option Nat := none
  turns : List PoolTurn := []
  deriving DecidableEq, Repr

inductive TaskPoolAction where
  | submit
  | abortSession
  | turn (i : Nat) (action : PoolTurnAction)
  deriving DecidableEq, Repr

namespace TaskPool

variable (s : TaskPool)

/-- `submit`, refused when the session is in flight. -/
def submit : TaskPool :=
  if s.inflight then s else { s with inflight := true, turns := s.turns ++ [{}] }

def abortSession : TaskPool :=
  match s.cancelEvent with
  | some i => { s with turns := s.turns.modify i fun t => { t with cancelled := true } }
  | none => s

/-- What `abort_session` returns. -/
def abortAnswer : Bool := s.cancelEvent.isSome

/-- What a step of turn `i` does to the tables of the pool. -/
def touch (i : Nat) : PoolTurnAction → TaskPool
  | .begins => { s with cancelEvent := some i }
  | .releases => { s with inflight := false }
  | .finalizes => { s with inflight := false, cancelEvent := none }
  | _ => s

def step : TaskPoolAction → Option TaskPool
  | .submit => some s.submit
  | .abortSession => some s.abortSession
  | .turn i action => (s.turns[i]?.bind fun t => t.step action).map fun t =>
    { s.touch i action with turns := s.turns.set i t }

end TaskPool

end WittyService
