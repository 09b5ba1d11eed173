import WittyService.TerminalEvents
import WittyService.TurnFlight

/-! What a turn forwards: `stream_message` makes items of the events of a runtime, the producer of
the task pool queues them, and the task of the turn forwards them in this order. -/
namespace WittyService

open GuardedRuns

/-- What the orchestrator finds in a turn: the checks, records and change of state before it, the
records of its events, the record of its failure, and the change of state behind it. `none` and
`false` are exceptions, and the other values of the first and the last say whether a change of state
is sent. -/
structure Orchestration where
  opens : Option Bool := some true
  handles : Nat → Bool := fun _ => true
  recordsFailure : Bool := true
  closes : Option Bool := some true

namespace Orchestration

def emitStateChanged (sends : Bool) : List StreamItem := if sends then [.stateChanged] else []

variable (o : Orchestration)

/-- The loop over the events of the turn behind `k` others: its items, and whether it comes to its
end. -/
def handleEvents : Nat → List TurnEventType → List StreamItem × Bool
  | _, [] => ([], true)
  | k, type :: types =>
    if o.handles k then
      let rest := handleEvents (k + 1) types
      (.runtime type :: rest.1, rest.2)
    else ([], false)

/-- `stream_message`: its items, and whether it raises. -/
def streamMessage (sent : SentTurn) : List StreamItem × Bool :=
  match o.opens with
  | none => ([], true)
  | some opened =>
    let handled := o.handleEvents 0 sent.types
    let failed := !handled.2 || sent.raised
    let failure : List StreamItem :=
      if failed && o.recordsFailure then [.runtime .streamError] else []
    let items := emitStateChanged opened ++ handled.1 ++ failure
    match o.closes with
    -- the `finally` lets an exception pass when it raises none itself
    | none => (items, true)
    | some closed => (items ++ emitStateChanged closed, failed && !o.recordsFailure)

/-- The session service raises when it is called for the turn. -/
def Raises (sent : SentTurn) : Prop :=
  o.opens = none ∨ o.closes = none ∨ ∃ k < sent.types.length, o.handles k = false

def produced (stream : List StreamItem × Bool) : List StreamItem :=
  stream.1 ++ if stream.2 then [.runtime .streamError] else []

variable {o}

theorem handleEvents_all_iff (k : Nat) (types : List TurnEventType) :
    (o.handleEvents k types).2 = true ↔ ∀ j < types.length, o.handles (k + j) = true := by
  induction types generalizing k with
  | nil => exact iff_of_true rfl fun j h => absurd h (Nat.not_lt_zero j)
  | cons type types ih =>
    rw [handleEvents]
    split_ifs with hk
    · rw [ih]
      constructor
      · intro h j hj
        cases j with
        | zero => exact hk
        | succ j =>
          rw [← Nat.add_assoc, Nat.add_right_comm]
          exact h j (Nat.lt_of_succ_lt_succ hj)
      · intro h j hj
        rw [Nat.add_right_comm, Nat.add_assoc]
        exact h (j + 1) (Nat.succ_lt_succ hj)
    · exact iff_of_false nofun fun h => hk (h 0 (Nat.succ_pos _))

theorem handleEvents_of_all {k : Nat} {types : List TurnEventType}
    (h : (o.handleEvents k types).2 = true) :
    (o.handleEvents k types).1 = types.map .runtime := by
  induction types generalizing k with
  | nil => rfl
  | cons type types ih =>
    rw [handleEvents] at h ⊢
    split_ifs at h ⊢ with hk
    rw [List.map_cons]
    exact congrArg (StreamItem.runtime type :: ·) (ih h)

theorem not_terminal_emitStateChanged (sends : Bool) :
    ∀ item ∈ emitStateChanged sends, item.isTerminal = false := by
  intro item h
  unfold emitStateChanged at h
  split_ifs at h
  · rw [List.mem_singleton.mp h]
    rfl
  · cases h

theorem terminal_of_failed {items closing : List StreamItem} {records : Bool} :
    ∃ item ∈ produced
      (items ++ (if true && records then [.runtime .streamError] else []) ++ closing,
        true && !records), item.isTerminal := by
  refine ⟨.runtime .streamError, ?_, rfl⟩
  cases records with
  | true =>
    refine List.mem_append_left _ (List.mem_append_left _ (List.mem_append_right _ ?_))
    exact List.mem_singleton_self _
  | false => exact List.mem_append_right _ (List.mem_singleton_self _)

theorem produced_terminal_iff (sent : SentTurn) :
    (∃ item ∈ produced (o.streamMessage sent), item.isTerminal) ↔
      o.Raises sent ∨ sent.ends = true := by
  have herror (items : List StreamItem) :
      ∃ item ∈ produced (items, true), item.isTerminal :=
    ⟨.runtime .streamError, List.mem_append_right _ (List.mem_singleton_self _), rfl⟩
  unfold streamMessage
  cases hopens : o.opens with
  | none => exact iff_of_true (herror _) (.inl (.inl hopens))
  | some opened =>
    cases hcloses : o.closes with
    | none => exact iff_of_true (herror _) (.inl (.inr (.inl hcloses)))
    | some closed =>
      dsimp only
      cases hall : (o.handleEvents 0 sent.types).2 with
      | false =>
        -- the loop was left by a record that failed
        refine iff_of_true terminal_of_failed (.inl (.inr (.inr ?_)))
        by_contra hnone
        refine Bool.false_ne_true (hall.symm.trans ((handleEvents_all_iff _ _).mpr fun j hj => ?_))
        by_contra hj'
        exact hnone ⟨j, hj, by rwa [Nat.zero_add, Bool.not_eq_true] at hj'⟩
      | true =>
        have hraises : ¬ o.Raises sent := by
          rintro (h | h | ⟨k, hk, h⟩)
          · exact nomatch hopens.symm.trans h
          · exact nomatch hcloses.symm.trans h
          · have hhandles := (handleEvents_all_iff _ _).mp hall k hk
            rw [Nat.zero_add, h] at hhandles
            cases hhandles
        rw [or_iff_right hraises, SentTurn.ends]
        cases sent.raised with
        | true => exact iff_of_true terminal_of_failed rfl
        | false =>
          have hstate (sends : Bool) : (emitStateChanged sends).any StreamItem.isTerminal = false :=
            List.any_eq_false.mpr fun item h =>
              Bool.not_eq_true _ ▸ not_terminal_emitStateChanged sends item h
          rw [handleEvents_of_all hall, ← List.any_eq_true]
          simp only [produced, Bool.not_true, Bool.or_self, Bool.false_and, Bool.false_eq_true,
            if_false, List.append_nil, List.any_append, hstate, Bool.false_or, Bool.or_false,
            List.any_map]
          exact Iff.rfl

end Orchestration

namespace PoolTurn

variable {t t' : PoolTurn} {action : PoolTurnAction} {put : List (Option StreamItem)}

def puts : PoolTurnAction → List (Option StreamItem)
  | .produces item => [some item]
  | .producerRaises => [some (.runtime .streamError), none]
  | .producerEnds => [none]
  | _ => []

def taken : RunTurnPhase → List (Option StreamItem)
  | .releasing item | .forwarding item => [some item]
  | .closing | .awaiting | .ended => [none]
  | .accepted | .getting => []

/-- What was put into the queue was forwarded, then was taken, then is in the queue. -/
def Delivers (t : PoolTurn) (put : List (Option StreamItem)) : Prop :=
  t.forwarded.map some ++ taken t.phase ++ t.queue = put

theorem taken_phaseOf (item : Option StreamItem) : taken (phaseOf item) = [item] := by
  unfold phaseOf
  cases item with
  | none => rfl
  | some item =>
    dsimp only
    split_ifs <;> rfl

theorem cancelled_step (h : t.step action = some t') : t'.cancelled = t.cancelled := by
  cases step_cases h <;> rfl

theorem delivers_closes {items : List (Option StreamItem)} (hd : t.Delivers put)
    (hc : t.cancelled = false) (hp : t.producer = .running)
    (haction : (∃ item, action = .produces item) ∨ action = .producerRaises ∨
      action = .producerEnds)
    (h : t.step action = some { t with producer := .closed, queue := t.queue ++ items }) :
    Delivers { t with producer := .closed, queue := t.queue ++ items } (put ++ puts action) := by
  have hitems : items = puts action := by
    obtain ⟨item, rfl⟩ | rfl | rfl := haction
    · rw [step, if_neg (not_not.mpr hp), if_neg (hc ▸ Bool.false_ne_true)] at h
      have hproducer := congrArg PoolTurn.producer (Option.some.inj h)
      cases hp.symm.trans hproducer
    · rw [step, if_pos hp] at h
      exact (List.append_cancel_left (congrArg PoolTurn.queue (Option.some.inj h))).symm
    · rw [step, if_pos hp] at h
      exact (List.append_cancel_left (congrArg PoolTurn.queue (Option.some.inj h))).symm
  rw [← hitems, ← hd]
  exact (List.append_assoc _ _ _).symm

theorem delivers_step (hd : t.Delivers put) (hc : t.cancelled = false)
    (hreturns : action ≠ .forwardRaises) (h : t.step action = some t') :
    t'.Delivers (put ++ puts action) := by
  have hsame (htaken : taken t'.phase = taken t.phase) (hforwarded : t'.forwarded = t.forwarded)
      (hqueue : t'.queue = t.queue) (hputs : puts action = []) :
      t'.Delivers (put ++ puts action) := by
    rw [Delivers, htaken, hforwarded, hqueue, hputs, List.append_nil]
    exact hd
  cases hsteps : step_cases h with
  | begins hphase | releases item hphase | finalizes hphase | ends hphase =>
    exact hsame (hphase ▸ rfl) rfl rfl rfl
  | starts | done => exact hsame rfl rfl rfl rfl
  | puts item =>
    rw [← hd]
    exact (List.append_assoc _ _ _).symm
  | closes _ items hp haction => exact delivers_closes hd hc hp haction h
  | takes item queue hphase hqueue =>
    -- the item moves from the queue to the task
    rw [← hd, Delivers, hphase, hqueue, taken_phaseOf]
    simp [taken, puts]
  | forwards item hphase =>
    -- the item moves from the task to what was forwarded
    rw [← hd, Delivers, hphase]
    simp [taken, puts]
  | raises => exact absurd rfl hreturns

end PoolTurn

namespace TaskPool

variable {s s' : TaskPool} {i : Nat} {t : PoolTurn} {steps : List PoolTurnAction}
  {actions : List TaskPoolAction} {stream : List StreamItem × Bool}

/-- The step of the producer of turn `i` that puts something into its queue. -/
def productionOf (i : Nat) : TaskPoolAction → Option PoolTurnAction
  | .turn j action => if j = i ∧ PoolTurn.puts action ≠ [] then some action else none
  | _ => none

/-- The producer of turn `i` has run through `stream_message`. -/
def RunsThrough (actions : List TaskPoolAction) (i : Nat) (stream : List StreamItem × Bool) :
    Prop :=
  actions.filterMap (productionOf i) =
    stream.1.map .produces ++ [if stream.2 then .producerRaises else .producerEnds]

instance (actions : List TaskPoolAction) (i : Nat) (stream : List StreamItem × Bool) :
    Decidable (RunsThrough actions i stream) := inferInstanceAs (Decidable (_ = _))

/-- What the steps of its producer put into the queue of turn `i` is delivered, unless the turn is
cancelled. -/
structure Delivers (s : TaskPool) (i : Nat) (steps : List PoolTurnAction) : Prop where
  fresh : s.turns[i]? = none → steps = []
  turn : ∀ t, s.turns[i]? = some t → t.cancelled = false → t.Delivers (steps.flatMap PoolTurn.puts)

theorem flatMap_productionOf (action : PoolTurnAction) :
    (productionOf i (.turn i action)).toList.flatMap PoolTurn.puts = PoolTurn.puts action := by
  rw [productionOf]
  split_ifs with h
  · exact List.flatMap_singleton _ _
  · rw [not_and_not_right] at h
    exact (h rfl).symm

variable {a : TaskPoolAction}

theorem productionOf_of_ne (h : ∀ action, a ≠ .turn i action) :
    productionOf i a = none := by
  cases a with
  | submit | abortSession => rfl
  | turn j action =>
    rw [productionOf, if_neg]
    rintro ⟨rfl, -⟩
    exact h action rfl

theorem delivers_step (hd : s.Delivers i steps) (h : s.step a = some s')
    (hreturns : a ≠ .turn i .forwardRaises) :
    s'.Delivers i (steps ++ (productionOf i a).toList) := by
  cases hget : s.turns[i]? with
  | none =>
    -- a turn that is not there does no step, and is fresh when it comes
    have hne : ∀ action, a ≠ .turn i action := by
      rintro action rfl
      rw [step, hget] at h
      cases h
    rw [productionOf_of_ne hne, hd.fresh hget]
    refine ⟨fun _ => rfl, fun t' hget' _ => ?_⟩
    obtain ⟨-, rfl⟩ := turn_of_fresh h hget hget'
    exact rfl
  | some t =>
    obtain ⟨t', hget', hafter⟩ := turn_after h hget
    refine ⟨fun hnone => (by cases hget'.symm.trans hnone), fun u hu hc => ?_⟩
    rw [hget'] at hu
    cases hu
    rw [List.flatMap_append]
    obtain ⟨action, rfl, hstep⟩ | ⟨hne, rfl | ⟨-, rfl⟩⟩ := hafter
    · rw [flatMap_productionOf]
      rw [PoolTurn.cancelled_step hstep] at hc
      exact PoolTurn.delivers_step (hd.turn t hget hc) hc (fun heq => hreturns (heq ▸ rfl)) hstep
    · rw [productionOf_of_ne hne]
      exact (List.append_nil _).symm ▸ hd.turn t' hget hc
    · cases hc

theorem delivers_run (hd : s.Delivers i steps) (hrun : run step s actions = some s')
    (hreturns : .turn i .forwardRaises ∉ actions) :
    s'.Delivers i (steps ++ actions.filterMap (productionOf i)) := by
  induction actions generalizing s steps with
  | nil =>
    cases hrun
    exact (List.append_nil _).symm ▸ hd
  | cons a actions ih =>
    rw [List.mem_cons, not_or] at hreturns
    obtain ⟨u, hu, hrun⟩ := Option.bind_eq_some_iff.mp hrun
    have hrest := ih (delivers_step hd hu (Ne.symm hreturns.1)) hrun hreturns.2
    rw [List.append_assoc] at hrest
    rw [List.filterMap_cons]
    cases hproduction : productionOf i a with
    | none | some action => exact (hproduction ▸ hrest :)

theorem eq_of_map_some {as bs : List StreamItem} {rest : List (Option StreamItem)}
    (h : as.map some ++ none :: rest = bs.map some ++ [none]) : as = bs := by
  induction as generalizing bs with
  | nil =>
    cases bs with
    | nil => rfl
    | cons b bs => cases h
  | cons a as ih =>
    cases bs with
    | nil => cases h
    | cons b bs =>
      rw [List.map_cons, List.map_cons, List.cons_append, List.cons_append, List.cons.injEq] at h
      rw [Option.some.inj h.1, ih h.2]

theorem puts_stream (stream : List StreamItem × Bool) :
    (stream.1.map PoolTurnAction.produces ++
      [if stream.2 then PoolTurnAction.producerRaises else .producerEnds]).flatMap
        PoolTurn.puts =
        (Orchestration.produced stream).map some ++ [none] := by
  have hitems : (stream.1.map PoolTurnAction.produces).flatMap PoolTurn.puts =
      stream.1.map some := by
    rw [List.flatMap_map]
    exact List.flatMap_pure_eq_map _ _
  rw [List.flatMap_append, hitems, Orchestration.produced, List.map_append, List.append_assoc]
  cases stream.2 <;> rfl

/-- A turn that has ended, was not cancelled and whose `on_event` returned has forwarded what its
producer ran through. -/
theorem forwarded_of_ended (hrun : run step {} actions = some s) (hget : s.turns[i]? = some t)
    (hended : t.phase = .ended) (hc : t.cancelled = false)
    (hreturns : .turn i .forwardRaises ∉ actions) (hthrough : RunsThrough actions i stream) :
    t.forwarded = Orchestration.produced stream := by
  have hfresh : Delivers {} i [] := ⟨fun _ => rfl, nofun⟩
  have hd := (delivers_run hfresh hrun hreturns).turn t hget hc
  rw [List.nil_append, hthrough, puts_stream, PoolTurn.Delivers, hended, List.append_assoc] at hd
  exact eq_of_map_some hd

end TaskPool

end WittyService
