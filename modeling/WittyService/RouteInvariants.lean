import WittyService.RouteStop

/-! What holds of a route in every state it reaches, whatever its tasks and commands meet. -/
namespace WittyService

open GuardedRuns ServiceQueues

namespace RouteState

variable {cfg : RouterConfig} {s s' t : RouteState} {id : Nat} {item : QueuedMessage}

theorem inbound_aside {message : Inbound} (h : routeStep cfg s (.inbound message) = some s') :
    s.Aside s' := by
  cases h
  cases message with
  | plain text =>
    simp only [handleInbound]
    split
    · exact Aside.say.withCommands _ _
    · have henqueued : s.Aside (s.queued text) :=
        ⟨fun _ _ h => h, ⟨[.enqueued s.clock], rfl, by simp [RouteEvent.Concludes]⟩, rfl, .inl rfl⟩
      exact (henqueued.trans ensureWorker_aside).withCommands _ _
  | stop => exact handleStop_effect.aside.withCommands _ _
  | new =>
    simp only [handleInbound, handleNew]
    split
    · exact Aside.say.withCommands _ _
    · exact (Aside.refl s).withCommands _ _
  | other => exact (Aside.refl s).withCommands _ _

variable {answer : Answer} {a : RouteAction} {await : ProcessAwait}

theorem command_aside {k : Nat}
    (h : routeStep cfg s (.command k answer) = some s') : s.Aside s' := by
  simp only [routeStep] at h
  split at h
  · cases h
  · next command hcommand =>
    obtain ⟨result, hresult, rfl⟩ := Option.map_eq_some_iff.mp h
    have hmem : command ∈ s.commands := List.mem_of_getElem? hcommand
    exact (commandStep_effect hmem hresult).aside.withCommands _ _

theorem worker_or_aside (h : routeStep cfg s a = some s') :
    (∃ id answer, a = .worker id answer) ∨ s.Aside s' := by
  cases a with
  | inbound message => exact .inr (inbound_aside h)
  | setAgent agentId =>
    cases h
    exact .inr ⟨fun _ _ h => h, ⟨[], (List.append_nil _).symm, nofun⟩, rfl, .inl rfl⟩
  | worker id answer => exact .inl ⟨id, answer, rfl⟩
  | command k answer => exact .inr (command_aside h)

def CurrentServed (s : RouteState) : Prop :=
  ∀ turn, s.current = some turn →
    ∃ item await, s.Serving item await ∧ await.InTurn ∧ item.turnId = turn.turnId

theorem CurrentServed.current_none (hs : s.Consistent) (hcurrent : s.CurrentServed)
    (hserving : s.Serving item await) (hturn : ¬ await.InTurn) :
    s.current = none := by
  cases hnone : s.current with
  | none => rfl
  | some turn =>
    obtain ⟨item', await', hserving', hturn', -⟩ := hcurrent turn hnone
    obtain ⟨rfl, rfl⟩ := hs.serving_unique hserving hserving'
    exact absurd hturn' hturn

theorem serving_self : (s.await id item await).Serving item await :=
  ⟨id, Function.update_self ..⟩

theorem CurrentServed.kept (hs : s.Consistent) (hcurrent : s.CurrentServed)
    {await' : ProcessAwait} (hserving : s.Serving item await) (hturn : await'.InTurn)
    (hkeeps : s.Keeps t) : (t.await id item await').CurrentServed := by
  intro turn hcur
  have hcur' : s.current = some turn := hkeeps.current.symm.trans hcur
  obtain ⟨item', await'', hserving', -, hturnId⟩ := hcurrent turn hcur'
  obtain ⟨rfl, -⟩ := hs.serving_unique hserving hserving'
  exact ⟨item', await', serving_self, hturn, hturnId⟩

theorem currentServed_none (h : s.current = none) : s.CurrentServed := by
  intro turn hturn
  rw [h] at hturn
  cases hturn

theorem finishTurn_current {turn : TurnContext} {outcome : TurnOutcome} {lastText : Option String} :
    (s.finishTurn cfg id item turn outcome lastText).current = none :=
  finishTurn_keeps.current

theorem worker_currentServed (hs : s.Consistent) (hcurrent : s.CurrentServed)
    (htracked : s.Tracked) (h : s.workerStep cfg id answer = some s') :
    s'.CurrentServed := by
  unfold workerStep at h
  split at h
  · cases h
  · next htask =>
    cases h
    -- a worker that has just been created serves nobody, and it is the only one
    refine currentServed_none (takeNext_keeps.current.trans ?_)
    cases hnone : s.current with
    | none => rfl
    | some turn =>
      obtain ⟨item, await, ⟨k, hk⟩, -⟩ := hcurrent turn hnone
      have heq : k = id := hs.sole (by simp [Live, htask]) k (by simp [Live, hk])
      rw [heq, htask] at hk
      cases hk
  · next item await htask =>
    have hserving : s.Serving item await := ⟨id, htask⟩
    -- outside a turn nothing is published, and these steps do not publish
    have hidle (hturn : ¬ await.InTurn) (hkeeps : s.Keeps s') : s'.CurrentServed :=
      currentServed_none (hkeeps.current.trans (hcurrent.current_none hs hserving hturn))
    cases processStep_case h with
    | ends hends =>
      refine hidle (fun hturn => ?_) endMessage_keeps
      cases await <;> cases answer <;> first | exact hends.elim | exact hturn.elim
    | cancels hcancels =>
      refine hidle (fun hturn => ?_) cancelMessage_keeps
      cases await <;> cases answer <;> first | exact hcancels.elim | exact hturn.elim
    | refuses bound code message => exact hidle not_false say_await_keeps
    | resolves bound sessionId =>
      have hnone : s.current = none := hcurrent.current_none hs hserving not_false
      refine currentServed_none ?_
      unfold sendPlaceholder
      split
      · exact hnone
      · exact hnone
    | starts turn delivered ref lastText =>
      unfold startTurn
      extract_lets turn' ref' u
      split
      · exact currentServed_none finishTurn_current
      · -- the turn is published, and its message is the one in process
        intro turn'' hcur
        cases hcur
        have howns : turn.turnId = item.turnId := htracked.owns item _ hserving
        exact ⟨item, _, serving_self, trivial, howns.symm⟩
    | runs turn await' hrunning hopen hrunning' =>
      exact hcurrent.kept hs hserving (running_inTurn hrunning') (.refl s)
    | defers turn outcome hfirst edit hedit | asks turn outcome requestId hfirst =>
      exact hcurrent.kept hs hserving trivial say_keeps
    | noticed turn outcome edited delivered ref =>
      exact hcurrent.kept hs hserving trivial (.refl s)
    | joins turn exit lastText =>
      refine currentServed_none ?_
      cases exit with
      | outcome outcome => exact finishTurn_current
      | raised => exact endMessage_keeps.current
      | cancelled => exact cancelMessage_keeps.current
    | delivers turn final ref rest delivered sentRef =>
      refine hidle not_false ?_
      split
      · exact deliver_keeps
      · exact clear_keeps

theorem Aside.currentServed (h : s.Aside s') (hkept : ∀ item await, s.Serving item await →
    s'.Serving item await) (hs : s.CurrentServed) : s'.CurrentServed := by
  intro turn hturn
  rw [h.current] at hturn
  obtain ⟨item, await, hserving, hin, hturnId⟩ := hs turn hturn
  exact ⟨item, await, hkept item await hserving, hin, hturnId⟩

structure Sound (s : RouteState) : Prop where
  consistent : s.Consistent
  tracked : s.Tracked
  current : s.CurrentServed

def Waits (s : RouteState) : Prop := ∀ item ∈ s.queue, item.turnId ∉ s.taken

theorem Sound.waits (hs : s.Sound) : s.Waits := by
  intro item hitem htaken
  refine hs.consistent.accounted.taken_disjoint hs.consistent.once htaken ?_
  exact List.mem_map_of_mem hitem

theorem ensureWorker_serving (hs : ∀ k, s.nextTask ≤ k → ¬ s.Live k)
    (h : s.Serving item await) : s.ensureWorker.Serving item await := by
  obtain ⟨k, hk⟩ := h
  have hcreated : s.createWorker.Serving item await := by
    have hne : k ≠ s.nextTask := by
      rintro rfl
      exact hs s.nextTask (Nat.le_refl _) (by simp [Live, hk])
    exact ⟨k, by simpa [createWorker, hne] using hk⟩
  unfold ensureWorker
  split
  · split_ifs
    · exact ⟨k, hk⟩
    · exact hcreated
  · exact hcreated

theorem beside_serving (hs : s.Consistent)
    (ha : ∀ id answer, a ≠ .worker id answer) (h : routeStep cfg s a = some s')
    (hserving : s.Serving item await) : s'.Serving item await := by
  cases a with
  | inbound message =>
    cases h
    cases message with
    | plain text =>
      simp only [handleInbound]
      split
      · exact hserving
      · -- a new worker takes a place that no task has
        have hqueued : (s.queued text).Serving item await := hserving
        have hunused : ∀ k, (s.queued text).nextTask ≤ k → ¬ (s.queued text).Live k := hs.unused
        exact ensureWorker_serving hunused hqueued
    | stop =>
      simp only [handleInbound, handleStop, stopCurrent]
      split
      · split
        · exact hserving
        · exact hserving
      · exact hserving
    | new =>
      simp only [handleInbound, handleNew]
      split
      · exact hserving
      · exact hserving
    | other => exact hserving
  | setAgent agentId =>
    cases h
    exact hserving
  | worker id answer => exact absurd rfl (ha id answer)
  | command k answer =>
    simp only [routeStep] at h
    split at h
    · cases h
    · next command hcommand =>
      obtain ⟨result, hresult, rfl⟩ := Option.map_eq_some_iff.mp h
      -- a command does not touch the tasks of the workers
      have htasks : result.1.tasks = s.tasks := by
        unfold commandStep at hresult
        split at hresult <;> cases hresult <;> first | rfl | skip
        unfold stopCurrent
        split
        · rfl
        · rfl
      obtain ⟨k', hk'⟩ := hserving
      exact ⟨k', by rw [← hk', ← htasks]⟩

theorem step_sound (hs : s.Sound) (h : routeStep cfg s a = some s') :
    s'.Sound := by
  have hconsistent : s'.Consistent := move_consistent hs.consistent (routeStep_move h)
  by_cases hworker : ∃ id answer, a = .worker id answer
  · obtain ⟨id, answer, rfl⟩ := hworker
    exact ⟨hconsistent, (worker_effect hs.consistent hs.tracked h).tracked hs.tracked,
      worker_currentServed hs.consistent hs.current hs.tracked h⟩
  · have hbeside : ∀ id answer, a ≠ .worker id answer :=
      fun id answer heq => hworker ⟨id, answer, heq⟩
    have haside : s.Aside s' := (worker_or_aside h).resolve_left hworker
    exact ⟨hconsistent, haside.tracked hs.tracked,
      haside.currentServed (fun _ _ => beside_serving hs.consistent hbeside h) hs.current⟩

theorem fresh_sound (agentId activeSession : Option String) :
    (fresh agentId activeSession).Sound :=
  ⟨fresh_consistent agentId activeSession, (fresh_obedient agentId activeSession).tracked,
    currentServed_none rfl⟩

theorem run_sound {agentId activeSession : Option String} {as : List RouteAction}
    (h : run (routeStep cfg) (fresh agentId activeSession) as = some s) : s.Sound :=
  run_invariant (fun _ _ _ hs hstep => step_sound hs hstep)
    (fresh_sound agentId activeSession) h

end RouteState

end WittyService
