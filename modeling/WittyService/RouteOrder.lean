import WittyService.RouteQueue

/-! Every message of a route is served once, in the order of arrival, or removed by a command
that came after it. -/
namespace WittyService

open GuardedRuns ServiceQueues

namespace RouteState

variable {cfg : RouterConfig} {s s' t : RouteState}

/-- The worker takes the message the next time it turns to the queue. -/
def Takes (s : RouteState) (id : Nat) (item : QueuedMessage) : Prop :=
  (s.takeNext id).taken = s.taken ++ [item.turnId]

structure Serialized (cfg : RouterConfig) (s : RouteState) : Prop where
  one_process : ∀ id id' item item' await await', s.tasks id = some (.processing item await) →
    s.tasks id' = some (.processing item' await') → id = id'
  bounded : s.queue.length ≤ cfg.queueDepth
  served : ∀ item rest, s.queue = item :: rest →
    ∃ id, s.worker = some id ∧ s.Live id ∧ s.Takes id item
  accounted : (s.taken ++ s.removed.map Prod.fst ++ s.queue.map QueuedMessage.turnId).Perm
    s.enqueued
  once : s.enqueued.Nodup
  in_order : s.taken.Sublist s.enqueued
  later : ∀ turnId command, (turnId, command) ∈ s.removed → turnId < command

/-- A cancellation ends the worker only when nothing waits, and a `/new` that has its session
finds no message in the queue that arrived after it. -/
def Uninterrupted (s : RouteState) : RouteAction → Prop
  | .worker id answer =>
    match s.tasks id with
    | some (.processing _ await) => await.Dies answer → s.queue = []
    | _ => True
  | .command k (.session _) =>
    match s.commands[k]? with
    | some (.newSession command) => ∀ item ∈ s.queue, item.turnId < command
    | _ => True
  | _ => True

structure Consistent (s : RouteState) : Prop where
  only : ∀ id, s.Live id → s.worker = some id
  unused : ∀ id, s.nextTask ≤ id → ¬ s.Live id
  accounted : Accounted s.books
  past : ∀ turnId ∈ s.enqueued, turnId < s.clock
  once : s.enqueued.Nodup

theorem Inert.books (h : s.Inert s') : s'.books = s.books := by
  simp only [RouteState.books, h.queue, h.enqueued, h.taken, h.removed]

theorem Inert.consistent (h : s.Inert s') (hs : s.Consistent) : s'.Consistent where
  only id hlive := by
    rw [h.worker]
    exact hs.only id ((h.live id).mp hlive)
  unused id hid hlive := hs.unused id (by rwa [h.nextTask] at hid) ((h.live id).mp hlive)
  accounted := by
    rw [h.books]
    exact hs.accounted
  past turnId hmem := by
    rw [h.enqueued] at hmem
    exact Nat.lt_of_lt_of_le (hs.past turnId hmem) h.clock
  once := by
    rw [h.enqueued]
    exact hs.once

theorem ensureWorker_trace : s.ensureWorker.trace = s.trace := by
  unfold ensureWorker
  split
  · split_ifs
    · rfl
    · rfl
  · rfl

theorem ensureWorker_queue : s.ensureWorker.queue = s.queue := by
  unfold ensureWorker
  split
  · split_ifs
    · rfl
    · rfl
  · rfl

variable {text : String} {command id : Nat} {item : QueuedMessage} {rest : List QueuedMessage}
  {a : RouteAction} {answer : Answer}

theorem arrived_queue : (s.arrived text).queue = s.queue ++ [⟨s.clock, text⟩] :=
  ensureWorker_queue

theorem arrived_enqueued : (s.arrived text).enqueued = s.enqueued ++ [s.clock] := by
  simp [enqueued, arrived, queued, ensureWorker_trace, RouteEvent.enqueued?]

theorem arrived_taken : (s.arrived text).taken = s.taken := by
  simp [taken, arrived, queued, ensureWorker_trace, RouteEvent.taken?]

theorem arrived_removed : (s.arrived text).removed = s.removed := by
  simp [removed, arrived, queued, ensureWorker_trace, RouteEvent.removed?]

section

variable {item : QueuedMessage} {rest : List QueuedMessage}

theorem served_taken :
    (s.served item rest).taken = s.taken ++ [item.turnId] := by
  simp [taken, served, emit, RouteEvent.taken?]

theorem served_enqueued :
    (s.served item rest).enqueued = s.enqueued := by
  simp [enqueued, served, emit, RouteEvent.enqueued?]

theorem served_removed :
    (s.served item rest).removed = s.removed := by
  simp [removed, served, emit, RouteEvent.removed?]

end

theorem drainQueue_enqueued : (s.drainQueue command).enqueued = s.enqueued := by
  simp [enqueued, drainQueue, List.filterMap_map, Function.comp_def, RouteEvent.enqueued?]

theorem drainQueue_taken : (s.drainQueue command).taken = s.taken := by
  simp [taken, drainQueue, List.filterMap_map, Function.comp_def, RouteEvent.taken?]

theorem drainQueue_removed : (s.drainQueue command).removed =
    s.removed ++ s.queue.map fun item => (item.turnId, command) := by
  simp [removed, drainQueue, List.filterMap_map, Function.comp_def, RouteEvent.removed?]

theorem books_arrived : Step s.books (s.arrived text).books := by
  have hbooks : (s.arrived text).books = { s.books with
      arrived := s.books.arrived ++ [s.clock], waiting := s.books.waiting ++ [s.clock] } := by
    simp [books, arrived_queue, arrived_enqueued, arrived_taken, arrived_removed]
  rw [hbooks]
  exact .arrive s.books s.clock

theorem books_served
    (hqueue : s.queue = item :: rest) : Step s.books (s.served item rest).books := by
  have hbooks : (s.served item rest).books = { s.books with
      waiting := rest.map QueuedMessage.turnId, taken := s.books.taken ++ [item.turnId] } := by
    simp only [books, served_taken, served_enqueued, served_removed]
    rfl
  rw [hbooks]
  exact .take s.books item.turnId _ (by simp [books, hqueue])

theorem books_drained : Step s.books (s.drainQueue command).books := by
  have hbooks : (s.drainQueue command).books = { s.books with
      waiting := [], removed := s.books.removed ++ s.books.waiting } := by
    simp only [books, drainQueue_enqueued, drainQueue_taken, drainQueue_removed,
      List.map_append, List.map_map]
    rfl
  rw [hbooks]
  exact .drain s.books

theorem ensureWorker_cases (honly : ∀ id, s.Live id → s.worker = some id) :
    s.ensureWorker = s ∨ (s.ensureWorker = s.createWorker ∧ ∀ id, ¬ s.Live id) := by
  unfold ensureWorker
  split
  · next id hworker =>
    split_ifs with hlive
    · exact .inl rfl
    · refine .inr ⟨rfl, fun k hk => ?_⟩
      have hk' := honly k hk
      rw [hworker] at hk'
      cases hk'
      exact hlive hk
  · next hworker =>
    refine .inr ⟨rfl, fun k hk => ?_⟩
    have hk' := honly k hk
    rw [hworker] at hk'
    cases hk'

theorem ensureWorker_live (s : RouteState) :
    ∃ id, s.ensureWorker.worker = some id ∧ s.ensureWorker.Live id := by
  unfold ensureWorker
  split
  · next id hworker =>
    split_ifs with hlive
    · exact ⟨id, hworker, hlive⟩
    · exact ⟨s.nextTask, rfl, by simp [Live, createWorker]⟩
  · exact ⟨s.nextTask, rfl, by simp [Live, createWorker]⟩

theorem createWorker_only (hnone : ∀ id, ¬ s.Live id) (h : s.createWorker.Live id) :
    id = s.nextTask := by
  by_contra hne
  exact hnone id (by simpa [Live, createWorker, hne] using h)

theorem Consistent.arrived (hs : s.Consistent) (text : String) :
    (s.arrived text).Consistent := by
  have hworker : (∀ id, (s.arrived text).Live id → (s.arrived text).worker = some id) ∧
      ∀ id, (s.arrived text).nextTask ≤ id → ¬ (s.arrived text).Live id := by
    have honly : ∀ id, (s.queued text).Live id → (s.queued text).worker = some id := hs.only
    obtain hkept | ⟨hcreated, hnone⟩ := ensureWorker_cases honly
    · simp only [RouteState.arrived, hkept]
      exact ⟨hs.only, hs.unused⟩
    · simp only [RouteState.arrived, hcreated]
      constructor
      · intro id hlive
        rw [createWorker_only hnone hlive]
        rfl
      · intro id hid hlive
        have heq : id = s.nextTask := createWorker_only hnone hlive
        have hid' : s.nextTask + 1 ≤ id := hid
        omega
  refine ⟨hworker.1, hworker.2, hs.accounted.step books_arrived, fun turnId hmem => ?_, ?_⟩
  · have hclock : (s.arrived text).clock = s.clock + 1 := rfl
    rw [arrived_enqueued, List.mem_append, List.mem_singleton] at hmem
    rw [hclock]
    obtain hold | rfl := hmem
    · exact Nat.lt_succ_of_lt (hs.past turnId hold)
    · exact Nat.lt_succ_self _
  · rw [arrived_enqueued, List.nodup_append]
    refine ⟨hs.once, by simp, fun a ha b hb => ?_⟩
    rw [List.mem_singleton] at hb
    rw [hb]
    exact Nat.ne_of_lt (hs.past a ha)

theorem Consistent.served (hs : s.Consistent) (hqueue : s.queue = item :: rest) :
    (s.served item rest).Consistent where
  only := hs.only
  unused := hs.unused
  accounted := hs.accounted.step (books_served hqueue)
  past := by
    rw [served_enqueued]
    exact hs.past
  once := by
    rw [served_enqueued]
    exact hs.once

theorem Consistent.drained (hs : s.Consistent) (command : Nat) :
    (s.drainQueue command).Consistent where
  only := hs.only
  unused := hs.unused
  accounted := hs.accounted.step books_drained
  past := by
    rw [drainQueue_enqueued]
    exact hs.past
  once := by
    rw [drainQueue_enqueued]
    exact hs.once

theorem workerExit_live {k : Nat} : (s.workerExit id).Live k ↔ s.Live k ∧ k ≠ id := by
  by_cases hk : k = id
  · simp [Live, workerExit, hk]
  · simp [Live, workerExit, hk]

theorem Consistent.exited (hs : s.Consistent) (hlive : s.Live id) :
    (s.workerExit id).Consistent where
  only k hk := by
    obtain ⟨hk, hne⟩ := workerExit_live.mp hk
    have hid := hs.only id hlive
    rw [hs.only k hk] at hid
    exact absurd (Option.some.inj hid) hne
  unused k hle hk := hs.unused k hle (workerExit_live.mp hk).1
  accounted := hs.accounted
  past := hs.past
  once := hs.once

theorem move_consistent (hs : s.Consistent) (h : Move cfg s a s') :
    s'.Consistent := by
  cases h with
  | inert h => exact h.consistent hs
  | arrives text hroom h => exact h.consistent (hs.arrived text)
  | takes id item rest hlive hqueue h => exact h.consistent (hs.served hqueue)
  | leaves id hlive hempty h => exact h.consistent (hs.exited hlive)
  | dies id item await htask hdies h =>
    have hlive : s.Live id := by simp [Live, htask]
    exact h.consistent (hs.exited hlive)
  | stops h => exact h.consistent (hs.drained s.clock)
  | renews k command sessionId hcommand h => exact h.consistent (hs.drained command)

/-- Whoever waits is waited for. -/
def Attended (s : RouteState) : Prop := s.queue ≠ [] → ∃ id, s.worker = some id ∧ s.Live id

/-- A command removes only what arrived before it. -/
def RemovesEarlier (s : RouteState) : Prop :=
  ∀ turnId command, (turnId, command) ∈ s.removed → turnId < command

theorem Inert.attended (h : s.Inert s') (hs : s.Attended) : s'.Attended := by
  intro hqueue
  rw [h.queue] at hqueue
  obtain ⟨id, hworker, hlive⟩ := hs hqueue
  exact ⟨id, h.worker.trans hworker, (h.live id).mpr hlive⟩

theorem Inert.removesEarlier (h : s.Inert s') (hs : s.RemovesEarlier) : s'.RemovesEarlier := by
  intro turnId command hmem
  rw [h.removed] at hmem
  exact hs turnId command hmem

theorem takes_front (hlive : s.Live id) (hqueue : s.queue = item :: rest) : s.Takes id item := by
  have htaken := (takeNext_inert hlive hqueue).taken
  rw [served_taken] at htaken
  exact htaken

theorem serialized_iff (hs : s.Consistent) : s.Serialized cfg ↔
    s.queue.length ≤ cfg.queueDepth ∧ s.Attended ∧ s.RemovesEarlier := by
  constructor
  · intro h
    refine ⟨h.bounded, fun hqueue => ?_, h.later⟩
    obtain ⟨item, rest, hcons⟩ := List.exists_cons_of_ne_nil hqueue
    obtain ⟨id, hworker, hlive, -⟩ := h.served item rest hcons
    exact ⟨id, hworker, hlive⟩
  · rintro ⟨hbounded, hattended, hlater⟩
    refine ⟨?_, hbounded, ?_, hs.accounted.perm, hs.once, hs.accounted.taken_sublist, hlater⟩
    · intro id id' item item' await await' htask htask'
      have hid := hs.only id (by simp [Live, htask])
      have hid' := hs.only id' (by simp [Live, htask'])
      exact Option.some.inj (hid.symm.trans hid')
    · intro item rest hqueue
      obtain ⟨id, hworker, hlive⟩ := hattended (by simp [hqueue])
      exact ⟨id, hworker, hlive, takes_front hlive hqueue⟩

theorem drained_removesEarlier : (s.drainQueue command).RemovesEarlier ↔
      s.RemovesEarlier ∧ ∀ item ∈ s.queue, item.turnId < command := by
  simp only [RemovesEarlier, drainQueue_removed, List.mem_append, List.mem_map, Prod.mk.injEq]
  constructor
  · intro h
    exact ⟨fun turnId command' hmem => h turnId command' (.inl hmem),
      fun item hitem => h item.turnId command (.inr ⟨item, hitem, rfl, rfl⟩)⟩
  · rintro ⟨hold, hnew⟩ turnId command' (hmem | ⟨item, hitem, rfl, rfl⟩)
    · exact hold turnId command' hmem
    · exact hnew item hitem

theorem waiting_past (hs : s.Consistent) (hitem : item ∈ s.queue) :
    item.turnId < s.clock := by
  refine hs.past _ (hs.accounted.perm.subset ?_)
  exact List.mem_append_right _ (List.mem_map_of_mem hitem)

theorem served_attended (hs : s.Consistent) (hlive : s.Live id) : (s.served item rest).Attended :=
  fun _ => ⟨id, hs.only id hlive, hlive⟩

theorem attended_of_empty (hqueue : s.queue = []) : s.Attended :=
  fun hne => absurd hqueue hne

theorem move_bounded (h : Move cfg s a s')
    (hbounded : s.queue.length ≤ cfg.queueDepth) : s'.queue.length ≤ cfg.queueDepth := by
  cases h with
  | inert h | leaves id hlive hempty h | dies id item await htask hdies h => rwa [h.queue]
  | arrives text hroom h =>
    rw [h.queue, arrived_queue, List.length_append, List.length_singleton]
    exact hroom
  | takes id item rest hlive hqueue h =>
    rw [h.queue]
    rw [hqueue, List.length_cons] at hbounded
    exact Nat.le_of_succ_le hbounded
  | stops h | renews k command sessionId hcommand h =>
    rw [h.queue]
    exact Nat.zero_le _

theorem move_attended (hs : s.Consistent) (h : Move cfg s a s')
    (hattended : s.Attended) (hu : s.Uninterrupted a) : s'.Attended := by
  cases h with
  | inert h => exact h.attended hattended
  | arrives text hroom h =>
    obtain ⟨id, hworker, hlive⟩ := ensureWorker_live (s.queued text)
    exact h.attended fun _ => ⟨id, hworker, hlive⟩
  | takes id item rest hlive hqueue h => exact h.attended (served_attended hs hlive)
  | leaves id hlive hempty h => exact h.attended (attended_of_empty hempty)
  | dies id item await htask hdies h =>
    simp only [Uninterrupted, htask] at hu
    exact h.attended (attended_of_empty (hu hdies))
  | stops h | renews k command sessionId hcommand h => exact h.attended (attended_of_empty rfl)

theorem move_removesEarlier (hs : s.Consistent) (h : Move cfg s a s')
    (hearlier : s.RemovesEarlier) (hu : s.Uninterrupted a) : s'.RemovesEarlier := by
  cases h with
  | inert h | leaves id hlive hempty h | dies id item await htask hdies h =>
    exact h.removesEarlier hearlier
  | arrives text hroom h =>
    refine h.removesEarlier ?_
    rwa [RemovesEarlier, arrived_removed]
  | takes id item rest hlive hqueue h =>
    refine h.removesEarlier ?_
    rwa [RemovesEarlier, served_removed]
  | stops h =>
    have hpast : ∀ item ∈ s.queue, item.turnId < s.clock := fun item => waiting_past hs
    exact h.removesEarlier (drained_removesEarlier.mpr ⟨hearlier, hpast⟩)
  | renews k command sessionId hcommand h =>
    simp only [Uninterrupted, hcommand] at hu
    exact h.removesEarlier (drained_removesEarlier.mpr ⟨hearlier, hu⟩)

theorem uninterrupted_worker (h : s.workerStep cfg id answer = some s') (hattended : s'.Attended) :
    s.Uninterrupted (.worker id answer) := by
  simp only [Uninterrupted]
  split
  · next item await htask =>
    intro hdies
    have hlive : s.Live id := by simp [Live, htask]
    simp only [workerStep, htask] at h
    obtain ⟨hlives, -⟩ | ⟨-, t, ht, rfl⟩ := processStep_spec hlive h
    · exact absurd hdies hlives
    · by_contra hqueue
      have hwaiting : (t.workerExit id).queue ≠ [] := by
        rw [← ht.queue] at hqueue
        exact hqueue
      obtain ⟨k, hworker, -⟩ := hattended hwaiting
      cases hworker
  · trivial

theorem uninterrupted_command {k : Nat}
    (h : routeStep cfg s (.command k answer) = some s') (hearlier : s'.RemovesEarlier) :
    s.Uninterrupted (.command k answer) := by
  unfold Uninterrupted
  split
  · trivial
  · next k sessionId heq =>
    cases heq
    split
    · next command hcommand =>
      simp only [routeStep, hcommand, commandStep, Option.map_some, Option.some.injEq] at h
      have hdrained : (s.drainQueue command).Inert s' := by
        rw [← h]
        exact bindNew_inert.later _ (Nat.le_refl _)
      refine (drained_removesEarlier (s := s)).mp ?_ |>.2
      intro turnId command' hmem
      exact hearlier turnId command' (by rwa [hdrained.removed])
    · trivial
  · trivial

theorem step_serialized_iff (hs : s.Consistent) (h : s.Serialized cfg)
    (hstep : routeStep cfg s a = some s') : s'.Serialized cfg ↔ s.Uninterrupted a := by
  have hmove := routeStep_move hstep
  have hs' := move_consistent hs hmove
  obtain ⟨hbounded, hattended, hearlier⟩ := (serialized_iff hs).mp h
  rw [serialized_iff hs']
  constructor
  · rintro ⟨-, hattended', hearlier'⟩
    cases a with
    | inbound message | setAgent agentId => trivial
    | worker id answer => exact uninterrupted_worker hstep hattended'
    | command k answer => exact uninterrupted_command hstep hearlier'
  · intro hu
    exact ⟨move_bounded hmove hbounded, move_attended hs hmove hattended hu,
      move_removesEarlier hs hmove hearlier hu⟩

theorem fresh_consistent (agentId activeSession : Option String) :
    (fresh agentId activeSession).Consistent where
  only _ hlive := nomatch hlive
  unused _ _ hlive := nomatch hlive
  accounted := accounted_empty
  past _ hmem := nomatch hmem
  once := List.nodup_nil

theorem fresh_serialized (cfg : RouterConfig) (agentId activeSession : Option String) :
    (fresh agentId activeSession).Serialized cfg := by
  refine (serialized_iff (fresh_consistent agentId activeSession)).mpr ⟨?_, ?_, ?_⟩
  · exact Nat.zero_le _
  · exact attended_of_empty rfl
  · exact fun _ _ hmem => nomatch hmem

/-- Over every run of a route: its queue is served one message at a time, in order and
without a loss, if and only if no step interrupts it. -/
theorem route_serialized_iff (cfg : RouterConfig) (agentId activeSession : Option String)
    (as : List RouteAction) :
    Always (routeStep cfg) (Serialized cfg) (fresh agentId activeSession) as ↔
      Guarded (routeStep cfg) Uninterrupted (fresh agentId activeSession) as :=
  always_iff_guarded (fun _ _ _ hs _ _ hstep => move_consistent hs (routeStep_move hstep))
    (fun _ _ _ hs h hstep => step_serialized_iff hs h hstep)
    (fresh_consistent agentId activeSession) (fresh_serialized cfg agentId activeSession)

def plainRouter : RouterConfig where
  requestedDepth := 3
  canEdit := false
  plan := fun text _ => [text]
  renderError := fun code => code

/-- While the placeholder of the first message is sent, a second one arrives; the adapter
reconnects and cancels the send. -/
def cancelledPlaceholder : List RouteAction :=
  [.inbound (.plain "first"), .worker 0 .done, .worker 0 (.session "s"),
    .inbound (.plain "second"), .worker 0 .cancelled]

theorem waiting_without_worker :
    ¬ ∀ cfg agentId activeSession as,
      Always (routeStep cfg) (Serialized cfg) (fresh agentId activeSession) as := by
  intro h
  have hend : ∃ s item, run (routeStep plainRouter) (fresh (some "agent") none)
      cancelledPlaceholder = some s ∧ s.queue = [item] ∧ s.worker = none :=
    ⟨_, _, rfl, rfl, rfl⟩
  obtain ⟨s, item, hrun, hqueue, hworker⟩ := hend
  have hserialized := always_last
    (h plainRouter (some "agent") none cancelledPlaceholder) hrun
  obtain ⟨id, hid, -⟩ := hserialized.served item [] hqueue
  rw [hworker] at hid
  cases hid

end RouteState

end WittyService
