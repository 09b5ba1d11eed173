import WittyService.RouteInvariants

/-! Which turn a `/stop` aborts. -/
namespace WittyService

open GuardedRuns ServiceQueues

namespace RouteEvent

/-- The `/stop` and the turn that it aborts. -/
def aborted? : RouteEvent → Option (Nat × Nat)
  | aborted command turnId _ => some (command, turnId)
  | _ => none

def ByWorker : RouteEvent → Prop
  | taken _ | ended _ | sent (some _) _ _ => True
  | _ => False

end RouteEvent

namespace RouteState

variable {cfg : RouterConfig} {s s' t : RouteState} {id : Nat} {item : QueuedMessage}

def aborts (s : RouteState) : List (Nat × Nat) := s.trace.filterMap RouteEvent.aborted?

/-- A `/stop` aborts turns only of messages received before it, and only an aborted turn is
noted as stopped. -/
structure StopPrecise (s : RouteState) : Prop where
  aborted : ∀ command turnId, (command, turnId) ∈ s.aborts → turnId < command
  stopped : ∀ turnId, s.stoppedTurnId = some turnId → ∃ command, (command, turnId) ∈ s.aborts

/-- When the notices of a `/stop` are out, the turn that runs, if it can be aborted, is that of
the message which the `/stop` found in process. -/
def StopsFound (s : RouteState) : RouteAction → Prop
  | .command k (.sent _ _) => ∀ command found turn,
      s.commands[k]? = some (.stopNotices command found 0) → s.current = some turn →
        s.agentId.isSome → found = some turn.turnId
  | _ => True

theorem takingEvents_byWorker : ∀ event ∈ s.takingEvents, event.ByWorker := by
  intro event hmem
  obtain ⟨turnId, rfl | rfl⟩ := mem_takingEvents hmem
  · trivial
  · trivial

variable {turnId command left : Nat} {event : RouteEvent} {answer : Answer} {a : RouteAction}
  {found : Option Nat} {await : ProcessAwait} {message : Inbound}

theorem spoken_byWorker {muted : Prop} (h : event.Spoken turnId muted) : event.ByWorker := by
  cases event with
  | ended turnId => trivial
  | sent turnId? text edit =>
    cases turnId? with
    | none => cases h
    | some id => trivial
  | _ => cases h

theorem worker_trace (hs : s.Tracked) (h : s.workerStep cfg id answer = some s') :
    ∃ events, s'.trace = s.trace ++ events ∧ ∀ event ∈ events, event.ByWorker := by
  unfold workerStep at h
  split at h
  · cases h
  · cases h
    exact ⟨s.takingEvents, takeNext_trace, takingEvents_byWorker⟩
  · next item await htask =>
    have hserving : s.Serving item await := ⟨id, htask⟩
    have hcontinues := processStep_continues (hs.owns item await hserving)
      (hs.published item await hserving) h
    cases hcontinues with
    | suspended t await' hspeaks howns hturn hmuted heq | left t hspeaks heq =>
      obtain ⟨events, htrace, hspoken⟩ := hspeaks.trace
      rw [heq]
      exact ⟨events, htrace, fun event hmem => spoken_byWorker (hspoken event hmem)⟩
    | ended t hspeaks heq =>
      obtain ⟨events, htrace, hspoken⟩ := hspeaks.trace
      refine ⟨events ++ t.takingEvents, ?_, fun event hmem => ?_⟩
      · rw [heq, takeNext_trace, htrace, List.append_assoc]
      · obtain hmem | hmem := List.mem_append.mp hmem
        · exact spoken_byWorker (hspoken event hmem)
        · exact takingEvents_byWorker event hmem

theorem aborts_append {events : List RouteEvent} (htrace : s'.trace = s.trace ++ events)
    (h : ∀ event ∈ events, event.aborted? = none) : s'.aborts = s.aborts := by
  have hnone : events.filterMap RouteEvent.aborted? = [] := List.filterMap_eq_nil_iff.mpr h
  rw [aborts, htrace, List.filterMap_append, hnone, List.append_nil]
  rfl

theorem worker_aborts (hs : s.Tracked)
    (h : s.workerStep cfg id answer = some s') : s'.aborts = s.aborts := by
  obtain ⟨events, htrace, hworker⟩ := worker_trace hs h
  refine aborts_append htrace fun event hmem => ?_
  have hby := hworker event hmem
  cases event with
  | aborted command turnId sessionId => cases hby
  | _ => rfl

theorem leave_stopped (s : RouteState) (turn : TurnContext) :
    (s.leave turn).stoppedTurnId = s.stoppedTurnId ∨ (s.leave turn).stoppedTurnId = none := by
  unfold leave
  split
  · exact .inr rfl
  · exact .inl rfl

theorem worker_stopped (h : s.workerStep cfg id answer = some s') :
    s'.stoppedTurnId = s.stoppedTurnId ∨ s'.stoppedTurnId = none := by
  have hfinish {t : RouteState} {item : QueuedMessage} {turn : TurnContext}
      {outcome : TurnOutcome} {lastText : Option String}
      (hstopped : t.stoppedTurnId = s.stoppedTurnId) :
      (t.finishTurn cfg id item turn outcome lastText).stoppedTurnId = s.stoppedTurnId ∨
        (t.finishTurn cfg id item turn outcome lastText).stoppedTurnId = none := by
    rw [finishTurn_keeps.stopped, ← hstopped]
    exact leave_stopped ..
  unfold workerStep at h
  split at h
  · cases h
  · cases h
    exact .inl takeNext_keeps.stopped
  · next item await htask =>
    cases processStep_case h with
    | ends hends => exact .inl endMessage_keeps.stopped
    | cancels hcancels => exact .inl cancelMessage_keeps.stopped
    | refuses bound code message | runs turn await' hrunning hopen hrunning'
      | defers turn outcome hfirst edit hedit | noticed turn outcome edited delivered ref
      | asks turn outcome requestId hfirst => exact .inl rfl
    | resolves bound sessionId =>
      unfold sendPlaceholder
      split
      · exact .inl rfl
      · exact .inl rfl
    | starts turn delivered ref lastText =>
      unfold startTurn
      extract_lets turn' ref' u
      split
      · exact hfinish rfl
      · exact .inl rfl
    | joins turn exit lastText =>
      cases exit with
      | outcome outcome => exact hfinish rfl
      | raised => exact .inl endMessage_keeps.stopped
      | cancelled => exact .inl cancelMessage_keeps.stopped
    | delivers turn final ref rest delivered sentRef =>
      split
      · exact .inl deliver_keeps.stopped
      · exact .inl clear_keeps.stopped

/-! What a `/stop` knows of the queue while it sends its notices. -/

/-- Everything received before the `/stop` is gone from the queue, and of it only the message
found can still be in process. -/
structure NoticeKnows (s : RouteState) (command : Nat) (found : Option Nat) : Prop where
  past : command < s.clock
  queue : ∀ item ∈ s.queue, command < item.turnId
  earlier : ∀ turnId, found = some turnId → turnId < command
  serving : ∀ item await, s.Serving item await → item.turnId < command →
    found = some item.turnId

def NoticesKnow (s : RouteState) : Prop :=
  ∀ command found left, .stopNotices command found left ∈ s.commands → s.NoticeKnows command found

def QueueGrows (s s' : RouteState) : Prop :=
  s.clock ≤ s'.clock ∧ ∀ item ∈ s'.queue, item ∈ s.queue ∨ item.turnId = s.clock

theorem move_queueGrows (h : Move cfg s a s') : s.QueueGrows s' := by
  cases h with
  | inert h | leaves id hlive hempty h =>
    exact ⟨h.clock, fun item hmem => .inl (by rwa [h.queue] at hmem)⟩
  | arrives text hroom h =>
    refine ⟨Nat.le_trans (Nat.le_succ _) h.clock, fun item hmem => ?_⟩
    rw [h.queue, arrived_queue] at hmem
    obtain hold | hnew := List.mem_append.mp hmem
    · exact .inl hold
    · rw [List.mem_singleton.mp hnew]
      exact .inr rfl
  | takes id item rest hlive hqueue h =>
    refine ⟨h.clock, fun item' hmem => .inl ?_⟩
    rw [h.queue] at hmem
    rw [hqueue]
    exact List.mem_cons_of_mem _ hmem
  | dies id item await htask hdies h =>
    exact ⟨h.clock, fun item hmem => .inl (by rwa [h.queue] at hmem)⟩
  | stops h | renews k command sessionId hcommand h =>
    refine ⟨h.clock, fun item hmem => ?_⟩
    rw [h.queue] at hmem
    cases hmem

theorem NoticeKnows.step (h : s.NoticeKnows command found) (hgrows : s.QueueGrows s')
    (hserving : ∀ item await, s'.Serving item await →
      item ∈ s.queue ∨ ∃ before, s.Serving item before) : s'.NoticeKnows command found where
  past := Nat.lt_of_lt_of_le h.past hgrows.1
  queue item hmem := by
    obtain hold | hnew := hgrows.2 item hmem
    · exact h.queue item hold
    · rw [hnew]
      exact h.past
  earlier := h.earlier
  serving item await hnow hless := by
    obtain hwaited | ⟨before, hbefore⟩ := hserving item await hnow
    · exact absurd hless (Nat.not_lt.mpr (Nat.le_of_lt (h.queue item hwaited)))
    · exact h.serving item before hbefore hless

theorem WorkerEffect.served (h : s.WorkerEffect s')
    (hserving : s'.Serving item await) : item ∈ s.queue ∨ ∃ before, s.Serving item before := by
  obtain hbegins | ⟨before, hgoes⟩ := h.serving item await hserving
  · exact .inl hbegins.waited
  · exact .inr ⟨before, hgoes.serving⟩

theorem step_served (hs : s.Sound) (h : routeStep cfg s a = some s')
    (hserving : s'.Serving item await) :
    item ∈ s.queue ∨ ∃ before, s.Serving item before := by
  obtain ⟨id, answer, rfl⟩ | haside := worker_or_aside h
  · exact (worker_effect hs.consistent hs.tracked h).served hserving
  · exact .inr ⟨await, haside.serving item await hserving⟩

theorem Consistent.processing_of_serving (hs : s.Consistent)
    (h : s.Serving item await) : s.processing = some item.turnId := by
  obtain ⟨id, hid⟩ := h
  have hworker : s.worker = some id := hs.only id (by simp [Live, hid])
  simp [processing, hworker, hid]

theorem mem_enqueued_of_taken (hs : s.Consistent) (h : turnId ∈ s.taken) :
    turnId < s.clock :=
  hs.past turnId (hs.accounted.taken_sublist.subset h)

theorem handleInbound_notices
    (hmem : .stopNotices command found left ∈ (s.handleInbound cfg message).commands) :
    .stopNotices command found left ∈ s.commands ∨
      (message = .stop ∧ (s.handleInbound cfg .stop).queue = [] ∧ command = s.clock ∧
        found = s.processing) := by
  have happended (new : CommandTask) (hnew : ∀ left, new ≠ .stopNotices command found left)
      (h : .stopNotices command found left ∈ s.commands ++ [new]) :
      .stopNotices command found left ∈ s.commands := by
    obtain h | h := List.mem_append.mp h
    · exact h
    · exact absurd (List.mem_singleton.mp h).symm (hnew left)
  cases message with
  | plain text =>
    simp only [handleInbound] at hmem
    split at hmem
    · exact .inl (happended .reply (by rintro _ ⟨⟩) hmem)
    · have hcommands : (s.queued text).ensureWorker.commands = s.commands := ensureWorker_commands
      refine .inl ?_
      rw [← hcommands]
      exact hmem
  | stop =>
    simp only [handleInbound, handleStop] at hmem ⊢
    split at hmem
    · refine .inl (happended _ (fun left' => ?_) hmem)
      unfold stopCurrent
      split
      · rintro ⟨⟩
      · rintro ⟨⟩
    · obtain h | h := List.mem_append.mp hmem
      · exact .inl h
      · cases List.mem_singleton.mp h
        exact .inr ⟨trivial, rfl, rfl, rfl⟩
  | new =>
    simp only [handleInbound, handleNew] at hmem
    split at hmem
    · exact .inl (happended .reply (by rintro _ ⟨⟩) hmem)
    · exact .inl (happended (.newSession s.clock) (by rintro _ ⟨⟩) hmem)
  | other => exact .inl hmem

theorem commandStep_notices {task : CommandTask}
    {result : RouteState × Option CommandTask} (h : s.commandStep cfg task answer = some result)
    (hafter : result.2 = some (.stopNotices command found left)) :
    ∃ left', task = .stopNotices command found left' := by
  unfold commandStep at h
  split at h <;> cases h
  · unfold stopCurrent at hafter
    split at hafter
    · cases hafter
    · cases hafter
  · cases hafter
    exact ⟨_, rfl⟩
  all_goals cases hafter

theorem step_notices (hs : s.Sound) (h : routeStep cfg s a = some s')
    (hmem : .stopNotices command found left ∈ s'.commands) :
    (∃ left', .stopNotices command found left' ∈ s.commands) ∨
      (a = .inbound .stop ∧ s'.queue = [] ∧ command = s.clock ∧ found = s.processing) := by
  cases a with
  | inbound message =>
    cases h
    obtain hold | ⟨rfl, hempty, hcommand, hfound⟩ := handleInbound_notices hmem
    · exact .inl ⟨left, hold⟩
    · exact .inr ⟨rfl, hempty, hcommand, hfound⟩
  | setAgent agentId =>
    cases h
    exact .inl ⟨left, hmem⟩
  | worker id answer =>
    rw [(worker_effect hs.consistent hs.tracked h).commands] at hmem
    exact .inl ⟨left, hmem⟩
  | command k answer =>
    simp only [routeStep] at h
    split at h
    · cases h
    · next earlier hearlier =>
      obtain ⟨result, hresult, rfl⟩ := Option.map_eq_some_iff.mp h
      simp only [List.mem_append] at hmem
      obtain (hfront | hnew) | hback := hmem
      · exact .inl ⟨left, List.mem_of_mem_take hfront⟩
      · obtain ⟨left', rfl⟩ := commandStep_notices hresult (Option.mem_toList.mp hnew)
        exact .inl ⟨left', List.mem_of_getElem? hearlier⟩
      · exact .inl ⟨left, List.mem_of_mem_drop hback⟩

theorem step_noticesKnow (hs : s.Sound) (hknow : s.NoticesKnow)
    (h : routeStep cfg s a = some s') : s'.NoticesKnow := by
  have hgrows : s.QueueGrows s' := move_queueGrows (routeStep_move h)
  intro command found left hmem
  obtain ⟨left', hold⟩ | ⟨rfl, hempty, rfl, rfl⟩ := step_notices hs h hmem
  · exact (hknow command found left' hold).step hgrows fun item await => step_served hs h
  · have haside : s.Aside s' := inbound_aside h
    cases h
    refine ⟨Nat.lt_succ_self _, fun item hitem => ?_, fun turnId hprocessing => ?_,
      fun item await hserving _ => ?_⟩
    · rw [hempty] at hitem
      cases hitem
    · exact mem_enqueued_of_taken hs.consistent (hs.tracked.processing hprocessing)
    · exact hs.consistent.processing_of_serving (haside.serving item await hserving)

/-! A step keeps `/stop` precise exactly when it hits the message found. -/

theorem StopPrecise.same (h : s.StopPrecise) (haborts : s'.aborts = s.aborts)
    (hstopped : s'.stoppedTurnId = s.stoppedTurnId ∨ s'.stoppedTurnId = none) :
    s'.StopPrecise := by
  refine ⟨fun command turnId hmem => ?_, fun turnId hturnId => ?_⟩
  · rw [haborts] at hmem
    exact h.aborted command turnId hmem
  · rw [haborts]
    obtain hsame | hnone := hstopped
    · rw [hsame] at hturnId
      exact h.stopped turnId hturnId
    · rw [hnone] at hturnId
      cases hturnId

theorem stopCurrent_precise (h : s.StopPrecise) : (s.stopCurrent command found).1.StopPrecise ↔
      ∀ turn, s.current = some turn → s.agentId.isSome → turn.turnId < command := by
  unfold stopCurrent
  split
  · next turn agentId hcurrent hagent =>
    have haborts : ({ s with stoppedTurnId := some turn.turnId }.emit
        (.aborted command turn.turnId turn.sessionId)).aborts =
          s.aborts ++ [(command, turn.turnId)] := by
      simp [aborts, emit, RouteEvent.aborted?]
    have hnew : (command, turn.turnId) ∈ s.aborts ++ [(command, turn.turnId)] :=
      List.mem_append_right _ (List.mem_singleton_self _)
    constructor
    · intro hprecise turn' hturn' _
      rw [hcurrent] at hturn'
      cases hturn'
      refine hprecise.aborted command turn.turnId ?_
      rw [haborts]
      exact hnew
    · intro hearlier
      refine ⟨fun command' turnId hmem => ?_, fun turnId hturnId => ?_⟩
      · rw [haborts] at hmem
        obtain hold | heq := List.mem_append.mp hmem
        · exact h.aborted command' turnId hold
        · cases List.mem_singleton.mp heq
          exact hearlier turn hcurrent (by simp [hagent])
      · rw [haborts]
        cases hturnId
        exact ⟨command, hnew⟩
  · next hidle =>
    have haborts : (s.emit (.stopAck command found true)).aborts = s.aborts := by
      simp [aborts, emit, RouteEvent.aborted?]
    refine ⟨fun _ turn hturn hagent => ?_, fun _ => h.same haborts (.inl rfl)⟩
    obtain ⟨agentId, hagent⟩ := Option.isSome_iff_exists.mp hagent
    exact absurd hagent (hidle turn agentId hturn)

theorem emit_aborts (h : event.aborted? = none) : (s.emit event).aborts = s.aborts := by
  simp [aborts, emit, h]

theorem say_aborts {turnId : Option Nat} {text : OutboundText} {edit : Option String} :
    (s.say turnId text edit).aborts = s.aborts :=
  emit_aborts rfl

theorem drainQueue_aborts : (s.drainQueue command).aborts = s.aborts := by
  simp [aborts, drainQueue, List.filterMap_map, Function.comp_def, RouteEvent.aborted?]

theorem ensureWorker_stopped : s.ensureWorker.stoppedTurnId = s.stoppedTurnId := by
  unfold ensureWorker
  split
  · split_ifs
    · rfl
    · rfl
  · rfl

theorem StopPrecise.withCommands (commands : List CommandTask) (clock : Nat) :
    { s with commands := commands, clock := clock }.StopPrecise ↔ s.StopPrecise :=
  ⟨fun h => ⟨h.aborted, h.stopped⟩, fun h => ⟨h.aborted, h.stopped⟩⟩

theorem inbound_precise (hs : s.Sound) (hprecise : s.StopPrecise)
    (h : routeStep cfg s (.inbound message) = some s') : s'.StopPrecise := by
  cases h
  cases message with
  | plain text =>
    simp only [handleInbound]
    split
    · exact hprecise.same say_aborts (.inl rfl)
    · have haborts : (s.queued text).ensureWorker.aborts = s.aborts := by
        simp [aborts, ensureWorker_trace, queued, RouteEvent.aborted?]
      exact hprecise.same haborts (.inl ensureWorker_stopped)
  | stop =>
    simp only [handleInbound, handleStop]
    split
    · refine (StopPrecise.withCommands _ _).mpr ((stopCurrent_precise hprecise).mpr ?_)
      intro turn hturn _
      obtain ⟨item, await, hserving, -, hturnId⟩ := hs.current turn hturn
      rw [← hturnId]
      exact mem_enqueued_of_taken hs.consistent (hs.tracked.taken item await hserving)
    · exact hprecise.same (say_aborts.trans drainQueue_aborts) (.inl rfl)
  | new =>
    simp only [handleInbound, handleNew]
    split
    · exact hprecise.same say_aborts (.inl rfl)
    · exact hprecise.same rfl (.inl rfl)
  | other => exact hprecise.same rfl (.inl rfl)

theorem NoticeKnows.target (hs : s.Sound)
    (hknow : s.NoticeKnows command found) {turn : TurnContext} (hturn : s.current = some turn) :
    turn.turnId < command ↔ found = some turn.turnId := by
  obtain ⟨item, await, hserving, -, hturnId⟩ := hs.current turn hturn
  rw [← hturnId]
  exact ⟨hknow.serving item await hserving, hknow.earlier item.turnId⟩

theorem command_precise_iff (hs : s.Sound) (hknow : s.NoticesKnow) (hprecise : s.StopPrecise)
    {k : Nat} (h : routeStep cfg s (.command k answer) = some s') :
    s'.StopPrecise ↔ s.StopsFound (.command k answer) := by
  simp only [routeStep] at h
  split at h
  · cases h
  · next task htask =>
    obtain ⟨result, hresult, rfl⟩ := Option.map_eq_some_iff.mp h
    refine (StopPrecise.withCommands _ _).trans ?_
    have hmem : task ∈ s.commands := List.mem_of_getElem? htask
    have hother (hstep : result.1.StopPrecise)
        (hno : ∀ command found, task ≠ .stopNotices command found 0) :
        result.1.StopPrecise ↔ s.StopsFound (.command k answer) := by
      refine ⟨fun _ => ?_, fun _ => hstep⟩
      unfold StopsFound
      split
      · next k' delivered ref heq =>
        cases heq
        intro command found turn hcommand
        rw [htask] at hcommand
        exact absurd (Option.some.inj hcommand) (hno command found)
      · trivial
    unfold commandStep at hresult
    split at hresult <;> cases hresult
    · next command found delivered ref =>
      refine (stopCurrent_precise hprecise).trans ?_
      have htarget {turn : TurnContext} (hturn : s.current = some turn) :=
        (hknow command found 0 hmem).target hs hturn
      constructor
      · intro hearlier command' found' turn hcommand hturn hagent
        rw [htask] at hcommand
        cases hcommand
        exact (htarget hturn).mp (hearlier turn hturn hagent)
      · intro hfound turn hturn hagent
        exact (htarget hturn).mpr (hfound command found turn htask hturn hagent)
    · exact hother (hprecise.same say_aborts (.inl rfl)) (by rintro _ _ ⟨⟩)
    · exact hother (hprecise.same (emit_aborts rfl) (.inl rfl)) (by rintro _ _ ⟨⟩)
    · exact hother (hprecise.same (say_aborts.trans drainQueue_aborts) (.inl rfl))
        (by rintro _ _ ⟨⟩)
    · exact hother (hprecise.same say_aborts (.inl rfl)) (by rintro _ _ ⟨⟩)
    · exact hother hprecise (by rintro _ _ ⟨⟩)
    · exact ⟨fun _ => trivial, fun _ => hprecise⟩
    · exact ⟨fun _ => trivial, fun _ => hprecise⟩

theorem step_precise_iff (hs : s.Sound) (hknow : s.NoticesKnow)
    (hprecise : s.StopPrecise) (h : routeStep cfg s a = some s') :
    s'.StopPrecise ↔ s.StopsFound a := by
  cases a with
  | inbound message => exact ⟨fun _ => trivial, fun _ => inbound_precise hs hprecise h⟩
  | setAgent agentId =>
    cases h
    exact ⟨fun _ => trivial, fun _ => hprecise.same rfl (.inl rfl)⟩
  | worker id answer =>
    refine ⟨fun _ => trivial, fun _ => ?_⟩
    exact hprecise.same (worker_aborts hs.tracked h) (worker_stopped h)
  | command k answer => exact command_precise_iff hs hknow hprecise h

theorem fresh_precise (agentId activeSession : Option String) :
    (fresh agentId activeSession).StopPrecise :=
  ⟨nofun, nofun⟩

/-- Over every run of a route: a `/stop` aborts only turns of messages received before it, if
and only if it finds, once its notices are out, no turn running that it had not found before. -/
theorem stop_precise_iff (cfg : RouterConfig) (agentId activeSession : Option String)
    (as : List RouteAction) :
    Always (routeStep cfg) StopPrecise (fresh agentId activeSession) as ↔
      Guarded (routeStep cfg) StopsFound (fresh agentId activeSession) as := by
  have hkept : ∀ s a s', s.Sound ∧ s.NoticesKnow → s.StopPrecise → s'.StopPrecise →
      routeStep cfg s a = some s' → s'.Sound ∧ s'.NoticesKnow :=
    fun s a s' hs _ _ hstep => ⟨step_sound hs.1 hstep, step_noticesKnow hs.1 hs.2 hstep⟩
  exact always_iff_guarded hkept
    (fun s a s' hs hprecise hstep => step_precise_iff hs.1 hs.2 hprecise hstep)
    ⟨fresh_sound agentId activeSession, nofun⟩ (fresh_precise agentId activeSession)

/-- While the notice of a `/stop` is being sent, the turn it found ends and the turn of a
message that came after it begins. -/
def stoppedSuccessor : List RouteAction :=
  [.inbound (.plain "first"), .worker 0 .done, .worker 0 (.session "s"),
    .worker 0 (.placeholderSent true none none), .inbound (.plain "waiting"), .inbound .stop,
    .inbound (.plain "later"), .worker 0 (.signal (.terminal (some "answer"))),
    .worker 0 (.pumpDone none), .worker 0 (.sent true none), .worker 0 (.session "s"),
    .worker 0 (.placeholderSent true none none), .command 0 (.sent true none)]

theorem later_message_aborted :
    ¬ ∀ cfg agentId activeSession as,
      Always (routeStep cfg) StopPrecise (fresh agentId activeSession) as := by
  intro h
  have hend : ∃ s, run (routeStep plainRouter) (fresh (some "agent") none) stoppedSuccessor =
      some s ∧ (2, 3) ∈ s.aborts :=
    ⟨_, rfl, by decide⟩
  obtain ⟨s, hrun, haborted⟩ := hend
  have hprecise := always_last (h plainRouter (some "agent") none stoppedSuccessor) hrun
  exact absurd (hprecise.aborted 2 3 haborted) (by decide)

end RouteState

end WittyService
