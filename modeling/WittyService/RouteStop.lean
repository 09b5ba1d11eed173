import WittyService.RouteTurn

/-! What follows the acknowledgement of a `/stop`. -/
namespace WittyService

open GuardedRuns ServiceQueues

/-- The later event does not conclude a message whose `/stop` the earlier one acknowledges. -/
def RouteEvent.Heeds (earlier later : RouteEvent) : Prop :=
  ∀ command turnId idle, earlier = .stopAck command (some turnId) idle → ¬ later.Concludes turnId

/-- The message a `/stop` under way found in process. -/
def CommandTask.found? : CommandTask → Option Nat
  | stopNotices _ found _ | stopAbort _ found => found
  | newSession _ | reply => none

namespace RouteState

variable {cfg : RouterConfig} {s s' t : RouteState} {turnId : Nat}

/-- After the acknowledgement of a `/stop` no answer and no error text is sent of the message
that it found in process. -/
def StopEffective (s : RouteState) : Prop := s.trace.Pairwise RouteEvent.Heeds

/-- The step is the one in which a `/stop` that found the message in process looks at the
running turn. -/
def Looks (s : RouteState) (turnId : Nat) : RouteAction → Prop
  | .inbound .stop => s.queue = [] ∧ s.processing = some turnId
  | .command k (.sent _ _) => ∃ command, s.commands[k]? = some (.stopNotices command turnId 0)
  | _ => False

/-- If the message is still in process, then its turn is published and the agent bound, or its
last text is out. -/
def Reachable (s : RouteState) (turnId : Nat) : Prop :=
  ∀ item await, s.Serving item await → item.turnId = turnId →
    (await.InTurn ∧ s.agentId.isSome) ∨ await.Over

/-- Every `/stop` comes to look when it can still reach the message it found. -/
def HeardInTime (s : RouteState) (a : RouteAction) : Prop :=
  ∀ turnId, s.Looks turnId a → s.Reachable turnId

/-- The step leaves the messages in process alone; it says nothing that concludes one, and
notes at most the running turn as stopped. -/
structure Aside (s s' : RouteState) : Prop where
  serving : ∀ item await, s'.Serving item await → s.Serving item await
  trace : ∃ events, s'.trace = s.trace ++ events ∧
    ∀ event ∈ events, ∀ turnId, ¬ event.Concludes turnId
  current : s'.current = s.current
  stopped : s'.stoppedTurnId = s.stoppedTurnId ∨
    s'.stoppedTurnId = s.current.map TurnContext.turnId

namespace Aside

theorem refl (s : RouteState) : s.Aside s :=
  ⟨fun _ _ h => h, ⟨[], (List.append_nil _).symm, nofun⟩, rfl, .inl rfl⟩

theorem trans (h : s.Aside t) (h' : t.Aside s') : s.Aside s' := by
  obtain ⟨events, htrace, hopen⟩ := h.trace
  obtain ⟨events', htrace', hopen'⟩ := h'.trace
  refine ⟨fun item await hserving => h.serving _ _ (h'.serving _ _ hserving),
    ⟨events ++ events', ?_, fun event hmem => ?_⟩, h'.current.trans h.current, ?_⟩
  · rw [htrace', htrace, List.append_assoc]
  · obtain hmem | hmem := List.mem_append.mp hmem
    · exact hopen event hmem
    · exact hopen' event hmem
  · obtain hkept | hnoted := h'.stopped
    · rw [hkept]
      exact h.stopped
    · rw [hnoted, h.current]
      exact .inr rfl

theorem emit {event : RouteEvent} (h : ∀ turnId, ¬ event.Concludes turnId) :
    s.Aside (s.emit event) :=
  ⟨fun _ _ hserving => hserving, ⟨[event], rfl, by simpa using h⟩, rfl, .inl rfl⟩

theorem say {text : OutboundText} {edit : Option String} : s.Aside (s.say none text edit) :=
  emit fun _ hconcludes => hconcludes

theorem withCommands (h : s.Aside s') (commands : List CommandTask) (clock : Nat) :
    s.Aside { s' with commands := commands, clock := clock } :=
  ⟨h.serving, h.trace, h.current, h.stopped⟩

end Aside

theorem drainQueue_aside {command : Nat} : s.Aside (s.drainQueue command) := by
  refine ⟨fun _ _ h => h, ⟨_, rfl, fun event hmem turnId => ?_⟩, rfl, .inl rfl⟩
  obtain ⟨item, -, rfl⟩ := List.mem_map.mp hmem
  exact not_false

theorem ensureWorker_aside : s.Aside s.ensureWorker := by
  have hcreated : s.Aside s.createWorker := by
    refine ⟨fun item await hserving => ?_, ⟨[], (List.append_nil _).symm, nofun⟩, rfl, .inl rfl⟩
    obtain ⟨k, hk⟩ := hserving
    by_cases hnew : k = s.nextTask
    · simp [createWorker, hnew] at hk
    · exact ⟨k, by simpa [createWorker, hnew] using hk⟩
  unfold ensureWorker
  split
  · split_ifs
    · exact .refl s
    · exact hcreated
  · exact hcreated

theorem stopCurrent_aside {command : Nat} {found : Option Nat} :
    s.Aside (s.stopCurrent command found).1 := by
  unfold stopCurrent
  split
  · next turn agentId hcurrent hagent =>
    have hnoted : s.Aside { s with stoppedTurnId := some turn.turnId } :=
      ⟨fun _ _ h => h, ⟨[], (List.append_nil _).symm, nofun⟩, rfl, .inr (by simp [hcurrent])⟩
    exact hnoted.trans (.emit fun _ hconcludes => hconcludes)
  · exact .emit fun _ hconcludes => hconcludes

/-! What a `/stop` promises, from the moment it has looked at the running turn. -/

def Acked (s : RouteState) (turnId : Nat) : Prop :=
  ∃ command idle, .stopAck command (some turnId) idle ∈ s.trace

/-- A `/stop` that found the message has been acknowledged, or will be without another look. -/
def Promised (s : RouteState) (turnId : Nat) : Prop :=
  s.Acked turnId ∨ ∃ command, .stopAbort command (some turnId) ∈ s.commands

/-- The running turn, if the agent can be told to abort it, is noted as stopped. -/
def Notes (s s' : RouteState) : Prop :=
  s.current.isSome → s.agentId.isSome → s'.stoppedTurnId = s.current.map TurnContext.turnId

/-- A step of the command `before` that leaves `after`: what is promised was promised before,
or the command has looked at the running turn. -/
structure CommandEffect (s : RouteState) (looks : Option Nat → Prop) (before : Option Nat)
    (s' : RouteState) (after : Option CommandTask) : Prop where
  aside : s.Aside s'
  found : ∀ command, after = some command → ∀ turnId, command.found? = some turnId →
    before = some turnId
  promised : ∀ turnId, (s'.Acked turnId ∨ ∃ command, after = some (.stopAbort command turnId)) →
    s.Promised turnId ∨ (looks turnId ∧ before = some turnId ∧ s.Notes s')

theorem acked_emit {event : RouteEvent} (h : (s.emit event).Acked turnId) :
    s.Acked turnId ∨ ∃ command idle, event = .stopAck command (some turnId) idle := by
  obtain ⟨command, idle, hmem⟩ := h
  obtain hmem | hmem := List.mem_append.mp hmem
  · exact .inl ⟨command, idle, hmem⟩
  · exact .inr ⟨command, idle, (List.mem_singleton.mp hmem).symm⟩

theorem acked_say {turnId? : Option Nat} {text : OutboundText} {edit : Option String}
    (h : (s.say turnId? text edit).Acked turnId) : s.Acked turnId := by
  obtain hold | ⟨command, idle, heq⟩ := acked_emit h
  · exact hold
  · cases heq

theorem stopCurrent_notes {command : Nat} {found : Option Nat} :
    s.Notes (s.stopCurrent command found).1 := by
  intro hturn hagent
  obtain ⟨turn, hturn⟩ := Option.isSome_iff_exists.mp hturn
  obtain ⟨agentId, hagent⟩ := Option.isSome_iff_exists.mp hagent
  simp [stopCurrent, hturn, hagent, emit]

theorem stopCurrent_effect {command : Nat} {found : Option Nat} {looks : Option Nat → Prop}
    (hlooks : looks found) : s.CommandEffect looks found (s.stopCurrent command found).1
      (some (s.stopCurrent command found).2) := by
  refine ⟨stopCurrent_aside, fun next hnext turnId hfound => ?_, fun turnId hpromised => ?_⟩
  · cases hnext
    unfold stopCurrent at hfound
    split at hfound
    · exact hfound
    · cases hfound
  · have hnotes : s.Notes (s.stopCurrent command found).1 := stopCurrent_notes
    by_cases hturnId : found = some turnId
    · exact .inr ⟨hturnId ▸ hlooks, hturnId, hnotes⟩
    · -- what is new is about the message found
      refine .inl (.inl ?_)
      unfold stopCurrent at hpromised
      split at hpromised
      · obtain hacked | ⟨command', heq⟩ := hpromised
        · obtain hold | ⟨command', idle, heq⟩ := acked_emit hacked
          · exact hold
          · cases heq
        · cases heq
          exact absurd rfl hturnId
      · obtain hacked | ⟨command', heq⟩ := hpromised
        · obtain hold | ⟨command', idle, heq⟩ := acked_emit hacked
          · exact hold
          · cases heq
            exact absurd rfl hturnId
        · cases heq

section

variable {looks : Option Nat → Prop} {before : Option Nat}

theorem plain_effect {after : Option CommandTask}
    (haside : s.Aside s') (hacked : ∀ turnId, s'.Acked turnId → s.Acked turnId)
    (hfound : ∀ command, after = some command → ∀ turnId, command.found? = some turnId →
      before = some turnId)
    (habort : ∀ command turnId, after ≠ some (.stopAbort command (some turnId))) :
    s.CommandEffect looks before s' after := by
  refine ⟨haside, hfound, fun turnId hpromised => .inl (.inl ?_)⟩
  obtain h | ⟨command, heq⟩ := hpromised
  · exact hacked turnId h
  · exact absurd heq (habort command turnId)

theorem say_effect {text : OutboundText} :
    s.CommandEffect looks before (s.say none text none) (some .reply) :=
  plain_effect .say (fun _ => acked_say) (fun _ heq _ hfound => by cases heq; cases hfound) nofun

theorem over_effect :
    s.CommandEffect looks before s none :=
  plain_effect (.refl s) (fun _ h => h) nofun nofun

end

theorem drainQueue_acked {command : Nat} (h : (s.drainQueue command).Acked turnId) :
    s.Acked turnId := by
  obtain ⟨number, idle, hmem⟩ := h
  obtain hmem | hmem := List.mem_append.mp hmem
  · exact ⟨number, idle, hmem⟩
  · obtain ⟨item, -, heq⟩ := List.mem_map.mp hmem
    cases heq

theorem handleStop_effect {command : Nat} : s.CommandEffect (fun _ => s.queue = []) s.processing
    (s.handleStop command).1 (some (s.handleStop command).2) := by
  unfold handleStop
  split
  · next hlength => exact stopCurrent_effect (List.length_eq_zero_iff.mp hlength)
  · refine plain_effect (drainQueue_aside.trans .say)
      (fun _ h => drainQueue_acked (acked_say h)) (fun _ heq _ hfound => ?_) nofun
    cases heq
    exact hfound

theorem bindNew_aside {command : Nat} {sessionId : String} :
    s.Aside (s.bindNew command sessionId) := by
  have hbound : s.Aside { s with
      activeSession := some sessionId
      bindingVersion := s.bindingVersion + 1 } :=
    ⟨fun _ _ h => h, ⟨[], (List.append_nil _).symm, nofun⟩, rfl, .inl rfl⟩
  exact hbound.trans (drainQueue_aside.trans .say)

theorem commandStep_effect {command : CommandTask} {answer : Answer}
    {result : RouteState × Option CommandTask}
    (hcommand : command ∈ s.commands) (h : s.commandStep cfg command answer = some result) :
    s.CommandEffect (fun found => (∃ number, command = .stopNotices number found 0) ∧
      ∃ delivered ref, answer = .sent delivered ref) command.found? result.1 result.2 := by
  unfold commandStep at h
  split at h <;> cases h
  · next number found delivered ref =>
    exact stopCurrent_effect ⟨⟨number, rfl⟩, delivered, ref, rfl⟩
  · refine plain_effect .say (fun _ => acked_say) (fun _ heq _ hfound => ?_) nofun
    cases heq
    exact hfound
  · next number found =>
    -- the acknowledgement that the noted stop has promised
    refine ⟨.emit fun _ hconcludes => hconcludes, fun _ heq _ hfound => ?_, fun turnId hpromised =>
      .inl ?_⟩
    · cases heq
      cases hfound
    · obtain hacked | ⟨number', heq⟩ := hpromised
      · obtain hold | ⟨number', idle, heq⟩ := acked_emit hacked
        · exact .inl hold
        · cases heq
          exact .inr ⟨number, hcommand⟩
      · cases heq
  · refine plain_effect bindNew_aside (fun _ h => ?_) (fun _ heq _ hfound => ?_) nofun
    · exact drainQueue_acked (acked_say h)
    · cases heq
      cases hfound
  · exact say_effect
  · exact over_effect
  · exact over_effect
  · exact over_effect

/-- The message was taken, and nothing that concludes it is sent any more. -/
structure Silenced (s : RouteState) (turnId : Nat) : Prop where
  taken : turnId ∈ s.taken
  muted : ∀ item await, s.Serving item await → item.turnId = turnId → s.Muted item await

structure Obedient (s : RouteState) : Prop where
  tracked : s.Tracked
  found : ∀ command ∈ s.commands, ∀ turnId, command.found? = some turnId → turnId ∈ s.taken
  silenced : ∀ turnId, s.Promised turnId → s.Silenced turnId
  effective : s.StopEffective

theorem serving_of_processing (h : s.processing = some turnId) :
    ∃ item await, s.Serving item await ∧ item.turnId = turnId := by
  unfold processing at h
  split at h
  · next item await htask =>
    cases h
    obtain ⟨id, -, hid⟩ := Option.bind_eq_some_iff.mp htask
    exact ⟨item, await, ⟨id, hid⟩, rfl⟩
  · cases h

theorem Tracked.processing (hs : s.Tracked) (h : s.processing = some turnId) :
    turnId ∈ s.taken := by
  obtain ⟨item, await, hserving, rfl⟩ := serving_of_processing h
  exact hs.taken item await hserving

theorem effective_append {events : List RouteEvent} (hs : s.StopEffective)
    (htrace : s'.trace = s.trace ++ events)
    (hold : ∀ turnId, s.Acked turnId → ∀ event ∈ events, ¬ event.Concludes turnId)
    (hnew : ∀ earlier ∈ events, ∀ later ∈ events, earlier.Heeds later) : s'.StopEffective := by
  rw [StopEffective, htrace, List.pairwise_append]
  refine ⟨hs, List.pairwise_of_forall_mem_list hnew, fun earlier hearlier later hlater => ?_⟩
  rintro command turnId idle rfl
  exact hold turnId ⟨command, idle, hearlier⟩ later hlater

theorem WorkerEffect.silenced (h : s.WorkerEffect s') (hs : s.Consistent)
    (hsilenced : s.Silenced turnId) : s'.Silenced turnId := by
  obtain ⟨events, htrace, -⟩ := h.uttered
  refine ⟨taken_of_append htrace hsilenced.taken, fun item await hserving hturnId => ?_⟩
  obtain hbegins | ⟨before, hgoes⟩ := h.serving item await hserving
  · have hwaits : turnId ∈ s.queue.map QueuedMessage.turnId :=
      hturnId ▸ List.mem_map_of_mem hbegins.waited
    exact absurd hwaits (hs.accounted.taken_disjoint hs.once hsilenced.taken)
  · exact hgoes.muted (hsilenced.muted item before hgoes.serving hturnId)

theorem Silenced.not_concluded (hsilenced : s.Silenced turnId) (hs : s.Consistent)
    {event : RouteEvent} (h : s.Utters event) : ¬ event.Concludes turnId := by
  intro hconcludes
  obtain ⟨item, await, hserving, hturnId, hloud⟩ | ⟨item, hitem, hturnId⟩ :=
    h.concludes turnId hconcludes
  · exact hloud (hsilenced.muted item await hserving hturnId)
  · have hwaits : turnId ∈ s.queue.map QueuedMessage.turnId :=
      hturnId ▸ List.mem_map_of_mem hitem
    exact hs.accounted.taken_disjoint hs.once hsilenced.taken hwaits

theorem WorkerEffect.obedient (h : s.WorkerEffect s') (hs : s.Consistent)
    (hobedient : s.Obedient) : s'.Obedient := by
  obtain ⟨events, htrace, hutters⟩ := h.uttered
  have hacked : ∀ turnId, s'.Acked turnId → s.Acked turnId := by
    rintro turnId ⟨command, idle, hmem⟩
    rw [htrace] at hmem
    obtain hmem | hmem := List.mem_append.mp hmem
    · exact ⟨command, idle, hmem⟩
    · exact absurd rfl ((hutters _ hmem).no_ack command turnId idle)
  refine ⟨h.tracked hobedient.tracked, fun command hmem turnId hfound => ?_,
    fun turnId hpromised => ?_, ?_⟩
  · rw [h.commands] at hmem
    exact taken_of_append htrace (hobedient.found command hmem turnId hfound)
  · refine h.silenced hs (hobedient.silenced turnId ?_)
    obtain hack | habort := hpromised
    · exact .inl (hacked turnId hack)
    · rw [h.commands] at habort
      exact .inr habort
  · refine effective_append hobedient.effective htrace (fun turnId hack event hmem => ?_) ?_
    · exact (hobedient.silenced turnId (.inl hack)).not_concluded hs (hutters event hmem)
    · rintro earlier hearlier later - command turnId idle rfl
      exact absurd rfl ((hutters _ hearlier).no_ack command turnId idle)

theorem Aside.taken (h : s.Aside s') (hmem : turnId ∈ s.taken) : turnId ∈ s'.taken := by
  obtain ⟨events, htrace, -⟩ := h.trace
  exact taken_of_append htrace hmem

theorem Aside.tracked (h : s.Aside s') (hs : s.Tracked) : s'.Tracked where
  taken item await hserving := h.taken (hs.taken item await (h.serving item await hserving))
  owns item await hserving := hs.owns item await (h.serving item await hserving)
  published item await hserving hturn := by
    rw [Published, h.current]
    exact hs.published item await (h.serving item await hserving) hturn

theorem Aside.silenced (h : s.Aside s') (hs : s.Tracked) (hsilenced : s.Silenced turnId) :
    s'.Silenced turnId := by
  refine ⟨h.taken hsilenced.taken, fun item await hserving hturnId => ?_⟩
  have hserving' := h.serving item await hserving
  obtain ⟨hturn, hstopped⟩ | hlast := hsilenced.muted item await hserving' hturnId
  · refine .inl ⟨hturn, ?_⟩
    obtain hkept | hnoted := h.stopped
    · rw [hkept]
      exact hstopped
    · rw [hnoted]
      exact hs.published item await hserving' hturn
  · exact .inr hlast

theorem reachable_silenced (h : s.Aside s') (hs : s.Tracked) (hmem : turnId ∈ s.taken)
    (hnotes : s.Notes s') (hreachable : s.Reachable turnId) : s'.Silenced turnId := by
  refine ⟨h.taken hmem, fun item await hserving hturnId => ?_⟩
  have hserving' := h.serving item await hserving
  obtain ⟨hturn, hagent⟩ | hlast := hreachable item await hserving' hturnId
  · have hpublished := hs.published item await hserving' hturn
    have hcurrent : s.current.isSome := by
      obtain ⟨turn, hturn, -⟩ := Option.map_eq_some_iff.mp hpublished
      exact Option.isSome_of_mem hturn
    exact .inl ⟨hturn, (hnotes hcurrent hagent).trans hpublished⟩
  · exact .inr hlast

theorem CommandEffect.obedient {looks : Option Nat → Prop} {before : Option Nat}
    {after : Option CommandTask} (h : s.CommandEffect looks before s' after)
    (hobedient : s.Obedient) (hbefore : ∀ turnId, before = some turnId → turnId ∈ s.taken)
    (hlooks : ∀ turnId, looks (some turnId) → before = some turnId → s.Reachable turnId)
    {commands : List CommandTask} {clock : Nat}
    (hcommands : ∀ command ∈ commands, command ∈ s.commands ∨ after = some command) :
    { s' with commands := commands, clock := clock }.Obedient := by
  have haside := h.aside.withCommands commands clock
  obtain ⟨events, htrace, hopen⟩ := haside.trace
  refine ⟨haside.tracked hobedient.tracked, fun command hmem turnId hfound => ?_,
    fun turnId hpromised => ?_, ?_⟩
  · refine haside.taken ?_
    obtain hold | hnew := hcommands command hmem
    · exact hobedient.found command hold turnId hfound
    · exact hbefore turnId (h.found command hnew turnId hfound)
  · have hcases : s.Promised turnId ∨
        (looks turnId ∧ before = some turnId ∧ s.Notes s') := by
      obtain hacked | ⟨command, hmem⟩ := hpromised
      · exact h.promised turnId (.inl hacked)
      · obtain hold | hnew := hcommands _ hmem
        · exact .inl (.inr ⟨command, hold⟩)
        · exact h.promised turnId (.inr ⟨command, hnew⟩)
    obtain hold | ⟨hlook, hfound, hnotes⟩ := hcases
    · exact haside.silenced hobedient.tracked (hobedient.silenced turnId hold)
    · exact reachable_silenced haside hobedient.tracked (hbefore turnId hfound) hnotes
        (hlooks turnId hlook hfound)
  · refine effective_append hobedient.effective htrace
      (fun turnId _ event hmem => hopen event hmem turnId) ?_
    exact fun _ _ later hlater _ turnId _ _ => hopen later hlater turnId

theorem quiet_obedient (h : s.Aside s') (hacked : ∀ turnId, s'.Acked turnId → s.Acked turnId)
    (hobedient : s.Obedient) {new : CommandTask} (hnew : new.found? = none)
    {commands : List CommandTask} {clock : Nat}
    (hcommands : ∀ command ∈ commands, command ∈ s.commands ∨ command = new) :
    { s' with commands := commands, clock := clock }.Obedient := by
  have heffect : s.CommandEffect (fun _ => False) none s' (some new) := by
    refine plain_effect h hacked (fun command heq turnId hfound => ?_) fun command turnId heq => ?_
    · cases heq
      exact hnew.symm.trans hfound
    · cases heq
      cases hnew
  refine heffect.obedient hobedient nofun (fun _ hlook => hlook.elim) fun command hmem => ?_
  obtain hold | rfl := hcommands command hmem
  · exact .inl hold
  · exact .inr rfl

theorem ensureWorker_commands : s.ensureWorker.commands = s.commands := by
  unfold ensureWorker
  split
  · split_ifs
    · rfl
    · rfl
  · rfl

theorem inbound_obedient (hobedient : s.Obedient) {message : Inbound}
    (hheard : s.HeardInTime (.inbound message)) {s' : RouteState}
    (h : routeStep cfg s (.inbound message) = some s') : s'.Obedient := by
  have happended {command new : CommandTask} (hmem : command ∈ s.commands ++ [new]) :
      command ∈ s.commands ∨ command = new := by simpa using hmem
  have hreply : CommandTask.reply.found? = none := rfl
  cases h
  cases message with
  | plain text =>
    simp only [handleInbound]
    split
    · exact quiet_obedient .say (fun _ => acked_say) hobedient rfl fun _ => happended
    · have henqueued : s.Aside (s.queued text) :=
        ⟨fun _ _ h => h, ⟨[.enqueued s.clock], rfl, by simp [RouteEvent.Concludes]⟩, rfl, .inl rfl⟩
      refine quiet_obedient (henqueued.trans ensureWorker_aside) ?_ hobedient hreply ?_
      · rintro turnId ⟨command, idle, hmem⟩
        rw [ensureWorker_trace] at hmem
        exact ⟨command, idle, by simpa [queued] using hmem⟩
      · intro command hmem
        rw [ensureWorker_commands] at hmem
        exact .inl hmem
  | stop =>
    refine handleStop_effect.obedient hobedient (fun turnId => hobedient.tracked.processing)
      (fun turnId hempty hprocessing => hheard turnId ⟨hempty, hprocessing⟩) ?_
    exact fun command hmem => (happended hmem).imp_right fun heq => congrArg some heq.symm
  | new =>
    simp only [handleInbound, handleNew]
    split
    · exact quiet_obedient .say (fun _ => acked_say) hobedient rfl fun _ => happended
    · exact quiet_obedient (.refl s) (fun _ h => h) hobedient rfl fun _ => happended
  | other => exact quiet_obedient (.refl s) (fun _ h => h) hobedient hreply fun _ hmem => .inl hmem

theorem command_obedient (hobedient : s.Obedient) {k : Nat} {answer : Answer}
    (hheard : s.HeardInTime (.command k answer)) {s' : RouteState}
    (h : routeStep cfg s (.command k answer) = some s') : s'.Obedient := by
  simp only [routeStep] at h
  split at h
  · cases h
  · next command hcommand =>
    obtain ⟨result, hresult, rfl⟩ := Option.map_eq_some_iff.mp h
    have hmem : command ∈ s.commands := List.mem_of_getElem? hcommand
    refine (commandStep_effect hmem hresult).obedient hobedient
      (hobedient.found command hmem) ?_ fun other hother => ?_
    · rintro turnId ⟨⟨number, rfl⟩, delivered, ref, rfl⟩ -
      exact hheard turnId ⟨number, hcommand⟩
    · simp only [List.mem_append] at hother
      obtain (hfront | hnew) | hback := hother
      · exact .inl (List.mem_of_mem_take hfront)
      · exact .inr (Option.mem_toList.mp hnew)
      · exact .inl (List.mem_of_mem_drop hback)

theorem step_obedient {a : RouteAction} (hs : s.Consistent) (hobedient : s.Obedient)
    (hheard : s.HeardInTime a) (h : routeStep cfg s a = some s') : s'.Obedient := by
  cases a with
  | inbound message => exact inbound_obedient hobedient hheard h
  | setAgent agentId =>
    cases h
    have haside : s.Aside { s with agentId := agentId } :=
      ⟨fun _ _ h => h, ⟨[], (List.append_nil _).symm, nofun⟩, rfl, .inl rfl⟩
    have hreply : CommandTask.reply.found? = none := rfl
    exact quiet_obedient haside (fun _ h => h) hobedient hreply fun _ hmem => .inl hmem
  | worker id answer => exact (worker_effect hs hobedient.tracked h).obedient hs hobedient
  | command k answer => exact command_obedient hobedient hheard h

theorem fresh_obedient (agentId activeSession : Option String) :
    (fresh agentId activeSession).Obedient := by
  refine ⟨⟨?_, ?_, ?_⟩, ?_, ?_, List.Pairwise.nil⟩
  · rintro item await ⟨id, hid⟩
    cases hid
  · rintro item await ⟨id, hid⟩
    cases hid
  · rintro item await ⟨id, hid⟩
    cases hid
  · exact nofun
  · rintro turnId (⟨command, idle, hmem⟩ | ⟨command, hmem⟩)
    · cases hmem
    · cases hmem

/-- Over every run of a route whose `/stop`s are heard in time, a `/stop` is effective. -/
theorem stop_effective (cfg : RouterConfig) (agentId activeSession : Option String)
    (as : List RouteAction)
    (h : Guarded (routeStep cfg) HeardInTime (fresh agentId activeSession) as) :
    Always (routeStep cfg) StopEffective (fresh agentId activeSession) as := by
  have hstep : ∀ s a s', s.Consistent ∧ s.Obedient → s.HeardInTime a →
      routeStep cfg s a = some s' → s'.Consistent ∧ s'.Obedient := by
    rintro s a s' ⟨hs, hobedient⟩ hheard hstep
    exact ⟨move_consistent hs (routeStep_move hstep), step_obedient hs hobedient hheard hstep⟩
  have hfresh := fresh_obedient agentId activeSession
  have hrun := always_of_guarded hstep ⟨fresh_consistent agentId activeSession, hfresh⟩ h
  exact always_mono (fun s hs => hs.2.effective) hrun

theorem heard_of_inTurn {id : Nat} {item : QueuedMessage} {await : ProcessAwait}
    (hs : s.Consistent) (htask : s.tasks id = some (.processing item await))
    (hturn : await.InTurn) (hagent : s.agentId.isSome) (a : RouteAction) : s.HeardInTime a := by
  intro turnId _ item' await' hserving _
  obtain ⟨rfl, rfl⟩ := hs.serving_unique ⟨id, htask⟩ hserving
  exact .inl ⟨hturn, hagent⟩

theorem unlooked_heard {as : List RouteAction}
    (h : ∀ a ∈ as, ∀ (s : RouteState) turnId, ¬ s.Looks turnId a) :
    Guarded (routeStep cfg) HeardInTime s as :=
  guarded_mono (fun s a ha _ turnId hlooks => absurd hlooks (h a ha s turnId))
    (guarded_true s as)

/-- A `/stop` that comes while the turn runs: the result that lands after it is discarded. -/
def stoppedTurn : List RouteAction :=
  [.inbound (.plain "first"), .worker 0 .done, .worker 0 (.session "s"),
    .worker 0 (.placeholderSent true none none), .inbound .stop, .command 0 .done,
    .worker 0 (.signal (.terminal (some "late"))), .worker 0 (.pumpDone none)]

theorem stoppedTurn_heard :
    Guarded (routeStep plainRouter) HeardInTime (fresh (some "agent") none) stoppedTurn := by
  have hturn : ∃ s item turn outcome,
      run (routeStep plainRouter) (fresh (some "agent") none) (stoppedTurn.take 4) = some s ∧
        s.tasks 0 = some (.processing item (.turnEvent turn outcome)) ∧ s.agentId.isSome :=
    ⟨_, _, _, _, rfl, rfl, rfl⟩
  obtain ⟨s, item, turn, outcome, hrun, htask, hagent⟩ := hturn
  have hs : s.Consistent :=
    run_invariant (fun _ _ _ hs hstep => move_consistent hs (routeStep_move hstep))
      (fresh_consistent (some "agent") none) hrun
  have hbefore : Guarded (routeStep plainRouter) HeardInTime (fresh (some "agent") none)
      (stoppedTurn.take 4) :=
    unlooked_heard (by simp [stoppedTurn, Looks])
  have hafter : Guarded (routeStep plainRouter) HeardInTime s (stoppedTurn.drop 4) :=
    fun t _ => ⟨heard_of_inTurn hs htask trivial hagent _, unlooked_heard (by simp [Looks])⟩
  exact guarded_append hrun hbefore hafter

theorem stoppedTurn_effective :
    Always (routeStep plainRouter) StopEffective (fresh (some "agent") none) stoppedTurn ∧
      ∃ s, run (routeStep plainRouter) (fresh (some "agent") none) stoppedTurn = some s ∧
        RouteEvent.stopAck 1 (some 0) false ∈ s.trace :=
  ⟨stop_effective plainRouter (some "agent") none stoppedTurn stoppedTurn_heard,
    _, rfl, by decide⟩

/-- A `/stop` that comes while the session is resolved finds no turn to stop; the answer of the
message follows its acknowledgement. -/
def earlyStop : List RouteAction :=
  [.inbound (.plain "first"), .worker 0 .done, .inbound .stop, .worker 0 (.session "s"),
    .worker 0 (.placeholderSent true none none),
    .worker 0 (.signal (.terminal (some "late"))), .worker 0 (.pumpDone none)]

theorem stopped_message_answered :
    ¬ ∀ cfg agentId activeSession as,
      Always (routeStep cfg) StopEffective (fresh agentId activeSession) as := by
  intro h
  have hend : ∃ s, run (routeStep plainRouter) (fresh (some "agent") none) earlyStop = some s ∧
      List.Sublist [.stopAck 1 (some 0) true, .sent (some 0) (.answer "late") none] s.trace :=
    ⟨_, rfl, by decide⟩
  obtain ⟨s, hrun, hanswered⟩ := hend
  have heffective := always_last (h plainRouter (some "agent") none earlyStop) hrun
  have hpair : [RouteEvent.stopAck 1 (some 0) true,
      .sent (some 0) (.answer "late") none].Pairwise RouteEvent.Heeds :=
    List.Pairwise.sublist hanswered heffective
  rw [List.pairwise_pair] at hpair
  exact hpair 1 0 true rfl ⟨rfl, trivial⟩

end RouteState

end WittyService
