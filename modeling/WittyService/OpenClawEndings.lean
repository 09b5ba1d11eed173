import WittyService.OpenClawClient
import WittyService.TerminalEvents

/-! What ends a turn of the gateway: the events its runtime makes terminal ones of, and the silence
in which its client stops without one. -/
namespace WittyService

open ReadingLoop

theorem textOf_eq_some {value : Option Json} {text : String} (h : textOf value = some text) :
    value = some (.str text) := by
  unfold textOf at h
  split at h
  · cases h
    rfl
  · cases h

namespace OpenClawRuntime

variable {add : Json → Json → Json} {parts : OpenClawParts}

variable (data payload message : Dict) (raw : GatewayEvent)

theorem anyTerminal_mapLifecycle :
    anyTerminal (mapLifecycle parts data) = endsLifecycle data := by
  unfold mapLifecycle endsLifecycle
  cases pickString data ["phase"] with
  | none => rfl
  | some phase =>
    rw [Option.map_some, Option.any_some]
    split
    next heq =>
      rw [Option.some.inj heq]
      rfl
    next heq =>
      rw [Option.some.inj heq]
      rfl
    next heq =>
      rw [Option.some.inj heq]
      rfl
    next _ hend herror =>
      refine (decide_eq_false ?_).symm
      rintro (h | h)
      · exact hend (congrArg some h)
      · exact herror (congrArg some h)

theorem anyTerminal_mapAgent :
    anyTerminal (mapAgent parts payload) =
      (decide (textOf (Dict.get payload "stream") = some "lifecycle") &&
        (dictOf (Dict.get payload "data")).any endsLifecycle) := by
  unfold mapAgent
  cases hdata : dictOf (Dict.get payload "data") with
  | none =>
    rw [Option.any_none, Bool.and_false]
    split
    next h => cases h
    next h => cases h
    next h => cases h
    next h => cases h
    · rfl
  | some data =>
    rw [Option.any_some]
    split
    next hstream _ =>
      rw [hstream]
      exact anyTerminal_of_type DshRuntime.type_of_mem_textEvent
    next hstream _ =>
      rw [hstream]
      split <;> rfl
    next hstream h =>
      rw [hstream]
      exact anyTerminal_of_types (types_mapAgentToolStream _)
    next hstream h =>
      rw [hstream, Option.some.inj h, anyTerminal_mapLifecycle]
      rfl
    next hlifecycle =>
      rw [decide_eq_false fun h => hlifecycle data h rfl]
      rfl

theorem anyTerminal_mapSessionMessage :
    anyTerminal (mapSessionMessage add message) = isFinal message := by
  have hthinking := anyTerminal_of_type (type_extractThinkingEvents message)
  have hcalls := anyTerminal_of_type (type_toolCalls message)
  have husage (usage : Dict) := anyTerminal_of_type (type_usageEvents usage)
  unfold mapSessionMessage isFinal
  split
  next hrole =>
    rw [hrole]
    rfl
  next hrole =>
    rw [hrole]
    split_ifs with hstop htext
    · rw [anyTerminal_append, anyTerminal_append, husage,
        hthinking, hcalls, decide_eq_false hstop]
      rfl
    · rw [anyTerminal_append, not_not.mp hstop, decide_eq_true htext]
      exact Bool.or_true _
    · rw [anyTerminal_append, anyTerminal_append, husage,
        hthinking, hcalls, decide_eq_false htext,
        Bool.and_false]
      rfl
  next hrole =>
    rw [hthinking, decide_eq_false fun h => hrole h]
    rfl

theorem anyTerminal_mapGatewayEvents :
    anyTerminal (mapGatewayEvents add parts raw) = endsTurn raw := by
  unfold mapGatewayEvents endsTurn
  split_ifs with hchanged hagent hagent hmessage
  · exact absurd (hchanged.symm.trans hagent) (by decide)
  · unfold mapSessionsChanged
    rw [hchanged]
    split <;> rfl
  · exact anyTerminal_mapAgent raw.payload
  · rw [decide_eq_true hmessage, Bool.true_and]
    split
    next message heq =>
      rw [heq, Option.any_some, anyTerminal_mapSessionMessage]
    next heq =>
      rw [heq]
      rfl
  · rw [decide_eq_false hmessage]
    rfl

theorem anyTerminal_onMappedEvent (event : RuntimeTurnEvent) (t : OpenClawTurn) :
    anyTerminal (onMappedEvent event t).1 = event.isTerminal := by
  unfold onMappedEvent
  split
  next htype =>
    unfold onThinkingEvent
    split
    · exact anyTerminal_singleton event
    · dsimp only
      split_ifs
      · exact (Bool.false_or _).trans (anyTerminal_singleton event)
      · exact anyTerminal_singleton event
  next htype =>
    have hquiet : event.isTerminal = false := by
      rw [RuntimeTurnEvent.isTerminal, htype]
      rfl
    unfold onThinkingDeltaEvent
    split
    · exact hquiet.symm
    · dsimp only
      split_ifs <;> first | exact hquiet.symm | exact anyTerminal_singleton _
  · exact anyTerminal_singleton event
  · split
    · split_ifs
      · exact (Bool.false_or _).trans (anyTerminal_singleton event)
      · exact anyTerminal_singleton event
    · exact anyTerminal_singleton event
  · exact anyTerminal_singleton event

theorem endsBy : (hooks add parts).EndsBy endsTurn where
  maps raw _ := anyTerminal_mapGatewayEvents raw
  handles := by
    refine RuntimeHooks.handle_terminal (fun event t out h => ?_) fun event t out h => ?_
    · rw [← Option.some.inj h]
      exact anyTerminal_onMappedEvent event t
    · obtain ⟨artifacts, hartifacts, rfl⟩ := Option.map_eq_some_iff.mp h
      exact anyTerminal_eq_false (RuntimeBase.not_terminal_onArtifactEvent hartifacts)

theorem endsTurn_of_phase {event : GatewayEvent} {phase : String}
    (hphase : phase = "end" ∨ phase = "error")
    (h : OpenClawClient.lifecyclePhase event = some phase) : endsTurn event = true := by
  unfold OpenClawClient.lifecyclePhase at h
  split_ifs at h with hlifecycle
  obtain ⟨data, hdata, htext⟩ := Option.bind_eq_some_iff.mp h
  have hpick : pickString data ["phase"] = some phase := by
    unfold pickString
    rw [List.findSome?_cons, textOf_eq_some htext]
    obtain rfl | rfl := hphase <;> rfl
  rw [endsTurn, if_pos hlifecycle.1, hdata, Option.any_some, endsLifecycle, hpick,
    decide_eq_true hlifecycle.2, Option.any_some]
  obtain rfl | rfl := hphase <;> decide +kernel

/-! The runtime never raises, as the ids of the calls it maps are texts or none. -/

/-- The event is about no call, or about one whose id can be a key. -/
def HasKey (event : RuntimeTurnEvent) : Prop :=
  (event.type = .toolCallStarted ∨ event.type = .toolCallResponse) → event.callId.hashKey.isSome

theorem hashKey_ofText (id : Option String) :
    ((Json.ofText id).orElse (.str "")).hashKey.isSome := by
  cases id with
  | none => rfl
  | some id =>
    unfold Json.orElse
    split_ifs <;> rfl

theorem hasKey_of_quiet {event : RuntimeTurnEvent} (hstarted : event.type ≠ .toolCallStarted)
    (hresponse : event.type ≠ .toolCallResponse) : HasKey event :=
  fun h => (h.elim hstarted hresponse).elim

theorem hasKey_mapAgentToolStream : ∀ e ∈ mapAgentToolStream data, HasKey e := by
  intro e he
  unfold mapAgentToolStream at he
  dsimp only at he
  split at he
  · rw [List.mem_singleton.mp he]
    exact fun _ => hashKey_ofText _
  · rw [List.mem_singleton.mp he]
    exact fun _ => hashKey_ofText _
  · split at he
    · rw [List.mem_singleton.mp he]
      exact hasKey_of_quiet nofun nofun
    · cases he
  · cases he

variable {events : List RuntimeTurnEvent}

theorem hasKey_of_types {types : List TurnEventType} (htypes : ∀ e ∈ events, e.type ∈ types)
    (hquiet : ∀ type ∈ types, type ≠ .toolCallStarted ∧ type ≠ .toolCallResponse := by decide) :
    ∀ e ∈ events, HasKey e := fun e he =>
  hasKey_of_quiet (hquiet e.type (htypes e he)).1 (hquiet e.type (htypes e he)).2

theorem hasKey_of_type {type : TurnEventType} (htype : ∀ e ∈ events, e.type = type)
    (hquiet : type ≠ .toolCallStarted ∧ type ≠ .toolCallResponse := by decide) :
    ∀ e ∈ events, HasKey e := fun e he =>
  hasKey_of_quiet (htype e he ▸ hquiet.1) (htype e he ▸ hquiet.2)

theorem hasKey_mapSessionMessage :
    ∀ e ∈ mapSessionMessage add message, HasKey e := by
  have husage (usage : Dict) := hasKey_of_type (type_usageEvents usage)
  have hthinking := hasKey_of_type (type_extractThinkingEvents message)
  have hcalls : ∀ e ∈ toolCalls message, HasKey e := by
    intro e he
    obtain ⟨item, -, rfl⟩ := List.mem_map.mp he
    exact fun _ => hashKey_ofText _
  unfold mapSessionMessage
  split
  · exact List.forall_mem_singleton.mpr fun _ => hashKey_ofText _
  · split_ifs with hstop htext
    · rw [List.forall_mem_append, List.forall_mem_append]
      exact ⟨⟨husage _, hthinking⟩, hcalls⟩
    · rw [List.forall_mem_append, List.forall_mem_append]
      exact ⟨⟨husage _, hcalls⟩, List.forall_mem_singleton.mpr (hasKey_of_quiet nofun nofun)⟩
    · rw [List.forall_mem_append, List.forall_mem_append]
      exact ⟨⟨husage _, hcalls⟩, hthinking⟩
  · exact hthinking

theorem hasKey_mapAgent : ∀ e ∈ mapAgent parts payload, HasKey e := by
  unfold mapAgent
  split
  · exact hasKey_of_type DshRuntime.type_of_mem_textEvent
  · split
    · exact List.forall_mem_singleton.mpr (hasKey_of_quiet nofun nofun)
    · exact List.forall_mem_nil _
  · exact hasKey_mapAgentToolStream _
  · exact hasKey_of_types (types_mapLifecycle parts _)
  · exact List.forall_mem_nil _

theorem hasKey_mapGatewayEvents :
    ∀ e ∈ mapGatewayEvents add parts raw, HasKey e := by
  unfold mapGatewayEvents
  split_ifs
  · unfold mapSessionsChanged
    split
    · exact List.forall_mem_singleton.mpr (hasKey_of_quiet nofun nofun)
    · exact fun _ h => absurd h List.not_mem_nil
  · exact hasKey_mapAgent raw.payload
  · split
    · exact hasKey_mapSessionMessage _
    · exact fun _ h => absurd h List.not_mem_nil
  · exact fun _ h => absurd h List.not_mem_nil

theorem not_crashed (raws : List GatewayEvent) :
    ((hooks add parts).turn raws).crashed = false := by
  refine (hooks add parts).turn_not_crashed (fun _ _ => rfl) (fun raw _ event hevent t => ?_) raws
  have hartifact (t : OpenClawTurn) :=
    RuntimeBase.onArtifactEvent_isSome parts.artifacts t.artifactInputs
      (hasKey_mapGatewayEvents raw event hevent)
  obtain ⟨artifacts, hout⟩ := Option.isSome_iff_exists.mp (hartifact (onMappedEvent event t).2)
  have hhandle : (hooks add parts).handle event t =
      ((RuntimeBase.onArtifactEvent parts.artifacts event
        (onMappedEvent event t).2.artifactInputs).map fun artifacts =>
          (artifacts.1, { (onMappedEvent event t).2 with artifactInputs := artifacts.2 })).map
        fun artifacts => ((onMappedEvent event t).1 ++ artifacts.1, artifacts.2) := rfl
  rw [hhandle, hout]
  rfl

end OpenClawRuntime

/-! The client stops without an event that ends the turn when nothing comes in time, and in no other
way but an exception. -/

namespace OpenClawClient

open OpenClawRuntime

variable {sessionKey : String} {runId : Option String} {drainTimeout : Int} {s : CollectState}

variable (drainTimeout) in
theorem onEvent_cases (s : CollectState) (after : Int) (event : GatewayEvent) :
    (∃ s', s'.pendingLifecycleEnd = some event ∧ endsTurn event = true ∧
        onEvent drainTimeout s after event = .goes s' none) ∨
      (endsTurn event = true ∧ onEvent drainTimeout s after event = .stops (some event)) ∨
      ∃ s', s'.pendingLifecycleEnd = s.pendingLifecycleEnd ∧
        (s.pendingLifecycleEnd = none → s' = s) ∧
        onEvent drainTimeout s after event = .goes s' (some event) := by
  unfold onEvent
  split
  next hphase => exact .inl ⟨_, rfl, endsTurn_of_phase (.inl rfl) hphase, rfl⟩
  next hphase => exact .inr (.inl ⟨endsTurn_of_phase (.inr rfl) hphase, rfl⟩)
  · split_ifs with hpending
    · refine .inr (.inr ⟨{ s with lifecycleEndDeadline := some (after + drainTimeout) }, rfl,
        fun hnone => ?_, rfl⟩)
      rw [hnone] at hpending
      cases hpending
    · exact .inr (.inr ⟨s, rfl, fun _ => rfl, rfl⟩)

variable (sessionKey runId drainTimeout) in
theorem onRound_cases (s : CollectState) (round : GatewayRound) :
    (onRound sessionKey runId drainTimeout s round = .stops s.pendingLifecycleEnd ∧
        (s.lifecycleEndDeadline = none → isQuiet sessionKey runId round = false ∧
          round.timesOut = true)) ∨
      (onRound sessionKey runId drainTimeout s round = .raises none ∧
        isQuiet sessionKey runId round = false ∧ round.timesOut = false) ∨
      (onRound sessionKey runId drainTimeout s round = .goes s none ∧
        isQuiet sessionKey runId round = true) ∨
      ∃ event, onRound sessionKey runId drainTimeout s round =
          onEvent drainTimeout s round.after event ∧
        isQuiet sessionKey runId round = !endsTurn event ∧ round.timesOut = false := by
  unfold onRound isQuiet GatewayRound.timesOut
  split_ifs with hdeadline
  · refine .inl ⟨rfl, fun hnone => ?_⟩
    rw [hnone] at hdeadline
    cases hdeadline
  · cases round.recv with
    | timeout => exact .inl ⟨rfl, fun _ => ⟨rfl, rfl⟩⟩
    | raises => exact .inr (.inl ⟨rfl, rfl, rfl⟩)
    | frame message =>
      dsimp only
      cases accept sessionKey runId message with
      | none => exact .inr (.inr (.inl ⟨rfl, rfl⟩))
      | some event => exact .inr (.inr (.inr ⟨event, rfl, rfl, rfl⟩))

def closes (events : List GatewayEvent × StreamEnd) : Bool :=
  events.2 = .raised || events.1.any endsTurn

theorem closes_cons (event : GatewayEvent) (events : List GatewayEvent × StreamEnd) :
    closes ((some event).toList ++ events.1, events.2) = (endsTurn event || closes events) := by
  unfold closes
  rw [List.any_append, Bool.or_left_comm]
  exact congrArg (· || _) (Bool.or_false _)

theorem closes_singleton {event : GatewayEvent} (h : endsTurn event = true) :
    closes ((some event).toList, .stopped) = true := by
  exact (Bool.or_false _).trans h

variable (rounds : List GatewayRound)

theorem closes_of_pending (s : CollectState) (event : GatewayEvent)
    (hpending : s.pendingLifecycleEnd = some event) (hends : endsTurn event = true)
    (hstops : (stream (onRound sessionKey runId drainTimeout) s rounds).2 ≠ .exhausted) :
    closes (stream (onRound sessionKey runId drainTimeout) s rounds) = true := by
  -- another end can come while one is held back, so the event is generalized
  induction rounds generalizing s event with
  | nil => exact absurd rfl hstops
  | cons round rounds ih =>
    obtain ⟨h, -⟩ | ⟨h, -⟩ | ⟨h, -⟩ | ⟨next, h, -⟩ :=
      onRound_cases sessionKey runId drainTimeout s round
    · rw [stream_stops h, hpending]
      exact closes_singleton hends
    · rw [stream_raises h]
      rfl
    · rw [stream_goes h] at hstops ⊢
      exact ih s event hpending hends hstops
    · obtain ⟨s', hs', hnext, hstep⟩ | ⟨hnext, hstep⟩ | ⟨s', hs', -, hstep⟩ :=
        onEvent_cases drainTimeout s round.after next
      · rw [stream_goes (h.trans hstep)] at hstops ⊢
        exact ih s' next hs' hnext hstops
      · rw [stream_stops (h.trans hstep)]
        exact closes_singleton hnext
      · rw [stream_goes (h.trans hstep)] at hstops ⊢
        rw [closes_cons, ih s' event (hs'.trans hpending) hends hstops, Bool.or_true]

variable (sessionKey runId drainTimeout) in
theorem closes_fresh
    (hstops : (stream (onRound sessionKey runId drainTimeout) {} rounds).2 ≠ .exhausted) :
    closes (stream (onRound sessionKey runId drainTimeout) {} rounds) =
      !(rounds.find? fun round => !isQuiet sessionKey runId round).any GatewayRound.timesOut := by
  induction rounds with
  | nil => exact absurd rfl hstops
  | cons round rounds ih =>
    rw [List.find?_cons]
    obtain ⟨h, htimeout⟩ | ⟨h, hquiet, htimeout⟩ | ⟨h, hquiet⟩ | ⟨event, h, hquiet, htimeout⟩ :=
      onRound_cases sessionKey runId drainTimeout {} round
    · obtain ⟨hquiet, htimeout⟩ := htimeout rfl
      rw [stream_stops h, hquiet]
      exact (congrArg (! ·) htimeout).symm
    · rw [stream_raises h, hquiet]
      exact (congrArg (! ·) htimeout).symm
    · rw [stream_goes h] at hstops ⊢
      rw [hquiet]
      exact ih hstops
    · -- while no end is held back, the state of the loop does not change
      obtain ⟨s', hs', hends, hstep⟩ | ⟨hends, hstep⟩ | ⟨s', -, hsame, hstep⟩ :=
        onEvent_cases drainTimeout {} round.after event
      · rw [stream_goes (h.trans hstep)] at hstops ⊢
        rw [hquiet, hends]
        exact (closes_of_pending rounds s' event hs' hends hstops).trans
          (congrArg (! ·) htimeout).symm
      · rw [stream_stops (h.trans hstep), hquiet, hends]
        exact (closes_singleton hends).trans (congrArg (! ·) htimeout).symm
      · obtain rfl := hsame rfl
        rw [stream_goes (h.trans hstep)] at hstops ⊢
        rw [closes_cons, hquiet, Bool.not_not]
        cases endsTurn event with
        | true => exact (congrArg (! ·) htimeout).symm
        | false => exact ih hstops

theorem streamTurn_closes {turn : GatewayTurn} {events : List GatewayEvent × Bool}
    (h : streamTurn sessionKey drainTimeout turn = some events) :
    (events.2 || events.1.any endsTurn) = !goesIdle sessionKey turn := by
  unfold streamTurn at h
  unfold goesIdle
  cases hopen : openTurn turn with
  | none =>
    rw [hopen] at h
    cases h
    rfl
  | some runId =>
    rw [hopen] at h
    rw [Option.any_some]
    dsimp only at h
    have hcloses := closes_fresh sessionKey runId drainTimeout turn.rounds
    split at h
    next hending =>
      cases h
      rw [← hcloses (hending ▸ nofun), closes, hending]
      rfl
    next hending =>
      cases h
      rw [← hcloses (hending ▸ nofun), closes, hending]
      rfl
    · cases h

end OpenClawClient

end WittyService
