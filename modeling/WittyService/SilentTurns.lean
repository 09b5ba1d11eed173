import WittyService.DshEndings
import WittyService.OpenCodeEndings
import WittyService.TurnDelivery

/-! When a turn ends silently: every exception on the way becomes a terminal event, but an upstream
that just stops, by a timeout, the end of its response or an idle session, becomes none. -/
namespace WittyService

open GuardedRuns

structure RuntimeParts where
  openclaw : OpenClawParts
  opencode : OpenCodeNormalizers
  dsh : DshParts

inductive UpstreamTurn where
  | openclaw (sessionKey : String) (drainTimeout : Int) (turn : GatewayTurn)
  | opencode (sessionId : String) (turn : SseTurn)
  | dsh (messageId : String) (turn : DshUpstream)

namespace UpstreamTurn

variable (plus : NumberAdd) (parts : RuntimeParts)

/-- What `run_turn` puts out, `none` as long as the upstream does not stop. -/
def sent : UpstreamTurn → Option SentTurn
  | openclaw sessionKey drainTimeout turn =>
    (OpenClawClient.streamTurn sessionKey drainTimeout turn).map fun events =>
      (OpenClawRuntime.hooks plus.add parts.openclaw).sentBy plus.add events.1 false events.2
  | opencode sessionId turn =>
    let events := OpenCodeClient.streamTurn sessionId turn
    some ((OpenCodeRuntime.hooks plus.add parts.opencode).sentBy plus.add events.1 false events.2)
  | dsh messageId turn =>
    (DshClient.streamTurn parts.dsh.sessionId messageId turn).map fun raws =>
      (DshRuntime.hooks plus.add parts.dsh).sentBy plus.add raws.1
        (raws.2 = some .clientError) (raws.2 = some .other)

/-- An exception leaves the client or the mapping, or what ends a turn comes before the upstream
stops. -/
def Closes : UpstreamTurn → Prop
  | openclaw sessionKey _ turn => OpenClawClient.goesIdle sessionKey turn = false
  | opencode sessionId turn => OpenCodeClient.Closes sessionId turn ∨
      ((OpenCodeRuntime.hooks plus.add parts.opencode).turn
        (OpenCodeClient.streamTurn sessionId turn).1).crashed = true
  | dsh messageId turn => DshClient.Closes parts.dsh.sessionId messageId
      (fun raw => DshRuntime.endsTurn parts.dsh raw || DshRuntime.raises plus parts.dsh raw) turn

variable {plus parts} {sent : SentTurn}

theorem openclaw_ends_iff {sessionKey : String} {drainTimeout : Int} {turn : GatewayTurn}
    (h : (openclaw sessionKey drainTimeout turn).sent plus parts = some sent) :
    sent.ends = true ↔ OpenClawClient.goesIdle sessionKey turn = false := by
  obtain ⟨events, hevents, rfl⟩ := Option.map_eq_some_iff.mp h
  rw [RuntimeHooks.sentBy_ends OpenClawRuntime.endsBy plus events.1 false events.2 nofun,
    OpenClawRuntime.not_crashed, Bool.false_or, Bool.or_false,
    OpenClawClient.streamTurn_closes hevents, Bool.not_eq_true']

theorem opencode_ends_iff {sessionId : String} {turn : SseTurn}
    (h : (opencode sessionId turn).sent plus parts = some sent) :
    sent.ends = true ↔ (opencode sessionId turn).Closes plus parts := by
  cases h
  rw [RuntimeHooks.sentBy_ends OpenCodeRuntime.endsBy plus _ false _ nofun, Closes,
    ← OpenCodeClient.streamTurn_closes_iff, Bool.or_false, Bool.or_assoc, Bool.or_eq_true,
    Bool.or_eq_true, List.any_eq_true]
  exact or_comm

theorem dsh_ends_iff {messageId : String} {turn : DshUpstream}
    (h : (dsh messageId turn).sent plus parts = some sent) :
    sent.ends = true ↔ (dsh messageId turn).Closes plus parts := by
  obtain ⟨raws, hraws, rfl⟩ := Option.map_eq_some_iff.mp h
  -- the runtime catches an error of its client and no other one
  have hfailed : (decide (raws.2 = some HarnessFailure.other) ||
      decide (raws.2 = some .clientError)) = raws.2.isSome := by
    cases raws.2 with
    | none => rfl
    | some failure => cases failure <;> rfl
  rw [RuntimeHooks.sentBy_ends DshRuntime.endsBy plus raws.1 _ _
      fun _ => DshRuntime.anyTerminal_clientErrorEvents, Closes,
    ← DshClient.streamTurn_closes_iff hraws, ← hfailed]
  simp only [Bool.or_eq_true, DshRuntime.crashed_iff, List.any_eq_true, and_or_left, exists_or]
  simp only [or_assoc, or_left_comm, or_comm]

theorem sent_ends_iff {turn : UpstreamTurn} (h : turn.sent plus parts = some sent) :
    sent.ends = true ↔ turn.Closes plus parts := by
  cases turn with
  | openclaw => exact openclaw_ends_iff h
  | opencode => exact opencode_ends_iff h
  | dsh => exact dsh_ends_iff h

end UpstreamTurn

/-- Turn `i` of the pool has run through the stream to its end, was not aborted, and the callback it
forwards to, which puts what it is given into a queue without a bound, has returned. -/
structure FinishedTurn (stream : List StreamItem × Bool) (actions : List TaskPoolAction) (i : Nat)
    (t : PoolTurn) : Prop where
  run : ∃ s, run TaskPool.step {} actions = some s ∧ s.turns[i]? = some t
  ended : t.phase = .ended
  notAborted : t.cancelled = false
  returns : .turn i .forwardRaises ∉ actions
  through : TaskPool.RunsThrough actions i stream

/-- A turn forwards a terminal event if and only if an exception is raised in it, by the session
service, the client or the mapping, or what ends a turn comes before its upstream stops. -/
theorem terminal_forwarded_iff (plus : NumberAdd) (parts : RuntimeParts) (turn : UpstreamTurn)
    (o : Orchestration) {sent : SentTurn} (hsent : turn.sent plus parts = some sent)
    {actions : List TaskPoolAction} {i : Nat} {t : PoolTurn}
    (h : FinishedTurn (o.streamMessage sent) actions i t) :
    (∃ item ∈ t.forwarded, item.isTerminal) ↔ o.Raises sent ∨ turn.Closes plus parts := by
  obtain ⟨s, hrun, hget⟩ := h.run
  rw [TaskPool.forwarded_of_ended hrun hget h.ended h.notAborted h.returns h.through,
    Orchestration.produced_terminal_iff, UpstreamTurn.sent_ends_iff hsent]

/-! A turn whose text comes and one whose gateway falls silent after a part of it. -/

def sampleRuntimes : RuntimeParts where
  openclaw :=
    { lifecycleError := fun _ => []
      artifacts := ⟨fun _ => [], fun _ => none, fun _ _ => none⟩ }
  opencode :=
    { openCodeError := fun _ => []
      artifacts := ⟨fun _ => [], fun _ => none, fun _ _ => none⟩ }
  dsh := DshRuntime.sampleParts

/-- A frame of the agent in the session `s`. -/
def agentFrame (stream : String) (data : Dict) : GatewayRound where
  recv := .frame [("type", .str "event"), ("event", .str "agent"),
    ("payload", .obj [("sessionKey", .str "s"), ("stream", .str stream), ("data", .obj data)])]

def gatewayTurn (rounds : List GatewayRound) : UpstreamTurn :=
  .openclaw "s" 5
    { opening := .sent []
      rounds := agentFrame "assistant" [("delta", .str "a")] :: rounds ++ [{ recv := .timeout }] }

def poolRun (items : List StreamItem) : List TaskPoolAction :=
  [.submit, .turn 0 .begins, .turn 0 .producerStarts] ++
    items.map (fun item => .turn 0 (.produces item)) ++
    [.turn 0 .producerEnds, .turn 0 .producerDone] ++
    items.flatMap (fun item => .turn 0 .takes ::
      (if item.releases then [.turn 0 .releases] else []) ++ [.turn 0 .forwards]) ++
    [.turn 0 .takes, .turn 0 .finalizes, .turn 0 .taskEnds]

def pooledTurn (items : List StreamItem) : PoolTurn where
  phase := .ended
  producer := .done
  forwarded := items
  released := true

theorem finished_closed : FinishedTurn
    (({} : Orchestration).streamMessage ⟨[.messageDelta, .turnCompleted], false⟩)
    (poolRun [.stateChanged, .runtime .messageDelta, .runtime .turnCompleted, .stateChanged]) 0
    (pooledTurn [.stateChanged, .runtime .messageDelta, .runtime .turnCompleted, .stateChanged])
    where
  run := ⟨_, rfl, by decide +kernel⟩
  ended := rfl
  notAborted := rfl
  returns := by decide +kernel
  through := by decide +kernel

theorem finished_silent : FinishedTurn (({} : Orchestration).streamMessage ⟨[.messageDelta], false⟩)
    (poolRun [.stateChanged, .runtime .messageDelta, .stateChanged]) 0
    (pooledTurn [.stateChanged, .runtime .messageDelta, .stateChanged]) where
  run := ⟨_, rfl, by decide +kernel⟩
  ended := rfl
  notAborted := rfl
  returns := by decide +kernel
  through := by decide +kernel

/-- The end of the lifecycle is forwarded. -/
theorem terminal_forwarded_of_lifecycle_end :
    ∃ item ∈ (pooledTurn [.stateChanged, .runtime .messageDelta, .runtime .turnCompleted,
      .stateChanged]).forwarded, item.isTerminal := by
  have hsent : (gatewayTurn [agentFrame "lifecycle" [("phase", .str "end")]]).sent addWhole
      sampleRuntimes = some ⟨[.messageDelta, .turnCompleted], false⟩ := by
    decide +kernel
  have hcloses : OpenClawClient.goesIdle "s" { opening := .sent [], rounds :=
      [agentFrame "assistant" [("delta", .str "a")], agentFrame "lifecycle" [("phase", .str "end")],
        { recv := .timeout }] } = false := by decide +kernel
  exact (terminal_forwarded_iff addWhole sampleRuntimes _ {} hsent finished_closed).mpr
    (.inr hcloses)

/-- A gateway that falls silent after a part of the text ends the turn silently. -/
theorem silent_after_timeout :
    ¬ ∀ (turn : UpstreamTurn) (o : Orchestration) (sent : SentTurn),
      turn.sent addWhole sampleRuntimes = some sent →
        ∀ (actions : List TaskPoolAction) (i : Nat) (t : PoolTurn),
          FinishedTurn (o.streamMessage sent) actions i t →
            ∃ item ∈ t.forwarded, item.isTerminal := by
  intro h
  have hsent : (gatewayTurn []).sent addWhole sampleRuntimes =
      some ⟨[.messageDelta], false⟩ := by
    decide +kernel
  have hterminal := h _ {} _ hsent _ 0 _ finished_silent
  revert hterminal
  decide +kernel

end WittyService
