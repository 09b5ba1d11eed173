import WittyService.OpenClawClient

/-! What a turn of the gateway passes on of the frames that arrive from its `sessions.send` on. The
call and the loop behind it read the same socket: the call skips every frame that does not answer
it, also the events of its own turn. -/
namespace WittyService

open ReadingLoop

namespace OpenClawClient

/-- What `_rpc` comes to with what arrives behind its request: an answer and what follows it, an
error that is answered, or no answer. -/
inductive RpcEnd where
  | answered (payload : Dict) (rest : List GatewayRound)
  | failed (code text : String)
  | raises
  | waits

def rpcError (method : String) (message : Dict) : RpcEnd :=
  let error := (dictOf (Dict.get message "error")).getD []
  .failed (((Dict.get error "code").bind Json.nonemptyStr).getD "GATEWAY_RPC_ERROR")
    (((Dict.get error "message").bind Json.nonemptyStr).getD ("openclaw rpc failed: " ++ method))

def answers (reqId : String) (message : Dict) : Bool :=
  textOf (Dict.get message "type") = some "res" && textOf (Dict.get message "id") = some reqId

/-- `_rpc`, from where the request is written. -/
def rpc (method reqId : String) : List GatewayRound → RpcEnd
  | [] => .waits
  | round :: rest =>
    match round.recv with
    | .timeout => .raises
    | .raises => .raises
    | .frame message =>
      if answers reqId message then
        match Dict.get message "ok" with
        | some (.bool true) => .answered ((dictOf (Dict.get message "payload")).getD []) rest
        | _ => rpcError method message
      else rpc method reqId rest

/-- The frames `_rpc` skips. -/
def skipped (reqId : String) (rounds : List GatewayRound) : List GatewayRound :=
  rounds.takeWhile fun round =>
    match round.recv with
    | .frame message => !answers reqId message
    | _ => false

def runIdOf (payload : Dict) : Option String := (Dict.get payload "runId").bind Json.nonemptyStr

section
variable (sessionKey : String) (runId : Option String) (drainTimeout : Int)

def heard (s : CollectState) : List GatewayRound → List GatewayRound
  | [] => []
  | round :: rest =>
    if s.lifecycleEndDeadline.any fun deadline => deadline - round.before ≤ 0 then []
    else
      match onRound sessionKey runId drainTimeout s round with
      | .goes s _ => round :: heard s rest
      | _ => [round]

def eventOf (round : GatewayRound) : Option GatewayEvent :=
  match round.recv with
  | .frame message => accept sessionKey runId message
  | _ => none

end

def isLifecycleEnd (event : GatewayEvent) : Bool := lifecyclePhase event = some "end"

/-- Each event once and in order, but that an end of the lifecycle is yielded as the last event or
not at all. -/
def YieldsEach (yielded arrived : List GatewayEvent) : Prop :=
  ∃ last, yielded = arrived.filter (fun event => !isLifecycleEnd event) ++ last ∧
    (last = [] ∨ last = (arrived.filter isLifecycleEnd).getLast?.toList)

section
variable (sessionKey reqId : String) (drainTimeout : Int) (rounds : List GatewayRound)

/-- The events a turn yields, from where `sessions.send` is written. -/
def turnEvents : List GatewayEvent × StreamEnd :=
  match rpc "sessions.send" reqId rounds with
  | .answered payload rest =>
    stream (onRound sessionKey (runIdOf payload) drainTimeout) {} rest
  | .failed _ _ => ([], .raised)
  | .raises => ([], .raised)
  | .waits => ([], .exhausted)

def turnRun : Option String :=
  match rpc "sessions.send" reqId rounds with
  | .answered payload _ => runIdOf payload
  | _ => none

def earlyEvents : List GatewayEvent :=
  (skipped reqId rounds).filterMap (eventOf sessionKey (turnRun reqId rounds))

def lateEvents : List GatewayEvent :=
  match rpc "sessions.send" reqId rounds with
  | .answered payload rest =>
    (heard sessionKey (runIdOf payload) drainTimeout {} rest).filterMap
      (eventOf sessionKey (runIdOf payload))
  | _ => []

end

variable {sessionKey : String} {runId : Option String} {drainTimeout : Int}

def lastEnd (pending : Option GatewayEvent) (arrived : List GatewayEvent) : Option GatewayEvent :=
  (arrived.filter isLifecycleEnd).getLast?.or pending

variable {pending : Option GatewayEvent} {event : GatewayEvent}

theorem lastEnd_cons_of_end (h : isLifecycleEnd event) (arrived : List GatewayEvent) :
    lastEnd pending (event :: arrived) = lastEnd (some event) arrived := by
  rw [lastEnd, lastEnd, List.filter_cons_of_pos h, List.getLast?_cons]
  cases (arrived.filter isLifecycleEnd).getLast? with
  | none | some other => rfl

theorem lastEnd_cons_of_not (h : isLifecycleEnd event = false) (arrived : List GatewayEvent) :
    lastEnd pending (event :: arrived) = lastEnd pending arrived := by
  rw [lastEnd, lastEnd, List.filter_cons_of_neg (by rw [h]; exact Bool.false_ne_true)]

section

variable (sessionKey : String) (runId : Option String) (drainTimeout : Int)

/-- What a round does that is not too late: with no event it goes on or ends the turn, and an event
is held back, ends the turn or is passed on. -/
theorem onRound_event_cases {s : CollectState} {round : GatewayRound}
    (hdeadline : ¬ s.lifecycleEndDeadline.any fun deadline => deadline - round.before ≤ 0) :
    (eventOf sessionKey runId round = none ∧
      (onRound sessionKey runId drainTimeout s round = .goes s none ∨
        onRound sessionKey runId drainTimeout s round = .stops s.pendingLifecycleEnd ∨
        onRound sessionKey runId drainTimeout s round = .raises none)) ∨
    ∃ event, eventOf sessionKey runId round = some event ∧
      ((isLifecycleEnd event ∧ ∃ s', s'.pendingLifecycleEnd = some event ∧
          onRound sessionKey runId drainTimeout s round = .goes s' none) ∨
        (isLifecycleEnd event = false ∧
          onRound sessionKey runId drainTimeout s round = .stops (some event)) ∨
        (isLifecycleEnd event = false ∧ ∃ s', s'.pendingLifecycleEnd = s.pendingLifecycleEnd ∧
          onRound sessionKey runId drainTimeout s round = .goes s' (some event))) := by
  rw [onRound, if_neg hdeadline, eventOf]
  cases round.recv with
  | timeout => exact .inl ⟨rfl, .inr (.inl rfl)⟩
  | raises => exact .inl ⟨rfl, .inr (.inr rfl)⟩
  | frame message =>
    dsimp only
    cases accept sessionKey runId message with
    | none => exact .inl ⟨rfl, .inl rfl⟩
    | some event =>
      refine .inr ⟨event, rfl, ?_⟩
      dsimp only
      unfold onEvent isLifecycleEnd
      split
      · next hphase => exact .inl ⟨decide_eq_true hphase, _, rfl, rfl⟩
      · next hphase =>
        refine .inr (.inl ⟨decide_eq_false ?_, rfl⟩)
        rw [hphase]
        decide
      · next hend _ =>
        refine .inr (.inr ⟨decide_eq_false hend, ?_⟩)
        split
        · exact ⟨{ s with lifecycleEndDeadline := some (round.after + drainTimeout) }, rfl, rfl⟩
        · exact ⟨s, rfl, rfl⟩

theorem stream_onRound (s : CollectState) (rounds : List GatewayRound) :
    ∃ last, (stream (onRound sessionKey runId drainTimeout) s rounds).1 =
        ((heard sessionKey runId drainTimeout s rounds).filterMap
          (eventOf sessionKey runId)).filter (fun event => !isLifecycleEnd event) ++ last ∧
      (last = [] ∨ last = (lastEnd s.pendingLifecycleEnd
        ((heard sessionKey runId drainTimeout s rounds).filterMap
          (eventOf sessionKey runId))).toList) := by
  induction rounds generalizing s with
  | nil => exact ⟨[], rfl, .inl rfl⟩
  | cons round rest ih =>
    by_cases hdeadline : s.lifecycleEndDeadline.any fun deadline => deadline - round.before ≤ 0
    · have hstops : onRound sessionKey runId drainTimeout s round =
          .stops s.pendingLifecycleEnd := if_pos hdeadline
      rw [stream_stops hstops, heard, if_pos hdeadline]
      exact ⟨_, rfl, .inr rfl⟩
    · rw [heard, if_neg hdeadline]
      obtain ⟨hevent, hgoes | hstops | hraises⟩ | ⟨event, hevent, hround⟩ :=
        onRound_event_cases sessionKey runId drainTimeout hdeadline
      · rw [stream_goes hgoes, hgoes, List.filterMap_cons_none hevent]
        exact ih s
      · rw [stream_stops hstops, hstops, List.filterMap_cons_none hevent]
        exact ⟨_, rfl, .inr rfl⟩
      · rw [stream_raises hraises, hraises, List.filterMap_cons_none hevent]
        exact ⟨[], rfl, .inl rfl⟩
      · obtain ⟨hend, s', hpending, hgoes⟩ | ⟨hend, hstops⟩ | ⟨hend, s', hpending, hgoes⟩ := hround
        · -- An end that is held back takes the place of the one before.
          obtain ⟨last, heq, hlast⟩ := ih s'
          rw [stream_goes hgoes, hgoes, List.filterMap_cons_some hevent,
            List.filter_cons_of_neg (by simp [hend]), lastEnd_cons_of_end hend, ← hpending]
          exact ⟨last, heq, hlast⟩
        · rw [stream_stops hstops, hstops, List.filterMap_cons_some hevent,
            List.filter_cons_of_pos (by simp [hend])]
          exact ⟨[], rfl, .inl rfl⟩
        · obtain ⟨last, heq, hlast⟩ := ih s'
          rw [stream_goes hgoes, hgoes, List.filterMap_cons_some hevent,
            List.filter_cons_of_pos (by simp [hend]), lastEnd_cons_of_not hend, ← hpending]
          exact ⟨last, congrArg (event :: ·) heq, hlast⟩

end

variable {reqId : String} {rounds : List GatewayRound} {arrived early : List GatewayEvent}

theorem yieldsEach_late (sessionKey reqId : String) (drainTimeout : Int)
    (rounds : List GatewayRound) :
    YieldsEach (turnEvents sessionKey reqId drainTimeout rounds).1
      (lateEvents sessionKey reqId drainTimeout rounds) := by
  unfold turnEvents lateEvents
  cases rpc "sessions.send" reqId rounds with
  | answered payload rest =>
    obtain ⟨last, heq, hlast⟩ := stream_onRound sessionKey (runIdOf payload) drainTimeout {} rest
    rw [lastEnd, Option.or_none] at hlast
    exact ⟨last, heq, hlast⟩
  | failed code text | raises | waits => exact ⟨[], rfl, .inl rfl⟩

theorem yieldsEach_append_iff {yielded : List GatewayEvent} (h : YieldsEach yielded arrived) :
    YieldsEach yielded (early ++ arrived) ↔ ∀ event ∈ early, isLifecycleEnd event := by
  have hends : ∀ events last : List GatewayEvent,
      last = [] ∨ last = (events.filter isLifecycleEnd).getLast?.toList →
        last.filter (fun event => !isLifecycleEnd event) = [] := by
    intro events last hlast
    obtain rfl | rfl := hlast
    · rfl
    · refine List.filter_eq_nil_iff.mpr fun event hevent => ?_
      have hmem := List.mem_of_getLast? (Option.mem_toList.mp hevent)
      rw [(List.mem_filter.mp hmem).2]
      exact Bool.false_ne_true
  obtain ⟨last, rfl, hlast⟩ := h
  constructor
  · rintro ⟨last', heq, hlast'⟩
    have hfilter := congrArg (List.filter fun event => !isLifecycleEnd event) heq
    rw [List.filter_append, List.filter_append, hends _ _ hlast, hends _ _ hlast',
      List.filter_filter, List.filter_filter, List.filter_append] at hfilter
    have hlength := congrArg List.length hfilter
    simp only [Bool.and_self, List.append_nil, List.length_append] at hlength
    have hnil : (early.filter fun event => !isLifecycleEnd event) = [] :=
      List.length_eq_zero_iff.mp (by omega)
    intro event hevent
    have hevent := List.filter_eq_nil_iff.mp hnil event hevent
    simpa using hevent
  · intro hearly
    have hnil : (early.filter fun event => !isLifecycleEnd event) = [] :=
      List.filter_eq_nil_iff.mpr fun event hevent => by simp [hearly event hevent]
    refine ⟨last, by rw [List.filter_append, hnil, List.nil_append], ?_⟩
    obtain rfl | rfl := hlast
    · exact .inl rfl
    · rw [List.filter_append, List.getLast?_append]
      cases (arrived.filter isLifecycleEnd).getLast? with
      | none => exact .inl rfl
      | some event => exact .inr rfl

end OpenClawClient

open OpenClawClient

/-- Every frame of the session and run that arrives before the end of the turn is yielded exactly
when none but ends of the lifecycle arrives before the answer. -/
theorem yields_every_frame_iff (sessionKey reqId : String) (drainTimeout : Int)
    (rounds : List GatewayRound) :
    YieldsEach (turnEvents sessionKey reqId drainTimeout rounds).1
        (earlyEvents sessionKey reqId rounds ++
          lateEvents sessionKey reqId drainTimeout rounds) ↔
      ∀ event ∈ earlyEvents sessionKey reqId rounds, isLifecycleEnd event :=
  yieldsEach_append_iff (yieldsEach_late sessionKey reqId drainTimeout rounds)

namespace OpenClawClient

/-- A turn whose first text arrives before the answer of `sessions.send`. -/
def textBeforeAnswer : List GatewayRound :=
  [{ recv := .frame [("type", .str "event"), ("event", .str "agent"),
      ("payload", .obj [("stream", .str "assistant"), ("data", .obj [("delta", .str "Hi")])])] },
   { recv := .frame [("type", .str "res"), ("id", .str "1"), ("ok", .bool true),
      ("payload", .obj [("runId", .str "run")])] },
   { recv := .frame [("type", .str "event"), ("event", .str "agent"),
      ("payload", .obj [("stream", .str "lifecycle"), ("data", .obj [("phase", .str "end")])])] },
   { recv := .timeout }]

/-- The text is lost. -/
theorem textBeforeAnswer_not_yielded :
    ¬ YieldsEach (turnEvents "key" "1" 500 textBeforeAnswer).1
      (earlyEvents "key" "1" textBeforeAnswer ++ lateEvents "key" "1" 500 textBeforeAnswer) := by
  intro hyields
  have hends := (yieldsEach_append_iff (yieldsEach_late "key" "1" 500 textBeforeAnswer)).mp hyields
  have hearly : (earlyEvents "key" "1" textBeforeAnswer).all isLifecycleEnd = false := by decide
  rw [List.all_eq_true.mpr hends] at hearly
  cases hearly

end OpenClawClient

end WittyService
