import WittyService.QqHeartbeats
import WittyService.OutboundRequests

/-! The heartbeats of the WeCom adapter, and what `is_alive` promises of both long connections. The
clock is the one of the QQ gateway; besides, no time passes while the answer that the heartbeat task
waits for is there. -/
namespace WittyService

open GuardedRuns

/-- The heartbeat task of the WeCom adapter. While it waits for an answer, `answer` says whether
its future has a result or an exception. -/
inductive WecomHeartbeat where
  | absent
  | sleeping (due : Nat)
  | waiting (deadline : Nat) (answer : Option Bool)
  | returned
  | raised
  deriving DecidableEq, Repr

namespace WecomHeartbeat

def mayReach (now moment : Nat) : WecomHeartbeat → Bool
  | sleeping due => moment ≤ due
  | waiting deadline none => moment ≤ deadline
  | waiting _ (some _) => moment ≤ now
  | absent | returned | raised => true

def settle (ok : Bool) : WecomHeartbeat → WecomHeartbeat
  | waiting deadline none => waiting deadline (some ok)
  | heartbeat => heartbeat

theorem settle_ne_raised {ok : Bool} {heartbeat : WecomHeartbeat} (h : heartbeat ≠ raised) :
    heartbeat.settle ok ≠ raised := by
  unfold settle
  split
  · exact WecomHeartbeat.noConfusion
  · exact h

end WecomHeartbeat

/-- What `recv_json` gives: an answer to the heartbeat that waits, the event that a newer connection
took this one over, another frame, or what is no frame. -/
inductive WecomIncoming where
  | heartbeatAck (errcode : Errcode)
  | takenOver
  | other
  | bad
  deriving DecidableEq, Repr

structure WecomConnection where
  now : Nat
  heardAt : Nat
  interval : Nat
  started : Bool
  connected : Bool
  transport : Bool
  receiving : Bool
  subscribing : Bool
  missedHeartbeats : Nat
  heartbeat : WecomHeartbeat
  deriving DecidableEq, Repr

/-- `subscribed` is how the call of `_subscribe` ends, and `receiverEnds` an error of `recv_json`
without a frame. `teardown` is the task that the event of a newer connection leaves. -/
inductive WecomConnectionAction where
  | pass (ticks : Nat)
  | connect
  | subscribed (ok : Bool)
  | startReturns
  | receives (incoming : WecomIncoming)
  | receiverEnds
  | beat (send : HeartbeatSend)
  | answered
  | timesOut
  | teardown
  | disconnect (stopping : Bool)
  deriving DecidableEq, Repr

namespace WecomConnection

variable (s : WecomConnection)

def fresh (now interval : Nat) : WecomConnection :=
  ⟨now, now, interval, false, false, false, false, false, 0, .absent⟩

def isAlive : Bool := s.started && s.connected

/-- The head of `_heartbeat_loop` up to its sleep. -/
def heartbeatLoop : WecomConnection :=
  { s with heartbeat := if s.connected then .sleeping (s.now + s.interval) else .returned }

/-- The handler of `_heartbeat_loop` and what follows it. -/
def missHeartbeat : WecomConnection :=
  let missed := { s with missedHeartbeats := s.missedHeartbeats + 1 }
  if MAX_MISSED_HEARTBEATS ≤ missed.missedHeartbeats then
    { missed with connected := false, transport := false, heartbeat := .returned }
  else missed.heartbeatLoop

/-- `_heartbeat_loop` after its sleep, up to the wait for the answer. -/
def beat (send : HeartbeatSend) : WecomConnection :=
  if s.connected then
    if s.transport then
      match send with
      | .sent => { s with heartbeat := .waiting (s.now + s.interval) none }
      | .failed => s.missHeartbeat
      | .cancelled => { s with heartbeat := .raised }
    else s.missHeartbeat
  else { s with heartbeat := .returned }

/-- The end of `_receive_loop`: only the loop of the transport in use has a say. -/
def receiverEnds : WecomConnection :=
  { s with receiving := false, connected := s.connected && !s.transport }

/-- `_dispatch_frame` on what `recv_json` has received. -/
def receive : WecomIncoming → WecomConnection
  | .heartbeatAck errcode =>
    { s with heardAt := s.now, heartbeat := s.heartbeat.settle errcode.accepted }
  | .takenOver =>
    { s with heardAt := s.now, connected := false, heartbeat := s.heartbeat.settle false }
  | .other => { s with heardAt := s.now }
  | .bad => receiverEnds { s with heardAt := s.now }

end WecomConnection

def wecomConnectionStep (s : WecomConnection) : WecomConnectionAction → Option WecomConnection
  | .pass ticks =>
    if s.heartbeat.mayReach s.now (s.now + ticks) then some { s with now := s.now + ticks }
    else none
  | .connect =>
    if s.transport = false ∧ s.heartbeat = .absent then
      some { s with started := false, transport := true, receiving := true, subscribing := true }
    else none
  | .subscribed ok =>
    if s.subscribing then
      if ok then
        -- the connection is established
        some <| WecomConnection.heartbeatLoop { s with
          subscribing := false, connected := true, missedHeartbeats := 0, heardAt := s.now }
      else some { s with subscribing := false, receiving := false, transport := false }
    else none
  | .startReturns => if s.heartbeat = .absent then none else some { s with started := true }
  | .receives incoming => if s.receiving then some (s.receive incoming) else none
  | .receiverEnds => if s.receiving then some s.receiverEnds else none
  | .beat send =>
    match s.heartbeat with
    | .sleeping due => if due ≤ s.now then some (s.beat send) else none
    | _ => none
  | .answered =>
    match s.heartbeat with
    | .waiting _ (some true) =>
      some (WecomConnection.heartbeatLoop { s with missedHeartbeats := 0 })
    | .waiting _ (some false) => some s.missHeartbeat
    | _ => none
  | .timesOut =>
    match s.heartbeat with
    | .waiting deadline none => if deadline ≤ s.now then some s.missHeartbeat else none
    | _ => none
  | .teardown => some { s with transport := false }
  | .disconnect stopping =>
    some { s with
      started := s.started && !stopping, connected := false, heartbeat := .absent
      receiving := false, subscribing := false, transport := false }

namespace WecomConnection

variable (s : WecomConnection)

def Noticed : Prop := s.isAlive = true → s.now ≤ s.heardAt + 5 * s.interval

/-- No time passes with a heartbeat task that an exception has ended and a connection that passes
for alive. -/
def Watched : WecomConnectionAction → Prop
  | .pass ticks => 0 < ticks → s.connected = true → s.heartbeat ≠ .raised
  | _ => True

instance : DecidablePred s.Watched := fun a =>
  match a with
  | .pass ticks =>
    inferInstanceAs (Decidable (0 < ticks → s.connected = true → s.heartbeat ≠ .raised))
  | .connect | .subscribed _ | .startReturns | .receives _ | .receiverEnds | .beat _ | .answered
  | .timesOut | .teardown | .disconnect _ => isTrue trivial

/-- What the heartbeat task waits for comes a number of intervals after the last frame, or two more
when a heartbeat is missing. -/
def Soon (due intervals : Nat) : Prop :=
  s.now ≤ due ∧
    (s.missedHeartbeats = 0 ∧ due ≤ s.heardAt + intervals * s.interval ∨
      s.missedHeartbeats = 1 ∧ due ≤ s.heardAt + (intervals + 2) * s.interval)

def Timely : Prop :=
  match s.heartbeat with
  | .sleeping due => s.Soon due 1
  | .waiting deadline none => s.Soon deadline 2
  | .waiting _ (some _) => s.heardAt = s.now ∧ s.missedHeartbeats ≤ 1
  | .raised => s.now ≤ s.heardAt + 4 * s.interval
  | .absent | .returned => False

def Sound : Prop := s.connected = true → s.heardAt ≤ s.now ∧ s.Timely

section Steps

variable {s}

theorem sound_fresh (now interval : Nat) : (fresh now interval).Sound := by
  intro hconnected
  exact absurd hconnected Bool.false_ne_true

theorem Sound.noticed (h : s.Sound) : s.Noticed := by
  intro halive
  obtain ⟨-, hconnected⟩ := (Bool.and_eq_true _ _).mp halive
  obtain ⟨hle, htimely⟩ := h hconnected
  unfold Timely at htimely
  split at htimely
  · unfold Soon at htimely
    omega
  · unfold Soon at htimely
    omega
  · omega
  · omega
  · exact htimely.elim
  · exact htimely.elim

theorem sound_heartbeatLoop
    (h : s.connected = true → s.heardAt ≤ s.now ∧ s.Soon (s.now + s.interval) 1) :
    s.heartbeatLoop.Sound := by
  intro hconnected
  obtain ⟨hle, hsoon⟩ := h hconnected
  have hbeat : s.heartbeatLoop.heartbeat = .sleeping (s.now + s.interval) := if_pos hconnected
  refine ⟨hle, ?_⟩
  unfold Timely
  rw [hbeat]
  exact hsoon

theorem sound_missHeartbeat (h : s.connected = true → s.heardAt ≤ s.now ∧
      (s.missedHeartbeats = 0 → s.now ≤ s.heardAt + 2 * s.interval)) :
    s.missHeartbeat.Sound := by
  unfold missHeartbeat MAX_MISSED_HEARTBEATS
  by_cases hlast : 2 ≤ s.missedHeartbeats + 1
  · simp only [if_pos hlast]
    intro hconnected
    exact absurd hconnected Bool.false_ne_true
  · simp only [if_neg hlast]
    apply sound_heartbeatLoop
    intro hconnected
    obtain ⟨hle, hfirst⟩ := h hconnected
    have hzero : s.missedHeartbeats = 0 := by omega
    refine ⟨hle, Nat.le_add_right _ _, Or.inr ⟨congrArg (· + 1) hzero, ?_⟩⟩
    change s.now + s.interval ≤ s.heardAt + (1 + 2) * s.interval
    omega

theorem sound_pass {ticks : Nat} (h : s.Sound) (hg : s.Watched (.pass ticks))
    (hreach : s.heartbeat.mayReach s.now (s.now + ticks) = true) :
    Sound { s with now := s.now + ticks } := by
  intro hconnected
  obtain ⟨hle, htimely⟩ := h hconnected
  refine ⟨Nat.le_add_right_of_le hle, ?_⟩
  unfold Timely at htimely ⊢
  cases hbeat : s.heartbeat with
  | sleeping due =>
    simp only [hbeat, WecomHeartbeat.mayReach, decide_eq_true_eq, Soon] at hreach htimely ⊢
    omega
  | waiting deadline answer =>
    cases answer with
    | none =>
      simp only [hbeat, WecomHeartbeat.mayReach, decide_eq_true_eq, Soon] at hreach htimely ⊢
      omega
    | some ok =>
      -- the task is ready to go on
      simp only [hbeat, WecomHeartbeat.mayReach, decide_eq_true_eq] at hreach htimely ⊢
      omega
  | raised =>
    have hticks : ¬ 0 < ticks := fun hpos => hg hpos hconnected hbeat
    simp only [hbeat] at htimely ⊢
    omega
  | absent | returned => simp only [hbeat] at htimely

theorem sound_heard (h : s.Sound) : Sound { s with heardAt := s.now } := by
  intro hconnected
  obtain ⟨hle, htimely⟩ := h hconnected
  refine ⟨le_rfl, ?_⟩
  unfold Timely at htimely ⊢
  dsimp only
  split at htimely
  · unfold Soon at htimely ⊢
    dsimp only
    omega
  · unfold Soon at htimely ⊢
    dsimp only
    omega
  · exact ⟨rfl, htimely.2⟩
  · omega
  · exact htimely
  · exact htimely

theorem sound_settle {ok : Bool} (h : s.Sound) (hheard : s.heardAt = s.now) :
    Sound { s with heartbeat := s.heartbeat.settle ok } := by
  intro hconnected
  obtain ⟨hle, htimely⟩ := h hconnected
  refine ⟨hle, ?_⟩
  unfold WecomHeartbeat.settle
  split
  case h_1 deadline hbeat =>
    simp only [Timely, hbeat, Soon] at htimely
    refine ⟨hheard, ?_⟩
    change s.missedHeartbeats ≤ 1
    omega
  case h_2 => exact htimely

theorem sound_receiverEnds (h : s.Sound) : s.receiverEnds.Sound := by
  intro hconnected
  obtain ⟨hconnected, -⟩ := (Bool.and_eq_true _ _).mp hconnected
  exact h hconnected

theorem sound_receive {incoming : WecomIncoming} (h : s.Sound) : (s.receive incoming).Sound := by
  cases incoming with
  | heartbeatAck errcode => exact sound_settle (sound_heard h) rfl
  | takenOver =>
    intro hconnected
    exact absurd hconnected Bool.false_ne_true
  | other => exact sound_heard h
  | bad => exact sound_receiverEnds (sound_heard h)

theorem sound_beat {due : Nat} {send : HeartbeatSend} (h : s.Sound)
    (hbeat : s.heartbeat = .sleeping due) : (s.beat send).Sound := by
  have hsoon (hconnected : s.connected = true) : s.heardAt ≤ s.now ∧ s.Soon due 1 := by
    simpa only [Timely, hbeat] using h hconnected
  have hmissed : s.missHeartbeat.Sound := by
    apply sound_missHeartbeat
    intro hconnected
    obtain ⟨hle, hdue⟩ := hsoon hconnected
    unfold Soon at hdue
    exact ⟨hle, by omega⟩
  unfold beat
  split_ifs with hconnected htransport
  · cases send with
    | sent =>
      intro _
      obtain ⟨hle, hdue⟩ := hsoon hconnected
      unfold Soon at hdue
      refine ⟨hle, Nat.le_add_right _ _, ?_⟩
      dsimp only
      omega
    | failed => exact hmissed
    | cancelled =>
      intro _
      obtain ⟨hle, hdue⟩ := hsoon hconnected
      unfold Soon at hdue
      refine ⟨hle, ?_⟩
      change s.now ≤ s.heardAt + 4 * s.interval
      omega
  · exact hmissed
  · intro hc
    exact absurd hc hconnected

variable {a : WecomConnectionAction} {s' : WecomConnection}

theorem step_sound (h : s.Sound)
    (hg : s.Watched a) (hs : wecomConnectionStep s a = some s') : s'.Sound := by
  cases a with
  | pass ticks =>
    obtain ⟨hreach, ht⟩ := Option.ite_none_right_eq_some.mp hs
    cases ht
    exact sound_pass h hg hreach
  | connect =>
    obtain ⟨-, ht⟩ := Option.ite_none_right_eq_some.mp hs
    cases ht
    exact h
  | subscribed ok =>
    obtain ⟨-, ht⟩ := Option.ite_none_right_eq_some.mp hs
    cases ok with
    | true =>
      cases ht
      apply sound_heartbeatLoop
      intro _
      refine ⟨le_rfl, Nat.le_add_right _ _, Or.inl ⟨rfl, ?_⟩⟩
      change s.now + s.interval ≤ s.now + 1 * s.interval
      omega
    | false =>
      cases ht
      exact h
  | startReturns =>
    obtain ⟨-, ht⟩ := Option.ite_none_left_eq_some.mp hs
    cases ht
    exact h
  | receives incoming =>
    obtain ⟨-, ht⟩ := Option.ite_none_right_eq_some.mp hs
    cases ht
    exact sound_receive h
  | receiverEnds =>
    obtain ⟨-, ht⟩ := Option.ite_none_right_eq_some.mp hs
    cases ht
    exact sound_receiverEnds h
  | beat send =>
    simp only [wecomConnectionStep] at hs
    split at hs
    case h_1 due hbeat =>
      obtain ⟨-, ht⟩ := Option.ite_none_right_eq_some.mp hs
      cases ht
      exact sound_beat h hbeat
    case h_2 => cases hs
  | answered =>
    simp only [wecomConnectionStep] at hs
    split at hs
    case h_1 deadline hbeat =>
      cases hs
      apply sound_heartbeatLoop
      intro hconnected
      obtain ⟨hle, htimely⟩ := h hconnected
      simp only [Timely, hbeat] at htimely
      refine ⟨hle, Nat.le_add_right _ _, Or.inl ⟨rfl, ?_⟩⟩
      change s.now + s.interval ≤ s.heardAt + 1 * s.interval
      omega
    case h_2 deadline hbeat =>
      cases hs
      apply sound_missHeartbeat
      intro hconnected
      obtain ⟨hle, htimely⟩ := h hconnected
      simp only [Timely, hbeat] at htimely
      exact ⟨hle, by omega⟩
    case h_3 => cases hs
  | timesOut =>
    simp only [wecomConnectionStep] at hs
    split at hs
    case h_1 deadline hbeat =>
      obtain ⟨-, ht⟩ := Option.ite_none_right_eq_some.mp hs
      cases ht
      apply sound_missHeartbeat
      intro hconnected
      obtain ⟨hle, htimely⟩ := h hconnected
      simp only [Timely, hbeat, Soon] at htimely
      exact ⟨hle, by omega⟩
    case h_2 => cases hs
  | teardown =>
    cases hs
    exact h
  | disconnect stopping =>
    cases hs
    intro hconnected
    exact absurd hconnected Bool.false_ne_true

/-- The handler in `_heartbeat_loop` keeps the task from every exception but a cancellation. -/
theorem step_not_raised (h : s.heartbeat ≠ .raised) (ha : a ≠ .beat .cancelled)
    (hs : wecomConnectionStep s a = some s') : s'.heartbeat ≠ .raised := by
  have hloop (t : WecomConnection) : t.heartbeatLoop.heartbeat ≠ .raised := by
    unfold heartbeatLoop
    split_ifs with hconnected
    · exact WecomHeartbeat.noConfusion
    · exact WecomHeartbeat.noConfusion
  have hmiss (t : WecomConnection) : t.missHeartbeat.heartbeat ≠ .raised := by
    unfold missHeartbeat
    dsimp only
    split_ifs with hlast
    · exact WecomHeartbeat.noConfusion
    · exact hloop _
  cases a with
  | pass ticks | connect | receiverEnds =>
    obtain ⟨-, ht⟩ := Option.ite_none_right_eq_some.mp hs
    cases ht
    exact h
  | subscribed ok =>
    obtain ⟨-, ht⟩ := Option.ite_none_right_eq_some.mp hs
    cases ok with
    | true =>
      cases ht
      exact hloop _
    | false =>
      cases ht
      exact h
  | startReturns =>
    obtain ⟨-, ht⟩ := Option.ite_none_left_eq_some.mp hs
    cases ht
    exact h
  | receives incoming =>
    obtain ⟨-, ht⟩ := Option.ite_none_right_eq_some.mp hs
    cases ht
    cases incoming with
    | heartbeatAck errcode | takenOver => exact WecomHeartbeat.settle_ne_raised h
    | other | bad => exact h
  | beat send =>
    simp only [wecomConnectionStep] at hs
    split at hs
    · obtain ⟨-, ht⟩ := Option.ite_none_right_eq_some.mp hs
      cases ht
      unfold beat
      split_ifs with hconnected htransport
      · cases send with
        | sent => exact WecomHeartbeat.noConfusion
        | failed => exact hmiss s
        | cancelled => exact absurd rfl ha
      · exact hmiss s
      · exact WecomHeartbeat.noConfusion
    · cases hs
  | answered =>
    simp only [wecomConnectionStep] at hs
    split at hs
    · cases hs
      exact hloop _
    · cases hs
      exact hmiss s
    · cases hs
  | timesOut =>
    simp only [wecomConnectionStep] at hs
    split at hs
    · obtain ⟨-, ht⟩ := Option.ite_none_right_eq_some.mp hs
      cases ht
      exact hmiss s
    · cases hs
  | teardown =>
    cases hs
    exact h
  | disconnect stopping =>
    cases hs
    exact WecomHeartbeat.noConfusion

end Steps

variable (interval now : Nat)

theorem always_noticed (as : List WecomConnectionAction)
    (h : Guarded wecomConnectionStep Watched (fresh now interval) as) :
    Always wecomConnectionStep Noticed (fresh now interval) as := by
  apply always_mono (fun _ => Sound.noticed)
  exact always_of_guarded (fun _ _ _ => step_sound) (sound_fresh now interval) h

/-- The WeCom adapter notices every dead connection unless the send of a heartbeat is cancelled from
elsewhere. -/
theorem noticed_of_uncancelled (as : List WecomConnectionAction)
    (h : Guarded wecomConnectionStep (fun _ a => a ≠ .beat .cancelled) (fresh now interval) as) :
    Always wecomConnectionStep Noticed (fresh now interval) as := by
  have hstep (t : WecomConnection) (a : WecomConnectionAction) (t' : WecomConnection)
      (ht : t.Sound ∧ t.heartbeat ≠ .raised) (ha : a ≠ .beat .cancelled)
      (hs : wecomConnectionStep t a = some t') : t'.Sound ∧ t'.heartbeat ≠ .raised := by
    refine ⟨step_sound ht.1 ?_ hs, step_not_raised ht.2 ha hs⟩
    cases a with
    | pass ticks => exact fun _ _ => ht.2
    | _ => trivial
  have hsound : (fresh now interval).Sound ∧ (fresh now interval).heartbeat ≠ .raised :=
    ⟨sound_fresh now interval, WecomHeartbeat.noConfusion⟩
  exact always_mono (fun _ ht => ht.1.noticed) (always_of_guarded hstep hsound h)

theorem uncancelled_noticed : Always wecomConnectionStep Noticed (fresh 0 30)
    [.connect, .subscribed true, .startReturns, .pass 30, .beat .failed, .pass 200] :=
  noticed_of_uncancelled 30 0 _ (by decide)

end WecomConnection

/-- In every run in which no time passes between the end of a heartbeat task by an exception and
the end of its connection, an adapter that is alive has heard something, or was connected, in the
last five intervals. -/
theorem dead_connections_noticed (second configured interval now : Nat)
    (as : List QqConnectionAction) (bs : List WecomConnectionAction) :
    (Guarded (qqConnectionStep second configured) QqConnection.Watched (.fresh now) as →
      Always (qqConnectionStep second configured) QqConnection.Noticed (.fresh now) as) ∧
    (Guarded wecomConnectionStep WecomConnection.Watched (.fresh now interval) bs →
      Always wecomConnectionStep WecomConnection.Noticed (.fresh now interval) bs) :=
  ⟨QqConnection.always_noticed second configured now as,
    WecomConnection.always_noticed interval now bs⟩

section Runs

def establishedRun : List QqConnectionAction :=
  [.connect, .receives (.ok ⟨.hello, false, 30000⟩), .receives (.ok ⟨.dispatch, true, 0⟩),
    .startReturns]

def silentRun : List QqConnectionAction :=
  establishedRun ++ [.pass 30000, .beat .sent, .pass 30000, .beat .sent, .pass 200000]

def silentWecomRun : List WecomConnectionAction :=
  [.connect, .subscribed true, .startReturns, .pass 30, .beat .sent, .pass 30, .timesOut, .pass 30,
    .beat .failed, .pass 200]

theorem silent_connections_noticed :
    Always (qqConnectionStep 1000 30000) QqConnection.Noticed (.fresh 0) silentRun ∧
      (run (qqConnectionStep 1000 30000) (.fresh 0) silentRun).map QqConnection.isAlive =
        some false ∧
      Always wecomConnectionStep WecomConnection.Noticed (.fresh 0 30) silentWecomRun ∧
      (run wecomConnectionStep (.fresh 0 30) silentWecomRun).map WecomConnection.isAlive =
        some false := by
  obtain ⟨hqq, hwecom⟩ := dead_connections_noticed 1000 30000 30 0 silentRun silentWecomRun
  exact ⟨hqq (by decide), rfl, hwecom (by decide), rfl⟩

/-- The send of a heartbeat raises, and `recv` goes on waiting. -/
def lostHeartbeatRun : List QqConnectionAction :=
  establishedRun ++ [.pass 30000, .beat .failed, .pass 150000]

theorem lost_heartbeat_unnoticed :
    ¬ Always (qqConnectionStep 1000 30000) QqConnection.Noticed (.fresh 0) lostHeartbeatRun := by
  intro h
  have hlast := always_last h rfl
  exact absurd (hlast rfl) (by decide)

end Runs

end WittyService
