import Mathlib.Tactic.SplitIfs
import WittyService.GuardedRuns

/-! The heartbeats of the QQ gateway. Time is counted in ticks of a monotonic clock, as short as one
likes. A task that sleeps goes on when it is due: no time passes beyond that. `heardAt` is when the
last frame arrived or the connection was established. -/
namespace WittyService

open GuardedRuns

/-- How the send of a heartbeat ends: a cancellation is no `Exception`. -/
inductive HeartbeatSend where
  | sent
  | failed
  | cancelled
  deriving DecidableEq, Repr

/-- The heartbeat task of the QQ transport. Nobody awaits it when it raises. -/
inductive QqHeartbeat where
  | absent
  | sleeping (due : Nat)
  | returned
  | raised
  deriving DecidableEq, Repr

namespace QqHeartbeat

def mayReach (moment : Nat) : QqHeartbeat → Bool
  | sleeping due => moment ≤ due
  | absent | returned | raised => true

def isDue (now : Nat) : QqHeartbeat → Bool
  | sleeping due => due ≤ now
  | absent | returned | raised => false

end QqHeartbeat

/-- `_run`: waiting for Hello, waiting for READY, in the receive loop, or done. -/
inductive QqTask where
  | hello
  | identified (interval : Nat)
  | receiving
  | done
  deriving DecidableEq, Repr

inductive GatewayOp where
  | hello
  | dispatch
  | heartbeatAck
  | reconnect
  | invalidSession
  | other
  deriving DecidableEq, Repr

/-- `isReady` when the type of the frame is READY. `interval` is the heartbeat interval that a
Hello gives, 0 without one. -/
structure QqFrame where
  op : GatewayOp
  isReady : Bool
  interval : Nat
  deriving DecidableEq, Repr

structure QqGatewayTransport where
  task : Option QqTask
  ready : Bool
  established : Bool
  failure : Option String
  lastFrameAt : Nat
  interval : Nat
  heartbeat : QqHeartbeat
  deriving DecidableEq, Repr

namespace QqGatewayTransport

variable (t : QqGatewayTransport)

def MAX_MISSED_HEARTBEATS : Nat := 2

def isAlive : Bool :=
  t.failure.isNone && t.ready && t.task.any fun task => task ≠ .done

/-- `connect` up to its wait for READY. -/
def connecting (now : Nat) : QqGatewayTransport :=
  ⟨some .hello, false, false, none, now, 0, .absent⟩

/-- What `close` leaves. -/
def close : QqGatewayTransport :=
  { t with task := none, ready := false, heartbeat := .absent }

def setFailure (code : String) : QqGatewayTransport := { t with failure := t.failure.or code }

/-- `_run` ends with an error. -/
def runEnds (code : String) : QqGatewayTransport :=
  { t.setFailure code with ready := true, task := some .done }

/-- The heartbeat interval after the handshake, from the one that Hello gives and the configured
one: at least a second. -/
def handshakeInterval (second configured given : Nat) : Nat :=
  max (if given = 0 then configured else given) second

def establish (now interval : Nat) : QqGatewayTransport :=
  { t with
    task := some .receiving, established := true, ready := true, interval := interval
    heartbeat := .sleeping (now + interval) }

/-- `_dispatch`, by the code of the error it raises. -/
def dispatch (frame : QqFrame) : Option String :=
  match frame.op with
  | .reconnect => some "QQ_WS_RECONNECT"
  | .invalidSession => some "QQ_WS_INVALID_SESSION"
  | .hello | .dispatch | .heartbeatAck | .other => none

/-- What `_run` makes of a frame once it is read. -/
def handle (second configured now : Nat) (frame : QqFrame) : QqGatewayTransport :=
  match t.task with
  | some .hello =>
    if frame.op = .hello then
      { t with task := some (.identified (handshakeInterval second configured frame.interval)) }
    else t.runEnds "QQ_BAD_HELLO"
  | some (.identified interval) =>
    if frame.isReady then t.establish now interval
    else ((dispatch frame).map t.runEnds).getD t
  | some .receiving => ((dispatch frame).map t.runEnds).getD t
  | some .done | none => t

/-- `_recv_frame` has received something: a frame, or what is none, with the code of the error. -/
def receive (second configured now : Nat) (frame : Except String QqFrame) : QqGatewayTransport :=
  let heard := { t with lastFrameAt := now }
  match frame with
  | .ok frame => heard.handle second configured now frame
  | .error code => heard.runEnds code

/-- One turn of `_heartbeat_loop` after its sleep. -/
def beat (now : Nat) (send : HeartbeatSend) : QqGatewayTransport :=
  if t.interval * MAX_MISSED_HEARTBEATS ≤ now - t.lastFrameAt then
    { t.setFailure "QQ_WS_HEARTBEAT_TIMEOUT" with heartbeat := .returned }
  else
    match send with
    | .sent => { t with heartbeat := .sleeping (now + t.interval) }
    -- no handler around the send: the task is over, and nobody looks at its exception
    | .failed | .cancelled => { t with heartbeat := .raised }

theorem beat_frame (now : Nat) (send : HeartbeatSend) :
    (t.beat now send).task = t.task ∧ (t.beat now send).ready = t.ready := by
  unfold beat
  split_ifs with hsilent
  · exact ⟨rfl, rfl⟩
  · cases send with
    | sent | failed | cancelled => exact ⟨rfl, rfl⟩

end QqGatewayTransport

/-- The QQ adapter with the transport it made last. `attached` when that is its `_transport`. -/
structure QqConnection where
  now : Nat
  heardAt : Nat
  started : Bool
  attached : Bool
  transport : QqGatewayTransport
  deriving DecidableEq, Repr

/-- `runFails` is an error of `_run` besides a frame: the handshake fails, or `recv` raises. -/
inductive QqConnectionAction where
  | pass (ticks : Nat)
  | connect
  | receives (frame : Except String QqFrame)
  | runFails (code : String)
  | beat (send : HeartbeatSend)
  | startReturns
  | disconnect (stopping : Bool)

namespace QqConnection

variable (s : QqConnection)

def fresh (now : Nat) : QqConnection :=
  ⟨now, now, false, false, (QqGatewayTransport.connecting now).close⟩

def isAlive : Bool := s.started && s.attached && s.transport.isAlive

/-- `_run` waits for a frame. -/
def listens : Bool := s.transport.task.any fun task => task ≠ .done

def receive (second configured : Nat) (frame : Except String QqFrame) : QqConnection :=
  { s with
    heardAt := s.now
    transport := s.transport.receive second configured s.now frame }

end QqConnection

def qqConnectionStep (second configured : Nat) (s : QqConnection) :
    QqConnectionAction → Option QqConnection
  | .pass ticks =>
    if s.transport.heartbeat.mayReach (s.now + ticks) then some { s with now := s.now + ticks }
    else none
  | .connect =>
    if s.attached = false ∧ s.transport.task = none then
      some { s with started := false, transport := .connecting s.now }
    else none
  | .receives frame => if s.listens then some (s.receive second configured frame) else none
  | .runFails code =>
    if s.listens then some { s with transport := s.transport.runEnds code } else none
  | .beat send =>
    if s.transport.heartbeat.isDue s.now then
      some { s with transport := s.transport.beat s.now send }
    else none
  | .startReturns =>
    if s.attached = false ∧ s.transport.ready = true ∧
        (s.transport.failure = none ∨ s.transport.established = true) then
      some { s with started := true, attached := true }
    else none
  | .disconnect stopping =>
    some { s with
      started := s.started && !stopping, attached := false, transport := s.transport.close }

namespace QqConnection

variable (s : QqConnection)

/-- What `is_alive` promises. -/
def Noticed : Prop := s.isAlive = true → s.now ≤ s.heardAt + 5 * s.transport.interval

/-- No time passes with a heartbeat task that an exception has ended and a transport that passes
for alive. -/
def Watched : QqConnectionAction → Prop
  | .pass ticks => 0 < ticks → s.transport.isAlive = true → s.transport.heartbeat ≠ .raised
  | _ => True

instance : DecidablePred s.Watched := fun a =>
  match a with
  | .pass ticks =>
    inferInstanceAs (Decidable (0 < ticks → s.transport.isAlive = true →
      s.transport.heartbeat ≠ .raised))
  | .connect | .receives _ | .runFails _ | .beat _ | .startReturns | .disconnect _ => isTrue trivial

/-- The next beat comes at most three intervals after the last frame: it is put off only when there
was a frame in the last two. -/
def Timely : Prop :=
  match s.transport.heartbeat with
  | .sleeping due => s.now ≤ due ∧ due ≤ s.heardAt + 3 * s.transport.interval
  | .raised => s.now ≤ s.heardAt + 3 * s.transport.interval
  | .absent | .returned => False

/-- The receive loop runs with a heartbeat task beside it, and nothing is ready before. -/
def Sound : Prop :=
  match s.transport.task with
  | some .receiving =>
    s.transport.ready = true ∧ s.heardAt = s.transport.lastFrameAt ∧
      s.heardAt ≤ s.now ∧ (s.transport.failure = none → s.Timely)
  | some .hello | some (.identified _) => s.transport.ready = false
  | some .done | none => True

section Steps

variable {s}

theorem sound_fresh (now : Nat) : (fresh now).Sound := trivial

theorem isAlive_receiving (hready : s.transport.ready = true)
    (htask : s.transport.task = some .receiving) (hf : s.transport.failure = none) :
    s.transport.isAlive = true := by
  simp [QqGatewayTransport.isAlive, hready, htask, hf]

theorem Sound.noticed (h : s.Sound) : s.Noticed := by
  intro halive
  simp only [isAlive, QqGatewayTransport.isAlive, Bool.and_eq_true,
    Option.isNone_iff_eq_none] at halive
  obtain ⟨-, ⟨hfailure, hready⟩, htask⟩ := halive
  unfold Sound at h
  split at h
  case h_1 _ =>
    obtain ⟨-, -, -, htimely⟩ := h
    have hdue := htimely hfailure
    unfold Timely at hdue
    split at hdue
    · omega
    · omega
    · exact hdue.elim
    · exact hdue.elim
  case h_2 _ => simp [hready] at h
  case h_3 _ => simp [hready] at h
  case h_4 heq => simp [heq] at htask
  case h_5 heq => simp [heq] at htask

theorem sound_pass {ticks : Nat} (h : s.Sound) (hg : s.Watched (.pass ticks))
    (hreach : s.transport.heartbeat.mayReach (s.now + ticks) = true) :
    Sound { s with now := s.now + ticks } := by
  unfold Sound at h ⊢
  split at h
  case h_1 heq =>
    obtain ⟨hready, hheard, hle, htimely⟩ := h
    simp only [heq]
    refine ⟨hready, hheard, by omega, fun hfailure => ?_⟩
    have halive := isAlive_receiving hready heq hfailure
    have hdue := htimely hfailure
    unfold Timely at hdue ⊢
    cases hbeat : s.transport.heartbeat with
    | sleeping due =>
      simp only [hbeat, QqHeartbeat.mayReach, decide_eq_true_eq] at hreach hdue ⊢
      omega
    | raised =>
      -- the heartbeat is lost, so this is not a step that takes time
      have hticks : ¬ 0 < ticks := fun hpos => hg hpos halive hbeat
      simp only [hbeat] at hdue ⊢
      omega
    | absent | returned => simp [hbeat] at hdue
  case h_2 heq => simpa only [heq] using h
  case h_3 heq => simpa only [heq] using h
  case h_4 heq => simp only [heq]
  case h_5 heq => simp only [heq]

variable {second configured : Nat}

theorem sound_receive {frame : Except String QqFrame} (h : s.Sound) :
    (s.receive second configured frame).Sound := by
  cases frame with
  | error code => trivial
  | ok frame =>
    unfold Sound at h
    unfold receive QqGatewayTransport.receive QqGatewayTransport.handle
    split at h
    case h_1 heq =>
      obtain ⟨hready, -, hle, htimely⟩ := h
      simp only [heq]
      cases QqGatewayTransport.dispatch frame with
      | some code => trivial
      | none =>
        simp only [Sound, Option.map_none, Option.getD_none]
        refine ⟨hready, trivial, Nat.le_refl _, fun hfailure => ?_⟩
        have hdue := htimely hfailure
        unfold Timely at hdue ⊢
        dsimp only
        split at hdue
        · omega
        · omega
        · exact hdue
        · exact hdue
    case h_2 heq =>
      simp only [heq]
      by_cases hop : frame.op = .hello
      · simp only [if_pos hop]
        exact h
      · simp only [if_neg hop]
        trivial
    case h_3 interval heq =>
      simp only [heq]
      by_cases hready : frame.isReady = true
      · simp only [if_pos hready]
        refine ⟨rfl, rfl, Nat.le_refl _, fun _ => ?_⟩
        apply And.intro
        · exact Nat.le_add_right s.now interval
        · change s.now + interval ≤ s.now + 3 * interval
          omega
      · simp only [if_neg hready]
        cases QqGatewayTransport.dispatch frame with
        | some code => trivial
        | none =>
          exact h
    case h_4 heq => simp only [Sound, heq]
    case h_5 heq => simp only [Sound, heq]

theorem sound_beat {send : HeartbeatSend} (h : s.Sound) :
    Sound { s with transport := s.transport.beat s.now send } := by
  obtain ⟨htask, hframe⟩ := s.transport.beat_frame s.now send
  unfold Sound at h ⊢
  simp only [htask]
  split at h
  case h_1 heq =>
    obtain ⟨hready, hheard, hpast, htimely⟩ := h
    refine ⟨hframe.trans hready, ?_⟩
    unfold QqGatewayTransport.beat
    split_ifs with hsilent
    · refine ⟨hheard, hpast, fun hfailure => ?_⟩
      -- the first failure is kept, but there is one now
      cases hfirst : s.transport.failure with
      | none | some code => simp [QqGatewayTransport.setFailure, hfirst] at hfailure
    · have hrecent : s.now < s.heardAt + 2 * s.transport.interval := by
        simp only [QqGatewayTransport.MAX_MISSED_HEARTBEATS] at hsilent
        omega
      cases send with
      | sent =>
        refine ⟨hheard, hpast, fun _ => ⟨Nat.le_add_right _ _, ?_⟩⟩
        change s.now + s.transport.interval ≤ s.heardAt + 3 * s.transport.interval
        omega
      | failed | cancelled =>
        refine ⟨hheard, hpast, fun _ => ?_⟩
        change s.now ≤ s.heardAt + 3 * s.transport.interval
        omega
  case h_2 heq => exact hframe.trans h
  case h_3 heq => exact hframe.trans h
  case h_4 => trivial
  case h_5 => trivial

theorem step_sound {a : QqConnectionAction} {s' : QqConnection}
    (h : s.Sound) (hg : s.Watched a) (hs : qqConnectionStep second configured s a = some s') :
    s'.Sound := by
  cases a with
  | pass ticks =>
    obtain ⟨hreach, ht⟩ := Option.ite_none_right_eq_some.mp hs
    cases ht
    exact sound_pass h hg hreach
  | connect =>
    obtain ⟨-, ht⟩ := Option.ite_none_right_eq_some.mp hs
    cases ht
    rfl
  | receives frame =>
    obtain ⟨-, ht⟩ := Option.ite_none_right_eq_some.mp hs
    cases ht
    exact sound_receive h
  | runFails code =>
    obtain ⟨-, ht⟩ := Option.ite_none_right_eq_some.mp hs
    cases ht
    trivial
  | beat send =>
    obtain ⟨-, ht⟩ := Option.ite_none_right_eq_some.mp hs
    cases ht
    exact sound_beat h
  | startReturns =>
    obtain ⟨-, ht⟩ := Option.ite_none_right_eq_some.mp hs
    cases ht
    exact h
  | disconnect stopping =>
    cases hs
    trivial

end Steps

theorem always_noticed (second configured now : Nat) (as : List QqConnectionAction)
    (h : Guarded (qqConnectionStep second configured) Watched (fresh now) as) :
    Always (qqConnectionStep second configured) Noticed (fresh now) as := by
  apply always_mono (fun _ => Sound.noticed)
  exact always_of_guarded (fun _ _ _ => step_sound) (sound_fresh now) h

end QqConnection

end WittyService
