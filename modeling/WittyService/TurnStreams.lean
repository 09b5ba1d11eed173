import Mathlib.Logic.Function.Basic
import WittyService.GuardedRuns
import WittyService.SessionStreamRegistry

/-! The turns and reconnecting clients of one session on its stream registry. An action is
what one task does between two suspension points, so any order of actions is a possible
interleaving. The clients of a turn that go on reading are not modelled beyond their queue. -/
namespace WittyService

variable {E : Type*}

/-- `reserved` is a regeneration that has called `try_start_stream` and is connecting;
`streaming` is a turn whose `consume_ws` task exists. -/
inductive TurnPhase where
  | idle
  | reserved (generation : Nat)
  | streaming (generation queue : Nat)
  | over
  deriving DecidableEq, Repr

/-- Where a `reconnect_stream` call stands. `replaying rest` is suspended at the yield of a
buffered event with `rest` still to come, `live queue taken` waits in `queue.get()`. -/
inductive ReconnectPhase (E : Type*) where
  | away
  | noStream
  | replaying (rest : List E)
  | live (queue taken : Nat)
  | done
  | left

/-- `follows` is no data of the program: the turn whose stream the call found current. -/
structure Reconnect (E : Type*) where
  phase : ReconnectPhase E
  received : List E
  follows : Option Nat

/-- The last three fields are no data of the program. `current` is the turn whose stream
was started last and has not ended since; `sent t` is what the consumer of `t` pushed while
that was so; `audience q` is the turn whose stream `q` subscribed to, with the number of
events that turn had sent by then, until `q` unsubscribes. -/
structure TurnStreams (E : Type*) where
  registry : SessionStreamRegistry E
  turns : Nat → TurnPhase
  clients : Nat → Reconnect E
  current : Option Nat
  sent : Nat → List E
  audience : Nat → Option (Nat × Nat)

def TurnStreams.new : TurnStreams E :=
  ⟨.new, fun _ => .idle, fun _ => ⟨.away, [], none⟩, none, fun _ => [], fun _ => none⟩

inductive StreamAction (E : Type*) where
  | start (t : Nat)
  | reserve (t : Nat)
  | release (t : Nat)
  | handOver (t : Nat)
  | push (t : Nat) (e : E)
  | finish (t : Nat)
  | fail (t : Nat) (e : E)
  | throw (t : Nat) (e : E)
  | disconnect (t : Nat)
  | reconnect (c : Nat)
  | resume (c : Nat)
  | take (c : Nat)
  | leave (c : Nat)

namespace TurnStreams

def setPhase (s : TurnStreams E) (t : Nat) (p : TurnPhase) : TurnStreams E :=
  { s with turns := Function.update s.turns t p }

def setClient (s : TurnStreams E) (c : Nat) (r : Reconnect E) : TurnStreams E :=
  { s with clients := Function.update s.clients c r }

/-- `start_stream` on behalf of turn `t`. -/
def begin (s : TurnStreams E) (t : Nat) : TurnStreams E :=
  { s with registry := s.registry.startStream, current := some t }

/-- `subscribe`, the new queue listening as `listener` says. -/
def listen (s : TurnStreams E) (listener : Option (Nat × Nat)) : TurnStreams E :=
  { s with
    registry := s.registry.subscribe
    audience := Function.update s.audience s.registry.nextQueue listener }

def pushBy (s : TurnStreams E) (t generation : Nat) (e : E) : TurnStreams E :=
  { s with
    registry := s.registry.pushEvent e generation
    sent := if s.current = some t then Function.update s.sent t (s.sent t ++ [e]) else s.sent }

/-- `current` after turn `t` has ended its stream. -/
def currentWithout (s : TurnStreams E) (t : Nat) : Option Nat :=
  if s.current = some t then none else s.current

def endBy (s : TurnStreams E) (t : Nat) : TurnStreams E :=
  { s with registry := s.registry.endStream, current := s.currentWithout t }

/-- The `finally` block of `consume_ws`. -/
def closeBy (s : TurnStreams E) (t : Nat) : TurnStreams E :=
  { s.endBy t with registry := s.registry.endStream.cleanup }

def releaseBy (s : TurnStreams E) (t generation : Nat) : TurnStreams E :=
  { s with registry := s.registry.releaseStream generation, current := s.currentWithout t }

def drop (s : TurnStreams E) (queue : Nat) : TurnStreams E :=
  { s with
    registry := s.registry.unsubscribe queue
    audience := Function.update s.audience queue none }

def joining (s : TurnStreams E) : Option (Nat × Nat) :=
  s.current.map fun t => (t, (s.sent t).length)

/-- `reconnect_stream` registers its live queue and waits for the first item. -/
def goLive (s : TurnStreams E) (c : Nat) (follows : Option Nat) (received : List E) :
    TurnStreams E :=
  (s.listen s.joining).setClient c ⟨.live s.registry.nextQueue 0, received, follows⟩

def replay (s : TurnStreams E) (c : Nat) (follows : Option Nat) (received : List E) :
    List E → TurnStreams E
  | [] => s.goLive c follows received
  | e :: rest => s.setClient c ⟨.replaying rest, received ++ [e], follows⟩

end TurnStreams

def streamStep (s : TurnStreams E) : StreamAction E → Option (TurnStreams E)
  | .start t =>
    -- `_stream_assistant_turn` without a reservation, once it is connected
    match s.turns t with
    | .idle => some (((s.begin t).listen (some (t, 0))).setPhase t
        (.streaming s.registry.nextGeneration s.registry.nextQueue))
    | _ => none
  | .reserve t =>
    match s.turns t, s.registry.tryStartStream with
    | .idle, some _ => some ((s.begin t).setPhase t (.reserved s.registry.nextGeneration))
    | .idle, none => some (s.setPhase t .over)
    | _, _ => none
  | .release t =>
    match s.turns t with
    | .reserved g => some ((s.releaseBy t g).setPhase t .over)
    | _ => none
  | .handOver t =>
    match s.turns t with
    | .reserved g => some ((s.listen (some (t, 0))).setPhase t
        (.streaming g s.registry.nextQueue))
    | _ => none
  | .push t e =>
    match s.turns t with
    | .streaming g _ => some (s.pushBy t g e)
    | _ => none
  | .finish t =>
    -- the terminal event is out, or the iteration ended, or the task was cancelled
    match s.turns t with
    | .streaming _ _ => some ((s.closeBy t).setPhase t .over)
    | _ => none
  | .fail t e =>
    -- an error event: pushed, ended and returned from, then the `finally` block
    match s.turns t with
    | .streaming g _ => some ((((s.pushBy t g e).endBy t).closeBy t).setPhase t .over)
    | _ => none
  | .throw t e =>
    -- an exception: `stream.error` is pushed, then the `finally` block
    match s.turns t with
    | .streaming g _ => some (((s.pushBy t g e).closeBy t).setPhase t .over)
    | _ => none
  | .disconnect t =>
    match s.turns t with
    | .streaming _ q => some (s.drop q)
    | _ => none
  | .reconnect c =>
    match (s.clients c).phase with
    | .away =>
      if s.registry.isActive then
        some (s.replay c s.current [] s.registry.getBufferedEvents)
      else some (s.setClient c ⟨.noStream, [], none⟩)
    | _ => none
  | .resume c =>
    match (s.clients c).phase with
    | .replaying rest => some (s.replay c (s.clients c).follows (s.clients c).received rest)
    | _ => none
  | .take c =>
    match (s.clients c).phase with
    | .live q k =>
      match (s.registry.queues q)[k]? with
      | some (some e) => some (s.setClient c
          ⟨.live q (k + 1), (s.clients c).received ++ [e], (s.clients c).follows⟩)
      | some none => some (s.setClient c { s.clients c with phase := .done })
      | none => none
    | _ => none
  | .leave c =>
    match (s.clients c).phase with
    | .replaying _ => some (s.setClient c { s.clients c with phase := .left })
    | .live q _ => some ((s.drop q).setClient c { s.clients c with phase := .left })
    | _ => none

/-- What an enabled action finds and what it leaves, one case per outcome. -/
inductive StreamMove (s : TurnStreams E) : StreamAction E → TurnStreams E → Prop where
  | start {t : Nat} (h : s.turns t = .idle) :
    StreamMove s (.start t) (((s.begin t).listen (some (t, 0))).setPhase t
      (.streaming s.registry.nextGeneration s.registry.nextQueue))
  | reserve {t : Nat} (h : s.turns t = .idle) (ha : s.registry.isActive = false) :
    StreamMove s (.reserve t) ((s.begin t).setPhase t (.reserved s.registry.nextGeneration))
  | refuse {t : Nat} (h : s.turns t = .idle) (ha : s.registry.isActive = true) :
    StreamMove s (.reserve t) (s.setPhase t .over)
  | release {t g : Nat} (h : s.turns t = .reserved g) :
    StreamMove s (.release t) ((s.releaseBy t g).setPhase t .over)
  | handOver {t g : Nat} (h : s.turns t = .reserved g) :
    StreamMove s (.handOver t) ((s.listen (some (t, 0))).setPhase t
      (.streaming g s.registry.nextQueue))
  | push {t g q : Nat} {e : E} (h : s.turns t = .streaming g q) :
    StreamMove s (.push t e) (s.pushBy t g e)
  | finish {t g q : Nat} (h : s.turns t = .streaming g q) :
    StreamMove s (.finish t) ((s.closeBy t).setPhase t .over)
  | fail {t g q : Nat} {e : E} (h : s.turns t = .streaming g q) :
    StreamMove s (.fail t e) ((((s.pushBy t g e).endBy t).closeBy t).setPhase t .over)
  | throw {t g q : Nat} {e : E} (h : s.turns t = .streaming g q) :
    StreamMove s (.throw t e) (((s.pushBy t g e).closeBy t).setPhase t .over)
  | disconnect {t g q : Nat} (h : s.turns t = .streaming g q) :
    StreamMove s (.disconnect t) (s.drop q)
  | reconnect {c : Nat} (h : (s.clients c).phase = .away) (ha : s.registry.isActive = true) :
    StreamMove s (.reconnect c) (s.replay c s.current [] s.registry.getBufferedEvents)
  | noStream {c : Nat} (h : (s.clients c).phase = .away) (ha : s.registry.isActive = false) :
    StreamMove s (.reconnect c) (s.setClient c ⟨.noStream, [], none⟩)
  | resume {c : Nat} {rest : List E} (h : (s.clients c).phase = .replaying rest) :
    StreamMove s (.resume c) (s.replay c (s.clients c).follows (s.clients c).received rest)
  | takeEvent {c q k : Nat} {e : E} (h : (s.clients c).phase = .live q k)
      (hq : (s.registry.queues q)[k]? = some (some e)) :
    StreamMove s (.take c) (s.setClient c
      ⟨.live q (k + 1), (s.clients c).received ++ [e], (s.clients c).follows⟩)
  | takeEnd {c q k : Nat} (h : (s.clients c).phase = .live q k)
      (hq : (s.registry.queues q)[k]? = some none) :
    StreamMove s (.take c) (s.setClient c { s.clients c with phase := .done })
  | leaveReplay {c : Nat} {rest : List E} (h : (s.clients c).phase = .replaying rest) :
    StreamMove s (.leave c) (s.setClient c { s.clients c with phase := .left })
  | leaveLive {c q k : Nat} (h : (s.clients c).phase = .live q k) :
    StreamMove s (.leave c) ((s.drop q).setClient c { s.clients c with phase := .left })

variable {r : SessionStreamRegistry E} {s : TurnStreams E}

theorem tryStartStream_eq_some {r' : SessionStreamRegistry E}
    (h : r.tryStartStream = some r') : r.isActive = false := by
  unfold SessionStreamRegistry.tryStartStream at h
  split at h
  · cases h
  · exact Bool.not_eq_true _ ▸ ‹_›

theorem tryStartStream_eq_none (h : r.tryStartStream = none) : r.isActive = true := by
  unfold SessionStreamRegistry.tryStartStream at h
  split at h
  · assumption
  · cases h

theorem stream_move_of_step {s' : TurnStreams E} {a : StreamAction E}
    (h : streamStep s a = some s') : StreamMove s a s' := by
  cases a with
  | start t =>
    simp only [streamStep] at h
    split at h <;> cases h
    exact .start ‹_›
  | reserve t =>
    simp only [streamStep] at h
    split at h <;> cases h
    · exact .reserve ‹_› (tryStartStream_eq_some ‹_›)
    · exact .refuse ‹_› (tryStartStream_eq_none ‹_›)
  | release t =>
    simp only [streamStep] at h
    split at h <;> cases h
    exact .release ‹_›
  | handOver t =>
    simp only [streamStep] at h
    split at h <;> cases h
    exact .handOver ‹_›
  | push t e =>
    simp only [streamStep] at h
    split at h <;> cases h
    exact .push ‹_›
  | finish t =>
    simp only [streamStep] at h
    split at h <;> cases h
    exact .finish ‹_›
  | fail t e =>
    simp only [streamStep] at h
    split at h <;> cases h
    exact .fail ‹_›
  | throw t e =>
    simp only [streamStep] at h
    split at h <;> cases h
    exact .throw ‹_›
  | disconnect t =>
    simp only [streamStep] at h
    split at h <;> cases h
    exact .disconnect ‹_›
  | reconnect c =>
    simp only [streamStep] at h
    split at h
    · split at h <;> cases h
      · exact .reconnect ‹_› ‹_›
      · exact .noStream ‹_› (Bool.not_eq_true _ ▸ ‹_›)
    · cases h
  | resume c =>
    simp only [streamStep] at h
    split at h <;> cases h
    exact .resume ‹_›
  | take c =>
    simp only [streamStep] at h
    split at h
    · split at h <;> cases h
      · exact .takeEvent ‹_› ‹_›
      · exact .takeEnd ‹_› ‹_›
    · cases h
  | leave c =>
    simp only [streamStep] at h
    split at h <;> cases h
    · exact .leaveReplay ‹_›
    · exact .leaveLive ‹_›

/-- No turn other than `t` owns the current stream. -/
def NoForeignStream (s : TurnStreams E) (t : Nat) : Prop :=
  ∀ t', s.current = some t' → t' = t

theorem currentWithout_eq_some {t t' : Nat} :
    s.currentWithout t = some t' ↔ s.current = some t' ∧ t' ≠ t := by
  unfold TurnStreams.currentWithout
  split_ifs with h
  · simp only [h, Option.some.injEq, false_iff, not_and, not_not]
    exact fun h' => h'.symm
  · constructor
    · intro h'
      exact ⟨h', fun htt => h (htt ▸ h')⟩
    · exact And.left

theorem currentWithout_endBy (s : TurnStreams E) (t : Nat) :
    (s.endBy t).currentWithout t = s.currentWithout t := by
  show (if s.currentWithout t = some t then none else s.currentWithout t) = _
  rw [if_neg]
  intro h
  exact (currentWithout_eq_some.mp h).2 rfl

theorem currentWithout_isSome_iff {t : Nat} :
    (s.currentWithout t).isSome = false ↔ NoForeignStream s t := by
  unfold NoForeignStream TurnStreams.currentWithout
  split_ifs with h
  · simp [h]
  · cases hc : s.current with
    | none => simp
    | some u =>
      have hne : u ≠ t := fun hut => h (hut ▸ hc)
      simp [hne]

/-- The number under which turn `t` pushes and releases. -/
def TurnPhase.generation : TurnPhase → Option Nat
  | .reserved g => some g
  | .streaming g _ => some g
  | _ => none

end WittyService
