import WittyService.SerialTurns
import WittyService.TurnFlight

/-! `session_ws`: one WebSocket connection of a session, its turns in the task pool and what its
client's disconnect does to them. -/
namespace WittyService

open GuardedRuns

/-- A message of the client. A refused `message.create` fails its checks, and the other messages do
not concern the turns. -/
inductive SocketMessage where
  | create
  | refusedCreate
  | abort
  | other
  deriving DecidableEq, Repr

inductive SessionSocketAction where
  | receives (message : SocketMessage)
  | turn (i : Nat) (action : PoolTurnAction)
  | disconnects
  deriving DecidableEq, Repr

/-- A connection with the pool; `accepted` are the turns that were accepted on it. -/
structure SessionSocket where
  pool : TaskPool
  accepted : List Nat := []
  terminalForwarded : Bool := false
  connected : Bool := true
  deriving DecidableEq, Repr

namespace PoolTurn

def hears (t : PoolTurn) (action : PoolTurnAction) : Bool :=
  match action, t.phase with
  | .forwards, .forwarding item => item.isTerminal
  | _, _ => false

def isHeard (t : PoolTurn) : Bool := t.forwarded.any StreamItem.isTerminal

end PoolTurn

namespace SessionSocket

variable (s : SessionSocket)

def dispatchEvent : SocketMessage → SessionSocket
  | .create => { s with
      pool := s.pool.submit
      accepted := if s.pool.inflight then s.accepted else s.accepted ++ [s.pool.turns.length] }
  | .abort => { s with pool := s.pool.abortSession }
  | .refusedCreate | .other => s

/-- The step of turn `i` calls `_forward` with a terminal event. -/
def forwardsTerminal (i : Nat) (action : PoolTurnAction) : Bool :=
  s.accepted.contains i && (s.pool.turns[i]?.any fun t => t.hears action)

def step : SessionSocketAction → Option SessionSocket
  | .receives message => if s.connected then some (s.dispatchEvent message) else none
  | .turn i action =>
    if action = .forwardRaises ∧ i ∈ s.accepted then none
    else (s.pool.step (.turn i action)).map fun pool =>
      { s with pool, terminalForwarded := s.terminalForwarded || s.forwardsTerminal i action }
  | .disconnects =>
    if s.connected then
      some { s with
        connected := false
        pool := if s.terminalForwarded then s.pool else s.pool.abortSession }
    else none

/-- What is asked of a disconnect: the last turn accepted on the connection is left alone when
it has put a terminal event into the queue; otherwise it is aborted if it still runs, and the
session leaves its flight. -/
def LeavesNoneUnheard (s : SessionSocket) (a : SessionSocketAction) (s' : SessionSocket) : Prop :=
  a = .disconnects → ∀ (j : Nat) (t : PoolTurn), s.accepted.getLast? = some j →
    s.pool.turns[j]? = some t →
      (t.isHeard = true → s'.pool = s.pool) ∧
        (t.isHeard = false →
          (t.phase.isFinal = false → s'.pool.turns[j]? = some { t with cancelled := true }) ∧
            s'.pool.LeavesFlight j)

/-- A turn is created while none that has dropped the mark is unfinished. When the client
disconnects, the task of the last turn has begun, and of the connection's turns the last was heard
if any was. -/
def Attended (s : SessionSocket) : SessionSocketAction → Prop
  | .receives .create => ∀ t ∈ s.pool.turns, t.released = true → t.phase = .ended
  | .disconnects => ∀ j ∈ s.accepted.getLast?, ∀ t ∈ s.pool.turns[j]?, t.phase ≠ .accepted ∧
      ((∃ i ∈ s.accepted, ∃ u ∈ s.pool.turns[i]?, u.isHeard = true) → t.isHeard = true)
  | _ => True

instance : DecidablePred s.Attended := fun a => by
  unfold Attended
  split <;> infer_instance

structure Tracks (s : SessionSocket) : Prop where
  serial : s.pool.Serial
  fed : ∀ t ∈ s.pool.turns, t.Fed
  flag : s.terminalForwarded = true ↔
    ∃ i ∈ s.accepted, ∃ t : PoolTurn, s.pool.turns[i]? = some t ∧ t.isHeard = true
  known : ∀ i ∈ s.accepted, i < s.pool.turns.length
  last : ∀ j, s.accepted.getLast? = some j → j + 1 = s.pool.turns.length

variable {s} {s' : SessionSocket}

variable {action : PoolTurnAction} {pool : TaskPool}

theorem isHeard_step {t t' : PoolTurn} (h : t.step action = some t') :
    t'.isHeard = (t.isHeard || t.hears action) := by
  cases PoolTurn.step_cases h with
  | forwards item hphase =>
    simp [PoolTurn.isHeard, PoolTurn.hears, hphase]
  | closes _ items _ haction =>
    obtain ⟨item, rfl⟩ | rfl | rfl := haction <;> exact (Bool.or_false _).symm
  | begins | starts | puts | done | takes | releases | raises | finalizes | ends =>
    exact (Bool.or_false _).symm

theorem tracks_pool {a : TaskPoolAction} (hs : s.Tracks) (ha : a ≠ .submit)
    (h : s.pool.step a = some pool) (connected flag : Bool) (hflag : flag = true ↔
      ∃ i ∈ s.accepted, ∃ t : PoolTurn, pool.turns[i]? = some t ∧ t.isHeard = true) :
    Tracks { s with pool, connected, terminalForwarded := flag } where
  serial := TaskPool.serial_of_submitsAlone hs.serial (fun hsubmit => absurd hsubmit ha) h
  fed := TaskPool.fed_step hs.fed h
  flag := hflag
  known i hi := by
    rw [TaskPool.turns_length h ha]
    exact hs.known i hi
  last j hj := by
    rw [TaskPool.turns_length h ha]
    exact hs.last j hj

theorem heard_abort (i : Nat) :
    (∃ t : PoolTurn, s.pool.abortSession.turns[i]? = some t ∧ t.isHeard = true) ↔
      ∃ t : PoolTurn, s.pool.turns[i]? = some t ∧ t.isHeard = true := by
  have hstep : s.pool.step .abortSession = some s.pool.abortSession := rfl
  cases hget : s.pool.turns[i]? with
  | none =>
    have hnone : s.pool.abortSession.turns[i]? = none := by
      rw [List.getElem?_eq_none_iff] at hget ⊢
      rw [TaskPool.turns_length hstep nofun]
      exact hget
    rw [hnone]
  | some t =>
    obtain ⟨t', hget', ⟨action, haction, -⟩ | ⟨-, rfl | ⟨-, rfl⟩⟩⟩ := TaskPool.turn_after hstep hget
    · cases haction
    · rw [hget']
    · rw [hget']
      simp only [Option.some.injEq, exists_eq_left']
      rfl

theorem tracks_abort (hs : s.Tracks) (connected : Bool) :
    Tracks { s with pool := s.pool.abortSession, connected } := by
  refine tracks_pool (a := .abortSession) hs nofun rfl connected s.terminalForwarded ?_
  rw [hs.flag]
  simp only [heard_abort]

theorem tracks_turn {i : Nat} (hs : s.Tracks) (h : s.pool.step (.turn i action) = some pool) :
    Tracks { s with
      pool, terminalForwarded := s.terminalForwarded || s.forwardsTerminal i action } := by
  refine tracks_pool (a := .turn i action) hs nofun h s.connected _ ?_
  obtain ⟨t', ht', hpool⟩ := Option.map_eq_some_iff.mp h
  obtain ⟨t, hget, hstep⟩ := Option.bind_eq_some_iff.mp ht'
  have hturns : pool.turns = s.pool.turns.set i t' := by rw [← hpool]
  have hi := (List.getElem?_eq_some_iff.mp hget).1
  have hheard (k : Nat) : (∃ u : PoolTurn, pool.turns[k]? = some u ∧ u.isHeard = true) ↔
      (∃ u : PoolTurn, s.pool.turns[k]? = some u ∧ u.isHeard = true) ∨
        (k = i ∧ t.hears action = true) := by
    rw [hturns]
    by_cases hk : i = k
    · subst hk
      rw [List.getElem?_set_self hi, hget]
      simp [isHeard_step hstep]
    · rw [List.getElem?_set_ne hk]
      simp [Ne.symm hk]
  rw [Bool.or_eq_true, hs.flag, forwardsTerminal, hget]
  simp only [hheard, Option.any_some, Bool.and_eq_true, List.contains_iff_mem, and_or_left,
    exists_or]
  refine or_congr Iff.rfl ⟨fun h => ⟨i, h.1, rfl, h.2⟩, ?_⟩
  rintro ⟨k, hk, rfl, hhears⟩
  exact ⟨hk, hhears⟩

theorem tracks_create (hs : s.Tracks)
    (hg : ∀ t ∈ s.pool.turns, t.released = true → t.phase = .ended) :
    (s.dispatchEvent .create).Tracks := by
  have hstep : s.pool.step .submit = some s.pool.submit := rfl
  have hserial := TaskPool.serial_of_submitsAlone hs.serial (fun _ => hg) hstep
  have hfed := TaskPool.fed_step hs.fed hstep
  unfold dispatchEvent
  cases hmark : s.pool.inflight with
  | true =>
    have hsubmit : s.pool.submit = s.pool := if_pos hmark
    rw [hsubmit, if_pos rfl]
    exact ⟨hs.serial, hs.fed, hs.flag, hs.known, hs.last⟩
  | false =>
    have hturns : s.pool.submit.turns = s.pool.turns ++ [({} : PoolTurn)] := by
      rw [TaskPool.submit, hmark, if_neg Bool.false_ne_true]
    rw [if_neg Bool.false_ne_true]
    refine ⟨hserial, hfed, ?_, fun i hi => ?_, fun j hj => ?_⟩
    · change s.terminalForwarded = true ↔ ∃ i ∈ s.accepted ++ [s.pool.turns.length],
        ∃ t : PoolTurn, s.pool.submit.turns[i]? = some t ∧ t.isHeard = true
      rw [hs.flag, hturns]
      constructor
      · rintro ⟨i, hi, t, hget, hheard⟩
        refine ⟨i, List.mem_append_left _ hi, t, ?_, hheard⟩
        rw [List.getElem?_append_left (hs.known i hi), hget]
      · rintro ⟨i, hi, t, hget, hheard⟩
        obtain hi | hi := List.mem_append.mp hi
        · rw [List.getElem?_append_left (hs.known i hi)] at hget
          exact ⟨i, hi, t, hget, hheard⟩
        · rw [List.mem_singleton.mp hi, List.getElem?_concat_length] at hget
          cases hget
          cases hheard
    · rw [hturns, List.length_append, List.length_singleton]
      obtain hi | hi := List.mem_append.mp hi
      · exact Nat.lt_succ_of_lt (hs.known i hi)
      · rw [List.mem_singleton.mp hi]
        exact Nat.lt_succ_self _
    · rw [hturns, List.length_append, List.length_singleton]
      rw [List.getLast?_concat] at hj
      rw [← Option.some.inj hj]

theorem leavesNoneUnheard (hs : s.Tracks) (hg : s.Attended .disconnects)
    (h : s.step .disconnects = some s') : s.LeavesNoneUnheard .disconnects s' := by
  obtain ⟨-, h⟩ := Option.ite_none_right_eq_some.mp h
  cases h
  intro _ j t hj hget
  have hmem := List.mem_of_getLast? hj
  refine ⟨fun hheard => if_pos (hs.flag.mpr ⟨j, hmem, t, hget, hheard⟩), fun hunheard => ?_⟩
  obtain ⟨hbegun, honly⟩ := hg j hj t hget
  have hflag : ¬ s.terminalForwarded = true := by
    rw [hs.flag]
    intro hany
    rw [honly hany] at hunheard
    cases hunheard
  rw [if_neg hflag]
  have hserial := hs.serial
  obtain hempty | ⟨earlier, last, hlast⟩ := hserial
  · rw [hempty] at hget
    cases hget
  · have hlength : j = earlier.length := by
      have h := hs.last j hj
      rw [hlast.turns, List.length_append, List.length_singleton] at h
      omega
    subst hlength
    obtain rfl : t = last := by
      rw [hlast.turns, List.getElem?_concat_length] at hget
      exact (Option.some.inj hget).symm
    by_cases hactive : t.phase.isActive
    · obtain ⟨-, habort⟩ := TaskPool.abort_of_active hlast hactive
      have hget' : s.pool.abortSession.turns[earlier.length]? =
          some { t with cancelled := true } := by
        rw [habort.turns, List.getElem?_concat_length]
      refine ⟨fun _ => hget', TaskPool.leavesFlight_of_cancelled hget' rfl ?_ ?_⟩
      · exact hs.fed t (List.mem_of_getElem? hget)
      · cases hphase : t.phase <;> first | rfl | exact absurd (hphase ▸ hactive) nofun
    · have hfinal : t.phase = .awaiting ∨ t.phase = .ended := by
        cases hphase : t.phase <;> first
          | exact .inl rfl | exact .inr rfl | exact absurd hphase hbegun
          | exact absurd (by rw [hphase]; rfl) hactive
      rw [TaskPool.abort_of_not_active hlast hactive]
      refine ⟨fun hrunning => ?_, TaskPool.leavesFlight_of_free ?_⟩
      · obtain hphase | hphase := hfinal <;>
        · rw [hphase] at hrunning
          cases hrunning
      · rw [hlast.inflight, hlast.sound.released hfinal]
        rfl

theorem tracks_step {a : SessionSocketAction} (hs : s.Tracks) (hg : s.Attended a)
    (h : s.step a = some s') : s'.Tracks ∧ s.LeavesNoneUnheard a s' := by
  cases a with
  | receives message =>
    obtain ⟨-, h⟩ := Option.ite_none_right_eq_some.mp h
    cases h
    refine ⟨?_, nofun⟩
    cases message with
    | create => exact tracks_create hs hg
    | abort => exact tracks_abort hs s.connected
    | refusedCreate | other => exact hs
  | turn i action =>
    obtain ⟨-, h⟩ := Option.ite_none_left_eq_some.mp h
    obtain ⟨pool, hpool, rfl⟩ := Option.map_eq_some_iff.mp h
    exact ⟨tracks_turn hs hpool, nofun⟩
  | disconnects =>
    refine ⟨?_, leavesNoneUnheard hs hg h⟩
    obtain ⟨-, h⟩ := Option.ite_none_right_eq_some.mp h
    cases h
    split_ifs
    · exact ⟨hs.serial, hs.fed, hs.flag, hs.known, hs.last⟩
    · exact tracks_abort hs false

theorem tracks_new {before : List TaskPoolAction}
    (hbefore : Guarded TaskPool.step TaskPool.SubmitsAlone {} before)
    (hpool : run TaskPool.step {} before = some pool) : Tracks { pool } where
  serial := always_last (always_of_guarded (fun _ _ _ hs hg h =>
    TaskPool.serial_of_submitsAlone hs hg h) (.inl rfl) hbefore) hpool
  fed := run_invariant (Q := fun s : TaskPool => ∀ t ∈ s.turns, t.Fed)
    (fun _ _ _ hs h => TaskPool.fed_step hs h) (fun _ h => absurd h List.not_mem_nil) hpool
  flag := iff_of_false Bool.false_ne_true fun ⟨_, h, _⟩ => absurd h List.not_mem_nil
  known _ h := absurd h List.not_mem_nil
  last _ h := nomatch h

/-- As long as its turns are attended, a disconnect leaves no turn running unheard, whatever turns
the session had before the connection. -/
theorem none_unheard_of_attended {before : List TaskPoolAction} {pool : TaskPool}
    {as : List SessionSocketAction}
    (hbefore : Guarded TaskPool.step TaskPool.SubmitsAlone {} before)
    (hpool : run TaskPool.step {} before = some pool) (h : Guarded step Attended { pool } as) :
    Guarded step (fun s a => ∀ s', s.step a = some s' → s.LeavesNoneUnheard a s') { pool } as := by
  refine guarded_steps (J := Tracks) ?_ (tracks_new hbefore hpool) h
  exact fun s a s' hs hg hstep => tracks_step hs hg hstep

/-- A client that leaves in the middle of its first turn. -/
theorem none_unheard_of_first : Guarded step (fun s a => ∀ s', s.step a = some s' →
    s.LeavesNoneUnheard a s') { pool := {} } [.receives .create, .turn 0 .begins,
      .turn 0 .producerStarts, .receives .refusedCreate, .disconnects] :=
  none_unheard_of_attended (show Guarded TaskPool.step TaskPool.SubmitsAlone {} [] from trivial) rfl
    (by decide +kernel)

/-- The second turn of a connection goes on unheard when its client leaves. -/
theorem second_turn_unheard :
    ¬ ∀ as : List SessionSocketAction, Guarded step
      (fun s a => ∀ s', s.step a = some s' → s.LeavesNoneUnheard a s') { pool := {} } as := by
  intro h
  let before : List SessionSocketAction := [.receives .create, .turn 0 .begins,
    .turn 0 .producerStarts, .turn 0 (.produces (.runtime .turnCompleted)), .turn 0 .producerEnds,
    .turn 0 .producerDone, .turn 0 .takes, .turn 0 .releases, .turn 0 .forwards, .turn 0 .takes,
    .turn 0 .finalizes, .turn 0 .taskEnds, .receives .create, .turn 1 .begins,
    .turn 1 .producerStarts]
  obtain ⟨s, hs⟩ : ∃ s, run step { pool := {} } before = some s :=
    Option.isSome_iff_exists.mp (by decide)
  have hsteps := guarded_of_append hs (h (before ++ [.disconnects]))
  cases hs
  obtain ⟨hleaves, -⟩ := hsteps _ rfl
  obtain ⟨haborted, -⟩ := (hleaves _ rfl rfl 1 _ rfl rfl).2 rfl
  cases haborted rfl

end SessionSocket

end WittyService
