import Mathlib.Tactic.SplitIfs
import WittyService.ScheduledRuns

/-! Who holds the slots of tasks and agents, and who will end a record that is running. -/
namespace WittyService

open GuardedRuns

namespace ScheduledRuns

variable {s s' : ScheduledRuns} {k : Nat} {run : BackgroundRun}

/-- The record is there and running. -/
def IsRunning (s : ScheduledRuns) (runId : Nat) : Prop :=
  ∃ record : ScheduledTaskRun, s.records[runId]? = some record ∧ record.present = true ∧
    record.status = .running

/-- A background run that is not done has the record. -/
def IsOwned (s : ScheduledRuns) (runId : Nat) : Prop :=
  ∃ (k : Nat) (run : BackgroundRun), s.background[k]? = some run ∧ run.runId = runId ∧
    run.phase ≠ .done

def Holds (s : ScheduledRuns) (run : BackgroundRun) : Prop :=
  s.activeRuns run.taskId = some run.runId

instance (run : BackgroundRun) : Decidable (s.Holds run) := inferInstanceAs (Decidable (_ = _))

structure SameRun (run run' : BackgroundRun) : Prop where
  taskId : run'.taskId = run.taskId
  agentId : run'.agentId = run.agentId
  runId : run'.runId = run.runId

/-- Every running record, every slot of a task and every slot of an agent belongs to a background
run that is not done. The lock is free and nobody waits for it. -/
structure Attended (s : ScheduledRuns) : Prop where
  unlocked : s.stateLock = false
  waitless : ∀ (k : Nat) (run : BackgroundRun) (ended : TurnEnd), s.background[k]? = some run →
    run.phase ≠ .releasing ended
  known : ∀ (k : Nat) (run : BackgroundRun), s.background[k]? = some run →
    run.runId < s.records.length
  alone : ∀ (k k' : Nat) (run run' : BackgroundRun), s.background[k]? = some run →
    s.background[k']? = some run' → run.runId = run'.runId → k = k'
  row : ∀ (k : Nat) (run : BackgroundRun), s.background[k]? = some run →
    ∃ task : RunnableTask, s.tasks[run.taskId]? = some task ∧ task.agentId = run.agentId
  record : ∀ runId, s.IsRunning runId → s.IsOwned runId
  slot : ∀ taskId runId, s.activeRuns taskId = some runId →
    ∃ (k : Nat) (run : BackgroundRun), s.background[k]? = some run ∧ run.runId = runId ∧
      run.taskId = taskId ∧ run.phase ≠ .done
  agent : ∀ agentId, s.busyAgents agentId = true →
    ∃ (k : Nat) (run : BackgroundRun), s.background[k]? = some run ∧ run.agentId = agentId ∧
      s.Holds run

structure RowsKept (s s' : ScheduledRuns) : Prop where
  tasks : ∀ (taskId : Nat) (task : RunnableTask), s.tasks[taskId]? = some task →
    ∃ task' : RunnableTask, s'.tasks[taskId]? = some task' ∧ task'.agentId = task.agentId
  records : s.records.length ≤ s'.records.length

/-- No slot is new, and who holds the slot of his task while his agent stays busy keeps it. -/
structure SlotsKept (s s' : ScheduledRuns) : Prop where
  active : ∀ (taskId runId : Nat), s'.activeRuns taskId = some runId →
    s.activeRuns taskId = some runId
  busy : ∀ agentId, s'.busyAgents agentId = true → s.busyAgents agentId = true
  holder : ∀ (k : Nat) (run : BackgroundRun), s.background[k]? = some run →
    s'.busyAgents run.agentId = true → s.Holds run → s'.Holds run

theorem SlotsKept.of_eq (hactive : s'.activeRuns = s.activeRuns)
    (hbusy : s'.busyAgents = s.busyAgents) : SlotsKept s s' := by
  refine ⟨fun taskId runId h => ?_, fun agentId h => ?_, fun k run _ _ h => ?_⟩
  · rw [hactive] at h
    exact h
  · rw [hbusy] at h
    exact h
  · unfold Holds
    rw [hactive]
    exact h

theorem Attended.of_alike (hs : s.Attended) (hlock : s'.stateLock = false)
    {f : Nat → BackgroundRun → BackgroundRun}
    (hbackground : ∀ k : Nat, s'.background[k]? = s.background[k]?.map (f k))
    (hsame : ∀ k run, SameRun run (f k run))
    (hdone : ∀ k run, run.phase ≠ .done → (∀ ended, run.phase ≠ .releasing ended) →
      (f k run).phase ≠ .done)
    (hwaits : ∀ k run ended, (∀ ended, run.phase ≠ .releasing ended) →
      (f k run).phase ≠ .releasing ended)
    (hrows : RowsKept s s') (hrunning : ∀ runId, s'.IsRunning runId → s.IsOwned runId)
    (hslots : SlotsKept s s') : s'.Attended := by
  have hbefore {k : Nat} {run' : BackgroundRun} (h : s'.background[k]? = some run') :
      ∃ run, s.background[k]? = some run ∧ run' = f k run := by
    rw [hbackground] at h
    obtain ⟨run, hrun, rfl⟩ := Option.map_eq_some_iff.mp h
    exact ⟨run, hrun, rfl⟩
  have hafter {k : Nat} {run : BackgroundRun} (h : s.background[k]? = some run) :
      s'.background[k]? = some (f k run) := by rw [hbackground, h, Option.map_some]
  refine ⟨hlock, ?_, ?_, ?_, ?_, ?_, ?_, ?_⟩
  · intro k run' ended h
    obtain ⟨run, hrun, rfl⟩ := hbefore h
    exact hwaits k run ended fun ended => hs.waitless k run ended hrun
  · intro k run' h
    obtain ⟨run, hrun, rfl⟩ := hbefore h
    rw [(hsame k run).runId]
    exact Nat.lt_of_lt_of_le (hs.known k run hrun) hrows.records
  · intro k k' run₁ run₂ h₁ h₂ heq
    obtain ⟨run, hrun, rfl⟩ := hbefore h₁
    obtain ⟨run', hrun', rfl⟩ := hbefore h₂
    rw [(hsame k run).runId, (hsame k' run').runId] at heq
    exact hs.alone k k' run run' hrun hrun' heq
  · intro k run' h
    obtain ⟨run, hrun, rfl⟩ := hbefore h
    obtain ⟨task, htask, hagent⟩ := hs.row k run hrun
    obtain ⟨task', htask', hagent'⟩ := hrows.tasks run.taskId task htask
    rw [(hsame k run).taskId, (hsame k run).agentId]
    exact ⟨task', htask', hagent'.trans hagent⟩
  · intro runId hrecord
    obtain ⟨k, run, hrun, hid, hphase⟩ := hrunning runId hrecord
    refine ⟨k, f k run, hafter hrun, (hsame k run).runId.trans hid, ?_⟩
    exact hdone k run hphase fun ended => hs.waitless k run ended hrun
  · intro taskId runId h
    obtain ⟨k, run, hrun, hid, htask, hphase⟩ := hs.slot taskId runId (hslots.active taskId runId h)
    refine ⟨k, f k run, hafter hrun, (hsame k run).runId.trans hid,
      (hsame k run).taskId.trans htask, ?_⟩
    exact hdone k run hphase fun ended => hs.waitless k run ended hrun
  · intro agentId hbusy
    obtain ⟨k, run, hrun, rfl, hholds⟩ := hs.agent agentId (hslots.busy agentId hbusy)
    refine ⟨k, f k run, hafter hrun, (hsame k run).agentId, ?_⟩
    unfold Holds
    rw [(hsame k run).taskId, (hsame k run).runId]
    exact hslots.holder k run hrun hbusy hholds

theorem Attended.of_done (hs : s.Attended) (hrun : s.background[k]? = some run)
    (hlock : s'.stateLock = false)
    (hbackground : s'.background = s.background.modify k fun run => { run with phase := .done })
    (hrows : RowsKept s s') (hrunning : ∀ runId, s'.IsRunning runId → s.IsRunning runId)
    (hslots : SlotsKept s s') (hended : ¬ s'.IsRunning run.runId)
    (hfreed : ∀ taskId, s'.activeRuns taskId ≠ some run.runId) : s'.Attended := by
  have hbefore {i : Nat} {other' : BackgroundRun} (h : s'.background[i]? = some other') :
      ∃ other, s.background[i]? = some other ∧ SameRun other other' ∧
        (i ≠ k → other' = other) ∧ (i = k → other'.phase = .done) := by
    rw [hbackground, List.getElem?_modify] at h
    obtain ⟨other, hother, rfl⟩ := Option.map_eq_some_iff.mp h
    refine ⟨other, hother, ?_, fun hne => if_neg (Ne.symm hne), fun heq => ?_⟩
    · split_ifs <;> exact ⟨rfl, rfl, rfl⟩
    · rw [if_pos heq.symm]
  have hafter {i : Nat} {other : BackgroundRun} (h : s.background[i]? = some other)
      (hne : other.runId ≠ run.runId) : s'.background[i]? = some other := by
    have hik : k ≠ i := by
      rintro rfl
      rw [hrun] at h
      cases h
      exact hne rfl
    rw [hbackground, List.getElem?_modify, h]
    simp only [if_neg hik]
    rfl
  refine ⟨hlock, ?_, ?_, ?_, ?_, ?_, ?_, ?_⟩
  · intro i other' ended h
    obtain ⟨other, hother, -, hsame, hdone⟩ := hbefore h
    by_cases hik : i = k
    · rw [hdone hik]
      exact nofun
    · rw [hsame hik]
      exact hs.waitless i other ended hother
  · intro i other' h
    obtain ⟨other, hother, hsame, -⟩ := hbefore h
    rw [hsame.runId]
    exact Nat.lt_of_lt_of_le (hs.known i other hother) hrows.records
  · intro i j run₁ run₂ h₁ h₂ heq
    obtain ⟨other₁, hother₁, hsame₁, -⟩ := hbefore h₁
    obtain ⟨other₂, hother₂, hsame₂, -⟩ := hbefore h₂
    rw [hsame₁.runId, hsame₂.runId] at heq
    exact hs.alone i j other₁ other₂ hother₁ hother₂ heq
  · intro i other' h
    obtain ⟨other, hother, hsame, -⟩ := hbefore h
    obtain ⟨task, htask, hagent⟩ := hs.row i other hother
    obtain ⟨task', htask', hagent'⟩ := hrows.tasks other.taskId task htask
    rw [hsame.taskId, hsame.agentId]
    exact ⟨task', htask', hagent'.trans hagent⟩
  · intro runId hrecord
    obtain ⟨i, other, hother, rfl, hphase⟩ := hs.record runId (hrunning runId hrecord)
    refine ⟨i, other, hafter hother ?_, rfl, hphase⟩
    rintro heq
    rw [heq] at hrecord
    exact hended hrecord
  · intro taskId runId h
    obtain ⟨i, other, hother, rfl, htask, hphase⟩ :=
      hs.slot taskId runId (hslots.active taskId runId h)
    refine ⟨i, other, hafter hother ?_, rfl, htask, hphase⟩
    rintro heq
    rw [heq] at h
    exact hfreed taskId h
  · intro agentId hbusy
    obtain ⟨i, other, hother, rfl, hholds⟩ := hs.agent agentId (hslots.busy agentId hbusy)
    have hkept : s'.Holds other := hslots.holder i other hother hbusy hholds
    refine ⟨i, other, hafter hother ?_, rfl, hkept⟩
    rintro heq
    unfold Holds at hkept
    rw [heq] at hkept
    exact hfreed other.taskId hkept

theorem getElem?_spawned {new : BackgroundRun} (h : s'.background = s.background ++ [new])
    {i : Nat} {run : BackgroundRun} : s'.background[i]? = some run ↔
      s.background[i]? = some run ∨ (i = s.background.length ∧ run = new) := by
  rw [h, List.getElem?_append]
  split_ifs with hlt
  · exact (or_iff_left fun h => Nat.ne_of_lt hlt h.1).symm
  · rw [List.getElem?_eq_none (Nat.le_of_not_lt hlt), List.getElem?_singleton]
    split_ifs with hi
    · have hlast : i = s.background.length := by omega
      simp [hlast, eq_comm]
    · have hlast : i ≠ s.background.length := by omega
      simp [hlast]

theorem Attended.of_spawned (hs : s.Attended) {task : RunnableTask} {taskId : Nat}
    {sessionId : Option String} (htask : s.tasks[taskId]? = some task)
    (hidle : s.isBusy taskId task.agentId = false) (hlock : s'.stateLock = false)
    (hbackground : s'.background = s.background ++
      [⟨taskId, task.agentId, s.records.length, sessionId, .scheduled, false, false⟩])
    (htasks : s'.tasks = s.tasks) (hlength : s'.records.length = s.records.length + 1)
    (hrunning : ∀ runId, runId ≠ s.records.length → s'.IsRunning runId → s.IsRunning runId)
    (hactive : s'.activeRuns = Function.update s.activeRuns taskId (some s.records.length))
    (hbusy : s'.busyAgents = Function.update s.busyAgents task.agentId true) : s'.Attended := by
  let new : BackgroundRun :=
    ⟨taskId, task.agentId, s.records.length, sessionId, .scheduled, false, false⟩
  obtain ⟨hnone, hfree⟩ := Bool.or_eq_false_iff.mp hidle
  have hnew : s'.background[s.background.length]? = some new :=
    (getElem?_spawned hbackground).mpr (.inr ⟨rfl, rfl⟩)
  have hold {i : Nat} {run : BackgroundRun} (h : s.background[i]? = some run) :
      s'.background[i]? = some run := (getElem?_spawned hbackground).mpr (.inl h)
  have hbefore {i : Nat} {run : BackgroundRun} (h : s'.background[i]? = some run) :
      s.background[i]? = some run ∨ (i = s.background.length ∧ run = new) :=
    (getElem?_spawned hbackground).mp h
  refine ⟨hlock, ?_, ?_, ?_, ?_, ?_, ?_, ?_⟩
  · intro i run ended h
    obtain h | ⟨-, rfl⟩ := hbefore h
    · exact hs.waitless i run ended h
    · exact nofun
  · intro i run h
    rw [hlength]
    obtain h | ⟨-, rfl⟩ := hbefore h
    · exact Nat.lt_succ_of_lt (hs.known i run h)
    · exact Nat.lt_succ_self _
  · intro i j run₁ run₂ h₁ h₂ heq
    obtain hold₁ | ⟨hi, rfl⟩ := hbefore h₁
    · obtain hold₂ | ⟨-, rfl⟩ := hbefore h₂
      · exact hs.alone i j run₁ run₂ hold₁ hold₂ heq
      · exact absurd heq (Nat.ne_of_lt (hs.known i run₁ hold₁))
    · obtain hold₂ | ⟨hj, -⟩ := hbefore h₂
      · exact absurd heq.symm (Nat.ne_of_lt (hs.known j run₂ hold₂))
      · exact hi.trans hj.symm
  · intro i run h
    rw [htasks]
    obtain h | ⟨-, rfl⟩ := hbefore h
    · exact hs.row i run h
    · exact ⟨task, htask, rfl⟩
  · intro runId h
    by_cases heq : runId = s.records.length
    · exact ⟨_, new, hnew, heq.symm, nofun⟩
    · obtain ⟨i, run, hrun, hid, hphase⟩ := hs.record runId (hrunning runId heq h)
      exact ⟨i, run, hold hrun, hid, hphase⟩
  · intro other runId h
    rw [hactive] at h
    by_cases heq : other = taskId
    · rw [heq, Function.update_self] at h
      cases h
      exact ⟨_, new, hnew, rfl, heq.symm, nofun⟩
    · rw [Function.update_of_ne heq] at h
      obtain ⟨i, run, hrun, hid, htaskId, hphase⟩ := hs.slot other runId h
      exact ⟨i, run, hold hrun, hid, htaskId, hphase⟩
  · intro agentId h
    unfold Holds
    rw [hbusy] at h
    rw [hactive]
    by_cases heq : agentId = task.agentId
    · exact ⟨_, new, hnew, heq.symm, Function.update_self ..⟩
    · rw [Function.update_of_ne heq] at h
      obtain ⟨i, run, hrun, hagent, hholds⟩ := hs.agent agentId h
      refine ⟨i, run, hold hrun, hagent, ?_⟩
      rw [Function.update_of_ne]
      · exact hholds
      · rintro htaskId
        unfold Holds at hholds
        rw [htaskId] at hholds
        rw [hholds] at hnone
        cases hnone

end ScheduledRuns

end WittyService
