import WittyService.ScheduledRunEnds

/-! When at most one run of a task, and of an agent, is not finished. -/
namespace WittyService

open GuardedRuns

namespace ScheduledRuns

variable {s s' : ScheduledRuns} {k taskId : Nat} {run : BackgroundRun} {task : RunnableTask}

/-- No two runs of one task or one agent are unfinished. -/
def AtMostOneRun (s : ScheduledRuns) : Prop :=
  ∀ (k k' : Nat) (run run' : BackgroundRun), s.background[k]? = some run →
    s.background[k']? = some run' → run.phase ≠ .done → run'.phase ≠ .done →
    run.taskId = run'.taskId ∨ run.agentId = run'.agentId → k = k'

/-- Where the slots are free, no run of the task or the agent that `handle_agent_deleted` has
cancelled is still unfinished. -/
def NoneUnwinds (s : ScheduledRuns) (taskId : Nat) (task : RunnableTask) : Prop :=
  s.isBusy taskId task.agentId = false → ∀ run ∈ s.background, run.evicted = true →
    run.phase ≠ .done → run.taskId ≠ taskId ∧ run.agentId ≠ task.agentId

def SpawnsAlone (s : ScheduledRuns) : ScheduledRunsAction → Prop
  | .runTaskNow taskId sessionId refusal => (sessionId = none ∨ refusal = none) →
      ∀ task ∈ s.getScheduledTask taskId, s.NoneUnwinds taskId task
  | .executeTask taskId =>
      ∀ task ∈ s.getScheduledTask taskId, task.enabled = true → s.NoneUnwinds taskId task
  | _ => True

/-- A run that `handle_agent_deleted` has not cancelled has its slots until it is done; one that
it has cancelled never has its slot again. -/
structure Held (s : ScheduledRuns) : Prop where
  unlocked : s.stateLock = false
  known : ∀ (k : Nat) (run : BackgroundRun), s.background[k]? = some run →
    run.runId < s.records.length
  row : ∀ (k : Nat) (run : BackgroundRun), s.background[k]? = some run →
    ∃ task : RunnableTask, s.tasks[run.taskId]? = some task ∧ task.agentId = run.agentId
  holder : ∀ (k : Nat) (run : BackgroundRun), s.background[k]? = some run → run.evicted = false →
    run.phase ≠ .done → s.Holds run ∧
      (s.busyAgents run.agentId = true ∨ s.deletedAgents run.agentId = true)
  evicted : ∀ (k : Nat) (run : BackgroundRun), s.background[k]? = some run → run.evicted = true →
    ¬ s.Holds run

/-- No run is new, and what has been cancelled or is done stays so. -/
def NoneSpawned (s s' : ScheduledRuns) : Prop :=
  ∀ (k : Nat) (run' : BackgroundRun), s'.background[k]? = some run' →
    ∃ run : BackgroundRun, s.background[k]? = some run ∧ SameRun run run' ∧
      (run'.evicted = false → run.evicted = false) ∧ (run'.phase ≠ .done → run.phase ≠ .done)

theorem NoneSpawned.atMostOneRun (h : NoneSpawned s s') (hs : s.AtMostOneRun) :
    s'.AtMostOneRun := by
  intro k k' run₁ run₂ h₁ h₂ hphase₁ hphase₂ heq
  obtain ⟨run, hrun, hsame, -, hphase⟩ := h k run₁ h₁
  obtain ⟨run', hrun', hsame', -, hphase'⟩ := h k' run₂ h₂
  rw [hsame.taskId, hsame'.taskId, hsame.agentId, hsame'.agentId] at heq
  exact hs k k' run run' hrun hrun' (hphase hphase₁) (hphase' hphase₂) heq

theorem NoneSpawned.of_background (h : s'.background = s.background) : NoneSpawned s s' :=
  fun _ run hrun => ⟨run, h ▸ hrun, ⟨rfl, rfl, rfl⟩, fun h => h, fun h => h⟩

theorem NoneSpawned.of_modify {phase : BackgroundPhase} (hrun : s.background[k]? = some run)
    (hphase : run.phase ≠ .done) (hbackground : s'.background =
      s.background.modify k fun run => { run with phase := phase }) : NoneSpawned s s' := by
  intro i run' h
  rw [hbackground, List.getElem?_modify] at h
  obtain ⟨other, hother, rfl⟩ := Option.map_eq_some_iff.mp h
  split_ifs with heq
  · refine ⟨other, hother, ⟨rfl, rfl, rfl⟩, fun h => h, fun _ => ?_⟩
    rw [← heq, hrun] at hother
    cases hother
    exact hphase
  · exact ⟨other, hother, ⟨rfl, rfl, rfl⟩, fun h => h, fun h => h⟩

section

variable (hs : s.Held) (hlock : s'.stateLock = false) (hrows : RowsKept s s')
include hs hlock hrows

theorem Held.of_noneSpawned (hnone : NoneSpawned s s')
    (hactive : ∀ taskId runId : Nat, s'.activeRuns taskId = some runId →
      s.activeRuns taskId = some runId)
    (hevicted : ∀ (k : Nat) (run run' : BackgroundRun), s.background[k]? = some run →
      s'.background[k]? = some run' → run'.evicted = true → run.evicted = false → ¬ s'.Holds run)
    (hholder : ∀ (k : Nat) (run run' : BackgroundRun), s.background[k]? = some run →
      s'.background[k]? = some run' → run.evicted = false → run'.evicted = false →
      run'.phase ≠ .done → s.Holds run →
      (s.busyAgents run.agentId = true ∨ s.deletedAgents run.agentId = true) →
      s'.Holds run ∧ (s'.busyAgents run.agentId = true ∨ s'.deletedAgents run.agentId = true)) :
    s'.Held := by
  have hholds {run run' : BackgroundRun} (h : SameRun run run') : s'.Holds run' ↔ s'.Holds run := by
    unfold Holds
    rw [h.taskId, h.runId]
  refine ⟨hlock, fun k run' h => ?_, fun k run' h => ?_, fun k run' h hfree hphase => ?_,
    fun k run' h hcancelled => ?_⟩
  · obtain ⟨run, hrun, hsame, -⟩ := hnone k run' h
    rw [hsame.runId]
    exact Nat.lt_of_lt_of_le (hs.known k run hrun) hrows.records
  · obtain ⟨run, hrun, hsame, -⟩ := hnone k run' h
    obtain ⟨task, htask, hagent⟩ := hs.row k run hrun
    obtain ⟨task', htask', hagent'⟩ := hrows.tasks run.taskId task htask
    rw [hsame.taskId, hsame.agentId]
    exact ⟨task', htask', hagent'.trans hagent⟩
  · obtain ⟨run, hrun, hsame, hbefore, hphaseBefore⟩ := hnone k run' h
    obtain ⟨hheld, hagent⟩ := hs.holder k run hrun (hbefore hfree) (hphaseBefore hphase)
    rw [hholds hsame, hsame.agentId]
    exact hholder k run run' hrun h (hbefore hfree) hfree hphase hheld hagent
  · obtain ⟨run, hrun, hsame, -⟩ := hnone k run' h
    rw [hholds hsame]
    cases hbefore : run.evicted with
    | false => exact hevicted k run run' hrun h hcancelled hbefore
    | true => exact fun hheld => hs.evicted k run hrun hbefore (hactive _ _ hheld)

theorem Held.of_slots (hnone : NoneSpawned s s') (hactive : s'.activeRuns = s.activeRuns)
    (hbusy : s'.busyAgents = s.busyAgents)
    (hdeleted : ∀ agentId, s.deletedAgents agentId = true → s'.deletedAgents agentId = true)
    (hevicted : ∀ (k : Nat) (run run' : BackgroundRun), s.background[k]? = some run →
      s'.background[k]? = some run' → run'.evicted = run.evicted) : s'.Held := by
  refine hs.of_noneSpawned hlock hrows hnone (fun taskId runId h => ?_)
    (fun k run run' h h' hcancelled hfree => ?_) (fun k run run' h h' _ _ _ hheld hagent => ?_)
  · rw [hactive] at h
    exact h
  · rw [hevicted k run run' h h', hfree] at hcancelled
    cases hcancelled
  · unfold Holds
    rw [hactive, hbusy]
    exact ⟨hheld, hagent.imp_right (hdeleted _)⟩

theorem Held.of_background (hbackground : s'.background = s.background)
    (hactive : s'.activeRuns = s.activeRuns)
    (hbusy : s'.busyAgents = s.busyAgents)
    (hdeleted : ∀ agentId, s.deletedAgents agentId = true → s'.deletedAgents agentId = true) :
    s'.Held := by
  refine hs.of_slots hlock hrows (.of_background hbackground) hactive hbusy hdeleted ?_
  intro k run run' h h'
  rw [hbackground, h] at h'
  cases h'
  rfl

end

variable {agentId other : Nat} {sessionId : Option String}

theorem freeSlot_activeRuns {runId runId' : Nat}
    (h : (s.freeSlot taskId agentId runId).activeRuns other = some runId') :
    s.activeRuns other = some runId' := by
  unfold ScheduledRuns.freeSlot at h
  split_ifs at h
  · dsimp only at h
    by_cases heq : other = taskId
    · rw [heq, Function.update_self] at h
      cases h
    · rw [Function.update_of_ne heq] at h
      exact h
  · exact h

theorem freeSlot_of_ne (runId : Nat) {otherAgent : Nat} (htask : other ≠ taskId)
    (hagent : otherAgent ≠ agentId) :
    (s.freeSlot taskId agentId runId).activeRuns other = s.activeRuns other ∧
      (s.freeSlot taskId agentId runId).busyAgents otherAgent = s.busyAgents otherAgent ∧
      (s.freeSlot taskId agentId runId).deletedAgents = s.deletedAgents := by
  unfold ScheduledRuns.freeSlot
  split_ifs
  · exact ⟨Function.update_of_ne htask .., Function.update_of_ne hagent .., rfl⟩
  · exact ⟨rfl, rfl, rfl⟩

theorem Held.finish (hs : s.Held) (halone : s.AtMostOneRun) (hrun : s.background[k]? = some run)
    (hphase : run.phase ≠ .done) (ended : TurnEnd) :
    (s.finish k run ended).Held ∧ NoneSpawned s (s.finish k run ended) := by
  obtain ⟨hrecords, htasks, hbackground, hlock⟩ :=
    s.freeSlot_rest run.taskId run.agentId run.runId
  unfold ScheduledRuns.finish
  rw [withStateLock_freeSlot hs.unlocked]
  obtain ⟨status, sessionId, error, heq, -⟩ :=
    (s.freeSlot run.taskId run.agentId run.runId).writeEnd_eq run.runId ended
  rw [heq]
  have hafter : ((((s.freeSlot run.taskId run.agentId run.runId).updateRun run.runId status
      sessionId error).pruneRuns run.taskId).setPhase k .done).background =
      s.background.modify k fun run => { run with phase := .done } :=
    congrArg (List.modify · k _) hbackground
  have hnone := NoneSpawned.of_modify hrun hphase hafter
  refine ⟨hs.of_noneSpawned (hlock.trans hs.unlocked) (.of_tasks htasks ?_) hnone
    (fun other runId => freeSlot_activeRuns) ?_ ?_, hnone⟩
  · simp [ScheduledRuns.setPhase, pruneRuns, updateRun, hrecords]
  · intro i other other' hother hother' hcancelled hfree
    rw [hafter, List.getElem?_modify, hother] at hother'
    cases hother'
    split_ifs at hcancelled <;> rw [hfree] at hcancelled <;> cases hcancelled
  · intro i other other' hother hother' hfree _ hunfinished hheld hagent
    rw [hafter, List.getElem?_modify, hother] at hother'
    cases hother'
    split_ifs at hunfinished with heq
    · exact absurd rfl hunfinished
    have hne (h : other.taskId = run.taskId ∨ other.agentId = run.agentId) : False :=
      heq (halone i k other run hother hrun hunfinished hphase h).symm
    obtain ⟨hactive, hbusy, hdeleted⟩ := freeSlot_of_ne (s := s) run.runId
      (fun h => hne (.inl h)) (fun h => hne (.inr h))
    exact ⟨hactive.trans hheld, hagent.imp hbusy.trans fun h => congrFun hdeleted _ |>.trans h⟩

theorem isTaskOf_of_row (htask : s.tasks[taskId]? = some task)
    (hthere : s.deletedAgents task.agentId = false) : s.isTaskOf task.agentId taskId = true := by
  simp [isTaskOf, getScheduledTask, htask, hthere, Option.filter]

theorem Held.evictAgent (hs : s.Held) (agentId : Nat) :
    (s.evictAgent agentId).Held ∧ NoneSpawned s (s.evictAgent agentId) := by
  let evict (run : BackgroundRun) : BackgroundRun :=
    if s.isTaskOf agentId run.taskId ∧ run.evicted = false ∧ run.phase ≠ .done then
      { run.cancel with evicted := true }
    else run
  have hafter (i : Nat) : (s.evictAgent agentId).background[i]? = s.background[i]?.map evict :=
    List.getElem?_map ..
  have hnone : NoneSpawned s (s.evictAgent agentId) := by
    intro i run' h
    rw [hafter] at h
    obtain ⟨run, hrun, rfl⟩ := Option.map_eq_some_iff.mp h
    refine ⟨run, hrun, ?_⟩
    unfold evict
    split_ifs with hlisted
    · obtain ⟨htask, hagent, hid⟩ := SameRun.cancel run
      exact ⟨⟨htask, hagent, hid⟩, nofun, fun _ => hlisted.2.2⟩
    · exact ⟨⟨rfl, rfl, rfl⟩, fun h => h, fun h => h⟩
  refine ⟨hs.of_noneSpawned hs.unlocked (.of_tasks rfl (Nat.le_refl _)) hnone ?_ ?_ ?_, hnone⟩
  · intro taskId runId h
    unfold ScheduledRuns.evictAgent at h
    dsimp only at h
    split_ifs at h
    exact h
  · intro i run run' hrun hrun' hcancelled hfree hheld
    rw [hafter, hrun] at hrun'
    cases hrun'
    unfold evict at hcancelled
    split_ifs at hcancelled with hlisted
    · unfold Holds ScheduledRuns.evictAgent at hheld
      dsimp only at hheld
      rw [if_pos hlisted.1] at hheld
      cases hheld
    · rw [hfree] at hcancelled
      cases hcancelled
  · intro i run run' hrun hrun' hfree hfree' hunfinished hheld hagent
    rw [hafter, hrun] at hrun'
    cases hrun'
    unfold evict at hfree' hunfinished
    split_ifs at hfree' hunfinished with hlisted
    have hunlisted : s.isTaskOf agentId run.taskId = false :=
      Bool.eq_false_iff.mpr fun h => hlisted ⟨h, hfree, hunfinished⟩
    refine ⟨?_, ?_⟩
    · unfold Holds ScheduledRuns.evictAgent
      dsimp only
      rw [hunlisted]
      exact hheld
    · by_cases heq : run.agentId = agentId
      · obtain ⟨task, htask, htaskAgent⟩ := hs.row i run hrun
        refine .inr (Bool.not_eq_false _ |>.mp fun hthere => ?_)
        rw [← htaskAgent] at heq hthere
        rw [← heq, isTaskOf_of_row htask hthere] at hunlisted
        cases hunlisted
      · exact hagent.imp_left (Function.update_of_ne heq ..).trans

theorem Held.of_spawned (hs : s.Held)
    (htask : s.tasks[taskId]? = some task) (hidle : s.isBusy taskId task.agentId = false)
    (hlock : s'.stateLock = false)
    (hbackground : s'.background = s.background ++
      [⟨taskId, task.agentId, s.records.length, sessionId, .scheduled, false, false⟩])
    (htasks : s'.tasks = s.tasks) (hlength : s'.records.length = s.records.length + 1)
    (hactive : s'.activeRuns = Function.update s.activeRuns taskId (some s.records.length))
    (hbusy : s'.busyAgents = Function.update s.busyAgents task.agentId true)
    (hdeleted : s'.deletedAgents = s.deletedAgents) : s'.Held := by
  obtain ⟨hnone, -⟩ := Bool.or_eq_false_iff.mp hidle
  have hbusyKept {agentId : Nat} (h : s.busyAgents agentId = true) :
      s'.busyAgents agentId = true := by
    rw [hbusy]
    by_cases heq : agentId = task.agentId
    · rw [heq, Function.update_self]
    · rw [Function.update_of_ne heq, h]
  refine ⟨hlock, fun i run h => ?_, fun i run h => ?_, fun i run h hfree hphase => ?_,
    fun i run h hcancelled => ?_⟩
  · rw [hlength]
    obtain h | ⟨-, rfl⟩ := (getElem?_spawned hbackground).mp h
    · exact Nat.lt_succ_of_lt (hs.known i run h)
    · exact Nat.lt_succ_self _
  · rw [htasks]
    obtain h | ⟨-, rfl⟩ := (getElem?_spawned hbackground).mp h
    · exact hs.row i run h
    · exact ⟨task, htask, rfl⟩
  · unfold Holds
    rw [hactive, hdeleted]
    obtain h | ⟨-, rfl⟩ := (getElem?_spawned hbackground).mp h
    · obtain ⟨hheld, hagent⟩ := hs.holder i run h hfree hphase
      refine ⟨(Function.update_of_ne ?_ ..).trans hheld, hagent.imp_left hbusyKept⟩
      rintro heq
      unfold Holds at hheld
      rw [heq] at hheld
      rw [hheld] at hnone
      cases hnone
    · refine ⟨Function.update_self .., .inl ?_⟩
      rw [hbusy, Function.update_self]
  · unfold Holds
    rw [hactive]
    obtain h | ⟨-, rfl⟩ := (getElem?_spawned hbackground).mp h
    · by_cases heq : run.taskId = taskId
      · rw [heq, Function.update_self]
        intro hid
        exact Nat.ne_of_lt (hs.known i run h) (Option.some.inj hid).symm
      · rw [Function.update_of_ne heq]
        exact hs.evicted i run h hcancelled
    · cases hcancelled

/-- With a run spawned, the runs exclude each other if and only if none of the task or the agent
was still unwinding. -/
theorem atMostOneRun_spawned (hheld : s.Held) (hs : s.AtMostOneRun)
    (hthere : s.deletedAgents task.agentId = false)
    (hidle : s.isBusy taskId task.agentId = false)
    (hbackground : s'.background = s.background ++
      [⟨taskId, task.agentId, s.records.length, sessionId, .scheduled, false, false⟩]) :
    s'.AtMostOneRun ↔ s.NoneUnwinds taskId task := by
  have hlast := (getElem?_spawned hbackground (i := s.background.length)).mpr (.inr ⟨rfl, rfl⟩)
  constructor
  · intro h _ run hrun _ hphase
    obtain ⟨i, hi⟩ := List.getElem?_of_mem hrun
    obtain ⟨hlt, -⟩ := List.getElem?_eq_some_iff.mp hi
    have hkept := (getElem?_spawned hbackground).mpr (.inl hi)
    have hne := Nat.ne_of_lt hlt
    exact ⟨fun htask => hne (h i _ run _ hkept hlast hphase nofun (.inl htask)),
      fun hagent => hne (h i _ run _ hkept hlast hphase nofun (.inr hagent))⟩
  · intro h
    obtain ⟨hnone, hfree⟩ := Bool.or_eq_false_iff.mp hidle
    -- a run that was not cancelled by a deletion would have one of the slots
    have hother {i : Nat} {run : BackgroundRun} (hrun : s.background[i]? = some run)
        (hphase : run.phase ≠ .done) : ¬ (run.taskId = taskId ∨ run.agentId = task.agentId) := by
      cases hevicted : run.evicted with
      | true =>
        obtain ⟨htask, hagent⟩ := h hidle run (List.mem_of_getElem? hrun) hevicted hphase
        exact fun h => h.elim htask hagent
      | false =>
        obtain ⟨hholds, hbusy⟩ := hheld.holder i run hrun hevicted hphase
        rintro (htask | hagent)
        · unfold Holds at hholds
          rw [htask] at hholds
          rw [hholds] at hnone
          cases hnone
        · rw [hagent, hfree, hthere] at hbusy
          simp at hbusy
    intro i j run₁ run₂ h₁ h₂ hphase₁ hphase₂ heq
    obtain hold₁ | ⟨hi, rfl⟩ := (getElem?_spawned hbackground).mp h₁
    · obtain hold₂ | ⟨-, rfl⟩ := (getElem?_spawned hbackground).mp h₂
      · exact hs i j run₁ run₂ hold₁ hold₂ hphase₁ hphase₂ heq
      · exact absurd heq (hother hold₁ hphase₁)
    · obtain hold₂ | ⟨hj, -⟩ := (getElem?_spawned hbackground).mp h₂
      · exact absurd (heq.imp Eq.symm Eq.symm) (hother hold₂ hphase₂)
      · exact hi.trans hj.symm

theorem Held.dispatchRun (hs : s.Held) (halone : s.AtMostOneRun)
    (hget : s.getScheduledTask taskId = some task) (sessionId refusal : Option String) :
    (s.dispatchRun taskId task sessionId refusal).Held ∧
      ((s.dispatchRun taskId task sessionId refusal).AtMostOneRun ↔
        ((sessionId = none ∨ refusal = none) → s.NoneUnwinds taskId task)) := by
  obtain ⟨htask, hthere⟩ := getScheduledTask_eq hget
  unfold ScheduledRuns.dispatchRun
  split_ifs with hbusy
  · refine ⟨hs.of_background hs.unlocked (.of_tasks rfl ?_) rfl rfl rfl fun _ h => h,
      iff_of_true (NoneSpawned.of_background rfl |>.atMostOneRun halone) ?_⟩
    · simp [recordSkipped, pruneRuns, createRun]
    · intro _ hidle
      rw [hbusy] at hidle
      cases hidle
  have hidle : s.isBusy taskId task.agentId = false := Bool.eq_false_iff.mpr hbusy
  rw [withStateLock_eq hs.unlocked fun _ _ => rfl]
  cases sessionId with
  | none =>
    refine ⟨hs.of_spawned htask hidle hs.unlocked rfl rfl ?_ rfl rfl rfl,
      (atMostOneRun_spawned hs halone hthere hidle rfl).trans ?_⟩
    · simp [spawnRun, takeSlot, createRun]
    · exact ⟨fun h _ => h, fun h => h (.inl rfl)⟩
  | some session =>
    cases refusal with
    | none =>
      refine ⟨hs.of_spawned htask hidle hs.unlocked rfl rfl ?_ rfl rfl rfl,
        (atMostOneRun_spawned hs halone hthere hidle rfl).trans ?_⟩
      · simp [spawnRun, takeSlot, createRun, updateRun]
      · exact ⟨fun h _ => h, fun h => h (.inr rfl)⟩
    | some error =>
      have hlock : (s.takeSlot taskId task.agentId).stateLock = false := hs.unlocked
      dsimp only
      rw [withStateLock_freeSlot hlock, freeSlot_takeSlot hidle]
      refine ⟨hs.of_background hs.unlocked (.of_tasks rfl ?_) rfl rfl rfl fun _ h => h,
        iff_of_true (NoneSpawned.of_background rfl |>.atMostOneRun halone) ?_⟩
      · simp [createRun, updateRun]
      · exact fun h => h.elim (by rintro ⟨⟩) (by rintro ⟨⟩)

theorem Held.shutdown (hs : s.Held) : s.shutdown.Held ∧ NoneSpawned s s.shutdown := by
  have hafter (i : Nat) : s.shutdown.background[i]? = s.background[i]?.map BackgroundRun.cancel :=
    List.getElem?_map ..
  have hevicted (run : BackgroundRun) : run.cancel.evicted = run.evicted := by
    unfold BackgroundRun.cancel
    split <;> rfl
  have hnone : NoneSpawned s s.shutdown := by
    intro i run' h
    rw [hafter] at h
    obtain ⟨run, hrun, rfl⟩ := Option.map_eq_some_iff.mp h
    refine ⟨run, hrun, .cancel run, fun h => hevicted run ▸ h, fun h hdone => h ?_⟩
    rw [BackgroundRun.cancel, hdone]
    exact hdone
  refine ⟨hs.of_slots hs.unlocked (.of_tasks rfl (Nat.le_refl _)) hnone rfl rfl (fun _ h => h) ?_,
    hnone⟩
  intro i run run' h h'
  rw [hafter, h] at h'
  cases h'
  exact hevicted run

end ScheduledRuns

open ScheduledRuns

theorem scheduledRunsStep_held {s s' : ScheduledRuns} {a : ScheduledRunsAction}
    (hs : s.Held) (halone : s.AtMostOneRun) (h : scheduledRunsStep s a = some s') :
    s'.Held ∧ (s'.AtMostOneRun ↔ s.SpawnsAlone a) := by
  -- but for a dispatch, a step spawns nothing and there is nothing to require of it
  have hrest : s'.Held ∧ NoneSpawned s s' → s.SpawnsAlone a →
      s'.Held ∧ (s'.AtMostOneRun ↔ s.SpawnsAlone a) := fun h hguard =>
    ⟨h.1, iff_of_true (h.2.atMostOneRun halone) hguard⟩
  cases a with
  | createTask agentId enabled =>
    unfold scheduledRunsStep at h
    dsimp only at h
    split_ifs at h
    · cases h
      exact hrest ⟨hs, .of_background rfl⟩ trivial
    · cases h
      refine hrest ⟨hs.of_background hs.unlocked ⟨fun taskId task htask => ?_, Nat.le_refl _⟩
        rfl rfl rfl fun _ h => h, .of_background rfl⟩ trivial
      obtain ⟨hlt, -⟩ := List.getElem?_eq_some_iff.mp htask
      exact ⟨task, (List.getElem?_append_left hlt).trans htask, rfl⟩
  | setEnabled taskId enabled =>
    cases h
    refine hrest ⟨hs.of_background hs.unlocked ⟨fun other task htask => ?_, Nat.le_refl _⟩ rfl rfl
      rfl fun _ h => h, .of_background rfl⟩ trivial
    rw [List.getElem?_modify, htask]
    refine ⟨_, rfl, ?_⟩
    split_ifs <;> rfl
  | runTaskNow taskId sessionId refusal =>
    unfold scheduledRunsStep at h
    dsimp only at h
    split at h
    · rename_i hget
      cases h
      refine hrest ⟨hs, .of_background rfl⟩ fun _ task htask => ?_
      rw [hget] at htask
      cases htask
    · rename_i task hget
      split_ifs at h
      cases h
      obtain ⟨hheld, hiff⟩ := hs.dispatchRun halone hget sessionId refusal
      refine ⟨hheld, hiff.trans ?_⟩
      simp [SpawnsAlone, hget]
  | executeTask taskId =>
    unfold scheduledRunsStep at h
    dsimp only at h
    split at h
    · rename_i hget
      cases h
      refine hrest ⟨hs, .of_background rfl⟩ fun task htask => ?_
      rw [hget] at htask
      cases htask
    · rename_i task hget
      split_ifs at h with henabled
      · cases h
        refine hrest ⟨hs, .of_background rfl⟩ fun other hother hon => ?_
        rw [hget] at hother
        cases hother
        rw [hon] at henabled
        cases henabled
      · cases h
        obtain ⟨hheld, hiff⟩ := hs.dispatchRun halone hget none none
        have hon : task.enabled = true := by simpa using henabled
        refine ⟨hheld, hiff.trans ?_⟩
        simp [SpawnsAlone, hget, hon]
  | runStarts k =>
    unfold scheduledRunsStep at h
    dsimp only at h
    split at h
    · rename_i run hrun
      obtain ⟨hphase, h⟩ := Option.ite_none_right_eq_some.mp h
      cases h
      have hunfinished : run.phase ≠ .done := by
        rw [hphase]
        exact by rintro ⟨⟩
      have hnone : NoneSpawned s (s.setPhase k (if run.cancelled then .done else .running)) :=
        .of_modify hrun hunfinished rfl
      refine hrest ⟨hs.of_slots hs.unlocked (.of_tasks rfl (Nat.le_refl _)) hnone rfl rfl
        (fun _ h => h) fun i other other' hother hother' => ?_, hnone⟩ trivial
      replace hother' : (s.background.modify k _)[i]? = some other' := hother'
      rw [List.getElem?_modify, hother] at hother'
      cases hother'
      split_ifs <;> rfl
    · cases h
  | sessionReady k sessionId =>
    unfold scheduledRunsStep at h
    dsimp only at h
    split at h
    · split_ifs at h
      cases h
      refine hrest ⟨hs.of_background hs.unlocked (.of_tasks rfl ?_) rfl rfl rfl fun _ h => h,
        .of_background rfl⟩ trivial
      simp [updateRun]
    · cases h
  | turnEnds k ended =>
    unfold scheduledRunsStep at h
    dsimp only at h
    split at h
    · rename_i run hrun
      split_ifs at h with hphase hlock
      · rw [hs.unlocked] at hlock
        cases hlock
      · cases h
        have hunfinished : run.phase ≠ .done := by
          rw [not_not.mp hphase]
          exact by rintro ⟨⟩
        exact hrest (hs.finish halone hrun hunfinished ended) trivial
    · cases h
  | lockFree k =>
    unfold scheduledRunsStep at h
    dsimp only at h
    split at h
    · rename_i run hrun
      split at h
      · rename_i ended hphase
        split_ifs at h
        cases h
        have hunfinished : run.phase ≠ .done := by
          rw [hphase]
          exact by rintro ⟨⟩
        exact hrest (hs.finish halone hrun hunfinished ended) trivial
      all_goals cases h
    · cases h
  | shutdown =>
    cases h
    exact hrest hs.shutdown trivial
  | handleAgentDeleted agentId =>
    unfold scheduledRunsStep at h
    split_ifs at h
    cases h
    rw [withStateLock_eq hs.unlocked fun _ _ => rfl] at hrest ⊢
    exact hrest (hs.evictAgent agentId) trivial
  | agentRowsDeleted agentId =>
    cases h
    refine hrest ⟨hs.of_background hs.unlocked (.of_tasks rfl ?_) rfl rfl rfl fun other h => ?_,
      .of_background rfl⟩ trivial
    · simp [deleteAgentRows, dropRecords]
    · change Function.update s.deletedAgents agentId true other = true
      by_cases heq : other = agentId
      · rw [heq, Function.update_self]
      · rw [Function.update_of_ne heq, h]
  | sessionDeleted sessionId =>
    cases h
    refine hrest ⟨hs.of_background hs.unlocked (.of_tasks rfl ?_) rfl rfl rfl fun _ h => h,
      .of_background rfl⟩ trivial
    simp [dropRecords]

/-- In a run there is never more than one unfinished background run of a task or of an agent if
and only if no run is spawned while one that `handle_agent_deleted` has cancelled unwinds. -/
theorem at_most_one_run_iff (maxRunRecords : Nat) (as : List ScheduledRunsAction) :
    Always scheduledRunsStep AtMostOneRun (.fresh maxRunRecords) as ↔
      Guarded scheduledRunsStep SpawnsAlone (.fresh maxRunRecords) as := by
  refine always_iff_guarded (J := Held) ?_ ?_ ?_ ?_
  · exact fun s a s' hheld hs _ h => (scheduledRunsStep_held hheld hs h).1
  · exact fun s a s' hheld hs h => (scheduledRunsStep_held hheld hs h).2
  · constructor <;> simp [fresh]
  · intro _ _ _ _ h
    cases h

/-- A task is run again while its run, cancelled by the deletion of the agent, unwinds. -/
theorem deleted_agent_runs_twice :
    ¬ ∀ (maxRunRecords : Nat) (as : List ScheduledRunsAction),
      Always scheduledRunsStep AtMostOneRun (.fresh maxRunRecords) as := by
  intro h
  have hlast := always_last (h 100 [.createTask 0 true, .runTaskNow 0 none none, .runStarts 0,
    .handleAgentDeleted 0, .runTaskNow 0 none none]) rfl
  have heq := hlast 0 1 _ _ rfl rfl nofun nofun (.inl rfl)
  exact absurd heq nofun

end WittyService
