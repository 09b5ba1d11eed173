import WittyService.ScheduledSlots

/-! Every run of a scheduled task ends. -/
namespace WittyService

open GuardedRuns

namespace ScheduledRuns

variable {s s' : ScheduledRuns} {k runId id : Nat} {run : BackgroundRun}

/-- A record that is running has a background run, which is not done. The slot of a task or an
agent without an unfinished background run is free. -/
structure RunsEnd (s : ScheduledRuns) : Prop where
  spawned : ∀ runId, s.IsRunning runId → ∃ run ∈ s.background, run.runId = runId
  recorded : ∀ runId, s.IsRunning runId →
    ∀ run ∈ s.background, run.runId = runId → run.phase ≠ .done
  tasks : ∀ taskId, (∀ run ∈ s.background, run.taskId = taskId → run.phase = .done) →
    s.activeRuns taskId = none
  agents : ∀ agentId, (∀ run ∈ s.background, run.agentId = agentId → run.phase = .done) →
    s.busyAgents agentId = false

/-- A background task that is cancelled before its first step has lost its slot by then, and its
record is gone. -/
def StartsUncancelled (s : ScheduledRuns) : ScheduledRunsAction → Prop
  | .runStarts k => ∀ run ∈ s.background[k]?, run.cancelled = true →
      ¬ s.Holds run ∧ ∀ record ∈ s.records[run.runId]?, record.present = false
  | _ => True

instance (s : ScheduledRuns) : (a : ScheduledRunsAction) → Decidable (s.StartsUncancelled a)
  | .runStarts _ => inferInstanceAs (Decidable (∀ run ∈ _, _ → ¬ _ ∧ ∀ record ∈ _, _ = _))
  | .createTask .. | .setEnabled .. | .runTaskNow .. | .executeTask _ | .sessionReady ..
  | .turnEnds .. | .lockFree _ | .shutdown | .handleAgentDeleted _ | .agentRowsDeleted _
  | .sessionDeleted _ => isTrue trivial

variable {taskId : Nat} {status : ScheduledTaskRunStatus} {error : Option String}
  {task : RunnableTask}

theorem isRunning_createRun (h : (s.createRun taskId status error).IsRunning id) :
    s.IsRunning id ∨ (id = s.records.length ∧ status = .running) := by
  obtain ⟨record, hrecord, hpresent, hstatus⟩ := h
  replace hrecord : (s.records ++ [_])[id]? = some record := hrecord
  rw [List.getElem?_append] at hrecord
  split_ifs at hrecord with hlt
  · exact .inl ⟨record, hrecord, hpresent, hstatus⟩
  · have hid : id - s.records.length = 0 := by
      by_contra hne
      rw [List.getElem?_eq_none (by simp; omega)] at hrecord
      cases hrecord
    rw [hid] at hrecord
    cases hrecord
    exact .inr ⟨by omega, hstatus⟩

theorem isRunning_updateRun {sessionId : Option String}
    (h : (s.updateRun runId status sessionId error).IsRunning id) :
    (id = runId ∧ status = .running) ∨ (id ≠ runId ∧ s.IsRunning id) := by
  obtain ⟨after, hafter, hpresent, hstatus⟩ := h
  replace hafter : (s.records.modify runId _)[id]? = some after := hafter
  rw [List.getElem?_modify] at hafter
  obtain ⟨record, hrecord, rfl⟩ := Option.map_eq_some_iff.mp hafter
  by_cases heq : runId = id
  · split_ifs at hpresent hstatus with hthere
    · exact .inl ⟨heq.symm, hstatus⟩
    · exact absurd hpresent hthere
  · simp only [if_neg heq] at hpresent hstatus
    exact .inr ⟨Ne.symm heq, record, hrecord, hpresent, hstatus⟩

theorem isRunning_pruneRuns (h : (s.pruneRuns taskId).IsRunning id) :
    s.IsRunning id := by
  obtain ⟨after, hafter, hpresent, hstatus⟩ := h
  replace hafter : (s.records.mapIdx _)[id]? = some after := hafter
  rw [List.getElem?_mapIdx] at hafter
  obtain ⟨record, hrecord, rfl⟩ := Option.map_eq_some_iff.mp hafter
  split_ifs at hpresent hstatus
  exact ⟨record, hrecord, hpresent, hstatus⟩

theorem isRunning_dropRecords {gone : ScheduledTaskRun → Bool}
    (h : (s.dropRecords gone).IsRunning id) : s.IsRunning id := by
  obtain ⟨after, hafter, hpresent, hstatus⟩ := h
  replace hafter : (s.records.map _)[id]? = some after := hafter
  rw [List.getElem?_map] at hafter
  obtain ⟨record, hrecord, rfl⟩ := Option.map_eq_some_iff.mp hafter
  split_ifs at hpresent hstatus
  exact ⟨record, hrecord, hpresent, hstatus⟩

theorem writeEnd_eq (s : ScheduledRuns) (runId : Nat) (ended : TurnEnd) :
    ∃ status sessionId error, s.writeEnd runId ended = s.updateRun runId status sessionId error ∧
      status ≠ .running := by
  cases ended with
  | returned sessionId | cancelled | raised error => exact ⟨_, _, _, rfl, nofun⟩

theorem RowsKept.of_tasks (htasks : s'.tasks = s.tasks)
    (hrecords : s.records.length ≤ s'.records.length) : RowsKept s s' where
  tasks taskId task h := ⟨task, htasks ▸ h, rfl⟩
  records := hrecords

theorem Attended.of_background (hs : s.Attended) (hlock : s'.stateLock = false)
    (hbackground : s'.background = s.background) (hrows : RowsKept s s')
    (hrunning : ∀ runId, s'.IsRunning runId → s.IsOwned runId) (hslots : SlotsKept s s') :
    s'.Attended := by
  refine hs.of_alike hlock (f := fun _ run => run) (fun k => ?_) (fun _ _ => ⟨rfl, rfl, rfl⟩)
    (fun _ _ h _ => h) (fun _ _ ended h => h ended) hrows hrunning hslots
  rw [hbackground]
  exact (Option.map_id' ..).symm

theorem SlotsKept.freeSlot (hs : s.Attended) (hrun : s.background[k]? = some run) :
    SlotsKept s (s.freeSlot run.taskId run.agentId run.runId) ∧
      ∀ taskId, (s.freeSlot run.taskId run.agentId run.runId).activeRuns taskId ≠
        some run.runId := by
  have howner {taskId : Nat} (h : s.activeRuns taskId = some run.runId) : taskId = run.taskId := by
    obtain ⟨i, other, hother, hid, htask, -⟩ := hs.slot taskId run.runId h
    obtain rfl := hs.alone i k other run hother hrun hid
    rw [hrun] at hother
    cases hother
    exact htask.symm
  unfold ScheduledRuns.freeSlot
  split_ifs with hholds
  · refine ⟨⟨fun taskId runId h => ?_, fun agentId h => ?_, ?_⟩, fun taskId h => ?_⟩ <;>
      dsimp only at *
    · by_cases heq : taskId = run.taskId
      · rw [heq, Function.update_self] at h
        cases h
      · rw [Function.update_of_ne heq] at h
        exact h
    · by_cases heq : agentId = run.agentId
      · rw [heq, Function.update_self] at h
        cases h
      · rw [Function.update_of_ne heq] at h
        exact h
    · intro i other hother hbusy hholdsOther
      have hagent : other.agentId ≠ run.agentId := by
        rintro heq
        rw [heq, Function.update_self] at hbusy
        cases hbusy
      have htask : other.taskId ≠ run.taskId := by
        rintro heq
        unfold Holds at hholdsOther
        rw [heq, hholds] at hholdsOther
        obtain rfl := hs.alone k i run other hrun hother (Option.some.inj hholdsOther)
        rw [hrun] at hother
        cases hother
        exact hagent rfl
      exact (Function.update_of_ne htask ..).trans hholdsOther
    · by_cases heq : taskId = run.taskId
      · rw [heq, Function.update_self] at h
        cases h
      · rw [Function.update_of_ne heq] at h
        exact heq (howner h)
  · refine ⟨.of_eq rfl rfl, fun taskId h => ?_⟩
    rw [howner h] at h
    exact hholds h

theorem withStateLock_eq {body : ScheduledRuns → ScheduledRuns} (hs : s.stateLock = false)
    (hbody : ∀ s b, body { s with stateLock := b } = { body s with stateLock := b }) :
    s.withStateLock body = body s := by
  have hself : { s with stateLock := false } = s := by rw [← hs]
  calc
    s.withStateLock body = { body s with stateLock := false } := by
      rw [withStateLock, hbody]
    _ = body { s with stateLock := false } := (hbody s false).symm
    _ = body s := by rw [hself]

theorem withStateLock_freeSlot (hs : s.stateLock = false) (taskId agentId runId : Nat) :
    (s.withStateLock fun s => s.freeSlot taskId agentId runId) =
      s.freeSlot taskId agentId runId := by
  refine withStateLock_eq hs fun s b => ?_
  unfold ScheduledRuns.freeSlot
  split_ifs <;> rfl

theorem freeSlot_rest (s : ScheduledRuns) (taskId agentId runId : Nat) :
    (s.freeSlot taskId agentId runId).records = s.records ∧
      (s.freeSlot taskId agentId runId).tasks = s.tasks ∧
      (s.freeSlot taskId agentId runId).background = s.background ∧
      (s.freeSlot taskId agentId runId).stateLock = s.stateLock := by
  unfold ScheduledRuns.freeSlot
  split_ifs <;> exact ⟨rfl, rfl, rfl, rfl⟩

theorem Attended.finish (hs : s.Attended) (hrun : s.background[k]? = some run)
    (ended : TurnEnd) : (s.finish k run ended).Attended := by
  obtain ⟨hslots, hfreed⟩ := SlotsKept.freeSlot hs hrun
  obtain ⟨hrecords, htasks, hbackground, hlock⟩ :=
    s.freeSlot_rest run.taskId run.agentId run.runId
  unfold ScheduledRuns.finish
  rw [withStateLock_freeSlot hs.unlocked]
  obtain ⟨status, sessionId, error, heq, hstatus⟩ :=
    (s.freeSlot run.taskId run.agentId run.runId).writeEnd_eq run.runId ended
  rw [heq]
  have hrunning : ∀ id, (((s.freeSlot run.taskId run.agentId run.runId).updateRun run.runId status
      sessionId error).pruneRuns run.taskId).IsRunning id → id ≠ run.runId ∧ s.IsRunning id := by
    intro id h
    obtain ⟨-, hrunning⟩ | ⟨hne, record, hrecord, h⟩ := isRunning_updateRun (isRunning_pruneRuns h)
    · exact absurd hrunning hstatus
    · rw [hrecords] at hrecord
      exact ⟨hne, record, hrecord, h⟩
  refine hs.of_done hrun ?_ ?_ (.of_tasks htasks ?_) (fun id h => (hrunning id h).2)
    ⟨hslots.active, hslots.busy, hslots.holder⟩ (fun h => (hrunning _ h).1 rfl) hfreed
  · exact hlock.trans hs.unlocked
  · exact congrArg (List.modify · k _) hbackground
  · simp [setPhase, pruneRuns, updateRun, hrecords]

theorem Attended.recordSkipped (hs : s.Attended) (taskId : Nat) :
    (s.recordSkipped taskId).Attended := by
  refine hs.of_background hs.unlocked rfl (.of_tasks rfl ?_) (fun id h => ?_) (.of_eq rfl rfl)
  · simp [ScheduledRuns.recordSkipped, pruneRuns, createRun]
  · obtain h | ⟨-, hstatus⟩ := isRunning_createRun (isRunning_pruneRuns h)
    · exact hs.record id h
    · cases hstatus

theorem getScheduledTask_eq (h : s.getScheduledTask taskId = some task) :
    s.tasks[taskId]? = some task ∧ s.deletedAgents task.agentId = false := by
  obtain ⟨htask, hagent⟩ := Option.filter_eq_some_iff.mp h
  exact ⟨htask, by simpa using hagent⟩

theorem freeSlot_takeSlot {agentId : Nat} (hidle : s.isBusy taskId agentId = false) :
    (s.takeSlot taskId agentId).freeSlot taskId agentId s.records.length =
      s.createRun taskId .running none := by
  obtain ⟨hnone, hfree⟩ := Bool.or_eq_false_iff.mp hidle
  have hactive : Function.update (Function.update s.activeRuns taskId (some s.records.length))
      taskId none = s.activeRuns := by
    rw [Function.update_idem, ← Option.not_isSome_iff_eq_none.mp (Bool.eq_false_iff.mp hnone),
      Function.update_eq_self]
  have hbusy : Function.update (Function.update s.busyAgents agentId true) agentId false =
      s.busyAgents := by
    rw [Function.update_idem, ← hfree, Function.update_eq_self]
  unfold ScheduledRuns.freeSlot takeSlot
  rw [if_pos (Function.update_self ..), hactive, hbusy]
  rfl

theorem Attended.dispatchRun (hs : s.Attended)
    (htask : s.tasks[taskId]? = some task) (sessionId refusal : Option String) :
    (s.dispatchRun taskId task sessionId refusal).Attended := by
  unfold ScheduledRuns.dispatchRun
  split_ifs with hbusy
  · exact hs.recordSkipped taskId
  have hidle : s.isBusy taskId task.agentId = false := Bool.eq_false_iff.mpr hbusy
  rw [withStateLock_eq hs.unlocked fun _ _ => rfl]
  have hrunning {id : Nat} (hne : id ≠ s.records.length)
      (h : (s.takeSlot taskId task.agentId).IsRunning id) : s.IsRunning id := by
    have hcreated : (s.createRun taskId .running none).IsRunning id := h
    obtain h | ⟨hlast, -⟩ := isRunning_createRun hcreated
    · exact h
    · exact absurd hlast hne
  cases sessionId with
  | none =>
    refine hs.of_spawned htask hidle hs.unlocked rfl rfl ?_ (fun id => hrunning) rfl rfl
    simp [spawnRun, takeSlot, createRun]
  | some session =>
    cases refusal with
    | none =>
      refine hs.of_spawned htask hidle hs.unlocked rfl rfl ?_ (fun id hne h => ?_) rfl rfl
      · simp [spawnRun, takeSlot, createRun, updateRun]
      · obtain ⟨hlast, -⟩ | ⟨-, h⟩ := isRunning_updateRun (s := s.takeSlot taskId task.agentId) h
        · exact absurd hlast hne
        · exact hrunning hne h
    | some error =>
      have hlock : (s.takeSlot taskId task.agentId).stateLock = false := hs.unlocked
      dsimp only
      rw [withStateLock_freeSlot hlock, freeSlot_takeSlot hidle]
      refine hs.of_background hs.unlocked rfl (.of_tasks rfl ?_) (fun id h => ?_) (.of_eq rfl rfl)
      · simp [createRun, updateRun]
      · obtain ⟨-, hstatus⟩ | ⟨hne, h⟩ := isRunning_updateRun h
        · cases hstatus
        · obtain h | ⟨hlast, -⟩ := isRunning_createRun h
          · exact hs.record id h
          · exact absurd hlast hne

theorem SameRun.cancel (run : BackgroundRun) : SameRun run run.cancel := by
  unfold BackgroundRun.cancel
  split <;> exact ⟨rfl, rfl, rfl⟩

theorem cancel_phase {run : BackgroundRun} (h : ∀ ended, run.phase ≠ .releasing ended) :
    run.cancel.phase = run.phase := by
  unfold BackgroundRun.cancel
  split <;> rename_i hphase
  · rfl
  · rfl
  · exact absurd hphase (h _)
  · rfl

theorem Attended.shutdown (hs : s.Attended) : s.shutdown.Attended := by
  refine hs.of_alike hs.unlocked (f := fun _ => BackgroundRun.cancel)
    (fun k => List.getElem?_map ..) (fun _ run => .cancel run) (fun _ run h hwaits => ?_)
    (fun _ run ended hwaits => ?_) (.of_tasks rfl (Nat.le_refl _)) hs.record (.of_eq rfl rfl)
  · rw [cancel_phase hwaits]
    exact h
  · rw [cancel_phase hwaits]
    exact hwaits ended

theorem Attended.evictAgent (hs : s.Attended) (agentId : Nat) :
    (s.evictAgent agentId).Attended := by
  let evict (run : BackgroundRun) : BackgroundRun :=
    if s.isTaskOf agentId run.taskId ∧ run.evicted = false ∧ run.phase ≠ .done then
      { run.cancel with evicted := true }
    else run
  have hphase {run : BackgroundRun} (h : ∀ ended, run.phase ≠ .releasing ended) :
      (evict run).phase = run.phase := by
    unfold evict
    split_ifs
    · exact cancel_phase h
    · rfl
  refine hs.of_alike hs.unlocked (f := fun _ => evict) (fun k => List.getElem?_map ..)
    (fun _ run => ?_) (fun _ run h hwaits => ?_) (fun _ run ended hwaits => ?_)
    (.of_tasks rfl (Nat.le_refl _)) hs.record ⟨fun taskId runId h => ?_, fun other h => ?_, ?_⟩
  · unfold evict
    split_ifs
    · obtain ⟨htask, hagent, hid⟩ := SameRun.cancel run
      exact ⟨htask, hagent, hid⟩
    · exact ⟨rfl, rfl, rfl⟩
  · rw [hphase hwaits]
    exact h
  · rw [hphase hwaits]
    exact hwaits ended
  · unfold ScheduledRuns.evictAgent at h
    dsimp only at h
    split_ifs at h
    exact h
  · unfold ScheduledRuns.evictAgent at h
    dsimp only at h
    by_cases heq : other = agentId
    · rw [heq, Function.update_self] at h
      cases h
    · rw [Function.update_of_ne heq] at h
      exact h
  · intro k run hrun hbusy hholds
    unfold ScheduledRuns.evictAgent at hbusy ⊢
    dsimp only [Holds] at hbusy ⊢
    have hagent : run.agentId ≠ agentId := by
      rintro heq
      rw [heq, Function.update_self] at hbusy
      cases hbusy
    rw [if_neg]
    · exact hholds
    · intro hlisted
      obtain ⟨task, htask, heq⟩ := (Option.any_eq_true _ _).mp hlisted
      obtain ⟨htask, -⟩ := getScheduledTask_eq htask
      obtain ⟨task', htask', hagent'⟩ := hs.row k run hrun
      rw [htask] at htask'
      cases htask'
      exact hagent (hagent'.symm.trans (of_decide_eq_true heq))

theorem Attended.runsEnd (hs : s.Attended) : s.RunsEnd := by
  refine ⟨fun runId h => ?_, fun runId h run hrun hid => ?_, fun taskId h => ?_,
    fun agentId h => ?_⟩
  · obtain ⟨k, run, hrun, hid, -⟩ := hs.record runId h
    exact ⟨run, List.mem_of_getElem? hrun, hid⟩
  · obtain ⟨k, owner, howner, hownerId, hphase⟩ := hs.record runId h
    obtain ⟨i, hi⟩ := List.getElem?_of_mem hrun
    obtain rfl := hs.alone i k run owner hi howner (hid.trans hownerId.symm)
    rw [hi] at howner
    cases howner
    exact hphase
  · cases hactive : s.activeRuns taskId with
    | none => rfl
    | some runId =>
      obtain ⟨k, run, hrun, -, htask, hphase⟩ := hs.slot taskId runId hactive
      exact absurd (h run (List.mem_of_getElem? hrun) htask) hphase
  · refine Bool.eq_false_iff.mpr fun hbusy => ?_
    obtain ⟨k, run, hrun, hagent, hholds⟩ := hs.agent agentId hbusy
    obtain ⟨i, owner, howner, hid, -, hphase⟩ := hs.slot run.taskId run.runId hholds
    obtain rfl := hs.alone i k owner run howner hrun hid
    rw [hrun] at howner
    cases howner
    exact absurd (h run (List.mem_of_getElem? hrun) hagent) hphase

theorem attended_fresh (maxRunRecords : Nat) : (fresh maxRunRecords).Attended := by
  constructor <;> simp [fresh, IsRunning]

end ScheduledRuns

open ScheduledRuns

theorem scheduledRunsStep_attended {s s' : ScheduledRuns} {a : ScheduledRunsAction}
    (hs : s.Attended) (hguard : s.StartsUncancelled a) (h : scheduledRunsStep s a = some s') :
    s'.Attended := by
  cases a with
  | createTask agentId enabled =>
    unfold scheduledRunsStep at h
    dsimp only at h
    split_ifs at h
    · cases h
      exact hs
    · cases h
      refine hs.of_background hs.unlocked rfl ⟨fun taskId task htask => ?_, Nat.le_refl _⟩ hs.record
        (.of_eq rfl rfl)
      obtain ⟨hlt, -⟩ := List.getElem?_eq_some_iff.mp htask
      exact ⟨task, (List.getElem?_append_left hlt).trans htask, rfl⟩
  | setEnabled taskId enabled =>
    cases h
    refine hs.of_background hs.unlocked rfl ⟨fun other task htask => ?_, Nat.le_refl _⟩ hs.record
      (.of_eq rfl rfl)
    rw [List.getElem?_modify, htask]
    refine ⟨_, rfl, ?_⟩
    split_ifs <;> rfl
  | runTaskNow taskId sessionId refusal =>
    unfold scheduledRunsStep at h
    dsimp only at h
    split at h
    · cases h
      exact hs
    · rename_i task htask
      split_ifs at h
      cases h
      exact hs.dispatchRun (getScheduledTask_eq htask).1 sessionId refusal
  | executeTask taskId =>
    unfold scheduledRunsStep at h
    dsimp only at h
    split at h
    · cases h
      exact hs
    · rename_i task htask
      split_ifs at h
      · cases h
        exact hs
      · cases h
        exact hs.dispatchRun (getScheduledTask_eq htask).1 none none
  | runStarts k =>
    unfold scheduledRunsStep at h
    dsimp only at h
    split at h
    · rename_i run hrun
      split_ifs at h with hphase hcancelled
      · cases h
        obtain ⟨hfreed, hgone⟩ := hguard run hrun hcancelled
        refine hs.of_done hrun hs.unlocked rfl (.of_tasks rfl (Nat.le_refl _)) (fun _ h => h)
          (.of_eq rfl rfl) ?_ fun taskId h => ?_
        · rintro ⟨record, hrecord, hpresent, -⟩
          rw [hgone record hrecord] at hpresent
          cases hpresent
        · obtain ⟨i, other, hother, hid, rfl, -⟩ := hs.slot taskId run.runId h
          obtain rfl := hs.alone i k other run hother hrun hid
          rw [hrun] at hother
          cases hother
          exact hfreed h
      · cases h
        refine hs.of_alike hs.unlocked
          (f := fun i run => if k = i then { run with phase := .running } else run)
          (fun i => List.getElem?_modify ..) (fun i run => ?_) (fun i run h _ => ?_)
          (fun i run ended h => ?_) (.of_tasks rfl (Nat.le_refl _)) hs.record (.of_eq rfl rfl)
        · split_ifs <;> exact ⟨rfl, rfl, rfl⟩
        · split_ifs
          · exact nofun
          · exact h
        · split_ifs
          · exact nofun
          · exact h ended
    · cases h
  | sessionReady k sessionId =>
    unfold scheduledRunsStep at h
    dsimp only at h
    split at h
    · rename_i run hrun
      split_ifs at h with hphase
      cases h
      refine hs.of_background hs.unlocked rfl (.of_tasks rfl ?_) (fun id h => ?_) (.of_eq rfl rfl)
      · simp [updateRun]
      · obtain ⟨rfl, -⟩ | ⟨-, h⟩ := isRunning_updateRun h
        · exact ⟨k, run, hrun, rfl, by rw [hphase]; exact nofun⟩
        · exact hs.record id h
    · cases h
  | turnEnds k ended =>
    unfold scheduledRunsStep at h
    dsimp only at h
    split at h
    · rename_i run hrun
      split_ifs at h with hphase hlock
      · rw [hs.unlocked] at hlock
        cases hlock
      · cases h
        exact hs.finish hrun ended
    · cases h
  | lockFree k =>
    unfold scheduledRunsStep at h
    dsimp only at h
    split at h
    · rename_i run hrun
      split at h
      · rename_i ended hphase
        exact absurd hphase (hs.waitless k run ended hrun)
      all_goals cases h
    · cases h
  | shutdown =>
    cases h
    exact hs.shutdown
  | handleAgentDeleted agentId =>
    unfold scheduledRunsStep at h
    split_ifs at h
    cases h
    rw [withStateLock_eq hs.unlocked fun _ _ => rfl]
    exact hs.evictAgent agentId
  | agentRowsDeleted agentId =>
    cases h
    refine hs.of_background hs.unlocked rfl (.of_tasks rfl ?_) (fun id h => ?_) (.of_eq rfl rfl)
    · simp [deleteAgentRows, dropRecords]
    · exact hs.record id (isRunning_dropRecords h)
  | sessionDeleted sessionId =>
    cases h
    refine hs.of_background hs.unlocked rfl (.of_tasks rfl ?_) (fun id h => ?_) (.of_eq rfl rfl)
    · simp [dropRecords]
    · exact hs.record id (isRunning_dropRecords h)

/-- In every run whose background tasks are not cancelled before their first step, no record is
left running by a background task that is done, and no slot is left taken. -/
theorem scheduled_runs_end (maxRunRecords : Nat) (as : List ScheduledRunsAction)
    (hguard : Guarded scheduledRunsStep StartsUncancelled (.fresh maxRunRecords) as) :
    Always scheduledRunsStep RunsEnd (.fresh maxRunRecords) as :=
  always_mono (fun _ hs => hs.runsEnd)
    (always_of_guarded (fun _ _ _ hs hguard h => scheduledRunsStep_attended hs hguard h)
      (attended_fresh maxRunRecords) hguard)

/-- A run that is cancelled in the agent's turn, next to one whose session was refused. -/
theorem cancelled_turn_ends :
    Always scheduledRunsStep RunsEnd (.fresh 100)
      [.createTask 0 true, .runTaskNow 0 (some "other") (some "not found"), .executeTask 0,
        .runStarts 0, .sessionReady 0 "session", .shutdown, .turnEnds 0 .cancelled] :=
  scheduled_runs_end 100 _ (by decide +kernel)

/-- A run that is cancelled before its first step leaves its record running. -/
theorem unstarted_run_left_running :
    ¬ ∀ (maxRunRecords : Nat) (as : List ScheduledRunsAction),
      Always scheduledRunsStep RunsEnd (.fresh maxRunRecords) as := by
  intro h
  have hlast := always_last (h 100 [.createTask 0 true, .runTaskNow 0 none none, .shutdown,
    .runStarts 0]) rfl
  exact hlast.recorded 0 ⟨_, rfl, rfl, rfl⟩ _ List.mem_cons_self rfl rfl

end WittyService
