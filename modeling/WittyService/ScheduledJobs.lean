import Mathlib.Tactic.SplitIfs
import WittyService.ScheduledTasks

/-! That the scheduler has the jobs the rows ask for. -/
namespace WittyService

open GuardedRuns

namespace ScheduledTasks

variable {Trigger : Type} {lib : TriggerLibrary Trigger} {s s' : ScheduledTasks Trigger}
  {taskId : Nat} {task : ScheduledTaskRecord} {error : ScheduledTaskError}

def dueTrigger (lib : TriggerLibrary Trigger) (s : ScheduledTasks Trigger) (taskId : Nat) :
    Option (Except ScheduledTaskError Trigger) :=
  ((s.row taskId).filter fun task => task.enabled && !s.removed taskId).map (buildTrigger lib)

/-- The task has a job if and only if one is due, with the trigger of the current row. -/
def AgreeAt (lib : TriggerLibrary Trigger) (s : ScheduledTasks Trigger) (taskId : Nat) : Prop :=
  s.refused taskId = false → (s.jobs taskId).map Except.ok = s.dueTrigger lib taskId

/-- The rows pass the validation of schedules. -/
def Valid (lib : TriggerLibrary Trigger) (s : ScheduledTasks Trigger) : Prop :=
  ∀ taskId, ∀ task ∈ s.row taskId, validateSchedule lib (some task.scheduleType) task.cronExpr
    task.intervalSeconds (some task.timezone) = .ok ()

/-- An enabled row asks for an interval that the constructor of the trigger refuses. -/
def IntervalRefused (lib : TriggerLibrary Trigger) (s : ScheduledTasks Trigger)
    (error : ScheduledTaskError) : Prop :=
  ∃ taskId task seconds refusal, s.row taskId = some task ∧ task.enabled = true ∧
    task.scheduleType = "interval" ∧ task.intervalSeconds = some seconds ∧
    lib.intervalTrigger seconds = .error refusal ∧ error = .trigger refusal

/-- What a call leads to from `s`. -/
structure Settles (lib : TriggerLibrary Trigger) (s : ScheduledTasks Trigger)
    (result : TaskResult × ScheduledTasks Trigger) : Prop where
  agree : ∀ taskId, result.2.AgreeAt lib taskId
  valid : result.2.Valid lib
  raised : ∀ error, result.1 = .error error →
    (result.2.rows = s.rows ∧ result.2.jobs = s.jobs) ∨ result.2.IntervalRefused lib error

theorem buildTrigger_error (hvalid : validateSchedule lib (some task.scheduleType) task.cronExpr
      task.intervalSeconds (some task.timezone) = .ok ())
    (h : buildTrigger lib task = .error error) :
    ∃ seconds refusal, task.scheduleType = "interval" ∧ task.intervalSeconds = some seconds ∧
      lib.intervalTrigger seconds = .error refusal ∧ error = .trigger refusal := by
  unfold validateSchedule zoneOf at hvalid
  unfold buildTrigger at h
  split at hvalid
  · cases hvalid
  · cases hvalid
  · rename_i hzone
    simp only [Option.some.injEq, Option.getD_some] at hvalid
    split_ifs at h hvalid with hcron hinterval
    · cases hexpr : givenText task.cronExpr with
      | none =>
        rw [hexpr] at hvalid
        cases hvalid
      | some expr =>
        simp only [hexpr] at hvalid h
        simp only [hzone] at h
        cases hbuild : lib.fromCrontab expr task.timezone with
        | ok trigger =>
          rw [hbuild] at h
          cases h
        | error refusal =>
          rw [hbuild] at hvalid
          cases refusal <;> cases hvalid
    · cases hseconds : positiveSeconds task.intervalSeconds with
      | none =>
        rw [hseconds] at hvalid
        cases hvalid
      | some seconds =>
        obtain ⟨hgiven, -⟩ := Option.filter_eq_some_iff.mp hseconds
        simp only [hseconds] at h
        cases hbuild : lib.intervalTrigger seconds with
        | ok trigger =>
          rw [hbuild] at h
          cases h
        | error refusal =>
          rw [hbuild] at h
          cases h
          exact ⟨seconds, refusal, hinterval, hgiven, hbuild, rfl⟩

theorem agreeAt_congr (h : s.AgreeAt lib taskId) (hrow : s'.row taskId = s.row taskId)
    (hjobs : s'.jobs taskId = s.jobs taskId) (hremoved : s'.removed taskId = s.removed taskId)
    (hrefused : s'.refused taskId = s.refused taskId) : s'.AgreeAt lib taskId := by
  unfold AgreeAt dueTrigger at h ⊢
  rw [hrow, hjobs, hremoved, hrefused]
  exact h

theorem agreeAt_of_idle (hjobs : s.jobs taskId = none)
    (hidle : ∀ task ∈ s.row taskId, task.enabled = true → s.removed taskId = true) :
    s.AgreeAt lib taskId := by
  intro _
  unfold dueTrigger
  rw [hjobs]
  cases hrow : s.row taskId with
  | none => rfl
  | some task =>
    have hdue : (task.enabled && !s.removed taskId) = false := by
      cases henabled : task.enabled with
      | false => rfl
      | true =>
        rw [hidle task hrow henabled]
        rfl
    rw [Option.filter_some, hdue]
    rfl

theorem setRow_row {other : Nat} {value : Option ScheduledTaskRecord}
    (hlt : taskId < s.rows.length) :
    (s.setRow taskId value).row other = if other = taskId then value else s.row other := by
  unfold row setRow
  rw [List.getElem?_set]
  split_ifs with h h'
  · rfl
  · exact absurd h.symm h'
  · rename_i h'
    exact absurd h'.symm h
  · rfl

theorem lt_of_row (h : s.row taskId = some task) : taskId < s.rows.length := by
  by_contra hge
  unfold row at h
  rw [List.getElem?_eq_none (Nat.le_of_not_lt hge)] at h
  cases h

theorem Settles.of_raise (hs : ∀ taskId, s.AgreeAt lib taskId) (hvalid : s.Valid lib)
    (error : ScheduledTaskError) : Settles lib s (.error error, s) :=
  ⟨hs, hvalid, fun _ _ => .inl ⟨rfl, rfl⟩⟩

section

variable {written : ScheduledTasks Trigger}
  (hs : ∀ other, other ≠ taskId → written.AgreeAt lib other) (hvalid : written.Valid lib)
include hs hvalid

theorem Settles.scheduleTask (hrow : written.row taskId = some task)
    (henabled : task.enabled = true) :
    Settles lib s (written.scheduleTask lib taskId task) := by
  unfold ScheduledTasks.scheduleTask
  cases hbuild : buildTrigger lib task with
  | error error =>
    obtain ⟨seconds, refusal, htype, hseconds, hrefused, rfl⟩ :=
      buildTrigger_error (hvalid taskId task hrow) hbuild
    refine ⟨fun other => ?_, hvalid, fun error h => ?_⟩
    · by_cases heq : other = taskId
      · intro hfalse
        dsimp only at hfalse
        rw [heq, Function.update_self] at hfalse
        cases hfalse
      · exact agreeAt_congr (hs other heq) rfl rfl rfl (Function.update_of_ne heq ..)
    · cases h
      exact .inr ⟨taskId, task, seconds, refusal, hrow, henabled, htype, hseconds, hrefused, rfl⟩
  | ok trigger =>
    refine ⟨fun other => ?_, hvalid, nofun⟩
    by_cases heq : other = taskId
    · intro _
      unfold dueTrigger
      replace hrow : row { written with
        jobs := Function.update written.jobs taskId (some trigger)
        removed := Function.update written.removed taskId false
        refused := Function.update written.refused taskId false } taskId = some task := hrow
      dsimp only
      rw [heq, hrow, Function.update_self, Function.update_self, Option.filter_some, henabled]
      simp [hbuild]
    · exact agreeAt_congr (hs other heq) rfl (Function.update_of_ne heq ..)
        (Function.update_of_ne heq ..) (Function.update_of_ne heq ..)

theorem Settles.unscheduleTask (hidle : ∀ task ∈ written.row taskId, task.enabled = false)
    (returned : Option ScheduledTaskRecord) :
    Settles lib s (.ok returned, written.unscheduleTask taskId) := by
  refine ⟨fun other => ?_, hvalid, nofun⟩
  by_cases heq : other = taskId
  · rw [heq]
    refine agreeAt_of_idle (Function.update_self ..) fun task hrow henabled => ?_
    rw [hidle task hrow] at henabled
    cases henabled
  · exact agreeAt_congr (hs other heq) rfl (Function.update_of_ne heq ..) rfl
      (Function.update_of_ne heq ..)

end

theorem rowOf_eq {name scheduleType cronExpr timezone content folder : Option String}
    {seconds : Option Int} {agentId : Nat} {enabled : Bool}
    (h : rowOf name scheduleType cronExpr seconds timezone content agentId folder enabled =
      some task) :
    some task.scheduleType = scheduleType ∧ task.cronExpr = cronExpr ∧
      task.intervalSeconds = seconds ∧ some task.timezone = timezone ∧ task.enabled = enabled := by
  unfold rowOf at h
  split at h
  · split_ifs at h
    cases h
    exact ⟨rfl, rfl, rfl, rfl, rfl⟩
  · cases h

theorem Valid.setRow (hvalid : s.Valid lib) (hlt : taskId < s.rows.length)
    (htask : validateSchedule lib (some task.scheduleType) task.cronExpr task.intervalSeconds
      (some task.timezone) = .ok ()) : (s.setRow taskId (some task)).Valid lib := by
  intro other row hrow
  rw [setRow_row hlt] at hrow
  split_ifs at hrow
  · cases hrow
    exact htask
  · exact hvalid other row hrow

theorem agreeAt_setRow (hs : ∀ other, s.AgreeAt lib other) (hlt : taskId < s.rows.length)
    (value : Option ScheduledTaskRecord) :
    ∀ other, other ≠ taskId → (s.setRow taskId value).AgreeAt lib other := by
  intro other hne
  refine agreeAt_congr (hs other) ?_ rfl rfl rfl
  rw [setRow_row hlt, if_neg hne]

theorem row_append (value : ScheduledTaskRecord) (other : Nat) :
    row { s with rows := s.rows ++ [some value] } other =
      if other = s.rows.length then some value else s.row other := by
  unfold row
  split_ifs with heq
  · rw [heq, List.getElem?_concat_length]
    rfl
  · obtain hlt | hle := Nat.lt_or_ge other s.rows.length
    · rw [List.getElem?_append_left hlt]
    · rw [List.getElem?_eq_none hle, List.getElem?_eq_none]
      rw [List.length_append, List.length_singleton]
      omega

section

variable (hs : ∀ taskId, s.AgreeAt lib taskId) (hvalid : s.Valid lib)
include hs hvalid

theorem createTask_settles (task : ScheduledTaskRecord)
    : Settles lib s (s.createTask lib task) := by
  unfold ScheduledTasks.createTask
  split
  · exact .of_raise hs hvalid _
  split
  · exact .of_raise hs hvalid _
  rename_i hschedule
  split
  · exact .of_raise hs hvalid _
  split
  · exact .of_raise hs hvalid _
  rename_i created hcreated
  obtain ⟨htype, hcron, hseconds, hzone, -⟩ := rowOf_eq hcreated
  have hwritten : Valid lib { s with rows := s.rows ++ [some created] } := by
    intro other row hrow
    rw [row_append] at hrow
    split_ifs at hrow
    · cases hrow
      rw [htype, hcron, hseconds, hzone]
      exact hschedule
    · exact hvalid other row hrow
  have hold : ∀ other, other ≠ s.rows.length →
      AgreeAt lib { s with rows := s.rows ++ [some created] } other := by
    intro other hne
    refine agreeAt_congr (hs other) ?_ rfl rfl rfl
    rw [row_append, if_neg hne]
  split
  · rename_i henabled
    exact .scheduleTask hold hwritten ((row_append ..).trans (if_pos rfl)) henabled
  · rename_i henabled
    refine ⟨fun other => ?_, hwritten, nofun⟩
    by_cases heq : other = s.rows.length
    · -- nothing has a job under the number of the new task
      intro hfree
      have hgone : s.row s.rows.length = none := by
        unfold row
        rw [List.getElem?_eq_none (Nat.le_refl _)]
        rfl
      have hnone := hs s.rows.length (heq ▸ hfree)
      unfold dueTrigger at hnone
      rw [hgone] at hnone
      refine agreeAt_of_idle ?_ ?_ hfree
      · rw [heq]
        exact Option.map_eq_none_iff.mp hnone
      · intro row hrow hon
        rw [heq, row_append, if_pos rfl] at hrow
        cases hrow
        exact absurd hon henabled
    · exact hold other heq

theorem updateTask_settles (changes : TaskChanges)
    : Settles lib s (s.updateTask lib taskId changes) := by
  unfold ScheduledTasks.updateTask
  split
  · exact .of_raise hs hvalid _
  rename_i current hcurrent
  have hlt := lt_of_row hcurrent
  dsimp only
  split
  · exact .of_raise hs hvalid _
  rename_i hschedule
  split
  · exact .of_raise hs hvalid _
  split
  · exact .of_raise hs hvalid _
  split
  · exact .of_raise hs hvalid _
  rename_i updated hupdated
  obtain ⟨htype, hcron, hseconds, hzone, -⟩ := rowOf_eq hupdated
  rw [← hcron, ← hseconds, ← htype, ← hzone] at hschedule
  have hrow : (s.setRow taskId (some updated)).row taskId = some updated :=
    (setRow_row hlt).trans (if_pos rfl)
  split
  · rename_i henabled
    exact .scheduleTask (agreeAt_setRow hs hlt _) (hvalid.setRow hlt hschedule) hrow henabled
  · rename_i henabled
    refine .unscheduleTask (agreeAt_setRow hs hlt _) (hvalid.setRow hlt hschedule) ?_ _
    intro task htask
    rw [hrow] at htask
    cases htask
    exact Bool.eq_false_iff.mpr henabled

theorem enableTask_settles :
    Settles lib s (s.enableTask lib taskId) := by
  unfold ScheduledTasks.enableTask
  split
  · exact .of_raise hs hvalid _
  rename_i task htask
  have hlt := lt_of_row htask
  refine .scheduleTask (agreeAt_setRow hs hlt _) (hvalid.setRow hlt ?_) ?_ rfl
  · exact hvalid taskId task htask
  · exact (setRow_row hlt).trans (if_pos rfl)

theorem disableTask_settles :
    Settles lib s (s.disableTask taskId) := by
  unfold ScheduledTasks.disableTask
  split
  · exact .of_raise hs hvalid _
  rename_i task htask
  have hlt := lt_of_row htask
  refine .unscheduleTask (agreeAt_setRow hs hlt _) (hvalid.setRow hlt ?_) (fun row hrow => ?_) _
  · exact hvalid taskId task htask
  · rw [setRow_row hlt, if_pos rfl] at hrow
    cases hrow
    rfl

theorem deleteTask_settles :
    Settles lib s (s.deleteTask taskId) := by
  unfold ScheduledTasks.deleteTask
  split
  · exact ⟨hs, hvalid, nofun⟩
  rename_i task htask
  have hlt := lt_of_row htask
  split
  · exact .of_raise hs hvalid _
  · have hrow (other : Nat) : (s.setRow taskId none).row other =
        if other = taskId then none else s.row other := setRow_row hlt
    refine .unscheduleTask (agreeAt_setRow hs hlt _) ?_ ?_ _
    · intro other row h
      rw [hrow] at h
      split_ifs at h
      · cases h
      · exact hvalid other row h
    · intro row h
      rw [hrow, if_pos rfl] at h
      cases h

theorem handleAgentDeleted_settles (agentId : Nat)
    : Settles lib s (.ok none, s.handleAgentDeleted agentId) := by
  refine ⟨fun taskId => ?_, hvalid, nofun⟩
  cases hlisted : s.isTaskOf agentId taskId with
  | true =>
    refine agreeAt_of_idle ?_ fun task _ _ => ?_
    · simp [handleAgentDeleted, hlisted]
    · simp [handleAgentDeleted, hlisted]
  | false =>
    refine agreeAt_congr (hs taskId) ?_ ?_ ?_ ?_
    · rfl
    all_goals simp [handleAgentDeleted, hlisted]

theorem perform_settles (call : ScheduledTaskCall) : Settles lib s (s.perform lib call) := by
  cases call with
  | createTask task => exact createTask_settles hs hvalid task
  | updateTask taskId changes => exact updateTask_settles hs hvalid changes
  | enableTask taskId => exact enableTask_settles hs hvalid
  | disableTask taskId => exact disableTask_settles hs hvalid
  | deleteTask taskId => exact deleteTask_settles hs hvalid
  | handleAgentDeleted agentId => exact handleAgentDeleted_settles hs hvalid agentId
  | agentChanges agentId usable | runChanges taskId active => exact ⟨hs, hvalid, nofun⟩

end

end ScheduledTasks

open ScheduledTasks

def boundedIntervals : TriggerLibrary Int where
  zoneInfo _ := .ok ()
  fromCrontab _ _ := .error .valueError
  intervalTrigger seconds := if seconds ≤ 10 ^ 14 then .ok seconds else .error .overflowError
  insideWorkspace _ _ := true

end WittyService
