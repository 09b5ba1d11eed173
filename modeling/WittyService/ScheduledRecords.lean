import Mathlib.Data.List.Forall2
import WittyService.ScheduledRunEnds

/-! When the record of a run that has the slot of its task stays in the database. -/
namespace WittyService

open GuardedRuns

namespace ScheduledRuns

variable {s s' : ScheduledRuns} {taskId runId : Nat}

/-- The record of whoever has the slot of a task is in the database. -/
def HoldersRecorded (s : ScheduledRuns) : Prop :=
  ∀ taskId runId, s.activeRuns taskId = some runId →
    ∃ record : ScheduledTaskRun, s.records[runId]? = some record ∧ record.present = true

def endOf (s : ScheduledRuns) : ScheduledRunsAction → Option (BackgroundRun × TurnEnd)
  | .turnEnds k ended =>
    (s.background[k]?.filter fun run => run.phase = .running && !s.stateLock).map (·, ended)
  | .lockFree k =>
    s.background[k]?.bind fun run =>
      match run.phase with
      | .releasing ended => if s.stateLock then none else some (run, ended)
      | _ => none
  | _ => none

def finalStatus : TurnEnd → ScheduledTaskRunStatus
  | .returned _ => .succeeded
  | .cancelled | .raised _ => .failed

/-- A run that ends while it has its slot leaves its final status in the database. -/
def EndsRecorded (s : ScheduledRuns) (a : ScheduledRunsAction) : Prop :=
  ∀ s', scheduledRunsStep s a = some s' →
    ∀ run ended, s.endOf a = some (run, ended) → s.Holds run →
      ∃ record : ScheduledTaskRun, s'.records[run.runId]? = some record ∧
        record.present = true ∧ record.status = finalStatus ended

def skippedTask (s : ScheduledRuns) : ScheduledRunsAction → Option Nat
  | .runTaskNow taskId _ _ =>
    ((s.getScheduledTask taskId).filter fun task => s.isBusy taskId task.agentId).map
      fun _ => taskId
  | .executeTask taskId =>
    ((s.getScheduledTask taskId).filter fun task =>
      task.enabled && s.isBusy taskId task.agentId).map fun _ => taskId
  | _ => none

def cascades (s : ScheduledRuns) (a : ScheduledRunsAction) (record : ScheduledTaskRun) : Bool :=
  match a with
  | .agentRowsDeleted agentId => s.isTaskOf agentId record.taskId
  | .sessionDeleted sessionId => record.sessionId = some sessionId
  | _ => false

def newerRuns (s : ScheduledRuns) (taskId runId : Nat) : Nat :=
  (s.records.drop (runId + 1)).countP fun later => later.present ∧ later.taskId = taskId

/-- A skip leaves room for the record of whoever has the slot of the task, and no other row is
deleted that such a record refers to. -/
def SparesHolders (s : ScheduledRuns) (a : ScheduledRunsAction) : Prop :=
  ∀ taskId runId, s.activeRuns taskId = some runId →
    (s.skippedTask a = some taskId → s.newerRuns taskId runId + 1 < s.maxRunRecords) ∧
      ∀ record ∈ s.records[runId]?, s.cascades a record = false

/-- Whoever has the slot of a task has a record of the task, with few enough newer ones. -/
structure Counted (s : ScheduledRuns) (taskId runId : Nat) : Prop where
  row : ∃ record : ScheduledTaskRun, s.records[runId]? = some record ∧ record.taskId = taskId
  newer : s.newerRuns taskId runId < s.maxRunRecords

structure HoldersCounted (s : ScheduledRuns) : Prop where
  limit : 1 ≤ s.maxRunRecords
  holder : ∀ taskId runId, s.activeRuns taskId = some runId → s.Counted taskId runId

def pruneKey (record : ScheduledTaskRun) : Nat × Bool := (record.taskId, record.present)

theorem newerRuns_eq (s : ScheduledRuns) (taskId runId : Nat) : s.newerRuns taskId runId =
    ((s.records.map pruneKey).drop (runId + 1)).countP fun key => key.2 ∧ key.1 = taskId := by
  rw [newerRuns, ← List.map_drop, List.countP_map]
  rfl

structure SameRecords (s s' : ScheduledRuns) : Prop where
  limit : s'.maxRunRecords = s.maxRunRecords
  active : ∀ taskId runId, s'.activeRuns taskId = some runId → s.activeRuns taskId = some runId
  records : s'.records.map pruneKey = s.records.map pruneKey

section

variable (h : SameRecords s s')
include h

theorem SameRecords.get {record : ScheduledTaskRun} (hrecord : s.records[runId]? = some record) :
    ∃ record' : ScheduledTaskRun, s'.records[runId]? = some record' ∧
      record'.taskId = record.taskId ∧ record'.present = record.present := by
  have hkeys := congrArg (fun keys => keys[runId]?) h.records
  simp only [List.getElem?_map, hrecord, Option.map_some] at hkeys
  obtain ⟨record', hrecord', hkey⟩ := Option.map_eq_some_iff.mp hkeys
  obtain ⟨htask, hpresent⟩ := Prod.mk.inj hkey
  exact ⟨record', hrecord', htask, hpresent⟩

theorem SameRecords.counted (hs : s.HoldersCounted) :
    s'.HoldersCounted := by
  refine ⟨h.limit.symm ▸ hs.limit, fun taskId runId hactive => ?_⟩
  obtain ⟨⟨record, hrecord, htask⟩, hnewer⟩ :=
    hs.holder taskId runId (h.active taskId runId hactive)
  obtain ⟨record', hrecord', htask', -⟩ := h.get hrecord
  refine ⟨⟨record', hrecord', htask'.trans htask⟩, ?_⟩
  rw [newerRuns_eq, h.records, ← newerRuns_eq, h.limit]
  exact hnewer

theorem SameRecords.recorded (hs : s.HoldersRecorded) :
    s'.HoldersRecorded := by
  intro taskId runId hactive
  obtain ⟨record, hrecord, hpresent⟩ := hs taskId runId (h.active taskId runId hactive)
  obtain ⟨record', hrecord', -, hpresent'⟩ := h.get hrecord
  exact ⟨record', hrecord', hpresent'.trans hpresent⟩

theorem SameRecords.updateRun (id : Nat)
    (status : ScheduledTaskRunStatus) (sessionId error : Option String) :
    SameRecords s (s'.updateRun id status sessionId error) := by
  refine ⟨h.limit, h.active, ?_⟩
  rw [← h.records]
  change (s'.records.modify id _).map pruneKey = _
  apply List.ext_getElem?
  intro i
  rw [List.getElem?_map, List.getElem?_modify, List.getElem?_map]
  cases s'.records[i]? with
  | none => rfl
  | some record =>
    change some (pruneKey _) = some (pruneKey record)
    split_ifs
    · dsimp only
      split_ifs <;> rfl
    · rfl

end

theorem SameRecords.freeSlot (s : ScheduledRuns) (taskId agentId runId : Nat) :
    SameRecords s (s.freeSlot taskId agentId runId) := by
  unfold ScheduledRuns.freeSlot
  split_ifs
  · refine ⟨rfl, fun other id h => ?_, rfl⟩
    dsimp only at h
    by_cases heq : other = taskId
    · rw [heq, Function.update_self] at h
      cases h
    · rwa [Function.update_of_ne heq] at h
  · exact ⟨rfl, fun _ _ h => h, rfl⟩

/-- Records are marked as deleted and nothing else happens. -/
structure Deletes (s s' : ScheduledRuns) (gone : Nat → ScheduledTaskRun → Prop)
    [∀ i record, Decidable (gone i record)] : Prop where
  limit : s'.maxRunRecords = s.maxRunRecords
  active : s'.activeRuns = s.activeRuns
  records : s'.records = s.records.mapIdx fun i record =>
    if gone i record then { record with present := false } else record

section Deletes

variable {gone : Nat → ScheduledTaskRun → Prop} [∀ i record, Decidable (gone i record)]

theorem Deletes.get (h : Deletes s s' gone) (i : Nat) :
    s'.records[i]? = (s.records[i]?).map fun record =>
      if gone i record then { record with present := false } else record := by
  rw [h.records, List.getElem?_mapIdx]

theorem countP_le_of_forall₂ {α β : Type*} {p : α → Bool} {q : β → Bool} {l : List α}
    {m : List β} (h : List.Forall₂ (fun a b => p a = true → q b = true) l m) :
    l.countP p ≤ m.countP q := by
  induction h with
  | nil => exact Nat.le_refl _
  | @cons a b l m hab _ ih =>
    rw [List.countP_cons, List.countP_cons]
    by_cases ha : p a = true
    · simp only [ha, hab ha, if_true]
      omega
    · simp only [ha, Bool.false_eq_true, if_false]
      omega

theorem Deletes.newerRuns_le (h : Deletes s s' gone) (taskId runId : Nat) :
    s'.newerRuns taskId runId ≤ s.newerRuns taskId runId := by
  apply countP_le_of_forall₂
  apply List.forall₂_drop
  rw [h.records, List.forall₂_iff_get]
  refine ⟨List.length_mapIdx, fun i hi hi' => ?_⟩
  simp only [List.get_eq_getElem, List.getElem_mapIdx]
  split_ifs
  · simp
  · exact id

theorem Deletes.counted (h : Deletes s s' gone) (hs : s.HoldersCounted) :
    s'.HoldersCounted := by
  refine ⟨h.limit.symm ▸ hs.limit, fun taskId runId hactive => ?_⟩
  rw [h.active] at hactive
  obtain ⟨⟨record, hrecord, htask⟩, hnewer⟩ := hs.holder taskId runId hactive
  refine ⟨⟨_, (h.get runId).trans (congrArg _ hrecord), ?_⟩, ?_⟩
  · dsimp only
    split_ifs <;> exact htask
  · rw [h.limit]
    exact Nat.lt_of_le_of_lt (h.newerRuns_le taskId runId) hnewer

theorem Deletes.recorded_iff (h : Deletes s s' gone) (hs : s.HoldersRecorded) :
    s'.HoldersRecorded ↔ ∀ taskId runId, s.activeRuns taskId = some runId →
      ∀ record ∈ s.records[runId]?, ¬ gone runId record := by
  constructor
  · intro hrecorded taskId runId hactive record hrecord hgone
    obtain ⟨record', hrecord', hpresent⟩ := hrecorded taskId runId (h.active ▸ hactive)
    rw [h.get, hrecord, Option.map_some, if_pos hgone] at hrecord'
    cases hrecord'
    cases hpresent
  · intro hkept taskId runId hactive
    rw [h.active] at hactive
    obtain ⟨record, hrecord, hpresent⟩ := hs taskId runId hactive
    refine ⟨record, ?_, hpresent⟩
    rw [h.get, hrecord, Option.map_some, if_neg (hkept taskId runId hactive record hrecord)]

end Deletes

theorem deletes_pruneRuns (s : ScheduledRuns) (taskId : Nat) :
    Deletes s (s.pruneRuns taskId) fun i record =>
      record.taskId = taskId ∧ s.maxRunRecords ≤ s.newerRuns taskId i :=
  ⟨rfl, rfl, rfl⟩

theorem deletes_dropRecords (s : ScheduledRuns) (gone : ScheduledTaskRun → Bool) :
    Deletes s (s.dropRecords gone) fun _ record => gone record = true := by
  refine ⟨rfl, rfl, ?_⟩
  apply List.ext_getElem?
  intro i
  change (s.records.map _)[i]? = _
  rw [List.getElem?_map, List.getElem?_mapIdx]

theorem HoldersCounted.pruneRuns (hs : s.HoldersCounted) (hr : s.HoldersRecorded) (taskId : Nat) :
    (s.pruneRuns taskId).HoldersCounted ∧ (s.pruneRuns taskId).HoldersRecorded := by
  refine ⟨(deletes_pruneRuns s taskId).counted hs, ?_⟩
  apply ((deletes_pruneRuns s taskId).recorded_iff hr).mpr
  rintro other runId hactive record hrecord ⟨htask, hover⟩
  obtain ⟨⟨own, hown, hother⟩, hnewer⟩ := hs.holder other runId hactive
  rw [hrecord] at hown
  cases hown
  rw [← htask, hother] at hover
  omega

variable {created : Nat} {status : ScheduledTaskRunStatus} {error : Option String}
  {a : ScheduledRunsAction}

theorem newerRuns_createRun (hlt : runId < s.records.length) :
    (s.createRun created status error).newerRuns taskId runId =
      s.newerRuns taskId runId + if created = taskId then 1 else 0 := by
  unfold newerRuns createRun
  rw [List.drop_append_of_le_length hlt, List.countP_append]
  congr 1
  by_cases heq : created = taskId <;> simp [heq]

theorem lt_length_of_get {α : Type*} {l : List α} {i : Nat} {a : α} (h : l[i]? = some a) :
    i < l.length := (List.getElem?_eq_some_iff.mp h).1

theorem getElem?_createRun {record : ScheduledTaskRun} (h : s.records[runId]? = some record) :
    (s.createRun created status error).records[runId]? = some record :=
  (List.getElem?_append_left (lt_length_of_get h)).trans h

theorem HoldersRecorded.createRun (hr : s.HoldersRecorded) (created : Nat)
    (status : ScheduledTaskRunStatus) (error : Option String) :
    (s.createRun created status error).HoldersRecorded := by
  intro taskId runId hactive
  obtain ⟨record, hrecord, hpresent⟩ := hr taskId runId hactive
  exact ⟨record, getElem?_createRun hrecord, hpresent⟩

section

variable (hs : s.HoldersCounted) (hr : s.HoldersRecorded)
include hs hr

theorem HoldersCounted.recordSkipped (skipped : Nat) :
    ((s.recordSkipped skipped).HoldersRecorded ↔ ∀ runId, s.activeRuns skipped = some runId →
      s.newerRuns skipped runId + 1 < s.maxRunRecords) ∧
    ((s.recordSkipped skipped).HoldersRecorded → (s.recordSkipped skipped).HoldersCounted) := by
  let created := s.createRun skipped .skipped
    (some "Task or agent is busy, this run was skipped.")
  have hcreated : created.HoldersRecorded := hr.createRun _ _ _
  have hnewer {taskId runId : Nat} (h : s.activeRuns taskId = some runId) :
      created.newerRuns taskId runId =
        s.newerRuns taskId runId + if skipped = taskId then 1 else 0 := by
    obtain ⟨⟨record, hrecord, -⟩, -⟩ := hs.holder taskId runId h
    exact newerRuns_createRun (lt_length_of_get hrecord)
  have hiff : (s.recordSkipped skipped).HoldersRecorded ↔
      ∀ runId, s.activeRuns skipped = some runId →
        s.newerRuns skipped runId + 1 < s.maxRunRecords := by
    refine ((deletes_pruneRuns created skipped).recorded_iff hcreated).trans ⟨?_, ?_⟩
    · intro hall runId hactive
      obtain ⟨⟨record, hrecord, htask⟩, -⟩ := hs.holder skipped runId hactive
      have hkept := hall skipped runId hactive record (getElem?_createRun hrecord)
      have hcount := hnewer hactive
      rw [if_pos rfl] at hcount
      by_contra hover
      apply hkept
      refine ⟨htask, ?_⟩
      change s.maxRunRecords ≤ _
      omega
    · rintro hroom taskId runId hactive record hrecord ⟨htask, hover⟩
      obtain ⟨⟨own, hown, hother⟩, -⟩ := hs.holder taskId runId hactive
      rw [getElem?_createRun hown] at hrecord
      cases hrecord
      have hsame : taskId = skipped := hother.symm.trans htask
      subst hsame
      have hcount := hnewer hactive
      rw [if_pos rfl] at hcount
      have hfits := hroom runId hactive
      change s.maxRunRecords ≤ _ at hover
      omega
  refine ⟨hiff, fun hrecorded => ?_⟩
  have hroom := hiff.mp hrecorded
  refine ((deletes_pruneRuns created skipped).counted ⟨hs.limit, ?_⟩)
  intro taskId runId hactive
  obtain ⟨⟨record, hrecord, htask⟩, hbelow⟩ := hs.holder taskId runId hactive
  refine ⟨⟨record, getElem?_createRun hrecord, htask⟩, ?_⟩
  rw [hnewer hactive]
  split_ifs with hsame
  · subst hsame
    exact hroom runId hactive
  · exact hbelow

theorem HoldersCounted.takeSlot {agentId : Nat} (hidle : s.isBusy taskId agentId = false) :
    (s.takeSlot taskId agentId).HoldersCounted ∧ (s.takeSlot taskId agentId).HoldersRecorded := by
  obtain ⟨hnone, -⟩ := Bool.or_eq_false_iff.mp hidle
  have hlast : (s.createRun taskId .running none).records[s.records.length]? =
      some ⟨taskId, .running, none, none, true⟩ := by simp [createRun]
  have hactive {other id : Nat}
      (h : (s.takeSlot taskId agentId).activeRuns other = some id) :
      (other = taskId ∧ id = s.records.length) ∨
        (taskId ≠ other ∧ s.activeRuns other = some id) := by
    change Function.update s.activeRuns taskId (some s.records.length) other = some id at h
    by_cases heq : other = taskId
    · rw [heq, Function.update_self] at h
      exact .inl ⟨heq, (Option.some.inj h).symm⟩
    · rw [Function.update_of_ne heq] at h
      exact .inr ⟨Ne.symm heq, h⟩
  constructor
  · refine ⟨hs.limit, fun other id h => ?_⟩
    rcases hactive h with ⟨rfl, rfl⟩ | ⟨hne, h⟩
    · refine ⟨⟨_, hlast, rfl⟩, ?_⟩
      have hnewest : (s.createRun other .running none).newerRuns other s.records.length = 0 := by
        simp [newerRuns, createRun]
      exact Nat.lt_of_le_of_lt (Nat.le_of_eq hnewest) hs.limit
    · obtain ⟨⟨record, hrecord, htask⟩, hbelow⟩ := hs.holder other id h
      refine ⟨⟨record, getElem?_createRun hrecord, htask⟩, ?_⟩
      have hcount : (s.createRun taskId .running none).newerRuns other id = _ :=
        newerRuns_createRun (lt_length_of_get hrecord)
      rw [if_neg hne] at hcount
      exact Nat.lt_of_le_of_lt (Nat.le_of_eq hcount) hbelow
  · intro other id h
    rcases hactive h with ⟨rfl, rfl⟩ | ⟨-, h⟩
    · exact ⟨_, hlast, rfl⟩
    · obtain ⟨record, hrecord, hpresent⟩ := hr other id h
      exact ⟨record, getElem?_createRun hrecord, hpresent⟩

theorem HoldersCounted.dispatchRun {task : RunnableTask}
    (hidle : s.isBusy taskId task.agentId = false)
    (sessionId refusal : Option String) :
    (s.dispatchRun taskId task sessionId refusal).HoldersCounted ∧
      (s.dispatchRun taskId task sessionId refusal).HoldersRecorded := by
  obtain ⟨hcounted, hrecorded⟩ := hs.takeSlot hr hidle
  have hsame : SameRecords (s.takeSlot taskId task.agentId)
      (s.dispatchRun taskId task sessionId refusal) := by
    unfold ScheduledRuns.dispatchRun
    rw [if_neg (by rw [hidle]; exact Bool.false_ne_true)]
    have htaken : SameRecords (s.takeSlot taskId task.agentId)
        (s.withStateLock fun s => s.takeSlot taskId task.agentId) := ⟨rfl, fun _ _ h => h, rfl⟩
    cases sessionId with
    | none => exact ⟨rfl, fun _ _ h => h, rfl⟩
    | some session =>
      cases refusal with
      | none =>
        have hupdated := htaken.updateRun s.records.length .running (some session) none
        exact ⟨hupdated.limit, hupdated.active, hupdated.records⟩
      | some error =>
        have hfreed := SameRecords.freeSlot
          { s.takeSlot taskId task.agentId with stateLock := true } taskId task.agentId
          s.records.length
        have hlocked : SameRecords (s.takeSlot taskId task.agentId)
            ((s.withStateLock fun s => s.takeSlot taskId task.agentId).withStateLock
              fun s' => s'.freeSlot taskId task.agentId s.records.length) :=
          ⟨hfreed.limit, hfreed.active, hfreed.records⟩
        exact hlocked.updateRun s.records.length .failed (some session) (some error)
  exact ⟨hsame.counted hcounted, hsame.recorded hrecorded⟩

end

theorem sameRecords_writeEnd (s : ScheduledRuns) (run : BackgroundRun) (ended : TurnEnd) :
    SameRecords s ((s.withStateLock fun s => s.freeSlot run.taskId run.agentId
      run.runId).writeEnd run.runId ended) := by
  have hfreed := SameRecords.freeSlot { s with stateLock := true } run.taskId run.agentId run.runId
  have hunlocked : SameRecords s
      (s.withStateLock fun s => s.freeSlot run.taskId run.agentId run.runId) :=
    ⟨hfreed.limit, hfreed.active, hfreed.records⟩
  obtain ⟨status, sessionId, error, heq, -⟩ := (s.withStateLock fun s =>
    s.freeSlot run.taskId run.agentId run.runId).writeEnd_eq run.runId ended
  rw [heq]
  exact hunlocked.updateRun run.runId status sessionId error

theorem HoldersCounted.finish (hs : s.HoldersCounted) (hr : s.HoldersRecorded) (k : Nat)
    (run : BackgroundRun) (ended : TurnEnd) :
    (s.finish k run ended).HoldersCounted ∧ (s.finish k run ended).HoldersRecorded := by
  have hwritten := s.sameRecords_writeEnd run ended
  obtain ⟨hcounted, hrecorded⟩ :=
    (hwritten.counted hs).pruneRuns (hwritten.recorded hr) run.taskId
  have hsame : SameRecords (((s.withStateLock fun s => s.freeSlot run.taskId run.agentId
      run.runId).writeEnd run.runId ended).pruneRuns run.taskId) (s.finish k run ended) :=
    ⟨rfl, fun _ _ h => h, rfl⟩
  exact ⟨hsame.counted hcounted, hsame.recorded hrecorded⟩

theorem HoldersCounted.finish_status (hs : s.HoldersCounted) (hr : s.HoldersRecorded) (k : Nat)
    {run : BackgroundRun} (ended : TurnEnd) (hholds : s.Holds run) :
    ∃ record : ScheduledTaskRun, (s.finish k run ended).records[run.runId]? = some record ∧
      record.present = true ∧ record.status = finalStatus ended := by
  obtain ⟨⟨record, hrecord, htask⟩, hnewer⟩ := hs.holder run.taskId run.runId hholds
  obtain ⟨own, hown, hpresent⟩ := hr run.taskId run.runId hholds
  rw [hrecord] at hown
  cases hown
  have hwritten := s.sameRecords_writeEnd run ended
  let freed := s.withStateLock fun s => s.freeSlot run.taskId run.agentId run.runId
  have hfreed : freed.records[run.runId]? = some record := by
    have hrest := ScheduledRuns.freeSlot_rest { s with stateLock := true } run.taskId
      run.agentId run.runId
    change (ScheduledRuns.freeSlot _ _ _ _).records[run.runId]? = _
    rw [hrest.1]
    exact hrecord
  have hstatus : ∃ after : ScheduledTaskRun,
      (freed.writeEnd run.runId ended).records[run.runId]? = some after ∧
      after.present = true ∧ after.status = finalStatus ended := by
    have hupdate (status : ScheduledTaskRunStatus) (sessionId error : Option String) :
        (freed.updateRun run.runId status sessionId error).records[run.runId]? =
          some { record with status := status, sessionId := sessionId, error := error } := by
      change (freed.records.modify run.runId _)[run.runId]? = _
      rw [List.getElem?_modify, hfreed]
      simp [hpresent]
    cases ended with
    | returned sessionId | cancelled | raised error => exact ⟨_, hupdate _ _ _, hpresent, rfl⟩
  obtain ⟨after, hafter, hthere, hfinal⟩ := hstatus
  refine ⟨after, ?_, hthere, hfinal⟩
  change ((freed.writeEnd run.runId ended).pruneRuns run.taskId).records[run.runId]? = _
  rw [(deletes_pruneRuns _ _).get, hafter, Option.map_some, if_neg]
  rintro ⟨-, hover⟩
  rw [newerRuns_eq, hwritten.records, ← newerRuns_eq, hwritten.limit] at hover
  omega

theorem spares_of_keep (hskip : s.skippedTask a = none)
    (hcascade : ∀ record, s.cascades a record = false) : s.SparesHolders a := by
  intro taskId runId _
  refine ⟨fun h => ?_, fun record _ => hcascade record⟩
  rw [hskip] at h
  cases h

theorem SameRecords.step (h : SameRecords s s')
    (hs : s.HoldersCounted) (hr : s.HoldersRecorded) (hskip : s.skippedTask a = none)
    (hcascade : ∀ record, s.cascades a record = false) :
    (s'.HoldersRecorded ↔ s.SparesHolders a) ∧ (s'.HoldersRecorded → s'.HoldersCounted) :=
  ⟨iff_of_true (h.recorded hr) (spares_of_keep hskip hcascade), fun _ => h.counted hs⟩

section

variable (hs : s.HoldersCounted) (hr : s.HoldersRecorded) {a : ScheduledRunsAction}
include hs hr

theorem HoldersCounted.trigger {task : RunnableTask} (sessionId refusal : Option String)
    (hskip : s.skippedTask a = if s.isBusy taskId task.agentId then some taskId else none)
    (hcascade : ∀ record, s.cascades a record = false) :
    ((s.dispatchRun taskId task sessionId refusal).HoldersRecorded ↔ s.SparesHolders a) ∧
      ((s.dispatchRun taskId task sessionId refusal).HoldersRecorded →
        (s.dispatchRun taskId task sessionId refusal).HoldersCounted) := by
  by_cases hbusy : s.isBusy taskId task.agentId = true
  · obtain ⟨hiff, hcounted⟩ := hs.recordSkipped hr taskId
    have hdispatch : s.dispatchRun taskId task sessionId refusal = s.recordSkipped taskId := by
      unfold ScheduledRuns.dispatchRun
      rw [if_pos hbusy]
    rw [if_pos hbusy] at hskip
    rw [hdispatch]
    refine ⟨hiff.trans ⟨fun hroom other runId hactive => ?_, fun hspare runId hactive => ?_⟩,
      hcounted⟩
    · refine ⟨fun h => ?_, fun record _ => hcascade record⟩
      rw [hskip] at h
      cases h
      exact hroom runId hactive
    · exact (hspare taskId runId hactive).1 hskip
  · have hidle : s.isBusy taskId task.agentId = false := Bool.eq_false_iff.mpr hbusy
    obtain ⟨hcounted, hrecorded⟩ := hs.dispatchRun hr hidle sessionId refusal
    rw [if_neg hbusy] at hskip
    exact ⟨iff_of_true hrecorded (spares_of_keep hskip hcascade), fun _ => hcounted⟩

theorem HoldersCounted.cascade {gone : ScheduledTaskRun → Bool}
    (h : Deletes s s' fun _ record => gone record = true) (hskip : s.skippedTask a = none)
    (hgone : ∀ record, s.cascades a record = gone record) :
    (s'.HoldersRecorded ↔ s.SparesHolders a) ∧ (s'.HoldersRecorded → s'.HoldersCounted) := by
  refine ⟨(h.recorded_iff hr).trans ⟨fun hkept taskId runId hactive => ?_,
    fun hspare taskId runId hactive record hrecord => ?_⟩, fun _ => h.counted hs⟩
  · refine ⟨fun htask => ?_, fun record hrecord => ?_⟩
    · rw [hskip] at htask
      cases htask
    · rw [hgone]
      exact Bool.eq_false_iff.mpr (hkept taskId runId hactive record hrecord)
  · rw [← hgone, (hspare taskId runId hactive).2 record hrecord]
    exact Bool.false_ne_true

end

theorem scheduledRunsStep_spares (hs : s.HoldersCounted)
    (hr : s.HoldersRecorded) (h : scheduledRunsStep s a = some s') :
    (s'.HoldersRecorded ↔ s.SparesHolders a) ∧ (s'.HoldersRecorded → s'.HoldersCounted) := by
  have hsame : SameRecords s s := ⟨rfl, fun _ _ h => h, rfl⟩
  cases a with
  | createTask agentId enabled =>
    simp only [scheduledRunsStep] at h
    have hkept : SameRecords s s' := by
      split_ifs at h <;> cases h <;> exact ⟨rfl, fun _ _ h => h, rfl⟩
    exact hkept.step hs hr rfl fun _ => rfl
  | setEnabled taskId enabled | shutdown =>
    cases h
    exact SameRecords.step ⟨rfl, fun _ _ h => h, rfl⟩ hs hr rfl fun _ => rfl
  | runTaskNow taskId sessionId refusal =>
    simp only [scheduledRunsStep] at h
    split at h
    · rename_i htask
      cases h
      exact hsame.step hs hr (by simp [skippedTask, htask]) fun _ => rfl
    · rename_i task htask
      split_ifs at h
      cases h
      apply hs.trigger hr sessionId refusal _ fun _ => rfl
      simp only [skippedTask, htask, Option.filter_some]
      split_ifs <;> rfl
  | executeTask taskId =>
    simp only [scheduledRunsStep] at h
    split at h
    · rename_i htask
      cases h
      exact hsame.step hs hr (by simp [skippedTask, htask]) fun _ => rfl
    · rename_i task htask
      split_ifs at h with henabled
      · cases h
        refine hsame.step hs hr ?_ fun _ => rfl
        simp only [Bool.not_eq_true'] at henabled
        simp [skippedTask, htask, henabled]
      · cases h
        apply hs.trigger hr none none _ fun _ => rfl
        simp only [Bool.not_eq_true', Bool.not_eq_false] at henabled
        simp only [skippedTask, htask, Option.filter_some, henabled, Bool.true_and]
        split_ifs <;> rfl
  | runStarts k =>
    simp only [scheduledRunsStep] at h
    split at h
    · split_ifs at h <;> cases h <;> exact SameRecords.step ⟨rfl, fun _ _ h => h, rfl⟩ hs hr rfl
        fun _ => rfl
    · cases h
  | sessionReady k sessionId =>
    simp only [scheduledRunsStep] at h
    split at h
    · split_ifs at h
      cases h
      exact (hsame.updateRun _ _ _ _).step hs hr rfl fun _ => rfl
    · cases h
  | turnEnds k ended =>
    simp only [scheduledRunsStep] at h
    split at h
    · rename_i run hrun
      split_ifs at h
      · cases h
        exact SameRecords.step ⟨rfl, fun _ _ h => h, rfl⟩ hs hr rfl fun _ => rfl
      · cases h
        obtain ⟨hcounted, hrecorded⟩ := hs.finish hr k run ended
        exact ⟨iff_of_true hrecorded (spares_of_keep rfl fun _ => rfl), fun _ => hcounted⟩
    · cases h
  | lockFree k =>
    simp only [scheduledRunsStep] at h
    split at h
    · rename_i run hrun
      split at h
      · rename_i ended hphase
        split_ifs at h
        cases h
        obtain ⟨hcounted, hrecorded⟩ := hs.finish hr k run ended
        exact ⟨iff_of_true hrecorded (spares_of_keep rfl fun _ => rfl), fun _ => hcounted⟩
      all_goals cases h
    · cases h
  | handleAgentDeleted agentId =>
    simp only [scheduledRunsStep] at h
    split_ifs at h
    cases h
    refine SameRecords.step ⟨rfl, fun taskId runId hactive => ?_, rfl⟩ hs hr rfl fun _ => rfl
    simp only [withStateLock, evictAgent] at hactive
    split_ifs at hactive
    exact hactive
  | agentRowsDeleted agentId =>
    cases h
    have hdeletes := s.deletes_dropRecords fun record => s.isTaskOf agentId record.taskId
    exact hs.cascade hr ⟨hdeletes.limit, hdeletes.active, hdeletes.records⟩ rfl fun _ => rfl
  | sessionDeleted sessionId =>
    cases h
    exact hs.cascade hr (s.deletes_dropRecords fun record => record.sessionId = some sessionId) rfl
      fun _ => rfl

theorem endsRecorded (hs : s.HoldersCounted) (hr : s.HoldersRecorded)
    (a : ScheduledRunsAction) : s.EndsRecorded a := by
  intro s' hstep run ended hend hholds
  cases a with
  | turnEnds k turnEnd =>
    obtain ⟨found, hfound, heq⟩ := Option.map_eq_some_iff.mp hend
    cases heq
    obtain ⟨hrun, hphase⟩ := Option.filter_eq_some_iff.mp hfound
    simp only [Bool.and_eq_true, decide_eq_true_eq, Bool.not_eq_true'] at hphase
    simp only [scheduledRunsStep, hrun, hphase.1, hphase.2] at hstep
    cases hstep
    exact hs.finish_status hr k ended hholds
  | lockFree k =>
    obtain ⟨found, hrun, hreleasing⟩ := Option.bind_eq_some_iff.mp hend
    split at hreleasing
    · rename_i turnEnd hphase
      split_ifs at hreleasing with hlock
      cases hreleasing
      simp only [scheduledRunsStep, hrun, hphase, hlock] at hstep
      cases hstep
      exact hs.finish_status hr k ended hholds
    · cases hreleasing
  | createTask | setEnabled | runTaskNow | executeTask | runStarts | sessionReady | shutdown
  | handleAgentDeleted | agentRowsDeleted | sessionDeleted => cases hend

theorem holders_fresh {maxRunRecords : Nat} (hmax : 1 ≤ maxRunRecords) :
    (fresh maxRunRecords).HoldersCounted ∧ (fresh maxRunRecords).HoldersRecorded :=
  ⟨⟨hmax, fun _ _ h => (nomatch h)⟩, fun _ _ h => (nomatch h)⟩

end ScheduledRuns

def oneSkip : List ScheduledRunsAction :=
  [.createTask 0 true, .executeTask 0, .runStarts 0, .executeTask 0,
    .turnEnds 0 (.returned "session")]

end WittyService
