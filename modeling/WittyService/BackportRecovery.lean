import WittyService.BackportRuns

/-! A run that a worker executes is never declared interrupted, as long as no request finds it
running after it has looked for the active runs, and no run is started while a request is declaring
the last one interrupted. -/
namespace WittyService

open GuardedRuns

namespace BackportRuns

variable {ι : Type} {s s' : BackportRuns ι} {x y : ι} {i : Nat}
  {request : RecoveryRequest ι} {stage : RecoveryStage ι}

/-- What is asked of a step: while a worker executes a run, nothing turns the task or a run of
it interrupted, and a request leaves the progress in the files as it is. -/
structure Spares (s : BackportRuns ι) (a : BackportRunsAction ι) (s' : BackportRuns ι) : Prop where
  run : ∀ x number, s.executing x → ((s'.files x).runs number).map RunFile.status =
    some .interrupted → ((s.files x).runs number).map RunFile.status = some .interrupted
  manifest : ∀ x, s.executing x → (s'.files x).manifest.map Manifest.status = some .interrupted →
    (s.files x).manifest.map Manifest.status = some .interrupted
  progress : a.isRequest → ∀ x number,
    ((s'.files x).runs number).map RunFile.run = ((s.files x).runs number).map RunFile.run

/-- A request at a stage where it declares a run interrupted has the progress of the run, and no
worker executes it. -/
structure Harmless (s : BackportRuns ι) (stage : RecoveryStage ι) : Prop where
  known : ∀ x, stage.task = some x → (s.files x).manifest.isSome
  unexecuted : ∀ x, stage.recovering = some x → s.executing x = false
  read : ∀ x number file, stage = .runRead x number file →
    ((s.files x).runs number).map RunFile.run = some file.run

def Undisturbed (s : BackportRuns ι) : Prop := ∀ request ∈ s.requests, s.Harmless request.stage

theorem task_of_recovering (h : stage.recovering = some x) : stage.task = some x := by
  cases stage <;> first | exact h | cases h

variable {record : BackportRecord} {a : BackportRunsAction ι} {files : TaskFiles} {number : Nat}
  {file : RunFile}

theorem executing_of_runningRecord
    (h : s.runningRecord x = some record) : s.executing x = true := by
  obtain ⟨hrecord, hrunning⟩ := Option.filter_eq_some_iff.mp h
  rw [executing, hrecord]
  exact hrunning

theorem harmless_idle : s.Harmless .idle := ⟨nofun, nofun, nofun⟩

theorem harmless_of_task (h : s.Harmless stage) (hother : stage.recovering ≠ some x)
    (hfiles : ∀ y, y ≠ x → s'.files y = s.files y)
    (hexecuting : ∀ y, y ≠ x → s'.executing y = s.executing y)
    (hmanifest : (s.files x).manifest.isSome → (s'.files x).manifest.isSome) :
    s'.Harmless stage := by
  refine ⟨fun y hy => ?_, fun y hy => ?_, fun y number file hy => ?_⟩
  · by_cases hxy : y = x
    · subst hxy
      exact hmanifest (h.known y hy)
    · rw [hfiles y hxy]
      exact h.known y hy
  · have hxy : y ≠ x := fun heq => hother (heq ▸ hy)
    rw [hexecuting y hxy]
    exact h.unexecuted y hy
  · have hxy : y ≠ x := fun heq => hother (by rw [hy, heq]; rfl)
    rw [hfiles y hxy]
    exact h.read y number file hy

theorem harmless_of_progress (h : s.Harmless stage) (hprogress : ∀ y number,
      ((s'.files y).runs number).map RunFile.run = ((s.files y).runs number).map RunFile.run)
    (hmanifest : ∀ y, (s.files y).manifest.isSome → (s'.files y).manifest.isSome)
    (hexecuting : ∀ y, s'.executing y = s.executing y) : s'.Harmless stage :=
  ⟨fun y hy => hmanifest y (h.known y hy),
    fun y hy => (hexecuting y).trans (h.unexecuted y hy),
    fun y number file hy => (hprogress y number).trans (h.read y number file hy)⟩

theorem spares_of_files (h : s'.files = s.files) : s.Spares a s' := by
  refine ⟨fun x number _ hrun => ?_, fun x _ hmanifest => ?_, fun _ x number => ?_⟩
  · rwa [h] at hrun
  · rwa [h] at hmanifest
  · rw [h]

theorem mem_setStage {request' : RecoveryRequest ι}
    (h : request' ∈ (s.setStage i request stage).requests) :
    request' ∈ s.requests ∨ request'.stage = stage := by
  obtain h | rfl := List.mem_or_eq_of_mem_set h
  · exact .inl h
  · exact .inr rfl

theorem undisturbed_setStage (hs : s.Undisturbed) (hstage : s.Harmless stage)
    (hrequests : s'.requests = (s.setStage i request stage).requests)
    (hprogress : ∀ y number,
      ((s'.files y).runs number).map RunFile.run = ((s.files y).runs number).map RunFile.run)
    (hmanifest : ∀ y, (s.files y).manifest.isSome → (s'.files y).manifest.isSome)
    (hexecuting : ∀ y, s'.executing y = s.executing y) : s'.Undisturbed := by
  intro request' hmem
  rw [hrequests] at hmem
  refine harmless_of_progress ?_ hprogress hmanifest hexecuting
  obtain hmem | heq := mem_setStage hmem
  · exact hs request' hmem
  · exact heq ▸ hstage

theorem undisturbed_append (hs : s.Undisturbed) (hidle : request.stage = .idle) (hasStore : Bool) :
    Undisturbed { s with hasStore, requests := s.requests ++ [request] } := by
  intro request' hmem
  refine harmless_of_progress (s := s) ?_ (fun _ _ => rfl) (fun _ h => h) fun _ => rfl
  obtain hmem | hmem := List.mem_append.mp hmem
  · exact hs request' hmem
  · rw [List.mem_singleton.mp hmem, hidle]
    exact harmless_idle

theorem not_recovering (hs : s.Undisturbed) (hx : s.executing x = true) :
    ∀ request ∈ s.requests, request.stage.recovering ≠ some x := by
  intro request hmem heq
  rw [(hs request hmem).unexecuted x heq] at hx
  cases hx

theorem progress_writeRun (h : (files.runs number).map RunFile.run = some file.run) (n : Nat) :
    ((files.writeRun number file).runs n).map RunFile.run = (files.runs n).map RunFile.run := by
  unfold TaskFiles.writeRun
  dsimp only
  by_cases hn : n = number
  · rw [hn, Function.update_self, h]
    rfl
  · rw [Function.update_of_ne hn]

theorem runs_of_staleRun {active : Bool}
    (h : files.staleRun number active = some file) : files.runs number = some file := by
  obtain ⟨hread, -⟩ := Option.filter_eq_some_iff.mp h
  unfold TaskFiles.readRun at hread
  split at hread
  · cases hread
  · exact hread

section

variable (files : TaskFiles)

variable (active : Bool) (progress : Progress)

theorem progress_recover (n : Nat) :
    ((files.recover active).runs n).map RunFile.run = (files.runs n).map RunFile.run := by
  unfold TaskFiles.recover
  split
  next number file h =>
    obtain ⟨manifest, -, h⟩ := Option.bind_eq_some_iff.mp h
    obtain ⟨file, hstale, heq⟩ := Option.map_eq_some_iff.mp h
    cases heq
    exact progress_writeRun (by rw [runs_of_staleRun hstale]; rfl) n
  · rfl

theorem manifest_recover (h : files.manifest.isSome) : (files.recover active).manifest.isSome := by
  unfold TaskFiles.recover
  split
  · rfl
  · exact h

theorem manifest_recordProgress : (files.recordProgress progress).manifest = files.manifest := by
  unfold TaskFiles.recordProgress
  split <;> rfl

theorem status_recordProgress (n : Nat) :
    ((files.recordProgress progress).runs n).map RunFile.status =
      (files.runs n).map RunFile.status := by
  unfold TaskFiles.recordProgress
  split
  next number file h =>
    obtain ⟨manifest, -, h⟩ := Option.bind_eq_some_iff.mp h
    obtain ⟨file, hread, heq⟩ := Option.map_eq_some_iff.mp h
    cases heq
    unfold TaskFiles.readRun at hread
    split at hread
    · cases hread
    · unfold TaskFiles.writeRun
      dsimp only
      by_cases hn : n = manifest.currentRun
      · rw [hn, Function.update_self, hread]
        rfl
      · rw [Function.update_of_ne hn]
  · rfl

theorem manifest_finishRun (status : BackportStatus)
    (summary : Option RunSummary) : (files.finishRun status summary).manifest = files.manifest := by
  unfold TaskFiles.finishRun
  split
  · split <;> rfl
  · rfl

end

theorem status_finishRun {status : BackportStatus}
    {summary : Option RunSummary} (hstatus : status ≠ .interrupted) {n : Nat}
    (h : ((files.finishRun status summary).runs n).map RunFile.status = some .interrupted) :
    (files.runs n).map RunFile.status = some .interrupted := by
  unfold TaskFiles.finishRun at h
  split at h
  next manifest _ =>
    split at h
    · exact h
    · unfold TaskFiles.writeRun at h
      dsimp only at h
      by_cases hn : n = manifest.currentRun
      · rw [hn, Function.update_self] at h
        exact absurd (Option.some.inj h) hstatus
      · rwa [Function.update_of_ne hn] at h
  · exact h

theorem harmless_stageOfRun (hs : s.Undisturbed) (hmem : request ∈ s.requests)
    (h : s.stageOfRun request = some stage)
    (hg : ∀ x ∈ stage.recovering, s.executing x = false) : s.Harmless stage := by
  have hknown := (hs request hmem).known
  unfold stageOfRun at h
  split at h
  next x number hstage =>
    split at h
    next file hstale =>
      cases h
      refine ⟨fun y hy => ?_, fun y hy => hg y hy, fun y n file' heq => ?_⟩
      · cases hy
        exact hknown x (by rw [hstage]; rfl)
      · cases heq
        rw [runs_of_staleRun hstale]
        rfl
    · cases h
      exact harmless_idle
  · cases h

theorem archiveStatus_ne (record : BackportRecord) (outcome : RunOutcome) :
    record.archiveStatus outcome ≠ .interrupted := by
  unfold BackportRecord.archiveStatus
  cases outcome with
  | paused => exact nofun
  | finished | operationFailed | raised =>
    split_ifs <;> exact nofun

variable [DecidableEq ι]

/-- The condition on a step: a request reads a run as one to declare interrupted only when no worker
executes it, and a run is created only when no request is declaring one of the task interrupted. -/
def InTime (s : BackportRuns ι) : BackportRunsAction ι → Prop
  | .readRun i => ∀ request ∈ s.requests[i]?, ∀ stage ∈ s.stageOfRun request,
    ∀ x ∈ stage.recovering, s.executing x = false
  | .createRun x _ => ∀ request ∈ s.requests, request.stage.recovering ≠ some x
  | _ => True

instance (s : BackportRuns ι) (a : BackportRunsAction ι) : Decidable (s.InTime a) := by
  cases a <;> unfold InTime <;> infer_instance

theorem undisturbed_section (hs : s.Undisturbed)
    (hother : ∀ request ∈ s.requests, request.stage.recovering ≠ some x) (files : TaskFiles)
    (record : BackportRecord) (hmanifest : (s.files x).manifest.isSome → files.manifest.isSome) :
    ((s.setFiles x files).setRecord x record).Undisturbed := by
  refine fun request hmem => harmless_of_task (hs request hmem) (hother request hmem)
    (fun y hy => ?_) (fun y hy => ?_) fun h => ?_
  · exact Function.update_of_ne hy _ _
  · exact congrArg (Option.any _) (Function.update_of_ne hy _ _)
  · change ((Function.update s.files x files) x).manifest.isSome = true
    rw [Function.update_self]
    exact hmanifest h

theorem spares_section (ha : a.isRequest = false)
    (hrun : ∀ number, s.executing x → (files.runs number).map RunFile.status = some .interrupted →
      ((s.files x).runs number).map RunFile.status = some .interrupted)
    (hmanifest : s.executing x → files.manifest.map Manifest.status = some .interrupted →
      (s.files x).manifest.map Manifest.status = some .interrupted) :
    s.Spares a ((s.setFiles x files).setRecord x record) := by
  refine ⟨fun y number hexecuting h => ?_, fun y hexecuting h => ?_, fun h => ?_⟩
  · change ((Function.update s.files x files y).runs number).map RunFile.status = _ at h
    by_cases hxy : y = x
    · subst hxy
      rw [Function.update_self] at h
      exact hrun number hexecuting h
    · rwa [Function.update_of_ne hxy] at h
  · change (Function.update s.files x files y).manifest.map Manifest.status = _ at h
    by_cases hxy : y = x
    · subst hxy
      rw [Function.update_self] at h
      exact hmanifest hexecuting h
    · rwa [Function.update_of_ne hxy] at h
  · rw [ha] at h
    cases h

theorem spares_request (hunexecuted : s.executing x = false) (hprogress : ∀ number,
      (files.runs number).map RunFile.run = ((s.files x).runs number).map RunFile.run)
    (hfiles : s'.files = Function.update s.files x files) : s.Spares a s' := by
  have hother {y : ι} (hexecuting : s.executing y = true) : s'.files y = s.files y := by
    have hxy : y ≠ x := by
      rintro rfl
      rw [hunexecuted] at hexecuting
      cases hexecuting
    rw [hfiles, Function.update_of_ne hxy]
  refine ⟨fun y number hexecuting h => ?_, fun y hexecuting h => ?_, fun _ y number => ?_⟩
  · rwa [hother hexecuting] at h
  · rwa [hother hexecuting] at h
  · rw [hfiles]
    by_cases hxy : y = x
    · rw [hxy, Function.update_self]
      exact hprogress number
    · rw [Function.update_of_ne hxy]

theorem manifest_setStatus (files : TaskFiles) (status : BackportStatus) :
    (files.setStatus status).manifest.map Manifest.status = some status := rfl

theorem progress_setFiles
    (h : ∀ number, (files.runs number).map RunFile.run = ((s.files x).runs number).map RunFile.run)
    (y : ι) (number : Nat) :
    (((s.setFiles x files).files y).runs number).map RunFile.run =
      ((s.files y).runs number).map RunFile.run := by
  unfold setFiles
  dsimp only
  by_cases hxy : y = x
  · rw [hxy, Function.update_self, h]
  · rw [Function.update_of_ne hxy]

theorem manifest_setFiles (h : (s.files x).manifest.isSome → files.manifest.isSome) (y : ι)
    (hy : (s.files y).manifest.isSome) : ((s.setFiles x files).files y).manifest.isSome := by
  unfold setFiles
  dsimp only
  by_cases hxy : y = x
  · subst hxy
    rw [Function.update_self]
    exact h hy
  · rwa [Function.update_of_ne hxy]

section

variable (hs : s.Undisturbed)
include hs

theorem createRun_step {report : Option (List Row)}
    (hg : ∀ request ∈ s.requests, request.stage.recovering ≠ some x) :
    (s.createRun x report).Undisturbed ∧
      s.Spares (.createRun x report) (s.createRun x report) := by
  unfold createRun
  split
  · exact ⟨hs, spares_of_files rfl⟩
  next hexecuting =>
    split
    next files hcreate =>
      obtain ⟨manifest, -, hnext⟩ := Option.bind_eq_some_iff.mp hcreate
      obtain ⟨next, -, rfl⟩ := Option.map_eq_some_iff.mp hnext
      exact ⟨undisturbed_section hs hg _ _ fun _ => rfl,
        spares_section rfl (fun _ h => absurd h hexecuting) fun h => absurd h hexecuting⟩
    · exact ⟨hs, spares_of_files rfl⟩

theorem pauseRun_step :
    (s.pauseRun x).Undisturbed ∧ s.Spares (.pauseRun x) (s.pauseRun x) := by
  unfold pauseRun
  split
  next hrecord =>
    have hunexecuted : s.executing x = false := by
      rw [executing, hrecord]
      rfl
    refine ⟨fun request hmem => ?_, spares_request hunexecuted (progress_recover _ _) rfl⟩
    exact harmless_of_progress (hs request hmem) (progress_setFiles (progress_recover _ _))
      (manifest_setFiles (manifest_recover _ _)) fun _ => rfl
  next record hrecord =>
    split
    next hrunning =>
      refine ⟨fun request hmem => ?_, spares_of_files rfl⟩
      refine harmless_of_progress (hs request hmem) (fun _ _ => rfl) (fun _ h => h) fun y => ?_
      unfold executing setRecord
      dsimp only
      by_cases hxy : y = x
      · rw [hxy, Function.update_self, hrecord]
        rfl
      · rw [Function.update_of_ne hxy]
    · exact ⟨hs, spares_of_files rfl⟩

variable {record : BackportRecord}

theorem workerEnds_step {outcome : RunOutcome} (hx : s.executing x = true) :
    (s.workerEnds x record outcome).Undisturbed ∧
      s.Spares (.workerEnds x outcome) (s.workerEnds x record outcome) := by
  have hstatus := archiveStatus_ne record outcome
  refine ⟨undisturbed_section hs (not_recovering hs hx) _ _ fun _ => ?_,
    spares_section rfl (fun number _ h => ?_) fun _ h => ?_⟩
  · rw [manifest_finishRun]
    rfl
  · have h' := status_finishRun hstatus h
    exact h'
  · rw [manifest_finishRun, manifest_setStatus] at h
    exact absurd (Option.some.inj h) hstatus

theorem updateProgress_step {progress : Progress} (hx : s.executing x = true) :
    let s' := (s.setFiles x ((s.files x).recordProgress progress)).setRecord x
      { record with progress := some progress }
    s'.Undisturbed ∧ s.Spares (.updateProgress x progress) s' := by
  refine ⟨undisturbed_section hs (not_recovering hs hx) _ _ fun h => ?_,
    spares_section rfl (fun number _ h => ?_) fun _ h => ?_⟩
  · rwa [manifest_recordProgress]
  · rwa [status_recordProgress] at h
  · rwa [manifest_recordProgress] at h

theorem generateReport_step (hx : (s.files x).manifest = none) :
    let s' := (s.setFiles x
      { (s.files x) with manifest := some { status := .generating } }).setRecord x
        { action := .generateReport }
    s'.Undisturbed ∧ s.Spares (.generateReport x) s' := by
  refine ⟨undisturbed_section hs (fun request hmem heq => ?_) _ _ fun _ => rfl,
    spares_section rfl (fun _ _ h => h) fun _ h => nomatch h⟩
  have hknown := (hs request hmem).known x (task_of_recovering heq)
  rw [hx] at hknown
  cases hknown

theorem writeRun_step (hget : s.requests[i]? = some request) {number : Nat}
    {file : RunFile} (hstage : request.stage = .runRead x number file) :
    let s' := (s.setFiles x ((s.files x).writeRun number file.interrupt)).setStage i request
      (.runWritten x)
    s'.Undisturbed ∧ s.Spares (.writeRun i) s' := by
  have hmem := List.mem_of_getElem? hget
  have hharmless := hs request hmem
  have hunexecuted : s.executing x = false := hharmless.unexecuted x (by rw [hstage]; rfl)
  have hprogress (n : Nat) :
      (((s.files x).writeRun number file.interrupt).runs n).map RunFile.run =
        ((s.files x).runs n).map RunFile.run := by
    refine progress_writeRun ?_ n
    exact hharmless.read x number file hstage
  have hstage' : s.Harmless (.runWritten x) :=
    ⟨fun y hy => hharmless.known y (by rw [hstage]; exact hy),
      fun y hy => hharmless.unexecuted y (by rw [hstage]; exact hy), nofun⟩
  exact ⟨undisturbed_setStage hs hstage' rfl (progress_setFiles hprogress)
    (manifest_setFiles fun h => h) fun _ => rfl, spares_request hunexecuted hprogress rfl⟩

theorem writeManifest_step (hget : s.requests[i]? = some request)
    (hstage : request.stage = .runWritten x) :
    let s' := (s.setFiles x ((s.files x).setStatus .interrupted)).setStage i request .idle
    s'.Undisturbed ∧ s.Spares (.writeManifest i) s' := by
  have hharmless := hs request (List.mem_of_getElem? hget)
  have hunexecuted : s.executing x = false := hharmless.unexecuted x (by rw [hstage]; rfl)
  have hprogress (number : Nat) :
      (((s.files x).setStatus .interrupted).runs number).map RunFile.run =
        ((s.files x).runs number).map RunFile.run := rfl
  exact ⟨undisturbed_setStage hs harmless_idle rfl (progress_setFiles hprogress)
    (manifest_setFiles fun _ => rfl) fun _ => rfl, spares_request hunexecuted hprogress rfl⟩

end

theorem undisturbed_step (hs : s.Undisturbed) (hg : s.InTime a)
    (h : s.step a = some s') : s'.Undisturbed ∧ s.Spares a s' := by
  cases a with
  | ensureStore =>
    obtain ⟨-, h⟩ := Option.ite_none_left_eq_some.mp h
    cases h
    exact ⟨undisturbed_append hs rfl true, spares_of_files rfl⟩
  | createRun x report =>
    obtain ⟨-, h⟩ := Option.ite_none_right_eq_some.mp h
    cases h
    exact createRun_step hs hg
  | generateReport x =>
    obtain ⟨⟨-, hx⟩, h⟩ := Option.ite_none_right_eq_some.mp h
    cases h
    exact generateReport_step hs hx
  | updateProgress x progress =>
    obtain ⟨record, hrecord, rfl⟩ := Option.map_eq_some_iff.mp h
    exact updateProgress_step hs (executing_of_runningRecord hrecord)
  | workerEnds x outcome =>
    obtain ⟨record, hrecord, rfl⟩ := Option.map_eq_some_iff.mp h
    exact workerEnds_step hs (executing_of_runningRecord hrecord)
  | listRuns | getRun x =>
    obtain ⟨-, h⟩ := Option.ite_none_right_eq_some.mp h
    cases h
    exact ⟨undisturbed_append hs rfl s.hasStore, spares_of_files rfl⟩
  | pauseRun x =>
    obtain ⟨-, h⟩ := Option.ite_none_right_eq_some.mp h
    cases h
    exact pauseRun_step hs
  | readManifest i x =>
    obtain ⟨request, hget, h⟩ := Option.bind_eq_some_iff.mp h
    obtain ⟨-, h⟩ := Option.ite_none_right_eq_some.mp h
    obtain ⟨manifest, hmanifest, rfl⟩ := Option.map_eq_some_iff.mp h
    have hstage : s.Harmless (.manifestRead x manifest.currentRun) := by
      refine ⟨fun y hy => ?_, nofun, nofun⟩
      cases hy
      rw [hmanifest]
      rfl
    exact ⟨undisturbed_setStage hs hstage rfl (fun _ _ => rfl) (fun _ h => h) fun _ => rfl,
      spares_of_files rfl⟩
  | readRun i =>
    obtain ⟨request, hget, h⟩ := Option.bind_eq_some_iff.mp h
    obtain ⟨stage, hstage, rfl⟩ := Option.map_eq_some_iff.mp h
    have hharmless := harmless_stageOfRun hs (List.mem_of_getElem? hget) hstage
      (hg request hget stage hstage)
    exact ⟨undisturbed_setStage hs hharmless rfl (fun _ _ => rfl) (fun _ h => h) fun _ => rfl,
      spares_of_files rfl⟩
  | writeRun i =>
    obtain ⟨request, hget, h⟩ := Option.bind_eq_some_iff.mp h
    split at h
    next x number file hstage =>
      cases h
      exact writeRun_step hs hget hstage
    · cases h
  | writeManifest i =>
    obtain ⟨request, hget, h⟩ := Option.bind_eq_some_iff.mp h
    split at h
    next x hstage =>
      cases h
      exact writeManifest_step hs hget hstage
    · cases h

/-- As long as the requests are in time, whatever the files of the tasks when the service starts,
every step spares the runs its workers execute. -/
theorem runs_spared_of_inTime {files : ι → TaskFiles} {as : List (BackportRunsAction ι)}
    (h : Guarded step InTime { files } as) :
    Guarded step (fun s a => ∀ s', s.step a = some s' → s.Spares a s') { files } as := by
  refine guarded_steps (J := Undisturbed) ?_ (fun request hmem => nomatch hmem) h
  exact fun s a s' hs hg hstep => undisturbed_step hs hg hstep

def readyFiles : Nat → TaskFiles := fun _ => { manifest := some { status := .ready } }

/-- A run is created before the runs are listed. -/
theorem runs_spared_of_listed : Guarded step (fun s a => ∀ s', s.step a = some s' → s.Spares a s')
    { files := readyFiles } [.ensureStore, .createRun 0 (some []), .listRuns, .readManifest 1 0,
      .readRun 1, .workerEnds 0 .paused, .getRun 1] :=
  runs_spared_of_inTime (by decide +kernel)

/-- A run is created after `list_runs` has looked for the active ones. -/
theorem executed_run_interrupted :
    ¬ ∀ (files : Nat → TaskFiles) (as : List (BackportRunsAction Nat)), Guarded step
      (fun s a => ∀ s', s.step a = some s' → s.Spares a s') { files } as := by
  intro h
  let before : List (BackportRunsAction Nat) := [.ensureStore, .listRuns, .createRun 0 (some []),
    .readManifest 1 0, .readRun 1]
  obtain ⟨s, hs⟩ : ∃ s, run step { files := readyFiles } before = some s :=
    Option.isSome_iff_exists.mp (by decide +kernel)
  have hsteps := guarded_of_append hs (h readyFiles (before ++ [.writeRun 1]))
  cases hs
  obtain ⟨hspared, -⟩ := hsteps _ rfl
  have hrun := (hspared _ rfl).run 0 1 rfl rfl
  cases hrun

end BackportRuns

end WittyService
