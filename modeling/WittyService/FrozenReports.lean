import WittyService.BackportReports

/-! Which actions leave the report of a finished run alone. All but the preview look whether the
report is frozen only after they have run `cvekit`, and `apply_row` rewrites it before. -/
namespace WittyService

/-- The call of `cvekit` is not made, or it fails. -/
def CallEnvironment.fails (env : CallEnvironment) : Bool :=
  match env.workspace, env.tool with
  | none, .wrote _ _ _ _ => false
  | _, _ => true

namespace ReportStore

variable {β : Type} {s s' : ReportStore β} {yaml : ReportYaml β} {base : ReportPath}
  {working : Option ReportPath} {env : CallEnvironment} {row : Row}

structure KeepsFrozen (s : ReportStore β) (base : ReportPath) (served : Served β) : Prop where
  bytes : served.store.files base = s.files base
  refused : served.ended = .error .frozen → served.store.ranCvekit = false

/-- The action ends before it calls `cvekit`, or the call fails; an application in addition leaves
the bytes of the report, or overrides the settings of another one. -/
def Harmless (s : ReportStore β) (yaml : ReportYaml β) (base : ReportPath)
    (working : Option ReportPath) (env : CallEnvironment) : ReportAction → Prop
  | .applyRow row config => ∀ resolvedRow data commits,
    s.applyTarget yaml base working row = .ok resolvedRow →
      s.readReport yaml (s.applyConfigPath base working) = .ok (data, commits) →
        (s.applyConfigPath base working = base →
          s.files base = some (yaml.dump (overrideCommitMessageConfig config data) commits)) ∧
        (env.fails ∨ ∃ error, s.readReport yaml base = .error error)
  | .executeSelected selectedCommits => ∀ rows,
    s.executeTarget yaml base working selectedCommits = .ok rows → env.fails
  | .tryResolve row => ∀ resolvedRow rows, s.resolveTarget yaml base working row = .ok resolvedRow →
    s.executeTarget yaml base working [resolvedRow] = .ok rows → env.fails
  | .checkRow row => ∀ target, s.checkTarget yaml base working row = .ok target → env.fails
  | .recheckConflict row =>
    ∀ target, s.recheckTarget yaml base working row = .ok target → env.fails
  | .continueReport => ∀ target, s.continueTarget yaml base = .ok target → env.fails
  | .previewCommitMessage _ => True

theorem runCvekit_of_fails (h : env.fails = true)
    (next : ReportStore β → List Row → PyStr → PyStr → Except Failure Unit → Served β) :
    ∃ ranCvekit failure,
      s.runCvekit env next = stop { s with ranCvekit } (.error (.call failure)) := by
  unfold runCvekit
  split
  next failure _ => exact ⟨s.ranCvekit, failure, rfl⟩
  next hworkspace =>
    split
    next failure _ => exact ⟨true, failure, rfl⟩
    next rows status error archive htool =>
      rw [CallEnvironment.fails, hworkspace, htool] at h
      cases h

theorem runCvekit_of_wrote (h : env.fails = false)
    (next : ReportStore β → List Row → PyStr → PyStr → Except Failure Unit → Served β) :
    ∃ rows status error archive,
      s.runCvekit env next = next { s with ranCvekit := true } rows status error archive := by
  unfold runCvekit
  split
  next failure hworkspace =>
    rw [CallEnvironment.fails, hworkspace] at h
    cases h
  next hworkspace =>
    split
    next failure htool =>
      rw [CallEnvironment.fails, hworkspace, htool] at h
      cases h
    next rows status error archive htool => exact ⟨rows, status, error, archive, rfl⟩

theorem writeReport_of_frozen (h : s.isReportFrozen base) (data : Dict) (commits : List Row)
    (next : ReportStore β → Served β) :
    s.writeReport yaml base data commits next = s.stop (.error .frozen) := if_pos h

theorem keeps_stop (hfiles : s'.files base = s.files base) (hran : s'.ranCvekit = false)
    (ended : Except ReportError Result) : KeepsFrozen s base (s'.stop ended) :=
  ⟨hfiles, fun _ => hran⟩

theorem not_keeps_refused (hran : s'.ranCvekit = true) :
    ¬ KeepsFrozen s base (s'.stop (.error .frozen)) := by
  intro h
  have hran' := h.refused rfl
  rw [stop, hran] at hran'
  cases hran'

theorem keeps_runCvekit (hfiles : s'.files base = s.files base)
    {next : ReportStore β → List Row → PyStr → PyStr → Except Failure Unit → Served β}
    (hnext : ∀ rows status error archive, next { s' with ranCvekit := true } rows status error
      archive = stop { s' with ranCvekit := true } (.error .frozen)) :
    KeepsFrozen s base (s'.runCvekit env next) ↔ env.fails = true := by
  cases hfails : env.fails with
  | true =>
    obtain ⟨ranCvekit, failure, heq⟩ := runCvekit_of_fails (s := s') hfails next
    rw [heq]
    exact ⟨fun _ => rfl, fun _ => ⟨hfiles, nofun⟩⟩
  | false =>
    obtain ⟨rows, status, error, archive, heq⟩ := runCvekit_of_wrote (s := s') hfails next
    rw [heq, hnext]
    exact ⟨fun h => absurd h (not_keeps_refused rfl), nofun⟩

theorem keeps_check (hran : s.ranCvekit = false) (h : s.isReportFrozen base) (summary : String)
    (target : Except (Except ReportError Result) (Dict × List Row × Row)) :
    KeepsFrozen s base (s.check yaml base env summary target) ↔
      ∀ t, target = .ok t → env.fails = true := by
  unfold check
  split
  next ended => exact ⟨fun _ _ ht => (nomatch ht), fun _ => keeps_stop rfl hran ended⟩
  next data commits resolvedRow =>
    refine (keeps_runCvekit rfl fun rows _ _ archive => ?_).trans
      ⟨fun hfails _ _ => hfails, fun hfails => hfails _ rfl⟩
    exact writeReport_of_frozen (s := { s with ranCvekit := true }) h _ _ _

theorem keeps_continueReport (hran : s.ranCvekit = false) (h : s.isReportFrozen base) :
    KeepsFrozen s base (s.continueReport yaml base env) ↔
      ∀ target, s.continueTarget yaml base = .ok target → env.fails = true := by
  unfold continueReport
  split
  next ended htarget =>
    refine ⟨fun _ target ht => ?_, fun _ => keeps_stop rfl hran ended⟩
    rw [htarget] at ht
    cases ht
  next data index htarget =>
    refine (keeps_runCvekit rfl fun rows _ _ archive => ?_).trans
      ⟨fun hfails _ _ => hfails, fun hfails => hfails _ htarget⟩
    exact writeReport_of_frozen (s := { s with ranCvekit := true }) h _ _ _

variable {selectedCommits rows : List Row} {path : ReportPath}

theorem readReport_of_executeTarget
    (h : s.executeTarget yaml base working selectedCommits = .ok rows) :
    ∃ report, s.readReport yaml base = .ok report := by
  unfold executeTarget at h
  split at h
  · cases h
  next report hread => exact ⟨report, hread⟩

variable (env) in
theorem executeSelected_of_ok (h : s.isReportFrozen base)
    (htarget : s.executeTarget yaml base working selectedCommits = .ok rows) :
    (∃ ranCvekit failure, env.fails = true ∧
      s.executeSelected yaml base working selectedCommits env =
        stop { s with ranCvekit } (.error (.call failure))) ∨
    (env.fails = false ∧ s.executeSelected yaml base working selectedCommits env =
      stop { s with ranCvekit := true } (.error .frozen)) := by
  obtain ⟨⟨data, baseCommits⟩, hread⟩ := readReport_of_executeTarget htarget
  unfold executeSelected
  rw [htarget]
  cases hfails : env.fails with
  | true =>
    obtain ⟨ranCvekit, failure, heq⟩ := runCvekit_of_fails (s := s) hfails _
    exact .inl ⟨ranCvekit, failure, rfl, heq⟩
  | false =>
    obtain ⟨rows, status, error, archive, heq⟩ := runCvekit_of_wrote (s := s) hfails _
    refine .inr ⟨rfl, heq.trans ?_⟩
    have hread' : readReport { s with ranCvekit := true } yaml base = .ok (data, baseCommits) :=
      hread
    rw [hread']
    exact writeReport_of_frozen (s := { s with ranCvekit := true }) h _ _ _

theorem executeSelected_of_error {ended : Except ReportError Result}
    (htarget : s.executeTarget yaml base working selectedCommits = .error ended) :
    s.executeSelected yaml base working selectedCommits env = s.stop ended := by
  unfold executeSelected
  rw [htarget]

theorem keeps_executeSelected (hran : s.ranCvekit = false) (h : s.isReportFrozen base)
    (selectedCommits : List Row) :
    KeepsFrozen s base (s.executeSelected yaml base working selectedCommits env) ↔
      ∀ rows, s.executeTarget yaml base working selectedCommits = .ok rows → env.fails = true := by
  cases htarget : s.executeTarget yaml base working selectedCommits with
  | error ended =>
    rw [executeSelected_of_error htarget]
    exact ⟨fun _ _ ht => (nomatch ht), fun _ => keeps_stop rfl hran ended⟩
  | ok rows =>
    obtain ⟨ranCvekit, failure, hfails, heq⟩ | ⟨hfails, heq⟩ :=
      executeSelected_of_ok env h htarget <;> rw [heq]
    · exact ⟨fun _ _ _ => hfails, fun _ => ⟨rfl, nofun⟩⟩
    · refine ⟨fun hkeeps => absurd hkeeps (not_keeps_refused rfl), fun hall => ?_⟩
      rw [hall rows rfl] at hfails
      cases hfails

theorem keeps_tryResolve (hran : s.ranCvekit = false) (h : s.isReportFrozen base) (row : Row) :
    KeepsFrozen s base (s.tryResolve yaml base working row env) ↔
      ∀ resolvedRow rows, s.resolveTarget yaml base working row = .ok resolvedRow →
        s.executeTarget yaml base working [resolvedRow] = .ok rows → env.fails = true := by
  unfold tryResolve
  split
  next ended htarget =>
    refine ⟨fun _ _ _ ht => ?_, fun _ => keeps_stop rfl hran ended⟩
    rw [htarget] at ht
    cases ht
  next resolvedRow htarget =>
    rw [htarget]
    cases hexecute : s.executeTarget yaml base working [resolvedRow] with
    | error ended =>
      -- whatever is written then is refused without a call of the tool
      rw [executeSelected_of_error hexecute]
      refine ⟨fun _ r rows hr hrows => ?_, fun _ => ?_⟩
      · cases hr
        rw [hexecute] at hrows
        cases hrows
      · dsimp only [stop]
        split
        · exact keeps_stop rfl hran _
        · split_ifs
          · exact keeps_stop rfl hran _
          · split
            · exact keeps_stop rfl hran _
            · rw [writeReport_of_frozen h]
              exact keeps_stop rfl hran _
    | ok rows =>
      obtain ⟨ranCvekit, failure, hfails, heq⟩ | ⟨hfails, heq⟩ :=
        executeSelected_of_ok env h hexecute <;> rw [heq]
      · exact ⟨fun _ _ _ _ _ => hfails, fun _ => ⟨rfl, nofun⟩⟩
      · refine ⟨fun hkeeps => absurd hkeeps (not_keeps_refused rfl), fun hall => ?_⟩
        rw [hall resolvedRow rows rfl hexecute] at hfails
        cases hfails

theorem keeps_previewCommitMessage (hran : s.ranCvekit = false) (row : Row) :
    KeepsFrozen s base (s.previewCommitMessage yaml base working row env) := by
  unfold previewCommitMessage
  split_ifs
  · exact keeps_stop rfl hran _
  · split
    · exact keeps_stop rfl hran _
    · exact keeps_stop rfl hran _
    next resolvedRow _ _ =>
      split_ifs
      · exact keeps_stop rfl hran _
      · cases hfails : env.fails with
        | true =>
          obtain ⟨ranCvekit, failure, heq⟩ := runCvekit_of_fails (s := s) hfails _
          rw [heq]
          exact ⟨rfl, nofun⟩
        | false =>
          obtain ⟨rows, status, error, archive, heq⟩ := runCvekit_of_wrote (s := s) hfails _
          rw [heq]
          split_ifs <;> exact ⟨rfl, nofun⟩

theorem readReport_ne_frozen {error : ReportError}
    (h : s.readReport yaml path = .error error) : error ≠ .frozen := by
  unfold readReport at h
  split at h
  · cases h
    exact nofun
  · split at h <;> cases h
    exact nofun

theorem files_write_iff (s : ReportStore β) (base path : ReportPath) (bytes : β) :
    (s.write path bytes).files base = s.files base ↔ (path = base → s.files base = some bytes) := by
  unfold write
  dsimp only
  by_cases hpath : path = base
  · rw [hpath, Function.update_self]
    exact ⟨fun heq _ => heq.symm, fun heq => (heq rfl).symm⟩
  · rw [Function.update_of_ne (Ne.symm hpath)]
    exact ⟨fun _ heq => absurd heq hpath, fun _ => rfl⟩

variable (base) in
theorem readReport_write {report : Dict × List Row}
    (hread : s.readReport yaml path = .ok report) (data : Dict) (commits : List Row) :
    (∃ error, (s.write path (yaml.dump data commits)).readReport yaml base = .error error) ↔
      ∃ error, s.readReport yaml base = .error error := by
  by_cases hpath : path = base
  · subst hpath
    obtain ⟨data', hload⟩ := yaml.load_dump data commits
    have hwritten : (s.write path (yaml.dump data commits)).readReport yaml path =
        .ok (data', commits) := by
      unfold readReport write
      dsimp only
      rw [Function.update_self]
      dsimp only
      rw [hload]
    rw [hwritten, hread]
    exact ⟨fun ⟨_, h⟩ => (nomatch h), fun ⟨_, h⟩ => (nomatch h)⟩
  · have hsame : (s.write path (yaml.dump data commits)).readReport yaml base =
        s.readReport yaml base := by
      unfold readReport write
      dsimp only
      rw [Function.update_of_ne (Ne.symm hpath)]
    rw [hsame]

theorem keeps_applyRow (hran : s.ranCvekit = false) (h : s.isReportFrozen base) (row : Row)
    (config : CommitMessageConfig) :
    KeepsFrozen s base (s.applyRow yaml base working row config env) ↔
      s.Harmless yaml base working env (.applyRow row config) := by
  unfold applyRow
  split
  next ended htarget =>
    refine ⟨fun _ _ _ _ ht => ?_, fun _ => keeps_stop rfl hran ended⟩
    rw [htarget] at ht
    cases ht
  next resolvedRow htarget =>
    dsimp only
    split
    next error hread =>
      refine ⟨fun _ _ _ _ _ hr => ?_, fun _ => keeps_stop rfl hran _⟩
      rw [hread] at hr
      cases hr
    next data commits hread =>
      have hbytes := s.files_write_iff base (s.applyConfigPath base working)
        (yaml.dump (overrideCommitMessageConfig config data) commits)
      have hreadable := readReport_write base hread (overrideCommitMessageConfig config data)
        commits
      have hharmless : s.Harmless yaml base working env (.applyRow row config) ↔
          (s.applyConfigPath base working = base → s.files base =
              some (yaml.dump (overrideCommitMessageConfig config data) commits)) ∧
            (env.fails = true ∨ ∃ error, s.readReport yaml base = .error error) := by
        refine ⟨fun h => h resolvedRow data commits htarget hread, fun h r d c hr hd => ?_⟩
        rw [hread] at hd
        cases hd
        exact h
      rw [hharmless, ← hbytes, ← hreadable]
      cases hfails : env.fails with
      | true =>
        obtain ⟨ranCvekit, failure, heq⟩ := runCvekit_of_fails (s := s.write _ _) hfails _
        rw [heq]
        exact ⟨fun hkeeps => ⟨hkeeps.bytes, .inl rfl⟩, fun h => ⟨h.1, nofun⟩⟩
      | false =>
        obtain ⟨rows, status, error, archive, heq⟩ :=
          runCvekit_of_wrote (s := s.write _ _) hfails _
        rw [heq]
        split
        next error hread' =>
          refine ⟨fun hkeeps => ⟨hkeeps.bytes, .inr ⟨error, hread'⟩⟩, fun h => ⟨h.1, fun heq => ?_⟩⟩
          exact absurd (Except.error.inj heq) (readReport_ne_frozen hread')
        next data' baseCommits hread' =>
          rw [writeReport_of_frozen (s := { s.write _ _ with ranCvekit := true }) h]
          refine ⟨fun hkeeps => absurd hkeeps (not_keeps_refused rfl), fun h => ?_⟩
          obtain hfails | ⟨error, herror⟩ := h.2
          · cases hfails
          · cases hread'.symm.trans herror

def plainYaml : ReportYaml (Dict × List Row) where
  load := some
  dump := Prod.mk
  load_dump data _ := ⟨data, rfl⟩

def finishedStore : ReportStore (Dict × List Row) where
  tasks _ := { runs := fun _ => some { status := .completed } }
  files _ := some ([], [{ name := { commit := "c".toList } }])

end ReportStore

end WittyService
