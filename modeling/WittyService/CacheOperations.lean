import WittyService.RepoCache

/-! What one operation of a cache thread does to its directory, and what it comes to next. -/
namespace WittyService

namespace CacheTask

def sources (t : CacheTask) : List Source :=
  match t.kind with
  | .prewarmSkillRepos rest => t.source :: rest
  | _ => [t.source]

def active (t : CacheTask) : Prop := ∀ returned, t.stage ≠ .finished returned

/-- The next operation clones into the directory, resets it or deletes it. -/
def Working (t : CacheTask) : Prop := t.stage ∈ [.rmtree, .clone, .stash, .reset, .pull]

def critical (t : CacheTask) : Bool :=
  match t.stage with
  | .lockFor | .acquire | .readGit | .readHead | .finished _ => false
  | _ => true

variable {t : CacheTask}

theorem Working.critical (h : t.Working) : t.critical = true := by
  simp only [Working, List.mem_cons, List.not_mem_nil, or_false] at h
  unfold CacheTask.critical
  rcases h with h | h | h | h | h <;> rw [h]

theorem active_of_critical (h : t.critical = true) : t.active := by
  intro returned hstage
  rw [critical, hstage] at h
  cases h

theorem source_mem_sources (t : CacheTask) : t.source ∈ t.sources := by
  unfold sources
  split <;> exact List.mem_cons_self

def onDisk (t : CacheTask) : Bool :=
  match t.stage with
  | .lockFor | .acquire | .release _ | .finished _ => false
  | _ => true

theorem isRepo_updated (t : CacheTask) (dir : Option Directory) :
    isRepo (t.updated dir) = isRepo dir := by
  unfold updated
  split
  · rfl
  · rfl

section

variable {t : CacheTask} {outcome : GitOutcome} {dir dir' : Option Directory} {stage : Stage}

theorem fileStep_dir (t : CacheTask) (outcome : GitOutcome) (dir : Option Directory) :
    (t.fileStep outcome dir).1 = dir ∨
      t.stage = .rmtree ∧ (t.fileStep outcome dir).1 = none ∨
      t.stage = .clone ∧ ((t.fileStep outcome dir).1 = some (.repo (some t.source)) ∨
        isRepo (t.fileStep outcome dir).1 = false) ∧ isRepo dir = false ∨
      isRepo dir = true ∧ (t.fileStep outcome dir).1 = t.updated dir := by
  obtain ⟨kind, source, stage, lock⟩ := t
  have hupdate : ∀ stage : Stage, (stage = .reset ∨ stage = .pull) →
      ((⟨kind, source, stage, lock⟩ : CacheTask).fileStep outcome dir).1 = dir ∨
        isRepo dir = true ∧ ((⟨kind, source, stage, lock⟩ : CacheTask).fileStep outcome dir).1 =
          (⟨kind, source, stage, lock⟩ : CacheTask).updated dir := by
    intro stage hstage
    by_cases h : outcome.ok = true ∧ isRepo dir = true
    · rcases hstage with rfl | rfl <;> exact .inr ⟨h.2, by simp only [fileStep, if_pos h]⟩
    · rcases hstage with rfl | rfl <;> exact .inl (by simp only [fileStep, if_neg h])
  cases stage with
  | rmtree =>
    by_cases h : outcome.ok = true ∧ dir.isSome = true
    · exact .inr (.inl ⟨rfl, by simp only [fileStep, if_pos h]⟩)
    · exact .inl (by simp only [fileStep, if_neg h])
  | clone =>
    cases dir with
    | none =>
      refine .inr (.inr (.inl ⟨rfl, ?_, rfl⟩))
      simp only [fileStep]
      split_ifs
      · exact .inl rfl
      · exact .inr rfl
      · exact .inr rfl
    | some dir => exact .inl rfl
  | reset =>
    rcases hupdate .reset (.inl rfl) with h | h
    · exact .inl h
    · exact .inr (.inr (.inr h))
  | pull =>
    rcases hupdate .pull (.inr rfl) with h | h
    · exact .inl h
    · exact .inr (.inr (.inr h))
  | _ => exact .inl rfl

section

variable (outcome : GitOutcome) {dir : Option Directory}

theorem fileStep_keeps (hdir : isRepo dir = true)
    (ht : t.stage ≠ .rmtree) : isRepo (t.fileStep outcome dir).1 = true := by
  rcases fileStep_dir t outcome dir with h | ⟨h, -⟩ | ⟨-, -, h⟩ | ⟨-, h⟩
  · rwa [h]
  · exact absurd h ht
  · rw [hdir] at h
    cases h
  · rwa [h, isRepo_updated]

theorem fileStep_makes (h : isRepo (t.fileStep outcome dir).1 = true)
    : isRepo dir = true ∨ t.stage = .clone := by
  rcases fileStep_dir t outcome dir with hdir | ⟨-, hdir⟩ | ⟨hstage, -, -⟩ | ⟨hdir, -⟩
  · exact .inl (hdir ▸ h)
  · rw [hdir] at h
    cases h
  · exact .inr hstage
  · exact .inl hdir

theorem fileStep_clone (hdir : ∀ clone, dir = some (.repo clone) → clone = some t.source) :
    ∀ clone, (t.fileStep outcome dir).1 = some (.repo clone) → clone = some t.source := by
  intro clone h
  rcases fileStep_dir t outcome dir with heq | ⟨-, heq⟩ | ⟨-, heq, -⟩ | ⟨hrepo, heq⟩
  · exact hdir clone (heq ▸ h)
  · rw [heq] at h
    cases h
  · rcases heq with heq | heq
    · rw [heq] at h
      cases h
      rfl
    · rw [h] at heq
      cases heq
  · obtain ⟨clone', rfl⟩ : ∃ clone', dir = some (.repo clone') := by
      cases dir with
      | none => cases hrepo
      | some content =>
        cases content with
        | unfinished => cases hrepo
        | repo clone' => exact ⟨clone', rfl⟩
    cases hdir clone' rfl
    rw [h, updated, if_pos rfl] at heq
    cases heq
    rfl

end

theorem done_eq (t : CacheTask) (success : Bool) :
    t.done success = .finished success ∧ t.kind = .ensureTemplateRepo ∨
      t.done success = .release success := by
  unfold done
  split_ifs with h
  · exact .inl ⟨rfl, h⟩
  · exact .inr rfl

theorem updateFailed_eq (t : CacheTask) :
    t.updateFailed = .finished true ∧ t.kind = .ensureTemplateRepo ∨
      t.updateFailed = .release false := by
  unfold updateFailed
  split_ifs with h
  · exact .inl ⟨rfl, h⟩
  · exact .inr rfl

theorem fileStep_missing (outcome : GitOutcome) {dir : Option Directory} (hfile : t.onDisk = true)
    (hdir : t.stage = .pathExists ∨ t.stage = .rmtree → isRepo dir = false)
    (h : (t.fileStep outcome dir).2 = .pathExists ∨ (t.fileStep outcome dir).2 = .rmtree) :
    isRepo (t.fileStep outcome dir).1 = false := by
  have hdone : ∀ success, t.done success ≠ .pathExists ∧ t.done success ≠ .rmtree := by
    intro success
    rcases done_eq t success with ⟨heq, -⟩ | heq <;> rw [heq] <;> exact ⟨nofun, nofun⟩
  have hfailed : t.updateFailed ≠ .pathExists ∧ t.updateFailed ≠ .rmtree := by
    rcases updateFailed_eq t with ⟨heq, -⟩ | heq <;> rw [heq] <;> exact ⟨nofun, nofun⟩
  obtain ⟨kind, source, stage, lock⟩ := t
  cases stage with
  | isDir =>
    cases dir with
    | none => rfl
    | some content => rcases h with h | h <;> cases h
  | isGit =>
    cases hrepo : isRepo dir with
    | false => exact hrepo
    | true =>
      simp only [fileStep, hrepo, if_true] at h
      split_ifs at h <;> rcases h with h | h <;> cases h
  | pathExists => exact hdir (.inl rfl)
  | rmtree =>
    simp only [fileStep] at h ⊢
    split_ifs
    · rfl
    · exact hdir (.inr rfl)
  | clone =>
    exfalso
    cases dir with
    | none =>
      simp only [fileStep] at h
      split_ifs at h <;> simp only [hdone, or_self] at h
    | some content => simp only [fileStep, hdone, or_self] at h
  | lockFor | acquire | release | finished => cases hfile
  | readHead => rcases h with h | h <;> cases h
  | openRepo | isDirty | stash | fetch | reset | pull | readGit =>
    exfalso
    simp only [fileStep] at h
    split_ifs at h <;> simp [hdone, hfailed] at h

/-- A thread of `_ensure_template_repo` takes no lock and deletes nothing. -/
def templateStage : Stage → Bool
  | .lockFor | .acquire | .release _ | .rmtree => false
  | _ => true

theorem fileStep_template (outcome : GitOutcome) (dir : Option Directory)
    (hkind : t.kind = .ensureTemplateRepo) (h : templateStage t.stage = true) :
    templateStage (t.fileStep outcome dir).2 = true := by
  obtain ⟨kind, source, stage, lock⟩ := t
  obtain rfl : kind = .ensureTemplateRepo := hkind
  cases stage with
  | lockFor | acquire | release | rmtree => cases h
  | finished | readHead => rfl
  | clone =>
    cases dir with
    | none =>
      simp only [fileStep]
      split_ifs <;> rfl
    | some content => rfl
  | _ =>
    simp only [fileStep]
    split_ifs <;> first | rfl | contradiction

theorem fileStep_ensured (outcome : GitOutcome) {dir : Option Directory} (hfile : t.onDisk = true)
    (hkind : t.kind = .ensureSkillRepo) (h : (t.fileStep outcome dir).2 ∈
      [.release true, .readGit, .readHead, .finished true]) :
    isRepo (t.fileStep outcome dir).1 = true := by
  obtain ⟨kind, source, stage, lock⟩ := t
  obtain rfl : kind = .ensureSkillRepo := hkind
  cases stage with
  | lockFor | acquire | release | finished => cases hfile
  | isGit | readGit =>
    cases hrepo : isRepo dir with
    | true => exact hrepo
    | false => simp [fileStep, hrepo] at h
  | clone =>
    cases dir with
    | none =>
      by_cases hok : outcome.ok = true
      · simp only [fileStep, if_pos hok]
        rfl
      · simp [fileStep, hok, done] at h
    | some content => simp [fileStep, done] at h
  | reset | pull =>
    by_cases hok : outcome.ok = true ∧ isRepo dir = true
    · simp only [fileStep, if_pos hok, isRepo_updated]
      exact hok.2
    · simp [fileStep, hok, updateFailed] at h
  | readHead =>
    have hboth : outcome.ok = true ∧ isRepo dir = true := by simpa [fileStep] using h
    exact hboth.2
  | isDir | pathExists | rmtree | openRepo | isDirty | stash | fetch =>
    simp only [fileStep, updateFailed, done, reduceCtorEq, if_false] at h
    split_ifs at h <;> simp at h

theorem fileStep_critical (outcome : GitOutcome) (dir : Option Directory) (hfile : t.onDisk = true)
    (h : ({ t with stage := (t.fileStep outcome dir).2 } : CacheTask).critical = true) :
    t.critical = true := by
  obtain ⟨kind, source, stage, lock⟩ := t
  cases stage with
  | lockFor | acquire | release | finished => cases hfile
  | readGit =>
    simp only [fileStep] at h
    split_ifs at h <;> cases h
  | readHead => cases h
  | _ => rfl

end

end CacheTask

end WittyService
