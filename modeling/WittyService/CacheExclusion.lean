import WittyService.CacheOperations

/-! What keeps the cached repositories apart: a directory has one source, one lock and one thread
at a time. The code gives each of them by a key of its own, so that this is a condition on the
calls and on the lock table. -/
namespace WittyService

open GuardedRuns

/-- Among the directories of `TEMPLATE_STORE_DIR`, the directory stands for itself only. -/
def Plain (directory : PyStr) : Prop := directory ∉ [[], ['.'], ['.', '.']]

instance (directory : PyStr) : Decidable (Plain directory) := inferInstanceAs (Decidable (¬ _))

namespace RepoCache

variable {s s' : RepoCache} {i j : ℕ} {t t' u : CacheTask}

/-- A directory is asked for by one source, and a template repository is used by one thread. -/
structure Asked (s : RepoCache) : Prop where
  same : ∀ p ∈ s.used, ∀ q ∈ s.used, p.directory = q.directory → p = q
  used : ∀ (i : ℕ) (t : CacheTask), s.tasks[i]? = some t → ∀ p ∈ t.sources, p ∈ s.used
  template : ∀ (i j : ℕ) (t u : CacheTask), s.tasks[i]? = some t → s.tasks[j]? = some u → i ≠ j →
    t.kind = .ensureTemplateRepo → t.active → u.active → ∀ q ∈ u.sources,
      t.directory ≠ q.directory

/-- The threads of a directory have one lock, and one of them holds it. -/
structure Locked (s : RepoCache) : Prop where
  held : ∀ (i : ℕ) (t : CacheTask), s.tasks[i]? = some t → t.kind ≠ .ensureTemplateRepo →
    t.critical = true → ∃ lock, t.lock = some lock ∧ s.holder lock = some i
  lock : ∀ (i j : ℕ) (t u : CacheTask), s.tasks[i]? = some t → s.tasks[j]? = some u →
    t.directory = u.directory → ∀ lock lock', t.lock = some lock → u.lock = some lock' →
      lock = lock'

/-- A repository is the clone of the source that was asked for, and it is not deleted. -/
structure Cached (s : RepoCache) : Prop where
  disk : ∀ directory clone, s.disk directory = some (.repo clone) →
    ∃ p ∈ s.used, p.directory = directory ∧ clone = some p
  missing : ∀ (i : ℕ) (t : CacheTask), s.tasks[i]? = some t → t.kind ≠ .ensureTemplateRepo →
    t.stage = .pathExists ∨ t.stage = .rmtree → isRepo (s.disk t.directory) = false
  template : ∀ (i : ℕ) (t : CacheTask), s.tasks[i]? = some t → t.kind = .ensureTemplateRepo →
    CacheTask.templateStage t.stage = true
  ensured : ∀ (i : ℕ) (t : CacheTask), s.tasks[i]? = some t → t.kind = .ensureSkillRepo →
    t.stage = .release true ∨ t.stage = .readGit ∨ t.stage = .readHead →
      isRepo (s.disk t.directory) = true

structure Sound (s : RepoCache) : Prop where
  asked : s.Asked
  locked : s.Locked
  cached : s.Cached

theorem getElem?_set_cases {tasks : List CacheTask} (h : (tasks.set i t')[j]? = some u) :
    j = i ∧ u = t' ∨ j ≠ i ∧ tasks[j]? = some u := by
  by_cases hij : j = i
  · subst hij
    have hlt : j < tasks.length := by
      by_contra hge
      rw [List.getElem?_eq_none (by simpa using hge)] at h
      cases h
    rw [List.getElem?_set_self hlt] at h
    exact .inl ⟨rfl, (Option.some.inj h).symm⟩
  · rw [List.getElem?_set_ne (Ne.symm hij)] at h
    exact .inr ⟨hij, h⟩

theorem Sound.alone (hs : s.Sound) (hi : s.tasks[i]? = some t) (hj : s.tasks[j]? = some u)
    (ht : t.critical = true) (hu : u.critical = true) (hdir : t.directory = u.directory) :
    i = j := by
  by_contra hij
  -- threads of `_ensure_template_repo` are kept apart by the calls, the others by their lock
  by_cases hkt : t.kind = .ensureTemplateRepo
  · exact hs.asked.template i j t u hi hj hij hkt (CacheTask.active_of_critical ht)
      (CacheTask.active_of_critical hu) u.source u.source_mem_sources hdir
  by_cases hku : u.kind = .ensureTemplateRepo
  · exact hs.asked.template j i u t hj hi (Ne.symm hij) hku (CacheTask.active_of_critical hu)
      (CacheTask.active_of_critical ht) t.source t.source_mem_sources hdir.symm
  obtain ⟨lock, hlock, hholder⟩ := hs.locked.held i t hi hkt ht
  obtain ⟨lock', hlock', hholder'⟩ := hs.locked.held j u hj hku hu
  rw [hs.locked.lock i j t u hi hj hdir lock lock' hlock hlock', hholder'] at hholder
  exact hij (Option.some.inj hholder).symm

theorem Asked.set (hs : s.Asked) (hi : s.tasks[i]? = some t) (htasks : s'.tasks = s.tasks.set i t')
    (hused : s'.used = s.used) (hsources : t'.sources ⊆ t.sources)
    (hkind : t'.kind = .ensureTemplateRepo → t.kind = .ensureTemplateRepo)
    (hactive : t'.active → t.active) (hdir : t'.kind = .ensureTemplateRepo →
      t'.directory = t.directory) : s'.Asked := by
  refine ⟨hused ▸ hs.same, fun j u hj p hp => ?_, fun j k u v hj hk hjk hku hu hv q hq => ?_⟩
  · rw [hused]
    rw [htasks] at hj
    rcases getElem?_set_cases hj with ⟨rfl, rfl⟩ | ⟨-, hj⟩
    · exact hs.used j t hi p (hsources hp)
    · exact hs.used j u hj p hp
  · rw [htasks] at hj hk
    rcases getElem?_set_cases hj with ⟨rfl, rfl⟩ | ⟨hji, hju⟩
    · rcases getElem?_set_cases hk with ⟨rfl, -⟩ | ⟨-, hk⟩
      · exact absurd rfl hjk
      · rw [hdir hku]
        exact hs.template j k t v hi hk hjk (hkind hku) (hactive hu) hv q hq
    · rcases getElem?_set_cases hk with ⟨rfl, rfl⟩ | ⟨-, hkv⟩
      · exact hs.template j k u t hju hi hjk hku hu (hactive hv) q (hsources hq)
      · exact hs.template j k u v hju hkv hjk hku hu hv q hq

theorem lockFor_fields (key : PyStr) : (s.lockFor key).2.tasks = s.tasks ∧
    (s.lockFor key).2.used = s.used ∧ (s.lockFor key).2.disk = s.disk ∧
    (s.lockFor key).2.holder = s.holder := by
  unfold lockFor
  cases s.urlLocks.get? key with
  | some lock | none => exact ⟨rfl, rfl, rfl, rfl⟩

theorem lockFor_some {key : PyStr} {lock : ℕ} (h : s.urlLocks.get? key = some lock) :
    (s.lockFor key).1 = lock := by
  rw [lockFor, h]

theorem Locked.set (hs : s.Locked) (hi : s.tasks[i]? = some t)
    (htasks : s'.tasks = s.tasks.set i t')
    (hheld : t'.kind ≠ .ensureTemplateRepo → t'.critical = true →
      ∃ lock, t'.lock = some lock ∧ s'.holder lock = some i)
    (hothers : ∀ j u, j ≠ i → s.tasks[j]? = some u → u.kind ≠ .ensureTemplateRepo →
      u.critical = true → ∀ lock, s.holder lock = some j → s'.holder lock = some j)
    (hlock : ∀ j u lock lock', j ≠ i → s.tasks[j]? = some u → u.directory = t'.directory →
      t'.lock = some lock → u.lock = some lock' → lock = lock') : s'.Locked := by
  refine ⟨fun j u hj hku hu => ?_, fun j k u v hj hk hdir lock lock' hu hv => ?_⟩
  · rw [htasks] at hj
    rcases getElem?_set_cases hj with ⟨rfl, rfl⟩ | ⟨hji, hju⟩
    · exact hheld hku hu
    · obtain ⟨lock, hlock, hholder⟩ := hs.held j u hju hku hu
      exact ⟨lock, hlock, hothers j u hji hju hku hu lock hholder⟩
  · rw [htasks] at hj hk
    rcases getElem?_set_cases hj with ⟨rfl, rfl⟩ | ⟨hji, hju⟩
    · rcases getElem?_set_cases hk with ⟨rfl, rfl⟩ | ⟨hkj, hkv⟩
      · rw [hu] at hv
        exact Option.some.inj hv
      · exact hlock k v lock lock' hkj hkv hdir.symm hu hv
    · rcases getElem?_set_cases hk with ⟨rfl, rfl⟩ | ⟨hkj, hkv⟩
      · exact (hlock j u lock' lock hji hju hdir hv hu).symm
      · exact hs.lock j k u v hju hkv hdir lock lock' hu hv

theorem Cached.set (hs : s.Cached)
    (htasks : s'.tasks = s.tasks.set i t') (hdisk : s'.disk = s.disk) (hused : s'.used = s.used)
    (hmissing : ¬ (t'.stage = .pathExists ∨ t'.stage = .rmtree))
    (htemplate : t'.kind = .ensureTemplateRepo → CacheTask.templateStage t'.stage = true)
    (hensured : t'.kind = .ensureSkillRepo →
      t'.stage = .release true ∨ t'.stage = .readGit ∨ t'.stage = .readHead →
        isRepo (s.disk t'.directory) = true) : s'.Cached := by
  refine ⟨?_, fun j u hj hku hu => ?_, fun j u hj hku => ?_, fun j u hj hku hu => ?_⟩
  · rw [hdisk, hused]
    exact hs.disk
  · rw [htasks] at hj
    rcases getElem?_set_cases hj with ⟨-, rfl⟩ | ⟨-, hju⟩
    · exact absurd hu hmissing
    · rw [hdisk]
      exact hs.missing j u hju hku hu
  · rw [htasks] at hj
    rcases getElem?_set_cases hj with ⟨-, rfl⟩ | ⟨-, hju⟩
    · exact htemplate hku
    · exact hs.template j u hju hku
  · rw [htasks] at hj
    rw [hdisk]
    rcases getElem?_set_cases hj with ⟨-, rfl⟩ | ⟨-, hju⟩
    · exact hensured hku hu
    · exact hs.ensured j u hju hku hu

theorem Sound.fileStep (hs : s.Sound) (hi : s.tasks[i]? = some t) (hfile : t.onDisk = true)
    (outcome : GitOutcome) : Cached { s with
      disk := Function.update s.disk t.directory (t.fileStep outcome (s.disk t.directory)).1
      tasks := s.tasks.set i { t with
        stage := (t.fileStep outcome (s.disk t.directory)).2 } } := by
  have hsource := hs.asked.used i t hi t.source t.source_mem_sources
  have hclone : ∀ clone, s.disk t.directory = some (.repo clone) → clone = some t.source := by
    intro clone h
    obtain ⟨p, hp, hdir, rfl⟩ := hs.cached.disk t.directory clone h
    rw [hs.asked.same p hp t.source hsource hdir]
  have hrmtree : t.stage = .rmtree → isRepo (s.disk t.directory) = false := by
    intro hstage
    by_cases hkind : t.kind = .ensureTemplateRepo
    · have htemplate := hs.cached.template i t hi hkind
      rw [hstage] at htemplate
      cases htemplate
    · exact hs.cached.missing i t hi hkind (.inr hstage)
  refine ⟨fun directory clone h => ?_, fun j u hj hku hu => ?_, fun j u hj hku => ?_,
    fun j u hj hku hu => ?_⟩
  · dsimp only at h
    by_cases hdir : directory = t.directory
    · rw [hdir, Function.update_self] at h
      exact ⟨t.source, hsource, hdir.symm, CacheTask.fileStep_clone outcome hclone clone h⟩
    · rw [Function.update_of_ne hdir] at h
      exact hs.cached.disk directory clone h
  · dsimp only at hj ⊢
    rcases getElem?_set_cases hj with ⟨rfl, rfl⟩ | ⟨hji, hju⟩
    · show isRepo (Function.update s.disk t.directory _ t.directory) = false
      rw [Function.update_self]
      exact CacheTask.fileStep_missing outcome hfile (hs.cached.missing j t hi hku) hu
    · have hbefore := hs.cached.missing j u hju hku hu
      by_cases hdir : u.directory = t.directory
      · rw [hdir] at hbefore ⊢
        rw [Function.update_self]
        by_contra hrepo
        rw [Bool.not_eq_false] at hrepo
        rcases CacheTask.fileStep_makes outcome hrepo with h | h
        · rw [hbefore] at h
          cases h
        · -- the other thread would have to clone under the same lock
          have ht : t.critical = true := by rw [CacheTask.critical, h]
          have hu' : u.critical = true := by
            rw [CacheTask.critical]
            rcases hu with hu | hu <;> rw [hu]
          exact hji (hs.alone hju hi hu' ht hdir)
      · rwa [Function.update_of_ne hdir]
  · rcases getElem?_set_cases hj with ⟨rfl, rfl⟩ | ⟨-, hju⟩
    · exact CacheTask.fileStep_template outcome _ hku (hs.cached.template j t hi hku)
    · exact hs.cached.template j u hju hku
  · dsimp only at hj ⊢
    rcases getElem?_set_cases hj with ⟨rfl, rfl⟩ | ⟨-, hju⟩
    · show isRepo (Function.update s.disk t.directory _ t.directory) = true
      rw [Function.update_self]
      refine CacheTask.fileStep_ensured outcome hfile hku ?_
      simp only [List.mem_cons, List.not_mem_nil, or_false]
      rcases hu with hu | hu | hu
      · exact .inl hu
      · exact .inr (.inl hu)
      · exact .inr (.inr (.inl hu))
    · have hbefore := hs.cached.ensured j u hju hku hu
      by_cases hdir : u.directory = t.directory
      · -- only `rmtree` would take the clone away, and it comes where there is none
        rw [hdir] at hbefore ⊢
        rw [Function.update_self]
        refine CacheTask.fileStep_keeps outcome hbefore fun hstage => ?_
        rw [hrmtree hstage] at hbefore
        cases hbefore
      · rwa [Function.update_of_ne hdir]

/-- The directories of a call are its own: nobody has asked for them with another source, and no
thread of `_ensure_template_repo` is in them together with another. A lock that is taken is the
one that the threads of its directory have. -/
def Apart (s : RepoCache) : CacheAction → Prop
  | .call call =>
    (∀ p ∈ call.sources, Plain p.directory ∧
      ∀ q ∈ s.used ++ call.sources, q.directory = p.directory → q = p) ∧
    ∀ t ∈ s.tasks, t.active → ∀ u ∈ call.tasks,
      t.kind = .ensureTemplateRepo ∨ u.kind = .ensureTemplateRepo →
        ∀ p ∈ t.sources, ∀ q ∈ u.sources, p.directory ≠ q.directory
  | .advance i _ => ∀ t, s.tasks[i]? = some t → t.stage = .lockFor →
    ∀ u ∈ s.tasks, u.directory = t.directory → ∀ lock, u.lock = some lock →
      s.urlLocks.get? t.source.lockKey = some lock
  | .restart => True

/-- What a step promises: `ensure_skill_repo` returns with a clone of its source, and no two
threads are about to clone into, reset or delete one directory. -/
structure Serves (action : CacheAction) (s' : RepoCache) : Prop where
  returned : ∀ (i : ℕ) (outcome : GitOutcome) (t : CacheTask), action = .advance i outcome →
    s'.tasks[i]? = some t → t.kind = .ensureSkillRepo → t.stage = .finished true →
      s'.disk t.directory = some (.repo (some t.source))
  alone : ∀ (i j : ℕ) (t u : CacheTask), s'.tasks[i]? = some t → s'.tasks[j]? = some u →
    t.Working → u.Working → t.directory = u.directory → i = j

theorem call_tasks (call : CacheCall) :
    call.tasks = [] ∨ ∃ t, call.tasks = [t] ∧ t.lock = none ∧ t.sources ⊆ call.sources ∧
      (t.stage = .lockFor ∧ t.kind ≠ .ensureTemplateRepo ∨
        t.stage = .pathExists ∧ t.kind = .ensureTemplateRepo) := by
  cases call with
  | ensureSkillRepo gitUrl branch =>
    exact .inr ⟨_, rfl, rfl, List.Subset.refl _, .inl ⟨rfl, nofun⟩⟩
  | prewarmSkillRepos skillSources =>
    unfold CacheCall.tasks
    cases hsources : (CacheCall.prewarmSkillRepos skillSources).sources with
    | nil => exact .inl rfl
    | cons source rest => exact .inr ⟨_, rfl, rfl, List.Subset.refl _, .inl ⟨rfl, nofun⟩⟩
  | ensureTemplateRepo gitUrl branch =>
    exact .inr ⟨_, rfl, rfl, List.Subset.refl _, .inr ⟨rfl, rfl⟩⟩

theorem getElem?_append_cases {call : CacheCall} (h : (s.tasks ++ call.tasks)[j]? = some u) :
    s.tasks[j]? = some u ∨ j = s.tasks.length ∧ u ∈ call.tasks := by
  by_cases hj : j < s.tasks.length
  · rw [List.getElem?_append_left hj] at h
    exact .inl h
  · rw [List.getElem?_append_right (by omega)] at h
    refine .inr ⟨?_, List.mem_of_getElem? h⟩
    obtain ⟨hlt, -⟩ := List.getElem?_eq_some_iff.mp h
    rcases call_tasks call with hnil | ⟨t, ht, -⟩
    · rw [hnil] at hlt
      simp at hlt
    · rw [ht] at hlt
      simp at hlt
      omega

theorem call_task {call : CacheCall} (h : t ∈ call.tasks) :
    t.lock = none ∧ t.sources ⊆ call.sources ∧
      (t.stage = .lockFor ∧ t.kind ≠ .ensureTemplateRepo ∨
        t.stage = .pathExists ∧ t.kind = .ensureTemplateRepo) := by
  rcases call_tasks call with hnil | ⟨t', ht', hfacts⟩
  · rw [hnil] at h
    cases h
  · rw [ht', List.mem_singleton] at h
    exact h ▸ hfacts

theorem Asked.call (hs : s.Asked) {call : CacheCall} (h : s.Apart (.call call)) :
    Asked { s with
      tasks := s.tasks ++ call.tasks
      used := s.used ++ call.sources } := by
  obtain ⟨hnew, hothers⟩ := h
  refine ⟨fun p hp q hq hdir => ?_, fun j u hj p hp => ?_,
    fun j k u v hj hk hjk hku hu hv q hq => ?_⟩
  · rcases List.mem_append.mp hp with hp | hp
    · rcases List.mem_append.mp hq with hq | hq
      · exact hs.same p hp q hq hdir
      · exact (hnew q hq).2 p (List.mem_append_left _ hp) hdir
    · exact ((hnew p hp).2 q hq hdir.symm).symm
  · rcases getElem?_append_cases hj with hj | ⟨-, hu⟩
    · exact List.mem_append_left _ (hs.used j u hj p hp)
    · exact List.mem_append_right _ ((call_task hu).2.1 hp)
  · rcases getElem?_append_cases hj with hj | ⟨hj, hju⟩
    · rcases getElem?_append_cases hk with hk | ⟨-, hkv⟩
      · exact hs.template j k u v hj hk hjk hku hu hv q hq
      · exact hothers u (List.mem_of_getElem? hj) hu v hkv (.inl hku) u.source
          u.source_mem_sources q hq
    · rcases getElem?_append_cases hk with hk | ⟨hk, -⟩
      · have hne := hothers v (List.mem_of_getElem? hk) hv u hju (.inr hku) q hq u.source
          u.source_mem_sources
        exact hne.symm
      · exact absurd (hj.trans hk.symm) hjk

theorem Locked.call (hs : s.Locked) (call : CacheCall) : Locked { s with
    tasks := s.tasks ++ call.tasks
    used := s.used ++ call.sources } := by
  refine ⟨fun j u hj hku hu => ?_, fun j k u v hj hk hdir lock lock' hu hv => ?_⟩
  · rcases getElem?_append_cases hj with hj | ⟨-, hju⟩
    · exact hs.held j u hj hku hu
    · rcases (call_task hju).2.2 with ⟨hstage, -⟩ | ⟨-, hkind⟩
      · rw [CacheTask.critical, hstage] at hu
        cases hu
      · exact absurd hkind hku
  · rcases getElem?_append_cases hj with hj | ⟨-, hju⟩
    · rcases getElem?_append_cases hk with hk | ⟨-, hkv⟩
      · exact hs.lock j k u v hj hk hdir lock lock' hu hv
      · rw [(call_task hkv).1] at hv
        cases hv
    · rw [(call_task hju).1] at hu
      cases hu

theorem Cached.call (hs : s.Cached) (call : CacheCall) : Cached { s with
    tasks := s.tasks ++ call.tasks
    used := s.used ++ call.sources } := by
  refine ⟨fun directory clone hclone => ?_, fun j u hj hku hu => ?_, fun j u hj hku => ?_,
    fun j u hj hku hu => ?_⟩
  · obtain ⟨p, hp, hfacts⟩ := hs.disk directory clone hclone
    exact ⟨p, List.mem_append_left _ hp, hfacts⟩
  · rcases getElem?_append_cases hj with hj | ⟨-, hju⟩
    · exact hs.missing j u hj hku hu
    · rcases (call_task hju).2.2 with ⟨hstage, -⟩ | ⟨-, hkind⟩
      · rw [hstage] at hu
        rcases hu with hu | hu <;> cases hu
      · exact absurd hkind hku
  · rcases getElem?_append_cases hj with hj | ⟨-, hju⟩
    · exact hs.template j u hj hku
    · rcases (call_task hju).2.2 with ⟨-, hkind⟩ | ⟨hstage, -⟩
      · exact absurd hku hkind
      · rw [hstage]
        rfl
  · rcases getElem?_append_cases hj with hj | ⟨-, hju⟩
    · exact hs.ensured j u hj hku hu
    · rcases (call_task hju).2.2 with ⟨hstage, -⟩ | ⟨-, hkind⟩
      · rw [hstage] at hu
        rcases hu with hu | hu | hu <;> cases hu
      · rw [hkind] at hku
        cases hku

theorem Sound.kind_ne (hs : s.Sound) (hi : s.tasks[i]? = some t)
    (h : CacheTask.templateStage t.stage = false) : t.kind ≠ .ensureTemplateRepo := by
  intro hkind
  rw [hs.cached.template i t hi hkind] at h
  cases h

theorem released_sources (t : CacheTask) (success : Bool) :
    (t.released success).sources ⊆ t.sources := by
  obtain ⟨kind, source, stage, lock⟩ := t
  cases kind with
  | ensureSkillRepo | ensureTemplateRepo => exact List.Subset.refl _
  | prewarmSkillRepos rest =>
    cases rest with
    | nil => exact List.Subset.refl _
    | cons next rest => exact List.subset_cons_self source _

theorem released_facts {t : CacheTask} (h : t.kind ≠ .ensureTemplateRepo) (success : Bool) :
    (t.released success).lock = none ∧ (t.released success).critical = false ∧
      (t.released success).kind ≠ .ensureTemplateRepo ∧
      ((t.released success).stage = .readGit → success = true ∧ t.kind = .ensureSkillRepo ∧
        (t.released success).directory = t.directory) ∧
      (t.released success).stage ∉ [.pathExists, .rmtree, .readHead, .release true] ∧
      ((t.released success).kind = .ensureSkillRepo →
        (t.released success).stage ≠ .finished true) := by
  obtain ⟨kind, source, stage, lock⟩ := t
  cases kind with
  | ensureSkillRepo =>
    cases success <;> simp [CacheTask.released, CacheTask.critical, CacheTask.directory]
  | ensureTemplateRepo => exact absurd rfl h
  | prewarmSkillRepos rest => cases rest <;> simp [CacheTask.released, CacheTask.critical]

section

variable (hs : s.Sound) (hi : s.tasks[i]? = some t)
include hs hi

theorem sound_lockFor (hstage : t.stage = .lockFor)
    (h : ∀ u ∈ s.tasks, u.directory = t.directory → ∀ lock, u.lock = some lock →
      s.urlLocks.get? t.source.lockKey = some lock) :
    Sound { (s.lockFor t.source.lockKey).2 with
      tasks := (s.lockFor t.source.lockKey).2.tasks.set i { t with
        stage := .acquire
        lock := some (s.lockFor t.source.lockKey).1 } } := by
  obtain ⟨htasks, hused, hdisk, hholder⟩ := lockFor_fields (s := s) t.source.lockKey
  have hkind := hs.kind_ne hi (by rw [hstage]; rfl)
  have hactive : t.active := fun returned => by simp [hstage]
  have hset : (s.lockFor t.source.lockKey).2.tasks.set i { t with
        stage := .acquire
        lock := some (s.lockFor t.source.lockKey).1 } = s.tasks.set i { t with
        stage := .acquire
        lock := some (s.lockFor t.source.lockKey).1 } := by rw [htasks]
  refine ⟨hs.asked.set hi hset hused (List.Subset.refl _) (fun h => h) (fun _ => hactive)
    fun _ => rfl, hs.locked.set hi hset (fun _ => nofun) (fun j u _ _ _ _ lock hlock => ?_)
    (fun j u lock lock' _ hju hdir hnew hlock => ?_), hs.cached.set hset hdisk hused (by simp)
    (fun h => absurd h hkind) (fun _ => by simp)⟩
  · exact (congrFun hholder lock).trans hlock
  · obtain rfl := Option.some.inj hnew
    exact lockFor_some (h u (List.mem_of_getElem? hju) hdir lock' hlock)

theorem sound_acquire (hstage : t.stage = .acquire)
    {lock : ℕ} (hlock : t.lock = some lock) (hfree : s.holder lock = none) :
    Sound { s with
      holder := Function.update s.holder lock (some i)
      tasks := s.tasks.set i { t with stage := .isDir } } := by
  have hkind := hs.kind_ne hi (by rw [hstage]; rfl)
  have hactive : t.active := fun returned => by simp [hstage]
  refine ⟨hs.asked.set hi rfl rfl (List.Subset.refl _) (fun h => h) (fun _ => hactive)
    fun _ => rfl, hs.locked.set hi rfl (fun _ _ => ⟨lock, hlock, Function.update_self ..⟩)
    (fun j u _ _ _ _ lock' hlock' => ?_) (fun j u lock' lock'' _ hju hdir ht hu => ?_),
    hs.cached.set rfl rfl rfl (by simp) (fun h => absurd h hkind) (fun _ => by simp)⟩
  · have hne : lock' ≠ lock := by
      rintro rfl
      rw [hfree] at hlock'
      cases hlock'
    exact (Function.update_of_ne hne ..).trans hlock'
  · exact hs.locked.lock i j t u hi hju hdir.symm lock' lock'' ht hu

theorem sound_release {success : Bool}
    (hstage : t.stage = .release success) {lock : ℕ} (hlock : t.lock = some lock) :
    Sound { s with
      holder := Function.update s.holder lock none
      tasks := s.tasks.set i (t.released success) } := by
  have hkind := hs.kind_ne hi (by rw [hstage]; rfl)
  obtain ⟨hnone, hcritical, hkind', hread, hother, -⟩ := released_facts hkind success
  have hactive : t.active := fun returned => by simp [hstage]
  have hholds : s.holder lock = some i := by
    obtain ⟨lock', hlock', hholder⟩ := hs.locked.held i t hi hkind (by
      rw [CacheTask.critical, hstage])
    rw [hlock] at hlock'
    cases hlock'
    exact hholder
  simp only [List.mem_cons, List.not_mem_nil, or_false, not_or] at hother
  refine ⟨hs.asked.set hi rfl rfl (released_sources t success) (fun h => absurd h hkind')
    (fun _ => hactive) fun h => absurd h hkind', hs.locked.set hi rfl
    (fun _ h => by rw [hcritical] at h; cases h) (fun j u hji _ _ _ lock' hlock' => ?_)
    (fun _ _ _ _ _ _ _ h _ => by rw [hnone] at h; cases h), hs.cached.set rfl rfl rfl ?_
    (fun h => absurd h hkind') fun _ h => ?_⟩
  · -- the lock that is given back is nobody else's
    have hne : lock' ≠ lock := by
      rintro rfl
      rw [hholds] at hlock'
      exact hji (Option.some.inj hlock').symm
    exact (Function.update_of_ne hne ..).trans hlock'
  · exact fun h => h.elim hother.1 hother.2.1
  · rcases h with h | h | h
    · exact absurd h hother.2.2.2
    · obtain ⟨rfl, hensure, hdir⟩ := hread h
      rw [hdir]
      exact hs.cached.ensured i t hi hensure (.inl hstage)
    · exact absurd h hother.2.2.1

theorem sound_file (hfile : t.onDisk = true) (outcome : GitOutcome) : Sound { s with
      disk := Function.update s.disk t.directory (t.fileStep outcome (s.disk t.directory)).1
      tasks := s.tasks.set i { t with
        stage := (t.fileStep outcome (s.disk t.directory)).2 } } := by
  have hactive : t.active := fun returned hfinished => by
    rw [CacheTask.onDisk, hfinished] at hfile
    cases hfile
  refine ⟨hs.asked.set hi rfl rfl (List.Subset.refl _) (fun h => h) (fun _ => hactive)
    fun _ => rfl, hs.locked.set hi rfl (fun hkind h => ?_) (fun _ _ _ _ _ _ _ h => h)
    (fun j u lock lock' _ hju hdir ht hu => ?_), hs.fileStep hi hfile outcome⟩
  · exact hs.locked.held i t hi hkind (CacheTask.fileStep_critical outcome _ hfile h)
  · exact hs.locked.lock i j t u hi hju hdir.symm lock lock' ht hu

end

theorem getElem?_set_own {tasks : List CacheTask} (h : (tasks.set i t')[i]? = some u) : u = t' := by
  rcases getElem?_set_cases h with ⟨-, h⟩ | ⟨h, -⟩
  · exact h
  · exact absurd rfl h

theorem sound_advance (hs : s.Sound) {outcome : GitOutcome} (h : s.Apart (.advance i outcome))
    (hs' : s.step (.advance i outcome) = some s') : s'.Sound ∧
      ∀ t, s'.tasks[i]? = some t → t.kind = .ensureSkillRepo → t.stage = .finished true →
        isRepo (s'.disk t.directory) = true := by
  obtain ⟨t, hi, hadvance⟩ := Option.bind_eq_some_iff.mp hs'
  unfold advance at hadvance
  split at hadvance
  · rename_i hstage
    obtain rfl := Option.some.inj hadvance
    refine ⟨sound_lockFor hs hi hstage (h t hi hstage), fun u hu _ hfinished => ?_⟩
    rw [getElem?_set_own hu] at hfinished
    cases hfinished
  · rename_i hstage
    split at hadvance
    · cases hadvance
    · rename_i lock hlock
      split_ifs at hadvance with hfree
      obtain rfl := Option.some.inj hadvance
      refine ⟨sound_acquire hs hi hstage hlock hfree, fun u hu _ hfinished => ?_⟩
      rw [getElem?_set_own hu] at hfinished
      cases hfinished
  · rename_i success hstage
    split at hadvance
    · cases hadvance
    · rename_i lock hlock
      obtain rfl := Option.some.inj hadvance
      refine ⟨sound_release hs hi hstage hlock, fun u hu hkind hfinished => ?_⟩
      rw [getElem?_set_own hu] at hkind hfinished
      have hne := hs.kind_ne hi (by rw [hstage]; rfl)
      exact absurd hfinished ((released_facts hne success).2.2.2.2.2 hkind)
  · cases hadvance
  · rename_i hlockFor hacquire hrelease hfinished
    obtain rfl := Option.some.inj hadvance
    have hfile : t.onDisk = true := by
      unfold CacheTask.onDisk
      split
      · exact absurd ‹_› hlockFor
      · exact absurd ‹_› hacquire
      · exact absurd ‹_› (hrelease _)
      · exact absurd ‹_› (hfinished _)
      · rfl
    refine ⟨sound_file hs hi hfile outcome, fun u hu hkind hstage => ?_⟩
    rw [getElem?_set_own hu] at hkind hstage ⊢
    show isRepo (Function.update s.disk t.directory _ t.directory) = true
    rw [Function.update_self]
    refine CacheTask.fileStep_ensured outcome hfile hkind ?_
    simp only [List.mem_cons, List.not_mem_nil, or_false]
    exact .inr (.inr (.inr hstage))

theorem Sound.serves (hs' : s'.Sound) {action : CacheAction}
    (hreturned : ∀ i outcome, action = .advance i outcome → ∀ t, s'.tasks[i]? = some t →
      t.kind = .ensureSkillRepo → t.stage = .finished true →
        isRepo (s'.disk t.directory) = true) : Serves action s' := by
  refine ⟨fun i outcome t haction hi hkind hstage => ?_, fun i j t u hi hj ht hu hdir => ?_⟩
  · have hrepo := hreturned i outcome haction t hi hkind hstage
    cases hdisk : s'.disk t.directory with
    | none =>
      rw [hdisk] at hrepo
      cases hrepo
    | some content =>
      cases content with
      | unfinished =>
        rw [hdisk] at hrepo
        cases hrepo
      | repo clone =>
        obtain ⟨p, hp, hdir, rfl⟩ := hs'.cached.disk t.directory clone hdisk
        have hsource := hs'.asked.used i t hi t.source t.source_mem_sources
        rw [hs'.asked.same p hp t.source hsource hdir]
  · exact hs'.alone hi hj ht.critical hu.critical hdir

theorem sound_idle {disk : PyStr → Option Directory} {used : List Source}
    (hsame : ∀ p ∈ used, ∀ q ∈ used, p.directory = q.directory → p = q)
    (hdisk : ∀ directory clone, disk directory = some (.repo clone) →
      ∃ p ∈ used, p.directory = directory ∧ clone = some p) : Sound { disk, used } := by
  have hnone : ∀ (i : ℕ) (t : CacheTask), ([] : List CacheTask)[i]? ≠ some t := by
    intro i t h
    cases h
  exact ⟨⟨hsame, fun i t h => absurd h (hnone i t), fun i _ t _ h => absurd h (hnone i t)⟩,
    ⟨fun i t h => absurd h (hnone i t), fun i _ t _ h => absurd h (hnone i t)⟩,
    ⟨hdisk, fun i t h => absurd h (hnone i t), fun i t h => absurd h (hnone i t),
      fun i t h => absurd h (hnone i t)⟩⟩

theorem sound_step (hs : s.Sound) {action : CacheAction} (h : s.Apart action)
    (hs' : s.step action = some s') : s'.Sound ∧ Serves action s' := by
  cases action with
  | call call =>
    obtain rfl := Option.some.inj hs'
    have hsound : Sound { s with
        tasks := s.tasks ++ call.tasks
        used := s.used ++ call.sources } :=
      ⟨hs.asked.call h, hs.locked.call call, hs.cached.call call⟩
    exact ⟨hsound, hsound.serves nofun⟩
  | advance i outcome =>
    obtain ⟨hsound, hreturned⟩ := sound_advance hs h hs'
    refine ⟨hsound, hsound.serves fun i' outcome' haction => ?_⟩
    cases haction
    exact hreturned
  | restart =>
    obtain rfl := Option.some.inj hs'
    have hsound := sound_idle hs.asked.same hs.cached.disk
    exact ⟨hsound, hsound.serves nofun⟩

def oneRepository : List CacheAction := [
  .call (.ensureSkillRepo ['a', '/', 'x'] none), .advance 0 {}, .advance 0 {}]

end RepoCache

end WittyService
