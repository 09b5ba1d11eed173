import Mathlib.Logic.Function.Basic
import WittyService.GuardedRuns
import WittyService.OrderedDict
import WittyService.TextSegments

/-! The cache of git repositories that the template service shares between its threads, one file
or git operation at a time. -/
namespace WittyService

structure Source where
  gitUrl : PyStr
  branch : PyStr
  deriving DecidableEq, Repr

def DEFAULT_BRANCH : PyStr := ['m', 'a', 'i', 'n']

/-- `branch or "main"`. -/
def Source.of (gitUrl : PyStr) (branch : Option PyStr) : Source :=
  ⟨gitUrl, match branch with
    | none | some [] => DEFAULT_BRANCH
    | some branch => branch⟩

def repoNameFromUrl (gitUrl : PyStr) : PyStr :=
  let name := ((gitUrl.rdropWhile (· == '/')).splitOn '/').getLastD []
  if ['.', 'g', 'i', 't'].isSuffixOf name then name.take (name.length - 4) else name

/-- `resolve_skill_cache_dir`: the name of the directory in `TEMPLATE_STORE_DIR`. -/
def Source.directory (source : Source) : PyStr := repoNameFromUrl source.gitUrl

def Source.lockKey (source : Source) : PyStr := source.gitUrl ++ '@' :: source.branch

/-- A directory without `.git`, or a repository: of what it is a clone, if of anything. -/
inductive Directory where
  | unfinished
  | repo (clone : Option Source)
  deriving DecidableEq, Repr

/-- `_is_skill_repo_cloned`, the second of its two tests. -/
def isRepo : Option Directory → Bool
  | some (.repo _) => true
  | _ => false

inductive Kind where
  | ensureSkillRepo
  /-- With the sources that are still to be warmed. -/
  | prewarmSkillRepos (rest : List Source)
  | ensureTemplateRepo
  deriving DecidableEq, Repr

inductive Stage where
  | lockFor
  | acquire
  | isDir
  | isGit
  | pathExists
  | rmtree
  | clone
  | openRepo
  | isDirty
  | stash
  | fetch
  | reset
  | pull
  | release (success : Bool)
  | readGit
  | readHead
  | finished (returned : Bool)
  deriving DecidableEq, Repr

/-- The thread of a call, with the lock object that `_lock_for` has given it. -/
structure CacheTask where
  kind : Kind
  source : Source
  stage : Stage
  lock : Option ℕ := none
  deriving DecidableEq, Repr

/-- How an operation ends: a clone that fails may leave a directory, and the work tree may be
dirty. -/
structure GitOutcome where
  ok : Bool := true
  dirty : Bool := false
  leftover : Bool := false
  deriving DecidableEq, Repr

namespace CacheTask

def directory (t : CacheTask) : PyStr := t.source.directory

/-- `_ensure_template_repo` takes no lock. -/
def done (t : CacheTask) (success : Bool) : Stage :=
  if t.kind = .ensureTemplateRepo then .finished success else .release success

def updateFailed (t : CacheTask) : Stage :=
  if t.kind = .ensureTemplateRepo then .finished true else .release false

/-- `reset --hard origin/branch`, and `pull` of a branch into the one that is checked out. -/
def updated (t : CacheTask) : Option Directory → Option Directory
  | some (.repo (some clone)) => some (.repo
      (if clone.branch = t.source.branch then some clone
      else if t.kind = .ensureTemplateRepo then none
      else some ⟨clone.gitUrl, t.source.branch⟩))
  | dir => dir

def fileStep (t : CacheTask) (outcome : GitOutcome) (dir : Option Directory) :
    Option Directory × Stage :=
  match t.stage with
  | .isDir => (dir, if dir.isSome then .isGit else .pathExists)
  -- `ensure_skill_repo` uses a clone as it is, the others bring it up to date
  | .isGit => (dir,
      if isRepo dir then (if t.kind = .ensureSkillRepo then .release true else .openRepo)
      else .pathExists)
  -- a directory without a clone in it is deleted, except by `_ensure_template_repo`
  | .pathExists => (dir,
      if dir.isSome then (if t.kind = .ensureTemplateRepo then .openRepo else .rmtree)
      else .clone)
  | .rmtree => if outcome.ok ∧ dir.isSome then (none, .clone) else (dir, .release false)
  | .clone =>
    match dir with
    | none =>
      if outcome.ok then (some (.repo (some t.source)), t.done true)
      else (if outcome.leftover then some .unfinished else none, t.done false)
    | some _ => (dir, t.done false)
  | .openRepo => (dir, if isRepo dir then .isDirty else t.done false)
  | .isDirty => (dir,
      if outcome.ok then (if outcome.dirty then .stash else .fetch) else t.updateFailed)
  | .stash => (dir, if outcome.ok then .fetch else t.updateFailed)
  | .fetch => (dir,
      if outcome.ok then (if t.kind = .ensureTemplateRepo then .pull else .reset)
      else t.updateFailed)
  | .reset | .pull =>
    if outcome.ok ∧ isRepo dir then (t.updated dir, t.done true) else (dir, t.updateFailed)
  -- `read_repo_commit`, which the lock does not cover
  | .readGit => (dir, if isRepo dir then .readHead else .finished false)
  | .readHead => (dir, .finished (outcome.ok && isRepo dir))
  | .lockFor | .acquire | .release _ | .finished _ => (dir, t.stage)

def released (t : CacheTask) (success : Bool) : CacheTask :=
  match t.kind with
  | .ensureSkillRepo =>
    { t with stage := if success then .readGit else .finished false, lock := none }
  | .prewarmSkillRepos (next :: rest) => ⟨.prewarmSkillRepos rest, next, .lockFor, none⟩
  | .prewarmSkillRepos [] | .ensureTemplateRepo =>
    { t with stage := .finished true, lock := none }

end CacheTask

/-- The sources that calls have asked for are kept for the statements only. -/
structure RepoCache where
  disk : PyStr → Option Directory := fun _ => none
  urlLocks : OrderedDict PyStr ℕ := .empty
  nextLock : ℕ := 0
  holder : ℕ → Option ℕ := fun _ => none
  tasks : List CacheTask := []
  used : List Source := []

inductive CacheCall where
  | ensureSkillRepo (gitUrl : PyStr) (branch : Option PyStr)
  /-- With the `skill_source` of each preset template. -/
  | prewarmSkillRepos (skillSources : List (Option (PyStr × Option PyStr)))
  | ensureTemplateRepo (gitUrl branch : PyStr)
  deriving DecidableEq, Repr

def CacheCall.sources : CacheCall → List Source
  | .ensureSkillRepo gitUrl branch => [.of gitUrl branch]
  | .prewarmSkillRepos skillSources =>
    (skillSources.filterMap id).eraseDups.map fun key => .of key.1 key.2
  | .ensureTemplateRepo gitUrl branch => [⟨gitUrl, branch⟩]

def CacheCall.tasks (call : CacheCall) : List CacheTask :=
  match call, call.sources with
  | _, [] => []
  | .ensureSkillRepo _ _, source :: _ => [⟨.ensureSkillRepo, source, .lockFor, none⟩]
  | .prewarmSkillRepos _, source :: rest => [⟨.prewarmSkillRepos rest, source, .lockFor, none⟩]
  | .ensureTemplateRepo _ _, source :: _ => [⟨.ensureTemplateRepo, source, .pathExists, none⟩]

inductive CacheAction where
  | call (call : CacheCall)
  /-- The thread does its next operation. -/
  | advance (thread : ℕ) (outcome : GitOutcome)
  /-- The service is started again; the directories stay. -/
  | restart
  deriving DecidableEq, Repr

def MAX_URL_LOCKS : ℕ := 1024

namespace RepoCache

/-- `_lock_for`, whose guard makes it one operation. -/
def lockFor (s : RepoCache) (key : PyStr) : ℕ × RepoCache :=
  match s.urlLocks.get? key with
  | some lock => (lock, s)
  | none =>
    -- a full table is emptied, with the locks that threads hold
    let urlLocks := if MAX_URL_LOCKS ≤ s.urlLocks.size then .empty else s.urlLocks
    (s.nextLock, { s with
      urlLocks := urlLocks.set key s.nextLock
      nextLock := s.nextLock + 1 })

/-- The next operation of thread `i`; a lock that is held is waited for. -/
def advance (s : RepoCache) (i : ℕ) (t : CacheTask) (outcome : GitOutcome) : Option RepoCache :=
  match t.stage with
  | .lockFor =>
    let (lock, s) := s.lockFor t.source.lockKey
    some { s with tasks := s.tasks.set i { t with stage := .acquire, lock := some lock } }
  | .acquire =>
    match t.lock with
    | none => none
    | some lock =>
      if s.holder lock = none then
        some { s with
          holder := Function.update s.holder lock (some i)
          tasks := s.tasks.set i { t with stage := .isDir } }
      else none
  | .release success =>
    match t.lock with
    | none => none
    | some lock => some { s with
        holder := Function.update s.holder lock none
        tasks := s.tasks.set i (t.released success) }
  | .finished _ => none
  | _ =>
    let (dir, stage) := t.fileStep outcome (s.disk t.directory)
    some { s with
      disk := Function.update s.disk t.directory dir
      tasks := s.tasks.set i { t with stage } }

def step (s : RepoCache) : CacheAction → Option RepoCache
  | .call call => some { s with
      tasks := s.tasks ++ call.tasks
      used := s.used ++ call.sources }
  | .advance i outcome => s.tasks[i]?.bind fun t => s.advance i t outcome
  | .restart => some { disk := s.disk, used := s.used }

end RepoCache

end WittyService
