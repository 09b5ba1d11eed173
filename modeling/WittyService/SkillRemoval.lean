import WittyService.CommitImport
import WittyService.PosixPaths

/-! What `OpenClawSkillService.uninstall_skill` deletes from the file system itself. The path that
is asked for is rewritten before it is compared with the directories allowed for its source. -/
namespace WittyService

open PosixPaths Utf8Text

/-- What the paths of a call depend on. `expandHome` finds the home that a first part `~` or
`~user` stands for, and `workspacePath` is `agent_workspace_path`, none where it raises. -/
structure SkillHost where
  cwd : PosixPath
  home : PosixPath
  expandHome : Name → Option PosixPath
  workspacePath : CodePoints → Option PosixPath

structure SkillFiles where
  isSymlink : PosixPath → Bool
  isFile : PosixPath → Bool
  isPresent : PosixPath → Bool

structure UninstallCall where
  agentId : Option CodePoints
  skillName : CodePoints
  sourceType : Option CodePoints
  sourcePath : Option CodePoints
  runtimeSource : Option CodePoints

/-- `target.unlink()` or `shutil.rmtree(target)`, which follows no link. -/
inductive Removal where
  | unlink (target : PosixPath)
  | rmtree (target : PosixPath)
  deriving DecidableEq

/-- What a call goes on to: nothing to delete itself, or a path with the source it is from. -/
inductive UninstallPlan where
  | nothing
  | delete (target : PosixPath) (source : Option CodePoints)
  deriving DecidableEq

namespace SkillRemoval

/-- `if value:` of a text that may be missing. -/
def given (value : Option CodePoints) : Option CodePoints := value.filter (· ≠ [])

/-- `name.lower() == "skill.md"`. Outside ASCII only the Kelvin sign has an ASCII letter for its
lower case. -/
def isSkillMd (name : Name) : Bool :=
  name.map (fun c => if c = 0x212A then 107 else asciiLower c) = text "skill.md"

/-- `_normalize_skill_name`, none where it raises. -/
def normalizeSkillName (name : CodePoints) : Option CodePoints :=
  let normalized := RuntimeSkills.strip name
  if normalized = [] ∨ normalized = [46] ∨ normalized = dotdot ∨ 92 ∈ normalized ∨ 47 ∈ normalized
  then none else some normalized

def removePath (files : SkillFiles) (target : PosixPath) : Option Removal :=
  if files.isSymlink target ∨ files.isFile target then some (.unlink target)
  else if files.isPresent target then some (.rmtree target) else none

section

variable (host : SkillHost)

def expandUser (target : PosixPath) : Option PosixPath :=
  match target.parts with
  | first :: rest =>
    if target.root = 0 ∧ first.head? = some 126 then (host.expandHome first).map (·.below rest)
    else some target
  | [] => some target

def normalizeDeleteTarget (target : PosixPath) : Option PosixPath :=
  (expandUser host target).map fun candidate =>
    PosixPath.absolute host.cwd (if isSkillMd candidate.name then candidate.parent else candidate)

def workspaceSkillsDir (agentId : Option CodePoints) : Option PosixPath :=
  match given agentId with
  | some id => (host.workspacePath id).map (·.below [text "skills"])
  | none => some (host.home.below [text ".openclaw", text "skills"])

/-- `_get_profile_plugin_skills_dir` of an agent. -/
def profilePluginSkillsDir (id : CodePoints) : PosixPath :=
  (host.home.join (parse (text ".openclaw-" ++ id))).below [text "plugin-skills"]

def allowedDeleteBases (agentId source : Option CodePoints) : Option (List PosixPath) :=
  if source = some (text "agents-skills-personal") then
    some [host.home.below [text ".agents", text "skills"]]
  else if source = some (text "openclaw-extra") then
    some ((given agentId).map (profilePluginSkillsDir host)).toList
  else match given agentId with
    | some id => (host.workspacePath id).map fun root => [root.below [text "skills"]]
    | none => some []

def throughLink (files : SkillFiles) (base : PosixPath) (parts : List Name) : Bool :=
  (List.range parts.length).any (fun i => files.isSymlink (base.below (parts.take (i + 1)))) ||
    files.isSymlink (base.below parts)

/-- The loop of `_validate_path_under_allowed_bases`, with the normalised target. -/
def validateLoop (files : SkillFiles) (resolved : PosixPath) : List PosixPath → Option PosixPath
  | [] => none
  | base :: bases =>
    (normalizeDeleteTarget host base).bind fun base =>
      match resolved.relativeTo base with
      | none => validateLoop files resolved bases
      | some parts => if throughLink files base parts then none else some resolved

def validatePath (files : SkillFiles) (target : PosixPath) (agentId source : Option CodePoints) :
    Option PosixPath :=
  (normalizeDeleteTarget host target).bind fun resolved =>
    (allowedDeleteBases host agentId source).bind (validateLoop host files resolved)

def guessSource (resolved : PosixPath) (agentId : Option CodePoints) :
    List CodePoints → Option (Option CodePoints)
  | [] => some none
  | source :: sources =>
    (allowedDeleteBases host agentId (some source)).bind fun bases =>
      (bases.mapM (normalizeDeleteTarget host)).bind fun bases =>
        if bases.any fun base => (resolved.relativeTo base).isSome then some (some source)
        else guessSource resolved agentId sources

def resolveRuntimeSource (sourcePath : PosixPath) (agentId runtimeSource : Option CodePoints) :
    Option (Option CodePoints) :=
  match given runtimeSource with
  | some source => some (some source)
  | none =>
    (normalizeDeleteTarget host sourcePath).bind fun resolved =>
      guessSource host resolved agentId
        [text "openclaw-workspace", text "openclaw-extra", text "agents-skills-personal"]

/-- `uninstall_skill` up to the check of the path. A skill of wittyhub is left to its command. -/
def uninstallPlan (call : UninstallCall) : Option UninstallPlan :=
  (normalizeSkillName call.skillName).bind fun name =>
    if call.sourceType = some (text "builtin") then
      (given call.sourcePath).bind fun path =>
        (resolveRuntimeSource host (parse path) call.agentId call.runtimeSource).bind fun source =>
          if source = some (text "openclaw-bundled") then none else some (.delete (parse path) source)
    else if call.sourceType = some (text "wittyhub") then some .nothing
    else (workspaceSkillsDir host call.agentId).map fun dir => .delete (dir.join (parse name)) none

/-- `uninstall_skill`: none where it raises, and else what it deletes itself. -/
def uninstallSkill (files : SkillFiles) (call : UninstallCall) : Option (Option Removal) :=
  (uninstallPlan host call).bind fun
    | .nothing => some none
    | .delete target source =>
      (validatePath host files target call.agentId source).map (removePath files)

end

end SkillRemoval

def Removal.target : Removal → PosixPath
  | unlink target => target
  | rmtree target => target

def Removal.Reaches : Removal → PosixPath → Prop
  | unlink target, q => q = target
  | rmtree target, q => ∃ parts, q = target.below parts

namespace SkillRemoval

variable {host : SkillHost} {files : SkillFiles} {call : UninstallCall} {removal : Removal}
  {target resolved : PosixPath} {source : Option CodePoints}

/-- The directories that are allowed for the source of a call, normalised. -/
def Allowed (host : SkillHost) (call : UninstallCall) (dir : PosixPath) : Prop :=
  ∃ target source bases, uninstallPlan host call = some (.delete target source) ∧
    allowedDeleteBases host call.agentId source = some bases ∧
    ∃ base ∈ bases, normalizeDeleteTarget host base = some dir

/-- All that is deleted is strictly below an allowed directory, none is one, and no link leads from
the directory to it. -/
structure Confined (host : SkillHost) (files : SkillFiles) (call : UninstallCall)
    (removal : Removal) : Prop where
  below : ∀ q, removal.Reaches q → ∃ dir parts, Allowed host call dir ∧ parts ≠ [] ∧
    q = dir.below parts
  apart : ∀ q, removal.Reaches q → ¬ Allowed host call q
  unlinked : ∃ dir parts, Allowed host call dir ∧ removal.target = dir.below parts ∧
    ∀ front, front ≠ [] → front <+: parts → files.isSymlink (dir.below front) = false

/-- The call asks for an allowed directory itself, which is there and is no link. -/
def AsksForBase (host : SkillHost) (files : SkillFiles) (call : UninstallCall) : Prop :=
  ∃ target source dir, uninstallPlan host call = some (.delete target source) ∧
    Allowed host call dir ∧ normalizeDeleteTarget host target = some dir ∧
    files.isSymlink dir = false ∧ (removePath files dir).isSome

variable {bases : List PosixPath}

theorem length_allowedDeleteBases {agentId : Option CodePoints}
    (h : allowedDeleteBases host agentId source = some bases) : bases.length ≤ 1 := by
  unfold allowedDeleteBases at h
  split_ifs at h
  · cases h
    exact Nat.le_refl 1
  · cases h
    cases given agentId with
    | none => exact Nat.zero_le 1
    | some id => exact Nat.le_refl 1
  · split at h
    · obtain ⟨root, -, rfl⟩ := Option.map_eq_some_iff.mp h
      exact Nat.le_refl 1
    · cases h
      exact Nat.zero_le 1

theorem Allowed.unique {dir dir' : PosixPath} (h : Allowed host call dir)
    (h' : Allowed host call dir') : dir = dir' := by
  obtain ⟨target, source, bases, hplan, hbases, base, hbase, hdir⟩ := h
  obtain ⟨target', source', bases', hplan', hbases', base', hbase', hdir'⟩ := h'
  rw [hplan] at hplan'
  cases hplan'
  rw [hbases] at hbases'
  cases hbases'
  obtain ⟨only, rfl⟩ := List.length_eq_one_iff.mp
    (Nat.le_antisymm (length_allowedDeleteBases hbases) (List.length_pos_of_mem hbase))
  rw [List.mem_singleton.mp hbase] at hdir
  rw [List.mem_singleton.mp hbase', hdir] at hdir'
  exact Option.some.inj hdir'

theorem throughLink_eq_false {base : PosixPath} {parts front : List Name}
    (h : throughLink files base parts = false) (hne : front ≠ []) (hfront : front <+: parts) :
    files.isSymlink (base.below front) = false := by
  have hpos := List.length_pos_iff.mpr hne
  have hle := hfront.length_le
  have hany := (Bool.or_eq_false_iff.mp h).1
  rw [List.any_eq_false] at hany
  have hlink := hany (front.length - 1) (List.mem_range.mpr (by omega))
  rw [Nat.sub_add_cancel hpos, ← List.prefix_iff_eq_take.mp hfront] at hlink
  exact Bool.eq_false_iff.mpr hlink

theorem validateLoop_eq_some {dst : PosixPath}
    (h : validateLoop host files resolved bases = some dst) : dst = resolved ∧
      ∃ base ∈ bases, ∃ dir parts, normalizeDeleteTarget host base = some dir ∧
        resolved = dir.below parts ∧ throughLink files dir parts = false := by
  induction bases with
  | nil => cases h
  | cons base bases ih =>
    obtain ⟨dir, hdir, hloop⟩ := Option.bind_eq_some_iff.mp h
    cases hparts : resolved.relativeTo dir with
    | none =>
      rw [hparts] at hloop
      obtain ⟨hdst, base', hbase', hrest⟩ := ih hloop
      exact ⟨hdst, base', List.mem_cons_of_mem _ hbase', hrest⟩
    | some parts =>
      rw [hparts] at hloop
      dsimp only at hloop
      split at hloop
      · cases hloop
      · next hlink =>
        cases hloop
        exact ⟨rfl, base, List.mem_cons_self, dir, parts, hdir,
          PosixPath.relativeTo_eq_some.mp hparts, Bool.eq_false_iff.mpr hlink⟩

theorem uninstallSkill_eq_some (h : uninstallSkill host files call = some (some removal)) :
    ∃ target source dir parts, uninstallPlan host call = some (.delete target source) ∧
      Allowed host call dir ∧ normalizeDeleteTarget host target = some (dir.below parts) ∧
      throughLink files dir parts = false ∧ removePath files (dir.below parts) = some removal := by
  obtain ⟨plan, hplan, hdelete⟩ := Option.bind_eq_some_iff.mp h
  cases plan with
  | nothing => cases hdelete
  | delete target source =>
    obtain ⟨dst, hdst, hremove⟩ := Option.map_eq_some_iff.mp hdelete
    obtain ⟨resolved, hresolved, hvalid⟩ := Option.bind_eq_some_iff.mp hdst
    obtain ⟨bases, hbases, hloop⟩ := Option.bind_eq_some_iff.mp hvalid
    obtain ⟨rfl, base, hbase, dir, parts, hdir, rfl, hlink⟩ := validateLoop_eq_some hloop
    exact ⟨target, source, dir, parts, hplan, ⟨target, source, bases, hplan, hbases, base, hbase,
      hdir⟩, hresolved, hlink, hremove⟩

theorem target_of_removePath (h : removePath files target = some removal) :
    removal.target = target := by
  unfold removePath at h
  split_ifs at h
  · cases h
    rfl
  · cases h
    rfl

theorem Removal.reaches_below {q : PosixPath} (h : removal.Reaches q) :
    ∃ parts, q = removal.target.below parts := by
  cases removal with
  | unlink target => exact ⟨[], h.trans PosixPath.below_nil.symm⟩
  | rmtree target => exact h

theorem Removal.reaches_target (removal : Removal) : removal.Reaches removal.target := by
  cases removal with
  | unlink target => exact rfl
  | rmtree target => exact ⟨[], PosixPath.below_nil.symm⟩

/-- Whatever a call deletes itself is confined to the allowed directories exactly when it does not
ask for one of them itself. -/
theorem uninstall_confined_iff (host : SkillHost) (files : SkillFiles) (call : UninstallCall) :
    (∀ removal, uninstallSkill host files call = some (some removal) →
      Confined host files call removal) ↔ ¬ AsksForBase host files call := by
  constructor
  · rintro h ⟨target, source, dir, hplan, hallowed, htarget, hlink, hpresent⟩
    obtain ⟨removal, hremoval⟩ := Option.isSome_iff_exists.mp hpresent
    have hvalid : validatePath host files target call.agentId source = some dir := by
      obtain ⟨_, _, bases, hplan', hbases, base, hbase, hdir⟩ := hallowed
      rw [hplan] at hplan'
      cases hplan'
      obtain ⟨only, rfl⟩ := List.length_eq_one_iff.mp
        (Nat.le_antisymm (length_allowedDeleteBases hbases) (List.length_pos_of_mem hbase))
      rw [List.mem_singleton.mp hbase] at hdir
      have hparts : dir.relativeTo dir = some [] :=
        PosixPath.relativeTo_eq_some.mpr PosixPath.below_nil.symm
      have hthrough : throughLink files dir [] = false := by
        rw [throughLink, PosixPath.below_nil, hlink]
        rfl
      rw [validatePath, htarget, Option.bind_some, hbases, Option.bind_some, validateLoop, hdir,
        Option.bind_some, hparts]
      dsimp only
      rw [hthrough]
      rfl
    have hdelete : uninstallSkill host files call = some (some removal) := by
      rw [uninstallSkill, hplan, Option.bind_some]
      dsimp only
      rw [hvalid, Option.map_some, hremoval]
    have hreaches := Removal.reaches_target removal
    rw [target_of_removePath hremoval] at hreaches
    exact (h removal hdelete).apart dir hreaches hallowed
  · intro h removal hremoval
    obtain ⟨target, source, dir, parts, hplan, hallowed, htarget, hlink, hremove⟩ :=
      uninstallSkill_eq_some hremoval
    have hdst := target_of_removePath hremove
    have hne : parts ≠ [] := by
      rintro rfl
      rw [PosixPath.below_nil] at htarget hremove
      rw [throughLink, PosixPath.below_nil] at hlink
      exact h ⟨target, source, dir, hplan, hallowed, htarget, (Bool.or_eq_false_iff.mp hlink).2,
        Option.isSome_iff_exists.mpr ⟨removal, hremove⟩⟩
    have hbelow : ∀ q, removal.Reaches q → ∃ more, q = dir.below (parts ++ more) := by
      intro q hq
      obtain ⟨more, rfl⟩ := Removal.reaches_below hq
      exact ⟨more, by rw [hdst, PosixPath.below_below]⟩
    have hne' : ∀ more, parts ++ more ≠ [] := fun more hnil =>
      hne (List.append_eq_nil_iff.mp hnil).1
    refine ⟨fun q hq => ?_, fun q hq hq' => ?_, dir, parts, hallowed, hdst,
      fun front hfront hprefix => throughLink_eq_false hlink hfront hprefix⟩
    · obtain ⟨more, rfl⟩ := hbelow q hq
      exact ⟨dir, parts ++ more, hallowed, hne' more, rfl⟩
    · obtain ⟨more, rfl⟩ := hbelow q hq
      have hsame := (hallowed.unique hq').trans rfl
      have hroot : dir.below [] = dir := PosixPath.below_nil
      rw [← hroot, PosixPath.below_below] at hsame
      exact hne' more (PosixPath.below_inj.mp hsame).symm

def sampleHost : SkillHost where
  cwd := parse (text "/srv")
  home := parse (text "/root")
  expandHome _ := none
  workspacePath id := some ((parse (text "/w")).join (parse id))

def sampleFiles : SkillFiles where
  isSymlink _ := false
  isFile _ := false
  isPresent p := p = parse (text "/w/a/skills")

def namedSkillMd : UninstallCall where
  agentId := some (text "a")
  skillName := text "SKILL.md"
  sourceType := none
  sourcePath := none
  runtimeSource := none

/-- All skills of the agent are deleted. -/
theorem namedSkillMd_not_confined : ¬ ∀ removal,
    uninstallSkill sampleHost sampleFiles namedSkillMd = some (some removal) →
      Confined sampleHost sampleFiles namedSkillMd removal := by
  intro h
  have hdelete : uninstallSkill sampleHost sampleFiles namedSkillMd =
      some (some (.rmtree (parse (text "/w/a/skills")))) := by decide +kernel
  refine (h _ hdelete).apart _ (Removal.reaches_target _) ?_
  exact ⟨_, _, _, rfl, rfl, _, List.mem_singleton_self _, by decide +kernel⟩

end SkillRemoval

end WittyService
