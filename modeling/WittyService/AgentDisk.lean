import Mathlib.Logic.Function.Basic

/-! What the service keeps on disk for one agent and how the workspace store removes it. A
step that raises leaves the disk as far as it got and ends the steps after it. -/
namespace WittyService

/-- What a step raises: a `DomainError`, or another exception with its text. -/
inductive Raised where
  | domain (code message : String)
  | other (text : String)
  deriving DecidableEq, Repr

/-- `<root>/agent-workspaces/<id>` with the workspace in it, `<root>/opencode-instances/<id>`,
`<root>/dsh-instances/<id>` and `~/.openclaw-<id>`. -/
inductive AgentDir where
  | agentRoot
  | opencodeInstance
  | dshInstance
  | openclawProfile
  deriving DecidableEq, Repr

abbrev AgentDisk := AgentDir → Option (List String)

/-- How `shutil.rmtree` ends: an error leaves the entries that `left` selects. -/
inductive Rmtree where
  | removed
  | raised (error : Raised) (left : String → Bool)

/-- `lookup` is what raises before the removal of a directory starts: the check of the agent
id, resolving its path and `exists()`. -/
structure DiskFaults where
  lookup : AgentDir → Option Raised
  rmtree : AgentDir → Rmtree

abbrev DiskStep := AgentDisk → AgentDisk × Option Raised

def DiskStep.andThen (step next : DiskStep) : DiskStep := fun disk =>
  match step disk with
  | (disk', none) => next disk'
  | (disk', some error) => (disk', some error)

def DiskFaults.removeDir (f : DiskFaults) (ignoreErrors : Bool) (d : AgentDir) : DiskStep :=
  fun disk =>
    match f.lookup d, disk d with
    | some error, _ => (disk, some error)
    | none, none => (disk, none)
    | none, some entries =>
      match f.rmtree d with
      | .removed => (Function.update disk d none, none)
      | .raised error left =>
        (Function.update disk d (some (entries.filter left)),
          if ignoreErrors then none else some error)

def runtimeInstanceDirs : List AgentDir := [.opencodeInstance, .dshInstance]

namespace DiskFaults

variable (f : DiskFaults)

def cleanupWorkspace : DiskStep := f.removeDir false .agentRoot

def cleanupRuntimeInstances : DiskStep :=
  runtimeInstanceDirs.foldr (fun d next => (f.removeDir false d).andThen next)
    fun disk => (disk, none)

def cleanupOpenclawProfile : DiskStep := f.removeDir true .openclawProfile

def cleanupAgentDisk : DiskStep :=
  f.cleanupWorkspace.andThen (f.cleanupRuntimeInstances.andThen f.cleanupOpenclawProfile)

/-- The removal of a directory fails before anything of it is gone. -/
def Resists (d : AgentDir) (entries : List String) : Prop :=
  ∃ error left, f.rmtree d = .raised error left ∧ ∀ entry ∈ entries, left entry = true

/-- Of the directories, in the order of their removal, none exists, or the first that exists
resists its removal; a directory that cannot be looked up ends the removals. -/
def Spares (disk : AgentDisk) : List AgentDir → Prop
  | [] => True
  | d :: rest =>
    f.lookup d = none →
      match disk d with
      | none => Spares disk rest
      | some entries => f.Resists d entries

/-- The order in which `_cleanup_agent_disk` removes the directories. -/
def removalOrder : List AgentDir :=
  [.agentRoot, .opencodeInstance, .dshInstance, .openclawProfile]

end DiskFaults

namespace DiskFaults

variable {f : DiskFaults} {disk : AgentDisk} {d : AgentDir} {ignoreErrors : Bool}

theorem removeDir_elsewhere {d' : AgentDir} (hd : d' ≠ d) :
    (f.removeDir ignoreErrors d disk).1 d' = disk d' := by
  unfold removeDir
  split
  · rfl
  · rfl
  · split
    · exact Function.update_of_ne hd _ _
    · exact Function.update_of_ne hd _ _

theorem removeDir_lookup {error : Raised} (hd : f.lookup d = some error) :
    f.removeDir ignoreErrors d disk = (disk, some error) := by
  simp only [removeDir, hd]

theorem removeDir_absent (hl : f.lookup d = none) (hd : disk d = none) :
    f.removeDir ignoreErrors d disk = (disk, none) := by
  simp only [removeDir, hl, hd]

section

variable {entries : List String} (hl : f.lookup d = none) (hd : disk d = some entries)
include hl hd

theorem removeDir_kept_iff :
    (f.removeDir ignoreErrors d disk).1 d = disk d ↔ f.Resists d entries := by
  simp only [removeDir, hl, hd, Resists]
  cases hr : f.rmtree d with
  | removed => simp
  | raised error left =>
    simp only [Function.update_self, Option.some.injEq, List.filter_eq_self]
    constructor
    · intro h
      exact ⟨error, left, rfl, h⟩
    · rintro ⟨error', left', heq, h⟩
      cases heq
      exact h

theorem removeDir_changes (hok : (f.removeDir false d disk).2 = none) :
    (f.removeDir false d disk).1 d ≠ disk d := by
  simp only [removeDir, hl, hd] at hok ⊢
  cases hr : f.rmtree d with
  | removed => simp
  | raised error left => simp [hr] at hok

end

end DiskFaults

namespace DiskStep

variable {p q : DiskStep} {disk : AgentDisk}

theorem andThen_raised {error : Raised} (h : (p disk).2 = some error) :
    (p.andThen q) disk = p disk := by
  unfold andThen
  split
  · next heq => simp [heq] at h
  · next heq => exact heq.symm

theorem andThen_ok (h : (p disk).2 = none) : (p.andThen q) disk = q (p disk).1 := by
  unfold andThen
  split
  · next heq => rw [heq]
  · next heq => simp [heq] at h

end DiskStep

namespace DiskFaults

variable {f : DiskFaults} {disk : AgentDisk}

theorem andThen_keeps_iff {d : AgentDir} {rest : List AgentDir} {next : DiskStep}
    (helsewhere : ∀ disk, (next disk).1 d = disk d)
    (hnext : (next disk).1 = disk ↔ f.Spares disk rest) :
    (((f.removeDir false d).andThen next) disk).1 = disk ↔ f.Spares disk (d :: rest) := by
  cases hl : f.lookup d with
  | some error =>
    have hraised : f.removeDir false d disk = (disk, some error) := removeDir_lookup hl
    rw [DiskStep.andThen_raised (by rw [hraised]), hraised]
    simp [Spares, hl]
  | none =>
    simp only [Spares, hl, forall_true_left]
    cases hd : disk d with
    | none =>
      have habsent : f.removeDir false d disk = (disk, none) := removeDir_absent hl hd
      rw [DiskStep.andThen_ok (by rw [habsent]), habsent]
      exact hnext
    | some entries =>
      change _ ↔ f.Resists d entries
      rw [← removeDir_kept_iff hl hd]
      cases hok : (f.removeDir false d disk).2 with
      | some error =>
        rw [DiskStep.andThen_raised hok]
        constructor
        · intro h
          rw [h]
        · intro h
          funext d'
          by_cases hd' : d' = d
          · rw [hd', h]
          · exact removeDir_elsewhere hd'
      | none =>
        have hchanged := removeDir_changes hl hd hok
        rw [DiskStep.andThen_ok hok]
        constructor
        · intro h
          have hkept := helsewhere (f.removeDir false d disk).1
          rw [h] at hkept
          exact absurd hkept.symm hchanged
        · intro h
          exact absurd h hchanged

theorem cleanupOpenclawProfile_keeps_iff :
    (f.cleanupOpenclawProfile disk).1 = disk ↔ f.Spares disk [.openclawProfile] := by
  have helsewhere {d' : AgentDir} (hd' : d' ≠ .openclawProfile) :
      (f.cleanupOpenclawProfile disk).1 d' = disk d' := removeDir_elsewhere hd'
  have hkept : (f.cleanupOpenclawProfile disk).1 = disk ↔
      (f.cleanupOpenclawProfile disk).1 .openclawProfile = disk .openclawProfile := by
    constructor
    · intro h
      rw [h]
    · intro h
      funext d'
      by_cases hd' : d' = .openclawProfile
      · rw [hd', h]
      · exact helsewhere hd'
  rw [hkept]
  cases hl : f.lookup .openclawProfile with
  | some error => simp [cleanupOpenclawProfile, removeDir_lookup hl, Spares, hl]
  | none =>
    cases hd : disk .openclawProfile with
    | none => simp [cleanupOpenclawProfile, removeDir_absent hl hd, Spares, hl, hd]
    | some entries =>
      rw [cleanupOpenclawProfile, ← hd, removeDir_kept_iff hl hd]
      simp [Spares, hl, hd]

theorem cleanupAgentDisk_keeps_iff :
    (f.cleanupAgentDisk disk).1 = disk ↔ f.Spares disk removalOrder := by
  have hassoc : f.cleanupAgentDisk = (f.removeDir false .agentRoot).andThen
      ((f.removeDir false .opencodeInstance).andThen
        ((f.removeDir false .dshInstance).andThen f.cleanupOpenclawProfile)) := by
    funext disk
    simp only [cleanupAgentDisk, cleanupWorkspace, cleanupRuntimeInstances, runtimeInstanceDirs,
      List.foldr_cons, List.foldr_nil, DiskStep.andThen]
    grind
  have hprofile {d : AgentDir} (hd : d ≠ .openclawProfile) (disk : AgentDisk) :
      (f.cleanupOpenclawProfile disk).1 d = disk d := removeDir_elsewhere hd
  have hstep {d d' : AgentDir} {next : DiskStep} (hd : d ≠ d')
      (hnext : ∀ disk, (next disk).1 d = disk d) (disk : AgentDisk) :
      (((f.removeDir false d').andThen next) disk).1 d = disk d := by
    cases hr : (f.removeDir false d' disk).2 with
    | some error => rw [DiskStep.andThen_raised hr, removeDir_elsewhere hd]
    | none => rw [DiskStep.andThen_ok hr, hnext, removeDir_elsewhere hd]
  rw [hassoc]
  refine andThen_keeps_iff (hstep (by decide) (hstep (by decide) (hprofile (by decide)))) ?_
  refine andThen_keeps_iff (hstep (by decide) (hprofile (by decide))) ?_
  exact andThen_keeps_iff (hprofile (by decide)) cleanupOpenclawProfile_keeps_iff

end DiskFaults

end WittyService
