import WittyService.AgentDeletion

/-! The process trees of the local process backend. Each sandbox is the leader of a process
group of its own; what it starts stays in the group. -/
namespace WittyService

/-- An agent server. A child of the service that exits is a zombie until it is waited for;
one that outlived an earlier service is reaped when it exits. -/
inductive Leader where
  | running
  | zombie
  | reaped
  deriving DecidableEq, Repr

/-- `members` says that the group has a living process beside its leader. -/
structure ProcessTree where
  leader : Leader
  members : Bool
  deriving DecidableEq, Repr

def ProcessTree.alive (t : ProcessTree) : Bool := t.leader == .running || t.members

/-- Whether the leader and the rest of the group exit on the signals before the timeouts. -/
structure Signals where
  leaderExits : Bool
  membersExit : Bool
  deriving DecidableEq, Repr

def sandboxStopFailed : Raised :=
  .domain "SANDBOX_STOP_FAILED" "Local process sandbox survived stop signals."

/-- `process.wait` after the last signal. -/
def timeoutExpired : Raised := .other "TimeoutExpired"

namespace ProcessTree

variable (t : ProcessTree) (signals : Signals)

/-- `_verified_process_group`: `/proc` has the leader, with the start time of the handle. -/
def verifiedProcessGroup : Bool := t.leader != .reaped

def reapProcessGroup : ProcessTree × Option Raised :=
  let left : ProcessTree := {
    leader := if t.leader = .running ∧ signals.leaderExits then .reaped else t.leader
    members := t.members && !signals.membersExit }
  (left, if left.alive then some sandboxStopFailed else none)

/-- `stop` for a process the backend started itself. The group is looked up before the
leader is waited for. -/
def stopTracked : ProcessTree × Option Raised :=
  match t.leader with
  | .running =>
    if signals.leaderExits then { t with leader := .reaped }.reapProcessGroup signals
    else ({ t with members := t.members && !signals.membersExit }, some timeoutExpired)
  | .zombie => { t with leader := .reaped }.reapProcessGroup signals
  -- no group to signal, and nothing to wait for
  | .reaped => (t, none)

def reapUntrackedSandbox : ProcessTree × Option Raised :=
  if t.verifiedProcessGroup then t.reapProcessGroup signals else (t, none)

end ProcessTree

/-- `_processes` says which sandboxes are children of this service. -/
structure LocalBackend where
  trees : Nat → ProcessTree
  processes : Nat → Bool
  next : Nat

namespace LocalBackend

variable (b : LocalBackend) (handle : Nat) (signals : Signals)

def stop : LocalBackend × Option Raised :=
  let result := if b.processes handle then (b.trees handle).stopTracked signals
    else (b.trees handle).reapUntrackedSandbox signals
  ({ b with trees := Function.update b.trees handle result.1 }, result.2)

def cleanup : LocalBackend × Option Raised :=
  match b.stop handle signals with
  | (b, some exc) => (b, some exc)
  | (b, none) => ({ b with processes := Function.update b.processes handle false }, none)

def stopPreviousSandbox : LocalBackend × Option Raised :=
  if b.processes handle then b.cleanup handle signals
  else
    let result := (b.trees handle).reapUntrackedSandbox signals
    ({ b with trees := Function.update b.trees handle result.1 }, result.2)

/-- The process that `start` leaves running. -/
def launch : LocalBackend where
  trees := Function.update b.trees b.next ⟨.running, false⟩
  processes := Function.update b.processes b.next true
  next := b.next + 1

def Alive : Prop := (b.trees handle).alive = true

end LocalBackend

namespace ProcessTree

variable {t : ProcessTree} {signals : Signals}

theorem reapProcessGroup_alive (h : (t.reapProcessGroup signals).1.alive = true) :
    t.alive = true := by
  simp only [reapProcessGroup, alive, Bool.or_eq_true, Bool.and_eq_true, beq_iff_eq] at h ⊢
  rcases h with h | h
  · left
    split_ifs at h with hexits
    exact h
  · exact .inr h.1

theorem reapProcessGroup_answer : (t.reapProcessGroup signals).2 =
    if (t.reapProcessGroup signals).1.alive then some sandboxStopFailed else none := rfl

theorem reapProcessGroup_stopped (h : (t.reapProcessGroup signals).2 = none) :
    (t.reapProcessGroup signals).1.alive = false := by
  rw [reapProcessGroup_answer] at h
  split_ifs at h with halive
  simpa using halive

variable {exc : Raised}

theorem reapProcessGroup_raises (h : (t.reapProcessGroup signals).2 = some exc) :
    exc.code ≠ some sandboxNotFound := by
  rw [reapProcessGroup_answer] at h
  split_ifs at h with halive
  cases h
  decide

theorem alive_of_reaped {members : Bool}
    (h : ({ leader := .reaped, members := members } : ProcessTree).alive = true) :
    members = true := by
  simpa [alive] using h

theorem stopTracked_alive (h : (t.stopTracked signals).1.alive = true) : t.alive = true := by
  obtain ⟨leader, members⟩ := t
  cases leader with
  | running => simp [alive]
  | zombie =>
    have hmembers : members = true := alive_of_reaped (reapProcessGroup_alive h)
    simp [alive, hmembers]
  | reaped => exact h

theorem stopTracked_left (h : (t.stopTracked signals).2 = none)
    (halive : (t.stopTracked signals).1.alive = true) :
    (t.stopTracked signals).1.leader = .reaped := by
  obtain ⟨leader, members⟩ := t
  cases leader with
  | running =>
    simp only [stopTracked] at h halive ⊢
    split_ifs at h halive ⊢ with hexits
    have hstopped := reapProcessGroup_stopped h
    exact absurd (hstopped.symm.trans halive) Bool.false_ne_true
  | zombie =>
    have hstopped := reapProcessGroup_stopped h
    exact absurd (hstopped.symm.trans halive) Bool.false_ne_true
  | reaped => rfl

theorem stopTracked_reaped (h : t.leader = .reaped) : t.stopTracked signals = (t, none) := by
  simp only [stopTracked, h]

theorem stopTracked_raises (h : (t.stopTracked signals).2 = some exc) :
    exc.code ≠ some sandboxNotFound := by
  obtain ⟨leader, members⟩ := t
  cases leader with
  | running =>
    simp only [stopTracked] at h
    split_ifs at h with hexits
    · exact reapProcessGroup_raises h
    · cases h
      decide
  | zombie => exact reapProcessGroup_raises h
  | reaped => cases h

theorem reapUntrackedSandbox_alive (h : (t.reapUntrackedSandbox signals).1.alive = true) :
    t.alive = true := by
  unfold reapUntrackedSandbox at h
  split_ifs at h with hverified
  · exact reapProcessGroup_alive h
  · exact h

theorem reapUntrackedSandbox_left (h : (t.reapUntrackedSandbox signals).2 = none)
    (halive : (t.reapUntrackedSandbox signals).1.alive = true) :
    (t.reapUntrackedSandbox signals).1.leader = .reaped := by
  unfold reapUntrackedSandbox at h halive ⊢
  split_ifs at h halive ⊢ with hverified
  · have hstopped := reapProcessGroup_stopped h
    rw [halive] at hstopped
    cases hstopped
  · simpa [verifiedProcessGroup] using hverified

theorem reapUntrackedSandbox_reaped (h : t.leader = .reaped) :
    t.reapUntrackedSandbox signals = (t, none) := by
  simp [reapUntrackedSandbox, verifiedProcessGroup, h]

theorem reapUntrackedSandbox_raises
    (h : (t.reapUntrackedSandbox signals).2 = some exc) : exc.code ≠ some sandboxNotFound := by
  unfold reapUntrackedSandbox at h
  split_ifs at h with hverified
  exact reapProcessGroup_raises h

end ProcessTree

namespace LocalBackend

variable {b : LocalBackend} {handle : Nat} {signals : Signals}

/-- A stop of the sandbox finds its processes, or there are none. Once the leader is reaped
nothing leads to the rest of its group. -/
def Reachable (b : LocalBackend) (handle : Nat) : Prop :=
  (b.trees handle).leader = .reaped → (b.trees handle).members = false

theorem dead_of_reachable (hreaped : (b.trees handle).leader = .reaped)
    (h : b.Reachable handle) : ¬ b.Alive handle := by
  simp [Alive, ProcessTree.alive, hreaped, h hreaped]

variable {h : Nat}

theorem alive_update {t : ProcessTree} (ht : t.alive = true → b.Alive handle)
    (halive : ({ b with trees := Function.update b.trees handle t } : LocalBackend).Alive h) :
    b.Alive h := by
  by_cases heq : h = handle
  · subst heq
    exact ht (by simpa [Alive] using halive)
  · simpa [Alive, heq] using halive

theorem stop_alive (halive : (b.stop handle signals).1.Alive h) : b.Alive h := by
  refine alive_update (fun ht => ?_) halive
  split_ifs at ht with htracked
  · exact ProcessTree.stopTracked_alive ht
  · exact ProcessTree.reapUntrackedSandbox_alive ht

theorem stop_left (hok : (b.stop handle signals).2 = none)
    (halive : (b.stop handle signals).1.Alive handle) :
    ((b.stop handle signals).1.trees handle).leader = .reaped := by
  simp only [stop, Alive, Function.update_self] at hok halive ⊢
  split_ifs at hok halive ⊢ with htracked
  · exact ProcessTree.stopTracked_left hok halive
  · exact ProcessTree.reapUntrackedSandbox_left hok halive

theorem stop_reaped (hreaped : (b.trees h).leader = .reaped) :
    ((b.stop handle signals).1.trees h).leader = .reaped := by
  by_cases heq : h = handle
  · subst heq
    simp only [stop, Function.update_self]
    split_ifs with htracked
    · rw [ProcessTree.stopTracked_reaped hreaped]
      exact hreaped
    · rw [ProcessTree.reapUntrackedSandbox_reaped hreaped]
      exact hreaped
  · simpa [stop, heq] using hreaped

theorem stop_raises {exc : Raised} (h : (b.stop handle signals).2 = some exc) :
    exc.code ≠ some sandboxNotFound := by
  simp only [stop] at h
  split_ifs at h with htracked
  · exact ProcessTree.stopTracked_raises h
  · exact ProcessTree.reapUntrackedSandbox_raises h

theorem cleanup_stop :
    (b.cleanup handle signals).1.trees = (b.stop handle signals).1.trees ∧
      (b.cleanup handle signals).2 = (b.stop handle signals).2 := by
  unfold cleanup
  split
  · next heq => simp [heq]
  · next heq => simp [heq]

theorem stopPreviousSandbox_stop :
    (b.stopPreviousSandbox handle signals).1.trees = (b.stop handle signals).1.trees ∧
      (b.stopPreviousSandbox handle signals).2 = (b.stop handle signals).2 := by
  unfold stopPreviousSandbox
  split_ifs with htracked
  · exact cleanup_stop
  · simp [stop, htracked]

theorem launch_alive (halive : b.launch.Alive h) : b.Alive h ∨ h = b.next := by
  by_cases heq : h = b.next
  · exact .inr heq
  · left
    simpa [launch, Alive, heq] using halive

end LocalBackend

end WittyService
