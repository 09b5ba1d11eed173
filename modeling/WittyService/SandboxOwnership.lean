import WittyService.SandboxLifecycle

/-! One sandbox for an agent: what overlapping pauses, resumes and deletions leave alive. -/
namespace WittyService

open GuardedRuns

namespace AgentLife

variable {s : AgentLife}

def recordedHandle (s : AgentLife) : Option Nat := s.record.map SandboxRecord.handle

def Quiet (s : AgentLife) : Prop := s.running = none ∧ s.awaiting = [] ∧ s.pauses = []

/-- At most one process tree is alive, the recorded one, and none of an agent that is gone. -/
structure OneSandbox (s : AgentLife) : Prop where
  unique : ∀ h h', s.backend.Alive h → s.backend.Alive h' → h = h'
  recorded : ∀ h, s.backend.Alive h → s.recordedHandle = some h
  deleted : s.agent = none → ∀ h, ¬ s.backend.Alive h

/-- The step is not one of these: a process is started for an agent that was deleted
meanwhile; a process is started, or the deletion of the record goes ahead, although the
recorded sandbox has lost its leader and other processes of its group live; a pause writes
the state it read before over that of a living sandbox. -/
def Undisturbed (s : AgentLife) : LifeAction → Prop
  | .loopStep chance =>
    match s.running with
    | some .launch => chance.staysUp = true → s.agent ≠ none ∧
        ∀ handle, s.recordedHandle = some handle → s.backend.Reachable handle
    | some (.decide errors) => errors.all isTolerableCleanupError = true →
        ∀ handle, s.recordedHandle = some handle → s.backend.Reachable handle
    | _ => True
  | .pauseStep k _ =>
    match s.pauses[k]? with
    | some (.saveState state) =>
      ∀ handle, s.recordedHandle = some handle → s.backend.Alive handle → handle = state.handle
    | _ => True
  | _ => True

structure Settled (s : AgentLife) : Prop where
  recorded : ∀ h, s.backend.Alive h → s.recordedHandle = some h
  deleted : s.agent = none → ∀ h, ¬ s.backend.Alive h

/-- After the stop of the previous sandbox only processes without their leader are left. -/
def Swept (s : AgentLife) : Prop :=
  ∀ h, s.backend.Alive h → (s.backend.trees h).leader = .reaped

/-- What holds before each statement of the coroutine that is running. From the launch of a
process to the save of its handle it is the only one alive. -/
def Holds (s : AgentLife) : Option LoopSection → Prop
  | some (.saveSandbox handle) => s.agent ≠ none ∧ ∀ h, s.backend.Alive h → h = handle
  | some (.saveGatewayPort state) => s.Settled ∧ ∀ h, s.backend.Alive h → h = state.handle
  | some (.stopPrevious previous) => s.Settled ∧ ∀ h, s.backend.Alive h → previous = some h
  | some (.stopSandbox handle _) => s.Settled ∧ ∀ h, s.backend.Alive h → h = handle
  | some (.decide errors) => s.Settled ∧ (errors.all isTolerableCleanupError = true → s.Swept)
  | some .launch => s.Settled ∧ s.Swept
  | some .deleteRow => s.Settled ∧ ∀ h, ¬ s.backend.Alive h
  | some .readUrl | some .readGatewayPort | some .readPrevious | some (.cleanupSandbox _)
  | none => s.Settled

def Sound (s : AgentLife) : Prop := s.Holds s.running

/-- `s'` came from `s` by a pause or by processes that exit: nothing new is alive, and the
living sandbox that was recorded still is. -/
structure Calmer (s s' : AgentLife) : Prop where
  alive : ∀ h, s'.backend.Alive h → s.backend.Alive h
  recorded : ∀ h, s.backend.Alive h → s.recordedHandle = some h → s'.recordedHandle = some h
  reaped : ∀ h, (s.backend.trees h).leader = .reaped → (s'.backend.trees h).leader = .reaped
  agent : s'.agent = none ↔ s.agent = none
  running : s'.running = s.running

namespace Calmer

variable {s' : AgentLife}

theorem settled (hc : s.Calmer s') (hs : s.Settled) : s'.Settled where
  recorded h halive := hc.recorded h (hc.alive h halive) (hs.recorded h (hc.alive h halive))
  deleted hagent h halive := hs.deleted (hc.agent.mp hagent) h (hc.alive h halive)

theorem swept (hc : s.Calmer s') (h : s.Swept) : s'.Swept :=
  fun k hk => hc.reaped k (h k (hc.alive k hk))

theorem holds (hc : s.Calmer s') {section_ : Option LoopSection} (h : s.Holds section_) :
    s'.Holds section_ := by
  cases section_ with
  | none => exact hc.settled h
  | some pc =>
    cases pc with
    | saveSandbox handle =>
      exact ⟨fun hagent => h.1 (hc.agent.mp hagent), fun k hk => h.2 k (hc.alive k hk)⟩
    | saveGatewayPort state | stopPrevious previous | stopSandbox handle errors | deleteRow =>
      exact ⟨hc.settled h.1, fun k hk => h.2 k (hc.alive k hk)⟩
    | decide errors => exact ⟨hc.settled h.1, fun hall => hc.swept (h.2 hall)⟩
    | launch => exact ⟨hc.settled h.1, hc.swept h.2⟩
    | readUrl | readGatewayPort | readPrevious | cleanupSandbox errors => exact hc.settled h

theorem sound (hc : s.Calmer s') (h : s.Sound) : s'.Sound := by
  rw [Sound, hc.running]
  exact hc.holds h

end Calmer

variable {s' : AgentLife}

theorem saveSandboxState_some {record : SandboxRecord} (h : s.saveSandboxState record = some s') :
    s.agent ≠ none ∧ s' = { s with record := some record } := by
  unfold saveSandboxState at h
  split_ifs at h with hagent
  cases h
  exact ⟨by simpa using hagent, rfl⟩

theorem settled_save (record : SandboxRecord) (hagent : s.agent ≠ none)
    (honly : ∀ h, s.backend.Alive h → h = record.handle) :
    ({ s with record := some record } : AgentLife).Settled where
  recorded h halive := by
    rw [honly h halive]
    rfl
  deleted hgone := absurd hgone hagent

theorem Settled.same (hs : s.Settled) (hagent : s'.agent = s.agent)
    (hrecord : s'.record = s.record) (hbackend : s'.backend = s.backend) : s'.Settled where
  recorded h halive := by
    rw [recordedHandle, hrecord]
    exact hs.recorded h (by rwa [hbackend] at halive)
  deleted hgone h := by
    rw [hbackend]
    exact hs.deleted (hagent.symm.trans hgone) h

theorem finish_sound (hs : s.Settled) : s.finish.Sound := hs.same rfl rfl rfl

theorem suspend_sound (hs : s.Settled) (await : Awaiting) : (s.suspend await).Sound :=
  hs.same rfl rfl rfl

theorem Settled.stopped (hs : s.Settled) {backend : LocalBackend}
    (halive : ∀ h, backend.Alive h → s.backend.Alive h) :
    ({ s with backend := backend } : AgentLife).Settled where
  recorded h hk := hs.recorded h (halive h hk)
  deleted hagent h hk := hs.deleted hagent h (halive h hk)

theorem Settled.empty (hnone : ∀ h, ¬ s.backend.Alive h) : s.Settled where
  recorded h halive := absurd halive (hnone h)
  deleted _ := hnone

theorem Settled.dead (hs : s.Settled) (hswept : s.Swept)
    (hreachable : ∀ handle, s.recordedHandle = some handle → s.backend.Reachable handle)
    (h : Nat) : ¬ s.backend.Alive h := by
  intro halive
  have hfound := hreachable h (hs.recorded h halive)
  exact LocalBackend.dead_of_reachable (hswept h halive) hfound halive

theorem Settled.none_recorded (hs : s.Settled) (hrecord : s.record = none) (h : Nat) :
    ¬ s.backend.Alive h := by
  intro halive
  have hrecorded := hs.recorded h halive
  rw [recordedHandle, hrecord] at hrecorded
  cases hrecorded

theorem startRuntime_sound (hs : s.Settled) : s.startRuntime.Sound := by
  unfold startRuntime
  split_ifs with hrecord
  · exact finish_sound hs
  · exact suspend_sound hs _

end AgentLife

namespace LocalBackend

variable {b b' : LocalBackend} {handle : Nat} {signals : Signals} {answer : Option Raised}

theorem alive_of_trees (h : b'.trees = b.trees) {k : Nat} : b'.Alive k ↔ b.Alive k := by
  rw [Alive, Alive, h]

theorem stopPreviousSandbox_spec (h : b.stopPreviousSandbox handle signals = (b', answer)) :
    (∀ k, b'.Alive k → b.Alive k) ∧
      (answer = none → b'.Alive handle → (b'.trees handle).leader = .reaped) := by
  obtain ⟨htrees, hanswer⟩ := @stopPreviousSandbox_stop b handle signals
  rw [h] at htrees hanswer
  constructor
  · intro k hk
    exact stop_alive ((alive_of_trees htrees).mp hk)
  · intro hok halive
    rw [htrees]
    exact stop_left (hanswer.symm.trans hok) ((alive_of_trees htrees).mp halive)

theorem cleanup_spec (h : b.cleanup handle signals = (b', answer)) :
    (∀ k, b'.Alive k → b.Alive k) ∧
      (answer = none → b'.Alive handle → (b'.trees handle).leader = .reaped) ∧
      ∀ exc, answer = some exc → exc.code ≠ some sandboxNotFound := by
  obtain ⟨htrees, hanswer⟩ := @cleanup_stop b handle signals
  rw [h] at htrees hanswer
  refine ⟨fun k hk => stop_alive ((alive_of_trees htrees).mp hk), ?_, ?_⟩
  · intro hok halive
    rw [htrees]
    exact stop_left (hanswer.symm.trans hok) ((alive_of_trees htrees).mp halive)
  · intro exc hexc
    exact stop_raises (hanswer.symm.trans hexc)

end LocalBackend

namespace AgentLife

variable {s : AgentLife}

theorem loopStep_sound {chance : Chance} {pc : LoopSection} (hrunning : s.running = some pc)
    (h : s.Holds (some pc)) (hu : s.Undisturbed (.loopStep chance)) :
    (s.loopStep chance pc).Sound := by
  simp only [Undisturbed, hrunning] at hu
  cases pc with
  | readUrl =>
    have hs : s.Settled := h
    simp only [loopStep]
    split
    · split_ifs with hurl
      · exact suspend_sound hs _
      · exact hs.same rfl rfl rfl
    · exact hs.same rfl rfl rfl
  | readGatewayPort =>
    have hs : s.Settled := h
    simp only [loopStep]
    split
    · next state hrecord =>
      split_ifs with hport
      · refine ⟨hs.same rfl rfl rfl, fun k hk => ?_⟩
        have hrecorded := hs.recorded k hk
        rw [recordedHandle, hrecord] at hrecorded
        exact (Option.some.inj hrecorded).symm
      · exact startRuntime_sound hs
    · exact startRuntime_sound hs
  | saveGatewayPort state =>
    obtain ⟨hs, honly⟩ := h
    simp only [loopStep]
    split
    · exact finish_sound hs
    · next s' hsave =>
      obtain ⟨hagent, rfl⟩ := saveSandboxState_some hsave
      exact startRuntime_sound (settled_save _ hagent honly)
  | readPrevious =>
    have hs : s.Settled := h
    exact ⟨hs.same rfl rfl rfl, hs.recorded⟩
  | stopPrevious previous =>
    obtain ⟨hs, hprevious⟩ := h
    cases previous with
    | none =>
      have hnone (k : Nat) : ¬ s.backend.Alive k := fun hk => nomatch hprevious k hk
      exact ⟨hs.same rfl rfl rfl, fun k hk => absurd hk (hnone k)⟩
    | some handle =>
      simp only [loopStep]
      split
      · next backend exc hstop =>
        exact finish_sound (hs.stopped (LocalBackend.stopPreviousSandbox_spec hstop).1)
      · next backend hstop =>
        obtain ⟨halive, hleft⟩ := LocalBackend.stopPreviousSandbox_spec hstop
        refine ⟨(hs.stopped halive).same rfl rfl rfl, fun k hk => ?_⟩
        obtain rfl : handle = k := Option.some.inj (hprevious k (halive k hk))
        exact hleft rfl hk
  | launch =>
    obtain ⟨hs, hswept⟩ := h
    simp only [loopStep]
    split_ifs with hup
    · obtain ⟨hagent, hreachable⟩ := hu hup
      refine ⟨hagent, fun k hk => ?_⟩
      obtain hold | hnew := LocalBackend.launch_alive hk
      · exact absurd hold (hs.dead hswept hreachable k)
      · exact hnew
    · exact finish_sound hs
  | saveSandbox handle =>
    obtain ⟨hagent, honly⟩ := h
    simp only [loopStep]
    split
    · next hrefused =>
      unfold saveSandboxState at hrefused
      split_ifs at hrefused with hgone
      exact absurd (by simpa using hgone) hagent
    · next s' hsave =>
      obtain ⟨-, rfl⟩ := saveSandboxState_some hsave
      exact suspend_sound (settled_save ⟨handle, true, true⟩ hagent honly) _
  | cleanupSandbox errors =>
    have hs : s.Settled := h
    simp only [loopStep]
    split
    · next hrecord =>
      exact ⟨hs.same rfl rfl rfl, fun _ k hk => absurd hk (hs.none_recorded hrecord k)⟩
    · next state hrecord =>
      refine ⟨hs.same rfl rfl rfl, fun k hk => ?_⟩
      have hrecorded := hs.recorded k hk
      rw [recordedHandle, hrecord] at hrecorded
      exact (Option.some.inj hrecorded).symm
  | stopSandbox handle errors =>
    obtain ⟨hs, honly⟩ := h
    simp only [loopStep]
    split
    · next backend exc hcleanup =>
      obtain ⟨halive, -, hraises⟩ := LocalBackend.cleanup_spec hcleanup
      have hs' := hs.stopped halive
      refine ⟨hs'.same rfl rfl rfl, fun hall => ?_⟩
      -- the error of a stop is never a tolerable one
      have hblocks := (sandboxCleanup_blocks_iff exc).mpr (hraises exc rfl)
      simp [hblocks] at hall
    · next backend hcleanup =>
      obtain ⟨halive, hleft, -⟩ := LocalBackend.cleanup_spec hcleanup
      refine ⟨(hs.stopped halive).same rfl rfl rfl, fun _ k hk => ?_⟩
      obtain rfl : k = handle := honly k (halive k hk)
      exact hleft rfl hk
  | decide errors =>
    obtain ⟨hs, hswept⟩ := h
    simp only [loopStep]
    split_ifs with hall hgone
    · exact finish_sound hs
    · have hnone := hs.dead (hswept hall) (hu hall)
      exact ⟨Settled.empty hnone, hnone⟩
    · exact finish_sound hs
  | deleteRow =>
    obtain ⟨hs, hnone⟩ := h
    exact Settled.empty hnone

theorem pauseStep_calmer {signals : Signals} {call : PauseCall}
    (hsave : ∀ state, call = .saveState state → ∀ handle, s.recordedHandle = some handle →
      s.backend.Alive handle → handle = state.handle) :
    s.Calmer (s.pauseStep signals call).1 := by
  have hsame : s.Calmer s := ⟨fun _ => id, fun _ _ => id, fun _ => id, Iff.rfl, rfl⟩
  cases call with
  | stopRuntime | readState => exact hsame
  | stopSandbox state =>
    simp only [pauseStep]
    have hc : s.Calmer { s with backend := (s.backend.stop state.handle signals).1 } :=
      ⟨fun _ => LocalBackend.stop_alive, fun _ _ => id, fun _ => LocalBackend.stop_reaped,
        Iff.rfl, rfl⟩
    split
    · next heq =>
      rw [heq] at hc
      exact hc
    · next heq =>
      rw [heq] at hc
      exact hc
  | saveState state =>
    simp only [pauseStep]
    split
    · exact hsame
    · next s' hsaved =>
      obtain ⟨-, rfl⟩ := saveSandboxState_some hsaved
      refine ⟨fun _ => id, fun handle halive hrecorded => ?_, fun _ => id, Iff.rfl, rfl⟩
      rw [hsave state rfl handle hrecorded halive]
      rfl
  | saveStatus => exact ⟨fun _ => id, fun _ _ => id, fun _ => id, Option.map_eq_none_iff, rfl⟩

theorem setTree_calmer {handle : Nat} {f : ProcessTree → ProcessTree}
    (hf : ∀ t, (f t).alive = true → t.alive = true)
    (hreaped : ∀ t, t.leader = .reaped → (f t).leader = .reaped) :
    s.Calmer (s.setTree handle f) where
  alive _ := LocalBackend.alive_update (hf _)
  recorded _ _ := id
  reaped h hh := by
    by_cases heq : h = handle
    · subst heq
      simpa [setTree] using hreaped _ hh
    · simpa [setTree, heq] using hh
  agent := Iff.rfl
  running := rfl

theorem pauseAgent_calmer : s.Calmer s.pauseAgent := by
  have hsame (pauses : List PauseCall) : s.Calmer { s with pauses := pauses } :=
    ⟨fun _ => id, fun _ _ => id, fun _ => id, Iff.rfl, rfl⟩
  unfold pauseAgent
  split
  · exact hsame s.pauses
  · split_ifs
    · exact hsame _
    · exact hsame s.pauses

section

variable (hrunning : s.running = none) (hs : s.Settled)
include hrunning hs

theorem resumeAgent_sound :
    s.resumeAgent.Sound := by
  have hidle : s.Sound := by rwa [Sound, hrunning]
  unfold resumeAgent
  split
  · exact hidle
  · exact hidle
  · exact hs.same rfl rfl rfl
  · exact hs.same rfl rfl rfl
  · exact hs.same rfl rfl rfl
  · exact hs.same rfl rfl rfl

theorem deleteAgent_sound :
    s.deleteAgent.Sound := by
  unfold deleteAgent
  split
  · rwa [Sound, hrunning]
  · next hrecord =>
    exact ⟨hs.same rfl rfl rfl, fun _ k hk => absurd hk (hs.none_recorded hrecord k)⟩
  · split_ifs
    · exact suspend_sound hs _
    · exact hs.same rfl rfl rfl

theorem resumeFrom_sound (raised : Option Raised) (await : Awaiting)
    : (s.resumeFrom raised await).Sound := by
  have hidle : s.Sound := by rwa [Sound, hrunning]
  cases await with
  | probe =>
    simp only [resumeFrom]
    split_ifs
    · exact hs.same rfl rfl rfl
    · exact hs.same rfl rfl rfl
  | health =>
    simp only [resumeFrom]
    split_ifs
    · exact startRuntime_sound hs
    · exact hidle
  | agentStart =>
    simp only [resumeFrom]
    split_ifs
    · have hc : s.Calmer (s.updateAgentStatus .running) :=
        ⟨fun _ => id, fun _ _ => id, fun _ => id, Option.map_eq_none_iff, rfl⟩
      exact hc.sound hidle
    · exact hidle
  | runtimeStop => exact hs.same rfl rfl rfl

end

end AgentLife

variable {t : ProcessTree} {s : AgentLife}

theorem LocalBackend.exitLeader_alive {b : LocalBackend} {handle : Nat}
    (h : (b.exitLeader handle t).alive = true) : t.alive = true := by
  unfold exitLeader at h
  split_ifs at h with hrunning htracked
  · simp [ProcessTree.alive, hrunning]
  · simp [ProcessTree.alive, hrunning]
  · exact h

theorem ProcessTree.startMember_alive (h : t.startMember.alive = true) :
    t.alive = true := by
  unfold startMember at h
  split_ifs at h with hrunning
  · simp [alive, hrunning]
  · exact h

open AgentLife

theorem lifeStep_sound {s' : AgentLife} {a : LifeAction} (h : s.Sound)
    (hu : s.Undisturbed a) (hstep : lifeStep s a = some s') : s'.Sound := by
  cases a with
  | pause =>
    cases hstep
    exact pauseAgent_calmer.sound h
  | resume =>
    simp only [lifeStep] at hstep
    split_ifs at hstep with hrunning
    cases hstep
    have hnone : s.running = none := by simpa using hrunning
    rw [Sound, hnone] at h
    exact resumeAgent_sound hnone h
  | delete =>
    simp only [lifeStep] at hstep
    split_ifs at hstep with hrunning
    cases hstep
    have hnone : s.running = none := by simpa using hrunning
    rw [Sound, hnone] at h
    exact deleteAgent_sound hnone h
  | pauseStep k signals =>
    simp only [lifeStep] at hstep
    cases hcall : s.pauses[k]? with
    | none => simp [hcall] at hstep
    | some call =>
      simp only [hcall, Option.some.injEq] at hstep
      subst hstep
      have hc : s.Calmer (s.pauseStep signals call).1 := by
        refine pauseStep_calmer fun state hsave handle hrecorded halive => ?_
        simp only [Undisturbed, hcall, hsave] at hu
        exact hu handle hrecorded halive
      refine Calmer.sound ⟨hc.alive, hc.recorded, hc.reaped, hc.agent, hc.running⟩ h
  | loopStep chance =>
    obtain ⟨pc, hpc, rfl⟩ := Option.map_eq_some_iff.mp hstep
    rw [Sound, hpc] at h
    exact loopStep_sound hpc h hu
  | wake k raised =>
    simp only [lifeStep] at hstep
    split at hstep
    · next await hnone hawait =>
      cases hstep
      rw [Sound, hnone] at h
      have hs : s.Settled := h
      have hs' : ({ s with awaiting := s.awaiting.eraseIdx k } : AgentLife).Settled :=
        hs.same rfl rfl rfl
      refine resumeFrom_sound ?_ hs' raised await
      exact hnone
    · cases hstep
  | leaderExits handle =>
    cases hstep
    refine (setTree_calmer (fun _ => LocalBackend.exitLeader_alive) fun t ht => ?_).sound h
    simp [LocalBackend.exitLeader, ht]
  | membersExit handle =>
    cases hstep
    refine (setTree_calmer (fun t ht => ?_) fun t ht => ?_).sound h
    · simp only [ProcessTree.alive, Bool.or_false] at ht
      simp [ProcessTree.alive, ht]
    · exact ht
  | memberStarts handle =>
    cases hstep
    refine (setTree_calmer (fun _ => ProcessTree.startMember_alive) fun t ht => ?_).sound h
    simp [ProcessTree.startMember, ht]

theorem oneSandbox_of_sound (h : s.Sound) (hrunning : s.running = none) :
    s.OneSandbox := by
  rw [Sound, hrunning] at h
  have hs : s.Settled := h
  refine ⟨fun k k' hk hk' => ?_, hs.recorded, hs.deleted⟩
  have hrecorded := hs.recorded k hk
  rw [hs.recorded k' hk'] at hrecorded
  exact (Option.some.inj hrecorded).symm

/-- In every undisturbed run, whenever no operation is in progress. -/
theorem one_sandbox_per_agent {s : AgentLife} {as : List LifeAction} (hquiet : s.Quiet)
    (hone : s.OneSandbox) (hu : Guarded lifeStep Undisturbed s as) :
    Always lifeStep (fun t => t.Quiet → t.OneSandbox) s as := by
  have hsound : s.Sound := by
    rw [Sound, hquiet.1]
    exact ⟨hone.recorded, hone.deleted⟩
  have hrun : Always lifeStep Sound s as :=
    always_of_guarded (fun _ _ _ => lifeStep_sound) hsound hu
  exact always_mono (fun t ht (hend : t.Quiet) => oneSandbox_of_sound ht hend.1) hrun

def pausedAgent : AgentLife where
  agent := some .paused
  record := some ⟨0, true, false⟩
  backend := ⟨fun _ => ⟨.reaped, false⟩, fun handle => handle == 0, 1⟩
  running := none
  awaiting := []
  pauses := []

theorem pausedAgent_one : pausedAgent.OneSandbox where
  unique _ _ h := nomatch h
  recorded _ h := nomatch h
  deleted h := nomatch h

def calm : Chance := ⟨⟨true, true⟩, true, false⟩

def plainResume : List LifeAction :=
  [.resume, .loopStep calm, .wake 0 (some timeoutExpired), .loopStep calm, .loopStep calm,
    .loopStep calm, .loopStep calm, .wake 0 none, .wake 0 none]

theorem plainResume_undisturbed : Guarded lifeStep Undisturbed pausedAgent plainResume := by
  refine fun _ heq => ⟨trivial, ?_⟩
  cases heq
  refine fun _ heq => ⟨trivial, ?_⟩
  cases heq
  refine fun _ heq => ⟨trivial, ?_⟩
  cases heq
  refine fun _ heq => ⟨trivial, ?_⟩
  cases heq
  refine fun _ heq => ⟨trivial, ?_⟩
  cases heq
  refine fun _ heq => ⟨fun _ => ⟨nofun, ?_⟩, ?_⟩
  · intro handle hrecorded
    cases hrecorded
    exact fun _ => rfl
  cases heq
  refine fun _ heq => ⟨trivial, ?_⟩
  cases heq
  refine fun _ heq => ⟨trivial, ?_⟩
  cases heq
  exact fun _ _ => ⟨trivial, trivial⟩

theorem plainResume_one :
    Always lifeStep (fun t => t.Quiet → t.OneSandbox) pausedAgent plainResume :=
  one_sandbox_per_agent ⟨rfl, rfl, rfl⟩ pausedAgent_one plainResume_undisturbed

/-- While a resume waits for its probe, the agent is deleted; the resume then starts a
sandbox for it and cannot save the handle. -/
def deletedWhileProbing : List LifeAction :=
  [.resume, .loopStep calm, .delete, .wake 1 none, .loopStep calm, .loopStep calm,
    .loopStep calm, .loopStep calm, .wake 0 (some timeoutExpired), .loopStep calm,
    .loopStep calm, .loopStep calm, .loopStep calm]

theorem deleted_agent_keeps_sandbox :
    ¬ ∀ s as, s.Quiet → s.OneSandbox → Always lifeStep (fun t => t.Quiet → t.OneSandbox) s as := by
  intro h
  have hlast : ∃ t, run lifeStep pausedAgent deletedWhileProbing = some t ∧ t.Quiet ∧
      t.agent = none ∧ t.backend.Alive 1 :=
    ⟨_, rfl, ⟨rfl, rfl, rfl⟩, rfl, rfl⟩
  obtain ⟨t, hrun, hend, hgone, halive⟩ := hlast
  have hone := always_last (h pausedAgent deletedWhileProbing ⟨rfl, rfl, rfl⟩ pausedAgent_one)
    hrun hend
  exact hone.deleted hgone 1 halive

end WittyService
