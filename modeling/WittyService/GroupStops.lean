import WittyService.SandboxGroup

/-! Stopping a local sandbox: when a call returns nothing of the group is left alive, and no other
process has been sent a signal, in the runs in which the leader can be identified while the rest of
its group lives. -/
namespace WittyService

open GuardedRuns

def StopPhase.verified : StopPhase → Bool
  | .poll verified | .signalLeader verified _ | .awaitLeader verified _ => verified
  | .signalGroup _ | .reapGroup _ | .probeGroup _ | .scanGroup _ => true
  | _ => false

namespace SandboxState

def NoneLive (table : List Process) : Prop := ∀ p ∈ table, p.inSandbox → p.state = .zombie

/-- The group with the id of the sandbox is the one that it was started as. -/
def Own (o : LocalSandbox) (table : List Process) : Prop :=
  ∀ p ∈ table, p.pgrp = o.metadata.pid → p.inSandbox

/-- What `stop` and `cleanup` promise. -/
structure TakenDown (s : SandboxState) : Prop where
  stopped : s.ended = some .returned → NoneLive s.table
  signalled : ∀ p ∈ s.signalled, p.inSandbox

/-- How the kernel lets the processes change. A pid is not given again while a process or a group
has it, and a later process with the pid has another start time. -/
structure KernelStep (o : LocalSandbox) (s : SandboxState) (table : List Process) : Prop where
  members : ∀ p ∈ table, p.inSandbox → p.pgrp = o.metadata.pid
  forked : NoneLive s.table → NoneLive table
  leader : s.reaped = false → (∃ p ∈ table, p.pid = o.metadata.pid) ∧
    ∀ p ∈ table, p.pid = o.metadata.pid → p.pgrp = o.metadata.pid ∧ p.startTime = o.startTime
  reused : s.reaped = true → ∀ p ∈ table, p.pid = o.metadata.pid → p.startTime ≠ o.startTime
  strangers : (∃ p ∈ s.table, p.pid = o.metadata.pid ∨ p.pgrp = o.metadata.pid) →
    Own o s.table → Own o table

def Kernel (o : LocalSandbox) (s : SandboxState) : SandboxAction → Prop
  | .env table => KernelStep o s table
  | _ => True

def Vacant (o : LocalSandbox) (table : List Process) : Prop :=
  ∀ p ∈ table, p.pid ≠ o.metadata.pid

/-- When a step of a call is right: the leader is identified while the group has a living process,
no other process has the pid when it is identified without its start time, and a scan finds a
living process if there is one. -/
def Sees (o : LocalSandbox) (s : SandboxState) (instant : Instant) : StopPhase → Prop
  | .readStat _ =>
    (o.metadata.processStartTime = none → s.reaped = true → Vacant o s.table) ∧
    (s.tracked = true → NoneLive s.table ∨ s.reaped = false ∧ o.metadata.pid ∉ instant.unread)
  | .readCmdline _ =>
    (s.reaped = true → Vacant o s.table) ∧
    (s.tracked = true → NoneLive s.table ∨ ∃ p ∈ s.entry o,
      p.pid ∉ instant.unread ∧ o.metadata.cmdlineVerdict p.readCmdline = true)
  | .scanGroup _ => NoneLive s.table ∨ instant.listed = true ∧
    ∃ p ∈ s.table, p.inSandbox ∧ p.state ≠ .zombie ∧ p.pid ∉ instant.unread
  | _ => True

/-- The condition on a step. Besides, no other process takes the id of the group over once it has
been verified. -/
def Fits (o : LocalSandbox) (s : SandboxState) : SandboxAction → Prop
  | .call _ _ => True
  | .env table => s.phase.verified = true →
    (∀ p ∈ s.table, p.pid ≠ o.metadata.pid ∧ p.pgrp ≠ o.metadata.pid) → Own o table
  | .tick instant => s.Sees o instant s.phase

section

variable (o : LocalSandbox) (s : SandboxState)

instance (table : List Process) : Decidable (NoneLive table) :=
  inferInstanceAs (Decidable (∀ p ∈ table, p.inSandbox → p.state = .zombie))

instance (table : List Process) : Decidable (Own o table) :=
  inferInstanceAs (Decidable (∀ p ∈ table, p.pgrp = o.metadata.pid → p.inSandbox))

instance (table : List Process) : Decidable (KernelStep o s table) :=
  decidable_of_iff
    ((∀ p ∈ table, p.inSandbox → p.pgrp = o.metadata.pid) ∧ (NoneLive s.table → NoneLive table) ∧
      (s.reaped = false → (∃ p ∈ table, p.pid = o.metadata.pid) ∧ ∀ p ∈ table,
        p.pid = o.metadata.pid → p.pgrp = o.metadata.pid ∧ p.startTime = o.startTime) ∧
      (s.reaped = true → ∀ p ∈ table, p.pid = o.metadata.pid → p.startTime ≠ o.startTime) ∧
      ((∃ p ∈ s.table, p.pid = o.metadata.pid ∨ p.pgrp = o.metadata.pid) →
        Own o s.table → Own o table))
    ⟨fun ⟨members, forked, leader, reused, strangers⟩ =>
        ⟨members, forked, leader, reused, strangers⟩,
      fun h => ⟨h.members, h.forked, h.leader, h.reused, h.strangers⟩⟩

instance : ∀ action, Decidable (Kernel o s action)
  | .env table => inferInstanceAs (Decidable (KernelStep o s table))
  | .call _ _ | .tick _ => .isTrue trivial

instance (table : List Process) : Decidable (Vacant o table) :=
  inferInstanceAs (Decidable (∀ p ∈ table, p.pid ≠ o.metadata.pid))

instance (instant : Instant) : ∀ phase, Decidable (Sees o s instant phase)
  | .readStat _ => inferInstanceAs (Decidable
    ((o.metadata.processStartTime = none → s.reaped = true → Vacant o s.table) ∧
      (s.tracked = true → NoneLive s.table ∨ s.reaped = false ∧ o.metadata.pid ∉ instant.unread)))
  | .readCmdline _ => inferInstanceAs (Decidable ((s.reaped = true → Vacant o s.table) ∧
      (s.tracked = true → NoneLive s.table ∨ ∃ p ∈ s.entry o,
        p.pid ∉ instant.unread ∧ o.metadata.cmdlineVerdict p.readCmdline = true)))
  | .scanGroup _ => inferInstanceAs (Decidable (NoneLive s.table ∨ instant.listed = true ∧
      ∃ p ∈ s.table, p.inSandbox ∧ p.state ≠ .zombie ∧ p.pid ∉ instant.unread))
  | .idle | .poll _ | .signalGroup _ | .signalLeader _ _ | .awaitLeader _ _ | .reapGroup _
  | .probeGroup _ | .signalPid _ | .awaitPid _ => .isTrue trivial

instance : ∀ action, Decidable (Fits o s action)
  | .call _ _ => .isTrue trivial
  | .env table => inferInstanceAs (Decidable (s.phase.verified = true →
      (∀ p ∈ s.table, p.pid ≠ o.metadata.pid ∧ p.pgrp ≠ o.metadata.pid) → Own o table))
  | .tick instant => inferInstanceAs (Decidable (s.Sees o instant s.phase))

end

structure Base (o : LocalSandbox) (s : SandboxState) : Prop where
  members : ∀ p ∈ s.table, p.inSandbox → p.pgrp = o.metadata.pid
  leader : s.reaped = false → (∃ p ∈ s.table, p.pid = o.metadata.pid) ∧
    ∀ p ∈ s.table, p.pid = o.metadata.pid → p.pgrp = o.metadata.pid ∧ p.startTime = o.startTime
  own : s.reaped = false → Own o s.table
  reused : s.reaped = true → ∀ p ∈ s.table, p.pid = o.metadata.pid → p.startTime ≠ o.startTime
  untracked : s.tracked = false → s.reaped = true ∧ NoneLive s.table
  taken : s.TakenDown

/-- What holds of the group once the call has tried to verify it. -/
def Settled (o : LocalSandbox) (table : List Process) (verified : Bool) : Prop :=
  if verified then Own o table else NoneLive table

/-- What holds besides at each point of a call. -/
def InPhase (o : LocalSandbox) (s : SandboxState) : Prop :=
  match s.phase with
  | .idle | .readStat _ | .readCmdline _ => True
  | .poll verified | .signalLeader verified _ | .awaitLeader verified _ =>
    s.tracked = true ∧ Settled o s.table verified
  | .signalGroup _ => s.tracked = true ∧ Own o s.table
  | .reapGroup _ | .probeGroup _ | .scanGroup _ => s.reaped = true ∧ Own o s.table
  | .signalPid _ | .awaitPid _ => False

def Sound (o : LocalSandbox) (s : SandboxState) : Prop := s.Base o ∧ s.InPhase o

section

variable {o : LocalSandbox} {s s' : SandboxState} {instant : Instant}

variable {table rest : List Process} {p : Process} {stat : Option (PyStr × PyStr × PyStr)}
  {again verified killed byId : Bool}

theorem noneLive_of_subset (hsub : rest ⊆ table)
    (h : NoneLive table) : NoneLive rest := fun p hp => h p (hsub hp)

theorem own_of_subset (hsub : rest ⊆ table)
    (h : Own o table) : Own o rest := fun p hp => h p (hsub hp)

theorem Base.at (h : s.Base o) (phase : StopPhase) : Base o { s with phase } where
  members := h.members
  leader := h.leader
  own := h.own
  reused := h.reused
  untracked := h.untracked
  taken := ⟨h.taken.stopped, h.taken.signalled⟩

theorem entry_mem (h : s.entry o = some p) :
    p ∈ s.table ∧ p.pid = o.metadata.pid := by
  refine ⟨List.mem_of_find?_eq_some h, ?_⟩
  simpa using List.find?_some h

theorem entry_none (h : Vacant o s.table) : s.entry o = none := by
  apply List.find?_eq_none.mpr
  intro p hp
  simpa using h p hp

theorem poll_cases (o : LocalSandbox) (s : SandboxState) : s.poll o = s ∨ s.reaped = false ∧
    s.poll o = { s with
      reaped := true
      table := s.table.filter fun p => p.pid ≠ o.metadata.pid } := by
  unfold poll
  split_ifs with h
  · exact .inr ⟨h.1, rfl⟩
  · exact .inl rfl

theorem Base.poll (h : s.Base o) : (s.poll o).Base o ∧ (s.poll o).table ⊆ s.table ∧
    (s.reaped = true → (s.poll o).reaped = true) := by
  rcases poll_cases o s with heq | ⟨hreaped, heq⟩
  · rw [heq]
    exact ⟨h, List.Subset.refl _, id⟩
  · have hsub : (s.table.filter fun p => p.pid ≠ o.metadata.pid) ⊆ s.table :=
      fun p hp => (List.mem_filter.mp hp).1
    rw [heq]
    refine ⟨⟨fun p hp => h.members p (hsub hp), nofun, nofun, fun _ p hp hpid => ?_,
      fun htracked => ⟨rfl, noneLive_of_subset hsub (h.untracked htracked).2⟩,
      ⟨fun hended => noneLive_of_subset hsub (h.taken.stopped hended), h.taken.signalled⟩⟩,
      hsub, fun _ => rfl⟩
    have hne := (List.mem_filter.mp hp).2
    exact absurd hpid (by simpa using hne)

theorem poll_phase : (s.poll o).phase = s.phase := by
  rcases poll_cases o s with heq | ⟨-, heq⟩ <;> rw [heq]

theorem poll_tracked : (s.poll o).tracked = s.tracked := by
  rcases poll_cases o s with heq | ⟨-, heq⟩ <;> rw [heq]

theorem InPhase.mono (h : s.InPhase o) (hphase : s'.phase = s.phase)
    (htracked : s'.tracked = s.tracked) (hreaped : s.reaped = true → s'.reaped = true)
    (hown : s.phase.verified = true → Own o s.table → Own o s'.table)
    (hnone : NoneLive s.table → NoneLive s'.table) : s'.InPhase o := by
  unfold InPhase at h ⊢
  rw [hphase, htracked]
  cases hcase : s.phase with
  | idle | readStat again | readCmdline again => trivial
  | poll verified | signalLeader verified killed | awaitLeader verified killed =>
    rw [hcase] at h hown
    refine ⟨h.1, ?_⟩
    cases verified with
    | false => exact hnone h.2
    | true => exact hown rfl h.2
  | signalGroup killed =>
    rw [hcase] at h hown
    exact ⟨h.1, hown rfl h.2⟩
  | reapGroup killed | probeGroup killed | scanGroup killed =>
    rw [hcase] at h hown
    exact ⟨hreaped h.1, hown rfl h.2⟩
  | signalPid killed | awaitPid killed =>
    rw [hcase] at h
    exact h

theorem Sound.poll (h : s.Sound o) : (s.poll o).Sound o := by
  obtain ⟨hbase, hsub, hreaped⟩ := h.1.poll
  exact ⟨hbase, h.2.mono poll_phase poll_tracked hreaped (fun _ => own_of_subset hsub)
    (noneLive_of_subset hsub)⟩

theorem sound_env (h : s.Sound o) (hkernel : KernelStep o s table)
    (hfits : s.Fits o (.env table)) : Sound o { s with table } := by
  have hown : Own o s.table → (s.phase.verified = true ∨ s.reaped = false) → Own o table := by
    intro hown hcase
    by_cases hused : ∃ p ∈ s.table, p.pid = o.metadata.pid ∨ p.pgrp = o.metadata.pid
    · exact hkernel.strangers hused hown
    · -- the group has died out, and its id is free again
      push Not at hused
      rcases hcase with hverified | hreaped
      · exact hfits hverified hused
      · obtain ⟨p, hp, hpid⟩ := (h.1.leader hreaped).1
        exact absurd hpid (hused p hp).1
  refine ⟨⟨hkernel.members, hkernel.leader, fun hreaped => hown (h.1.own hreaped) (.inr hreaped),
    hkernel.reused, fun htracked => ?_, ⟨fun hended => ?_, h.1.taken.signalled⟩⟩, ?_⟩
  · obtain ⟨hreaped, hnone⟩ := h.1.untracked htracked
    exact ⟨hreaped, hkernel.forked hnone⟩
  · exact hkernel.forked (h.1.taken.stopped hended)
  · exact h.2.mono rfl rfl id (fun hverified h => hown h (.inl hverified)) hkernel.forked

theorem Base.finish (h : s.Base o) (outcome : StopOutcome)
    (hdone : outcome = .returned → s.reaped = true ∧ NoneLive s.table) :
    (s.finish outcome).Sound o := by
  refine ⟨⟨h.members, h.leader, h.own, h.reused, fun htracked => ?_,
    ⟨fun hended => ?_, h.taken.signalled⟩⟩, trivial⟩
  · -- the sandbox has been forgotten before, or is now
    by_cases hbefore : s.tracked = false
    · exact h.untracked hbefore
    · apply hdone
      by_contra hraised
      simp [SandboxState.finish, hraised, hbefore] at htracked
  · exact (hdone (Option.some.inj hended)).2

theorem Base.raised (h : s.Base o) : (s.finish .raised).Sound o := h.finish .raised nofun

theorem Base.killGroup (h : s.Base o) (hown : Own o s.table) :
    Base o (s.killGroup o instant) := by
  unfold SandboxState.killGroup
  split_ifs
  · exact h
  · refine ⟨h.members, h.leader, h.own, h.reused, h.untracked, ⟨h.taken.stopped, ?_⟩⟩
    -- the group has nobody else
    have hgroup : ∀ p ∈ s.group o, p.inSandbox = true := by
      intro p hp
      obtain ⟨hmem, hpgrp⟩ := List.mem_filter.mp hp
      exact hown p hmem (of_decide_eq_true hpgrp)
    exact List.forall_mem_append.mpr ⟨h.taken.signalled, hgroup⟩

theorem killGroup_keeps (o : LocalSandbox) (s : SandboxState) (instant : Instant) :
    (s.killGroup o instant).table = s.table ∧ (s.killGroup o instant).tracked = s.tracked ∧
    (s.killGroup o instant).reaped = s.reaped := by
  unfold SandboxState.killGroup
  split_ifs <;> exact ⟨rfl, rfl, rfl⟩

theorem readStat_cases (h : readStat instant p = .ok stat) : p.pid ∈ instant.unread ∧ stat = none ∨
    p.pid ∉ instant.unread ∧
      stat = some ([p.state.code], pyStrOfNat p.pgrp, pyStrOfNat p.startTime) := by
  unfold readStat at h
  split_ifs at h with hunread
  · cases h
    exact .inl ⟨hunread, rfl⟩
  · cases hfile : p.statFile with
    | none =>
      rw [hfile] at h
      cases h
    | some raw =>
      rw [hfile] at h
      cases h
      exact .inr ⟨hunread, Process.readProcStat_statFile hfile⟩

theorem hasLiveMember_false : ∀ {table : List Process},
    hasLiveMember o instant table = .ok false → ∀ p ∈ table, p.pid ∉ instant.unread →
      p.pgrp = o.metadata.pid → p.state = .zombie
  | [], _ => by simp
  | q :: rest, h => by
    unfold hasLiveMember at h
    cases hstat : readStat instant q with
    | error e =>
      rw [hstat] at h
      cases h
    | ok stat =>
      rw [hstat] at h
      rcases readStat_cases hstat with ⟨hunread, rfl⟩ | ⟨-, rfl⟩
      · refine List.forall_mem_cons.mpr ⟨fun hread => absurd hunread hread, ?_⟩
        exact hasLiveMember_false h
      · simp only at h
        split_ifs at h with hlive
        · cases h
        refine List.forall_mem_cons.mpr ⟨fun _ hpgrp => ?_, hasLiveMember_false h⟩
        by_contra hstate
        apply hlive
        rw [hpgrp]
        refine ⟨rfl, fun hcode => hstate ?_⟩
        exact ProcState.code_eq_zombie.mp (List.cons.inj hcode).1

theorem statVerdict_reaped (h : s.Base o) (hreaped : s.reaped = true)
    (hunknown : o.metadata.processStartTime = none → s.reaped = true → Vacant o s.table)
    (hstat : s.readEntryStat o instant = .ok stat) :
    o.metadata.statVerdict stat = some false := by
  unfold readEntryStat at hstat
  cases hentry : s.entry o with
  | none =>
    rw [hentry] at hstat
    cases hstat
    rfl
  | some p =>
    rw [hentry] at hstat
    obtain ⟨hmem, hpid⟩ := entry_mem hentry
    rcases readStat_cases hstat with ⟨-, rfl⟩ | ⟨-, rfl⟩
    · rfl
    · rcases o.recorded with hnone | hsome
      · exact absurd hpid (hunknown hnone hreaped p hmem)
      · have hstart : pyStrOfNat p.startTime ≠ pyStrOfNat o.startTime := fun heq =>
          h.reused hreaped p hmem hpid (pyStrOfNat_injective heq)
        have hne : pyStrOfNat o.startTime ≠ [] := Nat.toDigits_ne_nil
        simp only [SandboxMetadata.statVerdict, hsome]
        rw [if_neg hne, if_pos hstart]

theorem statVerdict_leader (h : s.Base o) (hreaped : s.reaped = false)
    (hread : o.metadata.pid ∉ instant.unread)
    (hstat : s.readEntryStat o instant = .ok stat) :
    o.metadata.statVerdict stat ≠ some false := by
  obtain ⟨⟨q, hq, hqpid⟩, hleader⟩ := h.leader hreaped
  unfold readEntryStat at hstat
  cases hentry : s.entry o with
  | none =>
    have hnone := List.find?_eq_none.mp hentry q hq
    simp [hqpid] at hnone
  | some p =>
    rw [hentry] at hstat
    obtain ⟨hmem, hpid⟩ := entry_mem hentry
    rcases readStat_cases hstat with ⟨hunread, -⟩ | ⟨-, rfl⟩
    · rw [hpid] at hunread
      exact absurd hunread hread
    · rcases o.recorded with hnone | hsome
      · simp [SandboxMetadata.statVerdict, hnone]
      · simp only [SandboxMetadata.statVerdict, hsome, (hleader p hmem hpid).2, ne_eq,
          not_true_eq_false, if_false]
        split_ifs <;> simp

theorem Base.unreaped (h : s.Base o) (hreaped : s.reaped = false) :
    s.tracked = true ∧ Own o s.table := by
  refine ⟨?_, h.own hreaped⟩
  by_contra htracked
  rw [Bool.not_eq_true] at htracked
  rw [(h.untracked htracked).1] at hreaped
  cases hreaped

theorem Base.identified (h : s.Base o) {verdict : Bool}
    (hyes : verdict = true → s.tracked = true ∧ Own o s.table)
    (hno : verdict = false → s.tracked = true → NoneLive s.table) :
    (s.identified again verdict).Sound o := by
  unfold SandboxState.identified
  by_cases htracked : s.tracked = true
  · rw [if_pos htracked]
    refine ⟨h.at _, htracked, ?_⟩
    cases verdict with
    | true => exact (hyes rfl).2
    | false => exact hno rfl htracked
  · rw [if_neg htracked]
    have hforgotten := h.untracked (Bool.not_eq_true _ ▸ htracked)
    cases verdict with
    | true => exact absurd (hyes rfl).1 htracked
    | false =>
      cases again with
      | true => exact h.finish .returned fun _ => hforgotten
      | false => exact ⟨h.at _, trivial⟩

theorem sound_readStat (h : s.Sound o) (hphase : s.phase = .readStat again)
    (hfits : s.Fits o (.tick instant)) (hs' : s.tick o instant = some s') : s'.Sound o := by
  simp only [Fits, hphase] at hfits
  simp only [tick, hphase] at hs'
  obtain ⟨hunknown, hidentified⟩ := hfits
  cases hstat : s.readEntryStat o instant with
  | error e =>
    rw [hstat] at hs'
    cases hs'
    exact h.1.raised
  | ok stat =>
    rw [hstat] at hs'
    cases hverdict : o.metadata.statVerdict stat with
    | none =>
      simp only [hverdict] at hs'
      cases hs'
      exact ⟨h.1.at _, trivial⟩
    | some verdict =>
      simp only [hverdict] at hs'
      cases hs'
      apply h.1.identified
      · rintro rfl
        -- only the leader itself is recognised
        have hreaped : s.reaped = false := by
          by_contra hreaped
          rw [Bool.not_eq_false] at hreaped
          have hfalse := statVerdict_reaped h.1 hreaped hunknown hstat
          rw [hverdict] at hfalse
          cases hfalse
        exact h.1.unreaped hreaped
      · rintro rfl htracked
        rcases hidentified htracked with hnone | ⟨hreaped, hread⟩
        · exact hnone
        · exact absurd hverdict (statVerdict_leader h.1 hreaped hread hstat)

theorem sound_readCmdline (h : s.Sound o) (hphase : s.phase = .readCmdline again)
    (hfits : s.Fits o (.tick instant)) (hs' : s.tick o instant = some s') : s'.Sound o := by
  simp only [Fits, hphase] at hfits
  simp only [tick, hphase] at hs'
  obtain ⟨hfree, hidentified⟩ := hfits
  cases hs'
  apply h.1.identified
  · intro hverdict
    have hreaped : s.reaped = false := by
      by_contra hreaped
      rw [Bool.not_eq_false] at hreaped
      simp [readEntryCmdline, entry_none (hfree hreaped), SandboxMetadata.cmdlineVerdict]
        at hverdict
    exact h.1.unreaped hreaped
  · intro hverdict htracked
    rcases hidentified htracked with hnone | ⟨p, hentry, hread, hyes⟩
    · exact hnone
    · rw [readEntryCmdline, hentry, Option.bind_some, if_neg hread, hyes] at hverdict
      cases hverdict

theorem Base.leaderGone (h : s.Base o) (hreaped : s.reaped = true)
    (hcase : Settled o s.table verified) :
    (s.leaderGone verified).Sound o := by
  cases verified with
  | true => exact ⟨h.at _, hreaped, hcase⟩
  | false => exact h.finish .returned fun _ => ⟨hreaped, hcase⟩

theorem Base.groupSurvives (h : s.Base o) (hreaped : s.reaped = true) (hown : Own o s.table)
    (killed : Bool) : (s.groupSurvives instant killed).Sound o := by
  unfold SandboxState.groupSurvives
  split_ifs
  · exact h.raised
  · exact ⟨h.at _, hreaped, hown⟩
  · exact ⟨h.at _, hreaped, hown⟩

theorem Base.killPid (h : s.Base o) (hreaped : s.reaped = false) {next : StopPhase}
    (hnext : InPhase o { s with phase := next }) : (s.killPid o instant next).Sound o := by
  unfold SandboxState.killPid
  cases hentry : s.entry o with
  | none => exact ⟨h.at _, hnext⟩
  | some p =>
    obtain ⟨hmem, hpid⟩ := entry_mem hentry
    have hp : p.inSandbox = true := by
      have hpgrp := ((h.leader hreaped).2 p hmem hpid).1
      exact h.own hreaped p hmem hpgrp
    split_ifs
    · exact h.raised
    · refine ⟨⟨h.members, h.leader, h.own, h.reused, h.untracked, h.taken.stopped, ?_⟩, hnext⟩
      exact List.forall_mem_append.mpr ⟨h.taken.signalled, List.forall_mem_singleton.mpr hp⟩

theorem settled_of_subset (hsub : rest ⊆ table)
    (h : Settled o table verified) : Settled o rest verified := by
  cases verified with
  | true => exact own_of_subset hsub h
  | false => exact noneLive_of_subset hsub h

theorem Base.polled (h : s.Base o)
    (hsettled : s.tracked = true ∧ Settled o s.table verified) : (s.poll o).Base o ∧
      (s.poll o).tracked = true ∧ Settled o (s.poll o).table verified := by
  obtain ⟨hbase, hsub, -⟩ := h.poll
  exact ⟨hbase, poll_tracked.trans hsettled.1, settled_of_subset hsub hsettled.2⟩

theorem sound_poll (h : s.Sound o) (hphase : s.phase = .poll verified)
    (hs' : s.tick o instant = some s') : s'.Sound o := by
  have hsettled : s.tracked = true ∧ Settled o s.table verified := by
    simpa only [InPhase, hphase] using h.2
  obtain ⟨hbase, htracked, hkept⟩ := h.1.polled hsettled
  simp only [tick, hphase] at hs'
  by_cases hreaped : (s.poll o).reaped = true
  · rw [if_pos hreaped] at hs'
    cases hs'
    exact hbase.leaderGone hreaped hkept
  · rw [if_neg hreaped] at hs'
    cases hs'
    refine ⟨hbase.at _, ?_⟩
    cases verified with
    | true | false => exact ⟨htracked, hkept⟩

theorem sound_signalGroup (h : s.Sound o) (hphase : s.phase = .signalGroup killed)
    (hs' : s.tick o instant = some s') : s'.Sound o := by
  have hown : s.tracked = true ∧ Own o s.table := by
    simpa only [InPhase, hphase] using h.2
  obtain ⟨htable, htracked, -⟩ := killGroup_keeps o s instant
  simp only [tick, hphase] at hs'
  cases hs'
  refine ⟨(h.1.killGroup hown.2).at _, htracked.trans hown.1, ?_⟩
  exact htable.symm ▸ hown.2

theorem sound_signalLeader (h : s.Sound o)
    (hphase : s.phase = .signalLeader verified killed) (hs' : s.tick o instant = some s') :
    s'.Sound o := by
  have hsettled : s.tracked = true ∧ Settled o s.table verified := by
    simpa only [InPhase, hphase] using h.2
  obtain ⟨hbase, hkept⟩ := h.1.polled hsettled
  have hnext : InPhase o { s.poll o with phase := .awaitLeader verified killed } := hkept
  simp only [tick, hphase] at hs'
  split_ifs at hs' with hreaped
  · cases hs'
    exact ⟨hbase.at _, hnext⟩
  · cases hs'
    exact hbase.killPid (Bool.not_eq_true _ ▸ hreaped) hnext

theorem sound_awaitLeader (h : s.Sound o)
    (hphase : s.phase = .awaitLeader verified killed) (hs' : s.tick o instant = some s') :
    s'.Sound o := by
  have hsettled : s.tracked = true ∧ Settled o s.table verified := by
    simpa only [InPhase, hphase] using h.2
  obtain ⟨hbase, htracked, hkept⟩ := h.1.polled hsettled
  have hnext : InPhase o { s.poll o with
      phase := if verified then .signalGroup true else .signalLeader false true } := by
    cases verified with
    | true | false => exact ⟨htracked, hkept⟩
  simp only [tick, hphase] at hs'
  by_cases hreaped : (s.poll o).reaped = true
  · rw [if_pos hreaped] at hs'
    cases hs'
    exact hbase.leaderGone hreaped hkept
  · rw [if_neg hreaped] at hs'
    by_cases htimeout : instant.timedOut = true
    · rw [if_pos htimeout] at hs'
      cases killed with
      | true =>
        cases hs'
        exact hbase.raised
      | false =>
        cases hs'
        exact ⟨hbase.at _, hnext⟩
    · rw [if_neg htimeout] at hs'
      cases hs'
      exact h.poll

theorem sound_reapGroup (h : s.Sound o) (hphase : s.phase = .reapGroup killed)
    (hs' : s.tick o instant = some s') : s'.Sound o := by
  have hown : s.reaped = true ∧ Own o s.table := by
    simpa only [InPhase, hphase] using h.2
  obtain ⟨htable, -, hreaped⟩ := killGroup_keeps o s instant
  simp only [tick, hphase] at hs'
  cases hs'
  refine ⟨(h.1.killGroup hown.2).at _, hreaped.trans hown.1, ?_⟩
  exact htable.symm ▸ hown.2

theorem sound_probeGroup (h : s.Sound o) (hphase : s.phase = .probeGroup killed)
    (hs' : s.tick o instant = some s') : s'.Sound o := by
  have hown : s.reaped = true ∧ Own o s.table := by
    simpa only [InPhase, hphase] using h.2
  simp only [tick, hphase] at hs'
  split_ifs at hs' with hempty
  · cases hs'
    apply h.1.finish
    -- the processes of the sandbox would all be in the group
    refine fun _ => ⟨hown.1, fun p hp hin => ?_⟩
    have hmem : p ∈ s.group o := List.mem_filter.mpr ⟨hp, decide_eq_true (h.1.members p hp hin)⟩
    rw [hempty] at hmem
    cases hmem
  · cases hs'
    exact h.1.groupSurvives hown.1 hown.2 killed
  · cases hs'
    exact ⟨h.1.at _, hown⟩

theorem sound_scanGroup (h : s.Sound o) (hphase : s.phase = .scanGroup killed)
    (hfits : s.Fits o (.tick instant)) (hs' : s.tick o instant = some s') : s'.Sound o := by
  have hown : s.reaped = true ∧ Own o s.table := by
    simpa only [InPhase, hphase] using h.2
  simp only [Fits, hphase] at hfits
  have hreturned (hfound : instant.listed = true → hasLiveMember o instant s.table = .ok false) :
      (s.finish .returned).Sound o := by
    refine h.1.finish .returned fun _ => ⟨hown.1, ?_⟩
    rcases hfits with hnone | ⟨hlisted, p, hp, hin, hlive, hread⟩
    · exact hnone
    · have hzombie := hasLiveMember_false (hfound hlisted) p hp hread (h.1.members p hp hin)
      exact absurd hzombie hlive
  simp only [tick, hphase] at hs'
  split_ifs at hs' with hlisted
  · cases hscan : hasLiveMember o instant s.table with
    | error e =>
      rw [hscan] at hs'
      cases hs'
      exact h.1.raised
    | ok live =>
      rw [hscan] at hs'
      cases live with
      | true =>
        cases hs'
        exact h.1.groupSurvives hown.1 hown.2 killed
      | false =>
        cases hs'
        exact hreturned fun _ => hscan
  · cases hs'
    exact hreturned fun h => absurd h hlisted

theorem sound_tick (h : s.Sound o) (hfits : s.Fits o (.tick instant))
    (hs' : s.tick o instant = some s') : s'.Sound o := by
  cases hphase : s.phase with
  | idle =>
    simp only [tick, hphase] at hs'
    cases hs'
  | readStat again => exact sound_readStat h hphase hfits hs'
  | readCmdline again => exact sound_readCmdline h hphase hfits hs'
  | poll verified => exact sound_poll h hphase hs'
  | signalGroup killed => exact sound_signalGroup h hphase hs'
  | signalLeader verified killed => exact sound_signalLeader h hphase hs'
  | awaitLeader verified killed => exact sound_awaitLeader h hphase hs'
  | reapGroup killed => exact sound_reapGroup h hphase hs'
  | probeGroup killed => exact sound_probeGroup h hphase hs'
  | scanGroup killed => exact sound_scanGroup h hphase hfits hs'
  | signalPid killed | awaitPid killed =>
    -- a sandbox that is not tracked has no leader any more
    exact False.elim (by simpa only [InPhase, hphase] using h.2)

theorem sound_beginStop {pops : Bool} (h : s.Sound o)
    (hs' : s.beginStop pops byId = some s') : s'.Sound o := by
  unfold beginStop at hs'
  split_ifs at hs'
  · cases hs'
    exact ⟨⟨h.1.members, h.1.leader, h.1.own, h.1.reused, h.1.untracked, nofun,
      h.1.taken.signalled⟩, h.2⟩
  · cases hs'
    exact ⟨⟨h.1.members, h.1.leader, h.1.own, h.1.reused, h.1.untracked, nofun,
      h.1.taken.signalled⟩, trivial⟩

theorem sound_call {c : SandboxCall} (h : s.Sound o)
    (hs' : s.call o c byId = some s') : s'.Sound o := by
  cases c with
  | status =>
    cases hs'
    split_ifs
    · exact h.poll
    · exact h
  | stop | cleanup => exact sound_beginStop h hs'

theorem sound_step {action : SandboxAction} (h : s.Sound o)
    (hstep : s.Kernel o action ∧ s.Fits o action) (hs' : s.step o action = some s') :
    s'.Sound o := by
  obtain ⟨hkernel, hfits⟩ := hstep
  cases action with
  | call c byId => exact sound_call h hs'
  | env table =>
    cases hs'
    exact sound_env h hkernel hfits
  | tick instant => exact sound_tick h hfits hs'

end

/-- The processes when `start` returns: it has just found the leader running, and the session that
the leader began with is its own. -/
structure Started (o : LocalSandbox) (table : List Process) : Prop where
  members : ∀ p ∈ table, p.inSandbox → p.pgrp = o.metadata.pid
  own : Own o table
  leader : ∃ p ∈ table, p.pid = o.metadata.pid
  same : ∀ p ∈ table, p.pid = o.metadata.pid →
    p.pgrp = o.metadata.pid ∧ p.startTime = o.startTime

theorem sound_started {o : LocalSandbox} {table : List Process} (h : Started o table) :
    Sound o { table } := by
  have htaken : TakenDown { table } := ⟨nofun, fun p hp => absurd hp List.not_mem_nil⟩
  exact ⟨⟨h.members, fun _ => ⟨h.leader, h.same⟩, fun _ => h.own, nofun, nofun, htaken⟩, trivial⟩

/-- In every run whose steps fit, a call that has returned has left no process of the sandbox
alive, and no process outside it has been sent a signal. -/
theorem stop_takes_down (o : LocalSandbox) (table : List Process) (actions : List SandboxAction)
    (hstarted : Started o table) (hkernel : Guarded (step o) (Kernel o) { table } actions)
    (hfits : Guarded (step o) (Fits o) { table } actions) :
    Always (step o) TakenDown { table } actions := by
  have hsound : Always (step o) (Sound o) { table } actions := by
    refine always_of_guarded (g := fun s a => Kernel o s a ∧ Fits o s a) ?_ (sound_started hstarted)
      (guarded_and hkernel hfits)
    exact fun s a s' h hstep hs' => sound_step h hstep hs'
  exact always_mono (fun s h => h.1.taken) hsound

def sandboxProcess (pid startTime : ℕ) (state : ProcState) : Process where
  pid := pid
  pgrp := 7
  startTime := startTime
  state := state
  inSandbox := true
  comm := some ['u', ')', ' ']
  cmdline := []
  ppid := .ofNat 1
  between _ := .ofNat 0
  after := []

def sandboxSeven : LocalSandbox := .start (sandboxProcess 7 5 .running) 80 true

def groupStop : List SandboxAction := [
  .env [sandboxProcess 7 5 .zombie, sandboxProcess 8 6 .running],
  .call .stop false,
  .tick {}, .tick {}, .tick {},
  .env [sandboxProcess 8 6 .zombie],
  .tick {}, .tick {}]

theorem started_seven : Started sandboxSeven
    [sandboxProcess 7 5 .running, sandboxProcess 8 6 .running] where
  members := by simp [sandboxProcess, sandboxSeven, LocalSandbox.start]
  own := by simp [Own, sandboxProcess]
  leader := ⟨_, List.mem_cons_self, rfl⟩
  same := by simp [sandboxProcess, sandboxSeven, LocalSandbox.start]

theorem groupStop_takes_down : Always (step sandboxSeven) TakenDown
    { table := [sandboxProcess 7 5 .running, sandboxProcess 8 6 .running] } groupStop := by
  apply stop_takes_down
  · exact started_seven
  · decide
  · decide

/-- `status` waits for a leader that has exited, and `stop` returns without a signal. -/
theorem stop_after_status : ¬ ∀ (o : LocalSandbox) (table : List Process)
    (actions : List SandboxAction), Started o table →
    Guarded (step o) (Kernel o) { table } actions →
    Always (step o) TakenDown { table } actions := by
  intro h
  let actions : List SandboxAction := [
    .env [sandboxProcess 7 5 .zombie, sandboxProcess 8 6 .running],
    .call .status false,
    .call .stop false,
    .tick {}, .tick {}]
  have hkernel : Guarded (step sandboxSeven) (Kernel sandboxSeven)
      { table := [sandboxProcess 7 5 .running, sandboxProcess 8 6 .running] } actions := by
    decide
  have hlast := always_last (h sandboxSeven _ actions started_seven hkernel) rfl
  have hnone := hlast.stopped rfl
  exact absurd hnone (by decide)

end SandboxState

end WittyService
