import WittyService.AgentControl

/-! Whether the status of an agent tells what its runtime does, for each runtime over any run of
starts and stops. -/
namespace WittyService.AgentServer

open GuardedRuns

section

variable {α β : Type} {x : ServiceM α} {f : α → ServiceM β} {s s' : AgentService}

theorem bind_ok {a : α} (h : x s = (.ok a, s')) : (x >>= f) s = f a s' := by
  change ExceptT.bindCont f (x s).1 (x s).2 = _
  rw [h]
  rfl

theorem bind_error {error : AgentServiceError} (h : x s = (.error error, s')) :
    (x >>= f) s = (.error error, s') := by
  change ExceptT.bindCont f (x s).1 (x s).2 = _
  rw [h]
  rfl

end

namespace AgentService

variable {runtime : RuntimeType} {s : AgentService} {reload : Bool} {ops : StartOperations}

def Kept (s s' : AgentService) : Prop := s'.status = s.status ∧ s'.alive = s.alive

def Runs (s' : AgentService) : Prop := s'.status = .running ∧ s'.alive = true

theorem gatewayRunning_run (ops : StartOperations) (s : AgentService) :
    (∃ error, OpenClawAgentService.gatewayRunning ops s = (.error error, s)) ∧
        ops.provisioned = true ∧ ops.probe.isOk = false ∨
      OpenClawAgentService.gatewayRunning ops s = (.ok (s.seesRunning ops), s) ∧
        (ops.provisioned = true → ops.probe.isOk = true) := by
  obtain ⟨provisioned, _, probe, _, _, _, _⟩ := ops
  cases provisioned with
  | false => exact .inr ⟨rfl, nofun⟩
  | true =>
    cases probe with
    | error error => exact .inl ⟨⟨_, rfl⟩, rfl, rfl⟩
    | ok answer =>
      refine .inr ⟨?_, fun _ => rfl⟩
      obtain ⟨_, _, _, alive, _⟩ := s
      cases alive <;> cases answer <;> rfl

variable (isRunning : Bool)

theorem stopRunning_run (hstop : isRunning = true → ops.stop = none) :
    stopRunning isRunning (OpenClawAgentService.stopOpenclaw ops.stop) s =
      (.ok (), { s with alive := s.alive && !isRunning }) := by
  cases isRunning with
  | false =>
    change (Except.ok (), s) = _
    rw [Bool.not_false, Bool.and_true]
  | true =>
    rw [hstop rfl, Bool.not_true, Bool.and_false]
    rfl

variable {s' : AgentService} {agentId : Option String}

theorem restart_after (hstop : isRunning = true → ops.stop = none)
    (hs' : (OpenClawAgentService.restart isRunning ops s).2 = s') :
    ops.onboard.isSome = true ∧ s'.status = s.status ∧ s'.alive = (s.alive && !isRunning) ∨
    ops.onboard = none ∧ ops.startServer.isSome = true ∧ s'.status = s.status ∧
      s'.alive = false ∨
    ops.onboard = none ∧ ops.startServer = none ∧ ops.gateway.isOk = false ∧
      s'.status = s.status ∧ s'.alive = true ∨
    ops.onboard = none ∧ ops.startServer = none ∧ ops.gateway.isOk = true ∧ Runs s' := by
  unfold OpenClawAgentService.restart at hs'
  rw [bind_ok (stopRunning_run isRunning hstop)] at hs'
  subst hs'
  obtain ⟨_, _, _, _, onboard, startServer, gateway⟩ := ops
  cases onboard with
  | some error => exact .inl ⟨rfl, rfl, rfl⟩
  | none =>
    cases startServer with
    | some error => exact .inr (.inl ⟨rfl, rfl, rfl, rfl⟩)
    | none =>
      cases gateway with
      | error code => exact .inr (.inr (.inl ⟨rfl, rfl, rfl, rfl, rfl⟩))
      | ok agentId => exact .inr (.inr (.inr ⟨rfl, rfl, rfl, rfl, rfl⟩))

theorem reuse_after (halive : s.alive = true)
    (hs' : (OpenClawAgentService.reuse ops s).2 = s') : Kept s s' ∨ Runs s' := by
  subst hs'
  obtain ⟨_, _, _, _, _, _, gateway⟩ := ops
  cases gateway with
  | error code => exact .inl ⟨rfl, rfl⟩
  | ok agentId => exact .inr ⟨rfl, halive⟩

theorem restart_stuck (hstop : ops.stop.isSome = true) :
    (OpenClawAgentService.restart true ops s).2 = s := by
  obtain ⟨_, _, _, stop, _, _, _⟩ := ops
  obtain ⟨error, rfl⟩ := Option.isSome_iff_exists.mp hstop
  rfl

theorem openclaw_start_after (hs' : (OpenClawAgentService.start reload ops s).2 = s') :
    s.RaisesWithoutGateway reload ops ∧ s'.status = s.status ∧ s'.alive = false ∨
    s.RaisesWithGateway reload ops ∧ s'.status = s.status ∧ s'.alive = true ∨
    ¬ s.RaisesWithoutGateway reload ops ∧ ¬ s.RaisesWithGateway reload ops ∧
      (Kept s s' ∨ Runs s') := by
  have hunreached (hreaches : ¬ s.ReachesOnboard reload ops) (h : Kept s s' ∨ Runs s') :
      ¬ s.RaisesWithoutGateway reload ops ∧ ¬ s.RaisesWithGateway reload ops ∧
        (Kept s s' ∨ Runs s') :=
    ⟨fun h => hreaches h.1, fun h => hreaches h.1, h⟩
  unfold OpenClawAgentService.start at hs'
  obtain ⟨⟨error, hgateway⟩, hprovisioned, hprobe⟩ | ⟨hgateway, hprobe⟩ := gatewayRunning_run ops s
  · rw [bind_error hgateway] at hs'
    subst hs'
    refine .inr (.inr (hunreached (fun h => ?_) (.inl ⟨rfl, rfl⟩)))
    rw [h.1 hprovisioned] at hprobe
    cases hprobe
  rw [bind_ok hgateway] at hs'
  by_cases hreuse : s.seesRunning ops = true ∧ reload = false
  · obtain ⟨hsees, rfl⟩ := hreuse
    rw [hsees] at hs'
    have halive : s.alive = true := (Bool.and_eq_true_iff.mp (Bool.and_eq_true_iff.mp hsees).1).2
    refine .inr (.inr (hunreached (fun h => ?_) (reuse_after halive hs')))
    cases (h.2 hsees).1
  rw [if_neg (fun h => hreuse (by rwa [Bool.and_eq_true, Bool.not_eq_true'] at h))] at hs'
  by_cases hstuck : s.seesRunning ops = true ∧ ops.stop.isSome = true
  · obtain ⟨hsees, hstop⟩ := hstuck
    rw [hsees, restart_stuck hstop] at hs'
    subst hs'
    refine .inr (.inr (hunreached (fun h => ?_) (.inl ⟨rfl, rfl⟩)))
    rw [(h.2 hsees).2] at hstop
    cases hstop
  -- the start gets to the onboarding
  have hrestart (hsees : s.seesRunning ops = true) : reload = true ∧ ops.stop = none :=
    ⟨Bool.not_eq_false _ ▸ fun h => hreuse ⟨hsees, h⟩,
      Option.not_isSome_iff_eq_none.mp fun h => hstuck ⟨hsees, h⟩⟩
  have hreaches : s.ReachesOnboard reload ops := ⟨hprobe, hrestart⟩
  unfold RaisesWithoutGateway RaisesWithGateway
  obtain ⟨hon, h⟩ | ⟨hon, hstart, h⟩ | ⟨hon, hstart, hgate, h⟩ | ⟨hon, hstart, hgate, h⟩ :=
    restart_after _ (fun h => (hrestart h).2) hs'
  · cases hsees : s.seesRunning ops with
    | true =>
      rw [hsees, Bool.not_true, Bool.and_false] at h
      exact .inl ⟨⟨hreaches, by rw [if_pos hon]⟩, h⟩
    | false =>
      rw [hsees, Bool.not_false, Bool.and_true] at h
      refine .inr (.inr ⟨?_, ?_, .inl h⟩)
      · rw [if_pos hon]
        exact fun h => nomatch h.2
      · rintro ⟨-, hnone, -⟩
        rw [hnone] at hon
        cases hon
  · refine .inl ⟨⟨hreaches, ?_⟩, h⟩
    rw [hon]
    exact hstart
  · refine .inr (.inl ⟨⟨hreaches, hon, hstart, hgate⟩, h⟩)
  · refine .inr (.inr ⟨?_, ?_, .inr h⟩)
    · rw [hon, hstart]
      exact fun h => nomatch h.2
    · rintro ⟨-, -, -, hno⟩
      rw [hgate] at hno
      cases hno

theorem probeRunning_run (ops : StartOperations) (s : AgentService) : ∃ isRunning : Bool,
    probeRunning ops (fun _ => pure false) s = (.ok isRunning, s) ∧
      (isRunning = true → s.alive = true) := by
  obtain ⟨_, _, probe, _, _, _, _⟩ := ops
  cases probe with
  | error error => exact ⟨false, rfl, nofun⟩
  | ok answer => exact ⟨s.alive && answer, rfl, fun h => (Bool.and_eq_true_iff.mp h).1⟩

theorem startServing_after {code message : String}
    (hs' : (startServing code message reload ops s).2 = s') :
    Kept s s' ∧ s.alive = true ∨ Runs s' ∨ s'.status = .failed ∧ s'.alive = false := by
  unfold startServing at hs'
  obtain ⟨isRunning, hprobe, halive⟩ := probeRunning_run ops s
  rw [bind_ok hprobe] at hs'
  subst hs'
  obtain ⟨_, _, _, stop, _, startServer, _⟩ := ops
  cases isRunning with
  | false =>
    cases startServer with
    | some error => exact .inr (.inr ⟨rfl, rfl⟩)
    | none => exact .inr (.inl ⟨rfl, rfl⟩)
  | true =>
    cases reload with
    | false => exact .inr (.inl ⟨rfl, halive rfl⟩)
    | true =>
      cases stop with
      | some error => exact .inl ⟨⟨rfl, rfl⟩, halive rfl⟩
      | none =>
        cases startServer with
        | some error => exact .inr (.inr ⟨rfl, rfl⟩)
        | none => exact .inr (.inl ⟨rfl, rfl⟩)

theorem opencode_start_after (hs' : (OpenCodeAgentService.start agentId reload ops s).2 = s') :
    Kept s s' ∨ Runs s' ∨ s'.status = .failed ∧ s'.alive = false :=
  (startServing_after hs').imp_left And.left

theorem dsh_start_after (hs' : (DshAgentService.start agentId reload ops s).2 = s') :
    Kept s s' ∨ Runs s' ∨ s'.status = .failed ∧ s'.alive = false := by
  obtain ⟨_, updateConfig, _, _, _, _, _⟩ := ops
  cases updateConfig with
  | error error =>
    subst hs'
    exact .inl ⟨rfl, rfl⟩
  | ok changed =>
    obtain ⟨⟨hstatus, halive⟩, hbefore⟩ | h := startServing_after hs'
    · refine .inl ⟨hstatus, ?_⟩
      rw [halive, hbefore]
      exact (Bool.and_eq_true_iff.mp hbefore).1.symm
    · exact .inr h

theorem ensureAgentContext_run (agentId : Option String) (s : AgentService) :
    ∃ id, ensureAgentContext agentId s = (.ok (), { s with id }) := by
  cases agentId with
  | none => exact ⟨s.id, rfl⟩
  | some id =>
    dsimp only [ensureAgentContext]
    by_cases hid : id = ""
    · exact ⟨s.id, by rw [if_pos hid]; rfl⟩
    · exact ⟨some id, by rw [if_neg hid]; rfl⟩

theorem transition_run (target : AgentStatus) (s : AgentService) :
    (transition [.running, .paused] target s =
        (.ok (), { s with status := target }) ∧ s.status ∈ [AgentStatus.running, .paused]) ∨
      transition [.running, .paused] target s =
        (.error (.invalidAgentTransition s.status target), s) ∧
          s.status ∉ [AgentStatus.running, .paused] := by
  obtain ⟨_, status, _, _, _⟩ := s
  cases status with
  | running => exact .inl ⟨rfl, List.mem_cons_self⟩
  | paused => exact .inl ⟨rfl, List.mem_cons_of_mem _ List.mem_cons_self⟩
  | created | stopped | starting | failed => exact .inr ⟨rfl, by simp⟩

section

variable {agentId : Option String} {outcome : Option LifecycleError} {s' : AgentService}

theorem openclaw_stop_after (hs' : (OpenClawAgentService.stop agentId outcome s).2 = s') :
    s.status ∈ [AgentStatus.running, .paused] ∧ s'.status = .stopped ∧
        s'.alive = (s.alive && outcome.isSome) ∨
      s.status ∉ [AgentStatus.running, .paused] ∧ Kept s s' := by
  unfold OpenClawAgentService.stop at hs'
  obtain ⟨id, hid⟩ := ensureAgentContext_run agentId s
  rw [bind_ok hid] at hs'
  obtain ⟨hrun, hstatus⟩ | ⟨hrun, hstatus⟩ := transition_run .stopped { s with id }
  · rw [bind_ok hrun] at hs'
    subst hs'
    refine .inl ⟨hstatus, ?_⟩
    cases outcome with
    | none => exact ⟨rfl, (Bool.and_false _).symm⟩
    | some error => exact ⟨rfl, (Bool.and_true _).symm⟩
  · rw [bind_error hrun] at hs'
    subst hs'
    exact .inr ⟨hstatus, rfl, rfl⟩

theorem stopServing_after (hs' : (stopServing agentId outcome s).2 = s') :
    outcome.isSome = true ∧ s'.status = .failed ∧ s'.alive = s.alive ∨
    outcome = none ∧ s'.alive = false ∧
      (s.status ∈ [AgentStatus.running, .paused] ∧ s'.status = .stopped ∨
        s.status ∉ [AgentStatus.running, .paused] ∧ s'.status = s.status) := by
  unfold stopServing at hs'
  obtain ⟨id, hid⟩ := ensureAgentContext_run agentId s
  rw [bind_ok hid] at hs'
  cases outcome with
  | some error =>
    subst hs'
    exact .inl ⟨rfl, rfl, rfl⟩
  | none =>
    change (transition [.running, .paused] .stopped { s with id, alive := false }).2 = s' at hs'
    obtain ⟨hrun, hstatus⟩ | ⟨hrun, hstatus⟩ :=
      transition_run .stopped { s with id, alive := false }
    · rw [hrun] at hs'
      subst hs'
      exact .inr ⟨rfl, rfl, .inl ⟨hstatus, rfl⟩⟩
    · rw [hrun] at hs'
      subst hs'
      exact .inr ⟨rfl, rfl, .inr ⟨hstatus, rfl⟩⟩

end

structure Known (runtime : RuntimeType) (s : AgentService) : Prop where
  truthful : s.Truthful
  failed : runtime = .openclaw → s.status ≠ .failed
  retried : s.stopFailed = true → s.status = .stopped ∨ s.status = .running ∨ s.status = .failed

theorem Kept.truthful (h : Kept s s') (hs : s.Truthful) : s'.Truthful where
  stopped hstatus := h.2.trans (hs.stopped (h.1.symm.trans hstatus))
  running hstatus := h.2.trans (hs.running (h.1.symm.trans hstatus))

theorem Runs.truthful (h : Runs s') : s'.Truthful where
  stopped hstatus := nomatch h.1.symm.trans hstatus
  running _ := h.2

theorem truthful_of_failed (h : s'.status = .failed) : s'.Truthful where
  stopped hstatus := nomatch h.symm.trans hstatus
  running hstatus := nomatch h.symm.trans hstatus

theorem not_raisesWithGateway (h : s.RaisesWithoutGateway reload ops) :
    ¬ s.RaisesWithGateway reload ops := by
  rintro ⟨-, honboard, hstart, -⟩
  obtain ⟨-, h⟩ := h
  rw [honboard, hstart] at h
  cases h

theorem openclaw_start_truthful (hs : s.Truthful)
    (hs' : (OpenClawAgentService.start reload ops s).2 = s') :
    s'.Truthful ↔ ¬ (s.status = .running ∧ s.RaisesWithoutGateway reload ops) ∧
      ¬ (s.status = .stopped ∧ s.RaisesWithGateway reload ops) := by
  obtain ⟨hraises, hstatus, halive⟩ | ⟨hraises, hstatus, halive⟩ | ⟨hwithout, hwith, h⟩ :=
    openclaw_start_after hs'
  · constructor
    · refine fun h => ⟨fun hrunning => ?_, fun hgateway => not_raisesWithGateway hraises hgateway.2⟩
      have hup := h.running (hstatus.trans hrunning.1)
      rw [halive] at hup
      cases hup
    · rintro ⟨hrunning, -⟩
      exact ⟨fun _ => halive, fun h => absurd ⟨hstatus.symm.trans h, hraises⟩ hrunning⟩
  · constructor
    · refine fun h => ⟨fun hgateway => not_raisesWithGateway hgateway.2 hraises, fun hstopped => ?_⟩
      have hdown := h.stopped (hstatus.trans hstopped.1)
      rw [halive] at hdown
      cases hdown
    · rintro ⟨-, hstopped⟩
      exact ⟨fun h => absurd ⟨hstatus.symm.trans h, hraises⟩ hstopped, fun _ => halive⟩
  · exact iff_of_true (h.elim (fun h => h.truthful hs) Runs.truthful)
      ⟨fun h => hwithout h.2, fun h => hwith h.2⟩

theorem openclaw_stop_truthful (hs : s.Truthful) {outcome : Option LifecycleError}
    (hs' : (OpenClawAgentService.stop agentId outcome s).2 = s') :
    s'.Truthful ↔ ¬ (outcome.isSome = true ∧ s.status ∈ [AgentStatus.running, .paused] ∧
      s.alive = true) := by
  obtain ⟨hstatus, hstopped, halive⟩ | ⟨hstatus, hkept⟩ := openclaw_stop_after hs'
  · constructor
    · rintro h ⟨hfails, -, hup⟩
      have hdown := h.stopped hstopped
      rw [halive, hup, hfails] at hdown
      cases hdown
    · intro h
      refine ⟨fun _ => ?_, fun hrunning => nomatch hstopped.symm.trans hrunning⟩
      rw [halive, ← Bool.not_eq_true, Bool.and_eq_true]
      exact fun hboth => h ⟨hboth.2, hstatus, hboth.1⟩
  · exact iff_of_true (hkept.truthful hs) fun h => hstatus h.2.1

theorem serving_start_truthful (hs : s.Truthful)
    (h : Kept s s' ∨ Runs s' ∨ s'.status = .failed ∧ s'.alive = false) : s'.Truthful :=
  h.elim (fun h => h.truthful hs) fun h => h.elim Runs.truthful fun h => truthful_of_failed h.1

theorem serving_start_after (hruntime : runtime ≠ .openclaw)
    (hs' : (perform runtime (.start agentId reload ops) s).2 = s') :
    Kept s s' ∨ Runs s' ∨ s'.status = .failed ∧ s'.alive = false := by
  cases runtime with
  | openclaw => exact absurd rfl hruntime
  | opencode => exact opencode_start_after hs'
  | dsh => exact dsh_start_after hs'

section

variable {agentId : Option String} {outcome : Option LifecycleError}
  (hruntime : runtime ≠ .openclaw) {s' : AgentService}
  (hs' : (perform runtime (.stop agentId outcome) s).2 = s')
include hruntime hs'

theorem serving_stop_after :
    outcome.isSome = true ∧ s'.status = .failed ∧ s'.alive = s.alive ∨
    outcome = none ∧ s'.alive = false ∧
      (s.status ∈ [AgentStatus.running, .paused] ∧ s'.status = .stopped ∨
        s.status ∉ [AgentStatus.running, .paused] ∧ s'.status = s.status) := by
  cases runtime with
  | openclaw => exact absurd rfl hruntime
  | opencode | dsh => exact stopServing_after hs'

theorem serving_stop_truthful : s'.Truthful := by
  obtain ⟨-, hstatus, -⟩ | ⟨-, halive, ⟨-, hstatus⟩ | ⟨hmem, hstatus⟩⟩ :=
    serving_stop_after hruntime hs'
  · exact truthful_of_failed hstatus
  · exact ⟨fun _ => halive, fun h => nomatch hstatus.symm.trans h⟩
  · refine ⟨fun _ => halive, fun h => absurd ?_ hmem⟩
    rw [← hstatus, h]
    exact List.mem_cons_self

end

theorem serving_retry (hs : s.Known runtime) (hfailed : s.stopFailed = true)
    (hruntime : runtime ≠ .openclaw)
    (hs' : (perform runtime (.stop agentId none) s).2 = s') :
    s'.status = .stopped ↔ s.status ≠ .failed := by
  obtain ⟨hsome, -⟩ | ⟨-, -, ⟨hmem, hstatus⟩ | ⟨hmem, hstatus⟩⟩ := serving_stop_after hruntime hs'
  · cases hsome
  · refine iff_of_true hstatus fun h => ?_
    rw [h] at hmem
    simp at hmem
  · rw [hstatus]
    obtain h | h | h := hs.retried hfailed
    · exact iff_of_true h (by rw [h]; nofun)
    · rw [h] at hmem
      exact absurd List.mem_cons_self hmem
    · exact iff_of_false (by rw [h]; nofun) (not_not_intro h)

theorem openclaw_retry (hs : s.Known .openclaw) (hfailed : s.stopFailed = true)
    (hs' : (perform .openclaw (.stop agentId none) s).2 = s') : s'.status = .stopped := by
  obtain ⟨-, hstopped, -⟩ | ⟨hmem, hkept, -⟩ := openclaw_stop_after hs'
  · exact hstopped
  · obtain h | h | h := hs.retried hfailed
    · exact hkept.trans h
    · rw [h] at hmem
      exact absurd List.mem_cons_self hmem
    · exact absurd h (hs.failed rfl)

section

variable {call : AgentCall}

variable {s' : AgentService}

theorem truthful_step (h : step runtime s call = some s') :
    s'.Truthful ↔ (perform runtime call s).2.Truthful := by
  cases h
  exact ⟨fun h => ⟨h.stopped, h.running⟩, fun h => ⟨h.stopped, h.running⟩⟩

theorem honest_step (hs : s.Known runtime)
    (h : step runtime s call = some s') : Honest s call s' ↔ s.KeepsTruth runtime call := by
  have htruthful := truthful_step h
  have hstatus : s'.status = (perform runtime call s).2.status := by
    cases h
    rfl
  by_cases hruntime : runtime = .openclaw
  · subst hruntime
    cases call with
    | start agentId reload ops =>
      have hiff := htruthful.trans (openclaw_start_truthful hs.truthful rfl)
      exact ⟨fun h _ => hiff.mp h.truthful, fun h => ⟨hiff.mpr (h rfl), fun _ _ => nofun⟩⟩
    | stop agentId outcome =>
      have hiff := htruthful.trans (openclaw_stop_truthful hs.truthful rfl)
      cases outcome with
      | some error =>
        constructor
        · exact fun h hstops => hiff.mp h.truthful ⟨rfl, hstops.2⟩
        · exact fun h => ⟨hiff.mpr fun hstops => h ⟨rfl, hstops.2⟩, fun _ _ => nofun⟩
      | none =>
        refine iff_of_true ⟨hiff.mpr nofun, fun hfailed _ _ => ?_⟩ fun h => h.1 rfl
        exact hstatus.trans (openclaw_retry hs hfailed rfl)
  · cases call with
    | start agentId reload ops =>
      have htruth := htruthful.mpr
        (serving_start_truthful hs.truthful (serving_start_after hruntime rfl))
      exact iff_of_true ⟨htruth, fun _ _ => nofun⟩ fun h => absurd h hruntime
    | stop agentId outcome =>
      have htruth := htruthful.mpr (serving_stop_truthful hruntime rfl)
      cases outcome with
      | some error => exact iff_of_true ⟨htruth, fun _ _ => nofun⟩ fun h => hruntime h.1
      | none =>
        constructor
        · rintro h ⟨-, hfailed, hstatus'⟩
          have hstopped := hstatus.symm.trans (h.retried hfailed agentId rfl)
          exact (serving_retry hs hfailed hruntime rfl).mp hstopped hstatus'
        · refine fun h => ⟨htruth, fun hfailed _ _ => hstatus.trans ?_⟩
          exact (serving_retry hs hfailed hruntime rfl).mpr fun hstatus' =>
            h ⟨hruntime, hfailed, hstatus'⟩

theorem status_after (hs' : (perform runtime call s).2 = s') :
    s'.status = s.status ∨ s'.status = .running ∨ s'.status = .stopped ∨
      runtime ≠ .openclaw ∧ s'.status = .failed := by
  by_cases hruntime : runtime = .openclaw
  · subst hruntime
    cases call with
    | start agentId reload ops =>
      obtain ⟨-, hstatus, -⟩ | ⟨-, hstatus, -⟩ | ⟨-, -, hkept | hruns⟩ := openclaw_start_after hs'
      · exact .inl hstatus
      · exact .inl hstatus
      · exact .inl hkept.1
      · exact .inr (.inl hruns.1)
    | stop agentId outcome =>
      obtain ⟨-, hstatus, -⟩ | ⟨-, hkept⟩ := openclaw_stop_after hs'
      · exact .inr (.inr (.inl hstatus))
      · exact .inl hkept.1
  · cases call with
    | start agentId reload ops =>
      obtain hkept | hruns | hfailed := serving_start_after hruntime hs'
      · exact .inl hkept.1
      · exact .inr (.inl hruns.1)
      · exact .inr (.inr (.inr ⟨hruntime, hfailed.1⟩))
    | stop agentId outcome =>
      obtain ⟨-, hstatus, -⟩ | ⟨-, -, ⟨-, hstatus⟩ | ⟨-,
        hstatus⟩⟩ := serving_stop_after hruntime hs'
      · exact .inr (.inr (.inr ⟨hruntime, hstatus⟩))
      · exact .inr (.inr (.inl hstatus))
      · exact .inl hstatus

theorem status_of_failsToStop (hfails : s.failsToStop runtime call = true)
    (hs' : (perform runtime call s).2 = s') :
    s'.status = .stopped ∨ s'.status = .failed := by
  cases call with
  | start agentId reload ops => cases hfails
  | stop agentId outcome =>
    obtain ⟨hsome, hreached⟩ := Bool.and_eq_true_iff.mp hfails
    by_cases hruntime : runtime = .openclaw
    · subst hruntime
      obtain ⟨-, hstatus, -⟩ | ⟨hmem, -⟩ := openclaw_stop_after hs'
      · exact .inl hstatus
      · rw [Bool.or_eq_true, decide_eq_true_eq, decide_eq_true_eq] at hreached
        exact absurd (hreached.resolve_left fun h => h rfl) hmem
    · obtain ⟨-, hstatus, -⟩ | ⟨hnone, -⟩ := serving_stop_after hruntime hs'
      · exact .inr hstatus
      · rw [hnone] at hsome
        cases hsome

theorem known_step (hs : s.Known runtime)
    (hg : s.KeepsTruth runtime call) (h : step runtime s call = some s') : s'.Known runtime := by
  have htruthful := ((honest_step hs h).mpr hg).truthful
  obtain rfl := Option.some.inj h
  obtain ⟨t, ht⟩ : ∃ t, (perform runtime call s).2 = t := ⟨_, rfl⟩
  have hstatus := status_after ht
  rw [ht] at htruthful ⊢
  refine ⟨htruthful, fun hruntime => ?_, fun hfailed => ?_⟩
  · obtain hstatus | hstatus | hstatus | ⟨hother, -⟩ := hstatus
    · rw [hstatus]
      exact hs.failed hruntime
    · rw [hstatus]
      nofun
    · rw [hstatus]
      nofun
    · exact absurd hruntime hother
  · obtain hbefore | hnow := Bool.or_eq_true_iff.mp hfailed
    · obtain hstatus | hstatus | hstatus | ⟨-, hstatus⟩ := hstatus
      · rw [hstatus]
        exact hs.retried hbefore
      · exact .inr (.inl hstatus)
      · exact .inl hstatus
      · exact .inr (.inr hstatus)
    · exact (status_of_failsToStop hnow ht).imp_right .inr

end

/-- In every run of starts and stops each call leaves a status that tells whether the process is
alive, and ends in `stopped` when it is a stop that succeeds after one that failed, if and only if
each call keeps the truth. -/
theorem status_truthful_iff (runtime : RuntimeType) (alive : Bool) (calls : List AgentCall) :
    Guarded (step runtime)
        (fun s call => ∀ s', step runtime s call = some s' → Honest s call s') { alive } calls ↔
      Guarded (step runtime) (KeepsTruth runtime) { alive } calls := by
  have hknown : Known runtime { alive } := ⟨⟨nofun, nofun⟩, fun _ => nofun, nofun⟩
  refine guarded_iff_guarded_among (fun s a s' hs _ hg h => known_step hs hg h) ?_
    (guarded_true _ _) hknown
  intro s call s' hs _ h
  constructor
  · exact fun hall => (honest_step hs h).mp (hall s' h)
  · intro hg t ht
    exact (honest_step hs ht).mpr hg

/-- A stop of openclaw fails: the agent is `stopped` and its gateway runs on. -/
theorem stopped_openclaw_still_alive : ¬ ∀ (runtime : RuntimeType) (calls : List AgentCall),
    Guarded (step runtime)
      (fun s call => ∀ s', step runtime s call = some s' → Honest s call s') {} calls := by
  intro h
  have hsteps := h .openclaw [.start none true {}, .stop none (some ⟨"uninstall", "failed"⟩)]
  obtain ⟨-, hstop⟩ := hsteps _ rfl
  have hhonest := (hstop _ rfl).1 _ rfl
  exact nomatch hhonest.truthful.stopped rfl

end AgentService

end WittyService.AgentServer
