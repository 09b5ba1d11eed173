import Mathlib.Logic.Function.Basic
import WittyService.AssistantTurn
import WittyService.GuardedRuns

/-! Crashes of the service process and the recovery of generating messages at its start. A
step of a turn only queues its repository calls, which are then made one by one, so that the
process can die between any two of them. -/
namespace WittyService

inductive ProcessPhase where
  | idle
  | running
  | over
  deriving DecidableEq, Repr

def ProcessPhase.after (ended : Bool) : ProcessPhase := if ended then .over else .running

structure TurnProcess where
  phase : ProcessPhase
  consumer : Consumer
  outbox : List MessageCall

/-- The turns of all sessions, each with the assistant message it creates. `storedBefore` is
no data of the program: the messages that were in the database when the process last died. -/
structure Service where
  turns : Nat → TurnProcess
  messages : Nat → Option MessageRow
  storedBefore : Nat → Bool

def Service.new : Service := ⟨fun _ => ⟨.idle, .new 0 0, []⟩, fun _ => none, fun _ => false⟩

/-- `finish` is an end without a failure status; `delete` is the deletion of the row by a
regeneration or with its session. -/
inductive ServiceAction where
  | start (t : Nat) (lastCheckpointTime lastFlushTime : Int)
  | event (t : Nat) (a : Arrival) (endedAt : Int)
  | recvRaises (t : Nat) (endedAt : Int)
  | finish (t : Nat)
  | call (t : Nat)
  | abort (t : Nat)
  | delete (t : Nat)
  | restart (now : Int)

def STALE_THRESHOLD : Int := 30000000

/-- The filter of `find_stale_generating_messages`; a comparison with NULL selects nothing. -/
def findStaleGeneratingMessages (now : Int) (row : MessageRow) : Bool :=
  row.status = .generating && row.lastStreamAt.any fun stamp => stamp < now - STALE_THRESHOLD

/-- `recover_stale_generations` on one message. -/
def recoverStaleGenerations (now : Int) (row : Option MessageRow) : Option MessageRow :=
  if row.any (findStaleGeneratingMessages now) then
    (MessageCall.updateMessageStatus .interrupted).apply row
  else row

namespace Service

def setTurn (s : Service) (t : Nat) (p : TurnProcess) : Service :=
  { s with turns := Function.update s.turns t p }

def setMessage (s : Service) (t : Nat) (row : Option MessageRow) : Service :=
  { s with messages := Function.update s.messages t row }

/-- The process dies and is started again at `now`. -/
def restart (s : Service) (now : Int) : Service where
  turns t := if (s.turns t).phase = .idle then s.turns t else ⟨.over, (s.turns t).consumer, []⟩
  messages t := recoverStaleGenerations now (s.messages t)
  storedBefore t := s.storedBefore t || (s.messages t).isSome

end Service

/-- The consumer of `t` may go on: its task runs and has made its repository calls. -/
def TurnProcess.ready (p : TurnProcess) : Bool := p.phase = .running && p.outbox.isEmpty

def serviceStep (ws : Workspace) (s : Service) : ServiceAction → Option Service
  | .start t lastCheckpointTime lastFlushTime =>
    if (s.turns t).phase = .idle then
      some (s.setTurn t ⟨.running, .new lastCheckpointTime lastFlushTime, []⟩)
    else none
  | .event t a endedAt =>
    if (s.turns t).ready then
      let r := (s.turns t).consumer.receive ws a endedAt
      some (s.setTurn t ⟨.after r.2.2, r.1, r.2.1⟩)
    else none
  | .recvRaises t endedAt =>
    if (s.turns t).ready then
      let final := (s.turns t).consumer.finalizeAbnormalTurn .interrupted endedAt
      some (s.setTurn t ⟨.over, final.1, final.2⟩)
    else none
  | .finish t =>
    if (s.turns t).ready then some (s.setTurn t { s.turns t with phase := .over }) else none
  | .call t =>
    match (s.turns t).outbox with
    | [] => none
    | c :: rest => some ((s.setTurn t { s.turns t with outbox := rest }).setMessage t
        (c.apply (s.messages t)))
  | .abort t => some (s.setMessage t
      ((MessageCall.updateMessageStatus .interrupted).apply (s.messages t)))
  | .delete t => some (s.setMessage t none)
  | .restart now => some (s.restart now)

/-- No message stored before the last crash is generating. -/
def NothingLeftGenerating (s : Service) : Prop :=
  ∀ t, s.storedBefore t = true → ∀ row, s.messages t = some row → row.status ≠ .generating

/-- At a restart every generating message has a checkpoint time, more than the threshold
ago. -/
def CheckpointedLongAgo (s : Service) : ServiceAction → Prop
  | .restart now => ∀ t row, s.messages t = some row → row.status = .generating →
      ∃ stamp, row.lastStreamAt = some stamp ∧ stamp < now - STALE_THRESHOLD
  | _ => True

/-- The turns of earlier processes are over, so only an abort or a deletion can still
change their messages; a turn that has not begun has none. -/
structure ProcessesTracked (s : Service) : Prop where
  earlier : ∀ t, s.storedBefore t = true →
    (s.turns t).phase = .over ∧ (s.turns t).outbox = []
  unborn : ∀ t, (s.turns t).phase = .idle → s.messages t = none ∧ (s.turns t).outbox = []

theorem processes_tracked_new : ProcessesTracked .new := by
  constructor <;> simp [Service.new]

theorem nothing_left_generating_new : NothingLeftGenerating .new := by
  simp [NothingLeftGenerating, Service.new]

theorem recover_generating_iff (now : Int) (row : MessageRow) :
    (∃ row', recoverStaleGenerations now (some row) = some row' ∧ row'.status = .generating) ↔
      row.status = .generating ∧
        ¬ ∃ stamp, row.lastStreamAt = some stamp ∧ stamp < now - STALE_THRESHOLD := by
  have hstale : findStaleGeneratingMessages now row = true ↔ row.status = .generating ∧
      ∃ stamp, row.lastStreamAt = some stamp ∧ stamp < now - STALE_THRESHOLD := by
    cases hat : row.lastStreamAt <;> simp [findStaleGeneratingMessages, hat]
  unfold recoverStaleGenerations
  by_cases h : findStaleGeneratingMessages now row = true
  · simp [h, MessageCall.apply, (hstale.mp h).2]
  · simp only [Option.any_some, h, Bool.false_eq_true, if_false, Option.some.injEq]
    constructor
    · rintro ⟨row', rfl, hgen⟩
      exact ⟨hgen, fun hat => h (hstale.mpr ⟨hgen, hat⟩)⟩
    · rintro ⟨hgen, -⟩
      exact ⟨row, rfl, hgen⟩

theorem restart_clean_iff (s : Service) (now : Int) :
    NothingLeftGenerating (s.restart now) ↔ CheckpointedLongAgo s (.restart now) := by
  constructor
  · intro hclean t row hrow hgen
    by_contra hnot
    obtain ⟨row', hrow', hgen'⟩ := (recover_generating_iff now row).mpr ⟨hgen, hnot⟩
    have hstored : (s.restart now).storedBefore t = true := by
      simp [Service.restart, hrow]
    refine hclean t hstored row' ?_ hgen'
    show recoverStaleGenerations now (s.messages t) = some row'
    rw [hrow, hrow']
  · intro hold t _ row' hrow' hgen'
    change recoverStaleGenerations now (s.messages t) = some row' at hrow'
    cases hrow : s.messages t with
    | none => simp [hrow, recoverStaleGenerations] at hrow'
    | some row =>
      rw [hrow] at hrow'
      obtain ⟨hgen, hnot⟩ := (recover_generating_iff now row).mp ⟨row', hrow', hgen'⟩
      exact hnot (hold t row hrow hgen)

section

variable {s : Service} (h : ProcessesTracked s)
include h

theorem tracked_setTurn {t : ℕ} {p : TurnProcess}
    (hlive : (s.turns t).phase ≠ .over ∨ (s.turns t).outbox ≠ []) (hp : p.phase ≠ .idle) :
    ProcessesTracked (s.setTurn t p) := by
  constructor
  · intro t' hstored
    have hne : t' ≠ t := by
      rintro rfl
      obtain ⟨hphase, hout⟩ := h.earlier t' hstored
      exact hlive.elim (fun hp => hp hphase) (fun ho => ho hout)
    simpa [Service.setTurn, hne] using h.earlier t' hstored
  · intro t' hidle
    have hne : t' ≠ t := by
      rintro rfl
      exact hp (by simpa [Service.setTurn] using hidle)
    simpa [Service.setTurn, hne] using h.unborn t' (by simpa [Service.setTurn, hne] using hidle)

theorem tracked_setMessage {t : ℕ}
    {row : Option MessageRow} (hrow : (s.turns t).phase = .idle → row = none) :
    ProcessesTracked (s.setMessage t row) := by
  refine ⟨h.earlier, fun t' hidle => ⟨?_, (h.unborn t' hidle).2⟩⟩
  by_cases htt : t' = t
  · subst htt
    simpa [Service.setMessage] using hrow hidle
  · simpa [Service.setMessage, htt] using (h.unborn t' hidle).1

theorem tracked_restart (now : Int) :
    ProcessesTracked (s.restart now) := by
  constructor
  · intro t hstored
    have hbegun : (s.turns t).phase ≠ .idle := by
      intro hidle
      have hboth : s.storedBefore t = true ∨ (s.messages t).isSome = true := by
        simpa [Service.restart] using hstored
      rcases hboth with hearlier | hmessage
      · rw [(h.earlier t hearlier).1] at hidle
        cases hidle
      · rw [(h.unborn t hidle).1] at hmessage
        cases hmessage
    simp [Service.restart, hbegun]
  · intro t hidle
    have hbegun : (s.turns t).phase = .idle := by
      by_contra hne
      simp [Service.restart, hne] at hidle
    obtain ⟨hnone, hout⟩ := h.unborn t hbegun
    simp [Service.restart, hbegun, hnone, hout, recoverStaleGenerations]

end

theorem ready_phase {p : TurnProcess} (h : p.ready = true) : p.phase = .running := by
  simp only [TurnProcess.ready, Bool.and_eq_true, decide_eq_true_eq] at h
  exact h.1

theorem clean_setMessage {s : Service} (h : NothingLeftGenerating s) {t : ℕ}
    {row : Option MessageRow} (hrow : s.storedBefore t = true → ∀ r, row = some r →
      r.status ≠ .generating) : NothingLeftGenerating (s.setMessage t row) := by
  intro t' hstored r hr
  by_cases htt : t' = t
  · subst htt
    exact hrow hstored r (by simpa [Service.setMessage] using hr)
  · exact h t' hstored r (by simpa [Service.setMessage, htt] using hr)

theorem service_step {ws : Workspace} {s s' : Service} {a : ServiceAction}
    (hj : ProcessesTracked s) (h : NothingLeftGenerating s) (hs : serviceStep ws s a = some s') :
    ProcessesTracked s' ∧ (NothingLeftGenerating s' ↔ CheckpointedLongAgo s a) := by
  -- a step of a consumer changes no message before its calls are made
  have hready : ∀ t p, (s.turns t).ready = true → p.phase ≠ .idle →
      ProcessesTracked (s.setTurn t p) := fun t p hr hp =>
    tracked_setTurn hj (.inl (by simp [ready_phase hr])) hp
  cases a with
  | start t t₁ t₂ =>
    simp only [serviceStep] at hs
    split_ifs at hs with hidle
    cases hs
    exact ⟨tracked_setTurn hj (.inl (by simp [hidle])) (by simp), iff_of_true h trivial⟩
  | event t a endedAt =>
    simp only [serviceStep] at hs
    split_ifs at hs with hr
    cases hs
    refine ⟨hready t _ hr ?_, iff_of_true h trivial⟩
    show ProcessPhase.after _ ≠ .idle
    unfold ProcessPhase.after
    split_ifs <;> simp
  | recvRaises t endedAt | finish t =>
    simp only [serviceStep] at hs
    split_ifs at hs with hr
    cases hs
    exact ⟨hready t _ hr (by simp), iff_of_true h trivial⟩
  | call t =>
    simp only [serviceStep] at hs
    split at hs
    · cases hs
    · next c rest hout =>
      cases hs
      have hlive : (s.turns t).outbox ≠ [] := by simp [hout]
      have hbegun : (s.turns t).phase ≠ .idle := fun hidle => hlive (hj.unborn t hidle).2
      constructor
      · have hturn : ProcessesTracked (s.setTurn t { s.turns t with outbox := rest }) :=
          tracked_setTurn hj (.inr hlive) hbegun
        refine tracked_setMessage hturn fun hidle => ?_
        exact absurd (by simpa [Service.setTurn] using hidle) hbegun
      · refine iff_of_true (clean_setMessage h fun hstored => ?_) trivial
        exact absurd (hj.earlier t hstored).2 hlive
  | abort t =>
    cases hs
    constructor
    · refine tracked_setMessage hj fun hidle => ?_
      rw [(hj.unborn t hidle).1]
      rfl
    · refine iff_of_true (clean_setMessage h fun _ r hr => ?_) trivial
      obtain ⟨row, -, heq⟩ := Option.map_eq_some_iff.mp hr
      rw [← heq]
      simp
  | delete t =>
    cases hs
    refine ⟨tracked_setMessage hj fun _ => rfl, iff_of_true (clean_setMessage h ?_) trivial⟩
    intro _ r hr
    cases hr
  | restart now =>
    cases hs
    exact ⟨tracked_restart hj now, restart_clean_iff s now⟩

/-- Over every history of turns, crashes and restarts: no message stored before a crash is
generating after the recovery if and only if at each restart every message that is still
generating was checkpointed, more than the threshold ago. -/
theorem recovery_complete_iff (ws : Workspace) (as : List ServiceAction) :
    GuardedRuns.Always (serviceStep ws) NothingLeftGenerating .new as ↔
      GuardedRuns.Guarded (serviceStep ws) CheckpointedLongAgo .new as :=
  GuardedRuns.always_iff_guarded
    (fun _ _ _ hj h _ hs => (service_step hj h hs).1)
    (fun _ _ _ hj h hs => (service_step hj h hs).2)
    processes_tracked_new nothing_left_generating_new

def earlyCrash : List ServiceAction :=
  [.start 0 0 0,
    .event 0 ⟨⟨.messageDelta, .obj [("delta", .str "hi")]⟩, false, 0, 0, 0, 0⟩ 0,
    .call 0, .restart 86400000000]

/-- The row has no checkpoint time, so no recovery ever selects it. -/
theorem early_crash_stays_generating :
    ¬ ∀ (ws : Workspace) (as : List ServiceAction),
      GuardedRuns.Always (serviceStep ws) NothingLeftGenerating .new as := by
  intro h
  have hlast := GuardedRuns.always_last (h ⟨fun _ => none, fun _ => false⟩ earlyCrash) rfl
  exact hlast 0 rfl _ rfl rfl

end WittyService
