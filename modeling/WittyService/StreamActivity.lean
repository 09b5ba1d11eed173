import WittyService.TurnStreams

/-! When `is_active` tells the truth. The registry infers activity from a subscriber list
without a terminated mark; the turns and the reconnecting clients create and remove both. -/
namespace WittyService

variable {E : Type*}

/-- `is_active` holds exactly while a stream that a turn reserved or started has not ended. -/
def ActivityTruthful (s : TurnStreams E) : Prop :=
  s.registry.isActive = s.current.isSome

/-- What an action must find for `is_active` to stay truthful: a stream is ended only by
the turn that owns it, and a queue is registered only while a subscriber list exists. -/
def EndsOwnStream (s : TurnStreams E) : StreamAction E → Prop
  | .finish t | .fail t _ | .throw t _ => NoForeignStream s t
  | .release t => s.registry.generation = (s.turns t).generation → NoForeignStream s t
  | .handOver _ => s.registry.subscribers.isSome
  | .resume c => (∃ e rest, (s.clients c).phase = .replaying (e :: rest)) ∨
      s.registry.subscribers.isSome
  | _ => True

/-- A mark or a number is never left without a subscriber list, and the stream that has not
ended carries the number of its turn. -/
structure ActivityTracked (s : TurnStreams E) : Prop where
  marked : s.registry.terminated = true → s.registry.subscribers.isSome
  numbered : s.registry.generation.isSome → s.registry.subscribers.isSome
  owned : ∀ t, s.current = some t → ∃ g, (s.turns t).generation = some g ∧
    s.registry.generation = some g

theorem activity_tracked_new : ActivityTracked (TurnStreams.new : TurnStreams E) := by
  constructor <;> simp [TurnStreams.new, SessionStreamRegistry.new]

theorem activity_truthful_new : ActivityTruthful (TurnStreams.new : TurnStreams E) := rfl

open SessionStreamRegistry

variable {s s' : TurnStreams E} {t : Nat} {a : StreamAction E}

theorem owned_setPhase (h : ActivityTracked s) {p : TurnPhase} (hne : s.current ≠ some t) :
    ∀ t', s.current = some t' → ∃ g, ((Function.update s.turns t p) t').generation = some g ∧
      s.registry.generation = some g := by
  intro t' ht'
  have htt : t' ≠ t := fun heq => hne (heq ▸ ht')
  rw [Function.update_of_ne htt]
  exact h.owned t' ht'

theorem idle_not_current (h : ActivityTracked s) (ht : s.turns t = .idle) : s.current ≠ some t := by
  intro hc
  obtain ⟨g, hg, _⟩ := h.owned t hc
  simp [ht, TurnPhase.generation] at hg

theorem tracked_of_cleanup (hsub : s'.registry.subscribers = none)
    (hterm : s'.registry.terminated = false) (hgen : s'.registry.generation = none)
    (hq : ActivityTruthful s') : ActivityTracked s' := by
  have hnone : s'.current = none := by
    simpa [ActivityTruthful, isActive, hsub] using hq.symm
  exact ⟨by simp [hterm], by simp [hgen], by simp [hnone]⟩

section

variable {s : TurnStreams E} (h : ActivityTracked s)
include h

theorem tracked_subscribe (listener : Option (Nat × Nat)) : ActivityTracked (s.listen listener) :=
  ⟨fun _ => rfl, fun _ => rfl, h.owned⟩

theorem tracked_setClient (c : Nat) (r : Reconnect E) : ActivityTracked (s.setClient c r) :=
  ⟨h.marked, h.numbered, h.owned⟩

theorem tracked_drop (q : Nat) :
    ActivityTracked (s.drop q) := by
  refine ⟨fun hm => ?_, fun hn => ?_, h.owned⟩
  · simpa [TurnStreams.drop, unsubscribe] using h.marked hm
  · simpa [TurnStreams.drop, unsubscribe] using h.numbered hn

theorem tracked_replay (c : Nat) (follows : Option Nat) (received rest : List E) :
    ActivityTracked (s.replay c follows received rest) := by
  cases rest with
  | nil => exact tracked_setClient (tracked_subscribe h _) c _
  | cons e rest => exact tracked_setClient h c _

end

theorem tracked_move (h : ActivityTracked s)
    (hq' : ActivityTruthful s') (hm : StreamMove s a s') : ActivityTracked s' := by
  cases hm with
  | @start t ht | @reserve t ht _ =>
    refine ⟨fun _ => rfl, fun _ => rfl, ?_⟩
    intro t' ht'
    have htt : t = t' := Option.some.inj ht'
    subst htt
    exact ⟨s.registry.nextGeneration, by simp [TurnStreams.setPhase, TurnPhase.generation], rfl⟩
  | refuse ht _ => exact ⟨h.marked, h.numbered, owned_setPhase h (idle_not_current h ht)⟩
  | @release t g ht =>
    refine ⟨fun hm => ?_, fun hn => ?_, fun t' ht' => ?_⟩
    · change ((s.registry.releaseStream g).subscribers).isSome = true
      rw [subscribers_releaseStream]
      by_cases hg : s.registry.generation = some g
      · exact h.numbered (by simp [hg])
      · refine h.marked ?_
        change (s.registry.releaseStream g).terminated = true at hm
        rwa [releaseStream, if_neg hg] at hm
    · change ((s.registry.releaseStream g).subscribers).isSome = true
      change ((s.registry.releaseStream g).generation).isSome = true at hn
      rw [generation_releaseStream] at hn
      rw [subscribers_releaseStream]
      exact h.numbered hn
    · obtain ⟨hc, hne⟩ := currentWithout_eq_some.mp ht'
      obtain ⟨g', hg', hr⟩ := h.owned t' hc
      refine ⟨g', ?_, ?_⟩
      · change ((Function.update s.turns t _) t').generation = some g'
        rw [Function.update_of_ne hne, hg']
      · change (s.registry.releaseStream g).generation = some g'
        rw [generation_releaseStream, hr]
  | @handOver t g ht =>
    refine ⟨fun _ => rfl, fun _ => rfl, fun t' ht' => ?_⟩
    obtain ⟨g', hg', hr⟩ := h.owned t' ht'
    refine ⟨g', ?_, hr⟩
    change ((Function.update s.turns t _) t').generation = some g'
    by_cases htt : t' = t
    · subst htt
      simpa [ht, TurnPhase.generation] using hg'
    · rw [Function.update_of_ne htt, hg']
  | @push t g q e ht =>
    refine ⟨fun hm => ?_, fun hn => ?_, fun t' ht' => ?_⟩
    · change ((s.registry.pushEvent e g).subscribers).isSome = true
      change (s.registry.pushEvent e g).terminated = true at hm
      rw [terminated_pushEvent] at hm
      rw [subscribers_pushEvent]
      exact h.marked hm
    · change ((s.registry.pushEvent e g).subscribers).isSome = true
      change ((s.registry.pushEvent e g).generation).isSome = true at hn
      rw [generation_pushEvent] at hn
      rw [subscribers_pushEvent]
      exact h.numbered hn
    · obtain ⟨g', hg', hr⟩ := h.owned t' ht'
      refine ⟨g', hg', ?_⟩
      change (s.registry.pushEvent e g).generation = some g'
      rw [generation_pushEvent, hr]
  | finish _ | fail _ | throw _ => exact tracked_of_cleanup rfl rfl rfl hq'
  | disconnect _ => exact tracked_drop h _
  | reconnect _ _ | resume _ => exact tracked_replay h _ _ _ _
  | noStream _ _ | takeEvent _ _ | takeEnd _ _ | leaveReplay _ => exact tracked_setClient h _ _
  | leaveLive _ => exact tracked_setClient (tracked_drop h _) _ _

/-- Registering a queue keeps `is_active` truthful exactly when the list is still there:
without it the list is created anew and nothing will ever mark or remove it. -/
theorem truthful_subscribe_iff (h : ActivityTracked s)
    (hq : ActivityTruthful s) (hr : s'.registry = s.registry.subscribe)
    (hc : s'.current = s.current) :
    ActivityTruthful s' ↔ s.registry.subscribers.isSome := by
  rw [ActivityTruthful, hr, hc, ← hq, isActive_subscribe]
  cases hsub : s.registry.subscribers with
  | some subs => simp [isActive, hsub]
  | none =>
    have hterm : s.registry.terminated = false := by
      cases ht : s.registry.terminated with
      | false => rfl
      | true => simpa [hsub] using h.marked ht
    simp [isActive, hsub, hterm]

theorem truthful_goLive_iff (h : ActivityTracked s)
    (hq : ActivityTruthful s) (c : Nat) (follows : Option Nat) (received : List E) :
    ActivityTruthful (s.goLive c follows received) ↔ s.registry.subscribers.isSome := by
  have hr : (s.goLive c follows received).registry = s.registry.subscribe := rfl
  exact truthful_subscribe_iff h hq hr rfl

theorem truthful_cleanup_iff
    (hr : s'.registry.isActive = false) (hc : s'.current = s.currentWithout t) :
    ActivityTruthful s' ↔ NoForeignStream s t := by
  rw [ActivityTruthful, hr, hc, eq_comm]
  exact currentWithout_isSome_iff

theorem truthful_release_iff (h : ActivityTracked s)
    (hq : ActivityTruthful s) {g : Nat} (ht : s.turns t = .reserved g) :
    ActivityTruthful ((s.releaseBy t g).setPhase t .over) ↔ EndsOwnStream s (.release t) := by
  have hgen : (s.turns t).generation = some g := by rw [ht]; rfl
  simp only [EndsOwnStream, hgen]
  by_cases hg : s.registry.generation = some g
  · simp only [hg, true_implies]
    refine truthful_cleanup_iff ?_ rfl
    change (s.registry.releaseStream g).isActive = false
    rw [releaseStream, if_pos hg, isActive_endStream]
  · -- another number is current, so the release does nothing and `t` owned no stream
    have hne : s.current ≠ some t := by
      intro hc
      obtain ⟨g', hg', hr⟩ := h.owned t hc
      rw [hgen] at hg'
      exact hg (hr.trans hg'.symm)
    simp only [hg, false_implies, iff_true]
    change (s.registry.releaseStream g).isActive = (s.currentWithout t).isSome
    rw [releaseStream, if_neg hg, TurnStreams.currentWithout, if_neg hne]
    exact hq

theorem truthful_move_iff (h : ActivityTracked s)
    (hq : ActivityTruthful s) (hm : StreamMove s a s') :
    ActivityTruthful s' ↔ EndsOwnStream s a := by
  cases hm with
  | start _ | reserve _ _ => exact iff_of_true rfl trivial
  | refuse _ _ | noStream _ _ | takeEvent _ _ | takeEnd _ _ | leaveReplay _ =>
    exact iff_of_true hq trivial
  | release ht => exact truthful_release_iff h hq ht
  | handOver _ => exact truthful_subscribe_iff h hq rfl rfl
  | push _ => exact iff_of_true ((isActive_pushEvent _ _ _).trans hq) trivial
  | finish _ | throw _ => exact truthful_cleanup_iff rfl rfl
  | @fail t g q e _ =>
    exact truthful_cleanup_iff rfl (currentWithout_endBy (s.pushBy t g e) t)
  | disconnect _ | leaveLive _ => exact iff_of_true ((isActive_unsubscribe _ _).trans hq) trivial
  | @reconnect c _ ha =>
    have hsub := ((isActive_iff _).mp ha).1
    cases s.registry.getBufferedEvents with
    | nil => exact iff_of_true ((truthful_goLive_iff h hq c _ []).mpr hsub) trivial
    | cons e rest => exact iff_of_true hq trivial
  | @resume c rest hc =>
    cases rest with
    | nil =>
      rw [TurnStreams.replay, truthful_goLive_iff h hq]
      simp [EndsOwnStream, hc]
    | cons e rest => exact iff_of_true hq (Or.inl ⟨e, rest, hc⟩)

/-- `is_active` is truthful, and once every turn is over a regeneration is let in. -/
structure ActivityLaw (s : TurnStreams E) : Prop where
  truthful : ActivityTruthful s
  accepts : (∀ t, (s.turns t).generation = none) → s.registry.tryStartStream.isSome

theorem activity_law (h : ActivityTracked s) (hq : ActivityTruthful s) :
    ActivityLaw s := by
  refine ⟨hq, fun hover => ?_⟩
  have hnone : s.current = none := by
    rw [Option.eq_none_iff_forall_ne_some]
    intro t ht
    obtain ⟨g, hg, _⟩ := h.owned t ht
    rw [hover t] at hg
    cases hg
  have hidle : s.registry.isActive = false := by rw [hq, hnone]; rfl
  simp [tryStartStream, hidle]

/-- Over every interleaving of turns and reconnects, `is_active` is truthful in every state
reached if and only if streams are ended only by their own turn and no queue is registered
after the subscriber list was removed. -/
theorem activity_truthful_iff (as : List (StreamAction E)) :
    GuardedRuns.Always streamStep ActivityLaw .new as ↔
      GuardedRuns.Guarded streamStep EndsOwnStream .new as := by
  constructor
  · intro h
    -- each step is judged on the truth of `is_active` alone
    have htruth := GuardedRuns.always_mono (fun _ hs => ActivityLaw.truthful hs) h
    exact (GuardedRuns.always_iff_guarded
      (fun _ _ _ h _ hq' hs => tracked_move h hq' (stream_move_of_step hs))
      (fun _ _ _ h hq hs => truthful_move_iff h hq (stream_move_of_step hs))
      activity_tracked_new activity_truthful_new).mp htruth
  · intro h
    have hboth := GuardedRuns.always_of_guarded
      (Q := fun s => ActivityTracked s ∧ ActivityTruthful s)
      (fun _ _ _ hs hg hstep =>
        have hm := stream_move_of_step hstep
        have hq' := (truthful_move_iff hs.1 hs.2 hm).mpr hg
        ⟨tracked_move hs.1 hq' hm, hq'⟩)
      ⟨activity_tracked_new, activity_truthful_new⟩ h
    exact GuardedRuns.always_mono (fun _ hs => activity_law hs.1 hs.2) hboth

/-- A client reconnects, the turn ends while the buffered event is being replayed, and the
client then registers its live queue. -/
def lateSubscription : List (StreamAction Nat) :=
  [.start 0, .push 0 7, .reconnect 0, .finish 0, .resume 0, .leave 0]

/-- All turns and reconnects are over, and the session still counts as busy. -/
theorem late_subscription_stays_active :
    ¬ ∀ as : List (StreamAction Nat), GuardedRuns.Always streamStep ActivityLaw .new as := by
  intro h
  have hlast := (GuardedRuns.always_last (h lateSubscription) rfl).truthful
  unfold ActivityTruthful at hlast
  revert hlast
  decide

end WittyService
