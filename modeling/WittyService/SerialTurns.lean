import WittyService.TaskPool

/-! When the turns of a session are serial and can be aborted: as long as no turn is submitted
between the end of the mark and the end of the task, and none is aborted before its task begins. -/
namespace WittyService

open GuardedRuns

variable {t t' : PoolTurn} {action : PoolTurnAction}

namespace PoolTurn

structure Sound (t : PoolTurn) : Prop where
  done : t.phase = .ended → t.producer = .done
  released : t.phase = .awaiting ∨ t.phase = .ended → t.released = true

def releasesBy (t : PoolTurn) : PoolTurnAction → Bool
  | .releases | .finalizes => true
  | _ => t.released

def activeBy (t : PoolTurn) : PoolTurnAction → Bool
  | .begins => true
  | .finalizes => false
  | _ => t.phase.isActive

theorem sound_step (ht : t.Sound) (h : t.step action = some t') :
    t'.Sound ∧ t.phase ≠ .ended ∧ t'.released = t.releasesBy action ∧
      t'.phase.isActive = t.activeBy action := by
  obtain ⟨hdone, hreleased⟩ := ht
  have hproducer (hp : t.producer ≠ .done) : t.phase ≠ .ended := fun hend => hp (hdone hend)
  have hstays (hp : t.producer ≠ .done) {producer : ProducerPhase}
      {queue : List (Option StreamItem)} :
      Sound { t with producer, queue } ∧ t.phase ≠ .ended :=
    ⟨⟨fun h => absurd h (hproducer hp), hreleased⟩, hproducer hp⟩
  cases step_cases h with
  | begins hphase => exact ⟨⟨nofun, nofun⟩, hphase ▸ nofun, rfl, rfl⟩
  | starts _ hp | puts item hp | done hp =>
    obtain ⟨hsound, hend⟩ := hstays (hp ▸ nofun)
    exact ⟨hsound, hend, rfl, rfl⟩
  | closes _ items hp haction =>
    obtain ⟨hsound, hend⟩ := hstays (hp ▸ nofun)
    obtain ⟨item, rfl⟩ | rfl | rfl := haction <;> exact ⟨hsound, hend, rfl, rfl⟩
  | takes item queue hphase =>
    have hactive : (phaseOf item).isActive = true := by
      unfold phaseOf
      cases item with
      | none => rfl
      | some item =>
        dsimp only
        split_ifs <;> rfl
    refine ⟨⟨fun h => ?_, fun h => ?_⟩, hphase ▸ nofun, rfl, ?_⟩
    · change phaseOf item = _ at h
      rw [h] at hactive
      cases hactive
    · change phaseOf item = _ ∨ phaseOf item = _ at h
      obtain h | h := h <;>
      · rw [h] at hactive
        cases hactive
    · change (phaseOf item).isActive = t.phase.isActive
      rw [hactive, hphase]
      rfl
  | releases item hphase | forwards item hphase | raises item hphase =>
    refine ⟨⟨nofun, nofun⟩, hphase ▸ nofun, rfl, ?_⟩
    change true = t.phase.isActive
    rw [hphase]
    rfl
  | finalizes hphase => exact ⟨⟨nofun, fun _ => rfl⟩, hphase ▸ nofun, rfl, rfl⟩
  | ends hphase hp =>
    refine ⟨⟨fun _ => hp, fun _ => hreleased (.inl hphase)⟩, hphase ▸ nofun, rfl, ?_⟩
    change false = t.phase.isActive
    rw [hphase]
    rfl

end PoolTurn

namespace TaskPool

variable {s s' : TaskPool} {i : Nat}

/-- What is asked of a step: an earlier turn is over when a turn is accepted, its producer has
finished when the producer of the next one starts, and an abort signals the turn that is
unfinished and no other. -/
structure KeepsTurnsApart (s : TaskPool) (a : TaskPoolAction) (s' : TaskPool) : Prop where
  accepts : a = .submit → s.turns.length < s'.turns.length → ∀ t ∈ s.turns, t.IsOver
  starts : ∀ i : Nat, a = .turn i .producerStarts → ∀ j < i, ∀ t : PoolTurn,
    s.turns[j]? = some t → t.producer = .done
  aborts : a = .abortSession → ∀ (i : Nat) (t : PoolTurn), s.turns[i]? = some t → t.phase ≠ .ended →
    s.abortAnswer = true ∧ s'.turns[i]? = some { t with cancelled := true } ∧
      ∀ j ≠ i, s'.turns[j]? = s.turns[j]?

/-- No turn is submitted while one that has dropped the mark is unfinished, and none is aborted
whose task has not begun or is in its `finally`. -/
def Undisturbed (s : TaskPool) : TaskPoolAction → Prop
  | .submit => ∀ t ∈ s.turns, t.released = true → t.phase = .ended
  | .abortSession => ∀ t ∈ s.turns, t.phase ≠ .ended → t.phase.isActive
  | .turn _ _ => True

instance : DecidablePred (Undisturbed s) := fun a => by
  cases a <;> unfold Undisturbed <;> infer_instance

/-- Only the last turn is unfinished; the mark is its own, and so is the cancel event. -/
structure LastOnly (earlier : List PoolTurn) (t : PoolTurn) (s : TaskPool) : Prop where
  turns : s.turns = earlier ++ [t]
  ended : ∀ u ∈ earlier, u.Sound ∧ u.phase = .ended
  sound : t.Sound
  inflight : s.inflight = !t.released
  cancelEvent : s.cancelEvent = if t.phase.isActive then some earlier.length else none

/-- No turn was accepted, or only the last one is unfinished. -/
def Serial (s : TaskPool) : Prop := s = {} ∨ ∃ earlier t, LastOnly earlier t s

section

variable {earlier : List PoolTurn} {last : PoolTurn} (hs : LastOnly earlier last s)
  (hget : s.turns[i]? = some t)
include hs hget

theorem last_of_get (hend : t.phase ≠ .ended) : i = earlier.length ∧ t = last := by
  rw [hs.turns] at hget
  obtain hlt | hle := Nat.lt_or_ge i earlier.length
  · rw [List.getElem?_append_left hlt] at hget
    exact absurd (hs.ended t (List.mem_of_getElem? hget)).2 hend
  · rw [List.getElem?_append_right hle, List.getElem?_singleton] at hget
    obtain ⟨hzero, hlast⟩ := Option.ite_none_right_eq_some.mp hget
    exact ⟨by omega, (Option.some.inj hlast).symm⟩

theorem sound_of_get (h : t.step action = some t') :
    t'.Sound ∧ t.phase ≠ .ended ∧ t'.released = t.releasesBy action ∧
      t'.phase.isActive = t.activeBy action := by
  have hmem := List.mem_of_getElem? hget
  rw [hs.turns] at hmem
  obtain hmem | hmem := List.mem_append.mp hmem
  · exact PoolTurn.sound_step (hs.ended t hmem).1 h
  · rw [List.mem_singleton.mp hmem] at h ⊢
    exact PoolTurn.sound_step hs.sound h

end

theorem serial_turn (hs : s.Serial) (h : s.step (.turn i action) = some s') :
    s'.Serial ∧ s.KeepsTurnsApart (.turn i action) s' := by
  obtain ⟨t', ht', rfl⟩ := Option.map_eq_some_iff.mp h
  obtain ⟨t, hget, ht'⟩ := Option.bind_eq_some_iff.mp ht'
  obtain rfl | ⟨earlier, last, hs⟩ := hs
  · cases hget
  · obtain ⟨hsound, hend, hreleased, hactive⟩ := sound_of_get hs hget ht'
    obtain ⟨rfl, rfl⟩ := last_of_get hs hget hend
    have hturns : s.turns.set earlier.length t' = earlier ++ [t'] := by
      rw [hs.turns, List.set_append_right _ _ (Nat.le_refl _), Nat.sub_self]
      rfl
    refine ⟨.inr ⟨earlier, t', ⟨hturns, hs.ended, hsound, ?_, ?_⟩⟩, ⟨nofun, ?_, nofun⟩⟩
    · rw [hreleased]
      cases action <;> first | rfl | exact hs.inflight
    · rw [hactive]
      cases action <;> first | rfl | exact hs.cancelEvent
    · intro i hi j hj u hu
      cases hi
      rw [hs.turns, List.getElem?_append_left hj] at hu
      obtain ⟨hsound, hended⟩ := hs.ended u (List.mem_of_getElem? hu)
      exact hsound.done hended

theorem serial_submit (hs : s.Serial) (hg : s.Undisturbed .submit) :
    s.submit.Serial ∧ s.KeepsTurnsApart .submit s.submit := by
  have hfresh : PoolTurn.Sound {} := ⟨nofun, nofun⟩
  obtain rfl | ⟨earlier, last, hs⟩ := hs
  · refine ⟨.inr ⟨[], {}, ⟨rfl, fun u hu => absurd hu List.not_mem_nil, hfresh, rfl, rfl⟩⟩, ?_⟩
    exact ⟨fun _ _ t ht => absurd ht List.not_mem_nil, nofun, nofun⟩
  · have hlast : last ∈ s.turns := by
      rw [hs.turns]
      exact List.mem_append_right earlier List.mem_cons_self
    cases hmark : s.inflight with
    | true =>
      have hsubmit : s.submit = s := if_pos hmark
      rw [hsubmit]
      exact ⟨.inr ⟨earlier, last, hs⟩, ⟨fun _ h => absurd h (Nat.lt_irrefl _), nofun, nofun⟩⟩
    | false =>
      have hreleased : last.released = true := by
        have h := hs.inflight
        rw [hmark] at h
        cases hr : last.released with
        | true => rfl
        | false =>
          rw [hr] at h
          cases h
      have hended : last.phase = .ended := hg last hlast hreleased
      have hall : ∀ u ∈ s.turns, u.Sound ∧ u.phase = .ended := by
        intro u hu
        rw [hs.turns] at hu
        obtain hu | hu := List.mem_append.mp hu
        · exact hs.ended u hu
        · rw [List.mem_singleton.mp hu]
          exact ⟨hs.sound, hended⟩
      have hsubmit : s.submit = { s with inflight := true, turns := s.turns ++ [{}] } :=
        if_neg (by rw [hmark]; exact Bool.false_ne_true)
      rw [hsubmit]
      refine ⟨.inr ⟨s.turns, {}, ⟨rfl, hall, hfresh, rfl, ?_⟩⟩, ?_⟩
      · have hevent := hs.cancelEvent
        rw [hended] at hevent
        exact hevent
      · exact ⟨fun _ _ t ht => .inl (hall t ht).2, nofun, nofun⟩

section

variable {earlier : List PoolTurn} (hs : LastOnly earlier t s)
include hs

theorem getElem?_of_ne (hs' : LastOnly earlier t' s') {j : Nat} (hj : j ≠ earlier.length) :
    s'.turns[j]? = s.turns[j]? := by
  rw [hs.turns, hs'.turns]
  obtain hlt | hle := Nat.lt_or_ge j earlier.length
  · rw [List.getElem?_append_left hlt, List.getElem?_append_left hlt]
  · rw [List.getElem?_append_right hle, List.getElem?_append_right hle, List.getElem?_singleton,
      List.getElem?_singleton, if_neg (by omega), if_neg (by omega)]

theorem abort_of_active (hactive : t.phase.isActive) :
    s.abortAnswer = true ∧ LastOnly earlier { t with cancelled := true } s.abortSession := by
  have hevent : s.cancelEvent = some earlier.length := hs.cancelEvent.trans (if_pos hactive)
  have habort : s.abortSession = { s with
      turns := s.turns.modify earlier.length fun t => { t with cancelled := true } } := by
    rw [abortSession, hevent]
  have hturns : s.abortSession.turns = earlier ++ [{ t with cancelled := true }] := by
    rw [habort, hs.turns,
      List.modify_eq_take_cons_drop (by rw [List.length_append]; exact Nat.lt_succ_self _)]
    simp
  refine ⟨by rw [abortAnswer, hevent]; rfl, ⟨hturns, hs.ended,
    ⟨hs.sound.done, hs.sound.released⟩, ?_, ?_⟩⟩
  · rw [habort]
    exact hs.inflight
  · rw [habort]
    exact hs.cancelEvent

theorem abort_of_not_active (hactive : ¬ t.phase.isActive) : s.abortSession = s := by
  have hevent : s.cancelEvent = none := hs.cancelEvent.trans (if_neg hactive)
  rw [abortSession, hevent]

end

theorem serial_abortSession (hs : s.Serial) : s.abortSession.Serial := by
  obtain rfl | ⟨earlier, t, hs⟩ := hs
  · exact .inl rfl
  · by_cases hactive : t.phase.isActive
    · exact .inr ⟨earlier, _, (abort_of_active hs hactive).2⟩
    · rw [abort_of_not_active hs hactive]
      exact .inr ⟨earlier, t, hs⟩

theorem serial_abort (hs : s.Serial) (hg : s.Undisturbed .abortSession) :
    s.abortSession.Serial ∧ s.KeepsTurnsApart .abortSession s.abortSession := by
  refine ⟨serial_abortSession hs, ⟨nofun, nofun, fun _ i t hget hend => ?_⟩⟩
  obtain rfl | ⟨earlier, last, hs⟩ := hs
  · cases hget
  · have hactive := hg t (List.mem_of_getElem? hget) hend
    obtain ⟨rfl, rfl⟩ := last_of_get hs hget hend
    obtain ⟨hanswer, hs'⟩ := abort_of_active hs hactive
    refine ⟨hanswer, ?_, fun j hj => getElem?_of_ne hs hs' hj⟩
    rw [hs'.turns, List.getElem?_concat_length]

/-- No turn is submitted while one that has dropped the mark is unfinished. -/
def SubmitsAlone (s : TaskPool) (a : TaskPoolAction) : Prop :=
  a = .submit → ∀ t ∈ s.turns, t.released = true → t.phase = .ended

variable {a : TaskPoolAction}

theorem serial_of_submitsAlone (hs : s.Serial) (hg : s.SubmitsAlone a)
    (h : s.step a = some s') : s'.Serial := by
  cases a with
  | submit =>
    cases h
    exact (serial_submit hs (hg rfl)).1
  | abortSession =>
    cases h
    exact serial_abortSession hs
  | turn i action => exact (serial_turn hs h).1

theorem serial_step (hs : s.Serial) (hg : s.Undisturbed a)
    (h : s.step a = some s') : s'.Serial ∧ s.KeepsTurnsApart a s' := by
  cases a with
  | submit =>
    cases h
    exact serial_submit hs hg
  | abortSession =>
    cases h
    exact serial_abort hs hg
  | turn i action => exact serial_turn hs h

/-- As long as nothing disturbs them, the turns of a session are serial and can be aborted. -/
theorem turns_apart_of_undisturbed {as : List TaskPoolAction} (h : Guarded step Undisturbed {} as) :
    Guarded step (fun s a => ∀ s', s.step a = some s' → s.KeepsTurnsApart a s') {} as := by
  refine guarded_steps (J := Serial) ?_ (.inl rfl) h
  exact fun s a s' hs hg hstep => serial_step hs hg hstep

/-- Two turns, the second with an abort while it runs. -/
theorem turns_apart_of_abort : Guarded step (fun s a => ∀ s', s.step a = some s' →
    s.KeepsTurnsApart a s') {} [.submit, .turn 0 .begins, .submit, .turn 0 .producerStarts,
      .turn 0 (.produces (.runtime .turnCompleted)), .turn 0 .producerEnds, .turn 0 .takes,
      .turn 0 .releases, .turn 0 .forwards, .turn 0 .takes, .turn 0 .finalizes,
      .turn 0 .producerDone, .turn 0 .taskEnds, .submit, .turn 1 .begins,
      .turn 1 .producerStarts, .abortSession] :=
  turns_apart_of_undisturbed (by decide +kernel)

/-- A turn submitted while the last one forwards its end runs beside its producer. -/
theorem producers_overlap :
    ¬ ∀ as : List TaskPoolAction, Guarded step
      (fun s a => ∀ s', s.step a = some s' → s.KeepsTurnsApart a s') {} as := by
  intro h
  let first : List TaskPoolAction := [.submit, .turn 0 .begins, .turn 0 .producerStarts,
    .turn 0 (.produces (.runtime .turnCompleted)), .turn 0 .takes, .turn 0 .releases,
    .turn 0 .forwards, .submit, .turn 1 .begins]
  obtain ⟨s, hs⟩ : ∃ s, run step {} first = some s := Option.isSome_iff_exists.mp (by decide)
  have hsteps := guarded_of_append hs (h (first ++ [.turn 1 .producerStarts]))
  cases hs
  obtain ⟨happart, -⟩ := hsteps _ rfl
  have hdone := (happart _ rfl).starts 1 rfl 0 Nat.zero_lt_one _ rfl
  cases hdone

end TaskPool

end WittyService
