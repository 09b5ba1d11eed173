import WittyService.TaskPool

/-! How a turn whose cancel event is set comes to its end: each of its steps brings it closer, and
it can step until the session is not in flight. -/
namespace WittyService

open GuardedRuns

variable {t t' : PoolTurn} {action : PoolTurnAction}

/-- The task of the turn has passed the `finally`. -/
def RunTurnPhase.isFinal : RunTurnPhase → Bool
  | awaiting | ended => true
  | _ => false

def RunTurnPhase.remaining : RunTurnPhase → Nat
  | accepted => 4
  | getting => 3
  | releasing _ => 5
  | forwarding _ => 4
  | closing => 2
  | awaiting => 1
  | ended => 0

def ProducerPhase.remaining : ProducerPhase → Nat
  | waiting => 9
  | running => 8
  | closed => 1
  | done => 0

namespace PoolTurn

def remaining (t : PoolTurn) : Nat :=
  t.phase.remaining + t.producer.remaining + 3 * t.queue.length

/-- A producer that has left its loop has put the sentinel. -/
def Fed (t : PoolTurn) : Prop :=
  t.producer = .closed ∨ t.producer = .done → t.phase = .closing ∨ t.phase.isFinal ∨ none ∈ t.queue

theorem remaining_step (hc : t.cancelled = true) (h : t.step action = some t') :
    t'.remaining < t.remaining ∧ t'.cancelled = true := by
  cases step_cases h with
  | begins hphase | releases item hphase | forwards item hphase | raises item hphase
    | finalizes hphase | ends hphase =>
    refine ⟨?_, hc⟩
    simp only [remaining, hphase, RunTurnPhase.remaining]
    omega
  | starts _ hp | done hp =>
    refine ⟨?_, hc⟩
    simp only [remaining, hp, ProducerPhase.remaining]
    omega
  | puts item _ hcancelled =>
    rw [hc] at hcancelled
    cases hcancelled
  | closes _ items hp _ hitems =>
    refine ⟨?_, hc⟩
    simp only [remaining, hp, ProducerPhase.remaining, List.length_append]
    omega
  | takes item queue hphase hqueue =>
    have hnext : (phaseOf item).remaining ≤ 5 := by
      unfold phaseOf
      cases item with
      | none => exact Nat.le_add_left 2 3
      | some item =>
        dsimp only
        split_ifs
        · exact Nat.le_refl 5
        · exact Nat.le_succ 4
    refine ⟨?_, hc⟩
    have hgetting : t.phase.remaining = 3 := by rw [hphase]; rfl
    simp only [remaining, hgetting, hqueue, List.length_cons]
    omega

theorem fed_step (ht : t.Fed) (h : t.step action = some t') : t'.Fed := by
  have hpending {phase : RunTurnPhase} (hphase : t.phase = phase) (hclosing : phase ≠ .closing)
      (hfinal : phase.isFinal = false) (hp : t.producer = .closed ∨ t.producer = .done) :
      none ∈ t.queue := by
    obtain hc | hf | hq := ht hp
    · exact absurd (hphase.symm.trans hc) hclosing
    · rw [hphase, hfinal] at hf
      cases hf
    · exact hq
  cases step_cases h with
  | begins hphase | releases item hphase | forwards item hphase =>
    exact fun hp => .inr (.inr (hpending hphase nofun rfl hp))
  | starts => exact fun hp => hp.elim nofun nofun
  | puts item hp =>
    exact fun hno => hno.elim (fun h => nomatch hp.symm.trans h) fun h => nomatch hp.symm.trans h
  | closes _ items _ _ hitems => exact fun _ => .inr (.inr (List.mem_append_right _ hitems.2))
  | done hp => exact fun _ => ht (.inl hp)
  | takes item queue hphase hqueue =>
    intro hp
    have hmem := hpending hphase nofun rfl hp
    cases item with
    | none => exact .inl rfl
    | some item =>
      rw [hqueue] at hmem
      exact .inr (.inr ((List.mem_cons.mp hmem).resolve_left nofun))
  | raises => exact fun _ => .inl rfl
  | finalizes | ends => exact fun _ => .inr (.inl rfl)

theorem exists_step (ht : t.Fed) (hend : t.phase ≠ .ended) : ∃ action, (t.step action).isSome := by
  have hstarts (hphase : t.phase ≠ .accepted) (hp : t.producer = .waiting) :
      (t.step .producerStarts).isSome := by
    rw [step, if_pos ⟨hphase, hp⟩]
    rfl
  have hends (hp : t.producer = .running) : (t.step .producerEnds).isSome := by
    rw [step, if_pos hp]
    rfl
  cases hphase : t.phase with
  | accepted =>
    refine ⟨.begins, ?_⟩
    rw [step, if_pos hphase]
    rfl
  | getting =>
    cases hqueue : t.queue with
    | cons item queue =>
      refine ⟨.takes, ?_⟩
      unfold step
      simp [hphase, hqueue]
    | nil =>
      cases hp : t.producer with
      | waiting => exact ⟨_, hstarts (hphase ▸ nofun) hp⟩
      | running => exact ⟨_, hends hp⟩
      | closed | done =>
        have hfed := ht (by rw [hp]; simp)
        rw [hphase, hqueue] at hfed
        obtain hclosing | hfinal | hmem := hfed
        · cases hclosing
        · cases hfinal
        · cases hmem
  | releasing item =>
    refine ⟨.releases, ?_⟩
    unfold step
    simp [hphase]
  | forwarding item =>
    refine ⟨.forwards, ?_⟩
    unfold step
    simp [hphase]
  | closing =>
    refine ⟨.finalizes, ?_⟩
    rw [step, if_pos hphase]
    rfl
  | awaiting =>
    cases hp : t.producer with
    | waiting => exact ⟨_, hstarts (hphase ▸ nofun) hp⟩
    | running => exact ⟨_, hends hp⟩
    | closed =>
      refine ⟨.producerDone, ?_⟩
      rw [step, if_pos hp]
      rfl
    | done =>
      refine ⟨.taskEnds, ?_⟩
      rw [step, if_pos ⟨hphase, hp⟩]
      rfl
  | ended => exact absurd hphase hend

theorem finalizes_of_final (h : t.step action = some t') (hbefore : t.phase.isFinal = false)
    (hafter : t'.phase.isFinal = true) : action = .finalizes := by
  cases step_cases h with
  | finalizes => rfl
  | ends hphase =>
    rw [hphase] at hbefore
    cases hbefore
  | takes item queue =>
    unfold phaseOf at hafter
    cases item with
    | none => cases hafter
    | some item =>
      dsimp only at hafter
      split_ifs at hafter <;> cases hafter
  | starts | puts | closes | done => exact absurd (hbefore.symm.trans hafter) Bool.false_ne_true
  | begins | releases | forwards | raises => cases hafter

end PoolTurn

namespace TaskPool

variable {s s' : TaskPool} {i j : Nat}

section

variable {a : TaskPoolAction} (h : s.step a = some s')
include h

theorem turn_after (hget : s.turns[j]? = some t) :
    ∃ t', s'.turns[j]? = some t' ∧
      ((∃ action, a = .turn j action ∧ t.step action = some t') ∨
        ((∀ action, a ≠ .turn j action) ∧
          (t' = t ∨ (a = .abortSession ∧ t' = { t with cancelled := true })))) := by
  cases a with
  | submit =>
    cases h
    refine ⟨t, ?_, .inr ⟨nofun, .inl rfl⟩⟩
    rw [submit]
    split_ifs
    · exact hget
    · exact List.getElem?_append_left (List.getElem?_eq_some_iff.mp hget).1 ▸ hget
  | abortSession =>
    cases h
    rw [abortSession]
    cases s.cancelEvent with
    | none => exact ⟨t, hget, .inr ⟨nofun, .inl rfl⟩⟩
    | some i =>
      by_cases hij : i = j
      · refine ⟨{ t with cancelled := true }, ?_, .inr ⟨nofun, .inr ⟨rfl, rfl⟩⟩⟩
        subst hij
        rw [List.getElem?_modify_eq, hget]
        rfl
      · refine ⟨t, ?_, .inr ⟨nofun, .inl rfl⟩⟩
        rw [List.getElem?_modify_ne _ _ hij, hget]
  | turn i action =>
    obtain ⟨u', hu', rfl⟩ := Option.map_eq_some_iff.mp h
    obtain ⟨u, hu, hstep⟩ := Option.bind_eq_some_iff.mp hu'
    by_cases hij : i = j
    · subst hij
      rw [hget] at hu
      cases hu
      refine ⟨u', ?_, .inl ⟨action, rfl, hstep⟩⟩
      exact List.getElem?_set_self (List.getElem?_eq_some_iff.mp hget).1
    · refine ⟨t, ?_, .inr ⟨?_, .inl rfl⟩⟩
      · exact (List.getElem?_set_ne hij).trans hget
      · intro other heq
        cases heq
        exact hij rfl

theorem turns_length (ha : a ≠ .submit) :
    s'.turns.length = s.turns.length := by
  cases a with
  | submit => exact absurd rfl ha
  | abortSession =>
    cases h
    rw [abortSession]
    cases s.cancelEvent with
    | none => rfl
    | some i => exact List.length_modify _ _ _
  | turn i action =>
    obtain ⟨t, -, rfl⟩ := Option.map_eq_some_iff.mp h
    exact List.length_set

theorem turn_of_fresh (hget : s.turns[j]? = none)
    (hget' : s'.turns[j]? = some t) : a = .submit ∧ t = {} := by
  have hsubmit : a = .submit := by
    by_contra ha
    rw [List.getElem?_eq_none_iff, ← turns_length h ha, ← List.getElem?_eq_none_iff,
      hget'] at hget
    cases hget
  subst hsubmit
  cases h
  rw [submit] at hget'
  split_ifs at hget'
  · rw [hget] at hget'
    cases hget'
  · rw [List.getElem?_append_right (List.getElem?_eq_none_iff.mp hget),
      List.getElem?_singleton] at hget'
    obtain ⟨-, hfresh⟩ := Option.ite_none_right_eq_some.mp hget'
    exact ⟨rfl, (Option.some.inj hfresh).symm⟩

end

theorem fed_step {a : TaskPoolAction} (hs : ∀ t ∈ s.turns, t.Fed) (h : s.step a = some s') :
    ∀ t ∈ s'.turns, t.Fed := by
  intro t' ht'
  obtain ⟨j, hget'⟩ := List.mem_iff_getElem?.mp ht'
  cases hget : s.turns[j]? with
  | some t =>
    have hfed := hs t (List.mem_of_getElem? hget)
    obtain ⟨u, hu, ⟨action, -, hstep⟩ | ⟨-, rfl | ⟨-, rfl⟩⟩⟩ := turn_after h hget <;>
    · rw [hget'] at hu
      cases hu
      first | exact PoolTurn.fed_step hfed hstep | exact hfed
  | none =>
    obtain ⟨-, rfl⟩ := turn_of_fresh h hget hget'
    exact fun h => h.elim nofun nofun

/-- Whether an action steps turn `j`. -/
def stepsTurn (j : Nat) : TaskPoolAction → Bool
  | .turn i _ => i = j
  | _ => false

/-- However the pool goes on: until the session has not been in flight, turn `j` takes boundedly
many steps and can take another. -/
def LeavesFlight (s : TaskPool) (j : Nat) : Prop :=
  ∃ n, ∀ as s', run step s as = some s' →
    (∃ pre q, pre <+: as ∧ run step s pre = some q ∧ q.inflight = false) ∨
      (as.countP (stepsTurn j) ≤ n ∧ ∃ action, (s'.step (.turn j action)).isSome)

theorem leavesFlight_of_free (h : s.inflight = false) : s.LeavesFlight j :=
  ⟨0, fun _ _ _ => .inl ⟨[], s, List.nil_prefix, rfl, h⟩⟩

variable {as : List TaskPoolAction}

theorem run_remaining (hget : s.turns[j]? = some t) (hc : t.cancelled = true) (hfed : t.Fed)
    (hr : run step s as = some s') :
    ∃ t', s'.turns[j]? = some t' ∧ t'.Fed ∧
      as.countP (stepsTurn j) + t'.remaining ≤ t.remaining := by
  induction as generalizing s t with
  | nil =>
    cases hr
    exact ⟨t, hget, hfed, by simp⟩
  | cons a as ih =>
    obtain ⟨u, hu, hrest⟩ := Option.bind_eq_some_iff.mp hr
    obtain ⟨t', hget', ⟨action, rfl, hstep⟩ | ⟨hother, hsame⟩⟩ := turn_after hu hget
    · obtain ⟨hless, hc'⟩ := PoolTurn.remaining_step hc hstep
      obtain ⟨t'', hget'', hfed'', hcount⟩ := ih hget' hc' (PoolTurn.fed_step hfed hstep) hrest
      refine ⟨t'', hget'', hfed'', ?_⟩
      have hyes : stepsTurn j (.turn j action) = true := decide_eq_true rfl
      rw [List.countP_cons_of_pos hyes]
      omega
    · have hno : stepsTurn j a = false := by
        cases a with
        | submit | abortSession => rfl
        | turn i action => exact decide_eq_false fun heq => hother action (heq ▸ rfl)
      have ht' : t' = t := by
        obtain rfl | ⟨-, rfl⟩ := hsame
        · rfl
        · cases t
          cases hc
          rfl
      obtain ⟨t'', hget'', hfed'', hcount⟩ := ih hget' (ht' ▸ hc) (ht' ▸ hfed) hrest
      refine ⟨t'', hget'', hfed'', ?_⟩
      rw [List.countP_cons_of_neg (by rw [hno]; exact Bool.false_ne_true), ← ht']
      exact hcount

theorem run_final (hget : s.turns[j]? = some t) (hphase : t.phase.isFinal = false)
    (hr : run step s as = some s') {t' : PoolTurn}
    (hget' : s'.turns[j]? = some t') (hfinal : t'.phase.isFinal = true) :
    ∃ pre q, pre <+: as ∧ run step s pre = some q ∧ q.inflight = false := by
  obtain ⟨pre, a, post, u, q, rfl, hu, hq, ⟨v, hv, hvphase⟩, hlost⟩ :=
    exists_step_of_lost (Q := fun s => ∃ t, s.turns[j]? = some t ∧ t.phase.isFinal = false)
      ⟨t, hget, hphase⟩ hr (by
        rintro ⟨t'', hget'', hphase''⟩
        rw [hget'] at hget''
        cases hget''
        rw [hphase''] at hfinal
        cases hfinal)
  obtain ⟨w, hw, ⟨action, rfl, hstep⟩ | ⟨-, rfl | ⟨-, rfl⟩⟩⟩ := turn_after hq hv
  · have hwfinal : w.phase.isFinal = true := by
      by_contra hno
      rw [Bool.not_eq_true] at hno
      exact hlost ⟨w, hw, hno⟩
    obtain rfl := PoolTurn.finalizes_of_final hstep hvphase hwfinal
    refine ⟨pre ++ [.turn j .finalizes], q, ⟨post, by simp⟩, ?_, ?_⟩
    · rw [run_append, hu, Option.bind_some, run, hq]
      rfl
    · obtain ⟨-, -, rfl⟩ := Option.map_eq_some_iff.mp hq
      rfl
  · exact absurd ⟨_, hw, hvphase⟩ hlost
  · exact absurd ⟨_, hw, hvphase⟩ hlost

theorem leavesFlight_of_cancelled (hget : s.turns[j]? = some t) (hc : t.cancelled = true)
    (hfed : t.Fed) (hphase : t.phase.isFinal = false) : s.LeavesFlight j := by
  refine ⟨t.remaining, fun as s' hr => ?_⟩
  obtain ⟨t', hget', hfed', hcount⟩ := run_remaining hget hc hfed hr
  by_cases hend : t'.phase = .ended
  · exact .inl (run_final hget hphase hr hget' (by rw [hend]; rfl))
  · obtain ⟨action, haction⟩ := PoolTurn.exists_step hfed' hend
    refine .inr ⟨by omega, action, ?_⟩
    rw [step, hget', Option.bind_some, Option.isSome_map]
    exact haction

end TaskPool

end WittyService
