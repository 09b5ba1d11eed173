import WittyService.TurnFlight

/-! Soft aborts of dsh turns: the generators of `DshClient.stream_turn` under the task pool of one
session, and the mark of the session in `_aborted_sessions` that they poll. -/
namespace WittyService

open GuardedRuns

/-- Where the generator of a turn is: behind the state change that `stream_message` sends first, at
its start, in its loop, or gone. -/
inductive GeneratorPhase where
  | before
  | starting
  | polling
  | returned
  deriving DecidableEq, Repr

/-- The generator of an accepted turn; `aborted` says that the session was aborted since then,
before the generator was gone. -/
structure Generator where
  phase : GeneratorPhase := .before
  aborted : Bool := false
  deriving DecidableEq, Repr

/-- What an iteration of the loop finds when the session is not aborted: no notification to pass on,
one with the items it is mapped to, the one that ends the turn, or an error. -/
inductive PollOutcome where
  | silent
  | passes (items : List StreamItem)
  | idle
  | raises
  deriving DecidableEq, Repr

inductive DshAbortAction where
  | submit
  | abortSession
  | task (i : Nat) (action : PoolTurnAction)
  | announces (i : Nat) (changed : Bool)
  | fails (i : Nat)
  | refuses (i : Nat)
  | starts (i : Nat)
  | polls (i : Nat) (outcome : PollOutcome)
  deriving DecidableEq, Repr

def PoolTurnAction.feeds : PoolTurnAction → Bool
  | produces _ | producerRaises | producerEnds => true
  | _ => false

/-- The turns of a session, and whether it is in `_aborted_sessions`. -/
structure DshAborts where
  pool : TaskPool := {}
  aborted : Bool := false
  generators : List Generator := []
  deriving DecidableEq, Repr

namespace DshAborts

variable (s : DshAborts)

def phase (i : Nat) : Option GeneratorPhase := s.generators[i]?.map Generator.phase

def setPhase (i : Nat) (phase : GeneratorPhase) : DshAborts :=
  { s with generators := s.generators.modify i fun g => { g with phase } }

def isCancelled (i : Nat) : Bool := s.pool.turns[i]?.any PoolTurn.cancelled

/-- The producer gets an item of turn `i`. It leaves its loop when the turn is cancelled, which
closes the generator. -/
def produce (i : Nat) (item : StreamItem) : Option DshAborts :=
  (s.pool.step (.turn i (.produces item))).map fun pool =>
    let s := { s with pool }
    if s.isCancelled i then s.setPhase i .returned else s

def produceAll (i : Nat) : DshAborts → List StreamItem → Option DshAborts
  | s, [] => some s
  | s, item :: items => (s.produce i item).bind fun s' =>
    if s'.phase i = some .returned then some s' else produceAll i s' items

/-- An iteration of the loop of `stream_turn`. -/
def poll (i : Nat) : PollOutcome → Option DshAborts
  | .silent => some s
  | .passes items => produceAll i s items
  | .idle | .raises => some (s.setPhase i .returned)

def step : DshAbortAction → Option DshAborts
  | .submit => some { s with
      pool := s.pool.submit
      generators := if s.pool.inflight then s.generators else s.generators ++ [{}] }
  | .abortSession => some { s with
      pool := s.pool.abortSession
      aborted := s.aborted || s.pool.abortAnswer
      generators := s.generators.map fun g =>
        if g.phase = .returned then g else { g with aborted := true } }
  | .task i action =>
    if action.feeds ∧ s.phase i ≠ some .returned then none
    else (s.pool.step (.turn i action)).map fun pool => { s with pool }
  | .announces i changed =>
    if s.phase i = some .before ∧ (s.pool.turns[i]?.any fun t => t.producer = .running) then
      if changed then (s.setPhase i .starting).produce i .stateChanged
      else some (s.setPhase i .starting)
    else none
  | .fails i =>
    if s.phase i = some .before then
      (s.pool.step (.turn i .producerRaises)).map fun pool => { s with pool }.setPhase i .returned
    else none
  | .refuses i => if s.phase i = some .starting then some (s.setPhase i .returned) else none
  | .starts i =>
    if s.phase i = some .starting then some { s.setPhase i .polling with aborted := false }
    else none
  | .polls i outcome =>
    if s.phase i = some .polling then
      if s.aborted then some (s.setPhase i .returned) else s.poll i outcome
    else none

end DshAborts

/-! When soft aborts of dsh turns work: every aborted turn is gone at the next iteration of its
loop, and no other turn is stopped. -/

namespace DshAborts

variable {s s' s'' : DshAborts} {i : Nat}

/-- What is asked of a step. The generator of a turn that was aborted returns in its next
iteration, and an iteration of a turn that was not aborted since it was accepted returns only for
what it finds itself. -/
structure AbortsWork (s : DshAborts) (a : DshAbortAction) (s' : DshAborts) : Prop where
  effective : ∀ i outcome, a = .polls i outcome → ∀ g : Generator, s.generators[i]? = some g →
    g.aborted = true → s'.phase i = some .returned
  isolated : ∀ i outcome, a = .polls i outcome → ∀ g : Generator, s.generators[i]? = some g →
    g.aborted = false → s'.phase i = some .returned → outcome = .idle ∨ outcome = .raises
  announced : ∀ i changed, a = .announces i changed → ∀ g : Generator, s.generators[i]? = some g →
    g.aborted = false → s'.phase i = some .starting

/-- The session is aborted while each of its generators polls, or is still to send a state change
that will find its own turn cancelled; such a change is sent; and no generator starts while one
that was aborted polls. -/
def Punctual (s : DshAborts) : DshAbortAction → Prop
  | .abortSession => ∀ i < s.generators.length, ∀ g ∈ s.generators[i]?,
      g.phase ≠ .starting ∧ (g.phase = .polling → s.pool.abortAnswer = true) ∧
        (g.phase = .before → s.pool.cancelEvent = some i)
  | .announces i changed => ∀ g ∈ s.generators[i]?, g.aborted = true → changed = true
  | .starts _ => ∀ g ∈ s.generators, g.phase = .polling → g.aborted = false
  | _ => True

instance : DecidablePred s.Punctual := fun a => by
  unfold Punctual
  split <;> infer_instance

structure Fits (s : DshAborts) (i : Nat) (g : Generator) : Prop where
  cancelled : s.isCancelled i = true → g.phase ≠ .returned → g.aborted = true
  marked : s.aborted = true → g.phase = .polling → g.aborted = true
  polling : g.aborted = true → g.phase = .polling → s.aborted = true
  before : g.aborted = true → g.phase = .before → s.isCancelled i = true
  starting : g.aborted = true → g.phase ≠ .starting

structure Fitting (s : DshAborts) : Prop where
  length : s.generators.length = s.pool.turns.length
  fits : ∀ (i : Nat) (g : Generator), s.generators[i]? = some g → s.Fits i g

theorem fits_returned (g : Generator) : s.Fits i { g with phase := .returned } :=
  ⟨fun _ h => absurd rfl h, nofun, nofun, nofun, nofun⟩

/-- Nothing changes but that generators return. -/
structure Winds (s s' : DshAborts) : Prop where
  aborted : s'.aborted = s.aborted
  cancelled : ∀ i, s'.isCancelled i = s.isCancelled i
  turns : s'.pool.turns.length = s.pool.turns.length
  generators : s'.generators.length = s.generators.length
  phases : ∀ (i : Nat) (g : Generator), s.generators[i]? = some g →
    s'.generators[i]? = some g ∨ s'.generators[i]? = some { g with phase := .returned }

theorem winds_refl (s : DshAborts) : s.Winds s :=
  ⟨rfl, fun _ => rfl, rfl, rfl, fun _ _ h => .inl h⟩

theorem Winds.trans (h : s.Winds s') (h' : s'.Winds s'') : s.Winds s'' where
  aborted := h'.aborted.trans h.aborted
  cancelled i := (h'.cancelled i).trans (h.cancelled i)
  turns := h'.turns.trans h.turns
  generators := h'.generators.trans h.generators
  phases i g hget := by
    obtain hsame | hgone := h.phases i g hget
    · exact h'.phases i g hsame
    · exact .inr ((h'.phases i _ hgone).elim (fun h => h) fun h => h)

theorem getElem?_setPhase (s : DshAborts) (i j : Nat) (phase : GeneratorPhase) :
    (s.setPhase i phase).generators[j]? =
      if i = j then s.generators[j]?.map fun g => { g with phase } else s.generators[j]? := by
  unfold setPhase
  rw [List.getElem?_modify]
  cases s.generators[j]? with
  | none | some g => split_ifs <;> rfl

theorem winds_setPhase (s : DshAborts) (i : Nat) : s.Winds (s.setPhase i .returned) where
  aborted := rfl
  cancelled _ := rfl
  turns := rfl
  generators := List.length_modify _ _ _
  phases j g hget := by
    rw [getElem?_setPhase, hget]
    split_ifs
    · exact .inr rfl
    · exact .inl rfl

variable {action : PoolTurnAction} {outcome : PollOutcome}

theorem cancelled_step {t t' : PoolTurn} (h : t.step action = some t') :
    t'.cancelled = t.cancelled := by
  cases PoolTurn.step_cases h <;> rfl

theorem winds_pool {pool : TaskPool}
    (h : s.pool.step (.turn i action) = some pool) : s.Winds { s with pool } where
  aborted := rfl
  cancelled j := by
    unfold isCancelled
    cases hget : s.pool.turns[j]? with
    | none =>
      have hnone : pool.turns[j]? = none := by
        rw [List.getElem?_eq_none_iff] at hget ⊢
        rw [TaskPool.turns_length h nofun]
        exact hget
      rw [hnone]
    | some t =>
      obtain ⟨t', hget', ⟨action', -, hstep⟩ | ⟨-, rfl | ⟨habort, -⟩⟩⟩ :=
        TaskPool.turn_after h hget
      · rw [hget', Option.any_some, Option.any_some, cancelled_step hstep]
      · rw [hget']
      · cases habort
  turns := TaskPool.turns_length h nofun
  generators := rfl
  phases _ _ hget := .inl hget

theorem Winds.fitting (h : s.Winds s') (hs : s.Fitting) : s'.Fitting where
  length := by rw [h.generators, h.turns, hs.length]
  fits i g' hget' := by
    have hi : i < s.generators.length := by
      rw [← h.generators]
      exact (List.getElem?_eq_some_iff.mp hget').1
    have hget := List.getElem?_eq_getElem hi
    obtain hsame | hgone := h.phases i _ hget
    · rw [hget'] at hsame
      cases hsame
      obtain ⟨hcancelled, hmarked, hpolling, hbefore, hstarting⟩ := hs.fits i _ hget
      refine ⟨?_, ?_, ?_, ?_, hstarting⟩
      · rw [h.cancelled]
        exact hcancelled
      · rw [h.aborted]
        exact hmarked
      · rw [h.aborted]
        exact hpolling
      · rw [h.cancelled]
        exact hbefore
    · rw [hget'] at hgone
      cases hgone
      exact fits_returned _

theorem winds_produce {item : StreamItem} (h : s.produce i item = some s') :
    s.Winds s' ∧ (s.isCancelled i = false → s'.phase i = s.phase i) := by
  obtain ⟨pool, hpool, rfl⟩ := Option.map_eq_some_iff.mp h
  have hwinds := winds_pool hpool
  dsimp only
  split_ifs with hcancelled
  · refine ⟨hwinds.trans (winds_setPhase _ i), fun hno => ?_⟩
    rw [hwinds.cancelled, hno] at hcancelled
    cases hcancelled
  · exact ⟨hwinds, fun _ => rfl⟩

theorem winds_produceAll {items : List StreamItem} (h : produceAll i s items = some s') :
    s.Winds s' ∧ (s.isCancelled i = false → s'.phase i = s.phase i) := by
  induction items generalizing s with
  | nil =>
    cases h
    exact ⟨winds_refl _, fun _ => rfl⟩
  | cons item items ih =>
    obtain ⟨u, hu, h⟩ := Option.bind_eq_some_iff.mp h
    obtain ⟨hfirst, hkeeps⟩ := winds_produce hu
    split_ifs at h with hgone
    · cases h
      exact ⟨hfirst, hkeeps⟩
    · obtain ⟨hrest, hkeeps'⟩ := ih h
      refine ⟨hfirst.trans hrest, fun hno => ?_⟩
      rw [hkeeps' ((hfirst.cancelled i).trans hno), hkeeps hno]

theorem winds_poll (h : s.poll i outcome = some s') : s.Winds s' := by
  cases outcome with
  | silent =>
    cases h
    exact winds_refl s
  | passes items => exact (winds_produceAll h).1
  | idle | raises =>
    cases h
    exact winds_setPhase s i

theorem phase_eq (i : Nat) (phase : GeneratorPhase) :
    s.phase i = some phase ↔ ∃ g : Generator, s.generators[i]? = some g ∧ g.phase = phase := by
  rw [DshAborts.phase, Option.map_eq_some_iff]

theorem phase_setPhase {phase : GeneratorPhase} (h : s.phase i = some phase)
    (phase' : GeneratorPhase) : (s.setPhase i phase').phase i = some phase' := by
  obtain ⟨g, hget, -⟩ := (phase_eq i phase).mp h
  rw [DshAborts.phase, getElem?_setPhase, if_pos rfl, hget]
  rfl

theorem fitting_submit (hs : s.Fitting) (h : s.step .submit = some s') : s'.Fitting := by
  cases h
  cases hmark : s.pool.inflight with
  | true =>
    have hsubmit : s.pool.submit = s.pool := if_pos hmark
    rw [hsubmit, if_pos rfl]
    exact ⟨hs.length, hs.fits⟩
  | false =>
    have hturns : s.pool.submit.turns = s.pool.turns ++ [({} : PoolTurn)] := by
      rw [TaskPool.submit, hmark, if_neg Bool.false_ne_true]
    rw [if_neg Bool.false_ne_true]
    refine ⟨?_, fun i g hget => ?_⟩
    · rw [hturns, List.length_append, List.length_append, hs.length]
      rfl
    · obtain hlt | hle := Nat.lt_or_ge i s.generators.length
      · rw [List.getElem?_append_left hlt] at hget
        have hfits := hs.fits i g hget
        have hcancelled : s.pool.submit.turns[i]?.any PoolTurn.cancelled = s.isCancelled i := by
          rw [hturns, List.getElem?_append_left (hs.length ▸ hlt), isCancelled]
        refine ⟨fun h => hfits.cancelled ?_, hfits.marked, hfits.polling, fun h h' => ?_,
          hfits.starting⟩
        · exact hcancelled.symm.trans h
        · exact hcancelled.trans (hfits.before h h')
      · rw [List.getElem?_append_right hle, List.getElem?_singleton] at hget
        obtain ⟨hzero, hfresh⟩ := Option.ite_none_right_eq_some.mp hget
        cases hfresh
        refine ⟨fun h => ?_, (by rintro _ ⟨⟩), (by rintro ⟨⟩), (by rintro ⟨⟩), (by rintro ⟨⟩)⟩
        have hi : i = s.pool.turns.length := by
          rw [← hs.length]
          omega
        change s.pool.submit.turns[i]?.any PoolTurn.cancelled = true at h
        rw [hturns, hi, List.getElem?_concat_length] at h
        cases h

theorem fitting_abortSession (hs : s.Fitting) (hg : s.Punctual .abortSession)
    (h : s.step .abortSession = some s') : s'.Fitting := by
  have hpool : s.pool.step .abortSession = some s.pool.abortSession := rfl
  cases h
  refine ⟨?_, fun i g' hget' => ?_⟩
  · rw [List.length_map, TaskPool.turns_length hpool nofun, hs.length]
  · rw [List.getElem?_map] at hget'
    obtain ⟨g, hget, rfl⟩ := Option.map_eq_some_iff.mp hget'
    split_ifs with hgone
    · refine ⟨fun _ h => absurd hgone h, fun _ h => ?_, fun _ h => ?_, fun _ h => ?_,
        fun _ h => ?_⟩ <;>
      · rw [hgone] at h
        cases h
    · obtain ⟨hstarting, hpolling, hbefore⟩ := hg i (List.getElem?_eq_some_iff.mp hget).1 g hget
      refine ⟨fun _ _ => rfl, fun _ _ => rfl, fun _ h => ?_, fun _ h => ?_, fun _ => hstarting⟩
      · exact (congrArg (s.aborted || ·) (hpolling h)).trans (Bool.or_true _)
      · change s.pool.abortSession.turns[i]?.any PoolTurn.cancelled = true
        have hi : i < s.pool.turns.length := by
          rw [← hs.length]
          exact (List.getElem?_eq_some_iff.mp hget).1
        rw [TaskPool.abortSession, hbefore h, List.getElem?_modify_eq, List.getElem?_eq_getElem hi]
        rfl

theorem fitting_announces {changed : Bool} (hs : s.Fitting) (hg : s.Punctual (.announces i changed))
    (h : s.step (.announces i changed) = some s') :
    s'.Fitting ∧ s.AbortsWork (.announces i changed) s' := by
  obtain ⟨⟨hphase, -⟩, h⟩ := Option.ite_none_right_eq_some.mp h
  obtain ⟨g, hget, hbefore⟩ := (phase_eq i .before).mp hphase
  have hfits := hs.fits i g hget
  cases haborted : g.aborted with
  | true =>
    -- the turn is cancelled, so the change that it sends is its last item
    have hcancelled : s.isCancelled i = true := hfits.before haborted hbefore
    rw [if_pos (hg g hget haborted)] at h
    obtain ⟨pool, hpool, rfl⟩ := Option.map_eq_some_iff.mp h
    have hwinds : s.Winds ({ s with pool }.setPhase i .returned) :=
      (winds_pool (s := s) hpool).trans (winds_setPhase _ i)
    have heq : (if ({ s.setPhase i .starting with pool } : DshAborts).isCancelled i then
          ({ s.setPhase i .starting with pool } : DshAborts).setPhase i .returned
        else { s.setPhase i .starting with pool }) = { s with pool }.setPhase i .returned := by
      rw [if_pos ((winds_pool hpool).cancelled i ▸ hcancelled)]
      simp only [setPhase, List.modify_modify_eq]
      rfl
    rw [heq]
    refine ⟨hwinds.fitting hs, ⟨nofun, nofun, fun i' _ heq' g' hget' hno => ?_⟩⟩
    cases heq'
    rw [hget] at hget'
    cases hget'
    rw [haborted] at hno
    cases hno
  | false =>
    have hcancelled : s.isCancelled i = false := by
      by_contra hno
      rw [Bool.not_eq_false] at hno
      rw [hfits.cancelled hno (hbefore ▸ nofun)] at haborted
      cases haborted
    have hstarting : (s.setPhase i .starting).Fitting := by
      refine ⟨(List.length_modify _ _ _).trans hs.length, fun j g' hget' => ?_⟩
      rw [getElem?_setPhase] at hget'
      split_ifs at hget' with hij
      · subst hij
        rw [hget] at hget'
        cases hget'
        refine ⟨fun h _ => ?_, nofun, nofun, nofun, fun h => ?_⟩
        · exact absurd (hcancelled.symm.trans h) Bool.false_ne_true
        · exact absurd (haborted.symm.trans h) Bool.false_ne_true
      · have h' := hs.fits j g' hget'
        exact ⟨h'.cancelled, h'.marked, h'.polling, h'.before, h'.starting⟩
    have hnow : (s.setPhase i .starting).phase i = some .starting := phase_setPhase hphase _
    cases changed with
    | true =>
      obtain ⟨hwinds, hkeeps⟩ := winds_produce h
      refine ⟨hwinds.fitting hstarting, ⟨nofun, nofun, fun i' _ heq' _ _ _ => ?_⟩⟩
      cases heq'
      rw [hkeeps hcancelled, hnow]
    | false =>
      cases h
      refine ⟨hstarting, ⟨nofun, nofun, fun i' _ heq' _ _ _ => ?_⟩⟩
      cases heq'
      exact hnow

theorem fitting_starts (hs : s.Fitting) (hg : s.Punctual (.starts i))
    (h : s.step (.starts i) = some s') : s'.Fitting := by
  obtain ⟨hphase, h⟩ := Option.ite_none_right_eq_some.mp h
  cases h
  obtain ⟨g, hget, hstarting⟩ := (phase_eq i .starting).mp hphase
  have hfits := hs.fits i g hget
  refine ⟨(List.length_modify _ _ _).trans hs.length, fun j g' hget' => ?_⟩
  rw [getElem?_setPhase] at hget'
  split_ifs at hget' with hij
  · subst hij
    rw [hget] at hget'
    cases hget'
    refine ⟨fun h _ => hfits.cancelled h (hstarting ▸ nofun), nofun, fun h => ?_, nofun, nofun⟩
    exact absurd hstarting (hfits.starting h)
  · have h' := hs.fits j g' hget'
    refine ⟨h'.cancelled, nofun, fun haborted hpolling => ?_, h'.before, h'.starting⟩
    rw [hg g' (List.mem_of_getElem? hget') hpolling] at haborted
    cases haborted

theorem fitting_polls (hs : s.Fitting) (h : s.step (.polls i outcome) = some s') :
    s'.Fitting ∧ s.AbortsWork (.polls i outcome) s' := by
  obtain ⟨hphase, h⟩ := Option.ite_none_right_eq_some.mp h
  obtain ⟨g, hget, hpolling⟩ := (phase_eq i .polling).mp hphase
  have hfits := hs.fits i g hget
  split_ifs at h with haborted
  · cases h
    refine ⟨(winds_setPhase s i).fitting hs, ⟨fun i' _ heq _ _ _ => ?_,
      fun i' _ heq g' hget' hno => ?_, nofun⟩⟩
    · cases heq
      exact phase_setPhase hphase _
    · cases heq
      rw [hget] at hget'
      cases hget'
      rw [hfits.marked haborted hpolling] at hno
      cases hno
  · refine ⟨(winds_poll h).fitting hs, ⟨fun i' _ heq g' hget' hyes => ?_,
      fun i' _ heq g' hget' hno hgone => ?_, nofun⟩⟩
    · cases heq
      rw [hget] at hget'
      cases hget'
      exact absurd (hfits.polling hyes hpolling) haborted
    · cases heq
      rw [hget] at hget'
      cases hget'
      have hcancelled : s.isCancelled i = false := by
        by_contra hyes
        rw [Bool.not_eq_false] at hyes
        rw [hfits.cancelled hyes (hpolling ▸ nofun)] at hno
        cases hno
      cases outcome with
      | silent =>
        cases h
        rw [hphase] at hgone
        cases hgone
      | passes items =>
        rw [(winds_produceAll h).2 hcancelled, hphase] at hgone
        cases hgone
      | idle => exact .inl rfl
      | raises => exact .inr rfl

theorem fitting_step {a : DshAbortAction} (hs : s.Fitting) (hg : s.Punctual a)
    (h : s.step a = some s') : s'.Fitting ∧ s.AbortsWork a s' := by
  cases a with
  | submit => exact ⟨fitting_submit hs h, ⟨nofun, nofun, nofun⟩⟩
  | abortSession => exact ⟨fitting_abortSession hs hg h, ⟨nofun, nofun, nofun⟩⟩
  | task i action =>
    obtain ⟨-, h⟩ := Option.ite_none_left_eq_some.mp h
    obtain ⟨pool, hpool, rfl⟩ := Option.map_eq_some_iff.mp h
    exact ⟨(winds_pool hpool).fitting hs, ⟨nofun, nofun, nofun⟩⟩
  | announces i changed => exact fitting_announces hs hg h
  | fails i =>
    obtain ⟨-, h⟩ := Option.ite_none_right_eq_some.mp h
    obtain ⟨pool, hpool, rfl⟩ := Option.map_eq_some_iff.mp h
    exact ⟨((winds_pool hpool).trans (winds_setPhase _ i)).fitting hs, ⟨nofun, nofun, nofun⟩⟩
  | refuses i =>
    obtain ⟨-, h⟩ := Option.ite_none_right_eq_some.mp h
    cases h
    exact ⟨(winds_setPhase s i).fitting hs, ⟨nofun, nofun, nofun⟩⟩
  | starts i => exact ⟨fitting_starts hs hg h, ⟨nofun, nofun, nofun⟩⟩
  | polls i outcome => exact fitting_polls hs h

/-- As long as the session is aborted in time, every abort is effective and isolated. -/
theorem aborts_work_of_punctual {as : List DshAbortAction} (h : Guarded step Punctual {} as) :
    Guarded step (fun s a => ∀ s', s.step a = some s' → s.AbortsWork a s') {} as := by
  refine guarded_steps (J := Fitting) ?_ ⟨rfl, fun i g hget => nomatch hget⟩ h
  exact fun s a s' hs hg hstep => fitting_step hs hg hstep

/-- A turn that is aborted while its upstream is silent. -/
theorem aborts_work_of_silent : Guarded step (fun s a => ∀ s', s.step a = some s' →
    s.AbortsWork a s') {} [.submit, .task 0 .begins, .task 0 .producerStarts, .announces 0 true,
      .starts 0, .polls 0 .silent, .abortSession, .polls 0 .silent] :=
  aborts_work_of_punctual (by decide +kernel)

/-- An abort just before the generator starts is erased by it. -/
theorem abort_erased_by_start :
    ¬ ∀ as : List DshAbortAction, Guarded step
      (fun s a => ∀ s', s.step a = some s' → s.AbortsWork a s') {} as := by
  intro h
  let before : List DshAbortAction := [.submit, .task 0 .begins, .task 0 .producerStarts,
    .announces 0 true, .abortSession, .starts 0]
  obtain ⟨s, hs⟩ : ∃ s, run step {} before = some s := Option.isSome_iff_exists.mp (by decide)
  have hsteps := guarded_of_append hs (h (before ++ [.polls 0 .silent]))
  cases hs
  obtain ⟨hwork, -⟩ := hsteps _ rfl
  have hreturned := (hwork _ rfl).effective 0 .silent rfl _ rfl rfl
  cases hreturned

end DshAborts

end WittyService
