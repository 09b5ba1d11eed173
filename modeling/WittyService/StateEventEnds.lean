import WittyService.StateEventTurns

/-! What the session ends with: in a run whose steps fit, the events are delivered in order, and
the last of them is not `running` once no turn is. -/
namespace WittyService

namespace StateSync

namespace SyncState

/-- The condition on a step. Events that are built are not to overtake others, and none that ends a
turn is to be built by a producer that will drop it, or lost by an error, while the session is
running. -/
def Fits (s : SyncState) : SyncAction → Prop
  | .turn k (.opens appendFails) =>
    appendFails = false → s.state? ≠ some .running → s.Alone k
  | .turn k (.yields _) => (s.turns k).cancelled = true → s.state? ≠ some .running
  | .turn k (.ends appendFails _) =>
    (appendFails = true ∨ (s.turns k).cancelled = true → s.state? ≠ some .running) ∧
    (appendFails = false → (s.turns k).producer.target? ≠ s.state? → s.Alone k)
  | .turn _ .finishes => s.allHeld = [] ∧ s.emitted = []
  | .abort => ∀ k ∈ s.cancelEvent, (s.turns k).producer.isClosing = false
  | .abortBuilds | .restBuilds => s.state? ≠ some .idle → s.allHeld = []
  | .abortEmits | .restEmits _ => s.allHeld = [] ∨ s.Free
  | _ => True

section

variable (s : SyncState)

instance (k : ℕ) : Decidable (s.Alone k) :=
  inferInstanceAs (Decidable (s.allHeld = [] ∧ ∀ j < s.count, j ≠ k → s.way j = []))

instance : Decidable s.Free := inferInstanceAs (Decidable (∀ j < s.count, s.way j = []))

instance : ∀ action, Decidable (s.Fits action)
  | .turn k (.opens appendFails) =>
    inferInstanceAs (Decidable (appendFails = false → s.state? ≠ some .running → s.Alone k))
  | .turn k (.yields _) =>
    inferInstanceAs (Decidable ((s.turns k).cancelled = true → s.state? ≠ some .running))
  | .turn k (.ends appendFails _) => inferInstanceAs (Decidable
    ((appendFails = true ∨ (s.turns k).cancelled = true → s.state? ≠ some .running) ∧
      (appendFails = false → (s.turns k).producer.target? ≠ s.state? → s.Alone k)))
  | .turn _ .finishes => inferInstanceAs (Decidable (s.allHeld = [] ∧ s.emitted = []))
  | .abort => inferInstanceAs
    (Decidable (∀ k ∈ s.cancelEvent, (s.turns k).producer.isClosing = false))
  | .abortBuilds | .restBuilds =>
    inferInstanceAs (Decidable (s.state? ≠ some .idle → s.allHeld = []))
  | .abortEmits | .restEmits _ => inferInstanceAs (Decidable (s.allHeld = [] ∨ s.Free))
  | .submit | .callback | .turn _ .begins | .turn _ .starts | .turn _ .fails | .turn _ .offers
  | .turn _ .closes | .turn _ .takes => .isTrue trivial

end

section

variable {s s' : SyncState} {i j k : ℕ} {t : Turn} {producer : Producer} {item : QueueItem}
  {event : StateEvent} {snapshot : Option StateEvent}

theorem Sound.submit (h : s.Sound i) :
    Sound { s with inflight := true, count := s.count + 1 } i := by
  refine ⟨h.ordered.same rfl (fun _ => rfl) rfl rfl le_rfl (Nat.le_succ _), ?_,
    ⟨fun j hj => h.paths.fresh j (Nat.le_of_succ_le hj), h.paths.complete⟩⟩
  refine ⟨fun e he hrunning => ?_, h.alive.announced, h.alive.closing, h.alive.emitted,
    h.alive.held, fun hended => ?_⟩
  · rcases h.alive.live e he hrunning with ⟨hnow, j, hj, hstreams⟩ | ⟨j, hj, hcloses⟩
    · exact .inl ⟨hnow, j, Nat.lt_succ_of_lt hj, hstreams⟩
    · exact .inr ⟨j, Nat.lt_succ_of_lt hj, hcloses⟩
  · -- the turn that has just been accepted
    have hnew : (s.turns s.count).phase = .ended := hended s.count (Nat.lt_succ_self _)
    rw [h.paths.fresh s.count le_rfl] at hnew
    cases hnew

theorem Sound.callback (h : s.Sound i) (hcallback : s.runCallback = some s') :
    ∃ i, s'.Sound i := by
  refine ⟨i, ?_⟩
  unfold runCallback at hcallback
  split at hcallback
  · cases hcallback
  next k item callbacks hcallbacks =>
    cases hcallback
    have hturns := setTurn_cases (s := { s with callbacks }) (k := k)
      (t := { s.turns k with queue := (s.turns k).queue ++ [item] })
      (P := fun t' t => t'.phase = t.phase ∧ t'.producer = t.producer ∧ t'.cancelled = t.cancelled)
      ⟨rfl, rfl, rfl⟩ fun _ => ⟨rfl, rfl, rfl⟩
    refine ⟨h.ordered.put hcallbacks, ?_, ⟨fun j hj => ?_, fun j => ?_⟩⟩
    · refine h.alive.delivers (h.ordered.sent_put hcallbacks) rfl rfl rfl (fun j => (hturns j).2) ?_
        fun hended => h.alive.settled fun j hj => (hturns j).1.symm.trans (hended j hj)
      rw [emitted, emitted, hcallbacks]
      exact List.Subset.refl _
    · exact (hturns j).1.trans (h.paths.fresh j hj)
    · have hcomplete := h.paths.complete j
      unfold Turn.Complete at hcomplete ⊢
      rw [Ordered.path_put hcallbacks, putItem, (hturns j).1, (hturns j).2.1]
      exact hcomplete
  next event callbacks hcallbacks =>
    cases hcallback
    have hemitted : s.emitted = event :: ({ s with callbacks }.deliver event).emitted := by
      rw [emitted, hcallbacks]
      rfl
    refine ⟨h.ordered.emit hcallbacks, ?_, ⟨h.paths.fresh, fun j => ?_⟩⟩
    · refine h.alive.delivers (h.ordered.sent_emit hcallbacks) rfl rfl rfl (fun _ => ⟨rfl, rfl⟩) ?_
        fun _ e he => ?_
      · rw [hemitted]
        exact List.subset_cons_self _ _
      · rw [deliver, List.getLast?_concat] at he
        cases he
        rw [h.alive.emitted event (hemitted ▸ List.mem_cons_self)]
        rintro ⟨⟩
    · have hpath : ({ s with callbacks }.deliver event).path j = s.path j := by
        rw [path, path, hcallbacks]
        rfl
      rw [hpath]
      exact h.paths.complete j

theorem Sound.abortAt (h : s.Sound i) {abort : SocketAbort} (hheld : abort.held = s.abort.held) :
    Sound { s with abort } i := by
  have hsame : allHeld { s with abort } = s.allHeld := congrArg (s.held ++ ·) hheld
  refine ⟨h.ordered.same ?_ (fun _ => rfl) rfl hsame le_rfl le_rfl, ?_,
    ⟨h.paths.fresh, h.paths.complete⟩⟩
  · rw [line, hsame]
    rfl
  · exact h.alive.delivers rfl hsame rfl rfl (fun _ => ⟨rfl, rfl⟩) (List.Subset.refl _)
      h.alive.settled

theorem Sound.socketAbort (h : s.Sound i) (hidle : s.abort = .idle)
    (hfits : ∀ k ∈ s.cancelEvent, (s.turns k).producer.isClosing = false) :
    ∃ i, s.socketAbort.Sound i := by
  refine ⟨i, ?_⟩
  unfold SyncState.socketAbort
  cases hcancel : s.cancelEvent with
  | none => exact h
  | some k =>
    -- a turn that was about to end is another one
    let next : SyncState := s.setTurn k { s.turns k with cancelled := true }
    have hturns := setTurn_cases (s := s) (k := k) (t := { s.turns k with cancelled := true })
      (P := fun t' t => t'.phase = t.phase ∧ t'.producer = t.producer ∧ t'.queue = t.queue)
      ⟨rfl, rfl, rfl⟩ fun _ => ⟨rfl, rfl, rfl⟩
    have hpath : ∀ j, next.path j = s.path j := fun j => by
      rw [path, (hturns j).2.2]
      rfl
    have hsent : next.sent i = s.sent i := by
      rw [sent, queued, (hturns i).2.2]
      rfl
    have hgoing : s.Going → next.Going := by
      rintro (⟨hnow, j, hj, failed, hstreams⟩ | ⟨j, hj, hnot, event, raised, hclosing⟩)
      · exact .inl ⟨hnow, j, hj, failed, (hturns j).2.1.trans hstreams⟩
      · have hne : j ≠ k := by
          rintro rfl
          have hk := hfits j hcancel
          rw [hclosing] at hk
          cases hk
        refine .inr ⟨j, hj, ?_⟩
        rw [turns_setTurn_ne hne]
        exact ⟨hnot, event, raised, hclosing⟩
    have hsound : next.Sound i := by
      refine ⟨h.ordered.turn rfl rfl, ⟨fun e he hrunning => ?_, fun j e hj => ?_,
        fun j e raised hj => ?_, h.alive.emitted, h.alive.held, fun hended => ?_⟩,
        ⟨fun j hj => (hturns j).1.trans (h.paths.fresh j hj), fun j => ?_⟩⟩
      · rw [committed, hsent] at he
        exact hgoing (h.alive.live e he hrunning)
      · exact h.alive.announced j e ((hturns j).2.1.symm.trans hj)
      · exact h.alive.closing j e raised ((hturns j).2.1.symm.trans hj)
      · exact h.alive.settled fun j hj => (hturns j).1.symm.trans (hended j hj)
      · have hcomplete := h.paths.complete j
        unfold Turn.Complete at hcomplete ⊢
        rw [hpath, (hturns j).1, (hturns j).2.1]
        exact hcomplete
    refine hsound.abortAt ?_
    have hnext : next.abort = .idle := hidle
    rw [hnext]
    rfl

theorem Alive.aborts (h : s.Alive i) (hturns : s'.turns = s.turns)
    (hout : s'.outbound = s.outbound) (hcount : s'.count = s.count)
    (hlast : ∀ e, (s'.committed i).getLast? = some e → e.state = .idle)
    (hannounced : ∀ j e, (s.turns j).producer = .announcing e → s'.allHeld ≠ [])
    (hemitted : ∀ e ∈ s'.emitted, e.state = .idle) (hheld : ∀ e ∈ s'.allHeld, e.state = .idle) :
    s'.Alive i := by
  refine ⟨fun e he hrunning => ?_, fun j e hj => ?_, fun j e raised hj => ?_, hemitted, hheld,
    fun hended e he => ?_⟩
  · rw [hlast e he] at hrunning
    cases hrunning
  · rw [hturns] at hj
    exact ⟨(h.announced j e hj).1, fun hnone => absurd hnone (hannounced j e hj)⟩
  · rw [hturns] at hj
    exact h.closing j e raised hj
  · rw [hout] at he
    refine h.settled (fun j hj => ?_) e he
    rw [← hturns]
    exact hended j (hcount ▸ hj)

theorem Paths.same (h : s.Paths) (hturns : s'.turns = s.turns) (hcount : s'.count = s.count)
    (hpath : ∀ j, s'.path j = s.path j) : s'.Paths := by
  refine ⟨fun j hj => ?_, fun j => ?_⟩
  · rw [hturns]
    exact h.fresh j (hcount ▸ hj)
  · rw [hpath, hturns]
    exact h.complete j

section

variable (h : s.Sound i)
include h

theorem Sound.holds (hturns : s'.turns = s.turns)
    (hcallbacks : s'.callbacks = s.callbacks) (hout : s'.outbound = s.outbound)
    (hcount : s'.count = s.count) (hheld : s.allHeld = []) (hheld' : s'.allHeld = [event])
    (hsnapshot : s'.snapshot = some event) (hevent : event = ⟨.idle, s.top + 1⟩) :
    s'.Sound i := by
  have hidle : event.state = .idle := hevent ▸ rfl
  have hsent : s'.sent i = s.sent i := by
    rw [sent, sent, queued, queued, called, called, hturns, hcallbacks, hout]
  have htop : s'.top = event.seq := by rw [top, hsnapshot, Option.elim_some]
  have hpath : ∀ j, s'.path j = s.path j := by
    intro j
    rw [path, path, hturns, hcallbacks]
  refine ⟨h.ordered.holds hturns hcallbacks hout hheld hheld' (hevent ▸ rfl) htop hcount,
    h.alive.aborts hturns hout hcount (fun e he => ?_) (fun j e _ => ?_) (fun e he => ?_)
      fun e he => ?_, h.paths.same hturns hcount hpath⟩
  · rw [committed, hsent, hheld', List.getLast?_concat] at he
    cases he
    exact hidle
  · -- a `running` event that is still to be submitted comes before it
    rw [hheld']
    rintro ⟨⟩
  · rw [emitted, hcallbacks] at he
    exact h.alive.emitted e he
  · rw [hheld'] at he
    rw [List.mem_singleton.mp he, hidle]

theorem Sound.emits (hturns : s'.turns = s.turns)
    (hcallbacks : s'.callbacks = s.callbacks ++ [.emit event]) (hout : s'.outbound = s.outbound)
    (hcount : s'.count = s.count) (hheld : s.allHeld = [event]) (hheld' : s'.allHeld = [])
    (hsnapshot : s'.snapshot = s.snapshot) (hfree : s.Free) : s'.Sound i := by
  have hidle : event.state = .idle := h.alive.held event (hheld ▸ List.mem_cons_self)
  have hordered : s'.Ordered i := h.ordered.emits hturns hcallbacks hout hheld hheld' hfree (by
    rw [top, top, hsnapshot])
  have hpath := Ordered.path_emit hturns hcallbacks
  refine ⟨hordered, h.alive.aborts hturns hout hcount (fun e he => ?_) (fun j e hj => ?_)
    (fun e he => ?_) fun e he => ?_, h.paths.same hturns hcount hpath⟩
  · have hsent : s'.sent i = s.sent i ++ [event] := by
      rw [sent, sent, queued, queued, called, called, hturns, hcallbacks, hout,
        List.filterMap_append, ← List.append_assoc]
      rfl
    rw [committed, hheld', List.append_nil, hsent, List.getLast?_concat] at he
    cases he
    exact hidle
  · exact absurd hj (hand_announcing (h.ordered.way_free hfree j))
  · rw [emitted, hcallbacks, List.filterMap_append] at he
    rcases List.mem_append.mp he with he | he
    · exact h.alive.emitted e he
    · rw [List.mem_singleton.mp he]
      exact hidle
  · rw [hheld'] at he
    cases he

theorem Sound.abortBuilds (habort : s.abort = .cancelled)
    (hfits : s.state? ≠ some .idle → s.allHeld = []) :
    Sound { (s.build .idle).1 with abort := .built (s.build .idle).2 } i := by
  rcases build_cases s .idle with ⟨-, hbuild⟩ | ⟨hstate, hbuild⟩
  · rw [hbuild]
    exact h.abortAt (by rw [habort]; rfl)
  · rw [hbuild]
    have hnone := hfits hstate
    refine h.holds rfl rfl rfl rfl hnone ?_ rfl rfl
    obtain ⟨hheld, -⟩ := List.append_eq_nil_iff.mp hnone
    exact congrArg (· ++ [_]) hheld

theorem Sound.restBuilds (hfits : s.state? ≠ some .idle → s.allHeld = []) :
    Sound { (s.build .idle).1 with held := s.held ++ (s.build .idle).2.toList } i := by
  rcases build_cases s .idle with ⟨-, hbuild⟩ | ⟨hstate, hbuild⟩
  · rw [hbuild, Option.toList_none, List.append_nil]
    exact h
  · rw [hbuild]
    have hnone := hfits hstate
    refine h.holds rfl rfl rfl rfl hnone ?_ rfl rfl
    obtain ⟨hheld, habort⟩ := List.append_eq_nil_iff.mp hnone
    simp only [allHeld, hheld]
    exact congrArg ([_] ++ ·) habort

theorem Sound.abortEmits {event : Option StateEvent}
    (habort : s.abort = .built event) (hfits : s.allHeld = [] ∨ s.Free) :
    Sound { s with abort := .idle, callbacks := s.callbacks ++ event.toList.map .emit } i := by
  cases event with
  | none =>
    have hcallbacks : s.callbacks ++ (none : Option StateEvent).toList.map .emit = s.callbacks :=
      List.append_nil _
    rw [hcallbacks]
    exact h.abortAt (by rw [habort]; rfl)
  | some event =>
    have hall : s.allHeld = s.held ++ [event] := by
      rw [allHeld, habort]
      rfl
    -- it is the only one that is held
    have hheld : s.held = [] := by
      have hlength := h.ordered.single
      rw [hall, List.length_append, List.length_singleton] at hlength
      exact List.eq_nil_of_length_eq_zero (Nat.le_zero.mp (Nat.le_of_succ_le_succ hlength))
    rw [hheld, List.nil_append] at hall
    rcases hfits with hnone | hfree
    · rw [hall] at hnone
      cases hnone
    · refine h.emits rfl rfl rfl rfl hall ?_ rfl hfree
      exact congrArg (· ++ []) hheld

theorem Sound.restEmits {n : ℕ} (hheld : s.held[n]? = some event)
    (hfits : s.allHeld = [] ∨ s.Free) :
    Sound { s.callSoon (.emit event) with held := s.held.eraseIdx n } i := by
  have hlength := h.ordered.single
  rw [allHeld, List.length_append] at hlength
  obtain ⟨hn, hget⟩ := List.getElem?_eq_some_iff.mp hheld
  have hone : s.held = [event] := by
    have hlength : s.held.length = 1 := by
      apply Nat.le_antisymm
      · exact Nat.le_trans (Nat.le_add_right _ _) hlength
      · exact Nat.lt_of_le_of_lt n.zero_le hn
    obtain ⟨e, he⟩ := List.length_eq_one_iff.mp hlength
    rw [he] at hheld ⊢
    cases n with
    | zero => exact congrArg (fun e => [e]) (Option.some.inj hheld)
    | succ n => cases hheld
  have hzero : n = 0 := by
    rw [hone] at hn
    exact Nat.lt_one_iff.mp hn
  have habort : s.abort.held = [] := by
    rw [hone, List.length_singleton] at hlength
    refine List.eq_nil_of_length_eq_zero (Nat.le_zero.mp (Nat.le_of_add_le_add_left hlength))
  have hall : s.allHeld = [event] := by
    rw [allHeld, hone, habort]
    rfl
  subst hzero
  rcases hfits with hnone | hfree
  · rw [hall] at hnone
    cases hnone
  · refine h.emits rfl rfl rfl rfl hall ?_ rfl hfree
    rw [hone]
    exact habort

end

theorem committed_ended (hordered : s.Ordered i) (hpaths : s.Paths) (hended : s.AllEnded)
    (hheld : s.allHeld = []) (hemitted : s.emitted = []) : s.committed i = s.outbound := by
  have hpath : ∀ j < s.count, s.path j = [] := by
    intro j hj
    have hcomplete := hpaths.complete j
    unfold Turn.Complete at hcomplete
    rw [hended j hj] at hcomplete
    exact hcomplete.2
  have hway : ∀ j, events (s.path j) = [] := by
    intro j
    by_cases hj : s.count ≤ j
    · exact (List.append_eq_nil_iff.mp (hordered.alone j (.inr hj))).1
    · rw [hpath j (Nat.lt_of_not_le hj)]
      rfl
  have hqueued : s.queued i = [] := by
    have hi := hway i
    rw [path, events_append] at hi
    exact (List.append_eq_nil_iff.mp hi).1
  have hcalled : s.called = [] := by
    apply List.eq_nil_iff_forall_not_mem.mpr
    intro e he
    obtain ⟨callback, hcallback, hevent⟩ := List.mem_filterMap.mp he
    cases callback with
    | put j item =>
      have hmem : e ∈ events (s.path j) := by
        refine List.mem_filterMap.mpr ⟨item, ?_, hevent⟩
        refine List.mem_append_right _ (List.mem_filterMap.mpr ⟨_, hcallback, ?_⟩)
        exact if_pos rfl
      rw [hway] at hmem
      cases hmem
    | emit event =>
      have hmem : e ∈ s.emitted := List.mem_filterMap.mpr ⟨_, hcallback, hevent⟩
      rw [hemitted] at hmem
      cases hmem
  rw [committed, sent, hqueued, hcalled, hheld, List.append_nil, List.append_nil, List.append_nil]

theorem not_going (hpaths : s.Paths) (hended : s.AllEnded) : ¬ s.Going := by
  have hdone : ∀ j < s.count, (s.turns j).producer = .done := by
    intro j hj
    have hcomplete := hpaths.complete j
    unfold Turn.Complete at hcomplete
    rw [hended j hj] at hcomplete
    exact hcomplete.1
  rintro (⟨-, j, hj, failed, hstreams⟩ | ⟨j, hj, -, event, raised, hclosing⟩)
  · rw [hdone j hj] at hstreams
    cases hstreams
  · rw [hdone j hj] at hclosing
    cases hclosing

theorem Sound.finishes (h : s.Sound i) (hcount : k < s.count)
    (hphase : (s.turns k).phase = .awaiting) (hheld : s.allHeld = []) (hemitted : s.emitted = []) :
    (s.setTurn k { s.turns k with phase := .ended }).Sound i := by
  let next : SyncState := s.setTurn k { s.turns k with phase := .ended }
  have hturns := setTurn_cases (s := s) (k := k) (t := { s.turns k with phase := .ended })
    (P := fun t' t => t'.producer = t.producer ∧ t'.cancelled = t.cancelled ∧ t'.queue = t.queue)
    ⟨rfl, rfl, rfl⟩ fun _ => ⟨rfl, rfl, rfl⟩
  have hordered : next.Ordered i := h.ordered.turn rfl rfl
  have hpaths : next.Paths := by
    refine h.paths.turn hcount ?_
    have hcomplete := h.paths.complete k
    unfold Turn.Complete at hcomplete
    rw [hphase] at hcomplete
    exact hcomplete
  have hsent : next.sent i = s.sent i := by
    rw [sent, queued, (hturns i).2.2]
    rfl
  refine ⟨hordered, ?_, hpaths⟩
  refine h.alive.delivers hsent rfl rfl rfl (fun j => ⟨(hturns j).1, (hturns j).2.1⟩)
    (List.Subset.refl _) fun hended e he hrunning => ?_
  -- all that has been built is delivered
  have hcommitted : s.committed i = s.outbound := by
    have hall := committed_ended hordered hpaths hended hheld hemitted
    rw [committed, hsent] at hall
    exact hall
  have hgoing : s.Going := h.alive.live e (hcommitted ▸ he) hrunning
  apply not_going hpaths hended
  rcases hgoing with ⟨hnow, j, hj, failed, hstreams⟩ | ⟨j, hj, hnot, event, raised, hclosing⟩
  · exact .inl ⟨hnow, j, hj, failed, (hturns j).1.trans hstreams⟩
  · exact .inr ⟨j, hj, (hturns j).2.1.trans hnot, event, raised, (hturns j).1.trans hclosing⟩

theorem Sound.turnStep (h : s.Sound i) (hcount : k < s.count) {action : TurnAction}
    (hfits : s.Fits (.turn k action)) (hs' : s.turnStep k action = some s') : ∃ i, s'.Sound i := by
  cases action with
  | begins =>
    obtain ⟨⟨-, hphase⟩, hs'⟩ := Option.ite_none_right_eq_some.mp hs'
    cases hs'
    have hcomplete := h.paths.complete k
    unfold Turn.Complete at hcomplete
    rw [hphase] at hcomplete
    have hsound := h.turn (t := { s.turns k with phase := .forwarding }) hcount rfl rfl rfl
      (by rintro ⟨⟩)
      hcomplete
    exact ⟨i, hsound.pool _ _⟩
  | starts =>
    obtain ⟨⟨-, hwaiting⟩, hs'⟩ := Option.ite_none_right_eq_some.mp hs'
    cases hs'
    have hcloses : ¬ (s.turns k).Closes := not_closes (by simp [hwaiting])
    have hstreams : ¬ (s.turns k).Streams := by simp [Turn.Streams, hwaiting]
    exact ⟨i, h.silent hcloses (fun _ => hstreams) (by simp [hwaiting]) rfl (by rintro ⟨⟩)⟩
  | fails =>
    obtain ⟨hstarting, hs'⟩ := Option.ite_none_right_eq_some.mp hs'
    cases hs'
    have hcloses : ¬ (s.turns k).Closes := not_closes (by simp [hstarting])
    have hstreams : ¬ (s.turns k).Streams := by simp [Turn.Streams, hstarting]
    exact ⟨i, h.silent hcloses (fun _ => hstreams) (by simp [hstarting]) rfl (by rintro ⟨⟩)⟩
  | opens appendFails =>
    obtain ⟨hstarting, hs'⟩ := Option.ite_none_right_eq_some.mp hs'
    cases hs'
    exact h.opens hcount hstarting hfits
  | offers => exact h.offers hs' hcount
  | yields type =>
    unfold SyncState.turnStep at hs'
    dsimp only at hs'
    split at hs'
    next failed hstreaming =>
      cases hs'
      exact h.yields hstreaming hcount hfits
    · cases hs'
  | ends appendFails raised =>
    unfold SyncState.turnStep at hs'
    dsimp only at hs'
    split at hs'
    next failed hstreaming =>
      cases hs'
      exact h.ends hstreaming hcount hfits.1 hfits.2
    · cases hs'
  | closes =>
    unfold SyncState.turnStep at hs'
    dsimp only at hs'
    split at hs'
    next raised hended =>
      cases hs'
      exact h.closes hended
    · cases hs'
  | takes =>
    obtain ⟨⟨-, hphase⟩, hs'⟩ := Option.ite_none_right_eq_some.mp hs'
    exact h.takes hcount hphase hs'
  | finishes =>
    obtain ⟨⟨-, hphase, -⟩, hs'⟩ := Option.ite_none_right_eq_some.mp hs'
    cases hs'
    exact ⟨i, h.finishes hcount hphase hfits.1 hfits.2⟩

theorem sound_step {action : SyncAction} (h : ∃ i, s.Sound i) (hfits : s.Fits action)
    (hs' : s.step action = some s') : ∃ i, s'.Sound i := by
  obtain ⟨i, h⟩ := h
  cases action with
  | submit =>
    obtain ⟨-, hs'⟩ := Option.ite_none_right_eq_some.mp hs'
    cases hs'
    split_ifs
    · exact ⟨i, h⟩
    · exact ⟨i, h.submit⟩
  | turn k action =>
    obtain ⟨hcount, hs'⟩ := Option.ite_none_right_eq_some.mp hs'
    exact h.turnStep hcount hfits hs'
  | callback =>
    obtain ⟨-, hs'⟩ := Option.ite_none_right_eq_some.mp hs'
    exact h.callback hs'
  | abort =>
    obtain ⟨hidle, hs'⟩ := Option.ite_none_right_eq_some.mp hs'
    cases hs'
    exact h.socketAbort hidle hfits
  | abortBuilds =>
    obtain ⟨habort, hs'⟩ := Option.ite_none_right_eq_some.mp hs'
    cases hs'
    exact ⟨i, h.abortBuilds habort hfits⟩
  | abortEmits =>
    unfold step at hs'
    dsimp only at hs'
    split at hs'
    next event habort =>
      cases hs'
      exact ⟨i, h.abortEmits habort hfits⟩
    · cases hs'
  | restBuilds =>
    cases hs'
    exact ⟨i, h.restBuilds hfits⟩
  | restEmits n =>
    obtain ⟨event, hheld, hs'⟩ := Option.map_eq_some_iff.mp hs'
    cases hs'
    exact ⟨i, h.restEmits hheld hfits⟩

theorem sound_bound (snapshot : Option StateEvent) : Sound { snapshot } 0 := by
  have hcommitted : ∀ e, (committed { snapshot } 0).getLast? ≠ some e := fun e => nofun
  have hway : ∀ j, way { snapshot } j = [] := fun _ => rfl
  refine ⟨⟨fun j _ => hway j, List.Pairwise.nil, fun e he => ?_, fun a ha => ?_, Nat.zero_le _⟩,
    ⟨fun e he => absurd he (hcommitted e), nofun, nofun, fun e he => ?_, fun e he => ?_, nofun⟩,
    ⟨fun _ _ => rfl, fun j hj => ?_⟩⟩
  · cases he
  · cases ha
  · cases he
  · cases he
  · cases hj

end

structure InOrder (s : SyncState) : Prop where
  increasing : s.outbound.Pairwise fun a b => a.seq < b.seq
  settled : s.AllEnded → ∀ e, s.outbound.getLast? = some e → e.state ≠ .running

theorem Sound.inOrder {s : SyncState} {i : ℕ} (h : s.Sound i) : s.InOrder := by
  refine ⟨?_, h.alive.settled⟩
  have hsorted := h.ordered.sorted
  simp only [line, sent, List.pairwise_append] at hsorted
  exact hsorted.1.1.1.1

/-- In every run whose steps fit, the events are delivered in order, and the last one is not
`running` once no turn is. -/
theorem state_events_in_order (snapshot : Option StateEvent) (actions : List SyncAction)
    (hfits : GuardedRuns.Guarded step Fits { snapshot } actions) :
    GuardedRuns.Always step InOrder { snapshot } actions := by
  have hsound : GuardedRuns.Always step (fun s => ∃ i, s.Sound i) { snapshot } actions := by
    refine GuardedRuns.always_of_guarded ?_ ⟨0, sound_bound snapshot⟩ hfits
    exact fun s action s' h hfits hs' => sound_step h hfits hs'
  exact GuardedRuns.always_mono (fun s ⟨i, h⟩ => h.inOrder) hsound

def abortedTurn : List SyncAction := [
  .submit, .turn 0 .begins, .turn 0 .starts, .turn 0 (.opens false), .turn 0 .offers, .callback,
  .turn 0 .takes, .turn 0 (.yields .other), .callback, .turn 0 .takes,
  .abort, .abortBuilds, .abortEmits, .turn 0 (.yields .other), .turn 0 .closes, .callback,
  .callback, .turn 0 .takes, .turn 0 .finishes]

theorem abortedTurn_in_order : GuardedRuns.Always step InOrder {} abortedTurn := by
  apply state_events_in_order none
  decide

/-- An abort that comes while the `running` event is in the loop overtakes it. -/
theorem abort_overtakes : ¬ ∀ (snapshot : Option StateEvent) (actions : List SyncAction),
    GuardedRuns.Always step InOrder { snapshot } actions := by
  intro h
  let actions : List SyncAction := [
    .submit, .turn 0 .begins, .turn 0 .starts, .turn 0 (.opens false), .turn 0 .offers,
    .abort, .abortBuilds, .abortEmits, .callback, .callback, .turn 0 .takes]
  have hlast := GuardedRuns.always_last (h none actions) rfl
  have hincreasing := hlast.increasing
  revert hincreasing
  decide

end SyncState

end StateSync

end WittyService
