import WittyService.StateEventOrder

/-! What a turn does to the end of the events: the last event that has been built is `running` only
while a turn is still to build the event that ends it. -/
namespace WittyService

namespace StateSync

def Producer.target? : Producer → Option SessionState
  | streaming failed => some (SyncState.targetState failed)
  | _ => none

def Producer.isClosing : Producer → Bool
  | closing _ _ => true
  | _ => false

/-- The turn is in the loop over the events of its runtime. -/
def Turn.Streams (t : Turn) : Prop := ∃ failed, t.producer = .streaming failed

/-- The turn is about to submit the event that ends it. -/
def Turn.Closes (t : Turn) : Prop :=
  t.cancelled = false ∧ ∃ event raised, t.producer = .closing event raised

/-- The items on their way to a turn end with the sentinel, which is the last one it takes. -/
def Turn.Complete (t : Turn) (path : List QueueItem) : Prop :=
  match t.phase with
  | .accepted | .forwarding =>
    if t.producer = .done then
      ∃ items, path = items ++ [.sentinel] ∧ QueueItem.sentinel ∉ items
    else QueueItem.sentinel ∉ path
  | .awaiting | .ended => t.producer = .done ∧ path = []

variable {path queue : List QueueItem}

theorem Turn.Complete.takes {t : Turn} {item : QueueItem}
    (h : Turn.Complete t (item :: path)) (hphase : t.phase = .forwarding)
    (hitem : item ≠ .sentinel) : Turn.Complete { t with queue } path := by
  unfold Turn.Complete at h ⊢
  simp only [hphase] at h ⊢
  split_ifs at h ⊢ with hdone
  · obtain ⟨items, heq, hnot⟩ := h
    cases items with
    | nil =>
      cases heq
      exact absurd rfl hitem
    | cons first items =>
      cases heq
      exact ⟨items, rfl, fun hmem => hnot (List.mem_cons_of_mem _ hmem)⟩
  · exact fun hmem => h (List.mem_cons_of_mem _ hmem)

theorem Turn.Complete.sentinel {t : Turn}
    (h : Turn.Complete t (.sentinel :: path)) (hphase : t.phase = .forwarding) :
    Turn.Complete { t with queue, phase := .awaiting } path := by
  unfold Turn.Complete at h ⊢
  simp only [hphase] at h ⊢
  split_ifs at h with hdone
  · obtain ⟨items, heq, hnot⟩ := h
    cases items with
    | nil =>
      cases heq
      exact ⟨hdone, rfl⟩
    | cons first items =>
      cases heq
      exact absurd List.mem_cons_self hnot
  · exact absurd List.mem_cons_self h

namespace SyncState

/-- A turn will still submit an event after `running`. -/
def Going (s : SyncState) : Prop :=
  s.state? = some .running ∧ (∃ j < s.count, (s.turns j).Streams) ∨
    ∃ j < s.count, (s.turns j).Closes

def AllEnded (s : SyncState) : Prop := ∀ j < s.count, (s.turns j).phase = .ended

structure Alive (s : SyncState) (i : ℕ) : Prop where
  live : ∀ e, (s.committed i).getLast? = some e → e.state = .running → s.Going
  announced : ∀ j e, (s.turns j).producer = .announcing e → e.state = .running ∧
    (s.allHeld = [] → s.state? = some .running)
  closing : ∀ j e raised, (s.turns j).producer = .closing e raised → e.state ≠ .running
  emitted : ∀ e ∈ s.emitted, e.state = .idle
  held : ∀ e ∈ s.allHeld, e.state = .idle
  settled : s.AllEnded → ∀ e, s.outbound.getLast? = some e → e.state ≠ .running

structure Paths (s : SyncState) : Prop where
  fresh : ∀ j, s.count ≤ j → (s.turns j).phase = .accepted
  complete : ∀ j, (s.turns j).Complete (s.path j)

variable {s s' : SyncState} {i j k : ℕ} {t : Turn} {producer : Producer} {item : QueueItem}
  {event : StateEvent} {snapshot : Option StateEvent}

theorem getLast?_held {items held : List StateEvent} {e : StateEvent}
    (h : (items ++ held).getLast? = some e) : held = [] ∧ items.getLast? = some e ∨ e ∈ held := by
  rcases List.eq_nil_or_concat held with rfl | ⟨held, last, rfl⟩
  · exact .inl ⟨rfl, by rwa [List.append_nil] at h⟩
  · right
    rw [List.concat_eq_append] at h ⊢
    rw [← List.append_assoc, List.getLast?_concat] at h
    cases h
    exact List.mem_append_right _ List.mem_cons_self

theorem going_closes (h : ∃ j < s.count, (s.turns j).Closes) (hk : ¬ (s.turns k).Closes) :
    Going ({ s with snapshot }.setProducer k producer) := by
  obtain ⟨j, hj, hcloses⟩ := h
  have hne : j ≠ k := by
    rintro rfl
    exact hk hcloses
  refine .inr ⟨j, hj, ?_⟩
  rw [turns_setProducer_ne hne]
  exact hcloses

theorem going_streams (h : ∃ j < s.count, (s.turns j).Streams) (hk : ¬ (s.turns k).Streams)
    (hstate : snapshot.map StateEvent.state = some .running) :
    Going ({ s with snapshot }.setProducer k producer) := by
  obtain ⟨j, hj, hstreams⟩ := h
  have hne : j ≠ k := by
    rintro rfl
    exact hk hstreams
  refine .inl ⟨hstate, j, hj, ?_⟩
  rw [turns_setProducer_ne hne]
  exact hstreams

theorem going_moves (h : s.Going) (hcloses : ¬ (s.turns k).Closes)
    (hstate : s.state? = some .running → ¬ (s.turns k).Streams ∧
      snapshot.map StateEvent.state = some .running) :
    Going ({ s with snapshot }.setProducer k producer) := by
  rcases h with ⟨hrunning, hstreams⟩ | hclosing
  · obtain ⟨hk, hsnapshot⟩ := hstate hrunning
    exact going_streams hstreams hk hsnapshot
  · exact going_closes hclosing hcloses

theorem not_closes (h : ∀ event raised, (s.turns k).producer ≠ .closing event raised) :
    ¬ (s.turns k).Closes := fun ⟨_, event, raised, hclosing⟩ => h event raised hclosing

theorem Alive.moves (h : s.Alive i)
    (hgoing : s.Going → Going ({ s with snapshot }.setProducer k producer))
    (hothers : ∀ j e, j ≠ k → (s.turns j).producer = .announcing e → s.allHeld = [] →
      snapshot.map StateEvent.state = some .running)
    (hannounced : ∀ e, producer = .announcing e → e.state = .running ∧
      snapshot.map StateEvent.state = some .running)
    (hclosing : ∀ e raised, producer = .closing e raised → e.state ≠ .running) :
    Alive ({ s with snapshot }.setProducer k producer) i := by
  refine ⟨fun e he hrunning => ?_, fun j e hj => ?_, fun j e raised hj => ?_, h.emitted, h.held,
    fun hended e he => ?_⟩
  · rw [committed, sent_setProducer] at he
    exact hgoing (h.live e he hrunning)
  · by_cases hne : j = k
    · subst hne
      rw [producer_setProducer_self] at hj
      exact ⟨(hannounced e hj).1, fun _ => (hannounced e hj).2⟩
    · rw [turns_setProducer_ne hne] at hj
      exact ⟨(h.announced j e hj).1, hothers j e hne hj⟩
  · by_cases hne : j = k
    · subst hne
      rw [producer_setProducer_self] at hj
      exact hclosing e raised hj
    · rw [turns_setProducer_ne hne] at hj
      exact h.closing j e raised hj
  · refine h.settled (fun j hj => ?_) e he
    have hphase := hended j hj
    rw [turns_setProducer.2.1] at hphase
    exact hphase

theorem Alive.submits (h : s.Alive i) (hquiet : producer.event? = none)
    (hgoing : event.state = .running → s.allHeld = [] →
      Going ((s.setProducer k producer).callSoon (.put k (.stateChanged event)))) :
    Alive ((s.setProducer k producer).callSoon (.put k (.stateChanged event))) i := by
  let next : SyncState := (s.setProducer k producer).callSoon (.put k (.stateChanged event))
  have hproducer : ∀ j, (next.turns j).producer.event? ≠ none → j ≠ k := by
    rintro j hj rfl
    rw [turns_callSoon, producer_setProducer_self] at hj
    exact hj hquiet
  have hturns : ∀ j, j ≠ k → next.turns j = s.turns j := fun j hj => turns_setProducer_ne hj
  refine ⟨fun e he hrunning => ?_, fun j e hj => ?_, fun j e raised hj => ?_, fun e he => ?_,
    h.held, fun hended e he => ?_⟩
  · have hcommitted : next.committed i = s.sent i ++ [event] ++ s.allHeld := by
      rw [committed, sent_callSoon, sent_setProducer]
      rfl
    rw [hcommitted] at he
    rcases getLast?_held he with ⟨hheld, he⟩ | he
    · rw [List.getLast?_concat] at he
      cases he
      exact hgoing hrunning hheld
    · rw [h.held e he] at hrunning
      cases hrunning
  · have hne := hproducer j (by rw [hj]; nofun)
    rw [hturns j hne] at hj
    exact h.announced j e hj
  · have hne := hproducer j (by rw [hj]; nofun)
    rw [hturns j hne] at hj
    exact h.closing j e raised hj
  · rw [emitted_callSoon, emitted_setProducer] at he
    exact h.emitted e (by simpa [Callback.emitted?] using he)
  · refine h.settled (fun j hj => ?_) e he
    have hphase := hended j hj
    rw [turns_callSoon, turns_setProducer.2.1] at hphase
    exact hphase

theorem Alive.message (h : s.Alive i) (hitem : item.event? = none) :
    (s.callSoon (.put k item)).Alive i := by
  refine ⟨fun e he hrunning => ?_, h.announced, h.closing, fun e he => ?_, h.held, h.settled⟩
  · have hcommitted : (s.callSoon (.put k item)).committed i = s.committed i := by
      rw [committed, sent_callSoon]
      simp [Callback.event?, hitem, committed]
    exact h.live e (hcommitted ▸ he) hrunning
  · rw [emitted_callSoon] at he
    exact h.emitted e (by simpa [Callback.emitted?] using he)

theorem Paths.moves (h : s.Paths) (hbefore : (s.turns k).producer ≠ .done)
    (hafter : producer ≠ .done) : Paths ({ s with snapshot }.setProducer k producer) := by
  refine ⟨fun j hj => ?_, fun j => ?_⟩
  · rw [turns_setProducer.2.1]
    exact h.fresh j hj
  · have hcomplete := h.complete j
    rw [path_setProducer]
    by_cases hne : j = k
    · subst hne
      have hphase : (({ s with snapshot }.setProducer j producer).turns j).phase =
          (s.turns j).phase := turns_setProducer.2.1
      unfold Turn.Complete at hcomplete ⊢
      rw [hphase, producer_setProducer_self, if_neg hafter]
      rw [if_neg hbefore] at hcomplete
      -- only a turn whose producer is done has taken its sentinel
      cases hcase : (s.turns j).phase with
      | accepted | forwarding =>
        rw [hcase] at hcomplete
        exact hcomplete
      | awaiting | ended =>
        rw [hcase] at hcomplete
        exact absurd hcomplete.1 hbefore
    · rw [turns_setProducer_ne hne]
      exact hcomplete

theorem Paths.calls (h : s.Paths) (hproducer : (s.turns k).producer ≠ .done)
    (hitem : item ≠ .sentinel) : Paths (s.callSoon (.put k item)) := by
  refine ⟨h.fresh, fun j => ?_⟩
  have hcomplete := h.complete j
  rw [path_callSoon]
  by_cases hne : k = j
  · subst hne
    have hpath : (Callback.put k item).itemOf k = some item := if_pos rfl
    rw [hpath, Option.toList_some]
    unfold Turn.Complete at hcomplete ⊢
    rw [turns_callSoon, if_neg hproducer] at *
    cases hcase : (s.turns k).phase with
    | accepted | forwarding =>
      rw [hcase] at hcomplete
      simp only [List.mem_append, List.mem_singleton, not_or]
      exact ⟨hcomplete, Ne.symm hitem⟩
    | awaiting | ended =>
      rw [hcase] at hcomplete
      exact absurd hcomplete.1 hproducer
  · have hpath : (Callback.put k item).itemOf j = none := if_neg hne
    rw [hpath, Option.toList_none, List.append_nil]
    exact hcomplete

theorem Paths.submits (h : s.Paths) (hbefore : (s.turns k).producer ≠ .done)
    (hafter : producer ≠ .done) (hitem : item ≠ .sentinel) :
    Paths ((s.setProducer k producer).callSoon (.put k item)) := by
  have hmoved : Paths (s.setProducer k producer) := h.moves hbefore hafter
  apply hmoved.calls
  · rw [producer_setProducer_self]
    exact hafter
  · exact hitem

structure Sound (s : SyncState) (i : ℕ) : Prop where
  ordered : s.Ordered i
  alive : s.Alive i
  paths : s.Paths

theorem Ordered.committed_move (h : s.Ordered i) (hk : ∀ j < s.count, j ≠ k → s.way j = []) :
    s.committed k = s.committed i := by
  by_cases heq : i = k
  · rw [heq]
  · have hi := (way_nil ((h.move hk).alone i (.inl heq))).1
    have hk' := (way_nil (h.alone k (.inl (Ne.symm heq)))).1
    rw [committed, committed, sent, sent, hi, hk']

theorem Alive.move (h : s.Alive i) (hordered : s.Ordered i)
    (hk : ∀ j < s.count, j ≠ k → s.way j = []) : s.Alive k :=
  ⟨hordered.committed_move hk ▸ h.live, h.announced, h.closing, h.emitted, h.held, h.settled⟩

theorem hand_announcing (hway : s.way j = []) : (s.turns j).producer ≠ .announcing event := by
  intro hproducer
  have hhand := (way_nil hway).2
  rw [hand, hproducer] at hhand
  cases hhand

theorem Sound.silent (h : s.Sound i) (hcloses : ¬ (s.turns k).Closes)
    (hstreams : s.state? = some .running → ¬ (s.turns k).Streams)
    (hdone : (s.turns k).producer ≠ .done) (hevent : producer.event? = none)
    (hnot : producer ≠ .done) : (s.setProducer k producer).Sound i := by
  have hannounces : ∀ e, producer ≠ .announcing e := by
    rintro e rfl
    cases hevent
  have hends : ∀ e raised, producer ≠ .closing e raised := by
    rintro e raised rfl
    cases hevent
  refine ⟨h.ordered.quiet hevent, ?_, h.paths.moves hdone hnot⟩
  refine h.alive.moves (fun hgoing => ?_) (fun j e _ hj => (h.alive.announced j e hj).2)
    (fun e he => absurd he (hannounces e)) fun e raised he => absurd he (hends e raised)
  exact going_moves hgoing hcloses fun hrunning => ⟨hstreams hrunning, hrunning⟩

variable {raised appendFails failed : Bool}

theorem Sound.drops (h : s.Sound i) (hcloses : ¬ (s.turns k).Closes)
    (hstate : s.state? ≠ some .running) (hdone : (s.turns k).producer ≠ .done)
    (hseq : s.top ≤ event.seq) :
    ((s.remember event).setProducer k (.ended raised)).Sound i := by
  refine ⟨(h.ordered.remember hseq).quiet rfl, ?_, h.paths.moves hdone nofun⟩
  refine h.alive.moves (fun hgoing => ?_) (fun j e _ hj hheld => ?_) nofun nofun
  · exact going_moves hgoing hcloses fun hrunning => absurd hrunning hstate
  · exact absurd ((h.alive.announced j e hj).2 hheld) hstate

theorem Sound.opens (h : s.Sound i) (hcount : k < s.count)
    (hstarting : (s.turns k).producer = .starting)
    (hfits : appendFails = false → s.state? ≠ some .running → s.Alone k) :
    ∃ i, (s.opens k appendFails).Sound i := by
  have hcloses : ¬ (s.turns k).Closes := not_closes (by simp [hstarting])
  have hstreams : ¬ (s.turns k).Streams := by simp [Turn.Streams, hstarting]
  have hproducer : (s.turns k).producer ≠ .done := by simp [hstarting]
  unfold SyncState.opens
  rcases build_cases s .running with ⟨hstate, hbuild⟩ | ⟨hstate, hbuild⟩
  · rw [hbuild]
    refine ⟨i, h.ordered.quiet rfl, ?_, h.paths.moves hproducer (by rintro ⟨⟩)⟩
    exact h.alive.moves (fun hgoing => going_moves hgoing hcloses fun _ => ⟨hstreams, hstate⟩)
      (fun _ _ _ _ _ => hstate) (by rintro _ ⟨⟩) (by rintro _ _ ⟨⟩)
  · rw [hbuild]
    let event : StateEvent := ⟨.running, s.top + 1⟩
    have hgoing : ∀ producer, s.Going → Going ((s.remember event).setProducer k producer) :=
      fun producer hgoing => going_moves hgoing hcloses fun hrunning => absurd hrunning hstate
    cases appendFails with
    | true =>
      have hordered : (s.remember event).Ordered i := h.ordered.remember (Nat.le_succ _)
      refine ⟨i, hordered.quiet rfl, ?_, h.paths.moves hproducer (by rintro ⟨⟩)⟩
      exact h.alive.moves (hgoing _) (fun _ _ _ _ _ => rfl) (by rintro _ ⟨⟩) (by rintro _ _ ⟨⟩)
    | false =>
      -- the event is the first of this turn, and behind all that has been built
      have halone := hfits rfl hstate
      have hhand : s.hand k = [] := by
        rw [hand, hstarting]
        rfl
      refine ⟨k, h.ordered.speaks hcount halone hhand rfl rfl, ?_, h.paths.moves hproducer
        (by rintro ⟨⟩)⟩
      refine (h.alive.move h.ordered halone.2).moves (hgoing _) (fun _ _ _ _ _ => rfl)
        ?_ (by rintro _ _ ⟨⟩)
      rintro e ⟨⟩
      exact ⟨rfl, rfl⟩

theorem Sound.offers (h : s.Sound i) (hoffers : s.offers k = some s') (hcount : k < s.count) :
    ∃ i, s'.Sound i := by
  refine ⟨i, ?_⟩
  unfold SyncState.offers at hoffers
  split at hoffers
  next event hproducer =>
    have hdone : (s.turns k).producer ≠ .done := by simp [hproducer]
    have hcloses : ¬ (s.turns k).Closes := not_closes (by simp [hproducer])
    have hstreams : ¬ (s.turns k).Streams := by simp [Turn.Streams, hproducer]
    have hgiven : (s.turns k).producer.event? = some event := by rw [hproducer]; rfl
    obtain ⟨-, hstate⟩ := h.alive.announced k event hproducer
    split_ifs at hoffers with hcancelled
    · cases hoffers
      exact h.silent hcloses (fun _ => hstreams) hdone rfl nofun
    · cases hoffers
      have hnow : (((s.setProducer k (.streaming false)).callSoon
          (.put k (.stateChanged event))).turns k).Streams :=
        ⟨false, producer_setProducer_self⟩
      refine ⟨h.ordered.submits hgiven rfl, h.alive.submits rfl fun _ hheld => ?_, ?_⟩
      · exact .inl ⟨hstate hheld, k, hcount, hnow⟩
      · exact h.paths.submits hdone nofun nofun
  next event raised hproducer =>
    have hdone : (s.turns k).producer ≠ .done := by simp [hproducer]
    have hstreams : ¬ (s.turns k).Streams := by simp [Turn.Streams, hproducer]
    have hgiven : (s.turns k).producer.event? = some event := by rw [hproducer]; rfl
    have hrunning := h.alive.closing k event raised hproducer
    split_ifs at hoffers with hcancelled
    · cases hoffers
      have hcloses : ¬ (s.turns k).Closes := by
        rintro ⟨hnot, -⟩
        exact absurd hcancelled (Bool.not_eq_true _ ▸ hnot)
      exact h.silent hcloses (fun _ => hstreams) hdone rfl nofun
    · cases hoffers
      exact ⟨h.ordered.submits hgiven rfl, h.alive.submits rfl fun h => absurd h hrunning,
        h.paths.submits hdone nofun nofun⟩
  · cases hoffers

theorem Sound.yields (h : s.Sound i) {type : MessageType}
    (hstreaming : (s.turns k).producer = .streaming failed) (hcount : k < s.count)
    (hfits : (s.turns k).cancelled = true → s.state? ≠ some .running) :
    ∃ i, (s.yields k failed type).Sound i := by
  refine ⟨i, ?_⟩
  have hdone : (s.turns k).producer ≠ .done := by simp [hstreaming]
  have hcloses : ¬ (s.turns k).Closes := not_closes (by simp [hstreaming])
  unfold SyncState.yields
  dsimp only
  split_ifs with hcancelled
  · have hstate := hfits hcancelled
    have hbuilt := build_cases s (targetState (failed || type = .streamError))
    rcases hbuilt with ⟨-, hbuild⟩ | ⟨-, hbuild⟩
    · rw [hbuild]
      exact h.silent hcloses (fun hrunning => absurd hrunning hstate) hdone rfl nofun
    · rw [hbuild]
      exact h.drops hcloses hstate hdone (Nat.le_succ _)
  · have hgoing : s.Going →
        Going (s.setProducer k (.streaming (failed || type = .streamError))) := by
      rintro (⟨hrunning, -⟩ | hclosing)
      · exact .inl ⟨hrunning, k, hcount, _, producer_setProducer_self⟩
      · exact going_closes hclosing hcloses
    refine ⟨(h.ordered.quiet rfl).message rfl, ?_, ?_⟩
    · exact (h.alive.moves hgoing (fun j e _ hj => (h.alive.announced j e hj).2) nofun
        nofun).message rfl
    · exact h.paths.submits hdone nofun nofun

theorem targetState_ne_running : targetState failed ≠ .running := by
  cases failed <;> nofun

theorem Sound.ends (h : s.Sound i)
    (hstreaming : (s.turns k).producer = .streaming failed) (hcount : k < s.count)
    (hlost : appendFails = true ∨ (s.turns k).cancelled = true → s.state? ≠ some .running)
    (halone : appendFails = false → (s.turns k).producer.target? ≠ s.state? → s.Alone k) :
    ∃ i, (s.ends k failed appendFails raised).Sound i := by
  have hdone : (s.turns k).producer ≠ .done := by simp [hstreaming]
  have hcloses : ¬ (s.turns k).Closes := not_closes (by simp [hstreaming])
  unfold SyncState.ends
  rcases build_cases s (targetState failed) with ⟨hstate, hbuild⟩ | ⟨hstate, hbuild⟩
  · rw [hbuild]
    refine ⟨i, h.silent hcloses (fun hrunning => ?_) hdone rfl (by rintro ⟨⟩)⟩
    rw [hstate] at hrunning
    exact absurd (Option.some.inj hrunning) targetState_ne_running
  · rw [hbuild]
    cases appendFails with
    | true =>
      exact ⟨i, h.drops hcloses (hlost (.inl rfl)) hdone (Nat.le_succ _)⟩
    | false =>
      let event : StateEvent := ⟨targetState failed, s.top + 1⟩
      have halone := halone rfl (by
        rw [hstreaming]
        exact fun heq => hstate heq.symm)
      have hhand : s.hand k = [] := by
        rw [hand, hstreaming]
        rfl
      have hgoing : s.Going →
          Going ((s.remember event).setProducer k (.closing event raised)) := by
        rintro (⟨hrunning, -⟩ | hclosing)
        · -- the event that ends the turn is in its hand, and it has not been cancelled
          refine .inr ⟨k, hcount, ?_, event, raised, producer_setProducer_self⟩
          rw [turns_setProducer.2.2, turns_remember, ← Bool.not_eq_true]
          exact fun hcancelled => hlost (.inr hcancelled) hrunning
        · exact going_closes hclosing hcloses
      refine ⟨k, h.ordered.speaks hcount halone hhand rfl rfl, ?_, h.paths.moves hdone
        (by rintro ⟨⟩)⟩
      have hk := h.ordered.move halone.2
      refine (h.alive.move h.ordered halone.2).moves hgoing ?_ (by rintro _ ⟨⟩) ?_
      · intro j e hj hannouncing
        exact absurd hannouncing (hand_announcing (hk.alone j (.inl hj)))
      · rintro e raised' ⟨⟩
        exact targetState_ne_running

theorem Alive.delivers (h : s.Alive i) (hsent : s'.sent i = s.sent i)
    (hheld : s'.allHeld = s.allHeld) (hsnapshot : s'.snapshot = s.snapshot)
    (hcount : s'.count = s.count) (hturns : ∀ j, (s'.turns j).producer = (s.turns j).producer ∧
      (s'.turns j).cancelled = (s.turns j).cancelled) (hemitted : s'.emitted ⊆ s.emitted)
    (hsettled : s'.AllEnded → ∀ e, s'.outbound.getLast? = some e → e.state ≠ .running) :
    s'.Alive i := by
  have hstate : s'.state? = s.state? := congrArg (Option.map StateEvent.state) hsnapshot
  refine ⟨fun e he hrunning => ?_, fun j e hj => ?_, fun j e raised hj => ?_,
    fun e he => h.emitted e (hemitted he), fun e he => h.held e (hheld ▸ he), hsettled⟩
  · rw [committed, hsent, hheld] at he
    rcases h.live e he hrunning with ⟨hnow, j, hj, failed, hstreams⟩ | ⟨j, hj, hnot, hclosing⟩
    · exact .inl ⟨hstate.trans hnow, j, hcount ▸ hj, failed, (hturns j).1.trans hstreams⟩
    · refine .inr ⟨j, hcount ▸ hj, (hturns j).2.trans hnot, ?_⟩
      rw [(hturns j).1]
      exact hclosing
  · rw [(hturns j).1] at hj
    rw [hheld, hstate]
    exact h.announced j e hj
  · rw [(hturns j).1] at hj
    exact h.closing j e raised hj

theorem setTurn_cases {P : Turn → Turn → Prop} (hk : P t (s.turns k)) (hrefl : ∀ t, P t t) (j : ℕ) :
    P ((s.setTurn k t).turns j) (s.turns j) := by
  by_cases hj : j = k
  · rw [hj, turns_setTurn_self]
    exact hk
  · rw [turns_setTurn_ne hj]
    exact hrefl _

theorem Paths.turn (h : s.Paths) (hcount : k < s.count)
    (hcomplete : t.Complete (t.queue ++ s.callbacks.filterMap (Callback.itemOf k))) :
    (s.setTurn k t).Paths := by
  refine ⟨fun j hj => ?_, fun j => ?_⟩
  · have hne : j ≠ k := by
      rintro rfl
      exact Nat.not_le_of_lt hcount hj
    rw [turns_setTurn_ne hne]
    exact h.fresh j hj
  · by_cases hne : j = k
    · subst hne
      rw [path, turns_setTurn_self]
      exact hcomplete
    · rw [path, turns_setTurn_ne hne]
      exact h.complete j

theorem Sound.pool (h : s.Sound i) (inflight : Bool) (cancelEvent : Option ℕ) :
    Sound { s with inflight, cancelEvent } i where
  ordered := ⟨h.ordered.alone, h.ordered.sorted, h.ordered.bounded, h.ordered.first,
    h.ordered.single⟩
  alive := ⟨h.alive.live, h.alive.announced, h.alive.closing, h.alive.emitted, h.alive.held,
    h.alive.settled⟩
  paths := ⟨h.paths.fresh, h.paths.complete⟩

theorem not_allEnded (hcount : k < s.count) (hphase : (s.turns k).phase ≠ .ended) :
    ¬ s.AllEnded := fun h => hphase (h k hcount)

theorem Sound.turn (h : s.Sound i) (hcount : k < s.count) (hqueue : events t.queue = s.queued k)
    (hproducer : t.producer = (s.turns k).producer)
    (hcancelled : t.cancelled = (s.turns k).cancelled) (hphase : t.phase ≠ .ended)
    (hcomplete : t.Complete (t.queue ++ s.callbacks.filterMap (Callback.itemOf k))) :
    (s.setTurn k t).Sound i := by
  refine ⟨h.ordered.turn hqueue hproducer, ?_, h.paths.turn hcount hcomplete⟩
  have hqueued : (s.setTurn k t).queued i = s.queued i := by
    by_cases hi : i = k
    · rw [hi, queued, turns_setTurn_self, hqueue]
    · rw [queued, turns_setTurn_ne hi, queued]
  have hsent : (s.setTurn k t).sent i = s.sent i := by
    rw [sent, hqueued]
    rfl
  have hturns := setTurn_cases (s := s) (P := fun t' t =>
    t'.producer = t.producer ∧ t'.cancelled = t.cancelled) ⟨hproducer, hcancelled⟩
    fun _ => ⟨rfl, rfl⟩
  refine h.alive.delivers hsent rfl rfl rfl hturns (List.Subset.refl _) fun hended => ?_
  refine absurd hended (not_allEnded (k := k) hcount ?_)
  rw [turns_setTurn_self]
  exact hphase

theorem path_of_queue {queue : List QueueItem} (hqueue : (s.turns k).queue = item :: queue) :
    s.path k = item :: (queue ++ s.callbacks.filterMap (Callback.itemOf k)) := by
  rw [path, hqueue]
  rfl

theorem Sound.takes (h : s.Sound i) (hcount : k < s.count)
    (hphase : (s.turns k).phase = .forwarding) (htakes : s.takes k = some s') :
    ∃ i, s'.Sound i := by
  refine ⟨i, ?_⟩
  have hcomplete := h.paths.complete k
  have hnot : TaskPhase.forwarding ≠ .ended := by rintro ⟨⟩
  unfold SyncState.takes at htakes
  split at htakes
  · cases htakes
  next event queue hqueue =>
    cases htakes
    rw [path_of_queue hqueue] at hcomplete
    have hturns := setTurn_cases (s := s) (k := k) (t := { s.turns k with queue })
      (P := fun t' t => t'.producer = t.producer ∧ t'.cancelled = t.cancelled) ⟨rfl, rfl⟩
      fun _ => ⟨rfl, rfl⟩
    -- only the connection's queue has changed
    refine ⟨h.ordered.takes hqueue, ?_, ?_⟩
    · refine h.alive.delivers (h.ordered.sent_takes hqueue) rfl rfl rfl hturns
        (List.Subset.refl _) fun hended => ?_
      have hk := hended k hcount
      rw [deliver, turns_setTurn_self, hphase] at hk
      cases hk
    · have hpaths : (s.setTurn k { s.turns k with queue }).Paths :=
        h.paths.turn hcount (hcomplete.takes hphase (by rintro ⟨⟩))
      exact ⟨hpaths.fresh, hpaths.complete⟩
  next type queue hqueue =>
    cases htakes
    rw [path_of_queue hqueue] at hcomplete
    have hqueued : events queue = s.queued k := by
      rw [queued, hqueue]
      rfl
    have hsound := h.turn (t := { s.turns k with queue }) hcount hqueued rfl rfl (hphase ▸ hnot)
      (hcomplete.takes hphase (by rintro ⟨⟩))
    exact hsound.pool _ _
  next queue hqueue =>
    cases htakes
    rw [path_of_queue hqueue] at hcomplete
    have hqueued : events queue = s.queued k := by
      rw [queued, hqueue]
      rfl
    have hsound := h.turn (t := { s.turns k with queue, phase := .awaiting }) hcount hqueued rfl rfl
      (fun h => by cases h) (hcomplete.sentinel hphase)
    exact hsound.pool _ _

theorem Sound.closes (h : s.Sound i)
    (hended : (s.turns k).producer = .ended raised) : ∃ i, (s.closes k raised).Sound i := by
  refine ⟨i, ?_⟩
  have hcloses : ∀ s' : SyncState, s'.Sound i → (s'.turns k).producer = .ended raised →
      ((s'.setProducer k .done).callSoon (.put k .sentinel)).Sound i := by
    intro s' h hended
    have hclosing : ¬ (s'.turns k).Closes := not_closes (by simp [hended])
    have hstreams : ¬ (s'.turns k).Streams := by simp [Turn.Streams, hended]
    refine ⟨(h.ordered.quiet rfl).message rfl, ?_, ⟨fun j hj => ?_, fun j => ?_⟩⟩
    · have hmoved : (s'.setProducer k .done).Alive i :=
        h.alive.moves (fun hgoing => going_moves hgoing hclosing fun hrunning =>
          ⟨hstreams, hrunning⟩) (fun j e _ hj => (h.alive.announced j e hj).2) nofun nofun
      exact hmoved.message rfl
    · rw [turns_callSoon, turns_setProducer.2.1]
      exact h.paths.fresh j hj
    · have hcomplete := h.paths.complete j
      rw [path_callSoon, path_setProducer]
      by_cases hne : k = j
      · subst hne
        have hitem : (Callback.put k .sentinel).itemOf k = some .sentinel := if_pos rfl
        unfold Turn.Complete at hcomplete ⊢
        rw [hended, if_neg nofun] at hcomplete
        rw [turns_callSoon, turns_setProducer.2.1, producer_setProducer_self, if_pos rfl, hitem]
        cases hphase : (s'.turns k).phase with
        | accepted | forwarding =>
          rw [hphase] at hcomplete
          exact ⟨_, rfl, hcomplete⟩
        | awaiting | ended =>
          rw [hphase] at hcomplete
          exact nomatch hcomplete.1
      · have hitem : (Callback.put k .sentinel).itemOf j = none := if_neg hne
        rw [hitem, Option.toList_none, List.append_nil, turns_callSoon,
          turns_setProducer_ne (Ne.symm hne)]
        exact hcomplete
  cases raised with
  | false => exact hcloses s h hended
  | true =>
    have hdone : (s.turns k).producer ≠ .done := by simp [hended]
    exact hcloses _ ⟨h.ordered.message rfl, h.alive.message rfl, h.paths.calls hdone nofun⟩ hended

end SyncState

end StateSync

end WittyService
