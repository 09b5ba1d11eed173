import Mathlib.Order.Nat
import WittyService.StateSync

/-! State events arrive in the order of their numbers in the runs in which no event overtakes
another: a turn builds one only when no other turn's and no abort's is on its way, and an abort
emits its own only when none of a turn is. -/
namespace WittyService

namespace StateSync

namespace SyncState

/-- Only turn `k` has events on their way, and no abort has. -/
def Alone (s : SyncState) (k : ℕ) : Prop :=
  s.allHeld = [] ∧ ∀ j < s.count, j ≠ k → s.way j = []

def Free (s : SyncState) : Prop := ∀ j < s.count, s.way j = []

/-- Only turn `i` may have events on their way, and all events on their way are in order. -/
structure Ordered (s : SyncState) (i : ℕ) : Prop where
  alone : ∀ j, j ≠ i ∨ s.count ≤ j → s.way j = []
  sorted : (s.line i).Pairwise fun a b => a.seq < b.seq
  bounded : ∀ e ∈ s.line i, e.seq ≤ s.top
  /-- What has been emitted is not behind an event of a turn. -/
  first : ∀ a ∈ s.emitted, ∀ b ∈ s.way i, a.seq < b.seq
  single : s.allHeld.length ≤ 1

variable {s s' : SyncState} {i j k : ℕ} {t : Turn} {producer : Producer} {item : QueueItem}
  {event : StateEvent}

theorem events_append (items rest : List QueueItem) :
    events (items ++ rest) = events items ++ events rest := List.filterMap_append ..

theorem way_eq : s.way i =
    s.queued i ++ events (s.callbacks.filterMap (Callback.itemOf i)) ++ s.hand i := by
  rw [way, path, events_append, queued]

theorem queued_subset_way : s.queued i ⊆ s.way i := by
  intro e he
  rw [way_eq]
  exact List.mem_append_left _ (List.mem_append_left _ he)

theorem way_nil (h : s.way i = []) : s.queued i = [] ∧ s.hand i = [] := by
  rw [way_eq, List.append_eq_nil_iff, List.append_eq_nil_iff] at h
  exact ⟨h.1.1, h.2⟩

theorem emitted_subset_called : s.emitted ⊆ s.called := by
  intro e he
  obtain ⟨callback, hcallback, hevent⟩ := List.mem_filterMap.mp he
  refine List.mem_filterMap.mpr ⟨callback, hcallback, ?_⟩
  cases callback with
  | put => cases hevent
  | emit => exact hevent

theorem emitted_subset_line : s.emitted ⊆ s.line i := by
  intro e he
  simp only [line, sent, List.mem_append]
  exact .inl (.inl (.inr (emitted_subset_called he)))

namespace Ordered

section

variable (h : s.Ordered i)
include h

theorem owner (hway : event ∈ s.way k) : k = i := by
  by_contra hne
  rw [h.alone k (.inl hne)] at hway
  cases hway

theorem move (hk : ∀ j < s.count, j ≠ k → s.way j = []) : s.Ordered k := by
  have halone : ∀ j, j ≠ k ∨ s.count ≤ j → s.way j = [] := by
    intro j hj
    by_cases hcount : s.count ≤ j
    · exact h.alone j (.inr hcount)
    · exact hk j (Nat.lt_of_not_le hcount) (hj.resolve_right hcount)
  by_cases heq : i = k
  · exact heq ▸ h
  -- neither turn has an event on its way, so that their lines are the same
  · obtain ⟨hqueued, hhand⟩ := way_nil (halone i (.inl heq))
    have hway : s.way k = [] := h.alone k (.inl (Ne.symm heq))
    obtain ⟨hqueued', hhand'⟩ := way_nil hway
    have hline : s.line k = s.line i := by
      rw [line, line, sent, sent, hqueued, hhand, hqueued', hhand']
    refine ⟨halone, hline ▸ h.sorted, hline ▸ h.bounded, fun a _ b hb => ?_, h.single⟩
    rw [hway] at hb
    cases hb

theorem way_free (hfree : s.Free) (j : ℕ) : s.way j = [] := by
  by_cases hcount : s.count ≤ j
  · exact h.alone j (.inr hcount)
  · exact hfree j (Nat.lt_of_not_le hcount)

theorem concat (hseq : event.seq = s.top + 1) :
    (s.line i ++ [event]).Pairwise (fun a b => a.seq < b.seq) ∧
      ∀ e ∈ s.line i ++ [event], e.seq ≤ event.seq := by
  constructor
  · rw [List.pairwise_append]
    refine ⟨h.sorted, List.pairwise_singleton _ _, fun a ha b hb => ?_⟩
    rw [List.mem_singleton.mp hb, hseq]
    exact Nat.lt_succ_of_le (h.bounded a ha)
  · intro e he
    rcases List.mem_append.mp he with he | he
    · rw [hseq]
      exact (h.bounded e he).trans (Nat.le_succ _)
    · rw [List.mem_singleton.mp he]

theorem sublist (hline : (s'.line i).Sublist (s.line i))
    (hway : ∀ j, s'.way j ⊆ s.way j) (hemitted : s'.emitted ⊆ s.emitted)
    (hheld : s'.allHeld.length ≤ s.allHeld.length) (htop : s.top ≤ s'.top)
    (hcount : s.count ≤ s'.count) : s'.Ordered i where
  alone j hj := List.subset_nil.mp (h.alone j (hj.imp_right hcount.trans) ▸ hway j)
  sorted := h.sorted.sublist hline
  bounded e he := (h.bounded e (hline.subset he)).trans htop
  first a ha b hb := h.first a (hemitted ha) b (hway i hb)
  single := hheld.trans h.single

theorem same (hline : s'.line i = s.line i) (hway : ∀ j, s'.way j = s.way j)
    (hemitted : s'.emitted = s.emitted) (hheld : s'.allHeld = s.allHeld)
    (htop : s.top ≤ s'.top) (hcount : s.count ≤ s'.count) : s'.Ordered i := by
  refine h.sublist ?_ (fun j => ?_) ?_ ?_ htop hcount
  · rw [hline]
  · rw [hway j]
    exact List.Subset.refl _
  · rw [hemitted]
    exact List.Subset.refl _
  · rw [hheld]

theorem remember (hseq : s.top ≤ event.seq) : (s.remember event).Ordered i :=
  ⟨h.alone, h.sorted, fun e he => (h.bounded e he).trans hseq, h.first, h.single⟩

theorem quiet (hevent : producer.event? = none) :
    (s.setProducer k producer).Ordered i := by
  have hhand : ∀ j, ((s.setProducer k producer).hand j).Sublist (s.hand j) := by
    intro j
    by_cases hj : j = k
    · rw [hj, hand_setProducer_self, hevent]
      exact List.nil_sublist _
    · rw [hand_setProducer_ne hj]
  refine h.sublist ?_ (fun j => ?_) (List.Subset.refl _) le_rfl le_rfl le_rfl
  · simp only [line, sent_setProducer, allHeld_setProducer]
    exact ((List.Sublist.refl _).append (hhand i)).append (List.Sublist.refl _)
  · rw [way, way, path_setProducer]
    exact ((List.Sublist.refl _).append (hhand j)).subset

theorem speaks (hcount : k < s.count) (halone : s.Alone k)
    (hnone : s.hand k = []) (hseq : event.seq = s.top + 1)
    (hevent : producer.event? = some event) :
    ((s.remember event).setProducer k producer).Ordered k := by
  obtain ⟨hheld, halone⟩ := halone
  have hk := h.move halone
  have hline : ((s.remember event).setProducer k producer).line k = s.line k ++ [event] := by
    have hhand : ((s.remember event).setProducer k producer).hand k = [event] := by
      rw [hand_setProducer_self, hevent, Option.toList_some]
    have hheld' : (s.remember event).allHeld = [] := hheld
    rw [line, line, hhand, sent_setProducer, allHeld_setProducer, hheld', hnone, hheld,
      List.append_nil, List.append_nil, List.append_nil]
    rfl
  obtain ⟨hsorted, hbounded⟩ := hk.concat hseq
  refine ⟨fun j hj => ?_, hline ▸ hsorted, hline ▸ hbounded, fun a ha b hb => ?_, hk.single⟩
  · have hne : j ≠ k := hj.elim id fun hj heq => Nat.not_le_of_lt hcount (heq ▸ hj)
    rw [way_setProducer_ne hne]
    exact hk.alone j (.inl hne)
  · rw [way_setProducer_self, hevent] at hb
    rcases List.mem_append.mp hb with hb | hb
    · exact hk.first a ha b (List.mem_append_left _ hb)
    · rw [List.mem_singleton.mp hb, hseq]
      exact Nat.lt_succ_of_le (hk.bounded a (emitted_subset_line ha))

theorem submits (hgiven : (s.turns k).producer.event? = some event)
    (hevent : producer.event? = none) :
    ((s.setProducer k producer).callSoon (.put k (.stateChanged event))).Ordered i := by
  have hhand : s.hand k = [event] := by rw [hand, hgiven, Option.toList_some]
  have hmem : event ∈ s.way k := by
    rw [way, hhand]
    exact List.mem_append_right _ List.mem_cons_self
  obtain rfl : k = i := h.owner hmem
  have hnone : (s.setProducer k producer).hand k = [] := by
    rw [hand_setProducer_self, hevent, Option.toList_none]
  refine h.same ?_ (fun j => ?_) ?_ rfl le_rfl le_rfl
  · rw [line, line, sent_callSoon, hand_callSoon, allHeld_callSoon, hnone, sent_setProducer, hhand,
      allHeld_setProducer, List.append_nil]
    rfl
  · by_cases hj : j = k
    · rw [hj, way, way, path_callSoon, hand_callSoon, hnone, hhand, path_setProducer, events_append]
      simp [Callback.itemOf, events, QueueItem.event?]
    · rw [way, way, path_callSoon, hand_callSoon, hand_setProducer_ne hj, path_setProducer]
      simp [Callback.itemOf, Ne.symm hj]
  · rw [emitted_callSoon, emitted_setProducer]
    exact List.append_nil _

theorem message (hitem : item.event? = none) :
    (s.callSoon (.put k item)).Ordered i := by
  refine h.same ?_ (fun j => ?_) ?_ rfl le_rfl le_rfl
  · rw [line, line, sent_callSoon, hand_callSoon, allHeld_callSoon]
    simp [Callback.event?, hitem]
  · rw [way, way, path_callSoon, hand_callSoon, events_append]
    by_cases hj : k = j
    · simp [Callback.itemOf, hj, events, hitem]
    · simp [Callback.itemOf, hj, events]
  · rw [emitted_callSoon]
    exact List.append_nil _

theorem turn (hqueue : events t.queue = s.queued k)
    (hproducer : t.producer = (s.turns k).producer) : (s.setTurn k t).Ordered i := by
  have hqueued : ∀ j, (s.setTurn k t).queued j = s.queued j := by
    intro j
    by_cases hj : j = k
    · rw [hj, queued, turns_setTurn_self, hqueue]
    · rw [queued, turns_setTurn_ne hj, queued]
  have hhand : ∀ j, (s.setTurn k t).hand j = s.hand j := by
    intro j
    by_cases hj : j = k
    · rw [hj, hand, turns_setTurn_self, hproducer, hand]
    · rw [hand, turns_setTurn_ne hj, hand]
  refine h.same ?_ (fun j => ?_) rfl rfl le_rfl le_rfl
  · rw [line, line, sent, sent, hqueued, hhand]
    rfl
  · rw [way_eq, way_eq, hqueued, hhand]
    rfl

end

section

variable {callbacks : List Callback}

theorem path_put (hcallbacks : s.callbacks = .put k item :: callbacks) (j : ℕ) :
    ({ s with callbacks }.putItem k item).path j = s.path j := by
  have hrest : ({ s with callbacks }.putItem k item).callbacks = callbacks := rfl
  rw [path, path, hrest, hcallbacks, putItem]
  by_cases hj : j = k
  · subst hj
    rw [turns_setTurn_self]
    simp [Callback.itemOf]
  · rw [turns_setTurn_ne hj]
    simp [Callback.itemOf, Ne.symm hj]

theorem hand_put (j : ℕ) : ({ s with callbacks }.putItem k item).hand j = s.hand j := by
  rw [hand, putItem]
  by_cases hj : j = k
  · rw [hj, turns_setTurn_self, hand]
  · rw [turns_setTurn_ne hj, hand]

theorem sent_put (h : s.Ordered i) (hcallbacks : s.callbacks = .put k item :: callbacks) :
    ({ s with callbacks }.putItem k item).sent i = s.sent i := by
  let next : SyncState := { s with callbacks }.putItem k item
  have hcalled : s.called = item.event?.toList ++ next.called := by
    rw [called, called, hcallbacks]
    cases hitem : item.event? <;> simp [Callback.event?, hitem, next, putItem, setTurn]
  have hqueued : next.queued i ++ next.called = s.queued i ++ s.called := by
    by_cases hk : i = k
    · subst hk
      have hqueue : next.queued i = s.queued i ++ item.event?.toList := by
        simp only [next, queued, putItem, turns_setTurn_self, events_append]
        cases hitem : item.event? <;> simp [events, hitem]
      rw [hqueue, hcalled, List.append_assoc]
    · -- the item of another turn is no state event
      have hnone : item.event? = none := by
        cases hitem : item.event? with
        | none => rfl
        | some event =>
          have hmem : event ∈ s.way k := by
            refine List.mem_append_left _ (List.mem_filterMap.mpr ⟨item, ?_, hitem⟩)
            rw [path, hcallbacks]
            simp [Callback.itemOf]
          exact absurd (h.owner hmem).symm hk
      have hqueue : next.queued i = s.queued i := by
        simp only [next, queued, putItem, turns_setTurn_ne hk]
      rw [hqueue, hcalled, hnone, Option.toList_none, List.nil_append]
  rw [sent, sent, List.append_assoc, hqueued, ← List.append_assoc]
  rfl

theorem put (h : s.Ordered i) (hcallbacks : s.callbacks = .put k item :: callbacks) :
    ({ s with callbacks }.putItem k item).Ordered i := by
  refine h.same ?_ (fun j => ?_) ?_ rfl le_rfl le_rfl
  · rw [line, line, h.sent_put hcallbacks, hand_put]
    rfl
  · rw [way, path_put hcallbacks, hand_put, way]
  · rw [emitted, emitted, hcallbacks]
    rfl

section

variable (h : s.Ordered i) (hcallbacks : s.callbacks = .emit event :: callbacks)
include h hcallbacks

theorem queued_emit :
    s.queued i = [] := by
  have hcalled : event ∈ s.called := by
    rw [called, hcallbacks]
    exact List.mem_cons_self
  have hemitted : event ∈ s.emitted := by
    rw [emitted, hcallbacks]
    exact List.mem_cons_self
  apply List.eq_nil_iff_forall_not_mem.mpr
  intro b hb
  have hbehind : event.seq < b.seq := h.first event hemitted b (queued_subset_way hb)
  have hbefore : b.seq < event.seq := by
    have hsorted := h.sorted
    simp only [line, sent, List.pairwise_append] at hsorted
    exact hsorted.1.1.2.2 b (List.mem_append_right _ hb) event hcalled
  exact absurd hbefore (Nat.lt_asymm hbehind)

theorem sent_emit :
    ({ s with callbacks }.deliver event).sent i = s.sent i := by
  have hqueued : ({ s with callbacks }.deliver event).queued i = [] := h.queued_emit hcallbacks
  have hcalled : s.called = event :: ({ s with callbacks }.deliver event).called := by
    rw [called, hcallbacks]
    rfl
  have hout : ({ s with callbacks }.deliver event).outbound = s.outbound ++ [event] := rfl
  rw [sent, sent, hqueued, h.queued_emit hcallbacks, hcalled, hout]
  simp

theorem emit :
    ({ s with callbacks }.deliver event).Ordered i := by
  refine h.sublist ?_ (fun j => ?_) ?_ le_rfl le_rfl le_rfl
  · rw [line, h.sent_emit hcallbacks]
    exact List.Sublist.refl _
  · have hpath : ({ s with callbacks }.deliver event).path j = s.path j := by
      rw [path, path, hcallbacks]
      rfl
    rw [way, hpath]
    exact List.Subset.refl _
  · have hemitted : s.emitted = event :: ({ s with callbacks }.deliver event).emitted := by
      rw [emitted, hcallbacks]
      rfl
    rw [hemitted]
    exact List.subset_cons_self _ _

end

end

section

variable {queue : List QueueItem}

section

variable (h : s.Ordered i) (hqueue : (s.turns k).queue = .stateChanged event :: queue)
include h hqueue

theorem owner_takes :
    k = i := by
  have hqueued : event ∈ s.queued k := by
    rw [queued, hqueue]
    exact List.mem_cons_self
  exact h.owner (queued_subset_way hqueued)

theorem sent_takes :
    ((s.setTurn k { s.turns k with queue }).deliver event).sent i = s.sent i := by
  obtain rfl := h.owner_takes hqueue
  let next : SyncState := (s.setTurn k { s.turns k with queue }).deliver event
  have hself : next.turns k = { s.turns k with queue } := turns_setTurn_self
  have hqueued : next.queued k = events queue := by rw [queued, hself]
  have hqueued' : s.queued k = event :: events queue := by
    rw [queued, hqueue]
    rfl
  have hout : next.outbound = s.outbound ++ [event] := rfl
  rw [sent, sent, hqueued, hqueued', hout]
  simp only [List.append_assoc, List.cons_append, List.nil_append]
  rfl

theorem takes :
    ((s.setTurn k { s.turns k with queue }).deliver event).Ordered i := by
  let next : SyncState := (s.setTurn k { s.turns k with queue }).deliver event
  have hself : next.turns k = { s.turns k with queue } := turns_setTurn_self
  have hother : ∀ j, j ≠ k → next.turns j = s.turns j := fun j hj => turns_setTurn_ne hj
  have hhand : ∀ j, next.hand j = s.hand j := by
    intro j
    by_cases hj : j = k
    · rw [hj, hand, hself, hand]
    · rw [hand, hother j hj, hand]
  refine h.sublist ?_ (fun j => ?_) (List.Subset.refl _) le_rfl le_rfl le_rfl
  · rw [line, h.sent_takes hqueue, hhand]
    exact List.Sublist.refl _
  · by_cases hj : j = k
    · subst hj
      have hway : s.way j = event :: next.way j := by
        rw [way, way, path, path, hself, hqueue, hhand]
        rfl
      rw [hway]
      exact List.subset_cons_self _ _
    · have hway : next.way j = s.way j := by
        rw [way, way, path, path, hhand, hother j hj]
        rfl
      exact hway ▸ List.Subset.refl _

end

end

theorem holds (h : s.Ordered i) (hturns : s'.turns = s.turns)
    (hcallbacks : s'.callbacks = s.callbacks) (hout : s'.outbound = s.outbound)
    (hheld : s.allHeld = []) (hheld' : s'.allHeld = [event]) (hseq : event.seq = s.top + 1)
    (htop : s'.top = event.seq) (hcount : s'.count = s.count) : s'.Ordered i := by
  have hline : s'.line i = s.line i ++ [event] := by
    rw [line, line, sent, sent, hheld, hheld', hout, queued, queued, hand, hand, hturns, called,
      called, hcallbacks, List.append_nil]
  have hway : ∀ j, s'.way j = s.way j := by
    intro j
    rw [way, way, path, path, hand, hand, hturns, hcallbacks]
  obtain ⟨hsorted, hbounded⟩ := h.concat hseq
  refine ⟨fun j hj => (hway j).trans (h.alone j (hcount ▸ hj)), hline ▸ hsorted, fun e he => ?_,
    fun a ha b hb => ?_, ?_⟩
  · rw [htop]
    exact hbounded e (hline ▸ he)
  · rw [hway] at hb
    rw [emitted, hcallbacks] at ha
    exact h.first a ha b hb
  · rw [hheld', List.length_singleton]

theorem path_emit (hturns : s'.turns = s.turns)
    (hcallbacks : s'.callbacks = s.callbacks ++ [.emit event]) (j : ℕ) : s'.path j = s.path j := by
  rw [path, path, hturns, hcallbacks, List.filterMap_append]
  exact congrArg _ (List.append_nil _)

theorem emits (h : s.Ordered i) (hturns : s'.turns = s.turns)
    (hcallbacks : s'.callbacks = s.callbacks ++ [.emit event]) (hout : s'.outbound = s.outbound)
    (hheld : s.allHeld = [event]) (hheld' : s'.allHeld = []) (hfree : s.Free)
    (htop : s'.top = s.top) : s'.Ordered i := by
  have hnone := h.way_free hfree
  obtain ⟨hqueued, hhand⟩ := way_nil (hnone i)
  have hqueued' : s'.queued i = [] := by rw [queued, hturns, ← queued, hqueued]
  have hhand' : s'.hand i = [] := by rw [hand, hturns, ← hand, hhand]
  have hcalled : s'.called = s.called ++ [event] := by
    rw [called, called, hcallbacks, List.filterMap_append]
    rfl
  have hline : s'.line i = s.line i := by
    rw [line, line, sent, sent, hheld, hheld', hqueued, hqueued', hhand, hhand', hcalled, hout]
    simp
  have hway : ∀ j, s'.way j = [] := by
    intro j
    rw [way, path_emit hturns hcallbacks, hand, hturns]
    exact hnone j
  refine ⟨fun j _ => hway j, hline ▸ h.sorted, fun e he => ?_, fun a _ b hb => ?_, ?_⟩
  · rw [htop]
    exact h.bounded e (hline ▸ he)
  · rw [hway] at hb
    cases hb
  · rw [hheld']
    exact Nat.zero_le _

end Ordered

end SyncState

end StateSync

end WittyService
