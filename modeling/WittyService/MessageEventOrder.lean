import WittyService.GuardedRuns
import WittyService.MessageEvents

/-! The turns of one session writing their events. Each assistant message is written by
one turn, which numbers its events from 1 and hands them to the repository in batches;
`compact` and `delete` may come in between for any message. -/
namespace WittyService

/-- The locals of `consume_ws` that number and buffer events. -/
structure TurnBuffer where
  seqNo : Nat
  pendingEvents : List PendingEvent
  deriving Repr

/-- `expected` is no data of the program: it lists, for each message, what a faithful
record of its turn would hold. -/
structure SessionHistory where
  messages : List Nat
  rows : List EventRow
  turns : Nat → TurnBuffer
  expected : Nat → List (Nat × StreamEvent)

def SessionHistory.empty : SessionHistory :=
  ⟨[], [], fun _ => ⟨0, []⟩, fun _ => []⟩

inductive HistoryAction where
  | createMessage (m : Nat)
  | receive (m : Nat) (e : StreamEvent)
  | flush (m : Nat)
  | compact (m : Nat)
  | delete (m : Nat)
  deriving Repr

/-- `flush_events`: a batch the repository refuses is logged and lost. -/
def flushEvents (s : SessionHistory) (m : Nat) : SessionHistory :=
  let batch := (s.turns m).pendingEvents
  { s with
    rows := match createMessageEventsBulk s.messages s.rows m batch with
      | .ok rows => rows
      | .error _ => s.rows
    turns := Function.update s.turns m ⟨(s.turns m).seqNo, []⟩
    expected := if m ∈ s.messages then
        Function.update s.expected m
          (s.expected m ++ batch.map fun e => (e.received, e.event))
      else s.expected }

def historyStep (s : SessionHistory) : HistoryAction → Option SessionHistory
  | .createMessage m =>
    if m ∈ s.messages then none else some { s with messages := m :: s.messages }
  | .receive m e =>
    let n := (s.turns m).seqNo + 1
    let buffer : TurnBuffer := ⟨n, (s.turns m).pendingEvents ++ [⟨n, n, e⟩]⟩
    some { s with turns := Function.update s.turns m buffer }
  | .flush m => some (flushEvents s m)
  | .compact m => some { s with
      rows := compactMessageDeltaEvents s.rows m
      expected := Function.update s.expected m (compactRows (s.expected m)) }
  | .delete m => some { s with
      messages := s.messages.filter (· ≠ m)
      rows := deleteMessageEvents s.rows m
      expected := Function.update s.expected m [] }

/-- Every message reads back as its turn received it. -/
def EventsInOrder (s : SessionHistory) : Prop :=
  ∀ m, storedEvents s.rows m = s.expected m

/-- A batch of an existing message either collides with a number the session already
stores, or starts above every number its own message already stores. -/
def BatchFits (s : SessionHistory) : HistoryAction → Prop
  | .flush m => m ∈ s.messages →
      seqConflict s.rows (s.turns m).pendingEvents = true ∨
        ∀ r ∈ s.rows, r.1.messageId = m → ∀ e ∈ (s.turns m).pendingEvents, r.1.seqNo < e.seqNo
  | _ => True

/-- What holds whether or not the events are in order: stored numbers are distinct, and a
turn has counted every event it recorded or still buffers, in increasing order. -/
structure Numbered (s : SessionHistory) : Prop where
  distinct : NumbersDistinct s.rows
  ascending : ∀ m, ((s.expected m).map Prod.fst ++
    (s.turns m).pendingEvents.map PendingEvent.received).Pairwise (· < ·)
  counted : ∀ m, ∀ n ∈ (s.expected m).map Prod.fst ++
    (s.turns m).pendingEvents.map PendingEvent.received, n ≤ (s.turns m).seqNo
  ownNumber : ∀ m, ∀ e ∈ (s.turns m).pendingEvents, e.seqNo = e.received

theorem numbered_empty : Numbered SessionHistory.empty := by
  constructor <;> simp [SessionHistory.empty, NumbersDistinct]

theorem events_in_order_empty : EventsInOrder SessionHistory.empty := fun _ => rfl

theorem pending_ascending {s : SessionHistory} (h : Numbered s) (m : Nat) :
    (s.turns m).pendingEvents.Pairwise fun a b => a.seqNo < b.seqNo := by
  have hp := List.pairwise_map.mp (List.pairwise_append.mp (h.ascending m)).2.1
  refine hp.imp_of_mem fun {a b} ha hb hab => ?_
  rw [h.ownNumber m a ha, h.ownNumber m b hb]
  exact hab

/-! Reading one message while another one, or the same one, is written. -/

variable {m m' : Nat} {rows : List EventRow}

theorem storedEvents_append_other (rows : List EventRow) (hm : m' ≠ m) (batch : List PendingEvent) :
    storedEvents (rows ++ batch.map (PendingEvent.toRow m)) m' = storedEvents rows m' := by
  have hnone : (batch.map (PendingEvent.toRow m)).filter (fun r => r.1.messageId = m') = [] := by
    refine List.filter_eq_nil_iff.mpr fun r hr => ?_
    obtain ⟨e, _, rfl⟩ := List.mem_map.mp hr
    simp [PendingEvent.toRow, hm.symm]
  simp [storedEvents, orderedRows, hnone]

theorem filter_append_own (rows : List EventRow) (m : Nat) (batch : List PendingEvent) :
    (rows ++ batch.map (PendingEvent.toRow m)).filter (fun r => r.1.messageId = m) =
      rows.filter (fun r => r.1.messageId = m) ++ batch.map (PendingEvent.toRow m) := by
  rw [List.filter_append]
  congr 1
  refine List.filter_eq_self.mpr fun r hr => ?_
  obtain ⟨e, _, rfl⟩ := List.mem_map.mp hr
  simp [PendingEvent.toRow]

section

variable {rows : List EventRow} {m : Nat} {batch : List PendingEvent} (h : NumbersDistinct rows)
  (hc : seqConflict rows batch = false)
include h hc

theorem numbersDistinct_append :
    NumbersDistinct (rows ++ batch.map (PendingEvent.toRow m)) := by
  obtain ⟨hnew, hnodup⟩ := seqConflict_eq_false.mp hc
  rw [NumbersDistinct, List.map_append, List.map_map]
  refine List.nodup_append.mpr ⟨h, hnodup, ?_⟩
  intro n hn k hk hnk
  obtain ⟨r, hr, rfl⟩ := List.mem_map.mp hn
  obtain ⟨e, he, rfl⟩ := List.mem_map.mp hk
  exact hnew e he r hr hnk

/-- A batch is read after what the message already held exactly when its numbers are
larger. The turn's own numbers tell the two parts of the reading apart. -/
theorem storedEvents_append_iff (hasc : batch.Pairwise fun a b => a.seqNo < b.seqNo)
    (hown : ((storedEvents rows m).map Prod.fst ++ batch.map PendingEvent.received).Nodup) :
    storedEvents (rows ++ batch.map (PendingEvent.toRow m)) m =
        storedEvents rows m ++ batch.map (fun e => (e.received, e.event)) ↔
      ∀ r ∈ rows, r.1.messageId = m → ∀ e ∈ batch, r.1.seqNo < e.seqNo := by
  set own := rows.filter (fun r => r.1.messageId = m) with hownRows
  set new := batch.map (PendingEvent.toRow m) with hnewRows
  have hsplit : (rows ++ new).filter (fun r => r.1.messageId = m) = own ++ new :=
    filter_append_own rows m batch
  have hdist : ((own ++ new).map fun r => r.1.seqNo).Nodup := by
    rw [← hsplit]
    exact numbersDistinct_filter (numbersDistinct_append h hc) _
  have hnewMap : new.map (Prod.map RowKey.received id) =
      batch.map fun e => (e.received, e.event) := by
    rw [hnewRows, List.map_map]; rfl
  constructor
  · intro hread r hr hrm e he
    -- cut the reading where the two parts meet; each row falls into the part of its number
    rw [storedEvents, orderedRows, hsplit] at hread
    obtain ⟨left, right, hlr, hleft, hright⟩ := List.map_eq_append_iff.mp hread
    have hstrict := KeyOrder.sortBy_strict hdist
    rw [hlr] at hstrict
    have hdisj := List.disjoint_of_nodup_append hown
    have hfst (l : List EventRow) : (l.map (Prod.map RowKey.received id)).map Prod.fst =
        l.map fun r => r.1.received := by
      rw [List.map_map]; rfl
    have hleft' : left.map (fun r => r.1.received) = (storedEvents rows m).map Prod.fst := by
      rw [← hleft, hfst]
    have hright' : right.map (fun r => r.1.received) = batch.map PendingEvent.received := by
      rw [← hfst, hright, List.map_map]; rfl
    have hrOwn : r ∈ own := List.mem_filter.mpr ⟨hr, by simpa using hrm⟩
    have hrLeft : r ∈ left := by
      have hmem : r ∈ left ++ right := by
        rw [← hlr]
        exact KeyOrder.mem_sortBy.mpr (List.mem_append_left new hrOwn)
      refine (List.mem_append.mp hmem).resolve_right fun hrr => ?_
      have h1 : r.1.received ∈ (storedEvents rows m).map Prod.fst := by
        rw [storedEvents, hfst]
        exact List.mem_map_of_mem (KeyOrder.mem_sortBy.mpr hrOwn)
      have h2 : r.1.received ∈ batch.map PendingEvent.received := by
        rw [← hright']
        exact List.mem_map_of_mem hrr
      exact hdisj h1 h2
    have heRight : PendingEvent.toRow m e ∈ right := by
      have hmem : PendingEvent.toRow m e ∈ left ++ right := by
        rw [← hlr]
        exact KeyOrder.mem_sortBy.mpr (List.mem_append_right own (List.mem_map_of_mem he))
      refine (List.mem_append.mp hmem).resolve_left fun hel => ?_
      have h1 : e.received ∈ (storedEvents rows m).map Prod.fst := by
        rw [← hleft']
        exact List.mem_map_of_mem (f := fun r : EventRow => r.1.received) hel
      exact hdisj h1 (List.mem_map_of_mem he)
    exact (List.pairwise_append.mp hstrict).2.2 r hrLeft _ heRight
  · intro hlt
    have hnewAsc : new.Pairwise fun a b => a.1.seqNo < b.1.seqNo :=
      List.pairwise_map.mpr (hasc.imp fun hab => hab)
    have hafter : ∀ a ∈ own, ∀ b ∈ new, a.1.seqNo < b.1.seqNo := by
      intro a ha b hb
      obtain ⟨e, he, rfl⟩ := List.mem_map.mp hb
      obtain ⟨har, ham⟩ := List.mem_filter.mp ha
      exact hlt a har (by simpa using ham) e he
    have hsorted := KeyOrder.sortBy_append_of_lt (numbersDistinct_filter h _) hnewAsc hafter
    rw [storedEvents, orderedRows, hsplit, hsorted, List.map_append, hnewMap]
    rfl

end

theorem filter_others (hm : m' ≠ m) :
    (rows.filter fun r => r.1.messageId ≠ m).filter (fun r => r.1.messageId = m') =
      rows.filter fun r => r.1.messageId = m' := by
  rw [List.filter_filter]
  refine List.filter_congr fun r _ => ?_
  by_cases h : r.1.messageId = m' <;> simp [h, hm]

theorem storedEvents_compact_other (rows : List EventRow) (hm : m' ≠ m) :
    storedEvents (compactMessageDeltaEvents rows m) m' = storedEvents rows m' := by
  have hnone : (compactRows (orderedRows rows m)).filter (fun r => r.1.messageId = m') = [] := by
    refine List.filter_eq_nil_iff.mpr fun r hr => ?_
    have hkey := (compactRows_sublist _).subset (List.mem_map_of_mem (f := Prod.fst) hr)
    obtain ⟨r', hr', hrr'⟩ := List.mem_map.mp hkey
    have hown : r'.1.messageId = m := by
      simpa using (List.mem_filter.mp (KeyOrder.mem_sortBy.mp hr')).2
    simp [← hrr', hown, hm.symm]
  rw [storedEvents, orderedRows, compactMessageDeltaEvents, List.filter_append, hnone,
    List.append_nil, filter_others hm]
  rfl

theorem storedEvents_compact_own (h : NumbersDistinct rows) (m : Nat) :
    storedEvents (compactMessageDeltaEvents rows m) m = compactRows (storedEvents rows m) := by
  rw [storedEvents, orderedRows_compact (numbersDistinct_filter h _), compactRows_map]
  rfl

theorem numbersDistinct_compact (h : NumbersDistinct rows) (m : Nat) :
    NumbersDistinct (compactMessageDeltaEvents rows m) := by
  have hown : ((compactRows (orderedRows rows m)).map fun r => r.1.seqNo).Sublist
      ((orderedRows rows m).map fun r => r.1.seqNo) := by
    have := (compactRows_sublist (orderedRows rows m)).map RowKey.seqNo
    rwa [List.map_map, List.map_map] at this
  have hperm : (rows.filter (fun r => r.1.messageId ≠ m) ++ orderedRows rows m).Perm rows := by
    refine ((KeyOrder.sortBy_perm _ _).append_left _).trans ?_
    have := List.filter_append_perm (fun r : EventRow => decide (r.1.messageId ≠ m)) rows
    simpa using this
  have hall : ((rows.filter (fun r => r.1.messageId ≠ m) ++ orderedRows rows m).map
      fun r => r.1.seqNo).Nodup := (hperm.map _).nodup_iff.mpr h
  rw [NumbersDistinct, compactMessageDeltaEvents, List.map_append]
  rw [List.map_append] at hall
  exact hall.sublist (hown.append_left _)

theorem storedEvents_delete_other (rows : List EventRow) (hm : m' ≠ m) :
    storedEvents (deleteMessageEvents rows m) m' = storedEvents rows m' := by
  rw [storedEvents, orderedRows, deleteMessageEvents, filter_others hm]
  rfl

theorem storedEvents_delete_own (rows : List EventRow) (m : Nat) :
    storedEvents (deleteMessageEvents rows m) m = [] := by
  have hnone : (deleteMessageEvents rows m).filter (fun r => r.1.messageId = m) = [] := by
    rw [deleteMessageEvents, List.filter_filter]
    exact List.filter_eq_nil_iff.mpr fun r _ => by simp
  rw [storedEvents, orderedRows, hnone]
  rfl

section

variable {s : SessionHistory}

variable {m : Nat} {s' : SessionHistory}

theorem flush_rows (h : Numbered s) (hne : (s.turns m).pendingEvents ≠ []) :
    (flushEvents s m).rows = if m ∈ s.messages then
        s.rows ++ (placed s.rows (s.turns m).pendingEvents).map (PendingEvent.toRow m)
      else s.rows := by
  simp only [flushEvents, createMessageEventsBulk_eq s.messages s.rows m hne
    (pending_ascending h m)]
  split_ifs <;> rfl

theorem flush_empty (hm : (s.turns m).pendingEvents = []) :
    flushEvents s m = s := by
  have hturn : (⟨(s.turns m).seqNo, []⟩ : TurnBuffer) = s.turns m := by
    rw [← hm]
  simp [flushEvents, hm, hturn, createMessageEventsBulk]

theorem numbered_flush (h : Numbered s) (m : Nat) :
    Numbered (flushEvents s m) := by
  by_cases hne : (s.turns m).pendingEvents = []
  · rw [flush_empty hne]
    exact h
  -- the numbers of the flushed batch move from the buffer to the record, or are lost
  have hnumbers : ∀ m', (((flushEvents s m).expected m').map Prod.fst ++
      ((flushEvents s m).turns m').pendingEvents.map PendingEvent.received).Sublist
      ((s.expected m').map Prod.fst ++ (s.turns m').pendingEvents.map PendingEvent.received) := by
    intro m'
    by_cases hm' : m' = m
    · subst hm'
      by_cases hmem : m' ∈ s.messages
      · simp [flushEvents, hmem, Function.comp_def]
      · simp [flushEvents, hmem]
    · by_cases hmem : m ∈ s.messages <;> simp [flushEvents, hmem, hm']
  have hseq : ∀ m', ((flushEvents s m).turns m').seqNo = (s.turns m').seqNo := by
    intro m'
    by_cases hm' : m' = m
    · subst hm'
      simp [flushEvents]
    · simp [flushEvents, hm']
  constructor
  · rw [flush_rows h hne]
    split_ifs
    · exact numbersDistinct_append h.distinct (seqConflict_placed _ _)
    · exact h.distinct
  · exact fun m' => (h.ascending m').sublist (hnumbers m')
  · intro m' n hn
    rw [hseq]
    exact h.counted m' n ((hnumbers m').subset hn)
  · intro m' e he
    by_cases hm' : m' = m
    · subst hm'
      simp [flushEvents] at he
    · simp only [flushEvents, ne_eq, hm', not_false_eq_true, Function.update_of_ne] at he
      exact h.ownNumber m' e he

theorem numbered_receive (h : Numbered s) (m : Nat) (e : StreamEvent)
    (hs : historyStep s (.receive m e) = some s') : Numbered s' := by
  cases hs
  constructor
  · exact h.distinct
  · intro m'
    by_cases hm' : m' = m
    · subst hm'
      simp only [Function.update_self, List.map_append, List.map_cons, List.map_nil]
      rw [← List.append_assoc]
      refine List.pairwise_append.mpr ⟨h.ascending m', by simp, fun n hn k hk => ?_⟩
      have := h.counted m' n hn
      rw [List.mem_singleton.mp hk]
      omega
    · simpa only [ne_eq, hm', not_false_eq_true, Function.update_of_ne] using h.ascending m'
  · intro m' n hn
    by_cases hm' : m' = m
    · subst hm'
      simp only [Function.update_self, List.map_append, List.map_cons, List.map_nil] at hn ⊢
      rw [← List.append_assoc] at hn
      rcases List.mem_append.mp hn with hn | hn
      · exact (h.counted m' n hn).trans (Nat.le_succ _)
      · rw [List.mem_singleton.mp hn]
    · simp only [ne_eq, hm', not_false_eq_true, Function.update_of_ne] at hn ⊢
      exact h.counted m' n hn
  · intro m' e' he'
    by_cases hm' : m' = m
    · subst hm'
      simp only [Function.update_self] at he'
      rcases List.mem_append.mp he' with he' | he'
      · exact h.ownNumber m' e' he'
      · rw [List.mem_singleton.mp he']
    · simp only [ne_eq, hm', not_false_eq_true, Function.update_of_ne] at he'
      exact h.ownNumber m' e' he'

theorem numbered_replace (h : Numbered s) {rows : List EventRow}
    {record : List (Nat × StreamEvent)} (messages : List Nat) (hrows : NumbersDistinct rows)
    (hrec : (record.map Prod.fst).Sublist ((s.expected m).map Prod.fst)) :
    Numbered { s with
      messages := messages, rows := rows, expected := Function.update s.expected m record } := by
  have hnumbers : ∀ m', (((Function.update s.expected m record) m').map Prod.fst ++
      (s.turns m').pendingEvents.map PendingEvent.received).Sublist
      ((s.expected m').map Prod.fst ++ (s.turns m').pendingEvents.map PendingEvent.received) := by
    intro m'
    by_cases hm' : m' = m
    · subst hm'
      simpa using hrec
    · simp [hm']
  exact ⟨hrows, fun m' => (h.ascending m').sublist (hnumbers m'),
    fun m' n hn => h.counted m' n ((hnumbers m').subset hn), h.ownNumber⟩

variable (a : HistoryAction)

theorem numbered_step (h : Numbered s) (hs : historyStep s a = some s') : Numbered s' := by
  cases a with
  | createMessage m =>
    simp only [historyStep] at hs
    split at hs
    · cases hs
    · cases hs
      exact ⟨h.distinct, h.ascending, h.counted, h.ownNumber⟩
  | receive m e => exact numbered_receive h m e hs
  | flush m =>
    cases hs
    exact numbered_flush h m
  | compact m =>
    cases hs
    exact numbered_replace h s.messages (numbersDistinct_compact h.distinct m)
      (compactRows_sublist _)
  | delete m =>
    cases hs
    exact numbered_replace h _ (numbersDistinct_filter h.distinct _) (List.nil_sublist _)

theorem flush_in_order_iff (h : Numbered s) (ho : EventsInOrder s) (m : Nat) :
    EventsInOrder (flushEvents s m) ↔ BatchFits s (.flush m) := by
  by_cases hne : (s.turns m).pendingEvents = []
  · rw [flush_empty hne]
    simp [BatchFits, hne, ho]
  by_cases hmem : m ∈ s.messages
  swap
  · have hrows : (flushEvents s m).rows = s.rows := by simp [flush_rows h hne, hmem]
    have hexp : (flushEvents s m).expected = s.expected := by simp [flushEvents, hmem]
    simp only [EventsInOrder, hrows, hexp, BatchFits, hmem, false_implies, iff_true]
    exact ho
  set batch := (s.turns m).pendingEvents with hbatch
  have hrows : (flushEvents s m).rows =
      s.rows ++ (placed s.rows batch).map (PendingEvent.toRow m) := by
    simp [flush_rows h hne, hmem, hbatch]
  have hother : ∀ m', m' ≠ m → storedEvents (flushEvents s m).rows m' =
      (flushEvents s m).expected m' := by
    intro m' hm'
    rw [hrows, storedEvents_append_other s.rows hm', ho m']
    simp [flushEvents, hmem, hm']
  have hexp : (flushEvents s m).expected m =
      storedEvents s.rows m ++ (placed s.rows batch).map fun e => (e.received, e.event) := by
    rw [placed_map_event, ho m]
    simp [flushEvents, hmem, hbatch]
  have hreceived : (placed s.rows batch).map PendingEvent.received =
      batch.map PendingEvent.received := by
    have := congrArg (List.map Prod.fst) (placed_map_event s.rows batch)
    simpa only [List.map_map, Function.comp_def] using this
  have hown : ((storedEvents s.rows m).map Prod.fst ++
      (placed s.rows batch).map PendingEvent.received).Nodup := by
    rw [ho m, hreceived]
    exact (h.ascending m).imp fun hab => ne_of_lt hab
  have hown_iff := storedEvents_append_iff h.distinct (seqConflict_placed s.rows batch)
    (placed_ascending s.rows (pending_ascending h m)) hown
  have hall : EventsInOrder (flushEvents s m) ↔
      storedEvents (flushEvents s m).rows m = (flushEvents s m).expected m := by
    refine ⟨fun h' => h' m, fun h' m' => ?_⟩
    by_cases hm' : m' = m
    · rw [hm', h']
    · exact hother m' hm'
  rw [hall, hexp, hrows, hown_iff]
  simp only [BatchFits, hmem, true_implies, ← hbatch]
  by_cases hc : seqConflict s.rows batch = true
  · -- a renumbered batch starts above everything the session stores
    refine iff_of_true (fun r hr _ e he => ?_) (Or.inl hc)
    rw [placed, if_pos hc] at he
    exact (lt_getNextMessageEventSeq hr).trans_le (le_of_mem_renumber he)
  · simp [placed, hc]

theorem in_order_step_iff (h : Numbered s) (ho : EventsInOrder s) (hs : historyStep s a = some s') :
    EventsInOrder s' ↔ BatchFits s a := by
  cases a with
  | createMessage m =>
    simp only [historyStep] at hs
    split at hs
    · cases hs
    · cases hs
      exact iff_of_true ho trivial
  | receive m e =>
    cases hs
    exact iff_of_true ho trivial
  | flush m =>
    cases hs
    exact flush_in_order_iff h ho m
  | compact m =>
    cases hs
    refine iff_of_true (fun m' => ?_) trivial
    by_cases hm' : m' = m
    · subst hm'
      simp [storedEvents_compact_own h.distinct, ho m']
    · simp [storedEvents_compact_other s.rows hm', hm', ho m']
  | delete m =>
    cases hs
    refine iff_of_true (fun m' => ?_) trivial
    by_cases hm' : m' = m
    · subst hm'
      simp [storedEvents_delete_own]
    · simp [storedEvents_delete_other s.rows hm', hm', ho m']

end

/-- In every history of turns, compactions and deletions, all messages read back in the
order their turns received them, in every state reached, if and only if every batch of an
existing message either collides (and so is renumbered above everything stored) or starts
above what its own message already stores. -/
theorem events_in_order_iff_batches_fit (as : List HistoryAction) :
    GuardedRuns.Always historyStep EventsInOrder .empty as ↔
      GuardedRuns.Guarded historyStep BatchFits .empty as :=
  GuardedRuns.always_iff_guarded (fun _ a _ h _ _ hs => numbered_step a h hs)
    (fun _ a _ h ho hs => in_order_step_iff a h ho hs) numbered_empty events_in_order_empty

def gapHistory : List HistoryAction :=
  [.createMessage 1, .receive 1 ⟨.messageDelta, [("delta", .str "a")]⟩,
    .receive 1 ⟨.messageDelta, [("delta", .str "b")]⟩,
    .receive 1 ⟨.messageCompleted, []⟩, .flush 1, .compact 1,
    .createMessage 2, .receive 2 ⟨.thinking, []⟩, .flush 2,
    .receive 2 ⟨.messageCompleted, []⟩, .flush 2]

theorem gap_history_out_of_order :
    ¬ ∀ as, GuardedRuns.Always historyStep EventsInOrder .empty as := by
  intro h
  have hread := GuardedRuns.always_last (h gapHistory) rfl 2
  have hnumbers := congrArg (List.map Prod.fst) hread
  revert hnumbers
  decide

end WittyService
