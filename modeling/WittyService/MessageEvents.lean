import WittyService.Json
import WittyService.KeyOrder

/-! The rows of `message_events` that belong to one session, and the repository calls
that write them. The unique constraint `uq_message_events_session_seq` numbers the
events of all messages of the session together. -/
namespace WittyService

/-- The event types the code tests for by name, every other string being `other`. -/
inductive EventType where
  | messageDelta
  | thinkingDelta
  | toolCallDelta
  | thinking
  | messageCompleted
  | turnCompleted
  | streamError
  | clientError
  | sessionStateChanged
  | sessionHeartbeat
  | sessionRuntimeChanged
  | artifactStarted
  | artifactDelta
  | artifactCompleted
  | other (name : String)
  deriving DecidableEq, Repr

structure StreamEvent where
  eventType : EventType
  payload : Dict
  deriving Repr

/-- The columns of a row beside `event_type` and `payload_json`. `received` is no column:
it is the number the turn itself gave the event, and tells the events of a turn apart. -/
structure RowKey where
  messageId : Nat
  seqNo : Nat
  received : Nat
  deriving DecidableEq, Repr

abbrev EventRow := RowKey × StreamEvent

def deltaTextFromPayload (payload : Dict) : String :=
  match (["delta", "text", "content"].filterMap fun key =>
    (payload.get key).bind Json.nonemptyStr) with
  | [] => ""
  | value :: _ => value

/-- `DELTA_EVENT_TYPES`. -/
def EventType.isDelta : EventType → Bool
  | .messageDelta | .thinkingDelta | .toolCallDelta => true
  | _ => false

def StreamEvent.textOf (e : StreamEvent) : String := deltaTextFromPayload e.payload

def StreamEvent.isTransparent (e : StreamEvent) : Bool :=
  match e.eventType with
  | .toolCallDelta => true
  | .messageDelta | .thinkingDelta => e.textOf == ""
  | _ => false

variable {β : Type*}

/-- Does the full `thinking` event after a run of deltas repeat their text? -/
def thinkingCovered (text : String) : Option (β × StreamEvent) → Bool
  | some following =>
    following.2.eventType == .thinking &&
      match following.2.payload.get "thinking" with
      | some (.str fullText) => !(pyStrip text).isEmpty && pyStrip fullText == pyStrip text
      | _ => false
  | none => false

/-- What remains of one run of deltas: `row` is its first row and `group` the later ones,
transparent rows included. The test `item.event_type == row.event_type` that should drop
the later rows comes after the first row was retyped to `thinking`, so the later rows of
an uncovered thinking run stay. -/
def mergeRun (row : β × StreamEvent) (group : List (β × StreamEvent))
    (following : Option (β × StreamEvent)) : List (β × StreamEvent) :=
  let kept := group.filter fun item => !item.2.isTransparent
  let text := String.join (row.2.textOf :: kept.map fun item => item.2.textOf)
  if row.2.eventType = .messageDelta then
    [(row.1, ⟨.messageDelta, [("delta", .str text)]⟩)]
  else if thinkingCovered text following then []
  else (row.1, ⟨.thinking, [("thinking", .str text)]⟩) :: kept

/-- The `while index < total` loop of `compact_message_delta_events` on the rows of one
message in `seq_no` order, as the list of rows it leaves. The fuel bounds the number of
iterations; each one consumes a row. -/
def compactLoop : ℕ → List (β × StreamEvent) → List (β × StreamEvent)
  | 0, _ => []
  | _ + 1, [] => []
  | n + 1, row :: rest =>
    if !row.2.eventType.isDelta then row :: compactLoop n rest
    else if row.2.isTransparent then compactLoop n rest
    else
      let inRun := fun c : β × StreamEvent =>
        c.2.isTransparent || c.2.eventType == row.2.eventType
      mergeRun row (rest.takeWhile inRun) (rest.dropWhile inRun).head? ++
        compactLoop n (rest.dropWhile inRun)

def compactRows (rows : List (β × StreamEvent)) : List (β × StreamEvent) :=
  compactLoop rows.length rows

/-- `query(...).filter(message_id == ...).order_by(seq_no.asc())`. -/
def orderedRows (rows : List EventRow) (messageId : Nat) : List EventRow :=
  KeyOrder.sortBy (fun r => r.1.seqNo) (rows.filter fun r => r.1.messageId = messageId)

def compactMessageDeltaEvents (rows : List EventRow) (messageId : Nat) : List EventRow :=
  (rows.filter fun r => r.1.messageId ≠ messageId) ++ compactRows (orderedRows rows messageId)

/-- `_delete_message_in_session` on the events of the message. -/
def deleteMessageEvents (rows : List EventRow) (messageId : Nat) : List EventRow :=
  rows.filter fun r => r.1.messageId ≠ messageId

inductive BulkError where
  | seqConflict
  | foreignKey
  deriving DecidableEq, Repr

structure PendingEvent where
  seqNo : Nat
  received : Nat
  event : StreamEvent
  deriving Repr

def PendingEvent.toRow (messageId : Nat) (e : PendingEvent) : EventRow :=
  (⟨messageId, e.seqNo, e.received⟩, e.event)

/-- The unique constraint on `(session_id, seq_no)` refuses the batch. -/
def seqConflict (rows : List EventRow) (pending : List PendingEvent) : Bool :=
  (pending.any fun e => rows.any fun r => r.1.seqNo == e.seqNo) ||
    !decide (pending.map PendingEvent.seqNo).Nodup

def getNextMessageEventSeq (rows : List EventRow) : Nat :=
  (rows.map fun r => r.1.seqNo).foldr max 0 + 1

/-- `(base + offset, event_type, payload_json) for offset, ... in enumerate(pending)`. -/
def renumber (base : Nat) (pending : List PendingEvent) : List PendingEvent :=
  pending.mapIdx fun offset e => { e with seqNo := base + offset }

/-- The `for _ in range(max_retries)` loop of `create_message_events_bulk`. -/
def bulkAttempts (messages : List Nat) (rows : List EventRow) (messageId : Nat) :
    ℕ → List PendingEvent → Except BulkError (List EventRow)
  | 0, _ => .error .seqConflict
  | retries + 1, pending =>
    if seqConflict rows pending then
      bulkAttempts messages rows messageId retries
        (renumber (getNextMessageEventSeq rows) pending)
    else if messageId ∉ messages then .error .foreignKey
    else .ok (rows ++ pending.map (PendingEvent.toRow messageId))

def createMessageEventsBulk (messages : List Nat) (rows : List EventRow) (messageId : Nat)
    (events : List PendingEvent) : Except BulkError (List EventRow) :=
  if events.isEmpty then .ok rows
  else bulkAttempts messages rows messageId 5 (KeyOrder.sortBy PendingEvent.seqNo events)

/-- What a reader of the message gets: its events in `seq_no` order, each with the number
its turn gave it. -/
def storedEvents (rows : List EventRow) (messageId : Nat) : List (Nat × StreamEvent) :=
  (orderedRows rows messageId).map (Prod.map RowKey.received id)

variable {γ : Type*}

variable (f : β → γ) (base : Nat)

theorem mergeRun_map (row : β × StreamEvent) (group rest : List (β × StreamEvent)) :
    (mergeRun row group rest.head?).map (Prod.map f id) =
      mergeRun (Prod.map f id row) (group.map (Prod.map f id))
        (rest.map (Prod.map f id)).head? := by
  have hfilter : (group.map (Prod.map f id)).filter (fun item => !item.2.isTransparent) =
      (group.filter fun item => !item.2.isTransparent).map (Prod.map f id) := by
    rw [List.filter_map]; rfl
  have hcover (text : String) : thinkingCovered text (rest.map (Prod.map f id)).head? =
      thinkingCovered text rest.head? := by
    cases rest <;> rfl
  simp only [mergeRun, hfilter, List.map_map, Function.comp_def, Prod.map_snd, id_eq, hcover]
  split_ifs <;> simp

theorem compactLoop_map (n : ℕ) (rows : List (β × StreamEvent)) :
    (compactLoop n rows).map (Prod.map f id) = compactLoop n (rows.map (Prod.map f id)) := by
  induction n generalizing rows with
  | zero => rfl
  | succ n ih =>
    cases rows with
    | nil => rfl
    | cons row rest =>
      have htake (p : StreamEvent → Bool) :
          (rest.map (Prod.map f id)).takeWhile (fun c => p c.2) =
            (rest.takeWhile fun c => p c.2).map (Prod.map f id) := by
        rw [List.takeWhile_map]; rfl
      have hdrop (p : StreamEvent → Bool) :
          (rest.map (Prod.map f id)).dropWhile (fun c => p c.2) =
            (rest.dropWhile fun c => p c.2).map (Prod.map f id) := by
        rw [List.dropWhile_map]; rfl
      simp only [compactLoop, List.map_cons, Prod.map_snd, id_eq]
      split_ifs
      · simp only [List.map_cons, ih]
      · exact ih rest
      · rw [List.map_append, ih,
          htake (fun e => e.isTransparent || e.eventType == row.2.eventType),
          hdrop (fun e => e.isTransparent || e.eventType == row.2.eventType),
          mergeRun_map]

theorem mergeRun_sublist (row : β × StreamEvent) (group : List (β × StreamEvent))
    (following : Option (β × StreamEvent)) :
    ((mergeRun row group following).map Prod.fst).Sublist ((row :: group).map Prod.fst) := by
  unfold mergeRun
  dsimp only
  split_ifs
  · simp
  · simp
  · exact (List.filter_sublist.map Prod.fst).cons_cons row.1

theorem compactLoop_sublist (n : ℕ) (rows : List (β × StreamEvent)) :
    ((compactLoop n rows).map Prod.fst).Sublist (rows.map Prod.fst) := by
  induction n generalizing rows with
  | zero => exact List.nil_sublist _
  | succ n ih =>
    cases rows with
    | nil => exact List.nil_sublist _
    | cons row rest =>
      rw [compactLoop]
      split_ifs
      · exact (ih rest).cons_cons row.1
      · exact (ih rest).cons row.1
      · set inRun := fun c : β × StreamEvent =>
          c.2.isTransparent || c.2.eventType == row.2.eventType
        have hsplit : (row :: rest).map Prod.fst =
            (row :: rest.takeWhile inRun).map Prod.fst ++ (rest.dropWhile inRun).map Prod.fst := by
          rw [← List.map_append, List.cons_append, List.takeWhile_append_dropWhile]
        rw [List.map_append, hsplit]
        exact (mergeRun_sublist row _ _).append (ih _)

theorem compactRows_map (rows : List (β × StreamEvent)) :
    (compactRows rows).map (Prod.map f id) = compactRows (rows.map (Prod.map f id)) := by
  rw [compactRows, compactRows, compactLoop_map, List.length_map]

theorem compactRows_sublist (rows : List (β × StreamEvent)) :
    ((compactRows rows).map Prod.fst).Sublist (rows.map Prod.fst) :=
  compactLoop_sublist _ rows

/-! Spec lemmas of the repository calls, over rows whose numbers are distinct. -/

def NumbersDistinct (rows : List EventRow) : Prop :=
  (rows.map fun r => r.1.seqNo).Nodup

section

variable {rows : List EventRow}

theorem numbersDistinct_filter (h : NumbersDistinct rows)
    (p : EventRow → Bool) : NumbersDistinct (rows.filter p) :=
  h.sublist (List.filter_sublist.map _)

theorem orderedRows_compact {m : Nat}
    (h : NumbersDistinct (rows.filter fun r => r.1.messageId = m)) :
    orderedRows (compactMessageDeltaEvents rows m) m = compactRows (orderedRows rows m) := by
  have hown : (compactMessageDeltaEvents rows m).filter (fun r => r.1.messageId = m) =
      compactRows (orderedRows rows m) := by
    rw [compactMessageDeltaEvents, List.filter_append, List.filter_filter]
    have hnone : rows.filter (fun r => decide (r.1.messageId = m) && decide (r.1.messageId ≠ m))
        = [] := List.filter_eq_nil_iff.mpr fun r _ => by simp
    rw [hnone, List.nil_append]
    refine List.filter_eq_self.mpr fun r hr => ?_
    have hkey := (compactRows_sublist _).subset (List.mem_map_of_mem (f := Prod.fst) hr)
    obtain ⟨r', hr', hrr'⟩ := List.mem_map.mp hkey
    rw [← hrr']
    exact (List.mem_filter.mp (KeyOrder.mem_sortBy.mp hr')).2
  have hstrict : (compactRows (orderedRows rows m)).Pairwise fun a b => a.1.seqNo < b.1.seqNo := by
    have hkeys : ((orderedRows rows m).map Prod.fst).Pairwise fun a b => a.seqNo < b.seqNo :=
      List.pairwise_map.mpr (KeyOrder.sortBy_strict h)
    have hkept := hkeys.sublist (compactRows_sublist (orderedRows rows m))
    exact (List.pairwise_map (f := Prod.fst)).mp hkept
  rw [orderedRows, hown, KeyOrder.sortBy_of_pairwise hstrict]

theorem lt_getNextMessageEventSeq {r : EventRow} (hr : r ∈ rows) :
    r.1.seqNo < getNextMessageEventSeq rows := by
  unfold getNextMessageEventSeq
  induction rows with
  | nil => cases hr
  | cons a rows ih =>
    simp only [List.map_cons, List.foldr_cons]
    rcases List.mem_cons.mp hr with rfl | hr
    · omega
    · have := ih hr
      omega

theorem seqConflict_eq_false {pending : List PendingEvent} :
    seqConflict rows pending = false ↔
      (∀ e ∈ pending, ∀ r ∈ rows, r.1.seqNo ≠ e.seqNo) ∧
        (pending.map PendingEvent.seqNo).Nodup := by
  simp [seqConflict]

end

def placed (rows : List EventRow) (pending : List PendingEvent) : List PendingEvent :=
  if seqConflict rows pending then renumber (getNextMessageEventSeq rows) pending else pending

theorem renumber_ascending (pending : List PendingEvent) :
    (renumber base pending).Pairwise fun a b => a.seqNo < b.seqNo := by
  refine List.pairwise_iff_getElem.mpr fun i j hi hj hij => ?_
  simp only [renumber, List.getElem_mapIdx]
  omega

theorem le_of_mem_renumber {base : Nat} {pending : List PendingEvent} {e : PendingEvent}
    (he : e ∈ renumber base pending) : base ≤ e.seqNo := by
  obtain ⟨i, hi, rfl⟩ := List.mem_mapIdx.mp he
  exact Nat.le_add_right base i

theorem renumber_map_event (pending : List PendingEvent) :
    (renumber base pending).map (fun e => (e.received, e.event)) =
      pending.map fun e => (e.received, e.event) := by
  apply List.ext_getElem
  · simp [renumber]
  · intro i hi hi'
    simp [renumber]

section

variable (rows : List EventRow)

variable (pending : List PendingEvent)

theorem seqConflict_renumber :
    seqConflict rows (renumber (getNextMessageEventSeq rows) pending) = false := by
  refine seqConflict_eq_false.mpr ⟨fun e he r hr heq => ?_, ?_⟩
  · have h1 := lt_getNextMessageEventSeq hr
    have h2 := le_of_mem_renumber he
    omega
  · exact List.pairwise_map.mpr ((renumber_ascending _ _).imp fun h => ne_of_lt h)

theorem placed_map_event : (placed rows pending).map (fun e => (e.received, e.event)) =
      pending.map fun e => (e.received, e.event) := by
  unfold placed
  split_ifs
  · exact renumber_map_event _ _
  · rfl

theorem placed_ascending {pending : List PendingEvent}
    (h : pending.Pairwise fun a b => a.seqNo < b.seqNo) :
    (placed rows pending).Pairwise fun a b => a.seqNo < b.seqNo := by
  unfold placed
  split_ifs
  · exact renumber_ascending _ _
  · exact h

theorem seqConflict_placed :
    seqConflict rows (placed rows pending) = false := by
  unfold placed
  split_ifs with h
  · exact seqConflict_renumber rows pending
  · exact Bool.not_eq_true _ ▸ h

end

theorem createMessageEventsBulk_eq (messages : List Nat) (rows : List EventRow)
    (messageId : Nat) {events : List PendingEvent} (hne : events ≠ [])
    (h : events.Pairwise fun a b => a.seqNo < b.seqNo) :
    createMessageEventsBulk messages rows messageId events =
      if messageId ∈ messages then
        .ok (rows ++ (placed rows events).map (PendingEvent.toRow messageId))
      else .error .foreignKey := by
  have hempty : events.isEmpty = false := by simpa using hne
  rw [createMessageEventsBulk, hempty, KeyOrder.sortBy_of_pairwise h]
  simp only [Bool.false_eq_true, if_false, bulkAttempts, placed, seqConflict_renumber]
  split_ifs <;> rfl

end WittyService
