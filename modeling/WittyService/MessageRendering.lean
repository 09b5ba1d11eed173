import WittyService.DeltaCompaction
import WittyService.MessageAssembly

/-! What a reader sees of a message: the same before and after its deltas are compacted, and
how its text is spelled by the segments of the timeline. -/
namespace WittyService

variable {τ : Type*}

namespace AssemblyState

variable {add : Json → Json → Json} {s : AssemblyState τ}

@[simp] theorem messageDelta_empty (timestamp : τ) : s.messageDelta timestamp "" = s := rfl

variable {text : String} {evt : τ × StreamEvent}

theorem messageDelta_append (timestamp timestamp' : τ) (text' : String)
    (h : text ≠ "") : (s.messageDelta timestamp text).messageDelta timestamp' text' =
      s.messageDelta timestamp (text ++ text') := by
  have hne : text ++ text' ≠ "" := by
    intro happ
    exact h (String.append_eq_empty_iff.mp happ).1
  by_cases htext' : text' = ""
  · rw [htext', messageDelta_empty, String.append_empty]
  · by_cases hgo : s.prevItemType = some .messageDelta ∧ s.deltaItems ≠ []
    · have hmodify : ∀ f : DeltaItem τ → DeltaItem τ,
          s.deltaItems.modify (s.deltaItems.length - 1) f ≠ [] := by
        intro f hnil
        have hlen := congrArg List.length hnil
        rw [List.length_modify] at hlen
        exact hgo.2 (List.length_eq_zero_iff.mp hlen)
      simp only [messageDelta, h, htext', hne, hgo.1, hgo.2, hmodify, if_false, true_and, ne_eq,
        not_false_eq_true, if_true, List.length_modify, List.modify_modify_eq, Function.comp_def,
        String.append_assoc]
    · simp only [messageDelta, h, htext', hne, hgo, if_false, true_and, ne_eq,
        List.append_eq_nil_iff, List.cons_ne_nil, and_false, not_false_eq_true, if_true,
        List.length_append, List.length_singleton, Nat.add_sub_cancel]
      rw [modify_last]

theorem takeEvents_append (events later : List (τ × StreamEvent)) :
    s.takeEvents add (events ++ later) =
      (s.takeEvents add events).bind fun s' => s'.takeEvents add later := by
  induction events generalizing s with
  | nil => rfl
  | cons evt events ih =>
    simp only [List.cons_append, takeEvents]
    cases s.takeEvent add evt with
    | none => rfl
    | some s' => exact ih

theorem takeEvent_transparent (h : evt.2.isTransparent = true) :
    s.takeEvent add evt = some s := by
  unfold StreamEvent.isTransparent at h
  unfold takeEvent
  split at h
  · rename_i htype
    simp only [htype]
  · rename_i htype
    have hempty : deltaTextFromPayload evt.2.payload = "" := by
      simpa [StreamEvent.textOf] using h
    simp only [htype, hempty, messageDelta_empty]
  · rename_i htype
    simp only [htype]
  · cases h

theorem takeEvent_messageDelta (h : evt.2.eventType = .messageDelta) :
    s.takeEvent add evt = some (s.messageDelta evt.1 evt.2.textOf) := by
  unfold takeEvent
  simp only [h]
  rfl

theorem takeEvents_run {group : List (τ × StreamEvent)}
    (hgroup : ∀ c ∈ group, (c.2.isTransparent || c.2.eventType == .messageDelta) = true)
    (timestamp : τ) (htext : text ≠ "") :
    (s.messageDelta timestamp text).takeEvents add group = some (s.messageDelta timestamp
      (text ++ String.join ((group.filter fun c => !c.2.isTransparent).map
        fun c => c.2.textOf))) := by
  induction group generalizing text with
  | nil => simp [takeEvents]
  | cons evt group ih =>
    have hrest := fun c hc => hgroup c (List.mem_cons_of_mem evt hc)
    cases htransparent : evt.2.isTransparent with
    | true =>
      rw [takeEvents, takeEvent_transparent htransparent, Option.bind_some, ih hrest htext]
      simp [htransparent]
    | false =>
      have htype : evt.2.eventType = .messageDelta := by
        simpa [htransparent] using hgroup evt List.mem_cons_self
      have hne : text ++ evt.2.textOf ≠ "" := by
        intro happ
        exact htext (String.append_eq_empty_iff.mp happ).1
      rw [takeEvents, takeEvent_messageDelta htype, Option.bind_some,
        messageDelta_append _ _ _ htext, ih hrest hne]
      simp [htransparent, String.append_assoc]

/-- The loop of the compaction and the loop of the assembly cut the text in the same places,
as long as no thinking has to be merged. -/
theorem takeEvents_compactLoop {n : ℕ} {rows : List (τ × StreamEvent)} (hn : rows.length ≤ n)
    (hthinking : ∀ r ∈ rows, r.2.eventType ≠ .thinkingDelta) :
    s.takeEvents add (compactLoop n rows) = s.takeEvents add rows := by
  induction n generalizing rows s with
  | zero => rw [List.length_eq_zero_iff.mp (Nat.le_zero.mp hn)]; rfl
  | succ n ih =>
    cases rows with
    | nil => rfl
    | cons row rest =>
      have hlen : rest.length ≤ n := Nat.le_of_succ_le_succ hn
      have hrest := fun r hr => hthinking r (List.mem_cons_of_mem row hr)
      simp only [compactLoop]
      split_ifs with hdelta htransparent
      · simp only [takeEvents]
        cases s.takeEvent add row with
        | none => rfl
        | some s' => exact ih hlen hrest
      · rw [takeEvents, takeEvent_transparent htransparent, Option.bind_some, ih hlen hrest]
      · obtain ⟨htype, hne⟩ := visible_delta (by simpa using hdelta) (by simpa using htransparent)
        have htext := htype.resolve_right (hthinking row List.mem_cons_self)
        set inRun := fun c : τ × StreamEvent =>
          c.2.isTransparent || c.2.eventType == row.2.eventType
        have hgroup : ∀ c ∈ rest.takeWhile inRun,
            (c.2.isTransparent || c.2.eventType == .messageDelta) = true := by
          intro c hc
          have hin := List.mem_takeWhile_imp hc
          simpa [inRun, htext] using hin
        have hafter : (rest.dropWhile inRun).length ≤ n :=
          (List.length_dropWhile_le _ _).trans hlen
        have hdropped := fun r hr => hrest r ((List.dropWhile_sublist inRun).subset hr)
        have hsplit : rest = rest.takeWhile inRun ++ rest.dropWhile inRun :=
          (List.takeWhile_append_dropWhile).symm
        calc s.takeEvents add (mergeRun row (rest.takeWhile inRun) (rest.dropWhile inRun).head? ++
              compactLoop n (rest.dropWhile inRun))
            = (s.messageDelta row.1 (row.2.textOf ++ String.join
                (((rest.takeWhile inRun).filter fun c => !c.2.isTransparent).map
                  fun c => c.2.textOf))).takeEvents add (compactLoop n (rest.dropWhile inRun)) := by
              rw [takeEvents_append, mergeRun, if_pos htext, takeEvents,
                takeEvent_messageDelta rfl, Option.bind_some, takeEvents, Option.bind_some,
                textOf_delta _ ⟨.messageDelta, [("delta", .str _)]⟩ rfl, String.join_cons]
          _ = (s.messageDelta row.1 (row.2.textOf ++ String.join
                (((rest.takeWhile inRun).filter fun c => !c.2.isTransparent).map
                  fun c => c.2.textOf))).takeEvents add (rest.dropWhile inRun) :=
              ih hafter hdropped
          _ = s.takeEvents add (row :: rest) := by
              conv_rhs => rw [hsplit]
              rw [takeEvents, takeEvent_messageDelta htext, Option.bind_some, takeEvents_append,
                takeEvents_run hgroup row.1 hne, Option.bind_some]

end AssemblyState

section Compaction

variable (add : Json → Json → Json) (createdAt : RowKey → τ) (msg : MessageRecord τ)

/-- What `get_messages_with_events` returns for the message `m`. -/
def renderMessage (rows : List EventRow) (m : Nat) : Option (RenderedMessage τ) :=
  assembleMessage add msg ((orderedRows rows m).map (Prod.map createdAt id))

end Compaction

def splitReply : List EventRow :=
  [(⟨0, 1, 1⟩, ⟨.messageDelta, [("delta", .str "a")]⟩), (⟨0, 2, 2⟩, ⟨.toolCallDelta, []⟩),
    (⟨0, 3, 3⟩, ⟨.messageDelta, [("text", .str "b")]⟩)]

end WittyService
