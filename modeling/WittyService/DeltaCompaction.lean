import Mathlib.Data.List.TakeWhile
import WittyService.MessageEvents

/-! What `compact_message_delta_events` makes of the runs of deltas of one message, whatever the
other columns `β` of a row are. -/
namespace WittyService

variable {β : Type*}

/-- A run of text deltas is kept as its first row and the parts of its text, a run of
thinking deltas as its first row, the later ones and whether the next event covers it.
Rows that are not visible belong to no segment. -/
inductive DeltaSegment (β : Type*) where
  | other (row : β × StreamEvent)
  | text (key : β) (parts : List String)
  | thinking (row : β × StreamEvent) (later : List (β × StreamEvent)) (covered : Bool)

def runText (row : β × StreamEvent) (later : List (β × StreamEvent)) : String :=
  String.join (row.2.textOf :: later.map fun item => item.2.textOf)

def segmentLoop : ℕ → List (β × StreamEvent) → List (DeltaSegment β)
  | 0, _ => []
  | _ + 1, [] => []
  | n + 1, row :: rest =>
    if !row.2.eventType.isDelta then .other row :: segmentLoop n rest
    else if row.2.isTransparent then segmentLoop n rest
    else
      let inRun := fun c : β × StreamEvent =>
        c.2.isTransparent || c.2.eventType == row.2.eventType
      let later := (rest.takeWhile inRun).filter fun item => !item.2.isTransparent
      let after := rest.dropWhile inRun
      (if row.2.eventType = .messageDelta then
          .text row.1 (row.2.textOf :: later.map fun item => item.2.textOf)
        else .thinking row later (thinkingCovered (runText row later) after.head?)) ::
        segmentLoop n after

def segments (rows : List (β × StreamEvent)) : List (DeltaSegment β) :=
  segmentLoop rows.length rows

namespace DeltaSegment

def compacted : DeltaSegment β → List (β × StreamEvent)
  | .other row => [row]
  | .text key parts => [(key, ⟨.messageDelta, [("delta", .str (String.join parts))]⟩)]
  | .thinking row later covered =>
    if covered then [] else (row.1, ⟨.thinking, [("thinking", .str (runText row later))]⟩) :: later

/-- The rows a segment is meant to become: a run is one row, or none when it is covered. -/
def complete : DeltaSegment β → List (β × StreamEvent)
  | .thinking row later false => [(row.1, ⟨.thinking, [("thinking", .str (runText row later))]⟩)]
  | segment => segment.compacted

def Single : DeltaSegment β → Prop
  | .thinking _ later false => later = []
  | _ => True

end DeltaSegment

/-- No delta of thinking or of tool arguments is left, every run has become what it should,
and a second compaction changes no row. -/
structure CompactionComplete (rows : List (β × StreamEvent)) : Prop where
  noDelta : ∀ r ∈ compactRows rows,
    r.2.eventType ≠ .thinkingDelta ∧ r.2.eventType ≠ .toolCallDelta
  runs : compactRows rows = (segments rows).flatMap DeltaSegment.complete
  again : compactRows (compactRows rows) = compactRows rows

theorem mergeRun_eq_compacted (row : β × StreamEvent) (group : List (β × StreamEvent))
    (following : Option (β × StreamEvent)) :
    mergeRun row group following = DeltaSegment.compacted
      (if row.2.eventType = .messageDelta then
        .text row.1 (row.2.textOf :: (group.filter fun item => !item.2.isTransparent).map
          fun item => item.2.textOf)
      else .thinking row (group.filter fun item => !item.2.isTransparent)
        (thinkingCovered (runText row (group.filter fun item => !item.2.isTransparent))
          following)) := by
  unfold mergeRun
  dsimp only
  split_ifs with htext hcovered
  · rfl
  · exact (if_pos hcovered).symm
  · exact (if_neg hcovered).symm

theorem compactLoop_eq_segments (n : ℕ) (rows : List (β × StreamEvent)) :
    compactLoop n rows = (segmentLoop n rows).flatMap DeltaSegment.compacted := by
  induction n generalizing rows with
  | zero => rfl
  | succ n ih =>
    cases rows with
    | nil => rfl
    | cons row rest =>
      simp only [compactLoop, segmentLoop]
      split_ifs with hdelta htransparent htext
      · rw [List.flatMap_cons, ih]
        rfl
      · exact ih rest
      · rw [List.flatMap_cons, ih, mergeRun_eq_compacted, if_pos htext]
      · rw [List.flatMap_cons, ih, mergeRun_eq_compacted, if_neg htext]

theorem compactRows_eq_segments (rows : List (β × StreamEvent)) :
    compactRows rows = (segments rows).flatMap DeltaSegment.compacted :=
  compactLoop_eq_segments _ rows

variable {e : StreamEvent} {n : ℕ} {rows : List (β × StreamEvent)}

theorem isDelta_of_isTransparent (h : e.isTransparent = true) :
    e.eventType.isDelta = true := by
  unfold StreamEvent.isTransparent at h
  unfold EventType.isDelta
  split at h <;> simp_all

theorem visible_delta (hdelta : e.eventType.isDelta = true) (hvisible : e.isTransparent = false) :
    (e.eventType = .messageDelta ∨ e.eventType = .thinkingDelta) ∧ e.textOf ≠ "" := by
  unfold EventType.isDelta at hdelta
  unfold StreamEvent.isTransparent at hvisible
  split at hdelta <;> simp_all

section

variable {n : ℕ} {rows : List (β × StreamEvent)}

variable {row : β × StreamEvent}

theorem later_of_thinking {later : List (β × StreamEvent)} {covered : Bool}
    (h : DeltaSegment.thinking row later covered ∈ segmentLoop n rows) :
    ∀ r ∈ later, r.2.eventType = .thinkingDelta := by
  induction n generalizing rows with
  | zero => cases h
  | succ n ih =>
    cases rows with
    | nil => cases h
    | cons first rest =>
      simp only [segmentLoop] at h
      split_ifs at h with hdelta htransparent htext
      · rcases List.mem_cons.mp h with heq | hmem
        · cases heq
        · exact ih hmem
      · exact ih h
      · rcases List.mem_cons.mp h with heq | hmem
        · cases heq
        · exact ih hmem
      · rcases List.mem_cons.mp h with heq | hmem
        · cases heq
          intro r hr
          obtain ⟨hin, hvisible⟩ := List.mem_filter.mp hr
          have hsame := List.mem_takeWhile_imp hin
          have hthinking := (visible_delta (by simpa using hdelta)
            (by simpa using htransparent)).1.resolve_left htext
          simp only [Bool.not_eq_true'] at hvisible
          rw [hvisible, Bool.false_or, beq_iff_eq] at hsame
          rw [hsame, hthinking]
        · exact ih hmem

/-- A segment left complete has no delta of thinking or tool arguments, and only one left
complete is what it should be. -/
theorem compacted_noDelta_iff {s : DeltaSegment β} (hs : s ∈ segmentLoop n rows)
    (hother : ∀ row, s = .other row → row.2.eventType.isDelta = false) :
    (∀ r ∈ s.compacted, r.2.eventType ≠ .thinkingDelta ∧ r.2.eventType ≠ .toolCallDelta) ↔
      s.Single := by
  cases s with
  | other row =>
    have hrow := hother row rfl
    refine iff_of_true (fun r hr => ?_) trivial
    rw [List.mem_singleton.mp hr]
    constructor <;> intro htype <;> rw [htype] at hrow <;> cases hrow
  | text key parts =>
    refine iff_of_true (fun r hr => ?_) trivial
    rw [List.mem_singleton.mp hr]
    exact ⟨nofun, nofun⟩
  | thinking row later covered =>
    cases covered with
    | true => exact iff_of_true (fun r hr => absurd hr List.not_mem_nil) trivial
    | false =>
      have hlater := later_of_thinking hs
      constructor
      · intro h
        apply List.eq_nil_iff_forall_not_mem.mpr
        intro r hr
        exact (h r (List.mem_cons_of_mem _ hr)).1 (hlater r hr)
      · intro hsingle r hr
        have hnil : later = [] := hsingle
        simp only [DeltaSegment.compacted, Bool.false_eq_true, if_false, hnil,
          List.mem_singleton] at hr
        rw [hr]
        exact ⟨nofun, nofun⟩

theorem other_of_segments
    (h : DeltaSegment.other row ∈ segmentLoop n rows) : row.2.eventType.isDelta = false := by
  induction n generalizing rows with
  | zero => cases h
  | succ n ih =>
    cases rows with
    | nil => cases h
    | cons first rest =>
      simp only [segmentLoop] at h
      split_ifs at h with hdelta htransparent htext
      · rcases List.mem_cons.mp h with heq | hmem
        · cases heq
          simpa using hdelta
        · exact ih hmem
      · exact ih h
      · exact ih ((List.mem_cons.mp h).resolve_left (by simp))
      · exact ih ((List.mem_cons.mp h).resolve_left (by simp))

end

theorem complete_of_single {s : DeltaSegment β} (h : s.Single) : s.complete = s.compacted := by
  cases s with
  | thinking row later covered =>
    cases covered with
    | true => rfl
    | false =>
      have hnil : later = [] := h
      simp [DeltaSegment.complete, DeltaSegment.compacted, hnil]
  | _ => rfl

/-- The row is no delta, or one text delta as compaction writes it. -/
def SettledRow (r : β × StreamEvent) : Prop :=
  r.2.eventType.isDelta = false ∨
    r.2.eventType = .messageDelta ∧ ∃ text, text ≠ "" ∧ r.2.payload = [("delta", .str text)]

def SettledRows : List (β × StreamEvent) → Prop
  | [] => True
  | r :: rest => SettledRow r ∧ SettledRows rest ∧
    (r.2.eventType = .messageDelta → ∀ f ∈ rest.head?, f.2.eventType ≠ .messageDelta)

theorem textOf_delta (text : String) (e : StreamEvent)
    (h : e.payload = [("delta", .str text)]) : e.textOf = text := by
  by_cases hempty : text = "" <;>
    simp [StreamEvent.textOf, deltaTextFromPayload, h, Dict.get, Json.nonemptyStr, hempty]

theorem settled_ends_run {r : β × StreamEvent} (h : SettledRow r)
    (hne : r.2.eventType ≠ .messageDelta) :
    (r.2.isTransparent || r.2.eventType == .messageDelta) = false := by
  rcases h with hdelta | ⟨hdelta, -⟩
  · have hvisible : r.2.isTransparent = false := by
      by_contra htransparent
      rw [isDelta_of_isTransparent (by simpa using htransparent)] at hdelta
      cases hdelta
    simp [hvisible, hne]
  · exact absurd hdelta hne

theorem compactLoop_settled (h : SettledRows rows)
    (hn : rows.length ≤ n) : compactLoop n rows = rows := by
  induction n generalizing rows with
  | zero =>
    rw [List.length_eq_zero_iff.mp (Nat.le_zero.mp hn)]
    rfl
  | succ n ih =>
    cases rows with
    | nil => rfl
    | cons row rest =>
      obtain ⟨hrow, hrest, hneighbour⟩ := h
      have hloop := ih hrest (Nat.le_of_succ_le_succ hn)
      rcases hrow with hdelta | ⟨htype, text, hne, hpayload⟩
      · simp [compactLoop, hdelta, hloop]
      · have htext : row.2.textOf = text := textOf_delta text row.2 hpayload
        have hvisible : row.2.isTransparent = false := by
          simp [StreamEvent.isTransparent, htype, htext, hne]
        have htake : rest.takeWhile (fun c => c.2.isTransparent || c.2.eventType ==
            EventType.messageDelta) = [] := by
          cases rest with
          | nil => rfl
          | cons f later =>
            simp [settled_ends_run hrest.1 (hneighbour htype f rfl)]
        have hdrop : rest.dropWhile (fun c => c.2.isTransparent || c.2.eventType ==
            EventType.messageDelta) = rest := by
          have hsplit := List.takeWhile_append_dropWhile (l := rest)
            (p := fun c => c.2.isTransparent || c.2.eventType == EventType.messageDelta)
          rwa [htake, List.nil_append] at hsplit
        have hevent : row.2 = ⟨.messageDelta, [("delta", .str text)]⟩ := by
          rw [← htype, ← hpayload]
        simp only [compactLoop, htype, EventType.isDelta, Bool.not_true, Bool.false_eq_true,
          if_false, hvisible, htake, hdrop, hloop, mergeRun, List.filter_nil, List.map_nil,
          htext, if_true, List.singleton_append]
        rw [show String.join [text] = text by simp, ← hevent]

theorem head_dropWhile {p : β × StreamEvent → Bool} {rest : List (β × StreamEvent)}
    {f : β × StreamEvent} (h : f ∈ (rest.dropWhile p).head?) : p f = false := by
  have hne : rest.dropWhile p ≠ [] := by
    rintro hnil
    rw [hnil] at h
    cases h
  have hhead := List.head_dropWhile_not p hne
  rw [List.head?_eq_some_head hne] at h
  cases h
  exact hhead

theorem compactLoop_head (hn : rows.length ≤ n)
    (h : ∀ f ∈ rows.head?, (f.2.isTransparent || f.2.eventType == .messageDelta) = false) :
    ∀ f ∈ (compactLoop n rows).head?, f.2.eventType ≠ .messageDelta := by
  cases n with
  | zero => exact fun f hf => absurd hf (by simp [compactLoop])
  | succ n =>
    cases rows with
    | nil => exact fun f hf => absurd hf (by simp [compactLoop])
    | cons row rest =>
      have hrow := h row rfl
      simp only [Bool.or_eq_false_iff, beq_eq_false_iff_ne] at hrow
      obtain ⟨hvisible, htype⟩ := hrow
      simp only [compactLoop, hvisible, Bool.false_eq_true, if_false]
      split_ifs with hdelta
      · rintro f ⟨⟩
        exact htype
      · rw [mergeRun]
        rw [if_neg htype]
        split_ifs with hcovered
        · -- a covered run goes, and the full thinking event behind it comes first
          set after := rest.dropWhile fun c => c.2.isTransparent || c.2.eventType == row.2.eventType
          have hlen : after.length ≤ n :=
            (List.length_dropWhile_le _ _).trans (Nat.le_of_succ_le_succ hn)
          cases hafter : after with
          | nil =>
            rw [hafter] at hcovered
            cases hcovered
          | cons f later =>
            rw [hafter] at hcovered hlen
            simp only [List.head?_cons, thinkingCovered, Bool.and_eq_true, beq_iff_eq] at hcovered
            cases n with
            | zero => cases hlen
            | succ n =>
              have hkept : f.2.eventType.isDelta = false := by rw [hcovered.1]; rfl
              rw [List.nil_append, compactLoop, hkept]
              rintro g ⟨⟩
              rw [hcovered.1]
              rintro ⟨⟩
        · rintro f ⟨⟩
          rintro ⟨⟩

theorem join_ne_empty {text : String} {texts : List String} (h : text ≠ "") :
    String.join (text :: texts) ≠ "" := by
  intro hjoin
  rw [String.join_cons, String.append_eq_empty_iff] at hjoin
  exact h hjoin.1

theorem settled_compactLoop (hn : rows.length ≤ n)
    (h : ∀ s ∈ segmentLoop n rows, s.Single) : SettledRows (compactLoop n rows) := by
  induction n generalizing rows with
  | zero => trivial
  | succ n ih =>
    cases rows with
    | nil => trivial
    | cons row rest =>
      have hrest : rest.length ≤ n := Nat.le_of_succ_le_succ hn
      simp only [compactLoop]
      simp only [segmentLoop] at h
      split_ifs at h ⊢ with hdelta htransparent htext
      · have hother : row.2.eventType.isDelta = false := by simpa using hdelta
        refine ⟨.inl hother, ih hrest fun s hs => h s (List.mem_cons_of_mem _ hs), ?_⟩
        intro htype
        rw [htype] at hother
        cases hother
      · exact ih hrest h
      · have hafter := (List.length_dropWhile_le (fun c => c.2.isTransparent ||
          c.2.eventType == row.2.eventType) rest).trans hrest
        rw [mergeRun_eq_compacted, if_pos htext]
        refine ⟨.inr ⟨rfl, _, join_ne_empty ?_, rfl⟩,
          ih hafter fun s hs => h s (List.mem_cons_of_mem _ hs), fun _ => ?_⟩
        · exact (visible_delta (by simpa using hdelta) (by simpa using htransparent)).2
        · refine compactLoop_head hafter fun f hf => ?_
          have hend := head_dropWhile hf
          rwa [htext] at hend
      · have hafter := (List.length_dropWhile_le (fun c => c.2.isTransparent ||
          c.2.eventType == row.2.eventType) rest).trans hrest
        have hloop := ih hafter fun s hs => h s (List.mem_cons_of_mem _ hs)
        rw [mergeRun_eq_compacted, if_neg htext]
        have hsingle := h _ List.mem_cons_self
        rw [← complete_of_single hsingle]
        cases hcovered : thinkingCovered _ _ with
        | true => exact hloop
        | false => exact ⟨.inl rfl, hloop, (by rintro ⟨⟩)⟩

/-- Compaction leaves nothing to be done again if and only if every uncovered run of thinking
is a single delta. -/
theorem compaction_complete_iff (rows : List (β × StreamEvent)) :
    CompactionComplete rows ↔ ∀ s ∈ segments rows, s.Single := by
  constructor
  · intro h s hs
    refine (compacted_noDelta_iff hs fun row heq => other_of_segments (heq ▸ hs)).mp ?_
    intro r hr
    apply h.noDelta r
    rw [compactRows_eq_segments]
    exact List.mem_flatMap.mpr ⟨s, hs, hr⟩
  · intro h
    refine ⟨fun r hr => ?_, ?_, ?_⟩
    · rw [compactRows_eq_segments] at hr
      obtain ⟨s, hs, hr⟩ := List.mem_flatMap.mp hr
      exact (compacted_noDelta_iff hs fun row heq => other_of_segments (heq ▸ hs)).mpr (h s hs) r hr
    · rw [compactRows_eq_segments]
      exact List.flatMap_congr fun s hs => (complete_of_single (h s hs)).symm
    · exact compactLoop_settled (settled_compactLoop (Nat.le_refl _) h) (Nat.le_refl _)

def uncoveredThoughts : List (Nat × StreamEvent) :=
  [(1, ⟨.thinkingDelta, [("delta", .str "a")]⟩), (2, ⟨.thinkingDelta, [("delta", .str "b")]⟩)]

/-- The second delta stays, and the next compaction makes it a thinking event of its own. -/
theorem uncovered_thoughts_stay :
    ¬ ∀ rows : List (Nat × StreamEvent), CompactionComplete rows := by
  intro h
  have hnone := (h uncoveredThoughts).noDelta (2, ⟨.thinkingDelta, [("delta", .str "b")]⟩)
  exact (hnone (List.mem_cons_of_mem _ List.mem_cons_self)).1 rfl

end WittyService
