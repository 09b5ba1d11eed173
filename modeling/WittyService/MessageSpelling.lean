import Mathlib.Data.List.Induction
import Mathlib.Tactic.Tauto
import WittyService.MessageAssembly

/-! How the text of a message is spelled by the `message.delta` entries of its timeline: by the
segments where these match the stored content, by the content itself where they do not. -/
namespace WittyService

variable {τ : Type*}

/-- What the `message.delta` entries of a list of events say, one after the other. -/
def spelledText (events : List (EventItem τ)) : String :=
  String.join ((events.filter fun item => item.eventType = .messageDelta).map fun item =>
    match item.content with
    | some (.str text) => text
    | _ => "")

def StreamEvent.isText (e : StreamEvent) : Bool := e.eventType = .messageDelta && e.textOf != ""

def StreamEvent.isBoundary (e : StreamEvent) : Bool := !e.eventType.isDelta

def deltaText (events : List (τ × StreamEvent)) : String :=
  String.join ((events.filter fun evt => evt.2.isText).map fun evt => evt.2.textOf)

/-- Some text, another rendered event and more text follow each other. -/
def TextCut (events : List (τ × StreamEvent)) : Prop :=
  ∃ a b c, [a, b, c].Sublist events ∧ a.2.isText ∧ b.2.isBoundary ∧ c.2.isText

def TextStarted (events : List (τ × StreamEvent)) : Prop := ∃ a ∈ events, a.2.isText

def TextLeft (events : List (τ × StreamEvent)) : Prop :=
  ∃ a b, [a, b].Sublist events ∧ a.2.isText ∧ b.2.isBoundary

variable {α : Type*} {deltas : List (DeltaItem τ)} {content : String}

theorem sublist_snoc_iff {l events : List α} {x e : α} : (l ++ [x]).Sublist (events ++ [e]) ↔
      (l ++ [x]).Sublist events ∨ x = e ∧ l.Sublist events := by
  rw [← List.reverse_sublist, List.reverse_append, List.reverse_append, List.reverse_singleton,
    List.reverse_singleton, List.singleton_append, List.singleton_append, List.sublist_cons_iff]
  constructor
  · rintro (h | ⟨r, hr, h⟩)
    · left
      rwa [← List.reverse_sublist, List.reverse_append, List.reverse_singleton]
    · cases hr
      exact .inr ⟨rfl, List.reverse_sublist.mp h⟩
  · rintro (h | ⟨rfl, h⟩)
    · left
      rwa [← List.reverse_sublist, List.reverse_append, List.reverse_singleton] at h
    · exact .inr ⟨_, rfl, List.reverse_sublist.mpr h⟩

variable {events : List (τ × StreamEvent)} {e : τ × StreamEvent}

theorem textStarted_snoc : TextStarted (events ++ [e]) ↔ TextStarted events ∨ e.2.isText := by
  constructor
  · rintro ⟨a, ha, htext⟩
    rcases List.mem_append.mp ha with ha | ha
    · exact .inl ⟨a, ha, htext⟩
    · rw [List.mem_singleton.mp ha] at htext
      exact .inr htext
  · rintro (⟨a, ha, htext⟩ | htext)
    · exact ⟨a, List.mem_append_left _ ha, htext⟩
    · exact ⟨e, List.mem_append_right _ List.mem_cons_self, htext⟩

theorem textLeft_snoc :
    TextLeft (events ++ [e]) ↔ TextLeft events ∨ TextStarted events ∧ e.2.isBoundary := by
  constructor
  · rintro ⟨a, b, hsub, ha, hb⟩
    rcases (sublist_snoc_iff (l := [a])).mp hsub with hold | ⟨heq, hold⟩
    · exact .inl ⟨a, b, hold, ha, hb⟩
    · exact .inr ⟨⟨a, List.singleton_sublist.mp hold, ha⟩, heq ▸ hb⟩
  · rintro (⟨a, b, hsub, ha, hb⟩ | ⟨⟨a, ha, htext⟩, hb⟩)
    · exact ⟨a, b, hsub.trans (List.sublist_append_left _ _), ha, hb⟩
    · exact ⟨a, e, (sublist_snoc_iff (l := [a])).mpr
        (.inr ⟨rfl, List.singleton_sublist.mpr ha⟩), htext, hb⟩

theorem textCut_snoc :
    TextCut (events ++ [e]) ↔ TextCut events ∨ TextLeft events ∧ e.2.isText := by
  constructor
  · rintro ⟨a, b, c, hsub, ha, hb, hc⟩
    rcases (sublist_snoc_iff (l := [a, b])).mp hsub with hold | ⟨heq, hold⟩
    · exact .inl ⟨a, b, c, hold, ha, hb, hc⟩
    · exact .inr ⟨⟨a, b, hold, ha, hb⟩, heq ▸ hc⟩
  · rintro (⟨a, b, c, hsub, ha, hb, hc⟩ | ⟨⟨a, b, hsub, ha, hb⟩, hc⟩)
    · exact ⟨a, b, c, hsub.trans (List.sublist_append_left _ _), ha, hb, hc⟩
    · exact ⟨a, b, e, (sublist_snoc_iff (l := [a, b])).mpr (.inr ⟨rfl, hsub⟩), ha, hb, hc⟩

theorem deltaText_snoc : deltaText (events ++ [e]) =
    deltaText events ++ if e.2.isText then e.2.textOf else "" := by
  by_cases h : e.2.isText = true <;> simp [deltaText, h]

theorem isBoundary_not_text {e : StreamEvent} (h : e.isBoundary = true) : e.isText = false := by
  unfold StreamEvent.isBoundary at h
  unfold StreamEvent.isText
  by_contra htext
  have htype : e.eventType = .messageDelta := by
    by_contra hne
    simp [hne] at htext
  rw [htype] at h
  cases h

/-- An event other than a delta is appended as an entry of its type. -/
structure Appended (s s' : AssemblyState τ) (e : StreamEvent) : Prop where
  entries : ∃ item : EventItem τ, item.eventType = e.eventType ∧
    s'.eventItems = s.eventItems ++ [.item item]
  deltas : s'.deltaItems = s.deltaItems
  prev : s'.prevItemType = some e.eventType

namespace AssemblyState

variable {add : Json → Json → Json} {s s' : AssemblyState τ}

theorem appended_appendItem {s₀ : AssemblyState τ} {item : EventItem τ} {e : StreamEvent}
    (hitems : s₀.eventItems = s.eventItems) (hdeltas : s₀.deltaItems = s.deltaItems)
    (htype : item.eventType = e.eventType) : Appended s (s₀.appendItem item) e :=
  ⟨⟨item, htype, by rw [← hitems]; rfl⟩, hdeltas, congrArg some htype⟩

section

variable {payload : Dict} {item : EventItem τ} {e : StreamEvent}
  (hitem : item.eventType = e.eventType)
include hitem

theorem appended_toolCallStarted (h : s.toolCallStarted payload item = some s') :
    Appended s s' e := by
  simp only [toolCallStarted] at h
  split_ifs at h
  cases h
  exact appended_appendItem rfl rfl hitem

theorem appended_toolCallResponse (h : s.toolCallResponse payload item = some s') :
    Appended s s' e := by
  simp only [toolCallResponse] at h
  split at h
  · cases h
    exact appended_appendItem rfl rfl hitem
  · split at h
    · cases h
    · split at h
      · cases h
        exact appended_appendItem rfl rfl hitem
      · cases h
        exact appended_appendItem rfl rfl hitem

theorem appended_artifactEvent (h : s.artifactEvent payload item = some s') :
    Appended s s' e := by
  simp only [artifactEvent] at h
  split_ifs at h
  · cases h
    exact appended_appendItem rfl rfl hitem
  · cases h
    exact appended_appendItem rfl rfl hitem

theorem appended_sessionUsage : Appended s (s.sessionUsage add payload item) e := by
  simp only [sessionUsage]
  split_ifs
  · exact appended_appendItem rfl rfl hitem
  · exact appended_appendItem rfl rfl hitem

end

variable {e : τ × StreamEvent}

theorem appended_of_boundary (hb : e.2.isBoundary = true)
    (h : s.takeEvent add e = some s') : Appended s s' e.2 := by
  unfold takeEvent at h
  split at h
  · exact appended_toolCallStarted rfl h
  · exact appended_toolCallResponse rfl h
  · cases h
    exact appended_appendItem rfl rfl rfl
  · rename_i htype
    rw [StreamEvent.isBoundary, htype] at hb
    cases hb
  · rename_i htype
    rw [StreamEvent.isBoundary, htype] at hb
    cases hb
  · rename_i htype
    rw [StreamEvent.isBoundary, htype] at hb
    cases hb
  · cases h
    exact appended_sessionUsage rfl
  · cases h
    exact appended_appendItem rfl rfl rfl
  · cases h
    exact appended_appendItem rfl rfl rfl
  · cases h
    exact appended_appendItem rfl rfl rfl
  · cases h
    exact appended_appendItem rfl rfl rfl
  · cases h
    exact appended_appendItem rfl rfl rfl
  · exact appended_artifactEvent rfl h
  · exact appended_artifactEvent rfl h
  · exact appended_artifactEvent rfl h
  · cases h
    exact appended_appendItem rfl rfl rfl

theorem takeEvent_delta (hb : e.2.isBoundary = false) (h : s.takeEvent add e = some s') :
    s' = if e.2.isText then s.messageDelta e.1 e.2.textOf else s := by
  have hdelta : e.2.eventType.isDelta = true := by simpa [StreamEvent.isBoundary] using hb
  unfold takeEvent at h
  unfold EventType.isDelta at hdelta
  split at hdelta
  · rename_i htype
    simp only [htype, Option.some.injEq] at h
    rw [← h]
    by_cases hempty : e.2.textOf = ""
    · have hnone : deltaTextFromPayload e.2.payload = "" := hempty
      simp [StreamEvent.isText, htype, hempty, hnone, messageDelta]
    · simp [StreamEvent.isText, htype, hempty]
      rfl
  · rename_i htype
    simp only [htype, Option.some.injEq] at h
    simp [StreamEvent.isText, htype, h]
  · rename_i htype
    simp only [htype, Option.some.injEq] at h
    simp [StreamEvent.isText, htype, h]
  · cases hdelta

end AssemblyState

/-- The place in `delta_items` an entry refers to. -/
def TimelineEntry.segment : TimelineEntry τ → Option Nat
  | .delta index => some index
  | .item _ => none

/-- After some events: the timeline refers to every segment once and in order, the segments
spell the text of the deltas, and there is more than one where the text was cut. -/
structure Spelling (events : List (τ × StreamEvent)) (s : AssemblyState τ) : Prop where
  segments : s.eventItems.filterMap TimelineEntry.segment = List.range s.deltaItems.length
  items : ∀ item, .item item ∈ s.eventItems → item.eventType ≠ .messageDelta
  joined : joinedDeltas s.deltaItems = deltaText events
  filled : ∀ d ∈ s.deltaItems, d.content ≠ ""
  started : s.deltaItems ≠ [] ↔ TextStarted events
  left : TextLeft events ↔
    2 ≤ s.deltaItems.length ∨ s.deltaItems ≠ [] ∧ s.prevItemType ≠ some .messageDelta
  cut : TextCut events ↔ 2 ≤ s.deltaItems.length

theorem spelling_new : Spelling [] (AssemblyState.new : AssemblyState τ) := by
  constructor <;> simp [AssemblyState.new, joinedDeltas, deltaText, TextStarted, TextLeft, TextCut]

variable {add : Json → Json → Json} {s s' : AssemblyState τ}

theorem spelling_boundary (h : Spelling events s) (hb : e.2.isBoundary = true)
    (happ : Appended s s' e.2) : Spelling (events ++ [e]) s' := by
  obtain ⟨⟨item, htype, hitems⟩, hdeltas, hprev⟩ := happ
  have htext : e.2.isText = false := isBoundary_not_text hb
  have hne : e.2.eventType ≠ .messageDelta := by
    intro htype
    rw [StreamEvent.isBoundary, htype] at hb
    cases hb
  constructor
  · rw [hitems, hdeltas, List.filterMap_append, h.segments]
    simp [TimelineEntry.segment]
  · intro item' hmem
    rw [hitems] at hmem
    rcases List.mem_append.mp hmem with hmem | hmem
    · exact h.items item' hmem
    · cases List.mem_singleton.mp hmem
      rwa [htype]
  · rw [hdeltas, h.joined, deltaText_snoc, htext]
    simp
  · rw [hdeltas]
    exact h.filled
  · rw [hdeltas, h.started, textStarted_snoc, htext]
    simp
  · rw [textLeft_snoc, h.left, ← h.started, hdeltas, hprev, hb]
    simp only [ne_eq, Option.some.injEq, hne, not_false_eq_true, and_true]
    tauto
  · rw [textCut_snoc, htext, h.cut, hdeltas]
    simp

theorem spelling_hidden (h : Spelling events s) (hb : e.2.isBoundary = false)
    (htext : e.2.isText = false) : Spelling (events ++ [e]) s := by
  refine { h with joined := ?_, started := ?_, left := ?_, cut := ?_ }
  · rw [h.joined, deltaText_snoc, htext]
    simp
  · rw [h.started, textStarted_snoc, htext]
    simp
  · rw [textLeft_snoc, h.left, hb]
    simp
  · rw [textCut_snoc, htext, h.cut]
    simp

theorem joined_modify_last (hne : deltas ≠ []) (text : String) :
    joinedDeltas (deltas.modify (deltas.length - 1) fun tail =>
      { tail with content := tail.content ++ text }) = joinedDeltas deltas ++ text := by
  obtain ⟨init, d, rfl, hmodify⟩ := exists_modify_last hne
  rw [hmodify]
  simp [joinedDeltas, String.append_assoc]

section

variable (h : Spelling events s) (htext : e.2.isText = true)
include h htext

theorem spelling_grows (hne : e.2.textOf ≠ "") (hb : e.2.isBoundary = false)
    (hgo : s.prevItemType = some .messageDelta ∧ s.deltaItems ≠ []) :
    Spelling (events ++ [e]) (s.messageDelta e.1 e.2.textOf) := by
  have hstate : s.messageDelta e.1 e.2.textOf = { s with
      deltaItems := s.deltaItems.modify (s.deltaItems.length - 1) fun tail =>
        { tail with content := tail.content ++ e.2.textOf } } := by
    simp [AssemblyState.messageDelta, hne, hgo]
  have hlen : (s.messageDelta e.1 e.2.textOf).deltaItems.length = s.deltaItems.length := by
    rw [hstate]
    exact List.length_modify ..
  have hnonempty : (s.messageDelta e.1 e.2.textOf).deltaItems ≠ [] := by
    intro hnil
    rw [hnil] at hlen
    exact hgo.2 (List.length_eq_zero_iff.mp hlen.symm)
  constructor
  · rw [hlen, hstate]
    exact h.segments
  · rw [hstate]
    exact h.items
  · rw [hstate, deltaText_snoc, if_pos htext, ← h.joined]
    exact joined_modify_last hgo.2 _
  · rw [hstate]
    obtain ⟨init, d, hinit, hmodify⟩ := exists_modify_last hgo.2
    intro d' hd'
    rw [hmodify] at hd'
    rcases List.mem_append.mp hd' with hd' | hd'
    · exact h.filled d' (hinit ▸ List.mem_append_left _ hd')
    · rw [List.mem_singleton.mp hd']
      intro hempty
      exact hne (String.append_eq_empty_iff.mp hempty).2
  · rw [textStarted_snoc, htext]
    simp [hnonempty]
  · rw [hlen, textLeft_snoc, h.left, hb]
    have hprev : (s.messageDelta e.1 e.2.textOf).prevItemType = some .messageDelta := by
      rw [hstate]
      exact hgo.1
    simp [hprev, hgo.1]
  · rw [hlen, textCut_snoc, h.cut, h.left, hgo.1, htext]
    simp

theorem spelling_opens (hne : e.2.textOf ≠ "") (hb : e.2.isBoundary = false)
    (hgo : ¬ (s.prevItemType = some .messageDelta ∧ s.deltaItems ≠ [])) :
    Spelling (events ++ [e]) (s.messageDelta e.1 e.2.textOf) := by
  have hstate : s.messageDelta e.1 e.2.textOf = { s with
      deltaItems := s.deltaItems ++ [⟨e.1, e.2.textOf⟩]
      eventItems := s.eventItems ++ [.delta s.deltaItems.length]
      prevItemType := some .messageDelta } := by
    simp [AssemblyState.messageDelta, hne, hgo]
  rw [hstate]
  constructor
  · simp only [List.filterMap_append, h.segments, List.length_append, List.length_singleton,
      List.range_succ]
    rfl
  · intro item hmem
    refine h.items item ?_
    simpa using hmem
  · rw [deltaText_snoc, if_pos htext, ← h.joined]
    simp [joinedDeltas]
  · intro d hd
    rcases List.mem_append.mp hd with hd | hd
    · exact h.filled d hd
    · rw [List.mem_singleton.mp hd]
      exact hne
  · rw [textStarted_snoc, htext]
    simp
  · have hlen : (s.deltaItems ++ [DeltaItem.mk e.1 e.2.textOf]).length =
        s.deltaItems.length + 1 := by simp
    rw [textLeft_snoc, h.left, hb, hlen]
    simp only [← List.length_pos_iff_ne_nil] at hgo ⊢
    simp only [Bool.false_eq_true, and_false, or_false, ne_eq, not_true_eq_false]
    by_cases hprev : s.prevItemType = some .messageDelta
    · simp only [hprev, not_true_eq_false, and_false, or_false, true_and] at hgo ⊢
      omega
    · simp only [hprev, not_false_eq_true, and_true]
      omega
  · have hlen : (s.deltaItems ++ [DeltaItem.mk e.1 e.2.textOf]).length =
        s.deltaItems.length + 1 := by simp
    rw [textCut_snoc, h.cut, h.left, htext, hlen]
    simp only [← List.length_pos_iff_ne_nil] at hgo ⊢
    by_cases hprev : s.prevItemType = some .messageDelta
    · simp only [hprev, ne_eq, not_true_eq_false, and_false, or_false, and_true, true_and]
        at hgo ⊢
      omega
    · simp only [hprev, ne_eq, not_false_eq_true, and_true]
      omega

theorem spelling_text :
    Spelling (events ++ [e]) (s.messageDelta e.1 e.2.textOf) := by
  have hne : e.2.textOf ≠ "" := by
    intro hempty
    simp [StreamEvent.isText, hempty] at htext
  have hb : e.2.isBoundary = false := by
    by_contra hb
    rw [isBoundary_not_text (by simpa using hb)] at htext
    cases htext
  by_cases hgo : s.prevItemType = some .messageDelta ∧ s.deltaItems ≠ []
  · exact spelling_grows h htext hne hb hgo
  · exact spelling_opens h htext hne hb hgo

end

theorem spelling_takeEvent (h : Spelling events s) (hs : s.takeEvent add e = some s') :
    Spelling (events ++ [e]) s' := by
  cases hb : e.2.isBoundary with
  | true => exact spelling_boundary h hb (AssemblyState.appended_of_boundary hb hs)
  | false =>
    rw [AssemblyState.takeEvent_delta hb hs]
    cases htext : e.2.isText with
    | true => exact spelling_text h htext
    | false => exact spelling_hidden h hb htext

theorem spelling_takeEvents {later : List (τ × StreamEvent)} (h : Spelling events s)
    (hs : s.takeEvents add later = some s') : Spelling (events ++ later) s' := by
  induction later generalizing events s with
  | nil =>
    cases hs
    rwa [List.append_nil]
  | cons e later ih =>
    obtain ⟨t, ht, hs'⟩ := Option.bind_eq_some_iff.mp hs
    have hrest := ih (spelling_takeEvent h ht) hs'
    rwa [List.append_assoc, List.singleton_append] at hrest

theorem spelling_stopToolCalls (h : Spelling events s) (status : MessageStatus) :
    Spelling events (stopToolCalls status s) := by
  unfold stopToolCalls
  split_ifs
  · refine { h with segments := ?_, items := ?_ }
    · rw [← h.segments, List.filterMap_map]
      congr 1
      funext entry
      cases entry <;> rfl
    · intro item hmem
      obtain ⟨entry, hentry, heq⟩ := List.mem_map.mp hmem
      cases entry with
      | delta index => cases heq
      | item old =>
        cases heq
        exact h.items old hentry
  · exact h

theorem filterMap_getElem?_range {γ : Type*} (l : List α) (f : α → γ) :
    (List.range l.length).filterMap (fun i => (l[i]?).map f) = l.map f := by
  induction l using List.reverseRecOn with
  | nil => rfl
  | append_singleton l a ih =>
    have hold : (List.range l.length).filterMap (fun i => ((l ++ [a])[i]?).map f) =
        (List.range l.length).filterMap fun i => (l[i]?).map f := by
      refine List.filterMap_congr fun i hi => ?_
      rw [List.getElem?_append_left (List.mem_range.mp hi)]
    rw [List.length_append, List.length_singleton, List.range_succ, List.filterMap_append, hold, ih]
    simp

theorem filter_entries {entries : List (TimelineEntry τ)} (deltas : List (DeltaItem τ))
    (h : ∀ item, .item item ∈ entries → item.eventType ≠ .messageDelta) :
    (entries.filterMap (TimelineEntry.resolve deltas)).filter
        (fun item => item.eventType = .messageDelta) =
      (entries.filterMap TimelineEntry.segment).filterMap fun i =>
        (deltas[i]?).map DeltaItem.toItem := by
  induction entries with
  | nil => rfl
  | cons entry entries ih =>
    have hrest := ih fun item hmem => h item (List.mem_cons_of_mem entry hmem)
    cases entry with
    | item item =>
      have hne := h item List.mem_cons_self
      simp only [List.filterMap_cons, TimelineEntry.segment, TimelineEntry.resolve]
      rw [List.filter_cons_of_neg (by simpa using hne)]
      exact hrest
    | delta index =>
      simp only [List.filterMap_cons, TimelineEntry.segment, TimelineEntry.resolve]
      cases deltas[index]? with
      | none => exact hrest
      | some d =>
        rw [Option.map_some, List.filter_cons_of_pos (by rfl)]
        exact congrArg _ hrest

theorem spelled_timeline
    (hsegments : s.eventItems.filterMap TimelineEntry.segment = List.range s.deltaItems.length)
    (hitems : ∀ item, .item item ∈ s.eventItems → item.eventType ≠ .messageDelta) :
    spelledText (timeline s) = joinedDeltas s.deltaItems := by
  unfold spelledText timeline
  rw [filter_entries s.deltaItems hitems, hsegments, filterMap_getElem?_range, List.map_map]
  rfl

theorem spelled_modify (h : Spelling events s) (i : ℕ) (f : DeltaItem τ → DeltaItem τ) :
    spelledText (timeline { s with deltaItems := s.deltaItems.modify i f }) =
      joinedDeltas (s.deltaItems.modify i f) :=
  spelled_timeline (by simpa only [List.length_modify] using h.segments) h.items

theorem drop_prefix {joined : String} (h : joined.toList <+: content.toList) :
    joined ++ String.ofList (content.toList.drop joined.toList.length) = content := by
  obtain ⟨rest, hrest⟩ := h
  rw [← String.toList_inj, String.toList_append, String.toList_ofList, ← hrest,
    List.drop_left]

theorem spelled_fallback (items : List (EventItem τ)) (d : DeltaItem τ)
    (h : spelledText items = "") : spelledText (items ++ [d.toItem]) = d.content := by
  unfold spelledText at h ⊢
  rw [List.filter_append, List.map_append, String.join_append, h]
  simp [DeltaItem.toItem, EventItem.bare]

theorem joined_last_iff (hne : deltas ≠ [])
    (hfilled : ∀ d ∈ deltas, d.content ≠ "") (content : String) :
    joinedDeltas (deltas.modify (deltas.length - 1) fun tail =>
      { tail with content := content }) = content ↔ deltas.length < 2 := by
  obtain ⟨init, d, rfl, hmodify⟩ := exists_modify_last hne
  rw [hmodify]
  cases init with
  | nil => simp [joinedDeltas]
  | cons first init =>
    have hfirst := hfilled first List.mem_cons_self
    refine iff_of_false (fun heq => hfirst ?_) (by simp)
    have hlen := congrArg String.length heq
    simp only [joinedDeltas, List.cons_append, List.map_cons, List.map_append, List.map_nil,
      String.join_cons, String.join_append, String.length_append, String.join_nil,
      String.length_empty] at hlen
    have hzero : first.content.length = 0 := by omega
    exact String.length_eq_zero_iff.mp hzero

theorem spelled_events {r : RenderedMessage τ} {msg : MessageRecord τ}
    (h : assembleMessage add msg events = some r) :
    ∃ s : AssemblyState τ, Spelling events s ∧
      r.events = timeline (reconcile msg.content s) ++
        if (reconcile msg.content s).deltaItems = [] ∧ msg.content ≠ "" then
          [(DeltaItem.mk msg.createdAt msg.content).toItem] else [] := by
  obtain ⟨s, hs, hr⟩ := Option.map_eq_some_iff.mp h
  have hspelling := spelling_takeEvents spelling_new hs
  rw [List.nil_append] at hspelling
  refine ⟨stopToolCalls msg.status s, spelling_stopToolCalls hspelling msg.status, ?_⟩
  rw [← hr]

theorem spelled_reconcile (h : Spelling events s) (hcontent : content ≠ "")
    (hdeltas : s.deltaItems ≠ []) :
    ((reconcile content s).deltaItems = [] ∧ spelledText (timeline (reconcile content s)) = "" ∧
        ¬ deltaText events = content ∧ ¬ (deltaText events).toList <+: content.toList) ∨
      ((reconcile content s).deltaItems ≠ [] ∧
        (spelledText (timeline (reconcile content s)) = content ↔
          (deltaText events ≠ content → s.deltaItems.length < 2)) ∧
        (deltaText events).toList <+: content.toList) := by
  have hjoined : joinedDeltas s.deltaItems ≠ "" := by
    obtain ⟨init, d, heq, -⟩ := exists_modify_last hdeltas
    have hd := h.filled d (heq ▸ List.mem_append_right _ List.mem_cons_self)
    rw [heq]
    simp [joinedDeltas, hd]
  rw [← h.joined]
  unfold reconcile
  by_cases hsame : joinedDeltas s.deltaItems = content
  · rw [if_neg fun hmismatch => hmismatch.2.2 hsame]
    refine .inr ⟨hdeltas, iff_of_true ?_ fun hne => absurd hsame hne, hsame ▸ List.prefix_rfl⟩
    rw [spelled_timeline h.segments h.items, hsame]
  · rw [if_pos ⟨hdeltas, hcontent, hsame⟩]
    by_cases hprefix : (joinedDeltas s.deltaItems).toList <+: content.toList
    · rw [if_pos ⟨hjoined, hprefix⟩, drop_prefix hprefix]
      refine .inr ⟨fun hnil => ?_, ?_, hprefix⟩
      · have hlen := congrArg List.length hnil
        rw [List.length_modify] at hlen
        exact hdeltas (List.length_eq_zero_iff.mp hlen)
      · have hspelled := spelled_modify h (s.deltaItems.length - 1)
          fun tail => { tail with content := content }
        rw [hspelled, joined_last_iff hdeltas h.filled]
        exact ⟨fun hlt _ => hlt, fun himp => himp hsame⟩
    · rw [if_neg fun hboth => hprefix hboth.2]
      refine .inl ⟨rfl, ?_, hsame, hprefix⟩
      rw [spelled_timeline]
      · rfl
      · refine List.filterMap_eq_nil_iff.mpr fun entry hentry => ?_
        cases entry with
        | delta index => simp [TimelineEntry.isMessageDelta] at hentry
        | item item => rfl
      · exact fun item hmem => h.items item (List.mem_filter.mp hmem).1

/-- The timeline spells the content if and only if no missing tail has to be completed in the
last of several segments. -/
theorem spelled_iff (add : Json → Json → Json) {r : RenderedMessage τ} {msg : MessageRecord τ}
    (h : assembleMessage add msg events = some r) (hcontent : msg.content ≠ "") :
    spelledText r.events = msg.content ↔
      ¬ (TextCut events ∧ deltaText events ≠ msg.content ∧
        (deltaText events).toList <+: msg.content.toList) := by
  obtain ⟨s, hs, hevents⟩ := spelled_events h
  rw [hevents, hs.cut]
  by_cases hdeltas : s.deltaItems = []
  · have hreconcile : reconcile msg.content s = s := by
      unfold reconcile
      rw [if_neg fun hmismatch => hmismatch.1 hdeltas]
    have hempty : spelledText (timeline s) = "" := by
      rw [spelled_timeline hs.segments hs.items, hdeltas]
      rfl
    rw [hreconcile, if_pos ⟨hdeltas, hcontent⟩, spelled_fallback _ _ hempty]
    refine iff_of_true rfl fun hlast => ?_
    rw [hdeltas] at hlast
    exact absurd hlast.1 (by simp)
  · rcases spelled_reconcile hs hcontent hdeltas with ⟨hnil, hempty, -, hprefix⟩ |
      ⟨hne, hiff, hprefix⟩
    · rw [if_pos ⟨hnil, hcontent⟩, spelled_fallback _ _ hempty]
      exact iff_of_true rfl fun hlast => hprefix hlast.2.2
    · rw [if_neg fun hnil => hne hnil.1, List.append_nil, hiff]
      constructor
      · rintro hlt ⟨htwo, hdiffer, -⟩
        exact absurd (hlt hdiffer) (by omega)
      · intro hlast hdiffer
        by_contra htwo
        exact hlast ⟨by omega, hdiffer, hprefix⟩

def cutReply : List (Nat × StreamEvent) :=
  [(1, ⟨.messageDelta, [("delta", .str "a")]⟩), (2, ⟨.other "tool.call.started", []⟩),
    (3, ⟨.messageDelta, [("delta", .str "b")]⟩)]

def cutReplyMessage (content : String) : MessageRecord Nat :=
  ⟨"m", "assistant", content, .completed, 0⟩

theorem cut_reply_spelled :
    ∃ r, assembleMessage (fun a _ => a) (cutReplyMessage "ab") cutReply = some r ∧
      spelledText r.events = "ab" := by
  have hassembled : ∃ r, assembleMessage (fun a _ => a) (cutReplyMessage "ab") cutReply = some r :=
    ⟨_, rfl⟩
  obtain ⟨r, hr⟩ := hassembled
  exact ⟨r, hr, (spelled_iff _ hr (by decide)).mpr fun h => h.2.1 rfl⟩

/-- The first segment is said twice. -/
theorem cut_reply_repeats :
    ¬ ∀ (msg : MessageRecord Nat) (events : List (Nat × StreamEvent)) (r : RenderedMessage Nat),
      msg.content ≠ "" → assembleMessage (fun a _ => a) msg events = some r →
        spelledText r.events = msg.content := by
  intro h
  have hspelled := h (cutReplyMessage "abc") cutReply _ (by decide) rfl
  exact absurd hspelled (by decide)

end WittyService
