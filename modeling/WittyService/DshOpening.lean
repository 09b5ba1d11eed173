import WittyService.DshRuntime
import WittyService.UsageEmission

/-! A dsh turn before its end: what is put out for each mapped event, and what the notifications
have told so far. -/
namespace WittyService

namespace DshRuntime

variable {plus : NumberAdd} {parts : DshParts} {s : TurnState ToolNames DshTurn}
  {event : RuntimeTurnEvent} {raw : Notification} {names : ToolNames}

def missingStart (event : RuntimeTurnEvent) (t : DshTurn) : List RuntimeTurnEvent :=
  if event.type = .messageStarted ∨ t.startedEmitted then [] else [⟨.messageStarted, []⟩]

def missingMessage (event : RuntimeTurnEvent) (t : DshTurn) : List RuntimeTurnEvent :=
  if event.type = .turnCompleted ∧ t.completedEmitted = false ∧ endedByError event = false then
    [⟨.messageCompleted, [("text", .str t.accumulatedText)]⟩]
  else []

theorem onMappedEvent_events (event : RuntimeTurnEvent) (t : DshTurn) :
    (onMappedEvent event t).1 = missingStart event t ++ missingMessage event t ++ [event] := by
  cases herror : endedByError event <;> obtain ⟨type, payload⟩ := event <;>
    obtain ⟨text, started, completed, inputs⟩ := t <;> cases type <;> cases started <;>
    cases completed <;> simp [onMappedEvent, missingStart, missingMessage, herror]

theorem onMappedEvent_flags (event : RuntimeTurnEvent) (t : DshTurn) :
    (onMappedEvent event t).2.startedEmitted = true ∧
      ((onMappedEvent event t).2.completedEmitted = true ↔
        t.completedEmitted = true ∨ event.type = .messageCompleted ∨
          (event.type = .turnCompleted ∧ endedByError event = false)) := by
  cases herror : endedByError event <;> obtain ⟨type, payload⟩ := event <;>
    obtain ⟨text, started, completed, inputs⟩ := t <;> cases type <;> cases started <;>
    cases completed <;> simp [onMappedEvent, herror]

variable (parts) in
theorem onArtifactEvent_flags (event : RuntimeTurnEvent) (t : DshTurn) :
    (onArtifactEvent parts event t).2.startedEmitted = t.startedEmitted ∧
      (onArtifactEvent parts event t).2.completedEmitted = t.completedEmitted := by
  unfold onArtifactEvent
  split_ifs
  · exact ⟨rfl, rfl⟩
  · split
    · dsimp only
      split_ifs <;> exact ⟨rfl, rfl⟩
    · exact ⟨rfl, rfl⟩
    · exact ⟨rfl, rfl⟩

theorem onArtifactEvent_types (event : RuntimeTurnEvent) (t : DshTurn) :
    ∀ artifact ∈ (onArtifactEvent parts event t).1,
      (event.type = .toolCallStarted ∨ event.type = .toolCallResponse) ∧
        (artifact.type = .artifactStarted ∨ artifact.type = .artifactCompleted) := by
  unfold onArtifactEvent
  split_ifs
  · exact fun artifact h => absurd h List.not_mem_nil
  · split
    next htype =>
      intro artifact h
      obtain ⟨payload, -, rfl⟩ := List.mem_map.mp h
      exact ⟨.inl htype, .inl rfl⟩
    next htype =>
      intro artifact h
      obtain ⟨payload, -, rfl⟩ := List.mem_map.mp h
      exact ⟨.inr htype, .inr rfl⟩
    · exact fun artifact h => absurd h List.not_mem_nil

def outputs (parts : DshParts) (event : RuntimeTurnEvent) (t : DshTurn) : List RuntimeTurnEvent :=
  missingStart event t ++ missingMessage event t ++ event ::
    (onArtifactEvent parts event (onMappedEvent event t).2).1

def Repeats (event : RuntimeTurnEvent) (seen : List String) : Prop :=
  ∃ id, event.startedCallId = some id ∧ id ∈ seen

theorem onEvent_of_repeats (h : Repeats event s.seenStarted) :
    (hooks plus.add parts).onEvent s event = s := by
  obtain ⟨id, hid, hmem⟩ := h
  unfold RuntimeHooks.onEvent
  rw [hid, Option.any_some, decide_eq_true hmem, Bool.or_true, if_pos rfl]

theorem onEvent_of_not_repeats (hc : s.crashed = false) (h : ¬ Repeats event s.seenStarted) :
    (hooks plus.add parts).onEvent s event =
      { s with
        seenStarted := s.seenStarted ++ event.startedCallId.toList
        handling := (onArtifactEvent parts event (onMappedEvent event s.handling).2).2
        items := s.items ++ outputs parts event s.handling } := by
  have hnew : event.startedCallId.any (fun id => decide (id ∈ s.seenStarted)) = false := by
    cases hid : event.startedCallId with
    | none => rfl
    | some id => exact decide_eq_false fun hmem => h ⟨id, hid, hmem⟩
  have hhandle : (hooks plus.add parts).handle event s.handling =
      some (outputs parts event s.handling,
        (onArtifactEvent parts event (onMappedEvent event s.handling).2).2) := by
    simp [RuntimeHooks.handle, hooks, outputs, onMappedEvent_events]
  unfold RuntimeHooks.onEvent
  rw [hc, hnew, Bool.or_false, if_neg Bool.false_ne_true]
  simp only [hhandle]

/-- The start comes first, and the flags say what was put out. -/
structure Framing (s : TurnState ToolNames DshTurn) : Prop where
  crashed : s.crashed = false
  started : s.handling.startedEmitted = true ↔ s.items ≠ []
  head : ∀ first ∈ s.items.head?, first.type = .messageStarted
  completed : s.handling.completedEmitted = true ↔ ∃ e ∈ s.items, e.type = .messageCompleted

theorem mem_outputs_iff_completed (event : RuntimeTurnEvent) (t : DshTurn) :
    (∃ e ∈ outputs parts event t, e.type = .messageCompleted) ↔
      event.type = .messageCompleted ∨ (event.type = .turnCompleted ∧
        t.completedEmitted = false ∧ endedByError event = false) := by
  constructor
  · rintro ⟨e, he, htype⟩
    simp only [outputs, List.mem_append, List.mem_cons] at he
    obtain (he | he) | rfl | he := he
    · rw [missingStart] at he
      split_ifs at he
      · cases he
      · rw [List.mem_singleton.mp he] at htype
        cases htype
    · rw [missingMessage] at he
      split_ifs at he with hmissing
      · exact .inr hmissing
      · cases he
    · exact .inl htype
    · obtain ⟨-, hartifact⟩ := onArtifactEvent_types event _ e he
      rw [htype] at hartifact
      exact absurd hartifact (by decide)
  · rintro (htype | hmissing)
    · exact ⟨event, List.mem_append_right _ List.mem_cons_self, htype⟩
    · refine ⟨⟨.messageCompleted, [("text", .str t.accumulatedText)]⟩, ?_, rfl⟩
      refine List.mem_append_left _ (List.mem_append_right _ ?_)
      rw [missingMessage, if_pos hmissing]
      exact List.mem_cons_self

theorem head_outputs (hs : Framing s) (event : RuntimeTurnEvent) :
    ∀ first ∈ (s.items ++ outputs parts event s.handling).head?, first.type = .messageStarted := by
  intro first hfirst
  cases hitems : s.items with
  | cons e items =>
    have hhead := hs.head e (by rw [hitems]; rfl)
    rw [hitems] at hfirst
    cases hfirst
    exact hhead
  | nil =>
    have hstarted : s.handling.startedEmitted = false := by
      rw [← Bool.not_eq_true, hs.started, hitems]
      exact fun h => h rfl
    rw [hitems, List.nil_append, outputs, missingStart] at hfirst
    by_cases htype : event.type = .messageStarted
    · have hnone : missingMessage event s.handling = [] := by
        rw [missingMessage, htype, if_neg fun hno => nomatch hno.1]
      rw [if_pos (.inl htype), hnone] at hfirst
      cases hfirst
      exact htype
    · rw [if_neg (by rw [hstarted]; exact not_or.mpr ⟨htype, Bool.false_ne_true⟩)] at hfirst
      cases hfirst
      rfl

variable (plus parts) in
theorem framing_onEvent (hs : Framing s) (event : RuntimeTurnEvent) :
    Framing ((hooks plus.add parts).onEvent s event) := by
  by_cases hrepeats : Repeats event s.seenStarted
  · rw [onEvent_of_repeats hrepeats]
    exact hs
  · rw [onEvent_of_not_repeats hs.crashed hrepeats]
    obtain ⟨hstarted, hcompleted⟩ := onMappedEvent_flags event s.handling
    obtain ⟨hstarted', hcompleted'⟩ :=
      onArtifactEvent_flags parts event (onMappedEvent event s.handling).2
    refine ⟨hs.crashed, ?_, head_outputs hs event, ?_⟩
    · refine ⟨fun _ => List.append_ne_nil_of_right_ne_nil _ ?_, fun _ => hstarted'.trans hstarted⟩
      exact List.append_ne_nil_of_right_ne_nil _ (List.cons_ne_nil _ _)
    · change (onArtifactEvent parts event (onMappedEvent event s.handling).2).2.completedEmitted =
        true ↔ ∃ e ∈ s.items ++ outputs parts event s.handling, e.type = .messageCompleted
      rw [hcompleted', hcompleted, hs.completed]
      simp only [List.mem_append, or_and_right, exists_or, mem_outputs_iff_completed]
      refine ⟨fun h => ?_, fun h => ?_⟩
      · obtain hold | hnew | ⟨hend, herror⟩ := h
        · exact .inl hold
        · exact .inr (.inl hnew)
        · by_cases hdone : s.handling.completedEmitted = true
          · exact .inl (hs.completed.mp hdone)
          · exact .inr (.inr ⟨hend, Bool.not_eq_true _ ▸ hdone, herror⟩)
      · obtain hold | hnew | ⟨hend, -, herror⟩ := h
        · exact .inl hold
        · exact .inr (.inl hnew)
        · exact .inr (.inr ⟨hend, herror⟩)

def turnEnd (parts : DshParts) (raw : Notification) : Option Json :=
  match ownEvent parts raw with
  | some ("turn/end", data) =>
    if raw.method = "witty.assistant.stream" then none else some (endKind data)
  | _ => none

def raises (plus : NumberAdd) (parts : DshParts) (raw : Notification) : Bool :=
  (mapDshEvent plus.add parts raw []).2.isNone

def mapped (plus : NumberAdd) (parts : DshParts) (raw : Notification) : List RuntimeTurnEvent :=
  (mapDshEvent plus.add parts raw []).1

def aspect (plus : NumberAdd) (event : RuntimeTurnEvent) : TurnEventType × Option String × Bool :=
  (event.type, event.startedCallId, event.reports plus)

variable (data : Dict)

theorem mapToolCall_names (names : ToolNames) :
    (mapToolCall parts data names).1 = (mapToolCall parts data []).1 := by
  unfold mapToolCall
  cases (Dict.get data "callId").bind Json.nonemptyStr with
  | none | some callId => rfl

theorem aspect_response (payload : Dict) :
    aspect plus ⟨.toolCallResponse, payload⟩ = (.toolCallResponse, none, false) := by
  simp [aspect, RuntimeTurnEvent.startedCallId, RuntimeTurnEvent.reports, RuntimeTurnEvent.isUsage]

theorem aspect_mapToolResult (names : ToolNames) :
    (mapToolResult data names).map (aspect plus) = (mapToolResult data []).map (aspect plus) := by
  unfold mapToolResult
  cases dictOf (Dict.get data "message") with
  | none => rfl
  | some message =>
    dsimp only
    split
    · rfl
    · simp [aspect_response]

variable (plus parts) in
theorem aspect_mapDshEvent (raw : Notification) (names : ToolNames) :
    (mapDshEvent plus.add parts raw names).1.map (aspect plus) =
        (mapped plus parts raw).map (aspect plus) ∧
      (mapDshEvent plus.add parts raw names).2.isNone = raises plus parts raw := by
  unfold mapped raises mapDshEvent
  split_ifs
  · exact ⟨rfl, rfl⟩
  · split
    · exact ⟨rfl, rfl⟩
    · exact ⟨rfl, rfl⟩
    · exact ⟨rfl, rfl⟩
    · dsimp only
      split_ifs
      · exact ⟨rfl, rfl⟩
      · exact ⟨rfl, rfl⟩
    next data _ => exact ⟨congrArg _ (mapToolCall_names data names), rfl⟩
    next data _ => exact ⟨aspect_mapToolResult data names, rfl⟩
    · exact ⟨rfl, rfl⟩

def Opening (events : List RuntimeTurnEvent) : Prop :=
  ∀ e ∈ events, e.type ≠ .turnCompleted ∧ e.type ≠ .streamError

variable {events : List RuntimeTurnEvent} {t : DshTurn}

theorem opening_of_types {types : List TurnEventType} (htypes : ∀ e ∈ events, e.type ∈ types)
    (hopen : ∀ type ∈ types, type ≠ .turnCompleted ∧ type ≠ .streamError := by decide) :
    Opening events := fun e he => hopen e.type (htypes e he)

theorem opening_nil : Opening [] := fun _ he => absurd he List.not_mem_nil

theorem opening_singleton (h : event.type ≠ .turnCompleted ∧ event.type ≠ .streamError) :
    Opening [event] := by
  intro e he
  rw [List.mem_singleton.mp he]
  exact h

variable (plus) in
theorem opening_mapDshEvent (h : turnEnd parts raw = none) (names : ToolNames) :
    Opening (mapDshEvent plus.add parts raw names).1 := by
  unfold turnEnd at h
  unfold mapDshEvent
  split_ifs with hmethod
  · exact opening_of_types (types_mapAssistantStreamFrame _)
  · split
    · exact opening_singleton ⟨nofun, nofun⟩
    next data heq =>
      rw [heq] at h
      simp only [hmethod, if_false, reduceCtorEq] at h
    · exact opening_of_types (types_mapAssistantChunk _)
    · exact opening_of_types (types_mapAssistantMessage _)
    · exact fun e he => by simp [type_mapToolCall _ names e he]
    · exact fun e he => by simp [type_mapToolResult _ names e he]
    · exact opening_nil

variable (plus) in
theorem mapDshEvent_of_turnEnd {kind : Json} (h : turnEnd parts raw = some kind)
    (names : ToolNames) : ∃ data, endKind data = kind ∧
      mapDshEvent plus.add parts raw names = (mapTurnEnd parts data, some names) := by
  unfold turnEnd at h
  split at h
  next data heq =>
    split_ifs at h with hmethod
    refine ⟨data, Option.some.inj h, ?_⟩
    unfold mapDshEvent
    rw [if_neg hmethod, heq]
    simp
  next => cases h

/-- The state of a turn that has not ended, after the mapped events `events`. -/
structure Opened (plus : NumberAdd) (events : List RuntimeTurnEvent)
    (s : TurnState ToolNames DshTurn) : Prop where
  framing : Framing s
  opening : Opening s.items
  message : (∃ e ∈ s.items, e.type = .messageCompleted) ↔
    ∃ e ∈ events, e.type = .messageCompleted
  seen : ∀ id, id ∈ s.seenStarted ↔ ∃ e ∈ events, e.startedCallId = some id
  reports : (∃ e ∈ s.items, e.reports plus) ↔ ∃ e ∈ events, e.reports plus

theorem type_of_startedCallId {id : String} (h : event.startedCallId = some id) :
    event.type = .toolCallStarted := by
  unfold RuntimeTurnEvent.startedCallId at h
  split_ifs at h with htype
  exact htype

theorem type_of_reports (h : event.reports plus) : event.type = .sessionUsage := by
  rw [RuntimeTurnEvent.reports, Bool.and_eq_true] at h
  exact of_decide_eq_true h.1

theorem usage_of_mem_outputs {e : RuntimeTurnEvent}
    (he : e ∈ outputs parts event t) (husage : e.type = .sessionUsage) : e = event := by
  simp only [outputs, List.mem_append, List.mem_cons] at he
  obtain (he | he) | rfl | he := he
  · rw [missingStart] at he
    split_ifs at he
    · cases he
    · rw [List.mem_singleton.mp he] at husage
      cases husage
  · rw [missingMessage] at he
    split_ifs at he
    · rw [List.mem_singleton.mp he] at husage
      cases husage
    · cases he
  · rfl
  · obtain ⟨-, hartifact⟩ := onArtifactEvent_types event _ e he
    rw [husage] at hartifact
    exact absurd hartifact (by decide)

theorem opening_outputs (h : event.type ≠ .turnCompleted ∧ event.type ≠ .streamError) :
    Opening (outputs parts event t) := by
  intro e he
  simp only [outputs, List.mem_append, List.mem_cons] at he
  obtain (he | he) | rfl | he := he
  · rw [missingStart] at he
    split_ifs at he
    · cases he
    · rw [List.mem_singleton.mp he]
      decide
  · rw [missingMessage, if_neg fun hno => h.1 hno.1] at he
    cases he
  · exact h
  · obtain ⟨-, hartifact | hartifact⟩ := onArtifactEvent_types event _ e he <;>
    · rw [hartifact]
      decide

theorem mem_outputs (event : RuntimeTurnEvent) (t : DshTurn) : event ∈ outputs parts event t :=
  List.mem_append_right _ List.mem_cons_self

variable (parts) in
theorem opened_onEvent (hs : Opened plus events s)
    (h : event.type ≠ .turnCompleted ∧ event.type ≠ .streamError) :
    Opened plus (events ++ [event]) ((hooks plus.add parts).onEvent s event) := by
  have hframing := framing_onEvent plus parts hs.framing event
  by_cases hrepeats : Repeats event s.seenStarted
  · obtain ⟨id, hid, hmem⟩ := hrepeats
    have htype := type_of_startedCallId hid
    have hreports : ¬ event.reports plus := fun hr => by
      rw [type_of_reports hr] at htype
      cases htype
    rw [onEvent_of_repeats ⟨id, hid, hmem⟩] at hframing ⊢
    refine ⟨hframing, hs.opening, ?_, ?_, ?_⟩
    · rw [hs.message]
      simp [htype]
    · intro other
      rw [hs.seen]
      simp only [List.mem_append, List.mem_singleton, or_and_right, exists_or, exists_eq_left]
      refine ⟨.inl, fun hor => hor.elim (fun hold => hold) fun heq => ?_⟩
      rw [hid, Option.some.injEq] at heq
      rw [← hs.seen, ← heq]
      exact hmem
    · rw [hs.reports]
      simp [hreports]
  · rw [onEvent_of_not_repeats hs.framing.crashed hrepeats] at hframing ⊢
    refine ⟨hframing, ?_, ?_, ?_, ?_⟩
    · intro e he
      obtain he | he := List.mem_append.mp he
      · exact hs.opening e he
      · exact opening_outputs h e he
    · simp only [List.mem_append, or_and_right, exists_or, mem_outputs_iff_completed, h.1,
        false_and, or_false, List.mem_singleton, exists_eq_left, hs.message]
    · intro other
      simp only [List.mem_append, Option.mem_toList, or_and_right, exists_or, List.mem_singleton,
        exists_eq_left, hs.seen]
    · simp only [List.mem_append, or_and_right, exists_or, List.mem_singleton, exists_eq_left,
        hs.reports]
      refine or_congr Iff.rfl ⟨?_, fun hreports => ⟨event, mem_outputs event _, hreports⟩⟩
      rintro ⟨e, he, hreports⟩
      rw [← usage_of_mem_outputs he (type_of_reports hreports)]
      exact hreports

variable (parts) in
theorem opened_foldl {more : List RuntimeTurnEvent} (hs : Opened plus events s) (h : Opening more) :
    Opened plus (events ++ more) (more.foldl (hooks plus.add parts).onEvent s) := by
  induction more generalizing events s with
  | nil =>
    rw [List.append_nil]
    exact hs
  | cons event more ih =>
    have hnext := opened_onEvent parts hs (h event List.mem_cons_self)
    have hrest := ih hnext fun e he => h e (List.mem_cons_of_mem event he)
    rw [List.append_assoc] at hrest
    exact hrest

variable (plus parts) in
theorem onRaw_of_not_raises (hc : s.crashed = false) (h : raises plus parts raw = false) :
    ∃ mapping, (hooks plus.add parts).onRaw s raw =
      { (mapDshEvent plus.add parts raw s.mapping).1.foldl (hooks plus.add parts).onEvent s with
        mapping } := by
  have hmapping := (aspect_mapDshEvent plus parts raw s.mapping).2
  rw [h] at hmapping
  unfold RuntimeHooks.onRaw
  rw [hc, if_neg Bool.false_ne_true]
  cases hnames : (mapDshEvent plus.add parts raw s.mapping).2 with
  | none =>
    rw [hnames] at hmapping
    cases hmapping
  | some mapping =>
    have hevents : (hooks plus.add parts).mapEvents raw s.mapping =
        mapDshEvent plus.add parts raw s.mapping := rfl
    refine ⟨mapping, ?_⟩
    dsimp only
    rw [hevents, hnames]

theorem exists_of_aspect {other : List RuntimeTurnEvent}
    (h : events.map (aspect plus) = other.map (aspect plus))
    (p : TurnEventType × Option String × Bool → Prop) :
    (∃ e ∈ events, p (aspect plus e)) ↔ ∃ e ∈ other, p (aspect plus e) := by
  have hmem : (∃ a ∈ events.map (aspect plus), p a) ↔ ∃ a ∈ other.map (aspect plus), p a := by
    rw [h]
  simpa only [List.mem_map, exists_exists_and_eq_and] using hmem

theorem Opened.congr (hs : Opened plus events s)
    (other : List RuntimeTurnEvent) (h : events.map (aspect plus) = other.map (aspect plus)) :
    Opened plus other s := by
  refine ⟨hs.framing, hs.opening, ?_, fun id => ?_, ?_⟩
  · rw [hs.message]
    exact exists_of_aspect h fun a => a.1 = .messageCompleted
  · rw [hs.seen]
    exact exists_of_aspect h fun a => a.2.1 = some id
  · rw [hs.reports]
    exact exists_of_aspect h fun a => a.2.2 = true

theorem turn_concat (raws : List Notification) (raw : Notification) :
    (hooks plus.add parts).turn (raws ++ [raw]) =
      (hooks plus.add parts).onRaw ((hooks plus.add parts).turn raws) raw := by
  rw [RuntimeHooks.turn, List.foldl_append]
  rfl

theorem opened_turn {raws : List Notification} (hends : ∀ raw ∈ raws, turnEnd parts raw = none)
    (hraises : ∀ raw ∈ raws, raises plus parts raw = false) :
    Opened plus (raws.flatMap (mapped plus parts)) ((hooks plus.add parts).turn raws) := by
  induction raws using List.reverseRecOn with
  | nil =>
    have hnone {p : RuntimeTurnEvent → Prop} : ¬ ∃ e ∈ ([] : List RuntimeTurnEvent), p e :=
      fun ⟨e, he, _⟩ => absurd he List.not_mem_nil
    refine ⟨⟨rfl, ?_, (fun e he => nomatch he), ?_⟩, opening_nil, iff_of_false hnone hnone, ?_,
      iff_of_false hnone hnone⟩
    · exact iff_of_false Bool.false_ne_true fun h => h rfl
    · exact iff_of_false Bool.false_ne_true hnone
    · exact fun id => iff_of_false List.not_mem_nil hnone
  | append_singleton raws raw ih =>
    rw [List.forall_mem_append, List.forall_mem_singleton] at hends hraises
    have hs := ih hends.1 hraises.1
    obtain ⟨mapping, heq⟩ := onRaw_of_not_raises plus parts hs.framing.crashed hraises.2
    have hopening := opening_mapDshEvent plus hends.2
      ((hooks plus.add parts).turn raws).mapping
    have hnext := opened_foldl parts hs hopening
    rw [turn_concat, heq, List.flatMap_append, List.flatMap_singleton]
    have hmore := hnext.congr (raws.flatMap (mapped plus parts) ++ mapped plus parts raw)
      (by rw [List.map_append, List.map_append, (aspect_mapDshEvent plus parts raw _).1])
    exact ⟨⟨hmore.framing.crashed, hmore.framing.started, hmore.framing.head,
      hmore.framing.completed⟩, hmore.opening, hmore.message, hmore.seen, hmore.reports⟩

end DshRuntime

end WittyService
