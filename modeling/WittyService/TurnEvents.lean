import WittyService.DshRuntime
import WittyService.UsageEmission

/-! The events of a turn, as one list that goes through the stages of `run_turn`: the mapped events,
those of them that are no repeated start of a call, what the handling makes of them, and what is
sent. -/
namespace WittyService

def dropRepeated : List String → List RuntimeTurnEvent → List RuntimeTurnEvent
  | _, [] => []
  | seen, event :: events =>
    if event.startedCallId.any (· ∈ seen) then dropRepeated seen events
    else event :: dropRepeated (seen ++ event.startedCallId.toList) events

def seenAfter (seen : List String) (events : List RuntimeTurnEvent) : List String :=
  seen ++ (dropRepeated seen events).filterMap RuntimeTurnEvent.startedCallId

variable (seen : List String) (plus : NumberAdd)

theorem seenAfter_cons (event : RuntimeTurnEvent) (events : List RuntimeTurnEvent) :
    seenAfter seen (event :: events) =
      if event.startedCallId.any (· ∈ seen) then seenAfter seen events
      else seenAfter (seen ++ event.startedCallId.toList) events := by
  unfold seenAfter
  rw [dropRepeated]
  split
  · rfl
  · rw [List.append_assoc]
    cases hid : event.startedCallId with
    | none => rw [List.filterMap_cons_none hid]; rfl
    | some id => rw [List.filterMap_cons_some hid]; rfl

theorem dropRepeated_append (events more : List RuntimeTurnEvent) :
    dropRepeated seen (events ++ more) =
      dropRepeated seen events ++ dropRepeated (seenAfter seen events) more := by
  induction events generalizing seen with
  | nil =>
    rw [seenAfter, dropRepeated, List.filterMap_nil, List.append_nil]
    rfl
  | cons event events ih =>
    rw [List.cons_append, dropRepeated, dropRepeated, seenAfter_cons]
    split
    · exact ih seen
    · rw [ih, List.cons_append]

theorem mem_of_mem_dropRepeated {seen : List String} {e : RuntimeTurnEvent}
    {events : List RuntimeTurnEvent}
    (h : e ∈ dropRepeated seen events) : e ∈ events := by
  induction events generalizing seen with
  | nil => exact h
  | cons event events ih =>
    rw [dropRepeated] at h
    split at h
    · exact List.mem_cons_of_mem event (ih h)
    · obtain rfl | h := List.mem_cons.mp h
      · exact List.mem_cons_self
      · exact List.mem_cons_of_mem event (ih h)

namespace RuntimeHooks

variable {ρ σ τ : Type} (h : RuntimeHooks ρ σ τ)

def mapRun : σ → List ρ → List RuntimeTurnEvent × Option σ
  | s, [] => ([], some s)
  | s, raw :: raws =>
    match (h.mapEvents raw s).2 with
    | none => ((h.mapEvents raw s).1, none)
    | some s' => ((h.mapEvents raw s).1 ++ (mapRun s' raws).1, (mapRun s' raws).2)

variable {h} in
theorem forall_mem_mapRun {p : RuntimeTurnEvent → Prop}
    (hp : ∀ raw s, ∀ e ∈ (h.mapEvents raw s).1, p e) (s : σ) (raws : List ρ) :
    ∀ e ∈ (h.mapRun s raws).1, p e := by
  induction raws generalizing s with
  | nil => exact fun _ he => nomatch he
  | cons raw raws ih =>
    rw [mapRun]
    cases (h.mapEvents raw s).2 with
    | none => exact hp raw s
    | some s' => exact List.forall_mem_append.mpr ⟨hp raw s, ih s'⟩

def handleRun : τ → List RuntimeTurnEvent → List RuntimeTurnEvent × Option τ
  | t, [] => ([], some t)
  | t, event :: events =>
    match h.handle event t with
    | none => ([], none)
    | some (out, t') => (out ++ (handleRun t' events).1, (handleRun t' events).2)

variable {h} {t t' : τ} {event : RuntimeTurnEvent} {events out : List RuntimeTurnEvent}

theorem handleRun_none (hhandle : h.handle event t = none) :
    h.handleRun t (event :: events) = ([], none) := by
  rw [handleRun, hhandle]

theorem handleRun_some (hhandle : h.handle event t = some (out, t')) :
    h.handleRun t (event :: events) =
      (out ++ (h.handleRun t' events).1, (h.handleRun t' events).2) := by
  rw [handleRun, hhandle]

theorem handleRun_append_some (hrun : (h.handleRun t events).2 = some t')
    (more : List RuntimeTurnEvent) :
    h.handleRun t (events ++ more) =
      ((h.handleRun t events).1 ++ (h.handleRun t' more).1, (h.handleRun t' more).2) := by
  induction events generalizing t with
  | nil =>
    cases hrun
    rfl
  | cons event events ih =>
    cases hhandle : h.handle event t with
    | none =>
      rw [handleRun_none hhandle] at hrun
      cases hrun
    | some out =>
      rw [handleRun_some hhandle] at hrun ⊢
      rw [List.cons_append, handleRun_some hhandle, ih hrun, List.append_assoc]

theorem handleRun_append_none (hrun : (h.handleRun t events).2 = none)
    (more : List RuntimeTurnEvent) :
    h.handleRun t (events ++ more) = h.handleRun t events := by
  induction events generalizing t with
  | nil => cases hrun
  | cons event events ih =>
    cases hhandle : h.handle event t with
    | none => rw [List.cons_append, handleRun_none hhandle, handleRun_none hhandle]
    | some out =>
      rw [handleRun_some hhandle] at hrun ⊢
      rw [List.cons_append, handleRun_some hhandle, ih hrun]

variable {s s' : TurnState σ τ}

theorem foldl_onEvent_crashed (hs : s.crashed = true) (events : List RuntimeTurnEvent) :
    events.foldl h.onEvent s = s := by
  induction events with
  | nil => rfl
  | cons event events ih =>
    have hevent : h.onEvent s event = s := by
      rw [onEvent, hs, Bool.true_or, if_pos rfl]
    rw [List.foldl_cons, hevent, ih]

theorem foldl_onRaw_crashed (hs : s.crashed = true) (raws : List ρ) :
    raws.foldl h.onRaw s = s := by
  induction raws with
  | nil => rfl
  | cons raw raws ih =>
    have hraw : h.onRaw s raw = s := by
      rw [onRaw, if_pos hs]
    rw [List.foldl_cons, hraw, ih]

structure AfterEvents (h : RuntimeHooks ρ σ τ) (s : TurnState σ τ)
    (events : List RuntimeTurnEvent) (s' : TurnState σ τ) : Prop where
  items : s'.items = s.items ++ (h.handleRun s.handling (dropRepeated s.seenStarted events)).1
  crashed : s'.crashed = (h.handleRun s.handling (dropRepeated s.seenStarted events)).2.isNone
  mapping : s'.mapping = s.mapping
  handling : ∀ t, (h.handleRun s.handling (dropRepeated s.seenStarted events)).2 = some t →
    s'.handling = t ∧ s'.seenStarted = seenAfter s.seenStarted events

theorem afterEvents_foldl (h : RuntimeHooks ρ σ τ) (hs : s.crashed = false)
    (events : List RuntimeTurnEvent) : AfterEvents h s events (events.foldl h.onEvent s) := by
  induction events generalizing s with
  | nil =>
    refine ⟨(List.append_nil _).symm, hs, rfl, fun t ht => ?_⟩
    refine ⟨Option.some.inj ht, ?_⟩
    rw [seenAfter, dropRepeated, List.filterMap_nil, List.append_nil]
    rfl
  | cons event events ih =>
    rw [List.foldl_cons]
    by_cases hskip : event.startedCallId.any (· ∈ s.seenStarted)
    · have hevent : h.onEvent s event = s := by
        rw [onEvent, hskip, Bool.or_true, if_pos rfl]
      have hdrop : dropRepeated s.seenStarted (event :: events) =
          dropRepeated s.seenStarted events := by
        rw [dropRepeated, if_pos hskip]
      obtain ⟨hitems, hcrashed, hmapping, hhandling⟩ := ih hs
      rw [hevent]
      refine ⟨hdrop ▸ hitems, hdrop ▸ hcrashed, hmapping, fun t ht => ?_⟩
      rw [hdrop] at ht
      rw [seenAfter_cons, if_pos hskip]
      exact hhandling t ht
    · have hdrop : dropRepeated s.seenStarted (event :: events) =
          event :: dropRepeated (s.seenStarted ++ event.startedCallId.toList) events := by
        rw [dropRepeated, if_neg hskip]
      have hopen : ¬ (s.crashed || event.startedCallId.any (· ∈ s.seenStarted)) = true := by
        rw [hs, Bool.false_or]
        exact hskip
      cases hhandle : h.handle event s.handling with
      | none =>
        have hevent : (h.onEvent s event).crashed = true ∧
            (h.onEvent s event).items = s.items ∧ (h.onEvent s event).mapping = s.mapping := by
          rw [onEvent, if_neg hopen]
          simp [hhandle]
        rw [foldl_onEvent_crashed hevent.1]
        refine ⟨?_, ?_, hevent.2.2, fun t ht => ?_⟩
        · rw [hdrop, handleRun_none hhandle, List.append_nil, hevent.2.1]
        · rw [hdrop, handleRun_none hhandle, hevent.1]
          rfl
        · rw [hdrop, handleRun_none hhandle] at ht
          cases ht
      | some out =>
        have hevent : h.onEvent s event =
            { s with
              seenStarted := s.seenStarted ++ event.startedCallId.toList
              handling := out.2
              items := s.items ++ out.1 } := by
          rw [onEvent, if_neg hopen]
          simp only [hhandle]
        have hopenNext : (h.onEvent s event).crashed = false := by
          rw [hevent]
          exact hs
        have hnext := ih hopenNext
        rw [hevent] at hnext ⊢
        obtain ⟨hitems, hcrashed, hmapping, hhandling⟩ := hnext
        refine ⟨?_, ?_, hmapping, fun t ht => ?_⟩
        · rw [hitems, hdrop, handleRun_some hhandle, List.append_assoc]
        · rw [hcrashed, hdrop, handleRun_some hhandle]
        · rw [hdrop, handleRun_some hhandle] at ht
          rw [seenAfter_cons, if_neg hskip]
          exact hhandling t ht

theorem items_foldl_onRaw (hs : s.crashed = false) (raws : List ρ) :
    (raws.foldl h.onRaw s).items = s.items ++
      (h.handleRun s.handling (dropRepeated s.seenStarted (h.mapRun s.mapping raws).1)).1 := by
  induction raws generalizing s with
  | nil => exact (List.append_nil _).symm
  | cons raw raws ih =>
    obtain ⟨hitems, hcrashed, hmapping, hhandling⟩ :=
      afterEvents_foldl h hs (h.mapEvents raw s.mapping).1
    rw [List.foldl_cons, onRaw, hs, if_neg Bool.false_ne_true, mapRun]
    dsimp only
    generalize (h.mapEvents raw s.mapping).1.foldl h.onEvent s = s' at *
    cases hmap : (h.mapEvents raw s.mapping).2 with
    | none =>
      rw [foldl_onRaw_crashed rfl]
      exact hitems
    | some mapping =>
      rw [dropRepeated_append]
      cases hrun : (h.handleRun s.handling
          (dropRepeated s.seenStarted (h.mapEvents raw s.mapping).1)).2 with
      | none =>
        -- The handling has raised, and what follows is not looked at.
        have hraised : ({ s' with mapping } : TurnState σ τ).crashed = true := by
          rw [hcrashed, hrun]
          rfl
        rw [foldl_onRaw_crashed hraised, handleRun_append_none hrun]
        exact hitems
      | some t =>
        have hopen : ({ s' with mapping } : TurnState σ τ).crashed = false := by
          rw [hcrashed, hrun]
          rfl
        obtain ⟨rfl, hseen⟩ := hhandling t hrun
        rw [ih hopen, handleRun_append_some hrun]
        rw [hitems, hseen, List.append_assoc]

theorem isSome_of_not_crashed (hs : s.crashed = false) {raws : List ρ}
    (hturn : (raws.foldl h.onRaw s).crashed = false) :
    (h.mapRun s.mapping raws).2.isSome ∧
      (h.handleRun s.handling
        (dropRepeated s.seenStarted (h.mapRun s.mapping raws).1)).2.isSome := by
  induction raws generalizing s with
  | nil => exact ⟨rfl, rfl⟩
  | cons raw raws ih =>
    obtain ⟨-, hcrashed, hmapping, hhandling⟩ :=
      afterEvents_foldl h hs (h.mapEvents raw s.mapping).1
    rw [List.foldl_cons, onRaw, hs, if_neg Bool.false_ne_true] at hturn
    rw [mapRun]
    dsimp only at hturn ⊢
    generalize (h.mapEvents raw s.mapping).1.foldl h.onEvent s = s' at *
    cases hmap : (h.mapEvents raw s.mapping).2 with
    | none =>
      rw [hmap, foldl_onRaw_crashed rfl] at hturn
      cases hturn
    | some mapping =>
      rw [hmap] at hturn
      cases hrun : (h.handleRun s.handling
          (dropRepeated s.seenStarted (h.mapEvents raw s.mapping).1)).2 with
      | none =>
        have hraised : ({ s' with mapping } : TurnState σ τ).crashed = true := by
          rw [hcrashed, hrun]
          rfl
        rw [foldl_onRaw_crashed hraised, hraised] at hturn
        cases hturn
      | some t =>
        have hopen : ({ s' with mapping } : TurnState σ τ).crashed = false := by
          rw [hcrashed, hrun]
          rfl
        obtain ⟨rfl, hseen⟩ := hhandling t hrun
        rw [dropRepeated_append, handleRun_append_some hrun, ← hseen]
        exact ih hopen hturn

theorem exists_handled (h : RuntimeHooks ρ σ τ) (t : τ) (events : List RuntimeTurnEvent) :
    ∃ handled t', handled <+: events ∧ h.handleRun t handled = ((h.handleRun t events).1, some t') ∧
      ((h.handleRun t events).2.isSome → handled = events) := by
  induction events generalizing t with
  | nil => exact ⟨[], t, List.prefix_refl _, rfl, fun _ => rfl⟩
  | cons event events ih =>
    cases hhandle : h.handle event t with
    | none =>
      refine ⟨[], t, List.nil_prefix, ?_, fun hsome => ?_⟩
      · rw [handleRun_none hhandle]
        rfl
      · rw [handleRun_none hhandle] at hsome
        cases hsome
    | some out =>
      obtain ⟨handled, t', hbegin, hrun, hall⟩ := ih out.2
      refine ⟨event :: handled, t', ?_, ?_, fun hsome => ?_⟩
      · exact (List.prefix_cons_inj event).mpr hbegin
      · rw [handleRun_some hhandle, handleRun_some hhandle, hrun]
      · rw [handleRun_some hhandle] at hsome
        rw [hall hsome]

def mapped (h : RuntimeHooks ρ σ τ) (raws : List ρ) : List RuntimeTurnEvent :=
  (h.mapRun h.mapping raws).1

theorem items_turn (h : RuntimeHooks ρ σ τ) (raws : List ρ) :
    (h.turn raws).items = (h.handleRun h.handling (dropRepeated [] (h.mapped raws))).1 := by
  rw [turn, items_foldl_onRaw rfl]
  rfl

end RuntimeHooks

def sentEvents (emitted : List Emitted) : List RuntimeTurnEvent :=
  emitted.filterMap fun
    | .event event => some event
    | .usage => none

theorem sentEvents_append (emitted more : List Emitted) :
    sentEvents (emitted ++ more) = sentEvents emitted ++ sentEvents more := List.filterMap_append

theorem sentEvents_map_event (events : List RuntimeTurnEvent) :
    sentEvents (events.map Emitted.event) = events := by
  rw [sentEvents, List.filterMap_map]
  exact List.filterMap_some

theorem sentEvents_emitAll (items : List RuntimeTurnEvent) :
    sentEvents (emitAll plus.add items).emitted = items.filter fun item => !item.isUsage := by
  induction items using List.reverseRecOn with
  | nil => rfl
  | append_singleton items item ih =>
    rw [emitAll_concat, List.filter_append, ← ih]
    obtain ⟨husage, heq⟩ | ⟨husage, -, heq⟩ | ⟨husage, -, heq⟩ :=
      emit_cases (emitAll plus.add items) item
    · rw [heq, List.filter_singleton, husage]
      exact (List.append_nil _).symm
    · rw [heq, sentEvents_append, List.filter_singleton, husage]
      rfl
    · rw [heq, sentEvents_append, List.filter_singleton, husage]
      rfl

theorem sentEvents_runTurn {ρ σ τ : Type} (h : RuntimeHooks ρ σ τ) (raws : List ρ) (raised : Bool) :
    sentEvents (h.runTurn plus.add raws raised).emitted =
      ((h.turn raws).items.filter fun item => !item.isUsage) ++
        if !(h.turn raws).crashed && raised then h.errorEvents (h.turn raws).handling else [] := by
  rw [RuntimeHooks.runTurn]
  cases (h.turn raws).crashed with
  | true => exact (sentEvents_emitAll plus _).trans (List.append_nil _).symm
  | false =>
    cases raised with
    | true =>
      simp [sentEvents_append, sentEvents_map_event, sentEvents_emitAll]
    | false =>
      simp only [Bool.false_eq_true, if_false, Bool.and_false, List.append_nil]
      split
      · rw [sentEvents_append, sentEvents_emitAll]
        exact List.append_nil _
      · exact sentEvents_emitAll plus _

variable {text : String}

theorem eq_str_of_nonemptyStr {value : Json}
    (h : value.nonemptyStr = some text) : value = .str text ∧ text ≠ "" := by
  cases value with
  | str s =>
    rw [Json.nonemptyStr] at h
    split at h
    · cases h
    · next hs =>
      cases h
      exact ⟨rfl, hs⟩
  | _ => cases h

theorem nonemptyStr_of_bind {value : Option Json}
    (h : value.bind Json.nonemptyStr = some text) : (Json.str text).nonemptyStr = some text := by
  obtain ⟨json, -, hjson⟩ := Option.bind_eq_some_iff.mp h
  rwa [(eq_str_of_nonemptyStr hjson).1] at hjson

def TurnEventType.IsDelta (type : TurnEventType) : Prop :=
  type = .messageDelta ∨ type = .thinkingDelta

def eventText (type : TurnEventType) (event : RuntimeTurnEvent) : List Char :=
  if event.type = type then ((textOf (Dict.get event.payload "delta")).getD "").toList else []

def sentText (type : TurnEventType) (events : List RuntimeTurnEvent) : List Char :=
  events.flatMap (eventText type)

section
variable {type : TurnEventType}

theorem sentText_append (events more : List RuntimeTurnEvent) :
    sentText type (events ++ more) = sentText type events ++ sentText type more :=
  List.flatMap_append

variable (event : RuntimeTurnEvent)

theorem sentText_cons (events : List RuntimeTurnEvent) :
    sentText type (event :: events) = eventText type event ++ sentText type events :=
  List.flatMap_cons

theorem sentText_singleton :
    sentText type [event] = eventText type event := List.flatMap_singleton ..

theorem sentText_eq_nil {events : List RuntimeTurnEvent} (h : ∀ e ∈ events, e.type ≠ type) :
    sentText type events = [] :=
  List.flatMap_eq_nil_iff.mpr fun e he => if_neg (h e he)

theorem sentText_dropRepeated (htype : type.IsDelta) (seen : List String)
    (events : List RuntimeTurnEvent) : sentText type (dropRepeated seen events) =
      sentText type events := by
  induction events generalizing seen with
  | nil => rfl
  | cons event events ih =>
    rw [dropRepeated]
    split
    · next hrepeated =>
      have hnone : eventText type event = [] := by
        refine if_neg fun hevent => ?_
        rw [RuntimeTurnEvent.startedCallId, hevent] at hrepeated
        obtain rfl | rfl := htype
        · cases hrepeated
        · cases hrepeated
      rw [ih, sentText_cons, hnone, List.nil_append]
    · rw [sentText_cons, sentText_cons, ih]

theorem sentText_filter_not_isUsage (htype : type.IsDelta) (events : List RuntimeTurnEvent) :
    sentText type (events.filter fun item => !item.isUsage) = sentText type events := by
  induction events with
  | nil => rfl
  | cons event events ih =>
    cases husage : event.isUsage with
    | true =>
      have hnone : eventText type event = [] := by
        refine if_neg fun hevent => ?_
        rw [RuntimeTurnEvent.isUsage, hevent] at husage
        obtain rfl | rfl := htype
        · cases husage
        · cases husage
      rw [List.filter_cons_of_neg (by simp [husage]), ih, sentText_cons, hnone, List.nil_append]
    | false =>
      rw [List.filter_cons_of_pos (by simp [husage]), sentText_cons, sentText_cons, ih]

theorem sentText_runTurn {ρ σ τ : Type} (htype : type.IsDelta) (plus : NumberAdd)
    (h : RuntimeHooks ρ σ τ) (raws : List ρ) :
    sentText type (sentEvents (h.runTurn plus.add raws false).emitted) =
      sentText type (h.handleRun h.handling (dropRepeated [] (h.mapped raws))).1 := by
  rw [sentEvents_runTurn, Bool.and_false, if_neg Bool.false_ne_true, List.append_nil,
    sentText_filter_not_isUsage htype, RuntimeHooks.items_turn]

end

end WittyService
