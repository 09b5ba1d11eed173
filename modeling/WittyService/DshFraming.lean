import WittyService.DshOpening

/-! How a dsh turn is framed: what its first event is, what ends it, and what stands between an
error and the end. -/
namespace WittyService

/-- The events of a turn begin with its start. Nothing follows its end, no message is completed
after an error, and without an error one was completed before the end. -/
structure Framed (types : List TurnEventType) : Prop where
  start : ∀ first ∈ types.head?, first = .messageStarted
  last : types.Pairwise fun earlier _ => earlier ≠ .turnCompleted
  error : types.Pairwise fun earlier later =>
    ¬ (earlier = .streamError ∧ later = .messageCompleted)
  message : .streamError ∉ types → ∀ pre post, types = pre ++ .turnCompleted :: post →
    .messageCompleted ∈ pre

/-- Neither an end nor an error. -/
def OpenTypes (types : List TurnEventType) : Prop :=
  ∀ type ∈ types, type ≠ .turnCompleted ∧ type ≠ .streamError

theorem framed_of_open {types : List TurnEventType} (hopen : OpenTypes types)
    (hstart : ∀ first ∈ types.head?, first = .messageStarted) : Framed types where
  start := hstart
  last := List.pairwise_of_forall_mem_list fun earlier hearlier _ _ => (hopen earlier hearlier).1
  error := List.pairwise_of_forall_mem_list fun earlier hearlier _ _ h =>
    (hopen earlier hearlier).2 h.1
  message := fun _ pre _ heq =>
    absurd rfl (hopen .turnCompleted (heq ▸ List.mem_append_right pre List.mem_cons_self)).1

theorem framed_append_end {types front : List TurnEventType} (hopen : OpenTypes types)
    (hstart : ∀ first ∈ (types ++ (front ++ [TurnEventType.turnCompleted])).head?,
      first = .messageStarted)
    (hfront : .turnCompleted ∉ front) :
    Framed (types ++ (front ++ [.turnCompleted])) ↔
      (front.Pairwise fun earlier later =>
          ¬ (earlier = .streamError ∧ later = .messageCompleted)) ∧
        (.streamError ∉ front → .messageCompleted ∈ types ++ front) := by
  have hbefore : .turnCompleted ∉ types ++ front := by
    rw [List.mem_append, not_or]
    exact ⟨fun h => (hopen _ h).1 rfl, hfront⟩
  have herror : .streamError ∉ types ++ (front ++ [.turnCompleted]) ↔ .streamError ∉ front := by
    simp only [List.mem_append, List.mem_singleton, reduceCtorEq, or_false, not_or]
    exact ⟨fun h => h.2, fun h => ⟨fun hmem => (hopen _ hmem).2 rfl, h⟩⟩
  constructor
  · intro h
    refine ⟨(List.pairwise_append.mp (List.pairwise_append.mp h.error).2.1).1, fun hno => ?_⟩
    exact h.message (herror.mpr hno) (types ++ front) [] (List.append_assoc _ _ _).symm
  · rintro ⟨hpairs, hmessage⟩
    refine ⟨hstart, ?_, ?_, fun hno pre post heq => ?_⟩
    · rw [← List.append_assoc, List.pairwise_append]
      refine ⟨?_, List.pairwise_singleton _ _, fun earlier hearlier _ _ heq => ?_⟩
      · exact List.pairwise_of_forall_mem_list fun earlier hearlier _ _ heq =>
          hbefore (heq ▸ hearlier)
      · exact hbefore (heq ▸ hearlier)
    · rw [List.pairwise_append, List.pairwise_append]
      refine ⟨?_, ⟨hpairs, List.pairwise_singleton _ _, ?_⟩, ?_⟩
      · exact List.pairwise_of_forall_mem_list fun earlier hearlier _ _ h =>
          (hopen earlier hearlier).2 h.1
      · intro earlier _ later hlater h
        rw [List.mem_singleton.mp hlater] at h
        cases h.2
      · exact fun earlier hearlier _ _ h => (hopen earlier hearlier).2 h.1
    · have hpre : types ++ front <+: pre := by
        rw [← List.append_assoc] at heq
        obtain ⟨rest, hpre, -⟩ | ⟨rest, hpre, hrest⟩ := List.append_eq_append_iff.mp heq
        · exact ⟨rest, hpre.symm⟩
        · cases rest with
          | nil =>
            exact ⟨[], by rw [hpre, List.append_nil, List.append_nil]⟩
          | cons t rest =>
            rw [List.cons_append, List.cons.injEq] at hrest
            refine absurd ?_ hbefore
            rw [hpre, hrest.1]
            exact List.mem_append_right pre List.mem_cons_self
      exact hpre.subset (hmessage (herror.mp hno))

namespace DshRuntime

variable {plus : NumberAdd} {parts : DshParts} {s : TurnState ToolNames DshTurn}
  {event : RuntimeTurnEvent} {raw : Notification} {raws : List Notification}

/-- The event is not sent when it comes after the end: it is usage, or the start of a call that was
started before. -/
def Quiet (event : RuntimeTurnEvent) (seen : List String) : Prop :=
  event.isUsage ∨ Repeats event seen

variable (plus parts) in
theorem items_onEvent (s : TurnState ToolNames DshTurn) (event : RuntimeTurnEvent) :
    s.items <+: ((hooks plus.add parts).onEvent s event).items := by
  unfold RuntimeHooks.onEvent
  split_ifs
  · exact List.prefix_refl _
  · dsimp only
    split
    · exact List.prefix_refl _
    · exact List.prefix_append _ _

variable (plus parts) in
theorem items_foldl_onEvent (events : List RuntimeTurnEvent) (s : TurnState ToolNames DshTurn) :
    s.items <+: (events.foldl (hooks plus.add parts).onEvent s).items := by
  induction events generalizing s with
  | nil => exact List.prefix_refl _
  | cons event events ih => exact (items_onEvent plus parts s event).trans (ih _)

variable (plus parts) in
theorem items_onRaw (s : TurnState ToolNames DshTurn) (raw : Notification) :
    s.items <+: ((hooks plus.add parts).onRaw s raw).items := by
  unfold RuntimeHooks.onRaw
  split_ifs
  · exact List.prefix_refl _
  · dsimp only
    have hfold := items_foldl_onEvent plus parts
      ((hooks plus.add parts).mapEvents raw s.mapping).1 s
    split
    · exact hfold
    · exact hfold

theorem items_foldl_onRaw (raws : List Notification) (s : TurnState ToolNames DshTurn) :
    s.items <+: (raws.foldl (hooks plus.add parts).onRaw s).items := by
  induction raws generalizing s with
  | nil => exact List.prefix_refl _
  | cons raw raws ih => exact (items_onRaw plus parts s raw).trans (ih _)

/-- The turn went on without sending anything. -/
structure Silent (plus : NumberAdd) (events : List RuntimeTurnEvent)
    (s s' : TurnState ToolNames DshTurn) : Prop where
  crashed : s'.crashed = false
  started : s'.handling.startedEmitted = true
  seen : s'.seenStarted = s.seenStarted
  items : ∃ more, s'.items = s.items ++ more ∧ (∀ e ∈ more, e.isUsage) ∧
    ((∃ e ∈ more, e.reports plus) ↔ ∃ e ∈ events, e.reports plus)

theorem silent_refl (hc : s.crashed = false) (hstarted : s.handling.startedEmitted = true) :
    Silent plus [] s s :=
  ⟨hc, hstarted, rfl, [], (List.append_nil _).symm, fun _ h => absurd h List.not_mem_nil, Iff.rfl⟩

theorem Silent.trans {events more : List RuntimeTurnEvent}
    {s s' s'' : TurnState ToolNames DshTurn} (h : Silent plus events s s')
    (h' : Silent plus more s' s'') : Silent plus (events ++ more) s s'' := by
  obtain ⟨xs, hxs, husage, hreports⟩ := h.items
  obtain ⟨ys, hys, husage', hreports'⟩ := h'.items
  refine ⟨h'.crashed, h'.started, h'.seen.trans h.seen, xs ++ ys, ?_, ?_, ?_⟩
  · rw [hys, hxs, List.append_assoc]
  · intro e he
    exact (List.mem_append.mp he).elim (husage e) (husage' e)
  · simp only [List.mem_append, or_and_right, exists_or, hreports, hreports']

variable (plus parts) in
theorem silent_onEvent (hc : s.crashed = false) (hstarted : s.handling.startedEmitted = true)
    (h : Quiet event s.seenStarted) :
    Silent plus [event] s ((hooks plus.add parts).onEvent s event) := by
  by_cases hrepeats : Repeats event s.seenStarted
  · rw [onEvent_of_repeats hrepeats]
    refine ⟨hc, hstarted, rfl, [], (List.append_nil _).symm,
      fun _ h => absurd h List.not_mem_nil, ?_⟩
    obtain ⟨id, hid, -⟩ := hrepeats
    refine iff_of_false (fun h => List.not_mem_nil h.choose_spec.1) ?_
    rintro ⟨e, he, hreports⟩
    rw [List.mem_singleton.mp he] at hreports
    have htype := type_of_startedCallId hid
    rw [type_of_reports hreports] at htype
    cases htype
  · have husage : event.type = .sessionUsage := of_decide_eq_true (h.resolve_right hrepeats)
    have hid : event.startedCallId = none := by
      rw [RuntimeTurnEvent.startedCallId, husage, if_neg (by rintro ⟨⟩)]
    have hartifacts (t : DshTurn) : (onArtifactEvent parts event t).1 = [] := by
      refine List.eq_nil_iff_forall_not_mem.mpr fun e he => ?_
      obtain ⟨htype, -⟩ := onArtifactEvent_types event t e he
      rw [husage] at htype
      exact absurd htype (by decide)
    have houtputs : outputs parts event s.handling = [event] := by
      rw [outputs, hartifacts, missingStart, if_pos (.inr hstarted), missingMessage, husage,
        if_neg fun hno => by cases hno.1]
      rfl
    rw [onEvent_of_not_repeats hc hrepeats]
    refine ⟨hc, ?_, ?_, [event], congrArg _ houtputs, ?_, Iff.rfl⟩
    · exact (onArtifactEvent_flags parts event _).1.trans (onMappedEvent_flags event s.handling).1
    · rw [hid]
      exact List.append_nil _
    · intro e he
      rw [List.mem_singleton.mp he]
      exact decide_eq_true husage

variable (plus parts) in
theorem silent_foldl_iff (events : List RuntimeTurnEvent) (hc : s.crashed = false)
    (hstarted : s.handling.startedEmitted = true) :
    ((∀ e ∈ events, Quiet e s.seenStarted) →
        Silent plus events s (events.foldl (hooks plus.add parts).onEvent s)) ∧
      ((∃ more, (events.foldl (hooks plus.add parts).onEvent s).items = s.items ++ more ∧
          ∀ e ∈ more, e.isUsage) → ∀ e ∈ events, Quiet e s.seenStarted) := by
  induction events generalizing s with
  | nil => exact ⟨fun _ => silent_refl hc hstarted, fun _ e he => absurd he List.not_mem_nil⟩
  | cons event events ih =>
    constructor
    · intro hall
      rw [List.forall_mem_cons] at hall
      have hfirst := silent_onEvent plus parts hc hstarted hall.1
      have hrest := (ih (s := (hooks plus.add parts).onEvent s event) hfirst.crashed
        hfirst.started).1
      rw [hfirst.seen] at hrest
      exact hfirst.trans (hrest hall.2)
    · rintro ⟨more, hmore, husage⟩
      rw [List.foldl_cons] at hmore
      by_cases hquiet : Quiet event s.seenStarted
      · have hfirst := silent_onEvent plus parts hc hstarted hquiet
        obtain ⟨xs, hxs, -⟩ := hfirst.items
        have hrest := (ih (s := (hooks plus.add parts).onEvent s event) hfirst.crashed
          hfirst.started).2
        rw [hfirst.seen] at hrest
        rw [List.forall_mem_cons]
        refine ⟨hquiet, hrest ?_⟩
        obtain ⟨ys, hys⟩ := items_foldl_onEvent plus parts events
          ((hooks plus.add parts).onEvent s event)
        refine ⟨ys, hys.symm, fun e he => husage e ?_⟩
        rw [← hys, hxs, List.append_assoc, List.append_cancel_left_eq] at hmore
        rw [← hmore]
        exact List.mem_append_right xs he
      · exfalso
        refine hquiet (.inl ?_)
        obtain ⟨ys, hys⟩ := items_foldl_onEvent plus parts events
          ((hooks plus.add parts).onEvent s event)
        rw [← hys, onEvent_of_not_repeats hc fun hr => hquiet (.inr hr)] at hmore
        rw [List.append_assoc, List.append_cancel_left_eq] at hmore
        refine husage event ?_
        rw [← hmore]
        exact List.mem_append_left ys (mem_outputs event _)

def endFront (kind : Json) (completed : Bool) : List TurnEventType :=
  (if textOf (some kind) = some "error" ∨ textOf (some kind) = some "max-tokens" then
      [.streamError]
    else []) ++
    (if textOf (some kind) ≠ some "error" ∧ completed = false then [.messageCompleted] else [])

theorem framed_end_iff {types : List TurnEventType} {completed : Bool} (hopen : OpenTypes types)
    (kind : Json) (hcompleted : completed = true ↔ .messageCompleted ∈ types)
    (hstart : ∀ first ∈ (types ++ (endFront kind completed ++ [TurnEventType.turnCompleted])).head?,
      first = .messageStarted) :
    Framed (types ++ (endFront kind completed ++ [.turnCompleted])) ↔
      (textOf (some kind) = some "max-tokens" → .messageCompleted ∈ types) := by
  have hfront : .turnCompleted ∉ endFront kind completed := by
    unfold endFront
    split_ifs <;> decide
  rw [framed_append_end hopen hstart hfront, List.mem_append, ← hcompleted]
  unfold endFront
  by_cases herror : textOf (some kind) = some "error"
  · rw [if_pos (.inl herror), if_neg fun h => h.1 herror, herror]
    simp
  · by_cases hmax : textOf (some kind) = some "max-tokens" <;> cases completed <;>
      simp [herror, hmax]

theorem outputs_of_not_call (h : event.type ≠ .toolCallStarted ∧ event.type ≠ .toolCallResponse)
    (t : DshTurn) :
    outputs parts event t = missingStart event t ++ missingMessage event t ++ [event] := by
  have hartifacts : (onArtifactEvent parts event (onMappedEvent event t).2).1 = [] := by
    refine List.eq_nil_iff_forall_not_mem.mpr fun e he => ?_
    obtain ⟨htype | htype, -⟩ := onArtifactEvent_types event _ e he
    · exact h.1 htype
    · exact h.2 htype
  rw [outputs, hartifacts]

variable (plus parts event) in
theorem onEvent_of_not_call (hc : s.crashed = false)
    (h : event.type ≠ .toolCallStarted ∧ event.type ≠ .toolCallResponse) :
    ∃ handling, (hooks plus.add parts).onEvent s event = { s with
        handling, items := s.items ++ (missingStart event s.handling ++
          missingMessage event s.handling ++ [event]) } ∧
      handling.startedEmitted = true ∧ (handling.completedEmitted = true ↔
        s.handling.completedEmitted = true ∨ event.type = .messageCompleted ∨
          (event.type = .turnCompleted ∧ endedByError event = false)) := by
  have hid : event.startedCallId = none := by
    rw [RuntimeTurnEvent.startedCallId, if_neg h.1]
  have hrepeats : ¬ Repeats event s.seenStarted := by
    rintro ⟨id, hid', -⟩
    rw [hid] at hid'
    cases hid'
  obtain ⟨hstarted, hcompleted⟩ := onMappedEvent_flags event s.handling
  obtain ⟨hstarted', hcompleted'⟩ :=
    onArtifactEvent_flags parts event (onMappedEvent event s.handling).2
  refine ⟨(onArtifactEvent parts event (onMappedEvent event s.handling).2).2, ?_,
    hstarted'.trans hstarted, ?_⟩
  · rw [onEvent_of_not_repeats hc hrepeats, outputs_of_not_call h, hid]
    simp
  · rw [hcompleted', hcompleted]

def startOf (t : DshTurn) : List RuntimeTurnEvent :=
  if t.startedEmitted then [] else [⟨.messageStarted, []⟩]

theorem missingStart_eq (h : event.type ≠ .messageStarted) (t : DshTurn) :
    missingStart event t = startOf t := by
  rw [missingStart, startOf]
  simp [h]

variable (plus parts) in
theorem onEvent_turnCompleted (s : TurnState ToolNames DshTurn) (hc : s.crashed = false)
    (kind : Json) :
    ∃ ending, ((hooks plus.add parts).onEvent s ⟨.turnCompleted, [("reason", kind)]⟩).items =
        s.items ++ startOf s.handling ++ ending ∧
      ending.map RuntimeTurnEvent.type =
        (if textOf (some kind) ≠ some "error" ∧ s.handling.completedEmitted = false then
            [.messageCompleted]
          else []) ++ [.turnCompleted] ∧
      ((hooks plus.add parts).onEvent s ⟨.turnCompleted, [("reason", kind)]⟩).crashed = false ∧
      ((hooks plus.add parts).onEvent s
        ⟨.turnCompleted, [("reason", kind)]⟩).handling.startedEmitted = true ∧
      ((hooks plus.add parts).onEvent s ⟨.turnCompleted, [("reason", kind)]⟩).seenStarted =
        s.seenStarted := by
  have herror : endedByError ⟨.turnCompleted, [("reason", kind)]⟩ = false ↔
      textOf (some kind) ≠ some "error" := decide_eq_false_iff_not
  obtain ⟨handling, heq, hstarted, -⟩ := onEvent_of_not_call plus parts
    ⟨.turnCompleted, [("reason", kind)]⟩ hc ⟨nofun, nofun⟩
  rw [heq]
  refine ⟨missingMessage ⟨.turnCompleted, [("reason", kind)]⟩ s.handling ++
    [⟨.turnCompleted, [("reason", kind)]⟩], ?_, ?_, hc, hstarted, rfl⟩
  · rw [missingStart_eq fun h => TurnEventType.noConfusion h, List.append_assoc, List.append_assoc]
  · rw [List.map_append, missingMessage]
    simp only [herror, true_and, and_comm]
    split_ifs <;> rfl

variable (plus) in
theorem onRaw_of_turnEnd {kind : Json} (hc : s.crashed = false)
    (h : turnEnd parts raw = some kind) :
    ∃ ending, ((hooks plus.add parts).onRaw s raw).items = s.items ++ startOf s.handling ++ ending ∧
      ending.map RuntimeTurnEvent.type =
        endFront kind s.handling.completedEmitted ++ [.turnCompleted] ∧
      ((hooks plus.add parts).onRaw s raw).crashed = false ∧
      ((hooks plus.add parts).onRaw s raw).handling.startedEmitted = true ∧
      ((hooks plus.add parts).onRaw s raw).seenStarted = s.seenStarted := by
  obtain ⟨data, hkind, hmapped⟩ := mapDshEvent_of_turnEnd plus h s.mapping
  have honRaw : (hooks plus.add parts).onRaw s raw =
      { (mapTurnEnd parts data).foldl (hooks plus.add parts).onEvent s with
        mapping := s.mapping } := by
    have hevents : (hooks plus.add parts).mapEvents raw s.mapping =
        mapDshEvent plus.add parts raw s.mapping := rfl
    unfold RuntimeHooks.onRaw
    rw [hc, if_neg Bool.false_ne_true]
    simp only [hevents, hmapped]
  have hfail (payload : Dict) :
      mapTurnEnd parts data = [⟨.streamError, payload⟩, ⟨.turnCompleted, [("reason", kind)]⟩] →
      textOf (some kind) = some "error" ∨ textOf (some kind) = some "max-tokens" →
      ∃ ending, ((hooks plus.add parts).onRaw s raw).items =
          s.items ++ startOf s.handling ++ ending ∧
        ending.map RuntimeTurnEvent.type =
          endFront kind s.handling.completedEmitted ++ [.turnCompleted] ∧
        ((hooks plus.add parts).onRaw s raw).crashed = false ∧
        ((hooks plus.add parts).onRaw s raw).handling.startedEmitted = true ∧
        ((hooks plus.add parts).onRaw s raw).seenStarted = s.seenStarted := by
    intro heq hfailed
    obtain ⟨handling, hfirst, hstarted, hcompleted⟩ := onEvent_of_not_call plus parts
      ⟨.streamError, payload⟩ hc ⟨by rintro ⟨⟩, by rintro ⟨⟩⟩
    rw [missingStart_eq fun h => TurnEventType.noConfusion h, missingMessage,
      if_neg fun hno => by cases hno.1] at hfirst
    simp only [List.append_nil] at hfirst
    simp only [reduceCtorEq, false_and, or_false] at hcompleted
    rw [honRaw, heq, List.foldl_cons, List.foldl_cons, List.foldl_nil, hfirst]
    obtain ⟨ending, hitems, htypes, hcrashed, hstarted', hseen⟩ := onEvent_turnCompleted plus parts
      { s with handling, items := s.items ++ (startOf s.handling ++ [⟨.streamError, payload⟩]) }
      hc kind
    refine ⟨⟨.streamError, payload⟩ :: ending, ?_, ?_, hcrashed, hstarted', hseen⟩
    · rw [hitems]
      simp [startOf, hstarted]
    · rw [List.map_cons, htypes, endFront, if_pos hfailed, ← Bool.eq_iff_iff.mpr hcompleted]
      rfl
  by_cases herror : textOf (some kind) = some "error"
  · refine hfail (parts.turnError ((dictOf (Dict.get ((dictOf (Dict.get data "reason")).getD [])
      "error")).getD [])) ?_ (.inl herror)
    rw [mapTurnEnd, hkind, if_pos herror]
  · by_cases hmax : textOf (some kind) = some "max-tokens"
    · refine hfail parts.outputTruncated ?_ (.inr hmax)
      rw [mapTurnEnd, hkind, if_neg herror, if_pos hmax]
    · rw [honRaw, mapTurnEnd, hkind, if_neg herror, if_neg hmax, endFront,
        if_neg (not_or.mpr ⟨herror, hmax⟩), List.nil_append]
      exact onEvent_turnCompleted plus parts s hc kind

end DshRuntime

end WittyService
