import WittyService.DshFraming
import WittyService.UsageReports

/-! When a dsh turn is framed: for any notifications, and a client error after them or none. -/
namespace WittyService

namespace DshRuntime

section
variable (plus : NumberAdd) (parts : DshParts)

def heard (raws : List Notification) : List Notification :=
  raws.takeWhile fun raw => !raises plus parts raw

def mappedAll (raws : List Notification) : List RuntimeTurnEvent := raws.flatMap (mapped plus parts)

/-- The first end of the turn that is heard comes last: no client error follows it, nothing is sent
for what follows it, and usage that follows it was not the first. If it is truncated, a message was
completed before. -/
def EndsLast (raws : List Notification) (raised : Bool) : Prop :=
  ∀ pre last post, heard plus parts raws = pre ++ last :: post →
    (∀ raw ∈ pre, turnEnd parts raw = none) → ∀ kind, turnEnd parts last = some kind →
      (textOf (some kind) = some "max-tokens" →
          ∃ e ∈ mappedAll plus parts pre, e.type = .messageCompleted) ∧
        (∀ e ∈ mappedAll plus parts post, e.isUsage ∨
          ∃ id, e.startedCallId = some id ∧
            ∃ started ∈ mappedAll plus parts pre, started.startedCallId = some id) ∧
        ((∀ raw ∈ raws, raises plus parts raw = false) → raised = false ∧
          ((∃ e ∈ mappedAll plus parts post, e.reports plus) →
            ∃ e ∈ mappedAll plus parts pre, e.reports plus))

end

variable {plus : NumberAdd} {parts : DshParts} {s : TurnState ToolNames DshTurn}
  {event : RuntimeTurnEvent} {raw : Notification} {raws pre post : List Notification}

variable {events : List RuntimeTurnEvent} {s' : TurnState ToolNames DshTurn} {kind : Json}

theorem quiet_of_aspect {other : List RuntimeTurnEvent} {seen : List String}
    (h : events.map (aspect plus) = other.map (aspect plus)) (hall : ∀ e ∈ events, Quiet e seen) :
    ∀ e ∈ other, Quiet e seen := by
  intro e he
  by_contra hquiet
  have hiff := exists_of_aspect h fun a =>
    ¬ (decide (a.1 = .sessionUsage) = true ∨ ∃ id, a.2.1 = some id ∧ id ∈ seen)
  obtain ⟨e', he', hquiet'⟩ := hiff.mpr ⟨e, he, hquiet⟩
  exact hquiet' (hall e' he')

theorem Silent.congr (h : Silent plus events s s') (other : List RuntimeTurnEvent)
    (heq : events.map (aspect plus) = other.map (aspect plus)) : Silent plus other s s' := by
  obtain ⟨more, hmore, husage, hreports⟩ := h.items
  refine ⟨h.crashed, h.started, h.seen, more, hmore, husage, ?_⟩
  rw [hreports]
  exact exists_of_aspect heq fun a => a.2.2 = true

theorem silent_onRaw_iff (hc : s.crashed = false) (hstarted : s.handling.startedEmitted = true)
    (hraises : raises plus parts raw = false) :
    ((∀ e ∈ mapped plus parts raw, Quiet e s.seenStarted) →
        Silent plus (mapped plus parts raw) s ((hooks plus.add parts).onRaw s raw)) ∧
      ((∃ more, ((hooks plus.add parts).onRaw s raw).items = s.items ++ more ∧
          ∀ e ∈ more, e.isUsage) → ∀ e ∈ mapped plus parts raw, Quiet e s.seenStarted) := by
  obtain ⟨mapping, heq⟩ := onRaw_of_not_raises plus parts hc hraises
  obtain ⟨hsilent, hquiet⟩ := silent_foldl_iff plus parts
    (mapDshEvent plus.add parts raw s.mapping).1 hc hstarted
  have haspect := (aspect_mapDshEvent plus parts raw s.mapping).1
  rw [heq]
  constructor
  · intro hall
    have h := (hsilent (quiet_of_aspect haspect.symm hall)).congr _ haspect
    exact ⟨h.crashed, h.started, h.seen, h.items⟩
  · exact fun hmore => quiet_of_aspect haspect (hquiet hmore)

theorem silent_foldl_onRaw_iff (hc : s.crashed = false)
    (hstarted : s.handling.startedEmitted = true)
    (hraises : ∀ raw ∈ raws, raises plus parts raw = false) :
    ((∀ e ∈ mappedAll plus parts raws, Quiet e s.seenStarted) →
        Silent plus (mappedAll plus parts raws) s (raws.foldl (hooks plus.add parts).onRaw s)) ∧
      ((∃ more, (raws.foldl (hooks plus.add parts).onRaw s).items = s.items ++ more ∧
          ∀ e ∈ more, e.isUsage) → ∀ e ∈ mappedAll plus parts raws, Quiet e s.seenStarted) := by
  induction raws generalizing s with
  | nil => exact ⟨fun _ => silent_refl hc hstarted, fun _ e he => absurd he List.not_mem_nil⟩
  | cons raw raws ih =>
    rw [List.forall_mem_cons] at hraises
    obtain ⟨hsilent, hquiet⟩ := silent_onRaw_iff hc hstarted hraises.1
    rw [mappedAll, List.flatMap_cons, List.forall_mem_append, List.foldl_cons]
    constructor
    · rintro ⟨hfirst, hrest⟩
      have h := hsilent hfirst
      have hnext := (ih h.crashed h.started hraises.2).1
      rw [h.seen] at hnext
      exact h.trans (hnext hrest)
    · rintro ⟨more, hmore, husage⟩
      obtain ⟨xs, hxs⟩ := items_onRaw plus parts s raw
      obtain ⟨ys, hys⟩ := items_foldl_onRaw raws ((hooks plus.add parts).onRaw s raw)
      rw [← hys, ← hxs, List.append_assoc, List.append_cancel_left_eq] at hmore
      rw [← hmore, List.forall_mem_append] at husage
      have hfirst := hquiet ⟨xs, hxs.symm, husage.1⟩
      have h := hsilent hfirst
      have hnext := (ih h.crashed h.started hraises.2).2
      rw [h.seen] at hnext
      exact ⟨hfirst, hnext ⟨ys, hys.symm, husage.2⟩⟩

variable (plus parts) in
theorem framing_foldl (hs : Framing s) (events : List RuntimeTurnEvent) :
    Framing (events.foldl (hooks plus.add parts).onEvent s) := by
  induction events generalizing s with
  | nil => exact hs
  | cons event events ih => exact ih (framing_onEvent plus parts hs event)

theorem framing_turn (hraises : ∀ raw ∈ raws, raises plus parts raw = false) :
    Framing ((hooks plus.add parts).turn raws) := by
  induction raws using List.reverseRecOn with
  | nil => exact (opened_turn (fun _ h => absurd h List.not_mem_nil) hraises).framing
  | append_singleton raws raw ih =>
    rw [List.forall_mem_append, List.forall_mem_singleton] at hraises
    have hs := ih hraises.1
    obtain ⟨mapping, heq⟩ := onRaw_of_not_raises plus parts hs.crashed hraises.2
    have hnext := framing_foldl plus parts hs
      (mapDshEvent plus.add parts raw ((hooks plus.add parts).turn raws).mapping).1
    rw [turn_concat, heq]
    exact ⟨hnext.crashed, hnext.started, hnext.head, hnext.completed⟩

theorem usage_of_mapAssistantMessage {data : Dict}
    (h : (mapAssistantMessage plus.add data).2 = false) :
    ∀ e ∈ (mapAssistantMessage plus.add data).1, e.isUsage := by
  unfold mapAssistantMessage at h ⊢
  dsimp only at h ⊢
  generalize hreported : (if hasTokenUsage (normalizeUsagePayload plus.add data) then
      [(⟨.sessionUsage, normalizeUsagePayload plus.add data⟩ : RuntimeTurnEvent)] else []) =
    reported
    at h ⊢
  have husage : ∀ e ∈ reported, e.isUsage := by
    intro e he
    rw [← hreported] at he
    split_ifs at he
    · rw [List.mem_singleton.mp he]
      rfl
    · cases he
  split at h
  · cases h
  · split_ifs at h with hcalls
    rw [if_neg hcalls]
    split at h
    · cases h
    · exact husage

theorem usage_of_raises (h : raises plus parts raw) (names : ToolNames) :
    (mapDshEvent plus.add parts raw names).2 = none ∧
      ∀ e ∈ (mapDshEvent plus.add parts raw names).1, e.isUsage := by
  have hnone := (aspect_mapDshEvent plus parts raw names).2
  rw [h, Option.isNone_iff_eq_none] at hnone
  refine ⟨hnone, ?_⟩
  unfold mapDshEvent at hnone ⊢
  split_ifs at hnone ⊢
  revert hnone
  split
  · exact fun h => nomatch h
  · exact fun h => nomatch h
  · exact fun h => nomatch h
  · intro hnone
    refine usage_of_mapAssistantMessage ?_
    by_contra hmapped
    rw [Bool.not_eq_false] at hmapped
    dsimp only at hnone
    rw [hmapped] at hnone
    cases hnone
  · exact fun h => nomatch h
  · exact fun h => nomatch h
  · exact fun h => nomatch h

theorem foldl_of_crashed (h : s.crashed = true) (raws : List Notification) :
    raws.foldl (hooks plus.add parts).onRaw s = s := by
  induction raws with
  | nil => rfl
  | cons raw raws ih =>
    rw [List.foldl_cons, RuntimeHooks.onRaw, h, if_pos rfl]
    exact ih

variable (plus parts raws) in
theorem not_raises_of_mem_heard : ∀ raw ∈ heard plus parts raws, raises plus parts raw = false := by
  intro raw hraw
  have h := List.mem_takeWhile_imp hraw
  rw [Bool.not_eq_true'] at h
  exact h

theorem heard_of_not_raises (h : ∀ raw ∈ raws, raises plus parts raw = false) :
    heard plus parts raws = raws :=
  List.takeWhile_eq_self_iff.mpr fun raw hraw => by rw [h raw hraw, Bool.not_false]

variable (plus parts) in
theorem turn_of_raises (h : ∃ raw ∈ raws, raises plus parts raw) :
    ((hooks plus.add parts).turn raws).crashed = true ∧
      ∃ more : List RuntimeTurnEvent, (∀ e ∈ more, e.isUsage) ∧
        ((hooks plus.add parts).turn raws).items =
          (more.foldl (hooks plus.add parts).onEvent
            ((hooks plus.add parts).turn (heard plus parts raws))).items := by
  have hsplit : heard plus parts raws ++ raws.dropWhile (fun raw => !raises plus parts raw) =
      raws := List.takeWhile_append_dropWhile
  have hhead := List.head?_dropWhile_not (fun raw => !raises plus parts raw) raws
  have hcrashed := (framing_turn (not_raises_of_mem_heard plus parts raws)).crashed
  cases hrest : raws.dropWhile (fun raw => !raises plus parts raw) with
  | nil =>
    obtain ⟨raw, hraw, hraises⟩ := h
    rw [hrest, List.append_nil] at hsplit
    rw [← hsplit] at hraw
    rw [not_raises_of_mem_heard plus parts raws raw hraw] at hraises
    cases hraises
  | cons raw rest =>
    rw [hrest] at hsplit hhead
    have hraises : raises plus parts raw := by simpa using hhead
    obtain ⟨hnone, husage⟩ := usage_of_raises hraises
      ((hooks plus.add parts).turn (heard plus parts raws)).mapping
    have hraw : (hooks plus.add parts).onRaw ((hooks plus.add parts).turn (heard plus parts raws))
        raw = { (mapDshEvent plus.add parts raw ((hooks plus.add parts).turn
            (heard plus parts raws)).mapping).1.foldl (hooks plus.add parts).onEvent
          ((hooks plus.add parts).turn (heard plus parts raws)) with crashed := true } := by
      have hevents : (hooks plus.add parts).mapEvents raw
          ((hooks plus.add parts).turn (heard plus parts raws)).mapping = mapDshEvent plus.add parts
            raw ((hooks plus.add parts).turn (heard plus parts raws)).mapping := rfl
      rw [RuntimeHooks.onRaw, hcrashed, if_neg Bool.false_ne_true]
      simp only [hevents, hnone]
    have hturn : (hooks plus.add parts).turn raws = (hooks plus.add parts).onRaw
        ((hooks plus.add parts).turn (heard plus parts raws)) raw := by
      have hfold : (hooks plus.add parts).turn (heard plus parts raws ++ raw :: rest) =
          (raw :: rest).foldl (hooks plus.add parts).onRaw
            ((hooks plus.add parts).turn (heard plus parts raws)) := List.foldl_append
      rw [hsplit, List.foldl_cons, foldl_of_crashed] at hfold
      · exact hfold
      · rw [hraw]
    rw [hturn, hraw]
    exact ⟨rfl, _, husage, rfl⟩

variable (plus) in
theorem emitted_cons_started {first : RuntimeTurnEvent} (h : first.type = .messageStarted)
    (items : List RuntimeTurnEvent) :
    ∃ rest, (emitAll plus.add (first :: items)).emitted = .event first :: rest := by
  have hinitial : (emitAll plus.add [first]).emitted <+:
      (emitAll plus.add (first :: items)).emitted :=
    emitted_mono (List.prefix_append [first] items)
  obtain ⟨rest, hrest⟩ := hinitial
  have hfirst : (emitAll plus.add [first]).emitted = [.event first] := by
    obtain ⟨type, payload⟩ := first
    cases h
    rfl
  rw [hfirst] at hrest
  exact ⟨rest, hrest.symm⟩

variable (plus) in
theorem open_emitted {items : List RuntimeTurnEvent} (hopen : Opening items)
    (hhead : ∀ first ∈ items.head?, first.type = .messageStarted) :
    OpenTypes ((emitAll plus.add items).emitted.map Emitted.type) ∧
      (∀ first ∈ ((emitAll plus.add items).emitted.map Emitted.type).head?,
        first = .messageStarted) ∧
      (.messageCompleted ∈ (emitAll plus.add items).emitted.map Emitted.type ↔
        ∃ e ∈ items, e.type = .messageCompleted) ∧
      (items ≠ [] → (emitAll plus.add items).emitted.map Emitted.type ≠ []) := by
  refine ⟨?_, ?_, ?_, ?_⟩
  · intro type htype
    obtain ⟨e, he, rfl⟩ := List.mem_map.mp htype
    cases e with
    | event e => exact hopen e ((event_mem_emitAll items e).mp he).1
    | usage => exact ⟨nofun, nofun⟩
  · cases items with
    | nil => exact fun first h => nomatch h
    | cons first items =>
      obtain ⟨rest, hrest⟩ := emitted_cons_started plus (hhead first rfl) items
      rw [hrest]
      intro type htype
      cases htype
      exact hhead first rfl
  · constructor
    · intro hmem
      obtain ⟨e, he, htype⟩ := List.mem_map.mp hmem
      cases e with
      | event e => exact ⟨e, ((event_mem_emitAll items e).mp he).1, htype⟩
      | usage => cases htype
    · rintro ⟨e, he, htype⟩
      refine List.mem_map.mpr ⟨.event e, (event_mem_emitAll items e).mpr ⟨he, ?_⟩, htype⟩
      rw [RuntimeTurnEvent.isUsage, htype]
      rfl
  · cases items with
    | nil => exact fun h => absurd rfl h
    | cons first items =>
      obtain ⟨rest, hrest⟩ := emitted_cons_started plus (hhead first rfl) items
      rw [hrest]
      exact fun _ => List.cons_ne_nil _ _

def late (plus : NumberAdd) (parts : DshParts) (s : TurnState ToolNames DshTurn) (raised : Bool) :
    List Emitted :=
  if s.crashed then []
  else if raised then (clientErrorEvents parts s.handling).map Emitted.event
  else if !(emitAll plus.add s.items).usageTotal.isEmpty &&
      !(emitAll plus.add s.items).usageEmitted then [.usage]
  else []

theorem emitted_eq_late (raws : List Notification) (raised : Bool) :
    ((hooks plus.add parts).runTurn plus.add raws raised).emitted =
      (emitAll plus.add ((hooks plus.add parts).turn raws).items).emitted ++
        late plus parts ((hooks plus.add parts).turn raws) raised := by
  unfold RuntimeHooks.runTurn late
  dsimp only
  split_ifs
  · exact (List.append_nil _).symm
  · rfl
  · rfl
  · exact (List.append_nil _).symm

theorem head_append {types more : List TurnEventType}
    (hstart : ∀ first ∈ types.head?, first = .messageStarted) (hne : types ≠ []) :
    ∀ first ∈ (types ++ more).head?, first = .messageStarted := by
  cases types with
  | nil => exact absurd rfl hne
  | cons first types => exact hstart

variable (plus) in
theorem open_with_start (hs : Framing s) (hopen : Opening s.items) :
    Opening (s.items ++ startOf s.handling) ∧
      (∀ first ∈ (s.items ++ startOf s.handling).head?, first.type = .messageStarted) ∧
      s.items ++ startOf s.handling ≠ [] ∧
      ((∃ e ∈ s.items ++ startOf s.handling, e.type = .messageCompleted) ↔
        ∃ e ∈ s.items, e.type = .messageCompleted) ∧
      (emitAll plus.add (s.items ++ startOf s.handling)).emitted =
        (emitAll plus.add s.items).emitted ++ (startOf s.handling).map Emitted.event := by
  rw [startOf]
  cases hstarted : s.handling.startedEmitted with
  | true =>
    rw [if_pos rfl, List.append_nil, List.map_nil, List.append_nil]
    exact ⟨hopen, hs.head, hs.started.mp hstarted, Iff.rfl, rfl⟩
  | false =>
    have hnil : s.items = [] := by
      by_contra hne
      rw [hs.started.mpr hne] at hstarted
      cases hstarted
    rw [if_neg Bool.false_ne_true, hnil, List.nil_append]
    refine ⟨opening_singleton ⟨by rintro ⟨⟩, by rintro ⟨⟩⟩, ?_, List.cons_ne_nil _ _, ?_, rfl⟩
    · intro first hfirst
      cases hfirst
      rfl
    · refine iff_of_false ?_ fun h => List.not_mem_nil h.choose_spec.1
      rintro ⟨e, he, htype⟩
      rw [List.mem_singleton.mp he] at htype
      cases htype

theorem framed_of_no_end (hends : ∀ raw ∈ heard plus parts raws, turnEnd parts raw = none)
    (raised : Bool) :
    Framed (((hooks plus.add parts).runTurn plus.add raws raised).emitted.map Emitted.type) := by
  rw [emitted_eq_late, List.map_append]
  by_cases hall : ∀ raw ∈ raws, raises plus parts raw = false
  · rw [heard_of_not_raises hall] at hends
    have hs := opened_turn hends hall
    obtain ⟨hopen, hstart, -, hne⟩ := open_emitted plus hs.opening hs.framing.head
    rw [late, hs.framing.crashed, if_neg Bool.false_ne_true]
    cases raised with
    | false =>
      rw [if_neg Bool.false_ne_true]
      split_ifs with hlate
      · rw [Bool.and_eq_true, Bool.not_eq_true', List.isEmpty_eq_false_iff] at hlate
        have hitems : ((hooks plus.add parts).turn raws).items ≠ [] := by
          intro hnil
          rw [hnil] at hlate
          exact hlate.1 rfl
        refine framed_of_open ?_ (head_append hstart (hne hitems))
        rintro type htype
        obtain htype | htype := List.mem_append.mp htype
        · exact hopen type htype
        · rw [List.mem_singleton.mp htype]
          exact ⟨nofun, nofun⟩
      · rw [List.map_nil, List.append_nil]
        exact framed_of_open hopen hstart
    | true =>
      obtain ⟨hopen', hhead, hne', -, hemitted⟩ := open_with_start plus hs.framing hs.opening
      obtain ⟨hopenTypes, hstart', -, hneTypes⟩ := open_emitted plus hopen' hhead
      rw [if_pos rfl, clientErrorEvents_eq, List.map_append, List.map_append, ← List.append_assoc,
        ← List.map_append]
      change Framed ((_ ++ (startOf _).map Emitted.event).map Emitted.type ++
        ([.streamError] ++ [.turnCompleted]))
      rw [← hemitted,
        framed_append_end hopenTypes (head_append hstart' (hneTypes hne')) (by decide)]
      exact ⟨List.pairwise_singleton _ _, fun hno => absurd (List.mem_singleton.mpr rfl) hno⟩
  · push Not at hall
    obtain ⟨hcrashed, more, husage, hitems⟩ := turn_of_raises plus parts
      (by simpa only [Bool.not_eq_false] using hall)
    have hopening : Opening more := fun e he => by
      rw [of_decide_eq_true (husage e he)]
      exact ⟨nofun, nofun⟩
    have hs := opened_foldl parts (opened_turn hends (not_raises_of_mem_heard plus parts raws))
      hopening
    obtain ⟨hopen, hstart, -⟩ := open_emitted plus hs.opening hs.framing.head
    rw [late, hcrashed, if_pos rfl, List.map_nil, List.append_nil, hitems]
    exact framed_of_open hopen hstart

/-- The state right after the turn was ended, the mapped events before being `events`. -/
structure Ended (plus : NumberAdd) (events : List RuntimeTurnEvent) (kind : Json)
    (s : TurnState ToolNames DshTurn) : Prop where
  crashed : s.crashed = false
  started : s.handling.startedEmitted = true
  seen : ∀ id, id ∈ s.seenStarted ↔ ∃ e ∈ events, e.startedCallId = some id
  last : ∃ front, (emitAll plus.add s.items).emitted.map Emitted.type = front ++ [.turnCompleted]
  framed : Framed ((emitAll plus.add s.items).emitted.map Emitted.type) ↔
    (textOf (some kind) = some "max-tokens" → ∃ e ∈ events, e.type = .messageCompleted)
  reports : (∃ e ∈ s.items, e.reports plus) ↔ ∃ e ∈ events, e.reports plus
  emitted : (emitAll plus.add s.items).usageEmitted = true ↔ ∃ e ∈ s.items, e.reports plus

theorem terminal_of_ending {ending : List RuntimeTurnEvent} {completed : Bool}
    (h : ending.map RuntimeTurnEvent.type = endFront kind completed ++ [.turnCompleted]) :
    ∀ e ∈ ending, e.isTerminal := by
  intro e he
  have hmem := List.mem_map_of_mem (f := RuntimeTurnEvent.type) he
  rw [h] at hmem
  rw [RuntimeTurnEvent.isTerminal]
  unfold endFront at hmem
  simp only [List.mem_append, List.mem_singleton] at hmem
  obtain (hmem | hmem) | hmem := hmem
  · split_ifs at hmem
    · rw [List.mem_singleton.mp hmem]
      rfl
    · cases hmem
  · split_ifs at hmem
    · rw [List.mem_singleton.mp hmem]
      rfl
    · cases hmem
  · rw [hmem]
    rfl

theorem ended_onRaw (hs : Opened plus events s) (hend : turnEnd parts raw = some kind) :
    Ended plus events kind ((hooks plus.add parts).onRaw s raw) := by
  obtain ⟨ending, hitems, htypes, hcrashed, hstarted, hseen⟩ :=
    onRaw_of_turnEnd plus hs.framing.crashed hend
  obtain ⟨hopen, hhead, hne, hmessage, -⟩ := open_with_start plus hs.framing hs.opening
  obtain ⟨hopenTypes, hstart, hcompleted, hneTypes⟩ := open_emitted plus hopen hhead
  have hterminal := terminal_of_ending htypes
  obtain ⟨usage, husage, hemitted, -, hsettled⟩ := emitted_append_terminal plus
    (s.items ++ startOf s.handling) ending hterminal
  have hending : ending ≠ [] := by
    rintro rfl
    exact absurd htypes.symm (List.append_ne_nil_of_right_ne_nil _ (List.cons_ne_nil _ _))
  have hreports : (∃ e ∈ s.items ++ startOf s.handling ++ ending, e.reports plus) ↔
      ∃ e ∈ s.items, e.reports plus := by
    refine ⟨?_, fun h => h.imp fun e he =>
      ⟨List.mem_append_left _ (List.mem_append_left _ he.1), he.2⟩⟩
    rintro ⟨e, he, hr⟩
    have husage := type_of_reports hr
    obtain he | he := List.mem_append.mp he
    · obtain he | he := List.mem_append.mp he
      · exact ⟨e, he, hr⟩
      · rw [startOf] at he
        split_ifs at he
        · cases he
        · rw [List.mem_singleton.mp he] at husage
          cases husage
    · have hend := hterminal e he
      rw [RuntimeTurnEvent.isTerminal, husage] at hend
      cases hend
  have hsent : (emitAll plus.add ((hooks plus.add parts).onRaw s raw).items).emitted.map
      Emitted.type = ((emitAll plus.add (s.items ++ startOf s.handling)).emitted.map Emitted.type ++
        usage.map Emitted.type) ++ (endFront kind s.handling.completedEmitted ++
          [.turnCompleted]) := by
    rw [hitems, hemitted, List.map_append, List.map_append, List.map_map, ← htypes]
    rfl
  have husageTypes : ∀ type ∈ usage.map Emitted.type, type = .sessionUsage := by
    intro type htype
    obtain ⟨e, he, rfl⟩ := List.mem_map.mp htype
    rw [husage e he]
    rfl
  refine ⟨hcrashed, hstarted, fun id => by rw [hseen, hs.seen],
    ⟨_, hsent.trans (List.append_assoc _ _ _).symm⟩, ?_, ?_, ?_⟩
  · have hmem : (.messageCompleted ∈ (emitAll plus.add (s.items ++ startOf s.handling)).emitted.map
        Emitted.type ++ usage.map Emitted.type) ↔ ∃ e ∈ s.items, e.type = .messageCompleted := by
      rw [List.mem_append, hcompleted, hmessage]
      exact or_iff_left fun h => by cases husageTypes _ h
    rw [hsent, framed_end_iff ?_ kind ?_ ?_, hmem, hs.message]
    · intro type htype
      obtain htype | htype := List.mem_append.mp htype
      · exact hopenTypes type htype
      · rw [husageTypes type htype]
        exact ⟨by rintro ⟨⟩, by rintro ⟨⟩⟩
    · rw [hmem]
      exact hs.framing.completed
    · rw [List.append_assoc]
      exact head_append hstart (hneTypes hne)
  · rw [hitems, hreports, hs.reports]
  · rw [hitems, hreports]
    constructor
    · intro h
      obtain ⟨pre, item, hinitial, -, r, hr, hreport⟩ := (usageEmitted_iff _).mp h
      exact hreports.mp ⟨r, hinitial.subset (List.mem_append_left _ hr), hreport⟩
    · rintro ⟨e, he, hr⟩
      refine hsettled hending fun hnil => ?_
      rw [usageTotal_isEmpty] at hnil
      rw [hnil e (List.mem_append_left _ (List.mem_append_left _ he))] at hr
      cases hr

theorem framed_append_iff
    (hs : Ended plus events kind s) (more : List RuntimeTurnEvent) (tail : List Emitted) :
    Framed (((emitAll plus.add (s.items ++ more)).emitted ++ tail).map Emitted.type) ↔
      Framed ((emitAll plus.add s.items).emitted.map Emitted.type) ∧
        (∀ e ∈ more, e.isUsage) ∧ tail = [] := by
  rw [← emitted_append_eq_iff plus s.items more]
  constructor
  · intro h
    obtain ⟨rest, hrest⟩ : (emitAll plus.add s.items).emitted <+:
        (emitAll plus.add (s.items ++ more)).emitted := emitted_mono (List.prefix_append _ _)
    obtain ⟨front, hfront⟩ := hs.last
    have hnil : rest ++ tail = [] := by
      by_contra hne
      obtain ⟨e, he⟩ := List.exists_mem_of_ne_nil _ hne
      have hlast := h.last
      rw [← hrest, List.append_assoc, List.map_append, hfront, List.pairwise_append] at hlast
      exact hlast.2.2 .turnCompleted (List.mem_append_right front List.mem_cons_self) e.type
        (List.mem_map_of_mem he) rfl
    obtain ⟨rfl, rfl⟩ := List.append_eq_nil_iff.mp hnil
    rw [List.append_nil] at h hrest
    rw [← hrest] at h
    exact ⟨h, hrest.symm, rfl⟩
  · rintro ⟨h, hemitted, rfl⟩
    rw [List.append_nil, hemitted]
    exact h

theorem late_eq_nil_iff {more : List RuntimeTurnEvent}
    (hs : Ended plus events kind s) (hc : s'.crashed = false)
    (hitems : s'.items = s.items ++ more) (husage : ∀ e ∈ more, e.isUsage) (raised : Bool) :
    late plus parts s' raised = [] ↔ raised = false ∧
      ((∃ e ∈ more, e.reports plus) → ∃ e ∈ events, e.reports plus) := by
  rw [late, hc, if_neg Bool.false_ne_true]
  cases raised with
  | true =>
    rw [if_pos rfl, clientErrorEvents_eq, List.map_append]
    exact iff_of_false (List.append_ne_nil_of_right_ne_nil _ (List.cons_ne_nil _ _)) nofun
  | false =>
    rw [if_neg Bool.false_ne_true, hitems, usageEmitted_append_usage _ husage, ← hs.reports]
    have htotal : (emitAll plus.add (s.items ++ more)).usageTotal = [] ↔
        ¬ ((∃ e ∈ s.items, e.reports plus) ∨ ∃ e ∈ more, e.reports plus) := by
      rw [usageTotal_isEmpty]
      simp only [List.mem_append, or_imp, forall_and, not_or, not_exists, not_and,
        Bool.not_eq_true]
    have hlate : (!(emitAll plus.add (s.items ++ more)).usageTotal.isEmpty &&
        !(emitAll plus.add s.items).usageEmitted) = true ↔
        ((∃ e ∈ s.items, e.reports plus) ∨ ∃ e ∈ more, e.reports plus) ∧
          ¬ ∃ e ∈ s.items, e.reports plus := by
      rw [Bool.and_eq_true, Bool.not_eq_true', List.isEmpty_eq_false_iff, Ne, htotal, not_not,
        Bool.not_eq_true', ← hs.emitted, Bool.not_eq_true]
    split_ifs with hsend
    · rw [hlate] at hsend
      refine iff_of_false nofun fun h => hsend.2 ?_
      exact h.2 (hsend.1.resolve_left hsend.2)
    · rw [hlate] at hsend
      refine iff_of_true rfl ⟨rfl, fun hmore => ?_⟩
      by_contra hnone
      exact hsend ⟨.inr hmore, hnone⟩

theorem framed_iff_of_end {last : Notification}
    (hsplit : heard plus parts raws = pre ++ last :: post)
    (hends : ∀ raw ∈ pre, turnEnd parts raw = none) (hend : turnEnd parts last = some kind)
    (raised : Bool) :
    Framed (((hooks plus.add parts).runTurn plus.add raws raised).emitted.map Emitted.type) ↔
      (textOf (some kind) = some "max-tokens" →
          ∃ e ∈ mappedAll plus parts pre, e.type = .messageCompleted) ∧
        (∀ e ∈ mappedAll plus parts post, e.isUsage ∨
          ∃ id, e.startedCallId = some id ∧
            ∃ started ∈ mappedAll plus parts pre, started.startedCallId = some id) ∧
        ((∀ raw ∈ raws, raises plus parts raw = false) → raised = false ∧
          ((∃ e ∈ mappedAll plus parts post, e.reports plus) →
            ∃ e ∈ mappedAll plus parts pre, e.reports plus)) := by
  have hraises : ∀ raw ∈ pre ++ last :: post, raises plus parts raw = false := by
    rw [← hsplit]
    exact not_raises_of_mem_heard plus parts raws
  rw [List.forall_mem_append, List.forall_mem_cons] at hraises
  have hs : Ended plus (mappedAll plus parts pre) kind _ :=
    ended_onRaw (opened_turn hends hraises.1) hend
  have hturn : (hooks plus.add parts).turn (heard plus parts raws) =
      post.foldl (hooks plus.add parts).onRaw
        ((hooks plus.add parts).onRaw ((hooks plus.add parts).turn pre) last) := by
    rw [hsplit, RuntimeHooks.turn, List.foldl_append]
    rfl
  obtain ⟨hsilent, hquiet⟩ := silent_foldl_onRaw_iff hs.crashed hs.started hraises.2.2
  rw [← hturn] at hsilent hquiet
  have hseen : (∀ e ∈ mappedAll plus parts post, Quiet e
        ((hooks plus.add parts).onRaw ((hooks plus.add parts).turn pre) last).seenStarted) ↔
      ∀ e ∈ mappedAll plus parts post, e.isUsage ∨ ∃ id, e.startedCallId = some id ∧
        ∃ started ∈ mappedAll plus parts pre, started.startedCallId = some id := by
    simp only [Quiet, Repeats, hs.seen]
  rw [hseen] at hsilent hquiet
  rw [emitted_eq_late]
  by_cases hall : ∀ raw ∈ raws, raises plus parts raw = false
  · rw [heard_of_not_raises hall] at hturn hsilent hquiet
    have hcrashed := (framing_turn hall).crashed
    obtain ⟨more, hmore⟩ := items_foldl_onRaw post
      ((hooks plus.add parts).onRaw ((hooks plus.add parts).turn pre) last)
    rw [← hturn] at hmore
    rw [← hmore, framed_append_iff hs, hs.framed]
    refine and_congr_right fun _ => ?_
    constructor
    · rintro ⟨husage, hlate⟩
      have hafter := hquiet ⟨more, hmore.symm, husage⟩
      obtain ⟨xs, hxs, -, hreports⟩ := (hsilent hafter).items
      rw [← hmore, List.append_cancel_left_eq] at hxs
      rw [← hxs] at hreports
      refine ⟨hafter, fun _ => ?_⟩
      rw [← hreports]
      exact (late_eq_nil_iff hs hcrashed hmore.symm husage raised).mp hlate
    · rintro ⟨hafter, hlate⟩
      obtain ⟨xs, hxs, husage, hreports⟩ := (hsilent hafter).items
      rw [← hmore, List.append_cancel_left_eq] at hxs
      rw [← hxs] at hreports husage
      refine ⟨husage, (late_eq_nil_iff hs hcrashed hmore.symm husage raised).mpr ?_⟩
      rw [hreports]
      exact hlate hall
  · have hexists : ∃ raw ∈ raws, raises plus parts raw := by
      push Not at hall
      simpa only [Bool.not_eq_false] using hall
    obtain ⟨hcrashed, events, hevents, hitems⟩ := turn_of_raises plus parts hexists
    rw [late, hcrashed, if_pos rfl, hitems]
    obtain ⟨more, hmore⟩ := items_foldl_onRaw post
      ((hooks plus.add parts).onRaw ((hooks plus.add parts).turn pre) last)
    rw [← hturn] at hmore
    obtain ⟨rest, hrest⟩ := items_foldl_onEvent plus parts events
      ((hooks plus.add parts).turn (heard plus parts raws))
    rw [← hrest, ← hmore, List.append_assoc, framed_append_iff hs, hs.framed,
      List.forall_mem_append, and_iff_left rfl]
    refine and_congr_right fun _ => ?_
    constructor
    · rintro ⟨husage, -⟩
      exact ⟨hquiet ⟨more, hmore.symm, husage⟩, fun hno => absurd hno hall⟩
    · rintro ⟨hafter, -⟩
      have hsil := hsilent hafter
      obtain ⟨xs, hxs, husage, -⟩ := hsil.items
      rw [← hmore, List.append_cancel_left_eq] at hxs
      obtain ⟨ys, hys, husage', -⟩ := ((silent_foldl_iff plus parts events hsil.crashed
        hsil.started).1 fun e he => .inl (hevents e he)).items
      rw [← hrest, List.append_cancel_left_eq] at hys
      rw [hxs, hys]
      exact ⟨husage, husage'⟩

variable (plus parts) in
/-- A dsh turn is framed exactly when its first end is the last thing that is sent. -/
theorem turn_framed_iff (raws : List Notification) (raised : Bool) :
    Framed (((hooks plus.add parts).runTurn plus.add raws raised).emitted.map Emitted.type) ↔
      EndsLast plus parts raws raised := by
  constructor
  · intro h pre last post hsplit hends kind hend
    exact (framed_iff_of_end hsplit hends hend raised).mp h
  · intro h
    have hsplit : (heard plus parts raws).takeWhile (fun raw => (turnEnd parts raw).isNone) ++
        (heard plus parts raws).dropWhile (fun raw => (turnEnd parts raw).isNone) =
        heard plus parts raws := List.takeWhile_append_dropWhile
    have hends : ∀ raw ∈ (heard plus parts raws).takeWhile (fun raw => (turnEnd parts raw).isNone),
        turnEnd parts raw = none := by
      intro raw hraw
      have hnone := List.mem_takeWhile_imp hraw
      exact Option.isNone_iff_eq_none.mp hnone
    have hhead := List.head?_dropWhile_not (fun raw => (turnEnd parts raw).isNone)
      (heard plus parts raws)
    cases hrest : (heard plus parts raws).dropWhile (fun raw => (turnEnd parts raw).isNone) with
    | nil =>
      rw [hrest, List.append_nil] at hsplit
      rw [hsplit] at hends
      exact framed_of_no_end hends raised
    | cons last post =>
      rw [hrest] at hsplit hhead
      obtain ⟨kind, hkind⟩ := Option.isSome_iff_exists.mp
        (Option.isNone_eq_false_iff.mp hhead)
      exact (framed_iff_of_end hsplit.symm hends hkind raised).mpr
        (h _ last post hsplit.symm hends kind hkind)

/-- A notification of the session `s`. -/
def sampleEvent (type : String) (data : Dict) : Notification where
  method := "session.event"
  payload := .obj [("sessionId", .str "s"),
    ("event", .obj [("type", .str type), ("data", .obj data)])]

def sampleParts : DshParts where
  sessionId := "s"
  loads _ := none
  turnError _ := []
  outputTruncated := []
  clientError := []
  extractWriteArguments _ := []
  artifactStarted _ := none
  artifactCompleted _ _ := none

def truncatedEnd : Notification :=
  sampleEvent "turn/end" [("reason", .obj [("kind", .str "max-tokens")])]

/-- A turn truncated before any message completes one after its error. -/
theorem truncated_turn_not_framed :
    ¬ ∀ (raws : List Notification) (raised : Bool),
      Framed (((hooks addWhole.add sampleParts).runTurn addWhole.add raws raised).emitted.map
        Emitted.type) := by
  intro h
  have herror := (h [truncatedEnd] false).error
  have htypes : ((hooks addWhole.add sampleParts).runTurn addWhole.add [truncatedEnd]
      false).emitted.map Emitted.type =
        [.messageStarted, .streamError, .messageCompleted, .turnCompleted] := by decide +kernel
  revert herror
  decide

def stepWithUsage : Notification :=
  sampleEvent "assistant/message" [("usage", .obj [("input_tokens", .num 3 0)]),
    ("message", .obj [("content", .arr [.obj [("type", .str "tool-call")]])])]

/-- A client error after a step with usage ends the turn without it. -/
theorem usage_lost_with_error :
    ¬ ∀ (raws : List Notification) (raised : Bool),
      UsageReportedOnce addWhole ((hooks addWhole.add sampleParts).turn raws).items
        ((hooks addWhole.add sampleParts).runTurn addWhole.add raws raised).emitted
        ((hooks addWhole.add sampleParts).leftEarly raws raised) := by
  intro h
  have hreports : ∃ item ∈ beforeTerminal
      ((hooks addWhole.add sampleParts).turn [stepWithUsage]).items, item.reports addWhole := by
    decide +kernel
  have husage := List.mem_map_of_mem (f := Emitted.type) ((h [stepWithUsage] true).sent hreports)
  have htypes : ((hooks addWhole.add sampleParts).runTurn addWhole.add [stepWithUsage]
      true).emitted.map Emitted.type = [.messageStarted, .streamError, .turnCompleted] := by
    decide +kernel
  revert husage
  decide

end DshRuntime

end WittyService
