import WittyService.GuardedRuns
import WittyService.RouteProcess
import WittyService.TextSegments

/-! `plan` of the channel delivery: the send actions for a text. -/
namespace WittyService

structure ChannelCapabilities where
  canEditMessage : Bool
  maxTextLength : Int
  maxReplySegments : Option Int
  deriving DecidableEq, Repr

inductive Presentation where
  | editPlaceholder
  | sendNew
  deriving DecidableEq, Repr

structure SendAction where
  index : Nat
  text : PyStr
  isConsoleNotice : Bool
  deriving DecidableEq, Repr

structure DeliveryPlan where
  presentation : Presentation
  actions : List SendAction
  truncated : Bool
  deriving DecidableEq, Repr

def CONSOLE_NOTICE_TEXT : PyStr := "（内容较长，完整结果请在控制台查看）".toList
def EMPTY_RESULT_TEXT : PyStr := "（本次没有产生可展示的文本结果）".toList

/-- The segments that `max_reply_segments` leaves, and whether it took some. -/
def limitSegments (limit : Option Int) (reserved : Int) (segments : List PyStr) :
    List PyStr × Bool :=
  match limit with
  | none => (segments, false)
  | some limit =>
    let normalizedLimit := (max 1 (limit - max 0 reserved)).toNat
    if segments.length > normalizedLimit then
      if normalizedLimit = 1 then ([CONSOLE_NOTICE_TEXT], true)
      else (segments.take (normalizedLimit - 1) ++ [CONSOLE_NOTICE_TEXT], true)
    else (segments, false)

def planSegments (text : Option PyStr) (capabilities : ChannelCapabilities) (reserved : Int) :
    List PyStr × Bool :=
  let maxLength := if capabilities.maxTextLength > 0 then capabilities.maxTextLength
    else DEFAULT_MAX_TEXT_LENGTH
  let content := (text.filter (PyStr.strip · ≠ [])).getD EMPTY_RESULT_TEXT
  let segments := splitText content maxLength
  limitSegments capabilities.maxReplySegments reserved
    (if segments = [] then [EMPTY_RESULT_TEXT] else segments)

def plan (text : Option PyStr) (capabilities : ChannelCapabilities) (reserved : Int) :
    DeliveryPlan :=
  let (segments, truncated) := planSegments text capabilities reserved
  { presentation := if capabilities.canEditMessage then .editPlaceholder else .sendNew
    actions := segments.mapIdx fun index segment =>
      ⟨index, segment, truncated && index == segments.length - 1⟩
    truncated := truncated }

theorem plan_texts (text : Option PyStr) (capabilities : ChannelCapabilities) (reserved : Int) :
    (plan text capabilities reserved).actions.map SendAction.text =
      (planSegments text capabilities reserved).1 := by
  refine List.ext_getElem? fun k => ?_
  simp only [plan, List.getElem?_map, List.getElem?_mapIdx, Option.map_map]
  exact Option.map_id'

variable {limit : Option Int} {reserved : Int} {segments : List PyStr} {text : Option PyStr}
  {capabilities : ChannelCapabilities}

theorem limitSegments_ne_nil
    (h : segments ≠ []) : (limitSegments limit reserved segments).1 ≠ [] := by
  unfold limitSegments
  split
  · exact h
  · dsimp only
    split_ifs
    · simp
    · simp
    · exact h

section

variable (text : Option PyStr) (capabilities : ChannelCapabilities)

theorem plan_ne_nil (reserved : Int) :
    (plan text capabilities reserved).actions ≠ [] := by
  have hfallback (segments : List PyStr) :
      (if segments = [] then [EMPTY_RESULT_TEXT] else segments) ≠ [] := by
    split_ifs with hnone
    · exact List.cons_ne_nil _ _
    · exact hnone
  have hsegments : (planSegments text capabilities reserved).1 ≠ [] :=
    limitSegments_ne_nil (hfallback _)
  rw [← plan_texts] at hsegments
  simpa using hsegments

theorem plan_length_le {limit : Int} (hlimit : capabilities.maxReplySegments = some limit)
    (reserved : Int) :
    ((plan text capabilities reserved).actions.length : Int) ≤ max 1 (limit - max 0 reserved) := by
  have hlength : (plan text capabilities reserved).actions.length =
      (planSegments text capabilities reserved).1.length := by
    rw [← plan_texts, List.length_map]
  rw [hlength]
  simp only [planSegments, hlimit, limitSegments]
  split_ifs with hlong hone <;> simp only [List.length_append, List.length_take,
    List.length_singleton] <;> omega

end

theorem limitSegments_cut (h : (limitSegments limit reserved segments).2 = true) :
    (limitSegments limit reserved segments).1.getLast? = some CONSOLE_NOTICE_TEXT := by
  unfold limitSegments at h ⊢
  split at h
  · cases h
  · dsimp only at h ⊢
    split_ifs at h ⊢
    · rfl
    · rw [List.getLast?_append, List.getLast?_singleton, Option.some_or]

theorem plan_truncated_last (h : (plan text capabilities reserved).truncated = true) :
    ((plan text capabilities reserved).actions.map SendAction.text).getLast? =
      some CONSOLE_NOTICE_TEXT := by
  rw [plan_texts]
  exact limitSegments_cut h

/-! What the delivery of an answer leaves visible on a channel. -/

inductive AdapterCall where
  | sendText (text : PyStr)
  | editText (ref : String) (text : PyStr)
  deriving DecidableEq, Repr

def sendAction (capabilities : ChannelCapabilities) (plan : DeliveryPlan)
    (placeholderRef : Option String) (action : SendAction) : AdapterCall :=
  match placeholderRef with
  | some ref =>
    if plan.presentation = .editPlaceholder ∧ capabilities.canEditMessage then
      .editText ref action.text
    else .sendText action.text
  | none => .sendText action.text

/-- The calls of `_deliver_final` as long as all are delivered. -/
def deliverFinal (capabilities : ChannelCapabilities)
    (placeholderRef activePlaceholderRef : Option String) (nonFinalSent : Nat) (text : PyStr) :
    List AdapterCall :=
  let plan := plan (some text) capabilities nonFinalSent
  plan.actions.map (sendAction capabilities plan (placeholderRef.or activePlaceholderRef))

structure Message where
  ref : String
  text : PyStr
  deriving DecidableEq, Repr

abbrev Channel := List Message

namespace Channel

/-- A call on a channel that names its new messages by `newRef`, and the place of the message
that shows the text. An edit of an unknown message is not delivered. -/
def perform (newRef : Channel → String) (channel : Channel) :
    AdapterCall → Option (Channel × Nat)
  | .sendText text => some (channel ++ [⟨newRef channel, text⟩], channel.length)
  | .editText ref text =>
    (channel.findIdx? (·.ref = ref)).map fun place => (channel.set place ⟨ref, text⟩, place)

def performAll (newRef : Channel → String) (channel : Channel) :
    List AdapterCall → Option (Channel × List Nat)
  | [] => some (channel, [])
  | call :: calls =>
    (channel.perform newRef call).bind fun (channel, place) =>
      (channel.performAll newRef calls).map fun (channel, places) => (channel, place :: places)

/-- Each segment is visible, at a place of its own and in order. -/
structure Shows (channel : Channel) (places : List Nat) (segments : List PyStr) : Prop where
  ordered : places.Pairwise (· < ·)
  texts : places.map (fun place => channel[place]?.map Message.text) = segments.map some

variable {newRef : Channel → String} {channel channel' : Channel} {places : List Nat}

variable {calls : List AdapterCall}

theorem performAll_cons {call : AdapterCall}
    (h : channel.performAll newRef (call :: calls) = some (channel', places)) :
    ∃ edited place rest, channel.perform newRef call = some (edited, place) ∧
      edited.performAll newRef calls = some (channel', rest) ∧ places = place :: rest := by
  obtain ⟨⟨edited, place⟩, hfirst, hrest⟩ := Option.bind_eq_some_iff.mp h
  simp only [Option.map_eq_some_iff, Prod.exists, Prod.mk.injEq] at hrest
  obtain ⟨last, rest, hrest, rfl, rfl⟩ := hrest
  exact ⟨edited, place, rest, hfirst, hrest, rfl⟩

section

variable {texts : List PyStr}
  (h : channel.performAll newRef (texts.map .sendText) = some (channel', places))
include h

theorem performAll_keeps :
    channel.IsPrefix channel' := by
  induction texts generalizing channel places with
  | nil =>
    cases h
    exact List.prefix_refl _
  | cons text texts ih =>
    obtain ⟨edited, place, rest, hfirst, hrest, rfl⟩ := performAll_cons h
    cases hfirst
    exact (List.prefix_append channel _).trans (ih hrest)

theorem performAll_ordered :
    places.Pairwise (· < ·) ∧ ∀ place ∈ places, channel.length ≤ place := by
  induction texts generalizing channel places with
  | nil =>
    cases h
    exact ⟨.nil, nofun⟩
  | cons text texts ih =>
    obtain ⟨edited, place, rest, hfirst, hrest, rfl⟩ := performAll_cons h
    cases hfirst
    obtain ⟨hordered, hlater⟩ := ih hrest
    have hlonger (place : Nat) (hmem : place ∈ rest) : channel.length < place := by
      have hle := hlater place hmem
      rw [List.length_append, List.length_singleton] at hle
      exact hle
    refine ⟨List.pairwise_cons.mpr ⟨hlonger, hordered⟩, fun place hmem => ?_⟩
    obtain rfl | hmem := List.mem_cons.mp hmem
    · exact Nat.le_refl _
    · exact Nat.le_of_lt (hlonger place hmem)

theorem performAll_texts :
    places.map (fun place => channel'[place]?.map Message.text) = texts.map some := by
  induction texts generalizing channel places with
  | nil =>
    cases h
    rfl
  | cons text texts ih =>
    obtain ⟨edited, place, rest, hfirst, hrest, rfl⟩ := performAll_cons h
    cases hfirst
    obtain ⟨added, hadded⟩ := performAll_keeps hrest
    have hplace : channel'[channel.length]?.map Message.text = some text := by
      rw [← hadded]
      simp
    rw [List.map_cons, List.map_cons, hplace, ih hrest]

theorem sends_show :
    channel'.Shows places texts :=
  ⟨(performAll_ordered h).1, performAll_texts h⟩

end

section

variable {ref : String} {text : PyStr}

variable {place : Nat}

theorem perform_edit (h : channel.perform newRef (.editText ref text) = some (channel', place)) :
    channel.findIdx? (·.ref = ref) = some place ∧ channel' = channel.set place ⟨ref, text⟩ := by
  obtain ⟨found, hfound, heq⟩ := Option.map_eq_some_iff.mp h
  cases heq
  exact ⟨hfound, rfl⟩

theorem findIdx?_set (h : channel.findIdx? (·.ref = ref) = some place) :
    (channel.set place ⟨ref, text⟩).findIdx? (·.ref = ref) = some place := by
  obtain ⟨hlt, -, hfirst⟩ := List.findIdx?_eq_some_iff_getElem.mp h
  refine List.findIdx?_eq_some_iff_getElem.mpr ⟨by rwa [List.length_set], ?_, ?_⟩
  · rw [List.getElem_set_self]
    exact decide_eq_true rfl
  · intro k hk
    rw [List.getElem_set_ne (by omega)]
    exact hfirst k hk

theorem edit_shows (h : channel.performAll newRef [.editText ref text] = some (channel', places)) :
    channel'.Shows places [text] := by
  obtain ⟨edited, place, rest, hfirst, hrest, rfl⟩ := performAll_cons h
  cases hrest
  obtain ⟨hfound, rfl⟩ := perform_edit hfirst
  obtain ⟨hlt, -⟩ := List.findIdx?_eq_some_iff_getElem.mp hfound
  refine ⟨List.pairwise_singleton _ _, ?_⟩
  simp [hlt]

end

theorem edits_hide {ref : String} {first second : PyStr} {segments : List PyStr}
    (h : channel.performAll newRef (.editText ref first :: .editText ref second :: calls) =
      some (channel', places)) : ¬ channel'.Shows places segments := by
  obtain ⟨edited, place, rest, hfirst, hrest, rfl⟩ := performAll_cons h
  obtain ⟨edited', place', rest', hsecond, -, rfl⟩ := performAll_cons hrest
  obtain ⟨hfound, rfl⟩ := perform_edit hfirst
  obtain ⟨hfound', -⟩ := perform_edit hsecond
  rw [findIdx?_set hfound] at hfound'
  cases hfound'
  intro hshows
  have hlt : place < place := (List.pairwise_cons.mp hshows.ordered).1 place List.mem_cons_self
  exact Nat.lt_irrefl place hlt

end Channel

theorem sendAction_edit (hedit : capabilities.canEditMessage = true)
    {ref : String} {action : SendAction} :
    sendAction capabilities (plan text capabilities reserved) (some ref) action =
      .editText ref action.text := by
  simp [sendAction, plan, hedit]

/-- On a channel that can edit its messages, when all calls are delivered: every segment of the
answer is visible at the end, once and in order, if and only if there is no placeholder to edit
or the plan has a single segment. -/
theorem final_shown_iff (capabilities : ChannelCapabilities)
    (hedit : capabilities.canEditMessage = true) (newRef : Channel → String)
    (placeholderRef activePlaceholderRef : Option String) (nonFinalSent : Nat) (text : PyStr)
    (channel channel' : Channel) (places : List Nat)
    (h : channel.performAll newRef (deliverFinal capabilities placeholderRef
      activePlaceholderRef nonFinalSent text) = some (channel', places)) :
    channel'.Shows places
        ((plan (some text) capabilities nonFinalSent).actions.map SendAction.text) ↔
      (placeholderRef = none ∧ activePlaceholderRef = none) ∨
        (plan (some text) capabilities nonFinalSent).actions.length = 1 := by
  unfold deliverFinal at h
  have hsent := plan_ne_nil (some text) capabilities nonFinalSent
  cases href : placeholderRef.or activePlaceholderRef with
  | none =>
    have hnone : placeholderRef = none ∧ activePlaceholderRef = none :=
      Option.or_eq_none_iff.mp href
    have hcalls : (plan (some text) capabilities nonFinalSent).actions.map
        (sendAction capabilities (plan (some text) capabilities nonFinalSent) none) =
          ((plan (some text) capabilities nonFinalSent).actions.map SendAction.text).map
            .sendText := by
      rw [List.map_map]
      rfl
    rw [href, hcalls] at h
    -- every segment is a message of its own
    exact iff_of_true (Channel.sends_show h) (.inl hnone)
  | some ref =>
    have hsome : ¬ (placeholderRef = none ∧ activePlaceholderRef = none) := fun hnone => by
      rw [hnone.1, hnone.2] at href
      cases href
    have hcalls : (plan (some text) capabilities nonFinalSent).actions.map
        (sendAction capabilities (plan (some text) capabilities nonFinalSent) (some ref)) =
          ((plan (some text) capabilities nonFinalSent).actions.map SendAction.text).map
            (.editText ref) := by
      rw [List.map_map]
      exact List.map_congr_left fun action _ => sendAction_edit hedit
    rw [href, hcalls] at h
    rw [or_iff_right hsome, ← List.length_map SendAction.text]
    generalize hsegments :
      (plan (some text) capabilities nonFinalSent).actions.map SendAction.text = segments at h ⊢
    -- each edit writes over the one before
    match segments, h with
    | [], h => exact absurd (List.map_eq_nil_iff.mp hsegments) hsent
    | [segment], h => exact iff_of_true (Channel.edit_shows h) rfl
    | first :: second :: segments, h =>
      exact iff_of_false (Channel.edits_hide h) (by simp)

/-- The placeholder could not be sent: both segments are new messages. -/
theorem segments_shown : Channel.Shows
    [⟨"1", "question".toList⟩, ⟨"new", "ab".toList⟩, ⟨"new", "cd".toList⟩] [1, 2]
      ((plan (some "ab\n\ncd".toList) ⟨true, 2, none⟩ 1).actions.map SendAction.text) :=
  (final_shown_iff ⟨true, 2, none⟩ rfl (fun _ => "new") none none 1 "ab\n\ncd".toList
    [⟨"1", "question".toList⟩] _ _ (by decide +kernel)).mpr (.inl ⟨rfl, rfl⟩)

/-- Both segments replace the placeholder, the first is lost. -/
theorem first_segment_lost :
    ¬ ∀ (capabilities : ChannelCapabilities), capabilities.canEditMessage = true →
      ∀ (newRef : Channel → String) (placeholderRef activePlaceholderRef : Option String)
        (nonFinalSent : Nat) (text : PyStr) (channel channel' : Channel) (places : List Nat),
      channel.performAll newRef (deliverFinal capabilities placeholderRef
        activePlaceholderRef nonFinalSent text) = some (channel', places) →
      ∀ action ∈ (plan (some text) capabilities nonFinalSent).actions,
        action.text ∈ channel'.map Message.text := by
  intro h
  have hlost := h ⟨true, 2, none⟩ rfl (fun _ => "new") (some "1") none 1 "ab\n\ncd".toList
    [⟨"1", "placeholder".toList⟩] [⟨"1", "cd".toList⟩] [0, 0] (by decide +kernel)
    ⟨0, "ab".toList, false⟩ (by decide +kernel)
  exact absurd hlost (by decide +kernel)

def RouterConfig.ofCapabilities (capabilities : ChannelCapabilities) (requestedDepth : Int)
    (renderError : String → String) : RouterConfig where
  requestedDepth := requestedDepth
  canEdit := capabilities.canEditMessage
  plan := fun text reserved =>
    (WittyService.plan (some text.toList) capabilities reserved).actions.map
      fun action => String.ofList action.text
  renderError := renderError

def RouteEvent.answerCall? : RouteEvent → Option AdapterCall
  | sent _ (.answer text) (some ref) => some (.editText ref text.toList)
  | sent _ (.answer text) none => some (.sendText text.toList)
  | _ => none

namespace RouteState

variable {cfg : RouterConfig} {s t : RouteState} {id : Nat} {item : QueuedMessage}

theorem takingEvents_call : s.takingEvents.filterMap RouteEvent.answerCall? = [] := by
  refine List.filterMap_eq_nil_iff.mpr fun event hmem => ?_
  obtain ⟨turnId, rfl | rfl⟩ := mem_takingEvents hmem
  · rfl
  · rfl

variable {turn : TurnContext}

theorem deliver_calls {ref : Option String} {actions : List String}
    (h : GuardedRuns.run (routeStep cfg) (s.deliver cfg id item turn true ref actions)
      (actions.map fun _ => .worker id (.sent true none)) = some t) :
    ∃ events, t.trace = s.trace ++ events ∧ events.filterMap RouteEvent.answerCall? =
      actions.map fun text => match if cfg.canEdit then ref else none with
        | some ref => .editText ref text.toList
        | none => .sendText text.toList := by
  induction actions generalizing s with
  | nil =>
    cases h
    refine ⟨_, endMessage_trace, ?_⟩
    simp only [List.filterMap_cons, RouteEvent.answerCall?, takingEvents_call, List.map_nil]
  | cons text rest ih =>
    obtain ⟨u, hu, hrest⟩ := Option.bind_eq_some_iff.mp h
    -- the segment is delivered, and the worker goes on with the rest
    simp only [deliver, routeStep, workerStep, RouteState.await, Function.update_self, processStep,
      if_true, Option.some.injEq] at hu
    rw [← hu] at hrest
    obtain ⟨events, htrace, hcalls⟩ := ih hrest
    refine ⟨.sent turn.turnId (.answer text) (if cfg.canEdit then ref else none) :: events, ?_, ?_⟩
    · rw [htrace]
      simp [say, emit]
    · rw [List.filterMap_cons, hcalls]
      cases (if cfg.canEdit then ref else none) with
      | none | some ref => rfl

/-- While all is delivered, the router makes the calls of `_deliver_final`. -/
theorem deliverFinal_calls {capabilities : ChannelCapabilities} {requestedDepth : Int}
    {renderError : String → String} {text : String}
    (hcfg : cfg = .ofCapabilities capabilities requestedDepth renderError)
    (h : GuardedRuns.run (routeStep cfg) (s.deliverFinal cfg id item turn text)
      ((cfg.plan text turn.nonFinalSent).map fun _ => .worker id (.sent true none)) = some t) :
    ∃ events, t.trace = s.trace ++ events ∧ events.filterMap RouteEvent.answerCall? =
      WittyService.deliverFinal capabilities s.placeholderRef s.activePlaceholder
        turn.nonFinalSent text.toList := by
  obtain ⟨events, htrace, hcalls⟩ := deliver_calls h
  refine ⟨events, htrace, hcalls.trans ?_⟩
  rw [hcfg]
  simp only [RouterConfig.ofCapabilities, WittyService.deliverFinal, List.map_map]
  refine List.map_congr_left fun action _ => ?_
  obtain ⟨canEdit, maxTextLength, maxReplySegments⟩ := capabilities
  cases canEdit with
  | false =>
    cases s.placeholderRef.or s.activePlaceholder with
    | none | some ref => simp [sendAction]
  | true =>
    cases s.placeholderRef.or s.activePlaceholder with
    | none => simp [sendAction]
    | some ref => simp [sendAction, WittyService.plan]

def delivering : RouteState :=
  ⟨[], some 0, 0, none, none, some "1", none, none, none, fun _ => none, 1, [], 1, []⟩

theorem both_segments_called : ∃ t : RouteState, ∃ events, t.trace = delivering.trace ++ events ∧
    events.filterMap RouteEvent.answerCall? =
      WittyService.deliverFinal ⟨true, 2, none⟩ (some "1") none 1 "ab\n\ncd".toList := by
  let cfg := RouterConfig.ofCapabilities ⟨true, 2, none⟩ 0 id
  have hruns : (GuardedRuns.run (routeStep cfg)
      (delivering.deliverFinal cfg 0 ⟨0, ""⟩ ⟨0, "s", 0, 1, false⟩ "ab\n\ncd")
      ((cfg.plan "ab\n\ncd" 1).map fun _ => .worker 0 (.sent true none))).isSome := by
    decide +kernel
  obtain ⟨t, ht⟩ := Option.isSome_iff_exists.mp hruns
  exact ⟨t, deliverFinal_calls rfl ht⟩

end RouteState

end WittyService
