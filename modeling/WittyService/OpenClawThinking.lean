import WittyService.OpenClawText
import WittyService.ThoughtStream

/-! The thoughts of a gateway turn. Each comes in deltas and, in a message of its own, as a whole.
What is known of the thought before is not forgotten when the whole of the next one comes. -/
namespace WittyService

namespace OpenClawRuntime

variable {plus : NumberAdd} {parts : OpenClawParts} {t : OpenClawTurn} {event : RuntimeTurnEvent}
  {events : List RuntimeTurnEvent}

def eventThought (event : RuntimeTurnEvent) : Option Thought :=
  match event.type with
  | .thinking => ((Dict.get event.payload "thinking").bind Json.nonemptyStr).map fun thinking =>
      .block thinking.toList
  | .thinkingDelta => ((Dict.get event.payload "delta").bind Json.nonemptyStr).map fun delta =>
      .delta delta.toList ((textOf (Dict.get event.payload "text")).map String.toList)
  | _ => none

def thoughtState (t : OpenClawTurn) : ThoughtState := ⟨t.accThinking, t.thinkingSuppress⟩

theorem eventText_of_type_ne (h : event.type ≠ .thinkingDelta) :
    eventText .thinkingDelta event = [] := if_neg h

variable {delta : List Char} {raw : GatewayEvent}

theorem eventText_thinkingDelta {payload : Dict}
    (h : Dict.get payload "delta" = some (.str (String.ofList delta))) :
    eventText .thinkingDelta ⟨.thinkingDelta, payload⟩ = delta := by
  rw [eventText, if_pos rfl, h]
  exact String.toList_ofList

theorem run_singleton (s : ThoughtState) (thought : Thought) :
    s.run [thought] = s.on thought := by
  rw [ThoughtState.run, ThoughtState.run, List.append_nil]

theorem onThinkingEvent_thought (htype : event.type = .thinking) (t : OpenClawTurn) :
    ((sentText .thinkingDelta (onThinkingEvent event t).1,
      thoughtState (onThinkingEvent event t).2) : List Char × ThoughtState) =
        (thoughtState t).run (eventThought event).toList := by
  have hevent : eventText .thinkingDelta event = [] :=
    eventText_of_type_ne (by rw [htype]; decide)
  unfold onThinkingEvent eventThought
  rw [htype]
  cases (Dict.get event.payload "thinking").bind Json.nonemptyStr with
  | none => rw [sentText_singleton, hevent]; rfl
  | some thinking =>
    dsimp only [Option.map_some, Option.toList_some]
    rw [run_singleton, ThoughtState.on, ThoughtState.onBlock]
    change _ = if t.accThinking ≠ [] ∧ t.accThinking <+: thinking.toList ∧
      t.accThinking.length < thinking.toList.length then _ else _
    split
    · rw [sentText_cons, sentText_singleton, hevent, List.append_nil, eventText_thinkingDelta rfl]
      rfl
    · rw [sentText_singleton, hevent]
      rfl

theorem onThinkingDeltaEvent_thought (htype : event.type = .thinkingDelta) (t : OpenClawTurn) :
    ((sentText .thinkingDelta (onThinkingDeltaEvent event t).1,
      thoughtState (onThinkingDeltaEvent event t).2) : List Char × ThoughtState) =
        (thoughtState t).run (eventThought event).toList := by
  unfold onThinkingDeltaEvent eventThought
  rw [htype]
  cases (Dict.get event.payload "delta").bind Json.nonemptyStr with
  | none => rfl
  | some delta =>
    dsimp only [Option.map_some, Option.toList_some]
    rw [run_singleton, ThoughtState.on, ThoughtState.onDelta]
    dsimp +instances only [thoughtState]
    generalize (if (Option.map String.toList (textOf (Dict.get event.payload "text"))).any _ = true
      then t.thinkingSuppress else []) = suppress
    split
    · rfl
    · obtain ⟨type, payload⟩ := event
      obtain rfl := htype
      rw [sentText_singleton, eventText_thinkingDelta]
      rw [Dict.get_set, if_pos rfl]

theorem onMappedEvent_thought (event : RuntimeTurnEvent) (t : OpenClawTurn) :
    ((sentText .thinkingDelta (onMappedEvent event t).1, thoughtState (onMappedEvent event t).2) :
      List Char × ThoughtState) = (thoughtState t).run (eventThought event).toList := by
  by_cases hblock : event.type = .thinking
  · rw [← onThinkingEvent_thought hblock, onMappedEvent, hblock]
  · by_cases hdelta : event.type = .thinkingDelta
    · rw [← onThinkingDeltaEvent_thought hdelta, onMappedEvent, hdelta]
    · have hnone : eventThought event = none := by
        unfold eventThought
        split
        · exact absurd ‹_› hblock
        · exact absurd ‹_› hdelta
        · rfl
      have hevent := eventText_of_type_ne hdelta
      have hsingle : sentText .thinkingDelta [event] = [] := by
        rw [sentText_singleton, hevent]
      rw [hnone]
      unfold onMappedEvent
      split
      · exact absurd ‹_› hblock
      · exact absurd ‹_› hdelta
      · exact congrArg (·, thoughtState t) hsingle
      · split
        · split
          · rw [sentText_cons, hsingle]
            rfl
          · exact congrArg (·, thoughtState t) hsingle
        · exact congrArg (·, thoughtState t) hsingle
      · exact congrArg (·, thoughtState t) hsingle

def thoughtsOf (events : List RuntimeTurnEvent) : List Thought := events.filterMap eventThought

theorem thoughtsOf_append (events more : List RuntimeTurnEvent) :
    thoughtsOf (events ++ more) = thoughtsOf events ++ thoughtsOf more := List.filterMap_append

theorem thoughtsOf_cons (event : RuntimeTurnEvent) (events : List RuntimeTurnEvent) :
    thoughtsOf (event :: events) = (eventThought event).toList ++ thoughtsOf events := by
  cases hthought : eventThought event with
  | none => exact List.filterMap_cons_none hthought
  | some thought => exact List.filterMap_cons_some hthought

theorem thoughtsOf_dropRepeated (seen : List String) (events : List RuntimeTurnEvent) :
    thoughtsOf (dropRepeated seen events) = thoughtsOf events := by
  induction events generalizing seen with
  | nil => rfl
  | cons event events ih =>
    rw [dropRepeated]
    split
    · next hrepeated =>
      have hnone : eventThought event = none := by
        unfold eventThought
        split
        · next htype =>
          rw [RuntimeTurnEvent.startedCallId, htype] at hrepeated
          cases hrepeated
        · next htype =>
          rw [RuntimeTurnEvent.startedCallId, htype] at hrepeated
          cases hrepeated
        · rfl
      rw [ih, thoughtsOf, thoughtsOf, List.filterMap_cons_none hnone]
    · rw [thoughtsOf_cons, thoughtsOf_cons, ih]

theorem handleRun_thoughts (hkeys : ∀ e ∈ events, HasKey e) (t : OpenClawTurn) : ∃ t',
    ((hooks plus.add parts).handleRun t events).2 = some t' ∧
    ((sentText .thinkingDelta ((hooks plus.add parts).handleRun t events).1, thoughtState t') :
      List Char × ThoughtState) = (thoughtState t).run (thoughtsOf events) := by
  induction events generalizing t with
  | nil => exact ⟨t, rfl, rfl⟩
  | cons event events ih =>
    obtain ⟨hkey, hkeys⟩ := List.forall_mem_cons.mp hkeys
    obtain ⟨artifacts, inputs, hhandle, hartifacts⟩ := exists_handle plus.add parts t hkey
    obtain ⟨t', hrun, hthoughts⟩ := ih hkeys { (onMappedEvent event t).2 with
      artifactInputs := inputs }
    obtain ⟨htext, hstate⟩ := Prod.mk.inj (onMappedEvent_thought event t)
    obtain ⟨hrest, hend⟩ := Prod.mk.inj hthoughts
    rw [RuntimeHooks.handleRun_some hhandle, thoughtsOf_cons, ThoughtState.run_append, ← htext,
      ← hstate]
    refine ⟨t', hrun, Prod.ext ?_ hend⟩
    rw [sentText_append, sentText_append, sentText_artifacts (.inr rfl) hartifacts,
      List.append_nil, hrest]
    rfl

def thinkingTexts (message : Dict) : List (List Char) :=
  (blocksOfType "thinking" ((listOf (Dict.get message "content")).getD [])).filterMap fun item =>
    ((Dict.get item "thinking").bind Json.nonemptyStr).map String.toList

def thinkingDelta (data : Dict) : Option Thought :=
  ((Dict.get data "delta").bind Json.nonemptyStr).map fun delta =>
    .delta delta.toList ((textOf (Dict.get data "text")).map String.toList)

def rawThoughts (raw : GatewayEvent) : List Thought :=
  if raw.type = "agent" ∧ textOf (Dict.get raw.payload "stream") = some "thinking" then
    ((dictOf (Dict.get raw.payload "data")).bind thinkingDelta).toList
  else if raw.type = "session.message" then
    (((dictOf (Dict.get raw.payload "message")).map thinkingTexts).getD []).map .block
  else []

theorem thoughtsOf_eq_nil (h : ∀ e ∈ events, eventThought e = none) : thoughtsOf events = [] :=
  List.filterMap_eq_nil_iff.mpr h

variable (message : Dict)

theorem thoughtsOf_extractThinkingEvents :
    thoughtsOf (extractThinkingEvents message) = (thinkingTexts message).map .block := by
  unfold extractThinkingEvents thinkingTexts
  induction blocksOfType "thinking" ((listOf (Dict.get message "content")).getD []) with
  | nil => rfl
  | cons item items ih =>
    rw [List.flatMap_cons, thoughtsOf_append, ih]
    cases hthinking : (Dict.get item "thinking").bind Json.nonemptyStr with
    | none =>
      rw [List.filterMap_cons_none (by rw [hthinking]; rfl)]
      rfl
    | some thinking =>
      rw [List.filterMap_cons_some (by rw [hthinking]; rfl), List.map_cons]
      have hget : ∀ signature : Option String,
          Dict.get (("thinking", .str thinking) ::
            (signature.map fun signature => ("signature", Json.str signature)).toList) "thinking" =
              some (.str thinking) := by
        intro signature
        cases signature with
        | none | some signature => rfl
      rw [thoughtsOf_cons, eventThought]
      rw [hget, Option.bind_some, nonemptyStr_of_bind hthinking]
      rfl

theorem thoughtsOf_usageEvents (usage : Dict) : thoughtsOf (usageEvents usage) = [] := by
  refine thoughtsOf_eq_nil fun e he => ?_
  unfold usageEvents at he
  split at he
  · rw [List.mem_singleton.mp he]
    rfl
  · cases he

theorem thoughtsOf_toolCalls : thoughtsOf (toolCalls message) = [] := by
  refine thoughtsOf_eq_nil fun e he => ?_
  obtain ⟨item, -, rfl⟩ := List.mem_map.mp he
  rfl

theorem thoughtsOf_mapSessionMessage :
    thoughtsOf (mapSessionMessage plus.add message) =
      if textOf (Dict.get message "role") = some "toolResult" ∨ isFinal message then []
      else (thinkingTexts message).map .block := by
  unfold mapSessionMessage
  split
  · next hrole =>
    rw [if_pos (.inl hrole)]
    rfl
  · next hrole =>
    have hassistant : ¬ textOf (Dict.get message "role") = some "toolResult" := by
      rw [hrole]
      decide
    by_cases hstop : textOf (Dict.get message "stopReason") = some "stop"
    · rw [if_neg (not_not.mpr hstop), thoughtsOf_append, thoughtsOf_append, thoughtsOf_usageEvents,
        thoughtsOf_toolCalls, List.nil_append, List.nil_append]
      by_cases htext : messageText message = ""
      · have hopen : isFinal message = false := by
          rw [isFinal, htext]
          exact Bool.and_false _
        rw [if_neg (not_not.mpr htext), if_neg fun h => h.elim hassistant (by simp [hopen])]
        exact thoughtsOf_extractThinkingEvents message
      · have hfinal : isFinal message = true := by
          rw [isFinal, hrole, hstop, decide_eq_true htext]
          rfl
        rw [if_pos htext, if_pos (.inr hfinal)]
        rfl
    · have hopen : isFinal message = false := by
        rw [isFinal, decide_eq_false hstop, Bool.and_false, Bool.false_and]
      rw [if_pos hstop, if_neg fun h => h.elim hassistant (by simp [hopen]), thoughtsOf_append,
        thoughtsOf_append, thoughtsOf_usageEvents, thoughtsOf_toolCalls, List.nil_append,
        List.append_nil]
      exact thoughtsOf_extractThinkingEvents message
  · next hresult hassistant =>
    have hopen : isFinal message = false := by
      rw [isFinal, decide_eq_false hassistant, Bool.false_and, Bool.false_and]
    rw [if_neg fun h => h.elim hresult (by simp [hopen])]
    exact thoughtsOf_extractThinkingEvents message

theorem thoughtsOf_mapAgent (payload : Dict) :
    thoughtsOf (mapAgent parts payload) =
      if textOf (Dict.get payload "stream") = some "thinking" then
        ((dictOf (Dict.get payload "data")).bind thinkingDelta).toList
      else [] := by
  unfold mapAgent
  split
  · next data hstream hdata =>
    rw [hstream, if_neg (by decide), DshRuntime.textEvent]
    split
    · split_ifs
      · rfl
      · rfl
    · rfl
  · next data hstream hdata =>
    rw [hstream, if_pos rfl, hdata, Option.bind_some, thinkingDelta]
    cases hdelta : (Dict.get data "delta").bind Json.nonemptyStr with
    | none => rfl
    | some delta =>
      have hget : (Dict.get [("delta", .str delta),
          ("text", .ofText (textOf (Dict.get data "text")))] "delta").bind Json.nonemptyStr =
            some delta := nonemptyStr_of_bind hdelta
      have htext : textOf (Dict.get [("delta", .str delta),
          ("text", .ofText (textOf (Dict.get data "text")))] "text") =
            textOf (Dict.get data "text") := by
        cases textOf (Dict.get data "text") with
        | none | some text => rfl
      rw [thoughtsOf_cons, eventThought]
      rw [hget, htext]
      rfl
  · next data hstream hdata =>
    rw [hstream, if_neg (by decide)]
    refine thoughtsOf_eq_nil fun e he => ?_
    unfold mapAgentToolStream at he
    dsimp only at he
    split at he
    · rw [List.mem_singleton.mp he]
      rfl
    · rw [List.mem_singleton.mp he]
      rfl
    · split at he
      · rw [List.mem_singleton.mp he]
        rfl
      · cases he
    · cases he
  · next data hstream hdata =>
    rw [hstream, if_neg (by decide)]
    refine thoughtsOf_eq_nil fun e he => ?_
    unfold mapLifecycle at he
    split at he
    · rw [List.mem_singleton.mp he]
      rfl
    · rw [List.mem_singleton.mp he]
      rfl
    · rw [List.mem_singleton.mp he]
      rfl
    · cases he
  · next _ hthinking _ _ =>
    split
    · next hstream =>
      cases hdata : dictOf (Dict.get payload "data") with
      | none => rfl
      | some data => exact absurd hdata (hthinking data hstream)
    · rfl

theorem thoughtsOf_mapGatewayEvents (h : ∀ text, Thought.block text ∉ rawThoughts raw) :
    thoughtsOf (mapGatewayEvents plus.add parts raw) = rawThoughts raw := by
  unfold mapGatewayEvents
  by_cases hchanged : raw.type = "sessions.changed"
  · rw [if_pos hchanged, rawThoughts, if_neg fun hand => absurd (hchanged ▸ hand.1) (by decide),
      if_neg (by rw [hchanged]; decide), mapSessionsChanged]
    split
    · rfl
    · rfl
  · rw [if_neg hchanged]
    by_cases hagent : raw.type = "agent"
    · rw [if_pos hagent, thoughtsOf_mapAgent, rawThoughts,
        if_neg (show ¬ raw.type = "session.message" by rw [hagent]; decide)]
      simp [hagent]
    · rw [if_neg hagent]
      split
      · next hmessage =>
        rw [rawThoughts, if_neg fun hand => hagent hand.1, if_pos hmessage] at h ⊢
        split
        · next message hdict =>
          rw [hdict] at h ⊢
          have hnone : thinkingTexts message = [] := by
            refine List.eq_nil_iff_forall_not_mem.mpr fun text htext => ?_
            exact h text (List.mem_map_of_mem htext)
          rw [thoughtsOf_mapSessionMessage, Option.map_some, Option.getD_some, hnone,
            List.map_nil, ite_self]
        · next hdict =>
          rw [hdict]
          rfl
      · next hmessage =>
        rw [rawThoughts, if_neg fun hand => hagent hand.1, if_neg hmessage]
        rfl

theorem ne_nil_of_mem_rawThoughts
    {text : Option (List Char)} (h : Thought.delta delta text ∈ rawThoughts raw) : delta ≠ [] := by
  unfold rawThoughts at h
  split_ifs at h
  · obtain ⟨data, -, h⟩ := Option.bind_eq_some_iff.mp (Option.mem_toList.mp h)
    obtain ⟨string, hstring, h⟩ := Option.map_eq_some_iff.mp h
    cases h
    intro hnil
    have hnone : string = "" := String.toList_eq_nil_iff.mp hnil
    have hself := nonemptyStr_of_bind hstring
    rw [hnone] at hself
    cases hself
  · obtain ⟨text, -, h⟩ := List.mem_map.mp h
    cases h
  · cases h

section

variable (plus : NumberAdd) (parts : OpenClawParts) (raws : List GatewayEvent)

theorem thoughtsOf_mapped :
    thoughtsOf ((hooks plus.add parts).mapped raws) =
      raws.flatMap fun raw => thoughtsOf (mapGatewayEvents plus.add parts raw) := by
  rw [mapped_hooks]
  induction raws with
  | nil => rfl
  | cons raw raws ih => rw [List.flatMap_cons, List.flatMap_cons, thoughtsOf_append, ih]

theorem gatewayText_thinking :
    gatewayText .thinkingDelta plus parts raws =
      (ThoughtState.run {}
        (raws.flatMap fun raw => thoughtsOf (mapGatewayEvents plus.add parts raw))).1 := by
  have hkeys : ∀ e ∈ dropRepeated [] ((hooks plus.add parts).mapped raws), HasKey e :=
    fun e he => hasKey_of_mem_mapped (mem_of_mem_dropRepeated he)
  obtain ⟨t', -, hrun⟩ := @handleRun_thoughts plus parts _ hkeys {}
  rw [gatewayText_eq (.inr rfl), ← thoughtsOf_mapped, ← thoughtsOf_dropRepeated []]
  exact congrArg Prod.fst hrun

end

end OpenClawRuntime

open OpenClawRuntime

/-- What comes in a turn for one thought: its deltas, each with the text so far, and between them
the message of the assistant that has it as its only thought. What comes besides tells of no
thought. -/
structure ThinkingBlock where
  text : List Char
  early : List (List Char)
  late : List (List Char)
  before : List GatewayEvent
  announced : GatewayEvent
  after : List GatewayEvent
  message : Dict
  splits : early.flatten ++ late.flatten = text
  before_streams : before.flatMap rawThoughts = streamedAs [] early
  after_streams : after.flatMap rawThoughts = streamedAs early.flatten late
  announced_type : announced.type = "session.message"
  announced_message : dictOf (Dict.get announced.payload "message") = some message
  assistant : textOf (Dict.get message "role") = some "assistant"
  own : thinkingTexts message = if text = [] then [] else [text]

namespace ThinkingBlock

variable (block : ThinkingBlock)

def raws : List GatewayEvent := block.before ++ [block.announced] ++ block.after

variable {raws : List GatewayEvent} {soFar : List Char} {deltas : List (List Char)}

theorem ne_nil_of_streams (h : raws.flatMap rawThoughts = streamedAs soFar deltas) :
    ∀ delta ∈ deltas, delta ≠ [] := by
  intro delta hdelta
  obtain ⟨text, htext⟩ := exists_mem_streamedAs hdelta soFar
  rw [← h] at htext
  obtain ⟨raw, -, hraw⟩ := List.mem_flatMap.mp htext
  exact ne_nil_of_mem_rawThoughts hraw

variable (plus : NumberAdd)

theorem thoughts_of_streams (parts : OpenClawParts)
    (h : raws.flatMap rawThoughts = streamedAs soFar deltas) :
    (raws.flatMap fun raw => thoughtsOf (mapGatewayEvents plus.add parts raw)) =
      streamedAs soFar deltas := by
  rw [← h]
  refine List.flatMap_congr fun raw hraw => thoughtsOf_mapGatewayEvents fun text htext => ?_
  have hmem : Thought.block text ∈ raws.flatMap rawThoughts :=
    List.mem_flatMap.mpr ⟨raw, hraw, htext⟩
  rw [h] at hmem
  exact block_not_mem_streamedAs text soFar deltas hmem

def thought : ThoughtBlock where
  text := block.text
  early := block.early
  late := block.late
  told := !isFinal block.message && block.text ≠ []
  splits := block.splits
  deltas_ne_nil delta h := (List.mem_append.mp h).elim
    (ne_nil_of_streams block.before_streams delta) (ne_nil_of_streams block.after_streams delta)
  told_ne_nil h := of_decide_eq_true (Bool.and_eq_true_iff.mp h).2

theorem thoughts_raws (parts : OpenClawParts) :
    (block.raws.flatMap fun raw => thoughtsOf (mapGatewayEvents plus.add parts raw)) =
      block.thought.thoughts := by
  have hannounced : thoughtsOf (mapGatewayEvents plus.add parts block.announced) =
      if block.thought.told then [.block block.text] else [] := by
    have hmap : mapGatewayEvents plus.add parts block.announced =
        mapSessionMessage plus.add block.message := by
      unfold mapGatewayEvents
      rw [block.announced_type, block.announced_message]
      rfl
    have hrole : ¬ textOf (Dict.get block.message "role") = some "toolResult" := by
      rw [block.assistant]
      decide
    have htold : block.thought.told = (!isFinal block.message && block.text ≠ []) := rfl
    rw [hmap, thoughtsOf_mapSessionMessage, block.own, htold]
    cases isFinal block.message with
    | true => rw [if_pos (.inr rfl)]; rfl
    | false =>
      rw [if_neg fun h => h.elim hrole Bool.false_ne_true]
      by_cases htext : block.text = []
      · rw [if_pos htext, decide_eq_false (not_not.mpr htext)]
        rfl
      · rw [if_neg htext, decide_eq_true htext]
        rfl
  rw [raws, List.flatMap_append, List.flatMap_append, List.flatMap_singleton,
    thoughts_of_streams plus parts block.before_streams,
    thoughts_of_streams plus parts block.after_streams, hannounced]
  rfl

end ThinkingBlock

def thinkingRaws (blocks : List ThinkingBlock) : List GatewayEvent :=
  blocks.flatMap ThinkingBlock.raws

def lastThought (blocks : List ThinkingBlock) : List Char :=
  blocks.foldl (fun previous block => block.thought.known previous) []

/-- The deltas that are sent for each thought make up its text. -/
def ThoughtsStreamedOnce (plus : NumberAdd) (parts : OpenClawParts) (blocks : List ThinkingBlock) :
    Prop :=
  ∀ earlier block, earlier ++ [block] <+: blocks →
    gatewayText .thinkingDelta plus parts (thinkingRaws (earlier ++ [block])) =
      gatewayText .thinkingDelta plus parts (thinkingRaws earlier) ++ block.text

/-- No thought overtakes its deltas. -/
def NoneOvertakes (blocks : List ThinkingBlock) : Prop :=
  ∀ earlier block, earlier ++ [block] <+: blocks →
    ¬ block.thought.Overtakes (lastThought earlier)

theorem forall_concat_prefix_iff {α : Type} {p : List α → α → Prop} {xs : List α} {x : α} :
    (∀ earlier y, earlier ++ [y] <+: xs ++ [x] → p earlier y) ↔
      (∀ earlier y, earlier ++ [y] <+: xs → p earlier y) ∧ p xs x := by
  constructor
  · intro h
    exact ⟨fun earlier y hy => h earlier y (hy.trans (List.prefix_append _ _)),
      h xs x (List.prefix_refl _)⟩
  · rintro ⟨hxs, hx⟩ earlier y hy
    obtain heq | hy := List.prefix_concat_iff.mp hy
    · obtain ⟨rfl, rfl⟩ := List.append_singleton_inj.mp heq
      exact hx
    · exact hxs earlier y hy

theorem lastThought_concat (blocks : List ThinkingBlock) (block : ThinkingBlock) :
    lastThought (blocks ++ [block]) = block.thought.known (lastThought blocks) := by
  rw [lastThought, lastThought, List.foldl_append]
  rfl

theorem run_thoughts {blocks : List ThinkingBlock} (h : NoneOvertakes blocks) :
    (ThoughtState.run {} (blocks.flatMap fun block => block.thought.thoughts)).2 =
      ⟨lastThought blocks, []⟩ := by
  induction blocks using List.reverseRecOn with
  | nil => rfl
  | append_singleton blocks block ih =>
    obtain ⟨hblocks, hblock⟩ := forall_concat_prefix_iff.mp h
    rw [List.flatMap_append, List.flatMap_singleton, ThoughtState.run_append, ih hblocks,
      (ThoughtState.run_block block.thought (lastThought blocks)).1 hblock, lastThought_concat]

theorem thoughts_thinkingRaws (plus : NumberAdd) (parts : OpenClawParts)
    (blocks : List ThinkingBlock) :
    ((thinkingRaws blocks).flatMap fun raw =>
      thoughtsOf (mapGatewayEvents plus.add parts raw)) =
        blocks.flatMap fun block => block.thought.thoughts := by
  rw [thinkingRaws, List.flatMap_assoc]
  exact List.flatMap_congr fun block _ => block.thoughts_raws plus parts

/-- The thoughts of a turn are streamed once exactly when no whole thought comes before its deltas
and is taken for the rest of the thought before it. -/
theorem thoughts_streamed_once_iff (plus : NumberAdd) (parts : OpenClawParts)
    (blocks : List ThinkingBlock) :
    ThoughtsStreamedOnce plus parts blocks ↔ NoneOvertakes blocks := by
  induction blocks using List.reverseRecOn with
  | nil =>
    have hnone : ∀ earlier (block : ThinkingBlock), ¬ earlier ++ [block] <+: [] := by
      intro earlier block h
      have hlength := h.length_le
      rw [List.length_append, List.length_singleton] at hlength
      exact Nat.not_succ_le_zero _ hlength
    exact ⟨fun _ earlier block h => absurd h (hnone earlier block),
      fun _ earlier block h => absurd h (hnone earlier block)⟩
  | append_singleton blocks block ih =>
    rw [ThoughtsStreamedOnce, NoneOvertakes, forall_concat_prefix_iff, forall_concat_prefix_iff]
    refine (and_congr_left' ih).trans (and_congr_right fun hblocks => ?_)
    rw [gatewayText_thinking, gatewayText_thinking, thoughts_thinkingRaws, thoughts_thinkingRaws,
      List.flatMap_append, List.flatMap_singleton, ThoughtState.run_append, run_thoughts hblocks]
    rw [List.append_cancel_left_eq]
    obtain ⟨honce, hovertakes⟩ := ThoughtState.run_block block.thought (lastThought blocks)
    constructor
    · intro heq hblock
      exact hovertakes hblock heq
    · intro hblock
      exact congrArg Prod.fst (honce hblock)

namespace ThinkingBlock

def thinkingFrame (delta text : String) : GatewayEvent :=
  ⟨"agent", [("stream", .str "thinking"),
    ("data", .obj [("delta", .str delta), ("text", .str text)])]⟩

def thinkingMessage (thinking : String) : Dict :=
  TextTurn.assistantMessage "toolUse" [.obj [("type", .str "thinking"),
    ("thinking", .str thinking)], .obj [("type", .str "toolCall"), ("name", .str "read")]]

def streamedFirst : ThinkingBlock where
  text := "Check".toList
  early := ["Check".toList]
  late := []
  before := [thinkingFrame "Check" "Check"]
  announced := TextTurn.sessionMessage (thinkingMessage "Check")
  after := []
  message := thinkingMessage "Check"
  splits := rfl
  before_streams := by decide +kernel
  after_streams := rfl
  announced_type := rfl
  announced_message := rfl
  assistant := rfl
  own := by decide +kernel

def toldFirst : ThinkingBlock where
  text := "Check it".toList
  early := []
  late := ["Check it".toList]
  before := []
  announced := TextTurn.sessionMessage (thinkingMessage "Check it")
  after := [thinkingFrame "Check it" "Check it"]
  message := thinkingMessage "Check it"
  splits := by decide +kernel
  before_streams := rfl
  after_streams := by decide +kernel
  announced_type := rfl
  announced_message := rfl
  assistant := rfl
  own := by decide +kernel

/-- The rest is sent ahead, and the delta brings it again. -/
theorem toldFirst_not_streamedOnce :
    ¬ ThoughtsStreamedOnce addWhole TextTurn.plainParts [streamedFirst, toldFirst] := by
  intro h
  have hsecond := h [streamedFirst] toldFirst (List.prefix_refl _)
  revert hsecond
  decide +kernel

end ThinkingBlock

end WittyService
