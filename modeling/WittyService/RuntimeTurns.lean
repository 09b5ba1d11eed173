import Mathlib.Data.Rat.Defs
import Mathlib.Tactic.SplitIfs
import WittyService.UsagePayload

/-! `RuntimeBase.run_turn`: the events of one turn of a runtime, with the usage of its steps added
up. The `session.usage` event that is sent holds the very dictionary the usage is added to. -/
namespace WittyService

inductive TurnEventType where
  | messageStarted
  | messageDelta
  | messageCompleted
  | turnCompleted
  | thinking
  | thinkingDelta
  | toolCallStarted
  | toolCallDelta
  | toolCallResponse
  | artifactStarted
  | artifactDelta
  | artifactCompleted
  | sessionUsage
  | sessionRuntimeChanged
  | streamError
  | questionAsked
  | questionReplied
  | questionRejected
  deriving DecidableEq, Repr

/-- `_TERMINAL_EVENT_TYPES`. -/
def TurnEventType.isTerminal : TurnEventType → Bool
  | .messageCompleted | .turnCompleted | .streamError => true
  | _ => false

structure RuntimeTurnEvent where
  type : TurnEventType
  payload : Dict := []
  deriving Repr

namespace RuntimeTurnEvent

def isTerminal (event : RuntimeTurnEvent) : Bool := event.type.isTerminal

def isUsage (event : RuntimeTurnEvent) : Bool := event.type = .sessionUsage

/-- The id `_should_skip_duplicate_started` compares, `none` where it compares nothing. -/
def startedCallId (event : RuntimeTurnEvent) : Option String :=
  if event.type = .toolCallStarted then
    ((Dict.get event.payload "tool_call_id").bind Json.nonemptyStr)
  else none

end RuntimeTurnEvent

/-- The hooks of a runtime and its state in a turn: what the mapping of raw events keeps, and what
the handling of mapped events keeps. The mapping may raise after some events, the handling raises
before it puts out any. `errorEvents` is what the runtime makes of the transport error it catches,
if it catches any. -/
structure RuntimeHooks (ρ σ τ : Type) where
  mapping : σ
  handling : τ
  mapEvents : ρ → σ → List RuntimeTurnEvent × Option σ
  onMappedEvent : RuntimeTurnEvent → τ → Option (List RuntimeTurnEvent × τ)
  onArtifactEvent : RuntimeTurnEvent → τ → Option (List RuntimeTurnEvent × τ)
  errorEvents : τ → List RuntimeTurnEvent
  errorEvents_noUsage : ∀ t, ∀ event ∈ errorEvents t, event.isUsage = false

structure TurnState (σ τ : Type) where
  seenStarted : List String := []
  mapping : σ
  handling : τ
  items : List RuntimeTurnEvent := []
  /-- One of the hooks has raised. -/
  crashed : Bool := false

namespace RuntimeHooks

variable {ρ σ τ : Type} (h : RuntimeHooks ρ σ τ)

def handle (event : RuntimeTurnEvent) (t : τ) : Option (List RuntimeTurnEvent × τ) :=
  (h.onMappedEvent event t).bind fun mapped =>
    (h.onArtifactEvent event mapped.2).map fun artifacts => (mapped.1 ++ artifacts.1, artifacts.2)

def onEvent (s : TurnState σ τ) (event : RuntimeTurnEvent) : TurnState σ τ :=
  if s.crashed || event.startedCallId.any (· ∈ s.seenStarted) then s
  else
    let s := { s with seenStarted := s.seenStarted ++ event.startedCallId.toList }
    match h.handle event s.handling with
    | none => { s with crashed := true }
    | some (events, handling) => { s with handling, items := s.items ++ events }

def onRaw (s : TurnState σ τ) (raw : ρ) : TurnState σ τ :=
  if s.crashed then s
  else
    let mapped := h.mapEvents raw s.mapping
    let s := mapped.1.foldl h.onEvent s
    match mapped.2 with
    | none => { s with crashed := true }
    | some mapping => { s with mapping }

def turn (raws : List ρ) : TurnState σ τ :=
  raws.foldl h.onRaw { mapping := h.mapping, handling := h.handling }

end RuntimeHooks

/-- An event that was sent: one of the hooks, or the one whose payload is the accumulated usage. -/
inductive Emitted where
  | event (event : RuntimeTurnEvent)
  | usage

namespace Emitted

def type : Emitted → TurnEventType
  | event e => e.type
  | usage => .sessionUsage

def isTerminal (emitted : Emitted) : Bool := emitted.type.isTerminal

def isUsage (emitted : Emitted) : Bool := emitted.type = .sessionUsage

end Emitted

structure TurnOutput where
  usageTotal : Dict := []
  usageEmitted : Bool := false
  emitted : List Emitted := []

section
variable (add : Json → Json → Json)

/-- The body of the innermost loop, `_sync_usage` included. -/
def TurnOutput.emit (out : TurnOutput) (item : RuntimeTurnEvent) : TurnOutput :=
  if item.isUsage then
    { out with usageTotal :=
        mergeUsage add out.usageTotal (normalizeUsagePayload add item.payload) }
  else if !out.usageTotal.isEmpty && !out.usageEmitted && item.isTerminal then
    { out with usageEmitted := true, emitted := out.emitted ++ [.usage, .event item] }
  else { out with emitted := out.emitted ++ [.event item] }

/-- What was sent when the hooks have put out `items`. -/
def emitAll (items : List RuntimeTurnEvent) : TurnOutput := items.foldl (TurnOutput.emit add) {}

section
variable {ρ σ τ : Type} (h : RuntimeHooks ρ σ τ) (raws : List ρ) (raised : Bool)

/-- `run_turn` over an upstream that ends, or that raises after the last raw event an error the
runtime catches. -/
def RuntimeHooks.runTurn : TurnOutput :=
  let s := h.turn raws
  let out := emitAll add s.items
  if s.crashed then out
  else if raised then
    { out with emitted := out.emitted ++ (h.errorEvents s.handling).map Emitted.event }
  else if !out.usageTotal.isEmpty && !out.usageEmitted then
    { out with emitted := out.emitted ++ [.usage] }
  else out

/-- The loop of `run_turn` was left by an exception. -/
def RuntimeHooks.leftEarly : Bool := (h.turn raws).crashed || raised

end

end

/-! The artifacts a runtime detects in the calls of the `write` tool, for calls with any ids. -/

/-- A value as a key. Numbers that are equal are one key; a list or a dictionary is none, and raises
where a key is asked for. -/
inductive HashKey where
  | null
  | number (value : ℚ)
  | text (text : String)
  deriving DecidableEq

namespace Json

def hashKey : Json → Option HashKey
  | .null => some .null
  | .bool b => some (.number (if b then 1 else 0))
  | .num mantissa exponent => some (.number (mkRat mantissa (10 ^ exponent)))
  | .str text => some (.text text)
  | .arr _ | .obj _ => none

def orElse (value default : Json) : Json := if value.truthy then value else default

end Json

structure ArtifactParts where
  extractWriteArguments : Json → Dict
  artifactStarted : Dict → Option Dict
  artifactCompleted : Dict → Bool → Option Dict

/-- `artifact_inputs_by_call_id`. -/
abbrev ArtifactInputs := List (HashKey × Dict)

namespace RuntimeTurnEvent

/-- The event is about a call of the `write` tool. -/
def isWrite (event : RuntimeTurnEvent) : Bool :=
  match (Dict.getD event.payload "name" .null).orElse
      (Dict.getD event.payload "tool_name" .null) with
  | .str toolName => toolName = "write"
  | _ => false

def callId (event : RuntimeTurnEvent) : Json :=
  (Dict.getD event.payload "tool_call_id" .null).orElse (.str "")

end RuntimeTurnEvent

namespace RuntimeBase

variable (parts : ArtifactParts)

def onArtifactEvent (event : RuntimeTurnEvent) (inputs : ArtifactInputs) :
    Option (List RuntimeTurnEvent × ArtifactInputs) :=
  if !event.isWrite then some ([], inputs)
  else
    match event.type with
    | .toolCallStarted =>
      let args := parts.extractWriteArguments (Dict.getD event.payload "arguments" .null)
      let started := (parts.artifactStarted args).toList.map (RuntimeTurnEvent.mk .artifactStarted)
      if args.isEmpty then some (started, inputs)
      else event.callId.hashKey.map fun key => (started, (key, args) :: inputs)
    | .toolCallResponse =>
      event.callId.hashKey.map fun key =>
        let args := (inputs.lookup key).getD []
        let isError := (Dict.getD event.payload "is_error" .null).truthy
        ((parts.artifactCompleted args isError).toList.map
          (RuntimeTurnEvent.mk .artifactCompleted), inputs)
    | _ => some ([], inputs)

variable {parts} {event : RuntimeTurnEvent} {inputs inputs' : ArtifactInputs}
  {events : List RuntimeTurnEvent}

theorem not_terminal_of_artifacts {type : TurnEventType} (htype : type.isTerminal = false)
    (payload : Option Dict) :
    ∀ e ∈ payload.toList.map (RuntimeTurnEvent.mk type), e.isTerminal = false := by
  intro e he
  obtain ⟨_, -, rfl⟩ := List.mem_map.mp he
  exact htype

theorem not_terminal_onArtifactEvent
    (h : onArtifactEvent parts event inputs = some (events, inputs')) :
    ∀ e ∈ events, e.isTerminal = false := by
  unfold onArtifactEvent at h
  split_ifs at h
  · cases h
    exact fun _ h => absurd h List.not_mem_nil
  · split at h
    · dsimp only at h
      split_ifs at h
      · cases h
        exact not_terminal_of_artifacts rfl _
      · obtain ⟨key, -, h⟩ := Option.map_eq_some_iff.mp h
        cases h
        exact not_terminal_of_artifacts rfl _
    · obtain ⟨key, -, h⟩ := Option.map_eq_some_iff.mp h
      cases h
      exact not_terminal_of_artifacts rfl _
    · cases h
      exact fun _ h => absurd h List.not_mem_nil

theorem type_of_mem_artifacts (h : onArtifactEvent parts event inputs = some (events, inputs')) :
    ∀ e ∈ events, e.type = .artifactStarted ∨ e.type = .artifactCompleted := by
  have hmap : ∀ (type : TurnEventType) (payload : Option Dict),
      ∀ e ∈ payload.toList.map (RuntimeTurnEvent.mk type), e.type = type := by
    intro type payload e he
    obtain ⟨_, -, rfl⟩ := List.mem_map.mp he
    rfl
  unfold onArtifactEvent at h
  split_ifs at h
  · cases h
    exact fun _ h => absurd h List.not_mem_nil
  · split at h
    · dsimp only at h
      split_ifs at h
      · cases h
        exact fun e he => .inl (hmap _ _ e he)
      · obtain ⟨key, -, h⟩ := Option.map_eq_some_iff.mp h
        cases h
        exact fun e he => .inl (hmap _ _ e he)
    · obtain ⟨key, -, h⟩ := Option.map_eq_some_iff.mp h
      cases h
      exact fun e he => .inr (hmap _ _ e he)
    · cases h
      exact fun _ h => absurd h List.not_mem_nil

theorem onArtifactEvent_isSome (parts : ArtifactParts) (inputs : ArtifactInputs)
    (h : (event.type = .toolCallStarted ∨ event.type = .toolCallResponse) →
      event.callId.hashKey.isSome) :
    (onArtifactEvent parts event inputs).isSome := by
  unfold onArtifactEvent
  split_ifs
  · rfl
  · split
    next htype =>
      dsimp only
      split_ifs
      · rfl
      · rw [Option.isSome_map]
        exact h (.inl htype)
    next htype =>
      rw [Option.isSome_map]
      exact h (.inr htype)
    · rfl

end RuntimeBase

end WittyService
