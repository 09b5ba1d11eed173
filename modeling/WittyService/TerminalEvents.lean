import WittyService.UsageEmission

/-! When a turn of a runtime puts out a terminal event or is left by an exception, for any hooks
that tell from a raw event alone whether it ends the turn. -/
namespace WittyService

/-- What `run_turn` has put out, and whether an exception leaves it. -/
structure SentTurn where
  types : List TurnEventType
  raised : Bool
  deriving DecidableEq, Repr

def SentTurn.ends (sent : SentTurn) : Bool := sent.raised || sent.types.any TurnEventType.isTerminal

def anyTerminal (events : List RuntimeTurnEvent) : Bool := events.any RuntimeTurnEvent.isTerminal

theorem anyTerminal_singleton (event : RuntimeTurnEvent) : anyTerminal [event] = event.isTerminal :=
  Bool.or_false _

section

variable {events : List RuntimeTurnEvent}

theorem anyTerminal_eq_false (h : ∀ e ∈ events, e.isTerminal = false)
    : anyTerminal events = false :=
  List.any_eq_false.mpr fun e he => Bool.not_eq_true _ ▸ h e he

theorem anyTerminal_of_types {types : List TurnEventType} (htypes : ∀ e ∈ events, e.type ∈ types)
    (hquiet : ∀ type ∈ types, type.isTerminal = false := by decide) : anyTerminal events = false :=
  anyTerminal_eq_false fun e he => hquiet e.type (htypes e he)

theorem anyTerminal_of_type {type : TurnEventType}
    (htype : ∀ e ∈ events, e.type = type) (hquiet : type.isTerminal = false := by decide) :
    anyTerminal events = false :=
  anyTerminal_eq_false fun e he => (congrArg TurnEventType.isTerminal (htype e he)).trans hquiet

end

theorem anyTerminal_append (events more : List RuntimeTurnEvent) :
    anyTerminal (events ++ more) = (anyTerminal events || anyTerminal more) := List.any_append

theorem terminal_emitAll (plus : NumberAdd) (items : List RuntimeTurnEvent) :
    (emitAll plus.add items).emitted.any Emitted.isTerminal = anyTerminal items := by
  have hitem (item : RuntimeTurnEvent) : Emitted.isTerminal (.event item) = item.isTerminal := rfl
  have husage : Emitted.isTerminal .usage = false := rfl
  induction items using List.reverseRecOn with
  | nil => rfl
  | append_singleton items item ih =>
    rw [emitAll_concat, anyTerminal_append, anyTerminal_singleton, ← ih]
    obtain ⟨hskipped, heq⟩ | ⟨-, -, heq⟩ | ⟨-, -, heq⟩ :=
      emit_cases (emitAll plus.add items) item
    · rw [heq, not_terminal_of_isUsage hskipped, Bool.or_false]
    · rw [heq]
      simp [husage, hitem]
    · rw [heq]
      simp [hitem]

theorem not_terminal_of_startedCallId {event : RuntimeTurnEvent} {p : String → Bool}
    (h : event.startedCallId.any p = true) : event.isTerminal = false := by
  unfold RuntimeTurnEvent.startedCallId at h
  split_ifs at h with htype
  · rw [RuntimeTurnEvent.isTerminal, htype]
    rfl
  · cases h

namespace RuntimeHooks

variable {ρ σ τ : Type} {h : RuntimeHooks ρ σ τ} {ends : ρ → Bool} {s : TurnState σ τ}

/-- The hooks make terminal events of the raw events that end a turn, and of no others. -/
structure EndsBy (h : RuntimeHooks ρ σ τ) (ends : ρ → Bool) : Prop where
  maps : ∀ raw s, anyTerminal (h.mapEvents raw s).1 = ends raw
  handles : ∀ event t out, h.handle event t = some out → anyTerminal out.1 = event.isTerminal

theorem handle_terminal (hmapped : ∀ event t out, h.onMappedEvent event t = some out →
      anyTerminal out.1 = event.isTerminal)
    (hartifacts : ∀ event t out, h.onArtifactEvent event t = some out →
      anyTerminal out.1 = false) (event : RuntimeTurnEvent) (t : τ)
    (out : List RuntimeTurnEvent × τ) (hhandle : h.handle event t = some out) :
    anyTerminal out.1 = event.isTerminal := by
  obtain ⟨mapped, hevent, hrest⟩ := Option.bind_eq_some_iff.mp hhandle
  obtain ⟨artifacts, hartifact, rfl⟩ := Option.map_eq_some_iff.mp hrest
  rw [anyTerminal_append, hmapped _ _ _ hevent, hartifacts _ _ _ hartifact, Bool.or_false]

theorem onEvent_terminal (hh : h.EndsBy ends) (event : RuntimeTurnEvent)
    (hc : (h.onEvent s event).crashed = false) :
    s.crashed = false ∧
      anyTerminal (h.onEvent s event).items = (anyTerminal s.items || event.isTerminal) := by
  unfold onEvent at hc ⊢
  by_cases hskip : (s.crashed || event.startedCallId.any (· ∈ s.seenStarted)) = true
  · -- what is skipped is the start of a call
    rw [if_pos hskip] at hc ⊢
    rw [hc, Bool.false_or] at hskip
    exact ⟨hc, by rw [not_terminal_of_startedCallId hskip, Bool.or_false]⟩
  · rw [if_neg hskip] at hc ⊢
    rw [Bool.or_eq_true, not_or, Bool.not_eq_true] at hskip
    dsimp only at hc ⊢
    cases hhandle : h.handle event s.handling with
    | none =>
      rw [hhandle] at hc
      cases hc
    | some out => exact ⟨hskip.1, by rw [anyTerminal_append, hh.handles _ _ _ hhandle]⟩

theorem foldl_onEvent_terminal (hh : h.EndsBy ends) (events : List RuntimeTurnEvent)
    (hc : (events.foldl h.onEvent s).crashed = false) :
    s.crashed = false ∧
      anyTerminal (events.foldl h.onEvent s).items =
        (anyTerminal s.items || anyTerminal events) := by
  induction events generalizing s with
  | nil => exact ⟨hc, (Bool.or_false _).symm⟩
  | cons event events ih =>
    obtain ⟨hrest, heq⟩ := ih hc
    obtain ⟨hfirst, hevent⟩ := onEvent_terminal hh event hrest
    refine ⟨hfirst, heq.trans ?_⟩
    rw [hevent, Bool.or_assoc]
    rfl

theorem onRaw_terminal (hh : h.EndsBy ends) (raw : ρ) (hc : (h.onRaw s raw).crashed = false) :
    s.crashed = false ∧ anyTerminal (h.onRaw s raw).items = (anyTerminal s.items || ends raw) := by
  unfold onRaw at hc ⊢
  cases hcrashed : s.crashed with
  | true =>
    rw [hcrashed, if_pos rfl] at hc
    exact nomatch hcrashed.symm.trans hc
  | false =>
    rw [hcrashed, if_neg Bool.false_ne_true] at hc
    rw [if_neg Bool.false_ne_true]
    dsimp only at hc ⊢
    rw [← hh.maps raw s.mapping]
    cases hmapping : (h.mapEvents raw s.mapping).2 with
    | none =>
      rw [hmapping] at hc
      cases hc
    | some mapping =>
      rw [hmapping] at hc
      exact ⟨rfl, (foldl_onEvent_terminal hh _ hc).2⟩

theorem turn_terminal (hh : h.EndsBy ends) (raws : List ρ) (hc : (h.turn raws).crashed = false) :
    anyTerminal (h.turn raws).items = raws.any ends := by
  induction raws using List.reverseRecOn with
  | nil => rfl
  | append_singleton raws raw ih =>
    rw [turn, List.foldl_append] at hc ⊢
    obtain ⟨hrest, heq⟩ := onRaw_terminal hh raw hc
    refine heq.trans ?_
    rw [← turn, ih hrest, List.any_append, List.any_cons, List.any_nil, Bool.or_false]

theorem turn_not_crashed (hmaps : ∀ raw s, (h.mapEvents raw s).2.isSome)
    (hhandles : ∀ raw s, ∀ event ∈ (h.mapEvents raw s).1, ∀ t, (h.handle event t).isSome)
    (raws : List ρ) : (h.turn raws).crashed = false := by
  have hevents (events : List RuntimeTurnEvent) (hall : ∀ e ∈ events, ∀ t, (h.handle e t).isSome)
      (s : TurnState σ τ) (hs : s.crashed = false) :
      (events.foldl h.onEvent s).crashed = false := by
    induction events generalizing s with
    | nil => exact hs
    | cons event events ih =>
      rw [List.forall_mem_cons] at hall
      refine ih hall.2 _ ?_
      unfold onEvent
      split_ifs
      · exact hs
      · dsimp only
        obtain ⟨out, hout⟩ := Option.isSome_iff_exists.mp (hall.1 s.handling)
        rw [hout]
        exact hs
  induction raws using List.reverseRecOn with
  | nil => rfl
  | append_singleton raws raw ih =>
    rw [turn, List.foldl_append]
    change (h.onRaw (h.turn raws) raw).crashed = false
    unfold onRaw
    rw [ih, if_neg Bool.false_ne_true]
    dsimp only
    have hfold := hevents _ (hhandles raw (h.turn raws).mapping) _ ih
    split
    next hnone =>
      have hsome := hmaps raw (h.turn raws).mapping
      rw [hnone] at hsome
      cases hsome
    · exact hfold

variable (h) in
/-- What `run_turn` puts out over an upstream that ends, that raises an error the runtime catches,
or that raises another one. -/
def sentBy (add : Json → Json → Json) (raws : List ρ) (caught raised : Bool) : SentTurn where
  types := (if raised then emitAll add (h.turn raws).items
    else h.runTurn add raws caught).emitted.map Emitted.type
  raised := (h.turn raws).crashed || raised

theorem sentBy_ends (hh : h.EndsBy ends) (plus : NumberAdd) (raws : List ρ) (caught raised : Bool)
    (hcaught : caught = true → ∀ t, anyTerminal (h.errorEvents t) = true) :
    (h.sentBy plus.add raws caught raised).ends =
      ((h.turn raws).crashed || raised || caught || raws.any ends) := by
  have htypes (emitted : List Emitted) :
      (emitted.map Emitted.type).any TurnEventType.isTerminal =
        emitted.any Emitted.isTerminal := List.any_map
  unfold SentTurn.ends sentBy
  cases hc : (h.turn raws).crashed with
  | true => rfl
  | false =>
    cases raised with
    | true => rfl
    | false =>
      rw [htypes, ← turn_terminal hh raws hc, if_neg Bool.false_ne_true, runTurn, hc]
      simp only [Bool.false_or, Bool.false_eq_true, if_false]
      cases caught with
      | true =>
        have herror := hcaught rfl (h.turn raws).handling
        have hevents : ((h.errorEvents (h.turn raws).handling).map Emitted.event).any
            Emitted.isTerminal = true := List.any_map.trans herror
        rw [if_pos rfl, Bool.true_or]
        rw [List.any_append, hevents, Bool.or_true]
      | false =>
        -- the usage that is sent at the end is no terminal event
        rw [if_neg Bool.false_ne_true, Bool.false_or, ← terminal_emitAll plus]
        split_ifs
        · rw [List.any_append]
          exact Bool.or_false _
        · rfl

end RuntimeHooks

end WittyService
