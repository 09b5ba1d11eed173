import WittyService.ArtifactEvents

/-! The calls and artifacts that hooks send. What hooks have to do for it is said once, and what a
turn sends then follows for all of them. -/
namespace WittyService

/-- The hooks pass on the events of calls, and look at each for artifacts. What the mapping makes is
said by `mapped`. -/
structure TracksCalls {ρ σ τ : Type} (h : RuntimeHooks ρ σ τ) (parts : ArtifactParts)
    (inputs : τ → ArtifactInputs) (mapped : RuntimeTurnEvent → Prop) : Prop where
  inputs_handling : inputs h.handling = []
  mapped_noArtifact : ∀ e, mapped e → e.NoArtifact
  errors_quiet : ∀ t, ∀ e ∈ h.errorEvents t, e.isPairing = false
  handled : ∀ {event t out t'}, mapped event → h.handle event t = some (out, t') →
    ∃ artifacts, out.filter RuntimeTurnEvent.isPairing =
        [event].filter RuntimeTurnEvent.isPairing ++ artifacts ∧
      RuntimeBase.onArtifactEvent parts event (inputs t) = some (artifacts, inputs t')

variable {event : RuntimeTurnEvent} {type : TurnEventType} {events : List RuntimeTurnEvent}

theorem not_isUsage_of_isPairing (h : event.isPairing = true) :
    event.isUsage = false := by
  refine decide_eq_false fun htype => ?_
  rw [RuntimeTurnEvent.isPairing, htype] at h
  cases h

theorem filter_isPairing_filter_not_isUsage (events : List RuntimeTurnEvent) :
    (events.filter fun item => !item.isUsage).filter RuntimeTurnEvent.isPairing =
      events.filter RuntimeTurnEvent.isPairing := by
  rw [List.filter_filter]
  apply List.filter_congr
  intro event _
  cases hpairing : event.isPairing with
  | false => rfl
  | true =>
    rw [not_isUsage_of_isPairing hpairing]
    rfl

theorem callSignals_filter_isPairing (events : List RuntimeTurnEvent) :
    callSignals (events.filter RuntimeTurnEvent.isPairing) = callSignals events := by
  induction events with
  | nil => rfl
  | cons event events ih =>
    cases hpairing : event.isPairing with
    | true => rw [List.filter_cons_of_pos hpairing, callSignals_cons, callSignals_cons, ih]
    | false =>
      have hnone : event.callSignal = none := by
        unfold RuntimeTurnEvent.callSignal
        unfold RuntimeTurnEvent.isPairing at hpairing
        split
        · next htype =>
          rw [htype] at hpairing
          cases hpairing
        · next htype =>
          rw [htype] at hpairing
          cases hpairing
        · rfl
      rw [List.filter_cons_of_neg (by simp [hpairing]), callSignals_cons, hnone, ih]
      rfl

theorem artifactPaths_filter_isPairing (htype : type = .artifactStarted ∨ type = .artifactCompleted)
    (events : List RuntimeTurnEvent) :
    artifactPaths type (events.filter RuntimeTurnEvent.isPairing) = artifactPaths type events := by
  unfold artifactPaths
  rw [List.filter_filter]
  congr 1
  apply List.filter_congr
  intro event _
  by_cases hevent : event.type = type
  · have hpairing : event.isPairing = true := by
      rw [RuntimeTurnEvent.isPairing, hevent]
      obtain rfl | rfl := htype
      · rfl
      · rfl
    rw [hpairing, Bool.and_true]
  · rw [decide_eq_false hevent, Bool.false_and]

section
variable {parts : ArtifactParts} {inputs : ArtifactInputs} {loads : String → Option Json}
  {events out : List RuntimeTurnEvent}

theorem ArtifactRun.callSignals_eq
    (h : ArtifactRun (ArtifactDetector.parts loads) inputs events out) :
    callSignals out = callSignals events := by
  induction h with
  | nil => rfl
  | @cons inputs inputs' event events artifacts out hevent _ ih =>
    have hnone : callSignals artifacts = [] := by
      refine List.filterMap_eq_nil_iff.mpr fun e he => ?_
      have htype : e.type = .artifactStarted ∨ e.type = .artifactCompleted := by
        obtain ⟨rfl, -⟩ | ⟨-, _, rfl, -⟩ | ⟨-, -, -, _, _, _, -, rfl⟩ :=
          onArtifactEvent_cases hevent
        · cases he
        · exact .inl (type_of_mem_map e he)
        · exact .inr (type_of_mem_map e he)
      unfold RuntimeTurnEvent.callSignal
      obtain htype | htype := htype
      · rw [htype]
      · rw [htype]
    rw [callSignals_append, callSignals_append, callSignals_filter_isPairing, hnone, ih,
      List.append_nil]
    exact (callSignals_append [event] events).symm

end

section
variable {ρ σ τ : Type} {h : RuntimeHooks ρ σ τ} {parts : ArtifactParts}
  {inputs : τ → ArtifactInputs} {mapped : RuntimeTurnEvent → Prop}

theorem TracksCalls.artifactRun (ht : TracksCalls h parts inputs mapped)
    {events out : List RuntimeTurnEvent} {t t' : τ} (hmapped : ∀ e ∈ events, mapped e)
    (hrun : h.handleRun t events = (out, some t')) :
    ArtifactRun parts (inputs t) events (out.filter RuntimeTurnEvent.isPairing) := by
  induction events generalizing t out with
  | nil =>
    cases hrun
    exact .nil
  | cons event events ih =>
    obtain ⟨hevent, hevents⟩ := List.forall_mem_cons.mp hmapped
    cases hhandle : h.handle event t with
    | none =>
      rw [RuntimeHooks.handleRun_none hhandle] at hrun
      cases hrun
    | some next =>
      rw [RuntimeHooks.handleRun_some hhandle] at hrun
      obtain ⟨rfl, hend⟩ := Prod.mk.inj hrun
      obtain ⟨artifacts, hfilter, hartifacts⟩ := ht.handled hevent hhandle
      rw [List.filter_append, hfilter]
      exact .cons hartifacts (ih hevents (Prod.ext rfl hend))

theorem TracksCalls.sent (ht : TracksCalls h parts inputs mapped) {raws : List ρ}
    (hmapped : ∀ e ∈ h.mapped raws, mapped e) (plus : NumberAdd) (raised : Bool) : ∃ handled,
      handled <+: dropRepeated [] (h.mapped raws) ∧
      ArtifactRun parts [] handled ((sentEvents (h.runTurn plus.add raws raised).emitted).filter
        RuntimeTurnEvent.isPairing) ∧
      ((h.turn raws).crashed = false → handled = dropRepeated [] (h.mapped raws)) := by
  obtain ⟨handled, t', hbegin, hrun, hall⟩ :=
    h.exists_handled h.handling (dropRepeated [] (h.mapped raws))
  have hquiet : (if !(h.turn raws).crashed && raised then
      h.errorEvents (h.turn raws).handling else []).filter RuntimeTurnEvent.isPairing = [] := by
    refine List.filter_eq_nil_iff.mpr fun e he => ?_
    split at he
    · rw [ht.errors_quiet _ e he]
      exact Bool.false_ne_true
    · cases he
  refine ⟨handled, hbegin, ?_, fun hturn => hall ?_⟩
  · rw [sentEvents_runTurn, List.filter_append, hquiet, List.append_nil,
      filter_isPairing_filter_not_isUsage, RuntimeHooks.items_turn, ← ht.inputs_handling]
    exact ht.artifactRun (fun e he => hmapped e (mem_of_mem_dropRepeated (hbegin.subset he))) hrun
  · have hcrashed : ({ mapping := h.mapping, handling := h.handling } : TurnState σ τ).crashed =
        false := rfl
    exact (RuntimeHooks.isSome_of_not_crashed hcrashed hturn).2

end

theorem callSignals_singleton (event : RuntimeTurnEvent) :
    callSignals [event] = event.callSignal.toList := by
  rw [callSignals_cons]
  exact List.append_nil _

theorem callSignals_eq_nil (h : ∀ e ∈ events, e.callSignal = none) : callSignals events = [] :=
  List.filterMap_eq_nil_iff.mpr h

theorem callSignal_eq_none (hstarted : event.type ≠ .toolCallStarted)
    (hresponse : event.type ≠ .toolCallResponse) : event.callSignal = none := by
  unfold RuntimeTurnEvent.callSignal
  split
  · exact absurd ‹_› hstarted
  · exact absurd ‹_› hresponse
  · rfl

theorem callSignals_of_type (htype : ∀ e ∈ events, e.type = type)
    (hquiet : type ≠ .toolCallStarted ∧ type ≠ .toolCallResponse := by decide) :
    callSignals events = [] := callSignals_eq_nil fun e he =>
  callSignal_eq_none (htype e he ▸ hquiet.1) (htype e he ▸ hquiet.2)

section

variable {payload : Dict} {value : Json} (h : Dict.get payload "tool_call_id" = some value)
include h

theorem callSignal_started :
    RuntimeTurnEvent.callSignal ⟨.toolCallStarted, payload⟩ =
      value.nonemptyStr.map .started := by
  rw [RuntimeTurnEvent.callSignal]
  rw [h, Option.bind_some]

theorem callSignal_answered :
    RuntimeTurnEvent.callSignal ⟨.toolCallResponse, payload⟩ =
      value.nonemptyStr.map .answered := by
  rw [RuntimeTurnEvent.callSignal]
  rw [h, Option.bind_some]

end

def TurnEventType.isMapped : TurnEventType → Bool
  | .artifactStarted | .artifactDelta | .artifactCompleted => false
  | _ => true

theorem isMapped_of_types {types : List TurnEventType} (htypes : ∀ e ∈ events, e.type ∈ types)
    (hmapped : ∀ type ∈ types, type.isMapped = true := by decide) :
    ∀ e ∈ events, e.type.isMapped = true := fun e he => hmapped e.type (htypes e he)

theorem isMapped_of_type
    (htype : ∀ e ∈ events, e.type = type) (hmapped : type.isMapped = true := by decide) :
    ∀ e ∈ events, e.type.isMapped = true := fun e he =>
  (congrArg TurnEventType.isMapped (htype e he)).trans hmapped

theorem noArtifact_of_isMapped (h : event.type.isMapped = true) :
    event.NoArtifact := by
  constructor
  · intro htype
    rw [htype] at h
    cases h
  · intro htype
    rw [htype] at h
    cases h

theorem filter_isPairing_artifacts {parts : ArtifactParts}
    {inputs inputs' : ArtifactInputs} {artifacts : List RuntimeTurnEvent}
    (h : RuntimeBase.onArtifactEvent parts event inputs = some (artifacts, inputs')) :
    artifacts.filter RuntimeTurnEvent.isPairing = artifacts := by
  refine List.filter_eq_self.mpr fun e he => ?_
  rw [RuntimeTurnEvent.isPairing]
  obtain htype | htype := RuntimeBase.type_of_mem_artifacts h e he
  · rw [htype]
  · rw [htype]

namespace RuntimeHooks

variable {ρ σ τ : Type} {h : RuntimeHooks ρ σ τ}

/-- The mapping brings the signals of a raw event, but for announcements that are repeated. The
relation ties what it keeps to the calls that have been announced. -/
structure MapsSignals (h : RuntimeHooks ρ σ τ) (signals : ρ → List CallSignal)
    (rel : σ → List String → Prop) : Prop where
  raised : ∀ raw s seen, rel s seen → (h.mapEvents raw s).2 = none →
    firstStarts seen (callSignals (h.mapEvents raw s).1) <+: firstStarts seen (signals raw)
  goes : ∀ raw s s' seen, rel s seen → (h.mapEvents raw s).2 = some s' →
    firstStarts seen (callSignals (h.mapEvents raw s).1) = firstStarts seen (signals raw) ∧
    announcedAfter seen (callSignals (h.mapEvents raw s).1) = announcedAfter seen (signals raw) ∧
    rel s' (announcedAfter seen (signals raw))

theorem firstStarts_mapRun {signals : ρ → List CallSignal} {rel : σ → List String → Prop}
    (hmaps : h.MapsSignals signals rel) {s : σ} {seen : List String} (hrel : rel s seen)
    (raws : List ρ) :
    firstStarts seen (callSignals (h.mapRun s raws).1) <+:
        firstStarts seen (raws.flatMap signals) ∧
      ((h.mapRun s raws).2.isSome →
        firstStarts seen (callSignals (h.mapRun s raws).1) =
          firstStarts seen (raws.flatMap signals)) := by
  induction raws generalizing s seen with
  | nil => exact ⟨List.prefix_refl _, fun _ => rfl⟩
  | cons raw raws ih =>
    rw [List.flatMap_cons, firstStarts_append, mapRun]
    cases hmap : (h.mapEvents raw s).2 with
    | none =>
      refine ⟨?_, fun hsome => ?_⟩
      · exact List.IsPrefix.trans (hmaps.raised raw s seen hrel hmap) (List.prefix_append _ _)
      · cases hsome
    | some s' =>
      obtain ⟨hstarts, hannounced, hrel'⟩ := hmaps.goes raw s s' seen hrel hmap
      obtain ⟨hbegin, hall⟩ := ih hrel'
      rw [callSignals_append, firstStarts_append, hstarts, hannounced]
      refine ⟨(List.prefix_append_right_inj _).mpr hbegin, fun hsome => ?_⟩
      rw [hall hsome]

end RuntimeHooks

structure PairedTurn (signals : List CallSignal) (raises : Bool)
    (sent : List RuntimeTurnEvent) : Prop where
  passed : callSignals sent <+: firstStarts [] signals
  passed_all : raises = false → callSignals sent = firstStarts [] signals
  started_once : ∀ id, (callSignals sent).count (.started id) ≤ 1
  paired : AnsweredInTurn signals → CallsPaired (callSignals sent)
  paired_iff : raises = false → (CallsPaired (callSignals sent) ↔ AnsweredInTurn signals)
  artifacts_follow : ArtifactsFollow sent
  artifacts_matched : (∀ id, signals.count (.answered id) ≤ 1) → WritesIdentified sent →
    ArtifactsMatched sent

section
variable {ρ σ τ : Type} {h : RuntimeHooks ρ σ τ} {loads : String → Option Json}
  {inputs : τ → ArtifactInputs} {mapped : RuntimeTurnEvent → Prop}

theorem ArtifactRun.mem {parts : ArtifactParts} {kept : ArtifactInputs}
    {events out : List RuntimeTurnEvent} (h : ArtifactRun parts kept events out)
    {e : RuntimeTurnEvent} (he : e ∈ events) (hpairing : e.isPairing = true) : e ∈ out := by
  induction h with
  | nil => cases he
  | cons _ _ ih =>
    obtain rfl | he := List.mem_cons.mp he
    · refine List.mem_append_left _ (List.mem_append_left _ ?_)
      exact List.mem_filter.mpr ⟨List.mem_singleton_self e, hpairing⟩
    · exact List.mem_append_right _ (ih he)

theorem TracksCalls.pairedTurn (ht : TracksCalls h (ArtifactDetector.parts loads) inputs mapped)
    (hmapped : ∀ raw s, ∀ e ∈ (h.mapEvents raw s).1, mapped e)
    {rawSignals : ρ → List CallSignal} {rel : σ → List String → Prop}
    (hmaps : h.MapsSignals rawSignals rel) (hrel : rel h.mapping []) (plus : NumberAdd)
    (raws : List ρ) (raised : Bool) :
    PairedTurn (raws.flatMap rawSignals) (h.turn raws).crashed
      (sentEvents (h.runTurn plus.add raws raised).emitted) := by
  obtain ⟨hsignals, hall⟩ := RuntimeHooks.firstStarts_mapRun hmaps hrel raws
  generalize raws.flatMap rawSignals = signals at hsignals hall
  have hmapped : ∀ e ∈ h.mapped raws, mapped e :=
    h.forall_mem_mapRun hmapped h.mapping raws
  obtain ⟨handled, hbegin, hrun, hhandled⟩ := ht.sent hmapped plus raised
  generalize sentEvents (h.runTurn plus.add raws raised).emitted = sent at hrun ⊢
  have hcalls : callSignals sent = callSignals handled := by
    rw [← callSignals_filter_isPairing sent]
    exact hrun.callSignals_eq
  have hpassed : callSignals sent <+: firstStarts [] signals := by
    apply List.IsPrefix.trans _ hsignals
    rw [hcalls, ← callSignals_dropRepeated]
    exact hbegin.filterMap _
  have hnone : ∀ e ∈ handled, e.NoArtifact := fun e he =>
    ht.mapped_noArtifact e (hmapped e (mem_of_mem_dropRepeated (hbegin.subset he)))
  have hpassedAll (hturn : (h.turn raws).crashed = false) :
      callSignals sent = firstStarts [] signals := by
    have hcrashed : ({ mapping := h.mapping, handling := h.handling } : TurnState σ τ).crashed =
        false := rfl
    rw [hcalls, hhandled hturn, callSignals_dropRepeated]
    exact hall (RuntimeHooks.isSome_of_not_crashed hcrashed hturn).1
  refine ⟨hpassed, hpassedAll, fun id => ?_, fun hanswers => ?_, fun hturn => ?_, ?_, ?_⟩
  · exact Nat.le_trans (hpassed.sublist.count_le _) (count_firstStarts_started [] signals id)
  · exact (callsPaired_firstStarts_iff.mpr hanswers).of_begin hpassed
  · rw [hpassedAll hturn]
    exact callsPaired_firstStarts_iff
  · rintro before event after rfl htype
    have hevent : event.isPairing = true := by
      rw [RuntimeTurnEvent.isPairing, htype]
    rw [List.filter_append, List.filter_cons_of_pos hevent] at hrun
    have hkept : KeptStarted [] [] := fun _ hkept => nomatch hkept
    obtain ⟨path, hpath, hmem⟩ := hrun.follows hnone hkept _ event _ rfl htype
    rw [List.nil_append, artifactPaths_filter_isPairing (.inl rfl)] at hmem
    exact ⟨path, hpath, hmem⟩
  · intro honce hids before hbefore path
    have hidsHandled : WritesIdentified handled := by
      intro e he htype hwrite
      have hevent : e.isPairing = true := by
        rw [RuntimeTurnEvent.isPairing, htype]
      exact hids e (List.mem_of_mem_filter (hrun.mem he hevent)) htype hwrite
    have hcount : ∀ id, (callSignals handled).count (.answered id) ≤
        if id ∈ ([] : List String) then 0 else 1 := by
      intro id
      rw [if_neg List.not_mem_nil, ← hcalls]
      apply Nat.le_trans (hpassed.sublist.count_le _)
      rw [count_firstStarts_answered]
      exact honce id
    have hcounts := hrun.counts hnone hidsHandled hcount (hbefore.filter _) path
    rwa [artifactPaths_filter_isPairing (.inl rfl), artifactPaths_filter_isPairing (.inr rfl)]
      at hcounts

end

end WittyService
