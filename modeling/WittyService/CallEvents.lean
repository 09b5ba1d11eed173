import WittyService.TurnEvents

/-! The announcements and the answers of calls. A call is announced once, whatever its upstream
repeats; its answers are passed on as they come. -/
namespace WittyService

inductive CallSignal where
  | started (id : String)
  | answered (id : String)
  deriving DecidableEq

def RuntimeTurnEvent.callSignal (event : RuntimeTurnEvent) : Option CallSignal :=
  match event.type with
  | .toolCallStarted =>
    ((Dict.get event.payload "tool_call_id").bind Json.nonemptyStr).map .started
  | .toolCallResponse =>
    ((Dict.get event.payload "tool_call_id").bind Json.nonemptyStr).map .answered
  | _ => none

def callSignals (events : List RuntimeTurnEvent) : List CallSignal :=
  events.filterMap RuntimeTurnEvent.callSignal

def firstStarts : List String → List CallSignal → List CallSignal
  | _, [] => []
  | seen, .started id :: signals =>
    if id ∈ seen then firstStarts seen signals
    else .started id :: firstStarts (seen ++ [id]) signals
  | seen, .answered id :: signals => .answered id :: firstStarts seen signals

/-- Each call is started at most once, and answered at most once and not before. -/
structure CallsPaired (signals : List CallSignal) : Prop where
  started_once : ∀ id, signals.count (.started id) ≤ 1
  answered_once : ∀ id, signals.count (.answered id) ≤ 1
  started_first : ∀ before id after, signals = before ++ .started id :: after →
    .answered id ∉ before

/-- Each call is answered at most once, and not before it is announced for the first time. -/
structure AnsweredInTurn (signals : List CallSignal) : Prop where
  answered_once : ∀ id, signals.count (.answered id) ≤ 1
  started_first : ∀ before id after, signals = before ++ .started id :: after →
    .started id ∉ before → .answered id ∉ before

theorem callSignals_append (events more : List RuntimeTurnEvent) :
    callSignals (events ++ more) = callSignals events ++ callSignals more :=
  List.filterMap_append

variable (event : RuntimeTurnEvent)

theorem callSignals_cons (events : List RuntimeTurnEvent) :
    callSignals (event :: events) = event.callSignal.toList ++ callSignals events := by
  cases h : event.callSignal with
  | none => exact List.filterMap_cons_none h
  | some signal => exact List.filterMap_cons_some h

theorem callSignal_cases :
    (∃ id, event.startedCallId = some id ∧ event.callSignal = some (.started id)) ∨
    (event.startedCallId = none ∧ ∀ id, event.callSignal ≠ some (.started id)) := by
  by_cases hstarted : event.type = .toolCallStarted
  · have hid : event.startedCallId =
        (Dict.get event.payload "tool_call_id").bind Json.nonemptyStr := if_pos hstarted
    have hsignal : event.callSignal =
        ((Dict.get event.payload "tool_call_id").bind Json.nonemptyStr).map .started := by
      rw [RuntimeTurnEvent.callSignal, hstarted]
    rw [hid, hsignal]
    cases (Dict.get event.payload "tool_call_id").bind Json.nonemptyStr with
    | none => exact .inr ⟨rfl, fun _ h => nomatch h⟩
    | some id => exact .inl ⟨id, rfl, rfl⟩
  · refine .inr ⟨if_neg hstarted, fun id h => ?_⟩
    unfold RuntimeTurnEvent.callSignal at h
    split at h
    · exact absurd ‹_› hstarted
    · obtain ⟨_, -, h⟩ := Option.map_eq_some_iff.mp h
      cases h
    · cases h

theorem callSignals_dropRepeated (seen : List String) (events : List RuntimeTurnEvent) :
    callSignals (dropRepeated seen events) = firstStarts seen (callSignals events) := by
  induction events generalizing seen with
  | nil => rfl
  | cons event events ih =>
    rw [dropRepeated, callSignals_cons]
    obtain ⟨id, hid, hsignal⟩ | ⟨hid, hsignal⟩ := callSignal_cases event
    · rw [hid, hsignal, Option.any_some]
      change _ = firstStarts seen (.started id :: callSignals events)
      rw [firstStarts]
      by_cases hseen : id ∈ seen
      · rw [if_pos (decide_eq_true hseen), if_pos hseen, ih]
      · rw [if_neg (by simpa using hseen), if_neg hseen, callSignals_cons, hsignal, ih]
        rfl
    · rw [hid, Option.any_none, if_neg Bool.false_ne_true, callSignals_cons, ih, Option.toList_none,
        List.append_nil]
      cases h : event.callSignal with
      | none => rfl
      | some signal =>
        cases signal with
        | started id => exact absurd h (hsignal id)
        | answered id => rfl

section
variable {seen : List String} {signals : List CallSignal} {id : String}

def announcedAfter (seen : List String) : List CallSignal → List String
  | [] => seen
  | .started id :: signals => announcedAfter (if id ∈ seen then seen else seen ++ [id]) signals
  | .answered _ :: signals => announcedAfter seen signals

theorem mem_announcedAfter : id ∈ announcedAfter seen signals ↔
    id ∈ seen ∨ .started id ∈ signals := by
  induction signals generalizing seen with
  | nil => simp [announcedAfter]
  | cons signal signals ih =>
    cases signal with
    | started first =>
      rw [announcedAfter, ih, List.mem_cons, CallSignal.started.injEq]
      split
      · next hseen =>
        constructor
        · rintro (h | h)
          · exact .inl h
          · exact .inr (.inr h)
        · rintro (h | rfl | h)
          · exact .inl h
          · exact .inl hseen
          · exact .inr h
      · rw [List.mem_append, List.mem_singleton, or_assoc]
    | answered first => simp [announcedAfter, ih]

theorem firstStarts_append (seen : List String) (signals more : List CallSignal) :
    firstStarts seen (signals ++ more) =
      firstStarts seen signals ++ firstStarts (announcedAfter seen signals) more := by
  induction signals generalizing seen with
  | nil => rfl
  | cons signal signals ih =>
    cases signal with
    | started id =>
      rw [List.cons_append, firstStarts, firstStarts, announcedAfter]
      split
      · rw [ih]
      · rw [ih, List.cons_append]
    | answered id => rw [List.cons_append, firstStarts, firstStarts, announcedAfter, ih,
        List.cons_append]

theorem mem_firstStarts_answered :
    .answered id ∈ firstStarts seen signals ↔ .answered id ∈ signals := by
  induction signals generalizing seen with
  | nil => rfl
  | cons signal signals ih =>
    cases signal with
    | started first =>
      rw [firstStarts]
      split
      · rw [ih]; simp
      · rw [List.mem_cons, ih]; simp
    | answered first => rw [firstStarts, List.mem_cons, List.mem_cons, ih]

theorem count_firstStarts_answered :
    (firstStarts seen signals).count (.answered id) = signals.count (.answered id) := by
  induction signals generalizing seen with
  | nil => rfl
  | cons signal signals ih =>
    cases signal with
    | started first =>
      rw [firstStarts, List.count_cons_of_ne (by simp)]
      split
      · exact ih
      · rw [List.count_cons_of_ne (by simp), ih]
    | answered first => rw [firstStarts, List.count_cons, List.count_cons, ih]

theorem count_firstStarts_started (seen : List String) (signals : List CallSignal) (id : String) :
    (firstStarts seen signals).count (.started id) ≤ if id ∈ seen then 0 else 1 := by
  induction signals generalizing seen with
  | nil => exact Nat.zero_le _
  | cons signal signals ih =>
    cases signal with
    | started first =>
      rw [firstStarts]
      split
      · exact ih seen
      · next hfirst =>
        have hrest := ih (seen ++ [first])
        by_cases hid : first = id
        · subst hid
          rw [List.count_cons_self, if_neg hfirst]
          rw [if_pos (List.mem_append_right _ (List.mem_singleton_self _))] at hrest
          omega
        · rw [List.count_cons_of_ne (by simpa using hid)]
          have hmem : id ∈ seen ++ [first] ↔ id ∈ seen := by
            rw [List.mem_append, List.mem_singleton, or_iff_left (Ne.symm hid)]
          simpa only [hmem] using hrest
    | answered first =>
      exact ih seen

theorem firstStarts_split {before after : List CallSignal} (hseen : id ∉ seen)
    (hbefore : .started id ∉ before) :
    firstStarts seen (before ++ .started id :: after) =
      firstStarts seen before ++ .started id ::
        firstStarts (announcedAfter seen before ++ [id]) after := by
  rw [firstStarts_append, firstStarts, if_neg fun h => (mem_announcedAfter.mp h).elim hseen hbefore]

section

variable {before after : List CallSignal}
  (h : firstStarts seen signals = before ++ .started id :: after)
include h

theorem not_mem_of_firstStarts : id ∉ seen := by
  intro hseen
  have hcount := count_firstStarts_started seen signals id
  rw [if_pos hseen, h, List.count_append, List.count_cons_self] at hcount
  omega

theorem exists_split_of_firstStarts : ∃ before' after',
      signals = before' ++ .started id :: after' ∧ .started id ∉ before' ∧
        before = firstStarts seen before' := by
  induction signals generalizing seen before with
  | nil => exact absurd (congrArg List.length h) (by simp [firstStarts])
  | cons signal signals ih =>
    cases signal with
    | started first =>
      rw [firstStarts] at h
      split at h
      · next hfirst =>
        -- A repeated announcement is none of the ones that are left.
        obtain ⟨before', after', rfl, hnot, rfl⟩ := ih h
        have hne : first ≠ id := fun heq => not_mem_of_firstStarts h (heq ▸ hfirst)
        refine ⟨.started first :: before', after', rfl, ?_, ?_⟩
        · rw [List.mem_cons, CallSignal.started.injEq]
          exact fun h => h.elim (fun h => hne h.symm) hnot
        · rw [firstStarts, if_pos hfirst]
      · next hfirst =>
        cases before with
        | nil =>
          obtain ⟨heq, -⟩ := List.cons.inj h
          cases heq
          exact ⟨[], signals, rfl, List.not_mem_nil, rfl⟩
        | cons earlier before =>
          obtain ⟨rfl, hrest⟩ := List.cons.inj h
          obtain ⟨before', after', rfl, hnot, rfl⟩ := ih hrest
          have hne : first ≠ id := fun heq => not_mem_of_firstStarts hrest
            (heq ▸ List.mem_append_right _ (List.mem_singleton_self _))
          refine ⟨.started first :: before', after', rfl, ?_, ?_⟩
          · rw [List.mem_cons, CallSignal.started.injEq]
            exact fun h => h.elim (fun h => hne h.symm) hnot
          · rw [firstStarts, if_neg hfirst]
    | answered first =>
      cases before with
      | nil => cases (List.cons.inj h).1
      | cons earlier before =>
        obtain ⟨rfl, hrest⟩ := List.cons.inj h
        obtain ⟨before', after', rfl, hnot, rfl⟩ := ih hrest
        refine ⟨.answered first :: before', after', rfl, ?_, rfl⟩
        rw [List.mem_cons]
        exact fun h => h.elim nofun hnot

end

/-- What is left of the announcements is paired exactly when upstream answers each call once, and
not before it has announced it. -/
theorem callsPaired_firstStarts_iff :
    CallsPaired (firstStarts [] signals) ↔ AnsweredInTurn signals := by
  constructor
  · intro h
    refine ⟨fun id => ?_, ?_⟩
    · rw [← count_firstStarts_answered]
      exact h.answered_once id
    · intro before id after hsplit hbefore hanswered
      have hfirst : firstStarts [] signals = firstStarts [] before ++ .started id ::
          firstStarts (announcedAfter [] before ++ [id]) after := by
        rw [hsplit]
        exact firstStarts_split List.not_mem_nil hbefore
      exact h.started_first _ id _ hfirst (mem_firstStarts_answered.mpr hanswered)
  · intro h
    refine ⟨fun id => count_firstStarts_started [] signals id, fun id => ?_, ?_⟩
    · rw [count_firstStarts_answered]
      exact h.answered_once id
    · intro before id after hsplit hanswered
      obtain ⟨before', after', hsignals, hnot, rfl⟩ := exists_split_of_firstStarts hsplit
      exact h.started_first before' id after' hsignals hnot (mem_firstStarts_answered.mp hanswered)

theorem CallsPaired.of_begin {more : List CallSignal} (h : CallsPaired more)
    (hbegin : signals <+: more) : CallsPaired signals := by
  obtain ⟨rest, rfl⟩ := hbegin
  refine ⟨fun id => ?_, fun id => ?_, ?_⟩
  · apply Nat.le_trans ((List.prefix_append signals rest).sublist.count_le _)
    exact h.started_once id
  · apply Nat.le_trans ((List.prefix_append signals rest).sublist.count_le _)
    exact h.answered_once id
  · rintro before id after rfl
    exact h.started_first before id (after ++ rest) (by rw [List.append_assoc, List.cons_append])

end

end WittyService
