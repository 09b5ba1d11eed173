import WittyService.ArtifactDetector
import WittyService.CallEvents

/-! The artifacts of a turn beside its calls. What a call of the `write` tool is going to write is
kept under the id of the call, and looked up when the call is answered. -/
namespace WittyService

def RuntimeTurnEvent.isPairing (event : RuntimeTurnEvent) : Bool :=
  match event.type with
  | .toolCallStarted | .toolCallResponse | .artifactStarted | .artifactCompleted => true
  | _ => false

def RuntimeTurnEvent.NoArtifact (event : RuntimeTurnEvent) : Prop :=
  event.type ≠ .artifactStarted ∧ event.type ≠ .artifactCompleted

def artifactPaths (type : TurnEventType) (events : List RuntimeTurnEvent) : List String :=
  (events.filter (·.type = type)).filterMap fun event => artifactPath event.payload

/-- What a turn sends of calls and artifacts, as its events are handled one after another. -/
inductive ArtifactRun (parts : ArtifactParts) :
    ArtifactInputs → List RuntimeTurnEvent → List RuntimeTurnEvent → Prop
  | nil {inputs : ArtifactInputs} : ArtifactRun parts inputs [] []
  | cons {inputs inputs' : ArtifactInputs} {event : RuntimeTurnEvent}
      {events artifacts out : List RuntimeTurnEvent} :
      RuntimeBase.onArtifactEvent parts event inputs = some (artifacts, inputs') →
      ArtifactRun parts inputs' events out →
      ArtifactRun parts inputs (event :: events)
        ([event].filter RuntimeTurnEvent.isPairing ++ artifacts ++ out)

/-- Every artifact is completed after one with its path was started. -/
def ArtifactsFollow (events : List RuntimeTurnEvent) : Prop :=
  ∀ before event after, events = before ++ event :: after → event.type = .artifactCompleted →
    ∃ path, artifactPath event.payload = some path ∧
      path ∈ artifactPaths .artifactStarted before

/-- At no time an artifact has been completed more often than it has been started. -/
def ArtifactsMatched (events : List RuntimeTurnEvent) : Prop :=
  ∀ before, before <+: events → ∀ path,
    (artifactPaths .artifactCompleted before).count path ≤
      (artifactPaths .artifactStarted before).count path

section
variable {loads : String → Option Json} {inputs inputs' : ArtifactInputs}
  {event : RuntimeTurnEvent} {events artifacts out : List RuntimeTurnEvent}

theorem artifactPaths_append (type : TurnEventType) (events more : List RuntimeTurnEvent) :
    artifactPaths type (events ++ more) = artifactPaths type events ++ artifactPaths type more := by
  rw [artifactPaths, List.filter_append, List.filterMap_append]
  rfl

variable {type : TurnEventType} {before : List RuntimeTurnEvent} {answered : List String}

theorem artifactPaths_eq_nil (h : ∀ e ∈ events, e.type ≠ type) :
    artifactPaths type events = [] := by
  rw [artifactPaths, List.filter_eq_nil_iff.mpr fun e he => by simpa using h e he]
  rfl

/-- What is done with the artifact of an event: nothing, or a start whose arguments may be kept, or
a response that completes what was kept. -/
theorem onArtifactEvent_cases
    (h : RuntimeBase.onArtifactEvent (ArtifactDetector.parts loads) event inputs =
      some (artifacts, inputs')) :
    (artifacts = [] ∧ inputs' = inputs) ∨
    (event.type = .toolCallStarted ∧ ∃ args,
      artifacts = (ArtifactDetector.buildArtifactEvent args "creating" false).toList.map
        (RuntimeTurnEvent.mk .artifactStarted) ∧
      (inputs' = inputs ∨ ∃ key, inputs' = (key, args) :: inputs)) ∨
    (event.type = .toolCallResponse ∧ event.isWrite = true ∧ inputs' = inputs ∧
      ∃ key status inline, event.callId.hashKey = some key ∧
        artifacts = (ArtifactDetector.buildArtifactEvent ((inputs.lookup key).getD []) status
          inline).toList.map (RuntimeTurnEvent.mk .artifactCompleted)) := by
  unfold RuntimeBase.onArtifactEvent at h
  by_cases hwrite : event.isWrite = true
  · rw [hwrite, Bool.not_true, if_neg Bool.false_ne_true] at h
    split at h
    · next htype =>
      dsimp only at h
      generalize (ArtifactDetector.parts loads).extractWriteArguments
        (Dict.getD event.payload "arguments" .null) = args at h
      refine .inr (.inl ⟨htype, args, ?_⟩)
      split_ifs at h with hempty
      · cases h
        exact ⟨rfl, .inl rfl⟩
      · obtain ⟨key, -, h⟩ := Option.map_eq_some_iff.mp h
        cases h
        exact ⟨rfl, .inr ⟨key, rfl⟩⟩
    · next htype =>
      obtain ⟨key, hkey, h⟩ := Option.map_eq_some_iff.mp h
      cases h
      exact .inr (.inr ⟨htype, hwrite, rfl, key, _, _, hkey, rfl⟩)
    · cases h
      exact .inl ⟨rfl, rfl⟩
  · rw [Bool.eq_false_iff.mpr hwrite, Bool.not_false, if_pos rfl] at h
    cases h
    exact .inl ⟨rfl, rfl⟩

theorem artifactPaths_build (type other : TurnEventType) (args : Dict) (status : String)
    (inline : Bool) :
    artifactPaths other ((ArtifactDetector.buildArtifactEvent args status inline).toList.map
      (RuntimeTurnEvent.mk type)) =
        if type = other then (ArtifactDetector.writtenPath args).toList else [] := by
  cases h : ArtifactDetector.buildArtifactEvent args status inline with
  | none =>
    rw [(ArtifactDetector.buildArtifactEvent_eq_none_iff args status inline).mp h]
    exact (ite_self _).symm
  | some payload =>
    obtain ⟨hpath, hsome⟩ := ArtifactDetector.artifactPath_of_build h
    obtain ⟨path, hwritten⟩ := Option.isSome_iff_exists.mp hsome
    rw [hwritten] at hpath ⊢
    change ([(⟨type, payload⟩ : RuntimeTurnEvent)].filter (·.type = other)).filterMap _ = _
    by_cases htype : type = other
    · rw [if_pos htype, List.filter_singleton, decide_eq_true htype]
      exact List.filterMap_cons_some hpath
    · rw [if_neg htype, List.filter_singleton, decide_eq_false htype]
      rfl

/-- Every path that is kept has been started. -/
def KeptStarted (inputs : ArtifactInputs) (before : List RuntimeTurnEvent) : Prop :=
  ∀ kept ∈ inputs, ∀ path, ArtifactDetector.writtenPath kept.2 = some path →
    path ∈ artifactPaths .artifactStarted before

/-- Every artifact among some events is completed after it was started, among them or before. -/
def FollowFrom (before events : List RuntimeTurnEvent) : Prop :=
  ∀ front event back, events = front ++ event :: back → event.type = .artifactCompleted →
    ∃ path, artifactPath event.payload = some path ∧
      path ∈ artifactPaths .artifactStarted (before ++ front)

theorem followFrom_append {events more : List RuntimeTurnEvent}
    (hevents : FollowFrom before events) (hmore : FollowFrom (before ++ events) more) :
    FollowFrom before (events ++ more) := by
  intro front event back hsplit htype
  obtain ⟨rest, rfl, hrest⟩ | ⟨rest, rfl, hrest⟩ := List.append_eq_append_iff.mp hsplit
  · -- The event is one of the second part.
    obtain ⟨path, hpath, hmem⟩ := hmore rest event back hrest htype
    exact ⟨path, hpath, by rwa [List.append_assoc] at hmem⟩
  · cases rest with
    | nil =>
      obtain ⟨path, hpath, hmem⟩ := hmore [] event back hrest.symm htype
      refine ⟨path, hpath, ?_⟩
      rwa [List.append_nil, List.append_nil] at hmem
    | cons first rest =>
      obtain ⟨rfl, rfl⟩ := List.cons.inj hrest
      exact hevents front event rest rfl htype

theorem writtenPath_lookup {key : HashKey} {path : String}
    (h : ArtifactDetector.writtenPath ((inputs.lookup key).getD []) = some path) :
    ∃ args, inputs.lookup key = some args ∧ (key, args) ∈ inputs ∧
      ArtifactDetector.writtenPath args = some path := by
  cases hlookup : inputs.lookup key with
  | none =>
    rw [hlookup] at h
    cases h
  | some args =>
    rw [hlookup] at h
    obtain ⟨front, back, rfl, -⟩ := List.lookup_eq_some_iff.mp hlookup
    exact ⟨args, rfl, List.mem_append_right _ List.mem_cons_self, h⟩

theorem followFrom_of_not_completed (before : List RuntimeTurnEvent)
    (h : ∀ e ∈ events, e.type ≠ .artifactCompleted) : FollowFrom before events := by
  rintro front event back rfl htype
  exact absurd htype (h event (List.mem_append_right _ List.mem_cons_self))

theorem KeptStarted.append (h : KeptStarted inputs before)
    (more : List RuntimeTurnEvent) : KeptStarted inputs (before ++ more) := by
  intro kept hkept path hpath
  rw [artifactPaths_append]
  exact List.mem_append_left _ (h kept hkept path hpath)

theorem type_of_mem_map {payload : Option Dict} :
    ∀ e ∈ payload.toList.map (RuntimeTurnEvent.mk type), e.type = type := by
  intro e he
  obtain ⟨_, -, rfl⟩ := List.mem_map.mp he
  rfl

theorem follow_step (h : RuntimeBase.onArtifactEvent (ArtifactDetector.parts loads) event inputs =
      some (artifacts, inputs')) (hevent : event.NoArtifact) (hkept : KeptStarted inputs before) :
    FollowFrom before ([event].filter RuntimeTurnEvent.isPairing ++ artifacts) ∧
      KeptStarted inputs' (before ++ ([event].filter RuntimeTurnEvent.isPairing ++ artifacts)) := by
  have hself : FollowFrom before ([event].filter RuntimeTurnEvent.isPairing) := by
    apply followFrom_of_not_completed
    intro e he
    rw [List.mem_singleton.mp (List.mem_of_mem_filter he)]
    exact hevent.2
  obtain ⟨rfl, rfl⟩ | ⟨-, args, rfl, hinputs⟩ |
    ⟨-, -, hinputs, key, status, inline, -, rfl⟩ := onArtifactEvent_cases h
  · exact ⟨followFrom_append hself (followFrom_of_not_completed _ fun _ he => nomatch he),
      hkept.append _⟩
  · refine ⟨followFrom_append hself (followFrom_of_not_completed _ fun e he => ?_), ?_⟩
    · rw [type_of_mem_map e he]
      decide
    · obtain rfl | ⟨key, rfl⟩ := hinputs
      · exact hkept.append _
      · intro kept hmem path hpath
        obtain rfl | hmem := List.mem_cons.mp hmem
        · -- The arguments are kept when the artifact they write is started.
          rw [artifactPaths_append, artifactPaths_append, artifactPaths_build, if_pos rfl, hpath]
          exact List.mem_append_right _ (List.mem_append_right _ (List.mem_singleton_self _))
        · exact hkept.append _ kept hmem path hpath
  · refine ⟨followFrom_append hself ?_, hinputs ▸ hkept.append _⟩
    rintro front e back hsplit -
    have hmem : e ∈ (ArtifactDetector.buildArtifactEvent ((inputs.lookup key).getD []) status
        inline).toList.map (RuntimeTurnEvent.mk .artifactCompleted) :=
      hsplit ▸ List.mem_append_right _ List.mem_cons_self
    obtain ⟨payload, hpayload, rfl⟩ := List.mem_map.mp hmem
    obtain ⟨hpath, hsome⟩ := ArtifactDetector.artifactPath_of_build (Option.mem_toList.mp hpayload)
    obtain ⟨path, hwritten⟩ := Option.isSome_iff_exists.mp hsome
    obtain ⟨args, -, hargs, hwrites⟩ := writtenPath_lookup hwritten
    refine ⟨path, hpath.trans hwritten, ?_⟩
    rw [List.append_assoc, artifactPaths_append]
    exact List.mem_append_left _ (hkept _ hargs path hwrites)

theorem ArtifactRun.follows (h : ArtifactRun (ArtifactDetector.parts loads) inputs events out)
    (hevents : ∀ e ∈ events, e.NoArtifact) (hkept : KeptStarted inputs before) :
    FollowFrom before out := by
  induction h generalizing before with
  | nil =>
    intro front event back hsplit
    exact absurd (congrArg List.length hsplit) (by simp)
  | cons hevent _ ih =>
    obtain ⟨hfirst, hrest⟩ := List.forall_mem_cons.mp hevents
    obtain ⟨hfollow, hkept'⟩ := follow_step hevent hfirst hkept
    exact followFrom_append hfollow (ih hrest hkept')

def openWrites (answered : List String) (path : String) (inputs : ArtifactInputs) : ℕ :=
  inputs.countP fun kept => ArtifactDetector.writtenPath kept.2 = some path ∧
    ∀ id ∈ answered, kept.1 ≠ .text id

def WritesIdentified (events : List RuntimeTurnEvent) : Prop :=
  ∀ e ∈ events, e.type = .toolCallResponse → e.isWrite = true → e.callSignal ≠ none

section
variable {answered : List String} {path id : String}

theorem openWrites_cons_le (id : String) (answered : List String) (path : String)
    (inputs : ArtifactInputs) :
    openWrites (id :: answered) path inputs ≤ openWrites answered path inputs := by
  apply List.countP_mono_left
  intro kept _ h
  rw [decide_eq_true_eq] at h ⊢
  exact ⟨h.1, fun other hother => h.2 other (List.mem_cons_of_mem _ hother)⟩

theorem openWrites_cons_lt {args : Dict} (hmem : (.text id, args) ∈ inputs)
    (hpath : ArtifactDetector.writtenPath args = some path) (hid : id ∉ answered) :
    openWrites (id :: answered) path inputs + 1 ≤ openWrites answered path inputs := by
  obtain ⟨front, back, rfl⟩ := List.append_of_mem hmem
  have hfront := openWrites_cons_le id answered path front
  have hback := openWrites_cons_le id answered path back
  unfold openWrites at hfront hback ⊢
  rw [List.countP_append, List.countP_append, List.countP_cons_of_neg, List.countP_cons_of_pos]
  · omega
  · rw [decide_eq_true_eq]
    exact ⟨hpath, fun other hother h => hid (HashKey.text.inj h ▸ hother)⟩
  · rw [decide_eq_true_eq]
    exact fun h => h.2 id List.mem_cons_self rfl

theorem openWrites_push_le (answered : List String) (path : String) (inputs : ArtifactInputs)
    (key : HashKey) (args : Dict) :
    openWrites answered path ((key, args) :: inputs) ≤
      (if ArtifactDetector.writtenPath args = some path then 1 else 0) +
        openWrites answered path inputs := by
  unfold openWrites
  rw [List.countP_cons, Nat.add_comm]
  apply Nat.add_le_add_right
  split
  · next h =>
    rw [if_pos (of_decide_eq_true h).1]
  · exact Nat.zero_le _

end

def answeredIds (event : RuntimeTurnEvent) : List String :=
  match event.callSignal with
  | some (.answered id) => [id]
  | _ => []

theorem exists_answered (htype : event.type = .toolCallResponse) (h : event.callSignal ≠ none) :
    ∃ id, event.callSignal = some (.answered id) := by
  have hsignal : event.callSignal =
      ((Dict.get event.payload "tool_call_id").bind Json.nonemptyStr).map .answered := by
    rw [RuntimeTurnEvent.callSignal, htype]
  rw [hsignal] at h ⊢
  cases hid : (Dict.get event.payload "tool_call_id").bind Json.nonemptyStr with
  | none =>
    rw [hid] at h
    exact absurd rfl h
  | some id => exact ⟨id, rfl⟩

theorem callId_of_callSignal {id : String} (h : event.callSignal = some (.answered id)) :
    event.callId.hashKey = some (.text id) := by
  have hid : (Dict.get event.payload "tool_call_id").bind Json.nonemptyStr = some id := by
    unfold RuntimeTurnEvent.callSignal at h
    split at h
    · obtain ⟨_, -, h⟩ := Option.map_eq_some_iff.mp h
      cases h
    · obtain ⟨_, hid, h⟩ := Option.map_eq_some_iff.mp h
      cases h
      exact hid
    · cases h
  obtain ⟨value, hget, hvalue⟩ := Option.bind_eq_some_iff.mp hid
  cases value with
  | str text =>
    rw [Json.nonemptyStr] at hvalue
    split at hvalue
    · cases hvalue
    · next htext =>
      cases hvalue
      rw [RuntimeTurnEvent.callId, Dict.getD, hget, Option.getD_some, Json.orElse, Json.truthy,
        if_pos (by simpa using htext), Json.hashKey]
  | _ => cases hvalue

theorem count_step (h : RuntimeBase.onArtifactEvent (ArtifactDetector.parts loads) event inputs =
      some (artifacts, inputs'))
    (hids : event.type = .toolCallResponse → event.isWrite = true → event.callSignal ≠ none)
    (honce : ∀ id ∈ answeredIds event, id ∉ answered) (path : String) :
    (artifactPaths .artifactCompleted artifacts).count path +
        openWrites (answeredIds event ++ answered) path inputs' ≤
      (artifactPaths .artifactStarted artifacts).count path + openWrites answered path inputs ∧
    (artifactPaths .artifactCompleted artifacts).count path ≤ openWrites answered path inputs := by
  have hanswered : ∀ inputs, openWrites (answeredIds event ++ answered) path inputs ≤
      openWrites answered path inputs := by
    intro inputs
    unfold answeredIds
    split
    · exact openWrites_cons_le _ answered path inputs
    · exact Nat.le_refl _
  obtain ⟨rfl, rfl⟩ | ⟨htype, args, rfl, hinputs⟩ |
    ⟨htype, hwrite, hinputs, key, status, inline, hkey, rfl⟩ := onArtifactEvent_cases h
  · refine ⟨?_, Nat.zero_le _⟩
    have hle := hanswered inputs'
    change 0 + _ ≤ 0 + _
    omega
  · rw [artifactPaths_build, artifactPaths_build, if_neg (by decide), if_pos rfl]
    refine ⟨?_, Nat.zero_le _⟩
    have hle := hanswered inputs'
    have hcount : (ArtifactDetector.writtenPath args).toList.count path =
        if ArtifactDetector.writtenPath args = some path then 1 else 0 := by
      cases ArtifactDetector.writtenPath args with
      | none => rfl
      | some written =>
        rw [Option.toList_some, List.count_singleton]
        simp
    rw [hcount, List.count_nil]
    obtain rfl | ⟨key, rfl⟩ := hinputs
    · omega
    · have hpush := openWrites_push_le answered path inputs key args
      omega
  · -- What is completed was kept under the id, which has not been answered before.
    rw [artifactPaths_build, artifactPaths_build, if_pos rfl, if_neg (by decide), List.count_nil,
      hinputs, Nat.zero_add]
    obtain ⟨id, hsignal⟩ := exists_answered htype (hids htype hwrite)
    have hids : answeredIds event = [id] := by
      rw [answeredIds, hsignal]
    have hkeyId : key = .text id :=
      Option.some.inj (hkey.symm.trans (callId_of_callSignal hsignal))
    rw [hids, List.singleton_append]
    have hle := openWrites_cons_le id answered path inputs
    by_cases hpath : ArtifactDetector.writtenPath ((inputs.lookup key).getD []) = some path
    · obtain ⟨args, -, hmem, hwritten⟩ := writtenPath_lookup hpath
      have hlt := openWrites_cons_lt (hkeyId ▸ hmem) hwritten
        (honce id (hids ▸ List.mem_singleton_self id))
      rw [hpath, Option.toList_some, List.count_singleton_self]
      exact ⟨by omega, by omega⟩
    · have hnone : (ArtifactDetector.writtenPath ((inputs.lookup key).getD [])).toList.count path =
          0 := by
        refine List.count_eq_zero.mpr fun hmem => hpath ?_
        exact Option.mem_toList.mp hmem
      rw [hnone]
      exact ⟨by omega, Nat.zero_le _⟩

theorem count_answered_cons (event : RuntimeTurnEvent) (events : List RuntimeTurnEvent)
    (id : String) :
    (callSignals (event :: events)).count (.answered id) =
      (if id ∈ answeredIds event then 1 else 0) + (callSignals events).count (.answered id) := by
  rw [callSignals_cons, List.count_append]
  congr 1
  unfold answeredIds
  cases event.callSignal with
  | none => rfl
  | some signal =>
    cases signal with
    | started other => rw [Option.toList_some, List.count_singleton]; rfl
    | answered other =>
      rw [Option.toList_some, List.count_singleton]
      by_cases h : other = id
      · subst h
        rw [if_pos (beq_self_eq_true _), if_pos (List.mem_singleton_self _)]
      · rw [if_neg (by simpa using h), if_neg fun hmem => h (List.mem_singleton.mp hmem).symm]

theorem prefix_append_cases {α : Type} {front xs ys : List α} (h : front <+: xs ++ ys) :
    front <+: xs ∨ ∃ rest, front = xs ++ rest ∧ rest <+: ys := by
  obtain hfront | ⟨rest, rfl⟩ := List.prefix_or_prefix_of_prefix h (List.prefix_append xs ys)
  · exact .inl hfront
  · exact .inr ⟨rest, rfl, (List.prefix_append_right_inj xs).mp h⟩

theorem ArtifactRun.counts (h : ArtifactRun (ArtifactDetector.parts loads) inputs events out)
    (hevents : ∀ e ∈ events, e.NoArtifact) (hids : WritesIdentified events)
    (honce : ∀ id, (callSignals events).count (.answered id) ≤ if id ∈ answered then 0 else 1)
    {front : List RuntimeTurnEvent} (hfront : front <+: out) (path : String) :
    (artifactPaths .artifactCompleted front).count path ≤
      (artifactPaths .artifactStarted front).count path + openWrites answered path inputs := by
  induction h generalizing answered front with
  | nil =>
    rw [List.prefix_nil.mp hfront]
    exact Nat.zero_le _
  | @cons inputs inputs' event events artifacts out hevent hrun ih =>
    obtain ⟨hfirst, hrest⟩ := List.forall_mem_cons.mp hevents
    obtain ⟨hidsFirst, hidsRest⟩ := List.forall_mem_cons.mp hids
    have honceFirst : ∀ id ∈ answeredIds event, id ∉ answered := by
      intro id hid hanswered
      have hcount := honce id
      rw [count_answered_cons, if_pos hid, if_pos hanswered] at hcount
      omega
    have honceRest : ∀ id, (callSignals events).count (.answered id) ≤
        if id ∈ answeredIds event ++ answered then 0 else 1 := by
      intro id
      have hcount := honce id
      rw [count_answered_cons] at hcount
      by_cases hid : id ∈ answeredIds event
      · rw [if_pos hid, if_neg (honceFirst id hid)] at hcount
        omega
      · rw [if_neg hid, Nat.zero_add] at hcount
        simpa only [List.mem_append, hid, false_or] using hcount
    obtain ⟨hstep, hpart⟩ := count_step hevent hidsFirst honceFirst path
    -- The event itself is none of an artifact.
    have hself : ∀ type, type = .artifactStarted ∨ type = .artifactCompleted →
        artifactPaths type ([event].filter RuntimeTurnEvent.isPairing) = [] := by
      intro type htype
      apply artifactPaths_eq_nil
      intro e he
      rw [List.mem_singleton.mp (List.mem_of_mem_filter he)]
      obtain rfl | rfl := htype
      · exact hfirst.1
      · exact hfirst.2
    obtain hwithin | ⟨rest, rfl, hrestFront⟩ := prefix_append_cases hfront
    · have hle : (artifactPaths .artifactCompleted front).count path ≤
          (artifactPaths .artifactCompleted artifacts).count path := by
        have hsub : (artifactPaths .artifactCompleted front).Sublist (artifactPaths
            .artifactCompleted ([event].filter RuntimeTurnEvent.isPairing ++ artifacts)) :=
          (hwithin.sublist.filter _).filterMap _
        rw [artifactPaths_append, hself _ (.inr rfl), List.nil_append] at hsub
        exact hsub.count_le path
      omega
    · have hih := ih hrest hidsRest honceRest hrestFront
      simp only [artifactPaths_append, hself _ (.inl rfl), hself _ (.inr rfl), List.nil_append,
        List.count_append]
      omega

end

end WittyService
