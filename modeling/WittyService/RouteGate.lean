import WittyService.RouteSpeech

/-! What a turn still says once a `/new` has superseded it. -/
namespace WittyService

open GuardedRuns ServiceQueues

namespace RouteState

variable {cfg : RouterConfig} {s s' t : RouteState} {id : Nat} {item : QueuedMessage}
  {await : ProcessAwait} {answer : Answer}

/-- A `/new` was acknowledged after the turn of the message was submitted with its
placeholder. -/
def Superseded (s : RouteState) (turnId : Nat) : Prop :=
  ∃ drained, List.Sublist
    [.sent (some turnId) .placeholder none, .sent none (.newAck drained) none] s.trace

/-- Nothing more of a superseded turn is sent. -/
def GateHolds (s : RouteState) : Prop :=
  ∀ turnId drained text edit, text.OfTurn → ¬ List.Sublist
    [.sent (some turnId) .placeholder none, .sent none (.newAck drained) none,
      .sent (some turnId) text edit] s.trace

def StaleSilent (s : RouteState) : RouteAction → Prop
  | .worker id answer => ∀ item await turn, s.tasks id = some (.processing item await) →
      await.turn? = some turn → turn.bindingVersion ≠ s.bindingVersion → ¬ await.SpeaksOn answer
  | _ => True

theorem sublist_of_last {α : Type*} {l a b : List α} {x : α} (h : (l ++ [x]).Sublist (a ++ b))
    (hx : x ∉ b) : (l ++ [x]).Sublist a := by
  obtain ⟨front, back, heq, hfront, hback⟩ := List.sublist_append_iff.mp h
  obtain rfl | ⟨back', y, rfl⟩ := List.eq_nil_or_concat back
  · rw [heq, List.append_nil]
    exact hfront
  · have hy : y = x := by
      have hlast := congrArg List.getLast? heq
      simpa using hlast.symm
    rw [hy] at hback
    exact absurd (hback.subset (by simp)) hx

variable {events : List RouteEvent} {turnId command drained : Nat} {bound : Option String}
  {sessionId : String} {a : RouteAction}

theorem superseded_append (htrace : s'.trace = s.trace ++ events)
    (hacks : ∀ drained, .sent none (.newAck drained) none ∉ events) :
    s'.Superseded turnId ↔ s.Superseded turnId := by
  constructor
  · rintro ⟨drained, h⟩
    rw [htrace] at h
    have hpair : List.Sublist ([.sent (some turnId) .placeholder none] ++
        [.sent none (.newAck drained) none]) (s.trace ++ events) := h
    exact ⟨drained, sublist_of_last hpair (hacks drained)⟩
  · rintro ⟨drained, h⟩
    refine ⟨drained, ?_⟩
    rw [htrace]
    exact h.trans (List.sublist_append_left ..)

section

variable {events : List RouteEvent} (hgate : s.GateHolds) (htrace : s'.trace = s.trace ++ events)
include hgate htrace

theorem gate_append (hacks : ∀ drained, .sent none (.newAck drained) none ∉ events) :
    s'.GateHolds ↔ ∀ turnId text edit, text.OfTurn → .sent (some turnId) text edit ∈ events →
      ¬ s.Superseded turnId := by
  constructor
  · rintro hgate' turnId text edit htext hmem ⟨drained, hsuperseded⟩
    refine hgate' turnId drained text edit htext ?_
    rw [htrace]
    exact hsuperseded.append (List.singleton_sublist.mpr hmem)
  · intro hopen turnId drained text edit htext h
    rw [htrace] at h
    have htriple : List.Sublist ([.sent (some turnId) .placeholder none,
        .sent none (.newAck drained) none] ++ [.sent (some turnId) text edit])
          (s.trace ++ events) := h
    by_cases hmem : .sent (some turnId) text edit ∈ events
    · have hpair : s'.Superseded turnId := by
        refine ⟨drained, ?_⟩
        rw [htrace]
        exact (List.sublist_append_left ..).trans htriple
      exact hopen turnId text edit htext hmem ((superseded_append htrace hacks).mp hpair)
    · exact hgate turnId drained text edit htext (sublist_of_last htriple hmem)

theorem gate_beside (hsilent : ∀ turnId text edit, .sent (some turnId) text edit ∉ events)
    : s'.GateHolds := by
  intro turnId drained text edit htext h
  rw [htrace] at h
  have htriple : List.Sublist ([.sent (some turnId) .placeholder none,
      .sent none (.newAck drained) none] ++ [.sent (some turnId) text edit])
        (s.trace ++ events) := h
  exact hgate turnId drained text edit htext
    (sublist_of_last htriple (hsilent turnId text edit))

end

/-! The versions of the turns tell which of them are superseded. -/

/-- The placeholder of the message is sent: its turn is submitted. -/
def Submitted (s : RouteState) (turnId : Nat) : Prop :=
  .sent (some turnId) .placeholder none ∈ s.trace

structure Versioned (s : RouteState) : Prop where
  taken : ∀ turnId, s.Submitted turnId → turnId ∈ s.taken
  unsubmitted : ∀ item await, s.Serving item await → await.version? = none →
    ¬ s.Submitted item.turnId
  submitted : ∀ item await version, s.Serving item await → await.version? = some version →
    s.Submitted item.turnId ∧ version ≤ s.bindingVersion ∧
      (s.Superseded item.turnId ↔ version ≠ s.bindingVersion)

theorem Superseded.submitted (h : s.Superseded turnId) : s.Submitted turnId := by
  obtain ⟨drained, hpair⟩ := h
  exact hpair.subset List.mem_cons_self

theorem submitted_append (htrace : s'.trace = s.trace ++ events) : s'.Submitted turnId ↔
      s.Submitted turnId ∨ .sent (some turnId) .placeholder none ∈ events := by
  unfold Submitted
  rw [htrace, List.mem_append]

theorem says_silent (hspoken : ∀ event ∈ events, s.Says item await answer event) (drained : Nat) :
    .sent none (.newAck drained) none ∉ events :=
  fun hmem => hspoken _ hmem

theorem Versioned.grown (hs : s.Sound) (hversioned : s.Versioned)
    (htrace : s'.trace = s.trace ++ events)
    (hunsent : ∀ turnId, .sent (some turnId) .placeholder none ∉ events)
    (hacks : ∀ drained, .sent none (.newAck drained) none ∉ events)
    (hkeeps : s'.bindingVersion = s.bindingVersion)
    (hserves : ∀ item await, s'.Serving item await →
      (item ∈ s.queue ∧ await.version? = none) ∨
        ∃ before, s.Serving item before ∧ await.version? = before.version?) : s'.Versioned := by
  have hsame (turnId : Nat) : s'.Submitted turnId ↔ s.Submitted turnId := by
    rw [submitted_append htrace, or_iff_left (hunsent turnId)]
  -- a message that is still in the queue was not taken, so it has no placeholder
  have hwaiting {item : QueuedMessage} (hqueue : item ∈ s.queue) : ¬ s.Submitted item.turnId := by
    intro hsubmitted
    have htaken : item.turnId ∈ s.taken := hversioned.taken _ hsubmitted
    exact hs.consistent.accounted.taken_disjoint hs.consistent.once htaken
      (List.mem_map_of_mem hqueue)
  refine ⟨fun turnId hsubmitted => ?_, fun item await hserving hnone => ?_,
    fun item await version hserving hsome => ?_⟩
  · exact taken_of_append htrace (hversioned.taken turnId ((hsame turnId).mp hsubmitted))
  · rw [hsame]
    obtain ⟨hqueue, -⟩ | ⟨before, hserving', hversion⟩ := hserves item await hserving
    · exact hwaiting hqueue
    · exact hversioned.unsubmitted item before hserving' (hversion.symm.trans hnone)
  · obtain ⟨-, hnone⟩ | ⟨before, hserving', hversion⟩ := hserves item await hserving
    · rw [hnone] at hsome
      cases hsome
    · rw [hsame, superseded_append htrace hacks, hkeeps]
      exact hversioned.submitted item before version hserving' (hversion.symm.trans hsome)

theorem sendPlaceholder_version :
    (s.sendPlaceholder id item bound sessionId).bindingVersion = s.bindingVersion := by
  unfold sendPlaceholder
  split
  · rfl
  · rfl

theorem Versioned.submits (hs : s.Sound) (hversioned : s.Versioned)
    (htask : s.tasks id = some (.processing item (.resolveSession bound))) :
    (s.sendPlaceholder id item bound sessionId).Versioned := by
  have hserving : s.Serving item (.resolveSession bound) := ⟨id, htask⟩
  have hsole : s.Sole id := hs.consistent.sole (by simp [Live, htask])
  have hunsent : ¬ s.Submitted item.turnId := hversioned.unsubmitted item _ hserving rfl
  have htrace : (s.sendPlaceholder id item bound sessionId).trace =
      s.trace ++ [.sent item.turnId .placeholder none] := by
    unfold sendPlaceholder
    split
    · rfl
    · rfl
  -- whether or not the route is bound again, the turn takes the binding's present version
  have hserved {item' : QueuedMessage} {await' : ProcessAwait}
      (h : (s.sendPlaceholder id item bound sessionId).Serving item' await') :
      item' = item ∧ await'.version? = some s.bindingVersion := by
    unfold sendPlaceholder at h
    split at h
    · obtain ⟨rfl, rfl⟩ := serving_await (s := s.say item.turnId .placeholder none) hsole h
      exact ⟨rfl, rfl⟩
    · obtain ⟨rfl, rfl⟩ := serving_await (s := { s with activeSession := some sessionId }) hsole h
      exact ⟨rfl, rfl⟩
  refine ⟨fun turnId hsubmitted => ?_, fun item' await' hserving' hnone => ?_,
    fun item' await' version hserving' hsome => ?_⟩
  · obtain hold | hnew := (submitted_append htrace).mp hsubmitted
    · exact taken_of_append htrace (hversioned.taken turnId hold)
    · have heq : turnId = item.turnId := by simpa using hnew
      rw [heq]
      exact taken_of_append htrace (hs.tracked.taken item _ hserving)
  · obtain ⟨-, hsome⟩ := hserved hserving'
    rw [hnone] at hsome
    cases hsome
  · obtain ⟨rfl, hcurrent⟩ := hserved hserving'
    rw [hcurrent] at hsome
    cases hsome
    have hnew : (s.sendPlaceholder id item' bound sessionId).Submitted item'.turnId :=
      (submitted_append htrace).mpr (.inr List.mem_cons_self)
    have hcurrent : ¬ (s.sendPlaceholder id item' bound sessionId).Superseded item'.turnId := by
      rw [superseded_append htrace (by simp)]
      exact fun h => hunsent h.submitted
    rw [sendPlaceholder_version]
    exact ⟨hnew, Nat.le_refl _, iff_of_false hcurrent fun hne => hne rfl⟩

theorem StaysBound.gate (h : s.StaysBound s') (hgate : s.GateHolds) : s'.GateHolds := by
  obtain ⟨events, htrace, hbeside⟩ := h.trace
  exact gate_beside hgate htrace (beside_silent hbeside)

theorem StaysBound.versioned (h : s.StaysBound s') (haside : s.Aside s') (hs : s.Sound)
    (hversioned : s.Versioned) : s'.Versioned := by
  obtain ⟨events, htrace, hbeside⟩ := h.trace
  have hacks (drained : Nat) : .sent none (.newAck drained) none ∉ events :=
    fun hmem => hbeside _ hmem
  exact hversioned.grown hs htrace (fun turnId => beside_silent hbeside _ _ _) hacks h.version
    fun item await hserving => .inr ⟨await, haside.serving item await hserving, rfl⟩

theorem bindNew_gate
    (htrace : s'.trace = (s.drainQueue command).trace ++ [.sent none (.newAck drained) none])
    (hgate : s.GateHolds) : s'.GateHolds := by
  obtain ⟨events, hdrained, hbeside⟩ := (s.drainQueue_staysBound command).trace
  rw [hdrained, List.append_assoc] at htrace
  refine gate_beside hgate htrace fun turnId text edit hmem => ?_
  obtain hmem | hmem := List.mem_append.mp hmem
  · exact beside_silent hbeside _ _ _ hmem
  · simp at hmem

theorem bindNew_versioned (hversion : s'.bindingVersion = s.bindingVersion + 1)
    (htrace : s'.trace = (s.drainQueue command).trace ++ [.sent none (.newAck drained) none])
    (htasks : s'.tasks = s.tasks) (hversioned : s.Versioned) : s'.Versioned := by
  obtain ⟨events, hdrained, hbeside⟩ := (s.drainQueue_staysBound command).trace
  have hsame (turnId : Nat) : s'.Submitted turnId ↔ s.Submitted turnId := by
    rw [submitted_append htrace, submitted_append hdrained,
      or_iff_left (beside_silent hbeside _ _ _), or_iff_left (by simp)]
  have hserving {item : QueuedMessage} {await : ProcessAwait} (h : s'.Serving item await) :
      s.Serving item await := by
    obtain ⟨k, hk⟩ := h
    exact ⟨k, by rwa [htasks] at hk⟩
  have hgrown : s'.trace = s.trace ++ (events ++ [.sent none (.newAck drained) none]) := by
    rw [htrace, hdrained, List.append_assoc]
  refine ⟨fun turnId hsubmitted => ?_, fun item await hserving' hnone => ?_,
    fun item await version hserving' hsome => ?_⟩
  · exact taken_of_append hgrown (hversioned.taken turnId ((hsame turnId).mp hsubmitted))
  · rw [hsame]
    exact hversioned.unsubmitted item await (hserving hserving') hnone
  · obtain ⟨hsubmitted, hle, -⟩ :=
      hversioned.submitted item await version (hserving hserving') hsome
    -- the acknowledgement comes after every placeholder there is
    have hsuperseded : s'.Superseded item.turnId := by
      refine ⟨drained, ?_⟩
      have hpair : List.Sublist [.sent (some item.turnId) .placeholder none,
          .sent none (.newAck drained) none]
            ((s.drainQueue command).trace ++ [.sent none (.newAck drained) none]) :=
        (List.singleton_sublist.mpr ((submitted_append hdrained).mpr (.inl hsubmitted))).append
          (.refl _)
      rwa [← htrace] at hpair
    rw [hsame, hversion]
    exact ⟨hsubmitted, by omega, iff_of_true hsuperseded (by omega)⟩

theorem processStep_version (h : s.processStep cfg id item await answer = some s') :
    s'.bindingVersion = s.bindingVersion := by
  cases processStep_case h with
  | ends hends => exact endMessage_keeps.version
  | cancels hcancels => exact cancelMessage_keeps.version
  | refuses bound code message | runs turn await' hrunning hopen hrunning'
    | defers turn outcome hfirst edit hedit | noticed turn outcome edited delivered ref
    | asks turn outcome requestId hfirst => rfl
  | resolves bound sessionId => exact sendPlaceholder_version
  | starts turn delivered ref lastText =>
    unfold startTurn
    extract_lets turn' ref' u
    split
    · exact finishTurn_keeps.version
    · rfl
  | joins turn exit lastText =>
    cases exit with
    | outcome outcome => exact finishTurn_keeps.version
    | raised => exact endMessage_keeps.version
    | cancelled => exact cancelMessage_keeps.version
  | delivers turn final ref rest delivered sentRef =>
    split
    · exact deliver_keeps.version
    · exact clear_keeps.version

theorem worker_versioned (hs : s.Sound) (hversioned : s.Versioned)
    (h : s.workerStep cfg id answer = some s') : s'.Versioned := by
  unfold workerStep at h
  split at h
  · cases h
  · next htask =>
    cases h
    have hsole : s.Sole id := hs.consistent.sole (by simp [Live, htask])
    refine hversioned.grown hs takeNext_trace (fun turnId hmem => ?_) (fun drained hmem => ?_)
      takeNext_keeps.version fun item await hserving => .inl (takeNext_serving hsole hserving)
    · obtain ⟨turnId', h | h⟩ := mem_takingEvents hmem
      · cases h
      · cases h
    · obtain ⟨turnId', h | h⟩ := mem_takingEvents hmem
      · cases h
      · cases h
  · next item await htask =>
    have hserving : s.Serving item await := ⟨id, htask⟩
    have howns : await.Owns item.turnId := hs.tracked.owns item await hserving
    have hsole : s.Sole id := hs.consistent.sole (by simp [Live, htask])
    -- only the step that resolves the session submits a turn
    by_cases hresolves : await.Resolves answer
    · unfold ProcessAwait.Resolves at hresolves
      split at hresolves
      · next bound sessionId =>
        simp only [processStep, Option.some.injEq] at h
        rw [← h]
        exact hversioned.submits hs htask
      · exact hresolves.elim
    · obtain ⟨events, htrace, hspoken⟩ := processStep_says howns h
      refine hversioned.grown hs htrace (fun turnId hmem => ?_) (says_silent hspoken)
        (processStep_version h) fun item' await' hserving' => ?_
      · obtain hbound | ⟨-, -, hfound⟩ | ⟨htext, -⟩ := hspoken _ hmem
        · cases hbound
        · exact hresolves hfound
        · exact htext
      · obtain hwaiting | ⟨rfl, hversion⟩ :=
          processStep_servesOn hsole h hresolves item' await' hserving'
        · exact .inl hwaiting
        · exact .inr ⟨await, hserving, hversion⟩

theorem step_versioned (hs : s.Sound) (hversioned : s.Versioned)
    (h : routeStep cfg s a = some s') : s'.Versioned := by
  cases a with
  | inbound message => exact (inbound_staysBound h).versioned (inbound_aside h) hs hversioned
  | setAgent agentId =>
    cases h
    exact ⟨hversioned.taken, hversioned.unsubmitted, hversioned.submitted⟩
  | worker id answer => exact worker_versioned hs hversioned h
  | command k answer =>
    obtain hstays | ⟨command, hversion, htrace, htasks, -⟩ := command_staysBound h
    · exact hstays.versioned (command_aside h) hs hversioned
    · exact bindNew_versioned hversion htrace htasks hversioned

theorem worker_gate_iff (hs : s.Sound) (hversioned : s.Versioned) (hgate : s.GateHolds)
    (h : s.workerStep cfg id answer = some s') :
    s'.GateHolds ↔ s.StaleSilent (.worker id answer) := by
  unfold workerStep at h
  split at h
  · cases h
  · next htask =>
    cases h
    have hacks (drained : Nat) : .sent none (.newAck drained) none ∉ s.takingEvents := by
      intro hmem
      obtain ⟨turnId', h | h⟩ := mem_takingEvents hmem
      · cases h
      · cases h
    refine iff_of_true ((gate_append hgate takeNext_trace hacks).mpr ?_) ?_
    · intro turnId text edit htext hmem
      obtain ⟨turnId', h | h⟩ := mem_takingEvents hmem
      · cases h
      · cases h
        exact htext.elim
    · intro item await turn htask'
      rw [htask] at htask'
      cases htask'
  · next item await htask =>
    have hserving : s.Serving item await := ⟨id, htask⟩
    have howns : await.Owns item.turnId := hs.tracked.owns item await hserving
    obtain ⟨events, htrace, hspoken⟩ := processStep_says howns h
    have hversion {turn : TurnContext} (hturn : await.turn? = some turn) :
        await.version? = some turn.bindingVersion := by
      rw [ProcessAwait.version?, hturn, Option.map_some]
    rw [gate_append hgate htrace (says_silent hspoken)]
    constructor
    · -- a stale turn that speaks on does send a text, and its turn is superseded
      intro hopen item' await' turn htask' hturn hstale hspeaks
      rw [htask] at htask'
      cases htask'
      obtain ⟨text, edit, htext, hsaid⟩ := processStep_speaksOn howns h hspeaks
      have hevents : events = [.sent item.turnId text edit] :=
        List.append_cancel_left (htrace.symm.trans hsaid)
      obtain ⟨-, -, hsuperseded⟩ := hversioned.submitted item await _ hserving (hversion hturn)
      refine hopen item.turnId text edit htext ?_ (hsuperseded.mpr hstale)
      rw [hevents]
      exact List.mem_cons_self
    · -- a text of a superseded turn: not the not-bound text nor a placeholder
      intro hsilent turnId text edit htext hmem hsuperseded
      obtain rfl | ⟨rfl, -⟩ | ⟨-, rfl, hmay⟩ := hspoken _ hmem
      · exact htext
      · exact htext
      · cases hturn : await.turn? with
        | none =>
          have hnone : await.version? = none := by
            rw [ProcessAwait.version?, hturn, Option.map_none]
          exact hversioned.unsubmitted item await hserving hnone hsuperseded.submitted
        | some turn =>
          have hstale : turn.bindingVersion ≠ s.bindingVersion :=
            (hversioned.submitted item await _ hserving (hversion hturn)).2.2.mp hsuperseded
          obtain hcurrent | hspeaks := hmay
          · exact hstale (hcurrent turn hturn)
          · exact hsilent item await turn htask hturn hstale hspeaks

theorem step_gate_iff (hs : s.Sound) (hversioned : s.Versioned)
    (hgate : s.GateHolds) (h : routeStep cfg s a = some s') :
    s'.GateHolds ↔ s.StaleSilent a := by
  cases a with
  | inbound message => exact iff_of_true ((inbound_staysBound h).gate hgate) trivial
  | setAgent agentId =>
    cases h
    exact iff_of_true hgate trivial
  | worker id answer => exact worker_gate_iff hs hversioned hgate h
  | command k answer =>
    refine iff_of_true ?_ trivial
    obtain hstays | ⟨command, -, htrace, -⟩ := command_staysBound h
    · exact hstays.gate hgate
    · exact bindNew_gate htrace hgate

variable (agentId activeSession : Option String)

theorem fresh_versioned : (fresh agentId activeSession).Versioned := by
  have hidle {item : QueuedMessage} {await : ProcessAwait} :
      ¬ (fresh agentId activeSession).Serving item await := by
    rintro ⟨id, htask⟩
    cases htask
  refine ⟨fun turnId hsubmitted => ?_, fun item await hserving => absurd hserving hidle,
    fun item await version hserving => absurd hserving hidle⟩
  cases hsubmitted

theorem fresh_gate : (fresh agentId activeSession).GateHolds := by
  intro turnId drained text edit _ hsaid
  cases List.sublist_nil.mp hsaid

/-- Over every run of a route: after the acknowledgement of a `/new` no text of a turn submitted
before it is sent, if and only if no turn of an earlier binding goes on with a text it has begun
or with its notice. -/
theorem gate_holds_iff (cfg : RouterConfig) (agentId activeSession : Option String)
    (as : List RouteAction) :
    Always (routeStep cfg) GateHolds (fresh agentId activeSession) as ↔
      Guarded (routeStep cfg) StaleSilent (fresh agentId activeSession) as := by
  have hkept : ∀ s a s', s.Sound ∧ s.Versioned → s.GateHolds → s'.GateHolds →
      routeStep cfg s a = some s' → s'.Sound ∧ s'.Versioned :=
    fun s a s' hs _ _ hstep => ⟨step_sound hs.1 hstep, step_versioned hs.1 hs.2 hstep⟩
  exact always_iff_guarded hkept
    (fun s a s' hs hgate hstep => step_gate_iff hs.1 hs.2 hgate hstep)
    ⟨fresh_sound agentId activeSession, fresh_versioned agentId activeSession⟩
    (fresh_gate agentId activeSession)

/-- A `/new` is acknowledged while the first segment of an answer is being sent. -/
def newBetweenSegments : List RouteAction :=
  [.inbound (.plain "question"), .worker 0 .done, .worker 0 (.session "old"),
    .worker 0 (.placeholderSent true none none),
    .worker 0 (.signal (.terminal (some "answer"))), .worker 0 (.pumpDone none),
    .inbound .new, .command 0 (.session "new"), .worker 0 (.sent true none)]

def segmentsRouter : RouterConfig := { plainRouter with plan := fun text _ => [text, text] }

theorem segment_after_new :
    ¬ ∀ cfg agentId activeSession as,
      Always (routeStep cfg) GateHolds (fresh agentId activeSession) as := by
  intro h
  have hend : ∃ s, run (routeStep segmentsRouter) (fresh (some "agent") none)
      newBetweenSegments = some s ∧ List.Sublist [.sent (some 0) .placeholder none,
        .sent none (.newAck 0) none, .sent (some 0) (.answer "answer") none] s.trace :=
    ⟨_, rfl, by decide⟩
  obtain ⟨s, hrun, hsaid⟩ := hend
  have hgate := always_last (h segmentsRouter (some "agent") none newBetweenSegments) hrun
  exact hgate 0 0 (.answer "answer") none trivial hsaid

end RouteState

end WittyService
