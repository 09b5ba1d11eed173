import WittyService.RouteInvariants

/-! The session a `/new` binds its route to, and who rebinds it. -/
namespace WittyService

open GuardedRuns

namespace RouteState

variable {cfg : RouterConfig} {s s' t : RouteState} {id : Nat} {item : QueuedMessage}

/-- The step neither binds the route for another `/new`, nor does a message taken after this one
get another session in place of its own. -/
def Unchallenged (sessionId : String) (before : List Nat) (s : RouteState) : RouteAction → Prop
  | .command k (.session _) => ∀ command, s.commands[k]? ≠ some (.newSession command)
  | .worker id (.session resolved) => ∀ item,
      s.tasks id = some (.processing item (.resolveSession (some sessionId))) →
        item.turnId ∉ before → resolved = sessionId
  | _ => True

/-- A message that was taken before the `/new` bound the route gets the session that it read. -/
def GetsRead (sessionId : String) (before : List Nat) (s : RouteState) : RouteAction → Prop
  | .worker id (.session resolved) => ∀ item bound,
      s.tasks id = some (.processing item (.resolveSession bound)) → item.turnId ∈ before →
        bound = some resolved ∨ resolved = sessionId
  | _ => True

theorem finishTurn_session {turn : TurnContext} {outcome : TurnOutcome} {lastText : Option String} :
    (s.finishTurn cfg id item turn outcome lastText).activeSession = s.activeSession :=
  finishTurn_keeps.session

variable {bound : Option String} {sessionId : String} {answer : Answer} {before : List Nat}
  {a : RouteAction}

theorem sendPlaceholder_session : (s.sendPlaceholder id item bound sessionId).activeSession =
      if some sessionId = bound then s.activeSession else some sessionId := by
  unfold sendPlaceholder
  split
  · rfl
  · rfl

theorem processStep_session {await : ProcessAwait}
    (h : s.processStep cfg id item await answer = some s') :
    s'.activeSession = s.activeSession ∨ ∃ bound resolved,
      await = .resolveSession bound ∧ answer = .session resolved ∧
        s' = s.sendPlaceholder id item bound resolved := by
  cases processStep_case h with
  | ends hends => exact .inl endMessage_keeps.session
  | cancels hcancels => exact .inl cancelMessage_keeps.session
  | refuses bound code message | runs turn await' hrunning hopen hrunning'
    | defers turn outcome hfirst edit hedit | noticed turn outcome edited delivered ref
    | asks turn outcome requestId hfirst => exact .inl rfl
  | resolves bound sessionId => exact .inr ⟨bound, sessionId, rfl, rfl, rfl⟩
  | starts turn delivered ref lastText =>
    refine .inl ?_
    unfold startTurn
    extract_lets turn' ref' u
    split
    · exact finishTurn_session
    · rfl
  | joins turn exit lastText =>
    refine .inl ?_
    cases exit with
    | outcome outcome => exact finishTurn_session
    | raised => exact endMessage_keeps.session
    | cancelled => exact cancelMessage_keeps.session
  | delivers turn final ref rest delivered sentRef =>
    refine .inl ?_
    split
    · exact deliver_keeps.session
    · exact clear_keeps.session

theorem worker_session (h : s.workerStep cfg id answer = some s') :
    s'.activeSession = s.activeSession ∨ ∃ item bound resolved,
      s.tasks id = some (.processing item (.resolveSession bound)) ∧
        answer = .session resolved ∧ s' = s.sendPlaceholder id item bound resolved := by
  unfold workerStep at h
  split at h
  · cases h
  · cases h
    exact .inl takeNext_keeps.session
  · next item await htask =>
    obtain hkept | ⟨bound, resolved, rfl, rfl, rfl⟩ := processStep_session h
    · exact .inl hkept
    · exact .inr ⟨item, bound, resolved, htask, rfl, rfl⟩

theorem ensureWorker_session : s.ensureWorker.activeSession = s.activeSession := by
  unfold ensureWorker
  split
  · split_ifs
    · rfl
    · rfl
  · rfl

theorem inbound_session {message : Inbound}
    (h : routeStep cfg s (.inbound message) = some s') : s'.activeSession = s.activeSession := by
  cases h
  cases message with
  | plain text =>
    simp only [handleInbound]
    split
    · rfl
    · exact ensureWorker_session
  | stop =>
    simp only [handleInbound, handleStop, stopCurrent]
    split
    · split
      · rfl
      · rfl
    · rfl
  | new =>
    simp only [handleInbound, handleNew]
    split
    · rfl
    · rfl
  | other => rfl

theorem command_session {k : Nat} (h : routeStep cfg s (.command k answer) = some s') :
    s'.activeSession = s.activeSession ∨ ∃ command sessionId,
      s.commands[k]? = some (.newSession command) ∧ answer = .session sessionId ∧
        s'.activeSession = some sessionId := by
  simp only [routeStep] at h
  split at h
  · cases h
  · next task htask =>
    obtain ⟨result, hresult, rfl⟩ := Option.map_eq_some_iff.mp h
    unfold commandStep at hresult
    split at hresult <;> cases hresult
    · refine .inl ?_
      unfold stopCurrent
      split
      · rfl
      · rfl
    · exact .inl rfl
    · exact .inl rfl
    · -- the only command that binds
      next command sessionId => exact .inr ⟨command, sessionId, htask, rfl, rfl⟩
    · exact .inl rfl
    · exact .inl rfl
    · exact .inl rfl
    · exact .inl rfl

/-! A message that waits for its session has read the binding when it was taken. -/

def ReadsBinding (s : RouteState) : Prop :=
  ∀ item bound, s.Serving item (.resolveSession bound) → bound = s.activeSession

section

variable (hsole : t.Sole id)
include hsole

theorem takeNext_reads : (t.takeNext id).ReadsBinding := by
  intro item bound h
  rw [takeNext_keeps.session]
  unfold takeNext at h
  split at h
  · exact absurd h (not_serving_exit hsole)
  · next front rest hqueue =>
    unfold startProcess at h
    split at h
    · obtain ⟨-, heq⟩ := serving_await hsole h
      cases heq
    · obtain ⟨-, heq⟩ := serving_await hsole h
      cases heq
      rfl

theorem await_reads {await : ProcessAwait} (hawait : ∀ bound, await ≠ .resolveSession bound) :
    (t.await id item await).ReadsBinding := by
  intro item' bound h
  obtain ⟨-, heq⟩ := serving_await hsole h
  exact absurd heq.symm (hawait bound)

theorem endMessage_reads : (t.endMessage id item).ReadsBinding :=
  takeNext_reads hsole

theorem cancelMessage_reads : (t.cancelMessage id item).ReadsBinding :=
  fun _ _ h => absurd h (not_serving_exit hsole)

variable {turn : TurnContext}

theorem deliver_reads {final : Bool} {ref : Option String} {actions : List String} :
    (t.deliver cfg id item turn final ref actions).ReadsBinding := by
  cases actions with
  | nil => exact endMessage_reads hsole
  | cons text rest => exact await_reads hsole nofun

theorem finishTurn_reads {outcome : TurnOutcome} {lastText : Option String} :
    (t.finishTurn cfg id item turn outcome lastText).ReadsBinding := by
  have hleave : (t.leave turn).Sole id := hsole
  generalize hend : t.finishTurn cfg id item turn outcome lastText = s'
  cases finishTurn_case hend with
  | aborted h | gated hclosed => exact endMessage_reads hleave
  | fails hgo hopen hnone | answers hgo hopen text htext => exact deliver_reads hleave

end

theorem worker_reads (hs : s.Consistent)
    (h : s.workerStep cfg id answer = some s') : s'.ReadsBinding := by
  unfold workerStep at h
  split at h
  · cases h
  · next htask =>
    cases h
    exact takeNext_reads (hs.sole (by simp [Live, htask]))
  · next item await htask =>
    have hsole : s.Sole id := hs.sole (by simp [Live, htask])
    cases processStep_case h with
    | ends hends => exact endMessage_reads hsole
    | cancels hcancels => exact cancelMessage_reads hsole
    | refuses bound code message | defers turn outcome hfirst edit hedit
      | noticed turn outcome edited delivered ref | asks turn outcome requestId hfirst =>
      exact await_reads hsole (by rintro _ ⟨⟩)
    | resolves bound sessionId =>
      unfold sendPlaceholder
      extract_lets u
      have husole : u.Sole id := by
        simp only [u]
        split
        · exact hsole
        · exact hsole
      exact await_reads husole (by rintro _ ⟨⟩)
    | starts turn delivered ref lastText =>
      unfold startTurn
      extract_lets turn' ref' u
      have husole : u.Sole id := hsole
      split
      · exact finishTurn_reads husole
      · exact await_reads husole (by rintro _ ⟨⟩)
    | runs turn await' hrunning hopen hrunning' =>
      refine await_reads hsole fun bound heq => ?_
      rw [heq] at hrunning'
      cases hrunning'
    | joins turn exit lastText =>
      have hleft : ({ s with current := none } : RouteState).Sole id := hsole
      cases exit with
      | outcome outcome => exact finishTurn_reads hsole
      | raised => exact endMessage_reads hleft
      | cancelled => exact cancelMessage_reads hleft
    | delivers turn final ref rest delivered sentRef =>
      split
      · exact deliver_reads hsole
      · exact endMessage_reads hsole

/-- A message taken after the `/new` that waits for its session has read the session of the
`/new`. -/
def LaterReads (sessionId : String) (before : List Nat) (s : RouteState) : Prop :=
  ∀ item bound, s.Serving item (.resolveSession bound) → item.turnId ∉ before →
    bound = some sessionId

theorem step_laterReads (hs : s.Sound) (hreads : s.LaterReads sessionId before)
    (h : routeStep cfg s a = some s') (hkept : s'.activeSession = some sessionId) :
    s'.LaterReads sessionId before := by
  obtain ⟨id, answer, rfl⟩ | haside := worker_or_aside h
  · exact fun item bound hserving _ =>
      (worker_reads hs.consistent h item bound hserving).trans hkept
  · exact fun item bound hserving hlater =>
      hreads item bound (haside.serving item _ hserving) hlater

theorem resolved_kept_iff {resolved : String} (hreads : s.LaterReads sessionId before)
    (hunchallenged : s.Unchallenged sessionId before (.worker id (.session resolved)))
    (hkept : s.activeSession = some sessionId)
    (htask : s.tasks id = some (.processing item (.resolveSession bound)))
    (h : routeStep cfg s (.worker id (.session resolved)) = some s') :
    s'.activeSession = some sessionId ↔
      s.GetsRead sessionId before (.worker id (.session resolved)) := by
  simp only [routeStep, workerStep, htask, processStep, Option.some.injEq] at h
  have hgets : s.GetsRead sessionId before (.worker id (.session resolved)) ↔
      (item.turnId ∈ before → bound = some resolved ∨ resolved = sessionId) := by
    constructor
    · exact fun hread => hread item bound htask
    · intro hread item' bound' htask'
      rw [htask] at htask'
      cases htask'
      exact hread
  rw [hgets, ← h, sendPlaceholder_session, hkept]
  split
  · -- the message gets the session it read, and the route is not bound again
    next hsame => exact ⟨fun _ _ => .inl hsame.symm, fun _ => rfl⟩
  · next hother =>
    rw [Option.some.injEq]
    constructor
    · exact fun heq _ => .inr heq
    · intro hread
      -- a message taken later has read the session of the `/new`, so only a refusal rebinds
      by_cases hbefore : item.turnId ∈ before
      · obtain hsame | heq := hread hbefore
        · exact absurd hsame.symm hother
        · exact heq
      · have hbound : bound = some sessionId := hreads item bound ⟨id, htask⟩ hbefore
        rw [hbound] at htask
        exact hunchallenged item htask hbefore

theorem step_kept_iff (hreads : s.LaterReads sessionId before)
    (hunchallenged : s.Unchallenged sessionId before a)
    (hkept : s.activeSession = some sessionId) (h : routeStep cfg s a = some s') :
    s'.activeSession = some sessionId ↔ s.GetsRead sessionId before a := by
  cases a with
  | inbound message =>
    exact ⟨fun _ => trivial, fun _ => (inbound_session h).trans hkept⟩
  | setAgent agentId =>
    cases h
    exact ⟨fun _ => trivial, fun _ => hkept⟩
  | command k answer =>
    refine ⟨fun _ => trivial, fun _ => ?_⟩
    obtain hsame | ⟨command, bound, hcommand, rfl, -⟩ := command_session h
    · exact hsame.trans hkept
    · exact absurd hcommand (hunchallenged command)
  | worker id answer =>
    by_cases hresolved : ∃ item bound resolved,
        s.tasks id = some (.processing item (.resolveSession bound)) ∧ answer = .session resolved
    · obtain ⟨item, bound, resolved, htask, rfl⟩ := hresolved
      exact resolved_kept_iff hreads hunchallenged hkept htask h
    · have hgets : s.GetsRead sessionId before (.worker id answer) := by
        unfold GetsRead
        split
        · next heq =>
          cases heq
          exact fun item bound htask _ => absurd ⟨item, bound, _, htask, rfl⟩ hresolved
        · trivial
      refine ⟨fun _ => hgets, fun _ => ?_⟩
      obtain hsame | ⟨item, bound, resolved, htask, rfl, -⟩ := worker_session h
      · exact hsame.trans hkept
      · exact absurd ⟨item, bound, resolved, htask, rfl⟩ hresolved

/-- Over every run of a route: after a `/new` has bound it, and until a later `/new` binds it or
a message taken later finds the session unusable, the route stays with the session of the
`/new` if and only if no message taken before is given another session than it read. -/
theorem new_kept_iff (cfg : RouterConfig) (agentId activeSession : Option String)
    (pre post : List RouteAction) (k command : Nat) (sessionId : String) (s t : RouteState)
    (hpre : run (routeStep cfg) (fresh agentId activeSession) pre = some s)
    (hcommand : s.commands[k]? = some (.newSession command))
    (hnew : routeStep cfg s (.command k (.session sessionId)) = some t)
    (h : Guarded (routeStep cfg) (Unchallenged sessionId t.taken) t post) :
    Always (routeStep cfg) (fun u => u.activeSession = some sessionId) t post ↔
      Guarded (routeStep cfg) (GetsRead sessionId t.taken) t post := by
  have hs : t.Sound := step_sound (run_sound hpre) hnew
  -- right after the `/new` every message in process was taken before it
  have hbound : t.activeSession = some sessionId := by
    simp only [routeStep, hcommand, commandStep, Option.map_some, Option.some.injEq] at hnew
    rw [← hnew]
    rfl
  have hreads : t.LaterReads sessionId t.taken :=
    fun item bound hserving hlater => absurd (hs.tracked.taken item _ hserving) hlater
  have hkept : ∀ u a u', u.Sound ∧ u.LaterReads sessionId t.taken →
      u.Unchallenged sessionId t.taken a → u.activeSession = some sessionId →
      u'.activeSession = some sessionId → routeStep cfg u a = some u' →
      u'.Sound ∧ u'.LaterReads sessionId t.taken :=
    fun u a u' hu _ _ hu' hstep => ⟨step_sound hu.1 hstep, step_laterReads hu.1 hu.2 hstep hu'⟩
  exact always_iff_guarded_among hkept
    (fun u a u' hu hunchallenged hu' hstep => step_kept_iff hu.2 hunchallenged hu' hstep)
    h ⟨hs, hreads⟩ hbound

/-- A message is taken and waits for its session while a `/new` is received. -/
def newMeanwhile : List RouteAction :=
  [.inbound (.plain "first"), .worker 0 .done, .inbound .new]

/-- The route is bound to a usable session, which the message in process gets: the `/new`
stands. -/
theorem usable_session_kept : ∃ s t,
    run (routeStep plainRouter) (fresh (some "agent") (some "old")) newMeanwhile = some s ∧
      routeStep plainRouter s (.command 0 (.session "new")) = some t ∧
        Always (routeStep plainRouter) (fun u => u.activeSession = some "new") t
          [.worker 0 (.session "old")] := by
  have hrun : ∃ s t item,
      run (routeStep plainRouter) (fresh (some "agent") (some "old")) newMeanwhile = some s ∧
        s.commands[0]? = some (.newSession 1) ∧
          routeStep plainRouter s (.command 0 (.session "new")) = some t ∧
            t.tasks 0 = some (.processing item (.resolveSession (some "old"))) :=
    ⟨_, _, _, rfl, rfl, rfl, rfl⟩
  obtain ⟨s, t, item, hpre, hcommand, hnew, htask⟩ := hrun
  refine ⟨s, t, hpre, hnew, (new_kept_iff plainRouter (some "agent") (some "old") newMeanwhile
    [.worker 0 (.session "old")] 0 1 "new" s t hpre hcommand hnew ?_).mpr ?_⟩
  · intro u _
    refine ⟨fun item' htask' _ => ?_, trivial⟩
    rw [htask] at htask'
    simp at htask'
  · intro u _
    refine ⟨fun item' bound htask' _ => ?_, trivial⟩
    rw [htask] at htask'
    cases htask'
    exact .inl rfl

/-- On a route without a session the message in process gets a new one, and overwrites the
binding of the `/new`. -/
theorem new_session_lost :
    ¬ ∀ (cfg : RouterConfig) (agentId activeSession : Option String)
      (pre post : List RouteAction) (k command : Nat) (sessionId : String) (s t : RouteState),
      run (routeStep cfg) (fresh agentId activeSession) pre = some s →
      s.commands[k]? = some (.newSession command) →
      routeStep cfg s (.command k (.session sessionId)) = some t →
      Guarded (routeStep cfg) (Unchallenged sessionId t.taken) t post →
      Always (routeStep cfg) (fun u => u.activeSession = some sessionId) t post := by
  intro h
  have hrun : ∃ s t u item,
      run (routeStep plainRouter) (fresh (some "agent") none) newMeanwhile = some s ∧
        s.commands[0]? = some (.newSession 1) ∧
          routeStep plainRouter s (.command 0 (.session "new")) = some t ∧
            t.tasks 0 = some (.processing item (.resolveSession none)) ∧
              run (routeStep plainRouter) t [.worker 0 (.session "old")] = some u ∧
                u.activeSession = some "old" :=
    ⟨_, _, _, _, rfl, rfl, rfl, rfl, rfl, rfl⟩
  obtain ⟨s, t, u, item, hpre, hcommand, hnew, htask, hpost, hsession⟩ := hrun
  have hunchallenged : Guarded (routeStep plainRouter) (Unchallenged "new" t.taken) t
      [.worker 0 (.session "old")] := by
    intro u _
    refine ⟨fun item' htask' _ => ?_, trivial⟩
    rw [htask] at htask'
    cases htask'
  have hkept := always_last (h plainRouter (some "agent") none newMeanwhile
    [.worker 0 (.session "old")] 0 1 "new" s t hpre hcommand hnew hunchallenged) hpost
  rw [hsession] at hkept
  exact absurd hkept (by decide)

end RouteState

end WittyService
