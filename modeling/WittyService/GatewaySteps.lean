import WittyService.TurnGateway

/-! The steps of the turn gateway seen from the route: those of its worker, and all others. -/
namespace WittyService

def Answer.withText (text : Option String) : Answer → Answer
  | placeholderSent delivered ref _ => placeholderSent delivered ref text
  | pumpDone _ => pumpDone text
  | answer => answer

theorem Answer.exists_withText (answer : Answer) : ∃ text, answer.withText text = answer := by
  cases answer with
  | placeholderSent delivered ref text | pumpDone text => exact ⟨text, rfl⟩
  | _ => exact ⟨none, rfl⟩

namespace GatewayState

variable {cfg : RouterConfig} {s s' : GatewayState} {id : Nat}

theorem workerStep_route {answer : Answer} (h : s.workerStep cfg id answer = some s') :
    ∃ text, s.route.workerStep cfg id (answer.withText text) = some s'.route := by
  have hsame {route : RouteState} (hroute : s.route.workerStep cfg id answer = some route) :
      ∃ text, s.route.workerStep cfg id (answer.withText text) = some route := by
    obtain ⟨text, heq⟩ := answer.exists_withText
    exact ⟨text, by rwa [heq]⟩
  unfold workerStep at h
  split at h
  · obtain ⟨route, hroute, heq⟩ := Option.map_eq_some_iff.mp h
    split at heq
    · cases heq
      exact ⟨_, hroute⟩
    · cases heq
      exact ⟨_, hroute⟩
  · split at h
    · obtain ⟨route, hroute, rfl⟩ := Option.map_eq_some_iff.mp h
      exact hsame hroute
    · split at h
      · cases h
      · split at h
        · obtain ⟨route, hroute, rfl⟩ := Option.map_eq_some_iff.mp h
          exact hsame hroute
        · cases h
  · split at h
    · obtain ⟨route, hroute, rfl⟩ := Option.map_eq_some_iff.mp h
      exact ⟨_, hroute⟩
    · cases h
  · obtain ⟨route, hroute, rfl⟩ := Option.map_eq_some_iff.mp h
    exact hsame hroute

/-- The pump leaves the route and the records alone. -/
structure Feeds (s t : GatewayState) : Prop where
  route : t.route = s.route
  messages : t.messages = s.messages
  produced : t.produced = s.produced
  concluded : t.concluded = s.concluded

variable {code message sessionId : String}

theorem pumpFails_feeds : s.Feeds (s.pumpFails code message) :=
  ⟨rfl, rfl, rfl, rfl⟩

theorem ensureRunnable_feeds {status : AgentStatus} :
    s.Feeds (s.ensureRunnable sessionId status) := by
  unfold ensureRunnable
  split
  · exact ⟨rfl, rfl, rfl, rfl⟩
  · exact pumpFails_feeds

theorem runTurn_feeds {agentId : String} : s.Feeds (s.runTurn agentId sessionId) := by
  unfold runTurn
  split
  · exact pumpFails_feeds
  · exact ⟨rfl, rfl, rfl, rfl⟩
  · exact ensureRunnable_feeds

theorem streamEnds_feeds : s.Feeds (s.streamEnds sessionId) := by
  unfold streamEnds
  split
  · exact pumpFails_feeds
  · exact pumpFails_feeds

theorem mapAgentError_feeds {agentNotFound : Bool} :
    s.Feeds (s.mapAgentError agentNotFound code message) := by
  unfold mapAgentError
  split_ifs
  · exact pumpFails_feeds
  · exact pumpFails_feeds
  · exact pumpFails_feeds

theorem pumpStep_feeds {pump : PumpTask} {answer : PumpAnswer}
    (h : s.pumpStep pump answer = some s') : s.Feeds s' := by
  unfold pumpStep at h
  split at h
  · cases h
    exact runTurn_feeds
  · cases h
    exact ensureRunnable_feeds
  · cases h
    exact pumpFails_feeds
  · cases h
    split
    · exact ⟨rfl, rfl, rfl, rfl⟩
    · exact ⟨rfl, rfl, rfl, rfl⟩
  · cases h
    exact streamEnds_feeds
  · cases h
    exact mapAgentError_feeds
  · cases h
    exact pumpFails_feeds
  · cases h
    exact pumpFails_feeds
  · split at h
    · cases h
      exact ⟨rfl, rfl, rfl, rfl⟩
    · cases h
  · split at h
    · cases h
      exact ⟨rfl, rfl, rfl, rfl⟩
    · cases h
  · split at h
    · cases h
      exact ⟨rfl, rfl, rfl, rfl⟩
    · cases h
  · cases h

theorem routeStep_of_beside {action : RouteAction} (ha : ∀ id answer, action ≠ .worker id answer)
    (h : gatewayStep cfg s (.route action) = some s') :
    ∃ route, routeStep cfg s.route action = some route ∧ s' = { s with route := route } := by
  have hmap : (routeStep cfg s.route action).map (fun route => { s with route := route }) =
      some s' := by
    cases action with
    | worker id answer => exact absurd rfl (ha id answer)
    | inbound message | setAgent agentId | command k answer => exact h
  obtain ⟨route, hroute, rfl⟩ := Option.map_eq_some_iff.mp hmap
  exact ⟨route, hroute, rfl⟩

/-- From `s` to `t` the route stands still or takes a step beside its worker, and more may be
stored. -/
structure Beside (s t : GatewayState) : Prop where
  aside : s.route.Aside t.route
  concluded : t.concluded = s.concluded
  produced : s.produced ⊆ t.produced
  messages : ∀ message ∈ t.messages, message ∈ s.messages ∨
    ∀ turnId, message.turn = some turnId → (turnId, message.content) ∈ t.produced

theorem messageText_mem {message : AssistantMessage} {turnId : Nat}
    (h : message.turn = some turnId) : (turnId, message.content) ∈ messageText message := by
  simp [messageText, h]

section

variable {a : GatewayAction}

theorem step_beside (ha : ∀ id answer, a ≠ .route (.worker id answer))
    (h : gatewayStep cfg s a = some s') : s.Beside s' := by
  -- most steps store nothing
  have hkept (message : AssistantMessage) (hmem : message ∈ s.messages) :
      message ∈ s.messages ∨ ∀ turnId, message.turn = some turnId →
        (turnId, message.content) ∈ s.produced := .inl hmem
  cases a with
  | route action =>
    have hbeside (id : Nat) (answer : Answer) : action ≠ .worker id answer :=
      fun heq => ha id answer (congrArg _ heq)
    obtain ⟨route, hroute, rfl⟩ := routeStep_of_beside hbeside h
    obtain ⟨id, answer, rfl⟩ | haside := RouteState.worker_or_aside hroute
    · exact absurd rfl (hbeside id answer)
    · exact ⟨haside, rfl, List.Subset.refl _, hkept⟩
  | pump answer =>
    obtain ⟨hroute, hmessages, hproduced, hconcluded⟩ := pumpStep_feeds h
    refine ⟨?_, hconcluded, ?_, fun message hmem => ?_⟩
    · rw [hroute]
      exact .refl s.route
    · rw [hproduced]
      exact List.Subset.refl _
    · rw [hmessages] at hmem
      exact .inl hmem
  | setStatus agentId status =>
    cases h
    exact ⟨.refl s.route, rfl, List.Subset.refl _, hkept⟩
  | store message =>
    cases h
    refine ⟨.refl s.route, rfl, List.subset_append_left _ _, fun message' hmem => ?_⟩
    obtain hold | hnew := List.mem_append.mp hmem
    · exact .inl hold
    · rw [List.mem_singleton.mp hnew]
      exact .inr fun turnId howner => List.mem_append_right _ (messageText_mem howner)
  | rewrite k content status =>
    obtain ⟨message, hmessage, rfl⟩ := Option.map_eq_some_iff.mp h
    refine ⟨.refl s.route, rfl, List.subset_append_left _ _, fun message' hmem => ?_⟩
    -- what is rewritten counts as produced anew
    obtain hold | rfl := List.mem_or_eq_of_mem_set hmem
    · exact .inl hold
    · exact .inr fun turnId howner => List.mem_append_right _ (messageText_mem howner)
  | remove k =>
    cases h
    exact ⟨.refl s.route, rfl, List.Subset.refl _, fun message hmem =>
      .inl (List.mem_of_mem_eraseIdx hmem)⟩

theorem worker_or_beside (h : gatewayStep cfg s a = some s') :
    (∃ id answer, a = .route (.worker id answer) ∧ s.workerStep cfg id answer = some s') ∨
      s.Beside s' := by
  by_cases hworker : ∃ id answer, a = .route (.worker id answer)
  · obtain ⟨id, answer, rfl⟩ := hworker
    exact .inl ⟨id, answer, rfl, h⟩
  · exact .inr (step_beside (fun id answer heq => hworker ⟨id, answer, heq⟩) h)

theorem step_route (h : gatewayStep cfg s a = some s') :
    s'.route = s.route ∨ ∃ action, routeStep cfg s.route action = some s'.route := by
  cases a with
  | route action =>
    refine .inr ?_
    by_cases hworker : ∃ id answer, action = .worker id answer
    · obtain ⟨id, answer, rfl⟩ := hworker
      obtain ⟨text, hroute⟩ := workerStep_route h
      exact ⟨.worker id (answer.withText text), hroute⟩
    · have hbeside (id : Nat) (answer : Answer) : action ≠ .worker id answer :=
        fun heq => hworker ⟨id, answer, heq⟩
      obtain ⟨route, hroute, rfl⟩ := routeStep_of_beside hbeside h
      exact ⟨action, hroute⟩
  | pump answer => exact .inl (pumpStep_feeds h).route
  | setStatus agentId status | store message | remove k =>
    cases h
    exact .inl rfl
  | rewrite k content status =>
    obtain ⟨message, -, rfl⟩ := Option.map_eq_some_iff.mp h
    exact .inl rfl

theorem step_routeSound (hs : s.route.Sound)
    (h : gatewayStep cfg s a = some s') : s'.route.Sound := by
  obtain hsame | ⟨action, hroute⟩ := step_route h
  · rwa [hsame]
  · exact RouteState.step_sound hs hroute

end

end GatewayState

end WittyService
