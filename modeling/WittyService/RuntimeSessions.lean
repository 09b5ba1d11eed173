import Mathlib.Logic.Function.Basic
import WittyService.GuardedRuns
import WittyService.TextParts
import WittyService.TextSegments

/-! The sessions of the agent server, the key under which each is known to its runtime, and the id
under which dsh knows it. Of a session its agent and its key are kept, of a config `restore` and
`session_id`. -/
namespace WittyService

open GuardedRuns SeparatedParts

structure SessionConfig where
  restore : Bool := false
  sessionId : Option PyStr := none
  deriving DecidableEq, Repr

inductive SessionServiceError where
  | invalidSessionConfig (message : String)
  | runtimeNotSupported
  | sessionNotFound
  | runtimeSessionCreateFailed
  | runtimeSessionDeleteFailed
  | invalidSessionRuntimeKey
  deriving DecidableEq, Repr

/-- What a call meets: whether the snapshot of the config is valid, whether its runtime is
registered and whether the runtime does what it is asked to, with the time and the `uuid4`. -/
structure SessionEnvironment where
  snapshotValid : Bool := true
  registered : Bool := true
  runtimeSucceeds : Bool := true
  timestamp : PyStr := []
  uuid : PyStr := []

/-- A row of `InMemorySessionRepository`. -/
structure RuntimeSession where
  agentId : PyStr
  runtimeSessionKey : PyStr
  deriving DecidableEq, Repr

/-- The message of `validate_create_session`, `none` for a valid config. -/
def validateCreateSession (config : SessionConfig) : Option String :=
  if config.restore then
    if config.sessionId.any fun sessionId => PyStr.strip sessionId ≠ [] then none
    else some "session_id is required when restore is true"
  else if config.sessionId.isSome then some "session_id is only accepted when restore is true"
  else none

def generateSessionId (env : SessionEnvironment) : PyStr := env.timestamp ++ [':'] ++ env.uuid

def buildRuntimeSessionKey (agentId sessionId : PyStr) : PyStr :=
  "agent:".toList ++ agentId ++ ":session:".toList ++ sessionId

def deriveDshSessionId (sessionKey : PyStr) : PyStr :=
  sessionKey.map fun c => if c = ':' then '-' else c

def resolveRuntimeSessionKey (id : PyStr) (session : RuntimeSession) :
    Except SessionServiceError PyStr :=
  if session.runtimeSessionKey ≠ [] then .ok session.runtimeSessionKey
  else if id ≠ [] then .ok id
  else .error .invalidSessionRuntimeKey

structure SessionService where
  sessions : PyStr → Option RuntimeSession := fun _ => none

inductive SessionServiceCall where
  | createSession (agentId : PyStr) (config : SessionConfig) (env : SessionEnvironment)
  | deleteSession (agentId sessionId : PyStr) (env : SessionEnvironment)

namespace SessionService

variable (s : SessionService)

/-- `_ensure_session_owner` for the session with an id, where there is one. -/
def ownedBy (agentId sessionId : PyStr) : Bool :=
  (s.sessions sessionId).all fun session => session.agentId = agentId

/-- The id under which `create_session` stores a session, when it gets so far. -/
def createdId (agentId : PyStr) (config : SessionConfig) (env : SessionEnvironment) :
    Except SessionServiceError PyStr :=
  match validateCreateSession config with
  | some message => .error (.invalidSessionConfig message)
  | none =>
    if !env.snapshotValid then .error (.invalidSessionConfig "invalid session config")
    else if !env.registered then .error .runtimeNotSupported
    else if config.restore then
      -- the session of the runtime is there already
      let sessionId := config.sessionId.getD (generateSessionId env)
      if s.ownedBy agentId sessionId then .ok sessionId else .error .sessionNotFound
    else if env.runtimeSucceeds then .ok (generateSessionId env)
    else .error .runtimeSessionCreateFailed

def store (agentId sessionId : PyStr) : SessionService :=
  { sessions := Function.update s.sessions sessionId
      (some ⟨agentId, buildRuntimeSessionKey agentId sessionId⟩) }

def createSession (agentId : PyStr) (config : SessionConfig) (env : SessionEnvironment) :
    Except SessionServiceError SessionService :=
  (s.createdId agentId config env).map (s.store agentId)

def deleteSession (agentId sessionId : PyStr) (env : SessionEnvironment) :
    Except SessionServiceError SessionService :=
  match s.sessions sessionId with
  | none => .error .sessionNotFound
  | some session =>
    if session.agentId ≠ agentId then .error .sessionNotFound
    else (resolveRuntimeSessionKey sessionId session).bind fun _ =>
      if env.registered && !env.runtimeSucceeds then .error .runtimeSessionDeleteFailed
      else .ok { sessions := Function.update s.sessions sessionId none }

def step : SessionServiceCall → Option SessionService
  | .createSession agentId config env =>
    some (((s.createSession agentId config env).toOption).getD s)
  | .deleteSession agentId sessionId env =>
    some (((s.deleteSession agentId sessionId env).toOption).getD s)

/-- No two sessions have one key or one id of dsh. -/
def Apart : Prop :=
  ∀ id id' session session', s.sessions id = some session → s.sessions id' = some session' →
    id ≠ id' → ∀ key key', resolveRuntimeSessionKey id session = .ok key →
      resolveRuntimeSessionKey id' session' = .ok key' →
        key ≠ key' ∧ deriveDshSessionId key ≠ deriveDshSessionId key'

end SessionService

/-- With `-` for every colon, the two sessions have the same ids, or the `-session-` between the
agent and the session can stand in two places. -/
def MayClash (agentId sessionId agentId' sessionId' : PyStr) : Prop :=
  Joinable '-' "session".toList (deriveDshSessionId agentId) (deriveDshSessionId sessionId)
    (deriveDshSessionId agentId') (deriveDshSessionId sessionId')

variable {agentId sessionId agentId' sessionId' id : PyStr}

theorem resolveRuntimeSessionKey_built :
    resolveRuntimeSessionKey id ⟨agentId, buildRuntimeSessionKey agentId sessionId⟩ =
      .ok (buildRuntimeSessionKey agentId sessionId) := by
  have hne : buildRuntimeSessionKey agentId sessionId ≠ [] := List.cons_ne_nil _ _
  rw [resolveRuntimeSessionKey, if_pos hne]

theorem deriveDshSessionId_built :
    deriveDshSessionId (buildRuntimeSessionKey agentId sessionId) =
      "agent-".toList ++ join '-' "session".toList (deriveDshSessionId agentId)
        (deriveDshSessionId sessionId) := by
  unfold deriveDshSessionId buildRuntimeSessionKey join
  rw [List.map_append, List.map_append, List.map_append]
  have hagent : "agent:".toList.map (fun c => if c = ':' then '-' else c) = "agent-".toList := by
    decide
  have hsession : ":session:".toList.map (fun c => if c = ':' then '-' else c) =
      separator '-' "session".toList := by
    decide
  rw [hagent, hsession]
  simp

theorem deriveDshSessionId_eq_iff :
    deriveDshSessionId (buildRuntimeSessionKey agentId sessionId) =
        deriveDshSessionId (buildRuntimeSessionKey agentId' sessionId') ↔
      MayClash agentId sessionId agentId' sessionId' := by
  rw [deriveDshSessionId_built, deriveDshSessionId_built, List.append_cancel_left_eq,
    join_eq_join_iff (by decide)]
  rfl

namespace SessionService

variable {s s' : SessionService} {config : SessionConfig} {env : SessionEnvironment}

/-- Every key was built from the ids of its session. -/
def Built (s : SessionService) : Prop :=
  ∀ id session, s.sessions id = some session →
    session.runtimeSessionKey = buildRuntimeSessionKey session.agentId id

def Distinct (s : SessionService) : SessionServiceCall → Prop
  | .createSession agentId config env =>
    ∀ sessionId, s.createdId agentId config env = .ok sessionId →
      ∀ id session, s.sessions id = some session → id ≠ sessionId →
        ¬ MayClash agentId sessionId session.agentId id
  | .deleteSession _ _ _ => True

theorem apart_iff (hs : s.Built) : s.Apart ↔ ∀ id id' session session',
    s.sessions id = some session → s.sessions id' = some session' → id ≠ id' →
      ¬ MayClash session.agentId id session'.agentId id' := by
  have hkey {id : PyStr} {session : RuntimeSession} (h : s.sessions id = some session) :
      resolveRuntimeSessionKey id session = .ok (buildRuntimeSessionKey session.agentId id) := by
    obtain ⟨agentId, key⟩ := session
    rw [show key = buildRuntimeSessionKey agentId id from hs id _ h]
    exact resolveRuntimeSessionKey_built
  constructor
  · intro h id id' session session' hget hget' hne hclash
    obtain ⟨-, hdsh⟩ := h id id' session session' hget hget' hne _ _ (hkey hget) (hkey hget')
    exact hdsh (deriveDshSessionId_eq_iff.mpr hclash)
  · intro h id id' session session' hget hget' hne key key' hresolve hresolve'
    have hclash := h id id' session session' hget hget' hne
    rw [hkey hget] at hresolve
    rw [hkey hget'] at hresolve'
    cases hresolve
    cases hresolve'
    have hdsh := fun heq => hclash (deriveDshSessionId_eq_iff.mp heq)
    exact ⟨fun heq => hdsh (congrArg deriveDshSessionId heq), hdsh⟩

theorem built_store (hs : s.Built) : (s.store agentId sessionId).Built := by
  intro id session hget
  by_cases hid : id = sessionId
  · subst hid
    rw [show (s.store agentId id).sessions id = _ from Function.update_self ..] at hget
    cases hget
    rfl
  · rw [show (s.store agentId sessionId).sessions id = _ from Function.update_of_ne hid ..] at hget
    exact hs id session hget

theorem mayClash_symm (h : MayClash agentId sessionId agentId' sessionId') :
    MayClash agentId' sessionId' agentId sessionId :=
  deriveDshSessionId_eq_iff.mp (deriveDshSessionId_eq_iff.mpr h).symm

theorem apart_store (hs : s.Built) (hapart : s.Apart) :
    (s.store agentId sessionId).Apart ↔ ∀ id session, s.sessions id = some session →
      id ≠ sessionId → ¬ MayClash agentId sessionId session.agentId id := by
  rw [apart_iff (built_store hs)]
  have hnew : (s.store agentId sessionId).sessions sessionId =
      some ⟨agentId, buildRuntimeSessionKey agentId sessionId⟩ := Function.update_self ..
  have hold {id : PyStr} (hne : id ≠ sessionId) :
      (s.store agentId sessionId).sessions id = s.sessions id := Function.update_of_ne hne _ _
  constructor
  · intro h id session hget hne
    exact h sessionId id _ session hnew (by rw [hold hne]; exact hget) hne.symm
  · intro h id id' session session' hget hget' hne
    by_cases hid : id = sessionId
    · subst hid
      rw [hnew] at hget
      cases hget
      rw [hold hne.symm] at hget'
      exact h id' session' hget' hne.symm
    · rw [hold hid] at hget
      by_cases hid' : id' = sessionId
      · subst hid'
        rw [hnew] at hget'
        cases hget'
        exact fun hclash => h id session hget hid (mayClash_symm hclash)
      · rw [hold hid'] at hget'
        exact (apart_iff hs).mp hapart id id' session session' hget hget' hne

variable {agentId sessionId : PyStr} {call : SessionServiceCall}

theorem deleteSession_ok (h : s.deleteSession agentId sessionId env = .ok s') :
    s' = { sessions := Function.update s.sessions sessionId none } := by
  unfold deleteSession at h
  split at h
  · cases h
  next session hsession =>
    cases hkey : resolveRuntimeSessionKey sessionId session with
    | error error =>
      rw [hkey] at h
      split_ifs at h
      · cases h
      · cases h
    | ok key =>
      rw [hkey] at h
      split_ifs at h
      · cases h
      · cases h
        rfl

theorem deleteSession_sub (h : s.step (.deleteSession agentId sessionId env) = some s') {id : PyStr}
    {session : RuntimeSession} (hget : s'.sessions id = some session) :
    s.sessions id = some session := by
  cases h
  cases hdelete : s.deleteSession agentId sessionId env with
  | error error =>
    rw [hdelete] at hget
    exact hget
  | ok t =>
    rw [hdelete, deleteSession_ok hdelete] at hget
    change Function.update s.sessions sessionId none id = some session at hget
    by_cases hid : id = sessionId
    · rw [hid, Function.update_self] at hget
      cases hget
    · rwa [Function.update_of_ne hid] at hget

theorem createSession_step (h : s.step (.createSession agentId config env) = some s') :
    (∃ sessionId, s.createdId agentId config env = .ok sessionId ∧
      s' = s.store agentId sessionId) ∨
    (∃ error, s.createdId agentId config env = .error error ∧ s' = s) := by
  cases h
  unfold createSession
  cases hid : s.createdId agentId config env with
  | ok sessionId => exact .inl ⟨sessionId, rfl, rfl⟩
  | error error => exact .inr ⟨error, rfl, rfl⟩

theorem built_step (hs : s.Built) (h : s.step call = some s') :
    s'.Built := by
  cases call with
  | createSession agentId config env =>
    obtain ⟨sessionId, -, rfl⟩ | ⟨error, -, rfl⟩ := createSession_step h
    · exact built_store hs
    · exact hs
  | deleteSession agentId sessionId env =>
    exact fun id session hget => hs id session (deleteSession_sub h hget)

theorem apart_step (hs : s.Built) (hapart : s.Apart)
    (h : s.step call = some s') : s'.Apart ↔ s.Distinct call := by
  cases call with
  | createSession agentId config env =>
    obtain ⟨sessionId, hid, rfl⟩ | ⟨error, hid, rfl⟩ := createSession_step h
    · rw [apart_store hs hapart]
      constructor
      · intro hdistinct sessionId' hid'
        rw [hid] at hid'
        cases hid'
        exact hdistinct
      · exact fun hdistinct => hdistinct sessionId hid
    · refine iff_of_true hapart fun sessionId hid' => ?_
      rw [hid] at hid'
      cases hid'
  | deleteSession agentId sessionId env =>
    refine iff_of_true ?_ trivial
    intro id id' session session' hget hget'
    exact hapart id id' session session' (deleteSession_sub h hget) (deleteSession_sub h hget')

/-- In every run of the service the sessions that exist at one time have their own keys and their
own ids of dsh, if and only if none is created that may clash with another one. -/
theorem sessions_apart_iff (calls : List SessionServiceCall) :
    Always step Apart {} calls ↔ Guarded step Distinct {} calls :=
  always_iff_guarded (J := Built) (fun _ _ _ hs _ _ h => built_step hs h)
    (fun _ _ _ hs hapart h => apart_step hs hapart h) nofun nofun

/-- Two histories of one agent are restored whose ids dsh takes for one. -/
theorem restored_sessions_share_dsh_session :
    ¬ ∀ calls : List SessionServiceCall, Always step Apart {} calls := by
  intro h
  have hlast := always_last (h [
    .createSession "main".toList { restore := true, sessionId := some "a:b".toList } {},
    .createSession "main".toList { restore := true, sessionId := some "a-b".toList } {}]) rfl
  have hshared := hlast "a:b".toList "a-b".toList _ _ rfl rfl (by decide) _ _ rfl rfl
  exact hshared.2 (by decide)

end SessionService

end WittyService
