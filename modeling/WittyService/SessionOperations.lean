import WittyService.SessionStore

/-! The session operations of `AgentManager` and `SessionManager`, and the operations on
agents and scheduled tasks that reach sessions. What a remote agent server answers is an
argument of the operation. -/
namespace WittyService

inductive RemoteAnswer (α : Type) where
  | ok (value : α)
  | httpStatus (code : Nat)
  | failed

/-- The answer of `list_agents`: a default id, and for each agent its id and whether it is
the default. -/
structure RuntimeAgents where
  defaultId : Option String
  agents : List (Option String × Bool)

/-- The explicit runtime agent of a call, and what `list_agents` would answer. -/
structure Resolution where
  runtimeAgentId : Option String
  agents : RemoteAnswer RuntimeAgents

def nonempty (value : Option String) : Option String := value.filter fun text => text != ""

/-- `resolve_runtime_agent_id`, none when it raises. -/
def Resolution.resolveRuntimeAgentId (r : Resolution) : Option String :=
  match nonempty r.runtimeAgentId, r.agents with
  | some explicit, _ => some explicit
  | none, .ok payload =>
    match nonempty payload.defaultId with
    | some defaultId => some defaultId
    | none => (payload.agents.filter Prod.snd).findSome? fun item => nonempty item.1
  | none, _ => none

/-- A session in an answer. `id` may be missing, and `createdAt` may be absent or no date. -/
structure RemoteSession where
  id : Option String
  status : Option String
  runtimeType : Option String
  createdAt : Option (Option Int)
  refused : Bool

def RemoteSession.accepted (r : RemoteSession) : Bool :=
  r.id.isSome && (r.createdAt != some none) &&
    (SessionStatus.ofString (r.status.getD "idle")).isSome && !r.refused

inductive SessionError where
  | agentNotFound
  | agentNotRunning
  | sandboxStateNotFound
  | sessionNotFound
  | sessionAgentMismatch
  | runtimeAgentIdMissing
  | wsNotConnected
  | invalidSessionMetadata
  | agentDeleteFailed
  | remote
  deriving DecidableEq, Repr

inductive Reply where
  | error (code : SessionError)
  | session (id : String) (row : Session)
  | sessions (rows : List (String × Session))
  | stream (id : String)
  | done

def Reply.sessionIds : Reply → List String
  | .session id _ => [id]
  | .sessions rows => rows.map Prod.fst
  | .stream id => [id]
  | _ => []

inductive SessionWrite where
  | createMessage (message : StoredMessage) (replaces : Option Nat)
  | updateMessage (messageId : Nat) (call : MessageCall)
  | storeEvents (rows : List EventRow)
  | compactEvents (messageId : Nat)
  | syncStatus (status : SessionStatus) (now : Int)
  | runtimeIdentity (runtimeType runtimeSessionId runtimeSessionKey : String) (now : Int)
  | title (text : String) (now : Int)

def StoredMessage.call (m : StoredMessage) (call : MessageCall) : StoredMessage :=
  { m with row := (call.apply (some m.row)).getD m.row }

def SessionWrite.apply (session : Session) : SessionWrite → Session
  | .createMessage message none => { session with messages := session.messages ++ [message] }
  | .createMessage message (some replaced) => { session with
      messages := session.messages.filter (fun m => m.id != replaced) ++ [message]
      events := deleteMessageEvents session.events replaced }
  | .updateMessage messageId call => { session with
      messages := session.messages.map fun m => if m.id = messageId then m.call call else m }
  | .storeEvents rows => { session with events := session.events ++ rows }
  | .compactEvents messageId => { session with
      events := compactMessageDeltaEvents session.events messageId }
  | .syncStatus status now => { session with status := status, updatedAt := now }
  | .runtimeIdentity runtimeType runtimeSessionId runtimeSessionKey now => { session with
      runtimeType := some runtimeType
      runtimeSessionId := some runtimeSessionId
      runtimeSessionKey := some runtimeSessionKey
      updatedAt := now }
  | .title text now => { session with title := some text, updatedAt := now }

/-- The last assistant message is interrupted, as `abort_session` does it. -/
def interruptLast (messages : List StoredMessage) : List StoredMessage :=
  match messages.reverse.find? fun m => m.role == "assistant" with
  | none => messages
  | some last => messages.map fun m =>
      if m.id = last.id then m.call (.updateMessageStatus .interrupted) else m

def SESSION_TITLE_MAX_LENGTH : Nat := 255

def validSessionTitle (title : String) : Bool :=
  title != "" && decide (title.length ≤ SESSION_TITLE_MAX_LENGTH)

inductive TurnKind where
  | sendMessage
  | sendMessageStream
  | regenerateMessageStream
  deriving DecidableEq, Repr

/-- `writes` is everything a turn writes to its session from the user message on; how it
depends on the events of the turn plays no part for whose session it is. -/
inductive SessionOp where
  | createSession (agentId : String) (r : Resolution) (answer : RemoteAnswer RemoteSession)
      (now : Int)
  | listSessions (agentId : String) (r : Resolution)
      (answer : RemoteAnswer (List RemoteSession)) (now : Int)
  | getSession (agentId id : String) (r : Resolution) (answer : RemoteAnswer RemoteSession)
      (now : Int)
  | getSessionEvents (agentId id : String) (r : Resolution) (answer : RemoteAnswer Unit)
  | updateSession (agentId id : String) (title : Option String) (pinned : Option Bool)
      (now : Int)
  | abortSession (agentId id : String) (r : Resolution) (answer : RemoteAnswer Unit)
  | deleteSession (agentId id : String)
  | turn (kind : TurnKind) (agentId id : String) (resumes : Bool) (writes : List SessionWrite)
  | reconnectStream (agentId id : String)
  | question (agentId id : String) (connected : Bool)

namespace SessionStore

variable (s : SessionStore)

def fail (code : SessionError) : SessionStore × Reply := (s, .error code)

/-- `_get_adaptor_http_client`. -/
def withAdaptor (agentId : String) (k : SessionStore × Reply) : SessionStore × Reply :=
  match s.agents agentId with
  | some agent => if agent.hasSandboxState then k else s.fail .sandboxStateNotFound
  | none => s.fail .sandboxStateNotFound

/-- `_get_agent`. -/
def withAgent (agentId : String) (k : AgentRow → SessionStore × Reply) : SessionStore × Reply :=
  match s.agents agentId with
  | some agent => k agent
  | none => s.fail .agentNotFound

/-- `SessionManager.get_session`. -/
def withOwned (agentId id : String) (k : Session → SessionStore × Reply) :
    SessionStore × Reply :=
  match s.sessions id with
  | none => s.fail .sessionNotFound
  | some row => if row.agentId ≠ agentId then s.fail .sessionAgentMismatch else k row

def resolved (row : Option Session) (r : Resolution) : Option String :=
  match row.bind Session.remoteRuntimeAgentId with
  | some runtimeAgentId => some runtimeAgentId
  | none => r.resolveRuntimeAgentId

def storeRemote (agentId runtimeAgentId : String) (now : Int) (r : RemoteSession) :
    Option (SessionStore × String × Session) :=
  match r.id, r.createdAt with
  | none, _ => none
  | _, some none => none
  | some id, createdAt =>
    (s.upsertSession id agentId
      { status := r.status.getD "idle"
        runtimeType := r.runtimeType
        runtimeSessionKey := none
        createdAt := createdAt.join
        remoteRuntimeAgentId := some runtimeAgentId
        refused := r.refused
        now := now }).map fun out => (out.1, id, out.2)

/-- The loop of `list_sessions_remote`; what was written before a row raises stays. -/
def storeAll (agentId runtimeAgentId : String) (now : Int) (s : SessionStore) :
    List RemoteSession → SessionStore × Option (List (String × Session))
  | [] => (s, some [])
  | r :: rest =>
    match s.storeRemote agentId runtimeAgentId now r with
    | none => (s, none)
    | some (s', id, row) =>
      let later := storeAll agentId runtimeAgentId now s' rest
      (later.1, later.2.map fun rows => (id, row) :: rows)

def reply (out : Option (SessionStore × String × Session)) : SessionStore × Reply :=
  match out with
  | none => s.fail .remote
  | some (s', id, row) => (s', .session id row)

def runTurn (id : String) (writes : List SessionWrite) : SessionStore × Reply :=
  (s.modifySession id fun row => writes.foldl SessionWrite.apply row, .stream id)

def startTurn (kind : TurnKind) (agentId id : String) (resumes : Bool)
    (writes : List SessionWrite) (agent : AgentRow) : SessionStore × Reply :=
  if kind = .sendMessage ∧ agent.hasSandboxState = false then s.fail .sandboxStateNotFound
  else
    match agent.status with
    | .running => s.runTurn id writes
    | .paused =>
      if resumes then (s.updateAgentStatus agentId .running).runTurn id writes
      else s.fail .remote
    | _ => s.fail .agentNotRunning

end SessionStore

open SessionStore

def performSession (s : SessionStore) : SessionOp → SessionStore × Reply
  | .createSession agentId r answer now =>
    s.withAgent agentId fun agent =>
      if agent.status ≠ .running then s.fail .agentNotRunning
      else s.withAdaptor agentId <|
        match r.resolveRuntimeAgentId, answer with
        | some runtimeAgentId, .ok session =>
          s.reply (s.storeRemote agentId runtimeAgentId now session)
        | _, _ => s.fail .remote
  | .listSessions agentId r answer now =>
    s.withAdaptor agentId <|
      match r.resolveRuntimeAgentId, answer with
      | some runtimeAgentId, .ok rows =>
        match storeAll agentId runtimeAgentId now s rows with
        | (s', some rows) => (s', .sessions rows)
        | (s', none) => s'.fail .remote
      | _, _ => s.fail .remote
  | .getSession agentId id r answer now =>
    -- the owner of the local row is not looked at
    s.withAdaptor agentId <|
      match resolved (s.sessions id) r, answer with
      | some runtimeAgentId, .ok session =>
        s.reply (s.storeRemote agentId runtimeAgentId now session)
      | some _, .httpStatus 404 => (s.deleteSession id).fail .sessionNotFound
      | _, _ => s.fail .remote
  | .getSessionEvents agentId id r answer =>
    s.withAdaptor agentId <| s.withOwned agentId id fun row =>
      match resolved (some row) r, answer with
      | some _, .ok _ => (s, .stream id)
      | _, _ => s.fail .remote
  | .updateSession agentId id title pinned now =>
    s.withOwned agentId id fun row =>
      if title.any fun text => !validSessionTitle text then s.fail .invalidSessionMetadata
      else
        let row := { row with
          title := title.or row.title
          pinned := pinned.getD row.pinned
          updatedAt := now }
        (s.put id (some row), .session id row)
  | .abortSession agentId id r answer =>
    s.withOwned agentId id fun row => s.withAdaptor agentId <|
      let aborted := s.modifySession id fun row =>
        { row with messages := interruptLast row.messages }
      match resolved (some row) r, answer with
      | some _, .ok _ => (aborted, .done)
      | _, _ => aborted.fail .remote
  | .deleteSession agentId id =>
    -- the remote deletion is tried first, and its failure only logged
    s.withAdaptor agentId <| s.withOwned agentId id fun _ => (s.deleteSession id, .done)
  | .turn kind agentId id resumes writes =>
    s.withAgent agentId fun agent => s.withOwned agentId id fun _ =>
      s.startTurn kind agentId id resumes writes agent
  | .reconnectStream agentId id =>
    s.withAgent agentId fun _ => s.withOwned agentId id fun _ => (s, .stream id)
  | .question agentId id connected =>
    s.withAdaptor agentId <| s.withOwned agentId id fun row =>
      if row.remoteRuntimeAgentId.isNone then s.fail .runtimeAgentIdMissing
      else if connected then (s, .done) else s.fail .wsNotConnected

def SessionOp.agent : SessionOp → String
  | .createSession agentId .. | .listSessions agentId .. | .getSession agentId ..
  | .getSessionEvents agentId .. | .updateSession agentId .. | .abortSession agentId ..
  | .deleteSession agentId .. | .turn _ agentId .. | .reconnectStream agentId ..
  | .question agentId .. => agentId

/-! A property of an outcome that every refusal has is shown behind the checks. -/

namespace SessionStore

variable {s : SessionStore} {P : SessionStore × Reply → Prop} {agentId id : String}

theorem withAdaptor_cases {k : SessionStore × Reply} (hfail : ∀ code, P (s.fail code))
    (h : (∃ agent, s.agents agentId = some agent ∧ agent.hasSandboxState = true) → P k) :
    P (s.withAdaptor agentId k) := by
  unfold withAdaptor
  split
  · next agent hagent =>
    split_ifs with hsandbox
    · exact h ⟨agent, hagent, hsandbox⟩
    · exact hfail _
  · exact hfail _

theorem withAdaptor_of_ready (k : SessionStore × Reply)
    (h : ∃ agent, s.agents agentId = some agent ∧ agent.hasSandboxState = true) :
    s.withAdaptor agentId k = k := by
  obtain ⟨agent, hagent, hsandbox⟩ := h
  simp [withAdaptor, hagent, hsandbox]

theorem withAgent_cases {k : AgentRow → SessionStore × Reply} (hfail : ∀ code, P (s.fail code))
    (h : ∀ agent, s.agents agentId = some agent → P (k agent)) : P (s.withAgent agentId k) := by
  unfold withAgent
  split
  · next agent hagent => exact h agent hagent
  · exact hfail _

theorem withOwned_cases {k : Session → SessionStore × Reply} (hfail : ∀ code, P (s.fail code))
    (h : ∀ row, s.sessions id = some row → row.agentId = agentId → P (k row)) :
    P (s.withOwned agentId id k) := by
  unfold withOwned
  split
  · exact hfail _
  · next row hrow =>
    split_ifs with hne
    · exact hfail _
    · exact h row hrow (not_not.mp hne)

variable {agent : AgentRow}

theorem startTurn_cases {kind : TurnKind} {resumes : Bool} {writes : List SessionWrite}
    (hfail : ∀ code, P (s.fail code)) (hrun : P (s.runTurn id writes))
    (hresumed : P ((s.updateAgentStatus agentId .running).runTurn id writes)) :
    P (s.startTurn kind agentId id resumes writes agent) := by
  unfold startTurn
  split
  · exact hfail _
  split
  · exact hrun
  · split
    · exact hresumed
    · exact hfail _
  · exact hfail _

section

variable {runtimeAgentId : String} {now : Int} {r : RemoteSession}

theorem storeRemote_of_id (hid : r.id = some id) (hdate : r.createdAt ≠ some none) :
    s.storeRemote agentId runtimeAgentId now r =
      (s.upsertSession id agentId
        ⟨r.status.getD "idle", r.runtimeType, none, r.createdAt.join, some runtimeAgentId,
          r.refused, now⟩).map fun out => (out.1, id, out.2) := by
  cases hcreated : r.createdAt with
  | none => simp only [storeRemote, hid, hcreated]
  | some date =>
    cases date with
    | none => exact absurd hcreated hdate
    | some date => simp only [storeRemote, hid, hcreated]

theorem storeRemote_put {s' : SessionStore} {row : Session}
    (h : s.storeRemote agentId runtimeAgentId now r = some (s', id, row)) :
    r.id = some id ∧ r.accepted = true ∧ s' = s.put id (some row) := by
  have hdate : r.createdAt ≠ some none := by
    intro hcreated
    cases hid : r.id <;> simp [storeRemote, hid, hcreated] at h
  cases hid : r.id with
  | none => simp [storeRemote, hid] at h
  | some id' =>
    rw [storeRemote_of_id hid hdate] at h
    obtain ⟨⟨s₁, row₁⟩, hput, heq⟩ := Option.map_eq_some_iff.mp h
    cases heq
    obtain ⟨hstatus, hrefused, hs'⟩ := upsertSession_put hput
    have hrefused' : r.refused = false := hrefused
    have hstatus' : (SessionStatus.ofString (r.status.getD "idle")).isSome = true := hstatus
    exact ⟨rfl, by simp [RemoteSession.accepted, hid, hdate, hstatus', hrefused'], hs'⟩

end

theorem storeRemote_accepted (runtimeAgentId : String) (now : Int) {r : RemoteSession}
    (hr : r.accepted = true) (hagent : s.agents agentId = some agent) :
    ∃ id row, r.id = some id ∧
      s.storeRemote agentId runtimeAgentId now r = some (s.put id (some row), id, row) := by
  simp only [RemoteSession.accepted, Bool.and_eq_true, Bool.not_eq_true', bne_iff_ne] at hr
  obtain ⟨⟨⟨hid, hdate⟩, hstatus⟩, hrefused⟩ := hr
  obtain ⟨id, hid⟩ := Option.isSome_iff_exists.mp hid
  obtain ⟨row, hrow⟩ := upsertSession_of_accepted s id
    (u := ⟨r.status.getD "idle", r.runtimeType, none, r.createdAt.join, some runtimeAgentId,
      r.refused, now⟩) hstatus hrefused hagent
  refine ⟨id, row, hid, ?_⟩
  rw [storeRemote_of_id hid hdate, hrow]
  rfl

end SessionStore

end WittyService
