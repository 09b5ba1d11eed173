import WittyService.GuardedRuns
import WittyService.SessionOperations

/-! How a session leaves the database. The agent servers keep their sessions in memory, so a
restart empties them; a resume of the agent posts its sessions to the new server. -/
namespace WittyService

open SessionStore GuardedRuns

structure Deployment where
  store : SessionStore
  held : String → List String

inductive DeleteOutcome where
  | blocked
  | recordFailed
  | deleted
  deriving DecidableEq, Repr

/-- A session operation comes with what the server of its agent holds after it. A resume
names the sessions it restores, in the order of the rows, and the answer to each. -/
inductive DeploymentOp where
  | session (op : SessionOp) (held : List String)
  | createAgent (agentId : String) (succeeds : Bool)
  | pauseAgent (agentId : String)
  | markError (agentId : String)
  | resumeAgent (agentId : String) (restarts started : Bool)
      (restores : List (String × RemoteAnswer Unit))
  | deleteAgent (agentId : String) (outcome : DeleteOutcome)
  | markSessionScheduled (id taskId : String) (taskExists : Bool)
  | deleteTask (taskId : String) (inFlight : Bool)
  | agentServerRestart (agentId : String)

def canTransition : AgentStatus → AgentStatus → Bool
  | .creating, .running | .creating, .deleted | .creating, .error => true
  | .running, .paused | .running, .deleted | .running, .error => true
  | .paused, .running | .paused, .deleted => true
  | .error, .running | .error, .deleted => true
  | _, _ => false

/-- The loop over the sessions to restore. A status error is counted, 409 as restored;
anything else ends the resume. -/
def restoreSessions (held : List String) : List (String × RemoteAnswer Unit) → List String × Bool
  | [] => (held, true)
  | (id, .ok _) :: rest => restoreSessions (id :: held) rest
  | (_, .httpStatus _) :: rest => restoreSessions held rest
  | (_, .failed) :: _ => (held, false)

namespace Deployment

variable (h : Deployment)

def setHeld (agentId : String) (held : List String) : Deployment :=
  { h with held := Function.update h.held agentId held }

def withStore (store : SessionStore) : Deployment := { h with store := store }

def setAgent (agentId : String) (agent : AgentRow) : Deployment :=
  h.withStore { h.store with agents := Function.update h.store.agents agentId (some agent) }

def setStatus (agentId : String) (status : AgentStatus) : Deployment :=
  h.withStore (h.store.updateAgentStatus agentId status)

def resume (agentId : String) (agent : AgentRow) (restarts started : Bool)
    (restores : List (String × RemoteAnswer Unit)) : Deployment :=
  let restarted := restarts || agent.status != .paused
  let h := if restarted then (h.setHeld agentId []).setAgent agentId { agent with
    hasSandboxState := true } else h
  if !started then h
  else if agent.status = .deleted then h.setStatus agentId .running
  else
    let restored := restoreSessions (h.held agentId) restores
    let h := h.setHeld agentId restored.1
    if restored.2 then h.setStatus agentId .running else h

end Deployment

def deploymentStep (h : Deployment) : DeploymentOp → Option Deployment
  | .session op held =>
    some ((h.withStore (performSession h.store op).1).setHeld op.agent held)
  | .createAgent agentId succeeds =>
    if (h.store.agents agentId).isSome then none
    else
      let h := h.setAgent agentId ⟨.creating, false⟩
      if succeeds then some ((h.setAgent agentId ⟨.running, true⟩).setHeld agentId [])
      else some (h.withStore (h.store.deleteAgent agentId))
  | .pauseAgent agentId =>
    match h.store.agents agentId with
    | none => some h
    | some agent =>
      if canTransition agent.status .paused then some (h.setStatus agentId .paused) else some h
  | .markError agentId => some (h.setStatus agentId .error)
  | .resumeAgent agentId restarts started restores =>
    match h.store.agents agentId with
    | none => some h
    | some agent =>
      if agent.status = .creating then some h
      else some (h.resume agentId agent restarts started restores)
  | .deleteAgent agentId outcome =>
    match h.store.agents agentId, outcome with
    | none, _ => some h
    | _, .blocked => some h
    | _, .recordFailed => some (h.setStatus agentId .deleted)
    | _, .deleted => some (h.withStore (h.store.deleteAgent agentId))
  | .markSessionScheduled id taskId taskExists =>
    if taskExists then
      some (h.withStore (h.store.modifySession id fun row =>
        { row with scheduledTaskId := some taskId }))
    else some h
  | .deleteTask taskId inFlight =>
    if inFlight then some h else some (h.withStore (h.store.deleteScheduledTask taskId))
  | .agentServerRestart agentId => some (h.setHeld agentId [])

/-- The operation deletes the session: itself, its agent or its scheduled task. The creation
of an agent that fails deletes the agent again. -/
def DeploymentOp.Deletes (id : String) (row : Session) : DeploymentOp → Prop
  | .session (.deleteSession agentId target) _ => agentId = row.agentId ∧ target = id
  | .createAgent agentId succeeds => agentId = row.agentId ∧ succeeds = false
  | .deleteAgent agentId outcome => agentId = row.agentId ∧ outcome = .deleted
  | .deleteTask taskId inFlight => row.scheduledTaskId = some taskId ∧ inFlight = false
  | _ => False

/-- A `get_session` for the session that the agent server answers with 404. -/
def DeploymentOp.NotFound (id : String) : DeploymentOp → Prop
  | .session (.getSession _ target _ (.httpStatus 404) _) _ => target = id
  | _ => False

def Truthful (h : Deployment) : DeploymentOp → Prop
  | .session (.getSession agentId id _ (.httpStatus 404) _) _ => id ∉ h.held agentId
  | _ => True

/-- One of the operations met `g` with the row the session had then. -/
def LostBy (g : String → Session → DeploymentOp → Prop) (h : Deployment) (ops : List DeploymentOp)
    (id : String) : Prop :=
  ∃ pre op post before row, ops = pre ++ op :: post ∧ run deploymentStep h pre = some before ∧
    before.store.sessions id = some row ∧ g id row op

/-- The session is still there after an operation that ends in `out`. -/
def KeepsRow (id : String) (s : SessionStore) (out : SessionStore × Reply) : Prop :=
  s.sessions id ≠ none → out.1.sessions id ≠ none

section

variable {s : SessionStore} {id : String}

theorem keeps_row_fail (code : SessionError) : KeepsRow id s (s.fail code) := fun h => h

variable {target : String}

theorem put_ne_none {session : Option Session}
    (h : target = id → session ≠ none) (hrow : s.sessions id ≠ none) :
    (s.put target session).sessions id ≠ none := by
  by_cases heq : id = target
  · subst heq
    rw [put_self]
    exact h rfl
  · rwa [put_other heq]

theorem modifySession_ne_none {f : Session → Session}
    (hrow : s.sessions id ≠ none) : (s.modifySession target f).sessions id ≠ none := by
  refine put_ne_none ?_ hrow
  rintro rfl
  simpa using hrow

theorem keeps_row_reply {agentId runtimeAgentId : String} {now : Int} {r : RemoteSession} :
    KeepsRow id s (s.reply (s.storeRemote agentId runtimeAgentId now r)) := by
  cases hstored : s.storeRemote agentId runtimeAgentId now r with
  | none => exact keeps_row_fail _
  | some out =>
    obtain ⟨s', target, row⟩ := out
    obtain ⟨-, -, rfl⟩ := storeRemote_put hstored
    exact put_ne_none fun _ => Option.some_ne_none row

theorem keeps_row_storeAll (agentId runtimeAgentId : String) (now : Int)
    (rows : List RemoteSession) (hrow : s.sessions id ≠ none) :
    (storeAll agentId runtimeAgentId now s rows).1.sessions id ≠ none := by
  induction rows generalizing s with
  | nil => exact hrow
  | cons r rest ih =>
    cases hstored : s.storeRemote agentId runtimeAgentId now r with
    | none =>
      simp only [storeAll, hstored]
      exact hrow
    | some out =>
      obtain ⟨s', target, row⟩ := out
      obtain ⟨-, -, rfl⟩ := storeRemote_put hstored
      simp only [storeAll, hstored]
      exact ih (put_ne_none (fun _ => Option.some_ne_none row) hrow)

theorem keeps_row_perform {op : SessionOp}
    (hdelete : ∀ row, s.sessions id = some row → op ≠ .deleteSession row.agentId id)
    (hget : ∀ agentId r now, op ≠ .getSession agentId id r (.httpStatus 404) now) :
    KeepsRow id s (performSession s op) := by
  cases op with
  | createSession agentId r answer now =>
    refine withAgent_cases keeps_row_fail fun agent _ => ?_
    split
    · exact keeps_row_fail _
    · refine withAdaptor_cases keeps_row_fail fun _ => ?_
      split
      · exact keeps_row_reply
      · exact keeps_row_fail _
  | listSessions agentId r answer now =>
    refine withAdaptor_cases keeps_row_fail fun _ => ?_
    split
    · next runtimeAgentId rows _ =>
      intro hrow
      have hall := keeps_row_storeAll agentId runtimeAgentId now rows hrow
      split
      · next heq =>
        rw [heq] at hall
        exact hall
      · next heq =>
        rw [heq] at hall
        exact hall
    · exact keeps_row_fail _
  | getSession agentId target r answer now =>
    refine withAdaptor_cases keeps_row_fail fun _ => ?_
    split
    · exact keeps_row_reply
    · -- the runtime's 404: the row of this id is deleted
      refine put_ne_none ?_
      rintro rfl
      exact absurd rfl (hget agentId r now)
    · exact keeps_row_fail _
  | getSessionEvents agentId target r answer =>
    refine withAdaptor_cases keeps_row_fail fun _ => withOwned_cases keeps_row_fail fun _ _ _ => ?_
    split
    · exact fun hrow => hrow
    · exact keeps_row_fail _
  | updateSession agentId target title pinned now =>
    refine withOwned_cases keeps_row_fail fun _ _ _ => ?_
    split
    · exact keeps_row_fail _
    · exact put_ne_none fun _ => Option.some_ne_none _
  | abortSession agentId target r answer =>
    refine withOwned_cases keeps_row_fail fun _ _ _ => withAdaptor_cases keeps_row_fail fun _ => ?_
    split
    · exact modifySession_ne_none
    · exact modifySession_ne_none
  | deleteSession agentId target =>
    refine withAdaptor_cases keeps_row_fail fun _ => withOwned_cases keeps_row_fail ?_
    intro row hrow hagent
    refine put_ne_none ?_
    rintro rfl
    exact absurd (by rw [hagent]) (hdelete row hrow)
  | turn kind agentId target resumes writes =>
    refine withAgent_cases keeps_row_fail fun _ _ => withOwned_cases keeps_row_fail fun _ _ _ => ?_
    exact startTurn_cases keeps_row_fail modifySession_ne_none modifySession_ne_none
  | reconnectStream agentId target =>
    refine withAgent_cases keeps_row_fail fun _ _ => withOwned_cases keeps_row_fail fun _ _ _ => ?_
    exact fun hrow => hrow
  | question agentId target connected =>
    refine withAdaptor_cases keeps_row_fail fun _ => withOwned_cases keeps_row_fail fun _ _ _ => ?_
    split
    · exact keeps_row_fail _
    · split
      · exact fun hrow => hrow
      · exact keeps_row_fail _

end

variable {s : SessionStore} {id : String} {row : Session}

theorem deleteAgent_lost {agentId : String}
    (hrow : s.sessions id = some row) (hgone : (s.deleteAgent agentId).sessions id = none) :
    agentId = row.agentId := by
  by_contra hne
  have hkept : (s.deleteAgent agentId).sessions id = some row := by
    simp [deleteAgent, hrow, Ne.symm hne]
  rw [hkept] at hgone
  cases hgone

theorem deleteScheduledTask_lost {taskId : String} (hrow : s.sessions id = some row)
    (hgone : (s.deleteScheduledTask taskId).sessions id = none) :
    row.scheduledTaskId = some taskId := by
  by_contra hne
  simp [deleteScheduledTask, hrow, hne] at hgone

namespace Deployment

section

variable (h : Deployment) (agentId : String)
include h

theorem resume_sessions (agent : AgentRow)
    (restarts started : Bool) (restores : List (String × RemoteAnswer Unit)) :
    (h.resume agentId agent restarts started restores).store.sessions = h.store.sessions := by
  unfold resume
  dsimp only
  split_ifs <;> rfl

end

end Deployment

theorem deletes_of_lost {h h' : Deployment} {op : DeploymentOp}
    (hstep : deploymentStep h op = some h') (hrow : h.store.sessions id = some row)
    (hgone : h'.store.sessions id = none) : op.Deletes id row ∨ op.NotFound id := by
  have hpresent : h.store.sessions id ≠ none := by
    rw [hrow]
    exact Option.some_ne_none row
  have hkept : h'.store.sessions ≠ h.store.sessions := by
    intro heq
    rw [heq, hrow] at hgone
    cases hgone
  cases op with
  | session op held =>
    cases hstep
    by_contra hne
    rw [not_or] at hne
    refine keeps_row_perform ?_ ?_ hpresent hgone
    · rintro row' hrow' rfl
      rw [hrow] at hrow'
      cases hrow'
      exact hne.1 ⟨rfl, rfl⟩
    · rintro agentId r now rfl
      exact hne.2 rfl
  | createAgent agentId succeeds =>
    simp only [deploymentStep] at hstep
    split_ifs at hstep with hknown hsucceeds
    · cases hstep
      exact absurd rfl hkept
    · cases hstep
      -- a failed creation deletes the agent row, and the cascade its sessions
      have hgone' : ((h.setAgent agentId ⟨.creating, false⟩).store.deleteAgent agentId).sessions
          id = none := hgone
      exact .inl ⟨deleteAgent_lost hrow hgone', by simpa using hsucceeds⟩
  | pauseAgent agentId =>
    simp only [deploymentStep] at hstep
    split at hstep
    · cases hstep
      exact absurd rfl hkept
    · split_ifs at hstep <;> cases hstep <;> exact absurd rfl hkept
  | markError agentId | agentServerRestart agentId =>
    cases hstep
    exact absurd rfl hkept
  | resumeAgent agentId restarts started restores =>
    simp only [deploymentStep] at hstep
    split at hstep
    · cases hstep
      exact absurd rfl hkept
    · split_ifs at hstep
      · cases hstep
        exact absurd rfl hkept
      · cases hstep
        exact absurd (h.resume_sessions _ _ _ _ _) hkept
  | deleteAgent agentId outcome =>
    simp only [deploymentStep] at hstep
    split at hstep
    · cases hstep
      exact absurd rfl hkept
    · cases hstep
      exact absurd rfl hkept
    · cases hstep
      exact absurd rfl hkept
    · cases hstep
      exact .inl ⟨deleteAgent_lost hrow hgone, rfl⟩
  | markSessionScheduled target taskId taskExists =>
    simp only [deploymentStep] at hstep
    split_ifs at hstep
    · cases hstep
      exact absurd hgone (modifySession_ne_none hpresent)
    · cases hstep
      exact absurd rfl hkept
  | deleteTask taskId inFlight =>
    simp only [deploymentStep] at hstep
    split_ifs at hstep with hflight
    · cases hstep
      exact absurd rfl hkept
    · cases hstep
      exact .inl ⟨deleteScheduledTask_lost hrow hgone, by simpa using hflight⟩

def restartedDeployment : Deployment where
  store := {
    agents := fun id => if id = "a" then some ⟨.running, true⟩ else none
    sessions := fun id => if id = "s" then
      some ⟨"a", none, none, none, none, .idle, none, false, none, 0, 0, [], [], []⟩ else none }
  held := fun _ => ["s"]

def forgottenSession : List DeploymentOp :=
  [.agentServerRestart "a", .resumeAgent "a" true true [("s", .httpStatus 500)],
    .session (.getSession "a" "s" ⟨some "main", .failed⟩ (.httpStatus 404) 1) []]

theorem forgottenSession_truthful :
    Guarded deploymentStep Truthful restartedDeployment forgottenSession := by
  refine fun _ heq => ⟨trivial, ?_⟩
  cases heq
  refine fun _ heq => ⟨trivial, ?_⟩
  cases heq
  refine fun _ _ => ⟨?_, trivial⟩
  show "s" ∉ ([] : List String)
  exact List.not_mem_nil

end WittyService
