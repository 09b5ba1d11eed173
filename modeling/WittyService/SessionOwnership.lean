import Mathlib.Data.List.TakeWhile
import WittyService.GuardedRuns
import WittyService.SessionOperations

/-! Operations called with one agent against the sessions of another. -/
namespace WittyService

open SessionStore GuardedRuns

/-- An operation that ends in `out` neither returned, changed nor deleted a session of an
agent other than `agentId`. -/
def LeavesOthers (agentId : String) (s : SessionStore) (out : SessionStore × Reply) : Prop :=
  ∀ id row, s.sessions id = some row → row.agentId ≠ agentId →
    out.1.sessions id = some row ∧ id ∉ out.2.sessionIds

def SessionOp.answered (s : SessionStore) : SessionOp → Prop
  | .createSession agentId r _ _ =>
    (∃ agent, s.agents agentId = some agent ∧ agent.status = .running ∧
      agent.hasSandboxState = true) ∧ r.resolveRuntimeAgentId.isSome
  | .listSessions agentId r _ _ =>
    (∃ agent, s.agents agentId = some agent ∧ agent.hasSandboxState = true) ∧
      r.resolveRuntimeAgentId.isSome
  | .getSession agentId id r _ _ =>
    (∃ agent, s.agents agentId = some agent ∧ agent.hasSandboxState = true) ∧
      (resolved (s.sessions id) r).isSome
  | _ => True

/-- The sessions an answer reaches without a check of their owner: the ids it gives, and
the session asked for when it is a 404. -/
def SessionOp.reached : SessionOp → List String
  | .createSession _ _ (.ok session) _ | .getSession _ _ _ (.ok session) _ =>
    if session.accepted then session.id.toList else []
  | .listSessions _ _ (.ok rows) _ =>
    (rows.takeWhile RemoteSession.accepted).filterMap RemoteSession.id
  | .getSession _ id _ (.httpStatus 404) _ => [id]
  | _ => []

/-- No session that an answer reaches belongs to another agent. -/
def ReachesOwn (s : SessionStore) (op : SessionOp) : Prop :=
  op.answered s → ∀ id ∈ op.reached, ∀ row, s.sessions id = some row → row.agentId = op.agent

def SessionOp.complete : SessionOp → Prop
  | .listSessions _ _ (.ok rows) _ => ∀ r ∈ rows, r.accepted = true
  | _ => True

def sessionStep (s : SessionStore) (op : SessionOp) : Option SessionStore :=
  some (performSession s op).1

section

variable {s : SessionStore} {agentId : String}

theorem leaves_others_fail (code : SessionError) : LeavesOthers agentId s (s.fail code) :=
  fun _ _ hrow _ => ⟨hrow, List.not_mem_nil⟩

variable {id : String} {rows : List RemoteSession}

theorem leaves_others_of_own {out : SessionStore × Reply}
    (hown : ∀ row, s.sessions id = some row → row.agentId = agentId)
    (hsame : ∀ other, other ≠ id → out.1.sessions other = s.sessions other)
    (hshown : ∀ other ∈ out.2.sessionIds, other = id) : LeavesOthers agentId s out := by
  intro other row hrow hne
  have hother : other ≠ id := by
    rintro rfl
    exact hne (hown row hrow)
  exact ⟨(hsame other hother).trans hrow, fun hmem => hother (hshown other hmem)⟩

theorem leaves_others_reply {runtimeAgentId : String} {now : Int} {r : RemoteSession}
    (hown : ∀ id ∈ (if r.accepted then r.id.toList else []), ∀ row, s.sessions id = some row →
      row.agentId = agentId) :
    LeavesOthers agentId s (s.reply (s.storeRemote agentId runtimeAgentId now r)) := by
  cases hstored : s.storeRemote agentId runtimeAgentId now r with
  | none => exact leaves_others_fail _
  | some out =>
    obtain ⟨s', id, row⟩ := out
    obtain ⟨hid, haccepted, rfl⟩ := storeRemote_put hstored
    refine leaves_others_of_own (hown id (by simp [hid, haccepted])) ?_ ?_
    · exact fun other hother => put_other hother _
    · exact fun other hmem => List.mem_singleton.mp hmem

/-- The loop over a list of answers touches only the sessions the answers name, up to the
first row that is not taken. -/
theorem storeAll_others (agentId runtimeAgentId : String) (now : Int) {other : String}
    (hother : other ∉ (rows.takeWhile RemoteSession.accepted).filterMap RemoteSession.id) :
    (storeAll agentId runtimeAgentId now s rows).1.sessions other = s.sessions other ∧
      ∀ shown, (storeAll agentId runtimeAgentId now s rows).2 = some shown →
        other ∉ shown.map Prod.fst := by
  induction rows generalizing s with
  | nil =>
    simp only [storeAll, true_and]
    intro shown hshown
    cases hshown
    exact List.not_mem_nil
  | cons r rest ih =>
    cases hstored : s.storeRemote agentId runtimeAgentId now r with
    | none =>
      simp only [storeAll, hstored, true_and]
      intro shown hshown
      cases hshown
    | some out =>
      obtain ⟨s', id, row⟩ := out
      obtain ⟨hid, haccepted, rfl⟩ := storeRemote_put hstored
      rw [List.takeWhile_cons_of_pos haccepted, List.filterMap_cons_some hid, List.mem_cons,
        not_or] at hother
      obtain ⟨hsame, hshown⟩ := ih (s := s.put id (some row)) hother.2
      simp only [storeAll, hstored]
      refine ⟨hsame.trans (put_other hother.1 _), fun shown heq => ?_⟩
      obtain ⟨later, hlater, rfl⟩ := Option.map_eq_some_iff.mp heq
      rw [List.map_cons, List.mem_cons, not_or]
      exact ⟨hother.1, hshown later hlater⟩

theorem storeAll_shown (runtimeAgentId : String) (now : Int)
    (hrows : ∀ r ∈ rows, r.accepted = true) {agent : AgentRow}
    (hagent : s.agents agentId = some agent) :
    ∃ shown, (storeAll agentId runtimeAgentId now s rows).2 = some shown ∧
      shown.map Prod.fst = rows.filterMap RemoteSession.id := by
  induction rows generalizing s with
  | nil => exact ⟨[], rfl, rfl⟩
  | cons r rest ih =>
    obtain ⟨id, row, hid, hstored⟩ := storeRemote_accepted runtimeAgentId now
      (hrows r List.mem_cons_self) hagent
    obtain ⟨shown, hshown, hids⟩ := ih (s := s.put id (some row))
      (fun r' hr' => hrows r' (List.mem_cons_of_mem r hr')) hagent
    refine ⟨(id, row) :: shown, ?_, ?_⟩
    · simp [storeAll, hstored, hshown]
    · rw [List.map_cons, hids, List.filterMap_cons_some hid]

theorem leaves_others_modify {f : Session → Session} {reply : Reply}
    (hown : ∀ row, s.sessions id = some row → row.agentId = agentId)
    (hshown : ∀ other ∈ reply.sessionIds, other = id) :
    LeavesOthers agentId s (s.modifySession id f, reply) :=
  leaves_others_of_own hown (fun _ hother => put_other hother _) hshown

end

section

variable {s : SessionStore}

variable {agentId id runtimeAgentId : String} {op : SessionOp} {now : Int} {agent : AgentRow}

theorem owned_row {row : Session}
    (hrow : s.sessions id = some row) (hagent : row.agentId = agentId) :
    ∀ row', s.sessions id = some row' → row'.agentId = agentId := by
  intro row' hrow'
  rw [hrow] at hrow'
  exact Option.some.inj hrow' ▸ hagent

theorem leaves_others_perform (h : ReachesOwn s op) :
    LeavesOthers op.agent s (performSession s op) := by
  cases op with
  | createSession agentId r answer now =>
    refine withAgent_cases leaves_others_fail fun agent hagent => ?_
    split
    · exact leaves_others_fail _
    · next hrunning =>
      refine withAdaptor_cases leaves_others_fail fun hready => ?_
      split
      · next runtimeAgentId session hresolved =>
        obtain ⟨agent', hagent', hsandbox⟩ := hready
        rw [hagent] at hagent'
        cases hagent'
        exact leaves_others_reply (h ⟨⟨agent, hagent, not_not.mp hrunning, hsandbox⟩,
          by rw [hresolved]; rfl⟩)
      · exact leaves_others_fail _
  | listSessions agentId r answer now =>
    refine withAdaptor_cases leaves_others_fail fun hready => ?_
    split
    · next runtimeAgentId rows hresolved =>
      have hreached : ∀ other row, s.sessions other = some row → row.agentId ≠ agentId →
          other ∉ (rows.takeWhile RemoteSession.accepted).filterMap RemoteSession.id := by
        intro other row hrow hne hmem
        exact hne (h ⟨hready, by rw [hresolved]; rfl⟩ other hmem row hrow)
      split
      · next s' shown heq =>
        intro other row hrow hne
        obtain ⟨hsame, hshown⟩ := storeAll_others agentId runtimeAgentId now
          (hreached other row hrow hne)
        rw [heq] at hsame hshown
        exact ⟨hsame.trans hrow, hshown shown rfl⟩
      · next s' heq =>
        intro other row hrow hne
        obtain ⟨hsame, -⟩ := storeAll_others agentId runtimeAgentId now
          (hreached other row hrow hne)
        rw [heq] at hsame
        exact ⟨hsame.trans hrow, List.not_mem_nil⟩
    · exact leaves_others_fail _
  | getSession agentId id r answer now =>
    refine withAdaptor_cases leaves_others_fail fun hready => ?_
    split
    · next runtimeAgentId session hresolved =>
      exact leaves_others_reply (h ⟨hready, by rw [hresolved]; rfl⟩)
    · next runtimeAgentId hresolved =>
      have hown := h ⟨hready, by rw [hresolved]; rfl⟩ id (by simp [SessionOp.reached])
      refine leaves_others_of_own hown ?_ ?_
      · exact fun other hother => put_other hother _
      · exact fun other hmem => absurd hmem List.not_mem_nil
    · exact leaves_others_fail _
  | getSessionEvents agentId id r answer =>
    refine withAdaptor_cases leaves_others_fail fun _ =>
      withOwned_cases leaves_others_fail fun row hrow hagent => ?_
    split
    · exact leaves_others_of_own (owned_row hrow hagent) (fun _ _ => rfl)
        fun other hmem => List.mem_singleton.mp hmem
    · exact leaves_others_fail _
  | updateSession agentId id title pinned now =>
    refine withOwned_cases leaves_others_fail fun row hrow hagent => ?_
    split
    · exact leaves_others_fail _
    · exact leaves_others_of_own (owned_row hrow hagent) (fun _ hother => put_other hother _)
        fun other hmem => List.mem_singleton.mp hmem
  | abortSession agentId id r answer =>
    refine withOwned_cases leaves_others_fail fun row hrow hagent =>
      withAdaptor_cases leaves_others_fail fun _ => ?_
    -- the message is interrupted whether or not the remote abort succeeds
    have hown := owned_row hrow hagent
    have hnone : ∀ other, other ∉ ([] : List String) := fun _ => List.not_mem_nil
    split
    · exact leaves_others_modify hown fun other hmem => absurd hmem (hnone other)
    · exact leaves_others_modify hown fun other hmem => absurd hmem (hnone other)
  | deleteSession agentId id =>
    refine withAdaptor_cases leaves_others_fail fun _ =>
      withOwned_cases leaves_others_fail fun row hrow hagent => ?_
    exact leaves_others_of_own (owned_row hrow hagent) (fun _ hother => put_other hother _)
      fun other hmem => absurd hmem List.not_mem_nil
  | turn kind agentId id resumes writes =>
    refine withAgent_cases leaves_others_fail fun agent _ =>
      withOwned_cases leaves_others_fail fun row hrow hagent => ?_
    have hown := owned_row hrow hagent
    have hshown : ∀ other ∈ (Reply.stream id).sessionIds, other = id :=
      fun other hmem => List.mem_singleton.mp hmem
    refine startTurn_cases leaves_others_fail (leaves_others_modify hown hshown) ?_
    exact leaves_others_of_own hown (fun _ hother => put_other hother _) hshown
  | reconnectStream agentId id =>
    refine withAgent_cases leaves_others_fail fun agent _ =>
      withOwned_cases leaves_others_fail fun row hrow hagent => ?_
    exact leaves_others_of_own (owned_row hrow hagent) (fun _ _ => rfl)
      fun other hmem => List.mem_singleton.mp hmem
  | question agentId id connected =>
    refine withAdaptor_cases leaves_others_fail fun _ =>
      withOwned_cases leaves_others_fail fun row hrow hagent => ?_
    split
    · exact leaves_others_fail _
    · split
      · exact leaves_others_of_own (owned_row hrow hagent) (fun _ _ => rfl)
          fun other hmem => absurd hmem List.not_mem_nil
      · exact leaves_others_fail _

theorem mem_reply {r : RemoteSession} (hagent : s.agents agentId = some agent)
    (hmem : id ∈ if r.accepted then r.id.toList else []) :
    id ∈ (s.reply (s.storeRemote agentId runtimeAgentId now r)).2.sessionIds := by
  split_ifs at hmem with haccepted
  · obtain ⟨id', row, hid, hstored⟩ := storeRemote_accepted (s := s) runtimeAgentId now
      haccepted hagent
    rw [hid] at hmem
    rw [hstored]
    exact hmem
  · exact absurd hmem List.not_mem_nil

theorem list_shows {r : Resolution} {rows : List RemoteSession}
    (hready : ∃ agent, s.agents agentId = some agent ∧ agent.hasSandboxState = true)
    (hagent : s.agents agentId = some agent)
    (hresolved : r.resolveRuntimeAgentId = some runtimeAgentId)
    (hrows : ∀ r ∈ rows, r.accepted = true) :
    (performSession s (.listSessions agentId r (.ok rows) now)).2.sessionIds =
      rows.filterMap RemoteSession.id := by
  obtain ⟨shown, hshown, hids⟩ := storeAll_shown (s := s) runtimeAgentId now hrows hagent
  simp only [performSession, withAdaptor_of_ready _ hready, hresolved]
  split
  · next s' shown' hall =>
    rw [hall] at hshown
    cases hshown
    exact hids
  · next s' hall =>
    rw [hall] at hshown
    cases hshown

theorem reached_shown (hanswered : op.answered s)
    (hcomplete : op.complete) (hmem : id ∈ op.reached) :
    id ∈ (performSession s op).2.sessionIds ∨ (performSession s op).1.sessions id = none := by
  cases op with
  | createSession agentId r answer now =>
    cases answer with
    | ok session =>
      obtain ⟨⟨agent, hagent, hrunning, hsandbox⟩, hresolved⟩ := hanswered
      obtain ⟨runtimeAgentId, hresolved⟩ := Option.isSome_iff_exists.mp hresolved
      have heq : performSession s (.createSession agentId r (.ok session) now) =
          s.reply (s.storeRemote agentId runtimeAgentId now session) := by
        simp [performSession, withAgent, hagent, hrunning, hresolved,
          withAdaptor_of_ready _ ⟨agent, hagent, hsandbox⟩]
      rw [heq]
      exact .inl (mem_reply hagent hmem)
    | httpStatus code | failed => exact absurd hmem List.not_mem_nil
  | listSessions agentId r answer now =>
    cases answer with
    | ok rows =>
      obtain ⟨⟨agent, hagent, hsandbox⟩, hresolved⟩ := hanswered
      have hready : ∃ agent, s.agents agentId = some agent ∧ agent.hasSandboxState = true :=
        ⟨agent, hagent, hsandbox⟩
      obtain ⟨runtimeAgentId, hresolved⟩ := Option.isSome_iff_exists.mp hresolved
      have htaken : rows.takeWhile RemoteSession.accepted = rows :=
        List.takeWhile_eq_self_iff.mpr hcomplete
      have hlisted : id ∈ rows.filterMap RemoteSession.id := by
        rw [← htaken]
        exact hmem
      exact .inl ((list_shows hready hagent hresolved hcomplete).symm ▸ hlisted)
    | httpStatus code | failed => exact absurd hmem List.not_mem_nil
  | getSession agentId asked r answer now =>
    obtain ⟨⟨agent, hagent, hsandbox⟩, hresolved⟩ := hanswered
    have hready : ∃ agent, s.agents agentId = some agent ∧ agent.hasSandboxState = true :=
      ⟨agent, hagent, hsandbox⟩
    obtain ⟨runtimeAgentId, hresolved⟩ := Option.isSome_iff_exists.mp hresolved
    cases answer with
    | ok session =>
      have heq : performSession s (.getSession agentId asked r (.ok session) now) =
          s.reply (s.storeRemote agentId runtimeAgentId now session) := by
        simp [performSession, withAdaptor_of_ready _ hready, hresolved]
      rw [heq]
      exact .inl (mem_reply hagent hmem)
    | httpStatus code =>
      by_cases hcode : code = 404
      · subst hcode
        have heq : performSession s (.getSession agentId asked r (.httpStatus 404) now) =
            (s.deleteSession asked).fail .sessionNotFound := by
          simp [performSession, withAdaptor_of_ready _ hready, hresolved]
        have hasked : id = asked := List.mem_singleton.mp hmem
        rw [heq, hasked]
        exact .inr (put_self asked none)
      · simp [SessionOp.reached, hcode] at hmem
    | failed => exact absurd hmem List.not_mem_nil
  | _ => exact absurd hmem List.not_mem_nil

theorem reaches_own_of_leaves (hcomplete : op.complete)
    (h : LeavesOthers op.agent s (performSession s op)) : ReachesOwn s op := by
  intro hanswered id hmem row hrow
  by_contra hne
  obtain ⟨hsame, hhidden⟩ := h id row hrow hne
  obtain hshown | hgone := reached_shown hanswered hcomplete hmem
  · exact hhidden hshown
  · rw [hsame] at hgone
    cases hgone

end

/-- Operations of one agent leave the sessions of the others alone as long as no answer
reaches one of them, and where every list is taken whole, only then. -/
theorem sessions_stay_with_agent (s : SessionStore) (ops : List SessionOp) :
    (Guarded sessionStep ReachesOwn s ops →
      Guarded sessionStep (fun s op => LeavesOthers op.agent s (performSession s op)) s ops) ∧
    ((∀ op ∈ ops, op.complete) →
      Guarded sessionStep (fun s op => LeavesOthers op.agent s (performSession s op)) s ops →
      Guarded sessionStep ReachesOwn s ops) :=
  ⟨guarded_mono fun _ _ _ h => leaves_others_perform h,
    fun hcomplete => guarded_mono fun _ op hop h => reaches_own_of_leaves (hcomplete op hop) h⟩

def twoAgents : SessionStore where
  agents := fun id => if id = "a" ∨ id = "b" then some ⟨.running, true⟩ else none
  sessions := fun id =>
    if id = "s" then some ⟨"b", none, none, none, none, .idle, none, false, none, 0, 0, [], [], []⟩
    else none

def foreignGet : SessionOp :=
  .getSession "a" "s" ⟨some "main", .failed⟩ (.httpStatus 404) 1

theorem foreign_get_deletes_session :
    ¬ ∀ s ops, Guarded sessionStep
      (fun s op => LeavesOthers op.agent s (performSession s op)) s ops := by
  intro h
  obtain ⟨hstep, -⟩ := h twoAgents [foreignGet] _ rfl
  obtain ⟨hsame, -⟩ := hstep "s" _ rfl (by decide)
  have hgone : (performSession twoAgents foreignGet).1.sessions "s" = none := put_self "s" none
  rw [hsame] at hgone
  cases hgone

end WittyService
