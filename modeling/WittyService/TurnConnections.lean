import WittyService.SocketTracking

/-! The connections of the turns of one session, over whole runs. -/
namespace WittyService

/-- Some turn is the only one that may be in progress. -/
def Tracked (s : SessionSockets) : Prop := ∃ t, TrackedAt s t

section Steps

variable {s s' : SessionSockets} {a : SocketAction} {t : Nat}

theorem TrackedAt.turn_eq (h : TrackedAt s t) {u : Nat} {p : SocketPhase} (hu : s.turns u = p)
    (hp : p.InProgress) : u = t := by
  by_contra hne
  exact h.others u hne (hu ▸ hp)

theorem tracked_step (h : Tracked s) (hseq : Sequential s a) (hs : socketStep s a = some s') :
    Tracked s' := by
  obtain ⟨t, h⟩ := h
  cases socket_move_of_step hs with
  -- a turn that starts is the one tracked from here on
  | @share u hidle hc =>
    have hu := (h.switch hseq.1 u).getClient.1
    exact ⟨u, hu.reusing (by simpa using hidle) hc⟩
  | @prepare u hidle hc =>
    obtain ⟨hu, hpool⟩ := (h.switch hseq.1 u).getClient
    exact ⟨u, hu.connecting (by simpa using hidle) hpool hc (by simpa using hseq.2)⟩
  -- a turn in progress is the tracked turn: turns are sequential
  | connected hturn =>
    obtain rfl := h.turn_eq hturn ⟨nofun, nofun⟩
    exact ⟨_, h.connect hturn⟩
  | connectFails hturn =>
    obtain rfl := h.turn_eq hturn ⟨nofun, nofun⟩
    exact ⟨_, h.givesUp (.inl hturn)⟩
  | sent hturn =>
    obtain rfl := h.turn_eq hturn ⟨nofun, nofun⟩
    exact ⟨_, h.sent hturn⟩
  | sendFails hturn hopen =>
    obtain rfl := h.turn_eq hturn ⟨nofun, nofun⟩
    exact ⟨_, h.givesUp (.inr ⟨_, hturn, hopen⟩)⟩
  | @recv u cl c c' hturn hws =>
    obtain rfl := h.turn_eq hturn ⟨nofun, nofun⟩
    have hheld : (s.turns u).held = some (cl, c) := by rw [hturn]; rfl
    have htold := h.told cl c hheld
    rcases h.uses cl c hheld with hws' | ⟨hws', -⟩ <;> rw [hws] at hws' <;> cases hws'
    exact ⟨u, h.proceeds hheld rfl rfl (by simp [hturn]) (htold.trans (by rw [hturn]; rfl))⟩
  | @recvFails u cl c hturn =>
    obtain rfl := h.turn_eq hturn ⟨nofun, nofun⟩
    have hheld : (s.turns u).held = some (cl, c) := by rw [hturn]; rfl
    exact ⟨u, h.closeWsMessageClient hheld ((h.told cl c hheld).trans (by rw [hturn]; rfl))⟩
  | frame hturn =>
    obtain rfl := h.turn_eq hturn ⟨nofun, nofun⟩
    exact ⟨_, h.frame hturn⟩
  | @finish u cl c hturn connected hc lost =>
    obtain rfl := h.turn_eq hturn ⟨nofun, nofun⟩
    have hheld : (s.turns u).held = some (cl, c) := by rw [hturn]; rfl
    have htold : s.senders c = [u] := (h.told cl c hheld).trans (by rw [hturn]; rfl)
    exact ⟨u, (h.setConnected hc).closeWsMessageClient hheld htold⟩
  | @closed u cl c hturn =>
    obtain rfl := h.turn_eq hturn ⟨nofun, nofun⟩
    have hheld : (s.turns u).held = some (cl, c) := by rw [hturn]; rfl
    have hput := h.disconnected (fun _ => hheld) (h.not_connected_of_closing hturn)
    exact ⟨u, hput.ended hheld (Function.update_self ..)
      (hput.not_connected_of_closing hturn)⟩
  | abortNothing hfree hc => exact ⟨t, h.getClient.1⟩
  | abort hfree hc => exact ⟨t, h.getClient.1.abort _ hc⟩
  | abortRemoves hfree hc =>
    obtain ⟨-, -, c, hws, -⟩ := h.getClient.1.connected _ (by rw [hc])
    rw [hc] at hws
    cases hws
  | abortClosed ha =>
    have hput := h.disconnected (h.aborting _ _ _ ha) (h.not_connected_of_abort ha)
    exact ⟨t, hput.abortEnds ha (Function.update_self ..)⟩
  | peerCloses => exact ⟨t, h.setConn_closed _⟩

theorem turns_apart_of_tracked (h : Tracked s) : TurnsApart s := by
  obtain ⟨t, h⟩ := h
  refine ⟨h.taken, fun hturns haborts c => ?_⟩
  cases hc : s.conns c with
  | opened =>
    obtain ⟨cl, hcl⟩ := h.opened c hc
    exact absurd (SocketPhase.inProgress_of_held hcl) (hturns t)
  | closing =>
    rcases h.closing c hc with ⟨cl, hturn⟩ | ⟨a, cl, ha⟩
    · exact absurd (by rw [hturn]; exact ⟨nofun, nofun⟩) (hturns t)
    · rw [haborts a] at ha
      cases ha
  | closed => rfl

theorem spares_idle {u : Nat} (hu : ¬ (s.turns u).InProgress) :
    (∀ cl c, (s.turns u).held = some (cl, c) → s'.conns c = .closed → s.conns c = .closed) ∧
    (∀ cl, (s.turns u).client = some cl → s.pool = some cl → s'.pool = some cl) :=
  ⟨fun _ _ hheld => absurd (SocketPhase.inProgress_of_held hheld) hu,
    fun _ hcl => absurd (SocketPhase.inProgress_of_client hcl) hu⟩

theorem spares_step (h : Tracked s) (hseq : Sequential s a) : SparesOthers s a := by
  obtain ⟨t, h⟩ := h
  intro s' hs u hu
  by_cases hprogress : (s.turns u).InProgress
  case neg => exact spares_idle hprogress
  obtain rfl : u = t := h.turn_eq rfl hprogress
  cases socket_move_of_step hs with
  | share | prepare => exact absurd hprogress (hseq.1 u)
  | connected hturn | connectFails hturn | sent hturn | sendFails hturn | recv hturn
    | recvFails hturn | frame hturn | finish hturn | closed hturn =>
    exact absurd (h.turn_eq hturn ⟨nofun, nofun⟩).symm hu
  | abortNothing hfree hc =>
    refine ⟨fun cl c _ hclosed => by simpa using hclosed, fun cl _ hpool => ?_⟩
    exact SessionSockets.getClient_pool hpool
  | @abort a c hfree hc =>
    refine ⟨fun cl c' _ hclosed => ?_, fun cl _ hpool => ?_⟩
    · simp only [SessionSockets.setAbort] at hclosed
      rcases s.getClient.1.disconnect_conns s.getClient.2 c c' with ⟨hsame, -⟩ | ⟨-, -, hclosing⟩
      · rw [hsame] at hclosed
        simpa using hclosed
      · rw [hclosing] at hclosed
        cases hclosed
    · simpa [SessionSockets.setAbort] using SessionSockets.getClient_pool hpool
  | abortRemoves hfree hc =>
    obtain ⟨-, -, c, hws, -⟩ := h.getClient.1.connected _ (by rw [hc])
    rw [hc] at hws
    cases hws
  | abortClosed ha => exact absurd ((h.aborting _ _ _ ha hprogress).trans ha.symm) hu
  | @peerCloses c =>
    refine ⟨fun cl c' hheld hclosed => ?_, fun cl _ hpool => hpool⟩
    have hne : c' ≠ c := by
      rintro rfl
      exact hu ⟨cl, hheld⟩
    simpa [SessionSockets.setConn, Function.update_of_ne hne] using hclosed

end Steps

theorem spares_run {s : SessionSockets} {as : List SocketAction} (h : Tracked s)
    (hseq : GuardedRuns.Guarded socketStep Sequential s as) :
    GuardedRuns.Guarded socketStep SparesOthers s as := by
  induction as generalizing s with
  | nil => trivial
  | cons a as ih =>
    intro s' hs
    obtain ⟨hfirst, hrest⟩ := hseq s' hs
    exact ⟨spares_step h hfirst, ih (tracked_step h hfirst hs) hrest⟩

def oneTurn : List SocketAction :=
  [.prepare 0, .connected 0, .sent 0, .recv 0, .frame 0, .finish 0 false, .closed 0]

def sharedConnection : List SocketAction :=
  [.prepare 0, .connected 0, .sent 0, .recv 0, .prepare 1, .sent 1, .frame 0]

end WittyService
