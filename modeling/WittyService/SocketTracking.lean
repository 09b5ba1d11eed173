import WittyService.GuardedRuns
import WittyService.WebSocketPool

/-! What the turns of one session do to each other's connections. Nothing keeps a second turn from
starting while another one uses the client the pool hands out, and then the two share a connection.
-/
namespace WittyService

/-- Every frame went to the one turn whose message was sent on its connection, and no
connection is left when nothing is in progress. -/
structure TurnsApart (s : SessionSockets) : Prop where
  frames : ∀ c t, (c, t) ∈ s.consumed → s.senders c = [t]
  left : (∀ t, ¬ (s.turns t).InProgress) → (∀ a, s.aborts a = none) →
    ∀ c, s.conns c = .closed

/-- The turns an action may end: its own, for an abort those on the connection it closes, and
all of them where the peer closes it. -/
def SocketAction.Ends (s : SessionSockets) : SocketAction → Nat → Prop
  | .prepare t, u | .connected t, u | .connectFails t, u | .sent t, u | .sendFails t, u
  | .recv t, u | .frame t, u | .finish t _, u | .closed t, u => u = t
  | .abort _, _ => False
  | .abortClosed a, u => (s.turns u).held = s.aborts a
  | .peerCloses c, u => ∃ cl, (s.turns u).held = some (cl, c)

/-- The step closes no connection and unregisters no client of any other turn. -/
def SparesOthers (s : SessionSockets) (a : SocketAction) : Prop :=
  ∀ s', socketStep s a = some s' → ∀ u, ¬ a.Ends s u →
    (∀ cl c, (s.turns u).held = some (cl, c) → s'.conns c = .closed → s.conns c = .closed) ∧
    (∀ cl, (s.turns u).client = some cl → s.pool = some cl → s'.pool = some cl)

/-- A turn starts only when no turn of the session is in progress and no abort is waiting for
a connection to close. -/
def Sequential (s : SessionSockets) : SocketAction → Prop
  | .prepare _ => (∀ t, ¬ (s.turns t).InProgress) ∧ ∀ a, s.aborts a = none
  | _ => True

namespace SocketPhase

/-- What the connection of turn `t` has been sent so far. -/
def told (t : Nat) : SocketPhase → List Nat
  | .prepared _ _ | .receiving _ _ | .closing _ _ => [t]
  | _ => []

variable {p : SocketPhase} {cl c : Nat}

theorem client_of_held (h : p.held = some (cl, c)) : p.client = some cl := by
  cases p <;> simp_all [held, client]

theorem inProgress_of_client (h : p.client = some cl) : p.InProgress := by
  cases p <;> simp_all [client, InProgress]

theorem inProgress_of_held (h : p.held = some (cl, c)) : p.InProgress :=
  inProgress_of_client (client_of_held h)

theorem inProgress_of_reads (h : p.reads) : p.InProgress := by
  cases p <;> simp_all [reads, InProgress]

end SocketPhase

/-- `t` is the only turn that may be in progress, and every connection that is not closed is
its own or is being closed by an abort. A client may stay registered and connected after its
turn: its connection was closed under it before anything was sent. -/
structure TrackedAt (s : SessionSockets) (t : Nat) : Prop where
  others : ∀ u, u ≠ t → ¬ (s.turns u).InProgress
  pooled : ∀ cl, s.pool = some cl → cl < s.clientCount
  known : ∀ cl, (s.turns t).client = some cl → cl < s.clientCount
  given : ∀ cl c, (s.turns t).held = some (cl, c) → c < s.connCount
  unsent : ∀ c, s.connCount ≤ c → s.senders c = []
  told : ∀ cl c, (s.turns t).held = some (cl, c) → s.senders c = (s.turns t).told t
  taken : ∀ c u, (c, u) ∈ s.consumed → s.senders c = [u]
  opened : ∀ c, s.conns c = .opened → ∃ cl, (s.turns t).held = some (cl, c)
  closing : ∀ c, s.conns c = .closing →
    (∃ cl, s.turns t = .closing cl c) ∨ ∃ a cl, s.aborts a = some (cl, c)
  uses : ∀ cl c, (s.turns t).held = some (cl, c) →
    (s.clients cl).ws = some c ∨ (s.clients cl).ws = none ∧ s.conns c = .closed
  waiting : ∀ cl, s.turns t = .connecting cl → s.pool = some cl
  connected : ∀ cl, (s.clients cl).connected → s.pool = some cl ∧ (∀ a, s.aborts a = none) ∧
    ∃ c, (s.clients cl).ws = some c ∧
      ((s.turns t).reads ∧ (s.turns t).held = some (cl, c) ∨
        ¬ (s.turns t).InProgress ∧ c < s.connCount ∧ s.conns c = .closed ∧ s.senders c = [])
  aborting : ∀ a cl c, s.aborts a = some (cl, c) → (s.turns t).InProgress →
    (s.turns t).held = some (cl, c)

theorem tracked_new (t : Nat) : TrackedAt .new t := by
  constructor <;> simp [SessionSockets.new, SocketPhase.InProgress, SocketPhase.client,
    SocketPhase.held, WebSocketClient.new]

section Moves

variable {s : SessionSockets} {t u cl c : Nat}

theorem TrackedAt.switch (h : TrackedAt s t) (hs : ∀ v, ¬ (s.turns v).InProgress) (u : Nat) :
    TrackedAt s u := by
  have hheld : ∀ v cl c, (s.turns v).held ≠ some (cl, c) :=
    fun v cl c hv => hs v (SocketPhase.inProgress_of_held hv)
  constructor
  · exact fun v _ => hs v
  · exact h.pooled
  · exact fun cl hcl => absurd (SocketPhase.inProgress_of_client hcl) (hs u)
  · exact fun cl c hc => absurd hc (hheld u cl c)
  · exact h.unsent
  · exact fun cl c hc => absurd hc (hheld u cl c)
  · exact h.taken
  · intro c hc
    obtain ⟨cl, hcl⟩ := h.opened c hc
    exact absurd hcl (hheld t cl c)
  · intro c hc
    rcases h.closing c hc with ⟨cl, hcl⟩ | habort
    · exact absurd (by rw [hcl]; rfl) (hheld t cl c)
    · exact .inr habort
  · exact fun cl c hc => absurd hc (hheld u cl c)
  · exact fun cl hcl => absurd (SocketPhase.inProgress_of_client (by rw [hcl]; rfl)) (hs u)
  · intro cl hcl
    obtain ⟨hpool, haborts, c, hws, hreads | hdead⟩ := h.connected cl hcl
    · exact absurd (SocketPhase.inProgress_of_reads hreads.1) (hs t)
    · exact ⟨hpool, haborts, c, hws, .inr ⟨hs u, hdead.2⟩⟩
  · exact fun a cl c _ hu => absurd hu (hs u)

theorem TrackedAt.getClient (h : TrackedAt s t) :
    TrackedAt s.getClient.1 t ∧ s.getClient.1.pool = some s.getClient.2 := by
  unfold SessionSockets.getClient
  cases hpool : s.pool with
  | some cl => exact ⟨h, hpool⟩
  | none =>
    have hconnected : ∀ cl, ¬ (s.clients cl).connected := by
      intro cl hcl
      have hcl' := (h.connected cl hcl).1
      rw [hpool] at hcl'
      cases hcl'
    refine ⟨?_, rfl⟩
    constructor
    · exact h.others
    · rintro cl hcl
      cases hcl
      exact Nat.lt_succ_self _
    · exact fun cl hcl => Nat.lt_succ_of_lt (h.known cl hcl)
    · exact h.given
    · exact h.unsent
    · exact h.told
    · exact h.taken
    · exact h.opened
    · exact h.closing
    · intro cl c hc
      have hlt := h.known cl (SocketPhase.client_of_held hc)
      have hne : cl ≠ s.clientCount := by omega
      simp only [SessionSockets.setClient, Function.update_of_ne hne]
      exact h.uses cl c hc
    · intro cl hcl
      have hcl' := h.waiting cl hcl
      rw [hpool] at hcl'
      cases hcl'
    · intro cl hcl
      by_cases hnew : cl = s.clientCount
      · subst hnew
        simp [SessionSockets.setClient, WebSocketClient.new] at hcl
      · simp only [SessionSockets.setClient, Function.update_of_ne hnew] at hcl
        exact absurd hcl (hconnected cl)
    · exact h.aborting

variable {p : SocketPhase}

theorem TrackedAt.setTurn (h : TrackedAt s t)
    (known : ∀ cl, p.client = some cl → cl < s.clientCount)
    (given : ∀ cl c, p.held = some (cl, c) → c < s.connCount)
    (told : ∀ cl c, p.held = some (cl, c) → s.senders c = p.told t)
    (opened : ∀ c, s.conns c = .opened → ∃ cl, p.held = some (cl, c))
    (closing : ∀ c, s.conns c = .closing →
      (∃ cl, p = .closing cl c) ∨ ∃ a cl, s.aborts a = some (cl, c))
    (uses : ∀ cl c, p.held = some (cl, c) →
      (s.clients cl).ws = some c ∨ (s.clients cl).ws = none ∧ s.conns c = .closed)
    (waiting : ∀ cl, p = .connecting cl → s.pool = some cl)
    (connected : ∀ cl, (s.clients cl).connected → s.pool = some cl ∧ (∀ a, s.aborts a = none) ∧
      ∃ c, (s.clients cl).ws = some c ∧ (p.reads ∧ p.held = some (cl, c) ∨
        ¬ p.InProgress ∧ c < s.connCount ∧ s.conns c = .closed ∧ s.senders c = []))
    (aborting : ∀ a cl c, s.aborts a = some (cl, c) → p.InProgress → p.held = some (cl, c)) :
    TrackedAt (s.setTurn t p) t := by
  have hself : (s.setTurn t p).turns t = p := Function.update_self ..
  constructor <;> try rw [hself]
  · intro u hu
    simp only [SessionSockets.setTurn, Function.update_of_ne hu]
    exact h.others u hu
  · exact h.pooled
  · exact known
  · exact given
  · exact h.unsent
  · exact told
  · exact h.taken
  · exact opened
  · exact closing
  · exact uses
  · exact waiting
  · exact connected
  · exact aborting

section

variable (h : TrackedAt s t)
include h

theorem TrackedAt.connecting (hidle : s.turns t = .idle)
    (hpool : s.pool = some cl) (hcl : (s.clients cl).connected = false)
    (haborts : ∀ a, s.aborts a = none) : TrackedAt (s.setTurn t (.connecting cl)) t := by
  apply h.setTurn
  · rintro _ ⟨⟩
    exact h.pooled cl hpool
  · rintro _ _ ⟨⟩
  · rintro _ _ ⟨⟩
  · intro c hc
    obtain ⟨cl', hcl'⟩ := h.opened c hc
    rw [hidle] at hcl'
    cases hcl'
  · intro c hc
    rcases h.closing c hc with ⟨cl', hcl'⟩ | habort
    · rw [hidle] at hcl'
      cases hcl'
    · exact .inr habort
  · rintro _ _ ⟨⟩
  · rintro _ ⟨⟩
    exact hpool
  · intro cl' hcl'
    -- the only connected client would be the registered one
    have hpool' := (h.connected cl' hcl').1
    rw [hpool] at hpool'
    cases hpool'
    rw [hcl] at hcl'
    cases hcl'
  · intro a cl' c ha
    rw [haborts a] at ha
    cases ha

theorem TrackedAt.reusing (hidle : s.turns t = .idle)
    (hcl : (s.clients cl).connected) : TrackedAt (s.send t cl) t := by
  obtain ⟨hpool, haborts, c, hws, hreads | ⟨-, hlt, hclosed, hsenders⟩⟩ := h.connected cl hcl
  · rw [hidle] at hreads
    cases hreads.1
  have hclient : s.clients cl = ⟨some c, true⟩ := by
    rw [← hws, ← hcl]
  simp only [SessionSockets.send, hclient]
  apply h.setTurn
  · rintro _ ⟨⟩
    exact h.pooled cl hpool
  · rintro _ _ ⟨⟩
    exact hlt
  · rintro _ _ ⟨⟩
    exact hsenders
  · intro c' hc'
    obtain ⟨cl', hcl'⟩ := h.opened c' hc'
    rw [hidle] at hcl'
    cases hcl'
  · intro c' hc'
    rcases h.closing c' hc' with ⟨cl', hcl'⟩ | habort
    · rw [hidle] at hcl'
      cases hcl'
    · exact .inr habort
  · rintro _ _ ⟨⟩
    exact .inl hws
  · rintro _ ⟨⟩
  · intro cl' hcl'
    have hpool' := (h.connected cl' hcl').1
    rw [hpool] at hpool'
    cases hpool'
    exact ⟨hpool, haborts, c, hws, .inl ⟨rfl, rfl⟩⟩
  · intro a cl' c' ha
    rw [haborts a] at ha
    cases ha

theorem TrackedAt.givesUp (hturn : s.turns t = .connecting cl ∨
      ∃ c, s.turns t = .sending cl c ∧ s.conns c ≠ .opened) :
    TrackedAt (s.setTurn t .over) t := by
  apply h.setTurn
  · rintro _ ⟨⟩
  · rintro _ _ ⟨⟩
  · rintro _ _ ⟨⟩
  · intro c hc
    obtain ⟨cl', hcl'⟩ := h.opened c hc
    rcases hturn with hturn | ⟨c', hturn, hopen⟩ <;> rw [hturn] at hcl' <;> cases hcl'
    exact absurd hc hopen
  · intro c hc
    rcases h.closing c hc with ⟨cl', hcl'⟩ | habort
    · rcases hturn with hturn | ⟨c', hturn, -⟩ <;> rw [hturn] at hcl' <;> cases hcl'
    · exact .inr habort
  · rintro _ _ ⟨⟩
  · rintro _ ⟨⟩
  · intro cl' hcl'
    obtain ⟨hpool, haborts, c, hws, hreads | hdead⟩ := h.connected cl' hcl'
    · rcases hturn with hturn | ⟨c', hturn, hopen⟩ <;> rw [hturn] at hreads
      · cases hreads.1
      obtain ⟨-, ⟨⟩⟩ := hreads
      have hheld : (s.turns t).held = some (cl, c) := by rw [hturn]; rfl
      refine ⟨hpool, haborts, c, hws, .inr ⟨fun hover => hover.2 rfl, h.given _ _ hheld, ?_, ?_⟩⟩
      · cases hstate : s.conns c with
        | opened => exact absurd hstate hopen
        | closed => rfl
        | closing =>
          rcases h.closing c hstate with ⟨cl', hcl'⟩ | ⟨a, cl', habort⟩
          · rw [hturn] at hcl'
            cases hcl'
          · rw [haborts a] at habort
            cases habort
      · rw [h.told _ _ hheld, hturn]
        rfl
    · exact ⟨hpool, haborts, c, hws, .inr ⟨fun hover => hover.2 rfl, hdead.2⟩⟩
  · exact fun a cl c _ hover => absurd rfl hover.2

theorem TrackedAt.no_aborts (hturn : s.turns t = .connecting cl) (a : Nat) :
    s.aborts a = none := by
  cases ha : s.aborts a with
  | none => rfl
  | some waits =>
    have hheld := h.aborting a _ _ ha (by rw [hturn]; exact ⟨nofun, nofun⟩)
    rw [hturn] at hheld
    cases hheld

theorem TrackedAt.connect (hturn : s.turns t = .connecting cl) :
    TrackedAt ((s.connect cl).setTurn t (.sending cl s.connCount)) t := by
  have hself : ((s.connect cl).setTurn t (.sending cl s.connCount)).turns t =
      .sending cl s.connCount := Function.update_self ..
  have hconns : ∀ c, ((s.connect cl).setTurn t (.sending cl s.connCount)).conns c ≠ .closed →
      c = s.connCount ∨ s.conns c ≠ .closed ∧ c ≠ s.connCount ∧
        ((s.connect cl).setTurn t (.sending cl s.connCount)).conns c = s.conns c := by
    intro c hc
    by_cases hnew : c = s.connCount
    · exact .inl hnew
    · have hold : ((s.connect cl).setTurn t (.sending cl s.connCount)).conns c = s.conns c :=
        Function.update_of_ne hnew _ _
      exact .inr ⟨hold ▸ hc, hnew, hold⟩
  have hclient : ((s.connect cl).setTurn t (.sending cl s.connCount)).clients cl =
      ⟨some s.connCount, true⟩ := Function.update_self ..
  -- the connection is new: nothing was sent on it and no turn or abort holds it
  constructor <;> try rw [hself]
  · intro u hu
    simp only [SessionSockets.setTurn, Function.update_of_ne hu]
    exact h.others u hu
  · exact h.pooled
  · rintro _ ⟨⟩
    exact h.known cl (by rw [hturn]; rfl)
  · rintro _ _ ⟨⟩
    exact Nat.lt_succ_self _
  · exact fun c hc => h.unsent c (Nat.le_of_succ_le hc)
  · rintro _ _ ⟨⟩
    exact h.unsent _ (Nat.le_refl _)
  · exact h.taken
  · intro c hc
    rcases hconns c (by rw [hc]; decide) with rfl | ⟨-, -, hold⟩
    · exact ⟨cl, rfl⟩
    · obtain ⟨cl', hcl'⟩ := h.opened c (hold ▸ hc)
      rw [hturn] at hcl'
      cases hcl'
  · intro c hc
    rcases hconns c (by rw [hc]; decide) with rfl | ⟨-, -, hold⟩
    · rw [show ((s.connect cl).setTurn t (.sending cl s.connCount)).conns s.connCount = .opened
        from Function.update_self ..] at hc
      cases hc
    · rcases h.closing c (hold ▸ hc) with ⟨cl', hcl'⟩ | habort
      · rw [hturn] at hcl'
        cases hcl'
      · exact .inr habort
  · rintro _ _ ⟨⟩
    rw [hclient]
    exact .inl rfl
  · rintro _ ⟨⟩
  · intro cl' hcl'
    refine ⟨?_, h.no_aborts hturn, ?_⟩ <;> by_cases hcl : cl' = cl
    · rw [hcl]
      exact h.waiting cl hturn
    · rw [show ((s.connect cl).setTurn t (.sending cl s.connCount)).clients cl' = s.clients cl'
        from Function.update_of_ne hcl _ _] at hcl'
      exact (h.connected cl' hcl').1
    · rw [hcl, hclient]
      exact ⟨_, rfl, .inl ⟨rfl, rfl⟩⟩
    · rw [show ((s.connect cl).setTurn t (.sending cl s.connCount)).clients cl' = s.clients cl'
        from Function.update_of_ne hcl _ _] at hcl'
      have hpool := (h.connected cl' hcl').1
      rw [h.waiting cl hturn] at hpool
      cases hpool
      exact absurd rfl hcl
  · intro a cl' c ha
    rw [show ((s.connect cl).setTurn t (.sending cl s.connCount)).aborts a = none from
      h.no_aborts hturn a] at ha
    cases ha

end

theorem TrackedAt.proceeds (h : TrackedAt s t)
    (hheld : (s.turns t).held = some (cl, c)) (hp : p.held = some (cl, c)) (hreads : p.reads)
    (hclosing : ∀ cl c, s.turns t ≠ .closing cl c) (htold : s.senders c = p.told t) :
    TrackedAt (s.setTurn t p) t := by
  have hsame : p.held = (s.turns t).held := hp.trans hheld.symm
  apply h.setTurn
  · intro cl' hcl'
    rw [SocketPhase.client_of_held hp] at hcl'
    exact h.known cl' (by rw [SocketPhase.client_of_held hheld, hcl'])
  · rw [hsame]
    exact h.given
  · intro cl' c' hc'
    rw [hp] at hc'
    cases hc'
    exact htold
  · rw [hsame]
    exact h.opened
  · intro c' hc'
    rcases h.closing c' hc' with ⟨cl', hcl'⟩ | habort
    · exact absurd hcl' (hclosing cl' c')
    · exact .inr habort
  · rw [hsame]
    exact h.uses
  · rintro cl' rfl
    cases hp
  · intro cl' hcl'
    obtain ⟨hpool, haborts, c', hws, ⟨-, hc'⟩ | hdead⟩ := h.connected cl' hcl'
    · exact ⟨hpool, haborts, c', hws, .inl ⟨hreads, hsame.trans hc'⟩⟩
    · exact absurd (SocketPhase.inProgress_of_held hheld) hdead.1
  · exact fun a cl' c' ha _ =>
      hsame.trans (h.aborting a cl' c' ha (SocketPhase.inProgress_of_held hheld))

section

variable (h : TrackedAt s t)
include h

theorem TrackedAt.sent (hturn : s.turns t = .sending cl c) :
    TrackedAt { s.setTurn t (.prepared cl c) with
      senders := Function.update s.senders c (s.senders c ++ [t]) } t := by
  have hheld : (s.turns t).held = some (cl, c) := by rw [hturn]; rfl
  have hempty : s.senders c = [] := by rw [h.told cl c hheld, hturn]; rfl
  have hsenders : Function.update s.senders c (s.senders c ++ [t]) c = [t] := by
    rw [Function.update_self, hempty, List.nil_append]
  have hold : ∀ c', c' ≠ c → Function.update s.senders c (s.senders c ++ [t]) c' = s.senders c' :=
    fun c' hc' => Function.update_of_ne hc' _ _
  have hself : (s.setTurn t (.prepared cl c)).turns t = .prepared cl c := Function.update_self ..
  have hsame : (SocketPhase.prepared cl c).held = (s.turns t).held := hheld.symm
  constructor <;> try rw [hself]
  · intro u hu
    simp only [SessionSockets.setTurn, Function.update_of_ne hu]
    exact h.others u hu
  · exact h.pooled
  · rintro _ ⟨⟩
    exact h.known cl (SocketPhase.client_of_held hheld)
  · rw [hsame]
    exact h.given
  · intro c' hc'
    have hne : c' ≠ c := by
      rintro rfl
      exact absurd (h.given cl c' hheld) (Nat.not_lt.mpr hc')
    exact (hold c' hne).trans (h.unsent c' hc')
  · rintro _ _ ⟨⟩
    exact hsenders
  · intro c' u hu
    have hne : c' ≠ c := by
      rintro rfl
      have hone := h.taken c' u hu
      rw [hempty] at hone
      cases hone
    exact (hold c' hne).trans (h.taken c' u hu)
  · rw [hsame]
    exact h.opened
  · intro c' hc'
    rcases h.closing c' hc' with ⟨cl', hcl'⟩ | habort
    · rw [hturn] at hcl'
      cases hcl'
    · exact .inr habort
  · rw [hsame]
    exact h.uses
  · rintro _ ⟨⟩
  · intro cl' hcl'
    obtain ⟨hpool, haborts, c', hws, ⟨-, hc'⟩ | hdead⟩ := h.connected cl' hcl'
    · exact ⟨hpool, haborts, c', hws, .inl ⟨rfl, hsame.trans hc'⟩⟩
    · exact absurd (SocketPhase.inProgress_of_held hheld) hdead.1
  · exact fun a cl' c' ha _ =>
      hsame.trans (h.aborting a cl' c' ha (SocketPhase.inProgress_of_held hheld))

theorem TrackedAt.frame (hturn : s.turns t = .receiving cl c) :
    TrackedAt { s with consumed := s.consumed ++ [(c, t)] } t := by
  refine { h with taken := fun c' u hu => ?_ }
  rcases List.mem_append.mp hu with hu | hu
  · exact h.taken c' u hu
  · obtain ⟨⟩ := List.mem_singleton.mp hu
    exact (h.told cl c (by rw [hturn]; rfl)).trans (by rw [hturn]; rfl)

theorem TrackedAt.setConnected {connected : Bool} (hc : connected → (s.clients cl).connected) :
    TrackedAt (s.setClient cl { s.clients cl with connected := connected }) t := by
  have hws : ∀ cl', ((s.setClient cl { s.clients cl with connected := connected }).clients
      cl').ws = (s.clients cl').ws := by
    intro cl'
    by_cases heq : cl' = cl
    · rw [heq]
      simp [SessionSockets.setClient]
    · simp [SessionSockets.setClient, Function.update_of_ne heq]
  refine { h with uses := fun cl' c' hc' => ?_, connected := fun cl' hcl' => ?_ }
  · rw [hws]
    exact h.uses cl' c' hc'
  · rw [hws]
    refine h.connected cl' ?_
    by_cases heq : cl' = cl
    · subst heq
      exact hc (by simpa [SessionSockets.setClient] using hcl')
    · simpa [SessionSockets.setClient, Function.update_of_ne heq] using hcl'

theorem TrackedAt.connected_own (hheld : (s.turns t).held = some (cl, c))
    {cl' : Nat} (hcl : (s.clients cl').connected) : cl' = cl := by
  obtain ⟨-, -, c', -, ⟨-, hown⟩ | hdead⟩ := h.connected cl' hcl
  · rw [hheld] at hown
    cases hown
    rfl
  · exact absurd (SocketPhase.inProgress_of_held hheld) hdead.1

theorem TrackedAt.disconnect (hheld : (s.turns t).held = some (cl, c)) (htold : s.senders c = [t]) :
    TrackedAt ((s.disconnect cl c).setTurn t (.closing cl c)) t := by
  have hself : ((s.disconnect cl c).setTurn t (.closing cl c)).turns t = .closing cl c :=
    Function.update_self ..
  constructor <;> try rw [hself]
  all_goals simp only [SessionSockets.setTurn, SessionSockets.disconnect_pool,
    SessionSockets.disconnect_clientCount, SessionSockets.disconnect_connCount,
    SessionSockets.disconnect_turns, SessionSockets.disconnect_aborts,
    SessionSockets.disconnect_senders, SessionSockets.disconnect_consumed,
    SessionSockets.disconnect_ws]
  · intro u hu
    rw [Function.update_of_ne hu]
    exact h.others u hu
  · exact h.pooled
  · rintro _ ⟨⟩
    exact h.known cl (SocketPhase.client_of_held hheld)
  · rintro _ _ ⟨⟩
    exact h.given cl c hheld
  · exact h.unsent
  · rintro _ _ ⟨⟩
    exact htold
  · exact h.taken
  · intro c' hc'
    rcases s.disconnect_conns cl c c' with ⟨hsame, hne⟩ | ⟨-, -, hclosing⟩
    · rw [hsame] at hc'
      obtain ⟨cl', hcl'⟩ := h.opened c' hc'
      rw [hheld] at hcl'
      cases hcl'
      exact absurd hc' (hne rfl)
    · rw [hclosing] at hc'
      cases hc'
  · intro c' hc'
    rcases s.disconnect_conns cl c c' with ⟨hsame, -⟩ | ⟨heq, -, -⟩
    · rw [hsame] at hc'
      rcases h.closing c' hc' with ⟨cl', hcl'⟩ | habort
      · rw [hcl'] at hheld
        cases hheld
        exact .inl ⟨cl, rfl⟩
      · exact .inr habort
    · exact .inl ⟨cl, by rw [heq]⟩
  · rintro _ _ ⟨⟩
    rcases h.uses cl c hheld with hws | ⟨hws, hclosed⟩
    · exact .inl hws
    · rcases s.disconnect_conns cl c c with ⟨hsame, -⟩ | ⟨-, hopen, -⟩
      · exact .inr ⟨hws, hsame.trans hclosed⟩
      · rw [hclosed] at hopen
        cases hopen
  · rintro _ ⟨⟩
  · intro cl' hcl'
    obtain ⟨hcl, hne⟩ := s.connected_of_disconnect cl c hcl'
    exact absurd (h.connected_own hheld hcl) hne
  · intro a cl' c' ha _
    have hown := h.aborting a cl' c' ha (SocketPhase.inProgress_of_held hheld)
    rw [hheld] at hown
    cases hown
    rfl

theorem TrackedAt.not_connected_of_closing (hturn : s.turns t = .closing cl c) (cl' : Nat)
    : ¬ (s.clients cl').connected := by
  intro hcl'
  obtain ⟨-, -, c', -, hreads | hdead⟩ := h.connected cl' hcl'
  · rw [hturn] at hreads
    cases hreads.1
  · rw [hturn] at hdead
    exact hdead.1 ⟨nofun, nofun⟩

theorem TrackedAt.not_connected_of_abort {a : Nat}
    (ha : s.aborts a = some (cl, c)) (cl' : Nat) : ¬ (s.clients cl').connected := by
  intro hcl'
  rw [(h.connected cl' hcl').2.1 a] at ha
  cases ha

theorem TrackedAt.removeClient (hcl : ∀ cl', ¬ (s.clients cl').connected)
    (hturn : ∀ cl', s.turns t ≠ .connecting cl') :
    TrackedAt s.removeClient t :=
  { h with
    pooled := nofun
    waiting := fun cl' hcl' => absurd hcl' (hturn cl')
    connected := fun cl' hcl' => absurd hcl' (hcl cl') }

theorem TrackedAt.ended (hheld : (s.turns t).held = some (cl, c))
    (hclosed : s.conns c = .closed) (hcl : ∀ cl', ¬ (s.clients cl').connected) :
    TrackedAt (s.setTurn t .over) t := by
  apply h.setTurn
  · rintro _ ⟨⟩
  · rintro _ _ ⟨⟩
  · rintro _ _ ⟨⟩
  · intro c' hc'
    obtain ⟨cl', hcl'⟩ := h.opened c' hc'
    rw [hheld] at hcl'
    cases hcl'
    rw [hclosed] at hc'
    cases hc'
  · intro c' hc'
    rcases h.closing c' hc' with ⟨cl', hcl'⟩ | habort
    · rw [hcl'] at hheld
      cases hheld
      rw [hclosed] at hc'
      cases hc'
    · exact .inr habort
  · rintro _ _ ⟨⟩
  · rintro _ ⟨⟩
  · exact fun cl' hcl' => absurd hcl' (hcl cl')
  · exact fun a cl' c' _ hover => absurd rfl hover.2

theorem TrackedAt.closeWsMessageClient (hheld : (s.turns t).held = some (cl, c))
    (htold : s.senders c = [t]) :
    TrackedAt (s.closeWsMessageClient t cl) t := by
  unfold SessionSockets.closeWsMessageClient
  rcases h.uses cl c hheld with hws | ⟨hws, hclosed⟩
  · rw [hws]
    exact h.disconnect hheld htold
  · rw [hws]
    have hcl : ∀ cl', ¬ (s.clients cl').connected := by
      intro cl' hcl'
      obtain ⟨-, -, c', hws', -⟩ := h.connected cl' hcl'
      rw [h.connected_own hheld hcl', hws] at hws'
      cases hws'
    have hturn : ∀ cl', s.turns t ≠ .connecting cl' := by
      intro cl' hcl'
      rw [hcl'] at hheld
      cases hheld
    exact (h.removeClient hcl hturn).ended hheld hclosed hcl

theorem TrackedAt.setConn_closed (c : Nat) :
    TrackedAt (s.setConn c .closed) t := by
  have hold : ∀ c', (s.setConn c .closed).conns c' ≠ .closed →
      (s.setConn c .closed).conns c' = s.conns c' := by
    intro c' hc'
    refine Function.update_of_ne (fun heq => hc' ?_) _ _
    rw [heq]
    exact Function.update_self ..
  have hclosed : ∀ c', s.conns c' = .closed → (s.setConn c .closed).conns c' = .closed := by
    intro c' hc'
    by_contra hne
    exact hne ((hold c' hne).trans hc')
  refine { h with
    opened := fun c' hc' => h.opened c' (hold c' (by rw [hc']; decide) ▸ hc')
    closing := fun c' hc' => h.closing c' (hold c' (by rw [hc']; decide) ▸ hc')
    uses := fun cl' c' hc' => ?_
    connected := fun cl' hcl' => ?_ }
  · exact (h.uses cl' c' hc').imp_right fun hput => ⟨hput.1, hclosed c' hput.2⟩
  · obtain ⟨hpool, haborts, c', hws, hreads | ⟨hover, hlt, hc', hsenders⟩⟩ := h.connected cl' hcl'
    · exact ⟨hpool, haborts, c', hws, .inl hreads⟩
    · exact ⟨hpool, haborts, c', hws, .inr ⟨hover, hlt, hclosed c' hc', hsenders⟩⟩

theorem TrackedAt.disconnected (hown : (s.turns t).InProgress → (s.turns t).held = some (cl, c))
    (hcl : ∀ cl', ¬ (s.clients cl').connected) : TrackedAt (s.disconnected cl c) t := by
  have hconnected : ∀ cl', ¬ (((s.setConn c .closed).setClient cl
      { s.clients cl with ws := none }).clients cl').connected := by
    intro cl' hcl'
    by_cases heq : cl' = cl
    · subst heq
      exact hcl cl' (by simpa [SessionSockets.setClient] using hcl')
    · exact hcl cl' (by simpa [SessionSockets.setClient, SessionSockets.setConn,
        Function.update_of_ne heq] using hcl')
  have hturn : ∀ cl', s.turns t ≠ .connecting cl' := by
    intro cl' hcl'
    have hheld := hown (by rw [hcl']; exact ⟨by rintro ⟨⟩, by rintro ⟨⟩⟩)
    rw [hcl'] at hheld
    cases hheld
  have hclosed := h.setConn_closed c
  refine TrackedAt.removeClient ?_ hconnected hturn
  refine { hclosed with
    uses := fun cl' c' hc' => ?_
    connected := fun cl' hcl' => absurd hcl' (hconnected cl') }
  have hheld := hown (SocketPhase.inProgress_of_held hc')
  have hpair : some (cl', c') = some (cl, c) := hc'.symm.trans hheld
  cases hpair
  exact .inr ⟨by simp [SessionSockets.setClient], Function.update_self ..⟩

theorem TrackedAt.abortEnds {a : Nat} (ha : s.aborts a = some (cl, c))
    (hclosed : s.conns c = .closed) : TrackedAt (s.setAbort a none) t := by
  have hold : ∀ a' waits, (s.setAbort a none).aborts a' = some waits →
      a' ≠ a ∧ s.aborts a' = some waits := by
    intro a' waits ha'
    by_cases heq : a' = a
    · simp [SessionSockets.setAbort, heq] at ha'
    · exact ⟨heq, by simpa [SessionSockets.setAbort, Function.update_of_ne heq] using ha'⟩
  refine { h with
    closing := fun c' hc' => ?_
    connected := fun cl' hcl' => absurd hcl' (h.not_connected_of_abort ha cl')
    aborting := fun a' cl' c' ha' => h.aborting a' cl' c' (hold a' _ ha').2 }
  rcases h.closing c' hc' with hturn | ⟨a', cl', ha'⟩
  · exact .inl hturn
  · have hne : a' ≠ a := by
      rintro rfl
      rw [ha] at ha'
      cases ha'
      exact absurd (hclosed.symm.trans hc') (by decide)
    refine .inr ⟨a', cl', ?_⟩
    simpa [SessionSockets.setAbort, Function.update_of_ne hne] using ha'

end

theorem TrackedAt.abort (h : TrackedAt s t) (a : Nat) (hcl : s.clients cl = ⟨some c, true⟩) :
    TrackedAt ((s.disconnect cl c).setAbort a (some (cl, c))) t := by
  have hconnected : (s.clients cl).connected := by rw [hcl]
  obtain ⟨hpool, haborts, c', hws, hcase⟩ := h.connected cl hconnected
  rw [hcl] at hws
  cases hws
  -- the client was connected, so no other abort was closing it
  have haborting : ∀ a' waits, Function.update s.aborts a (some (cl, c)) a' = some waits →
      waits = (cl, c) := by
    intro a' waits ha'
    by_cases heq : a' = a
    · rw [heq, Function.update_self] at ha'
      cases ha'
      rfl
    · rw [Function.update_of_ne heq, haborts a'] at ha'
      cases ha'
  constructor <;> simp only [SessionSockets.setAbort, SessionSockets.disconnect_pool,
    SessionSockets.disconnect_clientCount, SessionSockets.disconnect_connCount,
    SessionSockets.disconnect_turns, SessionSockets.disconnect_aborts,
    SessionSockets.disconnect_senders, SessionSockets.disconnect_consumed,
    SessionSockets.disconnect_ws]
  · exact h.others
  · exact h.pooled
  · exact h.known
  · exact h.given
  · exact h.unsent
  · exact h.told
  · exact h.taken
  · intro c' hc'
    rcases s.disconnect_conns cl c c' with ⟨hsame, -⟩ | ⟨-, -, hclosing⟩
    · exact h.opened c' (hsame ▸ hc')
    · rw [hclosing] at hc'
      cases hc'
  · intro c' hc'
    rcases s.disconnect_conns cl c c' with ⟨hsame, -⟩ | ⟨heq, -, -⟩
    · rw [hsame] at hc'
      rcases h.closing c' hc' with hturn | ⟨a', cl', ha'⟩
      · exact .inl hturn
      · rw [haborts a'] at ha'
        cases ha'
    · exact .inr ⟨a, cl, by rw [Function.update_self, heq]⟩
  · intro cl' c' hc'
    rcases h.uses cl' c' hc' with hws | ⟨hws, hclosed⟩
    · exact .inl hws
    · rcases s.disconnect_conns cl c c' with ⟨hsame, -⟩ | ⟨heq, hopen, -⟩
      · exact .inr ⟨hws, hsame.trans hclosed⟩
      · rw [heq, hopen] at hclosed
        cases hclosed
  · exact h.waiting
  · intro cl' hcl'
    obtain ⟨hold, hne⟩ := s.connected_of_disconnect cl c hcl'
    have hpool' := (h.connected cl' hold).1
    rw [hpool] at hpool'
    cases hpool'
    exact absurd rfl hne
  · intro a' cl' c' ha' hprogress
    cases haborting a' _ ha'
    rcases hcase with hreads | hdead
    · exact hreads.2
    · exact absurd hprogress hdead.1

end Moves

end WittyService
