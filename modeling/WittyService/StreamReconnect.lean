import WittyService.StreamIsolation

/-! What a `reconnect_stream` call yields of the stream it found active. -/
namespace WittyService

variable {E : Type*}

/-- What a call that follows turn `t` has yielded and still has ahead of it. -/
def Faithful (s : TurnStreams E) (t : ℕ) (r : Reconnect E) : Prop :=
  match r.phase with
  | .replaying rest => r.received ++ rest <+: s.sent t
  | .live q k => r.received ++ readable ((s.registry.queues q).drop k) = s.sent t ∧
      (none ∈ (s.registry.queues q).drop k ↔ s.current ≠ some t)
  | .done => r.received = s.sent t ∧ s.current ≠ some t
  | _ => True

def ReconnectsFaithful (s : TurnStreams E) : Prop :=
  ∀ c t, (s.clients c).follows = some t → Faithful s t (s.clients c)

/-- Every call yields the events of the stream it follows from the first one on, and after
that stream has ended a waiting call comes to its end with all of them. -/
structure ReconnectsComplete (s : TurnStreams E) : Prop where
  faithful : ReconnectsFaithful s
  ends : ∀ c t q k, (s.clients c).follows = some t → (s.clients c).phase = .live q k →
    s.current ≠ some t → ∃ n s',
      GuardedRuns.run streamStep s (List.replicate n (.take c)) = some s' ∧
      s'.clients c = ⟨.done, s.sent t, some t⟩

/-- A replay that is through must find its stream still current, and nothing pushed since
the buffer was copied. -/
def GoesLiveInTime (s : TurnStreams E) : StreamAction E → Prop
  | .resume c => (s.clients c).phase = .replaying [] → ∀ t, (s.clients c).follows = some t →
      s.current = some t ∧ s.sent t = (s.clients c).received
  | _ => True

/-- A live call listens to the turn it follows, and has taken what came before its place. -/
def ClientsPlaced (s : TurnStreams E) : Prop :=
  ∀ c t q k, (s.clients c).follows = some t → (s.clients c).phase = .live q k →
    ∃ j, s.audience q = some (t, j) ∧ j + k ≤ (s.sent t).length ∧
      (s.clients c).received = (s.sent t).take (j + k)

theorem clients_placed_new : ClientsPlaced (TurnStreams.new : TurnStreams E) := by
  simp [ClientsPlaced, TurnStreams.new]

theorem reconnects_faithful_new : ReconnectsFaithful (TurnStreams.new : TurnStreams E) := by
  simp [ReconnectsFaithful, TurnStreams.new]

variable {items : List (Option E)} {k c q : ℕ} {s : TurnStreams E}

theorem readable_drop (h : k ≤ (readable items).length) :
    readable (items.drop k) = (readable items).drop k ∧ (none ∈ items.drop k ↔ none ∈ items) := by
  induction items generalizing k with
  | nil => simp
  | cons item items ih =>
    cases k with
    | zero => simp
    | succ k =>
      cases item with
      | none => simp at h
      | some e =>
        obtain ⟨hread, hmem⟩ := ih (k := k) (by simpa using h)
        exact ⟨by simpa using hread, by simpa using hmem⟩

theorem faithful_of_live (hi : Isolated s) (hp : ClientsPlaced s)
    {t : ℕ} (hf : (s.clients c).follows = some t)
    (hphase : (s.clients c).phase = .live q k) : Faithful s t (s.clients c) := by
  obtain ⟨j, haud, hle, hrec⟩ := hp c t q k hf hphase
  obtain ⟨hread, hended⟩ := hi.readers q t j haud
  have hk : k ≤ (readable (s.registry.queues q)).length := by
    rw [hread, List.length_drop]
    omega
  obtain ⟨hdrop, hmem⟩ := readable_drop hk
  simp only [Faithful, hphase]
  constructor
  · calc (s.clients c).received ++ readable ((s.registry.queues q).drop k)
        = (s.sent t).take (j + k) ++ (s.sent t).drop (j + k) := by
          rw [hrec, hdrop, hread, List.drop_drop]
      _ = s.sent t := List.take_append_drop _ _
  · exact hmem.trans hended

/-! Events are only added, and a turn that has lost its stream adds none. -/

structure SentGrows (s s' : TurnStreams E) : Prop where
  extended : ∀ t, s.sent t <+: s'.sent t
  settled : ∀ t, s.turns t ≠ .idle → s.current ≠ some t →
    s'.current ≠ some t ∧ s'.sent t = s.sent t

section

variable {s s' : TurnStreams E}

theorem sent_grows_of_sent_eq
    (hcur : ∀ t, s'.current = some t → s.current = some t ∨ s.turns t = .idle)
    (hsent : s'.sent = s.sent) : SentGrows s s' := by
  constructor
  · intro t
    exact hsent ▸ List.prefix_rfl
  · intro t hidle hne
    refine ⟨fun hc => ?_, by rw [hsent]⟩
    exact (hcur t hc).elim hne hidle

theorem sent_grows_of_push {u g : ℕ} {e : E} (hcur : ∀ t, s'.current = some t → s.current = some t)
    (hsent : s'.sent = (s.pushBy u g e).sent) : SentGrows s s' := by
  constructor
  · intro t
    rw [hsent, sent_pushBy]
    split_ifs
    · exact List.prefix_append _ _
    · exact List.prefix_rfl
  · intro t _ hne
    refine ⟨fun hc => hne (hcur t hc), ?_⟩
    rw [hsent, sent_pushBy, if_neg]
    rintro ⟨hc, rfl⟩
    exact hne hc

theorem sent_grows_move {a : StreamAction E} (hm : StreamMove s a s') :
    SentGrows s s' := by
  cases hm with
  | start ht | reserve ht _ =>
    refine sent_grows_of_sent_eq (fun t' hc => .inr ?_) rfl
    rwa [← Option.some.inj hc]
  | release _ | finish _ =>
    exact sent_grows_of_sent_eq (fun _ hc => .inl (current_of_currentWithout hc)) rfl
  | @push t g q e _ => exact sent_grows_of_push (u := t) (g := g) (e := e) (fun _ => id) rfl
  | @fail t g q e _ =>
    refine sent_grows_of_push (u := t) (g := g) (e := e) (fun t' hc => ?_) rfl
    have hended : ((s.pushBy t g e).endBy t).current = some t' := current_of_currentWithout hc
    exact current_of_currentWithout hended
  | @throw t g q e _ =>
    exact sent_grows_of_push (u := t) (g := g) (e := e)
      (fun _ hc => current_of_currentWithout hc) rfl
  | @reconnect c _ _ =>
    cases s.registry.getBufferedEvents <;> exact sent_grows_of_sent_eq (fun _ => .inl) rfl
  | @resume c rest _ => cases rest <;> exact sent_grows_of_sent_eq (fun _ => .inl) rfl
  | _ => exact sent_grows_of_sent_eq (fun _ => .inl) rfl

theorem clients_placed_of_same (hp : ClientsPlaced s)
    (hg : SentGrows s s') (hclients : s'.clients = s.clients)
    (haud : ∀ c q k, (s.clients c).phase = .live q k → s'.audience q = s.audience q) :
    ClientsPlaced s' := by
  intro c t q k hf hphase
  rw [hclients] at hf hphase ⊢
  obtain ⟨j, hj, hle, hrec⟩ := hp c t q k hf hphase
  obtain ⟨later, hlater⟩ := hg.extended t
  refine ⟨j, (haud c q k hphase).trans hj, ?_, ?_⟩
  · rw [← hlater, List.length_append]
    omega
  · rw [hrec, ← hlater, List.take_append_of_le_length hle]

end

theorem clients_placed_setClient (hp : ClientsPlaced s)
    {r : Reconnect E} (hr : ∀ t q k, r.follows = some t → r.phase = .live q k →
      ∃ j, s.audience q = some (t, j) ∧ j + k ≤ (s.sent t).length ∧
        r.received = (s.sent t).take (j + k)) : ClientsPlaced (s.setClient c r) := by
  intro c' t q k hf hphase
  by_cases hcc : c' = c
  · subst hcc
    simp only [TurnStreams.setClient, Function.update_self] at hf hphase ⊢
    exact hr t q k hf hphase
  · simp only [TurnStreams.setClient, Function.update_of_ne hcc] at hf hphase ⊢
    exact hp c' t q k hf hphase

theorem audience_listen_of_lt {listener : Option (ℕ × ℕ)}
    (hq : q < s.registry.nextQueue) : (s.listen listener).audience q = s.audience q := by
  simp only [TurnStreams.listen]
  rw [Function.update_of_ne (by omega)]

theorem clients_placed_replay (hc : ClientQueues s) (hp : ClientsPlaced s)
    {follows : Option ℕ} {received rest : List E}
    (hin : rest = [] → ∀ t, follows = some t → s.current = some t ∧ s.sent t = received) :
    ClientsPlaced (s.replay c follows received rest) := by
  cases rest with
  | cons e rest => exact clients_placed_setClient hp (by simp)
  | nil =>
    have hlisten : ClientsPlaced (s.listen s.joining) :=
      clients_placed_of_same hp (sent_grows_of_sent_eq (fun _ => .inl) rfl) rfl
        fun c' q k hq => audience_listen_of_lt (hc.clientQueue c' q k hq)
    refine clients_placed_setClient hlisten ?_
    intro t q k hf hphase
    cases hphase
    obtain ⟨hcur, hsent⟩ := hin rfl t hf
    refine ⟨(s.sent t).length, ?_, Nat.le_refl _, ?_⟩
    · simp [TurnStreams.listen, TurnStreams.joining, hcur]
    · show received = (s.sent t).take _
      rw [← hsent, Nat.add_zero, List.take_length]

theorem drop_of_getElem? {item : Option E}
    (h : items[k]? = some item) : items.drop k = item :: items.drop (k + 1) := by
  obtain ⟨hk, hitem⟩ := List.getElem?_eq_some_iff.mp h
  rw [List.drop_eq_getElem_cons hk, hitem]

theorem clients_placed_move {s' : TurnStreams E} {a : StreamAction E} (hi : Isolated s)
    (hc : ClientQueues s) (hp : ClientsPlaced s) (hf : ReconnectsFaithful s)
    (hin : GoesLiveInTime s a) (hm : StreamMove s a s') : ClientsPlaced s' := by
  have hg := sent_grows_move hm
  -- the queue a turn starts to listen on is read by no call
  have hlisten : ∀ c q k listener, (s.clients c).phase = .live q k →
      (s.listen listener).audience q = s.audience q := fun c q k listener hq =>
    audience_listen_of_lt (hc.clientQueue c q k hq)
  cases hm with
  | start _ | handOver _ =>
    exact clients_placed_of_same hp hg rfl fun c q k hq => hlisten c q k _ hq
  | @disconnect t g q ht =>
    refine clients_placed_of_same hp hg rfl fun c q' k hq' => ?_
    have hne : q' ≠ q := by
      rintro rfl
      exact hc.apart t g q' c k ht hq'
    simp [TurnStreams.drop, hne]
  | @reconnect c _ _ =>
    refine clients_placed_replay hc hp fun hbuf t hcur => ⟨hcur, ?_⟩
    obtain ⟨-, hsent, -⟩ := hi.stream t hcur
    simpa [SessionStreamRegistry.getBufferedEvents, hsent] using hbuf
  | noStream _ _ | takeEnd _ _ | leaveReplay _ => exact clients_placed_setClient hp (by simp)
  | @resume c rest hphase =>
    refine clients_placed_replay hc hp fun hrest => ?_
    subst hrest
    exact hin hphase
  | @takeEvent c q k e hphase hitem =>
    refine clients_placed_setClient hp ?_
    rintro t q' k' hfol hphase'
    cases hphase'
    obtain ⟨j, haud, hle, hrec⟩ := hp c t q k hfol hphase
    have hfaith := hf c t hfol
    simp only [Faithful, hphase] at hfaith
    -- the event taken is the next one its turn sent
    have hnext : ((s.clients c).received ++ [e]) ++
        readable ((s.registry.queues q).drop (k + 1)) = s.sent t := by
      rw [← hfaith.1, drop_of_getElem? hitem]
      simp
    have hlen : ((s.clients c).received ++ [e]).length = j + (k + 1) := by
      simp only [List.length_append, List.length_singleton, hrec, List.length_take]
      omega
    refine ⟨j, haud, ?_, ?_⟩
    · rw [← hlen, ← hnext]
      exact (List.prefix_append _ _).length_le
    · rw [← hlen, ← hnext, List.take_left]
  | @leaveLive c q k hphase =>
    -- forget the call first: it is the only one whose queue is dropped
    have hleft : ClientsPlaced (s.setClient c { s.clients c with phase := .left }) :=
      clients_placed_setClient hp (by simp)
    show ClientsPlaced ((s.setClient c { s.clients c with phase := .left }).drop q)
    refine clients_placed_of_same hleft ?_ rfl ?_
    · exact sent_grows_of_sent_eq (fun _ => .inl) rfl
    · intro c' q' k' hq'
      have hcc : c' ≠ c := by
        rintro rfl
        simp [TurnStreams.setClient] at hq'
      have hold : (s.clients c').phase = .live q' k' := by
        simpa [TurnStreams.setClient, hcc] using hq'
      have hne : q' ≠ q := by
        rintro rfl
        exact hcc (hc.alone c' c q' k' k hold hphase)
      simp [TurnStreams.drop, TurnStreams.setClient, hne]
  | _ => exact clients_placed_of_same hp hg rfl fun _ _ _ _ => rfl

def StreamAction.client : StreamAction E → Option ℕ
  | .reconnect c | .resume c | .take c | .leave c => some c
  | _ => none

section

variable {s s' : TurnStreams E}

variable {a : StreamAction E} {c : ℕ}

theorem clients_of_other (hm : StreamMove s a s')
    (hne : a.client ≠ some c) : s'.clients c = s.clients c := by
  have hset : ∀ c' (r : Reconnect E), some c' ≠ some c →
      (Function.update s.clients c' r) c = s.clients c := fun c' r hcc =>
    Function.update_of_ne (fun heq => hcc (congrArg some heq.symm)) _ _
  cases hm with
  | @reconnect c' _ _ => cases s.registry.getBufferedEvents <;> exact hset c' _ hne
  | noStream _ _ | takeEvent _ _ | takeEnd _ _ | leaveReplay _ | leaveLive _ => exact hset _ _ hne
  | @resume c' rest _ => cases rest <;> exact hset c' _ hne
  | _ => rfl

theorem faithful_of_other (hi' : Isolated s') (hp' : ClientsPlaced s')
    (hc : ClientQueues s) (hg : SentGrows s s') {t : ℕ} (hsame : s'.clients c = s.clients c)
    (hfol : (s.clients c).follows = some t) (hf : Faithful s t (s.clients c)) :
    Faithful s' t (s'.clients c) := by
  cases hphase : (s.clients c).phase with
  | live q k =>
    rw [← hsame] at hfol hphase
    exact faithful_of_live hi' hp' hfol hphase
  | replaying rest =>
    rw [hsame]
    simp only [Faithful, hphase] at hf ⊢
    exact hf.trans (hg.extended t)
  | done =>
    rw [hsame]
    simp only [Faithful, hphase] at hf ⊢
    obtain ⟨hcur, hsent⟩ := hg.settled t (hc.begun c t hfol) hf.2
    exact ⟨hf.1.trans hsent.symm, hcur⟩
  | away | noStream | left => simp [Faithful, hsame, hphase]

theorem faithful_of_own (hi : Isolated s)
    (hi' : Isolated s') (hp' : ClientsPlaced s') (hf : ReconnectsFaithful s)
    (hm : StreamMove s a s') {t : ℕ} (hac : a.client = some c)
    (hfol : (s'.clients c).follows = some t) : Faithful s' t (s'.clients c) := by
  have hlive : ∀ q k, (s'.clients c).phase = .live q k → Faithful s' t (s'.clients c) :=
    fun q k hphase => faithful_of_live hi' hp' hfol hphase
  cases hm with
  | @reconnect c' _ _ =>
    cases hac
    -- an empty buffer goes live at once; else the first event is replayed
    cases hbuf : s.registry.getBufferedEvents with
    | nil =>
      rw [hbuf] at hlive
      exact hlive s.registry.nextQueue 0 (by simp [TurnStreams.replay, TurnStreams.goLive,
        TurnStreams.setClient])
    | cons e rest =>
      rw [hbuf] at hfol
      simp only [TurnStreams.replay, TurnStreams.setClient, Function.update_self] at hfol ⊢
      obtain ⟨-, hsent, -⟩ := hi.stream t hfol
      simp only [SessionStreamRegistry.getBufferedEvents, hsent, Option.getD_some] at hbuf
      show [] ++ [e] ++ rest <+: s.sent t
      rw [hbuf]
      exact List.prefix_rfl
  | noStream _ _ =>
    cases hac
    simp [TurnStreams.setClient] at hfol
  | @resume c' rest hphase =>
    cases hac
    cases rest with
    | nil =>
      exact hlive s.registry.nextQueue 0 (by simp [TurnStreams.replay, TurnStreams.goLive,
        TurnStreams.setClient])
    | cons e rest =>
      simp only [TurnStreams.replay, TurnStreams.setClient, Function.update_self] at hfol ⊢
      have hold := hf c t hfol
      simp only [Faithful, hphase] at hold
      show (s.clients c).received ++ [e] ++ rest <+: s.sent t
      rw [List.append_assoc]
      exact hold
  | @takeEvent c' q k e hphase hitem =>
    cases hac
    exact hlive q (k + 1) (by simp [TurnStreams.setClient])
  | @takeEnd c' q k hphase hitem =>
    cases hac
    simp only [TurnStreams.setClient, Function.update_self] at hfol ⊢
    -- the queue's end is only put after every event of the stream was
    have hold := hf c t hfol
    simp only [Faithful, hphase, drop_of_getElem? hitem] at hold
    exact ⟨by simpa using hold.1, hold.2.mp List.mem_cons_self⟩
  | leaveReplay _ | leaveLive _ =>
    cases hac
    simp [TurnStreams.setClient, Faithful]
  | _ => cases hac

theorem in_time_of_faithful (hq : QueuesTracked s)
    (hf' : ReconnectsFaithful s') (hm : StreamMove s a s') : GoesLiveInTime s a := by
  cases hm with
  | @resume c rest hphase =>
    intro hnil t hfol
    rw [hphase] at hnil
    cases hnil
    have hlate := hf' c t (by simpa [TurnStreams.replay, TurnStreams.goLive,
      TurnStreams.setClient] using hfol)
    obtain ⟨hempty, -⟩ := hq.fresh s.registry.nextQueue (Nat.le_refl _)
    simp only [Faithful, TurnStreams.replay, TurnStreams.goLive, TurnStreams.setClient,
      Function.update_self, TurnStreams.listen, SessionStreamRegistry.subscribe, hempty] at hlate
    obtain ⟨hrec, hended⟩ := hlate
    refine ⟨?_, by simpa using hrec.symm⟩
    by_contra hne
    simpa using hended.mpr hne
  | _ => trivial

end

theorem reconnect_drains {ahead : List (Option E)} :
    ∀ {s : TurnStreams E} {k : ℕ}, (s.clients c).phase = .live q k →
      (s.registry.queues q).drop k = ahead → none ∈ ahead → ∃ n s',
        GuardedRuns.run streamStep s (List.replicate n (.take c)) = some s' ∧
        s'.clients c =
          ⟨.done, (s.clients c).received ++ readable ahead, (s.clients c).follows⟩ := by
  induction ahead with
  | nil => exact fun _ _ hnone => absurd hnone (by simp)
  | cons item ahead ih =>
    intro s k hphase hahead hnone
    have hitem : (s.registry.queues q)[k]? = some item := by
      rw [← List.head?_drop, hahead, List.head?_cons]
    cases item with
    | none =>
      refine ⟨1, s.setClient c { s.clients c with phase := .done }, ?_, ?_⟩
      · simp [GuardedRuns.run, streamStep, hphase, hitem]
      · simp [TurnStreams.setClient]
    | some e =>
      have htail : (s.registry.queues q).drop (k + 1) = ahead := by
        rw [drop_of_getElem? hitem] at hahead
        exact (List.cons.inj hahead).2
      obtain ⟨n, s', hrun, hs'⟩ := ih
        (s := s.setClient c ⟨.live q (k + 1), (s.clients c).received ++ [e], (s.clients c).follows⟩)
        (k := k + 1) (by simp [TurnStreams.setClient]) htail (by simpa using hnone)
      refine ⟨n + 1, s', ?_, ?_⟩
      · simpa [List.replicate_succ, GuardedRuns.run, streamStep, hphase, hitem] using hrun
      · simpa [TurnStreams.setClient] using hs'

theorem reconnects_complete (hf : ReconnectsFaithful s) :
    ReconnectsComplete s := by
  refine ⟨hf, fun c t q k hfol hphase hne => ?_⟩
  have hfaith := hf c t hfol
  simp only [Faithful, hphase] at hfaith
  obtain ⟨n, s', hrun, hs'⟩ := reconnect_drains hphase rfl (hfaith.2.mpr hne)
  exact ⟨n, s', hrun, by rw [hs', hfaith.1, hfol]⟩

structure ReconnectTracked (s : TurnStreams E) : Prop where
  queues : QueuesTracked s
  readers : ClientQueues s
  isolated : Isolated s
  placed : ClientsPlaced s

theorem reconnect_tracked_new : ReconnectTracked (TurnStreams.new : TurnStreams E) :=
  ⟨queues_tracked_new, client_queues_new, isolated_new, clients_placed_new⟩

section

variable {s s' : TurnStreams E} {a : StreamAction E} (h : ReconnectTracked s)
  (hown : TouchesOwnStream s a) (hf : ReconnectsFaithful s)
include h hown hf

theorem reconnect_tracked_move (hin : GoesLiveInTime s a) (hm : StreamMove s a s')
    : ReconnectTracked s' where
  queues := queues_tracked_move h.queues hm
  readers := client_queues_move h.queues h.readers hm
  isolated := (isolated_move_iff h.queues h.isolated hm).mpr hown
  placed := clients_placed_move h.isolated h.readers h.placed hf hin hm

theorem reconnects_faithful_move_iff (hm : StreamMove s a s')
    : ReconnectsFaithful s' ↔ GoesLiveInTime s a := by
  constructor
  · intro hf'
    exact in_time_of_faithful h.queues hf' hm
  · intro hin c t hfol
    have h' := reconnect_tracked_move h hown hf hin hm
    by_cases hac : a.client = some c
    · exact faithful_of_own h.isolated h'.isolated h'.placed hf hm hac hfol
    · have hsame := clients_of_other hm hac
      rw [hsame] at hfol
      exact faithful_of_other h'.isolated h'.placed h.readers (sent_grows_move hm) hsame hfol
        (hf c t hfol)

end

/-- While the streams of the session stay apart, every reconnect call is complete in every
state reached if and only if every replay that is through finds its stream still current and
nothing new in it. -/
theorem reconnects_complete_iff (as : List (StreamAction E))
    (hown : GuardedRuns.Guarded streamStep TouchesOwnStream .new as) :
    GuardedRuns.Always streamStep ReconnectsComplete .new as ↔
      GuardedRuns.Guarded streamStep GoesLiveInTime .new as := by
  have hfaithful := GuardedRuns.always_iff_guarded_among
    (Q := ReconnectsFaithful) (J := ReconnectTracked)
    (fun _ _ _ h hp hf hf' hs =>
      have hm := stream_move_of_step hs
      reconnect_tracked_move h hp hf (in_time_of_faithful h.queues hf' hm) hm)
    (fun _ _ _ h hp hf hs => reconnects_faithful_move_iff h hp hf (stream_move_of_step hs))
    hown reconnect_tracked_new reconnects_faithful_new
  rw [← hfaithful]
  constructor
  · exact GuardedRuns.always_mono fun _ hs => hs.faithful
  · exact GuardedRuns.always_mono fun _ hs => reconnects_complete hs

def timelyReconnect : List (StreamAction ℕ) :=
  [.start 0, .push 0 7, .reconnect 0, .resume 0, .push 0 8, .take 0, .finish 0, .take 0]

theorem timely_reconnect_complete :
    GuardedRuns.Always streamStep ReconnectsComplete .new timelyReconnect := by
  have hturn : ∀ a ∈ timelyReconnect, ∀ u, a.turn = some u → u = 0 := by
    simp [timelyReconnect, StreamAction.turn]
  refine (reconnects_complete_iff timelyReconnect (one_turn_touches_own 0 hturn)).mpr ?_
  -- the only replay is through before anything else is pushed
  intro s₁ h₁
  refine ⟨trivial, fun s₂ h₂ => ⟨trivial, fun s₃ h₃ => ⟨trivial, fun s₄ h₄ => ⟨?_, ?_⟩⟩⟩⟩
  · cases h₁
    cases h₂
    cases h₃
    intro _ t ht
    cases ht
    exact ⟨rfl, rfl⟩
  · intro s₅ _
    exact ⟨trivial, fun s₆ _ => ⟨trivial, fun s₇ _ => ⟨trivial, fun s₈ _ => ⟨trivial, trivial⟩⟩⟩⟩

def lateReconnect : List (StreamAction ℕ) :=
  [.start 0, .push 0 7, .reconnect 0, .push 0 8, .resume 0]

/-- The second event is neither in the replay nor ahead in the live queue. -/
theorem late_reconnect_misses_event :
    ¬ ∀ as : List (StreamAction ℕ),
      GuardedRuns.Always streamStep ReconnectsComplete .new as := by
  intro h
  have hlast := GuardedRuns.always_last (h lateReconnect) rfl
  obtain ⟨hmissed, -⟩ := hlast.faithful 0 0 rfl
  revert hmissed
  decide

end WittyService
