import WittyService.TurnStreams

/-! The bookkeeping of queues, listeners and sent events along every step of the streams. -/
namespace WittyService

open SessionStreamRegistry

variable {E : Type*}

/-- Queue ids are handed out in order, and a turn owns and sends nothing before its time. -/
structure QueuesTracked (s : TurnStreams E) : Prop where
  fresh : ∀ q, s.registry.nextQueue ≤ q → s.registry.queues q = [] ∧ s.audience q = none
  subs : ∀ subs, s.registry.subscribers = some subs →
    subs.Nodup ∧ ∀ q ∈ subs, q < s.registry.nextQueue
  begun : ∀ t, s.turns t = .idle → s.current ≠ some t ∧ ∀ q k, s.audience q ≠ some (t, k)
  unsent : ∀ t, (s.turns t = .idle ∨ ∃ g, s.turns t = .reserved g) → s.sent t = []
  joined : ∀ q t k, s.audience q = some (t, k) → k ≤ (s.sent t).length

theorem queues_tracked_new : QueuesTracked (TurnStreams.new : TurnStreams E) := by
  constructor <;> simp [TurnStreams.new, SessionStreamRegistry.new]

section

variable {s : TurnStreams E} (h : QueuesTracked s)
include h

theorem putAll_fresh (item : Option E) {q : ℕ} (hq : s.registry.nextQueue ≤ q) :
    putAll item (s.registry.subscribers.getD []) s.registry.queues q = [] := by
  have hnot : q ∉ s.registry.subscribers.getD [] := by
    intro hmem
    cases hs : s.registry.subscribers with
    | none => simp [hs] at hmem
    | some subs =>
      have hlt := (h.subs subs hs).2 q (by simpa [hs] using hmem)
      omega
  rw [putAll_of_notMem hnot]
  exact (h.fresh q hq).1

theorem queues_tracked_setPhase {t : ℕ}
    {p : TurnPhase} (hidle : p ≠ .idle) (hsent : (∃ g, p = .reserved g) → s.sent t = []) :
    QueuesTracked (s.setPhase t p) := by
  refine ⟨h.fresh, h.subs, fun t' ht' => ?_, fun t' ht' => ?_, h.joined⟩
  · by_cases htt : t' = t
    · subst htt
      simp [TurnStreams.setPhase, hidle] at ht'
    · exact h.begun t' (by simpa [TurnStreams.setPhase, htt] using ht')
  · by_cases htt : t' = t
    · subst htt
      exact hsent (by simpa [TurnStreams.setPhase, hidle] using ht')
    · exact h.unsent t' (by simpa [TurnStreams.setPhase, htt] using ht')

theorem queues_tracked_setClient (c : ℕ) (r : Reconnect E) : QueuesTracked (s.setClient c r) :=
  ⟨h.fresh, h.subs, h.begun, h.unsent, h.joined⟩

end

variable {s s' : TurnStreams E} {a : StreamAction E}

theorem queues_tracked_ended (h : QueuesTracked s)
    (hqueues : s'.registry.queues = s.registry.queues ∨
      s'.registry.queues = s.registry.endStream.queues)
    (hnext : s'.registry.nextQueue = s.registry.nextQueue)
    (hsubs : s'.registry.subscribers = none ∨
      s'.registry.subscribers = s.registry.subscribers)
    (hcur : ∀ t, s'.current = some t → s.current = some t)
    (hturns : s'.turns = s.turns) (hsent : s'.sent = s.sent)
    (haud : s'.audience = s.audience) : QueuesTracked s' := by
  refine ⟨fun q hq => ?_, fun subs hs => ?_, fun t ht => ?_, ?_, ?_⟩
  · rw [hnext] at hq
    rw [haud]
    refine ⟨?_, (h.fresh q hq).2⟩
    rcases hqueues with hsame | hend
    · rw [hsame]
      exact (h.fresh q hq).1
    · rw [hend]
      exact putAll_fresh h none hq
  · rw [hnext]
    rcases hsubs with hnone | hsame
    · rw [hnone] at hs
      cases hs
    · exact h.subs subs (hsame ▸ hs)
  · rw [hturns] at ht
    rw [haud]
    exact ⟨fun hc => (h.begun t ht).1 (hcur t hc), (h.begun t ht).2⟩
  · rw [hturns, hsent]
    exact h.unsent
  · rw [haud, hsent]
    exact h.joined

theorem current_of_currentWithout {t t' : ℕ}
    (h : s.currentWithout t = some t') : s.current = some t' :=
  (currentWithout_eq_some.mp h).1

section

variable {s : TurnStreams E} (h : QueuesTracked s)
include h

theorem queues_tracked_endBy (t : ℕ) :
    QueuesTracked (s.endBy t) :=
  queues_tracked_ended h (.inr rfl) rfl (.inr rfl) (fun _ => current_of_currentWithout)
    rfl rfl rfl

theorem queues_tracked_closeBy (t : ℕ) :
    QueuesTracked (s.closeBy t) :=
  queues_tracked_ended h (.inr rfl) rfl (.inl rfl) (fun _ => current_of_currentWithout)
    rfl rfl rfl

theorem queues_tracked_releaseBy (t g : ℕ) :
    QueuesTracked (s.releaseBy t g) := by
  refine queues_tracked_ended h ?_ (nextQueue_releaseStream _ _)
    (.inr (subscribers_releaseStream _ _)) (fun _ => current_of_currentWithout) rfl rfl rfl
  show (s.registry.releaseStream g).queues = _ ∨ (s.registry.releaseStream g).queues = _
  unfold releaseStream
  split_ifs
  · exact .inr rfl
  · exact .inl rfl

theorem queues_tracked_begin {t : ℕ} {p : TurnPhase}
    (ht : s.turns t = .idle) (hidle : p ≠ .idle) : QueuesTracked ((s.begin t).setPhase t p) := by
  refine ⟨fun q hq => ⟨putAll_fresh h none hq, (h.fresh q hq).2⟩, fun subs hs => ?_,
    fun t' ht' => ?_, fun t' ht' => ?_, h.joined⟩
  · cases hs
    simp
  · have htt : t' ≠ t := by
      rintro rfl
      simp [TurnStreams.setPhase, hidle] at ht'
    have hold : s.turns t' = .idle := by
      simpa [TurnStreams.setPhase, TurnStreams.begin, htt] using ht'
    refine ⟨fun hc => htt ?_, (h.begun t' hold).2⟩
    exact (Option.some.inj hc).symm
  · by_cases htt : t' = t
    · subst htt
      exact h.unsent t' (.inl ht)
    · exact h.unsent t' (by simpa [TurnStreams.setPhase, TurnStreams.begin, htt] using ht')

theorem queues_tracked_listen {listener : Option (ℕ × ℕ)}
    (hl : ∀ t k, listener = some (t, k) → s.turns t ≠ .idle ∧ k ≤ (s.sent t).length) :
    QueuesTracked (s.listen listener) := by
  -- the new queue is the only one whose audience changes
  have haud : ∀ q l, (s.listen listener).audience q = some l →
      s.audience q = some l ∨ listener = some l := by
    intro q l hq
    by_cases hqn : q = s.registry.nextQueue
    · subst hqn
      simp only [TurnStreams.listen, Function.update_self] at hq
      exact .inr hq
    · simp only [TurnStreams.listen, Function.update_of_ne hqn] at hq
      exact .inl hq
  refine ⟨fun q hq => ?_, fun subs hs => ?_, fun t ht => ⟨(h.begun t ht).1, ?_⟩, h.unsent, ?_⟩
  · have hlt : s.registry.nextQueue < q := hq
    obtain ⟨hempty, hnone⟩ := h.fresh q (by omega)
    refine ⟨hempty, ?_⟩
    simp only [TurnStreams.listen]
    rw [Function.update_of_ne (by omega), hnone]
  · cases hs
    cases hsub : s.registry.subscribers with
    | none => simp [TurnStreams.listen, subscribe]
    | some subs =>
      obtain ⟨hnodup, hlt⟩ := h.subs subs hsub
      constructor
      · refine List.Nodup.append hnodup (List.nodup_singleton _) ?_
        intro q hq hqn
        have := hlt q hq
        have := List.mem_singleton.mp hqn
        omega
      · intro q hq
        show q < s.registry.nextQueue + 1
        rcases List.mem_append.mp hq with hold | hnew
        · have := hlt q hold
          omega
        · have := List.mem_singleton.mp hnew
          omega
  · intro q k hq
    rcases haud q _ hq with hold | hnew
    · exact (h.begun t ht).2 q k hold
    · exact (hl t k hnew).1 ht
  · intro q t k hq
    rcases haud q _ hq with hold | hnew
    · exact h.joined q t k hold
    · exact (hl t k hnew).2

theorem queues_tracked_drop (q : ℕ) :
    QueuesTracked (s.drop q) := by
  have haud : ∀ q' l, (s.drop q).audience q' = some l → s.audience q' = some l := by
    intro q' l hq'
    by_cases hqq : q' = q
    · subst hqq
      simp [TurnStreams.drop] at hq'
    · simpa [TurnStreams.drop, hqq] using hq'
  refine ⟨fun q' hq' => ⟨(h.fresh q' hq').1, ?_⟩, fun subs hs => ?_,
    fun t ht => ⟨(h.begun t ht).1, fun q' k hq' => (h.begun t ht).2 q' k (haud q' _ hq')⟩,
    h.unsent, fun q' t k hq' => h.joined q' t k (haud q' _ hq')⟩
  · rw [Option.eq_none_iff_forall_ne_some]
    intro l hl
    have hold := haud q' l hl
    rw [(h.fresh q' hq').2] at hold
    cases hold
  · cases hsub : s.registry.subscribers with
    | none => simp [TurnStreams.drop, unsubscribe, hsub] at hs
    | some old =>
      simp only [TurnStreams.drop, unsubscribe, hsub, Option.map_some, Option.some.injEq] at hs
      subst hs
      obtain ⟨hnodup, hlt⟩ := h.subs old hsub
      exact ⟨hnodup.erase q, fun q' hq' => hlt q' (List.mem_of_mem_erase hq')⟩

end

theorem sent_pushBy (s : TurnStreams E) (t g : ℕ) (e : E) (t' : ℕ) :
    (s.pushBy t g e).sent t' =
      if s.current = some t ∧ t' = t then s.sent t' ++ [e] else s.sent t' := by
  by_cases hc : s.current = some t
  · by_cases htt : t' = t
    · subst htt
      simp [TurnStreams.pushBy, hc]
    · simp [TurnStreams.pushBy, hc, htt]
  · simp [TurnStreams.pushBy, hc]

theorem queues_tracked_pushBy (h : QueuesTracked s) {t g q : ℕ}
    (ht : s.turns t = .streaming g q) (e : E) : QueuesTracked (s.pushBy t g e) := by
  refine ⟨fun q' hq' => ⟨?_, ?_⟩, fun subs hs => ?_, h.begun, fun t' ht' => ?_,
    fun q' t' k hq' => ?_⟩
  · have hle : s.registry.nextQueue ≤ q' := (nextQueue_pushEvent s.registry e g) ▸ hq'
    show (s.registry.pushEvent e g).queues q' = []
    unfold pushEvent
    split_ifs
    · exact (h.fresh q' hle).1
    · exact putAll_fresh h _ hle
  · have hle : s.registry.nextQueue ≤ q' := (nextQueue_pushEvent s.registry e g) ▸ hq'
    exact (h.fresh q' hle).2
  · have hold : s.registry.subscribers = some subs :=
      (subscribers_pushEvent s.registry e g) ▸ hs
    show subs.Nodup ∧ ∀ q' ∈ subs, q' < (s.registry.pushEvent e g).nextQueue
    rw [nextQueue_pushEvent]
    exact h.subs subs hold
  · -- only a streaming turn has sent anything new
    have hne : t' ≠ t := by
      rintro rfl
      change s.turns t' = .idle ∨ ∃ g, s.turns t' = .reserved g at ht'
      simp [ht] at ht'
    rw [sent_pushBy, if_neg (fun hc => hne hc.2)]
    exact h.unsent t' ht'
  · have hle := h.joined q' t' k hq'
    rw [sent_pushBy]
    split_ifs
    · rw [List.length_append]
      omega
    · exact hle

theorem queues_tracked_replay (h : QueuesTracked s) (c : ℕ)
    (follows : Option ℕ) (received rest : List E) :
    QueuesTracked (s.replay c follows received rest) := by
  cases rest with
  | nil =>
    refine queues_tracked_setClient (queues_tracked_listen h ?_) c _
    intro t k hl
    obtain ⟨t', hcur, hpair⟩ := Option.map_eq_some_iff.mp hl
    cases hpair
    exact ⟨fun hidle => (h.begun t hidle).1 hcur, Nat.le_refl _⟩
  | cons e rest => exact queues_tracked_setClient h c _

theorem queues_tracked_move (h : QueuesTracked s) (hm : StreamMove s a s') : QueuesTracked s' := by
  cases hm with
  | @start t ht =>
    have hbegun : QueuesTracked ((s.begin t).setPhase t
        (.streaming s.registry.nextGeneration s.registry.nextQueue)) :=
      queues_tracked_begin h ht (by simp)
    refine queues_tracked_listen hbegun ?_
    intro t' k hl
    cases hl
    exact ⟨by simp [TurnStreams.setPhase], Nat.zero_le _⟩
  | reserve ht _ => exact queues_tracked_begin h ht (by simp)
  | refuse ht _ => exact queues_tracked_setPhase h (by simp) (by simp)
  | release _ =>
    exact queues_tracked_setPhase (queues_tracked_releaseBy h _ _) (by simp) (by simp)
  | @handOver t g ht =>
    refine queues_tracked_setPhase (queues_tracked_listen h ?_) (by simp) (by simp)
    intro t' k hl
    cases hl
    exact ⟨by simp [ht], Nat.zero_le _⟩
  | push ht => exact queues_tracked_pushBy h ht _
  | finish _ => exact queues_tracked_setPhase (queues_tracked_closeBy h _) (by simp) (by simp)
  | @fail t g q e ht =>
    have hpush := queues_tracked_pushBy h ht e
    exact queues_tracked_setPhase (queues_tracked_closeBy (queues_tracked_endBy hpush t) t)
      (by simp) (by simp)
  | @throw t g q e ht =>
    have hpush := queues_tracked_pushBy h ht e
    exact queues_tracked_setPhase (queues_tracked_closeBy hpush t) (by simp) (by simp)
  | disconnect _ => exact queues_tracked_drop h _
  | reconnect _ _ | resume _ => exact queues_tracked_replay h _ _ _ _
  | noStream _ _ | takeEvent _ _ | takeEnd _ _ | leaveReplay _ =>
    exact queues_tracked_setClient h _ _
  | leaveLive _ => exact queues_tracked_setClient (queues_tracked_drop h _) _ _

/-! The queues that turns and reconnecting clients read are distinct. -/

/-- Calls follow turns that have begun, and no two readers share a queue. -/
structure ClientQueues (s : TurnStreams E) : Prop where
  begun : ∀ c t, (s.clients c).follows = some t → s.turns t ≠ .idle
  turnQueue : ∀ t g q, s.turns t = .streaming g q → q < s.registry.nextQueue
  clientQueue : ∀ c q k, (s.clients c).phase = .live q k → q < s.registry.nextQueue
  apart : ∀ t g q c k, s.turns t = .streaming g q → (s.clients c).phase ≠ .live q k
  alone : ∀ c c' q k k', (s.clients c).phase = .live q k →
    (s.clients c').phase = .live q k' → c = c'

theorem client_queues_new : ClientQueues (TurnStreams.new : TurnStreams E) := by
  constructor <;> simp [TurnStreams.new]

theorem client_queues_of_same (h : ClientQueues s)
    (hturns : s'.turns = s.turns) (hclients : s'.clients = s.clients)
    (hnext : s.registry.nextQueue ≤ s'.registry.nextQueue) : ClientQueues s' := by
  constructor
  · rw [hturns, hclients]
    exact h.begun
  · intro t g q ht
    rw [hturns] at ht
    exact Nat.lt_of_lt_of_le (h.turnQueue t g q ht) hnext
  · intro c q k hc
    rw [hclients] at hc
    exact Nat.lt_of_lt_of_le (h.clientQueue c q k hc) hnext
  · rw [hturns, hclients]
    exact h.apart
  · rw [hclients]
    exact h.alone

section

variable {s : TurnStreams E} (h : ClientQueues s)
include h

theorem client_queues_setPhase {t : ℕ}
    {p : TurnPhase} (hidle : p ≠ .idle) (hq : ∀ g q, p = .streaming g q →
      q < s.registry.nextQueue ∧ ∀ c k, (s.clients c).phase ≠ .live q k) :
    ClientQueues (s.setPhase t p) := by
  have hturn : ∀ t' p', (s.setPhase t p).turns t' = p' → p = p' ∨ s.turns t' = p' := by
    intro t' p' ht'
    by_cases htt : t' = t
    · subst htt
      exact .inl (by simpa [TurnStreams.setPhase] using ht')
    · exact .inr (by simpa [TurnStreams.setPhase, htt] using ht')
  refine ⟨fun c t' hc ht' => ?_, fun t' g q ht' => ?_, h.clientQueue,
    fun t' g q c k ht' => ?_, h.alone⟩
  · rcases hturn t' _ ht' with hp | hold
    · exact hidle hp
    · exact h.begun c t' hc hold
  · rcases hturn t' _ ht' with hp | hold
    · exact (hq g q hp).1
    · exact h.turnQueue t' g q hold
  · rcases hturn t' _ ht' with hp | hold
    · exact (hq g q hp).2 c k
    · exact h.apart t' g q c k hold

theorem client_queues_setClient {c : ℕ}
    {r : Reconnect E} (hf : ∀ t, r.follows = some t → s.turns t ≠ .idle)
    (hq : ∀ q k, r.phase = .live q k → q < s.registry.nextQueue ∧
      (∀ t g, s.turns t ≠ .streaming g q) ∧
      ∀ c' k', c' ≠ c → (s.clients c').phase ≠ .live q k') :
    ClientQueues (s.setClient c r) := by
  have hself : (s.setClient c r).clients c = r := by simp [TurnStreams.setClient]
  have hother : ∀ c', c' ≠ c → (s.setClient c r).clients c' = s.clients c' := by
    intro c' hcc
    simp [TurnStreams.setClient, hcc]
  refine ⟨fun c' t hc => ?_, h.turnQueue, fun c' q k hc => ?_, fun t g q c' k ht hc => ?_,
    fun c₁ c₂ q k₁ k₂ h₁ h₂ => ?_⟩
  · by_cases hcc : c' = c
    · rw [hcc, hself] at hc
      exact hf t hc
    · rw [hother c' hcc] at hc
      exact h.begun c' t hc
  · by_cases hcc : c' = c
    · rw [hcc, hself] at hc
      exact (hq q k hc).1
    · rw [hother c' hcc] at hc
      exact h.clientQueue c' q k hc
  · by_cases hcc : c' = c
    · rw [hcc, hself] at hc
      exact (hq q k hc).2.1 t g ht
    · rw [hother c' hcc] at hc
      exact h.apart t g q c' k ht hc
  · by_cases hc₁ : c₁ = c <;> by_cases hc₂ : c₂ = c
    · rw [hc₁, hc₂]
    · rw [hc₁, hself] at h₁
      rw [hother c₂ hc₂] at h₂
      exact absurd h₂ ((hq q k₁ h₁).2.2 c₂ k₂ hc₂)
    · rw [hc₂, hself] at h₂
      rw [hother c₁ hc₁] at h₁
      exact absurd h₁ ((hq q k₂ h₂).2.2 c₁ k₁ hc₁)
    · rw [hother c₁ hc₁] at h₁
      rw [hother c₂ hc₂] at h₂
      exact h.alone c₁ c₂ q k₁ k₂ h₁ h₂

theorem next_queue_unread :
    (∀ c k, (s.clients c).phase ≠ .live s.registry.nextQueue k) ∧
      ∀ t g, s.turns t ≠ .streaming g s.registry.nextQueue := by
  constructor
  · intro c k hc
    exact absurd (h.clientQueue c _ k hc) (by omega)
  · intro t g ht
    exact absurd (h.turnQueue t g _ ht) (by omega)

theorem client_queues_replay {c : ℕ}
    {follows : Option ℕ} {received : List E} (hf : ∀ t, follows = some t → s.turns t ≠ .idle)
    (rest : List E) : ClientQueues (s.replay c follows received rest) := by
  obtain ⟨hclient, hturn⟩ := next_queue_unread h
  cases rest with
  | nil =>
    have hlisten : ClientQueues (s.listen s.joining) :=
      client_queues_of_same h rfl rfl (Nat.le_succ _)
    refine client_queues_setClient hlisten hf ?_
    rintro q k hq
    cases hq
    exact ⟨Nat.lt_succ_self _, hturn, fun c' k' _ => hclient c' k'⟩
  | cons e rest => exact client_queues_setClient h hf (by simp)

end

theorem client_queues_move (hi : QueuesTracked s)
    (h : ClientQueues s) (hm : StreamMove s a s') : ClientQueues s' := by
  have hnext := next_queue_unread h
  cases hm with
  | @start t ht =>
    have hlisten : ClientQueues ((s.begin t).listen (some (t, 0))) :=
      client_queues_of_same h rfl rfl (Nat.le_succ _)
    refine client_queues_setPhase hlisten (by simp) ?_
    rintro g q hp
    cases hp
    exact ⟨Nat.lt_succ_self _, hnext.1⟩
  | @reserve t ht _ =>
    have hbegun : ClientQueues (s.begin t) := client_queues_of_same h rfl rfl (Nat.le_refl _)
    exact client_queues_setPhase hbegun (by simp) (by simp)
  | refuse _ _ => exact client_queues_setPhase h (by simp) (by simp)
  | @release t g _ =>
    have hreleased : ClientQueues (s.releaseBy t g) :=
      client_queues_of_same h rfl rfl
        (Nat.le_of_eq (SessionStreamRegistry.nextQueue_releaseStream s.registry g).symm)
    exact client_queues_setPhase hreleased (by simp) (by simp)
  | @handOver t g ht =>
    have hlisten : ClientQueues (s.listen (some (t, 0))) :=
      client_queues_of_same h rfl rfl (Nat.le_succ _)
    refine client_queues_setPhase hlisten (by simp) ?_
    rintro g q hp
    cases hp
    exact ⟨Nat.lt_succ_self _, hnext.1⟩
  | @push t g q e _ =>
    exact client_queues_of_same h rfl rfl
      (Nat.le_of_eq (SessionStreamRegistry.nextQueue_pushEvent s.registry e g).symm)
  | @finish t g q _ =>
    have hclosed : ClientQueues (s.closeBy t) := client_queues_of_same h rfl rfl (Nat.le_refl _)
    exact client_queues_setPhase hclosed (by simp) (by simp)
  | @fail t g q e _ =>
    have hclosed : ClientQueues (((s.pushBy t g e).endBy t).closeBy t) :=
      client_queues_of_same h rfl rfl
        (Nat.le_of_eq (SessionStreamRegistry.nextQueue_pushEvent s.registry e g).symm)
    exact client_queues_setPhase hclosed (by simp) (by simp)
  | @throw t g q e _ =>
    have hclosed : ClientQueues ((s.pushBy t g e).closeBy t) :=
      client_queues_of_same h rfl rfl
        (Nat.le_of_eq (SessionStreamRegistry.nextQueue_pushEvent s.registry e g).symm)
    exact client_queues_setPhase hclosed (by simp) (by simp)
  | disconnect _ => exact client_queues_of_same h rfl rfl (Nat.le_refl _)
  | reconnect _ _ =>
    exact client_queues_replay h (fun t hc hidle => (hi.begun t hidle).1 hc) _
  | noStream _ _ => exact client_queues_setClient h (by simp) (by simp)
  | @resume c rest _ => exact client_queues_replay h (h.begun c) rest
  | @takeEvent c q k e hc _ =>
    refine client_queues_setClient h (h.begun c) ?_
    rintro q' k' hq'
    cases hq'
    refine ⟨h.clientQueue c q k hc, fun t g ht => h.apart t g q c k ht hc, ?_⟩
    exact fun c' k' hne hc' => hne (h.alone c' c q k' k hc' hc)
  | @takeEnd c q k hc _ | @leaveReplay c rest _ =>
    exact client_queues_setClient h (h.begun c) (by simp)
  | @leaveLive c q k _ =>
    have hdrop : ClientQueues (s.drop q) := client_queues_of_same h rfl rfl (Nat.le_refl _)
    exact client_queues_setClient hdrop (hdrop.begun c) (by simp)

end WittyService
