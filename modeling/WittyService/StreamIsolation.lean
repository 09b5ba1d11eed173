import WittyService.StreamQueues

/-! What the subscribers of a turn receive while turns of one session overlap. -/
namespace WittyService

open SessionStreamRegistry

variable {E : Type*}

/-- Streams do not mix. The stream of the current turn keeps its number, its buffer and its
subscribers; a queue yields the events its turn sent since it subscribed, and the sentinel
once that turn's consumer has finished or a newer stream has replaced it. -/
structure Isolated (s : TurnStreams E) : Prop where
  stream : ∀ t, s.current = some t →
    s.registry.generation = (s.turns t).generation ∧
    s.registry.buffers = some (s.sent t) ∧ s.registry.terminated = false ∧
    ∃ subs, s.registry.subscribers = some subs ∧
      ∀ q, q ∈ subs ↔ ∃ k, s.audience q = some (t, k)
  readers : ∀ q t k, s.audience q = some (t, k) →
    readable (s.registry.queues q) = (s.sent t).drop k ∧
    (none ∈ s.registry.queues q ↔ s.current ≠ some t)

/-- What an action must find for the streams to stay apart: nobody pushes under a number
that another turn's stream carries, nobody ends or cleans up another turn's stream, and a
reservation is handed over while its stream is still the current one. -/
def TouchesOwnStream (s : TurnStreams E) : StreamAction E → Prop
  | .push t _ | .release t =>
    s.registry.generation = (s.turns t).generation → NoForeignStream s t
  | .handOver t => s.current = some t
  | .finish t | .fail t _ | .throw t _ => NoForeignStream s t
  | _ => True

theorem isolated_new : Isolated (TurnStreams.new : TurnStreams E) := by
  constructor <;> simp [TurnStreams.new]

variable {s s' : TurnStreams E} {t g : ℕ} {e : E}

theorem isolated_setClient (hi : Isolated s) (c : ℕ) (r : Reconnect E) :
    Isolated (s.setClient c r) :=
  ⟨hi.stream, hi.readers⟩

theorem isolated_setPhase_iff {p : TurnPhase}
    (hp : s.current = some t → p.generation = (s.turns t).generation) :
    Isolated (s.setPhase t p) ↔ Isolated s := by
  have hgen : ∀ t', s.current = some t' →
      ((s.setPhase t p).turns t').generation = (s.turns t').generation := by
    intro t' hc
    by_cases htt : t' = t
    · subst htt
      simpa [TurnStreams.setPhase] using hp hc
    · simp [TurnStreams.setPhase, htt]
  constructor
  · intro hi
    refine ⟨fun t' hc => ?_, hi.readers⟩
    obtain ⟨hg, hrest⟩ := hi.stream t' hc
    exact ⟨hg.trans (hgen t' hc), hrest⟩
  · intro hi
    refine ⟨fun t' hc => ?_, hi.readers⟩
    obtain ⟨hg, hrest⟩ := hi.stream t' hc
    exact ⟨hg.trans (hgen t' hc).symm, hrest⟩

/-- After `end_stream` every listener still reads what its turn sent, and then the
sentinel: a listener of the current turn gets it now, the others have it already. -/
theorem readers_ended (h : QueuesTracked s) (hi : Isolated s)
    {q k : ℕ} (hq : s.audience q = some (t, k)) :
    readable (s.registry.endStream.queues q) = (s.sent t).drop k ∧
      none ∈ s.registry.endStream.queues q := by
  obtain ⟨hread, hended⟩ := hi.readers q t k hq
  by_cases hc : s.current = some t
  · obtain ⟨-, -, -, subs, hsubs, hmem⟩ := hi.stream t hc
    have hput : s.registry.endStream.queues q = s.registry.queues q ++ [none] := by
      show putAll none (s.registry.subscribers.getD []) s.registry.queues q = _
      rw [hsubs]
      exact putAll_of_mem (h.subs subs hsubs).1 ((hmem q).mpr ⟨k, hq⟩)
    rw [hput]
    exact ⟨(readable_append_none _ 1).trans hread, by simp⟩
  · have hnone : none ∈ s.registry.queues q := hended.mpr hc
    refine ⟨?_, List.mem_append_left _ hnone⟩
    exact (readable_append_of_ended hnone _).trans hread

theorem isolated_of_ended (h : QueuesTracked s) (hi : Isolated s)
    (hcur : s'.current = none) (hqueues : s'.registry.queues = s.registry.endStream.queues)
    (hsent : s'.sent = s.sent) (haud : s'.audience = s.audience) : Isolated s' := by
  refine ⟨by simp [hcur], fun q t k hq => ?_⟩
  rw [haud] at hq
  obtain ⟨hread, hnone⟩ := readers_ended h hi hq
  rw [hqueues, hsent, hcur]
  exact ⟨hread, by simp [hnone]⟩

theorem currentWithout_eq_none (hn : NoForeignStream s t) :
    s.currentWithout t = none := by
  have hnone := currentWithout_isSome_iff.mpr hn
  rwa [Option.isSome_eq_false_iff, Option.isNone_iff_eq_none] at hnone

theorem noForeign_of_isolated (hi' : Isolated s') (hcur : s'.current = s.currentWithout t)
    (hgone : s'.registry.subscribers = none ∨ s'.registry.terminated = true) :
    NoForeignStream s t := by
  rw [← currentWithout_isSome_iff, ← hcur, Option.isSome_eq_false_iff,
    Option.isNone_iff_eq_none, Option.eq_none_iff_forall_ne_some]
  intro t' hc
  obtain ⟨-, -, hterm, subs, hsubs, -⟩ := hi'.stream t' hc
  rcases hgone with hnone | htrue
  · rw [hnone] at hsubs
    cases hsubs
  · rw [htrue] at hterm
    cases hterm

section

variable {s : TurnStreams E}

theorem isolated_begin (h : QueuesTracked s) (hi : Isolated s) {t : ℕ}
    {p : TurnPhase} (ht : s.turns t = .idle)
    (hp : p.generation = some s.registry.nextGeneration) :
    Isolated ((s.begin t).setPhase t p) := by
  obtain ⟨-, hnoaud⟩ := h.begun t ht
  refine ⟨fun t' hc => ?_, fun q t' k hq => ?_⟩
  · have htt : t = t' := Option.some.inj hc
    subst htt
    refine ⟨?_, ?_, rfl, [], rfl, fun q => ?_⟩
    · show some s.registry.nextGeneration = _
      simp [TurnStreams.setPhase, hp]
    · show some [] = some (s.sent t)
      rw [h.unsent t (.inl ht)]
    · simp only [List.not_mem_nil, false_iff, not_exists]
      exact hnoaud q
  · obtain ⟨hread, hnone⟩ := readers_ended h hi hq
    refine ⟨hread, iff_of_true hnone ?_⟩
    intro hc
    exact hnoaud q k ((Option.some.inj hc) ▸ hq)

theorem isolated_listen_iff (h : QueuesTracked s) (hi : Isolated s)
    {t k : ℕ} (hk : k = (s.sent t).length) :
    Isolated (s.listen (some (t, k))) ↔ s.current = some t := by
  obtain ⟨hempty, hfresh⟩ := h.fresh s.registry.nextQueue (Nat.le_refl _)
  have hnew : (s.listen (some (t, k))).audience s.registry.nextQueue = some (t, k) := by
    simp [TurnStreams.listen]
  constructor
  · intro hi'
    obtain ⟨-, hended⟩ := hi'.readers _ t k hnew
    by_contra hc
    have hmem : none ∈ s.registry.queues s.registry.nextQueue := hended.mpr hc
    rw [hempty] at hmem
    cases hmem
  · intro hc
    refine ⟨fun t' hc' => ?_, fun q t' k' hq => ?_⟩
    · have htt : t = t' := Option.some.inj (hc.symm.trans hc')
      subst htt
      obtain ⟨hg, hbuf, hterm, subs, hsubs, hmem⟩ := hi.stream t hc
      refine ⟨hg, hbuf, hterm, subs ++ [s.registry.nextQueue], ?_, fun q => ?_⟩
      · simp [TurnStreams.listen, subscribe, hsubs]
      · rw [List.mem_append, List.mem_singleton, hmem]
        by_cases hqn : q = s.registry.nextQueue
        · subst hqn
          simp [hnew]
        · simp [TurnStreams.listen, hqn]
    · by_cases hqn : q = s.registry.nextQueue
      · subst hqn
        cases Option.some.inj (hnew.symm.trans hq)
        show readable (s.registry.queues _) = _ ∧ (none ∈ s.registry.queues _ ↔ _)
        rw [hempty, hk]
        simp [TurnStreams.listen, hc]
      · exact hi.readers q t' k' (by simpa [TurnStreams.listen, hqn] using hq)

theorem isolated_listen_none (hi : Isolated s) (hc : s.current = none) :
    Isolated (s.listen none) := by
  refine ⟨fun t hc' => ?_, fun q t k hq => ?_⟩
  · rw [show (s.listen none).current = s.current from rfl, hc] at hc'
    cases hc'
  · by_cases hqn : q = s.registry.nextQueue
    · subst hqn
      simp [TurnStreams.listen] at hq
    · exact hi.readers q t k (by simpa [TurnStreams.listen, hqn] using hq)

theorem isolated_replay (h : QueuesTracked s) (hi : Isolated s) (c : ℕ)
    (follows : Option ℕ) (received rest : List E) :
    Isolated (s.replay c follows received rest) := by
  cases rest with
  | cons e rest => exact isolated_setClient hi c _
  | nil =>
    refine isolated_setClient (s := s.listen s.joining) ?_ c _
    cases hc : s.current with
    | none =>
      rw [show s.joining = none by simp [TurnStreams.joining, hc]]
      exact isolated_listen_none hi hc
    | some t =>
      rw [show s.joining = some (t, (s.sent t).length) by simp [TurnStreams.joining, hc]]
      exact (isolated_listen_iff h hi rfl).mpr hc

theorem isolated_drop (h : QueuesTracked s) (hi : Isolated s) (q : ℕ) :
    Isolated (s.drop q) := by
  refine ⟨fun t hc => ?_, fun q' t k hq => ?_⟩
  · obtain ⟨hg, hbuf, hterm, subs, hsubs, hmem⟩ := hi.stream t hc
    refine ⟨hg, hbuf, hterm, subs.erase q, ?_, fun q' => ?_⟩
    · simp [TurnStreams.drop, unsubscribe, hsubs]
    · rw [(h.subs subs hsubs).1.mem_erase_iff, hmem]
      by_cases hqq : q' = q <;> simp [TurnStreams.drop, hqq]
  · have hne : q' ≠ q := by
      rintro rfl
      simp [TurnStreams.drop] at hq
    exact hi.readers q' t k (by simpa [TurnStreams.drop, hne] using hq)

end

theorem pushEvent_of_current {r : SessionStreamRegistry E} (hg : r.generation = some g) :
    r.pushEvent e g = { r with
      buffers := r.buffers.map (· ++ [e])
      queues := putAll (some e) (r.subscribers.getD []) r.queues } := by
  rw [pushEvent, if_neg (not_not_intro hg)]

theorem isolated_pushBy_current (h : QueuesTracked s) (hi : Isolated s)
    (hg : s.registry.generation = some g) (hc : s.current = some t) :
    Isolated (s.pushBy t g e) := by
  obtain ⟨hgen, hbuf, hterm, subs, hsubs, hmem⟩ := hi.stream t hc
  have hreg : (s.pushBy t g e).registry = _ := pushEvent_of_current hg
  refine ⟨fun t' hc' => ?_, fun q t' k hq => ?_⟩
  · have htt : t = t' := Option.some.inj (hc.symm.trans hc')
    subst htt
    rw [hreg, sent_pushBy, if_pos ⟨hc, rfl⟩]
    refine ⟨hgen, ?_, hterm, subs, hsubs, hmem⟩
    show s.registry.buffers.map (· ++ [e]) = _
    rw [hbuf, Option.map_some]
  · obtain ⟨hread, hended⟩ := hi.readers q t' k hq
    rw [hreg, sent_pushBy]
    show readable (putAll _ (s.registry.subscribers.getD []) _ q) = _ ∧ (none ∈ putAll _ _ _ q ↔ _)
    rw [hsubs, Option.getD_some]
    by_cases htt : t' = t
    · -- a listener of this turn is subscribed and has not met the sentinel
      subst htt
      have hrun : none ∉ s.registry.queues q := fun hnone => hended.mp hnone hc
      rw [putAll_of_mem (h.subs subs hsubs).1 ((hmem q).mpr ⟨k, hq⟩), if_pos ⟨hc, rfl⟩,
        readable_append_of_running hrun, hread,
        List.drop_append_of_le_length (h.joined q t' k hq)]
      refine ⟨by simp, iff_of_false (by simpa using hrun) (not_not_intro hc)⟩
    · have hnot : q ∉ subs := by
        intro hq'
        obtain ⟨k', hk'⟩ := (hmem q).mp hq'
        have hpair : (t', k) = (t, k') := Option.some.inj (hq.symm.trans hk')
        exact htt (congrArg Prod.fst hpair)
      rw [putAll_of_notMem hnot, if_neg (fun hboth => htt hboth.2)]
      exact ⟨hread, hended⟩

theorem isolated_pushBy_none (hi : Isolated s)
    (hg : s.registry.generation = some g) (hc : s.current = none) :
    Isolated (s.pushBy t g e) := by
  have hcur : (s.pushBy t g e).current = none := hc
  refine ⟨by simp [hcur], fun q t' k hq => ?_⟩
  obtain ⟨hread, hended⟩ := hi.readers q t' k hq
  have hnone : none ∈ s.registry.queues q := hended.mpr (by simp [hc])
  have hreg : (s.pushBy t g e).registry = _ := pushEvent_of_current hg
  rw [hreg, hcur, sent_pushBy, if_neg (by simp [hc])]
  constructor
  · exact (readable_append_of_ended hnone _).trans hread
  · exact iff_of_true (List.mem_append_left _ hnone) (by simp)

section

variable {s : TurnStreams E} (h : QueuesTracked s) (hi : Isolated s)
include h hi

variable {t : ℕ}

theorem isolated_pushBy_iff {g : ℕ} {e : E} (ht : (s.turns t).generation = some g) :
    Isolated (s.pushBy t g e) ↔
      (s.registry.generation = (s.turns t).generation → NoForeignStream s t) := by
  rw [ht]
  by_cases hg : s.registry.generation = some g
  · constructor
    · intro hi' _ t' hc
      by_contra htt
      obtain ⟨-, hbuf, -⟩ := hi.stream t' hc
      obtain ⟨-, hbuf', -⟩ := hi'.stream t' hc
      rw [show (s.pushBy t g e).registry = _ from pushEvent_of_current hg, sent_pushBy,
        if_neg (fun hboth => htt hboth.2)] at hbuf'
      simp [hbuf] at hbuf'
    · intro hn
      cases hc : s.current with
      | none => exact isolated_pushBy_none hi hg hc
      | some t' =>
        have htt : t' = t := hn hg t' hc
        subst htt
        exact isolated_pushBy_current h hi hg hc
  · -- a stale number: the registry ignores the event, and `t` is not current
    have hne : s.current ≠ some t := by
      intro hc
      obtain ⟨hgen, -⟩ := hi.stream t hc
      exact hg (hgen.trans ht)
    have hsame : s.pushBy t g e = s := by
      simp [TurnStreams.pushBy, pushEvent, hg, hne]
    rw [hsame]
    exact iff_of_true hi (fun hg' => absurd hg' hg)

theorem isolated_endBy (hn : NoForeignStream s t) : Isolated (s.endBy t) :=
  isolated_of_ended h hi (currentWithout_eq_none hn) rfl rfl rfl

theorem isolated_closeBy (hn : NoForeignStream s t) : Isolated (s.closeBy t) :=
  isolated_of_ended h hi (currentWithout_eq_none hn) rfl rfl rfl

theorem isolated_releaseBy_iff {g : ℕ} (ht : (s.turns t).generation = some g) :
    Isolated (s.releaseBy t g) ↔
      (s.registry.generation = (s.turns t).generation → NoForeignStream s t) := by
  rw [ht]
  by_cases hg : s.registry.generation = some g
  · have hreg : (s.releaseBy t g).registry = s.registry.endStream := by
      show s.registry.releaseStream g = _
      rw [releaseStream, if_pos hg]
    constructor
    · intro hi' _
      refine noForeign_of_isolated hi' rfl (.inr ?_)
      rw [hreg]
      rfl
    · intro hn
      exact isolated_of_ended h hi (currentWithout_eq_none (hn hg)) (by rw [hreg]) rfl rfl
  · have hne : s.current ≠ some t := by
      intro hc
      obtain ⟨hgen, -⟩ := hi.stream t hc
      exact hg (hgen.trans ht)
    have hsame : s.releaseBy t g = s := by
      simp [TurnStreams.releaseBy, TurnStreams.currentWithout, releaseStream, hg, hne]
    rw [hsame]
    exact iff_of_true hi (fun hg' => absurd hg' hg)

end

theorem isolated_over_iff (hcur : s'.current = s.currentWithout t) :
    Isolated (s'.setPhase t .over) ↔ Isolated s' :=
  isolated_setPhase_iff fun hc => absurd rfl (currentWithout_eq_some.mp (hcur ▸ hc)).2

theorem isolated_move_iff {a : StreamAction E} (h : QueuesTracked s)
    (hi : Isolated s) (hm : StreamMove s a s') : Isolated s' ↔ TouchesOwnStream s a := by
  cases hm with
  | @start t ht =>
    have hbegun : Isolated ((s.begin t).setPhase t
        (.streaming s.registry.nextGeneration s.registry.nextQueue)) :=
      isolated_begin h hi ht rfl
    have htracked : QueuesTracked ((s.begin t).setPhase t
        (.streaming s.registry.nextGeneration s.registry.nextQueue)) :=
      queues_tracked_begin h ht (by simp)
    have hsent : 0 = (s.sent t).length := by rw [h.unsent t (.inl ht)]; rfl
    exact iff_of_true ((isolated_listen_iff htracked hbegun hsent).mpr rfl) trivial
  | reserve ht _ => exact iff_of_true (isolated_begin h hi ht rfl) trivial
  | @refuse t ht _ =>
    refine iff_of_true ((isolated_setPhase_iff ?_).mpr hi) trivial
    exact fun hc => absurd hc (h.begun t ht).1
  | @release t g ht =>
    have hgen : (s.turns t).generation = some g := by rw [ht]; rfl
    exact (isolated_over_iff (s := s) rfl).trans (isolated_releaseBy_iff h hi hgen)
  | @handOver t g ht =>
    have hsent : 0 = (s.sent t).length := by rw [h.unsent t (.inr ⟨g, ht⟩)]; rfl
    refine (isolated_setPhase_iff fun _ => ?_).trans (isolated_listen_iff h hi hsent)
    show some g = (s.turns t).generation
    rw [ht]
    rfl
  | @push t g q e ht =>
    have hgen : (s.turns t).generation = some g := by rw [ht]; rfl
    exact isolated_pushBy_iff h hi hgen
  | @finish t g q ht =>
    refine (isolated_over_iff (s := s) rfl).trans ⟨fun hi' => ?_, isolated_closeBy h hi⟩
    exact noForeign_of_isolated hi' rfl (.inl rfl)
  | @fail t g q e ht =>
    have hgen : (s.turns t).generation = some g := by rw [ht]; rfl
    have hcur := currentWithout_endBy (s.pushBy t g e) t
    refine (isolated_over_iff (s := s) hcur).trans ⟨fun hi' => ?_, fun hn => ?_⟩
    · exact noForeign_of_isolated hi' hcur (.inl rfl)
    · have hpushed := (isolated_pushBy_iff (e := e) h hi hgen).mpr fun _ => hn
      have htracked := queues_tracked_pushBy h ht e
      have hended : Isolated ((s.pushBy t g e).endBy t) := isolated_endBy htracked hpushed hn
      -- the second `end_stream` and the cleanup find no current turn
      have hnone : ((s.pushBy t g e).endBy t).current = none :=
        currentWithout_eq_none (s := s.pushBy t g e) hn
      refine isolated_closeBy (queues_tracked_endBy htracked t) hended ?_
      intro t' hc
      rw [hnone] at hc
      cases hc
  | @throw t g q e ht =>
    have hgen : (s.turns t).generation = some g := by rw [ht]; rfl
    refine (isolated_over_iff (s := s) rfl).trans ⟨fun hi' => ?_, fun hn => ?_⟩
    · exact noForeign_of_isolated (s := s) hi' rfl (.inl rfl)
    · have hpushed := (isolated_pushBy_iff (e := e) h hi hgen).mpr fun _ => hn
      exact isolated_closeBy (queues_tracked_pushBy h ht e) hpushed hn
  | disconnect _ => exact iff_of_true (isolated_drop h hi _) trivial
  | reconnect _ _ | resume _ => exact iff_of_true (isolated_replay h hi _ _ _ _) trivial
  | noStream _ _ | takeEvent _ _ | takeEnd _ _ | leaveReplay _ =>
    exact iff_of_true (isolated_setClient hi _ _) trivial
  | leaveLive _ => exact iff_of_true (isolated_setClient (isolated_drop h hi _) _ _) trivial

/-- Over every interleaving of the turns of one session, the streams stay apart in every
state reached if and only if every consumer touches only its own stream. -/
theorem streams_isolated_iff (as : List (StreamAction E)) :
    GuardedRuns.Always streamStep Isolated .new as ↔
      GuardedRuns.Guarded streamStep TouchesOwnStream .new as :=
  GuardedRuns.always_iff_guarded
    (fun _ _ _ h _ _ hs => queues_tracked_move h (stream_move_of_step hs))
    (fun _ _ _ h hi hs => isolated_move_iff h hi (stream_move_of_step hs))
    queues_tracked_new isolated_new

/-! One stream alone: nothing but the turn itself can end it. -/

def StreamAction.turn : StreamAction E → Option ℕ
  | .start t | .reserve t | .release t | .handOver t | .push t _ => some t
  | .finish t | .fail t _ | .throw t _ | .disconnect t => some t
  | _ => none

/-- No other turn has begun, and a reservation of `t` is current. -/
structure OnlyTurn (t : ℕ) (s : TurnStreams E) : Prop where
  noForeign : NoForeignStream s t
  reserved : ∀ u g, s.turns u = .reserved g → s.current = some u
  streaming : ∀ u g q, s.turns u = .streaming g q → u = t

theorem only_turn_new (t : ℕ) : OnlyTurn t (TurnStreams.new : TurnStreams E) := by
  constructor <;> simp [NoForeignStream, TurnStreams.new]

theorem only_turn_of (h : OnlyTurn t s)
    (hcur : ∀ u, s'.current = some u → s.current = some u ∨ u = t)
    (hother : ∀ u, u ≠ t → s'.turns u = s.turns u)
    (hres : ∀ g, s'.turns t = .reserved g → s'.current = some t) : OnlyTurn t s' := by
  refine ⟨fun u hc => (hcur u hc).elim (h.noForeign u) id, fun u g hu => ?_, fun u g q hu => ?_⟩
  · by_cases hut : u = t
    · subst hut
      exact hres g hu
    · rw [hother u hut] at hu
      exact absurd (h.noForeign u (h.reserved u g hu)) hut
  · by_contra hut
    rw [hother u hut] at hu
    exact hut (h.streaming u g q hu)

section

variable {t : ℕ} {s s' : TurnStreams E} {a : StreamAction E} (h : OnlyTurn t s)
  (ha : ∀ u, a.turn = some u → u = t) (hm : StreamMove s a s')
include h ha hm

theorem only_turn_move : OnlyTurn t s' := by
  have hother : ∀ p u, u ≠ t → (Function.update s.turns t p) u = s.turns u :=
    fun p u hut => Function.update_of_ne hut _ _
  -- a turn that ends its stream is over, so it holds no reservation
  have hover : ∀ g, (Function.update s.turns t TurnPhase.over) t ≠ .reserved g := by simp
  cases hm with
  | start _ | reserve _ _ =>
    cases ha _ rfl
    exact only_turn_of h (fun u hc => .inr (Option.some.inj hc).symm) (hother _)
      fun _ _ => rfl
  | refuse _ _ =>
    cases ha _ rfl
    exact only_turn_of h (fun _ => .inl) (hother _) fun g hg => absurd hg (hover g)
  | release _ | finish _ | throw _ =>
    cases ha _ rfl
    exact only_turn_of h (fun _ hc => .inl (current_of_currentWithout hc)) (hother _)
      fun g hg => absurd hg (hover g)
  | handOver _ =>
    cases ha _ rfl
    refine only_turn_of h (fun _ => .inl) (hother _) fun g hg => ?_
    simp [TurnStreams.setPhase] at hg
  | push _ => exact ⟨h.noForeign, h.reserved, h.streaming⟩
  | @fail _ g q e _ =>
    cases ha _ rfl
    refine only_turn_of h (fun u hc => .inl ?_) (hother _) fun g hg => absurd hg (hover g)
    have hended : ((s.pushBy t g e).endBy t).current = some u := current_of_currentWithout hc
    exact current_of_currentWithout hended
  | reconnect _ _ =>
    cases s.registry.getBufferedEvents <;> exact ⟨h.noForeign, h.reserved, h.streaming⟩
  | @resume c rest _ => cases rest <;> exact ⟨h.noForeign, h.reserved, h.streaming⟩
  | _ => exact ⟨h.noForeign, h.reserved, h.streaming⟩

theorem touches_own_of_only_turn :
    TouchesOwnStream s a := by
  cases hm with
  | release _ | push _ =>
    cases ha _ rfl
    exact fun _ => h.noForeign
  | handOver ht => exact h.reserved _ _ ht
  | finish _ | fail _ | throw _ =>
    cases ha _ rfl
    exact h.noForeign
  | _ => trivial

end

theorem one_turn_touches_own (t : ℕ) {as : List (StreamAction E)}
    (has : ∀ a ∈ as, ∀ u, a.turn = some u → u = t) :
    GuardedRuns.Guarded streamStep TouchesOwnStream .new as := by
  suffices hrun : ∀ s : TurnStreams E, OnlyTurn t s →
      GuardedRuns.Guarded streamStep TouchesOwnStream s as from hrun _ (only_turn_new t)
  induction as with
  | nil => exact fun _ _ => trivial
  | cons a as ih =>
    intro s h s' hs
    have hm := stream_move_of_step hs
    have ha := has a List.mem_cons_self
    refine ⟨touches_own_of_only_turn h ha hm, ?_⟩
    exact ih (fun b hb => has b (List.mem_cons_of_mem a hb)) s' (only_turn_move h ha hm)

def overlappingTurns : List (StreamAction Nat) := [.start 0, .start 1, .finish 0]

/-- The first consumer has removed the subscribers of the second turn, which runs on. -/
theorem older_turn_empties_newer_stream :
    ¬ ∀ as : List (StreamAction Nat), GuardedRuns.Always streamStep Isolated .new as := by
  intro h
  have hlast := GuardedRuns.always_last (h overlappingTurns) rfl
  obtain ⟨-, -, -, subs, hsubs, -⟩ := hlast.stream 1 rfl
  cases hsubs

end WittyService
