import Mathlib.Data.List.Basic
import Mathlib.Tactic.SplitIfs
import WittyService.DshHarnesses

/-! Every harness is in one place until it is closed, once, and its address tells it from every
other harness that is alive. -/
namespace WittyService

open GuardedRuns

namespace DshHarnesses

variable {κ : Type} {s s' : DshHarnesses κ} {i k : Nat} {t : HarnessTurn}

/-- How often harness `k` is held: as the current one, retired, about to be closed, or closed. -/
def places (s : DshHarnesses κ) (k : Nat) : Nat :=
  (if s.current = some k then 1 else 0) + s.retired.countP (fun entry => entry.2 == k) +
    s.closers.countP (fun entry => entry.1 == k) + s.closes k

/-- What is asked of a state. A harness is closed at most once, and only when no turn has it
unless `close_harness` took it. One that is not the current one is closed, about to be closed, or
retired with a turn that will release it. The current one is built from the current configuration
unless that is being changed. An open one with a prompt has a drain, or the turn of the prompt is
about to start it. -/
structure Kept (s : DshHarnesses κ) : Prop where
  once : ∀ k, s.closes k + s.closers.countP (fun entry => entry.1 == k) ≤ 1
  unused : ∀ k, 0 < s.closes k + s.closers.countP (fun entry => entry.1 == k) →
    s.stopped k = false → s.users k = 0
  kept : ∀ k < s.created, s.current = some k ∨
    s.closes k + s.closers.countP (fun entry => entry.1 == k) = 1 ∨
      ((s.address k, k) ∈ s.retired ∧ 0 < s.users k)
  built : s.changing = 0 → ∀ k, s.current = some k → s.builtFrom k = s.config
  drained : ∀ k, s.prompted k = true → s.closes k = 0 → s.drained k = true ∨
    ∃ t ∈ s.turns, t.harness = k ∧ t.phase = .prompted

structure Tables (s : DshHarnesses κ) : Prop where
  place : ∀ k, s.places k = if k < s.created then 1 else 0
  known : ∀ t ∈ s.turns, t.harness < s.created
  apart : ∀ k k', s.IsAlive k → s.IsAlive k' → s.address k = s.address k' → k = k'
  refs : ∀ a, s.refs a = s.turns.countP fun t => t.isActive && s.address t.harness == a
  retired : ∀ a k, (a, k) ∈ s.retired → s.address k = a ∧ 0 < s.users k
  unused : ∀ k, 0 < s.closes k + s.closers.countP (fun entry => entry.1 == k) →
    s.stopped k = false → s.users k = 0
  built : s.changing = 0 → ∀ k, s.current = some k → s.builtFrom k = s.config
  drains : ∀ a ∈ s.drains, ∃ k < s.created, s.address k = a ∧ s.closes k = 0 ∧
    (k, true) ∉ s.closers ∧ s.drained k = true
  drained : ∀ k, s.prompted k = true → s.closes k = 0 → s.drained k = true ∨
    ∃ t ∈ s.turns, t.harness = k ∧ t.phase = .prompted

theorem Tables.kept (hs : s.Tables) : s.Kept where
  once k := by
    have h := hs.place k
    unfold places at h
    split_ifs at h <;> omega
  unused := hs.unused
  kept k hk := by
    have h := hs.place k
    rw [if_pos hk] at h
    unfold places at h
    by_cases hcurrent : s.current = some k
    · exact .inl hcurrent
    · rw [if_neg hcurrent] at h
      by_cases hretired : s.retired.countP (fun entry => entry.2 == k) = 0
      · exact .inr (.inl (by omega))
      · obtain ⟨⟨a, k'⟩, hmem, heq⟩ := List.countP_pos_iff.mp (Nat.pos_of_ne_zero hretired)
        obtain rfl : k' = k := eq_of_beq heq
        obtain ⟨haddress, husers⟩ := hs.retired a k' hmem
        exact .inr (.inr ⟨haddress ▸ hmem, husers⟩)
  built := hs.built
  drained := hs.drained

theorem countP_setPhase (hget : s.turns[i]? = some t) (phase : HarnessTurnPhase)
    (p : HarnessTurn → Bool) :
    (s.setPhase i t phase).turns.countP p + (if p t then 1 else 0) =
      s.turns.countP p + (if p { t with phase } then 1 else 0) := by
  obtain ⟨hi, hget⟩ := List.getElem?_eq_some_iff.mp hget
  have hpos : (if p t then 1 else 0) ≤ s.turns.countP p := by
    split_ifs with hp
    · exact List.countP_pos_iff.mpr ⟨t, hget ▸ List.getElem_mem hi, hp⟩
    · exact Nat.zero_le _
  rw [setPhase, List.countP_set hi, hget]
  omega

theorem users_pos_of_active (ht : t ∈ s.turns) (hactive : t.isActive = true) :
    0 < s.users t.harness :=
  List.countP_pos_iff.mpr ⟨t, ht, by rw [hactive, Bool.true_and]; exact beq_self_eq_true _⟩

theorem alive_of_active (hs : s.Tables) (ht : t ∈ s.turns) (hactive : t.isActive = true) :
    s.IsAlive t.harness :=
  ⟨hs.known t ht, .inr (users_pos_of_active ht hactive)⟩

theorem refs_eq_users (hs : s.Tables) (hk : s.IsAlive k) : s.refs (s.address k) = s.users k := by
  rw [hs.refs]
  refine List.countP_congr fun t ht => ?_
  rw [Bool.and_eq_true, Bool.and_eq_true]
  refine and_congr_right fun hactive => ?_
  rw [beq_iff_eq, beq_iff_eq]
  exact ⟨fun heq => hs.apart _ _ (alive_of_active hs ht hactive) hk heq, fun heq => heq ▸ rfl⟩

theorem alive_of_current (hs : s.Tables) (h : s.current = some k) :
    s.IsAlive k ∧ s.closes k = 0 ∧ s.closers.countP (fun entry => entry.1 == k) = 0 ∧
      s.retired.countP (fun entry => entry.2 == k) = 0 := by
  have hplace := hs.place k
  unfold places at hplace
  split_ifs at hplace with hk
  · exact ⟨⟨hk, .inl (by omega)⟩, by omega, by omega, by omega⟩
  · omega

theorem alive_of_retired (hs : s.Tables) {a : Nat} (h : (a, k) ∈ s.retired) :
    s.IsAlive k ∧ s.closes k = 0 ∧ s.closers.countP (fun entry => entry.1 == k) = 0 ∧
      s.current ≠ some k := by
  have hcount : 0 < s.retired.countP (fun entry => entry.2 == k) :=
    List.countP_pos_iff.mpr ⟨(a, k), h, beq_self_eq_true _⟩
  have hplace := hs.place k
  unfold places at hplace
  split_ifs at hplace with hcurrent hk hk
  · omega
  · omega
  · exact ⟨⟨hk, .inl (by omega)⟩, by omega, by omega, hcurrent⟩
  · omega

theorem tables_config (hs : s.Tables) (config : κ) {changing : Nat} (hchanging : 0 < changing) :
    Tables { s with config, changing } :=
  { hs with built := fun h => absurd h (Nat.ne_of_gt hchanging) }

theorem tables_ensure [DecidableEq κ] {address : Nat} {builtFrom : κ} (hs : s.Tables)
    (h : s.ensure address builtFrom = some s') : s'.Tables := by
  unfold ensure at h
  split at h
  · cases h
    exact hs
  next hnone =>
    split_ifs at h with hfree
    cases h
    obtain ⟨hconfig, hfree⟩ := hfree
    have hplace (k : Nat) : (if s.current = some k then 1 else 0) = 0 := by
      rw [hnone, if_neg nofun]
    have haddress {k : Nat} (hk : k < s.created) :
        Function.update s.address s.created address k = s.address k :=
      Function.update_of_ne (Nat.ne_of_lt hk) _ _
    refine ⟨fun k => ?_, fun t ht => Nat.lt_succ_of_lt (hs.known t ht), ?_, fun a => ?_,
      fun a k hmem => ?_, hs.unused, ?_, fun a ha => ?_, hs.drained⟩
    · have h := hs.place k
      unfold places at h ⊢
      rw [hplace] at h
      simp only [Option.some.injEq]
      by_cases hk : s.created = k
      · subst hk
        rw [if_neg (Nat.lt_irrefl _)] at h
        rw [if_pos rfl, if_pos (Nat.lt_succ_self _)]
        omega
      · split_ifs at h ⊢ <;> omega
    · -- only the new harness has the new address
      have hold {k : Nat} (hk : k ≠ s.created)
          (halive : IsAlive { s with
            created := s.created + 1
            address := Function.update s.address s.created address
            builtFrom := Function.update s.builtFrom s.created builtFrom
            current := some s.created } k) : s.IsAlive k :=
        ⟨by have h := halive.1; dsimp only at h; omega, halive.2⟩
      intro k k' hk hk' heq
      dsimp only at heq
      by_cases hnew : k = s.created <;> by_cases hnew' : k' = s.created
      · rw [hnew, hnew']
      · obtain hk' := hold hnew' hk'
        rw [hnew, Function.update_self, haddress hk'.1] at heq
        exact absurd heq.symm (hfree k' hk'.1 hk')
      · obtain hk := hold hnew hk
        rw [hnew', Function.update_self, haddress hk.1] at heq
        exact absurd heq (hfree k hk.1 hk)
      · obtain hk := hold hnew hk
        obtain hk' := hold hnew' hk'
        rw [haddress hk.1, haddress hk'.1] at heq
        exact hs.apart k k' hk hk' heq
    · rw [hs.refs]
      refine List.countP_congr fun t ht => ?_
      dsimp only
      rw [haddress (hs.known t ht)]
    · obtain ⟨hkey, husers⟩ := hs.retired a k hmem
      have hk := (alive_of_retired hs hmem).1.1
      exact ⟨(haddress hk).trans hkey, husers⟩
    · rintro hchanging k hk
      cases hk
      exact (Function.update_self _ _ _).trans (hconfig hchanging)
    · obtain ⟨k, hk, hkey, hrest⟩ := hs.drains a ha
      exact ⟨k, Nat.lt_succ_of_lt hk, (haddress hk).trans hkey, hrest⟩

theorem tables_detach (hs : s.Tables) (changing : Nat) : Tables { s with changing }.detach := by
  obtain hcurrent | ⟨k, hcurrent⟩ := Option.eq_none_or_eq_some s.current
  · have heq : detach { s with changing } = { s with changing } := by
      simp only [detach, hcurrent]
    rw [heq]
    exact { hs with built := fun _ k hk => nomatch hcurrent.symm.trans hk }
  · obtain ⟨halive, hopen, hclosers, hretired⟩ := alive_of_current hs hcurrent
    have hrefs := refs_eq_users hs halive
    have hplace (k' : Nat) : (if s.current = some k' then 1 else 0) = if k = k' then 1 else 0 := by
      simp [hcurrent]
    unfold detach
    simp only [hcurrent]
    split_ifs with hzero
    · refine { hs with
        place := fun k' => ?_
        unused := fun k' hclosing hstopped => ?_
        built := fun _ _ h => nomatch h
        drains := fun a ha => ?_ }
      · have h := hs.place k'
        unfold places at h ⊢
        rw [hplace] at h
        rw [if_neg nofun]
        rw [List.countP_cons]
        by_cases hk : k = k' <;>
          simp only [hk, beq_self_eq_true, beq_iff_eq, if_true, if_false] at h ⊢ <;> omega
      · rw [List.countP_cons] at hclosing
        by_cases hk : k = k'
        · subst hk
          change s.users k = 0
          rw [← hrefs]
          exact hzero
        · simp only [beq_iff_eq, hk, if_false] at hclosing
          exact hs.unused k' hclosing hstopped
      · obtain ⟨k', hk', hkey, hopen', hclosers', hdrained⟩ := hs.drains a ha
        refine ⟨k', hk', hkey, hopen', fun hmem => ?_, hdrained⟩
        exact hclosers' ((List.mem_cons.mp hmem).resolve_left nofun)
    · -- no other harness is retired under this address
      have hfilter : (s.retired.filter fun entry => entry.1 ≠ s.address k) = s.retired := by
        refine List.filter_eq_self.mpr fun entry hmem => decide_eq_true fun heq => ?_
        obtain ⟨a, k'⟩ := entry
        have hk' := alive_of_retired hs hmem
        obtain rfl := hs.apart k' k hk'.1 halive ((hs.retired a k' hmem).1.trans heq)
        exact hk'.2.2.2 hcurrent
      rw [hfilter]
      refine { hs with
        place := fun k' => ?_
        retired := fun a k' hmem => ?_
        built := fun _ _ h => nomatch h }
      · have h := hs.place k'
        unfold places at h ⊢
        rw [hplace] at h
        rw [if_neg nofun]
        rw [List.countP_cons]
        by_cases hk : k = k' <;>
          simp only [hk, beq_self_eq_true, beq_iff_eq, if_true, if_false] at h ⊢ <;> omega
      · obtain heq | hmem := List.mem_cons.mp hmem
        · cases heq
          refine ⟨rfl, ?_⟩
          change 0 < s.users k
          rw [← hrefs]
          exact Nat.pos_of_ne_zero hzero
        · exact hs.retired a k' hmem

theorem countP_close (k : Nat) :
    s.close.closers.countP (fun entry => entry.1 == k) =
      s.retired.countP (fun entry => entry.2 == k) + (if s.current = some k then 1 else 0) +
        s.closers.countP (fun entry => entry.1 == k) := by
  have hcurrent : s.current.toList.countP (· == k) = if s.current = some k then 1 else 0 := by
    cases s.current with
    | none => rfl
    | some k' =>
      simp
  unfold close
  rw [List.countP_append, List.countP_map, List.countP_append, List.countP_map, ← hcurrent]
  rfl

theorem tables_close (hs : s.Tables) : s.close.Tables := by
  have htaken {k : Nat} (h : s.close.stopped k = false) :
      s.stopped k = false ∧ s.retired.countP (fun entry => entry.2 == k) = 0 ∧
        s.current ≠ some k := by
    obtain ⟨hstopped, htaken⟩ := Bool.or_eq_false_iff.mp h
    have hnot : k ∉ s.retired.map Prod.snd ++ s.current.toList := fun hmem => by
      rw [List.contains_iff_mem.mpr hmem] at htaken
      cases htaken
    rw [List.mem_append, not_or] at hnot
    refine ⟨hstopped, List.countP_eq_zero.mpr fun entry hmem heq => hnot.1 ?_, fun heq => ?_⟩
    · exact List.mem_map.mpr ⟨entry, hmem, eq_of_beq heq⟩
    · exact hnot.2 (Option.mem_toList.mpr heq)
  refine { hs with
    place := fun k => ?_
    retired := fun a k hmem => absurd hmem List.not_mem_nil
    unused := fun k hclosing hstopped => ?_
    built := fun _ _ h => nomatch h
    drains := fun a ha => ?_ }
  · have h := hs.place k
    have hcount := countP_close (s := s) k
    unfold places at h ⊢
    change 0 + 0 + s.close.closers.countP _ + s.closes k = _
    change _ = if k < s.created then 1 else 0
    omega
  · obtain ⟨hstopped, hretired, hcurrent⟩ := htaken hstopped
    rw [countP_close, hretired, if_neg hcurrent] at hclosing
    refine hs.unused k ?_ hstopped
    change 0 < s.closes k + _ at hclosing
    omega
  · obtain ⟨k, hk, hkey, hopen, hclosers, hdrained⟩ := hs.drains a ha
    refine ⟨k, hk, hkey, hopen, fun hmem => ?_, hdrained⟩
    obtain hmem | hmem := List.mem_append.mp hmem
    · obtain ⟨_, -, heq⟩ := List.mem_map.mp hmem
      cases heq
    · exact hclosers hmem

theorem tables_acquires (hs : s.Tables) (hcurrent : s.current = some k) :
    Tables { s with
      refs := Function.update s.refs (s.address k) (s.refs (s.address k) + 1)
      turns := s.turns ++ [{ harness := k }] } := by
  obtain ⟨halive, hopen, hclosers, hretired⟩ := alive_of_current hs hcurrent
  have husers (k' : Nat) : (s.turns ++ [({ harness := k } : HarnessTurn)]).countP
      (fun t => t.isActive && t.harness == k') = s.users k' + if k = k' then 1 else 0 := by
    simp [HarnessTurn.isActive, users]
  have hold {k' : Nat} (h : IsAlive { s with
      refs := Function.update s.refs (s.address k) (s.refs (s.address k) + 1)
      turns := s.turns ++ [{ harness := k }] } k') : s.IsAlive k' := by
    by_cases hk : k = k'
    · exact hk ▸ halive
    · refine ⟨h.1, h.2.imp_right fun hpos => ?_⟩
      refine Nat.lt_of_lt_of_eq hpos ((husers k').trans ?_)
      rw [if_neg hk, Nat.add_zero]
  refine { hs with
    known := fun t ht => ?_
    apart := fun k₁ k₂ h₁ h₂ heq => hs.apart k₁ k₂ (hold h₁) (hold h₂) heq
    refs := fun a => ?_
    retired := fun a k' hmem => ?_
    unused := fun k' hclosing hstopped => ?_
    drained := fun k' hprompted hopen' => ?_ }
  · obtain ht | ht := List.mem_append.mp ht
    · exact hs.known t ht
    · rw [List.mem_singleton.mp ht]
      exact halive.1
  · dsimp only
    rw [List.countP_append, List.countP_singleton, ← hs.refs, Function.update_apply]
    simp only [HarnessTurn.isActive, reduceCtorEq, ne_eq, not_false_eq_true, decide_true,
      Bool.true_and, beq_iff_eq]
    by_cases ha : a = s.address k
    · rw [if_pos ha, if_pos ha.symm, ha]
    · rw [if_neg ha, if_neg (Ne.symm ha), Nat.add_zero]
  · obtain ⟨hkey, hpos⟩ := hs.retired a k' hmem
    refine ⟨hkey, Nat.lt_of_lt_of_le hpos ?_⟩
    exact Nat.le_trans (Nat.le_add_right _ _) (Nat.le_of_eq (husers k').symm)
  · have hne : k ≠ k' := by
      rintro rfl
      change 0 < s.closes k + s.closers.countP (fun entry => entry.1 == k) at hclosing
      omega
    refine (husers k').trans ?_
    rw [if_neg hne, Nat.add_zero]
    exact hs.unused k' hclosing hstopped
  · refine (hs.drained k' hprompted hopen').imp_right ?_
    rintro ⟨t, ht, hrest⟩
    exact ⟨t, List.mem_append_left _ ht, hrest⟩

variable {phase : HarnessTurnPhase} {t' : HarnessTurn}

theorem mem_setPhase
    (h : t' ∈ (s.setPhase i t phase).turns) : t' ∈ s.turns ∨ t' = { t with phase } :=
  List.mem_or_eq_of_mem_set h

theorem mem_setPhase_of_ne (hget : s.turns[i]? = some t) (hmem : t' ∈ s.turns) (hne : t' ≠ t) :
    t' ∈ (s.setPhase i t phase).turns := by
  obtain ⟨j, hj⟩ := List.mem_iff_getElem?.mp hmem
  refine List.mem_iff_getElem?.mpr ⟨j, ?_⟩
  have hij : i ≠ j := by
    rintro rfl
    exact hne (Option.some.inj (hj.symm.trans hget))
  rw [setPhase, List.getElem?_set_ne hij]
  exact hj

theorem active_of_phase (h : t.phase ≠ .released) : t.isActive = true := decide_eq_true h

theorem countP_active_setPhase (hget : s.turns[i]? = some t) (ht : t.phase ≠ .released)
    (hphase : phase ≠ .released) (p : Nat → Bool) :
    (s.setPhase i t phase).turns.countP (fun t => t.isActive && p t.harness) =
      s.turns.countP fun t => t.isActive && p t.harness := by
  have h := countP_setPhase hget phase fun t => t.isActive && p t.harness
  rw [active_of_phase ht, active_of_phase (t := { t with phase }) hphase] at h
  exact Nat.add_right_cancel h

section

variable (hs : s.Tables) (hget : s.turns[i]? = some t)
include hs hget

theorem tables_setPhase (ht : t.phase ≠ .released)
    (phase : HarnessTurnPhase) (hphase : phase ≠ .released) {prompted : Nat → Bool}
    (hdrained : ∀ k, prompted k = true → s.closes k = 0 → s.drained k = true ∨
      ∃ t' ∈ (s.setPhase i t phase).turns, t'.harness = k ∧ t'.phase = .prompted) :
    Tables { s.setPhase i t phase with prompted } := by
  have husers (k : Nat) : (s.setPhase i t phase).users k = s.users k :=
    countP_active_setPhase hget ht hphase (· == k)
  refine { hs with
    known := fun t' ht' => ?_
    apart := fun k k' hk hk' heq => hs.apart k k' ⟨hk.1, ?_⟩ ⟨hk'.1, ?_⟩ heq
    refs := fun a => ?_
    retired := fun a k hmem => ?_
    unused := fun k hclosing hstopped => ?_
    drained := hdrained }
  · obtain ht' | rfl := mem_setPhase ht'
    · exact hs.known t' ht'
    · exact hs.known t (List.mem_of_getElem? hget)
  · exact hk.2.imp_right fun h => Nat.lt_of_lt_of_eq h (husers k)
  · exact hk'.2.imp_right fun h => Nat.lt_of_lt_of_eq h (husers k')
  · refine (hs.refs a).trans ?_
    exact (countP_active_setPhase hget ht hphase fun k => s.address k == a).symm
  · obtain ⟨hkey, hpos⟩ := hs.retired a k hmem
    exact ⟨hkey, Nat.lt_of_lt_of_eq hpos (husers k).symm⟩
  · exact (husers k).trans (hs.unused k hclosing hstopped)

theorem tables_prompts (ht : t.phase = .acquired) :
    Tables { s.setPhase i t .prompted with
      prompted := Function.update s.prompted t.harness true } := by
  have hne : t.phase ≠ .released := by
    rw [ht]
    exact nofun
  refine tables_setPhase hs hget hne .prompted nofun fun k hprompted hopen => ?_
  by_cases hk : k = t.harness
  · obtain ⟨hi, -⟩ := List.getElem?_eq_some_iff.mp hget
    exact .inr ⟨{ t with phase := .prompted }, List.mem_set hi _, hk.symm, rfl⟩
  · rw [Function.update_of_ne hk] at hprompted
    refine (hs.drained k hprompted hopen).imp_right ?_
    rintro ⟨t', ht', rfl, hphase⟩
    exact ⟨t', mem_setPhase_of_ne hget ht' fun heq => hk (heq ▸ rfl), rfl, hphase⟩

theorem tables_ensuresDrain (ht : t.phase = .prompted) (hopen : s.closes t.harness = 0)
    (hpopped : (t.harness, true) ∉ s.closers) :
    Tables ((s.setPhase i t .streaming).ensureDrain t.harness) := by
  have hne : t.phase ≠ .released := by
    rw [ht]
    exact nofun
  have hmem := List.mem_of_getElem? hget
  have halive := alive_of_active hs hmem (active_of_phase hne)
  have hold {k : Nat} (hk : k ≠ t.harness) (hprompted : s.prompted k = true)
      (hopen : s.closes k = 0) : s.drained k = true ∨
        ∃ t' ∈ (s.setPhase i t .streaming).turns, t'.harness = k ∧ t'.phase = .prompted := by
    refine (hs.drained k hprompted hopen).imp_right ?_
    rintro ⟨t', ht', rfl, hphase⟩
    exact ⟨t', mem_setPhase_of_ne hget ht' fun heq => hk (heq ▸ rfl), rfl, hphase⟩
  unfold ensureDrain
  split_ifs with hdrain
  · refine tables_setPhase hs hget hne .streaming nofun fun k hprompted hopen' => ?_
    by_cases hk : k = t.harness
    · -- the entry can only be that of this harness
      obtain ⟨k', hk', hkey, hopen', -, hdrained⟩ := hs.drains _ hdrain
      obtain rfl := hs.apart k' t.harness ⟨hk', .inl hopen'⟩ halive hkey
      exact .inl (hk ▸ hdrained)
    · exact hold hk hprompted hopen'
  · have hdrained {k : Nat} (h : s.drained k = true) :
        Function.update s.drained t.harness true k = true := by
      by_cases hk : k = t.harness
      · rw [hk, Function.update_self]
      · rw [Function.update_of_ne hk, h]
    refine tables_setPhase (s := { s with
      drains := s.address t.harness :: s.drains
      drained := Function.update s.drained t.harness true }) ?_ hget hne .streaming nofun
        fun k hprompted hopen' => ?_
    · refine { hs with
        drains := fun a ha => ?_
        drained := fun k hprompted hopen' => (hs.drained k hprompted hopen').imp_left hdrained }
      obtain rfl | ha := List.mem_cons.mp ha
      · exact ⟨t.harness, halive.1, rfl, hopen, hpopped, Function.update_self _ _ _⟩
      · obtain ⟨k, hk, hkey, hopen', hclosers, h⟩ := hs.drains a ha
        exact ⟨k, hk, hkey, hopen', hclosers, hdrained h⟩
    · by_cases hk : k = t.harness
      · exact .inl (hk ▸ Function.update_self _ _ _)
      · exact (hold hk hprompted hopen').imp_left hdrained

end

theorem users_setPhase_released (hget : s.turns[i]? = some t) (ht : t.phase ≠ .released) (k : Nat) :
    (s.setPhase i t .released).users k + (if t.harness = k then 1 else 0) = s.users k := by
  have h := countP_setPhase hget .released fun t => t.isActive && t.harness == k
  rw [active_of_phase ht] at h
  simp only [Bool.true_and, beq_iff_eq] at h
  exact h

theorem refs_setPhase_released (hs : s.Tables) (hget : s.turns[i]? = some t)
    (ht : t.phase ≠ .released) (a : Nat) :
    (s.setPhase i t .released).turns.countP (fun t => t.isActive && s.address t.harness == a) +
      (if s.address t.harness = a then 1 else 0) = s.refs a := by
  have h := countP_setPhase hget .released fun t => t.isActive && s.address t.harness == a
  rw [active_of_phase ht, ← hs.refs] at h
  simp only [Bool.true_and, beq_iff_eq] at h
  exact h

theorem release_of_retired (hlast : s.refs (s.address k) ≤ 1)
    (hretired : (s.retired.map Prod.fst).contains (s.address k) = true) :
    s.release k = { s with
      refs := Function.update s.refs (s.address k) 0
      retired := s.retired.filter fun entry => entry.1 ≠ s.address k
      closers := (k, false) :: s.closers } :=
  (if_pos hlast).trans (if_pos hretired)

theorem release_of_last (hlast : s.refs (s.address k) ≤ 1)
    (hretired : ¬ (s.retired.map Prod.fst).contains (s.address k) = true) :
    s.release k = { s with refs := Function.update s.refs (s.address k) 0 } :=
  (if_pos hlast).trans (if_neg hretired)

theorem release_of_others (hothers : ¬ s.refs (s.address k) ≤ 1) :
    s.release k =
      { s with refs := Function.update s.refs (s.address k) (s.refs (s.address k) - 1) } :=
  if_neg hothers

theorem harness_of_retired (hs : s.Tables) (hk : s.IsAlive k) {k' : Nat}
    (h : (s.address k, k') ∈ s.retired) : k' = k :=
  hs.apart k' k (alive_of_retired hs h).1 hk (hs.retired _ k' h).1

theorem countP_retired (hs : s.Tables) (hk : s.IsAlive k) (k' : Nat) :
    (s.retired.filter fun entry => entry.1 ≠ s.address k).countP (fun entry => entry.2 == k') =
      if k = k' then 0 else s.retired.countP fun entry => entry.2 == k' := by
  rw [List.countP_filter]
  split_ifs with heq
  · refine List.countP_eq_zero.mpr fun entry hmem h => ?_
    obtain ⟨hentry, hkey⟩ := Bool.and_eq_true_iff.mp h
    obtain ⟨a, k''⟩ := entry
    obtain rfl : k'' = k' := eq_of_beq hentry
    exact of_decide_eq_true hkey (heq ▸ (hs.retired a k'' hmem).1.symm)
  · refine List.countP_congr fun entry hmem => ?_
    rw [Bool.and_eq_true]
    refine and_iff_left_of_imp fun hentry => decide_eq_true fun hkey => heq ?_
    obtain ⟨a, k''⟩ := entry
    obtain rfl : k'' = k' := eq_of_beq hentry
    obtain rfl : a = s.address k := hkey
    exact (harness_of_retired hs hk hmem).symm

/-- What holds when turn `i` has left its harness, before the reference is given back. -/
structure Leaves (s : DshHarnesses κ) (i : Nat) (t : HarnessTurn) : Prop where
  alive : s.IsAlive t.harness
  pos : 0 < s.refs (s.address t.harness)
  users : ∀ k, (s.setPhase i t .released).users k + (if t.harness = k then 1 else 0) = s.users k
  known : ∀ t' ∈ (s.setPhase i t .released).turns, t'.harness < s.created
  apart : ∀ k k', k < s.created ∧ (s.closes k = 0 ∨ 0 < (s.setPhase i t .released).users k) →
    k' < s.created ∧ (s.closes k' = 0 ∨ 0 < (s.setPhase i t .released).users k') →
    s.address k = s.address k' → k = k'
  refs : ∀ refs, refs + 1 = s.refs (s.address t.harness) → ∀ a,
    Function.update s.refs (s.address t.harness) refs a =
      (s.setPhase i t .released).turns.countP fun t => t.isActive && s.address t.harness == a
  unused : ∀ k, 0 < s.closes k + s.closers.countP (fun entry => entry.1 == k) →
    s.stopped k = false → (s.setPhase i t .released).users k = 0
  drained : ∀ k, s.prompted k = true → s.closes k = 0 → s.drained k = true ∨
    ∃ t' ∈ (s.setPhase i t .released).turns, t'.harness = k ∧ t'.phase = .prompted

theorem Leaves.other (hl : s.Leaves i t) {k : Nat} (hk : t.harness ≠ k) :
    (s.setPhase i t .released).users k = s.users k := by
  rw [← hl.users k, if_neg hk, Nat.add_zero]

section

variable (hs : s.Tables)
include hs

theorem leaves_of_tables (hget : s.turns[i]? = some t)
    (ht : t.phase = .acquired ∨ t.phase = .streaming) : s.Leaves i t := by
  have hne : t.phase ≠ .released := by
    obtain ht | ht := ht <;> rw [ht] <;> exact nofun
  have hprompted : t.phase ≠ .prompted := by
    obtain ht | ht := ht <;> rw [ht] <;> exact nofun
  have hmem := List.mem_of_getElem? hget
  have halive := alive_of_active hs hmem (active_of_phase hne)
  have husers := users_setPhase_released hget hne
  have hle (k : Nat) : (s.setPhase i t .released).users k ≤ s.users k :=
    Nat.le.intro (husers k)
  refine ⟨halive, refs_eq_users hs halive ▸ users_pos_of_active hmem (active_of_phase hne), husers,
    fun t' ht' => ?_, fun k k' hk hk' heq => ?_, fun refs h a => ?_,
    fun k hclosing hstopped => ?_, fun k h hopen => ?_⟩
  · obtain ht' | rfl := mem_setPhase ht'
    · exact hs.known t' ht'
    · exact halive.1
  · exact hs.apart k k' ⟨hk.1, hk.2.imp_right fun h => Nat.lt_of_lt_of_le h (hle k)⟩
      ⟨hk'.1, hk'.2.imp_right fun h => Nat.lt_of_lt_of_le h (hle k')⟩ heq
  · have hcount := refs_setPhase_released hs hget hne a
    by_cases ha : a = s.address t.harness
    · subst ha
      rw [if_pos rfl] at hcount
      rw [Function.update_self]
      omega
    · rw [if_neg (Ne.symm ha)] at hcount
      rw [Function.update_of_ne ha]
      omega
  · exact Nat.eq_zero_of_le_zero (hs.unused k hclosing hstopped ▸ hle k)
  · refine (hs.drained k h hopen).imp_right ?_
    rintro ⟨t', ht', hharness, hphase⟩
    exact ⟨t', mem_setPhase_of_ne hget ht' fun heq => hprompted (heq ▸ hphase), hharness, hphase⟩

theorem tables_release_retired (hl : s.Leaves i t) (hlast : s.refs (s.address t.harness) ≤ 1)
    (hretired : (s.retired.map Prod.fst).contains (s.address t.harness) = true) :
    ((s.setPhase i t .released).release t.harness).Tables := by
  have hpos := hl.pos
  have heq := refs_eq_users hs hl.alive
  rw [release_of_retired (s := s.setPhase i t .released) hlast hretired]
  obtain ⟨⟨a, k'⟩, hentry, hkey⟩ := List.mem_map.mp (List.contains_iff_mem.mp hretired)
  obtain rfl : a = s.address t.harness := hkey
  obtain rfl := harness_of_retired hs hl.alive hentry
  obtain ⟨-, hopen, hclosers, hcurrent⟩ := alive_of_retired hs hentry
  have hzero : (s.setPhase i t .released).users t.harness = 0 := by
    have h := hl.users t.harness
    rw [if_pos rfl] at h
    omega
  refine ⟨fun k => ?_, hl.known, hl.apart, hl.refs _ (by omega), fun a k hmem' => ?_,
    fun k hclosing hstopped => ?_, hs.built, fun a ha => ?_, hl.drained⟩
  · have hplace := hs.place k
    have hcount := countP_retired hs hl.alive k
    change (if s.current = some k then 1 else 0) +
      (s.retired.filter fun entry => entry.1 ≠ s.address t.harness).countP _ +
        ((t.harness, false) :: s.closers).countP _ + s.closes k = if k < s.created then 1 else 0
    rw [hcount, List.countP_cons]
    by_cases hk : t.harness = k
    · subst hk
      rw [if_pos rfl, if_neg hcurrent, hclosers, hopen, if_pos hl.alive.1,
        if_pos (beq_self_eq_true _)]
    · rw [if_neg hk, if_neg (c := (t.harness == k) = true) fun h => hk (eq_of_beq h)]
      exact hplace
  · obtain ⟨hmem', hkey'⟩ := List.mem_filter.mp hmem'
    obtain ⟨haddress, hpos'⟩ := hs.retired a k hmem'
    refine ⟨haddress, Nat.lt_of_lt_of_eq hpos' (hl.other fun heq' => ?_).symm⟩
    exact of_decide_eq_true hkey' (haddress.symm.trans (heq' ▸ rfl))
  · by_cases hk : t.harness = k
    · exact hk ▸ hzero
    · rw [List.countP_cons, if_neg fun h => hk (eq_of_beq h), Nat.add_zero] at hclosing
      exact hl.unused k hclosing hstopped
  · obtain ⟨k, hk, hkey', hopen', hclosers', hdrain⟩ := hs.drains a ha
    refine ⟨k, hk, hkey', hopen', fun h => ?_, hdrain⟩
    exact hclosers' ((List.mem_cons.mp h).resolve_left nofun)

theorem tables_release_last (hl : s.Leaves i t) (hlast : s.refs (s.address t.harness) ≤ 1)
    (hretired : ¬ (s.retired.map Prod.fst).contains (s.address t.harness) = true) :
    ((s.setPhase i t .released).release t.harness).Tables := by
  have hpos := hl.pos
  rw [release_of_last (s := s.setPhase i t .released) hlast hretired]
  refine { hs with
    known := hl.known
    apart := hl.apart
    refs := hl.refs _ (by omega)
    retired := fun a k hmem' => ?_
    unused := hl.unused
    drained := hl.drained }
  obtain ⟨haddress, hpos'⟩ := hs.retired a k hmem'
  refine ⟨haddress, Nat.lt_of_lt_of_eq hpos' (hl.other fun heq' => hretired ?_).symm⟩
  refine List.contains_iff_mem.mpr (List.mem_map.mpr ⟨(a, k), hmem', ?_⟩)
  exact haddress.symm.trans (heq' ▸ rfl)

theorem tables_release_others (hl : s.Leaves i t) (hothers : ¬ s.refs (s.address t.harness) ≤ 1) :
    ((s.setPhase i t .released).release t.harness).Tables := by
  have heq := refs_eq_users hs hl.alive
  rw [release_of_others (s := s.setPhase i t .released) hothers]
  have hsub : s.refs (s.address t.harness) - 1 + 1 = s.refs (s.address t.harness) := by omega
  refine { hs with
    known := hl.known
    apart := hl.apart
    refs := hl.refs _ hsub
    retired := fun a k hmem' => ?_
    unused := hl.unused
    drained := hl.drained }
  obtain ⟨haddress, hpos'⟩ := hs.retired a k hmem'
  refine ⟨haddress, ?_⟩
  change 0 < (s.setPhase i t .released).users k
  by_cases hk : t.harness = k
  · have h := hl.users k
    subst hk
    rw [if_pos rfl] at h
    omega
  · rw [hl.other hk]
    exact hpos'

theorem tables_releases (hget : s.turns[i]? = some t)
    (ht : t.phase = .acquired ∨ t.phase = .streaming) :
    ((s.setPhase i t .released).release t.harness).Tables := by
  have hl := leaves_of_tables hs hget ht
  by_cases hlast : s.refs (s.address t.harness) ≤ 1
  · by_cases hretired : (s.retired.map Prod.fst).contains (s.address t.harness) = true
    · exact tables_release_retired hs hl hlast hretired
    · exact tables_release_last hs hl hlast hretired
  · exact tables_release_others hs hl hlast

theorem tables_pops (hmem : (k, false) ∈ s.closers) :
    Tables { s with
      drains := s.drains.filter (· ≠ s.address k)
      closers := (k, true) :: s.closers.erase (k, false) } := by
  have hcount (k' : Nat) : ((k, true) :: s.closers.erase (k, false)).countP
      (fun entry => entry.1 == k') = s.closers.countP fun entry => entry.1 == k' := by
    have hperm := List.perm_cons_erase hmem
    rw [hperm.countP_eq, List.countP_cons, List.countP_cons]
  refine { hs with
    place := fun k' => ?_
    unused := fun k' hclosing => hs.unused k' (Nat.lt_of_lt_of_eq hclosing ?_)
    drains := fun a ha => ?_ }
  · have h := hs.place k'
    unfold places at h ⊢
    rw [hcount]
    exact h
  · exact congrArg (s.closes k' + ·) (hcount k')
  · obtain ⟨ha, hne⟩ := List.mem_filter.mp ha
    obtain ⟨k', hk', hkey, hopen, hclosers, hdrained⟩ := hs.drains a ha
    refine ⟨k', hk', hkey, hopen, fun h => ?_, hdrained⟩
    obtain heq | h := List.mem_cons.mp h
    · cases heq
      exact of_decide_eq_true hne hkey.symm
    · exact hclosers (List.mem_of_mem_erase h)

theorem tables_closes (hmem : (k, true) ∈ s.closers) :
    Tables { s with
      closes := Function.update s.closes k (s.closes k + 1)
      closers := s.closers.erase (k, true) } := by
  have hcount (k' : Nat) : Function.update s.closes k (s.closes k + 1) k' +
      (s.closers.erase (k, true)).countP (fun entry => entry.1 == k') =
        s.closes k' + s.closers.countP fun entry => entry.1 == k' := by
    rw [(List.perm_cons_erase hmem).countP_eq, List.countP_cons]
    by_cases hk : k' = k
    · subst hk
      rw [Function.update_self, if_pos (beq_self_eq_true _)]
      omega
    · rw [Function.update_of_ne hk, if_neg fun h => hk (eq_of_beq h).symm]
      omega
  have hopen {k' : Nat} (h : Function.update s.closes k (s.closes k + 1) k' = 0) :
      s.closes k' = 0 := by
    by_cases hk : k' = k
    · subst hk
      rw [Function.update_self] at h
      cases h
    · rwa [Function.update_of_ne hk] at h
  refine { hs with
    place := fun k' => ?_
    apart := fun k₁ k₂ h₁ h₂ => hs.apart k₁ k₂ ⟨h₁.1, h₁.2.imp_left hopen⟩
      ⟨h₂.1, h₂.2.imp_left hopen⟩
    unused := fun k' hclosing => hs.unused k' (Nat.lt_of_lt_of_eq hclosing (hcount k'))
    drains := fun a ha => ?_
    drained := fun k' hprompted h => hs.drained k' hprompted (hopen h) }
  · have h := hs.place k'
    have h' := hcount k'
    unfold places at h ⊢
    dsimp only at h' ⊢
    omega
  · obtain ⟨k', hk', hkey, hopen', hclosers, hdrained⟩ := hs.drains a ha
    refine ⟨k', hk', hkey, ?_, fun h => hclosers (List.mem_of_mem_erase h), hdrained⟩
    have hne : k' ≠ k := by
      rintro rfl
      exact hclosers hmem
    exact (Function.update_of_ne hne _ _).trans hopen'

end

/-- The drain step of a turn comes before `close_harness` takes the drain of its harness away. -/
def DrainsInTime (s : DshHarnesses κ) : DshHarnessAction κ → Prop
  | .ensuresDrain i => ∀ t ∈ s.turns[i]?, s.closes t.harness = 0 ∧ (t.harness, true) ∉ s.closers
  | _ => True

instance (s : DshHarnesses κ) (a : DshHarnessAction κ) : Decidable (s.DrainsInTime a) := by
  cases a <;> unfold DrainsInTime <;> infer_instance

theorem tables_fresh (config : κ) : (fresh config).Tables where
  place k := (if_neg (Nat.not_lt_zero k)).symm
  known _ h := absurd h List.not_mem_nil
  apart k _ h _ _ := absurd h.1 (Nat.not_lt_zero k)
  refs _ := rfl
  retired _ _ h := absurd h List.not_mem_nil
  unused _ _ _ := rfl
  built _ _ h := nomatch h
  drains _ h := absurd h List.not_mem_nil
  drained _ h := nomatch h

variable [DecidableEq κ]

theorem tables_step {a : DshHarnessAction κ} (hs : s.Tables) (hg : s.DrainsInTime a)
    (h : s.step a = some s') : s'.Tables := by
  cases a with
  | ensureHarness address builtFrom => exact tables_ensure hs h
  | changes config =>
    cases h
    exact tables_config hs config (Nat.succ_pos _)
  | sets config =>
    obtain ⟨hchanging, h⟩ := Option.ite_none_left_eq_some.mp h
    cases h
    exact tables_config hs config (Nat.pos_of_ne_zero hchanging)
  | detaches =>
    obtain ⟨-, h⟩ := Option.ite_none_left_eq_some.mp h
    cases h
    exact tables_detach hs _
  | closeHarness =>
    cases h
    exact tables_close hs
  | acquires =>
    obtain ⟨k, hcurrent, rfl⟩ := Option.map_eq_some_iff.mp h
    exact tables_acquires hs hcurrent
  | prompts i =>
    obtain ⟨t, hget, h⟩ := Option.bind_eq_some_iff.mp h
    obtain ⟨hphase, h⟩ := Option.ite_none_right_eq_some.mp h
    cases h
    exact tables_prompts hs hget hphase
  | ensuresDrain i =>
    obtain ⟨t, hget, h⟩ := Option.bind_eq_some_iff.mp h
    obtain ⟨hphase, h⟩ := Option.ite_none_right_eq_some.mp h
    cases h
    obtain ⟨hopen, hpopped⟩ := hg t hget
    exact tables_ensuresDrain hs hget hphase hopen hpopped
  | releases i =>
    obtain ⟨t, hget, h⟩ := Option.bind_eq_some_iff.mp h
    obtain ⟨hphase, h⟩ := Option.ite_none_right_eq_some.mp h
    cases h
    exact tables_releases hs hget hphase
  | closes k popped =>
    cases popped with
    | false =>
      obtain ⟨hmem, h⟩ := Option.ite_none_right_eq_some.mp h
      cases h
      exact tables_pops hs hmem
    | true =>
      obtain ⟨hmem, h⟩ := Option.ite_none_right_eq_some.mp h
      cases h
      exact tables_closes hs hmem

/-- As long as no turn starts the drain of a harness that `close_harness` has taken it from, every
harness lives as it should. -/
theorem kept_of_drainsInTime {config : κ} {as : List (DshHarnessAction κ)}
    (h : Guarded step DrainsInTime (fresh config) as) : Always step Kept (fresh config) as :=
  always_mono (fun _ => Tables.kept)
    (always_of_guarded (fun _ _ _ => tables_step) (tables_fresh config) h)

/-- A harness that is replaced under a turn, and closed when the turn ends. -/
theorem kept_of_replaced : Always step Kept (fresh 0) [.ensureHarness 0 0, .acquires, .prompts 0,
    .ensuresDrain 0, .changes 1, .detaches, .ensureHarness 1 1, .releases 0, .closes 0 false,
    .closes 0 true] :=
  kept_of_drainsInTime (by decide +kernel)

/-- A harness is closed between the prompt of a turn and its drain step. The next one has its
address, and the drain entry that is left keeps it from a drain of its own. -/
theorem undrained_at_reused_address :
    ¬ ∀ (config : Nat) (as : List (DshHarnessAction Nat)), Always step Kept (fresh config) as := by
  intro h
  let actions : List (DshHarnessAction Nat) := [.ensureHarness 0 0, .acquires, .prompts 0,
    .closeHarness, .closes 0 false, .closes 0 true, .ensuresDrain 0, .releases 0,
    .ensureHarness 0 0, .acquires, .prompts 1, .ensuresDrain 1]
  obtain ⟨s, hs⟩ : ∃ s, run step (fresh 0) actions = some s :=
    Option.isSome_iff_exists.mp (by decide +kernel)
  have hlast := always_last (h 0 actions) hs
  cases hs
  obtain hdrained | ⟨t, ht, -, hphase⟩ := hlast.drained 1 rfl rfl
  · cases hdrained
  · have hstreaming : t.phase = .released ∨ t.phase = .streaming := by
      obtain rfl | ht := List.mem_cons.mp ht
      · exact .inl rfl
      · exact .inr (List.mem_singleton.mp ht ▸ rfl)
    rw [hphase] at hstreaming
    exact hstreaming.elim nofun nofun

end DshHarnesses

end WittyService
