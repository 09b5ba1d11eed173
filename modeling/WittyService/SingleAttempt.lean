import WittyService.ProvisioningAttempts

/-! When a channel and owner have at most one attempt that waits and has not expired. -/
namespace WittyService

open GuardedRuns

namespace ProvisioningFlow

variable {s s' t : ProvisioningFlow} {k id : Nat} {attempt : Attempt}

/-- No two attempts of one channel and owner wait without having expired. -/
def AtMostOneLive (s : ProvisioningFlow) : Prop :=
  ∀ (id id' : Nat) (attempt attempt' : Attempt), s.attempts[id]? = some attempt →
    s.attempts[id']? = some attempt' → s.Live attempt → s.Live attempt' →
    attempt.key = attempt'.key → id = id'

/-- An attempt that becomes live finds none for its channel and owner: the one a `begin` stores,
or one that expired while the platform was asked and now gets more time. -/
def CheckStillHolds (s : ProvisioningFlow) : ProvisioningAction → Prop
  | .began k (.session session) =>
    match s.calls[k]? with
    | some (.beginning channel ownerRef _) =>
      s.now < session.expiresAt → s.findWaiting (channel, ownerRef) = none
    | _ => True
  | .polled k (.waiting state writable _ expiresAt) =>
    match s.calls[k]? with
    | some (.polling _ attempt) =>
      (state = none ∨ writable = true) → ¬ s.Live attempt →
        s.now < expiresAt.getD attempt.expiresAt → s.findWaiting attempt.key = none
    | _ => True
  | _ => True

theorem findWaiting_eq_none {key : ProvisioningKey} : s.findWaiting key = none ↔
    ∀ (id : Nat) (attempt : Attempt), s.attempts[id]? = some attempt → attempt.key = key →
      ¬ s.Live attempt := by
  unfold findWaiting
  rw [List.find?_eq_none]
  constructor
  · intro h id attempt hrow hkey hlive
    obtain ⟨hlt, -⟩ := List.getElem?_eq_some_iff.mp hrow
    refine h id (List.mem_reverse.mpr (List.mem_range.mpr hlt)) ?_
    rw [hrow, Option.any_some]
    exact decide_eq_true ⟨hkey, hlive⟩
  · intro h id _ hany
    obtain ⟨attempt, hrow, hlive⟩ := (Option.any_eq_true _ _).mp hany
    obtain ⟨hkey, hlive⟩ := of_decide_eq_true hlive
    exact h id attempt hrow hkey hlive

structure Dwindles (s s' : ProvisioningFlow) : Prop where
  later : s.now ≤ s'.now
  rows : ∀ (id : Nat) (attempt : Attempt), s'.attempts[id]? = some attempt →
    attempt.status = .waiting → s.attempts[id]? = some attempt

theorem Dwindles.of_attempts (hlater : s.now ≤ s'.now) (hrows : s'.attempts = s.attempts) :
    Dwindles s s' where
  later := hlater
  rows _ _ hrow _ := hrows ▸ hrow

theorem Dwindles.leave {change : Attempt → Attempt} (hlater : s.now ≤ t.now)
    (hrows : t.attempts = s.attempts) (hchange : ∀ row, (change row).status ≠ .waiting)
    (call : ProvisioningCall) : Dwindles s ((t.leave id attempt change).setCall k call) where
  later := by
    rw [setCall, leave_now]
    exact hlater
  rows i row hrow hwaiting := by
    rw [setCall, leave_attempts, hrows, List.getElem?_modify] at hrow
    obtain ⟨before, hbefore, rfl⟩ := Option.map_eq_some_iff.mp hrow
    split_ifs at hwaiting ⊢ with heq
    · exact absurd hwaiting (hchange before)
    · exact hbefore

theorem atMostOneLive_of_before (hs : s.AtMostOneLive)
    (h : ∀ (i : Nat) (row : Attempt), s'.attempts[i]? = some row → s'.Live row →
      ∃ before : Attempt, s.attempts[i]? = some before ∧ s.Live before ∧ before.key = row.key) :
    s'.AtMostOneLive := by
  intro i i' row row' hrow hrow' hlive hlive' hkey
  obtain ⟨before, hbefore, hbeforeLive, heq⟩ := h i row hrow hlive
  obtain ⟨before', hbefore', hbeforeLive', heq'⟩ := h i' row' hrow' hlive'
  refine hs i i' before before' hbefore hbefore' hbeforeLive hbeforeLive' ?_
  exact heq.trans (hkey.trans heq'.symm)

theorem Dwindles.atMostOneLive (h : Dwindles s s') (hs : s.AtMostOneLive) :
    s'.AtMostOneLive := by
  refine atMostOneLive_of_before hs fun i row hrow hlive => ?_
  have hbefore : s.Live row := ⟨hlive.1, Int.lt_of_le_of_lt h.later hlive.2⟩
  exact ⟨row, h.rows i row hrow hlive.1, hbefore, rfl⟩

theorem Dwindles.fail (errorCode : Option String) :
    Dwindles s ((s.fail id attempt errorCode).setCall k .ended) := by
  refine .leave (Int.le_refl _) rfl ?_ _
  exact fun _ => nofun

theorem Dwindles.enter (op : LockedOp) : Dwindles s (s.enter k id op) := by
  have hsame (s' : ProvisioningFlow) (hnow : s'.now = s.now) (hrows : s'.attempts = s.attempts) :
      Dwindles s s' := .of_attempts (Int.le_of_eq hnow.symm) hrows
  cases op with
  | poll force =>
    unfold ProvisioningFlow.enter pollLocked
    cases s.attempts[id]? with
    | none => exact hsame _ rfl rfl
    | some attempt =>
      dsimp only
      split_ifs
      · exact hsame _ rfl rfl
      · refine .leave (Int.le_refl _) rfl ?_ _
        exact fun _ => nofun
      · exact hsame _ rfl rfl
      · exact hsame _ rfl rfl
  | cancel =>
    unfold ProvisioningFlow.enter cancelLocked
    cases s.attempts[id]? with
    | none => exact hsame _ rfl rfl
    | some attempt =>
      dsimp only
      split_ifs
      · exact hsame _ rfl rfl
      · refine .leave (Int.le_refl _) rfl ?_ _
        exact fun _ => nofun

theorem Dwindles.applyOutcome {outcome : ProvisioningOutcome}
    (h : ∀ state writable qrContent expiresAt,
      outcome ≠ .waiting state writable qrContent expiresAt) :
    Dwindles s (s.applyOutcome k id attempt outcome) := by
  cases outcome with
  | waiting state writable qrContent expiresAt => exact absurd rfl (h _ _ _ _)
  | expired errorCode =>
    refine .leave (Int.le_refl _) rfl ?_ _
    exact fun _ => nofun
  | succeeded credentials errorCode persistence =>
    unfold ProvisioningFlow.applyOutcome
    dsimp only
    split_ifs
    · exact .fail _
    · cases persistence with
      | stored =>
        refine .leave (t := s.addInstance id attempt true) (Int.le_refl s.now) rfl ?_ _
        exact fun _ => nofun
      | refused errorCode => exact .fail _
      | rolledBack errorCode =>
        refine .leave (t := s.addInstance id attempt false) (Int.le_refl s.now) rfl ?_ _
        exact fun _ => nofun
  | failed errorCode | raises => exact .fail _

theorem atMostOneLive_iff_of_new (hs : s.AtMostOneLive) {row : Attempt}
    (hnow : s'.now = s.now) (hrows : ∀ i : Nat, s'.attempts[i]? =
      if i = id then some row else s.attempts[i]?)
    (hbefore : ∀ before : Attempt, s.attempts[id]? = some before → ¬ s.Live before) :
    s'.AtMostOneLive ↔ (s.Live row → s.findWaiting row.key = none) := by
  have hlive_iff (row : Attempt) : s'.Live row ↔ s.Live row := by rw [Live, Live, hnow]
  have hrow : s'.attempts[id]? = some row := (hrows id).trans (if_pos rfl)
  have hother {i : Nat} {other : Attempt} (hi : i ≠ id) :
      s'.attempts[i]? = some other ↔ s.attempts[i]? = some other := by
    rw [hrows, if_neg hi]
  constructor
  · intro h hlive
    refine findWaiting_eq_none.mpr fun i other hi hkey hotherLive => ?_
    by_cases heq : i = id
    · exact hbefore other (heq ▸ hi) hotherLive
    · refine heq (h i id other row ((hother heq).mpr hi) hrow ?_ ?_ hkey)
      · exact (hlive_iff other).mpr hotherLive
      · exact (hlive_iff row).mpr hlive
  · intro h i i' first second hfirst hsecond hfirstLive hsecondLive hkey
    rw [hlive_iff] at hfirstLive hsecondLive
    by_cases hi : i = id
    · by_cases hi' : i' = id
      · exact hi.trans hi'.symm
      · rw [hi, hrow] at hfirst
        cases hfirst
        have hnone := findWaiting_eq_none.mp (h hfirstLive)
        exact absurd hsecondLive (hnone i' second ((hother hi').mp hsecond) hkey.symm)
    · rw [hother hi] at hfirst
      by_cases hi' : i' = id
      · rw [hi', hrow] at hsecond
        cases hsecond
        have hnone := findWaiting_eq_none.mp (h hsecondLive)
        exact absurd hfirstLive (hnone i first hfirst hkey)
      · exact hs i i' first second hfirst ((hother hi').mp hsecond) hfirstLive hsecondLive hkey

theorem rotateState_eq_none {state : Option (List UInt8)} {writable : Bool}
    {expiresAt : Option Int} (href : attempt.stateRef = some id) :
    s.rotateState attempt state writable expiresAt = none ↔
      ¬ (state = none ∨ writable = true) := by
  unfold rotateState
  rw [href]
  cases state with
  | none => exact iff_of_false nofun fun h => h (.inl rfl)
  | some state => cases writable <;> simp

theorem atMostOneLive_iff_of_waiting (hs : s.AtMostOneLive) (hsettled : s.Settled)
    (hrow : s.attempts[id]? = some attempt) (hwaiting : attempt.status = .waiting)
    (state : Option (List UInt8)) (writable : Bool) (qrContent : Option String)
    (expiresAt : Option Int) :
    (s.applyOutcome k id attempt (.waiting state writable qrContent expiresAt)).AtMostOneLive ↔
      ((state = none ∨ writable = true) → ¬ s.Live attempt →
        s.now < expiresAt.getD attempt.expiresAt → s.findWaiting attempt.key = none) := by
  have href := hsettled.waiting id attempt hrow hwaiting
  unfold ProvisioningFlow.applyOutcome
  dsimp only
  cases hrotate : s.rotateState attempt state writable expiresAt with
  | none =>
    refine iff_of_true (Dwindles.fail _ |>.atMostOneLive hs) fun hkept => ?_
    exact absurd hkept ((rotateState_eq_none href).mp hrotate)
  | some rotated =>
    have hkept : state = none ∨ writable = true := by
      by_contra hlost
      rw [(rotateState_eq_none href).mpr hlost] at hrotate
      cases hrotate
    obtain ⟨file, rfl⟩ := rotateState_eq hrotate href
    have hrows := getElem?_modify_of hrow fun row : Attempt =>
      { row with
        qrContent := orText qrContent attempt.qrContent
        expiresAt := expiresAt.getD attempt.expiresAt }
    by_cases hlive : s.Live attempt
    · refine iff_of_true (atMostOneLive_of_before hs fun i row hi hrowLive => ?_) ?_
      · replace hi := (hrows i).symm.trans hi
        split_ifs at hi with heq
        · cases hi
          exact ⟨attempt, heq ▸ hrow, hlive, rfl⟩
        · exact ⟨row, hi, hrowLive, rfl⟩
      · exact fun _ hexpired => absurd hlive hexpired
    · refine (atMostOneLive_iff_of_new hs ?_ hrows ?_).trans ?_
      · rfl
      · intro before hbefore
        rw [hrow] at hbefore
        cases hbefore
        exact hlive
      · exact ⟨fun h _ _ hlater => h ⟨hwaiting, hlater⟩, fun h hnew => h hkept hlive hnew.2⟩

end ProvisioningFlow

open ProvisioningFlow

theorem provisioningStep_atMostOneLive {s s' : ProvisioningFlow} {a : ProvisioningAction}
    (h : provisioningStep s a = some s') (hsettled : s.Settled) (hlocked : s.Locked)
    (hs : s.AtMostOneLive) : s'.AtMostOneLive ↔ s.CheckStillHolds a := by
  cases a with
  | tick elapsed =>
    cases h
    have hdwindles : Dwindles s { s with now := s.now + elapsed } :=
      .of_attempts (Int.le_add_of_nonneg_right (Int.natCast_nonneg elapsed)) rfl
    exact iff_of_true (hdwindles.atMostOneLive hs) trivial
  | restart =>
    cases h
    have hdwindles : Dwindles s s.restarted := .of_attempts (Int.le_refl _) rfl
    exact iff_of_true (hdwindles.atMostOneLive hs) trivial
  | begin channel ownerRef agentId =>
    cases h
    have hdwindles : Dwindles s (s.beginCall channel ownerRef agentId) := by
      obtain ⟨inflight, heq⟩ := s.findInflight_eq (channel, ownerRef)
      unfold beginCall
      cases hfind : s.findInflight (channel, ownerRef) with
      | mk found after =>
        obtain rfl : after = _ := (congrArg Prod.snd hfind).symm.trans heq
        cases found <;> exact .of_attempts (Int.le_refl _) rfl
    exact iff_of_true (hdwindles.atMostOneLive hs) trivial
  | began k outcome =>
    unfold provisioningStep at h
    dsimp only at h
    split at h
    · rename_i channel ownerRef agentId session hcall
      cases h
      simp only [CheckStillHolds, hcall]
      have hrows := store_attempts (s := s) channel ownerRef agentId session
      refine (atMostOneLive_iff_of_new hs ?_ hrows ?_).trans ?_
      · rfl
      · intro before hbefore
        rw [List.getElem?_eq_none (Nat.le_refl _)] at hbefore
        cases hbefore
      · exact ⟨fun h hlater => h ⟨rfl, hlater⟩, fun h hnew => h hnew.2⟩
    · cases h
      exact iff_of_true hs trivial
    · cases h
  | locked id op =>
    cases h
    have hdwindles : Dwindles s (s.lockedCall id op) := by
      unfold lockedCall
      split_ifs
      · exact .of_attempts (Int.le_refl _) rfl
      · have hentered : Dwindles (s.addCall (.queued id op))
            ((s.addCall (.queued id op)).enter s.calls.length id op) := .enter op
        exact ⟨hentered.later, hentered.rows⟩
    exact iff_of_true (hdwindles.atMostOneLive hs) trivial
  | lockFree k =>
    unfold provisioningStep at h
    dsimp only at h
    split at h
    · split_ifs at h
      cases h
      exact iff_of_true (Dwindles.enter _ |>.atMostOneLive hs) trivial
    · cases h
  | polled k outcome =>
    unfold provisioningStep at h
    dsimp only at h
    split at h
    · rename_i id attempt hcall
      cases h
      obtain ⟨hrow, hwaiting⟩ := hlocked.snapshot k id attempt hcall
      cases outcome with
      | waiting state writable qrContent expiresAt =>
        simp only [CheckStillHolds, hcall]
        exact atMostOneLive_iff_of_waiting hs hsettled hrow hwaiting _ _ _ _
      | expired | succeeded | failed | raises =>
        refine iff_of_true (Dwindles.applyOutcome ?_ |>.atMostOneLive hs) trivial
        exact fun _ _ _ _ => nofun
    · cases h
  | notified k =>
    unfold provisioningStep at h
    dsimp only at h
    split at h
    · cases h
      exact iff_of_true hs trivial
    · cases h
  | cancelCall k =>
    unfold provisioningStep at h
    dsimp only at h
    split_ifs at h
    cases h
    exact iff_of_true hs trivial

/-- In a run of calls there is never more than one live attempt of a channel and owner if and
only if every attempt that becomes live finds none then, whatever was checked before an await. -/
theorem at_most_one_live_iff (now : Int) (as : List ProvisioningAction) :
    Always provisioningStep AtMostOneLive (fresh now) as ↔
      Guarded provisioningStep CheckStillHolds (fresh now) as := by
  refine always_iff_guarded (J := fun s => s.Settled ∧ s.Locked) ?_ ?_ ?_ ?_
  · intro s a s' hj _ _ h
    obtain ⟨hsettled, hlocked, -⟩ := provisioningStep_kept h hj.1 hj.2
    exact ⟨hsettled, hlocked⟩
  · exact fun s a s' hj hs h => provisioningStep_atMostOneLive h hj.1 hj.2 hs
  · exact ⟨settled_fresh now, locked_fresh now⟩
  · exact fun _ _ _ _ h => nomatch h

/-- Two calls of `begin` check before either of them stores its attempt. -/
theorem two_begins_store_two_attempts :
    ¬ ∀ (now : Int) (as : List ProvisioningAction),
      Always provisioningStep AtMostOneLive (fresh now) as := by
  intro h
  have hlast := always_last (h 0 [.begin "qq" none none, .begin "qq" none none,
    .began 0 (.session ⟨"first", 60, 1, []⟩), .began 1 (.session ⟨"second", 60, 1, []⟩)]) rfl
  have heq := hlast 0 1 _ _ rfl rfl (by decide) (by decide) rfl
  exact absurd heq (by decide)

end WittyService
