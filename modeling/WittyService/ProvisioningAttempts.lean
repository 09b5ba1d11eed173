import WittyService.ProvisioningLocks

/-! What becomes of an attempt over all calls of `begin`, `poll` and `cancel`. -/
namespace WittyService

open GuardedRuns

namespace ProvisioningFlow

variable {s s' t : ProvisioningFlow} {k id : Nat} {attempt : Attempt}

structure Kept (s s' : ProvisioningFlow) : Prop where
  settled : s'.Settled
  locked : s'.Locked
  frozen : Frozen s s'

theorem Kept.of_attempts (hs : s.Settled) (hl : s'.Locked) (hrows : s'.attempts = s.attempts)
    (hfiles : ∀ ref, s'.files ref = s.files ref ∨ s'.files ref = none)
    (hinstances : s'.instances = s.instances) : Kept s s' where
  settled := settled_congr hs hrows hfiles hinstances
  locked := hl
  frozen := frozen_of_attempts hrows

theorem Kept.endCall (hs : s.Settled) (hl : s.Locked) (k : Nat) :
    Kept s (s.setCall k .ended) := by
  refine .of_attempts hs ?_ rfl (fun ref => .inl rfl) rfl
  refine hl.setCall rfl (fun i row hrow => .inl hrow) (fun i hi => ?_) fun i row h => ?_
  · cases hi
  · cases h

section

variable (hs : s.Settled) (hl : s.Locked) (honly : s.OnlyHolder k id)
  (hrow : s.attempts[id]? = some attempt) (hwaiting : attempt.status = .waiting)
include hs hl honly hrow hwaiting

section

variable {change : Attempt → Attempt} (hchange : ∀ row, (change row).status ≠ .waiting)
include hchange

theorem Kept.leave {call : ProvisioningCall} (hcall : call = .ended ∨ call = .notifying id)
    (hrows : t.attempts = s.attempts) (hfiles : t.files = s.files) (hcalls : t.calls = s.calls)
    (hcreated : ∀ i, t.created i = s.created i + if id = i then t.created id else 0)
    (honce : t.created id ≤ 1) : Kept s ((t.leave id attempt change).setCall k call) where
  settled := settled_congr (hs.leave hrow hwaiting hchange hrows hfiles hcreated honce) rfl
    (fun ref => .inl rfl) rfl
  locked := by
    refine hl.setCall (leave_calls.trans hcalls) (fun i row hi => ?_) (fun i hi => ?_)
      fun i row h => ?_
    · by_cases heq : i = id
      · rw [heq]
        exact .inr honly
      · rw [leave_attempts, hrows, getElem?_modify_of hrow, if_neg heq]
        exact .inl hi
    · obtain rfl | rfl := hcall
      · cases hi
      · rw [← of_decide_eq_true hi]
        exact honly
    · obtain rfl | rfl := hcall <;> cases h
  frozen := leave_frozen hrow hwaiting hrows

theorem Kept.leave_now :
    Kept s ((s.leave id attempt change).setCall k .ended) := by
  have hnone : s.created id = 0 := by
    refine hs.unprovided id fun row h => ?_
    rw [hrow] at h
    cases h
    exact hwaiting
  refine .leave hs hl honly hrow hwaiting hchange (.inl rfl) rfl rfl rfl (fun i => ?_) ?_
  · simp [hnone]
  · rw [hnone]
    exact Nat.zero_le 1

end

theorem Kept.leave_provided (kept : Bool)
    {change : Attempt → Attempt} (hchange : ∀ row, (change row).status ≠ .waiting)
    {call : ProvisioningCall} (hcall : call = .ended ∨ call = .notifying id) :
    Kept s (((s.addInstance id attempt kept).leave id attempt change).setCall k call) := by
  have hnone : s.created id = 0 := by
    refine hs.unprovided id fun row h => ?_
    rw [hrow] at h
    cases h
    exact hwaiting
  have hone : (s.addInstance id attempt kept).created id = 1 := by
    rw [created_addInstance, hnone, if_pos rfl]
  refine .leave hs hl honly hrow hwaiting hchange hcall rfl rfl rfl (fun i => ?_)
    (Nat.le_of_eq hone)
  rw [hone, created_addInstance]

end

theorem rotateState_eq {state : Option (List UInt8)} {writable : Bool} {expiresAt : Option Int}
    {rotated : ProvisioningFlow}
    (h : s.rotateState attempt state writable expiresAt = some rotated)
    (href : attempt.stateRef = some id) :
    ∃ file, rotated = { s with files := Function.update s.files id file } := by
  unfold rotateState at h
  rw [href] at h
  cases state with
  | none =>
    cases h
    exact ⟨s.files id, by rw [Function.update_eq_self]⟩
  | some state =>
    split_ifs at h
    exact ⟨_, (Option.some.inj h).symm⟩

section

variable (hs : s.Settled) (hl : s.Locked) (honly : s.OnlyHolder k id)
  (hrow : s.attempts[id]? = some attempt) (hwaiting : attempt.status = .waiting)
include hs hl honly hrow hwaiting

theorem Kept.extend {change : Attempt → Attempt} (hstatus : ∀ row, (change row).status = row.status)
    (href : ∀ row, (change row).stateRef = row.stateRef) (file : Option StateFile) :
    Kept s (({ s with files := Function.update s.files id file }.updateProvisioning id
      change).setCall k .ended) := by
  have hnew (i : Nat) : (({ s with files := Function.update s.files id file }.updateProvisioning id
      change).setCall k .ended).attempts[i]? =
      if i = id then some (change attempt) else s.attempts[i]? := getElem?_modify_of hrow change i
  refine ⟨⟨?_, ?_, ?_, hs.once⟩, ?_, ?_⟩
  · intro i row hi hrowWaiting
    rw [hnew] at hi
    split_ifs at hi with heq
    · cases hi
      rw [href, heq]
      exact hs.waiting id attempt hrow hwaiting
    · exact hs.waiting i row hi hrowWaiting
  · intro i row hi hleft
    rw [hnew] at hi
    split_ifs at hi with heq
    · cases hi
      exact absurd ((hstatus attempt).trans hwaiting) hleft
    · obtain ⟨hnone, hfile⟩ := hs.finished i row hi hleft
      exact ⟨hnone, (Function.update_of_ne heq ..).trans hfile⟩
  · intro i hi
    refine hs.unprovided i fun row hrow' => ?_
    by_cases heq : i = id
    · rw [heq, hrow] at hrow'
      cases hrow'
      exact hwaiting
    · exact hi row ((hnew i).trans ((if_neg heq).trans hrow'))
  · let t : ProvisioningFlow :=
      { s with files := Function.update s.files id file }.updateProvisioning id change
    refine hl.setCall (t := t) rfl (fun i row hi => ?_) (fun i hi => ?_) fun i row h => ?_
    · by_cases heq : i = id
      · rw [heq]
        exact .inr honly
      · exact .inl ((hnew i).trans ((if_neg heq).trans hi))
    · cases hi
    · cases h
  · intro i row hi hleft
    rw [hnew]
    split_ifs with heq
    · rw [heq, hrow] at hi
      cases hi
      exact absurd hwaiting hleft
    · exact hi

theorem Kept.fail (errorCode : Option String)
    : Kept s ((s.fail id attempt errorCode).setCall k .ended) :=
  .leave_now hs hl honly hrow hwaiting fun _ => nofun

theorem Kept.applyOutcome (outcome : ProvisioningOutcome)
    : Kept s (s.applyOutcome k id attempt outcome) := by
  cases outcome with
  | waiting state writable qrContent expiresAt =>
    unfold ProvisioningFlow.applyOutcome
    dsimp only
    cases hrotate : s.rotateState attempt state writable expiresAt with
    | none => exact .fail hs hl honly hrow hwaiting _
    | some rotated =>
      obtain ⟨file, rfl⟩ := rotateState_eq hrotate (hs.waiting id attempt hrow hwaiting)
      refine .extend hs hl honly hrow hwaiting ?_ ?_ file <;> exact fun _ => rfl
  | expired errorCode => exact .leave_now hs hl honly hrow hwaiting fun _ => nofun
  | succeeded credentials errorCode persistence =>
    unfold ProvisioningFlow.applyOutcome
    dsimp only
    split_ifs
    · exact .fail hs hl honly hrow hwaiting _
    · cases persistence with
      | stored =>
        refine .leave_provided hs hl honly hrow hwaiting true ?_ (.inr rfl)
        exact fun _ => nofun
      | refused errorCode => exact .fail hs hl honly hrow hwaiting _
      | rolledBack errorCode =>
        refine .leave_provided hs hl honly hrow hwaiting false ?_ (.inl rfl)
        exact fun _ => nofun
  | failed errorCode | raises => exact .fail hs hl honly hrow hwaiting _

end

theorem Kept.enter (hs : s.Settled) (hl : s.Locked) (honly : s.OnlyHolder k id) (op : LockedOp) :
    Kept s (s.enter k id op) := by
  cases op with
  | poll force =>
    unfold ProvisioningFlow.enter pollLocked
    cases hrow : s.attempts[id]? with
    | none => exact .endCall hs hl k
    | some attempt =>
      dsimp only
      split_ifs with hstatus hexpired hthrottled
      · exact .endCall hs hl k
      · refine .leave_now hs hl honly hrow (not_not.mp hstatus) ?_
        exact fun _ => nofun
      · exact .endCall hs hl k
      · let t : ProvisioningFlow :=
          { s with lastPollAt := Function.update s.lastPollAt id (some s.now) }
        refine .of_attempts hs ?_ rfl (fun ref => .inl rfl) rfl
        refine hl.setCall (t := t) rfl (fun i row hi => .inl hi) (fun i hi => ?_) fun i row h => ?_
        · rw [← of_decide_eq_true hi]
          exact honly
        · cases h
          exact ⟨hrow, not_not.mp hstatus⟩
  | cancel =>
    unfold ProvisioningFlow.enter cancelLocked
    cases hrow : s.attempts[id]? with
    | none => exact .endCall hs hl k
    | some attempt =>
      dsimp only
      split_ifs with hstatus
      · exact .endCall hs hl k
      · refine .leave_now hs hl honly hrow (not_not.mp hstatus) ?_
        exact fun _ => nofun

theorem Kept.addCall (hs : s.Settled) (hl : s.Locked) (hrows : t.attempts = s.attempts)
    (hfiles : ∀ ref, t.files ref = s.files ref ∨ t.files ref = none)
    (hinstances : t.instances = s.instances) (hcalls : t.calls = s.calls) {call : ProvisioningCall}
    (hholds : ∀ i, call.holds i = false) : Kept s (t.addCall call) :=
  .of_attempts hs (hl.addCall hcalls hrows hholds) hrows hfiles hinstances

theorem findInflight_eq (s : ProvisioningFlow) (key : ProvisioningKey) :
    ∃ inflight, (s.findInflight key).2 = { s with inflight := inflight } := by
  have hstored (s : ProvisioningFlow) :
      ∃ inflight, (s.findStored key).2 = { s with inflight := inflight } := by
    unfold findStored
    cases s.findWaiting key with
    | none => exact ⟨s.inflight, rfl⟩
    | some id => exact ⟨_, rfl⟩
  unfold findInflight
  cases s.inflight key with
  | none => exact hstored s
  | some id =>
    dsimp only
    split_ifs
    · exact ⟨s.inflight, rfl⟩
    · obtain ⟨inflight, h⟩ :=
        hstored { s with inflight := Function.update s.inflight key none }
      exact ⟨inflight, h⟩

theorem Kept.beginCall (hs : s.Settled) (hl : s.Locked) (channel : String)
    (ownerRef agentId : Option String) : Kept s (s.beginCall channel ownerRef agentId) := by
  have hfound : ∀ inflight call, (∀ i, ProvisioningCall.holds i call = false) →
      Kept s ({ s with inflight := inflight }.addCall call) := fun inflight _ hholds =>
    .addCall hs hl (t := { s with inflight := inflight }) rfl (fun ref => .inl rfl) rfl rfl hholds
  have hpruned : ∀ inflight call, (∀ i, ProvisioningCall.holds i call = false) →
      Kept s ({ s with inflight := inflight }.pruneExpired.addCall call) := by
    intro inflight call hholds
    refine .addCall hs hl (t := { s with inflight := inflight }.pruneExpired) rfl
      (fun ref => ?_) rfl rfl hholds
    change (s.files ref).filter _ = _ ∨ (s.files ref).filter _ = _
    cases s.files ref with
    | none => exact .inr rfl
    | some file =>
      rw [Option.filter_some]
      split_ifs
      · exact .inl rfl
      · exact .inr rfl
  unfold ProvisioningFlow.beginCall
  obtain ⟨inflight, heq⟩ := s.findInflight_eq (channel, ownerRef)
  cases hfind : s.findInflight (channel, ownerRef) with
  | mk found after =>
    obtain rfl : after = _ := (congrArg Prod.snd hfind).symm.trans heq
    cases found with
    | some id => exact hfound inflight _ fun i => rfl
    | none => exact hpruned inflight _ fun i => rfl

/-- The row that a successful `begin` adds. -/
def beganAttempt (s : ProvisioningFlow) (channel : String) (ownerRef agentId : Option String)
    (session : ProvisioningSession) : Attempt :=
  ⟨channel, ownerRef, agentId, .waiting, some session.qrContent, session.pollIntervalMs,
    session.expiresAt, some s.attempts.length, none⟩

theorem store_attempts (channel : String) (ownerRef agentId : Option String)
    (session : ProvisioningSession) (i : Nat) :
    (s.store channel ownerRef agentId session).attempts[i]? =
      if i = s.attempts.length then some (s.beganAttempt channel ownerRef agentId session)
      else s.attempts[i]? := by
  split_ifs with heq
  · rw [heq]
    exact List.getElem?_concat_length
  · obtain hlt | hle := Nat.lt_or_ge i s.attempts.length
    · exact List.getElem?_append_left hlt
    · rw [List.getElem?_eq_none hle]
      refine List.getElem?_eq_none ?_
      rw [store, List.length_append, List.length_singleton]
      omega

theorem Kept.store (hs : s.Settled) (hl : s.Locked) (channel : String)
    (ownerRef agentId : Option String) (session : ProvisioningSession) :
    Kept s ((s.store channel ownerRef agentId session).setCall k .ended) := by
  have hnew := store_attempts (s := s) channel ownerRef agentId session
  have hlast : ∀ (i : Nat) (row : Attempt), s.attempts[i]? = some row → i ≠ s.attempts.length := by
    intro i row hrow
    obtain ⟨hlt, -⟩ := List.getElem?_eq_some_iff.mp hrow
    exact Nat.ne_of_lt hlt
  refine ⟨⟨?_, ?_, ?_, hs.once⟩, ?_, ?_⟩
  · intro i row hi hwaiting
    replace hi := (hnew i).symm.trans hi
    split_ifs at hi with heq
    · cases hi
      rw [heq]
      rfl
    · exact hs.waiting i row hi hwaiting
  · intro i row hi hleft
    replace hi := (hnew i).symm.trans hi
    split_ifs at hi with heq
    · cases hi
      exact absurd rfl hleft
    · obtain ⟨href, hfile⟩ := hs.finished i row hi hleft
      exact ⟨href, (Function.update_of_ne heq ..).trans hfile⟩
  · intro i hi
    refine hs.unprovided i fun row hrow => hi row ?_
    exact (hnew i).trans ((if_neg (hlast i row hrow)).trans hrow)
  · refine hl.setCall (t := s.store channel ownerRef agentId session) rfl (fun i row hi => .inl ?_)
      (fun i hi => ?_) fun i row h => ?_
    · exact (hnew i).trans ((if_neg (hlast i row hi)).trans hi)
    · cases hi
    · cases h
  · intro i row hi _
    exact (hnew i).trans ((if_neg (hlast i row hi)).trans hi)

end ProvisioningFlow

open ProvisioningFlow

variable (now : Int)

theorem settled_fresh : (fresh now).Settled := by
  constructor <;> simp [fresh, created]

theorem locked_fresh : (fresh now).Locked := by
  constructor <;> simp [fresh]

theorem provisioningStep_kept {s s' : ProvisioningFlow} {a : ProvisioningAction}
    (h : provisioningStep s a = some s') (hs : s.Settled) (hl : s.Locked) : Kept s s' := by
  cases a with
  | tick elapsed =>
    cases h
    have hlocked : Locked { s with now := s.now + elapsed } := ⟨hl.alone, hl.snapshot⟩
    exact .of_attempts hs hlocked rfl (fun ref => .inl rfl) rfl
  | restart =>
    cases h
    have hlocked : Locked s.restarted := by
      constructor <;> simp [restarted]
    exact .of_attempts hs hlocked rfl (fun ref => .inl rfl) rfl
  | begin channel ownerRef agentId =>
    cases h
    exact .beginCall hs hl channel ownerRef agentId
  | began k outcome =>
    unfold provisioningStep at h
    dsimp only at h
    split at h
    · cases h
      exact .store hs hl _ _ _ _
    · cases h
      exact .endCall hs hl k
    · cases h
  | locked id op =>
    cases h
    unfold lockedCall
    have hqueued : Kept s (s.addCall (.queued id op)) := by
      refine .addCall hs hl rfl (fun ref => .inl rfl) rfl rfl ?_
      exact fun _ => rfl
    split_ifs with hlocked
    · exact hqueued
    · have honly : (s.addCall (.queued id op)).OnlyHolder s.calls.length id := by
        refine onlyHolder_of_free ?_
        unfold isLocked ProvisioningFlow.addCall
        rw [List.any_append, Bool.or_eq_false_iff]
        exact ⟨Bool.eq_false_iff.mpr hlocked, rfl⟩
      obtain ⟨hsettled, hlocks, hfrozen⟩ := Kept.enter hqueued.settled hqueued.locked honly op
      exact ⟨hsettled, hlocks, hfrozen⟩
  | lockFree k =>
    unfold provisioningStep at h
    dsimp only at h
    split at h
    · split_ifs at h with hlocked
      cases h
      exact .enter hs hl (onlyHolder_of_free (Bool.eq_false_iff.mpr hlocked)) _
    · cases h
  | polled k outcome =>
    unfold provisioningStep at h
    dsimp only at h
    split at h
    · rename_i id attempt hcall
      cases h
      obtain ⟨hrow, hwaiting⟩ := hl.snapshot k id attempt hcall
      have honly : s.OnlyHolder k id := hl.onlyHolder hcall (decide_eq_true rfl)
      exact .applyOutcome hs hl honly hrow hwaiting outcome
    · cases h
  | notified k =>
    unfold provisioningStep at h
    dsimp only at h
    split at h
    · cases h
      exact .endCall hs hl k
    · cases h
  | cancelCall k =>
    unfold provisioningStep at h
    dsimp only at h
    split_ifs at h
    cases h
    exact .endCall hs hl k

end WittyService
