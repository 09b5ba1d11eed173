import Mathlib.Tactic.SplitIfs
import WittyService.ProvisioningFlow

/-! What the lock of an attempt protects: its row, its state file and its instance. -/
namespace WittyService

open GuardedRuns

namespace ProvisioningFlow

variable {s s' t : ProvisioningFlow} {k id : Nat} {attempt : Attempt} {change : Attempt → Attempt}

/-- The instances that were created for the attempt, those that were rolled back included. -/
def created (s : ProvisioningFlow) (id : Nat) : Nat :=
  s.instances.countP fun instance' => instance'.attempt = id

/-- A waiting attempt has its state and no instance; another has no state, and at most one
instance was created for it. -/
structure Settled (s : ProvisioningFlow) : Prop where
  waiting : ∀ (id : Nat) (attempt : Attempt), s.attempts[id]? = some attempt →
    attempt.status = .waiting → attempt.stateRef = some id
  finished : ∀ (id : Nat) (attempt : Attempt), s.attempts[id]? = some attempt →
    attempt.status ≠ .waiting → attempt.stateRef = none ∧ s.files id = none
  unprovided : ∀ id : Nat,
    (∀ attempt : Attempt, s.attempts[id]? = some attempt → attempt.status = .waiting) →
    s.created id = 0
  once : ∀ id : Nat, s.created id ≤ 1

/-- A call that polls knows the row of its attempt, and no other call has the lock. -/
structure Locked (s : ProvisioningFlow) : Prop where
  alone : ∀ (k k' : Nat) (call call' : ProvisioningCall) (id : Nat), s.calls[k]? = some call →
    s.calls[k']? = some call' → call.holds id → call'.holds id → k = k'
  snapshot : ∀ (k id : Nat) (attempt : Attempt), s.calls[k]? = some (.polling id attempt) →
    s.attempts[id]? = some attempt ∧ attempt.status = .waiting

/-- What has left `waiting` stays as it is. -/
def Frozen (s s' : ProvisioningFlow) : Prop :=
  ∀ (id : Nat) (attempt : Attempt), s.attempts[id]? = some attempt → attempt.status ≠ .waiting →
    s'.attempts[id]? = some attempt

/-- Only call `k` may have the lock. -/
def OnlyHolder (s : ProvisioningFlow) (k id : Nat) : Prop :=
  ∀ (k' : Nat) (call : ProvisioningCall), s.calls[k']? = some call → call.holds id → k' = k

theorem frozen_of_attempts (h : s'.attempts = s.attempts) : Frozen s s' := by
  intro id attempt hrow _
  rw [h]
  exact hrow

theorem settled_congr (hs : s.Settled) (hrows : s'.attempts = s.attempts)
    (hfiles : ∀ ref, s'.files ref = s.files ref ∨ s'.files ref = none)
    (hinstances : s'.instances = s.instances) : s'.Settled := by
  have hcreated (id : Nat) : s'.created id = s.created id := by rw [created, hinstances, created]
  constructor
  · rw [hrows]
    exact hs.waiting
  · intro id attempt hrow hstatus
    rw [hrows] at hrow
    obtain ⟨href, hfile⟩ := hs.finished id attempt hrow hstatus
    refine ⟨href, ?_⟩
    obtain hsame | hnone := hfiles id
    · exact hsame.trans hfile
    · exact hnone
  · intro id hid
    rw [hrows] at hid
    rw [hcreated]
    exact hs.unprovided id hid
  · intro id
    rw [hcreated]
    exact hs.once id

theorem created_addInstance (i : Nat) (kept : Bool) :
    (s.addInstance id attempt kept).created i = s.created i + if id = i then 1 else 0 := by
  unfold created addInstance
  rw [List.countP_append, List.countP_singleton]
  simp

@[simp] theorem leave_attempts : (s.leave id attempt change).attempts =
    s.attempts.modify id fun row => { change row with stateRef := none } := by
  unfold leave forget clearState updateProvisioning
  cases attempt.stateRef <;> rfl

@[simp] theorem leave_calls : (s.leave id attempt change).calls = s.calls := by
  unfold leave forget clearState updateProvisioning
  cases attempt.stateRef <;> rfl

@[simp] theorem leave_instances : (s.leave id attempt change).instances = s.instances := by
  unfold leave forget clearState updateProvisioning
  cases attempt.stateRef <;> rfl

@[simp] theorem leave_now : (s.leave id attempt change).now = s.now := by
  unfold leave forget clearState updateProvisioning
  cases attempt.stateRef <;> rfl

theorem leave_files {ref : Nat} (href : attempt.stateRef = some ref) :
    (s.leave id attempt change).files = Function.update s.files ref none := by
  unfold leave forget clearState updateProvisioning
  rw [href]

theorem getElem?_modify_of (hrow : s.attempts[id]? = some attempt) (f : Attempt → Attempt)
    (i : Nat) : (s.attempts.modify id f)[i]? =
      if i = id then some (f attempt) else s.attempts[i]? := by
  rw [List.getElem?_modify]
  split_ifs with h h' h'
  · rw [← h, hrow]
    rfl
  · exact absurd h.symm h'
  · exact absurd h'.symm h
  · exact Option.map_id' ..

theorem Settled.leave (hs : s.Settled) (hrow : s.attempts[id]? = some attempt)
    (hwaiting : attempt.status = .waiting) (hchange : ∀ row, (change row).status ≠ .waiting)
    (hrows : t.attempts = s.attempts) (hfiles : t.files = s.files)
    (hcreated : ∀ i, t.created i = s.created i + if id = i then t.created id else 0)
    (honce : t.created id ≤ 1) : (t.leave id attempt change).Settled := by
  have hnew (i : Nat) : (t.leave id attempt change).attempts[i]? =
      if i = id then some { change attempt with stateRef := none } else s.attempts[i]? := by
    rw [leave_attempts, hrows, getElem?_modify_of hrow]
  have hfile : (t.leave id attempt change).files = Function.update t.files id none :=
    leave_files (hs.waiting id attempt hrow hwaiting)
  have hkept (i : Nat) : (t.leave id attempt change).created i = t.created i := by
    rw [created, leave_instances, created]
  constructor
  · intro i row hi hstatus
    rw [hnew] at hi
    split_ifs at hi with heq
    · cases hi
      exact absurd hstatus (hchange attempt)
    · exact hs.waiting i row hi hstatus
  · intro i row hi hstatus
    rw [hnew] at hi
    rw [hfile, hfiles]
    split_ifs at hi with heq
    · cases hi
      rw [heq]
      exact ⟨rfl, Function.update_self ..⟩
    · rw [Function.update_of_ne heq]
      exact hs.finished i row hi hstatus
  · intro i hi
    rw [hkept]
    by_cases heq : i = id
    · have hleft := hi _ ((hnew i).trans (if_pos heq))
      exact absurd hleft (hchange attempt)
    · rw [hcreated, if_neg (Ne.symm heq), Nat.add_zero]
      refine hs.unprovided i fun row hrow' => hi row ?_
      rw [hnew, if_neg heq]
      exact hrow'
  · intro i
    rw [hkept]
    by_cases heq : id = i
    · rw [← heq]
      exact honce
    · rw [hcreated, if_neg heq]
      exact hs.once i

theorem leave_frozen (hrow : s.attempts[id]? = some attempt) (hwaiting : attempt.status = .waiting)
    (hrows : t.attempts = s.attempts) : Frozen s (t.leave id attempt change) := by
  intro i row hi hstatus
  rw [leave_attempts, hrows, getElem?_modify_of hrow]
  split_ifs with heq
  · rw [heq, hrow] at hi
    cases hi
    exact absurd hwaiting hstatus
  · exact hi

variable {call : ProvisioningCall}

theorem Locked.setCall (hs : s.Locked) (hcalls : t.calls = s.calls)
    (hrows : ∀ (i : Nat) (row : Attempt), s.attempts[i]? = some row →
      t.attempts[i]? = some row ∨ s.OnlyHolder k i)
    (hholds : ∀ i, call.holds i → s.OnlyHolder k i)
    (hknows : ∀ (i : Nat) (row : Attempt), call = .polling i row →
      t.attempts[i]? = some row ∧ row.status = .waiting) :
    (t.setCall k call).Locked := by
  have hset : ∀ (k' : Nat) (call' : ProvisioningCall), (t.setCall k call).calls[k']? = some call' →
      (k' = k ∧ call' = call) ∨ (k' ≠ k ∧ s.calls[k']? = some call') := by
    intro k' call' h
    simp only [ProvisioningFlow.setCall, hcalls, List.getElem?_set] at h
    split_ifs at h with heq hlt
    · exact .inl ⟨heq.symm, (Option.some.inj h).symm⟩
    · exact .inr ⟨Ne.symm heq, h⟩
  constructor
  · intro k₁ k₂ call₁ call₂ i h₁ h₂ hi₁ hi₂
    obtain ⟨rfl, rfl⟩ | ⟨-, hbefore₁⟩ := hset _ _ h₁
    · obtain ⟨rfl, -⟩ | ⟨-, hbefore₂⟩ := hset _ _ h₂
      · rfl
      · exact (hholds i hi₁ k₂ call₂ hbefore₂ hi₂).symm
    · obtain ⟨rfl, rfl⟩ | ⟨-, hbefore₂⟩ := hset _ _ h₂
      · exact hholds i hi₂ k₁ call₁ hbefore₁ hi₁
      · exact hs.alone k₁ k₂ call₁ call₂ i hbefore₁ hbefore₂ hi₁ hi₂
  · intro k' i row h
    obtain ⟨-, heq⟩ | ⟨hne, hbefore⟩ := hset _ _ h
    · exact hknows i row heq.symm
    · obtain ⟨hrow, hwaiting⟩ := hs.snapshot k' i row hbefore
      obtain hsame | honly := hrows i row hrow
      · exact ⟨hsame, hwaiting⟩
      · exact absurd (honly k' _ hbefore (by simp [ProvisioningCall.holds])) hne

theorem Locked.onlyHolder (hs : s.Locked)
    (hcall : s.calls[k]? = some call) (hholds : call.holds id) : s.OnlyHolder k id :=
  fun k' call' hcall' hholds' => hs.alone k' k call' call id hcall' hcall hholds' hholds

theorem onlyHolder_of_free (h : s.isLocked id = false) : s.OnlyHolder k id := by
  intro k' call hcall hholds
  have hlocked : s.isLocked id = true :=
    List.any_eq_true.mpr ⟨call, List.mem_of_getElem? hcall, hholds⟩
  rw [h] at hlocked
  cases hlocked

theorem Locked.addCall (hs : s.Locked) (hcalls : t.calls = s.calls)
    (hrows : t.attempts = s.attempts)
    (hholds : ∀ i, call.holds i = false) : (t.addCall call).Locked := by
  have hold : ∀ (k' : Nat) (call' : ProvisioningCall) (i : Nat),
      (t.addCall call).calls[k']? = some call' → call'.holds i → s.calls[k']? = some call' := by
    intro k' call' i h hi
    simp only [ProvisioningFlow.addCall, hcalls, List.getElem?_append] at h
    split_ifs at h with hlt
    · exact h
    · have hmem := List.mem_of_getElem? h
      rw [List.mem_singleton.mp hmem, hholds] at hi
      cases hi
  constructor
  · intro k₁ k₂ call₁ call₂ i h₁ h₂ hi₁ hi₂
    exact hs.alone k₁ k₂ call₁ call₂ i (hold _ _ i h₁ hi₁) (hold _ _ i h₂ hi₂) hi₁ hi₂
  · intro k' i row h
    have hbefore := hold _ _ i h (by simp [ProvisioningCall.holds])
    obtain ⟨hrow, hwaiting⟩ := hs.snapshot k' i row hbefore
    exact ⟨(congrArg (·[i]?) hrows).trans hrow, hwaiting⟩

end ProvisioningFlow

end WittyService
