import WittyService.ConnectionOrder

/-! When an instance has at most one transport, and none after it is disconnected. -/
namespace WittyService

open GuardedRuns

def CallAwait.IsStart : CallAwait → Prop
  | connecting _ _ | closing _ (.connect _) | closing _ (.openTransport _) => True
  | _ => False

namespace InstanceConnection

def SingleOpen (s : InstanceConnection) : Prop :=
  ∀ transport transport', s.Open transport → s.Open transport' → transport = transport'

/-- The instance was disconnected and not built again, and no start is pending: no transport is
open and the router has no runtime. -/
def LeavesNothing (s : InstanceConnection) : Prop :=
  s.disconnected = true → (∀ call ∈ s.calls, ¬ call.await.IsStart) →
    (∀ transport, ¬ s.Open transport) ∧ s.router = none

/-- A call, or a tick that removes, builds or starts something, finds the instance steady; a
tick starts the adapter the instance still has; and an adapter that is replaced has a
successor. -/
def Undisturbed (s : InstanceConnection) : ConnectionAction → Prop
  | .connect => s.Steady ∧ ∀ k ∈ s.current, s.isAlive k = false → s.usable = true
  | .disconnect | .reconnect => s.Steady
  | .tickGoesOn =>
    match s.tick with
    | some (.syncing present sweep) => sweep || (present && s.current.isNone) → s.Steady
    | some (.visiting k) => s.isAlive k = true ∨ (s.calls = [] ∧ s.current = some k)
    | none => True
  | .closed call =>
    match s.calls[call]? with
    | some ⟨_, .closing _ .replace⟩ => s.usable = true
    | _ => True
  | _ => True

instance (s : InstanceConnection) : (a : ConnectionAction) → Decidable (s.Undisturbed a)
  | .connect => inferInstanceAs (Decidable (_ ∧ ∀ k ∈ _, _ → _))
  | .disconnect | .reconnect => inferInstanceAs (Decidable s.Steady)
  | .tickGoesOn =>
    match htick : s.tick with
    | some (.syncing present sweep) =>
      decidable_of_iff ((sweep || (present && s.current.isNone)) → s.Steady)
        (by simp only [Undisturbed, htick])
    | some (.visiting k) =>
      decidable_of_iff (s.isAlive k = true ∨ (s.calls = [] ∧ s.current = some k))
        (by simp only [Undisturbed, htick])
    | none => isTrue (by simp only [Undisturbed, htick])
  | .closed call =>
    match hcall : s.calls[call]? with
    | some ⟨_, .closing _ .replace⟩ =>
      decidable_of_iff (s.usable = true) (by simp only [Undisturbed, hcall])
    | none | some ⟨_, .connecting _ _⟩ | some ⟨_, .closing _ (.connect _)⟩
    | some ⟨_, .closing _ (.openTransport _)⟩ | some ⟨_, .closing _ .unregister⟩
    | some ⟨_, .closing _ .reconnect⟩ | some ⟨_, .closing _ .swept⟩ =>
      isTrue (by simp only [Undisturbed, hcall])
  | .setPresent _ | .setUsable _ | .falter _ | .peerCloses _ | .tick | .tickSkips
  | .connectEnds _ _ => isTrue trivial

variable {s t : InstanceConnection}

theorem OnlyOpen.singleOpen {transport? : Option Nat} (h : s.OnlyOpen transport?) :
    s.SingleOpen := by
  intro transport transport' hopen hopen'
  have heq := (h transport hopen).symm.trans (h transport' hopen')
  exact Option.some.inj heq

theorem Working.only {await : CallAwait} (h : s.Working await) :
    ∃ transport?, s.OnlyOpen transport? := by
  unfold Working at h
  split at h
  all_goals exact ⟨_, h.1⟩

theorem Orderly.singleOpen (hs : s.Orderly) : s.SingleOpen := by
  obtain ⟨-, hresting⟩ | ⟨call, -, hworking⟩ := hs.phase
  · obtain ⟨-, hnone, -⟩ | ⟨k, hholds⟩ := hresting
    · exact hnone.singleOpen
    · exact hholds.only.singleOpen
  · obtain ⟨transport?, honly⟩ := hworking.only
    exact honly.singleOpen

theorem Orderly.leavesNothing (hs : s.Orderly) : s.LeavesNothing := by
  intro hdisconnected _
  obtain ⟨hcalls, hcurrent⟩ := hs.disconnected hdisconnected
  obtain ⟨-, hresting⟩ | ⟨call, hcall, -⟩ := hs.phase
  · obtain ⟨-, hnone, hrouter⟩ | ⟨k, hholds⟩ := hresting
    · refine ⟨fun transport hopen => ?_, hrouter⟩
      cases hnone transport hopen
    · rw [hholds.current] at hcurrent
      cases hcurrent
  · rw [hcalls] at hcall
    cases hcall

theorem step_orderly {a : ConnectionAction} (hs : s.Orderly) (hguard : s.Undisturbed a)
    (h : connectionStep s a = some t) : t.Orderly := by
  cases a with
  | setPresent present | setUsable usable =>
    cases h
    exact hs.outside _ _ _
  | falter transport =>
    simp only [connectionStep, Option.ite_none_right_eq_some] at h
    obtain ⟨halive, h⟩ := h
    cases h
    have halike : s.Alike (s.setLink transport .unhealthy) :=
      setLink_alike ⟨_, halive, nofun⟩ nofun
    exact halike.orderly hs
  | peerCloses transport =>
    simp only [connectionStep, Option.ite_none_right_eq_some] at h
    obtain ⟨hopen, h⟩ := h
    cases h
    have hopen : s.Open transport := by
      obtain halive | hunhealthy := hopen
      · exact ⟨_, halive, nofun⟩
      · exact ⟨_, hunhealthy, nofun⟩
    have halike : s.Alike (s.setLink transport .closed) := setLink_alike hopen nofun
    exact halike.orderly hs
  | tick =>
    simp only [connectionStep, Option.ite_none_right_eq_some] at h
    obtain ⟨-, h⟩ := h
    cases h
    exact hs.outside _ _ _
  | tickGoesOn =>
    simp only [connectionStep, Option.map_eq_some_iff] at h
    obtain ⟨phase, htick, rfl⟩ := h
    simp only [Undisturbed, htick] at hguard
    cases phase with
    | syncing present sweep => exact syncInstances_orderly hs hguard
    | visiting k => exact visit_orderly hs hguard
  | tickSkips =>
    simp only [connectionStep] at h
    split at h
    · split at h
      · cases h
      · cases h
        exact hs.outside _ _ _
    · cases h
  | connect =>
    cases h
    exact connectInstance_orderly hs hguard.1 hguard.2
  | disconnect =>
    cases h
    exact disconnectInstance_orderly hs hguard (.inl rfl)
  | reconnect =>
    cases h
    exact disconnectInstance_orderly hs hguard (.inr (.inl rfl))
  | closed call =>
    simp only [connectionStep] at h
    split at h
    · rename_i byTick transport next hcall
      cases h
      -- in an orderly state the call that resumes is the only one
      obtain ⟨hcalls, herase⟩ := hs.only_call hcall
      rw [herase]
      refine closed_orderly hs hcalls ?_
      rintro rfl
      simpa only [Undisturbed, hcall] using hguard
    · cases h
  | connectEnds call success =>
    simp only [connectionStep] at h
    split at h
    · rename_i byTick k transport hcall
      cases h
      obtain ⟨hcalls, herase⟩ := hs.only_call hcall
      rw [herase]
      exact connectEnds_orderly hs hcalls
    · cases h

theorem fresh_orderly (present usable : Bool) : (fresh present usable).Orderly :=
  vacated_orderly rfl rfl (fun _ ⟨_, hlink, _⟩ => nomatch hlink) rfl

/-- Along every run whose steps meet `Undisturbed`, at most one transport of the instance is
open, and none is left once it is disconnected. -/
theorem single_connection (present usable : Bool) (as : List ConnectionAction)
    (h : Guarded connectionStep Undisturbed (fresh present usable) as) :
    Always connectionStep (fun s => s.SingleOpen ∧ s.LeavesNothing) (fresh present usable) as :=
  always_mono (fun _ hs => ⟨hs.singleOpen, hs.leavesNothing⟩)
    (always_of_guarded (fun _ _ _ hs hg hstep => step_orderly hs hg hstep)
      (fresh_orderly present usable) h)

def firstTick : List ConnectionAction := [.tick, .tickGoesOn, .tickGoesOn]

/-- The transport falters, the next tick connects another one, and the interface has the instance
reconnected and then disconnected. -/
theorem supervised_connection :
    Always connectionStep (fun s => s.SingleOpen ∧ s.LeavesNothing) (fresh true true)
      (firstTick ++ [.connectEnds 0 true, .falter 0] ++ firstTick ++
        [.closed 0, .connectEnds 0 true, .reconnect, .closed 0, .connectEnds 0 true,
          .disconnect, .closed 0]) :=
  single_connection true true _ (by decide +kernel)

/-- `connect_instance` finds the adapter of the tick not alive yet, replaces it and connects the
new one. -/
def connectMeanwhile : List ConnectionAction :=
  firstTick ++ [.connect, .connectEnds 0 true, .connectEnds 0 true]

/-- `disconnect_instance` returns without a stop, and then the tick connects the adapter. -/
def disconnectMeanwhile : List ConnectionAction :=
  firstTick ++ [.disconnect, .connectEnds 0 true]

theorem connection_doubled_and_left :
    ¬ (∀ (present usable : Bool) (as : List ConnectionAction),
      Always connectionStep SingleOpen (fresh present usable) as) ∧
    ¬ (∀ (present usable : Bool) (as : List ConnectionAction),
      Always connectionStep LeavesNothing (fresh present usable) as) := by
  refine ⟨fun h => ?_, fun h => ?_⟩
  · have hlinks : (run connectionStep (fresh true true) connectMeanwhile).map links =
        some [.alive, .alive] := by decide +kernel
    obtain ⟨s, hrun, htwo⟩ := Option.map_eq_some_iff.mp hlinks
    have hsingle := always_last (h true true connectMeanwhile) hrun
    have heq := hsingle 0 1 ⟨.alive, by rw [htwo]; rfl, nofun⟩ ⟨.alive, by rw [htwo]; rfl, nofun⟩
    exact absurd heq (by decide)
  · have hleft : (run connectionStep (fresh true true) disconnectMeanwhile).map
        (fun s => (s.disconnected, s.calls, s.router)) = some (true, [], some 0) := by
      decide +kernel
    obtain ⟨s, hrun, hleft⟩ := Option.map_eq_some_iff.mp hleft
    simp only [Prod.mk.injEq] at hleft
    obtain ⟨hdisconnected, hcalls, hrouter⟩ := hleft
    have hnothing := always_last (h true true disconnectMeanwhile) hrun hdisconnected
      (by simp [hcalls])
    exact absurd (hrouter.symm.trans hnothing.2) (by decide)

end InstanceConnection

end WittyService
