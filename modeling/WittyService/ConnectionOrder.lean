import WittyService.InstanceConnection

/-! The transports of an instance in order: at most one is open, and it belongs to the adapter of
the instance or to the one call that is pending. -/
namespace WittyService

namespace InstanceConnection

/-- Neither side has closed the transport. -/
def Open (s : InstanceConnection) (transport : Nat) : Prop :=
  ∃ link, s.links[transport]? = some link ∧ link ≠ .closed

/-- No start or stop of an adapter is pending, and the adapter of the instance has no transport
that is unhealthy. -/
def Steady (s : InstanceConnection) : Prop :=
  s.calls = [] ∧ ∀ k ∈ s.current, ∀ transport ∈ s.transportOf k,
    s.links[transport]? ≠ some .unhealthy

instance (s : InstanceConnection) : Decidable s.Steady :=
  inferInstanceAs (Decidable (_ ∧ ∀ k ∈ _, ∀ transport ∈ _, _))

variable {s t : InstanceConnection} {k transport : Nat} {byTick : Bool}

def OnlyOpen (s : InstanceConnection) (transport? : Option Nat) : Prop :=
  ∀ transport, s.Open transport → transport? = some transport

/-- The instance has the adapter, whose transport is connected and the only one. -/
structure Holds (s : InstanceConnection) (k : Nat) : Prop where
  current : s.current = some k
  built : s.states[k]?.isSome
  only : s.OnlyOpen (s.transportOf k)
  recorded : ∀ transport, s.transportOf k = some transport →
    s.startedOf k = true ∧ s.links[transport]? ≠ some .connecting

def Resting (s : InstanceConnection) : Prop :=
  (s.current = none ∧ s.OnlyOpen none ∧ s.router = none) ∨ ∃ k, s.Holds k

/-- The instance has the adapter, which has no transport. -/
structure Vacant (s : InstanceConnection) (k : Nat) : Prop where
  current : s.current = some k
  built : s.states[k]?.isSome
  free : s.transportOf k = none

def Working (s : InstanceConnection) : CallAwait → Prop
  | .connecting k transport => s.OnlyOpen (some transport) ∧ s.Vacant k
  | .closing transport (.connect k) | .closing transport (.openTransport k) =>
    s.OnlyOpen (some transport) ∧ s.Vacant k
  | .closing transport .replace => s.OnlyOpen (some transport) ∧ s.current.isSome
  | .closing transport _ => s.OnlyOpen (some transport) ∧ s.current = none

structure Orderly (s : InstanceConnection) : Prop where
  phase : (s.calls = [] ∧ s.Resting) ∨ ∃ call, s.calls = [call] ∧ s.Working call.await
  disconnected : s.disconnected = true → s.calls = [] ∧ s.current = none

section

variable {f : InstanceSupervision → InstanceSupervision}

theorem modifyState_get :
    (s.modifyState k f).states[k]? = s.states[k]?.map f := by
  simp [modifyState]

variable {j : Nat}

theorem modifyState_transportOf (hf : ∀ state, (f state).transport = state.transport) :
    (s.modifyState k f).transportOf j = s.transportOf j := by
  simp only [transportOf, modifyState, List.getElem?_modify]
  cases s.states[j]? with
  | none => rfl
  | some state =>
    by_cases hkj : k = j
    · simp [hkj, hf]
    · simp [hkj]

theorem modifyState_startedOf (hf : ∀ state, (f state).started = state.started) :
    (s.modifyState k f).startedOf j = s.startedOf j := by
  simp only [startedOf, modifyState, List.getElem?_modify]
  cases s.states[j]? with
  | none => rfl
  | some state =>
    by_cases hkj : k = j
    · simp [hkj, hf]
    · simp [hkj]

theorem modifyState_isSome : (s.modifyState k f).states[j]?.isSome = s.states[j]?.isSome := by
  simp only [modifyState, List.getElem?_modify]
  cases s.states[j]? <;> rfl

end

theorem setLink_closed : ¬ (s.setLink transport .closed).Open transport := by
  rintro ⟨link, hlink, hne⟩
  obtain ⟨_, heq⟩ := List.getElem?_eq_some_iff.mp hlink
  exact hne (heq.symm.trans (List.getElem_set_self _))

variable {link : Link} {f : InstanceSupervision → InstanceSupervision} {next : AfterClose}

theorem setLink_open (hbefore : s.Open transport ∨ link = .closed) {other : Nat}
    (hopen : (s.setLink transport link).Open other) : s.Open other := by
  by_cases heq : transport = other
  · subst heq
    obtain hbefore | rfl := hbefore
    · exact hbefore
    · exact absurd hopen setLink_closed
  · obtain ⟨link', hlink, hne⟩ := hopen
    rw [setLink, List.getElem?_set_ne heq] at hlink
    exact ⟨link', hlink, hne⟩

theorem OnlyOpen.close (h : s.OnlyOpen (some transport)) :
    (s.setLink transport .closed).OnlyOpen none := by
  intro other hopen
  cases h other (setLink_open (.inr rfl) hopen)
  exact absurd hopen setLink_closed

/-- The instance has the adapter, and no call is pending. -/
structure Ready (s : InstanceConnection) (k : Nat) : Prop where
  calls : s.calls = []
  current : s.current = some k
  built : s.states[k]?.isSome
  only : s.OnlyOpen (s.transportOf k)
  wanted : s.disconnected = false

theorem Ready.modify (h : s.Ready k)
    (hf : ∀ state, (f state).transport = state.transport) : (s.modifyState k f).Ready k := by
  refine ⟨h.calls, h.current, modifyState_isSome.trans h.built, ?_, h.wanted⟩
  rw [modifyState_transportOf hf]
  exact h.only

theorem Orderly.wanted (hs : s.Orderly) (hcurrent : s.current ≠ none) :
    s.disconnected = false := by
  cases hdisconnected : s.disconnected with
  | false => rfl
  | true => exact absurd (hs.disconnected hdisconnected).2 hcurrent

theorem Orderly.ready (hs : s.Orderly) (hcalls : s.calls = []) (hcurrent : s.current = some k) :
    s.Ready k ∧ s.Holds k := by
  have hwanted := hs.wanted (by simp [hcurrent])
  obtain ⟨-, hresting⟩ | ⟨call, hcall, -⟩ := hs.phase
  · obtain ⟨hnone, -⟩ | ⟨j, hholds⟩ := hresting
    · rw [hnone] at hcurrent
      cases hcurrent
    · obtain rfl := Option.some.inj (hholds.current.symm.trans hcurrent)
      exact ⟨⟨hcalls, hcurrent, hholds.built, hholds.only, hwanted⟩, hholds⟩
  · rw [hcalls] at hcall
    cases hcall

theorem Orderly.vacated (hs : s.Orderly) (hcalls : s.calls = []) (hcurrent : s.current = none) :
    s.OnlyOpen none ∧ s.router = none := by
  obtain ⟨-, hresting⟩ | ⟨call, hcall, -⟩ := hs.phase
  · obtain ⟨-, hnone, hrouter⟩ | ⟨j, hholds⟩ := hresting
    · exact ⟨hnone, hrouter⟩
    · rw [hholds.current] at hcurrent
      cases hcurrent
  · rw [hcalls] at hcall
    cases hcall

section

variable (h : s.Ready k)
include h

theorem openTransport_orderly (hfree : s.transportOf k = none) :
    (s.openTransport byTick k).Orderly := by
  refine ⟨.inr ⟨⟨byTick, .connecting k s.links.length⟩, ?_, ?_, h.current, h.built, hfree⟩,
    fun hdisconnected => ?_⟩
  · exact congrArg (· ++ _) h.calls
  · rintro transport ⟨link, hlink, hopen⟩
    change (s.links ++ [Link.connecting])[transport]? = some link at hlink
    by_cases hlt : transport < s.links.length
    · rw [List.getElem?_append_left hlt] at hlink
      have honly := h.only transport ⟨link, hlink, hopen⟩
      rw [hfree] at honly
      cases honly
    · -- the place of the new transport is the last one
      have hle := (List.getElem?_eq_some_iff.mp hlink).1
      rw [List.length_append, List.length_singleton] at hle
      exact congrArg some (by omega)
  · exact absurd (h.wanted.symm.trans hdisconnected) Bool.false_ne_true

variable {next : AfterClose}

theorem disconnect_vacant : (s.disconnect byTick k transport next).Vacant k := by
  refine ⟨h.current, modifyState_isSome.trans h.built, ?_⟩
  change ((s.modifyState k _).states[k]?.bind _) = none
  rw [modifyState_get, Option.bind_map]
  cases s.states[k]? <;> rfl

theorem disconnect_orderly (htransport : s.transportOf k = some transport)
    (hnext : next = .connect k ∨ next = .openTransport k) :
    (s.disconnect byTick k transport next).Orderly := by
  have honly : (s.disconnect byTick k transport next).OnlyOpen (some transport) := by
    have honly := h.only
    rw [htransport] at honly
    exact honly
  refine ⟨.inr ⟨⟨byTick, .closing transport next⟩, congrArg (· ++ _) h.calls, ?_⟩,
    fun hdisconnected => absurd (h.wanted.symm.trans hdisconnected) Bool.false_ne_true⟩
  obtain rfl | rfl := hnext
  · exact ⟨honly, disconnect_vacant h⟩
  · exact ⟨honly, disconnect_vacant h⟩

theorem connectAdapter_orderly : (s.connectAdapter byTick k).Orderly := by
  unfold connectAdapter
  split
  · exact disconnect_orderly h ‹_› (.inr rfl)
  · exact openTransport_orderly h ‹_›

theorem restart_orderly : (s.restart byTick k).Orderly :=
  connectAdapter_orderly (h.modify fun _ => rfl)

theorem Ready.orderly (hrecorded : ∀ transport, s.transportOf k = some transport →
    s.startedOf k = true ∧ s.links[transport]? ≠ some .connecting) : s.Orderly :=
  ⟨.inl ⟨h.calls, .inr ⟨k, h.current, h.built, h.only, hrecorded⟩⟩,
    fun hdisconnected => absurd (h.wanted.symm.trans hdisconnected) Bool.false_ne_true⟩

theorem connectedInstance_orderly (hholds : s.Holds k) :
    (s.connectedInstance k).Orderly := by
  have hready := h.modify (f := fun state => { state with connected := true }) fun _ => rfl
  have hready : (s.connectedInstance k).Ready k :=
    ⟨hready.calls, hready.current, hready.built, hready.only, hready.wanted⟩
  refine hready.orderly fun transport hsome => ?_
  have htransport : (s.connectedInstance k).transportOf k = s.transportOf k :=
    modifyState_transportOf fun _ => rfl
  rw [htransport] at hsome
  obtain ⟨hstarted, hlink⟩ := hholds.recorded transport hsome
  refine ⟨?_, hlink⟩
  rw [← hstarted]
  exact modifyState_startedOf fun _ => rfl

theorem attemptConnect_orderly (hholds : s.Holds k) :
    (s.attemptConnect byTick k).Orderly := by
  unfold attemptConnect
  split
  · split
    · exact connectedInstance_orderly h hholds
    · split
      · exact disconnect_orderly h ‹_› (.inl rfl)
      · exact restart_orderly h
  · exact connectAdapter_orderly h

end

theorem build_ready (hcalls : s.calls = []) (hnone : s.OnlyOpen none) (husable : s.usable = true) :
    s.build.Ready s.states.length ∧ s.build.Holds s.states.length := by
  have hbuild : s.build = { s with
      states := s.states ++ [.built]
      current := some s.states.length
      disconnected := false } := if_pos husable
  have hcurrent : s.build.current = some s.states.length := by rw [hbuild]
  have hstate : s.build.states[s.states.length]? = some .built := by
    rw [hbuild]
    exact List.getElem?_concat_length
  have hbuilt : s.build.states[s.states.length]?.isSome := Option.isSome_of_eq_some hstate
  have hfree : s.build.transportOf s.states.length = none := by
    rw [transportOf, hstate]
    rfl
  have honly : s.build.OnlyOpen (s.build.transportOf s.states.length) := by
    rw [hfree, hbuild]
    exact hnone
  refine ⟨⟨?_, hcurrent, hbuilt, honly, ?_⟩, hcurrent, hbuilt, honly, fun transport hsome => ?_⟩
  · rw [hbuild]
    exact hcalls
  · rw [hbuild]
  · rw [hfree] at hsome
    cases hsome

theorem vacated_orderly (hcalls : s.calls = []) (hcurrent : s.current = none)
    (hnone : s.OnlyOpen none) (hrouter : s.router = none) : s.Orderly :=
  ⟨.inl ⟨hcalls, .inl ⟨hcurrent, hnone, hrouter⟩⟩, fun _ => ⟨hcalls, hcurrent⟩⟩

theorem replace_orderly (hcalls : s.calls = []) (hnone : s.OnlyOpen none)
    (hsuccessor : s.usable = true ∨ s.router = none) : s.replace.Orderly := by
  cases husable : s.usable with
  | true =>
    obtain ⟨hready, hholds⟩ := build_ready (s := { s with current := none }) hcalls hnone husable
    simp only [replace, hready.current]
    exact attemptConnect_orderly hready hholds
  | false =>
    -- no new adapter: the router must not have the old one
    have hrouter : s.router = none := by simpa [husable] using hsuccessor
    simp only [replace, build, husable, Bool.false_eq_true, if_false]
    exact vacated_orderly hcalls rfl hnone hrouter

theorem stopped?_transport (hstopped : s.stopped? k = some transport) :
    s.transportOf k = some transport := by
  unfold stopped? at hstopped
  split at hstopped
  · exact hstopped
  · cases hstopped

theorem Holds.unstopped (h : s.Holds k) (hsteady : s.Steady) (hstopped : s.stopped? k = none) :
    s.isAlive k = false ∧ s.OnlyOpen none := by
  cases htransport : s.transportOf k with
  | none =>
    refine ⟨by simp [isAlive, htransport], ?_⟩
    have honly := h.only
    rw [htransport] at honly
    exact honly
  | some transport =>
    obtain ⟨hstarted, hconnecting⟩ := h.recorded transport htransport
    have hhealthy := hsteady.2 k h.current transport htransport
    have hdead : s.isAlive k = false := by
      unfold stopped? at hstopped
      split at hstopped
      · rw [htransport] at hstopped
        cases hstopped
      · simpa using ‹¬ s.isAlive k = true›
    -- of what is left open, the adapter's own transport is the only candidate
    refine ⟨hdead, fun other hopen => ?_⟩
    have honly := h.only other hopen
    rw [htransport] at honly
    cases honly
    obtain ⟨link, hlink, hne⟩ := hopen
    cases link with
    | connecting => exact absurd hlink hconnecting
    | alive => simp [isAlive, hstarted, htransport, hlink] at hdead
    | unhealthy => exact absurd hlink hhealthy
    | closed => exact absurd rfl hne

theorem Holds.only_stopped (h : s.Holds k) (hstopped : s.stopped? k = some transport) :
    s.OnlyOpen (some transport) := by
  have honly := h.only
  rw [stopped?_transport hstopped] at honly
  exact honly

theorem connectInstance_orderly (hs : s.Orderly) (hsteady : s.Steady)
    (hsuccessor : ∀ k ∈ s.current, s.isAlive k = false → s.usable = true) :
    s.connectInstance.Orderly := by
  unfold connectInstance
  split
  · cases hcurrent : s.current with
    | none =>
      obtain ⟨hnone, hrouter⟩ := hs.vacated hsteady.1 hcurrent
      exact replace_orderly hsteady.1 hnone (.inr hrouter)
    | some k =>
      obtain ⟨hready, hholds⟩ := hs.ready hsteady.1 hcurrent
      simp only
      split
      · exact hs
      · cases hstopped : s.stopped? k with
        | none =>
          obtain ⟨hdead, hnone⟩ := hholds.unstopped hsteady hstopped
          exact replace_orderly hsteady.1 hnone (.inl (hsuccessor k hcurrent hdead))
        | some transport =>
          refine ⟨.inr ⟨⟨false, .closing transport .replace⟩, congrArg (· ++ _) hsteady.1,
            hholds.only_stopped hstopped, ?_⟩, fun hdisconnected => ?_⟩
          · exact Option.isSome_of_eq_some hcurrent
          · exact absurd (hready.wanted.symm.trans hdisconnected) Bool.false_ne_true
  · exact hs

theorem afterDisconnect_orderly (hcalls : s.calls = [])
    (hcurrent : s.current = none) (hnone : s.OnlyOpen none) (hrouter : s.router = none) :
    (s.afterDisconnect next).Orderly := by
  cases next with
  | reconnect =>
    have hvacated := vacated_orderly (s := { s with disconnected := true }) hcalls hcurrent hnone
      hrouter
    refine connectInstance_orderly hvacated ⟨hcalls, fun k hk => ?_⟩ fun k hk => ?_
    · cases hcurrent.symm.trans hk
    · cases hcurrent.symm.trans hk
  | connect | openTransport | replace | unregister | swept =>
    exact vacated_orderly hcalls hcurrent hnone hrouter

theorem disconnectInstance_orderly (hs : s.Orderly) (hsteady : s.Steady)
    (hnext : next = .unregister ∨ next = .reconnect ∨ next = .swept) :
    (s.disconnectInstance byTick next).Orderly := by
  unfold disconnectInstance
  cases hcurrent : s.current with
  | none =>
    obtain ⟨hnone, hrouter⟩ := hs.vacated hsteady.1 hcurrent
    exact afterDisconnect_orderly hsteady.1 rfl hnone hrouter
  | some k =>
    obtain ⟨hready, hholds⟩ := hs.ready hsteady.1 hcurrent
    simp only
    cases hstopped : s.stopped? k with
    | none => exact afterDisconnect_orderly hsteady.1 rfl (hholds.unstopped hsteady hstopped).2 rfl
    | some transport =>
      have honly := hholds.only_stopped hstopped
      refine ⟨.inr ⟨⟨byTick, .closing transport next⟩, congrArg (· ++ _) hsteady.1, ?_⟩,
        fun hdisconnected => absurd (hready.wanted.symm.trans hdisconnected) Bool.false_ne_true⟩
      obtain rfl | rfl | rfl := hnext <;> exact ⟨honly, rfl⟩

theorem Orderly.working {call : Call} (hs : s.Orderly) (hcalls : s.calls = [call]) :
    s.Working call.await ∧ s.disconnected = false := by
  refine ⟨?_, ?_⟩
  · obtain ⟨hnil, -⟩ | ⟨call', hcall, hworking⟩ := hs.phase
    · rw [hcalls] at hnil
      cases hnil
    · rw [hcalls] at hcall
      cases hcall
      exact hworking
  · cases hdisconnected : s.disconnected with
    | false => rfl
    | true =>
      have hnil := (hs.disconnected hdisconnected).1
      rw [hcalls] at hnil
      cases hnil

theorem closed_orderly (hs : s.Orderly) (hcalls : s.calls = [⟨byTick, .closing transport next⟩])
    (hsuccessor : next = .replace → s.usable = true) :
    (({ s with calls := [] }.setLink transport .closed).closed byTick next).Orderly := by
  obtain ⟨hworking, hwanted⟩ := hs.working hcalls
  have hclose (honly : s.OnlyOpen (some transport)) :
      ({ s with calls := [] }.setLink transport .closed).OnlyOpen none :=
    OnlyOpen.close (s := { s with calls := [] }) honly
  have hready {k : Nat} (honly : s.OnlyOpen (some transport)) (hvacant : s.Vacant k) :
      ({ s with calls := [] }.setLink transport .closed).Ready k := by
    refine ⟨rfl, hvacant.current, hvacant.built, ?_, hwanted⟩
    change InstanceConnection.OnlyOpen _ (s.transportOf k)
    rw [hvacant.free]
    exact hclose honly
  cases next with
  | connect k => exact restart_orderly (hready hworking.1 hworking.2)
  | openTransport k => exact openTransport_orderly (hready hworking.1 hworking.2) hworking.2.free
  | replace => exact replace_orderly rfl (hclose hworking.1) (.inl (hsuccessor rfl))
  | unregister | reconnect | swept =>
    unfold closed
    refine afterDisconnect_orderly ?_ hworking.2 (hclose hworking.1) ?_ <;> rfl

theorem connectEnds_orderly {success : Bool} (hs : s.Orderly)
    (hcalls : s.calls = [⟨byTick, .connecting k transport⟩]) :
    ({ s with calls := [] }.connectEnds k transport success).Orderly := by
  obtain ⟨⟨honly, hvacant⟩, hwanted⟩ := hs.working hcalls
  cases success with
  | false =>
    have hready : ({ s with calls := [] }.setLink transport .closed).Ready k := by
      refine ⟨rfl, hvacant.current, hvacant.built, ?_, hwanted⟩
      change InstanceConnection.OnlyOpen _ (s.transportOf k)
      rw [hvacant.free]
      exact OnlyOpen.close (s := { s with calls := [] }) honly
    have hready := hready.modify (f := fun state => { state with connected := false }) fun _ => rfl
    refine hready.orderly fun other hsome => ?_
    have hkept := modifyState_transportOf (s := { s with calls := [] }.setLink transport .closed)
      (k := k) (f := fun state => { state with connected := false }) (j := k) fun _ => rfl
    cases (hkept.trans hvacant.free).symm.trans hsome
  | true =>
    obtain ⟨state, hstate⟩ := Option.isSome_iff_exists.mp hvacant.built
    -- the adapter records the transport it has just connected, before it is registered
    let recorded := ({ s with calls := [] }.setLink transport .alive).modifyState k fun state =>
      { state with transport := some transport, started := true }
    have hget : recorded.states[k]? =
        some { state with transport := some transport, started := true } := by
      refine modifyState_get.trans ?_
      exact congrArg (Option.map _) hstate
    have htransport : recorded.transportOf k = some transport := by
      rw [transportOf, hget]
      rfl
    have honly' : recorded.OnlyOpen (recorded.transportOf k) := by
      rw [htransport]
      rintro other hopen
      by_cases heq : transport = other
      · exact congrArg some heq
      · obtain ⟨link, hlink, hne⟩ := hopen
        refine honly other ⟨link, ?_, hne⟩
        rw [← hlink]
        exact (List.getElem?_set_ne heq).symm
    have hready : recorded.Ready k :=
      ⟨rfl, hvacant.current, Option.isSome_of_eq_some hget, honly', hwanted⟩
    refine connectedInstance_orderly hready ⟨hready.current, hready.built, honly',
      fun other hsome => ⟨?_, fun hconnecting => ?_⟩⟩
    · rw [startedOf, hget]
      rfl
    · obtain rfl := Option.some.inj (htransport.symm.trans hsome)
      obtain ⟨_, heq⟩ := List.getElem?_eq_some_iff.mp hconnecting
      exact nomatch (List.getElem_set_self _).symm.trans heq

structure Alike (s t : InstanceConnection) : Prop where
  current : t.current = s.current
  router : t.router = s.router
  calls : t.calls = s.calls
  disconnected : t.disconnected = s.disconnected
  built : ∀ k : Nat, t.states[k]?.isSome = s.states[k]?.isSome
  transport : ∀ k, t.transportOf k = s.transportOf k
  started : ∀ k, t.startedOf k = s.startedOf k
  opened : ∀ transport, t.Open transport → s.Open transport
  connecting : ∀ transport : Nat, t.links[transport]? = some .connecting →
    s.links[transport]? = some .connecting

theorem Alike.only {transport? : Option Nat} (h : s.Alike t) (honly : s.OnlyOpen transport?) :
    t.OnlyOpen transport? :=
  fun transport hopen => honly transport (h.opened transport hopen)

theorem Alike.vacant (h : s.Alike t) (hvacant : s.Vacant k) : t.Vacant k :=
  ⟨h.current.trans hvacant.current, (h.built k).trans hvacant.built,
    (h.transport k).trans hvacant.free⟩

theorem Alike.holds (h : s.Alike t) (hholds : s.Holds k) : t.Holds k := by
  refine ⟨h.current.trans hholds.current, (h.built k).trans hholds.built, ?_, ?_⟩
  · rw [h.transport k]
    exact h.only hholds.only
  · intro transport hsome
    obtain ⟨hstarted, hconnecting⟩ := hholds.recorded transport ((h.transport k).symm.trans hsome)
    exact ⟨(h.started k).trans hstarted, fun hlink => hconnecting (h.connecting transport hlink)⟩

theorem Alike.working {await : CallAwait} (h : s.Alike t) (hworking : s.Working await) :
    t.Working await := by
  cases await with
  | connecting k transport => exact ⟨h.only hworking.1, h.vacant hworking.2⟩
  | closing transport next =>
    cases next with
    | connect k | openTransport k => exact ⟨h.only hworking.1, h.vacant hworking.2⟩
    | replace => exact ⟨h.only hworking.1, (congrArg Option.isSome h.current).trans hworking.2⟩
    | unregister | reconnect | swept =>
      exact ⟨h.only hworking.1, h.current.trans hworking.2⟩

theorem Alike.orderly (h : s.Alike t) (hs : s.Orderly) : t.Orderly := by
  refine ⟨?_, ?_⟩
  · rw [h.calls]
    refine hs.phase.imp (And.imp_right fun hresting => ?_) fun ⟨call, hcalls, hworking⟩ =>
      ⟨call, hcalls, h.working hworking⟩
    obtain ⟨hcurrent, hnone, hrouter⟩ | ⟨k, hholds⟩ := hresting
    · exact .inl ⟨h.current.trans hcurrent, h.only hnone, h.router.trans hrouter⟩
    · exact .inr ⟨k, h.holds hholds⟩
  · rw [h.disconnected, h.calls, h.current]
    exact hs.disconnected

theorem modifyState_alike (htransport : ∀ state, (f state).transport = state.transport)
    (hstarted : ∀ state, (f state).started = state.started) : s.Alike (s.modifyState k f) where
  current := rfl
  router := rfl
  calls := rfl
  disconnected := rfl
  built _ := modifyState_isSome
  transport _ := modifyState_transportOf htransport
  started _ := modifyState_startedOf hstarted
  opened _ hopen := hopen
  connecting _ hlink := hlink

theorem setLink_alike (hbefore : s.Open transport) (hlink : link ≠ .connecting) :
    s.Alike (s.setLink transport link) where
  current := rfl
  router := rfl
  calls := rfl
  disconnected := rfl
  built _ := rfl
  transport _ := rfl
  started _ := rfl
  opened _ hopen := setLink_open (.inl hbefore) hopen
  connecting other hconnecting := by
    by_cases heq : transport = other
    · subst heq
      obtain ⟨_, hset⟩ := List.getElem?_eq_some_iff.mp hconnecting
      exact absurd ((List.getElem_set_self _).symm.trans hset) hlink
    · rwa [setLink, List.getElem?_set_ne heq] at hconnecting

theorem Orderly.outside (hs : s.Orderly) (present usable : Bool) (tick : Option TickPhase) :
    { s with present := present, usable := usable, tick := tick }.Orderly :=
  Alike.orderly (s := s) ⟨rfl, rfl, rfl, rfl, fun _ => rfl, fun _ => rfl, fun _ => rfl,
    fun _ hopen => hopen, fun _ hlink => hlink⟩ hs

theorem syncInstances_orderly {present sweep : Bool} (hs : s.Orderly)
    (hsteady : sweep || (present && s.current.isNone) → s.Steady) :
    (s.syncInstances present sweep).Orderly := by
  cases sweep with
  | true =>
    exact disconnectInstance_orderly (hs.outside s.present s.usable none) (hsteady rfl)
      (.inr (.inr rfl))
  | false =>
    have hsynced : (if present && s.current.isNone then s.build else s).Orderly := by
      split
      · rename_i hbuild
        have hcalls := (hsteady hbuild).1
        cases husable : s.usable with
        | true =>
          have hcurrent : s.current = none :=
            Option.isNone_iff_eq_none.mp ((Bool.and_eq_true _ _).mp hbuild).2
          obtain ⟨hready, hholds⟩ := build_ready hcalls (hs.vacated hcalls hcurrent).1 husable
          exact hready.orderly hholds.recorded
        | false =>
          rw [build, husable]
          exact hs
      · exact hs
    exact hsynced.outside _ _ _

theorem visit_orderly (hs : s.Orderly)
    (hguard : s.isAlive k = true ∨ (s.calls = [] ∧ s.current = some k)) : (s.visit k).Orderly := by
  have hs := hs.outside s.present s.usable none
  unfold visit
  simp only
  split
  · have halike := modifyState_alike (s := { s with tick := none }) (k := k)
      (f := fun state => { state with connected := true }) (fun _ => rfl) fun _ => rfl
    exact halike.orderly hs
  · obtain halive | ⟨hcalls, hcurrent⟩ := hguard
    · exact absurd halive ‹_›
    · obtain ⟨hready, hholds⟩ := hs.ready hcalls hcurrent
      exact attemptConnect_orderly hready hholds

theorem Orderly.only_call {call : Nat} {pending : Call} (hs : s.Orderly)
    (hcall : s.calls[call]? = some pending) :
    s.calls = [pending] ∧ s.calls.eraseIdx call = [] := by
  obtain ⟨hnil, -⟩ | ⟨only, hcalls, -⟩ := hs.phase
  · rw [hnil] at hcall
    cases hcall
  · rw [hcalls] at hcall ⊢
    cases call with
    | zero => exact ⟨congrArg (fun c => [c]) (Option.some.inj hcall), rfl⟩
    | succ call => cases hcall

end InstanceConnection

end WittyService
