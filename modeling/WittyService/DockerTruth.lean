import WittyService.DockerMemory

/-! Whether the docker backend tells the truth: `start` returns handles of containers that were
running, and after `stop` and `cleanup` the agent has no running container. The name of a
container is looked up only where the memory has none, and an error of the daemon is then taken
for its absence. -/
namespace WittyService.Docker

open GuardedRuns

/-- No attempt of a lookup is answered, and the last of them ends in an `APIError`. -/
def lookupFails : ℕ → List Attempt → Bool
  | 0, script => (script.headD {}).reply == .apiError
  | n + 1, script => (script.headD {}).reply != .answered && lookupFails n script.tail

def exitedDuring : ℕ → List Attempt → List ℕ
  | 0, script => (script.headD {}).exited
  | n + 1, script => (script.headD {}).exited ++ exitedDuring n script.tail

/-- The lookup of `_try_find_container_by_name` ends in an `APIError` while the container of the
agent runs. -/
def LookupLost (d : Daemon) (script : List Attempt) (agentId : String) : Prop :=
  lookupFails 2 script = true ∧ ∃ c ∈ d.containers,
    c.name = containerName agentId ∧ c.running = true ∧ c.id ∉ exitedDuring 2 script

theorem Daemon.exit_exit (d : Daemon) (ids ids' : List ℕ) :
    (d.exit ids).exit ids' = d.exit (ids ++ ids') := by
  simp only [Daemon.exit, List.map_map, Daemon.mk.injEq, and_true]
  refine List.map_congr_left fun c _ => ?_
  by_cases h : c.id ∈ ids
  · simp [h]
  · simp [h]

theorem Daemon.not_quiet_exit {d : Daemon} {ids : List ℕ} {name : String} :
    ¬ (d.exit ids).Quiet name ↔
      ∃ c ∈ d.containers, c.name = name ∧ c.running = true ∧ c.id ∉ ids := by
  simp only [Daemon.Quiet, Daemon.exit, List.forall_mem_map, not_forall, Bool.not_eq_false]
  refine exists_congr fun c => ?_
  by_cases h : c.id ∈ ids
  · simp [h]
  · simp [h, and_left_comm]

section

variable {s : System}

variable {script : List Attempt}

theorem lookupFails_answered (h : (script.headD {}).reply = .answered)
    (n : ℕ) : lookupFails n script = false := by
  cases n with
  | zero | succ n =>
    rw [lookupFails, h]
    rfl

theorem lookupFails_again (h : (script.headD {}).reply ≠ .answered)
    (n : ℕ) : lookupFails (n + 1) script = lookupFails n script.tail := by
  rw [lookupFails, bne_iff_ne.mpr h, Bool.true_and]

variable (name : String)

theorem containersGet_reply : Ensures (containersGet name) s fun r t =>
    t.daemon = s.daemon.exit (s.script.headD {}).exited ∧ t.script = s.script.tail ∧
      (r = .error .apiError ↔ (s.script.headD {}).reply = .apiError) ∧
      ((∃ error, r = .error error ∧ error.isRetried = true) ↔
        (s.script.headD {}).reply ≠ .answered) := by
  unfold Ensures containersGet fetch
  dsimp only
  cases (s.script.headD {}).reply with
  | answered =>
    cases (s.daemon.exit (s.script.headD {}).exited).named name with
    | none => exact ⟨rfl, rfl, by simp, by simp [Failure.isRetried]⟩
    | some c => exact ⟨rfl, rfl, by simp, by simp⟩
  | apiError | connectionError => exact ⟨rfl, rfl, by simp, by simp [Failure.isRetried]⟩

theorem retryLoop_fails (n : ℕ) :
    Ensures (retryLoop (containersGet name) n) s fun r t =>
      (r = .error .apiError ↔ lookupFails n s.script = true) ∧
        (r = .error .apiError → t.daemon = s.daemon.exit (exitedDuring n s.script)) := by
  induction n generalizing s with
  | zero =>
    refine (containersGet_reply name).mono fun r t ht => ⟨?_, fun _ => ht.1⟩
    rw [lookupFails, beq_iff_eq]
    exact ht.2.2.1
  | succ n ih =>
    refine ensures_tryCatch (containersGet_reply name) (fun o t ht => ?_) fun error t ht => ?_
    · have hanswered : (s.script.headD {}).reply = .answered := by
        by_contra h
        exact nomatch ht.2.2.2.mpr h
      rw [lookupFails_answered hanswered]
      exact ⟨iff_of_false nofun nofun, nofun⟩
    · obtain ⟨hdaemon, hscript, -, hretried⟩ := ht
      split_ifs with hr
      · -- the next attempt
        have hreply := hretried.mp ⟨error, rfl, hr⟩
        refine ih.mono fun r u hu => ?_
        rw [hscript, hdaemon, Daemon.exit_exit] at hu
        rw [lookupFails_again hreply]
        exact hu
      · have hanswered : (s.script.headD {}).reply = .answered := by
          by_contra h
          obtain ⟨error', herror', hr'⟩ := hretried.mpr h
          cases herror'
          exact hr hr'
        have hother : (.error error : Except Failure ContainerObject) ≠ .error .apiError := by
          intro h
          cases h
          exact hr (by decide)
        rw [lookupFails_answered hanswered]
        exact ensures_throw ⟨iff_of_false hother nofun, fun h => absurd h hother⟩

theorem ensures_and {α : Type} {x : DockerM α} {P Q : Except Failure α → System → Prop}
    (hP : Ensures x s P) (hQ : Ensures x s Q) : Ensures x s fun r t => P r t ∧ Q r t := ⟨hP, hQ⟩

theorem tryFindContainerByName_ensures (hvalid : s.daemon.Valid) (agentId : String) :
    Ensures (tryFindContainerByName agentId) s fun r t => Called s t ∧
      (∀ o, r = .ok (some o) → t.daemon.Own (containerName agentId) o.id) ∧
      (¬ LookupLost s.daemon s.script agentId → r = .ok none →
        t.daemon.Quiet (containerName agentId)) ∧
      (LookupLost s.daemon s.script agentId → r = .ok none ∧
        ¬ t.daemon.Quiet (containerName agentId)) := by
  have hget := ensures_and (withRetry_ensures fun t (ht : Called s t) =>
    containersGet_ensures (containerName agentId) ht)
    (retryLoop_fails (s := s) (containerName agentId) 2)
  have hlost : ∀ t : System, t.daemon = s.daemon.exit (exitedDuring 2 s.script) →
      lookupFails 2 s.script = true → (LookupLost s.daemon s.script agentId ↔
        ¬ t.daemon.Quiet (containerName agentId)) := by
    intro t hdaemon hfails
    rw [hdaemon, Daemon.not_quiet_exit, LookupLost]
    simp [hfails]
  refine ensures_suppress (R := fun r t => Called s t ∧
    (∀ o, r = .ok o → ∃ c, o = some c ∧ t.daemon.Own (containerName agentId) c.id) ∧
    (r = .error .notFound → t.daemon.Quiet (containerName agentId)) ∧
    (r = .error .apiError ↔ lookupFails 2 s.script = true) ∧
    (r = .error .apiError → t.daemon = s.daemon.exit (exitedDuring 2 s.script)))
    (ensures_map hget ?_ ?_) ?_ ?_ ?_
  · rintro o t ⟨⟨ht, c, hc, hname, hid⟩, hfails, -⟩
    have hown := Daemon.own_of_mem (ht.later.valid hvalid) hc
    rw [hname, hid] at hown
    have hother : lookupFails 2 s.script ≠ true := fun h => nomatch hfails.mpr h
    refine ⟨ht, fun o' ho' => ?_, nofun, iff_of_false nofun hother, nofun⟩
    cases ho'
    exact ⟨o, rfl, hown⟩
  · rintro error t ⟨⟨ht, hgot⟩, hfails, hdaemon⟩
    refine ⟨ht, nofun, fun herror => ?_, ?_, ?_⟩
    · cases herror
      exact fun c hc hname => absurd hname (hgot c hc)
    · rw [← hfails]
      exact ⟨fun h => by cases h; rfl, fun h => by cases h; rfl⟩
    · intro h
      cases h
      exact hdaemon rfl
  · rintro found t ⟨ht, hfound, -, hfails, -⟩
    obtain ⟨c, rfl, hown⟩ := hfound found rfl
    refine ⟨ht, fun o ho => ?_, fun _ => nofun, fun h => nomatch hfails.mpr h.1⟩
    cases ho
    exact hown
  · -- an error of the daemon is caught like the answer that there is no such container
    rintro error t hcaught ⟨ht, -, hquiet, hfails, hdaemon⟩
    refine ⟨ht, nofun, fun hnot _ => ?_, fun h => ⟨rfl, ?_⟩⟩
    · have hcases : error = .notFound ∨ error = .apiError := by simpa using hcaught
      rcases hcases with rfl | rfl
      · exact hquiet rfl
      · by_contra hrunning
        exact hnot ((hlost t (hdaemon rfl) (hfails.mp rfl)).mpr hrunning)
    · exact (hlost t (hdaemon (hfails.mpr h.1)) h.1).mp h
  · rintro error t hcaught ⟨ht, -, -, hfails, -⟩
    -- a connection error is not caught
    refine ⟨ht, nofun, fun _ => nofun, fun h => ?_⟩
    cases hfails.mpr h.1
    exact absurd hcaught (by decide)

end

section

variable {s t : System} {issued : List SandboxHandle}

variable {Q : Except Failure Unit → System → Prop} {name : String} {o : ContainerObject}
  {handle : SandboxHandle}

theorem caughtError_ensures {x : DockerM Unit} (hx : Ensures x s fun r t => Called s t ∧ Q r t) :
    Ensures (caughtError x) s fun r t => Called s t ∧
      ∃ error, r = .ok error ∧ (error = none → Q (.ok ()) t ∨ Q (.error .notFound) t) := by
  refine ensures_tryCatch (R := fun r t => Called s t ∧
      (∀ error, r = .ok error → error = none ∧ Q (.ok ()) t) ∧
      ∀ error, r = .error error → Q (.error error) t) ?_ ?_ ?_
  · refine ensures_bind hx (fun _ t ht => ensures_pure ⟨ht.1, fun error h => ?_, nofun⟩)
      fun error t ht => ⟨ht.1, nofun, fun error' h => ?_⟩
    · cases h
      exact ⟨rfl, ht.2⟩
    · cases h
      exact ht.2
  · rintro error t ⟨ht, hok, -⟩
    obtain ⟨rfl, hq⟩ := hok error rfl
    exact ⟨ht, none, rfl, fun _ => .inl hq⟩
  · rintro error t ⟨ht, -, herror⟩
    split
    · exact ensures_pure ⟨ht, none, rfl, fun _ => .inr (herror _ rfl)⟩
    · exact ensures_pure ⟨ht, some error, rfl, nofun⟩

theorem stopped_ensures (id : ℕ) : Ensures (caughtError (withRetry (containerStop id))) s
    fun r t => Called s t ∧ ∃ error, r = .ok error ∧ (error = none → Halted id t) := by
  refine (caughtError_ensures (withRetry_ensures fun t ht => containerStop_ensures ht)).mono ?_
  rintro r t ⟨ht, error, hr, hhalted⟩
  exact ⟨ht, error, hr, fun h => (hhalted h).elim (· (.inl rfl)) (· (.inr rfl))⟩

theorem quiet_of_halted {id : ℕ} (hown : t.daemon.Own name id)
    (h : Halted id t) : t.daemon.Quiet name :=
  fun c hc hname => h c hc (hown c hc hname)

theorem stopContainer_ensures
    (hown : s.daemon.Own name o.id) : Ensures (stopContainer o) s fun r t => Called s t ∧
      (r = .ok () → t.daemon.Quiet name) := by
  refine ensures_bind (stopped_ensures o.id) ?_ fun error t ht => ⟨ht.1, nofun⟩
  rintro error t ⟨ht, _, hr, hhalted⟩
  cases hr
  cases error with
  | some error => exact ensures_throw ⟨ht, nofun⟩
  | none =>
    have hquiet := quiet_of_halted (ht.later.own hown) (hhalted rfl)
    exact ensures_suppress (withRetry_ensures fun u hu => containerRemove_ensures hu)
      (fun _ u hu => ⟨ht.trans hu.1, fun _ => hu.1.later.quiet hquiet⟩)
      (fun _ u _ hu => ⟨ht.trans hu.1, fun _ => hu.1.later.quiet hquiet⟩) nofun

theorem cleanupContainer_ensures
    (hown : s.daemon.Own name o.id) : Ensures (cleanupContainer o) s fun r t => Called s t ∧
      ∃ errors, r = .ok errors ∧ (errors = (none, none) → t.daemon.Quiet name) := by
  refine ensures_bind (stopped_ensures o.id) ?_ ?_
  · rintro _ t ⟨ht, error, hr, hhalted⟩
    cases hr
    refine ensures_bind (caughtError_ensures
      (withRetry_ensures fun u hu => containerRemove_ensures hu)) ?_ ?_
    · rintro removeError u ⟨hu, -⟩
      refine ensures_pure ⟨ht.trans hu, _, rfl, fun h => ?_⟩
      have hnone := congrArg Prod.fst h
      exact hu.later.quiet (quiet_of_halted (ht.later.own hown) (hhalted hnone))
    · rintro error u ⟨-, _, h, -⟩
      cases h
  · rintro error t ⟨-, _, h, -⟩
    cases h

/-- The memory has no container for the handle, and the lookup by name is lost. -/
def Lost (s : System) (handle : SandboxHandle) : Prop :=
  s.containers.get? handle.sandboxId = none ∧ LookupLost s.daemon s.script handle.agentId

theorem findContainer_ensures (hs : Sound s issued)
    (hissued : handle ∈ issued) : Ensures (findContainer handle) s fun r t => Called s t ∧
      (∀ o, r = .ok (some o) → t.daemon.Own (containerName handle.agentId) o.id) ∧
      (¬ Lost s handle → r = .ok none → t.daemon.Quiet (containerName handle.agentId)) ∧
      (Lost s handle → r = .ok none ∧ ¬ t.daemon.Quiet (containerName handle.agentId)) := by
  refine ensures_get ?_
  cases ho : s.containers.get? handle.sandboxId with
  | some o =>
    refine ensures_pure ⟨Called.refl s, fun o' ho' => ?_, fun _ => nofun, fun h => ?_⟩
    · cases ho'
      exact hs.own handle hissued o ho
    · rw [Lost, ho] at h
      cases h.1
  | none =>
    refine (tryFindContainerByName_ensures hs.valid handle.agentId).mono ?_
    rintro r t ⟨ht, hown, hquiet, hlost⟩
    exact ⟨ht, hown, fun h => hquiet fun hlookup => h ⟨ho, hlookup⟩, fun h => hlost h.2⟩

theorem Sound.forgotten (hs : Sound s issued) (sandboxId : ℕ) :
    Sound { s with containers := s.containers.erase sandboxId
                   handles := s.handles.erase sandboxId } issued := by
  refine ⟨hs.valid, hs.fresh, hs.agents, fun key h hh => ?_, fun key o ho => ?_,
    fun h hh o ho => ?_, hs.seen⟩
  · rw [OrderedDict.get?_erase] at hh
    split_ifs at hh
    exact hs.kept key h hh
  · rw [OrderedDict.get?_erase] at ho ⊢
    split_ifs at ho ⊢
    exact hs.held key o ho
  · rw [OrderedDict.get?_erase] at ho
    split_ifs at ho
    exact hs.own h hh o ho

/-- What `stop` and `cleanup` leave behind: the agent has no running container where they return,
exactly when the lookup is not lost. -/
def Ended (issued : List SandboxHandle) (s : System) (ref : HandleRef)
    (r : Except Failure Unit) (t : System) : Prop :=
  Sound t issued ∧ ∀ handle, s.resolveHandle ref = some handle →
    ((r = .ok () → t.daemon.Quiet (containerName handle.agentId)) ↔ ¬ Lost s handle)

variable {ref : HandleRef}

theorem resolved_ensures {f : SandboxHandle → DockerM Unit}
    (hnone : s.resolveHandle ref = none → ∀ error, Q (.error error) s)
    (hsome : ∀ handle, s.resolveHandle ref = some handle → Ensures (f handle) s Q) :
    Ensures (resolveHandle ref >>= f) s Q := by
  cases hresolve : s.resolveHandle ref with
  | none =>
    refine ensures_bind (R := fun r t => (∃ error, r = .error error) ∧ t = s) ?_ ?_ ?_
    · refine ensures_get ?_
      rw [hresolve]
      exact ensures_throw ⟨⟨_, rfl⟩, rfl⟩
    · rintro handle t ⟨⟨error, h⟩, -⟩
      cases h
    · rintro error t ⟨-, rfl⟩
      exact hnone hresolve error
  | some handle =>
    refine ensures_bind (R := fun r t => r = .ok handle ∧ t = s) ?_ ?_ ?_
    · refine ensures_get ?_
      rw [hresolve]
      exact ensures_pure ⟨rfl, rfl⟩
    · rintro _ t ⟨h, ht⟩
      cases h
      exact ht ▸ hsome handle hresolve
    · rintro error t ⟨h, -⟩
      cases h

theorem ended_of_resolved (issued : List SandboxHandle)
    {r : Except Failure Unit} (hresolve : s.resolveHandle ref = some handle) (ht : Sound t issued)
    (hiff : (r = .ok () → t.daemon.Quiet (containerName handle.agentId)) ↔ ¬ Lost s handle) :
    Ended issued s ref r t := by
  refine ⟨ht, fun handle' h => ?_⟩
  rw [hresolve] at h
  cases h
  exact hiff

section

variable (hs : Sound s issued)
  (hissued : ∀ handle, s.resolveHandle ref = some handle → handle ∈ issued)
include hs hissued

theorem found_ensures {f : SandboxHandle → Option ContainerObject → DockerM Unit}
    (hnone : ∀ handle t, s.resolveHandle ref = some handle → Sound t issued →
      (t.daemon.Quiet (containerName handle.agentId) ↔ ¬ Lost s handle) →
      Ensures (f handle none) t fun r t => Ended issued s ref r t)
    (hsome : ∀ handle o t, s.resolveHandle ref = some handle → Sound t issued →
      t.daemon.Own (containerName handle.agentId) o.id → ¬ Lost s handle →
      Ensures (f handle (some o)) t fun r t => Ended issued s ref r t) :
    Ensures (resolveHandle ref >>= fun handle => findContainer handle >>= f handle) s
      fun r t => Ended issued s ref r t := by
  refine resolved_ensures (fun hunknown error => ⟨hs, fun handle h => ?_⟩)
    fun handle hresolve => ?_
  · rw [hunknown] at h
    cases h
  refine ensures_bind (findContainer_ensures hs (hissued handle hresolve)) ?_ ?_
  · rintro (_ | o) t ⟨ht, hown, hquiet, hlost⟩
    · apply hnone handle t hresolve (hs.called ht)
      exact ⟨fun h hl => (hlost hl).2 h, fun h => hquiet h rfl⟩
    · apply hsome handle o t hresolve (hs.called ht) (hown o rfl)
      exact fun h => nomatch (hlost h).1
  · rintro error t ⟨ht, -, -, hlost⟩
    have hnot : ¬ Lost s handle := fun h => nomatch (hlost h).1
    exact ended_of_resolved issued hresolve (hs.called ht) (iff_of_true nofun hnot)

theorem stop_ensures :
    Ensures (stop ref) s fun r t => Ended issued s ref r t := by
  refine found_ensures hs hissued ?_ ?_
  · intro handle t hresolve ht hiff
    exact ended_of_resolved issued hresolve (ht.forgotten handle.sandboxId)
      ⟨fun h => hiff.mp (h rfl), fun h _ => hiff.mpr h⟩
  · intro handle o t hresolve ht hown hnot
    refine ensures_bind (stopContainer_ensures hown) ?_ ?_
    · intro _ u hu
      exact ended_of_resolved issued hresolve ((ht.called hu.1).forgotten handle.sandboxId)
        (iff_of_true (fun _ => hu.2 rfl) hnot)
    · intro error u hu
      exact ended_of_resolved issued hresolve (ht.called hu.1) (iff_of_true nofun hnot)

theorem cleanup_ensures :
    Ensures (cleanup ref) s fun r t => Ended issued s ref r t := by
  refine found_ensures hs hissued ?_ ?_
  · intro handle t hresolve ht hiff
    exact ended_of_resolved issued hresolve (ht.forgotten handle.sandboxId)
      ⟨fun h => hiff.mp (h rfl), fun h _ => hiff.mpr h⟩
  · intro handle o t hresolve ht hown hnot
    have hended := fun {r t} => ended_of_resolved issued (r := r) (t := t) hresolve
    refine ensures_bind (cleanupContainer_ensures hown) ?_ ?_
    · rintro errors u ⟨hu, _, h, hnone⟩
      cases h
      have hsound := (ht.called hu).forgotten handle.sandboxId
      refine ensures_bind (R := fun _ v => Sound v issued ∧ v.daemon = u.daemon)
        ⟨hsound, rfl⟩ ?_ fun error v hv => hended hv.1 (iff_of_true nofun hnot)
      rintro _ v ⟨hv, hdaemon⟩
      split_ifs with herrors
      · refine ensures_pure (hended hv (iff_of_true (fun _ => ?_) hnot))
        rw [hdaemon]
        exact hnone herrors
      · exact ensures_throw (hended hv (iff_of_true nofun hnot))
    · rintro error u ⟨-, _, h, -⟩
      cases h

end

end

variable {validate : String → Except String String} {s s' : State} {event : Event}

/-- What a call promises, when it returns. -/
def Honest (s : State) (event : Event) (r : Except Failure (Option SandboxHandle)) (s' : State) :
    Prop :=
  match event with
  | .start request _ => ∀ handle, r = .ok (some handle) → handle.agentId = request.agentId ∧
      (containerName request.agentId, handle.containerId) ∈ s'.system.daemon.seen
  | .stop ref _ | .cleanup ref _ => ∀ handle, s.system.resolveHandle ref = some handle →
      r = .ok none → s'.system.daemon.Quiet (containerName handle.agentId)
  | .exit _ | .restart => True

def KeepsTruth (s : State) : Event → Prop
  | .stop ref script | .cleanup ref script => ∀ handle, s.system.resolveHandle ref = some handle →
      s.system.containers.get? handle.sandboxId = none →
      ¬ LookupLost s.system.daemon script handle.agentId
  | _ => True

section

variable {s : System} {issued : List SandboxHandle} (hs : Sound s issued)
include hs

theorem Sound.restarted :
    Sound s.restarted issued where
  valid := hs.valid
  fresh := hs.fresh
  agents := hs.agents
  kept _ _ := nofun
  held _ _ := nofun
  own _ _ _ := nofun
  seen := hs.seen

theorem Sound.withScript (script : List Attempt) : Sound { s with script } issued :=
  hs.called ⟨.refl _, rfl, rfl, rfl⟩

theorem Sound.resolved {ref : HandleRef} (href : ∀ handle, ref = .object handle → handle ∈ issued)
    {handle : SandboxHandle} (h : s.resolveHandle ref = some handle) : handle ∈ issued := by
  cases ref with
  | object handle' =>
    cases h
    exact href handle rfl
  | id sandboxId => exact (hs.kept sandboxId handle h).1

end

theorem Ended.honest_iff {s t : System} {issued : List SandboxHandle} {ref : HandleRef}
    {script : List Attempt} {r : Except Failure Unit}
    (h : Ended issued { s with script } ref r t) :
    (∀ handle, s.resolveHandle ref = some handle →
      (r.map fun _ => (none : Option SandboxHandle)) = .ok none →
        t.daemon.Quiet (containerName handle.agentId)) ↔
      ∀ handle, s.resolveHandle ref = some handle →
        s.containers.get? handle.sandboxId = none →
          ¬ LookupLost s.daemon script handle.agentId := by
  have hreturns : (r.map fun _ => (none : Option SandboxHandle)) = .ok none ↔ r = .ok () := by
    cases r with
    | ok _ => exact iff_of_true rfl rfl
    | error _ => exact iff_of_false nofun nofun
  rw [hreturns]
  refine forall₂_congr fun handle hresolve => ?_
  have hresolve' : ({ s with script } : System).resolveHandle ref = some handle := by
    cases ref with
    | object _ | id _ => exact hresolve
  rw [h.2 handle hresolve', Lost, not_and]

theorem honest_iff (hs : Sound s.system s.issued) (hissued : event.handlesIssued s.issued = true) :
    Sound (perform validate s event).2.system (perform validate s event).2.issued ∧
      (Honest s event (perform validate s event).1 (perform validate s event).2 ↔
        KeepsTruth s event) := by
  cases event with
  | start request script =>
    have hstart : Started s.issued request.agentId _ _ :=
      start_ensures validate request (hs.withScript script)
    unfold perform
    dsimp only
    rcases hrun : start validate request { s.system with script } with ⟨r, t⟩
    rw [hrun] at hstart
    cases r with
    | error error => exact ⟨hstart.1 error rfl, iff_of_true nofun trivial⟩
    | ok handle =>
      obtain ⟨hsound, hagent⟩ := hstart.2 handle rfl
      refine ⟨hsound, iff_of_true (fun handle' h => ?_) trivial⟩
      cases h
      exact ⟨hagent, hagent ▸ hsound.seen handle (List.mem_append_right _ List.mem_cons_self)⟩
  | stop ref script =>
    have hended : Ended s.issued { s.system with script } ref _ _ :=
      stop_ensures (hs.withScript script) fun handle h => by
        refine (hs.withScript script).resolved (fun handle' href => ?_) h
        subst href
        simpa [Event.handlesIssued] using hissued
    exact ⟨hended.1, hended.honest_iff⟩
  | cleanup ref script =>
    have hended : Ended s.issued { s.system with script } ref _ _ :=
      cleanup_ensures (hs.withScript script) fun handle h => by
        refine (hs.withScript script).resolved (fun handle' href => ?_) h
        subst href
        simpa [Event.handlesIssued] using hissued
    exact ⟨hended.1, hended.honest_iff⟩
  | exit ids =>
    exact ⟨hs.called ⟨Daemon.later_exit _ _, rfl, rfl, rfl⟩, iff_of_true trivial trivial⟩
  | restart => exact ⟨hs.restarted, iff_of_true trivial trivial⟩

/-- In every run each call that returns keeps its promise if and only if no `stop` and no
`cleanup` looks up a running container by name in vain. -/
theorem docker_truthful_iff (validate : String → Except String String) (daemon : Daemon)
    (hvalid : daemon.Valid) (events : List Event) :
    Guarded (step validate) (fun s event =>
        Honest s event (perform validate s event).1 (perform validate s event).2)
        { system := { daemon } } events ↔
      Guarded (step validate) KeepsTruth { system := { daemon } } events := by
  have hinit : Sound { daemon } [] := ⟨hvalid, nofun, nofun, by nofun, by nofun, nofun, nofun⟩
  have hstep : ∀ s event s', step validate s event = some s' →
      event.handlesIssued s.issued = true ∧ s' = (perform validate s event).2 := by
    intro s event s' h
    unfold step at h
    split_ifs at h with hissued
    exact ⟨hissued, (Option.some.inj h).symm⟩
  refine guarded_iff_guarded_among (J := fun s => Sound s.system s.issued)
    (fun s event s' hs _ _ h => ?_) (fun s event s' hs _ h => ?_) (guarded_true _ _) hinit
  · obtain ⟨hissued, rfl⟩ := hstep s event s' h
    exact (honest_iff hs hissued).1
  · exact (honest_iff hs (hstep s event s' h).1).2

def resumed : List Event := [
  .start ⟨"a", "/w", some "v1"⟩ [],
  .restart,
  .stop (.object ⟨0, "a", "/w", 0, 0, false⟩) []]

theorem resumed_truthful : Guarded (step .ok) (fun s event =>
    Honest s event (perform .ok s event).1 (perform .ok s event).2) {} resumed := by
  refine (docker_truthful_iff .ok {} ⟨.nil, .nil, nofun⟩ resumed).mpr ?_
  refine fun _ _ => ⟨trivial, fun _ _ => ⟨trivial, fun _ _ => ⟨?_, trivial⟩⟩⟩
  exact fun handle _ _ hlost => absurd hlost.1 (by decide)

/-- After a restart the daemon fails the three attempts of the lookup: `stop` returns and the
container runs on. -/
theorem running_container_overlooked : ¬ ∀ (validate : String → Except String String)
    (events : List Event), Guarded (step validate) (fun s event =>
      Honest s event (perform validate s event).1 (perform validate s event).2) {} events := by
  intro h
  let failing : Attempt := { reply := .apiError }
  have hsteps := h .ok [
    .start ⟨"a", "/w", some "v1"⟩ [],
    .restart,
    .stop (.object ⟨0, "a", "/w", 0, 0, false⟩) [failing, failing, failing]]
  obtain ⟨-, hsteps⟩ := hsteps _ rfl
  obtain ⟨-, hsteps⟩ := hsteps _ rfl
  have hquiet := (hsteps _ rfl).1 _ rfl rfl
  exact nomatch hquiet ⟨0, "witty-sandbox-a", true, 0⟩ List.mem_cons_self rfl

end WittyService.Docker
