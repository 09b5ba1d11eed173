import WittyService.DockerCalls

/-! What `start` leaves in the memory of the docker backend: the container of every handle is the
only one of its agent's name, and an answer has shown it running. -/
namespace WittyService.Docker

section

variable {s : System}

/-- A container that is found is the one of that name, and an answer has shown it running. -/
def Seen (name : String) (r : Except Failure (Option ContainerObject)) (t : System) : Prop :=
  ∀ o, r = .ok (some o) → t.daemon.Own name o.id ∧ (name, o.id) ∈ t.daemon.seen

variable (name : String) (o : ContainerObject)

theorem tryFindContainer_ensures (hvalid : s.daemon.Valid) :
    Ensures (tryFindContainer name) s fun r t => Called s t ∧ Seen name r t := by
  have hget := optional_ensures (fun error => error = .notFound)
    (withRetry_ensures fun t (ht : Called s t) => containersGet_ensures name ht)
  refine ensures_bind hget ?_ fun error t ht => ⟨ht.1, nofun⟩
  rintro (_ | found) t ⟨ht, hfound⟩
  · exact ensures_pure ⟨ht, nofun⟩
  obtain ⟨c, hc, hname, hid⟩ := hfound found rfl
  have hreload := optional_ensures Failure.isDockerError
    (withRetry_ensures fun u (hu : Called t u) => reload_ensures (o := found) hu)
  refine ensures_bind hreload ?_ fun error u hu => ⟨ht.trans hu.1, nofun⟩
  rintro (_ | o) u ⟨hu, hreloaded⟩
  · exact ensures_pure ⟨ht.trans hu, nofun⟩
  dsimp only
  split_ifs with hrunning
  · refine ensures_pure ⟨ht.trans hu, fun o' ho' => ?_⟩
    cases ho'
    obtain ⟨hsame, hseen⟩ := hreloaded o rfl
    obtain ⟨c', hc', hid', hmem⟩ := hseen hrunning
    -- the id still belongs to the container that has been found
    obtain ⟨c'', hc'', hid'', hname''⟩ := hu.later.mem hc'
    have heq : c'' = c := by
      refine List.inj_on_of_nodup_map (ht.later.valid hvalid).ids hc'' hc ?_
      rw [hid'', hid', hid]
    have hown := hu.later.own (Daemon.own_of_mem (ht.later.valid hvalid) hc)
    rw [← hname'', heq, hname, ← hsame] at hmem
    rw [hname, hid, ← hsame] at hown
    exact ⟨hown, hmem⟩
  · refine ensures_bind (R := fun _ v => Called s v) ?_ (fun _ v hv => ensures_pure ⟨hv, nofun⟩)
      fun error v hv => ⟨hv, nofun⟩
    exact ensures_suppress (containerRemove_ensures (ht.trans hu)) (fun _ v hv => hv.1)
      (fun error v _ hv => hv.1) fun error v _ hv => hv.1

theorem extractHostPort_ensures :
    Ensures (extractHostPort o) s fun r t => Called s t ∧
      ∀ o' port, r = .ok (o', port) → o'.id = o.id := by
  unfold extractHostPort
  cases o.port with
  | some port =>
    refine ensures_pure ⟨Called.refl s, fun o' port' h => ?_⟩
    cases h
    rfl
  | none =>
    have hreload := optional_ensures Failure.isDockerError
      (withRetry_ensures fun t (ht : Called s t) => reload_ensures (o := o) ht)
    refine ensures_bind hreload ?_ fun error t ht => ⟨ht.1, nofun⟩
    rintro (_ | o') t ⟨ht, hid⟩
    · exact ensures_throw ⟨ht, nofun⟩
    dsimp only
    cases o'.port with
    | none => exact ensures_throw ⟨ht, nofun⟩
    | some port =>
      refine ensures_pure ⟨ht, fun o'' port' h => ?_⟩
      cases h
      exact (hid o' rfl).1

/-- The handle of a container is in the memory, under an id that is new. -/
structure Registered (s : System) (id : ℕ) (agentId : String) (handle : SandboxHandle)
    (t : System) : Prop where
  later : s.daemon.Later t.daemon
  agentId : handle.agentId = agentId
  containerId : handle.containerId = id
  sandboxId : handle.sandboxId = s.nextSandbox
  nextSandbox : t.nextSandbox = s.nextSandbox + 1
  handles : ∀ key, t.handles.get? key =
    if key = handle.sandboxId then some handle else s.handles.get? key
  containers : ∃ o, o.id = id ∧ ∀ key, t.containers.get? key =
    if key = handle.sandboxId then some o else s.containers.get? key

theorem Registered.reconnected {id : ℕ} {agentId : String} {handle : SandboxHandle} {t : System}
    (h : Registered s id agentId handle t) :
    Registered s id agentId { handle with reconnected := true }
      { t with handles := t.handles.set handle.sandboxId { handle with reconnected := true } } := by
  refine ⟨h.later, h.agentId, h.containerId, h.sandboxId, h.nextSandbox, fun key => ?_,
    h.containers⟩
  rw [OrderedDict.get?_set, h.handles]
  split_ifs
  · rfl
  · rfl

theorem buildHandleFromContainer_ensures (agentId workspacePath : String) :
    Ensures (buildHandleFromContainer o agentId workspacePath) s fun r t =>
      (∀ error, r = .error error → Called s t) ∧
        ∀ handle, r = .ok handle → Registered s o.id agentId handle t := by
  refine ensures_bind (extractHostPort_ensures o) ?_ fun error t ht => ⟨fun _ _ => ht.1, nofun⟩
  rintro ⟨o', port⟩ t ⟨ht, hid⟩
  refine ⟨nofun, fun handle hhandle => ?_⟩
  have hsame := hid o' port rfl
  obtain rfl := Except.ok.inj hhandle
  refine ⟨ht.later, rfl, hsame, ht.nextSandbox, ?_, fun key => ?_, o', hsame, fun key => ?_⟩
  · show t.nextSandbox + 1 = s.nextSandbox + 1
    rw [ht.nextSandbox]
  · rw [← ht.handles]
    exact OrderedDict.get?_set
  · rw [← ht.containers]
    exact OrderedDict.get?_set

/-- A container has been created where there was none of that name. -/
structure Created (s : System) (name : String) (id : ℕ) (t : System) : Prop where
  nextSandbox : t.nextSandbox = s.nextSandbox
  handles : t.handles = s.handles
  containers : t.containers = s.containers
  daemon : ∃ d c, s.daemon.Later d ∧ (∀ c ∈ d.containers, c.name ≠ name) ∧ c.id = d.nextId ∧
    c.name = name ∧ c.id = id ∧
    t.daemon = ⟨d.containers ++ [c], d.nextId + 1, d.seen ++ [(name, id)]⟩

theorem containersRun_ensures :
    Ensures (containersRun name) s fun r t => (∀ error, r = .error error → Called s t) ∧
      ∀ o, r = .ok o → Created s name o.id t := by
  refine fetch_ensures (fun attempt t ht => ?_) (fun t ht => ⟨fun _ _ => ht, nofun⟩)
    fun t ht => ⟨fun _ _ => ht, nofun⟩
  cases hfind : t.daemon.named name with
  | some c => exact ⟨fun _ _ => ht, nofun⟩
  | none =>
    refine ⟨nofun, fun o ho => ?_⟩
    obtain rfl := Except.ok.inj ho
    refine ⟨ht.nextSandbox, ht.handles, ht.containers, t.daemon, _, ht.later, fun c hc => ?_,
      rfl, rfl, rfl, rfl⟩
    simpa using List.find?_eq_none.mp hfind c hc

end

structure Sound (s : System) (issued : List SandboxHandle) : Prop where
  valid : s.daemon.Valid
  fresh : ∀ h ∈ issued, h.sandboxId < s.nextSandbox
  agents : ∀ h ∈ issued, ∀ h' ∈ issued, h.sandboxId = h'.sandboxId → h.agentId = h'.agentId
  kept : ∀ key h, s.handles.get? key = some h → h ∈ issued ∧ h.sandboxId = key
  held : ∀ key o, s.containers.get? key = some o → ∃ h, s.handles.get? key = some h
  own : ∀ h ∈ issued, ∀ o, s.containers.get? h.sandboxId = some o →
    s.daemon.Own (containerName h.agentId) o.id
  seen : ∀ h ∈ issued, (containerName h.agentId, h.containerId) ∈ s.daemon.seen

theorem containerName_injective {a b : String} (h : containerName a = containerName b) : a = b :=
  String.append_right_inj CONTAINER_NAME_PREFIX |>.mp h

namespace Sound

variable {s t : System} {issued : List SandboxHandle} {handle : SandboxHandle}

theorem called (hs : Sound s issued) (h : Called s t) : Sound t issued where
  valid := h.later.valid hs.valid
  fresh := by
    rw [h.nextSandbox]
    exact hs.fresh
  agents := hs.agents
  kept := by
    rw [h.handles]
    exact hs.kept
  held := by
    rw [h.handles, h.containers]
    exact hs.held
  own := by
    rw [h.containers]
    exact fun h' hh' o ho => h.later.own (hs.own h' hh' o ho)
  seen := fun h' hh' => h.later.seen (hs.seen h' hh')

theorem again (hs : Sound s issued) (h : handle ∈ issued) : Sound s (issued ++ [handle]) := by
  have hmem : ∀ h' ∈ issued ++ [handle], h' ∈ issued := by
    intro h' hh'
    rcases List.mem_append.mp hh' with hh' | hh'
    · exact hh'
    · rwa [List.mem_singleton.mp hh']
  refine ⟨hs.valid, fun h' hh' => hs.fresh h' (hmem h' hh'), fun h₁ h₁' h₂ h₂' => ?_,
    fun key h' hh' => ?_, hs.held, fun h' hh' => hs.own h' (hmem h' hh'),
    fun h' hh' => hs.seen h' (hmem h' hh')⟩
  · exact hs.agents h₁ (hmem h₁ h₁') h₂ (hmem h₂ h₂')
  · obtain ⟨hissued, hkey⟩ := hs.kept key h' hh'
    exact ⟨List.mem_append_left _ hissued, hkey⟩

theorem registered {id : ℕ} {agentId : String} (hs : Sound s issued)
    (h : Registered s id agentId handle t) (hown : t.daemon.Own (containerName agentId) id)
    (hseen : (containerName agentId, id) ∈ t.daemon.seen) : Sound t (issued ++ [handle]) := by
  have hnew : ∀ h' ∈ issued, h'.sandboxId ≠ handle.sandboxId := by
    intro h' hh'
    have hbelow := hs.fresh h' hh'
    rw [h.sandboxId]
    omega
  obtain ⟨o, ho, hcontainers⟩ := h.containers
  refine ⟨h.later.valid hs.valid, ?_, ?_, ?_, ?_, ?_, ?_⟩
  · rw [h.nextSandbox]
    refine List.forall_mem_append.mpr ⟨fun h' hh' => Nat.lt_succ_of_lt (hs.fresh h' hh'), ?_⟩
    simp only [List.forall_mem_singleton, h.sandboxId]
    omega
  · intro h₁ hh₁ h₂ hh₂ heq
    rcases List.mem_append.mp hh₁ with hh₁ | hh₁
    · rcases List.mem_append.mp hh₂ with hh₂ | hh₂
      · exact hs.agents h₁ hh₁ h₂ hh₂ heq
      · rw [List.mem_singleton.mp hh₂] at heq
        exact absurd heq (hnew h₁ hh₁)
    · rw [List.mem_singleton.mp hh₁] at heq ⊢
      rcases List.mem_append.mp hh₂ with hh₂ | hh₂
      · exact absurd heq.symm (hnew h₂ hh₂)
      · rw [List.mem_singleton.mp hh₂]
  · intro key h' hh'
    rw [h.handles] at hh'
    split_ifs at hh' with hkey
    · cases hh'
      exact ⟨List.mem_append_right _ List.mem_cons_self, hkey.symm⟩
    · obtain ⟨hissued, hsame⟩ := hs.kept key h' hh'
      exact ⟨List.mem_append_left _ hissued, hsame⟩
  · intro key o' ho'
    rw [h.handles]
    rw [hcontainers] at ho'
    split_ifs at ho' ⊢
    · exact ⟨handle, rfl⟩
    · exact hs.held key o' ho'
  · intro h' hh' o' ho'
    rw [hcontainers] at ho'
    rcases List.mem_append.mp hh' with hh' | hh'
    · rw [if_neg (hnew h' hh')] at ho'
      exact h.later.own (hs.own h' hh' o' ho')
    · rw [List.mem_singleton.mp hh'] at ho' ⊢
      rw [if_pos rfl] at ho'
      cases ho'
      rwa [h.agentId, ho]
  · refine List.forall_mem_append.mpr ⟨fun h' hh' => h.later.seen (hs.seen h' hh'), ?_⟩
    simp only [List.forall_mem_singleton, h.agentId, h.containerId]
    exact hseen

theorem created {name : String} {id : ℕ} (hs : Sound s issued) (h : Created s name id t)
    (hfree : ∀ h' ∈ issued, ∀ o, s.containers.get? h'.sandboxId = some o →
      containerName h'.agentId ≠ name) :
    Sound t issued ∧ t.daemon.Own name id ∧ (name, id) ∈ t.daemon.seen := by
  obtain ⟨d, c, hlater, hnone, hnext, hname, hid, hd⟩ := h.daemon
  have hvalid := hlater.valid hs.valid
  have hfresh : ∀ c' ∈ d.containers, c'.id ≠ c.id := by
    intro c' hc' heq
    have hbelow := hvalid.below c' hc'
    omega
  refine ⟨⟨?_, ?_, hs.agents, ?_, ?_, ?_, ?_⟩, ?_, ?_⟩
  · rw [hd]
    refine ⟨?_, ?_, ?_⟩
    · rw [List.map_append]
      refine hvalid.ids.append (List.nodup_singleton _) fun key hold hkey => ?_
      obtain ⟨c', hc', rfl⟩ := List.mem_map.mp hold
      exact hfresh c' hc' (List.mem_singleton.mp hkey)
    · rw [List.map_append]
      refine hvalid.names.append (List.nodup_singleton _) fun key hold hkey => ?_
      obtain ⟨c', hc', rfl⟩ := List.mem_map.mp hold
      exact hnone c' hc' ((List.mem_singleton.mp hkey).trans hname)
    · refine List.forall_mem_append.mpr ⟨fun c' hc' => ?_, ?_⟩
      · exact Nat.lt_succ_of_lt (hvalid.below c' hc')
      · simp only [List.forall_mem_singleton]
        omega
  · rw [h.nextSandbox]
    exact hs.fresh
  · rw [h.handles]
    exact hs.kept
  · rw [h.handles, h.containers]
    exact hs.held
  · rw [h.containers, hd]
    intro h' hh' o ho
    refine List.forall_mem_append.mpr ⟨hlater.own (hs.own h' hh' o ho), ?_⟩
    simp only [List.forall_mem_singleton, hname]
    exact fun heq => absurd heq.symm (hfree h' hh' o ho)
  · rw [hd]
    exact fun h' hh' => List.mem_append_left _ (hlater.seen (hs.seen h' hh'))
  · rw [hd]
    refine List.forall_mem_append.mpr ⟨fun c' hc' heq => absurd heq (hnone c' hc'), ?_⟩
    simp only [List.forall_mem_singleton]
    exact fun _ => hid
  · rw [hd]
    exact List.mem_append_right _ List.mem_cons_self

end Sound

section

variable {s t : System} {issued : List SandboxHandle} {handle : SandboxHandle}

theorem Sound.found {agentId : String} (hs : Sound s issued)
    (h : s.findHandleByAgentId agentId = some handle) :
    handle ∈ issued ∧ handle.agentId = agentId := by
  obtain ⟨⟨key, value⟩, hfind, rfl⟩ := Option.map_eq_some_iff.mp h
  have hmem := List.mem_of_find?_eq_some hfind
  exact ⟨(hs.kept key value (OrderedDict.get?_eq_some_iff.mpr hmem)).1,
    by simpa using List.find?_some hfind⟩

theorem Sound.free (agentId : String) (hs : Sound s issued)
    (h : s.findHandleByAgentId agentId = none) :
    ∀ h' ∈ issued, ∀ o, s.containers.get? h'.sandboxId = some o →
      containerName h'.agentId ≠ containerName agentId := by
  intro h' hh' o ho hname
  obtain ⟨handle, hhandle⟩ := hs.held h'.sandboxId o ho
  obtain ⟨hissued, hid⟩ := hs.kept h'.sandboxId handle hhandle
  have hagent : handle.agentId = agentId :=
    (hs.agents handle hissued h' hh' hid).trans (containerName_injective hname)
  have hnone := List.find?_eq_none.mp (Option.map_eq_none_iff.mp h) _
    (OrderedDict.get?_eq_some_iff.mp hhandle)
  exact hnone (by simpa using hagent)

/-- What `start` leaves behind: where it returns a handle, the handle is the agent's and an answer
has shown its container running. -/
def Started (issued : List SandboxHandle) (agentId : String)
    (r : Except Failure SandboxHandle) (t : System) : Prop :=
  (∀ error, r = .error error → Sound t issued) ∧
    ∀ handle, r = .ok handle → Sound t (issued ++ [handle]) ∧ handle.agentId = agentId

theorem start_ensures (validate : String → Except String String) (request : StartRequest)
    (hs : Sound s issued) :
    Ensures (start validate request) s fun r t => Started issued request.agentId r t := by
  unfold start
  cases validate request.workspacePath with
  | error message => exact ensures_throw ⟨fun _ _ => hs, nofun⟩
  | ok workspacePath =>
    refine ensures_get ?_
    cases hfind : s.findHandleByAgentId request.agentId with
    | some handle =>
      obtain ⟨hissued, hagent⟩ := hs.found hfind
      refine ensures_pure ⟨nofun, fun handle' h => ?_⟩
      cases h
      exact ⟨hs.again hissued, hagent⟩
    | none =>
      refine ensures_bind (tryFindContainer_ensures (containerName request.agentId)
        hs.valid) ?_ fun error u hu => ⟨fun _ _ => hs.called hu.1, nofun⟩
      rintro (_ | o) u ⟨hu, hseen⟩
      · have hfree := (hs.called hu).free request.agentId (by
          unfold System.findHandleByAgentId at hfind ⊢
          rwa [hu.handles])
        dsimp only
        split
        · exact ensures_throw ⟨fun _ _ => hs.called hu, nofun⟩
        · exact ensures_throw ⟨fun _ _ => hs.called hu, nofun⟩
        · refine ensures_bind (R := fun r v => (∀ error, r = .error error → Sound v issued) ∧
            ∀ o, r = .ok o → Sound v issued ∧
              v.daemon.Own (containerName request.agentId) o.id ∧
              (containerName request.agentId, o.id) ∈ v.daemon.seen) ?_ ?_
            fun error v hv => ⟨fun _ _ => hv.1 error rfl, nofun⟩
          · refine ensures_tryCatch (containersRun_ensures _) (fun o v hv => ?_)
              fun error v hv => ?_
            · refine ⟨nofun, fun o' ho' => ?_⟩
              cases ho'
              exact (hs.called hu).created (hv.2 o rfl) hfree
            · exact ensures_throw ⟨fun _ _ => (hs.called hu).called (hv.1 error rfl), nofun⟩
          · intro o v hv
            obtain ⟨hsound, hown, hmem⟩ := hv.2 o rfl
            refine (buildHandleFromContainer_ensures o request.agentId workspacePath).mono
              fun r w hw => ⟨fun error herror => hsound.called (hw.1 error herror),
                fun handle hhandle => ?_⟩
            have hregistered := hw.2 handle hhandle
            exact ⟨hsound.registered hregistered (hregistered.later.own hown)
              (hregistered.later.seen hmem), hregistered.agentId⟩
      · obtain ⟨hown, hmem⟩ := hseen o rfl
        refine ensures_bind (buildHandleFromContainer_ensures o request.agentId workspacePath) ?_
          fun error v hv => ⟨fun _ _ => (hs.called hu).called (hv.1 error rfl), nofun⟩
        intro built v hv
        have hregistered := (hv.2 built rfl).reconnected
        refine ⟨nofun, fun handle hhandle => ?_⟩
        cases hhandle
        exact ⟨(hs.called hu).registered hregistered (hregistered.later.own hown)
          (hregistered.later.seen hmem), hregistered.agentId⟩

end

end WittyService.Docker
