import WittyService.DockerSandbox

/-! What the calls to the daemon ensure, one by one and tried again: no call but
`containers.run` creates or starts a container, and none of them touches the memory. -/
namespace WittyService.Docker

/-! What a computation ensures of its result and of the state it leaves. -/

section

variable {α β : Type}

def Ensures (x : DockerM α) (s : System) (Q : Except Failure α → System → Prop) : Prop :=
  Q (x s).1 (x s).2

variable {x : DockerM α} {f : α → DockerM β} {s : System}
variable {R Q : Except Failure α → System → Prop}

theorem Ensures.mono (h : Ensures x s R) (hRQ : ∀ r t, R r t → Q r t) : Ensures x s Q :=
  hRQ _ _ h

theorem ensures_pure {a : α} (h : Q (.ok a) s) : Ensures (pure a) s Q := h

theorem ensures_throw {error : Failure} (h : Q (.error error) s) :
    Ensures (throw error : DockerM α) s Q := h

theorem ensures_bind {Q : Except Failure β → System → Prop} (hx : Ensures x s R)
    (hok : ∀ a t, R (.ok a) t → Ensures (f a) t Q)
    (herror : ∀ error t, R (.error error) t → Q (.error error) t) : Ensures (x >>= f) s Q := by
  change Q (ExceptT.bindCont f (x s).1 (x s).2).1 (ExceptT.bindCont f (x s).1 (x s).2).2
  unfold Ensures at hx
  cases hr : (x s).1 with
  | ok a =>
    rw [hr] at hx
    exact hok a _ hx
  | error error =>
    rw [hr] at hx
    exact herror error _ hx

theorem ensures_get {f : System → DockerM α} (h : Ensures (f s) s Q) :
    Ensures (get >>= f) s Q := h

theorem ensures_map {Q : Except Failure β → System → Prop} {g : α → β} (hx : Ensures x s R)
    (hok : ∀ a t, R (.ok a) t → Q (.ok (g a)) t)
    (herror : ∀ error t, R (.error error) t → Q (.error error) t) : Ensures (g <$> x) s Q := by
  have hbind : (g <$> x) = x >>= fun a => pure (g a) := map_eq_pure_bind g x
  exact ensures_bind hx (fun a t h => ensures_pure (hok a t h)) herror

theorem tryCatch_run (x : DockerM α) (handler : Failure → DockerM α) (s : System) :
    (tryCatch x handler) s =
      match x s with
      | (.ok a, t) => (.ok a, t)
      | (.error error, t) => handler error t := by
  change ExceptT.tryCatch x handler s = _
  unfold ExceptT.tryCatch ExceptT.mk
  simp only [bind, StateT.bind]
  rcases x s with ⟨r, t⟩
  cases r <;> rfl

theorem ensures_tryCatch {handler : Failure → DockerM α} (hx : Ensures x s R)
    (hok : ∀ a t, R (.ok a) t → Q (.ok a) t)
    (herror : ∀ error t, R (.error error) t → Ensures (handler error) t Q) :
    Ensures (tryCatch x handler) s Q := by
  unfold Ensures at hx ⊢
  rw [tryCatch_run]
  rcases hr : x s with ⟨r, t⟩
  rw [hr] at hx
  cases r with
  | ok a => exact hok a t hx
  | error error => exact herror error t hx

theorem ensures_suppress {caught : Failure → Bool} {fallback : α} (hx : Ensures x s R)
    (hok : ∀ a t, R (.ok a) t → Q (.ok a) t)
    (hcaught : ∀ error t, caught error = true → R (.error error) t → Q (.ok fallback) t)
    (herror : ∀ error t, caught error = false → R (.error error) t → Q (.error error) t) :
    Ensures (suppress caught fallback x) s Q := by
  refine ensures_tryCatch hx hok fun error t ht => ?_
  cases hc : caught error with
  | true =>
    exact ensures_pure (hcaught error t hc ht)
  | false =>
    exact ensures_throw (herror error t hc ht)

end

namespace Daemon

variable {d d' d'' : Daemon}

/-- Between `d` and `d'` no container has been created or started. -/
structure Later (d d' : Daemon) : Prop where
  keys : (d'.containers.map fun c => (c.id, c.name)).Sublist
    (d.containers.map fun c => (c.id, c.name))
  running : ∀ c' ∈ d'.containers, c'.running = true →
    ∃ c ∈ d.containers, c.id = c'.id ∧ c.name = c'.name ∧ c.running = true
  nextId : d'.nextId = d.nextId
  seen : d.seen ⊆ d'.seen

theorem Later.refl (d : Daemon) : d.Later d :=
  ⟨List.Sublist.refl _, fun c hc hr => ⟨c, hc, rfl, rfl, hr⟩, rfl, List.Subset.refl _⟩

theorem Later.trans (h : d.Later d') (h' : d'.Later d'') : d.Later d'' := by
  refine ⟨h'.keys.trans h.keys, fun c hc hr => ?_, h'.nextId.trans h.nextId,
    fun p hp => h'.seen (h.seen hp)⟩
  obtain ⟨c', hc', hid', hname', hr'⟩ := h'.running c hc hr
  obtain ⟨c'', hc'', hid'', hname'', hr''⟩ := h.running c' hc' hr'
  exact ⟨c'', hc'', hid''.trans hid', hname''.trans hname', hr''⟩

theorem Later.mem (h : d.Later d') {c' : Container} (hc' : c' ∈ d'.containers) :
    ∃ c ∈ d.containers, c.id = c'.id ∧ c.name = c'.name := by
  have hkey := h.keys.subset (List.mem_map_of_mem (f := fun c => (c.id, c.name)) hc')
  obtain ⟨c, hc, heq⟩ := List.mem_map.mp hkey
  exact ⟨c, hc, congrArg Prod.fst heq, congrArg Prod.snd heq⟩

theorem later_exit (d : Daemon) (ids : List ℕ) : d.Later (d.exit ids) := by
  refine ⟨?_, fun c' hc' hr => ?_, rfl, List.Subset.refl _⟩
  · have hmap : (d.exit ids).containers.map (fun c => (c.id, c.name)) =
        d.containers.map fun c => (c.id, c.name) := by
      simp only [exit, List.map_map]
      refine List.map_congr_left fun c _ => ?_
      simp only [Function.comp_apply]
      split_ifs
      · rfl
      · rfl
    rw [hmap]
  · obtain ⟨c, hc, rfl⟩ := List.mem_map.mp hc'
    by_cases hmem : c.id ∈ ids
    · rw [if_pos hmem] at hr
      cases hr
    · rw [if_neg hmem] at hr ⊢
      exact ⟨c, hc, rfl, rfl, hr⟩

structure Valid (d : Daemon) : Prop where
  ids : (d.containers.map Container.id).Nodup
  names : (d.containers.map Container.name).Nodup
  below : ∀ c ∈ d.containers, c.id < d.nextId

theorem Later.valid (h : d.Later d') (hd : d.Valid) : d'.Valid := by
  have hids : (d'.containers.map Container.id).Sublist (d.containers.map Container.id) := by
    have hmap := h.keys.map Prod.fst
    rwa [List.map_map, List.map_map] at hmap
  have hnames : (d'.containers.map Container.name).Sublist (d.containers.map Container.name) := by
    have hmap := h.keys.map Prod.snd
    rwa [List.map_map, List.map_map] at hmap
  refine ⟨hd.ids.sublist hids, hd.names.sublist hnames, fun c' hc' => ?_⟩
  obtain ⟨c, hc, hid, -⟩ := h.mem hc'
  rw [← hid, h.nextId]
  exact hd.below c hc

/-- The container of that name, if there is one, has this id. -/
def Own (d : Daemon) (name : String) (id : ℕ) : Prop :=
  ∀ c ∈ d.containers, c.name = name → c.id = id

def Quiet (d : Daemon) (name : String) : Prop :=
  ∀ c ∈ d.containers, c.name = name → c.running = false

variable {name : String} {c : Container}

theorem Later.own (h : d.Later d') {id : ℕ} (ho : d.Own name id) :
    d'.Own name id := by
  intro c' hc' hname'
  obtain ⟨c, hc, hid, hname⟩ := h.mem hc'
  exact hid ▸ ho c hc (hname.trans hname')

theorem Later.quiet (h : d.Later d') (hq : d.Quiet name) : d'.Quiet name := by
  intro c' hc' hname'
  by_contra hr
  rw [Bool.not_eq_false] at hr
  obtain ⟨c, hc, -, hname, hrc⟩ := h.running c' hc' hr
  rw [hq c hc (hname.trans hname')] at hrc
  cases hrc

theorem own_of_mem (hd : d.Valid) (hc : c ∈ d.containers) : d.Own c.name c.id := by
  intro c' hc' hname
  rw [List.inj_on_of_nodup_map hd.names hc' hc hname]

theorem mem_of_named (h : d.named name = some c) :
    c ∈ d.containers ∧ c.name = name :=
  ⟨List.mem_of_find?_eq_some h, by simpa using List.find?_some h⟩

theorem mem_of_withId {id : ℕ} (h : d.withId id = some c) :
    c ∈ d.containers ∧ c.id = id :=
  ⟨List.mem_of_find?_eq_some h, by simpa using List.find?_some h⟩

end Daemon

/-- A call to the daemon leaves the memory as it is. -/
structure Called (s t : System) : Prop where
  later : s.daemon.Later t.daemon
  handles : t.handles = s.handles
  containers : t.containers = s.containers
  nextSandbox : t.nextSandbox = s.nextSandbox

theorem Called.refl (s : System) : Called s s := ⟨.refl _, rfl, rfl, rfl⟩

theorem Called.trans {s t u : System} (h : Called s t) (h' : Called t u) : Called s u :=
  ⟨h.later.trans h'.later, h'.handles.trans h.handles, h'.containers.trans h.containers,
    h'.nextSandbox.trans h.nextSandbox⟩

section

variable {α : Type} {s : System} {Q : Except Failure α → System → Prop}

theorem fetch_ensures {answer : Attempt → System → Except Failure α × System}
    (hanswer : ∀ attempt t, Called s t → Q (answer attempt t).1 (answer attempt t).2)
    (hapi : ∀ t, Called s t → Q (.error .apiError) t)
    (hconnection : ∀ t, Called s t → Q (.error .connectionError) t) :
    Ensures (fetch answer) s Q := by
  have hcalled : Called s
      { s with daemon := s.daemon.exit (s.script.headD {}).exited, script := s.script.tail } :=
    ⟨Daemon.later_exit _ _, rfl, rfl, rfl⟩
  unfold Ensures fetch
  dsimp only
  cases (s.script.headD {}).reply with
  | answered => exact hanswer _ _ hcalled
  | apiError => exact hapi _ hcalled
  | connectionError => exact hconnection _ hcalled

variable {operation : DockerM α} {t : System}

theorem retryLoop_ensures {n : ℕ}
    (h : ∀ t, Called s t → Ensures operation t fun r u => Called s u ∧ Q r u)
    (ht : Called s t) : Ensures (retryLoop operation n) t fun r u => Called s u ∧ Q r u := by
  induction n generalizing t with
  | zero => exact h t ht
  | succ n ih =>
    refine ensures_tryCatch (h t ht) (fun a u hu => hu) fun error u hu => ?_
    split_ifs
    · exact ih hu.1
    · exact hu

theorem withRetry_ensures
    (h : ∀ t, Called s t → Ensures operation t fun r u => Called s u ∧ Q r u) :
    Ensures (withRetry operation) s fun r t => Called s t ∧ Q r t :=
  retryLoop_ensures h (Called.refl s)

theorem optional_ensures {x : DockerM α} (caught : Failure → Bool)
    (hx : Ensures x s fun r t => Called s t ∧ Q r t) :
    Ensures (suppress caught none (some <$> x)) s fun r t => Called s t ∧
      ∀ a, r = .ok (some a) → Q (.ok a) t := by
  refine ensures_suppress (R := fun r t => Called s t ∧ ∀ a, r = .ok (some a) → Q (.ok a) t) ?_
    (fun a t ht => ht) (fun error t _ ht => ⟨ht.1, nofun⟩) fun error t _ ht => ht
  refine ensures_map hx ?_ fun error t ht => ⟨ht.1, nofun⟩
  intro a t ht
  refine ⟨ht.1, fun a' ha' => ?_⟩
  cases ha'
  exact ht.2

/-- What `containers.get` tells of the name. -/
def Got (name : String) : Except Failure ContainerObject → System → Prop
  | .ok o, t => ∃ c ∈ t.daemon.containers, c.name = name ∧ c.id = o.id
  | .error .notFound, t => ∀ c ∈ t.daemon.containers, c.name ≠ name
  | .error _, _ => True

theorem containersGet_ensures (name : String) (ht : Called s t) :
    Ensures (containersGet name) t fun r u => Called s u ∧ Got name r u := by
  refine fetch_ensures (fun attempt u hu => ?_) (fun u hu => ⟨ht.trans hu, trivial⟩)
    fun u hu => ⟨ht.trans hu, trivial⟩
  cases hfind : u.daemon.named name with
  | none =>
    refine ⟨ht.trans hu, fun c hc => ?_⟩
    simpa using List.find?_eq_none.mp hfind c hc
  | some c =>
    obtain ⟨hc, hname⟩ := Daemon.mem_of_named hfind
    exact ⟨ht.trans hu, c, hc, hname, rfl⟩

/-- What `reload` tells of the container. -/
def Reloaded (id : ℕ) : Except Failure ContainerObject → System → Prop
  | .ok o, t => o.id = id ∧ (o.running = true → ∃ c ∈ t.daemon.containers, c.id = id ∧
      (c.name, id) ∈ t.daemon.seen)
  | .error _, _ => True

theorem reload_ensures {o : ContainerObject} (ht : Called s t) :
    Ensures (reload o) t fun r u => Called s u ∧ Reloaded o.id r u := by
  refine fetch_ensures (fun attempt u hu => ?_) (fun u hu => ⟨ht.trans hu, trivial⟩)
    fun u hu => ⟨ht.trans hu, trivial⟩
  cases hfind : u.daemon.withId o.id with
  | none => exact ⟨ht.trans hu, trivial⟩
  | some c =>
    obtain ⟨hc, hid⟩ := Daemon.mem_of_withId hfind
    have hlater : u.daemon.Later { u.daemon with
        seen := if c.running then u.daemon.seen ++ [(c.name, c.id)] else u.daemon.seen } := by
      refine ⟨List.Sublist.refl _, fun c hc hr => ⟨c, hc, rfl, rfl, hr⟩, rfl, ?_⟩
      split_ifs
      · exact List.subset_append_left ..
      · exact List.Subset.refl _
    refine ⟨ht.trans (hu.trans ⟨hlater, rfl, rfl, rfl⟩), hid, fun hrunning => ?_⟩
    have hr : c.running = true := hrunning
    refine ⟨c, hc, hid, ?_⟩
    simp [hr, ← hid]

def Halted (id : ℕ) (t : System) : Prop := ∀ c ∈ t.daemon.containers, c.id = id → c.running = false

theorem containerStop_ensures {id : ℕ} (ht : Called s t) :
    Ensures (containerStop id) t fun r u => Called s u ∧
      (r = .ok () ∨ r = .error .notFound → Halted id u) := by
  refine fetch_ensures (fun attempt u hu => ?_) (fun u hu => ⟨ht.trans hu, by simp⟩)
    fun u hu => ⟨ht.trans hu, by simp⟩
  cases hfind : u.daemon.withId id with
  | none =>
    refine ⟨ht.trans hu, fun _ c hc hid => ?_⟩
    exact absurd hid (by simpa using List.find?_eq_none.mp hfind c hc)
  | some c =>
    refine ⟨ht.trans (hu.trans ⟨Daemon.later_exit _ _, rfl, rfl, rfl⟩), fun _ c' hc' hid => ?_⟩
    obtain ⟨c'', hc'', rfl⟩ := List.mem_map.mp hc'
    split_ifs at hid ⊢ with hmem
    · rfl
    · exact absurd (List.mem_singleton.mpr hid) hmem

theorem containerRemove_ensures {id : ℕ} (ht : Called s t) :
    Ensures (containerRemove id) t fun _ u => Called s u ∧ True := by
  refine fetch_ensures (fun attempt u hu => ?_) (fun u hu => ⟨ht.trans hu, trivial⟩)
    fun u hu => ⟨ht.trans hu, trivial⟩
  cases u.daemon.withId id with
  | none => exact ⟨ht.trans hu, trivial⟩
  | some c =>
    have hlater : u.daemon.Later { u.daemon with
        containers := u.daemon.containers.filter fun c => c.id ≠ id } := by
      refine ⟨(List.filter_sublist).map _, fun c hc hr => ?_, rfl, List.Subset.refl _⟩
      exact ⟨c, List.mem_of_mem_filter hc, rfl, rfl, hr⟩
    exact ⟨ht.trans (hu.trans ⟨hlater, rfl, rfl, rfl⟩), trivial⟩

end

end WittyService.Docker
