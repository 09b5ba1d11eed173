import WittyService.ChannelCredentialStore

/-! When `ChannelCredentialStore.write` stores a credential or changes nothing. -/
namespace WittyService

open JsonText Utf8Text

namespace ChannelCredentialStore

theorem mem_intercalate {sep t : CodePoints} {ts : List CodePoints} (ht : t ∈ ts) {c : ℕ}
    (hc : c ∈ t) : c ∈ sep.intercalate ts := by
  induction ts with
  | nil => cases ht
  | cons first rest ih =>
    cases rest with
    | nil =>
      rw [List.mem_singleton.mp ht] at hc
      simpa [List.intercalate] using hc
    | cons second rest =>
      rw [List.intercalate_cons_cons, List.append_assoc]
      rcases List.mem_cons.mp ht with rfl | ht
      · exact List.mem_append_left _ hc
      · exact List.mem_append_right _ (List.mem_append_right _ (ih ht))

theorem of_mem_intercalate {sep : CodePoints} {ts : List CodePoints} {c : ℕ}
    (hc : c ∈ sep.intercalate ts) : c ∈ sep ∨ ∃ t ∈ ts, c ∈ t := by
  induction ts with
  | nil => cases hc
  | cons first rest ih =>
    cases rest with
    | nil => exact .inr ⟨first, List.mem_cons_self, by simpa [List.intercalate] using hc⟩
    | cons second rest =>
      rw [List.intercalate_cons_cons, List.append_assoc, List.mem_append, List.mem_append] at hc
      rcases hc with hc | hc | hc
      · exact .inr ⟨first, List.mem_cons_self, hc⟩
      · exact .inl hc
      · rcases ih hc with hsep | ⟨t, ht, hc⟩
        · exact .inl hsep
        · exact .inr ⟨t, List.mem_cons_of_mem first ht, hc⟩

theorem mem_renderObject {members : List (CodePoints × CodePoints)} {m : CodePoints × CodePoints}
    (hm : m ∈ members) {c : ℕ} (hc : c ∈ renderString m.1 ∨ c ∈ m.2) :
    c ∈ renderObject members := by
  have hmember : c ∈ renderString m.1 ++ text ": " ++ m.2 := by
    rcases hc with hc | hc
    · exact List.mem_append_left _ (List.mem_append_left _ hc)
    · exact List.mem_append_right _ hc
  refine List.mem_append_left _ (List.mem_cons_of_mem _ ?_)
  apply mem_intercalate _ hmember
  exact List.mem_map_of_mem (f := fun m => renderString m.1 ++ text ": " ++ m.2) hm

theorem not_surrogate_of_rendered {s : CodePoints}
    (h : ∀ c ∈ renderString s, ¬ IsSurrogate c) : ∀ c ∈ s, ¬ IsSurrogate c := by
  intro c hc hsurrogate
  have hlow := hsurrogate.1
  have hescape : escapeOne c = [c] := by
    unfold escapeOne
    repeat rw [if_neg (by omega)]
  apply h c _ hsurrogate
  refine List.mem_append_left _ (List.mem_cons_of_mem _ (List.mem_flatMap.mpr ⟨c, hc, ?_⟩))
  rw [hescape]
  exact List.mem_singleton_self c

theorem not_mem_renderString (s : CodePoints) : 13 ∉ renderString s :=
  fun hmem => (renderString_oneLine s 13 hmem).2 rfl

theorem not_mem_renderObject {members : List (CodePoints × CodePoints)}
    (h : ∀ m ∈ members, 13 ∉ m.2) : 13 ∉ renderObject members := by
  intro hmem
  rcases List.mem_append.mp hmem with hmem | hmem
  · rcases List.mem_cons.mp hmem with hbrace | hmem
    · cases hbrace
    · rcases of_mem_intercalate hmem with hsep | ⟨t, ht, hc⟩
      · revert hsep
        decide
      · obtain ⟨m, hm, rfl⟩ := List.mem_map.mp ht
        rcases List.mem_append.mp hc with hc | hc
        · rcases List.mem_append.mp hc with hc | hc
          · exact not_mem_renderString m.1 hc
          · revert hc
            decide
        · exact h m hm hc
  · cases List.mem_singleton.mp hmem

theorem universalNewlines_eq {t : CodePoints} (h : 13 ∉ t) : universalNewlines t = t := by
  fun_induction universalNewlines t with
  | case1 t ih => exact absurd List.mem_cons_self h
  | case2 t hnot ih => exact absurd List.mem_cons_self h
  | case3 c t hnot hnot' ih => rw [ih fun hmem => h (List.mem_cons_of_mem c hmem)]
  | case4 => rfl

section Payload

variable (p : Payload)

def Payload.valueMembers : List Member :=
  (KeyOrder.sortBy Prod.fst p.values.entries).map fun m => ⟨m.1, renderString m.2, .str m.2⟩

def Payload.members : List Member := [
  ⟨text "created_at", renderString p.createdAt, .str p.createdAt⟩,
  ⟨text "expires_at", (p.expiresAt.map renderString).getD (text "null"),
    (p.expiresAt.map JsonText.Value.str).getD .null⟩,
  ⟨text "kind", renderString (kindFor p.ref), .str (kindFor p.ref)⟩,
  ⟨text "ref", renderString p.ref, .str p.ref⟩,
  ⟨text "updated_at", renderString p.updatedAt, .str p.updatedAt⟩,
  ⟨text "values", renderObject (p.valueMembers.map fun m => (m.key, m.rendered)),
    .obj (p.valueMembers.map fun m => (m.key, m.value))⟩,
  ⟨text "version", CREDENTIAL_FILE_VERSION, .num CREDENTIAL_FILE_VERSION⟩]

theorem Payload.dumps_eq : p.dumps = renderObject (p.members.map fun m => (m.key, m.rendered)) := by
  have hvalues : (KeyOrder.sortBy Prod.fst p.values.entries).map (fun m => (m.1,
    renderString m.2)) =
      p.valueMembers.map fun m => (m.key, m.rendered) := by
    rw [Payload.valueMembers, List.map_map]
    rfl
  rw [Payload.dumps, hvalues]
  rfl

theorem Payload.readable {data : List ℕ} (h : Utf8Text.encode p.dumps = some data) :
    ∀ m ∈ p.members, m.Readable (p.valueMembers.length + 2) := by
  have hclean := not_surrogate_of_encode h
  rw [p.dumps_eq] at hclean
  have hpart {m : Member} (hm : m ∈ p.members) {c : ℕ}
      (hc : c ∈ renderString m.key ∨ c ∈ m.rendered) : ¬ IsSurrogate c := by
    apply hclean
    exact mem_renderObject
      (List.mem_map_of_mem (f := fun m : Member => (m.key, m.rendered)) hm) hc
  have hkey {m : Member} (hm : m ∈ p.members) : ∀ c ∈ m.key, ¬ IsSurrogate c :=
    not_surrogate_of_rendered fun c hc => hpart hm (.inl hc)
  have hmore {t : List ℕ} {j : JsonText.Value} (hreads : Reads 1 t j) :
      Reads (p.valueMembers.length + 2) t j :=
    ⟨hreads.head, fun m hm => hreads.reads m (by omega)⟩
  have hstring {key s : CodePoints} (hm : ⟨key, renderString s, .str s⟩ ∈ p.members) :
      Member.Readable (p.valueMembers.length + 2) ⟨key, renderString s, .str s⟩ :=
    ⟨hkey hm, hmore (reads_string (not_surrogate_of_rendered fun c hc => hpart hm (.inr hc)))⟩
  intro m hm
  have hmem := hm
  simp only [Payload.members, List.mem_cons, List.not_mem_nil, or_false] at hm
  rcases hm with rfl | rfl | rfl | rfl | rfl | rfl | rfl
  · exact hstring hmem
  · refine ⟨hkey hmem, hmore ?_⟩
    cases hexpires : p.expiresAt with
    | none => exact reads_null
    | some expiresAt =>
      rw [hexpires] at hmem
      exact reads_string (not_surrogate_of_rendered fun c hc => hpart hmem (.inr hc))
  · exact hstring hmem
  · exact hstring hmem
  · exact hstring hmem
  · refine ⟨hkey hmem, ?_⟩
    have hvalues : ∀ m ∈ p.valueMembers, m.Readable 1 := by
      intro m hm
      have hrendered {c : ℕ} (hc : c ∈ renderString m.key ∨ c ∈ m.rendered) : ¬ IsSurrogate c :=
        hpart hmem (.inr (mem_renderObject
          (List.mem_map_of_mem (f := fun m : Member => (m.key, m.rendered)) hm) hc))
      obtain ⟨entry, -, rfl⟩ := List.mem_map.mp hm
      exact ⟨not_surrogate_of_rendered fun c hc => hrendered (.inl hc),
        reads_string (not_surrogate_of_rendered fun c hc => hrendered (.inr hc))⟩
    have hreads := reads_object hvalues
    exact ⟨hreads.head, fun m hm => hreads.reads m (by omega)⟩
  · exact ⟨hkey hmem, hmore reads_one⟩

theorem Payload.reads {data : List ℕ} (h : Utf8Text.encode p.dumps = some data) :
    Reads (p.valueMembers.length + 10) p.dumps (.obj (p.members.map fun m => (m.key,
      m.value))) := by
  rw [p.dumps_eq]
  have hlength : p.members.length = 7 := rfl
  have hreads := reads_object (p.readable h)
  rw [hlength] at hreads
  exact hreads

theorem Payload.length_dumps : p.valueMembers.length + 10 ≤ p.dumps.length := by
  have hobject (ms : List Member) : ((ms.map Member.text).map List.length).sum + 2 ≤
      (renderObject (ms.map fun m => (m.key, m.rendered))).length := by
    have hsum := sum_length_le_intercalate (text ", ") (ms.map Member.text)
    rw [renderObject_eq, List.length_cons, List.length_append, List.length_singleton]
    omega
  have hmember (m : Member) : m.rendered.length + 4 ≤ m.text.length := by
    simp only [Member.text, renderString, List.length_append, List.length_cons]
    have hcolon : (text ": ").length = 2 := rfl
    omega
  have hcount (ms : List Member) : 4 * ms.length ≤ ((ms.map Member.text).map List.length).sum := by
    induction ms with
    | nil => exact Nat.le_refl _
    | cons m ms ih =>
      have hm := hmember m
      simp only [List.map_cons, List.sum_cons, List.length_cons]
      omega
  have hvalues := hobject p.valueMembers
  have hinner := hcount p.valueMembers
  have hall := hobject p.members
  rw [← p.dumps_eq] at hall
  simp only [Payload.members, List.map_cons, List.map_nil, List.sum_cons, List.sum_nil] at hall
  have h1 := hmember ⟨text "created_at", renderString p.createdAt, .str p.createdAt⟩
  have h2 := hmember ⟨text "values",
    renderObject (p.valueMembers.map fun m => (m.key, m.rendered)),
    .obj (p.valueMembers.map fun m => (m.key, m.value))⟩
  have h3 := hmember ⟨text "kind", renderString (kindFor p.ref), .str (kindFor p.ref)⟩
  dsimp only at h2
  omega

theorem Payload.loads_dumps {data : List ℕ} (h : Utf8Text.encode p.dumps = some data) :
    loads p.dumps = some (.obj (p.members.map fun m => (m.key, m.value))) := by
  have hlength := p.length_dumps
  apply loads_of_reads (p.reads h) (by omega)
  rw [p.dumps_eq, renderObject_eq, List.head?_cons]
  decide

theorem Payload.not_mem_dumps : 13 ∉ p.dumps := by
  rw [p.dumps_eq]
  apply not_mem_renderObject
  intro m hm
  obtain ⟨member, hmember, rfl⟩ := List.mem_map.mp hm
  simp only [Payload.members, List.mem_cons, List.not_mem_nil, or_false] at hmember
  rcases hmember with rfl | rfl | rfl | rfl | rfl | rfl | rfl
  · exact not_mem_renderString _
  · cases p.expiresAt with
    | none => decide
    | some expiresAt => exact not_mem_renderString _
  · exact not_mem_renderString _
  · exact not_mem_renderString _
  · exact not_mem_renderString _
  · apply not_mem_renderObject
    intro m hm
    obtain ⟨member, hmember, rfl⟩ := List.mem_map.mp hm
    obtain ⟨entry, -, rfl⟩ := List.mem_map.mp hmember
    exact not_mem_renderString _
  · decide

theorem entries_foldl_set {f : JsonText.Value → CodePoints}
    (ms : List (CodePoints × JsonText.Value))
    (d : OrderedDict CodePoints CodePoints)
    (h : (d.entries.map Prod.fst ++ ms.map Prod.fst).Nodup) :
    (ms.foldl (fun d m => d.set m.1 (f m.2)) d).entries =
      d.entries ++ ms.map fun m => (m.1, f m.2) := by
  induction ms generalizing d with
  | nil => simp
  | cons m ms ih =>
    have hnew : m.1 ∉ d.entries.map Prod.fst := by
      intro hmem
      exact (List.nodup_append.mp h).2.2 m.1 hmem m.1 List.mem_cons_self rfl
    have hset : (d.set m.1 (f m.2)).entries = d.entries ++ [(m.1, f m.2)] := by
      unfold OrderedDict.set
      rw [dif_neg hnew]
    rw [List.foldl_cons, ih, hset, List.append_assoc]
    · rfl
    · rw [hset, List.map_append, List.append_assoc]
      exact h

variable (py : Interpreter)

theorem Payload.values_perm :
    (valuesOf py (p.valueMembers.map fun m => (m.key, m.value))).entries.Perm p.values.entries := by
  have hsorted := KeyOrder.sortBy_perm Prod.fst p.values.entries
  have hkeys : ((p.valueMembers.map fun m => (m.key, m.value)).map Prod.fst).Nodup := by
    rw [Payload.valueMembers, List.map_map, List.map_map]
    exact ((hsorted.map Prod.fst).nodup_iff).mpr p.values.nodupKeys
  have hentries : (valuesOf py (p.valueMembers.map fun m => (m.key, m.value))).entries =
      KeyOrder.sortBy Prod.fst p.values.entries := by
    rw [valuesOf, entries_foldl_set _ OrderedDict.empty hkeys, Payload.valueMembers,
      List.map_map, List.map_map]
    exact List.map_id' _
  rw [hentries]
  exact hsorted

theorem readContent_data {data : List ℕ} (h : Utf8Text.encode p.dumps = some data) :
    ∃ entry, readContent py p.ref data = .ok entry ∧
      entry.values.entries.Perm p.values.entries := by
  obtain ⟨entry, hentry, hvalues⟩ : ∃ entry,
      decodePayload py p.ref (.obj (p.members.map fun m => (m.key, m.value))) = .ok entry ∧
        entry.values = valuesOf py (p.valueMembers.map fun m => (m.key, m.value)) :=
    ⟨_, rfl, rfl⟩
  refine ⟨entry, ?_, hvalues ▸ p.values_perm py⟩
  rw [readContent, Utf8Text.decode_encode h]
  dsimp only
  rw [universalNewlines_eq p.not_mem_dumps, p.loads_dumps h]
  exact hentry

theorem readContent_part {data : List ℕ} {count : ℕ}
    (h : Utf8Text.encode p.dumps = some data) (hcount : count < data.length) (ref : CodePoints) :
    ∃ e, readContent py ref (data.take count) = .error e := by
  unfold readContent
  cases hraw : Utf8Text.decode (data.take count) with
  | none => exact ⟨_, rfl⟩
  | some raw =>
    have hsplit : Utf8Text.encode p.dumps = some (data.take count ++ data.drop count) := by
      rw [List.take_append_drop]
      exact h
    obtain ⟨rest, hdumps, hrest⟩ := Utf8Text.decode_prefix hsplit hraw
    have hne : rest ≠ [] := by
      rintro rfl
      have hdrop := List.drop_eq_nil_iff.mp (Option.some.inj hrest).symm
      omega
    have hnewline : 13 ∉ raw := by
      intro hmem
      apply p.not_mem_dumps
      rw [hdumps]
      exact List.mem_append_left _ hmem
    dsimp only
    rw [universalNewlines_eq hnewline]
    cases hload : loads raw with
    | none => exact ⟨_, rfl⟩
    | some j =>
      exfalso
      have hlength := p.length_dumps
      have hreads := (p.reads h).reads (p.dumps.length + 1) (by omega) []
        (by rintro c hc; cases hc)
      have hbrace : (raw ++ rest).head? = some 123 := by
        rw [← hdumps, p.dumps_eq, renderObject_eq, List.head?_cons]
      rw [List.append_nil, hdumps] at hreads
      apply hne
      apply eq_nil_of_loads _ hbrace hreads hload
      rw [List.length_append]
      omega

end Payload

section Files

variable {py : Interpreter} {s s' : ChannelCredentialStore} {calls : WriteCalls}
  {ref now tmp path : CodePoints} {values : OrderedDict CodePoints CodePoints}
  {expiresAt : Option CodePoints} {data : List ℕ}

/-- The files a reader of one name sees are the same. -/
structure SameFile (s s' : ChannelCredentialStore) (name : CodePoints) : Prop where
  euid : s'.euid = s.euid
  file : s'.file name = s.file name

theorem SameFile.read (h : ∀ path, pathFor ref = .ok path → SameFile s s' path)
    (calls : ReadCalls) : s'.read py calls ref = s.read py calls ref := by
  unfold ChannelCredentialStore.read
  cases hpath : pathFor ref with
  | error e => rfl
  | ok path =>
    have hsame := h path hpath
    simp only [Except.bind, hsame.file, hsame.euid]

theorem SameFile.trans {t : ChannelCredentialStore} {name : CodePoints} (h : SameFile s s' name)
    (h' : SameFile s' t name) : SameFile s t name :=
  ⟨h'.euid.trans h.euid, h'.file.trans h.file⟩

theorem file_put (s : ChannelCredentialStore) (name other : CodePoints)
    (file : Option CredentialFile) : (s.put name file).file other =
      if other = name then s.directory.bind fun _ => file else s.file other := by
  unfold ChannelCredentialStore.file put
  cases s.directory with
  | none | some d => simp

theorem sameFile_put {name other : CodePoints} (h : other ≠ name) (file : Option CredentialFile) :
    SameFile s (s.put name file) other := by
  refine ⟨rfl, ?_⟩
  rw [file_put, if_neg h]

theorem sameFile_ensureReady (s : ChannelCredentialStore) (calls : WriteCalls)
    (name : CodePoints) : SameFile s (s.ensureReady calls).2 name := by
  unfold ensureReady
  cases hdirectory : s.directory with
  | some d =>
    split_ifs <;> exact ⟨rfl, rfl⟩
  | none =>
    split_ifs <;> exact ⟨rfl, by simp [ChannelCredentialStore.file, hdirectory]⟩

theorem ensureReady_directory (h : (s.ensureReady calls).1 = .ok ()) :
    (s.ensureReady calls).2.directory.isSome := by
  unfold ensureReady at h ⊢
  cases hdirectory : s.directory with
  | some d =>
    split_ifs <;> simp [hdirectory]
  | none =>
    rw [hdirectory] at h
    split_ifs at h ⊢
    rfl

theorem bind_eq_ok {ε α β : Type} {x : Except ε α} {f : α → Except ε β} {b : β}
    (h : x.bind f = .ok b) : ∃ a, x = .ok a ∧ f a = .ok b := by
  cases x with
  | error e => cases h
  | ok a => exact ⟨a, rfl, h⟩

structure Prepared (py : Interpreter) (s : ChannelCredentialStore) (calls : WriteCalls)
    (ref : CodePoints) (values : OrderedDict CodePoints CodePoints) (path : CodePoints)
    (payload : Payload) (data : List ℕ) (s' : ChannelCredentialStore) : Prop where
  path : pathFor ref = .ok path
  ref : payload.ref = ref
  values : payload.values = values
  data : Utf8Text.encode payload.dumps = some data
  directory : s'.directory.isSome

theorem sameFile_prepare (name : CodePoints) :
    SameFile s (s.prepare py calls ref values now expiresAt).2 name :=
  sameFile_ensureReady s calls name

theorem prepared {payload : Payload}
    (h : (s.prepare py calls ref values now expiresAt).1 = .ok (path, payload, data)) :
    Prepared py s calls ref values path payload data
      (s.prepare py calls ref values now expiresAt).2 := by
  obtain ⟨_, hready, h⟩ := bind_eq_ok h
  obtain ⟨found, hpath, h⟩ := bind_eq_ok h
  obtain ⟨existing, -, h⟩ := bind_eq_ok h
  dsimp only at h
  split at h
  · cases h
  · rename_i bytes hbytes
    cases h
    exact ⟨hpath, rfl, rfl, hbytes, ensureReady_directory hready⟩

theorem path_ne_tmpName (h : pathFor ref = .ok path) (calls : WriteCalls) :
    path ≠ tmpName calls ref := by
  unfold pathFor at h
  split_ifs at h with hvalid
  cases h
  have hprefix : INSTANCE_REF_PREFIX ++ text "_" <+: ref ∨
      PROVISIONING_REF_PREFIX ++ text "_" <+: ref := by
    unfold isValidRef at hvalid
    simp only [Bool.and_eq_true, Bool.or_eq_true, List.isPrefixOf_iff_prefix] at hvalid
    exact hvalid.1.1
  intro heq
  have hhead := congrArg List.head? heq
  rcases hprefix with ⟨rest, rfl⟩ | ⟨rest, rfl⟩
  · cases hhead
  · cases hhead

/-- All calls from the temporary file on succeed. -/
structure Completes (s : ChannelCredentialStore) (calls : WriteCalls) (tmp : CodePoints)
    (count : ℕ) : Prop where
  absent : s.file tmp = none
  opens : calls.openFails = false
  stores : calls.stored = some count
  fsync : calls.fsyncFails = false
  close : calls.closeFails = false
  chmod : calls.chmodFails = false
  replace : calls.replaceFails = false

/-- From the temporary file on, a write fails and leaves the credential, or it stores what the
call took of the data. -/
theorem store_cases (h : path ≠ tmp) :
    (∃ e, (s.store calls tmp path data).1 = .error e ∧
        SameFile s (s.store calls tmp path data).2 path ∧
        ∀ count, ¬ Completes s calls tmp count) ∨
      ∃ count, Completes s calls tmp count ∧ (s.store calls tmp path data).1 = .ok () ∧
        (s.store calls tmp path data).2.euid = s.euid ∧
        (s.store calls tmp path data).2.file path =
          s.directory.map fun _ => ⟨data.take count, FILE_MODE, s.euid⟩ := by
  have hput {t : ChannelCredentialStore} (file : Option CredentialFile) :
      SameFile t (t.put tmp file) path := sameFile_put h file
  -- after an error the temporary file goes or stays, which no reader of the credential sees
  have hunlinked {t : ChannelCredentialStore} (hsame : SameFile s t path) :
      SameFile s (if calls.unlinkFails then t else t.put tmp none) path := by
    split_ifs
    · exact hsame
    · exact hsame.trans (hput none)
  unfold store
  by_cases hopen : calls.openFails = true ∨ (s.file tmp).isSome = true
  · rw [if_pos hopen]
    refine .inl ⟨_, rfl, hunlinked ⟨rfl, rfl⟩, fun count hcompletes => ?_⟩
    rw [hcompletes.opens, hcompletes.absent] at hopen
    simp at hopen
  rw [if_neg hopen]
  cases hstored : calls.stored with
  | none =>
    refine .inl ⟨_, rfl, hunlinked (hput _), fun count hcompletes => ?_⟩
    rw [hcompletes.stores] at hstored
    cases hstored
  | some count =>
    dsimp only
    by_cases hclosed : calls.fsyncFails = true ∨ calls.closeFails = true ∨ calls.chmodFails = true
    · rw [if_pos hclosed]
      refine .inl ⟨_, rfl, hunlinked (hput _), fun count hcompletes => ?_⟩
      rw [hcompletes.fsync, hcompletes.close, hcompletes.chmod] at hclosed
      simp at hclosed
    rw [if_neg hclosed]
    by_cases hreplace : calls.replaceFails = true
    · rw [if_pos hreplace]
      refine .inl ⟨_, rfl, hunlinked (hput _), fun count hcompletes => ?_⟩
      rw [hcompletes.replace] at hreplace
      cases hreplace
    rw [if_neg hreplace]
    simp only [not_or, Bool.not_eq_true] at hopen hclosed hreplace
    have habsent : s.file tmp = none :=
      Option.isNone_iff_eq_none.mp (Option.isSome_eq_false_iff.mp hopen.2)
    refine .inr ⟨count, ⟨habsent, hopen.1, hstored, hclosed.1, hclosed.2.1, hclosed.2.2,
      hreplace⟩, rfl, rfl, ?_⟩
    rw [file_put, if_pos rfl]
    cases hdirectory : s.directory with
    | none | some d => simp [put, hdirectory]

theorem read_stored {content : List ℕ} (hpath : pathFor ref = .ok path)
    (hfile : s.file path = some ⟨content, FILE_MODE, s.euid⟩) :
    s.read py .fine ref = (readContent py ref content).map some := by
  have hmode : FILE_MODE &&& GROUP_OTHER_BITS = 0 := by decide
  unfold ChannelCredentialStore.read
  rw [hpath]
  simp only [Except.bind, ReadCalls.fine, Bool.false_eq_true, if_false, hfile, assertOwnerOnly,
    hmode, ne_eq, not_true_eq_false]

end Files

/-- `write` raises and every later read is as before, or it returns and a later read gives the
values. -/
structure Atomic (py : Interpreter) (s : ChannelCredentialStore) (calls : WriteCalls)
    (ref : CodePoints) (values : OrderedDict CodePoints CodePoints) (now : CodePoints)
    (expiresAt : Option CodePoints) : Prop where
  raised : ∀ e, (s.write py calls ref values now expiresAt).1 = .error e → ∀ reading,
    (s.write py calls ref values now expiresAt).2.read py reading ref = s.read py reading ref
  returned : ∀ written, (s.write py calls ref values now expiresAt).1 = .ok written →
    ∃ entry, (s.write py calls ref values now expiresAt).2.read py .fine ref = .ok (some entry) ∧
      entry.values.entries.Perm values.entries

/-- When no call from the temporary file on raises, `os.write` stores all it is given. -/
def StoresAll (py : Interpreter) (s : ChannelCredentialStore) (calls : WriteCalls)
    (ref : CodePoints) (values : OrderedDict CodePoints CodePoints) (now : CodePoints)
    (expiresAt : Option CodePoints) : Prop :=
  ∀ path payload data,
    (s.prepare py calls ref values now expiresAt).1 = .ok (path, payload, data) →
    ∀ count, Completes (s.prepare py calls ref values now expiresAt).2 calls (tmpName calls ref)
      count → data.length ≤ count

/-- A write raises and leaves the credential, or it returns, and what can be read then depends on
what `os.write` has stored. -/
theorem write_cases (py : Interpreter) (s : ChannelCredentialStore) (calls : WriteCalls)
    (ref : CodePoints) (values : OrderedDict CodePoints CodePoints) (now : CodePoints)
    (expiresAt : Option CodePoints) :
    (∃ e, (s.write py calls ref values now expiresAt).1 = .error e ∧
        (∀ path, pathFor ref = .ok path →
          SameFile s (s.write py calls ref values now expiresAt).2 path) ∧
        StoresAll py s calls ref values now expiresAt) ∨
      ∃ written path, (s.write py calls ref values now expiresAt).1 = .ok written ∧
        pathFor ref = .ok path ∧
        (StoresAll py s calls ref values now expiresAt ↔
          ∃ entry, (s.write py calls ref values now expiresAt).2.read py .fine ref =
            .ok (some entry) ∧ entry.values.entries.Perm values.entries) := by
  have hframe (name : CodePoints) :
      SameFile s (s.prepare py calls ref values now expiresAt).2 name := sameFile_prepare name
  have hwrite : s.write py calls ref values now expiresAt = _ := rfl
  conv_rhs at hwrite => unfold write
  unfold StoresAll
  rcases hprepare : s.prepare py calls ref values now expiresAt with ⟨_ | ⟨path, payload, data⟩, t⟩
  all_goals
    rw [hprepare] at hframe hwrite
    dsimp only at hwrite
  · rw [hwrite]
    exact .inl ⟨_, rfl, fun path _ => hframe path, by rintro _ _ _ ⟨⟩⟩
  have hp := prepared (congrArg Prod.fst hprepare)
  rw [hprepare] at hp
  have hne : path ≠ tmpName calls ref := path_ne_tmpName hp.path calls
  rcases @store_cases t calls _ _ data hne with
    ⟨e, hfails, hsame, hnot⟩ | ⟨count, hcompletes, hdone, heuid, hfile⟩
  · rcases hstore : t.store calls (tmpName calls ref) path data with ⟨result, u⟩
    rw [hstore] at hfails hsame hwrite
    subst hfails
    rw [hwrite]
    refine .inl ⟨_, rfl, ?_, ?_⟩
    · intro other hother
      cases hp.path.symm.trans hother
      exact (hframe path).trans hsame
    · rintro _ _ _ ⟨⟩ count hcompletes
      cases hnot count hcompletes
  · rcases hstore : t.store calls (tmpName calls ref) path data with ⟨result, u⟩
    rw [hstore] at hdone heuid hfile hwrite
    subst hdone
    obtain ⟨d, hd⟩ := Option.isSome_iff_exists.mp hp.directory
    rw [hd, Option.map_some, ← heuid] at hfile
    have hread := @read_stored py _ _ _ _ hp.path hfile
    rw [hwrite]
    refine .inr ⟨_, path, rfl, hp.path, ?_⟩
    rw [hread]
    -- the write returns, so the file holds what the call stored
    constructor
    · intro hstores
      have hcount := hstores path payload data rfl count hcompletes
      rw [List.take_of_length_le hcount]
      obtain ⟨entry, hentry, hvalues⟩ := readContent_data payload py hp.data
      rw [hp.ref] at hentry
      rw [hp.values] at hvalues
      exact ⟨entry, by rw [hentry]; rfl, hvalues⟩
    · rintro ⟨entry, hentry, -⟩ _ _ _ ⟨⟩ other hother
      by_contra hlt
      cases hother.stores.symm.trans hcompletes.stores
      obtain ⟨e, he⟩ := readContent_part payload py hp.data (not_le.mp hlt) ref
      rw [he] at hentry
      cases hentry

/-- A write is atomic exactly when a call that stores less than it is given is followed by one that
raises. -/
theorem write_atomic_iff (py : Interpreter) (s : ChannelCredentialStore) (calls : WriteCalls)
    (ref : CodePoints) (values : OrderedDict CodePoints CodePoints) (now : CodePoints)
    (expiresAt : Option CodePoints) :
    Atomic py s calls ref values now expiresAt ↔ StoresAll py s calls ref values now expiresAt := by
  rcases s.write_cases py calls ref values now expiresAt with
    ⟨e, he, hsame, hstores⟩ | ⟨written, path, hwritten, -, hread⟩
  · refine iff_of_true ⟨fun _ _ reading => SameFile.read hsame reading, ?_⟩ hstores
    intro written hwritten
    cases he.symm.trans hwritten
  · rw [hread]
    constructor
    · exact fun h => h.returned written hwritten
    · intro hvalues
      refine ⟨?_, fun _ _ => hvalues⟩
      intro e he
      cases hwritten.symm.trans he

section Short

/-- Every call succeeds, and `os.write` stores one byte. -/
def shortWrite : WriteCalls :=
  ⟨false, false, DIRECTORY_MODE, false, false, .fine, text "7", text "0", false, FILE_MODE,
    some 1, false, false, false, false, false⟩

def emptyStore : ChannelCredentialStore := ⟨0, some ⟨DIRECTORY_MODE, 0, fun _ => none⟩⟩

def plainInterpreter : Interpreter := ⟨fun _ => [], fun _ => false, fun _ => false⟩

def shortRef : CodePoints := text "chan_0123456789abcdef0123456789abcdef"

theorem shortWrite_unreadable :
    ((emptyStore.write plainInterpreter shortWrite shortRef OrderedDict.empty [] none).2.read
      plainInterpreter .fine shortRef).toBool = false := by
  decide +kernel

/-- A write whose call stores one byte returns, and the credential can no longer be read. -/
theorem short_write_not_atomic :
    ¬ ∀ (py : Interpreter) (s : ChannelCredentialStore) (calls : WriteCalls) (ref : CodePoints)
      (values : OrderedDict CodePoints CodePoints) (now : CodePoints)
      (expiresAt : Option CodePoints), Atomic py s calls ref values now expiresAt := by
  intro h
  have hatomic := h plainInterpreter emptyStore shortWrite shortRef OrderedDict.empty [] none
  have hbroken := shortWrite_unreadable
  cases hresult : (emptyStore.write plainInterpreter shortWrite shortRef .empty [] none).1 with
  | error e =>
    rw [hatomic.raised e hresult] at hbroken
    revert hbroken
    decide
  | ok written =>
    obtain ⟨entry, hread, -⟩ := hatomic.returned written hresult
    rw [hread] at hbroken
    cases hbroken

end Short

end ChannelCredentialStore

end WittyService
