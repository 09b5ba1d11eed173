import WittyService.CredentialWrites
import WittyService.JsonDocuments

/-! The config file of opencode, which `OpenCodeLifecycleService` reads, changes and writes back
for `mcp_set`, `mcp_unset` and the merge of its model. The service has a profile. -/
namespace WittyService

open JsonText Utf8Text

abbrev ConfigDict := List (CodePoints × JsonText.Value)

/-- A dict of a request, as `json.loads` gives it. -/
structure ConfigDocument where
  members : ConfigDict
  isDocument : (JsonText.Value.obj members).IsDocument

/-- The arguments of `_build_opencode_model_config`. -/
structure ModelSettings where
  modelProvider : CodePoints
  modelName : Option CodePoints
  apiKey : CodePoints
  apiBaseUrl : Option CodePoints
  compatibility : Option CodePoints

structure ModelConfig where
  model : CodePoints
  providerId : CodePoints
  providerConfig : ConfigDict

inductive ConfigOp where
  | mcpSet (name : CodePoints) (config : ConfigDocument)
  | mcpUnset (name : CodePoints)
  | mergeModel (settings : ModelSettings)

/-- What the operating system answers a call: whether `is_file` raises, whether reading raises an
`OSError`, whether the file can be opened for writing, and how many bytes are written before
writing raises one. -/
structure ConfigCalls where
  statFails : Bool
  readFails : Bool
  opens : Bool
  stored : Option ℕ

namespace OpenCodeConfig

/-- `value or default`, with something in it. -/
def given (value : Option CodePoints) : Option CodePoints := value.filter (· ≠ [])

/-- `_COMPATIBILITY_TO_NPM`. -/
def npmFor (compatibility : Option CodePoints) : CodePoints :=
  if given compatibility = some (text "anthropic") then text "@ai-sdk/anthropic"
  else text "@ai-sdk/openai-compatible"

def modelOptions (settings : ModelSettings) : ConfigDict :=
  ((given settings.apiBaseUrl).map fun url => (text "baseURL", JsonText.Value.str url)).toList ++
    (if settings.apiKey = [] then [] else [(text "apiKey", .str settings.apiKey)])

def providerConfig (settings : ModelSettings) (name : CodePoints) : ConfigDict :=
  ((given settings.apiBaseUrl).map fun _ =>
      (text "npm", JsonText.Value.str (npmFor settings.compatibility))).toList ++
    (if modelOptions settings = [] then []
      else [(text "options", .obj (modelOptions settings))]) ++
    [(text "models", .obj [(name, .obj [(text "name", .str name),
      (text "status", .str (text "active"))])])]

/-- `_build_opencode_model_config`. -/
def buildModelConfig (settings : ModelSettings) : Option ModelConfig :=
  match given settings.modelName with
  | none => none
  | some name =>
    if settings.modelProvider = [] then none
    else some {
      model := settings.modelProvider ++ 47 :: name
      providerId := settings.modelProvider
      providerConfig := providerConfig settings name }

def mergedCommand (str : JsonText.Value → CodePoints) (config : ConfigDict) :
    Option (List JsonText.Value) :=
  let args := match config.lookup (text "args") with
    | some (.arr items) => items.map fun a => .str (str a)
    | _ => []
  match config.lookup (text "command") with
  | some (.str command) => some (.str command :: args)
  | some (.arr items) => some (items ++ args)
  | _ => none

def copied (config : ConfigDict) (key key' : CodePoints) : ConfigDict :=
  ((config.lookup key).map fun v => (key', v)).toList

/-- `to_opencode_mcp_config`, where `str` is that of the interpreter. -/
def toOpencodeMcpConfig (str : JsonText.Value → CodePoints) (config : ConfigDict) : ConfigDict :=
  let enabled := (text "enabled", (config.lookup (text "enabled")).getD (.bool true))
  if (config.lookup (text "url")).isSome then
    (text "type", .str (text "remote")) :: copied config (text "url") (text "url") ++
      copied config (text "headers") (text "headers") ++ [enabled]
  else
    match mergedCommand str config with
    | none => [(text "type", .str (text "local")), (text "enabled", .bool false)]
    | some command =>
      (text "type", .str (text "local")) :: (text "command", .arr command) ::
        copied config (text "env") (text "environment") ++
        copied config (text "cwd") (text "cwd") ++ [enabled]

def spread (d d' : ConfigDict) : ConfigDict := d'.foldl (fun d m => setKey m.1 m.2 d) d

def mergeProvider (existing config : ConfigDict) : ConfigDict :=
  config.foldl (fun merged m =>
    match existing.lookup m.1, m.2 with
    | some (.obj old), .obj new => setKey m.1 (.obj (spread old new)) merged
    | _, _ => merged) (spread existing config)

def dictAt (d : ConfigDict) (key : CodePoints) : ConfigDict :=
  match d.lookup key with
  | some (.obj members) => members
  | _ => []

def update (str : JsonText.Value → CodePoints) (current : ConfigDict) : ConfigOp → Option ConfigDict
  | .mcpSet name config =>
    some (setKey (text "mcp") (.obj (setKey name (.obj (toOpencodeMcpConfig str config.members))
      (dictAt current (text "mcp")))) current)
  | .mcpUnset name =>
    if name ∈ (dictAt current (text "mcp")).map Prod.fst then
      some (setKey (text "mcp")
        (.obj ((dictAt current (text "mcp")).filter fun m => m.1 ≠ name)) current)
    else none
  | .mergeModel settings =>
    (buildModelConfig settings).map fun model =>
      let current := setKey (text "model") (.str model.model) current
      let providers := dictAt current (text "provider")
      setKey (text "provider") (.obj (setKey model.providerId
        (.obj (mergeProvider (dictAt providers model.providerId) model.providerConfig))
        providers)) current

/-- `json.loads(path.read_text(...))`, with errors of decoding apart from those of JSON. -/
def parseContent (bytes : List ℕ) : Option (Option JsonText.Value) :=
  (decode bytes).map fun raw =>
    (loads (ChannelCredentialStore.universalNewlines raw)).map JsonText.Value.asDict

/-- `_read_config_disk` of a file that may be missing, none where it raises. -/
def readConfigDisk (calls : ConfigCalls) (content : Option (List ℕ)) : Option JsonText.Value :=
  if calls.statFails then none
  else match content with
    | none => some (.obj [])
    | some bytes =>
      if calls.readFails then some (.obj [])
      else (parseContent bytes).map fun v => v.getD (.obj [])

/-- `_write_config_disk`: whether it raises, and what is in the file then. The file is emptied
before the text is encoded. -/
def writeConfigDisk (calls : ConfigCalls) (content : Option (List ℕ)) (config : ConfigDict) :
    Bool × Option (List ℕ) :=
  if calls.opens then
    match encode (dumps (.obj config)) with
    | none => (true, some [])
    | some data =>
      match calls.stored with
      | none => (false, some data)
      | some count => (true, some (data.take count))
  else (true, content)

/-- Reading, changing and writing: whether it raises, and what is in the file then. What is no
dict has no `get`. -/
def rewrite (str : JsonText.Value → CodePoints) (content : Option (List ℕ)) (op : ConfigOp)
    (calls : ConfigCalls) : Bool × Option (List ℕ) :=
  match readConfigDisk calls content with
  | some (.obj current) =>
    match update str current op with
    | some config => writeConfigDisk calls content config
    | none => (false, content)
  | _ => (true, content)

def isDue : ConfigOp → Bool
  | .mergeModel settings => (buildModelConfig settings).isSome
  | _ => true

def apply (str : JsonText.Value → CodePoints) (content : Option (List ℕ)) (op : ConfigOp)
    (calls : ConfigCalls) : Bool × Option (List ℕ) :=
  if isDue op then rewrite str content op calls else (false, content)

def ownKeys : ConfigOp → List CodePoints
  | .mcpSet _ _ | .mcpUnset _ => [text "mcp"]
  | .mergeModel _ => [text "model", text "provider"]

def ownServer : ConfigOp → Option CodePoints
  | .mcpSet name _ | .mcpUnset name => some name
  | .mergeModel _ => none

def ownProvider : ConfigOp → Option CodePoints
  | .mergeModel settings => some settings.modelProvider
  | _ => none

structure Keeps (op : ConfigOp) (d d' : ConfigDict) : Prop where
  top : ∀ key, key ∉ ownKeys op → d'.lookup key = d.lookup key
  servers : ∀ name, ownServer op ≠ some name →
    (dictAt d' (text "mcp")).lookup name = (dictAt d (text "mcp")).lookup name
  providers : ∀ id, ownProvider op ≠ some id →
    (dictAt d' (text "provider")).lookup id = (dictAt d (text "provider")).lookup id

def objectIn (content : Option (List ℕ)) : ConfigDict :=
  match content.bind parseContent with
  | some (some (.obj members)) => members
  | _ => []

/-- The operation fails and leaves the bytes alone, or keeps what is not its own. -/
def StepKeeps (str : JsonText.Value → CodePoints) (content : Option (List ℕ)) (op : ConfigOp)
    (calls : ConfigCalls) : Prop :=
  apply str content op calls = (true, content) ∨
    Keeps op (objectIn content) (objectIn (apply str content op calls).2)

def letters (str : JsonText.Value → CodePoints) : ConfigOp → CodePoints
  | .mcpSet name config => name ++ membersChars (toOpencodeMcpConfig str config.members)
  | .mcpUnset _ => []
  | .mergeModel settings =>
    ((buildModelConfig settings).map fun model =>
      model.model ++ model.providerId ++ membersChars model.providerConfig).getD []

def Encodable (c : ℕ) : Prop := (encodeOne c).isSome = true

instance (c : ℕ) : Decidable (Encodable c) := inferInstanceAs (Decidable (_ = true))

def changes (current : ConfigDict) : ConfigOp → Bool
  | .mcpSet _ _ => true
  | .mcpUnset name => name ∈ (dictAt current (text "mcp")).map Prod.fst
  | .mergeModel settings => (buildModelConfig settings).isSome

/-- The operation gets as far as emptying the file. -/
def Writes (content : Option (List ℕ)) (op : ConfigOp) (calls : ConfigCalls) : Prop :=
  calls.opens = true ∧
    ∃ current, readConfigDisk calls content = some (.obj current) ∧ changes current op = true

/-- Where an operation gets to writing, a file that could not be read has nothing to lose, all
letters have bytes, and all bytes are written. -/
def Undisturbed (str : JsonText.Value → CodePoints) (content : Option (List ℕ)) (op : ConfigOp)
    (calls : ConfigCalls) : Prop :=
  Writes content op calls →
    (calls.readFails = true → Keeps op (objectIn content) []) ∧
    (∀ c ∈ membersChars (objectIn content) ++ letters str op, Encodable c) ∧
    calls.stored = none

def EachStep (P : Option (List ℕ) → ConfigOp → ConfigCalls → Prop)
    (str : JsonText.Value → CodePoints) :
    Option (List ℕ) → List (ConfigOp × ConfigCalls) → Prop
  | _, [] => True
  | content, (op, calls) :: steps =>
    P content op calls ∧ EachStep P str (apply str content op calls).2 steps

section

variable {str : JsonText.Value → CodePoints} {content : Option (List ℕ)} {op : ConfigOp}
  {calls : ConfigCalls} {d d' d'' config : ConfigDict} {key : CodePoints} {v : JsonText.Value}

theorem Keeps.refl (op : ConfigOp) (d : ConfigDict) : Keeps op d d :=
  ⟨fun _ _ => rfl, fun _ _ => rfl, fun _ _ => rfl⟩

theorem Keeps.trans (h : Keeps op d d') (h' : Keeps op d' d'') : Keeps op d d'' where
  top key hkey := (h'.top key hkey).trans (h.top key hkey)
  servers name hname := (h'.servers name hname).trans (h.servers name hname)
  providers id hid := (h'.providers id hid).trans (h.providers id hid)

/-- A document whose letters all have bytes. -/
def Fit (v : JsonText.Value) : Prop := v.IsDocument ∧ ∀ c ∈ v.chars, Encodable c

theorem mem_of_lookup (h : d.lookup key = some v) : (key, v) ∈ d := by
  obtain ⟨front, back, rfl, -⟩ := List.lookup_eq_some_iff.mp h
  simp

theorem encodable_text (s : String) (h : ((text s).all fun c => c < 0x80) = true) :
    ∀ c ∈ text s, Encodable c := by
  intro c hc
  have hlow := List.all_eq_true.mp h c hc
  rw [decide_eq_true_eq] at hlow
  rw [Encodable, encodeOne, if_pos hlow]
  rfl

theorem fit_obj_iff : Fit (.obj d) ↔
    (d.map Prod.fst).Nodup ∧ ∀ m ∈ d, (∀ c ∈ m.1, Encodable c) ∧ Fit m.2 := by
  constructor
  · rintro ⟨hdocument, hletters⟩
    cases hdocument with
    | obj hkeys hmembers =>
      refine ⟨hkeys, fun m hm => ⟨fun c hc => ?_, hmembers m hm, fun c hc => ?_⟩⟩
      · exact hletters c (mem_membersChars hm (Or.inl hc))
      · exact hletters c (mem_membersChars hm (Or.inr hc))
  · rintro ⟨hkeys, hmembers⟩
    refine ⟨.obj hkeys fun m hm => (hmembers m hm).2.1, ?_⟩
    change ∀ c ∈ membersChars d, Encodable c
    clear hkeys
    induction d with
    | nil =>
      intro c hc
      cases hc
    | cons m d ih =>
      obtain ⟨⟨hkey, -, hv⟩, hd⟩ := List.forall_mem_cons.mp hmembers
      intro c hc
      rw [membersChars, List.mem_append, List.mem_append] at hc
      rcases hc with (hc | hc) | hc
      · exact hkey c hc
      · exact hv c hc
      · exact ih hd c hc

theorem fit_setKey (hkey : ∀ c ∈ key, Encodable c) (hv : Fit v) (hd : Fit (.obj d)) :
    Fit (.obj (setKey key v d)) := by
  obtain ⟨hkeys, hmembers⟩ := fit_obj_iff.mp hd
  refine ⟨.obj (nodup_setKey hkeys) ?_, ?_⟩
  · intro m hm
    rcases mem_setKey hm with heq | hm
    · rw [heq]
      exact hv.1
    · exact (hmembers m hm).2.1
  · intro c hc
    rcases mem_membersChars_setKey hc with (hc | hc) | hc
    · exact hkey c hc
    · exact hv.2 c hc
    · exact hd.2 c hc

theorem fit_str {s : CodePoints} (hs : ∀ c ∈ s, Encodable c) : Fit (.str s) := ⟨.str s, hs⟩

theorem fit_empty : Fit (.obj []) :=
  fit_obj_iff.mpr ⟨List.nodup_nil, fun m hm => by cases hm⟩

theorem fit_dictAt (hd : Fit (.obj d)) (key : CodePoints) : Fit (.obj (dictAt d key)) := by
  unfold dictAt
  cases hlookup : d.lookup key with
  | none => exact fit_empty
  | some v =>
    cases v with
    | obj members => exact ((fit_obj_iff.mp hd).2 _ (mem_of_lookup hlookup)).2
    | null | bool | num | str | arr => exact fit_empty

theorem fit_sublist (hd : Fit (.obj d)) (hsub : d'.Sublist d) : Fit (.obj d') := by
  obtain ⟨hkeys, hmembers⟩ := fit_obj_iff.mp hd
  exact fit_obj_iff.mpr ⟨hkeys.sublist (hsub.map Prod.fst), fun m hm => hmembers m (hsub.subset hm)⟩

theorem fit_spread (hd : Fit (.obj d)) (hd' : Fit (.obj d')) : Fit (.obj (spread d d')) := by
  have hmembers := (fit_obj_iff.mp hd').2
  clear hd'
  induction d' generalizing d with
  | nil => exact hd
  | cons m d' ih =>
    obtain ⟨hm, hd'⟩ := List.forall_mem_cons.mp hmembers
    exact ih (fit_setKey hm.1 hm.2 hd) hd'

theorem fit_mergeProvider (hd : Fit (.obj d)) (hconfig : Fit (.obj config)) :
    Fit (.obj (mergeProvider d config)) := by
  have hold := (fit_obj_iff.mp hd).2
  have hnew := (fit_obj_iff.mp hconfig).2
  have hspread := fit_spread hd hconfig
  unfold mergeProvider
  generalize spread d config = merged at hspread ⊢
  clear hconfig
  induction config generalizing merged with
  | nil => exact hspread
  | cons m config ih =>
    obtain ⟨hm, hconfig⟩ := List.forall_mem_cons.mp hnew
    rw [List.foldl_cons]
    apply ih hconfig
    split
    · next old new hlookup hvalue =>
      have hfit := hm.2
      rw [hvalue] at hfit
      exact fit_setKey hm.1 (fit_spread (hold _ (mem_of_lookup hlookup)).2 hfit) hspread
    · exact hspread

theorem isDocument_of_keys (keys : List CodePoints) (hkeys : keys.Nodup)
    (hsub : (d.map Prod.fst).Sublist keys) (hd : ∀ m ∈ d, m.2.IsDocument) :
    (JsonText.Value.obj d).IsDocument := .obj (hkeys.sublist hsub) hd

theorem optional_keys {α : Type} (o : Option α) (f : α → JsonText.Value) (key : CodePoints) :
    ((o.map fun a => (key, f a)).toList.map Prod.fst).Sublist [key] := by
  cases o with
  | none => exact List.nil_sublist _
  | some a => exact List.Sublist.refl _

theorem conditional_keys (p : Prop) [Decidable p] (key : CodePoints) (v : JsonText.Value) :
    ((if p then [] else [(key, v)]).map Prod.fst).Sublist [key] := by
  split_ifs
  · exact List.nil_sublist _
  · exact List.Sublist.refl _

theorem copied_keys (d : ConfigDict) (key key' : CodePoints) :
    ((copied d key key').map Prod.fst).Sublist [key'] := optional_keys _ _ _

theorem isDocument_lookup (hd : (JsonText.Value.obj d).IsDocument) (h : d.lookup key = some v) :
    v.IsDocument := by
  cases hd with
  | obj _ hmembers => exact hmembers _ (mem_of_lookup h)

theorem isDocument_copied (hd : (JsonText.Value.obj d).IsDocument) (key key' : CodePoints) :
    ∀ m ∈ copied d key key', m.2.IsDocument := by
  intro m hm
  obtain ⟨v, hv, rfl⟩ := Option.map_eq_some_iff.mp (Option.mem_toList.mp hm)
  exact isDocument_lookup hd hv

theorem isDocument_command {command : List JsonText.Value} (hd : (JsonText.Value.obj d).IsDocument)
    (h : mergedCommand str d = some command) : ∀ w ∈ command, w.IsDocument := by
  have hargs : ∀ w ∈ (match d.lookup (text "args") with
      | some (.arr items) => items.map fun a => JsonText.Value.str (str a)
      | _ => []), w.IsDocument := by
    intro w hw
    split at hw
    · obtain ⟨a, -, rfl⟩ := List.mem_map.mp hw
      exact .str _
    · cases hw
  unfold mergedCommand at h
  cases hcommand : d.lookup (text "command") with
  | none =>
    rw [hcommand] at h
    cases h
  | some v =>
    rw [hcommand] at h
    cases v with
    | str s =>
      cases h
      exact List.forall_mem_cons.mpr ⟨.str s, hargs⟩
    | arr items =>
      cases h
      have hitems := isDocument_lookup hd hcommand
      intro w hw
      rcases List.mem_append.mp hw with hw | hw
      · cases hitems with
        | arr hall => exact hall w hw
      · exact hargs w hw
    | null | bool | num | obj => cases h

theorem isDocument_toOpencode (config : ConfigDocument) :
    (JsonText.Value.obj (toOpencodeMcpConfig str config.members)).IsDocument := by
  have henabled : ((config.members.lookup (text "enabled")).getD (.bool true)).IsDocument := by
    cases hlookup : config.members.lookup (text "enabled") with
    | none => exact .bool true
    | some v => exact isDocument_lookup config.isDocument hlookup
  unfold toOpencodeMcpConfig
  split_ifs
  · apply isDocument_of_keys [text "type", text "url", text "headers", text "enabled"]
      (by decide)
    · simp only [List.cons_append, List.map_cons, List.map_append, List.map_nil]
      exact (((copied_keys _ _ _).append (copied_keys _ _ _)).append (List.Sublist.refl _)).cons_cons _
    · simp only [List.cons_append, List.forall_mem_cons, List.forall_mem_append]
      exact ⟨.str _, ⟨isDocument_copied config.isDocument _ _,
        isDocument_copied config.isDocument _ _⟩, henabled, List.forall_mem_nil _⟩
  · cases hcommand : mergedCommand str config.members with
    | none =>
      apply isDocument_of_keys [text "type", text "enabled"] (by decide)
        (List.Sublist.refl _)
      simp only [List.forall_mem_cons]
      exact ⟨.str _, .bool _, List.forall_mem_nil _⟩
    | some command =>
      apply isDocument_of_keys [text "type", text "command", text "environment",
        text "cwd", text "enabled"] (by decide)
      · simp only [List.cons_append, List.map_cons, List.map_append, List.map_nil]
        exact ((((copied_keys _ _ _).append (copied_keys _ _ _)).append
          (List.Sublist.refl _)).cons_cons _).cons_cons _
      · simp only [List.cons_append, List.forall_mem_cons, List.forall_mem_append]
        exact ⟨.str _, .arr (isDocument_command config.isDocument hcommand),
          ⟨isDocument_copied config.isDocument _ _, isDocument_copied config.isDocument _ _⟩,
          henabled, List.forall_mem_nil _⟩

theorem isDocument_providerConfig (settings : ModelSettings) (name : CodePoints) :
    (JsonText.Value.obj (providerConfig settings name)).IsDocument := by
  have hoptions : (JsonText.Value.obj (modelOptions settings)).IsDocument := by
    unfold modelOptions
    apply isDocument_of_keys [text "baseURL", text "apiKey"] (by decide)
    · rw [List.map_append]
      exact (optional_keys _ _ _).append (conditional_keys _ _ _)
    · intro m hm
      rcases List.mem_append.mp hm with hm | hm
      · obtain ⟨url, -, rfl⟩ := Option.map_eq_some_iff.mp (Option.mem_toList.mp hm)
        exact .str _
      · split_ifs at hm
        · cases hm
        · rw [List.mem_singleton.mp hm]
          exact .str _
  unfold providerConfig
  apply isDocument_of_keys [text "npm", text "options", text "models"] (by decide)
  · rw [List.map_append, List.map_append]
    exact ((optional_keys _ _ _).append (conditional_keys _ _ _)).append (List.Sublist.refl _)
  · intro m hm
    rcases List.mem_append.mp hm with hm | hm
    · rcases List.mem_append.mp hm with hm | hm
      · obtain ⟨url, -, rfl⟩ := Option.map_eq_some_iff.mp (Option.mem_toList.mp hm)
        exact .str _
      · split_ifs at hm
        · cases hm
        · rw [List.mem_singleton.mp hm]
          exact hoptions
    · rw [List.mem_singleton.mp hm]
      have hmodel : (JsonText.Value.obj [(text "name", .str name),
          (text "status", .str (text "active"))]).IsDocument := by
        apply isDocument_of_keys [text "name", text "status"] (by decide)
          (List.Sublist.refl _)
        simp only [List.forall_mem_cons]
        exact ⟨.str _, .str _, List.forall_mem_nil _⟩
      exact .obj (List.nodup_singleton _) (List.forall_mem_singleton.mpr hmodel)

theorem fit_update (hd : Fit (.obj d)) (hletters : ∀ c ∈ letters str op, Encodable c)
    (h : update str d op = some config) : Fit (.obj config) := by
  have hmcp := fit_dictAt hd (text "mcp")
  cases op with
  | mcpSet name document =>
    cases h
    obtain ⟨hname, hvalue⟩ := List.forall_mem_append.mp hletters
    apply fit_setKey (encodable_text "mcp" (by decide)) _ hd
    exact fit_setKey hname ⟨isDocument_toOpencode document, hvalue⟩ hmcp
  | mcpUnset name =>
    rw [update] at h
    split_ifs at h
    cases h
    exact fit_setKey (encodable_text "mcp" (by decide)) (fit_sublist hmcp List.filter_sublist) hd
  | mergeModel settings =>
    obtain ⟨model, hmodel, rfl⟩ := Option.map_eq_some_iff.mp h
    rw [letters, hmodel, Option.map_some, Option.getD_some, List.forall_mem_append,
      List.forall_mem_append] at hletters
    obtain ⟨⟨hname, hid⟩, hconfig⟩ := hletters
    have hdocument : (JsonText.Value.obj model.providerConfig).IsDocument := by
      unfold buildModelConfig at hmodel
      split at hmodel
      · cases hmodel
      · split_ifs at hmodel
        cases hmodel
        exact isDocument_providerConfig _ _
    have hcurrent := fit_setKey (encodable_text "model" (by decide)) (fit_str hname) hd
    have hproviders := fit_dictAt hcurrent (text "provider")
    apply fit_setKey (encodable_text "provider" (by decide)) _ hcurrent
    apply fit_setKey hid _ hproviders
    exact fit_mergeProvider (fit_dictAt hproviders _) ⟨hdocument, hconfig⟩

theorem dictAt_setKey_self (members : ConfigDict) :
    dictAt (setKey key (.obj members) d) key = members := by
  rw [dictAt, lookup_setKey, if_pos rfl]

theorem dictAt_setKey_of_ne {key' : CodePoints} (h : key' ≠ key) :
    dictAt (setKey key v d) key' = dictAt d key' := by
  rw [dictAt, lookup_setKey, if_neg h, dictAt]

theorem lookup_filter_of_ne {name : CodePoints} (h : key ≠ name) :
    (d.filter fun m => m.1 ≠ name).lookup key = d.lookup key := by
  induction d with
  | nil => rfl
  | cons m d ih =>
    obtain ⟨k, w⟩ := m
    by_cases hname : k = name
    · subst hname
      rw [List.filter_cons_of_neg (by simp), ih, lookup_cons_of_ne h]
    · rw [List.filter_cons_of_pos (by simpa using hname)]
      by_cases hkey : key = k
      · subst hkey
        rw [List.lookup_cons_self, List.lookup_cons_self]
      · rw [lookup_cons_of_ne hkey, lookup_cons_of_ne hkey, ih]

theorem keeps_update (h : update str d op = some config) : Keeps op d config := by
  have hprovider : text "provider" ≠ text "mcp" := by decide
  cases op with
  | mcpSet name document =>
    cases h
    refine ⟨fun key hkey => ?_, fun name' hname => ?_, fun id _ => ?_⟩
    · rw [lookup_setKey, if_neg (by simpa [ownKeys] using hkey)]
    · rw [dictAt_setKey_self, lookup_setKey, if_neg]
      rintro rfl
      exact hname rfl
    · rw [dictAt_setKey_of_ne hprovider]
  | mcpUnset name =>
    rw [update] at h
    split_ifs at h
    cases h
    refine ⟨fun key hkey => ?_, fun name' hname => ?_, fun id _ => ?_⟩
    · rw [lookup_setKey, if_neg (by simpa [ownKeys] using hkey)]
    · rw [dictAt_setKey_self, lookup_filter_of_ne]
      rintro rfl
      exact hname rfl
    · rw [dictAt_setKey_of_ne hprovider]
  | mergeModel settings =>
    obtain ⟨model, hmodel, rfl⟩ := Option.map_eq_some_iff.mp h
    have hid : model.providerId = settings.modelProvider := by
      unfold buildModelConfig at hmodel
      split at hmodel
      · cases hmodel
      · split_ifs at hmodel
        cases hmodel
        rfl
    refine ⟨fun key hkey => ?_, fun name _ => ?_, fun id hother => ?_⟩
    · simp only [ownKeys, List.mem_cons, List.not_mem_nil, or_false, not_or] at hkey
      rw [lookup_setKey, if_neg hkey.2, lookup_setKey, if_neg hkey.1]
    · rw [dictAt_setKey_of_ne hprovider.symm, dictAt_setKey_of_ne (by decide)]
    · rw [dictAt_setKey_self, lookup_setKey, if_neg, dictAt_setKey_of_ne (by decide)]
      rintro rfl
      exact hother (by rw [hid]; rfl)

theorem not_surrogate_of_encodable {c : ℕ} (h : Encodable c) : ¬ IsSurrogate c := by
  obtain ⟨bytes, hbytes⟩ := Option.isSome_iff_exists.mp h
  have hencode : encode [c] = some (bytes ++ []) := by
    rw [encode, hbytes]
    rfl
  exact not_surrogate_of_encode hencode c (List.mem_singleton_self c)

theorem objectIn_written {data : List ℕ} (hfit : Fit (.obj config))
    (hdata : encode (dumps (.obj config)) = some data) : objectIn (some data) = config := by
  have hloads := loads_dumps hfit.1 fun c hc => not_surrogate_of_encodable (hfit.2 c hc)
  have hreturn : 13 ∉ dumps (.obj config) := fun hmem => (hfit.1.plain hmem).1 rfl
  have hparse : parseContent data = some (some (.obj config)) := by
    rw [parseContent, decode_encode hdata, Option.map_some,
      ChannelCredentialStore.universalNewlines_eq hreturn, hloads, Option.map_some,
      hfit.1.asDict_eq]
  rw [objectIn, Option.bind_some, hparse]

theorem isSome_encode_dumps (hfit : Fit (.obj config)) :
    ∃ data, encode (dumps (.obj config)) = some data := by
  apply Option.isSome_iff_exists.mp
  rw [isSome_encode_iff]
  intro c hc
  rcases (hfit.1.plain hc).2 with hlow | hmem
  · rw [encodeOne, if_pos hlow]
    rfl
  · exact hfit.2 c hmem

theorem isDocument_objectIn (content : Option (List ℕ)) :
    (JsonText.Value.obj (objectIn content)).IsDocument := by
  have hempty : (JsonText.Value.obj []).IsDocument := fit_empty.1
  unfold objectIn
  split
  · next members h =>
    obtain ⟨bytes, -, hparse⟩ := Option.bind_eq_some_iff.mp h
    obtain ⟨raw, -, hloads⟩ := Option.map_eq_some_iff.mp hparse
    obtain ⟨written, hwritten, heq⟩ := Option.map_eq_some_iff.mp hloads
    rw [← heq]
    exact (loads_written hwritten).asDict
  · exact hempty

theorem readConfigDisk_cases (h : readConfigDisk calls content = some (.obj d)) :
    (calls.readFails = true ∧ d = []) ∨ d = objectIn content := by
  unfold readConfigDisk at h
  by_cases hstat : calls.statFails = true
  · rw [if_pos hstat] at h
    cases h
  rw [if_neg hstat] at h
  cases content with
  | none =>
    cases h
    exact Or.inr rfl
  | some bytes =>
    split_ifs at h with hfails
    · cases h
      exact Or.inl ⟨hfails, rfl⟩
    · obtain ⟨parsed, hparsed, hvalue⟩ := Option.map_eq_some_iff.mp h
      right
      rw [objectIn, Option.bind_some, hparsed]
      cases parsed with
      | none =>
        cases hvalue
        rfl
      | some v =>
        rw [Option.getD_some] at hvalue
        rw [hvalue]

theorem changes_of_update (h : update str d op = some config) : changes d op = true := by
  cases op with
  | mcpSet => rfl
  | mcpUnset name =>
    rw [update] at h
    split_ifs at h with hmem
    exact decide_eq_true hmem
  | mergeModel settings =>
    obtain ⟨model, hmodel, -⟩ := Option.map_eq_some_iff.mp h
    rw [changes, hmodel]
    rfl

theorem step_keeps (h : Undisturbed str content op calls) : StepKeeps str content op calls := by
  unfold StepKeeps apply
  by_cases hdue : isDue op = true
  · rw [if_pos hdue]
    unfold rewrite
    cases hread : readConfigDisk calls content with
    | none => exact Or.inl rfl
    | some v =>
      cases v with
      | null | bool | num | str | arr => exact Or.inl rfl
      | obj current =>
        dsimp only
        cases hupdate : update str current op with
        | none => exact Or.inr (Keeps.refl _ _)
        | some config =>
          dsimp only
          unfold writeConfigDisk
          by_cases hopens : calls.opens = true
          · obtain ⟨hlose, hletters, hstored⟩ :=
              h ⟨hopens, current, hread, changes_of_update hupdate⟩
            obtain ⟨hcontent, hop⟩ := List.forall_mem_append.mp hletters
            have hfound : Fit (.obj (objectIn content)) := ⟨isDocument_objectIn content, hcontent⟩
            -- what was read is what is in the file, or nothing where nothing is lost
            have hcurrent : Fit (.obj current) ∧ Keeps op (objectIn content) current := by
              rcases readConfigDisk_cases hread with ⟨hfails, rfl⟩ | rfl
              · exact ⟨fit_empty, hlose hfails⟩
              · exact ⟨hfound, Keeps.refl _ _⟩
            have hfit := fit_update hcurrent.1 hop hupdate
            obtain ⟨data, hdata⟩ := isSome_encode_dumps hfit
            right
            rw [if_pos hopens, hdata, hstored]
            rw [objectIn_written hfit hdata]
            exact hcurrent.2.trans (keeps_update hupdate)
          · rw [if_neg hopens]
            exact Or.inl rfl
  · rw [if_neg hdue]
    exact Or.inr (Keeps.refl _ _)

end

/-! A run from no file at all, and a lone surrogate in the file. -/

def quietCalls : ConfigCalls := ⟨false, false, true, none⟩

def localServer : ConfigDocument where
  members := [(text "command", .str (text "npx"))]
  isDocument := .obj (List.nodup_singleton _) (List.forall_mem_singleton.mpr (.str _))

theorem undisturbed_of_quiet {content : Option (List ℕ)} {op : ConfigOp}
    (h : ∀ c ∈ membersChars (objectIn content) ++ letters (fun _ => []) op, Encodable c) :
    Undisturbed (fun _ => []) content op quietCalls :=
  fun _ => ⟨fun hfails => (Bool.false_ne_true hfails).elim, h, rfl⟩

/-- `"\ud800"` in the file is read, but has no bytes to be written as. -/
def surrogateContent : List ℕ := text "\x7b\"theme\": \"\\ud800\"\x7d"

end OpenCodeConfig

end WittyService
