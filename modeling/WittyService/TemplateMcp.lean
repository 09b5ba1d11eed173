import WittyService.OpenCodeConfig
import WittyService.RuntimeSkills

/-! The MCP servers of a template. Each is written to the config of opencode with the references in
its environment resolved, and then once more by the agent server, from what it is posted. -/
namespace WittyService

open JsonText Utf8Text OpenCodeConfig

inductive McpTransport where
  | remote
  | local
  deriving DecidableEq

/-- `str | list[str]`. -/
inductive McpCommand where
  | text (command : CodePoints)
  | words (command : List CodePoints)
  deriving DecidableEq

def McpCommand.toList : McpCommand → List CodePoints
  | .text command => [command]
  | .words command => command

def McpCommand.given : McpCommand → Prop
  | .text command => command ≠ []
  | .words command => command ≠ []

def McpCommand.toValue : McpCommand → JsonText.Value
  | .text command => .str command
  | .words command => .arr (command.map .str)

def resolvedType (type : Option McpTransport) (url : Option CodePoints) : McpTransport :=
  type.getD (if (given url).isSome then .remote else .local)

structure TemplateMcpServer where
  name : CodePoints
  type : Option McpTransport
  command : Option McpCommand
  args : List CodePoints
  env : List (CodePoints × CodePoints)
  cwd : Option CodePoints
  url : Option CodePoints
  headers : List (CodePoints × CodePoints)
  enabled : Bool
  named : RuntimeSkills.strip name ≠ []
  hasTransport : match resolvedType type url with
    | .remote => (given url).isSome
    | .local => ∃ c ∈ command, c.given
  envKeys : (env.map Prod.fst).Nodup
  headerKeys : (headers.map Prod.fst).Nodup

/-- The `mcp` of a template. -/
structure TemplateMcpList where
  servers : List TemplateMcpServer
  unique : (servers.map TemplateMcpServer.name).Nodup

abbrev ProcessEnvironment := CodePoints → Option CodePoints

namespace TemplateMcp

def textDict (d : List (CodePoints × CodePoints)) : ConfigDict :=
  d.map fun m => (m.1, .str m.2)

def member {α : Type} (key : String) (f : α → JsonText.Value) (o : Option α) : ConfigDict :=
  (o.map fun a => (text key, f a)).toList

def givenDict (d : List (CodePoints × CodePoints)) : Option ConfigDict :=
  if d = [] then none else some (textDict d)

def toStorageConfig (server : TemplateMcpServer) : ConfigDict :=
  (match resolvedType server.type server.url with
  | .remote =>
    member "url" .str server.url ++ member "headers" .obj (givenDict server.headers)
  | .local =>
    member "command" McpCommand.toValue server.command ++
      member "args" (fun args => .arr (args.map .str))
        (if server.args = [] then none else some server.args) ++
      member "env" .obj (givenDict server.env) ++ member "cwd" .str (given server.cwd)) ++
    [(text "enabled", .bool server.enabled)]

def isNameStart (c : ℕ) : Bool := (65 ≤ c && c ≤ 90) || (97 ≤ c && c ≤ 122) || c == 95

def isNameChar (c : ℕ) : Bool := isNameStart c || (48 ≤ c && c ≤ 57)

/-- A match of `_ENV_REF_PATTERN` at the beginning: its name and what follows. -/
def readReference : CodePoints → Option (CodePoints × CodePoints)
  | 36 :: 123 :: c :: rest =>
    match isNameStart c, rest.dropWhile isNameChar with
    | true, 125 :: after => some (c :: rest.takeWhile isNameChar, after)
    | _, _ => none
  | _ => none

/-- Each round reads one letter or more, so that as many rounds as there are letters will do. -/
def expandFrom (environment : ProcessEnvironment) : ℕ → CodePoints → Option CodePoints
  | _, [] => some []
  | 0, _ => none
  | n + 1, c :: rest =>
    match readReference (c :: rest) with
    | none => (expandFrom environment n rest).map (c :: ·)
    | some (name, after) => do
      let value ← environment name
      let expanded ← expandFrom environment n after
      return value ++ expanded

def expandEnvValue (environment : ProcessEnvironment) (value : CodePoints) : Option CodePoints :=
  expandFrom environment value.length value

/-- What is kept of one entry of the `env` of a config. -/
def resolveEntry (environment : ProcessEnvironment) (m : CodePoints × JsonText.Value) :
    Option (CodePoints × JsonText.Value) :=
  match m.2 with
  | .str value => (expandEnvValue environment value).map fun v => (m.1, .str v)
  | _ => some m

def resolveMcpEnv (environment : ProcessEnvironment) (config : ConfigDict) : ConfigDict :=
  match config.lookup (text "env") with
  | some (.obj env) =>
    match env.filterMap (resolveEntry environment) with
    | [] => config.filter fun m => m.1 ≠ text "env"
    | resolved => setKey (text "env") (.obj resolved) config
  | _ => config

def unwrapMcpConfig (config : ConfigDict) (name : CodePoints) : ConfigDict :=
  match name, config.lookup name with
  | _ :: _, some (.obj inner) => inner
  | _, _ => config

variable (str : JsonText.Value → CodePoints)

/-- What `update` does for `mcp_set`. -/
def mcpSet (name : CodePoints) (config current : ConfigDict) : ConfigDict :=
  setKey (text "mcp") (.obj (setKey name (.obj (toOpencodeMcpConfig str config))
    (dictAt current (text "mcp")))) current

def mergeOpencodeMcp (environment : ProcessEnvironment) (servers : List TemplateMcpServer)
    (current : ConfigDict) : ConfigDict :=
  if servers = [] then current
  else setKey (text "mcp") (.obj (servers.foldl (fun d server => setKey server.name
    (.obj (toOpencodeMcpConfig str (resolveMcpEnv environment (toStorageConfig server)))) d)
    (dictAt current (text "mcp")))) current

/-- `_enable_template_mcp_runtime`, where `written` tells whose call got as far as writing. -/
def enableRuntime (written : CodePoints → Bool) (servers : List TemplateMcpServer)
    (current : ConfigDict) : ConfigDict :=
  servers.foldl (fun d server =>
    if written server.name then
      mcpSet str server.name (unwrapMcpConfig (toStorageConfig server) server.name) d
    else d) current

/-- The two last steps of the post-create configuration. When one before them raises, the agent is
rolled back. -/
def postCreate (environment : ProcessEnvironment) (written : CodePoints → Bool)
    (servers : List TemplateMcpServer) (current : ConfigDict) : ConfigDict :=
  enableRuntime str written servers (mergeOpencodeMcp str environment servers current)

/-- Every server has its resolved configuration, and all else is as it was. -/
structure Configured (environment : ProcessEnvironment) (servers : List TemplateMcpServer)
    (before after : ConfigDict) : Prop where
  own : ∀ server ∈ servers, (dictAt after (text "mcp")).lookup server.name = some
    (.obj (toOpencodeMcpConfig str (resolveMcpEnv environment (toStorageConfig server))))
  others : ∀ name, (∀ server ∈ servers, server.name ≠ name) →
    (dictAt after (text "mcp")).lookup name = (dictAt before (text "mcp")).lookup name
  top : ∀ key, key ≠ text "mcp" → after.lookup key = before.lookup key

/-- What is posted for a server says what was written before: the value looked up under its name is
no dict and its environment holds no reference, or the environment is looked up and happens to say
the same as the server. -/
def Agrees (environment : ProcessEnvironment) (server : TemplateMcpServer) : Prop :=
  match resolvedType server.type server.url with
  | .remote => server.name = text "headers" → server.headers = []
  | .local =>
    if server.name = text "env" ∧ server.env ≠ [] then
      (∀ m ∈ server.env, expandEnvValue environment m.2 = none) ∧
      server.env.lookup (text "url") = none ∧ server.env.lookup (text "env") = none ∧
      server.env.lookup (text "enabled") = none ∧ server.enabled = true ∧
      server.env.lookup (text "cwd") = given server.cwd ∧ server.args = [] ∧
      ((server.env.lookup (text "command")).map fun c => [c]) =
        server.command.map McpCommand.toList
    else ∀ m ∈ server.env, expandEnvValue environment m.2 = some m.2

section

variable {str} {environment : ProcessEnvironment} {written : CodePoints → Bool}
  {servers : List TemplateMcpServer} {server : TemplateMcpServer} {name : CodePoints}
  {d current config : ConfigDict} {f : TemplateMcpServer → JsonText.Value}

theorem text_inj {s t : String} : text s = text t ↔ s = t := by
  refine ⟨fun h => ?_, congrArg text⟩
  apply String.toList_inj.mp
  exact List.map_injective_iff.mpr (fun a b hab => Char.toNat_inj.mp hab) h

theorem lookup_member {α : Type} (key key' : String) (g : α → JsonText.Value) (o : Option α) :
    (member key g o).lookup (text key') = if key' = key then o.map g else none := by
  cases o with
  | none => simp [member]
  | some a =>
    rw [member, Option.map_some, Option.toList_some]
    split_ifs with heq
    · rw [heq, List.lookup_cons_self, Option.map_some]
    · rw [lookup_cons_of_ne fun h => heq (text_inj.mp h), List.lookup_nil]

theorem lookup_foldl_of_ne (h : ∀ server ∈ servers, server.name ≠ name) :
    (servers.foldl (fun d server => setKey server.name (f server) d) d).lookup name =
      d.lookup name := by
  induction servers generalizing d with
  | nil => rfl
  | cons server servers ih =>
    obtain ⟨hserver, hservers⟩ := List.forall_mem_cons.mp h
    rw [List.foldl_cons, ih hservers, lookup_setKey, if_neg hserver.symm]

theorem lookup_foldl_self (hnames : (servers.map TemplateMcpServer.name).Nodup)
    (hserver : server ∈ servers) :
    (servers.foldl (fun d server => setKey server.name (f server) d) d).lookup server.name =
      some (f server) := by
  induction servers generalizing d with
  | nil => cases hserver
  | cons first servers ih =>
    obtain ⟨hfirst, hservers⟩ := List.nodup_cons.mp hnames
    rcases List.mem_cons.mp hserver with rfl | hserver
    · rw [List.foldl_cons, lookup_foldl_of_ne, lookup_setKey, if_pos rfl]
      intro other hother heq
      exact hfirst (List.mem_map.mpr ⟨other, hother, heq⟩)
    · exact ih hservers hserver

/-- What the calls to enable the servers do to the servers of the config. -/
theorem dictAt_enableRuntime :
    dictAt (enableRuntime str written servers current) (text "mcp") =
      (servers.filter fun server => written server.name).foldl (fun d server =>
        setKey server.name (.obj (toOpencodeMcpConfig str
          (unwrapMcpConfig (toStorageConfig server) server.name))) d)
        (dictAt current (text "mcp")) := by
  unfold enableRuntime
  induction servers generalizing current with
  | nil => rfl
  | cons server servers ih =>
    rw [List.foldl_cons, ih]
    by_cases hwritten : written server.name = true
    · rw [if_pos hwritten,
        List.filter_cons_of_pos (p := fun s : TemplateMcpServer => written s.name) hwritten,
        List.foldl_cons, mcpSet,
        dictAt_setKey_self]
    · rw [if_neg hwritten,
        List.filter_cons_of_neg (p := fun s : TemplateMcpServer => written s.name) hwritten]

theorem lookup_enableRuntime (hname : name ≠ text "mcp") :
    (enableRuntime str written servers current).lookup name = current.lookup name := by
  unfold enableRuntime
  induction servers generalizing current with
  | nil => rfl
  | cons server servers ih =>
    rw [List.foldl_cons, ih]
    split_ifs
    · rw [mcpSet, lookup_setKey, if_neg hname]
    · rfl

theorem dictAt_merge :
    dictAt (mergeOpencodeMcp str environment servers current) (text "mcp") =
      servers.foldl (fun d server => setKey server.name (.obj (toOpencodeMcpConfig str
        (resolveMcpEnv environment (toStorageConfig server)))) d)
        (dictAt current (text "mcp")) := by
  unfold mergeOpencodeMcp
  split_ifs with hservers
  · rw [hservers, List.foldl_nil]
  · rw [dictAt_setKey_self]

/-- The two writes of an entry have to say the same where there is a second one. -/
theorem configured_iff_conversions (hnames : (servers.map TemplateMcpServer.name).Nodup) :
    Configured str environment servers current
        (postCreate str environment written servers current) ↔
      ∀ server ∈ servers, written server.name = true →
        toOpencodeMcpConfig str (unwrapMcpConfig (toStorageConfig server) server.name) =
          toOpencodeMcpConfig str (resolveMcpEnv environment (toStorageConfig server)) := by
  have hwritten : ∀ server ∈ servers, written server.name = true →
      (dictAt (postCreate str environment written servers current) (text "mcp")).lookup
        server.name = some (.obj (toOpencodeMcpConfig str
          (unwrapMcpConfig (toStorageConfig server) server.name))) := by
    intro server hserver hwritten
    rw [postCreate, dictAt_enableRuntime]
    apply lookup_foldl_self (hnames.sublist (List.filter_sublist.map _))
    exact List.mem_filter.mpr ⟨hserver, hwritten⟩
  constructor
  · intro h server hserver hcall
    have hown := h.own server hserver
    rw [hwritten server hserver hcall] at hown
    exact JsonText.Value.obj.inj (Option.some.inj hown)
  · intro h
    refine ⟨fun server hserver => ?_, fun name hname => ?_, fun key hkey => ?_⟩
    · by_cases hcall : written server.name = true
      · rw [hwritten server hserver hcall, h server hserver hcall]
      · rw [postCreate, dictAt_enableRuntime, lookup_foldl_of_ne, dictAt_merge,
          lookup_foldl_self hnames hserver]
        intro other hother heq
        exact hcall (heq ▸ (List.mem_filter.mp hother).2)
    · rw [postCreate, dictAt_enableRuntime, lookup_foldl_of_ne, dictAt_merge,
        lookup_foldl_of_ne hname]
      exact fun other hother => hname other (List.mem_filter.mp hother).1
    · rw [postCreate, lookup_enableRuntime hkey, mergeOpencodeMcp]
      split_ifs
      · rfl
      · rw [lookup_setKey, if_neg hkey]

/-- The entries of an environment that are kept. -/
def resolved (environment : ProcessEnvironment) (env : List (CodePoints × CodePoints)) :
    List (CodePoints × CodePoints) :=
  env.filterMap fun m => (expandEnvValue environment m.2).map fun v => (m.1, v)

theorem resolved_eq_self_iff {env : List (CodePoints × CodePoints)} :
    resolved environment env = env ↔
      ∀ m ∈ env, expandEnvValue environment m.2 = some m.2 := by
  unfold resolved
  induction env with
  | nil => simp
  | cons m env ih =>
    rw [List.forall_mem_cons, ← ih, List.filterMap_cons]
    cases expandEnvValue environment m.2 with
    | none =>
      have hlength := List.length_filterMap_le (fun m =>
        (expandEnvValue environment m.2).map fun v => (m.1, v)) env
      refine ⟨fun h => ?_, fun h => nomatch h.1⟩
      rw [Option.map_none] at h
      have := congrArg List.length h
      simp only [List.length_cons] at this
      omega
    | some v => simp [Prod.ext_iff]

theorem givenDict_inj {d d' : List (CodePoints × CodePoints)} :
    givenDict d = givenDict d' ↔ d = d' := by
  refine ⟨fun h => ?_, congrArg givenDict⟩
  unfold givenDict at h
  split_ifs at h with hd hd' hd'
  · rw [hd, hd']
  · apply List.map_injective_iff.mpr _ (Option.some.inj h)
    rintro ⟨k, v⟩ ⟨k', v'⟩ heq
    simpa using heq

theorem lookup_textDict (d : List (CodePoints × CodePoints)) (key : CodePoints) :
    (textDict d).lookup key = (d.lookup key).map .str := by
  induction d with
  | nil => rfl
  | cons m d ih =>
    rw [textDict, List.map_cons, List.lookup_cons, List.lookup_cons]
    cases key == m.1 with
    | true => rfl
    | false => exact ih

variable (server) in
theorem lookup_storage (key : String) : (toStorageConfig server).lookup (text key) =
    if key = "enabled" then some (.bool server.enabled)
    else match resolvedType server.type server.url with
    | .remote =>
      if key = "url" then server.url.map .str
      else if key = "headers" then (givenDict server.headers).map .obj else none
    | .local =>
      if key = "command" then server.command.map McpCommand.toValue
      else if key = "args" then
        (if server.args = [] then none else some server.args).map fun args => .arr (args.map .str)
      else if key = "env" then (givenDict server.env).map .obj
      else if key = "cwd" then (given server.cwd).map .str else none := by
  have henabled : List.lookup (text key) [(text "enabled", JsonText.Value.bool server.enabled)] =
      if key = "enabled" then some (.bool server.enabled) else none :=
    lookup_member "enabled" key .bool (some server.enabled)
  cases htype : resolvedType server.type server.url <;>
    simp only [toStorageConfig, htype, List.lookup_append, lookup_member, henabled]
  · split_ifs <;> simp_all
  · split_ifs <;> simp_all

theorem lookup_resolve (hlocal : resolvedType server.type server.url = .local) (key : String) :
    (resolveMcpEnv environment (toStorageConfig server)).lookup (text key) =
      if key = "env" then (givenDict (resolved environment server.env)).map .obj
      else (toStorageConfig server).lookup (text key) := by
  have henv : (toStorageConfig server).lookup (text "env") = (givenDict server.env).map .obj := by
    rw [lookup_storage, hlocal]
    rfl
  have hresolved : (textDict server.env).filterMap (resolveEntry environment) =
      textDict (resolved environment server.env) := by
    rw [textDict, List.filterMap_map, textDict, resolved, List.map_filterMap]
    congr 1
    funext m
    simp only [resolveEntry, Function.comp_apply, Option.map_map]
    rfl
  unfold resolveMcpEnv
  rw [henv]
  by_cases hempty : server.env = []
  · have hnone : (toStorageConfig server).lookup (text "env") = none := by
      rw [henv, hempty]
      rfl
    rw [← henv, hnone]
    dsimp only
    split_ifs with hkey
    · rw [hkey, hnone, hempty]
      rfl
    · rfl
  · rw [givenDict, if_neg hempty, Option.map_some]
    dsimp only
    rw [hresolved]
    split
    · next hnone =>
      rw [givenDict, if_pos (List.map_eq_nil_iff.mp hnone)]
      split_ifs with hkey
      · rw [hkey, Option.map_none, List.lookup_eq_none_iff]
        intro m hm
        exact bne_iff_ne.mpr (of_decide_eq_true (List.mem_filter.mp hm).2).symm
      · rw [lookup_filter_of_ne fun h => hkey (text_inj.mp h)]
    · next hsome =>
      rw [lookup_setKey, givenDict, if_neg fun h => hsome (List.map_eq_nil_iff.mpr h)]
      simp [text_inj]

def commandLine (str : JsonText.Value → CodePoints) (server : TemplateMcpServer) :
    List JsonText.Value :=
  ((server.command.map McpCommand.toList).getD []).map .str ++
    server.args.map fun a => .str (str (.str a))

/-- A config of a local server, where only its environment may differ from what is stored. -/
theorem toOpencode_stored (hlocal : resolvedType server.type server.url = .local)
    (h : ∀ key, key ≠ "env" →
      config.lookup (text key) = (toStorageConfig server).lookup (text key)) :
    toOpencodeMcpConfig str config =
      (text "type", .str (text "local")) :: (text "command", .arr (commandLine str server)) ::
        ((config.lookup (text "env")).map fun v => (text "environment", v)).toList ++
        (((given server.cwd).map .str).map fun v => (text "cwd", v)).toList ++
        [(text "enabled", .bool server.enabled)] := by
  have hlookup (key : String) (hkey : key ≠ "env") := (h key hkey).trans (lookup_storage server key)
  have hcommand : mergedCommand str config = some (commandLine str server) := by
    obtain ⟨command, hgiven, -⟩ : ∃ c ∈ server.command, c.given := by
      simpa only [hlocal] using server.hasTransport
    rw [mergedCommand, hlookup "command" (by decide), hlookup "args" (by decide), commandLine,
      Option.mem_def.mp hgiven, hlocal]
    by_cases hargs : server.args = []
    · cases command <;> simp [hargs, McpCommand.toValue, McpCommand.toList]
    · cases command <;> simp [hargs, McpCommand.toValue, McpCommand.toList]
  have hcwd : copied config (text "cwd") (text "cwd") =
      (((given server.cwd).map .str).map fun v => (text "cwd", v)).toList := by
    rw [copied, hlookup "cwd" (by decide), hlocal]
    rfl
  rw [toOpencodeMcpConfig, hlookup "url" (by decide), hlookup "enabled" (by decide), hcommand, hcwd,
    hlocal]
  simp [copied]

theorem entries_inj {c c' : JsonText.Value} {e e' w w' : Option JsonText.Value}
    {b b' : JsonText.Value} :
    (text "type", JsonText.Value.str (text "local")) :: (text "command", c) ::
        (e.map fun v => (text "environment", v)).toList ++
        (w.map fun v => (text "cwd", v)).toList ++ [(text "enabled", b)] =
      (text "type", JsonText.Value.str (text "local")) :: (text "command", c') ::
        (e'.map fun v => (text "environment", v)).toList ++
        (w'.map fun v => (text "cwd", v)).toList ++ [(text "enabled", b')] ↔
      c = c' ∧ e = e' ∧ w = w' ∧ b = b' := by
  cases e <;> cases e' <;> cases w <;> cases w' <;> simp [text_inj]

theorem lookup_obj {inner : ConfigDict}
    (h : (toStorageConfig server).lookup name = some (.obj inner)) :
    match resolvedType server.type server.url with
    | .remote => name = text "headers" ∧ server.headers ≠ []
    | .local => name = text "env" ∧ server.env ≠ [] := by
  have hmem := mem_of_lookup h
  unfold toStorageConfig at hmem
  cases htype : resolvedType server.type server.url with
  | remote =>
    cases hurl : server.url <;> by_cases hheaders : server.headers = [] <;>
      simp_all [member, givenDict]
  | «local» =>
    have hcommand : ∀ c, McpCommand.toValue c ≠ .obj inner := fun c => by cases c <;> nofun
    by_cases henv : server.env = []
    · simp_all [member, givenDict, eq_comm]
    · simp_all [member, givenDict, eq_comm]

theorem unwrap_local (hlocal : resolvedType server.type server.url = .local) :
    unwrapMcpConfig (toStorageConfig server) server.name =
      if server.name = text "env" ∧ server.env ≠ [] then textDict server.env
      else toStorageConfig server := by
  split_ifs with h
  · have hlookup : (toStorageConfig server).lookup (text "env") =
        some (.obj (textDict server.env)) := by
      rw [lookup_storage, hlocal]
      simp [givenDict, h.2]
    rw [h.1]
    unfold unwrapMcpConfig
    rw [hlookup]
    rfl
  · unfold unwrapMcpConfig
    split
    · next hlookup =>
      have hobj := lookup_obj hlookup
      simp only [hlocal] at hobj
      exact absurd hobj h
    · rfl

theorem mergedCommand_textDict (d : List (CodePoints × CodePoints)) :
    mergedCommand str (textDict d) =
      (d.lookup (text "command")).map fun c => [JsonText.Value.str c] := by
  rw [mergedCommand, lookup_textDict, lookup_textDict]
  cases d.lookup (text "args") <;> cases d.lookup (text "command") <;> rfl

/-- The environment of a server taken for its config. -/
theorem environment_agrees_iff (hlocal : resolvedType server.type server.url = .local) :
    toOpencodeMcpConfig str (textDict server.env) =
        toOpencodeMcpConfig str (resolveMcpEnv environment (toStorageConfig server)) ↔
      (∀ m ∈ server.env, expandEnvValue environment m.2 = none) ∧
      server.env.lookup (text "url") = none ∧ server.env.lookup (text "env") = none ∧
      server.env.lookup (text "enabled") = none ∧ server.enabled = true ∧
      server.env.lookup (text "cwd") = given server.cwd ∧ server.args = [] ∧
      ((server.env.lookup (text "command")).map fun c => [c]) =
        server.command.map McpCommand.toList := by
  have hresolved : none = (givenDict (resolved environment server.env)).map JsonText.Value.obj ↔
      ∀ m ∈ server.env, expandEnvValue environment m.2 = none := by
    rw [eq_comm, Option.map_eq_none_iff, givenDict, ite_eq_left_iff, resolved]
    simp [List.filterMap_eq_nil_iff]
  obtain ⟨command, hgiven, hcommand⟩ : ∃ c ∈ server.command, c.given := by
    simpa only [hlocal] using server.hasTransport
  have hline : ∀ c, JsonText.Value.arr [.str c] = .arr (commandLine str server) ↔
      [c] = command.toList ∧ server.args = [] := by
    intro c
    rw [commandLine, Option.mem_def.mp hgiven]
    cases command with
    | text t => cases server.args <;> simp [McpCommand.toList]
    | words t =>
      cases t with
      | nil => exact absurd rfl hcommand
      | cons w t => cases server.args <;> cases t <;> simp [McpCommand.toList]
  have hstored : toOpencodeMcpConfig str (resolveMcpEnv environment (toStorageConfig server)) = _ :=
    toOpencode_stored hlocal fun key hkey => by rw [lookup_resolve hlocal, if_neg hkey]
  rw [hstored, lookup_resolve hlocal, if_pos rfl, toOpencodeMcpConfig, mergedCommand_textDict]
  simp only [copied, lookup_textDict]
  cases hurl : server.env.lookup (text "url") with
  | some url => simp [text_inj]
  | none =>
    cases server.env.lookup (text "command") with
    | none => simp [text_inj, Option.mem_def.mp hgiven]
    | some c =>
      simp only [Option.map_none, Option.isSome_none, Option.map_some]
      rw [if_neg Bool.false_ne_true, entries_inj, hline, Option.mem_def.mp hgiven]
      cases server.env.lookup (text "env") with
      | some v => cases givenDict (resolved environment server.env) <;> simp
      | none =>
        rw [Option.map_none, hresolved]
        have hcwd : (server.env.lookup (text "cwd")).map JsonText.Value.str =
            (given server.cwd).map .str ↔ server.env.lookup (text "cwd") = given server.cwd :=
          (Option.map_injective fun _ _ h => JsonText.Value.str.inj h).eq_iff
        rw [hcwd]
        cases server.env.lookup (text "enabled") with
        | some v => simp
        | none => simp [and_assoc, and_left_comm, and_comm]

theorem conversions_agree_iff :
    toOpencodeMcpConfig str (unwrapMcpConfig (toStorageConfig server) server.name) =
        toOpencodeMcpConfig str (resolveMcpEnv environment (toStorageConfig server)) ↔
      Agrees environment server := by
  unfold Agrees
  cases htype : resolvedType server.type server.url with
  | «local» =>
    rw [unwrap_local htype]
    dsimp only
    split_ifs with henv
    · exact environment_agrees_iff htype
    · rw [toOpencode_stored htype fun key _ => rfl, toOpencode_stored htype fun key hkey => by
        rw [lookup_resolve htype, if_neg hkey], entries_inj, lookup_resolve htype, lookup_storage,
        htype]
      have hgiven : (givenDict server.env).map JsonText.Value.obj =
          (givenDict (resolved environment server.env)).map .obj ↔
            ∀ m ∈ server.env, expandEnvValue environment m.2 = some m.2 := by
        rw [(Option.map_injective fun _ _ h => JsonText.Value.obj.inj h).eq_iff, givenDict_inj,
          eq_comm, resolved_eq_self_iff]
      simpa using hgiven
  | remote =>
    have hlookup (key : String) := lookup_storage server key
    simp only [htype] at hlookup
    have hresolve : resolveMcpEnv environment (toStorageConfig server) =
        toStorageConfig server := by
      rw [resolveMcpEnv, hlookup]
      rfl
    rw [hresolve]
    constructor
    · intro heq hname
      by_contra hheaders
      have hunwrap : unwrapMcpConfig (toStorageConfig server) server.name =
          textDict server.headers := by
        have hfound := hlookup "headers"
        rw [hname]
        unfold unwrapMcpConfig
        rw [hfound]
        simp [givenDict, hheaders]
        rfl
      obtain ⟨url, hurl⟩ : ∃ url, server.url = some url := by
        have hgiven := server.hasTransport
        simp only [htype] at hgiven
        cases h : server.url with
        | none => simp [h, given] at hgiven
        | some url => exact ⟨url, rfl⟩
      rw [hunwrap, toOpencodeMcpConfig, toOpencodeMcpConfig, mergedCommand_textDict] at heq
      simp only [copied, hlookup, lookup_textDict] at heq
      cases hfound : server.headers.lookup (text "url") with
      | none =>
        cases hcommand : server.headers.lookup (text "command") <;>
          simp [hurl, hfound, hcommand, text_inj] at heq
      | some v =>
        cases hinner : server.headers.lookup (text "headers") <;>
          simp [hurl, hfound, hinner, hheaders, givenDict, text_inj] at heq
    · intro hname
      unfold unwrapMcpConfig
      split
      · next hfound =>
        have hobj := lookup_obj hfound
        simp only [htype] at hobj
        exact absurd (hname hobj.1) hobj.2
      · rfl

/-- The servers of a template are configured as they should be just when the calls that get as far
as writing are posted what was written before. -/
theorem configured_iff (str : JsonText.Value → CodePoints) (environment : ProcessEnvironment)
    (written : CodePoints → Bool) (template : TemplateMcpList) (current : ConfigDict) :
    Configured str environment template.servers current
        (postCreate str environment written template.servers current) ↔
      ∀ server ∈ template.servers, written server.name = true → Agrees environment server := by
  rw [configured_iff_conversions template.unique]
  exact forall₂_congr fun server _ => imp_congr_right fun _ => conversions_agree_iff

end

def tokenServer : TemplateMcpServer where
  name := text "search"
  type := none
  command := some (.text (text "npx"))
  args := []
  env := [(text "TOKEN", text "$\x7bTOKEN\x7d")]
  cwd := none
  url := none
  headers := []
  enabled := true
  named := by decide
  hasTransport := ⟨.text (text "npx"), rfl, (by decide : text "npx" ≠ [])⟩
  envKeys := List.nodup_singleton _
  headerKeys := List.nodup_nil

def tokenList : TemplateMcpList := ⟨[tokenServer], List.nodup_singleton _⟩

/-- The call to enable a server writes the reference in place of the token. -/
theorem reference_written_back :
    tokenServer.env.map (fun m => expandEnvValue (fun _ => some (text "secret")) m.2) =
        [some (text "secret")] ∧
      ¬ Configured (fun _ => []) (fun _ => some (text "secret")) tokenList.servers []
        (postCreate (fun _ => []) (fun _ => some (text "secret")) (fun _ => true)
          tokenList.servers []) := by
  refine ⟨by decide, fun h => ?_⟩
  have hconversions := (configured_iff_conversions tokenList.unique).mp h
  have hagrees := conversions_agree_iff.mp
    (hconversions tokenServer (List.mem_singleton_self _) rfl)
  have hkept : expandEnvValue (fun _ => some (text "secret")) (text "$\x7bTOKEN\x7d") =
      some (text "$\x7bTOKEN\x7d") := hagrees _ (List.mem_singleton_self _)
  exact absurd hkept (by decide)

end TemplateMcp

end WittyService
