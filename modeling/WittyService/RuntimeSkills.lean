import Mathlib.Data.List.DropRight
import WittyService.ChannelCredentialStore

/-! The skills that are installed for one agent, and how they are reconciled with those its runtime
reports. A call that raises leaves its transaction undone. -/
namespace WittyService

open JsonText Utf8Text

inductive SkillSourceType where
  | builtin
  | git
  | local
  | clawhub
  | wittyhub
  deriving DecidableEq, Repr

/-- A row of `agent_skills`; its agent and its id are its key. -/
structure AgentSkill where
  sourceType : SkillSourceType
  repoId : Option CodePoints
  skillName : CodePoints
  relativePath : Option CodePoints
  metadata : Option JsonText.Value
  skillSource : Option CodePoints
  skillMdUrl : Option CodePoints
  installedAt : ℤ

/-- A row of `skills`; its id is its key. -/
structure Skill where
  repoId : Option CodePoints
  skillName : CodePoints
  relativePath : Option CodePoints
  metadata : JsonText.Value
  skillSource : Option CodePoints
  skillMdUrl : Option CodePoints
  createdAt : ℤ
  updatedAt : ℤ

/-- The rows of one agent, and all rows of `skills`. -/
structure SkillTables where
  installed : OrderedDict CodePoints AgentSkill
  skills : OrderedDict CodePoints Skill

abbrev SkillKey := CodePoints × Option CodePoints

instance : LawfulBEq SkillKey := inferInstance

structure Reported where
  name : CodePoints
  path : Option CodePoints
  metadata : JsonText.Value
  source : Option CodePoints

def Reported.key (r : Reported) : SkillKey := (r.name, r.path)

namespace RuntimeSkills

/-- `str.isspace` of one character. -/
def isSpace (c : ℕ) : Bool :=
  c ∈ [0x09, 0x0a, 0x0b, 0x0c, 0x0d, 0x1c, 0x1d, 0x1e, 0x1f, 0x20, 0x85, 0xa0, 0x1680, 0x2000,
    0x2001, 0x2002, 0x2003, 0x2004, 0x2005, 0x2006, 0x2007, 0x2008, 0x2009, 0x200a, 0x2028, 0x2029,
    0x202f, 0x205f, 0x3000]

def strip (t : CodePoints) : CodePoints := (t.dropWhile isSpace).rdropWhile isSpace

def normalPath (path : Option CodePoints) : Option CodePoints :=
  (path.map strip).filter (· ≠ [])

def stringAt (members : List (CodePoints × JsonText.Value)) (key : String) : Option CodePoints :=
  match ChannelCredentialStore.get members key with
  | some (.str s) => some s
  | _ => none

def reportedOf : JsonText.Value → Option Reported
  | .obj members =>
    match stringAt members "name" with
    | some name =>
      if strip name = [] then none
      else some ⟨strip name, normalPath (stringAt members "filePath"), .obj members,
        stringAt members "source"⟩
    | none => none
  | _ => none

def normalizedFrom (seen : List SkillKey) : List JsonText.Value → List Reported
  | [] => []
  | item :: items =>
    match reportedOf item with
    | none => normalizedFrom seen items
    | some r =>
      if r.key ∈ seen then normalizedFrom seen items
      else r :: normalizedFrom (seen ++ [r.key]) items

def normalized (skills : List JsonText.Value) : List Reported := normalizedFrom [] skills

def idText (agentId : CodePoints) (key : SkillKey) : CodePoints :=
  text "builtin:" ++ agentId ++ text ":" ++ key.1 ++ text ":" ++ key.2.getD []

def storedKey (row : AgentSkill) : SkillKey :=
  (strip row.skillName, (row.relativePath.filter (· ≠ [])).map strip)

def rawKey (row : AgentSkill) : SkillKey := (strip row.skillName, row.relativePath)

def isBuiltin (row : AgentSkill) : Bool := row.sourceType = .builtin

def nonBuiltinKeys (installed : OrderedDict CodePoints AgentSkill) : List SkillKey :=
  (installed.entries.filter fun e => !isBuiltin e.2).map fun e => storedKey e.2

def obsolete (installed : OrderedDict CodePoints AgentSkill) (incoming : List SkillKey)
    (row : AgentSkill) : Bool :=
  isBuiltin row && (rawKey row ∉ incoming || rawKey row ∈ nonBuiltinKeys installed)

def builtinRow (r : Reported) (now : ℤ) : AgentSkill :=
  ⟨.builtin, none, r.name, r.path, some r.metadata, r.source, none, now⟩

def skillRow (r : Reported) (createdAt now : ℤ) : Skill :=
  ⟨none, r.name, r.path, r.metadata, r.source, none, createdAt, now⟩

def bindable (t : Option CodePoints) : Bool := t.all fun t => (Utf8Text.encode t).isSome

variable (uuid5 : CodePoints → CodePoints) (agentId : CodePoints)

def builtinId (r : Reported) : CodePoints := uuid5 (idText agentId r.key)

def insertMissing (now : ℤ) (state : SkillTables × List SkillKey) (r : Reported) :
    Option (SkillTables × List SkillKey) :=
  if r.key ∈ state.2 then some state
  else
    let id := builtinId uuid5 agentId r
    if id ∈ state.1.installed.entries.map Prod.fst ∨ bindable r.source = false then none
    else
      let createdAt := ((state.1.skills.get? id).map Skill.createdAt).getD now
      some ({
        installed := state.1.installed.set id (builtinRow r now)
        skills := state.1.skills.set id (skillRow r createdAt now) }, state.2 ++ [r.key])

def kept (incoming : List SkillKey) (t : SkillTables) : OrderedDict CodePoints AgentSkill :=
  t.installed.keep fun e => !obsolete t.installed incoming e.2

def obsoleteIds (incoming : List SkillKey) (t : SkillTables) : List CodePoints :=
  (t.installed.entries.filter fun e => obsolete t.installed incoming e.2).map Prod.fst

/-- `replace_installed_agent_skills_from_runtime`, or none when it raises. -/
def replaceInstalledAgentSkillsFromRuntime (skills : List JsonText.Value) (now : ℤ)
    (t : SkillTables) : Option SkillTables :=
  let reported := normalized skills
  let incoming := reported.map Reported.key
  if reported.all fun r => bindable (some (idText agentId r.key)) then
    let cleared : SkillTables :=
      ⟨kept incoming t, t.skills.keep fun e => e.1 ∉ obsoleteIds incoming t⟩
    let existing := (kept incoming t).entries.map fun e => storedKey e.2
    (reported.foldlM (insertMissing uuid5 agentId now) (cleared, existing)).map Prod.fst
  else none

def upsertInstalledAgentSkill (skillId : CodePoints) (row : AgentSkill) (t : SkillTables) :
    SkillTables :=
  { t with installed := t.installed.set skillId row }

end RuntimeSkills

end WittyService
