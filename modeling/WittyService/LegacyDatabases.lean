import Mathlib.Data.List.Infix
import WittyService.Migrations

/-! Databases from before alembic. `_handle_legacy_db_if_needed` marks one as migrated to head when
it has what a list kept by hand names, which is not all that the revisions create. -/
namespace WittyService

open SchemaMigration

/-- What the inspector tells of a table. A constraint may have no name. -/
structure LegacyTable where
  columns : List String
  uniques : List (Option String × List String)
  checks : List (Option String × Option String)

abbrev LegacyDatabase := List (String × LegacyTable)

def TableName.sqlName : TableName → String
  | agents => "agents"
  | agentLocks => "agent_locks"
  | agentRuntimeState => "agent_runtime_state"
  | sessions => "sessions"
  | messages => "messages"
  | messageEvents => "message_events"
  | skillRepo => "skill_repo"
  | skills => "skills"
  | agentSkills => "agent_skills"
  | models => "models"
  | mcpServers => "mcp_servers"
  | scheduledTasks => "scheduled_tasks"
  | scheduledTaskRuns => "scheduled_task_runs"
  | channelInstances => "channel_instances"
  | channelProvisionings => "channel_provisionings"
  | channelRoutes => "channel_routes"
  | channelInboundEvents => "channel_inbound_events"
  | channelDeliveries => "channel_deliveries"
  | channelAccessPolicies => "channel_access_policies"

/-- The tables of head with their columns. -/
def headTables : List (String × List String) :=
  Revision.channelCredentialStore.schema.map fun entry =>
    (entry.1.sqlName, entry.2.columns.map Column.name)

def requiredTables : List String :=
  ["channel_access_policies", "channel_deliveries", "channel_inbound_events",
    "channel_instances", "channel_provisionings", "channel_routes", "mcp_servers"]

def requiredColumns : List (String × List String) :=
  [("sessions", ["runtime_type", "runtime_session_id", "runtime_session_key", "origin"]),
    ("models", ["compatibility"]), ("agents", ["model_id", "mcp_server_list"]),
    ("agent_skills", ["relative_path", "metadata", "skill_source", "skill_md_url"])]

def requiredUnique : List (String × String × List String) :=
  [("sessions", "uq_sessions_runtime_type_session_key", ["runtime_type", "runtime_session_key"]),
    ("sessions", "uq_sessions_runtime_type_session_id", ["runtime_type", "runtime_session_id"])]

def requiredChecks : List (String × String × List String) :=
  [("agent_skills", "ck_agent_skills_source_type", ["wittyhub", "clawhub"]),
    ("agent_skills", "ck_agent_skills_repo_id_by_source", ["wittyhub", "clawhub"])]

def mcpServersColumns : List String :=
  ["created_at", "id", "mcp_server_config", "mcp_server_name", "updated_at"]

namespace LegacyTable

variable (table : LegacyTable)

def hasUnique (name : String) (columns : List String) : Bool :=
  table.uniques.any fun unique =>
    unique.1 = some name ∧ columns ⊆ unique.2 ∧ unique.2 ⊆ columns

def hasCheck (name : String) (needles : List String) : Bool :=
  table.checks.any fun check =>
    check.1 = some name ∧ ∀ needle ∈ needles, needle.toList <:+: (check.2.getD "").toList

def missingColumns (t : String) (columns : List String) : List String :=
  (columns.filter (· ∉ table.columns)).map fun col => t ++ "." ++ col

end LegacyTable

namespace LegacyDatabase

variable (db : LegacyDatabase)

/-- What `missing` gets of a table, where it is looked up only if it is there. -/
def ofTable (t : String) (missing : LegacyTable → List String) : List String :=
  ((db.lookup t).map missing).getD []

/-- The objects that are missing. Those of one table come in no certain order. -/
def missing : List String :=
  (requiredTables.filter fun t => (db.lookup t).isNone).map ("table " ++ ·) ++
    requiredColumns.flatMap (fun (t, columns) => match db.lookup t with
      | none => ["table " ++ t]
      | some table => table.missingColumns t columns) ++
    requiredUnique.flatMap (fun (t, name, columns) => db.ofTable t fun table =>
      if table.hasUnique name columns then [] else ["unique " ++ t ++ "." ++ name]) ++
    requiredChecks.flatMap (fun (t, name, needles) => db.ofTable t fun table =>
      if table.hasCheck name needles then [] else ["check " ++ t ++ "." ++ name]) ++
    db.ofTable "mcp_servers" fun table => table.missingColumns "mcp_servers" mcpServersColumns

/-- Whether the database is stamped with head. -/
def isStamped : Bool :=
  (db.lookup "agents").isSome && (db.lookup "alembic_version").isNone && db.missing.isEmpty

def Has (t : String) (columns : List String) : Prop :=
  ∃ table, db.lookup t = some table ∧ columns ⊆ table.columns

/-- A database that is stamped has the tables and columns of head. -/
def StampSound : Prop := db.isStamped = true → ∀ entry ∈ headTables, db.Has entry.1 entry.2

def listed (t : String) : List String :=
  if t = "mcp_servers" then mcpServersColumns else (requiredColumns.lookup t).getD []

/-- The tables of head with the columns that nothing looks for. -/
def leftOut : List (String × List String) :=
  headTables.map fun entry => (entry.1, entry.2.filter (· ∉ listed entry.1))

/-- There is no trace of alembic, and what the list names is there. -/
structure Listed : Prop where
  agents : (db.lookup "agents").isSome = true
  legacy : db.lookup "alembic_version" = none
  tables : ∀ t ∈ requiredTables, db.Has t []
  columns : ∀ entry ∈ requiredColumns, db.Has entry.1 entry.2
  uniques : ∀ entry ∈ requiredUnique, ∀ table ∈ db.lookup entry.1,
    table.hasUnique entry.2.1 entry.2.2 = true
  checks : ∀ entry ∈ requiredChecks, ∀ table ∈ db.lookup entry.1,
    table.hasCheck entry.2.1 entry.2.2 = true
  servers : db.Has "mcp_servers" mcpServersColumns

variable {db}

variable {table : LegacyTable} {t : String} {columns : List String}

theorem missingColumns_eq_nil :
    table.missingColumns t columns = [] ↔ columns ⊆ table.columns := by
  rw [LegacyTable.missingColumns, List.map_eq_nil_iff, List.filter_eq_nil_iff]
  simp only [decide_not, Bool.not_eq_true', decide_eq_false_iff_not, not_not]
  exact Iff.rfl

theorem ofTable_eq_nil {missing : LegacyTable → List String} :
    db.ofTable t missing = [] ↔ ∀ table ∈ db.lookup t, missing table = [] := by
  unfold ofTable
  cases db.lookup t with
  | none => exact iff_of_true rfl nofun
  | some table => simp

theorem has_nil : db.Has t [] ↔ (db.lookup t).isNone = false := by
  rw [Has, Option.isNone_eq_false_iff, Option.isSome_iff_exists]
  simp

theorem Has.mono {columns' : List String} (h : db.Has t columns)
    (hsub : columns' ⊆ columns) : db.Has t columns' := by
  obtain ⟨table, htable, hcolumns⟩ := h
  exact ⟨table, htable, fun col hcol => hcolumns (hsub hcol)⟩

/-- A database is stamped exactly when nothing that the list names is missing. -/
theorem isStamped_iff : db.isStamped = true ↔ db.Listed := by
  have htables : requiredTables.filter (fun t => (db.lookup t).isNone) = [] ↔
      ∀ t ∈ requiredTables, db.Has t [] := by
    rw [List.filter_eq_nil_iff]
    exact forall₂_congr fun t _ => by rw [has_nil, Bool.not_eq_true]
  have hcolumns (entry : String × List String) : (match db.lookup entry.1 with
      | none => ["table " ++ entry.1]
      | some table => table.missingColumns entry.1 entry.2) = [] ↔ db.Has entry.1 entry.2 := by
    unfold Has
    cases db.lookup entry.1 with
    | none => simp
    | some table => simp [missingColumns_eq_nil]
  have hserver (h : db.Has "mcp_servers" []) : (∀ table ∈ db.lookup "mcp_servers",
      table.missingColumns "mcp_servers" mcpServersColumns = []) ↔
        db.Has "mcp_servers" mcpServersColumns := by
    obtain ⟨own, hown, -⟩ := h
    simp [Has, hown, missingColumns_eq_nil]
  simp only [isStamped, Bool.and_eq_true, List.isEmpty_iff, missing, List.append_eq_nil_iff,
    List.map_eq_nil_iff, htables, List.flatMap_eq_nil_iff, hcolumns, ofTable_eq_nil,
    ite_eq_left_iff, reduceCtorEq, imp_false, Bool.not_eq_true, Bool.not_eq_false,
    Option.isNone_iff_eq_none, and_assoc]
  constructor
  · rintro ⟨hagents, hlegacy, htables, hcolumns, huniques, hchecks, hservers⟩
    exact ⟨hagents, hlegacy, htables, hcolumns, huniques, hchecks,
      (hserver (htables _ (by decide))).mp hservers⟩
  · intro h
    exact ⟨h.agents, h.legacy, h.tables, h.columns, h.uniques, h.checks,
      (hserver (h.tables _ (by decide))).mpr h.servers⟩

theorem Listed.listed_subset (h : db.Listed)
    (htable : db.lookup t = some table) : listed t ⊆ table.columns := by
  have hown {columns : List String} (hhas : db.Has t columns) : columns ⊆ table.columns := by
    obtain ⟨own, howntable, hcolumns⟩ := hhas
    rwa [Option.some.inj (htable.symm.trans howntable)]
  by_cases hservers : t = "mcp_servers"
  · rw [listed, if_pos hservers]
    exact hown (hservers ▸ h.servers)
  · rw [listed, if_neg hservers]
    cases hlisted : requiredColumns.lookup t with
    | none => exact List.nil_subset _
    | some columns =>
      obtain ⟨front, back, heq, -⟩ := List.lookup_eq_some_iff.mp hlisted
      exact hown (h.columns (t, columns) (heq ▸ List.mem_append_right front List.mem_cons_self))

/-- Stamping a database is sound exactly where the list refuses it, or where it has by itself what
the list leaves out. -/
theorem stampSound_iff (db : LegacyDatabase) :
    db.StampSound ↔ ¬ db.Listed ∨ ∀ entry ∈ leftOut, db.Has entry.1 entry.2 := by
  rw [StampSound, isStamped_iff, ← imp_iff_not_or]
  refine imp_congr_right fun hlisted => ?_
  rw [leftOut, List.forall_mem_map]
  refine forall₂_congr fun entry _ => ⟨fun h => h.mono List.filter_sublist.subset, fun h => ?_⟩
  obtain ⟨table, htable, hcolumns⟩ := h
  refine ⟨table, htable, fun col hcol => ?_⟩
  by_cases hlooked : col ∈ listed entry.1
  · exact hlisted.listed_subset htable hlooked
  · exact hcolumns (List.mem_filter.mpr ⟨hcol, decide_eq_true hlooked⟩)

/-- All of head but the tables of the scheduled tasks. -/
def withoutScheduledTasks : LegacyDatabase :=
  (headTables.filter fun entry => entry.1 ∉ ["scheduled_tasks", "scheduled_task_runs"]).map
    fun entry => (entry.1, {
      columns := entry.2
      uniques := (requiredUnique.filter (·.1 = entry.1)).map fun unique =>
        (some unique.2.1, unique.2.2)
      checks := (requiredChecks.filter (·.1 = entry.1)).map fun check =>
        (some check.2.1, some "source_type IN ('clawhub', 'wittyhub')") })

/-- A database without the tables of the scheduled tasks is stamped. -/
theorem scheduled_tasks_left_out : ¬ ∀ db : LegacyDatabase, db.StampSound := by
  intro h
  obtain ⟨table, htable, -⟩ := h withoutScheduledTasks (by decide +kernel)
    ("scheduled_tasks", scheduledTasks.columns.map Column.name) (by decide +kernel)
  have hnone : (withoutScheduledTasks.lookup "scheduled_tasks").isNone = true := by decide +kernel
  rw [htable] at hnone
  cases hnone

end LegacyDatabase

end WittyService
