import WittyService.GuardedRuns
import WittyService.SchemaMigration

/-! The tables of the database and the revisions of its schema, oldest first. -/
namespace WittyService

open SchemaMigration

inductive SqlValue where
  | int (n : Int)
  | real (bits : UInt64)
  | text (s : String)
  | blob (bytes : List UInt8)
  deriving DecidableEq

inductive TableName where
  | agents
  | agentLocks
  | agentRuntimeState
  | sessions
  | messages
  | messageEvents
  | skillRepo
  | skills
  | agentSkills
  | models
  | mcpServers
  | scheduledTasks
  | scheduledTaskRuns
  | channelInstances
  | channelProvisionings
  | channelRoutes
  | channelInboundEvents
  | channelDeliveries
  | channelAccessPolicies
  deriving DecidableEq

abbrev SqlRow := Row String SqlValue
abbrev SqlContent := Content TableName String SqlValue
abbrev SqlSchema := Schema TableName String SqlValue
abbrev SqlTable := Table TableName String SqlValue
abbrev SqlColumn := Column String SqlValue
abbrev SqlStatement := Statement TableName String SqlValue

def required (name : String) : SqlColumn := ⟨name, false, .absent⟩
def nullable (name : String) : SqlColumn := ⟨name, true, .absent⟩
def defaulted (name : String) (v : SqlValue) : SqlColumn := ⟨name, false, .literal v⟩
def computed (name : String) (v : SqlValue) : SqlColumn := ⟨name, false, .expression v⟩

def refersTo (column : String) (parent : TableName) (parentColumn : String)
    (onDelete : OnDelete) : ForeignKey TableName String :=
  ⟨column, parent, parentColumn, onDelete⟩

/-- `column IN (...)`; null passes a check. -/
def isIn (column : String) (values : List String) (r : SqlRow) : Bool :=
  match r column with
  | none => true
  | some value => values.any fun text => value = .text text

def isNull (column : String) (r : SqlRow) : Bool := (r column).isNone

def agents : SqlTable where
  columns := [required "id", required "name", defaulted "description" (.text ""),
    required "sandbox_type", required "adapter_type", required "status", nullable "sandbox_id",
    required "workspace_path", required "idle_timeout_seconds",
    computed "has_scheduled_tasks" (.int 0), nullable "last_active_at", required "created_at",
    required "updated_at"]
  keys := [["id"]]
  foreignKeys := []
  checks := []
  singles := []

def agentLocks : SqlTable where
  columns := [required "agent_id", defaulted "lock_version" (.text "0")]
  keys := [["agent_id"]]
  foreignKeys := [refersTo "agent_id" .agents "id" .cascade]
  checks := []
  singles := []

def agentRuntimeState : SqlTable where
  columns := [required "agent_id", required "runtime_payload_json", nullable "adapter_base_url",
    computed "adapter_ready" (.int 0), nullable "last_error"]
  keys := [["agent_id"]]
  foreignKeys := [refersTo "agent_id" .agents "id" .cascade]
  checks := []
  singles := []

def sessions : SqlTable where
  columns := [required "id", required "agent_id", nullable "remote_runtime_agent_id",
    defaulted "status" (.text "idle"), nullable "title", computed "pinned" (.int 0),
    required "created_at", required "updated_at"]
  keys := [["id"]]
  foreignKeys := [refersTo "agent_id" .agents "id" .cascade]
  checks := [⟨"session_status", isIn "status" ["running", "idle", "error"]⟩]
  singles := []

def messages : SqlTable where
  columns := [required "id", required "agent_id", required "session_id", required "role",
    required "content", required "metadata_json", defaulted "status" (.text "completed"),
    nullable "last_stream_at", required "created_at"]
  keys := [["id"]]
  foreignKeys := [refersTo "agent_id" .agents "id" .cascade,
    refersTo "session_id" .sessions "id" .cascade]
  checks := [⟨"message_status",
    isIn "status" ["generating", "completed", "error", "interrupted"]⟩]
  singles := []

def messageEvents : SqlTable where
  columns := [required "id", required "agent_id", required "session_id", nullable "message_id",
    required "event_type", required "payload_json", required "seq_no", required "created_at"]
  keys := [["id"], ["session_id", "seq_no"]]
  foreignKeys := [refersTo "agent_id" .agents "id" .cascade,
    refersTo "message_id" .messages "id" .setNull,
    refersTo "session_id" .sessions "id" .cascade]
  checks := []
  singles := []

def skillRepo : SqlTable where
  columns := [required "repo_id", required "repo_name", required "source_type",
    nullable "branch", nullable "url", nullable "local_path",
    defaulted "skill_discover_status" (.text "init"), defaulted "skill_num" (.text "0"),
    required "created_at", required "updated_at"]
  keys := [["repo_id"]]
  foreignKeys := []
  checks := []
  singles := []

def skills : SqlTable where
  columns := [required "skill_id", nullable "repo_id", required "skill_name",
    nullable "relative_path", required "metadata", nullable "skill_source",
    nullable "skill_md_url", required "created_at", required "updated_at"]
  keys := [["skill_id"], ["repo_id", "relative_path"]]
  foreignKeys := [refersTo "repo_id" .skillRepo "repo_id" .cascade]
  checks := []
  singles := []

def agentSkills : SqlTable where
  columns := [required "agent_id", required "skill_id", required "source_type",
    nullable "repo_id", required "skill_name", required "installed_at"]
  keys := [["agent_id", "skill_id"]]
  foreignKeys := [refersTo "agent_id" .agents "id" .cascade,
    refersTo "repo_id" .skillRepo "repo_id" .setNull]
  checks := [⟨"ck_agent_skills_source_type", isIn "source_type" ["builtin", "git", "local"]⟩,
    ⟨"ck_agent_skills_repo_id_by_source", fun r =>
      isIn "source_type" ["builtin"] r && isNull "repo_id" r ||
        isIn "source_type" ["git", "local"] r && !isNull "repo_id" r⟩]
  singles := []

def models : SqlTable where
  columns := [required "id", required "name", required "provider", required "api_key",
    nullable "api_base_url", computed "enabled" (.int 1), defaulted "max_tokens" (.text "4096"),
    defaulted "temperature" (.text "7"), computed "is_default" (.int 0), required "created_at",
    required "updated_at"]
  keys := [["id"]]
  foreignKeys := []
  checks := []
  singles := []

def mcpServers : SqlTable where
  columns := [required "id", required "mcp_server_name", required "mcp_server_config",
    required "created_at", required "updated_at"]
  keys := [["id"]]
  foreignKeys := []
  checks := []
  singles := []

def scheduledTasks : SqlTable where
  columns := [required "id", required "name", required "schedule_type", nullable "cron_expr",
    nullable "interval_seconds", required "timezone", required "content", required "agent_id",
    nullable "workspace_folder", computed "enabled" (.int 1), required "created_at",
    required "updated_at"]
  keys := [["id"]]
  foreignKeys := [refersTo "agent_id" .agents "id" .cascade]
  checks := [⟨"ck_scheduled_tasks_schedule_type", isIn "schedule_type" ["cron", "interval"]⟩,
    ⟨"ck_scheduled_tasks_schedule_fields", fun r =>
      isIn "schedule_type" ["cron"] r && !isNull "cron_expr" r && isNull "interval_seconds" r ||
        isIn "schedule_type" ["interval"] r && !isNull "interval_seconds" r &&
          isNull "cron_expr" r⟩]
  singles := []

def scheduledTaskRuns : SqlTable where
  columns := [required "id", required "task_id", nullable "session_id",
    defaulted "status" (.text "pending"), nullable "error", nullable "started_at",
    nullable "finished_at", required "created_at"]
  keys := [["id"]]
  foreignKeys := [refersTo "task_id" .scheduledTasks "id" .cascade]
  checks := [⟨"ck_scheduled_task_runs_status",
    isIn "status" ["pending", "running", "succeeded", "failed", "skipped"]⟩]
  singles := []

def channelInstances : SqlTable where
  columns := [required "id", required "channel", nullable "display_name", nullable "owner_ref",
    nullable "agent_id", defaulted "status" (.text "pending"), computed "generation" (.int 1),
    required "config", nullable "credential_ciphertext", nullable "credential_mask",
    required "created_at", required "updated_at"]
  keys := [["id"]]
  foreignKeys := []
  checks := []
  singles := []

def channelProvisionings : SqlTable where
  columns := [required "id", required "channel", nullable "owner_ref", nullable "agent_id",
    defaulted "status" (.text "waiting"), nullable "qr_content", required "poll_interval_ms",
    required "expires_at", nullable "state_ciphertext", nullable "error_code",
    required "created_at", required "updated_at"]
  keys := [["id"]]
  foreignKeys := []
  checks := []
  singles := []

def channelRoutes : SqlTable where
  columns := [required "id", required "channel_instance_id", required "conversation_type",
    required "platform_user_id", nullable "active_session_id", nullable "active_placeholder_ref",
    required "created_at", required "updated_at"]
  keys := [["id"], ["channel_instance_id", "conversation_type", "platform_user_id"]]
  foreignKeys := [refersTo "channel_instance_id" .channelInstances "id" .cascade]
  checks := []
  singles := []

def channelInboundEvents : SqlTable where
  columns := [required "id", required "channel_instance_id", required "platform_event_id",
    required "received_at"]
  keys := [["id"], ["channel_instance_id", "platform_event_id"]]
  foreignKeys := []
  checks := []
  singles := []

def channelDeliveries : SqlTable where
  columns := [required "id", required "channel_instance_id", nullable "route_id",
    nullable "session_id", nullable "turn_id", required "certainty", required "segment_index",
    nullable "platform_message_ref", nullable "error_code", required "created_at"]
  keys := [["id"]]
  foreignKeys := []
  checks := []
  singles := []

def channelAccessPolicies : SqlTable where
  columns := [required "id", required "channel_instance_id", required "conversation_type",
    defaulted "mode" (.text "open"), required "allowlist", computed "allow_commands" (.int 1),
    required "updated_at"]
  keys := [["id"], ["channel_instance_id", "conversation_type"]]
  foreignKeys := [refersTo "channel_instance_id" .channelInstances "id" .cascade]
  checks := []
  singles := []

inductive Revision where
  | initAgentdSchema
  | addSessionRuntimeIdentityColumns
  | addCompatibilityColumn
  | updateAgentSkillsWittyhubConstraints
  | addScheduledTasks
  | scheduledRunFkAndCleanup
  | addModelsSingleDefaultIndex
  | addChannelTables
  | channelCredentialStore
  deriving DecidableEq

namespace Revision

def danglingSession (c : SqlContent) (r : SqlRow) : Bool :=
  (r "session_id").isSome && !(c .sessions).any fun p => p "id" = r "session_id"

def upgrade : Revision → List SqlStatement
  | initAgentdSchema =>
    [.createTable .agents agents, .createTable .agentLocks agentLocks,
      .createTable .agentRuntimeState agentRuntimeState, .createTable .sessions sessions,
      .createIndex .sessions ["agent_id"],
      .createTable .messages messages, .createIndex .messages ["agent_id"],
      .createIndex .messages ["session_id"], .createIndex .messages ["session_id", "created_at"],
      .createIndex .messages ["session_id", "status"],
      .createTable .messageEvents messageEvents, .createIndex .messageEvents ["agent_id"],
      .createIndex .messageEvents ["message_id"], .createIndex .messageEvents ["session_id"],
      .createIndex .messageEvents ["message_id", "seq_no"],
      .createTable .skillRepo skillRepo, .createTable .skills skills,
      .createIndex .skills ["repo_id"], .createTable .agentSkills agentSkills,
      .createTable .models models]
  | addSessionRuntimeIdentityColumns =>
    [.batchAlterTable .sessions false
      [.addColumn (nullable "runtime_type") none, .addColumn (nullable "runtime_session_id") none,
        .addColumn (nullable "runtime_session_key") none,
        .createUniqueConstraint ["runtime_type", "runtime_session_key"],
        .createUniqueConstraint ["runtime_type", "runtime_session_id"]]]
  | addCompatibilityColumn => [.addColumn .models (nullable "compatibility")]
  | updateAgentSkillsWittyhubConstraints =>
    [.batchAlterTable .agents false
      [.addColumn (nullable "model_id") none,
        .addColumn (computed "mcp_server_list" (.text "[]")) none],
    .createTable .mcpServers mcpServers,
    .batchAlterTable .agentSkills false
      [.addColumn (nullable "relative_path") none, .addColumn (nullable "metadata") none,
        .addColumn (nullable "skill_source") none, .addColumn (nullable "skill_md_url") none,
        .dropConstraint "ck_agent_skills_source_type",
        .dropConstraint "ck_agent_skills_repo_id_by_source",
        .createCheckConstraint ⟨"ck_agent_skills_source_type",
          isIn "source_type" ["builtin", "git", "local", "clawhub", "wittyhub"]⟩,
        .createCheckConstraint ⟨"ck_agent_skills_repo_id_by_source", fun r =>
          isIn "source_type" ["git", "local", "clawhub"] r && !isNull "repo_id" r ||
            isIn "source_type" ["builtin", "wittyhub"] r && isNull "repo_id" r⟩]]
  | addScheduledTasks =>
    [.createTable .scheduledTasks scheduledTasks, .createIndex .scheduledTasks ["agent_id"],
      .createTable .scheduledTaskRuns scheduledTaskRuns,
      .createIndex .scheduledTaskRuns ["task_id"],
      .createIndex .scheduledTaskRuns ["task_id", "created_at"],
      .batchAlterTable .sessions false
        [.addColumn (nullable "scheduled_task_id")
          (some (refersTo "scheduled_task_id" .scheduledTasks "id" .cascade)),
          .createIndex ["scheduled_task_id"]]]
  | scheduledRunFkAndCleanup =>
    [.update .scheduledTaskRuns "status" (some (.text "running"))
        (fun _ r => r "status" = some (.text "pending")),
      .update .scheduledTaskRuns "session_id" none danglingSession,
      .batchAlterTable .scheduledTaskRuns true
        [.dropConstraint "ck_scheduled_task_runs_status",
          .createCheckConstraint ⟨"ck_scheduled_task_runs_status",
            isIn "status" ["running", "succeeded", "failed", "skipped"]⟩,
          .alterDefault "status" .absent,
          .createForeignKey (refersTo "session_id" .sessions "id" .cascade),
          .createIndex ["session_id"]],
      .createIndex .scheduledTaskRuns ["created_at"],
      .dropColumn .agents "has_scheduled_tasks"]
  | addModelsSingleDefaultIndex => [.createSingleIndex .models "is_default" (.int 1)]
  | addChannelTables =>
    [.addColumn .sessions ⟨"origin", true, .literal (.text "web")⟩,
      .createTable .channelInstances channelInstances,
      .createIndex .channelInstances ["owner_ref"], .createIndex .channelInstances ["status"],
      .createTable .channelProvisionings channelProvisionings,
      .createIndex .channelProvisionings ["status", "expires_at"],
      .createTable .channelRoutes channelRoutes,
      .createIndex .channelRoutes ["channel_instance_id"],
      .createTable .channelInboundEvents channelInboundEvents,
      .createIndex .channelInboundEvents ["received_at"],
      .createTable .channelDeliveries channelDeliveries,
      .createIndex .channelDeliveries ["created_at"],
      .createTable .channelAccessPolicies channelAccessPolicies,
      .createIndex .channelAccessPolicies ["channel_instance_id"]]
  | channelCredentialStore =>
    [.update .channelInstances "status" (some (.text "error"))
        (fun _ r => (r "credential_ciphertext").isSome),
      .addColumn .channelInstances (nullable "credential_ref"),
      .dropColumn .channelInstances "credential_ciphertext",
      .addColumn .channelProvisionings (nullable "state_ref"),
      .dropColumn .channelProvisionings "state_ciphertext"]

/-- The revisions by `down_revision`, from the first to head. -/
def chain : List Revision :=
  [initAgentdSchema, addSessionRuntimeIdentityColumns, addCompatibilityColumn,
    updateAgentSkillsWittyhubConstraints, addScheduledTasks, scheduledRunFkAndCleanup,
    addModelsSingleDefaultIndex, addChannelTables, channelCredentialStore]

def pending (rev : Revision) : List SqlStatement :=
  ((chain.dropWhile (· ≠ rev)).drop 1).flatMap upgrade

def schema (rev : Revision) : SqlSchema :=
  ((chain.takeWhile (· ≠ rev)).flatMap upgrade ++ upgrade rev).foldl Statement.alter []

/-- `alembic upgrade head` on a database at this revision. -/
def upgradeToHead (rev : Revision) (c : SqlContent) : Option (SqlSchema × SqlContent) :=
  GuardedRuns.run Statement.step (rev.schema, c) rev.pending

end Revision

end WittyService
