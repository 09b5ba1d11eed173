import WittyService.MigrationRules
import WittyService.Migrations

/-! What upgrading to head leaves of the rows of a database. -/
namespace WittyService

open SchemaMigration GuardedRuns Revision

/-- The value after the upgrade: the same, or one of the three changes meant by it. -/
def Kept (c : SqlContent) (t : TableName) (r r' : SqlRow) (col : String) : Prop :=
  r' col = r col ∨
    (t = .scheduledTaskRuns ∧ col = "status" ∧ r col = some (.text "pending") ∧
      r' col = some (.text "running")) ∨
    (t = .scheduledTaskRuns ∧ col = "session_id" ∧ danglingSession c r = true ∧
      r' col = none) ∨
    (t = .channelInstances ∧ col = "status" ∧ (r "credential_ciphertext").isSome = true)

/-- Every row of every table is still there, with its values in the columns of both schemas. -/
def Preserved (rev : Revision) (c : SqlContent) (d : SqlSchema × SqlContent) : Prop :=
  ∀ t table, rev.schema.lookup t = some table → ∃ table', d.1.lookup t = some table' ∧
    ∀ r ∈ c t, ∃ r' ∈ d.2 t, ∀ col ∈ table.columns.map Column.name,
      col ∈ table'.columns.map Column.name → Kept c t r r' col

def Revision.emptied : Revision → List TableName
  | .initAgentdSchema | .addSessionRuntimeIdentityColumns | .addCompatibilityColumn =>
    [.agentLocks, .agentRuntimeState, .sessions, .messages, .messageEvents, .agentSkills]
  | .updateAgentSkillsWittyhubConstraints => [.messages, .messageEvents]
  | _ => []

def SingleDefault (c : SqlContent) : Prop := Single "is_default" (.int 1) (c .models)

/-- No row is in a table that a later revision empties, and at most one model is the default. -/
structure Survives (rev : Revision) (c : SqlContent) : Prop where
  empty : ∀ t ∈ rev.emptied, c t = []
  single : SingleDefault c

def Ready (c : SqlContent) : Revision → Prop
  | .initAgentdSchema | .addSessionRuntimeIdentityColumns | .addCompatibilityColumn =>
    agents.Admits c (c .agents)
  | .updateAgentSkillsWittyhubConstraints => ∀ table,
    updateAgentSkillsWittyhubConstraints.schema.lookup .sessions = some table →
      table.Admits c (c .sessions)
  | .addScheduledTasks => scheduledTaskRuns.Admits c (c .scheduledTaskRuns)
  | .addChannelTables => channelInstances.Admits c (c .channelInstances)
  | _ => True

structure Prepared (rev : Revision) (c : SqlContent) : Prop extends Survives rev c where
  ready : Ready c rev

variable {c : SqlContent} {col : String} {rev next : Revision} {d d' : SqlSchema × SqlContent}

theorem childless_of_nil {s : SqlSchema} {t : TableName}
    (children : List TableName) (hs : childrenOf s t = children)
    (h : ∀ child ∈ children, c child = []) : Childless s c t := by
  intro child hmem
  rw [hs] at hmem
  exact h child hmem

theorem single_map {v : SqlValue} {rows : List SqlRow} {f : SqlRow → SqlRow}
    (hf : ∀ r, f r col = r col) : Single col v (rows.map f) ↔ Single col v rows := by
  simp only [Single, List.pairwise_map, hf]

/-- From a database ready for the next revision that revision runs without a loss, and
leaves one that is ready for the revision after it. -/
def Advances (rev next : Revision) : Prop :=
  ∀ c, Prepared rev c → ∃ c', GentleRun (rev.schema, c) next.upgrade (next.schema, c') ∧
    Prepared next c'

theorem advances_of_run (hempty : ∀ t ∈ next.emptied, t ∈ rev.emptied)
    (hmodels : ∀ st ∈ next.upgrade,
      st.creates .models = false ∧ st.keeps .models "is_default" = true)
    (h : ∀ c, Prepared rev c → ∃ c', GentleRun (rev.schema, c) next.upgrade (next.schema, c') ∧
      Ready c' next) : Advances rev next := by
  intro c hc
  obtain ⟨c', hrun, hready⟩ := h c hc
  refine ⟨c', hrun, ⟨⟨fun t ht => ?_, ?_⟩, hready⟩⟩
  · exact run_empty hrun.run (hc.empty t (hempty t ht))
  · obtain ⟨f, hmap, hf⟩ := hrun.rows fun st hst => (hmodels st hst).1
    have hsame : ∀ r, f r "is_default" = r "is_default" :=
      fun r => hf r _ fun st hst => (hmodels st hst).2
    have hrows : c' .models = (c .models).map f := hmap
    rw [SingleDefault, hrows, single_map hsame]
    exact hc.single

theorem advances_addSessionRuntimeIdentityColumns :
    Advances .initAgentdSchema .addSessionRuntimeIdentityColumns := by
  refine advances_of_run (by decide) (by decide) fun c h => ?_
  have hsessions : c .sessions = [] := h.empty _ (by decide)
  have hchildless : Childless initAgentdSchema.schema c .sessions :=
    childless_of_nil [.messages, .messageEvents] rfl fun child hchild =>
      h.empty child (by revert child; decide)
  refine ⟨_, .cons (step_batchAlterTable sessions rfl rfl hchildless ?_) hchildless
    (.nil _), ?_⟩
  · exact admits_of_nil hsessions
  · exact admits_congr (fun fk hfk => absurd hfk List.not_mem_nil) h.ready

theorem advances_addCompatibilityColumn :
    Advances .addSessionRuntimeIdentityColumns .addCompatibilityColumn := by
  refine advances_of_run (by decide) (by decide) fun c h => ?_
  refine ⟨_, .cons rfl trivial (.nil _), ?_⟩
  exact admits_congr (fun fk hfk => absurd hfk List.not_mem_nil) h.ready

theorem advances_updateAgentSkillsWittyhubConstraints :
    Advances .addCompatibilityColumn .updateAgentSkillsWittyhubConstraints := by
  refine advances_of_run (by decide) (by decide) fun c h => ?_
  have hchildless : Childless addCompatibilityColumn.schema c .agents :=
    childless_of_nil addCompatibilityColumn.emptied rfl h.empty
  have hsessions : c .sessions = [] := h.empty _ (by decide)
  have hskills : c .agentSkills = [] := h.empty _ (by decide)
  refine ⟨_, .cons (step_batchAlterTable agents rfl rfl hchildless ?_) hchildless
    (.cons rfl trivial (.cons (step_batchAlterTable agentSkills rfl rfl ?_ ?_) ?_ (.nil _))), ?_⟩
  · refine admits_map h.ready (fun r _ hr => ?_) rfl rfl ?_
    · exact admitsRow_addColumn (admitsRow_addColumn hr (by decide) (by simp [agents]))
        (by decide) (by simp [agents, BatchOp.alter])
    · intro key hkey col hcol r
      rw [List.mem_singleton.mp hkey] at hcol
      rw [List.mem_singleton.mp hcol]
      rfl
  · exact childless_of_nil [] rfl fun child hchild => absurd hchild List.not_mem_nil
  · exact admits_of_nil (c := Function.update _ TableName.mcpServers []) hskills
  · exact childless_of_nil [] rfl fun child hchild => absurd hchild List.not_mem_nil
  · intro table _
    show table.Admits _ (c .sessions)
    rw [hsessions]
    exact admits_nil _ _

theorem create_scheduled_tables (c : SqlContent) : ∃ c₁,
    GentleRun (updateAgentSkillsWittyhubConstraints.schema, c) (addScheduledTasks.upgrade.take 5)
      ((addScheduledTasks.upgrade.take 5).foldl Statement.alter
        updateAgentSkillsWittyhubConstraints.schema, c₁) ∧
    (∀ t, t ≠ .scheduledTasks → t ≠ .scheduledTaskRuns → c₁ t = c t) ∧
    c₁ .scheduledTaskRuns = [] := by
  refine ⟨Function.update (Function.update c .scheduledTasks []) .scheduledTaskRuns [],
    .cons rfl trivial (.cons rfl trivial (.cons rfl trivial (.cons rfl trivial
    (.cons rfl trivial (.nil _))))), fun t htasks hruns => ?_, Function.update_self ..⟩
  exact (Function.update_of_ne hruns _ _).trans (Function.update_of_ne htasks _ _)

theorem advances_addScheduledTasks :
    Advances .updateAgentSkillsWittyhubConstraints .addScheduledTasks := by
  refine advances_of_run (by decide) (by decide) fun c h => ?_
  obtain ⟨c₁, hcreate, hsame, hruns⟩ := create_scheduled_tables c
  have hsessions := h.ready _ rfl
  rw [← hsame .sessions (by decide) (by decide)] at hsessions
  have hchildless : Childless ((addScheduledTasks.upgrade.take 5).foldl Statement.alter
      updateAgentSkillsWittyhubConstraints.schema) c₁ .sessions := by
    refine childless_of_nil [.messages, .messageEvents] rfl fun child hchild => ?_
    rw [hsame child (by revert child; decide) (by revert child; decide)]
    exact h.empty child hchild
  refine ⟨_, hcreate.append (.cons (step_batchAlterTable _ rfl rfl hchildless ?_) hchildless
    (.nil _)), ?_⟩
  · refine admits_map hsessions (fun r _ hr => ?_) rfl rfl ?_
    · refine admitsRow_addColumn (admitsRow_congr ?_ hr) (by decide) ?_
      · intro fk hfk
        rw [List.mem_singleton.mp hfk]
        exact hsame .agents (by decide) (by decide)
      · intro check hcheck
        rw [List.mem_singleton.mp hcheck]
        rfl
    · intro key hkey col hcol r
      exact fill_all_keeps (by revert col key; decide) r
  · show scheduledTaskRuns.Admits _ (c₁ .scheduledTaskRuns)
    rw [hruns]
    exact admits_nil _ _

/-! The runs lose the status `pending` and their dangling sessions. -/

def runPending : SqlRow → SqlRow :=
  assign (fun r => r "status" = some (.text "pending")) "status" (some (.text "running"))

def detach (c : SqlContent) : SqlRow → SqlRow := assign (danglingSession c) "session_id" none

theorem runs_may_run : scheduledTaskRuns.mayHold "status" (some (.text "running")) := by
  refine ⟨fun _ _ _ _ => Option.some_ne_none _, by decide, ?_, by decide, rfl⟩
  intro check hcheck r _
  rw [List.mem_singleton.mp hcheck]
  rfl

theorem runs_may_detach : scheduledTaskRuns.mayHold "session_id" none := by
  refine ⟨by decide, by decide, ?_, by decide, rfl⟩
  intro check hcheck r hholds
  rw [List.mem_singleton.mp hcheck] at hholds ⊢
  exact hholds

theorem clean_runs (h : scheduledTaskRuns.Admits c (c .scheduledTaskRuns)) :
    ∃ c₂, GentleRun (addScheduledTasks.schema, c) (scheduledRunFkAndCleanup.upgrade.take 2)
      (addScheduledTasks.schema, c₂) ∧
    c₂ .scheduledTaskRuns = (c .scheduledTaskRuns).map (detach c ∘ runPending) ∧
    ∀ t, t ≠ .scheduledTaskRuns → c₂ t = c t := by
  have hrunning : scheduledTaskRuns.Admits c ((c .scheduledTaskRuns).map runPending) :=
    admits_assign runs_may_run h
  refine ⟨_, .cons (step_update scheduledTaskRuns rfl hrunning) trivial
    (.cons (step_update scheduledTaskRuns rfl ?_) trivial (.nil _)), ?_, fun t ht => ?_⟩
  · refine admits_assign runs_may_detach (admits_congr ?_ hrunning)
    intro fk hfk
    rw [List.mem_singleton.mp hfk]
    rfl
  · rw [← List.map_map]
    rfl
  · exact (Function.update_of_ne ht _ _).trans (Function.update_of_ne ht _ _)

section

variable (c : SqlContent) (r : SqlRow)

theorem cleaned_status : detach c (runPending r) "status" =
    if r "status" = some (.text "pending") then some (.text "running") else r "status" := by
  have hother : detach c (runPending r) "status" = runPending r "status" :=
    assign_other _ _ _ (by decide)
  rw [hother, runPending, assign_self]
  simp

theorem cleaned_session : detach c (runPending r) "session_id" =
    if danglingSession c r then none else r "session_id" := by
  have hother : runPending r "session_id" = r "session_id" := assign_other _ _ _ (by decide)
  have hdangling : danglingSession c (runPending r) = danglingSession c r := by
    simp only [danglingSession, hother]
  rw [detach, assign_self, hdangling, hother]

theorem cleaned_other {col : String} (hstatus : col ≠ "status")
    (hsession : col ≠ "session_id") : detach c (runPending r) col = r col :=
  (assign_other _ _ _ hsession).trans (assign_other _ _ _ hstatus)

end

/-- The recreated table takes the cleaned runs: the status is one of the four that are left,
and the session is there or null. -/
theorem admitsRow_cleaned {c₂ : SqlContent} {r : SqlRow}
    (hsame : ∀ t, t ≠ .scheduledTaskRuns → c₂ t = c t)
    (hr : scheduledTaskRuns.AdmitsRow c r) {table : SqlTable}
    (htable : scheduledRunFkAndCleanup.schema.lookup .scheduledTaskRuns = some table) :
    table.AdmitsRow c₂ (detach c (runPending r)) := by
  obtain ⟨hnull, hrefers, hchecks⟩ := hr
  have hforeign : table.foreignKeys = [refersTo "task_id" .scheduledTasks "id" .cascade,
      refersTo "session_id" .sessions "id" .cascade] := by
    cases htable
    rfl
  have hcolumns : ∀ column ∈ table.columns, column.nullable = false →
      column.name ≠ "session_id" ∧ ∃ column' ∈ scheduledTaskRuns.columns,
        column'.name = column.name ∧ column'.nullable = false := by
    cases htable
    decide
  have hchecked : table.checks = [⟨"ck_scheduled_task_runs_status",
      isIn "status" ["running", "succeeded", "failed", "skipped"]⟩] := by
    cases htable
    rfl
  refine ⟨fun column hmem hrequired => ?_, fun fk hfk => ?_, fun check hmem => ?_⟩
  · -- only session_id is emptied, and it is nullable in the new table
    obtain ⟨hsession, column', hmem', hname, hrequired'⟩ := hcolumns column hmem hrequired
    have hvalue : r column.name ≠ none := hname ▸ hnull column' hmem' hrequired'
    by_cases hstatus : column.name = "status"
    · rw [hstatus] at hvalue ⊢
      rw [cleaned_status]
      split_ifs
      · exact Option.some_ne_none _
      · exact hvalue
    · rw [cleaned_other c r hstatus hsession]
      exact hvalue
  · rw [hforeign] at hfk
    obtain rfl | hfk := List.mem_cons.mp hfk
    · have htask := hrefers _ List.mem_cons_self
      rw [Refers, cleaned_other c r (by decide) (by decide), hsame _ (by decide)]
      exact htask
    · rw [List.mem_singleton.mp hfk]
      -- the added key on sessions: a dangling session_id was emptied by the UPDATE
      show detach c (runPending r) "session_id" = none ∨
        ∃ p ∈ c₂ .sessions, p "id" = detach c (runPending r) "session_id"
      rw [cleaned_session, hsame _ (by decide)]
      split_ifs with hdangling
      · exact .inl rfl
      · simp only [danglingSession, Bool.and_eq_true, Bool.not_eq_true', not_and,
          Bool.not_eq_false, List.any_eq_true, decide_eq_true_eq] at hdangling
        cases hid : r "session_id" with
        | none => exact .inl rfl
        | some id => exact .inr (hid ▸ hdangling (by rw [hid]; rfl))
  · rw [hchecked] at hmem
    rw [List.mem_singleton.mp hmem]
    have hold := hchecks _ List.mem_cons_self
    simp only [isIn, cleaned_status] at hold ⊢
    -- the new check drops 'pending', the one status the UPDATE rewrites
    split_ifs with hpending
    · rfl
    · cases hstatus : r "status" with
      | none => rfl
      | some status =>
        have hne : status ≠ .text "pending" := fun heq => hpending (by rw [hstatus, heq])
        simp only [hstatus, List.any_cons, hne, decide_false, Bool.false_or] at hold
        exact hold

theorem advances_scheduledRunFkAndCleanup :
    Advances .addScheduledTasks .scheduledRunFkAndCleanup := by
  refine advances_of_run (by decide) (by decide) fun c h => ?_
  obtain ⟨c₂, hclean, hruns, hsame⟩ := clean_runs h.ready
  have hchildless : Childless addScheduledTasks.schema c₂ .scheduledTaskRuns :=
    childless_of_nil [] rfl fun child hchild => absurd hchild List.not_mem_nil
  refine ⟨_, hclean.append (.cons (step_batchAlterTable scheduledTaskRuns rfl rfl hchildless ?_)
    hchildless (.cons rfl trivial (.cons rfl trivial (.nil _)))), trivial⟩
  rw [hruns, List.map_map]
  refine admits_map h.ready (fun r _ hr => admitsRow_cleaned hsame hr rfl) rfl rfl ?_
  intro key hkey col hcol r
  rw [List.mem_singleton.mp hkey] at hcol
  rw [List.mem_singleton.mp hcol]
  exact cleaned_other c r (by decide) (by decide)

theorem advances_addModelsSingleDefaultIndex :
    Advances .scheduledRunFkAndCleanup .addModelsSingleDefaultIndex := by
  refine advances_of_run (by decide) (by decide) fun c h => ?_
  refine ⟨_, .cons (step_createSingleIndex h.single) trivial (.nil _), trivial⟩

theorem advances_addChannelTables :
    Advances .addModelsSingleDefaultIndex .addChannelTables := by
  refine advances_of_run (by decide) (by decide) fun c _ => ?_
  refine ⟨_, .cons rfl trivial (.cons rfl trivial (.cons rfl trivial (.cons rfl trivial
    (.cons rfl trivial (.cons rfl trivial (.cons rfl trivial (.cons rfl trivial
    (.cons rfl trivial (.cons rfl trivial (.cons rfl trivial (.cons rfl trivial
    (.cons rfl trivial (.cons rfl trivial (.nil _)))))))))))))), ?_⟩
  exact admits_nil _ _

theorem instances_may_fail : channelInstances.mayHold "status" (some (.text "error")) := by
  refine ⟨fun _ _ _ _ => Option.some_ne_none _, by decide, ?_, by decide, rfl⟩
  exact fun check hcheck => absurd hcheck List.not_mem_nil

theorem advances_channelCredentialStore :
    Advances .addChannelTables .channelCredentialStore := by
  refine advances_of_run (by decide) (by decide) fun c h => ?_
  exact ⟨_, .cons (step_update channelInstances rfl (admits_assign instances_may_fail h.ready))
    trivial (.cons rfl trivial (.cons rfl trivial (.cons rfl trivial (.cons rfl trivial
    (.nil _))))), trivial⟩

def UpgradesGently (rev : Revision) : Prop :=
  ∀ c, Prepared rev c → ∃ d, GentleRun (rev.schema, c) rev.pending d

theorem upgrades_gently_of_next (h : Advances rev next)
    (hpending : rev.pending = next.upgrade ++ next.pending) (hnext : UpgradesGently next) :
    UpgradesGently rev := by
  intro c hc
  obtain ⟨c', hrun, hc'⟩ := h c hc
  obtain ⟨d, hrest⟩ := hnext c' hc'
  exact ⟨d, hpending ▸ hrun.append hrest⟩

theorem upgrades_gently (rev : Revision) : UpgradesGently rev := by
  have hstore : UpgradesGently .channelCredentialStore := fun c _ => ⟨_, .nil _⟩
  have hchannels := upgrades_gently_of_next advances_channelCredentialStore rfl hstore
  have hindex := upgrades_gently_of_next advances_addChannelTables rfl hchannels
  have hcleanup := upgrades_gently_of_next advances_addModelsSingleDefaultIndex rfl hindex
  have htasks := upgrades_gently_of_next advances_scheduledRunFkAndCleanup rfl hcleanup
  have hskills := upgrades_gently_of_next advances_addScheduledTasks rfl htasks
  have hcompat :=
    upgrades_gently_of_next advances_updateAgentSkillsWittyhubConstraints rfl hskills
  have hidentity := upgrades_gently_of_next advances_addCompatibilityColumn rfl hcompat
  have hinit := upgrades_gently_of_next advances_addSessionRuntimeIdentityColumns rfl hidentity
  cases rev <;> assumption

theorem statements_split (rev : Revision) :
    (chain.takeWhile (· ≠ rev)).flatMap upgrade ++ upgrade rev ++ rev.pending =
      chain.flatMap upgrade := by
  cases rev <;> simp [chain, pending]

theorem head_schema (h : rev.upgradeToHead c = some d) : d.1 = channelCredentialStore.schema := by
  have hhead := statements_split channelCredentialStore
  rw [show channelCredentialStore.pending = [] from rfl, List.append_nil] at hhead
  rw [run_schema h]
  simp only [schema]
  rw [← List.foldl_append, statements_split, hhead]

theorem prepared_of_valid (hvalid : Valid rev.schema c) (h : Survives rev c) : Prepared rev c := by
  refine ⟨h, ?_⟩
  cases rev with
  | initAgentdSchema | addSessionRuntimeIdentityColumns | addCompatibilityColumn =>
    exact hvalid.admitted .agents _ rfl
  | updateAgentSkillsWittyhubConstraints => exact hvalid.admitted .sessions
  | addScheduledTasks => exact hvalid.admitted .scheduledTaskRuns _ rfl
  | addChannelTables => exact hvalid.admitted .channelInstances _ rfl
  | _ => trivial

def Revision.rewrites (rev : Revision) (t : TableName) (col : String) : Bool :=
  (rev == .addScheduledTasks && t == .scheduledTaskRuns && (col == "status" || col == "session_id"))
    || (rev == .addChannelTables && t == .channelInstances && col == "status")

/-- No later statement creates an old table again, or writes a column of it that head has
too, beside the ones above. -/
def Revision.keepsOldColumns (rev : Revision) : Bool :=
  rev.schema.all fun entry =>
    (rev.pending.all fun st => !st.creates entry.1) &&
    (channelCredentialStore.schema.lookup entry.1).any fun table' =>
      entry.2.columns.all fun column =>
        decide (column.name ∉ table'.columns.map Column.name) ||
          rev.rewrites entry.1 column.name ||
          rev.pending.all fun st => st.keeps entry.1 column.name

theorem keeps_old_columns (rev : Revision) : rev.keepsOldColumns = true := by
  cases rev <;> decide +kernel

theorem kept_rows (t : TableName) (columns : List String)
    {sts : List SqlStatement} (h : GentleRun d sts d')
    (hcreates : (sts.all fun st => !st.creates t) = true)
    (hkeeps : (columns.all fun col => sts.all fun st => st.keeps t col) = true) :
    ∀ r ∈ d.2 t, ∃ r' ∈ d'.2 t, ∀ col ∈ columns, r' col = r col := by
  rw [List.all_eq_true] at hcreates hkeeps
  obtain ⟨f, hmap, hf⟩ := h.rows fun st hst => by simpa using hcreates st hst
  intro r hr
  refine ⟨f r, hmap ▸ List.mem_map_of_mem hr, fun col hcol => hf r col ?_⟩
  exact List.all_eq_true.mp (hkeeps col hcol)

theorem preserved_runs (h : GentleRun (addScheduledTasks.schema, c) addScheduledTasks.pending d)
    (hruns : scheduledTaskRuns.Admits c (c .scheduledTaskRuns)) :
    ∀ r ∈ c .scheduledTaskRuns, ∃ r' ∈ d.2 .scheduledTaskRuns,
      ∀ col ∈ scheduledTaskRuns.columns.map Column.name, Kept c .scheduledTaskRuns r r' col := by
  obtain ⟨c₂, hclean, hrows, -⟩ := clean_runs hruns
  have hsplit : GentleRun (addScheduledTasks.schema, c)
      (scheduledRunFkAndCleanup.upgrade.take 2 ++ addScheduledTasks.pending.drop 2) d := h
  intro r hr
  have hmem : detach c (runPending r) ∈ c₂ .scheduledTaskRuns :=
    hrows ▸ List.mem_map_of_mem hr
  obtain ⟨r', hr', hsame⟩ := kept_rows .scheduledTaskRuns
    (scheduledTaskRuns.columns.map Column.name) (hsplit.of_append hclean) (by decide) (by decide)
    _ hmem
  refine ⟨r', hr', fun col hcol => ?_⟩
  rw [Kept, hsame col hcol]
  by_cases hstatus : col = "status"
  · subst hstatus
    rw [cleaned_status]
    split_ifs with hpending
    · exact .inr (.inl ⟨rfl, rfl, hpending, rfl⟩)
    · exact .inl rfl
  by_cases hsession : col = "session_id"
  · subst hsession
    rw [cleaned_session]
    split_ifs with hdangling
    · exact .inr (.inr (.inl ⟨rfl, rfl, hdangling, rfl⟩))
    · exact .inl rfl
  · exact .inl (cleaned_other c r hstatus hsession)

theorem preserved_instances (h : GentleRun (addChannelTables.schema, c) addChannelTables.pending d)
    (hinstances : channelInstances.Admits c (c .channelInstances)) {head : List String}
    (hhead : "credential_ciphertext" ∉ head) :
    ∀ r ∈ c .channelInstances, ∃ r' ∈ d.2 .channelInstances,
      ∀ col ∈ channelInstances.columns.map Column.name, col ∈ head →
        Kept c .channelInstances r r' col := by
  have hfailed : GentleRun (addChannelTables.schema, c) (addChannelTables.pending.take 1) _ :=
    .cons (step_update channelInstances rfl (admits_assign instances_may_fail hinstances))
      trivial (.nil _)
  have hsplit : GentleRun (addChannelTables.schema, c)
      (addChannelTables.pending.take 1 ++ addChannelTables.pending.drop 1) d := h
  intro r hr
  obtain ⟨r', hr', hsame⟩ := kept_rows .channelInstances
    ((channelInstances.columns.map Column.name).filter (· ≠ "credential_ciphertext"))
    (hsplit.of_append hfailed) (by decide) (by decide) _ (List.mem_map_of_mem hr)
  refine ⟨r', hr', fun col hcol hkept => ?_⟩
  have hcipher : col ≠ "credential_ciphertext" := fun heq => hhead (heq ▸ hkept)
  rw [Kept, hsame col (List.mem_filter.mpr ⟨hcol, decide_eq_true hcipher⟩)]
  by_cases hstatus : col = "status"
  · subst hstatus
    rw [assign_self]
    split_ifs with hheld
    · exact .inr (.inr (.inr ⟨rfl, rfl, hheld⟩))
    · exact .inl rfl
  · exact .inl (assign_other _ _ r hstatus)

theorem preserved_of_gentle
    (hc : Prepared rev c) (h : GentleRun (rev.schema, c) rev.pending d) : Preserved rev c d := by
  intro t table ht
  obtain ⟨before, after, hschema, -⟩ := List.lookup_eq_some_iff.mp ht
  have hentry : (t, table) ∈ rev.schema := by
    rw [hschema]
    exact List.mem_append_right before List.mem_cons_self
  have hkeeps := List.all_eq_true.mp (keeps_old_columns rev) _ hentry
  rw [Bool.and_eq_true] at hkeeps
  obtain ⟨hcreates, hcolumns⟩ := hkeeps
  obtain ⟨table', htable', hcolumns⟩ := (Option.any_eq_true _ _).mp hcolumns
  refine ⟨table', head_schema h.run ▸ htable', ?_⟩
  by_cases hruns : rev = .addScheduledTasks ∧ t = .scheduledTaskRuns
  · obtain ⟨rfl, rfl⟩ := hruns
    cases ht
    intro r hr
    obtain ⟨r', hr', hkept⟩ := preserved_runs h hc.ready r hr
    exact ⟨r', hr', fun col hcol _ => hkept col hcol⟩
  by_cases hinstances : rev = .addChannelTables ∧ t = .channelInstances
  · obtain ⟨rfl, rfl⟩ := hinstances
    cases ht
    refine preserved_instances h hc.ready ?_
    cases htable'
    decide
  have hrewrites : ∀ col, rev.rewrites t col = false := by
    intro col
    simp only [rewrites, Bool.or_eq_false_iff, Bool.and_eq_false_imp]
    grind
  simp only [List.all_eq_true, hrewrites, Bool.or_false, Bool.or_eq_true,
    decide_eq_true_eq] at hcolumns
  have hkeeps : (((table.columns.map Column.name).filter
      (· ∈ table'.columns.map Column.name)).all fun col =>
        rev.pending.all fun st => st.keeps t col) = true := by
    rw [List.all_eq_true]
    intro col hcol
    obtain ⟨hold, hhead⟩ := List.mem_filter.mp hcol
    obtain ⟨column, hmem, rfl⟩ := List.mem_map.mp hold
    rw [List.all_eq_true]
    exact (hcolumns column hmem).resolve_left (not_not.mpr (of_decide_eq_true hhead))
  intro r hr
  obtain ⟨r', hr', hsame⟩ := kept_rows t _ h hcreates hkeeps r hr
  refine ⟨r', hr', fun col hcol hcol' => .inl (hsame col ?_)⟩
  exact List.mem_filter.mpr ⟨hcol, decide_eq_true hcol'⟩

/-! What an upgrade that succeeds needs, and what it takes away. -/

theorem single_of_run {pre post : List SqlStatement} (h : run Statement.step d
      (pre ++ .createSingleIndex .models "is_default" (.int 1) :: post) = some d')
    (hmodels : schemaAll (fun s st => settled .models s st && st.keeps .models "is_default")
      d.1 pre = true) : SingleDefault d.2 := by
  rw [run_append] at h
  obtain ⟨d₁, hpre, hrest⟩ := Option.bind_eq_some_iff.mp h
  obtain ⟨d₂, hstep, -⟩ := Option.bind_eq_some_iff.mp hrest
  have hindexed := (step_exec hstep).1
  simp only [Statement.exec] at hindexed
  split_ifs at hindexed with hsingle
  obtain ⟨f, hmap, hf⟩ := run_rows hpre (guarded_of_schemaAll (fun d st hst =>
    calm_of_settled (Bool.and_eq_true_iff.mp hst).1) hmodels)
  have hkeeps : ∀ st ∈ pre, st.keeps .models "is_default" = true := by
    refine keeps_of_schemaAll (schemaAll_mono (fun s st hst => ?_) hmodels)
    exact (Bool.and_eq_true_iff.mp hst).2
  rwa [hmap, single_map fun r => hf r _ hkeeps] at hsingle

theorem single_of_upgrade
    (hvalid : Valid rev.schema c) (h : rev.upgradeToHead c = some d) : SingleDefault c := by
  have hfrom : ∀ n, rev.pending = rev.pending.take n ++
      .createSingleIndex .models "is_default" (.int 1) :: rev.pending.drop (n + 1) →
      schemaAll (fun s st => settled .models s st && st.keeps .models "is_default")
        rev.schema (rev.pending.take n) = true → SingleDefault c := by
    intro n hsplit hmodels
    rw [upgradeToHead, hsplit] at h
    exact single_of_run h hmodels
  have hindexed : ∀ table, rev.schema.lookup .models = some table →
      ("is_default", .int 1) ∈ table.singles → SingleDefault c :=
    fun table hmodels hmem => (hvalid.admitted .models table hmodels).2.2 _ hmem
  cases rev with
  | initAgentdSchema => exact hfrom 16 rfl (by decide)
  | addSessionRuntimeIdentityColumns => exact hfrom 15 rfl (by decide)
  | addCompatibilityColumn => exact hfrom 14 rfl (by decide)
  | updateAgentSkillsWittyhubConstraints => exact hfrom 11 rfl (by decide)
  | addScheduledTasks => exact hfrom 5 rfl (by decide)
  | scheduledRunFkAndCleanup => exact hfrom 0 rfl (by decide)
  | addModelsSingleDefaultIndex | addChannelTables | channelCredentialStore =>
    exact hindexed _ rfl List.mem_cons_self

def agentReference : ForeignKey TableName String := refersTo "agent_id" .agents "id" .cascade

def sessionReference : ForeignKey TableName String := refersTo "session_id" .sessions "id" .cascade

section

variable {rev : Revision} {c : SqlContent} {d : SqlSchema × SqlContent}

theorem emptied_of_run {t : TableName} (fk : ForeignKey TableName String) (n : ℕ)
    (ops : List (BatchOp TableName
      String SqlValue)) (hvalid : Valid rev.schema c) (h : rev.upgradeToHead c = some d)
    (hsplit : rev.pending = rev.pending.take n ++
      .batchAlterTable fk.parent false ops :: rev.pending.drop (n + 1))
    (hstatic : (ops.any BatchOp.requiresRecreate && decide (fk.onDelete = .cascade) &&
      decide (t ≠ fk.parent) && requiresParent rev.schema t fk &&
      schemaAll (keepsReference t fk) rev.schema (rev.pending.take n) &&
      requiresParent ((rev.pending.take n).foldl Statement.alter rev.schema) t fk) = true) :
    d.2 t = [] := by
  simp only [Bool.and_eq_true, decide_eq_true_eq] at hstatic
  obtain ⟨⟨⟨⟨⟨hrecreate, hcascade⟩, hne⟩, hbefore⟩, hkeeps⟩, hthen⟩ := hstatic
  rw [upgradeToHead, hsplit] at h
  exact run_empties (d := (rev.schema, c)) hvalid h hrecreate hcascade hne hbefore hkeeps hthen

theorem emptied_of_upgrade (hvalid : Valid rev.schema c) (h : rev.upgradeToHead c = some d) :
    ∀ t ∈ rev.emptied, d.2 t = [] := by
  cases rev with
  | initAgentdSchema =>
    have hagents := fun t => emptied_of_run (t := t) agentReference 2 _ hvalid h rfl
    simp only [emptied, List.forall_mem_cons]
    exact ⟨hagents _ (by decide), hagents _ (by decide), hagents _ (by decide),
      hagents _ (by decide), hagents _ (by decide), hagents _ (by decide),
      fun t ht => absurd ht List.not_mem_nil⟩
  | addSessionRuntimeIdentityColumns =>
    have hagents := fun t => emptied_of_run (t := t) agentReference 1 _ hvalid h rfl
    simp only [emptied, List.forall_mem_cons]
    exact ⟨hagents _ (by decide), hagents _ (by decide), hagents _ (by decide),
      hagents _ (by decide), hagents _ (by decide), hagents _ (by decide),
      fun t ht => absurd ht List.not_mem_nil⟩
  | addCompatibilityColumn =>
    have hagents := fun t => emptied_of_run (t := t) agentReference 0 _ hvalid h rfl
    simp only [emptied, List.forall_mem_cons]
    exact ⟨hagents _ (by decide), hagents _ (by decide), hagents _ (by decide),
      hagents _ (by decide), hagents _ (by decide), hagents _ (by decide),
      fun t ht => absurd ht List.not_mem_nil⟩
  | updateAgentSkillsWittyhubConstraints =>
    have hsessions := fun t => emptied_of_run (t := t) sessionReference 5 _ hvalid h rfl
    simp only [emptied, List.forall_mem_cons]
    exact ⟨hsessions _ (by decide), hsessions _ (by decide),
      fun t ht => absurd ht List.not_mem_nil⟩
  | _ => exact fun t ht => absurd ht List.not_mem_nil

end

/-- Upgrading a valid database to head succeeds and loses nothing if and only if no row is in
a table that a later revision empties, and at most one model is the default. -/
theorem upgrade_preserves_iff (rev : Revision) (c : SqlContent) (hvalid : Valid rev.schema c) :
    (∃ d, rev.upgradeToHead c = some d ∧ Preserved rev c d) ↔ Survives rev c := by
  constructor
  · rintro ⟨d, h, hpreserved⟩
    refine ⟨fun t ht => ?_, single_of_upgrade hvalid h⟩
    have hgone := emptied_of_upgrade hvalid h t ht
    rw [List.eq_nil_iff_forall_not_mem]
    intro r hr
    cases htable : rev.schema.lookup t with
    | none =>
      rw [hvalid.missing t htable] at hr
      exact List.not_mem_nil hr
    | some table =>
      obtain ⟨_, -, hrows⟩ := hpreserved t table htable
      obtain ⟨r', hr', -⟩ := hrows r hr
      rw [hgone] at hr'
      exact List.not_mem_nil hr'
  · intro h
    have hprepared := prepared_of_valid hvalid h
    obtain ⟨d, hrun⟩ := upgrades_gently rev c hprepared
    exact ⟨d, hrun.run, preserved_of_gentle hprepared hrun⟩

/-! A database at revision 20260707_01 with one session of one agent. -/

def sqlRow (fields : List (String × SqlValue)) : SqlRow := fun col => fields.lookup col

theorem sqlRow_absent {fields : List (String × SqlValue)} {columns : List String}
    (h : (fields.all fun field => decide (field.1 ∈ columns)) = true)
    (hcol : col ∉ columns) : sqlRow fields col = none := by
  refine List.lookup_eq_none_iff.mpr fun field hfield => ?_
  have hmem : field.1 ∈ columns := of_decide_eq_true (List.all_eq_true.mp h field hfield)
  rw [bne_iff_ne]
  rintro rfl
  exact hcol hmem

def oneAgent : List (String × SqlValue) :=
  [("id", .text "a"), ("name", .text "agent"), ("description", .text ""),
    ("sandbox_type", .text "docker"), ("adapter_type", .text "opencode"),
    ("status", .text "running"), ("workspace_path", .text "/w"),
    ("idle_timeout_seconds", .int 60), ("has_scheduled_tasks", .int 0),
    ("created_at", .text "2026-07-08"), ("updated_at", .text "2026-07-08"),
    ("mcp_server_list", .text "[]")]

def oneSession : List (String × SqlValue) :=
  [("id", .text "s"), ("agent_id", .text "a"), ("status", .text "idle"), ("pinned", .int 0),
    ("created_at", .text "2026-07-08"), ("updated_at", .text "2026-07-08")]

def oneMessage : List (String × SqlValue) :=
  [("id", .text "m"), ("agent_id", .text "a"), ("session_id", .text "s"),
    ("role", .text "user"), ("content", .text "hi"), ("metadata_json", .text "null"),
    ("status", .text "completed"), ("created_at", .text "2026-07-08")]

def july (messages : List (List (String × SqlValue))) : SqlContent
  | .agents => [sqlRow oneAgent]
  | .sessions => [sqlRow oneSession]
  | .messages => messages.map sqlRow
  | _ => []

theorem july_valid {ms : List (List (String × SqlValue))}
    (hadmits : messages.Admits (july ms) (july ms .messages))
    (hcolumns : ∀ m ∈ ms, (m.all fun field =>
      decide (field.1 ∈ messages.columns.map Column.name)) = true) :
    Valid updateAgentSkillsWittyhubConstraints.schema (july ms) := by
  constructor
  · intro t ht
    cases t <;> first | rfl | cases ht
  · intro t table ht
    cases t with
    | agents =>
      cases ht
      refine admits_congr (c := july []) (fun fk hfk => absurd hfk List.not_mem_nil) ?_
      show Table.Admits _ (july []) (july [] .agents)
      decide
    | sessions =>
      cases ht
      refine admits_congr (c := july []) (fun fk hfk => ?_) ?_
      · rw [List.mem_singleton.mp hfk]
        rfl
      · show Table.Admits _ (july []) (july [] .sessions)
        decide
    | messages =>
      cases ht
      exact hadmits
    | _ => exact admits_nil _ _
  · intro t table ht r hr col hcol
    cases t with
    | agents | sessions =>
      cases ht
      rw [List.mem_singleton.mp hr]
      exact sqlRow_absent (by decide) hcol
    | messages =>
      cases ht
      obtain ⟨m, hm, rfl⟩ := List.mem_map.mp hr
      exact sqlRow_absent (hcolumns m hm) hcol
    | _ => exact absurd hr List.not_mem_nil

/-- Without messages the session is there after the upgrade. -/
theorem july_without_messages_preserved :
    ∃ d, updateAgentSkillsWittyhubConstraints.upgradeToHead (july []) = some d ∧
      Preserved .updateAgentSkillsWittyhubConstraints (july []) d :=
  (upgrade_preserves_iff .updateAgentSkillsWittyhubConstraints (july [])
    (july_valid (admits_nil _ _) fun m hm => absurd hm List.not_mem_nil)).mpr
    ⟨fun t ht => by revert t; decide, List.Pairwise.nil⟩

/-- The upgrade recreates the sessions, which takes the message away. -/
theorem july_message_lost :
    ¬ ∀ rev c, Valid rev.schema c → ∃ d, rev.upgradeToHead c = some d ∧ Preserved rev c d := by
  intro h
  have hvalid : Valid updateAgentSkillsWittyhubConstraints.schema (july [oneMessage]) :=
    july_valid (by decide) (by decide)
  obtain ⟨d, hrun, hpreserved⟩ := h _ _ hvalid
  have hgone := emptied_of_upgrade hvalid hrun .messages (by decide)
  obtain ⟨_, -, hrows⟩ := hpreserved .messages messages rfl
  obtain ⟨r', hr', -⟩ := hrows (sqlRow oneMessage) List.mem_cons_self
  rw [hgone] at hr'
  exact List.not_mem_nil hr'

end WittyService
