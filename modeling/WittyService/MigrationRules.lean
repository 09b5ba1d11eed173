import Mathlib.Tactic.SplitIfs
import WittyService.GuardedRuns
import WittyService.SchemaMigration

/-! Which rows the statements of a migration leave alone, and which a drop takes away. -/
namespace SchemaMigration

open GuardedRuns

set_option linter.unusedSectionVars false

variable {τ κ ν : Type*} [DecidableEq κ] [DecidableEq ν] [DecidableEq τ]

/-- The tables that refer to `t`. -/
def childrenOf (s : Schema τ κ ν) (t : τ) : List τ :=
  (s.filter fun entry => entry.2.foreignKeys.any fun fk => fk.parent = t).map Prod.fst

/-- No table that refers to `t` has a row. -/
def Childless (s : Schema τ κ ν) (c : Content τ κ ν) (t : τ) : Prop :=
  ∀ child ∈ childrenOf s t, c child = []

def freeOfForeignKeys (s : Schema τ κ ν) (x : τ) : Bool :=
  (s.lookup x).all fun table => table.foreignKeys.isEmpty

def neverNulled (s : Schema τ κ ν) (x : τ) (col : κ) : Bool :=
  (s.lookup x).all fun table =>
    table.foreignKeys.all fun fk => fk.onDelete = .cascade ∨ fk.column ≠ col

variable {s : Schema τ κ ν} {c₀ c c' : Content τ κ ν} {t x : τ}

variable {table : Table τ κ ν} {fk : ForeignKey τ κ} {r' : Row κ ν} {ops : List (BatchOp τ κ ν)}
  {recreate : Bool} {value : Option ν} {selects : Content τ κ ν → Row κ ν → Bool}
  {p : Schema τ κ ν → Statement τ κ ν → Bool}

theorem mem_childrenOf (hx : s.lookup x = some table)
    (hfk : fk ∈ table.foreignKeys) (hparent : fk.parent = t) : x ∈ childrenOf s t := by
  rw [List.lookup_eq_some_iff] at hx
  obtain ⟨before, after, rfl, -⟩ := hx
  rw [childrenOf, List.mem_map]
  refine ⟨(x, table), List.mem_filter.mpr ⟨?_, ?_⟩, rfl⟩
  · exact List.mem_append_right before List.mem_cons_self
  · exact List.any_eq_true.mpr ⟨fk, hfk, decide_eq_true hparent⟩

theorem not_nulled {col : κ} (hnever : neverNulled s x col = true) (hx : s.lookup x = some table)
    (hfk : fk ∈ table.foreignKeys) (hset : fk.onDelete = .setNull) : fk.column ≠ col := by
  simp only [neverNulled, hx, Option.all_some, List.all_eq_true, decide_eq_true_eq] at hnever
  obtain hcascade | hne := hnever fk hfk
  · rw [hset] at hcascade
    cases hcascade
  · exact hne

theorem sweep_eq_self {s : Schema τ κ ν} {c₀ c : Content τ κ ν} {x : τ}
    (h : ∀ table, s.lookup x = some table → ∀ r ∈ c x, ∀ fk ∈ table.foreignKeys,
      ¬ Orphaned c₀ c fk r) : sweep s c₀ c x = c x := by
  unfold sweep
  cases hx : s.lookup x with
  | none => rfl
  | some table =>
    have hrow := h table hx
    have hkept : ((c x).filter fun r => !table.cascades c₀ c r) = c x := by
      rw [List.filter_eq_self]
      intro r hr
      simp only [Table.cascades, Bool.not_eq_true', List.any_eq_false, decide_eq_true_eq]
      exact fun fk hfk horphan => hrow r hr fk hfk horphan.2
    have hsame : ∀ r ∈ c x, table.setsNull c₀ c r = id r := by
      intro r hr
      ext1 col
      have hnone : ¬ table.foreignKeys.any (fun fk =>
          fk.onDelete = .setNull ∧ fk.column = col ∧ Orphaned c₀ c fk r) := by
        simp only [List.any_eq_true, decide_eq_true_eq, not_exists, not_and]
        exact fun fk hfk _ _ => hrow r hr fk hfk
      simp only [Table.setsNull, if_neg hnone, id_eq]
    simp only [hkept]
    rw [List.map_congr_left hsame, List.map_id]

theorem settle_eq_self (h : sweep s c₀ c = c) (n : ℕ) : settle s c₀ n c = c := by
  induction n with
  | zero => rfl
  | succ n ih => rw [settle, h, ih]

theorem dropRows_of_childless (h : Childless s c t) :
    dropRows s c t = Function.update c t [] := by
  refine settle_eq_self (funext fun x => sweep_eq_self fun table hx r hr fk hfk horphan => ?_) _
  by_cases hparent : fk.parent = t
  · have hempty : Function.update c t [] x = [] := by
      by_cases hxt : x = t
      · rw [hxt, Function.update_self]
      · rw [Function.update_of_ne hxt, h x (mem_childrenOf hx hfk hparent)]
    rw [hempty] at hr
    exact List.not_mem_nil hr
  · apply horphan.2
    rw [Refers, Function.update_of_ne hparent]
    exact horphan.1

theorem sweep_origin (hr' : r' ∈ sweep s c₀ c x) :
    ∃ r ∈ c x, ∀ col, neverNulled s x col = true → r' col = r col := by
  unfold sweep at hr'
  cases hx : s.lookup x with
  | none =>
    simp only [hx] at hr'
    exact ⟨r', hr', fun _ _ => rfl⟩
  | some table =>
    simp only [hx] at hr'
    obtain ⟨r, hr, rfl⟩ := List.mem_map.mp hr'
    refine ⟨r, (List.mem_filter.mp hr).1, fun col hnever => ?_⟩
    have hnone : ¬ table.foreignKeys.any (fun fk =>
        fk.onDelete = .setNull ∧ fk.column = col ∧ Orphaned c₀ c fk r) := by
      simp only [List.any_eq_true, decide_eq_true_eq, not_exists, not_and]
      exact fun fk hfk hset hcol => absurd hcol (not_nulled hnever hx hfk hset)
    simp only [Table.setsNull, if_neg hnone]

theorem settle_origin {n : ℕ} (hr' : r' ∈ settle s c₀ n c x) :
    ∃ r ∈ c x, ∀ col, neverNulled s x col = true → r' col = r col := by
  induction n generalizing c with
  | zero => exact ⟨r', hr', fun _ _ => rfl⟩
  | succ n ih =>
    obtain ⟨r₁, hr₁, hsame₁⟩ := ih hr'
    obtain ⟨r, hr, hsame⟩ := sweep_origin hr₁
    exact ⟨r, hr, fun col hnever => (hsame₁ col hnever).trans (hsame col hnever)⟩

theorem settle_of_free (hfree : freeOfForeignKeys s x = true) (n : ℕ) :
    settle s c₀ n c x = c x := by
  induction n generalizing c with
  | zero => rfl
  | succ n ih =>
    rw [settle, ih]
    refine sweep_eq_self fun table hx r _ fk hfk => ?_
    simp only [freeOfForeignKeys, hx, Option.all_some, List.isEmpty_iff] at hfree
    rw [hfree] at hfk
    exact absurd hfk List.not_mem_nil

theorem eq_nil_of_origin {rows rows' : List (Row κ ν)} {P : Row κ ν → Row κ ν → Prop}
    (h : ∀ r' ∈ rows', ∃ r ∈ rows, P r' r) (hrows : rows = []) : rows' = [] := by
  rw [List.eq_nil_iff_forall_not_mem]
  intro r' hr'
  obtain ⟨r, hr, -⟩ := h r' hr'
  rw [hrows] at hr
  exact List.not_mem_nil hr

theorem dropRows_child (hx : s.lookup x = some table) (hfk : fk ∈ table.foreignKeys)
    (hcascade : fk.onDelete = .cascade) (hparent : fk.parent = t) (hne : x ≠ t)
    (hrefer : ∀ r ∈ c x, r fk.column ≠ none ∧ Refers c fk r) : dropRows s c t x = [] := by
  have hlength : s.length = s.length - 1 + 1 := by
    cases s with
    | nil => cases hx
    | cons entry rest => rfl
  rw [dropRows, hlength, settle]
  refine eq_nil_of_origin (fun r' hr' => settle_origin hr') ?_
  simp only [sweep, hx, List.map_eq_nil_iff, List.filter_eq_nil_iff]
  intro r hr
  rw [Function.update_of_ne hne] at hr
  obtain ⟨hvalue, hrefers⟩ := hrefer r hr
  have horphan : Orphaned c (Function.update c t []) fk r := by
    refine ⟨hrefers, ?_⟩
    rintro (hnone | ⟨p, hp, -⟩)
    · exact hvalue hnone
    · rw [hparent, Function.update_self] at hp
      exact List.not_mem_nil hp
  simp only [Table.cascades, Bool.not_eq_true', Bool.not_eq_false, List.any_eq_true,
    decide_eq_true_eq]
  exact ⟨fk, hfk, hcascade, horphan⟩

def Statement.keeps (x : τ) (col : κ) : Statement τ κ ν → Bool
  | .createTable t _ => t ≠ x
  | .addColumn t column => t ≠ x ∨ column.name ≠ col
  | .dropColumn t col' => t ≠ x ∨ col' ≠ col
  | .batchAlterTable t _ ops => t ≠ x ∨ ops.all fun op => match op with
    | .addColumn column _ => column.name ≠ col
    | _ => true
  | .update t col' _ _ => t ≠ x ∨ col' ≠ col
  | _ => true

theorem fill_all_keeps {col : κ} (h : ops.all fun op => match op with
      | .addColumn column _ => column.name ≠ col
      | _ => true) (r : Row κ ν) : ops.foldl BatchOp.fill r col = r col := by
  induction ops generalizing r with
  | nil => rfl
  | cons op ops ih =>
    rw [List.all_cons, Bool.and_eq_true] at h
    rw [List.foldl_cons, ih h.2]
    cases op with
    | addColumn column foreignKey =>
      exact Function.update_of_ne (Ne.symm (of_decide_eq_true h.1)) _ _
    | _ => rfl

/-- No rows of `x` are created, and none are reached by a drop. -/
def Calm (x : τ) (d : Schema τ κ ν × Content τ κ ν) : Statement τ κ ν → Prop
  | .createTable t _ => t ≠ x
  | .batchAlterTable t _ _ => Childless d.1 d.2 t ∨ freeOfForeignKeys d.1 x = true
  | _ => True

theorem update_rows {d : Content τ κ ν} {f : Row κ ν → Row κ ν} {P : κ → Prop}
    (hother : x ≠ t → d x = c x) (hf : x = t → ∀ r col, P col → f r col = r col) :
    ∃ g : Row κ ν → Row κ ν, Function.update d t ((c t).map f) x = (c x).map g ∧
      ∀ r col, P col → g r col = r col := by
  by_cases hx : x = t
  · refine ⟨f, ?_, hf hx⟩
    rw [hx, Function.update_self]
  · refine ⟨id, ?_, fun _ _ _ => rfl⟩
    rw [Function.update_of_ne hx, List.map_id, hother hx]

theorem exec_batchAlterTable (h : (Statement.batchAlterTable t recreate ops).exec s c = some c') :
    c' = Function.update
      (if recreate || ops.any BatchOp.requiresRecreate then dropRows s c t else c) t
      ((c t).map fun r => ops.foldl BatchOp.fill r) := by
  simp only [Statement.exec] at h
  split_ifs at h ⊢ with hrecreate
  · split at h
    · cases h
    · split_ifs at h
      cases h
      rfl
  · cases h
    rfl

theorem fill_keeps (r : Row κ ν) (col : κ)
    (h : (Statement.batchAlterTable x recreate ops : Statement τ κ ν).keeps x col = true) :
    ops.foldl BatchOp.fill r col = r col := by
  simp only [Statement.keeps, ne_eq, not_true_eq_false, false_or, decide_eq_true_eq] at h
  exact fill_all_keeps h r

theorem step_createSingleIndex {col : κ} {v : ν} (h : Single col v (c t)) :
    Statement.step (s, c) (.createSingleIndex t col v) =
      some ((Statement.createSingleIndex t col v).alter s, c) := by
  simp [Statement.step, Statement.exec, if_pos h]

theorem exec_update {col : κ} (h : (Statement.update t col value selects).exec s c = some c') :
    c' = Function.update c t
      ((c t).map (assign (selects c) col value)) := by
  simp only [Statement.exec] at h
  split at h
  · cases h
  · split_ifs at h
    cases h
    rfl

theorem assign_other (selects : Row κ ν → Bool) {col col' : κ} (value : Option ν) (r : Row κ ν)
    (h : col' ≠ col) : assign selects col value r col' = r col' := by
  unfold assign
  split_ifs
  · exact Function.update_of_ne h _ _
  · rfl

theorem assign_self (selects : Row κ ν → Bool) (col : κ) (value : Option ν) (r : Row κ ν) :
    assign selects col value r col = if selects r then value else r col := by
  unfold assign
  split_ifs
  · exact Function.update_self ..
  · rfl

theorem exec_rows {st : Statement τ κ ν} (h : st.exec s c = some c') (hcalm : Calm x (s, c) st) :
    ∃ f : Row κ ν → Row κ ν, c' x = (c x).map f ∧
      ∀ r col, st.keeps x col = true → f r col = r col := by
  have hid : ∃ f : Row κ ν → Row κ ν, c x = (c x).map f ∧
      ∀ r col, st.keeps x col = true → f r col = r col :=
    ⟨id, (List.map_id _).symm, fun _ _ _ => rfl⟩
  cases st with
  | createTable t table =>
    cases h
    rw [Function.update_of_ne (Ne.symm hcalm)]
    exact hid
  | addColumn t column | dropColumn t col' =>
    cases h
    refine update_rows (fun _ => rfl) fun hx r col hkeeps => ?_
    simp only [Statement.keeps, hx, ne_eq, not_true_eq_false, false_or, decide_eq_true_eq] at hkeeps
    exact Function.update_of_ne (Ne.symm hkeeps) _ _
  | batchAlterTable t recreate ops =>
    rw [exec_batchAlterTable h]
    refine update_rows (fun hx => ?_) fun hx r col hkeeps => fill_keeps r col (hx ▸ hkeeps)
    split_ifs
    · obtain hchildless | hfree := hcalm
      · rw [dropRows_of_childless hchildless, Function.update_of_ne hx]
      · rw [dropRows, settle_of_free hfree, Function.update_of_ne hx]
    · rfl
  | createIndex t columns =>
    cases h
    exact hid
  | createSingleIndex t col v =>
    simp only [Statement.exec] at h
    split_ifs at h
    cases h
    exact hid
  | update t col' value selects =>
    rw [exec_update h]
    refine update_rows (fun _ => rfl) fun hx r col hkeeps => ?_
    simp only [Statement.keeps, hx, ne_eq, not_true_eq_false, false_or, decide_eq_true_eq] at hkeeps
    exact assign_other _ _ r (Ne.symm hkeeps)

theorem exec_origin {st : Statement τ κ ν} (h : st.exec s c = some c')
    (hr' : r' ∈ c' x) : ∃ r ∈ c x, ∀ col, st.keeps x col = true → neverNulled s x col = true →
      r' col = r col := by
  by_cases hcalm : Calm x (s, c) st
  · obtain ⟨f, hmap, hkeeps⟩ := exec_rows h hcalm
    rw [hmap] at hr'
    obtain ⟨r, hr, rfl⟩ := List.mem_map.mp hr'
    exact ⟨r, hr, fun col hcol _ => hkeeps r col hcol⟩
  cases st with
  | createTable t table =>
    cases h
    rw [not_not.mp hcalm, Function.update_self] at hr'
    exact absurd hr' List.not_mem_nil
  | batchAlterTable t recreate ops =>
    rw [exec_batchAlterTable h] at hr'
    by_cases hx : x = t
    · subst hx
      rw [Function.update_self] at hr'
      obtain ⟨r, hr, rfl⟩ := List.mem_map.mp hr'
      exact ⟨r, hr, fun col hkeeps _ => fill_keeps r col hkeeps⟩
    rw [Function.update_of_ne hx] at hr'
    split_ifs at hr'
    · obtain ⟨r, hr, hsame⟩ := settle_origin hr'
      rw [Function.update_of_ne hx] at hr
      exact ⟨r, hr, fun col _ hnever => hsame col hnever⟩
    · exact ⟨r', hr', fun _ _ _ => rfl⟩
  | _ => exact absurd trivial hcalm

variable {d d' : Schema τ κ ν × Content τ κ ν} {sts : List (Statement τ κ ν)}

theorem step_exec {st : Statement τ κ ν} (h : st.step d = some d') :
    st.exec d.1 d.2 = some d'.2 ∧ d'.1 = st.alter d.1 := by
  obtain ⟨c', hc', rfl⟩ := Option.map_eq_some_iff.mp h
  exact ⟨hc', rfl⟩

theorem step_batchAlterTable (table : Table τ κ ν) (ht : s.lookup t = some table)
    (hrecreate : (recreate || ops.any BatchOp.requiresRecreate) = true)
    (hchildless : Childless s c t)
    (hadmits : (ops.foldl BatchOp.alter table).Admits c
      ((c t).map fun r => ops.foldl BatchOp.fill r)) :
    Statement.step (s, c) (.batchAlterTable t recreate ops) =
      some ((Statement.batchAlterTable t recreate ops).alter s,
        Function.update c t ((c t).map fun r => ops.foldl BatchOp.fill r)) := by
  simp only [Statement.step, Statement.exec, if_pos hrecreate, ht, if_pos hadmits,
    dropRows_of_childless hchildless, Function.update_idem, Option.map_some]

theorem step_update (table : Table τ κ ν) {col : κ} (ht : s.lookup t = some table)
    (hadmits : table.Admits c
      ((c t).map (assign (selects c) col value))) :
    Statement.step (s, c) (.update t col value selects) =
      some (s, Function.update c t
        ((c t).map (assign (selects c) col value))) := by
  simp [Statement.step, Statement.exec, ht, if_pos hadmits, Statement.alter]

/-- Along a calm run the rows of a table are mapped one by one, and the columns that no
statement writes keep their values. -/
theorem run_rows (h : run Statement.step d sts = some d')
    (hcalm : Guarded Statement.step (Calm x) d sts) :
    ∃ f : Row κ ν → Row κ ν, d'.2 x = (d.2 x).map f ∧
      ∀ r col, (∀ st ∈ sts, st.keeps x col = true) → f r col = r col := by
  induction sts generalizing d with
  | nil =>
    cases h
    exact ⟨id, (List.map_id _).symm, fun _ _ _ => rfl⟩
  | cons st rest ih =>
    obtain ⟨d₁, hstep, hrest⟩ := Option.bind_eq_some_iff.mp h
    obtain ⟨hst, hcalm'⟩ := hcalm d₁ hstep
    obtain ⟨f, hmap, hf⟩ := exec_rows (step_exec hstep).1 hst
    obtain ⟨g, hmap', hg⟩ := ih hrest hcalm'
    refine ⟨g ∘ f, by rw [hmap', hmap, List.map_map], fun r col hkeeps => ?_⟩
    calc g (f r) col = f r col := hg _ col fun st' hst' => hkeeps st' (List.mem_cons_of_mem st hst')
      _ = r col := hf r col (hkeeps st List.mem_cons_self)

theorem run_empty (h : run Statement.step d sts = some d') (hx : d.2 x = []) :
    d'.2 x = [] := by
  refine run_invariant (Q := fun d => d.2 x = []) (fun d st d' hempty hstep => ?_) hx h
  exact eq_nil_of_origin (fun r' hr' => exec_origin (step_exec hstep).1 hr') hempty

/-! Checks of the statements alone, each on the schema it runs on. -/

def schemaAll (p : Schema τ κ ν → Statement τ κ ν → Bool) :
    Schema τ κ ν → List (Statement τ κ ν) → Bool
  | _, [] => true
  | s, st :: rest => p s st && schemaAll p (st.alter s) rest

theorem guarded_of_schemaAll {g : Schema τ κ ν × Content τ κ ν → Statement τ κ ν → Prop}
    (hpg : ∀ d st, p d.1 st = true → g d st) (h : schemaAll p d.1 sts = true) :
    Guarded Statement.step g d sts := by
  induction sts generalizing d with
  | nil => trivial
  | cons st rest ih =>
    intro d' hstep
    rw [schemaAll, Bool.and_eq_true] at h
    refine ⟨hpg d st h.1, ih ?_⟩
    rw [(step_exec hstep).2]
    exact h.2

theorem run_schema (h : run Statement.step d sts = some d') :
    d'.1 = sts.foldl Statement.alter d.1 := by
  induction sts generalizing d with
  | nil =>
    cases h
    rfl
  | cons st rest ih =>
    obtain ⟨d₁, hstep, hrest⟩ := Option.bind_eq_some_iff.mp h
    rw [ih hrest, (step_exec hstep).2, List.foldl_cons]

theorem run_origin (h : run Statement.step d sts = some d') (hr' : r' ∈ d'.2 x) :
    ∃ r ∈ d.2 x, ∀ col,
      schemaAll (fun s st => st.keeps x col && neverNulled s x col) d.1 sts = true →
        r' col = r col := by
  induction sts generalizing d with
  | nil =>
    cases h
    exact ⟨r', hr', fun _ _ => rfl⟩
  | cons st rest ih =>
    obtain ⟨d₁, hstep, hrest⟩ := Option.bind_eq_some_iff.mp h
    obtain ⟨hexec, hschema⟩ := step_exec hstep
    obtain ⟨r₁, hr₁, hsame₁⟩ := ih hrest
    obtain ⟨r, hr, hsame⟩ := exec_origin hexec hr₁
    refine ⟨r, hr, fun col hall => ?_⟩
    simp only [schemaAll, Bool.and_eq_true] at hall
    rw [hschema] at hsame₁
    exact (hsame₁ col hall.2).trans (hsame col hall.1.1 hall.1.2)

/-- The statement leaves the rows of `x` in place whatever the tables hold. -/
def settled (x : τ) (s : Schema τ κ ν) : Statement τ κ ν → Bool
  | .createTable t _ => t ≠ x
  | .batchAlterTable _ _ _ => freeOfForeignKeys s x
  | _ => true

theorem calm_of_settled {st : Statement τ κ ν} (h : settled x d.1 st = true) : Calm x d st := by
  cases st with
  | createTable t table =>
    show t ≠ x
    exact of_decide_eq_true h
  | batchAlterTable t recreate ops => exact .inr h
  | _ => trivial

def Gentle (d : Schema τ κ ν × Content τ κ ν) : Statement τ κ ν → Prop
  | .batchAlterTable t _ _ => Childless d.1 d.2 t
  | _ => True

def Statement.creates (x : τ) : Statement τ κ ν → Bool
  | .createTable t _ => t = x
  | _ => false

theorem calm_of_gentle {st : Statement τ κ ν} (h : Gentle d st) (hx : st.creates x = false) :
    Calm x d st := by
  cases st with
  | createTable t table =>
    show t ≠ x
    exact of_decide_eq_false hx
  | batchAlterTable t recreate ops => exact .inl h
  | _ => trivial

/-- A run that succeeds and in which no drop fires an action. -/
structure GentleRun (d : Schema τ κ ν × Content τ κ ν) (sts : List (Statement τ κ ν))
    (d' : Schema τ κ ν × Content τ κ ν) : Prop where
  run : run Statement.step d sts = some d'
  gentle : Guarded Statement.step Gentle d sts

namespace GentleRun

theorem nil (d : Schema τ κ ν × Content τ κ ν) : GentleRun d [] d := ⟨rfl, trivial⟩

variable {d₁ : Schema τ κ ν × Content τ κ ν}

theorem cons {st : Statement τ κ ν}
    (hstep : st.step d = some d₁) (hgentle : Gentle d st) (hrest : GentleRun d₁ sts d') :
    GentleRun d (st :: sts) d' := by
  refine ⟨?_, fun d₂ hd₂ => ?_⟩
  · rw [GuardedRuns.run, hstep, Option.bind_some, hrest.run]
  · rw [hstep] at hd₂
    cases hd₂
    exact ⟨hgentle, hrest.gentle⟩

theorem append {later : List (Statement τ κ ν)}
    (h : GentleRun d sts d₁) (hlater : GentleRun d₁ later d') : GentleRun d (sts ++ later) d' := by
  refine ⟨?_, guarded_append h.run h.gentle hlater.gentle⟩
  rw [run_append, h.run, Option.bind_some, hlater.run]

theorem of_append {before : List (Statement τ κ ν)}
    (h : GentleRun d (before ++ sts) d') (hbefore : GentleRun d before d₁) :
    GentleRun d₁ sts d' := by
  refine ⟨?_, guarded_of_append hbefore.run h.gentle⟩
  rw [← h.run, run_append, hbefore.run, Option.bind_some]

theorem rows (h : GentleRun d sts d') (hx : ∀ st ∈ sts, st.creates x = false) :
    ∃ f : Row κ ν → Row κ ν, d'.2 x = (d.2 x).map f ∧
      ∀ r col, (∀ st ∈ sts, st.keeps x col = true) → f r col = r col :=
  run_rows h.run (guarded_mono (fun _ st hst hg => calm_of_gentle hg (hx st hst)) h.gentle)

end GentleRun

/-- Every row of `x` must refer by `fk` to a row of its parent. -/
def requiresParent (s : Schema τ κ ν) (x : τ) (fk : ForeignKey τ κ) : Bool :=
  (s.lookup x).any fun table => decide (fk ∈ table.foreignKeys) &&
    table.columns.any fun column => column.name = fk.column ∧ column.nullable = false

theorem refers_of_valid (hvalid : Valid s c)
    (h : requiresParent s x fk = true) {r : Row κ ν} (hr : r ∈ c x) :
    r fk.column ≠ none ∧ Refers c fk r := by
  obtain ⟨table, hx, htable⟩ := (Option.any_eq_true _ _).mp h
  simp only [Bool.and_eq_true, decide_eq_true_eq, List.any_eq_true] at htable
  obtain ⟨hfk, column, hcolumn, hname, hrequired⟩ := htable
  obtain ⟨hnull, hrefers, -⟩ := (hvalid.admitted x table hx).1 r hr
  exact ⟨hname ▸ hnull column hcolumn hrequired, hrefers fk hfk⟩

/-- The statements before a drop of the parent leave the references of `x` as they are. -/
def keepsReference (x : τ) (fk : ForeignKey τ κ) (s : Schema τ κ ν)
    (st : Statement τ κ ν) : Bool :=
  st.keeps x fk.column && neverNulled s x fk.column &&
    (settled fk.parent s st && st.keeps fk.parent fk.parentColumn)

theorem schemaAll_mono {q : Schema τ κ ν → Statement τ κ ν → Bool}
    (hpq : ∀ s st, p s st = true → q s st = true) (h : schemaAll p s sts = true) :
    schemaAll q s sts = true := by
  induction sts generalizing s with
  | nil => rfl
  | cons st rest ih =>
    rw [schemaAll, Bool.and_eq_true] at h ⊢
    exact ⟨hpq s st h.1, ih h.2⟩

theorem keeps_of_schemaAll {p : Statement τ κ ν → Bool} (h : schemaAll (fun _ => p) s sts = true) :
    ∀ st ∈ sts, p st = true := by
  induction sts generalizing s with
  | nil => exact fun st hst => absurd hst List.not_mem_nil
  | cons st rest ih =>
    rw [schemaAll, Bool.and_eq_true] at h
    exact List.forall_mem_cons.mpr ⟨h.1, ih h.2⟩

theorem refers_of_run (h : run Statement.step d sts = some d')
    (hkeeps : schemaAll (keepsReference x fk) d.1 sts = true)
    (hrefer : ∀ r ∈ d.2 x, r fk.column ≠ none ∧ Refers d.2 fk r) :
    ∀ r ∈ d'.2 x, r fk.column ≠ none ∧ Refers d'.2 fk r := by
  intro r' hr'
  obtain ⟨r, hr, hsame⟩ := run_origin h hr'
  have hcolumn : r' fk.column = r fk.column := by
    refine hsame fk.column (schemaAll_mono (fun s st hst => ?_) hkeeps)
    simp only [keepsReference, Bool.and_eq_true] at hst
    exact Bool.and_eq_true_iff.mpr hst.1
  have hcalm : Guarded Statement.step (Calm fk.parent) d sts := by
    refine guarded_of_schemaAll (fun d st => calm_of_settled) (schemaAll_mono ?_ hkeeps)
    intro s st hst
    simp only [keepsReference, Bool.and_eq_true] at hst
    exact hst.2.1
  obtain ⟨f, hmap, hf⟩ := run_rows h hcalm
  have hparents : ∀ st ∈ sts, st.keeps fk.parent fk.parentColumn = true := by
    refine keeps_of_schemaAll (schemaAll_mono (fun s st hst => ?_) hkeeps)
    simp only [keepsReference, Bool.and_eq_true] at hst
    exact hst.2.2
  obtain ⟨hvalue, hrefers⟩ := hrefer r hr
  rw [Refers, hcolumn]
  refine ⟨hvalue, .inr ?_⟩
  obtain hnone | ⟨p, hp, hpr⟩ := hrefers
  · exact absurd hnone hvalue
  · refine ⟨f p, ?_, ?_⟩
    · rw [hmap]
      exact List.mem_map_of_mem hp
    · rw [hf p _ hparents, hpr]

theorem run_empties {pre post : List (Statement τ κ ν)} (hvalid : Valid d.1 d.2)
    (h : run Statement.step d (pre ++ .batchAlterTable fk.parent recreate ops :: post) = some d')
    (hrecreate : (recreate || ops.any BatchOp.requiresRecreate) = true)
    (hcascade : fk.onDelete = .cascade) (hne : x ≠ fk.parent)
    (hbefore : requiresParent d.1 x fk = true)
    (hkeeps : schemaAll (keepsReference x fk) d.1 pre = true)
    (hthen : requiresParent (pre.foldl Statement.alter d.1) x fk = true) : d'.2 x = [] := by
  rw [run_append] at h
  obtain ⟨d₁, hpre, hrest⟩ := Option.bind_eq_some_iff.mp h
  obtain ⟨d₂, hstep, hpost⟩ := Option.bind_eq_some_iff.mp hrest
  have hrefer := refers_of_run hpre hkeeps fun r hr => refers_of_valid hvalid hbefore hr
  rw [← run_schema hpre] at hthen
  obtain ⟨table, hx, htable⟩ := (Option.any_eq_true _ _).mp hthen
  have hfk : fk ∈ table.foreignKeys := of_decide_eq_true (Bool.and_eq_true_iff.mp htable).1
  refine run_empty hpost ?_
  rw [exec_batchAlterTable (step_exec hstep).1, if_pos hrecreate, Function.update_of_ne hne]
  exact dropRows_child hx hfk hcascade rfl hne hrefer

theorem admits_nil (table : Table τ κ ν) (c : Content τ κ ν) : table.Admits c [] := by
  refine ⟨fun r hr => absurd hr List.not_mem_nil, fun _ _ => .nil, fun _ _ => .nil⟩

theorem admits_of_nil {f : Row κ ν → Row κ ν} (h : c t = []) :
    table.Admits c' ((c t).map f) := by
  rw [h]
  exact admits_nil table c'

theorem admitsRow_congr {r : Row κ ν}
    (hparents : ∀ fk ∈ table.foreignKeys, c' fk.parent = c fk.parent)
    (h : table.AdmitsRow c r) : table.AdmitsRow c' r := by
  refine ⟨h.1, fun fk hfk => ?_, h.2.2⟩
  rw [Refers, hparents fk hfk]
  exact h.2.1 fk hfk

theorem admits_congr {rows : List (Row κ ν)}
    (hparents : ∀ fk ∈ table.foreignKeys, c' fk.parent = c fk.parent)
    (h : table.Admits c rows) : table.Admits c' rows :=
  ⟨fun r hr => admitsRow_congr hparents (h.1 r hr), h.2⟩

theorem admits_map {table' : Table τ κ ν} {rows : List (Row κ ν)}
    {f : Row κ ν → Row κ ν} (h : table.Admits c rows)
    (hrow : ∀ r ∈ rows, table.AdmitsRow c r → table'.AdmitsRow c' (f r))
    (hkeys : table'.keys = table.keys) (hsingles : table'.singles = [])
    (hf : ∀ key ∈ table.keys, ∀ col ∈ key, ∀ r, f r col = r col) :
    table'.Admits c' (rows.map f) := by
  refine ⟨?_, ?_, ?_⟩
  · intro r' hr'
    obtain ⟨r, hr, rfl⟩ := List.mem_map.mp hr'
    exact hrow r hr (h.1 r hr)
  · intro key hkey
    rw [hkeys] at hkey
    rw [List.pairwise_map]
    refine (h.2.1 key hkey).imp fun {r r'} hne hcollide => hne fun col hcol => ?_
    rw [← hf key hkey col hcol r, ← hf key hkey col hcol r']
    exact hcollide col hcol
  · rw [hsingles]
    exact fun single hsingle => absurd hsingle List.not_mem_nil

/-- The column may hold the value in every row of the table. -/
def Table.mayHold (table : Table τ κ ν) (col : κ) (value : Option ν) : Prop :=
  (∀ column ∈ table.columns, column.name = col → column.nullable = false → value ≠ none) ∧
    (∀ fk ∈ table.foreignKeys, fk.column = col → value = none) ∧
    (∀ check ∈ table.checks, ∀ r, check.holds r = true →
      check.holds (Function.update r col value) = true) ∧
    (∀ key ∈ table.keys, col ∉ key) ∧ table.singles = []

theorem admitsRow_update {r : Row κ ν} {col : κ}
    (hvalue : table.mayHold col value) (h : table.AdmitsRow c r) :
    table.AdmitsRow c (Function.update r col value) := by
  obtain ⟨hnull, hrefers, hchecks, -, -⟩ := hvalue
  refine ⟨fun column hmem hrequired => ?_, fun fk hfk => ?_, fun check hmem => ?_⟩
  · by_cases hcol : column.name = col
    · rw [hcol, Function.update_self]
      exact hnull column hmem hcol hrequired
    · rw [Function.update_of_ne hcol]
      exact h.1 column hmem hrequired
  · by_cases hcol : fk.column = col
    · left
      rw [hcol, Function.update_self]
      exact hrefers fk hfk hcol
    · rw [Refers, Function.update_of_ne hcol]
      exact h.2.1 fk hfk
  · exact hchecks check hmem r (h.2.2 check hmem)

theorem admits_assign {rows : List (Row κ ν)} {selects : Row κ ν → Bool}
    {col : κ} (hvalue : table.mayHold col value) (h : table.Admits c rows) :
    table.Admits c (rows.map (assign selects col value)) := by
  refine admits_map h (fun r _ hr => ?_) rfl hvalue.2.2.2.2 fun key hkey col' hcol' r => ?_
  · unfold assign
    split_ifs
    · exact admitsRow_update hvalue hr
    · exact hr
  · refine assign_other _ _ r ?_
    rintro rfl
    exact hvalue.2.2.2.1 key hkey hcol'

def Table.accepts (table : Table τ κ ν) (column : Column κ ν)
    (foreignKey : Option (ForeignKey τ κ)) : Bool :=
  (column.nullable || column.serverDefault.value.isSome) &&
    table.columns.all (fun column' => column'.name ≠ column.name) &&
    table.foreignKeys.all (fun fk => fk.column ≠ column.name) &&
    foreignKey.all fun fk => fk.column = column.name ∧ column.serverDefault.value.isNone

theorem admitsRow_addColumn {column : Column κ ν}
    {foreignKey : Option (ForeignKey τ κ)} {r : Row κ ν} (h : table.AdmitsRow c r)
    (haccepts : table.accepts column foreignKey = true)
    (hchecks : ∀ check ∈ table.checks, check.holds (column.fill r) = check.holds r) :
    ((BatchOp.addColumn column foreignKey).alter table).AdmitsRow c (column.fill r) := by
  simp only [Table.accepts, Bool.and_eq_true, Bool.or_eq_true, List.all_eq_true,
    Option.all_eq_true, decide_eq_true_eq, Option.isNone_iff_eq_none] at haccepts
  obtain ⟨⟨⟨hvalue, hnew⟩, hother⟩, hforeign⟩ := haccepts
  obtain ⟨hnull, hrefer, hcheck⟩ := h
  refine ⟨?_, ?_, fun check hmem => (hchecks check hmem).trans (hcheck check hmem)⟩
  · intro column' hmem hrequired
    obtain hold | hadded := List.mem_append.mp hmem
    · rw [Column.fill, Function.update_of_ne (hnew column' hold)]
      exact hnull column' hold hrequired
    · rw [List.mem_singleton.mp hadded] at hrequired ⊢
      rw [Column.fill, Function.update_self]
      obtain hnullable | hsome := hvalue
      · rw [hnullable] at hrequired
        cases hrequired
      · exact Option.isSome_iff_ne_none.mp hsome
  · intro fk hmem
    obtain hold | hadded := List.mem_append.mp hmem
    · have hsame : column.fill r fk.column = r fk.column :=
        Function.update_of_ne (hother fk hold) _ _
      rw [Refers, hsame]
      exact hrefer fk hold
    · obtain ⟨hcolumn, hnone⟩ := hforeign fk (Option.mem_toList.mp hadded)
      left
      rw [hcolumn, Column.fill, Function.update_self]
      exact hnone

end SchemaMigration
