import Mathlib.Data.List.Pairwise
import Mathlib.Logic.Function.Basic

/-! Tables with constraints, the statements of a migration, and what they do to the rows.
A batch that changes more than SQLite can alter in place copies the table, drops it and
renames the copy. With foreign keys enforced the drop deletes the rows first, so the actions
of the tables that refer to it fire. -/
namespace SchemaMigration

variable {τ κ ν : Type*}

/-- A row, `none` for null. It is null at the columns its table does not have. -/
abbrev Row (κ ν : Type*) := κ → Option ν

abbrev Content (τ κ ν : Type*) := τ → List (Row κ ν)

inductive OnDelete where
  | cascade
  | setNull
  deriving DecidableEq

structure ForeignKey (τ κ : Type*) where
  column : κ
  parent : τ
  parentColumn : κ
  onDelete : OnDelete
  deriving DecidableEq

inductive ServerDefault (ν : Type*) where
  | absent
  | literal (v : ν)
  | expression (v : ν)

def ServerDefault.value : ServerDefault ν → Option ν
  | .absent => none
  | .literal v | .expression v => some v

structure Column (κ ν : Type*) where
  name : κ
  nullable : Bool
  serverDefault : ServerDefault ν

/-- `holds` is false where the condition is false; null passes. -/
structure Check (κ ν : Type*) where
  name : String
  holds : Row κ ν → Bool

/-- The primary key is the first of the keys. `singles` are the partial unique indexes: at
most one row has the value. -/
structure Table (τ κ ν : Type*) where
  columns : List (Column κ ν)
  keys : List (List κ)
  foreignKeys : List (ForeignKey τ κ)
  checks : List (Check κ ν)
  singles : List (κ × ν)

abbrev Schema (τ κ ν : Type*) := List (τ × Table τ κ ν)

section

variable [DecidableEq κ] [DecidableEq ν]

/-- The two rows collide on a key: equal and not null in all its columns. -/
def Collide (key : List κ) (r r' : Row κ ν) : Prop := ∀ col ∈ key, r col ≠ none ∧ r col = r' col

instance (key : List κ) (r r' : Row κ ν) : Decidable (Collide key r r') :=
  inferInstanceAs (Decidable (∀ col ∈ key, r col ≠ none ∧ r col = r' col))

def Single (col : κ) (v : ν) (rows : List (Row κ ν)) : Prop :=
  rows.Pairwise fun r r' => ¬ (r col = some v ∧ r' col = some v)

instance (col : κ) (v : ν) (rows : List (Row κ ν)) : Decidable (Single col v rows) :=
  inferInstanceAs (Decidable (rows.Pairwise fun r r' => ¬ (r col = some v ∧ r' col = some v)))

/-- The value of the key is null or a value of the parent. -/
def Refers (c : Content τ κ ν) (fk : ForeignKey τ κ) (r : Row κ ν) : Prop :=
  r fk.column = none ∨ ∃ p ∈ c fk.parent, p fk.parentColumn = r fk.column

instance (c : Content τ κ ν) (fk : ForeignKey τ κ) (r : Row κ ν) : Decidable (Refers c fk r) :=
  inferInstanceAs (Decidable (r fk.column = none ∨ ∃ p ∈ c fk.parent, p fk.parentColumn = _))

/-- The constraints on a single row. -/
def Table.AdmitsRow (table : Table τ κ ν) (c : Content τ κ ν) (r : Row κ ν) : Prop :=
  (∀ column ∈ table.columns, column.nullable = false → r column.name ≠ none) ∧
    (∀ fk ∈ table.foreignKeys, Refers c fk r) ∧ ∀ check ∈ table.checks, check.holds r = true

instance (table : Table τ κ ν) (c : Content τ κ ν) (r : Row κ ν) :
    Decidable (table.AdmitsRow c r) :=
  inferInstanceAs (Decidable (_ ∧ _ ∧ _))

/-- The rows meet the constraints of the table. -/
def Table.Admits (table : Table τ κ ν) (c : Content τ κ ν) (rows : List (Row κ ν)) : Prop :=
  (∀ r ∈ rows, table.AdmitsRow c r) ∧
    (∀ key ∈ table.keys, rows.Pairwise fun r r' => ¬ Collide key r r') ∧
    ∀ single ∈ table.singles, Single single.1 single.2 rows

instance (table : Table τ κ ν) (c : Content τ κ ν) (rows : List (Row κ ν)) :
    Decidable (table.Admits c rows) :=
  inferInstanceAs (Decidable (_ ∧ _ ∧ _))

variable [DecidableEq τ]

structure Valid (s : Schema τ κ ν) (c : Content τ κ ν) : Prop where
  missing : ∀ t, s.lookup t = none → c t = []
  admitted : ∀ t table, s.lookup t = some table → table.Admits c (c t)
  absent : ∀ t table, s.lookup t = some table → ∀ r ∈ c t, ∀ col,
    col ∉ table.columns.map Column.name → r col = none

/-- The row referred to a row of `c₀` and refers to none of `c`. -/
def Orphaned (c₀ c : Content τ κ ν) (fk : ForeignKey τ κ) (r : Row κ ν) : Prop :=
  Refers c₀ fk r ∧ ¬ Refers c fk r

instance (c₀ c : Content τ κ ν) (fk : ForeignKey τ κ) (r : Row κ ν) :
    Decidable (Orphaned c₀ c fk r) :=
  inferInstanceAs (Decidable (_ ∧ _))

def Table.cascades (table : Table τ κ ν) (c₀ c : Content τ κ ν) (r : Row κ ν) : Bool :=
  table.foreignKeys.any fun fk => fk.onDelete = .cascade ∧ Orphaned c₀ c fk r

def Table.setsNull (table : Table τ κ ν) (c₀ c : Content τ κ ν) (r : Row κ ν) : Row κ ν :=
  fun col => if table.foreignKeys.any (fun fk =>
    fk.onDelete = .setNull ∧ fk.column = col ∧ Orphaned c₀ c fk r) then none else r col

/-- The actions of every table on the rows of `c₀` that are gone. -/
def sweep (s : Schema τ κ ν) (c₀ c : Content τ κ ν) : Content τ κ ν := fun t =>
  match s.lookup t with
  | none => c t
  | some table =>
    ((c t).filter fun r => !table.cascades c₀ c r).map fun r => table.setsNull c₀ c r

def settle (s : Schema τ κ ν) (c₀ : Content τ κ ν) : ℕ → Content τ κ ν → Content τ κ ν
  | 0, c => c
  | n + 1, c => settle s c₀ n (sweep s c₀ c)

/-- A chain of references without a cycle passes every table at most once, so as many sweeps
as there are tables carry a deletion to its end. -/
def dropRows (s : Schema τ κ ν) (c : Content τ κ ν) (t : τ) : Content τ κ ν :=
  settle s c s.length (Function.update c t [])

inductive BatchOp (τ κ ν : Type*) where
  | addColumn (column : Column κ ν) (foreignKey : Option (ForeignKey τ κ))
  | alterDefault (column : κ) (serverDefault : ServerDefault ν)
  | createUniqueConstraint (key : List κ)
  | createCheckConstraint (check : Check κ ν)
  | dropConstraint (name : String)
  | createForeignKey (foreignKey : ForeignKey τ κ)
  | createIndex (columns : List κ)

inductive Statement (τ κ ν : Type*) where
  | createTable (t : τ) (table : Table τ κ ν)
  | addColumn (t : τ) (column : Column κ ν)
  | dropColumn (t : τ) (col : κ)
  | batchAlterTable (t : τ) (recreate : Bool) (ops : List (BatchOp τ κ ν))
  | createIndex (t : τ) (columns : List κ)
  | createSingleIndex (t : τ) (col : κ) (v : ν)
  | update (t : τ) (col : κ) (value : Option ν) (selects : Content τ κ ν → Row κ ν → Bool)

def Column.fill (column : Column κ ν) (r : Row κ ν) : Row κ ν :=
  Function.update r column.name column.serverDefault.value

/-- `SET col = value` where the row is selected. -/
def assign (selects : Row κ ν → Bool) (col : κ) (value : Option ν) (r : Row κ ν) : Row κ ν :=
  if selects r then Function.update r col value else r

namespace BatchOp

/-- What the batch mode does not leave to `ALTER TABLE`. -/
def requiresRecreate : BatchOp τ κ ν → Bool
  | addColumn column foreignKey =>
    foreignKey.isSome || match column.serverDefault with
      | .expression _ => true
      | _ => false
  | createIndex _ => false
  | _ => true

def fill (r : Row κ ν) : BatchOp τ κ ν → Row κ ν
  | addColumn column _ => column.fill r
  | _ => r

def alter (table : Table τ κ ν) : BatchOp τ κ ν → Table τ κ ν
  | addColumn column foreignKey => { table with
      columns := table.columns ++ [column]
      foreignKeys := table.foreignKeys ++ foreignKey.toList }
  | alterDefault col serverDefault => { table with
      columns := table.columns.map fun column =>
        if column.name = col then { column with serverDefault := serverDefault } else column }
  | createUniqueConstraint key => { table with keys := table.keys ++ [key] }
  | createCheckConstraint check => { table with checks := table.checks ++ [check] }
  | dropConstraint name => { table with checks := table.checks.filter fun ck => ck.name != name }
  | createForeignKey foreignKey => { table with foreignKeys := table.foreignKeys ++ [foreignKey] }
  | createIndex _ => table

end BatchOp

def Schema.modify (s : Schema τ κ ν) (t : τ) (f : Table τ κ ν → Table τ κ ν) : Schema τ κ ν :=
  s.map fun entry => if entry.1 = t then (entry.1, f entry.2) else entry

namespace Statement

def alter (s : Schema τ κ ν) : Statement τ κ ν → Schema τ κ ν
  | createTable t table => s ++ [(t, table)]
  | addColumn t column =>
    s.modify t fun table => { table with columns := table.columns ++ [column] }
  | dropColumn t col => s.modify t fun table =>
      { table with columns := table.columns.filter fun column => column.name ≠ col }
  | batchAlterTable t _ ops => s.modify t fun table => ops.foldl BatchOp.alter table
  | createIndex _ _ => s
  | createSingleIndex t col v =>
    s.modify t fun table => { table with singles := table.singles ++ [(col, v)] }
  | update _ _ _ _ => s

def exec (s : Schema τ κ ν) (c : Content τ κ ν) : Statement τ κ ν → Option (Content τ κ ν)
  | createTable t _ => some (Function.update c t [])
  | addColumn t column => some (Function.update c t ((c t).map column.fill))
  | dropColumn t col =>
    some (Function.update c t ((c t).map fun r => Function.update r col none))
  | batchAlterTable t recreate ops =>
    let copied := (c t).map fun r => ops.foldl BatchOp.fill r
    if recreate || ops.any BatchOp.requiresRecreate then
      match s.lookup t with
      | none => none
      | some table =>
        if (ops.foldl BatchOp.alter table).Admits c copied then
          some (Function.update (dropRows s c t) t copied)
        else none
    else some (Function.update c t copied)
  | createIndex _ _ => some c
  | createSingleIndex t col v => if Single col v (c t) then some c else none
  | update t col value selects =>
    let rows := (c t).map (assign (selects c) col value)
    match s.lookup t with
    | none => none
    | some table => if table.Admits c rows then some (Function.update c t rows) else none

end Statement

def Statement.step (d : Schema τ κ ν × Content τ κ ν) (st : Statement τ κ ν) :
    Option (Schema τ κ ν × Content τ κ ν) :=
  (st.exec d.1 d.2).map fun c' => (st.alter d.1, c')

end

end SchemaMigration
