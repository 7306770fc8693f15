import Marreta.Foundation.Reversal
import Marreta.Migrations.Convergence
import Marreta.Migrations.DesiredTables

namespace Marreta.Migrations

open Foundation

/-! Undoing a migration.

The statements of a migration are executed on tables with columns and named foreign
keys.  A statement has the preconditions of a relational database: what it makes is
not there, and what it refers to or changes is. -/

/-! ## Statements -/

inductive Ddl where
  | createTable (table : String) (columns : List PersistentColumn)
  | dropTable (table : String)
  | addColumn (table : String) (column : PersistentColumn)
  | dropColumn (table column : String)
  | addConstraint (table name : String) (key : PersistentForeignKey)
  | dropConstraint (table name : String)

/-- The statement as it is written. -/
def Ddl.sql : Ddl → Except MarretaError (List Char)
  | .createTable table columns => do
      let defs ← columns.mapM renderPostgresColumn
      return "CREATE TABLE ".toList ++ table.toList ++ " (\n  ".toList ++
        ",\n  ".toList.intercalate defs ++ "\n);".toList
  | .dropTable table => .ok ("DROP TABLE ".toList ++ table.toList ++ ";".toList)
  | .addColumn table column => do
      let definition ← renderPostgresColumn column
      return "ALTER TABLE ".toList ++ table.toList ++ " ADD COLUMN ".toList ++
        definition ++ ";".toList
  | .dropColumn table column =>
      .ok ("ALTER TABLE ".toList ++ table.toList ++ " DROP COLUMN ".toList ++
        column.toList ++ ";".toList)
  | .addConstraint table name key =>
      .ok ("ALTER TABLE ".toList ++ table.toList ++ " ADD CONSTRAINT ".toList ++
        name.toList ++ " FOREIGN KEY (".toList ++ key.columnName.toList ++
        ") REFERENCES ".toList ++ key.referencesTable.toList ++ "(".toList ++
        key.referencesColumn.toList ++ ");".toList)
  | .dropConstraint table name =>
      .ok ("ALTER TABLE ".toList ++ table.toList ++ " DROP CONSTRAINT ".toList ++
        name.toList ++ ";".toList)

def upStatement : MigrationOp → Ddl
  | .createTable table columns => .createTable table columns
  | .addColumn table column => .addColumn table column
  | .addForeignKey table key =>
      .addConstraint table (foreignKeyConstraintName table key.columnName) key

def downStatement : MigrationOp → Ddl
  | .createTable table _ => .dropTable table
  | .addColumn table column => .dropColumn table column.columnName
  | .addForeignKey table key =>
      .dropConstraint table (foreignKeyConstraintName table key.columnName)

theorem renderPostgresUpSql_statements (ops : List MigrationOp) :
    renderPostgresUpSql ops = (ops.map upStatement).mapM Ddl.sql := by
  have same : renderPostgresOp = fun op => (upStatement op).sql := by
    funext op
    cases op <;> rfl
  rw [renderPostgresUpSql, same, List.mapM_map]
  rfl

theorem renderPostgresDownSql_statements (ops : List MigrationOp) :
    renderPostgresDownSql ops = (ops.reverse.map downStatement).mapM Ddl.sql := by
  have same : renderPostgresDownOp = fun op => (downStatement op).sql := by
    funext op
    cases op <;> rfl
  rw [renderPostgresDownSql, same, List.mapM_map]
  rfl

/-! ## Execution -/

def newTable (name : String) (columns : List PersistentColumn) : DatabaseTable where
  name := name
  columns := columns.map columnEntry
  foreignKeys := []

namespace DatabaseSchema

variable (schema : DatabaseSchema)

def column? (table column : String) : Option DatabaseColumn :=
  (schema.table? table).bind fun existing => existing.columns.lookup column

def constraint? (table name : String) : Option DatabaseForeignKey :=
  (schema.table? table).bind fun existing => existing.foreignKeys.lookup name

/-- No foreign key of another table leads to the table. -/
def unreferenced (table : String) : Prop :=
  ∀ entry ∈ schema.tables, entry.1 ≠ table →
    ∀ key ∈ entry.2.foreignKeys, key.2.referencesTable ≠ table

instance (table : String) : Decidable (schema.unreferenced table) :=
  inferInstanceAs (Decidable (∀ _ ∈ _, _ → _))

end DatabaseSchema

/-- Execute a statement whose preconditions hold. -/
def execute (statement : Ddl) (schema : DatabaseSchema) : Option DatabaseSchema :=
  match statement with
  | .createTable table columns =>
      if schema.table? table = none ∧ (columns.map (·.columnName)).Nodup then
        some (schema.putTable table (newTable table columns))
      else none
  | .dropTable table =>
      if (schema.table? table).isSome ∧ schema.unreferenced table then
        some { tables := schema.tables.filter (·.1 ≠ table) }
      else none
  | .addColumn table column => do
      let existing ← schema.table? table
      if existing.columns.lookup column.columnName = none then
        some (schema.putTable table (existing.putColumn (replayedColumn column)))
      else none
  | .dropColumn table column => do
      let existing ← schema.table? table
      if (existing.columns.lookup column).isSome then
        some (schema.putTable table
          { existing with columns := existing.columns.filter (·.1 ≠ column) })
      else none
  | .addConstraint table name key => do
      let existing ← schema.table? table
      if existing.foreignKeys.lookup name = none ∧
          (existing.columns.lookup key.columnName).isSome ∧
          (schema.column? key.referencesTable key.referencesColumn).isSome then
        some (schema.putTable table
          (existing.putForeignKey { replayedKey table key with name := name }))
      else none
  | .dropConstraint table name => do
      let existing ← schema.table? table
      if (existing.foreignKeys.lookup name).isSome then
        some (schema.putTable table
          { existing with foreignKeys := existing.foreignKeys.filter (·.1 ≠ name) })
      else none

def executeUp (op : MigrationOp) : DatabaseSchema → Option DatabaseSchema :=
  execute (upStatement op)

def executeDown (op : MigrationOp) : DatabaseSchema → Option DatabaseSchema :=
  execute (downStatement op)

/-! ## What the statements of an up migration do -/

section Up

variable {schema next : DatabaseSchema} {table : String}

theorem execute_createTable {columns : List PersistentColumn} :
    execute (.createTable table columns) schema = some next ↔
      schema.table? table = none ∧ (columns.map (·.columnName)).Nodup ∧
        schema.putTable table (newTable table columns) = next := by
  rw [execute]
  split
  · rename_i ready
    simp [ready.1, ready.2]
  · rename_i unready
    simp only [reduceCtorEq, false_iff]
    rintro ⟨missing, distinct, -⟩
    exact unready ⟨missing, distinct⟩

theorem execute_addColumn {column : PersistentColumn} :
    execute (.addColumn table column) schema = some next ↔
      ∃ existing, schema.table? table = some existing ∧
        existing.columns.lookup column.columnName = none ∧
        schema.putTable table (existing.putColumn (replayedColumn column)) = next := by
  rw [execute, Option.bind_eq_bind, Option.bind_eq_some_iff]
  simp only [Option.ite_none_right_eq_some, Option.some_inj]

theorem execute_addConstraint {name : String} {key : PersistentForeignKey} :
    execute (.addConstraint table name key) schema = some next ↔
      ∃ existing, schema.table? table = some existing ∧
        (existing.foreignKeys.lookup name = none ∧
          (existing.columns.lookup key.columnName).isSome = true ∧
          (schema.column? key.referencesTable key.referencesColumn).isSome = true) ∧
        schema.putTable table
          (existing.putForeignKey { replayedKey table key with name := name }) = next := by
  rw [execute, Option.bind_eq_bind, Option.bind_eq_some_iff]
  simp only [Option.ite_none_right_eq_some, Option.some_inj]

end Up

/-! ## Resources -/

/-- What a statement can make. -/
inductive Resource where
  | table (name : String)
  | column (table name : String)
  | constraint (table name : String)
deriving DecidableEq

def DatabaseSchema.Has (schema : DatabaseSchema) : Resource → Prop
  | .table name => (schema.table? name).isSome
  | .column table name => (schema.column? table name).isSome
  | .constraint table name => (schema.constraint? table name).isSome

namespace MigrationOp

def provides : MigrationOp → List Resource
  | .createTable table columns => .table table :: columns.map (.column table ·.columnName)
  | .addColumn table column => [.column table column.columnName]
  | .addForeignKey table key => [.constraint table (foreignKeyConstraintName table key.columnName)]

end MigrationOp

theorem lookup_columnEntry (columns : List PersistentColumn) (name : String) :
    (List.lookup name (columns.map columnEntry)).isSome = true ↔
      ∃ column ∈ columns, column.columnName = name :=
  Table.lookup_isSome.trans mem_keys_columnEntry

section Put

variable (schema : DatabaseSchema) (name : String) (table : DatabaseTable) (other item : String)

theorem column?_putTable : (schema.putTable name table).column? other item =
    if other = name then table.columns.lookup item else schema.column? other item := by
  rw [DatabaseSchema.column?, table?_putTable]
  split <;> rfl

theorem constraint?_putTable : (schema.putTable name table).constraint? other item =
    if other = name then table.foreignKeys.lookup item else schema.constraint? other item := by
  rw [DatabaseSchema.constraint?, table?_putTable]
  split <;> rfl

end Put

/-- An operation that is executed adds what it provides, and nothing else. -/
theorem has_execute {op : MigrationOp} {schema next : DatabaseSchema}
    (done : execute (upStatement op) schema = some next) (resource : Resource) :
    next.Has resource ↔ schema.Has resource ∨ resource ∈ op.provides := by
  cases op with
  | createTable table columns =>
      obtain ⟨missing, -, rfl⟩ := (execute_createTable).mp done
      cases resource with
      | table name =>
          simp only [DatabaseSchema.Has, table?_putTable]
          by_cases same : name = table <;> simp [same, MigrationOp.provides]
      | column other name =>
          simp only [DatabaseSchema.Has, column?_putTable]
          by_cases same : other = table
          · simp only [same, if_true, newTable, lookup_columnEntry, MigrationOp.provides,
              DatabaseSchema.column?, missing]
            simp
          · simp [same, Ne.symm same, MigrationOp.provides]
      | constraint other name =>
          simp only [DatabaseSchema.Has, constraint?_putTable]
          by_cases same : other = table
          · simp [same, MigrationOp.provides, DatabaseSchema.constraint?, missing, newTable]
          · simp [same, MigrationOp.provides]
  | addColumn table column =>
      obtain ⟨existing, found, absent, rfl⟩ := (execute_addColumn).mp done
      cases resource with
      | table name =>
          simp only [DatabaseSchema.Has, table?_putTable]
          by_cases same : name = table <;> simp [same, found, MigrationOp.provides]
      | column other name =>
          simp only [DatabaseSchema.Has, column?_putTable]
          by_cases same : other = table
          · simp only [same, if_true, DatabaseTable.putColumn, Table.lookup_put,
              DatabaseSchema.column?, found, MigrationOp.provides, replayedColumn]
            by_cases here : name = column.columnName <;> simp [here]
          · simp [same, MigrationOp.provides]
      | constraint other name =>
          simp only [DatabaseSchema.Has, constraint?_putTable]
          by_cases same : other = table
          · simp [same, MigrationOp.provides, DatabaseSchema.constraint?, found,
              DatabaseTable.putColumn]
          · simp [same, MigrationOp.provides]
  | addForeignKey table key =>
      obtain ⟨existing, found, -, rfl⟩ := (execute_addConstraint).mp done
      cases resource with
      | table name =>
          simp only [DatabaseSchema.Has, table?_putTable]
          by_cases same : name = table <;> simp [same, found, MigrationOp.provides]
      | column other name =>
          simp only [DatabaseSchema.Has, column?_putTable]
          by_cases same : other = table
          · simp [same, MigrationOp.provides, DatabaseSchema.column?, found,
              DatabaseTable.putForeignKey]
          · simp [same, MigrationOp.provides]
      | constraint other name =>
          simp only [DatabaseSchema.Has, constraint?_putTable]
          by_cases same : other = table
          · simp only [same, if_true, DatabaseTable.putForeignKey, Table.lookup_put,
              DatabaseSchema.constraint?, found, MigrationOp.provides]
            by_cases here : name = foreignKeyConstraintName table key.columnName <;> simp [here]
          · simp [same, MigrationOp.provides]

/-- Only foreign keys that are added lead to new tables. -/
theorem references_execute {op : MigrationOp} {schema next : DatabaseSchema}
    (done : execute (upStatement op) schema = some next) (target : String)
    (led : ∃ entry ∈ next.tables, ∃ key ∈ entry.2.foreignKeys, key.2.referencesTable = target) :
    (∃ entry ∈ schema.tables, ∃ key ∈ entry.2.foreignKeys, key.2.referencesTable = target) ∨
      ∃ table key, op = .addForeignKey table key ∧ key.referencesTable = target := by
  obtain ⟨entry, member, key, inside, same⟩ := led
  cases op with
  | createTable table columns =>
      obtain ⟨-, -, rfl⟩ := (execute_createTable).mp done
      rcases Table.mem_put member with rfl | member
      · cases inside
      · exact .inl ⟨entry, member, key, inside, same⟩
  | addColumn table column =>
      obtain ⟨existing, found, -, rfl⟩ := (execute_addColumn).mp done
      rcases Table.mem_put member with rfl | member
      · exact .inl ⟨_, Table.mem_of_lookup found, key, inside, same⟩
      · exact .inl ⟨entry, member, key, inside, same⟩
  | addForeignKey table added =>
      obtain ⟨existing, found, -, rfl⟩ := (execute_addConstraint).mp done
      rcases Table.mem_put member with rfl | member
      · rcases Table.mem_put inside with rfl | inside
        · exact .inr ⟨table, added, rfl, same⟩
        · exact .inl ⟨_, Table.mem_of_lookup found, key, inside, same⟩
      · exact .inl ⟨entry, member, key, inside, same⟩

/-! ## Undoing one statement -/

theorem not_mem_keys_of_lookup {α : Type} {table : Table String α} {key : String}
    (absent : table.lookup key = none) : key ∉ Table.keys table := by
  rw [← Table.lookup_isSome, absent]
  simp

theorem restore {schema : DatabaseSchema} {name : String} {existing : DatabaseTable}
    (found : schema.table? name = some existing) (changed : DatabaseTable) :
    (schema.putTable name changed).putTable name existing = schema := by
  have tables := Table.put_put schema.tables name changed existing
  rw [Table.put_of_lookup found] at tables
  exact congrArg DatabaseSchema.mk tables

/-- A statement is undone, when no foreign key leads to a table it creates. -/
theorem execute_downStatement {op : MigrationOp} {schema next : DatabaseSchema}
    (done : execute (upStatement op) schema = some next)
    (free : ∀ table columns, op = .createTable table columns → schema.unreferenced table) :
    execute (downStatement op) next = some schema := by
  cases op with
  | createTable table columns =>
      obtain ⟨missing, -, rfl⟩ := (execute_createTable).mp done
      have present : ((schema.putTable table (newTable table columns)).table? table).isSome := by
        rw [table?_putTable, if_pos rfl]
        rfl
      have unreferenced : (schema.putTable table (newTable table columns)).unreferenced table := by
        intro entry member other
        rcases Table.mem_put member with rfl | member
        · exact absurd rfl other
        · exact free table columns rfl entry member other
      rw [downStatement, execute, if_pos ⟨present, unreferenced⟩]
      have removed := Table.filter_put (not_mem_keys_of_lookup missing) (newTable table columns)
      exact congrArg (fun tables => some (DatabaseSchema.mk tables)) removed
  | addColumn table column =>
      obtain ⟨existing, found, absent, rfl⟩ := (execute_addColumn).mp done
      have here : (schema.putTable table (existing.putColumn (replayedColumn column))).table? table =
          some (existing.putColumn (replayedColumn column)) := by
        rw [table?_putTable, if_pos rfl]
      have present : ((existing.putColumn (replayedColumn column)).columns.lookup
          column.columnName).isSome := by
        rw [DatabaseTable.putColumn, Table.lookup_put]
        exact congrArg Option.isSome (if_pos rfl)
      have removed : { existing.putColumn (replayedColumn column) with
          columns := (existing.putColumn (replayedColumn column)).columns.filter
            (·.1 ≠ column.columnName) } = existing :=
        congrArg (fun columns => { existing with columns := columns })
          (Table.filter_put (not_mem_keys_of_lookup absent) (replayedColumn column))
      rw [downStatement, execute, here, Option.bind_eq_bind, Option.bind_some, if_pos present,
        removed, restore found]
  | addForeignKey table key =>
      obtain ⟨existing, found, ⟨absent, -, -⟩, rfl⟩ := (execute_addConstraint).mp done
      have here : (schema.putTable table (existing.putForeignKey (replayedKey table key))).table?
          table = some (existing.putForeignKey (replayedKey table key)) := by
        rw [table?_putTable, if_pos rfl]
      have present : ((existing.putForeignKey (replayedKey table key)).foreignKeys.lookup
          (foreignKeyConstraintName table key.columnName)).isSome := by
        rw [DatabaseTable.putForeignKey, Table.lookup_put]
        exact congrArg Option.isSome (if_pos rfl)
      have removed : { existing.putForeignKey (replayedKey table key) with
          foreignKeys := (existing.putForeignKey (replayedKey table key)).foreignKeys.filter
            (·.1 ≠ foreignKeyConstraintName table key.columnName) } = existing :=
        congrArg (fun keys => { existing with foreignKeys := keys })
          (Table.filter_put (not_mem_keys_of_lookup absent) (replayedKey table key))
      change execute (.dropConstraint table _)
        (schema.putTable table (existing.putForeignKey (replayedKey table key))) = some schema
      rw [execute, here, Option.bind_eq_bind, Option.bind_some, if_pos present, removed,
        restore found]

/-! ## The plan -/

variable {schemas : Schemas} {tables : List PersistentTable} {current : DatabaseSchema}

/-- Tables whose foreign keys have a column each, and lead to columns of tables. -/
structure Linked (tables : List PersistentTable) : Prop where
  names : (tables.map (·.tableName)).Nodup
  columns : ∀ table ∈ tables, (table.columns.map (·.columnName)).Nodup
  keys : ∀ table ∈ tables, (table.foreignKeys.map (·.columnName)).Nodup
  column : ∀ table ∈ tables, ∀ key ∈ table.foreignKeys,
    ∃ column ∈ table.columns, column.columnName = key.columnName
  target : ∀ table ∈ tables, ∀ key ∈ table.foreignKeys,
    ∃ target ∈ tables, target.tableName = key.referencesTable ∧
      ∃ column ∈ target.columns, column.columnName = key.referencesColumn

/-- The columns of keys are among the columns of relations. -/
theorem sublist_keyColumns (fields : List SchemaField) :
    ((fields.filterMap (fieldKey schemas)).map (·.columnName)).Sublist
      ((fields.filterMap fieldColumn).map (·.columnName)) := by
  induction fields with
  | nil => exact .slnil
  | cons field fields induction =>
      rw [filterMap_cons_toList, filterMap_cons_toList, List.map_append, List.map_append]
      apply List.Sublist.append _ induction
      cases known : fieldKey schemas field with
      | none => exact List.nil_sublist _
      | some key =>
          obtain ⟨target, definition, targetTable, kind, -, -, rfl⟩ := mem_fieldKey known
          simp [fieldColumn, kind, relationColumn, relationKey]

theorem linked_of_built (built : buildPersistentTables schemas = .ok tables)
    (names : (tables.map (·.tableName)).Nodup)
    (columns : ∀ table ∈ tables, (table.columns.map (·.columnName)).Nodup) : Linked tables where
  names := names
  columns := columns
  keys := by
    intro table member
    have distinct := columns table member
    rw [buildPersistentTables_eq built] at member
    obtain ⟨entry, -, tableName, -, rfl⟩ := mem_storedTables.mp member
    exact (sublist_keyColumns entry.2.fields).nodup distinct
  column := by
    intro table member key known
    rw [buildPersistentTables_eq built] at member
    obtain ⟨entry, -, tableName, -, rfl⟩ := mem_storedTables.mp member
    exact List.mem_map.mp (storedTable_key known).1
  target := by
    intro table member key known
    have same := buildPersistentTables_eq built
    rw [same] at member
    obtain ⟨entry, -, tableName, -, rfl⟩ := mem_storedTables.mp member
    obtain ⟨field, -, found⟩ := List.mem_filterMap.mp known
    obtain ⟨target, definition, targetTable, -, looked, stored, rfl⟩ := mem_fieldKey found
    have listed := Table.mem_of_lookup looked
    refine ⟨storedTable schemas target targetTable definition.fields, ?_, rfl, ?_⟩
    · rw [same]
      exact mem_storedTables.mpr ⟨(target, definition), listed, targetTable, stored, rfl⟩
    · -- Every persistent schema has an `id`.
      obtain ⟨column, primary, named⟩ :=
        primary_columns (validateIdField_of_built built listed stored)
      have inside : column ∈ (definition.fields.filterMap fieldColumn).filter (·.primary) := by
        rw [primary]
        exact List.mem_singleton_self column
      exact ⟨column, (List.mem_filter.mp inside).1, named⟩

/-- The operations of one table. -/
def tableOps (current : DatabaseSchema) (table : PersistentTable) : List MigrationOp :=
  createOps current table ++ addColumnOps current table ++ addForeignKeyOps current table

theorem mem_planMigration {op : MigrationOp} (member : op ∈ planMigration current tables) :
    ∃ table ∈ tables, op ∈ tableOps current table ∧ op.tableName = table.tableName := by
  simp only [planMigration, List.mem_append, List.mem_flatMap, List.mem_mergeSort] at member
  rcases member with (⟨table, known, inside⟩ | ⟨table, known, inside⟩) | ⟨table, known, inside⟩
  · exact ⟨table, known, by simp [tableOps, inside], tableName_createOps op inside⟩
  · exact ⟨table, known, by simp [tableOps, inside], tableName_addColumnOps op inside⟩
  · exact ⟨table, known, by simp [tableOps, inside], tableName_addForeignKeyOps op inside⟩

theorem provides_addColumn (name : String) (columns : List PersistentColumn) :
    (columns.map (MigrationOp.addColumn name)).flatMap MigrationOp.provides =
      (columns.map (·.columnName)).map (Resource.column name) := by
  induction columns with
  | nil => rfl
  | cons column columns induction => exact congrArg (_ :: ·) induction

theorem provides_addForeignKey (name : String) (keys : List PersistentForeignKey) :
    (keys.map (MigrationOp.addForeignKey name)).flatMap MigrationOp.provides =
      (keys.map (·.columnName)).map fun column =>
        Resource.constraint name (foreignKeyConstraintName name column) := by
  induction keys with
  | nil => rfl
  | cons key keys induction => exact congrArg (_ :: ·) induction

theorem nodup_columns (name : String) {columns : List String} (distinct : columns.Nodup) :
    (columns.map (Resource.column name)).Nodup :=
  distinct.map fun _ _ same => (Resource.column.inj same).2

theorem nodup_constraints (name : String) {columns : List String} (distinct : columns.Nodup) :
    (columns.map fun column =>
      Resource.constraint name (foreignKeyConstraintName name column)).Nodup := by
  apply distinct.map
  intro one other same
  have names := (Resource.constraint.inj same).2
  exact String.append_right_inj _ |>.mp names

/-- The operations of a table make different things. -/
theorem nodup_provides (linked : Linked tables) {table : PersistentTable}
    (member : table ∈ tables) :
    ((tableOps current table).flatMap MigrationOp.provides).Nodup := by
  have columns := linked.columns table member
  have keys := linked.keys table member
  unfold tableOps createOps addColumnOps addForeignKeyOps
  cases current.table? table.tableName with
  | none =>
      simp only [List.append_nil, List.flatMap_append, provides_addForeignKey]
      rw [List.nodup_append]
      refine ⟨?_, nodup_constraints _ keys, ?_⟩
      · have distinct := nodup_columns table.tableName columns
        rw [List.map_map] at distinct
        simpa [MigrationOp.provides, Function.comp_def] using distinct
      · simp [MigrationOp.provides]
  | some existing =>
      simp only [List.nil_append, List.flatMap_append, provides_addColumn,
        provides_addForeignKey]
      rw [List.nodup_append]
      refine ⟨nodup_columns _ ?_, nodup_constraints _ ?_, ?_⟩
      · exact (List.filter_sublist.map _).nodup columns
      · exact (List.filter_sublist.map _).nodup keys
      · intro one first other second
        obtain ⟨column, -, rfl⟩ := List.mem_map.mp first
        obtain ⟨key, -, rfl⟩ := List.mem_map.mp second
        exact Resource.noConfusion

/-- What an operation makes is not there before the migration. -/
theorem fresh_tableOps {table : PersistentTable} {op : MigrationOp}
    (member : op ∈ tableOps current table) {resource : Resource}
    (provided : resource ∈ op.provides) : ¬ current.Has resource := by
  unfold tableOps createOps addColumnOps addForeignKeyOps at member
  cases found : current.table? table.tableName with
  | none =>
      simp only [found, List.append_nil, List.mem_append, List.mem_singleton, List.mem_map]
        at member
      rcases member with rfl | ⟨key, -, rfl⟩
      · rcases List.mem_cons.mp provided with rfl | provided
        · simp [DatabaseSchema.Has, found]
        · obtain ⟨column, -, rfl⟩ := List.mem_map.mp provided
          simp [DatabaseSchema.Has, DatabaseSchema.column?, found]
      · obtain rfl := List.mem_singleton.mp provided
        simp [DatabaseSchema.Has, DatabaseSchema.constraint?, found]
  | some existing =>
      simp only [found, List.nil_append, List.mem_append, List.mem_map, List.mem_filter]
        at member
      rcases member with ⟨column, ⟨-, absent⟩, rfl⟩ | ⟨key, ⟨-, absent⟩, rfl⟩
      · obtain rfl := List.mem_singleton.mp provided
        rw [Option.isNone_iff_eq_none] at absent
        simp [DatabaseSchema.Has, DatabaseSchema.column?, found, absent]
      · obtain rfl := List.mem_singleton.mp provided
        rw [Option.isNone_iff_eq_none] at absent
        simp [DatabaseSchema.Has, DatabaseSchema.constraint?, found, absent]

/-- Foreign keys come after the tables and columns of all tables. -/
theorem mem_before_foreignKey {before after : List MigrationOp} {name : String}
    {key : PersistentForeignKey}
    (split : planMigration current tables = before ++ .addForeignKey name key :: after)
    {table : PersistentTable} (member : table ∈ tables) {op : MigrationOp}
    (earlier : op ∈ createOps current table ∨ op ∈ addColumnOps current table) :
    op ∈ before := by
  have sorted : table ∈ tables.mergeSort fun one other => one.tableName ≤ other.tableName :=
    List.mem_mergeSort.mpr member
  rw [planMigration] at split
  generalize (tables.mergeSort fun one other => one.tableName ≤ other.tableName) = order
    at split sorted
  have inside : op ∈ order.flatMap (createOps current) ++ order.flatMap (addColumnOps current) := by
    rw [List.mem_append, List.mem_flatMap, List.mem_flatMap]
    exact earlier.imp (fun inside => ⟨table, sorted, inside⟩) fun inside => ⟨table, sorted, inside⟩
  have other : MigrationOp.addForeignKey name key ∉
      order.flatMap (createOps current) ++ order.flatMap (addColumnOps current) := by
    rw [List.mem_append, List.mem_flatMap, List.mem_flatMap]
    rintro (⟨table, -, inside⟩ | ⟨table, -, inside⟩)
    · unfold createOps at inside
      split at inside
      · cases List.mem_singleton.mp inside
      · cases inside
    · unfold addColumnOps at inside
      split at inside
      · cases inside
      · obtain ⟨column, -, same⟩ := List.mem_map.mp inside
        cases same
  rcases List.append_eq_append_iff.mp split with ⟨more, longer, -⟩ | ⟨more, longer, rest⟩
  · rw [longer]
    exact List.mem_append_left _ inside
  · cases more with
    | nil =>
        rw [List.append_nil] at longer
        rwa [← longer]
    | cons first more =>
        obtain ⟨rfl, -⟩ := List.cons.inj rest
        exact absurd (by rw [longer]; simp) other

/-- Everything a table stores is there, or is made before the foreign keys. -/
theorem available {before after : List MigrationOp} {name : String} {key : PersistentForeignKey}
    (split : planMigration current tables = before ++ .addForeignKey name key :: after)
    {table : PersistentTable} (member : table ∈ tables) {resource : Resource}
    (wanted : resource = .table table.tableName ∨
      ∃ column ∈ table.columns, resource = .column table.tableName column.columnName) :
    current.Has resource ∨ ∃ earlier ∈ before, resource ∈ earlier.provides := by
  cases found : current.table? table.tableName with
  | none =>
      have created : MigrationOp.createTable table.tableName table.columns ∈ before := by
        apply mem_before_foreignKey split member
        simp [createOps, found]
      refine .inr ⟨_, created, ?_⟩
      rcases wanted with rfl | ⟨column, inside, rfl⟩
      · exact List.mem_cons_self
      · exact List.mem_cons_of_mem _ (List.mem_map.mpr ⟨column, inside, rfl⟩)
  | some existing =>
      rcases wanted with rfl | ⟨column, inside, rfl⟩
      · exact .inl (by simp [DatabaseSchema.Has, found])
      · cases known : existing.columns.lookup column.columnName with
        | some old => exact .inl (by simp [DatabaseSchema.Has, DatabaseSchema.column?, found, known])
        | none =>
            have added : MigrationOp.addColumn table.tableName column ∈ before := by
              apply mem_before_foreignKey split member (.inr ?_)
              simp only [addColumnOps, found]
              exact List.mem_map.mpr
                ⟨column, List.mem_filter.mpr ⟨inside, by rw [known]; rfl⟩, rfl⟩
            exact .inr ⟨_, added, List.mem_singleton_self _⟩

def Resource.tableName : Resource → String
  | .table name | .column name _ | .constraint name _ => name

theorem tableName_of_provides {op : MigrationOp} {resource : Resource}
    (provided : resource ∈ op.provides) : resource.tableName = op.tableName := by
  cases op with
  | createTable table columns =>
      rcases List.mem_cons.mp provided with rfl | provided
      · rfl
      · obtain ⟨column, -, rfl⟩ := List.mem_map.mp provided
        rfl
  | addColumn table column =>
      obtain rfl := List.mem_singleton.mp provided
      rfl
  | addForeignKey table key =>
      obtain rfl := List.mem_singleton.mp provided
      rfl

/-- No two operations of a plan make the same thing. -/
theorem not_provided_before (linked : Linked tables) {before after : List MigrationOp}
    {op : MigrationOp} (split : planMigration current tables = before ++ op :: after)
    {resource : Resource} (provided : resource ∈ op.provides) :
    ∀ earlier ∈ before, resource ∉ earlier.provides := by
  intro earlier inside again
  obtain ⟨table, member, -, own⟩ : ∃ table ∈ tables, op ∈ tableOps current table ∧
      op.tableName = table.tableName := by
    apply mem_planMigration
    rw [split]
    simp
  have same : earlier.tableName = table.tableName := by
    rw [← tableName_of_provides again, tableName_of_provides provided, own]
  have distinct := @nodup_provides tables current linked table member
  have filtered := @filter_planMigration_of_mem current tables table linked.names member
  rw [split, List.filter_append, List.filter_cons_of_pos (by simpa using own)] at filtered
  rw [tableOps, ← filtered, List.flatMap_append, List.nodup_append] at distinct
  refine distinct.2.2 resource ?_ resource ?_ rfl
  · exact List.mem_flatMap.mpr ⟨earlier, by simp [inside, same], again⟩
  · exact List.mem_flatMap.mpr ⟨op, List.mem_cons_self, provided⟩

/-- What is there when a step of a plan is reached. -/
theorem has_of_run {before : List MigrationOp} {schema : DatabaseSchema}
    (run : executeAll executeUp before current = some schema)
    (resource : Resource) :
    schema.Has resource ↔
      current.Has resource ∨ ∃ earlier ∈ before, resource ∈ earlier.provides := by
  have step : ∀ op state next, executeUp op state = some next →
      (next.Has resource ↔ state.Has resource ∨ resource ∈ op.provides) :=
    fun op state next done => has_execute done resource
  constructor
  · exact gained_of_executeAll (fun op state next done => (step op state next done).mp) run
  · exact kept_of_executeAll (fun op state next done => (step op state next done).mpr) run

/-- An operation of a table is about its columns and its keys. -/
theorem mem_tableOps {table : PersistentTable} {op : MigrationOp}
    (member : op ∈ tableOps current table) :
    op = .createTable table.tableName table.columns ∨
    (∃ column, op = .addColumn table.tableName column ∧
      (current.table? table.tableName).isSome) ∨
    ∃ key ∈ table.foreignKeys, op = .addForeignKey table.tableName key := by
  unfold tableOps createOps addColumnOps addForeignKeyOps at member
  cases found : current.table? table.tableName with
  | none =>
      simp only [found, List.append_nil, List.mem_append, List.mem_singleton, List.mem_map]
        at member
      rcases member with rfl | ⟨key, known, rfl⟩
      · exact .inl rfl
      · exact .inr (.inr ⟨key, known, rfl⟩)
  | some existing =>
      simp only [found, List.nil_append, List.mem_append, List.mem_map, List.mem_filter]
        at member
      rcases member with ⟨column, -, rfl⟩ | ⟨key, ⟨known, -⟩, rfl⟩
      · exact .inr (.inl ⟨column, rfl, rfl⟩)
      · exact .inr (.inr ⟨key, known, rfl⟩)

/-- No foreign key leads to a table when it is created. -/
theorem unreferenced_of_run
    (closed : ∀ entry ∈ current.tables, ∀ key ∈ entry.2.foreignKeys,
      current.table? key.2.referencesTable = none →
        key.2.referencesTable ∉ tables.map (·.tableName))
    {table : PersistentTable} (member : table ∈ tables)
    (missing : current.table? table.tableName = none)
    {before : List MigrationOp} {schema : DatabaseSchema}
    (run : executeAll executeUp before current = some schema)
    (first : ∀ name key, .addForeignKey name key ∉ before) :
    schema.unreferenced table.tableName := by
  intro entry known _ key inside led
  have step : ∀ op state next, executeUp op state = some next →
      (∃ entry ∈ next.tables, ∃ key ∈ entry.2.foreignKeys,
        key.2.referencesTable = table.tableName) →
      (∃ entry ∈ state.tables, ∃ key ∈ entry.2.foreignKeys,
        key.2.referencesTable = table.tableName) ∨
      ∃ name key, op = .addForeignKey name key ∧ key.referencesTable = table.tableName :=
    fun op state next done => references_execute done table.tableName
  rcases gained_of_executeAll step run ⟨entry, known, key, inside, led⟩ with
    ⟨entry, known, key, inside, led⟩ | ⟨op, earlier, name, key, rfl, -⟩
  · have outside := closed entry known key inside (by rw [led]; exact missing)
    rw [led] at outside
    exact outside (List.mem_map.mpr ⟨table, member, rfl⟩)
  · exact first name key earlier

/-- The steps of a plan, one after another. -/
theorem execute_plan (linked : Linked tables)
    (closed : ∀ entry ∈ current.tables, ∀ key ∈ entry.2.foreignKeys,
      current.table? key.2.referencesTable = none →
        key.2.referencesTable ∉ tables.map (·.tableName))
    {before after : List MigrationOp} {op : MigrationOp}
    (split : planMigration current tables = before ++ op :: after) {schema : DatabaseSchema}
    (run : executeAll executeUp before current = some schema) :
    ∃ next, executeUp op schema = some next ∧ executeDown op next = some schema := by
  obtain ⟨table, member, inside, own⟩ : ∃ table ∈ tables, op ∈ tableOps current table ∧
      op.tableName = table.tableName := by
    apply mem_planMigration
    rw [split]
    simp
  have has := has_of_run run
  have fresh : ∀ resource ∈ op.provides, ¬ schema.Has resource := by
    intro resource provided there
    rcases (has resource).mp there with before | ⟨earlier, known, again⟩
    · exact fresh_tableOps inside provided before
    · exact not_provided_before linked split provided earlier known again
  have undone : ∀ next, executeUp op schema = some next →
      (∀ name columns, op = .createTable name columns → schema.unreferenced name) →
      ∃ next, executeUp op schema = some next ∧ executeDown op next = some schema :=
    fun next done free => ⟨next, done, execute_downStatement done free⟩
  rcases mem_tableOps inside with rfl | ⟨column, rfl, created⟩ | ⟨key, known, rfl⟩
  · have missing : schema.table? table.tableName = none := by
      have absent := fresh (.table table.tableName) List.mem_cons_self
      exact Option.not_isSome_iff_eq_none.mp absent
    refine undone _ ((execute_createTable).mpr ⟨missing, linked.columns table member, rfl⟩) ?_
    intro other columns same
    obtain ⟨rfl, rfl⟩ := MigrationOp.createTable.inj same
    have absent : current.table? table.tableName = none := by
      have absent := @fresh_tableOps current table _ inside (.table table.tableName) List.mem_cons_self
      exact Option.not_isSome_iff_eq_none.mp absent
    apply unreferenced_of_run closed member absent run
    intro name key earlier
    -- A foreign key before the table would have the table created before it.
    obtain ⟨start, stop, parts⟩ := List.append_of_mem earlier
    have cut : planMigration current tables = start ++ .addForeignKey name key ::
        (stop ++ .createTable table.tableName table.columns :: after) := by
      rw [split, parts, List.append_assoc, List.cons_append]
    have again : MigrationOp.createTable table.tableName table.columns ∈ start :=
      mem_before_foreignKey cut member (.inl (by rw [createOps, absent]; simp))
    exact fresh (.table table.tableName) List.mem_cons_self ((has _).mpr
      (.inr ⟨_, by rw [parts]; exact List.mem_append_left _ again, List.mem_cons_self⟩))
  · have present : schema.Has (.table table.tableName) := (has _).mpr (.inl created)
    obtain ⟨existing, found⟩ := Option.isSome_iff_exists.mp present
    have absent := fresh (.column table.tableName column.columnName) (List.mem_singleton_self _)
    have missing : schema.column? table.tableName column.columnName = none :=
      Option.not_isSome_iff_eq_none.mp absent
    rw [DatabaseSchema.column?, found] at missing
    exact undone _ ((execute_addColumn).mpr ⟨existing, found, missing, rfl⟩)
      fun _ _ same => by cases same
  · have present : schema.Has (.table table.tableName) :=
      (has _).mpr (available split member (.inl rfl))
    obtain ⟨existing, found⟩ := Option.isSome_iff_exists.mp present
    have absent := fresh (.constraint table.tableName _) (List.mem_singleton_self _)
    have missing : schema.constraint? table.tableName
        (foreignKeyConstraintName table.tableName key.columnName) = none :=
      Option.not_isSome_iff_eq_none.mp absent
    obtain ⟨column, columnKnown, sameColumn⟩ := linked.column table member key known
    have own : schema.Has (.column table.tableName column.columnName) :=
      (has _).mpr (available split member (.inr ⟨column, columnKnown, rfl⟩))
    obtain ⟨target, targetMember, sameTable, targetColumn, targetKnown, sameTarget⟩ :=
      linked.target table member key known
    have reached : schema.Has (.column target.tableName targetColumn.columnName) :=
      (has _).mpr (available split targetMember (.inr ⟨targetColumn, targetKnown, rfl⟩))
    rw [DatabaseSchema.constraint?, found] at missing
    rw [DatabaseSchema.Has, sameColumn, DatabaseSchema.column?, found] at own
    rw [DatabaseSchema.Has, sameTable, sameTarget] at reached
    exact undone _ ((execute_addConstraint).mpr ⟨existing, found, ⟨missing, own, reached⟩, rfl⟩)
      fun _ _ same => by cases same

/-- The statements of an up migration and then those of its down migration run, and
leave the tables as they were, unless a foreign key led to a table that the up migration
creates. -/
theorem down_undoes_up {schemas : Schemas} {tables : List PersistentTable}
    (built : buildPersistentTables schemas = .ok tables)
    (names : (tables.map (·.tableName)).Nodup)
    (columns : ∀ table ∈ tables, (table.columns.map (·.columnName)).Nodup)
    (current : DatabaseSchema)
    (closed : ∀ entry ∈ current.tables, ∀ key ∈ entry.2.foreignKeys,
      current.table? key.2.referencesTable = none →
        key.2.referencesTable ∉ tables.map (·.tableName)) :
    let ops := planMigration current tables
    renderPostgresUpSql ops = (ops.map upStatement).mapM Ddl.sql ∧
    renderPostgresDownSql ops = (ops.reverse.map downStatement).mapM Ddl.sql ∧
    ∃ after, executeAll execute (ops.map upStatement) current = some after ∧
      executeAll execute (ops.reverse.map downStatement) after = some current := by
  intro ops
  refine ⟨renderPostgresUpSql_statements ops, renderPostgresDownSql_statements ops, ?_⟩
  simp only [executeAll_map]
  apply executeAll_reverse
  intro before op after split schema run
  exact execute_plan (linked_of_built built names columns) closed split run

/-- Users with an address, from nothing. -/
theorem down_undoes_up_addressSchemas :
    let tables := storedTables (addressSchemas "age") (addressSchemas "age")
    let ops := planMigration noTables tables
    ∃ after, executeAll execute (ops.map upStatement) noTables = some after ∧
      executeAll execute (ops.reverse.map downStatement) after = some noTables :=
  (@down_undoes_up (addressSchemas "age") _ rfl (by decide) (by decide) noTables
    (fun _ none => nomatch none)).2.2

/-- Invoices with a foreign key to orders, which are not there. -/
def danglingSchema : DatabaseSchema where
  tables := [("invoices", { DatabaseTable.new "invoices" with
    foreignKeys := [("fk", {
      name := "fk", columnName := "order_id", referencesTable := "orders"
      referencesColumn := "id" })] })]

/-- The table that is created cannot be dropped. -/
theorem danglingSchema_not_undone :
    let ops := planMigration danglingSchema [textTable "note"]
    buildPersistentTables (textSchema "note") = .ok [textTable "note"] ∧
    ∃ after, executeAll execute (ops.map upStatement) danglingSchema = some after ∧
      executeAll execute (ops.reverse.map downStatement) after = none := by
  intro ops
  have plan : ops = [.createTable "orders" (textTable "note").columns] := by decide +kernel
  rw [plan]
  exact ⟨by decide, _, rfl, by decide +kernel⟩

end Marreta.Migrations
