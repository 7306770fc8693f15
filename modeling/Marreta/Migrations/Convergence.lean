import Marreta.Migrations.Statements
import Marreta.Project.Loading

namespace Marreta.Migrations

open Foundation (Table bind_eq_ok Ensures)

/-! Generating twice.

After the migration that a plan leads to, there should be nothing left to plan.  The
tables are followed one at a time: an operation changes its own table, and the plan
holds the operations of one table next to each other. -/

/-! ## Readable tables -/

/-- The names of tables and fields are words. -/
def NamesRead (schemas : Schemas) : Prop :=
  ∀ entry ∈ schemas, (∀ tableName ∈ entry.2.dbTable, IsName tableName.toList) ∧
    ∀ field ∈ entry.2.fields, IsName field.name.toList

/-- A table whose operations can be rendered. -/
structure ReadableTable (table : PersistentTable) : Prop where
  name : IsName table.tableName.toList
  columns : Rendered table.columns
  keys : ∀ key ∈ table.foreignKeys, IsName key.columnName.toList ∧
    IsName key.referencesTable.toList ∧ IsName key.referencesColumn.toList

theorem isName_relation {name : String} (is : IsName name.toList) :
    IsName (name ++ "_id").toList := by
  have ending : ∀ ch ∈ "_id".toList, Lexer.isWordChar ch = true := by decide
  rw [String.toList_append]
  refine ⟨by simp, fun ch member => ?_⟩
  rcases List.mem_append.mp member with member | member
  · exact is.2 ch member
  · exact ending ch member

theorem ReadableTable.addColumn {table : PersistentTable} (readable : ReadableTable table)
    {column : PersistentColumn} (rendered : RenderedColumn column) :
    ReadableTable (table.addColumn column) where
  name := readable.name
  columns := by
    intro other member
    rcases List.mem_append.mp member with member | member
    · exact readable.columns other member
    · obtain rfl := List.mem_singleton.mp member
      exact rendered
  keys := readable.keys

theorem ReadableTable.addForeignKey {table : PersistentTable} (readable : ReadableTable table)
    {key : PersistentForeignKey} (column : IsName key.columnName.toList)
    (target : IsName key.referencesTable.toList)
    (targetColumn : IsName key.referencesColumn.toList) :
    ReadableTable (table.addForeignKey key) where
  name := readable.name
  columns := readable.columns
  keys := by
    intro other member
    rcases List.mem_append.mp member with member | member
    · exact readable.keys other member
    · obtain rfl := List.mem_singleton.mp member
      exact ⟨column, target, targetColumn⟩

/-- A field adds a column that can be rendered, or none. -/
theorem addPersistentField_readable {schemas : Schemas} (names : NamesRead schemas)
    {table next : PersistentTable} {field : SchemaField} (is : IsName field.name.toList)
    (added : addPersistentField schemas table field = .ok next)
    (readable : ReadableTable table) : ReadableTable next := by
  have primitive (type : postgresType field.fieldType =
      .ok (columnType (buildPrimitiveColumn field)))
      (same : table.addColumn (buildPrimitiveColumn field) = next) : ReadableTable next := by
    rw [← same]
    exact readable.addColumn ⟨is, type⟩
  unfold addPersistentField at added
  split at added
  case h_12 targetSchema kind =>
      split at added
      · cases added
      · rename_i target found
        split at added
        · cases added
        · rename_i targetTable stored
          obtain rfl := Except.ok.inj added
          have id : IsName "id".toList := ⟨by decide, by decide⟩
          have target := (names _ (Table.mem_of_lookup found)).1 targetTable stored
          exact (readable.addColumn ⟨isName_relation is, rfl⟩).addForeignKey
            (isName_relation is) target id
  case h_13 =>
      obtain rfl := Except.ok.inj added
      exact readable
  case h_14 => cases added
  case h_15 => cases added
  all_goals
    rename_i kind
    refine primitive ?_ (Except.ok.inj added)
    simp only [columnType, buildPrimitiveColumn, kind]
    rfl

theorem buildPersistentTable_readable {schemas : Schemas} (names : NamesRead schemas)
    {fields : List SchemaField} (are : ∀ field ∈ fields, IsName field.name.toList)
    {table next : PersistentTable}
    (built : fields.foldlM (addPersistentField schemas) table = .ok next)
    (readable : ReadableTable table) : ReadableTable next := by
  induction fields generalizing table with
  | nil =>
      obtain rfl := Except.ok.inj built
      exact readable
  | cons field fields ih =>
      rw [List.foldlM_cons, bind_eq_ok] at built
      obtain ⟨between, added, rest⟩ := built
      exact ih (fun other member => are other (List.mem_cons_of_mem _ member)) rest
        (addPersistentField_readable names (are field List.mem_cons_self) added readable)

/-- A column stays, and an integer field adds one. -/
theorem addPersistentField_columns {schemas : Schemas} {table next : PersistentTable}
    {field : SchemaField} (added : addPersistentField schemas table field = .ok next)
    (some : table.columns ≠ [] ∨ field.fieldType = .integerType) : next.columns ≠ [] := by
  have grown (column : PersistentColumn) : (table.addColumn column).columns ≠ [] := by
    simp [PersistentTable.addColumn]
  unfold addPersistentField at added
  split at added
  case h_12 =>
      split at added
      · cases added
      · split at added
        · cases added
        · obtain rfl := Except.ok.inj added
          exact grown _
  case h_13 kind =>
      obtain rfl := Except.ok.inj added
      simpa [kind] using some
  case h_14 => cases added
  case h_15 => cases added
  all_goals
    obtain rfl := Except.ok.inj added
    exact grown _

theorem buildPersistentTable_columns {schemas : Schemas} {fields : List SchemaField}
    {table next : PersistentTable}
    (built : fields.foldlM (addPersistentField schemas) table = .ok next)
    (some : table.columns ≠ [] ∨ ∃ field ∈ fields, field.fieldType = .integerType) :
    next.columns ≠ [] := by
  induction fields generalizing table with
  | nil =>
      obtain rfl := Except.ok.inj built
      simpa using some
  | cons field fields ih =>
      rw [List.foldlM_cons, bind_eq_ok] at built
      obtain ⟨between, added, rest⟩ := built
      refine ih rest ?_
      rcases some with some | ⟨other, member, kind⟩
      · exact .inl (addPersistentField_columns added (.inl some))
      · rcases List.mem_cons.mp member with rfl | member
        · exact .inl (addPersistentField_columns added (.inr kind))
        · exact .inr ⟨other, member, kind⟩

theorem validateIdField_integer {schemaName : String} {fields : List SchemaField}
    (valid : validateIdField schemaName fields = .ok ()) :
    ∃ field ∈ fields, field.fieldType = .integerType := by
  unfold validateIdField at valid
  dsimp only at valid
  split at valid
  · cases valid
  · rename_i id found
    split at valid
    · cases valid
    · split at valid
      · cases valid
      · rename_i kind
        have member : id ∈ fields.filter fun field => field.name = "id" := by
          rw [found]
          exact List.mem_singleton_self id
        exact ⟨id, (List.mem_filter.mp member).1, not_not.mp kind⟩
  · cases valid

/-- The tables of a program can be rendered. -/
theorem buildPersistentTables_readable {schemas : Schemas} (names : NamesRead schemas)
    {tables : List PersistentTable} (built : buildPersistentTables schemas = .ok tables) :
    ∀ table ∈ tables, ReadableTable table ∧ table.columns ≠ [] := by
  rw [buildPersistentTables, bind_eq_ok] at built
  obtain ⟨⟨⟩, valid, built⟩ := built
  rw [bind_eq_ok] at built
  obtain ⟨entries, read, same⟩ := built
  obtain rfl := Except.ok.inj same
  suffices ensured : Ensures (fun results : List (Option PersistentTable) =>
      ∀ result ∈ results, ∀ table ∈ result, ReadableTable table ∧ table.columns ≠ [])
      (fun _ : MarretaError => True) (.ok entries) by
    intro table member
    obtain ⟨entry, known, same⟩ := List.mem_filterMap.mp member
    exact ensured entry known table same
  rw [← read]
  refine Ensures.mapM fun ⟨schemaName, schema⟩ member => ?_
  have checked := forM_eq_ok.mp valid (schemaName, schema) member
  obtain ⟨stored, are⟩ := names _ member
  dsimp only at stored are checked ⊢
  split
  · simp [Ensures]
  · rename_i tableName found
    rw [found] at checked
    obtain ⟨⟨⟩, id, -⟩ := bind_eq_ok.mp checked
    cases built : buildPersistentTable schemas schemaName tableName schema with
    | error error => trivial
    | ok table =>
        have named := stored tableName found
        intro other same
        obtain rfl := Option.some.inj same
        exact ⟨buildPersistentTable_readable names are built
          ⟨named, fun _ none => absurd none (by simp), fun _ none => absurd none (by simp)⟩,
          buildPersistentTable_columns built (.inr (validateIdField_integer id))⟩

/-! ## One table at a time -/

def MigrationOp.tableName : MigrationOp → String
  | .createTable tableName _ | .addColumn tableName _ | .addForeignKey tableName _ => tableName

/-- What an operation makes of its table. -/
def changeTable (table : Option DatabaseTable) : MigrationOp → Option DatabaseTable
  | .createTable tableName columns => some (createdTable tableName columns)
  | .addColumn tableName column =>
      some ((table.getD (.new tableName)).putColumn (replayedColumn column))
  | .addForeignKey tableName key =>
      some ((table.getD (.new tableName)).putForeignKey (replayedKey tableName key))

theorem table?_putTable (schema : DatabaseSchema) (name other : String) (table : DatabaseTable) :
    (schema.putTable name table).table? other =
      if other = name then some table else schema.table? other :=
  Table.lookup_put _ _ _ _

theorem table?_applyOp (schema : DatabaseSchema) (op : MigrationOp) (name : String) :
    (applyOp schema op).table? name =
      if op.tableName = name then changeTable (schema.table? name) op else schema.table? name := by
  cases op with
  | createTable tableName columns | addColumn tableName column | addForeignKey tableName key =>
      unfold applyOp
      dsimp only [DatabaseSchema.alterTable]
      rw [table?_putTable]
      by_cases same : name = tableName
      · subst same
        rw [if_pos rfl]
        exact (if_pos rfl).symm
      · rw [if_neg same]
        exact (if_neg (Ne.symm same)).symm

/-- Only the operations of a table change it. -/
theorem table?_foldl_applyOp (schema : DatabaseSchema) (ops : List MigrationOp) (name : String) :
    (ops.foldl applyOp schema).table? name =
      (ops.filter (·.tableName = name)).foldl changeTable (schema.table? name) := by
  induction ops generalizing schema with
  | nil => rfl
  | cons op ops ih =>
      rw [List.foldl_cons, ih, table?_applyOp, List.filter_cons]
      by_cases same : op.tableName = name
      · rw [if_pos same, if_pos (by simpa using same), List.foldl_cons]
      · rw [if_neg same, if_neg (by simpa using same)]

/-! ## The operations of a table -/

theorem tableName_createOps {current : DatabaseSchema} {table : PersistentTable} :
    ∀ op ∈ createOps current table, op.tableName = table.tableName := by
  intro op member
  unfold createOps at member
  split at member
  · obtain rfl := List.mem_singleton.mp member
    rfl
  · cases member

theorem tableName_addColumnOps {current : DatabaseSchema} {table : PersistentTable} :
    ∀ op ∈ addColumnOps current table, op.tableName = table.tableName := by
  intro op member
  unfold addColumnOps at member
  split at member
  · cases member
  · obtain ⟨column, -, rfl⟩ := List.mem_map.mp member
    rfl

theorem tableName_addForeignKeyOps {current : DatabaseSchema} {table : PersistentTable} :
    ∀ op ∈ addForeignKeyOps current table, op.tableName = table.tableName := by
  intro op member
  unfold addForeignKeyOps at member
  split at member
  all_goals
    obtain ⟨key, -, rfl⟩ := List.mem_map.mp member
    rfl

section Filter

variable {ops : PersistentTable → List MigrationOp}
  (own : ∀ table, ∀ op ∈ ops table, op.tableName = table.tableName)
include own

theorem filter_flatMap_of_not_mem {tables : List PersistentTable} {name : String}
    (absent : name ∉ tables.map (·.tableName)) :
    (tables.flatMap ops).filter (·.tableName = name) = [] := by
  rw [List.filter_eq_nil_iff]
  intro op member
  obtain ⟨table, known, inside⟩ := List.mem_flatMap.mp member
  rw [decide_eq_true_eq, own table op inside]
  rintro rfl
  exact absent (List.mem_map.mpr ⟨table, known, rfl⟩)

theorem filter_flatMap_of_mem {tables : List PersistentTable} {table : PersistentTable}
    (distinct : (tables.map (·.tableName)).Nodup) (member : table ∈ tables) :
    (tables.flatMap ops).filter (·.tableName = table.tableName) = ops table := by
  induction tables with
  | nil => cases member
  | cons first rest ih =>
      obtain ⟨fresh, others⟩ := List.nodup_cons.mp distinct
      rw [List.flatMap_cons, List.filter_append]
      rcases List.mem_cons.mp member with rfl | member
      · have here : (ops table).filter (·.tableName = table.tableName) = ops table := by
          rw [List.filter_eq_self]
          intro op inside
          rw [decide_eq_true_eq, own table op inside]
        rw [here, filter_flatMap_of_not_mem own fresh, List.append_nil]
      · have none : (ops first).filter (·.tableName = table.tableName) = [] := by
          rw [List.filter_eq_nil_iff]
          intro op inside
          rw [decide_eq_true_eq, own first op inside]
          intro same
          exact fresh (List.mem_map.mpr ⟨table, member, same.symm⟩)
        rw [none, ih others member, List.nil_append]

end Filter

theorem filter_planMigration_of_not_mem {current : DatabaseSchema} {tables : List PersistentTable}
    {name : String} (absent : name ∉ tables.map (·.tableName)) :
    (planMigration current tables).filter (·.tableName = name) = [] := by
  have absent : name ∉ (tables.mergeSort fun one other => one.tableName ≤ other.tableName).map
      (·.tableName) := by
    intro member
    obtain ⟨table, known, rfl⟩ := List.mem_map.mp member
    exact absent (List.mem_map.mpr ⟨table, List.mem_mergeSort.mp known, rfl⟩)
  rw [planMigration, List.filter_append, List.filter_append,
    filter_flatMap_of_not_mem (fun _ => tableName_createOps) absent,
    filter_flatMap_of_not_mem (fun _ => tableName_addColumnOps) absent,
    filter_flatMap_of_not_mem (fun _ => tableName_addForeignKeyOps) absent]
  rfl

theorem filter_planMigration_of_mem {current : DatabaseSchema} {tables : List PersistentTable}
    {table : PersistentTable} (distinct : (tables.map (·.tableName)).Nodup)
    (member : table ∈ tables) :
    (planMigration current tables).filter (·.tableName = table.tableName) =
      createOps current table ++ addColumnOps current table ++
        addForeignKeyOps current table := by
  have order := List.mergeSort_perm tables fun one other => one.tableName ≤ other.tableName
  have distinct := (order.map (·.tableName)).nodup_iff.mpr distinct
  have member := order.mem_iff.mpr member
  rw [planMigration, List.filter_append, List.filter_append,
    filter_flatMap_of_mem (fun _ => tableName_createOps) distinct member,
    filter_flatMap_of_mem (fun _ => tableName_addColumnOps) distinct member,
    filter_flatMap_of_mem (fun _ => tableName_addForeignKeyOps) distinct member]

theorem planMigration_eq_nil {current : DatabaseSchema} {tables : List PersistentTable} :
    planMigration current tables = [] ↔ ∀ table ∈ tables,
      createOps current table = [] ∧ addColumnOps current table = [] ∧
        addForeignKeyOps current table = [] := by
  simp only [planMigration, List.append_eq_nil_iff, List.flatMap_eq_nil_iff, List.mem_mergeSort]
  exact ⟨fun ⟨⟨created, columns⟩, keys⟩ table member =>
      ⟨created table member, columns table member, keys table member⟩,
    fun each => ⟨⟨fun table member => (each table member).1,
      fun table member => (each table member).2.1⟩, fun table member => (each table member).2.2⟩⟩

/-! ## The tables after the migration -/

def columnEntry (column : PersistentColumn) : String × DatabaseColumn :=
  (column.columnName, replayedColumn column)

def keyEntry (tableName : String) (key : PersistentForeignKey) : String × DatabaseForeignKey :=
  (foreignKeyConstraintName tableName key.columnName, replayedKey tableName key)

theorem foldl_putColumn (table : DatabaseTable) (columns : List PersistentColumn) :
    columns.foldl (fun table column => table.putColumn (replayedColumn column)) table =
      { table with columns := Table.putAll table.columns (columns.map columnEntry) } := by
  induction columns generalizing table with
  | nil => rfl
  | cons column columns ih =>
      rw [List.foldl_cons, ih]
      rfl

theorem createdTable_eq (tableName : String) (columns : List PersistentColumn) :
    createdTable tableName columns =
      { name := tableName
        columns := Table.putAll []
          ((columns.filter fun column => !isConstraintName column.columnName).map columnEntry)
        foreignKeys := [] } :=
  foldl_putColumn _ _

theorem foldl_addColumn (table : DatabaseTable) (tableName : String)
    (columns : List PersistentColumn) :
    (columns.map (MigrationOp.addColumn tableName)).foldl changeTable (some table) =
      some { table with columns := Table.putAll table.columns (columns.map columnEntry) } := by
  induction columns generalizing table with
  | nil => rfl
  | cons column columns ih =>
      rw [List.map_cons, List.foldl_cons]
      exact ih (table.putColumn (replayedColumn column))

theorem foldl_addForeignKey (table : DatabaseTable) (tableName : String)
    (keys : List PersistentForeignKey) :
    (keys.map (MigrationOp.addForeignKey tableName)).foldl changeTable (some table) =
      some { table with
        foreignKeys := Table.putAll table.foreignKeys (keys.map (keyEntry tableName)) } := by
  induction keys generalizing table with
  | nil => rfl
  | cons key keys ih =>
      rw [List.map_cons, List.foldl_cons]
      exact ih (table.putForeignKey (replayedKey tableName key))

section Migrated

variable {current : DatabaseSchema} {tables : List PersistentTable}

/-- The replayed tables after the migration. -/
def migrated (current : DatabaseSchema) (tables : List PersistentTable) : DatabaseSchema :=
  (planMigration current tables).foldl applyOp current

theorem table?_migrated_other {name : String} (absent : name ∉ tables.map (·.tableName)) :
    (migrated current tables).table? name = current.table? name := by
  rw [migrated, table?_foldl_applyOp, filter_planMigration_of_not_mem absent]
  rfl

variable {table : PersistentTable} (distinct : (tables.map (·.tableName)).Nodup)
  (member : table ∈ tables)
include distinct member

theorem table?_migrated_created (missing : current.table? table.tableName = none) :
    (migrated current tables).table? table.tableName = some
      { createdTable table.tableName table.columns with
        foreignKeys := Table.putAll [] (table.foreignKeys.map (keyEntry table.tableName)) } := by
  have filtered := @filter_planMigration_of_mem current tables table distinct member
  simp only [createOps, addColumnOps, addForeignKeyOps, missing] at filtered
  rw [migrated, table?_foldl_applyOp, filtered, List.append_nil, List.singleton_append,
    List.foldl_cons]
  change (table.foreignKeys.map (MigrationOp.addForeignKey table.tableName)).foldl changeTable
    (some (createdTable table.tableName table.columns)) = _
  rw [foldl_addForeignKey, createdTable_eq]

theorem table?_migrated_existing {existing : DatabaseTable}
    (found : current.table? table.tableName = some existing) :
    (migrated current tables).table? table.tableName = some
      { existing with
        columns := Table.putAll existing.columns ((table.columns.filter fun column =>
          (existing.columns.lookup column.columnName).isNone).map columnEntry)
        foreignKeys := Table.putAll existing.foreignKeys ((table.foreignKeys.filter fun key =>
          (existing.foreignKeys.lookup
            (foreignKeyConstraintName table.tableName key.columnName)).isNone).map
              (keyEntry table.tableName)) } := by
  have filtered := @filter_planMigration_of_mem current tables table distinct member
  simp only [createOps, addColumnOps, addForeignKeyOps, found] at filtered
  rw [migrated, table?_foldl_applyOp, filtered, List.nil_append, List.foldl_append, found,
    foldl_addColumn, foldl_addForeignKey]

end Migrated

/-! ## A second plan -/

theorem mem_keys_columnEntry {columns : List PersistentColumn} {name : String} :
    name ∈ Table.keys (columns.map columnEntry) ↔ ∃ column ∈ columns, column.columnName = name := by
  simp [Table.keys, columnEntry]

theorem mem_keys_keyEntry {tableName : String} {keys : List PersistentForeignKey} {name : String} :
    name ∈ Table.keys (keys.map (keyEntry tableName)) ↔
      ∃ key ∈ keys, foreignKeyConstraintName tableName key.columnName = name := by
  simp [Table.keys, keyEntry]

/-- No column of a created table has a name that starts a constraint. -/
def NoConstraintNames (current : DatabaseSchema) (tables : List PersistentTable) : Prop :=
  ∀ table ∈ tables, current.table? table.tableName = none →
    ∀ column ∈ table.columns, isConstraintName column.columnName = false

section SecondPlan

variable {current : DatabaseSchema} {tables : List PersistentTable} {table : PersistentTable}

theorem createOps_of_found {found : DatabaseTable}
    (present : current.table? table.tableName = some found) : createOps current table = [] := by
  rw [createOps, present]

theorem addColumnOps_of_found {found : DatabaseTable}
    (present : current.table? table.tableName = some found) :
    addColumnOps current table = [] ↔
      ∀ column ∈ table.columns, (found.columns.lookup column.columnName).isSome = true := by
  rw [addColumnOps, present]
  simp only [List.map_eq_nil_iff, List.filter_eq_nil_iff, Option.isNone_iff_eq_none,
    Option.isSome_iff_ne_none, ne_eq]

theorem addForeignKeyOps_of_found {found : DatabaseTable}
    (present : current.table? table.tableName = some found) :
    addForeignKeyOps current table = [] ↔ ∀ key ∈ table.foreignKeys,
      (found.foreignKeys.lookup
        (foreignKeyConstraintName table.tableName key.columnName)).isSome = true := by
  rw [addForeignKeyOps, present]
  simp only [List.map_eq_nil_iff, List.filter_eq_nil_iff, Option.isNone_iff_eq_none,
    Option.isSome_iff_ne_none, ne_eq]

variable (distinct : (tables.map (·.tableName)).Nodup) (member : table ∈ tables)
include distinct member

/-- Every foreign key is known after the migration. -/
theorem addForeignKeyOps_migrated : addForeignKeyOps (migrated current tables) table = [] := by
  cases found : current.table? table.tableName with
  | none =>
      rw [addForeignKeyOps_of_found (table?_migrated_created distinct member found)]
      intro key known
      rw [Table.lookup_putAll_isSome, mem_keys_keyEntry]
      exact .inl ⟨key, known, rfl⟩
  | some existing =>
      rw [addForeignKeyOps_of_found (table?_migrated_existing distinct member found)]
      intro key known
      rw [Table.lookup_putAll_isSome, mem_keys_keyEntry]
      by_cases old : (existing.foreignKeys.lookup
          (foreignKeyConstraintName table.tableName key.columnName)).isSome = true
      · exact .inr old
      · refine .inl ⟨key, List.mem_filter.mpr ⟨known, ?_⟩, rfl⟩
        exact Option.isNone_iff_eq_none.mpr (Option.not_isSome_iff_eq_none.mp old)

/-- A column of an existing table is known after the migration. -/
theorem addColumnOps_migrated_existing {existing : DatabaseTable}
    (found : current.table? table.tableName = some existing) :
    addColumnOps (migrated current tables) table = [] := by
  rw [addColumnOps_of_found (table?_migrated_existing distinct member found)]
  intro column known
  rw [Table.lookup_putAll_isSome, mem_keys_columnEntry]
  by_cases old : (existing.columns.lookup column.columnName).isSome = true
  · exact .inr old
  · refine .inl ⟨column, List.mem_filter.mpr ⟨known, ?_⟩, rfl⟩
    exact Option.isNone_iff_eq_none.mpr (Option.not_isSome_iff_eq_none.mp old)

theorem addColumnOps_migrated_created (missing : current.table? table.tableName = none) :
    addColumnOps (migrated current tables) table = [] ↔
      ∀ column ∈ table.columns, isConstraintName column.columnName = false := by
  rw [addColumnOps_of_found (table?_migrated_created distinct member missing), createdTable_eq]
  refine forall₂_congr fun column known => ?_
  rw [Table.lookup_putAll_isSome, mem_keys_columnEntry]
  constructor
  · rintro (⟨other, kept, same⟩ | none)
    · have plain := (List.mem_filter.mp kept).2
      rw [same] at plain
      simpa using plain
    · cases none
  · intro plain
    exact .inl ⟨column, List.mem_filter.mpr ⟨known, by simp [plain]⟩, rfl⟩

omit member in
theorem planMigration_migrated :
    planMigration (migrated current tables) tables = [] ↔ NoConstraintNames current tables := by
  rw [planMigration_eq_nil]
  refine forall₂_congr fun table member => ?_
  have keys := @addForeignKeyOps_migrated current tables table distinct member
  cases found : current.table? table.tableName with
  | none =>
      have created := createOps_of_found (table?_migrated_created distinct member found)
      have columns := addColumnOps_migrated_created distinct member found
      simp only [created, keys, columns, true_and, and_true, true_implies]
  | some existing =>
      have created := createOps_of_found (table?_migrated_existing distinct member found)
      have columns := addColumnOps_migrated_existing distinct member found
      simp [created, keys, columns]

end SecondPlan

/-! ## What was there before -/

/-- The tables, columns and foreign keys of a schema are still there. -/
def Keeps (current next : DatabaseSchema) : Prop :=
  ∀ name table, current.table? name = some table → ∃ after, next.table? name = some after ∧
    (∀ column found, table.columns.lookup column = some found →
      after.columns.lookup column = some found) ∧
    ∀ key found, table.foreignKeys.lookup key = some found →
      after.foreignKeys.lookup key = some found

theorem keeps_migrated {current : DatabaseSchema} {tables : List PersistentTable}
    (distinct : (tables.map (·.tableName)).Nodup) : Keeps current (migrated current tables) := by
  intro name existing found
  by_cases named : name ∈ tables.map (·.tableName)
  · obtain ⟨table, member, rfl⟩ := List.mem_map.mp named
    refine ⟨_, table?_migrated_existing distinct member found, ?_, ?_⟩
    · intro column before known
      rw [Table.lookup_putAll_of_not_mem, known]
      rw [mem_keys_columnEntry]
      rintro ⟨other, added, rfl⟩
      have absent := (List.mem_filter.mp added).2
      rw [known] at absent
      cases absent
    · intro key before known
      rw [Table.lookup_putAll_of_not_mem, known]
      rw [mem_keys_keyEntry]
      rintro ⟨other, added, rfl⟩
      have absent := (List.mem_filter.mp added).2
      rw [known] at absent
      cases absent
  · exact ⟨existing, by rw [table?_migrated_other named, found], fun _ _ known => known,
      fun _ _ known => known⟩

/-! ## Drift -/

namespace SchemaDrift

def table : SchemaDrift → String
  | .columnTypeDiffers table _ _ _ | .columnNullabilityDiffers table _ _ _
  | .columnRemoved table _ | .tableRemoved table => table

def column? : SchemaDrift → Option String
  | .columnTypeDiffers _ column _ _ | .columnNullabilityDiffers _ column _ _
  | .columnRemoved _ column => some column
  | .tableRemoved _ => none

/-- The entry is about a table or column that the operation creates. -/
def IsAbout (drift : SchemaDrift) : MigrationOp → Prop
  | .createTable tableName _ => drift.table = tableName
  | .addColumn tableName column =>
      drift.table = tableName ∧ drift.column? = some column.columnName
  | .addForeignKey _ _ => False

end SchemaDrift

/-- A column that the migration wrote is as the schemas have it. -/
theorem columnDrift_replayedColumn (table name : String) (column : PersistentColumn) :
    columnDrift table name (replayedColumn column) column = [] := by
  unfold columnDrift replayedColumn
  cases postgresType column.fieldType <;> simp [Except.toOption]

theorem about_columnDrift {table name : String} {history : DatabaseColumn}
    {desired : PersistentColumn} {drift : SchemaDrift}
    (reported : drift ∈ columnDrift table name history desired) :
    drift.table = table ∧ drift.column? = some name := by
  unfold columnDrift at reported
  rcases List.mem_append.mp reported with reported | reported
  · split at reported
    · split at reported
      · obtain rfl := List.mem_singleton.mp reported
        exact ⟨rfl, rfl⟩
      · cases reported
    · cases reported
  · split at reported
    · dsimp only at reported
      split at reported
      · obtain rfl := List.mem_singleton.mp reported
        exact ⟨rfl, rfl⟩
      · cases reported
    · cases reported

theorem find?_tableName {tables : List PersistentTable} {table : PersistentTable}
    (distinct : (tables.map (·.tableName)).Nodup) (member : table ∈ tables) :
    tables.find? (fun desired => desired.tableName = table.tableName) = some table := by
  induction tables with
  | nil => cases member
  | cons first rest ih =>
      obtain ⟨fresh, others⟩ := List.nodup_cons.mp distinct
      rw [List.find?_cons]
      rcases List.mem_cons.mp member with rfl | member
      · simp
      · have differs : first.tableName ≠ table.tableName := fun same =>
          fresh (List.mem_map.mpr ⟨table, member, same.symm⟩)
        simp [differs, ih others member]

theorem find?_columnName {columns : List PersistentColumn} {column : PersistentColumn}
    (distinct : (columns.map (·.columnName)).Nodup) (member : column ∈ columns) :
    columns.find? (fun desired => desired.columnName = column.columnName) = some column := by
  induction columns with
  | nil => cases member
  | cons first rest ih =>
      obtain ⟨fresh, others⟩ := List.nodup_cons.mp distinct
      rw [List.find?_cons]
      rcases List.mem_cons.mp member with rfl | member
      · simp
      · have differs : first.columnName ≠ column.columnName := fun same =>
          fresh (List.mem_map.mpr ⟨column, member, same.symm⟩)
        simp [differs, ih others member]

section Drift

variable {next : DatabaseSchema} {tables : List PersistentTable} {table : PersistentTable}
  (distinct : (tables.map (·.tableName)).Nodup)
  (distinctColumns : ∀ table ∈ tables, (table.columns.map (·.columnName)).Nodup)
include distinct distinctColumns

/-- An entry about a table of the schemas is about a column that is not as a field
of the schema has it. -/
theorem not_replayedColumn_of_drift (member : table ∈ tables) {drift : SchemaDrift}
    (reported : drift ∈ detectSchemaDrift next tables) (about : drift.table = table.tableName)
    {found : DatabaseTable} (present : next.table? table.tableName = some found) :
    ∃ name history, drift.column? = some name ∧ found.columns.lookup name = some history ∧
      ∀ column ∈ table.columns, column.columnName = name → history ≠ replayedColumn column := by
  obtain ⟨name, -, reported⟩ := List.mem_flatMap.mp reported
  split at reported
  · cases reported
  rename_i other located
  unfold tableDrift at reported
  split at reported
  · rename_i missing
    obtain rfl := List.mem_singleton.mp reported
    obtain rfl : name = table.tableName := about
    rw [find?_tableName distinct member] at missing
    cases missing
  · rename_i desired foundDesired
    obtain ⟨column, -, reported⟩ := List.mem_flatMap.mp reported
    have named : name = table.tableName := by
      rw [← about]
      split at reported
      · cases reported
      · obtain rfl := List.mem_singleton.mp reported
        rfl
      · exact (about_columnDrift reported).1.symm
    subst named
    obtain rfl : table = desired :=
      Option.some.inj ((find?_tableName distinct member).symm.trans foundDesired)
    obtain rfl : found = other := Option.some.inj (present.symm.trans located)
    split at reported
    · cases reported
    · rename_i history known missing
      obtain rfl := List.mem_singleton.mp reported
      refine ⟨column, history, rfl, known, fun desired wanted same => ?_⟩
      have absent := List.find?_eq_none.mp missing desired wanted
      simp [same] at absent
    · rename_i history desired known wanted
      refine ⟨column, history, (about_columnDrift reported).2, known, ?_⟩
      rintro other inside rfl rfl
      rw [find?_columnName (distinctColumns table member) inside] at wanted
      obtain rfl := Option.some.inj wanted
      rw [columnDrift_replayedColumn] at reported
      cases reported

/-- No entry is about what the migration created. -/
theorem not_isAbout_migrated {current : DatabaseSchema} {drift : SchemaDrift}
    (reported : drift ∈ detectSchemaDrift (migrated current tables) tables) :
    ∀ op ∈ planMigration current tables, ¬ drift.IsAbout op := by
  intro op planned about
  rw [planMigration, List.mem_append, List.mem_append, List.mem_flatMap, List.mem_flatMap,
    List.mem_flatMap] at planned
  rcases planned with (⟨table, sorted, created⟩ | ⟨table, sorted, added⟩) | ⟨table, -, keyed⟩
  · have member := List.mem_mergeSort.mp sorted
    unfold createOps at created
    split at created
    · rename_i missing
      obtain rfl := List.mem_singleton.mp created
      have present := table?_migrated_created distinct member missing
      obtain ⟨name, history, -, known, differs⟩ :=
        not_replayedColumn_of_drift distinct distinctColumns member reported about present
      rw [createdTable_eq] at known
      rcases Table.lookup_putAll known with entry | ⟨-, none⟩
      · obtain ⟨column, kept, same⟩ := List.mem_map.mp entry
        obtain ⟨rfl, rfl⟩ := Prod.mk.inj same
        exact differs column (List.mem_filter.mp kept).1 rfl rfl
      · cases none
    · cases created
  · have member := List.mem_mergeSort.mp sorted
    unfold addColumnOps at added
    split at added
    · cases added
    · rename_i existing found
      obtain ⟨column, missing, rfl⟩ := List.mem_map.mp added
      obtain ⟨about, named⟩ := about
      have present := table?_migrated_existing distinct member found
      obtain ⟨name, history, same, known, differs⟩ :=
        not_replayedColumn_of_drift distinct distinctColumns member reported about present
      obtain rfl : column.columnName = name := Option.some.inj (named.symm.trans same)
      rcases Table.lookup_putAll known with entry | ⟨absent, -⟩
      · obtain ⟨other, kept, same⟩ := List.mem_map.mp entry
        obtain ⟨named, rfl⟩ := Prod.mk.inj same
        exact differs other (List.mem_filter.mp kept).1 named rfl
      · exact absent ((mem_keys_columnEntry).mpr ⟨column, missing, rfl⟩)
  · unfold addForeignKeyOps at keyed
    split at keyed
    all_goals
      obtain ⟨key, -, rfl⟩ := List.mem_map.mp keyed
      exact about

end Drift

/-! ## Convergence -/

/-- The plan can be rendered. -/
theorem rendered_planMigration {current : DatabaseSchema} {tables : List PersistentTable}
    (readable : ∀ table ∈ tables, ReadableTable table ∧ table.columns ≠ []) :
    ∀ op ∈ planMigration current tables, RenderedOp op := by
  intro op planned
  rw [planMigration, List.mem_append, List.mem_append, List.mem_flatMap, List.mem_flatMap,
    List.mem_flatMap] at planned
  rcases planned with (⟨table, sorted, created⟩ | ⟨table, sorted, added⟩) | ⟨table, sorted, keyed⟩
  · obtain ⟨read, some⟩ := readable table (List.mem_mergeSort.mp sorted)
    unfold createOps at created
    split at created
    · obtain rfl := List.mem_singleton.mp created
      exact ⟨read.name, some, read.columns⟩
    · cases created
  · obtain ⟨read, -⟩ := readable table (List.mem_mergeSort.mp sorted)
    unfold addColumnOps at added
    split at added
    · cases added
    · obtain ⟨column, kept, rfl⟩ := List.mem_map.mp added
      exact ⟨read.name, read.columns column (List.mem_filter.mp kept).1⟩
  · obtain ⟨read, -⟩ := readable table (List.mem_mergeSort.mp sorted)
    unfold addForeignKeyOps at keyed
    split at keyed
    · obtain ⟨key, known, rfl⟩ := List.mem_map.mp keyed
      exact ⟨read.name, read.keys key known⟩
    · obtain ⟨key, kept, rfl⟩ := List.mem_map.mp keyed
      exact ⟨read.name, read.keys key (List.mem_filter.mp kept).1⟩

/-- The migration that is generated for the tables leaves nothing to generate: what
was there is kept, and what it created is as the schemas have it. -/
def Converges (locals : List LocalMigration) (current : DatabaseSchema)
    (tables : List PersistentTable) (version name : String) : Prop :=
  ∃ up next, renderPostgresUpSql (planMigration current tables) = .ok up ∧
    buildSchemaFromLocalMigrations (locals ++ [{ version, name, upSql := joinSql up }]) =
      .ok next ∧
    planMigration next tables = [] ∧ Keeps current next ∧
    ∀ drift ∈ detectSchemaDrift next tables, ∀ op ∈ planMigration current tables,
      ¬ drift.IsAbout op

theorem converges_iff {locals : List LocalMigration} {current : DatabaseSchema}
    (replayed : buildSchemaFromLocalMigrations locals = .ok current) {schemas : Schemas}
    (names : NamesRead schemas) {tables : List PersistentTable}
    (built : buildPersistentTables schemas = .ok tables)
    (distinct : (tables.map (·.tableName)).Nodup)
    (distinctColumns : ∀ table ∈ tables, (table.columns.map (·.columnName)).Nodup)
    (version name : String) :
    Converges locals current tables version name ↔ NoConstraintNames current tables := by
  have rendered := @rendered_planMigration current tables
    (buildPersistentTables_readable names built)
  have up := renderPostgresUpSql_eq rendered
  have applied (migration : LocalMigration) (text : migration.upSql =
      joinSql ((planMigration current tables).map fun op => opText op ++ [';'])) :
      buildSchemaFromLocalMigrations (locals ++ [migration]) = .ok (migrated current tables) := by
    rw [buildSchemaFromLocalMigrations, List.foldlM_append]
    rw [buildSchemaFromLocalMigrations] at replayed
    rw [replayed]
    have last := applyLocalMigrationToSchema_joinSql rendered text current
    change [migration].foldlM applyLocalMigrationToSchema current = _
    rw [List.foldlM_cons, last]
    rfl
  constructor
  · rintro ⟨texts, next, written, again, nothing, -, -⟩
    obtain rfl := Except.ok.inj (up.symm.trans written)
    rw [applied _ rfl] at again
    obtain rfl := Except.ok.inj again
    exact (planMigration_migrated distinct).mp nothing
  · intro plain
    exact ⟨_, _, up, applied _ rfl, (planMigration_migrated distinct).mpr plain,
      keeps_migrated distinct, fun drift reported =>
        not_isAbout_migrated distinct distinctColumns reported⟩

/-- A stored schema with an `id` and one text field. -/
def textSchema (field : String) : Schemas :=
  [("Order", {
    dbTable := some "orders"
    fields := [{ name := "id", fieldType := .integerType, optional := false },
      { name := field, fieldType := .stringType, optional := true }] })]

/-- The table of that schema. -/
def textTable (field : String) : PersistentTable where
  schemaName := "Order"
  tableName := "orders"
  columns :=
    [{ fieldName := "id", columnName := "id", fieldType := .integerType, nullable := false
       primary := true, generated := true, unique := false },
      { fieldName := field, columnName := field, fieldType := .stringType, nullable := true
        primary := false, generated := false, unique := false }]
  foreignKeys := []

def noTables : DatabaseSchema :=
  { tables := [] }

theorem textSchema_converges :
    buildPersistentTables (textSchema "note") = .ok [textTable "note"] ∧
      Converges [] noTables [textTable "note"] "1" "orders" := by
  have names : NamesRead (textSchema "note") := by
    rintro entry (- | ⟨-, ⟨⟩⟩)
    refine ⟨fun tableName stored => ?_, ?_⟩
    · obtain rfl : "orders" = tableName := Option.some.inj stored
      exact ⟨by decide, by decide⟩
    · rintro field (- | ⟨-, - | ⟨-, ⟨⟩⟩⟩)
      · exact ⟨by decide, by decide⟩
      · exact ⟨by decide, by decide⟩
  have plain : NoConstraintNames noTables [textTable "note"] := by
    rintro table (- | ⟨-, ⟨⟩⟩) -
    decide
  have built : buildPersistentTables (textSchema "note") = .ok [textTable "note"] := by decide
  exact ⟨built, (converges_iff rfl names built (by decide) (by decide) "1" "orders").mpr plain⟩

/-- What is generated for a column named `check`. -/
def checkSql : List Char :=
  ("CREATE TABLE orders (\n  id BIGINT PRIMARY KEY GENERATED BY DEFAULT AS IDENTITY NOT NULL,\n" ++
    "  check TEXT\n);").toList

/-- The column is missing from the replayed table, and is planned again. -/
theorem checkColumn_not_converges :
    buildSchemaFromLocalMigrations [] = .ok noTables ∧
      buildPersistentTables (textSchema "check") = .ok [textTable "check"] ∧
      ¬ Converges [] noTables [textTable "check"] "1" "orders" := by
  refine ⟨rfl, by decide, ?_⟩
  rintro ⟨texts, next, written, again, nothing, -, -⟩
  have up : renderPostgresUpSql (planMigration noTables [textTable "check"]) =
      .ok [checkSql] := by
    decide +kernel
  obtain rfl := Except.ok.inj (up.symm.trans written)
  have replayed : buildSchemaFromLocalMigrations
      [{ version := "1", name := "orders", upSql := joinSql [checkSql] }] =
      .ok { tables := [("orders", { DatabaseTable.new "orders" with
        columns := [("id",
          { name := "id", renderedType := some "BIGINT", nullable := some false })] })] } := by
    decide +kernel
  obtain rfl := Except.ok.inj (replayed.symm.trans again)
  revert nothing
  decide +kernel

end Marreta.Migrations
