import Marreta.Migrations.Planner
import Marreta.Project.Loading

namespace Marreta.Migrations

open Foundation (Table bind_eq_ok eq_map_of_mapM)

/-! The tables a program asks for.

A value field is stored under its own name, a relation under its name and `_id`, and
a list of relations not at all.  Only `id` is looked after when the tables are built. -/

/-! ## Stored fields -/

/-- The column of a field that can be stored in one. -/
def fieldColumn (field : SchemaField) : Option PersistentColumn :=
  match field.fieldType with
  | .reference _ => some (relationColumn field)
  | .typedList _ | .listType | .mapType => none
  | _ => some (buildPrimitiveColumn field)

def fieldKey (schemas : Schemas) (field : SchemaField) : Option PersistentForeignKey :=
  match field.fieldType with
  | .reference target => do
      let targetTable ← (← schemas.lookup target).dbTable
      return relationKey field target targetTable
  | _ => none

def storedTable (schemas : Schemas) (schemaName tableName : String) (fields : List SchemaField) :
    PersistentTable where
  schemaName := schemaName
  tableName := tableName
  columns := fields.filterMap fieldColumn
  foreignKeys := fields.filterMap (fieldKey schemas)

/-- The tables of the schemas that have one, in the order of the schemas. -/
def storedTables (schemas : Schemas) (entries : Schemas) : List PersistentTable :=
  entries.filterMap fun entry =>
    entry.2.dbTable.map fun tableName => storedTable schemas entry.1 tableName entry.2.fields

theorem filterMap_cons_toList {α β : Type} (f : α → Option β) (value : α) (values : List α) :
    (value :: values).filterMap f = (f value).toList ++ values.filterMap f := by
  cases found : f value <;> simp [found]

theorem addPersistentField_eq {schemas : Schemas} {table next : PersistentTable}
    {field : SchemaField} (added : addPersistentField schemas table field = .ok next) :
    next = { table with
      columns := table.columns ++ (fieldColumn field).toList
      foreignKeys := table.foreignKeys ++ (fieldKey schemas field).toList } := by
  unfold addPersistentField at added
  unfold fieldColumn fieldKey
  cases kind : field.fieldType with
  | reference target =>
      simp only [kind] at added
      cases found : schemas.lookup target with
      | none =>
          rw [found] at added
          cases added
      | some definition =>
          rw [found] at added
          cases stored : definition.dbTable with
          | none =>
              simp only [stored] at added
              cases added
          | some targetTable =>
              simp only [stored] at added
              obtain rfl := Except.ok.inj added
              simp [found, stored, PersistentTable.addColumn, PersistentTable.addForeignKey]
  | listType | mapType =>
      simp only [kind] at added
      cases added
  | typedList element =>
      simp only [kind] at added
      obtain rfl := Except.ok.inj added
      simp
  | _ =>
      simp only [kind] at added
      obtain rfl := Except.ok.inj added
      simp [PersistentTable.addColumn]

theorem foldlM_addPersistentField {schemas : Schemas} {fields : List SchemaField}
    {table next : PersistentTable}
    (built : fields.foldlM (addPersistentField schemas) table = .ok next) :
    next = { table with
      columns := table.columns ++ fields.filterMap fieldColumn
      foreignKeys := table.foreignKeys ++ fields.filterMap (fieldKey schemas) } := by
  induction fields generalizing table with
  | nil =>
      obtain rfl := Except.ok.inj built
      simp
  | cons field fields induction =>
      rw [List.foldlM_cons, bind_eq_ok] at built
      obtain ⟨between, added, rest⟩ := built
      rw [induction rest, addPersistentField_eq added, filterMap_cons_toList,
        filterMap_cons_toList]
      simp

theorem buildPersistentTable_eq {schemas : Schemas} {schemaName tableName : String}
    {schema : SchemaDefinition} {table : PersistentTable}
    (built : buildPersistentTable schemas schemaName tableName schema = .ok table) :
    table = storedTable schemas schemaName tableName schema.fields := by
  rw [foldlM_addPersistentField built]
  simp [storedTable]

theorem buildPersistentTables_eq {schemas : Schemas} {tables : List PersistentTable}
    (built : buildPersistentTables schemas = .ok tables) :
    tables = storedTables schemas schemas := by
  rw [buildPersistentTables, bind_eq_ok] at built
  obtain ⟨⟨⟩, -, built⟩ := built
  obtain ⟨results, read, same⟩ := bind_eq_ok.mp built
  obtain rfl := Except.ok.inj same
  have mapped : results = schemas.map fun entry =>
      entry.2.dbTable.map fun tableName =>
        storedTable schemas entry.1 tableName entry.2.fields := by
    refine eq_map_of_mapM (fun entry result turned => ?_) read
    cases named : entry.2.dbTable with
    | none =>
        simp only [named] at turned
        exact (Except.ok.inj turned).symm
    | some tableName =>
        simp only [named] at turned
        cases table : buildPersistentTable schemas entry.1 tableName entry.2 with
        | error error =>
            rw [table] at turned
            cases turned
        | ok next =>
            rw [table] at turned
            obtain rfl := Except.ok.inj turned
            rw [buildPersistentTable_eq table]
            rfl
  rw [mapped, List.filterMap_map]
  rfl

/-! ## Columns -/

/-- How a field of this type is stored: `some true` as a relation, `some false` as a
value. -/
def isRelation? : SchemaType → Option Bool
  | .reference _ => some true
  | .typedList _ | .listType | .mapType => none
  | _ => some false

/-- Two fields that need the same column. -/
inductive Collide (one other : SchemaField) : Prop
  | sameName {relation : Bool} (first : isRelation? one.fieldType = some relation)
      (second : isRelation? other.fieldType = some relation) (same : one.name = other.name)
  | relationFirst (first : isRelation? one.fieldType = some true)
      (second : isRelation? other.fieldType = some false) (same : one.name ++ "_id" = other.name)
  | relationSecond (first : isRelation? one.fieldType = some false)
      (second : isRelation? other.fieldType = some true) (same : one.name = other.name ++ "_id")

theorem fieldColumn_eq (field : SchemaField) :
    fieldColumn field = (isRelation? field.fieldType).map fun relation =>
      if relation then relationColumn field else buildPrimitiveColumn field := by
  unfold fieldColumn isRelation?
  cases field.fieldType <;> rfl

theorem collide_iff {one other : SchemaField} :
    Collide one other ↔ ∃ column ∈ fieldColumn one, ∃ column' ∈ fieldColumn other,
      column.columnName = column'.columnName := by
  simp only [fieldColumn_eq, Option.mem_def, Option.map_eq_some_iff]
  constructor
  · rintro (⟨first, second, same⟩ | ⟨first, second, same⟩ | ⟨first, second, same⟩)
    · rename_i relation
      refine ⟨_, ⟨relation, first, rfl⟩, _, ⟨relation, second, rfl⟩, ?_⟩
      cases relation <;> simp [relationColumn, buildPrimitiveColumn, same]
    · exact ⟨_, ⟨true, first, rfl⟩, _, ⟨false, second, rfl⟩, same⟩
    · exact ⟨_, ⟨false, first, rfl⟩, _, ⟨true, second, rfl⟩, same⟩
  · rintro ⟨_, ⟨relation, first, rfl⟩, _, ⟨relation', second, rfl⟩, same⟩
    cases relation <;> cases relation'
    · exact .sameName first second same
    · exact .relationSecond first second same
    · exact .relationFirst first second same
    · refine .sameName first second ?_
      have letters := congrArg String.toList same
      exact String.toList_injective (by simpa [relationColumn] using letters)

theorem nodup_columns_iff (fields : List SchemaField) :
    ((fields.filterMap fieldColumn).map (·.columnName)).Nodup ↔
      fields.Pairwise fun one other => ¬ Collide one other := by
  rw [List.Nodup, List.pairwise_map, List.pairwise_filterMap]
  refine List.Pairwise.iff fun one other => ?_
  rw [collide_iff]
  constructor
  · rintro apart ⟨column, here, column', there, same⟩
    exact apart column here column' there same
  · intro apart column here column' there same
    exact apart ⟨column, here, column', there, same⟩

/-- The one `id` becomes the one primary column. -/
theorem primary_columns {schemaName : String} {fields : List SchemaField}
    (valid : validateIdField schemaName fields = .ok ()) :
    ∃ column, (fields.filterMap fieldColumn).filter (·.primary) = [column] ∧
      column.columnName = "id" := by
  unfold validateIdField at valid
  dsimp only at valid
  split at valid
  · cases valid
  · rename_i field found
    split at valid
    · cases valid
    · split at valid
      · cases valid
      · rename_i kind
        have integer : field.fieldType = .integerType := not_not.mp kind
        have named : field.name = "id" := by
          have member : field ∈ fields.filter fun field => field.name = "id" := by
            rw [found]
            exact List.mem_singleton_self field
          simpa using (List.mem_filter.mp member).2
        refine ⟨buildPrimitiveColumn field, ?_, named⟩
        -- Only a value called `id` is primary.
        have primary : ∀ other : SchemaField, (fieldColumn other).filter (·.primary) =
            if decide (other.name = "id") = true then (fieldColumn other).filter (·.primary)
            else none := by
          intro other
          split
          · rfl
          · rename_i different
            rw [decide_eq_true_eq] at different
            rw [fieldColumn_eq]
            cases isRelation? other.fieldType with
            | none => rfl
            | some relation =>
                cases relation <;>
                  simp [Option.filter, relationColumn, buildPrimitiveColumn, different]
        rw [List.filter_filterMap, funext primary, ← List.filterMap_filter, found]
        simp [fieldColumn, integer, Option.filter, buildPrimitiveColumn, named]
  · cases valid

/-! ## Order -/

theorem tableName_le_trans (one two three : PersistentTable)
    (first : decide (one.tableName ≤ two.tableName) = true)
    (second : decide (two.tableName ≤ three.tableName) = true) :
    decide (one.tableName ≤ three.tableName) = true := by
  rw [decide_eq_true_eq] at first second ⊢
  exact String.le_trans first second

theorem tableName_le_total (one other : PersistentTable) :
    (decide (one.tableName ≤ other.tableName) || decide (other.tableName ≤ one.tableName)) =
      true := by
  rw [Bool.or_eq_true, decide_eq_true_eq, decide_eq_true_eq]
  exact String.le_total _ _

/-- With one table a name, the order in which the tables are visited is not seen. -/
theorem planMigration_perm {tables order : List PersistentTable}
    (distinct : (tables.map (·.tableName)).Nodup) (visited : order.Perm tables)
    (current : DatabaseSchema) : planMigration current order = planMigration current tables := by
  have sorted (tables : List PersistentTable) :=
    List.pairwise_mergeSort tableName_le_trans tableName_le_total tables
  have same : (order.mergeSort fun one other => one.tableName ≤ other.tableName) =
      tables.mergeSort fun one other => one.tableName ≤ other.tableName := by
    refine List.Perm.eq_of_pairwise ?_ (sorted order) (sorted tables)
      ((List.mergeSort_perm _ _).trans (visited.trans (List.mergeSort_perm _ _).symm))
    intro one other here there below above
    rw [decide_eq_true_eq] at below above
    have known := visited.subset (List.mem_mergeSort.mp here)
    exact List.inj_on_of_nodup_map distinct known (List.mem_mergeSort.mp there)
      (String.le_antisymm below above)
  rw [planMigration, planMigration, same]

/-! ## Well-formed tables -/

/-- What the planner takes for granted. -/
structure WellFormedTables (tables : List PersistentTable) : Prop where
  names : (tables.map (·.tableName)).Nodup
  columns : ∀ table ∈ tables, (table.columns.map (·.columnName)).Nodup
  primary : ∀ table ∈ tables, ∃ column, table.columns.filter (·.primary) = [column] ∧
    column.columnName = "id"
  keys : ∀ table ∈ tables, ∀ key ∈ table.foreignKeys,
    key.columnName ∈ table.columns.map (·.columnName) ∧
      ∃ target ∈ tables, target.tableName = key.referencesTable

/-- The plan is the same in whatever order the tables are visited. -/
def PlansAlike (tables : List PersistentTable) : Prop :=
  ∀ order, order.Perm tables →
    ∀ current, planMigration current order = planMigration current tables

/-- Each persistent schema has its own table, and each of its stored fields its own
column. -/
structure DistinctStorage (schemas : Schemas) : Prop where
  tables : ((collectPersistentSchemas schemas).map (·.2.dbTable)).Nodup
  fields : ∀ entry ∈ collectPersistentSchemas schemas,
    entry.2.fields.Pairwise fun one other => ¬ Collide one other

section Stored

variable {schemas : Schemas}

theorem mem_storedTables {entries : Schemas} {table : PersistentTable} :
    table ∈ storedTables schemas entries ↔ ∃ entry ∈ entries, ∃ tableName,
      entry.2.dbTable = some tableName ∧
        table = storedTable schemas entry.1 tableName entry.2.fields := by
  simp only [storedTables, List.mem_filterMap, Option.map_eq_some_iff, eq_comm (a := table)]

theorem mem_collectPersistentSchemas {entry : String × SchemaDefinition} :
    entry ∈ collectPersistentSchemas schemas ↔
      entry ∈ schemas ∧ ∃ tableName, entry.2.dbTable = some tableName := by
  rw [collectPersistentSchemas, List.mem_filter, Option.isSome_iff_exists]

theorem tableNames_storedTables (entries : Schemas) :
    ((storedTables schemas entries).map (·.tableName)).map some =
      (collectPersistentSchemas entries).map (·.2.dbTable) := by
  induction entries with
  | nil => rfl
  | cons entry entries induction =>
      rw [storedTables, filterMap_cons_toList, ← storedTables, collectPersistentSchemas,
        List.filter_cons, ← collectPersistentSchemas]
      cases named : entry.2.dbTable with
      | none => simpa [named] using induction
      | some tableName => simpa [named, storedTable] using induction

theorem mem_fieldKey {field : SchemaField} {key : PersistentForeignKey}
    (known : key ∈ fieldKey schemas field) : ∃ target definition targetTable,
      field.fieldType = .reference target ∧ schemas.lookup target = some definition ∧
        definition.dbTable = some targetTable ∧ key = relationKey field target targetTable := by
  unfold fieldKey at known
  cases kind : field.fieldType with
  | reference target =>
      simp only [kind] at known
      obtain ⟨definition, found, known⟩ := Option.bind_eq_some_iff.mp known
      obtain ⟨targetTable, stored, known⟩ := Option.bind_eq_some_iff.mp known
      exact ⟨target, definition, targetTable, rfl, found, stored, (Option.some.inj known).symm⟩
  | _ =>
      simp only [kind] at known
      cases known

/-- Keys belong to columns and lead to tables, whatever the names are. -/
theorem storedTable_key {schemaName tableName : String} {fields : List SchemaField}
    {key : PersistentForeignKey}
    (known : key ∈ (storedTable schemas schemaName tableName fields).foreignKeys) :
    key.columnName ∈
        (storedTable schemas schemaName tableName fields).columns.map (·.columnName) ∧
      ∃ target ∈ storedTables schemas schemas, target.tableName = key.referencesTable := by
  obtain ⟨field, member, found⟩ := List.mem_filterMap.mp known
  obtain ⟨target, definition, targetTable, kind, looked, stored, rfl⟩ := mem_fieldKey found
  constructor
  · refine List.mem_map.mpr ⟨relationColumn field, List.mem_filterMap.mpr ⟨field, member, ?_⟩, rfl⟩
    simp [fieldColumn, kind]
  · exact ⟨_, (mem_storedTables).mpr ⟨(target, definition), Table.mem_of_lookup looked, targetTable,
      stored, rfl⟩, rfl⟩

end Stored

theorem validateIdField_of_built {schemas : Schemas} {tables : List PersistentTable}
    (built : buildPersistentTables schemas = .ok tables) {entry : String × SchemaDefinition}
    (member : entry ∈ schemas) {tableName : String} (stored : entry.2.dbTable = some tableName) :
    validateIdField entry.1 entry.2.fields = .ok () := by
  rw [buildPersistentTables, bind_eq_ok] at built
  obtain ⟨⟨⟩, valid, -⟩ := built
  have checked := forM_eq_ok.mp valid entry member
  dsimp only at checked
  rw [stored] at checked
  obtain ⟨⟨⟩, id, -⟩ := bind_eq_ok.mp checked
  exact id

/-- The tables are well formed when no two schemas share a table and no two fields a
column; nothing checks either. -/
theorem wellFormedTables_iff {schemas : Schemas} {tables : List PersistentTable}
    (built : buildPersistentTables schemas = .ok tables) :
    (WellFormedTables tables ∧ PlansAlike tables) ↔ DistinctStorage schemas := by
  have same := buildPersistentTables_eq built
  have names : (tables.map (·.tableName)).Nodup ↔
      ((collectPersistentSchemas schemas).map (·.2.dbTable)).Nodup := by
    rw [← @tableNames_storedTables schemas, ← same]
    exact (List.nodup_map_iff (Option.some_injective _)).symm
  constructor
  · rintro ⟨well, -⟩
    refine ⟨names.mp well.names, fun entry member => ?_⟩
    obtain ⟨known, tableName, stored⟩ := mem_collectPersistentSchemas.mp member
    rw [← nodup_columns_iff]
    exact well.columns (storedTable schemas entry.1 tableName entry.2.fields)
      (same ▸ mem_storedTables.mpr ⟨entry, known, tableName, stored, rfl⟩)
  · intro distinct
    have apart := names.mpr distinct.tables
    refine ⟨⟨apart, ?_, ?_, ?_⟩, fun order visited => planMigration_perm apart visited⟩
    · intro table member
      obtain ⟨entry, known, tableName, stored, rfl⟩ := mem_storedTables.mp (same ▸ member)
      exact (nodup_columns_iff _).mpr
        (distinct.fields entry (mem_collectPersistentSchemas.mpr ⟨known, tableName, stored⟩))
    · intro table member
      obtain ⟨entry, known, tableName, stored, rfl⟩ := mem_storedTables.mp (same ▸ member)
      exact primary_columns (validateIdField_of_built built known stored)
    · intro table member key here
      obtain ⟨entry, known, tableName, stored, rfl⟩ := mem_storedTables.mp (same ▸ member)
      rw [same]
      exact storedTable_key here

/-- Users with an address, beside a field of the given name. -/
def addressSchemas (field : String) : Schemas :=
  [("User", {
      dbTable := some "users"
      fields :=
        [{ name := "id", fieldType := .integerType, optional := false },
          { name := "address", fieldType := .reference "Address", optional := true },
          { name := field, fieldType := .integerType, optional := false }] }),
    ("Address", {
      dbTable := some "addresses"
      fields := [{ name := "id", fieldType := .integerType, optional := false }] })]

theorem wellFormedTables_addressSchemas :
    WellFormedTables (storedTables (addressSchemas "age") (addressSchemas "age")) := by
  refine ((@wellFormedTables_iff (addressSchemas "age") _ rfl).mpr ⟨by decide, ?_⟩).1
  intro entry member
  rw [← nodup_columns_iff]
  revert entry
  decide

/-- The relation `address` and the field `address_id` are stored in one column. -/
theorem addressSchemas_not_wellFormed : ∃ tables,
    buildPersistentTables (addressSchemas "address_id") = .ok tables ∧
      ¬ WellFormedTables tables := by
  refine ⟨_, rfl, fun well => ?_⟩
  have distinct := well.columns _ List.mem_cons_self
  revert distinct
  decide

end Marreta.Migrations
