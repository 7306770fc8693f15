import Marreta.Migrations.Replay
import Marreta.Project.PersistentSchema

namespace Marreta.Migrations

open Foundation (Table)

/-! Planning migrations.

The planner compares the replayed tables with those of the persistent schemas and
adds what is missing.  It never removes or changes anything; such differences are
only reported. -/

inductive MigrationOp where
  | createTable (tableName : String) (columns : List PersistentColumn)
  | addColumn (tableName : String) (column : PersistentColumn)
  | addForeignKey (tableName : String) (foreignKey : PersistentForeignKey)
deriving DecidableEq

def foreignKeyConstraintName (tableName columnName : String) : String :=
  "fk_" ++ tableName ++ "_" ++ columnName

/-! ## Operations -/

def createOps (current : DatabaseSchema) (table : PersistentTable) : List MigrationOp :=
  match current.table? table.tableName with
  | none => [.createTable table.tableName table.columns]
  | some _ => []

def addColumnOps (current : DatabaseSchema) (table : PersistentTable) : List MigrationOp :=
  match current.table? table.tableName with
  | none => []
  | some existing =>
      (table.columns.filter fun column =>
        (existing.columns.lookup column.columnName).isNone).map (.addColumn table.tableName)

def addForeignKeyOps (current : DatabaseSchema) (table : PersistentTable) : List MigrationOp :=
  match current.table? table.tableName with
  | none => table.foreignKeys.map (.addForeignKey table.tableName)
  | some existing =>
      (table.foreignKeys.filter fun key =>
        (existing.foreignKeys.lookup
          (foreignKeyConstraintName table.tableName key.columnName)).isNone).map
        (.addForeignKey table.tableName)

/-- Tables are created first, then columns are added, then foreign keys. -/
def planMigration (current : DatabaseSchema) (desired : List PersistentTable) :
    List MigrationOp :=
  let tables := desired.mergeSort fun one other => one.tableName ≤ other.tableName
  tables.flatMap (createOps current) ++ tables.flatMap (addColumnOps current) ++
    tables.flatMap (addForeignKeyOps current)

/-! ## SQL -/

def postgresType : SchemaType → Except MarretaError String
  | .stringType => .ok "TEXT"
  | .integerType => .ok "BIGINT"
  | .floatType => .ok "DOUBLE PRECISION"
  | .decimalType => .ok "NUMERIC"
  | .booleanType => .ok "BOOLEAN"
  | .instantType => .ok "TIMESTAMPTZ"
  | .dateType => .ok "DATE"
  | .timeType => .ok "TIME"
  | .durationType => .ok "BIGINT"
  | .intervalType => .ok "JSONB"
  | .enumType _ => .ok "TEXT"
  | other =>
      .error (.runtimeError ("unsupported postgres type mapping for '" ++ other.display ++ "'") 0 0)

/-- Persistent columns have no defaults. -/
def renderPostgresColumn (column : PersistentColumn) : Except MarretaError (List Char) := do
  let type ← postgresType column.fieldType
  return [' '].intercalate
    ([column.columnName.toList, type.toList] ++
      (if column.primary then ["PRIMARY KEY".toList] else []) ++
      (if column.generated then ["GENERATED BY DEFAULT AS IDENTITY".toList] else []) ++
      (if column.nullable then [] else ["NOT NULL".toList]) ++
      (if column.unique then ["UNIQUE".toList] else []))

def renderPostgresOp : MigrationOp → Except MarretaError (List Char)
  | .createTable tableName columns => do
      let defs ← columns.mapM renderPostgresColumn
      return "CREATE TABLE ".toList ++ tableName.toList ++ " (\n  ".toList ++
        ",\n  ".toList.intercalate defs ++ "\n);".toList
  | .addColumn tableName column => do
      let definition ← renderPostgresColumn column
      return "ALTER TABLE ".toList ++ tableName.toList ++ " ADD COLUMN ".toList ++
        definition ++ ";".toList
  | .addForeignKey tableName key =>
      .ok ("ALTER TABLE ".toList ++ tableName.toList ++ " ADD CONSTRAINT ".toList ++
        (foreignKeyConstraintName tableName key.columnName).toList ++ " FOREIGN KEY (".toList ++
        key.columnName.toList ++ ") REFERENCES ".toList ++ key.referencesTable.toList ++
        "(".toList ++ key.referencesColumn.toList ++ ");".toList)

def renderPostgresUpSql (ops : List MigrationOp) : Except MarretaError (List (List Char)) :=
  ops.mapM renderPostgresOp

def renderPostgresDownOp : MigrationOp → Except MarretaError (List Char)
  | .createTable tableName _ => .ok ("DROP TABLE ".toList ++ tableName.toList ++ ";".toList)
  | .addColumn tableName column =>
      .ok ("ALTER TABLE ".toList ++ tableName.toList ++ " DROP COLUMN ".toList ++
        column.columnName.toList ++ ";".toList)
  | .addForeignKey tableName key =>
      .ok ("ALTER TABLE ".toList ++ tableName.toList ++ " DROP CONSTRAINT ".toList ++
        (foreignKeyConstraintName tableName key.columnName).toList ++ ";".toList)

/-- The operations are undone in reverse order. -/
def renderPostgresDownSql (ops : List MigrationOp) : Except MarretaError (List (List Char)) :=
  ops.reverse.mapM renderPostgresDownOp

/-- The statements of a file, which ends in a line feed. -/
def joinSql (statements : List (List Char)) : List Char :=
  let joined := "\n\n".toList.intercalate statements
  if joined.getLast? = some '\n' then joined else joined ++ ['\n']

/-! ## Drift -/

inductive SchemaDrift where
  | columnTypeDiffers (table column history schema : String)
  | columnNullabilityDiffers (table column : String) (historyNullable schemaNullable : Bool)
  | columnRemoved (table column : String)
  | tableRemoved (table : String)
deriving DecidableEq

def normalizePgType (rendered : String) : String :=
  let collapsed := String.ofList ((collapseWhitespace rendered.toList).map Char.toLower)
  match collapsed with
  | "int8" | "bigint" => "bigint"
  | "float8" | "double precision" => "double precision"
  | "bool" | "boolean" => "boolean"
  | "timestamptz" | "timestamp with time zone" => "timestamptz"
  | "decimal" | "numeric" => "numeric"
  | other => other

/-- A type or nullability that was not captured is not compared. -/
def columnDrift (table name : String) (history : DatabaseColumn) (desired : PersistentColumn) :
    List SchemaDrift :=
  let typeDrift :=
    match history.renderedType, postgresType desired.fieldType with
    | some historyType, .ok desiredType =>
        if normalizePgType historyType ≠ normalizePgType desiredType then
          [.columnTypeDiffers table name historyType desiredType]
        else []
    | _, _ => []
  let nullabilityDrift :=
    match history.nullable with
    | some historyNullable =>
        let schemaNullable := desired.nullable && !desired.primary
        if historyNullable ≠ schemaNullable then
          [.columnNullabilityDiffers table name historyNullable schemaNullable]
        else []
    | none => []
  typeDrift ++ nullabilityDrift

def tableDrift (desired : List PersistentTable) (name : String) (table : DatabaseTable) :
    List SchemaDrift :=
  match desired.find? fun desired => desired.tableName = name with
  | none => [.tableRemoved name]
  | some desired =>
      ((Table.keys table.columns).mergeSort (· ≤ ·)).flatMap fun column =>
        match table.columns.lookup column,
          desired.columns.find? fun desired => desired.columnName = column with
        | none, _ => []
        | some _, none => [.columnRemoved name column]
        | some history, some desired => columnDrift name column history desired

def detectSchemaDrift (current : DatabaseSchema) (desired : List PersistentTable) :
    List SchemaDrift :=
  ((Table.keys current.tables).mergeSort (· ≤ ·)).flatMap fun name =>
    match current.table? name with
    | none => []
    | some table => tableDrift desired name table

end Marreta.Migrations
