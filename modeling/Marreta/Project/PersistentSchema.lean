import Marreta.Runtime.Host

namespace Marreta

/-! Schemas stored in tables.  The maps of the source are visited in no fixed
order; only the choice among several errors depends on it. -/

def collectPersistentSchemas (schemas : Schemas) : Schemas :=
  schemas.filter fun entry => entry.2.dbTable.isSome

/-- The one `id` of a persistent schema is a required integer. -/
def validateIdField (schemaName : String) (fields : List SchemaField) :
    Except MarretaError Unit :=
  let invalid (message : String) : Except MarretaError Unit :=
    .error (.invalidPersistentSchemaDefinition schemaName message)
  match fields.filter fun field => field.name = "id" with
  | [] => invalid "persistent schema must declare `id: integer`"
  | [id] =>
      if id.optional then invalid "persistent schema `id` must not be optional"
      else if id.fieldType ≠ .integerType then
        invalid "persistent schema `id` must be typed as integer"
      else .ok ()
  | _ => invalid "persistent schema declares `id` more than once"

/-- A list relation needs exactly one field of the target that refers back. -/
def validateInverse (schemaName fieldName targetSchema : String)
    (target : SchemaDefinition) : Except MarretaError Unit :=
  match target.fields.filter fun field => field.fieldType = .reference schemaName with
  | [_] => .ok ()
  | [] =>
      .error (.invalidPersistentSchemaDefinition schemaName
        ("list relation '" ++ fieldName ++ "' cannot be inferred because target schema '" ++
          targetSchema ++ "' does not reference '" ++ schemaName ++ "'"))
  | inverses =>
      .error (.invalidPersistentSchemaDefinition schemaName
        ("list relation '" ++ fieldName ++ "' is ambiguous because target schema '" ++
          targetSchema ++ "' references '" ++ schemaName ++ "' through multiple fields: " ++
          String.intercalate ", " (inverses.map (·.name))))

def validatePersistentField (schemas : Schemas) (schemaName : String) (field : SchemaField) :
    Except MarretaError Unit :=
  match field.fieldType with
  | .reference targetSchema =>
      match schemas.lookup targetSchema with
      | some target =>
          if target.dbTable.isNone then
            .error (.invalidPersistentSchemaReference schemaName field.name targetSchema)
          else .ok ()
      | none => .ok ()
  | .typedList (.reference targetSchema) =>
      match schemas.lookup targetSchema with
      | some target =>
          if target.dbTable.isSome then
            validateInverse schemaName field.name targetSchema target
          else .ok ()
      | none => .ok ()
  | _ => .ok ()

def validatePersistentSchemaReferences (schemas : Schemas) : Except MarretaError Unit :=
  schemas.forM fun (schemaName, schema) =>
    if schema.dbTable.isNone then .ok ()
    else do
      validateIdField schemaName schema.fields
      schema.fields.forM (validatePersistentField schemas schemaName)

/-! ## Tables -/

structure PersistentColumn where
  fieldName : String
  columnName : String
  fieldType : SchemaType
  nullable : Bool
  primary : Bool
  generated : Bool
  unique : Bool
deriving DecidableEq

structure PersistentForeignKey where
  fieldName : String
  columnName : String
  referencesSchema : String
  referencesTable : String
  referencesColumn : String
  nullable : Bool
deriving DecidableEq

structure PersistentTable where
  schemaName : String
  tableName : String
  columns : List PersistentColumn
  foreignKeys : List PersistentForeignKey
deriving DecidableEq

namespace PersistentTable

def addColumn (table : PersistentTable) (column : PersistentColumn) : PersistentTable :=
  { table with columns := table.columns ++ [column] }

def addForeignKey (table : PersistentTable) (key : PersistentForeignKey) : PersistentTable :=
  { table with foreignKeys := table.foreignKeys ++ [key] }

end PersistentTable

def buildPrimitiveColumn (field : SchemaField) : PersistentColumn :=
  { fieldName := field.name, columnName := field.name, fieldType := field.fieldType
    nullable := field.optional, primary := field.name = "id"
    generated := field.name = "id" ∧ field.fieldType = .integerType, unique := false }

/-- A relation is stored as the `id` of the other record. -/
def relationColumn (field : SchemaField) : PersistentColumn :=
  { fieldName := field.name, columnName := field.name ++ "_id", fieldType := .integerType
    nullable := field.optional, primary := false, generated := false, unique := false }

def relationKey (field : SchemaField) (targetSchema targetTable : String) :
    PersistentForeignKey :=
  { fieldName := field.name, columnName := field.name ++ "_id"
    referencesSchema := targetSchema, referencesTable := targetTable
    referencesColumn := "id", nullable := field.optional }

def addPersistentField (schemas : Schemas) (table : PersistentTable) (field : SchemaField) :
    Except MarretaError PersistentTable :=
  match field.fieldType with
  | .stringType | .integerType | .floatType | .decimalType | .booleanType | .instantType
  | .dateType | .timeType | .durationType | .intervalType | .enumType _ =>
      .ok (table.addColumn (buildPrimitiveColumn field))
  | .reference targetSchema =>
      match schemas.lookup targetSchema with
      | none =>
          .error (.invalidPersistentSchemaDefinition table.schemaName
            ("field '" ++ field.name ++ "' references unknown schema '" ++ targetSchema ++ "'"))
      | some target =>
          match target.dbTable with
          | none =>
              .error (.invalidPersistentSchemaReference table.schemaName field.name targetSchema)
          | some targetTable =>
              .ok ((table.addColumn (relationColumn field)).addForeignKey
                (relationKey field targetSchema targetTable))
  | .typedList _ => .ok table
  | .listType | .mapType =>
      .error (.invalidPersistentSchemaDefinition table.schemaName
        ("field '" ++ field.name ++ "' uses unsupported persistent type '" ++
          field.fieldType.display ++ "'"))

def buildPersistentTable (schemas : Schemas) (schemaName tableName : String)
    (schema : SchemaDefinition) : Except MarretaError PersistentTable :=
  schema.fields.foldlM (addPersistentField schemas)
    { schemaName, tableName, columns := [], foreignKeys := [] }

/-- The tables of the persistent schemas. -/
def buildPersistentTables (schemas : Schemas) : Except MarretaError (List PersistentTable) := do
  validatePersistentSchemaReferences schemas
  let tables ← schemas.mapM fun (schemaName, schema) =>
    match schema.dbTable with
    | none => .ok none
    | some tableName => some <$> buildPersistentTable schemas schemaName tableName schema
  return tables.filterMap id

/-- The column names of each table; none when the schemas have no tables. -/
def buildDbColumnIndex (persistentSchemas : Schemas) : List (String × List String) :=
  match buildPersistentTables persistentSchemas with
  | .error _ => []
  | .ok tables => tables.map fun table =>
      (table.tableName, table.columns.map (·.columnName) ++ table.foreignKeys.map (·.columnName))

end Marreta
