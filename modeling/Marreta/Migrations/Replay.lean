import Marreta.Foundation.Table
import Marreta.Migrations.Sql
import Marreta.Runtime.Host

namespace Marreta.Migrations

open Foundation (Table)
open Foundation.Text (isWhitespace trim)

/-! Replaying migrations.

The tables and columns that a project's migrations lead to are derived from their
text, statement after statement.  Keys of the maps are names as they are written. -/

structure DatabaseColumn where
  name : String
  /-- The type as it is written, if one was found. -/
  renderedType : Option String
  nullable : Option Bool
deriving DecidableEq

structure DatabaseForeignKey where
  name : String
  columnName : String
  referencesTable : String
  referencesColumn : String
deriving DecidableEq

structure DatabaseTable where
  name : String
  columns : List (String × DatabaseColumn)
  foreignKeys : List (String × DatabaseForeignKey)
deriving DecidableEq

structure DatabaseSchema where
  tables : List (String × DatabaseTable)
deriving DecidableEq

structure LocalMigration where
  version : String
  name : String
  upSql : List Char
deriving DecidableEq

namespace DatabaseTable

def new (name : String) : DatabaseTable :=
  { name, columns := [], foreignKeys := [] }

def putColumn (table : DatabaseTable) (column : DatabaseColumn) : DatabaseTable :=
  { table with columns := Table.put table.columns column.name column }

def putForeignKey (table : DatabaseTable) (key : DatabaseForeignKey) : DatabaseTable :=
  { table with foreignKeys := Table.put table.foreignKeys key.name key }

end DatabaseTable

namespace DatabaseSchema

def table? (schema : DatabaseSchema) (name : String) : Option DatabaseTable :=
  schema.tables.lookup name

def putTable (schema : DatabaseSchema) (name : String) (table : DatabaseTable) : DatabaseSchema :=
  { schema with tables := Table.put schema.tables name table }

/-- Change the table of an `ALTER TABLE`, which is made if there is none. -/
def alterTable (schema : DatabaseSchema) (name : String)
    (change : DatabaseTable → DatabaseTable) : DatabaseSchema :=
  schema.putTable name (change ((schema.table? name).getD (.new name)))

end DatabaseSchema

/-! ## Errors -/

/-- A slice whose end comes before its start panics. -/
abbrev Replay := Except LibraryFault

def parseError {α : Type} (version detail : String) : Replay α :=
  .error (.error (.ioError ("could not parse local migration " ++ version ++ ": " ++ detail)))

def rejectedDdl {α : Type} (migration : LocalMigration) (statement : List Char) : Replay α :=
  .error (.error (.ioError ("could not derive schema from local migration " ++
    migration.version ++ "_" ++ migration.name ++ ": unsupported statement '" ++
    String.ofList (collapseWhitespace statement) ++
    "'. The replay derives schema state from generated DDL, and this statement changes " ++
    "columns in a way it cannot derive. Either rewrite the change as a schema edit plus a " ++
    "generated migration, or, if the statement is actually schema-neutral, put a line '" ++
    replaySkipMarker ++ "' before it to skip it during derivation.")))

def orParseError {α : Type} (version detail : String) : Option α → Replay α
  | some value => .ok value
  | none => parseError version detail

/-! ## Columns -/

def typeTerminators : List String :=
  ["PRIMARY", "GENERATED", "NOT", "NULL", "DEFAULT", "UNIQUE", "REFERENCES", "CHECK", "COLLATE"]

def isTypeTerminator (token : List Char) : Bool :=
  typeTerminators.any fun keyword => toAsciiUppercase token = keyword.toList

/-- The type and the nullability in what follows the name of a column. -/
def captureTypeAndNullability (afterName : List Char) : Option String × Option Bool :=
  match (tokenizeParenAware afterName).takeWhile fun token => !isTypeTerminator token with
  | [] => (none, none)
  | tokens =>
      let modifiers := toAsciiUppercase (blankStringLiterals afterName)
      (some (String.ofList ([' '].intercalate tokens)),
        some !(hasInfix "NOT NULL".toList modifiers || hasInfix "PRIMARY KEY".toList modifiers))

def columnOf (name afterName : List Char) : DatabaseColumn :=
  let (renderedType, nullable) := captureTypeAndNullability afterName
  { name := String.ofList name, renderedType, nullable }

def constraintLeads : List String :=
  ["CONSTRAINT", "PRIMARY KEY", "FOREIGN KEY", "UNIQUE", "CHECK", "EXCLUDE"]

/-- A definition of a table that is a constraint, not a column. -/
def isTableLevelConstraint (definition : List Char) : Bool :=
  let upper := toAsciiUppercase definition
  constraintLeads.any fun lead =>
    upper = lead.toList || (lead.toList ++ [' ']).isPrefixOf upper ||
      (lead.toList ++ ['(']).isPrefixOf upper

/-- A text without the commas at its end. -/
def trimCommas (text : List Char) : List Char :=
  (text.reverse.dropWhile (· = ',')).reverse

/-! ## Statements -/

/-- The column of a definition of `CREATE TABLE`, if it is one. -/
def createdColumn (version : String) (rawDefinition : List Char) :
    Replay (Option DatabaseColumn) :=
  let definition := trim (trimCommas (trim rawDefinition))
  if definition = [] then .ok none
  else if isTableLevelConstraint definition then .ok none
  else
    match splitWord isWhitespace definition with
    | some (name, afterName) => .ok (some (columnOf name afterName))
    | none =>
        parseError version ("invalid column definition '" ++ String.ofList definition ++ "'")

def createdColumns (version : String) (table : DatabaseTable) :
    List (List Char) → Replay DatabaseTable
  | [] => .ok table
  | definition :: rest => do
      match ← createdColumn version definition with
      | some column => createdColumns version (table.putColumn column) rest
      | none => createdColumns version table rest

def applyCreateTableStmt (schema : DatabaseSchema) (rest : List Char) (version : String) :
    Replay DatabaseSchema := do
  let (before, after) ←
    orParseError version "CREATE TABLE missing '('" (splitOnce ['('] rest)
  let tableName := String.ofList (trim before)
  let body := trim after
  if body.getLast? ≠ some ')' then parseError version "CREATE TABLE missing closing ')'"
  else
    let table ← createdColumns version (.new tableName) (splitColumnDefs body.dropLast)
    return schema.putTable tableName table

/-- The foreign key in `name FOREIGN KEY (column) REFERENCES table(column)`. -/
def parseForeignKey (version : String) (definition : List Char) : Replay DatabaseForeignKey := do
  let (constraintName, keyText) ←
    orParseError version ("invalid ADD CONSTRAINT '" ++ String.ofList definition ++ "'")
      (splitOnce " FOREIGN KEY ".toList definition)
  let (beforeOpen, _) ← orParseError version "foreign key missing '('" (splitOnce ['('] keyText)
  let (beforeClose, afterClose) ←
    orParseError version "foreign key missing ')'" (splitOnce [')'] keyText)
  if beforeClose.length < beforeOpen.length + 1 then .error .panic
  else
    let columnName := trim (beforeClose.drop (beforeOpen.length + 1))
    let refs := trim afterClose
    if ¬ "REFERENCES ".toList.isPrefixOf refs then
      parseError version "foreign key missing REFERENCES"
    else
      let refs := refs.drop "REFERENCES ".length
      let (beforeRefsOpen, _) ←
        orParseError version "references missing '('" (splitOnce ['('] refs)
      let (beforeRefsClose, _) ←
        orParseError version "references missing ')'" (splitOnce [')'] refs)
      if beforeRefsClose.length < beforeRefsOpen.length + 1 then .error .panic
      else
        return {
          name := String.ofList (trim constraintName)
          columnName := String.ofList columnName
          referencesTable := String.ofList (trim beforeRefsOpen)
          referencesColumn :=
            String.ofList (trim (beforeRefsClose.drop (beforeRefsOpen.length + 1))) }

/-- Only added columns and constraints are derived. -/
def applyAlterTableStmt (schema : DatabaseSchema) (migration : LocalMigration)
    (statement rest : List Char) : Replay DatabaseSchema := do
  let (tableName, remainder) ←
    orParseError migration.version ("invalid ALTER TABLE '" ++ String.ofList rest ++ "'")
      (splitWord (· = ' ') rest)
  match stripKeywordCi remainder "ADD COLUMN " with
  | some definition => do
      let (name, afterName) ←
        orParseError migration.version ("invalid ADD COLUMN '" ++ String.ofList definition ++ "'")
          (splitWord isWhitespace definition)
      return schema.alterTable (String.ofList tableName)
        (·.putColumn (columnOf name afterName))
  | none =>
      match stripKeywordCi remainder "ADD CONSTRAINT " with
      | some definition => do
          let key ← parseForeignKey migration.version definition
          return schema.alterTable (String.ofList tableName) (·.putForeignKey key)
      | none => rejectedDdl migration statement

def autoToleratedPrefixes : List String :=
  ["CREATE INDEX", "CREATE UNIQUE INDEX", "DROP INDEX", "INSERT", "UPDATE", "DELETE", "WITH"]

/-- Statements that cannot change tables or columns. -/
def isAutoTolerated (upper : List Char) : Bool :=
  autoToleratedPrefixes.any fun start =>
    upper = start.toList ||
      (start.toList.isPrefixOf upper &&
        (upper.drop start.length).head?.any fun ch => isWhitespace ch || ch = '(')

def applyStatement (migration : LocalMigration) (schema : DatabaseSchema)
    (rawStatement : List Char) : Replay DatabaseSchema :=
  let statement := trim (stripSqlComments rawStatement)
  if statement = [] then .ok schema
  else if chunkHasSkipMarker rawStatement then .ok schema
  else
    match stripKeywordCi statement "CREATE TABLE " with
    | some rest => applyCreateTableStmt schema rest migration.version
    | none =>
        match stripKeywordCi statement "ALTER TABLE " with
        | some rest => applyAlterTableStmt schema migration statement rest
        | none =>
            if isAutoTolerated (toAsciiUppercase statement) then .ok schema
            else rejectedDdl migration statement

def applyLocalMigrationToSchema (schema : DatabaseSchema) (migration : LocalMigration) :
    Replay DatabaseSchema :=
  (splitSqlStatements migration.upSql).foldlM (applyStatement migration) schema

def buildSchemaFromLocalMigrations (locals : List LocalMigration) : Replay DatabaseSchema :=
  locals.foldlM applyLocalMigrationToSchema { tables := [] }

example :
    buildSchemaFromLocalMigrations
      [{ version := "1", name := "m"
         upSql := ("CREATE TABLE users (id BIGINT PRIMARY KEY, name TEXT);\n" ++
          "ALTER TABLE users ADD COLUMN age BIGINT NOT NULL; -- done\n").toList }] =
      .ok { tables := [("users",
        { name := "users"
          columns :=
            [("id", { name := "id", renderedType := some "BIGINT", nullable := some false }),
              ("name", { name := "name", renderedType := some "TEXT", nullable := some true }),
              ("age", { name := "age", renderedType := some "BIGINT", nullable := some false })]
          foreignKeys := [] })] } := by
  decide +kernel

end Marreta.Migrations
