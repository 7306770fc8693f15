import Marreta.Error
import Marreta.Foundation.Text
import Marreta.Runtime.Value

namespace Marreta

open Foundation

/-! SQL statements as lists of pieces.  A piece is fixed text (keywords,
placeholders, numbers and the table the call was written against) or a name
spliced in from a runtime value, kept with the text it was spliced as. -/

inductive SqlPiece where
  | text (sql : String)
  | name (raw rendered : String)
deriving DecidableEq

abbrev Sql := List SqlPiece

namespace Sql

def pieceText : SqlPiece → String
  | .text sql => sql
  | .name _ rendered => rendered

/-- The text that reaches the database. -/
def render (sql : Sql) : String :=
  String.join (sql.map pieceText)

/-- Join statements with a separator. -/
def joined (separator : String) (parts : List Sql) : Sql :=
  List.intercalate [.text separator] parts

end Sql

structure SqlStatement where
  sql : Sql
  params : List Value

/-! ## Identifiers -/

def truncateForMessage (raw : String) : String :=
  let text := Text.trim raw.toList
  if 60 < text.length then String.ofList (text.take 60) ++ "..."
  else String.ofList text

def invalidIdentifier (raw : String) : MarretaError :=
  .dbIdentifierError .invalidIdentifier
    ("invalid SQL identifier '" ++ truncateForMessage raw ++ "'")

def unknownColumn (raw : String) : MarretaError :=
  .dbIdentifierError .unknownColumn
    ("unknown column '" ++ truncateForMessage raw ++ "'")

def segmentOk : List Char → Bool
  | [] => false
  | first :: rest =>
      (first.isAlpha || first = '_') && rest.all fun ch => ch.isAlphanum || ch = '_'

def identifierSegments (raw : String) : List (List Char) :=
  (Text.trim raw.toList).splitOn '.'

/-- `name` or `table.name`, each segment an ASCII identifier. -/
def shapedIdentifier (raw : String) : Bool :=
  let segments := identifierSegments raw
  (segments.length = 1 || segments.length = 2) && segments.all segmentOk

def quoteSegment (segment : List Char) : String :=
  "\"" ++ String.ofList segment ++ "\""

def quoteIdentifier (raw : String) : Except MarretaError String :=
  if shapedIdentifier raw then
    .ok (String.intercalate "." ((identifierSegments raw).map quoteSegment))
  else .error (invalidIdentifier raw)

example : quoteIdentifier " users.id" = .ok "\"users\".\"id\"" := by decide +kernel

/-- Quote a column; a table with declared columns also rejects an unqualified
name that is not one of them. -/
def validateColumn (raw : String) (known : Option (List String)) :
    Except MarretaError String := do
  let quoted ← quoteIdentifier raw
  match known with
  | none => .ok quoted
  | some columns =>
      let trimmed := Text.trim raw.toList
      if '.' ∈ trimmed ∨ String.ofList trimmed ∈ columns then .ok quoted
      else .error (unknownColumn raw)

def columnPiece (raw : String) (known : Option (List String)) :
    Except MarretaError SqlPiece := do
  let rendered ← validateColumn raw known
  .ok (.name raw rendered)

/-! ## Statements -/

def isDirection (word : List Char) : Bool :=
  let upper := word.map Char.toUpper
  upper = "ASC".toList || upper = "DESC".toList

/-- One comma-separated part of `order_by`: a column and an optional direction,
which is spliced as it was written. -/
def orderPart (known : Option (List String)) (part : List Char) :
    Except MarretaError Sql :=
  match Text.words part with
  | [column] => do
      let piece ← columnPiece (String.ofList column) known
      .ok [piece]
  | [column, direction] =>
      if isDirection direction then do
        let piece ← columnPiece (String.ofList column) known
        .ok [piece, .text (" " ++ String.ofList direction)]
      else .error (invalidIdentifier (String.ofList part))
  | _ => .error (invalidIdentifier (String.ofList part))

def buildOrderBy (order : String) (known : Option (List String)) :
    Except MarretaError Sql := do
  let parts ← (order.toList.splitOn ',').mapM (orderPart known)
  .ok (Sql.joined ", " parts)

def joinKeyword : JoinKind → String
  | .inner => "INNER JOIN"
  | .left => "LEFT JOIN"

/-- Joins splice their table and column as they were given. -/
def joinClause (table : String) (join : JoinClause) : Sql :=
  [.text (" " ++ joinKeyword join.kind ++ " "), .name join.table join.table,
    .text (" ON " ++ table ++ "."), .name join.on join.on, .text " = ",
    .name join.table join.table, .text ".id"]

def placeholder (index : Nat) : String :=
  "$" ++ toString index

/-- A filter whose parameters are numbered from `next` on. -/
def filterClause (known : Option (List String)) (next : Nat) (filter : Filter) :
    Except MarretaError (Sql × List Value) := do
  let column ← columnPiece filter.column known
  match filter.op, filter.value with
  | .in, .list items =>
      let placeholders := (List.range items.length).map fun index =>
        placeholder (next + index)
      .ok ([column, .text (" IN (" ++ String.intercalate ", " placeholders ++ ")")], items)
  | .in, value => .ok ([column, .text (" IN (" ++ placeholder next ++ ")")], [value])
  | op, value => .ok ([column, .text (" " ++ op.toSql ++ " " ++ placeholder next)], [value])

def filterClauses (known : Option (List String)) :
    Nat → List Filter → Except MarretaError (List Sql × List Value)
  | _, [] => .ok ([], [])
  | next, filter :: filters => do
      let (clause, values) ← filterClause known next filter
      let (clauses, more) ← filterClauses known (next + values.length) filters
      .ok (clause :: clauses, values ++ more)

def selectList (query : Query) : Except MarretaError Sql :=
  if query.count then .ok [.text "COUNT(*) AS count"]
  else if query.selectCols.isEmpty then .ok [.text "*"]
  else do
    let columns ← query.selectCols.mapM fun column =>
      columnPiece column query.knownColumns
    .ok (Sql.joined ", " (columns.map fun piece => [piece]))

def whereClause (clauses : List Sql) : Sql :=
  if clauses.isEmpty then []
  else .text " WHERE " :: Sql.joined " AND " clauses

def orderClause (query : Query) : Except MarretaError Sql :=
  match query.orderBy with
  | none => .ok []
  | some order => do
      let parts ← buildOrderBy order query.knownColumns
      .ok (.text " ORDER BY " :: parts)

def boundClause (keyword : String) : Option Int64 → Sql
  | none => []
  | some bound => [.text (keyword ++ toString bound)]

def buildSelect (query : Query) : Except MarretaError SqlStatement := do
  let select ← selectList query
  let (clauses, params) ← filterClauses query.knownColumns 1 query.filters
  let order ← orderClause query
  .ok {
    sql := [.text "SELECT "] ++ select ++ [.text (" FROM " ++ query.table)] ++
      query.joins.flatMap (joinClause query.table) ++ whereClause clauses ++
      order ++ boundClause " LIMIT " query.limit ++
      boundClause " OFFSET " query.offset
    params }

/-- `column op $n` for each column, numbered from `next` on.  Unlike a select,
a write gives every filter a single parameter, lists included. -/
def numberedColumns (known : Option (List String)) :
    Nat → List (String × String) → Except MarretaError (List Sql)
  | _, [] => .ok []
  | next, (column, operator) :: columns => do
      let piece ← columnPiece column known
      let rest ← numberedColumns known (next + 1) columns
      .ok ([piece, .text (" " ++ operator ++ " " ++ placeholder next)] :: rest)

def filterColumns (filters : List Filter) : List (String × String) :=
  filters.map fun filter => (filter.column, filter.op.toSql)

def buildUpdate (table : String) (dataKeys : List String) (filters : List Filter)
    (known : Option (List String)) : Except MarretaError Sql := do
  let setClauses ← numberedColumns known 1 (dataKeys.map fun key => (key, "="))
  let clauses ← numberedColumns known (dataKeys.length + 1) (filterColumns filters)
  .ok ([.text ("UPDATE " ++ table ++ " SET ")] ++ Sql.joined ", " setClauses ++
    whereClause clauses)

def buildDelete (table : String) (filters : List Filter)
    (known : Option (List String)) : Except MarretaError Sql := do
  let clauses ← numberedColumns known 1 (filterColumns filters)
  .ok ([.text ("DELETE FROM " ++ table)] ++ whereClause clauses)

end Marreta
