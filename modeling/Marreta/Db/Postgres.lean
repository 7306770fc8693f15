import Mathlib
import Marreta.Db.QueryBuilder

namespace Marreta

/-! The relational driver: the operations the interpreter asks for and the
statement each of them sends. -/

inductive DbOp where
  | save (table : String) (data : DbRow)
  | find (table : String) (id : Value)
  | findAll (table : String) (filters : List Filter)
  | updateById (table : String) (id : Value) (data : DbRow)
  | deleteById (table : String) (id : Value)
  | queryFetch (query : Query)
  | queryFetchOne (query : Query)
  | queryCount (query : Query)
  | queryExists (query : Query)
  | queryUpdate (query : Query) (data : DbRow)
  | queryDelete (query : Query)
  | nativeQuery (sql : String) (params : List Value)

namespace DbOp

/-- What a successful operation returns. -/
abbrev Reply : DbOp → Type
  | .save .. => DbRow
  | .find .. | .updateById .. | .queryFetchOne _ => Option DbRow
  | .findAll .. | .queryFetch _ | .nativeQuery .. => List DbRow
  | .deleteById .. | .queryExists _ => Bool
  | .queryCount _ => Int64
  | .queryUpdate .. | .queryDelete _ => UInt64

end DbOp

/-- The connection a statement goes through: the pool, or the transaction that
was opened with the given number. -/
inductive Channel where
  | pool
  | transaction (id : Nat)
deriving DecidableEq

def sortedKeys (data : DbRow) : List String :=
  (data.map (·.1)).insertionSort (· ≤ ·)

def sortedValues (data : DbRow) : List Value :=
  (sortedKeys data).filterMap fun key => data.lookup key

/-- A key of a row, spliced as it was given. -/
def keyPiece (key : String) : SqlPiece :=
  .name key key

def insertStatement (table : String) (data : DbRow) : SqlStatement :=
  let keys := sortedKeys data
  let placeholders := (List.range keys.length).map fun index =>
    placeholder (index + 1)
  { sql := [.text ("INSERT INTO " ++ table ++ " (")] ++
      Sql.joined ", " (keys.map fun key => [keyPiece key]) ++
      [.text (") VALUES (" ++ String.intercalate ", " placeholders ++ ") RETURNING *")]
    params := sortedValues data }

def assignments : Nat → List String → List Sql
  | _, [] => []
  | next, key :: keys =>
      [keyPiece key, .text (" = " ++ placeholder next)] :: assignments (next + 1) keys

def updateByIdStatement (table : String) (id : Value) (data : DbRow) :
    SqlStatement :=
  let keys := sortedKeys data
  { sql := [.text ("UPDATE " ++ table ++ " SET ")] ++
      Sql.joined ", " (assignments 1 keys) ++
      [.text (" WHERE id = " ++ placeholder (keys.length + 1) ++ " RETURNING *")]
    params := sortedValues data ++ [id] }

def countQuery (query : Query) : Query :=
  { query with count := true, orderBy := none, limit := none, offset := none }

def fetchOneStatement (query : Query) : Except MarretaError SqlStatement := do
  let statement ← buildSelect query
  if query.limit.isNone then
    .ok { statement with sql := statement.sql ++ [.text " LIMIT 1"] }
  else .ok statement

def updateStatement (query : Query) (data : DbRow) :
    Except MarretaError SqlStatement := do
  let sql ← buildUpdate query.table (sortedKeys data) query.filters query.knownColumns
  .ok { sql, params := sortedValues data ++ query.filters.map (·.value) }

def deleteStatement (query : Query) : Except MarretaError SqlStatement := do
  let sql ← buildDelete query.table query.filters query.knownColumns
  .ok { sql, params := query.filters.map (·.value) }

/-- The statement an operation sends, or the error it stops with before sending
anything.  The pool and the transaction build their statements alike. -/
def statementOf : DbOp → Except MarretaError SqlStatement
  | .save table data => .ok (insertStatement table data)
  | .find table id =>
      .ok { sql := [.text ("SELECT * FROM " ++ table ++ " WHERE id = $1")], params := [id] }
  | .findAll table filters =>
      buildSelect { (QueryState.new table : Query) with filters }
  | .updateById table id data => .ok (updateByIdStatement table id data)
  | .deleteById table id =>
      .ok { sql := [.text ("DELETE FROM " ++ table ++ " WHERE id = $1")], params := [id] }
  | .queryFetch query => buildSelect query
  | .queryFetchOne query => fetchOneStatement query
  | .queryCount query => buildSelect (countQuery query)
  | .queryExists query => buildSelect (countQuery query)
  | .queryUpdate query data => updateStatement query data
  | .queryDelete query => deleteStatement query
  | .nativeQuery sql params => .ok { sql := [.text sql], params }

structure Sent where
  channel : Channel
  statement : SqlStatement

/-- `PostgresDriver` sends through the pool. -/
def PostgresDriver.sends (op : DbOp) : Except MarretaError Sent := do
  let statement ← statementOf op
  .ok { channel := .pool, statement }

/-- `PgTransaction` sends through its own connection. -/
def PgTransaction.sends (id : Nat) (op : DbOp) : Except MarretaError Sent := do
  let statement ← statementOf op
  .ok { channel := .transaction id, statement }

def Channel.sends : Channel → DbOp → Except MarretaError Sent
  | .pool, op => PostgresDriver.sends op
  | .transaction id, op => PgTransaction.sends id op

end Marreta
