import Marreta.Db.Selection

namespace Marreta

open Foundation

/-! Statements as a database reads them.

The builder writes its statements piece by piece.  Here they are read back as a select
with its joins, conditions, order and bounds, and as the two writes, which have
conditions only. -/

/-! ## Statements -/

/-- The right-hand side of a condition: one placeholder, or a list of them. -/
inductive SqlOperand where
  | single (index : Nat)
  | listed (indexes : List Nat)
deriving DecidableEq

structure SqlCondition where
  column : SqlPiece
  op : FilterOp
  operand : SqlOperand

def SqlOperand.text : SqlOperand → String
  | .single index => placeholder index
  | .listed indexes => "(" ++ String.intercalate ", " (indexes.map placeholder) ++ ")"

def SqlCondition.render (condition : SqlCondition) : Sql :=
  [condition.column, .text (" " ++ condition.op.toSql ++ " " ++ condition.operand.text)]

def renderConditions (conditions : List SqlCondition) : Sql :=
  whereClause (conditions.map SqlCondition.render)

structure SelectStatement where
  columns : Sql
  table : String
  joins : List JoinClause
  conditions : List SqlCondition
  order : Option Sql
  limit : Option Int64
  offset : Option Int64

def SelectStatement.render (statement : SelectStatement) : Sql :=
  [.text "SELECT "] ++ statement.columns ++ [.text (" FROM " ++ statement.table)] ++
    statement.joins.flatMap (joinClause statement.table) ++
    renderConditions statement.conditions ++
    (match statement.order with
      | none => []
      | some order => .text " ORDER BY " :: order) ++
    boundClause " LIMIT " statement.limit ++ boundClause " OFFSET " statement.offset

/-- What an update or a delete says. -/
structure WriteStatement where
  table : String
  /-- The columns an update assigns, with their placeholders. -/
  assigned : Option (List (SqlPiece × Nat))
  conditions : List SqlCondition

def WriteStatement.render (statement : WriteStatement) : Sql :=
  (match statement.assigned with
    | none => [.text ("DELETE FROM " ++ statement.table)]
    | some assigned =>
        [.text ("UPDATE " ++ statement.table ++ " SET ")] ++
          Sql.joined ", " (assigned.map fun (column, index) =>
            [column, .text (" = " ++ placeholder index)])) ++
    renderConditions statement.conditions

/-! ## Reading the builder's statements -/

/-- The condition of a filter in a select, whose placeholders are numbered from `next`
on. -/
def selectCondition (known : Option (List String)) (next : Nat) (filter : Filter) :
    Except MarretaError (SqlCondition × List Value) := do
  let column ← columnPiece filter.column known
  match filter.op, filter.value with
  | .in, .list items =>
      .ok ({ column, op := .in,
             operand := .listed ((List.range items.length).map (next + ·)) }, items)
  | .in, value => .ok ({ column, op := .in, operand := .listed [next] }, [value])
  | op, value => .ok ({ column, op, operand := .single next }, [value])

def selectConditions (known : Option (List String)) :
    Nat → List Filter → Except MarretaError (List SqlCondition × List Value)
  | _, [] => .ok ([], [])
  | next, filter :: filters => do
      let (condition, values) ← selectCondition known next filter
      let (conditions, more) ← selectConditions known (next + values.length) filters
      .ok (condition :: conditions, values ++ more)

def readOrder (query : Query) : Except MarretaError (Option Sql) :=
  match query.orderBy with
  | none => .ok none
  | some order => some <$> buildOrderBy order query.knownColumns

def readSelect (query : Query) : Except MarretaError (SelectStatement × List Value) := do
  let columns ← selectList query
  let (conditions, params) ← selectConditions query.knownColumns 1 query.filters
  let order ← readOrder query
  .ok ({ columns, table := query.table, joins := query.joins, conditions, order,
         limit := query.limit, offset := query.offset }, params)

def writeConditions (known : Option (List String)) :
    Nat → List Filter → Except MarretaError (List SqlCondition)
  | _, [] => .ok []
  | next, filter :: filters => do
      let column ← columnPiece filter.column known
      let conditions ← writeConditions known (next + 1) filters
      .ok ({ column, op := filter.op, operand := .single next } :: conditions)

def assignedColumns (known : Option (List String)) :
    Nat → List String → Except MarretaError (List (SqlPiece × Nat))
  | _, [] => .ok []
  | next, key :: keys => do
      let column ← columnPiece key known
      let assigned ← assignedColumns known (next + 1) keys
      .ok ((column, next) :: assigned)

/-- The terminals that write. -/
inductive BulkWrite where
  | update (data : DbRow)
  | delete

def BulkWrite.terminal : BulkWrite → QueryTerminal
  | .update data => .update data
  | .delete => .delete

def readWrite (query : Query) : BulkWrite → Except MarretaError (WriteStatement × List Value)
  | .update data => do
      let keys := sortedKeys data
      let assigned ← assignedColumns query.knownColumns 1 keys
      let conditions ← writeConditions query.knownColumns (keys.length + 1) query.filters
      .ok ({ table := query.table, assigned := some assigned, conditions },
        sortedValues data ++ query.filters.map (·.value))
  | .delete => do
      let conditions ← writeConditions query.knownColumns 1 query.filters
      .ok ({ table := query.table, assigned := none, conditions }, query.filters.map (·.value))

section Reading

variable (known : Option (List String))

theorem filterClause_eq (next : Nat) (filter : Filter) :
    filterClause known next filter =
      (fun read => (read.1.render, read.2)) <$> selectCondition known next filter := by
  unfold filterClause selectCondition
  cases columnPiece filter.column known with
  | error error => rfl
  | ok column =>
      have bracket : ∀ list : String, " IN (" ++ list ++ ")" = " IN " ++ ("(" ++ list ++ ")") := by
        intro list
        rw [← String.append_assoc, ← String.append_assoc]
        rfl
      have keyword : " " ++ FilterOp.in.toSql ++ " " = " IN " := rfl
      cases op : filter.op with
      | «in» =>
          cases value : filter.value <;>
            simp [bind, Except.bind, Functor.map, Except.map, SqlCondition.render,
              SqlOperand.text, keyword, bracket, Function.comp_def]
      | _ => rfl

theorem filterClauses_eq (next : Nat) (filters : List Filter) :
    filterClauses known next filters =
      (fun read => (read.1.map SqlCondition.render, read.2)) <$>
        selectConditions known next filters := by
  induction filters generalizing next with
  | nil => rfl
  | cons filter filters induction =>
      rw [filterClauses, selectConditions, filterClause_eq]
      cases selectCondition known next filter with
      | error error => rfl
      | ok first =>
          simp only [Functor.map, Except.map, bind, Except.bind]
          rw [induction]
          cases selectConditions known (next + first.2.length) filters <;> rfl

theorem numberedColumns_filters (next : Nat) (filters : List Filter) :
    numberedColumns known next (filterColumns filters) =
      (List.map SqlCondition.render) <$> writeConditions known next filters := by
  induction filters generalizing next with
  | nil => rfl
  | cons filter filters induction =>
      have tail := induction (next + 1)
      rw [filterColumns] at tail
      rw [filterColumns, List.map_cons, numberedColumns, writeConditions, tail]
      cases columnPiece filter.column known with
      | error error => rfl
      | ok column => cases writeConditions known (next + 1) filters <;> rfl

theorem numberedColumns_keys (next : Nat) (keys : List String) :
    numberedColumns known next (keys.map fun key => (key, "=")) =
      (List.map fun (column, index) =>
        [column, .text (" = " ++ placeholder index)]) <$> assignedColumns known next keys := by
  induction keys generalizing next with
  | nil => rfl
  | cons key keys induction =>
      rw [List.map_cons, numberedColumns, assignedColumns, induction]
      cases columnPiece key known with
      | error error => rfl
      | ok column => cases assignedColumns known (next + 1) keys <;> rfl

end Reading

/-- A select is sent as it is read. -/
theorem buildSelect_eq (query : Query) :
    buildSelect query =
      (fun read => { sql := read.1.render, params := read.2 }) <$> readSelect query := by
  unfold buildSelect readSelect
  rw [filterClauses_eq]
  cases selectList query with
  | error error => rfl
  | ok columns =>
      cases selectConditions query.knownColumns 1 query.filters with
      | error error => rfl
      | ok conditions =>
          unfold orderClause readOrder
          cases query.orderBy with
          | none => rfl
          | some order =>
              cases built : buildOrderBy order query.knownColumns <;>
                simp [Functor.map, Except.map, bind, Except.bind, built, SelectStatement.render,
                  renderConditions]

/-- So is a write. -/
theorem statementOf_write (query : Query) (write : BulkWrite) :
    statementOf (write.terminal.op query) =
      (fun read => { sql := read.1.render, params := read.2 }) <$> readWrite query write := by
  cases write with
  | delete =>
      show deleteStatement query = _
      rw [deleteStatement, buildDelete, readWrite, numberedColumns_filters]
      cases writeConditions query.knownColumns 1 query.filters <;> rfl
  | update data =>
      show updateStatement query data = _
      rw [updateStatement, buildUpdate, readWrite, numberedColumns_keys, numberedColumns_filters]
      cases assignedColumns query.knownColumns 1 (sortedKeys data) with
      | error error => rfl
      | ok assigned =>
          cases writeConditions query.knownColumns ((sortedKeys data).length + 1)
            query.filters <;> rfl

end Marreta
