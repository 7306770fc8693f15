import Marreta.Db.Postgres

namespace Marreta

/-! Accumulating steps of a query pipeline, after their arguments have been
evaluated. -/

/-- Where a step was written, for its type errors. -/
structure Position where
  line : Nat
  column : Nat
deriving DecidableEq

namespace Position

def typeError (position : Position) (message : String) : MarretaError :=
  .typeError message position.line position.column

end Position

inductive QueryStep where
  | where (filters : List Filter)
  | join (kind : JoinKind) (arguments : List Value) (on : Option String)
  | select (arguments : List Value)
  | orderBy (arguments : List Value)
  | limit (arguments : List Value)
  | offset (arguments : List Value)
  | like (arguments : List Value)
  | in (arguments : List Value)

def joinName : JoinKind → String
  | .inner => "join"
  | .left => "left_join"

/-- The first argument when it is a string. -/
def firstString (position : Position) (message : String) :
    List Value → Except MarretaError String
  | .string text :: _ => .ok text
  | _ => .error (position.typeError message)

def firstInteger (position : Position) (message : String) :
    List Value → Except MarretaError Int64
  | .integer value :: _ => .ok value
  | _ => .error (position.typeError message)

def selectColumns (position : Position) :
    List Value → Except MarretaError (List String)
  | [] => .ok []
  | .string column :: rest => do
      let columns ← selectColumns position rest
      .ok (column :: columns)
  | other :: _ =>
      .error (position.typeError
        ("select columns must be strings, got " ++ other.typeName))

def joinStep (position : Position) (kind : JoinKind) (arguments : List Value)
    (on : Option String) (query : Query) : Except MarretaError Query := do
  let table ← firstString position
    (joinName kind ++ " first argument must be a table name string") arguments
  match on with
  | none =>
      .error (position.typeError
        (joinName kind ++ " requires on: \"fk_column\" named argument"))
  | some on => .ok { query with joins := query.joins ++ [{ kind, table, on }] }

def likeStep (position : Position) (arguments : List Value) (query : Query) :
    Except MarretaError Query := do
  let column ← firstString position
    "like requires a column name string as first argument (e.g. like(\"name\", \"Ana%\"))"
    arguments
  match arguments.drop 1 with
  | [] =>
      .error (position.typeError "like requires a pattern string as second argument")
  | value :: _ =>
      .ok { query with filters := query.filters ++ [{ column, op := .like, value }] }

def inStep (position : Position) (arguments : List Value) (query : Query) :
    Except MarretaError Query := do
  let column ← firstString position
    "in requires a column name string as first argument (e.g. in(\"status\", [\"active\", \"pending\"]))"
    arguments
  match arguments.drop 1 with
  | [] => .error (position.typeError "in requires a list as second argument")
  | .list items :: _ =>
      .ok { query with
        filters := query.filters ++ [{ column, op := .in, value := .list items }] }
  | other :: _ =>
      .error (position.typeError
        ("in requires a list as second argument, got " ++ other.typeName))

def applyQueryStep (position : Position) (step : QueryStep) (query : Query) :
    Except MarretaError Query :=
  match step with
  | .where filters => .ok { query with filters := query.filters ++ filters }
  | .join kind arguments on => joinStep position kind arguments on query
  | .select arguments => do
      let selectCols ← selectColumns position arguments
      .ok { query with selectCols }
  | .orderBy arguments => do
      let order ← firstString position
        "order_by requires a string argument (e.g. order_by(\"created_at desc\"))"
        arguments
      .ok { query with orderBy := some order }
  | .limit arguments => do
      let bound ← firstInteger position "limit requires an integer argument" arguments
      .ok { query with limit := some bound }
  | .offset arguments => do
      let bound ← firstInteger position "offset requires an integer argument" arguments
      .ok { query with offset := some bound }
  | .like arguments => likeStep position arguments query
  | .in arguments => inStep position arguments query

/-- The state of a table when a pipeline starts on it. -/
def promoteTable (columns : String → Option (List String)) (table : String) :
    Query :=
  { (QueryState.new table : Query) with knownColumns := columns table }

inductive QueryTerminal where
  | fetch | fetchOne | count | exists
  | update (data : DbRow)
  | delete

def QueryTerminal.op (query : Query) : QueryTerminal → DbOp
  | .fetch => .queryFetch query
  | .fetchOne => .queryFetchOne query
  | .count => .queryCount query
  | .exists => .queryExists query
  | .update data => .queryUpdate query data
  | .delete => .queryDelete query

/-! ## Whole calls -/

/-- A relational call of a program, with its arguments evaluated. -/
inductive DbCall where
  | save (table : String) (data : DbRow)
  | find (table : String) (id : Value)
  | findAll (table : String) (filters : List (String × Value))
  | update (table : String) (id : Value) (data : DbRow)
  | delete (table : String) (id : Value)
  | pipeline (table : String) (steps : List (Position × QueryStep))
      (terminal : QueryTerminal)

/-- `find_all(status: "active")` filters by equality. -/
def equalityFilters (pairs : List (String × Value)) : List Filter :=
  pairs.map fun (column, value) => { column, op := .eq, value }

def runSteps (steps : List (Position × QueryStep)) (query : Query) :
    Except MarretaError Query :=
  steps.foldlM (fun query (position, step) => applyQueryStep position step query) query

def DbCall.op (columns : String → Option (List String)) :
    DbCall → Except MarretaError DbOp
  | .save table data => .ok (.save table data)
  | .find table id => .ok (.find table id)
  | .findAll table filters => .ok (.findAll table (equalityFilters filters))
  | .update table id data => .ok (.updateById table id data)
  | .delete table id => .ok (.deleteById table id)
  | .pipeline table steps terminal => do
      let query ← runSteps steps (promoteTable columns table)
      .ok (terminal.op query)

/-- What a call sends through a connection. -/
def DbCall.sends (columns : String → Option (List String)) (channel : Channel)
    (call : DbCall) : Except MarretaError Sent := do
  let op ← call.op columns
  channel.sends op

/-- What a sequence of calls sends.  A call that fails sends nothing. -/
def sentBy (columns : String → Option (List String)) :
    List (Channel × DbCall) → List Sent
  | [] => []
  | (channel, call) :: calls =>
      match call.sends columns channel with
      | .ok sent => sent :: sentBy columns calls
      | .error _ => sentBy columns calls

end Marreta
