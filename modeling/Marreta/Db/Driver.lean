import Mathlib

namespace Marreta

/-! Query states of the relational and the document drivers.  They are built up
by pipeline steps and executed by a terminal.  The type of filter values is a
parameter, because runtime values can themselves hold an unfinished query. -/

inductive FilterOp where
  | eq | gt | gte | lt | lte | ne | like | in
deriving DecidableEq

namespace FilterOp

def toSql : FilterOp → String
  | .eq => "="
  | .gt => ">"
  | .gte => ">="
  | .lt => "<"
  | .lte => "<="
  | .ne => "!="
  | .like => "LIKE"
  | .in => "IN"

end FilterOp

structure FilterClause (V : Type) where
  column : String
  op : FilterOp
  value : V
deriving DecidableEq

inductive JoinKind where
  | inner | left
deriving DecidableEq

structure JoinClause where
  kind : JoinKind
  table : String
  on : String
deriving DecidableEq

structure QueryState (V : Type) where
  table : String
  filters : List (FilterClause V)
  joins : List JoinClause
  selectCols : List String
  orderBy : Option String
  limit : Option Int64
  offset : Option Int64
  count : Bool
  knownColumns : Option (List String)
deriving DecidableEq

namespace QueryState

def new {V : Type} (table : String) : QueryState V :=
  { table, filters := [], joins := [], selectCols := [], orderBy := none
    limit := none, offset := none, count := false, knownColumns := none }

end QueryState

/-! ## Document queries -/

inductive Accumulator where
  | sum (field aliasName : String)
  | avg (field aliasName : String)
  | min (field aliasName : String)
  | max (field aliasName : String)
  | count (aliasName : String)
deriving DecidableEq

inductive DocFilter (V : Type) where
  | eq (field : String) (value : V)
  | ne (field : String) (value : V)
  | gt (field : String) (value : V)
  | gte (field : String) (value : V)
  | lt (field : String) (value : V)
  | lte (field : String) (value : V)
  | in (field : String) (values : List V)
  | like (field pattern : String)
deriving DecidableEq

inductive SortDirection where
  | asc | desc
deriving DecidableEq

/-- Write terminals take their data separately, so a state under construction
is either a plain query or an aggregation. -/
inductive DocQueryMode where
  | fetch | aggregate
deriving DecidableEq

structure DocQueryState (V : Type) where
  collection : String
  filters : List (DocFilter V)
  projection : Option (List String)
  sort : Option (String × SortDirection)
  limit : Option Int64
  offset : Option Int64
  mode : DocQueryMode
  groupBy : Option String
  accumulators : List Accumulator
  postSort : Option (String × SortDirection)
  postLimit : Option Int64
deriving DecidableEq

namespace DocQueryState

def new {V : Type} (collection : String) : DocQueryState V :=
  { collection, filters := [], projection := none, sort := none, limit := none
    offset := none, mode := .fetch, groupBy := none, accumulators := []
    postSort := none, postLimit := none }

def isAggregate {V : Type} (query : DocQueryState V) : Bool :=
  query.mode = .aggregate

end DocQueryState
end Marreta
