import Marreta.Db.QueryStep
import Marreta.Foundation.Table

namespace Marreta

open Foundation

/-! Document queries and the requests that the driver makes of them.

A step of a pipeline changes the query under construction; a terminal turns the
query into a `find`, an aggregation or a write. -/

/-! ## Steps -/

/-- A step of a pipeline with its arguments evaluated.  Each condition of a
`where`, a `like` or an `in` is a filter of its own. -/
inductive DocStep where
  | filter (condition : DocFilter Value)
  | pick (fields : List String)
  | order (field : String) (direction : SortDirection)
  | limit (bound : Int64)
  | offset (bound : Int64)
  | groupBy (field : String)
  | accumulate (accumulator : Accumulator)

namespace DocStep

/-- The step belongs to the grouping. -/
def isGrouping : DocStep → Bool
  | .groupBy _ | .accumulate _ => true
  | _ => false

end DocStep

def pickInAggregation : String :=
  "pick() cannot be used in aggregation pipelines — use accumulator aliases directly"

def lateGroupBy : String :=
  "group_by() must appear before accumulator steps (sum, avg, min, max, count)"

def applyDocStep (position : Position) (step : DocStep) (query : DocQuery) :
    Except MarretaError DocQuery :=
  match step with
  | .filter condition => .ok { query with filters := query.filters ++ [condition] }
  | .pick fields =>
      if query.isAggregate then .error (position.typeError pickInAggregation)
      else .ok { query with projection := some fields }
  | .order field direction =>
      if query.isAggregate then .ok { query with postSort := some (field, direction) }
      else .ok { query with sort := some (field, direction) }
  | .limit bound =>
      if query.isAggregate then .ok { query with postLimit := some bound }
      else .ok { query with limit := some bound }
  | .offset bound => .ok { query with offset := some bound }
  | .groupBy field =>
      if !query.accumulators.isEmpty then .error (position.typeError lateGroupBy)
      else .ok { query with groupBy := some field, mode := .aggregate }
  | .accumulate accumulator =>
      .ok { query with accumulators := query.accumulators ++ [accumulator], mode := .aggregate }

def runDocSteps (position : Position) (steps : List DocStep) (query : DocQuery) :
    Except MarretaError DocQuery :=
  steps.foldlM (fun query step => applyDocStep position step query) query

/-! ## Filters -/

inductive MongoOperand where
  | value (value : Value)
  | objectId (text : String)

/-- Texts of 24 hexadecimal digits are ids of documents. -/
def isObjectId (text : String) : Bool :=
  text.toList.length = 24 && text.toList.all fun ch =>
    ch.isDigit || ('a' ≤ ch && ch ≤ 'f') || ('A' ≤ ch && ch ≤ 'F')

def operandOf (field : String) (value : Value) : MongoOperand :=
  match value with
  | .string text =>
      if (field = "_id" ∨ field = "id") ∧ isObjectId text then .objectId text
      else .value (.string text)
  | value => .value value

inductive MongoCondition where
  | compare (field operator : String) (operand : MongoOperand)
  | within (field : String) (operands : List MongoOperand)
  | regex (field pattern : String)

/-- `%` stands for any text and `_` for any character. -/
def likePattern (pattern : String) : String :=
  String.ofList (pattern.toList.flatMap fun
    | '%' => ".*".toList
    | '_' => ['.']
    | ch => [ch])

/-- Only equality, inequality and `in` know ids. -/
def conditionOf : DocFilter Value → MongoCondition
  | .eq field value => .compare field "$eq" (operandOf field value)
  | .ne field value => .compare field "$ne" (operandOf field value)
  | .gt field value => .compare field "$gt" (.value value)
  | .gte field value => .compare field "$gte" (.value value)
  | .lt field value => .compare field "$lt" (.value value)
  | .lte field value => .compare field "$lte" (.value value)
  | .like field pattern => .regex field (likePattern pattern)
  | .in field values => .within field (values.map (operandOf field))

def buildQueryFilter (query : DocQuery) : List MongoCondition :=
  query.filters.map conditionOf

/-! ## Requests -/

structure FindOptions where
  sort : Option (String × SortDirection)
  limit : Option Int64
  skip : Option UInt64
  projection : Option (List String)

def buildQueryOptions (query : DocQuery) : FindOptions :=
  { sort := query.sort, limit := query.limit, skip := query.offset.map Int64.toUInt64
    projection := query.projection }

/-- What a field of a grouped row is computed from. -/
inductive GroupExpr where
  | null
  | field (name : String)
  | sum (field : String)
  | avg (field : String)
  | min (field : String)
  | max (field : String)
  | one
deriving DecidableEq

def groupField : Accumulator → String × GroupExpr
  | .sum field label => (label, .sum field)
  | .avg field label => (label, .avg field)
  | .min field label => (label, .min field)
  | .max field label => (label, .max field)
  | .count label => (label, .one)

def groupKey : Option String → GroupExpr
  | some field => .field field
  | none => .null

def groupDoc (key : Option String) (accumulators : List Accumulator) : Table String GroupExpr :=
  Table.putAll [("_id", groupKey key)] (accumulators.map groupField)

inductive MongoStage where
  | match (conditions : List MongoCondition)
  | group (fields : Table String GroupExpr)
  | sort (field : String) (direction : SortDirection)
  | limit (bound : Int64)

/-- The stages that are sent for an aggregation.  Sorting, bounds and projection
from before the grouping are not among them. -/
def queryAggregate (query : DocQuery) : List MongoStage :=
  (if (buildQueryFilter query).isEmpty then [] else [.match (buildQueryFilter query)]) ++
    [.group (groupDoc query.groupBy query.accumulators)] ++
    (query.postSort.map fun (field, direction) => MongoStage.sort field direction).toList ++
    (query.postLimit.map MongoStage.limit).toList

end Marreta
