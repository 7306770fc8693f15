import Marreta.Db.Driver
import Marreta.Syntax.Ast

namespace Marreta

/-! Runtime values.  A map keeps its entries in insertion order; no operation of
the modelled program writes to a map that a variable already holds, so maps are
plain values and not references. -/

structure Decimal where
  negative : Bool
  mantissa : Fin (2 ^ 96)
  scale : Fin 29
deriving DecidableEq

/-- Instants in nanoseconds since the epoch, dates in days, times in nanoseconds
since midnight. -/
inductive TemporalValue where
  | instant (nanoseconds : Int)
  | date (days : Int)
  | time (nanoseconds : Nat)
deriving DecidableEq

inductive RelationCardinality where
  | one | many
deriving DecidableEq

structure TaskValue where
  name : String
  params : List ParamDef
  body : TaskBody
  ownerModule : Option String
  sourceModule : Option String
  line : Nat
  column : Nat

inductive Value where
  | integer (value : Int64)
  | float (value : Binary64)
  | decimal (value : Decimal)
  | string (value : String)
  | boolean (value : Bool)
  | instant (nanoseconds : Int)
  | date (days : Int)
  | time (nanoseconds : Nat)
  | duration (nanoseconds : Int)
  | interval (start stop : TemporalValue)
  | null
  | list (items : List Value)
  | map (entries : List (String × Value))
  | relationalRecord (schemaName : String) (fields : List (String × Value))
  | task (task : TaskValue)
  | dbNamespace
  | dbTable (name : String)
  | relationHandle (query : QueryState Value)
      (cardinality : RelationCardinality) (nullShortCircuit : Bool)
  | queryBuilder (query : QueryState Value)
  | docNamespace
  | docCollection (name : String)
  | docQueryBuilder (query : DocQueryState Value)
  | cacheNamespace
  | fsNamespace
  | jsonNamespace
  | base64Namespace
  | uuidNamespace
  | featureNamespace
  | logNamespace
  | timeNamespace
  | mathNamespace
  | httpClientNamespace

abbrev Filter := FilterClause Value
abbrev Query := QueryState Value
abbrev DocQuery := DocQueryState Value

/-- Named values in insertion order, with at most one entry per name. -/
abbrev ValueMap := List (String × Value)

abbrev DbRow := ValueMap

namespace ValueMap

/-- Replace the entry of a key in place, or append one. -/
def insert (key : String) (value : Value) : ValueMap → ValueMap
  | [] => [(key, value)]
  | (name, old) :: entries =>
      if name = key then (name, value) :: entries
      else (name, old) :: insert key value entries

def get? (entries : ValueMap) (key : String) : Option Value :=
  entries.lookup key

end ValueMap

namespace Value

def isTruthy : Value → Bool
  | .null => false
  | .boolean value => value
  | .integer value => value ≠ 0
  | .float value => value.bits ≠ 0 ∧ value.bits ≠ 0x8000000000000000
  | .decimal value => value.mantissa.val ≠ 0
  | .instant _ | .date _ | .time _ | .duration _ | .interval _ _ => true
  | .string value => value ≠ ""
  | .list items => !items.isEmpty
  | .map entries => !entries.isEmpty
  | .relationalRecord _ fields => !fields.isEmpty
  | .task _ => true
  | _ => false

def typeName : Value → String
  | .integer _ => "Integer"
  | .float _ => "Float"
  | .decimal _ => "Decimal"
  | .string _ => "String"
  | .boolean _ => "Boolean"
  | .instant _ => "Instant"
  | .date _ => "Date"
  | .time _ => "Time"
  | .duration _ => "Duration"
  | .interval _ _ => "Interval"
  | .null => "Null"
  | .list _ => "List"
  | .map _ => "Map"
  | .relationalRecord _ _ => "RelationalRecord"
  | .task _ => "Task"
  | .dbNamespace => "DbNamespace"
  | .dbTable _ => "DbTable"
  | .relationHandle _ _ _ => "RelationHandle"
  | .queryBuilder _ => "QueryBuilder"
  | .docNamespace => "DocNamespace"
  | .docCollection _ => "DocCollection"
  | .docQueryBuilder _ => "DocQueryBuilder"
  | .cacheNamespace => "CacheNamespace"
  | .fsNamespace => "FsNamespace"
  | .jsonNamespace => "JsonNamespace"
  | .base64Namespace => "Base64Namespace"
  | .uuidNamespace => "UuidNamespace"
  | .featureNamespace => "FeatureNamespace"
  | .logNamespace => "LogNamespace"
  | .timeNamespace => "TimeNamespace"
  | .mathNamespace => "MathNamespace"
  | .httpClientNamespace => "HttpClientNamespace"

def isTask : Value → Bool
  | .task _ => true
  | _ => false

/-- The entries of the values that are records. -/
def recordEntries : Value → Option ValueMap
  | .map entries => some entries
  | .relationalRecord _ fields => some fields
  | _ => none

def isMap : Value → Bool
  | .map _ => true
  | _ => false

end Value
end Marreta
