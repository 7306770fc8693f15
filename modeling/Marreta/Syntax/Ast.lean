import Marreta.Foundation.Binary64

namespace Marreta

/-! Syntax trees.  Statements carry the position of their first token; no
expression carries one. -/

inductive BinaryOperator where
  | add | subtract | multiply | divide | modulo
  | equal | notEqual | greater | less | greaterEqual | lessEqual
  | isIn | and | or
deriving DecidableEq

inductive UnaryOperator where
  | negate | not
deriving DecidableEq

inductive HttpVerb where
  | get | post | put | patch | delete
deriving DecidableEq

namespace HttpVerb

def display : HttpVerb → String
  | .get => "GET"
  | .post => "POST"
  | .put => "PUT"
  | .patch => "PATCH"
  | .delete => "DELETE"

end HttpVerb

inductive ReplyContentType where
  | json | html | text
deriving DecidableEq

inductive TakeKind where
  | payload | query | headers | form | raw
deriving DecidableEq

structure TakeBinding where
  kind : TakeKind
  name : String
  schema : Option String
deriving DecidableEq

structure RouteAuth where
  provider : String
  line : Nat
  column : Nat
deriving DecidableEq

inductive SchemaType where
  | stringType | integerType | floatType | decimalType | booleanType
  | instantType | dateType | timeType | durationType | intervalType
  | listType | mapType
  | enumType (values : List String)
  | reference (name : String)
  | typedList (element : SchemaType)
deriving DecidableEq

namespace SchemaType

def display : SchemaType → String
  | .stringType => "string"
  | .integerType => "integer"
  | .floatType => "float"
  | .decimalType => "decimal"
  | .booleanType => "boolean"
  | .instantType => "instant"
  | .dateType => "date"
  | .timeType => "time"
  | .durationType => "duration"
  | .intervalType => "interval"
  | .listType => "list"
  | .mapType => "map"
  | .enumType values =>
      "enum [" ++ String.intercalate ", " (values.map fun value => "\"" ++ value ++ "\"") ++ "]"
  | .reference name => name
  | .typedList element => "list of " ++ element.display

end SchemaType

structure SchemaField where
  name : String
  fieldType : SchemaType
  optional : Bool
deriving DecidableEq

structure ParamDef where
  name : String
  schema : Option String
deriving DecidableEq

mutual
inductive Expression where
  | integer (value : Int64)
  | float (value : Binary64)
  | stringLiteral (value : String)
  | boolean (value : Bool)
  | null
  | list (items : List Expression)
  | mapLiteral (pairs : List (String × Expression))
  | schemaConstructor (schemaName : String)
      (fields : List (String × Expression))
  | identifier (name : String)
  | binaryOp (left : Expression) (operator : BinaryOperator)
      (right : Expression)
  | unaryOp (operator : UnaryOperator) (operand : Expression)
  | propertyAccess (object : Expression) (property : String)
  | methodCall (object : Expression) (method : String)
      (arguments : List Argument)
  | httpClientResponseSchema (call : Expression) (schemaName : String)
  | functionCall (name : String) (arguments : List Argument)
  | taskCall (name : String)
  | matchOn (subject : Expression) (arms : List MatchArm)
  | ifElse (condition : Expression) (thenBranch : TaskBody)
      (elseBranch : Option TaskBody)
  | subscript (object : Expression) (key : Expression)
  | pipeline (input : Expression) (stages : List PipelineStage)
  | broadcast (input : Expression) (targets : List Expression)
  | rescue (expr : Expression) (handler : Expression)
  | queuePush (queueName : Expression) (schema : Option String)
      (payload : Option Expression)
  | topicPublish (topic : Expression) (schema : Option String)
      (payload : Option Expression)

inductive Argument where
  | positional (value : Expression)
  | named (name : String) (value : Expression)

inductive MatchPattern where
  | literal (value : Expression)
  | fallback

inductive MatchArm where
  | mk (pattern : MatchPattern) (value : Expression)

inductive TaskBody where
  | inline (value : Expression)
  | block (statements : List Statement) (result : Expression)

inductive RescueHandler where
  | inline (value : Expression)
  | block (statements : List Statement)

inductive PipelineStage where
  | expression (value : Expression)
  | map (element : String) (body : List MapStatement)
  | reduce (initial : Expression) (accumulator item : String)
      (body : TaskBody)
  | rescue (handler : RescueHandler)

inductive MapStatement where
  | statement (value : Statement)
  | keep (value : Expression) (condition : Option Expression)
  | skip (condition : Expression)

inductive AuthProviderField where
  | mk (name : String) (value : Expression) (line column : Nat)

inductive AuthProvider where
  | jwt (name : String) (fields : List AuthProviderField)
  | apiKey (name : String) (fields : List AuthProviderField)

inductive ScenarioStep where
  | given (target returns : Expression) (line column : Nat)
  | when (verb : HttpVerb) (path : String) (body headers : Option Expression)
      (line column : Nat)
  | thenStatus (status : Expression) (line column : Nat)
  | thenResponse (expected : Expression) (line column : Nat)

inductive Statement where
  | assignment (target : String) (value : Expression) (line column : Nat)
  | conditionalAssignment (target : String) (value condition : Expression)
      (line column : Nat)
  | require (condition : Expression) (errorCode : Int64)
      (errorMessage : String) (line column : Nat)
  | reject (condition : Expression) (errorCode : Int64)
      (errorMessage : String) (line column : Nat)
  | while (condition : Expression) (body : List Statement)
      (line column : Nat)
  | taskDef (name : String) (params : List ParamDef) (body : TaskBody)
      (line column : Nat)
  | expressionStatement (expression : Expression) (line column : Nat)
  | route (verb : HttpVerb) (path : String) (auth : Option RouteAuth)
      (allow : List Expression) (take : List TakeBinding)
      (body : List Statement) (line column : Nat)
  | schema (name : String) (dbTable : Option String)
      (fields : List SchemaField) (line column : Nat)
  | authProvider (provider : AuthProvider) (line column : Nat)
  | reply (statusCode : Expression) (contentType : ReplyContentType)
      (body : Expression) (responseSchema : Option String)
      (extraHeaders : Option Expression) (line column : Nat)
  | fail (statusCode : Int64) (message : Expression) (line column : Nat)
  | raise (message : Expression) (condition : Option Expression)
      (line column : Nat)
  | export (statement : Statement)
  | transaction (body : List Statement) (line column : Nat)
  | onQueue (queueName : Expression) (binding : String)
      (schema : Option String) (body : List Statement) (line column : Nat)
  | onTopic (pattern : Expression) (binding : String)
      (schema : Option String) (body : List Statement) (line column : Nat)
  | nack (requeue : Bool) (condition : Option Expression)
      (line column : Nat)
  | scenario (name : String) (steps : List ScenarioStep)
      (line column : Nat)
end

abbrev Program := List Statement

end Marreta
