import Marreta.Db.QueryStep
import Marreta.Error
import Marreta.Runtime.Environment

namespace Marreta

/-! What an interpreter is given when it is created: the loaded project, the
configured drivers, the outside world that answers its requests, and the
functions on values it uses. -/

structure SchemaDefinition where
  dbTable : Option String
  fields : List SchemaField
deriving DecidableEq

abbrev Schemas := List (String × SchemaDefinition)

namespace Schemas

def insert (schemas : Schemas) (name : String) (schema : SchemaDefinition) :
    Schemas :=
  schemas ++ [(name, schema)]

/-- The schema that stores its records in a table. -/
def forTable (schemas : Schemas) (table : String) : Option String :=
  schemas.findSome? fun (name, schema) =>
    if schema.dbTable = some table then some name else none

end Schemas

structure FeatureFlags where
  flags : List (String × Bool)

namespace FeatureFlags

def enabled (flags : FeatureFlags) (name : String) : Bool :=
  (flags.flags.lookup name).getD false

end FeatureFlags

def isFeatureChar (char : Char) : Bool :=
  char.isLower || char.isDigit

/-- Words of lowercase letters and digits joined by single underscores, the
first one starting with a letter. -/
def isValidFeatureName (name : String) : Bool :=
  match name.toList.splitOn '_' with
  | [] => false
  | first :: parts =>
      (first.head?.any Char.isLower && first.all isFeatureChar) &&
        parts.all fun part => !part.isEmpty && part.all isFeatureChar

def featureNameHelp : String :=
  "use lowercase letters, digits, and single underscores; " ++
    "start with a letter; do not use double underscores or trailing underscores"

/-! ## The loaded project -/

structure ModuleRuntime where
  env : Environment
  visibleSchemas : Schemas

structure ProjectRuntime where
  globalEnv : Environment
  modules : List (String × ModuleRuntime)
  publicSchemas : Schemas
  persistentSchemas : Schemas
  featureFlags : FeatureFlags
  /-- The exported tasks of each file, reached from other files as
  `file.task`. -/
  taskNamespaces : List (String × List (String × Value))
  dbColumns : List (String × List String)

namespace ProjectRuntime

variable (project : ProjectRuntime)

def moduleTask (file task : String) : Option Value :=
  (project.taskNamespaces.lookup file).bind fun tasks => tasks.lookup task

def isModuleNamespace (file : String) : Bool :=
  (project.taskNamespaces.lookup file).isSome

def module? (moduleId : Option String) : Option ModuleRuntime :=
  moduleId.bind fun id => project.modules.lookup id

def envForModule (moduleId : Option String) : Environment :=
  match project.module? moduleId with
  | some module => module.env
  | none => project.globalEnv

def visibleSchemasFor (moduleId : Option String) : Schemas :=
  match project.module? moduleId with
  | some module => module.visibleSchemas
  | none => project.publicSchemas

def resolveSchema (moduleId : Option String) (name : String) :
    Option SchemaDefinition :=
  ((project.module? moduleId).bind fun module =>
    module.visibleSchemas.lookup name) <|> project.publicSchemas.lookup name

/-- Change the global environment and those of all modules. -/
def mapEnvs (change : Environment → Environment) : ProjectRuntime :=
  { project with
    globalEnv := change project.globalEnv
    modules := project.modules.map fun (id, module) =>
      (id, { module with env := change module.env }) }

def injectGlobal (name : String) (value : Value) : ProjectRuntime :=
  project.mapEnvs fun env => env.set name value

def freezeEnvs : ProjectRuntime :=
  project.mapEnvs Environment.freeze

end ProjectRuntime

/-! ## Requests to the outside world -/

inductive LogLevel where
  | debug | info | warn | error
deriving DecidableEq

namespace LogLevel

def asStr : LogLevel → String
  | .debug => "debug"
  | .info => "info"
  | .warn => "warn"
  | .error => "error"

def rank : LogLevel → Nat
  | .debug => 0
  | .info => 1
  | .warn => 2
  | .error => 3

end LogLevel

structure TraceContext where
  traceId : String
  spanId : String
  traceFlags : String
  tracestate : Option String
deriving DecidableEq

namespace TraceContext

def traceparent (context : TraceContext) : String :=
  "00-" ++ context.traceId ++ "-" ++ context.spanId ++ "-" ++ context.traceFlags

end TraceContext

inductive FsOp where
  | read (path : String)
  | write (path content : String)
  | append (path content : String)
  | exists (path : String)
  | delete (path : String)

/-- Failure of a file operation. -/
inductive FsFailure where
  | notFound
  | other (message : String)

/-- Lifetimes are in seconds. -/
inductive CacheOp where
  | get (key : String)
  | set (key : String) (value : Value) (ttl : Option Nat) (onlyIfAbsent : Bool)
  | delete (key : String)
  | exists (key : String)
  | ttl (key : String)
  | expire (key : String) (ttl : Nat)
  | incr (key : String) (amount : Int64) (ttl : Option Nat)
  | decr (key : String) (amount : Int64) (ttl : Option Nat)
  | getMany (keys : List String)
  | setMany (entries : ValueMap) (ttl : Option Nat)

inductive DocOp where
  | save (collection : String) (data : DbRow)
  | find (collection : String) (id : Value)
  | findAll (collection : String)
  | updateById (collection : String) (id : Value) (data : DbRow)
  | deleteById (collection : String) (id : Value)
  | queryFetch (query : DocQuery)
  | queryFetchOne (query : DocQuery)
  | queryAggregate (query : DocQuery)
  | queryCount (query : DocQuery)
  | queryExists (query : DocQuery)
  | queryUpdate (query : DocQuery) (data : DbRow)
  | queryUpsert (query : DocQuery) (data : DbRow)
  | queryDelete (query : DocQuery)
  | rawPipeline (collection : String) (stages : List Value)

inductive HttpMethod where
  | get | post | put | patch | delete
deriving DecidableEq

structure HttpRequest where
  method : HttpMethod
  url : String
  body : Option Value
  headers : List (String × String)
  query : List (String × String)
  timeoutMillis : Option Nat

structure HttpReply where
  status : UInt16
  body : Value
  headers : List (String × String)

structure QueueMessage where
  payload : Value
  metadata : List (String × String)

inductive Request where
  | fs (op : FsOp)
  | cache (op : CacheOp)
  | doc (op : DocOp)
  | http (request : HttpRequest)
  | push (queue : String) (message : QueueMessage)
  | publish (topic : String) (message : QueueMessage)
  | writeLine (line : String)
  | now
  | uuid (version : Nat)
  | spanId

namespace Request

abbrev FsReply : FsOp → Type
  | .read _ => Except FsFailure String
  | .write .. | .append .. | .delete _ => Except FsFailure Unit
  | .exists _ => Bool

abbrev CacheReply : CacheOp → Type
  | .get _ | .set .. => Option Value
  | .delete _ | .exists _ | .expire .. => Bool
  | .ttl _ => Option Nat
  | .incr .. | .decr .. => Int64
  | .getMany _ => List (String × Option Value)
  | .setMany .. => Unit

abbrev DocReply : DocOp → Type
  | .save .. | .updateById .. => DbRow
  | .find .. | .queryFetchOne _ => Option DbRow
  | .findAll _ | .queryFetch _ | .queryAggregate _ | .rawPipeline .. => List DbRow
  | .deleteById .. | .queryExists _ => Bool
  | .queryCount _ | .queryUpdate .. | .queryUpsert .. | .queryDelete _ => Int64

abbrev Reply : Request → Type
  | .fs op => FsReply op
  | .cache op => Except String (CacheReply op)
  | .doc op => Except MarretaError (DocReply op)
  | .http _ => Except String HttpReply
  | .push .. | .publish .. | .writeLine _ => Except String Unit
  | .now => Int
  | .uuid _ | .spanId => String

end Request

/-! ## Functions on values -/

/-- A function on values returns, fails or panics. -/
inductive LibraryFault where
  | error (error : MarretaError)
  | panic
deriving DecidableEq

/-- Functions of the value library.  They read nothing but their arguments. -/
structure Library where
  display : Value → String
  debugValue : Value → String
  debugExpression : Expression → String
  toLowercase : String → String
  valueEq : Value → Value → Bool
  applyBinaryOp :
    Position → BinaryOperator → Value → Value → Except LibraryFault Value
  applyUnaryOp : Position → UnaryOperator → Value → Except LibraryFault Value
  callMethod : Position → Value → String → List Value → Except LibraryFault Value
  /-- Properties of instants, dates, times, durations and intervals. -/
  temporalProperty : Position → Value → String → Except LibraryFault Value
  coercePayload : Value → SchemaDefinition → Schemas → Except MarretaError Value
  valueToJsonString : Value → String
  valueToJsonStrict : Value → Except String String
  /-- The JSON text of a string. -/
  jsonString : String → String
  /-- The `error` text of a JSON object. -/
  jsonErrorField : String → Option String
  logLine : LogLevel → Int → Option TraceContext → String → String
  parseDecimal : String → Option Decimal
  decimalOfInteger : Int64 → Decimal
  /-- The whole number a value stands for. -/
  asInteger : Value → Option Int64
  json : Position → String → List Value → Except LibraryFault Value
  base64 :
    Position → String → List Value → List (String × Value) → Except LibraryFault Value
  math :
    Position → String → List Value → List (String × Value) → Except LibraryFault Value
  time : Position → String → List Value → Except LibraryFault Value
  /-- The local date of an instant. -/
  localDate : Int → Int
  translatePipelineStage : Value → Except MarretaError Unit

/-! ## History -/

/-- How a handler is stopped with a response: by a guard, or by `fail` and
`reply`. -/
inductive StopSignal where
  | require (statusCode : Int64) (message : String)
  | reject (statusCode : Int64) (message : String)
  | fail (statusCode : UInt16) (body : String)
  | failExpression (statusCode : UInt16) (body : String)
  | reply (statusCode : UInt16) (body contentType : String)
      (extraHeaders : List (String × String))
deriving DecidableEq

namespace StopSignal

/-- The error that carries the response out of the handler. -/
def error : StopSignal → MarretaError
  | .require statusCode message | .reject statusCode message =>
      .httpError statusCode message
  | .fail statusCode body | .failExpression statusCode body =>
      .httpResponse statusCode body "application/json" [] true
  | .reply statusCode body contentType extraHeaders =>
      .httpResponse statusCode body contentType extraHeaders false

def isGuard : StopSignal → Bool
  | .require .. | .reject .. => true
  | .fail .. | .failExpression .. | .reply .. => false

end StopSignal

inductive Event where
  | stopped (signal : StopSignal)
  | asked (request : Request)
  | sent (channel : Channel) (op : DbOp)
  /-- The interpreter was copied for a branch of a broadcast. -/
  | copied
  | beginFailed
  | begun (id : Nat)
  | committed (id : Nat)
  | rolledBack (id : Nat)

/-- What has happened so far, newest first. -/
abbrev Log := List Event

/-! ## The host -/

/-- The engine around an interpreter.  The outside world answers depending on
everything that happened before. -/
structure Host where
  library : Library
  project : Option ProjectRuntime
  schemas : Option Schemas
  maxRecursionDepth : Nat
  hasDb : Bool
  hasDoc : Bool
  hasQueue : Bool
  hasCache : Bool
  cacheDefaultTtl : Option Nat
  hasHttpClient : Bool
  traceContext : Option TraceContext
  featureFlags : FeatureFlags
  logLevel : LogLevel
  answer : Log → (request : Request) → request.Reply
  answerDb : Log → Channel → (op : DbOp) → Except MarretaError op.Reply
  begin : Log → Except MarretaError Unit
  commit : Log → Except MarretaError Unit

/-! ## A host for examples -/

/-- Texts of the values that are shown without layout. -/
def displayScalar : Value → String
  | .integer value => toString value
  | .string text => text
  | .boolean value => toString value
  | .null => "null"
  | _ => ""

/-- A library that only knows how to show scalar values. -/
def scalarLibrary : Library where
  display := displayScalar
  debugValue := displayScalar
  debugExpression _ := ""
  toLowercase := String.toLower
  valueEq _ _ := false
  applyBinaryOp _ _ _ _ := .error .panic
  applyUnaryOp _ _ _ := .error .panic
  callMethod _ _ _ _ := .error .panic
  temporalProperty _ _ _ := .error .panic
  coercePayload value _ _ := .ok value
  valueToJsonString := displayScalar
  valueToJsonStrict value := .ok (displayScalar value)
  jsonString text := "\"" ++ text ++ "\""
  jsonErrorField _ := none
  logLine _ _ _ data := data
  parseDecimal _ := none
  decimalOfInteger _ := { negative := false, mantissa := 0, scale := 0 }
  asInteger
    | .integer value => some value
    | _ => none
  json _ _ _ := .error .panic
  base64 _ _ _ _ := .error .panic
  math _ _ _ _ := .error .panic
  time _ _ _ := .error .panic
  localDate _ := 0
  translatePipelineStage _ := .ok ()

/-- An outside world in which every operation succeeds and finds nothing. -/
def emptyAnswer : (request : Request) → request.Reply
  | .fs (.read _) => .ok ""
  | .fs (.write ..) | .fs (.append ..) | .fs (.delete _) => .ok ()
  | .fs (.exists _) => false
  | .cache (.get _) | .cache (.set ..) | .cache (.ttl _) => .ok none
  | .cache (.delete _) | .cache (.exists _) | .cache (.expire ..) => .ok false
  | .cache (.incr ..) | .cache (.decr ..) => .ok (0 : Int64)
  | .cache (.getMany _) => .ok []
  | .cache (.setMany ..) => .ok ()
  | .doc (.save ..) | .doc (.updateById ..) | .doc (.findAll _) | .doc (.queryFetch _)
  | .doc (.queryAggregate _) | .doc (.rawPipeline ..) => .ok []
  | .doc (.find ..) | .doc (.queryFetchOne _) => .ok none
  | .doc (.deleteById ..) | .doc (.queryExists _) => .ok false
  | .doc (.queryCount _) | .doc (.queryUpdate ..) | .doc (.queryUpsert ..)
  | .doc (.queryDelete _) => .ok (0 : Int64)
  | .http _ => .ok { status := 200, body := .null, headers := [] }
  | .push .. | .publish .. | .writeLine _ => .ok ()
  | .now => (0 : Int)
  | .uuid _ | .spanId => ""

def emptyDbAnswer : (op : DbOp) → Except MarretaError op.Reply
  | .save .. | .findAll .. | .queryFetch _ | .nativeQuery .. => .ok []
  | .find .. | .updateById .. | .queryFetchOne _ => .ok none
  | .deleteById .. | .queryExists _ => .ok false
  | .queryCount _ => .ok (0 : Int64)
  | .queryUpdate .. | .queryDelete _ => .ok (0 : UInt64)

/-- A host with a database and no project. -/
def emptyHost : Host where
  library := scalarLibrary
  project := none
  schemas := none
  maxRecursionDepth := 500
  hasDb := true
  hasDoc := false
  hasQueue := false
  hasCache := false
  cacheDefaultTtl := none
  hasHttpClient := false
  traceContext := none
  featureFlags := { flags := [] }
  logLevel := .info
  answer _ := emptyAnswer
  answerDb _ _ := emptyDbAnswer
  begin _ := .ok ()
  commit _ := .ok ()

end Marreta
