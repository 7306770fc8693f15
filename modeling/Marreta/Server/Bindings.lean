import Marreta.Project.SchemaChecks
import Marreta.Runtime.Names
import Marreta.Schema.Validator

namespace Marreta

open Foundation

/-! The values a handler starts with.

Before the body of a route runs, the server binds the parts of the request and
every `take` of the route; a consumer binds the payload of the delivery.  Inputs
with a schema are checked against it on the way. -/

/-- A request as the router hands it over. -/
structure RouteRequest where
  urlParams : List (String × String)
  queryParams : List (String × String)
  rawQuery : Option (List UInt8)
  /-- Every header with its text, if it is one. -/
  headers : List (String × Option String)
  body : List UInt8

structure Delivery where
  payload : Value
  routingKey : String

/-- What the server handles requests with. -/
structure ServerContext where
  host : Host
  depth : Nat
  formats : ValueFormats
  /-- The value of a JSON text. -/
  readJson : List UInt8 → Option Value
  /-- The pairs of an urlencoded text. -/
  readPairs : List UInt8 → Option (List (String × String))
  /-- The text of bytes, with a mark for those that are not UTF-8. -/
  decodeLossy : List UInt8 → String
  authenticate : RouteDefinition → RouteRequest → Option Value

inductive Refusal where
  | unauthorized
  | forbidden
  | invalid (fault : LibraryFault)
  | failed (fault : Fault)

/-! ## Parts of a request -/

def ValueMap.collect (entries : List (String × Value)) : ValueMap :=
  entries.foldl (fun map entry => map.insert entry.1 entry.2) []

/-- All texts of each name, in order. -/
def collectTexts (pairs : List (String × String)) : List (String × List String) :=
  pairs.foldl
    (fun inputs pair =>
      Table.put inputs pair.1 ((inputs.lookup pair.1).getD [] ++ [pair.2]))
    []

/-- Texts that look like integers become integers. -/
def coerceParam (text : String) : Value :=
  match Validator.parseInt64 text with
  | some number => .integer number
  | none => .string text

namespace RouteRequest

variable (request : RouteRequest)

def params : List (String × Value) :=
  request.urlParams.map fun (name, text) => (name, coerceParam text)

def headerTexts : List (String × String) :=
  request.headers.filterMap fun (name, text) => text.map (name, ·)

def headersMap : ValueMap :=
  ValueMap.collect (request.headerTexts.map fun (name, text) => (name, .string text))

def queryMap : ValueMap :=
  ValueMap.collect (request.queryParams.map fun (name, text) => (name, .string text))

/-- The JSON value of the body.  An empty or malformed one counts as null. -/
def payload (server : ServerContext) : Value :=
  if request.body = [] then .null else (server.readJson request.body).getD .null

/-- The texts of the query, with repeated names. -/
def queryTexts (server : ServerContext) : List (String × List String) :=
  match request.rawQuery with
  | some raw => collectTexts ((server.readPairs raw).getD [])
  | none => collectTexts request.queryParams

def form (server : ServerContext) : ValueMap :=
  ValueMap.collect (((server.readPairs request.body).getD []).map fun (name, text) => (name, .string text))

end RouteRequest

/-! ## Routes -/

namespace Interpreter

def envSet (state : Interpreter) (name : String) (value : Value) : Interpreter :=
  { state with env := state.env.set name value }

def enterRoute (state : Interpreter) (route : RouteDefinition) : Interpreter :=
  { state with
    traceFrames := state.traceFrames ++
      [{ label := .route route.verb route.path, sourceModule := route.moduleId
         line := some route.line, column := some route.column }] }

def bindRequest (state : Interpreter) (request : RouteRequest) : Interpreter :=
  { state with
    env := (((state.env.set "params" (.map (ValueMap.collect request.params))).setAll request.params).set
      "query" (.map request.queryMap)).set "headers" (.map request.headersMap) }

end Interpreter

section

variable (server : ServerContext) (runtime : ProjectRuntime)

def ServerContext.hostFor : Host :=
  { server.host with project := some runtime }

/-- Every `allow` of the route must hold. -/
def checkAllow : List Expression → Interpreter → Except Refusal Interpreter
  | [], state => .ok state
  | allow :: rest, state =>
      match runAction (server.hostFor runtime) server.depth (Action.eval allow) state with
      | (.ok value, after) =>
          if value.isTruthy then checkAllow rest after else .error .forbidden
      | (.error fault, _) => .error (.failed fault)

/-- The value of a `take`.  A schema that is not found is passed over. -/
def takeValue (moduleId : Option String) (request : RouteRequest) (binding : TakeBinding) :
    Except Refusal Value :=
  let schema := binding.schema.bind (runtime.resolveSchema moduleId)
  match binding.kind, schema with
  | .payload, some schema =>
      Except.mapError .invalid (coercePayload server.formats (request.payload server) schema
        (runtime.visibleSchemasFor moduleId))
  | .payload, none => .ok (request.payload server)
  | .query, some schema =>
      Except.mapError .invalid
        (coerceScalarInput server.formats (request.queryTexts server) schema false)
  | .query, none => .ok (.map request.queryMap)
  | .headers, some schema =>
      Except.mapError .invalid
        (coerceScalarInput server.formats (collectTexts request.headerTexts) schema true)
  | .headers, none => .ok (.map request.headersMap)
  | .form, _ => .ok (.map (request.form server))
  | .raw, _ => .ok (.string (server.decodeLossy request.body))

def bindTake (moduleId : Option String) (request : RouteRequest) (state : Interpreter)
    (binding : TakeBinding) : Except Refusal Interpreter := do
  let value ← takeValue server runtime moduleId request binding
  return state.envSet binding.name value

/-- Who sends the request, on routes that ask for it. -/
def authenticateRoute (route : RouteDefinition) (request : RouteRequest) :
    Except Refusal (Option Value) :=
  match route.auth, server.authenticate route request with
  | none, _ => .ok none
  | some _, some auth => .ok (some auth)
  | some _, none => .error .unauthorized

def authorizeRoute (route : RouteDefinition) (auth : Option Value) (state : Interpreter) :
    Except Refusal Interpreter :=
  match auth with
  | none => .ok state
  | some auth => checkAllow server runtime route.allow (state.envSet "auth" auth)

/-- The state in which the body of a route starts. -/
def startRoute (route : RouteDefinition) (request : RouteRequest) :
    Except Refusal Interpreter := do
  let auth ← authenticateRoute server route request
  let state := Interpreter.new (runtime.envForModule route.moduleId) route.moduleId
  let state ← authorizeRoute server runtime route auth
    ((state.enterRoute route).bindRequest request)
  route.take.foldlM (bindTake server runtime route.moduleId request) state

/-- Run a route; its body runs only when nothing refused the request. -/
def executeRoute (route : RouteDefinition) (request : RouteRequest) :
    Except Refusal (Except Fault Unit × Interpreter) := do
  let start ← startRoute server runtime route request
  return runAction (server.hostFor runtime) server.depth (Action.block route.body) start

/-! ## Consumers -/

def Interpreter.enterConsumer (state : Interpreter) (consumer : ConsumerDefinition)
    (queueName : String) : Interpreter :=
  let kind := match consumer.kind with
    | .queue => "queue"
    | .topic => "topic"
  { state with
    traceFrames := state.traceFrames ++
      [{ label := .consumer kind queueName, sourceModule := consumer.moduleId
         line := some consumer.line, column := some consumer.column }] }

/-- The payload of a delivery, checked when a schema is found. -/
def deliveredValue (consumer : ConsumerDefinition) (delivery : Delivery) :
    Except Refusal Value :=
  match consumer.schema.bind (runtime.resolveSchema consumer.moduleId) with
  | some schema =>
      Except.mapError .invalid (coercePayload server.formats delivery.payload schema
        (runtime.visibleSchemasFor consumer.moduleId))
  | none => .ok delivery.payload

/-- The state in which the body of a consumer starts. -/
def startConsumer (consumer : ConsumerDefinition) (queueName : String) (delivery : Delivery) :
    Except Refusal Interpreter := do
  let payload ← deliveredValue server runtime consumer delivery
  let state := Interpreter.new (runtime.envForModule consumer.moduleId) consumer.moduleId
  let state := (state.enterConsumer consumer queueName).envSet consumer.binding payload
  return state.envSet "message_topic" (.string delivery.routingKey)

end

/-- The project as it is served: with the process environment, and frozen. -/
def LoadedProject.served (loaded : LoadedProject) (env : ValueMap) : ProjectRuntime :=
  (loaded.runtime.injectGlobal "env" (.map env)).freezeEnvs

/-! Only the environments change. -/

namespace ProjectRuntime

theorem module?_mapEnvs (runtime : ProjectRuntime) (change : Environment → Environment)
    (moduleId : Option String) :
    (runtime.mapEnvs change).module? moduleId =
      (runtime.module? moduleId).map fun module => { module with env := change module.env } := by
  cases moduleId with
  | none => rfl
  | some id =>
      exact Table.lookup_map runtime.modules
        (fun module => { module with env := change module.env }) id

theorem visibleSchemasFor_mapEnvs (runtime : ProjectRuntime)
    (change : Environment → Environment) (moduleId : Option String) :
    (runtime.mapEnvs change).visibleSchemasFor moduleId = runtime.visibleSchemasFor moduleId := by
  unfold visibleSchemasFor
  rw [module?_mapEnvs]
  cases runtime.module? moduleId <;> rfl

theorem resolveSchema_mapEnvs (runtime : ProjectRuntime) (change : Environment → Environment)
    (moduleId : Option String) (name : String) :
    (runtime.mapEnvs change).resolveSchema moduleId name = runtime.resolveSchema moduleId name := by
  unfold resolveSchema
  rw [module?_mapEnvs]
  cases runtime.module? moduleId <;> rfl

end ProjectRuntime

end Marreta
