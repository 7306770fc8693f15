import Marreta.Runtime.Calls
import Marreta.Runtime.ResponseSerializer

namespace Marreta

open Marreta.Action (eval position typeError runtimeError wrongArity propertyNotFound
  orTypeError)

variable (host : Host)

/-! The namespaces of the language that reach outside the database: `log`, `fs`,
`json`, `base64`, `uuid`, `feature`, `math`, `time`, `cache`, `http_client` and the
queue producers. -/

/-! ## log -/

def logLevelForMethod : String → Option LogLevel
  | "debug" => some .debug
  | "info" => some .info
  | "warn" => some .warn
  | "error" => some .error
  | _ => none

def logFailure {α : Type} (level : LogLevel) (message : String) : Action α :=
  runtimeError ("log." ++ level.asStr ++ "() failed: " ++ message)

def emitLogValue (level : LogLevel) (value : Value) : Action Unit :=
  if level.rank < host.logLevel.rank then return ()
  else do
    let now ← Action.ask .now
    match host.library.valueToJsonStrict value with
    | .error message => typeError ("log." ++ level.asStr ++ "() " ++ message)
    | .ok data =>
        let line := host.library.logLine level now host.traceContext data
        match ← Action.ask (.writeLine line) with
        | .ok _ => return ()
        | .error message => logFailure level message

def dispatchLog (method : String) (arguments : List Argument)
    (injected : Option Value) : Action Value :=
  match logLevelForMethod method with
  | none => propertyNotFound "LogNamespace" method
  | some level => do
      let collected ← collectNamedAndPositional arguments injected
      ensureNoNamedArgs collected.named ("log." ++ method)
      match collected.positional with
      | [value] => do
          emitLogValue host level value
          return value
      | positional => wrongArity ("log." ++ method) 1 positional.length

/-! ## fs -/

def fsRuntimeError (path : String) : FsFailure → MarretaError
  | .notFound => .fileNotFound path
  | .other message =>
      .ioError ("fs operation failed for '" ++ path ++ "': " ++ message)

def fsStringArg (arguments : List Value) (index : Nat) (method : String) :
    Action String :=
  match arguments[index]? with
  | some (.string text) => return text
  | some other =>
      typeError ("fs." ++ method ++ "() argument " ++ toString (index + 1) ++
        " must be String, got " ++ other.typeName)
  | none =>
      typeError ("fs." ++ method ++ "() missing required argument " ++
        toString (index + 1))

def askFs {α : Type} (path : String) : Except FsFailure α → Action α
  | .ok value => return value
  | .error failure => .raise (fsRuntimeError path failure)

/-- The only argument of a file operation. -/
def fsPath (method : String) (positional : List Value) : Action String := do
  let path ← fsStringArg positional 0 method
  if positional.length ≠ 1 then wrongArity ("fs." ++ method) 1 positional.length
  else return path

/-- Path and content; an injected input is the content. -/
def fsPathAndContent (method : String) (positional : List Value)
    (isInjected : Bool) : Action (String × String) := do
  if positional.length ≠ 2 then wrongArity ("fs." ++ method) 2 positional.length
  else
    let path ← fsStringArg positional (if isInjected then 1 else 0) method
    let content ← fsStringArg positional (if isInjected then 0 else 1) method
    return (path, content)

def dispatchFs (method : String) (arguments : List Argument)
    (injected : Option Value) : Action Value := do
  let collected ← collectNamedAndPositional arguments injected
  ensureNoNamedArgs collected.named ("fs." ++ method)
  match method with
  | "read" => do
      let path ← fsPath "read" collected.positional
      let content ← askFs path (← Action.ask (.fs (.read path)))
      return .string content
  | "write" => do
      let (path, content) ←
        fsPathAndContent "write" collected.positional injected.isSome
      let _ ← askFs path (← Action.ask (.fs (.write path content)))
      return .string content
  | "append" => do
      let (path, content) ←
        fsPathAndContent "append" collected.positional injected.isSome
      let _ ← askFs path (← Action.ask (.fs (.append path content)))
      return .string content
  | "exists" => do
      let path ← fsPath "exists" collected.positional
      return .boolean (← Action.ask (.fs (.exists path)))
  | "delete" => do
      let path ← fsPath "delete" collected.positional
      match ← Action.ask (.fs (.delete path)) with
      | .ok _ => return .boolean true
      | .error .notFound => return .boolean false
      | .error failure => .raise (fsRuntimeError path failure)
  | _ => propertyNotFound "FsNamespace" method

/-! ## Functions of values only -/

def dispatchJson (method : String) (arguments : List Argument)
    (injected : Option Value) : Action Value := do
  let collected ← collectNamedAndPositional arguments injected
  ensureNoNamedArgs collected.named ("json." ++ method)
  Action.ofLibrary (host.library.json (← position) method collected.positional)

def dispatchBase64 (method : String) (arguments : List Argument)
    (injected : Option Value) : Action Value := do
  let collected ← collectNamedAndPositional arguments injected
  Action.ofLibrary
    (host.library.base64 (← position) method collected.positional collected.named)

def dispatchMath (method : String) (arguments : List Argument)
    (injected : Option Value) : Action Value := do
  let collected ← collectNamedAndPositional arguments injected
  Action.ofLibrary
    (host.library.math (← position) method collected.positional collected.named)

/-! ## uuid, feature and time -/

def dispatchUuid (method : String) (arguments : List Argument) : Action Value := do
  let values ← evaluateArgs arguments
  if !values.isEmpty then wrongArity ("uuid." ++ method) 0 values.length
  else
    match method with
    | "v4" => return .string (← Action.ask (.uuid 4))
    | "v7" => return .string (← Action.ask (.uuid 7))
    | _ => propertyNotFound "UuidNamespace" method

def featureEnabled (name : String) : Bool :=
  match host.project with
  | some project => project.featureFlags.enabled name
  | none => host.featureFlags.enabled name

def dispatchFeature (method : String) (arguments : List Argument) :
    Action Value := do
  let values ← evaluateArgs arguments
  match method with
  | "enabled" =>
      match values with
      | [.string name] =>
          if isValidFeatureName name then return .boolean (featureEnabled host name)
          else
            runtimeError ("invalid feature flag name '" ++ name ++ "': " ++ featureNameHelp)
      | [other] =>
          typeError ("feature.enabled() argument 1 must be String, got " ++ other.typeName)
      | values => wrongArity "feature.enabled" 1 values.length
  | _ => propertyNotFound "FeatureNamespace" method

def dispatchTime (method : String) (arguments : List Argument) : Action Value := do
  let values ← evaluateArgs arguments
  match method with
  | "now" =>
      if values.isEmpty then return .instant (← Action.ask .now)
      else typeError "time.now() takes no arguments"
  | "today" =>
      if values.isEmpty then
        return .date (host.library.localDate (← Action.ask .now))
      else typeError "time.today() takes no arguments"
  | _ => Action.ofLibrary (host.library.time (← position) method values)

/-! ## cache -/

def cacheError {α : Type} (message op : String) : Action α :=
  .raise (.cacheError message op)

def requireCacheDriver (op : String) : Action Unit :=
  if host.hasCache then return ()
  else
    cacheError ("cache.* called but no cache is configured (set " ++
      "MARRETA_CACHE_PROVIDER, MARRETA_CACHE_HOST, MARRETA_CACHE_PORT, and " ++
      "optional MARRETA_CACHE_PASSWORD)") op

def askCache (op : String) (request : CacheOp) :
    Action (Request.CacheReply request) := do
  match ← Action.ask (.cache request) with
  | .ok reply => return reply
  | .error message => cacheError message op

/-- A positive `ttl:` argument. -/
def resolveExplicitTtl (named : List (String × Value)) : Option Nat :=
  named.findSome? fun (name, value) =>
    if name = "ttl" then
      (host.library.asInteger value).bind fun seconds =>
        if 0 < seconds then some seconds.toNatClampNeg else none
    else none

def resolveTtl (named : List (String × Value)) : Option Nat :=
  resolveExplicitTtl host named <|> host.cacheDefaultTtl

def resolveNamedBool (named : List (String × Value)) (key : String) : Bool :=
  named.any fun (name, value) => name = key && value.isTruthy

def resolveNamedInteger (named : List (String × Value)) (key : String)
    (default : Int64) : Int64 :=
  (named.findSome? fun (name, value) =>
    if name = key then host.library.asInteger value else none).getD default

/-- The argument at an index, or a cache error. -/
def cacheArgument (op message : String) (positional : List Value) (index : Nat) :
    Action Value :=
  match positional[index]? with
  | some value => return value
  | none => cacheError message op

def cacheKey (op : String) (positional : List Value) : Action String := do
  let key ← cacheArgument op (op ++ " requires a key argument") positional 0
  return host.library.display key

def dispatchCache (method : String) (arguments : List Argument) :
    Action Value := do
  let op := "cache." ++ method
  requireCacheDriver host op
  let ⟨positional, named⟩ ← collectNamedAndPositional arguments none
  match method with
  | "get" => do
      let key ← cacheKey host op positional
      return (← askCache op (.get key)).getD .null
  | "set" => do
      let key ← cacheArgument op "cache.set requires a key argument" positional 0
      let value ← cacheArgument op "cache.set requires a value argument" positional 1
      return (← askCache op (.set (host.library.display key) value
        (resolveTtl host named) (resolveNamedBool named "only_if_absent"))).getD .null
  | "delete" => do
      let key ← cacheKey host op positional
      return .boolean (← askCache op (.delete key))
  | "exists" => do
      let key ← cacheKey host op positional
      return .boolean (← askCache op (.exists key))
  | "ttl" => do
      let key ← cacheKey host op positional
      match ← askCache op (.ttl key) with
      | some seconds => return .integer (Int64.ofNat seconds)
      | none => return .null
  | "expire" => do
      let key ← cacheKey host op positional
      match resolveExplicitTtl host named with
      | some ttl => return .boolean (← askCache op (.expire key ttl))
      | none => cacheError "cache.expire requires ttl: N named argument" op
  | "incr" => do
      let key ← cacheKey host op positional
      return .integer (← askCache op (.incr key
        (resolveNamedInteger host named "by" 1) (resolveExplicitTtl host named)))
  | "decr" => do
      let key ← cacheKey host op positional
      return .integer (← askCache op (.decr key
        (resolveNamedInteger host named "by" 1) (resolveExplicitTtl host named)))
  | "get_many" => do
      match ← cacheArgument op "cache.get_many requires a list of keys" positional 0 with
      | .list items => do
          let entries ← askCache op (.getMany (items.map host.library.display))
          return .map (entries.foldl
            (fun map (key, value) => ValueMap.insert key (value.getD .null) map) [])
      | _ => cacheError "cache.get_many argument must be a list" op
  | "set_many" => do
      match ← cacheArgument op "cache.set_many requires a map argument" positional 0 with
      | .map entries => do
          let _ ← askCache op (.setMany entries (resolveTtl host named))
          return .null
      | _ => cacheError "cache.set_many argument must be a map" op
  | _ => cacheError ("unknown cache operation '" ++ method ++ "'") op

/-- `value >> cache.set(key)`: the first argument is the key, later positional
ones are not evaluated. -/
def pipelineCacheSet (arguments : List Argument) (input : Value) :
    Action Value := do
  let op := "cache.set"
  requireCacheDriver host op
  match arguments with
  | .positional expression :: rest => do
      let key ← eval expression
      let named ← (rest.filterMap fun
        | .named name value => some (name, value)
        | .positional _ => none).mapM fun (name, value) => do
          return (name, ← eval value)
      let _ ← askCache op (.set (host.library.display key) input
        (resolveTtl host named) (resolveNamedBool named "only_if_absent"))
      return input
  | _ => cacheError "cache.set in pipeline requires a key argument" op

/-! ## http_client -/

def httpClientError {α : Type} (message op : String) : Action α :=
  .raise (.httpClientError message op)

def httpMethodOf : String → Option HttpMethod
  | "get" => some .get
  | "post" => some .post
  | "put" => some .put
  | "patch" => some .patch
  | "delete" => some .delete
  | _ => none

def HttpMethod.hasBody : HttpMethod → Bool
  | .post | .put | .patch => true
  | .get | .delete => false

/-- Replace the entry of a key, or append one. -/
def setText (entries : List (String × String)) (key value : String) :
    List (String × String) :=
  if (entries.lookup key).isSome then
    entries.map fun entry => if entry.1 = key then (key, value) else entry
  else entries ++ [(key, value)]

def setTextIfAbsent (entries : List (String × String)) (key value : String) :
    List (String × String) :=
  if (entries.lookup key).isSome then entries else entries ++ [(key, value)]

/-- The entries of all map arguments of a name, as texts. -/
def namedTexts (named : List (String × Value)) (key : String)
    (rename : String → String) : List (String × String) :=
  named.foldl
    (fun texts (name, value) =>
      match value with
      | .map entries =>
          if name = key then
            entries.foldl (fun texts (name, value) =>
              setText texts (rename name) (host.library.display value)) texts
          else texts
      | _ => texts) []

def outboundChild (context : TraceContext) : Action TraceContext := do
  return { context with spanId := ← Action.ask .spanId }

def httpUrl (method op : String) (positional : List Value) : Action String :=
  match positional.head? with
  | some (.string url) => return url
  | some other =>
      httpClientError ("http_client." ++ method ++
        " first argument must be a URL string, got " ++ other.typeName) op
  | none =>
      httpClientError ("http_client." ++ method ++ " requires a URL argument") op

def httpQuery (httpMethod : HttpMethod) (method op : String)
    (named : List (String × Value)) (input : Option Value) :
    Action (List (String × String)) :=
  let query := namedTexts host named "query" id
  match httpMethod.hasBody, input with
  | false, some (.map entries) =>
      return entries.foldl (fun query (name, value) =>
        setText query name (host.library.display value)) query
  | false, some other =>
      httpClientError ("pipeline input to http_client." ++ method ++
        " must be a Map (query params), got " ++ other.typeName) op
  | _, _ => return query

def httpHeaders (named : List (String × Value)) :
    Action (List (String × String)) := do
  let headers := namedTexts host named "headers" host.library.toLowercase
  match host.traceContext with
  | none => return headers
  | some context => do
      let child ← outboundChild context
      let headers := setTextIfAbsent headers "traceparent" child.traceparent
      match child.tracestate with
      | some tracestate => return setTextIfAbsent headers "tracestate" tracestate
      | none => return headers

def httpTimeout (named : List (String × Value)) : Option Nat :=
  (named.lookup "timeout").bind fun value =>
    (host.library.asInteger value).bind fun millis =>
      if 0 < millis then some millis.toNatClampNeg else none

def httpResponseToValue (reply : HttpReply) : Value :=
  .map [("status", .integer reply.status.toUInt64.toInt64), ("body", reply.body),
    ("headers", .map (reply.headers.foldl
      (fun headers (name, value) => ValueMap.insert name (.string value) headers) []))]

def dispatchHttpClient (method : String) (arguments : List Argument)
    (input : Option Value) : Action Value := do
  let op := "http_client." ++ method
  match httpMethodOf method with
  | none =>
      httpClientError ("unknown http_client operation '" ++ method ++
        "'. Valid: get, post, put, patch, delete") op
  | some httpMethod =>
      if !host.hasHttpClient then
        httpClientError "http_client.* called but no HTTP client is configured" op
      else
        let ⟨positional, named⟩ ← collectNamedAndPositional arguments none
        let url ← httpUrl method op positional
        let body :=
          if httpMethod.hasBody then input <|> positional[1]? else none
        let query ← httpQuery host httpMethod method op named input
        let headers ← httpHeaders host named
        let request : HttpRequest :=
          { method := httpMethod, url, body, headers, query
            timeoutMillis := httpTimeout host named }
        match ← Action.ask (.http request) with
        | .ok reply => return httpResponseToValue reply
        | .error message => httpClientError message op

def httpClientOperation : Expression → String
  | .methodCall (.identifier "http_client") method _ => "http_client." ++ method
  | _ => "http_client"

/-- `http_client.get(url) as S`: the body of the response must match a schema. -/
def evaluateHttpClientResponseSchema (call : Expression) (schemaName : String) :
    Action Value := do
  let op := httpClientOperation call
  match ← eval call with
  | .map response =>
      let currentModule ← Action.reads (·.currentModule)
      match resolveSchema host currentModule schemaName with
      | none => httpClientError ("unknown schema '" ++ schemaName ++ "'") op
      | some schema =>
          let body := (ValueMap.get? response "body").getD .null
          match host.library.coercePayload body schema
            (schemaRegistryFor host currentModule) with
          | .ok coerced => return .map (ValueMap.insert "body" coerced response)
          | .error error =>
              httpClientError ("response body does not match schema '" ++ schemaName ++
                "': " ++ validationErrorDetail host error) op
  | _ => httpClientError "http_client schema annotation expected a response map" op

/-! ## Queue producers -/

def queueMessage (payload : Value) : Action QueueMessage := do
  match host.traceContext with
  | none => return { payload, metadata := [] }
  | some context => do
      let child ← outboundChild context
      return {
        payload
        metadata := ("traceparent", child.traceparent) ::
          (child.tracestate.map fun tracestate => ("tracestate", tracestate)).toList }

/-- The parts in which `queue.push` and `topic.publish` differ. -/
structure Producer where
  operation : String
  target : String
  request : String → QueueMessage → Request
  reply : ∀ name message, (request name message).Reply → Except String Unit

def queueProducer : Producer where
  operation := "queue.push"
  target := "queue name"
  request := .push
  reply _ _ reply := reply

def topicProducer : Producer where
  operation := "topic.publish"
  target := "topic"
  request := .publish
  reply _ _ reply := reply

/-- The schema that the producers look up. -/
def injectedSchema (name : String) : Option SchemaDefinition :=
  host.schemas.bind fun schemas => schemas.lookup name

/-- Hand a message to the broker, and return its payload. -/
def deliver (producer : Producer) (name : String) (value : Value) : Action Value := do
  let message ← queueMessage host value
  let reply ← Action.ask (producer.request name message)
  match producer.reply name message reply with
  | .ok _ => return value
  | .error message => .raise (.queueError message producer.operation)

def produce (producer : Producer) (target : Expression) (schema : Option String)
    (payload : Option Expression) (input : Option Value) : Action Value := do
  let operation := producer.operation
  if !host.hasQueue then
    .raise (.queueError ("Queue provider not configured — set " ++
      "MARRETA_QUEUE_PROVIDER, MARRETA_QUEUE_HOST, MARRETA_QUEUE_PORT, " ++
      "MARRETA_QUEUE_USER, and optional MARRETA_QUEUE_PASSWORD") operation)
  else
    match ← eval target with
    | .string name =>
        let value ←
          match payload with
          | some expression => eval expression
          | none =>
              orTypeError (operation ++ ": no payload provided and not inside a pipeline")
                input
        deliver host producer name (serializeWith value (schema.bind (injectedSchema host)))
    | other =>
        typeError (operation ++ ": " ++ producer.target ++ " must be a string, got " ++
          host.library.debugValue other)

def evalQueuePush : Expression → Option String → Option Expression → Option Value →
    Action Value :=
  produce host queueProducer

def evalTopicPublish : Expression → Option String → Option Expression → Option Value →
    Action Value :=
  produce host topicProducer

end Marreta
