import Marreta.Runtime.Namespaces
import Marreta.Runtime.Queries

namespace Marreta

open Marreta.Action (eval exec block position typeError runtimeError propertyNotFound)

variable (host : Host)

/-! The evaluator: one case for each expression and each statement. -/

/-! ## Properties and subscripts -/

/-- The only field of the target schema that refers back to the owner. -/
def inferInverseReferenceField (moduleId : Option String)
    (ownerSchema targetSchema : String) : Option String :=
  (resolveSchema host moduleId targetSchema).bind fun schema =>
    match schema.fields.filter fun field =>
      field.fieldType = .reference ownerSchema with
    | [field] => some field.name
    | _ => none

def relationQuery (table column : String) (value : Value) : Query :=
  { (QueryState.new table : Query) with filters := [{ column, op := .eq, value }] }

def relationHandleForProperty (moduleId : Option String) (schemaName : String)
    (fields : ValueMap) (property : String) : Option Value := do
  let schema ← resolveSchema host moduleId schemaName
  let field ← schema.fields.find? fun field => field.name = property
  match field.fieldType with
  | .reference target => do
      let targetSchema ← resolveSchema host moduleId target
      let table ← targetSchema.dbTable
      let key := (fields.get? (property ++ "_id")).getD .null
      let isNull := match key with
        | .null => true
        | _ => false
      return .relationHandle (relationQuery table "id" key) .one isNull
  | .typedList (.reference target) => do
      let targetSchema ← resolveSchema host moduleId target
      let table ← targetSchema.dbTable
      let inverse ← inferInverseReferenceField host moduleId schemaName target
      let owner := (fields.get? "id").getD .null
      return .relationHandle (relationQuery table (inverse ++ "_id") owner) .many false
  | _ => none

def accessProperty (object : Value) (property : String) : Action Value := do
  match object with
  | .map entries => return (ValueMap.get? entries property).getD .null
  | .relationalRecord schemaName fields => do
      let currentModule ← Action.reads (·.currentModule)
      return (ValueMap.get? fields property <|>
        relationHandleForProperty host currentModule schemaName fields property).getD .null
  | .instant _ | .date _ | .time _ | .duration _ | .interval _ _ =>
      Action.ofLibrary (host.library.temporalProperty (← position) object property)
  | _ => propertyNotFound object.typeName property

/-- A negative index counts from the end. -/
def listItem (items : List Value) (index : Int64) : Value :=
  let index := if index < 0 then items.length + index.toInt else index.toInt
  if index < 0 then .null else items[index.toNat]?.getD .null

def accessSubscript (object key : Value) : Action Value :=
  match object, key with
  | .map entries, .string name => return (ValueMap.get? entries name).getD .null
  | .list items, .integer index => return listItem items index
  | _, _ =>
      typeError ("subscript requires Map[String] or List[Integer], got " ++
        object.typeName ++ "[" ++ key.typeName ++ "]")

/-! ## Identifiers and method calls -/

/-- Names that always denote a namespace. -/
def namespaceValue : String → Option Value
  | "db" => some .dbNamespace
  | "doc" => some .docNamespace
  | "cache" => some .cacheNamespace
  | "fs" => some .fsNamespace
  | "json" => some .jsonNamespace
  | "base64" => some .base64Namespace
  | "uuid" => some .uuidNamespace
  | "feature" => some .featureNamespace
  | "log" => some .logNamespace
  | "time" => some .timeNamespace
  | "math" => some .mathNamespace
  | "http_client" => some .httpClientNamespace
  | _ => none

def evaluateIdentifier (name : String) : Action Value :=
  match namespaceValue name with
  | some value => return value
  | none => do
      match ← Action.reads fun state => state.env.get name with
      | some value => return value
      | none => do
          let position ← position
          .raise (.undefinedVariable name position.line position.column)

/-- A task of another file, named as `file.task` where no variable is called
`file`. -/
def namespaceStageTask (env : Environment) (object : Expression) (name : String) :
    Option Value :=
  match object with
  | .identifier file =>
      if env.has file then none
      else host.project.bind fun project => project.moduleTask file name
  | _ => none

/-- The file of a call `file.task()`, when `file` exports no such task. -/
def unknownFileTask (env : Environment) (object : Expression) : Option String :=
  match object with
  | .identifier file =>
      if env.has file then none
      else if host.project.any fun project => project.isModuleNamespace file then some file
      else none
  | _ => none

def dispatchMethod (object : Value) (method : String)
    (arguments : List Argument) : Action Value := do
  match object, method with
  | .dbNamespace, "native_query" => dispatchNativeQuery host arguments
  | .docNamespace, "pipeline" => dispatchDocPipeline host (← evaluateArgs arguments)
  | .dbTable table, _ => dispatchDbDirect host table method arguments
  | .cacheNamespace, _ => dispatchCache host method arguments
  | .fsNamespace, _ => dispatchFs method arguments none
  | .jsonNamespace, _ => dispatchJson host method arguments none
  | .base64Namespace, _ => dispatchBase64 host method arguments none
  | .uuidNamespace, _ => dispatchUuid method arguments
  | .featureNamespace, _ => dispatchFeature host method arguments
  | .logNamespace, _ => dispatchLog host method arguments none
  | .timeNamespace, _ => dispatchTime host method arguments
  | .mathNamespace, _ => dispatchMath host method arguments none
  | .httpClientNamespace, _ => dispatchHttpClient host method arguments none
  | .docCollection collection, _ => dispatchDocDirect host collection method arguments
  | _, _ => do
      let values ← evaluateArgs arguments
      Action.ofLibrary (host.library.callMethod (← position) object method values)

def evaluateMethodCall (object : Expression) (method : String)
    (arguments : List Argument) : Action Value := do
  let env ← Action.reads (·.env)
  match namespaceStageTask host env object method, unknownFileTask host env object with
  | some task, _ => do
      let values ← evaluateArgs arguments
      callTaskValue host task values method
  | none, some file => do
      let position ← position
      .raise (.undefinedTask (file ++ "." ++ method) position.line position.column)
  | none, none => do
      let value ← eval object
      dispatchMethod host value method arguments

/-! ## Schema constructors -/

/-- The path of an undeclared field of a value.  Schemas may refer to each other,
so the recursion is on the value. -/
def undeclaredField (schemas : Schemas) :
    Nat → Value → SchemaDefinition → String → Option String
  | 0, _, _, _ => none
  | fuel + 1, .map entries, schema, path =>
      let pathOf (name : String) := if path = "" then name else path ++ "." ++ name
      let undeclared := entries.find? fun entry =>
        schema.fields.all fun field => field.name ≠ entry.1
      match undeclared with
      | some entry => some (pathOf entry.1)
      | none =>
          schema.fields.findSome? fun field =>
            (ValueMap.get? entries field.name).bind fun value =>
              match field.fieldType, value with
              | .reference target, value =>
                  (schemas.lookup target).bind fun nested =>
                    undeclaredField schemas fuel value nested (pathOf field.name)
              | .typedList (.reference target), .list items =>
                  (schemas.lookup target).bind fun nested =>
                    (items.zipIdx).findSome? fun (item, index) =>
                      undeclaredField schemas fuel item nested
                        (pathOf field.name ++ "[" ++ toString index ++ "]")
              | _, _ => none
  | _ + 1, _, _, _ => none

mutual
/-- How deeply maps and lists are nested in a value. -/
def Value.nesting : Value → Nat
  | .list items => nestingOfItems items + 1
  | .map entries => nestingOfEntries entries + 1
  | _ => 0

def nestingOfItems : List Value → Nat
  | [] => 0
  | value :: rest => max value.nesting (nestingOfItems rest)

def nestingOfEntries : List (String × Value) → Nat
  | [] => 0
  | (_, value) :: rest => max value.nesting (nestingOfEntries rest)
end

def evaluatePairs : List (String × Expression) → ValueMap → Action ValueMap
  | [], entries => return entries
  | (key, expression) :: rest, entries => do
      let value ← eval expression
      evaluatePairs rest (ValueMap.insert key value entries)

def evaluateSchemaConstructor (schemaName : String)
    (fields : List (String × Expression)) : Action Value := do
  let currentModule ← Action.reads (·.currentModule)
  match constructorSchemaRegistry host currentModule schemaName with
  | (_, none) => typeError ("unknown schema '" ++ schemaName ++ "'")
  | (schemas, some schema) => do
      let entries ← evaluatePairs fields []
      let value := Value.map entries
      match undeclaredField schemas (value.nesting + 1) value schema "" with
      | some path =>
          typeError ("schema constructor " ++ schemaName ++
            " received undeclared field '" ++ path ++ "'")
      | none =>
          match host.library.coercePayload value schema schemas with
          | .ok coerced => return coerced
          | .error error =>
              typeError ("schema constructor " ++ schemaName ++ ": " ++
                validationErrorDetail host error)

/-! ## Branches and matches -/

def evaluateBranchBody (body : TaskBody) : Action Value :=
  .branch (runBody body)

def evaluateMatch (subject : Value) : List MatchArm → Action Value
  | [] => return .null
  | .mk .fallback value :: _ => eval value
  | .mk (.literal pattern) value :: rest => do
      let pattern ← eval pattern
      if host.library.valueEq subject pattern then eval value
      else evaluateMatch subject rest

/-! ## Pipelines -/

/-- `fetch` and `fetch_one` are stages of queries only. -/
def isFetch (name : String) : Bool :=
  name = "fetch" || name = "fetch_one"

def notARelation (name : String) (input : Value) : Action Value :=
  typeError ("cannot apply >> " ++ name ++ " to " ++ input.typeName ++
    "; this value is not a relation or query")

/-- A task in a stage is applied to each element of a list. -/
def applyTaskToInput (task input : Value) (name : String) : Action Value :=
  match input with
  | .list items => do
      let results ← items.mapM fun item => callTaskValue host task [item] name
      return .list results
  | input => callTaskValue host task [input] name

/-- `input >> name`. -/
def applyNamedStage (input : Value) (stage : Expression) (name : String) :
    Action Value :=
  if isFetch name then notARelation name input
  else do
    match ← Action.reads fun state => state.env.get name with
    | some (.task task) => applyTaskToInput host (.task task) input name
    | _ => eval stage

/-- `input >> name(arguments)` calls with the input as first argument. -/
def applyFunctionStage (input : Value) (name : String)
    (arguments : List Argument) : Action Value := do
  let values ← evaluateArgs arguments
  callFunction host name (input :: values)

def applyPipelineValue (input : Value) (stage : Expression) : Action Value := do
  let env ← Action.reads (·.env)
  match stage with
  | .taskCall name | .identifier name => applyNamedStage host input stage name
  | .functionCall name arguments => applyFunctionStage host input name arguments
  | .queuePush queueName schema payload =>
      evalQueuePush host queueName schema payload (some input)
  | .topicPublish topic schema payload =>
      evalTopicPublish host topic schema payload (some input)
  | .methodCall (.identifier "cache") "set" arguments =>
      pipelineCacheSet host arguments input
  | .methodCall (.identifier "http_client") method arguments =>
      dispatchHttpClient host method arguments (some input)
  | .methodCall (.identifier "fs") method arguments =>
      dispatchFs method arguments (some input)
  | .methodCall (.identifier "json") method arguments =>
      dispatchJson host method arguments (some input)
  | .methodCall (.identifier "base64") method arguments =>
      dispatchBase64 host method arguments (some input)
  | .methodCall (.identifier "log") method arguments =>
      dispatchLog host method arguments (some input)
  | .methodCall (.identifier "math") method arguments =>
      dispatchMath host method arguments (some input)
  | .propertyAccess object property =>
      match namespaceStageTask host env object property with
      | some task => applyTaskToInput host task input property
      | none => eval stage
  | .methodCall object method arguments =>
      match namespaceStageTask host env object method with
      | some task => do
          let values ← evaluateArgs arguments
          callTaskValue host task (input :: values) method
      | none => eval stage
  | _ => eval stage

/-- The body of a map stage: the value it keeps, if any. -/
def mapBody : List MapStatement → Action (Option Value)
  | [] => return none
  | .statement statement :: rest => do
      let _ ← exec statement
      mapBody rest
  | .keep value none :: _ => do return some (← eval value)
  | .keep value (some condition) :: rest => do
      if (← eval condition).isTruthy then return some (← eval value)
      else mapBody rest
  | .skip condition :: rest => do
      if (← eval condition).isTruthy then return none
      else mapBody rest

def mapItems (element : String) (body : List MapStatement) (items : List Value) :
    Action Value := do
  let kept ← items.mapM fun item => .element [(element, item)] (mapBody body)
  return .list (kept.filterMap id)

def reduceItems (accumulator item : String) (body : TaskBody) :
    Value → List Value → Action Value
  | result, [] => return result
  | result, current :: rest => do
      let next ← .element [(accumulator, result), (item, current)] (runBody body)
      reduceItems accumulator item body next rest

/-- A table or a collection becomes a query when a pipeline starts on it. -/
def promoteInput (input : Value) : Value :=
  match input with
  | .dbTable table =>
      .queryBuilder (promoteTable
        (fun table => host.project.bind fun project => project.dbColumns.lookup table) table)
  | .docCollection collection => .docQueryBuilder (DocQueryState.new collection)
  | input => input

def evaluatePipelineStage (input : Value) (stage : PipelineStage) :
    Action Value :=
  match promoteInput host input, stage with
  | .relationHandle query cardinality nullShortCircuit, .expression value =>
      applyRelationPipelineStage host query cardinality nullShortCircuit value
  | .relationHandle _ _ _, _ =>
      typeError "cannot use map/keep on a relation handle — did you forget >> fetch?"
  | .queryBuilder query, .expression value => applyQueryPipelineStage host query value
  | .queryBuilder _, _ =>
      typeError ("cannot use map/keep on a QueryBuilder — did you forget >> fetch or " ++
        ">> fetch_one?")
  | .docQueryBuilder query, .expression value =>
      applyDocQueryPipelineStage host query value
  | .docQueryBuilder _, _ =>
      typeError "cannot use map/keep on a DocQueryBuilder — did you forget >> fetch?"
  | input, .expression value => applyPipelineValue host input value
  | .list items, .map element body => mapItems element body items
  | input, .map _ _ =>
      typeError ("pipeline map requires a List, got " ++ input.typeName)
  | .list items, .reduce initial accumulator item body => do
      let initial ← eval initial
      reduceItems accumulator item body initial items
  | input, .reduce _ _ _ _ =>
      typeError ("pipeline reduce requires a List, got " ++ input.typeName)
  | input, .rescue _ => return input

def runStages (input : Value) : List PipelineStage → Action Value
  | [] => return input
  | stage :: rest => do
      let next ← evaluatePipelineStage host input stage
      runStages next rest

/-! ## Rescue -/

def MarretaError.isHttpResponse : MarretaError → Bool
  | .httpResponse .. => true
  | _ => false

def buildErrorMap (error : MarretaError) : Value :=
  .map [("message", .string error.displayMessage), ("op", .string error.operationName),
    ("code", .string error.semanticCode)]

/-- Run statements in order, with the value of the last one. -/
def execute : Program → Action Value
  | [] => return .null
  | [statement] => exec statement
  | statement :: rest => do
      let _ ← exec statement
      execute rest

def executeRescueHandler : RescueHandler → Action Value
  | .inline value => eval value
  | .block statements => execute statements

/-- Run a handler for an error.  Responses of `fail` and `reply` are not
handled. -/
def rescueError (frames : Nat) (error : MarretaError) (handler : Action Value) :
    Action Value :=
  if error.isHttpResponse then .raise error
  else .rescue frames (buildErrorMap error) handler

def evaluateRescue (expression handler : Expression) : Action Value := do
  let frames ← Action.reads (·.traceFrames.length)
  match ← Action.attempt (eval expression) with
  | .ok value => return value
  | .error error => rescueError frames error (eval handler)

def PipelineStage.isRescue : PipelineStage → Bool
  | .rescue _ => true
  | _ => false

/-- Pipelines with a rescue stage carry an error past the other stages. -/
def runRailway (frames : Nat) :
    Except MarretaError Value → List PipelineStage → Action Value
  | .ok value, [] => return value
  | .error error, [] => .raise error
  | .ok value, .rescue _ :: rest => runRailway frames (.ok value) rest
  | .error error, .rescue handler :: rest =>
      if error.isHttpResponse then .raise error
      else do
        let handled ← Action.attempt
          (.rescue frames (buildErrorMap error) (executeRescueHandler handler))
        runRailway frames handled rest
  | .ok value, stage :: rest => do
      let next ← Action.attempt (evaluatePipelineStage host value stage)
      runRailway frames next rest
  | .error error, _ :: rest => runRailway frames (.error error) rest

def evaluatePipeline (input : Expression) (stages : List PipelineStage) :
    Action Value := do
  if stages.any PipelineStage.isRescue then
    let frames ← Action.reads (·.traceFrames.length)
    let input ← Action.attempt (eval input)
    runRailway host frames input stages
  else
    let input ← eval input
    runStages host input stages

/-! ## Broadcast -/

mutual
/-- Whether an expression may have side effects or is not known to be pure. -/
def expressionHasSideEffects : Expression → Bool
  | .integer _ | .float _ | .boolean _ | .null => false
  | .stringLiteral text => hasTemplate text.toList
  | .identifier name =>
      name = "db" || name = "doc" || name = "cache" || name = "queue" ||
        name = "http_client"
  | .list items => itemsHaveSideEffects items
  | .mapLiteral pairs => pairsHaveSideEffects pairs
  | .binaryOp left _ right =>
      expressionHasSideEffects left || expressionHasSideEffects right
  | .unaryOp _ operand => expressionHasSideEffects operand
  | .propertyAccess object _ => expressionHasSideEffects object
  | .subscript object key =>
      expressionHasSideEffects object || expressionHasSideEffects key
  | .methodCall object _ arguments =>
      expressionHasSideEffects object || argumentsHaveSideEffects arguments
  | _ => true

def itemsHaveSideEffects : List Expression → Bool
  | [] => false
  | item :: rest => expressionHasSideEffects item || itemsHaveSideEffects rest

def pairsHaveSideEffects : List (String × Expression) → Bool
  | [] => false
  | (_, value) :: rest => expressionHasSideEffects value || pairsHaveSideEffects rest

def argumentsHaveSideEffects : List Argument → Bool
  | [] => false
  | .positional value :: rest | .named _ value :: rest =>
      expressionHasSideEffects value || argumentsHaveSideEffects rest
end

def taskBodyIsPure : TaskBody → Bool
  | .inline value => !expressionHasSideEffects value
  | .block statements result => statements.isEmpty && !expressionHasSideEffects result

/-- The task a broadcast target names, when the target is a bare name. -/
def broadcastTask (env : Environment) : Expression → Option TaskValue
  | .identifier name | .taskCall name =>
      if isFetch name then none
      else
        match env.get name with
        | some (.task task) => some task
        | _ => none
  | .propertyAccess object property =>
      match namespaceStageTask host env object property with
      | some (.task task) => some task
      | _ => none
  | _ => none

def broadcastBranchIsPure (env : Environment) (target : Expression) : Bool :=
  (broadcastTask host env target).any fun task => taskBodyIsPure task.body

def broadcastBranchesArePure (env : Environment) (targets : List Expression) :
    Bool :=
  targets.all (broadcastBranchIsPure host env)

/-- Like a pipeline stage, but a list is passed as a whole. -/
def applyBroadcastValue (input : Value) (target : Expression) : Action Value := do
  let env ← Action.reads (·.env)
  match target with
  | .taskCall name | .identifier name =>
      if isFetch name then notARelation name input
      else
        match env.get name with
        | some (.task task) => callTaskValue host (.task task) [input] name
        | _ => eval target
  | .functionCall name arguments => applyFunctionStage host input name arguments
  | .methodCall (.identifier "fs") method arguments =>
      dispatchFs method arguments (some input)
  | .methodCall (.identifier "json") method arguments =>
      dispatchJson host method arguments (some input)
  | .methodCall (.identifier "base64") method arguments =>
      dispatchBase64 host method arguments (some input)
  | .methodCall (.identifier "log") method arguments =>
      dispatchLog host method arguments (some input)
  | .methodCall (.identifier "math") method arguments =>
      dispatchMath host method arguments (some input)
  | .propertyAccess object property =>
      match namespaceStageTask host env object property with
      | some task => callTaskValue host task [input] property
      | none => eval target
  | .methodCall object method arguments =>
      match namespaceStageTask host env object method with
      | some task => do
          let values ← evaluateArgs arguments
          callTaskValue host task (input :: values) method
      | none => eval target
  | _ => eval target

/-- One branch after the other, stopping at the first failure. -/
def sequentialBranches (input : Value) (targets : List Expression) :
    Action (List Value) :=
  targets.mapM fun target => .isolated (applyBroadcastValue host input target)

def joinOutcome : Option (Except MarretaError Value) → Action Value
  | none => typeError "broadcast branch panicked during parallel execution"
  | some outcome => Action.ofExcept outcome

/-- All branches, then the results in the order of the targets.  What the
branches do is listed in that order too; how they interleave is not modelled. -/
def parallelBranches (input : Value) (targets : List Expression) :
    Action (List Value) := do
  let outcomes ← targets.mapM fun target =>
    .spawned (applyBroadcastValue host input target)
  outcomes.mapM joinOutcome

def evaluateBroadcast (input : Expression) (targets : List Expression) :
    Action Value := do
  if ← Action.reads (·.insideTransaction) then
    typeError Action.broadcastInTransaction
  else
    let input ← eval input
    let env ← Action.reads (·.env)
    let results ←
      if broadcastBranchesArePure host env targets then
        sequentialBranches host input targets
      else parallelBranches host input targets
    return .list results

/-! ## Expressions -/

def evaluateBinaryOp (left : Expression) (operator : BinaryOperator)
    (right : Expression) : Action Value := do
  let leftValue ← eval left
  match operator with
  | .and => if leftValue.isTruthy then eval right else return leftValue
  | .or => if leftValue.isTruthy then return leftValue else eval right
  | operator => do
      let rightValue ← eval right
      Action.ofLibrary
        (host.library.applyBinaryOp (← position) operator leftValue rightValue)

def evaluate : Expression → Action Value
  | .integer value => return .integer value
  | .float value => return .float value
  | .stringLiteral text => interpolateString host text
  | .boolean value => return .boolean value
  | .null => return .null
  | .list items => do return .list (← items.mapM eval)
  | .mapLiteral pairs => do return .map (← evaluatePairs pairs [])
  | .schemaConstructor schemaName fields =>
      evaluateSchemaConstructor host schemaName fields
  | .identifier name => evaluateIdentifier name
  | .binaryOp left operator right => evaluateBinaryOp host left operator right
  | .unaryOp operator operand => do
      let value ← eval operand
      Action.ofLibrary (host.library.applyUnaryOp (← position) operator value)
  | .subscript object key => do
      let object ← eval object
      let key ← eval key
      accessSubscript object key
  | .propertyAccess object property => do
      match ← eval object with
      | .dbNamespace => return .dbTable property
      | .docNamespace => return .docCollection property
      | value => accessProperty host value property
  | .methodCall object method arguments =>
      evaluateMethodCall host object method arguments
  | .httpClientResponseSchema call schemaName =>
      evaluateHttpClientResponseSchema host call schemaName
  | .functionCall name arguments => do
      let values ← evaluateArgs arguments
      callFunction host name values
  | .taskCall name => do
      match ← Action.reads fun state => state.env.get name with
      | some value => return value
      | none => do
          let position ← position
          .raise (.undefinedTask name position.line position.column)
  | .matchOn subject arms => do
      let subject ← eval subject
      evaluateMatch host subject arms
  | .ifElse condition thenBranch elseBranch => do
      if (← eval condition).isTruthy then evaluateBranchBody thenBranch
      else
        match elseBranch with
        | some elseBranch => evaluateBranchBody elseBranch
        | none => return .null
  | .pipeline input stages => evaluatePipeline host input stages
  | .rescue expression handler => evaluateRescue expression handler
  | .queuePush queueName schema payload =>
      evalQueuePush host queueName schema payload none
  | .topicPublish topic schema payload =>
      evalTopicPublish host topic schema payload none
  | .broadcast input targets => evaluateBroadcast host input targets

/-! ## Statements -/

/-- The position a statement sets before it runs. -/
def Statement.position? : Statement → Option (Nat × Nat)
  | .assignment _ _ line column | .conditionalAssignment _ _ _ line column
  | .require _ _ _ line column | .reject _ _ _ line column
  | .while _ _ line column | .taskDef _ _ _ line column
  | .expressionStatement _ line column | .route _ _ _ _ _ _ line column
  | .schema _ _ _ line column | .authProvider _ line column
  | .reply _ _ _ _ _ line column | .fail _ _ line column
  | .raise _ _ line column | .transaction _ line column
  | .onQueue _ _ _ _ line column | .onTopic _ _ _ _ line column
  | .nack _ _ line column | .scenario _ _ line column => some (line, column)
  | .export (.assignment _ _ line column) | .export (.taskDef _ _ _ line column)
  | .export (.schema _ _ _ line column)
  | .export (.expressionStatement _ line column) => some (line, column)
  | .export _ => none

def whileLoop (condition : Expression) (body : List Statement)
    (remaining : Nat) : Action Value := do
  if (← eval condition).isTruthy then
    match remaining with
    | 0 => runtimeError "while loop exceeded the maximum of 10000 iterations"
    | remaining + 1 => do
        block body
        whileLoop condition body remaining
  else return .null

/-- A condition that is missing holds. -/
def conditionHolds : Option Expression → Action Bool
  | none => return true
  | some condition => do return (← eval condition).isTruthy

def replyBody (contentType : ReplyContentType) (value : Value) : String × String :=
  match contentType with
  | .json => (host.library.valueToJsonString value, "application/json")
  | .html => (host.library.display value, "text/html; charset=utf-8")
  | .text => (host.library.display value, "text/plain; charset=utf-8")

def replyHeaders : Option Expression → Action (List (String × String))
  | none => return []
  | some expression => do
      match ← eval expression with
      | .map entries =>
          return entries.map fun (name, value) => (name, host.library.display value)
      | _ => return []

def executeReply (statusCode : Expression) (contentType : ReplyContentType)
    (body : Expression) (responseSchema : Option String)
    (extraHeaders : Option Expression) : Action Value := do
  match ← eval statusCode with
  | .integer status => do
      let value ← eval body
      let currentModule ← Action.reads (·.currentModule)
      let schema := responseSchema.bind (resolveSchema host currentModule)
      let (text, mime) := replyBody host contentType (serializeWith value schema)
      let headers ← replyHeaders host extraHeaders
      .stop (.reply status.toUInt64.toUInt16 text mime headers)
  | other => typeError ("reply status must be Integer, got " ++ other.typeName)

def executeTransaction (body : List Statement) : Action Value := do
  .transaction (block body)
  return .null

def executeKind : Statement → Action Value
  | .assignment target value _ _ => do
      .assign target (← eval value)
      return .null
  | .conditionalAssignment target value condition _ _ => do
      if (← eval condition).isTruthy then .assign target (← eval value)
      return .null
  | .require condition errorCode errorMessage _ _ => do
      if (← eval condition).isTruthy then return .null
      else .stop (.require errorCode errorMessage)
  | .reject condition errorCode errorMessage _ _ => do
      if (← eval condition).isTruthy then .stop (.reject errorCode errorMessage)
      else return .null
  | .while condition body _ _ => whileLoop condition body 10000
  | .taskDef name params body line column => do
      let currentModule ← Action.reads (·.currentModule)
      .define name (.task
        { name, params, body, ownerModule := currentModule
          sourceModule := currentModule, line, column })
      return .null
  | .expressionStatement expression _ _ => eval expression
  | .route .. | .schema .. | .authProvider .. | .scenario .. => return .null
  | .export statement => exec statement
  | .transaction body _ _ => executeTransaction body
  | .reply statusCode contentType body responseSchema extraHeaders _ _ =>
      executeReply host statusCode contentType body responseSchema extraHeaders
  | .fail statusCode message _ _ => do
      let message ← eval message
      .stop (.fail statusCode.toUInt64.toUInt16 (failureBody host message))
  | .raise message condition _ _ => do
      if ← conditionHolds condition then
        let message ← eval message
        .raise (.raiseError (host.library.display message))
      else return .null
  | .onQueue .. | .onTopic .. => return .null
  | .nack requeue condition _ _ => do
      if ← conditionHolds condition then .raise (.nackSignal requeue)
      else return .null

def executeStatement (statement : Statement) : Action Value := do
  match statement.position? with
  | some (line, column) => .moveTo line column
  | none => pure ()
  executeKind host statement

/-! ## The interpreter -/

def actionOf : Call → Action Value
  | .expression value => evaluate host value
  | .statement value => executeStatement host value

/-- Run a part of a program.  The recursion is at most `depth` calls deep. -/
def perform : Nat → Call → Foundation.Run Interpreter Fault Value
  | 0, _ => Foundation.Run.raise .exhausted
  | depth + 1, target => Action.run host (perform depth) (actionOf host target)

/-- Run an action whose recursion is at most `depth` calls deep. -/
def runAction (depth : Nat) {α : Type} (action : Action α) :
    Foundation.Run Interpreter Fault α :=
  Action.run host (perform host depth) action

end Marreta
