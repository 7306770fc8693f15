import Marreta.Runtime.Calls

namespace Marreta

open Foundation.Text (trim)
open Marreta.Action (eval position typeError propertyNotFound orTypeError)

variable (host : Host)

/-! Calls of the relational and the document database, and the stages of query
pipelines. -/

def requireDbEngine : Action Unit :=
  if host.hasDb then return ()
  else typeError Action.noDbConfigured

def requireDocEngine : Action Unit :=
  if host.hasDoc then return ()
  else
    typeError ("doc.* called but no document DB is configured (set " ++
      "MARRETA_DOC_PROVIDER, MARRETA_DOC_HOST, MARRETA_DOC_PORT, MARRETA_DOC_NAME, " ++
      "optional MARRETA_DOC_USER, and optional MARRETA_DOC_PASSWORD)")

/-! ## Rows -/

def valueToDbRow : Value → Action DbRow
  | .map entries => return entries
  | other => typeError ("expected a map, got " ++ other.typeName)

/-- A row of a table with a schema becomes a record of it. -/
def rowToValue (moduleId : Option String) (table : String) (row : DbRow) : Value :=
  match resolveSchemaNameForTable host moduleId table with
  | none => .map row
  | some schemaName =>
      let coerced := (resolveSchema host moduleId schemaName).bind fun schema =>
        match host.library.coercePayload (.map row) schema
          (schemaRegistryFor host moduleId) with
        | .ok (.map fields) => some fields
        | _ => none
      .relationalRecord schemaName (coerced.getD row)

def dbRowToRuntimeValue (table : String) (row : DbRow) : Action Value := do
  let currentModule ← Action.reads (·.currentModule)
  return rowToValue host currentModule table row

def dbRowsToRuntimeValue (table : String) (rows : List DbRow) : Action Value := do
  return .list (← rows.mapM (dbRowToRuntimeValue host table))

def optionalRowToRuntimeValue (table : String) : Option DbRow → Action Value
  | some row => dbRowToRuntimeValue host table row
  | none => return .null

/-! ## Direct relational calls -/

def argsToEqualityFilters (arguments : List Argument) : Action (List Filter) :=
  arguments.mapM fun
    | .named column value => do
        return { column, op := .eq, value := ← eval value }
    | .positional _ =>
        typeError ("find_all filters must be named arguments (e.g. " ++
          "find_all(status: \"active\"))")

def dispatchDbDirect (table method : String) (arguments : List Argument) :
    Action Value := do
  requireDbEngine host
  match method with
  | "save" => do
      let values ← evaluateArgs arguments
      let data ← orTypeError "db.TABLE.save requires a map argument" values.head?
      let row ← valueToDbRow data
      let currentModule ← Action.reads (·.currentModule)
      if (resolveSchemaNameForTable host currentModule table).isSome &&
          (row.lookup "id").isSome then
        typeError ("db.TABLE.save must not include `id` for db: schemas; id is " ++
          "generated by the database in v1")
      else dbRowToRuntimeValue host table (← Action.db (.save table row))
  | "find" => do
      let values ← evaluateArgs arguments
      let id ← orTypeError "db.TABLE.find requires an id argument" values.head?
      optionalRowToRuntimeValue host table (← Action.db (.find table id))
  | "find_all" => do
      let filters ← argsToEqualityFilters arguments
      dbRowsToRuntimeValue host table (← Action.db (.findAll table filters))
  | "update" => do
      let values ← evaluateArgs arguments
      let id ← orTypeError "db.TABLE.update requires (id, partial_map) arguments"
        values.head?
      let data ← orTypeError "db.TABLE.update requires a second argument (partial map)"
        values[1]?
      let row ← valueToDbRow data
      optionalRowToRuntimeValue host table (← Action.db (.updateById table id row))
  | "delete" => do
      let values ← evaluateArgs arguments
      let id ← orTypeError "db.TABLE.delete requires an id argument" values.head?
      return .boolean (← Action.db (.deleteById table id))
  | other =>
      typeError ("unknown db operation '" ++ other ++ "' on table '" ++ table ++
        "' — supported: save, find, find_all, update, delete")

/-- Replace each expression of a statement by a placeholder and evaluate it. -/
def extractNativeQueryParams (template : String) : Action (String × List Value) :=
  if hasTemplate template.toList then
    (templateParts none template.toList).foldlM
      (fun (sql, params) part =>
        match part with
        | .char char => return (sql.push char, params)
        | .code source => do
            let value ← evaluateSourceExpression (trim source)
            let params := params ++ [value]
            return (sql ++ placeholder params.length, params))
      ("", [])
  else return (template, [])

def nativeQueryTemplate (arguments : List Argument) : Action String :=
  match arguments with
  | [] => typeError "db.native_query requires a SQL string as the first argument"
  | .positional (.stringLiteral template) :: _ => return template
  | arguments => do
      match (← evaluateArgs arguments).head? with
      | some (.string template) => return template
      | some other =>
          typeError ("db.native_query first argument must be a string, got " ++ other.typeName)
      | none => .abort .library

def dispatchNativeQuery (arguments : List Argument) : Action Value := do
  requireDbEngine host
  let template ← nativeQueryTemplate arguments
  let (sql, params) ← extractNativeQueryParams template
  let rows ← Action.db (.nativeQuery sql params)
  return .list (rows.map .map)

/-! ## Stages of a relational query -/

def BinaryOperator.debug : BinaryOperator → String
  | .add => "Add"
  | .subtract => "Subtract"
  | .multiply => "Multiply"
  | .divide => "Divide"
  | .modulo => "Modulo"
  | .equal => "Equal"
  | .notEqual => "NotEqual"
  | .greater => "Greater"
  | .less => "Less"
  | .greaterEqual => "GreaterEqual"
  | .lessEqual => "LessEqual"
  | .isIn => "In"
  | .and => "And"
  | .or => "Or"

def filterOpOf : BinaryOperator → Option FilterOp
  | .greater => some .gt
  | .greaterEqual => some .gte
  | .less => some .lt
  | .lessEqual => some .lte
  | .notEqual => some .ne
  | .equal => some .eq
  | _ => none

def extractFilterFromExpr : Expression → Action Filter
  | .binaryOp left operator right =>
      match filterOpOf operator, left with
      | none, _ =>
          typeError ("unsupported operator " ++ operator.debug ++
            " in where() — supported: >, >=, <, <=, !=, ==")
      | some op, .identifier column => do
          return { column, op, value := ← eval right }
      | some _, _ =>
          typeError ("left side of where() filter must be a column identifier " ++
            "(e.g. total > 1000)")
  | other =>
      typeError ("unsupported expression in where() — use 'col > val' or " ++
        "'col: val' (got " ++ host.library.debugExpression other ++ ")")

def parseWhereArgs (arguments : List Argument) : Action (List Filter) :=
  arguments.mapM fun
    | .named column value => do
        return { column, op := .eq, value := ← eval value }
    | .positional expression => extractFilterFromExpr host expression

/-- The step of a pipeline stage, with its arguments evaluated. -/
def queryStepOf (name : String) (arguments : List Argument) :
    Option (Action QueryStep) :=
  match name with
  | "where" => some do return .where (← parseWhereArgs host arguments)
  | "join" => some (joinStepOf .inner)
  | "left_join" => some (joinStepOf .left)
  | "select" => some do return .select (← evaluateArgs arguments)
  | "order_by" => some do return .orderBy (← evaluateArgs arguments)
  | "limit" => some do return .limit (← evaluateArgs arguments)
  | "offset" => some do return .offset (← evaluateArgs arguments)
  | "like" => some do return .like (← evaluateArgs arguments)
  | "in" => some do return .in (← evaluateArgs arguments)
  | _ => none
where
  -- The table is checked before `on:` is evaluated, which happens a second time.
  joinStepOf (kind : JoinKind) : Action QueryStep := do
    let values ← evaluateArgs arguments
    let _ ← Action.ofExcept (firstString (← position)
      (joinName kind ++ " first argument must be a table name string") values)
    return .join kind values (← extractNamedStringArg arguments "on")

def applyUpdate (query : Query) (arguments : List Argument) : Action Value := do
  let values ← evaluateArgs arguments
  let data ← orTypeError ">> update(\x7b...\x7d) requires a map argument" values.head?
  let row ← valueToDbRow data
  requireDbEngine host
  let count ← Action.db (.queryUpdate query row)
  return .integer count.toInt64

def applyQueryTerminal (query : Query) (name : String) : Action Value := do
  requireDbEngine host
  match name with
  | "fetch" | "fetch_all" =>
      dbRowsToRuntimeValue host query.table (← Action.db (.queryFetch query))
  | "fetch_one" =>
      optionalRowToRuntimeValue host query.table (← Action.db (.queryFetchOne query))
  | "count" => return .integer (← Action.db (.queryCount query))
  | "exists" => return .boolean (← Action.db (.queryExists query))
  | "delete" =>
      let count ← Action.db (.queryDelete query)
      return .integer count.toInt64
  | _ =>
      typeError ("'" ++ name ++ "' is not a valid query terminal — use: fetch, " ++
        "fetch_one, count, exists, update(\x7b...\x7d), delete")

def applyQueryPipelineStage (query : Query) (stage : Expression) :
    Action Value :=
  match stage with
  | .functionCall "update" arguments => applyUpdate host query arguments
  | .functionCall name arguments =>
      match queryStepOf host name arguments with
      | some step => do
          let step ← step
          let next ← Action.ofExcept (applyQueryStep (← position) step query)
          return .queryBuilder next
      | none =>
          typeError ("unknown query pipeline step '" ++ name ++ "' — supported steps: " ++
            "where, like, in, join, left_join, select, order_by, limit, offset; " ++
            "terminals: fetch, fetch_one, count, exists, update, delete")
  | .identifier name => applyQueryTerminal host query name
  | other =>
      typeError ("expected a query pipeline step or terminal after QueryBuilder, got " ++
        host.library.debugExpression other)

/-- A relation to one record can be fetched or tested for existence. -/
def applySingularRelationStage (query : Query) (nullShortCircuit : Bool) :
    Expression → Action Value
  | .identifier "fetch" =>
      if nullShortCircuit then return .null
      else do
        requireDbEngine host
        optionalRowToRuntimeValue host query.table (← Action.db (.queryFetchOne query))
  | .identifier "exists" =>
      if nullShortCircuit then return .boolean false
      else do
        requireDbEngine host
        return .boolean (← Action.db (.queryExists query))
  | .identifier name =>
      typeError ("singular relation '" ++ name ++ "' only supports >> fetch and >> exists")
  | .functionCall name _ =>
      typeError ("singular relation does not support " ++ name ++
        "(); use >> fetch or >> exists")
  | other =>
      typeError ("expected >> fetch or >> exists after singular relation, got " ++
        host.library.debugExpression other)

def applyRelationPipelineStage (query : Query) (cardinality : RelationCardinality)
    (nullShortCircuit : Bool) (stage : Expression) : Action Value :=
  match cardinality with
  | .many => applyQueryPipelineStage host query stage
  | .one => applySingularRelationStage host query nullShortCircuit stage

/-! ## Document database -/

def askDoc (op : DocOp) : Action (Request.DocReply op) := do
  Action.ofExcept (← Action.ask (.doc op))

def valueToDocRow : Value → Action DbRow
  | .map entries => return entries
  | other => typeError ("expected Map for document data, got " ++ other.typeName)

def docRowsToValue (rows : List DbRow) : Value :=
  .list (rows.map .map)

def optionalDocRowToValue : Option DbRow → Value
  | some row => .map row
  | none => .null

def dispatchDocPipeline (values : List Value) : Action Value := do
  match values with
  | [.string collection, .list stages] => do
      stages.forM fun stage =>
        Action.ofExcept (host.library.translatePipelineStage stage)
      requireDocEngine host
      return docRowsToValue (← askDoc (.rawPipeline collection stages))
  | [.string _, _] =>
      typeError "doc.pipeline second argument must be a list of stage maps"
  | [_, _] =>
      typeError "doc.pipeline first argument must be a string (collection name)"
  | values =>
      typeError ("doc.pipeline expects 2 arguments (collection, stages), got " ++
        toString values.length)

def docUpdateById (collection : String) (arguments : List Argument) :
    Action Value := do
  let values ← evaluateArgs arguments
  let id ← orTypeError "doc.COLLECTION.update requires (id, partial_map) arguments"
    values.head?
  let data ← orTypeError "doc.COLLECTION.update requires a second map argument" values[1]?
  let row ← valueToDocRow data
  return .map (← askDoc (.updateById collection id row))

def docDeleteById (collection : String) (arguments : List Argument) :
    Action Value := do
  let values ← evaluateArgs arguments
  let id ← orTypeError "doc.COLLECTION.delete requires an id argument" values.head?
  return .boolean (← askDoc (.deleteById collection id))

def dispatchDocDirect (collection method : String) (arguments : List Argument) :
    Action Value := do
  requireDocEngine host
  match method with
  | "save" => do
      let values ← evaluateArgs arguments
      let data ← orTypeError "doc.COLLECTION.save requires a map argument" values.head?
      let row ← valueToDocRow data
      return .map (← askDoc (.save collection row))
  | "find" => do
      let values ← evaluateArgs arguments
      let id ← orTypeError "doc.COLLECTION.find requires an id argument" values.head?
      return optionalDocRowToValue (← askDoc (.find collection id))
  | "find_all" => return docRowsToValue (← askDoc (.findAll collection))
  | "update" | "update_by_id" => docUpdateById collection arguments
  | "delete" | "delete_by_id" => docDeleteById collection arguments
  | _ => propertyNotFound ("DocCollection(" ++ collection ++ ")") method

/-! ## Stages of a document query -/

def docFilterOf (operator : BinaryOperator) (field : String) (value : Value) :
    Option (DocFilter Value) :=
  match operator with
  | .greater => some (.gt field value)
  | .greaterEqual => some (.gte field value)
  | .less => some (.lt field value)
  | .lessEqual => some (.lte field value)
  | .notEqual => some (.ne field value)
  | .equal => some (.eq field value)
  | _ => none

def extractDocFilterFromExpr : Expression → Action (DocFilter Value)
  | .binaryOp (.stringLiteral field) operator right => do
      let value ← eval right
      orTypeError ("unsupported operator " ++ operator.debug ++ " in where()")
        (docFilterOf operator field value)
  | .binaryOp (.identifier _) _ _ =>
      typeError ("doc.* where() requires string field names — use " ++
        "where(\"field\" == value) not where(field == value). String field names " ++
        "support dot-notation paths like \"address.city\".")
  | .binaryOp _ _ _ =>
      typeError ("left side of doc where() filter must be a string field name, " ++
        "e.g. where(\"status\" == \"pending\")")
  | _ => typeError "unsupported expression in where()"

def parseDocWhereArgs (arguments : List Argument) :
    Action (List (DocFilter Value)) :=
  arguments.mapM fun
    | .named _ _ =>
        typeError ("doc.* where() requires string field names — use " ++
          "where(\"field\" == value) instead of named arguments")
    | .positional expression => extractDocFilterFromExpr expression

def stringArgument (message : String) : Option Value → Action String
  | some (.string text) => return text
  | _ => typeError message

def integerArgument (message : String) : Option Value → Action Int64
  | some (.integer value) => return value
  | _ => typeError message

def pickFields : List Value → Action (List String)
  | [] => return []
  | .string field :: rest => do return field :: (← pickFields rest)
  | _ :: _ => typeError "pick fields must be strings"

def sortDirection : Option Value → Action SortDirection
  | some (.string text) =>
      if host.library.toLowercase text = "desc" then return .desc
      else if host.library.toLowercase text = "asc" then return .asc
      else typeError "order direction must be \"asc\" or \"desc\""
  | some _ => typeError "order direction must be \"asc\" or \"desc\""
  | none =>
      typeError ("order requires a direction as second argument: " ++
        "order(\"field\", \"asc\") or order(\"field\", \"desc\")")

def writeAfterAggregation {α : Type} : Action α :=
  typeError "write terminals (update/upsert/delete) cannot follow aggregation steps"

/-- Field and label of an accumulator.  Other named arguments are not
evaluated. -/
def accumulatorArguments (step : String) (arguments : List Argument) :
    Action (Option String × Option String) :=
  arguments.foldlM
    (fun (field, label) argument =>
      match argument with
      | .positional expression => do
          let text ← stringArgument (step ++ "() field argument must be a string")
            (some (← eval expression))
          return (some text, label)
      | .named "as" expression => do
          let text ← stringArgument (step ++ "() 'as:' argument must be a string")
            (some (← eval expression))
          return (field, some text)
      | .named _ _ => return (field, label))
    (none, none)

def applyAccumulator (query : DocQuery) (step : String)
    (build : String → String → Accumulator) (arguments : List Argument) :
    Action Value := do
  let (field, label) ← accumulatorArguments step arguments
  let field ← orTypeError (step ++ "() requires a field name as first argument, e.g. " ++
    step ++ "(\"amount\", as: \"total\")") field
  let label ← orTypeError (step ++ "() requires a named 'as:' argument, e.g. " ++ step ++
    "(\"" ++ field ++ "\", as: \"alias\")") label
  return .docQueryBuilder
    { query with accumulators := query.accumulators ++ [build field label], mode := .aggregate }

/-- The last `as:` argument that is a string. -/
def countAlias (arguments : List Argument) : Action (Option String) :=
  arguments.foldlM
    (fun label argument =>
      match argument with
      | .named "as" expression => do
          match ← eval expression with
          | .string text => return some text
          | _ => return label
      | _ => return label) none

def Argument.isPositional : Argument → Bool
  | .positional _ => true
  | .named _ _ => false

def Argument.isAlias : Argument → Bool
  | .named "as" _ => true
  | _ => false

/-- `count` is an accumulator inside an aggregation or when it is given a
name. -/
def countAccumulates (query : DocQuery) (arguments : List Argument) : Bool :=
  query.isAggregate || query.groupBy.isSome || !query.accumulators.isEmpty ||
    arguments.any Argument.isAlias

def applyCountAccumulator (query : DocQuery) (arguments : List Argument) :
    Action Value := do
  if arguments.any Argument.isPositional then
    typeError "count() does not accept a field argument — use count(as: \"alias\")"
  else
    let label ← countAlias arguments
    let label ← orTypeError
      "count() requires a named 'as:' argument, e.g. count(as: \"total\")" label
    return .docQueryBuilder
      { query with accumulators := query.accumulators ++ [.count label], mode := .aggregate }

/-- `update` and `upsert` differ in their name and operation. -/
def applyDocWrite (query : DocQuery) (name : String)
    (send : DocQuery → DbRow → Action Int64) (arguments : List Argument) :
    Action Value := do
  if query.isAggregate then writeAfterAggregation
  else
    let values ← evaluateArgs arguments
    let data ← orTypeError
      (">> " ++ name ++ "(\x7b...\x7d) requires a map argument") values.head?
    let row ← valueToDocRow data
    requireDocEngine host
    return .integer (← send query row)

def applyDocQueryStep (query : DocQuery) (name : String)
    (arguments : List Argument) : Action Value := do
  match name with
  | "where" => do
      let filters ← parseDocWhereArgs arguments
      return .docQueryBuilder { query with filters := query.filters ++ filters }
  | "pick" =>
      if query.isAggregate then
        typeError ("pick() cannot be used in aggregation pipelines — use " ++
          "accumulator aliases directly")
      else do
        match (← evaluateArgs arguments).head? with
        | some (.list items) => do
            let fields ← pickFields items
            return .docQueryBuilder { query with projection := some fields }
        | _ => typeError "pick requires a list string field names"
  | "order" => do
      let values ← evaluateArgs arguments
      let field ← stringArgument ("order requires a string field name as first " ++
        "argument, e.g. order(\"created_at\", \"desc\")") values.head?
      let direction ← sortDirection host values[1]?
      if query.isAggregate then
        return .docQueryBuilder { query with postSort := some (field, direction) }
      else return .docQueryBuilder { query with sort := some (field, direction) }
  | "limit" => do
      let bound ← integerArgument "limit requires an integer argument"
        (← evaluateArgs arguments).head?
      if query.isAggregate then
        return .docQueryBuilder { query with postLimit := some bound }
      else return .docQueryBuilder { query with limit := some bound }
  | "offset" => do
      let bound ← integerArgument "offset requires an integer argument"
        (← evaluateArgs arguments).head?
      return .docQueryBuilder { query with offset := some bound }
  | "like" => do
      let values ← evaluateArgs arguments
      let field ← stringArgument "like requires a column name string" values.head?
      let pattern ← stringArgument "like requires a pattern string" values[1]?
      return .docQueryBuilder
        { query with filters := query.filters ++ [.like field pattern] }
  | "in" => do
      let values ← evaluateArgs arguments
      let field ← stringArgument "in requires a column name string" values.head?
      match (values[1]? : Option Value) with
      | some (.list items) =>
          return .docQueryBuilder
            { query with filters := query.filters ++ [.in field items] }
      | _ => typeError "in requires a list as second argument"
  | "group_by" =>
      if !query.accumulators.isEmpty then
        typeError ("group_by() must appear before accumulator steps " ++
          "(sum, avg, min, max, count)")
      else do
        let field ← stringArgument "group_by requires a string field name"
          (← evaluateArgs arguments).head?
        return .docQueryBuilder { query with groupBy := some field, mode := .aggregate }
  | "sum" => applyAccumulator query "sum" .sum arguments
  | "avg" => applyAccumulator query "avg" .avg arguments
  | "min" => applyAccumulator query "min" .min arguments
  | "max" => applyAccumulator query "max" .max arguments
  | "update" =>
      applyDocWrite host query "update"
        (fun query row => askDoc (.queryUpdate query row)) arguments
  | "upsert" =>
      applyDocWrite host query "upsert"
        (fun query row => askDoc (.queryUpsert query row)) arguments
  | _ =>
      if name = "count" ∧ countAccumulates query arguments then
        applyCountAccumulator query arguments
      else
        typeError ("unknown doc pipeline step '" ++ name ++ "' — supported: where, " ++
          "pick, order, limit, offset, like, in, group_by, sum, avg, min, max, count; " ++
          "terminals: fetch_all, fetch_one, count, exists, update(\x7b...\x7d), " ++
          "upsert(\x7b...\x7d), delete")

def applyDocQueryTerminal (query : DocQuery) (name : String) : Action Value := do
  requireDocEngine host
  match name with
  | "fetch_all" | "fetch" =>
      if query.isAggregate then
        return docRowsToValue (← askDoc (.queryAggregate query))
      else return docRowsToValue (← askDoc (.queryFetch query))
  | "fetch_one" =>
      if query.isAggregate then
        return optionalDocRowToValue (← askDoc (.queryAggregate query)).head?
      else return optionalDocRowToValue (← askDoc (.queryFetchOne query))
  | "count" => return .integer (← askDoc (.queryCount query))
  | "exists" => return .boolean (← askDoc (.queryExists query))
  | "delete" =>
      if query.isAggregate then writeAfterAggregation
      else return .integer (← askDoc (.queryDelete query))
  | _ =>
      typeError ("'" ++ name ++ "' is not a valid doc query terminal — use: " ++
        "fetch_all, fetch_one, count, exists, delete")

def applyDocQueryPipelineStage (query : DocQuery) (stage : Expression) :
    Action Value :=
  match stage with
  | .functionCall name arguments => applyDocQueryStep host query name arguments
  | .identifier name => applyDocQueryTerminal host query name
  | other =>
      typeError ("expected a doc query pipeline step or terminal, got " ++
        host.library.debugExpression other)

end Marreta
