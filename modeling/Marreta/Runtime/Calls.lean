import Marreta.Foundation.Text
import Marreta.Runtime.Action
import Marreta.Syntax.Parser

namespace Marreta

open Foundation.Text (trim)
open Marreta.Action (eval exec block position typeError runtimeError wrongArity
  propertyNotFound orTypeError)

variable (host : Host)

/-! Schemas, arguments, task calls and expressions inside strings. -/

/-! ## Schemas -/

def schemaRegistryFor (moduleId : Option String) : Schemas :=
  match host.project with
  | some project => project.visibleSchemasFor moduleId
  | none => host.schemas.getD []

def resolveSchema (moduleId : Option String) (name : String) :
    Option SchemaDefinition :=
  match host.project with
  | some project =>
      project.resolveSchema moduleId name <|> project.persistentSchemas.lookup name
  | none => host.schemas.bind fun schemas => schemas.lookup name

/-- Records of a table get their `id` from the database. -/
def optionalId (schema : SchemaDefinition) : SchemaDefinition :=
  if schema.dbTable.isSome then
    { schema with
      fields := schema.fields.map fun field =>
        if field.name = "id" then { field with optional := true } else field }
  else schema

def constructorSchemaRegistry (moduleId : Option String) (name : String) :
    Schemas × Option SchemaDefinition :=
  let visible := schemaRegistryFor host moduleId
  let schemas :=
    match visible.lookup name, resolveSchema host moduleId name with
    | none, some schema => visible.insert name schema
    | _, _ => visible
  let schemas := schemas.map fun (name, schema) => (name, optionalId schema)
  (schemas, schemas.lookup name)

def resolveSchemaNameForTable (moduleId : Option String) (table : String) :
    Option String :=
  (host.project.bind fun project => project.persistentSchemas.forTable table) <|>
    (schemaRegistryFor host moduleId).forTable table

def validationErrorDetail : MarretaError → String
  | .httpResponse _ body _ _ _ => (host.library.jsonErrorField body).getD body
  | error => error.display

/-! ## Arguments -/

def Argument.value : Argument → Expression
  | .positional value => value
  | .named _ value => value

def evaluateArgs (arguments : List Argument) : Action (List Value) :=
  arguments.mapM fun argument => eval argument.value

structure CollectedArgs where
  positional : List Value
  named : List (String × Value)

/-- Evaluate arguments in order, the injected input standing first. -/
def collectNamedAndPositional (arguments : List Argument)
    (injected : Option Value) : Action CollectedArgs :=
  arguments.foldlM
    (fun collected argument => do
      let value ← eval argument.value
      match argument with
      | .positional _ =>
          return { collected with positional := collected.positional ++ [value] }
      | .named name _ =>
          return { collected with named := collected.named ++ [(name, value)] })
    { positional := injected.toList, named := [] }

def ensureNoNamedArgs (named : List (String × Value)) (method : String) :
    Action Unit :=
  match named with
  | [] => return ()
  | (name, _) :: _ =>
      typeError (method ++ "() does not accept named argument '" ++ name ++ "'")

/-- The first named argument of a name, when it is a string. -/
def extractNamedStringArg (arguments : List Argument) (key : String) :
    Action (Option String) :=
  match arguments.find? fun
    | .named name _ => name = key
    | .positional _ => false with
  | none => return none
  | some argument => do
      match ← eval argument.value with
      | .string text => return some text
      | other =>
          typeError ("'" ++ key ++ ":' argument must be a string, got " ++ other.typeName)

/-! ## Tasks -/

/-- Check an argument of a task against the schema of its parameter. -/
def coerceArgument (task : TaskValue) (schemas : Schemas) (param : ParamDef)
    (argument : Value) : Action Value :=
  match param.schema with
  | none => return argument
  | some schemaName =>
      match schemas.lookup schemaName with
      | none =>
          typeError ("task '" ++ task.name ++ "' argument '" ++ param.name ++
            "' references unknown schema '" ++ schemaName ++ "'")
      | some schema =>
          match host.library.coercePayload argument schema schemas with
          | .ok coerced => return coerced
          | .error error =>
              typeError ("task '" ++ task.name ++ "' argument '" ++ param.name ++
                "' does not match schema '" ++ schemaName ++ "': " ++
                validationErrorDetail host error)

def coerceArguments (task : TaskValue) (schemas : Schemas) :
    List (ParamDef × Value) → Action (List (String × Value))
  | [] => return []
  | (param, argument) :: rest => do
      let value ← coerceArgument host task schemas param argument
      let bindings ← coerceArguments task schemas rest
      return (param.name, value) :: bindings

def runBody : TaskBody → Action Value
  | .inline value => eval value
  | .block statements result => do
      block statements
      eval result

def taskEntry (task : TaskValue) (bindings : List (String × Value)) : TaskEntry :=
  { frame :=
      { label := .task task.name, sourceModule := task.sourceModule
        line := some task.line, column := some task.column }
    bindings }

/-- The module a call of this task switches to. -/
def crossesInto (task : TaskValue) (currentModule : Option String) : Option String :=
  task.ownerModule.filter fun owner => currentModule ≠ some owner

def callTaskValue (callee : Value) (arguments : List Value) (callName : String) :
    Action Value := do
  match callee with
  | .task task =>
      if task.params.length ≠ arguments.length then
        wrongArity task.name task.params.length arguments.length
      else
        let currentModule ← Action.reads (·.currentModule)
        let schemas := schemaRegistryFor host (task.ownerModule <|> currentModule)
        let bindings ← coerceArguments host task schemas (task.params.zip arguments)
        let callDepth ← Action.reads (·.callDepth)
        if host.maxRecursionDepth ≤ callDepth then
          runtimeError "maximum recursion depth exceeded"
        else
          match crossesInto task currentModule with
          | some owner =>
              .fork owner (host.project.map fun project => project.envForModule (some owner))
                (taskEntry task bindings) (runBody task.body)
          | none => .task (taskEntry task bindings) (runBody task.body)
  | _ => do
      let position ← position
      .raise (.notCallable callName position.line position.column)

/-! ## Built-in functions -/

/-- A map or a list is sent as it is, anything else inside an `error` object. -/
def failureBody (message : Value) : String :=
  match message with
  | .map _ | .list _ => host.library.valueToJsonString message
  | _ => "\x7b\"error\":" ++ host.library.jsonString (host.library.display message) ++ "\x7d"

def failExpression (arguments : List Value) : Action Value :=
  let statusCode : UInt16 :=
    match arguments.head? with
    | some (.integer value) => value.toUInt64.toUInt16
    | _ => 500
  .stop (.failExpression statusCode
    (failureBody host ((arguments.drop 1).head?.getD .null)))

def print (arguments : List Value) : Action Value := do
  let line := String.intercalate " " (arguments.map host.library.display)
  match ← Action.ask (.writeLine line) with
  | .ok _ => return .null
  | .error _ => .abort .library

def builtinDecimal : List Value → Action Value
  | [.decimal value] => return .decimal value
  | [.integer value] => return .decimal (host.library.decimalOfInteger value)
  | [.string text] =>
      if text.toList.any fun char => char = 'e' || char = 'E' then
        typeError "decimal() rejects scientific notation; use a plain decimal string"
      else
        match host.library.parseDecimal text with
        | some value => return .decimal value
        | none => typeError "decimal() requires a plain decimal string or Integer"
  | [other] =>
      typeError ("decimal() requires String or Integer, got " ++ other.typeName)
  | arguments => wrongArity "decimal" 1 arguments.length

def builtinLen : List Value → Action Value
  | [.string text] => return .integer (Int64.ofNat text.utf8ByteSize)
  | [.list items] => return .integer (Int64.ofNat items.length)
  | [.map entries] => return .integer (Int64.ofNat entries.length)
  | [other] => typeError ("len() not supported for " ++ other.typeName)
  | arguments => wrongArity "len" 1 arguments.length

def rangeList (first last : Int64) : Value :=
  .list ((List.range (last.toInt - first.toInt + 1).toNat).map fun index =>
    .integer (Int64.ofInt (first.toInt + index)))

def builtinRange : List Value → Action Value
  | [.integer last] => return rangeList 1 last
  | [.integer first, .integer last] => return rangeList first last
  | [single] =>
      typeError ("range() expects Integer arguments, got " ++ single.typeName)
  | [first, second] =>
      typeError ("range() expects Integer arguments, got " ++ first.typeName ++
        " and " ++ second.typeName)
  | arguments => wrongArity "range" 1 arguments.length

def builtinType : List Value → Action Value
  | [value] => return .string value.typeName
  | arguments => wrongArity "type" 1 arguments.length

def builtinFunction (name : String) (arguments : List Value) :
    Option (Action Value) :=
  match name with
  | "__fail__" => some (failExpression host arguments)
  | "print" => some (print host arguments)
  | "type" => some (builtinType arguments)
  | "decimal" => some (builtinDecimal host arguments)
  | "len" => some (builtinLen arguments)
  | "range" => some (builtinRange arguments)
  | _ => none

def callFunction (name : String) (arguments : List Value) : Action Value :=
  match builtinFunction host name arguments with
  | some result => result
  | none => do
      match ← Action.reads fun state => state.env.get name with
      | some callee => callTaskValue host callee arguments name
      | none => do
          let position ← position
          .raise (.undefinedTask name position.line position.column)

/-! ## Expressions inside strings -/

inductive TemplatePart where
  | char (char : Char)
  | code (source : List Char)
deriving DecidableEq

/-- Where a template is being read: outside, or inside an expression with the
number of open braces and the text so far, newest character first. -/
abbrev TemplateMode := Option (Nat × List Char)

def templateParts : TemplateMode → List Char → List TemplatePart
  | none, [] => []
  | none, '#' :: '{' :: rest => templateParts (some (1, [])) rest
  | none, char :: rest => .char char :: templateParts none rest
  | some (_, code), [] => [.code code.reverse]
  | some (depth, code), '{' :: rest =>
      templateParts (some (depth + 1, '{' :: code)) rest
  | some (depth, code), '}' :: rest =>
      if depth = 1 then .code code.reverse :: templateParts none rest
      else templateParts (some (depth - 1, '}' :: code)) rest
  | some (depth, code), char :: rest =>
      templateParts (some (depth, char :: code)) rest

def hasTemplate : List Char → Bool
  | '#' :: '{' :: _ => true
  | _ :: rest => hasTemplate rest
  | [] => false

/-- The expression in a text, read as the right side of an assignment. -/
def sourceExpression (source : List Char) : Except Fault (Option Expression) := do
  let program ← parseSource ("__nq_param = ".toList ++ source)
  match program with
  | .assignment _ value _ _ :: _ => .ok (some value)
  | _ => .ok none

def evaluateSourceExpression (source : List Char) : Action Value :=
  let quoted := "#\x7b" ++ String.ofList source ++ "\x7d"
  match sourceExpression source with
  | .ok (some value) => eval value
  | .ok none =>
      typeError ("could not parse expression in native_query " ++ quoted)
  | .error (.error error) =>
      typeError ("invalid expression in native_query " ++ quoted ++ ": " ++ error.display)
  | .error (.panic _) => .abort .lexer
  | .error .exhausted => .abort .exhausted

/-- An expression that fails is shown as null. -/
def interpolatePart : TemplatePart → Action String
  | .char char => return char.toString
  | .code source => do
      match ← Action.attempt (evaluateSourceExpression (trim source)) with
      | .ok value => return host.library.display value
      | .error _ => return host.library.display .null

def interpolateString (text : String) : Action Value :=
  if hasTemplate text.toList then do
    let parts ← (templateParts none text.toList).mapM (interpolatePart host)
    return .string (String.join parts)
  else return .string text

end Marreta
