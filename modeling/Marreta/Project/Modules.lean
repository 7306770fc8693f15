import Marreta.Foundation.Ensures
import Marreta.Foundation.Table
import Marreta.Runtime.Host

namespace Marreta

open Foundation

/-! The modules of a project.  Each file becomes one: its routes, consumers and
schemas, the statements it runs when the project starts, and the names it
publishes. -/

structure RouteDefinition where
  verb : HttpVerb
  path : String
  auth : Option RouteAuth
  allow : List Expression
  take : List TakeBinding
  body : List Statement
  line : Nat
  column : Nat
  sourceFile : Option String
  moduleId : Option String

inductive ConsumerKind where
  | queue | topic
deriving DecidableEq

structure ConsumerDefinition where
  kind : ConsumerKind
  target : Expression
  binding : String
  schema : Option String
  body : List Statement
  line : Nat
  column : Nat
  sourceFile : Option String
  moduleId : Option String

structure ModuleDefinition where
  id : String
  isEntrypoint : Bool
  startupStmts : List Statement
  publicSymbols : List String
  routes : List RouteDefinition
  consumers : List ConsumerDefinition
  authProviders : Table String AuthProvider
  privateSchemas : Schemas
  publicSchemas : Schemas

namespace AuthProvider

def name : AuthProvider → String
  | .jwt name _ | .apiKey name _ => name

end AuthProvider

/-- The part of a module id behind its last slash. -/
def namespaceFromModuleId (moduleId : String) : String :=
  String.ofList ((moduleId.toList.splitOn '/').getLast?.getD [])

namespace Statement

def declaredSymbolName : Statement → Option String
  | .taskDef name .. => some name
  | .schema name .. => some name
  | .assignment target .. => some target
  | .conditionalAssignment target .. => some target
  | _ => none

def isTaskDef : Statement → Bool
  | .taskDef .. => true
  | _ => false

/-! ## What a statement of a file declares -/

/-- A schema that every file sees: an exported one, or one of the entrypoint. -/
def publicSchema? (isEntrypoint : Bool) : Statement → Option (String × SchemaDefinition)
  | .export (.schema name dbTable fields _ _) => some (name, { dbTable, fields })
  | .schema name dbTable fields _ _ =>
      if isEntrypoint then some (name, { dbTable, fields }) else none
  | _ => none

def privateSchema? (isEntrypoint : Bool) : Statement → Option (String × SchemaDefinition)
  | .schema name dbTable fields _ _ =>
      if isEntrypoint then none else some (name, { dbTable, fields })
  | _ => none

def publicSymbol? (isEntrypoint : Bool) : Statement → Option String
  | .export statement => statement.declaredSymbolName
  | .route .. | .authProvider .. | .onQueue .. | .onTopic .. => none
  | statement => if isEntrypoint then statement.declaredSymbolName else none

def route? (moduleId : String) : Statement → Option RouteDefinition
  | .route verb path auth allow take body line column =>
      some
        { verb, path, auth, allow, take, body, line, column
          sourceFile := some (namespaceFromModuleId moduleId), moduleId := some moduleId }
  | _ => none

def consumer? (moduleId : String) : Statement → Option ConsumerDefinition
  | .onQueue target binding schemaName body line column =>
      some
        { kind := .queue, target, binding, schema := schemaName, body, line, column
          sourceFile := some (namespaceFromModuleId moduleId), moduleId := some moduleId }
  | .onTopic target binding schemaName body line column =>
      some
        { kind := .topic, target, binding, schema := schemaName, body, line, column
          sourceFile := some (namespaceFromModuleId moduleId), moduleId := some moduleId }
  | _ => none

/-- Whether a statement is run when the project starts. -/
def isStartup : Statement → Bool
  | .route .. | .authProvider .. | .onQueue .. | .onTopic .. => false
  | _ => true

end Statement

/-! ## Names -/

/-- The names taken so far: exported names with their file, and in the current
file the exported tasks and the auth providers. -/
structure TakenNames where
  exportedNames : Table String String
  exportedTasks : List String
  authProviders : Table String AuthProvider

namespace TakenNames

/-- An exported task is only compared with the tasks of its own file. -/
def addExport (names : TakenNames) (moduleId : String) (statement : Statement) :
    Except MarretaError TakenNames :=
  match statement.declaredSymbolName with
  | none => .ok names
  | some name =>
      if statement.isTaskDef then
        if name ∈ names.exportedTasks then
          .error (.runtimeError
            ("duplicate exported task '" ++ name ++ "' in '" ++ moduleId ++ ".marreta'") 0 0)
        else .ok { names with exportedTasks := name :: names.exportedTasks }
      else
        match names.exportedNames.lookup name with
        | some previous => .error (.exportConflict name previous moduleId)
        | none => .ok { names with exportedNames := names.exportedNames.put name moduleId }

def duplicateAuthProvider (name : String) : MarretaError :=
  .runtimeError ("duplicate auth provider '" ++ name ++ "'") 0 0

def addAuthProvider (names : TakenNames) (provider : AuthProvider) :
    Except MarretaError TakenNames :=
  if (names.authProviders.lookup provider.name).isSome then
    .error (duplicateAuthProvider provider.name)
  else .ok { names with authProviders := names.authProviders.put provider.name provider }

def addStatement (moduleId : String) (names : TakenNames) :
    Statement → Except MarretaError TakenNames
  | .export statement => names.addExport moduleId statement
  | .authProvider provider _ _ => names.addAuthProvider provider
  | _ => .ok names

end TakenNames

/-- The module of a file, and the exported names of all files so far. -/
def buildModuleDefinition (program : Program) (moduleId : String) (isEntrypoint : Bool)
    (exportedNames : Table String String) :
    Except MarretaError (ModuleDefinition × Table String String) := do
  let names ← program.foldlM (TakenNames.addStatement moduleId)
    { exportedNames, exportedTasks := [], authProviders := [] }
  return (
    { id := moduleId, isEntrypoint
      startupStmts := program.filter Statement.isStartup
      publicSymbols := (program.filterMap (Statement.publicSymbol? isEntrypoint)).eraseDups
      routes := program.filterMap (Statement.route? moduleId)
      consumers := program.filterMap (Statement.consumer? moduleId)
      authProviders := names.authProviders
      privateSchemas := Table.putAll [] (program.filterMap (Statement.privateSchema? isEntrypoint))
      publicSchemas := Table.putAll [] (program.filterMap (Statement.publicSchema? isEntrypoint)) },
    names.exportedNames)

end Marreta
