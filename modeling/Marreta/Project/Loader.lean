import Marreta.Project.AuthContract
import Marreta.Project.PersistentSchema
import Marreta.Project.SchemaCycle
import Marreta.Runtime.Evaluate

namespace Marreta

open Foundation

/-! Loading a project.  Every file is parsed and merged in the order of the
paths, the entrypoint last; the merged declarations are checked; then the
startup statements of each file are run. -/

/-- A file of a project.  Its id is the path below the root without extension. -/
structure SourceFile where
  path : String
  moduleId : String
  source : List Char

/-- The files of a project, as they were found.  Different files have different
ids. -/
structure ProjectFiles where
  files : List SourceFile
  entrypoint : SourceFile
  distinct : ((files ++ [entrypoint]).map (·.moduleId)).Nodup

namespace ProjectFiles

/-- All files in the order they are loaded, each with whether it is the
entrypoint. -/
def all (project : ProjectFiles) : List (SourceFile × Bool) :=
  project.files.map (·, false) ++ [(project.entrypoint, true)]

end ProjectFiles

/-- What loading relies on: the engine that runs the startup statements, without
project and drivers, the depth of its recursion, and the check of the auth
providers, which reads environment variables and key files. -/
structure LoadContext where
  host : Host
  depth : Nat
  buildAuthRegistry : Table String AuthProvider → Except MarretaError Unit

/-! ## The entrypoint -/

/-- The version of the runtime. -/
def marretaVersion : String := "0.2.0"

def parseNumber (text : List Char) : Option Nat :=
  let digits : List Char := match text with
    | '+' :: rest => rest
    | text => text
  let value := digits.foldl (fun value digit => 10 * value + (digit.toNat - '0'.toNat)) 0
  if digits ≠ [] ∧ digits.all Char.isDigit ∧ value < 2 ^ 64 then some value else none

def parseVersion (text : List Char) : Option (Nat × Nat × Nat) :=
  match text.splitOn '.' with
  | [major, minor, patch] => do
      return (← parseNumber major, ← parseNumber minor, ← parseNumber patch)
  | _ => none

/-- `>=MAJOR.MINOR.PATCH`, with at most one space after the sign. -/
def parseRequiresMarreta (value : List Char) : Option (Nat × Nat × Nat) :=
  match Text.trim value with
  | '>' :: '=' :: afterOp =>
      let version := match afterOp with
        | ' ' :: rest => rest
        | rest => rest
      if version.any Text.isWhitespace then none else parseVersion version
  | _ => none

def versionBefore : Nat × Nat × Nat → Nat × Nat × Nat → Bool
  | (major, minor, patch), (major', minor', patch') =>
      major < major' ∨ major = major' ∧ (minor < minor' ∨ minor = minor' ∧ patch < patch')

def checkRuntimeCompatibility (requirement : String) : Except MarretaError Unit :=
  match parseRequiresMarreta requirement.toList, parseVersion marretaVersion.toList with
  | some minimum, some actual =>
      if versionBefore actual minimum then
        .error (.incompatibleRuntime (String.ofList (Text.trim requirement.toList))
          marretaVersion)
      else .ok ()
  | _, _ =>
      .error (.ioError ("invalid 'requires_marreta' value '" ++ requirement ++
        "': expected a minimum like \">=0.2.0\""))

/-- The last text assigned to a name on the top level. -/
def assignedText (program : Program) (name : String) : Option String :=
  program.foldl
    (fun found statement =>
      match statement with
      | .assignment target (.stringLiteral value) _ _ => if target = name then some value else found
      | _ => found)
    none

/-- Whether a name is assigned something that is no text. -/
def assignsNonText (program : Program) (name : String) : Bool :=
  program.any fun
    | .assignment _ (.stringLiteral _) _ _ => false
    | .assignment target _ _ _ => target = name
    | _ => false

def validateEntrypointMetadata (path : String) (program : Program) : Except MarretaError Unit :=
  let invalid (message : String) : Except MarretaError Unit :=
    .error (.ioError ("invalid project entrypoint '" ++ path ++ "': " ++ message))
  if (assignedText program "project_name").isNone then
    invalid "missing required string assignment 'project_name'"
  else if (assignedText program "project_version").isNone then
    invalid "missing required string assignment 'project_version'"
  else if assignsNonText program "requires_marreta" then
    invalid "'requires_marreta' must be a string like \">=0.2.0\""
  else
    match assignedText program "requires_marreta" with
    | some requirement => checkRuntimeCompatibility requirement
    | none => .ok ()

/-! ## Routes -/

/-- The path of a route with every parameter written as `:*`. -/
def pathPattern (path : String) : List Char :=
  List.intercalate ['/'] ((path.toList.splitOn '/').map fun segment =>
    if segment.head? = some ':' then [':', '*'] else segment)

def checkRouteConflict (routes : List RouteDefinition) (route : RouteDefinition) :
    Except MarretaError Unit :=
  match routes.find? fun existing =>
    existing.verb = route.verb && pathPattern existing.path = pathPattern route.path with
  | some existing =>
      .error (.routeConflict route.verb.display existing.path route.path route.line route.column)
  | none => .ok ()

/-! ## Merging modules -/

structure MergedModules where
  modules : List ModuleDefinition
  routes : List RouteDefinition
  consumers : List ConsumerDefinition
  authProviders : Table String AuthProvider
  /-- The schemas that every file sees. -/
  publicSchemas : Schemas
  /-- The schemas of all files, public and private, by their bare names. -/
  allSchemas : Schemas
  exportedNames : Table String String

namespace MergedModules

def empty : MergedModules :=
  { modules := [], routes := [], consumers := [], authProviders := [], publicSchemas := []
    allSchemas := [], exportedNames := [] }

def addAuthProvider (providers : Table String AuthProvider)
    (entry : String × AuthProvider) : Except MarretaError (Table String AuthProvider) :=
  if (providers.lookup entry.1).isSome then .error (TakenNames.duplicateAuthProvider entry.1)
  else .ok (providers.put entry.1 entry.2)

/-- The routes of a module are compared with those of the modules before it. -/
def addModule (merged : MergedModules) (module : ModuleDefinition)
    (exportedNames : Table String String) : Except MarretaError MergedModules := do
  module.routes.forM (checkRouteConflict merged.routes)
  let authProviders ← module.authProviders.foldlM addAuthProvider merged.authProviders
  return {
    modules := merged.modules ++ [module]
    routes := merged.routes ++ module.routes
    consumers := merged.consumers ++ module.consumers
    authProviders
    publicSchemas := Table.putAll merged.publicSchemas module.publicSchemas
    allSchemas :=
      Table.putAll (Table.putAll merged.allSchemas module.publicSchemas) module.privateSchemas
    exportedNames }

def addFile (merged : MergedModules) (entry : SourceFile × Bool) : Except Fault MergedModules := do
  let (file, isEntrypoint) := entry
  let program ← parseSource file.source
  Except.mapError Stop.error do
    (if isEntrypoint then validateEntrypointMetadata file.path program else .ok ())
    let (module, exportedNames) ←
      buildModuleDefinition program file.moduleId isEntrypoint merged.exportedNames
    merged.addModule module exportedNames

end MergedModules

/-! ## Checks of the merged schemas -/

def isPascalCaseSchemaName (name : String) : Bool :=
  match name.toList with
  | [] => false
  | first :: rest => first.isUpper && (first :: rest).all Char.isAlphanum

def validateSchemaNaming (schemas : Schemas) : Except MarretaError Unit :=
  schemas.forM fun (schemaName, _) =>
    if isPascalCaseSchemaName schemaName then .ok ()
    else .error (.invalidSchemaDefinition schemaName "schema names must use PascalCase")

namespace SchemaType

/-- The schemas a field type refers to. -/
def references : SchemaType → List String
  | .reference name => [name]
  | .typedList element => element.references
  | _ => []

end SchemaType

namespace SchemaDefinition

def references (schema : SchemaDefinition) : List String :=
  schema.fields.flatMap fun field => field.fieldType.references

end SchemaDefinition

namespace Schemas

def references (schemas : Schemas) : References :=
  schemas.map fun (name, schema) => (name, schema.references)

def persistentNames (schemas : Schemas) : List String :=
  (collectPersistentSchemas schemas).map Prod.fst

end Schemas

def detectSchemaCycle (schemas : Schemas) : Except MarretaError Unit :=
  match schemas.references.findDisallowedCycle schemas.persistentNames with
  | some cycle => .error (.circularSchemaReference (String.intercalate " → " cycle))
  | none => .ok ()

namespace SchemaType

def isScalar : SchemaType → Bool
  | .stringType | .integerType | .floatType | .decimalType | .booleanType | .instantType
  | .dateType | .timeType | .durationType | .intervalType | .enumType _ => true
  | .listType | .mapType | .reference _ | .typedList _ => false

/-- A type that a text of a query or a header can stand for. -/
def isFlat : SchemaType → Bool
  | .listType => true
  | .typedList element => element.isScalar
  | type => type.isScalar

end SchemaType

/-- The first field that query and headers cannot carry. -/
def firstNonFlatField (schema : SchemaDefinition) : Option String :=
  (schema.fields.find? fun field => !field.fieldType.isFlat).map (·.name)

def validateTakeBinding (schemas : Schemas) (binding : TakeBinding) : Except MarretaError Unit :=
  match binding.schema with
  | none => .ok ()
  | some schemaName =>
      let notBound (take : String) : Except MarretaError Unit :=
        .error (.invalidSchemaDefinition schemaName
          ("a schema cannot be bound to a `" ++ take ++
            "` take; schema binding is for payload, query, and headers"))
      let flat (location : String) : Except MarretaError Unit :=
        match (schemas.lookup schemaName).bind firstNonFlatField with
        | some field =>
            .error (.invalidSchemaDefinition schemaName
              ("schema bound to " ++ location ++ " must be flat: field '" ++ field ++
                "' is a nested object or schema reference; " ++ location ++
                " parameters cannot carry nested objects"))
        | none => .ok ()
      match binding.kind with
      | .raw => notBound "raw"
      | .form => notBound "form"
      | .query => flat "query"
      | .headers => flat "headers"
      | .payload => .ok ()

def validateTakeInputSchemas (routes : List RouteDefinition) (schemas : Schemas) :
    Except MarretaError Unit :=
  routes.forM fun route => route.take.forM (validateTakeBinding schemas)

/-- The checks of the merged declarations, in order. -/
def MergedModules.check (context : LoadContext) (merged : MergedModules) :
    Except MarretaError Unit := do
  validateSchemaNaming merged.allSchemas
  detectSchemaCycle merged.allSchemas
  validatePersistentSchemaReferences merged.allSchemas
  validateTakeInputSchemas merged.routes merged.allSchemas
  validateAuthContract merged.routes merged.authProviders
  context.buildAuthRegistry merged.authProviders

/-! ## The runtime -/

/-- Names of namespaces that no file may take. -/
def isReservedNamespace (stem : String) : Bool :=
  stem ∈ ["app", "db", "doc", "cache", "queue", "topic", "http_client", "time", "math", "uuid",
    "feature", "json", "base64", "fs", "log"]

def isNamespaceIdentifier : List Char → Bool
  | [] => false
  | first :: rest =>
      (first.isAlpha || first = '_') && rest.all fun char => char.isAlphanum || char = '_'

def validateNamespaceStem (stem moduleId : String) : Except MarretaError Unit :=
  let exportsTasks := "file '" ++ moduleId ++ ".marreta' exports tasks but its name '" ++ stem
  if isReservedNamespace stem then
    .error (.runtimeError (exportsTasks ++ "' is a reserved namespace; rename the file") 0 0)
  else if !isNamespaceIdentifier stem.toList then
    let hint := stem.map fun char => if char.isAlphanum then char else '_'
    .error (.runtimeError
      (exportsTasks ++ "' is not a valid namespace identifier; rename it (e.g. '" ++ hint ++ "')")
      0 0)
  else .ok ()

/-- What running the modules one after another has built so far. -/
structure RuntimeDraft where
  globalEnv : Environment
  modules : Table String ModuleRuntime
  taskNamespaces : Table String (List (String × Value))
  namespaceOwner : Table String String

namespace RuntimeDraft

def empty : RuntimeDraft :=
  { globalEnv := .new, modules := [], taskNamespaces := [], namespaceOwner := [] }

/-- The published names of a module with their values. -/
def publicValues (module : ModuleDefinition) (env : Environment) : List (String × Value) :=
  module.publicSymbols.filterMap fun name => (env.get name).map (name, ·)

/-- Exported tasks of a file other than the entrypoint become a namespace. -/
def inNamespace (module : ModuleDefinition) (entry : String × Value) : Bool :=
  !module.isEntrypoint && entry.2.isTask

def addNamespace (draft : RuntimeDraft) (moduleId : String) (tasks : List (String × Value)) :
    Except MarretaError RuntimeDraft :=
  let stem := namespaceFromModuleId moduleId
  if tasks.isEmpty then .ok draft
  else do
    validateNamespaceStem stem moduleId
    match draft.namespaceOwner.lookup stem with
    | some previous =>
        .error (.runtimeError
          ("namespace '" ++ stem ++ "' is exported by two files ('" ++ previous ++ "' and '" ++
            moduleId ++ "') — rename one") 0 0)
    | none =>
        .ok { draft with
          namespaceOwner := draft.namespaceOwner.put stem moduleId
          taskNamespaces := draft.taskNamespaces.put stem tasks }

/-- The schemas a module sees: the public ones of all files and its own. -/
def visibleSchemas (publicSchemas : Schemas) (module : ModuleDefinition) : Schemas :=
  Table.putAll (Table.putAll publicSchemas module.privateSchemas) module.publicSchemas

def addModule (context : LoadContext) (publicSchemas : Schemas) (draft : RuntimeDraft)
    (module : ModuleDefinition) : Except Fault RuntimeDraft := do
  let start := Interpreter.new draft.globalEnv (some module.id)
  let (result, after) :=
    runAction context.host context.depth (Action.block module.startupStmts) start
  result
  let published := publicValues module after.env
  let globals := published.filter fun entry => !inNamespace module entry
  let globalEnv := globals.foldl (fun env entry => env.update entry.1 entry.2) draft.globalEnv
  let draft ← Except.mapError Stop.error
    (addNamespace { draft with globalEnv } module.id (published.filter (inNamespace module)))
  return { draft with
    modules := draft.modules.put module.id
      { env := after.env, visibleSchemas := visibleSchemas publicSchemas module } }

end RuntimeDraft

/-- Bindings of all scopes and of the base, inner ones shadowing outer ones. -/
def Environment.allVariables (env : Environment) : ValueMap :=
  env.base.foldl
    (fun seen entry => if (seen.get? entry.1).isSome then seen else seen ++ [entry])
    env.localVariables

/-- Names published by any file are defined where nothing else has the name. -/
def injectGlobals (globals : ValueMap) (module : ModuleRuntime) : ModuleRuntime :=
  { module with
    env := globals.foldl
      (fun env entry => if env.has entry.1 then env else env.set entry.1 entry.2) module.env }

def buildProjectRuntime (context : LoadContext) (modules : List ModuleDefinition)
    (publicSchemas persistentSchemas : Schemas) : Except Fault ProjectRuntime := do
  let draft ← modules.foldlM (RuntimeDraft.addModule context publicSchemas) .empty
  let globals := draft.globalEnv.allVariables
  return {
    globalEnv := draft.globalEnv
    modules := draft.modules.map fun entry => (entry.1, injectGlobals globals entry.2)
    publicSchemas
    persistentSchemas
    featureFlags := context.host.featureFlags
    taskNamespaces := draft.taskNamespaces
    dbColumns := buildDbColumnIndex persistentSchemas }

/-! ## Projects -/

structure LoadedProject where
  routes : List RouteDefinition
  consumers : List ConsumerDefinition
  schemas : Schemas
  authProviders : Table String AuthProvider
  runtime : ProjectRuntime

def mergeFiles (project : ProjectFiles) : Except Fault MergedModules :=
  project.all.foldlM MergedModules.addFile .empty

def loadProject (context : LoadContext) (project : ProjectFiles) :
    Except Fault LoadedProject := do
  let merged ← mergeFiles project
  Except.mapError Stop.error (merged.check context)
  let runtime ← buildProjectRuntime context merged.modules merged.publicSchemas
    (collectPersistentSchemas merged.allSchemas)
  return {
    routes := merged.routes
    consumers := merged.consumers
    schemas := merged.publicSchemas
    authProviders := merged.authProviders
    runtime }

/-! ## A context for examples -/

/-- An engine without drivers, and no auth provider to check. -/
def plainContext : LoadContext where
  host := { emptyHost with hasDb := false }
  depth := 20
  buildAuthRegistry _ := .ok ()

/-- An entrypoint with the two names every project has. -/
def namedEntrypoint (source : String) : SourceFile where
  path := "app.marreta"
  moduleId := "app"
  source := ("project_name = \"shop\"\nproject_version = \"1.0.0\"\n" ++ source).toList

/-! A project of literals is evaluated over the characters of its sources, which takes
less time than reading them from the literals. -/

theorem toList_append_spelled {first second : String} {chars others : List Char}
    (spelled : first.toList = chars) (otherSpelled : second.toList = others) :
    (first ++ second).toList = chars ++ others := by
  rw [String.toList_append, spelled, otherSpelled]

namespace ProjectFiles

/-- The same files with other sources. -/
def withSources (project : ProjectFiles) (sources : List (List Char)) (source : List Char) :
    ProjectFiles where
  files := project.files.zipWith (fun file source => { file with source }) sources
  entrypoint := { project.entrypoint with source }
  distinct := by
    refine project.distinct.sublist ?_
    rw [List.map_append, List.map_append]
    apply List.Sublist.append_right
    generalize project.files = files
    induction files generalizing sources with
    | nil => simp
    | cons file files induction =>
        cases sources with
        | nil => simp
        | cons source sources => exact (induction sources).cons_cons file.moduleId

theorem withSources_eq {project : ProjectFiles} {sources : List (List Char)}
    {source : List Char}
    (files : List.Forall₂ (fun file source => file.source = source) project.files sources)
    (entrypoint : project.entrypoint.source = source) :
    project.withSources sources source = project := by
  have same : ∀ {files : List SourceFile} {sources : List (List Char)},
      List.Forall₂ (fun file source => file.source = source) files sources →
        files.zipWith (fun file source => { file with source }) sources = files := by
    intro files sources spelled
    induction spelled with
    | nil => rfl
    | cons head _ induction => rw [List.zipWith_cons_cons, induction, ← head]
  subst entrypoint
  unfold withSources
  congr
  exact same files

/-- A project loads if it does with its sources written out, and is seen the same. -/
theorem exists_loaded {context : LoadContext} {project : ProjectFiles} {α : Type}
    {view : ProjectFiles → LoadedProject → α} {seen : α} {sources : List (List Char)}
    {source : List Char}
    (files : List.Forall₂ (fun file source => file.source = source) project.files sources)
    (entrypoint : project.entrypoint.source = source)
    (evaluates : (loadProject context (project.withSources sources source)).toOption.map
      (view (project.withSources sources source)) = some seen) :
    ∃ loaded, loadProject context project = .ok loaded ∧ view project loaded = seen := by
  rw [withSources_eq files entrypoint] at evaluates
  cases loads : loadProject context project with
  | error fault =>
      rw [loads] at evaluates
      cases evaluates
  | ok loaded =>
      rw [loads] at evaluates
      exact ⟨loaded, rfl, Option.some.inj evaluates⟩

end ProjectFiles

end Marreta
