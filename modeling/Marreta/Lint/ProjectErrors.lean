import Marreta.Project.SchemaChecks
import Marreta.Syntax.Exports

namespace Marreta

open Foundation

/-! The project errors of the linter.

`marreta lint` repeats three checks of the loader over the parsed files: duplicate
routes, cycles of schemas and schemas that query and headers cannot carry.  Its files
come in the order of their paths, the entrypoint among them.  A comment in the source
can silence a diagnostic on its line. -/

namespace Lint

/-- A diagnostic of severity error. -/
structure LintDiagnostic where
  path : String
  line : Nat
  column : Nat
  code : String
  message : String
  help : Option String
deriving DecidableEq

/-! ## Silenced lines -/

/-- Where the comment of a line starts, not counting signs inside a text. -/
def commentStart (inString : Bool) : List Char → Option (List Char)
  | [] => none
  | '\\' :: rest =>
      if inString then
        match rest with
        | [] => none
        | _ :: rest => commentStart inString rest
      else commentStart inString rest
  | '"' :: rest => commentStart (!inString) rest
  | '#' :: rest => if inString then commentStart inString rest else some rest
  | _ :: rest => commentStart inString rest

def stripWord (word text : List Char) : Option (List Char) :=
  if word.isPrefixOf text then some (text.drop word.length) else none

/-- The codes of a directive `# marreta: allow <code> [<code> ...]`. -/
def parseAllowDirective (line : List Char) : Option (List String) := do
  let comment ← commentStart false line
  let directive ← stripWord "marreta:".toList (Text.trimStart comment)
  let rest ← stripWord "allow".toList (Text.trimStart directive)
  let bounded := match rest with
    | [] => true
    | next :: _ => Text.isWhitespace next
  if !bounded then none
  else
    let codes := Text.words (rest.map fun char => if char = ',' then ' ' else char)
    if codes.isEmpty then none else some (codes.map String.ofList)

/-- The codes that each line silences.  A comment line silences the line below. -/
def parseSuppressions (source : List Char) : List (Nat × List String) :=
  (Text.lines source).zipIdx.filterMap fun (raw, index) =>
    (parseAllowDirective raw).map fun codes =>
      (if (Text.trimStart raw).head? = some '#' then index + 2 else index + 1, codes)

/-- The last file of a path counts. -/
def isSuppressed (files : List SourceFile) (diagnostic : LintDiagnostic) : Bool :=
  match (files.filter fun file => file.path = diagnostic.path).getLast? with
  | none => false
  | some file =>
      (parseSuppressions file.source).any fun (line, codes) =>
        line = diagnostic.line && codes.contains diagnostic.code

/-! ## Duplicate routes -/

structure LintRoute where
  file : String
  verb : HttpVerb
  path : String
  line : Nat
  column : Nat
deriving DecidableEq

def lintRoute? (file : String) : Statement → Option LintRoute
  | .route verb path _ _ _ _ line column => some { file, verb, path, line, column }
  | .export statement => lintRoute? file statement
  | _ => none

def lintRoutes (files : List SourceFile) : List LintRoute :=
  files.flatMap fun file => file.program.filterMap (lintRoute? file.path)

def duplicateRoute (route : LintRoute) : LintDiagnostic where
  path := route.file
  line := route.line
  column := route.column
  code := "duplicate_route"
  message := "duplicate route " ++ route.verb.display ++ " " ++ route.path
  help := some "Remove one route or change its method/path."

/-- Routes are compared by their verbs and their paths as they are written. -/
def lintDuplicateRoutes (seen : List (HttpVerb × String)) : List LintRoute → List LintDiagnostic
  | [] => []
  | route :: routes =>
      if (route.verb, route.path) ∈ seen then
        duplicateRoute route :: lintDuplicateRoutes seen routes
      else lintDuplicateRoutes ((route.verb, route.path) :: seen) routes

/-! ## Cycles -/

/-- A schema as the linter collects it. -/
structure LintSchema where
  file : String
  definition : SchemaDefinition
  line : Nat
  column : Nat
deriving DecidableEq

def lintSchema? (file : String) : Statement → Option (String × LintSchema)
  | .schema name dbTable fields line column =>
      some (name, { file, definition := { dbTable, fields }, line, column })
  | .export statement => lintSchema? file statement
  | _ => none

/-- All schema declarations, in the order of the files. -/
def lintSchemas (files : List SourceFile) : List (String × LintSchema) :=
  files.flatMap fun file => file.program.filterMap (lintSchema? file.path)

/-- The last declaration of each name counts. -/
def schemaTable (files : List SourceFile) : Table String LintSchema :=
  Table.putAll [] (lintSchemas files)

def schemaRefs (files : List SourceFile) : References :=
  (schemaTable files).map fun (name, schema) => (name, schema.definition.references)

/-- A name counts as persistent when any of its declarations is. -/
def persistentNames (files : List SourceFile) : List String :=
  ((lintSchemas files).filter fun (_, schema) => schema.definition.dbTable.isSome).map (·.1)

def circularSchema (cycle : List String) (schema : LintSchema) : LintDiagnostic where
  path := schema.file
  line := schema.line
  column := schema.column
  code := "source_load_error"
  message := "circular schema reference: " ++ String.intercalate " -> " cycle
  help := some "Break the schema reference cycle."

def lintSchemaCycles (files : List SourceFile) : List LintDiagnostic :=
  match (schemaRefs files).findDisallowedCycle (persistentNames files) with
  | none => []
  | some cycle =>
      ((cycle.head?.bind fun anchor => (schemaTable files).lookup anchor).map
        (circularSchema cycle)).toList

/-! ## Inputs -/

def location : TakeKind → Option String
  | .query => some "query"
  | .headers => some "headers"
  | _ => none

def nonFlatInput (file : String) (line column : Nat) (schemaName location field : String) :
    LintDiagnostic where
  path := file
  line := line
  column := column
  code := "non_flat_input_schema"
  message := "schema '" ++ schemaName ++ "' bound to " ++ location ++ " is not flat: field '" ++
    field ++ "' is a nested object or list of objects; " ++ location ++
    " parameters cannot carry nested objects"
  help := some ("Use only scalar fields and lists of scalars in a schema bound to " ++
    location ++ ".")

def lintBinding (schemas : Table String LintSchema) (file : String) (line column : Nat)
    (binding : TakeBinding) : Option LintDiagnostic := do
  let location ← location binding.kind
  let schemaName ← binding.schema
  let schema ← schemas.lookup schemaName
  let field ← firstNonFlatField schema.definition
  return nonFlatInput file line column schemaName location field

def lintNonFlatInputs (schemas : Table String LintSchema) (file : SourceFile) :
    List LintDiagnostic :=
  file.program.flatMap fun
    | .route _ _ _ _ take _ line column =>
        take.filterMap (lintBinding schemas file.path line column)
    | _ => []

/-! ## Reports -/

/-- The three rules over parsed files, less what is silenced. -/
def lintInputs (files : List SourceFile) : List LintDiagnostic :=
  (lintDuplicateRoutes [] (lintRoutes files) ++ lintSchemaCycles files ++
    files.flatMap (lintNonFlatInputs (schemaTable files))).filter
      fun diagnostic => !isSuppressed files diagnostic

/-- The components of a path, compared one by one. -/
def pathLe (one other : SourceFile) : Prop :=
  one.path.toList.splitOn '/' ≤ other.path.toList.splitOn '/'

instance : DecidableRel pathLe :=
  fun one other =>
    inferInstanceAs (Decidable (one.path.toList.splitOn '/' ≤ other.path.toList.splitOn '/'))

def collectProjectFiles (project : ProjectFiles) : List SourceFile :=
  (project.files ++ [project.entrypoint]).insertionSort pathLe

/-- `marreta lint` in the root of a project. -/
def lintProject (project : ProjectFiles) : List LintDiagnostic :=
  lintInputs (collectProjectFiles project)

/-! ## The checks of the loader -/

/-- The loop over the files that compares the routes of each with those before. -/
def addRoutes (routes : List RouteDefinition) (entry : SourceFile × Bool) :
    Except MarretaError (List RouteDefinition) := do
  entry.1.routes.forM (checkRouteConflict routes)
  return routes ++ entry.1.routes

def checkConflicts (project : ProjectFiles) : Except MarretaError (List RouteDefinition) :=
  project.all.foldlM addRoutes []

/-- All schemas by their bare names, as the loader collects them. -/
def loadedSchemas (project : ProjectFiles) : Schemas :=
  Table.putAll [] (project.all.flatMap fun entry =>
    Table.putAll [] (entry.1.publicSchemas entry.2) ++
      Table.putAll [] (entry.1.privateSchemas entry.2))

/-- A schema that a route of a file takes from query or headers. -/
structure InputTake where
  file : SourceFile
  line : Nat
  column : Nat
  location : String
  schemaName : String

def inputTake? (file : SourceFile) (line column : Nat) (binding : TakeBinding) :
    Option InputTake := do
  let location ← location binding.kind
  let schemaName ← binding.schema
  return { file, line, column, location, schemaName }

def inputTakes (file : SourceFile) : List InputTake :=
  file.program.flatMap fun
    | .route _ _ _ _ take _ line column => take.filterMap (inputTake? file line column)
    | _ => []

/-- The bindings of query and headers that the loader checks. -/
def inputBindings (project : ProjectFiles) : List TakeBinding :=
  (project.all.flatMap (·.1.routes)).flatMap fun route =>
    route.take.filter fun binding => (location binding.kind).isSome

def checkInputs (project : ProjectFiles) : Except MarretaError Unit :=
  (inputBindings project).forM (validateTakeBinding (loadedSchemas project))

/-- The lint run reports an error of the code. -/
def Reports (project : ProjectFiles) (code : String) : Prop :=
  ∃ diagnostic ∈ lintProject project, diagnostic.code = code

/-- The errors of the linter are those of the loader. -/
structure ErrorsAgree (project : ProjectFiles) : Prop where
  routes : Reports project "duplicate_route" ↔ ¬ Returns (checkConflicts project)
  cycles : Reports project "source_load_error" ↔
    ¬ Returns (detectSchemaCycle (loadedSchemas project))
  inputs : Reports project "non_flat_input_schema" ↔ ¬ Returns (checkInputs project)

/-! ## What the two read -/

/-- A comment silences the code on a line of a file. -/
def Silenced (project : ProjectFiles) (diagnostic : LintDiagnostic) : Prop :=
  isSuppressed (collectProjectFiles project) diagnostic = true

/-- Two routes are written with the same verb and the same path, and the second is
not silenced. -/
def RepeatsPath (project : ProjectFiles) : Prop :=
  ∃ one other, [one, other].Sublist (lintRoutes (collectProjectFiles project)) ∧
    one.verb = other.verb ∧ one.path = other.path ∧ ¬ Silenced project (duplicateRoute other)

/-- The schemas that the linter knows have a cycle of values, and the schema at which
its search closes one is not silenced. -/
def LintsCycle (project : ProjectFiles) : Prop :=
  let files := collectProjectFiles project
  (∃ name, Relation.TransGen ((schemaRefs files).Follows (persistentNames files)) name name) ∧
    ∀ cycle ∈ (schemaRefs files).findDisallowedCycle (persistentNames files),
      ∀ anchor ∈ cycle.head?, ∀ schema ∈ (schemaTable files).lookup anchor,
        ¬ Silenced project (circularSchema cycle schema)

def LoadsCycle (project : ProjectFiles) : Prop :=
  ∃ name, Relation.TransGen ((loadedSchemas project).references.Follows
    (loadedSchemas project).persistentNames) name name

/-- A schema of query or headers is not flat in the last declaration by the order of
the paths, and its route is not silenced. -/
def LintsNested (project : ProjectFiles) : Prop :=
  ∃ file ∈ collectProjectFiles project, ∃ take ∈ inputTakes file,
    ∃ schema, (schemaTable (collectProjectFiles project)).lookup take.schemaName = some schema ∧
      ∃ field, firstNonFlatField schema.definition = some field ∧
        ¬ Silenced project (nonFlatInput file.path take.line take.column take.schemaName
          take.location field)

/-- The same in the table of the loader. -/
def LoadsNested (project : ProjectFiles) : Prop :=
  ∃ entry ∈ project.all, ∃ take ∈ inputTakes entry.1,
    ∃ schema, (loadedSchemas project).lookup take.schemaName = some schema ∧
      ¬ IsFlatSchema schema

/-! ## What each rule reports -/

theorem mem_lintDuplicateRoutes {seen : List (HttpVerb × String)} {routes : List LintRoute}
    {diagnostic : LintDiagnostic} :
    diagnostic ∈ lintDuplicateRoutes seen routes ↔
      ∃ other, duplicateRoute other = diagnostic ∧
        ((other.verb, other.path) ∈ seen ∧ other ∈ routes ∨
          ∃ one, [one, other].Sublist routes ∧ one.verb = other.verb ∧ one.path = other.path) := by
  induction routes generalizing seen with
  | nil => simp [lintDuplicateRoutes]
  | cons route routes ih =>
      have pair : ∀ {one other : LintRoute}, [one, other].Sublist (route :: routes) ↔
          [one, other].Sublist routes ∨ one = route ∧ other ∈ routes := by
        intro one other
        constructor
        · intro holds
          cases holds with
          | cons _ rest => exact .inl rest
          | cons_cons _ rest => exact .inr ⟨rfl, List.singleton_sublist.mp rest⟩
        · rintro (rest | ⟨rfl, member⟩)
          · exact rest.cons _
          · exact (List.singleton_sublist.mpr member).cons_cons _
      simp only [lintDuplicateRoutes]
      split
      · rename_i known
        rw [List.mem_cons, ih]
        constructor
        · rintro (rfl | ⟨other, rfl, ⟨inside, member⟩ | ⟨one, both, verb, path⟩⟩)
          · exact ⟨route, rfl, .inl ⟨known, List.mem_cons_self⟩⟩
          · exact ⟨other, rfl, .inl ⟨inside, List.mem_cons_of_mem _ member⟩⟩
          · exact ⟨other, rfl, .inr ⟨one, pair.mpr (.inl both), verb, path⟩⟩
        · rintro ⟨other, rfl, ⟨inside, member⟩ | ⟨one, both, verb, path⟩⟩
          · rcases List.mem_cons.mp member with rfl | member
            · exact .inl rfl
            · exact .inr ⟨other, rfl, .inl ⟨inside, member⟩⟩
          · rcases pair.mp both with both | ⟨rfl, member⟩
            · exact .inr ⟨other, rfl, .inr ⟨one, both, verb, path⟩⟩
            · rw [verb, path] at known
              exact .inr ⟨other, rfl, .inl ⟨known, member⟩⟩
      · rename_i fresh
        rw [ih]
        constructor
        · rintro ⟨other, rfl, ⟨inside, member⟩ | ⟨one, both, verb, path⟩⟩
          · rcases List.mem_cons.mp inside with equal | inside
            · obtain ⟨verb, path⟩ := Prod.mk.inj equal
              exact ⟨other, rfl, .inr ⟨route, pair.mpr (.inr ⟨rfl, member⟩), verb.symm, path.symm⟩⟩
            · exact ⟨other, rfl, .inl ⟨inside, List.mem_cons_of_mem _ member⟩⟩
          · exact ⟨other, rfl, .inr ⟨one, pair.mpr (.inl both), verb, path⟩⟩
        · rintro ⟨other, rfl, ⟨inside, member⟩ | ⟨one, both, verb, path⟩⟩
          · rcases List.mem_cons.mp member with rfl | member
            · exact absurd inside fresh
            · exact ⟨other, rfl, .inl ⟨List.mem_cons_of_mem _ inside, member⟩⟩
          · rcases pair.mp both with both | ⟨rfl, member⟩
            · exact ⟨other, rfl, .inr ⟨one, both, verb, path⟩⟩
            · refine ⟨other, rfl, .inl ⟨?_, member⟩⟩
              rw [verb, path]
              exact List.mem_cons_self

theorem mem_lintSchemaCycles {files : List SourceFile} {diagnostic : LintDiagnostic} :
    diagnostic ∈ lintSchemaCycles files ↔
      ∃ cycle ∈ (schemaRefs files).findDisallowedCycle (persistentNames files),
        ∃ anchor ∈ cycle.head?, ∃ schema ∈ (schemaTable files).lookup anchor,
          circularSchema cycle schema = diagnostic := by
  unfold lintSchemaCycles
  split
  · rename_i none
    simp [none]
  · rename_i cycle found
    simp only [found, Option.mem_toList, Option.mem_def, Option.map_eq_some_iff,
      Option.bind_eq_some_iff, Option.some.injEq, exists_eq_left']
    exact ⟨fun ⟨schema, ⟨anchor, first, lookup⟩, equal⟩ => ⟨anchor, first, schema, lookup, equal⟩,
      fun ⟨anchor, first, schema, lookup, equal⟩ => ⟨schema, ⟨anchor, first, lookup⟩, equal⟩⟩

theorem mem_lintNonFlatInputs {schemas : Table String LintSchema} {file : SourceFile}
    {diagnostic : LintDiagnostic} :
    diagnostic ∈ lintNonFlatInputs schemas file ↔
      ∃ take ∈ inputTakes file, ∃ schema, schemas.lookup take.schemaName = some schema ∧
        ∃ field, firstNonFlatField schema.definition = some field ∧
          nonFlatInput file.path take.line take.column take.schemaName take.location field =
            diagnostic := by
  have one : ∀ {line column : Nat} {binding : TakeBinding},
      lintBinding schemas file.path line column binding = some diagnostic ↔
        ∃ take, inputTake? file line column binding = some take ∧
          ∃ schema, schemas.lookup take.schemaName = some schema ∧
            ∃ field, firstNonFlatField schema.definition = some field ∧
              nonFlatInput file.path take.line take.column take.schemaName take.location field =
                diagnostic := by
    intro line column binding
    simp only [lintBinding, inputTake?, Option.bind_eq_bind, Option.bind_eq_some_iff, Option.pure_def,
      Option.some.injEq]
    constructor
    · rintro ⟨place, kind, name, bound, schema, lookup, field, nested, equal⟩
      exact ⟨_, ⟨place, kind, name, bound, rfl⟩, schema, lookup, field, nested, equal⟩
    · rintro ⟨_, ⟨place, kind, name, bound, rfl⟩, schema, lookup, field, nested, equal⟩
      exact ⟨place, kind, name, bound, schema, lookup, field, nested, equal⟩
  simp only [lintNonFlatInputs, inputTakes, List.mem_flatMap]
  constructor
  · rintro ⟨statement, member, inside⟩
    cases statement with
    | route verb path auth allow take body line column =>
        obtain ⟨binding, bound, reported⟩ := List.mem_filterMap.mp inside
        obtain ⟨found, taken, rest⟩ := one.mp reported
        exact ⟨found, ⟨_, member, List.mem_filterMap.mpr ⟨binding, bound, taken⟩⟩, rest⟩
    | _ => cases inside
  · rintro ⟨found, ⟨statement, member, inside⟩, rest⟩
    cases statement with
    | route verb path auth allow take body line column =>
        obtain ⟨binding, bound, taken⟩ := List.mem_filterMap.mp inside
        exact ⟨_, member, List.mem_filterMap.mpr ⟨binding, bound, one.mpr ⟨found, taken, rest⟩⟩⟩
    | _ => cases inside

theorem mem_lintProject {project : ProjectFiles} {diagnostic : LintDiagnostic} :
    diagnostic ∈ lintProject project ↔
      (diagnostic ∈ lintDuplicateRoutes [] (lintRoutes (collectProjectFiles project)) ∨
        diagnostic ∈ lintSchemaCycles (collectProjectFiles project) ∨
        ∃ file ∈ collectProjectFiles project,
          diagnostic ∈ lintNonFlatInputs (schemaTable (collectProjectFiles project)) file) ∧
      ¬ Silenced project diagnostic := by
  rw [lintProject, lintInputs, List.mem_filter, List.mem_append, List.mem_append,
    List.mem_flatMap, or_assoc, Silenced, Bool.not_eq_true', Bool.not_eq_true]

theorem code_of_duplicates {files : List SourceFile} {diagnostic : LintDiagnostic}
    (reported : diagnostic ∈ lintDuplicateRoutes [] (lintRoutes files)) :
    diagnostic.code = "duplicate_route" := by
  obtain ⟨other, rfl, -⟩ := (mem_lintDuplicateRoutes).mp reported
  rfl

theorem code_of_cycles {files : List SourceFile} {diagnostic : LintDiagnostic}
    (reported : diagnostic ∈ lintSchemaCycles files) : diagnostic.code = "source_load_error" := by
  obtain ⟨cycle, -, anchor, -, schema, -, rfl⟩ := (mem_lintSchemaCycles).mp reported
  rfl

theorem code_of_inputs {schemas : Table String LintSchema} {file : SourceFile}
    {diagnostic : LintDiagnostic} (reported : diagnostic ∈ lintNonFlatInputs schemas file) :
    diagnostic.code = "non_flat_input_schema" := by
  obtain ⟨take, -, schema, -, field, -, rfl⟩ := (mem_lintNonFlatInputs).mp reported
  rfl

theorem reports_routes {project : ProjectFiles} :
    Reports project "duplicate_route" ↔ RepeatsPath project := by
  constructor
  · rintro ⟨diagnostic, reported, code⟩
    obtain ⟨rule, loud⟩ := (mem_lintProject).mp reported
    rcases rule with rule | rule | ⟨file, -, rule⟩
    · obtain ⟨other, rfl, ⟨seen, -⟩ | ⟨one, both, verb, path⟩⟩ := (mem_lintDuplicateRoutes).mp rule
      · cases seen
      · exact ⟨one, other, both, verb, path, loud⟩
    · exact absurd ((code_of_cycles rule).symm.trans code) (by decide)
    · exact absurd ((code_of_inputs rule).symm.trans code) (by decide)
  · rintro ⟨one, other, both, verb, path, loud⟩
    refine ⟨duplicateRoute other, (mem_lintProject).mpr ⟨.inl ?_, loud⟩, rfl⟩
    exact (mem_lintDuplicateRoutes).mpr ⟨other, rfl, .inr ⟨one, both, verb, path⟩⟩

theorem keys_schemaRefs (files : List SourceFile) :
    (schemaRefs files).keys = (schemaTable files).keys := by
  simp [schemaRefs, Table.keys]

theorem reports_cycles {project : ProjectFiles} :
    Reports project "source_load_error" ↔ LintsCycle project := by
  constructor
  · rintro ⟨diagnostic, reported, code⟩
    obtain ⟨rule, loud⟩ := (mem_lintProject).mp reported
    rcases rule with rule | rule | ⟨file, -, rule⟩
    · exact absurd ((code_of_duplicates rule).symm.trans code) (by decide)
    · obtain ⟨cycle, found, anchor, first, schema, lookup, rfl⟩ := (mem_lintSchemaCycles).mp rule
      refine ⟨References.findDisallowedCycle_isSome.mp (Option.isSome_of_mem found), ?_⟩
      intro cycle' found' anchor' first' schema' lookup'
      obtain rfl := Option.mem_unique found found'
      obtain rfl := Option.mem_unique first first'
      obtain rfl := Option.mem_unique lookup lookup'
      exact loud
    · exact absurd ((code_of_inputs rule).symm.trans code) (by decide)
  · rintro ⟨exists', loud⟩
    obtain ⟨cycle, found⟩ :=
      Option.isSome_iff_exists.mp (References.findDisallowedCycle_isSome.mpr exists')
    obtain ⟨anchor, key, first, -⟩ := References.closes_of_some found
    rw [keys_schemaRefs, ← Table.lookup_isSome] at key
    obtain ⟨schema, lookup⟩ := Option.isSome_iff_exists.mp key
    refine ⟨circularSchema cycle schema, (mem_lintProject).mpr ⟨.inr (.inl ?_), ?_⟩, rfl⟩
    · exact (mem_lintSchemaCycles).mpr ⟨cycle, found, anchor, first, schema, lookup, rfl⟩
    · exact loud cycle found anchor first schema lookup

theorem reports_inputs {project : ProjectFiles} :
    Reports project "non_flat_input_schema" ↔ LintsNested project := by
  constructor
  · rintro ⟨diagnostic, reported, code⟩
    obtain ⟨rule, loud⟩ := (mem_lintProject).mp reported
    rcases rule with rule | rule | ⟨file, member, rule⟩
    · exact absurd ((code_of_duplicates rule).symm.trans code) (by decide)
    · exact absurd ((code_of_cycles rule).symm.trans code) (by decide)
    · obtain ⟨take, taken, schema, lookup, field, nested, rfl⟩ := (mem_lintNonFlatInputs).mp rule
      exact ⟨file, member, take, taken, schema, lookup, field, nested, loud⟩
  · rintro ⟨file, member, take, taken, schema, lookup, field, nested, loud⟩
    refine ⟨_, (mem_lintProject).mpr ⟨.inr (.inr ⟨file, member, ?_⟩), loud⟩, rfl⟩
    exact (mem_lintNonFlatInputs).mpr ⟨take, taken, schema, lookup, field, nested, rfl⟩

/-! ## What each check rejects -/

theorem checkRouteConflict_returns {routes : List RouteDefinition} {route : RouteDefinition} :
    checkRouteConflict routes route = .ok () ↔
      ∀ existing ∈ routes, ¬ SamePattern existing route := by
  constructor
  · exact checkRouteConflict_eq_ok
  · intro apart
    unfold checkRouteConflict
    split
    · rename_i existing found
      have same := List.find?_some found
      simp only [Bool.and_eq_true, decide_eq_true_eq] at same
      exact absurd same (apart existing (List.mem_of_find?_eq_some found))
    · rfl

/-- The loop over the files finds no conflict when each file is apart from the routes
before and from the files behind. -/
theorem addRoutes_returns {entries : List (SourceFile × Bool)} {routes : List RouteDefinition} :
    Returns (entries.foldlM addRoutes routes) ↔
      (∀ entry ∈ entries, ∀ later ∈ entry.1.routes, ∀ route ∈ routes, ¬ SamePattern route later) ∧
        entries.Pairwise fun one other =>
          ∀ route ∈ one.1.routes, ∀ later ∈ other.1.routes, ¬ SamePattern route later := by
  induction entries generalizing routes with
  | nil => simp [Returns, pure, Except.pure]
  | cons entry entries ih =>
      have first : ∀ next, addRoutes routes entry = .ok next ↔
          (∀ later ∈ entry.1.routes, ∀ route ∈ routes, ¬ SamePattern route later) ∧
            next = routes ++ entry.1.routes := by
        intro next
        rw [addRoutes, bind_eq_ok]
        constructor
        · rintro ⟨⟨⟩, checked, rest⟩
          refine ⟨fun later member => ?_, (Except.ok.inj rest).symm⟩
          exact (checkRouteConflict_returns).mp (forM_eq_ok.mp checked later member)
        · rintro ⟨apart, rfl⟩
          refine ⟨(), forM_eq_ok.mpr fun later member => ?_, rfl⟩
          exact (checkRouteConflict_returns).mpr (apart later member)
      rw [List.foldlM_cons, returns_bind, List.pairwise_cons]
      constructor
      · rintro ⟨next, added, rest⟩
        obtain ⟨apart, rfl⟩ := (first next).mp added
        obtain ⟨before, pairs⟩ := ih.mp rest
        refine ⟨?_, ?_, pairs⟩
        · intro other member later inside route known
          rcases List.mem_cons.mp member with rfl | member
          · exact apart later inside route known
          · exact before other member later inside route (List.mem_append_left _ known)
        · intro other member route known later inside
          exact before other member later inside route (List.mem_append_right _ known)
      · rintro ⟨before, behind, pairs⟩
        refine ⟨_, (first _).mpr ⟨before entry List.mem_cons_self, rfl⟩, ih.mpr ⟨?_, pairs⟩⟩
        intro other member later inside route known
        rcases List.mem_append.mp known with known | known
        · exact before other (List.mem_cons_of_mem _ member) later inside route known
        · exact behind other member route known later inside

theorem cycle_iff {project : ProjectFiles} :
    ¬ Returns (detectSchemaCycle (loadedSchemas project)) ↔ LoadsCycle project := by
  rw [LoadsCycle, ← References.findDisallowedCycle_isSome, detectSchemaCycle]
  split
  · rename_i cycle found
    simp [found, Returns]
  · rename_i none
    simp [none, Returns]

/-- A binding of query or headers passes unless its schema is known and nested. -/
theorem nonFlatField_refused {schemas : Schemas} (name : String)
    (error : String → MarretaError) :
    (match (schemas.lookup name).bind firstNonFlatField with
      | some field => .error (error field)
      | none => .ok ()) = (Except.ok () : Except MarretaError Unit) ↔
      ∀ schema ∈ schemas.lookup name, IsFlatSchema schema := by
  cases found : schemas.lookup name with
  | none => simp
  | some schema =>
      cases first : firstNonFlatField schema with
      | none => simpa [first] using isFlat_of_firstNonFlatField first
      | some field =>
          simp only [Option.bind_some, first, reduceCtorEq, Option.mem_def, Option.some.injEq,
            forall_eq', false_iff]
          intro holds
          obtain ⟨nested, inside, -⟩ := Option.map_eq_some_iff.mp first
          have not := List.find?_some inside
          simp [holds nested (List.mem_of_find?_eq_some inside)] at not

theorem validateTakeBinding_input {schemas : Schemas} {binding : TakeBinding} {place : String}
    (kind : location binding.kind = some place) :
    validateTakeBinding schemas binding = .ok () ↔
      ∀ name ∈ binding.schema, ∀ schema ∈ schemas.lookup name, IsFlatSchema schema := by
  rw [validateTakeBinding]
  cases binding.schema with
  | none => simp
  | some name =>
      simp only [Option.mem_def, Option.some.injEq, forall_eq']
      cases shape : binding.kind with
      | query => exact nonFlatField_refused name _
      | headers => exact nonFlatField_refused name _
      | payload => simp [shape, location] at kind
      | raw => simp [shape, location] at kind
      | form => simp [shape, location] at kind

theorem mem_inputBindings {project : ProjectFiles} {binding : TakeBinding} :
    binding ∈ inputBindings project ↔
      (location binding.kind).isSome ∧ ∃ entry ∈ project.all, ∃ route ∈ entry.1.routes,
        binding ∈ route.take := by
  simp only [inputBindings, List.mem_flatMap, List.mem_filter]
  constructor
  · rintro ⟨route, ⟨entry, member, inside⟩, bound, place⟩
    exact ⟨place, entry, member, route, inside, bound⟩
  · rintro ⟨place, entry, member, route, inside, bound⟩
    exact ⟨route, ⟨entry, member, inside⟩, bound, place⟩

/-- The schemas that a file takes from query and headers. -/
theorem exists_inputTake {file : SourceFile} (holds : String → Prop) :
    (∃ take ∈ inputTakes file, holds take.schemaName) ↔
      ∃ route ∈ file.routes, ∃ binding ∈ route.take, (location binding.kind).isSome ∧
        ∃ name ∈ binding.schema, holds name := by
  simp only [inputTakes, SourceFile.routes, List.mem_flatMap, List.mem_filterMap]
  constructor
  · rintro ⟨take, ⟨statement, member, inside⟩, named⟩
    cases statement with
    | route verb path auth allow bindings body line column =>
        obtain ⟨binding, bound, taken⟩ := List.mem_filterMap.mp inside
        simp only [inputTake?, Option.bind_eq_bind, Option.bind_eq_some_iff, Option.pure_def,
          Option.some.injEq] at taken
        obtain ⟨place, kind, name, schema, rfl⟩ := taken
        refine ⟨_, ⟨_, member, rfl⟩, binding, bound, ?_, name, schema, named⟩
        rw [kind]
        rfl
    | _ => cases inside
  · rintro ⟨route, ⟨statement, member, built⟩, binding, bound, kind, name, schema, named⟩
    cases statement with
    | route verb path auth allow bindings body line column =>
        obtain rfl := Option.some.inj built
        obtain ⟨place, kind⟩ := Option.isSome_iff_exists.mp kind
        refine ⟨{ file, line, column, location := place, schemaName := name },
          ⟨_, member, List.mem_filterMap.mpr ⟨binding, bound, ?_⟩⟩, named⟩
        simp [inputTake?, kind, Option.mem_def.mp schema]
    | _ => cases built

theorem nested_iff {project : ProjectFiles} :
    ¬ Returns (checkInputs project) ↔ LoadsNested project := by
  have passes : Returns (checkInputs project) ↔ ∀ binding ∈ inputBindings project,
      ∀ name ∈ binding.schema, ∀ schema ∈ (loadedSchemas project).lookup name,
        IsFlatSchema schema := by
    have unit : Returns (checkInputs project) ↔ checkInputs project = .ok () :=
      ⟨fun ⟨(), holds⟩ => holds, fun holds => ⟨(), holds⟩⟩
    rw [unit, checkInputs, forM_eq_ok]
    apply forall₂_congr
    intro binding member
    obtain ⟨place, kind⟩ := Option.isSome_iff_exists.mp ((mem_inputBindings).mp member).1
    exact validateTakeBinding_input kind
  let nestedName (name : String) : Prop :=
    ∃ schema, (loadedSchemas project).lookup name = some schema ∧ ¬ IsFlatSchema schema
  rw [passes]
  constructor
  · intro fails
    simp only [not_forall] at fails
    obtain ⟨binding, member, name, named, schema, lookup, nested⟩ := fails
    obtain ⟨kind, entry, inside, route, among, bound⟩ := (mem_inputBindings).mp member
    exact ⟨entry, inside, (exists_inputTake nestedName).mpr
      ⟨route, among, binding, bound, kind, name, named, schema, lookup, nested⟩⟩
  · rintro ⟨entry, inside, taken⟩ flat
    obtain ⟨route, among, binding, bound, kind, name, named, schema, lookup, nested⟩ :=
      (exists_inputTake nestedName).mp taken
    have member := (mem_inputBindings).mpr ⟨kind, entry, inside, route, among, bound⟩
    exact nested (flat binding member name named schema lookup)

/-! ## The checks when a project is loaded -/

theorem loadedSchemas_of_mergeFiles {project : ProjectFiles} {merged : MergedModules}
    (merges : mergeFiles project = .ok merged) : merged.allSchemas = loadedSchemas project := by
  have holds := mergeFiles_merged merges
  rw [holds.allSchemas, loadedSchemas, moduleSchemas_eq holds.modules]

/-- A project that loads passes the three checks. -/
theorem checksPass_of_loadProject {context : LoadContext} {project : ProjectFiles}
    {loaded : LoadedProject} (loads : loadProject context project = .ok loaded) :
    Returns (checkConflicts project) ∧ Returns (detectSchemaCycle (loadedSchemas project)) ∧
      Returns (checkInputs project) := by
  obtain ⟨merged, merges, loads⟩ := loads_of_loadProject loads
  have checks := loads.checked
  simp only [MergedModules.check, bind_eq_ok] at checks
  obtain ⟨⟨⟩, -, ⟨⟩, cycles, ⟨⟩, -, ⟨⟩, takes, -⟩ := checks
  rw [loadedSchemas_of_mergeFiles merges] at cycles takes
  refine ⟨(addRoutes_returns).mpr ⟨?_, loads.merges.apart⟩, ⟨(), cycles⟩, (), forM_eq_ok.mpr ?_⟩
  · exact fun _ _ _ _ _ known => absurd known List.not_mem_nil
  · intro binding member
    obtain ⟨-, entry, inside, route, among, bound⟩ := (mem_inputBindings).mp member
    have inMerged : route ∈ merged.routes := by
      rw [loads.merges.routes]
      exact List.mem_flatMap.mpr ⟨entry, inside, among⟩
    exact forM_eq_ok.mp (forM_eq_ok.mp takes route inMerged) binding bound

/-- An error that is about two routes. -/
def IsRouteConflict : MarretaError → Prop
  | .routeConflict .. => True
  | _ => False

theorem addStatement_no_conflict {moduleId : String} {names : TakenNames} {statement : Statement}
    {error : MarretaError} (fails : names.addStatement moduleId statement = .error error) :
    ¬ IsRouteConflict error := by
  cases statement <;>
    simp only [TakenNames.addStatement, TakenNames.addExport, TakenNames.addAuthProvider,
      reduceCtorEq] at fails
  all_goals repeat' split at fails
  all_goals cases fails
  all_goals exact id

theorem buildModuleDefinition_no_conflict {program : Program} {moduleId : String}
    {isEntrypoint : Bool} {exportedNames : Table String String} {error : MarretaError}
    (fails : buildModuleDefinition program moduleId isEntrypoint exportedNames = .error error) :
    ¬ IsRouteConflict error := by
  rw [buildModuleDefinition] at fails
  cases names : program.foldlM (TakenNames.addStatement moduleId)
      { exportedNames, exportedTasks := [], authProviders := [] } with
  | ok taken =>
      rw [names] at fails
      cases fails
  | error other =>
      rw [names] at fails
      obtain rfl := Except.error.inj fails
      obtain ⟨statement, -, before, fails⟩ := foldlM_eq_error names
      exact addStatement_no_conflict fails

theorem validateEntrypointMetadata_no_conflict {path : String} {program : Program}
    {error : MarretaError} (fails : validateEntrypointMetadata path program = .error error) :
    ¬ IsRouteConflict error := by
  simp only [validateEntrypointMetadata, checkRuntimeCompatibility] at fails
  repeat' split at fails
  all_goals cases fails
  all_goals exact id

theorem addAuthProvider_no_conflict {providers : Table String AuthProvider}
    {entry : String × AuthProvider} {error : MarretaError}
    (fails : MergedModules.addAuthProvider providers entry = .error error) :
    ¬ IsRouteConflict error := by
  unfold MergedModules.addAuthProvider at fails
  split at fails
  · obtain rfl := Except.error.inj fails
    exact id
  · cases fails

/-- A file that is refused for a conflict is refused by the loop over the routes. -/
theorem addFile_conflict {merged : MergedModules} {entry : SourceFile × Bool}
    {error : MarretaError} (parses : Returns (parseSource entry.1.source))
    (conflict : IsRouteConflict error) (fails : merged.addFile entry = .error (.error error)) :
    ¬ Returns (addRoutes merged.routes entry) := by
  obtain ⟨file, isEntrypoint⟩ := entry
  obtain ⟨program, parsed⟩ := parses
  have same : program = file.program := by
    rw [SourceFile.program]
    simp only [parsed]
  subst same
  rintro ⟨next, added⟩
  rw [addRoutes, bind_eq_ok] at added
  obtain ⟨⟨⟩, checked, -⟩ := added
  rw [MergedModules.addFile, bind_eq_error] at fails
  rcases fails with fails | ⟨program, parsed', fails⟩
  · rw [parsed] at fails
    cases fails
  obtain rfl := Except.ok.inj (parsed.symm.trans parsed')
  rw [mapError_eq_error] at fails
  obtain ⟨inner, fails, same⟩ := fails
  obtain rfl := Stop.error.inj same
  rw [bind_eq_error] at fails
  rcases fails with fails | ⟨-, -, fails⟩
  · split at fails
    · exact validateEntrypointMetadata_no_conflict fails conflict
    · cases fails
  rw [bind_eq_error] at fails
  rcases fails with fails | ⟨⟨module, names⟩, built, fails⟩
  · exact buildModuleDefinition_no_conflict fails conflict
  change merged.addModule module names = .error inner at fails
  have routes := (buildModuleDefinition_builds built).routes
  rw [MergedModules.addModule, routes, checked] at fails
  change (module.authProviders.foldlM MergedModules.addAuthProvider merged.authProviders >>= _) =
    _ at fails
  rw [bind_eq_error] at fails
  rcases fails with fails | ⟨providers, found, ends⟩
  · obtain ⟨provider, -, before, fails⟩ := foldlM_eq_error fails
    exact addAuthProvider_no_conflict fails conflict
  · cases ends

theorem conflict_of_mergeFiles {project : ProjectFiles} {error : MarretaError}
    (parses : ∀ entry ∈ project.all, Returns (parseSource entry.1.source))
    (conflict : IsRouteConflict error) (fails : mergeFiles project = .error (.error error)) :
    ¬ Returns (checkConflicts project) := by
  have run : ∀ (rest : List (SourceFile × Bool)) (before : MergedModules),
      (∀ entry ∈ rest, Returns (parseSource entry.1.source)) →
      rest.foldlM MergedModules.addFile before = .error (.error error) →
      ¬ Returns (rest.foldlM addRoutes before.routes) := by
    intro rest
    induction rest with
    | nil =>
        intro before _ ends
        cases ends
    | cons entry rest ih =>
        intro before parses ends
        rw [List.foldlM_cons, returns_bind]
        rintro ⟨routes, added, returns⟩
        rw [List.foldlM_cons] at ends
        cases first : before.addFile entry with
        | error other =>
            rw [first] at ends
            obtain rfl := Except.error.inj ends
            exact addFile_conflict (parses entry List.mem_cons_self) conflict first
              ⟨routes, added⟩
        | ok next =>
            rw [first] at ends
            obtain ⟨module, builds, -, -, same, -⟩ := addFile_cases first
            rw [addRoutes, bind_eq_ok] at added
            obtain ⟨-, -, added⟩ := added
            apply ih next (fun entry member => parses entry (List.mem_cons_of_mem _ member)) ends
            rw [same, builds.routes, Except.ok.inj added]
            exact returns
  exact run project.all .empty parses fails

/-! ## Agreement -/

/-- No comment silences the code on the line of a file. -/
def Heard (project : ProjectFiles) (path : String) (line : Nat) (code : String) : Prop :=
  ∀ file ∈ collectProjectFiles project, file.path = path →
    ∀ allowed ∈ parseSuppressions file.source, allowed.1 = line → code ∉ allowed.2

/-- Linter and loader read the declarations of a project in the same way. -/
structure PlainlyDeclared (project : ProjectFiles) : Prop where
  /-- Routes of one pattern in two files are written alike, on lines that are not silenced. -/
  paths : ∀ one ∈ collectProjectFiles project, ∀ other ∈ collectProjectFiles project,
    one ≠ other → ∀ route ∈ one.routes, ∀ later ∈ other.routes, SamePattern route later →
      route.path = later.path ∧ Heard project other.path later.line "duplicate_route"
  /-- No file repeats a route. -/
  once : ∀ file ∈ collectProjectFiles project, file.routes.Pairwise fun route later =>
    ¬ (route.verb = later.verb ∧ route.path = later.path)
  /-- The last declaration of a name by the order of the paths is the last that is loaded. -/
  definitions : ∀ name,
    ((lintSchemas (collectProjectFiles project)).reverse.lookup name).map (·.definition) =
      project.declarations.reverse.lookup name
  /-- A name with a persistent declaration ends as one. -/
  persistent : ∀ declared ∈ lintSchemas (collectProjectFiles project),
    declared.2.definition.dbTable.isSome = true → ∀ schema,
      project.declarations.reverse.lookup declared.1 = some schema → schema.dbTable.isSome = true
  /-- A schema on a cycle of values is not silenced. -/
  heardCycles : ∀ name schema,
    (lintSchemas (collectProjectFiles project)).reverse.lookup name = some schema →
      Relation.TransGen ((schemaRefs (collectProjectFiles project)).Follows
        (persistentNames (collectProjectFiles project))) name name →
      Heard project schema.file schema.line "source_load_error"
  /-- Nor is a route that takes a query or headers as a nested schema. -/
  heardInputs : ∀ file ∈ collectProjectFiles project, ∀ take ∈ inputTakes file, ∀ schema,
    project.declarations.reverse.lookup take.schemaName = some schema → ¬ IsFlatSchema schema →
      Heard project file.path take.line "non_flat_input_schema"

/-- What becomes of the load of a project is what the lint run says. -/
structure ForetellsLoad (project : ProjectFiles) : Prop where
  accepted : ∀ context loaded, loadProject context project = .ok loaded →
    ∀ code ∈ ["duplicate_route", "source_load_error", "non_flat_input_schema"],
      ¬ Reports project code
  conflict : ∀ error, IsRouteConflict error → mergeFiles project = .error (.error error) →
    Reports project "duplicate_route"
  circular : ∀ merged, mergeFiles project = .ok merged →
    ¬ Returns (detectSchemaCycle merged.allSchemas) → Reports project "source_load_error"
  nested : ∀ merged, mergeFiles project = .ok merged → ∀ route ∈ merged.routes,
    ∀ binding ∈ route.take, binding.kind = .query ∨ binding.kind = .headers →
      ¬ Returns (validateTakeBinding merged.allSchemas binding) →
        Reports project "non_flat_input_schema"

section Agreement

variable {project : ProjectFiles}

theorem not_silenced_of_heard {diagnostic : LintDiagnostic}
    (heard : Heard project diagnostic.path diagnostic.line diagnostic.code) :
    ¬ Silenced project diagnostic := by
  intro silenced
  rw [Silenced, isSuppressed] at silenced
  split at silenced
  · cases silenced
  · rename_i file last
    have member := List.mem_of_getLast? last
    rw [List.mem_filter, decide_eq_true_eq] at member
    obtain ⟨⟨line, codes⟩, inside, matching⟩ := List.any_eq_true.mp silenced
    rw [Bool.and_eq_true, decide_eq_true_eq, List.contains_iff_mem] at matching
    exact heard file member.1 member.2 _ inside matching.1 matching.2

theorem perm_collectProjectFiles (project : ProjectFiles) :
    (collectProjectFiles project).Perm (project.all.map (·.1)) := by
  have files : project.all.map (·.1) = project.files ++ [project.entrypoint] := by
    simp [ProjectFiles.all, Function.comp_def]
  rw [files]
  exact List.perm_insertionSort pathLe _

theorem mem_collectProjectFiles {file : SourceFile} :
    file ∈ collectProjectFiles project ↔ ∃ entry ∈ project.all, entry.1 = file := by
  rw [(perm_collectProjectFiles project).mem_iff, List.mem_map]

theorem nodup_collectProjectFiles (project : ProjectFiles) :
    (collectProjectFiles project).Nodup := by
  rw [(perm_collectProjectFiles project).nodup_iff]
  have distinct : ((project.all.map (·.1)).map SourceFile.moduleId).Nodup := by
    rw [List.map_map]
    exact project.distinct_all
  exact distinct.of_map

/-! ### Routes -/

/-- A route as the linter notes it. -/
def noted (file : String) (route : RouteDefinition) : LintRoute :=
  { file, verb := route.verb, path := route.path, line := route.line, column := route.column }

/-- The linter notes the routes of a file, as none is exported. -/
theorem lintRoutes_file (file : SourceFile) :
    file.program.filterMap (lintRoute? file.path) = file.routes.map (noted file.path) := by
  have exportable : ∀ statement ∈ file.program, Parser.exportsExportable statement = true := by
    rw [SourceFile.program]
    split
    · rename_i program parses
      exact exportsExportable_of_parseSource parses
    · exact fun statement member => absurd member List.not_mem_nil
  rw [SourceFile.routes, List.map_filterMap]
  apply List.filterMap_congr
  intro statement member
  have known := exportable statement member
  cases statement with
  | route verb path auth allow take body line column => rfl
  | «export» inner =>
      cases inner with
      | route | «export» => cases known
      | _ => rfl
  | _ => rfl

/-- Two files without a route in common. -/
def WrittenApart (one other : SourceFile) : Prop :=
  ∀ route ∈ one.routes, ∀ later ∈ other.routes,
    ¬ (route.verb = later.verb ∧ route.path = later.path)

theorem writtenApart_iff :
    (collectProjectFiles project).Pairwise WrittenApart ↔
      project.all.Pairwise fun one other => WrittenApart one.1 other.1 := by
  have turns : ∀ {one other}, WrittenApart one other → WrittenApart other one := by
    intro one other apart route inside later known same
    exact apart later known route inside ⟨same.1.symm, same.2.symm⟩
  rw [(perm_collectProjectFiles project).pairwise_iff turns, List.pairwise_map]

theorem repeatsPath_iff (plain : PlainlyDeclared project) :
    RepeatsPath project ↔ ¬ (collectProjectFiles project).Pairwise WrittenApart := by
  have files : lintRoutes (collectProjectFiles project) =
      (collectProjectFiles project).flatMap fun file => file.routes.map (noted file.path) := by
    rw [lintRoutes]
    exact List.flatMap_congr fun file _ => lintRoutes_file file
  constructor
  · rintro ⟨one, other, both, verb, path, -⟩ apart
    have differ : (lintRoutes (collectProjectFiles project)).Pairwise fun one other =>
        ¬ (one.verb = other.verb ∧ one.path = other.path) := by
      rw [files, List.pairwise_flatMap]
      refine ⟨fun file member => ?_, apart.imp fun {one other} distinct => ?_⟩
      · rw [List.pairwise_map]
        exact plain.once file member
      · intro first inFirst second inSecond
        obtain ⟨route, inside, rfl⟩ := List.mem_map.mp inFirst
        obtain ⟨later, known, rfl⟩ := List.mem_map.mp inSecond
        exact distinct route inside later known
    exact (List.pairwise_iff_forall_sublist.mp differ both) ⟨verb, path⟩
  · intro shared
    by_contra quiet
    apply shared
    have silent : (lintRoutes (collectProjectFiles project)).Pairwise fun one other =>
        ¬ (one.verb = other.verb ∧ one.path = other.path ∧
          ¬ Silenced project (duplicateRoute other)) :=
      List.pairwise_iff_forall_sublist.mpr fun {one other} both found =>
        quiet ⟨one, other, both, found⟩
    rw [files, List.pairwise_flatMap] at silent
    have different := nodup_collectProjectFiles project
    refine List.pairwise_iff_forall_sublist.mpr fun {one other} both => ?_
    rintro route inside later known ⟨verb, path⟩
    refine List.pairwise_iff_forall_sublist.mp silent.2 both _ (List.mem_map_of_mem inside) _
      (List.mem_map_of_mem known) ⟨verb, path, not_silenced_of_heard ?_⟩
    have pattern : SamePattern route later := ⟨verb, by rw [path]⟩
    exact (plain.paths one (both.subset List.mem_cons_self) other
      (both.subset (List.mem_cons_of_mem _ List.mem_cons_self))
      (List.pairwise_iff_forall_sublist.mp different both) route inside later known pattern).2

theorem conflicts_iff (plain : PlainlyDeclared project) :
    Returns (checkConflicts project) ↔
      project.all.Pairwise fun one other => WrittenApart one.1 other.1 := by
  rw [checkConflicts, addRoutes_returns,
    and_iff_right fun _ _ _ _ _ known => absurd known List.not_mem_nil]
  have distinct : project.all.Pairwise fun one other => one.1 ≠ other.1 := by
    rw [← List.pairwise_map, ← List.nodup_iff_pairwise_ne,
      ← (perm_collectProjectFiles project).nodup_iff]
    exact nodup_collectProjectFiles project
  have known {entry : SourceFile × Bool} (member : entry ∈ project.all) :
      entry.1 ∈ collectProjectFiles project :=
    (mem_collectProjectFiles).mpr ⟨entry, member, rfl⟩
  constructor
  · refine List.Pairwise.imp fun clear route inside later among same => ?_
    exact clear route inside later among ⟨same.1, by rw [same.2]⟩
  · intro apart
    refine (apart.and distinct).imp_of_mem fun inOne inOther both => ?_
    obtain ⟨clear, differ⟩ := both
    intro route inside later among pattern
    have written := plain.paths _ (known inOne) _ (known inOther) differ route inside later among
      pattern
    exact clear route inside later among ⟨pattern.1, written.1⟩

/-! ### Schemas -/

theorem lookup_schemaTable (files : List SourceFile) (name : String) :
    (schemaTable files).lookup name = (lintSchemas files).reverse.lookup name :=
  Table.lookup_putAll_nil _ _

theorem lookup_loadedSchemas (project : ProjectFiles) (name : String) :
    (loadedSchemas project).lookup name = project.declarations.reverse.lookup name := by
  rw [loadedSchemas, lookup_fileSchemas fun _ => rfl, ← Table.lookup_putAll_nil]
  rfl

theorem nodup_loadedSchemas (project : ProjectFiles) : (Table.keys (loadedSchemas project)).Nodup :=
  Table.nodup_keys_putAll List.nodup_nil

theorem mem_persistentNames_iff (plain : PlainlyDeclared project) {name : String} :
    name ∈ persistentNames (collectProjectFiles project) ↔
      name ∈ (loadedSchemas project).persistentNames := by
  have loaded : name ∈ (loadedSchemas project).persistentNames ↔
      ∃ schema, project.declarations.reverse.lookup name = some schema ∧
        schema.dbTable.isSome = true := by
    rw [Schemas.persistentNames, collectPersistentSchemas, List.mem_map]
    constructor
    · rintro ⟨⟨name, schema⟩, inside, rfl⟩
      rw [List.mem_filter] at inside
      rw [← lookup_loadedSchemas]
      exact ⟨schema, Table.lookup_of_mem (nodup_loadedSchemas project) inside.1, inside.2⟩
    · rintro ⟨schema, found, persistent⟩
      rw [← lookup_loadedSchemas] at found
      exact ⟨_, List.mem_filter.mpr ⟨Table.mem_of_lookup found, persistent⟩, rfl⟩
  rw [loaded, persistentNames, List.mem_map]
  constructor
  · rintro ⟨⟨name, schema⟩, inside, rfl⟩
    rw [List.mem_filter] at inside
    have listed : name ∈ Table.keys (lintSchemas (collectProjectFiles project)).reverse :=
      List.mem_map.mpr ⟨_, List.mem_reverse.mpr inside.1, rfl⟩
    obtain ⟨last, found⟩ := Option.isSome_iff_exists.mp (Table.lookup_isSome.mpr listed)
    have same := plain.definitions name
    rw [found] at same
    exact ⟨_, same.symm, plain.persistent _ inside.1 inside.2 _ same.symm⟩
  · rintro ⟨schema, found, persistent⟩
    rw [← plain.definitions, Option.map_eq_some_iff] at found
    obtain ⟨last, found, rfl⟩ := found
    exact ⟨_, List.mem_filter.mpr ⟨List.mem_reverse.mp (Table.mem_of_lookup found), persistent⟩,
      rfl⟩

theorem follows_eq (plain : PlainlyDeclared project) :
    (schemaRefs (collectProjectFiles project)).Follows
        (persistentNames (collectProjectFiles project)) =
      (loadedSchemas project).references.Follows (loadedSchemas project).persistentNames := by
  funext next name
  have refers : (schemaRefs (collectProjectFiles project)).of name =
      (loadedSchemas project).references.of name := by
    have table : (schemaRefs (collectProjectFiles project)).lookup name =
        ((schemaTable (collectProjectFiles project)).lookup name).map
          (·.definition.references) :=
      Table.lookup_map (schemaTable (collectProjectFiles project))
        (fun schema => schema.definition.references) name
    rw [References.of, References.of, table, Schemas.references, Table.lookup_map,
      lookup_loadedSchemas, ← plain.definitions, lookup_schemaTable, Option.map_map]
    rfl
  rw [References.Follows, References.Follows, refers, mem_persistentNames_iff plain]

theorem lintsCycle_iff (plain : PlainlyDeclared project) :
    LintsCycle project ↔ LoadsCycle project := by
  rw [LoadsCycle, ← follows_eq plain]
  refine and_iff_left_of_imp fun cyclic cycle found anchor first schema lookup => ?_
  obtain ⟨start, -, head, leads⟩ := References.closes_of_some (Option.mem_def.mp found)
  obtain rfl := Option.mem_unique first head
  have declared : (lintSchemas (collectProjectFiles project)).reverse.lookup anchor =
      some schema := by
    rw [← lookup_schemaTable]
    exact lookup
  exact not_silenced_of_heard (plain.heardCycles anchor schema declared leads)

theorem isFlat_iff {schema : SchemaDefinition} :
    IsFlatSchema schema ↔ firstNonFlatField schema = none := by
  refine ⟨fun flat => ?_, isFlat_of_firstNonFlatField⟩
  rw [firstNonFlatField, Option.map_eq_none_iff, List.find?_eq_none]
  intro field member
  simp [flat field member]

theorem lintsNested_iff (plain : PlainlyDeclared project) :
    LintsNested project ↔ LoadsNested project := by
  constructor
  · rintro ⟨file, member, take, taken, schema, found, field, nested, -⟩
    obtain ⟨entry, inside, rfl⟩ := (mem_collectProjectFiles).mp member
    refine ⟨entry, inside, take, taken, schema.definition, ?_, ?_⟩
    · rw [lookup_loadedSchemas, ← plain.definitions, ← lookup_schemaTable, found]
      rfl
    · rw [isFlat_iff, nested]
      exact Option.some_ne_none field
  · rintro ⟨entry, inside, take, taken, schema, found, nested⟩
    have member : entry.1 ∈ collectProjectFiles project :=
      (mem_collectProjectFiles).mpr ⟨entry, inside, rfl⟩
    rw [lookup_loadedSchemas] at found
    have heard := plain.heardInputs entry.1 member take taken schema found nested
    rw [← plain.definitions, Option.map_eq_some_iff] at found
    obtain ⟨declared, found, rfl⟩ := found
    rw [isFlat_iff, ← Ne, Option.ne_none_iff_exists'] at nested
    obtain ⟨field, first⟩ := nested
    refine ⟨entry.1, member, take, taken, declared, ?_, field, first, not_silenced_of_heard heard⟩
    rw [lookup_schemaTable]
    exact found

theorem errorsAgree_of_plainlyDeclared (plain : PlainlyDeclared project) : ErrorsAgree project := by
  constructor
  · rw [reports_routes, repeatsPath_iff plain, writtenApart_iff, conflicts_iff plain]
  · rw [reports_cycles, cycle_iff, lintsCycle_iff plain]
  · rw [reports_inputs, nested_iff, lintsNested_iff plain]

end Agreement

/-- In a project whose declarations linter and loader read in the same way, they find the same
errors, and the lint run foretells the load. -/
theorem errorsAgree_and_foretells {project : ProjectFiles}
    (parses : ∀ entry ∈ project.all, Returns (parseSource entry.1.source))
    (plain : PlainlyDeclared project) : ErrorsAgree project ∧ ForetellsLoad project := by
  have agree := errorsAgree_of_plainlyDeclared plain
  refine ⟨agree, ?_, ?_, ?_, ?_⟩
  · intro context loaded loads code member reported
    obtain ⟨conflicts, cycles, inputs⟩ := checksPass_of_loadProject loads
    rcases List.mem_cons.mp member with rfl | member
    · exact agree.routes.mp reported conflicts
    rcases List.mem_cons.mp member with rfl | member
    · exact agree.cycles.mp reported cycles
    · obtain rfl := List.mem_singleton.mp member
      exact agree.inputs.mp reported inputs
  · intro error conflict fails
    exact agree.routes.mpr (conflict_of_mergeFiles parses conflict fails)
  · intro merged merges fails
    rw [loadedSchemas_of_mergeFiles merges] at fails
    exact agree.cycles.mpr fails
  · intro merged merges route inRoutes binding bound kind fails
    apply agree.inputs.mpr
    rintro ⟨⟨⟩, passes⟩
    rw [loadedSchemas_of_mergeFiles merges] at fails
    have place : (location binding.kind).isSome = true := by
      rcases kind with kind | kind
      · rw [kind]
        rfl
      · rw [kind]
        rfl
    rw [(mergeFiles_merged merges).routes] at inRoutes
    obtain ⟨entry, inside, among⟩ := List.mem_flatMap.mp inRoutes
    exact fails ⟨(), forM_eq_ok.mp passes binding
      ((mem_inputBindings).mpr ⟨place, entry, inside, route, among, bound⟩)⟩

/-- Two files with the same route. -/
def repeatedRoute : ProjectFiles where
  files :=
    [{ path := "people.marreta", moduleId := "people"
       source := "route GET \"/users\"\n    reply 200, \"people\"\n".toList },
      { path := "users.marreta", moduleId := "users"
        source := "route GET \"/users\"\n    reply 200, \"users\"\n".toList }]
  entrypoint := namedEntrypoint ""
  distinct := by decide

instance (project : ProjectFiles) (path : String) (line : Nat) (code : String) :
    Decidable (Heard project path line code) :=
  inferInstanceAs (Decidable (∀ _ ∈ _, _ → _))

theorem repeatedRoute_foretold :
    (∀ entry ∈ repeatedRoute.all, Returns (parseSource entry.1.source)) ∧
      ErrorsAgree repeatedRoute ∧ ForetellsLoad repeatedRoute := by
  have spelled := @ProjectFiles.withSources_eq repeatedRoute _ _
    (.cons String.toList_ofList (.cons String.toList_ofList .nil))
    (toList_append_spelled String.toList_ofList String.toList_ofList)
  have read : (∀ entry ∈ repeatedRoute.all,
        (parseSource entry.1.source).toOption.isSome = true) ∧
      (∀ one ∈ collectProjectFiles repeatedRoute,
        ∀ other ∈ collectProjectFiles repeatedRoute, ∀ route ∈ one.routes,
          ∀ later ∈ other.routes, route.path = later.path ∧
            Heard repeatedRoute other.path later.line "duplicate_route") ∧
      (∀ file ∈ collectProjectFiles repeatedRoute, file.routes.length ≤ 1) ∧
      lintSchemas (collectProjectFiles repeatedRoute) = [] ∧ repeatedRoute.declarations = [] := by
    rw [← spelled]
    decide +kernel
  obtain ⟨parses, alike, once, noSchemas, undeclared⟩ := read
  have returns : ∀ entry ∈ repeatedRoute.all, Returns (parseSource entry.1.source) :=
    fun entry member => returns_of_toOption (parses entry member)
  refine ⟨returns, errorsAgree_and_foretells returns ?_⟩
  constructor
  · intro one member other among differ route inside later known pattern
    exact alike one member other among route inside later known
  · intro file member
    have short := once file member
    cases routes : file.routes with
    | nil => exact .nil
    | cons route rest =>
        rw [routes, List.length_cons] at short
        obtain rfl := List.length_eq_zero_iff.mp (Nat.le_zero.mp (Nat.le_of_succ_le_succ short))
        exact List.pairwise_singleton _ _
  · intro name
    rw [noSchemas, undeclared]
    rfl
  · intro declared member
    rw [noSchemas] at member
    cases member
  · intro name schema found
    rw [noSchemas] at found
    cases found
  · intro file member take taken schema found
    rw [undeclared] at found
    cases found

/-- Two files name the parameter of one route in different ways. -/
def renamedParameter : ProjectFiles where
  files :=
    [{ path := "people.marreta", moduleId := "people"
       source := "route GET \"/users/:name\"\n    reply 200, params.name\n".toList },
      { path := "users.marreta", moduleId := "users"
        source := "route GET \"/users/:id\"\n    reply 200, params.id\n".toList }]
  entrypoint := namedEntrypoint ""
  distinct := by decide

theorem renamedParameter_rejected :
    (match loadProject plainContext renamedParameter with
      | .error (.error (.routeConflict verb pathA pathB _ _)) => some (verb, pathA, pathB)
      | _ => none) = some ("GET", "/users/:name", "/users/:id") ∧
    lintProject renamedParameter = [] ∧ (checkConflicts renamedParameter).isOk = false := by
  rw [← @ProjectFiles.withSources_eq renamedParameter _ _
    (.cons String.toList_ofList (.cons String.toList_ofList .nil))
    (toList_append_spelled String.toList_ofList String.toList_ofList)]
  decide +kernel

theorem renamedParameter_disagrees :
    lintProject renamedParameter = [] ∧
      (∃ error, loadProject plainContext renamedParameter = .error (.error error) ∧
        IsRouteConflict error) ∧ ¬ ErrorsAgree renamedParameter := by
  obtain ⟨rejected, clean, conflict⟩ := renamedParameter_rejected
  refine ⟨clean, ?_, fun agree => ?_⟩
  · split at rejected
    · rename_i found
      exact ⟨_, found, trivial⟩
    · cases rejected
  · have reported : Reports renamedParameter "duplicate_route" := by
      rw [agree.routes]
      rintro ⟨routes, found⟩
      rw [found] at conflict
      cases conflict
    obtain ⟨diagnostic, member, -⟩ := reported
    rw [clean] at member
    cases member

end Lint
end Marreta
