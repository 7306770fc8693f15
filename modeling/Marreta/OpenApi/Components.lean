import Marreta.Project.Loading

namespace Marreta

open Foundation

/-! The component schemas of the published contract.

The document names one component for each schema that a route or a public schema
mentions.  Public schemas come first; other names are resolved in the module of whoever
mentions them, and the first definition found for a name stays. -/

namespace OpenApi

/-- A schema that is mentioned in a module. -/
abbrev SchemaMention := String × Option String

/-! ## What a route mentions -/

section Mentions

variable (moduleId : Option String)

def schemaMentions (schema : Option String) : List SchemaMention :=
  (schema.map (·, moduleId)).toList

mutual
def expressionSchemaRefs : Expression → List SchemaMention
  | .schemaConstructor schemaName fields => (schemaName, moduleId) :: pairSchemaRefs fields
  | .httpClientResponseSchema call schemaName =>
      (schemaName, moduleId) :: expressionSchemaRefs call
  | .list items => expressionsSchemaRefs items
  | .mapLiteral pairs => pairSchemaRefs pairs
  | .binaryOp left _ right => expressionSchemaRefs left ++ expressionSchemaRefs right
  | .unaryOp _ operand => expressionSchemaRefs operand
  | .propertyAccess object _ => expressionSchemaRefs object
  | .methodCall object _ arguments => expressionSchemaRefs object ++ argumentSchemaRefs arguments
  | .functionCall _ arguments => argumentSchemaRefs arguments
  | .matchOn subject arms => expressionSchemaRefs subject ++ armSchemaRefs arms
  | .ifElse condition thenBranch none =>
      expressionSchemaRefs condition ++ taskBodySchemaRefs thenBranch
  | .ifElse condition thenBranch (some elseBranch) =>
      expressionSchemaRefs condition ++ taskBodySchemaRefs thenBranch ++
        taskBodySchemaRefs elseBranch
  | .subscript object key => expressionSchemaRefs object ++ expressionSchemaRefs key
  | .pipeline input stages => expressionSchemaRefs input ++ stageSchemaRefs stages
  | .broadcast input targets => expressionSchemaRefs input ++ expressionsSchemaRefs targets
  | .rescue expr handler => expressionSchemaRefs expr ++ expressionSchemaRefs handler
  | .queuePush queueName schema none =>
      expressionSchemaRefs queueName ++ schemaMentions moduleId schema
  | .queuePush queueName schema (some payload) =>
      expressionSchemaRefs queueName ++ schemaMentions moduleId schema ++
        expressionSchemaRefs payload
  | .topicPublish topic schema none =>
      expressionSchemaRefs topic ++ schemaMentions moduleId schema
  | .topicPublish topic schema (some payload) =>
      expressionSchemaRefs topic ++ schemaMentions moduleId schema ++ expressionSchemaRefs payload
  | .integer _ | .float _ | .stringLiteral _ | .boolean _ | .null | .identifier _ | .taskCall _ =>
      []

def expressionsSchemaRefs : List Expression → List SchemaMention
  | [] => []
  | value :: rest => expressionSchemaRefs value ++ expressionsSchemaRefs rest

def pairSchemaRefs : List (String × Expression) → List SchemaMention
  | [] => []
  | (_, value) :: rest => expressionSchemaRefs value ++ pairSchemaRefs rest

def argumentSchemaRefs : List Argument → List SchemaMention
  | [] => []
  | .positional value :: rest | .named _ value :: rest =>
      expressionSchemaRefs value ++ argumentSchemaRefs rest

/-- The patterns are not looked into. -/
def armSchemaRefs : List MatchArm → List SchemaMention
  | [] => []
  | .mk _ value :: rest => expressionSchemaRefs value ++ armSchemaRefs rest

def taskBodySchemaRefs : TaskBody → List SchemaMention
  | .inline value => expressionSchemaRefs value
  | .block statements result => responseSchemaRefs statements ++ expressionSchemaRefs result

def stageSchemaRefs : List PipelineStage → List SchemaMention
  | [] => []
  | .expression value :: rest => expressionSchemaRefs value ++ stageSchemaRefs rest
  | .map _ body :: rest => mapStatementSchemaRefs body ++ stageSchemaRefs rest
  | .reduce initial _ _ body :: rest =>
      expressionSchemaRefs initial ++ taskBodySchemaRefs body ++ stageSchemaRefs rest
  | .rescue (.inline value) :: rest => expressionSchemaRefs value ++ stageSchemaRefs rest
  | .rescue (.block statements) :: rest => responseSchemaRefs statements ++ stageSchemaRefs rest

def mapStatementSchemaRefs : List MapStatement → List SchemaMention
  | [] => []
  | .statement value :: rest => statementSchemaRefs value ++ mapStatementSchemaRefs rest
  | .keep value none :: rest => expressionSchemaRefs value ++ mapStatementSchemaRefs rest
  | .keep value (some condition) :: rest =>
      expressionSchemaRefs value ++ expressionSchemaRefs condition ++ mapStatementSchemaRefs rest
  | .skip condition :: rest => expressionSchemaRefs condition ++ mapStatementSchemaRefs rest

/-- Of a reply the body counts, of other statements their value.  Conditions, guards
and headers are not looked into. -/
def statementSchemaRefs : Statement → List SchemaMention
  | .reply _ _ body responseSchema _ _ _ =>
      schemaMentions moduleId responseSchema ++ expressionSchemaRefs body
  | .transaction body _ _ | .while _ body _ _ | .onQueue _ _ _ body _ _
  | .onTopic _ _ _ body _ _ => responseSchemaRefs body
  | .taskDef _ _ body _ _ => taskBodySchemaRefs body
  | .expressionStatement expression _ _ | .assignment _ expression _ _
  | .conditionalAssignment _ expression _ _ _ | .fail _ expression _ _
  | .raise expression _ _ _ => expressionSchemaRefs expression
  | .export statement => statementSchemaRefs statement
  | .require .. | .reject .. | .route .. | .schema .. | .authProvider .. | .nack ..
  | .scenario .. => []

def responseSchemaRefs : List Statement → List SchemaMention
  | [] => []
  | statement :: rest => statementSchemaRefs statement ++ responseSchemaRefs rest
end

end Mentions

/-- The schema of the first input of a kind. -/
def bindingSchema (take : List TakeBinding) (kind : TakeKind) : Option String :=
  (take.find? fun binding => binding.kind = kind).bind (·.schema)

def routeSchemaRefs (route : RouteDefinition) : List SchemaMention :=
  [TakeKind.payload, .query, .headers].flatMap (fun kind =>
    schemaMentions route.moduleId (bindingSchema route.take kind)) ++
    responseSchemaRefs route.moduleId route.body

def nestedSchemaRefs (moduleId : Option String) (schema : SchemaDefinition) : List SchemaMention :=
  schema.references.map (·, moduleId)

/-! ## Resolving -/

section Resolving

variable (runtime : ProjectRuntime)

/-- The loop over the names still to be resolved, the last mentioned first. -/
def resolvePending : Nat → List SchemaMention → Schemas → Schemas
  | 0, _, resolved => resolved
  | _, [], resolved => resolved
  | turns + 1, (name, moduleId) :: pending, resolved =>
      if (resolved.lookup name).isSome then resolvePending turns pending resolved
      else
        match runtime.resolveSchema moduleId name with
        | some schema =>
            resolvePending turns ((nestedSchemaRefs moduleId schema).reverse ++ pending)
              (Table.put resolved name schema)
        | none => resolvePending turns pending resolved

/-- The schemas that any module can see. -/
def knownSchemas : List (String × SchemaDefinition) :=
  runtime.publicSchemas ++ runtime.modules.flatMap fun entry => entry.2.visibleSchemas

/-- Every name is resolved once, so the references of all schemas together are enough
turns. -/
def turnLimit (pending : List SchemaMention) : Nat :=
  pending.length + ((knownSchemas runtime).map fun entry => entry.2.references.length).sum

def resolveAllSchemaDefs (routes : List RouteDefinition) (schemas : Schemas) : Schemas :=
  let pending := routes.flatMap routeSchemaRefs ++
    schemas.flatMap fun entry => nestedSchemaRefs none entry.2
  resolvePending runtime (turnLimit runtime pending) pending.reverse schemas

end Resolving

/-! ## Rendering -/

inductive ApiType where
  | string | integer | number | boolean | array | object
deriving DecidableEq

inductive ApiFormat where
  | int64 | float | decimal | dateTime | date | time | duration
deriving DecidableEq

/-- The schema of a property. -/
inductive ApiSchema where
  | typed (type : ApiType) (format : Option ApiFormat)
  /-- A string out of some. -/
  | enumeration (values : List String)
  | items (element : ApiSchema)
  /-- An object with the two ends, both strings. -/
  | interval
  | ref (name : String)
deriving DecidableEq

/-- The schema of a component. -/
structure ApiObject where
  properties : Table String ApiSchema
  required : List String
deriving DecidableEq

def schemaTypeToOpenapi : SchemaType → ApiSchema
  | .stringType => .typed .string none
  | .integerType => .typed .integer (some .int64)
  | .floatType => .typed .number (some .float)
  | .decimalType => .typed .string (some .decimal)
  | .booleanType => .typed .boolean none
  | .instantType => .typed .string (some .dateTime)
  | .dateType => .typed .string (some .date)
  | .timeType => .typed .string (some .time)
  | .durationType => .typed .string (some .duration)
  | .intervalType => .interval
  | .listType => .typed .array none
  | .mapType => .typed .object none
  | .enumType values => .enumeration values
  | .reference name => .ref name
  | .typedList element => .items (schemaTypeToOpenapi element)

def schemaDefinitionToOpenapi (schema : SchemaDefinition) : ApiObject where
  properties := Table.putAll [] (schema.fields.map fun field =>
    (field.name, schemaTypeToOpenapi field.fieldType))
  required := (schema.fields.filter fun field => !field.optional).map (·.name)

abbrev Components := Table String ApiObject

def buildComponentSchemas (runtime : ProjectRuntime) (routes : List RouteDefinition)
    (schemas : Schemas) : Components :=
  (resolveAllSchemaDefs runtime routes schemas).map fun entry =>
    (entry.1, schemaDefinitionToOpenapi entry.2)

/-- The component that the document names for the body of a request. -/
def requestBodySchema (components : Components) (route : RouteDefinition) : Option String :=
  (bindingSchema route.take .payload).filter fun name => (components.lookup name).isSome

/-! ## Runs of the loop -/

section Runs

variable {runtime : ProjectRuntime}

/-- A run of the loop to its end: the names still to be resolved, the schemas at the start and
the schemas at the end. -/
inductive Resolves (runtime : ProjectRuntime) : List SchemaMention → Schemas → Schemas → Prop where
  | done {resolved : Schemas} : Resolves runtime [] resolved resolved
  | known {name : String} {moduleId : Option String} {pending : List SchemaMention}
      {resolved result : Schemas} (known : (resolved.lookup name).isSome = true)
      (rest : Resolves runtime pending resolved result) :
      Resolves runtime ((name, moduleId) :: pending) resolved result
  | found {name : String} {moduleId : Option String} {pending : List SchemaMention}
      {resolved result : Schemas} {schema : SchemaDefinition}
      (unknown : resolved.lookup name = none)
      (resolves : runtime.resolveSchema moduleId name = some schema)
      (rest : Resolves runtime ((nestedSchemaRefs moduleId schema).reverse ++ pending)
        (Table.put resolved name schema) result) :
      Resolves runtime ((name, moduleId) :: pending) resolved result
  | missing {name : String} {moduleId : Option String} {pending : List SchemaMention}
      {resolved result : Schemas} (unknown : resolved.lookup name = none)
      (missing : runtime.resolveSchema moduleId name = none)
      (rest : Resolves runtime pending resolved result) :
      Resolves runtime ((name, moduleId) :: pending) resolved result

/-- The references of the schemas that are not resolved yet. -/
def openMentions (known : List (String × SchemaDefinition)) (resolved : Schemas) : Nat :=
  (known.map fun entry =>
    if (resolved.lookup entry.1).isSome then 0 else entry.2.references.length).sum

theorem openMentions_cons {entry : String × SchemaDefinition}
    {known : List (String × SchemaDefinition)} {resolved : Schemas} :
    openMentions (entry :: known) resolved =
      (if (resolved.lookup entry.1).isSome then 0 else entry.2.references.length) +
        openMentions known resolved := by
  rw [openMentions, List.map_cons, List.sum_cons, openMentions]

theorem openMentions_le (known : List (String × SchemaDefinition)) (resolved : Schemas)
    (name : String) (schema : SchemaDefinition) :
    openMentions known (Table.put resolved name schema) ≤ openMentions known resolved := by
  induction known with
  | nil => exact Nat.le_refl _
  | cons entry known ih =>
      rw [openMentions_cons, openMentions_cons, Table.lookup_put]
      by_cases same : entry.1 = name
      · rw [if_pos same, Option.isSome_some, if_pos rfl]
        omega
      · rw [if_neg same]
        omega

/-- Resolving a schema pays for the names it mentions. -/
theorem openMentions_put {known : List (String × SchemaDefinition)} {resolved : Schemas}
    {name : String} {schema : SchemaDefinition} (fresh : resolved.lookup name = none)
    (member : (name, schema) ∈ known) :
    openMentions known (Table.put resolved name schema) + schema.references.length ≤
      openMentions known resolved := by
  induction known with
  | nil => cases member
  | cons entry known ih =>
      rw [openMentions_cons, openMentions_cons, Table.lookup_put]
      rcases List.mem_cons.mp member with rfl | member
      · have rest := openMentions_le known resolved name schema
        rw [if_pos rfl, fresh]
        simp only [Option.isSome_some, Option.isSome_none, if_true, Bool.false_eq_true, if_false]
        omega
      · have rest := ih member
        by_cases same : entry.1 = name
        · rw [if_pos same, Option.isSome_some, if_pos rfl]
          omega
        · rw [if_neg same]
          omega

theorem mem_knownSchemas {moduleId : Option String} {name : String} {schema : SchemaDefinition}
    (resolves : runtime.resolveSchema moduleId name = some schema) :
    (name, schema) ∈ knownSchemas runtime := by
  rw [ProjectRuntime.resolveSchema, Option.orElse_eq_orElse, Option.orElse_eq_or,
    Option.or_eq_some_iff] at resolves
  rcases resolves with visible | ⟨-, isPublic⟩
  · obtain ⟨module, found, visible⟩ := Option.bind_eq_some_iff.mp visible
    obtain ⟨id, -, found⟩ := Option.bind_eq_some_iff.mp found
    refine List.mem_append_right _ (List.mem_flatMap.mpr ⟨_, Table.mem_of_lookup found, ?_⟩)
    exact Table.mem_of_lookup visible
  · exact List.mem_append_left _ (Table.mem_of_lookup isPublic)

/-- With enough turns the loop runs to its end. -/
theorem resolves_of_enough {turns : Nat} {pending : List SchemaMention} {resolved : Schemas}
    (enough : pending.length + openMentions (knownSchemas runtime) resolved ≤ turns) :
    Resolves runtime pending resolved (resolvePending runtime turns pending resolved) := by
  induction turns generalizing pending resolved with
  | zero =>
      obtain rfl : pending = [] := List.length_eq_zero_iff.mp (by omega)
      exact .done
  | succ turns ih =>
      cases pending with
      | nil => exact .done
      | cons first pending =>
          obtain ⟨mentioned, moduleId⟩ := first
          rw [List.length_cons] at enough
          simp only [resolvePending]
          split
          · rename_i known
            exact .known known (ih (by omega))
          · rename_i fresh
            have unknown := Option.not_isSome_iff_eq_none.mp fresh
            split
            · rename_i definition found
              have paid := openMentions_put unknown (mem_knownSchemas found)
              apply Resolves.found unknown found
              apply ih
              simp only [List.length_append, List.length_reverse, nestedSchemaRefs, List.length_map]
              omega
            · rename_i missing
              exact .missing unknown missing (ih (by omega))

theorem openMentions_le_sum (known : List (String × SchemaDefinition)) (resolved : Schemas) :
    openMentions known resolved ≤
      (known.map fun entry => entry.2.references.length).sum := by
  induction known with
  | nil => exact Nat.le_refl _
  | cons entry known ih =>
      rw [openMentions_cons, List.map_cons, List.sum_cons]
      split <;> omega

/-- The names that are mentioned at the start, the last one first. -/
def initialMentions (routes : List RouteDefinition) (schemas : Schemas) : List SchemaMention :=
  (routes.flatMap routeSchemaRefs ++
    schemas.flatMap fun entry => nestedSchemaRefs none entry.2).reverse

theorem resolves_resolveAllSchemaDefs (routes : List RouteDefinition) (schemas : Schemas) :
    Resolves runtime (initialMentions routes schemas) schemas
      (resolveAllSchemaDefs runtime routes schemas) := by
  apply resolves_of_enough
  rw [initialMentions, List.length_reverse, turnLimit]
  exact Nat.add_le_add_left (openMentions_le_sum _ _) _

namespace Resolves

variable {pending : List SchemaMention} {resolved result : Schemas}

/-- What is resolved stays. -/
theorem keeps (run : Resolves runtime pending resolved result) {name : String}
    {schema : SchemaDefinition} (known : resolved.lookup name = some schema) :
    result.lookup name = some schema := by
  induction run with
  | done => exact known
  | known _ _ ih => exact ih known
  | found unknown _ _ ih =>
      apply ih
      rw [Table.lookup_put]
      split
      · rename_i same
        rw [same, unknown] at known
        cases known
      · exact known
  | missing _ _ _ ih => exact ih known

theorem put_keeps {name : String} {schema : SchemaDefinition}
    (run : Resolves runtime pending (Table.put resolved name schema) result) :
    result.lookup name = some schema := by
  apply run.keeps
  rw [Table.lookup_put, if_pos rfl]

/-- All that is mentioned and can be resolved is resolved. -/
theorem complete (run : Resolves runtime pending resolved result) :
    ∀ mention ∈ pending, (runtime.resolveSchema mention.2 mention.1).isSome = true →
      (result.lookup mention.1).isSome = true := by
  induction run with
  | done => nofun
  | known known rest ih =>
      refine List.forall_mem_cons.mpr ⟨fun _ => ?_, ih⟩
      obtain ⟨schema, found⟩ := Option.isSome_iff_exists.mp known
      rw [rest.keeps found]
      rfl
  | found unknown resolves rest ih =>
      refine List.forall_mem_cons.mpr ⟨fun _ => ?_, fun mention member =>
        ih mention (List.mem_append_right _ member)⟩
      rw [rest.put_keeps]
      rfl
  | missing unknown missing rest ih =>
      refine List.forall_mem_cons.mpr ⟨fun resolves => ?_, ih⟩
      rw [missing] at resolves
      cases resolves

end Resolves
end Runs

/-! ## Where a component comes from -/

section Origin

variable (runtime : ProjectRuntime) (routes : List RouteDefinition)

/-- The names that a module uses without going through a public schema. -/
inductive LedTo : Option String → String → Prop where
  | mentioned {route : RouteDefinition} {name : String} {moduleId : Option String}
      (member : route ∈ routes) (mentions : (name, moduleId) ∈ routeSchemaRefs route) :
      LedTo moduleId name
  | nested {outer name : String} {moduleId : Option String} {schema : SchemaDefinition}
      (led : LedTo moduleId outer) (hidden : runtime.publicSchemas.lookup outer = none)
      (resolves : runtime.resolveSchema moduleId outer = some schema)
      (refers : name ∈ schema.references) : LedTo moduleId name

/-- A definition that the document can give a name: the public one, or, if there is none, that of
a module that leads to the name. -/
def Published (name : String) (schema : SchemaDefinition) : Prop :=
  runtime.publicSchemas.lookup name = some schema ∨
    runtime.publicSchemas.lookup name = none ∧ ∃ moduleId, LedTo runtime routes moduleId name ∧
      runtime.resolveSchema moduleId name = some schema

end Origin

section Owners

variable {runtime : ProjectRuntime} {routes : List RouteDefinition}

theorem resolveSchema_none {name : String} :
    runtime.resolveSchema none name = runtime.publicSchemas.lookup name := rfl

/-- The module in which a name was resolved by a run, with what its definition refers to. -/
structure Owned (runtime : ProjectRuntime) (routes : List RouteDefinition) (result : Schemas)
    (name : String) (schema : SchemaDefinition) (moduleId : Option String) : Prop where
  led : LedTo runtime routes moduleId name
  resolves : runtime.resolveSchema moduleId name = some schema
  closed : ∀ next ∈ schema.references, (runtime.resolveSchema moduleId next).isSome = true →
    (result.lookup next).isSome = true

/-- A name that a run resolves gets the definition of a module that leads to it. -/
theorem Resolves.owned {pending : List SchemaMention} {resolved result : Schemas}
    (run : Resolves runtime pending resolved result)
    (publics : ∀ name, resolved.lookup name = none → runtime.publicSchemas.lookup name = none)
    (led : ∀ mention ∈ pending, mention.2 = none ∨ LedTo runtime routes mention.2 mention.1)
    {name : String} {schema : SchemaDefinition} (found : result.lookup name = some schema) :
    resolved.lookup name = some schema ∨
      ∃ moduleId, Owned runtime routes result name schema moduleId := by
  induction run with
  | done => exact .inl found
  | known _ _ induction =>
      exact induction publics (List.forall_mem_cons.mp led).2 found
  | @found mentioned moduleId pending resolved result definition unknown resolves rest induction =>
      obtain ⟨own, others⟩ := List.forall_mem_cons.mp led
      have hidden := publics _ unknown
      have leads : LedTo runtime routes moduleId mentioned := by
        rcases own with rfl | leads
        · rw [resolveSchema_none, hidden] at resolves
          cases resolves
        · exact leads
      have before := induction
        (by
          intro other missing
          rw [Table.lookup_put] at missing
          split at missing
          · cases missing
          · exact publics other missing)
        (by
          intro mention member
          rcases List.mem_append.mp member with inner | outer
          · obtain ⟨next, refers, rfl⟩ := List.mem_map.mp (List.mem_reverse.mp inner)
            exact .inr (.nested leads hidden resolves refers)
          · exact others mention outer)
        found
      rcases before with before | owned
      · rw [Table.lookup_put] at before
        split at before
        · rename_i same
          obtain rfl := Option.some.inj before
          subst same
          refine .inr ⟨moduleId, leads, resolves, fun next refers known => ?_⟩
          exact rest.complete (next, moduleId)
            (List.mem_append_left _ (List.mem_reverse.mpr (List.mem_map_of_mem refers))) known
        · exact .inl before
      · exact .inr owned
  | missing _ _ _ induction =>
      exact induction publics (List.forall_mem_cons.mp led).2 found

theorem initialMentions_led {schemas : Schemas} :
    ∀ mention ∈ initialMentions routes schemas,
      mention.2 = none ∨ LedTo runtime routes mention.2 mention.1 := by
  intro mention member
  rcases List.mem_append.mp (List.mem_reverse.mp member) with own | nested
  · obtain ⟨route, inside, mentions⟩ := List.mem_flatMap.mp own
    exact .inr (.mentioned inside mentions)
  · obtain ⟨entry, -, inside⟩ := List.mem_flatMap.mp nested
    obtain ⟨next, -, rfl⟩ := List.mem_map.mp inside
    exact .inl rfl

/-- A name of the document that is not public. -/
theorem owned_of_lookup {name : String} {schema : SchemaDefinition}
    (hidden : runtime.publicSchemas.lookup name = none)
    (found : (resolveAllSchemaDefs runtime routes runtime.publicSchemas).lookup name =
      some schema) :
    ∃ moduleId, Owned runtime routes
      (resolveAllSchemaDefs runtime routes runtime.publicSchemas) name schema moduleId := by
  rcases (resolves_resolveAllSchemaDefs routes runtime.publicSchemas).owned
    (fun _ missing => missing) initialMentions_led found with known | owned
  · rw [hidden] at known
    cases known
  · exact owned

theorem published_of_lookup {name : String} {schema : SchemaDefinition}
    (found : (resolveAllSchemaDefs runtime routes runtime.publicSchemas).lookup name =
      some schema) : Published runtime routes name schema := by
  cases known : runtime.publicSchemas.lookup name with
  | some published =>
      rw [(resolves_resolveAllSchemaDefs routes runtime.publicSchemas).keeps known] at found
      obtain rfl := Option.some.inj found
      exact .inl known
  | none =>
      obtain ⟨moduleId, owned⟩ := owned_of_lookup known found
      exact .inr ⟨known, moduleId, owned.led, owned.resolves⟩

theorem schemas_of_loadProject {context : LoadContext} {project : ProjectFiles}
    {loaded : LoadedProject} (loads : loadProject context project = .ok loaded) :
    loaded.schemas = loaded.runtime.publicSchemas := by
  rw [loadProject, bind_eq_ok] at loads
  obtain ⟨merged, -, loads⟩ := loads
  rw [bind_eq_ok] at loads
  obtain ⟨⟨⟩, -, loads⟩ := loads
  rw [bind_eq_ok] at loads
  obtain ⟨runtime, built, loads⟩ := loads
  obtain rfl := Except.ok.inj loads
  rw [buildProjectRuntime, bind_eq_ok] at built
  obtain ⟨draft, -, built⟩ := built
  obtain rfl := Except.ok.inj built
  rfl

end Owners

/-! ## Every mentioned schema has a component -/

section Complete

variable {runtime : ProjectRuntime}

end Complete

end OpenApi
end Marreta
