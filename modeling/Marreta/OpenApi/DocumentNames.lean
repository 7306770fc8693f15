import Marreta.OpenApi.Contract
import Marreta.OpenApi.ShownSchemas

namespace Marreta

open Foundation

/-! The names of the document.

A component stands under a bare name, while the runtime looks a name up in a module.  The document
is well formed when both find the same under every name that it refers to, and when no two
operations share an id. -/

namespace OpenApi

section Names

variable (runtime : ProjectRuntime) (routes : List RouteDefinition) (schemas : Schemas)

/-! ## Well-formed documents -/

/-- The references of the document that come from a route: those of its operation, and those of
the definitions that its module finds for the names of the route. -/
inductive Refers (route : RouteDefinition) : String → Prop where
  | operation {before : List RouteDefinition} {operation : Operation} {name : String}
      (documented : Documented routes before route)
      (found : (buildDocument runtime routes schemas).paths.lookup (operationKey route) =
        some operation) (shown : name ∈ operation.refs) : Refers route name
  | mentioned {outer name : String} {schema : SchemaDefinition}
      (mentions : (outer, route.moduleId) ∈ routeSchemaRefs route)
      (resolves : runtime.resolveSchema route.moduleId outer = some schema)
      (refers : name ∈ schema.references) : Refers route name
  | nested {outer name : String} {schema : SchemaDefinition} (reached : Refers route outer)
      (resolves : runtime.resolveSchema route.moduleId outer = some schema)
      (refers : name ∈ schema.references) : Refers route name

/-- Names that resolve have a component, which is the definition of the runtime. -/
def ComponentsAgree : Prop :=
  ∀ route ∈ routes, ∀ name, Refers runtime routes schemas route name →
    ∀ schema, runtime.resolveSchema route.moduleId name = some schema →
      (buildDocument runtime routes schemas).components.lookup name =
        some (schemaDefinitionToOpenapi schema)

structure WellFormedDocument : Prop where
  /-- The loop over the names runs to its end. -/
  terminates : Resolves runtime (initialMentions routes schemas) schemas
    (resolveAllSchemaDefs runtime routes schemas)
  components : ComponentsAgree runtime routes schemas
  operationIds : DistinctIds (buildDocument runtime routes schemas)

/-! ## Names with one meaning -/

/-- The names that the routes of a module use: those they mention and those that definitions of
such names refer to. -/
inductive UsesName : Option String → String → Prop where
  | mentioned {route : RouteDefinition} {name : String} {moduleId : Option String}
      (member : route ∈ routes) (mentions : (name, moduleId) ∈ routeSchemaRefs route) :
      UsesName moduleId name
  | nested {outer name : String} {moduleId : Option String} {schema : SchemaDefinition}
      (used : UsesName moduleId outer)
      (resolves : runtime.resolveSchema moduleId outer = some schema)
      (refers : name ∈ schema.references) : UsesName moduleId name

/-- The names of the references that come from the routes of a module. -/
def RefersName (moduleId : Option String) (name : String) : Prop :=
  ∃ route ∈ routes, route.moduleId = moduleId ∧ Refers runtime routes schemas route name

/-- No two definitions of a used name are shown differently, and one that is not public is reached
without a public schema. -/
structure Unconfused (used : Option String → String → Prop) : Prop where
  alike : ∀ name first second schema other, used first name → used second name →
    runtime.resolveSchema first name = some schema →
    runtime.resolveSchema second name = some other →
    schemaDefinitionToOpenapi schema = schemaDefinitionToOpenapi other
  published : ∀ name moduleId schema published, used moduleId name →
    runtime.resolveSchema moduleId name = some schema →
    runtime.publicSchemas.lookup name = some published →
    schemaDefinitionToOpenapi schema = schemaDefinitionToOpenapi published
  led : ∀ name moduleId, used moduleId name →
    (runtime.resolveSchema moduleId name).isSome = true →
    runtime.publicSchemas.lookup name = none →
    ∃ leader, LedTo runtime routes leader name ∧
      (runtime.resolveSchema leader name).isSome = true

/-- Where two modules have a definition of one name that is not public, the references that one
module resolves are references that the other resolves. -/
def SameReach : Prop :=
  ∀ name first second schema other, UsesName runtime routes first name →
    UsesName runtime routes second name → runtime.publicSchemas.lookup name = none →
    runtime.resolveSchema first name = some schema →
    runtime.resolveSchema second name = some other →
    ∀ next ∈ schema.references, (runtime.resolveSchema first next).isSome = true →
      next ∈ other.references ∧ (runtime.resolveSchema second next).isSome = true

end Names

section Worklist

variable {runtime : ProjectRuntime} {routes : List RouteDefinition}

theorem UsesName.of_ledTo {moduleId : Option String} {name : String}
    (led : LedTo runtime routes moduleId name) : UsesName runtime routes moduleId name := by
  induction led with
  | mentioned member mentions => exact .mentioned member mentions
  | nested _ _ resolves refers used => exact .nested used resolves refers

/-- Names that a module leads to are resolved, where the modules that share a name have the same
reach. -/
theorem isSome_of_ledTo (reach : SameReach runtime routes) {moduleId : Option String}
    {name : String} (led : LedTo runtime routes moduleId name)
    (resolves : (runtime.resolveSchema moduleId name).isSome = true) :
    ((resolveAllSchemaDefs runtime routes runtime.publicSchemas).lookup name).isSome = true := by
  induction led with
  | @mentioned route name moduleId member mentions =>
      exact (resolves_resolveAllSchemaDefs routes runtime.publicSchemas).complete (name, moduleId)
        (List.mem_reverse.mpr (List.mem_append_left _
          (List.mem_flatMap.mpr ⟨route, member, mentions⟩))) resolves
  | @nested outer name moduleId schema led hidden known refers induction =>
      have outerKnown := induction (by rw [known]; rfl)
      obtain ⟨definition, found⟩ := Option.isSome_iff_exists.mp outerKnown
      obtain ⟨owner, owned⟩ := owned_of_lookup hidden found
      obtain ⟨refers, resolves⟩ := reach outer moduleId owner schema definition (.of_ledTo led)
        (.of_ledTo owned.led) hidden known owned.resolves name refers resolves
      exact owned.closed name refers resolves

end Worklist

section Agreement

variable {runtime : ProjectRuntime} {routes : List RouteDefinition}

theorem lookup_components {schemas : Schemas} {name : String} :
    (buildDocument runtime routes schemas).components.lookup name =
      ((resolveAllSchemaDefs runtime routes schemas).lookup name).map
        schemaDefinitionToOpenapi := by
  change (buildComponentSchemas runtime routes schemas).lookup name = _
  rw [buildComponentSchemas, Table.lookup_map]

theorem usesName_of_refers {schemas : Schemas} {route : RouteDefinition} (member : route ∈ routes)
    {name : String} (refers : Refers runtime routes schemas route name) :
    UsesName runtime routes route.moduleId name := by
  induction refers with
  | operation documented found shown =>
      obtain ⟨before, other, documented', key, rfl⟩ := lookup_buildPaths.mp found
      obtain ⟨-, rfl⟩ := place_of_key documented documented' key.symm
      exact .mentioned member (mem_of_operation shown)
  | mentioned mentions resolves refers =>
      exact .nested (.mentioned member mentions) resolves refers
  | nested _ resolves refers used => exact .nested used resolves refers

theorem lookup_public {name : String} {published : SchemaDefinition}
    (known : runtime.publicSchemas.lookup name = some published) :
    (resolveAllSchemaDefs runtime routes runtime.publicSchemas).lookup name = some published :=
  (resolves_resolveAllSchemaDefs routes runtime.publicSchemas).keeps known

/-- Used names that are not confused have the component of the runtime. -/
theorem lookup_of_unconfused (clear : Unconfused runtime routes (UsesName runtime routes))
    (reach : SameReach runtime routes) {moduleId : Option String} {name : String}
    {schema : SchemaDefinition} (used : UsesName runtime routes moduleId name)
    (resolves : runtime.resolveSchema moduleId name = some schema) :
    (buildDocument runtime routes runtime.publicSchemas).components.lookup name =
      some (schemaDefinitionToOpenapi schema) := by
  rw [lookup_components]
  cases known : runtime.publicSchemas.lookup name with
  | some published =>
      rw [lookup_public known, clear.published name moduleId schema published used resolves known]
      rfl
  | none =>
      obtain ⟨leader, led, leads⟩ := clear.led name moduleId used (by rw [resolves]; rfl) known
      obtain ⟨definition, found⟩ := Option.isSome_iff_exists.mp (isSome_of_ledTo reach led leads)
      obtain ⟨owner, owned⟩ := owned_of_lookup known found
      rw [found, clear.alike name moduleId owner schema definition used (.of_ledTo owned.led)
        resolves owned.resolves]
      rfl

theorem unconfused_of_componentsAgree
    (agree : ComponentsAgree runtime routes runtime.publicSchemas) :
    Unconfused runtime routes (RefersName runtime routes runtime.publicSchemas) := by
  constructor
  · rintro name _ _ schema other ⟨route, member, rfl, refers⟩ ⟨route', member', rfl, refers'⟩
      resolves resolves'
    have first := agree route member name refers schema resolves
    have second := agree route' member' name refers' other resolves'
    exact Option.some.inj (first.symm.trans second)
  · rintro name _ schema published ⟨route, member, rfl, refers⟩ resolves known
    have own := agree route member name refers schema resolves
    rw [lookup_components, lookup_public known] at own
    exact (Option.some.inj own).symm
  · rintro name _ ⟨route, member, rfl, refers⟩ resolves hidden
    obtain ⟨schema, resolves⟩ := Option.isSome_iff_exists.mp resolves
    have own := agree route member name refers schema resolves
    rw [lookup_components, Option.map_eq_some_iff] at own
    obtain ⟨definition, found, -⟩ := own
    obtain ⟨owner, owned⟩ := owned_of_lookup hidden found
    exact ⟨owner, owned.led, by rw [owned.resolves]; rfl⟩

end Agreement

/-- The document of a loaded project is well formed when no used name is confused and no number of
an id is taken.  A well-formed document has no number taken and confuses no name it refers to. -/
theorem wellFormedDocument {context : LoadContext} {project : ProjectFiles}
    {loaded : LoadedProject} (loads : loadProject context project = .ok loaded) :
    (Unconfused loaded.runtime loaded.routes (UsesName loaded.runtime loaded.routes) →
      SameReach loaded.runtime loaded.routes → NumbersFree loaded.routes →
      WellFormedDocument loaded.runtime loaded.routes loaded.schemas) ∧
    (WellFormedDocument loaded.runtime loaded.routes loaded.schemas →
      Unconfused loaded.runtime loaded.routes
        (RefersName loaded.runtime loaded.routes loaded.schemas) ∧
      NumbersFree loaded.routes) := by
  rw [schemas_of_loadProject loads]
  constructor
  · intro clear reach free
    refine ⟨resolves_resolveAllSchemaDefs _ _, ?_, distinctIds_iff.mpr free⟩
    intro route member name refers schema resolves
    exact lookup_of_unconfused clear reach (usesName_of_refers member refers) resolves
  · intro wellFormed
    exact ⟨unconfused_of_componentsAgree wellFormed.components,
      distinctIds_iff.mp wellFormed.operationIds⟩

/-! ## Projects -/

/-- What a document makes of a project. -/
structure NamesView where
  mentions : List (List SchemaMention)
  modules : List (Option String)
  publicSchemas : Schemas
  resolved : List (Option SchemaDefinition)
  components : List (Option ApiObject)
  operationIds : List (Option String)
deriving DecidableEq

/-- The view at some names of a module and at some operations. -/
def namesView (moduleId : Option String) (names : List String) (keys : List OperationKey)
    (loaded : LoadedProject) : NamesView :=
  let document := buildDocument loaded.runtime loaded.routes loaded.schemas
  { mentions := loaded.routes.map routeSchemaRefs
    modules := loaded.routes.map (·.moduleId)
    publicSchemas := loaded.runtime.publicSchemas
    resolved := names.map (loaded.runtime.resolveSchema moduleId)
    components := names.map fun name => document.components.lookup name
    operationIds := keys.map fun key => (document.paths.lookup key).map (·.operationId) }

theorem numbersFree_of_length {routes : List RouteDefinition} (single : routes.length = 1) :
    NumbersFree routes := by
  rintro before route before' route' - ⟨after', rfl, -⟩ - later
  rw [List.length_append, List.length_cons] at single
  obtain rfl : before' = [] := List.length_eq_zero_iff.mp (by omega)
  cases later

theorem pricesDocument_wellFormed :
    ∃ loaded, loadProject plainContext pricesProject = .ok loaded ∧
      WellFormedDocument loaded.runtime loaded.routes loaded.schemas := by
  obtain ⟨loaded, loads, view⟩ := @ProjectFiles.exists_loaded plainContext pricesProject _
    (fun _ => namesView (some "prices") ["Price"] [])
    { mentions := [[("Price", some "prices")]], modules := [some "prices"]
      publicSchemas := [("Price", priceSchema)], resolved := [some priceSchema]
      components := [some (schemaDefinitionToOpenapi priceSchema)], operationIds := [] } _ _
    (.cons String.toList_ofList .nil)
    (toList_append_spelled String.toList_ofList String.toList_ofList) (by decide +kernel)
  obtain ⟨mentions, -, publics, resolved, -, -⟩ := NamesView.mk.inj view
  have resolves := (List.cons.inj resolved).1
  have own : ∀ {moduleId name}, UsesName loaded.runtime loaded.routes moduleId name →
      moduleId = some "prices" ∧ name = "Price" := by
    intro moduleId name used
    induction used with
    | @mentioned route name moduleId member listed =>
        have inside := List.mem_map_of_mem (f := routeSchemaRefs) member
        rw [mentions] at inside
        rw [List.mem_singleton.mp inside] at listed
        obtain ⟨rfl, rfl⟩ := Prod.mk.inj (List.mem_singleton.mp listed)
        exact ⟨rfl, rfl⟩
    | nested _ known refers induction =>
        obtain ⟨rfl, rfl⟩ := induction
        obtain rfl := Option.some.inj (resolves.symm.trans known)
        cases refers
  have known : loaded.runtime.publicSchemas.lookup "Price" = some priceSchema := by
    rw [publics]
    rfl
  refine ⟨loaded, loads, (wellFormedDocument loads).1 ⟨?_, ?_, ?_⟩ ?_ ?_⟩
  · intro name first second schema other used used' first' second'
    obtain ⟨rfl, -⟩ := own used
    obtain ⟨rfl, -⟩ := own used'
    rw [Option.some.inj (first'.symm.trans second')]
  · intro name moduleId schema published used resolved published'
    obtain ⟨rfl, rfl⟩ := own used
    rw [← Option.some.inj (resolves.symm.trans resolved),
      ← Option.some.inj (known.symm.trans published')]
  · intro name moduleId used _ hidden
    obtain ⟨rfl, rfl⟩ := own used
    rw [known] at hidden
    cases hidden
  · intro name first second schema other used _ hidden
    obtain ⟨rfl, rfl⟩ := own used
    rw [known] at hidden
    cases hidden
  · apply numbersFree_of_length
    rw [← List.length_map (f := routeSchemaRefs), mentions]
    rfl

/-- An exported schema with lines of a schema that stays in its file. -/
def basketsProject : ProjectFiles where
  files :=
    [{ path := "baskets.marreta", moduleId := "baskets"
       source := ("schema Line\n    sku: string\n\n" ++
         "export schema Basket\n    lines: list of Line\n\n" ++
         "route POST \"/baskets\" take payload as Basket\n    reply 201, 1\n").toList }]
  entrypoint := namedEntrypoint ""
  distinct := by decide

/-- Two paths with one natural id, and the path that is their number. -/
def memberPathsProject : ProjectFiles where
  files :=
    [{ path := "users.marreta", moduleId := "users"
       source := ("route GET \"/users\"\n    reply 200, 1\n\n" ++
         "route GET \"/Users\"\n    reply 200, 2\n\n" ++
         "route GET \"/users/2\"\n    reply 200, 3\n").toList }]
  entrypoint := namedEntrypoint ""
  distinct := by decide

def lineSchema : SchemaDefinition where
  dbTable := none
  fields := [⟨"sku", .stringType, false⟩]

def basketSchema : SchemaDefinition where
  dbTable := none
  fields := [⟨"lines", .typedList (.reference "Line"), false⟩]

set_option maxRecDepth 1000 in
theorem baskets_not_componentsAgree :
    ∃ loaded, loadProject plainContext basketsProject = .ok loaded ∧
      ¬ ComponentsAgree loaded.runtime loaded.routes loaded.schemas := by
  obtain ⟨loaded, loads, view⟩ := @ProjectFiles.exists_loaded plainContext basketsProject _
    (fun _ => namesView (some "baskets") ["Basket", "Line"] [])
    { mentions := [[("Basket", some "baskets")]], modules := [some "baskets"]
      publicSchemas := [("Basket", basketSchema)]
      resolved := [some basketSchema, some lineSchema]
      components := [some (schemaDefinitionToOpenapi basketSchema), none]
      operationIds := [] } _ _
    (.cons (toList_append_spelled
      (toList_append_spelled String.toList_ofList String.toList_ofList) String.toList_ofList) .nil)
    (toList_append_spelled String.toList_ofList String.toList_ofList) (by decide +kernel)
  refine ⟨loaded, loads, fun agree => ?_⟩
  obtain ⟨mentions, modules, -, resolved, components, -⟩ := NamesView.mk.inj view
  obtain ⟨basket, line⟩ := List.cons.inj resolved
  have missing : (buildDocument loaded.runtime loaded.routes loaded.schemas).components.lookup
      "Line" = none := (List.cons.inj (List.cons.inj components).2).1
  cases routes : loaded.routes with
  | nil =>
      rw [routes] at mentions
      cases mentions
  | cons route rest =>
      rw [routes] at mentions modules
      have module : route.moduleId = some "baskets" := (List.cons.inj modules).1
      have mentioned : ("Basket", route.moduleId) ∈ routeSchemaRefs route := by
        rw [(List.cons.inj mentions).1, module]
        exact List.mem_singleton_self _
      have member : route ∈ loaded.routes := by
        rw [routes]
        exact List.mem_cons_self
      rw [← module] at basket line
      have present := agree route member "Line"
        (.mentioned mentioned basket (List.mem_singleton_self _)) lineSchema (List.cons.inj line).1
      rw [missing] at present
      cases present

set_option maxRecDepth 1000 in
theorem users_not_distinctIds :
    ∃ loaded, loadProject plainContext memberPathsProject = .ok loaded ∧
      ¬ DistinctIds (buildDocument loaded.runtime loaded.routes loaded.schemas) := by
  obtain ⟨loaded, loads, view⟩ := @ProjectFiles.exists_loaded plainContext memberPathsProject _
    (fun _ => namesView none [] [⟨"/Users".toList, .get⟩, ⟨"/users/2".toList, .get⟩])
    { mentions := [[], [], []], modules := [some "users", some "users", some "users"]
      publicSchemas := [], resolved := [], components := []
      operationIds := [some "get_users_2", some "get_users_2"] } _ _
    (.cons (toList_append_spelled
      (toList_append_spelled String.toList_ofList String.toList_ofList) String.toList_ofList) .nil)
    (toList_append_spelled String.toList_ofList String.toList_ofList) (by decide +kernel)
  refine ⟨loaded, loads, fun distinct => ?_⟩
  obtain ⟨-, -, -, -, -, ids⟩ := NamesView.mk.inj view
  obtain ⟨first, second⟩ := List.cons.inj ids
  obtain ⟨operation, found, id⟩ := Option.map_eq_some_iff.mp first
  obtain ⟨operation', found', id'⟩ := Option.map_eq_some_iff.mp (List.cons.inj second).1
  have same := distinct _ _ operation operation' found found' (id.trans id'.symm)
  exact absurd same (by decide)

/-- A component that is missing, and an id of two operations. -/
theorem documents_not_wellFormed :
    (∃ loaded, loadProject plainContext basketsProject = .ok loaded ∧
      ¬ WellFormedDocument loaded.runtime loaded.routes loaded.schemas) ∧
    ∃ loaded, loadProject plainContext memberPathsProject = .ok loaded ∧
      ¬ WellFormedDocument loaded.runtime loaded.routes loaded.schemas := by
  constructor
  · obtain ⟨loaded, loads, disagree⟩ := baskets_not_componentsAgree
    exact ⟨loaded, loads, fun wellFormed => disagree wellFormed.components⟩
  · obtain ⟨loaded, loads, clash⟩ := users_not_distinctIds
    exact ⟨loaded, loads, fun wellFormed => clash wellFormed.operationIds⟩

end OpenApi
end Marreta
