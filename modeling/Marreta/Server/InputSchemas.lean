import Marreta.Server.Bindings

namespace Marreta

open Foundation

/-! Handlers and the schemas of their inputs.

A handler should only see values that the validator returned for the schema it
names.  The server looks the schema up when a request arrives, and passes the
value on unchecked when it finds none; nothing at load makes sure that it does. -/

/-! ## What a file sees -/

/-- The schema declarations a file sees: the public ones of all files and its
own. -/
def ProjectFiles.visibleIn (project : ProjectFiles) (moduleId : Option String) :
    List (String × SchemaDefinition) :=
  project.all.flatMap fun entry =>
    entry.1.publicSchemas entry.2 ++
      if some entry.1.moduleId = moduleId then entry.1.privateSchemas entry.2 else []

def ProjectFiles.Sees (project : ProjectFiles) (moduleId : Option String) (name : String) : Prop :=
  name ∈ Table.keys (project.visibleIn moduleId)

instance (project : ProjectFiles) (moduleId : Option String) (name : String) :
    Decidable (project.Sees moduleId name) :=
  inferInstanceAs (Decidable (_ ∈ _))

theorem resolveSchema_served (loaded : LoadedProject) (env : ValueMap) (moduleId : Option String)
    (name : String) :
    (loaded.served env).resolveSchema moduleId name =
      loaded.runtime.resolveSchema moduleId name := by
  unfold LoadedProject.served ProjectRuntime.freezeEnvs ProjectRuntime.injectGlobal
  rw [ProjectRuntime.resolveSchema_mapEnvs, ProjectRuntime.resolveSchema_mapEnvs]

section Loaded

variable {context : LoadContext} {project : ProjectFiles} {merged : MergedModules}
  {loaded : LoadedProject} (loads : Loads context project merged loaded)
  {entry : SourceFile × Bool} (member : entry ∈ project.all)

include loads

theorem Loads.mem_publicSchemas {name : String} {schema : SchemaDefinition}
    (inside : (name, schema) ∈ merged.publicSchemas) (moduleId : Option String) :
    (name, schema) ∈ project.visibleIn moduleId := by
  rw [loads.merges.publicSchemas] at inside
  have there := (Table.mem_putAll inside).resolve_right List.not_mem_nil
  obtain ⟨module, found, own⟩ := List.mem_flatMap.mp there
  obtain ⟨file, inFiles, builds⟩ := loads.mem_file found
  rw [builds.publicSchemas] at own
  have declared := (Table.mem_putAll own).resolve_right List.not_mem_nil
  exact List.mem_flatMap.mpr ⟨file, inFiles, List.mem_append.mpr (.inl declared)⟩

theorem Loads.publicSchemas_named {file : SourceFile × Bool} (inFiles : file ∈ project.all)
    {name : String} {schema : SchemaDefinition}
    (declared : (name, schema) ∈ file.1.publicSchemas file.2) :
    (merged.publicSchemas.lookup name).isSome = true := by
  obtain ⟨module, found, builds, -⟩ := loads.module inFiles
  have own : name ∈ Table.keys module.publicSchemas := by
    rw [builds.publicSchemas]
    exact Table.mem_keys_putAll.mpr (.inl (List.mem_map.mpr ⟨_, declared, rfl⟩))
  obtain ⟨other, inside, same⟩ := List.mem_map.mp own
  rw [loads.merges.publicSchemas]
  refine Table.lookup_putAll_isSome.mpr (.inl ?_)
  exact List.mem_map.mpr ⟨other, List.mem_flatMap.mpr ⟨module, found, inside⟩, same⟩

theorem Loads.publicSchemas_eq : loaded.runtime.publicSchemas = merged.publicSchemas := by
  have built := loads.built
  rw [buildProjectRuntime, bind_eq_ok] at built
  obtain ⟨draft, -, built⟩ := built
  rw [← Except.ok.inj built]

include member

/-- How a file resolves a name. -/
theorem Loads.resolveSchema_eq (name : String) :
    ∃ module ∈ merged.modules, Builds entry module ∧
      loaded.runtime.resolveSchema (some entry.1.moduleId) name =
        ((RuntimeDraft.visibleSchemas merged.publicSchemas module).lookup name).or
          (merged.publicSchemas.lookup name) := by
  obtain ⟨module, found, builds⟩ := Loads.module.exists_of_forall₂ loads.merges.modules member
  have distinct : (merged.modules.map (·.id)).Nodup := by
    rw [loads.merges.map_id]
    exact project.distinct_all
  obtain ⟨env, known⟩ := buildProjectRuntime_module loads.built distinct found
  rw [builds.id] at known
  refine ⟨module, found, builds, ?_⟩
  simp [ProjectRuntime.resolveSchema, ProjectRuntime.module?, known, loads.publicSchemas_eq]

/-- What a file resolves is declared where it can see it. -/
theorem Loads.mem_visibleIn {name : String} {schema : SchemaDefinition}
    (resolves : loaded.runtime.resolveSchema (some entry.1.moduleId) name = some schema) :
    (name, schema) ∈ project.visibleIn (some entry.1.moduleId) := by
  obtain ⟨module, found, builds, equation⟩ := loads.resolveSchema_eq member name
  rw [equation, Option.or_eq_some_iff] at resolves
  rcases resolves with visible | ⟨-, visible⟩
  · rw [RuntimeDraft.visibleSchemas] at visible
    rcases Table.mem_putAll (Table.mem_of_lookup visible) with own | inside
    · rw [builds.publicSchemas] at own
      have declared := (Table.mem_putAll own).resolve_right List.not_mem_nil
      exact List.mem_flatMap.mpr ⟨entry, member, List.mem_append.mpr (.inl declared)⟩
    rcases Table.mem_putAll inside with own | inside
    · rw [builds.privateSchemas] at own
      have declared := (Table.mem_putAll own).resolve_right List.not_mem_nil
      refine List.mem_flatMap.mpr ⟨entry, member, List.mem_append.mpr (.inr ?_)⟩
      rwa [if_pos rfl]
    · exact loads.mem_publicSchemas inside _
  · exact loads.mem_publicSchemas (Table.mem_of_lookup visible) _

/-- What a file can see it resolves. -/
theorem Loads.resolves_of_sees {name : String}
    (sees : project.Sees (some entry.1.moduleId) name) :
    ∃ schema, loaded.runtime.resolveSchema (some entry.1.moduleId) name = some schema := by
  obtain ⟨⟨name, schema⟩, visible, rfl⟩ := List.mem_map.mp sees
  obtain ⟨file, inFiles, declared⟩ := List.mem_flatMap.mp visible
  obtain ⟨module, found, builds, equation⟩ := loads.resolveSchema_eq member name
  rw [← Option.isSome_iff_exists, equation, Option.isSome_or, Bool.or_eq_true]
  rcases List.mem_append.mp declared with isPublic | isPrivate
  · exact .inr (loads.publicSchemas_named inFiles isPublic)
  · left
    by_cases own : some file.1.moduleId = some entry.1.moduleId
    · rw [if_pos own] at isPrivate
      obtain rfl : file = entry :=
        List.inj_on_of_nodup_map project.distinct_all inFiles member (Option.some.inj own)
      refine Table.lookup_putAll_isSome.mpr (.inr (Table.lookup_putAll_isSome.mpr (.inl ?_)))
      rw [builds.privateSchemas]
      refine Table.mem_keys_putAll.mpr (.inl ?_)
      exact List.mem_map.mpr ⟨(name, schema), isPrivate, rfl⟩
    · rw [if_neg own] at isPrivate
      cases isPrivate

end Loaded

/-! ## Checked inputs -/

/-- The definition of a schema that a handler's file sees under its name. -/
def Resolves (project : ProjectFiles) (runtime : ProjectRuntime) (moduleId : Option String)
    (name : String) (schema : SchemaDefinition) : Prop :=
  (name, schema) ∈ project.visibleIn moduleId ∧ runtime.resolveSchema moduleId name = some schema

section

variable (server : ServerContext) (project : ProjectFiles) (runtime : ProjectRuntime)

/-- The validator returned the value for the input of a `take`. -/
def TakeChecked (moduleId : Option String) (request : RouteRequest) (kind : TakeKind)
    (name : String) (value : Value) : Prop :=
  ∃ schema, Resolves project runtime moduleId name schema ∧
    match kind with
    | .payload =>
        coercePayload server.formats (request.payload server) schema
          (runtime.visibleSchemasFor moduleId) = .ok value
    | .query =>
        coerceScalarInput server.formats (request.queryTexts server) schema false = .ok value
    | .headers =>
        coerceScalarInput server.formats (collectTexts request.headerTexts) schema true = .ok value
    | .form | .raw => False

/-- The body of the route starts with checked inputs. -/
def RouteEnforced (route : RouteDefinition) (request : RouteRequest) (start : Interpreter) : Prop :=
  ∀ binding ∈ route.take, ∀ name, binding.schema = some name →
    ∃ value, start.env.get binding.name = some value ∧
      TakeChecked server project runtime route.moduleId request binding.kind name value

/-- The body of the consumer starts with a checked payload. -/
def ConsumerEnforced (consumer : ConsumerDefinition) (delivery : Delivery)
    (start : Interpreter) : Prop :=
  ∀ name, consumer.schema = some name →
    ∃ value, start.env.get consumer.binding = some value ∧
      ∃ schema, Resolves project runtime consumer.moduleId name schema ∧
        coercePayload server.formats delivery.payload schema
          (runtime.visibleSchemasFor consumer.moduleId) = .ok value

end

/-- No name is taken twice with different meanings. -/
def RouteDefinition.TakesAgree (route : RouteDefinition) : Prop :=
  ∀ one ∈ route.take, ∀ other ∈ route.take, one.name = other.name → one = other

instance (route : RouteDefinition) : Decidable route.TakesAgree :=
  inferInstanceAs (Decidable (∀ _ ∈ _, _))

/-! ## Routes -/

section Routes

variable {server : ServerContext} {project : ProjectFiles} {runtime : ProjectRuntime}
  {moduleId : Option String} {request : RouteRequest}

/-- Binding the inputs one after another leaves each of them bound. -/
theorem foldlM_bindTake {bindings : List TakeBinding} {state start : Interpreter}
    (agree : ∀ one ∈ bindings, ∀ other ∈ bindings, one.name = other.name → one = other)
    (starts : bindings.foldlM (bindTake server runtime moduleId request) state = .ok start) :
    (∀ name ∉ bindings.map (·.name), start.env.get name = state.env.get name) ∧
      ∀ binding ∈ bindings, ∃ value,
        takeValue server runtime moduleId request binding = .ok value ∧
          start.env.get binding.name = some value := by
  induction bindings generalizing state with
  | nil =>
      obtain rfl := Except.ok.inj starts
      exact ⟨fun _ _ => rfl, by simp⟩
  | cons binding bindings ih =>
      rw [List.foldlM_cons, bind_eq_ok] at starts
      obtain ⟨next, binds, starts⟩ := starts
      rw [bindTake, bind_eq_ok] at binds
      obtain ⟨value, taken, binds⟩ := binds
      obtain rfl := Except.ok.inj binds
      have tail : ∀ one ∈ bindings, ∀ other ∈ bindings, one.name = other.name → one = other :=
        fun one inOne other inOther =>
          agree one (List.mem_cons_of_mem _ inOne) other (List.mem_cons_of_mem _ inOther)
      obtain ⟨kept, bound⟩ := ih tail starts
      refine ⟨fun name absent => ?_, fun other member => ?_⟩
      · rw [List.map_cons, List.mem_cons, not_or] at absent
        rw [kept name absent.2]
        exact (Environment.get_set _ _ _ _).trans (if_neg absent.1)
      · by_cases later : other.name ∈ bindings.map (·.name)
        · obtain ⟨same, inside, named⟩ := List.mem_map.mp later
          obtain rfl := agree same (List.mem_cons_of_mem _ inside) other member named
          exact bound same inside
        · rcases List.mem_cons.mp member with rfl | inside
          · refine ⟨value, taken, ?_⟩
            rw [kept _ later]
            exact (Environment.get_set _ _ _ _).trans (if_pos rfl)
          · exact absurd (List.mem_map.mpr ⟨other, inside, rfl⟩) later

theorem takeChecked_of_takeValue {binding : TakeBinding} {name : String}
    {schema : SchemaDefinition} {value : Value} (bound : binding.schema = some name)
    (resolves : Resolves project runtime moduleId name schema)
    (kind : binding.kind ≠ .form ∧ binding.kind ≠ .raw)
    (taken : takeValue server runtime moduleId request binding = .ok value) :
    TakeChecked server project runtime moduleId request binding.kind name value := by
  refine ⟨schema, resolves, ?_⟩
  simp only [takeValue, bound, Option.bind_some, resolves.2] at taken
  cases known : binding.kind with
  | payload | query | headers =>
      rw [known] at taken
      exact mapError_eq_ok.mp taken
  | form => exact absurd known kind.1
  | raw => exact absurd known kind.2

/-- No schema is bound to a form or to the raw body. -/
theorem kind_of_validateTakeBinding {schemas : Schemas} {binding : TakeBinding} {name : String}
    (passes : validateTakeBinding schemas binding = .ok ()) (bound : binding.schema = some name) :
    binding.kind ≠ .form ∧ binding.kind ≠ .raw := by
  rw [validateTakeBinding, bound] at passes
  constructor
  · intro kind
    simp [kind] at passes
  · intro kind
    simp [kind] at passes

end Routes

section

variable {context : LoadContext} {project : ProjectFiles} {loaded : LoadedProject}

/-- For a request that reaches the body of its route. -/
theorem routeEnforced_iff (loads : loadProject context project = .ok loaded)
    (server : ServerContext) (env : ValueMap) {route : RouteDefinition}
    (member : route ∈ loaded.routes) (agree : route.TakesAgree) {request : RouteRequest}
    {start : Interpreter}
    (starts : startRoute server (loaded.served env) route request = .ok start) :
    RouteEnforced server project (loaded.served env) route request start ↔
      ∀ binding ∈ route.take, ∀ name, binding.schema = some name →
        project.Sees route.moduleId name := by
  obtain ⟨merged, -, loads⟩ := loads_of_loadProject loads
  have inMerged : route ∈ merged.routes := loads.routes ▸ member
  obtain ⟨entry, inFiles, inFile⟩ := List.mem_flatMap.mp (loads.merges.routes ▸ inMerged)
  have owner := SourceFile.moduleId_of_mem_routes inFile
  constructor
  · intro enforced binding inTake name bound
    obtain ⟨value, -, schema, ⟨visible, -⟩, -⟩ := enforced binding inTake name bound
    exact List.mem_map.mpr ⟨_, visible, rfl⟩
  · intro sees binding inTake name bound
    have visible := sees binding inTake name bound
    rw [owner] at visible
    obtain ⟨schema, resolved⟩ := loads.resolves_of_sees inFiles visible
    have resolves : Resolves project (loaded.served env) route.moduleId name schema := by
      rw [Resolves, resolveSchema_served, owner]
      exact ⟨loads.mem_visibleIn inFiles resolved, resolved⟩
    have checks := loads.checked
    simp only [MergedModules.check, bind_eq_ok] at checks
    obtain ⟨⟨⟩, -, ⟨⟩, -, ⟨⟩, -, ⟨⟩, takes, -⟩ := checks
    have passes := forM_eq_ok.mp (forM_eq_ok.mp takes route inMerged) binding inTake
    simp only [startRoute, bind_eq_ok] at starts
    obtain ⟨auth, -, state, -, starts⟩ := starts
    obtain ⟨value, taken, found⟩ := (foldlM_bindTake agree starts).2 binding inTake
    exact ⟨value, found, takeChecked_of_takeValue bound resolves
      (kind_of_validateTakeBinding passes bound) taken⟩

/-! ## Consumers -/

/-- The validator returns objects, or null. -/
theorem ne_string_of_coercePayload {formats : ValueFormats} {payload value : Value}
    {schema : SchemaDefinition} {schemas : Schemas}
    (checked : coercePayload formats payload schema schemas = .ok value) (text : String) :
    value ≠ .string text := by
  rintro rfl
  unfold coercePayload at checked
  cases payload with
  | map entries =>
      change (_ >>= fun out => Except.ok (Value.map out)) = _ at checked
      obtain ⟨out, -, same⟩ := bind_eq_ok.mp checked
      cases same
  | null =>
      change Validator.coerceNull formats schema "" = _ at checked
      unfold Validator.coerceNull at checked
      split at checked <;> cases checked
  | _ => cases checked

/-- For a delivery that reaches the body of its consumer. -/
theorem consumerEnforced_iff (loads : loadProject context project = .ok loaded)
    (server : ServerContext) (env : ValueMap) {consumer : ConsumerDefinition}
    (member : consumer ∈ loaded.consumers) {queueName : String} {delivery : Delivery}
    {start : Interpreter}
    (starts : startConsumer server (loaded.served env) consumer queueName delivery = .ok start) :
    ConsumerEnforced server project (loaded.served env) consumer delivery start ↔
      ∀ name, consumer.schema = some name →
        project.Sees consumer.moduleId name ∧ consumer.binding ≠ "message_topic" := by
  obtain ⟨merged, -, loads⟩ := loads_of_loadProject loads
  have inMerged : consumer ∈ merged.consumers := loads.consumers ▸ member
  obtain ⟨entry, inFiles, inFile⟩ := List.mem_flatMap.mp (loads.merges.consumers ▸ inMerged)
  have owner := SourceFile.moduleId_of_mem_consumers inFile
  rw [startConsumer, bind_eq_ok] at starts
  obtain ⟨payload, delivered, starts⟩ := starts
  have bound : start.env.get consumer.binding =
      if consumer.binding = "message_topic" then some (.string delivery.routingKey)
      else some payload := by
    rw [← Except.ok.inj starts]
    simp only [Interpreter.envSet, Environment.get_set, if_true]
  constructor
  · intro enforced name named
    obtain ⟨value, found, schema, ⟨visible, -⟩, checked⟩ := enforced name named
    refine ⟨List.mem_map.mpr ⟨_, visible, rfl⟩, fun clash => ?_⟩
    rw [bound, if_pos clash, Option.some.injEq] at found
    exact ne_string_of_coercePayload checked delivery.routingKey found.symm
  · intro sees name named
    obtain ⟨visible, differs⟩ := sees name named
    rw [owner] at visible
    obtain ⟨schema, resolved⟩ := loads.resolves_of_sees inFiles visible
    have resolves : Resolves project (loaded.served env) consumer.moduleId name schema := by
      rw [Resolves, resolveSchema_served, owner]
      exact ⟨loads.mem_visibleIn inFiles resolved, resolved⟩
    refine ⟨payload, by rw [bound, if_neg differs], schema, resolves, ?_⟩
    simp only [deliveredValue, named, Option.bind_some, resolves.2] at delivered
    exact mapError_eq_ok.mp delivered

end

/-! ## Projects -/

/-- The inputs of a served project are checked exactly where the handler's file
sees the schema it names.  The binding of a consumer is set before the topic, so
it must not have that name. -/
theorem inputsEnforced_iff {context : LoadContext} {project : ProjectFiles}
    {loaded : LoadedProject} (loads : loadProject context project = .ok loaded)
    (server : ServerContext) (env : ValueMap) :
    (∀ route ∈ loaded.routes, route.TakesAgree → ∀ request start,
      startRoute server (loaded.served env) route request = .ok start →
        (RouteEnforced server project (loaded.served env) route request start ↔
          ∀ binding ∈ route.take, ∀ name, binding.schema = some name →
            project.Sees route.moduleId name)) ∧
    ∀ consumer ∈ loaded.consumers, ∀ queueName delivery start,
      startConsumer server (loaded.served env) consumer queueName delivery = .ok start →
        (ConsumerEnforced server project (loaded.served env) consumer delivery start ↔
          ∀ name, consumer.schema = some name →
            project.Sees consumer.moduleId name ∧ consumer.binding ≠ "message_topic") :=
  ⟨fun _ member agree _ _ starts => routeEnforced_iff loads server env member agree starts,
    fun _ member _ _ _ starts => consumerEnforced_iff loads server env member starts⟩

/-! ## Two projects -/

/-- The bytes of `{"sku":"a1"}`. -/
def orderBody : List UInt8 :=
  [123, 34, 115, 107, 117, 34, 58, 34, 97, 49, 34, 125]

def orderPayload : Value :=
  .map [("sku", .string "a1")]

/-- A server that reads one body. -/
def orderServer : ServerContext where
  host := { emptyHost with hasDb := false }
  depth := 20
  formats :=
    { parseDecimal := fun _ => none, parseInstant := fun _ => none, parseDate := fun _ => none
      parseTime := fun _ => none, jsonString := fun text => "\"" ++ text ++ "\"" }
  readJson body := if body = orderBody then some orderPayload else none
  readPairs _ := none
  decodeLossy _ := ""
  authenticate _ _ := none

def orderRequest : RouteRequest where
  urlParams := []
  queryParams := []
  rawQuery := none
  headers := []
  body := orderBody

/-- A route that takes a schema of the entrypoint. -/
def checkedOrders : ProjectFiles where
  files :=
    [{ path := "orders.marreta", moduleId := "orders"
       source := "route POST \"/orders\" take payload as Order\n    reply 201, payload\n".toList }]
  entrypoint := namedEntrypoint "schema Order\n    sku: string\n"
  distinct := by decide

/-- The same route, with the schema in a file that does not export it. -/
def uncheckedOrders : ProjectFiles where
  files :=
    [{ path := "models.marreta", moduleId := "models"
       source := "schema Order\n    sku: integer\n".toList },
      { path := "orders.marreta", moduleId := "orders"
        source :=
          "route POST \"/orders\" take payload as Order\n    reply 201, payload\n".toList }]
  entrypoint := namedEntrypoint ""
  distinct := by decide

/-- A route, with the schema that its file resolves. -/
structure OrderRoute where
  auth : Option RouteAuth
  take : List TakeBinding
  moduleId : Option String
  schema : Option SchemaDefinition
deriving DecidableEq

def orderRoute (loaded : LoadedProject) : Option OrderRoute :=
  loaded.routes.head?.map fun route =>
    { auth := route.auth, take := route.take, moduleId := route.moduleId
      schema := loaded.runtime.resolveSchema (some "orders") "Order" }

def orderBinding : TakeBinding :=
  { kind := .payload, name := "payload", schema := some "Order" }

theorem exists_of_orderRoute {loaded : LoadedProject} {schema : Option SchemaDefinition}
    (seen : orderRoute loaded =
      some { auth := none, take := [orderBinding], moduleId := some "orders", schema }) :
    loaded.runtime.resolveSchema (some "orders") "Order" = schema ∧
      ∃ route ∈ loaded.routes, route.auth = none ∧ route.take = [orderBinding] ∧
        route.moduleId = some "orders" := by
  simp only [orderRoute, Option.map_eq_some_iff, OrderRoute.mk.injEq] at seen
  obtain ⟨route, first, auth, take, owner, resolved⟩ := seen
  exact ⟨resolved, route, List.mem_of_mem_head? first, auth, take, owner⟩

theorem startRoute_of_takeValue {runtime : ProjectRuntime} {route : RouteDefinition}
    {binding : TakeBinding} {value : Value} (anyone : route.auth = none)
    (single : route.take = [binding])
    (taken : takeValue orderServer runtime route.moduleId orderRequest binding = .ok value) :
    ∃ start, startRoute orderServer runtime route orderRequest = .ok start := by
  simp [startRoute, authenticateRoute, anyone, authorizeRoute, single, bindTake, taken, bind,
    Except.bind, pure, Except.pure]

theorem checkedOrders_enforced :
    ∃ loaded, loadProject plainContext checkedOrders = .ok loaded ∧
      ∃ route ∈ loaded.routes, ∃ start,
        startRoute orderServer (loaded.served []) route orderRequest = .ok start ∧
        RouteEnforced orderServer checkedOrders (loaded.served []) route orderRequest start := by
  obtain ⟨loaded, loads, seen⟩ := @ProjectFiles.exists_loaded plainContext checkedOrders _
    (fun project loaded => (orderRoute loaded, decide (project.Sees (some "orders") "Order")))
    (some { auth := none, take := [orderBinding], moduleId := some "orders"
            schema := some { dbTable := none, fields := [⟨"sku", .stringType, false⟩] } }, true)
    _ _ (.cons String.toList_ofList .nil)
    (toList_append_spelled String.toList_ofList String.toList_ofList) (by decide +kernel)
  obtain ⟨resolved, route, member, anyone, single, owner⟩ := exists_of_orderRoute (Prod.mk.inj seen).1
  have agree : route.TakesAgree := by
    rw [RouteDefinition.TakesAgree, single]
    decide
  have taken : takeValue orderServer (loaded.served []) route.moduleId orderRequest orderBinding =
      .ok orderPayload := by
    rw [owner]
    simp only [takeValue, orderBinding, Option.bind_some, resolveSchema_served, resolved]
    rfl
  obtain ⟨start, starts⟩ := startRoute_of_takeValue anyone single taken
  refine ⟨loaded, loads, route, member, start, starts, ?_⟩
  refine ((inputsEnforced_iff loads orderServer []).1 route member agree _ _ starts).mpr ?_
  rw [single, owner]
  intro binding inTake name bound
  rw [List.mem_singleton.mp inTake, orderBinding, Option.some.injEq] at bound
  rw [← bound]
  exact of_decide_eq_true (Prod.mk.inj seen).2

/-- The schema is private to the other file, so the payload is not checked
against anything. -/
theorem uncheckedOrders_not_enforced :
    ∃ loaded, loadProject plainContext uncheckedOrders = .ok loaded ∧
      ∃ route ∈ loaded.routes, ∃ start,
        startRoute orderServer (loaded.served []) route orderRequest = .ok start ∧
        ¬ RouteEnforced orderServer uncheckedOrders (loaded.served []) route orderRequest
          start := by
  obtain ⟨loaded, loads, seen⟩ := @ProjectFiles.exists_loaded plainContext uncheckedOrders _
    (fun _ => orderRoute)
    (some { auth := none, take := [orderBinding], moduleId := some "orders", schema := none }) _ _
    (.cons String.toList_ofList (.cons String.toList_ofList .nil))
    (toList_append_spelled String.toList_ofList String.toList_ofList) (by decide +kernel)
  obtain ⟨resolved, route, member, anyone, single, owner⟩ := exists_of_orderRoute seen
  have taken : takeValue orderServer (loaded.served []) route.moduleId orderRequest orderBinding =
      .ok orderPayload := by
    rw [owner]
    simp only [takeValue, orderBinding, Option.bind_some, resolveSchema_served, resolved]
    rfl
  obtain ⟨start, starts⟩ := startRoute_of_takeValue anyone single taken
  refine ⟨loaded, loads, route, member, start, starts, fun enforced => ?_⟩
  obtain ⟨value, -, schema, ⟨-, resolves⟩, -⟩ :=
    enforced orderBinding (by rw [single]; exact List.mem_cons_self) "Order" rfl
  rw [owner, resolveSchema_served, resolved] at resolves
  cases resolves

end Marreta
