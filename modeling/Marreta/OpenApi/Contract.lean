import Marreta.OpenApi.Components
import Marreta.Runtime.Json
import Marreta.Schema.Soundness
import Marreta.Server.InputSchemas

namespace Marreta

open Foundation

/-! The published contract and the validator.

A document that is valid under the component of a route should be accepted by the route.
Component and validator are two readings of the same schema. -/

namespace OpenApi

/-! ## Valid documents -/

section Valid

variable (components : Components) (formats : ValueFormats)

/-- The type of a document.  An integer is written without fraction and exponent.  A
format stands for the encodings of its type. -/
def TypeHolds : ApiType → Option ApiFormat → Json → Prop
  | .string, none, .string _ => True
  | .string, some .decimal, .string text =>
      'e' ∉ text.toList ∧ 'E' ∉ text.toList ∧ (formats.parseDecimal text).isSome = true
  | .string, some .dateTime, .string text => (formats.parseInstant text).isSome = true
  | .string, some .date, .string text => (formats.parseDate text).isSome = true
  | .string, some .time, .string text => (formats.parseTime text).isSome = true
  | .string, some .duration, .string text =>
      ∃ millis, Validator.parseDurationString text = some millis ∧ millis ≠ Int64.minValue
  | .integer, some .int64, .number number => number.asInt64.isSome = true
  | .number, _, .number _ => True
  | .boolean, _, .bool _ => True
  | .array, _, .array _ => True
  | .object, _, .object _ => True
  | _, _, _ => False

mutual
inductive Valid : ApiSchema → Json → Prop where
  | typed {type : ApiType} {format : Option ApiFormat} {document : Json}
      (holds : TypeHolds formats type format document) : Valid (.typed type format) document
  | enumeration {values : List String} {text : String} (member : text ∈ values) :
      Valid (.enumeration values) (.string text)
  | items {element : ApiSchema} {items : List Json} (all : ∀ item ∈ items, Valid element item) :
      Valid (.items element) (.array items)
  | interval {entries : List (String × Json)}
      (ends : ∀ key ∈ ["start", "end"], ∃ text, entries.lookup key = some (.string text)) :
      Valid .interval (.object entries)
  | ref {name : String} {object : ApiObject} {document : Json}
      (found : components.lookup name = some object) (valid : ValidObject object document) :
      Valid (.ref name) document

inductive ValidObject : ApiObject → Json → Prop where
  | object {object : ApiObject} {entries : List (String × Json)}
      (required : ∀ name ∈ object.required, ∃ value, entries.lookup name = some value)
      (properties : ∀ name schema, object.properties.lookup name = some schema →
        ∀ value, entries.lookup name = some value → Valid schema value) :
      ValidObject object (.object entries)
end

end Valid

/-! ## Whole numbers -/

mutual
/-- A whole number stands where a float is declared. -/
inductive WholeFloat (schemas : Schemas) : SchemaType → Json → Prop where
  | number {number : JsonNumber} (whole : number.asInt64.isSome = true) :
      WholeFloat schemas .floatType (.number number)
  | embedded {name : String} {schema : SchemaDefinition} {document : Json}
      (found : schemas.lookup name = some schema) (plain : schema.dbTable = none)
      (inside : WholeFloatIn schemas schema document) :
      WholeFloat schemas (.reference name) document
  | item {element : SchemaType} {items : List Json} {item : Json} (member : item ∈ items)
      (inside : WholeFloat schemas element item) :
      WholeFloat schemas (.typedList element) (.array items)

inductive WholeFloatIn (schemas : Schemas) : SchemaDefinition → Json → Prop where
  | field {schema : SchemaDefinition} {entries : List (String × Json)} {field : SchemaField}
      {document : Json} (member : field ∈ schema.fields)
      (found : entries.lookup field.name = some document)
      (inside : WholeFloat schemas field.fieldType document) :
      WholeFloatIn schemas schema (.object entries)
end

/-! ## Schemas with one meaning -/

/-- A type without an interval. -/
def isPointwise : SchemaType → Bool
  | .intervalType => false
  | .typedList element => isPointwise element
  | _ => true

/-- No schema that the root leads to has an interval. -/
def NoInterval (schemas : Schemas) (root : String) : Prop :=
  ∀ length name schema, EmbedChain schemas length root name → schemas.lookup name = some schema →
    ∀ field ∈ schema.fields, isPointwise field.fieldType = true

/-- Every name that the root leads to is published as the module sees it. -/
structure OneMeaning (runtime : ProjectRuntime) (routes : List RouteDefinition)
    (schemas : Schemas) (root : String) : Prop where
  outer : ∀ definition, Published runtime routes root definition →
    ∃ own, schemas.lookup root = some own ∧
      schemaDefinitionToOpenapi own = schemaDefinitionToOpenapi definition
  inner : ∀ length name schema, EmbedChain schemas length root name →
    schemas.lookup name = some schema → ∀ next ∈ schema.references, ∀ definition,
      Published runtime routes next definition →
        ∃ own, schemas.lookup next = some own ∧ (own.dbTable = none →
          schemaDefinitionToOpenapi own = schemaDefinitionToOpenapi definition)

/-! ## Documents as values -/

theorem get?_entriesToValues (entries : List (String × Json)) (name : String) :
    ValueMap.get? (Json.entriesToValues entries) name = (entries.lookup name).map Json.toValue := by
  rw [ValueMap.get?, Json.entriesToValues_eq]
  exact Table.lookup_map entries Json.toValue name

section Verdict

variable {components : Components} {formats : ValueFormats} {schemas : Schemas}

/-- A valid document is never null. -/
theorem toValue_ne_null {schema : ApiSchema} {document : Json}
    (valid : Valid components formats schema document) : document.toValue ≠ .null := by
  cases valid with
  | typed holds =>
      intro same
      cases document with
      | null => cases ‹ApiType› <;> simp [TypeHolds] at holds
      | number number =>
          rw [Json.toValue, JsonNumber.toValue] at same
          split at same <;> cases same
      | _ => cases same
  | enumeration member => nofun
  | items all => nofun
  | interval ends => nofun
  | ref found valid =>
      cases valid
      nofun

/-- What the validator makes of a part of a valid document. -/
structure Verdict (fits overflows whole : Prop) : Prop where
  fits_iff : fits ↔ ¬ whole
  safe : ¬ overflows

theorem fits_scalar {leaf : SchemaType → Value → Prop} {type : SchemaType}
    (single : type.isNested = false) {value : Value} :
    Fits schemas leaf type value ↔ leaf type value := by
  constructor
  · intro holds
    cases holds with
    | scalar _ fits => exact fits
    | relation _ _ => cases single
    | embedded _ _ _ => cases single
    | list _ => cases single
  · exact fun holds => .scalar single holds

/-- Scalars other than floats are published as the validator reads them. -/
theorem encodes_of_valid {type : SchemaType} (single : type.isNested = false)
    (pointwise : isPointwise type = true) (other : type ≠ .floatType) {document : Json}
    (valid : Valid components formats (schemaTypeToOpenapi type) document) :
    Encodes formats type document.toValue ∧
      (type = .durationType →
        Validator.durationMillis document.toValue ≠ some Int64.minValue) := by
  cases type with
  | floatType => exact absurd rfl other
  | intervalType => cases pointwise
  | reference name => cases single
  | typedList element => cases single
  | enumType values =>
      cases valid with
      | enumeration member => exact ⟨member, nofun⟩
  | integerType =>
      cases valid with
      | typed holds =>
          cases document with
          | number number =>
              obtain ⟨whole, known⟩ := Option.isSome_iff_exists.mp holds
              refine ⟨?_, nofun⟩
              rw [Json.toValue, JsonNumber.toValue, known]
              rfl
          | _ => cases holds
  | durationType =>
      cases valid with
      | typed holds =>
          cases document with
          | string text =>
              obtain ⟨millis, read, long⟩ := holds
              have known : Validator.durationMillis (.string text) = some millis := read
              refine ⟨?_, fun _ => ?_⟩
              · show (Validator.durationMillis (.string text)).isSome = true
                rw [known]
                rfl
              · show Validator.durationMillis (.string text) ≠ _
                rw [known]
                exact fun same => long (Option.some.inj same)
          | _ => cases holds
  | _ =>
      cases valid with
      | typed holds =>
          cases document <;> first | exact ⟨holds, nofun⟩ | exact ⟨rfl, nofun⟩ | cases holds

theorem encodes_float {document : Json}
    (valid : Valid components formats (schemaTypeToOpenapi .floatType) document) :
    Encodes formats .floatType document.toValue ↔ ¬ WholeFloat schemas .floatType document := by
  cases valid with
  | typed holds =>
      cases document with
      | number number =>
          have read : Encodes formats .floatType (Json.toValue (.number number)) ↔
              number.asInt64 = none := by
            rw [Json.toValue, JsonNumber.toValue]
            cases number.asInt64 with
            | none => exact iff_of_true rfl rfl
            | some whole => exact iff_of_false nofun nofun
          rw [read]
          constructor
          · intro none whole
            cases whole with
            | number whole =>
                rw [none] at whole
                cases whole
          · intro fraction
            by_contra known
            exact fraction (.number (Option.isSome_iff_ne_none.mpr known))
      | _ => cases holds

theorem verdict_scalar {type : SchemaType} (single : type.isNested = false)
    (pointwise : isPointwise type = true) {document : Json}
    (valid : Valid components formats (schemaTypeToOpenapi type) document) :
    Verdict (Fits schemas (Encodes formats) type document.toValue)
      (Overflows formats schemas type document.toValue) (WholeFloat schemas type document) := by
  by_cases float : type = .floatType
  · subst float
    refine ⟨(fits_scalar single).trans (encodes_float valid), ?_⟩
    generalize document.toValue = value
    nofun
  · obtain ⟨encodes, short⟩ := encodes_of_valid single pointwise float valid
    refine ⟨iff_of_true ((fits_scalar single).mpr encodes) ?_, ?_⟩
    · intro whole
      cases whole with
      | number _ => exact float rfl
      | embedded _ _ _ => cases single
      | item _ _ => cases single
    · generalize document.toValue = value at short
      intro spills
      cases spills with
      | duration least => exact short rfl least
      | embedded _ _ _ => cases single
      | list _ _ _ => cases single

/-! ## Lists and references -/

theorem verdict_list {element : SchemaType}
    (each : ∀ document, Valid components formats (schemaTypeToOpenapi element) document →
      Verdict (Fits schemas (Encodes formats) element document.toValue)
        (Overflows formats schemas element document.toValue) (WholeFloat schemas element document))
    {document : Json}
    (valid : Valid components formats (schemaTypeToOpenapi (.typedList element)) document) :
    Verdict (Fits schemas (Encodes formats) (.typedList element) document.toValue)
      (Overflows formats schemas (.typedList element) document.toValue)
      (WholeFloat schemas (.typedList element) document) := by
  cases valid with
  | @items _ items all =>
      rw [Json.toValue, Json.itemsToValues_eq]
      refine ⟨⟨?_, ?_⟩, ?_⟩
      · rintro (⟨single, -⟩ | _ | _ | fits) (_ | _ | ⟨member, inside⟩)
        · cases single
        · have item := fits _ (List.mem_map_of_mem member)
          exact (each _ (all _ member)).fits_iff.mp item inside
      · intro fraction
        refine .list fun value member => ?_
        obtain ⟨item, inside, rfl⟩ := List.mem_map.mp member
        exact (each item (all item inside)).fits_iff.mpr fun whole =>
          fraction (.item inside whole)
      · intro spills
        cases spills with
        | @list _ _ before after value parts earlier inside =>
            have member : value ∈ items.map Json.toValue := by
              rw [parts]
              exact List.mem_append_right _ List.mem_cons_self
            obtain ⟨item, inItems, rfl⟩ := List.mem_map.mp member
            exact (each item (all item inItems)).safe inside

/-- A reference is as good as what it refers to, and a relation always passes. -/
theorem verdict_reference {name : String} {own : SchemaDefinition}
    (found : schemas.lookup name = some own) {document : Json}
    (inner : own.dbTable = none →
      Verdict (FitsSchema schemas (Encodes formats) own document.toValue)
        (SchemaOverflows formats schemas own document.toValue)
        (WholeFloatIn schemas own document)) :
    Verdict (Fits schemas (Encodes formats) (.reference name) document.toValue)
      (Overflows formats schemas (.reference name) document.toValue)
      (WholeFloat schemas (.reference name) document) := by
  by_cases plain : own.dbTable = none
  · obtain ⟨fits_iff, safe⟩ := inner plain
    generalize document.toValue = value at fits_iff safe
    refine ⟨⟨?_, ?_⟩, ?_⟩
    · rintro (⟨single, -⟩ | ⟨known, stored⟩ | ⟨known, -, fits⟩) (_ | ⟨known', -, inside⟩)
      · cases single
      · obtain rfl := Option.some.inj (found.symm.trans known)
        simp [plain] at stored
      · obtain rfl := Option.some.inj (found.symm.trans known)
        obtain rfl := Option.some.inj (found.symm.trans known')
        exact fits_iff.mp fits inside
    · intro fraction
      exact .embedded found plain (fits_iff.mpr fun whole => fraction (.embedded found plain whole))
    · intro spills
      cases spills with
      | embedded known _ inside =>
          obtain rfl := Option.some.inj (found.symm.trans known)
          exact safe inside
  · have stored : own.dbTable.isSome = true := Option.isSome_iff_ne_none.mpr plain
    refine ⟨iff_of_true (.relation found stored) ?_, ?_⟩
    · intro whole
      cases whole with
      | embedded known none _ =>
          obtain rfl := Option.some.inj (found.symm.trans known)
          exact plain none
    · generalize document.toValue = value
      intro spills
      cases spills with
      | embedded known none _ =>
          obtain rfl := Option.some.inj (found.symm.trans known)
          exact plain none

/-! ## Objects -/

theorem properties_lookup {schema : SchemaDefinition}
    (distinct : (schema.fields.map (·.name)).Nodup) {field : SchemaField}
    (member : field ∈ schema.fields) :
    (schemaDefinitionToOpenapi schema).properties.lookup field.name =
      some (schemaTypeToOpenapi field.fieldType) := by
  apply Table.lookup_putAll_of_mem
  · exact List.mem_map.mpr ⟨field, member, rfl⟩
  · intro other inside
    obtain ⟨twin, found, same⟩ := List.mem_map.mp inside
    obtain ⟨name, rfl⟩ := Prod.mk.inj same
    rw [List.inj_on_of_nodup_map distinct found member name]

theorem verdict_object {schema : SchemaDefinition}
    (distinct : (schema.fields.map (·.name)).Nodup)
    (each : ∀ field ∈ schema.fields, ∀ document,
      Valid components formats (schemaTypeToOpenapi field.fieldType) document →
        Verdict (Fits schemas (Encodes formats) field.fieldType document.toValue)
          (Overflows formats schemas field.fieldType document.toValue)
          (WholeFloat schemas field.fieldType document))
    {document : Json}
    (valid : ValidObject components formats (schemaDefinitionToOpenapi schema) document) :
    Verdict (FitsSchema schemas (Encodes formats) schema document.toValue)
      (SchemaOverflows formats schemas schema document.toValue)
      (WholeFloatIn schemas schema document) := by
  cases valid with
  | @object _ entries required properties =>
      have judged : ∀ field ∈ schema.fields, ∀ value, entries.lookup field.name = some value →
          _ := fun field member value found =>
        each field member value (properties _ _ (properties_lookup distinct member) value found)
      rw [Json.toValue]
      refine ⟨⟨?_, ?_⟩, ?_⟩
      · intro fits whole
        cases whole with
        | @field _ _ field document member found inside =>
            have present := (fitsSchema_map.mp fits field member).2 document.toValue (by
              rw [get?_entriesToValues, found]
              rfl)
            have valid := properties _ _ (properties_lookup distinct member) document found
            exact (judged field member document found).fits_iff.mp
              (present (toValue_ne_null valid)) inside
      · intro fraction
        refine fitsSchema_map.mpr fun field member => ⟨fun needed => ?_, ?_⟩
        · have listed : field.name ∈ (schemaDefinitionToOpenapi schema).required :=
            List.mem_map.mpr ⟨field, List.mem_filter.mpr ⟨member, by simp [needed]⟩, rfl⟩
          obtain ⟨value, found⟩ := required _ listed
          have valid := properties _ _ (properties_lookup distinct member) value found
          refine ⟨value.toValue, ?_, toValue_ne_null valid⟩
          rw [get?_entriesToValues, found]
          rfl
        · intro value found _
          rw [get?_entriesToValues, Option.map_eq_some_iff] at found
          obtain ⟨document, found, rfl⟩ := found
          exact (judged field member document found).fits_iff.mpr fun whole =>
            fraction (.field member found whole)
      · intro spills
        cases spills with
        | @object _ _ before after field value parts earlier found inside =>
            have member : field ∈ schema.fields := by
              rw [parts]
              exact List.mem_append_right _ List.mem_cons_self
            rw [get?_entriesToValues, Option.map_eq_some_iff] at found
            obtain ⟨document, found, rfl⟩ := found
            exact (judged field member document found).safe inside

end Verdict

/-! ## Whole documents -/

section Documents

variable {runtime : ProjectRuntime} {routes : List RouteDefinition} {schemas : Schemas}
  {components : Components}
  {formats : ValueFormats} {root : String}

theorem verdict_type (one : OneMeaning runtime routes schemas root)
    (published : ∀ name object, components.lookup name = some object → ∃ definition,
      Published runtime routes name definition ∧
        object = schemaDefinitionToOpenapi definition)
    {length : Nat} {name : String} {schema : SchemaDefinition}
    (chain : EmbedChain schemas length root name) (found : schemas.lookup name = some schema)
    (inner : ∀ next own, EmbedLink schemas name next → schemas.lookup next = some own →
      ∀ document, ValidObject components formats (schemaDefinitionToOpenapi own) document →
        Verdict (FitsSchema schemas (Encodes formats) own document.toValue)
          (SchemaOverflows formats schemas own document.toValue)
          (WholeFloatIn schemas own document))
    {type : SchemaType} (refers : ∀ next ∈ type.references, next ∈ schema.references)
    (pointwise : isPointwise type = true) {document : Json}
    (valid : Valid components formats (schemaTypeToOpenapi type) document) :
    Verdict (Fits schemas (Encodes formats) type document.toValue)
      (Overflows formats schemas type document.toValue) (WholeFloat schemas type document) := by
  induction type generalizing document with
  | reference next =>
      cases valid with
      | ref known valid =>
          have mentioned := refers next List.mem_cons_self
          obtain ⟨definition, origin, rfl⟩ := published next _ known
          obtain ⟨own, visible, same⟩ :=
            one.inner length name schema chain found next mentioned definition origin
          refine verdict_reference visible fun plain => ?_
          rw [← same plain] at valid
          exact inner next own ⟨schema, own, found, mentioned, visible, plain⟩ visible document valid
  | typedList element ih =>
      exact verdict_list (fun document valid => ih refers pointwise valid) valid
  | _ => exact verdict_scalar rfl pointwise valid

/-- What the validator makes of a valid document. -/
theorem verdict_document (below : Below schemas root) (pointwise : NoInterval schemas root)
    (one : OneMeaning runtime routes schemas root)
    (published : ∀ name object, components.lookup name = some object → ∃ definition,
      Published runtime routes name definition ∧
        object = schemaDefinitionToOpenapi definition)
    {remaining length : Nat} {name : String} {schema : SchemaDefinition}
    (chain : EmbedChain schemas length root name) (found : schemas.lookup name = some schema)
    (deep : length + remaining = maxDepth + 1) {document : Json}
    (valid : ValidObject components formats (schemaDefinitionToOpenapi schema) document) :
    Verdict (FitsSchema schemas (Encodes formats) schema document.toValue)
      (SchemaOverflows formats schemas schema document.toValue)
      (WholeFloatIn schemas schema document) := by
  -- The chains from the root are bounded, so the depth that remains goes down.
  induction remaining generalizing length name schema document with
  | zero =>
      have short := below.short length name chain
      omega
  | succ remaining ih =>
      refine verdict_object (below.fields length name schema chain found) ?_ valid
      intro field member document valid
      refine verdict_type one published chain found ?_
        (fun next refers => Validator.mem_references member refers)
        (pointwise length name schema chain found field member) valid
      intro next own link visible document valid
      exact ih (.tail chain link) visible (by omega) valid

end Documents

theorem resolveSchema_of_visible {runtime : ProjectRuntime} {moduleId : Option String}
    {name : String} {schema : SchemaDefinition}
    (visible : (runtime.visibleSchemasFor moduleId).lookup name = some schema) :
    runtime.resolveSchema moduleId name = some schema := by
  rw [ProjectRuntime.visibleSchemasFor] at visible
  cases found : runtime.module? moduleId with
  | some module =>
      rw [found] at visible
      simp [ProjectRuntime.resolveSchema, found, visible]
  | none =>
      rw [found] at visible
      simp [ProjectRuntime.resolveSchema, found, visible]

theorem published_of_components {runtime : ProjectRuntime} {routes : List RouteDefinition}
    {name : String} {object : ApiObject}
    (found : (buildComponentSchemas runtime routes runtime.publicSchemas).lookup name =
      some object) :
    ∃ definition, Published runtime routes name definition ∧
      object = schemaDefinitionToOpenapi definition := by
  rw [buildComponentSchemas, Table.lookup_map, Option.map_eq_some_iff] at found
  obtain ⟨definition, found, rfl⟩ := found
  exact ⟨definition, published_of_lookup found, rfl⟩

/-- The document is valid for the body of a request to the route. -/
def ValidBody (components : Components) (formats : ValueFormats) (route : RouteDefinition)
    (document : Json) : Prop :=
  ∃ name, requestBodySchema components route = some name ∧
    Valid components formats (.ref name) document

/-- A route whose schemas have one meaning accepts a document that is valid under its
component if and only if the document has no whole number where a float is declared. -/
theorem accepts_iff {context : LoadContext} {project : ProjectFiles} {loaded : LoadedProject}
    (loads : loadProject context project = .ok loaded) (route : RouteDefinition) {name : String}
    (body : requestBodySchema (buildComponentSchemas loaded.runtime loaded.routes loaded.schemas)
      route = some name)
    (one : OneMeaning loaded.runtime loaded.routes
      (loaded.runtime.visibleSchemasFor route.moduleId) name)
    (below : Below (loaded.runtime.visibleSchemasFor route.moduleId) name)
    (pointwise : NoInterval (loaded.runtime.visibleSchemasFor route.moduleId) name)
    (formats : ValueFormats) (document : Json)
    (valid : ValidBody (buildComponentSchemas loaded.runtime loaded.routes loaded.schemas) formats
      route document) :
    ∃ schema, loaded.runtime.resolveSchema route.moduleId name = some schema ∧
      ((∃ result, coercePayload formats document.toValue schema
        (loaded.runtime.visibleSchemasFor route.moduleId) = .ok result) ↔
        ¬ WholeFloatIn (loaded.runtime.visibleSchemasFor route.moduleId) schema document) := by
  rw [schemas_of_loadProject loads] at body valid
  obtain ⟨_, same, valid⟩ := valid
  obtain rfl := Option.some.inj (body.symm.trans same)
  cases valid with
  | ref found valid =>
      obtain ⟨definition, origin, rfl⟩ := published_of_components found
      obtain ⟨own, visible, shown⟩ := one.outer definition origin
      rw [← shown] at valid
      refine ⟨own, resolveSchema_of_visible visible, ?_⟩
      obtain ⟨fits_iff, safe⟩ := verdict_document below pointwise one
        (fun _ _ known => published_of_components known) (.refl name) visible (Nat.zero_add _) valid
      rw [← fits_iff]
      have decides := coercePayload_decides_below formats below visible document.toValue
      generalize coercePayload formats document.toValue own _ = outcome at decides
      cases decides with
      | accepted conforming _ _ _ => exact iff_of_true ⟨_, rfl⟩ conforming
      | panicked spills => exact absurd spills safe
      | refused violates _ _ => exact iff_of_false nofun violates

/-! ## A project with a price -/

def pricesProject : ProjectFiles where
  files :=
    [{ path := "prices.marreta", moduleId := "prices"
       source := "route POST \"/prices\" take payload as Price\n    reply 201, payload\n".toList }]
  entrypoint := namedEntrypoint "schema Price\n    sku: string\n    amount: float\n"
  distinct := by decide

def priceSchema : SchemaDefinition where
  dbTable := none
  fields := [⟨"sku", .stringType, false⟩, ⟨"amount", .floatType, false⟩]

def priceDocument (amount : JsonNumber) : Json :=
  .object [("sku", .string "a1"), ("amount", .number amount)]

/-- What the document and the route make of the schema. -/
structure PriceRoute where
  moduleId : Option String
  body : Option String
  component : Option ApiObject
  published : Option SchemaDefinition
  visible : Schemas
deriving DecidableEq

def priceRoute (loaded : LoadedProject) : Option PriceRoute :=
  loaded.routes.head?.map fun route =>
    let components := buildComponentSchemas loaded.runtime loaded.routes loaded.schemas
    { moduleId := route.moduleId
      body := requestBodySchema components route
      component := components.lookup "Price"
      published := loaded.schemas.lookup "Price"
      visible := loaded.runtime.visibleSchemasFor route.moduleId }

theorem exists_priceRoute :
    ∃ loaded, loadProject plainContext pricesProject = .ok loaded ∧ ∃ route ∈ loaded.routes,
      requestBodySchema (buildComponentSchemas loaded.runtime loaded.routes loaded.schemas) route =
        some "Price" ∧
      (buildComponentSchemas loaded.runtime loaded.routes loaded.schemas).lookup "Price" =
        some (schemaDefinitionToOpenapi priceSchema) ∧
      loaded.schemas.lookup "Price" = some priceSchema ∧
      loaded.runtime.visibleSchemasFor route.moduleId = [("Price", priceSchema)] := by
  obtain ⟨loaded, loads, seen⟩ := @ProjectFiles.exists_loaded plainContext pricesProject _
    (fun _ => priceRoute)
    (some
      { moduleId := some "prices", body := some "Price"
        component := some (schemaDefinitionToOpenapi priceSchema)
        published := some priceSchema, visible := [("Price", priceSchema)] }) _ _
    (.cons String.toList_ofList .nil)
    (toList_append_spelled String.toList_ofList String.toList_ofList) (by decide +kernel)
  simp only [priceRoute, Option.map_eq_some_iff, PriceRoute.mk.injEq] at seen
  obtain ⟨route, first, -, body, component, published, visible⟩ := seen
  exact ⟨loaded, loads, route, List.mem_of_mem_head? first, body, component, published, visible⟩

theorem priceDocument_valid {components : Components} {formats : ValueFormats}
    (known : components.lookup "Price" = some (schemaDefinitionToOpenapi priceSchema))
    (amount : JsonNumber) : Valid components formats (.ref "Price") (priceDocument amount) := by
  refine .ref known (.object ?_ ?_)
  · intro name member
    rcases List.mem_cons.mp member with rfl | member
    · exact ⟨_, rfl⟩
    · obtain rfl := List.mem_singleton.mp member
      exact ⟨_, rfl⟩
  · intro name schema found value present
    rcases List.mem_cons.mp (Table.mem_of_lookup found) with same | inside
    · obtain ⟨rfl, rfl⟩ := Prod.mk.inj same
      obtain rfl := Option.some.inj present
      exact .typed trivial
    · obtain ⟨rfl, rfl⟩ := Prod.mk.inj (List.mem_singleton.mp inside)
      obtain rfl := Option.some.inj present
      exact .typed trivial

theorem price_chain {length : Nat} {name : String}
    (chain : EmbedChain [("Price", priceSchema)] length "Price" name) :
    length = 0 ∧ name = "Price" := by
  have general : ∀ {length : Nat} {root name : String},
      EmbedChain [("Price", priceSchema)] length root name → root = "Price" →
      length = 0 ∧ name = "Price" := by
    intro length root name chain start
    induction chain with
    | refl => exact ⟨rfl, start⟩
    | tail _ link ih =>
        obtain ⟨-, rfl⟩ := ih start
        obtain ⟨schema, target, found, refers, -⟩ := link
        obtain rfl := Option.some.inj found
        cases refers
  exact general chain rfl

theorem not_wholeFloat_half : ¬ WholeFloatIn [("Price", priceSchema)] priceSchema
    (priceDocument (.float (Binary64.ofRatio 1 2))) := by
  rintro (⟨member, found, inside⟩)
  rcases List.mem_cons.mp member with rfl | member
  · obtain rfl := Option.some.inj found
    cases inside
  · obtain rfl := List.mem_singleton.mp member
    obtain rfl := Option.some.inj found
    cases inside with
    | number whole => cases whole

/-- A price with a fraction. -/
theorem halfPrice_accepted :
    ∃ loaded, loadProject plainContext pricesProject = .ok loaded ∧ ∃ route ∈ loaded.routes,
      ∃ schema, loaded.runtime.resolveSchema route.moduleId "Price" = some schema ∧
        ∃ result, coercePayload orderServer.formats
          (priceDocument (.float (Binary64.ofRatio 1 2))).toValue schema
          (loaded.runtime.visibleSchemasFor route.moduleId) = .ok result := by
  obtain ⟨loaded, loads, route, member, body, component, published, visible⟩ := exists_priceRoute
  refine ⟨loaded, loads, route, member, ?_⟩
  have own : ∀ {length name schema}, EmbedChain [("Price", priceSchema)] length "Price" name →
      List.lookup name [("Price", priceSchema)] = some schema → schema = priceSchema := by
    intro length name schema chain found
    obtain ⟨-, rfl⟩ := price_chain chain
    exact (Option.some.inj found).symm
  obtain ⟨schema, resolves, accepts⟩ := accepts_iff loads route body
    (by
      rw [visible]
      refine ⟨?_, ?_⟩
      · rintro definition (known | ⟨missing, -⟩)
        · rw [← schemas_of_loadProject loads, published] at known
          exact ⟨definition, known, rfl⟩
        · rw [← schemas_of_loadProject loads, published] at missing
          cases missing
      · intro length name schema chain found next refers
        rw [own chain found] at refers
        cases refers)
    (by
      rw [visible]
      refine ⟨fun length last chain => ?_, fun length last schema chain found => ?_⟩
      · rw [(price_chain chain).1]
        exact Nat.zero_le _
      · rw [own chain found]
        decide)
    (by
      rw [visible]
      intro length name schema chain found
      rw [own chain found]
      decide)
    orderServer.formats (priceDocument (.float (Binary64.ofRatio 1 2)))
    ⟨"Price", body, priceDocument_valid component _⟩
  have same : loaded.runtime.resolveSchema route.moduleId "Price" = some priceSchema := by
    apply resolveSchema_of_visible
    rw [visible]
    rfl
  obtain rfl := Option.some.inj (resolves.symm.trans same)
  refine ⟨priceSchema, resolves, accepts.mpr ?_⟩
  rw [visible]
  exact not_wholeFloat_half

/-- A price without one. -/
theorem wholePrice_refused :
    ∃ loaded, loadProject plainContext pricesProject = .ok loaded ∧ ∃ route ∈ loaded.routes,
      ∃ schema, loaded.runtime.resolveSchema route.moduleId "Price" = some schema ∧
        ValidBody (buildComponentSchemas loaded.runtime loaded.routes loaded.schemas)
          orderServer.formats route (priceDocument (.posInt 5)) ∧
        ∀ result, coercePayload orderServer.formats (priceDocument (.posInt 5)).toValue schema
          (loaded.runtime.visibleSchemasFor route.moduleId) ≠ .ok result := by
  obtain ⟨loaded, loads, route, member, body, component, published, visible⟩ := exists_priceRoute
  refine ⟨loaded, loads, route, member, priceSchema, ?_, ?_, ?_⟩
  · apply resolveSchema_of_visible
    rw [visible]
    rfl
  · exact ⟨"Price", body, priceDocument_valid component _⟩
  · rw [visible]
    have refused : (coercePayload orderServer.formats (priceDocument (.posInt 5)).toValue priceSchema
        [("Price", priceSchema)]).isOk = false := by decide +kernel
    intro result same
    rw [same] at refused
    cases refused

end OpenApi
end Marreta
