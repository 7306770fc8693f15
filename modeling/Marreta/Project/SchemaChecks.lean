import Marreta.Project.Loading

namespace Marreta

open Foundation

/-! The checks of schemas, seen from each module.

The loader checks one table of all schemas by their bare names.  A module sees
the public schemas and its own.  A schema that a later one of its name replaces in the
table is not checked. -/

/-- A schema refers to another one that is not persistent. -/
def ValueReference (schemas : Schemas) (next name : String) : Prop :=
  ∃ schema, schemas.lookup name = some schema ∧ next ∈ schema.references ∧
    ∀ target, schemas.lookup next = some target → target.dbTable = none

def HasValueCycle (schemas : Schemas) : Prop :=
  ∃ name, Relation.TransGen (ValueReference schemas) name name

def IsFlatSchema (schema : SchemaDefinition) : Prop :=
  ∀ field ∈ schema.fields, field.fieldType.isFlat = true

/-- The checks of the loader hold for what each module sees. -/
structure SchemasChecked (project : ProjectFiles) (loaded : LoadedProject) : Prop where
  acyclic : ∀ entry ∈ project.all,
    ¬ HasValueCycle (loaded.runtime.visibleSchemasFor (some entry.1.moduleId))
  flat : ∀ entry ∈ project.all, ∀ route ∈ entry.1.routes, ∀ binding ∈ route.take,
    binding.kind = .query ∨ binding.kind = .headers → ∀ name, binding.schema = some name →
      ∀ schema, (loaded.runtime.visibleSchemasFor (some entry.1.moduleId)).lookup name =
        some schema → IsFlatSchema schema
  persistent : ∀ entry ∈ project.all, ∀ name schema, (name, schema) ∈ entry.1.schemas entry.2 →
    schema.dbTable.isSome = true → loaded.runtime.persistentSchemas.lookup name = some schema

/-! ## Declarations and tables -/

/-- The schemas of all files, in the order in which they are loaded. -/
def ProjectFiles.declarations (project : ProjectFiles) :
    List (String × SchemaDefinition) :=
  project.all.flatMap fun entry => entry.1.schemas entry.2

/-- The schemas that a file sees: its own, and the public ones of all files. -/
def ProjectFiles.seenFrom (project : ProjectFiles) (entry : SourceFile × Bool) :
    Schemas :=
  Table.putAll (Table.putAll
    (Table.putAll [] (project.all.flatMap fun entry => entry.1.publicSchemas entry.2))
    (entry.1.privateSchemas entry.2)) (entry.1.publicSchemas entry.2)

/-- The last declaration of the name, in whatever file, is another schema. -/
def Replaced (project : ProjectFiles) (name : String) (schema : SchemaDefinition) :
    Prop :=
  project.declarations.reverse.lookup name ≠ some schema

instance (project : ProjectFiles) (name : String) (schema : SchemaDefinition) :
    Decidable (Replaced project name schema) :=
  inferInstanceAs (Decidable (_ ≠ _))

/-- A replaced schema is on no cycle of the files that see it, is flat where its file takes
a query or headers as it, and is not persistent. -/
structure ReplacedHarmless (project : ProjectFiles) : Prop where
  acyclic : ∀ entry ∈ project.all, ∀ name schema,
    (project.seenFrom entry).lookup name = some schema → Replaced project name schema →
      ¬ Relation.TransGen (ValueReference (project.seenFrom entry)) name name
  flat : ∀ entry ∈ project.all, ∀ route ∈ entry.1.routes, ∀ binding ∈ route.take,
    binding.kind = .query ∨ binding.kind = .headers → ∀ name, binding.schema = some name →
      ∀ schema, (project.seenFrom entry).lookup name = some schema →
        Replaced project name schema → IsFlatSchema schema
  persistent : ∀ entry ∈ project.all, ∀ name schema, (name, schema) ∈ entry.1.schemas entry.2 →
    Replaced project name schema → schema.dbTable.isSome = false

/-- Replaced schemas hold nothing but plain fields. -/
def ReplacedPlain (project : ProjectFiles) : Prop :=
  ∀ entry ∈ project.all, ∀ declared ∈ project.seenFrom entry ++ entry.1.schemas entry.2,
    Replaced project declared.1 declared.2 → declared.2.references = [] ∧
      (∀ field ∈ declared.2.fields, field.fieldType.isFlat = true) ∧
        declared.2.dbTable.isSome = false

instance (project : ProjectFiles) : Decidable (ReplacedPlain project) :=
  inferInstanceAs (Decidable (∀ _ ∈ _, ∀ _ ∈ _, _ → _))

theorem replacedHarmless_of_plain {project : ProjectFiles} (plain : ReplacedPlain project) :
    ReplacedHarmless project := by
  constructor
  · intro entry member name schema seen replaced cycle
    have bare := (plain entry member _
      (List.mem_append_left _ (Table.mem_of_lookup seen)) replaced).1
    have refers : ∃ next, ValueReference (project.seenFrom entry) next name := by
      cases cycle with
      | single step => exact ⟨_, step⟩
      | tail _ step => exact ⟨_, step⟩
    obtain ⟨next, other, found, inside, -⟩ := refers
    rw [seen, Option.some.injEq] at found
    rw [← found, bare] at inside
    cases inside
  · intro entry member route inRoutes binding inTake kind name bound schema seen replaced
    exact (plain entry member _ (List.mem_append_left _ (Table.mem_of_lookup seen)) replaced).2.1
  · intro entry member name schema inside replaced
    exact (plain entry member _ (List.mem_append_right _ inside) replaced).2.2

section

variable {context : LoadContext} {project : ProjectFiles} {merged : MergedModules}
  {loaded : LoadedProject}

/-- Tables of files and the declarations in them are looked up alike. -/
theorem lookup_fileSchemas {entries : List (SourceFile × Bool)} {table other : Schemas}
    (same : ∀ name, table.lookup name = other.lookup name) (name : String) :
    (Table.putAll table (entries.flatMap fun entry =>
      Table.putAll [] (entry.1.publicSchemas entry.2) ++
        Table.putAll [] (entry.1.privateSchemas entry.2))).lookup name =
      (Table.putAll other (entries.flatMap fun entry => entry.1.schemas entry.2)).lookup name := by
  induction entries generalizing table other with
  | nil => exact same name
  | cons entry rest ih =>
      rw [List.flatMap_cons, List.flatMap_cons, Table.putAll_append table,
        Table.putAll_append other]
      apply ih
      intro name
      rw [SourceFile.schemas, Table.putAll_append, Table.putAll_append,
        Table.lookup_putAll_putAll]
      exact Table.lookup_putAll_congr (fun name => (Table.lookup_putAll_putAll _ _ _).trans
        (Table.lookup_putAll_congr same _ name)) _ name

theorem moduleSchemas_eq {entries : List (SourceFile × Bool)} {modules : List ModuleDefinition}
    (builds : List.Forall₂ Builds entries modules) :
    (modules.flatMap fun module => module.publicSchemas ++ module.privateSchemas) =
      entries.flatMap fun entry => Table.putAll [] (entry.1.publicSchemas entry.2) ++
        Table.putAll [] (entry.1.privateSchemas entry.2) := by
  induction builds with
  | nil => rfl
  | cons first _ ih =>
      rw [List.flatMap_cons, List.flatMap_cons, ih, first.publicSchemas, first.privateSchemas]

theorem lookup_publicModules {entries : List (SourceFile × Bool)}
    {modules : List ModuleDefinition} (builds : List.Forall₂ Builds entries modules)
    {table other : Schemas} (same : ∀ name, table.lookup name = other.lookup name)
    (name : String) :
    (Table.putAll table (modules.flatMap (·.publicSchemas))).lookup name =
      (Table.putAll other (entries.flatMap fun entry =>
        entry.1.publicSchemas entry.2)).lookup name := by
  induction builds generalizing table other with
  | nil => exact same name
  | cons first rest ih =>
      rw [List.flatMap_cons, List.flatMap_cons, Table.putAll_append, Table.putAll_append]
      apply ih
      intro name
      rw [first.publicSchemas, Table.lookup_putAll_putAll]
      exact Table.lookup_putAll_congr same _ name

/-- The loader checks the last declaration of each name. -/
theorem Loads.checked_lookup (loads : Loads context project merged loaded) (name : String) :
    merged.allSchemas.lookup name = project.declarations.reverse.lookup name := by
  rw [loads.merges.allSchemas, moduleSchemas_eq loads.merges.modules,
    lookup_fileSchemas fun _ => rfl, ← Table.lookup_putAll_nil]
  rfl

/-- What a module sees, in terms of the files. -/
theorem Loads.visible_lookup (loads : Loads context project merged loaded)
    {entry : SourceFile × Bool} (member : entry ∈ project.all) (name : String) :
    (loaded.runtime.visibleSchemasFor (some entry.1.moduleId)).lookup name =
      (project.seenFrom entry).lookup name := by
  obtain ⟨module, found, builds, sees⟩ := loads.module member
  have publics : ∀ name, merged.publicSchemas.lookup name =
      (Table.putAll [] (project.all.flatMap fun entry =>
        entry.1.publicSchemas entry.2) : Schemas).lookup name := by
    intro name
    rw [loads.merges.publicSchemas]
    exact lookup_publicModules loads.merges.modules (fun _ => rfl) name
  rw [sees, RuntimeDraft.visibleSchemas, ProjectFiles.seenFrom, builds.privateSchemas,
    builds.publicSchemas, Table.lookup_putAll_putAll]
  exact Table.lookup_putAll_congr (fun name => (Table.lookup_putAll_putAll _ _ _).trans
    (Table.lookup_putAll_congr publics _ name)) _ name

end

/-! ## What the checks say -/

theorem mem_persistentNames {schemas : Schemas} {name : String} {schema : SchemaDefinition}
    (distinct : (Table.keys schemas).Nodup) (found : schemas.lookup name = some schema)
    (persistent : name ∈ schemas.persistentNames) : schema.dbTable.isSome = true := by
  obtain ⟨⟨other, stored⟩, inside, rfl⟩ := List.mem_map.mp persistent
  rw [collectPersistentSchemas, List.mem_filter] at inside
  rw [Table.lookup_of_mem distinct inside.1, Option.some.injEq] at found
  rw [← found]
  exact inside.2

theorem references_of {schemas : Schemas} {name : String} {schema : SchemaDefinition}
    (found : schemas.lookup name = some schema) :
    schemas.references.of name = schema.references := by
  rw [References.of, Schemas.references, Table.lookup_map, found]
  rfl

/-- A cycle in schemas that the checked table knows as they are is a cycle of the
checked table. -/
theorem no_cycle_of_checked {visible checked : Schemas}
    (distinct : (Table.keys checked).Nodup)
    (known : ∀ name schema, visible.lookup name = some schema →
      Relation.TransGen (ValueReference visible) name name →
        checked.lookup name = some schema)
    (passes : detectSchemaCycle checked = .ok ()) : ¬ HasValueCycle visible := by
  rintro ⟨start, cycle⟩
  have named : ∀ {name}, Relation.TransGen (ValueReference visible) name name →
      ∃ schema, visible.lookup name = some schema := by
    intro name chain
    cases chain with
    | single step => exact step.imp fun _ holds => holds.1
    | tail _ step => exact step.imp fun _ holds => holds.1
  have follows : ∀ {next name}, Relation.TransGen (ValueReference visible) next next →
      Relation.TransGen (ValueReference visible) name name → ValueReference visible next name →
        checked.references.Follows checked.persistentNames next name := by
    rintro next name around back ⟨schema, found, refers, value⟩
    obtain ⟨target, seen⟩ := named around
    refine ⟨?_, fun persistent => ?_⟩
    · rw [references_of (known name schema found back)]
      exact refers
    · have table := mem_persistentNames distinct (known next target seen around) persistent
      simp [value target seen] at table
  have lifted : ∀ {name}, Relation.TransGen (ValueReference visible) start name →
      Relation.TransGen (ValueReference visible) name start →
        Relation.TransGen (checked.references.Follows checked.persistentNames) start name := by
    intro name chain
    induction chain with
    | single step =>
        intro back
        exact .single (follows cycle (.tail back step) step)
    | tail before step ih =>
        intro back
        have around := Relation.TransGen.head step back
        exact .tail (ih around) (follows (around.trans before) (back.trans (.tail before step)) step)
  have found : checked.references.findDisallowedCycle checked.persistentNames = none := by
    unfold detectSchemaCycle at passes
    split at passes
    · cases passes
    · assumption
  exact References.acyclic_of_none found start (lifted cycle cycle)

theorem valueReference_congr {first second : Schemas}
    (same : ∀ name, first.lookup name = second.lookup name) :
    ValueReference first = ValueReference second := by
  funext next name
  simp only [ValueReference, same]

theorem isFlat_of_firstNonFlatField {schema : SchemaDefinition}
    (none : firstNonFlatField schema = none) : IsFlatSchema schema := by
  intro field member
  rw [firstNonFlatField, Option.map_eq_none_iff, List.find?_eq_none] at none
  simpa using none field member

theorem isFlat_of_validateTakeBinding {schemas : Schemas} {binding : TakeBinding} {name : String}
    {schema : SchemaDefinition} (passes : validateTakeBinding schemas binding = .ok ())
    (kind : binding.kind = .query ∨ binding.kind = .headers) (bound : binding.schema = some name)
    (found : schemas.lookup name = some schema) : IsFlatSchema schema := by
  apply isFlat_of_firstNonFlatField
  rw [validateTakeBinding, bound] at passes
  rcases kind with kind | kind <;>
    simp only [kind, found, Option.bind_some] at passes <;>
    split at passes
  · cases passes
  · assumption
  · cases passes
  · assumption

/-- Two files with private schemas of one name. -/
def ordersProject : ProjectFiles where
  files :=
    [{ path := "bills.marreta", moduleId := "bills"
       source := "schema Line\n    number: integer\n".toList },
      { path := "orders.marreta", moduleId := "orders"
        source := "schema Order\n    lines: list of Line\n\nschema Line\n    sku: string\n".toList }]
  entrypoint := namedEntrypoint "schema Customer\n    db: customers\n    id: integer\n"
  distinct := by decide

/-- A private schema that contains itself, and a later file with a private schema
of the same name. -/
def hiddenCycle : ProjectFiles where
  files :=
    [{ path := "a.marreta", moduleId := "a"
       source := "schema Node\n    child: Node\n".toList },
      { path := "b.marreta", moduleId := "b"
        source := "schema Node\n    label: string\n".toList }]
  entrypoint := namedEntrypoint ""
  distinct := by decide

end Marreta
