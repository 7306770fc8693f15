import Marreta.Runtime.Host
import Marreta.Runtime.Names

namespace Marreta

open Foundation

/-! What a response schema leaves of a value. -/

/-- The entry a declared field is sent as. -/
def serializeField (entries : ValueMap) (field : SchemaField) : Option (String × Value) :=
  match entries.get? field.name with
  | some value => some (field.name, value)
  | none => if field.optional then none else some (field.name, .null)

/-- Filter a map.  Any other value is sent as it is. -/
def serialize (value : Value) (schema : SchemaDefinition) : Value :=
  match value with
  | .map entries =>
      .map (ValueMap.insertAll [] (schema.fields.filterMap (serializeField entries)))
  | value => value

def serializeWith (value : Value) : Option SchemaDefinition → Value
  | some schema => serialize value schema
  | none => value

/-! ## The declared part of a record -/

namespace SchemaDefinition

/-- A field is sent when it is there or required. -/
def sends (entries : ValueMap) (field : SchemaField) : Bool :=
  (entries.get? field.name).isSome || !field.optional

/-- The names that are sent of a record, in the order of their declarations. -/
def outline (schema : SchemaDefinition) (entries : ValueMap) : List String :=
  ((schema.fields.filter (sends entries)).map (·.name)).eraseDups

/-- The declared part of a record: a required field that is missing is null. -/
def declared (schema : SchemaDefinition) (entries : ValueMap) : ValueMap :=
  (schema.outline entries).map fun name => (name, (entries.get? name).getD .null)

end SchemaDefinition

/-! ## Maps over names -/

/-- A name that occurs more than once keeps its first place. -/
theorem nodup_eraseDups : ∀ names : List String, names.eraseDups.Nodup
  | [] => by simp
  | name :: names => by
      have smaller : (names.filter fun other => !other == name).length < names.length + 1 :=
        Nat.lt_succ_of_le (List.length_filter_le _ _)
      rw [List.eraseDups_cons, List.nodup_cons]
      constructor
      · simp [List.mem_eraseDups]
      · exact nodup_eraseDups _
termination_by names => names.length

namespace ValueMap

/-- The map of some names to the values of a function. -/
def graph (values : String → Value) (names : List String) : ValueMap :=
  names.map fun name => (name, values name)

variable {values : String → Value}

theorem keys_graph (names : List String) : Table.keys (graph values names) = names := by
  simp [Table.keys, graph, Function.comp_def]

theorem get?_graph {names : List String} {name : String} (member : name ∈ names) :
    (graph values names).get? name = some (values name) :=
  List.lookup_graph values member

theorem insert_of_absent {entries : ValueMap} {key : String}
    (absent : key ∉ Table.keys entries) (value : Value) :
    entries.insert key value = entries ++ [(key, value)] := by
  induction entries with
  | nil => rfl
  | cons entry rest ih =>
      rw [Table.mem_keys_cons, not_or] at absent
      rw [insert, if_neg fun same => absent.1 same.symm, ih absent.2, List.cons_append]

/-- Collecting the values of names keeps the first occurrence of each. -/
theorem insertAll_graph (seen names : List String) :
    (graph values seen).insertAll (graph values names) =
      graph values (seen ++ (names.filter (· ∉ seen)).eraseDups) := by
  induction names generalizing seen with
  | nil => simp [insertAll, graph]
  | cons name names induction =>
      have step : (graph values seen).insertAll (graph values (name :: names)) =
          ((graph values seen).insert name (values name)).insertAll (graph values names) := rfl
      rw [step]
      by_cases known : name ∈ seen
      · rw [insert_self (get?_graph known), induction,
          List.filter_cons_of_neg (by simpa using known)]
      · have absent : name ∉ Table.keys (graph values seen) := by
          rw [keys_graph]
          exact known
        have extended : graph values seen ++ [(name, values name)] =
            graph values (seen ++ [name]) := by
          rw [graph, graph, List.map_append, List.map_singleton]
        have rest : names.filter (· ∉ seen ++ [name]) =
            (names.filter (· ∉ seen)).filter fun other => !other == name := by
          rw [List.filter_filter]
          apply List.filter_congr
          intro other _
          by_cases same : other = name <;> simp [same]
        rw [insert_of_absent absent, extended, induction, rest,
          List.filter_cons_of_pos (by simpa using known), List.eraseDups_cons,
          List.append_assoc, List.singleton_append]

end ValueMap

/-! ## What is sent -/

theorem serializeField_eq (entries : ValueMap) (field : SchemaField) :
    serializeField entries field =
      if SchemaDefinition.sends entries field then
        some (field.name, (entries.get? field.name).getD .null)
      else none := by
  unfold serializeField SchemaDefinition.sends
  cases entries.get? field.name with
  | some value => simp
  | none => cases field.optional <;> simp

/-- A map is sent as its declared part. -/
theorem serialize_map (entries : ValueMap) (schema : SchemaDefinition) :
    serialize (.map entries) schema = .map (schema.declared entries) := by
  have pairs : schema.fields.filterMap (serializeField entries) =
      ValueMap.graph (fun name => (entries.get? name).getD .null)
        ((schema.fields.filter (SchemaDefinition.sends entries)).map (·.name)) := by
    rw [funext (serializeField_eq entries)]
    induction schema.fields with
    | nil => rfl
    | cons field fields induction =>
        rw [List.filterMap_cons, List.filter_cons, induction]
        by_cases sent : SchemaDefinition.sends entries field <;> simp [sent, ValueMap.graph]
  have collected := @ValueMap.insertAll_graph (fun name => (entries.get? name).getD .null) []
    ((schema.fields.filter (SchemaDefinition.sends entries)).map (·.name))
  rw [serialize, pairs]
  simpa [SchemaDefinition.declared, SchemaDefinition.outline, ValueMap.graph] using collected

theorem serialize_of_not_map {value : Value} (other : value.isMap = false)
    (schema : SchemaDefinition) : serialize value schema = value := by
  cases value with
  | map entries => cases other
  | _ => rfl

namespace SchemaDefinition

theorem keys_declared (schema : SchemaDefinition) (entries : ValueMap) :
    Table.keys (schema.declared entries) = schema.outline entries := by
  simp [Table.keys, declared, Function.comp_def]

/-- The declared part only depends on the names that are sent. -/
theorem declared_eq_iff (schema other : SchemaDefinition) (entries : ValueMap) :
    other.declared entries = schema.declared entries ↔
      other.outline entries = schema.outline entries := by
  constructor
  · intro same
    rw [← keys_declared, same, keys_declared]
  · intro same
    rw [declared, same, declared]

theorem nodup_outline (schema : SchemaDefinition) (entries : ValueMap) :
    (schema.outline entries).Nodup :=
  nodup_eraseDups _

/-- A record is its own declared part when it has the declared names. -/
theorem eq_declared_iff (schema : SchemaDefinition) (entries : ValueMap) :
    entries = schema.declared entries ↔ Table.keys entries = schema.outline entries := by
  constructor
  · intro same
    rw [← keys_declared, ← same]
  · intro same
    have distinct : (Table.keys entries).Nodup := by
      rw [same]
      exact nodup_outline schema entries
    have own : entries.map (fun entry => (entry.1, (entries.get? entry.1).getD .null)) =
        entries.map id := by
      apply List.map_congr_left
      intro entry member
      rw [ValueMap.get?, Table.lookup_of_mem distinct member]
      rfl
    rw [declared, ← same, Table.keys, List.map_map]
    simpa [Function.comp_def] using own.symm

end SchemaDefinition
end Marreta
