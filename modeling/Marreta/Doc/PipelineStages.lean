import Marreta.Doc.Bson
import Marreta.Foundation.Ensures

namespace Marreta

open Foundation

/-! The stages of `doc.pipeline`.

A stage is a map with one key, which is translated to a document of the database.  The
keys of a stage are names of fields, names of the language for parts of the stage, or
names of accumulators, depending on where they stand. -/

abbrev Document (Decimal128 : Type) := List (String × Bson Decimal128)

def pipelineError (message : String) : MarretaError :=
  .dbError message "doc.pipeline"

def accumulatorMqlKey : String → Option String
  | "sum" => some "$sum"
  | "avg" => some "$avg"
  | "min" => some "$min"
  | "max" => some "$max"
  | "first" => some "$first"
  | "last" => some "$last"
  | "push" => some "$push"
  | "addToSet" => some "$addToSet"
  | "count" => some "$sum"
  | _ => none

def mqlKey (key : String) : String :=
  (accumulatorMqlKey key).getD key

def lookupKey : String → String
  | "local" => "localField"
  | "foreign" => "foreignField"
  | key => key

def fieldReference (text : String) : String :=
  if text.toList.head? = some '$' then text else "$" ++ text

def extractInteger (value : Value) (stage : String) : Except MarretaError Int64 :=
  match value with
  | .integer value => .ok value
  | _ => .error (pipelineError ("doc.pipeline '" ++ stage ++ "' stage expects an integer value"))

def extractString (value : Value) (stage : String) : Except MarretaError String :=
  match value with
  | .string text => .ok text
  | _ => .error (pipelineError ("doc.pipeline '" ++ stage ++ "' stage expects a string value"))

def unknownStage (stage : String) : String :=
  "unknown doc.pipeline stage '" ++ stage ++ "' — supported: match, sort, limit, skip, " ++
    "unwind, add_fields, project, count, lookup, group, bucket"

section Translation

variable {Decimal128 : Type} (formats : BsonFormats Decimal128)

mutual
/-- Below the map of a stage the names of accumulators are replaced wherever they are
keys.  An entry replaces an earlier one of the same key. -/
def translateStageValue : Value → Bson Decimal128
  | .map entries => .document (Table.putAll [] (translateEntries entries))
  | .list items => .array (translateItems items)
  | value => valueToBson formats value

def translateItems : List Value → List (Bson Decimal128)
  | [] => []
  | item :: items => translateStageValue item :: translateItems items

def translateEntries : ValueMap → Document Decimal128
  | [] => []
  | (key, value) :: entries => (mqlKey key, translateStageValue value) :: translateEntries entries
end

def translateStageDocument (value : Value) : Except MarretaError (Document Decimal128) :=
  match value with
  | .map entries =>
      .ok (Table.putAll [] (entries.map fun (key, value) =>
        (key, translateStageValue formats value)))
  | value =>
      .error (pipelineError ("expected a map for stage inner value, got " ++ value.typeName))

def translateLookup (value : Value) : Except MarretaError (Document Decimal128) :=
  match value with
  | .map entries =>
      .ok (Table.putAll [] (entries.map fun (key, value) =>
        (lookupKey key, valueToBson formats value)))
  | _ => .error (pipelineError "lookup stage value must be a map")

/-- The key of a group is a field, or nothing at all. -/
def groupId (value : Value) : Bson Decimal128 :=
  match value with
  | .null => .null
  | .string text => .string (fieldReference text)
  | value => valueToBson formats value

def groupEntry (entry : String × Value) : String × Bson Decimal128 :=
  if entry.1 = "by" then ("_id", groupId formats entry.2)
  else (entry.1, translateStageValue formats entry.2)

def translateGroup (value : Value) : Except MarretaError (Document Decimal128) :=
  match value with
  | .map entries => .ok (Table.putAll [] (entries.map (groupEntry formats)))
  | _ => .error (pipelineError "group stage value must be a map")

def bucketEntry (entry : String × Value) : Except MarretaError (String × Bson Decimal128) :=
  match entry with
  | ("by", value) => .ok ("groupBy", valueToBson formats value)
  | ("output", value) => do return ("output", .document (← translateStageDocument formats value))
  | (key, value) => .ok (key, translateStageValue formats value)

def translateBucket (value : Value) : Except MarretaError (Document Decimal128) :=
  match value with
  | .map entries => do return Table.putAll [] (← entries.mapM (bucketEntry formats))
  | _ => .error (pipelineError "bucket stage value must be a map")

def translateStage (key : String) (inner : Value) : Except MarretaError (Document Decimal128) :=
  match key with
  | "match" => do return [("$match", .document (← translateStageDocument formats inner))]
  | "sort" => do return [("$sort", .document (← translateStageDocument formats inner))]
  | "limit" => do return [("$limit", .int64 (← extractInteger inner "limit"))]
  | "skip" => do return [("$skip", .int64 (← extractInteger inner "skip"))]
  | "unwind" => do
      return [("$unwind", .string (fieldReference (← extractString inner "unwind")))]
  | "add_fields" => do
      return [("$addFields", .document (← translateStageDocument formats inner))]
  | "project" => do return [("$project", .document (← translateStageDocument formats inner))]
  | "count" => do return [("$count", .string (← extractString inner "count"))]
  | "lookup" => do return [("$lookup", .document (← translateLookup formats inner))]
  | "group" => do return [("$group", .document (← translateGroup formats inner))]
  | "bucket" => do return [("$bucket", .document (← translateBucket formats inner))]
  | key => .error (pipelineError (unknownStage key))

def translatePipelineStage (stage : Value) : Except MarretaError (Document Decimal128) :=
  match stage with
  | .map [(key, inner)] => translateStage formats key inner
  | .map entries =>
      .error (pipelineError ("doc.pipeline stage map must have exactly one key, got " ++
        toString entries.length))
  | _ =>
      .error (pipelineError
        "doc.pipeline stage must be a map (e.g. \x7b match: \x7b ... \x7d \x7d)")

end Translation

/-! ## What a stage stands for -/

section Image

variable {Decimal128 : Type} (formats : BsonFormats Decimal128)

mutual
/-- The value with every key as it is written. -/
def keepNames : Value → Bson Decimal128
  | .map entries => .document (keepEntries entries)
  | .list items => .array (keepItems items)
  | value => valueToBson formats value

def keepItems : List Value → List (Bson Decimal128)
  | [] => []
  | item :: items => keepNames item :: keepItems items

def keepEntries : ValueMap → Document Decimal128
  | [] => []
  | (key, value) :: entries => (key, keepNames value) :: keepEntries entries
end

/-- An output field has an accumulator, the only key of its map, or any other value. -/
def outputImage : Value → Bson Decimal128
  | .map [(accumulator, value)] => .document [(mqlKey accumulator, keepNames formats value)]
  | value => keepNames formats value

/-- The names of the language for the parts of a stage. -/
def partKey : String → String → String
  | "lookup", key => lookupKey key
  | "group", "by" => "_id"
  | "bucket", "by" => "groupBy"
  | _, key => key

/-- A part of a stage by the key it stands under. -/
def partImage : String → String → Value → Bson Decimal128
  | "add_fields", _, value | "project", _, value => outputImage formats value
  | "lookup", _, value | "bucket", "by", value => valueToBson formats value
  | "group", "by", value => groupId formats value
  | "group", _, value => outputImage formats value
  | "bucket", "output", .map fields =>
      .document (fields.map fun (name, value) => (name, outputImage formats value))
  | _, _, value => keepNames formats value

def innerImage (stage : String) : Value → Bson Decimal128
  | .map parts =>
      .document (parts.map fun (key, value) => (partKey stage key, partImage formats stage key value))
  | .string text => .string (if stage = "unwind" then fieldReference text else text)
  | value => valueToBson formats value

def stageKey : String → String
  | "add_fields" => "$addFields"
  | stage => "$" ++ stage

/-- The document of a stage: one entry for each key of its maps, renamed only where a
name of the language or an accumulator stands. -/
def stageImage : Value → Document Decimal128
  | .map [(stage, inner)] => [(stageKey stage, innerImage formats stage inner)]
  | _ => []

end Image

/-! ## Where names are kept -/

def isAccumulator (key : String) : Bool :=
  (accumulatorMqlKey key).isSome

mutual
/-- No key anywhere in the value is the name of an accumulator. -/
def namesNoAccumulator : Value → Bool
  | .map entries => entriesNameNone entries
  | .list items => itemsNameNone items
  | _ => true

def itemsNameNone : List Value → Bool
  | [] => true
  | item :: items => namesNoAccumulator item && itemsNameNone items

def entriesNameNone : ValueMap → Bool
  | [] => true
  | (key, value) :: entries =>
      !isAccumulator key && namesNoAccumulator value && entriesNameNone entries
end

/-- The names of accumulators stand only where an output field has its accumulator. -/
def outputIsPlain : Value → Bool
  | .map [(_, value)] => namesNoAccumulator value
  | value => namesNoAccumulator value

def partIsPlain : String → String → Value → Bool
  | "add_fields", _, value | "project", _, value => outputIsPlain value
  | "lookup", _, _ | "bucket", "by", _ | "group", "by", _ => true
  | "group", _, value => outputIsPlain value
  | "bucket", "output", .map fields => fields.all fun field => outputIsPlain field.2
  | _, _, value => namesNoAccumulator value

/-- Names of accumulators stand only in their position, and no part of the stage is
given twice, by a name of the language and by one of the database. -/
def stageIsPlain : Value → Bool
  | .map [(stage, .map parts)] =>
      (parts.map fun part => partKey stage part.1).Nodup &&
        parts.all fun part => partIsPlain stage part.1 part.2
  | _ => true

/-- A map of the language has no key twice, anywhere in the value. -/
inductive DistinctKeys : Value → Prop
  | list {items : List Value} (all : ∀ item ∈ items, DistinctKeys item) :
      DistinctKeys (.list items)
  | map {entries : ValueMap} (distinct : (Table.keys entries).Nodup)
      (all : ∀ entry ∈ entries, DistinctKeys entry.2) : DistinctKeys (.map entries)
  | leaf {value : Value} (isLeaf : (∀ items, value ≠ .list items) ∧
      ∀ entries, value ≠ .map entries) : DistinctKeys value

/-! ## Keys and values -/

theorem mqlKey_eq_iff (key : String) : mqlKey key = key ↔ isAccumulator key = false := by
  rw [mqlKey, isAccumulator]
  constructor
  · intro same
    cases known : accumulatorMqlKey key with
    | none => rfl
    | some word =>
        rw [known, Option.getD_some] at same
        subst same
        unfold accumulatorMqlKey at known
        split at known <;> simp_all
  · intro unknown
    rw [Option.isSome_eq_false_iff, Option.isNone_iff_eq_none] at unknown
    rw [unknown, Option.getD_none]

/-- What replaces the name of an accumulator is not itself such a name. -/
theorem isAccumulator_mqlKey (key : String) : isAccumulator (mqlKey key) = false := by
  unfold mqlKey accumulatorMqlKey
  split <;> first | rfl | skip
  rw [Option.getD_none, isAccumulator]
  unfold accumulatorMqlKey
  split <;> simp_all

/-- Entries put one after the other are the entries as they are listed when no key is
repeated and the values are the same. -/
theorem putAll_map_eq_iff {α β : Type} {entries : List β} {key : β → String}
    {one other : β → α} :
    Table.putAll [] (entries.map fun entry => (key entry, one entry)) =
        entries.map (fun entry => (key entry, other entry)) ↔
      (entries.map key).Nodup ∧ ∀ entry ∈ entries, one entry = other entry := by
  have keys (value : β → α) :
      Table.keys (entries.map fun entry => (key entry, value entry)) = entries.map key := by
    rw [Table.keys, List.map_map]
    rfl
  have put (distinct : (entries.map key).Nodup) :
      Table.putAll [] (entries.map fun entry => (key entry, one entry)) =
        entries.map fun entry => (key entry, one entry) := by
    apply Table.putAll_of_nodup
    rw [List.nil_append, keys]
    exact distinct
  constructor
  · intro same
    have distinct : (entries.map key).Nodup := by
      rw [← keys other, ← same]
      exact Table.nodup_keys_putAll List.nodup_nil
    rw [put distinct, List.map_inj_left] at same
    exact ⟨distinct, fun entry member => (Prod.mk.inj (same entry member)).2⟩
  · intro plain
    rw [put plain.1, List.map_inj_left]
    exact fun entry member => congrArg _ (plain.2 entry member)

section Values

variable {Decimal128 : Type} (formats : BsonFormats Decimal128)

theorem translateItems_eq (items : List Value) :
    translateItems formats items = items.map (translateStageValue formats) := by
  induction items with
  | nil => rfl
  | cons item items induction => rw [translateItems, induction, List.map_cons]

theorem translateEntries_eq (entries : ValueMap) :
    translateEntries formats entries =
      entries.map fun entry => (mqlKey entry.1, translateStageValue formats entry.2) := by
  induction entries with
  | nil => rfl
  | cons entry entries induction => rw [translateEntries, induction, List.map_cons]

theorem keepItems_eq (items : List Value) :
    keepItems formats items = items.map (keepNames formats) := by
  induction items with
  | nil => rfl
  | cons item items induction => rw [keepItems, induction, List.map_cons]

theorem keepEntries_eq (entries : ValueMap) :
    keepEntries formats entries =
      entries.map fun entry => (entry.1, keepNames formats entry.2) := by
  induction entries with
  | nil => rfl
  | cons entry entries induction => rw [keepEntries, induction, List.map_cons]

theorem itemsNameNone_iff (items : List Value) :
    itemsNameNone items = true ↔ ∀ item ∈ items, namesNoAccumulator item = true := by
  induction items with
  | nil => simp [itemsNameNone]
  | cons item items induction =>
      rw [itemsNameNone, Bool.and_eq_true, induction, List.forall_mem_cons]

theorem entriesNameNone_iff (entries : ValueMap) :
    entriesNameNone entries = true ↔
      ∀ entry ∈ entries, isAccumulator entry.1 = false ∧ namesNoAccumulator entry.2 = true := by
  induction entries with
  | nil => simp [entriesNameNone]
  | cons entry entries induction =>
      rw [entriesNameNone, Bool.and_eq_true, Bool.and_eq_true, induction, List.forall_mem_cons,
        Bool.not_eq_true']

/-- A key that is still there after the replacement was no name of an accumulator. -/
theorem translateEntries_eq_iff {entries : ValueMap} (distinct : (Table.keys entries).Nodup) :
    Table.putAll [] (translateEntries formats entries) = keepEntries formats entries ↔
      ∀ entry ∈ entries, isAccumulator entry.1 = false ∧
        translateStageValue formats entry.2 = keepNames formats entry.2 := by
  rw [translateEntries_eq, keepEntries_eq]
  have plain (unnamed : ∀ entry ∈ entries, isAccumulator entry.1 = false) :
      entries.map (fun entry => (mqlKey entry.1, translateStageValue formats entry.2)) =
        entries.map fun entry => (entry.1, translateStageValue formats entry.2) := by
    rw [List.map_inj_left]
    intro entry member
    rw [(mqlKey_eq_iff entry.1).mpr (unnamed entry member)]
  constructor
  · intro same
    have unnamed : ∀ entry ∈ entries, isAccumulator entry.1 = false := by
      intro entry member
      have inside : entry.1 ∈ Table.keys (Table.putAll []
          (entries.map fun entry => (mqlKey entry.1, translateStageValue formats entry.2))) := by
        rw [same]
        exact List.mem_map.mpr ⟨_, List.mem_map_of_mem member, rfl⟩
      rw [Table.mem_keys_putAll] at inside
      rcases inside with inside | inside
      · obtain ⟨_, replaced, equal⟩ := List.mem_map.mp inside
        obtain ⟨source, -, rfl⟩ := List.mem_map.mp replaced
        rw [← equal]
        exact isAccumulator_mqlKey source.1
      · cases inside
    rw [plain unnamed] at same
    have values := ((putAll_map_eq_iff).mp same).2
    exact fun entry member => ⟨unnamed entry member, values entry member⟩
  · intro each
    rw [plain fun entry member => (each entry member).1]
    exact (putAll_map_eq_iff).mpr ⟨distinct, fun entry member => (each entry member).2⟩

theorem translateStageValue_eq_iff {value : Value} (distinct : DistinctKeys value) :
    translateStageValue formats value = keepNames formats value ↔
      namesNoAccumulator value = true := by
  induction distinct with
  | @list items all induction =>
      rw [translateStageValue, keepNames, Bson.array.injEq, translateItems_eq, keepItems_eq,
        List.map_inj_left, namesNoAccumulator, itemsNameNone_iff]
      exact forall₂_congr induction
  | @map entries distinct all induction =>
      rw [translateStageValue, keepNames, Bson.document.injEq,
        translateEntries_eq_iff formats distinct, namesNoAccumulator, entriesNameNone_iff]
      exact forall₂_congr fun entry member => and_congr_right fun _ => induction entry member
  | @leaf value isLeaf =>
      cases value with
      | list items => exact absurd rfl (isLeaf.1 items)
      | map entries => exact absurd rfl (isLeaf.2 entries)
      | _ => exact iff_of_true rfl rfl

theorem DistinctKeys.of_map {entries : ValueMap} (distinct : DistinctKeys (.map entries)) :
    (Table.keys entries).Nodup ∧ ∀ entry ∈ entries, DistinctKeys entry.2 := by
  cases distinct with
  | map distinct all => exact ⟨distinct, all⟩
  | leaf isLeaf => exact absurd rfl (isLeaf.2 entries)

/-- In an output field only what is below the accumulator is compared. -/
theorem translateStageValue_eq_outputImage_iff {value : Value} (distinct : DistinctKeys value) :
    translateStageValue formats value = outputImage formats value ↔
      outputIsPlain value = true := by
  unfold outputImage outputIsPlain
  split
  · rename_i accumulator value
    have inner : DistinctKeys value :=
      distinct.of_map.2 (accumulator, value) (List.mem_singleton_self _)
    have single : translateStageValue formats (.map [(accumulator, value)]) =
        .document [(mqlKey accumulator, translateStageValue formats value)] := rfl
    rw [single, ← translateStageValue_eq_iff formats inner, Bson.document.injEq,
      List.cons_eq_cons, Prod.mk.injEq]
    simp
  · exact translateStageValue_eq_iff formats distinct

/-- What stands in the document of a stage for one of its parts. -/
def translatedPart : String → String → Value → Bson Decimal128
  | "lookup", _, value | "bucket", "by", value => valueToBson formats value
  | "group", "by", value => groupId formats value
  | "bucket", "output", .map fields =>
      .document (Table.putAll [] (fields.map fun (name, value) =>
        (name, translateStageValue formats value)))
  | _, _, value => translateStageValue formats value

theorem translatedOutputs_eq_iff {fields : ValueMap} (distinct : DistinctKeys (.map fields)) :
    Table.putAll [] (fields.map fun field => (field.1, translateStageValue formats field.2)) =
        fields.map (fun field => (field.1, outputImage formats field.2)) ↔
      fields.all (fun field => outputIsPlain field.2) = true := by
  have keys : (fields.map Prod.fst).Nodup := distinct.of_map.1
  rw [putAll_map_eq_iff, List.all_eq_true, and_iff_right keys]
  exact forall₂_congr fun field member =>
    translateStageValue_eq_outputImage_iff formats (distinct.of_map.2 field member)

theorem translatedPart_eq_iff (stage key : String) {value : Value} (distinct : DistinctKeys value) :
    translatedPart formats stage key value = partImage formats stage key value ↔
      partIsPlain stage key value = true := by
  unfold partImage partIsPlain
  split
  · exact translateStageValue_eq_outputImage_iff formats distinct
  · exact translateStageValue_eq_outputImage_iff formats distinct
  · exact iff_of_true rfl rfl
  · exact iff_of_true rfl rfl
  · exact iff_of_true rfl rfl
  · rename_i notBy
    have ordinary : translatedPart formats "group" key value = translateStageValue formats value := by
      unfold translatedPart
      split <;> simp_all
    rw [ordinary]
    exact translateStageValue_eq_outputImage_iff formats distinct
  · rename_i fields
    rw [translatedPart, Bson.document.injEq]
    exact translatedOutputs_eq_iff formats distinct
  · have ordinary : translatedPart formats stage key value = translateStageValue formats value := by
      unfold translatedPart
      split <;> simp_all
    rw [ordinary]
    exact translateStageValue_eq_iff formats distinct

/-! ## Stages -/

theorem bucketEntry_eq (entry : String × Value) (result : String × Bson Decimal128)
    (translated : bucketEntry formats entry = .ok result) :
    result = (partKey "bucket" entry.1, translatedPart formats "bucket" entry.1 entry.2) := by
  unfold bucketEntry at translated
  split at translated
  · exact (Except.ok.inj translated).symm
  · rename_i value
    obtain ⟨fields, document, same⟩ := bind_eq_ok.mp translated
    cases value with
    | map entries =>
        obtain rfl := Except.ok.inj document
        exact (Except.ok.inj same).symm
    | _ => cases document
  · rename_i key value notBy notOutput
    rw [← Except.ok.inj translated]
    unfold partKey translatedPart
    split <;> split <;> simp_all

/-- The document of a stage with parts is made part by part. -/
theorem translateStage_parts {stage : String} {parts : ValueMap}
    {document : Document Decimal128}
    (translated : translateStage formats stage (.map parts) = .ok document) :
    document = [(stageKey stage, .document (Table.putAll [] (parts.map fun part =>
      (partKey stage part.1, translatedPart formats stage part.1 part.2))))] := by
  unfold translateStage at translated
  split at translated
  · exact (Except.ok.inj translated).symm
  · exact (Except.ok.inj translated).symm
  · cases translated
  · cases translated
  · cases translated
  · exact (Except.ok.inj translated).symm
  · exact (Except.ok.inj translated).symm
  · cases translated
  · exact (Except.ok.inj translated).symm
  · obtain rfl := Except.ok.inj translated
    have entry : groupEntry formats = fun part =>
        (partKey "group" part.1, translatedPart formats "group" part.1 part.2) := by
      funext part
      rw [groupEntry]
      split
      · rename_i by_
        rw [by_]
        rfl
      · unfold partKey translatedPart
        split <;> split <;> simp_all
    rw [entry]
    rfl
  · obtain ⟨inner, bucket, same⟩ := bind_eq_ok.mp translated
    obtain ⟨entries, each, put⟩ := bind_eq_ok.mp bucket
    obtain rfl := Except.ok.inj same
    obtain rfl := Except.ok.inj put
    rw [eq_map_of_mapM (bucketEntry_eq formats) each]
    rfl
  · cases translated

/-- A stage without parts has a number or a text. -/
theorem translateStage_scalar {stage : String} {inner : Value}
    {document : Document Decimal128} (scalar : ∀ parts, inner ≠ .map parts)
    (translated : translateStage formats stage inner = .ok document) :
    document = stageImage formats (.map [(stage, inner)]) := by
  unfold translateStage at translated
  cases inner with
  | map parts => exact absurd rfl (scalar parts)
  | integer value =>
      split at translated <;> first
        | exact (Except.ok.inj translated).symm
        | cases translated
  | string text =>
      split at translated <;> first
        | exact (Except.ok.inj translated).symm
        | cases translated
  | _ => split at translated <;> cases translated

/-- The document of a stage keeps every name exactly when names of accumulators stand
only in their position and no part is given twice. -/
theorem translatePipelineStage_eq_iff (stage : Value) (distinct : DistinctKeys stage)
    (document : Document Decimal128)
    (translated : translatePipelineStage formats stage = .ok document) :
    document = stageImage formats stage ↔ stageIsPlain stage = true := by
  unfold translatePipelineStage at translated
  split at translated
  · rename_i key inner
    by_cases parted : ∃ parts, inner = .map parts
    · obtain ⟨parts, rfl⟩ := parted
      have within : DistinctKeys (.map parts) :=
        distinct.of_map.2 (key, .map parts) (List.mem_singleton_self _)
      rw [translateStage_parts formats translated, stageImage, innerImage, List.cons_eq_cons,
        Prod.mk.injEq, Bson.document.injEq, and_iff_left rfl, and_iff_right rfl,
        putAll_map_eq_iff, stageIsPlain, Bool.and_eq_true, decide_eq_true_iff, List.all_eq_true]
      apply and_congr_right
      intro _
      exact forall₂_congr fun part member =>
        translatedPart_eq_iff formats key part.1 (within.of_map.2 part member)
    · have scalar : ∀ parts, inner ≠ .map parts := fun parts same => parted ⟨parts, same⟩
      have plain : stageIsPlain (.map [(key, inner)]) = true := by
        unfold stageIsPlain
        split
        · rename_i same
          simp_all
        · rfl
      exact iff_of_true (translateStage_scalar formats scalar translated) plain
  · cases translated
  · cases translated

end Values

/-! ## A filter on a nested field -/

/-- Orders of a month with some number of items. -/
def countFilter : Value :=
  .map [("match", .map [("month", .integer 7), ("items", .map [("count", .integer 3)])])]

/-- Orders of a month, and their total for each customer. -/
def customerTotals : Value :=
  .map [("group", .map [("by", .string "customer"), ("total", .map [("sum", .string "$price")])])]

theorem distinctKeys_customerTotals : DistinctKeys customerTotals := by
  have text (text : String) : DistinctKeys (.string text) := .leaf ⟨nofun, nofun⟩
  have sum : DistinctKeys (.map [("sum", .string "$price")]) :=
    .map (by decide) (by simpa using text "$price")
  have parts : DistinctKeys
      (.map [("by", .string "customer"), ("total", .map [("sum", .string "$price")])]) :=
    .map (by decide) (by simpa using ⟨text "customer", sum⟩)
  exact .map (by decide) (by simpa using parts)

theorem translatePipelineStage_customerTotals :
    ([("$group", .document [("_id", .string "$customer"),
        ("total", .document [("$sum", .string "$price")])])] : Document Decimal) =
      stageImage plainBsonFormats customerTotals ↔ stageIsPlain customerTotals = true :=
  translatePipelineStage_eq_iff plainBsonFormats customerTotals distinctKeys_customerTotals _ rfl

theorem distinctKeys_countFilter : DistinctKeys countFilter := by
  have number (number : Int64) : DistinctKeys (.integer number) := .leaf ⟨nofun, nofun⟩
  have count : DistinctKeys (.map [("count", .integer 3)]) :=
    .map (by decide) (by simpa using number 3)
  have parts : DistinctKeys
      (.map [("month", .integer 7), ("items", .map [("count", .integer 3)])]) :=
    .map (by decide) (by simpa using ⟨number 7, count⟩)
  exact .map (by decide) (by simpa using parts)

/-- The field `count` is replaced by an operator of the database. -/
theorem translatePipelineStage_countFilter :
    DistinctKeys countFilter ∧
      translatePipelineStage plainBsonFormats countFilter =
        .ok [("$match", .document [("month", .int64 7),
          ("items", .document [("$sum", .int64 3)])])] ∧
      stageImage plainBsonFormats countFilter =
        [("$match", .document [("month", .int64 7),
          ("items", .document [("count", .int64 3)])])] ∧
      ¬ ∀ document, translatePipelineStage plainBsonFormats countFilter = .ok document →
        document = stageImage plainBsonFormats countFilter := by
  refine ⟨distinctKeys_countFilter, rfl, rfl, ?_⟩
  intro kept
  have same : ([("$match", .document [("month", .int64 7),
      ("items", .document [("$sum", .int64 3)])])] : Document Decimal) =
    [("$match", .document [("month", .int64 7), ("items", .document [("count", .int64 3)])])] :=
      kept _ rfl
  simp at same

end Marreta
