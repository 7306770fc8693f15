import Marreta.Foundation.Ensures
import Marreta.Foundation.Table
import Marreta.Runtime.Json

namespace Marreta

open Foundation

/-! JSON texts of values.  A value is written in three ways: as a document that is
then printed, straight into a text, and as a document that only plain data has. -/

/-! ## Serializers -/

/-- What a data type writes itself with. -/
structure Serializer (Out : Type) where
  serializeI64 : Int64 → Out
  serializeU64 : UInt64 → Out
  serializeF64 : Binary64 → Out
  serializeStr : String → Out
  serializeBool : Bool → Out
  serializeUnit : Out
  serializeNone : Out
  serializeSeq : List Out → Out
  serializeMap : List (String × Out) → Out

/-- Whole numbers are written alike at both types, and so are both forms of nothing. -/
structure Serializer.Lawful {Out : Type} (serializer : Serializer Out) : Prop where
  unsigned : ∀ number : Int64, ¬ number < 0 →
    serializer.serializeU64 number.toUInt64 = serializer.serializeI64 number
  nothing : serializer.serializeUnit = serializer.serializeNone

namespace Binary64

/-- The exponent is not all ones. -/
def isFinite (number : Binary64) : Bool :=
  number.bits &&& 0x7FF0000000000000 != 0x7FF0000000000000

end Binary64

/-! ## Documents -/

namespace JsonNumber

def ofInt64 (number : Int64) : JsonNumber :=
  if number < 0 then .negInt number else .posInt number.toUInt64

def serialize {Out : Type} (serializer : Serializer Out) : JsonNumber → Out
  | .posInt value => serializer.serializeU64 value
  | .negInt value => serializer.serializeI64 value
  | .float value => serializer.serializeF64 value

end JsonNumber

namespace Json

def ofInt64 (number : Int64) : Json :=
  .number (.ofInt64 number)

/-- Numbers that are not finite have no JSON form. -/
def ofFloat (number : Binary64) : Json :=
  if number.isFinite then .number (.float number) else .null

/-- Collect members; the names of an object are distinct. -/
def collect (members : List (String × Json)) : Json :=
  .object (Table.putAll [] members)

section Serialize

variable {Out : Type} (serializer : Serializer Out)

mutual
def serialize : Json → Out
  | .null => serializer.serializeUnit
  | .bool value => serializer.serializeBool value
  | .number value => value.serialize serializer
  | .string text => serializer.serializeStr text
  | .array items => serializer.serializeSeq (serializeItems items)
  | .object entries => serializer.serializeMap (serializeEntries entries)

def serializeItems : List Json → List Out
  | [] => []
  | item :: items => item.serialize :: serializeItems items

def serializeEntries : List (String × Json) → List (String × Out)
  | [] => []
  | (name, json) :: entries => (name, json.serialize) :: serializeEntries entries
end

end Serialize

end Json

/-! ## Texts -/

/-- The texts of numbers and moments. -/
structure ScalarTexts where
  /-- The shortest decimal that reads back as a finite number. -/
  float : Binary64 → String
  decimal : Decimal → String
  formatInstant : Int → String
  formatDate : Int → String
  formatTime : Nat → String
  formatDuration : Int → String

namespace ScalarTexts

variable (texts : ScalarTexts)

def temporalValueToString : TemporalValue → String
  | .instant nanoseconds => texts.formatInstant nanoseconds
  | .date days => texts.formatDate days
  | .time nanoseconds => texts.formatTime nanoseconds

end ScalarTexts

namespace JsonText

def hexDigit (digit : Nat) : Char :=
  if digit < 10 then Char.ofNat (48 + digit) else Char.ofNat (87 + digit)

def escapeChar (char : Char) : List Char :=
  if char = '"' then ['\\', '"']
  else if char = '\\' then ['\\', '\\']
  else if char = '\n' then ['\\', 'n']
  else if char = '\r' then ['\\', 'r']
  else if char = '\t' then ['\\', 't']
  else if char.toNat = 8 then ['\\', 'b']
  else if char.toNat = 12 then ['\\', 'f']
  else if char.toNat < 32 then
    ['\\', 'u', '0', '0', hexDigit (char.toNat / 16), hexDigit (char.toNat % 16)]
  else [char]

def quote (text : String) : String :=
  "\"" ++ String.ofList (text.toList.flatMap escapeChar) ++ "\""

def member (entry : String × String) : String :=
  quote entry.1 ++ ":" ++ entry.2

/-- The compact text.  Writing to a text does not fail. -/
def compact (texts : ScalarTexts) : Serializer String where
  serializeI64 number := toString number
  serializeU64 number := toString number
  serializeF64 number := if number.isFinite then texts.float number else "null"
  serializeStr := quote
  serializeBool value := if value then "true" else "false"
  serializeUnit := "null"
  serializeNone := "null"
  serializeSeq items := "[" ++ ",".intercalate items ++ "]"
  serializeMap entries := "\x7b" ++ ",".intercalate (entries.map member) ++ "\x7d"

theorem compact_lawful (texts : ScalarTexts) : (compact texts).Lawful where
  unsigned number positive := by
    have nonnegative : 0 ≤ number := Int64.not_lt.mp positive
    have same : (number.toUInt64.toNat : Int) = number.toInt := by
      rw [Int64.toNat_toUInt64_of_le nonnegative, Int64.cast_toNatClampNeg number nonnegative]
    change toString number.toUInt64.toNat = toString number.toInt
    rw [← same]
    rfl
  nothing := rfl

end JsonText

def Json.toText (texts : ScalarTexts) (json : Json) : String :=
  json.serialize (JsonText.compact texts)

/-! ## Values -/

section Values

variable (texts : ScalarTexts)

mutual
def valueToJson : Value → Json
  | .integer number => Json.ofInt64 number
  | .float number => Json.ofFloat number
  | .decimal number => .string (texts.decimal number)
  | .string text => .string text
  | .boolean value => .bool value
  | .instant nanoseconds => .string (texts.formatInstant nanoseconds)
  | .date days => .string (texts.formatDate days)
  | .time nanoseconds => .string (texts.formatTime nanoseconds)
  | .duration nanoseconds => .string (texts.formatDuration nanoseconds)
  | .interval start stop => Json.collect
      [("start", .string (texts.temporalValueToString start)),
        ("end", .string (texts.temporalValueToString stop))]
  | .null => .null
  | .list items => .array (itemsToJson items)
  | .map entries => Json.collect (entriesToJson entries)
  | .relationalRecord _ fields => Json.collect (entriesToJson fields)
  | .task task => Json.collect [("task", .string task.name)]
  | .dbNamespace | .dbTable _ | .relationHandle _ _ _ | .queryBuilder _ => .null
  | .docNamespace | .docCollection _ | .docQueryBuilder _ => .null
  | .cacheNamespace => .null
  | .fsNamespace => .null
  | .jsonNamespace => .null
  | .base64Namespace => .null
  | .uuidNamespace => .null
  | .featureNamespace => .null
  | .logNamespace => .null
  | .timeNamespace => .null
  | .mathNamespace => .null
  | .httpClientNamespace => .null

def itemsToJson : List Value → List Json
  | [] => []
  | item :: items => valueToJson item :: itemsToJson items

def entriesToJson : List (String × Value) → List (String × Json)
  | [] => []
  | (name, value) :: entries => (name, valueToJson value) :: entriesToJson entries
end

section Direct

variable {Out : Type} (serializer : Serializer Out)

mutual
/-- A value written without a document. -/
def serializeValue : Value → Out
  | .integer number => serializer.serializeI64 number
  | .float number =>
      if number.isFinite then serializer.serializeF64 number else serializer.serializeNone
  | .decimal number => serializer.serializeStr (texts.decimal number)
  | .string text => serializer.serializeStr text
  | .boolean value => serializer.serializeBool value
  | .instant nanoseconds => serializer.serializeStr (texts.formatInstant nanoseconds)
  | .date days => serializer.serializeStr (texts.formatDate days)
  | .time nanoseconds => serializer.serializeStr (texts.formatTime nanoseconds)
  | .duration nanoseconds => serializer.serializeStr (texts.formatDuration nanoseconds)
  | .interval start stop => serializer.serializeMap
      [("start", serializer.serializeStr (texts.temporalValueToString start)),
        ("end", serializer.serializeStr (texts.temporalValueToString stop))]
  | .null => serializer.serializeNone
  | .list items => serializer.serializeSeq (serializeItems items)
  | .map entries => serializer.serializeMap (serializeValueMap entries)
  | .relationalRecord _ fields => serializer.serializeMap (serializeValueMap fields)
  | .task task => serializer.serializeMap [("task", serializer.serializeStr task.name)]
  | .dbNamespace | .dbTable _ | .relationHandle _ _ _ | .queryBuilder _ | .docNamespace
  | .docCollection _ | .docQueryBuilder _ | .cacheNamespace | .fsNamespace
  | .jsonNamespace | .base64Namespace | .uuidNamespace | .featureNamespace | .logNamespace
  | .timeNamespace | .mathNamespace | .httpClientNamespace => serializer.serializeNone

def serializeItems : List Value → List Out
  | [] => []
  | item :: items => serializeValue item :: serializeItems items

def serializeValueMap : List (String × Value) → List (String × Out)
  | [] => []
  | (name, value) :: entries => (name, serializeValue value) :: serializeValueMap entries
end

end Direct

def valueToJsonString (value : Value) : String :=
  serializeValue texts (JsonText.compact texts) value

mutual
def valueToJsonStrict : Value → Except String Json
  | .integer number => .ok (Json.ofInt64 number)
  | .float number => .ok (Json.ofFloat number)
  | .decimal number => .ok (.string (texts.decimal number))
  | .string text => .ok (.string text)
  | .boolean value => .ok (.bool value)
  | .instant nanoseconds => .ok (.string (texts.formatInstant nanoseconds))
  | .date days => .ok (.string (texts.formatDate days))
  | .time nanoseconds => .ok (.string (texts.formatTime nanoseconds))
  | .duration nanoseconds => .ok (.string (texts.formatDuration nanoseconds))
  | .interval start stop => .ok (Json.collect
      [("start", .string (texts.temporalValueToString start)),
        ("end", .string (texts.temporalValueToString stop))])
  | .null => .ok .null
  | .list items => do return .array (← itemsToJsonStrict items)
  | .map entries => do return Json.collect (← entriesToJsonStrict entries)
  | .relationalRecord _ fields => do return Json.collect (← entriesToJsonStrict fields)
  | other => .error ("json values cannot serialize " ++ other.typeName)

def itemsToJsonStrict : List Value → Except String (List Json)
  | [] => return []
  | item :: items => do
      let json ← valueToJsonStrict item
      return json :: (← itemsToJsonStrict items)

def entriesToJsonStrict : List (String × Value) → Except String (List (String × Json))
  | [] => return []
  | (name, value) :: entries => do
      let json ← valueToJsonStrict value
      return (name, json) :: (← entriesToJsonStrict entries)
end

/-! ## Objects -/

end Values

/-- Members with distinct names are collected as they are. -/
theorem Json.collect_eq {members : List (String × Json)}
    (distinct : (Table.keys members).Nodup) : Json.collect members = .object members := by
  rw [Json.collect, Table.putAll_of_nodup (by simpa using distinct), List.nil_append]

mutual
/-- Maps have at most one entry for each name, at every depth. -/
def Value.KeysDistinct : Value → Prop
  | .list items => ItemsKeysDistinct items
  | .map entries => (Table.keys entries).Nodup ∧ EntriesKeysDistinct entries
  | .relationalRecord _ fields => (Table.keys fields).Nodup ∧ EntriesKeysDistinct fields
  | _ => True

def ItemsKeysDistinct : List Value → Prop
  | [] => True
  | item :: items => item.KeysDistinct ∧ ItemsKeysDistinct items

def EntriesKeysDistinct : List (String × Value) → Prop
  | [] => True
  | (_, value) :: entries => value.KeysDistinct ∧ EntriesKeysDistinct entries
end

section Agreement

variable (texts : ScalarTexts) {Out : Type} {serializer : Serializer Out}

theorem entriesToJson_eq (entries : List (String × Value)) :
    entriesToJson texts entries =
      entries.map fun entry => (entry.1, valueToJson texts entry.2) := by
  induction entries with
  | nil => rfl
  | cons entry entries induction => rw [entriesToJson, induction, List.map_cons]

theorem keys_entriesToJson (entries : List (String × Value)) :
    Table.keys (entriesToJson texts entries) = Table.keys entries := by
  simp [entriesToJson_eq, Table.keys, Function.comp_def]

theorem collect_entriesToJson {entries : List (String × Value)}
    (distinct : (Table.keys entries).Nodup) :
    Json.collect (entriesToJson texts entries) = .object (entriesToJson texts entries) := by
  apply Json.collect_eq
  rw [keys_entriesToJson]
  exact distinct

theorem serialize_ofInt64 (lawful : serializer.Lawful) (number : Int64) :
    (Json.ofInt64 number).serialize serializer = serializer.serializeI64 number := by
  rw [Json.ofInt64, Json.serialize, JsonNumber.ofInt64]
  split
  · rfl
  · rename_i positive
    exact lawful.unsigned number positive

theorem serialize_ofFloat (lawful : serializer.Lawful) (number : Binary64) :
    (Json.ofFloat number).serialize serializer =
      if number.isFinite then serializer.serializeF64 number else serializer.serializeNone := by
  rw [Json.ofFloat]
  split
  · rfl
  · exact lawful.nothing

/-! ## The direct writer -/

mutual
/-- A value writes itself as its document does. -/
theorem serialize_valueToJson (lawful : serializer.Lawful) :
    ∀ value : Value, value.KeysDistinct →
      (valueToJson texts value).serialize serializer = serializeValue texts serializer value
  | .integer number, _ => serialize_ofInt64 lawful number
  | .float number, _ => serialize_ofFloat lawful number
  | .decimal _, _ | .string _, _ | .boolean _, _ => rfl
  | .instant _, _ | .date _, _ | .time _, _ | .duration _, _ | .interval _ _, _ => rfl
  | .null, _ => lawful.nothing
  | .list items, distinct =>
      congrArg serializer.serializeSeq (serializeItems_itemsToJson lawful items distinct)
  | .map entries, distinct => by
      rw [valueToJson, collect_entriesToJson texts distinct.1]
      exact congrArg serializer.serializeMap
        (serializeEntries_entriesToJson lawful entries distinct.2)
  | .relationalRecord _ fields, distinct => by
      rw [valueToJson, collect_entriesToJson texts distinct.1]
      exact congrArg serializer.serializeMap
        (serializeEntries_entriesToJson lawful fields distinct.2)
  | .task _, _ => rfl
  | .dbNamespace, _ | .dbTable _, _ | .relationHandle _ _ _, _ | .queryBuilder _, _ =>
      lawful.nothing
  | .docNamespace, _ | .docCollection _, _ | .docQueryBuilder _, _ => lawful.nothing
  | .cacheNamespace, _ | .fsNamespace, _ | .jsonNamespace, _ | .base64Namespace, _ =>
      lawful.nothing
  | .uuidNamespace, _ | .featureNamespace, _ | .logNamespace, _ | .timeNamespace, _ =>
      lawful.nothing
  | .mathNamespace, _ | .httpClientNamespace, _ => lawful.nothing

theorem serializeItems_itemsToJson (lawful : serializer.Lawful) :
    ∀ items : List Value, ItemsKeysDistinct items →
      Json.serializeItems serializer (itemsToJson texts items) =
        serializeItems texts serializer items
  | [], _ => rfl
  | item :: items, distinct => by
      rw [itemsToJson, Json.serializeItems, serializeItems,
        serialize_valueToJson lawful item distinct.1,
        serializeItems_itemsToJson lawful items distinct.2]

theorem serializeEntries_entriesToJson (lawful : serializer.Lawful) :
    ∀ entries : List (String × Value), EntriesKeysDistinct entries →
      Json.serializeEntries serializer (entriesToJson texts entries) =
        serializeValueMap texts serializer entries
  | [], _ => rfl
  | (_, value) :: entries, distinct => by
      rw [entriesToJson, Json.serializeEntries, serializeValueMap,
        serialize_valueToJson lawful value distinct.1,
        serializeEntries_entriesToJson lawful entries distinct.2]
end

/-! ## The strict document -/

mutual
/-- A strict document is the document of the value. -/
theorem valueToJson_of_strict : ∀ (value : Value) {json : Json},
    valueToJsonStrict texts value = .ok json → json = valueToJson texts value
  | .integer _, _, strict | .float _, _, strict | .decimal _, _, strict
  | .string _, _, strict | .boolean _, _, strict | .instant _, _, strict
  | .date _, _, strict | .time _, _, strict | .duration _, _, strict
  | .interval _ _, _, strict | .null, _, strict => (Except.ok.inj strict).symm
  | .list items, _, strict => by
      obtain ⟨documents, found, same⟩ := bind_eq_ok.mp strict
      rw [valueToJson, ← itemsToJson_of_strict items found]
      exact (Except.ok.inj same).symm
  | .map entries, _, strict => by
      obtain ⟨members, found, same⟩ := bind_eq_ok.mp strict
      rw [valueToJson, ← entriesToJson_of_strict entries found]
      exact (Except.ok.inj same).symm
  | .relationalRecord _ fields, _, strict => by
      obtain ⟨members, found, same⟩ := bind_eq_ok.mp strict
      rw [valueToJson, ← entriesToJson_of_strict fields found]
      exact (Except.ok.inj same).symm
  | .task _, _, strict => nomatch strict
  | .dbNamespace, _, strict | .dbTable _, _, strict | .relationHandle _ _ _, _, strict
  | .queryBuilder _, _, strict | .docNamespace, _, strict | .docCollection _, _, strict
  | .docQueryBuilder _, _, strict | .cacheNamespace, _, strict | .fsNamespace, _, strict
  | .jsonNamespace, _, strict | .base64Namespace, _, strict | .uuidNamespace, _, strict
  | .featureNamespace, _, strict | .logNamespace, _, strict | .timeNamespace, _, strict
  | .mathNamespace, _, strict | .httpClientNamespace, _, strict => nomatch strict

theorem itemsToJson_of_strict : ∀ (items : List Value) {documents : List Json},
    itemsToJsonStrict texts items = .ok documents → documents = itemsToJson texts items
  | [], _, strict => (Except.ok.inj strict).symm
  | item :: items, _, strict => by
      obtain ⟨json, found, strict⟩ := bind_eq_ok.mp strict
      obtain ⟨documents, rest, same⟩ := bind_eq_ok.mp strict
      rw [itemsToJson, ← valueToJson_of_strict item found, ← itemsToJson_of_strict items rest]
      exact (Except.ok.inj same).symm

theorem entriesToJson_of_strict : ∀ (entries : List (String × Value))
    {members : List (String × Json)},
    entriesToJsonStrict texts entries = .ok members → members = entriesToJson texts entries
  | [], _, strict => (Except.ok.inj strict).symm
  | (name, value) :: entries, _, strict => by
      obtain ⟨json, found, strict⟩ := bind_eq_ok.mp strict
      obtain ⟨members, rest, same⟩ := bind_eq_ok.mp strict
      rw [entriesToJson, ← valueToJson_of_strict value found,
        ← entriesToJson_of_strict entries rest]
      exact (Except.ok.inj same).symm
end

/-! ## The three ways together -/

/-- The direct writer writes what the document writes, as a text for one, the members of an
object stand in the order of its entries, and a strict document is the same document. -/
theorem jsonWritersAgree (lawful : serializer.Lawful) (value : Value)
    (distinct : value.KeysDistinct) :
    serializeValue texts serializer value = (valueToJson texts value).serialize serializer ∧
    valueToJsonString texts value = (valueToJson texts value).toText texts ∧
    (∀ entries, value.recordEntries = some entries →
      valueToJson texts value =
        .object (entries.map fun entry => (entry.1, valueToJson texts entry.2))) ∧
    (∀ json, valueToJsonStrict texts value = .ok json → json = valueToJson texts value) := by
  refine ⟨?_, ?_, ?_, fun json strict => valueToJson_of_strict texts value strict⟩
  · exact (serialize_valueToJson texts lawful value distinct).symm
  · exact (serialize_valueToJson texts (JsonText.compact_lawful texts) value distinct).symm
  · intro entries record
    rw [← entriesToJson_eq]
    cases value with
    | map own | relationalRecord _ own =>
        obtain rfl : own = entries := Option.some.inj record
        rw [valueToJson, collect_entriesToJson texts distinct.1]
    | _ => cases record

end Agreement

/-- Texts for values without finite floats, decimals and moments. -/
def noTexts : ScalarTexts where
  float _ := ""
  decimal _ := ""
  formatInstant _ := ""
  formatDate _ := ""
  formatTime _ := ""
  formatDuration _ := ""

/-- A record with a list in it and a number that is not finite. -/
def reading : Value :=
  .relationalRecord "Reading" [("id", .integer 7),
    ("tags", .list [.string "first", .null, .map [("ok", .boolean true)]]),
    ("ratio", .float ⟨0x7FF0000000000000⟩)]

theorem jsonWritersAgree_reading :
    valueToJsonString noTexts reading = (valueToJson noTexts reading).toText noTexts ∧
    ∃ json, valueToJsonStrict noTexts reading = .ok json ∧ json = valueToJson noTexts reading := by
  have agree := jsonWritersAgree noTexts (JsonText.compact_lawful noTexts) reading
    ⟨by decide, trivial, ⟨trivial, trivial, ⟨by decide, trivial, trivial⟩, trivial⟩, trivial,
      trivial⟩
  exact ⟨agree.1, _, rfl, agree.2.2.2 _ rfl⟩

end Marreta
