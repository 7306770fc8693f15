import Marreta.Doc.Mongo
import Marreta.Foundation.HexText

namespace Marreta

open Foundation

/-! Documents as the database keeps them.

A value is written as BSON and read back.  A text that looks like the id of a document is
written as an id where it stands under the key of one, and an id is read as a text. -/

/-- Documents over the 128-bit decimals of the database. -/
inductive Bson (Decimal128 : Type) where
  | double (value : Binary64)
  | decimal128 (value : Decimal128)
  | string (text : String)
  | array (items : List (Bson Decimal128))
  | document (entries : List (String × Bson Decimal128))
  | boolean (value : Bool)
  | null
  | int32 (value : Int32)
  | int64 (value : Int64)
  | objectId (bytes : List UInt8)
  | dateTime (milliseconds : Int64)
  | symbol (text : String)
  | regularExpression (pattern options : String)
  | undefined

/-- What the conversions rely on: the texts of times, and 128-bit decimals, which are
written and read through their texts and keep every decimal of the language. -/
structure BsonFormats (Decimal128 : Type) where
  decimal128 : Decimal → Option Decimal128
  readDecimal128 : Decimal128 → Option Decimal
  date : Int → String
  time : Nat → String
  temporal : TemporalValue → String
  keepsDecimals : ∀ decimal, (decimal128 decimal).bind readDecimal128 = some decimal

/-- An id of a document: twelve bytes. -/
def parseObjectId (text : String) : Option (List UInt8) :=
  (HexText.read? text.toList).filter fun bytes => bytes.length = 12

/-- The id that a text is written as, under the keys of ids. -/
def smartCast (key : String) (value : Value) : Option (List UInt8) :=
  match value with
  | .string text => if key = "_id" ∨ key = "id" then parseObjectId text else none
  | _ => none

section Conversions

variable {Decimal128 : Type} (formats : BsonFormats Decimal128)

mutual
def valueToBson : Value → Bson Decimal128
  | .null => .null
  | .boolean value => .boolean value
  | .integer value => .int64 value
  | .float value => .double value
  | .decimal value =>
      match formats.decimal128 value with
      | some written => .decimal128 written
      | none => .null
  | .string text => .string text
  | .instant nanoseconds => .dateTime (.ofInt (nanoseconds / 1000000))
  | .date days => .string (formats.date days)
  | .time nanoseconds => .string (formats.time nanoseconds)
  | .duration nanoseconds => .int64 (.ofInt (nanoseconds.tdiv 1000000))
  | .interval start stop =>
      .document [("start", .string (formats.temporal start)),
        ("end", .string (formats.temporal stop))]
  | .list items => .array (itemsToBson items)
  | .map entries => .document (entriesToBson entries)
  | _ => .null

def itemsToBson : List Value → List (Bson Decimal128)
  | [] => []
  | item :: items => valueToBson item :: itemsToBson items

def entriesToBson : ValueMap → List (String × Bson Decimal128)
  | [] => []
  | (key, value) :: entries =>
      match smartCast key value with
      | some bytes => (key, .objectId bytes) :: entriesToBson entries
      | none => (key, valueToBson value) :: entriesToBson entries
end

mutual
def bsonToValue : Bson Decimal128 → Value
  | .double value => .float value
  | .decimal128 written =>
      match formats.readDecimal128 written with
      | some value => .decimal value
      | none => .null
  | .string text => .string text
  | .array items => .list (itemsToValue items)
  | .document entries => .map (entriesToValue entries)
  | .boolean value => .boolean value
  | .null => .null
  | .int32 value => .integer value.toInt64
  | .int64 value => .integer value
  | .objectId bytes => .string (String.ofList (HexText.write bytes))
  | .dateTime milliseconds => .instant (milliseconds.toInt * 1000000)
  | .symbol text => .string text
  | .regularExpression pattern _ => .string pattern
  | .undefined => .null

def itemsToValue : List (Bson Decimal128) → List Value
  | [] => []
  | item :: items => bsonToValue item :: itemsToValue items

def entriesToValue : List (String × Bson Decimal128) → ValueMap
  | [] => []
  | (key, item) :: entries => (key, bsonToValue item) :: entriesToValue entries
end

attribute [grind =] valueToBson itemsToBson entriesToBson bsonToValue itemsToValue entriesToValue

/-- The value that is read where a value was written. -/
def readBack (value : Value) : Value :=
  bsonToValue formats (valueToBson formats value)

end Conversions

/-! ## What should be read back -/

/-- Data that documents are made of, with instants in whole milliseconds. -/
inductive Storable : Value → Prop
  | null : Storable .null
  | boolean (value : Bool) : Storable (.boolean value)
  | integer (value : Int64) : Storable (.integer value)
  | float (value : Binary64) : Storable (.float value)
  | decimal (value : Decimal) : Storable (.decimal value)
  | string (text : String) : Storable (.string text)
  | instant (milliseconds : Int64) : Storable (.instant (milliseconds.toInt * 1000000))
  | list {items : List Value} (all : ∀ item ∈ items, Storable item) : Storable (.list items)
  | map {entries : ValueMap} (all : ∀ entry ∈ entries, Storable entry.2) :
      Storable (.map entries)
  | record {name : String} {fields : ValueMap} (all : ∀ entry ∈ fields, Storable entry.2) :
      Storable (.relationalRecord name fields)

mutual
/-- The value with the maps of their fields in place of records. -/
def recordsAsMaps : Value → Value
  | .list items => .list (itemsAsMaps items)
  | .map entries => .map (entriesAsMaps entries)
  | .relationalRecord _ fields => .map (entriesAsMaps fields)
  | value => value

def itemsAsMaps : List Value → List Value
  | [] => []
  | item :: items => recordsAsMaps item :: itemsAsMaps items

def entriesAsMaps : ValueMap → ValueMap
  | [] => []
  | (key, value) :: entries => (key, recordsAsMaps value) :: entriesAsMaps entries
end

/-- A text that is an id in upper case, under the key of an id. -/
def isUpperId (key : String) (value : Value) : Bool :=
  match value with
  | .string text =>
      (key = "_id" || key = "id") && isObjectId text && text.toList.any Char.isUpper
  | _ => false

mutual
/-- No record anywhere, and no id in upper case under the key of an id. -/
def isKept : Value → Bool
  | .list items => itemsKept items
  | .map entries => entriesKept entries
  | .relationalRecord _ _ => false
  | _ => true

def itemsKept : List Value → Bool
  | [] => true
  | item :: items => isKept item && itemsKept items

def entriesKept : ValueMap → Bool
  | [] => true
  | (key, value) :: entries => !isUpperId key value && isKept value && entriesKept entries
end

attribute [grind =] recordsAsMaps itemsAsMaps entriesAsMaps isKept itemsKept entriesKept

/-! ## Texts as ids -/

theorem isObjectId_eq (text : String) :
    isObjectId text = (text.toList.length = 24 && text.toList.all fun char =>
      (HexText.value? char).isSome) := by
  have digit (char : Char) : (char.isDigit || ('a' ≤ char && char ≤ 'f') ||
      ('A' ≤ char && char ≤ 'F')) = (HexText.value? char).isSome := by
    rw [HexText.value?]
    split_ifs <;> simp_all
  rw [isObjectId]
  simp only [digit]

theorem parseObjectId_eq_some_iff {text : String} {bytes : List UInt8} :
    parseObjectId text = some bytes ↔
      isObjectId text ∧ HexText.read? text.toList = some bytes := by
  rw [parseObjectId, Option.filter_eq_some_iff, decide_eq_true_iff, isObjectId_eq,
    Bool.and_eq_true, decide_eq_true_iff, List.all_eq_true]
  constructor
  · rintro ⟨read, length⟩
    have digits := HexText.length_of_read? read
    refine ⟨⟨by omega, ?_⟩, read⟩
    intro char member
    obtain ⟨value, found⟩ := HexText.digits_of_read? read char member
    rw [found]
    rfl
  · rintro ⟨⟨length, -⟩, read⟩
    have digits := HexText.length_of_read? read
    exact ⟨read, by omega⟩

theorem exists_parseObjectId {text : String} (isId : isObjectId text) :
    ∃ bytes, parseObjectId text = some bytes ∧ HexText.read? text.toList = some bytes := by
  have known := isObjectId_eq text
  rw [isId, eq_comm, Bool.and_eq_true, decide_eq_true_iff, List.all_eq_true] at known
  obtain ⟨bytes, read⟩ := HexText.exists_read? (by omega) known.2
  exact ⟨bytes, (parseObjectId_eq_some_iff).mpr ⟨isId, read⟩, read⟩

/-! ## Reading what was written -/

section Reading

variable {Decimal128 : Type} (formats : BsonFormats Decimal128)

/-- The value that is read where an entry of a map was written. -/
def readEntry (key : String) (value : Value) : Value :=
  match smartCast key value with
  | some bytes => .string (String.ofList (HexText.write bytes))
  | none => readBack formats value

theorem itemsToValue_itemsToBson (items : List Value) :
    itemsToValue formats (itemsToBson formats items) = items.map (readBack formats) := by
  induction items with
  | nil => rfl
  | cons item items ih => rw [itemsToBson, itemsToValue, ih, List.map_cons, readBack]

theorem entriesToValue_entriesToBson (entries : ValueMap) :
    entriesToValue formats (entriesToBson formats entries) =
      entries.map fun entry => (entry.1, readEntry formats entry.1 entry.2) := by
  induction entries with
  | nil => rfl
  | cons entry entries ih =>
      obtain ⟨key, value⟩ := entry
      rw [entriesToBson, List.map_cons, readEntry]
      cases smartCast key value with
      | none => exact congrArg _ ih
      | some bytes => exact congrArg _ ih

theorem itemsAsMaps_eq (items : List Value) : itemsAsMaps items = items.map recordsAsMaps := by
  induction items with
  | nil => rfl
  | cons item items ih => rw [itemsAsMaps, ih, List.map_cons]

theorem entriesAsMaps_eq (entries : ValueMap) :
    entriesAsMaps entries = entries.map fun entry => (entry.1, recordsAsMaps entry.2) := by
  induction entries with
  | nil => rfl
  | cons entry entries ih => rw [entriesAsMaps, ih, List.map_cons]

theorem itemsKept_iff (items : List Value) : itemsKept items ↔ ∀ item ∈ items, isKept item := by
  induction items with
  | nil => simp [itemsKept]
  | cons item items ih => simp [itemsKept, ih]

theorem entriesKept_iff (entries : ValueMap) :
    entriesKept entries ↔
      ∀ entry ∈ entries, isUpperId entry.1 entry.2 = false ∧ isKept entry.2 := by
  induction entries with
  | nil => simp [entriesKept]
  | cons entry entries ih => simp [entriesKept, ih, and_assoc]

theorem readBack_decimal (decimal : Decimal) :
    readBack formats (.decimal decimal) = .decimal decimal := by
  obtain ⟨text, written, read⟩ := Option.bind_eq_some_iff.mp (formats.keepsDecimals decimal)
  simp only [readBack, valueToBson, written, bsonToValue, read]

theorem readBack_instant (milliseconds : Int64) :
    readBack formats (.instant (milliseconds.toInt * 1000000)) =
      .instant (milliseconds.toInt * 1000000) := by
  have whole : milliseconds.toInt * 1000000 / 1000000 = milliseconds.toInt :=
    Int.mul_ediv_cancel _ (by decide)
  simp only [readBack, valueToBson, bsonToValue, whole, Int64.ofInt_toInt]

/-- An id is read as its text exactly where the text is in lower case. -/
theorem readEntry_of_id {key text : String} (isKey : key = "_id" ∨ key = "id")
    (isId : isObjectId text) :
    readEntry formats key (.string text) = .string text ↔
      isUpperId key (.string text) = false := by
  obtain ⟨bytes, parsed, read⟩ := exists_parseObjectId isId
  have cast : smartCast key (.string text) = some bytes := by
    simp only [smartCast, if_pos isKey, parsed]
  have upper : isUpperId key (.string text) = text.toList.any Char.isUpper := by
    simp only [isUpperId, isId, Bool.and_true]
    rcases isKey with rfl | rfl <;> simp
  rw [readEntry, cast, upper, Value.string.injEq, List.any_eq_false]
  have texts : String.ofList (HexText.write bytes) = text ↔
      HexText.write bytes = text.toList := by
    rw [← String.toList_inj, String.toList_ofList]
  rw [texts, HexText.write_eq_self_iff read]
  simp

theorem readEntry_of_no_id {key : String} {value : Value} (noCast : smartCast key value = none) :
    readEntry formats key value = readBack formats value ∧ isUpperId key value = false := by
  refine ⟨by rw [readEntry, noCast], ?_⟩
  cases value with
  | string text =>
      by_contra upper
      rw [Bool.not_eq_false, isUpperId, Bool.and_eq_true, Bool.and_eq_true, Bool.or_eq_true,
        decide_eq_true_iff, decide_eq_true_iff] at upper
      obtain ⟨bytes, parsed, -⟩ := exists_parseObjectId upper.1.2
      simp only [smartCast, if_pos upper.1.1, parsed] at noCast
      cases noCast
  | _ => rfl

/-- An entry keeps its value: it is no id in upper case, and the value is kept. -/
theorem readEntry_eq_iff {key : String} {value : Value}
    (kept : readBack formats value = recordsAsMaps value ↔ isKept value) :
    readEntry formats key value = recordsAsMaps value ↔
      isUpperId key value = false ∧ isKept value := by
  cases cast : smartCast key value with
  | none =>
      obtain ⟨same, lower⟩ := readEntry_of_no_id formats cast
      rw [same, kept]
      exact (and_iff_right lower).symm
  | some bytes =>
      cases value with
      | string text =>
          have isKey : key = "_id" ∨ key = "id" := by
            by_contra other
            rw [smartCast, if_neg other] at cast
            cases cast
          rw [smartCast, if_pos isKey] at cast
          have isId := ((parseObjectId_eq_some_iff).mp cast).1
          exact (readEntry_of_id formats isKey isId).trans (and_iff_left rfl).symm
      | _ => cases cast

theorem readEntries_eq_iff {entries : ValueMap}
    (kept : ∀ entry ∈ entries,
      (readBack formats entry.2 = recordsAsMaps entry.2 ↔ isKept entry.2)) :
    readBack formats (.map entries) = .map (entriesAsMaps entries) ↔ entriesKept entries := by
  rw [readBack, valueToBson, bsonToValue, entriesToValue_entriesToBson, entriesAsMaps_eq,
    Value.map.injEq, List.map_inj_left, entriesKept_iff]
  apply forall₂_congr
  intro entry member
  rw [Prod.mk.injEq, ← readEntry_eq_iff formats (kept entry member)]
  exact and_iff_right rfl

/-- A value is read back as it was written, with maps for records, exactly when it is kept. -/
theorem readBack_eq_iff_isKept (value : Value) (storable : Storable value) :
    readBack formats value = recordsAsMaps value ↔ isKept value := by
  induction storable with
  | null | boolean _ | integer _ | float _ | string _ => exact iff_of_true rfl rfl
  | decimal value => exact iff_of_true (readBack_decimal formats value) rfl
  | instant milliseconds => exact iff_of_true (readBack_instant formats milliseconds) rfl
  | @list items _ ih =>
      rw [readBack, valueToBson, bsonToValue, itemsToValue_itemsToBson, recordsAsMaps,
        itemsAsMaps_eq, Value.list.injEq, List.map_inj_left, isKept, itemsKept_iff]
      exact forall₂_congr ih
  | @map entries _ ih => exact readEntries_eq_iff formats ih
  | record => exact iff_of_false (fun same => nomatch same) (by simp [isKept])

end Reading

/-! ## An order with its ids -/

/-- The database keeps a decimal as it is. -/
def plainBsonFormats : BsonFormats Decimal where
  decimal128 := some
  readDecimal128 := some
  date days := toString days
  time nanoseconds := toString nanoseconds
  temporal
    | .instant nanoseconds => toString nanoseconds
    | .date days => toString days
    | .time nanoseconds => toString nanoseconds
  keepsDecimals _ := rfl

def savedOrder (id : String) : Value :=
  .map [("_id", .string id), ("total", .integer 3)]

theorem storable_savedOrder (id : String) : Storable (savedOrder id) := by
  apply Storable.map
  intro entry member
  simp only [List.mem_cons, List.not_mem_nil, or_false] at member
  rcases member with rfl | rfl
  · exact .string id
  · exact .integer 3

theorem readBack_savedOrder :
    readBack plainBsonFormats (savedOrder "507f1f77bcf86cd799439011") =
        recordsAsMaps (savedOrder "507f1f77bcf86cd799439011") ↔
      isKept (savedOrder "507f1f77bcf86cd799439011") :=
  readBack_eq_iff_isKept plainBsonFormats _ (storable_savedOrder _)

theorem readBack_savedOrder_upperCase :
    Storable (savedOrder "507F1F77BCF86CD799439011") ∧
      readBack plainBsonFormats (savedOrder "507F1F77BCF86CD799439011") ≠
        recordsAsMaps (savedOrder "507F1F77BCF86CD799439011") := by
  refine ⟨storable_savedOrder _, ?_⟩
  intro same
  have kept := (readEntries_eq_iff plainBsonFormats (by
    intro entry member
    simp only [List.mem_cons, List.not_mem_nil, or_false] at member
    rcases member with rfl | rfl
    · exact iff_of_true rfl rfl
    · exact iff_of_true rfl rfl)).mp same
  revert kept
  decide

end Marreta
