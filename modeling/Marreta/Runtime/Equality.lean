import Marreta.Foundation.Binary64Values
import Marreta.Foundation.FirstOccurrences
import Marreta.Foundation.Table
import Marreta.Runtime.Operators
import Mathlib

namespace Marreta

open Foundation

/-! Equality of values.

Numbers of the three kinds are compared in pairs: an integer with a decimal as the
decimal it is, with a float as the nearest float, and a decimal with a float not at all.
Lists are compared position by position and maps key by key, in any order of the keys. -/

namespace Value

section Parts

variable (query other : Query) (cardinality otherCardinality : RelationCardinality)
variable (nullShortCircuit otherShortCircuit : Bool)

/-- Two unevaluated relations. -/
def handlesEqual : Bool :=
  cardinality = otherCardinality && nullShortCircuit = otherShortCircuit &&
    query.table = other.table && query.selectCols = other.selectCols &&
    query.orderBy = other.orderBy && query.limit = other.limit && query.offset = other.offset

end Parts

mutual
def equals : Value → Value → Bool
  | .integer a, .integer b => a = b
  | .float a, .float b => a.equals b
  | .decimal a, .decimal b => a.toRat = b.toRat
  | .integer a, .decimal b => (Decimal.ofInteger a).toRat = b.toRat
  | .decimal a, .integer b => a.toRat = (Decimal.ofInteger b).toRat
  | .integer a, .float b => (Binary64.ofInt64 a).equals b
  | .float a, .integer b => a.equals (Binary64.ofInt64 b)
  | .string a, .string b => a = b
  | .boolean a, .boolean b => a = b
  | .instant a, .instant b => a = b
  | .date a, .date b => a = b
  | .time a, .time b => a = b
  | .duration a, .duration b => a = b
  | .interval aStart aStop, .interval bStart bStop => aStart = bStart && aStop = bStop
  | .null, .null => true
  | .list a, .list b => itemsEqual a b
  | .map a, .map b => a.length = b.length && entriesEqual a b
  | .relationalRecord aName aFields, .relationalRecord bName bFields =>
      aName = bName && (aFields.length = bFields.length && entriesEqual aFields bFields)
  | .dbNamespace, .dbNamespace => true
  | .dbTable a, .dbTable b => a = b
  | .relationHandle a aCardinality aNull, .relationHandle b bCardinality bNull =>
      handlesEqual a b aCardinality bCardinality aNull bNull
  | .docNamespace, .docNamespace => true
  | .cacheNamespace, .cacheNamespace => true
  | .fsNamespace, .fsNamespace => true
  | .jsonNamespace, .jsonNamespace => true
  | .base64Namespace, .base64Namespace => true
  | .uuidNamespace, .uuidNamespace => true
  | .featureNamespace, .featureNamespace => true
  | .logNamespace, .logNamespace => true
  | .timeNamespace, .timeNamespace => true
  | .mathNamespace, .mathNamespace => true
  | .httpClientNamespace, .httpClientNamespace => true
  | .docCollection a, .docCollection b => a = b
  | _, _ => false

def itemsEqual : List Value → List Value → Bool
  | [], [] => true
  | a :: as, b :: bs => equals a b && itemsEqual as bs
  | _, _ => false

/-- Every entry of the first map has an equal one in the second. -/
def entriesEqual : ValueMap → ValueMap → Bool
  | [], _ => true
  | (key, value) :: entries, others =>
      (match ValueMap.get? others key with
        | some other => equals value other
        | none => false) && entriesEqual entries others
end

/-- The `unique` method of lists: the elements seen so far, and the result. -/
def unique (items : List Value) : List Value :=
  (items.foldl
    (fun (seen, result) item =>
      if seen.any fun other => equals other item then (seen, result)
      else (seen ++ [item], result ++ [item]))
    (([], []) : List Value × List Value)).2

/-! ## What is compared -/

def isPlain : Value → Bool
  | .string _ | .boolean _ | .null => true
  | .instant _ | .date _ | .time _ | .duration _ | .interval _ _ => true
  | _ => false

/-- Data of a program: finite numbers, texts, times, and the lists, maps and records of
such data. -/
inductive IsData : Value → Prop
  | plain {value : Value} (plain : value.isPlain) : IsData value
  | integer (n : Int64) : IsData (.integer n)
  | decimal (d : Decimal) : IsData (.decimal d)
  | float {f : Binary64} (finite : f.hasMagnitude) : IsData (.float f)
  | list {items : List Value} (all : ∀ item ∈ items, IsData item) : IsData (.list items)
  | map {entries : ValueMap} (distinct : (Table.keys entries).Nodup)
      (all : ∀ entry ∈ entries, IsData entry.2) : IsData (.map entries)
  | record {name : String} {fields : ValueMap} (distinct : (Table.keys fields).Nodup)
      (all : ∀ entry ∈ fields, IsData entry.2) : IsData (.relationalRecord name fields)

/-- Two values stand for the same data: the same number, where an integer is rounded to
compare it with a float; the same elements in order; the same entries in any order. -/
inductive Agree : Value → Value → Prop
  | plain {value : Value} (plain : value.isPlain) : Agree value value
  | integers (n : Int64) : Agree (.integer n) (.integer n)
  | decimals {a b : Decimal} (same : a.toRat = b.toRat) : Agree (.decimal a) (.decimal b)
  | floats {f g : Binary64} (same : f.units = g.units) : Agree (.float f) (.float g)
  | integerDecimal {n : Int64} {d : Decimal} (same : (n.toInt : Rat) = d.toRat) :
      Agree (.integer n) (.decimal d)
  | decimalInteger {n : Int64} {d : Decimal} (same : d.toRat = (n.toInt : Rat)) :
      Agree (.decimal d) (.integer n)
  | integerFloat {n : Int64} {f : Binary64} (rounded : (Binary64.ofInt64 n).units = f.units) :
      Agree (.integer n) (.float f)
  | floatInteger {n : Int64} {f : Binary64} (rounded : f.units = (Binary64.ofInt64 n).units) :
      Agree (.float f) (.integer n)
  | lists {pairs : List (Value × Value)} (all : ∀ pair ∈ pairs, Agree pair.1 pair.2) :
      Agree (.list (pairs.map Prod.fst)) (.list (pairs.map Prod.snd))
  | maps {pairs : List (String × Value × Value)} {right : ValueMap}
      (ordered : (pairs.map fun pair => (pair.1, pair.2.2)).Perm right)
      (all : ∀ pair ∈ pairs, Agree pair.2.1 pair.2.2) :
      Agree (.map (pairs.map fun pair => (pair.1, pair.2.1))) (.map right)
  | records {name : String} {pairs : List (String × Value × Value)} {right : ValueMap}
      (ordered : (pairs.map fun pair => (pair.1, pair.2.2)).Perm right)
      (all : ∀ pair ∈ pairs, Agree pair.2.1 pair.2.2) :
      Agree (.relationalRecord name (pairs.map fun pair => (pair.1, pair.2.1)))
        (.relationalRecord name right)

/-- At one position of three values stand two integers around a float, or a float and a
decimal around an integer. -/
inductive Gap : Value → Value → Value → Prop
  | integers {n m : Int64} {f : Binary64} (different : n ≠ m) :
      Gap (.integer n) (.float f) (.integer m)
  | floatDecimal {n : Int64} {f : Binary64} {d : Decimal} :
      Gap (.float f) (.integer n) (.decimal d)
  | decimalFloat {n : Int64} {f : Binary64} {d : Decimal} :
      Gap (.decimal d) (.integer n) (.float f)
  | item {left middle right : List Value} (index : Nat) {a b c : Value}
      (first : left[index]? = some a) (second : middle[index]? = some b)
      (third : right[index]? = some c) (gap : Gap a b c) :
      Gap (.list left) (.list middle) (.list right)
  | entry {left middle right : ValueMap} (key : String) {a b c : Value}
      (first : left.get? key = some a) (second : middle.get? key = some b)
      (third : right.get? key = some c) (gap : Gap a b c) :
      Gap (.map left) (.map middle) (.map right)
  | field {first second third : String} {left middle right : ValueMap} (key : String)
      {a b c : Value} (firstField : left.get? key = some a)
      (secondField : middle.get? key = some b) (thirdField : right.get? key = some c)
      (gap : Gap a b c) :
      Gap (.relationalRecord first left) (.relationalRecord second middle)
        (.relationalRecord third right)

/-! ## What is equal to what -/

section

attribute [local simp] equals

theorem equals_integer_iff {n : Int64} {value : Value} :
    (Value.integer n).equals value ↔
      .integer n = value ∨ (∃ d, value = .decimal d ∧ (Decimal.ofInteger n).toRat = d.toRat) ∨
        ∃ f, value = .float f ∧ (Binary64.ofInt64 n).equals f := by
  cases value <;> simp

theorem equals_decimal_iff {d : Decimal} {value : Value} :
    (Value.decimal d).equals value ↔
      (∃ other, value = .decimal other ∧ d.toRat = other.toRat) ∨
        ∃ n, value = .integer n ∧ d.toRat = (Decimal.ofInteger n).toRat := by
  cases value <;> simp

theorem equals_float_iff {f : Binary64} {value : Value} :
    (Value.float f).equals value ↔
      (∃ g, value = .float g ∧ f.equals g) ∨
        ∃ n, value = .integer n ∧ f.equals (Binary64.ofInt64 n) := by
  cases value <;> simp

theorem equals_plain_iff {plain value : Value} (isPlain : plain.isPlain) :
    plain.equals value ↔ plain = value := by
  cases plain <;> simp only [Value.isPlain, Bool.false_eq_true] at isPlain <;>
    cases value <;> simp

theorem equals_list_iff {items : List Value} {value : Value} :
    (Value.list items).equals value ↔ ∃ others, value = .list others ∧ itemsEqual items others := by
  cases value <;> simp

theorem equals_map_iff {entries : ValueMap} {value : Value} :
    (Value.map entries).equals value ↔
      ∃ others, value = .map others ∧ entries.length = others.length ∧
        entriesEqual entries others := by
  cases value <;> simp

theorem equals_record_iff {name : String} {fields : ValueMap} {value : Value} :
    (Value.relationalRecord name fields).equals value ↔
      ∃ others, .relationalRecord name others = value ∧ fields.length = others.length ∧
        entriesEqual fields others := by
  cases value <;> simp [and_assoc]

end

theorem itemsEqual_iff {items others : List Value} :
    itemsEqual items others ↔ List.Forall₂ (fun a b => Value.equals a b) items others := by
  induction items generalizing others with
  | nil => cases others <;> simp [itemsEqual]
  | cons item items ih => cases others <;> simp [itemsEqual, ih]

theorem entriesEqual_iff {entries others : ValueMap} :
    entriesEqual entries others ↔
      ∀ entry ∈ entries, ∃ other, others.get? entry.1 = some other ∧ entry.2.equals other := by
  induction entries with
  | nil => simp [entriesEqual]
  | cons entry entries ih =>
      rw [entriesEqual, Bool.and_eq_true, ih, List.forall_mem_cons]
      apply and_congr_left
      intro _
      cases others.get? entry.1 <;> simp

/-- Maps with the same keys and related values, as they are looked up. -/
def EntriesMatch (related : Value → Value → Prop) (left right : ValueMap) : Prop :=
  left.length = right.length ∧
    ∀ key value, left.get? key = some value →
      ∃ other, right.get? key = some other ∧ related value other

theorem get?_of_mem {entries : ValueMap} (distinct : (Table.keys entries).Nodup) {key : String}
    {value : Value} : entries.get? key = some value ↔ (key, value) ∈ entries :=
  ⟨Table.mem_of_lookup, Table.lookup_of_mem distinct⟩

theorem entriesEqual_iff_match {entries others : ValueMap}
    (distinct : (Table.keys entries).Nodup) :
    (entries.length = others.length ∧ entriesEqual entries others) ↔
      EntriesMatch (fun a b => Value.equals a b) entries others := by
  rw [EntriesMatch, entriesEqual_iff]
  apply and_congr_right
  intro _
  constructor
  · intro all key value found
    exact all (key, value) (Table.mem_of_lookup found)
  · intro all entry member
    exact all entry.1 entry.2 (Table.lookup_of_mem distinct member)

namespace EntriesMatch

variable {related : Value → Value → Prop} {left middle right : ValueMap}

theorem isSome (matched : EntriesMatch related left right) {key : String}
    (found : (left.get? key).isSome) : (right.get? key).isSome := by
  obtain ⟨value, foundValue⟩ := Option.isSome_iff_exists.mp found
  obtain ⟨other, foundOther, -⟩ := matched.2 key value foundValue
  rw [foundOther]
  rfl

/-- Maps of one size that match have the same keys. -/
theorem keys_perm (matched : EntriesMatch related left right)
    (distinct : (Table.keys left).Nodup) : (Table.keys left).Perm (Table.keys right) := by
  have contained : Table.keys left ⊆ Table.keys right := by
    intro key member
    exact Table.lookup_isSome.mp (matched.isSome (Table.lookup_isSome.mpr member))
  apply (List.subperm_of_subset distinct contained).perm_of_length_le
  rw [Table.keys, Table.keys, List.length_map, List.length_map, matched.1]

theorem refl (all : ∀ entry ∈ left, related entry.2 entry.2) : EntriesMatch related left left :=
  ⟨rfl, fun key value found => ⟨value, found, all (key, value) (Table.mem_of_lookup found)⟩⟩

theorem symm (matched : EntriesMatch related left right) (distinct : (Table.keys left).Nodup)
    (symmetric : ∀ a, (∃ key, left.get? key = some a) → ∀ b, (∃ key, right.get? key = some b) →
      related a b → related b a) :
    EntriesMatch related right left := by
  refine ⟨matched.1.symm, ?_⟩
  intro key value found
  have member : key ∈ Table.keys left := by
    rw [(matched.keys_perm distinct).mem_iff]
    exact Table.lookup_isSome.mp (by rw [ValueMap.get?] at found; rw [found]; rfl)
  obtain ⟨other, foundOther⟩ := Option.isSome_iff_exists.mp (Table.lookup_isSome.mpr member)
  obtain ⟨again, foundAgain, holds⟩ := matched.2 key other foundOther
  obtain rfl : value = again := Option.some.inj (found.symm.trans foundAgain)
  exact ⟨other, foundOther, symmetric other ⟨key, foundOther⟩ value ⟨key, found⟩ holds⟩

end EntriesMatch

/-! ## Agreement is decided -/

theorem floats_equal_iff {f g : Binary64} (fFinite : f.hasMagnitude) (gFinite : g.hasMagnitude) :
    f.equals g ↔ f.units = g.units :=
  Binary64.equals_iff_units fFinite gFinite

theorem finite_of_data {f : Binary64} (data : IsData (.float f)) : f.hasMagnitude := by
  cases data with
  | plain plain => cases plain
  | float finite => exact finite

theorem items_of_data {items : List Value} (data : IsData (.list items)) :
    ∀ item ∈ items, IsData item := by
  cases data with
  | plain plain => cases plain
  | list all => exact all

theorem entries_of_data {entries : ValueMap} (data : IsData (.map entries)) :
    (Table.keys entries).Nodup ∧ ∀ entry ∈ entries, IsData entry.2 := by
  cases data with
  | plain plain => cases plain
  | map distinct all => exact ⟨distinct, all⟩

theorem fields_of_data {name : String} {fields : ValueMap}
    (data : IsData (.relationalRecord name fields)) :
    (Table.keys fields).Nodup ∧ ∀ entry ∈ fields, IsData entry.2 := by
  cases data with
  | plain plain => cases plain
  | record distinct all => exact ⟨distinct, all⟩

/-- Pairs whose second parts are the entries of a map in another order. -/
theorem match_of_pairs {pairs : List (String × Value × Value)} {right : ValueMap}
    {related : Value → Value → Prop}
    (ordered : (pairs.map fun pair => (pair.1, pair.2.2)).Perm right)
    (distinct : (Table.keys right).Nodup)
    (all : ∀ pair ∈ pairs, related pair.2.1 pair.2.2) :
    EntriesMatch related (pairs.map fun pair => (pair.1, pair.2.1)) right := by
  refine ⟨?_, ?_⟩
  · rw [List.length_map, ← ordered.length_eq, List.length_map]
  · intro key value found
    obtain ⟨pair, member, same⟩ := List.mem_map.mp (Table.mem_of_lookup found)
    obtain ⟨rfl, rfl⟩ := Prod.mk.inj same
    refine ⟨pair.2.2, ?_, all pair member⟩
    apply (get?_of_mem distinct).mpr
    exact ordered.subset (List.mem_map.mpr ⟨pair, member, rfl⟩)

/-- Maps that match are the first and second parts of pairs. -/
theorem pairs_of_match {left right : ValueMap} {related : Value → Value → Prop}
    (matched : EntriesMatch related left right) (distinct : (Table.keys left).Nodup) :
    ∃ pairs : List (String × Value × Value),
      left = pairs.map (fun pair => (pair.1, pair.2.1)) ∧
        (pairs.map fun pair => (pair.1, pair.2.2)).Perm right ∧
          ∀ pair ∈ pairs, (pair.1, pair.2.2) ∈ right ∧ related pair.2.1 pair.2.2 := by
  let pairs := left.map fun entry => (entry.1, entry.2, (right.get? entry.1).getD entry.2)
  have related : ∀ pair ∈ pairs, (pair.1, pair.2.2) ∈ right ∧ related pair.2.1 pair.2.2 := by
    intro pair member
    obtain ⟨entry, entryMember, rfl⟩ := List.mem_map.mp member
    obtain ⟨other, found, holds⟩ := matched.2 entry.1 entry.2
      ((get?_of_mem distinct).mpr entryMember)
    rw [found, Option.getD_some]
    exact ⟨Table.mem_of_lookup found, holds⟩
  have keys : ((pairs.map fun pair => (pair.1, pair.2.2)).map Prod.fst) = Table.keys left := by
    simp only [pairs, List.map_map]
    rfl
  refine ⟨pairs, ?_, ?_, related⟩
  · simp [pairs, List.map_map, Function.comp_def]
  · apply (List.subperm_of_subset ?_ ?_).perm_of_length_le
    · simp [pairs, matched.1]
    · exact List.Nodup.of_map Prod.fst (by rw [keys]; exact distinct)
    · intro entry member
      obtain ⟨pair, pairMember, rfl⟩ := List.mem_map.mp member
      exact (related pair pairMember).1

theorem equals_of_agree {a b : Value} (agree : Agree a b) (aData : IsData a) (bData : IsData b) :
    a.equals b := by
  induction agree with
  | plain plain => exact (equals_plain_iff plain).mpr rfl
  | integers n => exact (equals_integer_iff).mpr (.inl rfl)
  | decimals same => exact (equals_decimal_iff).mpr (.inl ⟨_, rfl, same⟩)
  | floats same =>
      have equal := (floats_equal_iff (finite_of_data aData) (finite_of_data bData)).mpr same
      exact (equals_float_iff).mpr (.inl ⟨_, rfl, equal⟩)
  | integerDecimal same =>
      rw [← Operators.toRat_ofInteger] at same
      exact (equals_integer_iff).mpr (.inr (.inl ⟨_, rfl, same⟩))
  | decimalInteger same =>
      rw [← Operators.toRat_ofInteger] at same
      exact (equals_decimal_iff).mpr (.inr ⟨_, rfl, same⟩)
  | integerFloat rounded =>
      have equal :=
        (floats_equal_iff (Binary64.hasMagnitude_ofInt64 _) (finite_of_data bData)).mpr rounded
      exact (equals_integer_iff).mpr (.inr (.inr ⟨_, rfl, equal⟩))
  | floatInteger rounded =>
      have equal :=
        (floats_equal_iff (finite_of_data aData) (Binary64.hasMagnitude_ofInt64 _)).mpr rounded
      exact (equals_float_iff).mpr (.inr ⟨_, rfl, equal⟩)
  | @lists pairs _ ih =>
      have firsts := items_of_data aData
      have seconds := items_of_data bData
      refine (equals_list_iff).mpr ⟨_, rfl, (itemsEqual_iff).mpr ?_⟩
      rw [List.forall₂_map_left_iff, List.forall₂_map_right_iff, List.forall₂_same]
      intro pair member
      exact ih pair member (firsts _ (List.mem_map_of_mem member))
        (seconds _ (List.mem_map_of_mem member))
  | @maps pairs right ordered _ ih =>
      obtain ⟨distinct, firsts⟩ := entries_of_data aData
      obtain ⟨rightDistinct, seconds⟩ := entries_of_data bData
      have matched : EntriesMatch (fun a b => Value.equals a b) _ right :=
        match_of_pairs ordered rightDistinct fun pair member =>
          ih pair member (firsts _ (List.mem_map_of_mem member))
            (seconds _ (ordered.subset (List.mem_map_of_mem member)))
      exact (equals_map_iff).mpr ⟨_, rfl, (entriesEqual_iff_match distinct).mpr matched⟩
  | @records name pairs right ordered _ ih =>
      obtain ⟨distinct, firsts⟩ := fields_of_data aData
      obtain ⟨rightDistinct, seconds⟩ := fields_of_data bData
      have matched : EntriesMatch (fun a b => Value.equals a b) _ right :=
        match_of_pairs ordered rightDistinct fun pair member =>
          ih pair member (firsts _ (List.mem_map_of_mem member))
            (seconds _ (ordered.subset (List.mem_map_of_mem member)))
      exact (equals_record_iff).mpr ⟨_, rfl, (entriesEqual_iff_match distinct).mpr matched⟩

theorem agree_of_equals {a b : Value} (aData : IsData a) (bData : IsData b)
    (equal : a.equals b) : Agree a b := by
  induction aData generalizing b with
  | plain plain =>
      obtain rfl := (equals_plain_iff plain).mp equal
      exact .plain plain
  | integer n =>
      rcases (equals_integer_iff).mp equal with rfl | ⟨d, rfl, same⟩ | ⟨f, rfl, same⟩
      · exact .integers n
      · rw [Operators.toRat_ofInteger] at same
        exact .integerDecimal same
      · exact .integerFloat
          ((floats_equal_iff (Binary64.hasMagnitude_ofInt64 n) (finite_of_data bData)).mp same)
  | decimal d =>
      rcases (equals_decimal_iff).mp equal with ⟨other, rfl, same⟩ | ⟨n, rfl, same⟩
      · exact .decimals same
      · rw [Operators.toRat_ofInteger] at same
        exact .decimalInteger same
  | float finite =>
      rcases (equals_float_iff).mp equal with ⟨g, rfl, same⟩ | ⟨n, rfl, same⟩
      · exact .floats ((floats_equal_iff finite (finite_of_data bData)).mp same)
      · exact .floatInteger ((floats_equal_iff finite (Binary64.hasMagnitude_ofInt64 n)).mp same)
  | @list items _ ih =>
      obtain ⟨others, rfl, same⟩ := (equals_list_iff).mp equal
      obtain ⟨length, zipped⟩ := List.forall₂_iff_zip.mp ((itemsEqual_iff).mp same)
      have seconds := items_of_data bData
      have agreed : ∀ pair ∈ items.zip others, Agree pair.1 pair.2 := fun pair member =>
        ih _ (List.of_mem_zip member).1 (seconds _ (List.of_mem_zip member).2) (zipped member)
      have lists := Agree.lists agreed
      rwa [List.map_fst_zip (Nat.le_of_eq length), List.map_snd_zip (Nat.le_of_eq length.symm)]
        at lists
  | @map entries distinct _ ih =>
      obtain ⟨others, rfl, same⟩ := (equals_map_iff).mp equal
      obtain ⟨pairs, rfl, ordered, related⟩ :=
        pairs_of_match ((entriesEqual_iff_match distinct).mp same) distinct
      have seconds := (entries_of_data bData).2
      exact .maps ordered fun pair member =>
        ih _ (List.mem_map_of_mem member) (seconds _ (related pair member).1)
          (related pair member).2
  | @record name entries distinct _ ih =>
      obtain ⟨others, rfl, same⟩ := (equals_record_iff).mp equal
      obtain ⟨pairs, rfl, ordered, related⟩ :=
        pairs_of_match ((entriesEqual_iff_match distinct).mp same) distinct
      have seconds := (fields_of_data bData).2
      exact .records ordered fun pair member =>
        ih _ (List.mem_map_of_mem member) (seconds _ (related pair member).1)
          (related pair member).2

/-! ## The laws of equality -/

theorem equals_refl {a : Value} (data : IsData a) : a.equals a := by
  induction data with
  | plain plain => exact (equals_plain_iff plain).mpr rfl
  | integer n => exact (equals_integer_iff).mpr (.inl rfl)
  | decimal d => exact (equals_decimal_iff).mpr (.inl ⟨d, rfl, rfl⟩)
  | float finite =>
      exact (equals_float_iff).mpr (.inl ⟨_, rfl, (floats_equal_iff finite finite).mpr rfl⟩)
  | list _ ih =>
      exact (equals_list_iff).mpr ⟨_, rfl, (itemsEqual_iff).mpr (List.forall₂_same.mpr ih)⟩
  | map distinct _ ih =>
      have matched := (entriesEqual_iff_match distinct).mpr (EntriesMatch.refl ih)
      exact (equals_map_iff).mpr ⟨_, rfl, matched⟩
  | record distinct _ ih =>
      have matched := (entriesEqual_iff_match distinct).mpr (EntriesMatch.refl ih)
      exact (equals_record_iff).mpr ⟨_, rfl, matched⟩

theorem floats_equal_symm {f g : Binary64} (equal : f.equals g) : g.equals f := by
  rw [Binary64.equals] at equal ⊢
  grind

theorem data_of_get? {entries : ValueMap} {key : String} {value : Value}
    (all : ∀ entry ∈ entries, IsData entry.2) (found : entries.get? key = some value) :
    IsData value :=
  all (key, value) (Table.mem_of_lookup found)

theorem equals_symm {a b : Value} (aData : IsData a) (bData : IsData b) (equal : a.equals b) :
    b.equals a := by
  induction aData generalizing b with
  | plain plain =>
      obtain rfl := (equals_plain_iff plain).mp equal
      exact equal
  | integer n =>
      rcases (equals_integer_iff).mp equal with rfl | ⟨d, rfl, same⟩ | ⟨f, rfl, same⟩
      · exact equal
      · exact (equals_decimal_iff).mpr (.inr ⟨n, rfl, same.symm⟩)
      · exact (equals_float_iff).mpr (.inr ⟨n, rfl, floats_equal_symm same⟩)
  | decimal d =>
      rcases (equals_decimal_iff).mp equal with ⟨other, rfl, same⟩ | ⟨n, rfl, same⟩
      · exact (equals_decimal_iff).mpr (.inl ⟨d, rfl, same.symm⟩)
      · exact (equals_integer_iff).mpr (.inr (.inl ⟨d, rfl, same.symm⟩))
  | @float f _ =>
      rcases (equals_float_iff).mp equal with ⟨g, rfl, same⟩ | ⟨n, rfl, same⟩
      · exact (equals_float_iff).mpr (.inl ⟨f, rfl, floats_equal_symm same⟩)
      · exact (equals_integer_iff).mpr (.inr (.inr ⟨f, rfl, floats_equal_symm same⟩))
  | @list items _ ih =>
      obtain ⟨others, rfl, same⟩ := (equals_list_iff).mp equal
      have seconds := items_of_data bData
      obtain ⟨length, zipped⟩ := List.forall₂_iff_zip.mp ((itemsEqual_iff).mp same)
      refine (equals_list_iff).mpr ⟨items, rfl, (itemsEqual_iff).mpr ?_⟩
      apply List.Forall₂.flip
      apply List.forall₂_iff_zip.mpr ⟨length, ?_⟩
      intro first second member
      obtain ⟨firstMember, secondMember⟩ := List.of_mem_zip member
      exact ih first firstMember (seconds second secondMember) (zipped member)
  | @map entries distinct _ ih =>
      obtain ⟨others, rfl, same⟩ := (equals_map_iff).mp equal
      obtain ⟨otherDistinct, seconds⟩ := entries_of_data bData
      have matched := ((entriesEqual_iff_match distinct).mp same).symm distinct
        fun first ⟨key, found⟩ second ⟨other, otherFound⟩ holds =>
          ih (key, first) (Table.mem_of_lookup found) (data_of_get? seconds otherFound) holds
      exact (equals_map_iff).mpr ⟨entries, rfl, (entriesEqual_iff_match otherDistinct).mpr matched⟩
  | @record name entries distinct _ ih =>
      obtain ⟨others, rfl, same⟩ := (equals_record_iff).mp equal
      obtain ⟨otherDistinct, seconds⟩ := fields_of_data bData
      have matched := ((entriesEqual_iff_match distinct).mp same).symm distinct
        fun first ⟨key, found⟩ second ⟨other, otherFound⟩ holds =>
          ih (key, first) (Table.mem_of_lookup found) (data_of_get? seconds otherFound) holds
      exact (equals_record_iff).mpr
        ⟨entries, rfl, (entriesEqual_iff_match otherDistinct).mpr matched⟩

/-! ## Three values -/

theorem gap_list_iff {left middle right : List Value} :
    Gap (.list left) (.list middle) (.list right) ↔
      ∃ (index : Nat) (a b c : Value), left[index]? = some a ∧ middle[index]? = some b ∧
        right[index]? = some c ∧ Gap a b c := by
  constructor
  · intro gap
    cases gap with
    | item index first second third gap => exact ⟨index, _, _, _, first, second, third, gap⟩
  · rintro ⟨index, a, b, c, first, second, third, gap⟩
    exact .item index first second third gap

theorem gap_map_iff {left middle right : ValueMap} :
    Gap (.map left) (.map middle) (.map right) ↔
      ∃ key a b c, left.get? key = some a ∧ middle.get? key = some b ∧
        right.get? key = some c ∧ Gap a b c := by
  constructor
  · intro gap
    cases gap with
    | entry key first second third gap => exact ⟨key, _, _, _, first, second, third, gap⟩
  · rintro ⟨key, a, b, c, first, second, third, gap⟩
    exact .entry key first second third gap

theorem gap_record_iff {first second third : String} {left middle right : ValueMap} :
    Gap (.relationalRecord first left) (.relationalRecord second middle)
        (.relationalRecord third right) ↔
      Gap (.map left) (.map middle) (.map right) := by
  rw [gap_map_iff]
  constructor
  · intro gap
    cases gap with
    | field key first second third gap => exact ⟨key, _, _, _, first, second, third, gap⟩
  · rintro ⟨key, a, b, c, first, second, third, gap⟩
    exact .field key first second third gap

theorem itemsEqual_iff_index {items others : List Value} :
    itemsEqual items others ↔
      items.length = others.length ∧
        ∀ (index : Nat) (a b : Value), items[index]? = some a → others[index]? = some b →
          a.equals b := by
  rw [itemsEqual_iff, List.forall₂_iff_get]
  apply and_congr_right
  intro length
  constructor
  · intro all index a b first second
    obtain ⟨firstBound, rfl⟩ := List.getElem?_eq_some_iff.mp first
    obtain ⟨secondBound, rfl⟩ := List.getElem?_eq_some_iff.mp second
    exact all index firstBound secondBound
  · intro all index firstBound secondBound
    exact all index _ _ (List.getElem?_eq_getElem firstBound) (List.getElem?_eq_getElem secondBound)

/-- The elements of two pairs of lists are equal in sequence unless there is a gap. -/
theorem items_trans_iff {left middle right : List Value} (first : itemsEqual left middle)
    (second : itemsEqual middle right)
    (compose : ∀ (index : Nat) (a b c : Value), left[index]? = some a → middle[index]? = some b →
      right[index]? = some c → a.equals b → b.equals c → (a.equals c ↔ ¬Gap a b c)) :
    itemsEqual left right ↔ ¬Gap (.list left) (.list middle) (.list right) := by
  obtain ⟨firstLength, firstItems⟩ := (itemsEqual_iff_index).mp first
  obtain ⟨secondLength, secondItems⟩ := (itemsEqual_iff_index).mp second
  rw [gap_list_iff, itemsEqual_iff_index]
  constructor
  · rintro ⟨_, items⟩ ⟨index, a, b, c, foundA, foundB, foundC, gap⟩
    have composed := compose index a b c foundA foundB foundC
      (firstItems index a b foundA foundB) (secondItems index b c foundB foundC)
    exact composed.mp (items index a c foundA foundC) gap
  · intro closed
    refine ⟨firstLength.trans secondLength, ?_⟩
    intro index a c foundA foundC
    obtain ⟨bound, -⟩ := List.getElem?_eq_some_iff.mp foundA
    have foundB := List.getElem?_eq_getElem (firstLength ▸ bound : index < middle.length)
    have composed := compose index a _ c foundA foundB foundC
      (firstItems index a _ foundA foundB) (secondItems index _ c foundB foundC)
    exact composed.mpr fun gap => closed ⟨index, a, _, c, foundA, foundB, foundC, gap⟩

theorem entries_trans_iff {left middle right : ValueMap}
    (first : EntriesMatch (fun a b => Value.equals a b) left middle)
    (second : EntriesMatch (fun a b => Value.equals a b) middle right)
    (compose : ∀ key a b c, left.get? key = some a → middle.get? key = some b →
      right.get? key = some c → a.equals b → b.equals c → (a.equals c ↔ ¬Gap a b c)) :
    EntriesMatch (fun a b => Value.equals a b) left right ↔
      ¬Gap (.map left) (.map middle) (.map right) := by
  rw [gap_map_iff]
  constructor
  · rintro ⟨_, entries⟩ ⟨key, a, b, c, foundA, foundB, foundC, gap⟩
    obtain ⟨b', foundB', ab⟩ := first.2 key a foundA
    obtain rfl : b = b' := Option.some.inj (foundB.symm.trans foundB')
    obtain ⟨c', foundC', bc⟩ := second.2 key b foundB
    obtain rfl : c = c' := Option.some.inj (foundC.symm.trans foundC')
    obtain ⟨c', foundC', ac⟩ := entries key a foundA
    obtain rfl : c = c' := Option.some.inj (foundC.symm.trans foundC')
    exact (compose key a b c foundA foundB foundC ab bc).mp ac gap
  · intro closed
    refine ⟨first.1.trans second.1, ?_⟩
    intro key a foundA
    obtain ⟨b, foundB, ab⟩ := first.2 key a foundA
    obtain ⟨c, foundC, bc⟩ := second.2 key b foundB
    refine ⟨c, foundC, (compose key a b c foundA foundB foundC ab bc).mpr ?_⟩
    exact fun gap => closed ⟨key, a, b, c, foundA, foundB, foundC, gap⟩

theorem floats_equal_trans {f g h : Binary64} (first : f.equals g) (second : g.equals h) :
    f.equals h := by
  rw [Binary64.equals] at first second ⊢
  grind [Binary64.isZero]

theorem ofInteger_injective {n m : Int64}
    (same : (Decimal.ofInteger n).toRat = (Decimal.ofInteger m).toRat) : n = m := by
  rw [Operators.toRat_ofInteger, Operators.toRat_ofInteger] at same
  exact Int64.toInt_inj.mp (by exact_mod_cast same)

/-- Two values equal to a third one are equal, unless there is a gap. -/
theorem equals_trans_iff {a b c : Value} (aData : IsData a) (bData : IsData b) (cData : IsData c)
    (ab : a.equals b) (bc : b.equals c) : a.equals c ↔ ¬Gap a b c := by
  induction aData generalizing b c with
  | @plain a plain =>
      obtain rfl := (equals_plain_iff plain).mp ab
      have none : ¬Gap a a c := by
        intro gap
        cases gap <;> cases plain
      exact iff_of_true bc none
  | integer n =>
      rcases (equals_integer_iff).mp ab with rfl | ⟨d, rfl, nd⟩ | ⟨f, rfl, nf⟩
      · exact iff_of_true bc (fun gap => nomatch gap)
      · rcases (equals_decimal_iff).mp bc with ⟨other, rfl, same⟩ | ⟨m, rfl, dm⟩
        · have sum := (equals_integer_iff).mpr (.inr (.inl ⟨other, rfl, nd.trans same⟩))
          exact iff_of_true sum (fun gap => nomatch gap)
        · obtain rfl := ofInteger_injective (nd.trans dm)
          exact iff_of_true ((equals_integer_iff).mpr (.inl rfl)) (fun gap => nomatch gap)
      · rcases (equals_float_iff).mp bc with ⟨g, rfl, fg⟩ | ⟨m, rfl, fm⟩
        · have rounded := floats_equal_trans nf fg
          exact iff_of_true ((equals_integer_iff).mpr (.inr (.inr ⟨g, rfl, rounded⟩)))
            (fun gap => nomatch gap)
        · by_cases same : n = m
          · subst same
            refine iff_of_true ((equals_integer_iff).mpr (.inl rfl)) ?_
            rintro ⟨⟩
            contradiction
          · refine iff_of_false ?_ (not_not.mpr (.integers same))
            simp [equals, same]
  | decimal d =>
      rcases (equals_decimal_iff).mp ab with ⟨other, rfl, same⟩ | ⟨n, rfl, dn⟩
      · rcases (equals_decimal_iff).mp bc with ⟨last, rfl, lastSame⟩ | ⟨m, rfl, lastSame⟩
        · have sum := (equals_decimal_iff).mpr (.inl ⟨last, rfl, same.trans lastSame⟩)
          exact iff_of_true sum (fun gap => nomatch gap)
        · have sum := (equals_decimal_iff).mpr (.inr ⟨m, rfl, same.trans lastSame⟩)
          exact iff_of_true sum (fun gap => nomatch gap)
      · rcases (equals_integer_iff).mp bc with rfl | ⟨other, rfl, same⟩ | ⟨f, rfl, nf⟩
        · exact iff_of_true ab (fun gap => nomatch gap)
        · have sum := (equals_decimal_iff).mpr (.inl ⟨other, rfl, dn.trans same⟩)
          exact iff_of_true sum (fun gap => nomatch gap)
        · exact iff_of_false (by simp [equals]) (not_not.mpr .decimalFloat)
  | @float f _ =>
      rcases (equals_float_iff).mp ab with ⟨g, rfl, fg⟩ | ⟨n, rfl, fn⟩
      · rcases (equals_float_iff).mp bc with ⟨h, rfl, gh⟩ | ⟨m, rfl, gm⟩
        · have sum := (equals_float_iff).mpr (.inl ⟨h, rfl, floats_equal_trans fg gh⟩)
          exact iff_of_true sum (fun gap => nomatch gap)
        · have sum := (equals_float_iff).mpr (.inr ⟨m, rfl, floats_equal_trans fg gm⟩)
          exact iff_of_true sum (fun gap => nomatch gap)
      · rcases (equals_integer_iff).mp bc with rfl | ⟨d, rfl, nd⟩ | ⟨g, rfl, ng⟩
        · exact iff_of_true ab (fun gap => nomatch gap)
        · exact iff_of_false (by simp [equals]) (not_not.mpr .floatDecimal)
        · have sum := (equals_float_iff).mpr (.inl ⟨g, rfl, floats_equal_trans fn ng⟩)
          exact iff_of_true sum (fun gap => nomatch gap)
  | @list items _ ih =>
      obtain ⟨middle, rfl, first⟩ := (equals_list_iff).mp ab
      obtain ⟨right, rfl, second⟩ := (equals_list_iff).mp bc
      have middles := items_of_data bData
      have rights := items_of_data cData
      rw [← items_trans_iff first second]
      · simp [equals]
      · intro index a b c foundA foundB foundC ab bc
        exact ih a (List.mem_of_getElem? foundA) (middles b (List.mem_of_getElem? foundB))
          (rights c (List.mem_of_getElem? foundC)) ab bc
  | @map entries distinct _ ih =>
      obtain ⟨middle, rfl, first⟩ := (equals_map_iff).mp ab
      obtain ⟨right, rfl, second⟩ := (equals_map_iff).mp bc
      obtain ⟨middleDistinct, middles⟩ := entries_of_data bData
      have rights := (entries_of_data cData).2
      rw [← entries_trans_iff ((entriesEqual_iff_match distinct).mp first)
        ((entriesEqual_iff_match middleDistinct).mp second), ← entriesEqual_iff_match distinct]
      · simp [equals]
      · intro key a b c foundA foundB foundC ab bc
        exact ih (key, a) (Table.mem_of_lookup foundA) (data_of_get? middles foundB)
          (data_of_get? rights foundC) ab bc
  | @record name entries distinct _ ih =>
      obtain ⟨middle, rfl, first⟩ := (equals_record_iff).mp ab
      obtain ⟨right, rfl, second⟩ := (equals_record_iff).mp bc
      obtain ⟨middleDistinct, middles⟩ := fields_of_data bData
      have rights := (fields_of_data cData).2
      rw [gap_record_iff, ← entries_trans_iff ((entriesEqual_iff_match distinct).mp first)
        ((entriesEqual_iff_match middleDistinct).mp second), ← entriesEqual_iff_match distinct]
      · simp [equals]
      · intro key a b c foundA foundB foundC ab bc
        exact ih (key, a) (Table.mem_of_lookup foundA) (data_of_get? middles foundB)
          (data_of_get? rights foundC) ab bc

/-! ## Lists without repetitions -/

theorem unique_eq_keep (items : List Value) :
    unique items = FirstOccurrences.keep equals items := by
  have general : ∀ kept : List Value,
      items.foldl
          (fun (seen, result) item =>
            if seen.any fun other => equals other item then (seen, result)
            else (seen ++ [item], result ++ [item]))
          (kept, kept) =
        (FirstOccurrences.keepFrom equals kept items,
          FirstOccurrences.keepFrom equals kept items) := by
    induction items with
    | nil => exact fun kept => rfl
    | cons item rest ih =>
        intro kept
        rw [List.foldl_cons, FirstOccurrences.keepFrom]
        by_cases known : kept.any fun other => equals other item
        · simp only [if_pos known]
          exact ih kept
        · simp only [if_neg known]
          exact ih (kept ++ [item])
  rw [unique, general []]
  rfl

/-- What holds of every list: each value is equal to itself and either way around, and
`unique` keeps elements in their order, among them each first occurrence, no two equal ones
and one that is equal to each element; what comes later changes nothing of what it keeps. -/
structure ComparisonLaws (items : List Value) : Prop where
  reflexive : ∀ a ∈ items, a.equals a
  symmetric : ∀ a ∈ items, ∀ b ∈ items, a.equals b → b.equals a
  distinct : (unique items).Pairwise fun first second =>
    first.equals second = false ∧ second.equals first = false
  covers : ∀ item ∈ items, ∃ kept ∈ unique items, kept.equals item
  inOrder : (unique items).Sublist items
  firstKept : (FirstOccurrences.firsts equals items).Sublist (unique items)
  settled : ∀ before after, items = before ++ after → unique before <+: unique items

/-- Equality as an equivalence: `unique` keeps first occurrences, whichever of two equal
elements comes first. -/
structure EquivalenceLaws (items : List Value) : Prop where
  transitive : ∀ a ∈ items, ∀ b ∈ items, ∀ c ∈ items, a.equals b → b.equals c → a.equals c
  ordered : unique items = FirstOccurrences.firsts equals items
  exchanged : ∀ before between after first second,
    items = before ++ first :: between ++ second :: after → first.equals second →
      List.Forall₂ (fun a b => Value.equals a b) (unique items)
        (unique (before ++ second :: between ++ first :: after))

/-- No three elements that agree one after the other have a gap. -/
def Gapless (items : List Value) : Prop :=
  ∀ a ∈ items, ∀ b ∈ items, ∀ c ∈ items, Agree a b → Agree b c → ¬Gap a b c

section Lists

variable {items : List Value} (data : ∀ item ∈ items, IsData item)

include data

theorem equivalenceOn_of_gapless (gapless : Gapless items) :
    FirstOccurrences.EquivalenceOn equals (· ∈ items) where
  reflexive item member := equals_refl (data item member)
  symmetric first second firstMember secondMember equal :=
    equals_symm (data first firstMember) (data second secondMember) equal
  transitive first second third firstMember secondMember thirdMember firstEqual secondEqual := by
    have firstData := data first firstMember
    have secondData := data second secondMember
    have thirdData := data third thirdMember
    apply (equals_trans_iff firstData secondData thirdData firstEqual secondEqual).mpr
    exact gapless first firstMember second secondMember third thirdMember
      (agree_of_equals firstData secondData firstEqual)
      (agree_of_equals secondData thirdData secondEqual)

theorem forall₂_exchanged {before between after : List Value} {first second : Value}
    (shape : items = before ++ first :: between ++ second :: after)
    (equal : first.equals second) :
    List.Forall₂ (fun a b => Value.equals a b) items
      (before ++ second :: between ++ first :: after) := by
  subst shape
  have same : ∀ part : List Value, (∀ item ∈ part, IsData item) →
      List.Forall₂ (fun a b => Value.equals a b) part part :=
    fun part partData => List.forall₂_same.mpr fun item member => equals_refl (partData item member)
  have back := equals_symm (data first (by simp)) (data second (by simp)) equal
  refine List.rel_append (List.rel_append (same before ?_) (.cons equal (same between ?_)))
    (.cons back (same after ?_))
  · exact fun item member => data item (by simp [member])
  · exact fun item member => data item (by simp [member])
  · exact fun item member => data item (by simp [member])

theorem pairwise_unique : (unique items).Pairwise fun first second =>
    first.equals second = false ∧ second.equals first = false := by
  rw [unique_eq_keep]
  apply (FirstOccurrences.pairwise_keep equals items).imp_of_mem
  intro first second firstKept secondKept different
  refine ⟨different, Bool.eq_false_iff.mpr fun equal => ?_⟩
  have firstData := data first (FirstOccurrences.mem_of_mem_keep equals firstKept)
  have secondData := data second (FirstOccurrences.mem_of_mem_keep equals secondKept)
  rw [equals_symm secondData firstData equal] at different
  cases different

theorem comparisonLaws : ComparisonLaws items where
  reflexive item member := equals_refl (data item member)
  symmetric first firstMember second secondMember equal :=
    equals_symm (data first firstMember) (data second secondMember) equal
  distinct := pairwise_unique data
  covers item member := by
    rw [unique_eq_keep]
    have reflexive : ∀ item ∈ items, item.equals item := fun item member =>
      equals_refl (data item member)
    exact FirstOccurrences.exists_keep equals reflexive member
  inOrder := by
    rw [unique_eq_keep]
    exact FirstOccurrences.keep_sublist equals items
  firstKept := by
    rw [unique_eq_keep]
    exact FirstOccurrences.firsts_sublist_keep equals items
  settled before after shape := by
    rw [unique_eq_keep, unique_eq_keep, shape]
    exact FirstOccurrences.keep_prefix equals before after

theorem equivalenceLaws_of_gapless (gapless : Gapless items) : EquivalenceLaws items := by
  have equivalence := equivalenceOn_of_gapless data gapless
  constructor
  case transitive =>
    exact fun a aMember b bMember c cMember =>
      equivalence.transitive a b c aMember bMember cMember
  case ordered =>
    rw [unique_eq_keep]
    exact FirstOccurrences.keep_eq_firsts equivalence fun _ member => member
  case exchanged =>
    intro before between after first second shape equal
    rw [unique_eq_keep, unique_eq_keep]
    apply FirstOccurrences.keep_congr equivalence (forall₂_exchanged data shape equal)
    · exact fun _ member => member
    · intro item member
      rw [shape]
      simp only [List.mem_append, List.mem_cons] at member ⊢
      tauto

end Lists

/-- Equality is reflexive and symmetric on every list, and an equivalence with the laws of
`unique` exactly when no three elements agree over a gap. -/
theorem equality_laws (items : List Value) (data : ∀ item ∈ items, IsData item) :
    ComparisonLaws items ∧ (EquivalenceLaws items ↔ Gapless items) := by
  refine ⟨comparisonLaws data, ?_, equivalenceLaws_of_gapless data⟩
  intro laws a aMember b bMember c cMember ab bc
  have aData := data a aMember
  have bData := data b bMember
  have cData := data c cMember
  have firstEqual := equals_of_agree ab aData bData
  have secondEqual := equals_of_agree bc bData cData
  apply (equals_trans_iff aData bData cData firstEqual secondEqual).mp
  exact laws.transitive a aMember b bMember c cMember firstEqual secondEqual

theorem equality_laws_one :
    ComparisonLaws [.integer 1, .string "one"] ∧
      (EquivalenceLaws [.integer 1, .string "one"] ↔ Gapless [.integer 1, .string "one"]) :=
  equality_laws _ (by
    intro item member
    rcases List.mem_cons.mp member with rfl | member
    · exact .integer 1
    · obtain rfl := List.mem_singleton.mp member
      exact .plain rfl)

/-- A float, the integer that is equal to it, and the decimal that is equal to the integer. -/
def mixedNumbers : List Value :=
  [.float ⟨0x3FF0000000000000⟩, .integer 1, .decimal (.ofInteger 1)]

theorem mixedNumbers_not_transitive :
    (∀ item ∈ mixedNumbers, IsData item) ∧
      ¬(ComparisonLaws mixedNumbers ∧ EquivalenceLaws mixedNumbers) := by
  constructor
  · intro item member
    simp only [mixedNumbers, List.mem_cons, List.not_mem_nil, or_false] at member
    rcases member with rfl | rfl | rfl
    · exact .float (by decide)
    · exact .integer 1
    · exact .decimal _
  · rintro ⟨-, laws⟩
    have broken := laws.transitive _ (List.mem_cons_self) (.integer 1) (by simp [mixedNumbers])
      (.decimal (.ofInteger 1)) (by simp [mixedNumbers]) (by decide +kernel) (by decide +kernel)
    exact absurd broken (by decide +kernel)

end Value
end Marreta
