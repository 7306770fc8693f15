import Mathlib
import Marreta.Doc.IndexInference
import Marreta.Foundation.HexText

namespace Marreta

open Foundation

/-! The names of inferred indexes.

A name is spelled from the collection and the fields, with a limit of 63 bytes.  Longer
ones are cut to 40 characters of the collection and the first half of a digest.  The
database tells the indexes of a collection apart by their names. -/

structure InferredIndex where
  collection : String
  keys : List IndexKey
  name : String
deriving DecidableEq

/-- The text of a key in the names. -/
def indexColumn : IndexKey → String
  | (field, true) => field
  | (field, false) => field ++ "_desc"

def joinColumns (separator : String) (keys : List IndexKey) : String :=
  String.intercalate separator (keys.map indexColumn)

/-- The scheme of all names. -/
def ownedName (collection text : String) : String :=
  "idx_" ++ collection ++ "_" ++ text

def baseName (collection : String) (keys : List IndexKey) : String :=
  ownedName collection (joinColumns "_" keys)

def FitsBase (collection : String) (keys : List IndexKey) : Prop :=
  (baseName collection keys).utf8ByteSize ≤ 63

instance (collection : String) (keys : List IndexKey) : Decidable (FitsBase collection keys) :=
  inferInstanceAs (Decidable (_ ≤ 63))

/-- The text whose digest stands in for the fields. -/
def hashedText (collection : String) (keys : List IndexKey) : String :=
  collection ++ "|" ++ joinColumns "," keys

def collectionPart (collection : String) : String :=
  String.ofList (collection.toList.take 40)

def isOwnedIndexName (name : String) : Bool :=
  "idx_".toList.isPrefixOf name.toList || "uniq_".toList.isPrefixOf name.toList

section

variable (sha256 : ByteArray → Vector UInt8 32)

/-- 64 bits of the digest. -/
def hashBytes (text : String) : List UInt8 :=
  (sha256 text.toByteArray).toList.take 8

def hashSuffix (text : String) : String :=
  String.ofList (HexText.write (hashBytes sha256 text))

def indexName (collection : String) (keys : List IndexKey) : String :=
  if FitsBase collection keys then baseName collection keys
  else ownedName (collectionPart collection) (hashSuffix sha256 (hashedText collection keys))

def inferIndexes (program : Program) : List InferredIndex :=
  (plannedKeys program).map fun (collection, keys) =>
    { collection, keys, name := indexName sha256 collection keys }

end

/-- A call of the document driver. -/
structure EnsureIndex where
  collection : String
  keys : List IndexKey
  unique : Bool
  name : String

def ensureDocIndexes (plan : List InferredIndex) : List EnsureIndex :=
  plan.map fun index =>
    { collection := index.collection, keys := index.keys, unique := false, name := index.name }

/-! ## Equal names -/

theorem ownedName_inj {collection text other : String} :
    ownedName collection text = ownedName collection other ↔ text = other :=
  String.append_right_inj _

theorem toList_ownedName (collection text : String) :
    (ownedName collection text).toList =
      "idx_".toList ++ (collection.toList ++ '_' :: text.toList) := by
  simp [ownedName, String.toList_append]

theorem isOwnedIndexName_ownedName (collection text : String) :
    isOwnedIndexName (ownedName collection text) = true := by
  unfold isOwnedIndexName
  rw [toList_ownedName, Bool.or_eq_true]
  exact .inl (List.isPrefixOf_iff_prefix.mpr (List.prefix_append _ _))

theorem underscore_not_mem_write (bytes : List UInt8) : '_' ∉ HexText.write bytes := by
  have digits : ∀ value < 16, HexText.digit value ≠ '_' := by decide
  intro member
  obtain ⟨byte, -, digit⟩ := List.mem_flatMap.mp member
  have bounded := byte.toNat_lt
  rcases List.mem_pair.mp digit with same | same
  · exact digits _ (by omega) same.symm
  · exact digits _ (by omega) same.symm

/-- A cut collection is told apart from a whole one unless nothing was cut. -/
theorem ownedName_eq_cut_iff {sha256 : ByteArray → Vector UInt8 32}
    {collection text hashed : String} :
    ownedName collection text = ownedName (collectionPart collection) (hashSuffix sha256 hashed) ↔
      collection.length ≤ 40 ∧ text = hashSuffix sha256 hashed := by
  by_cases short : collection.length ≤ 40
  · have whole : collectionPart collection = collection := by
      rw [collectionPart, List.take_of_length_le short, String.ofList_toList]
    rw [whole, ownedName_inj, and_iff_right short]
  · refine iff_of_false ?_ fun same => short same.1
    intro same
    have chars := congrArg String.toList same
    rw [toList_ownedName, toList_ownedName, List.append_cancel_left_eq] at chars
    have part : (collectionPart collection).toList = collection.toList.take 40 :=
      String.toList_ofList
    have long : collection.toList.drop 40 ≠ [] := by
      rw [Ne, List.drop_eq_nil_iff]
      exact short
    obtain ⟨first, rest, cut⟩ := List.exists_cons_of_ne_nil long
    have whole : collection.toList = collection.toList.take 40 ++ first :: rest := by
      rw [← cut, List.take_append_drop]
    rw [part, whole, List.append_assoc, ← whole, List.append_cancel_left_eq, List.cons_append,
      List.cons.injEq] at chars
    -- The underscore after the collection would be a digit of the digest.
    have digits : (hashSuffix sha256 hashed).toList = HexText.write (hashBytes sha256 hashed) :=
      String.toList_ofList
    apply underscore_not_mem_write (hashBytes sha256 hashed)
    rw [← digits, ← chars.2]
    exact List.mem_append_right _ List.mem_cons_self

theorem hashedText_inj {collection : String} {keys other : List IndexKey} :
    hashedText collection keys = hashedText collection other ↔
      joinColumns "," keys = joinColumns "," other :=
  String.append_right_inj _

/-- Two lists of keys of a collection get one name: both spelled out alike, or both
hashed with the same columns, or one spelled as the digest of the other. -/
def Confused (sha256 : ByteArray → Vector UInt8 32) (collection : String)
    (keys other : List IndexKey) : Prop :=
  if FitsBase collection keys then
    if FitsBase collection other then joinColumns "_" keys = joinColumns "_" other
    else collection.length ≤ 40 ∧
      joinColumns "_" keys = hashSuffix sha256 (hashedText collection other)
  else
    if FitsBase collection other then collection.length ≤ 40 ∧
      joinColumns "_" other = hashSuffix sha256 (hashedText collection keys)
    else joinColumns "," keys = joinColumns "," other

instance (sha256 : ByteArray → Vector UInt8 32) (collection : String)
    (keys other : List IndexKey) : Decidable (Confused sha256 collection keys other) := by
  unfold Confused
  infer_instance

/-- The texts that the program has hashed. -/
def hashedTexts (program : Program) : Set String :=
  { text | ∃ collection keys, Planned program (collection, keys) ∧
      ¬ FitsBase collection keys ∧ text = hashedText collection keys }

section

variable {sha256 : ByteArray → Vector UInt8 32} {program : Program}
variable (collisionFree : Set.InjOn (hashBytes sha256) (hashedTexts program))

include collisionFree

theorem hashSuffix_eq_iff {collection : String} {keys other : List IndexKey}
    (planned : Planned program (collection, keys)) (long : ¬ FitsBase collection keys)
    (otherPlanned : Planned program (collection, other))
    (otherLong : ¬ FitsBase collection other) :
    hashSuffix sha256 (hashedText collection keys) =
        hashSuffix sha256 (hashedText collection other) ↔
      joinColumns "," keys = joinColumns "," other := by
  rw [← hashedText_inj]
  constructor
  · intro same
    apply collisionFree ⟨collection, keys, planned, long, rfl⟩
      ⟨collection, other, otherPlanned, otherLong, rfl⟩
    exact HexText.write_injective (String.ofList_injective same)
  · exact congrArg (hashSuffix sha256)

theorem indexName_eq_iff {collection : String} {keys other : List IndexKey}
    (planned : Planned program (collection, keys))
    (otherPlanned : Planned program (collection, other)) :
    indexName sha256 collection keys = indexName sha256 collection other ↔
      Confused sha256 collection keys other := by
  unfold indexName Confused
  split
  · split
    · exact ownedName_inj
    · exact ownedName_eq_cut_iff
  · rename_i long
    split
    · rw [eq_comm]
      exact ownedName_eq_cut_iff
    · rename_i otherLong
      rw [ownedName_inj]
      exact hashSuffix_eq_iff collisionFree planned long otherPlanned otherLong

end

/-! ## Sizes -/

theorem utf8ByteSize_write (bytes : List UInt8) :
    (String.ofList (HexText.write bytes)).utf8ByteSize = 2 * bytes.length := by
  have digits : ∀ value < 16, (HexText.digit value).utf8Size = 1 := by decide
  induction bytes with
  | nil => rfl
  | cons byte bytes induction =>
      have bounded := byte.toNat_lt
      change (String.ofList
        (HexText.digit _ :: HexText.digit _ :: HexText.write bytes)).utf8ByteSize = _
      rw [String.ofList_cons, String.ofList_cons, String.utf8ByteSize_append,
        String.utf8ByteSize_append, String.utf8ByteSize_singleton, String.utf8ByteSize_singleton,
        induction, digits _ (by omega), digits _ (by omega), List.length_cons]
      omega

theorem utf8ByteSize_ownedName (collection text : String) :
    (ownedName collection text).utf8ByteSize =
      collection.utf8ByteSize + text.utf8ByteSize + 5 := by
  unfold ownedName
  rw [String.utf8ByteSize_append, String.utf8ByteSize_append, String.utf8ByteSize_append]
  have start : "idx_".utf8ByteSize = 4 := rfl
  have separator : "_".utf8ByteSize = 1 := rfl
  omega

theorem utf8ByteSize_hashSuffix (sha256 : ByteArray → Vector UInt8 32) (text : String) :
    (hashSuffix sha256 text).utf8ByteSize = 16 := by
  rw [hashSuffix, utf8ByteSize_write, hashBytes, List.length_take, Vector.length_toList]
  rfl

theorem utf8ByteSize_indexName_le_iff {sha256 : ByteArray → Vector UInt8 32}
    {collection : String} {keys : List IndexKey} :
    (indexName sha256 collection keys).utf8ByteSize ≤ 63 ↔
      (¬ FitsBase collection keys → (collectionPart collection).utf8ByteSize ≤ 42) := by
  unfold indexName
  split
  · rename_i fits
    exact iff_of_true fits fun long => absurd fits long
  · rename_i long
    rw [utf8ByteSize_ownedName, utf8ByteSize_hashSuffix, imp_iff_right long]
    omega

/-! ## What names identify -/

/-- Different indexes of a collection have different names, which no call reuses, and
all names are owned and short. -/
structure NamesIdentify (plan : List InferredIndex) : Prop where
  distinct : ∀ index ∈ plan, ∀ other ∈ plan, index.collection = other.collection →
    index ≠ other → index.name ≠ other.name
  ensured : ∀ call ∈ ensureDocIndexes plan, ∀ other ∈ ensureDocIndexes plan,
    call.collection = other.collection → call.name = other.name → call.keys = other.keys
  owned : ∀ index ∈ plan, isOwnedIndexName index.name = true
  short : ∀ index ∈ plan, index.name.utf8ByteSize ≤ 63

theorem mem_inferIndexes {sha256 : ByteArray → Vector UInt8 32} {program : Program}
    {index : InferredIndex} :
    index ∈ inferIndexes sha256 program ↔
      ∃ collection keys, Planned program (collection, keys) ∧
        index = ⟨collection, keys, indexName sha256 collection keys⟩ := by
  unfold inferIndexes
  rw [List.mem_map]
  constructor
  · rintro ⟨⟨collection, keys⟩, member, rfl⟩
    exact ⟨collection, keys, mem_plannedKeys.mp member, rfl⟩
  · rintro ⟨collection, keys, planned, rfl⟩
    exact ⟨(collection, keys), mem_plannedKeys.mpr planned, rfl⟩

/-- The names identify the indexes of a program exactly if no two lists of keys on one
collection are confused, and no hashed name starts with over 42 bytes of a
collection. -/
theorem inferIndexes_namesIdentify_iff (sha256 : ByteArray → Vector UInt8 32)
    (program : Program)
    (collisionFree : Set.InjOn (hashBytes sha256) (hashedTexts program)) :
    NamesIdentify (inferIndexes sha256 program) ↔
      (∀ collection keys other, Planned program (collection, keys) →
        Planned program (collection, other) → keys ≠ other →
        ¬ Confused sha256 collection keys other) ∧
      ∀ collection keys, Planned program (collection, keys) →
        ¬ FitsBase collection keys → (collectionPart collection).utf8ByteSize ≤ 42 := by
  constructor
  · intro identify
    constructor
    · intro collection keys other planned otherPlanned differ confused
      apply identify.distinct _ (mem_inferIndexes.mpr ⟨collection, keys, planned, rfl⟩)
        _ (mem_inferIndexes.mpr ⟨collection, other, otherPlanned, rfl⟩) rfl
      · exact fun same => differ (congrArg InferredIndex.keys same)
      · exact (indexName_eq_iff collisionFree planned otherPlanned).mpr confused
    · intro collection keys planned
      rw [← @utf8ByteSize_indexName_le_iff sha256]
      exact identify.short _ (mem_inferIndexes.mpr ⟨collection, keys, planned, rfl⟩)
  · intro ⟨apart, bounded⟩
    have distinct : ∀ index ∈ inferIndexes sha256 program,
        ∀ other ∈ inferIndexes sha256 program, index.collection = other.collection →
        index.name = other.name → index = other := by
      intro index member other otherMember located named
      obtain ⟨collection, keys, planned, rfl⟩ := mem_inferIndexes.mp member
      obtain ⟨otherCollection, others, otherPlanned, rfl⟩ := mem_inferIndexes.mp otherMember
      obtain rfl : collection = otherCollection := located
      have confused := (indexName_eq_iff collisionFree planned otherPlanned).mp named
      by_contra differ
      refine apart collection keys others planned otherPlanned (fun same => differ ?_) confused
      rw [same]
    refine ⟨?_, ?_, ?_, ?_⟩
    · intro index member other otherMember located differ named
      exact differ (distinct index member other otherMember located named)
    · intro call member other otherMember located named
      obtain ⟨index, inside, rfl⟩ := List.mem_map.mp member
      obtain ⟨otherIndex, otherInside, rfl⟩ := List.mem_map.mp otherMember
      exact congrArg InferredIndex.keys
        (distinct index inside otherIndex otherInside located named)
    · intro index member
      obtain ⟨collection, keys, -, rfl⟩ := mem_inferIndexes.mp member
      dsimp only [indexName]
      split
      · exact isOwnedIndexName_ownedName _ _
      · exact isOwnedIndexName_ownedName _ _
    · intro index member
      obtain ⟨collection, keys, planned, rfl⟩ := mem_inferIndexes.mp member
      rw [utf8ByteSize_indexName_le_iff]
      exact bounded collection keys planned

/-! ## Programs with inferred indexes -/

/-- `doc.query(collection) >> where(field == null, ...) >> order(...)`. -/
def docQuery (collection : String) (equality : List String) (order : List String) : Statement :=
  let filter (field : String) : Argument :=
    .positional (.binaryOp (.stringLiteral field) .equal .null)
  .expressionStatement
    (.pipeline (.methodCall (.identifier "doc") "query" [.positional (.stringLiteral collection)])
      [.expression (.functionCall "where" (equality.map filter)),
        .expression (.functionCall "order"
          (order.map fun text => .positional (.stringLiteral text)))]) 1 1

def invoiceQueries : Program :=
  [docQuery "subscription_invoices" ["status"] [],
    docQuery "subscription_invoices" ["organisation", "customer_account"] ["created", "desc"]]

/-- The digest of `subscription_invoices|customer_account,organisation,created_desc`. -/
def invoiceDigest : Vector UInt8 32 :=
  #v[185, 97, 88, 218, 49, 239, 205, 148, 37, 91, 202, 163, 238, 138, 40, 48, 222,
    77, 77, 21, 214, 62, 239, 65, 109, 129, 246, 126, 196, 11, 226, 241]

theorem invoiceQueries_planned :
    plannedKeys invoiceQueries =
      [("subscription_invoices",
          [("customer_account", true), ("organisation", true), ("created", false)]),
        ("subscription_invoices", [("status", true)])] := by
  decide

/-- A hashed name and a spelled one. -/
theorem invoiceQueries_identify :
    NamesIdentify (inferIndexes (fun _ => invoiceDigest) invoiceQueries) := by
  have hashed : ∀ text ∈ hashedTexts invoiceQueries,
      text = "subscription_invoices|customer_account,organisation,created_desc" := by
    rintro text ⟨collection, keys, planned, long, rfl⟩
    rw [← mem_plannedKeys, invoiceQueries_planned, List.mem_pair] at planned
    rcases planned with ⟨⟨⟩⟩ | ⟨⟨⟩⟩
    · decide
    · exact absurd (by decide) long
  apply (inferIndexes_namesIdentify_iff (fun _ => invoiceDigest) invoiceQueries ?_).mpr
  · constructor
    · intro collection keys other planned otherPlanned differ
      rw [← mem_plannedKeys, invoiceQueries_planned, List.mem_pair] at planned otherPlanned
      rcases planned with ⟨⟨⟩⟩ | ⟨⟨⟩⟩
      · rcases otherPlanned with ⟨⟨⟩⟩ | ⟨⟨⟩⟩
        · exact absurd rfl differ
        · decide
      · rcases otherPlanned with ⟨⟨⟩⟩ | ⟨⟨⟩⟩
        · decide
        · exact absurd rfl differ
    · intro collection keys planned long
      rw [← mem_plannedKeys, invoiceQueries_planned, List.mem_pair] at planned
      rcases planned with ⟨⟨⟩⟩ | ⟨⟨⟩⟩
      · decide
      · exact absurd (by decide) long
  · intro text member other otherMember _
    rw [hashed text member, hashed other otherMember]

/-- Two different indexes with one name, and a name that is too long. -/
theorem inferIndexes_not_identify :
    inferIndexes (fun _ => invoiceDigest) [docQuery "t" ["a_b"] [], docQuery "t" ["a", "b"] []] =
      [⟨"t", [("a", true), ("b", true)], "idx_t_a_b"⟩, ⟨"t", [("a_b", true)], "idx_t_a_b"⟩] ∧
    (inferIndexes (fun _ => invoiceDigest)
        [docQuery "заявки_на_возврат_средств" ["customer_account"] []]).map
        (fun index => index.name.utf8ByteSize) = [68] := by
  decide

end Marreta
