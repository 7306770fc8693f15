import Marreta.Runtime.Evaluate
import Marreta.Schema.Soundness

namespace Marreta

open Foundation

/-! Values built by schema constructors.

A constructor refuses fields that its schema does not declare, and then checks what is left
like a payload.  The two walks do not look at the same places. -/

/-! ## Undeclared keys -/

mutual
/-- A map that stands for a schema has a key which that schema does not declare.  Lists are
looked through when `passes` holds of their element type.  Records of a table are no maps. -/
inductive Strays (schemas : Schemas) (passes : SchemaType → Prop) : SchemaDefinition → Value → Prop
  | key {schema : SchemaDefinition} {entries : ValueMap} {name : String}
      (member : name ∈ entries.map Prod.fst)
      (undeclared : ∀ field ∈ schema.fields, field.name ≠ name) :
      Strays schemas passes schema (.map entries)
  | field {schema : SchemaDefinition} {entries : ValueMap} {field : SchemaField} {value : Value}
      (member : field ∈ schema.fields) (found : entries.get? field.name = some value)
      (inside : StraysIn schemas passes field.fieldType value) :
      Strays schemas passes schema (.map entries)

inductive StraysIn (schemas : Schemas) (passes : SchemaType → Prop) : SchemaType → Value → Prop
  | reference {name : String} {schema : SchemaDefinition} {value : Value}
      (found : schemas.lookup name = some schema)
      (inside : Strays schemas passes schema value) :
      StraysIn schemas passes (.reference name) value
  | list {element : SchemaType} {items : List Value} {item : Value} (looked : passes element)
      (member : item ∈ items) (inside : StraysIn schemas passes element item) :
      StraysIn schemas passes (.typedList element) (.list items)
end

/-- No map at a position of the schema, through lists of any nesting, has an undeclared key. -/
def Closed (schemas : Schemas) (schema : SchemaDefinition) (value : Value) : Prop :=
  ¬ Strays schemas (fun _ => True) schema value

def SchemaType.IsReference : SchemaType → Prop
  | .reference _ => True
  | _ => False

section

variable {schemas : Schemas} {passes : SchemaType → Prop}

theorem not_straysIn_of_scalar {type : SchemaType} (single : type.isNested = false)
    (value : Value) : ¬ StraysIn schemas passes type value := by
  intro strays
  cases strays with
  | reference => cases single
  | list => cases single

mutual
theorem Strays.mono {passes' : SchemaType → Prop} (weaker : ∀ type, passes type → passes' type) :
    ∀ {schema : SchemaDefinition} {value : Value},
      Strays schemas passes schema value → Strays schemas passes' schema value
  | _, _, .key member undeclared => .key member undeclared
  | _, _, .field member found inside => .field member found (inside.mono weaker)

theorem StraysIn.mono {passes' : SchemaType → Prop} (weaker : ∀ type, passes type → passes' type) :
    ∀ {type : SchemaType} {value : Value},
      StraysIn schemas passes type value → StraysIn schemas passes' type value
  | _, _, .reference found inside => .reference found (inside.mono weaker)
  | _, _, .list looked member inside => .list (weaker _ looked) member (inside.mono weaker)
end

/-! ## The check for undeclared fields -/

theorem nesting_le_of_get? {entries : ValueMap} {name : String} {value : Value}
    (found : entries.get? name = some value) : value.nesting ≤ nestingOfEntries entries := by
  induction entries with
  | nil => cases found
  | cons entry rest induction =>
      obtain ⟨first, old⟩ := entry
      unfold ValueMap.get? at found induction
      rw [Table.lookup_cons] at found
      rw [nestingOfEntries]
      split at found
      · obtain rfl := Option.some.inj found
        exact Nat.le_max_left _ _
      · exact (induction found).trans (Nat.le_max_right _ _)

theorem nesting_le_of_mem {items : List Value} {item : Value} (member : item ∈ items) :
    item.nesting ≤ nestingOfItems items := by
  induction items with
  | nil => cases member
  | cons first rest induction =>
      rw [nestingOfItems]
      cases member with
      | head => exact Nat.le_max_left _ _
      | tail _ member => exact (induction member).trans (Nat.le_max_right _ _)

/-- One field, as the check looks at it. -/
def undeclaredIn (schemas : Schemas) (fuel : Nat) (path : String) (type : SchemaType)
    (value : Value) : Option String :=
  match type, value with
  | .reference target, value =>
      (schemas.lookup target).bind fun nested => undeclaredField schemas fuel value nested path
  | .typedList (.reference target), .list items =>
      (schemas.lookup target).bind fun nested =>
        (items.zipIdx).findSome? fun (item, index) =>
          undeclaredField schemas fuel item nested (path ++ "[" ++ toString index ++ "]")
  | _, _ => none

theorem undeclaredField_map (fuel : Nat) (entries : ValueMap) (schema : SchemaDefinition)
    (path : String) :
    undeclaredField schemas (fuel + 1) (.map entries) schema path =
      match entries.find? fun entry => schema.fields.all fun field => field.name ≠ entry.1 with
      | some entry => some (if path = "" then entry.1 else path ++ "." ++ entry.1)
      | none =>
          schema.fields.findSome? fun field =>
            (ValueMap.get? entries field.name).bind fun value =>
              undeclaredIn schemas fuel
                (if path = "" then field.name else path ++ "." ++ field.name) field.fieldType
                value := rfl

theorem straysIn_reference {name : String} {value : Value} :
    StraysIn schemas passes (.reference name) value ↔
      ∃ schema, schemas.lookup name = some schema ∧ Strays schemas passes schema value := by
  constructor
  · intro strays
    cases strays with
    | reference found inside => exact ⟨_, found, inside⟩
  · exact fun ⟨_, found, inside⟩ => .reference found inside

theorem straysIn_list {element : SchemaType} {items : List Value} :
    StraysIn schemas passes (.typedList element) (.list items) ↔
      passes element ∧ ∃ item ∈ items, StraysIn schemas passes element item := by
  constructor
  · intro strays
    cases strays with
    | list looked member inside => exact ⟨looked, _, member, inside⟩
  · exact fun ⟨looked, _, member, inside⟩ => .list looked member inside

/-- The check looks through lists of references only. -/
theorem undeclaredIn_isSome {fuel : Nat} {value : Value} (path : String)
    (inner : ∀ item schema path, item.nesting ≤ value.nesting →
      ((undeclaredField schemas fuel item schema path).isSome = true ↔
        Strays schemas SchemaType.IsReference schema item)) (type : SchemaType) :
    (undeclaredIn schemas fuel path type value).isSome = true ↔
      StraysIn schemas SchemaType.IsReference type value := by
  cases type with
  | reference target =>
      rw [straysIn_reference]
      cases found : schemas.lookup target with
      | none => simp [undeclaredIn, found]
      | some schema =>
          simp only [undeclaredIn, found, Option.bind_some, Option.some.injEq, exists_eq_left']
          exact inner value schema path (le_refl _)
  | typedList element =>
      cases value with
      | list items =>
          rw [straysIn_list]
          cases element with
          | reference target =>
              simp only [straysIn_reference, SchemaType.IsReference, true_and, undeclaredIn]
              cases found : schemas.lookup target with
              | none => simp
              | some schema =>
                  have within (item : Value) (member : item ∈ items) (path : String) :=
                    inner item schema path ((nesting_le_of_mem member).trans (Nat.le_succ _))
                  simp only [Option.bind_some, List.findSome?_isSome_iff, Prod.exists,
                    Option.some.injEq, exists_eq_left']
                  constructor
                  · rintro ⟨item, index, member, strays⟩
                    have inside := List.fst_mem_of_mem_zipIdx member
                    exact ⟨item, inside, (within item inside _).mp strays⟩
                  · rintro ⟨item, inside, strays⟩
                    obtain ⟨index, bound, same⟩ := List.getElem_of_mem inside
                    exact ⟨item, index, List.mk_mem_zipIdx_iff_getElem?.mpr (by simp [← same]),
                      (within item inside _).mpr strays⟩
          | _ => simp [undeclaredIn, SchemaType.IsReference]
      | _ =>
          refine iff_of_false (by simp [undeclaredIn]) ?_
          intro strays
          cases strays
  | _ =>
      refine iff_of_false (by simp [undeclaredIn]) ?_
      exact not_straysIn_of_scalar rfl value

theorem undeclaredField_isSome {fuel : Nat} {value : Value} (enough : value.nesting < fuel)
    (schema : SchemaDefinition) (path : String) :
    (undeclaredField schemas fuel value schema path).isSome = true ↔
      Strays schemas SchemaType.IsReference schema value := by
  induction fuel generalizing value schema path with
  | zero => cases enough
  | succ fuel induction =>
      cases value with
      | map entries =>
          rw [undeclaredField_map]
          have within (item : Value) (name : String)
              (found : ValueMap.get? entries name = some item) (path : String)
              (type : SchemaType) := by
            refine @undeclaredIn_isSome schemas fuel item path (fun inner schema path smaller => ?_)
              type
            have deep := nesting_le_of_get? found
            rw [Value.nesting] at enough
            exact induction (by omega) schema path
          split
          · rename_i entry undeclared
            refine iff_of_true rfl ?_
            have member := List.mem_of_find?_eq_some undeclared
            have none := List.find?_some undeclared
            apply Strays.key (List.mem_map_of_mem member)
            simpa using none
          · rename_i declared
            have known : ∀ name ∈ entries.map Prod.fst, ¬ ∀ field ∈ schema.fields,
                field.name ≠ name := by
              intro name member undeclared
              obtain ⟨entry, inside, rfl⟩ := List.mem_map.mp member
              have fails := List.find?_eq_none.mp declared entry inside
              simp at fails
              obtain ⟨field, here, same⟩ := fails
              exact undeclared field here same
            rw [List.findSome?_isSome_iff]
            constructor
            · rintro ⟨field, member, strays⟩
              cases found : ValueMap.get? entries field.name with
              | none => simp [found] at strays
              | some item =>
                  rw [found, Option.bind_some, within item field.name found] at strays
                  exact .field member found strays
            · intro strays
              cases strays with
              | key member undeclared => exact absurd undeclared (known _ member)
              | @field _ _ field item member found inside =>
                  refine ⟨field, member, ?_⟩
                  rw [found, Option.bind_some, within item field.name found]
                  exact inside
      | _ =>
          refine iff_of_false (by simp [undeclaredField]) ?_
          intro strays
          cases strays

end

/-! ## The check of the values -/

section

open Validator

variable {formats : ValueFormats} {schemas : Schemas} {passes : SchemaType → Prop}
  {nested : Nested} {pathPrefix : String} {onPath : List String} {entries : ValueMap}

/-- What the check makes of the value of a field. -/
def CoercedField (formats : ValueFormats) (schemas : Schemas) (nested : Nested)
    (pathPrefix : String) (onPath : List String) (entries after : ValueMap)
    (field : SchemaField) : Prop :=
  Option.Rel
    (fun value result => value = result ∨
      coerceFieldType formats schemas nested field.fieldType value
        (fieldPath pathPrefix field.name) onPath = .ok result)
    (entries.get? field.name) (after.get? field.name)

theorem coerceField_ok {field : SchemaField} {out next : ValueMap}
    (same : out.get? field.name = entries.get? field.name)
    (done : coerceField formats schemas nested entries pathPrefix onPath out field = .ok next) :
    next.map Prod.fst = out.map Prod.fst ∧
      (∀ key, field.name ≠ key → next.get? key = out.get? key) ∧
      CoercedField formats schemas nested pathPrefix onPath entries next field := by
  unfold CoercedField
  unfold coerceField at done
  cases found : entries.get? field.name with
  | none =>
      rw [found] at done same
      simp only at done
      split at done
      · obtain rfl := Except.ok.inj done
        rw [same]
        exact ⟨rfl, fun _ _ => rfl, .none⟩
      · cases done
  | some value =>
      rw [found] at done same
      by_cases empty : value = .null
      · subst empty
        simp only at done
        split at done
        · obtain rfl := Except.ok.inj done
          rw [ValueMap.insert_self same, same]
          exact ⟨rfl, fun _ _ => rfl, .some (.inl rfl)⟩
        · cases done
      · have filled : (coerceFieldType formats schemas nested field.fieldType value
            (fieldPath pathPrefix field.name) onPath >>= fun coerced =>
              .ok (out.insert field.name coerced)) = .ok next := by
          cases value with
          | null => exact absurd rfl empty
          | _ => exact done
        obtain ⟨result, coerced, inserted⟩ := bind_eq_ok.mp filled
        obtain rfl := Except.ok.inj inserted
        refine ⟨ValueMap.keys_insert same result, fun key differs => ?_, ?_⟩
        · rw [ValueMap.get?_insert, if_neg differs.symm]
        · rw [ValueMap.get?_insert, if_pos rfl]
          exact .some (.inr coerced)

theorem foldlM_coerceField_ok {fields : List SchemaField}
    (distinct : (fields.map (·.name)).Nodup) {out after : ValueMap}
    (same : ∀ field ∈ fields, out.get? field.name = entries.get? field.name)
    (done : fields.foldlM (coerceField formats schemas nested entries pathPrefix onPath) out =
      .ok after) :
    after.map Prod.fst = out.map Prod.fst ∧
      (∀ key, (∀ field ∈ fields, field.name ≠ key) → after.get? key = out.get? key) ∧
      ∀ field ∈ fields,
        CoercedField formats schemas nested pathPrefix onPath entries after field := by
  induction fields generalizing out with
  | nil =>
      obtain rfl := Except.ok.inj done
      exact ⟨rfl, fun _ _ => rfl, by simp⟩
  | cons field fields induction =>
      rw [List.map_cons, List.nodup_cons] at distinct
      have others : ∀ other ∈ fields, field.name ≠ other.name := fun other member equal =>
        distinct.1 (equal ▸ List.mem_map.mpr ⟨other, member, rfl⟩)
      rw [List.foldlM_cons] at done
      obtain ⟨next, here, done⟩ := bind_eq_ok.mp done
      obtain ⟨keys, rest, coerced⟩ := coerceField_ok (same field List.mem_cons_self) here
      have sameNext : ∀ other ∈ fields, next.get? other.name = entries.get? other.name := by
        intro other member
        rw [rest _ (others other member), same other (List.mem_cons_of_mem _ member)]
      obtain ⟨afterKeys, afterRest, afterCoerced⟩ := induction distinct.2 sameNext done
      refine ⟨afterKeys.trans keys, fun key undeclared => ?_, ?_⟩
      · rw [List.forall_mem_cons] at undeclared
        rw [afterRest key undeclared.2, rest key undeclared.1]
      · refine List.forall_mem_cons.mpr ⟨?_, afterCoerced⟩
        unfold CoercedField
        rwa [afterRest _ fun other member => (others other member).symm]

/-- The check of a schema leaves undeclared keys where they are, and adds none. -/
def KeepsStrays (schemas : Schemas) (passes : SchemaType → Prop) (nested : Nested)
    (schema : SchemaDefinition) (onPath : List String) : Prop :=
  ∀ value path result, nested value schema path onPath = .ok result →
    (Strays schemas passes schema result ↔ Strays schemas passes schema value)

theorem straysIn_coerceFieldType {type : SchemaType}
    (inner : ∀ next ∈ type.references, ∀ target, schemas.lookup next = some target →
      target.dbTable = none → KeepsStrays schemas passes nested target (onPath ++ [next]))
    {value result : Value} {path : String}
    (done : coerceFieldType formats schemas nested type value path onPath = .ok result) :
    StraysIn schemas passes type result ↔ StraysIn schemas passes type value := by
  induction type generalizing value result path with
  | reference name =>
      unfold coerceFieldType coerceReference at done
      cases found : schemas.lookup name with
      | none =>
          rw [found] at done
          simp only at done
          split at done <;> cases done
      | some schema =>
          rw [found] at done
          simp only at done
          split at done
          · obtain rfl := Except.ok.inj done
            rfl
          · rename_i embedded
            split at done
            · cases done
            · have keeps := inner name List.mem_cons_self schema found (by simpa using embedded)
              simp only [straysIn_reference, found, Option.some.injEq, exists_eq_left']
              exact keeps value path result done
  | typedList element induction =>
      cases value with
      | list items =>
          obtain ⟨results, coerced, made⟩ := bind_eq_ok.mp done
          obtain rfl := Except.ok.inj made
          rw [straysIn_list, straysIn_list]
          refine and_congr_right fun _ => ?_
          constructor
          · rintro ⟨item, member, strays⟩
            obtain ⟨pair, inside, turned⟩ := turn_of_mapM coerced member
            exact ⟨pair.1, List.fst_mem_of_mem_zipIdx inside, (induction inner turned).mp strays⟩
          · rintro ⟨item, member, strays⟩
            obtain ⟨index, bound, same⟩ := List.getElem_of_mem member
            have inside : (item, index) ∈ items.zipIdx :=
              List.mk_mem_zipIdx_iff_getElem?.mpr (by simp [← same])
            obtain ⟨other, here, turned⟩ := result_of_mapM coerced inside
            exact ⟨other, here, (induction inner turned).mpr strays⟩
      | _ => cases done
  | _ => exact iff_of_false (not_straysIn_of_scalar rfl _) (not_straysIn_of_scalar rfl _)

theorem CoercedField.strays {field : SchemaField} {after : ValueMap}
    (coerced : CoercedField formats schemas nested pathPrefix onPath entries after field)
    (kept : ∀ value path result,
      coerceFieldType formats schemas nested field.fieldType value path onPath = .ok result →
        (StraysIn schemas passes field.fieldType result ↔
          StraysIn schemas passes field.fieldType value)) :
    (∃ result, after.get? field.name = some result ∧
        StraysIn schemas passes field.fieldType result) ↔
      ∃ value, entries.get? field.name = some value ∧
        StraysIn schemas passes field.fieldType value := by
  unfold CoercedField at coerced
  generalize entries.get? field.name = before at coerced ⊢
  generalize after.get? field.name = later at coerced ⊢
  cases coerced with
  | none => rfl
  | some made =>
      simp only [Option.some.injEq, exists_eq_left']
      rcases made with rfl | made
      · rfl
      · exact kept _ _ _ made

theorem strays_map {schema : SchemaDefinition} :
    Strays schemas passes schema (.map entries) ↔
      (∃ name ∈ entries.map Prod.fst, ∀ field ∈ schema.fields, field.name ≠ name) ∨
        ∃ field ∈ schema.fields, ∃ value, entries.get? field.name = some value ∧
          StraysIn schemas passes field.fieldType value := by
  constructor
  · intro strays
    cases strays with
    | key member undeclared => exact .inl ⟨_, member, undeclared⟩
    | field member found inside => exact .inr ⟨_, member, _, found, inside⟩
  · rintro (⟨name, member, undeclared⟩ | ⟨field, member, value, found, inside⟩)
    · exact .key member undeclared
    · exact .field member found inside

theorem keepsStrays_succ {remaining : Nat} {schema : SchemaDefinition}
    (distinct : (schema.fields.map (·.name)).Nodup)
    (inner : ∀ field ∈ schema.fields, ∀ next ∈ field.fieldType.references, ∀ target,
      schemas.lookup next = some target → target.dbTable = none →
        KeepsStrays schemas passes (coerceRecursive formats schemas remaining) target
          (onPath ++ [next])) :
    KeepsStrays schemas passes (coerceRecursive formats schemas (remaining + 1)) schema onPath := by
  intro value path result done
  cases value with
  | map entries =>
      obtain ⟨after, coerced, made⟩ := bind_eq_ok.mp done
      obtain rfl := Except.ok.inj made
      obtain ⟨keys, -, fields⟩ := foldlM_coerceField_ok distinct (fun _ _ => rfl) coerced
      rw [strays_map, strays_map, keys]
      apply or_congr_right
      apply exists_congr
      intro field
      apply and_congr_right
      intro member
      exact (fields field member).strays fun _ _ _ => straysIn_coerceFieldType (inner field member)
  | null =>
      change coerceNull formats schema path = .ok result at done
      unfold coerceNull at done
      split at done
      · cases done
      · obtain rfl := Except.ok.inj done
        rfl
  | _ => cases done

/-! ### Values that are as they should be -/

/-- The check of a schema leaves values of it as they are, when none of them stops it. -/
def StaysTyped (schemas : Schemas) (remaining : Nat) (nested : Nested) (schema : SchemaDefinition)
    (onPath : List String) : Prop :=
  ∀ value path, FitsSchema schemas HasType schema value →
    ¬ Stops schemas remaining onPath schema value → nested value schema path onPath = .ok value

theorem coerceScalar_of_hasType {type : SchemaType} (single : type.isNested = false)
    {value : Value} (typed : HasType type value) (path : String) :
    coerceScalar formats value type path = .ok value := by
  cases type with
  | reference | typedList => cases single
  | enumType values =>
      cases value with
      | string text =>
          have member : text ∈ values := typed
          simp [coerceScalar, coerceEnum, member]
      | _ => cases typed
  | _ => cases value <;> first | rfl | cases typed

theorem coerceFieldType_of_fits {remaining : Nat} {type : SchemaType}
    (inner : ∀ schema onPath, StaysTyped schemas remaining nested schema onPath) {value : Value}
    (fits : Fits schemas HasType type value)
    (goes : ¬ StopsIn schemas (Stops schemas remaining) onPath type value) (path : String) :
    coerceFieldType formats schemas nested type value path onPath = .ok value := by
  induction type generalizing value path with
  | reference name =>
      cases fits with
      | scalar single => cases single
      | relation found stored =>
          simp [coerceFieldType, coerceReference, found, stored]
      | embedded found plain fits =>
          have fresh : name ∉ onPath := fun visited => goes ⟨_, found, plain, .inl visited⟩
          have stays := inner _ _ value path fits fun stops => goes ⟨_, found, plain, .inr stops⟩
          simp only [coerceFieldType, coerceReference, found, plain, Option.isSome_none,
            Bool.false_eq_true, if_false, fresh]
          exact stays
  | typedList element induction =>
      cases fits with
      | scalar single => cases single
      | @list _ items fits =>
          have each : ∀ pair ∈ items.zipIdx, coerceFieldType formats schemas nested element pair.1
              (path ++ "[" ++ toString pair.2 ++ "]") onPath = .ok pair.1 :=
            fun pair member => induction (fits _ (List.fst_mem_of_mem_zipIdx member))
              (fun stops => goes ⟨_, List.fst_mem_of_mem_zipIdx member, stops⟩) _
          have all := mapM_of_ok each
          rw [List.zipIdx_map_fst] at all
          change (items.zipIdx.mapM fun pair => coerceFieldType formats schemas nested element
            pair.1 (path ++ "[" ++ toString pair.2 ++ "]") onPath) >>= _ = _
          rw [all]
          rfl
  | _ =>
      cases fits with
      | scalar single typed =>
          rw [coerceFieldType_scalar nested single]
          exact coerceScalar_of_hasType single typed path

theorem staysTyped_succ {remaining : Nat} {schema : SchemaDefinition}
    (inner : ∀ schema onPath,
      StaysTyped schemas remaining (coerceRecursive formats schemas remaining) schema onPath) :
    StaysTyped schemas (remaining + 1) (coerceRecursive formats schemas (remaining + 1)) schema
      onPath := by
  intro value path fits goes
  cases value with
  | map entries =>
      have settled : ∀ field ∈ schema.fields, Validator.Settled formats schemas
          (coerceRecursive formats schemas remaining) path onPath entries field := by
        intro field member
        have fitsField := fitsSchema_map.mp fits field member
        refine ⟨fitsField, fun value found filled => ?_⟩
        exact coerceFieldType_of_fits inner (fitsField.2 value found filled)
          (fun stops => goes ⟨field, member, value, found, filled, stops⟩) _
      change schema.fields.foldlM (coerceField formats schemas
        (coerceRecursive formats schemas remaining) entries path onPath) entries >>= _ = _
      rw [foldlM_settled settled]
      rfl
  | null =>
      cases fits with
      | null optional =>
          have none : schema.fields.find? (fun field => !field.optional) = none := by
            rw [List.find?_eq_none]
            intro field member
            simp [optional field member]
          change coerceNull formats schema path = .ok .null
          unfold coerceNull
          rw [none]
  | _ => cases fits

theorem coercePayload_of_typed {schema : SchemaDefinition} {value : Value}
    (typed : FitsSchema schemas HasType schema value) (within : WithinDepth schemas schema value) :
    coercePayload formats value schema schemas = .ok value := by
  have stays : ∀ remaining schema onPath,
      StaysTyped schemas remaining (coerceRecursive formats schemas remaining) schema onPath := by
    intro remaining
    induction remaining with
    | zero => exact fun _ _ _ _ _ goes => absurd trivial goes
    | succ remaining induction => exact fun _ _ => staysTyped_succ induction
  exact stays _ schema [] value "" typed within

theorem strays_coercePayload {name : String} (fields : FieldsDistinct schemas name)
    {schema : SchemaDefinition} (found : schemas.lookup name = some schema) {value result : Value}
    (done : coercePayload formats value schema schemas = .ok result) :
    Strays schemas passes schema result ↔ Strays schemas passes schema value := by
  have keeps : ∀ remaining length last schema onPath, EmbedChain schemas length name last →
      schemas.lookup last = some schema →
        KeepsStrays schemas passes (coerceRecursive formats schemas remaining) schema onPath := by
    intro remaining
    induction remaining with
    | zero =>
        intro _ _ _ _ _ _ _ _ _ done
        cases done
    | succ remaining induction =>
        intro length last schema onPath chain found
        refine keepsStrays_succ (fields length last schema chain found) ?_
        intro field member next refers target known plain
        have link : EmbedLink schemas last next :=
          ⟨schema, target, found, mem_references member refers, known, plain⟩
        exact induction _ next target _ (.tail chain link) known
  exact keeps _ 0 name schema [] (.refl name) found value "" result done

/-! ### Values that stop the check -/

theorem not_stopsIn_of_ok {remaining : Nat} {type : SchemaType}
    (inner : ∀ schema onPath value path result, nested value schema path onPath = .ok result →
      ¬ Stops schemas remaining onPath schema value) {value result : Value} {path : String}
    (done : coerceFieldType formats schemas nested type value path onPath = .ok result) :
    ¬ StopsIn schemas (Stops schemas remaining) onPath type value := by
  intro stops
  induction type generalizing value result path with
  | reference name =>
      obtain ⟨schema, found, plain, stops⟩ := stops
      simp only [coerceFieldType, coerceReference, found, plain, Option.isSome_none,
        Bool.false_eq_true, if_false] at done
      split at done
      · cases done
      · rename_i fresh
        exact inner schema _ value path result done (stops.resolve_left fresh)
  | typedList element induction =>
      cases value with
      | list items =>
          obtain ⟨item, member, stops⟩ := stops
          obtain ⟨results, coerced, -⟩ := bind_eq_ok.mp done
          obtain ⟨index, bound, same⟩ := List.getElem_of_mem member
          have place : (item, index) ∈ items.zipIdx :=
            List.mk_mem_zipIdx_iff_getElem?.mpr (by simp [← same])
          obtain ⟨result, -, turned⟩ := result_of_mapM coerced place
          exact induction turned stops
      | _ => cases stops
  | _ => cases value <;> cases stops

theorem not_stops_of_ok {remaining : Nat} {schema : SchemaDefinition} {value result : Value}
    {path : String}
    (done : coerceRecursive formats schemas remaining value schema path onPath = .ok result) :
    ¬ Stops schemas remaining onPath schema value := by
  induction remaining generalizing schema onPath value path result with
  | zero => cases done
  | succ remaining induction =>
      intro stops
      cases value with
      | map entries =>
          obtain ⟨field, member, value, found, filled, stops⟩ := stops
          obtain ⟨after, fields, -⟩ := bind_eq_ok.mp done
          obtain ⟨out, next, turned⟩ := turn_of_foldlM fields member
          rw [coerceField, found] at turned
          cases value with
          | null => exact filled rfl
          | _ =>
              obtain ⟨coerced, checked, -⟩ := bind_eq_ok.mp turned
              exact not_stopsIn_of_ok (fun _ _ _ _ _ done => induction done) checked stops
      | _ => cases stops

end

/-! ## Constructors -/

/-- The library checks payloads as the validator does. -/
def Library.Validates (library : Library) (formats : ValueFormats) : Prop :=
  ∀ value schema schemas result, library.coercePayload value schema schemas = .ok result ↔
    Marreta.coercePayload formats value schema schemas = .ok result

/-- What a constructor promises for the values of its fields. -/
structure BuildsClosed (schemas : Schemas) (schema : SchemaDefinition) (entries : ValueMap)
    (result : Except Fault Value) : Prop where
  built : ∀ value, result = .ok value →
    FitsSchema schemas HasType schema value ∧ Closed schemas schema value
  unchanged : FitsSchema schemas HasType schema (.map entries) →
    Closed schemas schema (.map entries) → result = .ok (.map entries)

section

variable {host : Host} {formats : ValueFormats} {depth : Nat} {state after : Interpreter}
  {name : String} {schemas : Schemas} {schema : SchemaDefinition}
  {fields : List (String × Expression)} {entries : ValueMap}

theorem lookup_constructorSchemaRegistry {moduleId : Option String}
    (registry : constructorSchemaRegistry host moduleId name = (schemas, some schema)) :
    schemas.lookup name = some schema := by
  unfold constructorSchemaRegistry at registry
  simp only [Prod.mk.injEq] at registry
  rw [← registry.1]
  exact registry.2

/-- A constructor returns what the check makes of fields that it does not refuse. -/
theorem evaluateSchemaConstructor_eq_ok (validates : host.library.Validates formats)
    (registry : constructorSchemaRegistry host state.currentModule name = (schemas, some schema))
    (evaluated : runAction host depth (evaluatePairs fields []) state = (.ok entries, after))
    (value : Value) :
    (runAction host depth (evaluateSchemaConstructor host name fields) state).1 = .ok value ↔
      ¬ Strays schemas SchemaType.IsReference schema (.map entries) ∧
        coercePayload formats (.map entries) schema schemas = .ok value := by
  have undeclared := @undeclaredField_isSome schemas _ (.map entries) (Nat.lt_succ_self _) schema ""
  unfold runAction at evaluated ⊢
  unfold evaluateSchemaConstructor
  simp only [Action.run_bind, Run.bind_run, Action.run, Run.reads_run]
  rw [registry]
  simp only [Action.run_bind, Run.bind_run]
  rw [evaluated]
  simp only
  cases walked : undeclaredField schemas ((Value.map entries).nesting + 1) (.map entries) schema ""
    with
  | some path =>
      rw [walked] at undeclared
      exact iff_of_false (by simp [Action.typeError, Action.position, Action.run])
        fun built => built.1 (undeclared.mp rfl)
  | none =>
      rw [walked] at undeclared
      have clean : ¬ Strays schemas SchemaType.IsReference schema (.map entries) := fun strays => by
        have found := undeclared.mpr strays
        cases found
      rw [← validates]
      cases host.library.coercePayload (.map entries) schema schemas with
      | ok coerced => simp [clean]
      | error error => simp [clean, Action.typeError, Action.position, Action.run]

/-- A constructor builds closed values exactly when its own walk sees an undeclared key in every
accepted value that has one, and no closed value goes deeper than the validator. -/
theorem buildsClosed_iff (validates : host.library.Validates formats)
    (registry : constructorSchemaRegistry host state.currentModule name = (schemas, some schema))
    (distinct : FieldsDistinct schemas name)
    (evaluated : runAction host depth (evaluatePairs fields []) state = (.ok entries, after)) :
    BuildsClosed schemas schema entries
        (runAction host depth (evaluateSchemaConstructor host name fields) state).1 ↔
      (WithinDepth schemas schema (.map entries) →
        Conforms formats schemas schema (.map entries) →
          ¬ SchemaOverflows formats schemas schema (.map entries) →
            ¬ Closed schemas schema (.map entries) →
              Strays schemas SchemaType.IsReference schema (.map entries)) ∧
      (FitsSchema schemas HasType schema (.map entries) → Closed schemas schema (.map entries) →
        WithinDepth schemas schema (.map entries)) := by
  have found := lookup_constructorSchemaRegistry registry
  have decides := @coercePayload_decides formats schemas name distinct schema found (.map entries)
  have returns := evaluateSchemaConstructor_eq_ok validates registry evaluated
  constructor
  · intro builds
    constructor
    · intro within conforms safe opened
      by_contra unseen
      replace decides := decides within
      generalize checked : coercePayload formats (.map entries) schema schemas = outcome at decides
      cases decides with
      | @accepted result conforming safe typed stays =>
          have closed := (builds.built result ((returns result).mpr ⟨unseen, checked⟩)).2
          apply opened
          intro strays
          exact closed ((strays_coercePayload distinct found checked).mpr strays)
      | panicked spills => exact safe spills
      | refused violates safe answer => exact violates conforms
    · intro typed closed
      have built := builds.unchanged typed closed
      exact not_stops_of_ok ((returns _).mp built).2
  · rintro ⟨sees, goes⟩
    constructor
    · intro value built
      obtain ⟨unseen, checked⟩ := (returns value).mp built
      have within : WithinDepth schemas schema (.map entries) := not_stops_of_ok checked
      replace decides := decides within
      rw [checked] at decides
      cases decides with
      | accepted conforming safe typed stays =>
          refine ⟨typed.1, fun strays => ?_⟩
          have opened := (strays_coercePayload distinct found checked).mp strays
          exact unseen (sees within conforming safe (not_not_intro opened))
    · intro typed closed
      refine (returns _).mpr ⟨fun strays => ?_, coercePayload_of_typed typed (goes typed closed)⟩
      exact closed (strays.mono fun _ _ => trivial)

end

/-! ## Schemas without lists in lists -/

def SchemaType.isShallow : SchemaType → Bool
  | .typedList (.typedList _) => false
  | _ => true

def SchemaDefinition.IsShallow (schema : SchemaDefinition) : Prop :=
  ∀ field ∈ schema.fields, field.fieldType.isShallow = true

mutual
/-- There the walk of the constructor sees every undeclared key. -/
theorem Strays.seen {schemas : Schemas}
    (shallow : ∀ name schema, schemas.lookup name = some schema → schema.IsShallow) :
    ∀ {schema : SchemaDefinition} {value : Value}, schema.IsShallow →
      Strays schemas (fun _ => True) schema value →
        Strays schemas SchemaType.IsReference schema value
  | _, _, _, .key member undeclared => .key member undeclared
  | _, _, here, .field member found inside =>
      .field member found (inside.seen shallow (here _ member))

theorem StraysIn.seen {schemas : Schemas}
    (shallow : ∀ name schema, schemas.lookup name = some schema → schema.IsShallow) :
    ∀ {type : SchemaType} {value : Value}, type.isShallow = true →
      StraysIn schemas (fun _ => True) type value →
        StraysIn schemas SchemaType.IsReference type value
  | _, _, _, .reference found inside => .reference found (inside.seen shallow (shallow _ _ found))
  | .typedList (.reference _), _, _, .list _ member inside =>
      .list trivial member (inside.seen shallow rfl)
end

/-! ## Sessions and baskets -/

/-- A library that checks payloads without reading texts. -/
def checkingLibrary : Library :=
  { scalarLibrary with
    coercePayload := fun value schema schemas =>
      match coercePayload bareFormats value schema schemas with
      | .ok result => .ok result
      | .error (.error error) => .error error
      | .error .panic => .error (.raiseError "duration") }

theorem validates_checkingLibrary : checkingLibrary.Validates bareFormats := by
  intro value schema schemas result
  change (match coercePayload bareFormats value schema schemas with
    | .ok result => Except.ok result
    | .error (.error error) => .error error
    | .error .panic => .error (.raiseError "duration")) = .ok result ↔ _
  cases coercePayload bareFormats value schema schemas with
  | ok _ => simp
  | error fault =>
      cases fault with
      | error _ => simp
      | panic => simp

/-- A host with these schemas and no project. -/
def schemaHost (schemas : Schemas) : Host :=
  { emptyHost with library := checkingLibrary, schemas := some schemas }

def noScope : Interpreter := .new .new none

/-- `Session { ttl: 1500, device: { name: "phone" } }` -/
def sessionFields : List (String × Expression) :=
  [("ttl", .integer 1500), ("device", .mapLiteral [("name", .stringLiteral "phone")])]

theorem buildsClosed_session :
    BuildsClosed sessionSchemas sessionSchema
      [("ttl", .integer 1500), ("device", .map [("name", .string "phone")])]
      (runAction (schemaHost sessionSchemas) 4
        (evaluateSchemaConstructor (schemaHost sessionSchemas) "Session" sessionFields)
        noScope).1 := by
  have shallow : ∀ name schema, sessionSchemas.lookup name = some schema → schema.IsShallow := by
    intro name schema found
    have member := Table.mem_of_lookup found
    simp only [sessionSchemas, List.mem_cons, Prod.mk.injEq, List.not_mem_nil, or_false] at member
    unfold SchemaDefinition.IsShallow
    rcases member with ⟨-, rfl⟩ | ⟨-, rfl⟩
    · decide
    · decide
  refine (@buildsClosed_iff (schemaHost sessionSchemas) bareFormats 4 noScope noScope "Session"
    sessionSchemas sessionSchema sessionFields _ validates_checkingLibrary rfl
    sessionSchemas_fieldsDistinct rfl).mpr ⟨?_, fun _ _ => ?_⟩
  · intro _ _ _ opened
    exact Strays.seen shallow (shallow "Session" _ rfl) (by_contra fun strays => opened strays)
  · exact (sessionSchemas_registry.below sessionSchemas_fieldsDistinct).withinDepth rfl _

/-- `schema Basket` with `rows: list of list of Item`, and `schema Item` with `name: string`. -/
def basketSchema : SchemaDefinition where
  dbTable := none
  fields := [⟨"rows", .typedList (.typedList (.reference "Item")), false⟩]

def basketSchemas : Schemas :=
  [("Basket", basketSchema),
    ("Item", { dbTable := none, fields := [⟨"name", .stringType, false⟩] })]

/-- `Basket { rows: [[{ name: "pen", note: "blue" }]] }` -/
def basketFields : List (String × Expression) :=
  [("rows", .list [.list [.mapLiteral
    [("name", .stringLiteral "pen"), ("note", .stringLiteral "blue")]]])]

def basketEntries : ValueMap :=
  [("rows", .list [.list [.map [("name", .string "pen"), ("note", .string "blue")]]])]

/-- The constructor lets a note into an item that has none. -/
theorem not_buildsClosed_basket :
    ¬ ∀ (host : Host) (formats : ValueFormats) (depth : Nat) (state after : Interpreter)
        (name : String) (schemas : Schemas) (schema : SchemaDefinition)
        (fields : List (String × Expression)) (entries : ValueMap),
      host.library.Validates formats →
        constructorSchemaRegistry host state.currentModule name = (schemas, some schema) →
          runAction host depth (evaluatePairs fields []) state = (.ok entries, after) →
            BuildsClosed schemas schema entries
              (runAction host depth (evaluateSchemaConstructor host name fields) state).1 := by
  intro closed
  have builds := closed (schemaHost basketSchemas) bareFormats 4 noScope noScope "Basket"
    basketSchemas basketSchema basketFields basketEntries validates_checkingLibrary rfl rfl
  apply (builds.built (.map basketEntries) rfl).2
  apply Strays.field (List.mem_singleton_self _) rfl
  refine .list trivial (List.mem_singleton_self _) (.list trivial (List.mem_singleton_self _) ?_)
  apply StraysIn.reference rfl
  apply Strays.key
  · exact List.mem_cons_of_mem _ (List.mem_singleton_self "note")
  · decide

end Marreta
