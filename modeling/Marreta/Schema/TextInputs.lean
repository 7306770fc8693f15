import Marreta.Schema.Soundness

namespace Marreta

open Foundation

/-! Inputs that arrive as texts: the query and the headers of a request.

The texts are collected by name in no particular order, and names of headers that differ
in case or in `-` and `_` are one name to the schema.  What a field is bound from depends
on the order exactly where two such names come with different texts. -/

/-- Texts by name, each name once. -/
structure RawInputs where
  entries : List (String × List String)
  distinct : (Table.keys entries).Nodup

namespace Validator

def canonicalKey (headerNames : Bool) (name : String) : String :=
  if headerNames then canonicalHeaderKey name else name

/-- The texts that a field is bound from, of all the texts that were given for it. -/
def usedTexts (type : SchemaType) (texts : List String) : List String :=
  match type with
  | .typedList _ | .listType => texts.filter (· ≠ "")
  | _ => (texts.filter (· ≠ "")).take 1

/-- What the value of a field is made of. -/
def boundTexts (inputs : List (String × List String)) (headerNames : Bool) (field : SchemaField) :
    List String :=
  usedTexts field.fieldType (presentTexts inputs headerNames field.name)

/-- A value of the type of a field. -/
def FitsInput : SchemaType → Value → Prop
  | .typedList element, value =>
      ∃ items, value = .list items ∧ ∀ item ∈ items, HasType element item
  | type, value => HasType type value

variable {formats : ValueFormats}

/-! ## One field -/

theorem presentTexts_eq (inputs : List (String × List String)) (headerNames : Bool)
    (name : String) :
    presentTexts inputs headerNames name =
      (((inputs.reverse.find? fun input =>
        canonicalKey headerNames input.1 = canonicalKey headerNames name).map
          Prod.snd).getD []).filter (· ≠ "") := by
  cases headerNames <;> rfl

theorem presentTexts_filter (inputs : List (String × List String)) (headerNames : Bool)
    (name : String) :
    (presentTexts inputs headerNames name).filter (· ≠ "") =
      presentTexts inputs headerNames name := by
  rw [presentTexts_eq, List.filter_filter]
  simp

/-- Only the texts that a field is bound from matter. -/
theorem coerceScalarField_congr {inputs others : List (String × List String)} {headerNames : Bool}
    {field : SchemaField} (same : boundTexts inputs headerNames field =
      boundTexts others headerNames field) (out : ValueMap) :
    coerceScalarField formats inputs headerNames out field =
      coerceScalarField formats others headerNames out field := by
  have first := presentTexts_filter inputs headerNames field.name
  have second := presentTexts_filter others headerNames field.name
  rw [boundTexts, boundTexts] at same
  rw [coerceScalarField, coerceScalarField]
  generalize presentTexts inputs headerNames field.name = texts at *
  generalize presentTexts others headerNames field.name = otherTexts at *
  cases type : field.fieldType <;> rw [type] at same <;>
    simp only [usedTexts, first, second] at same <;>
    first
    | (subst same; rfl)
    | (cases texts <;> cases otherTexts <;>
        simp only [List.take_succ_cons, List.take_zero, List.take_nil, List.cons.injEq,
          reduceCtorEq, and_true] at same <;> simp_all)

theorem hasType_of_scalar {type : SchemaType} {text path : String} {value : Value}
    (single : type.isNested = false)
    (read : coerceScalar formats (.string text) type path = .ok value) : HasType type value := by
  have decides := @decides_scalar formats type single (.string text) path
  rw [read] at decides
  unfold DecidesScalar at decides
  cases decides with
  | accepted _ _ typed _ => exact typed

/-- A text becomes a value of the type it is read as. -/
theorem hasType_of_coerceScalarString {type : SchemaType} {text path : String} {value : Value}
    (read : coerceScalarString formats text type path = .ok value) : HasType type value := by
  unfold coerceScalarString at read
  cases type with
  | stringType =>
      cases read
      rfl
  | integerType | floatType =>
      simp only at read
      split at read
      · cases read
        rfl
      · cases read
  | booleanType =>
      simp only at read
      split at read
      · cases read
        rfl
      · cases read
        rfl
      · cases read
  | decimalType | instantType | dateType | timeType | durationType | intervalType | enumType _ =>
      exact hasType_of_scalar rfl read
  | reference _ | typedList _ | listType | mapType => cases read

theorem hasType_of_mapM {element : SchemaType} {path : String} {texts : List String}
    {items : List Value}
    (read : texts.mapM (fun text => coerceScalarString formats text element path) = .ok items) :
    ∀ item ∈ items, HasType element item := by
  induction texts generalizing items with
  | nil =>
      cases read
      simp
  | cons text texts ih =>
      simp only [List.mapM_cons, bind_eq_ok] at read
      obtain ⟨first, firstRead, rest, restRead, same⟩ := read
      cases same
      intro item member
      rcases List.mem_cons.mp member with rfl | member
      · exact hasType_of_coerceScalarString firstRead
      · exact ih restRead item member

/-- A field without texts is left out; another one is bound to a value of its type. -/
theorem coerceScalarField_cases {inputs : List (String × List String)} {headerNames : Bool}
    {field : SchemaField} {out next : ValueMap}
    (bound : coerceScalarField formats inputs headerNames out field = .ok next) :
    (boundTexts inputs headerNames field = [] ∧ next = out) ∨
      (boundTexts inputs headerNames field ≠ [] ∧
        ∃ value, next = out.insert field.name value ∧ FitsInput field.fieldType value) := by
  have plain := presentTexts_filter inputs headerNames field.name
  rw [coerceScalarField] at bound
  rw [boundTexts]
  generalize presentTexts inputs headerNames field.name = texts at *
  cases texts with
  | nil =>
      refine .inl ⟨by cases field.fieldType <;> rfl, ?_⟩
      simp only at bound
      split at bound
      · exact (Except.ok.inj bound).symm
      · cases bound
  | cons text texts =>
      refine .inr ⟨by cases field.fieldType <;> simp only [usedTexts, plain] <;> simp, ?_⟩
      cases type : field.fieldType with
      | typedList element =>
          rw [type] at bound
          simp only [bind_eq_ok] at bound
          obtain ⟨items, read, same⟩ := bound
          exact ⟨.list items, (Except.ok.inj same).symm, items, rfl, hasType_of_mapM read⟩
      | listType =>
          rw [type] at bound
          exact ⟨_, (Except.ok.inj bound).symm, rfl⟩
      | _ =>
          rw [type] at bound
          simp only [bind_eq_ok] at bound
          obtain ⟨value, read, same⟩ := bound
          exact ⟨value, (Except.ok.inj same).symm, hasType_of_coerceScalarString read⟩

/-! ## All fields -/

/-- What has been bound, after the fields that were read before. -/
structure Bound (inputs : List (String × List String)) (headerNames : Bool)
    (fields : List SchemaField) (out : ValueMap) : Prop where
  keys : ∀ key, (out.get? key).isSome ↔
    ∃ field ∈ fields, field.name = key ∧ boundTexts inputs headerNames field ≠ []
  typed : ∀ key value, out.get? key = some value →
    ∃ field ∈ fields, field.name = key ∧ FitsInput field.fieldType value

theorem Bound.step {inputs : List (String × List String)} {headerNames : Bool}
    {fields : List SchemaField} {field : SchemaField} {out next : ValueMap}
    (before : Bound inputs headerNames fields out)
    (bound : coerceScalarField formats inputs headerNames out field = .ok next) :
    Bound inputs headerNames (fields ++ [field]) next := by
  rcases coerceScalarField_cases bound with ⟨absent, rfl⟩ | ⟨present, value, rfl, fits⟩
  · constructor
    · intro key
      rw [before.keys]
      simp only [List.mem_append, List.mem_singleton]
      constructor
      · rintro ⟨other, member, holds⟩
        exact ⟨other, .inl member, holds⟩
      · rintro ⟨other, member | rfl, holds⟩
        · exact ⟨other, member, holds⟩
        · exact absurd absent holds.2
    · intro key value found
      obtain ⟨other, member, holds⟩ := before.typed key value found
      exact ⟨other, List.mem_append_left _ member, holds⟩
  · constructor
    · intro key
      rw [ValueMap.get?_insert]
      split
      case isTrue same => exact iff_of_true rfl ⟨field, by simp, same.symm, present⟩
      case isFalse differs =>
          rw [before.keys]
          simp only [List.mem_append, List.mem_singleton]
          constructor
          · rintro ⟨other, member, holds⟩
            exact ⟨other, .inl member, holds⟩
          · rintro ⟨other, member | rfl, holds⟩
            · exact ⟨other, member, holds⟩
            · exact absurd holds.1.symm differs
    · intro key found foundAt
      rw [ValueMap.get?_insert] at foundAt
      split at foundAt
      case isTrue same =>
          obtain rfl := Option.some.inj foundAt
          exact ⟨field, by simp, same.symm, fits⟩
      case isFalse =>
          obtain ⟨other, member, holds⟩ := before.typed key found foundAt
          exact ⟨other, List.mem_append_left _ member, holds⟩

theorem Bound.run {inputs : List (String × List String)} {headerNames : Bool}
    {before fields : List SchemaField} {start out : ValueMap}
    (bound : Bound inputs headerNames before start)
    (runs : fields.foldlM (coerceScalarField formats inputs headerNames) start = .ok out) :
    Bound inputs headerNames (before ++ fields) out := by
  induction fields generalizing before start with
  | nil =>
      obtain rfl := Except.ok.inj runs
      rwa [List.append_nil]
  | cons field fields ih =>
      rw [List.foldlM_cons, bind_eq_ok] at runs
      obtain ⟨next, step, runs⟩ := runs
      have rest := ih (bound.step step) runs
      rwa [List.append_assoc] at rest

end Validator

theorem bound_of_coerceScalarInput {formats : ValueFormats}
    {inputs : List (String × List String)} {schema : SchemaDefinition} {headerNames : Bool}
    {value : Value} (read : coerceScalarInput formats inputs schema headerNames = .ok value) :
    ∃ out, value = .map out ∧ Validator.Bound inputs headerNames schema.fields out := by
  rw [coerceScalarInput, bind_eq_ok] at read
  obtain ⟨out, runs, same⟩ := read
  have start : Validator.Bound inputs headerNames [] [] := by
    constructor
    · simp [ValueMap.get?]
    · simp [ValueMap.get?]
  exact ⟨out, (Except.ok.inj same).symm, start.run runs⟩

theorem foldlM_coerceScalarField_congr {formats : ValueFormats}
    {inputs others : List (String × List String)} {headerNames : Bool} {fields : List SchemaField}
    (same : ∀ field ∈ fields, Validator.boundTexts inputs headerNames field =
      Validator.boundTexts others headerNames field) (out : ValueMap) :
    fields.foldlM (Validator.coerceScalarField formats inputs headerNames) out =
      fields.foldlM (Validator.coerceScalarField formats others headerNames) out := by
  induction fields generalizing out with
  | nil => rfl
  | cons field fields ih =>
      rw [List.foldlM_cons, List.foldlM_cons,
        Validator.coerceScalarField_congr (same field List.mem_cons_self)]
      apply bind_congr
      exact ih fun other member => same other (List.mem_cons_of_mem _ member)

/-- The result depends on what the fields are bound from. -/
theorem coerceScalarInput_congr {formats : ValueFormats}
    {inputs others : List (String × List String)} {schema : SchemaDefinition} {headerNames : Bool}
    (same : ∀ field ∈ schema.fields, Validator.boundTexts inputs headerNames field =
      Validator.boundTexts others headerNames field) :
    coerceScalarInput formats inputs schema headerNames =
      coerceScalarInput formats others schema headerNames := by
  rw [coerceScalarInput, coerceScalarInput, foldlM_coerceScalarField_congr same]

/-! ## The order of the inputs -/

namespace RawInputs

variable (inputs : RawInputs) (headerNames : Bool)

/-- The texts that arrived under a name of the field. -/
def NamesField (field : SchemaField) (input : String × List String) : Prop :=
  Validator.canonicalKey headerNames input.1 = Validator.canonicalKey headerNames field.name

instance (field : SchemaField) (input : String × List String) :
    Decidable (NamesField headerNames field input) :=
  inferInstanceAs (Decidable (_ = _))

/-- A text that is not empty arrived for the field. -/
def Given (field : SchemaField) : Prop :=
  ∃ input ∈ inputs.entries, NamesField headerNames field input ∧ ∃ text ∈ input.2, text ≠ ""

/-- The names of one field come with the same texts. -/
def Agree (field : SchemaField) : Prop :=
  ∀ one ∈ inputs.entries, ∀ other ∈ inputs.entries,
    NamesField headerNames field one → NamesField headerNames field other →
      Validator.usedTexts field.fieldType one.2 = Validator.usedTexts field.fieldType other.2

variable {inputs headerNames} {field : SchemaField}

theorem usedTexts_filter (type : SchemaType) (texts : List String) :
    Validator.usedTexts type (texts.filter (· ≠ "")) = Validator.usedTexts type texts := by
  have filtered : (texts.filter (· ≠ "")).filter (· ≠ "") = texts.filter (· ≠ "") := by
    rw [List.filter_filter]
    simp
  cases type <;> simp only [Validator.usedTexts, filtered]

/-- A field is bound from the texts of one of its names, or from none. -/
theorem boundTexts_cases (entries : List (String × List String)) (headerNames : Bool)
    (field : SchemaField) :
    (∃ input ∈ entries, NamesField headerNames field input ∧
        Validator.boundTexts entries headerNames field =
          Validator.usedTexts field.fieldType input.2) ∨
      (∀ input ∈ entries, ¬NamesField headerNames field input) ∧
        Validator.boundTexts entries headerNames field = [] := by
  rw [Validator.boundTexts, Validator.presentTexts_eq]
  cases found : entries.reverse.find? fun input =>
      Validator.canonicalKey headerNames input.1 =
        Validator.canonicalKey headerNames field.name with
  | none =>
      right
      constructor
      · intro input member named
        have none := List.find?_eq_none.mp found input (List.mem_reverse.mpr member)
        exact none (decide_eq_true named)
      · cases field.fieldType <;> rfl
  | some input =>
      left
      have named := List.find?_some found
      refine ⟨input, List.mem_reverse.mp (List.mem_of_find?_eq_some found), ?_, ?_⟩
      · exact of_decide_eq_true named
      · rw [Option.map_some, Option.getD_some, usedTexts_filter]

/-- The last name of a field counts. -/
theorem boundTexts_last {input : String × List String} (named : NamesField headerNames field input)
    (before : List (String × List String)) :
    Validator.boundTexts (before ++ [input]) headerNames field =
      Validator.usedTexts field.fieldType input.2 := by
  have holds : decide (Validator.canonicalKey headerNames input.1 =
      Validator.canonicalKey headerNames field.name) = true := decide_eq_true named
  rw [Validator.boundTexts, Validator.presentTexts_eq, List.reverse_append, List.reverse_singleton,
    List.singleton_append, List.find?_cons, holds]
  exact usedTexts_filter _ _

theorem boundTexts_of_agree {entries : List (String × List String)}
    (same : entries.Perm inputs.entries) (agree : inputs.Agree headerNames field)
    {input : String × List String} (member : input ∈ inputs.entries)
    (named : NamesField headerNames field input) :
    Validator.boundTexts entries headerNames field =
      Validator.usedTexts field.fieldType input.2 := by
  rcases boundTexts_cases entries headerNames field with
    ⟨chosen, chosenMember, chosenNamed, bound⟩ | ⟨none, -⟩
  · rw [bound]
    exact agree chosen (same.subset chosenMember) input member chosenNamed named
  · exact absurd named (none input (same.symm.subset member))

theorem boundTexts_perm {entries : List (String × List String)}
    (same : entries.Perm inputs.entries) (agree : inputs.Agree headerNames field) :
    Validator.boundTexts entries headerNames field =
      Validator.boundTexts inputs.entries headerNames field := by
  rcases boundTexts_cases inputs.entries headerNames field with
    ⟨chosen, chosenMember, chosenNamed, bound⟩ | ⟨none, bound⟩
  · rw [bound]
    exact boundTexts_of_agree same agree chosenMember chosenNamed
  · rw [bound]
    rcases boundTexts_cases entries headerNames field with ⟨other, member, named, -⟩ | ⟨-, empty⟩
    · exact absurd named (none other (same.subset member))
    · exact empty

/-- An input can be moved to the end. -/
theorem exists_last {input : String × List String} (member : input ∈ inputs.entries) :
    ∃ others : RawInputs, others.entries.Perm inputs.entries ∧
      ∃ before, others.entries = before ++ [input] := by
  obtain ⟨before, after, shape⟩ := List.append_of_mem member
  have moved : ((before ++ after) ++ [input]).Perm inputs.entries := by
    rw [shape, List.append_assoc]
    exact (@List.perm_append_comm _ after [input]).append_left before
  exact ⟨⟨(before ++ after) ++ [input], ((moved.map Prod.fst).nodup_iff).mpr inputs.distinct⟩,
    moved, _, rfl⟩

/-- Names of queries are compared as they are, so each field has one. -/
theorem agree_of_not_headerNames (inputs : RawInputs) (field : SchemaField) :
    inputs.Agree false field := by
  intro one oneMember other otherMember oneNamed otherNamed
  have names : one.1 = other.1 := oneNamed.trans otherNamed.symm
  rw [List.inj_on_of_nodup_map inputs.distinct oneMember otherMember names]

theorem usedTexts_ne_nil_iff {type : SchemaType} {texts : List String} :
    Validator.usedTexts type texts ≠ [] ↔ ∃ text ∈ texts, text ≠ "" := by
  have some : (texts.filter (· ≠ "")) ≠ [] ↔ ∃ text ∈ texts, text ≠ "" := by
    rw [ne_eq, List.filter_eq_nil_iff]
    simp
  rw [← some]
  cases type <;> simp only [Validator.usedTexts] <;>
    first | rfl | (cases texts.filter (· ≠ "") <;> simp)

theorem boundTexts_ne_nil_iff (agree : inputs.Agree headerNames field) :
    Validator.boundTexts inputs.entries headerNames field ≠ [] ↔ inputs.Given headerNames field := by
  constructor
  · intro present
    rcases boundTexts_cases inputs.entries headerNames field with
      ⟨input, member, named, bound⟩ | ⟨-, bound⟩
    · rw [bound] at present
      exact ⟨input, member, named, (usedTexts_ne_nil_iff).mp present⟩
    · exact absurd bound present
  · rintro ⟨input, member, named, text⟩
    rw [boundTexts_of_agree (List.Perm.refl _) agree member named]
    exact (usedTexts_ne_nil_iff).mpr text

end RawInputs

/-- The result and what each field is bound from do not depend on the order of the inputs,
and the result has the declared fields that a text was given for, each of its type. -/
structure InputLaws (formats : ValueFormats) (schema : SchemaDefinition) (headerNames : Bool)
    (inputs : RawInputs) : Prop where
  sameResult : ∀ others : RawInputs, others.entries.Perm inputs.entries →
    coerceScalarInput formats others.entries schema headerNames =
      coerceScalarInput formats inputs.entries schema headerNames
  sameChoice : ∀ others : RawInputs, others.entries.Perm inputs.entries →
    ∀ field ∈ schema.fields, Validator.boundTexts others.entries headerNames field =
      Validator.boundTexts inputs.entries headerNames field
  outputs : ∀ value, coerceScalarInput formats inputs.entries schema headerNames = .ok value →
    ∃ out, value = .map out ∧
      (∀ key, (ValueMap.get? out key).isSome ↔
        ∃ field ∈ schema.fields, field.name = key ∧ inputs.Given headerNames field) ∧
      ∀ key value, ValueMap.get? out key = some value →
        ∃ field ∈ schema.fields, field.name = key ∧ Validator.FitsInput field.fieldType value

theorem inputLaws_iff_agree (formats : ValueFormats) (schema : SchemaDefinition)
    (headerNames : Bool) (inputs : RawInputs) :
    InputLaws formats schema headerNames inputs ↔
      headerNames = false ∨ ∀ field ∈ schema.fields, inputs.Agree headerNames field := by
  constructor
  · intro laws
    refine .inr ?_
    intro field member one oneMember other otherMember oneNamed otherNamed
    -- Either of the two names can come last, and the choice is the same.
    obtain ⟨oneLast, onePerm, before, oneShape⟩ := RawInputs.exists_last oneMember
    obtain ⟨otherLast, otherPerm, others, otherShape⟩ := RawInputs.exists_last otherMember
    have first := laws.sameChoice oneLast onePerm field member
    have second := laws.sameChoice otherLast otherPerm field member
    rw [oneShape, RawInputs.boundTexts_last oneNamed] at first
    rw [otherShape, RawInputs.boundTexts_last otherNamed] at second
    exact first.trans second.symm
  · intro agrees
    have agree : ∀ field ∈ schema.fields, inputs.Agree headerNames field := by
      rcases agrees with rfl | agree
      · exact fun field _ => RawInputs.agree_of_not_headerNames inputs field
      · exact agree
    constructor
    case sameResult =>
      intro others same
      exact coerceScalarInput_congr fun field member =>
        RawInputs.boundTexts_perm same (agree field member)
    case sameChoice =>
      exact fun others same field member => RawInputs.boundTexts_perm same (agree field member)
    case outputs =>
      intro value read
      obtain ⟨out, rfl, bound⟩ := bound_of_coerceScalarInput read
      refine ⟨out, rfl, ?_, bound.typed⟩
      intro key
      rw [bound.keys]
      apply exists_congr
      intro field
      apply and_congr_right
      intro member
      apply and_congr_right
      intro _
      exact RawInputs.boundTexts_ne_nil_iff (agree field member)

/-! ## Two spellings of one header -/

/-- A header that arrives with a hyphen and with an underscore. -/
def twoSpellings : RawInputs where
  entries := [("x-tenant", ["north"]), ("x_tenant", ["south"])]
  distinct := by decide

def tenantHeaders : SchemaDefinition :=
  { dbTable := none
    fields := [{ name := "x_tenant", fieldType := .stringType, optional := false }] }

theorem twoSpellings_depends_on_order :
    ¬InputLaws bareFormats tenantHeaders true twoSpellings := by
  intro laws
  have same := laws.sameChoice
    ⟨[("x_tenant", ["south"]), ("x-tenant", ["north"])], by decide⟩ (by decide)
    { name := "x_tenant", fieldType := .stringType, optional := false } (by decide)
  revert same
  decide +kernel

end Marreta
