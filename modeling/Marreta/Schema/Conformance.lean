import Marreta.Schema.Validator

namespace Marreta

open Foundation

/-! What it means for a value to conform to a schema, apart from how it is
checked.  The same rules apply to the values that come in, where a leaf is one of
the encodings of its type, and to those that go out, where it has the type. -/

namespace SchemaType

/-- Types that are not read by themselves. -/
def isNested : SchemaType → Bool
  | .reference _ | .typedList _ => true
  | _ => false

end SchemaType

mutual
/-- A value fits a type when its leaves do. -/
inductive Fits (schemas : Schemas) (leaf : SchemaType → Value → Prop) :
    SchemaType → Value → Prop
  | scalar {type : SchemaType} {value : Value} (single : type.isNested = false)
      (fits : leaf type value) : Fits schemas leaf type value
  /-- A reference to a stored record is not looked into. -/
  | relation {name : String} {schema : SchemaDefinition} {value : Value}
      (found : schemas.lookup name = some schema) (stored : schema.dbTable.isSome = true) :
      Fits schemas leaf (.reference name) value
  | embedded {name : String} {schema : SchemaDefinition} {value : Value}
      (found : schemas.lookup name = some schema) (plain : schema.dbTable = none)
      (fits : FitsSchema schemas leaf schema value) : Fits schemas leaf (.reference name) value
  | list {element : SchemaType} {items : List Value}
      (fits : ∀ item ∈ items, Fits schemas leaf element item) :
      Fits schemas leaf (.typedList element) (.list items)

/-- An object has its required fields, and the fields it has fit.  Nothing may
stand for an object without required fields. -/
inductive FitsSchema (schemas : Schemas) (leaf : SchemaType → Value → Prop) :
    SchemaDefinition → Value → Prop
  | null {schema : SchemaDefinition} (optional : ∀ field ∈ schema.fields, field.optional = true) :
      FitsSchema schemas leaf schema .null
  | object {schema : SchemaDefinition} {entries : ValueMap}
      (required : ∀ field ∈ schema.fields, field.optional = false →
        ∃ value, entries.get? field.name = some value ∧ value ≠ .null)
      (fits : ∀ field ∈ schema.fields, ∀ value, entries.get? field.name = some value →
        value ≠ .null → Fits schemas leaf field.fieldType value) :
      FitsSchema schemas leaf schema (.map entries)
end

/-- One field of an object is as it should be. -/
def FitsField (schemas : Schemas) (leaf : SchemaType → Value → Prop) (entries : ValueMap)
    (field : SchemaField) : Prop :=
  (field.optional = false → ∃ value, entries.get? field.name = some value ∧ value ≠ .null) ∧
    ∀ value, entries.get? field.name = some value → value ≠ .null →
      Fits schemas leaf field.fieldType value

theorem fitsSchema_map {schemas : Schemas} {leaf : SchemaType → Value → Prop}
    {schema : SchemaDefinition} {entries : ValueMap} :
    FitsSchema schemas leaf schema (.map entries) ↔
      ∀ field ∈ schema.fields, FitsField schemas leaf entries field := by
  constructor
  · intro holds
    cases holds with
    | object required fits => exact fun field member => ⟨required field member, fits field member⟩
  · exact fun all => .object (fun field member => (all field member).1)
      fun field member => (all field member).2

/-! ## Leaves -/

def temporalOf (formats : ValueFormats) : Value → Option TemporalValue
  | .instant nanoseconds => some (.instant nanoseconds)
  | .date days => some (.date days)
  | .time nanoseconds => some (.time nanoseconds)
  | .string text =>
      (formats.parseInstant text).map .instant <|> (formats.parseDate text).map .date <|>
        (formats.parseTime text).map .time
  | _ => none

/-- The value is of a type or one of the accepted encodings of it. -/
def Encodes (formats : ValueFormats) : SchemaType → Value → Prop
  | .decimalType, .decimal _ | .decimalType, .integer _ => True
  | .decimalType, .string text =>
      'e' ∉ text.toList ∧ 'E' ∉ text.toList ∧ (formats.parseDecimal text).isSome = true
  | .instantType, .instant _ => True
  | .instantType, .string text => (formats.parseInstant text).isSome = true
  | .dateType, .date _ => True
  | .dateType, .string text => (formats.parseDate text).isSome = true
  | .timeType, .time _ => True
  | .timeType, .string text => (formats.parseTime text).isSome = true
  | .durationType, .duration _ => True
  | .durationType, value => (Validator.durationMillis value).isSome = true
  | .intervalType, .interval _ _ => True
  | .intervalType, .map entries =>
      ∃ start stop first last, ValueMap.get? entries "start" = some start ∧
        ValueMap.get? entries "end" = some stop ∧
        temporalOf formats start = some first ∧ temporalOf formats stop = some last ∧
        Validator.sameTemporalKind first last = true
  | .enumType values, .string text => text ∈ values
  | type, value => Validator.isDirect value type = true

/-- The value is of the type itself. -/
def HasType : SchemaType → Value → Prop
  | .decimalType, .decimal _ | .instantType, .instant _ | .dateType, .date _
  | .timeType, .time _ | .durationType, .duration _ | .intervalType, .interval _ _ => True
  | .enumType values, .string text => text ∈ values
  | type, value => Validator.isDirect value type = true

def Conforms (formats : ValueFormats) (schemas : Schemas) (schema : SchemaDefinition)
    (payload : Value) : Prop :=
  FitsSchema schemas (Encodes formats) schema payload

/-! ## Durations that are too long -/

mutual
/-- A duration in the value is the one number of milliseconds that the duration
type cannot hold, and everything that is looked at before it conforms. -/
inductive Overflows (formats : ValueFormats) (schemas : Schemas) : SchemaType → Value → Prop
  | duration {value : Value} (least : Validator.durationMillis value = some Int64.minValue) :
      Overflows formats schemas .durationType value
  | embedded {name : String} {schema : SchemaDefinition} {value : Value}
      (found : schemas.lookup name = some schema) (plain : schema.dbTable = none)
      (inside : SchemaOverflows formats schemas schema value) :
      Overflows formats schemas (.reference name) value
  | list {element : SchemaType} {items before after : List Value} {item : Value}
      (parts : items = before ++ item :: after)
      (earlier : ∀ item ∈ before, Fits schemas (Encodes formats) element item)
      (inside : Overflows formats schemas element item) :
      Overflows formats schemas (.typedList element) (.list items)

inductive SchemaOverflows (formats : ValueFormats) (schemas : Schemas) :
    SchemaDefinition → Value → Prop
  | object {schema : SchemaDefinition} {entries : ValueMap} {before after : List SchemaField}
      {field : SchemaField} {value : Value} (parts : schema.fields = before ++ field :: after)
      (earlier : ∀ field ∈ before, FitsField schemas (Encodes formats) entries field)
      (found : entries.get? field.name = some value)
      (inside : Overflows formats schemas field.fieldType value) :
      SchemaOverflows formats schemas schema (.map entries)
end

/-! ## What the validator promises -/

/-- An answer with status 422. -/
def Is422 (fault : LibraryFault) : Prop :=
  ∃ body, fault = .error (.httpResponse 422 body "application/json" [] true)

/-- The result has the keys of the payload, and what is not declared is
untouched. -/
def KeepsUndeclared (schema : SchemaDefinition) (payload result : Value) : Prop :=
  match payload, result with
  | .map entries, .map out =>
      out.map Prod.fst = entries.map Prod.fst ∧
        ∀ key, (∀ field ∈ schema.fields, field.name ≠ key) →
          ValueMap.get? out key = ValueMap.get? entries key
  | payload, result => result = payload

/-- The validator on one payload: sound, complete, idempotent, and every refusal
an answer with status 422. -/
structure PayloadChecked (formats : ValueFormats) (schemas : Schemas) (schema : SchemaDefinition)
    (payload : Value) : Prop where
  accepts : (∃ result, coercePayload formats payload schema schemas = .ok result) ↔
    Conforms formats schemas schema payload
  keeps : ∀ result, coercePayload formats payload schema schemas = .ok result →
    KeepsUndeclared schema payload result
  typed : ∀ result, coercePayload formats payload schema schemas = .ok result →
    FitsSchema schemas HasType schema result
  again : ∀ result, coercePayload formats payload schema schemas = .ok result →
    coercePayload formats result schema schemas = .ok result
  refuses : ∀ fault, coercePayload formats payload schema schemas = .error fault → Is422 fault

/-! ## One step of the validator -/

/-- How a check ended, against what should have been accepted: `again` holds of
values that the check leaves as they are. -/
inductive Decides (conforms overflows : Prop) (typed again : Value → Prop) :
    Except LibraryFault Value → Prop
  | accepted {result : Value} (conforming : conforms) (safe : ¬ overflows) (fits : typed result)
      (stays : again result) : Decides conforms overflows typed again (.ok result)
  | panicked (spills : overflows) : Decides conforms overflows typed again (.error .panic)
  | refused {fault : LibraryFault} (violates : ¬ conforms) (safe : ¬ overflows)
      (answer : Is422 fault) : Decides conforms overflows typed again (.error fault)

namespace Validator

variable {formats : ValueFormats}

attribute [local simp] Encodes HasType durationMillis isDirect

theorem is422_error422 {α : Type} (message : String) :
    ∃ fault, Is422 fault ∧ (error422 formats message : Except LibraryFault α) = .error fault :=
  ⟨_, ⟨_, rfl⟩, rfl⟩

theorem decides_error422 {conforms overflows : Prop} {typed again : Value → Prop}
    (violates : ¬ conforms) (safe : ¬ overflows) (message : String) :
    Decides conforms overflows typed again (error422 formats message) :=
  .refused violates safe ⟨_, rfl⟩

/-! ### Scalar types -/

/-- What the check of a scalar type must do. -/
def DecidesScalar (formats : ValueFormats) (type : SchemaType) (value : Value) (path : String)
    (result : Except LibraryFault Value) : Prop :=
  Decides (Encodes formats type value)
    (type = .durationType ∧ durationMillis value = some Int64.minValue)
    (HasType type) (fun result => coerceScalar formats result type path = .ok result) result

/-- A value that is no encoding stands for no duration. -/
theorem decides_scalar_error422 {type : SchemaType} {value : Value} {path : String}
    (violates : ¬ Encodes formats type value) (message : String) :
    DecidesScalar formats type value path (error422 formats message) := by
  refine decides_error422 violates ?_ message
  rintro ⟨rfl, least⟩
  apply violates
  cases value <;> simp_all

theorem decides_direct {type : SchemaType} (value : Value) (path : String)
    (scalar : ∀ value, coerceScalar formats value type path =
      expectDirectType formats value type path)
    (encodes : ∀ value, Encodes formats type value ↔ isDirect value type = true)
    (typed : ∀ value, HasType type value ↔ isDirect value type = true)
    (other : type ≠ .durationType) :
    DecidesScalar formats type value path (coerceScalar formats value type path) := by
  rw [scalar value, expectDirectType]
  split
  · rename_i direct
    refine .accepted ((encodes value).mpr direct) (fun spills => other spills.1)
      ((typed value).mpr direct) ?_
    rw [scalar, expectDirectType, if_pos direct]
  · rename_i indirect
    exact decides_scalar_error422 (fun conforms => indirect ((encodes value).mp conforms)) _

theorem decides_decimal (value : Value) (path : String) :
    DecidesScalar formats .decimalType value path (coerceDecimal formats value path) := by
  have safe : ¬ (SchemaType.decimalType = .durationType ∧ durationMillis value = some Int64.minValue) :=
    fun spills => by simp at spills
  unfold coerceDecimal
  split
  · exact .accepted trivial safe trivial rfl
  · exact .accepted trivial safe trivial rfl
  · rename_i text
    split
    · rename_i scientific
      apply decides_scalar_error422
      rintro ⟨lower, upper, -⟩
      simp only [List.any_eq_true, Bool.or_eq_true, decide_eq_true_eq] at scientific
      obtain ⟨char, member, rfl | rfl⟩ := scientific
      · exact lower member
      · exact upper member
    · rename_i plain
      simp only [List.any_eq_true, Bool.or_eq_true, decide_eq_true_eq, not_exists, not_and, not_or]
        at plain
      split
      · rename_i number parsed
        refine .accepted ⟨fun member => (plain _ member).1 rfl, fun member => (plain _ member).2 rfl,
          by rw [parsed]; rfl⟩ safe trivial rfl
      · rename_i unparsed
        apply decides_scalar_error422
        rintro ⟨-, -, parsed⟩
        simp [unparsed] at parsed
  · rename_i notDecimal notInteger notString
    apply decides_scalar_error422
    intro conforms
    cases value <;> simp at conforms
    · exact notInteger _ rfl
    · exact notDecimal _ rfl
    · exact notString _ rfl

theorem decides_text {type : SchemaType} {isOwn : Value → Bool} {parse : String → Option Value}
    {textKind kind : String} (value : Value) (path : String)
    (scalar : ∀ value, coerceScalar formats value type path =
      coerceText formats isOwn parse textKind kind value path)
    (encodes : ∀ value, Encodes formats type value ↔
      isOwn value = true ∨ ∃ text parsed, value = .string text ∧ parse text = some parsed)
    (typed : ∀ value, HasType type value ↔ isOwn value = true)
    (reads : ∀ text parsed, parse text = some parsed → isOwn parsed = true)
    (other : type ≠ .durationType) :
    DecidesScalar formats type value path (coerceScalar formats value type path) := by
  have stays : ∀ value, isOwn value = true →
      coerceScalar formats value type path = .ok value := by
    intro value own
    rw [scalar]
    unfold coerceText
    rw [if_pos own]
  by_cases own : isOwn value = true
  · rw [stays value own]
    exact .accepted ((encodes value).mpr (.inl own)) (fun spills => other spills.1)
      ((typed value).mpr own) (stays value own)
  · rw [scalar]
    unfold coerceText
    rw [if_neg own]
    split
    · rename_i text
      split
      · rename_i parsed found
        have ownParsed := reads text parsed found
        exact .accepted ((encodes _).mpr (.inr ⟨text, parsed, rfl, found⟩))
          (fun spills => other spills.1) ((typed parsed).mpr ownParsed) (stays parsed ownParsed)
      · rename_i unparsed
        apply decides_scalar_error422
        intro conforms
        rcases (encodes _).mp conforms with ownText | ⟨other, parsed, same, found⟩
        · exact own ownText
        · obtain rfl := Value.string.inj same
          simp [unparsed] at found
    · rename_i notString
      apply decides_scalar_error422
      intro conforms
      rcases (encodes _).mp conforms with ownValue | ⟨text, parsed, same, -⟩
      · exact own ownValue
      · exact notString text same

theorem decides_instant (value : Value) (path : String) :
    DecidesScalar formats .instantType value path
      (coerceScalar formats value .instantType path) := by
  apply decides_text value path (fun _ => rfl)
  · intro value
    cases value <;> simp [isInstant, Option.isSome_iff_exists]
  · intro value
    cases value <;> simp [isInstant]
  · intro text parsed found
    obtain ⟨instant, -, rfl⟩ := Option.map_eq_some_iff.mp found
    rfl
  · simp

theorem decides_date (value : Value) (path : String) :
    DecidesScalar formats .dateType value path (coerceScalar formats value .dateType path) := by
  apply decides_text value path (fun _ => rfl)
  · intro value
    cases value <;> simp [isDate, Option.isSome_iff_exists]
  · intro value
    cases value <;> simp [isDate]
  · intro text parsed found
    obtain ⟨date, -, rfl⟩ := Option.map_eq_some_iff.mp found
    rfl
  · simp

theorem decides_time (value : Value) (path : String) :
    DecidesScalar formats .timeType value path (coerceScalar formats value .timeType path) := by
  apply decides_text value path (fun _ => rfl)
  · intro value
    cases value <;> simp [isTime, Option.isSome_iff_exists]
  · intro value
    cases value <;> simp [isTime]
  · intro text parsed found
    obtain ⟨time, -, rfl⟩ := Option.map_eq_some_iff.mp found
    rfl
  · simp

theorem decides_milliseconds {value : Value} {millis : Int64} (path : String)
    (known : durationMillis value = some millis) (number : ∀ nanoseconds, value ≠ .duration nanoseconds) :
    DecidesScalar formats .durationType value path (milliseconds millis) := by
  have encodes : Encodes formats .durationType value := by
    cases value <;> simp_all
  unfold milliseconds
  split
  · rename_i least
    exact .panicked ⟨rfl, by rw [known, least]⟩
  · rename_i fits
    refine .accepted encodes ?_ trivial rfl
    rintro ⟨-, least⟩
    rw [known] at least
    exact fits (Option.some.inj least)

theorem decides_duration (value : Value) (path : String) :
    DecidesScalar formats .durationType value path
      (coerceScalar formats value .durationType path) := by
  change DecidesScalar formats _ _ _ (coerceDuration formats value path)
  unfold coerceDuration
  split
  · exact .accepted trivial (by simp) trivial rfl
  · exact decides_milliseconds path rfl (by simp)
  · exact decides_milliseconds path rfl (by simp)
  · rename_i text
    split
    · rename_i millis parsed
      exact decides_milliseconds path parsed (by simp)
    · rename_i unparsed
      apply decides_scalar_error422
      simp [unparsed]
  · rename_i notDuration notInteger notFloat notString
    apply decides_scalar_error422
    intro conforms
    cases value <;> simp at conforms
    · exact notInteger _ rfl
    · exact notFloat _ rfl
    · exact notString _ rfl
    · exact notDuration _ rfl

theorem coerceTemporalComponent_eq (value : Value) (path : String) :
    (∃ temporal, temporalOf formats value = some temporal ∧
      coerceTemporalComponent formats value path = .ok temporal) ∨
    temporalOf formats value = none ∧
      ∃ fault, Is422 fault ∧ coerceTemporalComponent formats value path = .error fault := by
  unfold coerceTemporalComponent
  split
  · exact .inl ⟨_, rfl, rfl⟩
  · exact .inl ⟨_, rfl, rfl⟩
  · exact .inl ⟨_, rfl, rfl⟩
  · rename_i text
    split
    · rename_i instant
      exact .inl ⟨_, by simp [temporalOf, instant], rfl⟩
    · rename_i instant date
      exact .inl ⟨_, by simp [temporalOf, instant, date], rfl⟩
    · rename_i instant date time
      exact .inl ⟨_, by simp [temporalOf, instant, date, time], rfl⟩
    · rename_i instant date time
      exact .inr ⟨by simp [temporalOf, instant, date, time], is422_error422 _⟩
  · rename_i notInstant notDate notTime notString
    refine .inr ⟨?_, is422_error422 _⟩
    cases value <;> first | rfl | skip
    · exact absurd rfl (notString _)
    · exact absurd rfl (notInstant _)
    · exact absurd rfl (notDate _)
    · exact absurd rfl (notTime _)

theorem decides_interval (value : Value) (path : String) :
    DecidesScalar formats .intervalType value path
      (coerceScalar formats value .intervalType path) := by
  have safe : ¬ (SchemaType.intervalType = .durationType ∧
      durationMillis value = some Int64.minValue) := fun spills => by simp at spills
  change DecidesScalar formats _ _ _ (coerceInterval formats value path)
  unfold coerceInterval
  split
  · exact .accepted trivial safe trivial rfl
  · rename_i entries
    unfold intervalEnd
    cases foundStart : ValueMap.get? entries "start" with
    | none =>
        apply decides_scalar_error422
        rintro ⟨start, stop, first, last, hasStart, -⟩
        simp [foundStart] at hasStart
    | some start =>
        cases foundStop : ValueMap.get? entries "end" with
        | none =>
            apply decides_scalar_error422
            rintro ⟨start, stop, first, last, -, hasStop, -⟩
            simp [foundStop] at hasStop
        | some stop =>
            simp only [bind, Except.bind]
            rcases @coerceTemporalComponent_eq formats start (path ++ ".start") with
              ⟨first, isFirst, read⟩ | ⟨notFirst, fault, answer, read⟩
            · rcases @coerceTemporalComponent_eq formats stop (path ++ ".end") with
                ⟨last, isLast, readLast⟩ | ⟨notLast, fault, answer, readLast⟩
              · simp only [read, readLast]
                split
                · rename_i same
                  exact .accepted ⟨start, stop, first, last, foundStart, foundStop, isFirst, isLast,
                    same⟩ safe trivial rfl
                · rename_i differ
                  apply decides_scalar_error422
                  rintro ⟨start', stop', first', last', hasStart, hasStop, isFirst', isLast', same⟩
                  rw [foundStart, Option.some.injEq] at hasStart
                  rw [foundStop, Option.some.injEq] at hasStop
                  subst hasStart hasStop
                  rw [isFirst, Option.some.injEq] at isFirst'
                  rw [isLast, Option.some.injEq] at isLast'
                  subst isFirst' isLast'
                  exact differ same
              · simp only [read, readLast]
                refine .refused ?_ safe answer
                rintro ⟨start', stop', first', last', -, hasStop, -, isLast', -⟩
                rw [foundStop, Option.some.injEq] at hasStop
                subst hasStop
                simp [notLast] at isLast'
            · simp only [read]
              refine .refused ?_ safe answer
              rintro ⟨start', stop', first', last', hasStart, -, isFirst', -⟩
              rw [foundStart, Option.some.injEq] at hasStart
              subst hasStart
              simp [notFirst] at isFirst'
  · rename_i notInterval notMap
    apply decides_scalar_error422
    intro conforms
    cases value <;> simp at conforms
    · exact notInterval _ _ rfl
    · exact notMap _ rfl

theorem decides_enum (value : Value) (values : List String) (path : String) :
    DecidesScalar formats (.enumType values) value path
      (coerceScalar formats value (.enumType values) path) := by
  have safe : ¬ (SchemaType.enumType values = .durationType ∧
      durationMillis value = some Int64.minValue) := fun spills => by simp at spills
  change DecidesScalar formats _ _ _ (coerceEnum formats value values path)
  unfold coerceEnum
  split
  · rename_i text
    split
    · rename_i member
      refine .accepted member safe member ?_
      change coerceEnum formats (.string text) values path = _
      simp [coerceEnum, member]
    · rename_i absent
      exact decides_scalar_error422
        (show ¬ Encodes formats (.enumType values) (.string text) from absent) _
  · rename_i notString
    apply decides_scalar_error422
    intro conforms
    cases value <;> simp at conforms
    exact notString _ rfl

/-- Every type that is read by itself. -/
theorem decides_scalar (type : SchemaType) (single : type.isNested = false) (value : Value)
    (path : String) :
    DecidesScalar formats type value path (coerceScalar formats value type path) := by
  cases type with
  | decimalType => exact decides_decimal value path
  | instantType => exact decides_instant value path
  | dateType => exact decides_date value path
  | timeType => exact decides_time value path
  | durationType => exact decides_duration value path
  | intervalType => exact decides_interval value path
  | enumType values => exact decides_enum value values path
  | reference name | typedList element => simp [SchemaType.isNested] at single
  | stringType | integerType | floatType | booleanType | listType | mapType =>
      apply decides_direct value path (fun _ => rfl)
      · intro value
        cases value <;> rfl
      · intro value
        cases value <;> rfl
      · simp

end Validator
end Marreta
