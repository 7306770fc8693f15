import Marreta.Foundation.Ensures
import Marreta.Runtime.Host

namespace Marreta

open Foundation

/-! The validator of payloads.  It checks a value against a schema and turns the
encodings of the scalar types into their values.  The first violation is
answered with status 422. -/

/-- Texts of the types that other libraries read and write: plain decimals,
RFC 3339 instants, dates `YYYY-MM-DD`, times `HH:MM:SS` and JSON strings. -/
structure ValueFormats where
  parseDecimal : String → Option Decimal
  parseInstant : String → Option Int
  parseDate : String → Option Int
  parseTime : String → Option Nat
  jsonString : String → String

/-- References are followed at most this deep. -/
def maxDepth : Nat := 20

namespace Validator

variable (formats : ValueFormats)

def error422 {α : Type} (message : String) : Except LibraryFault α :=
  .error (.error (.httpResponse 422
    ("\x7b\"error\":" ++ formats.jsonString message ++ "\x7d") "application/json" [] true))

def fieldPath (pathPrefix name : String) : String :=
  if pathPrefix = "" then name else pathPrefix ++ "." ++ name

/-! ## Scalar types -/

def expected {α : Type} (path type : String) (value : Value) : Except LibraryFault α :=
  error422 formats ("field '" ++ path ++ "' expected " ++ type ++ ", got " ++ value.typeName)

/-- The types whose values have no other encoding. -/
def isDirect : Value → SchemaType → Bool
  | .string _, .stringType | .integer _, .integerType | .float _, .floatType
  | .boolean _, .booleanType | .list _, .listType | .map _, .mapType => true
  | _, _ => false

def expectDirectType (value : Value) (type : SchemaType) (path : String) :
    Except LibraryFault Value :=
  if isDirect value type then .ok value else expected formats path type.display value

def coerceEnum (value : Value) (values : List String) (path : String) :
    Except LibraryFault Value :=
  match value with
  | .string text =>
      if text ∈ values then .ok value
      else
        error422 formats ("field '" ++ path ++ "' expected one of [" ++
          String.intercalate ", " values ++ "], got '" ++ text ++ "'")
  | _ => expected formats path "enum string" value

theorem mantissaBound : NeZero (2 ^ 96) := inferInstance

theorem scaleBound : NeZero 29 := inferInstance

def decimalOfInt64 (value : Int64) : Decimal :=
  { negative := value < 0
    mantissa := @Fin.ofNat _ mantissaBound value.toInt.natAbs
    scale := @Fin.ofNat _ scaleBound 0 }

def coerceDecimal (value : Value) (path : String) : Except LibraryFault Value :=
  match value with
  | .decimal _ => .ok value
  | .integer number => .ok (.decimal (decimalOfInt64 number))
  | .string text =>
      if text.toList.any fun char => char = 'e' || char = 'E' then
        error422 formats ("field '" ++ path ++
          "' expected plain decimal string, got scientific notation")
      else
        match formats.parseDecimal text with
        | some number => .ok (.decimal number)
        | none => error422 formats ("field '" ++ path ++ "' expected decimal string")
  | _ => expected formats path "decimal" value

/-- A type whose values also come as texts. -/
def coerceText (isOwn : Value → Bool) (parse : String → Option Value) (textKind kind : String)
    (value : Value) (path : String) : Except LibraryFault Value :=
  if isOwn value then .ok value
  else
    match value with
    | .string text =>
        match parse text with
        | some parsed => .ok parsed
        | none => error422 formats ("field '" ++ path ++ "' expected " ++ textKind)
    | _ => expected formats path kind value

def isInstant : Value → Bool
  | .instant _ => true
  | _ => false

def coerceInstant : Value → String → Except LibraryFault Value :=
  coerceText formats isInstant (fun text => (formats.parseInstant text).map .instant)
    "instant RFC3339 string" "instant"

def isDate : Value → Bool
  | .date _ => true
  | _ => false

def coerceDate : Value → String → Except LibraryFault Value :=
  coerceText formats isDate (fun text => (formats.parseDate text).map .date)
    "date YYYY-MM-DD string" "date"

def isTime : Value → Bool
  | .time _ => true
  | _ => false

def coerceTime : Value → String → Except LibraryFault Value :=
  coerceText formats isTime (fun text => (formats.parseTime text).map .time)
    "time HH:MM:SS string" "time"

/-- `PT<seconds>S` in milliseconds. -/
def parseDurationString (text : String) : Option Int64 :=
  match text.toList with
  | 'P' :: 'T' :: rest =>
      if rest.getLast? = some 'S' then
        (Binary64.parse rest.dropLast).map fun seconds => seconds.timesThousand.roundToInt64
      else none
  | _ => none

/-- The milliseconds that a value stands for. -/
def durationMillis : Value → Option Int64
  | .integer millis => some millis
  | .float millis => some millis.toInt64
  | .string text => parseDurationString text
  | _ => none

/-- Durations keep nanoseconds.  The library refuses a number of milliseconds
whose magnitude is above the largest integer, with a panic. -/
def milliseconds (millis : Int64) : Except LibraryFault Value :=
  if millis = Int64.minValue then .error .panic
  else .ok (.duration (millis.toInt * 1000000))

def coerceDuration (value : Value) (path : String) : Except LibraryFault Value :=
  match value with
  | .duration _ => .ok value
  | .integer millis => milliseconds millis
  | .float millis => milliseconds millis.toInt64
  | .string text =>
      match parseDurationString text with
      | some millis => milliseconds millis
      | none =>
          error422 formats ("field '" ++ path ++ "' expected duration string like PT3600S")
  | _ => expected formats path "duration" value

def coerceTemporalComponent (value : Value) (path : String) :
    Except LibraryFault TemporalValue :=
  match value with
  | .instant nanoseconds => .ok (.instant nanoseconds)
  | .date days => .ok (.date days)
  | .time nanoseconds => .ok (.time nanoseconds)
  | .string text =>
      match formats.parseInstant text, formats.parseDate text, formats.parseTime text with
      | some nanoseconds, _, _ => .ok (.instant nanoseconds)
      | none, some days, _ => .ok (.date days)
      | none, none, some nanoseconds => .ok (.time nanoseconds)
      | none, none, none =>
          error422 formats ("field '" ++ path ++ "' expected temporal string")
  | _ => expected formats path "temporal value" value

def sameTemporalKind : TemporalValue → TemporalValue → Bool
  | .instant _, .instant _ | .date _, .date _ | .time _, .time _ => true
  | _, _ => false

def intervalEnd (entries : ValueMap) (key path : String) : Except LibraryFault Value :=
  match entries.get? key with
  | some value => .ok value
  | none => error422 formats ("field '" ++ path ++ "." ++ key ++ "' is required")

def coerceInterval (value : Value) (path : String) : Except LibraryFault Value :=
  match value with
  | .interval _ _ => .ok value
  | .map entries => do
      let start ← intervalEnd formats entries "start" path
      let stop ← intervalEnd formats entries "end" path
      let start ← coerceTemporalComponent formats start (path ++ ".start")
      let stop ← coerceTemporalComponent formats stop (path ++ ".end")
      if sameTemporalKind start stop then return .interval start stop
      else
        error422 formats ("field '" ++ path ++
          "' interval start and end must share the same temporal type")
  | _ => expected formats path "interval object" value

/-- The types that are read without looking at other schemas. -/
def coerceScalar (value : Value) (type : SchemaType) (path : String) :
    Except LibraryFault Value :=
  match type with
  | .decimalType => coerceDecimal formats value path
  | .instantType => coerceInstant formats value path
  | .dateType => coerceDate formats value path
  | .timeType => coerceTime formats value path
  | .durationType => coerceDuration formats value path
  | .intervalType => coerceInterval formats value path
  | .enumType values => coerceEnum formats value values path
  | type => expectDirectType formats value type path

/-! ## Nested types -/

/-- How a value is checked against a schema: the value, the schema, the path of
the value and the names of the schemas around it. -/
abbrev Nested := Value → SchemaDefinition → String → List String → Except LibraryFault Value

/-- A reference into a table is a relation and passes unchecked. -/
def coerceReference (schemas : Schemas) (nested : Nested) (value : Value) (schemaName path : String)
    (onPath : List String) : Except LibraryFault Value :=
  match schemas.lookup schemaName with
  | some schema =>
      if schema.dbTable.isSome then .ok value
      else if schemaName ∈ onPath then
        error422 formats ("field '" ++ path ++
          "' forms an infinite schema reference cycle via '" ++ schemaName ++ "'")
      else nested value schema path (onPath ++ [schemaName])
  | none =>
      if schemaName ∈ onPath then
        error422 formats ("field '" ++ path ++
          "' forms an infinite schema reference cycle via '" ++ schemaName ++ "'")
      else
        error422 formats ("field '" ++ path ++ "' references unknown schema '" ++
          schemaName ++ "'")

def coerceFieldType (schemas : Schemas) (nested : Nested) :
    SchemaType → Value → String → List String → Except LibraryFault Value
  | .reference schemaName, value, path, onPath =>
      coerceReference formats schemas nested value schemaName path onPath
  | .typedList element, value, path, onPath =>
      match value with
      | .list items => do
          let coerced ← (items.zipIdx).mapM fun (item, index) =>
            coerceFieldType schemas nested element item
              (path ++ "[" ++ toString index ++ "]") onPath
          return .list coerced
      | _ => expected formats path "array" value
  | type, value, path, _ => coerceScalar formats value type path

/-- One field of an object.  `entries` is the object as it came, `out` what it
has become so far. -/
def coerceField (schemas : Schemas) (nested : Nested) (entries : ValueMap)
    (pathPrefix : String) (onPath : List String) (out : ValueMap) (field : SchemaField) :
    Except LibraryFault ValueMap :=
  let path := fieldPath pathPrefix field.name
  match entries.get? field.name with
  | none =>
      if field.optional then .ok out
      else error422 formats ("field '" ++ path ++ "' is required")
  | some .null =>
      if field.optional then .ok (out.insert field.name .null)
      else error422 formats ("field '" ++ path ++ "' is required (got null)")
  | some value => do
      let coerced ← coerceFieldType formats schemas nested field.fieldType value path onPath
      return out.insert field.name coerced

/-- A missing object is accepted when nothing in it is required. -/
def coerceNull (schema : SchemaDefinition) (pathPrefix : String) : Except LibraryFault Value :=
  match schema.fields.find? fun field => !field.optional with
  | some field =>
      error422 formats ("field '" ++ fieldPath pathPrefix field.name ++
        "' is required but payload is null or missing")
  | none => .ok .null

/-- `remaining` is how many schemas deep the value may still be nested. -/
def coerceRecursive (schemas : Schemas) : (remaining : Nat) → Nested
  | 0, _, _, _, _ => error422 formats "schema validation exceeded maximum nesting depth"
  | remaining + 1, payload, schema, pathPrefix, onPath =>
      match payload with
      | .map entries => do
          let out ← schema.fields.foldlM
            (coerceField formats schemas (coerceRecursive schemas remaining) entries
              pathPrefix onPath)
            entries
          return .map out
      | .null => coerceNull formats schema pathPrefix
      | _ => error422 formats "payload must be a JSON object"

end Validator

def coercePayload (formats : ValueFormats) (payload : Value) (schema : SchemaDefinition)
    (schemas : Schemas) : Except LibraryFault Value :=
  Validator.coerceRecursive formats schemas (maxDepth + 1) payload schema "" []

/-! ## Texts of queries and headers -/

namespace Validator

variable (formats : ValueFormats)

/-- Header names match without case, with `-` and `_` alike. -/
def canonicalHeaderKey (name : String) : String :=
  name.map fun char => if char = '-' then '_' else char.toLower

def parseInt64 (text : String) : Option Int64 :=
  let (negative, digits) := Binary64.splitSign text.toList
  let value : Int :=
    if negative then -(Binary64.digitsValue digits : Int) else Binary64.digitsValue digits
  if digits ≠ [] ∧ digits.all Char.isDigit ∧ -2 ^ 63 ≤ value ∧ value < 2 ^ 63 then
    some (Int64.ofInt value)
  else none

def coerceScalarString (text : String) (type : SchemaType) (path : String) :
    Except LibraryFault Value :=
  let mustBe (kind : String) : Except LibraryFault Value :=
    error422 formats ("field '" ++ path ++ "' must be " ++ kind ++ ", got '" ++ text ++ "'")
  match type with
  | .stringType => .ok (.string text)
  | .integerType =>
      match parseInt64 text with
      | some number => .ok (.integer number)
      | none => mustBe "an integer"
  | .floatType =>
      match Binary64.parse text.toList with
      | some number => .ok (.float number)
      | none => mustBe "a number"
  | .booleanType =>
      match text with
      | "true" => .ok (.boolean true)
      | "false" => .ok (.boolean false)
      | _ => mustBe "true or false"
  | .decimalType | .instantType | .dateType | .timeType | .durationType | .intervalType
  | .enumType _ => coerceScalar formats (.string text) type path
  | .reference _ | .typedList _ | .listType | .mapType =>
      error422 formats ("field '" ++ path ++
        "' has a type that cannot be read from query or headers")

/-- The texts given for a name.  Empty ones count as absent, and of names that
match alike the last counts. -/
def presentTexts (inputs : List (String × List String)) (headerNames : Bool) (name : String) :
    List String :=
  let canonical (name : String) : String := if headerNames then canonicalHeaderKey name else name
  let found := inputs.reverse.find? fun input => canonical input.1 = canonical name
  ((found.map Prod.snd).getD []).filter (· ≠ "")

def coerceScalarField (inputs : List (String × List String)) (headerNames : Bool)
    (out : ValueMap) (field : SchemaField) : Except LibraryFault ValueMap :=
  match presentTexts inputs headerNames field.name, field.fieldType with
  | [], _ =>
      if field.optional then .ok out
      else error422 formats ("field '" ++ field.name ++ "' is required")
  | texts, .typedList element => do
      let items ← texts.mapM fun text => coerceScalarString formats text element field.name
      return out.insert field.name (.list items)
  | texts, .listType => .ok (out.insert field.name (.list (texts.map .string)))
  | text :: _, type => do
      let value ← coerceScalarString formats text type field.name
      return out.insert field.name value

end Validator

def coerceScalarInput (formats : ValueFormats) (inputs : List (String × List String))
    (schema : SchemaDefinition) (headerNames : Bool) : Except LibraryFault Value := do
  let out ← schema.fields.foldlM (Validator.coerceScalarField formats inputs headerNames) []
  return .map out

end Marreta
