import Marreta.Foundation.Binary64Products
import Marreta.Runtime.Operators
import Marreta.Runtime.TimeMasks

namespace Marreta

open Binary64

/-! Durations and formats of the `time` namespace.

The calendar library panics on the one duration it cannot hold and on a format that it cannot
print.  The other functions of the namespace are those of the value library. -/

namespace TimeNamespace

open Operators (typeError)

variable (chrono : Chrono) (library : Library) (position : Position)

def durationAmount (arguments : List Value) (name : String) : Except LibraryFault Binary64 :=
  match arguments with
  | .integer n :: _ => .ok (ofInt64 n)
  | .float n :: _ => .ok n
  | other :: _ => typeError position (name ++ "() requires numeric amount, got " ++ other.typeName)
  | [] => typeError position (name ++ "() requires a numeric amount")

/-- `Duration::milliseconds`, whose least duration is that of `-i64::MAX`. -/
def milliseconds (millis : Int64) : Except LibraryFault Value :=
  if millis = Int64.minValue then .error .panic else .ok (.duration (millis.toInt * 1000000))

def durationFromUnit (arguments : List Value) (name : String) (millisPerUnit : Nat) :
    Except LibraryFault Value := do
  let amount ← durationAmount position arguments name
  milliseconds (amount.timesNat millisPerUnit).roundToInt64

def temporal? : Value → Option TemporalValue
  | .instant nanoseconds => some (.instant nanoseconds)
  | .date days => some (.date days)
  | .time nanoseconds => some (.time nanoseconds)
  | _ => none

def formatTemporalValue (value : Value) (mask : String) : Except LibraryFault Value :=
  match temporal? value with
  | some temporal =>
      match chrono.format temporal (chronoMask mask.toList) with
      | some text => .ok (.string (String.ofList text))
      | none => .error .panic
  | none =>
      typeError position ("time.format() requires instant, date, or time, got " ++ value.typeName)

def dispatchFormat (arguments : List Value) : Except LibraryFault Value :=
  match arguments with
  | [] => typeError position "time.format() requires value and mask"
  | value :: .string mask :: _ => formatTemporalValue chrono position value mask
  | _ :: other :: _ =>
      typeError position ("time.format() argument 2 must be String, got " ++ other.typeName)
  | [_] => typeError position "time.format() missing required argument 2"

def dispatchTime (method : String) (arguments : List Value) : Except LibraryFault Value :=
  if method = "days" then durationFromUnit position arguments "time.days" 86400000
  else if method = "hours" then durationFromUnit position arguments "time.hours" 3600000
  else if method = "minutes" then durationFromUnit position arguments "time.minutes" 60000
  else if method = "seconds" then durationFromUnit position arguments "time.seconds" 1000
  else if method = "format" then dispatchFormat chrono position arguments
  else library.time position method arguments

end TimeNamespace

/-- The library with these functions. -/
def Library.withTime (library : Library) (chrono : TimeNamespace.Chrono) : Library :=
  { library with time := TimeNamespace.dispatchTime chrono library }

namespace TimeNamespace

open Operators (typeError)

/-! ## Durations -/

/-- The units of durations. -/
inductive TimeUnit where
  | days | hours | minutes | seconds

def TimeUnit.method : TimeUnit → String
  | .days => "days"
  | .hours => "hours"
  | .minutes => "minutes"
  | .seconds => "seconds"

def TimeUnit.millis : TimeUnit → Nat
  | .days => 86400000
  | .hours => 3600000
  | .minutes => 60000
  | .seconds => 1000

def IsTypeError (result : Except LibraryFault Value) : Prop :=
  ∃ message line column, result = .error (.error (.typeError message line column))

/-- A value or a type error, and no panic. -/
def Graceful (result : Except LibraryFault Value) : Prop :=
  (∃ value, result = .ok value) ∨ IsTypeError result

/-- The number a duration is made of. -/
def amount? : List Value → Option Binary64
  | .integer n :: _ => some (ofInt64 n)
  | .float n :: _ => some n
  | _ => none

section Results

variable {chrono : Chrono} {library : Library} {position : Position}

theorem time_unit (unit : TimeUnit) (arguments : List Value) :
    (library.withTime chrono).time position unit.method arguments =
      durationFromUnit position arguments ("time." ++ unit.method) unit.millis := by
  cases unit <;> rfl

theorem milliseconds_graceful_iff (millis : Int64) :
    Graceful (milliseconds millis) ↔ millis ≠ Int64.minValue := by
  rw [milliseconds]
  split
  · rename_i least
    refine iff_of_false ?_ fun other => other least
    rintro (⟨value, returns⟩ | ⟨message, line, column, fails⟩)
    · cases returns
    · cases fails
  · rename_i other
    exact iff_of_true (.inl ⟨_, rfl⟩) other

theorem durationAmount_cases (arguments : List Value) (name : String) :
    (∃ amount, amount? arguments = some amount ∧
      durationAmount position arguments name = .ok amount) ∨
    amount? arguments = none ∧
      ∃ message, durationAmount position arguments name = typeError position message := by
  unfold durationAmount
  split
  · exact .inl ⟨_, rfl, rfl⟩
  · exact .inl ⟨_, rfl, rfl⟩
  · rename_i other rest notInteger notFloat
    refine .inr ⟨?_, _, rfl⟩
    cases other with
    | integer n => exact absurd rfl (notInteger n)
    | float n => exact absurd rfl (notFloat n)
    | _ => rfl
  · exact .inr ⟨rfl, _, rfl⟩

/-- A duration is made exactly when the amount is not beyond the least one. -/
theorem duration_graceful_iff (unit : TimeUnit) (arguments : List Value) :
    Graceful ((library.withTime chrono).time position unit.method arguments) ↔
      ∀ amount ∈ amount? arguments, ¬ amount.BelowRange unit.millis := by
  rw [time_unit]
  rw [durationFromUnit]
  rcases @durationAmount_cases position arguments ("time." ++ unit.method) with
    ⟨amount, known, found⟩ | ⟨none, message, fails⟩
  · rw [found, known]
    refine (milliseconds_graceful_iff _).trans ?_
    refine (not_congr (roundToInt64_timesNat_iff amount unit.millis)).trans ?_
    simp
  · rw [fails, none]
    exact iff_of_true (.inr ⟨_, _, _, rfl⟩) nofun

/-! ## Formats -/

/-- The mask with the fields of the value, or a type error where there is no such text. -/
def FormatsFaithfully (arguments : List Value) (result : Except LibraryFault Value) : Prop :=
  match arguments with
  | value :: .string mask :: _ =>
      match temporal? value with
      | some temporal =>
          (∃ text, result = .ok (.string text) ∧
            expected temporal mask.toList = some text.toList) ∨
          expected temporal mask.toList = none ∧ IsTypeError result
      | none => IsTypeError result
  | _ => IsTypeError result

/-- The masks that are understood. -/
def MaskFits (arguments : List Value) : Prop :=
  match arguments with
  | value :: .string mask :: _ =>
      ∀ temporal ∈ temporal? value, PlainMask mask.toList ∧ HasFields temporal mask.toList
  | _ => True

theorem format_faithful (lawful : chrono.Lawful) (arguments : List Value) :
    FormatsFaithfully arguments ((library.withTime chrono).time position "format" arguments) ↔
      MaskFits arguments := by
  change FormatsFaithfully arguments (dispatchFormat chrono position arguments) ↔ _
  unfold dispatchFormat
  split
  · exact iff_of_true ⟨_, _, _, rfl⟩ trivial
  · rename_i value mask rest
    rw [FormatsFaithfully, MaskFits, formatTemporalValue]
    cases known : temporal? value with
    | none => exact iff_of_true ⟨_, _, _, rfl⟩ nofun
    | some temporal =>
        have faithful := @format_faithful_iff chrono temporal lawful mask.toList
        simp only [Option.mem_def, Option.some.injEq, forall_eq']
        rw [← faithful]
        cases prints : chrono.format temporal (chronoMask mask.toList) with
        | none =>
            refine iff_of_false ?_ (fun ⟨_, missing, _⟩ => nomatch missing)
            rintro (⟨text, returns, -⟩ | ⟨-, message, line, column, fails⟩)
            · cases returns
            · cases fails
        | some text =>
            constructor
            · rintro (⟨other, returns, wanted⟩ | ⟨-, message, line, column, fails⟩)
              · cases returns
                rw [String.toList_ofList] at wanted
                exact ⟨text, rfl, wanted⟩
              · cases fails
            · rintro ⟨other, same, wanted⟩
              obtain rfl := Option.some.inj same
              refine .inl ⟨_, rfl, ?_⟩
              rw [String.toList_ofList]
              exact wanted
  · rename_i value other rest noMask
    cases other with
    | string mask => exact absurd rfl (noMask mask)
    | _ => exact iff_of_true ⟨_, _, _, rfl⟩ trivial
  · exact iff_of_true ⟨_, _, _, rfl⟩ trivial

/-- Durations panic exactly beyond the least one, and formats are faithful exactly on the masks
that fit. -/
theorem time_faithful_iff (lawful : chrono.Lawful) (library : Library) (position : Position)
    (unit : TimeUnit) (amounts formats : List Value) :
    (Graceful ((library.withTime chrono).time position unit.method amounts) ↔
      ∀ amount ∈ amount? amounts, ¬ amount.BelowRange unit.millis) ∧
    (FormatsFaithfully formats ((library.withTime chrono).time position "format" formats) ↔
      MaskFits formats) :=
  ⟨duration_graceful_iff unit amounts, format_faithful lawful formats⟩

end Results

def bareFormat (value : TemporalValue) : List Char → Option (List Char)
  | [] => some []
  | ['%'] => none
  | '%' :: ch :: rest =>
      if ch = '%' then (bareFormat value rest).map ('%' :: ·)
      else
        (Field.all.find? (·.specifier = ch)).bind fun field =>
          (field? value field).bind fun text => (bareFormat value rest).map (text ++ ·)
  | ch :: rest => (bareFormat value rest).map (ch :: ·)

/-- A calendar library without specifications of its own. -/
def bareChrono : Chrono where
  format := bareFormat

theorem lawful_bareChrono : bareChrono.Lawful where
  nil _ := rfl
  char value rest ch plain := by
    change bareFormat value (ch :: rest) = (bareFormat value rest).map (ch :: ·)
    rw [bareFormat]
    · exact fun same _ => plain same
    · exact fun _ _ same _ => plain same
  percent _ _ := rfl
  field _ _ field := by cases field <;> rfl
  other value rest text other prints := by
    cases rest with
    | nil => cases prints
    | cons ch rest =>
        have plain : ch ≠ '%' := by simpa using other
        change bareFormat value ('%' :: ch :: rest) = some text at prints
        rw [bareFormat, if_neg plain, Option.bind_eq_some_iff] at prints
        obtain ⟨field, -, prints⟩ := prints
        rw [Option.bind_eq_some_iff] at prints
        obtain ⟨printed, known, prints⟩ := prints
        obtain ⟨later, found, same⟩ := Option.map_eq_some_iff.mp prints
        exact ⟨printed, 1, later, (fieldText known).plain, by simpa using plain.symm, found, same⟩

instance (piece : Piece) : Decidable piece.beginsMinute :=
  inferInstanceAs (Decidable (_ ∨ _))

theorem time_faithful_day :
    Graceful ((scalarLibrary.withTime bareChrono).time ⟨1, 1⟩ "days" [.integer 3]) ∧
    FormatsFaithfully [.date 20570, .string "dd/MM/yyyy"]
      ((scalarLibrary.withTime bareChrono).time ⟨1, 1⟩ "format"
        [.date 20570, .string "dd/MM/yyyy"]) := by
  obtain ⟨durations, formats⟩ := time_faithful_iff lawful_bareChrono scalarLibrary ⟨1, 1⟩ .days
    [.integer 3] [.date 20570, .string "dd/MM/yyyy"]
  constructor
  · apply durations.mpr
    intro amount same below
    obtain rfl := Option.some.inj same
    exact absurd below.1 (by decide +kernel)
  · apply formats.mpr
    intro temporal same
    obtain rfl := Option.some.inj same
    have read : pieces "dd/MM/yyyy".toList =
        [.field .day, .char '/', .field .month, .char '/', .field .year] := by decide +kernel
    refine ⟨⟨?_, ?_⟩, ?_⟩
    · rw [read]
      decide
    · rw [read]
      decide
    · intro field member
      rw [read] at member
      cases field with
      | year | month | day => rfl
      | _ => exact absurd member (by decide)

/-- A day as a number of days that no duration holds stops the thread, a `%` is taken for a
specification, and a minute behind a month hides it. -/
theorem time_unfaithful :
    (¬ Graceful ((scalarLibrary.withTime bareChrono).time ⟨1, 1⟩ "days"
      [.integer Int64.minValue])) ∧
    (scalarLibrary.withTime bareChrono).time ⟨1, 1⟩ "format" [.date 20570, .string "dd 100%"] =
      .error .panic ∧
    (scalarLibrary.withTime bareChrono).time ⟨1, 1⟩ "format" [.date 20570, .string "HH"] =
      .error .panic ∧
    ¬ FormatsFaithfully [.instant 0, .string "MMmm"]
      ((scalarLibrary.withTime bareChrono).time ⟨1, 1⟩ "format" [.instant 0, .string "MMmm"]) := by
  refine ⟨fun graceful => ?_, ?_, ?_, fun faithful => ?_⟩
  · have below := (@duration_graceful_iff bareChrono scalarLibrary ⟨1, 1⟩ .days
      [.integer Int64.minValue]).mp graceful (ofInt64 Int64.minValue) rfl
    apply below
    have magnitude : (ofInt64 Int64.minValue).magnitude? = some (2 ^ 63 * 2 ^ 1074) := by
      decide +kernel
    rw [BelowRange, magnitude]
    exact ⟨by decide +kernel, by decide +kernel⟩
  · have prints : bareChrono.format (.date 20570) (chronoMask "dd 100%".toList) = none := by
      decide +kernel
    change formatTemporalValue bareChrono ⟨1, 1⟩ (.date 20570) "dd 100%" = _
    simp only [formatTemporalValue, temporal?, prints]
  · have prints : bareChrono.format (.date 20570) (chronoMask "HH".toList) = none := by
      decide +kernel
    change formatTemporalValue bareChrono ⟨1, 1⟩ (.date 20570) "HH" = _
    simp only [formatTemporalValue, temporal?, prints]
  · have fits := (@format_faithful bareChrono scalarLibrary ⟨1, 1⟩ lawful_bareChrono
      [.instant 0, .string "MMmm"]).mp faithful (.instant 0) rfl
    have read : pieces "MMmm".toList = [.field .month, .field .minute] := by decide +kernel
    have apart := fits.1.apart
    rw [read] at apart
    exact absurd apart (by decide)

end TimeNamespace

end Marreta
